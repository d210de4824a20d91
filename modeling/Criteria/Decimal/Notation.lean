import Criteria.Decimal.Shortest

/-!
# Written decimals

A decimal is written positionally, or with an exponent behind one leading digit.
A `Layout` says for which numbers it is which, and how an exponent is marked.
-/

namespace Criteria
namespace Decimal

structure Layout where
  /-- The least exponent of a leading digit for which the number is written positionally. -/
  lowest : Int
  /-- The greatest such exponent. -/
  highest : Int
  /-- What is written behind a positional number without places. -/
  wholeSuffix : String
  /-- The mark of an exponent that is not negative. -/
  positiveMark : String
  /-- The mark of a negative exponent, sign included. -/
  negativeMark : String

namespace Layout

def zeros (n : Nat) : String := String.ofList (List.replicate n '0')

/-- The text of `d`, whose digits are `digits` and whose leading digit has the
exponent `lead`. -/
def positional (layout : Layout) (digits : List Char) (d : Decimal) (lead : Int) : String :=
  if 0 ≤ d.exponent then String.ofList digits ++ zeros d.exponent.toNat ++ layout.wholeSuffix
  else if 0 ≤ lead then
    let whole := lead.toNat + 1
    String.ofList (digits.take whole) ++ "." ++ String.ofList (digits.drop whole)
  else "0." ++ zeros (-lead - 1).toNat ++ String.ofList digits

def scientific (layout : Layout) (digits : List Char) (lead : Int) : String :=
  let places := String.ofList (digits.drop 1)
  let point := if places.isEmpty then "" else "."
  let mark := if lead < 0 then layout.negativeMark else layout.positiveMark
  String.ofList (digits.take 1) ++ point ++ places ++ mark ++ toString lead.natAbs

def write (layout : Layout) (d : Decimal) : String :=
  let digits := Nat.toDigits 10 d.digits
  let lead := d.exponent + digits.length - 1
  if layout.lowest ≤ lead ∧ lead ≤ layout.highest then layout.positional digits d lead
  else layout.scientific digits lead

/-- The text of a finite double, given by its bits. -/
def writeDouble (layout : Layout) (bits : UInt64) : String :=
  let sign := if bits.toNat < Nat.pow 2 63 then "" else "-"
  sign ++ layout.write (shortest (Dyadic.ofBits bits))

end Layout
end Decimal
end Criteria
