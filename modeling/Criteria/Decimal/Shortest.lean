/-!
# Shortest decimals

A double is `mantissa * 2 ^ exponent`.  The reals that round to it form an interval
around it, whose ends belong to it when the mantissa is even.  `shortest` finds the
decimal with the fewest digits in that interval, and of two with equally many the
nearer one.  If both are equally near, it is the one with an even last digit.

A grid of decimals with a fixed number of places has a point in the interval only
if one of the two points next to the double is such a point, since the interval
holds the double.  So only these two are tested, on grids that grow finer digit by
digit.  Seventeen digits always suffice.
-/

namespace Criteria

/-- The number `digits * 10 ^ exponent`. -/
structure Decimal where
  digits : Nat
  exponent : Int
  deriving DecidableEq

/-- The magnitude of a finite double. -/
structure Dyadic where
  mantissa : Nat
  exponent : Int
  deriving DecidableEq

namespace Dyadic

def ofBits (bits : UInt64) : Dyadic :=
  let fraction : Nat := bits.toNat % Nat.pow 2 52
  let field : Nat := bits.toNat / Nat.pow 2 52 % Nat.pow 2 11
  if field = 0 then ⟨fraction, -1074⟩ else ⟨fraction + Nat.pow 2 52, (field : Int) - 1075⟩

/-- The distances to the ends of the interval, and of the number from zero, all as
multiples of `2 ^ (exponent - 2)`.  Below a power of two doubles lie twice as
densely, so there the lower end is nearer. -/
def lower (x : Dyadic) : Nat :=
  if x.mantissa = Nat.pow 2 52 ∧ x.exponent ≠ -1074 then 4 * x.mantissa - 1 else 4 * x.mantissa - 2

def upper (x : Dyadic) : Nat := 4 * x.mantissa + 2

/-- The factor that `2 ^ (exponent - 2)` contributes above the fraction bar. -/
def numerator (x : Dyadic) : Nat := Nat.pow 2 (x.exponent - 2).toNat

/-- The factor that `2 ^ (exponent - 2)` contributes below the fraction bar. -/
def denominator (x : Dyadic) : Nat := Nat.pow 2 (2 - x.exponent).toNat

/-- `n` multiples of `2 ^ (exponent - 2)`, on a scale on which the decimals with the
exponent `k` are `decimalOnScale`. -/
def onScale (x : Dyadic) (k : Int) (n : Nat) : Nat := n * x.numerator * Nat.pow 10 (-k).toNat

def decimalOnScale (x : Dyadic) (k : Int) (digits : Nat) : Nat :=
  digits * Nat.pow 10 k.toNat * x.denominator

/-- Whether `digits * 10 ^ k` rounds to the double. -/
def roundsFrom (x : Dyadic) (k : Int) (digits : Nat) : Bool :=
  let d := x.decimalOnScale k digits
  let low := x.onScale k x.lower
  let high := x.onScale k x.upper
  if x.mantissa % 2 = 0 then low ≤ d && d ≤ high else low < d && d < high

/-- The decimal with exponent `k` that rounds to the double and is nearest to it. -/
def nearest? (x : Dyadic) (k : Int) : Option Nat :=
  let value := x.onScale k (4 * x.mantissa)
  let below := value / x.decimalOnScale k 1
  let above := below + 1
  match x.roundsFrom k below, x.roundsFrom k above with
  | false, false => none
  | true, false => some below
  | false, true => some above
  | true, true =>
    let down := value - x.decimalOnScale k below
    let up := x.decimalOnScale k above - value
    if down < up ∨ (down = up ∧ below % 2 = 0) then some below else some above

/-- The least number of places behind the point at which a digit other than zero
stands, looked for from `places` on. -/
def leadingPlace (numerator denominator : Nat) : Nat → Nat → Nat
  | 0, places => places
  | fuel + 1, places =>
    if denominator ≤ numerator * Nat.pow 10 places then places
    else leadingPlace numerator denominator fuel (places + 1)

/-- The decimal exponent of the leading digit. -/
def magnitude (x : Dyadic) : Int :=
  let numerator := 4 * x.mantissa * x.numerator
  let whole := numerator / x.denominator
  if whole = 0 then -(leadingPlace numerator x.denominator 330 1 : Int)
  else (Nat.toDigits 10 whole).length - 1

end Dyadic

namespace Decimal

/-- Moves zeros at the end of the digits into the exponent. -/
def stripZeros : Nat → Decimal → Decimal
  | 0, d => d
  | fuel + 1, d =>
    if d.digits % 10 = 0 then stripZeros fuel ⟨d.digits / 10, d.exponent + 1⟩ else d

/-- The first grid with a decimal that rounds to `x`, with `count` digits or more. -/
def shortestFrom (x : Dyadic) : Nat → Nat → Decimal
  | 0, _ => ⟨0, 0⟩
  | fuel + 1, count =>
    let k := x.magnitude - count + 1
    match x.nearest? k with
    | some digits => stripZeros 18 ⟨digits, k⟩
    | none => shortestFrom x fuel (count + 1)

def shortest (x : Dyadic) : Decimal :=
  if x.mantissa = 0 then ⟨0, 0⟩ else shortestFrom x 17 1

end Decimal
end Criteria
