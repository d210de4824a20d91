import Criteria.Json.Fault
import Criteria.Text.Scan

/-!
# Numbers in documents

`scanNumber` finds the parts in which a number is spelled, and `Spelling.value`
gives the number.  An integer of 64 bits is kept as it is.  Any other number
becomes a double: the first digits that fit into 64 bits are converted, and the
result is scaled by one power of ten.
-/

namespace Criteria
namespace Json

structure Spelling where
  negative : Bool
  whole : List Char
  /-- The digits behind the point.  There are none if there is no point. -/
  places : List Char
  /-- Whether the exponent is negative, and its digits. -/
  exponent : Option (Bool × List Char)
  deriving DecidableEq

/-! ## Spelling

`atEnd` is the fault of a document that ends where a digit must stand. -/

def readDigits (atEnd : Fault) (s : List Char) : Except Fault (List Char × List Char) :=
  match s.takeWhile Char.isDigit with
  | [] => .error (if s.isEmpty then atEnd else .malformed .invalidNumber)
  | ds => .ok (ds, s.dropWhile Char.isDigit)

/-- The digits before the point, of which the first is a zero only if it is the
only one. -/
def readWhole (atEnd : Fault) (s : List Char) : Except Fault (List Char × List Char) := do
  let (ds, rest) ← readDigits atEnd s
  match ds with
  | '0' :: _ :: _ => .error (.malformed .invalidNumber)
  | _ => .ok (ds, rest)

def readPlaces (atEnd : Fault) : List Char → Except Fault (List Char × List Char)
  | '.' :: s => readDigits atEnd s
  | s => .ok ([], s)

def readSign : List Char → Bool × List Char
  | '-' :: s => (true, s)
  | '+' :: s => (false, s)
  | s => (false, s)

def readExponent (atEnd : Fault) (s : List Char) :
    Except Fault (Option (Bool × List Char) × List Char) :=
  match s with
  | [] => .ok (none, [])
  | c :: t =>
    if c = 'e' ∨ c = 'E' then do
      let (negative, t) := readSign t
      let (ds, rest) ← readDigits atEnd t
      .ok (some (negative, ds), rest)
    else .ok (none, s)

/-- Scans a number from behind its sign. -/
def scanUnsigned (atEnd : Fault) (negative : Bool) (s : List Char) :
    Except Fault (Spelling × List Char) := do
  let (whole, s) ← readWhole atEnd s
  let (places, s) ← readPlaces atEnd s
  let (exponent, rest) ← readExponent atEnd s
  .ok (⟨negative, whole, places, exponent⟩, rest)

def scanNumber (atEnd : Fault) : List Char → Except Fault (Spelling × List Char)
  | '-' :: s => scanUnsigned atEnd true s
  | s => scanUnsigned atEnd false s

theorem length_readDigits {atEnd : Fault} {s rest ds : List Char}
    (h : readDigits atEnd s = .ok (ds, rest)) : rest.length < s.length := by
  unfold readDigits at h
  split at h
  · cases h
  · rename_i hne
    cases h
    have h1 : (s.takeWhile Char.isDigit).length + (s.dropWhile Char.isDigit).length = s.length := by
      rw [← List.length_append, List.takeWhile_append_dropWhile]
    have h2 := List.length_pos_iff.2 hne
    omega

theorem length_readWhole {atEnd : Fault} {s rest ds : List Char}
    (h : readWhole atEnd s = .ok (ds, rest)) : rest.length < s.length := by
  simp only [readWhole, bind_eq_ok_iff, Prod.exists] at h
  obtain ⟨ds', r, h₁, h₂⟩ := h
  have := length_readDigits h₁
  split at h₂
  · cases h₂
  · cases h₂
    assumption

theorem length_readPlaces {atEnd : Fault} {s rest ds : List Char}
    (h : readPlaces atEnd s = .ok (ds, rest)) : rest.length ≤ s.length := by
  unfold readPlaces at h
  split at h
  · have := length_readDigits h
    simp only [List.length_cons]
    omega
  · cases h
    exact Nat.le_refl _

theorem length_readSign_le (s : List Char) : (readSign s).2.length ≤ s.length := by
  unfold readSign
  split <;> simp

theorem length_readExponent {atEnd : Fault} {s rest : List Char} {e : Option (Bool × List Char)}
    (h : readExponent atEnd s = .ok (e, rest)) : rest.length ≤ s.length := by
  unfold readExponent at h
  split at h
  · cases h
    exact Nat.le_refl _
  · rename_i c t
    split at h
    · simp only [bind_eq_ok_iff, Prod.exists] at h
      obtain ⟨ds, r, h₁, h₂⟩ := h
      cases h₂
      have := length_readDigits h₁
      have := length_readSign_le t
      simp only [List.length_cons]
      omega
    · cases h
      exact Nat.le_refl _

theorem length_scanUnsigned {atEnd : Fault} {negative : Bool} {s rest : List Char} {n : Spelling}
    (h : scanUnsigned atEnd negative s = .ok (n, rest)) : rest.length < s.length := by
  simp only [scanUnsigned, bind_eq_ok_iff, Prod.exists] at h
  obtain ⟨ds, s₁, h₁, ps, s₂, h₂, e, s₃, h₃, h₄⟩ := h
  cases h₄
  have := length_readWhole h₁
  have := length_readPlaces h₂
  have := length_readExponent h₃
  omega

theorem length_scanNumber {atEnd : Fault} {s rest : List Char} {n : Spelling}
    (h : scanNumber atEnd s = .ok (n, rest)) : rest.length < s.length := by
  unfold scanNumber at h
  split at h
  · have := length_scanUnsigned h
    simp only [List.length_cons]
    omega
  · exact length_scanUnsigned h

/-! ## Values -/

inductive Number
  | integer (i : Int)
  /-- A finite double, as its bits. -/
  | real (bits : UInt64)
  deriving DecidableEq

def Number.found : Number → Found
  | integer i => .integer i
  | real bits => .real bits

def digitValue (c : Char) : Nat := c.toNat - '0'.toNat

def natOfDigits (ds : List Char) : Nat := ds.foldl (fun n c => 10 * n + digitValue c) 0

/-- Appends digits to a number for as long as it fits into 64 bits, and hands back
the digits from the first that does not fit. -/
def absorb (n : Nat) : List Char → Nat × List Char
  | [] => (n, [])
  | c :: ds =>
    if 10 * n + digitValue c < UInt64.size then absorb (10 * n + digitValue c) ds
    else (n, c :: ds)

def powerOfTen (n : Nat) : Float := Float.ofScientific 1 false n

/-- `x * 10 ^ exponent`, by multiplications and divisions with powers of ten that
are doubles.  There is none if the result is not finite. -/
def scale (x : Float) (exponent : Int) : Option Float :=
  if 0 ≤ exponent then
    if exponent ≤ 308 then
      let y := x * powerOfTen exponent.toNat
      if y.isInf then none else some y
    else if x == 0 then some x
    else none
  else if -308 ≤ exponent then some (x / powerOfTen (-exponent).toNat)
  else if x == 0 then some x
  else scale (x / powerOfTen 308) (exponent + 308)
termination_by exponent.natAbs
decreasing_by omega

namespace Spelling

def exponentValue (n : Spelling) : Int :=
  match n.exponent with
  | none => 0
  | some (negative, ds) => if negative then -(natOfDigits ds : Int) else natOfDigits ds

/-- Digits before the point that are left out count as places to the left, and
digits behind it that are taken in as places to the right. -/
def double? (n : Spelling) : Option Float := do
  let (significand, leftOut) := absorb 0 n.whole
  let (significand, unread) := absorb significand n.places
  let shift : Int := leftOut.length - (n.places.length - unread.length : Nat)
  let x ← scale (UInt64.ofNat significand).toFloat (shift + n.exponentValue)
  some (if n.negative then -x else x)

def real (n : Spelling) : Except Fault Number :=
  match n.double? with
  | some x => .ok (.real x.toBits)
  | none => .error (.malformed .numberOutOfRange)

/-- An integer that 64 bits can hold, with or without sign.  Minus zero is none. -/
def integer? (n : Spelling) : Option Int :=
  if n.places.isEmpty && n.exponent.isNone then
    let w := natOfDigits n.whole
    if n.negative then if 0 < w ∧ w ≤ Nat.pow 2 63 then some (-(w : Int)) else none
    else if w < UInt64.size then some w
    else none
  else none

def value (n : Spelling) : Except Fault Number :=
  match n.integer? with
  | some i => .ok (.integer i)
  | none => n.real

end Spelling

/-- Reads a number that is kept. -/
def readNumber (s : List Char) : Except Fault (Number × List Char) := do
  let (spelling, rest) ← scanNumber (.ended .value) s
  let value ← spelling.value
  .ok (value, rest)

/-- Passes over a number.  A missing digit is then the same flaw at the end of the
document as elsewhere, and no number is too large. -/
def skipNumber (s : List Char) : Except Fault (List Char) := do
  let (_, rest) ← scanNumber (.malformed .invalidNumber) s
  .ok rest

theorem length_readNumber {s rest : List Char} {n : Number} (h : readNumber s = .ok (n, rest)) :
    rest.length < s.length := by
  simp only [readNumber, bind_eq_ok_iff, Prod.exists] at h
  obtain ⟨sp, r, h₁, v, -, h₃⟩ := h
  cases h₃
  exact length_scanNumber h₁

theorem length_skipNumber {s rest : List Char} (h : skipNumber s = .ok rest) :
    rest.length < s.length := by
  simp only [skipNumber, bind_eq_ok_iff, Prod.exists] at h
  obtain ⟨sp, r, h₁, h₂⟩ := h
  cases h₂
  exact length_scanNumber h₁

end Json
end Criteria
