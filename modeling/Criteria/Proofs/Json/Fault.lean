import Mathlib
import Criteria.Json.Fault
import Criteria.Proofs.Decimal.Notation
import Criteria.Proofs.Text.Quoted

/-!
# What messages tell

A message about a value that does not fit names what was found.  Doubles are shown as numbers that
read back, texts with escapes, and lists and objects by their kind.  What was found can be told from
its name.
-/

namespace Criteria
namespace Json

theorem isNumeric_realLayout : realLayout.IsNumeric where
  wholeSuffix := ⟨1, .some (by decide)⟩
  positiveMark := fun _ h => .some (.inl rfl) .plus h
  negativeMark := fun _ h => .some (.inl rfl) .minus h

/-- A double is shown as a number with its sign that has the fewest digits of those that round to
it, and is as near to it as these can be. -/
theorem isNumber_real (bits : UInt64) :
    ∃ (n : Spelling) (d : Decimal), IsNumber n (realLayout.writeDouble bits).toList ∧
      n.negative = decide (2 ^ 63 ≤ bits.toNat) ∧ n.magnitude = d.value ∧
      Decimal.IsShortest (Dyadic.ofBits bits) d := by
  obtain ⟨n, hn, hsign, hvalue⟩ :=
    Decimal.Layout.isNumber_writeDouble isNumeric_realLayout bits
  exact ⟨n, _, hn, hsign, hvalue, Decimal.isShortest_shortest (Dyadic.isDouble_ofBits bits)⟩

example : realLayout.writeDouble 0x3EE4F8B588E368F1 = "0.00001" := by decide +kernel

example : realLayout.writeDouble 0x43F0000000000000 = "1.8446744073709552e+19" := by decide +kernel

namespace Found

/-- How the message of each kind of value begins. -/
def initials : Found → List Char
  | null => ['n', 'u']
  | boolean _ => ['b', 'o']
  | integer _ => ['i', 'n']
  | real _ => ['f', 'l']
  | text _ => ['s', 't']
  | list => ['s', 'e']
  | object => ['m', 'a']
  | bareVariant => ['u', 'n']

theorem take_name (found : Found) : found.name.toList.take 2 = found.initials := by
  cases found <;> simp [name, initials]

theorem inBackticks_injective : Function.Injective inBackticks := by
  intro s t h
  exact (String.append_right_inj "`").1 ((String.append_left_inj "`").1 h)

theorem name_injective : Function.Injective name := by
  intro a b h
  have hinitials : a.initials = b.initials := by rw [← take_name, ← take_name, h]
  cases a with
  | null => cases b with
    | null => rfl
    | _ => exact absurd hinitials (by simp [initials])
  | boolean a => cases b with
    | boolean b =>
      have hword := inBackticks_injective ((String.append_right_inj _).1 h)
      cases a <;> cases b
      · rfl
      · exact absurd hword (by decide)
      · exact absurd hword (by decide)
      · rfl
    | _ => exact absurd hinitials (by simp [initials])
  | integer a => cases b with
    | integer b =>
      have hdigits := inBackticks_injective ((String.append_right_inj _).1 h)
      exact congrArg integer (Int.repr_injective hdigits)
    | _ => exact absurd hinitials (by simp [initials])
  | real a => cases b with
    | real b =>
      have hnumber := inBackticks_injective ((String.append_right_inj _).1 h)
      exact congrArg real (Decimal.Layout.writeDouble_injective isNumeric_realLayout hnumber)
    | _ => exact absurd hinitials (by simp [initials])
  | text a => cases b with
    | text b =>
      have hquote := (String.append_right_inj _).1 h
      exact congrArg text (Text.quoteForMessage_injective hquote)
    | _ => exact absurd hinitials (by simp [initials])
  | list => cases b with
    | list => rfl
    | _ => exact absurd hinitials (by simp [initials])
  | object => cases b with
    | object => rfl
    | _ => exact absurd hinitials (by simp [initials])
  | bareVariant => cases b with
    | bareVariant => rfl
    | _ => exact absurd hinitials (by simp [initials])

end Found

end Json
end Criteria
