import Criteria.Json.Codec
import Criteria.Proofs.Json.Nesting

/-!
# Pieces of documents that are read back

A piece of a document carries a value if a reader finds the value in it, as far as it may
open the levels of the piece.  Texts, numbers, records, lists and variants carry what is
written in them, as soon as their parts do.
-/

namespace Criteria
namespace Json

open Text

/-- The answer of a reader that may open `depth` levels and finds `levels`. -/
def within {α : Type} (levels depth : Nat) (a : α) : Except Fault α :=
  if levels ≤ depth then .ok a else .error (.malformed .tooDeep)

/-- Whether a value may start with a character. -/
def startsValue (c : Char) : Bool := !c.isWhitespace && c != ']'

structure Carries {α : Type} (reader : Reader α) (depth : Nat) (w : Written) (a : α)
    (levels : Nat) : Prop where
  nests : Nests w levels
  starts : ∀ rest, Begins startsValue (w rest)
  reads : ∀ rest, Delimited rest → reader.run (w rest) = within levels depth (a, rest)

theorem within_of_le {α : Type} {levels depth : Nat} (h : levels ≤ depth) (a : α) :
    within levels depth a = .ok a := if_pos h

theorem within_of_lt {α : Type} {levels depth : Nat} (h : depth < levels) (a : α) :
    within levels depth a = .error (.malformed .tooDeep) := if_neg (Nat.not_le.2 h)

theorem within_zero {α : Type} (depth : Nat) (a : α) : within 0 depth a = .ok a :=
  within_of_le (Nat.zero_le depth) a

/-- Two pieces in turn have the levels of the deeper one. -/
theorem within_bind {α β : Type} {n m depth : Nat} {a : α} {b : β} {f : α → Except Fault β}
    (h : f a = within m depth b) : (within n depth a >>= f) = within (max n m) depth b := by
  by_cases hn : n ≤ depth
  · rw [within_of_le hn]
    show f a = _
    rw [h]
    by_cases hm : m ≤ depth
    · rw [within_of_le hm, within_of_le (Nat.max_le.2 ⟨hn, hm⟩)]
    · rw [within_of_lt (by omega), within_of_lt (by omega)]
  · rw [within_of_lt (by omega), within_of_lt (by omega)]
    rfl

theorem within_bind_ok {α β : Type} {n depth : Nat} {a : α} {b : β} {f : α → Except Fault β}
    (h : f a = .ok b) : (within n depth a >>= f) = within n depth b := by
  have hzero : f a = within 0 depth b := by rw [within_zero, h]
  rw [within_bind hzero, Nat.max_eq_left (Nat.zero_le n)]

theorem skipSpace_of_startsValue {s : List Char} (h : Begins startsValue s) :
    skipSpace s = s := by
  refine skipSpace_eq_self (h.not_begins fun c hc => ?_)
  rw [startsValue, Bool.and_eq_true] at hc
  exact Bool.eq_false_iff.2 fun hw => by simp [hw] at hc

/-! ## Plain values -/

variable {α : Type} {reader : Reader α} {depth n : Nat} {w : Written} {a : α}

theorem Carries.map {β : Type} (h : Carries reader depth w a n) (f : α → β) :
    Carries (reader.map f) depth w (f a) n where
  nests := h.nests
  starts := h.starts
  reads rest hrest := by
    show (reader.run (w rest) >>= _) = _
    rw [h.reads rest hrest]
    exact within_bind_ok rfl

theorem carries_text (s : String) (depth : Nat) : Carries textReader depth (writeText s) s 0 where
  nests := nests_writeText s
  starts _ := rfl
  reads rest _ := by
    rw [within_zero]
    exact readText_writeChars s rest

theorem carries_null (depth : Nat) (reader : Reader α) :
    Carries reader.optional depth writeNull none 0 where
  nests := nests_writeNull
  starts _ := rfl
  reads rest _ := by
    rw [within_zero]
    rfl

theorem carries_word (word : UInt64) (depth : Nat) :
    Carries wordReader.optional depth (writeNat word.toNat) (some word) 0 where
  nests := nests_writeNat word.toNat
  starts rest := by
    have hdigit := writeNat_begins word.toNat rest
    cases hs : writeNat word.toNat rest with
    | nil =>
      rw [hs] at hdigit
      exact absurd hdigit (not_begins_nil _)
    | cons c t =>
      rw [hs] at hdigit
      have hspace := isWhitespace_eq_false_of_isDigit hdigit
      have hbracket : c ≠ ']' := by
        rintro rfl
        exact Bool.false_ne_true hdigit
      simp [startsValue, hspace, hbracket]
  reads rest hrest := by
    rw [within_zero]
    show runOptional runWord _ = _
    unfold runOptional
    rw [skipSpace_writeNat]
    split
    · rename_i t ht
      have hdigit := writeNat_begins word.toNat rest
      rw [ht] at hdigit
      exact absurd hdigit Bool.false_ne_true
    · rw [runWord_writeNat word hrest.not_continuesNumber]
      rfl

end Json
end Criteria
