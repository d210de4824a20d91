import Criteria.Filter.Lookahead
import Criteria.Proofs.Text.Words

/-!
# What the look-ahead finds

The look-ahead finds a combinator, in any case, with one character of white space directly
in front of it and one directly behind it.
-/

namespace Criteria
namespace Filter

open Text

/-- Whether a word stands somewhere in a text between two characters of white space. -/
def HasSpaced (word s : List Char) : Prop :=
  ∃ x a w b y, s = x ++ a :: (w ++ b :: y) ∧ a.isWhitespace = true ∧
    Spells .caseless word w ∧ b.isWhitespace = true

theorem startsSpaced_eq_true_iff {word s : List Char} :
    startsSpaced word s = true ↔
      ∃ a w b y, s = a :: (w ++ b :: y) ∧ a.isWhitespace = true ∧ Spells .caseless word w ∧
        b.isWhitespace = true := by
  cases s with
  | nil =>
    refine ⟨fun h => absurd h Bool.false_ne_true, ?_⟩
    intro h
    obtain ⟨a, w, b, y, h, -⟩ := h
    cases h
  | cons a s =>
    constructor
    · intro h
      simp only [startsSpaced, Bool.and_eq_true] at h
      obtain ⟨ha, h⟩ := h
      split at h
      · rename_i b y hd
        obtain ⟨w, hw, rfl⟩ := dropWord?_eq_some_iff.1 hd
        exact ⟨a, w, b, y, rfl, ha, hw, h⟩
      · cases h
    · intro h
      obtain ⟨a', w, b, y, h, ha, hw, hb⟩ := h
      cases h
      have hd : dropWord? .caseless word (w ++ b :: y) = some (b :: y) :=
        dropWord?_eq_some_iff.2 ⟨w, hw, rfl⟩
      simp [startsSpaced, ha, hd, hb]

theorem hasSpaced_eq_true_iff {word s : List Char} :
    hasSpaced word s = true ↔ HasSpaced word s := by
  induction s with
  | nil =>
    refine ⟨fun h => absurd h Bool.false_ne_true, ?_⟩
    intro h
    obtain ⟨x, a, w, b, y, h, -⟩ := h
    simp at h
  | cons c s ih =>
    rw [hasSpaced, Bool.or_eq_true, startsSpaced_eq_true_iff, ih]
    constructor
    · intro h
      rcases h with ⟨a, w, b, y, h, hw⟩ | ⟨x, a, w, b, y, rfl, hw⟩
      · exact ⟨[], a, w, b, y, h, hw⟩
      · exact ⟨c :: x, a, w, b, y, rfl, hw⟩
    · intro h
      obtain ⟨x, a, w, b, y, h, hw⟩ := h
      cases x with
      | nil => exact .inl ⟨a, w, b, y, h, hw⟩
      | cons d x =>
        cases h
        exact .inr ⟨x, a, w, b, y, rfl, hw⟩

/-- What is found in a text is found wherever that text stands. -/
theorem HasSpaced.append {word s : List Char} (h : HasSpaced word s) (u v : List Char) :
    HasSpaced word (u ++ s ++ v) := by
  obtain ⟨x, a, w, b, y, rfl, hw⟩ := h
  exact ⟨u ++ x, a, w, b, y ++ v, by simp, hw⟩

theorem lookahead_ne_none_iff {s : List Char} :
    lookahead s ≠ none ↔ ∃ c : Combinator, HasSpaced c.word s := by
  have hor : hasSpaced Combinator.or.word s = true ↔ _ := hasSpaced_eq_true_iff
  have hand : hasSpaced Combinator.and.word s = true ↔ _ := hasSpaced_eq_true_iff
  unfold lookahead
  constructor
  · intro h
    split at h
    · exact ⟨.or, hor.1 ‹_›⟩
    · split at h
      · exact ⟨.and, hand.1 ‹_›⟩
      · exact absurd rfl h
  · intro h
    obtain ⟨c, hc⟩ := h
    cases c with
    | or => simp [hor.2 hc]
    | and => split <;> simp [hand.2 hc]

end Filter
end Criteria
