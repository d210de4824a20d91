import Mathlib.Computability.Language
import Criteria.Proofs.Filter.Lookahead

/-!
# Searching for spaced words

The look-ahead can be said as a search for patterns.  The pattern of a combinator is what stands
in front of it on a line, a run of white space, the combinator in any case, and another run of
white space.  Neither the line in front nor the length of the runs matters: a text has a part that
matches if and only if the combinator stands in it between two characters of white space.
-/

namespace Criteria
namespace Text

open Computability

/-! ## Patterns -/

/-- One character of a class. -/
def oneOf (p : Char → Bool) : Language Char := {s | ∃ c, p c = true ∧ s = [c]}

/-- One or more characters of a class. -/
def someOf (p : Char → Bool) : Language Char := oneOf p * (oneOf p)∗

/-- Folding of case in so far as it ends at letters of ASCII.  Beside their capitals these are
what the long s and the sign for kelvins fold to. -/
def foldCase (c : Char) : Char :=
  if c = '\u017f' then 's' else if c = '\u212a' then 'k' else c.toLower

/-- A word in any case. -/
def caselessWord : List Char → Language Char
  | [] => 1
  | k :: word => oneOf (fun c => foldCase c == foldCase k) * caselessWord word

/-- Anything on one line, white space, a word in any case, and white space. -/
def spacedWord (word : List Char) : Language Char :=
  (oneOf (· != '\n'))∗ * someOf Char.isWhitespace * caselessWord word *
    someOf Char.isWhitespace

/-- Whether some part of a text matches a pattern. -/
def IsFound (pattern : Language Char) (s : List Char) : Prop :=
  ∃ x m y, s = x ++ m ++ y ∧ m ∈ pattern

section

variable {p : Char → Bool} {c : Char} {s word : List Char}

theorem singleton_mem_oneOf (hc : p c = true) : [c] ∈ oneOf p := ⟨c, hc, rfl⟩

theorem singleton_mem_someOf (hc : p c = true) : [c] ∈ someOf p :=
  Language.append_mem_mul (singleton_mem_oneOf hc) (Language.nil_mem_kstar (oneOf p))

theorem exists_cons_of_mem_someOf (h : s ∈ someOf p) : ∃ c t, s = c :: t ∧ p c = true := by
  obtain ⟨a, ⟨c, hc, rfl⟩, t, -, rfl⟩ := Language.mem_mul.1 h
  exact ⟨c, t, rfl, hc⟩

/-- The first character of a run can be moved behind all others. -/
theorem exists_append_of_mem_someOf (h : s ∈ someOf p) :
    ∃ t c, s = t ++ [c] ∧ p c = true := by
  rw [someOf, ← Language.mul_self_kstar_comm] at h
  obtain ⟨t, -, a, ⟨c, hc, rfl⟩, rfl⟩ := Language.mem_mul.1 h
  exact ⟨t, c, rfl, hc⟩

/-! ## Letters -/

/-- Whether only a letter itself and its capital fold to it. -/
def FoldsPlainly (k : Char) : Prop := foldCase k = k ∧ k ≠ 's' ∧ k ≠ 'k'

instance (k : Char) : Decidable (FoldsPlainly k) :=
  inferInstanceAs (Decidable (foldCase k = k ∧ k ≠ 's' ∧ k ≠ 'k'))

theorem FoldsPlainly.foldCase_eq_iff {k : Char} (h : FoldsPlainly k) (c : Char) :
    foldCase c = foldCase k ↔ c.toLower = k := by
  obtain ⟨hfolded, hs, hk⟩ := h
  rw [hfolded]
  unfold foldCase
  split
  · rename_i hc
    subst hc
    refine iff_of_false hs.symm fun heq => ?_
    subst heq
    exact absurd hfolded (by decide)
  · split
    · rename_i hc
      subst hc
      refine iff_of_false hk.symm fun heq => ?_
      subst heq
      exact absurd hfolded (by decide)
    · exact Iff.rfl

theorem mem_caselessWord_iff (hword : ∀ k ∈ word, FoldsPlainly k) :
    s ∈ caselessWord word ↔ Spells .caseless word s := by
  induction word generalizing s with
  | nil => simp [caselessWord, Spells, Language.mem_one]
  | cons k word ih =>
    obtain ⟨hk, hword⟩ := List.forall_mem_cons.1 hword
    rw [caselessWord, Language.mem_mul]
    constructor
    · intro h
      obtain ⟨a, ⟨c, hc, rfl⟩, t, ht, rfl⟩ := h
      have hlower := (hk.foldCase_eq_iff c).1 (beq_iff_eq.1 hc)
      have hspells := (ih hword).1 ht
      simpa [Spells, KeywordCase.fold, hlower] using hspells
    · intro h
      cases s with
      | nil => cases h
      | cons c t =>
        obtain ⟨hlower, hspells⟩ := List.cons.inj h
        have hc := (hk.foldCase_eq_iff c).2 hlower
        exact ⟨[c], singleton_mem_oneOf (beq_iff_eq.2 hc), t, (ih hword).2 hspells, rfl⟩

end

end Text

namespace Filter

open Text

/-! ## The look-ahead -/

variable {word : List Char}

theorem foldsPlainly_combinator (c : Combinator) : ∀ k ∈ c.word, FoldsPlainly k := by
  have hall : c.word.all (FoldsPlainly ·) = true := by cases c <;> decide
  exact fun k hk => of_decide_eq_true (List.all_eq_true.1 hall k hk)

/-- What stands in front of the last white space in a match belongs to the text around it, and so
does what stands behind the first white space behind the word. -/
theorem isFound_spacedWord_iff (hword : ∀ k ∈ word, FoldsPlainly k) (s : List Char) :
    IsFound (spacedWord word) s ↔ HasSpaced word s := by
  constructor
  · intro h
    obtain ⟨x, m, y, rfl, hm⟩ := h
    obtain ⟨spelled, hspelled, after, hafter, rfl⟩ := Language.mem_mul.1 hm
    obtain ⟨lead, hlead, w, hw, rfl⟩ := Language.mem_mul.1 hspelled
    obtain ⟨line, -, before, hbefore, rfl⟩ := Language.mem_mul.1 hlead
    obtain ⟨front, a, rfl, ha⟩ := exists_append_of_mem_someOf hbefore
    obtain ⟨b, behind, rfl, hb⟩ := exists_cons_of_mem_someOf hafter
    have hspells := (mem_caselessWord_iff hword).1 hw
    exact ⟨x ++ line ++ front, a, w, b, behind ++ y, by simp, ha, hspells, hb⟩
  · intro h
    obtain ⟨x, a, w, b, y, rfl, ha, hw, hb⟩ := h
    have hline := Language.nil_mem_kstar (oneOf (· != '\n'))
    have hlead := Language.append_mem_mul hline (singleton_mem_someOf ha)
    have hspelled := Language.append_mem_mul hlead ((mem_caselessWord_iff hword).2 hw)
    have hmatch := Language.append_mem_mul hspelled (singleton_mem_someOf hb)
    exact ⟨x, _, y, by simp, hmatch⟩

/-- Whether an answer names the combinator that is found, and `or` if both are. -/
structure Chooses (found : Combinator → Prop) (answer : Option Combinator) : Prop where
  or_iff : answer = some .or ↔ found .or
  and_iff : answer = some .and ↔ ¬ found .or ∧ found .and
  none_iff : answer = none ↔ ¬ found .or ∧ ¬ found .and

theorem chooses_lookahead (s : List Char) :
    Chooses (fun c => HasSpaced c.word s) (lookahead s) := by
  have hor : hasSpaced Combinator.or.word s = true ↔ _ := hasSpaced_eq_true_iff
  have hand : hasSpaced Combinator.and.word s = true ↔ _ := hasSpaced_eq_true_iff
  unfold lookahead
  split
  · rename_i h
    have hfound := hor.1 h
    constructor <;> simp [hfound]
  · rename_i h
    have hno := mt hor.2 h
    split
    · rename_i h
      have hfound := hand.1 h
      constructor <;> simp [hno, hfound]
    · rename_i h
      have hneither := mt hand.2 h
      constructor <;> simp [hno, hneither]

/-- The look-ahead answers with the combinator whose pattern is found in a text, and this is the
one that stands between two characters of white space, where `or` goes before `and`.  Whatever is
put around a text, a combinator is still found, and `or` stays `or`. -/
theorem lookahead_searches_spaced_words (s : List Char) :
    Chooses (fun c => IsFound (spacedWord c.word) s) (lookahead s) ∧
    Chooses (fun c => HasSpaced c.word s) (lookahead s) ∧
    ∀ u v, (lookahead s ≠ none → lookahead (u ++ s ++ v) ≠ none) ∧
      (lookahead s = some .or → lookahead (u ++ s ++ v) = some .or) := by
  have hpattern : (fun c : Combinator => IsFound (spacedWord c.word) s) =
      fun c => HasSpaced c.word s :=
    funext fun c => propext (isFound_spacedWord_iff (foldsPlainly_combinator c) s)
  have hchooses := chooses_lookahead s
  refine ⟨hpattern ▸ hchooses, hchooses, fun u v => ⟨fun h => ?_, fun h => ?_⟩⟩
  · obtain ⟨c, hc⟩ := lookahead_ne_none_iff.1 h
    exact lookahead_ne_none_iff.2 ⟨c, hc.append u v⟩
  · exact (chooses_lookahead _).or_iff.2 ((hchooses.or_iff.1 h).append u v)

/-- Two combinators share their white space, and a line ends in front of the one that goes first.
A long s is no letter of either. -/
theorem lookahead_searches_spaced_words_lines :
    IsFound (spacedWord Combinator.or.word) "'\u017f'\nand\tOr\r".toList ∧
      lookahead ("a eq ".toList ++ "'\u017f'\nand\tOr\r".toList ++ "b".toList) = some .or ∧
      lookahead ("or".toList ++ "\taNd\n".toList ++ "or".toList) ≠ none := by
  have hor : lookahead "'\u017f'\nand\tOr\r".toList = some .or := by decide
  have hand : lookahead "\taNd\n".toList ≠ none := by decide
  have hlines := lookahead_searches_spaced_words "'\u017f'\nand\tOr\r".toList
  have hword := lookahead_searches_spaced_words "\taNd\n".toList
  exact ⟨hlines.1.or_iff.1 hor, (hlines.2.2 _ _).2 hor, (hword.2.2 _ _).1 hand⟩

end Filter
end Criteria
