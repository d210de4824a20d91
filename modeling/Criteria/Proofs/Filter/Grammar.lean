import Criteria.Filter.Query
import Criteria.Proofs.Text.Words

/-!
# The grammar of filter queries

Each relation pairs a text with what it writes.  A query is a comparison, then links of
a combinator, white space and a further comparison.  White space is needed in front of an
operator and behind a combinator, and nowhere else.
-/

namespace Criteria
namespace Filter
namespace Grammar

open Text

/-- Names joined by slashes, and the field they name, in which dots join them. -/
inductive IsPath : List Char → List Char → Prop
  | name {w : List Char} (hw : IsWord w) : IsPath w w
  | step {w s n : List Char} (hw : IsWord w) (h : IsPath s n) :
      IsPath (w ++ '/' :: s) (w ++ '.' :: n)

/-- A literal and its value.  No value has a quote character of either kind. -/
inductive IsLiteral : List Char → List Char → Prop
  | quoted {quote : Char} {value : List Char} (hq : Scan.isQuote quote = true)
      (hv : ∀ c ∈ value, Scan.isQuote c = false) :
      IsLiteral (quote :: (value ++ [quote])) value
  | number {letters value : List Char} (hl : ∀ c ∈ letters, c.isAlpha = true)
      (hv : ∀ c ∈ value, c.isDigit = true) (hne : value ≠ []) :
      IsLiteral (letters ++ value) value

inductive IsComparison : List Char → Predicate → Prop
  | mk {a path name b word d literal value e : List Char} {o : Operator}
      (ha : IsSpace a) (hp : IsPath path name) (hb : IsSpace b) (hne : b ≠ [])
      (ho : Spells .caseless o.word word) (hd : IsSpace d) (hl : IsLiteral literal value)
      (he : IsSpace e) :
      IsComparison (a ++ path ++ b ++ word ++ d ++ literal ++ e)
        ⟨String.ofList name, o, String.ofList value⟩

inductive IsLinks (keywordCase : KeywordCase) :
    List Char → List (Combinator × Predicate) → Prop
  | nil : IsLinks keywordCase [] []
  | cons {word b s t : List Char} {c : Combinator} {p : Predicate}
      {links : List (Combinator × Predicate)}
      (hw : Spells keywordCase c.word word) (hb : IsSpace b) (hne : b ≠ [])
      (hs : IsComparison s p) (ht : IsLinks keywordCase t links) :
      IsLinks keywordCase (word ++ b ++ s ++ t) ((c, p) :: links)

def IsChain (keywordCase : KeywordCase) (s : List Char) (chain : Chain Predicate) : Prop :=
  ∃ t u, s = t ++ u ∧ IsComparison t chain.first ∧ IsLinks keywordCase u chain.links

/-! ## How the parts begin -/

theorem IsPath.begins {s n : List Char} (h : IsPath s n) : Begins Char.isAlpha s := by
  cases h with
  | name hw => exact hw.begins
  | step hw _ => exact hw.begins.append _

theorem IsPath.name_begins {s n : List Char} (h : IsPath s n) : Begins Char.isAlpha n := by
  cases h with
  | name hw => exact hw.begins
  | step hw _ => exact hw.begins.append _

/-- A letter in front of a path makes its first name longer. -/
theorem IsPath.cons {c : Char} {s n : List Char} (hc : c.isAlpha = true) (h : IsPath s n) :
    IsPath (c :: s) (c :: n) := by
  cases h with
  | name hw => exact .name (hw.cons hc)
  | step hw h => exact .step (hw.cons hc) h

theorem isWord_operator (o : Operator) : IsWord o.word := by
  cases o <;> decide

theorem isWord_combinator (c : Combinator) : IsWord c.word := by
  cases c <;> decide

/-- What spells a combinator spells it in any case. -/
theorem spells_caseless {keywordCase : KeywordCase} {c : Combinator} {word : List Char}
    (h : Spells keywordCase c.word word) : Spells .caseless c.word word := by
  cases keywordCase with
  | caseless => exact h
  | exact =>
    obtain rfl : word = c.word := (List.map_id word).symm.trans h
    cases c <;> decide

theorem operator_eq_of_prefix (o o' : Operator) (h : o.word <+: o'.word) : o = o' := by
  cases o <;> cases o' <;> first | rfl | exact absurd h (by decide)

theorem combinator_eq_of_prefix (c c' : Combinator) (h : c.word <+: c'.word) : c = c' := by
  cases c <;> cases c' <;> first | rfl | exact absurd h (by decide)

theorem IsComparison.begins {s : List Char} {p : Predicate} (h : IsComparison s p) :
    Begins Char.isWhitespace s ∨ Begins Char.isAlpha s := by
  obtain @⟨a, path, name, b, word, d, literal, v, e, o, ha, hp, -, -, -, -, -, -⟩ := h
  simp only [List.append_assoc]
  cases a with
  | nil => exact .inr (hp.begins.append _)
  | cons c a => exact .inl (ha c List.mem_cons_self)

theorem IsComparison.begins_letter {s r : List Char} {p : Predicate} (h : IsComparison s p)
    (hs : ¬ Begins Char.isWhitespace (s ++ r)) : Begins Char.isAlpha (s ++ r) :=
  h.begins.elim (fun hb => absurd (hb.append r) hs) (·.append r)

/-- Behind a comparison stands a link, and so a letter, or nothing. -/
theorem IsLinks.begins {keywordCase : KeywordCase} {s : List Char}
    {links : List (Combinator × Predicate)} (h : IsLinks keywordCase s links)
    (hs : s ≠ []) : Begins Char.isAlpha s := by
  cases h with
  | nil => exact absurd rfl hs
  | cons hw _ _ _ _ =>
    simp only [List.append_assoc]
    exact (hw.isWord (isWord_combinator _)).begins.append _

/-- The same in front of a further text, for any class without letters. -/
theorem IsLinks.not_begins_append {keywordCase : KeywordCase} {s r : List Char}
    {links : List (Combinator × Predicate)} (h : IsLinks keywordCase s links)
    {p : Char → Bool} (hp : ∀ c, c.isAlpha = true → p c = false) (hr : ¬ Begins p r) :
    ¬ Begins p (s ++ r) := by
  by_cases hs : s = []
  · rwa [hs]
  · exact ((h.begins hs).append r).not_begins hp

/-! ## Longer texts -/

variable {keywordCase : KeywordCase} {s e : List Char}

theorem IsComparison.append_space {p : Predicate} (h : IsComparison s p) (he : IsSpace e) :
    IsComparison (s ++ e) p := by
  obtain @⟨a, path, name, b, word, d, literal, value, e', o, ha, hp, hb, hne, ho, hd, hl, he'⟩ := h
  rw [List.append_assoc _ e' e]
  exact .mk ha hp hb hne ho hd hl (he'.append he)

theorem IsLinks.append_space {links : List (Combinator × Predicate)}
    (h : IsLinks keywordCase s links) (hlinks : links ≠ []) (he : IsSpace e) :
    IsLinks keywordCase (s ++ e) links := by
  induction h with
  | nil => exact absurd rfl hlinks
  | @cons word b s t c p links hw hb hne hs ht ih =>
    by_cases hl : links = []
    · subst hl
      cases ht
      rw [List.append_nil, List.append_assoc, ← List.append_nil (_ ++ _)]
      exact .cons hw hb hne (hs.append_space he) .nil
    · rw [List.append_assoc]
      exact .cons hw hb hne hs (ih hl)

theorem IsLinks.append {t : List Char} {links links' : List (Combinator × Predicate)}
    (h : IsLinks keywordCase s links) (h' : IsLinks keywordCase t links') :
    IsLinks keywordCase (s ++ t) (links ++ links') := by
  induction h with
  | nil => exact h'
  | cons hw hb hne hs ht ih =>
    rw [List.append_assoc]
    exact .cons hw hb hne hs ih

/-- White space at the end of a chain belongs to its last comparison. -/
theorem IsChain.append_space {chain : Chain Predicate} (h : IsChain keywordCase s chain)
    (he : IsSpace e) : IsChain keywordCase (s ++ e) chain := by
  obtain ⟨t, u, rfl, ht, hu⟩ := h
  obtain ⟨first, links⟩ := chain
  by_cases hl : links = []
  · subst hl
    cases hu
    refine ⟨t ++ e, [], ?_, ht.append_space he, .nil⟩
    rw [List.append_nil, List.append_nil]
  · exact ⟨t, u ++ e, List.append_assoc t u e, ht, hu.append_space hl he⟩

theorem IsChain.append_links {chain : Chain Predicate} {t : List Char}
    {links : List (Combinator × Predicate)} (h : IsChain keywordCase s chain)
    (ht : IsLinks keywordCase t links) :
    IsChain keywordCase (s ++ t) ⟨chain.first, chain.links ++ links⟩ := by
  obtain ⟨s, u, rfl, hs, hu⟩ := h
  exact ⟨s, u ++ t, List.append_assoc s u t, hs, hu.append ht⟩

end Grammar
end Filter
end Criteria
