import Criteria.Proofs.Filter.Tokens

/-!
# Reading by the grammar

A comparison, the links of a chain and a whole chain are read exactly where the grammar
has them.  Where reading stops, the part that has been taken can be completed.
-/

namespace Criteria
namespace Filter

open Text Grammar

/-! ## Comparisons -/

namespace Scan

theorem predicate_append {s rest : List Char} {p : Predicate} (h : IsComparison s p)
    (hd : ¬ Begins Char.isDigit rest) (hw : ¬ Begins Char.isWhitespace rest) :
    predicate (s ++ rest) = .ok (p, rest) := by
  obtain @⟨a, path, name, b, word, d, literal, v, e, o, ha, hp, hb, hne, ho, hds, hl, he⟩ := h
  have hdigit : ¬ Begins Char.isDigit (e ++ rest) :=
    he.not_begins_append (disjoint_symm fun _ => isWhitespace_eq_false_of_isDigit) hd
  have hvalue : value (d ++ literal ++ (e ++ rest)) = .ok (String.ofList v, rest) := by
    rw [value_append hds hl hdigit, skipSpace_append he, skipSpace_eq_self hw]
  refine predicate_eq_ok_iff.2
    ⟨skipSpace (b ++ word ++ (d ++ literal ++ (e ++ rest))),
      skipSpace (d ++ literal ++ (e ++ rest)), ?_, ?_, ?_⟩
  · refine field_eq_ok_iff.2 ⟨a, path, name, _, ?_, ha, hp, ?_, rfl, rfl⟩
    · simp only [List.append_assoc]
    · rw [List.append_assoc]
      exact not_extendsPath_of_isSpace hb hne _
  · rw [operator_skipSpace]
    exact operator_eq_ok_iff.2 ⟨b, word, _, rfl, hb, ho, rfl⟩
  · rw [value_skipSpace]
    exact hvalue

/-- Without white space in front, the letters of an operator would go on a path. -/
theorem gap_ne_nil {a b word s r : List Char} {o : Operator}
    (ho : Spells .caseless o.word word) (hr : r = a ++ (b ++ word ++ s))
    (h : ¬ ExtendsPath r) : a ++ b ≠ [] := by
  intro hnil
  obtain ⟨rfl, rfl⟩ := List.append_eq_nil_iff.1 hnil
  rw [hr] at h
  exact h (.inl ((ho.isWord (isWord_operator o)).begins.append s))

theorem exists_isComparison {s rest : List Char} {p : Predicate}
    (h : predicate s = .ok (p, rest)) :
    ∃ t, s = t ++ rest ∧ IsComparison t p ∧ ¬ Begins Char.isWhitespace rest := by
  obtain ⟨s₁, s₂, h₁, h₂, h₃⟩ := predicate_eq_ok_iff.1 h
  obtain ⟨a, path, name, r₁, rfl, ha, hp, hext, hf, rfl⟩ := field_eq_ok_iff.1 h₁
  obtain ⟨b, word, r₂, hs₁, hb, ho, rfl⟩ := operator_eq_ok_iff.1 h₂
  obtain ⟨d, literal, v, r₃, hs₂, hd, hl, hv, rfl⟩ := value_eq_ok h₃
  obtain ⟨b', hb', hr₁⟩ := exists_skipSpace r₁
  obtain ⟨d', hd', hr₂⟩ := exists_skipSpace r₂
  obtain ⟨e, he, hr₃⟩ := exists_skipSpace r₃
  rw [hs₁] at hr₁
  rw [hs₂] at hr₂
  have hne : b' ++ b ≠ [] := gap_ne_nil ho hr₁ hext
  refine ⟨a ++ path ++ (b' ++ b) ++ word ++ (d' ++ d) ++ literal ++ e, ?_, ?_,
    not_begins_skipSpace r₃⟩
  · rw [hr₁, hr₂]
    simp only [List.append_assoc, ← hr₃]
  · obtain ⟨f, o, x⟩ := p
    cases hf
    cases hv
    exact .mk ha hp (hb'.append hb) hne ho (hd'.append hd) hl he

/-- Where a comparison cannot be read, what has been taken can be completed to one. -/
theorem predicate_error {s : List Char} {m : Mismatch} (h : predicate s = .error m) :
    ∃ t e p, s = t ++ m.rest ∧ IsComparison (t ++ e) p := by
  have hname : IsPath ['a'] ['a'] := .name (by decide)
  have hgap : IsSpace [' '] := by decide
  have hword : Spells .caseless Operator.equals.word ['e', 'q'] := by decide
  have hone : IsLiteral ([] ++ ['1']) ['1'] :=
    .number (List.all_eq_true.1 rfl) (List.all_eq_true.1 rfl) (by decide)
  unfold predicate at h
  rcases bind_eq_error_iff.1 h with h₁ | ⟨⟨f, s₁⟩, h₁, h⟩
  · obtain ⟨a, ha, hs⟩ := exists_skipSpace s
    have hc := IsComparison.mk ha hname hgap (by decide) hword isSpace_nil hone isSpace_nil
    simp only [List.append_assoc] at hc
    rw [field_error h₁]
    exact ⟨a, _, _, hs, hc⟩
  obtain ⟨a, path, name, r₁, rfl, ha, hp, hext, -, rfl⟩ := field_eq_ok_iff.1 h₁
  obtain ⟨b', hb', hr₁⟩ := exists_skipSpace r₁
  rcases bind_eq_error_iff.1 h with h₂ | ⟨⟨o, s₂⟩, h₂, h⟩
  · rw [operator_error h₂, skipSpace_skipSpace]
    have hc := IsComparison.mk ha hp (hb'.append hgap) (by simp) hword isSpace_nil hone isSpace_nil
    refine ⟨a ++ path ++ b', [' '] ++ ['e', 'q'] ++ ['1'],
      ⟨String.ofList name, .equals, String.ofList ['1']⟩, ?_, ?_⟩
    · rw [List.append_assoc (a ++ path), ← hr₁]
    · simpa only [List.append_assoc, List.nil_append, List.append_nil] using hc
  obtain ⟨b, word, r₂, hs₁, hb, ho, rfl⟩ := operator_eq_ok_iff.1 h₂
  obtain ⟨d', hd', hr₂⟩ := exists_skipSpace r₂
  rcases bind_eq_error_iff.1 h with h₃ | ⟨⟨x, s₃⟩, -, h⟩
  · obtain ⟨d, t, e, v, hs₂, hd, hl⟩ := value_error h₃
    rw [hs₁] at hr₁
    rw [hs₂] at hr₂
    have hne : b' ++ b ≠ [] := gap_ne_nil ho hr₁ hext
    have hc := IsComparison.mk ha hp (hb'.append hb) hne ho (hd'.append hd) hl isSpace_nil
    refine ⟨a ++ path ++ (b' ++ b) ++ word ++ (d' ++ d) ++ t, e,
      ⟨String.ofList name, o, String.ofList v⟩, ?_, ?_⟩
    · rw [hr₁, hr₂]
      simp only [List.append_assoc]
    · simpa only [List.append_assoc, List.append_nil] using hc
  · cases h

end Scan

/-! ## Links -/

open FilterQuery (links readSingle readChain)

variable {keywordCase : KeywordCase}

theorem links_of_none {s : List Char} (h : Scan.combinator? keywordCase s = none) :
    links keywordCase s = .ok ([], s) := by
  rw [links]
  split
  · rfl
  · rename_i heq
    rw [h] at heq
    cases heq

/-- One step of the loop over the links. -/
theorem links_of_some {s s₁ : List Char} {c : Combinator}
    (h : Scan.combinator? keywordCase s = some (c, s₁)) :
    links keywordCase s = Scan.predicate s₁ >>= fun (p, s₂) =>
      (links keywordCase s₂).map fun (ps, rest) => ((c, p) :: ps, rest) := by
  rw [links]
  split
  · rename_i heq
    rw [h] at heq
    cases heq
  · rename_i c' s₁' heq
    rw [h] at heq
    cases heq
    cases hp : Scan.predicate s₁ with
    | error m => rfl
    | ok x =>
      obtain ⟨p, s₂⟩ := x
      cases hl : links keywordCase s₂ <;> simp [bind, Except.bind, Except.map, hl]

theorem links_append {s rest : List Char} {ls : List (Combinator × Predicate)}
    (h : IsLinks keywordCase s ls) (hd : ¬ Begins Char.isDigit rest)
    (hw : ¬ Begins Char.isWhitespace rest) :
    links keywordCase (s ++ rest) =
      (links keywordCase rest).map fun (ps, r) => (ls ++ ps, r) := by
  induction h with
  | nil => cases hl : links keywordCase rest <;> simp [Except.map, hl]
  | @cons word b s t c p ls hword hb hne hs ht ih =>
    have hc : Scan.combinator? keywordCase (word ++ b ++ s ++ t ++ rest) =
        some (c, skipSpace (b ++ s ++ t ++ rest)) := by
      refine Scan.combinator?_eq_some_iff.2 ⟨[], word, _, ?_, isSpace_nil, hword, ?_, rfl⟩
      · simp only [List.append_assoc, List.nil_append]
      · simp only [List.append_assoc]
        exact ((hb.begins hne).append _).not_begins
          (disjoint_symm fun _ => isWhitespace_eq_false_of_isAlpha)
    have hp : Scan.predicate (skipSpace (b ++ s ++ t ++ rest)) = .ok (p, t ++ rest) := by
      rw [List.append_assoc, List.append_assoc, skipSpace_append hb, Scan.predicate_skipSpace]
      exact Scan.predicate_append hs
        (ht.not_begins_append (fun _ => isDigit_eq_false_of_isAlpha) hd)
        (ht.not_begins_append (fun _ => isWhitespace_eq_false_of_isAlpha) hw)
    rw [links_of_some hc, hp]
    simp only [bind, Except.bind, ih]
    cases links keywordCase rest <;> rfl

/-- White space may be missing behind a combinator only where no letter follows. -/
theorem exists_gap {s s₁ : List Char} {c : Combinator} (hs : ¬ Begins Char.isWhitespace s)
    (hc : Scan.combinator? keywordCase s = some (c, s₁)) :
    ∃ word b, s = word ++ b ++ s₁ ∧ Spells keywordCase c.word word ∧ IsSpace b ∧
      ¬ Begins Char.isWhitespace s₁ ∧ (b = [] → ¬ Begins Char.isAlpha s₁) := by
  obtain ⟨a, word, r, rfl, ha, hw, hr, rfl⟩ := Scan.combinator?_eq_some_iff.1 hc
  obtain ⟨b, hb, hrb⟩ := exists_skipSpace r
  have hnil : a = [] := by
    cases a with
    | nil => rfl
    | cons d a => exact absurd (ha d List.mem_cons_self) hs
  subst hnil
  refine ⟨word, b, ?_, hw, hb, not_begins_skipSpace r, ?_⟩
  · rw [List.append_assoc word, ← hrb]
    rfl
  · rintro rfl
    rwa [hrb] at hr

/-- What follows the links that are read begins with no white space if the text does not. -/
theorem exists_isLinks {s rest : List Char} {ls : List (Combinator × Predicate)}
    (h : links keywordCase s = .ok (ls, rest)) (hs : ¬ Begins Char.isWhitespace s) :
    ∃ t, s = t ++ rest ∧ IsLinks keywordCase t ls ∧ ¬ Begins Char.isWhitespace rest := by
  fun_induction links keywordCase s generalizing ls rest with
  | case1 s hc =>
    cases h
    exact ⟨[], rfl, .nil, hs⟩
  | case2 => cases h
  | case3 => cases h
  | case4 s c s₁ hc p s₂ hp ls' rest' hl ih =>
    cases h
    obtain ⟨word, b, rfl, hw, hb, hs₁, hgap⟩ := exists_gap hs hc
    obtain ⟨t, rfl, ht, hs₂⟩ := Scan.exists_isComparison hp
    obtain ⟨u, rfl, hu, hr⟩ := ih hl hs₂
    have hne : b ≠ [] := fun hnil => hgap hnil (ht.begins_letter hs₁)
    refine ⟨word ++ b ++ t ++ u, ?_, .cons hw hb hne ht hu, hr⟩
    simp only [List.append_assoc]

/-- Where a link cannot be read, what has been taken can be completed to links. -/
theorem links_error {s : List Char} {m : Mismatch} (h : links keywordCase s = .error m)
    (hs : ¬ Begins Char.isWhitespace s) :
    ∃ t e ls, s = t ++ m.rest ∧ IsLinks keywordCase (t ++ e) ls := by
  fun_induction links keywordCase s with
  | case1 => cases h
  | case2 s c s₁ hc m' hp =>
    cases h
    obtain ⟨word, b, rfl, hw, hb, hs₁, hgap⟩ := exists_gap hs hc
    obtain ⟨t, e, p, rfl, ht⟩ := Scan.predicate_error hp
    by_cases hnil : b = []
    · -- Nothing of the comparison has been taken, since it would begin with a letter.
      have htnil : t = [] := by
        cases t with
        | nil => rfl
        | cons d t =>
          rcases ht.begins with hbegin | hbegin
          · exact absurd hbegin hs₁
          · exact absurd hbegin (hgap hnil)
      subst hnil htnil
      have hlink := IsLinks.cons hw (b := [' ']) (by decide) (by decide) ht .nil
      refine ⟨word, [' '] ++ e, [(c, p)], by simp, ?_⟩
      simpa only [List.append_assoc, List.append_nil, List.nil_append] using hlink
    · have hlink := IsLinks.cons hw hb hnil ht .nil
      refine ⟨word ++ b ++ t, e, [(c, p)], by simp only [List.append_assoc], ?_⟩
      simpa only [List.append_assoc, List.append_nil] using hlink
  | case3 s c s₁ hc p s₂ hp m' hl ih =>
    cases h
    obtain ⟨word, b, rfl, hw, hb, hs₁, hgap⟩ := exists_gap hs hc
    obtain ⟨t, rfl, ht, hs₂⟩ := Scan.exists_isComparison hp
    obtain ⟨u, e, ls, hu, hlinks⟩ := ih hl hs₂
    have hne : b ≠ [] := fun hnil => hgap hnil (ht.begins_letter hs₁)
    have hlink := IsLinks.cons hw hb hne ht hlinks
    refine ⟨word ++ b ++ t ++ u, e, (c, p) :: ls, ?_, ?_⟩
    · rw [hu]
      simp only [List.append_assoc]
    · simpa only [List.append_assoc] using hlink
  | case4 => cases h

/-! ## Whole queries -/

theorem endOfQuery_eq_ok_iff {s : List Char} (hs : ¬ Begins Char.isWhitespace s) {u : Unit} :
    Scan.endOfQuery s = .ok u ↔ s = [] := by
  rw [Scan.endOfQuery, skipSpace_eq_self hs]
  cases s <;> simp

theorem endOfQuery_error {s : List Char} {m : Mismatch} (hs : ¬ Begins Char.isWhitespace s)
    (h : Scan.endOfQuery s = .error m) : m.rest = s := by
  rw [Scan.endOfQuery, skipSpace_eq_self hs] at h
  cases s with
  | nil => cases h
  | cons c s =>
    cases h
    rfl

theorem links_nil : links keywordCase [] = .ok ([], []) := by
  apply links_of_none
  cases keywordCase <;> rfl

theorem readChain_eq_ok_iff {s : List Char} {chain : Chain Predicate} :
    readChain keywordCase s = .ok chain ↔ IsChain keywordCase s chain := by
  constructor
  · intro h
    simp only [readChain, bind_eq_ok_iff, Prod.exists] at h
    obtain ⟨p, s₁, hp, ls, s₂, hl, u, hend, h⟩ := h
    cases h
    obtain ⟨t, rfl, ht, hs₁⟩ := Scan.exists_isComparison hp
    obtain ⟨u, rfl, hu, hs₂⟩ := exists_isLinks hl hs₁
    rw [(endOfQuery_eq_ok_iff hs₂).1 hend, List.append_nil]
    exact ⟨t, u, rfl, ht, hu⟩
  · intro h
    obtain ⟨t, u, rfl, ht, hu⟩ := h
    have hdigit := hu.not_begins_append (fun _ => isDigit_eq_false_of_isAlpha) (not_begins_nil _)
    have hspace :=
      hu.not_begins_append (fun _ => isWhitespace_eq_false_of_isAlpha) (not_begins_nil _)
    have hp := Scan.predicate_append ht hdigit hspace
    have hl := links_append hu (not_begins_nil Char.isDigit) (not_begins_nil Char.isWhitespace)
    rw [List.append_nil] at hp
    rw [List.append_nil, links_nil] at hl
    simp [readChain, hp, hl, bind, Except.bind, Except.map, Scan.endOfQuery, skipSpace]

theorem readSingle_eq_ok_iff {s : List Char} {p : Predicate} :
    readSingle s = .ok p ↔ IsComparison s p := by
  constructor
  · intro h
    simp only [readSingle, bind_eq_ok_iff, Prod.exists] at h
    obtain ⟨q, s₁, hp, u, hend, h⟩ := h
    cases h
    obtain ⟨t, rfl, ht, hs₁⟩ := Scan.exists_isComparison hp
    rw [(endOfQuery_eq_ok_iff hs₁).1 hend, List.append_nil]
    exact ht
  · intro h
    have hp := Scan.predicate_append h (not_begins_nil Char.isDigit)
      (not_begins_nil Char.isWhitespace)
    rw [List.append_nil] at hp
    simp [readSingle, hp, bind, Except.bind, Scan.endOfQuery, skipSpace]

/-- Where a query cannot be read, what has been taken can be completed to a chain. -/
theorem readChain_error {s : List Char} {m : Mismatch}
    (h : readChain keywordCase s = .error m) :
    ∃ t e chain, s = t ++ m.rest ∧ IsChain keywordCase (t ++ e) chain := by
  unfold readChain at h
  rcases bind_eq_error_iff.1 h with hp | ⟨⟨p, s₁⟩, hp, h₁⟩
  · obtain ⟨t, e, p, hs, ht⟩ := Scan.predicate_error hp
    exact ⟨t, e, ⟨p, []⟩, hs, t ++ e, [], (List.append_nil _).symm, ht, .nil⟩
  obtain ⟨t, hs, ht, hs₁⟩ := Scan.exists_isComparison hp
  rcases bind_eq_error_iff.1 h₁ with hl | ⟨⟨ls, s₂⟩, hl, h₂⟩
  · obtain ⟨u, e, ls, hu, hlinks⟩ := links_error hl hs₁
    refine ⟨t ++ u, e, ⟨p, ls⟩, ?_, t, u ++ e, ?_, ht, hlinks⟩
    · rw [hs, hu, List.append_assoc]
    · rw [List.append_assoc]
  obtain ⟨u, hu, hlinks, hs₂⟩ := exists_isLinks hl hs₁
  rcases bind_eq_error_iff.1 h₂ with hend | ⟨v, -, h₃⟩
  · refine ⟨t ++ u, [], ⟨p, ls⟩, ?_, t, u, ?_, ht, hlinks⟩
    · rw [endOfQuery_error hs₂ hend, hs, hu, List.append_assoc]
    · rw [List.append_nil]
  · cases h₃

theorem readSingle_error {s : List Char} {m : Mismatch} (h : readSingle s = .error m) :
    ∃ t e p, s = t ++ m.rest ∧ IsComparison (t ++ e) p := by
  unfold readSingle at h
  rcases bind_eq_error_iff.1 h with hp | ⟨⟨p, s₁⟩, hp, h₁⟩
  · exact Scan.predicate_error hp
  obtain ⟨t, hs, ht, hs₁⟩ := Scan.exists_isComparison hp
  rcases bind_eq_error_iff.1 h₁ with hend | ⟨v, -, h₂⟩
  · rw [endOfQuery_error hs₁ hend]
    exact ⟨t, [], p, hs, by rwa [List.append_nil]⟩
  · cases h₂

end Filter
end Criteria
