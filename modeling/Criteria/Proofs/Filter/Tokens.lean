import Criteria.Proofs.Filter.Grammar

/-!
# Scanners of the parts

For each scanner, the texts that it reads in terms of the grammar, and where it stops
when it cannot go on.
-/

namespace Criteria
namespace Filter
namespace Scan

open Text Grammar

/-! ## Fields -/

/-- Whether a path that ends in front of this text would go on into it. -/
def ExtendsPath (s : List Char) : Prop :=
  Begins Char.isAlpha s ∨ ∃ t, s = '/' :: t ∧ Begins Char.isAlpha t

theorem not_extendsPath_nil : ¬ ExtendsPath [] := by
  intro h
  rcases h with h | ⟨t, h, -⟩
  · exact not_begins_nil _ h
  · cases h

theorem not_extendsPath_of_isSpace {b : List Char} (hb : IsSpace b) (hne : b ≠ []) (s : List Char) :
    ¬ ExtendsPath (b ++ s) := by
  have hw : Begins Char.isWhitespace (b ++ s) := (hb.begins hne).append s
  intro h
  rcases h with h | ⟨t, h, -⟩
  · exact h.not_begins (fun _ => isWhitespace_eq_false_of_isAlpha) hw
  · rw [h] at hw
    exact absurd (begins_cons.1 hw) (by decide)

theorem pathTail_eq_self {s : List Char} (h : ¬ ExtendsPath s) : pathTail s = ([], s) := by
  fun_cases pathTail s with
  | case1 => rfl
  | case2 c t hc => exact absurd (.inr ⟨c :: t, rfl, hc⟩) h
  | case3 => rfl
  | case4 c t _ hc => exact absurd (.inl hc) h
  | case5 => rfl

theorem pathTail_letter {c : Char} (hc : c.isAlpha = true) (s : List Char) :
    pathTail (c :: s) = (c :: (pathTail s).1, (pathTail s).2) := by
  have hne : c ≠ '/' := by
    rintro rfl
    exact absurd hc (by decide)
  rw [pathTail.eq_3 _ _ (fun _ _ h _ => hne h), if_pos hc]

theorem pathTail_slash {c : Char} (hc : c.isAlpha = true) (s : List Char) :
    pathTail ('/' :: c :: s) = ('.' :: c :: (pathTail s).1, (pathTail s).2) := by
  rw [pathTail, if_pos hc]

theorem pathTail_letters {w : List Char} (hw : ∀ c ∈ w, c.isAlpha = true) (s : List Char) :
    pathTail (w ++ s) = (w ++ (pathTail s).1, (pathTail s).2) := by
  induction w with
  | nil => rfl
  | cons c w ih =>
    rw [List.cons_append, pathTail_letter (hw c List.mem_cons_self),
      ih (fun d hd => hw d (List.mem_cons_of_mem c hd)), List.cons_append]

/-- The scanner of a path starts behind its first letter and takes all the rest. -/
theorem pathTail_of_isPath {s n : List Char} (h : IsPath s n) :
    ∃ c t m, s = c :: t ∧ n = c :: m ∧ c.isAlpha = true ∧
      ∀ rest, ¬ ExtendsPath rest → pathTail (t ++ rest) = (m, rest) := by
  induction h with
  | @name w hw =>
    obtain ⟨c, w, rfl⟩ := List.exists_cons_of_ne_nil hw.1
    refine ⟨c, w, w, rfl, rfl, hw.begins, fun rest hr => ?_⟩
    rw [pathTail_letters (fun d hd => hw.2 d (List.mem_cons_of_mem c hd)), pathTail_eq_self hr,
      List.append_nil]
  | @step w s n hw _ ih =>
    obtain ⟨c, w, rfl⟩ := List.exists_cons_of_ne_nil hw.1
    obtain ⟨d, t, m, rfl, rfl, hd, ht⟩ := ih
    refine ⟨c, w ++ '/' :: d :: t, w ++ '.' :: d :: m, rfl, rfl, hw.begins, fun rest hr => ?_⟩
    rw [List.append_assoc, pathTail_letters (fun e he => hw.2 e (List.mem_cons_of_mem c he)),
      List.cons_append, List.cons_append, pathTail_slash hd, ht rest hr]

theorem exists_isPath_of_pathTail {c : Char} (hc : c.isAlpha = true) (s : List Char) :
    ∃ t, s = t ++ (pathTail s).2 ∧ IsPath (c :: t) (c :: (pathTail s).1) ∧
      ¬ ExtendsPath (pathTail s).2 := by
  fun_induction pathTail s generalizing c with
  | case1 => exact ⟨[], rfl, .name (isWord_singleton hc), not_extendsPath_nil⟩
  | case2 d s hd path rest heq ih =>
    obtain ⟨t, hs, hp, hr⟩ := ih hd
    rw [heq] at hs hp hr
    exact ⟨'/' :: d :: t, by rw [hs]; rfl, .step (isWord_singleton hc) hp, hr⟩
  | case3 d s hd =>
    refine ⟨[], rfl, .name (isWord_singleton hc), ?_⟩
    intro h
    rcases h with h | ⟨t, h, ht⟩
    · exact absurd (begins_cons.1 h) (by decide)
    · cases h
      exact hd ht
  | case4 d s _ hd path rest heq ih =>
    obtain ⟨t, hs, hp, hr⟩ := ih hd
    rw [heq] at hs hp hr
    exact ⟨d :: t, by rw [hs]; rfl, hp.cons hc, hr⟩
  | case5 d s hslash hd =>
    refine ⟨[], rfl, .name (isWord_singleton hc), ?_⟩
    intro h
    rcases h with h | ⟨t, h, ht⟩
    · exact hd h
    · obtain ⟨rfl, rfl⟩ := List.cons.inj h
      cases s with
      | nil => exact not_begins_nil _ ht
      | cons e s => exact hslash e s rfl rfl

theorem field_eq_ok_iff {s r : List Char} {f : String} :
    field s = .ok (f, r) ↔
      ∃ a path name rest, s = a ++ path ++ rest ∧ IsSpace a ∧ IsPath path name ∧
        ¬ ExtendsPath rest ∧ f = String.ofList name ∧ r = skipSpace rest := by
  constructor
  · intro h
    obtain ⟨a, ha, hs⟩ := exists_skipSpace s
    unfold field at h
    split at h
    · cases h
    · rename_i c t heq
      split at h
      · rename_i hc
        cases h
        obtain ⟨p, ht, hp, hr⟩ := exists_isPath_of_pathTail hc t
        refine ⟨a, c :: p, c :: (pathTail t).1, (pathTail t).2, ?_, ha, hp, hr, rfl, rfl⟩
        rw [hs, heq, List.append_assoc, List.cons_append, ← ht]
      · cases h
  · intro h
    obtain ⟨a, path, name, rest, rfl, ha, hp, hr, rfl, rfl⟩ := h
    obtain ⟨c, t, m, rfl, rfl, hc, ht⟩ := pathTail_of_isPath hp
    have hs : skipSpace (a ++ (c :: t) ++ rest) = c :: (t ++ rest) := by
      rw [List.append_assoc, skipSpace_append ha]
      exact skipSpace_eq_self (Bool.eq_false_iff.1 (isWhitespace_eq_false_of_isAlpha hc))
    rw [field, hs]
    simp only [hc, if_true, ht rest hr]

theorem field_error {s : List Char} {m : Mismatch} (h : field s = .error m) :
    m.rest = skipSpace s := by
  unfold field at h
  split at h
  · cases h
    rw [← ‹skipSpace s = []›]
  · rename_i c t heq
    split at h
    · cases h
    · cases h
      exact heq.symm

/-! ## Operators -/

theorem operator_eq_ok_iff {s r : List Char} {o : Operator} :
    operator s = .ok (o, r) ↔
      ∃ a word rest, s = a ++ word ++ rest ∧ IsSpace a ∧ Spells .caseless o.word word ∧
        r = skipSpace rest := by
  have hread : ∀ rest, leadingOperator? (skipSpace s) = some (o, rest) ↔
      ∃ word, Spells .caseless o.word word ∧ skipSpace s = word ++ rest := fun rest =>
    findSome?_dropWord? Operator.mem_all operator_eq_of_prefix
  constructor
  · intro h
    obtain ⟨a, ha, hs⟩ := exists_skipSpace s
    unfold operator at h
    split at h
    · rename_i o' rest heq
      cases h
      obtain ⟨word, hw, hr⟩ := (hread rest).1 heq
      exact ⟨a, word, rest, by rw [List.append_assoc, ← hr, ← hs], ha, hw, rfl⟩
    · cases h
  · intro h
    obtain ⟨a, word, rest, rfl, ha, hw, rfl⟩ := h
    have hs := skipSpace_append_word ha (hw.isWord (isWord_operator o)) rest
    rw [operator, (hread rest).2 ⟨word, hw, hs⟩]

theorem operator_error {s : List Char} {m : Mismatch} (h : operator s = .error m) :
    m.rest = skipSpace s := by
  unfold operator at h
  split at h
  · cases h
  · cases h
    rfl

/-! ## Literals -/

theorem isQuote_eq_false {p : Char → Bool} (hp : ['\x27', '\x22'].any p = false) {c : Char}
    (h : p c = true) : isQuote c = false := by
  apply Bool.eq_false_iff.2
  intro hq
  simp only [isQuote, Bool.or_eq_true, beq_iff_eq] at hq
  exact List.any_eq_false.1 hp c (by simpa using hq) h

theorem isQuote_eq_false_of_isAlpha {c : Char} (h : c.isAlpha = true) : isQuote c = false :=
  isQuote_eq_false (by decide) h

theorem isQuote_eq_false_of_isDigit {c : Char} (h : c.isDigit = true) : isQuote c = false :=
  isQuote_eq_false (by decide) h

theorem isQuote_eq_false_of_isWhitespace {c : Char} (h : c.isWhitespace = true) :
    isQuote c = false := isQuote_eq_false (by decide) h

theorem isQuote_eq_false_of_mem_takeWhile (s : List Char) :
    ∀ c ∈ s.takeWhile (!isQuote ·), isQuote c = false := by
  intro c hc
  simpa using forall_mem_takeWhile _ s c hc

theorem quoted_append {quote : Char} {v : List Char} (hq : isQuote quote = true)
    (hv : ∀ c ∈ v, isQuote c = false) (rest : List Char) :
    quoted quote (v ++ quote :: rest) = .ok (String.ofList v, skipSpace rest) := by
  have hv' : ∀ c ∈ v, (!isQuote c) = true := fun c hc => by rw [hv c hc]; rfl
  have hb : ¬ Begins (!isQuote ·) (quote :: rest) := by
    rw [begins_cons, hq]
    decide
  rw [quoted, takeWhile_append_exact hv' hb, dropWhile_append_exact hv' hb]
  exact if_pos rfl

theorem number_append {letters v rest : List Char} (hl : ∀ c ∈ letters, c.isAlpha = true)
    (hv : ∀ c ∈ v, c.isDigit = true) (hne : v ≠ []) (hr : ¬ Begins Char.isDigit rest) :
    number (letters ++ (v ++ rest)) = .ok (String.ofList v, skipSpace rest) := by
  have hb : ¬ Begins Char.isAlpha (v ++ rest) :=
    ((begins_of_forall hne hv).append rest).not_begins
      (disjoint_symm fun _ => isDigit_eq_false_of_isAlpha)
  rw [number, dropWhile_append_exact hl hb, digits, takeWhile_append_exact hv hr,
    dropWhile_append_exact hv hr]
  cases v with
  | nil => exact absurd rfl hne
  | cons d v => rfl

/-- A literal is read to its end unless a digit stands behind it. -/
theorem value_append {a literal v rest : List Char} (ha : IsSpace a) (hl : IsLiteral literal v)
    (hr : ¬ Begins Char.isDigit rest) :
    value (a ++ literal ++ rest) = .ok (String.ofList v, skipSpace rest) := by
  rw [value, List.append_assoc, skipSpace_append ha]
  cases hl with
  | @quoted quote _ hq hv =>
    have hw : quote.isWhitespace = false :=
      disjoint_symm (fun _ => isQuote_eq_false_of_isWhitespace) quote hq
    rw [skipSpace_eq_self (s := (quote :: (v ++ [quote])) ++ rest) (Bool.eq_false_iff.1 hw)]
    simp only [List.cons_append, List.append_assoc, List.nil_append, hq, if_true]
    exact quoted_append hq hv rest
  | @number letters _ hl hv hne =>
    rw [List.append_assoc]
    have hb : ∃ c t, letters ++ (v ++ rest) = c :: t ∧ (c.isAlpha = true ∨ c.isDigit = true) := by
      cases letters with
      | nil =>
        obtain ⟨d, v, rfl⟩ := List.exists_cons_of_ne_nil hne
        exact ⟨d, v ++ rest, rfl, .inr (hv d List.mem_cons_self)⟩
      | cons c letters => exact ⟨c, _, rfl, .inl (hl c List.mem_cons_self)⟩
    have hn := number_append hl hv hne hr
    obtain ⟨c, t, heq, hc⟩ := hb
    rw [heq] at hn ⊢
    have hw : c.isWhitespace = false :=
      hc.elim isWhitespace_eq_false_of_isAlpha isWhitespace_eq_false_of_isDigit
    have hq : isQuote c = false := hc.elim isQuote_eq_false_of_isAlpha isQuote_eq_false_of_isDigit
    rw [skipSpace_eq_self (s := c :: t) (Bool.eq_false_iff.1 hw)]
    simp only [hq, Bool.false_eq_true, if_false, hn]

theorem value_eq_ok {s r : List Char} {x : String} (h : value s = .ok (x, r)) :
    ∃ a literal v rest, s = a ++ literal ++ rest ∧ IsSpace a ∧ IsLiteral literal v ∧
      x = String.ofList v ∧ r = skipSpace rest := by
  obtain ⟨a, ha, hs⟩ := exists_skipSpace s
  unfold value at h
  split at h
  · cases h
  · rename_i c t heq
    rw [heq] at hs
    split at h
    · rename_i hq
      have hv := isQuote_eq_false_of_mem_takeWhile t
      unfold quoted at h
      split at h
      · cases h
      · rename_i d rest hd
        split at h
        · rename_i hdc
          cases h
          refine ⟨a, c :: (t.takeWhile (!isQuote ·) ++ [c]), _, rest, ?_, ha, .quoted hq hv,
            rfl, rfl⟩
          have ht : t = t.takeWhile (!isQuote ·) ++ c :: rest := by
            rw [← hdc, ← hd, List.takeWhile_append_dropWhile]
          rw [hs]
          simpa using ht
        · cases h
    · unfold number digits at h
      split at h
      · cases h
      · rename_i hne
        cases h
        refine ⟨a, (c :: t).takeWhile Char.isAlpha ++
          ((c :: t).dropWhile Char.isAlpha).takeWhile Char.isDigit, _, _, ?_, ha,
          .number (forall_mem_takeWhile _ _) (forall_mem_takeWhile _ _) hne, rfl, rfl⟩
        rw [hs, List.append_assoc, List.append_assoc, List.takeWhile_append_dropWhile,
          List.takeWhile_append_dropWhile]

/-- Where no literal can be read, what has been taken so far can be completed to one. -/
theorem value_error {s : List Char} {m : Mismatch} (h : value s = .error m) :
    ∃ a t e v, s = a ++ t ++ m.rest ∧ IsSpace a ∧ IsLiteral (t ++ e) v := by
  obtain ⟨a, ha, hs⟩ := exists_skipSpace s
  have hone : ∀ c ∈ ['1'], c.isDigit = true := List.all_eq_true.1 rfl
  unfold value at h
  split at h
  · rename_i heq
    cases h
    exact ⟨a, [], ['1'], ['1'], by simpa [heq] using hs, ha,
      .number (List.all_eq_true.1 rfl) hone (by decide)⟩
  · rename_i c t heq
    rw [heq] at hs
    split at h
    · rename_i hq
      have hv := isQuote_eq_false_of_mem_takeWhile t
      have hrest : m.rest = t.dropWhile (!isQuote ·) := by
        unfold quoted at h
        split at h
        · rename_i hd
          cases h
          exact hd.symm
        · rename_i d rest hd
          split at h
          · cases h
          · cases h
            exact hd.symm
      refine ⟨a, c :: t.takeWhile (!isQuote ·), [c], _, ?_, ha, .quoted hq hv⟩
      rw [hs, hrest, List.append_assoc, List.cons_append, List.takeWhile_append_dropWhile]
    · have hrest : m.rest = (c :: t).dropWhile Char.isAlpha := by
        unfold number digits at h
        split at h
        · cases h
          rfl
        · cases h
      refine ⟨a, (c :: t).takeWhile Char.isAlpha, ['1'], _, ?_, ha,
        .number (forall_mem_takeWhile _ _) hone (by decide)⟩
      rw [hs, hrest, List.append_assoc, List.takeWhile_append_dropWhile]

/-! ## Combinators -/

theorem combinator?_eq_some_iff {keywordCase : KeywordCase} {s r : List Char} {c : Combinator} :
    combinator? keywordCase s = some (c, r) ↔
      ∃ a word rest, s = a ++ word ++ rest ∧ IsSpace a ∧ Spells keywordCase c.word word ∧
        ¬ Begins Char.isAlpha rest ∧ r = skipSpace rest := by
  have hread : ∀ c rest, leadingCombinator? keywordCase (skipSpace s) = some (c, rest) ↔
      ∃ word, Spells keywordCase c.word word ∧ skipSpace s = word ++ rest := fun c rest =>
    findSome?_dropWord? Combinator.mem_all combinator_eq_of_prefix
  constructor
  · intro h
    obtain ⟨a, ha, hs⟩ := exists_skipSpace s
    unfold combinator? at h
    split at h
    · rename_i c' rest heq
      split at h
      · cases h
      · rename_i hl
        cases h
        obtain ⟨word, hw, hr⟩ := (hread c rest).1 heq
        refine ⟨a, word, rest, by rw [List.append_assoc, ← hr, ← hs], ha, hw, ?_, rfl⟩
        rwa [← startsWithLetter_eq_true_iff]
    · cases h
  · intro h
    obtain ⟨a, word, rest, rfl, ha, hw, hl, rfl⟩ := h
    have hs := skipSpace_append_word ha (hw.isWord (isWord_combinator c)) rest
    rw [← startsWithLetter_eq_true_iff] at hl
    rw [combinator?, (hread c rest).2 ⟨word, hw, hs⟩]
    exact if_neg hl

/-! ## White space in front

Every scanner skips it. -/

theorem field_skipSpace (s : List Char) : field (skipSpace s) = field s := by
  rw [field, field, skipSpace_skipSpace]

theorem operator_skipSpace (s : List Char) : operator (skipSpace s) = operator s := by
  rw [operator, operator, skipSpace_skipSpace]

theorem value_skipSpace (s : List Char) : value (skipSpace s) = value s := by
  rw [value, value, skipSpace_skipSpace]

theorem predicate_skipSpace (s : List Char) : predicate (skipSpace s) = predicate s := by
  rw [predicate, predicate, field_skipSpace]

end Scan
end Filter
end Criteria
