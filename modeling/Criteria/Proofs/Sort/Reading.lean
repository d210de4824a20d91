import Criteria.Proofs.Sort.Grammar
import Criteria.Sort.Query

/-!
# Reading sort queries by the grammar

A key and a list of keys are read exactly where the grammar has them.  Where reading stops, a
list has been read, or nothing but white space.
-/

namespace Criteria
namespace SortKey

open Text Grammar

/-! ## The parts of a key -/

namespace Scan

theorem name_eq_ok_iff {s rest : List Char} {n : String} :
    name s = .ok (n, rest) ↔
      ∃ a w, s = a ++ w ++ rest ∧ IsSpace a ∧ IsWord w ∧ ¬ Begins Char.isAlpha rest ∧
        n = String.ofList w := by
  constructor
  · intro h
    obtain ⟨a, ha, hs⟩ := exists_skipSpace s
    unfold name at h
    split at h
    · cases h
    · rename_i hne
      cases h
      refine ⟨a, (skipSpace s).takeWhile Char.isAlpha, ?_, ha, ⟨hne, ?_⟩, ?_, rfl⟩
      · rw [List.append_assoc, List.takeWhile_append_dropWhile, ← hs]
      · exact forall_mem_takeWhile _ _
      · exact not_begins_dropWhile _ _
  · intro h
    obtain ⟨a, w, rfl, ha, hw, hr, rfl⟩ := h
    rw [name, skipSpace_append_word ha hw, takeWhile_append_exact hw.2 hr,
      dropWhile_append_exact hw.2 hr]
    obtain ⟨c, w, rfl⟩ := List.exists_cons_of_ne_nil hw.1
    rfl

theorem name_error {s : List Char} {m : Mismatch} (h : name s = .error m) :
    m = ⟨.propertyName, skipSpace s⟩ := by
  unfold name at h
  split at h
  · cases h
    rfl
  · cases h

theorem leadingDirection?_eq_some_iff {s rest : List Char} {d : Direction} :
    leadingDirection? s = some (d, rest) ↔
      ∃ word, Spells .caseless d.word word ∧ s = word ++ rest :=
  findSome?_dropWord? Direction.mem_all direction_eq_of_prefix

theorem direction_append {b word : List Char} {d : Direction} (hb : IsSpace b) (hne : b ≠ [])
    (hd : Spells .caseless d.word word) (rest : List Char) :
    direction (b ++ word ++ rest) = (d, rest) := by
  have hskip := skipSpace_append_word hb (hd.isWord (isWord_direction d)) rest
  have hread : leadingDirection? (word ++ rest) = some (d, rest) :=
    leadingDirection?_eq_some_iff.2 ⟨word, hd, rfl⟩
  obtain ⟨c, b, rfl⟩ := List.exists_cons_of_ne_nil hne
  have hc : c.isWhitespace = true := hb c List.mem_cons_self
  show (if c.isWhitespace then
    (leadingDirection? (skipSpace (c :: b ++ word ++ rest))).getD _ else _) = _
  rw [hc, if_pos rfl, hskip, hread, Option.getD_some]

/-- A direction is read, with the white space in front of it, or nothing is. -/
theorem direction_cases (s : List Char) :
    direction s = (.ascending, s) ∨
      ∃ b word d rest, s = b ++ word ++ rest ∧ IsSpace b ∧ b ≠ [] ∧
        Spells .caseless d.word word ∧ direction s = (d, rest) := by
  cases s with
  | nil => exact .inl rfl
  | cons c t =>
    by_cases hc : c.isWhitespace = true
    · cases hread : leadingDirection? (skipSpace (c :: t)) with
      | none =>
        refine .inl ?_
        rw [direction, if_pos hc, hread, Option.getD_none]
      | some x =>
        obtain ⟨d, rest⟩ := x
        obtain ⟨word, hd, hr⟩ := leadingDirection?_eq_some_iff.1 hread
        obtain ⟨b, hb, hs⟩ := exists_skipSpace (c :: t)
        refine .inr ⟨b, word, d, rest, ?_, hb, ?_, hd, ?_⟩
        · rw [List.append_assoc, ← hr, ← hs]
        · rintro rfl
          rw [List.nil_append] at hs
          exact not_begins_skipSpace (c :: t) (hs ▸ hc)
        · rw [direction, if_pos hc, hread, Option.getD_some]
    · exact .inl (if_neg hc)

theorem direction_bare {s : List Char} (h : ¬ Begins Char.isAlpha (skipSpace s)) :
    direction s = (.ascending, s) := by
  rcases direction_cases s with hbare | ⟨b, word, d, rest, rfl, hb, -, hd, -⟩
  · exact hbare
  · have hw := hd.isWord (isWord_direction d)
    rw [skipSpace_append_word hb hw] at h
    exact absurd (hw.begins.append rest) h

/-- What may stand behind a key, and what it leaves for further keys. -/
inductive IsEnd : List Char → List Char → Prop
  | comma (rest : List Char) : IsEnd (',' :: rest) rest
  | nothing : IsEnd [] []

theorem IsEnd.not_begins {s rest : List Char} (h : IsEnd s rest) {p : Char → Bool}
    (hp : p ',' = false) : ¬ Begins p s := by
  cases h with
  | comma => exact Bool.eq_false_iff.1 hp
  | nothing => exact not_begins_nil p

theorem endOfKey_eq_ok_iff {s rest : List Char} :
    endOfKey s = .ok rest ↔ ∃ e t, s = e ++ t ∧ IsSpace e ∧ IsEnd t rest := by
  constructor
  · intro h
    obtain ⟨e, he, hs⟩ := exists_skipSpace s
    refine ⟨e, skipSpace s, hs, he, ?_⟩
    unfold endOfKey at h
    split at h
    · cases h
      rw [‹skipSpace s = []›]
      exact .nothing
    · rename_i c t heq
      split at h
      · cases h
        rw [heq, ‹c = ','›]
        exact .comma rest
      · cases h
  · intro h
    obtain ⟨e, t, rfl, he, ht⟩ := h
    rw [endOfKey, skipSpace_append he, skipSpace_eq_self (ht.not_begins (by decide))]
    cases ht <;> rfl

theorem endOfKey_error {s : List Char} {m : Mismatch} (h : endOfKey s = .error m) :
    m = ⟨.commaOrEnd, skipSpace s⟩ ∧ skipSpace s ≠ [] := by
  unfold endOfKey at h
  split at h
  · cases h
  · rename_i c t heq
    split at h
    · cases h
    · cases h
      rw [heq]
      exact ⟨rfl, List.cons_ne_nil c t⟩

/-! ## Keys -/

theorem key_append {a s t rest : List Char} {k : SortKey} (ha : IsSpace a) (hk : IsKey s k)
    (ht : IsEnd t rest) : key (a ++ s ++ t) = .ok (k, rest) := by
  have hletter : ∀ {e : List Char}, IsSpace e → ¬ Begins Char.isAlpha (e ++ t) := fun he =>
    he.not_begins_append (disjoint_symm fun _ => isWhitespace_eq_false_of_isAlpha)
      (ht.not_begins (by decide))
  cases hk with
  | @bare n e hn he =>
    have hskip : ¬ Begins Char.isAlpha (skipSpace (e ++ t)) := by
      rw [skipSpace_append he, skipSpace_eq_self (ht.not_begins (by decide))]
      exact ht.not_begins (by decide)
    have hname : name (a ++ (n ++ e) ++ t) = .ok (String.ofList n, e ++ t) := by
      refine name_eq_ok_iff.2 ⟨a, n, ?_, ha, hn, hletter he, rfl⟩
      simp only [List.append_assoc]
    refine key_eq_ok_iff.2 ⟨e ++ t, hname, ?_, ?_⟩
    · rw [direction_bare hskip]
    · rw [direction_bare hskip]
      exact endOfKey_eq_ok_iff.2 ⟨e, t, rfl, he, ht⟩
  | @directed n b word e d hn hb hne hd he =>
    have hname : name (a ++ (n ++ b ++ word ++ e) ++ t) =
        .ok (String.ofList n, b ++ word ++ (e ++ t)) := by
      refine name_eq_ok_iff.2 ⟨a, n, ?_, ha, hn, ?_, rfl⟩
      · simp only [List.append_assoc]
      · rw [List.append_assoc]
        exact ((hb.begins hne).append _).not_begins
          (disjoint_symm fun _ => isWhitespace_eq_false_of_isAlpha)
    refine key_eq_ok_iff.2 ⟨b ++ word ++ (e ++ t), hname, ?_, ?_⟩
    · rw [direction_append hb hne hd]
    · rw [direction_append hb hne hd]
      exact endOfKey_eq_ok_iff.2 ⟨e, t, rfl, he, ht⟩

/-- A name and what is read of a direction behind it make a key, whatever follows. -/
theorem exists_isKey_of_name {s s₁ e t : List Char} {n : String} (h : name s = .ok (n, s₁))
    (hs : (direction s₁).2 = e ++ t) (he : IsSpace e) :
    ∃ a u, s = a ++ u ++ t ∧ IsSpace a ∧ IsKey u ⟨n, (direction s₁).1⟩ := by
  obtain ⟨a, w, rfl, ha, hw, -, rfl⟩ := name_eq_ok_iff.1 h
  rcases direction_cases s₁ with hbare | ⟨b, word, d, rest, rfl, hb, hne, hd, hread⟩
  · rw [hbare] at hs ⊢
    refine ⟨a, w ++ e, ?_, ha, .bare hw he⟩
    rw [show s₁ = e ++ t from hs]
    simp only [List.append_assoc]
  · rw [hread] at hs ⊢
    refine ⟨a, w ++ b ++ word ++ e, ?_, ha, .directed hw hb hne hd he⟩
    rw [show rest = e ++ t from hs]
    simp only [List.append_assoc]

theorem exists_isKey {s rest : List Char} {k : SortKey} (h : key s = .ok (k, rest)) :
    ∃ a u t, s = a ++ u ++ t ∧ IsSpace a ∧ IsKey u k ∧ IsEnd t rest := by
  obtain ⟨s₁, hname, hd, hend⟩ := key_eq_ok_iff.1 h
  obtain ⟨e, t, hs, he, ht⟩ := endOfKey_eq_ok_iff.1 hend
  obtain ⟨a, u, rfl, ha, hu⟩ := exists_isKey_of_name hname hs he
  rw [hd] at hu
  exact ⟨a, u, t, rfl, ha, hu, ht⟩

/-- Where a key cannot be read, white space has been taken, or a key that does not end. -/
theorem key_error {s : List Char} {m : Mismatch} (h : key s = .error m) :
    m = ⟨.propertyName, skipSpace s⟩ ∨
      m.expected = .commaOrEnd ∧ m.rest ≠ [] ∧ ¬ Begins Char.isWhitespace m.rest ∧
        ∃ a u k, s = a ++ u ++ m.rest ∧ IsSpace a ∧ IsKey u k := by
  unfold key at h
  rcases bind_eq_error_iff.1 h with hname | ⟨⟨n, s₁⟩, hname, h⟩
  · exact .inl (name_error hname)
  · rcases bind_eq_error_iff.1 h with hend | ⟨rest, -, h⟩
    · obtain ⟨rfl, hne⟩ := endOfKey_error hend
      obtain ⟨e, he, hs⟩ := exists_skipSpace (direction s₁).2
      obtain ⟨a, u, hsplit, ha, hu⟩ := exists_isKey_of_name hname hs he
      exact .inr ⟨rfl, hne, not_begins_skipSpace _, a, u, _, hsplit, ha, hu⟩
    · cases h

theorem key_of_isSpace {s : List Char} (hs : IsSpace s) :
    key s = .error ⟨.propertyName, []⟩ := by
  have hname : name s = .error ⟨.propertyName, []⟩ := by
    rw [name, skipSpace_eq_nil_iff.2 hs]
    rfl
  rw [key, hname]
  rfl

end Scan

open Scan (IsEnd)

/-! ## Lists of keys -/

theorem readMany_of_isSpace {s : List Char} (hs : IsSpace s) : readMany s = ([], s) :=
  readMany_of_error (Scan.key_of_isSpace hs)

/-- What is read of a text is a list at its start, or nothing. -/
theorem readMany_cases (s : List Char) :
    readMany s = ([], s) ∨
      ∃ t, s = t ++ (readMany s).2 ∧ IsList t (readMany s).1 := by
  fun_induction readMany s with
  | case1 s m h => exact .inl rfl
  | case2 s k s₁ h ks rest heq ih =>
    obtain ⟨a, u, t, rfl, ha, hu, ht⟩ := Scan.exists_isKey h
    rw [heq] at ih
    refine .inr ?_
    rcases ih with hnone | ⟨v, hs₁, hv⟩
    · cases hnone
      cases ht with
      | comma => exact ⟨a ++ u ++ [','], by simp, .comma ha hu isSpace_nil⟩
      | nothing => exact ⟨a ++ u, rfl, .last ha hu⟩
    · cases ht with
      | comma =>
        refine ⟨a ++ u ++ ',' :: v, ?_, .cons ha hu hv⟩
        rw [hs₁, List.append_assoc _ (',' :: v), List.cons_append]
      | nothing =>
        -- The text ends with the key, so no list can have been read behind it.
        rw [readMany_of_isSpace isSpace_nil] at heq
        cases heq
        exact absurd rfl hv.ne_nil

theorem exists_isList {s rest : List Char} {k : SortKey} (h : Scan.key s = .ok (k, rest)) :
    ∃ t, s = t ++ (readMany s).2 ∧ IsList t (readMany s).1 := by
  rcases readMany_cases s with hnone | hlist
  · rw [readMany_of_ok h] at hnone
    cases hnone
  · exact hlist

/-- Of a list all keys are read, and no more than white space is left. -/
theorem readMany_of_isList {s : List Char} {ks : List SortKey} (h : IsList s ks) :
    ∃ e, readMany s = (ks, e) ∧ IsSpace e := by
  induction h with
  | @last a s k ha hk =>
    have hkey := Scan.key_append ha hk .nothing
    rw [List.append_nil] at hkey
    rw [readMany_of_ok hkey, readMany_of_isSpace isSpace_nil]
    exact ⟨[], rfl, isSpace_nil⟩
  | @comma a s e k ha hk he =>
    rw [readMany_of_ok (Scan.key_append ha hk (.comma e)), readMany_of_isSpace he]
    exact ⟨e, rfl, he⟩
  | @cons a s t k ks ha hk _ ih =>
    obtain ⟨e, ht, he⟩ := ih
    rw [readMany_of_ok (Scan.key_append ha hk (.comma t)), ht]
    exact ⟨e, rfl, he⟩

/-- Behind a list that does not end in a comma and a comma stand more keys, if any. -/
theorem readMany_append {s : List Char} {ks : List SortKey} (h : IsList s ks)
    (hend : ¬ EndsInComma s) (t : List Char) :
    readMany (s ++ ',' :: t) = (ks ++ (readMany t).1, (readMany t).2) := by
  induction h with
  | last ha hk => rw [readMany_of_ok (Scan.key_append ha hk (.comma t))]; rfl
  | comma ha hk he => exact absurd (endsInComma_comma he _) hend
  | @cons a s u k ks ha hk _ ih =>
    have hu : ¬ EndsInComma u := by
      intro hu
      refine hend ?_
      rw [← List.singleton_append, ← List.append_assoc]
      exact hu.append _
    rw [List.append_assoc, List.cons_append, readMany_of_ok (Scan.key_append ha hk (.comma _)),
      ih hu]
    rfl

/-! ## Whole queries -/

/-- The keys of a query of which the first can be read, unless something is left of it. -/
def atEnd (read : List SortKey × List Char) : Except Mismatch (List SortKey) :=
  if IsSpace read.2 then .ok read.1 else .error ⟨.furtherKey, skipSpace read.2⟩

theorem readAll_of_error {s : List Char} {m : Mismatch} (h : Scan.key s = .error m) :
    readAll s = .error m := by
  rw [readAll, h]
  rfl

theorem readAll_of_ok {s rest : List Char} {k : SortKey} (h : Scan.key s = .ok (k, rest)) :
    readAll s = atEnd (readMany s) := by
  rw [readAll, h, readMany_of_ok h, atEnd]
  dsimp only [bind, Except.bind]
  by_cases hend : IsSpace (readMany rest).2
  · rw [if_pos hend, skipSpace_eq_nil_iff.2 hend]
  · obtain ⟨c, t, hleft⟩ := List.exists_cons_of_ne_nil (mt skipSpace_eq_nil_iff.1 hend)
    rw [if_neg hend, hleft]

theorem atEnd_eq_ok_iff {read : List SortKey × List Char} {ks : List SortKey} :
    atEnd read = .ok ks ↔ IsSpace read.2 ∧ read.1 = ks := by
  rw [atEnd]
  split <;> simp_all

theorem atEnd_error {read : List SortKey × List Char} {m : Mismatch} (h : atEnd read = .error m) :
    m = ⟨.furtherKey, skipSpace read.2⟩ ∧ ¬ IsSpace read.2 := by
  unfold atEnd at h
  split at h
  · cases h
  · rename_i hleft
    cases h
    exact ⟨rfl, hleft⟩

theorem readAll_of_readMany {s rest : List Char} {ks : List SortKey}
    (h : readMany s = (ks, rest)) (hne : ks ≠ []) : readAll s = atEnd (ks, rest) := by
  cases hkey : Scan.key s with
  | error m =>
    rw [readMany_of_error hkey] at h
    cases h
    exact absurd rfl hne
  | ok x => rw [readAll_of_ok hkey, h]

theorem readAll_eq_ok_iff {s : List Char} {ks : List SortKey} :
    readAll s = .ok ks ↔ IsList s ks := by
  constructor
  · intro h
    cases hkey : Scan.key s with
    | error m =>
      rw [readAll_of_error hkey] at h
      cases h
    | ok x =>
      obtain ⟨k, rest⟩ := x
      rw [readAll_of_ok hkey, atEnd_eq_ok_iff] at h
      obtain ⟨he, rfl⟩ := h
      obtain ⟨t, hs, ht⟩ := exists_isList hkey
      have hwhole := ht.append_space he
      rwa [← hs] at hwhole
  · intro h
    obtain ⟨e, hread, he⟩ := readMany_of_isList h
    rw [readAll_of_readMany hread h.ne_nil, atEnd_eq_ok_iff]
    exact ⟨he, rfl⟩

theorem isList_unique {s : List Char} {ks ks' : List SortKey} (h : IsList s ks)
    (h' : IsList s ks') : ks = ks' :=
  Except.ok.inj ((readAll_eq_ok_iff.2 h).symm.trans (readAll_eq_ok_iff.2 h'))

/-- Where a query cannot be read, white space has been taken, or a list in front of more text. -/
theorem readAll_error {s : List Char} {m : Mismatch} (h : readAll s = .error m) :
    ∃ t, s = t ++ m.rest ∧ ¬ Begins Char.isWhitespace m.rest ∧
      (IsSpace t ∨ m.rest ≠ [] ∧ ∃ ks, IsList t ks) := by
  cases hkey : Scan.key s with
  | error m' =>
    rw [readAll_of_error hkey] at h
    cases h
    rcases Scan.key_error hkey with rfl | ⟨-, hne, hspace, a, u, k, hs, ha, hu⟩
    · obtain ⟨a, ha, hs⟩ := exists_skipSpace s
      exact ⟨a, hs, not_begins_skipSpace s, .inl ha⟩
    · exact ⟨a ++ u, hs, hspace, .inr ⟨hne, [k], .last ha hu⟩⟩
  | ok x =>
    obtain ⟨k, rest⟩ := x
    rw [readAll_of_ok hkey] at h
    obtain ⟨rfl, hleft⟩ := atEnd_error h
    obtain ⟨t, hs, ht⟩ := exists_isList hkey
    obtain ⟨e, he, hrest⟩ := exists_skipSpace (readMany s).2
    refine ⟨t ++ e, ?_, not_begins_skipSpace _, .inr ⟨?_, _, ht.append_space he⟩⟩
    · rw [List.append_assoc, ← hrest]
      exact hs
    · exact fun hnil => hleft (skipSpace_eq_nil_iff.1 hnil)

theorem rest_eq_nil_iff {s : List Char} {m : Mismatch} (h : readAll s = .error m) :
    m.rest = [] ↔ IsSpace s := by
  obtain ⟨t, hs, hspace, ht⟩ := readAll_error h
  constructor
  · intro hnil
    rcases ht with ht | ⟨hne, -⟩
    · rwa [hs, hnil, List.append_nil]
    · exact absurd hnil hne
  · intro hall
    rw [hs] at hall
    have hrest : IsSpace m.rest := fun c hc => hall c (List.mem_append_right t hc)
    exact hrest.eq_nil hspace

/-- How a mismatch is answered behind a comma.  What was expected of a first key is not said of
a later one, and such a key counts as not begun. -/
def behindComma (s : List Char) (m : Mismatch) : Mismatch :=
  ⟨.furtherKey, if m.expected = .furtherKey then m.rest else skipSpace s⟩

/-- Behind a list and a comma a text is read as it is on its own. -/
theorem readAll_behind_comma {s t : List Char} {ks : List SortKey} (h : IsList s ks)
    (hend : ¬ EndsInComma s) (ht : ¬ IsSpace t) :
    readAll (s ++ ',' :: t) =
      ((readAll t).map (ks ++ ·)).mapError (behindComma t) := by
  have hne : ks ++ (readMany t).1 ≠ [] := fun hnil => h.ne_nil (List.append_eq_nil_iff.1 hnil).1
  rw [readAll_of_readMany (readMany_append h hend t) hne]
  cases hkey : Scan.key t with
  | error m =>
    have hm : behindComma t m = ⟨.furtherKey, skipSpace t⟩ := by
      rcases Scan.key_error hkey with rfl | ⟨hexpected, -⟩
      · rfl
      · rw [behindComma, hexpected]
        rfl
    rw [readMany_of_error hkey, readAll_of_error hkey, atEnd, if_neg ht, ← hm]
    rfl
  | ok x =>
    rw [readAll_of_ok hkey, atEnd, atEnd]
    by_cases hrest : IsSpace (readMany t).2
    · rw [if_pos hrest, if_pos hrest]
      rfl
    · rw [if_neg hrest, if_neg hrest]
      rfl

end SortKey
end Criteria
