import Criteria.Text.Bytes
import Criteria.Text.Scan

/-!
# Words and white space

What the texts of a query are made of: white space, words of letters, and spellings of
keywords.  A scanner that takes all characters of one class is described by the text it
takes and by what may not stand behind it.
-/

namespace Criteria

/-- Two scanners in turn fail if the first does, or the second behind it. -/
theorem bind_eq_error_iff {ε α β : Type} {x : Except ε α} {f : α → Except ε β} {e : ε} :
    x >>= f = .error e ↔ x = .error e ∨ ∃ a, x = .ok a ∧ f a = .error e := by
  cases x <;> simp [bind, Except.bind]

namespace Text

/-! ## Characters -/

theorem isAlpha_iff {c : Char} :
    c.isAlpha = true ↔
      (65 ≤ c.toNat ∧ c.toNat ≤ 90) ∨ (97 ≤ c.toNat ∧ c.toNat ≤ 122) := by
  unfold Char.isAlpha Char.isUpper Char.isLower
  simp only [Bool.or_eq_true, Bool.and_eq_true, decide_eq_true_eq, ge_iff_le,
    UInt32.le_iff_toNat_le]
  exact Iff.rfl

theorem isDigit_iff {c : Char} : c.isDigit = true ↔ 48 ≤ c.toNat ∧ c.toNat ≤ 57 := by
  unfold Char.isDigit
  simp only [Bool.and_eq_true, decide_eq_true_eq, ge_iff_le, UInt32.le_iff_toNat_le]
  exact Iff.rfl

theorem isAlpha_of_isAlpha_toLower {c : Char} (h : c.toLower.isAlpha = true) :
    c.isAlpha = true := by
  by_cases hu : c.isUpper = true
  · show (c.isUpper || c.isLower) = true
    rw [hu, Bool.true_or]
  · have hc : c.toLower = c := by
      unfold Char.isUpper at hu
      rw [decide_eq_true_eq] at hu
      unfold Char.toLower
      exact dif_neg hu
    rwa [hc] at h

theorem isWhitespace_eq_false {p : Char → Bool}
    (hp : [' ', '\t', '\r', '\n'].any p = false) {c : Char} (h : p c = true) :
    c.isWhitespace = false := by
  apply Bool.eq_false_iff.2
  intro hw
  simp only [Char.isWhitespace, Bool.or_eq_true, decide_eq_true_eq] at hw
  exact List.any_eq_false.1 hp c (by simpa [or_assoc] using hw) h

theorem isWhitespace_eq_false_of_isAlpha {c : Char} (h : c.isAlpha = true) :
    c.isWhitespace = false := isWhitespace_eq_false (by decide) h

theorem isWhitespace_eq_false_of_isDigit {c : Char} (h : c.isDigit = true) :
    c.isWhitespace = false := isWhitespace_eq_false (by decide) h

theorem isDigit_eq_false_of_isAlpha {c : Char} (h : c.isAlpha = true) : c.isDigit = false := by
  apply Bool.eq_false_iff.2
  intro hd
  have ha := isAlpha_iff.1 h
  have hd := isDigit_iff.1 hd
  omega

theorem disjoint_symm {p q : Char → Bool} (h : ∀ c, p c = true → q c = false) :
    ∀ c, q c = true → p c = false := by
  intro c hc
  apply Bool.eq_false_iff.2
  intro hp
  rw [h c hp] at hc
  cases hc

/-! ## The first character of a text -/

def Begins (p : Char → Bool) : List Char → Prop
  | [] => False
  | c :: _ => p c = true

@[simp]
theorem not_begins_nil (p : Char → Bool) : ¬ Begins p [] := id

@[simp]
theorem begins_cons {p : Char → Bool} {c : Char} {s : List Char} :
    Begins p (c :: s) ↔ p c = true := Iff.rfl

theorem Begins.append {p : Char → Bool} {s : List Char} (h : Begins p s) (t : List Char) :
    Begins p (s ++ t) := by
  cases s with
  | nil => exact absurd h (not_begins_nil p)
  | cons c s => exact h

theorem begins_of_forall {p : Char → Bool} {s : List Char} (hs : s ≠ [])
    (h : ∀ c ∈ s, p c = true) : Begins p s := by
  cases s with
  | nil => exact absurd rfl hs
  | cons c s => exact h c List.mem_cons_self

theorem Begins.length_pos {p : Char → Bool} {s : List Char} (h : Begins p s) :
    0 < s.length := by
  cases s with
  | nil => exact absurd h (not_begins_nil p)
  | cons c s => exact Nat.zero_lt_succ s.length

/-- Of two classes without a common character a text begins with one at most. -/
theorem Begins.not_begins {p q : Char → Bool} {s : List Char} (h : Begins p s)
    (hpq : ∀ c, p c = true → q c = false) : ¬ Begins q s := by
  cases s with
  | nil => exact not_begins_nil q
  | cons c s => exact Bool.eq_false_iff.1 (hpq c h)

theorem not_begins_mono {p q : Char → Bool} {s : List Char}
    (hpq : ∀ c, p c = true → q c = true) (h : ¬ Begins q s) : ¬ Begins p s := by
  cases s with
  | nil => exact not_begins_nil p
  | cons c s => exact fun hc => h (hpq c hc)

theorem startsWithLetter_eq_true_iff {s : List Char} :
    startsWithLetter s = true ↔ Begins Char.isAlpha s := by
  cases s <;> simp [startsWithLetter]

/-! ## All characters of a class -/

theorem not_begins_dropWhile (p : Char → Bool) (s : List Char) :
    ¬ Begins p (s.dropWhile p) := by
  induction s with
  | nil => exact not_begins_nil p
  | cons c s ih =>
    by_cases hc : p c = true
    · rwa [List.dropWhile_cons_of_pos hc]
    · rwa [List.dropWhile_cons_of_neg hc]

theorem dropWhile_eq_self {p : Char → Bool} {s : List Char} (h : ¬ Begins p s) :
    s.dropWhile p = s := by
  cases s with
  | nil => rfl
  | cons c s => exact List.dropWhile_cons_of_neg h

theorem takeWhile_eq_nil {p : Char → Bool} {s : List Char} (h : ¬ Begins p s) :
    s.takeWhile p = [] := by
  cases s with
  | nil => rfl
  | cons c s => exact List.takeWhile_cons_of_neg h

theorem takeWhile_append_exact {p : Char → Bool} {a s : List Char} (ha : ∀ c ∈ a, p c = true)
    (hs : ¬ Begins p s) : (a ++ s).takeWhile p = a := by
  rw [List.takeWhile_append_of_pos ha, takeWhile_eq_nil hs, List.append_nil]

theorem dropWhile_append_exact {p : Char → Bool} {a s : List Char} (ha : ∀ c ∈ a, p c = true)
    (hs : ¬ Begins p s) : (a ++ s).dropWhile p = s := by
  rw [List.dropWhile_append_of_pos ha, dropWhile_eq_self hs]

/-- A text begins with one run of characters of a class. -/
theorem run_unique {p : Char → Bool} {a a' s s' : List Char} (ha : ∀ c ∈ a, p c = true)
    (ha' : ∀ c ∈ a', p c = true) (hs : ¬ Begins p s) (hs' : ¬ Begins p s')
    (h : a ++ s = a' ++ s') : a = a' ∧ s = s' := by
  have hrun : a = a' := by
    rw [← takeWhile_append_exact ha hs, h, takeWhile_append_exact ha' hs']
  rw [hrun] at h
  exact ⟨hrun, List.append_cancel_left h⟩

theorem forall_mem_takeWhile (p : Char → Bool) (s : List Char) :
    ∀ c ∈ s.takeWhile p, p c = true :=
  List.all_eq_true.1 List.all_takeWhile

/-! ## White space -/

def IsSpace (s : List Char) : Prop := ∀ c ∈ s, c.isWhitespace = true

instance (s : List Char) : Decidable (IsSpace s) :=
  decidable_of_iff (s.all Char.isWhitespace = true) List.all_eq_true

theorem isSpace_nil : IsSpace [] := by
  intro c hc
  cases hc

theorem IsSpace.append {a b : List Char} (ha : IsSpace a) (hb : IsSpace b) :
    IsSpace (a ++ b) := by
  intro c hc
  rcases List.mem_append.1 hc with hc | hc
  · exact ha c hc
  · exact hb c hc

theorem IsSpace.begins {a : List Char} (ha : IsSpace a) (hne : a ≠ []) :
    Begins Char.isWhitespace a := begins_of_forall hne ha

theorem IsSpace.eq_nil {a : List Char} (ha : IsSpace a) (h : ¬ Begins Char.isWhitespace a) :
    a = [] := by
  cases a with
  | nil => rfl
  | cons c a => exact absurd (ha c List.mem_cons_self) h

/-- White space in front of a text that begins with none is all skipped. -/
theorem skipSpace_append {a : List Char} (ha : IsSpace a) (s : List Char) :
    skipSpace (a ++ s) = skipSpace s := List.dropWhile_append_of_pos ha

theorem skipSpace_eq_self {s : List Char} (h : ¬ Begins Char.isWhitespace s) :
    skipSpace s = s := dropWhile_eq_self h

theorem not_begins_skipSpace (s : List Char) : ¬ Begins Char.isWhitespace (skipSpace s) :=
  not_begins_dropWhile _ s

theorem skipSpace_skipSpace (s : List Char) : skipSpace (skipSpace s) = skipSpace s :=
  skipSpace_eq_self (not_begins_skipSpace s)

theorem exists_skipSpace (s : List Char) : ∃ a, IsSpace a ∧ s = a ++ skipSpace s :=
  ⟨s.takeWhile Char.isWhitespace, forall_mem_takeWhile _ s,
    List.takeWhile_append_dropWhile.symm⟩

theorem skipSpace_eq_nil_iff {s : List Char} : skipSpace s = [] ↔ IsSpace s := by
  constructor
  · intro h
    obtain ⟨a, ha, hs⟩ := exists_skipSpace s
    rwa [hs, h, List.append_nil]
  · intro h
    rw [← List.append_nil s, skipSpace_append h]
    rfl

/-- A class without white space is not begun by white space put in front. -/
theorem IsSpace.not_begins_append {a s : List Char} (ha : IsSpace a) {p : Char → Bool}
    (hp : ∀ c, c.isWhitespace = true → p c = false) (hs : ¬ Begins p s) :
    ¬ Begins p (a ++ s) := by
  cases a with
  | nil => exact hs
  | cons c a => exact Bool.eq_false_iff.1 (hp c (ha c List.mem_cons_self))

/-! ## Words -/

/-- One or more letters. -/
def IsWord (s : List Char) : Prop := s ≠ [] ∧ ∀ c ∈ s, c.isAlpha = true

instance (s : List Char) : Decidable (IsWord s) :=
  decidable_of_iff (s ≠ [] ∧ s.all Char.isAlpha = true) (and_congr_right' List.all_eq_true)

theorem IsWord.begins {w : List Char} (h : IsWord w) : Begins Char.isAlpha w :=
  begins_of_forall h.1 h.2

theorem IsWord.cons {c : Char} {w : List Char} (hc : c.isAlpha = true) (h : IsWord w) :
    IsWord (c :: w) :=
  ⟨List.cons_ne_nil c w, fun d hd => (List.mem_cons.1 hd).elim (· ▸ hc) (h.2 d)⟩

theorem isWord_singleton {c : Char} (hc : c.isAlpha = true) : IsWord [c] :=
  ⟨List.cons_ne_nil c [], fun _ hd => List.mem_singleton.1 hd ▸ hc⟩

theorem skipSpace_append_word {a w : List Char} (ha : IsSpace a) (hw : IsWord w)
    (s : List Char) : skipSpace (a ++ w ++ s) = w ++ s := by
  have hb : ¬ Begins Char.isWhitespace (w ++ s) :=
    (hw.begins.append s).not_begins fun _ => isWhitespace_eq_false_of_isAlpha
  rw [List.append_assoc, skipSpace_append ha, skipSpace_eq_self hb]

/-! ## Keywords -/

/-- Whether the letters of `w` are those of a keyword. -/
def Spells (keywordCase : KeywordCase) (word w : List Char) : Prop :=
  w.map keywordCase.fold = word

instance (keywordCase : KeywordCase) (word w : List Char) :
    Decidable (Spells keywordCase word w) :=
  inferInstanceAs (Decidable (w.map keywordCase.fold = word))

theorem dropWord?_eq_some_iff {keywordCase : KeywordCase} {word s rest : List Char} :
    dropWord? keywordCase word s = some rest ↔
      ∃ w, Spells keywordCase word w ∧ s = w ++ rest := by
  induction word generalizing s with
  | nil => simp [dropWord?, Spells]
  | cons k word ih =>
    cases s with
    | nil =>
      simp only [dropWord?, reduceCtorEq, false_iff]
      intro h
      obtain ⟨w, hw, h⟩ := h
      obtain ⟨rfl, -⟩ := List.append_eq_nil_iff.1 h.symm
      cases hw
    | cons c s =>
      by_cases hc : keywordCase.fold c = k
      · simp only [dropWord?, hc, if_true, ih]
        constructor
        · intro h
          obtain ⟨w, hw, rfl⟩ := h
          exact ⟨c :: w, by simpa [Spells, hc] using hw, rfl⟩
        · intro h
          obtain ⟨w, hw, h⟩ := h
          cases w with
          | nil => simp [Spells] at hw
          | cons d w =>
            obtain ⟨rfl, rfl⟩ := List.cons.inj h
            exact ⟨w, by simpa [Spells, hc] using hw, rfl⟩
      · simp only [dropWord?, hc, if_false, reduceCtorEq, false_iff]
        intro h
        obtain ⟨w, hw, h⟩ := h
        cases w with
        | nil => simp [Spells] at hw
        | cons d w =>
          obtain ⟨rfl, rfl⟩ := List.cons.inj h
          exact hc (by simpa [Spells] using congrArg List.head? hw)

theorem Spells.length_eq {keywordCase : KeywordCase} {word w : List Char}
    (h : Spells keywordCase word w) : w.length = word.length := by
  rw [← h, List.length_map]

/-- The spelling of a word of letters is one. -/
theorem Spells.isWord {keywordCase : KeywordCase} {word w : List Char}
    (h : Spells keywordCase word w) (hword : IsWord word) : IsWord w := by
  refine ⟨fun hw => hword.1 ?_, fun c hc => ?_⟩
  · rw [← h, hw, List.map_nil]
  · have hk : (keywordCase.fold c).isAlpha = true := by
      apply hword.2
      rw [← h]
      exact List.mem_map_of_mem hc
    cases keywordCase with
    | exact => exact hk
    | caseless => exact isAlpha_of_isAlpha_toLower hk

/-- If two keywords stand at the start of one text, one is the start of the other. -/
theorem Spells.prefix_total {keywordCase : KeywordCase} {word word' w w' s s' : List Char}
    (h : Spells keywordCase word w) (h' : Spells keywordCase word' w')
    (hs : w ++ s = w' ++ s') : word <+: word' ∨ word' <+: word := by
  rw [← h, ← h']
  rcases List.append_eq_append_iff.1 hs with ⟨t, rfl, -⟩ | ⟨t, rfl, -⟩
  · exact .inl ⟨t.map keywordCase.fold, by rw [List.map_append]⟩
  · exact .inr ⟨t.map keywordCase.fold, by rw [List.map_append]⟩

/-- Keywords of which none is the start of another can be tried in any order. -/
theorem findSome?_dropWord? {α : Type} {all : List α} {word : α → List Char}
    (hall : ∀ a, a ∈ all) (hword : ∀ a b, word a <+: word b → a = b)
    {keywordCase : KeywordCase} {s rest : List Char} {a : α} :
    all.findSome? (fun a => (dropWord? keywordCase (word a) s).map (a, ·)) = some (a, rest) ↔
      ∃ w, Spells keywordCase (word a) w ∧ s = w ++ rest := by
  rw [← dropWord?_eq_some_iff]
  constructor
  · intro h
    obtain ⟨b, -, h⟩ := List.exists_of_findSome?_eq_some h
    obtain ⟨r, hr, h⟩ := Option.map_eq_some_iff.1 h
    cases h
    exact hr
  · intro h
    cases hf : all.findSome? (fun a => (dropWord? keywordCase (word a) s).map (a, ·)) with
    | none =>
      have := List.findSome?_eq_none_iff.1 hf a (hall a)
      simp [h] at this
    | some x =>
      obtain ⟨b, -, hb⟩ := List.exists_of_findSome?_eq_some hf
      obtain ⟨r, hr, rfl⟩ := Option.map_eq_some_iff.1 hb
      obtain ⟨w, hw, hs⟩ := dropWord?_eq_some_iff.1 h
      obtain ⟨w', hw', hs'⟩ := dropWord?_eq_some_iff.1 hr
      have hab : a = b := by
        rcases hw.prefix_total hw' (hs.symm.trans hs') with hp | hp
        · exact hword a b hp
        · exact (hword b a hp).symm
      subst hab
      rw [h] at hr
      cases hr
      rfl

end Text
end Criteria
