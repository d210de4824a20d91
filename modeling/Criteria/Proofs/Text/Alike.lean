import Mathlib
import Criteria.Proofs.Text.Words
import Criteria.QueryError
import Criteria.Text.Blank

/-!
# Characters that are read alike

Queries are read by classes of characters.  A letter may stand in either case, and any white
space and any digit may stand for any other.  The normal form of a text has its letters in lower
case, a space for all white space and a zero for all digits, so two texts are alike if they
have one normal form.

It is enough to compare what is read in a text with what is read in its normal form.  A scanner
that cannot go on names a place, and both have the same places.
-/

namespace Criteria
namespace Text

/-! ## Characters -/

/-- Whether two characters are the same, or one letter in two cases, or both white space, or both
digits. -/
def AlikeChar (c d : Char) : Prop :=
  c = d ∨ (c.isAlpha = true ∧ d.isAlpha = true ∧ c.toLower = d.toLower) ∨
    (c.isWhitespace = true ∧ d.isWhitespace = true) ∨ (c.isDigit = true ∧ d.isDigit = true)

instance (c d : Char) : Decidable (AlikeChar c d) :=
  inferInstanceAs (Decidable (_ ∨ _))

def normalChar (c : Char) : Char :=
  if c.isAlpha then c.toLower
  else if c.isWhitespace then ' '
  else if c.isDigit then '0'
  else c

/-- What is the same of all letters, of all white space and of all digits is the same of a
character and its normal form. -/
theorem apply_normalChar {α : Type} {f : Char → α} {letter space digit : α}
    (hletter : ∀ c : Char, c.isAlpha = true → f c = letter)
    (hspace : ∀ c : Char, c.isWhitespace = true → f c = space)
    (hdigit : ∀ c : Char, c.isDigit = true → f c = digit) (c : Char) :
    f (normalChar c) = f c := by
  unfold normalChar
  split
  · rename_i hc
    rw [hletter c hc, hletter c.toLower (by rwa [Char.isAlpha_toLower_eq_isAlpha])]
  · split
    · rename_i hc
      rw [hspace c hc, hspace ' ' rfl]
    · split
      · rename_i hc
        rw [hdigit c hc, hdigit '0' rfl]
      · rfl

@[simp]
theorem isAlpha_normalChar (c : Char) : (normalChar c).isAlpha = c.isAlpha :=
  apply_normalChar (fun _ h => h)
    (disjoint_symm fun _ => isWhitespace_eq_false_of_isAlpha)
    (disjoint_symm fun _ => isDigit_eq_false_of_isAlpha) c

@[simp]
theorem isWhitespace_normalChar (c : Char) : (normalChar c).isWhitespace = c.isWhitespace :=
  apply_normalChar (fun _ => isWhitespace_eq_false_of_isAlpha) (fun _ h => h)
    (fun _ => isWhitespace_eq_false_of_isDigit) c

@[simp]
theorem isDigit_normalChar (c : Char) : (normalChar c).isDigit = c.isDigit :=
  apply_normalChar (fun _ => isDigit_eq_false_of_isAlpha)
    (disjoint_symm fun _ => isWhitespace_eq_false_of_isDigit) (fun _ h => h) c

/-- A character of none of the classes is its own normal form, and that of no other. -/
theorem normalChar_eq_iff {k : Char} (hletter : k.isAlpha = false)
    (hspace : k.isWhitespace = false) (hdigit : k.isDigit = false) {c : Char} :
    normalChar c = k ↔ c = k := by
  have hne : ∀ {p : Char → Bool}, p k = false → ∀ c, p c = true → decide (c = k) = false := by
    intro p hp c hc
    rw [decide_eq_false_iff_not]
    rintro rfl
    rw [hp] at hc
    cases hc
  have hsame := apply_normalChar (f := fun c => decide (c = k)) (hne hletter) (hne hspace)
    (hne hdigit) c
  simpa using hsame

@[simp]
theorem isBlankChar_normalChar (c : Char) : isBlankChar (normalChar c) = isBlankChar c := by
  have hfalse : ∀ {c : Char}, c.isAlpha = true ∨ c.isDigit = true → isBlankChar c = false := by
    intro c h
    rw [isAlpha_iff, isDigit_iff] at h
    apply Bool.eq_false_iff.2
    intro hblank
    simp only [isBlankChar, Bool.or_eq_true, Bool.and_eq_true, decide_eq_true_eq,
      beq_iff_eq] at hblank
    omega
  exact apply_normalChar (fun _ h => hfalse (.inl h)) (fun _ => isBlankChar_of_isWhitespace)
    (fun _ h => hfalse (.inr h)) c

@[simp]
theorem utf8Size_normalChar (c : Char) : (normalChar c).utf8Size = c.utf8Size := by
  have hone : ∀ {c : Char}, c.toNat ≤ 127 → c.utf8Size = 1 := by
    intro c h
    exact Char.utf8Size_eq_one_iff.2 (UInt32.le_iff_toNat_le.2 h)
  refine apply_normalChar (f := Char.utf8Size) (fun c h => hone ?_) (fun c h => hone ?_)
    (fun c h => hone ?_) c
  · have := isAlpha_iff.1 h
    omega
  · simp only [Char.isWhitespace, Bool.or_eq_true, decide_eq_true_eq] at h
    rcases h with ((rfl | rfl) | rfl) | rfl <;> decide
  · have := isDigit_iff.1 h
    omega

/-- Without regard to case a letter of a keyword is read in a character if it is in the normal
form. -/
theorem toLower_normalChar_eq_iff {k : Char} (hk : k.isAlpha = true) {c : Char} :
    (normalChar c).toLower = k ↔ c.toLower = k := by
  by_cases hc : c.isAlpha = true
  · rw [normalChar, if_pos hc, Char.toLower_toLower_eq_toLower]
  · have hne : ∀ {d : Char}, ¬ d.isAlpha = true → d.toLower ≠ k := by
      rintro d hd rfl
      exact hd (isAlpha_of_isAlpha_toLower hk)
    have hc' : ¬ (normalChar c).isAlpha = true := by rwa [isAlpha_normalChar]
    exact iff_of_false (hne hc') (hne hc)

theorem normalChar_of_isAlpha {c : Char} (h : c.isAlpha = true) : normalChar c = c.toLower :=
  if_pos h

theorem normalChar_of_isWhitespace {c : Char} (h : c.isWhitespace = true) :
    normalChar c = ' ' := by
  have hletter := disjoint_symm (fun _ => isWhitespace_eq_false_of_isAlpha) c h
  rw [normalChar, if_neg (Bool.eq_false_iff.1 hletter), if_pos h]

theorem normalChar_of_isDigit {c : Char} (h : c.isDigit = true) : normalChar c = '0' := by
  have hletter := disjoint_symm (fun _ => isDigit_eq_false_of_isAlpha) c h
  have hspace := isWhitespace_eq_false_of_isDigit h
  rw [normalChar, if_neg (Bool.eq_false_iff.1 hletter), if_neg (Bool.eq_false_iff.1 hspace),
    if_pos h]

theorem alikeChar_iff {c d : Char} : AlikeChar c d ↔ normalChar c = normalChar d := by
  constructor
  · rintro (rfl | ⟨hc, hd, h⟩ | ⟨hc, hd⟩ | ⟨hc, hd⟩)
    · rfl
    · rw [normalChar_of_isAlpha hc, normalChar_of_isAlpha hd, h]
    · rw [normalChar_of_isWhitespace hc, normalChar_of_isWhitespace hd]
    · rw [normalChar_of_isDigit hc, normalChar_of_isDigit hd]
  · intro h
    -- characters of one normal form are of one class
    have hclass : ∀ {p : Char → Bool}, (∀ c, p (normalChar c) = p c) → p c = p d := by
      intro p hp
      rw [← hp c, ← hp d, h]
    by_cases hletter : c.isAlpha = true
    · have hletter' : d.isAlpha = true := hclass isAlpha_normalChar ▸ hletter
      rw [normalChar_of_isAlpha hletter, normalChar_of_isAlpha hletter'] at h
      exact .inr (.inl ⟨hletter, hletter', h⟩)
    by_cases hspace : c.isWhitespace = true
    · exact .inr (.inr (.inl ⟨hspace, hclass isWhitespace_normalChar ▸ hspace⟩))
    by_cases hdigit : c.isDigit = true
    · exact .inr (.inr (.inr ⟨hdigit, hclass isDigit_normalChar ▸ hdigit⟩))
    · have hd : normalChar d = d := by
        rw [normalChar, ← hclass isAlpha_normalChar, ← hclass isWhitespace_normalChar,
          ← hclass isDigit_normalChar, if_neg hletter, if_neg hspace, if_neg hdigit]
      rw [normalChar, if_neg hletter, if_neg hspace, if_neg hdigit, hd] at h
      exact .inl h

/-! ## Texts -/

/-- Whether two texts have as many characters, alike place by place. -/
def Alike (s t : List Char) : Prop := List.Forall₂ AlikeChar s t

instance (s t : List Char) : Decidable (Alike s t) :=
  inferInstanceAs (Decidable (List.Forall₂ AlikeChar s t))

def normal (s : List Char) : List Char := s.map normalChar

theorem normal_cons (c : Char) (s : List Char) : normal (c :: s) = normalChar c :: normal s := rfl

theorem alike_iff {s t : List Char} : Alike s t ↔ normal s = normal t := by
  have hrel : AlikeChar = fun c d => normalChar c = normalChar d := by
    funext c d
    exact propext alikeChar_iff
  rw [Alike, hrel, normal, normal, ← List.forall₂_eq_eq_eq, List.forall₂_map_left_iff,
    List.forall₂_map_right_iff]

theorem takeWhile_normal {p : Char → Bool} (hp : ∀ c, p (normalChar c) = p c) (s : List Char) :
    (normal s).takeWhile p = normal (s.takeWhile p) := by
  have hcomp : p ∘ normalChar = p := funext hp
  rw [normal, List.takeWhile_map, hcomp, normal]

theorem dropWhile_normal {p : Char → Bool} (hp : ∀ c, p (normalChar c) = p c) (s : List Char) :
    (normal s).dropWhile p = normal (s.dropWhile p) := by
  have hcomp : p ∘ normalChar = p := funext hp
  rw [normal, List.dropWhile_map, hcomp, normal]

theorem skipSpace_normal (s : List Char) : skipSpace (normal s) = normal (skipSpace s) :=
  dropWhile_normal isWhitespace_normalChar s

theorem startsWithLetter_normal (s : List Char) :
    startsWithLetter (normal s) = startsWithLetter s := by
  cases s with
  | nil => rfl
  | cons c s => exact isAlpha_normalChar c

theorem byteLength_normal (s : List Char) : byteLength (normal s) = byteLength s := by
  induction s with
  | nil => rfl
  | cons c s ih => rw [normal_cons, byteLength, byteLength, ih, utf8Size_normalChar]

theorem dropWord?_normal {word : List Char} (hword : ∀ k ∈ word, k.isAlpha = true)
    (s : List Char) :
    dropWord? .caseless word (normal s) = (dropWord? .caseless word s).map normal := by
  induction word generalizing s with
  | nil => rfl
  | cons k word ih =>
    cases s with
    | nil => rfl
    | cons c s =>
      have hk : (normalChar c).toLower = k ↔ c.toLower = k :=
        toLower_normalChar_eq_iff (hword k List.mem_cons_self)
      have ih := ih (fun k hk => hword k (List.mem_cons_of_mem _ hk)) s
      by_cases hc : c.toLower = k
      · simp only [normal_cons, dropWord?, KeywordCase.fold, hk.2 hc, hc, if_true, ih]
      · have hc' : ¬ (normalChar c).toLower = k := fun h => hc (hk.1 h)
        simp only [normal_cons, dropWord?, KeywordCase.fold, hc, hc', if_false, Option.map_none]

/-- Keywords are found in the normal form of a text as in the text itself. -/
theorem findSome?_dropWord?_normal {α : Type} {word : α → List Char}
    (hword : ∀ a, ∀ k ∈ word a, k.isAlpha = true) (all : List α) (s : List Char) :
    all.findSome? (fun a => (dropWord? .caseless (word a) (normal s)).map (a, ·)) =
      (all.findSome? fun a => (dropWord? .caseless (word a) s).map (a, ·)).map
        (Prod.map id normal) := by
  rw [List.map_findSome?]
  congr 1
  funext a
  rw [Function.comp_apply, dropWord?_normal (hword a)]
  cases dropWord? .caseless (word a) s <;> rfl

def normalString (s : String) : String := String.ofList (normal s.toList)

theorem toList_normalString (s : String) : (normalString s).toList = normal s.toList :=
  String.toList_ofList

theorem normalString_ofList (s : List Char) :
    normalString (String.ofList s) = String.ofList (normal s) := by
  rw [normalString, String.toList_ofList]

theorem alike_toList_iff {s t : String} :
    Alike s.toList t.toList ↔ normalString s = normalString t := by
  rw [alike_iff, normalString, normalString, String.ofList_inj]

theorem isBlank_normalString (s : String) : isBlank (normalString s) = isBlank s := by
  rw [isBlank, toList_normalString, normal, List.all_map, isBlank]
  congr 1
  exact funext isBlankChar_normalChar

end Text

/-! ## Scanners -/

open Text

def Mismatch.normal (m : Mismatch) : Mismatch := { m with rest := Text.normal m.rest }

/-- What a scanner hands back of the normal form of a text, where `f` turns what it has read of
the text itself into what it reads there. -/
def mapNormal {α β : Type} (f : α → β) : Except Mismatch α → Except Mismatch β
  | .error m => .error m.normal
  | .ok a => .ok (f a)

/-- Two scanners in turn keep to normal forms if each does. -/
theorem mapNormal_bind {α α' β β' : Type} {f : α → α'} {g : β → β'} {k : α → Except Mismatch β}
    {k' : α' → Except Mismatch β'} (h : ∀ a, k' (f a) = mapNormal g (k a))
    (r : Except Mismatch α) : mapNormal f r >>= k' = mapNormal g (r >>= k) := by
  cases r with
  | error m => rfl
  | ok a => exact h a

theorem offset_normal (whole rest : List Char) :
    offset (normal whole) (normal rest) = offset whole rest := by
  rw [offset, offset, byteLength_normal, byteLength_normal]

/-- Places in a text are places in its normal form. -/
theorem mapError_mapNormal {α β : Type} (query : List Char) (f : α → β)
    (r : Except Mismatch α) :
    (mapNormal f r).mapError (QueryError.ofMismatch (normal query)) =
      (r.mapError (QueryError.ofMismatch query)).map f := by
  cases r with
  | error m =>
    show Except.error (QueryError.malformed (offset (normal query) (normal m.rest)) _) = _
    rw [offset_normal]
    rfl
  | ok a => rfl

theorem checkLength_normal (config : Config) (query : List Char) :
    config.checkLength (normal query) = config.checkLength query := by
  rw [Config.checkLength, Config.checkLength, byteLength_normal]

/-! ## Answers -/

/-- Whether two queries are refused for one reason or both are read, with related results. -/
inductive SameOutcome {α : Type} (related : α → α → Prop) :
    Except QueryError α → Except QueryError α → Prop
  | refused (e : QueryError) : SameOutcome related (.error e) (.error e)
  | read {a b : α} (h : related a b) : SameOutcome related (.ok a) (.ok b)

theorem sameOutcome_of_map {α β : Type} {related : α → α → Prop} {f : α → β}
    (hrelated : ∀ a b, f a = f b → related a b) {r r' : Except QueryError α}
    (h : r.map f = r'.map f) : SameOutcome related r r' := by
  cases r with
  | error e =>
    cases r' with
    | error e' =>
      cases h
      exact .refused e
    | ok b => cases h
  | ok a =>
    cases r' with
    | error e => cases h
    | ok b => exact .read (hrelated a b (Except.ok.inj h))

end Criteria
