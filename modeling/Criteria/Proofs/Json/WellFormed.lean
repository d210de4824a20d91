import Criteria.Proofs.Json.Carrying

/-!
# Well-formed values

The values that a document may have, said as a grammar of their texts.  Between any two tokens
there may be white space.  Numbers may be of any size, escapes in strings need not pair up, and
brackets may be nested to any depth.  Passing over a value takes the text of exactly one such
value, whatever brackets are open around it.
-/

namespace Criteria
namespace Json

open Text

/-! ## Grammar -/

/-- A character in a string, or an escape of any kind. -/
inductive IsCharText : List Char → Prop
  | plain {c : Char} (h : IsOrdinary c) : IsCharText [c]
  | letter {c d : Char} (h : shortEscape? d = some c) : IsCharText ['\\', d]
  | number {i j k l : Char} {n : Nat} (h : fourHex? i j k l = some n) :
      IsCharText ['\\', 'u', i, j, k, l]

/-- What stands between the quotes of a string. -/
inductive IsText : List Char → Prop
  | nil : IsText []
  | cons {w s : List Char} (hw : IsCharText w) (h : IsText s) : IsText (w ++ s)

inductive IsScalar : List Char → Prop
  | nullWord : IsScalar ['n', 'u', 'l', 'l']
  | trueWord : IsScalar ['t', 'r', 'u', 'e']
  | falseWord : IsScalar ['f', 'a', 'l', 's', 'e']
  | text {s : List Char} (h : IsText s) : IsScalar ('\x22' :: (s ++ ['\x22']))
  | number {n : Spelling} {s : List Char} (h : IsNumber n s) : IsScalar s

def Bracket.opening : Bracket → Char
  | list => '['
  | object => '\x7b'

/-- What stands in front of the value of an item. -/
inductive IsLabel : Bracket → List Char → Prop
  | list : IsLabel .list []
  | object {a key b : List Char} (ha : IsSpace a) (hkey : IsText key) (hb : IsSpace b) :
      IsLabel .object (a ++ '\x22' :: (key ++ '\x22' :: (b ++ [':'])))

/-- The pieces of a document: whole values, and the items between two brackets. -/
inductive Piece
  | value
  | items (bracket : Bracket)

inductive IsPiece : Piece → List Char → Prop
  | scalar {s : List Char} (h : IsScalar s) : IsPiece .value s
  | empty {bracket : Bracket} {a : List Char} (ha : IsSpace a) :
      IsPiece .value (bracket.opening :: (a ++ [bracket.closing]))
  | filled {bracket : Bracket} {s : List Char} (h : IsPiece (.items bracket) s) :
      IsPiece .value (bracket.opening :: (s ++ [bracket.closing]))
  | last {bracket : Bracket} {label a v b : List Char} (hlabel : IsLabel bracket label)
      (ha : IsSpace a) (hv : IsPiece .value v) (hb : IsSpace b) :
      IsPiece (.items bracket) (label ++ (a ++ (v ++ b)))
  | more {bracket : Bracket} {label a v b s : List Char} (hlabel : IsLabel bracket label)
      (ha : IsSpace a) (hv : IsPiece .value v) (hb : IsSpace b)
      (h : IsPiece (.items bracket) s) :
      IsPiece (.items bracket) (label ++ (a ++ (v ++ (b ++ ',' :: s))))

/-- Whether a text is one well-formed value. -/
abbrev IsValue (s : List Char) : Prop := IsPiece .value s

/-! ## Strings and numbers -/

variable {s t rest : List Char} {c : Char}

theorem skipChars_backslash (h : skipEscape t = .ok s) :
    skipChars ('\\' :: t) = skipChars s := by
  rw [skipChars, if_neg (by decide), if_pos rfl]
  split
  · rename_i e he
    rw [h] at he
    cases he
  · rename_i t' ht
    rw [h] at ht
    cases ht
    rfl

theorem skipChars_charText (h : IsCharText t) (s : List Char) :
    skipChars (t ++ s) = skipChars s := by
  cases h with
  | @plain c h =>
    show skipChars (c :: s) = _
    rw [skipChars]
    simp [h.not_quote, h.not_backslash, h.not_control]
  | @letter c d h =>
    have hu : d ≠ 'u' := by
      rintro rfl
      cases h
    have hescape : skipEscape (d :: s) = .ok s := by
      simp [skipEscape, hu, h]
    exact skipChars_backslash hescape
  | @number i j k l n h =>
    have hescape : skipEscape ('u' :: i :: j :: k :: l :: s) = .ok s := by
      rw [skipEscape, if_pos rfl, readHex_of_fourHex h]
      rfl
    exact skipChars_backslash hescape

theorem skipChars_append (h : IsText s) (rest : List Char) :
    skipChars (s ++ '\x22' :: rest) = .ok rest := by
  induction h with
  | nil =>
    show skipChars ('\x22' :: rest) = _
    rw [skipChars]
    simp
  | cons hw _ ih => rw [List.append_assoc, skipChars_charText hw, ih]

theorem skipNumber_append {n : Spelling} (h : IsNumber n s)
    (hrest : ¬ Begins continuesNumber rest) : skipNumber (s ++ rest) = .ok rest := by
  rw [skipNumber, scanNumber_append h hrest]
  rfl

/-! ## Scalars -/

/-- Whether a number starts with a character. -/
def startsNumber (c : Char) : Bool := c == '-' || c.isDigit

theorem IsNumber.begins {n : Spelling} (h : IsNumber n s) : Begins startsNumber s := by
  cases h with
  | positive h =>
    have hdigit := h.begins
    cases s with
    | nil => exact hdigit
    | cons c s =>
      have hc : c.isDigit = true := hdigit
      rw [begins_cons, startsNumber, hc, Bool.or_true]
  | negative h => rfl

theorem ne_of_startsNumber {d : Char} (hd : startsNumber d = false)
    (hc : startsNumber c = true) : c ≠ d := by
  rintro rfl
  rw [hd] at hc
  cases hc

theorem skipScalar_of_startsNumber (hc : startsNumber c = true) (s : List Char) :
    skipScalar (c :: s) = skipNumber (c :: s) := by
  have hnumber : c = '-' ∨ c.isDigit = true := by simpa [startsNumber] using hc
  rw [skipScalar, if_neg (ne_of_startsNumber (by decide) hc),
    if_neg (ne_of_startsNumber (by decide) hc), if_neg (ne_of_startsNumber (by decide) hc),
    if_neg (ne_of_startsNumber (by decide) hc), if_pos hnumber]

theorem skipScalar_append (h : IsScalar s) (hrest : ¬ Begins continuesNumber rest) :
    skipScalar (s ++ rest) = .ok rest := by
  cases h with
  | nullWord => rfl
  | trueWord => rfl
  | falseWord => rfl
  | @text s h =>
    show skipScalar ('\x22' :: (s ++ ['\x22'] ++ rest)) = _
    rw [List.append_assoc]
    exact skipChars_append h rest
  | number h =>
    have hread := skipNumber_append h hrest
    have hbegins := h.begins
    cases s with
    | nil => exact absurd hbegins (not_begins_nil _)
    | cons c s => exact (skipScalar_of_startsNumber hbegins _).trans hread

/-- Whether a scalar may start with a character. -/
def startsScalar (c : Char) : Bool := startsValue c && (Bracket.ofChar? c).isNone

theorem startsScalar_of_startsNumber (hc : startsNumber c = true) : startsScalar c = true := by
  have hspace := isWhitespace_eq_false (p := startsNumber) (by decide) hc
  simp [startsScalar, startsValue, Bracket.ofChar?, hspace, ne_of_startsNumber (d := ']') rfl hc,
    ne_of_startsNumber (d := '[') rfl hc, ne_of_startsNumber (d := '\x7b') rfl hc]

theorem IsScalar.exists_cons (h : IsScalar s) : ∃ c t, s = c :: t ∧ startsScalar c = true := by
  cases h with
  | nullWord => exact ⟨_, _, rfl, rfl⟩
  | trueWord => exact ⟨_, _, rfl, rfl⟩
  | falseWord => exact ⟨_, _, rfl, rfl⟩
  | text h => exact ⟨_, _, rfl, rfl⟩
  | number h =>
    have hbegins := h.begins
    cases s with
    | nil => exact absurd hbegins (not_begins_nil _)
    | cons c s => exact ⟨c, s, rfl, startsScalar_of_startsNumber hbegins⟩

/-! ## Labels -/

theorem colon_append {a : List Char} (ha : IsSpace a) (s : List Char) :
    colon (a ++ ':' :: s) = .ok s := by
  rw [colon, skipSpace_append ha]
  rfl

theorem skipLabel_append {bracket : Bracket} {label : List Char} (h : IsLabel bracket label)
    (s : List Char) : skipLabel bracket (label ++ s) = .ok s := by
  cases h with
  | list => rfl
  | @object a key b ha hkey hb =>
    have hkeyread := skipChars_append hkey (b ++ ':' :: s)
    simp only [List.append_assoc, List.cons_append, List.nil_append]
    rw [skipLabel, skipSpace_append ha]
    show (skipChars (key ++ '\x22' :: (b ++ ':' :: s)) >>= colon) = _
    rw [hkeyread]
    exact colon_append hb s

/-! ## Whole values -/

variable {bracket : Bracket} {opened : List Bracket} {d : Char} {u : List Char}

theorem skipValue_of_scalar (hs : skipSpace s = c :: t) (hc : Bracket.ofChar? c = none)
    (h : skipScalar (c :: t) = .ok rest) : skipValue opened s = skipRest opened rest := by
  rw [skipValue]
  split
  · rename_i heq
    rw [hs] at heq
    cases heq
  · rename_i heq
    rw [hs] at heq
    cases heq
    rw [hc]
    dsimp only
    split
    · rename_i he
      rw [h] at he
      cases he
    · rename_i hr
      rw [h] at hr
      cases hr
      rfl

/-- Behind an opening bracket stands the closing one, or the first item. -/
theorem skipValue_of_bracket (hs : skipSpace s = c :: t) (hc : Bracket.ofChar? c = some bracket)
    (ht : skipSpace t = d :: u) :
    skipValue opened s =
      if d = bracket.closing then skipRest opened u
      else skipLabel bracket (d :: u) >>= skipValue (bracket :: opened) := by
  rw [skipValue]
  split
  · rename_i heq
    rw [hs] at heq
    cases heq
  · rename_i heq
    rw [hs] at heq
    cases heq
    rw [hc]
    dsimp only
    split
    · rename_i heq
      rw [ht] at heq
      cases heq
    · rename_i heq
      rw [ht] at heq
      cases heq
      split
      · rfl
      · cases skipLabel bracket (d :: u) <;> rfl

theorem skipRest_of_comma (hs : skipSpace s = ',' :: t) :
    skipRest (bracket :: opened) s = skipLabel bracket t >>= skipValue (bracket :: opened) := by
  rw [skipRest.eq_def]
  dsimp only
  split
  · rename_i heq
    rw [hs] at heq
    cases heq
  · rename_i heq
    rw [hs] at heq
    cases heq
    rw [if_pos rfl]
    cases skipLabel bracket t <;> rfl

theorem skipRest_of_closing (hs : skipSpace s = bracket.closing :: t) :
    skipRest (bracket :: opened) s = skipRest opened t := by
  rw [skipRest.eq_def]
  dsimp only
  split
  · rename_i heq
    rw [hs] at heq
    cases heq
  · rename_i heq
    rw [hs] at heq
    cases heq
    rw [if_neg (by cases bracket <;> decide), if_pos rfl]

/-! ## One value at a time -/

theorem IsPiece.begins {v : List Char} (h : IsPiece .value v) : Begins startsValue v := by
  cases h with
  | scalar h =>
    obtain ⟨c, t, rfl, hc⟩ := h.exists_cons
    rw [startsScalar, Bool.and_eq_true] at hc
    exact hc.1
  | @empty bracket a ha => cases bracket <;> rfl
  | @filled bracket s h => cases bracket <;> rfl

/-- Passes over an item and what follows it inside the open brackets. -/
def skipItem (bracket : Bracket) (opened : List Bracket) (s : List Char) :
    Except Fault (List Char) := skipLabel bracket s >>= skipValue (bracket :: opened)

/-- What it is to pass over a piece.  Items are reached from behind a comma or from behind the
opening bracket, where white space has been skipped and something else than the closing bracket
has been seen. -/
def Passes : Piece → List Char → Prop
  | .value, v => ∀ opened a rest, IsSpace a → ¬ Begins continuesNumber rest →
      skipValue opened (a ++ (v ++ rest)) = skipRest opened rest
  | .items bracket, s => ∀ opened rest,
      skipItem bracket opened (s ++ bracket.closing :: rest) = skipRest opened rest ∧
      ∃ d u, skipSpace (s ++ bracket.closing :: rest) = d :: u ∧ d ≠ bracket.closing ∧
        skipItem bracket opened (d :: u) = skipRest opened rest

section

variable {label a v x : List Char}

theorem skipItem_append (hlabel : IsLabel bracket label) (ha : IsSpace a)
    (hv : Passes .value v) (hx : ¬ Begins continuesNumber x) :
    skipItem bracket opened (label ++ (a ++ (v ++ x))) = skipRest (bracket :: opened) x := by
  rw [skipItem, skipLabel_append hlabel]
  exact hv (bracket :: opened) a x ha hx

/-- White space in front of an item is of no account. -/
theorem skipSpace_item (hlabel : IsLabel bracket label) (ha : IsSpace a)
    (hv : Begins startsValue v) (x : List Char) :
    ∃ label' a' d u, IsLabel bracket label' ∧ IsSpace a' ∧
      skipSpace (label ++ (a ++ (v ++ x))) = d :: u ∧ d ≠ bracket.closing ∧
      d :: u = label' ++ (a' ++ (v ++ x)) := by
  cases hlabel with
  | list =>
    have hskip : skipSpace (a ++ (v ++ x)) = v ++ x := by
      rw [skipSpace_append ha, skipSpace_of_startsValue (hv.append x)]
    cases v with
    | nil => exact absurd hv (not_begins_nil _)
    | cons d v =>
      refine ⟨[], [], d, v ++ x, .list, isSpace_nil, hskip, ?_, rfl⟩
      rintro rfl
      exact Bool.false_ne_true hv
  | @object front key b hfront hkey hb =>
    refine ⟨_, a, '\x22', _, .object isSpace_nil hkey hb, ha, ?_, by decide, rfl⟩
    rw [List.append_assoc, skipSpace_append hfront]
    rfl

theorem passes_item (hlabel : IsLabel bracket label) (ha : IsSpace a) (hv : Passes .value v)
    (hbegins : Begins startsValue v) (hx : ¬ Begins continuesNumber x)
    (h : skipRest (bracket :: opened) x = skipRest opened rest) :
    skipItem bracket opened (label ++ (a ++ (v ++ x))) = skipRest opened rest ∧
    ∃ d u, skipSpace (label ++ (a ++ (v ++ x))) = d :: u ∧ d ≠ bracket.closing ∧
      skipItem bracket opened (d :: u) = skipRest opened rest := by
  obtain ⟨label', a', d, u, hlabel', ha', hskip, hd, heq⟩ := skipSpace_item hlabel ha hbegins x
  refine ⟨(skipItem_append hlabel ha hv hx).trans h, d, u, hskip, hd, ?_⟩
  rw [heq]
  exact (skipItem_append hlabel' ha' hv hx).trans h

end

theorem IsSpace.not_continuesNumber {a : List Char} (ha : IsSpace a)
    (h : ¬ Begins continuesNumber s) : ¬ Begins continuesNumber (a ++ s) := by
  refine ha.not_begins_append (fun c hc => ?_) h
  exact disjoint_symm (fun d => isWhitespace_eq_false (by decide)) c hc

theorem Bracket.skipSpace_opening (bracket : Bracket) (s : List Char) :
    skipSpace (bracket.opening :: s) = bracket.opening :: s := by
  cases bracket <;> rfl

theorem Bracket.ofChar?_opening (bracket : Bracket) :
    ofChar? bracket.opening = some bracket := by
  cases bracket <;> rfl

theorem Bracket.skipSpace_closing (bracket : Bracket) (s : List Char) :
    skipSpace (bracket.closing :: s) = bracket.closing :: s := by
  cases bracket <;> rfl

theorem Bracket.not_continuesNumber (bracket : Bracket) (s : List Char) :
    ¬ Begins continuesNumber (bracket.closing :: s) := by
  cases bracket <;> exact Bool.false_ne_true

theorem IsPiece.passes {piece : Piece} (h : IsPiece piece s) : Passes piece s := by
  induction h with
  | @scalar s h =>
    intro opened a rest ha hrest
    obtain ⟨c, t, rfl, hc⟩ := h.exists_cons
    simp only [startsScalar, Bool.and_eq_true, Option.isNone_iff_eq_none] at hc
    obtain ⟨hvalue, hnone⟩ := hc
    have hskip : skipSpace (a ++ (c :: t ++ rest)) = c :: (t ++ rest) := by
      rw [skipSpace_append ha]
      exact skipSpace_of_startsValue hvalue
    exact skipValue_of_scalar hskip hnone (skipScalar_append h hrest)
  | @empty bracket b hb =>
    intro opened a rest ha hrest
    have hskip : skipSpace (a ++ (bracket.opening :: (b ++ [bracket.closing]) ++ rest)) =
        bracket.opening :: (b ++ bracket.closing :: rest) := by
      rw [skipSpace_append ha, List.cons_append, bracket.skipSpace_opening, List.append_assoc,
        List.singleton_append]
    have hinside : skipSpace (b ++ bracket.closing :: rest) = bracket.closing :: rest := by
      rw [skipSpace_append hb, bracket.skipSpace_closing]
    rw [skipValue_of_bracket hskip bracket.ofChar?_opening hinside, if_pos rfl]
  | @filled bracket s h ih =>
    intro opened a rest ha hrest
    obtain ⟨-, d, u, hinside, hd, hitem⟩ := ih opened rest
    have hskip : skipSpace (a ++ (bracket.opening :: (s ++ [bracket.closing]) ++ rest)) =
        bracket.opening :: (s ++ bracket.closing :: rest) := by
      rw [skipSpace_append ha, List.cons_append, bracket.skipSpace_opening, List.append_assoc,
        List.singleton_append]
    rw [skipValue_of_bracket hskip bracket.ofChar?_opening hinside, if_neg hd]
    exact hitem
  | @last bracket label a v b hlabel ha hv hb ih =>
    intro opened rest
    have hend := IsSpace.not_continuesNumber hb (bracket.not_continuesNumber rest)
    have hskip : skipSpace (b ++ bracket.closing :: rest) = bracket.closing :: rest := by
      rw [skipSpace_append hb, bracket.skipSpace_closing]
    have hclosing : skipRest (bracket :: opened) (b ++ bracket.closing :: rest) =
        skipRest opened rest := skipRest_of_closing hskip
    have hitem := passes_item hlabel ha ih hv.begins hend hclosing
    simpa only [List.append_assoc] using hitem
  | @more bracket label a v b s hlabel ha hv hb h ih ihs =>
    intro opened rest
    have hcomma : ¬ Begins continuesNumber (',' :: (s ++ bracket.closing :: rest)) :=
      Bool.false_ne_true
    have hskip : skipSpace (b ++ ',' :: (s ++ bracket.closing :: rest)) =
        ',' :: (s ++ bracket.closing :: rest) := by
      rw [skipSpace_append hb]
      rfl
    have hitem := passes_item hlabel ha ih hv.begins (IsSpace.not_continuesNumber hb hcomma)
      ((skipRest_of_comma hskip).trans (ihs opened rest).1)
    simpa only [List.append_assoc, List.cons_append] using hitem

/-- Exactly the one value is passed over. -/
theorem skipValue_append {a v : List Char} (hv : IsValue v) (ha : IsSpace a)
    (hrest : ¬ Begins continuesNumber rest) : skipValue [] (a ++ (v ++ rest)) = .ok rest := by
  rw [IsPiece.passes hv [] a rest ha hrest, skipRest]

end Json
end Criteria
