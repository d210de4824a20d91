import Criteria.Json.Text
import Criteria.Json.Written

/-!
# Strings in documents

A character stands in a string as itself or as an escape, which is a letter, the number of the
character, or two numbers that are halves of it.  Reading a string undoes any of these.  A string
is written with the first two and with few numbers.
-/

namespace Criteria
namespace Json

/-- A character that stands for itself in a string. -/
structure IsOrdinary (c : Char) : Prop where
  not_quote : c ≠ '\x22'
  not_backslash : c ≠ '\\'
  not_control : isControl c = false

/-- How a character may be spelled in a string. -/
inductive MaySpell (c : Char) : List Char → Prop
  | plain (h : IsOrdinary c) : MaySpell c [c]
  | letter {d : Char} (hd : shortEscape? d = some c) : MaySpell c ['\\', d]
  | number {i j k l : Char} (h : fourHex? i j k l = some c.toNat) :
      MaySpell c ['\\', 'u', i, j, k, l]
  | halves {high low : Nat} {i j k l i' j' k' l' : Char} (hi : fourHex? i j k l = some high)
      (hi' : fourHex? i' j' k' l' = some low) (hhigh : isHighSurrogate high = true)
      (hlow : isLowSurrogate low = true) (hc : pairedChar high low = c) :
      MaySpell c ['\\', 'u', i, j, k, l, '\\', 'u', i', j', k', l']

/-- How a text may be spelled in a string. -/
inductive IsSpelling : List Char → List Char → Prop
  | nil : IsSpelling [] []
  | cons {c : Char} {w cs s : List Char} (hw : MaySpell c w) (h : IsSpelling cs s) :
      IsSpelling (c :: cs) (w ++ s)

/-- How a character is written in a string. -/
inductive Spelled (c : Char) : List Char → Prop
  | plain (h : IsOrdinary c) : Spelled c [c]
  | letter {d : Char} (hd : shortEscape? d = some c) (hu : d ≠ 'u') : Spelled c ['\\', d]
  | control {i j : Char} (hc : isControl c = true) (hi : IsOrdinary i) (hj : IsOrdinary j)
      (h : fourHex? '0' '0' i j = some c.toNat) : Spelled c ['\\', 'u', '0', '0', i, j]

instance (c : Char) : Decidable (IsOrdinary c) :=
  decidable_of_iff (c ≠ '\x22' ∧ c ≠ '\\' ∧ isControl c = false)
    ⟨fun h => ⟨h.1, h.2.1, h.2.2⟩, fun h => ⟨h.not_quote, h.not_backslash, h.not_control⟩⟩

/-- A text that may be spelled as it is. -/
def IsOrdinaryText (cs : List Char) : Prop := ∀ c ∈ cs, IsOrdinary c

instance (cs : List Char) : Decidable (IsOrdinaryText cs) :=
  decidable_of_iff (cs.all (IsOrdinary ·) = true) (by simp [IsOrdinaryText])

/-- Two hexadecimal digits are enough for a control character. -/
theorem hex_control :
    ∀ n < 0x20, IsOrdinary (Nat.digitChar (n / 16)) ∧ IsOrdinary (Nat.digitChar (n % 16)) ∧
      fourHex? '0' '0' (Nat.digitChar (n / 16)) (Nat.digitChar (n % 16)) = some n := by
  decide

theorem escapeLetter?_eq_some {c d : Char} (h : escapeLetter? c = some d) :
    shortEscape? d = some c ∧ d ≠ 'u' := by
  unfold escapeLetter? at h
  split at h
  all_goals first
    | cases h; exact ⟨rfl, by decide⟩
    | cases h

theorem ordinary_of_escapeLetter?_eq_none {c : Char} (h : escapeLetter? c = none)
    (hc : isControl c = false) : IsOrdinary c := by
  refine ⟨?_, ?_, hc⟩
  · intro hq
    rw [hq] at h
    cases h
  · intro hb
    rw [hb] at h
    cases h

theorem spelled_escape (c : Char) : Spelled c (escape c) := by
  unfold escape
  cases h : escapeLetter? c with
  | some d =>
    have hd := escapeLetter?_eq_some h
    exact .letter hd.1 hd.2
  | none =>
    by_cases hc : c.toNat < 0x20
    · obtain ⟨hi, hj, hhex⟩ := hex_control c.toNat hc
      simp only [if_pos hc]
      exact .control (decide_eq_true hc) hi hj hhex
    · simp only [if_neg hc]
      exact .plain (ordinary_of_escapeLetter?_eq_none h (decide_eq_false hc))

theorem Spelled.maySpell {c : Char} {w : List Char} (h : Spelled c w) : MaySpell c w := by
  cases h with
  | plain h => exact .plain h
  | letter hd hu => exact .letter hd
  | control hc hi hj h => exact .number h

/-! ## Reading -/

variable {c : Char} {s cs rest : List Char}

/-- No character has the number of half a pair. -/
theorem not_surrogate (c : Char) :
    isHighSurrogate c.toNat = false ∧ isLowSurrogate c.toNat = false := by
  have hvalid : c.toNat < 0xd800 ∨ 0xdfff < c.toNat ∧ c.toNat < 0x110000 := c.valid
  simp only [isHighSurrogate, isLowSurrogate, Bool.and_eq_false_iff, decide_eq_false_iff_not]
  omega

theorem readHex_of_fourHex {i j k l : Char} {n : Nat} (h : fourHex? i j k l = some n)
    (s : List Char) : readHex (i :: j :: k :: l :: s) = .ok (n, s) := by
  rw [readHex, h]

theorem readUnicodeEscape_number {i j k l : Char} (h : fourHex? i j k l = some c.toNat)
    (s : List Char) : readUnicodeEscape (i :: j :: k :: l :: s) = .ok (c, s) := by
  obtain ⟨hhigh, hlow⟩ := not_surrogate c
  simp [readUnicodeEscape, readHex_of_fourHex h, hhigh, hlow, Char.ofNat_toNat]

theorem readUnicodeEscape_halves {high low : Nat} {i j k l i' j' k' l' : Char}
    (hi : fourHex? i j k l = some high) (hi' : fourHex? i' j' k' l' = some low)
    (hhigh : isHighSurrogate high = true) (hlow : isLowSurrogate low = true) (s : List Char) :
    readUnicodeEscape (i :: j :: k :: l :: '\\' :: 'u' :: i' :: j' :: k' :: l' :: s) =
      .ok (pairedChar high low, s) := by
  have hnotlow : isLowSurrogate high = false := by
    simp only [isHighSurrogate, isLowSurrogate, Bool.and_eq_true, decide_eq_true_eq,
      Bool.and_eq_false_iff, decide_eq_false_iff_not] at *
    omega
  simp [readUnicodeEscape, readHex_of_fourHex hi, hnotlow, hhigh, readLowSurrogate,
    readHex_of_fourHex hi', hlow]

theorem readChars_quote (s : List Char) : readChars ('\x22' :: s) = .ok ([], s) := by
  rw [readChars]
  simp

theorem readChars_backslash {t : List Char}
    (ht : readEscape t = .ok (c, s)) (hs : readChars s = .ok (cs, rest)) :
    readChars ('\\' :: t) = .ok (c :: cs, rest) := by
  rw [readChars, if_neg (by decide), if_pos rfl]
  split
  · rename_i e he
    rw [ht] at he
    cases he
  · rename_i d t' he
    rw [ht] at he
    cases he
    rw [hs]

/-- One character is read from whatever way it is spelled. -/
theorem readChars_maySpell {w : List Char} (hw : MaySpell c w)
    (hs : readChars s = .ok (cs, rest)) : readChars (w ++ s) = .ok (c :: cs, rest) := by
  cases hw with
  | plain h =>
    show readChars (c :: s) = _
    rw [readChars]
    simp [h.not_quote, h.not_backslash, h.not_control, hs]
  | @letter d hd =>
    have hu : d ≠ 'u' := by
      rintro rfl
      cases hd
    have hescape : readEscape (d :: s) = .ok (c, s) := by
      simp [readEscape, hu, hd]
    exact readChars_backslash hescape hs
  | @number i j k l h =>
    have hescape : readEscape ('u' :: i :: j :: k :: l :: s) = .ok (c, s) := by
      rw [readEscape, if_pos rfl, readUnicodeEscape_number h]
    exact readChars_backslash hescape hs
  | @halves high low i j k l i' j' k' l' hi hi' hhigh hlow hc =>
    subst hc
    have hescape : readEscape
        ('u' :: i :: j :: k :: l :: '\\' :: 'u' :: i' :: j' :: k' :: l' :: s) =
          .ok (pairedChar high low, s) := by
      rw [readEscape, if_pos rfl, readUnicodeEscape_halves hi hi' hhigh hlow]
    exact readChars_backslash hescape hs

theorem readChars_spelling (h : IsSpelling cs s) (rest : List Char) :
    readChars (s ++ '\x22' :: rest) = .ok (cs, rest) := by
  induction h with
  | nil => exact readChars_quote rest
  | cons hw _ ih =>
    rw [List.append_assoc]
    exact readChars_maySpell hw ih

theorem readText_spelling {text : String} (h : IsSpelling text.toList s) (rest : List Char) :
    readText (s ++ '\x22' :: rest) = .ok (text, rest) := by
  rw [readText, readChars_spelling h]
  show Except.ok (String.ofList text.toList, rest) = _
  rw [String.ofList_toList]

theorem isSpelling_self {cs : List Char} (h : IsOrdinaryText cs) : IsSpelling cs cs := by
  induction cs with
  | nil => exact .nil
  | cons c cs ih =>
    obtain ⟨hc, hcs⟩ := List.forall_mem_cons.1 h
    exact .cons (.plain hc) (ih hcs)

/-- What is written for a text is one of its spellings. -/
theorem exists_spelling_writeChars (cs rest : List Char) :
    ∃ s, IsSpelling cs s ∧ writeChars cs rest = s ++ rest := by
  induction cs with
  | nil => exact ⟨[], .nil, rfl⟩
  | cons c cs ih =>
    obtain ⟨s, hs, heq⟩ := ih
    refine ⟨escape c ++ s, .cons (spelled_escape c).maySpell hs, ?_⟩
    rw [writeChars, heq, List.append_assoc]

theorem readText_writeChars (text : String) (rest : List Char) :
    readText (writeChars text.toList ('\x22' :: rest)) = .ok (text, rest) := by
  obtain ⟨s, hs, heq⟩ := exists_spelling_writeChars text.toList ('\x22' :: rest)
  rw [heq, readText_spelling hs]

end Json
end Criteria
