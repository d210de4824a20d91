import Criteria.Proofs.Text.Words
import Criteria.Text.Quoted

/-!
# Quoted text in messages

`unescape` reads one character of a quoted text.  It tells each character from its escape, whatever
stands behind that, and no escape begins with a quotation mark, so a quoted text can be told along
with where it ends.
-/

namespace Criteria
namespace Text

variable {c : Char}

/-! ## Characters that are shown -/

/-- Whether a character has a printed form of its own. -/
def isShown (c : Char) : Bool := !(isGraphemeExtend c || isUnprintable c)

theorem any_range_eq_false (ranges : List (Nat × Nat)) {n low : Nat}
    (hlows : ranges.all (fun range => decide (low ≤ range.1)) = true) (h : n < low) :
    ranges.any (fun range => decide (range.1 ≤ n) && decide (n ≤ range.2)) = false := by
  rw [List.any_eq_false]
  intro range hrange
  have hlow := of_decide_eq_true (List.all_eq_true.1 hlows range hrange)
  simp only [Bool.and_eq_true, decide_eq_true_eq]
  omega

theorem isGraphemeExtend_eq_false (h : c.toNat < 0x300) : isGraphemeExtend c = false :=
  any_range_eq_false _ (by decide +kernel) h

/-- Up to the last character of seven bits only the controls are without a printed form. -/
theorem isUnprintable_iff (h : c.toNat < 0x7F) : isUnprintable c = true ↔ c.toNat < 0x20 := by
  have htail := any_range_eq_false unprintableRanges.tail (by decide +kernel) h
  show (unprintableRanges.any fun range => decide (range.1 ≤ c.toNat) && decide (c.toNat ≤ range.2))
    = true ↔ _
  rw [show unprintableRanges = (0x0, 0x1F) :: unprintableRanges.tail from rfl, List.any_cons, htail,
    Bool.or_false, Bool.and_eq_true, decide_eq_true_eq, decide_eq_true_eq]
  omega

theorem isShown_eq_true (hlow : 0x20 ≤ c.toNat) (hhigh : c.toNat < 0x7F) : isShown c = true := by
  have hprintable : ¬ isUnprintable c = true := by
    rw [isUnprintable_iff hhigh]
    omega
  rw [isShown, isGraphemeExtend_eq_false (by omega), Bool.eq_false_iff.2 hprintable]
  rfl

theorem le_toNat_of_isShown (h : isShown c = true) : 0x20 ≤ c.toNat := by
  rw [isShown, Bool.not_eq_true', Bool.or_eq_false_iff] at h
  rcases Nat.lt_or_ge c.toNat 0x20 with hlt | hge
  · rw [(isUnprintable_iff (by omega)).2 hlt] at h
    cases h.2
  · exact hge

/-! ## Hexadecimal digits -/

theorem exists_digitChar {n : Nat} (hc : c ∈ Nat.toDigits 16 n) : ∃ d < 16, c = d.digitChar := by
  induction n using Nat.strongRecOn with
  | ind n ih =>
    rcases Nat.lt_or_ge n 16 with hn | hn
    · rw [Nat.toDigits_of_lt_base hn, List.mem_singleton] at hc
      exact ⟨n, hn, hc⟩
    · rw [Nat.toDigits_of_base_le (by decide) hn, List.mem_append, List.mem_singleton] at hc
      rcases hc with hc | hc
      · exact ih (n / 16) (by omega) hc
      · exact ⟨n % 16, Nat.mod_lt _ (by decide), hc⟩

def hexValue (c : Char) : Nat :=
  if c.isDigit then c.toNat - '0'.toNat else c.toNat - 'a'.toNat + 10

def natOfHex (ds : List Char) : Nat := ds.foldl (fun n c => 16 * n + hexValue c) 0

theorem hexValue_digitChar : ∀ d < 16, hexValue d.digitChar = d := by decide

theorem natOfHex_toDigits (n : Nat) : natOfHex (Nat.toDigits 16 n) = n := by
  induction n using Nat.strongRecOn with
  | ind n ih =>
    rcases Nat.lt_or_ge n 16 with hn | hn
    · rw [Nat.toDigits_of_lt_base hn]
      show 16 * 0 + hexValue n.digitChar = n
      rw [hexValue_digitChar n hn, Nat.mul_zero, Nat.zero_add]
    · rw [Nat.toDigits_of_base_le (by decide) hn, natOfHex, List.foldl_append]
      show 16 * natOfHex (Nat.toDigits 16 (n / 16)) + hexValue (n % 16).digitChar = n
      rw [ih (n / 16) (by omega), hexValue_digitChar _ (Nat.mod_lt _ (by decide)), Nat.div_add_mod]

/-! ## Escapes -/

/-- The character of which the letter behind a backslash makes an escape. -/
def ofEscapeLetter? : Char → Option Char
  | '0' => some '\x00'
  | 't' => some '\t'
  | 'r' => some '\r'
  | 'n' => some '\n'
  | '\\' => some '\\'
  | '\x22' => some '\x22'
  | _ => none

/-- Reads a character that may be escaped. -/
def unescape : List Char → Option (Char × List Char)
  | '\\' :: 'u' :: '\x7b' :: s =>
    some (Char.ofNat (natOfHex (s.takeWhile (· != '\x7d'))), (s.dropWhile (· != '\x7d')).drop 1)
  | '\\' :: l :: s => (ofEscapeLetter? l).map fun c => (c, s)
  | c :: s => some (c, s)
  | [] => none

/-- What stands for a character in a quoted text. -/
inductive IsEscape (c : Char) : List Char → Prop
  | letter {l : Char} (h : ofEscapeLetter? l = some c) : IsEscape c ['\\', l]
  | number : IsEscape c ('\\' :: 'u' :: '\x7b' :: (Nat.toDigits 16 c.toNat ++ ['\x7d']))
  | itself (hbackslash : c ≠ '\\') (hquote : c ≠ '\x22') (hshown : isShown c = true) :
      IsEscape c [c]

theorem isEscape_escapeForMessage (c : Char) : IsEscape c (escapeForMessage c).toList := by
  unfold escapeForMessage
  split
  · exact .letter (by decide)
  · exact .letter (by decide)
  · exact .letter (by decide)
  · exact .letter (by decide)
  · exact .letter (by decide)
  · exact .letter (by decide)
  · rename_i hbackslash hquote
    split
    · simpa [hexDigits] using IsEscape.number (c := c)
    · rename_i hshown
      have hshown : isShown c = true := by rwa [isShown, Bool.not_eq_true', ← Bool.not_eq_true]
      simpa using IsEscape.itself hbackslash hquote hshown

theorem unescape_letter {l : Char} (hl : l ≠ 'u') (s : List Char) :
    unescape ('\\' :: l :: s) = (ofEscapeLetter? l).map fun c => (c, s) := by
  unfold unescape
  split
  · rename_i heq
    cases heq
    exact absurd rfl hl
  · rename_i heq
    cases heq
    rfl
  · rename_i hnone heq
    cases heq
    exact absurd rfl (hnone l s rfl)
  · rename_i heq
    cases heq

theorem unescape_of_ne (hc : c ≠ '\\') (s : List Char) : unescape (c :: s) = some (c, s) := by
  unfold unescape
  split
  · rename_i heq
    cases heq
    exact absurd rfl hc
  · rename_i heq
    cases heq
    exact absurd rfl hc
  · rename_i heq
    cases heq
    rfl
  · rename_i heq
    cases heq

/-- The digits of a number end at the brace. -/
theorem unescape_number (n : Nat) (s : List Char) :
    unescape ('\\' :: 'u' :: '\x7b' :: (Nat.toDigits 16 n ++ '\x7d' :: s)) =
      some (Char.ofNat n, s) := by
  have hdigits : ∀ c ∈ Nat.toDigits 16 n, (c != '\x7d') = true := by
    intro c hc
    obtain ⟨d, hd, rfl⟩ := exists_digitChar hc
    have hall : ∀ d < 16, (d.digitChar != '\x7d') = true := by decide
    exact hall d hd
  have hend : ¬ Begins (· != '\x7d') ('\x7d' :: s) := by simp [Begins]
  rw [unescape, takeWhile_append_exact hdigits hend, dropWhile_append_exact hdigits hend,
    natOfHex_toDigits]
  rfl

/-- A character can be told from its escape. -/
theorem IsEscape.unescape {u : List Char} (h : IsEscape c u) (s : List Char) :
    unescape (u ++ s) = some (c, s) := by
  cases h with
  | @letter l h =>
    have hl : l ≠ 'u' := by
      rintro rfl
      cases h
    exact (unescape_letter hl s).trans (by rw [h]; rfl)
  | number =>
    rw [List.cons_append, List.cons_append, List.cons_append, List.append_assoc]
    exact (unescape_number c.toNat s).trans (by rw [Char.ofNat_toNat])
  | itself hbackslash => exact unescape_of_ne hbackslash s

theorem IsEscape.not_begins {u : List Char} (h : IsEscape c u) (s : List Char) :
    (u ++ s).head? ≠ some '\x22' := by
  cases h with
  | itself hbackslash hquote => simpa using hquote
  | _ => simp

/-! ## Quotes -/

/-- What stands between the quotation marks. -/
def escapes (s : List Char) : List Char := s.flatMap fun c => (escapeForMessage c).toList

theorem escapes_cons (c : Char) (s rest : List Char) :
    escapes (c :: s) ++ rest = (escapeForMessage c).toList ++ (escapes s ++ rest) := by
  rw [escapes, List.flatMap_cons, List.append_assoc]
  rfl

theorem toList_quoteForMessage (s : String) :
    (quoteForMessage s).toList = '\x22' :: escapes s.toList ++ ['\x22'] := by
  simp [quoteForMessage, escapes, List.flatMap_map]

theorem escapes_inj {s t rest rest' : List Char}
    (h : escapes s ++ '\x22' :: rest = escapes t ++ '\x22' :: rest') : s = t ∧ rest = rest' := by
  induction s generalizing t with
  | nil =>
    cases t with
    | nil => exact ⟨rfl, (List.cons.inj h).2⟩
    | cons d t =>
      rw [escapes_cons] at h
      exact absurd (congrArg List.head? h).symm ((isEscape_escapeForMessage d).not_begins _)
  | cons c s ih =>
    rw [escapes_cons] at h
    cases t with
    | nil => exact absurd (congrArg List.head? h) ((isEscape_escapeForMessage c).not_begins _)
    | cons d t =>
      have hread := (isEscape_escapeForMessage c).unescape (escapes s ++ '\x22' :: rest)
      rw [h, escapes_cons, (isEscape_escapeForMessage d).unescape] at hread
      obtain ⟨rfl, htail⟩ := Prod.mk.inj (Option.some.inj hread)
      obtain ⟨rfl, hrest⟩ := ih htail.symm
      exact ⟨rfl, hrest⟩

/-- A quoted text can be told from what stands behind it. -/
theorem quoteForMessage_append_inj {s t rest rest' : String}
    (h : quoteForMessage s ++ rest = quoteForMessage t ++ rest') : s = t ∧ rest = rest' := by
  have hlist := congrArg String.toList h
  rw [String.toList_append, String.toList_append, toList_quoteForMessage, toList_quoteForMessage,
    List.append_assoc, List.append_assoc] at hlist
  obtain ⟨hs, hrest⟩ := escapes_inj (List.cons.inj hlist).2
  exact ⟨String.toList_inj.1 hs, String.toList_inj.1 hrest⟩

theorem quoteForMessage_injective : Function.Injective quoteForMessage := by
  intro s t h
  exact (quoteForMessage_append_inj (congrArg (· ++ "") h)).1

/-! ## What is shown -/

theorem isShown_of_ofEscapeLetter? {l : Char} (h : ofEscapeLetter? l = some c) :
    isShown l = true := by
  unfold ofEscapeLetter? at h
  split at h
  · exact isShown_eq_true (by decide) (by decide)
  · exact isShown_eq_true (by decide) (by decide)
  · exact isShown_eq_true (by decide) (by decide)
  · exact isShown_eq_true (by decide) (by decide)
  · exact isShown_eq_true (by decide) (by decide)
  · exact isShown_eq_true (by decide) (by decide)
  · cases h

theorem isShown_of_mem_toDigits {n : Nat} {d : Char} (hd : d ∈ Nat.toDigits 16 n) :
    isShown d = true := by
  obtain ⟨k, hk, rfl⟩ := exists_digitChar hd
  have hplain : ∀ k < 16, 0x20 ≤ k.digitChar.toNat ∧ k.digitChar.toNat < 0x7F := by decide
  exact isShown_eq_true (hplain k hk).1 (hplain k hk).2

theorem IsEscape.isShown {u : List Char} (h : IsEscape c u) : ∀ d ∈ u, isShown d = true := by
  have hbackslash : Text.isShown '\\' = true := isShown_eq_true (by decide) (by decide)
  cases h with
  | letter h => simp [hbackslash, isShown_of_ofEscapeLetter? h]
  | number =>
    have hu : Text.isShown 'u' = true := isShown_eq_true (by decide) (by decide)
    have hopening : Text.isShown '\x7b' = true := isShown_eq_true (by decide) (by decide)
    have hclosing : Text.isShown '\x7d' = true := isShown_eq_true (by decide) (by decide)
    intro d hd
    simp only [List.mem_cons, List.mem_append, List.not_mem_nil, or_false] at hd
    rcases hd with rfl | rfl | rfl | hd | rfl
    · exact hbackslash
    · exact hu
    · exact hopening
    · exact isShown_of_mem_toDigits hd
    · exact hclosing
  | itself _ _ hshown => simpa using hshown

/-- A message holds nothing that cannot be shown. -/
theorem isShown_of_mem_quoteForMessage {s : String} (hc : c ∈ (quoteForMessage s).toList) :
    isShown c = true := by
  have hquote : isShown '\x22' = true := isShown_eq_true (by decide) (by decide)
  rw [toList_quoteForMessage, escapes, List.cons_append, List.mem_cons, List.mem_append,
    List.mem_flatMap, List.mem_singleton] at hc
  rcases hc with rfl | ⟨d, -, hd⟩ | rfl
  · exact hquote
  · exact (isEscape_escapeForMessage d).isShown c hd
  · exact hquote

example : quoteForMessage "a\u0301\"\n" = "\"a\\u\x7b301\x7d\\\"\\n\"" := by decide +kernel

theorem escapeForMessage_of_isShown (hshown : isShown c = true) (hbackslash : c ≠ '\\')
    (hquote : c ≠ '\x22') : escapeForMessage c = c.toString := by
  have hle := le_toNat_of_isShown hshown
  unfold escapeForMessage
  split
  · exact absurd hle (by decide)
  · exact absurd hle (by decide)
  · exact absurd hle (by decide)
  · exact absurd hle (by decide)
  · exact absurd rfl hbackslash
  · exact absurd rfl hquote
  · rw [isShown, Bool.not_eq_true'] at hshown
    rw [hshown]
    rfl

/-- A text that needs no escapes is quoted as it stands. -/
theorem quoteForMessage_of_isShown {s : String}
    (h : ∀ c ∈ s.toList, isShown c = true ∧ c ≠ '\\' ∧ c ≠ '\x22') :
    quoteForMessage s = "\"" ++ s ++ "\"" := by
  have hescapes : s.toList.map (fun c => (escapeForMessage c).toList) =
      s.toList.map fun c => [c] := by
    refine List.map_congr_left fun c hc => ?_
    obtain ⟨hshown, hbackslash, hquote⟩ := h c hc
    rw [escapeForMessage_of_isShown hshown hbackslash hquote]
    exact String.toList_singleton c
  rw [← String.toList_inj, toList_quoteForMessage, escapes, List.flatMap_def, hescapes,
    ← List.flatMap_def, List.flatMap_singleton']
  simp

end Text
end Criteria
