import Criteria.Json.Reader
import Criteria.Json.Written
import Criteria.Proofs.Text.Words

/-!
# Numbers in documents

A number is a sign, a whole part, places and an exponent, of which only the whole part must be
there.  It is read to its end if what stands behind it does not go on with it.  Numbers of 64 bits
are written in decimal, and read back.
-/

namespace Criteria
namespace Json

open Text

/-- What may follow a value inside a document, or at its end. -/
def Delimited (s : List Char) : Prop := ∀ c ∈ s.head?, c ∈ [',', ']', '\x7d']

theorem delimited_nil : Delimited [] := by
  intro c hc
  cases hc

theorem delimited_cons {c : Char} {s : List Char} (h : c ∈ [',', ']', '\x7d']) :
    Delimited (c :: s) := by
  intro d hd
  cases hd
  exact h

theorem Delimited.not_begins {s : List Char} (h : Delimited s) {p : Char → Bool}
    (hp : [',', ']', '\x7d'].any p = false) : ¬ Begins p s := by
  cases s with
  | nil => exact not_begins_nil p
  | cons c s => exact List.any_eq_false.1 hp c (h c rfl)

/-! ## The parts of a number -/

/-- One or more digits. -/
def IsDigits (s : List Char) : Prop := s ≠ [] ∧ ∀ c ∈ s, c.isDigit = true

instance (s : List Char) : Decidable (IsDigits s) :=
  decidable_of_iff (s ≠ [] ∧ s.all Char.isDigit = true) (and_congr_right' List.all_eq_true)

/-- Digits of which the first is a zero only if it is the only one. -/
def IsWhole (s : List Char) : Prop := IsDigits s ∧ ∀ c t, s ≠ '0' :: c :: t

/-- The digits of places and how these are spelled. -/
inductive IsPlaces : List Char → List Char → Prop
  | none : IsPlaces [] []
  | some {ds : List Char} (h : IsDigits ds) : IsPlaces ds ('.' :: ds)

/-- Whether a sign is negative and how it is spelled in front of an exponent. -/
inductive IsSign : Bool → List Char → Prop
  | none : IsSign false []
  | plus : IsSign false ['+']
  | minus : IsSign true ['-']

inductive IsExponent : Option (Bool × List Char) → List Char → Prop
  | none : IsExponent none []
  | some {e : Char} {negative : Bool} {sign ds : List Char} (he : e = 'e' ∨ e = 'E')
      (hsign : IsSign negative sign) (h : IsDigits ds) :
      IsExponent (some (negative, ds)) (e :: (sign ++ ds))

/-- A number behind its sign. -/
inductive IsUnsigned (negative : Bool) : Spelling → List Char → Prop
  | mk {whole ds places exponent : List Char} {x : Option (Bool × List Char)}
      (hwhole : IsWhole whole) (hplaces : IsPlaces ds places) (hexponent : IsExponent x exponent) :
      IsUnsigned negative ⟨negative, whole, ds, x⟩ (whole ++ (places ++ exponent))

inductive IsNumber : Spelling → List Char → Prop
  | positive {n : Spelling} {s : List Char} (h : IsUnsigned false n s) : IsNumber n s
  | negative {n : Spelling} {s : List Char} (h : IsUnsigned true n s) : IsNumber n ('-' :: s)

/-! ## Where a number ends -/

/-- Whether places may go on with a character, or start with it. -/
def continuesPlaces (c : Char) : Bool := c.isDigit || c == '.'

/-- Whether a number may go on with a character. -/
def continuesNumber (c : Char) : Bool := continuesPlaces c || c == 'e' || c == 'E'

variable {ds s rest : List Char} {n : Spelling} {negative : Bool}

theorem IsDigits.begins (h : IsDigits ds) : Begins Char.isDigit ds := begins_of_forall h.1 h.2

theorem IsUnsigned.negative_eq (h : IsUnsigned negative n s) : n.negative = negative := by
  cases h
  rfl

theorem IsUnsigned.begins (h : IsUnsigned negative n s) : Begins Char.isDigit s := by
  cases h with
  | mk hwhole => exact hwhole.1.begins.append _

theorem not_continuesPlaces (h : ¬ Begins continuesNumber s) : ¬ Begins continuesPlaces s :=
  not_begins_mono (fun c hc => by simp [continuesNumber, hc]) h

theorem not_digit (h : ¬ Begins continuesPlaces s) : ¬ Begins Char.isDigit s :=
  not_begins_mono (fun c hc => by simp [continuesPlaces, hc]) h

theorem Delimited.not_continuesNumber (h : Delimited s) : ¬ Begins continuesNumber s :=
  h.not_begins (by decide)

theorem IsExponent.not_continuesPlaces {x : Option (Bool × List Char)} (h : IsExponent x s)
    (hrest : ¬ Begins continuesNumber rest) : ¬ Begins continuesPlaces (s ++ rest) := by
  cases h with
  | none => exact Json.not_continuesPlaces hrest
  | some he hsign h => rcases he with rfl | rfl <;> exact Bool.false_ne_true

theorem IsPlaces.not_digit (h : IsPlaces ds s) (hrest : ¬ Begins continuesPlaces rest) :
    ¬ Begins Char.isDigit (s ++ rest) := by
  cases h with
  | none => exact Json.not_digit hrest
  | some h => exact Bool.false_ne_true

/-! ## Scanning -/

theorem readDigits_append (hds : IsDigits ds) (hrest : ¬ Begins Char.isDigit rest)
    (atEnd : Fault) : readDigits atEnd (ds ++ rest) = .ok (ds, rest) := by
  rw [readDigits, takeWhile_append_exact hds.2 hrest, dropWhile_append_exact hds.2 hrest]
  cases ds with
  | nil => exact absurd rfl hds.1
  | cons d ds => rfl

theorem readWhole_append (hds : IsWhole ds) (hrest : ¬ Begins Char.isDigit rest)
    (atEnd : Fault) : readWhole atEnd (ds ++ rest) = .ok (ds, rest) := by
  simp only [readWhole, readDigits_append hds.1 hrest, bind, Except.bind]
  split
  · exact absurd rfl (hds.2 _ _)
  · rfl

theorem readPlaces_append (h : IsPlaces ds s) (hrest : ¬ Begins continuesPlaces rest)
    (atEnd : Fault) : readPlaces atEnd (s ++ rest) = .ok (ds, rest) := by
  cases h with
  | none =>
    show readPlaces atEnd rest = _
    unfold readPlaces
    split
    · exact absurd rfl hrest
    · rfl
  | some h => exact readDigits_append h (Json.not_digit hrest) atEnd

theorem readSign_append {sign : List Char} (hsign : IsSign negative sign) (hds : IsDigits ds) :
    readSign (sign ++ (ds ++ rest)) = (negative, ds ++ rest) := by
  cases hsign with
  | none =>
    have hbegins := hds.begins.append rest
    show readSign (ds ++ rest) = _
    unfold readSign
    split
    · rename_i h
      rw [h] at hbegins
      exact absurd hbegins Bool.false_ne_true
    · rename_i h
      rw [h] at hbegins
      exact absurd hbegins Bool.false_ne_true
    · rfl
  | plus => rfl
  | minus => rfl

theorem readExponent_append {x : Option (Bool × List Char)} (h : IsExponent x s)
    (hrest : ¬ Begins continuesNumber rest) (atEnd : Fault) :
    readExponent atEnd (s ++ rest) = .ok (x, rest) := by
  cases h with
  | none =>
    cases rest with
    | nil => rfl
    | cons c rest =>
      have hc : ¬ (c = 'e' ∨ c = 'E') := by
        rintro (rfl | rfl) <;> exact hrest rfl
      rw [List.nil_append, readExponent, if_neg hc]
  | @some e negative sign ds he hsign hds =>
    have hread := readDigits_append hds (Json.not_digit (not_continuesPlaces hrest)) atEnd
    rw [List.cons_append, List.append_assoc, readExponent, if_pos he, readSign_append hsign hds]
    show (readDigits atEnd (ds ++ rest) >>= _) = _
    rw [hread]
    rfl

theorem scanUnsigned_append (h : IsUnsigned negative n s) (hrest : ¬ Begins continuesNumber rest)
    (atEnd : Fault) : scanUnsigned atEnd negative (s ++ rest) = .ok (n, rest) := by
  cases h with
  | mk hwhole hplaces hexponent =>
    have hbehind := hexponent.not_continuesPlaces hrest
    rw [List.append_assoc, List.append_assoc]
    simp only [scanUnsigned, readWhole_append hwhole (hplaces.not_digit hbehind),
      readPlaces_append hplaces hbehind, readExponent_append hexponent hrest, bind, Except.bind]

theorem scanNumber_append (h : IsNumber n s) (hrest : ¬ Begins continuesNumber rest)
    (atEnd : Fault) : scanNumber atEnd (s ++ rest) = .ok (n, rest) := by
  cases h with
  | positive h =>
    have hbegins := h.begins.append rest
    unfold scanNumber
    split
    · rename_i t ht
      rw [ht] at hbegins
      exact absurd hbegins Bool.false_ne_true
    · exact scanUnsigned_append h hrest atEnd
  | negative h => exact scanUnsigned_append h hrest atEnd

/-- A text is spelled in one way at most. -/
theorem IsNumber.unique {m : Spelling} (hm : IsNumber m s) (hn : IsNumber n s) : m = n := by
  have hread := scanNumber_append hm (not_begins_nil _) (.ended .value)
  rw [scanNumber_append hn (not_begins_nil _)] at hread
  cases hread
  rfl

/-! ## Decimal digits -/

theorem natOfDigits_toDigits (n : Nat) : natOfDigits (Nat.toDigits 10 n) = n :=
  Nat.ofDigitChars_ten_toDigits

/-- A number of several digits does not begin with a zero. -/
theorem toDigits_ne_zero_cons (n : Nat) (c : Char) (s : List Char) :
    Nat.toDigits 10 n ≠ '0' :: c :: s := by
  induction n using Nat.strongRecOn generalizing c s with
  | ind n ih =>
    intro h
    rcases Nat.lt_or_ge n 10 with hn | hn
    · rw [Nat.toDigits_of_lt_base hn] at h
      exact absurd (List.cons.inj h).2 (List.cons_ne_nil c s).symm
    · rw [Nat.toDigits_of_base_le (by decide) hn] at h
      have hvalue := natOfDigits_toDigits (n / 10)
      have hlt := ih (n / 10) (by omega)
      cases hds : Nat.toDigits 10 (n / 10) with
      | nil => exact Nat.toDigits_ne_nil hds
      | cons d ds =>
        rw [hds] at h hlt hvalue
        obtain ⟨rfl, -⟩ := List.cons.inj h
        cases ds with
        | nil =>
          have hzero : n / 10 = 0 := hvalue.symm
          omega
        | cons d ds => exact hlt d ds rfl

theorem isDigit_of_mem_toDigits {n : Nat} : ∀ c ∈ Nat.toDigits 10 n, c.isDigit = true :=
  fun _ hc => Nat.isDigit_of_mem_toDigits (by decide) (by decide) hc

theorem isDigits_toDigits (n : Nat) : IsDigits (Nat.toDigits 10 n) :=
  ⟨Nat.toDigits_ne_nil, isDigit_of_mem_toDigits⟩

theorem isWhole_toDigits (n : Nat) : IsWhole (Nat.toDigits 10 n) :=
  ⟨isDigits_toDigits n, toDigits_ne_zero_cons n⟩

theorem writeNat_begins (n : Nat) (rest : List Char) : Begins Char.isDigit (writeNat n rest) :=
  (isDigits_toDigits n).begins.append rest

theorem skipSpace_writeNat (n : Nat) (rest : List Char) :
    skipSpace (writeNat n rest) = writeNat n rest :=
  skipSpace_eq_self ((writeNat_begins n rest).not_begins fun _ => isWhitespace_eq_false_of_isDigit)

theorem isNumber_toDigits (n : Nat) :
    IsNumber ⟨false, Nat.toDigits 10 n, [], none⟩ (Nat.toDigits 10 n) := by
  have hunsigned : IsUnsigned false _ _ := .mk (isWhole_toDigits n) .none .none
  rw [List.append_nil, List.append_nil] at hunsigned
  exact .positive hunsigned

theorem value_toDigits {n : Nat} (hn : n < UInt64.size) :
    Spelling.value ⟨false, Nat.toDigits 10 n, [], none⟩ = .ok (.integer n) := by
  have hinteger : Spelling.integer? ⟨false, Nat.toDigits 10 n, [], none⟩ = some (n : Int) := by
    simp only [Spelling.integer?, natOfDigits_toDigits, if_pos hn]
    rfl
  rw [Spelling.value, hinteger]

theorem runWord_writeNat (w : UInt64) (hrest : ¬ Begins continuesNumber rest) :
    runWord (writeNat w.toNat rest) = .ok (w, rest) := by
  have hbegins := writeNat_begins w.toNat rest
  have hread : readNumber (writeNat w.toNat rest) = .ok (.integer w.toNat, rest) := by
    rw [readNumber, writeNat, scanNumber_append (isNumber_toDigits w.toNat) hrest]
    show Except.bind (Spelling.value _) _ = _
    rw [value_toDigits w.toNat_lt]
    rfl
  rw [runWord, skipSpace_writeNat]
  cases hs : writeNat w.toNat rest with
  | nil =>
    rw [hs] at hbegins
    exact absurd hbegins (not_begins_nil _)
  | cons c t =>
    rw [hs] at hbegins hread
    have hc : c = '-' ∨ c.isDigit = true := .inr hbegins
    dsimp only
    rw [if_pos hc, hread]
    show Except.ok (UInt64.ofNat w.toNat, rest) = _
    rw [UInt64.ofNat_toNat]

end Json
end Criteria
