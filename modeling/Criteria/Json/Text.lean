import Criteria.Json.Fault
import Criteria.Text.Bytes
import Criteria.Text.Scan

/-!
# Strings in documents

A string is read from behind its opening quote.  `readChars` decodes it, and
`skipChars` passes over it: a string that is only passed over may have escapes of
surrogates that do not pair up.
-/

namespace Criteria
namespace Json

/-! ## Escapes -/

def hexValue? (c : Char) : Option Nat :=
  if c.isDigit then some (c.toNat - '0'.toNat)
  else if 'a' ≤ c ∧ c ≤ 'f' then some (c.toNat - 'a'.toNat + 10)
  else if 'A' ≤ c ∧ c ≤ 'F' then some (c.toNat - 'A'.toNat + 10)
  else none

/-- The number that four hexadecimal digits write. -/
def fourHex? (a b c d : Char) : Option Nat := do
  let a ← hexValue? a
  let b ← hexValue? b
  let c ← hexValue? c
  let d ← hexValue? d
  some (((a * 16 + b) * 16 + c) * 16 + d)

/-- Reads four hexadecimal digits.  The document has ended too early only if fewer
than four bytes are left. -/
def readHex : List Char → Except Fault (Nat × List Char)
  | a :: b :: c :: d :: s =>
    match fourHex? a b c d with
    | some n => .ok (n, s)
    | none => .error (.malformed .invalidEscape)
  | s =>
    if Text.byteLength s < 4 then .error (.ended .text) else .error (.malformed .invalidEscape)

def isHighSurrogate (n : Nat) : Bool := 0xD800 ≤ n && n ≤ 0xDBFF

def isLowSurrogate (n : Nat) : Bool := 0xDC00 ≤ n && n ≤ 0xDFFF

/-- The second half of a pair, behind a first half. -/
def readLowSurrogate : List Char → Except Fault (Nat × List Char)
  | '\\' :: 'u' :: s =>
    match readHex s with
    | .error e => .error e
    | .ok (n, rest) =>
      if isLowSurrogate n then .ok (n, rest) else .error (.malformed .loneSurrogate)
  | [] => .error (.ended .text)
  | ['\\'] => .error (.ended .text)
  | _ => .error (.malformed .halfPair)

/-- The character that a surrogate pair stands for. -/
def pairedChar (high low : Nat) : Char :=
  Char.ofNat (0x10000 + (high - 0xD800) * 0x400 + (low - 0xDC00))

def readUnicodeEscape (s : List Char) : Except Fault (Char × List Char) :=
  match readHex s with
  | .error e => .error e
  | .ok (n, s) =>
    if isLowSurrogate n then .error (.malformed .loneSurrogate)
    else if isHighSurrogate n then
      match readLowSurrogate s with
      | .error e => .error e
      | .ok (low, rest) => .ok (pairedChar n low, rest)
    else .ok (Char.ofNat n, s)

/-- The character that an escape of one letter stands for. -/
def shortEscape? : Char → Option Char
  | '\x22' => some '\x22'
  | '\\' => some '\\'
  | '/' => some '/'
  | 'b' => some '\x08'
  | 'f' => some '\x0c'
  | 'n' => some '\n'
  | 'r' => some '\r'
  | 't' => some '\t'
  | _ => none

/-- Reads an escape from behind its backslash. -/
def readEscape : List Char → Except Fault (Char × List Char)
  | [] => .error (.ended .text)
  | c :: s =>
    if c = 'u' then readUnicodeEscape s
    else match shortEscape? c with
      | some d => .ok (d, s)
      | none => .error (.malformed .invalidEscape)

/-- Passes over an escape from behind its backslash. -/
def skipEscape : List Char → Except Fault (List Char)
  | [] => .error (.ended .text)
  | c :: s =>
    if c = 'u' then do
      let (_, rest) ← readHex s
      .ok rest
    else match shortEscape? c with
      | some _ => .ok s
      | none => .error (.malformed .invalidEscape)

def isControl (c : Char) : Bool := c.toNat < 0x20

theorem length_readHex {s rest : List Char} {n : Nat} (h : readHex s = .ok (n, rest)) :
    rest.length < s.length := by
  unfold readHex at h
  split at h
  · split at h
    · cases h
      simp only [List.length_cons]
      omega
    · cases h
  · split at h <;> cases h

theorem length_readLowSurrogate {s rest : List Char} {n : Nat}
    (h : readLowSurrogate s = .ok (n, rest)) : rest.length < s.length := by
  unfold readLowSurrogate at h
  split at h
  · split at h
    · cases h
    · rename_i heq
      split at h
      · cases h
        have := length_readHex heq
        simp only [List.length_cons]
        omega
      · cases h
  all_goals cases h

theorem length_readUnicodeEscape {s rest : List Char} {c : Char}
    (h : readUnicodeEscape s = .ok (c, rest)) : rest.length < s.length := by
  unfold readUnicodeEscape at h
  split at h
  · cases h
  · rename_i h₁
    have := length_readHex h₁
    split at h
    · cases h
    · split at h
      · split at h
        · cases h
        · rename_i h₂
          simp only [Except.ok.injEq, Prod.mk.injEq] at h
          obtain ⟨-, rfl⟩ := h
          have := length_readLowSurrogate h₂
          omega
      · cases h
        assumption

theorem length_readEscape {s rest : List Char} {c : Char} (h : readEscape s = .ok (c, rest)) :
    rest.length < s.length := by
  unfold readEscape at h
  split at h
  · cases h
  · split at h
    · have := length_readUnicodeEscape h
      simp only [List.length_cons]
      omega
    · split at h
      · cases h
        exact Nat.lt_succ_self _
      · cases h

theorem length_skipEscape {s rest : List Char} (h : skipEscape s = .ok rest) :
    rest.length < s.length := by
  unfold skipEscape at h
  split at h
  · cases h
  · split at h
    · simp only [bind_eq_ok_iff, Prod.exists] at h
      obtain ⟨n, r, h₁, h₂⟩ := h
      cases h₂
      have := length_readHex h₁
      simp only [List.length_cons]
      omega
    · split at h
      · cases h
        exact Nat.lt_succ_self _
      · cases h

/-! ## Whole strings -/

def readChars (s : List Char) : Except Fault (List Char × List Char) :=
  match s with
  | [] => .error (.ended .text)
  | c :: t =>
    if c = '\x22' then .ok ([], t)
    else if c = '\\' then
      match _h : readEscape t with
      | .error e => .error e
      | .ok (d, t) =>
        match readChars t with
        | .error e => .error e
        | .ok (cs, rest) => .ok (d :: cs, rest)
    else if isControl c then .error (.malformed .controlCharacter)
    else
      match readChars t with
      | .error e => .error e
      | .ok (cs, rest) => .ok (c :: cs, rest)
termination_by s.length
decreasing_by
  · have := length_readEscape _h
    simp only [List.length_cons]
    omega
  · exact Nat.lt_succ_self _

def skipChars (s : List Char) : Except Fault (List Char) :=
  match s with
  | [] => .error (.ended .text)
  | c :: t =>
    if c = '\x22' then .ok t
    else if c = '\\' then
      match _h : skipEscape t with
      | .error e => .error e
      | .ok t => skipChars t
    else if isControl c then .error (.malformed .controlCharacter)
    else skipChars t
termination_by s.length
decreasing_by
  · have := length_skipEscape _h
    simp only [List.length_cons]
    omega
  · exact Nat.lt_succ_self _

/-- Reads the rest of a string. -/
def readText (s : List Char) : Except Fault (String × List Char) := do
  let (cs, rest) ← readChars s
  .ok (String.ofList cs, rest)

theorem length_readChars {s rest cs : List Char} (h : readChars s = .ok (cs, rest)) :
    rest.length < s.length := by
  fun_induction readChars s generalizing cs rest with
  | case1 => cases h
  | case2 => cases h; exact Nat.lt_succ_self _
  | case3 => cases h
  | case4 => cases h
  | case5 =>
    rename_i h₁ _ _ h₂ _ ih
    cases h
    have := length_readEscape h₁
    have := ih h₂
    simp only [List.length_cons]
    omega
  | case6 => cases h
  | case7 => cases h
  | case8 c t _ _ _ cs' rest' h₂ ih =>
    cases h
    have := ih h₂
    simp only [List.length_cons]
    omega

theorem length_skipChars {s rest : List Char} (h : skipChars s = .ok rest) :
    rest.length < s.length := by
  fun_induction skipChars s with
  | case1 => cases h
  | case2 => cases h; exact Nat.lt_succ_self _
  | case3 => cases h
  | case4 =>
    rename_i h₁ _ ih
    have := length_skipEscape h₁
    have := ih h
    simp only [List.length_cons]
    omega
  | case5 => cases h
  | case6 c t _ _ _ ih =>
    have := ih h
    simp only [List.length_cons]
    omega

theorem length_readText {s rest : List Char} {t : String} (h : readText s = .ok (t, rest)) :
    rest.length < s.length := by
  simp only [readText, bind_eq_ok_iff, Prod.exists] at h
  obtain ⟨cs, r, h₁, h₂⟩ := h
  cases h₂
  exact length_readChars h₁

end Json
end Criteria
