import Criteria.Json.Number
import Criteria.Json.Text

/-!
# Passing over values

The value of an unknown field is passed over.  It must be well formed and may be
nested to any depth, so the brackets that are open are kept in a list, innermost
first.
-/

namespace Criteria
namespace Json

open Text

/-- Reads what is left of a literal. -/
def literal : List Char → List Char → Except Fault (List Char)
  | [], s => .ok s
  | _ :: _, [] => .error (.ended .value)
  | k :: word, c :: s =>
    if c = k then literal word s else .error (.malformed .brokenLiteral)

/-- Reads the colon behind the key of a member. -/
def colon (s : List Char) : Except Fault (List Char) :=
  match skipSpace s with
  | [] => .error (.ended .object)
  | c :: rest => if c = ':' then .ok rest else .error (.malformed .expectedColon)

inductive Bracket
  | list
  | object
  deriving DecidableEq

namespace Bracket

def ofChar? (c : Char) : Option Bracket :=
  if c = '[' then some list else if c = '\x7b' then some object else none

def within : Bracket → Within
  | list => .list
  | object => .object

def closing : Bracket → Char
  | list => ']'
  | object => '\x7d'

/-- The flaw of a text behind a value that goes on with neither a comma nor the end. -/
def unseparated : Bracket → Flaw
  | list => .expectedCommaOrBracket
  | object => .expectedCommaOrBrace

end Bracket

/-- Passes over a value that is neither a list nor an object. -/
def skipScalar : List Char → Except Fault (List Char)
  | [] => .error (.ended .value)
  | c :: s =>
    if c = 'n' then literal ['u', 'l', 'l'] s
    else if c = 't' then literal ['r', 'u', 'e'] s
    else if c = 'f' then literal ['a', 'l', 's', 'e'] s
    else if c = '\x22' then skipChars s
    else if c = '-' ∨ c.isDigit then skipNumber (c :: s)
    else .error (.malformed .expectedValue)

/-- Passes over what stands before the value of an item: in an object its key and
the colon behind it, in a list nothing. -/
def skipLabel (bracket : Bracket) (s : List Char) : Except Fault (List Char) :=
  match bracket with
  | .list => .ok s
  | .object =>
    match skipSpace s with
    | [] => .error (.ended .object)
    | c :: s =>
      if c = '\x22' then do
        let s ← skipChars s
        colon s
      else .error (.malformed .keyNotText)

theorem length_literal {word s rest : List Char} (h : literal word s = .ok rest) :
    rest.length ≤ s.length := by
  induction word generalizing s with
  | nil =>
    cases h
    exact Nat.le_refl _
  | cons k word ih =>
    cases s with
    | nil => cases h
    | cons c s =>
      simp only [literal] at h
      split at h
      · have := ih h
        simp only [List.length_cons]
        omega
      · cases h

theorem length_colon {s rest : List Char} (h : colon s = .ok rest) :
    rest.length < s.length := by
  have h1 := length_skipSpace_le s
  unfold colon at h
  split at h
  · cases h
  · rename_i c t heq
    split at h
    · cases h
      simp only [heq, List.length_cons] at h1
      omega
    · cases h

theorem length_skipScalar {s rest : List Char} (h : skipScalar s = .ok rest) :
    rest.length < s.length := by
  unfold skipScalar at h
  split at h
  · cases h
  · simp only [List.length_cons]
    split at h
    · have := length_literal h
      omega
    · split at h
      · have := length_literal h
        omega
      · split at h
        · have := length_literal h
          omega
        · split at h
          · have := length_skipChars h
            omega
          · split at h
            · exact length_skipNumber h
            · cases h

theorem length_skipLabel {bracket : Bracket} {s rest : List Char}
    (h : skipLabel bracket s = .ok rest) : rest.length ≤ s.length := by
  have h1 := length_skipSpace_le s
  unfold skipLabel at h
  split at h
  · cases h
    exact Nat.le_refl _
  · split at h
    · cases h
    · rename_i c t heq
      split at h
      · simp only [bind_eq_ok_iff] at h
        obtain ⟨r, h₂, h₃⟩ := h
        have := length_skipChars h₂
        have := length_colon h₃
        simp only [heq, List.length_cons] at h1
        omega
      · cases h

mutual
/-- Passes over a value and what follows it inside the open brackets. -/
def skipValue (opened : List Bracket) (s : List Char) : Except Fault (List Char) :=
  match _hs : skipSpace s with
  | [] => .error (.ended .value)
  | c :: t =>
    match Bracket.ofChar? c with
    | none =>
      match _h : skipScalar (c :: t) with
      | .error e => .error e
      | .ok rest => skipRest opened rest
    | some bracket =>
      match _ht : skipSpace t with
      | [] => .error (.ended bracket.within)
      | d :: u =>
        if d = bracket.closing then skipRest opened u
        else
          match _h : skipLabel bracket (d :: u) with
          | .error e => .error e
          | .ok rest => skipValue (bracket :: opened) rest
termination_by s.length
decreasing_by
  all_goals have hs := length_skipSpace_le s
  all_goals simp only [_hs, List.length_cons] at hs
  · have := length_skipScalar _h
    simp only [List.length_cons] at this
    omega
  all_goals have ht := length_skipSpace_le t
  all_goals simp only [_ht, List.length_cons] at ht
  · omega
  · have := length_skipLabel _h
    simp only [List.length_cons] at this
    omega

/-- Passes over what follows a value inside the open brackets, and over these. -/
def skipRest (opened : List Bracket) (s : List Char) : Except Fault (List Char) :=
  match opened with
  | [] => .ok s
  | bracket :: opened =>
    match _hs : skipSpace s with
    | [] => .error (.ended bracket.within)
    | c :: t =>
      if c = ',' then
        match _h : skipLabel bracket t with
        | .error e => .error e
        | .ok rest => skipValue (bracket :: opened) rest
      else if c = bracket.closing then skipRest opened t
      else .error (.malformed bracket.unseparated)
termination_by s.length
decreasing_by
  all_goals have hs := length_skipSpace_le s
  all_goals simp only [_hs, List.length_cons] at hs
  · have := length_skipLabel _h
    omega
  · omega
end

theorem length_skipValue_skipRest (n : Nat) :
    (∀ opened s rest, s.length < n → skipValue opened s = .ok rest → rest.length < s.length) ∧
    (∀ opened s rest, s.length < n → skipRest opened s = .ok rest → rest.length ≤ s.length) := by
  induction n with
  | zero => exact ⟨fun _ _ _ hn => by omega, fun _ _ _ hn => by omega⟩
  | succ n ih =>
    constructor
    · intro opened s rest hn h
      have h1 := length_skipSpace_le s
      rw [skipValue] at h
      split at h
      · cases h
      · rename_i c t heq
        simp only [heq, List.length_cons] at h1
        split at h
        · split at h
          · cases h
          · rename_i r hr
            have h2 := length_skipScalar hr
            simp only [List.length_cons] at h2
            have := ih.2 _ _ _ (by omega) h
            omega
        · rename_i bracket _
          have h3 := length_skipSpace_le t
          split at h
          · cases h
          · rename_i d u heq'
            simp only [heq', List.length_cons] at h3
            split at h
            · have := ih.2 _ _ _ (by omega) h
              omega
            · split at h
              · cases h
              · rename_i r hr
                have h4 := length_skipLabel hr
                simp only [List.length_cons] at h4
                have := ih.1 _ _ _ (by omega) h
                omega
    · intro opened s rest hn h
      have h1 := length_skipSpace_le s
      rw [skipRest.eq_def] at h
      split at h
      · cases h
        exact Nat.le_refl _
      · split at h
        · cases h
        · rename_i c t heq
          simp only [heq, List.length_cons] at h1
          split at h
          · split at h
            · cases h
            · rename_i r hr
              have h4 := length_skipLabel hr
              have := ih.1 _ _ _ (by omega) h
              omega
          · split at h
            · have := ih.2 _ _ _ (by omega) h
              omega
            · cases h

theorem length_skipValue {opened : List Bracket} {s rest : List Char}
    (h : skipValue opened s = .ok rest) : rest.length < s.length :=
  (length_skipValue_skipRest (s.length + 1)).1 _ _ _ (Nat.lt_succ_self _) h

end Json
end Criteria
