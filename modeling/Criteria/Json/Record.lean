import Criteria.Json.Items

/-!
# Records

A record has named fields.  It is read from an object, whose members may stand in
any order and among unknown ones, or from a list of the fields in their order.
While it is read its fields are gathered in a draft.

Reading opens one level of the document.  `depth` is the number of levels that may
still be opened.
-/

namespace Criteria
namespace Json

open Text

/-- A field of a record with drafts of type `δ`. -/
structure Field (δ : Type) where
  name : String
  isSet : δ → Bool
  /-- Reads the value, as a function that sets the field. -/
  reader : Reader (δ → δ)

structure Record (δ α : Type) where
  /-- The name of the record in messages. -/
  name : String
  fields : List (Field δ)
  blank : δ
  /-- Whether a list may leave out the fields at its end. -/
  mayBeShort : Bool
  /-- The record of a draft.  A field that is missing is found here. -/
  finish : δ → Except Fault α

namespace Record

variable {δ α : Type}

def typeName (record : Record δ α) : String := "struct " ++ record.name

def field? (record : Record δ α) (name : String) : Option (Field δ) :=
  record.fields.find? (·.name == name)

/-! ## From an object -/

/-- Reads a member from behind its key. -/
def readMember (record : Record δ α) (draft : δ) (key : String) (s : List Char) :
    Except Fault (δ × List Char) :=
  match record.field? key with
  | none => do
    let s ← colon s
    let rest ← skipValue [] s
    .ok (draft, rest)
  | some field =>
    if field.isSet draft then .error (.unfit (.duplicateField field.name))
    else do
      let s ← colon s
      let (set, rest) ← field.reader.run s
      .ok (set draft, rest)

theorem length_readMember {record : Record δ α} {draft draft' : δ} {key : String}
    {s rest : List Char} (h : record.readMember draft key s = .ok (draft', rest)) :
    rest.length < s.length := by
  unfold readMember at h
  split at h
  · simp only [bind_eq_ok_iff] at h
    obtain ⟨s₁, h₁, s₂, h₂, h₃⟩ := h
    cases h₃
    have := length_colon h₁
    have := length_skipValue h₂
    omega
  · rename_i field _
    split at h
    · cases h
    · simp only [bind_eq_ok_iff, Prod.exists] at h
      obtain ⟨s₁, h₁, set, s₂, h₂, h₃⟩ := h
      cases h₃
      have := length_colon h₁
      have := field.reader.shorter h₂
      omega

/-- Reads members to the closing brace. -/
def readMembers (record : Record δ α) (isFirst : Bool) (draft : δ) (s : List Char) :
    Except Fault (δ × List Char) :=
  match _h₁ : nextMember isFirst s with
  | .error e => .error e
  | .ok (.finished rest) => .ok (draft, rest)
  | .ok (.more s₁) =>
    match _h₂ : readText s₁ with
    | .error e => .error e
    | .ok (key, s₂) =>
      match _h₃ : record.readMember draft key s₂ with
      | .error e => .error e
      | .ok (draft, s₃) => record.readMembers false draft s₃
termination_by s.length
decreasing_by
  have := length_nextMember_more _h₁
  have := length_readText _h₂
  have := length_readMember _h₃
  omega

theorem length_readMembers {record : Record δ α} {isFirst : Bool} {draft draft' : δ}
    {s rest : List Char} (h : record.readMembers isFirst draft s = .ok (draft', rest)) :
    rest.length < s.length := by
  fun_induction readMembers record isFirst draft s with
  | case1 => cases h
  | case2 => cases h; exact length_nextMember_finished ‹_›
  | case3 => cases h
  | case4 => cases h
  | case5 =>
    rename_i h₁ _ _ h₂ _ _ h₃ ih
    have := length_nextMember_more h₁
    have := length_readText h₂
    have := length_readMember h₃
    have := ih h
    omega

/-! ## From a list -/

def lengthMistake (record : Record δ α) (length : Nat) : Fault :=
  .unfit (.wrongLength length
    (record.typeName ++ " with " ++ toString record.fields.length ++ " elements"))

/-- Reads the given fields in order, of which `count` have been read before. -/
def readElements (record : Record δ α) (count : Nat) (draft : δ) (s : List Char) :
    List (Field δ) → Except Fault (δ × List Char)
  | [] => do
    let rest ← closeList s
    .ok (draft, rest)
  | field :: fields => do
    match ← nextItem (count == 0) s with
    | .finished rest =>
      if record.mayBeShort then .ok (draft, rest) else .error (record.lengthMistake count)
    | .more s => do
      let (set, s) ← field.reader.run s
      record.readElements (count + 1) (set draft) s fields

theorem length_readElements {record : Record δ α} {count : Nat} {draft draft' : δ}
    {s rest : List Char} {fields : List (Field δ)}
    (h : record.readElements count draft s fields = .ok (draft', rest)) :
    rest.length < s.length := by
  induction fields generalizing count draft s with
  | nil =>
    simp only [readElements, bind_eq_ok_iff] at h
    obtain ⟨r, h₁, h₂⟩ := h
    cases h₂
    exact length_closeList h₁
  | cons field fields ih =>
    simp only [readElements, bind_eq_ok_iff] at h
    obtain ⟨next, h₁, h₂⟩ := h
    cases next with
    | finished r =>
      have := length_nextItem_finished h₁
      dsimp only at h₂
      split at h₂
      · cases h₂
        assumption
      · cases h₂
    | more r =>
      simp only [bind_eq_ok_iff, Prod.exists] at h₂
      obtain ⟨set, r', h₂, h₃⟩ := h₂
      have := length_nextItem_more h₁
      have := field.reader.shorter h₂
      have := ih h₃
      omega

/-! ## From either -/

/-- Reads the fields behind an opening bracket. -/
def readDraft (record : Record δ α) (bracket : Bracket) (s : List Char) :
    Except Fault (δ × List Char) :=
  match bracket with
  | .object => record.readMembers true record.blank s
  | .list => record.readElements 0 record.blank s record.fields

/-- Reads what stands behind an opening bracket. -/
def readOpened (record : Record δ α) (bracket : Bracket) (s : List Char) :
    Except Fault (α × List Char) := do
  let (draft, rest) ← record.readDraft bracket s
  let a ← record.finish draft
  .ok (a, rest)

def run (record : Record δ α) (depth : Nat) (s : List Char) : Except Fault (α × List Char) :=
  match skipSpace s with
  | [] => .error (.ended .value)
  | c :: t =>
    match Bracket.ofChar? c with
    | none => .error (misfit record.typeName (c :: t))
    | some bracket =>
      if depth = 0 then .error (.malformed .tooDeep) else record.readOpened bracket t

theorem length_readOpened {record : Record δ α} {bracket : Bracket} {s rest : List Char} {a : α}
    (h : record.readOpened bracket s = .ok (a, rest)) : rest.length < s.length := by
  simp only [readOpened, bind_eq_ok_iff, Prod.exists] at h
  obtain ⟨draft, r, h₁, a', -, h₂⟩ := h
  cases h₂
  cases bracket with
  | list => exact length_readElements h₁
  | object => exact length_readMembers h₁

theorem length_run {record : Record δ α} {depth : Nat} {s rest : List Char} {a : α}
    (h : record.run depth s = .ok (a, rest)) : rest.length < s.length := by
  have h1 := length_skipSpace_le s
  unfold run at h
  split at h
  · cases h
  · rename_i c t heq
    simp only [heq, List.length_cons] at h1
    split at h
    · cases h
    · split at h
      · cases h
      · have := length_readOpened h
        omega

def reader (record : Record δ α) (depth : Nat) : Reader α where
  run := record.run depth
  shorter := length_run

end Record

/-- The value of a field that must be there. -/
def required {α : Type} (name : String) : Option α → Except Fault α
  | some a => .ok a
  | none => .error (.unfit (.missingField name))

end Json
end Criteria
