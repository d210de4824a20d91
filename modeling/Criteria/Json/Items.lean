import Criteria.Json.Reader

/-!
# Items between brackets

Between the items of a list and the members of an object stands one comma each.
`nextItem` and `nextMember` say whether a further one follows.
-/

namespace Criteria
namespace Json

open Text

inductive Next
  /-- The closing bracket has been read. -/
  | finished (rest : List Char)
  /-- A further item starts here, or a further member behind the quote of its key. -/
  | more (rest : List Char)

/-- The next item of a list. -/
def nextItem (isFirst : Bool) (s : List Char) : Except Fault Next :=
  match skipSpace s with
  | [] => .error (.ended .list)
  | c :: t =>
    if c = ']' then .ok (.finished t)
    else if isFirst then .ok (.more (c :: t))
    else if c = ',' then
      match skipSpace t with
      | [] => .error (.ended .value)
      | d :: u => if d = ']' then .error (.malformed .trailingComma) else .ok (.more (d :: u))
    else .error (.malformed .expectedCommaOrBracket)

/-- The start of the key of a member. -/
def openKey : List Char → Except Fault Next
  | [] => .error (.ended .value)
  | c :: t => if c = '\x22' then .ok (.more t) else .error (.malformed .keyNotText)

/-- The next member of an object. -/
def nextMember (isFirst : Bool) (s : List Char) : Except Fault Next :=
  match skipSpace s with
  | [] => .error (.ended .object)
  | c :: t =>
    if c = '\x7d' then .ok (.finished t)
    else if isFirst then openKey (c :: t)
    else if c = ',' then
      match skipSpace t with
      | [] => .error (.ended .value)
      | d :: u => if d = '\x7d' then .error (.malformed .trailingComma) else openKey (d :: u)
    else .error (.malformed .expectedCommaOrBrace)

/-- The end of a list of which every item that it may have has been read. -/
def closeList (s : List Char) : Except Fault (List Char) :=
  match skipSpace s with
  | [] => .error (.ended .list)
  | c :: t =>
    if c = ']' then .ok t
    else if c = ',' then
      match skipSpace t with
      | ']' :: _ => .error (.malformed .trailingComma)
      | _ => .error (.malformed .trailingCharacters)
    else .error (.malformed .trailingCharacters)

/-- The end of an object of one member. -/
def closeObject (s : List Char) : Except Fault (List Char) :=
  match skipSpace s with
  | [] => .error (.ended .object)
  | c :: t => if c = '\x7d' then .ok t else .error (.malformed .expectedValue)

theorem length_nextItem_finished {isFirst : Bool} {s rest : List Char}
    (h : nextItem isFirst s = .ok (.finished rest)) : rest.length < s.length := by
  have h1 := length_skipSpace_le s
  unfold nextItem at h
  split at h
  · cases h
  · rename_i c t heq
    simp only [heq, List.length_cons] at h1
    split at h
    · cases h
      omega
    · split at h
      · cases h
      · split at h
        · split at h
          · cases h
          · split at h <;> cases h
        · cases h

theorem length_nextItem_more {isFirst : Bool} {s rest : List Char}
    (h : nextItem isFirst s = .ok (.more rest)) : rest.length ≤ s.length := by
  have h1 := length_skipSpace_le s
  unfold nextItem at h
  split at h
  · cases h
  · rename_i c t heq
    simp only [heq, List.length_cons] at h1
    split at h
    · cases h
    · split at h
      · cases h
        simp only [List.length_cons]
        omega
      · split at h
        · have h2 := length_skipSpace_le t
          split at h
          · cases h
          · rename_i d u heq'
            simp only [heq', List.length_cons] at h2
            split at h
            · cases h
            · cases h
              simp only [List.length_cons]
              omega
        · cases h

theorem length_openKey {s rest : List Char} (h : openKey s = .ok (.more rest)) :
    rest.length < s.length := by
  unfold openKey at h
  split at h
  · cases h
  · split at h
    · cases h
      exact Nat.lt_succ_self _
    · cases h

theorem openKey_ne_finished {s rest : List Char} : openKey s ≠ .ok (.finished rest) := by
  unfold openKey
  split
  · simp
  · split <;> simp

theorem length_nextMember_finished {isFirst : Bool} {s rest : List Char}
    (h : nextMember isFirst s = .ok (.finished rest)) : rest.length < s.length := by
  have h1 := length_skipSpace_le s
  unfold nextMember at h
  split at h
  · cases h
  · rename_i c t heq
    simp only [heq, List.length_cons] at h1
    split at h
    · cases h
      omega
    · split at h
      · exact absurd h openKey_ne_finished
      · split at h
        · split at h
          · cases h
          · split at h
            · cases h
            · exact absurd h openKey_ne_finished
        · cases h

theorem length_nextMember_more {isFirst : Bool} {s rest : List Char}
    (h : nextMember isFirst s = .ok (.more rest)) : rest.length < s.length := by
  have h1 := length_skipSpace_le s
  unfold nextMember at h
  split at h
  · cases h
  · rename_i c t heq
    simp only [heq, List.length_cons] at h1
    split at h
    · cases h
    · split at h
      · have := length_openKey h
        simp only [List.length_cons] at this
        omega
      · split at h
        · have h2 := length_skipSpace_le t
          split at h
          · cases h
          · rename_i d u heq'
            simp only [heq', List.length_cons] at h2
            split at h
            · cases h
            · have := length_openKey h
              simp only [List.length_cons] at this
              omega
        · cases h

theorem length_closeList {s rest : List Char} (h : closeList s = .ok rest) :
    rest.length < s.length := by
  have h1 := length_skipSpace_le s
  unfold closeList at h
  split at h
  · cases h
  · rename_i c t heq
    simp only [heq, List.length_cons] at h1
    split at h
    · cases h
      omega
    · split at h
      · split at h <;> cases h
      · cases h

theorem length_closeObject {s rest : List Char} (h : closeObject s = .ok rest) :
    rest.length < s.length := by
  have h1 := length_skipSpace_le s
  unfold closeObject at h
  split at h
  · cases h
  · rename_i c t heq
    simp only [heq, List.length_cons] at h1
    split at h
    · cases h
      omega
    · cases h

end Json
end Criteria
