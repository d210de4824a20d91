import Criteria.Json.Items

/-!
# Sequences

A sequence is read from a list of any length.
-/

namespace Criteria
namespace Json
namespace Sequence

open Text

variable {α : Type}

/-- Reads items to the closing bracket. -/
def readItems (item : Reader α) (isFirst : Bool) (s : List Char) :
    Except Fault (List α × List Char) :=
  match _h₁ : nextItem isFirst s with
  | .error e => .error e
  | .ok (.finished rest) => .ok ([], rest)
  | .ok (.more s₁) =>
    match _h₂ : item.run s₁ with
    | .error e => .error e
    | .ok (a, s₂) =>
      match readItems item false s₂ with
      | .error e => .error e
      | .ok (as, rest) => .ok (a :: as, rest)
termination_by s.length
decreasing_by
  have := length_nextItem_more _h₁
  have := item.shorter _h₂
  omega

theorem length_readItems {item : Reader α} {isFirst : Bool} {s rest : List Char} {as : List α}
    (h : readItems item isFirst s = .ok (as, rest)) : rest.length < s.length := by
  fun_induction readItems item isFirst s generalizing as rest with
  | case1 => cases h
  | case2 => cases h; exact length_nextItem_finished ‹_›
  | case3 => cases h
  | case4 => cases h
  | case5 =>
    rename_i h₁ _ _ h₂ _ _ h₃ ih
    cases h
    have := length_nextItem_more h₁
    have := item.shorter h₂
    have := ih h₃
    omega

def run (item : Reader α) (depth : Nat) (s : List Char) : Except Fault (List α × List Char) :=
  match skipSpace s with
  | [] => .error (.ended .value)
  | c :: t =>
    if c = '[' then
      if depth = 0 then .error (.malformed .tooDeep) else readItems item true t
    else .error (misfit "a sequence" (c :: t))

theorem length_run {item : Reader α} {depth : Nat} {s rest : List Char} {as : List α}
    (h : run item depth s = .ok (as, rest)) : rest.length < s.length := by
  have h1 := length_skipSpace_le s
  unfold run at h
  split at h
  · cases h
  · rename_i c t heq
    simp only [heq, List.length_cons] at h1
    split at h
    · split at h
      · cases h
      · have := length_readItems h
        omega
    · cases h

/-- The item reader is for one level less than the sequence. -/
def reader (item : Reader α) (depth : Nat) : Reader (List α) where
  run := run item depth
  shorter := length_run

end Sequence
end Json
end Criteria
