import Criteria.QueryError
import Criteria.Sort.Basic

/-!
# The parts of a sort query

A key is the name of a property, and behind white space a direction.  What follows
the letters of a direction may be a letter.
-/

namespace Criteria
namespace SortKey
namespace Scan

open Text

def name (s : List Char) : Except Mismatch (String × List Char) :=
  match (skipSpace s).takeWhile Char.isAlpha with
  | [] => .error ⟨.propertyName, skipSpace s⟩
  | letters => .ok (String.ofList letters, (skipSpace s).dropWhile Char.isAlpha)

/-- The direction whose letters a text starts with, in any case. -/
def leadingDirection? (s : List Char) : Option (Direction × List Char) :=
  Direction.all.findSome? fun d => (dropWord? .caseless d.word s).map (d, ·)

/-- The direction behind a name, for which there must be white space between the
two.  Where none stands nothing is read, and the direction is ascending. -/
def direction (s : List Char) : Direction × List Char :=
  match s with
  | [] => (.ascending, [])
  | c :: _ =>
    if c.isWhitespace then (leadingDirection? (skipSpace s)).getD (.ascending, s)
    else (.ascending, s)

/-- The end of a key, which is a comma or the end of the query. -/
def endOfKey (s : List Char) : Except Mismatch (List Char) :=
  match skipSpace s with
  | [] => .ok []
  | c :: s => if c = ',' then .ok s else .error ⟨.commaOrEnd, c :: s⟩

def key (s : List Char) : Except Mismatch (SortKey × List Char) := do
  let (property, s) ← name s
  let (direction, s) := direction s
  let rest ← endOfKey s
  .ok (⟨property, direction⟩, rest)

theorem length_name {s rest : List Char} {n : String} (h : name s = .ok (n, rest)) :
    rest.length < s.length := by
  unfold name at h
  split at h
  · cases h
  · rename_i hne
    cases h
    have h1 := length_skipSpace_le s
    have h2 : ((skipSpace s).takeWhile Char.isAlpha).length +
        ((skipSpace s).dropWhile Char.isAlpha).length = (skipSpace s).length := by
      rw [← List.length_append, List.takeWhile_append_dropWhile]
    have h3 := List.length_pos_iff.2 hne
    omega

theorem leadingDirection?_eq_some {s rest : List Char} {d : Direction}
    (h : leadingDirection? s = some (d, rest)) : dropWord? .caseless d.word s = some rest := by
  obtain ⟨d', -, h⟩ := List.exists_of_findSome?_eq_some h
  obtain ⟨r, hr, h⟩ := Option.map_eq_some_iff.1 h
  cases h
  exact hr

theorem length_direction_le (s : List Char) : (direction s).2.length ≤ s.length := by
  unfold direction
  split
  · exact Nat.le_refl _
  · rename_i c t
    split
    · cases h : leadingDirection? (skipSpace (c :: t)) with
      | none => exact Nat.le_refl _
      | some x =>
        have h1 := length_dropWord? (leadingDirection?_eq_some h)
        have h2 := length_skipSpace_le (c :: t)
        simp only [Option.getD_some]
        omega
    · exact Nat.le_refl _

theorem length_endOfKey {s rest : List Char} (h : endOfKey s = .ok rest) :
    rest.length ≤ s.length := by
  have h1 := length_skipSpace_le s
  unfold endOfKey at h
  split at h
  · cases h
    exact Nat.zero_le _
  · rename_i c t heq
    simp only [heq, List.length_cons] at h1
    split at h
    · cases h
      omega
    · cases h

theorem key_eq_ok_iff {s rest : List Char} {k : SortKey} :
    key s = .ok (k, rest) ↔
      ∃ s₁, name s = .ok (k.property, s₁) ∧ (direction s₁).1 = k.direction ∧
        endOfKey (direction s₁).2 = .ok rest := by
  obtain ⟨n, d⟩ := k
  simp only [key, bind_eq_ok_iff, Prod.exists, Except.ok.injEq, Prod.mk.injEq, SortKey.mk.injEq]
  constructor
  · rintro ⟨n, s₁, h₁, r, h₂, ⟨rfl, rfl⟩, rfl⟩
    exact ⟨s₁, h₁, rfl, h₂⟩
  · rintro ⟨s₁, h₁, rfl, h₃⟩
    exact ⟨n, s₁, h₁, rest, h₃, ⟨rfl, rfl⟩, rfl⟩

theorem length_key {s rest : List Char} {k : SortKey} (h : key s = .ok (k, rest)) :
    rest.length < s.length := by
  obtain ⟨s₁, h₁, -, h₃⟩ := key_eq_ok_iff.1 h
  have := length_name h₁
  have := length_direction_le s₁
  have := length_endOfKey h₃
  omega

end Scan
end SortKey
end Criteria
