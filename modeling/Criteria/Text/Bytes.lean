/-!
# Positions in bytes

Positions in a query are counted in bytes of its UTF-8 form.  A scanner works on
the list of characters and hands back the characters that it left, so a position
is the size of the whole less the size of what is left.
-/

namespace Criteria
namespace Text

def byteLength : List Char → Nat
  | [] => 0
  | c :: s => c.utf8Size + byteLength s

theorem byteLength_append (s t : List Char) :
    byteLength (s ++ t) = byteLength s + byteLength t := by
  induction s with
  | nil => simp [byteLength]
  | cons c s ih => simp [byteLength, ih, Nat.add_assoc]

theorem byteLength_pos {s : List Char} (h : s ≠ []) : 0 < byteLength s := by
  cases s with
  | nil => exact absurd rfl h
  | cons c s => exact Nat.lt_of_lt_of_le c.utf8Size_pos (Nat.le_add_right _ _)

theorem byteLength_eq_zero_iff {s : List Char} : byteLength s = 0 ↔ s = [] := by
  constructor
  · intro h
    cases s with
    | nil => rfl
    | cons c s => exact absurd h (Nat.pos_iff_ne_zero.1 (byteLength_pos (List.cons_ne_nil c s)))
  · rintro rfl
    rfl

/-- Every character has at least one byte. -/
theorem length_le_byteLength (s : List Char) : s.length ≤ byteLength s := by
  induction s with
  | nil => exact Nat.le_refl 0
  | cons c s ih =>
    have hc := c.utf8Size_pos
    rw [List.length_cons, byteLength]
    omega

/-- The position at which `rest` starts in `whole`, where `rest` is a tail of `whole`. -/
def offset (whole rest : List Char) : Nat := byteLength whole - byteLength rest

theorem offset_append (s rest : List Char) : offset (s ++ rest) rest = byteLength s := by
  simp [offset, byteLength_append]

end Text
end Criteria
