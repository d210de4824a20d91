import Criteria.Filter.Json
import Criteria.Proofs.Filter.Assembly
import Criteria.Proofs.Json.Codec

/-!
# Documents of filters read back

A node of a filter takes two levels of the document, so a filter has twice as many levels as
its height, and a query has one more.
-/

namespace Criteria

open Json

instance : LawfulCodec Operator where
  levels _ := 0
  valid _ := True
  carries {o} _ depth := Variant.carries_bare (by cases o <;> rfl) depth

instance : LawfulCodec Combinator where
  levels _ := 0
  valid _ := True
  carries {c} _ depth := Variant.carries_bare (by cases c <;> rfl) depth

instance : LawfulCodec QueryOption where
  levels _ := 0
  valid _ := True
  carries {o} _ depth := Variant.carries_bare (by cases o; rfl) depth

/-! ## Predicates -/

namespace Predicate

theorem finish_of_not_blank {p : Predicate} (h : p.blankPart? = none) :
    finish ⟨some p.field, some p.value, some p.operator⟩ = .ok p := by
  show (check p).mapError _ = _
  rw [check, h]
  rfl

theorem fills (p : Predicate) (depth : Nat) :
    (record depth).Fills depth {} [("field", writeText p.field), ("value", writeText p.value),
      ("operator", Codec.write p.operator)]
      ⟨some p.field, some p.value, some p.operator⟩ 0 := by
  refine .cons (n := 0) (m := 0) rfl rfl (carries_text p.field depth) ?_
  refine .cons (n := 0) (m := 0) rfl rfl (carries_text p.value depth) ?_
  refine .cons (n := 0) (m := 0) rfl rfl (LawfulCodec.carries trivial depth) ?_
  exact .nil

theorem carries {p : Predicate} (h : p.blankPart? = none) (depth : Nat) :
    Carries ((record (depth - 1)).reader depth) depth p.write p 1 :=
  Record.carries (fills p (depth - 1)) (finish_of_not_blank h)

instance : LawfulCodec Predicate where
  levels _ := 1
  valid p := p.blankPart? = none
  carries := carries

end Predicate

/-! ## Filters -/

namespace Filter

namespace Join

theorem fills {side : Reader Filter} {depth n m : Nat} {left right : Written} {l r : Filter}
    (hl : Carries side depth left l n) (hr : Carries side depth right r m) (c : Combinator) :
    (record side depth).Fills depth {} [("left_child", left), ("right_child", right),
      ("combinator", Codec.write c)] ⟨some l, some r, some c⟩ (max n m) := by
  refine .cons rfl rfl hl ?_
  rw [← Nat.max_zero m]
  refine .cons rfl rfl hr ?_
  refine .cons (n := 0) (m := 0) rfl rfl (LawfulCodec.carries trivial depth) ?_
  exact .nil

theorem carries {side : Reader Filter} {depth n m : Nat} {left right : Written} {l r : Filter}
    (hl : Carries side (depth - 1) left l n) (hr : Carries side (depth - 1) right r m)
    (c : Combinator) :
    Carries ((record side (depth - 1)).reader depth) depth (write left right c) ⟨l, r, c⟩
      (max n m + 1) :=
  Record.carries (fills hl hr c) rfl

end Join

/-- The reader of the sides of a join. -/
def sideReader : Nat → Reader Filter
  | 0 => .refuse _ (.malformed .tooDeep)
  | 1 => .refuse _ (.malformed .tooDeep)
  | depth + 2 => reader depth

theorem reader_eq (depth : Nat) :
    reader depth = Variant.reader (variants (sideReader depth) (depth - 1)) depth := by
  match depth with
  | 0 => rfl
  | 1 => rfl
  | depth + 2 => rfl

/-- Where the sides of a join cannot be reached there is no level left for them. -/
theorem carries_side {w : Written} {f : Filter} {n : Nat} (hn : 0 < n)
    (h : ∀ depth, Carries (reader depth) depth w f n) (depth : Nat) :
    Carries (sideReader depth) (depth - 1 - 1) w f n := by
  have hrefused : Carries (.refuse Filter (.malformed .tooDeep)) 0 w f n :=
    ⟨(h 0).nests, (h 0).starts, fun rest _ => (within_of_lt hn (f, rest)).symm⟩
  match depth with
  | 0 => exact hrefused
  | 1 => exact hrefused
  | depth + 2 => exact h depth

theorem blankPart?_join_eq_none_iff {l r : Filter} {c : Combinator} :
    (join l r c).blankPart? = none ↔ l.blankPart? = none ∧ r.blankPart? = none := by
  rw [blankPart?, Option.or_eq_none_iff]

theorem carries {f : Filter} (h : f.blankPart? = none) (depth : Nat) :
    Carries (reader depth) depth f.write f (2 * f.height) := by
  induction f generalizing depth with
  | test p =>
    rw [reader_eq]
    exact Variant.carries_held rfl ((Predicate.carries h (depth - 1)).map test)
  | join l r c ihl ihr =>
    obtain ⟨hl, hr⟩ := blankPart?_join_eq_none_iff.1 h
    have hleft := carries_side (by have := height_pos l; omega) (ihl hl) depth
    have hright := carries_side (by have := height_pos r; omega) (ihr hr) depth
    have hlevels : 2 * (join l r c).height = max (2 * l.height) (2 * r.height) + 1 + 1 := by
      rw [height]
      omega
    rw [reader_eq, hlevels]
    exact Variant.carries_held rfl ((Join.carries hleft hright c).map Join.toFilter)

instance : LawfulCodec Filter where
  levels f := 2 * f.height
  valid f := f.blankPart? = none
  carries := carries

instance : LawfulCodec Join where
  levels j := max (2 * j.left.height) (2 * j.right.height) + 1
  valid j := j.toFilter.blankPart? = none
  carries {j} h depth := by
    obtain ⟨hl, hr⟩ := blankPart?_join_eq_none_iff.1 h
    exact Join.carries (carries hl (depth - 1)) (carries hr (depth - 1)) j.combinator

end Filter

/-! ## Filter queries -/

namespace FilterQuery

theorem fills {q : FilterQuery} {depth n : Nat}
    (h : Carries (Filter.reader depth) depth q.filter.write q.filter n) :
    (record depth).Fills depth {} [("option", Codec.write q.option),
      ("source_text", writeText q.source), ("left_child", Codec.write q.filter)]
      ⟨some q.option, some q.source, some q.filter⟩ n := by
  rw [← Nat.zero_max n]
  refine .cons rfl rfl (LawfulCodec.carries trivial depth) ?_
  rw [← Nat.zero_max n]
  refine .cons rfl rfl (carries_text q.source depth) ?_
  rw [← Nat.max_zero n]
  refine .cons rfl rfl h ?_
  exact .nil

instance : LawfulCodec FilterQuery where
  levels q := 2 * q.filter.height + 1
  valid q := q.filter.blankPart? = none
  carries {q} h depth := Record.carries (fills (Filter.carries h (depth - 1))) (a := q) rfl

end FilterQuery
end Criteria
