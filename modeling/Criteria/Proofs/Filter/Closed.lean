import Criteria.Proofs.Filter.Json
import Criteria.Proofs.Json.Closed

/-!
# What is read as a filter

A filter that is read from a document has no blank part, since each of its predicates has been
checked.  Its nodes have opened two levels each, so its height is bounded by the levels that its
reader may open.
-/

namespace Criteria

open Json

instance : ClosedCodec Operator where
  ensures depth _ _ _ _ := ⟨trivial, Nat.zero_le depth⟩

instance : ClosedCodec Combinator where
  ensures depth _ _ _ _ := ⟨trivial, Nat.zero_le depth⟩

instance : ClosedCodec QueryOption where
  ensures depth _ _ _ _ := ⟨trivial, Nat.zero_le depth⟩

namespace Predicate

theorem check_eq_ok_iff {p q : Predicate} : check p = .ok q ↔ p.blankPart? = none ∧ p = q := by
  unfold check
  split <;> simp_all

theorem record_ensures (depth level : Nat) :
    ((record depth).reader level).Ensures (·.blankPart? = none) := by
  refine Record.ensures (D := fun _ => True) trivial ?_ ?_ level
  · exact fun field _ _ _ _ _ _ _ => trivial
  · intro draft p _ h
    simp only [record, finish, bind_eq_ok_iff] at h
    obtain ⟨f, -, v, -, o, -, h⟩ := h
    cases hcheck : check ⟨f, o, v⟩ with
    | error part =>
      rw [hcheck] at h
      cases h
    | ok q =>
      rw [hcheck] at h
      cases h
      obtain ⟨hblank, rfl⟩ := check_eq_ok_iff.1 hcheck
      exact hblank

instance : ClosedCodec Predicate where
  ensures depth := (record_ensures (depth - 1) depth).and (Record.ensures_depth _ depth)

end Predicate

namespace Filter

/-- Whether a filter can be read where `depth` levels may be opened. -/
def IsReadable (depth : Nat) (f : Filter) : Prop :=
  f.blankPart? = none ∧ 2 * f.height ≤ depth

namespace Join

theorem record_ensures {side : Reader Filter} {P : Filter → Prop} (hside : side.Ensures P)
    (depth level : Nat) :
    ((record side depth).reader level).Ensures fun j => P j.left ∧ P j.right := by
  -- A side that has not been set yet is no objection, since without it nothing is finished.
  refine Record.ensures
    (D := fun draft => (∀ f ∈ draft.left, P f) ∧ ∀ f ∈ draft.right, P f) ⟨?_, ?_⟩ ?_ ?_ level
  · exact fun f hf => nomatch hf
  · exact fun f hf => nomatch hf
  · intro field hfield
    simp only [record, List.mem_cons, List.not_mem_nil, or_false] at hfield
    rcases hfield with rfl | rfl | rfl
    · exact Field.keeps_map hside fun f draft hf hdraft => ⟨by simpa using hf, hdraft.2⟩
    · exact Field.keeps_map hside fun f draft hf hdraft => ⟨hdraft.1, by simpa using hf⟩
    · exact Field.keeps_map_of_forall fun c draft hdraft => hdraft
  · intro draft j hdraft h
    simp only [record, finish, bind_eq_ok_iff, required_eq_ok_iff] at h
    obtain ⟨l, hl, r, hr, c, -, h⟩ := h
    cases h
    exact ⟨hdraft.1 l hl, hdraft.2 r hr⟩

theorem ensures {side : Reader Filter} {depth : Nat}
    (hside : side.Ensures (IsReadable (depth - 1))) :
    ((record side (depth - 1)).reader depth).Ensures fun j =>
      j.toFilter.blankPart? = none ∧ max (2 * j.left.height) (2 * j.right.height) + 1 ≤ depth := by
  have hrecord := (record_ensures hside (depth - 1) depth).and (Record.ensures_depth _ depth)
  refine hrecord.imp fun j h => ?_
  obtain ⟨⟨hl, hr⟩, hdepth⟩ := h
  have hlevels : max (2 * j.left.height) (2 * j.right.height) ≤ depth - 1 :=
    Nat.max_le.2 ⟨hl.2, hr.2⟩
  exact ⟨blankPart?_join_eq_none_iff.2 ⟨hl.1, hr.1⟩, by omega⟩

end Join

/-- What is read behind the name of a variant is a record, so a level is left for that. -/
theorem variants_ensure {side : Reader Filter} {depth : Nat}
    (hside : side.Ensures (IsReadable (depth - 1))) (level : Nat) :
    (Variant.reader (variants side depth) level).Ensures fun f =>
      IsReadable (depth + 1) f ∧ 0 < depth := by
  refine Variant.ensures ?_ level
  intro v hv
  simp only [variants, List.mem_cons, List.not_mem_nil, or_false] at hv
  rcases hv with rfl | rfl
  · refine (Join.ensures hside).map fun j h => ?_
    have hlevels : 2 * j.toFilter.height ≤ depth + 1 := by
      show 2 * (max j.left.height j.right.height + 1) ≤ depth + 1
      omega
    exact ⟨⟨h.1, hlevels⟩, by omega⟩
  · refine (ClosedCodec.ensures (α := Predicate) depth).map fun p h => ?_
    have hdepth : 1 ≤ depth := h.2
    have hlevels : 2 * (test p).height ≤ depth + 1 := by
      rw [height]
      omega
    exact ⟨⟨h.1, hlevels⟩, hdepth⟩

theorem reader_ensures (depth : Nat) : (reader depth).Ensures (IsReadable depth) := by
  have hlow : ∀ level, (Variant.reader (variants (.refuse _ (.malformed .tooDeep)) 0) level).Ensures
      (IsReadable level) := fun level =>
    (variants_ensure (Reader.ensures_refuse _) level).imp fun f h =>
      absurd h.2 (Nat.lt_irrefl 0)
  induction depth using reader.induct with
  | case1 => exact hlow 0
  | case2 => exact hlow 1
  | case3 depth ih => exact (variants_ensure ih _).imp fun f h => h.1

instance : ClosedCodec Filter where
  ensures := reader_ensures

instance : ClosedCodec Join where
  ensures depth := Join.ensures (reader_ensures (depth - 1))

end Filter

namespace FilterQuery

theorem record_ensures {depth : Nat} {P : Filter → Prop} (hfilter : (Filter.reader depth).Ensures P)
    (level : Nat) : ((record depth).reader level).Ensures (P ·.filter) := by
  refine Record.ensures (D := fun draft => ∀ f ∈ draft.filter, P f) ?_ ?_ ?_ level
  · exact fun f hf => nomatch hf
  · intro field hfield
    simp only [record, List.mem_cons, List.not_mem_nil, or_false] at hfield
    rcases hfield with rfl | rfl | rfl
    · exact Field.keeps_map_of_forall fun o draft hdraft => hdraft
    · exact Field.keeps_map_of_forall fun s draft hdraft => hdraft
    · exact Field.keeps_map hfilter fun f draft hf _ => by simpa using hf
  · intro draft q hdraft h
    simp only [record, finish, bind_eq_ok_iff, required_eq_ok_iff] at h
    obtain ⟨o, -, s, -, f, hf, h⟩ := h
    cases h
    exact hdraft f hf

instance : ClosedCodec FilterQuery where
  ensures depth := by
    have hrecord := (record_ensures (Filter.reader_ensures (depth - 1)) depth).and
      (Record.ensures_depth _ depth)
    refine hrecord.imp fun q h => ?_
    obtain ⟨⟨hblank, hheight⟩, hdepth⟩ := h
    refine ⟨hblank, ?_⟩
    show 2 * q.filter.height + 1 ≤ depth
    omega

end FilterQuery
end Criteria
