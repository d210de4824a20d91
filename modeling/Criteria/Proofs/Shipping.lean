import Criteria.Proofs.Config.Document
import Criteria.Proofs.Filter.Json
import Criteria.Proofs.Filter.Outcome
import Criteria.Proofs.Sort.Json

/-!
# Values shipped as documents

Every value that can be shipped is read back from its document, up to the limit on its
levels.  For filters the limit is one on their height, and for queries one on their
predicates.
-/

namespace Criteria

open Json

namespace Filter

theorem nesting_encode_le_iff {f : Filter} (h : f.blankPart? = none) :
    nesting (encode f) ≤ 127 ↔ f.height ≤ 63 := by
  rw [nesting_encode h]
  show 2 * f.height ≤ 127 ↔ _
  omega

end Filter

namespace FilterQuery

theorem nesting_encode_le_iff {q : FilterQuery} (h : q.filter.blankPart? = none) :
    nesting (encode q) ≤ 127 ↔ q.filter.height ≤ 63 := by
  rw [nesting_encode h]
  show 2 * q.filter.height + 1 ≤ 127 ↔ _
  omega

end FilterQuery

/-- What is shipped is read back if its document has at most 127 levels, and otherwise fails
as too deep.  The limit is one of 63 nodes on the height of a filter, and so of 63
predicates on a query that has been read, whatever the shape of its chain. -/
theorem values_read_back :
    (∀ q : FilterQuery, q.filter.blankPart? = none →
      ReadsBack q ∧ (nesting (encode q) ≤ 127 ↔ q.filter.height ≤ 63)) ∧
    (∀ f : Filter, f.blankPart? = none →
      ReadsBack f ∧ (nesting (encode f) ≤ 127 ↔ f.height ≤ 63)) ∧
    (∀ j : Filter.Join, j.toFilter.blankPart? = none → ReadsBack j) ∧
    (∀ p : Predicate, p.blankPart? = none → ReadsBack p) ∧
    (∀ keys : List SortKey, ReadsBack keys) ∧
    (∀ config : Config, ReadsBack config) ∧
    (∀ (config : Config) (query : String) (q : FilterQuery),
      FilterQuery.parse config query = .ok q →
      (decode (encode q) = .ok q ↔ q.filter.leaves.length ≤ 63)) := by
  refine ⟨fun q h => ⟨readsBack h, FilterQuery.nesting_encode_le_iff h⟩,
    fun f h => ⟨readsBack h, Filter.nesting_encode_le_iff h⟩, fun j h => readsBack h,
    fun p h => readsBack h, fun keys => readsBack fun k _ => trivial,
    fun config => readsBack trivial, ?_⟩
  intro config query q h
  obtain ⟨hblank, hheight⟩ := FilterQuery.parse_not_blank_height h
  rw [← hheight, ← FilterQuery.nesting_encode_le_iff hblank]
  exact (readsBack hblank).1

/-- Two sides of the limit. -/
theorem values_read_back_limit :
    (∃ q, FilterQuery.parse {} "a eq 'x\x0cy' or b eq 2" = .ok q ∧ decode (encode q) = .ok q) ∧
    ∃ f : Filter, f.blankPart? = none ∧ f.height = 64 ∧
      ¬ (decode (encode f) : Except Fault Filter) = .ok f := by
  have hparse : FilterQuery.parse {} "a eq 'x\x0cy' or b eq 2" =
      .ok ⟨.dollarFilter, "a eq 'x\x0cy' or b eq 2",
        .join (.test ⟨"a", .equals, "x\x0cy"⟩) (.test ⟨"b", .equals, "2"⟩) .or⟩ := by
    with_unfolding_all rfl
  refine ⟨⟨_, hparse, (values_read_back.2.2.2.2.2.2 _ _ _ hparse).2 ?_⟩, ?_⟩
  · simp
  · have hblank : (Filter.leftNested (.test ⟨"a", .equals, "1"⟩)
        (List.replicate 63 (.and, .test ⟨"a", .equals, "1"⟩))).blankPart? = none := by
      decide +kernel
    have hheight : (Filter.leftNested (.test ⟨"a", .equals, "1"⟩)
        (List.replicate 63 (.and, .test ⟨"a", .equals, "1"⟩))).height = 64 := by
      decide +kernel
    have hships := values_read_back.2.1 _ hblank
    refine ⟨_, hblank, hheight, fun hok => ?_⟩
    have hlimit := hships.2.1 (hships.1.1.1 hok)
    omega

end Criteria
