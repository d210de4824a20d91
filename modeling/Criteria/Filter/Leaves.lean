import Criteria.Filter.Basic

/-!
# The predicates of a filter

`leaves` lists the predicates from left to right.  It keeps a list of the
subtrees still to be listed, so a deep filter needs no deep recursion.
-/

namespace Criteria
namespace Filter

/-- The number of predicates and joins of several filters. -/
def sizes : List Filter → Nat
  | [] => 0
  | f :: fs => f.size + sizes fs

/-- The predicates of several filters in turn.  A join is replaced by its two
sides, which together are smaller than the join. -/
def gather : List Filter → List Predicate
  | [] => []
  | test p :: pending => p :: gather pending
  | join l r _ :: pending => gather (l :: r :: pending)
termination_by pending => sizes pending
decreasing_by all_goals simp only [sizes, size]; omega

def leaves (f : Filter) : List Predicate := gather [f]

theorem gather_append (fs gs : List Filter) : gather (fs ++ gs) = gather fs ++ gather gs := by
  fun_induction gather fs with
  | case1 => rfl
  | case2 p pending ih => simp [gather, ih]
  | case3 l r c pending ih => simpa [gather] using ih

@[simp]
theorem leaves_test (p : Predicate) : (test p).leaves = [p] := by
  simp [leaves, gather]

@[simp]
theorem leaves_join (l r : Filter) (c : Combinator) :
    (join l r c).leaves = l.leaves ++ r.leaves := by
  simpa [leaves, gather] using gather_append [l] [r]

end Filter
end Criteria
