import Criteria.Filter.Basic

/-!
# Walking a filter

A visitor turns a filter into something else from the bottom up, such as a condition
of a database.  A visit may keep state and may fail; both are the business of the
monad `m`.  The left side of a join is walked before the right side, and the join
itself is visited last, with what its sides became.
-/

namespace Criteria
namespace Filter

structure Visitor (m : Type → Type) (α : Type) where
  test : Predicate → m α
  join : Combinator → α → α → m α

def walk {m : Type → Type} [Monad m] {α : Type} (visitor : Visitor m α) : Filter → m α
  | .test p => visitor.test p
  | .join l r c => do
    let left ← walk visitor l
    let right ← walk visitor r
    visitor.join c left right

end Filter
end Criteria
