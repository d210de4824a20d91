import Criteria.Filter.Walk

/-!
# Rendering a filter

A filter is shown with every join in parentheses.  Values are shown as they are,
without quotes.
-/

namespace Criteria

def Predicate.render (p : Predicate) : String :=
  p.field ++ " " ++ p.operator.token ++ " " ++ p.value

namespace Filter

def renderer : Visitor Id String where
  test p := p.render
  join c left right := "(" ++ left ++ " " ++ c.token ++ " " ++ right ++ ")"

def render (f : Filter) : String := walk renderer f

@[simp]
theorem render_test (p : Predicate) : (test p).render = p.render := rfl

@[simp]
theorem render_join (l r : Filter) (c : Combinator) :
    (join l r c).render = "(" ++ l.render ++ " " ++ c.token ++ " " ++ r.render ++ ")" := rfl

end Filter
end Criteria
