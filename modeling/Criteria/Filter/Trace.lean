import Criteria.Filter.Walk

/-!
# Traces

A trace records the visits of a walk.  Every visit is logged as an event, and a
node becomes the index of its own event, so the event of a join names the events
of its two sides.  A trace may reject an operator or a combinator: the first visit
of a node that bears it is logged and then fails.
-/

namespace Criteria
namespace Filter

/-- What a node of a filter bears. -/
inductive Token
  | operator (operator : Operator)
  | combinator (combinator : Combinator)
  deriving DecidableEq

namespace Token

def text : Token → String
  | operator o => o.token
  | combinator c => c.token

/-- The reason a visit gives for failing at the token. -/
def rejection (t : Token) : String := "rejected " ++ t.text

def ofText? (s : String) : Option Token :=
  ((Operator.ofToken? s).map operator).or ((Combinator.ofToken? s).map combinator)

end Token

inductive Event
  | test (predicate : Predicate)
  | join (combinator : Combinator) (left right : Nat)
  deriving DecidableEq

namespace Event

def token : Event → Token
  | test p => .operator p.operator
  | join c _ _ => .combinator c

def text : Event → String
  | test p => p.field ++ "|" ++ p.operator.token ++ "|" ++ p.value
  | join c left right => toString left ++ " " ++ c.token ++ " " ++ toString right

end Event

/-- The events in the order of the visits, and what the walk came to: the index
of the last event, or the token that was rejected. -/
structure Trace where
  events : Array Event
  outcome : Except Token Nat

/-- A visit that may fail and keeps the log in either case. -/
abbrev Logged := ExceptT Token (StateM (Array Event))

/-- Logs an event and hands back its index, unless the event bears the rejected
token. -/
def record (reject : Option Token) (event : Event) : Logged Nat := do
  let log ← getThe (Array Event)
  set (log.push event)
  if reject = some event.token then throw event.token else pure log.size

def recorder (reject : Option Token) : Visitor Logged Nat where
  test p := record reject (.test p)
  join c left right := record reject (.join c left right)

def trace (reject : Option Token) (f : Filter) : Trace :=
  let (outcome, events) := (walk (recorder reject) f).run.run #[]
  ⟨events, outcome⟩

end Filter
end Criteria
