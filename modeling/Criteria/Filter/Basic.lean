import Criteria.Text.Blank

/-!
# Filters

A filter is a tree of predicates joined by `and` and `or`.  Values of `Filter`
are plain data: a predicate drawn up by hand may have a blank field or value.
Whatever reads a filter from outside checks it with `Filter.check`, which reports
the leftmost blank part.
-/

namespace Criteria

inductive Operator
  | equals
  | notEquals
  | greaterThan
  | greaterEquals
  | lessThan
  | lessEquals
  | contains
  deriving DecidableEq, Inhabited

namespace Operator

/-- The letters of the operator in a query. -/
def word : Operator → List Char
  | equals => ['e', 'q']
  | notEquals => ['n', 'e']
  | greaterThan => ['g', 't']
  | greaterEquals => ['g', 'e']
  | lessThan => ['l', 't']
  | lessEquals => ['l', 'e']
  | contains => ['c', 'o', 'n', 't', 'a', 'i', 'n', 's']

def token (o : Operator) : String := String.ofList o.word

def all : List Operator :=
  [equals, notEquals, greaterThan, greaterEquals, lessThan, lessEquals, contains]

theorem mem_all (o : Operator) : o ∈ all := by cases o <;> decide

/-- The operator with a given token. -/
def ofToken? (s : String) : Option Operator := all.find? (·.token == s)

end Operator

inductive Combinator
  | and
  | or
  deriving DecidableEq, Inhabited

namespace Combinator

/-- The letters of the combinator in a query. -/
def word : Combinator → List Char
  | .and => ['a', 'n', 'd']
  | .or => ['o', 'r']

def token (c : Combinator) : String := String.ofList c.word

def all : List Combinator := [.and, .or]

theorem mem_all (c : Combinator) : c ∈ all := by cases c <;> decide

/-- The combinator with a given token. -/
def ofToken? (s : String) : Option Combinator := all.find? (·.token == s)

end Combinator

/-- The part of a predicate that is blank although it must not be. -/
inductive BlankPart
  | field
  | value
  deriving DecidableEq, Inhabited

namespace BlankPart

def message : BlankPart → String
  | field => "Expression field must not be blank"
  | value => "Expression value must not be blank"

end BlankPart

/-- A comparison of a field with a literal value. -/
structure Predicate where
  field : String
  operator : Operator
  value : String
  deriving DecidableEq, Inhabited

namespace Predicate

/-- The first blank part of a predicate.  The field is looked at before the value. -/
def blankPart? (p : Predicate) : Option BlankPart :=
  if Text.isBlank p.field then some .field
  else if Text.isBlank p.value then some .value
  else none

theorem blankPart?_eq_none_iff {p : Predicate} :
    p.blankPart? = none ↔ Text.isBlank p.field = false ∧ Text.isBlank p.value = false := by
  unfold blankPart?
  split
  · simp_all
  · split <;> simp_all

/-- Both strings are kept as they are, white space at their ends included. -/
def check (p : Predicate) : Except BlankPart Predicate :=
  match p.blankPart? with
  | some part => .error part
  | none => .ok p

end Predicate

inductive Filter
  | test (predicate : Predicate)
  | join (left right : Filter) (combinator : Combinator)
  deriving DecidableEq, Inhabited

namespace Filter

/-- The blank part of the leftmost predicate that has one. -/
def blankPart? : Filter → Option BlankPart
  | test p => p.blankPart?
  | join l r _ => l.blankPart?.or r.blankPart?

/-- A filter without a blank part, or the first blank part from the left. -/
def check (f : Filter) : Except BlankPart Filter :=
  match f.blankPart? with
  | some part => .error part
  | none => .ok f

/-- The number of predicates and joins on the longest path down. -/
def height : Filter → Nat
  | test _ => 1
  | join l r _ => max l.height r.height + 1

/-- The number of predicates and joins. -/
def size : Filter → Nat
  | test _ => 1
  | join l r _ => l.size + r.size + 1

theorem size_pos (f : Filter) : 0 < f.size := by
  cases f <;> simp [size]

end Filter
end Criteria
