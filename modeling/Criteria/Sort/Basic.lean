/-!
# Sort keys

A sort key names a property and the direction in which its values are sorted.
-/

namespace Criteria

inductive Direction
  | ascending
  | descending
  deriving DecidableEq

namespace Direction

instance : Inhabited Direction := ⟨ascending⟩

/-- The letters of the direction in a query. -/
def word : Direction → List Char
  | ascending => ['a', 's', 'c']
  | descending => ['d', 'e', 's', 'c']

def token (d : Direction) : String := String.ofList d.word

def all : List Direction := [ascending, descending]

theorem mem_all (d : Direction) : d ∈ all := by cases d <;> decide

/-- The direction with a given token. -/
def ofToken? (s : String) : Option Direction := all.find? (·.token == s)

end Direction

structure SortKey where
  property : String
  direction : Direction := default
  deriving DecidableEq, Inhabited

end Criteria
