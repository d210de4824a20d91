import Criteria.Filter.Query
import Criteria.Json.Codec

/-!
# Documents of filters

A predicate is a record of its field, value and operator, and a join one of its
sides and its combinator.  A filter is a variant that holds one of the two, so each
node of a filter opens two levels of the document.

A predicate that is read must have no blank part.  It is refused once its record is
complete.
-/

namespace Criteria

open Json

namespace Operator

def label : Operator → String
  | equals => "Equals"
  | notEquals => "NotEquals"
  | greaterThan => "GreaterThan"
  | greaterEquals => "GreaterEquals"
  | lessThan => "LessThan"
  | lessEquals => "LessEquals"
  | contains => "Contains"

instance : Codec Operator := .bare label all

end Operator

namespace Combinator

def label : Combinator → String
  | .and => "And"
  | .or => "Or"

instance : Codec Combinator := .bare label all

end Combinator

namespace QueryOption

def label : QueryOption → String
  | dollarFilter => "DollarFilter"

instance : Codec QueryOption := .bare label [dollarFilter]

end QueryOption

/-! ## Predicates -/

namespace Predicate

structure Draft where
  field : Option String := none
  value : Option String := none
  operator : Option Operator := none

def finish (draft : Draft) : Except Fault Predicate := do
  let field ← required "field" draft.field
  let value ← required "value" draft.value
  let operator ← required "operator" draft.operator
  (check ⟨field, operator, value⟩).mapError fun part => .unfit (.refused part.message)

def record (depth : Nat) : Record Draft Predicate where
  name := "ExpressionNodeFields"
  fields := [
    ⟨"field", (·.field.isSome), textReader.map fun x d => { d with field := some x }⟩,
    ⟨"value", (·.value.isSome), textReader.map fun x d => { d with value := some x }⟩,
    ⟨"operator", (·.operator.isSome),
      (Codec.reader depth).map fun x d => { d with operator := some x }⟩]
  blank := {}
  mayBeShort := false
  finish := finish

def write (p : Predicate) : Written :=
  writeObject [
    ("field", writeText p.field),
    ("value", writeText p.value),
    ("operator", Codec.write p.operator)]

instance : Codec Predicate where
  reader depth := (record (depth - 1)).reader depth
  write := write

end Predicate

/-! ## Filters -/

namespace Filter

/-- The parts of a join. -/
structure Join where
  left : Filter
  right : Filter
  combinator : Combinator
  deriving DecidableEq

namespace Join

def toFilter (j : Join) : Filter := join j.left j.right j.combinator

structure Draft where
  left : Option Filter := none
  right : Option Filter := none
  combinator : Option Combinator := none

def finish (draft : Draft) : Except Fault Join := do
  let left ← required "left_child" draft.left
  let right ← required "right_child" draft.right
  let combinator ← required "combinator" draft.combinator
  .ok ⟨left, right, combinator⟩

def record (side : Reader Filter) (depth : Nat) : Record Draft Join where
  name := "BinaryExpressionNode"
  fields := [
    ⟨"left_child", (·.left.isSome), side.map fun x d => { d with left := some x }⟩,
    ⟨"right_child", (·.right.isSome), side.map fun x d => { d with right := some x }⟩,
    ⟨"combinator", (·.combinator.isSome),
      (Codec.reader depth).map fun x d => { d with combinator := some x }⟩]
  blank := {}
  mayBeShort := false
  finish := finish

def write (left right : Written) (c : Combinator) : Written :=
  writeObject [("left_child", left), ("right_child", right), ("combinator", Codec.write c)]

end Join

/-- The variants of a filter, whose sides are read by `side`. -/
def variants (side : Reader Filter) (depth : Nat) : List (Variant Filter) := [
  ⟨"Binary", .held (((Join.record side (depth - 1)).reader depth).map Join.toFilter)⟩,
  ⟨"Expression", .held (((Predicate.record (depth - 1)).reader depth).map test)⟩]

/-- A node opens a level for its variant and one for its record.  Where there are
fewer left, the sides are never reached. -/
def reader : Nat → Reader Filter
  | 0 => Variant.reader (variants (.refuse _ (.malformed .tooDeep)) 0) 0
  | 1 => Variant.reader (variants (.refuse _ (.malformed .tooDeep)) 0) 1
  | depth + 2 => Variant.reader (variants (reader depth) (depth + 1)) (depth + 2)

def write : Filter → Written
  | test p => writeObject [("Expression", p.write)]
  | join l r c => writeObject [("Binary", Join.write l.write r.write c)]

instance : Codec Filter where
  reader := reader
  write := write

instance : Codec Join where
  reader depth := (Join.record (Codec.reader (depth - 1)) (depth - 1)).reader depth
  write j := Join.write j.left.write j.right.write j.combinator

end Filter

/-! ## Filter queries -/

namespace FilterQuery

structure Draft where
  option : Option QueryOption := none
  source : Option String := none
  filter : Option Filter := none

def finish (draft : Draft) : Except Fault FilterQuery := do
  let option ← required "option" draft.option
  let source ← required "source_text" draft.source
  let filter ← required "left_child" draft.filter
  .ok ⟨option, source, filter⟩

def record (depth : Nat) : Record Draft FilterQuery where
  name := "RootNode"
  fields := [
    ⟨"option", (·.option.isSome),
      (Codec.reader depth).map fun x d => { d with option := some x }⟩,
    ⟨"source_text", (·.source.isSome), textReader.map fun x d => { d with source := some x }⟩,
    ⟨"left_child", (·.filter.isSome),
      (Codec.reader depth).map fun x d => { d with filter := some x }⟩]
  blank := {}
  mayBeShort := false
  finish := finish

def write (q : FilterQuery) : Written :=
  writeObject [
    ("option", Codec.write q.option),
    ("source_text", writeText q.source),
    ("left_child", Codec.write q.filter)]

instance : Codec FilterQuery where
  reader depth := (record (depth - 1)).reader depth
  write := write

end FilterQuery
end Criteria
