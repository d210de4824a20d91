import Criteria.Json.Codec
import Criteria.Sort.Basic

/-!
# Documents of sort keys
-/

namespace Criteria

open Json

namespace Direction

def label : Direction → String
  | ascending => "Ascending"
  | descending => "Descending"

instance : Codec Direction := .bare label all

end Direction

namespace SortKey

structure Draft where
  property : Option String := none
  direction : Option Direction := none

def finish (draft : Draft) : Except Fault SortKey := do
  let property ← required "property_name" draft.property
  let direction ← required "direction" draft.direction
  .ok ⟨property, direction⟩

def record (depth : Nat) : Record Draft SortKey where
  name := "SortedProperty"
  fields := [
    ⟨"property_name", (·.property.isSome),
      textReader.map fun x d => { d with property := some x }⟩,
    ⟨"direction", (·.direction.isSome),
      (Codec.reader depth).map fun x d => { d with direction := some x }⟩]
  blank := {}
  mayBeShort := false
  finish := finish

def write (k : SortKey) : Written :=
  writeObject [("property_name", writeText k.property), ("direction", Codec.write k.direction)]

instance : Codec SortKey where
  reader depth := (record (depth - 1)).reader depth
  write := write

end SortKey
end Criteria
