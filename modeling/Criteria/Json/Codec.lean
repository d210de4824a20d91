import Criteria.Json.Record
import Criteria.Json.Sequence
import Criteria.Json.Variant
import Criteria.Json.Written

/-!
# Documents of a type

A type with a codec can be written as a document and read from one.  A document
that is read may have 127 levels.
-/

namespace Criteria
namespace Json

/-- How values of a type stand in a document. -/
class Codec (α : Type) where
  /-- Reads a value that may open `depth` levels. -/
  reader (depth : Nat) : Reader α
  write : α → Written

/-- A type whose variants have no content is written by name. -/
abbrev Codec.bare {α : Type} (name : α → String) (all : List α) : Codec α where
  reader := Variant.reader (bareVariants name all)
  write a := writeText (name a)

instance {α : Type} [Codec α] : Codec (List α) where
  reader depth := Sequence.reader (Codec.reader (depth - 1)) depth
  write as := writeList (as.map Codec.write)

def maxDepth : Nat := 127

/-- The document of a value. -/
def encode {α : Type} [Codec α] (a : α) : String := String.ofList (Codec.write a [])

/-- The value in a document, which may be followed by nothing but white space. -/
def decode {α : Type} [Codec α] (document : String) : Except Fault α := do
  let (a, rest) ← (Codec.reader maxDepth).run document.toList
  match Text.skipSpace rest with
  | [] => .ok a
  | _ => .error (.malformed .trailingCharacters)

end Json
end Criteria
