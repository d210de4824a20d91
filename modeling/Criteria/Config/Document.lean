import Criteria.Config
import Criteria.Json.Codec

/-!
# Documents of configurations

A configuration is read from a document in which any field may be missing, in which
case it has its default.  `Config.load` also takes the step from the bytes of a file,
and refuses a configuration that is not valid.
-/

namespace Criteria

open Json

namespace KeywordCase

def label : KeywordCase → String
  | exact => "exact"
  | caseless => "caseless"

instance : Codec KeywordCase := .bare label [exact, caseless]

end KeywordCase

namespace ChainShape

def label : ChainShape → String
  | threaded => "threaded"
  | leftNested => "left_nested"

instance : Codec ChainShape := .bare label [threaded, leftNested]

end ChainShape

namespace Config

structure Draft where
  keywordCase : Option KeywordCase := none
  chainShape : Option ChainShape := none
  maxLength : Option (Option UInt64) := none

/-- Missing fields take their defaults. -/
def finish (draft : Draft) : Config where
  keywordCase := draft.keywordCase.getD .caseless
  chainShape := draft.chainShape.getD .threaded
  maxLength := draft.maxLength.getD none

def record (depth : Nat) : Record Draft Config where
  name := "GrammarConfig"
  fields := [
    ⟨"combinator_case", (·.keywordCase.isSome),
      (Codec.reader depth).map fun x d => { d with keywordCase := some x }⟩,
    ⟨"chain_shape", (·.chainShape.isSome),
      (Codec.reader depth).map fun x d => { d with chainShape := some x }⟩,
    ⟨"max_query_length", (·.maxLength.isSome),
      wordReader.optional.map fun x d => { d with maxLength := some x }⟩]
  blank := {}
  mayBeShort := true
  finish draft := .ok (finish draft)

def write (config : Config) : Written :=
  writeObject [
    ("combinator_case", Codec.write config.keywordCase),
    ("chain_shape", Codec.write config.chainShape),
    ("max_query_length",
      match config.maxLength with
      | none => writeNull
      | some limit => writeNat limit.toNat)]

instance : Codec Config where
  reader depth := (record (depth - 1)).reader depth
  write := write

end Config

/-! ## Loading -/

/-- Why the bytes of a file are no text. -/
inductive Unreadable
  | missing
  | notText
  deriving DecidableEq

inductive ConfigError
  | unreadable (reason : Unreadable)
  | malformed (fault : Fault)
  | zeroLimit
  deriving DecidableEq

def Unreadable.message : Unreadable → String
  | missing => "No such file or directory (os error 2)"
  | notText => "stream did not contain valid UTF-8"

def ConfigError.message : ConfigError → String
  | unreadable reason => "Failed to read grammar configuration: " ++ reason.message
  | malformed fault => "Failed to parse grammar configuration: " ++ fault.message
  | zeroLimit => "Invalid grammar configuration: max_query_length must be greater than zero"

namespace Config

def ofDocument (document : String) : Except ConfigError Config := do
  let config ← (decode document).mapError .malformed
  if config.isValid then .ok config else .error .zeroLimit

/-- Loads a configuration from what a file holds, or from a file that is missing. -/
def load : Option ByteArray → Except ConfigError Config
  | none => .error (.unreadable .missing)
  | some bytes =>
    match String.fromUTF8? bytes with
    | none => .error (.unreadable .notText)
    | some document => ofDocument document

end Config
end Criteria
