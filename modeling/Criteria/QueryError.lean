import Criteria.Config
import Criteria.Text.Bytes

/-!
# Errors in queries

A scanner that fails says what it expected and hands back the characters from
which it could not go on.  `QueryError.ofMismatch` turns this into a position in
the query.
-/

namespace Criteria

/-- What would have let the reading of a query go on. -/
inductive Expectation
  | fieldName
  | operator
  | value
  /-- The quote character that opened the value. -/
  | closingQuote (quote : Char)
  | endOfQuery
  | propertyName
  | commaOrEnd
  /-- A further sort key, of which no more is said. -/
  | furtherKey
  deriving DecidableEq

namespace Expectation

def detail : Expectation → String
  | fieldName => "invalid field path; expected alphabetic field name"
  | operator => "invalid operator; expected one of eq, ne, gt, ge, lt, le, contains"
  | value => "invalid value; expected quoted string or number"
  | closingQuote quote =>
    "invalid quoted value; expected `" ++ quote.toString ++ "`, quoted string or number"
  | endOfQuery => "expected end of input"
  | propertyName => "invalid property; expected alphabetic property name"
  | commaOrEnd => "expected `,`, end of input"
  | furtherKey => "unexpected input"

end Expectation

structure Mismatch where
  expected : Expectation
  rest : List Char
  deriving DecidableEq

inductive QueryError
  /-- The query cannot be read beyond the byte `offset`. -/
  | malformed (offset : Nat) (expected : Expectation)
  | blank (part : BlankPart)
  | tooLong (length : Nat) (limit : UInt64)
  deriving DecidableEq

namespace QueryError

def ofMismatch (query : List Char) (m : Mismatch) : QueryError :=
  malformed (Text.offset query m.rest) m.expected

def message : QueryError → String
  | malformed offset expected =>
    "Syntax error at offset " ++ toString offset ++ ": " ++ expected.detail
  | blank part => "Invalid node: " ++ part.message
  | tooLong length limit =>
    "Query is " ++ toString length ++ " bytes long, the configured limit is " ++ toString limit

end QueryError

/-- Refuses a query that exceeds the configured limit. -/
def Config.checkLength (config : Config) (query : List Char) : Except QueryError Unit :=
  match config.exceeded? (Text.byteLength query) with
  | some limit => .error (.tooLong (Text.byteLength query) limit)
  | none => .ok ()

end Criteria
