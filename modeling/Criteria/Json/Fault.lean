import Criteria.Decimal.Notation
import Criteria.Text.Quoted

/-!
# Faults in documents

Reading a document fails because the document ends too early, because it is not
well formed, or because it is well formed and does not fit what is read.
-/

namespace Criteria
namespace Json

/-- The innermost thing that was still open where the document ended. -/
inductive Within
  | value
  | text
  | object
  | list
  deriving DecidableEq

inductive Flaw
  | expectedValue
  /-- A wrong letter in `true`, `false` or `null`. -/
  | brokenLiteral
  | invalidNumber
  | numberOutOfRange
  | keyNotText
  | expectedColon
  | expectedCommaOrBrace
  | expectedCommaOrBracket
  | trailingComma
  | trailingCharacters
  | invalidEscape
  /-- The first half of a surrogate pair without an escape behind it. -/
  | halfPair
  | loneSurrogate
  | controlCharacter
  /-- More levels opened than a document may have. -/
  | tooDeep
  deriving DecidableEq

/-- What stood in the document where something else was wanted. -/
inductive Found
  | null
  | boolean (b : Bool)
  | integer (i : Int)
  /-- A number that is no integer of 64 bits, as the bits of a double. -/
  | real (bits : UInt64)
  | text (s : String)
  | list
  | object
  /-- The name of a variant without content. -/
  | bareVariant
  deriving DecidableEq

inductive Mistake
  | wrongType (found : Found) (expected : String)
  | wrongValue (found : Found) (expected : String)
  | unknownVariant (name : String) (known : List String)
  | duplicateField (name : String)
  | missingField (name : String)
  | wrongLength (length : Nat) (expected : String)
  /-- A value that has the right type and is refused. -/
  | refused (reason : String)
  deriving DecidableEq

inductive Fault
  | ended (within : Within)
  | malformed (flaw : Flaw)
  | unfit (mistake : Mistake)
  deriving DecidableEq

def Within.name : Within → String
  | value => "a value"
  | text => "a string"
  | object => "an object"
  | list => "a list"

def Flaw.message : Flaw → String
  | expectedValue => "expected value"
  | brokenLiteral => "expected ident"
  | invalidNumber => "invalid number"
  | numberOutOfRange => "number out of range"
  | keyNotText => "key must be a string"
  | expectedColon => "expected `:`"
  | expectedCommaOrBrace => "expected `,` or `\x7d`"
  | expectedCommaOrBracket => "expected `,` or `]`"
  | trailingComma => "trailing comma"
  | trailingCharacters => "trailing characters"
  | invalidEscape => "invalid escape"
  | halfPair => "unexpected end of hex escape"
  | loneSurrogate => "lone leading surrogate in hex escape"
  | controlCharacter => "control character (\\u0000-\\u001F) found while parsing a string"
  | tooDeep => "recursion limit exceeded"

/-- Doubles in messages are positional from `0.00001` up to sixteen digits before
the point, always have a point there, and signed exponents elsewhere. -/
def realLayout : Decimal.Layout where
  lowest := -5
  highest := 15
  wholeSuffix := ".0"
  positiveMark := "e+"
  negativeMark := "e-"

def inBackticks (s : String) : String := "`" ++ s ++ "`"

def Found.name : Found → String
  | null => "null"
  | boolean b => "boolean " ++ inBackticks (if b then "true" else "false")
  | integer i => "integer " ++ inBackticks (toString i)
  | real bits => "floating point " ++ inBackticks (realLayout.writeDouble bits)
  | text s => "string " ++ Text.quoteForMessage s
  | list => "sequence"
  | object => "map"
  | bareVariant => "unit variant"

/-- The names that would have been right. -/
def expectedNames : List String → String
  | [] => "there are no variants"
  | [a] => "expected " ++ inBackticks a
  | [a, b] => "expected " ++ inBackticks a ++ " or " ++ inBackticks b
  | names => "expected one of " ++ String.intercalate ", " (names.map inBackticks)

def Mistake.message : Mistake → String
  | wrongType found expected => "invalid type: " ++ found.name ++ ", expected " ++ expected
  | wrongValue found expected => "invalid value: " ++ found.name ++ ", expected " ++ expected
  | unknownVariant name known =>
    "unknown variant " ++ inBackticks name ++ ", " ++ expectedNames known
  | duplicateField name => "duplicate field " ++ inBackticks name
  | missingField name => "missing field " ++ inBackticks name
  | wrongLength length expected =>
    "invalid length " ++ toString length ++ ", expected " ++ expected
  | refused reason => reason

namespace Fault

def message : Fault → String
  | ended within => "EOF while parsing " ++ within.name
  | malformed flaw => flaw.message
  | unfit mistake => mistake.message

/-- The kind of a fault as answers name it. -/
def category : Fault → String
  | ended _ => "eof"
  | malformed _ => "syntax"
  | unfit _ => "data"

end Fault
end Json
end Criteria
