/-!
# Writing documents

A document is written without white space.  A piece of it is a function that puts
its characters in front of the characters that follow, so that nested pieces are
not copied again and again.
-/

namespace Criteria
namespace Json

abbrev Written := List Char → List Char

/-- The letter that stands for a character behind a backslash. -/
def escapeLetter? : Char → Option Char
  | '\x22' => some '\x22'
  | '\\' => some '\\'
  | '\x08' => some 'b'
  | '\x0c' => some 'f'
  | '\n' => some 'n'
  | '\r' => some 'r'
  | '\t' => some 't'
  | _ => none

/-- Quotes, backslashes and controls are escaped, and nothing else. -/
def escape (c : Char) : List Char :=
  match escapeLetter? c with
  | some d => ['\\', d]
  | none =>
    if c.toNat < 0x20 then
      ['\\', 'u', '0', '0', Nat.digitChar (c.toNat / 16), Nat.digitChar (c.toNat % 16)]
    else [c]

def writeChars : List Char → Written
  | [], rest => rest
  | c :: s, rest => escape c ++ writeChars s rest

def writeText (s : String) : Written :=
  fun rest => '\x22' :: writeChars s.toList ('\x22' :: rest)

def writeNull : Written := fun rest => 'n' :: 'u' :: 'l' :: 'l' :: rest

def writeNat (n : Nat) : Written := fun rest => Nat.toDigits 10 n ++ rest

/-- Pieces with a comma between any two. -/
def writeItems : List Written → Written
  | [], rest => rest
  | [w], rest => w rest
  | w :: ws, rest => w (',' :: writeItems ws rest)

def writeList (items : List Written) : Written :=
  fun rest => '[' :: writeItems items (']' :: rest)

def writeMember (name : String) (value : Written) : Written :=
  fun rest => writeText name (':' :: value rest)

def writeObject (members : List (String × Written)) : Written :=
  fun rest =>
    '\x7b' :: writeItems (members.map fun (name, value) => writeMember name value)
      ('\x7d' :: rest)

end Json
end Criteria
