import Criteria.Text.GraphemeExtend
import Criteria.Text.Unprintable

/-!
# Quoted text in messages

A message quotes a text so that each of its characters can be told.  Quotes,
backslashes and the common controls are written with a backslash, and a character
that cannot be printed, or that would melt into the one before it, is written as
its number in hexadecimal digits.
-/

namespace Criteria
namespace Text

def hexDigits (n : Nat) : String := String.ofList (Nat.toDigits 16 n)

def escapeForMessage (c : Char) : String :=
  match c with
  | '\x00' => "\\0"
  | '\t' => "\\t"
  | '\r' => "\\r"
  | '\n' => "\\n"
  | '\\' => "\\\\"
  | '\x22' => "\\\""
  | _ =>
    if isGraphemeExtend c || isUnprintable c then "\\u\x7b" ++ hexDigits c.toNat ++ "\x7d"
    else c.toString

def quoteForMessage (s : String) : String :=
  "\"" ++ String.join (s.toList.map escapeForMessage) ++ "\""

end Text
end Criteria
