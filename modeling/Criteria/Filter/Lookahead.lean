import Criteria.Filter.Basic
import Criteria.Text.Scan

/-!
# Looking ahead for a combinator

A query is read as a chain only if a combinator stands somewhere in it with white
space on both sides.  The search knows nothing of the structure of the query, so
a combinator inside a quoted value is found as well, and it never regards case.
-/

namespace Criteria
namespace Filter

/-- Whether a text starts with white space, `word` in any case, and white space. -/
def startsSpaced (word : List Char) : List Char → Bool
  | [] => false
  | a :: s =>
    a.isWhitespace &&
      match Text.dropWord? .caseless word s with
      | some (b :: _) => b.isWhitespace
      | _ => false

def hasSpaced (word : List Char) : List Char → Bool
  | [] => false
  | a :: s => startsSpaced word (a :: s) || hasSpaced word s

/-- The combinator found in a query.  `or` is looked for before `and`. -/
def lookahead (query : List Char) : Option Combinator :=
  if hasSpaced Combinator.or.word query then some .or
  else if hasSpaced Combinator.and.word query then some .and
  else none

end Filter
end Criteria
