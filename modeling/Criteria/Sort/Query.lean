import Criteria.Sort.Scan

/-!
# Sort queries

A sort query lists sort keys between commas, and a comma may stand behind the last
key.

Only the first key is asked for.  A later key that cannot be read ends the list
behind the last comma, and whatever is left there is the error.
-/

namespace Criteria
namespace SortKey

/-- The keys that can be read one after the other, and what follows the last. -/
def readMany (s : List Char) : List SortKey × List Char :=
  match _h : Scan.key s with
  | .error _ => ([], s)
  | .ok (k, s₁) =>
    let (ks, rest) := readMany s₁
    (k :: ks, rest)
termination_by s.length
decreasing_by exact Scan.length_key _h

theorem readMany_of_error {s : List Char} {m : Mismatch} (h : Scan.key s = .error m) :
    readMany s = ([], s) := by
  rw [readMany]
  split
  · rfl
  · rename_i heq
    rw [h] at heq
    cases heq

theorem readMany_of_ok {s s₁ : List Char} {k : SortKey} (h : Scan.key s = .ok (k, s₁)) :
    readMany s = (k :: (readMany s₁).1, (readMany s₁).2) := by
  rw [readMany]
  split
  · rename_i heq
    rw [h] at heq
    cases heq
  · rename_i heq
    rw [h] at heq
    cases heq
    rfl

def readAll (query : List Char) : Except Mismatch (List SortKey) := do
  let (first, s) ← Scan.key query
  let (keys, s) := readMany s
  match Text.skipSpace s with
  | [] => .ok (first :: keys)
  | c :: s => .error ⟨.furtherKey, c :: s⟩

/-- The sort keys of a query, in the order in which they stand there. -/
def parse (config : Config) (query : String) : Except QueryError (List SortKey) := do
  let text := query.toList
  config.checkLength text
  (readAll text).mapError (QueryError.ofMismatch text)

end SortKey
end Criteria
