/-!
# Scanning characters

Queries are scanned over lists of characters.  The white space between tokens is
space, tab, line feed and carriage return, and letters and digits are those of
ASCII, which are the classes `Char.isWhitespace`, `Char.isAlpha` and
`Char.isDigit`.
-/

namespace Criteria

/-- How the letters of a keyword are matched.  Keywords are spelled in lower
case, so matching without regard to case folds the character read. -/
inductive KeywordCase
  | exact
  | caseless
  deriving DecidableEq, Inhabited

namespace KeywordCase

def fold : KeywordCase → Char → Char
  | .exact, c => c
  | .caseless, c => c.toLower

end KeywordCase

/-- Two scanners in turn succeed if both do. -/
theorem bind_eq_ok_iff {ε α β : Type} {x : Except ε α} {f : α → Except ε β} {b : β} :
    x >>= f = .ok b ↔ ∃ a, x = .ok a ∧ f a = .ok b := by
  cases x <;> simp [bind, Except.bind]

namespace Text

def skipSpace (s : List Char) : List Char := s.dropWhile Char.isWhitespace

/-- What follows `word` at the start of a text, if `word` stands there.  The
character behind the word is not looked at. -/
def dropWord? (keywordCase : KeywordCase) : List Char → List Char → Option (List Char)
  | [], s => some s
  | _ :: _, [] => none
  | k :: word, c :: s =>
    if keywordCase.fold c = k then dropWord? keywordCase word s else none

def startsWithLetter : List Char → Bool
  | [] => false
  | c :: _ => c.isAlpha

theorem length_skipSpace_le (s : List Char) : (skipSpace s).length ≤ s.length :=
  (List.dropWhile_suffix Char.isWhitespace).length_le

theorem length_dropWord? {keywordCase : KeywordCase} {word s rest : List Char}
    (h : dropWord? keywordCase word s = some rest) :
    rest.length + word.length = s.length := by
  induction word generalizing s with
  | nil => simp_all [dropWord?]
  | cons k word ih =>
    cases s with
    | nil => simp [dropWord?] at h
    | cons c s =>
      simp only [dropWord?] at h
      split at h
      · have := ih h
        simp only [List.length_cons]
        omega
      · cases h

end Text
end Criteria
