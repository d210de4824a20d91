import Criteria.QueryError

/-!
# The parts of a filter query

Every scanner skips the white space before and behind its part.  It hands back
what it read and the characters behind that, or a mismatch at the place where it
could not go on.

An operator is read wherever its letters stand: what follows it may be a letter.
A combinator must not be followed by a letter.  A number may have letters before
its digits, which name a type and are dropped.
-/

namespace Criteria
namespace Filter
namespace Scan

open Text

/-! ## Fields -/

/-- The rest of a field path, behind a letter, and what follows it.  A slash
joins two names only if a letter stands behind it, and is read as a dot. -/
def pathTail : List Char → List Char × List Char
  | [] => ([], [])
  | '/' :: c :: s =>
    if c.isAlpha then
      let (path, rest) := pathTail s
      ('.' :: c :: path, rest)
    else ([], '/' :: c :: s)
  | c :: s =>
    if c.isAlpha then
      let (path, rest) := pathTail s
      (c :: path, rest)
    else ([], c :: s)

def field (s : List Char) : Except Mismatch (String × List Char) :=
  match skipSpace s with
  | [] => .error ⟨.fieldName, []⟩
  | c :: s =>
    if c.isAlpha then
      let (path, rest) := pathTail s
      .ok (String.ofList (c :: path), skipSpace rest)
    else .error ⟨.fieldName, c :: s⟩

theorem length_pathTail_le (s : List Char) : (pathTail s).2.length ≤ s.length := by
  fun_induction pathTail s <;> simp_all <;> omega

theorem length_field {s rest : List Char} {name : String} (h : field s = .ok (name, rest)) :
    rest.length < s.length := by
  unfold field at h
  split at h
  · cases h
  · rename_i c t heq
    split at h
    · cases h
      have h1 := length_skipSpace_le s
      have h2 := length_pathTail_le t
      have h3 := length_skipSpace_le (pathTail t).2
      simp only [heq, List.length_cons] at h1
      omega
    · cases h

/-! ## Operators -/

/-- The operator whose letters a text starts with, in any case. -/
def leadingOperator? (s : List Char) : Option (Operator × List Char) :=
  Operator.all.findSome? fun o => (dropWord? .caseless o.word s).map (o, ·)

def operator (s : List Char) : Except Mismatch (Operator × List Char) :=
  match leadingOperator? (skipSpace s) with
  | some (o, rest) => .ok (o, skipSpace rest)
  | none => .error ⟨.operator, skipSpace s⟩

theorem leadingOperator?_eq_some {s rest : List Char} {o : Operator}
    (h : leadingOperator? s = some (o, rest)) : dropWord? .caseless o.word s = some rest := by
  obtain ⟨o', -, h⟩ := List.exists_of_findSome?_eq_some h
  obtain ⟨r, hr, h⟩ := Option.map_eq_some_iff.1 h
  cases h
  exact hr

theorem length_operator {s rest : List Char} {o : Operator} (h : operator s = .ok (o, rest)) :
    rest.length ≤ s.length := by
  unfold operator at h
  split at h
  · rename_i o' rest' heq
    cases h
    have h1 := length_dropWord? (leadingOperator?_eq_some heq)
    have h2 := length_skipSpace_le s
    have h3 := length_skipSpace_le rest'
    omega
  · cases h

/-! ## Values -/

def isQuote (c : Char) : Bool := c == '\x27' || c == '\x22'

/-- The value behind an opening quote.  It ends at the first quote character of
either kind, which must be the one that opened it. -/
def quoted (quote : Char) (s : List Char) : Except Mismatch (String × List Char) :=
  match s.dropWhile (!isQuote ·) with
  | [] => .error ⟨.closingQuote quote, []⟩
  | c :: rest =>
    if c = quote then .ok (String.ofList (s.takeWhile (!isQuote ·)), skipSpace rest)
    else .error ⟨.closingQuote quote, c :: rest⟩

def digits (s : List Char) : Except Mismatch (String × List Char) :=
  match s.takeWhile Char.isDigit with
  | [] => .error ⟨.value, s⟩
  | ds => .ok (String.ofList ds, skipSpace (s.dropWhile Char.isDigit))

def number (s : List Char) : Except Mismatch (String × List Char) :=
  digits (s.dropWhile Char.isAlpha)

def value (s : List Char) : Except Mismatch (String × List Char) :=
  match skipSpace s with
  | [] => .error ⟨.value, []⟩
  | c :: s => if isQuote c then quoted c s else number (c :: s)

theorem length_quoted {quote : Char} {s rest : List Char} {v : String}
    (h : quoted quote s = .ok (v, rest)) : rest.length ≤ s.length := by
  unfold quoted at h
  split at h
  · cases h
  · rename_i c t heq
    split at h
    · cases h
      have h1 := (List.dropWhile_suffix (l := s) (!isQuote ·)).length_le
      have h2 := length_skipSpace_le t
      simp only [heq, List.length_cons] at h1
      omega
    · cases h

theorem length_digits {s rest : List Char} {v : String} (h : digits s = .ok (v, rest)) :
    rest.length ≤ s.length := by
  unfold digits at h
  split at h
  · cases h
  · cases h
    have h1 := (List.dropWhile_suffix (l := s) Char.isDigit).length_le
    have h2 := length_skipSpace_le (s.dropWhile Char.isDigit)
    omega

theorem length_number {s rest : List Char} {v : String} (h : number s = .ok (v, rest)) :
    rest.length ≤ s.length :=
  Nat.le_trans (length_digits h) (List.dropWhile_suffix Char.isAlpha).length_le

theorem length_value {s rest : List Char} {v : String} (h : value s = .ok (v, rest)) :
    rest.length ≤ s.length := by
  have h1 := length_skipSpace_le s
  unfold value at h
  split at h
  · cases h
  · rename_i c t heq
    simp only [heq, List.length_cons] at h1
    split at h
    · have := length_quoted h
      omega
    · have := length_number h
      simp only [List.length_cons] at this
      omega

/-! ## Predicates -/

/-- A comparison as it stands in the query.  Its value may be blank. -/
def predicate (s : List Char) : Except Mismatch (Predicate × List Char) := do
  let (field, s) ← field s
  let (operator, s) ← operator s
  let (value, rest) ← value s
  .ok (⟨field, operator, value⟩, rest)

theorem predicate_eq_ok_iff {s rest : List Char} {p : Predicate} :
    predicate s = .ok (p, rest) ↔
      ∃ s₁ s₂, field s = .ok (p.field, s₁) ∧ operator s₁ = .ok (p.operator, s₂) ∧
        value s₂ = .ok (p.value, rest) := by
  obtain ⟨f, o, v⟩ := p
  simp only [predicate, bind_eq_ok_iff, Prod.exists, Except.ok.injEq, Prod.mk.injEq,
    Predicate.mk.injEq]
  constructor
  · rintro ⟨f, s₁, h₁, o, s₂, h₂, v, r, h₃, ⟨rfl, rfl, rfl⟩, rfl⟩
    exact ⟨s₁, s₂, h₁, h₂, h₃⟩
  · rintro ⟨s₁, s₂, h₁, h₂, h₃⟩
    exact ⟨f, s₁, h₁, o, s₂, h₂, v, rest, h₃, ⟨rfl, rfl, rfl⟩, rfl⟩

theorem length_predicate {s rest : List Char} {p : Predicate}
    (h : predicate s = .ok (p, rest)) : rest.length < s.length := by
  obtain ⟨s₁, s₂, h₁, h₂, h₃⟩ := predicate_eq_ok_iff.1 h
  have := length_field h₁
  have := length_operator h₂
  have := length_value h₃
  omega

/-! ## Combinators -/

/-- The combinator whose letters a text starts with. -/
def leadingCombinator? (keywordCase : KeywordCase) (s : List Char) :
    Option (Combinator × List Char) :=
  Combinator.all.findSome? fun c => (dropWord? keywordCase c.word s).map (c, ·)

def combinator? (keywordCase : KeywordCase) (s : List Char) : Option (Combinator × List Char) :=
  match leadingCombinator? keywordCase (skipSpace s) with
  | some (c, rest) => if startsWithLetter rest then none else some (c, skipSpace rest)
  | none => none

theorem leadingCombinator?_eq_some {keywordCase : KeywordCase} {s rest : List Char}
    {c : Combinator} (h : leadingCombinator? keywordCase s = some (c, rest)) :
    dropWord? keywordCase c.word s = some rest := by
  obtain ⟨c', -, h⟩ := List.exists_of_findSome?_eq_some h
  obtain ⟨r, hr, h⟩ := Option.map_eq_some_iff.1 h
  cases h
  exact hr

theorem length_combinator? {keywordCase : KeywordCase} {s rest : List Char} {c : Combinator}
    (h : combinator? keywordCase s = some (c, rest)) : rest.length ≤ s.length := by
  unfold combinator? at h
  split at h
  · rename_i c' rest' heq
    split at h
    · cases h
    · cases h
      have h1 := length_dropWord? (leadingCombinator?_eq_some heq)
      have h2 := length_skipSpace_le s
      have h3 := length_skipSpace_le rest'
      omega
  · cases h

/-! ## The end of the query -/

def endOfQuery (s : List Char) : Except Mismatch Unit :=
  match skipSpace s with
  | [] => .ok ()
  | c :: s => .error ⟨.endOfQuery, c :: s⟩

end Scan
end Filter
end Criteria
