import Criteria.Json.Skip

/-!
# Readers

A reader takes a value of one type from the start of a document and hands back the
characters behind it.  It carries the proof that it takes at least one character,
so whatever reads one value after another comes to an end.
-/

namespace Criteria
namespace Json

open Text

structure Reader (α : Type) where
  run : List Char → Except Fault (α × List Char)
  shorter : ∀ {s a rest}, run s = .ok (a, rest) → rest.length < s.length

namespace Reader

/-- The reader that takes nothing. -/
def refuse (α : Type) (fault : Fault) : Reader α where
  run _ := .error fault
  shorter h := by cases h

def map {α β : Type} (f : α → β) (reader : Reader α) : Reader β where
  run s := do
    let (a, rest) ← reader.run s
    .ok (f a, rest)
  shorter h := by
    simp only [bind_eq_ok_iff, Prod.exists] at h
    obtain ⟨a, r, h₁, h₂⟩ := h
    cases h₂
    exact reader.shorter h₁

end Reader

/-! ## Values of a wrong type -/

/-- What stands at the start of a text.  Literals, strings and numbers are read to
their ends, so a fault inside them is found first.  Lists and objects are not
looked into. -/
def find : List Char → Except Fault Found
  | [] => .error (.ended .value)
  | c :: s =>
    if c = 'n' then do
      let _ ← literal ['u', 'l', 'l'] s
      .ok .null
    else if c = 't' then do
      let _ ← literal ['r', 'u', 'e'] s
      .ok (.boolean true)
    else if c = 'f' then do
      let _ ← literal ['a', 'l', 's', 'e'] s
      .ok (.boolean false)
    else if c = '\x22' then do
      let (t, _) ← readText s
      .ok (.text t)
    else if c = '-' ∨ c.isDigit then do
      let (n, _) ← readNumber (c :: s)
      .ok n.found
    else match Bracket.ofChar? c with
      | some .list => .ok .list
      | some .object => .ok .object
      | none => .error (.malformed .expectedValue)

/-- The fault of a text that starts with something else than what is expected. -/
def misfit (expected : String) (s : List Char) : Fault :=
  match find s with
  | .error fault => fault
  | .ok found => .unfit (.wrongType found expected)

/-! ## Readers of plain values -/

def runText (s : List Char) : Except Fault (String × List Char) :=
  match skipSpace s with
  | '\x22' :: t => readText t
  | t => .error (misfit "a string" t)

theorem length_runText {s rest : List Char} {a : String} (h : runText s = .ok (a, rest)) :
    rest.length < s.length := by
  have h1 := length_skipSpace_le s
  unfold runText at h
  split at h
  · rename_i t heq
    simp only [heq, List.length_cons] at h1
    have := length_readText h
    omega
  · cases h

def textReader : Reader String where
  run := runText
  shorter := length_runText

/-- Reads what a variant without content may have for content. -/
def runNull (s : List Char) : Except Fault (Unit × List Char) :=
  match skipSpace s with
  | 'n' :: t => do
    let rest ← literal ['u', 'l', 'l'] t
    .ok ((), rest)
  | t => .error (misfit "unit" t)

theorem length_runNull {s rest : List Char} {a : Unit} (h : runNull s = .ok (a, rest)) :
    rest.length < s.length := by
  have h1 := length_skipSpace_le s
  unfold runNull at h
  split at h
  · rename_i t heq
    simp only [heq, List.length_cons] at h1
    simp only [bind_eq_ok_iff] at h
    obtain ⟨r, h₁, h₂⟩ := h
    cases h₂
    have := length_literal h₁
    omega
  · cases h

def nullReader : Reader Unit where
  run := runNull
  shorter := length_runNull

/-- The number as an unsigned integer of 64 bits. -/
def Number.word : Number → Except Fault UInt64
  | integer (.ofNat n) => .ok (UInt64.ofNat n)
  | integer i => .error (.unfit (.wrongValue (.integer i) "usize"))
  | real bits => .error (.unfit (.wrongType (.real bits) "usize"))

def runWord (s : List Char) : Except Fault (UInt64 × List Char) :=
  match skipSpace s with
  | [] => .error (.ended .value)
  | c :: t =>
    if c = '-' ∨ c.isDigit then do
      let (n, rest) ← readNumber (c :: t)
      let w ← n.word
      .ok (w, rest)
    else .error (misfit "usize" (c :: t))

/-- Reads `null` as no value, and anything else by the given function. -/
def runOptional {α : Type} (run : List Char → Except Fault (α × List Char)) (s : List Char) :
    Except Fault (Option α × List Char) :=
  match skipSpace s with
  | 'n' :: t => do
    let rest ← literal ['u', 'l', 'l'] t
    .ok (none, rest)
  | t => do
    let (a, rest) ← run t
    .ok (some a, rest)

theorem length_runWord {s rest : List Char} {w : UInt64} (h : runWord s = .ok (w, rest)) :
    rest.length < s.length := by
  have h1 := length_skipSpace_le s
  unfold runWord at h
  split at h
  · cases h
  · rename_i c t heq
    split at h
    · simp only [bind_eq_ok_iff, Prod.exists] at h
      obtain ⟨n, r, h₁, w', -, h₂⟩ := h
      cases h₂
      have := length_readNumber h₁
      rw [heq] at h1
      omega
    · cases h

def wordReader : Reader UInt64 where
  run := runWord
  shorter := length_runWord

def Reader.optional {α : Type} (reader : Reader α) : Reader (Option α) where
  run := runOptional reader.run
  shorter {s a rest} h := by
    have h1 := length_skipSpace_le s
    unfold runOptional at h
    split at h
    · rename_i t heq
      simp only [heq, List.length_cons] at h1
      simp only [bind_eq_ok_iff] at h
      obtain ⟨r, h₁, h₂⟩ := h
      cases h₂
      have := length_literal h₁
      omega
    · simp only [bind_eq_ok_iff, Prod.exists] at h
      obtain ⟨a', r, h₁, h₂⟩ := h
      cases h₂
      have := reader.shorter h₁
      omega

end Json
end Criteria
