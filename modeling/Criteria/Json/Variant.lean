import Criteria.Json.Items

/-!
# Variants

A value of a type with variants is read from the name of a variant, or from an
object whose one member has that name for its key and the content of the variant
for its value.  A variant without content has `null` there.
-/

namespace Criteria
namespace Json

open Text

inductive Content (α : Type)
  | bare (a : α)
  | held (reader : Reader α)

structure Variant (α : Type) where
  name : String
  content : Content α

namespace Variant

variable {α : Type}

def pick (variants : List (Variant α)) (name : String) : Except Fault (Variant α) :=
  match variants.find? (·.name == name) with
  | some v => .ok v
  | none => .error (.unfit (.unknownVariant name (variants.map Variant.name)))

/-- The value of a variant of which only the name is given. -/
def value (v : Variant α) : Except Fault α :=
  match v.content with
  | .bare a => .ok a
  | .held _ => .error (.unfit (.wrongType .bareVariant "newtype variant"))

def contentReader (v : Variant α) : Reader α :=
  match v.content with
  | .bare a => nullReader.map fun _ => a
  | .held reader => reader

/-- Reads the key behind an opening brace.  An object without members names no
variant, so there a value is missing. -/
def readName (s : List Char) : Except Fault (String × List Char) :=
  match skipSpace s with
  | [] => .error (.ended .object)
  | c :: t =>
    if c = '\x22' then readText t
    else .error (.malformed (if c = '\x7d' then .expectedValue else .keyNotText))

/-- Reads a variant from behind the opening brace. -/
def readTagged (variants : List (Variant α)) (s : List Char) : Except Fault (α × List Char) := do
  let (name, s) ← readName s
  let v ← pick variants name
  let s ← colon s
  let (a, s) ← v.contentReader.run s
  let rest ← closeObject s
  .ok (a, rest)

def run (variants : List (Variant α)) (depth : Nat) (s : List Char) :
    Except Fault (α × List Char) :=
  match skipSpace s with
  | [] => .error (.ended .value)
  | c :: t =>
    if c = '\x22' then do
      let (name, rest) ← readText t
      let v ← pick variants name
      let a ← v.value
      .ok (a, rest)
    else if c = '\x7b' then
      if depth = 0 then .error (.malformed .tooDeep) else readTagged variants t
    else .error (.malformed .expectedValue)

theorem length_readName {s rest : List Char} {name : String}
    (h : readName s = .ok (name, rest)) : rest.length < s.length := by
  have h1 := length_skipSpace_le s
  unfold readName at h
  split at h
  · cases h
  · rename_i c t heq
    simp only [heq, List.length_cons] at h1
    split at h
    · have := length_readText h
      omega
    · cases h

theorem length_readTagged {variants : List (Variant α)} {s rest : List Char} {a : α}
    (h : readTagged variants s = .ok (a, rest)) : rest.length < s.length := by
  simp only [readTagged, bind_eq_ok_iff, Prod.exists] at h
  obtain ⟨name, s₁, h₁, v, -, s₂, h₂, b, s₃, h₃, r, h₄, h₅⟩ := h
  cases h₅
  have := length_readName h₁
  have := length_colon h₂
  have := v.contentReader.shorter h₃
  have := length_closeObject h₄
  omega

theorem length_run {variants : List (Variant α)} {depth : Nat} {s rest : List Char} {a : α}
    (h : run variants depth s = .ok (a, rest)) : rest.length < s.length := by
  have h1 := length_skipSpace_le s
  unfold run at h
  split at h
  · cases h
  · rename_i c t heq
    simp only [heq, List.length_cons] at h1
    split at h
    · simp only [bind_eq_ok_iff, Prod.exists] at h
      obtain ⟨name, r, h₁, v, -, b, -, h₂⟩ := h
      cases h₂
      have := length_readText h₁
      omega
    · split at h
      · split at h
        · cases h
        · have := length_readTagged h
          omega
      · cases h

def reader (variants : List (Variant α)) (depth : Nat) : Reader α where
  run := run variants depth
  shorter := length_run

end Variant

/-- The variants of a type in which none has content. -/
def bareVariants {α : Type} (name : α → String) (all : List α) : List (Variant α) :=
  all.map fun a => ⟨name a, .bare a⟩

end Json
end Criteria
