import Criteria.Proofs.Json.Compound

/-!
# Lawful codecs

A lawful codec finds a value again in what it writes for it, as long as it may open all
levels of the document.  Past the limit a document fails as one that is too deep, and in no
other way.
-/

namespace Criteria
namespace Json

class LawfulCodec (α : Type) [Codec α] where
  /-- The levels of the document of a value. -/
  levels : α → Nat
  /-- The values that can be written and read back. -/
  valid : α → Prop
  carries : ∀ {a}, valid a → ∀ depth,
    Carries (Codec.reader depth) depth (Codec.write a) a (levels a)

variable {α : Type} [Codec α] [LawfulCodec α] {a : α}

open LawfulCodec Text

instance : LawfulCodec (List α) where
  levels as := Sequence.deepestOf levels as + 1
  valid as := ∀ a ∈ as, valid a
  carries h depth := Sequence.carries fun a ha => carries (h a ha) (depth - 1)

theorem nesting_encode (h : valid a) : nesting (encode a) = levels a :=
  nesting_of_nests (carries h 0).nests

/-- The value in a document that may have `depth` levels. -/
def decodeWithin {α : Type} [Codec α] (depth : Nat) (document : String) : Except Fault α := do
  let (a, rest) ← (Codec.reader depth).run document.toList
  match skipSpace rest with
  | [] => .ok a
  | _ => .error (.malformed .trailingCharacters)

theorem decodeWithin_encode (h : valid a) (depth : Nat) :
    decodeWithin depth (encode a) = within (nesting (encode a)) depth a := by
  have hread := (carries h depth).reads [] delimited_nil
  rw [nesting_encode h, decodeWithin, encode, String.toList_ofList, hread]
  refine within_bind_ok ?_
  rfl

theorem decode_encode (h : valid a) :
    decode (encode a) = within (nesting (encode a)) maxDepth a :=
  decodeWithin_encode h maxDepth

/-! ## The limit -/

/-- Whether a value is read back from its document if that nests at most 127 levels deep, and
fails as the document recursion limit says otherwise. -/
def ReadsBack {α : Type} [Codec α] (a : α) : Prop :=
  (decode (encode a) = .ok a ↔ nesting (encode a) ≤ 127) ∧
    (127 < nesting (encode a) → ∃ fault, (decode (encode a) : Except Fault α) = .error fault ∧
      fault.category = "syntax" ∧ fault.message = "recursion limit exceeded")

theorem readsBack (h : valid a) : ReadsBack a := by
  rw [ReadsBack, decode_encode h, maxDepth]
  constructor
  · constructor
    · intro hok
      by_cases hle : nesting (encode a) ≤ 127
      · exact hle
      · rw [within_of_lt (Nat.lt_of_not_le hle)] at hok
        cases hok
    · intro hle
      exact within_of_le hle a
  · intro hlt
    exact ⟨_, within_of_lt hlt a, rfl, rfl⟩

end Json
end Criteria
