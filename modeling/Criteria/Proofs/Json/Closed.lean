import Criteria.Proofs.Json.Codec
import Criteria.Proofs.Json.Ensured

/-!
# Documents written anew

A document is written anew by reading a value from it and writing this value.  A closed codec
reads nothing that it could not write, and nothing with more levels than its reader may open.  So
whatever way a document is laid out, the one that is written for its value is read again, under
the same limit, and stays as it is from then on.
-/

namespace Criteria
namespace Json

open LawfulCodec Text

class ClosedCodec (α : Type) [Codec α] [LawfulCodec α] : Prop where
  /-- What is read is valid and has no more levels than may be opened. -/
  ensures : ∀ depth, (Codec.reader depth : Reader α).Ensures fun a => valid a ∧ levels a ≤ depth

instance {α : Type} [Codec α] [LawfulCodec α] [ClosedCodec α] : ClosedCodec (List α) where
  ensures depth := by
    refine (Sequence.ensures (ClosedCodec.ensures (depth - 1)) depth).imp fun as h => ?_
    obtain ⟨hitems, hdepth⟩ := h
    have hdeepest := Sequence.deepestOf_le fun a ha => (hitems a ha).2
    refine ⟨fun a ha => (hitems a ha).1, ?_⟩
    show Sequence.deepestOf levels as + 1 ≤ depth
    omega

/-- The document of the value that is read from a document. -/
def rewrite (α : Type) [Codec α] (document : String) : Except Fault String := do
  let a ← (decode document : Except Fault α)
  .ok (encode a)

/-- Whether the documents of a type settle when they are written anew: the value stays the same,
so does the document from the first time on, and it never goes over a limit under which its
value has been read. -/
structure Settles (α : Type) [Codec α] : Prop where
  value : ∀ document (a : α), decode document = .ok a → decode (encode a) = .ok a
  document : ∀ document written, rewrite α document = .ok written →
    rewrite α written = .ok written
  limit : ∀ depth document (a : α), decodeWithin depth document = .ok a →
    decodeWithin depth (encode a) = .ok a ∧ nesting (encode a) ≤ depth

variable {α : Type} [Codec α] [LawfulCodec α] [ClosedCodec α] {document : String} {a : α}
  {depth : Nat}

theorem ensures_of_decodeWithin (h : decodeWithin depth document = .ok a) :
    valid a ∧ levels a ≤ depth := by
  simp only [decodeWithin, bind_eq_ok_iff, Prod.exists] at h
  obtain ⟨b, rest, hb, h⟩ := h
  split at h
  · cases h
    exact ClosedCodec.ensures depth hb
  · cases h

theorem valid_of_decode (h : decode document = .ok a) : valid a :=
  (ensures_of_decodeWithin h).1

theorem decodeWithin_encode_of_decodeWithin (h : decodeWithin depth document = .ok a) :
    decodeWithin depth (encode a) = .ok a ∧ nesting (encode a) ≤ depth := by
  obtain ⟨hvalid, hlevels⟩ := ensures_of_decodeWithin h
  rw [← nesting_encode hvalid] at hlevels
  rw [decodeWithin_encode hvalid, within_of_le hlevels]
  exact ⟨rfl, hlevels⟩

theorem decode_encode_of_decode (h : decode document = .ok a) : decode (encode a) = .ok a := by
  have hwithin : decodeWithin maxDepth document = .ok a := h
  exact (decodeWithin_encode_of_decodeWithin hwithin).1

theorem settles : Settles α where
  value document a h := decode_encode_of_decode h
  document document written h := by
    obtain ⟨a, ha, hwritten⟩ := bind_eq_ok_iff.1 h
    cases hwritten
    exact bind_eq_ok_iff.2 ⟨a, decode_encode_of_decode ha, rfl⟩
  limit depth document a h := decodeWithin_encode_of_decodeWithin h

end Json
end Criteria
