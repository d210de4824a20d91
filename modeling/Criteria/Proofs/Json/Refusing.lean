import Criteria.Proofs.Json.Compound

/-!
# Pieces of documents that are refused

A reader refuses a piece of a document if it ends with the same fault whatever stands behind
the piece.  A record is refused with the first of its members that is, if those in front of it
are read, or else by the last step, which makes the record out of all members.
-/

namespace Criteria
namespace Json

open Text

variable {α : Type} {depth : Nat} {value : Written} {fault : Fault} {name : String}

def Refuses (reader : Reader α) (w : Written) (fault : Fault) : Prop :=
  ∀ rest, reader.run (w rest) = .error fault

theorem Refuses.map {β : Type} {reader : Reader α} (h : Refuses reader value fault) (f : α → β) :
    Refuses (reader.map f) value fault := by
  intro rest
  show (reader.run (value rest) >>= _) = _
  rw [h rest]
  rfl

theorem decode_encode_of_refuses [Codec α] {a : α}
    (h : Refuses (Codec.reader maxDepth : Reader α) (Codec.write a) fault) :
    (decode (encode a) : Except Fault α) = .error fault := by
  rw [decode, encode, String.toList_ofList, h []]
  rfl

/-! ## Variants -/

theorem Variant.refuses_held {variants : List (Variant α)} {content : Reader α}
    (h : pick variants name = .ok ⟨name, .held content⟩) (hdepth : 0 < depth)
    (hvalue : Refuses content value fault) :
    Refuses (reader variants depth) (writeObject [(name, value)]) fault := by
  obtain ⟨depth, rfl⟩ := Nat.exists_eq_add_of_lt hdepth
  intro rest
  have htext := readText_writeChars name (':' :: value ('\x7d' :: rest))
  show (readText _ >>= _) = _
  rw [htext]
  show (pick variants name >>= _) = _
  rw [h]
  show (content.run (value ('\x7d' :: rest)) >>= _) = _
  rw [hvalue]
  rfl

/-! ## Records -/

namespace Record

variable {δ : Type} {record : Record δ α} {draft draft' : δ} {n : Nat}
  {front behind members : List (String × Written)}

/-- Reading members comes down to those that are left when a draft has been filled.  These are the
first ones of all if nothing stands in front of them. -/
theorem readMembers_append (hfront : Fills record depth draft front draft' n) (hn : n ≤ depth)
    {rest : List Char} {answer : Except Fault (δ × List Char)}
    (hbehind : ∀ isFirst, record.readMembers isFirst draft'
      (writeFrom isFirst (pieces behind) ('\x7d' :: rest)) = answer) (isFirst : Bool) :
    record.readMembers isFirst draft
      (writeFrom isFirst (pieces (front ++ behind)) ('\x7d' :: rest)) = answer := by
  induction hfront generalizing isFirst with
  | nil => exact hbehind isFirst
  | @cons β draft draft' name key isSet content set value b n m members hfield hset hvalue h ih =>
    have hread := hvalue.reads _
      (delimited_writeTail (pieces (members ++ behind)) (c := '\x7d') (by decide) rest)
    rw [within_of_le (Nat.le_trans (Nat.le_max_left n m) hn)] at hread
    rw [List.cons_append, readMembers_pieces, readMember_unset hfield hset, hread]
    exact ih (Nat.le_trans (Nat.le_max_right n m) hn) hbehind false

/-- A record is refused with the first member that is. -/
theorem refuses_member {β : Type} {key : String} {isSet : δ → Bool} {content : Reader β}
    {set : β → δ → δ} (hfront : Fills record (depth - 1) record.blank front draft n)
    (hn : n < depth) (hfield : record.field? name = some ⟨key, isSet, content.map set⟩)
    (hset : isSet draft = false) (hvalue : Refuses content value fault) :
    Refuses (record.reader depth) (writeObject (front ++ (name, value) :: behind)) fault := by
  obtain ⟨depth, rfl⟩ := Nat.exists_eq_add_of_lt hn
  intro rest
  have hmember : ∀ isFirst, record.readMembers isFirst draft
      (writeFrom isFirst (pieces ((name, value) :: behind)) ('\x7d' :: rest)) =
        .error fault := by
    intro isFirst
    rw [readMembers_pieces, readMember_unset hfield hset, hvalue]
    rfl
  show record.readMembers true record.blank
    (writeFrom true (pieces (front ++ _)) ('\x7d' :: rest)) >>= _ = _
  rw [readMembers_append hfront (by omega) hmember]
  rfl

/-- A record that no member speaks against is refused once it is complete. -/
theorem refuses_finish (h : Fills record (depth - 1) record.blank members draft n)
    (hn : n < depth) (hfinish : record.finish draft = .error fault) :
    Refuses (record.reader depth) (writeObject members) fault := by
  obtain ⟨depth, rfl⟩ := Nat.exists_eq_add_of_lt hn
  intro rest
  show record.readMembers true record.blank
    (writeFrom true (pieces members) ('\x7d' :: rest)) >>= _ = _
  rw [readMembers_fills h, within_of_le (by omega)]
  show (record.finish draft >>= _) = _
  rw [hfinish]
  rfl

end Record

end Json
end Criteria
