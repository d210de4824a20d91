import Criteria.Proofs.Json.Carrying

/-!
# Variants, records and lists read back

Each of them reads its parts from left to right, and opens one level more than the deepest
part if it writes brackets of its own.
-/

namespace Criteria
namespace Json

open Text

variable {α : Type} {depth : Nat}

/-! ## Items between brackets -/

/-- Items that are still to be read, the first of all or those behind another. -/
def writeFrom (isFirst : Bool) (ws : List Written) (rest : List Char) : List Char :=
  if isFirst then writeItems ws rest else writeTail ws rest

/-- What stands in front of an item. -/
def lead (isFirst : Bool) (s : List Char) : List Char := if isFirst then s else ',' :: s

theorem writeFrom_nil (isFirst : Bool) (rest : List Char) : writeFrom isFirst [] rest = rest := by
  cases isFirst <;> rfl

theorem writeFrom_cons (isFirst : Bool) (w : Written) (ws : List Written) (rest : List Char) :
    writeFrom isFirst (w :: ws) rest = lead isFirst (w (writeTail ws rest)) := by
  cases isFirst with
  | false =>
    show ',' :: writeItems (w :: ws) rest = _
    rw [writeItems_cons]
    rfl
  | true => exact writeItems_cons w ws rest

theorem delimited_writeTail (ws : List Written) {c : Char} (h : c ∈ [',', ']', '\x7d'])
    (rest : List Char) : Delimited (writeTail ws (c :: rest)) := by
  cases ws with
  | nil => exact delimited_cons h
  | cons w ws => exact delimited_cons (by decide)

theorem nextItem_end (isFirst : Bool) (rest : List Char) :
    nextItem isFirst (']' :: rest) = .ok (.finished rest) := rfl

theorem nextItem_lead (isFirst : Bool) {s : List Char} (h : Begins startsValue s) :
    nextItem isFirst (lead isFirst s) = .ok (.more s) := by
  have hskip := skipSpace_of_startsValue h
  cases s with
  | nil => exact absurd h (not_begins_nil _)
  | cons c s =>
    have hc : c ≠ ']' := by
      rintro rfl
      exact Bool.false_ne_true h
    cases isFirst with
    | true =>
      show nextItem true (c :: s) = _
      rw [nextItem, hskip]
      simp [hc]
    | false =>
      have hcomma : skipSpace (',' :: c :: s) = ',' :: c :: s := rfl
      show nextItem false (',' :: c :: s) = _
      rw [nextItem, hcomma]
      simp [hskip, hc]

theorem nextMember_end (isFirst : Bool) (rest : List Char) :
    nextMember isFirst ('\x7d' :: rest) = .ok (.finished rest) := rfl

theorem nextMember_lead (isFirst : Bool) (s : List Char) :
    nextMember isFirst (lead isFirst ('\x22' :: s)) = .ok (.more s) := by
  cases isFirst <;> rfl

/-! ## Lists -/

namespace Sequence

variable {item : Reader α} {write : α → Written} {levels : α → Nat}

/-- The levels of the deepest of some values. -/
def deepestOf (levels : α → Nat) (as : List α) : Nat := (as.map levels).foldr max 0

theorem deepestOf_le {as : List α} {n : Nat} (h : ∀ a ∈ as, levels a ≤ n) :
    deepestOf levels as ≤ n := by
  induction as with
  | nil => exact Nat.zero_le n
  | cons a as ih =>
    obtain ⟨ha, has⟩ := List.forall_mem_cons.1 h
    exact Nat.max_le.2 ⟨ha, ih has⟩

theorem readItems_end (isFirst : Bool) (rest : List Char) :
    readItems item isFirst (']' :: rest) = .ok ([], rest) := by
  rw [readItems]
  split
  · rename_i e he
    rw [nextItem_end] at he
    cases he
  · rename_i r hr
    rw [nextItem_end] at hr
    cases hr
    rfl
  · rename_i s hs
    rw [nextItem_end] at hs
    cases hs

theorem readItems_lead (isFirst : Bool) {s : List Char} (h : Begins startsValue s) :
    readItems item isFirst (lead isFirst s) = (item.run s >>= fun (a, rest) =>
      readItems item false rest >>= fun (as, rest) => .ok (a :: as, rest)) := by
  rw [readItems]
  split
  · rename_i e he
    rw [nextItem_lead isFirst h] at he
    cases he
  · rename_i r hr
    rw [nextItem_lead isFirst h] at hr
    cases hr
  · rename_i s' hs
    rw [nextItem_lead isFirst h] at hs
    cases hs
    cases item.run s with
    | error e => rfl
    | ok x => cases hrest : readItems item false x.2 <;> simp [hrest, bind, Except.bind]

theorem readItems_write (as : List α)
    (h : ∀ a ∈ as, Carries item depth (write a) a (levels a)) (isFirst : Bool)
    (rest : List Char) :
    readItems item isFirst (writeFrom isFirst (as.map write) (']' :: rest)) =
      within (deepestOf levels as) depth (as, rest) := by
  induction as generalizing isFirst with
  | nil =>
    rw [List.map_nil, writeFrom_nil, readItems_end]
    exact (within_zero _ _).symm
  | cons a as ih =>
    have ha := h a List.mem_cons_self
    have has := ih (fun b hb => h b (List.mem_cons_of_mem a hb)) false
    rw [List.map_cons, writeFrom_cons, readItems_lead isFirst (ha.starts _),
      ha.reads _ (delimited_writeTail _ (by decide) rest)]
    refine within_bind ?_
    show (readItems item false (writeFrom false _ _) >>= _) = _
    rw [has]
    exact within_bind_ok rfl

theorem nests_writeItems (as : List α)
    (h : ∀ a ∈ as, Nests (write a) (levels a)) :
    Nests (writeItems (as.map write)) (deepestOf levels as) := by
  induction as with
  | nil => exact nests_writeItems_nil
  | cons a as ih =>
    exact nests_writeItems_cons (h a List.mem_cons_self)
      (ih fun b hb => h b (List.mem_cons_of_mem a hb))

theorem carries {as : List α}
    (h : ∀ a ∈ as, Carries item (depth - 1) (write a) a (levels a)) :
    Carries (reader item depth) depth (writeList (as.map write)) as
      (deepestOf levels as + 1) where
  nests := nests_writeList (nests_writeItems as fun a ha => (h a ha).nests)
  starts _ := rfl
  reads rest _ := by
    show run item depth ('[' :: writeFrom true (as.map write) (']' :: rest)) = _
    cases depth with
    | zero => rfl
    | succ depth =>
      show readItems item true _ = _
      rw [readItems_write as h]
      simp [within]

end Sequence

/-! ## Variants -/

namespace Variant

variable {variants : List (Variant α)} {name : String} {a : α}

theorem carries_bare (h : pick variants name = .ok ⟨name, .bare a⟩) (depth : Nat) :
    Carries (reader variants depth) depth (writeText name) a 0 where
  nests := nests_writeText name
  starts _ := rfl
  reads rest _ := by
    have htext := readText_writeChars name rest
    show (readText _ >>= _) = _
    rw [htext, within_zero]
    show (pick variants name >>= _) = _
    rw [h]
    rfl

theorem carries_held {content : Reader α} {value : Written} {n : Nat}
    (h : pick variants name = .ok ⟨name, .held content⟩)
    (hvalue : Carries content (depth - 1) value a n) :
    Carries (reader variants depth) depth (writeObject [(name, value)]) a (n + 1) where
  nests := by
    have hmember : Nests (writeMember name value) n := nests_writeMember hvalue.nests
    have hitems := nests_writeItems_cons hmember nests_writeItems_nil
    rw [Nat.max_eq_left (Nat.zero_le n)] at hitems
    exact nests_writeObject hitems
  starts _ := rfl
  reads rest _ := by
    cases depth with
    | zero => rfl
    | succ depth =>
      have htext := readText_writeChars name (':' :: value ('\x7d' :: rest))
      show (readText _ >>= _) = _
      rw [htext]
      show (pick variants name >>= _) = _
      rw [h]
      show (content.run (value ('\x7d' :: rest)) >>= _) = _
      rw [hvalue.reads _ (delimited_cons (by decide))]
      refine Eq.trans (within_bind_ok (b := (a, rest)) ?_) ?_
      · rfl
      · simp [within]

end Variant

/-! ## Records -/

namespace Record

variable {δ : Type} {record : Record δ α}

def pieces (members : List (String × Written)) : List Written :=
  members.map fun (name, value) => writeMember name value

/-- Whether members fill a draft, one field each, and how many levels they have. -/
inductive Fills (record : Record δ α) (depth : Nat) :
    δ → List (String × Written) → δ → Nat → Prop
  | nil {draft : δ} : Fills record depth draft [] draft 0
  | cons {β : Type} {draft draft' : δ} {name key : String} {isSet : δ → Bool}
      {content : Reader β} {set : β → δ → δ} {value : Written} {b : β} {n m : Nat}
      {members : List (String × Written)}
      (hfield : record.field? name = some ⟨key, isSet, content.map set⟩)
      (hset : isSet draft = false) (hvalue : Carries content depth value b n)
      (h : Fills record depth (set b draft) members draft' m) :
      Fills record depth draft ((name, value) :: members) draft' (max n m)

variable {draft draft' : δ} {members : List (String × Written)} {n : Nat}

theorem Fills.nests (h : Fills record depth draft members draft' n) :
    Nests (writeItems (pieces members)) n := by
  induction h with
  | nil => exact nests_writeItems_nil
  | cons hfield hset hvalue h ih =>
    exact nests_writeItems_cons (nests_writeMember hvalue.nests) ih

theorem readMembers_of_finished {isFirst : Bool} {s rest : List Char}
    (h : nextMember isFirst s = .ok (.finished rest)) :
    record.readMembers isFirst draft s = .ok (draft, rest) := by
  rw [readMembers]
  split
  · rename_i e he
    rw [h] at he
    cases he
  · rename_i r hr
    rw [h] at hr
    cases hr
    rfl
  · rename_i s hs
    rw [h] at hs
    cases hs

/-- A member is read, and then those behind it. -/
theorem readMembers_of_more {isFirst : Bool} {s t u : List Char} {key : String}
    (hnext : nextMember isFirst s = .ok (.more t)) (hkey : readText t = .ok (key, u)) :
    record.readMembers isFirst draft s =
      (record.readMember draft key u >>= fun (draft, rest) =>
        record.readMembers false draft rest) := by
  rw [readMembers]
  split
  · rename_i e he
    exact absurd (he.symm.trans hnext) (by simp)
  · rename_i r hr
    exact absurd (hr.symm.trans hnext) (by simp)
  · rename_i s₁ hs
    cases hs.symm.trans hnext
    split
    · rename_i e he
      exact absurd (he.symm.trans hkey) (by simp)
    · rename_i key' s₂ hkey'
      cases hkey'.symm.trans hkey
      split
      · rename_i e he
        rw [he]
        rfl
      · rename_i draft' s₃ hmember
        rw [hmember]
        rfl

theorem readMembers_end (isFirst : Bool) (rest : List Char) :
    record.readMembers isFirst draft ('\x7d' :: rest) = .ok (draft, rest) :=
  readMembers_of_finished (nextMember_end isFirst rest)

theorem readMembers_pieces (isFirst : Bool) (name : String) (value : Written)
    (members : List (String × Written)) (s : List Char) :
    record.readMembers isFirst draft (writeFrom isFirst (pieces ((name, value) :: members)) s) =
      (record.readMember draft name (':' :: value (writeTail (pieces members) s)) >>=
        fun (draft, rest) => record.readMembers false draft rest) := by
  show record.readMembers isFirst draft (writeFrom isFirst (_ :: pieces members) s) = _
  rw [writeFrom_cons]
  exact readMembers_of_more (nextMember_lead isFirst _) (readText_writeChars name _)

/-- A field that has not been set yet is read from behind the colon. -/
theorem readMember_of_field {name : String} {field : Field δ} {s t : List Char}
    (hfield : record.field? name = some field) (hset : field.isSet draft = false)
    (hcolon : colon s = .ok t) :
    record.readMember draft name s =
      (field.reader.run t >>= fun (set, rest) => .ok (set draft, rest)) := by
  rw [readMember, hfield]
  dsimp only
  rw [if_neg (Bool.eq_false_iff.1 hset), hcolon]
  rfl

theorem readMember_unset {β : Type} {name key : String} {isSet : δ → Bool} {content : Reader β}
    {set : β → δ → δ} (hfield : record.field? name = some ⟨key, isSet, content.map set⟩)
    (hset : isSet draft = false) (s : List Char) :
    record.readMember draft name (':' :: s) =
      (content.run s >>= fun (b, rest) => .ok (set b draft, rest)) := by
  have hcolon : colon (':' :: s) = .ok s := rfl
  rw [readMember_of_field hfield hset hcolon]
  show ((content.run s >>= _) >>= _) = _
  cases content.run s <;> rfl

theorem readMembers_fills (h : Fills record depth draft members draft' n) (isFirst : Bool)
    (rest : List Char) :
    record.readMembers isFirst draft (writeFrom isFirst (pieces members) ('\x7d' :: rest)) =
      within n depth (draft', rest) := by
  induction h generalizing isFirst with
  | nil =>
    show record.readMembers isFirst _ (writeFrom isFirst [] _) = _
    rw [writeFrom_nil, readMembers_end, within_zero]
  | @cons β draft draft' name key isSet content set value b n m members hfield hset hvalue h ih =>
    have hread := hvalue.reads _
      (delimited_writeTail (pieces members) (c := '\x7d') (by decide) rest)
    have hmember : record.readMember draft name
        (':' :: value (writeTail (pieces members) ('\x7d' :: rest))) =
        within n depth (set b draft, writeTail (pieces members) ('\x7d' :: rest)) := by
      rw [readMember_unset hfield hset, hread]
      exact within_bind_ok rfl
    rw [readMembers_pieces, hmember]
    exact within_bind (ih false)

theorem carries {a : α} (h : Fills record (depth - 1) record.blank members draft n)
    (hfinish : record.finish draft = .ok a) :
    Carries (record.reader depth) depth (writeObject members) a (n + 1) where
  nests := nests_writeObject h.nests
  starts _ := rfl
  reads rest _ := by
    cases depth with
    | zero => rfl
    | succ depth =>
      show record.readMembers true record.blank
        (writeFrom true (pieces members) ('\x7d' :: rest)) >>= _ = _
      rw [readMembers_fills h]
      refine Eq.trans (within_bind_ok (b := (a, rest)) ?_) ?_
      · show (record.finish draft >>= _) = _
        rw [hfinish]
        rfl
      · simp [within]

end Record

end Json
end Criteria
