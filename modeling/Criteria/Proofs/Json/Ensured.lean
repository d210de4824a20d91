import Criteria.Json.Codec

/-!
# What readers ensure

A property of all values that a reader hands out, whatever document it is given.  For a record
it is enough that every field keeps a property of drafts from which the record is finished.
-/

namespace Criteria
namespace Json

/-- Whether all values that are read have a property. -/
def Reader.Ensures {α : Type} (reader : Reader α) (P : α → Prop) : Prop :=
  ∀ ⦃s a rest⦄, reader.run s = .ok (a, rest) → P a

variable {α β δ : Type} {P : α → Prop}

namespace Reader

theorem ensures_refuse (fault : Fault) : (refuse α fault).Ensures P := nofun

theorem Ensures.imp {reader : Reader α} {Q : α → Prop} (h : reader.Ensures P)
    (hQ : ∀ a, P a → Q a) : reader.Ensures Q :=
  fun _ a _ hread => hQ a (h hread)

theorem Ensures.and {reader : Reader α} {Q : α → Prop} (hP : reader.Ensures P)
    (hQ : reader.Ensures Q) : reader.Ensures fun a => P a ∧ Q a :=
  fun _ _ _ hread => ⟨hP hread, hQ hread⟩

theorem Ensures.map {reader : Reader α} {f : α → β} {Q : β → Prop} (h : reader.Ensures P)
    (hf : ∀ a, P a → Q (f a)) : (reader.map f).Ensures Q := by
  intro s b rest hread
  simp only [Reader.map, bind_eq_ok_iff, Prod.exists] at hread
  obtain ⟨a, r, ha, hb⟩ := hread
  cases hb
  exact hf a (h ha)

theorem ensures_map (reader : Reader α) {f : α → β} {Q : β → Prop} (hf : ∀ a, Q (f a)) :
    (reader.map f).Ensures Q :=
  Ensures.map (P := fun _ => True) (fun _ _ _ _ => trivial) fun a _ => hf a

end Reader

theorem required_eq_ok_iff {name : String} {o : Option α} {a : α} :
    required name o = .ok a ↔ o = some a := by
  cases o <;> simp [required]

/-! ## Variants -/

namespace Variant

/-- Whether the value of a variant has a property, or all values that it can hold. -/
def Ensures (v : Variant α) (P : α → Prop) : Prop :=
  match v.content with
  | .bare a => P a
  | .held reader => reader.Ensures P

theorem mem_of_pick {variants : List (Variant α)} {name : String} {v : Variant α}
    (h : pick variants name = .ok v) : v ∈ variants := by
  unfold pick at h
  split at h
  · rename_i hfind
    cases h
    exact List.mem_of_find?_eq_some hfind
  · cases h

theorem Ensures.value {v : Variant α} {a : α} (h : v.Ensures P) (hv : v.value = .ok a) : P a := by
  unfold Variant.value at hv
  unfold Variant.Ensures at h
  split at hv
  · rename_i heq
    rw [heq] at h
    cases hv
    exact h
  · cases hv

theorem Ensures.contentReader {v : Variant α} (h : v.Ensures P) : v.contentReader.Ensures P := by
  unfold Variant.contentReader
  unfold Variant.Ensures at h
  split
  · rename_i heq
    rw [heq] at h
    exact Reader.ensures_map _ fun _ => h
  · rename_i heq
    rw [heq] at h
    exact h

theorem ensures {variants : List (Variant α)} (h : ∀ v ∈ variants, v.Ensures P) (depth : Nat) :
    (reader variants depth).Ensures P := by
  intro s a rest hread
  change run variants depth s = _ at hread
  unfold run at hread
  split at hread
  · cases hread
  · split at hread
    · simp only [bind_eq_ok_iff, Prod.exists] at hread
      obtain ⟨name, r, -, v, hv, b, hb, hread⟩ := hread
      cases hread
      exact (h v (mem_of_pick hv)).value hb
    · split at hread
      · split at hread
        · cases hread
        · simp only [readTagged, bind_eq_ok_iff, Prod.exists] at hread
          obtain ⟨name, s₁, -, v, hv, s₂, -, b, s₃, hb, r, -, hread⟩ := hread
          cases hread
          exact (h v (mem_of_pick hv)).contentReader hb
      · cases hread

end Variant

/-! ## Records -/

/-- Whether setting a field to what is read for it keeps a property of drafts. -/
def Field.Keeps (field : Field δ) (P : δ → Prop) : Prop :=
  field.reader.Ensures fun set => ∀ draft, P draft → P (set draft)

namespace Field

variable {name : String} {isSet : δ → Bool} {content : Reader β} {set : β → δ → δ}
  {D : δ → Prop} {Q : β → Prop}

theorem keeps_map (hcontent : content.Ensures Q)
    (hset : ∀ b draft, Q b → D draft → D (set b draft)) :
    Keeps ⟨name, isSet, content.map set⟩ D :=
  Reader.Ensures.map hcontent fun b hb draft hdraft => hset b draft hb hdraft

/-- A field on which the property does not depend may hold any value. -/
theorem keeps_map_of_forall (hset : ∀ b draft, D draft → D (set b draft)) :
    Keeps ⟨name, isSet, content.map set⟩ D :=
  Reader.ensures_map content hset

end Field

namespace Record

variable {record : Record δ α} {D : δ → Prop} {draft draft' : δ} {s rest : List Char}

theorem readMember_keeps (hfields : ∀ field ∈ record.fields, field.Keeps D) (hdraft : D draft)
    {key : String} (h : record.readMember draft key s = .ok (draft', rest)) : D draft' := by
  unfold readMember at h
  split at h
  · simp only [bind_eq_ok_iff] at h
    obtain ⟨s₁, -, s₂, -, h⟩ := h
    cases h
    exact hdraft
  · rename_i field hfield
    split at h
    · cases h
    · simp only [bind_eq_ok_iff, Prod.exists] at h
      obtain ⟨s₁, -, set, s₂, hset, h⟩ := h
      cases h
      exact hfields field (List.mem_of_find?_eq_some hfield) hset draft hdraft

theorem readMembers_keeps (hfields : ∀ field ∈ record.fields, field.Keeps D) (hdraft : D draft)
    {isFirst : Bool} (h : record.readMembers isFirst draft s = .ok (draft', rest)) :
    D draft' := by
  fun_induction readMembers record isFirst draft s with
  | case1 => cases h
  | case2 => cases h; exact hdraft
  | case3 => cases h
  | case4 => cases h
  | case5 isFirst draft s s₁ _ key s₂ _ next s₃ hmember ih =>
    exact ih (readMember_keeps hfields hdraft hmember) h

theorem readElements_keeps {fields : List (Field δ)} (hfields : ∀ field ∈ fields, field.Keeps D)
    (hdraft : D draft) {count : Nat}
    (h : record.readElements count draft s fields = .ok (draft', rest)) : D draft' := by
  induction fields generalizing count draft s with
  | nil =>
    simp only [readElements, bind_eq_ok_iff] at h
    obtain ⟨r, -, h⟩ := h
    cases h
    exact hdraft
  | cons field fields ih =>
    simp only [readElements, bind_eq_ok_iff] at h
    obtain ⟨next, -, h⟩ := h
    cases next with
    | finished r =>
      dsimp only at h
      split at h
      · cases h
        exact hdraft
      · cases h
    | more r =>
      simp only [bind_eq_ok_iff, Prod.exists] at h
      obtain ⟨set, r', hset, h⟩ := h
      exact ih (fun f hf => hfields f (List.mem_cons_of_mem field hf))
        (hfields field List.mem_cons_self hset draft hdraft) h

/-- From an object or a list, what is finished comes from a draft that the fields have kept. -/
theorem ensures (hblank : D record.blank) (hfields : ∀ field ∈ record.fields, field.Keeps D)
    (hfinish : ∀ draft a, D draft → record.finish draft = .ok a → P a) (depth : Nat) :
    (record.reader depth).Ensures P := by
  intro s a rest hread
  change run record depth s = _ at hread
  unfold run at hread
  split at hread
  · cases hread
  · split at hread
    · cases hread
    · rename_i bracket _
      split at hread
      · cases hread
      · simp only [readOpened, bind_eq_ok_iff, Prod.exists] at hread
        obtain ⟨draft, r, hdraft, b, hb, hread⟩ := hread
        cases hread
        refine hfinish draft a ?_ hb
        cases bracket with
        | object => exact readMembers_keeps hfields hblank hdraft
        | list => exact readElements_keeps hfields hblank hdraft

/-- No record is read where no level may be opened. -/
theorem ensures_depth (record : Record δ α) (depth : Nat) :
    (record.reader depth).Ensures fun _ => 0 < depth := by
  intro s a rest hread
  change run record depth s = _ at hread
  unfold run at hread
  split at hread
  · cases hread
  · split at hread
    · cases hread
    · split at hread
      · cases hread
      · omega

end Record

/-! ## Sequences -/

namespace Sequence

variable {item : Reader α}

theorem readItems_ensures (h : item.Ensures P) {isFirst : Bool} {s rest : List Char}
    {as : List α} (hread : readItems item isFirst s = .ok (as, rest)) : ∀ a ∈ as, P a := by
  fun_induction readItems item isFirst s generalizing as rest with
  | case1 => cases hread
  | case2 => cases hread; exact fun a ha => absurd ha List.not_mem_nil
  | case3 => cases hread
  | case4 => cases hread
  | case5 isFirst s s₁ _ a s₂ ha as' rest' has ih =>
    cases hread
    exact List.forall_mem_cons.2 ⟨h ha, ih has⟩

theorem ensures (h : item.Ensures P) (depth : Nat) :
    (reader item depth).Ensures fun as => (∀ a ∈ as, P a) ∧ 0 < depth := by
  intro s as rest hread
  change run item depth s = _ at hread
  unfold run at hread
  split at hread
  · cases hread
  · split at hread
    · split at hread
      · cases hread
      · exact ⟨readItems_ensures h hread, by omega⟩
    · cases hread

end Sequence

end Json
end Criteria
