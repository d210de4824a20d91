import Criteria.Proofs.Sort.Grammar
import Criteria.Proofs.Text.Alike
import Criteria.Sort.Query

/-!
# Sort queries that are read alike

The keys in the normal form of a sort query are those of the query itself, in normal form, and
the list ends at the same place.
-/

namespace Criteria

open Text

namespace SortKey

def normal (k : SortKey) : SortKey := ⟨normalString k.property, k.direction⟩

namespace Scan

theorem name_normal (s : List Char) :
    name (Text.normal s) = mapNormal (Prod.map normalString Text.normal) (name s) := by
  rw [name, name, skipSpace_normal, takeWhile_normal isAlpha_normalChar,
    dropWhile_normal isAlpha_normalChar]
  cases (skipSpace s).takeWhile Char.isAlpha with
  | nil => rfl
  | cons c letters =>
    rw [mapNormal, Prod.map, normalString_ofList]
    rfl

theorem direction_normal (s : List Char) :
    direction (Text.normal s) = Prod.map id Text.normal (direction s) := by
  cases s with
  | nil => rfl
  | cons c t =>
    have hread : leadingDirection? (skipSpace (Text.normal (c :: t))) =
        (leadingDirection? (skipSpace (c :: t))).map (Prod.map id Text.normal) := by
      rw [skipSpace_normal]
      exact findSome?_dropWord?_normal (fun d => (Grammar.isWord_direction d).2) _ _
    rw [normal_cons] at hread ⊢
    rw [direction, direction, isWhitespace_normalChar, hread]
    split
    · cases leadingDirection? (skipSpace (c :: t)) <;> rfl
    · rfl

theorem endOfKey_normal (s : List Char) :
    endOfKey (Text.normal s) = mapNormal Text.normal (endOfKey s) := by
  rw [endOfKey, endOfKey, skipSpace_normal]
  cases skipSpace s with
  | nil => rfl
  | cons c t =>
    have hcomma : normalChar c = ',' ↔ c = ',' := normalChar_eq_iff rfl rfl rfl
    simp only [normal_cons, hcomma]
    split <;> rfl

theorem key_normal (s : List Char) :
    key (Text.normal s) = mapNormal (Prod.map SortKey.normal Text.normal) (key s) := by
  rw [key, key, name_normal]
  refine mapNormal_bind (fun x => ?_) _
  obtain ⟨n, s⟩ := x
  show (endOfKey (direction (Text.normal s)).2 >>= fun rest =>
      .ok ((⟨normalString n, (direction (Text.normal s)).1⟩ : SortKey), rest)) =
    mapNormal _ (endOfKey (direction s).2 >>= fun rest =>
      .ok ((⟨n, (direction s).1⟩ : SortKey), rest))
  rw [direction_normal, Prod.map, endOfKey_normal]
  refine mapNormal_bind (fun rest => ?_) _
  rfl

end Scan

theorem readMany_normal (s : List Char) :
    readMany (Text.normal s) = Prod.map (List.map normal) Text.normal (readMany s) := by
  fun_induction readMany s with
  | case1 s m h =>
    refine readMany_of_error (m := m.normal) ?_
    rw [Scan.key_normal, h]
    rfl
  | case2 s k s₁ h ks rest heq ih =>
    rw [heq] at ih
    have h' : Scan.key (Text.normal s) = .ok (k.normal, Text.normal s₁) := by
      rw [Scan.key_normal, h]
      rfl
    rw [readMany_of_ok h', ih]
    rfl

theorem readAll_normal (query : List Char) :
    readAll (Text.normal query) = mapNormal (List.map normal) (readAll query) := by
  rw [readAll, readAll, Scan.key_normal]
  refine mapNormal_bind (fun x => ?_) _
  obtain ⟨first, s⟩ := x
  simp only [Prod.map, readMany_normal, skipSpace_normal]
  cases skipSpace (readMany s).2 <;> rfl

theorem parse_normal (config : Config) (query : String) :
    parse config (normalString query) = (parse config query).map (List.map normal) := by
  rw [parse, parse, toList_normalString, checkLength_normal, readAll_normal, mapError_mapNormal]
  cases config.checkLength query.toList <;> rfl

/-- Whether two keys have alike properties and one direction. -/
structure Alike (k k' : SortKey) : Prop where
  property : Text.Alike k.property.toList k'.property.toList
  direction : k.direction = k'.direction

theorem alike_of_normal {k k' : SortKey} (h : k.normal = k'.normal) : k.Alike k' := by
  obtain ⟨hproperty, hdirection⟩ := SortKey.mk.inj h
  exact ⟨alike_toList_iff.2 hproperty, hdirection⟩

theorem forall₂_alike_of_normal {ks ks' : List SortKey} (h : ks.map normal = ks'.map normal) :
    List.Forall₂ Alike ks ks' := by
  rw [← List.forall₂_eq_eq_eq, List.forall₂_map_left_iff, List.forall₂_map_right_iff] at h
  exact h.imp fun _ _ => alike_of_normal

theorem parse_alike (config : Config) {query query' : String}
    (h : Text.Alike query.toList query'.toList) :
    SameOutcome (List.Forall₂ Alike) (parse config query) (parse config query') := by
  refine sameOutcome_of_map (fun _ _ => forall₂_alike_of_normal) ?_
  rw [← parse_normal, ← parse_normal, alike_toList_iff.1 h]

end SortKey
end Criteria
