import Criteria.QueryError

/-!
# Refused queries

A query is refused for its length before it is read, and as malformed where reading stops.
-/

namespace Criteria

/-- Whether a query could not be read to its end. -/
def IsMalformed {α : Type} (result : Except QueryError α) : Prop :=
  ∃ offset expected, result = .error (.malformed offset expected)

theorem not_isMalformed_ok {α : Type} (a : α) :
    ¬ IsMalformed (.ok a : Except QueryError α) := by
  intro h
  obtain ⟨offset, expected, h⟩ := h
  cases h

theorem not_isMalformed_blank {α : Type} (part : BlankPart) :
    ¬ IsMalformed (.error (.blank part) : Except QueryError α) := by
  intro h
  obtain ⟨offset, expected, h⟩ := h
  cases h

theorem Text.byteLength_toList (s : String) : byteLength s.toList = s.utf8ByteSize := by
  have h : ∀ l : List Char, byteLength l = (String.ofList l).utf8ByteSize := by
    intro l
    induction l with
    | nil => rfl
    | cons c l ih =>
      rw [String.ofList_cons, String.utf8ByteSize_append, ← ih, String.utf8ByteSize_singleton,
        byteLength]
  rw [h, String.ofList_toList]

/-- A query is cut in two where a scanner has left it. -/
theorem Text.cut_at_offset {query : String} {t rest : List Char} (h : query.toList = t ++ rest) :
    query = String.ofList t ++ String.ofList rest ∧
      (String.ofList t).utf8ByteSize = offset query.toList rest ∧
      query.utf8ByteSize = offset query.toList rest + byteLength rest := by
  refine ⟨?_, ?_, ?_⟩
  · rw [← String.ofList_append, ← h, String.ofList_toList]
  · rw [← byteLength_toList, String.toList_ofList, h, offset_append]
  · rw [← byteLength_toList, h, offset_append, byteLength_append]

/-- Whether a query has no more bytes than it may. -/
def Config.Allows (config : Config) (query : String) : Prop :=
  ∀ limit, config.maxLength = some limit → query.utf8ByteSize ≤ limit.toNat

theorem Config.allows_of_unlimited {config : Config} (h : config.maxLength = none)
    (query : String) : config.Allows query := by
  intro limit hlimit
  rw [h] at hlimit
  cases hlimit

theorem Config.Allows.checkLength {config : Config} {query : String}
    (h : config.Allows query) : config.checkLength query.toList = .ok () := by
  have hnone : config.exceeded? (Text.byteLength query.toList) = none := by
    cases hex : config.exceeded? (Text.byteLength query.toList) with
    | none => rfl
    | some limit =>
      obtain ⟨hlimit, hlt⟩ := Config.exceeded?_eq_some_iff.1 hex
      rw [Text.byteLength_toList] at hlt
      exact absurd (h limit hlimit) (Nat.not_le.2 hlt)
  rw [Config.checkLength, hnone]

theorem Config.allows_of_checkLength {config : Config} {query : String}
    (h : config.checkLength query.toList = .ok ()) : config.Allows query := by
  intro limit hlimit
  rw [← Text.byteLength_toList]
  rcases Nat.lt_or_ge limit.toNat (Text.byteLength query.toList) with hlt | hle
  · rw [Config.checkLength, Config.exceeded?_eq_some_iff.2 ⟨hlimit, hlt⟩] at h
    cases h
  · exact hle

theorem Config.checkLength_of_exceeded {config : Config} {query : String} {limit : UInt64}
    (hlimit : config.maxLength = some limit) (hlt : limit.toNat < query.utf8ByteSize) :
    config.checkLength query.toList = .error (.tooLong query.utf8ByteSize limit) := by
  rw [← Text.byteLength_toList] at hlt ⊢
  rw [Config.checkLength, Config.exceeded?_eq_some_iff.2 ⟨hlimit, hlt⟩]

end Criteria
