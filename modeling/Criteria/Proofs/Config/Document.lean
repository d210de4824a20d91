import Criteria.Config.Document
import Criteria.Proofs.Json.Closed

/-!
# Documents of configurations read back
-/

namespace Criteria

open Json

instance : LawfulCodec KeywordCase where
  levels _ := 0
  valid _ := True
  carries {c} _ depth := Variant.carries_bare (by cases c <;> rfl) depth

instance : ClosedCodec KeywordCase where
  ensures depth _ _ _ _ := ⟨trivial, Nat.zero_le depth⟩

instance : LawfulCodec ChainShape where
  levels _ := 0
  valid _ := True
  carries {s} _ depth := Variant.carries_bare (by cases s <;> rfl) depth

instance : ClosedCodec ChainShape where
  ensures depth _ _ _ _ := ⟨trivial, Nat.zero_le depth⟩

namespace Config

/-- A limit of any 64 bits, or none. -/
theorem carries_limit (limit : Option UInt64) (depth : Nat) :
    Carries wordReader.optional depth
      (match limit with
        | none => writeNull
        | some limit => writeNat limit.toNat) limit 0 := by
  cases limit with
  | none => exact carries_null depth wordReader
  | some limit => exact carries_word limit depth

theorem fills (config : Config) (depth : Nat) :
    (record depth).Fills depth {} [("combinator_case", Codec.write config.keywordCase),
      ("chain_shape", Codec.write config.chainShape),
      ("max_query_length",
        match config.maxLength with
        | none => writeNull
        | some limit => writeNat limit.toNat)]
      ⟨some config.keywordCase, some config.chainShape, some config.maxLength⟩ 0 := by
  refine .cons (n := 0) (m := 0) rfl rfl (LawfulCodec.carries trivial depth) ?_
  refine .cons (n := 0) (m := 0) rfl rfl (LawfulCodec.carries trivial depth) ?_
  refine .cons (n := 0) (m := 0) rfl rfl (carries_limit config.maxLength depth) ?_
  exact .nil

instance : LawfulCodec Config where
  levels _ := 1
  valid _ := True
  carries {config} _ depth := Record.carries (fills config (depth - 1)) rfl

instance : ClosedCodec Config where
  ensures depth := (Record.ensures_depth _ depth).imp fun _ hdepth => ⟨trivial, hdepth⟩

/-! ## Valid configurations -/

variable {document : String}

theorem ofDocument_of_error {fault : Fault}
    (h : (decode document : Except Fault Config) = .error fault) :
    ofDocument document = .error (.malformed fault) := by
  rw [ofDocument, h]
  rfl

theorem isValid_iff {config : Config} : config.isValid = true ↔ config.maxLength ≠ some 0 :=
  bne_iff_ne

theorem ofDocument_of_decode {config : Config} (h : decode document = .ok config) :
    ofDocument document = if config.maxLength = some 0 then .error .zeroLimit else .ok config := by
  rw [ofDocument, h]
  show (if config.isValid = true then _ else _) = _
  simp only [isValid_iff, ite_not]

theorem ofDocument_eq_ok_iff {config : Config} :
    ofDocument document = .ok config ↔ decode document = .ok config ∧ config.isValid = true := by
  rw [isValid_iff]
  constructor
  · intro h
    cases hdecode : (decode document : Except Fault Config) with
    | error fault =>
      rw [ofDocument_of_error hdecode] at h
      cases h
    | ok config' =>
      rw [ofDocument_of_decode hdecode] at h
      split at h
      · cases h
      · rename_i hzero
        cases h
        exact ⟨rfl, hzero⟩
  · rintro ⟨h, hzero⟩
    rw [ofDocument_of_decode h]
    exact if_neg hzero

end Config
end Criteria
