import Criteria.Proofs.Json.Closed
import Criteria.Sort.Json

/-!
# Documents of sort keys read back
-/

namespace Criteria

open Json

instance : LawfulCodec Direction where
  levels _ := 0
  valid _ := True
  carries {d} _ depth := Variant.carries_bare (by cases d <;> rfl) depth

instance : ClosedCodec Direction where
  ensures depth _ _ _ _ := ⟨trivial, Nat.zero_le depth⟩

namespace SortKey

theorem fills (k : SortKey) (depth : Nat) :
    (record depth).Fills depth {} [("property_name", writeText k.property),
      ("direction", Codec.write k.direction)] ⟨some k.property, some k.direction⟩ 0 := by
  refine .cons (n := 0) (m := 0) rfl rfl (carries_text k.property depth) ?_
  refine .cons (n := 0) (m := 0) rfl rfl (LawfulCodec.carries trivial depth) ?_
  exact .nil

instance : LawfulCodec SortKey where
  levels _ := 1
  valid _ := True
  carries {k} _ depth := Record.carries (fills k (depth - 1)) rfl

instance : ClosedCodec SortKey where
  ensures depth := (Record.ensures_depth _ depth).imp fun _ hdepth => ⟨trivial, hdepth⟩

end SortKey
end Criteria
