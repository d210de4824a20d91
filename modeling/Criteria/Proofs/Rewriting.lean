import Criteria.Proofs.Config.Document
import Criteria.Proofs.Filter.Closed
import Criteria.Proofs.Sort.Json

/-!
# Values shipped again

A value that has come in some document can be shipped again.  However that document was laid out,
the one that is written for the value is read as the same value.
-/

namespace Criteria

open Json

/-- The documents of each type settle when they are written anew. -/
theorem documents_settle :
    Settles FilterQuery ∧ Settles Filter ∧ Settles Filter.Join ∧ Settles Predicate ∧
    Settles Operator ∧ Settles Combinator ∧ Settles QueryOption ∧
    Settles SortKey ∧ Settles (List SortKey) ∧ Settles Direction ∧ Settles Config :=
  ⟨settles, settles, settles, settles, settles, settles, settles, settles, settles, settles,
    settles⟩

/-- A join is a list here.  One of its sides has escapes, and the other one has its fields in
another order and an unknown field among them. -/
theorem documents_settle_list :
    ∃ j : Filter.Join,
      decode (" [ \x7b\"\\u0045xpression\" :[\"a\",\n\"\\ud83d\\ude00\\/\",\x7b\"Equals\":" ++
        "null\x7d]\x7d,\x7b\"Expression\":\x7b\"value\":\"2\",\"x\":[[1e999]],\"operator\":" ++
        "\"Contains\",\"field\":\"b\"\x7d\x7d,\"Or\"]\t") = .ok j ∧
      decode (encode j) = .ok j ∧ rewrite Filter.Join (encode j) = .ok (encode j) ∧
      nesting (encode j) ≤ 127 := by
  have hread : decode
      (" [ \x7b\"\\u0045xpression\" :[\"a\",\n\"\\ud83d\\ude00\\/\",\x7b\"Equals\":" ++
        "null\x7d]\x7d,\x7b\"Expression\":\x7b\"value\":\"2\",\"x\":[[1e999]],\"operator\":" ++
        "\"Contains\",\"field\":\"b\"\x7d\x7d,\"Or\"]\t") =
      .ok (⟨.test ⟨"a", .equals, "😀/"⟩, .test ⟨"b", .contains, "2"⟩, .or⟩ : Filter.Join) := by
    set_option maxRecDepth 4000 in with_unfolding_all rfl
  have hsettles := documents_settle.2.2.1
  exact ⟨_, hread, hsettles.value _ _ hread,
    hsettles.document _ _ (bind_eq_ok_iff.2 ⟨_, hread, rfl⟩), (hsettles.limit maxDepth _ _ hread).2⟩

end Criteria
