import Criteria.Proofs.Filter.Alike
import Criteria.Proofs.Sort.Alike

/-!
# Respelled queries

A query can be respelled: its letters in another case, other white space for its white space and
other digits for its digits.  Nothing but the fields, the values and the properties that are
read from it is changed by that, and these are respelled as well.
-/

namespace Criteria

/-- The look-ahead finds the same combinator in alike queries.  Unless the case of combinators
matters, both are refused as filter queries for one reason and at one place, or both are read,
as alike filters.  As sort queries they are answered alike in any configuration. -/
theorem answers_alike (config : Config) (query query' : String)
    (h : Text.Alike query.toList query'.toList) :
    Filter.lookahead query.toList = Filter.lookahead query'.toList ∧
    (config.keywordCase = .caseless →
      SameOutcome FilterQuery.Alike (FilterQuery.parse config query)
        (FilterQuery.parse config query')) ∧
    SameOutcome (List.Forall₂ SortKey.Alike) (SortKey.parse config query)
      (SortKey.parse config query') := by
  refine ⟨?_, fun hcase => FilterQuery.parse_alike hcase h, SortKey.parse_alike config h⟩
  rw [← Filter.lookahead_normal, ← Filter.lookahead_normal query'.toList, Text.alike_iff.1 h]

/-- Line breaks, capitals and other digits do not move the place of an error. -/
theorem answers_alike_offset :
    Text.Alike "a eq 'é 1' or b is 2".toList "A\nEQ\t'é\r7' Or\tb IS 3".toList ∧
      FilterQuery.parse {} "a eq 'é 1' or b is 2" = .error (.malformed 17 .operator) ∧
      FilterQuery.parse {} "A\nEQ\t'é\r7' Or\tb IS 3" = .error (.malformed 17 .operator) := by
  have halike : Text.Alike "a eq 'é 1' or b is 2".toList "A\nEQ\t'é\r7' Or\tb IS 3".toList := by
    decide
  have hparse : FilterQuery.parse {} "a eq 'é 1' or b is 2" =
      .error (.malformed 17 .operator) := by
    with_unfolding_all rfl
  have hsame := (answers_alike {} _ _ halike).2.1 rfl
  rw [hparse] at hsame
  refine ⟨halike, hparse, ?_⟩
  generalize FilterQuery.parse {} "A\nEQ\t'é\r7' Or\tb IS 3" = answer at hsame ⊢
  cases hsame
  rfl

end Criteria
