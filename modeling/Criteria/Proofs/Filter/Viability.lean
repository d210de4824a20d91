import Criteria.Proofs.Filter.Outcome

/-!
# Where malformed queries are reported

What stands in front of a reported position can still be completed to a query that is read.
The completion ends in a link of its own, since the look-ahead has to find a combinator
between white space if there is more than one comparison.
-/

namespace Criteria
namespace FilterQuery

open Criteria.Filter Criteria.Filter.Grammar Criteria.Text

/-- A comparison and the combinator in front of it, without the white space that the
look-ahead asks for. -/
def furtherLink : List Char := "or a eq 1".toList

theorem furtherLink_isLinks (keywordCase : KeywordCase) :
    IsLinks keywordCase furtherLink [(.or, ⟨"a", .equals, "1"⟩)] := by
  have hcomparison : IsComparison "a eq 1".toList ⟨"a", .equals, "1"⟩ :=
    readSingle_eq_ok_iff.1 rfl
  have hword : Spells keywordCase Combinator.or.word "or".toList := by
    cases keywordCase <;> decide
  exact .cons (b := [' ']) hword (by decide) (by decide) hcomparison .nil

/-- A chain with one more link behind white space is read, whatever the look-ahead found
in the chain itself. -/
theorem isQuery_furtherLink {keywordCase : KeywordCase} {s : List Char}
    {chain : Chain Predicate} (h : IsChain keywordCase s chain) :
    ∃ chain', IsQuery keywordCase (s ++ ' ' :: furtherLink) chain' := by
  have hspaced : IsChain keywordCase (s ++ [' ']) chain := h.append_space (by decide)
  have hlinked := hspaced.append_links (furtherLink_isLinks keywordCase)
  rw [List.append_assoc] at hlinked
  refine ⟨_, hlinked, .inr ⟨.or, s, ' ', ['o', 'r'], ' ', "a eq 1".toList, rfl, rfl, ?_, rfl⟩⟩
  decide

/-- The position at which a malformed query is reported is one of a character, and what
stands in front of it begins some query that is not malformed. -/
theorem malformed_offset_viable (config : Config) (hunlimited : config.maxLength = none)
    (query : String) (offset : Nat) (expected : Expectation)
    (h : parse config query = .error (.malformed offset expected)) :
    offset ≤ query.utf8ByteSize ∧
      ∃ before after : String, query = before ++ after ∧ before.utf8ByteSize = offset ∧
        ∃ completion : String, ¬ IsMalformed (parse config (before ++ completion)) := by
  have hlength := config.allows_of_unlimited hunlimited
  cases hread : readPredicates config.keywordCase query.toList with
  | ok chain =>
    have hread := (not_isMalformed_parse_iff (hlength query)).2
      ⟨chain, readPredicates_eq_ok_iff.1 hread⟩
    exact absurd ⟨offset, expected, h⟩ hread
  | error m =>
    rw [parse_of_readPredicates_error (hlength query) hread] at h
    obtain ⟨t, e, chain, hsplit, hchain⟩ := readPredicates_error hread
    obtain ⟨chain', hquery⟩ := isQuery_furtherLink hchain
    have hoffset : Text.byteLength t = offset := by
      rw [QueryError.ofMismatch, hsplit, Text.offset_append] at h
      cases h
      rfl
    have hwhole : query = String.ofList t ++ String.ofList m.rest := by
      rw [← String.ofList_append, ← hsplit, String.ofList_toList]
    have hbefore : (String.ofList t).utf8ByteSize = offset := by
      rw [← Text.byteLength_toList, String.toList_ofList, hoffset]
    refine ⟨?_, String.ofList t, String.ofList m.rest, hwhole, hbefore,
      String.ofList (e ++ ' ' :: furtherLink), ?_⟩
    · rw [hwhole, String.utf8ByteSize_append]
      omega
    · rw [not_isMalformed_parse_iff (hlength _), ← String.ofList_append, String.toList_ofList,
        ← List.append_assoc]
      exact ⟨chain', hquery⟩

/-- The query is read up to the operator, which stands behind fifteen bytes and fourteen
characters. -/
theorem malformed_offset_viable_operator :
    parse {} "a eq 'é' or b is 1" = .error (.malformed 15 .operator) ∧
      ∃ before after : String, "a eq 'é' or b is 1" = before ++ after ∧
        before.utf8ByteSize = 15 ∧
        ∃ completion : String, ¬ IsMalformed (parse {} (before ++ completion)) := by
  have hparse : parse {} "a eq 'é' or b is 1" = .error (.malformed 15 .operator) := by
    with_unfolding_all rfl
  exact ⟨hparse, (malformed_offset_viable {} rfl _ _ _ hparse).2⟩

end FilterQuery
end Criteria
