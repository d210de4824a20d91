import Criteria.Proofs.Filter.Outcome

/-!
# The language of filter queries

The parser reads the queries that the grammar describes and no others, and answers with
the meaning of the one chain that such a query writes.
-/

namespace Criteria
namespace FilterQuery

open Criteria.Filter Criteria.Filter.Grammar

variable {config : Config} {query : String}

theorem parse_blank_iff (hlength : config.Allows query) :
    parse config query = .error (.blank .value) ↔
      ∃ chain, IsQuery config.keywordCase query.toList chain ∧
        ∃ p ∈ chain.operands, Text.isBlank p.value = true := by
  constructor
  · intro h
    have hread : ¬ IsMalformed (parse config query) := by
      rw [h]
      exact not_isMalformed_blank _
    obtain ⟨chain, hchain⟩ := (not_isMalformed_parse_iff hlength).1 hread
    by_cases hp : ∃ p ∈ chain.operands, Text.isBlank p.value = true
    · exact ⟨chain, hchain, hp⟩
    · rw [parse_of_isQuery hlength hchain, if_neg hp] at h
      cases h
  · intro h
    obtain ⟨chain, hchain, hp⟩ := h
    rw [parse_of_isQuery hlength hchain, if_pos hp]

/-- Of a query within the limit: it is malformed unless it writes a chain of one comparison,
or a longer chain and, anywhere in its text, a combinator between white space.  The chain
is the only one, some value of it is blank if the query is refused as blank, and otherwise
the query is read as the chain in the configured shape. -/
theorem parse_meets_grammar (config : Config) (query : String)
    (hlength : config.Allows query) :
    (¬ IsMalformed (parse config query) ↔
      ∃ chain, IsChain config.keywordCase query.toList chain ∧
        (chain.links = [] ∨ ∃ c : Combinator, HasSpaced c.word query.toList)) ∧
    (∀ chain chain', IsChain config.keywordCase query.toList chain →
      IsChain config.keywordCase query.toList chain' → chain = chain') ∧
    (parse config query = .error (.blank .value) ↔
      ∃ chain, IsQuery config.keywordCase query.toList chain ∧
        ∃ p ∈ chain.operands, Text.isBlank p.value = true) ∧
    (∀ chain, IsQuery config.keywordCase query.toList chain →
      (∀ p ∈ chain.operands, Text.isBlank p.value = false) →
      parse config query =
        .ok ⟨.dollarFilter, query, (chain.map test).assemble config.chainShape⟩) := by
  refine ⟨not_isMalformed_parse_iff hlength, fun _ _ => IsChain.unique,
    parse_blank_iff hlength, ?_⟩
  intro chain hchain hvalues
  exact (parse_eq_ok_iff hlength).2 ⟨chain, hchain, hvalues, rfl⟩

/-- The words that split this query are found in a quoted value only. -/
theorem parse_meets_grammar_glued :
    Config.Allows { maxLength := some 30 } "a eq 'x or y'OR b/c Ne int07" ∧
      ∃ chain, IsChain .caseless "a eq 'x or y'OR b/c Ne int07".toList chain ∧
        (chain.links = [] ∨
          ∃ c : Combinator, HasSpaced c.word "a eq 'x or y'OR b/c Ne int07".toList) := by
  have hlength : Config.Allows { maxLength := some 30 } "a eq 'x or y'OR b/c Ne int07" := by
    rintro limit ⟨⟩
    decide
  refine ⟨hlength, (parse_meets_grammar _ _ hlength).1.1 ?_⟩
  have hparse : parse { maxLength := some 30 } "a eq 'x or y'OR b/c Ne int07" =
      .ok ⟨.dollarFilter, "a eq 'x or y'OR b/c Ne int07",
        .join (.test ⟨"a", .equals, "x or y"⟩) (.test ⟨"b.c", .notEquals, "07"⟩) .or⟩ := by
    with_unfolding_all rfl
  rw [hparse]
  exact not_isMalformed_ok _

end FilterQuery
end Criteria
