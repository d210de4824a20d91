import Criteria.Proofs.Filter.Closed
import Criteria.Proofs.Filter.Outcome

/-!
# How filters come about

A filter is put together from predicates that have been checked, assembled from a chain, read
from a query, or read from a document.  None of these ways leads to a blank part.
-/

namespace Criteria

open Json

namespace Filter

/-- The filters that can be come by: a predicate that has been checked, a join or a chain of
such filters, and whatever is read from a query or from a document of any of the types. -/
inductive IsBuilt : Filter → Prop
  | test {p q : Predicate} (h : p.check = .ok q) : IsBuilt (test q)
  | join {l r : Filter} (hl : IsBuilt l) (hr : IsBuilt r) (c : Combinator) : IsBuilt (join l r c)
  | chain {chain : Chain Filter} (h : ∀ f ∈ chain.operands, IsBuilt f) (shape : ChainShape) :
      IsBuilt (chain.assemble shape)
  | query {config : Config} {query : String} {q : FilterQuery}
      (h : FilterQuery.parse config query = .ok q) : IsBuilt q.filter
  | predicateDocument {document : String} {p : Predicate} (h : decode document = .ok p) :
      IsBuilt (test p)
  | joinDocument {document : String} {j : Join} (h : decode document = .ok j) :
      IsBuilt j.toFilter
  | document {document : String} {f : Filter} (h : decode document = .ok f) : IsBuilt f
  | queryDocument {document : String} {q : FilterQuery} (h : decode document = .ok q) :
      IsBuilt q.filter

theorem IsBuilt.not_blank {f : Filter} (h : IsBuilt f) : f.blankPart? = none := by
  induction h with
  | test h =>
    obtain ⟨hblank, rfl⟩ := Predicate.check_eq_ok_iff.1 h
    exact hblank
  | join _ _ c ihl ihr => exact blankPart?_join_eq_none_iff.2 ⟨ihl, ihr⟩
  | chain _ shape ih => exact blankPart?_assemble_eq_none ih shape
  | query h => exact (FilterQuery.parse_not_blank_height h).1
  | predicateDocument h => exact valid_of_decode h
  | joinDocument h => exact valid_of_decode h
  | document h => exact valid_of_decode h
  | queryDocument h => exact valid_of_decode h

/-! ## Predicates of a query -/

namespace Grammar

/-- Whether a text is one or more names with a dot between any two. -/
def IsDotted (s : List Char) : Prop :=
  ∃ names : List (List Char), names ≠ [] ∧ (∀ w ∈ names, Text.IsWord w) ∧
    s = List.intercalate ['.'] names

theorem IsPath.isDotted {s n : List Char} (h : IsPath s n) : IsDotted n := by
  induction h with
  | @name w hw =>
    refine ⟨[w], List.cons_ne_nil w [], ?_, List.intercalate_singleton.symm⟩
    exact fun v hv => List.mem_singleton.1 hv ▸ hw
  | @step w s n hw h ih =>
    obtain ⟨names, hne, hnames, rfl⟩ := ih
    obtain ⟨v, names, rfl⟩ := List.exists_cons_of_ne_nil hne
    refine ⟨w :: v :: names, List.cons_ne_nil w _, ?_, ?_⟩
    · exact List.forall_mem_cons.2 ⟨hw, hnames⟩
    · rw [List.intercalate_cons_cons, List.append_assoc, List.singleton_append]

theorem IsLiteral.not_isQuote {s v : List Char} (h : IsLiteral s v) :
    ∀ c ∈ v, Scan.isQuote c = false := by
  cases h with
  | quoted hq hv => exact hv
  | number hl hv hne => exact fun c hc => Scan.isQuote_eq_false_of_isDigit (hv c hc)

theorem IsComparison.dotted_field {s : List Char} {p : Predicate} (h : IsComparison s p) :
    IsDotted p.field.toList ∧ ∀ c ∈ p.value.toList, Scan.isQuote c = false := by
  obtain @⟨a, path, name, b, word, d, literal, v, e, o, -, hp, -, -, -, -, hl, -⟩ := h
  rw [String.toList_ofList, String.toList_ofList]
  exact ⟨hp.isDotted, hl.not_isQuote⟩

end Grammar

open Grammar

theorem exists_isComparison_of_parse {config : Config} {query : String} {q : FilterQuery}
    (h : FilterQuery.parse config query = .ok q) :
    ∀ p ∈ q.filter.leaves, ∃ s, IsComparison s p := by
  obtain ⟨chain, hquery, -, rfl⟩ :=
    (FilterQuery.parse_eq_ok_iff (FilterQuery.allows_of_parse h)).1 h
  rw [leaves_assemble_test]
  exact IsChain.exists_isComparison hquery.1

/-- However a filter comes about, every field and every value in it has a character that is no
white space.  In a filter that is read from a query the fields are names joined by dots, and no
value has a quote character. -/
theorem built_leaves_not_blank :
    (∀ f, IsBuilt f → ∀ p ∈ f.leaves,
      (∃ c ∈ p.field.toList, Text.isBlankChar c = false) ∧
        ∃ c ∈ p.value.toList, Text.isBlankChar c = false) ∧
    (∀ config query q, FilterQuery.parse config query = .ok q → ∀ p ∈ q.filter.leaves,
      IsDotted p.field.toList ∧ ∀ c ∈ p.value.toList, Scan.isQuote c = false) := by
  constructor
  · intro f hf p hp
    have hparts := blankPart?_eq_none_iff.1 hf.not_blank p hp
    rwa [Predicate.blankPart?_eq_none_iff, Text.isBlank_eq_false_iff,
      Text.isBlank_eq_false_iff] at hparts
  · intro config query q h p hp
    obtain ⟨s, hs⟩ := exists_isComparison_of_parse h p hp
    exact hs.dotted_field

/-- A filter of a query is joined with a predicate of a document, which is a list of its parts
and has an escaped character that is white space. -/
theorem built_leaves_not_blank_mixed :
    ∃ (q : FilterQuery) (p : Predicate), FilterQuery.parse {} "a/b eq ' é'" = .ok q ∧
      decode "[\"c\",\"\\u00a0x\",\"Equals\"]" = .ok p ∧
      (∀ r ∈ (Chain.assemble .leftNested ⟨q.filter, [(.and, .test p)]⟩).leaves,
        (∃ c ∈ r.field.toList, Text.isBlankChar c = false) ∧
          ∃ c ∈ r.value.toList, Text.isBlankChar c = false) ∧
      ∀ r ∈ q.filter.leaves,
        IsDotted r.field.toList ∧ ∀ c ∈ r.value.toList, Scan.isQuote c = false := by
  have hquery : FilterQuery.parse {} "a/b eq ' é'" =
      .ok ⟨.dollarFilter, "a/b eq ' é'", .test ⟨"a.b", .equals, " é"⟩⟩ := by
    with_unfolding_all rfl
  have hdocument : decode "[\"c\",\"\\u00a0x\",\"Equals\"]" =
      .ok (⟨"c", .equals, "\u00a0x"⟩ : Predicate) := by
    with_unfolding_all rfl
  refine ⟨_, _, hquery, hdocument, built_leaves_not_blank.1 _ (.chain ?_ .leftNested),
    built_leaves_not_blank.2 _ _ _ hquery⟩
  intro f hf
  simp only [Chain.operands, List.map_cons, List.map_nil, List.mem_cons, List.not_mem_nil,
    or_false] at hf
  rcases hf with rfl | rfl
  · exact .query hquery
  · exact .predicateDocument hdocument

end Filter
end Criteria
