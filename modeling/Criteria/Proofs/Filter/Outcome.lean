import Criteria.Proofs.Filter.Assembly
import Criteria.Proofs.Filter.Lookahead
import Criteria.Proofs.Filter.Reading
import Criteria.Proofs.Refusal

/-!
# Outcomes of reading a query

A query is read if it is a chain of the grammar, and if a chain of several comparisons also
has a combinator between white space, which need not be one of its own.  Of a query within
the limit everything else is malformed.
-/

namespace Criteria
namespace Filter

open Text Grammar

/-- The queries that are read, and the chains that they write. -/
def IsQuery (keywordCase : KeywordCase) (s : List Char) (chain : Chain Predicate) : Prop :=
  IsChain keywordCase s chain ∧ (chain.links = [] ∨ ∃ c : Combinator, HasSpaced c.word s)

variable {keywordCase : KeywordCase} {s : List Char}

theorem isChain_single_iff {p : Predicate} :
    IsChain keywordCase s ⟨p, []⟩ ↔ IsComparison s p := by
  constructor
  · intro h
    obtain ⟨t, u, rfl, ht, hu⟩ := h
    cases hu
    rwa [List.append_nil]
  · intro h
    exact ⟨s, [], (List.append_nil s).symm, h, .nil⟩

/-- A text writes one chain at most. -/
theorem IsChain.unique {chain chain' : Chain Predicate} (h : IsChain keywordCase s chain)
    (h' : IsChain keywordCase s chain') : chain = chain' := by
  have heq := (readChain_eq_ok_iff.2 h).symm.trans (readChain_eq_ok_iff.2 h')
  exact Except.ok.inj heq

/-! ## Blank parts -/

theorem check_of_blank {f : Filter} {part : BlankPart} (h : f.blankPart? = some part) :
    f.check = .error part := by
  rw [check, h]

theorem check_of_not_blank {f : Filter} (h : f.blankPart? = none) : f.check = .ok f := by
  rw [check, h]

/-- A field that has been read begins with a letter. -/
theorem IsComparison.field_not_blank {p : Predicate} (h : IsComparison s p) :
    isBlank p.field = false := by
  obtain @⟨a, path, name, b, word, d, literal, v, e, o, -, hp, -, -, -, -, -, -⟩ := h
  rw [isBlank_eq_false_iff, String.toList_ofList]
  cases name with
  | nil => exact absurd hp.name_begins (not_begins_nil _)
  | cons c name =>
    refine ⟨c, List.mem_cons_self, ?_⟩
    have hc : c.isAlpha = true := hp.name_begins
    apply Bool.eq_false_iff.2
    intro hblank
    have hletter := isAlpha_iff.1 hc
    simp only [isBlankChar, Bool.or_eq_true, Bool.and_eq_true, decide_eq_true_eq,
      beq_iff_eq] at hblank
    omega

theorem not_exists_blank_iff {ps : List Predicate} :
    (¬ ∃ p ∈ ps, isBlank p.value = true) ↔ ∀ p ∈ ps, isBlank p.value = false := by
  simp

theorem IsLinks.exists_isComparison {links : List (Combinator × Predicate)}
    (h : IsLinks keywordCase s links) : ∀ link ∈ links, ∃ t, IsComparison t link.2 := by
  induction h with
  | nil => intro link hlink; cases hlink
  | @cons word b s t c p links hw hb hne hs ht ih =>
    intro link hlink
    rcases List.mem_cons.1 hlink with rfl | hlink
    · exact ⟨s, hs⟩
    · exact ih link hlink

theorem IsChain.exists_isComparison {chain : Chain Predicate}
    (h : IsChain keywordCase s chain) : ∀ p ∈ chain.operands, ∃ t, IsComparison t p := by
  obtain ⟨t, u, rfl, ht, hu⟩ := h
  intro p hp
  rcases List.mem_cons.1 hp with rfl | hp
  · exact ⟨t, ht⟩
  · obtain ⟨link, hlink, rfl⟩ := List.mem_map.1 hp
    exact IsLinks.exists_isComparison hu link hlink

theorem IsChain.findSome?_blankPart? {chain : Chain Predicate}
    (h : IsChain keywordCase s chain) :
    chain.operands.findSome? Predicate.blankPart? =
      if ∃ p ∈ chain.operands, isBlank p.value = true then some .value else none := by
  have hpart : ∀ p ∈ chain.operands,
      p.blankPart? = if isBlank p.value then some .value else none := by
    intro p hp
    obtain ⟨t, ht⟩ := IsChain.exists_isComparison h p hp
    rw [Predicate.blankPart?, IsComparison.field_not_blank ht]
    rfl
  generalize chain.operands = ps at hpart
  induction ps with
  | nil => simp
  | cons p ps ih =>
    rw [List.findSome?_cons, hpart p List.mem_cons_self,
      ih fun q hq => hpart q (List.mem_cons_of_mem p hq)]
    by_cases hp : isBlank p.value = true <;> simp [hp]

end Filter

/-! ## Reading a query -/

namespace FilterQuery

open Criteria.Filter Criteria.Filter.Grammar

theorem readPredicates_eq_ok_iff {keywordCase : KeywordCase} {s : List Char}
    {chain : Chain Predicate} :
    readPredicates keywordCase s = .ok chain ↔ IsQuery keywordCase s chain := by
  have hfound := lookahead_ne_none_iff (s := s)
  unfold readPredicates
  split
  · rename_i hnone
    have hno : ¬ ∃ c : Combinator, HasSpaced c.word s := fun h => hfound.2 h hnone
    constructor
    · intro h
      cases hs : readSingle s with
      | error m =>
        rw [hs] at h
        cases h
      | ok p =>
        rw [hs] at h
        cases h
        exact ⟨isChain_single_iff.2 (readSingle_eq_ok_iff.1 hs), .inl rfl⟩
    · intro h
      obtain ⟨hchain, hlinks⟩ := h
      obtain ⟨first, links⟩ := chain
      obtain rfl : links = [] := hlinks.resolve_right hno
      rw [readSingle_eq_ok_iff.2 (isChain_single_iff.1 hchain)]
      rfl
  · rename_i c hsome
    rw [readChain_eq_ok_iff]
    refine ⟨fun h => ⟨h, .inr (hfound.1 ?_)⟩, fun h => h.1⟩
    rw [hsome]
    exact Option.some_ne_none c

theorem readPredicates_error {keywordCase : KeywordCase} {s : List Char} {m : Mismatch}
    (h : readPredicates keywordCase s = .error m) :
    ∃ t e chain, s = t ++ m.rest ∧ IsChain keywordCase (t ++ e) chain := by
  unfold readPredicates at h
  split at h
  · cases hs : readSingle s with
    | ok p =>
      rw [hs] at h
      cases h
    | error m' =>
      rw [hs] at h
      cases h
      obtain ⟨t, e, p, hst, ht⟩ := readSingle_error hs
      exact ⟨t, e, ⟨p, []⟩, hst, isChain_single_iff.2 ht⟩
  · exact readChain_error h

variable {config : Config} {query : String}

theorem parse_of_isQuery (hlength : config.Allows query) {chain : Chain Predicate}
    (h : IsQuery config.keywordCase query.toList chain) :
    parse config query =
      if ∃ p ∈ chain.operands, Text.isBlank p.value = true then .error (.blank .value)
      else .ok ⟨.dollarFilter, query, (chain.map test).assemble config.chainShape⟩ := by
  have hpart := blankPart?_assemble_test config.chainShape chain
  rw [IsChain.findSome?_blankPart? h.1] at hpart
  simp only [parse, hlength.checkLength, readPredicates_eq_ok_iff.2 h]
  by_cases hp : ∃ p ∈ chain.operands, Text.isBlank p.value = true
  · rw [if_pos hp] at hpart ⊢
    have hcheck := check_of_blank hpart
    show Except.bind (Except.mapError _ (check _)) _ = _
    rw [hcheck]
    rfl
  · rw [if_neg hp] at hpart ⊢
    have hcheck := check_of_not_blank hpart
    show Except.bind (Except.mapError _ (check _)) _ = _
    rw [hcheck]
    rfl

theorem parse_of_readPredicates_error (hlength : config.Allows query) {m : Mismatch}
    (h : readPredicates config.keywordCase query.toList = .error m) :
    parse config query = .error (.ofMismatch query.toList m) := by
  simp only [parse, hlength.checkLength, h]
  rfl

theorem not_isMalformed_parse_iff (hlength : config.Allows query) :
    ¬ IsMalformed (parse config query) ↔
      ∃ chain, IsQuery config.keywordCase query.toList chain := by
  cases hread : readPredicates config.keywordCase query.toList with
  | error m =>
    rw [parse_of_readPredicates_error hlength hread]
    constructor
    · intro h
      exact absurd ⟨_, _, rfl⟩ h
    · intro h
      obtain ⟨chain, hchain⟩ := h
      rw [readPredicates_eq_ok_iff.2 hchain] at hread
      cases hread
  | ok chain =>
    have hquery := readPredicates_eq_ok_iff.1 hread
    refine ⟨fun _ => ⟨chain, hquery⟩, fun _ => ?_⟩
    rw [parse_of_isQuery hlength hquery]
    split
    · exact not_isMalformed_blank _
    · exact not_isMalformed_ok _

theorem parse_eq_ok_iff (hlength : config.Allows query) {q : FilterQuery} :
    parse config query = .ok q ↔
      ∃ chain, IsQuery config.keywordCase query.toList chain ∧
        (∀ p ∈ chain.operands, Text.isBlank p.value = false) ∧
        q = ⟨.dollarFilter, query, (chain.map test).assemble config.chainShape⟩ := by
  constructor
  · intro h
    have hread : ¬ IsMalformed (parse config query) := by
      rw [h]
      exact not_isMalformed_ok q
    obtain ⟨chain, hchain⟩ := (not_isMalformed_parse_iff hlength).1 hread
    rw [parse_of_isQuery hlength hchain] at h
    by_cases hp : ∃ p ∈ chain.operands, Text.isBlank p.value = true
    · rw [if_pos hp] at h
      cases h
    · rw [if_neg hp] at h
      exact ⟨chain, hchain, not_exists_blank_iff.1 hp, (Except.ok.inj h).symm⟩
  · intro h
    obtain ⟨chain, hchain, hvalues, rfl⟩ := h
    rw [parse_of_isQuery hlength hchain, if_neg (not_exists_blank_iff.2 hvalues)]

theorem allows_of_parse {q : FilterQuery} (h : parse config query = .ok q) :
    config.Allows query := by
  rw [parse, bind_eq_ok_iff] at h
  obtain ⟨⟨⟩, hlength, -⟩ := h
  exact Config.allows_of_checkLength hlength

/-- A query that is read has no blank part, and its filter is as high as it is long. -/
theorem parse_not_blank_height {q : FilterQuery} (h : parse config query = .ok q) :
    q.filter.blankPart? = none ∧ q.filter.height = q.filter.leaves.length := by
  obtain ⟨chain, hquery, hvalues, rfl⟩ := (parse_eq_ok_iff (allows_of_parse h)).1 h
  constructor
  · rw [blankPart?_assemble_test, IsChain.findSome?_blankPart? hquery.1,
      if_neg (not_exists_blank_iff.2 hvalues)]
  · rw [height_assemble_test, leaves_assemble_test]

end FilterQuery
end Criteria
