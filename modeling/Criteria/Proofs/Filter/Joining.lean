import Criteria.Proofs.Filter.Routes

/-!
# Queries joined by a combinator

Two queries with a combinator and white space between them make one query, which is read as a
chain.  What follows the combinator is read as it is on its own, up to the place where it cannot
be read on.
-/

namespace Criteria
namespace Filter

open Text Grammar
open FilterQuery (links readChain)

/-- The operands of one chain, a combinator, and the operands of another. -/
def Chain.joined {α : Type} (chain : Chain α) (c : Combinator) (chain' : Chain α) : Chain α :=
  ⟨chain.first, chain.links ++ (c, chain'.first) :: chain'.links⟩

variable {keywordCase : KeywordCase} {s a word b : List Char} {c : Combinator}
  {chain : Chain Predicate}

/-! ## Chains -/

theorem chain_skipSpace (s : List Char) :
    Scan.chain keywordCase (skipSpace s) = Scan.chain keywordCase s := by
  rw [Scan.chain, Scan.chain, Scan.predicate_skipSpace]

/-- Behind a chain that cannot go on without a combinator stand more links, if any. -/
theorem chain_append {rest : List Char} (h : IsChain keywordCase s chain)
    (hrest : Begins Char.isAlpha rest) :
    Scan.chain keywordCase (s ++ rest) = (links keywordCase rest).map fun (ls, r) =>
      (⟨chain.first, chain.links ++ ls⟩, r) := by
  obtain ⟨t, u, rfl, ht, hu⟩ := h
  have hdigit : ¬ Begins Char.isDigit rest := hrest.not_begins fun _ => isDigit_eq_false_of_isAlpha
  have hspace : ¬ Begins Char.isWhitespace rest :=
    hrest.not_begins fun _ => isWhitespace_eq_false_of_isAlpha
  have hp := Scan.predicate_append ht
    (hu.not_begins_append (fun _ => isDigit_eq_false_of_isAlpha) hdigit)
    (hu.not_begins_append (fun _ => isWhitespace_eq_false_of_isAlpha) hspace)
  rw [List.append_assoc, Scan.chain_of_ok hp, links_append hu hdigit hspace]
  cases links keywordCase rest <;> rfl

theorem links_spelled (hw : Spells keywordCase c.word word) (hb : IsSpace b) (hne : b ≠ [])
    (t : List Char) :
    links keywordCase (word ++ b ++ t) = (Scan.chain keywordCase t).map fun (chain, rest) =>
      ((c, chain.first) :: chain.links, rest) := by
  have hc : Scan.combinator? keywordCase (word ++ b ++ t) = some (c, skipSpace (b ++ t)) := by
    refine Scan.combinator?_eq_some_iff.2 ⟨[], word, b ++ t, ?_, isSpace_nil, hw, ?_, rfl⟩
    · rw [List.nil_append, List.append_assoc]
    · exact ((hb.begins hne).append t).not_begins
        (disjoint_symm fun _ => isWhitespace_eq_false_of_isAlpha)
  rw [links_eq_chain hc, skipSpace_append hb, chain_skipSpace]

/-- What follows a chain and a combinator is read as it is on its own. -/
theorem readChain_joined (h : IsChain keywordCase s chain) (ha : IsSpace a)
    (hw : Spells keywordCase c.word word) (hb : IsSpace b) (hne : b ≠ []) (t : List Char) :
    readChain keywordCase (s ++ a ++ (word ++ b ++ t)) =
      (readChain keywordCase t).map (chain.joined c) := by
  have hbegins : Begins Char.isAlpha (word ++ b ++ t) := by
    rw [List.append_assoc]
    exact (hw.isWord (isWord_combinator c)).begins.append _
  rw [readChain_eq_chain, readChain_eq_chain, chain_append (h.append_space ha) hbegins,
    links_spelled hw hb hne]
  cases Scan.chain keywordCase t with
  | error m => rfl
  | ok x =>
    obtain ⟨chain', rest⟩ := x
    show (Scan.endOfQuery rest >>= fun _ => .ok (chain.joined c chain')) =
      Except.map (chain.joined c) (Scan.endOfQuery rest >>= fun _ => .ok chain')
    cases Scan.endOfQuery rest <;> rfl

/-- The look-ahead finds a combinator with white space on both sides. -/
theorem lookahead_joined (ha : IsSpace a) (hne : a ≠ []) (hw : Spells keywordCase c.word word)
    (hb : IsSpace b) (hne' : b ≠ []) (s t : List Char) :
    lookahead (s ++ a ++ (word ++ b ++ t)) ≠ none := by
  obtain ⟨a, d, rfl⟩ := (List.eq_nil_or_concat a).resolve_left hne
  obtain ⟨e, b, rfl⟩ := List.exists_cons_of_ne_nil hne'
  rw [List.concat_eq_append] at ha ⊢
  have hd : d.isWhitespace = true := ha d (List.mem_append_right a List.mem_cons_self)
  have he : e.isWhitespace = true := hb e List.mem_cons_self
  exact lookahead_ne_none_iff.2
    ⟨c, s ++ a, d, word, e, b ++ t, by simp, hd, spells_caseless hw, he⟩

end Filter

/-! ## Queries -/

namespace FilterQuery

open Criteria.Filter Criteria.Filter.Grammar Criteria.Text

variable {keywordCase : KeywordCase} {s a word b t : List Char} {c : Combinator}
  {chain : Chain Predicate}

theorem isChain_of_readPredicates (h : readPredicates keywordCase s = .ok chain) :
    IsChain keywordCase s chain := (readPredicates_eq_ok_iff.1 h).1

theorem readPredicates_joined (h : readPredicates keywordCase s = .ok chain) (ha : IsSpace a)
    (hne : a ≠ []) (hw : Spells keywordCase c.word word) (hb : IsSpace b) (hne' : b ≠ [])
    (t : List Char) :
    readPredicates keywordCase (s ++ a ++ (word ++ b ++ t)) =
      (readChain keywordCase t).map (chain.joined c) := by
  obtain ⟨c', hl⟩ := Option.ne_none_iff_exists'.1 (lookahead_joined ha hne hw hb hne' s t)
  rw [readPredicates_of_some hl, readChain_joined (isChain_of_readPredicates h) ha hw hb hne']

theorem operands_joined {α : Type} (chain : Chain α) (c : Combinator) (chain' : Chain α) :
    (chain.joined c chain').operands = chain.operands ++ chain'.operands := by
  simp [Chain.operands, Chain.joined]

section

variable {config : Config} {query : String}

theorem exists_chain (hlength : config.Allows query) (h : ¬ IsMalformed (parse config query)) :
    ∃ chain, readPredicates config.keywordCase query.toList = .ok chain := by
  obtain ⟨chain, hchain⟩ := (not_isMalformed_parse_iff hlength).1 h
  exact ⟨chain, readPredicates_eq_ok_iff.2 hchain⟩

theorem isOk_parse_iff (hlength : config.Allows query)
    (h : readPredicates config.keywordCase query.toList = .ok chain) :
    (parse config query).isOk = true ↔
      ∀ p ∈ chain.operands, Text.isBlank p.value = false := by
  rw [parse_of_isQuery hlength (readPredicates_eq_ok_iff.1 h), ← not_exists_blank_iff]
  split
  · rename_i hblank
    exact ⟨nofun, fun hno => absurd hblank hno⟩
  · rename_i hblank
    exact ⟨fun _ => hblank, fun _ => rfl⟩

theorem exists_mismatch (hlength : config.Allows query) {n : Nat} {expected : Expectation}
    (h : parse config query = .error (.malformed n expected)) :
    ∃ t m, readPredicates config.keywordCase query.toList = .error m ∧
      query.toList = t ++ m.rest ∧ n = byteLength t ∧ expected = m.expected := by
  obtain ⟨m, hm, hn⟩ := exists_mismatch_of_malformed hlength.checkLength h
  obtain ⟨t, e, chain, hsplit, -⟩ := readPredicates_error hm
  refine ⟨t, m, hm, hsplit, ?_⟩
  rw [QueryError.ofMismatch, hsplit, offset_append] at hn
  cases hn
  exact ⟨rfl, rfl⟩

/-- A query that writes the operands of two others is read if neither has a blank value. -/
theorem parse_of_operands {first second : String} {chain' joined : Chain Predicate}
    (hunlimited : config.maxLength = none)
    (hfirst : readPredicates config.keywordCase first.toList = .ok chain)
    (hsecond : readPredicates config.keywordCase second.toList = .ok chain')
    (h : readPredicates config.keywordCase query.toList = .ok joined)
    (hoperands : joined.operands = chain.operands ++ chain'.operands) :
    parse config query =
      if (parse config first).isOk ∧ (parse config second).isOk then
        .ok ⟨.dollarFilter, query, (joined.map test).assemble config.chainShape⟩
      else .error (.blank .value) := by
  have hlength := config.allows_of_unlimited hunlimited
  have hboth : ((parse config first).isOk ∧ (parse config second).isOk) ↔
      ¬ ∃ p ∈ joined.operands, Text.isBlank p.value = true := by
    rw [isOk_parse_iff (hlength first) hfirst, isOk_parse_iff (hlength second) hsecond,
      hoperands, not_exists_blank_iff, List.forall_mem_append]
  rw [parse_of_isQuery (hlength query) (readPredicates_eq_ok_iff.1 h)]
  by_cases hblank : ∃ p ∈ joined.operands, Text.isBlank p.value = true
  · rw [if_pos hblank, if_neg fun hok => hboth.1 hok hblank]
  · rw [if_neg hblank, if_pos (hboth.2 hblank)]

/-- Behind other text the place at which a query is malformed moves on by that text. -/
theorem parse_behind {before : List Char} {second : String} {n : Nat} {expected : Expectation}
    (hunlimited : config.maxLength = none) (hquery : query.toList = before ++ second.toList)
    (hsecond : parse config second = .error (.malformed n expected))
    (h : ∀ m, readPredicates config.keywordCase second.toList = .error m →
      readPredicates config.keywordCase query.toList = .error m) :
    parse config query = .error (.malformed (byteLength before + n) expected) := by
  have hlength := config.allows_of_unlimited hunlimited
  obtain ⟨t, m, hm, hsplit, rfl, rfl⟩ := exists_mismatch (hlength second) hsecond
  rw [parse_of_readPredicates_error (hlength query) (h m hm), QueryError.ofMismatch, hquery,
    hsplit, ← List.append_assoc, offset_append, byteLength_append]

end

/-- A query, a combinator between white space and a further query make a query.  If neither of
the two is malformed, it writes the chain of the one, the combinator and the chain of the other,
and is read as that unless a value in one of the two is blank.  If the further query is
malformed as a chain, the whole is malformed at the same place for the same reason. -/
theorem parse_joined (config : Config) (hunlimited : config.maxLength = none)
    (first gap word gap' second : String) (c : Combinator)
    (hfirst : ¬ IsMalformed (parse config first))
    (hgap : IsSpace gap.toList ∧ gap.toList ≠ [])
    (hword : Spells config.keywordCase c.word word.toList)
    (hgap' : IsSpace gap'.toList ∧ gap'.toList ≠ []) :
    (¬ IsMalformed (parse config second) →
      ∃ chain chain',
        readPredicates config.keywordCase first.toList = .ok chain ∧
        readPredicates config.keywordCase second.toList = .ok chain' ∧
        readPredicates config.keywordCase (first ++ gap ++ word ++ gap' ++ second).toList =
          .ok (chain.joined c chain') ∧
        parse config (first ++ gap ++ word ++ gap' ++ second) =
          if (parse config first).isOk ∧ (parse config second).isOk then
            .ok ⟨.dollarFilter, first ++ gap ++ word ++ gap' ++ second,
              ((chain.joined c chain').map test).assemble config.chainShape⟩
          else .error (.blank .value)) ∧
    (lookahead second.toList ≠ none → ∀ offset expected,
      parse config second = .error (.malformed offset expected) →
      parse config (first ++ gap ++ word ++ gap' ++ second) =
        .error (.malformed (first.utf8ByteSize + gap.utf8ByteSize + word.utf8ByteSize +
          gap'.utf8ByteSize + offset) expected)) := by
  have hlength := config.allows_of_unlimited hunlimited
  obtain ⟨chain, hchain⟩ := exists_chain (hlength first) hfirst
  have hjoined := readPredicates_joined hchain hgap.1 hgap.2 hword hgap'.1 hgap'.2 second.toList
  generalize hwhole : first ++ gap ++ word ++ gap' ++ second = whole
  have htext : first.toList ++ gap.toList ++ (word.toList ++ gap'.toList ++ second.toList) =
      whole.toList := by
    simp [← hwhole]
  rw [htext] at hjoined
  constructor
  · intro hsecond
    obtain ⟨chain', hchain'⟩ := exists_chain (hlength second) hsecond
    rw [readChain_eq_ok_iff.2 (isChain_of_readPredicates hchain')] at hjoined
    exact ⟨chain, chain', hchain, hchain', hjoined,
      parse_of_operands hunlimited hchain hchain' hjoined (operands_joined chain c chain')⟩
  · intro hl offset expected hsecond
    have hmismatch : ∀ m, readPredicates config.keywordCase second.toList = .error m →
        readPredicates config.keywordCase whole.toList = .error m := by
      intro m hm
      obtain ⟨c', hc'⟩ := Option.ne_none_iff_exists'.1 hl
      rw [readPredicates_of_some hc'] at hm
      rw [hjoined, hm]
      rfl
    have hbefore : whole.toList =
        first.toList ++ gap.toList ++ word.toList ++ gap'.toList ++ second.toList := by
      rw [← htext]
      simp only [List.append_assoc]
    rw [parse_behind hunlimited hbefore hsecond hmismatch]
    simp only [byteLength_append, byteLength_toList]

/-- The place is counted in bytes, of which the first query has one more than characters. -/
theorem parse_joined_offset :
    ¬ IsMalformed (parse {} "a eq 'é'") ∧
      parse {} "b eq 1 and c is 2" = .error (.malformed 13 .operator) ∧
      parse {} ("a eq 'é'" ++ " " ++ "Or" ++ "\t\n" ++ "b eq 1 and c is 2") =
        .error (.malformed 27 .operator) := by
  have hfirst : ¬ IsMalformed (parse {} "a eq 'é'") := by
    have hparse : parse {} "a eq 'é'" =
        .ok ⟨.dollarFilter, "a eq 'é'", .test ⟨"a", .equals, "é"⟩⟩ := by
      with_unfolding_all rfl
    rw [hparse]
    exact not_isMalformed_ok _
  have hsecond : parse {} "b eq 1 and c is 2" = .error (.malformed 13 .operator) := by
    with_unfolding_all rfl
  refine ⟨hfirst, hsecond, ?_⟩
  exact (parse_joined {} rfl "a eq 'é'" " " "Or" "\t\n" "b eq 1 and c is 2" .or hfirst
    (by decide) (by decide) (by decide)).2 (by decide) 13 .operator hsecond

end FilterQuery
end Criteria
