import Criteria.Proofs.Filter.Junctions
import Criteria.Proofs.Filter.Outcome

/-!
# Two ways of reading a query

A query may be read as a single predicate or as a chain.  The two ways agree on every query of
which the chain takes no combinator.  Where it takes one, the single predicate ends in front of
the first combinator, and more is left of the query than there may be.
-/

namespace Criteria
namespace FilterQuery

open Criteria.Filter Criteria.Filter.Grammar Criteria.Text

variable {keywordCase : KeywordCase} {query s s₁ : List Char} {c : Combinator}

/-! ## Junctions and the two ways -/

theorem endOfQuery_of_begins (h : Begins Char.isAlpha (skipSpace s)) :
    Scan.endOfQuery s = .error ⟨.endOfQuery, skipSpace s⟩ := by
  rw [Scan.endOfQuery]
  cases hs : skipSpace s with
  | nil =>
    rw [hs] at h
    exact absurd h (not_begins_nil _)
  | cons d t => rfl

/-- White space in front of a combinator is no end of a query. -/
theorem endOfQuery_of_combinator (h : Scan.combinator? keywordCase s = some (c, s₁)) :
    Scan.endOfQuery s = .error ⟨.endOfQuery, (Junction.leading c (skipSpace s)).tail⟩ := by
  obtain ⟨a, word, rest, rfl, ha, hw, -, rfl⟩ := Scan.combinator?_eq_some_iff.1 h
  have hword := hw.isWord (isWord_combinator c)
  have hskip := skipSpace_append_word ha hword rest
  have hbegins : Begins Char.isAlpha (skipSpace (a ++ word ++ rest)) := by
    rw [hskip]
    exact hword.begins.append rest
  rw [endOfQuery_of_begins hbegins, hskip, Junction.leading_append hw]
  rfl

/-- A single predicate ends in front of the first junction. -/
theorem readSingle_of_junction {j : Junction} {js : List Junction}
    (h : chainJunctions keywordCase query = j :: js) :
    readSingle query = .error ⟨.endOfQuery, j.tail⟩ := by
  cases hp : Scan.predicate query with
  | error m =>
    rw [chainJunctions_of_error hp] at h
    cases h
  | ok x =>
    obtain ⟨p, s⟩ := x
    rw [chainJunctions_of_ok hp] at h
    cases hc : Scan.combinator? keywordCase s with
    | none =>
      rw [linkJunctions_of_none hc] at h
      cases h
    | some x =>
      obtain ⟨c, s₁⟩ := x
      rw [linkJunctions_of_some hc] at h
      obtain ⟨rfl, -⟩ := List.cons.inj h
      rw [readSingle, hp]
      show (Scan.endOfQuery s >>= fun _ => .ok p) = _
      rw [endOfQuery_of_combinator hc]
      rfl

theorem readChain_of_no_junction (h : chainJunctions keywordCase query = []) :
    readChain keywordCase query = (readSingle query).map (⟨·, []⟩) := by
  rw [readChain_eq_chain]
  cases hp : Scan.predicate query with
  | error m =>
    rw [Scan.chain_of_error hp, readSingle, hp]
    rfl
  | ok x =>
    obtain ⟨p, s⟩ := x
    rw [chainJunctions_of_ok hp] at h
    cases hc : Scan.combinator? keywordCase s with
    | none =>
      rw [Scan.chain_of_ok hp, links_of_none hc, readSingle, hp]
      cases hend : Scan.endOfQuery s <;> simp [bind, Except.bind, Except.map, hend]
    | some x =>
      obtain ⟨c, s₁⟩ := x
      rw [linkJunctions_of_some hc] at h
      cases h

/-- The junctions of a chain that has been read are its combinators. -/
theorem map_combinator_chainJunctions {chain : Chain Predicate}
    (h : readChain keywordCase query = .ok chain) :
    (chainJunctions keywordCase query).map Junction.combinator = chain.links.map Prod.fst := by
  unfold readChain at h
  simp only [bind_eq_ok_iff, Prod.exists] at h
  obtain ⟨p, s, hp, ls, rest, hl, -, -, h⟩ := h
  cases h
  rw [chainJunctions_of_ok hp, map_combinator_linkJunctions hl]

/-- A junction stands in the query as it is written. -/
theorem suffix_of_mem_chainJunctions {j : Junction} (h : j ∈ chainJunctions keywordCase query) :
    j.tail <:+ query ∧ Spells keywordCase j.combinator.word j.word := by
  obtain ⟨p, s, hp, h⟩ := mem_chainJunctions_iff.1 h
  obtain ⟨htail, hspells⟩ := suffix_of_mem_linkJunctions h
  exact ⟨htail.trans (suffix_of_predicate hp), hspells⟩

/-! ## The way that is taken -/

theorem readPredicates_of_none (h : lookahead query = none) :
    readPredicates keywordCase query = (readSingle query).map (⟨·, []⟩) := by
  rw [readPredicates, h]

theorem readPredicates_of_some (h : lookahead query = some c) :
    readPredicates keywordCase query = readChain keywordCase query := by
  rw [readPredicates, h]

theorem junctions_of_none (h : lookahead query = none) : junctions keywordCase query = [] := by
  rw [junctions, h]

theorem junctions_of_some (h : lookahead query = some c) :
    junctions keywordCase query = chainJunctions keywordCase query := by
  rw [junctions, h]

/-! ## Answers -/

/-- Whether a query was read to its end.  A value of it may be blank. -/
def IsRead {α : Type} (result : Except QueryError α) : Prop :=
  (∃ a, result = .ok a) ∨ ∃ part, result = .error (.blank part)

theorem IsRead.not_isMalformed {α : Type} {result : Except QueryError α} (h : IsRead result) :
    ¬ IsMalformed result := by
  rcases h with ⟨a, rfl⟩ | ⟨part, rfl⟩
  · exact not_isMalformed_ok a
  · exact not_isMalformed_blank part

/-- The answer to a query that is read in some way. -/
def answer (config : Config) (query : String) (reading : Except Mismatch (Chain Predicate)) :
    Except QueryError FilterQuery := do
  config.checkLength query.toList
  let chain ← reading.mapError (QueryError.ofMismatch query.toList)
  let filter ← ((chain.map Filter.test).assemble config.chainShape).check.mapError .blank
  .ok ⟨.dollarFilter, query, filter⟩

theorem parse_eq_answer (config : Config) (query : String) :
    parse config query = answer config query (readPredicates config.keywordCase query.toList) :=
  rfl

/-- The answer to a query that is read as a chain whatever the look-ahead finds. -/
def parseAsChain (config : Config) (query : String) : Except QueryError FilterQuery :=
  answer config query (readChain config.keywordCase query.toList)

theorem checkLength_cases (config : Config) (text : List Char) :
    config.checkLength text = .ok () ∨
      ∃ length limit, config.checkLength text = .error (.tooLong length limit) := by
  rw [Config.checkLength]
  split
  · exact .inr ⟨_, _, rfl⟩
  · exact .inl rfl

section

variable {config : Config} {text : String}

theorem answer_of_refused {e : QueryError} (h : config.checkLength text.toList = .error e)
    (reading : Except Mismatch (Chain Predicate)) : answer config text reading = .error e := by
  rw [answer, h]
  rfl

theorem answer_error (h : config.checkLength text.toList = .ok ()) (m : Mismatch) :
    answer config text (.error m) = .error (.ofMismatch text.toList m) := by
  rw [answer, h]
  rfl

theorem answer_ok (h : config.checkLength text.toList = .ok ()) (chain : Chain Predicate) :
    answer config text (.ok chain) =
      (((chain.map Filter.test).assemble config.chainShape).check.mapError .blank).bind
        fun filter => .ok ⟨.dollarFilter, text, filter⟩ := by
  rw [answer, h]
  rfl

theorem isRead_answer_ok (h : config.checkLength text.toList = .ok ()) (chain : Chain Predicate) :
    IsRead (answer config text (.ok chain)) := by
  rw [answer_ok h, Filter.check]
  split
  · exact .inr ⟨_, rfl⟩
  · exact .inl ⟨_, rfl⟩

theorem exists_chain_of_isRead (hlength : config.checkLength text.toList = .ok ())
    {reading : Except Mismatch (Chain Predicate)} (h : IsRead (answer config text reading)) :
    ∃ chain, reading = .ok chain := by
  cases reading with
  | ok chain => exact ⟨chain, rfl⟩
  | error m =>
    rw [answer_error hlength] at h
    exact absurd ⟨_, _, rfl⟩ h.not_isMalformed

theorem exists_mismatch_of_malformed (hlength : config.checkLength text.toList = .ok ())
    {reading : Except Mismatch (Chain Predicate)} {n : Nat} {expected : Expectation}
    (h : answer config text reading = .error (.malformed n expected)) :
    ∃ m, reading = .error m ∧ QueryError.ofMismatch text.toList m = .malformed n expected := by
  cases reading with
  | ok chain => exact absurd ⟨n, expected, h⟩ (isRead_answer_ok hlength chain).not_isMalformed
  | error m =>
    rw [answer_error hlength] at h
    exact ⟨m, rfl, Except.error.inj h⟩

end

/-! ## Where the two ways part -/

/-- Whether the first combinator of a query is where a single predicate is refused, since the
query would have to end there. -/
def EndsAtFirstJunction (keywordCase : KeywordCase) (query : List Char) : Prop :=
  ∃ j js n, chainJunctions keywordCase query = j :: js ∧
    Spells keywordCase j.combinator.word j.word ∧ j.StartsAt query n ∧
    (readSingle query).mapError (QueryError.ofMismatch query) =
      .error (.malformed n .endOfQuery)

theorem endsAtFirstJunction (h : chainJunctions keywordCase query ≠ []) :
    EndsAtFirstJunction keywordCase query := by
  obtain ⟨j, js, hj⟩ := List.exists_cons_of_ne_nil h
  have hmem : j ∈ chainJunctions keywordCase query := by
    rw [hj]
    exact List.mem_cons_self
  obtain ⟨htail, hspells⟩ := suffix_of_mem_chainJunctions hmem
  refine ⟨j, js, _, hj, hspells, Junction.startsAt_of_suffix htail, ?_⟩
  rw [readSingle_of_junction hj]
  rfl

/-- A single predicate is read just where a chain without links is.  Where the chain takes a
combinator, the single predicate is refused in front of the first one.  Where it takes none,
both are refused alike.  So what the look-ahead finds decides the answer only if it finds
nothing in a query that writes a combinator. -/
theorem single_agrees_with_chain (config : Config) (query : String) :
    (∀ p, readSingle query.toList = .ok p ↔
      readChain config.keywordCase query.toList = .ok ⟨p, []⟩) ∧
    (∀ chain, readChain config.keywordCase query.toList = .ok chain → chain.links ≠ [] →
      EndsAtFirstJunction config.keywordCase query.toList) ∧
    (∀ m, readChain config.keywordCase query.toList = .error m →
      chainJunctions config.keywordCase query.toList ≠ [] →
      EndsAtFirstJunction config.keywordCase query.toList) ∧
    (∀ m, readChain config.keywordCase query.toList = .error m →
      chainJunctions config.keywordCase query.toList = [] →
      readSingle query.toList = .error m) ∧
    (parse config query ≠ parseAsChain config query →
      lookahead query.toList = none ∧
        chainJunctions config.keywordCase query.toList ≠ []) := by
  refine ⟨fun p => ?_, ?_, fun m _ h => endsAtFirstJunction h, ?_, ?_⟩
  · rw [readSingle_eq_ok_iff, readChain_eq_ok_iff, isChain_single_iff]
  · intro chain hread hlinks
    apply endsAtFirstJunction
    intro hnil
    have hmap := map_combinator_chainJunctions hread
    rw [hnil] at hmap
    exact hlinks (List.map_eq_nil_iff.1 hmap.symm)
  · intro m hread hnil
    rw [readChain_of_no_junction hnil] at hread
    cases hs : readSingle query.toList with
    | error m' =>
      rw [hs] at hread
      cases hread
      rfl
    | ok p =>
      rw [hs] at hread
      cases hread
  · intro hdiffer
    rw [parse_eq_answer, parseAsChain] at hdiffer
    cases hl : lookahead query.toList with
    | some c =>
      rw [readPredicates_of_some hl] at hdiffer
      exact absurd rfl hdiffer
    | none =>
      refine ⟨rfl, fun hnil => hdiffer ?_⟩
      rw [readPredicates_of_none hl, readChain_of_no_junction hnil]

/-- A combinator with white space on one side only is not looked ahead for. -/
example :
    parse {} "a eq 'é'or b eq 1" = .error (.malformed 9 .endOfQuery) ∧
      parseAsChain {} "a eq 'é'or b eq 1" = .ok ⟨.dollarFilter, "a eq 'é'or b eq 1",
        .join (.test ⟨"a", .equals, "é"⟩) (.test ⟨"b", .equals, "1"⟩) .or⟩ := by
  cbv

end FilterQuery
end Criteria
