import Criteria.Filter.Lookahead
import Criteria.Filter.Scan

/-!
# Filter queries

A filter query is one predicate, or a chain of predicates with a combinator
between any two.  `Filter.lookahead` decides which of the two is tried.  Blank
values are looked for only in a query that has been read to its end.
-/

namespace Criteria

/-- The query option that a filter was given for. -/
inductive QueryOption
  | dollarFilter
  deriving DecidableEq, Inhabited

/-- A filter together with the query it was read from. -/
structure FilterQuery where
  option : QueryOption
  source : String
  filter : Filter
  deriving DecidableEq

namespace FilterQuery

open Criteria.Filter

/-- The further predicates of a chain, each behind a combinator.  Where no
combinator stands the chain is over; behind one there must be a predicate. -/
def links (keywordCase : KeywordCase) (s : List Char) :
    Except Mismatch (List (Combinator × Predicate) × List Char) :=
  match _hc : Scan.combinator? keywordCase s with
  | none => .ok ([], s)
  | some (c, s₁) =>
    match _hp : Scan.predicate s₁ with
    | .error m => .error m
    | .ok (p, s₂) =>
      match links keywordCase s₂ with
      | .error m => .error m
      | .ok (ps, rest) => .ok ((c, p) :: ps, rest)
termination_by s.length
decreasing_by
  have := Scan.length_combinator? _hc
  have := Scan.length_predicate _hp
  omega

def readSingle (query : List Char) : Except Mismatch Predicate := do
  let (p, rest) ← Scan.predicate query
  Scan.endOfQuery rest
  .ok p

def readChain (keywordCase : KeywordCase) (query : List Char) :
    Except Mismatch (Chain Predicate) := do
  let (first, rest) ← Scan.predicate query
  let (links, rest) ← links keywordCase rest
  Scan.endOfQuery rest
  .ok ⟨first, links⟩

/-- The chain of predicates that a query writes. -/
def readPredicates (keywordCase : KeywordCase) (query : List Char) :
    Except Mismatch (Chain Predicate) :=
  match lookahead query with
  | none => (readSingle query).map (⟨·, []⟩)
  | some _ => readChain keywordCase query

def parse (config : Config) (query : String) : Except QueryError FilterQuery := do
  let text := query.toList
  config.checkLength text
  let chain ← (readPredicates config.keywordCase text).mapError (QueryError.ofMismatch text)
  let filter := (chain.map Filter.test).assemble config.chainShape
  let filter ← filter.check.mapError QueryError.blank
  .ok ⟨.dollarFilter, query, filter⟩

end FilterQuery
end Criteria
