import Criteria.Filter.Basic

/-!
# Chains

A query lists its predicates in a chain: a first operand, then further operands,
each behind a combinator.  `and` and `or` bind equally, and the chain is turned
into a tree in one of two shapes.  `a and b or c` is threaded into
`(a and (b or c))` and nested to the left into `((a and b) or c)`.
-/

namespace Criteria

inductive ChainShape
  | threaded
  | leftNested
  deriving DecidableEq, Inhabited

namespace Filter

structure Chain (α : Type) where
  first : α
  links : List (Combinator × α)
  deriving DecidableEq

/-- Every join takes one operand as its left side and the rest of the chain as
its right side. -/
def threaded (first : Filter) : List (Combinator × Filter) → Filter
  | [] => first
  | (c, next) :: links => join first (threaded next links) c

/-- Every join takes the chain so far as its left side. -/
def leftNested (first : Filter) (links : List (Combinator × Filter)) : Filter :=
  links.foldl (fun left (c, right) => join left right c) first

namespace Chain

def map {α β : Type} (f : α → β) (chain : Chain α) : Chain β where
  first := f chain.first
  links := chain.links.map fun (c, a) => (c, f a)

/-- The first operand, then those of the links in order. -/
def operands {α : Type} (chain : Chain α) : List α :=
  chain.first :: chain.links.map Prod.snd

def assemble (shape : ChainShape) (chain : Chain Filter) : Filter :=
  match shape with
  | .threaded => threaded chain.first chain.links
  | .leftNested => leftNested chain.first chain.links

end Chain
end Filter
end Criteria
