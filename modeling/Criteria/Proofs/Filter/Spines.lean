import Criteria.Proofs.Filter.Assembly
import Criteria.Proofs.Filter.Leaves

/-!
# Assembled chains read back

Both shapes keep what is read off a chain from left to right, the combinators as well as the
predicates.  A chain of predicates can be read off its filter again: threaded, it lies along the
right spine, and nested to the left, along the left one.
-/

namespace Criteria
namespace Filter

/-! ## From left to right -/

/-- The predicates and the combinators of a filter in turn, from left to right. -/
def inorder : Filter → List Label
  | test p => [.test p]
  | join l r c => l.inorder ++ .join c :: r.inorder

def combinators : Filter → List Combinator
  | test _ => []
  | join l r c => l.combinators ++ c :: r.combinators

def Label.combinator? : Label → Option Combinator
  | .test _ => none
  | .join c => some c

theorem filterMap_predicate?_inorder (f : Filter) :
    f.inorder.filterMap Label.predicate? = f.leaves := by
  induction f with
  | test p => rw [leaves_test]; rfl
  | join l r c ihl ihr =>
    rw [inorder, List.filterMap_append, List.filterMap_cons_none rfl, ihl, ihr, leaves_join]

theorem filterMap_combinator?_inorder (f : Filter) :
    f.inorder.filterMap Label.combinator? = f.combinators := by
  induction f with
  | test p => rfl
  | join l r c ihl ihr =>
    have hhead : Label.combinator? (.join c) = some c := rfl
    rw [inorder, List.filterMap_append, List.filterMap_cons_some hhead, ihl, ihr, combinators]

/-- Every combinator of a chain, followed by what its operand reads. -/
def linksInorder (links : List (Combinator × Filter)) : List Label :=
  links.flatMap fun (c, f) => .join c :: f.inorder

theorem linksInorder_cons (c : Combinator) (f : Filter) (links : List (Combinator × Filter)) :
    linksInorder ((c, f) :: links) = .join c :: f.inorder ++ linksInorder links := rfl

theorem inorder_threaded (first : Filter) (links : List (Combinator × Filter)) :
    (threaded first links).inorder = first.inorder ++ linksInorder links := by
  induction links generalizing first with
  | nil => exact (List.append_nil _).symm
  | cons link links ih =>
    obtain ⟨c, next⟩ := link
    rw [threaded, inorder, ih, linksInorder_cons, List.cons_append]

theorem inorder_leftNested (first : Filter) (links : List (Combinator × Filter)) :
    (leftNested first links).inorder = first.inorder ++ linksInorder links := by
  induction links generalizing first with
  | nil => exact (List.append_nil _).symm
  | cons link links ih =>
    obtain ⟨c, next⟩ := link
    rw [leftNested_cons, ih, inorder, linksInorder_cons, List.append_assoc]

theorem inorder_assemble (shape : ChainShape) (chain : Chain Filter) :
    (chain.assemble shape).inorder = chain.first.inorder ++ linksInorder chain.links := by
  cases shape with
  | threaded => exact inorder_threaded chain.first chain.links
  | leftNested => exact inorder_leftNested chain.first chain.links

/-! ## Along a spine -/

/-- The left sides of the joins down the right spine, and the predicate at its end. -/
def rightSpine : Filter → Chain Filter
  | test p => ⟨test p, []⟩
  | join l r c => ⟨l, (c, r.rightSpine.first) :: r.rightSpine.links⟩

/-- The predicate at the end of the left spine, and the right sides of the joins up from it. -/
def leftSpine : Filter → Chain Filter
  | test p => ⟨test p, []⟩
  | join l r c => ⟨l.leftSpine.first, l.leftSpine.links ++ [(c, r)]⟩

/-- The chain along the spine on which a shape lays it. -/
def spine : ChainShape → Filter → Chain Filter
  | .threaded => rightSpine
  | .leftNested => leftSpine

/-- Only the operand at the end has to be a predicate. -/
theorem rightSpine_threaded {first : Filter} {links : List (Combinator × Filter)}
    (h : ∀ f ∈ (Chain.mk first links).operands.getLast?, ∃ p, f = test p) :
    (threaded first links).rightSpine = ⟨first, links⟩ := by
  induction links generalizing first with
  | nil =>
    obtain ⟨p, rfl⟩ := h first rfl
    rfl
  | cons link links ih =>
    obtain ⟨c, next⟩ := link
    have hnext : (threaded next links).rightSpine = ⟨next, links⟩ :=
      ih fun f hf => h f (List.getLast?_cons_cons.trans hf)
    rw [threaded, rightSpine, hnext]

/-- Nesting puts its links behind those along the left spine of the first operand. -/
theorem leftSpine_leftNested (first : Filter) (links : List (Combinator × Filter)) :
    (leftNested first links).leftSpine =
      ⟨first.leftSpine.first, first.leftSpine.links ++ links⟩ := by
  induction links generalizing first with
  | nil => rw [List.append_nil]; rfl
  | cons link links ih =>
    obtain ⟨c, next⟩ := link
    rw [leftNested_cons, ih, leftSpine, List.append_assoc, List.singleton_append]

theorem spine_assemble_test (shape : ChainShape) (chain : Chain Predicate) :
    ((chain.map test).assemble shape).spine shape = chain.map test := by
  cases shape with
  | threaded =>
    refine rightSpine_threaded fun f hf => ?_
    have hmem : f ∈ (chain.map test).operands := List.mem_of_getLast? hf
    rw [operands_map] at hmem
    obtain ⟨p, -, rfl⟩ := List.mem_map.1 hmem
    exact ⟨p, rfl⟩
  | leftNested => exact leftSpine_leftNested _ _

theorem map_test_inj {chain chain' : Chain Predicate} :
    chain.map test = chain'.map test ↔ chain = chain' := by
  obtain ⟨first, links⟩ := chain
  obtain ⟨first', links'⟩ := chain'
  rw [Chain.map, Chain.map, Chain.mk.injEq, Chain.mk.injEq, test.injEq,
    List.map_inj_right]
  rintro ⟨c, p⟩ ⟨c', p'⟩ h
  cases h
  rfl

/-- Assembling keeps what is read from left to right, so filters of both shapes have the same
predicates and the same combinators in the same order.  From a chain of predicates nothing is
lost: it is read off again along the spine on which its shape lays it. -/
theorem assemble_keeps_order :
    (∀ (shape : ChainShape) (chain : Chain Filter), (chain.assemble shape).inorder =
      chain.first.inorder ++ chain.links.flatMap fun (c, f) => .join c :: f.inorder) ∧
    (∀ chain : Chain Filter,
      (chain.assemble .threaded).leaves = (chain.assemble .leftNested).leaves ∧
      (chain.assemble .threaded).combinators = (chain.assemble .leftNested).combinators) ∧
    (∀ (shape : ChainShape) (chain : Chain Predicate),
      ((chain.map test).assemble shape).spine shape = chain.map test) ∧
    (∀ (shape : ChainShape) (chain chain' : Chain Predicate),
      (chain.map test).assemble shape = (chain'.map test).assemble shape ↔ chain = chain') := by
  refine ⟨inorder_assemble, fun chain => ?_, spine_assemble_test, fun shape chain chain' => ?_⟩
  · have hsame : (chain.assemble .threaded).inorder = (chain.assemble .leftNested).inorder := by
      rw [inorder_assemble, inorder_assemble]
    rw [← filterMap_predicate?_inorder, ← filterMap_predicate?_inorder,
      ← filterMap_combinator?_inorder, ← filterMap_combinator?_inorder, hsame]
    exact ⟨rfl, rfl⟩
  · constructor
    · intro h
      have hspine := congrArg (spine shape) h
      rwa [spine_assemble_test, spine_assemble_test, map_test_inj] at hspine
    · rintro rfl
      rfl

/-- An operand that is a join cannot be told from two operands. -/
example (p q r : Predicate) :
    (Chain.mk (test p) [(.and, join (test q) (test r) .or)]).assemble .threaded =
      (Chain.mk (test p) [(.and, test q), (.or, test r)]).assemble .threaded := rfl

end Filter
end Criteria
