import Criteria.Filter.Chain
import Criteria.Filter.Leaves

/-!
# Assembled chains

Both shapes keep the operands of a chain in their order, so what is read off a filter from
left to right does not depend on the shape.  A chain of predicates becomes a filter as high
as the chain is long.
-/

namespace Criteria
namespace Filter

theorem leftNested_cons (first f : Filter) (c : Combinator)
    (links : List (Combinator × Filter)) :
    leftNested first ((c, f) :: links) = leftNested (join first f c) links := rfl

theorem leaves_threaded (first : Filter) (links : List (Combinator × Filter)) :
    (threaded first links).leaves = first.leaves ++ links.flatMap (·.2.leaves) := by
  induction links generalizing first with
  | nil => simp [threaded]
  | cons link links ih => rw [threaded, leaves_join, ih, List.flatMap_cons]

theorem leaves_leftNested (first : Filter) (links : List (Combinator × Filter)) :
    (leftNested first links).leaves = first.leaves ++ links.flatMap (·.2.leaves) := by
  induction links generalizing first with
  | nil => simp [leftNested]
  | cons link links ih =>
    rw [leftNested_cons, ih, leaves_join, List.flatMap_cons, List.append_assoc]

theorem leaves_assemble (shape : ChainShape) (chain : Chain Filter) :
    (chain.assemble shape).leaves = chain.operands.flatMap leaves := by
  obtain ⟨first, links⟩ := chain
  rw [Chain.operands, List.flatMap_cons, List.flatMap_map]
  cases shape with
  | threaded => exact leaves_threaded first links
  | leftNested => exact leaves_leftNested first links

/-- The first blank part of a filter is that of its first leaf that has one. -/
theorem blankPart?_eq_findSome? (f : Filter) :
    f.blankPart? = f.leaves.findSome? Predicate.blankPart? := by
  induction f with
  | test p => simp [blankPart?]
  | join l r c ihl ihr => rw [blankPart?, ihl, ihr, leaves_join, List.findSome?_append]

theorem blankPart?_eq_none_iff {f : Filter} :
    f.blankPart? = none ↔ ∀ p ∈ f.leaves, p.blankPart? = none := by
  rw [blankPart?_eq_findSome?, List.findSome?_eq_none_iff]

/-- Assembling a chain adds no blank part. -/
theorem blankPart?_assemble_eq_none {chain : Chain Filter}
    (h : ∀ f ∈ chain.operands, f.blankPart? = none) (shape : ChainShape) :
    (chain.assemble shape).blankPart? = none := by
  rw [blankPart?_eq_none_iff, leaves_assemble]
  intro p hp
  obtain ⟨f, hf, hp⟩ := List.mem_flatMap.1 hp
  exact blankPart?_eq_none_iff.1 (h f hf) p hp

theorem operands_map {α β : Type} (f : α → β) (chain : Chain α) :
    (chain.map f).operands = chain.operands.map f := by
  simp [Chain.operands, Chain.map]

/-! ## Chains of predicates -/

variable (shape : ChainShape) (chain : Chain Predicate)

theorem leaves_assemble_test :
    ((chain.map test).assemble shape).leaves = chain.operands := by
  rw [leaves_assemble, operands_map, List.flatMap_map]
  simp

theorem blankPart?_assemble_test :
    ((chain.map test).assemble shape).blankPart? =
      chain.operands.findSome? Predicate.blankPart? := by
  rw [blankPart?_eq_findSome?, leaves_assemble_test]

theorem height_threaded {links : List (Combinator × Filter)}
    (hlinks : ∀ link ∈ links, link.2.height = 1) {first : Filter} (hfirst : first.height = 1) :
    (threaded first links).height = links.length + 1 := by
  induction links generalizing first with
  | nil => exact hfirst
  | cons link links ih =>
    have h := ih (fun l hl => hlinks l (List.mem_cons_of_mem link hl))
      (hlinks link List.mem_cons_self)
    rw [threaded, height, h, hfirst, List.length_cons]
    omega

theorem height_pos (f : Filter) : 0 < f.height := by
  cases f <;> simp [height]

theorem height_leftNested {links : List (Combinator × Filter)}
    (hlinks : ∀ link ∈ links, link.2.height = 1) (first : Filter) :
    (leftNested first links).height = links.length + first.height := by
  induction links generalizing first with
  | nil => simp [leftNested]
  | cons link links ih =>
    have hpos := height_pos first
    rw [leftNested_cons, ih (fun l hl => hlinks l (List.mem_cons_of_mem link hl)), height,
      hlinks link List.mem_cons_self, List.length_cons]
    omega

theorem height_assemble_test :
    ((chain.map test).assemble shape).height = chain.operands.length := by
  have hlinks : ∀ link ∈ (chain.map test).links, link.2.height = 1 := by
    intro link hlink
    obtain ⟨⟨c, p⟩, -, rfl⟩ := List.mem_map.1 hlink
    rfl
  have hlength : chain.operands.length = (chain.map test).links.length + 1 := by
    simp [Chain.operands, Chain.map]
  rw [hlength]
  cases shape with
  | threaded => exact height_threaded hlinks rfl
  | leftNested => exact height_leftNested hlinks _

end Filter
end Criteria
