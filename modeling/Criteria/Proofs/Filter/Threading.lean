import Criteria.Filter.Chain

/-!
# Ways to thread a chain

A threaded chain can be grown from its first operand: every link replaces the operand at the end
of the right spine by the join of that operand with the next.  It can also be folded from its
end, once every combinator has been paired with the operand in front of it.  Both come to what
the recursion over the links does.
-/

namespace Criteria
namespace Filter

/-! ## Growth at the end -/

/-- What stands `n` joins down the right spine, if the spine has so many. -/
def spine? : Nat → Filter → Option Filter
  | 0, f => some f
  | n + 1, join _ r _ => spine? n r
  | _ + 1, test _ => none

/-- Replaces what stands `n` joins down the right spine by its join with a further operand. -/
def extend? (c : Combinator) (next : Filter) : Nat → Filter → Option Filter
  | 0, last => some (join last next c)
  | n + 1, join l r c' => (extend? c next n r).map (join l · c')
  | _ + 1, test _ => none

/-- Grows a filter by several links.  The operand at its end stands `n` joins down the right
spine, whatever joins that operand has of its own. -/
def grow? : Nat → Filter → List (Combinator × Filter) → Option Filter
  | _, f, [] => some f
  | n, f, (c, next) :: links => do
    let f ← extend? c next n f
    grow? (n + 1) f links

theorem spine?_threaded (first : Filter) (links : List (Combinator × Filter)) :
    spine? links.length (threaded first links) = (Chain.mk first links).operands.getLast? := by
  induction links generalizing first with
  | nil => rfl
  | cons link links ih =>
    obtain ⟨c, next⟩ := link
    rw [threaded, List.length_cons, spine?, ih next]
    exact List.getLast?_cons_cons.symm

/-- One link more at the end of a threaded chain. -/
theorem extend?_threaded (first next : Filter) (c : Combinator)
    (links : List (Combinator × Filter)) :
    extend? c next links.length (threaded first links) =
      some (threaded first (links ++ [(c, next)])) := by
  induction links generalizing first with
  | nil => rfl
  | cons link links ih =>
    obtain ⟨c', f⟩ := link
    rw [threaded, List.length_cons, extend?, ih f]
    rfl

theorem grow?_threaded (first : Filter) (done links : List (Combinator × Filter)) :
    grow? done.length (threaded first done) links = some (threaded first (done ++ links)) := by
  induction links generalizing done with
  | nil => rw [grow?, List.append_nil]
  | cons link links ih =>
    obtain ⟨c, next⟩ := link
    have hlength : done.length + 1 = (done ++ [(c, next)]).length := by
      rw [List.length_append, List.length_singleton]
    rw [grow?, extend?_threaded, Option.bind_eq_bind, Option.bind_some, hlength, ih,
      List.append_assoc, List.singleton_append]

/-- What the first `k` links grow to has the operand with the number `k` at its end. -/
theorem spine?_grow? {chain : Chain Filter} {k : Nat} (hk : k ≤ chain.links.length) :
    ∃ f, grow? 0 chain.first (chain.links.take k) = some f ∧
      spine? k f = chain.operands[k]? := by
  obtain ⟨first, links⟩ := chain
  have hlength : (links.take k).length = k := List.length_take_of_le hk
  have hspine := spine?_threaded first (links.take k)
  have hoperands : (Chain.mk first (links.take k)).operands =
      (Chain.mk first links).operands.take (k + 1) := by
    rw [Chain.operands, Chain.operands, List.take_succ_cons, List.map_take]
  rw [hlength, hoperands, List.getLast?_eq_getElem?, List.length_take_of_le] at hspine
  · refine ⟨_, grow?_threaded first [] (links.take k), hspine.trans ?_⟩
    rw [Nat.add_sub_cancel, List.getElem?_take_of_lt (Nat.lt_succ_self k)]
  · rw [Chain.operands, List.length_cons, List.length_map]
    exact Nat.succ_le_succ hk

/-! ## Folding from the end -/

/-- Takes over a link: its combinator is paired with the operand in front of it. -/
def pairLink (paired : List (Filter × Combinator) × Filter) (link : Combinator × Filter) :
    List (Filter × Combinator) × Filter :=
  (paired.1 ++ [(paired.2, link.1)], link.2)

/-- Joins the pairs, from the last to the first, in front of the last operand. -/
def joinPairs (paired : List (Filter × Combinator) × Filter) : Filter :=
  paired.1.reverse.foldl (fun rest (left, c) => join left rest c) paired.2

def foldPairs (chain : Chain Filter) : Filter :=
  joinPairs (chain.links.foldl pairLink ([], chain.first))

theorem joinPairs_append (pairs : List (Filter × Combinator)) (left last : Filter)
    (c : Combinator) :
    joinPairs (pairs ++ [(left, c)], last) = joinPairs (pairs, join left last c) := by
  rw [joinPairs, joinPairs, List.reverse_append]
  rfl

/-- Behind some pairs the links that are left come to a threaded chain. -/
theorem joinPairs_foldl (pairs : List (Filter × Combinator)) (first : Filter)
    (links : List (Combinator × Filter)) :
    joinPairs (links.foldl pairLink (pairs, first)) = joinPairs (pairs, threaded first links) := by
  induction links generalizing pairs first with
  | nil => rfl
  | cons link links ih =>
    obtain ⟨c, next⟩ := link
    rw [List.foldl_cons, pairLink, ih, joinPairs_append, threaded]

/-! ## Threaded chains -/

/-- A threaded chain is grown from its first operand, where each link finds the operand in front
of it at the end of the spine, as far down as there were links before.  It is folded from its
end as well, and there is no other way to assemble chains such that the first operand is the
left side of a join with the assembled rest. -/
theorem threaded_grown (chain : Chain Filter) :
    grow? 0 chain.first chain.links = some (chain.assemble .threaded) ∧
    (∀ k, k ≤ chain.links.length → ∃ f, grow? 0 chain.first (chain.links.take k) = some f ∧
      spine? k f = chain.operands[k]?) ∧
    foldPairs chain = chain.assemble .threaded ∧
    (∀ assemble : Filter → List (Combinator × Filter) → Filter,
      ((∀ first, assemble first [] = first) ∧ ∀ first c next links,
        assemble first ((c, next) :: links) = join first (assemble next links) c) ↔
      ∀ first links, assemble first links = (Chain.mk first links).assemble .threaded) := by
  obtain ⟨first, links⟩ := chain
  refine ⟨grow?_threaded first [] links, fun k hk => spine?_grow? hk,
    joinPairs_foldl [] first links, fun assemble => ⟨?_, ?_⟩⟩
  · rintro ⟨hnil, hcons⟩ first links
    induction links generalizing first with
    | nil => exact hnil first
    | cons link links ih =>
      obtain ⟨c, next⟩ := link
      rw [hcons, ih next]
      rfl
  · intro h
    refine ⟨fun first => h first [], fun first c next links => ?_⟩
    rw [h, h]
    rfl

/-- An operand that is a join is not looked into. -/
example (p q r s : Predicate) :
    grow? 0 (test p) [(.and, join (test q) (test r) .or), (.or, test s)] =
      some (join (test p) (join (join (test q) (test r) .or) (test s) .or) .and) := rfl

end Filter
end Criteria
