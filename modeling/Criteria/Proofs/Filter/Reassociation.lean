import Criteria.Filter.Render
import Criteria.Proofs.Filter.Assembly
import Criteria.Proofs.Filter.Visits

/-!
# Chains of one combinator

The shape of a chain decides which outputs are joined first.  This makes no difference to a
visitor without effects, if all the combinators are the same one and the outputs are joined for
it by an associative operation.
-/

namespace Criteria
namespace Filter

variable {m : Type → Type} [Monad m] {α : Type}

/-- The visits come to the given outputs and do nothing else: none of them fails, and none of
them changes a state. -/
structure Visitor.IsPure (visitor : Visitor m α) (outputs : Visitor Id α) : Prop where
  test (p : Predicate) : visitor.test p = pure (outputs.test p)
  join (c : Combinator) (left right : α) :
    visitor.join c left right = pure (outputs.join c left right)

/-- What a filter becomes by visits without effects. -/
def output (outputs : Visitor Id α) (f : Filter) : α := walk outputs f

theorem walk_of_isPure [LawfulMonad m] {visitor : Visitor m α} {outputs : Visitor Id α}
    (h : visitor.IsPure outputs) (f : Filter) : walk visitor f = pure (output outputs f) := by
  induction f with
  | test p => exact h.test p
  | join l r c ihl ihr =>
    rw [walk, ihl, pure_bind, ihr, pure_bind, h.join]
    rfl

/-! ## Joining outputs in turn -/

variable {outputs : Visitor Id α} {c : Combinator} {links : List (Combinator × Filter)}

/-- The outputs of the operands of a chain joined one after the other, from left to right. -/
def joinOutputs (outputs : Visitor Id α) (c : Combinator) (chain : Chain Filter) : α :=
  (chain.links.map fun (_, f) => output outputs f).foldl (outputs.join c)
    (output outputs chain.first)

theorem output_leftNested (hlinks : ∀ link ∈ links, link.1 = c) (first : Filter) :
    output outputs (leftNested first links) = joinOutputs outputs c ⟨first, links⟩ := by
  induction links generalizing first with
  | nil => rfl
  | cons link links ih =>
    obtain ⟨c', next⟩ := link
    obtain ⟨rfl, hlinks⟩ := List.forall_mem_cons.1 hlinks
    exact ih hlinks (join first next c')

/-- The operation is what lets the first operand be joined before the rest of the chain. -/
theorem output_threaded (hc : Std.Associative (outputs.join c))
    (hlinks : ∀ link ∈ links, link.1 = c) (first : Filter) :
    output outputs (threaded first links) = joinOutputs outputs c ⟨first, links⟩ := by
  induction links generalizing first with
  | nil => rfl
  | cons link links ih =>
    obtain ⟨c', next⟩ := link
    obtain ⟨rfl, hlinks⟩ := List.forall_mem_cons.1 hlinks
    show outputs.join c' (output outputs first) (output outputs (threaded next links)) = _
    rw [ih hlinks next]
    exact List.foldl_assoc.symm

/-! ## Both shapes -/

/-- Of a chain joined by one combinator a visitor without effects makes the same in both shapes,
if it joins outputs for that combinator by an associative operation: what becomes of the operands,
joined in their order. -/
theorem walk_assemble_same [LawfulMonad m] (visitor : Visitor m α) (outputs : Visitor Id α)
    (hvisitor : visitor.IsPure outputs) (c : Combinator)
    (hc : Std.Associative (outputs.join c)) (chain : Chain Filter)
    (hlinks : ∀ link ∈ chain.links, link.1 = c) :
    (∀ f ∈ chain.operands, walk visitor f = pure (output outputs f)) ∧
    (∀ shape, walk visitor (chain.assemble shape) = pure (joinOutputs outputs c chain)) := by
  refine ⟨fun f _ => walk_of_isPure hvisitor f, fun shape => ?_⟩
  rw [walk_of_isPure hvisitor]
  cases shape with
  | threaded => exact congrArg pure (output_threaded hc hlinks chain.first)
  | leftNested => exact congrArg pure (output_leftNested hlinks chain.first)

/-- Renders filters without parentheses, in any monad. -/
def flatRenderer : Visitor m String where
  test p := pure p.render
  join c left right := pure (left ++ " " ++ c.token ++ " " ++ right)

/-- The visitor has a state and may fail, but makes no use of either.  One operand is a join for
the other combinator. -/
theorem walk_assemble_same_text :
    (flatRenderer : Visitor (Fallible String Nat) String).IsPure flatRenderer ∧
      ∀ shape, runFrom (walk flatRenderer ((Chain.mk (test ⟨"a", .equals, "1"⟩)
        [(.and, test ⟨"b", .lessThan, "2"⟩),
          (.and, join (test ⟨"c", .contains, "x"⟩) (test ⟨"d", .equals, "4"⟩) .or)]).assemble
            shape) : Fallible String Nat String) 7 =
        (.ok "a eq 1 and b lt 2 and c contains x or d eq 4", 7) := by
  have hpure : (flatRenderer : Visitor (Fallible String Nat) String).IsPure flatRenderer :=
    ⟨fun _ => rfl, fun _ _ _ => rfl⟩
  have hassoc : Std.Associative ((flatRenderer : Visitor Id String).join .and) := by
    refine ⟨fun x y z => ?_⟩
    show x ++ " " ++ "and" ++ " " ++ y ++ " " ++ "and" ++ " " ++ z =
      x ++ " " ++ "and" ++ " " ++ (y ++ " " ++ "and" ++ " " ++ z)
    simp only [String.append_assoc]
  refine ⟨hpure, fun shape => ?_⟩
  rw [(walk_assemble_same _ flatRenderer hpure .and hassoc _ (by simp)).2 shape]
  rfl

/-- Parentheses make an operation that is not associative, and tell the shapes apart. -/
example :
    let chain := Chain.mk (test ⟨"a", .equals, "1"⟩)
      [(.and, test ⟨"b", .equals, "2"⟩), (.and, test ⟨"c", .equals, "3"⟩)]
    (chain.assemble .threaded).render = "(a eq 1 and (b eq 2 and c eq 3))" ∧
      (chain.assemble .leftNested).render = "((a eq 1 and b eq 2) and c eq 3)" :=
  ⟨rfl, rfl⟩

end Filter
end Criteria
