import Criteria.Filter.Walk

/-!
# Walks as stack evaluations

A walk does what a machine does that visits the nodes of a filter in post-order and holds the
outputs on a stack.  A predicate adds one output, and a join takes two off and adds one.
-/

namespace Criteria
namespace Filter

/-! ## Post-order -/

/-- The nodes of a filter, each with all below it: the left side, the right side, the join. -/
def postorder : Filter → List Filter
  | test p => [test p]
  | join l r c => l.postorder ++ r.postorder ++ [join l r c]

theorem length_postorder (f : Filter) : f.postorder.length = f.size := by
  induction f with
  | test p => rfl
  | join l r c ihl ihr =>
    simp only [postorder, size, List.length_append, List.length_singleton, ihl, ihr]

/-- A filter is the last of its nodes, wherever these stand. -/
theorem getElem?_postorder (before : List Filter) (f : Filter) (after : List Filter) :
    (before ++ (f.postorder ++ after))[before.length + (f.size - 1)]? = some f := by
  have hlast : f.postorder[f.postorder.length - 1]? = some f := by
    rw [← List.getLast?_eq_getElem?]
    cases f <;> simp [postorder]
  have hlength : f.size - 1 < f.postorder.length := by
    have hpos := size_pos f
    rw [length_postorder]
    omega
  rw [List.getElem?_append_right (Nat.le_add_right _ _), Nat.add_sub_cancel_left,
    List.getElem?_append_left hlength, ← length_postorder, hlast]

/-- The nodes below a node stand together, with the node itself at their end. -/
theorem exists_postorder_below {f g : Filter} {n : Nat} (h : f.postorder[n]? = some g) :
    ∃ before after, f.postorder = before ++ g.postorder ++ after ∧
      before.length + g.size = n + 1 := by
  induction f generalizing n with
  | test p =>
    obtain ⟨hn, rfl⟩ := List.getElem?_eq_some_iff.1 h
    obtain rfl : n = 0 := Nat.lt_one_iff.1 hn
    exact ⟨[], [], rfl, rfl⟩
  | join l r c ihl ihr =>
    rw [postorder, List.append_assoc] at h ⊢
    by_cases hl : n < l.postorder.length
    · rw [List.getElem?_append_left hl] at h
      obtain ⟨before, after, hnodes, hlength⟩ := ihl h
      exact ⟨before, after ++ (r.postorder ++ [join l r c]), by rw [hnodes]; simp, hlength⟩
    rw [List.getElem?_append_right (Nat.not_lt.1 hl)] at h
    by_cases hr : n - l.postorder.length < r.postorder.length
    · rw [List.getElem?_append_left hr] at h
      obtain ⟨before, after, hnodes, hlength⟩ := ihr h
      refine ⟨l.postorder ++ before, after ++ [join l r c], by rw [hnodes]; simp, ?_⟩
      rw [List.length_append]
      omega
    · rw [List.getElem?_append_right (Nat.not_lt.1 hr)] at h
      obtain ⟨hn, hg⟩ := List.getElem?_eq_some_iff.1 h
      rw [List.getElem_singleton] at hg
      subst hg
      refine ⟨[], [], by simp [postorder], ?_⟩
      rw [List.length_singleton] at hn
      rw [length_postorder] at hl hr hn
      rw [length_postorder] at hr hn
      rw [size, List.length_nil]
      omega

/-- The right side of a join stands directly in front of it, and the left side in front of all
the nodes of the right side. -/
theorem postorder_sides {f l r : Filter} {c : Combinator} {n : Nat}
    (h : f.postorder[n]? = some (join l r c)) :
    ∃ left, n = left + r.size + 1 ∧ f.postorder[left]? = some l ∧
      f.postorder[left + r.size]? = some r := by
  obtain ⟨before, after, hnodes, hlength⟩ := exists_postorder_below h
  have hl := size_pos l
  have hr := size_pos r
  rw [size] at hlength
  have hnodes' : f.postorder =
      before ++ (l.postorder ++ (r.postorder ++ ([join l r c] ++ after))) := by
    rw [hnodes, postorder]
    simp only [List.append_assoc]
  have hleft := getElem?_postorder before l (r.postorder ++ ([join l r c] ++ after))
  have hright := getElem?_postorder (before ++ l.postorder) r ([join l r c] ++ after)
  rw [← hnodes'] at hleft
  rw [List.append_assoc, ← hnodes', List.length_append, length_postorder] at hright
  refine ⟨before.length + (l.size - 1), by omega, hleft, ?_⟩
  rwa [show before.length + (l.size - 1) + r.size = before.length + l.size + (r.size - 1) by omega]

/-! ## The machine

It runs in whatever monad the visits do. -/

section

variable {m : Type → Type} [Monad m] {α : Type}

def push (x : m α) (outputs : List α) : OptionT m (List α) := do
  let output ← liftM x
  pure (output :: outputs)

/-- A visit of a node, with the outputs so far on a stack, the latest on top.  A join that
finds fewer than two is not visited, and the machine is stuck. -/
def visit (visitor : Visitor m α) : Filter → List α → OptionT m (List α)
  | test p, outputs => push (visitor.test p) outputs
  | join _ _ c, right :: left :: outputs => push (visitor.join c left right) outputs
  | join _ _ _, _ => failure

def visitAll (visitor : Visitor m α) : List Filter → List α → OptionT m (List α)
  | [], outputs => pure outputs
  | f :: fs, outputs => do
    let outputs ← visit visitor f outputs
    visitAll visitor fs outputs

variable [LawfulMonad m] (visitor : Visitor m α)

theorem visitAll_append (fs gs : List Filter) (outputs : List α) :
    visitAll visitor (fs ++ gs) outputs = visitAll visitor fs outputs >>= visitAll visitor gs := by
  induction fs generalizing outputs with
  | nil => simp only [List.nil_append, visitAll, pure_bind]
  | cons f fs ih => simp only [List.cons_append, visitAll, ih, bind_assoc]

/-- The nodes of a filter leave one output on the stack, which is that of the walk. -/
theorem visitAll_postorder (f : Filter) (outputs : List α) :
    visitAll visitor f.postorder outputs =
      (· :: outputs) <$> (liftM (walk visitor f) : OptionT m α) := by
  induction f generalizing outputs with
  | test p => simp [postorder, visitAll, visit, push, walk]
  | join l r c ihl ihr => simp [postorder, visitAll_append, visitAll, visit, push, walk, ihl, ihr]

theorem run_visitAll_postorder (f : Filter) :
    (visitAll visitor f.postorder []).run = (fun output => some [output]) <$> walk visitor f := by
  rw [visitAll_postorder, OptionT.run_map]
  show Option.map _ <$> (OptionT.lift (walk visitor f)).run = _
  simp

end

end Filter
end Criteria
