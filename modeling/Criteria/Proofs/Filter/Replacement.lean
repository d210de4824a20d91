import Criteria.Proofs.Filter.Assembly

/-!
# Replacing one value

One value of a filter, or of a chain, is replaced, and everything else stays as it is.  A
replacement in a chain is one in the filter that the chain is assembled into.
-/

namespace Criteria

def Predicate.setValue (p : Predicate) (value : String) : Predicate := { p with value }

namespace Filter

/-- Whether two filters agree but for the value of one predicate, which is `value` in the
first and `value'` in the second. -/
inductive ReplacesValue (value value' : String) : Filter → Filter → Prop
  | test {p : Predicate} (h : p.value = value) :
      ReplacesValue value value' (.test p) (.test (p.setValue value'))
  | left {l l' r : Filter} {c : Combinator} (h : ReplacesValue value value' l l') :
      ReplacesValue value value' (.join l r c) (.join l' r c)
  | right {l r r' : Filter} {c : Combinator} (h : ReplacesValue value value' r r') :
      ReplacesValue value value' (.join l r c) (.join l r' c)

/-- The same of the links of two chains. -/
inductive ReplacesLink (value value' : String) :
    List (Combinator × Predicate) → List (Combinator × Predicate) → Prop
  | here {c : Combinator} {p : Predicate} {links : List (Combinator × Predicate)}
      (h : p.value = value) :
      ReplacesLink value value' ((c, p) :: links) ((c, p.setValue value') :: links)
  | there {link : Combinator × Predicate} {links links' : List (Combinator × Predicate)}
      (h : ReplacesLink value value' links links') :
      ReplacesLink value value' (link :: links) (link :: links')

/-- The same of two chains. -/
inductive ReplacesOperand (value value' : String) : Chain Predicate → Chain Predicate → Prop
  | first {p : Predicate} {links : List (Combinator × Predicate)} (h : p.value = value) :
      ReplacesOperand value value' ⟨p, links⟩ ⟨p.setValue value', links⟩
  | link {p : Predicate} {links links' : List (Combinator × Predicate)}
      (h : ReplacesLink value value' links links') :
      ReplacesOperand value value' ⟨p, links⟩ ⟨p, links'⟩

variable {value value' : String}

/-! ## Operands -/

theorem ReplacesLink.operands {links links' : List (Combinator × Predicate)}
    (h : ReplacesLink value value' links links') :
    ∃ a p b, links.map Prod.snd = a ++ p :: b ∧
      links'.map Prod.snd = a ++ p.setValue value' :: b := by
  induction h with
  | @here c p links h => exact ⟨[], p, links.map Prod.snd, rfl, rfl⟩
  | @there link links links' h ih =>
    obtain ⟨a, p, b, hlinks, hlinks'⟩ := ih
    refine ⟨link.2 :: a, p, b, ?_, ?_⟩
    · rw [List.map_cons, hlinks, List.cons_append]
    · rw [List.map_cons, hlinks', List.cons_append]

theorem ReplacesOperand.operands {chain chain' : Chain Predicate}
    (h : ReplacesOperand value value' chain chain') :
    ∃ a p b, chain.operands = a ++ p :: b ∧
      chain'.operands = a ++ p.setValue value' :: b := by
  cases h with
  | @first p links h => exact ⟨[], p, links.map Prod.snd, rfl, rfl⟩
  | @link p links links' h =>
    obtain ⟨a, p', b, hlinks, hlinks'⟩ := h.operands
    refine ⟨p :: a, p', b, ?_, ?_⟩
    · rw [Chain.operands, hlinks, List.cons_append]
    · rw [Chain.operands, hlinks', List.cons_append]

theorem ReplacesOperand.links_eq_nil_iff {chain chain' : Chain Predicate}
    (h : ReplacesOperand value value' chain chain') : chain'.links = [] ↔ chain.links = [] := by
  cases h with
  | first h => exact Iff.rfl
  | link h => cases h <;> simp

/-- No value is blank behind a replacement by one that is not. -/
theorem ReplacesOperand.not_blank {chain chain' : Chain Predicate}
    (h : ReplacesOperand value value' chain chain') (hvalue' : Text.isBlank value' = false)
    (hchain : ∀ p ∈ chain.operands, Text.isBlank p.value = false) :
    ∀ p ∈ chain'.operands, Text.isBlank p.value = false := by
  obtain ⟨a, p, b, hops, hops'⟩ := h.operands
  rw [hops] at hchain
  intro r hr
  rw [hops'] at hr
  rcases List.mem_append.1 hr with hr | hr
  · exact hchain r (List.mem_append_left _ hr)
  · rcases List.mem_cons.1 hr with rfl | hr
    · exact hvalue'
    · exact hchain r (List.mem_append_right a (List.mem_cons_of_mem p hr))

/-! ## Assembled chains -/

theorem ReplacesValue.threaded {f f' : Filter} (h : ReplacesValue value value' f f')
    (links : List (Combinator × Filter)) :
    ReplacesValue value value' (Filter.threaded f links) (Filter.threaded f' links) := by
  cases links with
  | nil => exact h
  | cons link links => exact .left h

theorem ReplacesValue.leftNested {f f' : Filter} (h : ReplacesValue value value' f f')
    (links : List (Combinator × Filter)) :
    ReplacesValue value value' (Filter.leftNested f links) (Filter.leftNested f' links) := by
  induction links generalizing f f' with
  | nil => exact h
  | cons link links ih =>
    rw [leftNested_cons, leftNested_cons]
    exact ih (.left h)

theorem ReplacesLink.threaded {links links' : List (Combinator × Predicate)}
    (h : ReplacesLink value value' links links') (first : Filter) :
    ReplacesValue value value' (Filter.threaded first (links.map fun (c, p) => (c, .test p)))
      (Filter.threaded first (links'.map fun (c, p) => (c, .test p))) := by
  induction h generalizing first with
  | here h => exact .right (ReplacesValue.threaded (.test h) _)
  | there h ih => exact .right (ih _)

theorem ReplacesLink.leftNested {links links' : List (Combinator × Predicate)}
    (h : ReplacesLink value value' links links') (first : Filter) :
    ReplacesValue value value' (Filter.leftNested first (links.map fun (c, p) => (c, .test p)))
      (Filter.leftNested first (links'.map fun (c, p) => (c, .test p))) := by
  induction h generalizing first with
  | here h => exact ReplacesValue.leftNested (.right (.test h)) _
  | there h ih => exact ih _

theorem ReplacesOperand.assemble {chain chain' : Chain Predicate}
    (h : ReplacesOperand value value' chain chain') (shape : ChainShape) :
    ReplacesValue value value' ((chain.map .test).assemble shape)
      ((chain'.map .test).assemble shape) := by
  cases h with
  | first h =>
    cases shape with
    | threaded => exact ReplacesValue.threaded (.test h) _
    | leftNested => exact ReplacesValue.leftNested (.test h) _
  | link h =>
    cases shape with
    | threaded => exact h.threaded _
    | leftNested => exact h.leftNested _

/-- Just the chains without links become a single predicate. -/
theorem assemble_test_eq_test_iff (shape : ChainShape) (chain : Chain Predicate) :
    (∃ p, (chain.map test).assemble shape = .test p) ↔ chain.links = [] := by
  constructor
  · intro h
    obtain ⟨p, hp⟩ := h
    have hheight := height_assemble_test shape chain
    rw [hp, height, Chain.operands, List.length_cons, List.length_map] at hheight
    exact List.eq_nil_of_length_eq_zero (by omega)
  · intro h
    obtain ⟨first, links⟩ := chain
    subst h
    cases shape <;> exact ⟨first, rfl⟩

end Filter
end Criteria
