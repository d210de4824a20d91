import Criteria.Proofs.Filter.Postorder

/-!
# Visits that change a state and may fail

A walk ends with the first visit that fails, in the state which that visit leaves.  By then the
visitor has got to see the nodes up to the failing one, in post-order, and no others.
-/

namespace Criteria
namespace Filter

/-- Visits that change a state and may fail.  One that fails leaves its state behind. -/
abbrev Fallible (ε σ : Type) := ExceptT ε (StateM σ)

section

variable {ε σ α β : Type}

/-- What visits come to from a state, and the state they leave. -/
def runFrom (x : Fallible ε σ β) (s : σ) : Except ε β × σ := x.run.run s

theorem runFrom_bind (x : Fallible ε σ α) (f : α → Fallible ε σ β) (s : σ) :
    runFrom (x >>= f) s = match runFrom x s with
      | (.ok a, s') => runFrom (f a) s'
      | (.error e, s') => (.error e, s') := by
  simp only [runFrom, ExceptT.run_bind, StateT.run_bind]
  rcases x.run.run s with ⟨_ | a, s'⟩ <;> rfl

/-- The same for the machine, which comes to `none` if it is stuck. -/
def outcome (x : OptionT (Fallible ε σ) β) (s : σ) : Except ε (Option β) × σ :=
  runFrom x.run s

theorem outcome_bind (x : OptionT (Fallible ε σ) α) (f : α → OptionT (Fallible ε σ) β)
    (s : σ) :
    outcome (x >>= f) s = match outcome x s with
      | (.ok (some a), s') => outcome (f a) s'
      | (.ok none, s') => (.ok none, s')
      | (.error e, s') => (.error e, s') := by
  rw [outcome, OptionT.run_bind, Option.elimM, runFrom_bind, outcome]
  rcases runFrom x.run s with ⟨_ | _ | a, s'⟩ <;> rfl

theorem outcome_lift (x : Fallible ε σ α) (s : σ) :
    outcome (liftM x) s = match runFrom x s with
      | (.ok a, s') => (.ok (some a), s')
      | (.error e, s') => (.error e, s') := by
  show runFrom (OptionT.lift x).run s = _
  rw [OptionT.run_lift, runFrom_bind]
  rcases runFrom x s with ⟨_ | a, s'⟩ <;> rfl

variable {visitor : Visitor (Fallible ε σ) α} {f node : Filter} {fs : List Filter}
  {outputs : List α} {s s' s₁ : σ} {e : ε}

theorem outcome_visitAll_postorder (f : Filter) (s : σ) :
    outcome (visitAll visitor f.postorder []) s = match runFrom (walk visitor f) s with
      | (.ok a, s') => (.ok (some [a]), s')
      | (.error e, s') => (.error e, s') := by
  rw [visitAll_postorder, map_eq_pure_bind, outcome_bind, outcome_lift]
  rcases runFrom (walk visitor f) s with ⟨_ | a, s'⟩ <;> rfl

theorem outcome_visitAll_cons (f : Filter) (fs : List Filter) (outputs : List α) (s : σ) :
    outcome (visitAll visitor (f :: fs) outputs) s =
      match outcome (visit visitor f outputs) s with
      | (.ok (some outputs), s') => outcome (visitAll visitor fs outputs) s'
      | (.ok none, s') => (.ok none, s')
      | (.error e, s') => (.error e, s') := by
  rw [visitAll, outcome_bind]
  rcases outcome (visit visitor f outputs) s with ⟨_ | _ | outputs, s'⟩ <;> rfl

theorem outcome_cons_eq_ok_iff {outputs' : List α} :
    outcome (visitAll visitor (f :: fs) outputs) s = (.ok (some outputs'), s') ↔
      ∃ outputs₁ s₁, outcome (visit visitor f outputs) s = (.ok (some outputs₁), s₁) ∧
        outcome (visitAll visitor fs outputs₁) s₁ = (.ok (some outputs'), s') := by
  rw [outcome_visitAll_cons]
  rcases outcome (visit visitor f outputs) s with ⟨_ | _ | outputs₁, s₁⟩ <;>
    simp [and_assoc]

/-- Of several visits one fails if the first does, or one of the others behind it. -/
theorem outcome_cons_eq_error_iff :
    outcome (visitAll visitor (f :: fs) outputs) s = (.error e, s') ↔
      outcome (visit visitor f outputs) s = (.error e, s') ∨
        ∃ outputs₁ s₁, outcome (visit visitor f outputs) s = (.ok (some outputs₁), s₁) ∧
          outcome (visitAll visitor fs outputs₁) s₁ = (.error e, s') := by
  rw [outcome_visitAll_cons]
  rcases outcome (visit visitor f outputs) s with ⟨_ | _ | outputs₁, s₁⟩ <;>
    simp [and_assoc]

/-! ## The first visit that fails -/

/-- Whether the visits of some nodes succeed up to the `k`-th, and that one fails.  It fails
with `e` and leaves the state `s'`. -/
def FailsAt (visitor : Visitor (Fallible ε σ) α) (nodes : List Filter) (outputs : List α) (s : σ)
    (k : Nat) (e : ε) (s' : σ) : Prop :=
  ∃ before node after outputs₁ s₁, nodes = before ++ node :: after ∧ k = before.length + 1 ∧
    outcome (visitAll visitor before outputs) s = (.ok (some outputs₁), s₁) ∧
    outcome (visit visitor node outputs₁) s₁ = (.error e, s')

theorem outcome_eq_error_iff :
    outcome (visitAll visitor fs outputs) s = (.error e, s') ↔
      ∃ k, FailsAt visitor fs outputs s k e s' := by
  constructor
  · intro h
    induction fs generalizing outputs s with
    | nil => cases h
    | cons f fs ih =>
      rcases outcome_cons_eq_error_iff.1 h with hfirst | ⟨outputs₁, s₁, hfirst, h⟩
      · exact ⟨1, [], f, fs, outputs, s, rfl, rfl, rfl, hfirst⟩
      · obtain ⟨k, before, node, after, outputs₂, s₂, rfl, rfl, hbefore, hnode⟩ := ih h
        exact ⟨_, f :: before, node, after, outputs₂, s₂, rfl, rfl,
          outcome_cons_eq_ok_iff.2 ⟨outputs₁, s₁, hfirst, hbefore⟩, hnode⟩
  · rintro ⟨k, before, node, after, outputs₁, s₁, rfl, -, hbefore, hnode⟩
    rw [visitAll_append, outcome_bind, hbefore]
    exact outcome_cons_eq_error_iff.2 (.inl hnode)

/-! ## What a visitor gets to see -/

/-- What a visitor gets to see of a node. -/
inductive Label
  | test (predicate : Predicate)
  | join (combinator : Combinator)
  deriving DecidableEq

def label : Filter → Label
  | test p => .test p
  | join _ _ c => .join c

/-- A visit that also adds to a list of the nodes seen. -/
def watch (label : Label) (x : Fallible ε σ β) : Fallible ε (σ × List Label) β :=
  ExceptT.mk fun (s, seen) =>
    let (result, s') := runFrom x s
    (result, (s', seen ++ [label]))

/-- The visitor that does the same and lists what it has got to see. -/
def Visitor.watched (visitor : Visitor (Fallible ε σ) α) :
    Visitor (Fallible ε (σ × List Label)) α where
  test p := watch (.test p) (visitor.test p)
  join c left right := watch (.join c) (visitor.join c left right)

/-- What a visitor gets to see during a walk. -/
def received (visitor : Visitor (Fallible ε σ) α) (f : Filter) (s : σ) : List Label :=
  (runFrom (walk visitor.watched f) (s, [])).2.2

theorem runFrom_watch (label : Label) (x : Fallible ε σ β) (s : σ) (seen : List Label) :
    runFrom (watch label x) (s, seen) =
      ((runFrom x s).1, ((runFrom x s).2, seen ++ [label])) := rfl

theorem outcome_push (x : Fallible ε σ α) (outputs : List α) (s : σ) :
    outcome (push x outputs) s = match runFrom x s with
      | (.ok a, s') => (.ok (some (a :: outputs)), s')
      | (.error e, s') => (.error e, s') := by
  rw [push, outcome_bind, outcome_lift]
  rcases runFrom x s with ⟨_ | a, s'⟩ <;> rfl

theorem outcome_push_watch {result : Except ε (Option (List α))} {x : Fallible ε σ α}
    (h : outcome (push x outputs) s = (result, s')) (label : Label) (seen : List Label) :
    outcome (push (watch label x) outputs) (s, seen) = (result, (s', seen ++ [label])) := by
  rw [outcome_push] at h ⊢
  rw [runFrom_watch]
  rcases hx : runFrom x s with ⟨_ | a, s₁⟩
  · rw [hx] at h
    cases h
    rfl
  · rw [hx] at h
    cases h
    rfl

theorem outcome_visit_watched {result : Except ε (Option (List α))}
    (h : outcome (visit visitor node outputs) s = (result, s')) (hresult : result ≠ .ok none)
    (seen : List Label) :
    outcome (visit visitor.watched node outputs) (s, seen) =
      (result, (s', seen ++ [node.label])) := by
  unfold visit at h ⊢
  split at h
  · exact outcome_push_watch h _ seen
  · exact outcome_push_watch h _ seen
  · cases h
    exact absurd rfl hresult

theorem outcome_visitAll_watched {outputs' : List α}
    (h : outcome (visitAll visitor fs outputs) s = (.ok (some outputs'), s')) (seen : List Label) :
    outcome (visitAll visitor.watched fs outputs) (s, seen) =
      (.ok (some outputs'), (s', seen ++ fs.map label)) := by
  induction fs generalizing outputs s seen with
  | nil =>
    cases h
    rw [List.map_nil, List.append_nil]
    rfl
  | cons f fs ih =>
    obtain ⟨outputs₁, s₁, hfirst, h⟩ := outcome_cons_eq_ok_iff.1 h
    rw [List.map_cons, List.append_cons seen f.label (fs.map label)]
    exact outcome_cons_eq_ok_iff.2
      ⟨outputs₁, _, outcome_visit_watched hfirst nofun seen, ih h (seen ++ [f.label])⟩

theorem FailsAt.watched {k : Nat} (h : FailsAt visitor fs outputs s k e s') (seen : List Label) :
    outcome (visitAll visitor.watched fs outputs) (s, seen) =
      (.error e, (s', seen ++ (fs.take k).map label)) := by
  obtain ⟨before, node, after, outputs₁, s₁, rfl, rfl, hbefore, hnode⟩ := h
  have htake : (before ++ node :: after).take (before.length + 1) = before ++ [node] := by
    rw [List.take_length_add_append, List.take_succ_cons, List.take_zero]
  rw [visitAll_append, outcome_bind, outcome_visitAll_watched hbefore seen, htake,
    List.map_append, ← List.append_assoc]
  exact outcome_cons_eq_error_iff.2 (.inl (outcome_visit_watched hnode nofun _))

/-! ## Walks -/

theorem walk_eq_ok_iff {a : α} :
    runFrom (walk visitor f) s = (.ok a, s') ↔
      outcome (visitAll visitor f.postorder []) s = (.ok (some [a]), s') := by
  rw [outcome_visitAll_postorder]
  rcases runFrom (walk visitor f) s with ⟨_ | b, s₁⟩ <;> simp

theorem walk_eq_error_iff :
    runFrom (walk visitor f) s = (.error e, s') ↔
      outcome (visitAll visitor f.postorder []) s = (.error e, s') := by
  rw [outcome_visitAll_postorder]
  rcases runFrom (walk visitor f) s with ⟨_ | b, s₁⟩ <;> simp

theorem walk_watched_of_ok {a : α} (h : runFrom (walk visitor f) s = (.ok a, s')) :
    runFrom (walk visitor.watched f) (s, []) = (.ok a, (s', f.postorder.map label)) :=
  walk_eq_ok_iff.2 (outcome_visitAll_watched (walk_eq_ok_iff.1 h) [])

theorem walk_watched_of_failsAt {k : Nat} (h : FailsAt visitor f.postorder [] s k e s') :
    runFrom (walk visitor.watched f) (s, []) =
      (.error e, (s', (f.postorder.take k).map label)) :=
  walk_eq_error_iff.2 (h.watched [])

theorem received_of_ok {a : α} (h : runFrom (walk visitor f) s = (.ok a, s')) :
    received visitor f s = f.postorder.map label := by
  rw [received, walk_watched_of_ok h]

theorem received_of_failsAt {k : Nat} (h : FailsAt visitor f.postorder [] s k e s') :
    received visitor f s = (f.postorder.take k).map label := by
  rw [received, walk_watched_of_failsAt h]

theorem FailsAt.le_length {k : Nat} (h : FailsAt visitor fs outputs s k e s') : k ≤ fs.length := by
  obtain ⟨before, node, after, outputs₁, s₁, rfl, rfl, -, -⟩ := h
  rw [List.length_append, List.length_cons]
  omega

/-- A walk fails at the `k`-th visit if it fails and the visitor has got to see just so many
nodes. -/
theorem failsAt_postorder_iff {k : Nat} :
    FailsAt visitor f.postorder [] s k e s' ↔
      k ≤ f.size ∧ runFrom (walk visitor f) s = (.error e, s') ∧
        received visitor f s = (f.postorder.take k).map label := by
  constructor
  · intro h
    have hk := h.le_length
    rw [length_postorder] at hk
    exact ⟨hk, walk_eq_error_iff.2 (outcome_eq_error_iff.2 ⟨k, h⟩), received_of_failsAt h⟩
  · rintro ⟨hk, hwalk, hreceived⟩
    obtain ⟨k', h⟩ := outcome_eq_error_iff.1 (walk_eq_error_iff.1 hwalk)
    have hk' := h.le_length
    rw [length_postorder] at hk'
    -- The walk fails at one visit only, since so many nodes have been seen.
    have hlength := congrArg List.length (hreceived.symm.trans (received_of_failsAt h))
    rw [List.length_map, List.length_map, List.length_take, List.length_take, length_postorder,
      Nat.min_eq_left hk, Nat.min_eq_left hk'] at hlength
    rwa [hlength]

/-- Watching changes nothing else. -/
theorem walk_watched (visitor : Visitor (Fallible ε σ) α) (f : Filter) (s : σ) :
    runFrom (walk visitor.watched f) (s, []) =
      ((runFrom (walk visitor f) s).1, ((runFrom (walk visitor f) s).2, received visitor f s)) := by
  rcases h : runFrom (walk visitor f) s with ⟨e | a, s'⟩
  · obtain ⟨k, hk⟩ := outcome_eq_error_iff.1 (walk_eq_error_iff.1 h)
    rw [walk_watched_of_failsAt hk, received_of_failsAt hk]
  · rw [walk_watched_of_ok h, received_of_ok h]

end

end Filter
end Criteria
