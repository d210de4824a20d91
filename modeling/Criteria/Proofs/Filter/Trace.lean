import Criteria.Filter.Trace
import Criteria.Proofs.Filter.Visits

/-!
# Traces of walks

A trace lists the events of the nodes in post-order.  At the place of a join it names the
places of the two sides, and a rejected token ends it.
-/

namespace Criteria
namespace Filter

/-- The event of a node that is the `n`-th to be visited, counted from zero. -/
def event (n : Nat) : Filter → Event
  | test p => .test p
  | join _ r c => .join c (n - 1 - r.size) (n - 1)

/-- The events of a filter behind `n` others. -/
def events (f : Filter) (n : Nat) : List Event :=
  (f.postorder.zipIdx n).map fun (node, i) => event i node

theorem length_events (f : Filter) (n : Nat) : (f.events n).length = f.size := by
  rw [events, List.length_map, List.length_zipIdx, length_postorder]

theorem events_ne_nil (f : Filter) (n : Nat) : f.events n ≠ [] := by
  have hlength := length_events f n
  have hpos := size_pos f
  intro h
  rw [h, List.length_nil] at hlength
  omega

theorem events_test (p : Predicate) (n : Nat) : (test p).events n = [.test p] := rfl

theorem events_join (l r : Filter) (c : Combinator) (n : Nat) :
    (join l r c).events n = l.events n ++ r.events (n + l.size) ++
      [.join c (n + l.size - 1) (n + l.size + r.size - 1)] := by
  have hleft : n + (l.size + r.size) - 1 - r.size = n + l.size - 1 := by omega
  simp only [events, postorder, List.zipIdx_append, List.map_append, List.length_append,
    length_postorder, List.zipIdx_singleton, List.map_cons, List.map_nil, event, hleft,
    Nat.add_assoc]

theorem getElem?_events (f : Filter) (n : Nat) :
    (f.events 0)[n]? = f.postorder[n]?.map (event n) := by
  rw [events, List.getElem?_map, List.getElem?_zipIdx, Nat.zero_add]
  cases f.postorder[n]? <;> rfl

/-- An event of a join stands where the join does, and names the places of its sides. -/
theorem events_sides {f : Filter} {n left right : Nat} {c : Combinator}
    (h : (f.events 0)[n]? = some (.join c left right)) :
    ∃ l r, f.postorder[n]? = some (join l r c) ∧ right + 1 = n ∧ left + r.size + 1 = n ∧
      f.postorder[left]? = some l ∧ f.postorder[right]? = some r := by
  rw [getElem?_events] at h
  obtain ⟨node, hnode, h⟩ := Option.map_eq_some_iff.1 h
  cases node with
  | test p => cases h
  | join l r c' =>
    obtain ⟨left', rfl, hl, hr⟩ := postorder_sides hnode
    obtain ⟨rfl, hleft, hright⟩ := Event.join.inj h
    obtain rfl : left = left' := by omega
    obtain rfl : right = left + r.size := by omega
    exact ⟨l, r, hnode, rfl, rfl, hl, hr⟩

/-! ## Logs -/

/-- The events that are logged: all of them, or those up to the first that bears the rejected
token. -/
def logged (reject : Option Token) : List Event → List Event
  | [] => []
  | e :: es => if reject = some e.token then [e] else e :: logged reject es

theorem logged_initial (reject : Option Token) (es : List Event) : logged reject es <+: es := by
  induction es with
  | nil => exact List.prefix_refl []
  | cons e es ih =>
    rw [logged]
    split
    · exact List.prefix_append [e] es
    · exact List.cons_prefix_cons.2 ⟨rfl, ih⟩

theorem logged_of_none {reject : Option Token} {es : List Event}
    (h : es.find? (reject = some ·.token) = none) : logged reject es = es := by
  induction es with
  | nil => rfl
  | cons e es ih =>
    rw [List.find?_eq_none, List.forall_mem_cons] at h
    rw [logged, if_neg (by simpa using h.1), ih (List.find?_eq_none.2 h.2)]

def recordAll (reject : Option Token) (es : List Event) (n : Nat) : Logged Nat :=
  es.foldlM (fun _ e => record reject e) n

theorem runFrom_record (reject : Option Token) (e : Event) (log : Array Event) :
    runFrom (record reject e) log =
      if reject = some e.token then (.error e.token, log.push e)
      else (.ok log.size, log.push e) := by
  unfold record
  split <;> rfl

theorem recordAll_cons (reject : Option Token) (e : Event) (es : List Event) (n : Nat)
    (log : Array Event) :
    runFrom (recordAll reject (e :: es) n) log =
      if reject = some e.token then (.error e.token, log.push e)
      else runFrom (recordAll reject es log.size) (log.push e) := by
  rw [recordAll, List.foldlM_cons, runFrom_bind, runFrom_record]
  by_cases h : reject = some e.token
  · rw [if_pos h, if_pos h]
  · rw [if_neg h, if_neg h]
    rfl

theorem recordAll_singleton (reject : Option Token) (e : Event) (n : Nat) :
    recordAll reject [e] n = record reject e :=
  bind_pure (record reject e)

theorem recordAll_append (reject : Option Token) (es es' : List Event) (n : Nat) :
    recordAll reject (es ++ es') n = recordAll reject es n >>= recordAll reject es' :=
  List.foldlM_append

/-- The log that several events leave, and the token that is rejected, if any. -/
theorem runFrom_recordAll (reject : Option Token) (es : List Event) (n : Nat) (log : Array Event) :
    runFrom (recordAll reject es n) log =
      (match es.find? (reject = some ·.token) with
        | some e => .error e.token
        | none => .ok (if es = [] then n else log.size + es.length - 1),
      log ++ logged reject es) := by
  induction es generalizing n log with
  | nil =>
    rw [logged, Array.appendList_nil]
    rfl
  | cons e es ih =>
    rw [recordAll_cons, logged]
    by_cases h : reject = some e.token
    · simp [h]
    · have hn : (if es = [] then log.size else (log.push e).size + es.length - 1) =
          log.size + (es.length + 1) - 1 := by
        split
        · simp_all
        · rw [Array.size_push]
          omega
      rw [if_neg h, if_neg h, ih, hn, Array.appendList_cons,
        List.find?_cons_of_neg (by simpa using h), if_neg (List.cons_ne_nil e es),
        List.length_cons]

theorem recordAll_eq_ok {reject : Option Token} {es : List Event} {n n' : Nat}
    {log log' : Array Event} (hes : es ≠ [])
    (h : runFrom (recordAll reject es n) log = (.ok n', log')) :
    log'.size = log.size + es.length ∧ n' = log.size + es.length - 1 := by
  rw [runFrom_recordAll] at h
  split at h
  · cases h
  · rename_i hnone
    cases h
    rw [logged_of_none hnone, if_neg hes, ← Array.length_toList, Array.toList_appendList,
      List.length_append, Array.length_toList]
    exact ⟨rfl, rfl⟩

/-- A walk that keeps a trace logs the events of the nodes one after the other. -/
theorem runFrom_walk_recorder (reject : Option Token) (f : Filter) (n : Nat)
    (log : Array Event) :
    runFrom (walk (recorder reject) f) log =
      runFrom (recordAll reject (f.events log.size) n) log := by
  induction f generalizing n log with
  | test p =>
    rw [events_test, recordAll_singleton]
    rfl
  | join l r c ihl ihr =>
    rw [walk, events_join, recordAll_append, recordAll_append, runFrom_bind, runFrom_bind,
      runFrom_bind, ihl n]
    rcases hl : runFrom (recordAll reject (l.events log.size) n) log with ⟨t | left, log₁⟩
    · rfl
    obtain ⟨hlog₁, rfl⟩ := recordAll_eq_ok (events_ne_nil l _) hl
    rw [length_events] at hlog₁
    dsimp only
    rw [runFrom_bind, ihr (log.size + (l.events log.size).length - 1), hlog₁]
    rcases hr : runFrom (recordAll reject (r.events (log.size + l.size)) _) log₁ with
      ⟨t | right, log₂⟩
    · rfl
    -- Both sides have come to the places of their last events, which the join names.
    obtain ⟨hlog₂, rfl⟩ := recordAll_eq_ok (events_ne_nil r _) hr
    dsimp only
    rw [recordAll_singleton, hlog₁, length_events, length_events]
    rfl

theorem trace_eq_runFrom (reject : Option Token) (f : Filter) :
    f.trace reject = ⟨(runFrom (walk (recorder reject) f) #[]).2,
      (runFrom (walk (recorder reject) f) #[]).1⟩ := rfl

/-- The events of a trace are those of the nodes in post-order, up to the first that bears the
rejected token.  Without one the trace comes to the place of the filter itself. -/
theorem trace_logged (reject : Option Token) (f : Filter) :
    (f.trace reject).events.toList = logged reject (f.events 0) ∧
      (f.trace reject).outcome = match (f.events 0).find? (reject = some ·.token) with
        | some e => .error e.token
        | none => .ok (f.size - 1) := by
  have hrun := runFrom_walk_recorder reject f 0 #[]
  rw [runFrom_recordAll, if_neg (events_ne_nil f _), length_events, Array.size_empty,
    Nat.zero_add] at hrun
  rw [trace_eq_runFrom, hrun]
  exact ⟨Array.toList_appendList, rfl⟩

theorem trace_none (f : Filter) :
    (f.trace none).events.toList = f.events 0 ∧ (f.trace none).outcome = .ok (f.size - 1) := by
  have hnone : (f.events 0).find? (none = some ·.token) = none := by simp
  obtain ⟨hevents, houtcome⟩ := trace_logged none f
  rw [logged_of_none hnone] at hevents
  rw [hnone] at houtcome
  exact ⟨hevents, houtcome⟩

theorem trace_sides {reject : Option Token} {f : Filter} {n left right : Nat} {c : Combinator}
    (h : (f.trace reject).events[n]? = some (.join c left right)) :
    (f.events 0)[n]? = some (.join c left right) := by
  rw [← Array.getElem?_toList, (trace_logged reject f).1] at h
  obtain ⟨hn, he⟩ := List.getElem?_eq_some_iff.1 h
  rw [← he]
  exact List.prefix_iff_getElem?.1 (logged_initial reject (f.events 0)) n hn

/-! ## Walks in post-order -/

/-- A walk is the stack evaluation of the nodes in post-order, which is never stuck and leaves
one output.  To list what the visitor gets to see changes nothing else.  A visit that fails as
the `k`-th ends the walk in its own state, with the first `k` nodes seen; every walk that fails
does so at some visit, and one that does not has seen all nodes.  In a trace, which a token may
cut short, a join names the node in front of it and the one in front of its right side. -/
theorem walk_in_postorder {ε σ α : Type} (visitor : Visitor (Fallible ε σ) α) (f : Filter)
    (s : σ) :
    (visitAll visitor f.postorder []).run = (fun output => some [output]) <$> walk visitor f ∧
    runFrom (walk visitor.watched f) (s, []) =
      ((runFrom (walk visitor f) s).1, ((runFrom (walk visitor f) s).2, received visitor f s)) ∧
    (∀ k e s', FailsAt visitor f.postorder [] s k e s' ↔
      k ≤ f.size ∧ runFrom (walk visitor f) s = (.error e, s') ∧
        received visitor f s = (f.postorder.take k).map label) ∧
    (∀ e s', runFrom (walk visitor f) s = (.error e, s') ↔
      ∃ k, FailsAt visitor f.postorder [] s k e s') ∧
    (∀ a s', runFrom (walk visitor f) s = (.ok a, s') →
      received visitor f s = f.postorder.map label) ∧
    ((f.trace none).events.toList = f.events 0 ∧ (f.trace none).outcome = .ok (f.size - 1)) ∧
    (∀ reject n c left right, (f.trace reject).events[n]? = some (.join c left right) →
      ∃ l r, f.postorder[n]? = some (join l r c) ∧ right + 1 = n ∧ left + r.size + 1 = n ∧
        f.postorder[left]? = some l ∧ f.postorder[right]? = some r) := by
  refine ⟨run_visitAll_postorder visitor f, walk_watched visitor f s,
    fun k e s' => failsAt_postorder_iff, fun e s' => ?_, fun a s' => received_of_ok,
    trace_none f, fun reject n c left right h => events_sides (trace_sides h)⟩
  rw [walk_eq_error_iff, outcome_eq_error_iff]

/-- The right side is not visited to its end, and neither join is visited. -/
example :
    (trace (some (.operator .contains)) (join (test ⟨"a", .equals, "1"⟩)
      (join (test ⟨"b", .contains, "x"⟩) (test ⟨"c", .equals, "3"⟩) .or) .and)).events =
        #[.test ⟨"a", .equals, "1"⟩, .test ⟨"b", .contains, "x"⟩] := rfl

end Filter
end Criteria
