import Criteria.Filter.Leaves
import Criteria.Filter.Trace
import Criteria.Proofs.Filter.Visits

/-!
# Listing the predicates of a filter

The predicates are listed in a loop over the subtrees that are still to be listed.  Every turn
takes one node off these, so the loop comes to an end, and what has been found together with
what is still to be listed stays the same.  The list is the one that recursion over the filter
gives, and the one that a visitor gets to see which never fails.
-/

namespace Criteria
namespace Filter

/-! ## Predicates by recursion -/

def predicates : Filter → List Predicate
  | test p => [p]
  | join l r _ => l.predicates ++ r.predicates

/-- The number of joins. -/
def joins : Filter → Nat
  | test _ => 0
  | join l r _ => l.joins + r.joins + 1

theorem leaves_eq_predicates (f : Filter) : f.leaves = f.predicates := by
  induction f with
  | test p => rw [leaves_test, predicates]
  | join l r c ihl ihr => rw [leaves_join, ihl, ihr, predicates]

theorem length_predicates (f : Filter) : f.predicates.length = f.joins + 1 := by
  induction f with
  | test p => rfl
  | join l r c ihl ihr =>
    rw [predicates, List.length_append, ihl, ihr, joins]
    omega

/-! ## The loop -/

/-- The subtrees still to be listed, the next one first, and the predicates found so far. -/
structure Listing where
  pending : List Filter
  found : List Predicate

namespace Listing

/-- What is listed in the end. -/
def total (listing : Listing) : List Predicate := listing.found ++ gather listing.pending

/-- One turn of the loop, unless nothing is left to be listed.  The sides of a join take its
place, the left one in front. -/
def turn : Listing → Option Listing
  | ⟨[], _⟩ => none
  | ⟨test p :: pending, found⟩ => some ⟨pending, found ++ [p]⟩
  | ⟨join l r _ :: pending, found⟩ => some ⟨l :: r :: pending, found⟩

/-- The loop ends after so many turns, with these predicates. -/
inductive EndsAfter : Nat → Listing → List Predicate → Prop
  | done {listing : Listing} (h : listing.turn = none) : EndsAfter 0 listing listing.found
  | turn {listing next : Listing} {n : Nat} {found : List Predicate} (h : listing.turn = some next)
      (hnext : EndsAfter n next found) : EndsAfter (n + 1) listing found

theorem turn_eq_none_iff {listing : Listing} : listing.turn = none ↔ listing.pending = [] := by
  unfold turn
  split <;> simp

/-- A turn leaves what is listed in the end as it is, and one node fewer to be looked at. -/
theorem turn_eq_some {listing next : Listing} (h : listing.turn = some next) :
    next.total = listing.total ∧ sizes listing.pending = sizes next.pending + 1 := by
  unfold turn at h
  split at h
  · cases h
  · cases h
    simp only [total, gather, sizes, size, List.append_assoc, List.singleton_append, true_and]
    omega
  · cases h
    simp only [total, gather, sizes, size, true_and]
    omega

theorem endsAfter_sizes (n : Nat) (listing : Listing) (h : sizes listing.pending = n) :
    EndsAfter n listing listing.total := by
  induction n generalizing listing with
  | zero =>
    have hpending : listing.pending = [] := by
      cases hp : listing.pending with
      | nil => rfl
      | cons f fs =>
        have hpos := size_pos f
        rw [hp, sizes] at h
        omega
    have htotal : listing.total = listing.found := by
      rw [total, hpending, gather, List.append_nil]
    rw [htotal]
    exact .done (turn_eq_none_iff.2 hpending)
  | succ n ih =>
    cases hturn : listing.turn with
    | none =>
      rw [turn_eq_none_iff.1 hturn] at h
      cases h
    | some next =>
      obtain ⟨htotal, hsizes⟩ := turn_eq_some hturn
      rw [← htotal]
      exact .turn hturn (ih next (by omega))

/-- There is one way for the loop to go. -/
theorem EndsAfter.unique {n n' : Nat} {listing : Listing} {found found' : List Predicate}
    (h : EndsAfter n listing found) (h' : EndsAfter n' listing found') :
    n = n' ∧ found = found' := by
  induction h generalizing n' with
  | done hnone =>
    cases h' with
    | done => exact ⟨rfl, rfl⟩
    | turn hsome => rw [hnone] at hsome; cases hsome
  | turn hsome _ ih =>
    cases h' with
    | done hnone => rw [hnone] at hsome; cases hsome
    | turn hsome' hnext' =>
      rw [hsome] at hsome'
      cases hsome'
      obtain ⟨rfl, rfl⟩ := ih hnext'
      exact ⟨rfl, rfl⟩

end Listing

/-! ## Walks that do not fail -/

def Label.predicate? : Label → Option Predicate
  | .test p => some p
  | .join _ => none

theorem filterMap_label_postorder (f : Filter) :
    (f.postorder.map label).filterMap Label.predicate? = f.predicates := by
  induction f with
  | test p => rfl
  | join l r c ihl ihr =>
    rw [postorder, List.map_append, List.map_append, List.filterMap_append, List.filterMap_append,
      ihl, ihr]
    exact List.append_nil _

/-- Every visit succeeds, from every state. -/
structure Visitor.NeverFails {ε σ α : Type} (visitor : Visitor (Fallible ε σ) α) : Prop where
  test (p : Predicate) (s : σ) : ∃ a s', runFrom (visitor.test p) s = (.ok a, s')
  join (c : Combinator) (left right : α) (s : σ) :
    ∃ a s', runFrom (visitor.join c left right) s = (.ok a, s')

theorem Visitor.NeverFails.walk {ε σ α : Type} {visitor : Visitor (Fallible ε σ) α}
    (h : visitor.NeverFails) (f : Filter) (s : σ) :
    ∃ a s', runFrom (Filter.walk visitor f) s = (.ok a, s') := by
  induction f generalizing s with
  | test p => exact h.test p s
  | join l r c ihl ihr =>
    obtain ⟨left, s₁, hl⟩ := ihl s
    obtain ⟨right, s₂, hr⟩ := ihr s₁
    obtain ⟨a, s₃, hc⟩ := h.join c left right s₂
    refine ⟨a, s₃, ?_⟩
    rw [Filter.walk, runFrom_bind, hl]
    show runFrom (Filter.walk visitor r >>= _) s₁ = _
    rw [runFrom_bind, hr]
    exact hc

/-- The loop ends after as many turns as the filter has nodes.  It lists the predicates as
recursion does, one more than there are joins, and these are what a visitor that never fails
gets to see of a filter but for the joins. -/
theorem leaves_in_order (f : Filter) :
    f.leaves = f.predicates ∧ f.leaves.length = f.joins + 1 ∧
    (∀ n found, Listing.EndsAfter n ⟨[f], []⟩ found ↔ n = f.size ∧ found = f.leaves) ∧
    (∀ {ε σ α : Type} (visitor : Visitor (Fallible ε σ) α), visitor.NeverFails → ∀ s,
      (∃ a s', runFrom (walk visitor f) s = (.ok a, s')) ∧
        (received visitor f s).filterMap Label.predicate? = f.leaves) := by
  have hleaves := leaves_eq_predicates f
  refine ⟨hleaves, by rw [hleaves, length_predicates], fun n found => ?_, ?_⟩
  · have hends : Listing.EndsAfter f.size ⟨[f], []⟩ f.leaves :=
      Listing.endsAfter_sizes f.size ⟨[f], []⟩ rfl
    constructor
    · exact fun h => h.unique hends
    · rintro ⟨rfl, rfl⟩
      exact hends
  · intro ε σ α visitor hvisitor s
    obtain ⟨a, s', hwalk⟩ := hvisitor.walk f s
    refine ⟨⟨a, s', hwalk⟩, ?_⟩
    rw [received_of_ok hwalk, filterMap_label_postorder, hleaves]

/-- A visitor that only keeps a trace is handed the same predicate twice. -/
theorem leaves_in_order_repeated :
    (recorder none).NeverFails ∧
      (received (recorder none) (join (join (test ⟨"b", .equals, "1"⟩)
        (test ⟨"a", .contains, "x"⟩) .or) (test ⟨"b", .equals, "1"⟩) .and) #[]).filterMap
          Label.predicate? =
        [⟨"b", .equals, "1"⟩, ⟨"a", .contains, "x"⟩, ⟨"b", .equals, "1"⟩] := by
  have hvisitor : (recorder none).NeverFails :=
    ⟨fun p log => ⟨_, _, rfl⟩, fun c left right log => ⟨_, _, rfl⟩⟩
  refine ⟨hvisitor, ?_⟩
  rw [((leaves_in_order _).2.2.2 (recorder none) hvisitor #[]).2]
  simp

end Filter
end Criteria
