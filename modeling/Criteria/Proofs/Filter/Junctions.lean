import Criteria.Proofs.Filter.Reading

/-!
# The combinators that reading takes

Reading a chain takes one combinator after the other until none stands where it has come to, or
a comparison cannot be read.  The junctions of a query are the combinators that have been taken
by then, as they are written, whether or not the query is read to its end.
-/

namespace Criteria
namespace Filter

open Text Grammar
open FilterQuery (links readChain)

variable {keywordCase : KeywordCase} {s s₁ : List Char} {c : Combinator}

/-! ## A chain and what follows it -/

namespace Scan

/-- A chain at the start of a text, with as many links as there are. -/
def chain (keywordCase : KeywordCase) (s : List Char) :
    Except Mismatch (Chain Predicate × List Char) := do
  let (first, s) ← predicate s
  let (links, rest) ← links keywordCase s
  .ok (⟨first, links⟩, rest)

theorem chain_of_error {m : Mismatch} (h : predicate s = .error m) :
    chain keywordCase s = .error m := by
  rw [chain, h]
  rfl

theorem chain_of_ok {p : Predicate} (h : predicate s = .ok (p, s₁)) :
    chain keywordCase s =
      (links keywordCase s₁).map fun (ls, rest) => (⟨p, ls⟩, rest) := by
  rw [chain, h]
  cases hl : links keywordCase s₁ <;> simp [bind, Except.bind, Except.map, hl]

/-- The text that a scanner leaves, whether it has read something or could not go on. -/
def left {α : Type} : Except Mismatch (α × List Char) → List Char
  | .error m => m.rest
  | .ok (_, rest) => rest

theorem left_map {α β : Type} (f : α → β) (r : Except Mismatch (α × List Char)) :
    left (r.map fun (a, rest) => (f a, rest)) = left r := by
  cases r <;> rfl

theorem left_predicate_suffix (s : List Char) : left (predicate s) <:+ s := by
  cases h : predicate s with
  | error m =>
    obtain ⟨t, e, p, hs, -⟩ := predicate_error h
    exact ⟨t, hs.symm⟩
  | ok x =>
    obtain ⟨t, hs, -⟩ := exists_isComparison h
    exact ⟨t, hs.symm⟩

end Scan

theorem readChain_eq_chain (query : List Char) :
    readChain keywordCase query = Scan.chain keywordCase query >>= fun (chain, rest) =>
      Scan.endOfQuery rest >>= fun _ => .ok chain := by
  unfold readChain
  cases hp : Scan.predicate query with
  | error m =>
    rw [Scan.chain_of_error hp]
    rfl
  | ok x =>
    obtain ⟨p, s⟩ := x
    rw [Scan.chain_of_ok hp]
    cases hl : links keywordCase s <;> simp [bind, Except.bind, Except.map, hl]

/-- Behind a combinator stands a chain. -/
theorem links_eq_chain (h : Scan.combinator? keywordCase s = some (c, s₁)) :
    links keywordCase s = (Scan.chain keywordCase s₁).map fun (chain, rest) =>
      ((c, chain.first) :: chain.links, rest) := by
  rw [links_of_some h]
  cases hp : Scan.predicate s₁ with
  | error m =>
    rw [Scan.chain_of_error hp]
    rfl
  | ok x =>
    obtain ⟨p, s₂⟩ := x
    rw [Scan.chain_of_ok hp]
    cases hl : links keywordCase s₂ <;> simp [bind, Except.bind, Except.map, hl]

theorem left_links (h : Scan.combinator? keywordCase s = some (c, s₁)) :
    Scan.left (links keywordCase s) = Scan.left (Scan.chain keywordCase s₁) := by
  rw [links_eq_chain h]
  exact Scan.left_map (fun chain : Chain Predicate => (c, chain.first) :: chain.links) _

theorem left_chain {p : Predicate} (h : Scan.predicate s = .ok (p, s₁)) :
    Scan.left (Scan.chain keywordCase s) = Scan.left (links keywordCase s₁) := by
  rw [Scan.chain_of_ok h]
  exact Scan.left_map (fun ls => (⟨p, ls⟩ : Chain Predicate)) _

end Filter

namespace FilterQuery

open Criteria.Filter Criteria.Filter.Grammar Criteria.Text

/-! ## Junctions -/

/-- A combinator that has been taken, its letters as they stand in the query, and what stands
behind them. -/
structure Junction where
  combinator : Combinator
  word : List Char
  rest : List Char

namespace Junction

/-- The query from the first letter of the combinator on. -/
def tail (j : Junction) : List Char := j.word ++ j.rest

def isLower (j : Junction) : Bool := j.word.all Char.isLower

/-- Whether the combinator stands behind the first `n` bytes of a query. -/
def StartsAt (j : Junction) (query : List Char) (n : Nat) : Prop :=
  ∃ before, query = before ++ j.tail ∧ byteLength before = n

theorem startsAt_of_suffix {j : Junction} {query : List Char} (h : j.tail <:+ query) :
    j.StartsAt query (offset query j.tail) := by
  obtain ⟨before, rfl⟩ := h
  exact ⟨before, rfl, (offset_append before j.tail).symm⟩

/-- The junction at the start of a text that begins with the letters of a combinator. -/
def leading (c : Combinator) (s : List Char) : Junction :=
  ⟨c, s.take c.word.length, s.drop c.word.length⟩

theorem leading_append {keywordCase : KeywordCase} {c : Combinator} {word : List Char}
    (h : Spells keywordCase c.word word) (rest : List Char) :
    leading c (word ++ rest) = ⟨c, word, rest⟩ := by
  have hlength : c.word.length = word.length := by
    rw [← h, List.length_map]
  rw [leading, hlength, List.take_left, List.drop_left]

end Junction

/-- The junctions behind a comparison. -/
def linkJunctions (keywordCase : KeywordCase) (s : List Char) : List Junction :=
  match _hc : Scan.combinator? keywordCase s with
  | none => []
  | some (c, s₁) =>
    .leading c (skipSpace s) ::
      match _hp : Scan.predicate s₁ with
      | .error _ => []
      | .ok (_, s₂) => linkJunctions keywordCase s₂
termination_by s.length
decreasing_by
  have := Scan.length_combinator? _hc
  have := Scan.length_predicate _hp
  omega

/-- The junctions of a query that is read as a chain. -/
def chainJunctions (keywordCase : KeywordCase) (query : List Char) : List Junction :=
  match Scan.predicate query with
  | .error _ => []
  | .ok (_, s) => linkJunctions keywordCase s

/-- The junctions of a query, of which one that is read as a single predicate has none. -/
def junctions (keywordCase : KeywordCase) (query : List Char) : List Junction :=
  match lookahead query with
  | none => []
  | some _ => chainJunctions keywordCase query

variable {keywordCase : KeywordCase} {s s₁ : List Char} {c : Combinator}

theorem linkJunctions_of_none (h : Scan.combinator? keywordCase s = none) :
    linkJunctions keywordCase s = [] := by
  rw [linkJunctions]
  split
  · rfl
  · rename_i heq
    rw [h] at heq
    cases heq

/-- Behind a combinator the query goes on like one of its own. -/
theorem linkJunctions_of_some (h : Scan.combinator? keywordCase s = some (c, s₁)) :
    linkJunctions keywordCase s =
      .leading c (skipSpace s) :: chainJunctions keywordCase s₁ := by
  rw [linkJunctions]
  split
  · rename_i heq
    rw [h] at heq
    cases heq
  · rename_i c' s₁' heq
    rw [h] at heq
    cases heq
    rw [chainJunctions]
    split <;> simp_all

theorem chainJunctions_of_error {m : Mismatch} (h : Scan.predicate s = .error m) :
    chainJunctions keywordCase s = [] := by
  rw [chainJunctions, h]

theorem chainJunctions_of_ok {p : Predicate} (h : Scan.predicate s = .ok (p, s₁)) :
    chainJunctions keywordCase s = linkJunctions keywordCase s₁ := by
  rw [chainJunctions, h]

/-- What stands behind the letters of a combinator, less white space, is read next. -/
theorem exists_leading (h : Scan.combinator? keywordCase s = some (c, s₁)) :
    ∃ a word rest, s = a ++ (word ++ rest) ∧ Spells keywordCase c.word word ∧
      s₁ <:+ rest ∧ Junction.leading c (skipSpace s) = ⟨c, word, rest⟩ := by
  obtain ⟨a, word, rest, rfl, ha, hw, -, rfl⟩ := Scan.combinator?_eq_some_iff.1 h
  have hskip := skipSpace_append_word ha (hw.isWord (isWord_combinator c)) rest
  refine ⟨a, word, rest, List.append_assoc a word rest, hw, List.dropWhile_suffix _, ?_⟩
  rw [hskip, Junction.leading_append hw]

theorem mem_chainJunctions_iff {j : Junction} :
    j ∈ chainJunctions keywordCase s ↔
      ∃ p s₁, Scan.predicate s = .ok (p, s₁) ∧ j ∈ linkJunctions keywordCase s₁ := by
  cases hp : Scan.predicate s with
  | error m => simp [chainJunctions_of_error hp]
  | ok x =>
    obtain ⟨p, s₁⟩ := x
    rw [chainJunctions_of_ok hp]
    refine ⟨fun h => ⟨p, s₁, rfl, h⟩, ?_⟩
    rintro ⟨p', s₁', ⟨⟩, h⟩
    exact h

/-! ## Where junctions stand -/

theorem suffix_of_predicate {p : Predicate} (h : Scan.predicate s = .ok (p, s₁)) : s₁ <:+ s := by
  have hleft := Scan.left_predicate_suffix s
  rwa [h] at hleft

/-- A junction stands in the query as it is written. -/
theorem suffix_of_mem_linkJunctions {j : Junction} (h : j ∈ linkJunctions keywordCase s) :
    j.tail <:+ s ∧ Spells keywordCase j.combinator.word j.word := by
  induction s using linkJunctions.induct keywordCase with
  | case1 s hc =>
    rw [linkJunctions_of_none hc] at h
    cases h
  | case2 s c s₁ hc ih =>
    obtain ⟨a, word, rest, rfl, hw, hs₁, hleading⟩ := exists_leading hc
    rw [linkJunctions_of_some hc, hleading] at h
    rcases List.mem_cons.1 h with rfl | h
    · exact ⟨List.suffix_append a _, hw⟩
    · obtain ⟨p, s₂, hp, h⟩ := mem_chainJunctions_iff.1 h
      obtain ⟨htail, hspells⟩ := ih p s₂ hp h
      have hs₂ := (htail.trans (suffix_of_predicate hp)).trans hs₁
      exact ⟨(hs₂.trans (List.suffix_append word rest)).trans (List.suffix_append a _), hspells⟩

theorem left_chain_suffix
    (h : ∀ p s₁, Scan.predicate s = .ok (p, s₁) → Scan.left (links keywordCase s₁) <:+ s₁) :
    Scan.left (Scan.chain keywordCase s) <:+ s := by
  have hleft := Scan.left_predicate_suffix s
  cases hp : Scan.predicate s with
  | error m =>
    rw [hp] at hleft
    rwa [Scan.chain_of_error hp]
  | ok x =>
    obtain ⟨p, s₁⟩ := x
    rw [left_chain hp]
    exact (h p s₁ hp).trans (suffix_of_predicate hp)

theorem left_links_suffix (s : List Char) : Scan.left (links keywordCase s) <:+ s := by
  induction s using linkJunctions.induct keywordCase with
  | case1 s hc =>
    rw [links_of_none hc]
    exact List.suffix_refl s
  | case2 s c s₁ hc ih =>
    obtain ⟨a, word, rest, rfl, hw, hs₁, -⟩ := exists_leading hc
    rw [left_links hc]
    have hrest := (left_chain_suffix ih).trans hs₁
    exact (hrest.trans (List.suffix_append word rest)).trans (List.suffix_append a _)

/-- Reading stops behind every junction. -/
theorem left_links_suffix_rest {j : Junction} (h : j ∈ linkJunctions keywordCase s) :
    Scan.left (links keywordCase s) <:+ j.rest := by
  induction s using linkJunctions.induct keywordCase with
  | case1 s hc =>
    rw [linkJunctions_of_none hc] at h
    cases h
  | case2 s c s₁ hc ih =>
    obtain ⟨a, word, rest, rfl, hw, hs₁, hleading⟩ := exists_leading hc
    rw [linkJunctions_of_some hc, hleading] at h
    rw [left_links hc]
    rcases List.mem_cons.1 h with rfl | h
    · have hleft : Scan.left (Scan.chain keywordCase s₁) <:+ s₁ :=
        left_chain_suffix fun _ s₂ _ => left_links_suffix s₂
      exact hleft.trans hs₁
    · obtain ⟨p, s₂, hp, h⟩ := mem_chainJunctions_iff.1 h
      rw [left_chain hp]
      exact ih p s₂ hp h

/-- The junctions of a chain that has been read are its combinators. -/
theorem map_combinator_linkJunctions {ls : List (Combinator × Predicate)} {rest : List Char}
    (h : links keywordCase s = .ok (ls, rest)) :
    (linkJunctions keywordCase s).map Junction.combinator = ls.map Prod.fst := by
  fun_induction links keywordCase s generalizing ls rest with
  | case1 s hc =>
    cases h
    rw [linkJunctions_of_none hc]
    rfl
  | case2 => cases h
  | case3 => cases h
  | case4 s c s₁ hc p s₂ hp ls' rest' hl ih =>
    cases h
    rw [linkJunctions_of_some hc, chainJunctions_of_ok hp, List.map_cons, ih hl]
    rfl

end FilterQuery
end Criteria
