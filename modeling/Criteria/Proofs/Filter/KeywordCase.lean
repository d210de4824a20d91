import Mathlib
import Criteria.Proofs.Filter.Routes

/-!
# Combinators in lower case only

Reading a query with combinators in lower case only is reading it without regard to case up to
the first combinator that is not in lower case.  There the query would have to end.
-/

namespace Criteria
namespace FilterQuery

open Criteria.Filter Criteria.Filter.Grammar Criteria.Text

variable {query s s₁ : List Char} {c : Combinator}

/-! ## One combinator -/

theorem toLower_of_isLower {d : Char} (h : d.isLower = true) : d.toLower = d :=
  Char.toLower_eq_of_not_isUpper (Char.not_isUpper_of_isLower h)

theorem map_toLower_of_isLower {w : List Char} (h : w.all Char.isLower = true) :
    w.map Char.toLower = w := by
  rw [List.all_eq_true] at h
  exact (List.map_congr_left fun d hd => toLower_of_isLower (h d hd)).trans (List.map_id w)

theorem isLower_combinator (c : Combinator) : c.word.all Char.isLower = true := by
  cases c <;> rfl

/-- Of the spellings of a combinator one is all in lower case. -/
theorem spells_exact_iff {word : List Char} :
    Spells .exact c.word word ↔
      Spells .caseless c.word word ∧ word.all Char.isLower = true := by
  have hexact : Spells .exact c.word word ↔ word = c.word := by
    rw [Spells]
    exact (congrArg (· = c.word) (List.map_id word)).to_iff
  rw [hexact]
  constructor
  · rintro rfl
    exact ⟨map_toLower_of_isLower (isLower_combinator c), isLower_combinator c⟩
  · intro h
    obtain ⟨hspells, hlower⟩ := h
    exact (map_toLower_of_isLower hlower).symm.trans hspells

theorem combinator?_caseless_of_exact (h : Scan.combinator? .exact s = some (c, s₁)) :
    Scan.combinator? .caseless s = some (c, s₁) := by
  obtain ⟨a, word, rest, hs, ha, hw, hrest, hs₁⟩ := Scan.combinator?_eq_some_iff.1 h
  exact Scan.combinator?_eq_some_iff.2
    ⟨a, word, rest, hs, ha, (spells_exact_iff.1 hw).1, hrest, hs₁⟩

theorem combinator?_exact_of_none (h : Scan.combinator? .caseless s = none) :
    Scan.combinator? .exact s = none := by
  cases hexact : Scan.combinator? .exact s with
  | none => rfl
  | some x =>
    obtain ⟨c, s₁⟩ := x
    rw [combinator?_caseless_of_exact hexact] at h
    cases h

theorem isLower_leading (h : Scan.combinator? .exact s = some (c, s₁)) :
    (Junction.leading c (skipSpace s)).isLower = true := by
  obtain ⟨a, word, rest, -, hw, -, hleading⟩ := exists_leading h
  rw [hleading]
  exact (spells_exact_iff.1 hw).2

theorem combinator?_exact_of_some (h : Scan.combinator? .caseless s = some (c, s₁)) :
    Scan.combinator? .exact s =
      if (Junction.leading c (skipSpace s)).isLower then some (c, s₁) else none := by
  obtain ⟨a, word, rest, hs, ha, hw, hrest, hs₁⟩ := Scan.combinator?_eq_some_iff.1 h
  have hskip : skipSpace s = word ++ rest := by
    rw [hs]
    exact skipSpace_append_word ha (hw.isWord (isWord_combinator c)) rest
  split
  · rename_i hlower
    rw [hskip, Junction.leading_append hw] at hlower
    exact Scan.combinator?_eq_some_iff.2
      ⟨a, word, rest, hs, ha, spells_exact_iff.2 ⟨hw, hlower⟩, hrest, hs₁⟩
  · rename_i hlower
    cases hexact : Scan.combinator? .exact s with
    | none => rfl
    | some x =>
      obtain ⟨c', s₁'⟩ := x
      have hsame := (combinator?_caseless_of_exact hexact).symm.trans h
      cases hsame
      exact absurd (isLower_leading hexact) hlower

/-! ## All combinators -/

/-- The first combinator that is not all in lower case. -/
def firstNotLower (js : List Junction) : Option Junction := js.find? (!·.isLower)

theorem firstNotLower_cons (j : Junction) (js : List Junction) :
    firstNotLower (j :: js) = if j.isLower then firstNotLower js else some j := by
  cases h : j.isLower <;> simp [firstNotLower, h]

/-- Whether a scanner does what another does, unless a junction is given.  Then it ends in
front of the junction, and that is not the end of the query. -/
inductive EndsAt {α : Type} :
    Option Junction → (r r' : Except Mismatch (α × List Char)) → Prop
  | never {r : Except Mismatch (α × List Char)} : EndsAt none r r
  | junction {j : Junction} {a : α} {rest : List Char} {r : Except Mismatch (α × List Char)}
      (h : Scan.endOfQuery rest = .error ⟨.endOfQuery, j.tail⟩) :
      EndsAt (some j) (.ok (a, rest)) r

theorem EndsAt.map {α β : Type} {found : Option Junction}
    {r r' : Except Mismatch (α × List Char)} (h : EndsAt found r r') (f : α → β) :
    EndsAt found (r.map fun (a, rest) => (f a, rest)) (r'.map fun (a, rest) => (f a, rest)) := by
  cases h with
  | never => exact .never
  | junction h => exact .junction h

theorem chain_endsAt
    (h : ∀ p s₁, Scan.predicate s = .ok (p, s₁) →
      EndsAt (firstNotLower (linkJunctions .caseless s₁)) (links .exact s₁) (links .caseless s₁)) :
    EndsAt (firstNotLower (chainJunctions .caseless s)) (Scan.chain .exact s)
      (Scan.chain .caseless s) := by
  cases hp : Scan.predicate s with
  | error m =>
    rw [chainJunctions_of_error hp, Scan.chain_of_error hp, Scan.chain_of_error hp]
    exact .never
  | ok x =>
    obtain ⟨p, s₁⟩ := x
    rw [chainJunctions_of_ok hp, Scan.chain_of_ok hp, Scan.chain_of_ok hp]
    exact (h p s₁ hp).map fun ls => (⟨p, ls⟩ : Chain Predicate)

theorem links_endsAt (s : List Char) :
    EndsAt (firstNotLower (linkJunctions .caseless s)) (links .exact s) (links .caseless s) := by
  induction s using linkJunctions.induct .caseless with
  | case1 s hc =>
    rw [linkJunctions_of_none hc, links_of_none hc, links_of_none (combinator?_exact_of_none hc)]
    exact .never
  | case2 s c s₁ hc ih =>
    have hexact := combinator?_exact_of_some hc
    rw [linkJunctions_of_some hc, firstNotLower_cons]
    by_cases hlower : (Junction.leading c (skipSpace s)).isLower = true
    · rw [if_pos hlower] at hexact ⊢
      rw [links_eq_chain hexact, links_eq_chain hc]
      exact (chain_endsAt ih).map fun chain : Chain Predicate => (c, chain.first) :: chain.links
    · rw [if_neg hlower] at hexact ⊢
      rw [links_of_none hexact]
      exact .junction (endOfQuery_of_combinator hc)

theorem readChain_exact (query : List Char) :
    readChain .exact query =
      match firstNotLower (chainJunctions .caseless query) with
      | none => readChain .caseless query
      | some j => .error ⟨.endOfQuery, j.tail⟩ := by
  have hends : EndsAt (firstNotLower (chainJunctions .caseless query)) (Scan.chain .exact query)
      (Scan.chain .caseless query) := chain_endsAt fun _ s₁ _ => links_endsAt s₁
  rw [readChain_eq_chain, readChain_eq_chain]
  generalize firstNotLower (chainJunctions .caseless query) = found at hends
  generalize Scan.chain .exact query = r at hends
  cases hends with
  | never => rfl
  | junction h => simp [bind, Except.bind, h]

/-- With combinators in lower case only a query ends at the first that is not. -/
theorem readPredicates_exact (query : List Char) :
    readPredicates .exact query =
      match firstNotLower (junctions .caseless query) with
      | none => readPredicates .caseless query
      | some j => .error ⟨.endOfQuery, j.tail⟩ := by
  cases hl : lookahead query with
  | none =>
    rw [junctions_of_none hl, readPredicates_of_none hl, readPredicates_of_none hl]
    rfl
  | some c =>
    rw [junctions_of_some hl, readPredicates_of_some hl, readPredicates_of_some hl]
    exact readChain_exact query

/-! ## Places in the query -/

variable {keywordCase : KeywordCase} {j : Junction}

theorem mem_junctions (h : j ∈ junctions keywordCase query) :
    readPredicates keywordCase query = readChain keywordCase query ∧
      j ∈ chainJunctions keywordCase query := by
  cases hl : lookahead query with
  | none =>
    rw [junctions_of_none hl] at h
    cases h
  | some c =>
    rw [junctions_of_some hl] at h
    exact ⟨readPredicates_of_some hl, h⟩

theorem map_combinator_junctions {chain : Chain Predicate}
    (h : readPredicates keywordCase query = .ok chain) :
    (junctions keywordCase query).map Junction.combinator = chain.links.map Prod.fst := by
  cases hl : lookahead query with
  | none =>
    rw [readPredicates_of_none hl] at h
    rw [junctions_of_none hl]
    cases hs : readSingle query with
    | error m =>
      rw [hs] at h
      cases h
    | ok p =>
      rw [hs] at h
      cases h
      rfl
  | some c =>
    rw [readPredicates_of_some hl] at h
    rw [junctions_of_some hl]
    exact map_combinator_chainJunctions h

/-- The junctions of a query that has been read are the combinators of its chain. -/
theorem exists_chain_junctions {config : Config} {text : String}
    (hlength : config.checkLength text.toList = .ok ())
    (h : IsRead (answer config text (readPredicates keywordCase text.toList))) :
    ∃ chain, readPredicates keywordCase text.toList = .ok chain ∧
      (junctions keywordCase text.toList).map Junction.combinator = chain.links.map Prod.fst := by
  obtain ⟨chain, hchain⟩ := exists_chain_of_isRead hlength h
  exact ⟨chain, hchain, map_combinator_junctions hchain⟩

theorem mem_of_firstNotLower {js : List Junction} (h : firstNotLower js = some j) :
    j ∈ js := List.mem_of_find?_eq_some h

theorem byteLength_le_of_suffix {rest : List Char} (h : rest <:+ s) :
    byteLength rest ≤ byteLength s := by
  obtain ⟨t, rfl⟩ := h
  rw [byteLength_append]
  exact Nat.le_add_left _ _

theorem endOfQuery_rest {m : Mismatch} (h : Scan.endOfQuery s = .error m) :
    m.rest = skipSpace s := by
  rw [Scan.endOfQuery] at h
  cases hs : skipSpace s with
  | nil =>
    rw [hs] at h
    cases h
  | cons d t =>
    rw [hs] at h
    cases h
    rfl

/-- A chain that cannot be read on is refused behind its junctions. -/
theorem offset_tail_le {m : Mismatch}
    (hj : j ∈ chainJunctions keywordCase query) (h : readChain keywordCase query = .error m) :
    offset query j.tail ≤ offset query m.rest := by
  have hrest : m.rest <:+ j.rest := by
    obtain ⟨p, s, hp, hj⟩ := mem_chainJunctions_iff.1 hj
    have hleft := left_links_suffix_rest hj
    rw [← left_chain hp] at hleft
    rw [readChain_eq_chain] at h
    rcases bind_eq_error_iff.1 h with hchain | ⟨⟨chain, rest⟩, hchain, h⟩
    · rwa [hchain] at hleft
    · rw [hchain] at hleft
      rcases bind_eq_error_iff.1 h with hend | ⟨u, -, h⟩
      · rw [endOfQuery_rest hend]
        exact (List.dropWhile_suffix _).trans hleft
      · cases h
  have hbytes := byteLength_le_of_suffix (hrest.trans (List.suffix_append j.word j.rest))
  exact Nat.sub_le_sub_left hbytes _

/-! ## Two configurations -/

end FilterQuery

/-- A configuration with another way of matching the combinators. -/
def Config.matching (config : Config) (keywordCase : KeywordCase) : Config :=
  { config with keywordCase }

namespace FilterQuery

open Criteria.Filter Criteria.Filter.Grammar Criteria.Text

/-- A query that is not malformed with combinators in lower case only is answered alike without
regard to case.  Of a query that is read without regard to case, or is malformed, the first
combinator that is not in lower case decides: without one the answers are the same, and with
one the query is malformed where that combinator stands, which is not behind the place where it
is malformed without regard to case. -/
theorem exact_restricts_caseless (config : Config) (query : String) :
    (¬ IsMalformed (parse (config.matching .exact) query) →
      parse (config.matching .caseless) query = parse (config.matching .exact) query) ∧
    (IsRead (parse (config.matching .caseless) query) →
      (∃ chain, readPredicates .caseless query.toList = .ok chain ∧
        (junctions .caseless query.toList).map Junction.combinator =
          chain.links.map Prod.fst) ∧
      (firstNotLower (junctions .caseless query.toList) = none →
        parse (config.matching .exact) query = parse (config.matching .caseless) query) ∧
      (∀ j, firstNotLower (junctions .caseless query.toList) = some j →
        ∃ n, j.StartsAt query.toList n ∧
          parse (config.matching .exact) query = .error (.malformed n .endOfQuery))) ∧
    (∀ n expected, parse (config.matching .caseless) query = .error (.malformed n expected) →
      ∃ n' expected',
        parse (config.matching .exact) query = .error (.malformed n' expected') ∧ n' ≤ n ∧
        (firstNotLower (junctions .caseless query.toList) = none →
          n' = n ∧ expected' = expected) ∧
        (∀ j, firstNotLower (junctions .caseless query.toList) = some j →
          j.StartsAt query.toList n' ∧ expected' = .endOfQuery)) := by
  have hanswer : ∀ keywordCase, parse (config.matching keywordCase) query =
      answer config query (readPredicates keywordCase query.toList) := fun _ => rfl
  rw [hanswer, hanswer, readPredicates_exact]
  rcases checkLength_cases config query.toList with hlength | ⟨length, limit, hlength⟩
  · cases hfound : firstNotLower (junctions .caseless query.toList) with
    | none =>
      refine ⟨fun _ => rfl, fun h => ?_, fun n expected h => ?_⟩
      · exact ⟨exists_chain_junctions hlength h, fun _ => rfl, nofun⟩
      · exact ⟨n, expected, h, Nat.le_refl n, fun _ => ⟨rfl, rfl⟩, nofun⟩
    | some j =>
      obtain ⟨hchain, hj⟩ := mem_junctions (mem_of_firstNotLower hfound)
      have hstart := Junction.startsAt_of_suffix (suffix_of_mem_chainJunctions hj).1
      rw [answer_error hlength]
      refine ⟨fun h => absurd ⟨_, _, rfl⟩ h, fun h => ?_, fun n expected h => ?_⟩
      · refine ⟨exists_chain_junctions hlength h, nofun, ?_⟩
        rintro j' ⟨⟩
        exact ⟨_, hstart, rfl⟩
      · obtain ⟨m, hm, hn⟩ := exists_mismatch_of_malformed hlength h
        rw [hchain] at hm
        cases hn
        refine ⟨_, _, rfl, offset_tail_le hj hm, nofun, ?_⟩
        rintro j' ⟨⟩
        exact ⟨hstart, rfl⟩
  · rw [answer_of_refused hlength, answer_of_refused hlength]
    refine ⟨fun _ => rfl, ?_, nofun⟩
    rintro (⟨a, h⟩ | ⟨part, h⟩)
    · cases h
    · cases h

/-- The first combinator is in lower case and the second is not. -/
example :
    parse { keywordCase := .exact } "a eq 1 and b eq 2 OR c eq 3" =
      .error (.malformed 18 .endOfQuery) := by
  cbv

end FilterQuery
end Criteria
