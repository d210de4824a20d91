import Mathlib.Data.List.Basic
import Criteria.Proofs.Shipping

/-!
# Queries and their lengths

A comparison takes five bytes at least, and a link eight.  A query of several comparisons takes
one byte more: where every part is as short as it may be, no combinator has white space on both
sides, and the look-ahead finds none.  A limit on the length of queries thereby limits their
filters, and lets all of these be shipped.
-/

namespace Criteria
namespace Filter

open Text

/-! ## Where no combinator stands between white space -/

variable {word s t w : List Char} {a c : Char}

theorem HasSpaced.of_append (hw : ∀ c ∈ w, c.isWhitespace = false)
    (h : HasSpaced word (w ++ s)) : HasSpaced word s := by
  rw [← hasSpaced_eq_true_iff] at h ⊢
  induction w with
  | nil => exact h
  | cons c w ih =>
    obtain ⟨hc, hw⟩ := List.forall_mem_cons.1 hw
    rw [List.cons_append, hasSpaced, startsSpaced, hc, Bool.false_and, Bool.false_or] at h
    exact ih hw h

/-- A word that is found directly behind the first character is the whole run of letters there,
and has white space behind it. -/
theorem HasSpaced.of_cons (hword : IsWord word) (hw : ∀ c ∈ w, c.isAlpha = true)
    (hc : c.isAlpha = false) (h : HasSpaced word (a :: (w ++ c :: t))) :
    (Spells .caseless word w ∧ c.isWhitespace = true) ∨ HasSpaced word (w ++ c :: t) := by
  rw [← hasSpaced_eq_true_iff, hasSpaced, Bool.or_eq_true, startsSpaced_eq_true_iff,
    hasSpaced_eq_true_iff] at h
  refine h.imp_left fun hstart => ?_
  obtain ⟨a', w', b, y, heq, -, hspells, hb⟩ := hstart
  have hb' : b.isAlpha = false := disjoint_symm (fun _ => isWhitespace_eq_false_of_isAlpha) b hb
  have hletters := (hspells.isWord hword).2
  obtain ⟨rfl, htail⟩ := run_unique hw hletters (by simp [hc]) (by simp [hb'])
    (List.cons.inj heq).2
  obtain ⟨rfl, -⟩ := List.cons.inj htail
  exact ⟨hspells, hb⟩

namespace Grammar

/-! ## Lengths -/

theorem two_le_length_operator (o : Operator) : 2 ≤ o.word.length := by
  cases o <;> decide

theorem two_le_length_combinator (c : Combinator) : 2 ≤ c.word.length := by
  cases c <;> decide

theorem IsLiteral.length_pos {v : List Char} (h : IsLiteral s v) : 0 < s.length := by
  cases h with
  | quoted hq hv => exact Nat.zero_lt_succ _
  | number hl hv hne =>
    have hdigits := List.length_pos_iff.2 hne
    rw [List.length_append]
    omega

/-- Quotes would be two characters already. -/
theorem IsLiteral.isDigit {v : List Char} (h : IsLiteral [c] v) : c.isDigit = true := by
  generalize hs : [c] = s at h
  cases h with
  | quoted hq hv => simp at hs
  | @number letters v hl hv hne =>
    cases letters with
    | nil =>
      obtain rfl : [c] = v := hs
      exact hv c List.mem_cons_self
    | cons d letters => exact absurd (List.append_eq_nil_iff.1 (List.cons.inj hs).2.symm).2 hne

theorem IsComparison.five_le_length {p : Predicate} (h : IsComparison s p) : 5 ≤ s.length := by
  obtain @⟨a, path, name, b, word, d, literal, v, e, o, -, hp, -, hne, ho, -, hl, -⟩ := h
  have hpath := hp.begins.length_pos
  have hb := List.length_pos_iff.2 hne
  have hword := two_le_length_operator o
  have hliteral := hl.length_pos
  rw [← ho.length_eq] at hword
  simp only [List.length_append]
  omega

/-- The shortest comparisons: a letter, white space, two letters and a digit. -/
theorem IsComparison.eq_of_length_le {p : Predicate} (h : IsComparison s p) (hs : s.length ≤ 5) :
    ∃ x b y z n : Char, s = [x, b, y, z, n] ∧ x.isAlpha = true ∧ b.isWhitespace = true ∧
      y.isAlpha = true ∧ z.isAlpha = true ∧ n.isDigit = true := by
  obtain @⟨a, path, name, b, word, d, literal, v, e, o, -, hp, hb, hne, ho, -, hl, -⟩ := h
  have hpath := hp.begins.length_pos
  have hblength := List.length_pos_iff.2 hne
  have hword := two_le_length_operator o
  have hliteral := hl.length_pos
  rw [← ho.length_eq] at hword
  simp only [List.length_append] at hs
  obtain rfl : a = [] := List.eq_nil_of_length_eq_zero (by omega)
  obtain rfl : d = [] := List.eq_nil_of_length_eq_zero (by omega)
  obtain rfl : e = [] := List.eq_nil_of_length_eq_zero (by omega)
  obtain ⟨x, rfl⟩ := List.length_eq_one_iff.1 (show path.length = 1 by omega)
  obtain ⟨b, rfl⟩ := List.length_eq_one_iff.1 (show b.length = 1 by omega)
  obtain ⟨y, z, rfl⟩ := List.length_eq_two.1 (show word.length = 2 by omega)
  obtain ⟨n, rfl⟩ := List.length_eq_one_iff.1 (show literal.length = 1 by omega)
  have hletters := (ho.isWord (isWord_operator o)).2
  exact ⟨x, b, y, z, n, rfl, hp.begins, hb b List.mem_cons_self, hletters y (by simp),
    hletters z (by simp), hl.isDigit⟩

/-- In the shortest comparisons nothing stands between white space but the operator, which has a
digit behind it. -/
theorem IsComparison.hasSpaced_of_append {p : Predicate} (h : IsComparison s p)
    (hs : s.length ≤ 5) (hword : IsWord word) (hspaced : HasSpaced word (s ++ t)) :
    HasSpaced word t := by
  obtain ⟨x, b, y, z, n, rfl, hx, hb, hy, hz, hn⟩ := h.eq_of_length_le hs
  have hdigit : n.isAlpha = false := disjoint_symm (fun _ => isDigit_eq_false_of_isAlpha) n hn
  have hspace : ∀ c ∈ [x], c.isWhitespace = false := by
    simpa using isWhitespace_eq_false_of_isAlpha hx
  have hbehind : HasSpaced word (b :: ([y, z] ++ n :: t)) := HasSpaced.of_append hspace hspaced
  rcases hbehind.of_cons hword (by simp [hy, hz]) hdigit with ⟨-, hblank⟩ | hbehind
  · rw [isWhitespace_eq_false_of_isDigit hn] at hblank
    cases hblank
  · refine HasSpaced.of_append (w := [y, z, n]) ?_ hbehind
    simp [isWhitespace_eq_false_of_isAlpha hy, isWhitespace_eq_false_of_isAlpha hz,
      isWhitespace_eq_false_of_isDigit hn]

/-- The field is too short to be a combinator behind the white space of another one. -/
theorem IsComparison.hasSpaced_of_cons {p : Predicate} (h : IsComparison s p)
    (hs : s.length ≤ 5) {k : Combinator} (hspaced : HasSpaced k.word (a :: (s ++ t))) :
    HasSpaced k.word t := by
  obtain ⟨x, b, y, z, n, rfl, hx, hb, hy, hz, hn⟩ := h.eq_of_length_le hs
  have hletter : b.isAlpha = false := disjoint_symm (fun _ => isWhitespace_eq_false_of_isAlpha) b hb
  have hbehind : HasSpaced k.word (a :: ([x] ++ b :: ([y, z, n] ++ t))) := hspaced
  rcases hbehind.of_cons (isWord_combinator k) (by simpa using hx) hletter with
    ⟨hspells, -⟩ | hbehind
  · have hlength := hspells.length_eq
    have htwo := two_le_length_combinator k
    rw [List.length_singleton] at hlength
    omega
  · exact h.hasSpaced_of_append hs (isWord_combinator k) hbehind

variable {keywordCase : KeywordCase} {links : List (Combinator × Predicate)}

theorem IsLinks.eight_mul_le_length (h : IsLinks keywordCase s links) :
    8 * links.length ≤ s.length := by
  induction h with
  | nil => exact Nat.le_refl 0
  | @cons word b s t c p links hw hb hne hs ht ih =>
    have hword := two_le_length_combinator c
    have hblength := List.length_pos_iff.2 hne
    have hcomparison := hs.five_le_length
    rw [← hw.length_eq] at hword
    simp only [List.length_append, List.length_cons]
    omega

/-- Links that are as short as they may be have no combinator between white space. -/
theorem IsLinks.length_of_hasSpaced (h : IsLinks keywordCase s links) {k : Combinator}
    (hspaced : HasSpaced k.word s) : 8 * links.length + 1 ≤ s.length := by
  induction h with
  | nil =>
    rw [← hasSpaced_eq_true_iff] at hspaced
    cases hspaced
  | @cons word b s t c p links hw hb hne hs ht ih =>
    have hword := two_le_length_combinator c
    have hblength := List.length_pos_iff.2 hne
    have hcomparison := hs.five_le_length
    have hlinks := ht.eight_mul_le_length
    rw [← hw.length_eq] at hword
    simp only [List.length_append, List.length_cons]
    by_cases hlong : 9 ≤ word.length + b.length + s.length
    · omega
    -- There is no byte to spare in this link, so the combinator stands in those behind it.
    obtain ⟨b, rfl⟩ := List.length_eq_one_iff.1 (show b.length = 1 by omega)
    have hletters : ∀ c ∈ word, c.isWhitespace = false := fun c hc =>
      isWhitespace_eq_false_of_isAlpha ((hw.isWord (isWord_combinator _)).2 c hc)
    have hbehind : HasSpaced k.word (b :: (s ++ t)) := by
      refine HasSpaced.of_append hletters ?_
      simpa using hspaced
    have hrest := ih (hs.hasSpaced_of_cons (by omega) hbehind)
    omega

theorem IsChain.five_le_length {chain : Chain Predicate} (h : IsChain keywordCase s chain) :
    5 ≤ s.length := by
  obtain ⟨t, u, rfl, ht, hu⟩ := h
  have hcomparison := ht.five_le_length
  rw [List.length_append]
  omega

theorem IsChain.length_of_hasSpaced {chain : Chain Predicate} (h : IsChain keywordCase s chain)
    {k : Combinator} (hspaced : HasSpaced k.word s) : 8 * chain.links.length + 6 ≤ s.length := by
  obtain ⟨t, u, rfl, ht, hu⟩ := h
  have hcomparison := ht.five_le_length
  have hlinks := hu.eight_mul_le_length
  rw [List.length_append]
  by_cases hlong : 6 ≤ t.length
  · omega
  · have hrest := hu.length_of_hasSpaced
      (ht.hasSpaced_of_append (by omega) (isWord_combinator k) hspaced)
    omega

end Grammar

/-! ## The shortest queries -/

open Grammar

/-- The fewest bytes that a query of several comparisons has. -/
def leastBytes (comparisons : Nat) : Nat :=
  if comparisons = 1 then 5 else 8 * comparisons - 2

theorem IsQuery.leastBytes_le_length {keywordCase : KeywordCase} {chain : Chain Predicate}
    (h : IsQuery keywordCase s chain) : leastBytes chain.operands.length ≤ s.length := by
  obtain ⟨hchain, hlinks⟩ := h
  have hfive := hchain.five_le_length
  rw [leastBytes, Chain.operands, List.length_cons, List.length_map]
  by_cases hone : chain.links.length + 1 = 1
  · rw [if_pos hone]
    exact hfive
  · have hne : chain.links ≠ [] := fun hnil => hone (by rw [hnil, List.length_nil])
    obtain ⟨k, hspaced⟩ := hlinks.resolve_left hne
    have hlength := hchain.length_of_hasSpaced hspaced
    rw [if_neg hone]
    omega

def shortComparison : List Char := "a eq1".toList

def shortLink : List Char := "or ".toList ++ shortComparison

def shortLinks : Nat → List Char
  | 0 => []
  | n + 1 => shortLink ++ shortLinks n

/-- A query with so many links, of which only the first has white space in front. -/
def shortQuery : Nat → List Char
  | 0 => shortComparison
  | n + 1 => shortComparison ++ ' ' :: shortLinks (n + 1)

/-- What the comparison says. -/
def shortPredicate : Predicate := ⟨"a", .equals, "1"⟩

def shortChain (n : Nat) : Chain Predicate where
  first := shortPredicate
  links := List.replicate n (.or, shortPredicate)

theorem operands_shortChain (n : Nat) :
    (shortChain n).operands = List.replicate (n + 1) shortPredicate := by
  rw [Chain.operands, shortChain, List.map_replicate, List.replicate_succ]

theorem isComparison_short : IsComparison shortComparison shortPredicate :=
  readSingle_eq_ok_iff.1 rfl

theorem isLinks_shortLinks (keywordCase : KeywordCase) (n : Nat) :
    IsLinks keywordCase (shortLinks n) (shortChain n).links := by
  induction n with
  | zero => exact .nil
  | succ n ih =>
    have hword : Spells keywordCase Combinator.or.word "or".toList := by
      cases keywordCase <;> decide
    exact .cons (b := [' ']) hword (by decide) (by decide) isComparison_short ih

theorem isQuery_shortQuery (keywordCase : KeywordCase) (n : Nat) :
    IsQuery keywordCase (shortQuery n) (shortChain n) := by
  cases n with
  | zero => exact ⟨isChain_single_iff.2 isComparison_short, .inl rfl⟩
  | succ n =>
    have hfirst : IsComparison (shortComparison ++ [' ']) shortPredicate :=
      isComparison_short.append_space (by decide)
    refine ⟨⟨_, shortLinks (n + 1), ?_, hfirst, isLinks_shortLinks keywordCase (n + 1)⟩,
      .inr ⟨.or, shortComparison, ' ', "or".toList, ' ', shortComparison ++ shortLinks n, rfl, rfl,
        by decide, rfl⟩⟩
    rw [shortQuery, List.append_assoc, List.singleton_append]

theorem byteLength_shortLinks (n : Nat) : byteLength (shortLinks n) = 8 * n := by
  induction n with
  | zero => rfl
  | succ n ih =>
    have hlink : byteLength shortLink = 8 := by decide
    rw [shortLinks, byteLength_append, ih, hlink]
    omega

theorem byteLength_shortQuery (n : Nat) : byteLength (shortQuery n) = leastBytes (n + 1) := by
  have hfirst : byteLength shortComparison = 5 := by decide
  have hspace : ' '.utf8Size = 1 := by decide
  cases n with
  | zero => exact hfirst
  | succ n =>
    rw [shortQuery, byteLength_append, byteLength, byteLength_shortLinks, hfirst, hspace,
      leastBytes, if_neg (by omega)]
    omega

end Filter

/-! ## Queries that are read -/

namespace FilterQuery

open Criteria.Filter Json

variable {config : Config} {query : String} {q : FilterQuery}

theorem leastBytes_le_of_parse (h : parse config query = .ok q) :
    leastBytes q.filter.leaves.length ≤ query.utf8ByteSize := by
  obtain ⟨chain, hquery, -, rfl⟩ := (parse_eq_ok_iff (allows_of_parse h)).1 h
  rw [leaves_assemble_test, ← Text.byteLength_toList]
  exact Nat.le_trans hquery.leastBytes_le_length (Text.length_le_byteLength _)

theorem exists_parse_leastBytes (hunlimited : config.maxLength = none) (n : Nat) :
    ∃ query q, parse config query = .ok q ∧ q.filter.leaves.length = n + 1 ∧
      query.utf8ByteSize = leastBytes (n + 1) := by
  have hquery := isQuery_shortQuery config.keywordCase n
  rw [← String.toList_ofList (l := shortQuery n)] at hquery
  have hvalues : ∀ p ∈ (shortChain n).operands, Text.isBlank p.value = false := by
    intro p hp
    rw [operands_shortChain] at hp
    rw [List.eq_of_mem_replicate hp]
    decide
  refine ⟨_, _, (parse_eq_ok_iff (config.allows_of_unlimited hunlimited _)).2
    ⟨_, hquery, hvalues, rfl⟩, ?_, ?_⟩
  · rw [leaves_assemble_test, operands_shortChain, List.length_replicate]
  · rw [← Text.byteLength_toList, String.toList_ofList, byteLength_shortQuery]

/-- A query with at most 63 comparisons is not too deep to be shipped. -/
theorem decode_encode_of_length_le (h : parse config query = .ok q)
    (hlength : q.filter.leaves.length ≤ 63) : decode (encode q) = .ok q := by
  obtain ⟨hblank, hheight⟩ := parse_not_blank_height h
  rw [← hheight, ← nesting_encode_le_iff hblank] at hlength
  exact (readsBack hblank).1.2 hlength

/-- A query that is read has so many bytes for the comparisons in it, and there are queries with
no more.  Under a limit of 509 bytes no query has more than 63 comparisons, and each is read back
when it is shipped, whatever the shape of its chain. -/
theorem query_length_bounds :
    (∀ config query q, parse config query = .ok q →
      leastBytes q.filter.leaves.length ≤ query.utf8ByteSize) ∧
    (∀ config : Config, config.maxLength = none → ∀ comparisons, 1 ≤ comparisons →
      ∃ query q, parse config query = .ok q ∧ q.filter.leaves.length = comparisons ∧
        query.utf8ByteSize = leastBytes comparisons) ∧
    (∀ (config : Config) (limit : UInt64), config.maxLength = some limit → limit.toNat ≤ 509 →
      ∀ query q, parse config query = .ok q →
        q.filter.leaves.length ≤ 63 ∧ decode (encode q) = .ok q) := by
  refine ⟨fun config query q => leastBytes_le_of_parse, fun config hunlimited n hn => ?_,
    fun config limit hlimit hle query q h => ?_⟩
  · obtain ⟨n, rfl⟩ := Nat.exists_eq_add_of_le' hn
    exact exists_parse_leastBytes hunlimited n
  · have hleast := leastBytes_le_of_parse h
    have hallowed := allows_of_parse h limit hlimit
    have hlength : q.filter.leaves.length ≤ 63 := by
      rw [leastBytes] at hleast
      split at hleast <;> omega
    exact ⟨hlength, decode_encode_of_length_le h hlength⟩

/-- The word between white space is the field behind the combinator, and no query of two
comparisons is shorter. -/
theorem query_length_bounds_glued :
    ∃ q, parse { maxLength := some 509 } "a eq1or or eq1" = .ok q ∧
      leastBytes q.filter.leaves.length ≤ "a eq1or or eq1".utf8ByteSize ∧
      (q.filter.leaves.length ≤ 63 ∧ decode (encode q) = .ok q) ∧
      ∃ query longest, parse {} query = .ok longest ∧ longest.filter.leaves.length = 63 ∧
        query.utf8ByteSize = leastBytes 63 := by
  have hparse : parse { maxLength := some 509 } "a eq1or or eq1" =
      .ok ⟨.dollarFilter, "a eq1or or eq1",
        .join (.test ⟨"a", .equals, "1"⟩) (.test ⟨"or", .equals, "1"⟩) .or⟩ := by
    with_unfolding_all rfl
  exact ⟨_, hparse, query_length_bounds.1 _ _ _ hparse,
    query_length_bounds.2.2 _ 509 rfl (by decide) _ _ hparse,
    query_length_bounds.2.1 {} rfl 63 (by decide)⟩

end FilterQuery
end Criteria
