import Criteria.Proofs.Filter.Outcome
import Criteria.Proofs.Filter.Replacement

/-!
# The contents of quoted values

A quoted value ends at the next quote character, so other contents in its place leave the
grammar of the query as it is.  They reach the rest of the query only through the look-ahead,
which does not tell quoted characters from others: a chain may be longer than one comparison
because one of its values has a combinator between white space.
-/

namespace Criteria
namespace Filter

open Text Grammar

/-- A text without quote characters. -/
def IsPlain (s : List Char) : Prop := ∀ c ∈ s, Scan.isQuote c = false

instance (s : List Char) : Decidable (IsPlain s) :=
  decidable_of_iff (s.all (!Scan.isQuote ·) = true) (by simp [IsPlain])

def quoteCount (s : List Char) : Nat := s.countP Scan.isQuote

theorem isPlain_of_forall {p : Char → Bool} (hp : ∀ c, p c = true → Scan.isQuote c = false)
    {s : List Char} (h : ∀ c ∈ s, p c = true) : IsPlain s := fun c hc => hp c (h c hc)

theorem IsPlain.append {s t : List Char} (hs : IsPlain s) (ht : IsPlain t) :
    IsPlain (s ++ t) := by
  intro c hc
  rcases List.mem_append.1 hc with hc | hc
  · exact hs c hc
  · exact ht c hc

theorem IsPlain.quoteCount {s : List Char} (h : IsPlain s) : quoteCount s = 0 :=
  List.countP_eq_zero.2 fun c hc => Bool.eq_false_iff.1 (h c hc)

theorem isPlain_of_isSpace {s : List Char} (h : IsSpace s) : IsPlain s :=
  isPlain_of_forall (fun _ => Scan.isQuote_eq_false_of_isWhitespace) h

theorem isPlain_of_isWord {s : List Char} (h : IsWord s) : IsPlain s :=
  isPlain_of_forall (fun _ => Scan.isQuote_eq_false_of_isAlpha) h.2

theorem isPlain_of_isPath {s n : List Char} (h : IsPath s n) : IsPlain s := by
  induction h with
  | name hw => exact isPlain_of_isWord hw
  | @step w s n hw h ih =>
    refine (isPlain_of_isWord hw).append ?_
    intro c hc
    rcases List.mem_cons.1 hc with rfl | hc
    · rfl
    · exact ih c hc

variable {a b r u v w t s : List Char} {quote quote' : Char} {content content' : List Char}

/-! ## Where a quote character stands -/

theorem quoteCount_append (s t : List Char) : quoteCount (s ++ t) = quoteCount s + quoteCount t :=
  List.countP_append

theorem quoteCount_cons (hq : Scan.isQuote quote = true) :
    quoteCount (quote :: s) = quoteCount s + 1 := List.countP_cons_of_pos hq

/-- A quote character behind a plain text stands at its end or behind it. -/
theorem IsPlain.split (hw : IsPlain w) (hq : Scan.isQuote quote = true)
    (h : w ++ r = u ++ quote :: v) : ∃ u', u = w ++ u' ∧ r = u' ++ quote :: v := by
  rcases List.append_eq_append_iff.1 h with ⟨u', hu, hr⟩ | ⟨w', rfl, hv⟩
  · exact ⟨u', hu, hr⟩
  · cases w' with
    | nil => exact ⟨[], by simp, hv.symm⟩
    | cons c w' =>
      obtain ⟨rfl, -⟩ := List.cons.inj hv
      rw [hw quote (List.mem_append_right u List.mem_cons_self)] at hq
      cases hq

/-- The first quote character of a text is one character. -/
theorem IsPlain.split_unique (ha : IsPlain a) (hu : IsPlain u)
    (hq : Scan.isQuote quote = true) (hq' : Scan.isQuote quote' = true)
    (h : a ++ quote :: b = u ++ quote' :: v) : a = u ∧ quote = quote' ∧ b = v := by
  obtain ⟨u', rfl, hr⟩ := ha.split hq' h
  cases u' with
  | nil =>
    obtain ⟨rfl, rfl⟩ := List.cons.inj hr
    exact ⟨(List.append_nil a).symm, rfl, rfl⟩
  | cons c u' =>
    obtain ⟨rfl, -⟩ := List.cons.inj hr
    rw [hu quote (List.mem_append_right a List.mem_cons_self)] at hq
    cases hq

/-- A text with a quoted content, as it stands in a query. -/
def quotedIn (u : List Char) (quote : Char) (content v : List Char) : List Char :=
  u ++ quote :: (content ++ quote :: v)

theorem quotedIn_append : quotedIn u quote content (v ++ r) = quotedIn u quote content v ++ r := by
  simp [quotedIn]

theorem append_quotedIn : quotedIn (w ++ u) quote content v = w ++ quotedIn u quote content v := by
  simp [quotedIn]

/-- A quoted content behind another one, or the very same. -/
theorem split_quotedIn (ha : IsPlain a) (hq' : Scan.isQuote quote' = true) (hb : IsPlain b)
    (hq : Scan.isQuote quote = true) (hc : IsPlain content) (heven : quoteCount u % 2 = 0)
    (h : quotedIn a quote' b r = quotedIn u quote content v) :
    (∃ u', u = quotedIn a quote' b u' ∧ r = quotedIn u' quote content v ∧
      quoteCount u' % 2 = 0) ∨
    (a = u ∧ quote' = quote ∧ b = content ∧ r = v) := by
  obtain ⟨u₁, rfl, h₁⟩ := ha.split hq h
  cases u₁ with
  | nil =>
    obtain ⟨rfl, h₂⟩ := List.cons.inj h₁
    obtain ⟨rfl, -, rfl⟩ := hb.split_unique hc hq hq h₂
    exact .inr ⟨(List.append_nil a).symm, rfl, rfl, rfl⟩
  | cons c u₁ =>
    obtain ⟨rfl, h₂⟩ := List.cons.inj h₁
    obtain ⟨u₂, rfl, h₃⟩ := hb.split hq h₂
    cases u₂ with
    | nil =>
      -- only one quote character would stand in front of the content
      rw [List.append_nil, quoteCount_append, quoteCount_cons hq', ha.quoteCount,
        hb.quoteCount] at heven
      omega
    | cons c u₂ =>
      obtain ⟨rfl, h₄⟩ := List.cons.inj h₃
      refine .inl ⟨u₂, rfl, h₄, ?_⟩
      rw [quoteCount_append, quoteCount_cons hq', quoteCount_append, quoteCount_cons hq',
        ha.quoteCount, hb.quoteCount] at heven
      omega

/-! ## Quoted contents in the grammar -/

/-- A comparison either has no quote character or is one quoted value between plain texts,
in which any other content is a value as well. -/
theorem IsComparison.plain_or_quoted {p : Predicate} (h : IsComparison s p) :
    IsPlain s ∨ ∃ a quote value b, s = quotedIn a quote value b ∧ IsPlain a ∧
      Scan.isQuote quote = true ∧ IsPlain value ∧ IsPlain b ∧ p.value = String.ofList value ∧
      ∀ content, IsPlain content →
        IsComparison (quotedIn a quote content b) (p.setValue (String.ofList content)) := by
  obtain @⟨a, path, name, b, word, d, literal, value, e, o, ha, hp, hb, hne, ho, hd, hl, he⟩ := h
  have hfront : IsPlain (a ++ path ++ b ++ word ++ d) :=
    ((((isPlain_of_isSpace ha).append (isPlain_of_isPath hp)).append
      (isPlain_of_isSpace hb)).append
      (isPlain_of_isWord (ho.isWord (isWord_operator o)))).append (isPlain_of_isSpace hd)
  cases hl with
  | @quoted quote value hq hv =>
    refine .inr ⟨_, quote, value, e, by simp [quotedIn], hfront, hq, hv, isPlain_of_isSpace he,
      rfl, ?_⟩
    intro content hc
    have hother := IsComparison.mk ha hp hb hne ho hd (.quoted hq hc) he
    simpa [quotedIn, Predicate.setValue] using hother
  | @number letters value hletters hv hne =>
    have hletters' : IsPlain letters :=
      isPlain_of_forall (fun _ => Scan.isQuote_eq_false_of_isAlpha) hletters
    have hv' : IsPlain value := isPlain_of_forall (fun _ => Scan.isQuote_eq_false_of_isDigit) hv
    exact .inl ((hfront.append (hletters'.append hv')).append (isPlain_of_isSpace he))

/-- A quoted content in or behind a comparison.  In front of it stand all quote characters
of as many values as there are. -/
theorem IsComparison.split_quotedIn {p : Predicate} (h : IsComparison s p)
    (hq : Scan.isQuote quote = true) (hc : IsPlain content) (heven : quoteCount u % 2 = 0)
    (hs : s ++ r = quotedIn u quote content v) :
    (∃ u', u = s ++ u' ∧ r = quotedIn u' quote content v ∧ quoteCount u' % 2 = 0) ∨
    (∃ b, v = b ++ r ∧ p.value = String.ofList content ∧
      ∀ content', IsPlain content' →
        IsComparison (quotedIn u quote content' b) (p.setValue (String.ofList content'))) := by
  rcases IsComparison.plain_or_quoted h with hplain | hquoted
  · obtain ⟨u', rfl, hr⟩ := hplain.split hq hs
    rw [quoteCount_append, hplain.quoteCount, Nat.zero_add] at heven
    exact .inl ⟨u', rfl, hr, heven⟩
  · obtain ⟨a, quote', value, b, rfl, ha, hq', hvalue, hb, hp, hother⟩ := hquoted
    rw [← quotedIn_append] at hs
    rcases Filter.split_quotedIn ha hq' hvalue hq hc heven hs with hbehind | hsame
    · obtain ⟨u₁, rfl, hr, heven₁⟩ := hbehind
      obtain ⟨u', rfl, hr'⟩ := hb.split hq hr
      rw [quoteCount_append, hb.quoteCount, Nat.zero_add] at heven₁
      exact .inl ⟨u', quotedIn_append, hr', heven₁⟩
    · obtain ⟨rfl, rfl, rfl, rfl⟩ := hsame
      exact .inr ⟨b, rfl, hp, hother⟩

theorem IsLinks.replace {keywordCase : KeywordCase} {links : List (Combinator × Predicate)}
    (h : IsLinks keywordCase s links) (hq : Scan.isQuote quote = true) (hc : IsPlain content)
    (hc' : IsPlain content') (heven : quoteCount u % 2 = 0)
    (hs : s = quotedIn u quote content v) :
    ∃ links', IsLinks keywordCase (quotedIn u quote content' v) links' ∧
      ReplacesLink (String.ofList content) (String.ofList content') links links' := by
  induction h generalizing u with
  | nil => simp [quotedIn] at hs
  | @cons word b s t c p links hw hb hne hcomparison ht ih =>
    have hfront : IsPlain (word ++ b) :=
      (isPlain_of_isWord (hw.isWord (isWord_combinator c))).append (isPlain_of_isSpace hb)
    rw [List.append_assoc] at hs
    obtain ⟨u, rfl, hrest⟩ := hfront.split hq hs
    rw [quoteCount_append, hfront.quoteCount, Nat.zero_add] at heven
    rw [append_quotedIn]
    rcases IsComparison.split_quotedIn hcomparison hq hc heven hrest with hbehind | hinside
    · obtain ⟨u', rfl, ht', heven'⟩ := hbehind
      obtain ⟨links', hlinks', hreplaced⟩ := ih heven' ht'
      refine ⟨(c, p) :: links', ?_, .there hreplaced⟩
      rw [append_quotedIn, ← List.append_assoc]
      exact .cons hw hb hne hcomparison hlinks'
    · obtain ⟨b', rfl, hp, hother⟩ := hinside
      refine ⟨_, ?_, .here hp⟩
      rw [quotedIn_append, ← List.append_assoc]
      exact .cons hw hb hne (hother content' hc') ht

theorem IsChain.replace {keywordCase : KeywordCase} {chain : Chain Predicate}
    (h : IsChain keywordCase (quotedIn u quote content v) chain)
    (hq : Scan.isQuote quote = true) (hc : IsPlain content) (hc' : IsPlain content')
    (heven : quoteCount u % 2 = 0) :
    ∃ chain', IsChain keywordCase (quotedIn u quote content' v) chain' ∧
      ReplacesOperand (String.ofList content) (String.ofList content') chain chain' := by
  obtain ⟨first, links⟩ := chain
  obtain ⟨t, w, hs, ht, hw⟩ := h
  rcases IsComparison.split_quotedIn ht hq hc heven hs.symm with hbehind | hinside
  · obtain ⟨u', rfl, hw', heven'⟩ := hbehind
    obtain ⟨links', hlinks', hreplaced⟩ := IsLinks.replace hw hq hc hc' heven' hw'
    exact ⟨⟨first, links'⟩, ⟨t, _, append_quotedIn, ht, hlinks'⟩, .link hreplaced⟩
  · obtain ⟨b, rfl, hp, hother⟩ := hinside
    exact ⟨⟨first.setValue (String.ofList content'), links⟩,
      ⟨_, w, quotedIn_append, hother content' hc', hw⟩, .first hp⟩

/-- A combinator between white space stands on one side of a quote character. -/
theorem hasSpaced_append_quote {word : List Char} (hword : IsWord word)
    (hq : Scan.isQuote quote = true) :
    HasSpaced word (u ++ quote :: v) ↔ HasSpaced word u ∨ HasSpaced word v := by
  constructor
  · intro h
    obtain ⟨x, a, w, b, y, h, ha, hw, hb⟩ := h
    have hwindow : IsPlain (a :: (w ++ [b])) := by
      have hspace : IsPlain [a] := isPlain_of_isSpace fun c hc => List.mem_singleton.1 hc ▸ ha
      have hspace' : IsPlain [b] := isPlain_of_isSpace fun c hc => List.mem_singleton.1 hc ▸ hb
      exact hspace.append ((isPlain_of_isWord (hw.isWord hword)).append hspace')
    rcases List.append_eq_append_iff.1 h with ⟨z, rfl, hz⟩ | ⟨z, rfl, hz⟩
    · cases z with
      | nil =>
        obtain ⟨rfl, -⟩ := List.cons.inj hz
        rw [hwindow quote List.mem_cons_self] at hq
        cases hq
      | cons c z =>
        obtain ⟨rfl, rfl⟩ := List.cons.inj hz
        exact .inr ⟨z, a, w, b, y, rfl, ha, hw, hb⟩
    · have hz' : a :: (w ++ [b]) ++ y = z ++ quote :: v := by
        rw [← hz]
        simp
      obtain ⟨z', rfl, -⟩ := hwindow.split hq hz'
      exact .inl ⟨x, a, w, b, z', by simp, ha, hw, hb⟩
  · intro h
    rcases h with h | h
    · simpa using h.append [] (quote :: v)
    · simpa using h.append (u ++ [quote]) []

theorem hasSpaced_quotedIn {word : List Char} (hword : IsWord word)
    (hq : Scan.isQuote quote = true) :
    HasSpaced word (quotedIn u quote content v) ↔
      HasSpaced word u ∨ HasSpaced word content ∨ HasSpaced word v := by
  rw [quotedIn, hasSpaced_append_quote hword hq, hasSpaced_append_quote hword hq]

end Filter

/-! ## Other contents in a query -/

namespace FilterQuery

open Criteria.Filter Criteria.Filter.Grammar

/-- A query with a quoted value, which stands behind `before` and in front of `after`. -/
def quoting (before : String) (quote : Char) (value after : String) : String :=
  before ++ quote.toString ++ value ++ quote.toString ++ after

variable {before after value value' : String} {quote : Char}

theorem toList_quoting :
    (quoting before quote value after).toList =
      quotedIn before.toList quote value.toList after.toList := by
  simp [quoting, quotedIn]

/-- Whether the look-ahead has no say in a query, or finds what it looks for when `value'`
stands between `before` and `after`. -/
def Withstands (filter : Filter) (before value' after : String) : Prop :=
  (∃ p, filter = .test p) ∨
    ∃ c : Combinator, HasSpaced c.word before.toList ∨ HasSpaced c.word value'.toList ∨
      HasSpaced c.word after.toList

/-- Of a query that is read, a quoted value gives way to another that is not blank.  Then
one leaf of the filter has that value, and all else is read as before, if the query has one
predicate or a combinator between white space still stands in it.  Else it is malformed. -/
theorem parse_quoting (config : Config) (hunlimited : config.maxLength = none) (quote : Char)
    (hquote : Scan.isQuote quote = true) (before after value value' : String)
    (heven : quoteCount before.toList % 2 = 0) (hvalue : IsPlain value.toList)
    (hvalue' : IsPlain value'.toList) (hblank' : Text.isBlank value' = false) (q : FilterQuery)
    (h : parse config (quoting before quote value after) = .ok q) :
    (Withstands q.filter before value' after →
      ∃ q', parse config (quoting before quote value' after) = .ok q' ∧
        ReplacesValue value value' q.filter q'.filter) ∧
    (¬ Withstands q.filter before value' after →
      IsMalformed (parse config (quoting before quote value' after))) := by
  have hlength := config.allows_of_unlimited hunlimited
  obtain ⟨chain, hquery, hvalues, rfl⟩ := (parse_eq_ok_iff (hlength _)).1 h
  have hchain := hquery.1
  rw [toList_quoting] at hchain
  obtain ⟨chain', hchain', hreplaced⟩ := IsChain.replace hchain hquote hvalue hvalue' heven
  rw [String.ofList_toList, String.ofList_toList] at hreplaced
  have hwithstands : Withstands ((chain.map test).assemble config.chainShape) before value' after ↔
      chain'.links = [] ∨
        ∃ c : Combinator, HasSpaced c.word (quoting before quote value' after).toList := by
    rw [Withstands, assemble_test_eq_test_iff, hreplaced.links_eq_nil_iff, toList_quoting]
    simp only [hasSpaced_quotedIn (isWord_combinator _) hquote]
  rw [← toList_quoting] at hchain'
  constructor
  · intro hw
    refine ⟨_, (parse_eq_ok_iff (hlength _)).2 ⟨chain', ⟨hchain', hwithstands.1 hw⟩,
      hreplaced.not_blank hblank' hvalues, rfl⟩, hreplaced.assemble config.chainShape⟩
  · intro hw
    by_cases hmalformed : IsMalformed (parse config (quoting before quote value' after))
    · exact hmalformed
    · obtain ⟨chain'', hchain'', hlinks⟩ :=
        (not_isMalformed_parse_iff (hlength _)).1 hmalformed
      rw [IsChain.unique hchain'' hchain'] at hlinks
      exact absurd (hwithstands.2 hlinks) hw

/-- A combinator between white space in one value lets a chain be read that is malformed
with another value there. -/
theorem quoted_content_decides :
    quoteCount "a eq ".toList % 2 = 0 ∧
    (IsPlain "x or y".toList ∧ Text.isBlank "x or y" = false) ∧
    (IsPlain "x".toList ∧ Text.isBlank "x" = false) ∧
    parse {} (quoting "a eq " '\x27' "x or y" "or b eq 1") =
      .ok ⟨.dollarFilter, "a eq 'x or y'or b eq 1",
        .join (.test ⟨"a", .equals, "x or y"⟩) (.test ⟨"b", .equals, "1"⟩) .or⟩ ∧
    parse {} (quoting "a eq " '\x27' "x" "or b eq 1") = .error (.malformed 8 .endOfQuery) := by
  refine ⟨by decide, ⟨by decide, by decide⟩, ⟨by decide, by decide⟩, ?_, ?_⟩
  · with_unfolding_all rfl
  · with_unfolding_all rfl

/-- Between the contents of two other values, and behind the quote characters of the first,
a combinator is a value like any other. -/
theorem parse_quoting_combinator :
    ∃ q, parse {} (quoting "a eq \x22z\x22or b eq " '\x27' "x or y" "and c eq 'n or m'") = .ok q ∧
      ∃ q', parse {} (quoting "a eq \x22z\x22or b eq " '\x27' "and" "and c eq 'n or m'") = .ok q' ∧
        ReplacesValue "x or y" "and" q.filter q'.filter := by
  have hparse :
      parse {} (quoting "a eq \x22z\x22or b eq " '\x27' "x or y" "and c eq 'n or m'") =
        .ok ⟨.dollarFilter, "a eq \x22z\x22or b eq 'x or y'and c eq 'n or m'",
          .join (.test ⟨"a", .equals, "z"⟩) (.join (.test ⟨"b", .equals, "x or y"⟩)
            (.test ⟨"c", .equals, "n or m"⟩) .and) .or⟩ := by
    with_unfolding_all rfl
  have hspaced : HasSpaced Combinator.or.word "and c eq 'n or m'".toList :=
    ⟨"and c eq 'n".toList, ' ', ['o', 'r'], ' ', "m'".toList, by decide, by decide, by decide,
      by decide⟩
  exact ⟨_, hparse, (parse_quoting {} rfl '\x27' rfl _ _ _ _ (by decide) (by decide) (by decide)
    (by decide) _ hparse).1 (.inr ⟨.or, .inr (.inr hspaced)⟩)⟩

end FilterQuery
end Criteria
