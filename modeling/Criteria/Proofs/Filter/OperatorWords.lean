import Mathlib.Data.List.Forall2
import Criteria.Proofs.Filter.Routes

/-!
# The words that operators are read from

The letters that stand where a comparison has its operator spell it, but they may go on: what
follows is then taken for the name of a type in front of a number, and dropped.
-/

namespace Criteria
namespace FilterQuery

open Criteria.Filter Criteria.Filter.Grammar Criteria.Text

variable {keywordCase : KeywordCase} {query s s₁ tail : List Char} {p : Predicate}

/-! ## Where operators stand -/

/-- The text behind a field and the white space after it, which begins with the operator. -/
def behindField? (s : List Char) : Option (List Char) :=
  match Scan.field s with
  | .error _ => none
  | .ok (_, rest) => some rest

/-- The texts that begin with the operators of a query.  A comparison stands at its start and
behind every junction. -/
def operatorTails (keywordCase : KeywordCase) (query : List Char) : List (List Char) :=
  (query :: (junctions keywordCase query).map Junction.rest).filterMap behindField?

/-- Whether the text `tail` stands in `s` behind the field of a predicate. -/
def StandsBehindField (p : Predicate) (s tail : List Char) : Prop :=
  ∃ path b, (path ++ b ++ tail) <:+ s ∧ IsPath path p.field.toList ∧ IsSpace b ∧ b ≠ []

/-- Whether the letters at the start of a text are those of the operator of a predicate, or go
on with others up to the digits of its value. -/
def BeginsOperator (p : Predicate) (tail : List Char) : Prop :=
  ∃ word letters, tail.takeWhile Char.isAlpha = word ++ letters ∧
    Spells .caseless p.operator.word word ∧
    (letters = [] ∨ p.value ≠ "" ∧
      p.value.toList = (tail.dropWhile Char.isAlpha).takeWhile Char.isDigit)

theorem StandsBehindField.of_suffix (h : StandsBehindField p s tail) (hs : s <:+ query) :
    StandsBehindField p query tail := by
  obtain ⟨path, b, htail, hp, hb, hne⟩ := h
  exact ⟨path, b, htail.trans hs, hp, hb, hne⟩

theorem behindField?_skipSpace (s : List Char) : behindField? (skipSpace s) = behindField? s := by
  rw [behindField?, behindField?, Scan.field_skipSpace]

/-! ## One comparison -/

/-- A value that begins with a letter is a number, whose digits stand behind the letters. -/
theorem value_of_letter {rest : List Char} {v : String} (hs : Begins Char.isAlpha s)
    (h : Scan.value s = .ok (v, rest)) :
    v ≠ "" ∧ v.toList = (s.dropWhile Char.isAlpha).takeWhile Char.isDigit := by
  have hspace : ¬ Begins Char.isWhitespace s :=
    hs.not_begins fun _ => isWhitespace_eq_false_of_isAlpha
  cases s with
  | nil => exact absurd hs (not_begins_nil _)
  | cons c t =>
    have hquote : Scan.isQuote c = false := Scan.isQuote_eq_false_of_isAlpha hs
    rw [Scan.value, skipSpace_eq_self hspace] at h
    simp only [hquote, Bool.false_eq_true, if_false, Scan.number, Scan.digits] at h
    split at h
    · cases h
    · rename_i hne
      cases h
      rw [String.toList_ofList]
      exact ⟨fun hv => hne (String.ofList_eq_empty_iff.1 hv), rfl⟩

/-- The letters at an operator are its own, and those at the start of what follows. -/
theorem takeWhile_operator {o : Operator} {word : List Char} (hw : Spells .caseless o.word word)
    (r : List Char) :
    (word ++ r).takeWhile Char.isAlpha = word ++ r.takeWhile Char.isAlpha ∧
      (word ++ r).dropWhile Char.isAlpha = r.dropWhile Char.isAlpha := by
  have hword := (hw.isWord (isWord_operator o)).2
  exact ⟨List.takeWhile_append_of_pos hword, List.dropWhile_append_of_pos hword⟩

theorem beginsOperator_of_word {rest word r : List Char}
    (hw : Spells .caseless p.operator.word word)
    (hv : Scan.value (skipSpace r) = .ok (p.value, rest)) : BeginsOperator p (word ++ r) := by
  obtain ⟨htake, hdrop⟩ := takeWhile_operator hw r
  refine ⟨word, r.takeWhile Char.isAlpha, htake, hw, ?_⟩
  -- A letter directly behind the word can only belong to a number.
  by_cases hr : Begins Char.isAlpha r
  · have hspace : ¬ Begins Char.isWhitespace r :=
      hr.not_begins fun _ => isWhitespace_eq_false_of_isAlpha
    rw [skipSpace_eq_self hspace] at hv
    rw [hdrop]
    exact .inr (value_of_letter hr hv)
  · exact .inl (takeWhile_eq_nil hr)

theorem exists_behindField {rest : List Char} (h : Scan.predicate s = .ok (p, rest)) :
    ∃ tail, behindField? s = some tail ∧ StandsBehindField p s tail ∧ BeginsOperator p tail := by
  obtain ⟨s₁, s₂, hf, ho, hv⟩ := Scan.predicate_eq_ok_iff.1 h
  obtain ⟨a, path, name, r, rfl, ha, hp, hext, hname, rfl⟩ := Scan.field_eq_ok_iff.1 hf
  obtain ⟨a', word, r', htail, ha', hw, rfl⟩ := Scan.operator_eq_ok_iff.1 ho
  obtain ⟨b, hb, hr⟩ := exists_skipSpace r
  have hnil : a' = [] := by
    cases a' with
    | nil => rfl
    | cons c a' =>
      have hspace := not_begins_skipSpace r
      rw [htail] at hspace
      exact absurd (ha' c List.mem_cons_self) hspace
  rw [hnil, List.nil_append] at htail
  refine ⟨skipSpace r, by rw [behindField?, hf], ⟨path, b, ?_, ?_, hb, ?_⟩, ?_⟩
  · rw [List.append_assoc a, List.append_assoc path, ← hr]
    exact List.suffix_append a _
  · rw [hname, String.toList_ofList]
    exact hp
  · rw [htail] at hr
    have hgap := Scan.gap_ne_nil (b := []) hw hr hext
    rwa [List.append_nil] at hgap
  · rw [htail]
    exact beginsOperator_of_word hw hv

/-! ## Chains -/

/-- Whether texts begin with the operators of predicates, which stand in `s` behind the fields. -/
def TailsOf (s : List Char) (ps : List Predicate) (tails : List (List Char)) : Prop :=
  List.Forall₂ (fun p tail => StandsBehindField p s tail ∧ BeginsOperator p tail) ps tails

theorem TailsOf.of_suffix {ps : List Predicate} {tails : List (List Char)}
    (h : TailsOf s ps tails) (hs : s <:+ query) : TailsOf query ps tails :=
  h.imp fun _ _ h => ⟨h.1.of_suffix hs, h.2⟩

/-- The operators behind the first comparison. -/
theorem tailsOf_links {ls : List (Combinator × Predicate)} {rest : List Char}
    (h : links keywordCase s = .ok (ls, rest)) :
    TailsOf s (ls.map Prod.snd)
      (((linkJunctions keywordCase s).map Junction.rest).filterMap behindField?) := by
  fun_induction links keywordCase s generalizing ls rest with
  | case1 s hc =>
    cases h
    rw [linkJunctions_of_none hc]
    exact .nil
  | case2 => cases h
  | case3 => cases h
  | case4 s c s₁ hc p s₂ hp ls' rest' hl ih =>
    cases h
    obtain ⟨a, word, r, rfl, ha, hw, -, rfl⟩ := Scan.combinator?_eq_some_iff.1 hc
    have hskip := skipSpace_append_word ha (hw.isWord (isWord_combinator c)) r
    have hr : skipSpace r <:+ a ++ word ++ r :=
      (List.dropWhile_suffix _).trans (List.suffix_append _ r)
    obtain ⟨tail, htail, hfirst⟩ := exists_behindField hp
    rw [behindField?_skipSpace] at htail
    rw [linkJunctions_of_some hc, hskip, Junction.leading_append hw, chainJunctions_of_ok hp,
      List.map_cons, List.map_cons, List.filterMap_cons_some htail]
    exact .cons ⟨hfirst.1.of_suffix hr, hfirst.2⟩
      ((ih hl).of_suffix ((suffix_of_predicate hp).trans hr))

theorem tailsOf_chain {chain : Chain Predicate} (h : readChain keywordCase query = .ok chain) :
    TailsOf query chain.operands
      ((query :: (chainJunctions keywordCase query).map Junction.rest).filterMap behindField?) := by
  simp only [readChain, bind_eq_ok_iff, Prod.exists] at h
  obtain ⟨p, s, hp, ls, rest, hl, -, -, h⟩ := h
  cases h
  obtain ⟨tail, htail, hfirst⟩ := exists_behindField hp
  rw [chainJunctions_of_ok hp, List.filterMap_cons_some htail]
  exact .cons hfirst ((tailsOf_links hl).of_suffix (suffix_of_predicate hp))

theorem tailsOf_single (h : readSingle query = .ok p) :
    TailsOf query [p] ([query].filterMap behindField?) := by
  simp only [readSingle, bind_eq_ok_iff, Prod.exists] at h
  obtain ⟨p, s, hp, -, -, h⟩ := h
  cases h
  obtain ⟨tail, htail, hfirst⟩ := exists_behindField hp
  rw [List.filterMap_cons_some htail]
  exact .cons hfirst .nil

theorem tailsOf_operatorTails {chain : Chain Predicate}
    (h : readPredicates keywordCase query = .ok chain) :
    TailsOf query chain.operands (operatorTails keywordCase query) := by
  unfold operatorTails
  cases hlook : lookahead query with
  | none =>
    rw [readPredicates_of_none hlook] at h
    rw [junctions_of_none hlook]
    cases hs : readSingle query with
    | error m =>
      rw [hs] at h
      cases h
    | ok p =>
      rw [hs] at h
      cases h
      exact tailsOf_single hs
  | some c =>
    rw [readPredicates_of_some hlook] at h
    rw [junctions_of_some hlook]
    exact tailsOf_chain h

/-! ## Glued words -/

/-- A comparison whose operator goes on with letters up to a number. -/
def gluedText (path word letters digits : List Char) : List Char :=
  path ++ [' '] ++ word ++ letters ++ digits

theorem isComparison_gluedText {path name word letters digits : List Char} {o : Operator}
    (hp : IsPath path name) (hw : Spells .caseless o.word word)
    (hl : ∀ c ∈ letters, c.isAlpha = true) (hd : ∀ c ∈ digits, c.isDigit = true)
    (hne : digits ≠ []) :
    IsComparison (gluedText path word letters digits)
      ⟨String.ofList name, o, String.ofList digits⟩ := by
  have hgap : IsSpace [' '] := by decide
  have h := IsComparison.mk isSpace_nil hp hgap (List.cons_ne_nil _ _) hw isSpace_nil
    (.number hl hd hne) isSpace_nil
  simpa only [gluedText, List.append_assoc, List.nil_append, List.append_nil] using h

theorem isBlank_digits {digits : List Char} (hd : ∀ c ∈ digits, c.isDigit = true)
    (hne : digits ≠ []) : Text.isBlank (String.ofList digits) = false := by
  obtain ⟨c, digits, rfl⟩ := List.exists_cons_of_ne_nil hne
  rw [isBlank_eq_false_iff, String.toList_ofList]
  refine ⟨c, List.mem_cons_self, Bool.eq_false_iff.2 fun hblank => ?_⟩
  have hdigit := isDigit_iff.1 (hd c List.mem_cons_self)
  simp only [isBlankChar, Bool.or_eq_true, Bool.and_eq_true, decide_eq_true_eq,
    beq_iff_eq] at hblank
  omega

/-- In a query that is read the letters at each operator spell it, and go on only if a number
follows, of which they are no part.  Any letters may so stand between an operator and a number:
they are dropped, and the word is read as the operator that it starts with. -/
theorem operator_words (config : Config) :
    (∀ query q, parse config query = .ok q →
      TailsOf query.toList q.filter.leaves
        (operatorTails config.keywordCase query.toList)) ∧
    (∀ path name word letters digits, ∀ o : Operator, IsPath path name →
      Spells .caseless o.word word → (∀ c ∈ letters, c.isAlpha = true) →
      (∀ c ∈ digits, c.isDigit = true) → digits ≠ [] →
      config.Allows (String.ofList (gluedText path word letters digits)) →
      parse config (String.ofList (gluedText path word letters digits)) =
        .ok ⟨.dollarFilter, String.ofList (gluedText path word letters digits),
          .test ⟨String.ofList name, o, String.ofList digits⟩⟩) := by
  constructor
  · intro query q h
    obtain ⟨chain, hquery, -, rfl⟩ := (parse_eq_ok_iff (allows_of_parse h)).1 h
    rw [leaves_assemble_test]
    exact tailsOf_operatorTails (readPredicates_eq_ok_iff.2 hquery)
  · intro path name word letters digits o hp hw hl hd hne hlength
    refine (parse_eq_ok_iff hlength).2
      ⟨⟨⟨String.ofList name, o, String.ofList digits⟩, []⟩, ⟨?_, .inl rfl⟩, ?_, ?_⟩
    · rw [String.toList_ofList, isChain_single_iff]
      exact isComparison_gluedText hp hw hl hd hne
    · intro p hp
      rw [List.mem_singleton.1 hp]
      exact isBlank_digits hd hne
    · cases config.chainShape <;> rfl

/-- The first operator goes on into a word, and the second ends in front of a quote. -/
theorem operator_words_mixed :
    ∃ q, parse {} "a equals5 and b/c CONTAINS'x'" = .ok q ∧
      q.filter.leaves = [⟨"a", .equals, "5"⟩, ⟨"b.c", .contains, "x"⟩] ∧
      operatorTails .caseless "a equals5 and b/c CONTAINS'x'".toList =
        ["equals5 and b/c CONTAINS'x'".toList, "CONTAINS'x'".toList] ∧
      TailsOf "a equals5 and b/c CONTAINS'x'".toList
        [⟨"a", .equals, "5"⟩, ⟨"b.c", .contains, "x"⟩]
        ["equals5 and b/c CONTAINS'x'".toList, "CONTAINS'x'".toList] := by
  have hparse : parse {} "a equals5 and b/c CONTAINS'x'" =
      .ok ⟨.dollarFilter, "a equals5 and b/c CONTAINS'x'",
        .join (.test ⟨"a", .equals, "5"⟩) (.test ⟨"b.c", .contains, "x"⟩) .and⟩ := by
    with_unfolding_all rfl
  have hleaves : Filter.leaves (.join (.test ⟨"a", .equals, "5"⟩)
      (.test ⟨"b.c", .contains, "x"⟩) .and) =
        [⟨"a", .equals, "5"⟩, ⟨"b.c", .contains, "x"⟩] := by
    simp
  have htails : operatorTails .caseless "a equals5 and b/c CONTAINS'x'".toList =
      ["equals5 and b/c CONTAINS'x'".toList, "CONTAINS'x'".toList] := by
    with_unfolding_all rfl
  have hwords := (operator_words {}).1 _ _ hparse
  rw [hleaves] at hwords
  refine ⟨_, hparse, hleaves, htails, ?_⟩
  rw [← htails]
  exact hwords

/-- A word that is no operator is read as one. -/
theorem longer_word_read :
    parse {} "a equals5" = .ok ⟨.dollarFilter, "a equals5", .test ⟨"a", .equals, "5"⟩⟩ ∧
      operatorTails .caseless "a equals5".toList = ["equals5".toList] ∧
      ¬ ∃ o : Operator, Spells .caseless o.word ("equals5".toList.takeWhile Char.isAlpha) := by
  refine ⟨by with_unfolding_all rfl, by with_unfolding_all rfl, ?_⟩
  rintro ⟨o, ho⟩
  cases o <;> exact absurd ho (by decide)

end FilterQuery
end Criteria
