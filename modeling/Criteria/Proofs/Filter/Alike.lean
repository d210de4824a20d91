import Criteria.Proofs.Filter.Routes
import Criteria.Proofs.Text.Alike

/-!
# Filter queries that are read alike

Every scanner reads in the normal form of a text the normal form of what it reads in the text
itself, and goes on or stops at the same place.  So does the parser, unless the case of
combinators matters to it.
-/

namespace Criteria

open Text

def Predicate.normal (p : Predicate) : Predicate :=
  ⟨normalString p.field, p.operator, normalString p.value⟩

namespace Filter

open Grammar

namespace Scan

/-! ## Fields -/

theorem normalChar_eq_slash_iff {c : Char} : normalChar c = '/' ↔ c = '/' :=
  normalChar_eq_iff rfl rfl rfl

theorem pathTail_normal (s : List Char) :
    pathTail (normal s) = (normal (pathTail s).1, normal (pathTail s).2) := by
  fun_induction pathTail s with
  | case1 => rfl
  | case2 c s hc path rest heq ih =>
    rw [heq] at ih
    show pathTail ('/' :: normalChar c :: normal s) = _
    rw [pathTail_slash (by rwa [isAlpha_normalChar]), ih]
    rfl
  | case3 c s hc =>
    show pathTail ('/' :: normalChar c :: normal s) = _
    rw [pathTail, isAlpha_normalChar, if_neg hc]
    rfl
  | case4 c s _ hc path rest heq ih =>
    rw [heq] at ih
    rw [normal_cons, pathTail_letter (by rwa [isAlpha_normalChar]), ih]
    rfl
  | case5 c s hslash hc =>
    have hslash' : ∀ d t, normalChar c = '/' → normal s = d :: t → False := by
      intro d t hd ht
      obtain ⟨e, u, rfl, -, -⟩ := List.map_eq_cons_iff.1 ht
      exact hslash e u (normalChar_eq_slash_iff.1 hd) rfl
    rw [normal_cons, pathTail.eq_3 _ _ hslash', isAlpha_normalChar, if_neg hc]
    rfl

theorem field_normal (s : List Char) :
    field (normal s) = mapNormal (Prod.map normalString normal) (field s) := by
  rw [field, field, skipSpace_normal]
  cases skipSpace s with
  | nil => rfl
  | cons c t =>
    simp only [normal_cons, isAlpha_normalChar, pathTail_normal, skipSpace_normal]
    split
    · rw [mapNormal, Prod.map, normalString_ofList, normal_cons]
    · rfl

/-! ## Operators -/

theorem operator_normal (s : List Char) :
    operator (normal s) = mapNormal (Prod.map id normal) (operator s) := by
  have hread : leadingOperator? (normal (skipSpace s)) =
      (leadingOperator? (skipSpace s)).map (Prod.map id normal) :=
    findSome?_dropWord?_normal (fun o => (isWord_operator o).2) _ _
  rw [operator, operator, skipSpace_normal, hread]
  cases leadingOperator? (skipSpace s) with
  | none => rfl
  | some x =>
    obtain ⟨o, rest⟩ := x
    simp [mapNormal, skipSpace_normal]

/-! ## Values -/

theorem isQuote_normalChar (c : Char) : isQuote (normalChar c) = isQuote c :=
  apply_normalChar (fun _ => isQuote_eq_false_of_isAlpha)
    (fun _ => isQuote_eq_false_of_isWhitespace) (fun _ => isQuote_eq_false_of_isDigit) c

theorem normalChar_eq_quote_iff {quote c : Char} (h : isQuote quote = true) :
    normalChar c = quote ↔ c = quote :=
  normalChar_eq_iff (disjoint_symm (fun _ => isQuote_eq_false_of_isAlpha) quote h)
    (disjoint_symm (fun _ => isQuote_eq_false_of_isWhitespace) quote h)
    (disjoint_symm (fun _ => isQuote_eq_false_of_isDigit) quote h)

theorem quoted_normal {quote : Char} (h : isQuote quote = true) (s : List Char) :
    quoted quote (normal s) = mapNormal (Prod.map normalString normal) (quoted quote s) := by
  have hclass : ∀ c, (!isQuote (normalChar c)) = !isQuote c := fun c => by
    rw [isQuote_normalChar]
  rw [quoted, quoted, takeWhile_normal hclass, dropWhile_normal hclass]
  cases s.dropWhile (!isQuote ·) with
  | nil => rfl
  | cons c rest =>
    simp only [normal_cons, normalChar_eq_quote_iff h, skipSpace_normal]
    split
    · rw [mapNormal, Prod.map, normalString_ofList]
    · rfl

theorem digits_normal (s : List Char) :
    digits (normal s) = mapNormal (Prod.map normalString normal) (digits s) := by
  rw [digits, digits, takeWhile_normal isDigit_normalChar, dropWhile_normal isDigit_normalChar,
    skipSpace_normal]
  cases s.takeWhile Char.isDigit with
  | nil => rfl
  | cons d ds =>
    rw [mapNormal, Prod.map, normalString_ofList]
    rfl

theorem number_normal (s : List Char) :
    number (normal s) = mapNormal (Prod.map normalString normal) (number s) := by
  rw [number, number, dropWhile_normal isAlpha_normalChar, digits_normal]

theorem value_normal (s : List Char) :
    value (normal s) = mapNormal (Prod.map normalString normal) (value s) := by
  rw [value, value, skipSpace_normal]
  cases skipSpace s with
  | nil => rfl
  | cons c t =>
    simp only [normal_cons, isQuote_normalChar]
    split
    · rename_i hc
      rw [(normalChar_eq_quote_iff hc).2 rfl, quoted_normal hc]
    · exact number_normal (c :: t)

/-! ## Predicates and combinators -/

theorem predicate_normal (s : List Char) :
    predicate (normal s) = mapNormal (Prod.map Predicate.normal normal) (predicate s) := by
  rw [predicate, predicate, field_normal]
  refine mapNormal_bind (fun x => ?_) _
  obtain ⟨f, s⟩ := x
  show (operator (normal s) >>= _) = _
  rw [operator_normal]
  refine mapNormal_bind (fun x => ?_) _
  obtain ⟨o, s⟩ := x
  show (value (normal s) >>= _) = _
  rw [value_normal]
  refine mapNormal_bind (fun x => ?_) _
  rfl

theorem combinator?_normal (s : List Char) :
    combinator? .caseless (normal s) =
      (combinator? .caseless s).map (Prod.map id normal) := by
  have hread : leadingCombinator? .caseless (normal (skipSpace s)) =
      (leadingCombinator? .caseless (skipSpace s)).map (Prod.map id normal) :=
    findSome?_dropWord?_normal (fun c => (isWord_combinator c).2) _ _
  rw [combinator?, combinator?, skipSpace_normal, hread]
  cases leadingCombinator? .caseless (skipSpace s) with
  | none => rfl
  | some x =>
    obtain ⟨c, rest⟩ := x
    simp only [Option.map_some, Prod.map, startsWithLetter_normal, skipSpace_normal]
    split <;> rfl

theorem endOfQuery_normal (s : List Char) :
    endOfQuery (normal s) = mapNormal id (endOfQuery s) := by
  rw [endOfQuery, endOfQuery, skipSpace_normal]
  cases skipSpace s <;> rfl

end Scan

/-! ## Looking ahead -/

theorem startsSpaced_normal {word : List Char} (hword : ∀ k ∈ word, k.isAlpha = true)
    (s : List Char) : startsSpaced word (normal s) = startsSpaced word s := by
  cases s with
  | nil => rfl
  | cons a s =>
    rw [normal_cons, startsSpaced, startsSpaced, isWhitespace_normalChar, dropWord?_normal hword]
    congr 1
    cases dropWord? .caseless word s with
    | none => rfl
    | some rest =>
      cases rest with
      | nil => rfl
      | cons b rest => exact isWhitespace_normalChar b

theorem hasSpaced_normal {word : List Char} (hword : ∀ k ∈ word, k.isAlpha = true)
    (s : List Char) : hasSpaced word (normal s) = hasSpaced word s := by
  induction s with
  | nil => rfl
  | cons a s ih =>
    rw [normal_cons, hasSpaced, hasSpaced, ih, ← normal_cons, startsSpaced_normal hword]

theorem lookahead_normal (query : List Char) : lookahead (normal query) = lookahead query := by
  rw [lookahead, lookahead, hasSpaced_normal (isWord_combinator .or).2,
    hasSpaced_normal (isWord_combinator .and).2]

/-! ## Filters -/

/-- The filter with all fields and values in normal form. -/
def normal : Filter → Filter
  | test p => test p.normal
  | join l r c => join l.normal r.normal c

theorem threaded_normal (first : Filter) (links : List (Combinator × Filter)) :
    threaded first.normal (links.map fun (c, f) => (c, f.normal)) =
      (threaded first links).normal := by
  induction links generalizing first with
  | nil => rfl
  | cons link links ih =>
    rw [List.map_cons, threaded, threaded, ih]
    rfl

theorem leftNested_normal (first : Filter) (links : List (Combinator × Filter)) :
    leftNested first.normal (links.map fun (c, f) => (c, f.normal)) =
      (leftNested first links).normal := by
  induction links generalizing first with
  | nil => rfl
  | cons link links ih => exact ih (join first link.2 link.1)

theorem assemble_normal (shape : ChainShape) (chain : Chain Filter) :
    (chain.map Filter.normal).assemble shape = (chain.assemble shape).normal := by
  cases shape with
  | threaded => exact threaded_normal chain.first chain.links
  | leftNested => exact leftNested_normal chain.first chain.links

theorem map_test_normal (chain : Chain Predicate) :
    (chain.map Predicate.normal).map test = (chain.map test).map Filter.normal := by
  simp [Chain.map, Filter.normal]

end Filter

theorem Predicate.blankPart?_normal (p : Predicate) : p.normal.blankPart? = p.blankPart? := by
  simp only [blankPart?, Predicate.normal, isBlank_normalString]

namespace Filter

theorem blankPart?_normal (f : Filter) : f.normal.blankPart? = f.blankPart? := by
  induction f with
  | test p => exact p.blankPart?_normal
  | join l r c ihl ihr => rw [Filter.normal, blankPart?, blankPart?, ihl, ihr]

theorem check_normal (f : Filter) : f.normal.check = f.check.map Filter.normal := by
  rw [check, check, blankPart?_normal]
  cases f.blankPart? <;> rfl

end Filter

/-! ## Queries -/

namespace FilterQuery

open Criteria.Filter

def linksNormal (ls : List (Combinator × Predicate)) : List (Combinator × Predicate) :=
  ls.map fun (c, p) => (c, p.normal)

theorem links_normal (s : List Char) :
    links .caseless (Text.normal s) =
      mapNormal (Prod.map linksNormal Text.normal) (links .caseless s) := by
  induction s using linkJunctions.induct .caseless with
  | case1 s hc =>
    have hc' := Scan.combinator?_normal s
    rw [hc] at hc'
    rw [links_of_none hc, links_of_none hc']
    rfl
  | case2 s c s₁ hc ih =>
    have hc' := Scan.combinator?_normal s
    rw [hc] at hc'
    rw [links_of_some hc, links_of_some hc', Scan.predicate_normal]
    cases hp : Scan.predicate s₁ with
    | error m => rfl
    | ok x =>
      obtain ⟨p, s₂⟩ := x
      show (links .caseless (Text.normal s₂)).map _ = mapNormal _ ((links .caseless s₂).map _)
      rw [ih p s₂ hp]
      cases links .caseless s₂ <;> rfl

theorem readSingle_normal (query : List Char) :
    readSingle (Text.normal query) = mapNormal Predicate.normal (readSingle query) := by
  rw [readSingle, readSingle, Scan.predicate_normal]
  refine mapNormal_bind (fun x => ?_) _
  obtain ⟨p, s⟩ := x
  show (Scan.endOfQuery (Text.normal s) >>= _) = mapNormal _ (Scan.endOfQuery s >>= _)
  rw [Scan.endOfQuery_normal]
  refine mapNormal_bind (fun _ => ?_) _
  rfl

theorem readChain_normal (query : List Char) :
    readChain .caseless (Text.normal query) =
      mapNormal (Chain.map Predicate.normal) (readChain .caseless query) := by
  rw [readChain, readChain, Scan.predicate_normal]
  refine mapNormal_bind (fun x => ?_) _
  obtain ⟨p, s⟩ := x
  show (links .caseless (Text.normal s) >>= _) = _
  rw [links_normal]
  refine mapNormal_bind (fun x => ?_) _
  obtain ⟨ls, s⟩ := x
  show (Scan.endOfQuery (Text.normal s) >>= _) = mapNormal _ (Scan.endOfQuery s >>= _)
  rw [Scan.endOfQuery_normal]
  refine mapNormal_bind (fun _ => ?_) _
  rfl

theorem readPredicates_normal (query : List Char) :
    readPredicates .caseless (Text.normal query) =
      mapNormal (Chain.map Predicate.normal) (readPredicates .caseless query) := by
  cases hl : lookahead query with
  | none =>
    rw [readPredicates_of_none hl, readPredicates_of_none ((lookahead_normal query).trans hl),
      readSingle_normal]
    cases readSingle query <;> rfl
  | some c =>
    rw [readPredicates_of_some hl, readPredicates_of_some ((lookahead_normal query).trans hl),
      readChain_normal]

/-- The query with its source and its filter in normal form. -/
def normal (q : FilterQuery) : FilterQuery :=
  ⟨q.option, normalString q.source, q.filter.normal⟩

theorem answer_normal (config : Config) (query : String)
    (reading : Except Mismatch (Chain Predicate)) :
    answer config (normalString query) (mapNormal (Chain.map Predicate.normal) reading) =
      (answer config query reading).map FilterQuery.normal := by
  rw [answer, answer, toList_normalString, checkLength_normal, mapError_mapNormal]
  cases config.checkLength query.toList with
  | error e => rfl
  | ok u =>
    cases reading with
    | error m => rfl
    | ok chain =>
      show ((((chain.map Predicate.normal).map test).assemble config.chainShape).check.mapError
        QueryError.blank >>= _) = _
      rw [map_test_normal, assemble_normal, check_normal]
      show _ = Except.map FilterQuery.normal
        ((((chain.map test).assemble config.chainShape).check.mapError QueryError.blank) >>= _)
      cases ((chain.map test).assemble config.chainShape).check <;> rfl

theorem parse_normal {config : Config} (h : config.keywordCase = .caseless) (query : String) :
    parse config (normalString query) = (parse config query).map FilterQuery.normal := by
  rw [parse_eq_answer, parse_eq_answer, toList_normalString, h, readPredicates_normal,
    answer_normal]

end FilterQuery

/-! ## What is read alike -/

/-- Whether two predicates have one operator and alike fields and values. -/
structure Predicate.Alike (p p' : Predicate) : Prop where
  field : Text.Alike p.field.toList p'.field.toList
  operator : p.operator = p'.operator
  value : Text.Alike p.value.toList p'.value.toList

theorem Predicate.alike_of_normal {p p' : Predicate} (h : p.normal = p'.normal) :
    p.Alike p' := by
  obtain ⟨hfield, hoperator, hvalue⟩ := Predicate.mk.inj h
  exact ⟨alike_toList_iff.2 hfield, hoperator, alike_toList_iff.2 hvalue⟩

/-- Whether two filters have one shape, with the same combinators, and alike predicates. -/
inductive Filter.Alike : Filter → Filter → Prop
  | test {p p' : Predicate} (h : p.Alike p') : Alike (.test p) (.test p')
  | join {l l' r r' : Filter} (hleft : Alike l l') (hright : Alike r r') (c : Combinator) :
      Alike (.join l r c) (.join l' r' c)

theorem Filter.alike_of_normal {f f' : Filter} (h : f.normal = f'.normal) : f.Alike f' := by
  induction f generalizing f' with
  | test p =>
    cases f' with
    | test p' => exact .test (Predicate.alike_of_normal (Filter.test.inj h))
    | join l' r' c' => cases h
  | join l r c ihl ihr =>
    cases f' with
    | test p' => cases h
    | join l' r' c' =>
      obtain ⟨hl, hr, rfl⟩ := Filter.join.inj h
      exact .join (ihl hl) (ihr hr) c

/-- Whether two queries were given for one option and have alike sources and filters. -/
structure FilterQuery.Alike (q q' : FilterQuery) : Prop where
  option : q.option = q'.option
  source : Text.Alike q.source.toList q'.source.toList
  filter : q.filter.Alike q'.filter

theorem FilterQuery.alike_of_normal {q q' : FilterQuery} (h : q.normal = q'.normal) :
    q.Alike q' := by
  obtain ⟨hoption, hsource, hfilter⟩ := FilterQuery.mk.inj h
  exact ⟨hoption, alike_toList_iff.2 hsource, Filter.alike_of_normal hfilter⟩

theorem FilterQuery.parse_alike {config : Config} (hcase : config.keywordCase = .caseless)
    {query query' : String} (h : Text.Alike query.toList query'.toList) :
    SameOutcome Alike (parse config query) (parse config query') := by
  refine sameOutcome_of_map (fun _ _ => alike_of_normal) ?_
  rw [← parse_normal hcase, ← parse_normal hcase, alike_toList_iff.1 h]

end Criteria
