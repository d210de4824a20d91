import Criteria.Proofs.Refusal
import Criteria.Proofs.Sort.Reading

/-!
# The language of sort queries

The parser reads the queries that the grammar describes and no others.  Where a query is
malformed, what stands in front of that place is a query that is read, or white space.
-/

namespace Criteria
namespace SortKey

open Text Grammar

variable {config : Config} {query : String}

theorem parse_eq (hlength : config.Allows query) :
    parse config query = (readAll query.toList).mapError (QueryError.ofMismatch query.toList) := by
  rw [parse, hlength.checkLength]
  rfl

theorem parse_eq_ok_iff (hlength : config.Allows query) {keys : List SortKey} :
    parse config query = .ok keys ↔ IsList query.toList keys := by
  rw [parse_eq hlength, ← readAll_eq_ok_iff]
  cases readAll query.toList with
  | error m => exact ⟨nofun, nofun⟩
  | ok read =>
    show Except.ok read = _ ↔ _
    rw [Except.ok.injEq, Except.ok.injEq]

theorem parse_malformed_iff (hlength : config.Allows query) {offset : Nat}
    {expected : Expectation} :
    parse config query = .error (.malformed offset expected) ↔
      ∃ m, readAll query.toList = .error m ∧
        Text.offset query.toList m.rest = offset ∧ m.expected = expected := by
  rw [parse_eq hlength]
  cases readAll query.toList with
  | ok keys => exact ⟨nofun, nofun⟩
  | error m =>
    show Except.error (QueryError.malformed (Text.offset _ m.rest) m.expected) = _ ↔ _
    simp

theorem isMalformed_parse (hlength : config.Allows query)
    (h : ¬ ∃ keys, IsList query.toList keys) : IsMalformed (parse config query) := by
  cases hread : readAll query.toList with
  | ok keys => exact absurd ⟨keys, readAll_eq_ok_iff.1 hread⟩ h
  | error m =>
    exact ⟨_, _, (parse_malformed_iff hlength).2 ⟨m, hread, rfl, rfl⟩⟩

/-- A query within the limit is read as the keys of the list that it writes, of which there is
one at most, and is malformed if it writes none.  A longer query is refused for its length,
whatever stands in it. -/
theorem parse_meets_list_grammar (config : Config) (query : String) :
    (config.Allows query →
      (∀ keys, parse config query = .ok keys ↔ IsList query.toList keys) ∧
      (∀ keys keys', IsList query.toList keys → IsList query.toList keys' → keys = keys') ∧
      ((¬ ∃ keys, IsList query.toList keys) → IsMalformed (parse config query))) ∧
    (∀ limit, config.maxLength = some limit → limit.toNat < query.utf8ByteSize →
      parse config query = .error (.tooLong query.utf8ByteSize limit)) := by
  constructor
  · intro hlength
    exact ⟨fun _ => parse_eq_ok_iff hlength, fun _ _ => isList_unique,
      isMalformed_parse hlength⟩
  · intro limit hlimit hlt
    rw [parse, Config.checkLength_of_exceeded hlimit hlt]
    rfl

/-- Words of directions are names too, and a direction is written in any case. -/
theorem parse_meets_list_grammar_words :
    Config.Allows { maxLength := some 30 } " asc\tDesc ,desc,ASC asc , " ∧
      IsList " asc\tDesc ,desc,ASC asc , ".toList
        [⟨"asc", .descending⟩, ⟨"desc", .ascending⟩, ⟨"ASC", .ascending⟩] ∧
      parse { maxLength := some 3 } "name" = .error (.tooLong 4 3) := by
  have hlength : Config.Allows { maxLength := some 30 } " asc\tDesc ,desc,ASC asc , " := by
    rintro limit ⟨⟩
    decide
  refine ⟨hlength, ((parse_meets_list_grammar _ _).1 hlength).1 _ |>.1 ?_,
    (parse_meets_list_grammar { maxLength := some 3 } "name").2 3 rfl (by decide)⟩
  with_unfolding_all rfl

/-! ## Where a query is malformed -/

/-- What stands in front of the place where a query is malformed is white space, or is read.
That place is the end of the query if nothing but white space stands in it, and otherwise a
character that is no white space. -/
theorem malformed_offset_accepted (config : Config) (hunlimited : config.maxLength = none)
    (query : String) (offset : Nat) (expected : Expectation)
    (h : parse config query = .error (.malformed offset expected)) :
    offset ≤ query.utf8ByteSize ∧
      (∃ before after : String, query = before ++ after ∧ before.utf8ByteSize = offset ∧
        (IsSpace before.toList ∨ ∃ keys, parse config before = .ok keys) ∧
        (¬ IsSpace query.toList → Begins (!·.isWhitespace) after.toList)) ∧
      (offset = query.utf8ByteSize ↔ IsSpace query.toList) := by
  have hlength := config.allows_of_unlimited hunlimited
  obtain ⟨m, hread, rfl, -⟩ := (parse_malformed_iff (hlength query)).1 h
  obtain ⟨t, hsplit, hspace, ht⟩ := readAll_error hread
  obtain ⟨hwhole, hbefore, hsize⟩ := cut_at_offset hsplit
  have hend := rest_eq_nil_iff hread
  refine ⟨by omega, ⟨_, _, hwhole, hbefore, ?_, fun hs => ?_⟩, ?_⟩
  · rw [String.toList_ofList]
    refine ht.imp id fun ⟨_, keys, hkeys⟩ => ⟨keys, (parse_eq_ok_iff (hlength _)).2 ?_⟩
    rwa [String.toList_ofList]
  · obtain ⟨c, rest, hrest⟩ := List.exists_cons_of_ne_nil (mt hend.1 hs)
    rw [hrest] at hspace ⊢
    rw [String.toList_ofList, begins_cons, Bool.not_eq_true']
    exact Bool.eq_false_iff.2 hspace
  · rw [← hend, ← byteLength_eq_zero_iff]
    omega

/-- The second key cannot be read to its end, and the place is the one where it starts. -/
theorem malformed_offset_accepted_later :
    parse {} "a desc, bé" = .error (.malformed 8 .furtherKey) ∧
      ∃ before after : String, "a desc, bé" = before ++ after ∧ before.utf8ByteSize = 8 ∧
        (IsSpace before.toList ∨ ∃ keys, parse {} before = .ok keys) ∧
        (¬ IsSpace "a desc, bé".toList → Begins (!·.isWhitespace) after.toList) := by
  have hparse : parse {} "a desc, bé" = .error (.malformed 8 .furtherKey) := by
    with_unfolding_all rfl
  exact ⟨hparse, (malformed_offset_accepted {} rfl _ _ _ hparse).2.1⟩

end SortKey
end Criteria
