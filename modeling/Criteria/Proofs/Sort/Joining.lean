import Criteria.Proofs.Sort.Language

/-!
# Sort queries joined by a comma

Two sort queries with a comma between them make one query, which lists the keys of both.  If the
second is malformed so is the whole, but of a later key less is said than of a first one.
-/

namespace Criteria
namespace SortKey

open Text Grammar

theorem offset_behind_comma (first : String) {s t rest : List Char} (h : s = t ++ rest) :
    Text.offset (first.toList ++ ',' :: s) rest = first.utf8ByteSize + 1 + byteLength t := by
  have hsplit : first.toList ++ ',' :: s = (first.toList ++ ',' :: t) ++ rest := by
    rw [h, List.append_assoc, List.cons_append]
  have hcomma : (','.utf8Size : Nat) = 1 := rfl
  rw [hsplit, offset_append, byteLength_append, byteLength_toList, byteLength, hcomma,
    Nat.add_assoc]

/-- Behind a query that is read and a comma, a further query adds its keys.  If it is malformed
the whole is malformed as one with a further key that cannot be read.  The place is the same
only if the further query is malformed in a later key of its own, and otherwise the one where
its first key would start. -/
theorem parse_behind_comma (config : Config) (hunlimited : config.maxLength = none)
    (first second : String) (keys : List SortKey) (hfirst : parse config first = .ok keys)
    (hcomma : ¬ EndsInComma first.toList) (hsecond : ¬ IsSpace second.toList) :
    (∀ keys', parse config second = .ok keys' →
      parse config (first ++ "," ++ second) = .ok (keys ++ keys')) ∧
    (∀ offset expected, parse config second = .error (.malformed offset expected) →
      parse config (first ++ "," ++ second) = .error (.malformed
        (first.utf8ByteSize + 1 +
          if expected = .furtherKey then offset
          else byteLength (second.toList.takeWhile Char.isWhitespace)) .furtherKey)) := by
  have hlength := config.allows_of_unlimited hunlimited
  have hlist := (parse_eq_ok_iff (hlength first)).1 hfirst
  have htext : (first ++ "," ++ second).toList = first.toList ++ ',' :: second.toList := by
    simp
  have hread := readAll_behind_comma hlist hcomma hsecond
  rw [parse_eq (hlength (first ++ "," ++ second)), htext, hread]
  constructor
  · intro keys' h
    have hkeys := readAll_eq_ok_iff.2 ((parse_eq_ok_iff (hlength second)).1 h)
    rw [hkeys]
    rfl
  · intro offset expected h
    obtain ⟨m, hm, rfl, rfl⟩ := (parse_malformed_iff (hlength second)).1 h
    rw [hm]
    obtain ⟨t, hsplit, -⟩ := readAll_error hm
    have hspace : second.toList =
        second.toList.takeWhile Char.isWhitespace ++ skipSpace second.toList :=
      List.takeWhile_append_dropWhile.symm
    show Except.error (QueryError.malformed (Text.offset _ (behindComma _ m).rest) .furtherKey) = _
    by_cases hexpected : m.expected = .furtherKey
    · have hoffset : Text.offset second.toList m.rest = byteLength t := by
        rw [hsplit, offset_append]
      rw [behindComma, if_pos hexpected, if_pos hexpected, hoffset,
        offset_behind_comma first hsplit]
    · rw [behindComma, if_neg hexpected, if_neg hexpected, offset_behind_comma first hspace]

/-- In the further query it is a later key that cannot be read to its end, and the place moves on
by the query in front of it and the comma. -/
theorem parse_behind_comma_later :
    parse {} "a,b desc" = .ok [⟨"a", .ascending⟩, ⟨"b", .descending⟩] ∧
      parse {} "c , d e" = .error (.malformed 4 .furtherKey) ∧
      parse {} ("a,b desc" ++ "," ++ "c , d e") = .error (.malformed 13 .furtherKey) := by
  have hfirst : parse {} "a,b desc" = .ok [⟨"a", .ascending⟩, ⟨"b", .descending⟩] := by
    with_unfolding_all rfl
  have hsecond : parse {} "c , d e" = .error (.malformed 4 .furtherKey) := by
    with_unfolding_all rfl
  exact ⟨hfirst, hsecond, (parse_behind_comma {} rfl "a,b desc" "c , d e" _ hfirst (by decide)
    (by decide)).2 4 .furtherKey hsecond⟩

/-- On its own the query asks for a comma behind a name.  Behind another query the place is the
one in front of the name, and nothing is asked for. -/
theorem later_key_unasked :
    parse {} "a" = .ok [⟨"a", .ascending⟩] ∧ ¬ EndsInComma "a".toList ∧
      ¬ IsSpace "b c".toList ∧ parse {} "b c" = .error (.malformed 2 .commaOrEnd) ∧
      parse {} ("a" ++ "," ++ "b c") ≠ .error (.malformed (1 + 1 + 2) .commaOrEnd) := by
  have hparse : parse {} ("a" ++ "," ++ "b c") = .error (.malformed 2 .furtherKey) := by
    with_unfolding_all rfl
  refine ⟨by with_unfolding_all rfl, by decide, by decide, by with_unfolding_all rfl, ?_⟩
  rw [hparse]
  exact nofun

end SortKey
end Criteria
