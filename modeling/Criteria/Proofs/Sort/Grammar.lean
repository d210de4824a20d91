import Criteria.Proofs.Text.Words
import Criteria.Sort.Basic

/-!
# The grammar of sort queries

Each relation pairs a text with what it writes.  A query lists one or more keys, with a comma
between any two, and one more comma may stand behind the last.  White space may stand around
every part, and has to stand between a name and its direction.
-/

namespace Criteria
namespace SortKey
namespace Grammar

open Text

/-- A key and the white space behind it.  Where no direction is written it is ascending. -/
inductive IsKey : List Char → SortKey → Prop
  | bare {name e : List Char} (hn : IsWord name) (he : IsSpace e) :
      IsKey (name ++ e) ⟨String.ofList name, .ascending⟩
  | directed {name b word e : List Char} {d : Direction} (hn : IsWord name) (hb : IsSpace b)
      (hne : b ≠ []) (hd : Spells .caseless d.word word) (he : IsSpace e) :
      IsKey (name ++ b ++ word ++ e) ⟨String.ofList name, d⟩

inductive IsList : List Char → List SortKey → Prop
  | last {a s : List Char} {k : SortKey} (ha : IsSpace a) (hk : IsKey s k) :
      IsList (a ++ s) [k]
  | comma {a s e : List Char} {k : SortKey} (ha : IsSpace a) (hk : IsKey s k)
      (he : IsSpace e) : IsList (a ++ s ++ ',' :: e) [k]
  | cons {a s t : List Char} {k : SortKey} {ks : List SortKey} (ha : IsSpace a)
      (hk : IsKey s k) (h : IsList t ks) : IsList (a ++ s ++ ',' :: t) (k :: ks)

theorem isWord_direction (d : Direction) : IsWord d.word := by
  cases d <;> decide

theorem direction_eq_of_prefix (d d' : Direction) (h : d.word <+: d'.word) : d = d' := by
  cases d <;> cases d' <;> first | rfl | exact absurd h (by decide)

variable {s t e : List Char} {k : SortKey} {ks : List SortKey}

theorem IsList.ne_nil (h : IsList s ks) : ks ≠ [] := by
  cases h <;> exact List.cons_ne_nil _ _

/-! ## Longer texts -/

theorem IsKey.append_space (h : IsKey s k) (he : IsSpace e) : IsKey (s ++ e) k := by
  cases h with
  | bare hn he' =>
    rw [List.append_assoc]
    exact .bare hn (he'.append he)
  | directed hn hb hne hd he' =>
    rw [List.append_assoc _ _ e]
    exact .directed hn hb hne hd (he'.append he)

/-- White space behind a list belongs to its last key, or to the comma behind that. -/
theorem IsList.append_space (h : IsList s ks) (he : IsSpace e) : IsList (s ++ e) ks := by
  induction h with
  | last ha hk =>
    rw [List.append_assoc]
    exact .last ha (hk.append_space he)
  | comma ha hk he' =>
    rw [List.append_assoc, List.cons_append]
    exact .comma ha hk (he'.append he)
  | cons ha hk h ih =>
    rw [List.append_assoc, List.cons_append]
    exact .cons ha hk ih

/-! ## The end of a list -/

/-- Whether the last character that is not white space is a comma. -/
def EndsInComma (s : List Char) : Prop := (skipSpace s.reverse).head? = some ','

instance (s : List Char) : Decidable (EndsInComma s) :=
  inferInstanceAs (Decidable (_ = _))

theorem endsInComma_comma (he : IsSpace e) (s : List Char) : EndsInComma (s ++ ',' :: e) := by
  have hcomma : ¬ Begins Char.isWhitespace (',' :: s.reverse) := by
    rw [begins_cons]
    decide
  have hreverse : (s ++ ',' :: e).reverse = e.reverse ++ ',' :: s.reverse := by
    simp
  have he' : IsSpace e.reverse := fun c hc => he c (List.mem_reverse.1 hc)
  rw [EndsInComma, hreverse, skipSpace_append he', skipSpace_eq_self hcomma, List.head?_cons]

theorem EndsInComma.append (h : EndsInComma t) (s : List Char) : EndsInComma (s ++ t) := by
  obtain ⟨a, ha, hsplit⟩ := exists_skipSpace t.reverse
  obtain ⟨r, hr⟩ := List.head?_eq_some_iff.1 h
  have hcomma : ¬ Begins Char.isWhitespace (',' :: (r ++ s.reverse)) := by
    rw [begins_cons]
    decide
  rw [EndsInComma, List.reverse_append, hsplit, hr, List.append_assoc, skipSpace_append ha,
    List.cons_append, skipSpace_eq_self hcomma, List.head?_cons]

end Grammar
end SortKey
end Criteria
