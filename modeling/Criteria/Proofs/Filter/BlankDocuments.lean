import Criteria.Proofs.Json.Refusing
import Criteria.Proofs.Shipping

/-!
# Documents of filters with blank parts

A predicate is refused where its record is complete, inside of the records and variants of all
the joins around it.  The first predicate of the document that is blank is the leftmost one of
the filter, so the document is refused with the part that `blankPart?` finds.
-/

namespace Criteria

open Json

/-- What a document is refused with for a blank part. -/
def BlankPart.fault (part : BlankPart) : Fault := .unfit (.refused part.message)

namespace Predicate

theorem finish_of_blank {p : Predicate} {part : BlankPart} (h : p.blankPart? = some part) :
    finish ⟨some p.field, some p.value, some p.operator⟩ = .error part.fault := by
  show (check p).mapError _ = _
  rw [check, h]
  rfl

theorem refuses {p : Predicate} {part : BlankPart} (h : p.blankPart? = some part) {depth : Nat}
    (hdepth : 0 < depth) : Refuses ((record (depth - 1)).reader depth) p.write part.fault :=
  Record.refuses_finish (fills p (depth - 1)) hdepth (finish_of_blank h)

end Predicate

namespace Filter

variable {part : BlankPart} {f : Filter} {depth : Nat}

namespace Join

variable {side : Reader Filter} {left right : Written} {l : Filter} {c : Combinator} {n : Nat}
  {fault : Fault}

theorem refuses_left (hdepth : 0 < depth) (hl : Refuses side left fault) :
    Refuses ((record side (depth - 1)).reader depth) (write left right c) fault := by
  have hfront : (record side (depth - 1)).Fills (depth - 1) {} [] {} 0 := .nil
  exact Record.refuses_member hfront hdepth rfl rfl hl

theorem refuses_right (hn : n < depth) (hl : Carries side (depth - 1) left l n)
    (hr : Refuses side right fault) :
    Refuses ((record side (depth - 1)).reader depth) (write left right c) fault := by
  have hfront : (record side (depth - 1)).Fills (depth - 1) {} [("left_child", left)]
      { left := some l } (max n 0) := .cons rfl rfl hl .nil
  rw [Nat.max_zero] at hfront
  exact Record.refuses_member hfront hn rfl rfl hr

end Join

theorem refuses (h : f.blankPart? = some part) (hdepth : 2 * f.height ≤ depth) :
    Refuses (reader depth) f.write part.fault := by
  induction f generalizing depth with
  | test p =>
    rw [height] at hdepth
    rw [reader_eq]
    have hrecord := Predicate.refuses h (show 0 < depth - 1 by omega)
    exact Variant.refuses_held rfl (by omega) (hrecord.map test)
  | join l r c ihl ihr =>
    rw [height] at hdepth
    obtain ⟨depth, rfl⟩ := Nat.exists_eq_add_of_le' (show 2 ≤ depth by omega)
    rw [reader_eq]
    refine Variant.refuses_held rfl (Nat.succ_pos _) (Refuses.map ?_ Join.toFilter)
    rw [blankPart?] at h
    -- The right side is reached only behind a left side in which nothing is blank.
    cases hl : l.blankPart? with
    | some left =>
      rw [hl] at h
      obtain rfl : left = part := Option.some.inj h
      exact Join.refuses_left (Nat.succ_pos _) (ihl hl (by omega))
    | none =>
      rw [hl, Option.none_or] at h
      exact Join.refuses_right (n := 2 * l.height) (by omega) (carries hl depth)
        (ihr h (by omega))

end Filter

namespace FilterQuery

theorem refuses {q : FilterQuery} {part : BlankPart} (h : q.filter.blankPart? = some part)
    {depth : Nat} (hdepth : 2 * q.filter.height < depth) :
    Refuses ((record (depth - 1)).reader depth) q.write part.fault := by
  have hfront : (record (depth - 1)).Fills (depth - 1) {} [("option", Codec.write q.option),
      ("source_text", writeText q.source)] { option := some q.option, source := some q.source }
      0 := by
    refine .cons (n := 0) (m := 0) rfl rfl (LawfulCodec.carries trivial (depth - 1)) ?_
    refine .cons (n := 0) (m := 0) rfl rfl (carries_text q.source (depth - 1)) ?_
    exact .nil
  exact Record.refuses_member hfront (by omega) rfl rfl (Filter.refuses h (by omega))

end FilterQuery

/-! ## The leftmost blank predicate -/

namespace Predicate

def hasBlank (p : Predicate) : Bool := Text.isBlank p.field || Text.isBlank p.value

theorem hasBlank_eq_false_iff {p : Predicate} : p.hasBlank = false ↔ p.blankPart? = none := by
  rw [hasBlank, Bool.or_eq_false_iff, blankPart?_eq_none_iff]

theorem blankPart?_of_hasBlank {p : Predicate} (h : p.hasBlank = true) :
    p.blankPart? = some (if Text.isBlank p.field then .field else .value) := by
  rw [hasBlank, Bool.or_eq_true] at h
  rw [blankPart?]
  split
  · rfl
  · rw [if_pos (h.resolve_left ‹_›)]

end Predicate

theorem Filter.blankPart?_of_find? {f : Filter} {p : Predicate}
    (h : f.leaves.find? Predicate.hasBlank = some p) :
    f.blankPart? = some (if Text.isBlank p.field then .field else .value) := by
  obtain ⟨hp, front, behind, hleaves, hfront⟩ := List.find?_eq_some_iff_append.1 h
  have hpart := Predicate.blankPart?_of_hasBlank hp
  rw [blankPart?_eq_findSome?, hleaves]
  refine List.findSome?_eq_some_iff.2 ⟨front, p, behind, rfl, hpart, fun q hq => ?_⟩
  exact Predicate.hasBlank_eq_false_iff.1 (by simpa using hfront q hq)

section

variable {α : Type} [Codec α] {a : α} {f : Filter}

/-- Whether the document of a value is read as the value itself or else refused for the leftmost
of the predicates that has a blank part, where the field goes before the value. -/
structure ReportsBlank (a : α) (leaves : List Predicate) : Prop where
  reads : decode (encode a) = .ok a ↔
    ∀ p ∈ leaves, Text.isBlank p.field = false ∧ Text.isBlank p.value = false
  refuses : ∀ p, leaves.find? Predicate.hasBlank = some p →
    ∃ fault, (decode (encode a) : Except Fault α) = .error fault ∧ fault.category = "data" ∧
      fault.message = if Text.isBlank p.field then "Expression field must not be blank"
        else "Expression value must not be blank"
  whole : ∀ b, decode (encode a) = .ok b → b = a

theorem reportsBlank (hread : f.blankPart? = none → decode (encode a) = .ok a)
    (hrefused : ∀ part, f.blankPart? = some part →
      Refuses (Codec.reader maxDepth : Reader α) (Codec.write a) part.fault) :
    ReportsBlank a f.leaves := by
  have hnone : ∀ b : α, decode (encode a) = .ok b → f.blankPart? = none := by
    intro b hb
    cases hpart : f.blankPart? with
    | none => rfl
    | some part =>
      rw [decode_encode_of_refuses (hrefused part hpart)] at hb
      cases hb
  constructor
  · rw [← forall₂_congr fun p _ => Predicate.blankPart?_eq_none_iff,
      ← Filter.blankPart?_eq_none_iff]
    exact ⟨hnone a, hread⟩
  · intro p hp
    have hpart := Filter.blankPart?_of_find? hp
    refine ⟨_, decode_encode_of_refuses (hrefused _ hpart), rfl, ?_⟩
    split <;> rfl
  · intro b hb
    rw [hread (hnone b hb)] at hb
    exact (Except.ok.inj hb).symm

end

/-- The document of a filter that is not too deep is read as the filter itself, or else refused
for its leftmost blank predicate.  So is the document of a query with such a filter. -/
theorem documents_report_leftmost_blank :
    (∀ f : Filter, f.height ≤ 63 → ReportsBlank f f.leaves) ∧
    (∀ q : FilterQuery, q.filter.height ≤ 63 → ReportsBlank q q.filter.leaves) := by
  constructor
  · intro f hf
    refine reportsBlank (fun hnone => ?_) fun part hpart => ?_
    · exact (readsBack hnone).1.2 ((Filter.nesting_encode_le_iff hnone).2 hf)
    · exact Filter.refuses hpart (by rw [maxDepth]; omega)
  · intro q hq
    refine reportsBlank (fun hnone => ?_) fun part hpart => ?_
    · exact (readsBack hnone).1.2 ((FilterQuery.nesting_encode_le_iff hnone).2 hq)
    · exact FilterQuery.refuses hpart (by rw [maxDepth]; omega)

/-- A blank value stands in front of a predicate that is blank throughout, and in the query that
one stands first. -/
theorem documents_report_leftmost_blank_twice :
    ∃ (f : Filter) (q : FilterQuery),
      f.leaves = [⟨"a", .equals, "1"⟩, ⟨"b", .equals, "\t"⟩, ⟨" ", .contains, ""⟩] ∧
      q.filter.leaves = [⟨" ", .contains, ""⟩, ⟨"b", .equals, "\t"⟩] ∧
      (∃ fault, (decode (encode f) : Except Fault Filter) = .error fault ∧
        fault.category = "data" ∧ fault.message = "Expression value must not be blank") ∧
      ∃ fault, (decode (encode q) : Except Fault FilterQuery) = .error fault ∧
        fault.category = "data" ∧ fault.message = "Expression field must not be blank" := by
  have hleaves : (Filter.join (.join (.test ⟨"a", .equals, "1"⟩) (.test ⟨"b", .equals, "\t"⟩) .or)
      (.test ⟨" ", .contains, ""⟩) .and).leaves =
      [⟨"a", .equals, "1"⟩, ⟨"b", .equals, "\t"⟩, ⟨" ", .contains, ""⟩] := by
    simp
  have hquery : (Filter.join (.test ⟨" ", .contains, ""⟩) (.test ⟨"b", .equals, "\t"⟩) .or).leaves =
      [⟨" ", .contains, ""⟩, ⟨"b", .equals, "\t"⟩] := by
    simp
  refine ⟨_, ⟨.dollarFilter, "c eq 1", _⟩, hleaves, hquery, ?_, ?_⟩
  · refine (documents_report_leftmost_blank.1 _ (by decide)).refuses ⟨"b", .equals, "\t"⟩ ?_
    rw [hleaves]
    decide
  · refine (documents_report_leftmost_blank.2 _ (by decide)).refuses ⟨" ", .contains, ""⟩ ?_
    rw [hquery]
    decide

end Criteria
