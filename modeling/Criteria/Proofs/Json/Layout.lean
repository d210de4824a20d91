import Criteria.Proofs.Json.Compound
import Criteria.Proofs.Json.WellFormed

/-!
# Objects in any layout

The members of an object may stand in any order, among members that nobody asked for, with white
space between any two tokens and with any spelling of their names.  The draft of a record is then
filled member by member, and the unknown members leave it as it is.
-/

namespace Criteria
namespace Json

open Text

variable {α β δ : Type} {s t rest : List Char}

/-- Whether a text is read as a value, with any white space in front of it and anything behind it
that is no part of a number. -/
def Reader.Reads (reader : Reader α) (s : List Char) (a : α) : Prop :=
  ∀ b rest, IsSpace b → ¬ Begins continuesNumber rest →
    reader.run (b ++ (s ++ rest)) = .ok (a, rest)

theorem Reader.Reads.map {reader : Reader α} {a : α} (h : reader.Reads s a) (f : α → β) :
    (reader.map f).Reads s (f a) := by
  intro b rest hb hrest
  show (reader.run (b ++ (s ++ rest)) >>= _) = _
  rw [h b rest hb hrest]
  rfl

/-! ## Limits -/

theorem reads_null (reader : Reader α) : reader.optional.Reads ['n', 'u', 'l', 'l'] none := by
  intro b rest hb hrest
  show runOptional reader.run _ = _
  rw [runOptional, skipSpace_append hb]
  rfl

/-- White space in front of a number is skipped twice. -/
theorem reads_word (word : UInt64) :
    wordReader.optional.Reads (Nat.toDigits 10 word.toNat) (some word) := by
  intro b rest hb hrest
  have hskip : skipSpace (b ++ writeNat word.toNat rest) = writeNat word.toNat rest := by
    rw [skipSpace_append hb, skipSpace_writeNat]
  show runOptional runWord (b ++ writeNat word.toNat rest) = _
  unfold runOptional
  rw [hskip]
  split
  · rename_i t ht
    have hdigit := writeNat_begins word.toNat rest
    rw [ht] at hdigit
    exact absurd hdigit Bool.false_ne_true
  · rw [runWord_writeNat word hrest]
    rfl

/-! ## Variants without content -/

/-- How a variant without content may be given, by its name or as an object. -/
inductive IsVariant (name : String) : List Char → Prop
  | named {key : List Char} (hkey : IsSpelling name.toList key) :
      IsVariant name ('\x22' :: (key ++ ['\x22']))
  | tagged {a key b c d : List Char} (ha : IsSpace a) (hkey : IsSpelling name.toList key)
      (hb : IsSpace b) (hc : IsSpace c) (hd : IsSpace d) :
      IsVariant name ('\x7b' :: (a ++ '\x22' :: (key ++ '\x22' :: (b ++ ':' ::
        (c ++ 'n' :: 'u' :: 'l' :: 'l' :: (d ++ ['\x7d']))))))

theorem runNull_append {a : List Char} (ha : IsSpace a) (s : List Char) :
    runNull (a ++ 'n' :: 'u' :: 'l' :: 'l' :: s) = .ok ((), s) := by
  rw [runNull, skipSpace_append ha]
  rfl

theorem closeObject_append {a : List Char} (ha : IsSpace a) (s : List Char) :
    closeObject (a ++ '\x7d' :: s) = .ok s := by
  rw [closeObject, skipSpace_append ha]
  rfl

namespace Variant

variable {variants : List (Variant α)} {name : String} {a : α} {depth : Nat}

theorem readName_append {b key : List Char} (hb : IsSpace b)
    (hkey : IsSpelling name.toList key) (s : List Char) :
    readName (b ++ '\x22' :: (key ++ '\x22' :: s)) = .ok (name, s) := by
  rw [readName, skipSpace_append hb]
  exact readText_spelling hkey s

theorem reads_bare (h : pick variants name = .ok ⟨name, .bare a⟩) (hdepth : 0 < depth)
    (hs : IsVariant name s) : (reader variants depth).Reads s a := by
  intro b rest hb hrest
  show run variants depth (b ++ (s ++ rest)) = _
  cases hs with
  | @named key hkey =>
    have htext := readText_spelling hkey rest
    rw [run, skipSpace_append hb, List.cons_append, List.append_assoc]
    show (readText (key ++ '\x22' :: rest) >>= _) = _
    rw [htext]
    show (pick variants name >>= _) = _
    rw [h]
    rfl
  | @tagged a' key b' c d ha hkey hb' hc hd =>
    obtain ⟨depth, rfl⟩ := Nat.exists_eq_add_of_lt hdepth
    rw [run, skipSpace_append hb]
    simp only [List.cons_append, List.append_assoc, List.nil_append]
    show readTagged variants _ = _
    rw [readTagged, readName_append ha hkey]
    show (pick variants name >>= _) = _
    rw [h]
    show (colon _ >>= _) = _
    rw [colon_append hb']
    show ((runNull _ >>= _) >>= _) = _
    rw [runNull_append hc]
    show (closeObject _ >>= _) = _
    rw [closeObject_append hd]
    rfl

end Variant

/-! ## Members -/

section

variable (name : α → String) (Writes : α → List Char → Prop)

/-- The members of an object up to its closing brace, from behind the opening brace or from behind
another member.  Each of them stands for an entry, by which its name is known and how its value may
be written. -/
inductive LaidOut : Bool → List α → List Char → Prop
  | nil {isFirst : Bool} {a : List Char} (ha : IsSpace a) : LaidOut isFirst [] a
  | cons {isFirst : Bool} {x : α} {xs : List α} {a b key c d value s : List Char}
      (ha : IsSpace a) (hb : IsSpace b) (hkey : IsSpelling (name x).toList key) (hc : IsSpace c)
      (hd : IsSpace d) (hvalue : Writes x value) (h : LaidOut false xs s) :
      LaidOut isFirst (x :: xs) (a ++ lead isFirst (b ++ '\x22' :: (key ++ '\x22' ::
        (c ++ ':' :: (d ++ (value ++ s))))))

end

variable {name : α → String} {Writes : α → List Char → Prop} {isFirst : Bool} {xs : List α}

theorem lead_append (isFirst : Bool) (s t : List Char) :
    lead isFirst s ++ t = lead isFirst (s ++ t) := by
  cases isFirst <;> rfl

/-- The name of any entry stands behind the entries in front of it. -/
theorem LaidOut.split {x : α} {ys : List α} (h : LaidOut name Writes isFirst (xs ++ x :: ys) s) :
    ∃ u b key rest, LaidOut name Writes isFirst xs u ∧ IsSpace b ∧
      IsSpelling (name x).toList key ∧
      s = u ++ lead (isFirst && xs.isEmpty) (b ++ '\x22' :: (key ++ '\x22' :: rest)) := by
  induction xs generalizing isFirst s with
  | nil =>
    cases h with
    | cons ha hb hkey _ _ _ _ =>
      rw [List.isEmpty_nil, Bool.and_true]
      exact ⟨_, _, _, _, .nil ha, hb, hkey, rfl⟩
  | cons x' xs ih =>
    cases h with
    | cons ha hb hkey hc hd hvalue h =>
      obtain ⟨u, b', key', rest, hu, hb', hkey', rfl⟩ := ih h
      refine ⟨_, b', key', rest, .cons ha hb hkey hc hd hvalue hu, hb', hkey', ?_⟩
      simp only [List.isEmpty_cons, Bool.and_false, Bool.false_and, List.append_assoc, lead_append,
        List.cons_append]

/-- A value ends in front of another member, and in front of what follows the last one. -/
theorem LaidOut.not_continuesNumber (h : LaidOut name Writes false xs s) (ht : Delimited t) :
    ¬ Begins continuesNumber (s ++ t) := by
  cases h with
  | nil ha => exact IsSpace.not_continuesNumber ha ht.not_continuesNumber
  | cons ha =>
    rw [List.append_assoc]
    exact IsSpace.not_continuesNumber ha Bool.false_ne_true

theorem nextMember_closing {a : List Char} (ha : IsSpace a) (isFirst : Bool) (s : List Char) :
    nextMember isFirst (a ++ '\x7d' :: s) = .ok (.finished s) := by
  rw [nextMember, skipSpace_append ha]
  rfl

theorem nextMember_spaced {a b : List Char} (ha : IsSpace a) (hb : IsSpace b) (isFirst : Bool)
    (s : List Char) :
    nextMember isFirst (a ++ lead isFirst (b ++ '\x22' :: s)) = .ok (.more s) := by
  cases isFirst with
  | true =>
    have hskip : skipSpace (a ++ (b ++ '\x22' :: s)) = '\x22' :: s := by
      rw [skipSpace_append ha, skipSpace_append hb]
      rfl
    show nextMember true (a ++ (b ++ '\x22' :: s)) = _
    rw [nextMember, hskip]
    rfl
  | false =>
    have hcomma : skipSpace (a ++ ',' :: (b ++ '\x22' :: s)) = ',' :: (b ++ '\x22' :: s) := by
      rw [skipSpace_append ha]
      rfl
    have hquote : skipSpace (b ++ '\x22' :: s) = '\x22' :: s := by
      rw [skipSpace_append hb]
      rfl
    show nextMember false (a ++ ',' :: (b ++ '\x22' :: s)) = _
    rw [nextMember, hcomma]
    dsimp only
    rw [if_neg (by decide), if_neg (by decide), if_pos rfl, hquote]
    rfl

/-! ## Records -/

namespace Record

variable {record : Record δ α} {ε : Type} {name : ε → String} {Writes : ε → List Char → Prop}
  {draft draft' : δ} {es : List ε}

/-- Whether entries fill a draft, in whatever way their values are written.  A known entry fills
a field that is not set yet. -/
inductive Takes (record : Record δ α) (name : ε → String) (Writes : ε → List Char → Prop) :
    δ → List ε → δ → Prop
  | nil {draft : δ} : Takes record name Writes draft [] draft
  | known {draft draft' : δ} {e : ε} {es : List ε} {field : Field δ} {set : δ → δ}
      (hfield : record.field? (name e) = some field) (hset : field.isSet draft = false)
      (hvalue : ∀ s, Writes e s → field.reader.Reads s set)
      (h : Takes record name Writes (set draft) es draft') :
      Takes record name Writes draft (e :: es) draft'
  | unknown {draft draft' : δ} {e : ε} {es : List ε} (hfield : record.field? (name e) = none)
      (hvalue : ∀ s, Writes e s → IsValue s) (h : Takes record name Writes draft es draft') :
      Takes record name Writes draft (e :: es) draft'

theorem readMember_known {name : String} {field : Field δ} {set : δ → δ} {c d value : List Char}
    (hfield : record.field? name = some field) (hset : field.isSet draft = false)
    (hvalue : field.reader.Reads value set) (hc : IsSpace c) (hd : IsSpace d)
    (hrest : ¬ Begins continuesNumber rest) :
    record.readMember draft name (c ++ ':' :: (d ++ (value ++ rest))) = .ok (set draft, rest) := by
  rw [readMember_of_field hfield hset (colon_append hc _), hvalue d rest hd hrest]
  rfl

theorem readMember_unknown {name : String} {c d value : List Char}
    (hfield : record.field? name = none) (hvalue : IsValue value) (hc : IsSpace c) (hd : IsSpace d)
    (hrest : ¬ Begins continuesNumber rest) :
    record.readMember draft name (c ++ ':' :: (d ++ (value ++ rest))) = .ok (draft, rest) := by
  rw [readMember, hfield]
  show (colon _ >>= _) = _
  rw [colon_append hc]
  show (skipValue [] _ >>= _) = _
  rw [skipValue_append hvalue hd hrest]
  rfl

/-- Behind the entries that fill a draft, reading goes on with that draft. -/
theorem readMembers_laidOut (h : LaidOut name Writes isFirst es s)
    (htakes : record.Takes name Writes draft es draft') (ht : Delimited t)
    {answer : Except Fault (δ × List Char)}
    (hbehind : ∀ a, IsSpace a →
      record.readMembers (isFirst && es.isEmpty) draft' (a ++ t) = answer) :
    record.readMembers isFirst draft (s ++ t) = answer := by
  induction h generalizing draft with
  | nil ha =>
    cases htakes
    rw [List.isEmpty_nil, Bool.and_true] at hbehind
    exact hbehind _ ha
  | @cons isFirst e es a b key c d value s ha hb hkey hc hd hvalue h ih =>
    have hrest := h.not_continuesNumber ht
    have hmember : ∃ draft₁,
        record.readMember draft (name e) (c ++ ':' :: (d ++ (value ++ (s ++ t)))) =
          .ok (draft₁, s ++ t) ∧ record.Takes name Writes draft₁ es draft' := by
      cases htakes with
      | known hfield hset hreads htakes =>
        exact ⟨_, readMember_known hfield hset (hreads value hvalue) hc hd hrest, htakes⟩
      | unknown hfield hwell htakes =>
        exact ⟨_, readMember_unknown hfield (hwell value hvalue) hc hd hrest, htakes⟩
    obtain ⟨draft₁, hread, htakes⟩ := hmember
    have htext := readText_spelling hkey (c ++ ':' :: (d ++ (value ++ (s ++ t))))
    have hlead : a ++ lead isFirst (b ++ '\x22' :: (key ++ '\x22' ::
        (c ++ ':' :: (d ++ (value ++ s))))) ++ t = a ++ lead isFirst (b ++ '\x22' ::
          (key ++ '\x22' :: (c ++ ':' :: (d ++ (value ++ (s ++ t)))))) := by
      simp only [List.append_assoc, lead_append, List.cons_append]
    rw [hlead, readMembers_of_more (nextMember_spaced ha hb isFirst _) htext, hread]
    rw [List.isEmpty_cons, Bool.and_false] at hbehind
    exact ih htakes hbehind

/-- All entries up to the closing brace. -/
theorem readMembers_object (h : LaidOut name Writes true es s)
    (htakes : record.Takes name Writes draft es draft') (rest : List Char) :
    record.readMembers true draft (s ++ '\x7d' :: rest) = .ok (draft', rest) :=
  readMembers_laidOut h htakes (delimited_cons (by decide)) fun _ ha =>
    readMembers_of_finished (nextMember_closing ha _ rest)

theorem name_of_field? {known : String} {field : Field δ}
    (h : record.field? known = some field) : field.name = known := by
  have hname := List.find?_some h
  exact beq_iff_eq.1 hname

/-- A field that is set is not read again, whatever stands behind its name. -/
theorem readMembers_repeated {known : String} {field : Field δ} {b key : List Char}
    (h : LaidOut name Writes true es s) (htakes : record.Takes name Writes draft es draft')
    (hne : es ≠ []) (hfield : record.field? known = some field)
    (hset : field.isSet draft' = true) (hb : IsSpace b) (hkey : IsSpelling known.toList key)
    (rest : List Char) :
    record.readMembers true draft (s ++ ',' :: (b ++ '\x22' :: (key ++ '\x22' :: rest))) =
      .error (.unfit (.duplicateField known)) := by
  refine readMembers_laidOut h htakes (delimited_cons (by decide)) fun a ha => ?_
  have hnext := nextMember_spaced ha hb false (key ++ '\x22' :: rest)
  have hmember : record.readMember draft' known rest =
      .error (.unfit (.duplicateField known)) := by
    rw [readMember, hfield, ← name_of_field? hfield]
    exact if_pos hset
  rw [List.isEmpty_eq_false_iff.2 hne, Bool.and_false]
  refine (readMembers_of_more hnext (readText_spelling hkey rest)).trans ?_
  rw [hmember]
  rfl

theorem run_object {depth : Nat} {a : List Char} (ha : IsSpace a) (hdepth : 0 < depth)
    (s : List Char) : record.run depth (a ++ '\x7b' :: s) = record.readOpened .object s := by
  obtain ⟨depth, rfl⟩ := Nat.exists_eq_add_of_lt hdepth
  rw [run, skipSpace_append ha]
  rfl

end Record

end Json
end Criteria
