import Criteria.Proofs.Config.Document
import Criteria.Proofs.Json.Layout

/-!
# Configurations in any layout

A configuration may be given by an object with any of its three members, in any order and among
unknown ones.  It means the same whatever the order is, and however the members are laid out.
While the members are read, a field of the draft is set if and only if its name has been given.
So a name that is given again is refused, and in the end the draft holds what has been given.
-/

namespace Criteria
namespace Config

open Json Text

/-! ## Entries -/

def fieldNames : List String := ["combinator_case", "chain_shape", "max_query_length"]

/-- What a member of the object gives.  An unknown one gives nothing. -/
inductive Entry
  | keywordCase (x : KeywordCase)
  | chainShape (x : ChainShape)
  | maxLength (x : Option UInt64)
  | unknown (name : String) (hname : name ∉ fieldNames)

namespace Entry

@[simp]
def name : Entry → String
  | keywordCase _ => "combinator_case"
  | chainShape _ => "chain_shape"
  | maxLength _ => "max_query_length"
  | unknown name _ => name

@[simp]
def keywordCase? : Entry → Option KeywordCase
  | keywordCase x => some x
  | _ => none

@[simp]
def chainShape? : Entry → Option ChainShape
  | chainShape x => some x
  | _ => none

@[simp]
def maxLength? : Entry → Option (Option UInt64)
  | maxLength x => some x
  | _ => none

/-- What an entry does to the draft. -/
@[simp]
def fill : Entry → Draft → Draft
  | keywordCase x, draft => { draft with keywordCase := some x }
  | chainShape x, draft => { draft with chainShape := some x }
  | maxLength x, draft => { draft with maxLength := some x }
  | unknown _ _, draft => draft

/-- How the value of a member may be written. -/
inductive Writes : Entry → List Char → Prop
  | keywordCase {x : KeywordCase} {s : List Char} (h : IsVariant x.label s) :
      Writes (keywordCase x) s
  | chainShape {x : ChainShape} {s : List Char} (h : IsVariant x.label s) :
      Writes (chainShape x) s
  | unlimited : Writes (maxLength none) ['n', 'u', 'l', 'l']
  | limit (limit : UInt64) : Writes (maxLength (some limit)) (Nat.toDigits 10 limit.toNat)
  | unknown {name : String} {hname : name ∉ fieldNames} {s : List Char} (h : IsValue s) :
      Writes (unknown name hname) s

/-- An unknown name is none of the fields' names. -/
theorem unknown_ne {name known : String} (hname : name ∉ fieldNames)
    (hknown : known ∈ fieldNames) : name ≠ known := by
  rintro rfl
  exact hname hknown

theorem isSome_keywordCase? (e : Entry) : e.keywordCase?.isSome ↔ e.name = "combinator_case" := by
  cases e with
  | unknown _ hname =>
    have hne : _ ≠ "combinator_case" := unknown_ne hname (by decide)
    simp [hne]
  | _ => simp

theorem isSome_chainShape? (e : Entry) : e.chainShape?.isSome ↔ e.name = "chain_shape" := by
  cases e with
  | unknown _ hname =>
    have hne : _ ≠ "chain_shape" := unknown_ne hname (by decide)
    simp [hne]
  | _ => simp

theorem isSome_maxLength? (e : Entry) : e.maxLength?.isSome ↔ e.name = "max_query_length" := by
  cases e with
  | unknown _ hname =>
    have hne : _ ≠ "max_query_length" := unknown_ne hname (by decide)
    simp [hne]
  | _ => simp

end Entry

variable {entries seen es : List Entry} {s : List Char} {depth : Nat}

/-- The names of fields among those of the entries. -/
def knownNames (entries : List Entry) : List String :=
  (entries.map Entry.name).filter (· ∈ fieldNames)

/-- Whether no field is given twice. -/
def NoRepeats (entries : List Entry) : Prop := (knownNames entries).Nodup

instance (entries : List Entry) : Decidable (NoRepeats entries) :=
  inferInstanceAs (Decidable (knownNames entries).Nodup)

/-- The configuration that entries give. -/
def meaning (entries : List Entry) : Config where
  keywordCase := (entries.findSome? Entry.keywordCase?).getD .caseless
  chainShape := (entries.findSome? Entry.chainShape?).getD .threaded
  maxLength := (entries.findSome? Entry.maxLength?).getD none

/-! ## Drafts -/

/-- The draft behind entries. -/
def draftOf (entries : List Entry) : Draft where
  keywordCase := entries.findSome? Entry.keywordCase?
  chainShape := entries.findSome? Entry.chainShape?
  maxLength := entries.findSome? Entry.maxLength?

theorem mem_knownNames {name : String} :
    name ∈ knownNames entries ↔ (∃ e ∈ entries, e.name = name) ∧ name ∈ fieldNames := by
  simp [knownNames]

theorem isSome_findSome? {α : Type} {get : Entry → Option α} {name : String}
    (hname : name ∈ fieldNames) (hget : ∀ e, (get e).isSome ↔ e.name = name) :
    (entries.findSome? get).isSome ↔ name ∈ knownNames entries := by
  simp only [List.isSome_findSome?, List.any_eq_true, hget, mem_knownNames, hname, and_true]

theorem findSome?_eq_none {α : Type} {get : Entry → Option α} {name : String}
    (hname : name ∈ fieldNames) (hget : ∀ e, (get e).isSome ↔ e.name = name)
    (h : name ∉ knownNames entries) : entries.findSome? get = none :=
  Option.not_isSome_iff_eq_none.1 fun hsome => h ((isSome_findSome? hname hget).1 hsome)

/-- The invariant of reading: a field is set if and only if its name has been given. -/
theorem isSet_iff {name : String} {field : Json.Field Draft}
    (hfield : (record depth).field? name = some field) :
    field.isSet (draftOf entries) = true ↔ name ∈ knownNames entries := by
  have hname := Record.name_of_field? hfield
  have hmem : field ∈ (record depth).fields := List.mem_of_find?_eq_some hfield
  have hknown : field.name ∈ fieldNames := List.mem_map_of_mem hmem
  simp only [record, List.mem_cons, List.not_mem_nil, or_false] at hmem
  subst hname
  rcases hmem with rfl | rfl | rfl
  · exact isSome_findSome? hknown Entry.isSome_keywordCase?
  · exact isSome_findSome? hknown Entry.isSome_chainShape?
  · exact isSome_findSome? hknown Entry.isSome_maxLength?

theorem field?_eq_none {name : String} (h : name ∉ fieldNames) :
    (record depth).field? name = none := by
  refine List.find?_eq_none.2 fun field hmem hname => h ?_
  rw [← beq_iff_eq.1 hname]
  exact List.mem_map_of_mem (f := Json.Field.name) hmem

theorem exists_field? {name : String} (h : name ∈ fieldNames) (depth : Nat) :
    ∃ field, (record depth).field? name = some field := by
  have hnamed : name ∈ (record depth).fields.map Json.Field.name := h
  obtain ⟨field, hmem, rfl⟩ := List.mem_map.1 hnamed
  exact Option.isSome_iff_exists.1 (List.find?_isSome.2 ⟨field, hmem, beq_iff_eq.2 rfl⟩)

/-! ## Filling -/

variable {e : Entry}

/-- An entry whose name is new does to the draft what it says. -/
theorem draftOf_append (hnew : e.name ∉ knownNames seen) :
    draftOf (seen ++ [e]) = e.fill (draftOf seen) := by
  cases e with
  | keywordCase x =>
    have hnone := findSome?_eq_none (by decide) Entry.isSome_keywordCase? hnew
    simp [draftOf, hnone]
  | chainShape x =>
    have hnone := findSome?_eq_none (by decide) Entry.isSome_chainShape? hnew
    simp [draftOf, hnone]
  | maxLength x =>
    have hnone := findSome?_eq_none (by decide) Entry.isSome_maxLength? hnew
    simp [draftOf, hnone]
  | unknown name hname =>
    simp [draftOf]

theorem reads_keywordCase (hdepth : 0 < depth) {x : KeywordCase} (h : IsVariant x.label s) :
    (Codec.reader depth : Reader KeywordCase).Reads s x :=
  Variant.reads_bare (by cases x <;> rfl) hdepth h

theorem reads_chainShape (hdepth : 0 < depth) {x : ChainShape} (h : IsVariant x.label s) :
    (Codec.reader depth : Reader ChainShape).Reads s x :=
  Variant.reads_bare (by cases x <;> rfl) hdepth h

/-- However the value of a field is written, it is read as what the entry says. -/
theorem reads_fill (hdepth : 0 < depth) {field : Json.Field Draft}
    (hfield : (record depth).field? e.name = some field) (h : e.Writes s) :
    field.reader.Reads s e.fill := by
  cases h with
  | keywordCase h =>
    cases hfield
    exact (reads_keywordCase hdepth h).map fun x => (Entry.keywordCase x).fill
  | chainShape h =>
    cases hfield
    exact (reads_chainShape hdepth h).map fun x => (Entry.chainShape x).fill
  | unlimited =>
    cases hfield
    exact (reads_null wordReader).map fun x => (Entry.maxLength x).fill
  | limit limit =>
    cases hfield
    exact (reads_word limit).map fun x => (Entry.maxLength x).fill
  | @unknown name hname =>
    rw [Entry.name, field?_eq_none hname] at hfield
    cases hfield

/-- An entry without a field is an unknown one. -/
theorem eq_unknown (he : e.name ∉ fieldNames) : ∃ hname, e = .unknown e.name hname := by
  cases e with
  | unknown name hname => exact ⟨hname, rfl⟩
  | keywordCase x => exact absurd (List.mem_of_elem_eq_true rfl) he
  | chainShape x => exact absurd (List.mem_of_elem_eq_true rfl) he
  | maxLength x => exact absurd (List.mem_of_elem_eq_true rfl) he

theorem NoRepeats.not_mem (h : NoRepeats (seen ++ e :: es)) : e.name ∉ knownNames seen := by
  intro hseen
  have hknown := (mem_knownNames.1 hseen).2
  have hmem : e.name ∈ knownNames (e :: es) :=
    mem_knownNames.2 ⟨⟨e, List.mem_cons_self, rfl⟩, hknown⟩
  rw [NoRepeats, knownNames, List.map_append, List.filter_append] at h
  exact (List.nodup_append.1 h).2.2 _ hseen _ hmem rfl

/-- Entries without repeats fill the draft behind others. -/
theorem takes (hdepth : 0 < depth) (h : NoRepeats (seen ++ es)) :
    (record depth).Takes Entry.name Entry.Writes (draftOf seen) es (draftOf (seen ++ es)) := by
  induction es generalizing seen with
  | nil =>
    rw [List.append_nil]
    exact .nil
  | cons e es ih =>
    have hnew := h.not_mem
    rw [List.append_cons] at h ⊢
    have htakes := ih h
    rw [draftOf_append hnew] at htakes
    by_cases he : e.name ∈ fieldNames
    · obtain ⟨field, hfield⟩ := exists_field? he depth
      have hset : field.isSet (draftOf seen) = false :=
        Bool.eq_false_iff.2 fun hset => hnew ((isSet_iff hfield).1 hset)
      exact .known hfield hset (fun s hs => reads_fill hdepth hfield hs) htakes
    · obtain ⟨hname, heq⟩ := eq_unknown he
      rw [heq] at htakes ⊢
      refine .unknown (field?_eq_none he) (fun s hs => ?_) htakes
      cases hs with
      | unknown h => exact h

/-! ## Documents -/

/-- Whether a text opens an object and goes on with entries, in any layout. -/
inductive Opens (entries : List Entry) : List Char → Prop
  | intro {a s : List Char} (ha : IsSpace a)
      (h : LaidOut Entry.name Entry.Writes true entries s) : Opens entries (a ++ '\x7b' :: s)

/-- Whether a document is an object of entries, in any layout. -/
inductive Presents (entries : List Entry) : String → Prop
  | intro {s b : List Char} (h : Opens entries s) (hb : IsSpace b) :
      Presents entries (String.ofList (s ++ '\x7d' :: b))

/-- Whether a name stands in a document behind entries, with anything following. -/
inductive GoesOn (entries : List Entry) (name : String) : String → Prop
  | intro {s b key : List Char} (h : Opens entries s) (hb : IsSpace b)
      (hkey : IsSpelling name.toList key) (rest : List Char) :
      GoesOn entries name (String.ofList (s ++ ',' :: (b ++ '\x22' :: (key ++ '\x22' :: rest))))

variable {document : String}

/-- Behind the entries in front of it stands the name of any entry but the first. -/
theorem Presents.goesOn (h : Presents (seen ++ e :: es) document) (hne : seen ≠ []) :
    GoesOn seen e.name document := by
  obtain @⟨_, b, @⟨a, s, ha, h⟩, hb⟩ := h
  obtain ⟨u, b', key, rest, hu, hb', hkey, rfl⟩ := h.split
  have hopens := Opens.intro ha hu
  have hgoesOn := GoesOn.intro hopens hb' hkey (rest ++ '\x7d' :: b)
  simpa only [List.isEmpty_eq_false_iff.2 hne, Bool.and_false, lead, Bool.false_eq_true, if_false,
    List.append_assoc, List.cons_append] using hgoesOn

/-- What is decided behind the opening brace. -/
theorem decode_object {a : List Char} (ha : IsSpace a) (s : List Char) :
    (decode (String.ofList (a ++ '\x7b' :: s)) : Except Fault Config) =
      ((record (maxDepth - 1)).readMembers true {} s >>= fun (draft, rest) =>
        if skipSpace rest = [] then .ok (finish draft)
        else .error (.malformed .trailingCharacters)) := by
  have hrun : (Codec.reader maxDepth : Reader Config).run (a ++ '\x7b' :: s) =
      ((record (maxDepth - 1)).readMembers true {} s >>= fun (draft, rest) =>
        .ok (finish draft, rest)) := Record.run_object ha (by decide) s
  rw [decode, String.toList_ofList, hrun]
  cases (record (maxDepth - 1)).readMembers true {} s with
  | error e => rfl
  | ok read =>
    simp only [bind, Except.bind]
    cases skipSpace read.2 <;> rfl

theorem takes_all (h : NoRepeats entries) :
    (record (maxDepth - 1)).Takes Entry.name Entry.Writes {} entries (draftOf entries) :=
  @takes [] entries (maxDepth - 1) (by decide) h

theorem decode_presents (h : Presents entries document) (hrepeats : NoRepeats entries) :
    decode document = .ok (meaning entries) := by
  obtain @⟨_, b, @⟨a, s, ha, h⟩, hb⟩ := h
  have hmembers := Record.readMembers_object h (takes_all hrepeats) b
  rw [List.append_assoc, List.cons_append, decode_object ha, hmembers]
  exact if_pos (skipSpace_eq_nil_iff.2 hb)

theorem decode_goesOn {name : String} (h : GoesOn entries name document)
    (hrepeats : NoRepeats entries) (hname : name ∈ knownNames entries) :
    (decode document : Except Fault Config) = .error (.unfit (.duplicateField name)) := by
  obtain @⟨_, b, key, @⟨a, s, ha, h⟩, hb, hkey, rest⟩ := h
  obtain ⟨field, hfield⟩ := exists_field? (mem_knownNames.1 hname).2 (maxDepth - 1)
  have hne : entries ≠ [] := by
    rintro rfl
    cases hname
  have hmembers := Record.readMembers_repeated h (takes_all hrepeats) hne hfield
    ((isSet_iff hfield).2 hname) hb hkey rest
  rw [List.append_assoc, List.cons_append, decode_object ha, hmembers]
  rfl

/-- An object of entries means what these give, and zero is refused as a limit behind all that.
A field that is given twice is refused, wherever that is and whatever is behind its name.  Every
configuration that any document has is valid and is read again from the document that is written
for it. -/
theorem documents_mean_their_entries :
    (∀ entries document, Presents entries document → NoRepeats entries →
      ofDocument document = if (meaning entries).maxLength = some 0 then .error .zeroLimit
        else .ok (meaning entries)) ∧
    (∀ seen e es document, Presents (seen ++ e :: es) document → NoRepeats seen →
      e.name ∈ knownNames seen →
      ofDocument document = .error (.malformed (.unfit (.duplicateField e.name)))) ∧
    (∀ seen name document, GoesOn seen name document → NoRepeats seen → name ∈ knownNames seen →
      ofDocument document = .error (.malformed (.unfit (.duplicateField name)))) ∧
    ∀ document config, ofDocument document = .ok config →
      config.isValid = true ∧ ofDocument (encode config) = .ok config := by
  refine ⟨?_, ?_, ?_, ?_⟩
  · intro entries document h hrepeats
    exact ofDocument_of_decode (decode_presents h hrepeats)
  · intro seen e es document h hrepeats hname
    have hne : seen ≠ [] := by
      rintro rfl
      cases hname
    exact ofDocument_of_error (decode_goesOn (h.goesOn hne) hrepeats hname)
  · intro seen name document h hrepeats hname
    exact ofDocument_of_error (decode_goesOn h hrepeats hname)
  · intro document config h
    obtain ⟨hread, hvalid⟩ := ofDocument_eq_ok_iff.1 h
    exact ⟨hvalid, ofDocument_eq_ok_iff.2 ⟨decode_encode_of_decode hread, hvalid⟩⟩

/-- Among the members is an unknown one, which holds half a pair and a number past all bounds. -/
theorem documents_mean_their_entries_nested :
    ∃ config : Config,
      ofDocument (" \x7b\"\\u0063hain_shape\":\x7b\"left_nested\":null\x7d, \"extra\" : " ++
        "\x7b\"\\ud800\":[1e999]\x7d,\n\"max_query_length\":18446744073709551615\x7d\t") =
        .ok config ∧
      config = ⟨.caseless, .leftNested, some 18446744073709551615⟩ ∧ config.isValid = true ∧
      ofDocument (encode config) = .ok config ∧
      ofDocument "\x7b\"max_query_length\":0,\"max_query_length\":null\x7d" =
        .error (.malformed (.unfit (.duplicateField "max_query_length"))) ∧
      ofDocument "\x7b\"max_query_length\":0, \"max_query_length\"?" =
        .error (.malformed (.unfit (.duplicateField "max_query_length"))) := by
  have hnumber : IsValue ['1', 'e', '9', '9', '9'] :=
    .scalar (.number (.positive (@IsUnsigned.mk false ['1'] [] [] ['e', '9', '9', '9'] _
      ⟨by decide, fun _ _ => nofun⟩ .none
      (@IsExponent.some 'e' false [] ['9', '9', '9'] (.inl rfl) .none (by decide)))))
  have hlist : IsValue ['[', '1', 'e', '9', '9', '9', ']'] :=
    @IsPiece.filled .list _ (.last .list isSpace_nil hnumber isSpace_nil)
  have hhalf : IsText ['\\', 'u', 'd', '8', '0', '0'] := .cons (.number rfl) .nil
  have hvalue : IsValue "\x7b\"\\ud800\":[1e999]\x7d".toList :=
    @IsPiece.filled .object _
      (.last (.object isSpace_nil hhalf isSpace_nil) isSpace_nil hlist isSpace_nil)
  have hshape : Entry.Writes (.chainShape .leftNested) "\x7b\"left_nested\":null\x7d".toList :=
    .chainShape (.tagged isSpace_nil (isSpelling_self (by decide)) isSpace_nil isSpace_nil
      isSpace_nil)
  have hlimit : Entry.Writes (.maxLength (some 18446744073709551615))
      "18446744073709551615".toList := .limit _
  have hzero : Entry.Writes (.maxLength (some 0)) ['0'] := .limit 0
  have hshapeName : IsSpelling "chain_shape".toList "\\u0063hain_shape".toList :=
    .cons (.number rfl) (isSpelling_self (by decide))
  have hextraName : IsSpelling "extra".toList "extra".toList := isSpelling_self (by decide)
  have hlimitName : IsSpelling "max_query_length".toList "max_query_length".toList :=
    isSpelling_self (by decide)
  have hspace : IsSpace [' '] := by decide
  have hline : IsSpace ['\n'] := by decide
  have htab : IsSpace ['\t'] := by decide
  have hgiven := @LaidOut.cons _ Entry.name Entry.Writes true (.chainShape .leftNested)
    _ _ _ _ _ _ _ _ isSpace_nil isSpace_nil hshapeName isSpace_nil isSpace_nil hshape
    (@LaidOut.cons _ Entry.name Entry.Writes _ (.unknown "extra" (by decide)) _ _ _ _ _ _ _ _
      isSpace_nil hspace hextraName hspace hspace (.unknown hvalue)
      (@LaidOut.cons _ Entry.name Entry.Writes _ (.maxLength (some 18446744073709551615))
        _ _ _ _ _ _ _ _ isSpace_nil hline hlimitName isSpace_nil isSpace_nil hlimit
        (.nil isSpace_nil)))
  have honce := @LaidOut.cons _ Entry.name Entry.Writes true (.maxLength (some 0)) _ _ _ _ _ _ _ _
    isSpace_nil isSpace_nil hlimitName isSpace_nil isSpace_nil hzero (.nil isSpace_nil)
  have htwice := @LaidOut.cons _ Entry.name Entry.Writes true (.maxLength (some 0)) _ _ _ _ _ _ _ _
    isSpace_nil isSpace_nil hlimitName isSpace_nil isSpace_nil hzero
    (@LaidOut.cons _ Entry.name Entry.Writes _ (.maxLength none) _ _ _ _ _ _ _ _
      isSpace_nil isSpace_nil hlimitName isSpace_nil isSpace_nil .unlimited (.nil isSpace_nil))
  obtain ⟨hmeaning, hrepeated, hagain, hkept⟩ := documents_mean_their_entries
  have hread := hmeaning _ _ (.intro (.intro hspace hgiven) htab) (by decide)
  have hconfig := hkept _ _ hread
  exact ⟨_, hread, rfl, hconfig.1, hconfig.2,
    hrepeated [.maxLength (some 0)] (.maxLength none) [] _
      (.intro (.intro isSpace_nil htwice) isSpace_nil) (by decide) (by decide),
    hagain _ _ _ (.intro (.intro isSpace_nil honce) hspace hlimitName ['?']) (by decide)
      (by decide)⟩

end Config
end Criteria
