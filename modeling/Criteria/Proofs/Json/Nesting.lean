import Criteria.Proofs.Json.Number
import Criteria.Proofs.Json.Text

/-!
# Levels of a document

The levels of a document are the brackets that are open at once.  They are counted on its
characters, and brackets inside strings do not count.
-/

namespace Criteria
namespace Json

/-- Where a character of a document stands. -/
inductive Place
  | outside
  | inText
  /-- In a string, directly behind a backslash. -/
  | escaped

/-- The most brackets that are open at once in the rest of a document, of which `depth` are
open at its start. -/
def deepest (place : Place) (depth : Nat) : List Char → Nat
  | [] => depth
  | c :: s =>
    match place with
    | .outside =>
      if c = '\x22' then deepest .inText depth s
      else if c = '[' ∨ c = '\x7b' then deepest .outside (depth + 1) s
      else if c = ']' ∨ c = '\x7d' then max depth (deepest .outside (depth - 1) s)
      else deepest .outside depth s
    | .inText =>
      if c = '\x22' then deepest .outside depth s
      else if c = '\\' then deepest .escaped depth s
      else deepest .inText depth s
    | .escaped => deepest .inText depth s

/-- How many levels deep a document nests. -/
def nesting (document : String) : Nat := deepest .outside 0 document.toList

theorem le_deepest (place : Place) (depth : Nat) (s : List Char) :
    depth ≤ deepest place depth s := by
  induction s generalizing place depth with
  | nil => exact Nat.le_refl depth
  | cons c s ih =>
    cases place with
    | outside =>
      rw [deepest]
      split
      · exact ih _ _
      · split
        · exact Nat.le_trans (Nat.le_succ depth) (ih _ _)
        · split
          · exact Nat.le_max_left _ _
          · exact ih _ _
    | inText =>
      rw [deepest]
      split
      · exact ih _ _
      · split <;> exact ih _ _
    | escaped => exact ih _ _

/-! ## Characters that open and close nothing -/

theorem deepest_ordinary {c : Char} (h : IsOrdinary c) (depth : Nat) (s : List Char) :
    deepest .inText depth (c :: s) = deepest .inText depth s := by
  rw [deepest, if_neg h.not_quote, if_neg h.not_backslash]

theorem deepest_escape {c : Char} (depth : Nat) (s : List Char) :
    deepest .inText depth ('\\' :: c :: s) = deepest .inText depth s := rfl

theorem deepest_spelled {c : Char} {w : List Char} (hw : Spelled c w) (depth : Nat)
    (s : List Char) : deepest .inText depth (w ++ s) = deepest .inText depth s := by
  cases hw with
  | plain h => exact deepest_ordinary h depth s
  | letter hd hu => exact deepest_escape depth s
  | @control i j hc hi hj h =>
    have hzero : IsOrdinary '0' := by decide
    show deepest .inText depth ('\\' :: 'u' :: '0' :: '0' :: i :: j :: s) = _
    rw [deepest_escape, deepest_ordinary hzero, deepest_ordinary hzero, deepest_ordinary hi,
      deepest_ordinary hj]

theorem deepest_writeChars (cs rest : List Char) (depth : Nat) :
    deepest .inText depth (writeChars cs ('\x22' :: rest)) = deepest .outside depth rest := by
  induction cs with
  | nil => rfl
  | cons c cs ih =>
    rw [writeChars, deepest_spelled (spelled_escape c), ih]

theorem deepest_writeText (s : String) (rest : List Char) (depth : Nat) :
    deepest .outside depth (writeText s rest) = deepest .outside depth rest :=
  deepest_writeChars s.toList rest depth

theorem deepest_digits {ds : List Char} (h : ∀ c ∈ ds, c.isDigit = true) (rest : List Char)
    (depth : Nat) : deepest .outside depth (ds ++ rest) = deepest .outside depth rest := by
  induction ds with
  | nil => rfl
  | cons c ds ih =>
    have hne : ∀ d : Char, d.isDigit = false → c ≠ d := by
      intro d hd hcd
      have hc := h c List.mem_cons_self
      rw [hcd, hd] at hc
      cases hc
    have hopen : ¬ (c = '[' ∨ c = '\x7b') := fun hc => hc.elim (hne _ rfl) (hne _ rfl)
    have hclose : ¬ (c = ']' ∨ c = '\x7d') := fun hc => hc.elim (hne _ rfl) (hne _ rfl)
    rw [List.cons_append, deepest, if_neg (hne _ rfl), if_neg hopen, if_neg hclose]
    exact ih fun d hd => h d (List.mem_cons_of_mem c hd)

/-! ## Pieces of a document -/

/-- Whether a piece of a document adds `levels` levels to those that it stands in, and closes
all of them. -/
def Nests (w : Written) (levels : Nat) : Prop :=
  ∀ depth rest, deepest .outside depth (w rest) =
    max (depth + levels) (deepest .outside depth rest)

/-- A piece that opens no level. -/
theorem nests_flat {w : Written}
    (h : ∀ depth rest, deepest .outside depth (w rest) = deepest .outside depth rest) :
    Nests w 0 := by
  intro depth rest
  rw [h, Nat.add_zero, Nat.max_eq_right (le_deepest _ _ _)]

theorem nests_writeText (s : String) : Nests (writeText s) 0 :=
  nests_flat fun depth rest => deepest_writeText s rest depth

theorem nests_writeNull : Nests writeNull 0 := nests_flat fun _ _ => rfl

theorem nests_writeNat (n : Nat) : Nests (writeNat n) 0 :=
  nests_flat fun depth rest => deepest_digits isDigit_of_mem_toDigits rest depth

theorem nests_writeMember {name : String} {value : Written} {n : Nat} (h : Nests value n) :
    Nests (writeMember name value) n := by
  intro depth rest
  rw [writeMember, deepest_writeText]
  exact h depth rest

/-- The items behind one that is written, each behind a comma. -/
def writeTail (ws : List Written) (rest : List Char) : List Char :=
  if ws.isEmpty then rest else ',' :: writeItems ws rest

theorem writeItems_cons (w : Written) (ws : List Written) (rest : List Char) :
    writeItems (w :: ws) rest = w (writeTail ws rest) := by
  cases ws <;> rfl

theorem nests_writeItems_nil : Nests (writeItems []) 0 := nests_flat fun _ _ => rfl

theorem nests_writeItems_cons {w : Written} {ws : List Written} {n m : Nat} (hw : Nests w n)
    (hws : Nests (writeItems ws) m) : Nests (writeItems (w :: ws)) (max n m) := by
  intro depth rest
  have htail : deepest .outside depth (writeTail ws rest) =
      deepest .outside depth (writeItems ws rest) := by
    cases ws <;> rfl
  rw [writeItems_cons, hw, htail, hws]
  omega

/-- Brackets of either kind add one level to what they enclose. -/
theorem nests_brackets {w : Written} {n : Nat} {opening closing : Char}
    (hw : Nests w n)
    (hopening : ∀ depth s, deepest .outside depth (opening :: s) = deepest .outside (depth + 1) s)
    (hclosing : ∀ depth s, deepest .outside (depth + 1) (closing :: s) =
      max (depth + 1) (deepest .outside depth s)) :
    Nests (fun rest => opening :: w (closing :: rest)) (n + 1) := by
  intro depth rest
  have hinner := hw (depth + 1) (closing :: rest)
  have hle := le_deepest .outside depth rest
  rw [hclosing] at hinner
  rw [hopening]
  omega

theorem nests_writeList {items : List Written} {n : Nat} (h : Nests (writeItems items) n) :
    Nests (writeList items) (n + 1) :=
  nests_brackets h (fun _ _ => rfl) (fun _ _ => rfl)

theorem nests_writeObject {members : List (String × Written)} {n : Nat}
    (h : Nests (writeItems (members.map fun (name, value) => writeMember name value)) n) :
    Nests (writeObject members) (n + 1) :=
  nests_brackets h (fun _ _ => rfl) (fun _ _ => rfl)

theorem nesting_of_nests {w : Written} {n : Nat} (h : Nests w n) :
    nesting (String.ofList (w [])) = n := by
  rw [nesting, String.toList_ofList, h]
  show max (0 + n) 0 = n
  omega

end Json
end Criteria
