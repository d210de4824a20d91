import Criteria.Decimal.Notation
import Criteria.Proofs.Decimal.Shortest
import Criteria.Proofs.Json.Number

/-!
# Written decimals

A decimal is written as a number of a document that stands for what the decimal does, wherever the
layout changes from places to exponents.  So what is written for a double rounds to it, and no two
doubles are written alike.
-/

namespace Criteria

/-! ## Digits and zeros -/

namespace Json

/-- The number that a spelling stands for, up to its sign. -/
def Spelling.magnitude (n : Spelling) : ℚ :=
  natOfDigits (n.whole ++ n.places) * 10 ^ (n.exponentValue - n.places.length)

variable {ds : List Char}

theorem natOfDigits_append_zeros (ds : List Char) (count : Nat) :
    natOfDigits (ds ++ List.replicate count '0') = 10 ^ count * natOfDigits ds :=
  (Nat.ofDigitChars_append 0).trans Nat.ofDigitChars_replicate_zero

theorem natOfDigits_zeros_append (count : Nat) (ds : List Char) :
    natOfDigits (List.replicate count '0' ++ ds) = natOfDigits ds := by
  have hzeros : Nat.ofDigitChars 10 (List.replicate count '0') 0 = 0 :=
    Nat.ofDigitChars_replicate_zero
  have happend := Nat.ofDigitChars_append (b := 10) (l := List.replicate count '0') (m := ds) 0
  rwa [hzeros] at happend

theorem isDigit_of_mem_zeros {count : Nat} {c : Char} (hc : c ∈ List.replicate count '0') :
    c.isDigit = true := by
  rw [(List.mem_replicate.1 hc).2]
  rfl

theorem IsDigits.append_zeros (h : IsDigits ds) (count : Nat) :
    IsDigits (ds ++ List.replicate count '0') := by
  refine ⟨List.append_ne_nil_of_left_ne_nil h.1 _, fun c hc => ?_⟩
  rcases List.mem_append.1 hc with hc | hc
  · exact h.2 c hc
  · exact isDigit_of_mem_zeros hc

theorem IsDigits.zeros_append (h : IsDigits ds) (count : Nat) :
    IsDigits (List.replicate count '0' ++ ds) := by
  refine ⟨List.append_ne_nil_of_right_ne_nil _ h.1, fun c hc => ?_⟩
  rcases List.mem_append.1 hc with hc | hc
  · exact isDigit_of_mem_zeros hc
  · exact h.2 c hc

/-- Only zero begins with a zero. -/
theorem toDigits_ne_zero_of_ne {n : Nat} (h : n ≠ 0) (s : List Char) :
    Nat.toDigits 10 n ≠ '0' :: s := by
  cases s with
  | nil =>
    intro hds
    have hvalue := natOfDigits_toDigits n
    rw [hds] at hvalue
    exact h hvalue.symm
  | cons c s => exact toDigits_ne_zero_cons n c s

theorem isWhole_append_zeros {n count : Nat} (h : n ≠ 0 ∨ count = 0) :
    IsWhole (Nat.toDigits 10 n ++ List.replicate count '0') := by
  rcases h with h | rfl
  · refine ⟨(isDigits_toDigits n).append_zeros count, fun c t heq => ?_⟩
    have hfirst := toDigits_ne_zero_of_ne h
    cases hds : Nat.toDigits 10 n with
    | nil => exact Nat.toDigits_ne_nil hds
    | cons d ds =>
      rw [hds] at heq hfirst
      obtain ⟨rfl, -⟩ := List.cons.inj heq
      exact hfirst ds rfl
  · rw [List.replicate_zero, List.append_nil]
    exact isWhole_toDigits n

theorem IsWhole.take (h : IsWhole ds) (count : Nat) : IsWhole (ds.take (count + 1)) := by
  obtain ⟨⟨hne, hdigit⟩, hzero⟩ := h
  refine ⟨⟨?_, fun c hc => hdigit c (List.mem_of_mem_take hc)⟩, fun c t heq => ?_⟩
  · cases ds with
    | nil => exact absurd rfl hne
    | cons d ds => exact List.cons_ne_nil _ _
  · have hds := List.take_append_drop (count + 1) ds
    rw [heq] at hds
    exact hzero c (t ++ ds.drop (count + 1)) hds.symm

end Json

namespace Decimal
namespace Layout

open Json

variable {layout : Layout} {d : Decimal} {lead : Int}

/-! ## Texts of decimals -/

/-- Whether a layout is for numbers as documents spell them. -/
structure IsNumeric (layout : Layout) : Prop where
  wholeSuffix : ∃ count, IsPlaces (List.replicate count '0') layout.wholeSuffix.toList
  positiveMark : ∀ ds, IsDigits ds →
    IsExponent (some (false, ds)) (layout.positiveMark.toList ++ ds)
  negativeMark : ∀ ds, IsDigits ds →
    IsExponent (some (true, ds)) (layout.negativeMark.toList ++ ds)

/-- Whether a text is a number, short of its sign, that stands for a decimal. -/
def Spells (s : List Char) (d : Decimal) : Prop :=
  ∀ negative, ∃ n, IsUnsigned negative n s ∧ n.magnitude = d.value

/-- The digits may have zeros behind those of the decimal, for which the exponent makes up. -/
theorem spells_of {whole ds places exponent : List Char} {x : Option (Bool × List Char)}
    (hwhole : IsWhole whole) (hplaces : IsPlaces ds places) (hexponent : IsExponent x exponent)
    (shift : Nat) (hdigits : natOfDigits (whole ++ ds) = 10 ^ shift * d.digits)
    (hshift : Spelling.exponentValue ⟨false, whole, ds, x⟩ - ds.length + shift = d.exponent) :
    Spells (whole ++ (places ++ exponent)) d := by
  intro negative
  refine ⟨⟨negative, whole, ds, x⟩, .mk hwhole hplaces hexponent, ?_⟩
  show (natOfDigits (whole ++ ds) : ℚ) *
    10 ^ (Spelling.exponentValue ⟨false, whole, ds, x⟩ - ds.length) = d.value
  rw [hdigits, value, ← hshift, zpow_add₀ (by norm_num), zpow_natCast]
  push_cast
  ring

theorem spells_whole (hlayout : layout.IsNumeric) (hd : d.digits ≠ 0 ∨ d.exponent = 0)
    (hexponent : 0 ≤ d.exponent) :
    Spells (Nat.toDigits 10 d.digits ++
      (List.replicate d.exponent.toNat '0' ++ layout.wholeSuffix.toList)) d := by
  obtain ⟨count, hplaces⟩ := hlayout.wholeSuffix
  have hwhole : IsWhole (Nat.toDigits 10 d.digits ++ List.replicate d.exponent.toNat '0') :=
    isWhole_append_zeros (by omega)
  have hdigits : natOfDigits (Nat.toDigits 10 d.digits ++ List.replicate d.exponent.toNat '0' ++
      List.replicate count '0') = 10 ^ (d.exponent.toNat + count) * d.digits := by
    rw [natOfDigits_append_zeros, natOfDigits_append_zeros, natOfDigits_toDigits]
    ring
  have hspells := spells_of hwhole hplaces .none (d.exponent.toNat + count) hdigits (by
    simp only [Spelling.exponentValue, List.length_replicate]
    omega)
  simpa using hspells

/-- The point stands between two digits. -/
theorem spells_inner (hlead : lead = d.exponent + d.length - 1) (hexponent : d.exponent < 0)
    (hpoint : 0 ≤ lead) :
    Spells ((Nat.toDigits 10 d.digits).take (lead.toNat + 1) ++
      '.' :: (Nat.toDigits 10 d.digits).drop (lead.toNat + 1)) d := by
  have hlength : (Nat.toDigits 10 d.digits).length = d.length := rfl
  have hplaces : IsDigits ((Nat.toDigits 10 d.digits).drop (lead.toNat + 1)) := by
    refine ⟨fun hnil => ?_, fun c hc => isDigit_of_mem_toDigits c (List.mem_of_mem_drop hc)⟩
    have hle := List.drop_eq_nil_iff.1 hnil
    omega
  have hdigits : natOfDigits ((Nat.toDigits 10 d.digits).take (lead.toNat + 1) ++
      (Nat.toDigits 10 d.digits).drop (lead.toNat + 1)) = 10 ^ 0 * d.digits := by
    rw [List.take_append_drop, natOfDigits_toDigits, Nat.pow_zero, Nat.one_mul]
  have hspells := spells_of ((isWhole_toDigits d.digits).take lead.toNat) (.some hplaces) .none 0
    hdigits (by
      simp only [Spelling.exponentValue, List.length_drop]
      omega)
  simpa using hspells

/-- All digits stand behind the point. -/
theorem spells_places (hlead : lead = d.exponent + d.length - 1) (hpoint : lead < 0) :
    Spells ('0' :: '.' :: (List.replicate (-lead - 1).toNat '0' ++ Nat.toDigits 10 d.digits))
      d := by
  have hlength : (Nat.toDigits 10 d.digits).length = d.length := rfl
  have hplaces := (isDigits_toDigits d.digits).zeros_append (-lead - 1).toNat
  have hdigits : natOfDigits (List.replicate 1 '0' ++
      (List.replicate (-lead - 1).toNat '0' ++ Nat.toDigits 10 d.digits)) = 10 ^ 0 * d.digits := by
    rw [natOfDigits_zeros_append, natOfDigits_zeros_append, natOfDigits_toDigits, Nat.pow_zero,
      Nat.one_mul]
  have hspells := spells_of (isWhole_toDigits 0) (.some hplaces) .none 0 hdigits (by
    simp only [Spelling.exponentValue, List.length_append, List.length_replicate]
    omega)
  simpa using hspells

theorem spells_positional (hlayout : layout.IsNumeric) (hd : d.digits ≠ 0 ∨ d.exponent = 0)
    (hlead : lead = d.exponent + d.length - 1) :
    Spells (layout.positional (Nat.toDigits 10 d.digits) d lead).toList d := by
  unfold positional
  split
  · rename_i hexponent
    simpa [zeros] using spells_whole hlayout hd hexponent
  · rename_i hexponent
    split
    · rename_i hpoint
      simpa using spells_inner hlead (Int.lt_of_not_ge hexponent) hpoint
    · rename_i hpoint
      simpa [zeros] using spells_places hlead (Int.lt_of_not_ge hpoint)

theorem isExponent_mark (hlayout : layout.IsNumeric) (lead : Int) :
    IsExponent (some (decide (lead < 0), Nat.toDigits 10 lead.natAbs))
      ((if lead < 0 then layout.negativeMark else layout.positiveMark).toList ++
        Nat.toDigits 10 lead.natAbs) := by
  have hdigits := isDigits_toDigits lead.natAbs
  by_cases hneg : lead < 0
  · rw [if_pos hneg, decide_eq_true hneg]
    exact hlayout.negativeMark _ hdigits
  · rw [if_neg hneg, decide_eq_false hneg]
    exact hlayout.positiveMark _ hdigits

theorem exponentValue_mark (whole places : List Char) (lead : Int) :
    Spelling.exponentValue
      ⟨false, whole, places, some (decide (lead < 0), Nat.toDigits 10 lead.natAbs)⟩ = lead := by
  simp only [Spelling.exponentValue, natOfDigits_toDigits, decide_eq_true_eq]
  split <;> omega

/-- The point is left out if nothing stands behind it. -/
theorem isPlaces_point (ds : List Char) (h : ∀ c ∈ ds, c.isDigit = true) :
    IsPlaces ds ((if (String.ofList ds).isEmpty then "" else ".").toList ++ ds) := by
  cases ds with
  | nil => exact .none
  | cons c ds =>
    have hpoint : (String.ofList (c :: ds)).isEmpty = false := by simp
    rw [hpoint]
    exact .some ⟨List.cons_ne_nil c ds, h⟩

theorem spells_scientific (hlayout : layout.IsNumeric)
    (hlead : lead = d.exponent + d.length - 1) :
    Spells (layout.scientific (Nat.toDigits 10 d.digits) lead).toList d := by
  have hlength : (Nat.toDigits 10 d.digits).length = d.length := rfl
  have hpos := d.length_pos
  have hplaces := isPlaces_point ((Nat.toDigits 10 d.digits).drop 1)
    fun c hc => isDigit_of_mem_toDigits c (List.mem_of_mem_drop hc)
  have hdigits : natOfDigits ((Nat.toDigits 10 d.digits).take 1 ++
      (Nat.toDigits 10 d.digits).drop 1) = 10 ^ 0 * d.digits := by
    rw [List.take_append_drop, natOfDigits_toDigits, Nat.pow_zero, Nat.one_mul]
  have hspells := spells_of ((isWhole_toDigits d.digits).take 0) hplaces
    (isExponent_mark hlayout lead) 0 hdigits (by
      rw [exponentValue_mark, List.length_drop]
      omega)
  simpa [scientific] using hspells

/-- Zero is written without an exponent, so that of the decimal must be zero too. -/
theorem spells_write (hlayout : layout.IsNumeric) (hd : d.digits ≠ 0 ∨ d.exponent = 0) :
    Spells (layout.write d).toList d := by
  unfold write
  dsimp only
  split
  · exact spells_positional hlayout hd rfl
  · exact spells_scientific hlayout rfl

/-! ## Texts of doubles -/

theorem digits_shortest_ne_zero {x : Dyadic} (hx : x.IsDouble) :
    (shortest x).digits ≠ 0 ∨ (shortest x).exponent = 0 := by
  by_cases h : x.mantissa = 0
  · right
    rw [shortest, if_pos h]
  · left
    intro hdigits
    have hpos := Dyadic.pos_of_mem_interval h (isShortest_shortest hx).rounds
    rw [value, hdigits, Nat.cast_zero, zero_mul] at hpos
    exact hpos.false

/-- A double is written as a number with its sign that stands for its shortest decimal. -/
theorem isNumber_writeDouble (hlayout : layout.IsNumeric) (bits : UInt64) :
    ∃ n : Spelling, IsNumber n (layout.writeDouble bits).toList ∧
      n.negative = decide (2 ^ 63 ≤ bits.toNat) ∧
      n.magnitude = (shortest (Dyadic.ofBits bits)).value := by
  have hspells := spells_write hlayout (digits_shortest_ne_zero (Dyadic.isDouble_ofBits bits))
  unfold writeDouble
  dsimp only
  rw [Nat.pow_eq]
  split
  · rename_i hlt
    obtain ⟨n, hn, hvalue⟩ := hspells false
    refine ⟨n, ?_, ?_, hvalue⟩
    · rw [String.empty_append]
      exact .positive hn
    · rw [hn.negative_eq, decide_eq_false hlt.not_ge]
  · rename_i hge
    obtain ⟨n, hn, hvalue⟩ := hspells true
    refine ⟨n, ?_, ?_, hvalue⟩
    · rw [String.toList_append]
      exact .negative hn
    · rw [hn.negative_eq, decide_eq_true (Nat.le_of_not_lt hge)]

/-- No two doubles are written alike. -/
theorem writeDouble_injective (hlayout : layout.IsNumeric) :
    Function.Injective layout.writeDouble := by
  intro a b h
  obtain ⟨m, hm, hsign, hvalue⟩ := isNumber_writeDouble hlayout a
  obtain ⟨n, hn, hsign', hvalue'⟩ := isNumber_writeDouble hlayout b
  rw [h] at hm
  obtain rfl := hm.unique hn
  have hmagnitude := eq_of_shortest_eq (Dyadic.isDouble_ofBits a) (Dyadic.isDouble_ofBits b)
    (hvalue.symm.trans hvalue')
  have hlow := Dyadic.mod_eq_of_ofBits_eq hmagnitude
  have hhigh := decide_eq_decide.1 (hsign.symm.trans hsign')
  have ha := a.toNat_lt
  have hb := b.toNat_lt
  exact UInt64.toNat_inj.1 (by omega)

end Layout
end Decimal
end Criteria
