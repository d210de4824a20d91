import Criteria.Proofs.Decimal.Interval

/-!
# Shortest decimals

The decimal that is found for a double rounds to it, no decimal with fewer digits does, and none
with as many is nearer.

A grid holds a decimal that rounds to the double only if a neighbour of the double on it does.  If
any decimal with so many digits rounds to it, the grid for so many digits holds one that is as near.
The grid for seventeen digits is finer than the interval, so there the search ends.
-/

namespace Criteria

/-! ## Scales

Comparisons are made on integers, by a factor that depends on the double and on the exponent of the
decimals. -/

namespace Dyadic

variable {x : Dyadic} {k : Int} {n : Nat}

theorem denominator_pos (x : Dyadic) : 0 < x.denominator := Nat.pow_pos (by decide)

/-- The factor on which decimals with the exponent `k` are compared. -/
def scale (x : Dyadic) (k : Int) : ℚ := x.denominator * 10 ^ (-k).toNat

theorem scale_pos (x : Dyadic) (k : Int) : 0 < x.scale k :=
  mul_pos (Nat.cast_pos.2 x.denominator_pos) (by positivity)

/-- The part of a power above the fraction bar is the power times the part below it. -/
theorem pow_toNat_eq {b : ℚ} (hb : b ≠ 0) (n : Int) :
    b ^ n.toNat = b ^ n * b ^ (-n).toNat := by
  rw [← zpow_natCast, ← zpow_natCast, ← zpow_add₀ hb]
  congr 1
  omega

theorem numerator_eq (x : Dyadic) : (x.numerator : ℚ) = x.unit * x.denominator := by
  have hparts := pow_toNat_eq (b := 2) (by norm_num) (x.exponent - 2)
  have hneg : -(x.exponent - 2) = 2 - x.exponent := by omega
  rw [hneg] at hparts
  rw [numerator, denominator, unit, Nat.pow_eq, Nat.pow_eq]
  push_cast
  exact hparts

theorem onScale_eq (x : Dyadic) (k : Int) (n : Nat) :
    (x.onScale k n : ℚ) = n * x.unit * x.scale k := by
  rw [onScale, scale, Nat.pow_eq]
  push_cast
  rw [numerator_eq]
  ring

theorem decimalOnScale_eq (x : Dyadic) (k : Int) (n : Nat) :
    (x.decimalOnScale k n : ℚ) = n * 10 ^ k * x.scale k := by
  rw [decimalOnScale, scale, Nat.pow_eq]
  push_cast
  rw [pow_toNat_eq (by norm_num) k]
  ring

theorem onScale_le_iff {m : Nat} :
    x.onScale k n ≤ x.decimalOnScale k m ↔ n * x.unit ≤ m * 10 ^ k := by
  rw [← Nat.cast_le (α := ℚ), onScale_eq, decimalOnScale_eq, mul_le_mul_iff_left₀ (x.scale_pos k)]

theorem decimalOnScale_le_iff {m : Nat} :
    x.decimalOnScale k m ≤ x.onScale k n ↔ m * 10 ^ k ≤ n * x.unit := by
  rw [← Nat.cast_le (α := ℚ), onScale_eq, decimalOnScale_eq, mul_le_mul_iff_left₀ (x.scale_pos k)]

theorem onScale_lt_iff {m : Nat} :
    x.onScale k n < x.decimalOnScale k m ↔ n * x.unit < m * 10 ^ k := by
  rw [← not_le, decimalOnScale_le_iff, not_le]

theorem decimalOnScale_lt_iff {m : Nat} :
    x.decimalOnScale k m < x.onScale k n ↔ m * 10 ^ k < n * x.unit := by
  rw [← not_le, onScale_le_iff, not_le]

theorem roundsFrom_iff : x.roundsFrom k n = true ↔ (n * 10 ^ k : ℚ) ∈ x.interval := by
  unfold roundsFrom interval
  dsimp only
  split
  · rw [Bool.and_eq_true, decide_eq_true_iff, decide_eq_true_iff, onScale_le_iff,
      decimalOnScale_le_iff, Set.mem_Icc]
  · rw [Bool.and_eq_true, decide_eq_true_iff, decide_eq_true_iff, onScale_lt_iff,
      decimalOnScale_lt_iff, Set.mem_Ioo]

/-! ## Grids -/

/-- The digits of the last decimal with the exponent `k` up to the double. -/
def below (x : Dyadic) (k : Int) : Nat := x.onScale k (4 * x.mantissa) / x.decimalOnScale k 1

theorem decimalOnScale_eq_mul (x : Dyadic) (k : Int) (n : Nat) :
    x.decimalOnScale k n = n * x.decimalOnScale k 1 := by
  rw [decimalOnScale, decimalOnScale, Nat.one_mul, Nat.mul_assoc]

theorem decimalOnScale_below_le (x : Dyadic) (k : Int) :
    x.decimalOnScale k (x.below k) ≤ x.onScale k (4 * x.mantissa) := by
  rw [decimalOnScale_eq_mul]
  exact Nat.div_mul_le_self _ _

theorem lt_decimalOnScale_below (x : Dyadic) (k : Int) :
    x.onScale k (4 * x.mantissa) < x.decimalOnScale k (x.below k + 1) := by
  have hone : 0 < x.decimalOnScale k 1 := by
    rw [decimalOnScale, Nat.one_mul]
    exact Nat.mul_pos (Nat.pow_pos (by decide)) x.denominator_pos
  rw [decimalOnScale_eq_mul, Nat.mul_comm (x.below k + 1)]
  exact Nat.lt_mul_div_succ _ hone

theorem below_le (x : Dyadic) (k : Int) : x.below k * 10 ^ k ≤ x.value := by
  rw [value_eq]
  exact decimalOnScale_le_iff.1 (x.decimalOnScale_below_le k)

theorem lt_below (x : Dyadic) (k : Int) : x.value < (x.below k + 1 : ℕ) * 10 ^ k := by
  rw [value_eq]
  exact onScale_lt_iff.1 (x.lt_decimalOnScale_below k)

theorem abs_below (x : Dyadic) (k : Int) :
    |x.value - x.below k * 10 ^ k| = x.value - x.below k * 10 ^ k :=
  abs_of_nonneg (sub_nonneg.2 (x.below_le k))

theorem abs_above (x : Dyadic) (k : Int) :
    |x.value - (x.below k + 1 : ℕ) * 10 ^ k| = (x.below k + 1 : ℕ) * 10 ^ k - x.value := by
  rw [abs_sub_comm, abs_of_pos (sub_pos.2 (x.lt_below k))]

/-- The distances of the two neighbours, as they are compared. -/
theorem down_eq (x : Dyadic) (k : Int) :
    ((x.onScale k (4 * x.mantissa) - x.decimalOnScale k (x.below k) : ℕ) : ℚ) =
      |x.value - x.below k * 10 ^ k| * x.scale k := by
  rw [Nat.cast_sub (x.decimalOnScale_below_le k), onScale_eq, decimalOnScale_eq, ← sub_mul,
    ← value_eq, abs_below]

theorem up_eq (x : Dyadic) (k : Int) :
    ((x.decimalOnScale k (x.below k + 1) - x.onScale k (4 * x.mantissa) : ℕ) : ℚ) =
      |x.value - (x.below k + 1 : ℕ) * 10 ^ k| * x.scale k := by
  rw [Nat.cast_sub (x.lt_decimalOnScale_below k).le, onScale_eq, decimalOnScale_eq, ← sub_mul,
    ← value_eq, abs_above]

/-- Whether a decimal with the exponent `k` stands next to the double. -/
def IsNeighbour (x : Dyadic) (k : Int) (n : Nat) : Prop := n = x.below k ∨ n = x.below k + 1

/-- Any other decimal of a grid that rounds to the double has a neighbour of the double between
them, which is nearer. -/
theorem exists_isNeighbour (h : (n * 10 ^ k : ℚ) ∈ x.interval) :
    ∃ m, x.IsNeighbour k m ∧ (m * 10 ^ k : ℚ) ∈ x.interval ∧
      (m = n ∨ |x.value - m * 10 ^ k| < |x.value - n * 10 ^ k|) := by
  have hpower : (0 : ℚ) < 10 ^ k := by positivity
  have hbelow := x.below_le k
  have habove := x.lt_below k
  rcases Nat.lt_trichotomy n (x.below k) with hn | rfl | hn
  · have hfar := mul_lt_mul_of_pos_right (Nat.cast_lt (α := ℚ).2 hn) hpower
    refine ⟨_, .inl rfl, ?_, .inr ?_⟩
    · exact (mem_interval_of_between h (Set.mem_uIcc.2 (.inl ⟨hfar.le, hbelow⟩))).1
    · rw [abs_below, abs_of_nonneg (by linarith)]
      linarith
  · exact ⟨_, .inl rfl, h, .inl rfl⟩
  · rcases Nat.eq_or_lt_of_le hn with rfl | hn
    · exact ⟨_, .inr rfl, h, .inl rfl⟩
    · have hfar : ((x.below k + 1 : ℕ) : ℚ) * 10 ^ k < n * 10 ^ k :=
        mul_lt_mul_of_pos_right (Nat.cast_lt.2 hn) hpower
      refine ⟨_, .inr rfl, ?_, .inr ?_⟩
      · exact (mem_interval_of_between h (Set.mem_uIcc.2 (.inr ⟨habove.le, hfar.le⟩))).1
      · rw [abs_above, abs_sub_comm, abs_of_pos (by linarith)]
        linarith

theorem nearest?_eq_none_iff :
    x.nearest? k = none ↔ ∀ n : ℕ, (n * 10 ^ k : ℚ) ∉ x.interval := by
  have hnone : x.nearest? k = none ↔
      ¬ x.roundsFrom k (x.below k) = true ∧ ¬ x.roundsFrom k (x.below k + 1) = true := by
    unfold nearest?
    dsimp only
    rw [← below]
    cases x.roundsFrom k (x.below k) <;> cases x.roundsFrom k (x.below k + 1) <;> simp
    split <;> simp
  rw [hnone, roundsFrom_iff, roundsFrom_iff]
  constructor
  · rintro ⟨hbelow, habove⟩ n hn
    obtain ⟨m, rfl | rfl, hm, -⟩ := exists_isNeighbour hn
    · exact hbelow hm
    · exact habove hm
  · exact fun h => ⟨h _, h _⟩

/-- The neighbour that is chosen, against the other one. -/
theorem nearest?_eq_some_isNeighbour (h : x.nearest? k = some n) :
    x.IsNeighbour k n ∧ (n * 10 ^ k : ℚ) ∈ x.interval ∧
      ∀ m, x.IsNeighbour k m → (m * 10 ^ k : ℚ) ∈ x.interval → m = n ∨
        |x.value - n * 10 ^ k| < |x.value - m * 10 ^ k| ∨
        |x.value - n * 10 ^ k| = |x.value - m * 10 ^ k| ∧ n % 2 = 0 := by
  unfold nearest? at h
  dsimp only at h
  rw [← below] at h
  split at h
  · cases h
  · rename_i hbelow habove
    cases h
    refine ⟨.inl rfl, roundsFrom_iff.1 hbelow, ?_⟩
    rintro m (rfl | rfl) hm
    · exact .inl rfl
    · rw [← roundsFrom_iff, habove] at hm
      cases hm
  · rename_i hbelow habove
    cases h
    refine ⟨.inr rfl, roundsFrom_iff.1 habove, ?_⟩
    rintro m (rfl | rfl) hm
    · rw [← roundsFrom_iff, hbelow] at hm
      cases hm
    · exact .inl rfl
  · rename_i hbelow habove
    have hlt {a b : ℚ} : a < b ↔ a * x.scale k < b * x.scale k :=
      (mul_lt_mul_iff_left₀ (x.scale_pos k)).symm
    have heq {a b : ℚ} : a = b ↔ a * x.scale k = b * x.scale k :=
      (mul_left_inj' (x.scale_pos k).ne').symm
    split at h
    · rename_i hdown
      cases h
      refine ⟨.inl rfl, roundsFrom_iff.1 hbelow, ?_⟩
      rintro m (rfl | rfl) -
      · exact .inl rfl
      · rw [hlt, heq, ← down_eq, ← up_eq, Nat.cast_lt, Nat.cast_inj]
        exact .inr hdown
    · rename_i hup
      cases h
      refine ⟨.inr rfl, roundsFrom_iff.1 habove, ?_⟩
      rintro m (rfl | rfl) -
      · rw [hlt, heq, ← down_eq, ← up_eq, Nat.cast_lt, Nat.cast_inj]
        omega
      · exact .inl rfl

/-- Any other decimal with the same exponent that rounds to the double is farther from it, or as
near as one with an even last digit. -/
theorem nearest?_eq_some (h : x.nearest? k = some n) {m : Nat}
    (hm : (m * 10 ^ k : ℚ) ∈ x.interval) (hne : m ≠ n) :
    |x.value - n * 10 ^ k| < |x.value - m * 10 ^ k| ∨
      |x.value - n * 10 ^ k| = |x.value - m * 10 ^ k| ∧ n % 2 = 0 := by
  obtain ⟨m', hneighbour, hmem, hnear⟩ := exists_isNeighbour hm
  have hchosen := (nearest?_eq_some_isNeighbour h).2.2 m' hneighbour hmem
  rcases hnear with rfl | hnear
  · exact hchosen.resolve_left hne
  · rcases hchosen with rfl | hlt | ⟨heq, -⟩
    · exact .inl hnear
    · exact .inl (hlt.trans hnear)
    · exact .inl (heq.trans_lt hnear)

theorem abs_le_of_nearest? (h : x.nearest? k = some n) {m : Nat}
    (hm : (m * 10 ^ k : ℚ) ∈ x.interval) :
    |x.value - n * 10 ^ k| ≤ |x.value - m * 10 ^ k| := by
  rcases eq_or_ne m n with rfl | hne
  · exact le_rfl
  · rcases nearest?_eq_some h hm hne with hlt | ⟨heq, -⟩
    · exact hlt.le
    · exact heq.le

/-- A grid without a decimal in the interval has no two decimals as near as its ends. -/
theorem upper_le_of_grid (h : ∀ n : ℕ, (n * 10 ^ k : ℚ) ∉ x.interval) :
    x.upper * x.unit ≤ x.lower * x.unit + 10 ^ k := by
  have hbelow : x.below k * 10 ^ k ≤ x.lower * x.unit := by
    rw [← not_lt]
    intro hlow
    exact h _ (x.Ioo_subset_interval ⟨hlow, (x.below_le k).trans_lt x.value_lt_upper⟩)
  have habove : x.upper * x.unit ≤ (x.below k + 1 : ℕ) * 10 ^ k := by
    rw [← not_lt]
    intro hhigh
    exact h _ (x.Ioo_subset_interval ⟨x.lower_le_value.trans_lt (x.lt_below k), hhigh⟩)
  push_cast at habove
  linarith

/-! ## Leading digits -/

theorem leadingPlace_spec {numerator denominator : Nat} (fuel places : Nat)
    (hlt : numerator * 10 ^ places < denominator)
    (hle : denominator ≤ numerator * 10 ^ (places + 1 + fuel)) :
    ∃ place, leadingPlace numerator denominator fuel (places + 1) = place + 1 ∧
      numerator * 10 ^ place < denominator ∧ denominator ≤ numerator * 10 ^ (place + 1) := by
  induction fuel generalizing places with
  | zero => exact ⟨places, rfl, hlt, hle⟩
  | succ fuel ih =>
    rw [leadingPlace, Nat.pow_eq]
    split
    · rename_i hfound
      exact ⟨places, rfl, hlt, hfound⟩
    · rename_i hnot
      refine ih (places + 1) (Nat.lt_of_not_le hnot) ?_
      rwa [Nat.add_right_comm (places + 1) 1 fuel]

/-- No double other than zero is so small that its leading digit would be missed. -/
theorem denominator_le (hx : x.IsDouble) (h : x.mantissa ≠ 0) {p : Nat} (hp : 2 ^ 1076 ≤ 4 * p) :
    x.denominator ≤ 4 * x.mantissa * x.numerator * p := by
  have hexponent := hx.le_exponent
  have hone : 1 ≤ x.mantissa * x.numerator :=
    Nat.mul_pos (Nat.pos_of_ne_zero h) (Nat.pow_pos (by decide))
  calc x.denominator = 2 ^ (2 - x.exponent).toNat := rfl
    _ ≤ 2 ^ 1076 := pow_le_pow_right₀ (by decide) (by omega)
    _ ≤ 1 * (4 * p) := hp.trans_eq (Nat.one_mul _).symm
    _ ≤ x.mantissa * x.numerator * (4 * p) := Nat.mul_le_mul_right _ hone
    _ = 4 * x.mantissa * x.numerator * p := by ring

theorem toDigits_bounds {n : Nat} (hn : n ≠ 0) :
    ∃ l, (Nat.toDigits 10 n).length = l + 1 ∧ 10 ^ l ≤ n ∧ n < 10 ^ (l + 1) := by
  obtain ⟨l, hl⟩ := Nat.exists_eq_add_one.2 (Nat.length_toDigits_pos (b := 10) (n := n))
  refine ⟨l, hl, ?_, ?_⟩
  · rcases Nat.eq_zero_or_pos l with rfl | hpos
    · exact Nat.pos_of_ne_zero hn
    · rw [← Nat.not_lt, ← Nat.length_toDigits_le_iff (by decide) hpos, hl]
      omega
  · rw [← Nat.length_toDigits_le_iff (by decide) (Nat.succ_pos l), hl]

theorem magnitude_bounds (hx : x.IsDouble) (h : x.mantissa ≠ 0) :
    (10 : ℚ) ^ x.magnitude ≤ x.value ∧ x.value < 10 ^ (x.magnitude + 1) := by
  have hden : (0 : ℚ) < x.denominator := Nat.cast_pos.2 x.denominator_pos
  have hvalue : x.value * x.denominator = (4 * x.mantissa * x.numerator : ℕ) := by
    rw [value_eq, Nat.cast_mul (4 * x.mantissa), numerator_eq, mul_assoc]
  suffices hscaled : (10 : ℚ) ^ x.magnitude * x.denominator ≤ x.value * x.denominator ∧
      x.value * x.denominator < 10 ^ (x.magnitude + 1) * x.denominator from
    ⟨le_of_mul_le_mul_right hscaled.1 hden, lt_of_mul_lt_mul_right hscaled.2 hden.le⟩
  rw [hvalue]
  unfold magnitude
  dsimp only
  split
  · rename_i hwhole
    rw [Nat.div_eq_zero_iff_lt x.denominator_pos] at hwhole
    obtain ⟨place, hplace, hlt, hle⟩ :=
      leadingPlace_spec 330 0 (by simpa using hwhole) (denominator_le hx h (by decide +kernel))
    have hnext : -((place + 1 : ℕ) : ℤ) + 1 = -(place : ℤ) := by omega
    rw [hplace, hnext, zpow_neg, zpow_neg, zpow_natCast, zpow_natCast,
      inv_mul_le_iff₀ (by positivity), lt_inv_mul_iff₀ (by positivity), mul_comm,
      mul_comm _ (Nat.cast _)]
    exact ⟨by exact_mod_cast hle, by exact_mod_cast hlt⟩
  · rename_i hwhole
    obtain ⟨l, hl, hle, hlt⟩ := toDigits_bounds hwhole
    rw [Nat.le_div_iff_mul_le x.denominator_pos] at hle
    rw [Nat.div_lt_iff_lt_mul x.denominator_pos] at hlt
    rw [hl, Nat.cast_succ, add_sub_cancel_right, ← Nat.cast_succ, zpow_natCast, zpow_natCast]
    exact ⟨by exact_mod_cast hle, by exact_mod_cast hlt⟩

/-- The exponent of the decimals with `count` digits whose leading digit is that of the double. -/
def grid (x : Dyadic) (count : Nat) : Int := x.magnitude - count + 1

theorem below_grid_lt (hx : x.IsDouble) (h : x.mantissa ≠ 0) (count : Nat) :
    x.below (x.grid count) < 10 ^ count := by
  have hlt := (x.below_le (x.grid count)).trans_lt (magnitude_bounds hx h).2
  have hmagnitude : x.magnitude + 1 = count + x.grid count := by
    unfold grid
    omega
  rw [hmagnitude, zpow_add₀ (by norm_num), zpow_natCast] at hlt
  exact_mod_cast lt_of_mul_lt_mul_right hlt (by positivity)

/-- Seventeen digits suffice for any double. -/
theorem nearest?_grid_ne_none (hx : x.IsDouble) (h : x.mantissa ≠ 0) :
    x.nearest? (x.grid 17) ≠ none := by
  intro hnone
  have hwide := upper_le_of_grid (nearest?_eq_none_iff.1 hnone)
  have hvalue := (magnitude_bounds hx h).1
  have hmagnitude : x.magnitude = x.grid 17 + (16 : ℕ) := by
    unfold grid
    omega
  rw [hmagnitude, zpow_add₀ (by norm_num), zpow_natCast, value_eq] at hvalue
  have hscaled : (x.upper * 10 ^ 16) * x.unit ≤
      (x.lower * 10 ^ 16 + (4 * x.mantissa : ℕ)) * x.unit := by
    linarith
  have hends : x.upper * 10 ^ 16 ≤ x.lower * 10 ^ 16 + 4 * x.mantissa := by
    exact_mod_cast le_of_mul_le_mul_right hscaled x.unit_pos
  have hmantissa := hx.mantissa_lt
  unfold upper lower at hends
  split at hends
  · simp only [Nat.pow_eq] at *
    omega
  · omega

end Dyadic

namespace Decimal

variable {x : Dyadic} {d d' : Decimal}

/-! ## Digits -/

def value (d : Decimal) : ℚ := d.digits * 10 ^ d.exponent

/-- The number of digits. -/
def length (d : Decimal) : Nat := (Nat.toDigits 10 d.digits).length

theorem length_pos (d : Decimal) : 0 < d.length := Nat.length_toDigits_pos

theorem length_le_iff {count : Nat} (hcount : 0 < count) :
    d.length ≤ count ↔ d.digits < 10 ^ count :=
  Nat.length_toDigits_le_iff (by decide) hcount

theorem digits_lt (d : Decimal) : d.digits < 10 ^ d.length := (length_le_iff d.length_pos).1 le_rfl

theorem value_stripZeros (fuel : Nat) (d : Decimal) : (stripZeros fuel d).value = d.value := by
  induction fuel generalizing d with
  | zero => rfl
  | succ fuel ih =>
    rw [stripZeros]
    split
    · rename_i hzero
      have hdigits : (d.digits : ℚ) = (d.digits / 10 : ℕ) * 10 := by
        exact_mod_cast (Nat.div_mul_cancel (Nat.dvd_of_mod_eq_zero hzero)).symm
      rw [ih, value, value, hdigits, zpow_add₀ (by norm_num), zpow_one]
      ring
    · rfl

theorem length_stripZeros_le (fuel : Nat) (d : Decimal) :
    (stripZeros fuel d).length ≤ d.length := by
  induction fuel generalizing d with
  | zero => exact le_rfl
  | succ fuel ih =>
    rw [stripZeros]
    split
    · refine (ih _).trans ((length_le_iff d.length_pos).2 ?_)
      exact (Nat.div_le_self _ _).trans_lt d.digits_lt
    · exact le_rfl

/-- Of a power of ten one digit is left. -/
theorem length_stripZeros_pow {fuel count : Nat} (h : count ≤ fuel) (k : Int) :
    (stripZeros fuel ⟨10 ^ count, k⟩).length ≤ 1 := by
  induction count generalizing fuel k with
  | zero =>
    exact (length_stripZeros_le _ _).trans ((length_le_iff Nat.one_pos).2 (by norm_num))
  | succ count ih =>
    obtain ⟨fuel, rfl⟩ := Nat.exists_eq_add_one.2 (Nat.zero_lt_of_lt h)
    rw [stripZeros, if_pos (by simp [Nat.pow_succ]), Nat.pow_succ,
      Nat.mul_div_cancel _ (by decide)]
    exact ih (Nat.le_of_succ_le_succ h) _

/-- What rounds to a double is on the grid for as many digits, or that grid has something nearer
that does. -/
theorem exists_on_grid (hx : x.IsDouble) (h : x.mantissa ≠ 0) (hd : d.value ∈ x.interval)
    (count : Nat) (hcount : d.length ≤ count) :
    ∃ n : ℕ, (n * 10 ^ x.grid count : ℚ) ∈ x.interval ∧
      |x.value - n * 10 ^ x.grid count| ≤ |x.value - d.value| := by
  by_cases hcoarse : x.grid count ≤ d.exponent
  · refine ⟨d.digits * 10 ^ (d.exponent - x.grid count).toNat, ?_⟩
    have hvalue : ((d.digits * 10 ^ (d.exponent - x.grid count).toNat : ℕ) : ℚ) *
        10 ^ x.grid count = d.value := by
      push_cast
      rw [mul_assoc, ← zpow_natCast, ← zpow_add₀ (by norm_num), value]
      congr 2
      omega
    rw [hvalue]
    exact ⟨hd, le_rfl⟩
  · -- the decimal lies below the power of ten with the leading digit of the double
    have hpower : ((10 ^ (count - 1) : ℕ) : ℚ) * 10 ^ x.grid count = 10 ^ x.magnitude := by
      have hpos := d.length_pos
      push_cast
      rw [← zpow_natCast, ← zpow_add₀ (by norm_num)]
      congr 1
      unfold Dyadic.grid
      omega
    have hdigits : (d.digits : ℚ) ≤ 10 ^ count := by
      have hle := d.digits_lt.le.trans (Nat.pow_le_pow_right (by decide) hcount)
      exact_mod_cast hle
    have hexponent : count + d.exponent ≤ x.magnitude := by
      unfold Dyadic.grid at hcoarse
      omega
    have hvalue : d.value ≤ 10 ^ x.magnitude :=
      calc d.value ≤ 10 ^ count * 10 ^ d.exponent := by
            unfold value
            gcongr
        _ = 10 ^ (count + d.exponent) := by rw [zpow_add₀ (by norm_num), zpow_natCast]
        _ ≤ 10 ^ x.magnitude := zpow_le_zpow_right₀ (by norm_num) hexponent
    refine ⟨10 ^ (count - 1), ?_⟩
    rw [hpower]
    exact Dyadic.mem_interval_of_between hd
      (Set.mem_uIcc.2 (.inl ⟨hvalue, (Dyadic.magnitude_bounds hx h).1⟩))

/-! ## The search -/

/-- The search ends at the first grid with a decimal that rounds to the double. -/
theorem shortestFrom_spec (fuel count : Nat) {last : Nat} (hlast : x.nearest? (x.grid last) ≠ none)
    (hcount : count ≤ last) (hfuel : last < count + fuel) :
    ∃ first n, count ≤ first ∧ first ≤ last ∧
      (∀ i, count ≤ i → i < first → x.nearest? (x.grid i) = none) ∧
      x.nearest? (x.grid first) = some n ∧
      shortestFrom x fuel count = stripZeros 18 ⟨n, x.grid first⟩ := by
  induction fuel generalizing count with
  | zero => omega
  | succ fuel ih =>
    rw [shortestFrom, ← Dyadic.grid]
    split
    · rename_i n hn
      exact ⟨count, n, le_rfl, hcount, fun i hi hlt => absurd hlt hi.not_gt, hn, rfl⟩
    · rename_i hnone
      have hne : count ≠ last := by
        rintro rfl
        exact hlast hnone
      obtain ⟨first, n, hle, hlast, hskip, hn, hresult⟩ :=
        ih (count + 1) (by omega) (by omega)
      refine ⟨first, n, by omega, hlast, fun i hi hlt => ?_, hn, hresult⟩
      rcases Nat.eq_or_lt_of_le hi with rfl | hi
      · exact hnone
      · exact hskip i hi hlt

/-- Whether a decimal rounds to a double, with the fewest digits, and as near as these can be. -/
structure IsShortest (x : Dyadic) (d : Decimal) : Prop where
  rounds : d.value ∈ x.interval
  length_le : ∀ d' : Decimal, d'.value ∈ x.interval → d.length ≤ d'.length
  abs_le : ∀ d' : Decimal, d'.value ∈ x.interval → d'.length = d.length →
    |x.value - d.value| ≤ |x.value - d'.value|

theorem isShortest_zero (h : x.mantissa = 0) : IsShortest x ⟨0, 0⟩ := by
  have hvalue : (⟨0, 0⟩ : Decimal).value = x.value := by simp [value, Dyadic.value, h]
  refine ⟨?_, fun d' _ => d'.length_pos, fun d' _ _ => ?_⟩
  · rw [hvalue]
    exact x.value_mem_interval
  · rw [hvalue, sub_self, abs_zero]
    exact abs_nonneg _

theorem isShortest_shortest (hx : x.IsDouble) : IsShortest x (shortest x) := by
  unfold shortest
  split
  · exact isShortest_zero ‹_›
  · rename_i h
    obtain ⟨first, n, hfirst, hlast, hskip, hn, hresult⟩ :=
      shortestFrom_spec 17 1 (Dyadic.nearest?_grid_ne_none hx h)
        (by decide) (by decide)
    obtain ⟨hneighbour, hrounds, -⟩ := Dyadic.nearest?_eq_some_isNeighbour hn
    have hlength : (stripZeros 18 ⟨n, x.grid first⟩).length ≤ first := by
      have hdigits : n ≤ 10 ^ first := by
        have hbelow := Dyadic.below_grid_lt hx h first
        rcases hneighbour with rfl | rfl <;> omega
      rcases Nat.eq_or_lt_of_le hdigits with rfl | hlt
      · exact (length_stripZeros_pow (by omega) _).trans hfirst
      · exact (length_stripZeros_le _ _).trans ((length_le_iff hfirst).2 hlt)
    rw [hresult]
    refine ⟨?_, fun d' hd' => ?_, fun d' hd' hcount => ?_⟩
    · rw [value_stripZeros]
      exact hrounds
    · by_contra hlt
      obtain ⟨m, hm, -⟩ := exists_on_grid hx h hd' _ le_rfl
      have hnone := hskip d'.length d'.length_pos (by omega)
      exact Dyadic.nearest?_eq_none_iff.1 hnone m hm
    · obtain ⟨m, hm, hfar⟩ := exists_on_grid hx h hd' first (by omega)
      rw [value_stripZeros]
      exact (Dyadic.abs_le_of_nearest? hn hm).trans hfar

/-- The shortest decimal of a double is that of no other. -/
theorem eq_of_shortest_eq {y : Dyadic} (hx : x.IsDouble) (hy : y.IsDouble)
    (h : (shortest x).value = (shortest y).value) : x = y := by
  have hrounds := (isShortest_shortest hx).rounds
  rw [h] at hrounds
  exact Dyadic.eq_of_mem_interval hx hy hrounds (isShortest_shortest hy).rounds

end Decimal
end Criteria
