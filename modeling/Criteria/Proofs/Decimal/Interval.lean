import Mathlib.Algebra.Order.Field.Power
import Mathlib.Algebra.Order.Group.Pointwise.Interval
import Mathlib.Order.Interval.Set.OrdConnected
import Mathlib.Tactic.Linarith
import Mathlib.Tactic.Positivity
import Mathlib.Tactic.Ring
import Mathlib.Data.Rat.Floor
import Criteria.Decimal.Shortest

/-!
# What rounds to a double

The rationals that round to a double form an interval around it.  The intervals of two doubles do
not meet, so no number rounds to both.
-/

namespace Criteria
namespace Dyadic

variable {x y : Dyadic} {q r : ℚ}

/-! ## Values -/

def value (x : Dyadic) : ℚ := x.mantissa * 2 ^ x.exponent

/-- A quarter of the distance to the next double. -/
def unit (x : Dyadic) : ℚ := 2 ^ (x.exponent - 2)

theorem unit_pos (x : Dyadic) : 0 < x.unit := zpow_pos (by norm_num) _

theorem value_eq (x : Dyadic) : x.value = (4 * x.mantissa : ℕ) * x.unit := by
  have hfour : (2 : ℚ) ^ x.exponent = 4 * 2 ^ (x.exponent - 2) := by
    rw [zpow_sub₀ (by norm_num)]
    norm_num
    ring
  rw [value, unit, hfour]
  push_cast
  ring

/-- The magnitudes that bits stand for. -/
structure IsDouble (x : Dyadic) : Prop where
  mantissa_lt : x.mantissa < 2 ^ 53
  le_exponent : -1074 ≤ x.exponent
  /-- Only the least doubles have leading zeros. -/
  le_mantissa : x.exponent ≠ -1074 → 2 ^ 52 ≤ x.mantissa

theorem isDouble_ofBits (bits : UInt64) : (ofBits bits).IsDouble := by
  unfold ofBits
  simp only [Nat.pow_eq]
  split
  · exact ⟨by dsimp only; omega, le_rfl, fun h => absurd rfl h⟩
  · exact ⟨by dsimp only; omega, by dsimp only; omega, fun _ => Nat.le_add_left _ _⟩

/-- Bits with one magnitude differ in nothing but the sign. -/
theorem mod_eq_of_ofBits_eq {a b : UInt64} (h : ofBits a = ofBits b) :
    a.toNat % 2 ^ 63 = b.toNat % 2 ^ 63 := by
  unfold ofBits at h
  simp only [Nat.pow_eq] at h
  split at h <;> split at h <;> rw [mk.injEq] at h <;> omega

/-! ## The interval -/

/-- The rationals that round to the double. -/
def interval (x : Dyadic) : Set ℚ :=
  if x.mantissa % 2 = 0 then Set.Icc (x.lower * x.unit) (x.upper * x.unit)
  else Set.Ioo (x.lower * x.unit) (x.upper * x.unit)

theorem interval_even (h : x.mantissa % 2 = 0) :
    x.interval = Set.Icc (x.lower * x.unit) (x.upper * x.unit) := if_pos h

theorem interval_odd (h : ¬ x.mantissa % 2 = 0) :
    x.interval = Set.Ioo (x.lower * x.unit) (x.upper * x.unit) := if_neg h

theorem Ioo_subset_interval (x : Dyadic) :
    Set.Ioo (x.lower * x.unit) (x.upper * x.unit) ⊆ x.interval := by
  by_cases h : x.mantissa % 2 = 0
  · rw [interval_even h]
    exact Set.Ioo_subset_Icc_self
  · rw [interval_odd h]

theorem interval_subset_Icc (x : Dyadic) :
    x.interval ⊆ Set.Icc (x.lower * x.unit) (x.upper * x.unit) := by
  by_cases h : x.mantissa % 2 = 0
  · rw [interval_even h]
  · rw [interval_odd h]
    exact Set.Ioo_subset_Icc_self

theorem ordConnected_interval (x : Dyadic) : x.interval.OrdConnected := by
  by_cases h : x.mantissa % 2 = 0
  · rw [interval_even h]
    exact Set.ordConnected_Icc
  · rw [interval_odd h]
    exact Set.ordConnected_Ioo

theorem lower_le (x : Dyadic) : x.lower ≤ 4 * x.mantissa := by
  unfold lower
  split <;> omega

theorem value_lt_upper (x : Dyadic) : x.value < x.upper * x.unit := by
  rw [value_eq]
  exact mul_lt_mul_of_pos_right (Nat.cast_lt.2 (Nat.lt_add_of_pos_right (by decide))) x.unit_pos

theorem lower_le_value (x : Dyadic) : x.lower * x.unit ≤ x.value := by
  rw [value_eq]
  exact mul_le_mul_of_nonneg_right (Nat.cast_le.2 x.lower_le) x.unit_pos.le

theorem value_mem_interval (x : Dyadic) : x.value ∈ x.interval := by
  by_cases h : x.mantissa % 2 = 0
  · rw [interval_even h]
    exact ⟨x.lower_le_value, x.value_lt_upper.le⟩
  · have hlower : x.lower < 4 * x.mantissa := by
      unfold lower
      split <;> omega
    refine x.Ioo_subset_interval ⟨?_, x.value_lt_upper⟩
    rw [value_eq]
    exact mul_lt_mul_of_pos_right (Nat.cast_lt.2 hlower) x.unit_pos

/-- What lies between the double and a number that rounds to it rounds to it too, and is no
farther from it. -/
theorem mem_interval_of_between (hq : q ∈ x.interval) (hr : r ∈ Set.uIcc q x.value) :
    r ∈ x.interval ∧ |x.value - r| ≤ |x.value - q| :=
  ⟨x.ordConnected_interval.uIcc_subset hq x.value_mem_interval hr,
    Set.abs_sub_right_of_mem_uIcc hr⟩

theorem pos_of_mem_interval (h : x.mantissa ≠ 0) (hq : q ∈ x.interval) : 0 < q := by
  have hlower : 0 < x.lower := by
    unfold lower
    split <;> omega
  have hunit := x.unit_pos
  exact lt_of_lt_of_le (by positivity) (x.interval_subset_Icc hq).1

/-! ## Different doubles -/

/-- The interval of the smaller of two doubles ends where that of the larger begins, or before.
Where they meet one of the doubles has an odd mantissa. -/
theorem upper_le_lower (hx : x.IsDouble) (hy : y.IsDouble)
    (h : x.exponent < y.exponent ∨ x.exponent = y.exponent ∧ x.mantissa < y.mantissa) :
    x.upper * x.unit ≤ y.lower * y.unit ∧
      (x.mantissa % 2 = 0 → y.mantissa % 2 = 0 → x.upper * x.unit < y.lower * y.unit) := by
  have hunit := x.unit_pos
  have hxm := hx.mantissa_lt
  rcases h with hexponent | ⟨hexponent, hmantissa⟩
  · have hxe := hx.le_exponent
    have hym := hy.le_mantissa (by omega)
    have hdouble : 2 * x.unit ≤ y.unit := by
      rw [unit, unit, ← zpow_one_add₀ (by norm_num)]
      exact zpow_le_zpow_right₀ (by norm_num) (by omega)
    have hscaled : ((2 * y.lower : ℕ) : ℚ) * x.unit ≤ y.lower * y.unit := by
      push_cast
      rw [mul_comm (2 : ℚ), mul_assoc]
      exact mul_le_mul_of_nonneg_left hdouble (Nat.cast_nonneg _)
    have hends : x.upper ≤ 2 * y.lower ∧
        (x.mantissa % 2 = 0 → y.mantissa % 2 = 0 → x.upper < 2 * y.lower) := by
      unfold upper lower
      simp only [Nat.pow_eq]
      split <;> omega
    refine ⟨le_trans ?_ hscaled, fun hxe hye => lt_of_lt_of_le ?_ hscaled⟩
    · exact mul_le_mul_of_nonneg_right (Nat.cast_le.2 hends.1) hunit.le
    · exact mul_lt_mul_of_pos_right (Nat.cast_lt.2 (hends.2 hxe hye)) hunit
  · have hunits : y.unit = x.unit := by rw [unit, unit, hexponent]
    have hends : x.upper ≤ y.lower ∧
        (x.mantissa % 2 = 0 → y.mantissa % 2 = 0 → x.upper < y.lower) := by
      unfold upper lower
      split <;> omega
    rw [hunits]
    refine ⟨?_, fun hxe hye => ?_⟩
    · exact mul_le_mul_of_nonneg_right (Nat.cast_le.2 hends.1) hunit.le
    · exact mul_lt_mul_of_pos_right (Nat.cast_lt.2 (hends.2 hxe hye)) hunit

theorem not_mem_interval_of_lt (hx : x.IsDouble) (hy : y.IsDouble)
    (h : x.exponent < y.exponent ∨ x.exponent = y.exponent ∧ x.mantissa < y.mantissa)
    (hqx : q ∈ x.interval) : q ∉ y.interval := by
  intro hqy
  obtain ⟨hle, hlt⟩ := upper_le_lower hx hy h
  have hupper := (x.interval_subset_Icc hqx).2
  have hlower := (y.interval_subset_Icc hqy).1
  by_cases hxe : x.mantissa % 2 = 0
  · by_cases hye : y.mantissa % 2 = 0
    · exact (hupper.trans_lt (hlt hxe hye)).not_ge hlower
    · rw [interval_odd hye] at hqy
      exact hqy.1.not_ge (hupper.trans hle)
  · rw [interval_odd hxe] at hqx
    exact hqx.2.not_ge (hle.trans hlower)

/-- No number rounds to two doubles. -/
theorem eq_of_mem_interval (hx : x.IsDouble) (hy : y.IsDouble) (hqx : q ∈ x.interval)
    (hqy : q ∈ y.interval) : x = y := by
  have hxy : ¬ (x.exponent < y.exponent ∨ x.exponent = y.exponent ∧ x.mantissa < y.mantissa) :=
    fun h => not_mem_interval_of_lt hx hy h hqx hqy
  have hyx : ¬ (y.exponent < x.exponent ∨ y.exponent = x.exponent ∧ y.mantissa < x.mantissa) :=
    fun h => not_mem_interval_of_lt hy hx h hqy hqx
  have hexponent : x.exponent = y.exponent := by omega
  have hmantissa : x.mantissa = y.mantissa := by omega
  cases x
  cases y
  cases hexponent
  cases hmantissa
  rfl

end Dyadic
end Criteria
