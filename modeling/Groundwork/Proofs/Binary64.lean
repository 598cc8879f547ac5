import Groundwork.Decimal.Shortest
import Mathlib.Data.Rat.Defs
import Mathlib.Algebra.Order.Ring.Rat
import Mathlib.Tactic.Linarith
import Mathlib.Tactic.Ring

set_option autoImplicit false

/- Rounding intervals of doubles. Magnitudes are counted in units of `2 ^ -1076`, a quarter of the
least one, so that the ends of every interval are whole numbers. Of two doubles of different
magnitude the intervals share at most one end, and then only one of the two includes it: no real
number rounds to both. -/
namespace Groundwork.Decimal.Binary64

theorem fractionUnit_eq : fractionUnit = 4503599627370496 := by decide

theorem fraction_lt (x : Binary64) : x.fraction < 4503599627370496 := by
  rw [← fractionUnit_eq]
  exact Nat.mod_lt _ (by decide)

theorem significand_lt (x : Binary64) : x.significand < 9007199254740992 := by
  have below := x.fraction_lt
  have unit := fractionUnit_eq
  unfold significand
  split <;> omega

/-- Numbers that are not among the least ones have a leading bit. -/
theorem significand_of_shift {x : Binary64} (shifted : 0 < x.shift) :
    x.significand = 4503599627370496 + x.fraction ∧ 1 < x.exponentField := by
  unfold shift at shifted
  have unit := fractionUnit_eq
  unfold significand
  split <;> omega

/-- The magnitude in units of `2 ^ -1076`. -/
def middle (x : Binary64) : Nat := 4 * x.significand * 2 ^ x.shift

def lower (x : Binary64) : Nat := x.interval.1 * 2 ^ x.shift

def upper (x : Binary64) : Nat := x.interval.2.2 * 2 ^ x.shift

/-- Whether a magnitude rounds to the number: the ends belong to even significands. -/
def Covers (x : Binary64) (q : ℚ) : Prop :=
  (x.lower < q ∧ q < x.upper) ∨ (x.significand % 2 = 0 ∧ x.lower ≤ q ∧ q ≤ x.upper)

/-- The lower end is nearer below a power of two. -/
theorem interval_eq (x : Binary64) :
    ∃ below, x.interval = (4 * x.significand - below, 4 * x.significand, 4 * x.significand + 2) ∧
      (below = 2 ∧ ¬ (x.fraction = 0 ∧ 1 < x.exponentField) ∨
        below = 1 ∧ x.fraction = 0 ∧ 1 < x.exponentField) := by
  refine ⟨_, rfl, ?_⟩
  split
  · exact .inr ⟨rfl, ‹_›⟩
  · exact .inl ⟨rfl, ‹_›⟩

theorem lower_le_middle (x : Binary64) : x.lower ≤ x.middle := by
  unfold lower middle
  apply Nat.mul_le_mul_right
  obtain ⟨below, ends, -⟩ := x.interval_eq
  rw [ends]
  exact Nat.sub_le _ _

theorem upper_eq (x : Binary64) : x.upper = (4 * x.significand + 2) * 2 ^ x.shift := by
  unfold upper
  obtain ⟨below, ends, -⟩ := x.interval_eq
  rw [ends]

/-- Between numbers of the same exponent the ends meet halfway. -/
theorem apart_of_shift_eq {x y : Binary64} (same : x.shift = y.shift)
    (less : x.significand < y.significand) : x.upper < y.lower ∨
      (x.upper = y.lower ∧ (x.significand % 2 = 1 ∨ y.significand % 2 = 1)) := by
  rw [upper_eq, lower, same]
  have positive : 0 < 2 ^ y.shift := Nat.two_pow_pos _
  have ends : 4 * x.significand + 2 < y.interval.1 ∨ (4 * x.significand + 2 = y.interval.1 ∧
      (x.significand % 2 = 1 ∨ y.significand % 2 = 1)) := by
    obtain ⟨below, ends, either⟩ := y.interval_eq
    rw [ends]
    dsimp only
    omega
  rcases ends with below | ⟨meet, odd⟩
  · exact .inl (Nat.mul_lt_mul_of_pos_right below positive)
  · exact .inr ⟨by rw [meet], odd⟩

/-- The greatest number of one exponent, an odd one, and the least of the next one may meet too. -/
theorem apart_of_shift_lt {x y : Binary64} (less : x.shift < y.shift) : x.upper < y.lower ∨
      (x.upper = y.lower ∧ (x.significand % 2 = 1 ∨ y.significand % 2 = 1)) := by
  obtain ⟨k, steps⟩ := Nat.exists_eq_add_of_lt less
  obtain ⟨leading, large⟩ := significand_of_shift (Nat.zero_lt_of_lt less)
  have greatest := x.significand_lt
  have least : 18014398509481983 ≤ y.interval.1 := by
    obtain ⟨below, ends, either⟩ := y.interval_eq
    rw [ends]
    dsimp only
    omega
  have grows : y.interval.1 * 2 ≤ y.interval.1 * (2 * 2 ^ k) :=
    Nat.mul_le_mul_left _ (Nat.le_mul_of_pos_right 2 (Nat.two_pow_pos k))
  have split : y.lower = y.interval.1 * (2 * 2 ^ k) * 2 ^ x.shift := by
    rw [lower, steps]
    ring
  rw [upper_eq, split]
  have reaches : 4 * x.significand + 2 ≤ y.interval.1 * (2 * 2 ^ k) := by omega
  rcases Nat.lt_or_eq_of_le reaches with below | meet
  · exact .inl (Nat.mul_lt_mul_of_pos_right below (Nat.two_pow_pos _))
  · exact .inr ⟨by rw [meet], .inl (by omega)⟩

theorem middle_lt_of_shift_lt {x y : Binary64} (less : x.shift < y.shift) : x.middle < y.middle := by
  obtain ⟨k, steps⟩ := Nat.exists_eq_add_of_lt less
  obtain ⟨leading, -⟩ := significand_of_shift (Nat.zero_lt_of_lt less)
  have greatest := x.significand_lt
  have grows : y.significand * 2 ≤ y.significand * (2 * 2 ^ k) :=
    Nat.mul_le_mul_left _ (Nat.le_mul_of_pos_right 2 (Nat.two_pow_pos k))
  have split : y.middle = 4 * (y.significand * (2 * 2 ^ k)) * 2 ^ x.shift := by
    rw [middle, steps]
    ring
  rw [split, middle]
  exact Nat.mul_lt_mul_of_pos_right (by omega) (Nat.two_pow_pos _)

/-- Of two magnitudes the less one's interval ends where the greater one's begins, or before. -/
theorem apart_of_middle_lt {x y : Binary64} (less : x.middle < y.middle) : x.upper < y.lower ∨
      (x.upper = y.lower ∧ (x.significand % 2 = 1 ∨ y.significand % 2 = 1)) := by
  rcases Nat.lt_trichotomy x.shift y.shift with lower | same | higher
  · exact apart_of_shift_lt lower
  · refine apart_of_shift_eq same ?_
    unfold middle at less
    rw [same] at less
    have less := Nat.lt_of_mul_lt_mul_right less
    omega
  · exact absurd (middle_lt_of_shift_lt higher) (Nat.lt_asymm less)

theorem Covers.bounds {x : Binary64} {q : ℚ} (covers : x.Covers q) : x.lower ≤ q ∧ q ≤ x.upper := by
  rcases covers with ⟨above, below⟩ | ⟨-, above, below⟩
  · exact ⟨above.le, below.le⟩
  · exact ⟨above, below⟩

theorem Covers.inside {x : Binary64} {q : ℚ} (covers : x.Covers q) (odd : x.significand % 2 = 1) :
    x.lower < q ∧ q < x.upper := by
  rcases covers with inside | ⟨even, -⟩
  · exact inside
  · omega

theorem Covers.not_lt {x y : Binary64} {q : ℚ} (first : x.Covers q) (second : y.Covers q) :
    ¬ x.middle < y.middle := by
  intro less
  have ends : (y.lower : ℚ) ≤ x.upper := second.bounds.1.trans first.bounds.2
  rcases apart_of_middle_lt less with below | ⟨meet, odd⟩
  · exact absurd (Nat.cast_le.mp ends) (Nat.not_le.mpr below)
  · have touch : (x.upper : ℚ) = y.lower := congrArg Nat.cast meet
    rcases odd with odd | odd
    · linarith [(first.inside odd).2, second.bounds.1]
    · linarith [(second.inside odd).1, first.bounds.2]

/-- No magnitude rounds to two numbers of different magnitude. -/
theorem Covers.unique {x y : Binary64} {q : ℚ} (first : x.Covers q) (second : y.Covers q) :
    x.middle = y.middle :=
  Nat.le_antisymm (Nat.not_lt.mp (second.not_lt first)) (Nat.not_lt.mp (first.not_lt second))

theorem units_eq (x : Binary64) :
    4 * x.units = if x.negative then -(x.middle : ℤ) else (x.middle : ℤ) := by
  unfold units middle
  have power : Nat.pow 2 x.shift = 2 ^ x.shift := rfl
  rw [power]
  split <;> push_cast <;> ring

end Groundwork.Decimal.Binary64
