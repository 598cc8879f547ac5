import Groundwork.Proofs.Binary64
import Mathlib.Algebra.Order.Field.Power
import Mathlib.Data.List.TakeWhile
import Mathlib.Data.Rat.Cast.Order
import Mathlib.Tactic.FieldSimp
import Mathlib.Tactic.LinearCombination
import Mathlib.Tactic.NormNum
import Mathlib.Tactic.Positivity

set_option autoImplicit false

/- The shortest digits of a double. They are searched on grids of more and more digits, and what is
found on a grid lies in the rounding interval of the number; a grid of seventeen digits is finer
than every interval, so the search never ends without an answer. Hence the digits determine the
magnitude that they stand for. -/
namespace Groundwork.Decimal

/-- The number that digits spell. -/
def natValue (ds : List Nat) : Nat := ds.foldl (fun acc d => 10 * acc + d) 0

/-- The decimal fraction that digits behind a point stand for. -/
def Digits.value (d : Digits) : ℚ := natValue d.digits * 10 ^ (d.point - d.digits.length)

theorem natValue_concat (ds : List Nat) (d : Nat) : natValue (ds ++ [d]) = 10 * natValue ds + d :=
  List.foldl_concat _ _ _ _

theorem natValue_append (ds es : List Nat) :
    natValue (ds ++ es) = natValue ds * 10 ^ es.length + natValue es := by
  induction es using List.reverseRecOn with
  | nil => simp [natValue]
  | append_singleton es e ih =>
      rw [← List.append_assoc, natValue_concat, natValue_concat, ih, List.length_append,
        List.length_singleton]
      ring

theorem natValue_zeros (k : Nat) : natValue (List.replicate k 0) = 0 := by
  induction k with
  | zero => rfl
  | succ k ih => rw [List.replicate_succ', natValue_concat, ih]

theorem natValue_digitsOf (n : Nat) : natValue (digitsOf n) = n := by
  unfold natValue digitsOf
  rw [List.foldl_map]
  exact Nat.ofDigitChars_ten_toDigits

/-- Trailing zeros are all that is dropped. -/
theorem exists_trailing (ds : List Nat) : ∃ k, ds = dropTrailingZeros ds ++ List.replicate k 0 := by
  have zeros : ∀ d ∈ ds.reverse.takeWhile (· = 0), d = 0 :=
    fun d member => of_decide_eq_true (List.mem_takeWhile_imp (p := fun d => decide (d = 0)) member)
  refine ⟨(ds.reverse.takeWhile (· = 0)).length, ?_⟩
  rw [dropTrailingZeros, ← List.reverse_inj, List.reverse_append, List.reverse_reverse,
    List.reverse_replicate, ← List.eq_replicate_of_mem zeros, List.takeWhile_append_dropWhile]

theorem value_dropTrailingZeros (ds : List Nat) (point : ℤ) :
    Digits.value ⟨dropTrailingZeros ds, point⟩ = Digits.value ⟨ds, point⟩ := by
  obtain ⟨k, whole⟩ := exists_trailing ds
  unfold Digits.value
  dsimp only
  conv_rhs => rw [whole]
  rw [natValue_append, natValue_zeros, List.length_append, List.length_replicate, add_zero]
  have moved : (point - ((dropTrailingZeros ds).length + k : ℕ) : ℤ) =
      (point - (dropTrailingZeros ds).length) + -(k : ℤ) := by push_cast; ring
  rw [moved, zpow_add₀ (by norm_num), zpow_neg, zpow_natCast]
  push_cast
  field_simp

/-- The `n`-th point of the grid with so many decimal places, in units of `2 ^ -1076`. -/
def grid (n : Nat) (places : ℤ) : ℚ := n * 10 ^ (-places) * 2 ^ 1076

/-- Positive and negative exponents are kept apart on both sides of a comparison. -/
theorem pow_toNat (b : ℚ) (nonzero : b ≠ 0) (e : ℤ) :
    b ^ e.toNat = b ^ e * b ^ (-e).toNat := by
  rw [← zpow_natCast, ← zpow_natCast, ← zpow_add₀ nonzero]
  congr 1
  omega

namespace Binary64

variable (x : Binary64) (places : ℤ)

/-- With `down`, the quotient of a quarter of the last bit by the grid's step. -/
def up : Nat := x.quarter.1 * Nat.pow 10 places.toNat

def down : Nat := x.quarter.2 * Nat.pow 10 (-places).toNat

theorem up_pos : 0 < x.up places :=
  Nat.mul_pos (Nat.pow_pos (by decide)) (Nat.pow_pos (by decide))

theorem down_pos : 0 < x.down places :=
  Nat.mul_pos (Nat.pow_pos (by decide)) (Nat.pow_pos (by decide))

theorem quarter_eq : (x.quarter.1 : ℚ) = 2 ^ x.shift / 2 ^ 1076 * x.quarter.2 := by
  have split := pow_toNat 2 (by norm_num) ((x.shift : ℤ) - 1076)
  have power : (2 : ℚ) ^ ((x.shift : ℤ) - 1076) = 2 ^ x.shift / 2 ^ 1076 := by
    rw [zpow_sub₀ (by norm_num), zpow_natCast]
    rfl
  have first : (x.quarter.1 : ℚ) = 2 ^ ((x.shift : ℤ) - 1076).toNat := Nat.cast_pow 2 _
  have second : (x.quarter.2 : ℚ) = 2 ^ (-((x.shift : ℤ) - 1076)).toNat := Nat.cast_pow 2 _
  rw [first, second, split, power]

theorem grid_mul_up (n : Nat) :
    grid n places * x.up places = (n * x.down places : ℕ) * 2 ^ x.shift := by
  have split := pow_toNat 10 (by norm_num) places
  have cancel : (10 : ℚ) ^ (-places) * 10 ^ places = 1 := by
    rw [← zpow_add₀ (by norm_num), neg_add_cancel, zpow_zero]
  have tens : ((Nat.pow 10 places.toNat : ℕ) : ℚ) = 10 ^ places * 10 ^ (-places).toNat := by
    rw [← split]
    exact Nat.cast_pow 10 _
  have down : ((Nat.pow 10 (-places).toNat : ℕ) : ℚ) = 10 ^ (-places).toNat := Nat.cast_pow 10 _
  unfold grid up Binary64.down
  rw [Nat.cast_mul, Nat.cast_mul, Nat.cast_mul, tens, down, quarter_eq]
  have unit : (2 : ℚ) ^ 1076 ≠ 0 := by positivity
  field_simp
  linear_combination (n * x.quarter.2 : ℚ) * cancel

theorem scaled_mul_up (a : Nat) :
    ((a * 2 ^ x.shift : ℕ) : ℚ) * x.up places = (a * x.up places : ℕ) * 2 ^ x.shift := by
  push_cast
  ring

theorem le_grid_iff (a n : Nat) :
    ((a * 2 ^ x.shift : ℕ) : ℚ) ≤ grid n places ↔ a * x.up places ≤ n * x.down places := by
  have scale : (0 : ℚ) < x.up places := Nat.cast_pos.mpr (x.up_pos places)
  have unit : (0 : ℚ) < 2 ^ x.shift := by positivity
  rw [← mul_le_mul_iff_of_pos_right scale, grid_mul_up, scaled_mul_up,
    mul_le_mul_iff_of_pos_right unit, Nat.cast_le]

theorem grid_le_iff (a n : Nat) :
    grid n places ≤ ((a * 2 ^ x.shift : ℕ) : ℚ) ↔ n * x.down places ≤ a * x.up places := by
  have scale : (0 : ℚ) < x.up places := Nat.cast_pos.mpr (x.up_pos places)
  have unit : (0 : ℚ) < 2 ^ x.shift := by positivity
  rw [← mul_le_mul_iff_of_pos_right scale, grid_mul_up, scaled_mul_up,
    mul_le_mul_iff_of_pos_right unit, Nat.cast_le]

theorem lt_grid_iff (a n : Nat) :
    ((a * 2 ^ x.shift : ℕ) : ℚ) < grid n places ↔ a * x.up places < n * x.down places := by
  rw [← not_le, grid_le_iff, not_le]

theorem grid_lt_iff (a n : Nat) :
    grid n places < ((a * 2 ^ x.shift : ℕ) : ℚ) ↔ n * x.down places < a * x.up places := by
  rw [← not_le, le_grid_iff, not_le]

/-- What makes a grid point fit, in whole numbers. -/
theorem covers_grid_iff (n : Nat) : x.Covers (grid n places) ↔
    (if x.significand % 2 = 0 then
        decide (x.interval.1 * x.up places ≤ n * x.down places) &&
          decide (n * x.down places ≤ x.interval.2.2 * x.up places)
      else decide (x.interval.1 * x.up places < n * x.down places) &&
        decide (n * x.down places < x.interval.2.2 * x.up places)) = true := by
  unfold Covers lower upper
  rw [lt_grid_iff, grid_lt_iff, le_grid_iff, grid_le_iff]
  split
  · rename_i even
    simp only [even, true_and, Bool.and_eq_true, decide_eq_true_eq]
    exact ⟨fun inside => inside.elim (fun h => ⟨h.1.le, h.2.le⟩) id, .inr⟩
  · rename_i odd
    simp only [odd, false_and, or_false, Bool.and_eq_true, decide_eq_true_eq]

theorem neighbours_lower :
    (neighbours x places).lower = 4 * x.significand * x.up places / x.down places := rfl

theorem lowerFits_iff :
    (neighbours x places).lowerFits = true ↔ x.Covers (grid (neighbours x places).lower places) :=
  (x.covers_grid_iff places _).symm

theorem upperFits_iff : (neighbours x places).upperFits = true ↔
    x.Covers (grid ((neighbours x places).lower + 1) places) :=
  (x.covers_grid_iff places _).symm

/-- The two neighbours stand around the number. -/
theorem grid_lower_le : grid (neighbours x places).lower places ≤ x.middle := by
  unfold middle
  rw [grid_le_iff, neighbours_lower]
  exact Nat.div_mul_le_self _ _

theorem lt_grid_succ : (x.middle : ℚ) < grid ((neighbours x places).lower + 1) places := by
  unfold middle
  rw [lt_grid_iff, neighbours_lower, Nat.mul_comm _ (x.down places)]
  exact Nat.lt_mul_div_succ _ (x.down_pos places)

/-- What is chosen is one of the neighbours that fit. -/
theorem covers_of_choose {tie : Tie} {n : Nat} (chosen : choose tie (neighbours x places) = some n) :
    x.Covers (grid n places) := by
  unfold choose at chosen
  have low := (x.lowerFits_iff places).mp
  have high := (x.upperFits_iff places).mp
  split at chosen
  · cases chosen
  · cases chosen
    exact low ‹_›
  · cases chosen
    exact high ‹_›
  · have low := low ‹_›
    have high := high ‹_›
    split at chosen <;> cases chosen
    · exact low
    · exact high
    · exact high
    · rcases Nat.mod_two_eq_zero_or_one (neighbours x places).lower with even | odd
      · rwa [even]
      · rwa [odd]

theorem choose_eq_none_iff (tie : Tie) (n : Neighbours) :
    choose tie n = none ↔ n.lowerFits = false ∧ n.upperFits = false := by
  unfold choose
  split
  · simp_all
  · simp_all
  · simp_all
  · split <;> simp_all

theorem grid_succ (n : Nat) : grid (n + 1) places = grid n places + grid 1 places := by
  unfold grid
  rw [Nat.cast_add, add_mul, add_mul]

theorem middle_cast : (x.middle : ℚ) = 4 * (x.significand * 2 ^ x.shift) := by
  rw [middle]
  push_cast
  ring

theorem upper_cast : (x.upper : ℚ) = x.middle + 2 * 2 ^ x.shift := by
  rw [upper_eq, middle]
  push_cast
  ring

/-- The lower end is half as far away below a power of two only, where the significand is least. -/
theorem lower_cast {x : Binary64} (positive : x.significand ≠ 0) :
    (x.lower : ℚ) = x.middle - 2 * 2 ^ x.shift ∨
      ((x.lower : ℚ) = x.middle - 2 ^ x.shift ∧ x.significand = 4503599627370496) := by
  obtain ⟨below, ends, either⟩ := x.interval_eq
  rw [lower, ends, middle]
  rcases either with ⟨rfl, -⟩ | ⟨rfl, least, normal⟩
  · left
    push_cast [Nat.cast_sub (show 2 ≤ 4 * x.significand by omega)]
    ring
  · right
    refine ⟨?_, ?_⟩
    · push_cast [Nat.cast_sub (show 1 ≤ 4 * x.significand by omega)]
      ring
    · rw [significand, if_neg (by omega), least, fractionUnit_eq]

theorem lower_pos {x : Binary64} (positive : x.significand ≠ 0) : (0 : ℚ) < x.lower := by
  have unit : (0 : ℚ) < 2 ^ x.shift := by positivity
  have least : (1 : ℚ) * 2 ^ x.shift ≤ x.significand * 2 ^ x.shift := by
    have bound := Nat.one_le_iff_ne_zero.mpr positive
    gcongr
    exact_mod_cast bound
  have middle := x.middle_cast
  rcases lower_cast positive with lower | ⟨lower, -⟩ <;> linarith

/-- A grid finer than the interval has a point in it. -/
theorem exists_choice {x : Binary64} (positive : x.significand ≠ 0) (tie : Tie) (places : ℤ)
    (fine : grid 1 places * 10 ^ 16 ≤ x.middle) : choose tie (neighbours x places) ≠ none := by
  intro none
  obtain ⟨lowOut, highOut⟩ := (choose_eq_none_iff _ _).mp none
  have low : ¬ x.Covers (grid (neighbours x places).lower places) := by
    rw [← lowerFits_iff, lowOut]
    exact Bool.false_ne_true
  have high : ¬ x.Covers (grid ((neighbours x places).lower + 1) places) := by
    rw [← upperFits_iff, highOut]
    exact Bool.false_ne_true
  have beneath := x.grid_lower_le places
  have above := x.lt_grid_succ places
  rw [grid_succ] at high above
  generalize grid (neighbours x places).lower places = g at *
  generalize grid 1 places = step at *
  have unit : (0 : ℚ) < 2 ^ x.shift := by positivity
  have upper := x.upper_cast
  have middle := x.middle_cast
  have reach : (x.lower : ℚ) ≤ x.middle := Nat.cast_le.mpr x.lower_le_middle
  -- Both neighbours lie outside, so the interval is no wider than the step.
  have left : g ≤ x.lower := by
    by_contra inside
    exact low (.inl ⟨not_le.mp inside, by linarith⟩)
  have right : (x.upper : ℚ) ≤ g + step := by
    by_contra inside
    exact high (.inl ⟨by linarith, not_le.mp inside⟩)
  rcases lower_cast positive with lower | ⟨lower, least⟩
  · have greatest : (x.significand : ℚ) * 2 ^ x.shift ≤ 9007199254740991 * 2 ^ x.shift := by
      have bound := Nat.le_of_lt_succ x.significand_lt
      gcongr
      exact_mod_cast bound
    linarith
  · rw [least] at middle
    push_cast at middle
    linarith

end Binary64

/-- The search for the point keeps to a lower bound of the number. -/
theorem le_pointFrom (num den : Nat) : ∀ (fuel : Nat) (p : ℤ),
    (10 : ℚ) ^ (p - 1) * den ≤ num → (10 : ℚ) ^ (pointFrom num den fuel p - 1) * den ≤ num
  | 0, _, bound => bound
  | fuel + 1, p, bound => by
      rw [pointFrom]
      split
      · exact bound
      · rename_i reaches
        apply le_pointFrom num den fuel (p + 1)
        have reaches : (den : ℚ) * 10 ^ p.toNat ≤ num * 10 ^ (-p).toNat := by
          exact_mod_cast Nat.not_lt.mp reaches
        rw [pow_toNat 10 (by norm_num) p, ← mul_assoc] at reaches
        rw [add_sub_cancel_right, mul_comm]
        exact le_of_mul_le_mul_right reaches (by positivity)

/-- The place of the point in a number's digits. -/
def pointOf (x : Binary64) : ℤ :=
  pointFrom (4 * x.significand * x.quarter.1) x.quarter.2 640 (-330)

theorem shortest_of_nonzero {x : Binary64} (positive : x.significand ≠ 0) (tie : Tie) :
    shortest x tie = search x tie (pointOf x) 17 1 := by
  rw [shortest, if_neg]
  · rfl
  · simpa [Binary64.isZero] using positive

/-- The search starts beneath every number. -/
theorem start_le_middle {x : Binary64} (positive : x.significand ≠ 0) :
    2 ^ 1076 * (10 : ℚ) ^ (-330 - 1 : ℤ) ≤ x.middle := by
  have start : (2 : ℚ) ^ 1076 ≤ 4 * 10 ^ 331 := by
    exact_mod_cast (by decide +kernel : 2 ^ 1076 ≤ 4 * 10 ^ 331)
  have least : (1 : ℚ) ≤ x.significand * 2 ^ x.shift := by
    exact_mod_cast Nat.mul_pos (Nat.pos_of_ne_zero positive) (Nat.two_pow_pos x.shift)
  have exponent : (10 : ℚ) ^ (-330 - 1 : ℤ) = (10 ^ 331)⁻¹ := by
    rw [← zpow_natCast, ← zpow_neg]
    norm_num
  rw [exponent, ← div_eq_mul_inv, div_le_iff₀ (by positivity), x.middle_cast]
  have large : (0 : ℚ) < 10 ^ 331 := by positivity
  calc (2 : ℚ) ^ 1076 ≤ 4 * 10 ^ 331 := start
    _ = 4 * 1 * 10 ^ 331 := by rw [mul_one]
    _ ≤ 4 * (x.significand * 2 ^ x.shift) * 10 ^ 331 := by gcongr

theorem le_pointOf {x : Binary64} (positive : x.significand ≠ 0) :
    (10 : ℚ) ^ (pointOf x - 1) * 2 ^ 1076 ≤ x.middle := by
  have den : (0 : ℚ) < x.quarter.2 := by
    have : 0 < x.quarter.2 := Nat.pow_pos (by decide)
    exact_mod_cast this
  have ratio : (2 : ℚ) ^ 1076 * (4 * x.significand * x.quarter.1 : ℕ) = x.middle * x.quarter.2 := by
    have unit : (2 : ℚ) ^ 1076 ≠ 0 := by positivity
    rw [Nat.cast_mul, x.quarter_eq, x.middle_cast]
    push_cast
    field_simp
  have start : (10 : ℚ) ^ (-330 - 1 : ℤ) * x.quarter.2 ≤ (4 * x.significand * x.quarter.1 : ℕ) := by
    refine le_of_mul_le_mul_left ?_ (show (0 : ℚ) < 2 ^ 1076 by positivity)
    rw [ratio, ← mul_assoc]
    exact mul_le_mul_of_nonneg_right (start_le_middle positive) den.le
  have bound := le_pointFrom (4 * x.significand * x.quarter.1) x.quarter.2 640 (-330) start
  have scaled := mul_le_mul_of_nonneg_left bound (show (0 : ℚ) ≤ 2 ^ 1076 by positivity)
  rw [ratio, ← mul_assoc, mul_comm _ ((10 : ℚ) ^ _)] at scaled
  exact le_of_mul_le_mul_right scaled den

/-- What the digits of a grid point stand for. -/
theorem value_grid (n length : Nat) (point : ℤ) :
    Digits.value ⟨dropTrailingZeros (digitsOf n), point + ((digitsOf n).length - length)⟩ * 2 ^ 1076 =
      grid n (length - point) := by
  rw [value_dropTrailingZeros, Digits.value, natValue_digitsOf, grid]
  dsimp only
  congr 3
  ring

/-- Seventeen digits are finer than any interval. -/
theorem seventeen_places {x : Binary64} (positive : x.significand ≠ 0) {length : Nat}
    (seventeen : length = 17) : grid 1 (length - pointOf x) * 10 ^ 16 ≤ x.middle := by
  have step : grid 1 (length - pointOf x) * 10 ^ 16 = (10 : ℚ) ^ (pointOf x - 1) * 2 ^ 1076 := by
    have exponent : pointOf x - 1 = -((length : ℤ) - pointOf x) + (16 : ℕ) := by
      rw [seventeen]
      push_cast
      ring
    rw [exponent, zpow_add₀ (by norm_num), zpow_natCast, grid, Nat.cast_one, one_mul]
    exact mul_right_comm _ _ _
  rw [step]
  exact le_pointOf positive

/-- On every grid that the search stops at, what it takes lies in the rounding interval. -/
theorem covers_search {x : Binary64} (positive : x.significand ≠ 0) (tie : Tie) :
    ∀ fuel length : Nat, fuel + 1 + length = 18 →
      x.Covers ((search x tie (pointOf x) (fuel + 1) length).value * 2 ^ 1076)
  | fuel, length, total => by
      rw [search]
      split
      · rename_i n chosen
        rw [value_grid]
        exact x.covers_of_choose _ chosen
      · rename_i none
        cases fuel with
        | zero =>
            -- The last grid that is tried is fine enough to have a point in the interval.
            have seventeen : length = 17 := by omega
            have fine := seventeen_places positive seventeen
            exact absurd none (Binary64.exists_choice positive tie _ fine)
        | succ fuel => exact covers_search positive tie fuel (length + 1) (by omega)

/-- The shortest digits round to the number that they were made from. -/
theorem covers_shortest {x : Binary64} (positive : x.significand ≠ 0) (tie : Tie) :
    x.Covers ((shortest x tie).value * 2 ^ 1076) := by
  rw [shortest_of_nonzero positive]
  exact covers_search positive tie 16 1 rfl

theorem value_shortest_of_zero {x : Binary64} (zero : x.significand = 0) (tie : Tie) :
    (shortest x tie).value = 0 := by
  have isZero : x.isZero = true := decide_eq_true zero
  rw [shortest, if_pos isZero]
  exact zero_mul _

/-- Only zero has digits that stand for zero. -/
theorem value_shortest_pos {x : Binary64} (positive : x.significand ≠ 0) (tie : Tie) :
    0 < (shortest x tie).value := by
  have bound := (covers_shortest positive tie).bounds.1
  exact pos_of_mul_pos_left ((Binary64.lower_pos positive).trans_le bound) (by positivity)

/-- Digits that stand for the same come from the same magnitude. -/
theorem middle_eq_of_value_eq {x y : Binary64} {s t : Tie}
    (same : (shortest x s).value = (shortest y t).value) : x.middle = y.middle := by
  rcases eq_or_ne x.significand 0 with zero | positive
  · rcases eq_or_ne y.significand 0 with zero' | positive'
    · rw [Binary64.middle, Binary64.middle, zero, zero', Nat.mul_zero, Nat.zero_mul, Nat.zero_mul]
    · exact absurd (same ▸ value_shortest_of_zero zero s) (value_shortest_pos positive' t).ne'
  · rcases eq_or_ne y.significand 0 with zero' | positive'
    · exact absurd (same ▸ value_shortest_of_zero zero' t) (value_shortest_pos positive s).ne'
    · exact (covers_shortest positive s).unique (same ▸ covers_shortest positive' t)

theorem digitsOf_lt {n d : Nat} (member : d ∈ digitsOf n) : d < 10 := by
  obtain ⟨c, char, rfl⟩ := List.mem_map.mp member
  have digit : c.isDigit = true := Nat.isDigit_of_mem_toDigits (by decide) (by decide) char
  have bound : c.toNat ≤ 57 := (Char.isDigit_iff_toNat.mp digit).2
  omega

theorem mem_of_mem_dropTrailingZeros {ds : List Nat} {d : Nat} (member : d ∈ dropTrailingZeros ds) :
    d ∈ ds := by
  obtain ⟨k, whole⟩ := exists_trailing ds
  rw [whole]
  exact List.mem_append_left _ member

theorem digits_search_lt (x : Binary64) (tie : Tie) (point : ℤ) : ∀ (fuel length : Nat),
    ∀ d ∈ (search x tie point fuel length).digits, d < 10
  | 0, _, _, member => digitsOf_lt (mem_of_mem_dropTrailingZeros member)
  | fuel + 1, length, d, member => by
      rw [search] at member
      split at member
      · exact digitsOf_lt (mem_of_mem_dropTrailingZeros member)
      · exact digits_search_lt x tie point fuel (length + 1) d member

theorem digits_shortest_lt (x : Binary64) (tie : Tie) : ∀ d ∈ (shortest x tie).digits, d < 10 := by
  intro d member
  rw [shortest] at member
  split at member
  · rw [List.mem_singleton.mp member]
    decide
  · exact digits_search_lt _ _ _ _ _ d member

theorem digits_shortest_ne_nil (x : Binary64) (tie : Tie) : (shortest x tie).digits ≠ [] := by
  rcases eq_or_ne x.significand 0 with zero | positive
  · have isZero : x.isZero = true := decide_eq_true zero
    rw [shortest, if_pos isZero]
    exact List.cons_ne_nil _ _
  · intro none
    refine (value_shortest_pos positive tie).ne' ?_
    rw [Digits.value, none]
    exact zero_mul _

end Groundwork.Decimal
