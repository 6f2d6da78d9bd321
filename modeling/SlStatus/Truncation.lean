import SlStatus.BinaryFloat
import SlStatus.CpuUsage

/-! Quotients of integers that are converted to an integer, with and without rounding in between. -/

namespace SlStatus.Truncation
open BinaryFloat
open CpuUsage (truncate)

theorem truncate_of_pos {p : ℕ} (precise : 0 < p) {n m : ℤ} (bits : |n| < 2 ^ p) (positive : 0 < m) :
    truncate (nearest p ((n : ℚ) / m)) = truncate ((n : ℚ) / m) := by
  have sign := cmp_nearest_intCast (K := ℚ) precise positive bits 0
  rw [Int.cast_zero] at sign
  unfold truncate
  rw [floor_nearest precise positive bits, ceil_nearest precise positive bits]
  simp only [le_iff_le_of_cmp_eq_cmp (cmp_eq_cmp_symm.mp sign)]

/-- A quotient of integers is truncated as if it had not been rounded. -/
theorem truncate_nearest {p : ℕ} (precise : 0 < p) {n m : ℤ} (bits : |n| < 2 ^ p) (nonzero : m ≠ 0) :
    truncate (nearest p ((n : ℚ) / m)) = truncate ((n : ℚ) / m) := by
  rcases nonzero.lt_or_gt with negative | positive
  · have flipped := truncate_of_pos precise (by rwa [abs_neg] : |-n| < 2 ^ p) (by omega : 0 < -m)
    push_cast at flipped
    rwa [neg_div_neg_eq] at flipped
  · exact truncate_of_pos precise bits positive

theorem truncate_div (n : ℤ) {m : ℕ} (positive : 0 < m) : truncate ((n : ℚ) / m) = n.tdiv m := by
  have divisor : (0 : ℚ) < m := Nat.cast_pos.mpr positive
  have sign : 0 ≤ (n : ℚ) / m ↔ 0 ≤ n := by
    rw [le_div_iff₀ divisor, zero_mul]
    exact Int.cast_nonneg_iff
  unfold truncate
  simp only [sign]
  split_ifs with nonneg
  · rw [Rat.floor_intCast_div_natCast, Int.tdiv_eq_ediv_of_nonneg nonneg]
  · have flipped := Rat.floor_intCast_div_natCast (-n) m
    rw [Int.cast_neg, neg_div, Int.floor_neg, ← Int.tdiv_eq_ediv_of_nonneg (by omega), Int.neg_tdiv] at flipped
    exact neg_inj.mp flipped

end SlStatus.Truncation
