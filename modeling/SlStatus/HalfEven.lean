import Mathlib.Algebra.Order.Floor.Ring
import Mathlib.Algebra.Order.Ring.Abs
import Mathlib.Tactic.Linarith
import Mathlib.Tactic.Ring

/-! Rounding to the nearest integer, a tie to the even one, over any ordered field with floors. One
lemma says from where on an integer is reached; order, error and exactness follow from it. -/

namespace SlStatus.HalfEven

variable {K : Type*} [Field K] [LinearOrder K] [IsStrictOrderedRing K] [FloorRing K]

def halfEven (x : K) : ℤ :=
  if Int.fract x < 1 / 2 then ⌊x⌋
  else if 1 / 2 < Int.fract x then ⌊x⌋ + 1
  else if Even ⌊x⌋ then ⌊x⌋
  else ⌊x⌋ + 1

/-- An integer is reached from half below it on, at the tie itself only if it is even. -/
theorem le_halfEven_iff {x : K} {n : ℤ} : n ≤ halfEven x ↔ (n : K) - 1 / 2 < x ∨ x = (n : K) - 1 / 2 ∧ Even n := by
  have parts := Int.floor_add_fract x
  have nonneg := Int.fract_nonneg x
  have small := Int.fract_lt_one x
  have below (le : n ≤ ⌊x⌋) : (n : K) - 1 / 2 < x := by
    have cast : (n : K) ≤ ⌊x⌋ := Int.cast_le.mpr le
    linarith
  have beyond (le : ⌊x⌋ + 2 ≤ n) : x < (n : K) - 1 / 2 := by
    have cast : (⌊x⌋ : K) + 2 ≤ n := mod_cast le
    linarith
  -- only the integer next to the floor depends on the fraction
  rcases lt_trichotomy n (⌊x⌋ + 1) with le | rfl | ge
  · have reached := below (by omega)
    refine iff_of_true ?_ (.inl reached)
    unfold halfEven
    split_ifs <;> omega
  · have tie : ((⌊x⌋ + 1 : ℤ) : K) - 1 / 2 = ⌊x⌋ + 1 / 2 := by
      push_cast
      ring
    rw [tie, Int.even_add_one]
    unfold halfEven
    split_ifs with less more even
    · refine iff_of_false (by omega) ?_
      rintro (above | ⟨same, -⟩) <;> linarith
    · exact iff_of_true le_rfl (.inl (by linarith))
    · refine iff_of_false (by omega) ?_
      rintro (above | ⟨-, odd⟩)
      · linarith
      · exact odd even
    · exact iff_of_true le_rfl (.inr ⟨by linarith, even⟩)
  · have missed := beyond (by omega)
    refine iff_of_false ?_ ?_
    · unfold halfEven
      split_ifs <;> omega
    · rintro (above | ⟨same, -⟩) <;> linarith

theorem halfEven_mono {x y : K} (le : x ≤ y) : halfEven x ≤ halfEven y := by
  rw [le_halfEven_iff]
  rcases le_halfEven_iff.mp (le_refl (halfEven x)) with above | ⟨tie, even⟩
  · exact .inl (lt_of_lt_of_le above le)
  · rcases le.lt_or_eq with above | rfl
    · exact .inl (tie ▸ above)
    · exact .inr ⟨tie, even⟩

/-- Every integer is its own. -/
theorem halfEven_intCast (n : ℤ) : halfEven (n : K) = n := by
  unfold halfEven
  rw [Int.fract_intCast, if_pos (by norm_num), Int.floor_intCast]

theorem halfEven_le {x : K} {n : ℤ} (le : x ≤ n) : halfEven x ≤ n := by
  calc
    halfEven x ≤ halfEven (n : K) := halfEven_mono le
    _ = n := halfEven_intCast n

theorem le_halfEven {x : K} {n : ℤ} (le : n ≤ x) : n ≤ halfEven x := by
  calc
    n = halfEven (n : K) := (halfEven_intCast n).symm
    _ ≤ halfEven x := halfEven_mono le

theorem halfEven_error (x : K) : |halfEven x - x| ≤ 1 / 2 := by
  have lower : (halfEven x : K) - 1 / 2 ≤ x := by
    rcases le_halfEven_iff.mp (le_refl (halfEven x)) with above | ⟨tie, -⟩
    · exact above.le
    · exact tie.ge
  have upper : x ≤ halfEven x + 1 / 2 := by
    by_contra above
    have next : halfEven x + 1 ≤ halfEven x := by
      refine le_halfEven_iff.mpr (.inl ?_)
      push_cast
      linarith
    omega
  rw [abs_le]
  constructor <;> linarith

/-- A tie below an even integer goes up to it. -/
theorem halfEven_lt_iff {x : K} {n : ℤ} (even : Even n) : halfEven x < n ↔ x < n - 1 / 2 := by
  have reached : n ≤ halfEven x ↔ (n : K) - 1 / 2 ≤ x := by
    rw [le_halfEven_iff, and_iff_left even, le_iff_lt_or_eq, eq_comm (a := x)]
  exact lt_iff_lt_of_le_iff_le reached

end SlStatus.HalfEven
