import Mathlib.Data.Int.Log
import Mathlib.Tactic.FieldSimp
import SlStatus.HalfEven

/-! Rounding to a number of significant bits, a tie to the even neighbour, over any ordered field with
floors. The exponent is not bounded: the results hold of a format as long as its numbers neither overflow nor
become subnormal. Where a quotient of integers lies is still seen in the rounded one, if the integers are small. -/

namespace SlStatus.BinaryFloat
open HalfEven

variable {K : Type*} [Field K]

/-- An integer of `p` bits times a power of two. -/
def Representable (p : ℕ) (x : K) : Prop := ∃ m e : ℤ, |m| < 2 ^ p ∧ x = m * ((2 : ℕ) : K) ^ e

section Representation

variable {p : ℕ}

theorem representable_iff {x : K} : Representable p x ↔ ∃ m e : ℤ, |m| < 2 ^ p ∧ x = m * 2 ^ e := by
  rw [Representable, Nat.cast_ofNat]

theorem representable_intCast {n : ℤ} (bits : |n| < 2 ^ p) : Representable p (n : K) :=
  ⟨n, 0, bits, by rw [zpow_zero, mul_one]⟩

theorem representable_zpow (positive : 0 < p) (e : ℤ) : Representable p ((2 : K) ^ e) := by
  have bits : (1 : ℤ) < 2 ^ p := one_lt_pow₀ one_lt_two positive.ne'
  exact representable_iff.mpr ⟨1, e, by simpa using bits, by rw [Int.cast_one, one_mul]⟩

theorem Representable.neg {x : K} (representable : Representable p x) : Representable p (-x) := by
  obtain ⟨m, e, bits, rfl⟩ := representable
  exact ⟨-m, e, by rwa [abs_neg], by rw [Int.cast_neg, neg_mul]⟩

theorem Representable.mul_zpow [NeZero (2 : K)] {x : K} (representable : Representable p x) (e : ℤ) :
    Representable p (x * 2 ^ e) := by
  obtain ⟨m, f, bits, rfl⟩ := representable_iff.mp representable
  exact representable_iff.mpr ⟨m, f + e, bits, by rw [mul_assoc, ← zpow_add₀ two_ne_zero]⟩

end Representation

variable [LinearOrder K] [IsStrictOrderedRing K] [FloorRing K]

/-- How far apart the neighbours of a number are. -/
def spacing (p : ℕ) (x : K) : K := ((2 : ℕ) : K) ^ (Int.log 2 |x| + 1 - p)

def nearest (p : ℕ) (x : K) : K := halfEven (x / spacing p x) * spacing p x

/-- The format of 64 bits. -/
abbrev double (x : K) : K := nearest 53 x

section Spacing

variable {p : ℕ} {x y : K}

theorem spacing_eq_and_pos (p : ℕ) (x : K) : spacing p x = 2 ^ (Int.log 2 |x| + 1 - p) ∧ 0 < spacing p x := by
  have same : spacing p x = 2 ^ (Int.log 2 |x| + 1 - p) := by rw [spacing, Nat.cast_ofNat]
  exact ⟨same, same ▸ zpow_pos two_pos _⟩

theorem spacing_eq (p : ℕ) (x : K) : spacing p x = 2 ^ (Int.log 2 |x| + 1 - p) := (spacing_eq_and_pos p x).1

theorem spacing_pos (p : ℕ) (x : K) : 0 < spacing p x := (spacing_eq_and_pos p x).2

theorem spacing_mul (p : ℕ) (x : K) : spacing p x * 2 ^ p = 2 ^ (Int.log 2 |x| + 1) := by
  rw [spacing_eq, ← zpow_natCast, ← zpow_add₀ two_ne_zero, sub_add_cancel]

/-- The power of two that a number begins with. -/
theorem log_le (nonzero : x ≠ 0) : (2 : K) ^ Int.log 2 |x| ≤ |x| := by
  have log := Int.zpow_log_le_self (b := 2) one_lt_two (abs_pos.mpr nonzero)
  exact_mod_cast log

theorem lt_log (x : K) : |x| < (2 : K) ^ (Int.log 2 |x| + 1) := by
  have log := Int.lt_zpow_succ_log_self (b := 2) one_lt_two |x|
  exact_mod_cast log

theorem spacing_mul_le (nonzero : x ≠ 0) : spacing p x * 2 ^ p ≤ 2 * |x| := by
  rw [spacing_mul, zpow_add_one₀ two_ne_zero, mul_comm]
  exact mul_le_mul_of_nonneg_left (log_le nonzero) zero_le_two

/-- In its own binade or above, a number is a multiple of the spacing. -/
theorem exists_multiple (representable : Representable p y) (large : (2 : K) ^ Int.log 2 |x| ≤ |y|) :
    ∃ n : ℤ, y = n * spacing p x := by
  obtain ⟨m, e, bits, rfl⟩ := representable_iff.mp representable
  have exponent : Int.log 2 |x| + 1 - p ≤ e := by
    by_contra small
    have power : (2 : K) ^ p * 2 ^ e ≤ 2 ^ Int.log 2 |x| := by
      rw [← zpow_natCast, ← zpow_add₀ two_ne_zero]
      exact zpow_le_zpow_right₀ one_le_two (by omega)
    have cast : |(m : K)| < 2 ^ p := by exact_mod_cast bits
    have below : |(m : K) * 2 ^ e| < 2 ^ p * 2 ^ e := by
      rw [abs_mul, abs_of_pos (zpow_pos two_pos e : (0 : K) < 2 ^ e)]
      exact mul_lt_mul_of_pos_right cast (zpow_pos two_pos e)
    linarith
  refine ⟨m * 2 ^ (e - (Int.log 2 |x| + 1 - p)).toNat, ?_⟩
  push_cast
  rw [spacing_eq, mul_assoc, ← zpow_natCast, ← zpow_add₀ two_ne_zero]
  congr 2
  omega

end Spacing

section Nearest

variable {p : ℕ} {x y : K}

theorem nearest_error (p : ℕ) (x : K) : |nearest p x - x| ≤ spacing p x / 2 := by
  have positive := spacing_pos p x
  have scaled : nearest p x - x = (halfEven (x / spacing p x) - x / spacing p x) * spacing p x := by
    rw [nearest, sub_mul, div_mul_cancel₀ x positive.ne']
  rw [scaled, abs_mul, abs_of_pos positive]
  calc
    _ ≤ 1 / 2 * spacing p x := mul_le_mul_of_nonneg_right (halfEven_error _) positive.le
    _ = spacing p x / 2 := by ring

@[simp] theorem nearest_zero (p : ℕ) : nearest p (0 : K) = 0 := by
  have zero : halfEven (0 : K) = 0 := by exact_mod_cast halfEven_intCast (K := K) 0
  rw [nearest, zero_div, zero, Int.cast_zero, zero_mul]

/-- The relative error. -/
theorem nearest_relative (p : ℕ) (x : K) : |nearest p x - x| ≤ |x| / 2 ^ p := by
  rcases eq_or_ne x 0 with rfl | nonzero
  · simp
  have bits : (0 : K) < 2 ^ p := pow_pos two_pos p
  have spacing := spacing_mul_le (p := p) nonzero
  rw [le_div_iff₀ bits]
  calc
    |nearest p x - x| * 2 ^ p ≤ BinaryFloat.spacing p x / 2 * 2 ^ p :=
      mul_le_mul_of_nonneg_right (nearest_error p x) bits.le
    _ = BinaryFloat.spacing p x * 2 ^ p / 2 := by ring
    _ ≤ |x| := by linarith

/-- A number that can be represented is not overtaken. -/
theorem le_nearest (positive : 0 < p) (representable : Representable p y) (le : y ≤ x) : y ≤ nearest p x := by
  have apart := spacing_pos p x
  have reached {z : K} (multiple : Representable p z) (large : (2 : K) ^ Int.log 2 |x| ≤ |z|) (le : z ≤ x) :
      z ≤ nearest p x := by
    obtain ⟨n, rfl⟩ := exists_multiple multiple large
    have quotient : (n : K) ≤ x / spacing p x := (le_div_iff₀ apart).mpr le
    have rounded : (n : K) ≤ halfEven (x / spacing p x) := Int.cast_le.mpr (le_halfEven quotient)
    exact mul_le_mul_of_nonneg_right rounded apart.le
  rcases le_or_gt ((2 : K) ^ Int.log 2 |x|) |y| with large | small
  · exact reached representable large le
  · -- the power of two is between the numbers, or they are both negative and the wrong way round
    rcases lt_trichotomy x 0 with negative | rfl | above
    · have log := log_le negative.ne
      rw [abs_of_neg negative] at log small
      rw [abs_of_neg (le.trans_lt negative)] at small
      linarith
    · rw [nearest_zero]
      exact le
    · have log := log_le above.ne'
      rw [abs_of_pos above] at log
      have power := reached (representable_zpow positive _) (le_abs_self _) (by rwa [abs_of_pos above])
      linarith [le_abs_self y]

theorem nearest_le (positive : 0 < p) (representable : Representable p y) (le : x ≤ y) : nearest p x ≤ y := by
  have apart := spacing_pos p x
  have reached {z : K} (multiple : Representable p z) (large : (2 : K) ^ Int.log 2 |x| ≤ |z|) (le : x ≤ z) :
      nearest p x ≤ z := by
    obtain ⟨n, rfl⟩ := exists_multiple multiple large
    have quotient : x / spacing p x ≤ n := (div_le_iff₀ apart).mpr le
    have rounded : (halfEven (x / spacing p x) : K) ≤ n := Int.cast_le.mpr (halfEven_le quotient)
    exact mul_le_mul_of_nonneg_right rounded apart.le
  rcases le_or_gt ((2 : K) ^ Int.log 2 |x|) |y| with large | small
  · exact reached representable large le
  · rcases lt_trichotomy x 0 with below | rfl | above
    · have log := log_le below.ne
      rw [abs_of_neg below] at log
      have power := reached (representable_zpow positive (Int.log 2 |x|)).neg
        (by rw [abs_neg]; exact le_abs_self _) (by rw [abs_of_neg below]; linarith)
      linarith [neg_abs_le y]
    · rw [nearest_zero]
      exact le
    · have log := log_le above.ne'
      rw [abs_of_pos above] at log small
      rw [abs_of_pos (above.trans_le le)] at small
      linarith

theorem nearest_nonneg (positive : 0 < p) (nonneg : 0 ≤ x) : 0 ≤ nearest p x := by
  have zero := representable_intCast (K := K) (p := p) (n := 0) (by simp)
  rw [Int.cast_zero] at zero
  exact le_nearest positive zero nonneg

theorem nearest_of_representable (positive : 0 < p) (representable : Representable p x) : nearest p x = x :=
  le_antisymm (nearest_le positive representable le_rfl) (le_nearest positive representable le_rfl)

theorem nearest_intCast {n : ℤ} (bits : |n| < 2 ^ p) : nearest p (n : K) = n := by
  rcases Nat.eq_zero_or_pos p with rfl | positive
  · obtain rfl : n = 0 := Int.abs_lt_one_iff.mp bits
    simp
  · exact nearest_of_representable positive (representable_intCast bits)

/-- Numbers of 53 bits are converted exactly. -/
theorem double_natCast {n : ℕ} (bits : n < 2 ^ 53) : double (n : K) = n := by
  have exact := nearest_intCast (K := K) (p := 53) (n := n) (by rw [Nat.abs_cast]; exact_mod_cast bits)
  rwa [Int.cast_natCast] at exact

/-- An integer is rounded to an integer. -/
theorem exists_nearest_intCast (p : ℕ) (n : ℤ) : ∃ m : ℤ, nearest p (n : K) = m := by
  rcases lt_or_ge |n| (2 ^ p) with small | large
  · exact ⟨n, nearest_intCast small⟩
  · have magnitude : (2 : K) ^ (p : ℤ) ≤ |(n : K)| := by
      rw [zpow_natCast]
      exact_mod_cast large
    have exponent : (p : ℤ) ≤ Int.log 2 |(n : K)| := by
      have positive : 0 < |(n : K)| := (zpow_pos two_pos _).trans_le magnitude
      exact (Int.zpow_le_iff_le_log one_lt_two positive).mp (by exact_mod_cast magnitude)
    refine ⟨halfEven ((n : K) / spacing p (n : K)) * 2 ^ (Int.log 2 |(n : K)| + 1 - p).toNat, ?_⟩
    rw [nearest, Int.cast_mul, Int.cast_pow, Int.cast_ofNat, ← zpow_natCast, Int.toNat_of_nonneg (by omega),
      ← spacing_eq]

theorem abs_halfEven_le {n : ℤ} (le : |x| ≤ n) : |halfEven x| ≤ n := by
  obtain ⟨low, high⟩ := abs_le.mp le
  exact abs_le.mpr ⟨le_halfEven (by push_cast; exact low), halfEven_le high⟩

theorem representable_nearest (positive : 0 < p) (x : K) : Representable p (nearest p x) := by
  have bits : |halfEven (x / spacing p x)| ≤ 2 ^ p := by
    have quotient : |x / spacing p x| ≤ ((2 ^ p : ℤ) : K) := by
      rw [abs_div, abs_of_pos (spacing_pos p x), div_le_iff₀ (spacing_pos p x)]
      push_cast
      rw [mul_comm, spacing_mul]
      exact (lt_log x).le
    exact abs_halfEven_le quotient
  rcases bits.lt_or_eq with less | carried
  · exact ⟨_, _, less, rfl⟩
  · -- the mantissa has become a power of two
    have power : ((2 : K) ^ p) * spacing p x = 2 ^ (Int.log 2 |x| + 1) := by rw [mul_comm, spacing_mul]
    rcases abs_eq (by positivity) |>.mp carried with same | same
    · rw [nearest, same]
      push_cast
      rw [power]
      exact representable_zpow positive _
    · rw [nearest, same]
      push_cast
      rw [neg_mul, power]
      exact (representable_zpow positive _).neg

/-- What is left of a representable number below the point is representable. -/
theorem Representable.fract (representable : Representable p x) (nonneg : 0 ≤ x) : Representable p (Int.fract x) := by
  obtain ⟨m, e, bits, rfl⟩ := representable_iff.mp representable
  have power : (0 : K) < 2 ^ e := zpow_pos two_pos e
  have natural : 0 ≤ m := by
    have cast : (0 : K) ≤ m := nonneg_of_mul_nonneg_left nonneg power
    exact_mod_cast cast
  lift m to ℕ using natural
  obtain ⟨k, rfl | rfl⟩ := e.eq_nat_or_neg
  · have whole : ((m : ℤ) : K) * 2 ^ (k : ℤ) = ((m * 2 ^ k : ℕ) : K) := by
      rw [zpow_natCast]
      push_cast
      rfl
    rw [whole, Int.fract_natCast]
    exact_mod_cast representable_intCast (K := K) (n := 0) (by positivity)
  · have quotient : ((m : ℤ) : K) * 2 ^ (-(k : ℤ)) = (m : K) / (2 ^ k : ℕ) := by
      rw [zpow_neg, zpow_natCast, ← div_eq_mul_inv]
      push_cast
      rfl
    rw [quotient, Int.fract_div_natCast_eq_div_natCast_mod]
    have smaller : ((m % 2 ^ k : ℕ) : ℤ) ≤ m := by exact_mod_cast Nat.mod_le m (2 ^ k)
    refine representable_iff.mpr ⟨(m % 2 ^ k : ℕ), -k, ?_, ?_⟩
    · rw [abs_of_nonneg (Int.natCast_nonneg _)]
      rw [abs_of_nonneg (Int.natCast_nonneg _)] at bits
      exact smaller.trans_lt bits
    · rw [zpow_neg, zpow_natCast, ← div_eq_mul_inv]
      rw [Int.cast_natCast, Nat.cast_pow, Nat.cast_ofNat]

end Nearest

section Ties

variable {x y : K}

/-- If the second number is on the side of each tie that the first is on, both are rounded to the same integer, or the
first is a tie and they go different ways. -/
theorem halfEven_of_sameSide (sides : ∀ n : ℤ, (x < n - 1 / 2 → y < n - 1 / 2) ∧ (n - 1 / 2 < x → n - 1 / 2 < y)) :
    halfEven y = halfEven x ∨ ∃ k : ℤ, x = k - 1 / 2 ∧
      (halfEven x = k - 1 ∧ halfEven y = k ∨ halfEven x = k ∧ halfEven y = k - 1) := by
  by_cases tie : ∃ k : ℤ, x = k - 1 / 2
  · obtain ⟨k, same⟩ := tie
    have between {z : K} (side : ∀ n : ℤ, (x < n - 1 / 2 → z < n - 1 / 2) ∧ (n - 1 / 2 < x → n - 1 / 2 < z)) :
        halfEven z = k - 1 ∨ halfEven z = k := by
      have low : k - 1 ≤ halfEven z := by
        apply le_halfEven_iff.mpr
        left
        apply (side (k - 1)).2
        push_cast
        linarith
      have high : ¬k + 1 ≤ halfEven z := by
        have less : z < ((k + 1 : ℤ) : K) - 1 / 2 := by
          apply (side (k + 1)).1
          push_cast
          linarith
        rw [le_halfEven_iff, not_or]
        exact ⟨less.le.not_gt, fun equal => absurd equal.1 less.ne⟩
      omega
    have first := between (z := x) fun n => ⟨id, id⟩
    have second := between sides
    rcases first with one | one <;> rcases second with other | other
    · exact .inl (other.trans one.symm)
    · exact .inr ⟨k, same, .inl ⟨one, other⟩⟩
    · exact .inr ⟨k, same, .inr ⟨one, other⟩⟩
    · exact .inl (other.trans one.symm)
  · left
    apply eq_of_forall_le_iff
    intro n
    rw [le_halfEven_iff, le_halfEven_iff]
    rcases lt_trichotomy x (n - 1 / 2) with less | equal | greater
    · have other := (sides n).1 less
      constructor
      · rintro (above | ⟨same, -⟩) <;> linarith
      · rintro (above | ⟨same, -⟩) <;> linarith
    · exact absurd ⟨n, equal⟩ tie
    · exact iff_of_true (.inl ((sides n).2 greater)) (.inl greater)

end Ties

section Quotient

variable {p : ℕ} {a b j d : ℤ} {x : K}

/-- Two quotients are a multiple of this apart. -/
theorem quotient_gap (positive : 0 < b) (denominator : 0 < d) (less : (a : K) / b < j / d) :
    1 ≤ ((j : K) / d - a / b) * (b * d) := by
  have left : (0 : K) < b := Int.cast_pos.mpr positive
  have right : (0 : K) < d := Int.cast_pos.mpr denominator
  have cross : a * d < j * b := by
    rw [div_lt_div_iff₀ left right] at less
    exact_mod_cast less
  have gap : (1 : K) ≤ j * b - a * d := by
    have step : 1 ≤ j * b - a * d := by omega
    exact_mod_cast step
  calc
    (1 : K) ≤ j * b - a * d := gap
    _ = ((j : K) / d - a / b) * (b * d) := by field_simp

/-- What lies closer to a quotient than that is on the same side of the other. -/
theorem lt_of_near (positive : 0 < b) (denominator : 0 < d) (near : |x - a / b| * (b * d) < 1)
    (less : (a : K) / b < j / d) : x < j / d := by
  have product : (0 : K) < b * d := by exact_mod_cast mul_pos positive denominator
  have gap := quotient_gap positive denominator less
  have closer := lt_of_mul_lt_mul_right (near.trans_le gap) product.le
  linarith [le_abs_self (x - a / b)]

theorem gt_of_near (positive : 0 < b) (denominator : 0 < d) (near : |x - a / b| * (b * d) < 1)
    (less : (j : K) / d < a / b) : j / d < x := by
  have product : (0 : K) < b * d := by exact_mod_cast mul_pos positive denominator
  have gap := quotient_gap denominator positive less
  rw [mul_comm (d : K)] at gap
  have closer := lt_of_mul_lt_mul_right (near.trans_le gap) product.le
  linarith [neg_abs_le (x - a / b)]

/-- What lies close to a quotient of natural numbers has its integer part, or just misses it. -/
theorem floor_of_near {a b : ℕ} (positive : 0 < b) (near : |x - a / b| * b < 1) :
    ⌊x⌋ = (a / b : ℕ) ∨ b ∣ a ∧ ⌊x⌋ + 1 = (a / b : ℕ) := by
  have divisor : (0 : K) < b := Nat.cast_pos.mpr positive
  have close : |x - (a : ℤ) / (b : ℤ)| * ((b : ℤ) * (1 : ℤ)) < 1 := by simpa using near
  have below : x < ((a / b + 1 : ℕ) : ℤ) / (1 : ℤ) := by
    apply lt_of_near (by omega) one_pos close
    rw [Int.cast_one, div_one, Int.cast_natCast, Int.cast_natCast, Int.cast_natCast, div_lt_iff₀ divisor]
    exact_mod_cast Nat.lt_mul_of_div_lt (Nat.lt_succ_self _) positive
  have less : ⌊x⌋ < (a / b : ℕ) + 1 := by
    rw [Int.floor_lt]
    simpa using below
  rcases Nat.eq_zero_or_pos (a % b) with whole | rest
  · have exact : (a : K) / b = (a / b : ℕ) := by
      rw [div_eq_iff divisor.ne']
      exact_mod_cast (Nat.div_mul_cancel (Nat.dvd_of_mod_eq_zero whole)).symm
    have more : ((a / b : ℕ) : ℤ) - 1 ≤ ⌊x⌋ := by
      rw [Int.le_floor]
      rw [exact] at near
      have one : (1 : K) ≤ b := Nat.one_le_cast.mpr positive
      have distance : |x - (a / b : ℕ)| ≤ |x - (a / b : ℕ)| * b := le_mul_of_one_le_right (abs_nonneg _) one
      rw [Int.cast_sub, Int.cast_natCast, Int.cast_one]
      linarith [neg_abs_le (x - (a / b : ℕ))]
    rcases (show ⌊x⌋ = (a / b : ℕ) ∨ ⌊x⌋ + 1 = (a / b : ℕ) by omega) with same | missed
    · exact .inl same
    · exact .inr ⟨Nat.dvd_of_mod_eq_zero whole, missed⟩
  · left
    have above : ((a / b : ℕ) : ℤ) / (1 : ℤ) < x := by
      apply gt_of_near (by omega) one_pos close
      rw [Int.cast_one, div_one, Int.cast_natCast, Int.cast_natCast, Int.cast_natCast, lt_div_iff₀ divisor]
      have split := Nat.div_add_mod a b
      have product : a / b * b < a := by
        rw [mul_comm]
        omega
      exact_mod_cast product
    have more : ((a / b : ℕ) : ℤ) ≤ ⌊x⌋ := by
      rw [Int.le_floor]
      exact (by simpa using above : (((a / b : ℕ) : ℤ) : K) < x).le
    omega

/-- A rounded quotient of integers that are small enough lies that close. -/
theorem nearest_near (positive : 0 < b) (denominator : 0 < d) (small : |a| * d < 2 ^ p) :
    |nearest p ((a : K) / b) - a / b| * (b * d) < 1 := by
  have left : (0 : K) < b := Int.cast_pos.mpr positive
  have product : (0 : K) < b * d := by exact_mod_cast mul_pos positive denominator
  have bits : (0 : K) < 2 ^ p := pow_pos two_pos p
  have numerator : |(a : K)| * d < 2 ^ p := by exact_mod_cast small
  calc
    |nearest p ((a : K) / b) - a / b| * (b * d) ≤ |(a : K) / b| / 2 ^ p * (b * d) :=
      mul_le_mul_of_nonneg_right (nearest_relative p _) product.le
    _ = |(a : K)| * d / 2 ^ p := by
      rw [abs_div, abs_of_pos left]
      field_simp
    _ < 1 := (div_lt_one bits).mpr numerator

theorem nearest_lt (positive : 0 < b) (denominator : 0 < d) (small : |a| * d < 2 ^ p) (less : (a : K) / b < j / d) :
    nearest p ((a : K) / b) < j / d :=
  lt_of_near positive denominator (nearest_near positive denominator small) less

theorem lt_nearest (positive : 0 < b) (denominator : 0 < d) (small : |a| * d < 2 ^ p) (less : (j : K) / d < a / b) :
    j / d < nearest p ((a : K) / b) :=
  gt_of_near positive denominator (nearest_near positive denominator small) less

/-- A quotient that is a dyadic number is exact. -/
theorem nearest_of_dyadic (precise : 0 < p) (positive : 0 < b) {k : ℕ} (small : |a| * 2 ^ k < 2 ^ p)
    (same : (a : K) / b = j / 2 ^ k) : nearest p ((a : K) / b) = a / b := by
  have left : (b : K) ≠ 0 := by exact_mod_cast positive.ne'
  have cross : a * 2 ^ k = j * b := by
    rw [div_eq_div_iff left (by positivity)] at same
    exact_mod_cast same
  have bits : |j| < 2 ^ p := by
    calc
      |j| ≤ |j| * b := le_mul_of_one_le_right (abs_nonneg j) positive
      _ = |a * 2 ^ k| := by rw [cross, abs_mul, abs_of_pos positive]
      _ = |a| * 2 ^ k := by rw [abs_mul, abs_of_pos (by positivity : (0 : ℤ) < 2 ^ k)]
      _ < 2 ^ p := small
  rw [same]
  apply nearest_of_representable precise
  exact representable_iff.mpr ⟨j, -k, bits, by rw [zpow_neg, zpow_natCast, div_eq_mul_inv]⟩

/-- Rounding a quotient does not move it across a dyadic number. -/
theorem cmp_nearest (precise : 0 < p) (positive : 0 < b) {k : ℕ} (small : |a| * 2 ^ k < 2 ^ p) (j : ℤ) :
    cmp (nearest p ((a : K) / b)) (j / 2 ^ k) = cmp ((a : K) / b) (j / 2 ^ k) := by
  have denominator : (0 : ℤ) < 2 ^ k := by positivity
  have cast : ((2 ^ k : ℤ) : K) = 2 ^ k := by push_cast; rfl
  rcases lt_trichotomy ((a : K) / b) (j / 2 ^ k) with less | same | greater
  · rw [← cast] at less ⊢
    rw [less.cmp_eq_lt, (nearest_lt positive denominator small less).cmp_eq_lt]
  · rw [nearest_of_dyadic precise positive small same]
  · rw [← cast] at greater ⊢
    rw [greater.cmp_eq_gt, (lt_nearest positive denominator small greater).cmp_eq_gt]

theorem cmp_nearest_intCast (precise : 0 < p) (positive : 0 < b) (bits : |a| < 2 ^ p) (n : ℤ) :
    cmp (nearest p ((a : K) / b)) n = cmp ((a : K) / b) n := by
  have whole := cmp_nearest (K := K) (k := 0) precise positive (by simpa using bits) n
  rwa [pow_zero, div_one] at whole

theorem floor_nearest (precise : 0 < p) (positive : 0 < b) (bits : |a| < 2 ^ p) :
    ⌊nearest p ((a : K) / b)⌋ = ⌊(a : K) / b⌋ := by
  apply eq_of_forall_le_iff
  intro n
  rw [Int.le_floor, Int.le_floor]
  exact le_iff_le_of_cmp_eq_cmp (cmp_eq_cmp_symm.mp (cmp_nearest_intCast precise positive bits n))

theorem ceil_nearest (precise : 0 < p) (positive : 0 < b) (bits : |a| < 2 ^ p) :
    ⌈nearest p ((a : K) / b)⌉ = ⌈(a : K) / b⌉ := by
  apply eq_of_forall_ge_iff
  intro n
  rw [Int.ceil_le, Int.ceil_le]
  exact le_iff_le_of_cmp_eq_cmp (cmp_nearest_intCast precise positive bits n)

/-- A quotient is rounded to an integer as if it had not been rounded before. -/
theorem halfEven_nearest (precise : 0 < p) (positive : 0 < b) (small : |a| * 2 < 2 ^ p) :
    halfEven (nearest p ((a : K) / b)) = halfEven ((a : K) / b) := by
  apply eq_of_forall_le_iff
  intro n
  have tie : (n : K) - 1 / 2 = (2 * n - 1 : ℤ) / 2 ^ 1 := by
    push_cast
    ring
  have same := cmp_nearest (K := K) (k := 1) precise positive (by simpa using small) (2 * n - 1)
  rw [← tie] at same
  rw [le_halfEven_iff, le_halfEven_iff, lt_iff_lt_of_cmp_eq_cmp (cmp_eq_cmp_symm.mp same),
    eq_iff_eq_of_cmp_eq_cmp same]

end Quotient

end SlStatus.BinaryFloat
