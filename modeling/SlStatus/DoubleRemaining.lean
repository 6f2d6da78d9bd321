import SlStatus.BatteryRemaining
import SlStatus.BinaryFloat

/-! The time that `battery_remaining` shows, with each operation rounded as `double` rounds it. The hours are
exact; the minutes are, or a time of whole minutes loses one. -/

namespace SlStatus.DoubleRemaining
open CString Util Battery BatteryRemaining BinaryFloat Display

/-- The conversions to `uintmax_t` truncate. -/
def hours (chargeNow currentNow : UInt64) : Int :=
  ⌊double (double (chargeNow.toNat : ℚ) / double (currentNow.toNat : ℚ))⌋

def minutes (chargeNow currentNow : UInt64) : Int :=
  let timeleft := double (double (chargeNow.toNat : ℚ) / double (currentNow.toNat : ℚ))
  ⌊double (double (timeleft - double (hours chargeNow currentNow : ℚ)) * 60)⌋

def text (h m : Int) : Text := decimal h ++ hourUnit ++ decimal m ++ minuteUnit

def remaining (chargeNow currentNow : UInt64) : Text :=
  text (hours chargeNow currentNow) (minutes chargeNow currentNow)

section Arithmetic

variable {charge current : Nat}

/-- The quotient as it is stored. -/
def timeleft (charge current : Nat) : ℚ := double ((charge : ℚ) / current)

theorem floor_timeleft (positive : 0 < current) (bits : charge < 2 ^ 53) :
    ⌊timeleft charge current⌋ = (charge / current : Nat) := by
  have floor := floor_nearest (K := ℚ) (p := 53) (a := charge) (b := current) (by decide) (by omega)
    (by rw [Nat.abs_cast]; exact_mod_cast bits)
  rw [Int.cast_natCast, Int.cast_natCast] at floor
  rw [timeleft, double, floor, BatteryRemaining.floor_timeleft]

theorem timeleft_nonneg (charge current : Nat) : 0 ≤ timeleft charge current :=
  nearest_nonneg (by decide) (by positivity)

/-- The product lies close to the exact number of minutes. -/
theorem product_near (positive : 0 < current) (small : charge + current < 2 ^ 47) :
    |double (Int.fract (timeleft charge current) * 60) - (charge % current * 60 : Nat) / (current : ℚ)| * current <
      1 := by
  have divisor : (0 : ℚ) < current := by exact_mod_cast positive
  have rest : ((charge % current * 60 : Nat) : ℚ) / current = (charge / current - (charge / current : Nat)) * 60 := by
    have split : (charge : ℚ) = current * (charge / current : Nat) + (charge % current : Nat) := by
      exact_mod_cast (Nat.div_add_mod charge current).symm
    push_cast
    rw [split]
    field_simp
    ring
  have floor : Int.fract (timeleft charge current) = timeleft charge current - (charge / current : Nat) := by
    rw [Int.fract, floor_timeleft positive (by omega), Int.cast_natCast]
  have quotient : |timeleft charge current - charge / current| ≤ charge / current / 2 ^ 53 := by
    have error := nearest_relative 53 ((charge : ℚ) / current)
    rwa [abs_of_nonneg (by positivity : (0 : ℚ) ≤ charge / current)] at error
  have product : |double (Int.fract (timeleft charge current) * 60) - Int.fract (timeleft charge current) * 60| ≤
      60 / 2 ^ 53 := by
    have low := Int.fract_nonneg (timeleft charge current)
    have high := (Int.fract_lt_one (timeleft charge current)).le
    have error := nearest_relative 53 (Int.fract (timeleft charge current) * 60)
    rw [abs_of_nonneg (by positivity : 0 ≤ Int.fract (timeleft charge current) * 60)] at error
    linarith
  have sum : (charge : ℚ) + current < 2 ^ 47 := by exact_mod_cast small
  have distance : |double (Int.fract (timeleft charge current) * 60) - (charge % current * 60 : Nat) / (current : ℚ)| ≤
      60 / 2 ^ 53 + 60 * (charge / current / 2 ^ 53) := by
    rw [rest, floor]
    rw [floor] at product
    rw [abs_le] at quotient product ⊢
    constructor <;> linarith
  calc
    _ ≤ (60 / 2 ^ 53 + 60 * (charge / current / 2 ^ 53)) * (current : ℚ) :=
      mul_le_mul_of_nonneg_right distance divisor.le
    _ = 60 * (charge + current) / 2 ^ 53 := by
      field_simp
      ring
    _ < 1 := by
      rw [div_lt_one (by norm_num)]
      linarith

theorem minutes_nonneg (charge current : Nat) : 0 ≤ ⌊double (Int.fract (timeleft charge current) * 60)⌋ := by
  have low := Int.fract_nonneg (timeleft charge current)
  apply Int.floor_nonneg.mpr
  exact nearest_nonneg (by decide) (by positivity)

end Arithmetic

section Conversions

variable {chargeNow currentNow : UInt64}

theorem hours_eq (nonzero : currentNow ≠ 0) (small : chargeNow.toNat + currentNow.toNat < 2 ^ 47) :
    hours chargeNow currentNow = (chargeNow.toNat / currentNow.toNat : Nat) := by
  rw [hours, double_natCast (by omega), double_natCast (by omega)]
  exact floor_timeleft (toNat_pos nonzero) (by omega)

/-- Neither the subtraction nor what comes before it rounds anything but the quotient. -/
theorem minutes_eq (nonzero : currentNow ≠ 0) (small : chargeNow.toNat + currentNow.toNat < 2 ^ 47) :
    minutes chargeNow currentNow = ⌊double (Int.fract (timeleft chargeNow.toNat currentNow.toNat) * 60)⌋ := by
  have whole : chargeNow.toNat / currentNow.toNat < 2 ^ 53 :=
    Nat.lt_of_le_of_lt (Nat.div_le_self _ _) (by omega)
  have rest : Int.fract (timeleft chargeNow.toNat currentNow.toNat) =
      timeleft chargeNow.toNat currentNow.toNat - (chargeNow.toNat / currentNow.toNat : Nat) := by
    rw [Int.fract, floor_timeleft (toNat_pos nonzero) (by omega), Int.cast_natCast]
  have representable := (representable_nearest (p := 53) (by decide)
    ((chargeNow.toNat : ℚ) / currentNow.toNat)).fract (timeleft_nonneg _ _)
  have exact := nearest_of_representable (by decide) representable
  unfold minutes
  rw [hours_eq nonzero small, Int.cast_natCast, double_natCast whole, double_natCast (by omega),
    double_natCast (by omega)]
  change ⌊double (double (timeleft chargeNow.toNat currentNow.toNat -
    (chargeNow.toNat / currentNow.toNat : Nat)) * 60)⌋ = _
  rw [← rest]
  congr 2
  exact congrArg (· * 60) exact

/-- The text is the exact one, unless the time comes to whole minutes: then it may show one less. -/
theorem remaining_rounded (nonzero : currentNow ≠ 0) (small : chargeNow.toNat + currentNow.toNat < 2 ^ 47) :
    remaining chargeNow currentNow = Battery.remaining chargeNow currentNow ∨
    currentNow.toNat ∣ 60 * chargeNow.toNat ∧ ∃ h m : Nat, m + 1 < 60 ∧
      60 * h + (m + 1) = 60 * chargeNow.toNat / currentNow.toNat ∧
      Battery.remaining chargeNow currentNow = text h (m + 1) ∧ remaining chargeNow currentNow = text h m := by
  have positive := toNat_pos nonzero
  obtain ⟨sixty, sum⟩ := @hours_and_minutes chargeNow.toNat currentNow.toNat positive
  have exact : Battery.remaining chargeNow currentNow =
      text (chargeNow.toNat / currentNow.toNat : Nat)
        (chargeNow.toNat % currentNow.toNat * 60 / currentNow.toNat : Nat) := remaining_eq nonzero
  rw [exact, remaining, hours_eq nonzero small, minutes_eq nonzero small]
  rcases floor_of_near positive (product_near positive small) with same | ⟨whole, lost⟩
  · left
    rw [same]
  · right
    have nonneg := minutes_nonneg chargeNow.toNat currentNow.toNat
    obtain ⟨m, shown⟩ := Int.eq_ofNat_of_zero_le nonneg
    rw [shown] at lost ⊢
    have next : m + 1 = chargeNow.toNat % currentNow.toNat * 60 / currentNow.toNat := by exact_mod_cast lost
    refine ⟨?_, chargeNow.toNat / currentNow.toNat, m, by omega, by omega, by rw [← next]; rfl, rfl⟩
    have split := Nat.div_add_mod chargeNow.toNat currentNow.toNat
    have multiple : 60 * chargeNow.toNat = currentNow.toNat * (60 * (chargeNow.toNat / currentNow.toNat)) +
        chargeNow.toNat % currentNow.toNat * 60 := by
      calc
        60 * chargeNow.toNat = 60 * (currentNow.toNat * (chargeNow.toNat / currentNow.toNat) +
            chargeNow.toNat % currentNow.toNat) := by rw [split]
        _ = _ := by ring
    rw [multiple]
    exact dvd_add (dvd_mul_right _ _) whole

/-- A third of an hour over one hour is shown as nineteen minutes. -/
theorem remaining_rounded_lost :
    remaining 4 3 = text 1 19 ∧ remaining 4 3 ≠ Battery.remaining 4 3 ∧
    (remaining 4 3 = Battery.remaining 4 3 ∨
      (3 : UInt64).toNat ∣ 60 * (4 : UInt64).toNat ∧ ∃ h m : Nat, m + 1 < 60 ∧
        60 * h + (m + 1) = 60 * (4 : UInt64).toNat / (3 : UInt64).toNat ∧
        Battery.remaining 4 3 = text h (m + 1) ∧ remaining 4 3 = text h m) :=
  ⟨by decide +kernel, by decide +kernel, remaining_rounded (by decide) (by decide)⟩

end Conversions

end SlStatus.DoubleRemaining
