import SlStatus.BinaryFloat
import Mathlib.Data.Rat.Floor
import SlStatus.Display
import SlStatus.Integers

/-! `vol_perc` of `components/volume.c` with ALSA. What the calls return belongs to the evaluation; the number of
mixers that are open is carried along. The quotient is one of `double`, which has a value for every divisor. -/

namespace SlStatus.AlsaVolume
open BinaryFloat CString Display HalfEven Integers

/-- What each call returns, in the order in which they are made, and what the last two leave in the variables. An
error of the last is only warned about. -/
structure Answers where
  opened : Int
  attached : Int
  registered : Int
  loaded : Int
  elem : Bool
  ranged : Int
  min : Int
  max : Int
  volume : Int

theorem minus_visible : (0 : Byte) ≠ 0x2D := by decide

/-- A sign before what is printed of a number that is not negative. -/
def signed (negative : Bool) (text : Text) : Text := if negative then character 0x2D minus_visible ++ text else text

theorem infinity_visible : 0 ∉ [(0x69 : Byte), 0x6E, 0x66] := by decide

theorem notANumber_visible : 0 ∉ [(0x6E : Byte), 0x61, 0x6E] := by decide

/-- `"inf"`. -/
def infinity : Text := ⟨[0x69, 0x6E, 0x66], infinity_visible⟩

/-- `"nan"`. -/
def notANumber : Text := ⟨[0x6E, 0x61, 0x6E], notANumber_visible⟩

/-- The dividend and the divisor, converted from a `long`. -/
def quotient (above range : Int) : ℚ := double (double (double (above : ℚ) * 100) / double (range : ℚ))

/-- `%.0f` of the quotient, which has a sign also where it is zero or infinite. The sign of what is not a number is the
machine's. -/
def rounded (nanSign : Bool) (above range : Int) : Text :=
  if range = 0 ∧ above = 0 then signed nanSign notANumber
  else
    signed (decide (above < 0) != decide (range < 0))
      (if range = 0 then infinity else decimal (halfEven |quotient above range|))

/-- No result where a difference overflows. -/
def percentage (nanSign : Bool) (min max volume : Int) : Option (Option Text) := do
  let above ← sub machine .long volume min
  let range ← sub machine .long max min
  pure (bprintf (rounded nanSign above range))

/-- What comes after the label `cleanup`: the mixer is closed, and then the number is computed. -/
def cleanup (nanSign : Bool) (mixers : Nat) (min max volume : Int) : Nat × Option (Option Text) :=
  (mixers - 1, if volume = -1 then some none else percentage nanSign min max volume)

/-- The mixers that are open afterwards, and what is returned. -/
def volPerc (nanSign : Bool) (mixers : Nat) (answers : Answers) : Nat × Option (Option Text) :=
  if answers.opened ≠ 0 then (mixers, some none)
  else
    let mixers := mixers + 1
    if answers.attached ≠ 0 then cleanup nanSign mixers 0 0 (-1)
    else if answers.registered ≠ 0 then cleanup nanSign mixers 0 0 (-1)
    else if answers.loaded ≠ 0 then cleanup nanSign mixers 0 0 (-1)
    else if answers.elem = false then cleanup nanSign mixers 0 0 (-1)
    else if answers.ranged ≠ 0 then cleanup nanSign mixers answers.min answers.max (-1)
    else cleanup nanSign mixers answers.min answers.max answers.volume

/-- The volume is asked for, and is not the number that stands for none. -/
def Answers.Read (answers : Answers) : Prop :=
  answers.opened = 0 ∧ answers.attached = 0 ∧ answers.registered = 0 ∧ answers.loaded = 0 ∧ answers.elem = true ∧
    answers.ranged = 0 ∧ answers.volume ≠ -1

instance (answers : Answers) : Decidable answers.Read := inferInstanceAs (Decidable (_ ∧ _ ∧ _ ∧ _ ∧ _ ∧ _ ∧ _))

/-- The volume lies in its range, which is not empty and not too large. -/
def Answers.Sound (answers : Answers) : Prop :=
  answers.min ≤ answers.volume ∧ answers.volume ≤ answers.max ∧ answers.min < answers.max ∧
    answers.max - answers.min < 2 ^ 45

instance (answers : Answers) : Decidable answers.Sound := inferInstanceAs (Decidable (_ ∧ _ ∧ _ ∧ _))

section Percentage

variable {min max volume : Int}

/-- A small difference is taken exactly, and converted. -/
theorem sub_eq {n m : Int} (low : 0 ≤ n - m) (high : n - m < 2 ^ 45) :
    sub machine .long n m = some (n - m) ∧ double ((n - m : Int) : ℚ) = (n - m : Int) := by
  constructor
  · apply machine_of_holds
    rw [IntType.holds_long]
    omega
  · apply nearest_intCast
    rw [abs_of_nonneg low]
    omega

theorem quotient_eq (low : min ≤ volume) (high : volume ≤ max) (small : max - min < 2 ^ 45) :
    quotient (volume - min) (max - min) = double ((((volume - min) * 100 : Int) : ℚ) / (max - min : Int)) := by
  have product : double (((volume - min : Int) : ℚ) * 100) = ((volume - min) * 100 : Int) := by
    have cast : ((volume - min : Int) : ℚ) * 100 = ((volume - min) * 100 : Int) := by push_cast; rfl
    rw [cast]
    apply nearest_intCast
    rw [abs_of_nonneg (by omega)]
    omega
  rw [quotient, (sub_eq (by omega) (by omega : volume - min < 2 ^ 45)).2, (sub_eq (by omega) small).2, product]

/-- The number that is printed is the exact percentage, rounded once. -/
theorem rounded_eq (low : min ≤ volume) (high : volume ≤ max) (range : min < max) (small : max - min < 2 ^ 45) :
    halfEven (double ((((volume - min) * 100 : Int) : ℚ) / (max - min : Int))) =
      halfEven (((volume - min) * 100 : ℚ) / (max - min)) := by
  rw [double, halfEven_nearest (by decide) (by omega) (by rw [abs_of_nonneg (by omega)]; omega)]
  push_cast
  rfl

theorem rounded_bounds (low : min ≤ volume) (high : volume ≤ max) (range : min < max) :
    0 ≤ halfEven (((volume - min) * 100 : ℚ) / (max - min)) ∧
      halfEven (((volume - min) * 100 : ℚ) / (max - min)) ≤ 100 := by
  have first : (min : ℚ) ≤ volume := Int.cast_le.mpr low
  have second : (volume : ℚ) ≤ max := Int.cast_le.mpr high
  have third : (min : ℚ) < max := Int.cast_lt.mpr range
  constructor
  · apply le_halfEven
    rw [Int.cast_zero]
    exact div_nonneg (by linarith) (by linarith)
  · apply halfEven_le
    rw [div_le_iff₀ (by linarith)]
    push_cast
    linarith

end Percentage

section Printed

variable {above range : Int}

theorem abs_double_le (x : ℚ) : |double x| ≤ 2 * |x| := by
  have error := nearest_relative 53 x
  have small : |x| / 2 ^ 53 ≤ |x| := div_le_self (abs_nonneg x) (by norm_num)
  have triangle := abs_sub_abs_le_abs_sub (double x) x
  change |double x - x| ≤ _ at error
  linarith

theorem one_le_abs_double (nonzero : range ≠ 0) : 1 ≤ |double (range : ℚ)| := by
  have one : Representable 53 (1 : ℚ) := by exact_mod_cast representable_intCast (K := ℚ) (p := 53) (n := 1) (by decide)
  rcases nonzero.lt_or_gt with negative | positive
  · have below : (range : ℚ) ≤ -1 := by exact_mod_cast Int.le_sub_one_of_lt negative
    have reached := nearest_le (p := 53) (by decide) one.neg below
    exact le_abs.mpr (.inr (le_neg_of_le_neg reached))
  · have above : (1 : ℚ) ≤ range := by exact_mod_cast positive
    exact le_abs.mpr (.inl (le_nearest (by decide) one above))

theorem abs_quotient_le (long : IntType.long.Holds above) (nonzero : range ≠ 0) : |quotient above range| ≤ 2 ^ 73 := by
  have bound : |(above : ℚ)| ≤ 2 ^ 63 := by
    rw [IntType.holds_long] at long
    exact_mod_cast abs_le.mpr ⟨by omega, by omega⟩
  have divisor := one_le_abs_double nonzero
  have factor := abs_double_le (double (above : ℚ) * 100)
  have first := abs_double_le (above : ℚ)
  rw [abs_mul, abs_of_pos (by norm_num : (0 : ℚ) < 100)] at factor
  have divided : |double (double (above : ℚ) * 100) / double (range : ℚ)| ≤ |double (double (above : ℚ) * 100)| := by
    rw [abs_div]
    exact div_le_self (abs_nonneg _) divisor
  have last := abs_double_le (double (double (above : ℚ) * 100) / double (range : ℚ))
  unfold quotient
  linarith

theorem length_signed (negative : Bool) (text : Text) :
    (signed negative text).bytes.length ≤ text.bytes.length + 1 := by
  unfold signed
  split_ifs
  · rw [Text.append_bytes, List.length_append]
    change 1 + _ ≤ _
    omega
  · exact Nat.le_succ _

/-- Whatever is printed has room. -/
theorem bprintf_rounded (nanSign : Bool) (long : IntType.long.Holds above) :
    bprintf (rounded nanSign above range) = some (rounded nanSign above range) := by
  have short : (rounded nanSign above range).bytes.length < 1024 := by
    unfold rounded
    split_ifs with nothing zero
    · exact (length_signed _ _).trans_lt (by decide)
    · exact (length_signed _ _).trans_lt (by decide)
    · have most : halfEven |quotient above range| ≤ 2 ^ 73 := by
        apply halfEven_le
        exact_mod_cast abs_quotient_le long zero
      have least : 0 ≤ halfEven |quotient above range| := by
        apply le_halfEven
        exact_mod_cast abs_nonneg _
      obtain ⟨n, number⟩ := Int.eq_ofNat_of_zero_le least
      have length := @length_decimal_le n 30 (by decide) (by omega)
      have sign := length_signed (decide (above < 0) != decide (range < 0)) (decimal n)
      rw [number]
      omega
  rw [bprintf_eq, if_pos short]

end Printed

/-- The percentage of the range, a half going to the even neighbour. -/
def Answers.percent (answers : Answers) : Int :=
  halfEven (((answers.volume - answers.min) * 100 : ℚ) / (answers.max - answers.min))

section Shown

variable {answers : Answers}

theorem rounded_sound (nanSign : Bool) (sound : answers.Sound) :
    rounded nanSign (answers.volume - answers.min) (answers.max - answers.min) = decimal answers.percent := by
  obtain ⟨low, high, range, small⟩ := sound
  have nonneg : 0 ≤ quotient (answers.volume - answers.min) (answers.max - answers.min) := by
    rw [quotient_eq low high small]
    apply nearest_nonneg (by decide)
    have above : (0 : ℚ) ≤ ((answers.volume - answers.min) * 100 : Int) := by exact_mod_cast (by omega)
    have whole : (0 : ℚ) ≤ (answers.max - answers.min : Int) := by exact_mod_cast (by omega)
    exact div_nonneg above whole
  unfold rounded
  rw [if_neg (by omega), if_neg (by omega), decide_eq_false (by omega), decide_eq_false (by omega),
    abs_of_nonneg nonneg, quotient_eq low high small, rounded_eq low high range small]
  rfl

theorem rounded_empty (nanSign : Bool) (above : Int) :
    rounded nanSign above 0 =
      if above = 0 then signed nanSign notANumber else signed (decide (above < 0)) infinity := by
  unfold rounded
  by_cases nothing : above = 0
  · rw [if_pos ⟨rfl, nothing⟩, if_pos nothing]
  · rw [if_neg (fun both => nothing both.2), if_pos rfl, if_neg nothing, decide_eq_false (lt_irrefl (0 : Int)),
      Bool.bne_false]

/-- What is returned once the volume has been asked for. -/
theorem percentage_eq (nanSign : Bool) (min max volume : Int) :
    percentage nanSign min max volume =
      if IntType.long.Holds (volume - min) ∧ IntType.long.Holds (max - min) then
        some (some (rounded nanSign (volume - min) (max - min)))
      else none := by
  have difference (n m : Int) : sub machine .long n m = exactly .long (n - m) := machine_signed (t := .long) rfl
  unfold percentage
  rw [difference, difference, exactly, exactly]
  by_cases above : IntType.long.Holds (volume - min)
  · by_cases range : IntType.long.Holds (max - min)
    · rw [if_pos above, if_pos range, if_pos ⟨above, range⟩]
      exact congrArg some (bprintf_rounded nanSign above)
    · have refused : ¬(IntType.long.Holds (volume - min) ∧ IntType.long.Holds (max - min)) := fun both => range both.2
      rw [if_pos above, if_neg range, if_neg refused]
      rfl
  · have refused : ¬(IntType.long.Holds (volume - min) ∧ IntType.long.Holds (max - min)) := fun both => above both.1
    rw [if_neg above, if_neg refused]
    rfl

theorem volPerc_eq (nanSign : Bool) (mixers : Nat) (answers : Answers) :
    volPerc nanSign mixers answers =
      (mixers, if answers.Read then percentage nanSign answers.min answers.max answers.volume else some none) := by
  by_cases read : answers.Read
  · rw [if_pos read]
    obtain ⟨opened, attached, registered, loaded, elem, ranged, present⟩ := read
    simp only [volPerc, opened, attached, registered, loaded, elem, ranged, cleanup, if_neg present]
    rfl
  · rw [if_neg read]
    unfold volPerc
    dsimp only
    split_ifs with opened attached registered loaded missing ranged
    · rfl
    · rfl
    · rfl
    · rfl
    · rfl
    · rfl
    · have absent : answers.volume = -1 := by
        by_contra present
        apply read
        exact ⟨not_not.mp opened, not_not.mp attached, not_not.mp registered, not_not.mp loaded,
          Bool.not_eq_false _ |>.mp missing, not_not.mp ranged, present⟩
      rw [absent]
      rfl

/-- Every path closes the mixer that was opened, and `NULL` is returned exactly where no volume has been read. One in a
range that is not empty is shown as its exact percentage rounded once, although the quotient is a `double`; in an empty
range the quotient is infinite or no number, and is shown as that. -/
theorem volume_shown (nanSign : Bool) (mixers : Nat) (answers : Answers) :
    (volPerc nanSign mixers answers).1 = mixers ∧
    ((volPerc nanSign mixers answers).2 = some none ↔ ¬answers.Read) ∧
    (answers.Read → answers.Sound → (volPerc nanSign mixers answers).2 = some (some (decimal answers.percent)) ∧
      0 ≤ answers.percent ∧ answers.percent ≤ 100) ∧
    (answers.Read → answers.max = answers.min → IntType.long.Holds (answers.volume - answers.min) →
      (volPerc nanSign mixers answers).2 = some (some (if answers.volume = answers.min then signed nanSign notANumber
        else signed (decide (answers.volume < answers.min)) infinity))) := by
  rw [volPerc_eq]
  refine ⟨rfl, ?_, ?_, ?_⟩
  · dsimp only
    by_cases read : answers.Read
    · rw [if_pos read, percentage_eq]
      apply iff_of_false
      · split_ifs
        · exact fun same => Option.some_ne_none _ (Option.some.inj same)
        · exact not_false
      · exact not_not.mpr read
    · exact iff_of_true (if_neg read) read
  · intro read sound
    obtain ⟨low, high, range, small⟩ := sound
    have above : IntType.long.Holds (answers.volume - answers.min) := by
      rw [IntType.holds_long]
      omega
    have whole : IntType.long.Holds (answers.max - answers.min) := by
      rw [IntType.holds_long]
      omega
    refine ⟨?_, rounded_bounds low high range⟩
    dsimp only
    rw [if_pos read, percentage_eq, if_pos ⟨above, whole⟩, rounded_sound nanSign ⟨low, high, range, small⟩]
  · intro read empty above
    have zero : answers.max - answers.min = 0 := by omega
    dsimp only
    rw [if_pos read, percentage_eq, zero, if_pos ⟨above, by decide⟩, rounded_empty]
    simp only [sub_eq_zero, sub_neg]

/-- An eighth of a range of negative volumes: a tie. -/
def eighth : Answers :=
  { opened := 0, attached := 0, registered := 0, loaded := 0, elem := true, ranged := 0, min := -8, max := 0,
    volume := -7 }

theorem volume_shown_eighth : volPerc true 0 eighth = (0, some (some (decimal 12))) := by
  obtain ⟨mixers, -, shown, -⟩ := volume_shown true 0 eighth
  have percent : eighth.percent = 12 := by decide +kernel
  rw [← percent, ← (shown (by decide) (by decide)).1]
  exact Prod.ext mixers rfl

end Shown

end SlStatus.AlsaVolume
