import Mathlib.Algebra.Order.Round
import Mathlib.Data.List.Perm.Basic
import Mathlib.Data.Rat.Floor
import SlStatus.Integers
import SlStatus.Sndio

/-! The volume that `vol_perc` takes from the list of controls: a mute that is set assigns, and a
level takes the minimum. No level is negative, which is why the order of the two does not
matter. -/

namespace SlStatus.SndioVolume
open Integers Sndio

section Loop

variable (arith : Arithmetic)

/-- The arithmetic is unsigned, and `v` an `int`. -/
def percent (c : Control) : Option Int := do
  let product ← mul arith .unsignedInt c.val.toNat 100
  let half ← div arith .unsignedInt c.maxval.toNat 2
  let sum ← add arith .unsignedInt product half
  let quotient ← div arith .unsignedInt sum c.maxval.toNat
  arith.conversion .int quotient

def value : List Control → Int → Option Int
  | [], value => some value
  | c :: controls, value =>
      if c.type = .mute ∧ c.val = 1 then SndioVolume.value controls 0
      else if c.type = .level then do
        let v ← percent arith c
        SndioVolume.value controls (if v < value then v else value)
      else SndioVolume.value controls value

end Loop

def Muted (controls : List Control) : Prop := ∃ c ∈ controls, c.type = .mute ∧ c.val = 1

instance (controls : List Control) : Decidable (Muted controls) := List.decidableBEx _ controls

/-- A level in percent of its maximum. -/
def rounded (c : Control) : Int := round ((100 * c.val.toNat : ℚ) / c.maxval.toNat)

def levels (controls : List Control) : List Int := (controls.filter fun c => c.type = .level).map rounded

/-- The values are transmitted with 16 bits. -/
def Transmitted (controls : List Control) : Prop :=
  ∀ c ∈ controls, c.type = .level → 1 ≤ c.maxval ∧ c.maxval ≤ 65535 ∧ c.val ≤ c.maxval

section Level

variable {c : Control}

/-- Half the divisor is added first; where that rounds down there is no tie. -/
theorem rounded_eq (positive : 0 < c.maxval.toNat) :
    rounded c = ((c.val.toNat * 100 + c.maxval.toNat / 2) / c.maxval.toNat : Nat) := by
  unfold rounded
  rw [round_eq_iff]
  generalize quotient : (c.val.toNat * 100 + c.maxval.toNat / 2) / c.maxval.toNat = n
  have whole : (0 : ℚ) < c.maxval.toNat := mod_cast positive
  have lower := Nat.div_mul_le_self (c.val.toNat * 100 + c.maxval.toNat / 2) c.maxval.toNat
  have upper := Nat.lt_div_mul_add (a := c.val.toNat * 100 + c.maxval.toNat / 2) positive
  rw [quotient] at lower upper
  have atLeast : 2 * (n * c.maxval.toNat) ≤ 200 * c.val.toNat + c.maxval.toNat := by omega
  have below : 200 * c.val.toNat < 2 * (n * c.maxval.toNat) + c.maxval.toNat := by omega
  have atLeastCast : (2 * (n * c.maxval.toNat) : ℚ) ≤ 200 * c.val.toNat + c.maxval.toNat := mod_cast atLeast
  have belowCast : (200 * c.val.toNat : ℚ) < 2 * (n * c.maxval.toNat) + c.maxval.toNat := mod_cast below
  rw [Int.cast_natCast, Set.mem_Ico, le_div_iff₀ whole, div_lt_iff₀ whole]
  constructor <;> linarith

theorem rounded_nonneg (positive : 0 < c.maxval.toNat) : 0 ≤ rounded c := by
  rw [rounded_eq positive]
  exact Int.natCast_nonneg _

/-- With 16 bits every step of the computation fits. -/
theorem percent_eq (transmitted : 1 ≤ c.maxval ∧ c.maxval ≤ 65535 ∧ c.val ≤ c.maxval) :
    percent strict c = some (rounded c) := by
  have positive : 1 ≤ c.maxval.toNat := UInt32.le_iff_toNat_le.mp transmitted.1
  have small : c.maxval.toNat ≤ 65535 := UInt32.le_iff_toNat_le.mp transmitted.2.1
  have within : c.val.toNat ≤ c.maxval.toNat := UInt32.le_iff_toNat_le.mp transmitted.2.2
  have bound : (c.val.toNat * 100 + c.maxval.toNat / 2) / c.maxval.toNat ≤ c.val.toNat * 100 + c.maxval.toNat / 2 :=
    Nat.div_le_self _ _
  have half : (c.maxval.toNat : Int).tdiv 2 = (c.maxval.toNat / 2 : Nat) := (Int.ofNat_tdiv _ 2).symm
  have quotient : (c.val.toNat * 100 + (c.maxval.toNat / 2 : Nat) : Int).tdiv c.maxval.toNat =
      ((c.val.toNat * 100 + c.maxval.toNat / 2) / c.maxval.toNat : Nat) := by
    rw [Int.ofNat_tdiv]
    push_cast
    rfl
  rw [rounded_eq positive]
  simp only [percent, Option.bind_eq_bind, mul, add, strict_result, strict_conversion, bind_exactly_eq_some,
    bind_div_eq_some, exactly_eq_some, IntType.holds_unsignedInt, IntType.holds_int, half, quotient, and_true]
  generalize (c.val.toNat * 100 + c.maxval.toNat / 2) / c.maxval.toNat = n at bound ⊢
  omega

end Level

theorem percent_refines (c : Control) : Refines (percent strict c) (percent machine c) := by
  unfold percent
  apply Refines.bind (refines_result _ _)
  intro product
  apply Refines.bind (refines_div _ _ _)
  intro half
  apply Refines.bind (refines_result _ _)
  intro sum
  apply Refines.bind (refines_div _ _ _)
  intro quotient
  exact refines_conversion _ _

theorem value_refines (controls : List Control) (start : Int) :
    Refines (value strict controls start) (value machine controls start) := by
  induction controls generalizing start with
  | nil => exact .refl _
  | cons c controls ih =>
    unfold value
    split_ifs
    · exact ih 0
    · apply Refines.bind (percent_refines c)
      intro v
      exact ih _
    · exact ih start

section Order

variable {controls : List Control}

/-- Nothing is above the value that the minimum starts with. -/
theorem least_le (start : Int) (numbers : List Int) : numbers.foldr min start ≤ start := by
  induction numbers with
  | nil => exact le_refl start
  | cons number numbers ih => exact (min_le_right _ _).trans ih

theorem le_least {bound start : Int} {numbers : List Int} (first : bound ≤ start)
    (all : ∀ number ∈ numbers, bound ≤ number) : bound ≤ numbers.foldr min start := by
  induction numbers with
  | nil => exact first
  | cons number numbers ih =>
    exact le_min (all number (List.mem_cons_self ..)) (ih fun other member => all other (List.mem_cons_of_mem _ member))

/-- The minimum of a number more is the same wherever it is taken. -/
theorem least_min (start number : Int) (numbers : List Int) :
    numbers.foldr min (min number start) = min number (numbers.foldr min start) := by
  induction numbers with
  | nil => rfl
  | cons other numbers ih =>
    calc
      min other (numbers.foldr min (min number start)) = min other (min number (numbers.foldr min start)) := by rw [ih]
      _ = min number (min other (numbers.foldr min start)) := min_left_comm _ _ _

theorem levels_nonneg (transmitted : Transmitted controls) : ∀ level ∈ levels controls, 0 ≤ level := by
  intro level member
  obtain ⟨c, kept, rfl⟩ := List.mem_map.mp member
  obtain ⟨listed, type⟩ := List.mem_filter.mp kept
  have positive := UInt32.le_iff_toNat_le.mp (transmitted c listed (of_decide_eq_true type)).1
  exact rounded_nonneg positive

theorem muted_cons {c : Control} : Muted (c :: controls) ↔ (c.type = .mute ∧ c.val = 1) ∨ Muted controls := by
  unfold Muted
  rw [List.exists_mem_cons_iff]

theorem levels_level {c : Control} (level : c.type = .level) :
    levels (c :: controls) = rounded c :: levels controls := by
  unfold levels
  rw [List.filter_cons_of_pos (by simpa using level), List.map_cons]

theorem levels_other {c : Control} (other : c.type ≠ .level) : levels (c :: controls) = levels controls := by
  unfold levels
  rw [List.filter_cons_of_neg (by simpa using other)]

/-- What the loop makes of the value with which it comes to the rest of the list. After a mute that is
0, and stays it because no level is below. -/
theorem value_eq (transmitted : Transmitted controls) {start : Int} (nonneg : 0 ≤ start) :
    value strict controls start = some (if Muted controls then 0 else (levels controls).foldr min start) := by
  induction controls generalizing start with
  | nil =>
    have silent : ¬ Muted [] := by
      rintro ⟨c, member, -⟩
      cases member
    rw [if_neg silent]
    rfl
  | cons c controls ih =>
    have rest : Transmitted controls := fun other member => transmitted other (List.mem_cons_of_mem c member)
    unfold value
    by_cases mute : c.type = .mute ∧ c.val = 1
    · have zero : (levels controls).foldr min 0 = 0 :=
        le_antisymm (least_le 0 _) (le_least (le_refl 0) (levels_nonneg rest))
      rw [if_pos mute, ih rest (le_refl 0), zero, ite_self, if_pos (muted_cons.mpr (.inl mute))]
    · have muted : Muted (c :: controls) ↔ Muted controls := muted_cons.trans (or_iff_right mute)
      simp only [if_neg mute, muted]
      by_cases level : c.type = .level
      · have known := transmitted c (List.mem_cons_self ..) level
        have own : 0 ≤ rounded c := rounded_nonneg (UInt32.le_iff_toNat_le.mp known.1)
        have smaller : (if rounded c < start then rounded c else start) = min (rounded c) start := by
          rw [min_def_lt]
        rw [if_pos level, percent_eq known, Option.bind_eq_bind, Option.bind_some, smaller, ih rest (le_min own nonneg),
          levels_level level, List.foldr_cons, least_min]
      · rw [if_neg level, levels_other level, ih rest nonneg]

end Order

/-- 0 if some mute is set, else the least of 100 and the rounded levels. It is a percentage, no operation on
the way wraps, and no other order of the list gives another. -/
theorem value_least {controls : List Control} (transmitted : Transmitted controls) :
    ∃ volume : Int, value machine controls 100 = some volume ∧ value strict controls 100 = some volume ∧
      volume = (if Muted controls then 0 else (levels controls).foldr min 100) ∧ 0 ≤ volume ∧ volume ≤ 100 ∧
      ∀ others : List Control, others.Perm controls → value machine others 100 = some volume := by
  have run (others : List Control) (known : Transmitted others) :
      value strict others 100 = some (if Muted others then 0 else (levels others).foldr min 100) :=
    value_eq known (by decide)
  refine ⟨_, value_refines controls 100 _ (run controls transmitted), run controls transmitted, rfl, ?_, ?_, ?_⟩
  · split_ifs
    · exact le_refl 0
    · exact le_least (by decide) (levels_nonneg transmitted)
  · split_ifs
    · decide
    · exact least_le 100 _
  · intro others perm
    have known : Transmitted others := fun c member => transmitted c (perm.mem_iff.mp member)
    have muted : Muted others ↔ Muted controls := by
      unfold Muted
      simp only [perm.mem_iff]
    have same : (levels others).foldr min 100 = (levels controls).foldr min 100 :=
      ((perm.filter _).map rounded).foldr_eq 100
    have result := run others known
    simp only [muted, same] at result
    exact value_refines others 100 _ result

/-- A mute that is set and half a level. -/
theorem muted_either_way :
    value machine [⟨1, .mute, 1, 1⟩, ⟨2, .level, 255, 127⟩] 100 =
      value machine [⟨2, .level, 255, 127⟩, ⟨1, .mute, 1, 1⟩] 100 := by
  have transmitted : Transmitted [⟨2, .level, 255, 127⟩, ⟨1, .mute, 1, 1⟩] := by
    unfold Transmitted
    decide
  obtain ⟨volume, here, -, -, -, -, any⟩ := value_least transmitted
  exact (any _ (.swap _ _ _)).trans here.symm

end SlStatus.SndioVolume
