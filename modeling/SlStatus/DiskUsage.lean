import SlStatus.Display
import SlStatus.Integers
import SlStatus.Truncation

/-! `components/disk.c`. The sizes are products of unsigned counters; the percentage is a quotient of `double`, which
is subtracted from one and multiplied. -/

namespace SlStatus.DiskUsage
open BinaryFloat CString Display Integers
open CpuUsage (truncate)

/-- What `statvfs` tells of a file system; nothing where it fails. -/
structure Statvfs where
  fFrsize : UInt64
  fBlocks : UInt64
  fBfree : UInt64
  fBavail : UInt64
  deriving DecidableEq

section Functions

variable (fs : Option Statvfs)

/-- The number handed to `fmt_human`, as in the next two. -/
def diskFree : Option UInt64 := fs.map fun fs => fs.fFrsize * fs.fBavail

def diskTotal : Option UInt64 := fs.map fun fs => fs.fFrsize * fs.fBlocks

def diskUsed : Option UInt64 := fs.map fun fs => fs.fFrsize * (fs.fBlocks - fs.fBfree)

/-- No result where the division is by zero, or the number is none of an `int`. -/
def diskPerc : Option (Option Text) :=
  match fs with
  | none => some none
  | some fs =>
      if fs.fBlocks = 0 then none
      else
        (exactly .int (truncate (double (100 *
          double (1 - double (double (fs.fBavail.toNat : ℚ) / double (fs.fBlocks.toNat : ℚ))))))).map fun percentage =>
            bprintf (decimal percentage)

end Functions

section Percentage

variable {available blocks : Nat}

theorem quotient_bounds (positive : 0 < blocks) (some : available ≤ blocks) :
    (0 : ℚ) ≤ available / blocks ∧ (available : ℚ) / blocks ≤ 1 := by
  constructor
  · positivity
  · rw [div_le_one (by exact_mod_cast positive)]
    exact_mod_cast some

/-- What is left of one stays between zero and one. -/
theorem rest_bounds {q : ℚ} (low : 0 ≤ q) (high : q ≤ 1) :
    0 ≤ double q ∧ double q ≤ 1 ∧ 0 ≤ double (1 - double q) ∧ double (1 - double q) ≤ 1 := by
  have one : Representable 53 (1 : ℚ) := by exact_mod_cast representable_intCast (K := ℚ) (p := 53) (n := 1) (by decide)
  have below := nearest_le (by decide) one high
  have above := nearest_nonneg (p := 53) (by decide) low
  refine ⟨above, below, ?_, ?_⟩
  · exact nearest_nonneg (by decide) (by linarith)
  · exact nearest_le (by decide) one (by linarith)

theorem error_le {x : ℚ} (nonneg : 0 ≤ x) : |double x - x| ≤ x / 2 ^ 53 := by
  have error := nearest_relative 53 x
  rwa [abs_of_nonneg nonneg] at error

/-- The chain of roundings stays close to the exact percentage. -/
theorem percentage_near (positive : 0 < blocks) (some : available ≤ blocks) (small : 300 * blocks < 2 ^ 53) :
    |double (100 * double (1 - double ((available : ℚ) / blocks))) - (100 * (blocks - available) : Nat) / (blocks : ℚ)| *
      blocks < 1 := by
  have divisor : (0 : ℚ) < blocks := by exact_mod_cast positive
  have exact : ((100 * (blocks - available) : Nat) : ℚ) / blocks = 100 * (1 - available / blocks) := by
    push_cast [some]
    field_simp
  obtain ⟨nonneg, part⟩ := quotient_bounds positive some
  obtain ⟨low, high, low', high'⟩ := rest_bounds nonneg part
  have first := error_le nonneg
  have second := error_le (by linarith : 0 ≤ 1 - double ((available : ℚ) / blocks))
  have third := error_le (by linarith : 0 ≤ 100 * double (1 - double ((available : ℚ) / blocks)))
  have distance : |double (100 * double (1 - double ((available : ℚ) / blocks))) - 100 * (1 - available / blocks)| ≤
      300 / 2 ^ 53 := by
    rw [abs_le] at first second third ⊢
    constructor <;> linarith
  have bound : (300 : ℚ) * blocks < 2 ^ 53 := by exact_mod_cast small
  rw [exact]
  calc
    _ ≤ 300 / 2 ^ 53 * (blocks : ℚ) := mul_le_mul_of_nonneg_right distance divisor.le
    _ = 300 * blocks / 2 ^ 53 := by ring
    _ < 1 := by rwa [div_lt_one (by norm_num)]

/-- The percentage in use, or one less where that is a whole number. -/
theorem percentage_cases (positive : 0 < blocks) (some : available ≤ blocks) (small : 300 * blocks < 2 ^ 53) :
    ∃ n : Nat, truncate (double (100 * double (1 - double ((available : ℚ) / blocks)))) = n ∧ n ≤ 100 ∧
      (n = 100 * (blocks - available) / blocks ∨
        blocks ∣ 100 * (blocks - available) ∧ n + 1 = 100 * (blocks - available) / blocks) := by
  obtain ⟨nonneg, part⟩ := quotient_bounds positive some
  obtain ⟨-, -, low, -⟩ := rest_bounds nonneg part
  have sign : 0 ≤ double (100 * double (1 - double ((available : ℚ) / blocks))) :=
    nearest_nonneg (by decide) (by linarith)
  obtain ⟨n, floor⟩ := Int.eq_ofNat_of_zero_le (Int.floor_nonneg.mpr sign)
  have near := floor_of_near positive (percentage_near positive some small)
  have most : 100 * (blocks - available) / blocks ≤ 100 := by
    apply Nat.div_le_of_le_mul
    rw [Nat.mul_comm]
    exact Nat.mul_le_mul_right 100 (Nat.sub_le _ _)
  rw [floor] at near
  refine ⟨n, by rw [truncate, if_pos sign, floor], ?_, ?_⟩
  · omega
  · rcases near with same | ⟨whole, missed⟩
    · exact .inl (by exact_mod_cast same)
    · exact .inr ⟨whole, by exact_mod_cast missed⟩

end Percentage

section Shown

variable {fs : Statvfs}

theorem diskPerc_eq (positive : 0 < fs.fBlocks.toNat) (some : fs.fBavail.toNat ≤ fs.fBlocks.toNat)
    (small : 300 * fs.fBlocks.toNat < 2 ^ 53) :
    ∃ n : Nat, diskPerc (.some fs) = .some (.some (decimal n)) ∧ n ≤ 100 ∧
      (n = 100 * (fs.fBlocks.toNat - fs.fBavail.toNat) / fs.fBlocks.toNat ∨
        fs.fBlocks.toNat ∣ 100 * (fs.fBlocks.toNat - fs.fBavail.toNat) ∧
          n + 1 = 100 * (fs.fBlocks.toNat - fs.fBavail.toNat) / fs.fBlocks.toNat) := by
  obtain ⟨n, number, most, cases⟩ := percentage_cases positive some small
  refine ⟨n, ?_, most, cases⟩
  have nonzero : fs.fBlocks ≠ 0 := by
    rintro zero
    rw [zero] at positive
    exact absurd positive (by decide)
  have fits : IntType.int.Holds n := by
    rw [IntType.holds_int]
    omega
  have length := @length_decimal_le n 3 (by decide) (by omega)
  simp only [diskPerc, if_neg nonzero]
  rw [double_natCast (by omega), double_natCast (by omega), number, exactly, if_pos fits, Option.map_some, bprintf_eq,
    if_pos (by omega)]

/-- The product does not wrap. -/
theorem size_eq {count : UInt64} (le : count.toNat ≤ fs.fBlocks.toNat)
    (fits : fs.fFrsize.toNat * fs.fBlocks.toNat < UInt64.size) :
    (fs.fFrsize * count).toNat = fs.fFrsize.toNat * count.toNat := by
  rw [UInt64.toNat_mul]
  exact Nat.mod_eq_of_lt ((Nat.mul_le_mul_left _ le).trans_lt fits)

/-- The sizes add up, with what is free and not available left out; and the percentage is the exact one of what is not
available, or one less where that is a whole number. -/
theorem disk_shown (available : fs.fBavail.toNat ≤ fs.fBfree.toNat) (free : fs.fBfree.toNat ≤ fs.fBlocks.toNat)
    (fits : fs.fFrsize.toNat * fs.fBlocks.toNat < UInt64.size) :
    (∃ used free total, diskUsed (some fs) = some used ∧ diskFree (some fs) = some free ∧
      diskTotal (some fs) = some total ∧ total.toNat = fs.fFrsize.toNat * fs.fBlocks.toNat ∧
      used.toNat + free.toNat + fs.fFrsize.toNat * (fs.fBfree.toNat - fs.fBavail.toNat) = total.toNat) ∧
    (0 < fs.fBlocks.toNat → 300 * fs.fBlocks.toNat < 2 ^ 53 →
      ∃ n : Nat, diskPerc (some fs) = some (some (decimal n)) ∧ n ≤ 100 ∧
        (n = 100 * (fs.fBlocks.toNat - fs.fBavail.toNat) / fs.fBlocks.toNat ∨
          fs.fBlocks.toNat ∣ 100 * (fs.fBlocks.toNat - fs.fBavail.toNat) ∧
            n + 1 = 100 * (fs.fBlocks.toNat - fs.fBavail.toNat) / fs.fBlocks.toNat)) := by
  constructor
  · refine ⟨_, _, _, rfl, rfl, rfl, size_eq le_rfl fits, ?_⟩
    have difference : (fs.fBlocks - fs.fBfree).toNat = fs.fBlocks.toNat - fs.fBfree.toNat :=
      UInt64.toNat_sub_of_le _ _ free
    rw [size_eq (by omega) fits, size_eq (by omega) fits, size_eq le_rfl fits, difference, ← Nat.mul_add,
      ← Nat.mul_add]
    congr 1
    omega
  · intro positive small
    exact diskPerc_eq positive (available.trans free) small

/-- A disk of which one block in ten is in use. -/
theorem disk_shown_tenth :
    diskPerc (some ⟨4096, 10, 9, 9⟩) = some (some (decimal 9)) ∧
    ∃ n : Nat, diskPerc (some ⟨4096, 10, 9, 9⟩) = some (some (decimal n)) ∧ n ≤ 100 ∧
      (n = 100 * (10 - 9) / 10 ∨ 10 ∣ 100 * (10 - 9) ∧ n + 1 = 100 * (10 - 9) / 10) :=
  ⟨by decide +kernel, (@disk_shown ⟨4096, 10, 9, 9⟩ (by decide) (by decide) (by decide)).2 (by decide) (by decide)⟩

end Shown

end SlStatus.DiskUsage
