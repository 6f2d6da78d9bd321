import SlStatus.Memory
import SlStatus.Swap

/-! The percentages of memory and swap on the three systems, each against the floor of the exact
quotient. Six expressions of one kind in four types. -/

namespace SlStatus.Percentages
open Display Integers Memory

/-- The values that one call has read. -/
inductive Reading where
  | linuxRam (read : Linux.Meminfo)
  | linuxSwap (read : Linux.Swap)
  | openBsdRam (read : OpenBsd.Uvmexp)
  | openBsdSwap (total used : Int)
  | freeBsdRam (active npages : UInt32)
  | freeBsdSwap (read : FreeBsd.KvmSwap)

namespace Reading

def perc (arith : Arithmetic) : Reading → Option (Option Int)
  | linuxRam read => Linux.ramPerc arith (some read)
  | linuxSwap read => Linux.swapPerc arith (some read)
  | openBsdRam read => OpenBsd.ramPerc arith (some read)
  | openBsdSwap total used => OpenBsd.swapPerc arith (some (total, used))
  | freeBsdRam active npages => FreeBsd.ramPerc arith (some (active, npages))
  | freeBsdSwap read => FreeBsd.swapPerc arith (some read)

def total : Reading → Int
  | linuxRam read => read.total.toNat
  | linuxSwap read => read.total.toInt
  | openBsdRam read => read.npages.toInt
  | openBsdSwap total _ => total
  | freeBsdRam _ npages => npages.toNat
  | freeBsdSwap read => read.kswTotal.toNat

/-- What is left of the total when the parts that are not in use are taken away; this may be less
than nothing. -/
def rest : Reading → Int
  | linuxRam read => read.total.toNat - (read.free.toNat + read.buffers.toNat + read.cached.toNat)
  | linuxSwap read => read.total.toInt - read.free.toInt - read.cached.toInt
  | openBsdRam read => read.active.toInt
  | openBsdSwap _ used => used
  | freeBsdRam active _ => active.toNat
  | freeBsdSwap read => read.kswUsed.toNat

def used (r : Reading) : Int := max 0 r.rest

/-- A used part that is reported itself is not above the total. -/
def Reported : Reading → Prop
  | linuxRam _ | linuxSwap _ => True
  | openBsdRam read => 0 ≤ read.active.toInt ∧ read.active ≤ read.npages
  | openBsdSwap total used => 0 ≤ used ∧ used ≤ total ∧ IntType.int.Holds total
  | freeBsdRam active npages => active ≤ npages
  | freeBsdSwap read => read.kswUsed ≤ read.kswTotal

/-- What has to hold of the values: no product or difference that leaves its type, and a total
to divide by. -/
def Sound : Reading → Prop
  | linuxRam read =>
      read.total = 0 ∨
        read.free.toNat + read.buffers.toNat + read.cached.toNat ≤ read.total.toNat ∧
          100 * (read.total.toNat - (read.free.toNat + read.buffers.toNat + read.cached.toNat)) < 2 ^ 64
  | linuxSwap read =>
      read.total = 0 ∨
        IntType.long.Holds (read.total.toInt - read.free.toInt) ∧
          IntType.long.Holds (100 * (read.total.toInt - read.free.toInt - read.cached.toInt)) ∧
          (0 < read.total.toInt ∧ -read.total.toInt < 100 * (read.total.toInt - read.free.toInt - read.cached.toInt) ∧
              100 * (read.total.toInt - read.free.toInt - read.cached.toInt) < 101 * read.total.toInt ∨
            read.total.toInt < 100 * (read.total.toInt - read.free.toInt - read.cached.toInt) ∧
              read.total.toInt - read.free.toInt - read.cached.toInt ≤ 0 ∧ read.total.toInt < 0)
  | openBsdRam read => read.npages ≠ 0 ∧ 100 * read.active.toInt < 2 ^ 31
  | openBsdSwap _ used => 100 * used < 2 ^ 31
  | freeBsdRam active npages => npages ≠ 0 ∧ 100 * active.toNat < 2 ^ 32
  | freeBsdSwap read => read.kswTotal ≠ 0

end Reading

/-- A result is the percentage of the exact quantities. -/
def Percentage (r : Reading) (result : Option Int) : Prop :=
  ∀ percent, result = some percent →
    0 ≤ percent ∧ percent ≤ 100 ∧ percent = (100 * r.used).fdiv r.total

/-- The call returns `NULL` or prints the percentage, and no operation on the way leaves the
range of its type. -/
def Right (r : Reading) : Prop :=
  ∃ result, r.perc machine = some result ∧ r.perc strict = some result ∧ Percentage r result

/-- The product, the quotient and the `int` that is printed. -/
theorem quotient_refines (t : IntType) (a b total : Int) :
    Refines ((mul strict t a b).bind fun product => (div strict t product total).bind fun quotient =>
        (strict.result .int quotient).bind fun percent => some (some percent))
      ((mul machine t a b).bind fun product => (div machine t product total).bind fun quotient =>
        (machine.result .int quotient).bind fun percent => some (some percent)) := by
  apply Refines.bind (refines_result _ _)
  intro product
  apply Refines.bind (refines_div _ _ _)
  intro quotient
  exact Refines.bind (refines_result _ _) fun _ => .refl _

theorem refines (r : Reading) : Refines (r.perc strict) (r.perc machine) := by
  cases r with
  | linuxRam read =>
    unfold Reading.perc Linux.ramPerc
    dsimp only
    split_ifs
    · exact .refl _
    · apply Refines.bind (refines_result _ _)
      intro rest
      apply Refines.bind (refines_result _ _)
      intro cache
      apply Refines.bind (refines_result _ _)
      intro used
      apply Refines.bind (refines_result _ _)
      intro product
      apply Refines.bind (refines_div _ _ _)
      intro quotient
      exact Refines.bind (refines_conversion _ _) fun _ => .refl _
  | linuxSwap read =>
    unfold Reading.perc Linux.swapPerc
    dsimp only
    split_ifs
    · exact .refl _
    · apply Refines.bind (refines_result _ _)
      intro rest
      apply Refines.bind (refines_result _ _)
      intro used
      exact quotient_refines _ _ _ _
  | openBsdRam read =>
    unfold Reading.perc OpenBsd.ramPerc
    apply Refines.bind (refines_result _ _)
    intro product
    exact Refines.bind (refines_div _ _ _) fun _ => .refl _
  | openBsdSwap total used =>
    unfold Reading.perc OpenBsd.swapPerc
    dsimp only
    split_ifs
    · exact .refl _
    · apply Refines.bind (refines_result _ _)
      intro product
      exact Refines.bind (refines_div _ _ _) fun _ => .refl _
  | freeBsdRam active npages =>
    unfold Reading.perc FreeBsd.ramPerc
    exact quotient_refines _ _ _ _
  | freeBsdSwap read =>
    unfold Reading.perc FreeBsd.swapPerc
    apply Refines.bind (refines_conversion _ _)
    intro total
    apply Refines.bind (refines_conversion _ _)
    intro used
    exact quotient_refines _ _ _ _

theorem right_iff (r : Reading) : Right r ↔ ∃ result, r.perc strict = some result ∧ Percentage r result := by
  constructor
  · rintro ⟨result, -, exact_, percentage⟩
    exact ⟨result, exact_, percentage⟩
  · rintro ⟨result, exact_, percentage⟩
    exact ⟨result, refines r result exact_, exact_, percentage⟩

theorem not_right_of_undefined {r : Reading} (undefined : r.perc machine = none) : ¬ Right r := by
  rintro ⟨result, defined, -⟩
  rw [undefined] at defined
  cases defined

/-- A quotient that rounds towards zero, of numbers with one sign, vanishes below the divisor. -/
theorem quotient_zero (number divisor : Int) (nonneg : 0 ≤ number) (positive : 0 < divisor) :
    number.tdiv divisor = 0 ↔ number < divisor := by
  constructor
  · intro zero
    have below : number.tdiv divisor < 1 := by omega
    simpa only [one_mul] using Int.lt_mul_of_tdiv_lt positive below
  · exact Int.tdiv_eq_zero_of_lt nonneg

/-- The quotient of C is the percentage of what is in use if that is in a total that is positive, up to a
hundredth more or less, and in a negative one if nothing is in use. -/
theorem quotient_iff {total : Int} (rest : Int) (nonzero : total ≠ 0) :
    (0 ≤ (100 * rest).tdiv total ∧ (100 * rest).tdiv total ≤ 100 ∧
        (100 * rest).tdiv total = (100 * max 0 rest).fdiv total) ↔
      0 < total ∧ -total < 100 * rest ∧ 100 * rest < 101 * total ∨ total < 100 * rest ∧ rest ≤ 0 ∧ total < 0 := by
  rcases lt_or_gt_of_ne nonzero with negative | positive
  · rcases le_or_gt rest 0 with none | some
    · -- both signs turned
      rw [max_eq_left none, mul_zero, Int.zero_fdiv, ← Int.neg_tdiv_neg]
      have zero := quotient_zero (-(100 * rest)) (-total) (by omega) (by omega)
      omega
    · rw [max_eq_right some.le]
      have nonpos := Int.tdiv_nonpos_of_nonneg_of_nonpos (a := 100 * rest) (by omega) negative.le
      have floor : (100 * rest).fdiv total < 0 := by
        rw [← Int.neg_fdiv_neg]
        exact Int.fdiv_neg_of_neg_of_pos (by omega) (by omega)
      omega
  · rcases lt_or_ge rest 0 with none | some
    · rw [max_eq_left none.le, mul_zero, Int.zero_fdiv]
      have turned : (100 * rest).tdiv total = -(-(100 * rest)).tdiv total := by
        rw [Int.neg_tdiv, neg_neg]
      have zero := quotient_zero (-(100 * rest)) total (by omega) positive
      omega
    · rw [max_eq_right some, Int.fdiv_eq_tdiv_of_nonneg (by omega) positive.le, Int.tdiv_eq_ediv_of_nonneg (by omega)]
      have nonneg := Int.ediv_nonneg (a := 100 * rest) (by omega) positive.le
      have below := Int.ediv_lt_iff_lt_mul (a := 100 * rest) (b := 101) positive
      omega

/-- A used part that is reported is always in range. -/
theorem quotient_reported {total rest : Int} (nonneg : 0 ≤ rest) (within : rest ≤ total) (nonzero : total ≠ 0) :
    0 ≤ (100 * rest).tdiv total ∧ (100 * rest).tdiv total ≤ 100 ∧
      (100 * rest).tdiv total = (100 * max 0 rest).fdiv total :=
  (quotient_iff rest nonzero).mpr (.inl (by omega))

theorem toNat_ne_zero {n : UInt32} : n ≠ 0 ↔ (n.toNat : Int) ≠ 0 := by
  rw [ne_eq, ← UInt32.toNat_inj]
  exact Int.natCast_eq_zero.not.symm

/-- The one path on which the strict arithmetic has a percentage. -/
theorem right_of_path {r : Reading} {fits : Prop} {percent : Int}
    (path : ∀ result, r.perc strict = some result ↔ fits ∧ some percent = result) :
    Right r ↔ fits ∧ 0 ≤ percent ∧ percent ≤ 100 ∧ percent = (100 * r.used).fdiv r.total := by
  rw [right_iff]
  constructor
  · rintro ⟨result, here, percentage⟩
    obtain ⟨holds, rfl⟩ := (path result).mp here
    exact ⟨holds, percentage percent rfl⟩
  · rintro ⟨holds, bounds⟩
    refine ⟨some percent, (path _).mpr ⟨holds, rfl⟩, ?_⟩
    rintro _ ⟨⟩
    exact bounds

theorem right_of_null {r : Reading} (null : r.perc strict = some none) : Right r := by
  rw [right_iff]
  refine ⟨none, null, ?_⟩
  rintro percent ⟨⟩

theorem linux_ram_path {total free buffers cached : UInt64} (nonzero : total ≠ 0) (result : Option Int) :
    Linux.ramPerc strict (some ⟨total, free, buffers, cached⟩) = some result ↔
      (IntType.unsignedLong.Holds (total.toNat - free.toNat) ∧
        IntType.unsignedLong.Holds (buffers.toNat + cached.toNat) ∧
        IntType.unsignedLong.Holds (total.toNat - free.toNat - (buffers.toNat + cached.toNat)) ∧
        IntType.unsignedLong.Holds (100 * (total.toNat - free.toNat - (buffers.toNat + cached.toNat))) ∧
        IntType.unsignedLong.Holds
          (Int.tdiv (100 * (total.toNat - free.toNat - (buffers.toNat + cached.toNat))) total.toNat) ∧
        IntType.int.Holds
          (Int.tdiv (100 * (total.toNat - free.toNat - (buffers.toNat + cached.toNat))) total.toNat)) ∧
      some (Int.tdiv (100 * (total.toNat - free.toNat - (buffers.toNat + cached.toNat))) total.toNat) = result := by
  have divisor : total.toNat ≠ 0 := fun same => nonzero (UInt64.toNat_inj.mp same)
  simp only [Linux.ramPerc, if_neg nonzero, Option.bind_eq_bind, add, sub, mul, strict_result, strict_conversion,
    bind_exactly_eq_some, bind_div_eq_some, Option.pure_def, Option.some.injEq, and_assoc, ne_eq,
    Int.natCast_eq_zero, divisor, not_false_eq_true, true_and]

/-- A difference that does not wrap is not above the total. -/
theorem linux_ram_iff (read : Linux.Meminfo) : Right (.linuxRam read) ↔ (Reading.linuxRam read).Sound := by
  obtain ⟨total, free, buffers, cached⟩ := read
  by_cases zero : total = 0
  · exact iff_of_true (right_of_null (by simp only [Reading.perc, Linux.ramPerc, if_pos zero])) (.inl zero)
  · have nonzero : total.toNat ≠ 0 := fun same => zero (UInt64.toNat_inj.mp same)
    have bounded := total.toNat_lt
    have rest : (total.toNat : Int) - (free.toNat + buffers.toNat + cached.toNat) =
        total.toNat - free.toNat - (buffers.toNat + cached.toNat) := by omega
    rw [right_of_path (r := .linuxRam ⟨total, free, buffers, cached⟩) (linux_ram_path zero)]
    simp only [Reading.Sound, Reading.used, Reading.rest, Reading.total, zero, false_or, rest,
      IntType.holds_unsignedLong, IntType.holds_int]
    constructor
    · rintro ⟨⟨-, -, nonneg, product, -⟩, -⟩
      omega
    · rintro ⟨within, product⟩
      have nonneg : 0 ≤ (total.toNat - free.toNat - (buffers.toNat + cached.toNat) : Int) := by omega
      have below : (total.toNat - free.toNat - (buffers.toNat + cached.toNat) : Int) ≤ total.toNat := by omega
      have quotient := quotient_reported nonneg below (Int.natCast_ne_zero.mpr nonzero)
      omega

theorem linux_swap_path {read : Linux.Swap} (nonzero : read.total ≠ 0) (result : Option Int) :
    Linux.swapPerc strict (some read) = some result ↔
      (IntType.long.Holds (read.total.toInt - read.free.toInt) ∧
        IntType.long.Holds (read.total.toInt - read.free.toInt - read.cached.toInt) ∧
        IntType.long.Holds (100 * (read.total.toInt - read.free.toInt - read.cached.toInt)) ∧
        IntType.long.Holds
          (Int.tdiv (100 * (read.total.toInt - read.free.toInt - read.cached.toInt)) read.total.toInt) ∧
        IntType.int.Holds
          (Int.tdiv (100 * (read.total.toInt - read.free.toInt - read.cached.toInt)) read.total.toInt)) ∧
      some (Int.tdiv (100 * (read.total.toInt - read.free.toInt - read.cached.toInt)) read.total.toInt) =
        result := by
  have divisor : read.total.toInt ≠ 0 := fun same => nonzero (Int64.toInt_inj.mp same)
  simp only [Linux.swapPerc, if_neg nonzero, Option.bind_eq_bind, sub, mul, strict_result,
    bind_exactly_eq_some, bind_div_eq_some, Option.pure_def, Option.some.injEq, and_assoc, ne_eq, divisor,
    not_false_eq_true, true_and]

theorem linux_swap_iff (read : Linux.Swap) : Right (.linuxSwap read) ↔ (Reading.linuxSwap read).Sound := by
  by_cases zero : read.total = 0
  · exact iff_of_true (right_of_null (by simp only [Reading.perc, Linux.swapPerc, if_pos zero])) (.inl zero)
  · have nonzero : read.total.toInt ≠ 0 := fun same => zero (Int64.toInt_inj.mp same)
    have least := read.total.le_toInt
    have most := read.total.toInt_lt
    have quotient := quotient_iff (read.total.toInt - read.free.toInt - read.cached.toInt) nonzero
    rw [right_of_path (r := .linuxSwap read) (linux_swap_path zero)]
    simp only [Reading.Sound, Reading.used, Reading.rest, Reading.total, zero, false_or,
      IntType.holds_long, IntType.holds_int] at quotient ⊢
    omega

/-- Where every operation has a result, the text that `swap_perc` returns is made of this number. -/
theorem linux_swap_printed {behind : List CString.Byte} {file : Option Swap.File} {vars : Swap.Vars} {read : Linux.Swap}
    (opened : Swap.getSwapInfo Swap.all behind file = (0, vars))
    (total : vars.value .swapTotal = some read.total.toInt) (free : vars.value .swapFree = some read.free.toInt)
    (cached : vars.value .swapCached = some read.cached.toInt) {result : Option Int}
    (defined : Linux.swapPerc machine (some read) = some result) :
    Swap.swapPerc behind file = some (result.bind fun percent => bprintf (decimal percent)) := by
  have same : Linux.swapPerc machine (some read) = Linux.swapPerc strict (some read) := by
    simp only [Linux.swapPerc, sub, mul, machine_signed (t := .long) rfl, machine_signed (t := .int) rfl,
      div_signed (t := .long) rfl, strict_result]
  rw [same] at defined
  simp only [Swap.swapPerc, opened, total, free, cached, ne_eq, not_true_eq_false, reduceIte, Option.bind_eq_bind,
    Option.bind_some, Option.pure_def]
  by_cases zero : read.total = 0
  · simp only [Linux.swapPerc, if_pos zero, Option.some.injEq] at defined
    rw [if_pos (by rw [zero]; rfl), ← defined, Option.bind_none]
  · have nonzero : read.total.toInt ≠ 0 := fun same => zero (Int64.toInt_inj.mp same)
    obtain ⟨⟨-, -, product, -, quotient⟩, rfl⟩ := (linux_swap_path zero result).mp defined
    have product := IntType.convert_of_holds product
    have quotient := IntType.convert_of_holds quotient
    change Int.bmod _ (2 ^ 64) = _ at product
    change Int.bmod _ (2 ^ 32) = _ at quotient
    rw [if_neg nonzero, product, quotient, Option.bind_some]

theorem openBsd_ram_iff (read : OpenBsd.Uvmexp) (reported : (Reading.openBsdRam read).Reported) :
    Right (.openBsdRam read) ↔ (Reading.openBsdRam read).Sound := by
  obtain ⟨npages, active, pageshift⟩ := read
  have nonneg : 0 ≤ active.toInt := reported.1
  have within : active.toInt ≤ npages.toInt := Int32.le_iff_toInt_le.mp reported.2
  have path (result : Option Int) :
      (Reading.openBsdRam ⟨npages, active, pageshift⟩).perc strict = some result ↔
        (IntType.int.Holds (100 * active.toInt) ∧ npages.toInt ≠ 0 ∧
          IntType.int.Holds (Int.tdiv (100 * active.toInt) npages.toInt)) ∧
        some (Int.tdiv (100 * active.toInt) npages.toInt) = result := by
    simp only [Reading.perc, OpenBsd.ramPerc, Option.bind_eq_bind, mul, strict_result, bind_exactly_eq_some,
      bind_div_eq_some, Option.pure_def, Option.some.injEq, and_assoc, mul_comm active.toInt]
  have zero : npages ≠ 0 ↔ npages.toInt ≠ 0 := Int32.toInt_inj.not.symm
  rw [right_of_path path]
  simp only [Reading.Sound, Reading.used, Reading.rest, Reading.total, IntType.holds_int, zero]
  by_cases nonzero : npages.toInt = 0
  · simp only [nonzero, ne_eq, not_true_eq_false, false_and, and_false]
  · have quotient := quotient_reported nonneg within nonzero
    omega

theorem openBsd_swap_iff {total used : Int} (reported : (Reading.openBsdSwap total used).Reported) :
    Right (.openBsdSwap total used) ↔ (Reading.openBsdSwap total used).Sound := by
  obtain ⟨nonneg, within, holds⟩ := reported
  by_cases zero : total = 0
  · exact iff_of_true (right_of_null (by simp only [Reading.perc, OpenBsd.swapPerc, if_pos zero]))
      (show 100 * used < 2 ^ 31 by omega)
  · have path (result : Option Int) :
        (Reading.openBsdSwap total used).perc strict = some result ↔
          (IntType.int.Holds (100 * used) ∧ IntType.int.Holds (Int.tdiv (100 * used) total)) ∧
          some (Int.tdiv (100 * used) total) = result := by
      simp only [Reading.perc, OpenBsd.swapPerc, zero, reduceIte, Option.bind_eq_bind, mul, strict_result,
        bind_exactly_eq_some, bind_div_eq_some, Option.pure_def, Option.some.injEq, and_assoc, ne_eq,
        not_false_eq_true, true_and]
    have quotient := quotient_reported nonneg within zero
    rw [right_of_path path]
    simp only [Reading.Sound, Reading.used, Reading.rest, Reading.total, IntType.holds_int]
    omega

theorem freeBsd_ram_iff {active npages : UInt32} (reported : (Reading.freeBsdRam active npages).Reported) :
    Right (.freeBsdRam active npages) ↔ (Reading.freeBsdRam active npages).Sound := by
  have within : active.toNat ≤ npages.toNat := UInt32.le_iff_toNat_le.mp reported
  have path (result : Option Int) :
      (Reading.freeBsdRam active npages).perc strict = some result ↔
        (IntType.unsignedInt.Holds (100 * active.toNat) ∧ (npages.toNat : Int) ≠ 0 ∧
          IntType.unsignedInt.Holds (Int.tdiv (100 * active.toNat) npages.toNat) ∧
          IntType.int.Holds (Int.tdiv (100 * active.toNat) npages.toNat)) ∧
        some (Int.tdiv (100 * active.toNat) npages.toNat) = result := by
    simp only [Reading.perc, FreeBsd.ramPerc, Option.bind_eq_bind, mul, strict_result, bind_exactly_eq_some,
      bind_div_eq_some, Option.pure_def, Option.some.injEq, and_assoc, mul_comm (active.toNat : Int)]
  rw [right_of_path path]
  simp only [Reading.Sound, Reading.used, Reading.rest, Reading.total, IntType.holds_unsignedInt,
    IntType.holds_int, toNat_ne_zero]
  by_cases nonzero : (npages.toNat : Int) = 0
  · simp only [nonzero, ne_eq, not_true_eq_false, false_and, and_false]
  · have quotient := quotient_reported (Int.natCast_nonneg _) (Int.ofNat_le.mpr within) nonzero
    omega

/-- The only type in which nothing is lost. -/
theorem freeBsd_swap_iff (read : FreeBsd.KvmSwap) (reported : (Reading.freeBsdSwap read).Reported) :
    Right (.freeBsdSwap read) ↔ (Reading.freeBsdSwap read).Sound := by
  obtain ⟨kswTotal, kswUsed⟩ := read
  have within : kswUsed.toNat ≤ kswTotal.toNat := UInt32.le_iff_toNat_le.mp reported
  have bounded := kswTotal.toNat_lt
  have path (result : Option Int) :
      (Reading.freeBsdSwap ⟨kswTotal, kswUsed⟩).perc strict = some result ↔
        (IntType.long.Holds kswTotal.toNat ∧ IntType.long.Holds kswUsed.toNat ∧
          IntType.long.Holds (100 * kswUsed.toNat) ∧ (kswTotal.toNat : Int) ≠ 0 ∧
          IntType.long.Holds (Int.tdiv (100 * kswUsed.toNat) kswTotal.toNat) ∧
          IntType.int.Holds (Int.tdiv (100 * kswUsed.toNat) kswTotal.toNat)) ∧
        some (Int.tdiv (100 * kswUsed.toNat) kswTotal.toNat) = result := by
    simp only [Reading.perc, FreeBsd.swapPerc, Option.bind_eq_bind, mul, strict_result, strict_conversion,
      bind_exactly_eq_some, bind_div_eq_some, Option.pure_def, Option.some.injEq, and_assoc,
      mul_comm (kswUsed.toNat : Int)]
  rw [right_of_path path]
  simp only [Reading.Sound, Reading.used, Reading.rest, Reading.total, IntType.holds_long, IntType.holds_int,
    toNat_ne_zero]
  by_cases nonzero : (kswTotal.toNat : Int) = 0
  · simp only [nonzero, ne_eq, not_true_eq_false, false_and, and_false]
  · have quotient := quotient_reported (Int.natCast_nonneg _) (Int.ofNat_le.mpr within) nonzero
    omega

theorem percentages_iff (r : Reading) (reported : r.Reported) : Right r ↔ r.Sound :=
  match r with
  | .linuxRam read => linux_ram_iff read
  | .linuxSwap read => linux_swap_iff read
  | .openBsdRam read => openBsd_ram_iff read reported
  | .openBsdSwap _ _ => openBsd_swap_iff reported
  | .freeBsdRam _ _ => freeBsd_ram_iff reported
  | .freeBsdSwap read => freeBsd_swap_iff read reported

/-- A quarter of a thousand pages. -/
theorem quarter_active : Right (.openBsdRam ⟨1000, 250, 12⟩) :=
  (percentages_iff (.openBsdRam ⟨1000, 250, 12⟩) ⟨by decide, by decide⟩).mpr ⟨by decide, by decide⟩

/-- Without swap FreeBSD divides by zero. On OpenBSD 86 GiB of active pages times 100 are too much for an
`int`, and on Linux the difference wraps when most of the memory is both free and available. -/
theorem percentages_wrong :
    ((Reading.freeBsdSwap ⟨0, 0⟩).Reported ∧ (Reading.freeBsdSwap ⟨0, 0⟩).perc machine = none ∧
        ¬ Right (.freeBsdSwap ⟨0, 0⟩)) ∧
      ((Reading.openBsdRam ⟨33554432, 22500000, 12⟩).Reported ∧
        (Reading.openBsdRam ⟨33554432, 22500000, 12⟩).perc machine = none ∧
        ¬ Right (.openBsdRam ⟨33554432, 22500000, 12⟩)) ∧
      (Reading.linuxRam ⟨1000, 900, 800, 50⟩).Reported ∧
        (Reading.linuxRam ⟨1000, 900, 800, 50⟩).perc machine = some (some 1271310244) ∧
        ¬ Right (.linuxRam ⟨1000, 900, 800, 50⟩) := by
  have noSwap : (Reading.freeBsdSwap ⟨0, 0⟩).perc machine = none := by decide +kernel
  have manyPages : (Reading.openBsdRam ⟨33554432, 22500000, 12⟩).perc machine = none := by decide +kernel
  have wrapped : (Reading.linuxRam ⟨1000, 900, 800, 50⟩).perc machine = some (some 1271310244) := by
    decide +kernel
  refine ⟨⟨UInt32.le_refl 0, noSwap, not_right_of_undefined noSwap⟩,
    ⟨⟨by decide, by decide⟩, manyPages, not_right_of_undefined manyPages⟩, trivial, wrapped, ?_⟩
  rintro ⟨result, shown, -, percentage⟩
  obtain rfl := Option.some.inj (wrapped.symm.trans shown)
  have most := (percentage _ rfl).2.1
  omega

end SlStatus.Percentages
