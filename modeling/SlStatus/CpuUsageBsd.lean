import Mathlib.Tactic.Linarith
import SlStatus.Integers
import SlStatus.Runs

/-! `cpu_perc` of `components/cpu.c` on OpenBSD and FreeBSD, where the counters are integers and a reading that
fails leaves the array alone. On OpenBSD the sums wrap, which the differences do not show. -/

namespace SlStatus.CpuUsageBsd
open Integers Runs

inductive System where
  | openBsd | freeBsd
  deriving DecidableEq

/-- `uintmax_t` or `long`. -/
def System.counter : System → IntType
  | .openBsd => .unsignedLong
  | .freeBsd => .long

/-- The elements of the array that are read, by their indices. -/
structure Cptime where
  cpUser : Int
  cpNice : Int
  cpSys : Int
  cpIntr : Int
  cpIdle : Int
  deriving DecidableEq

section Function

variable (t : IntType)

def sumAll (a : Cptime) : Option Int := do
  let sum ← add machine t a.cpUser a.cpNice
  let sum ← add machine t sum a.cpSys
  let sum ← add machine t sum a.cpIntr
  add machine t sum a.cpIdle

def sumBusy (a : Cptime) : Option Int := do
  let sum ← add machine t a.cpUser a.cpNice
  let sum ← add machine t sum a.cpSys
  add machine t sum a.cpIntr

/-- The number that is printed, `%d` taking the low bits, and the array afterwards; no result where a signed
operation overflows. -/
def cpuPerc (a : Cptime) (sysctl : Option Cptime) : Option (Option Int × Cptime) :=
  let b := a
  match sysctl with
  | none => some (none, a)
  | some a =>
      if b.cpUser = 0 then some (none, a)
      else do
        let sum ← sub machine t (← sumAll t a) (← sumAll t b)
        if sum = 0 then pure (none, a)
        else do
          let part ← sub machine t (← sumBusy t a) (← sumBusy t b)
          let product ← mul machine t 100 part
          let quotient ← div machine t product sum
          pure (some (IntType.int.convert quotient), a)

end Function

def zero : Cptime := ⟨0, 0, 0, 0, 0⟩

def step (t : IntType) (a : Cptime) (sysctl : Option Cptime) : Option Cptime := (cpuPerc t a sysctl).map Prod.snd

/-- The latest reading that did not fail. -/
def reading : Past Cptime (Option Cptime) → Option Cptime
  | [] => none
  | (_, sysctl) :: past => sysctl.or (reading past)

def Cptime.all (a : Cptime) : Int := a.cpUser + a.cpNice + a.cpSys + a.cpIntr + a.cpIdle

def Cptime.busy (a : Cptime) : Int := a.cpUser + a.cpNice + a.cpSys + a.cpIntr

def Cptime.Counts (a : Cptime) : Prop :=
  0 ≤ a.cpUser ∧ 0 ≤ a.cpNice ∧ 0 ≤ a.cpSys ∧ 0 ≤ a.cpIntr ∧ 0 ≤ a.cpIdle

def Rises (old new : Cptime) : Prop :=
  old.cpUser ≤ new.cpUser ∧ old.cpNice ≤ new.cpNice ∧ old.cpSys ≤ new.cpSys ∧ old.cpIntr ≤ new.cpIntr ∧
    old.cpIdle ≤ new.cpIdle

section Arithmetic

variable {system : System}

/-- A sum of counters as the machine has it: exact if it may not wrap. -/
def Summed (system : System) (n : Int) : Prop := system.counter.signed = true → n < system.counter.bound

theorem add_counter {n m : Int} (low : 0 ≤ n) (grows : 0 ≤ m) (summed : Summed system (n + m)) :
    add machine system.counter (system.counter.convert n) m = some (system.counter.convert (n + m)) := by
  cases system with
  | openBsd =>
    rw [add, System.counter, machine_unsigned rfl]
    congr 1
    change (n % 2 ^ 64 + m) % 2 ^ 64 = (n + m) % 2 ^ 64
    exact Int.emod_add_emod ..
  | freeBsd =>
    have fits := summed rfl
    have sum : IntType.long.Holds (n + m) := ⟨by change -9223372036854775808 ≤ n + m; omega, fits⟩
    have part : IntType.long.Holds n := by
      rw [IntType.holds_long] at sum ⊢
      omega
    change add machine .long (IntType.long.convert n) m = some (IntType.long.convert (n + m))
    rw [IntType.convert_of_holds part, IntType.convert_of_holds sum]
    exact machine_of_holds sum

/-- The difference of two sums is exact, although the sums may not be. -/
theorem sub_counter {n m : Int} (low : 0 ≤ n) (le : n ≤ m) (summed : Summed system m)
    (small : m - n < system.counter.bound) :
    sub machine system.counter (system.counter.convert m) (system.counter.convert n) = some (m - n) := by
  cases system with
  | openBsd =>
    rw [sub, System.counter, machine_unsigned rfl]
    congr 1
    change (m % 2 ^ 64 - n % 2 ^ 64) % 2 ^ 64 = m - n
    rw [← Int.sub_emod]
    exact Int.emod_eq_of_lt (by omega) small
  | freeBsd =>
    have fits := summed rfl
    have large : IntType.long.Holds m := ⟨by change -9223372036854775808 ≤ m; omega, fits⟩
    have other : IntType.long.Holds n := by
      rw [IntType.holds_long] at large ⊢
      omega
    have difference : IntType.long.Holds (m - n) := by
      rw [IntType.holds_long] at large ⊢
      omega
    change sub machine .long (IntType.long.convert m) (IntType.long.convert n) = some (m - n)
    rw [IntType.convert_of_holds large, IntType.convert_of_holds other]
    exact machine_of_holds difference

theorem Summed.mono {n m : Int} (summed : Summed system m) (le : n ≤ m) : Summed system n :=
  fun signed => le.trans_lt (summed signed)

theorem convert_counter {n : Int} (holds : system.counter.Holds n) : system.counter.convert n = n :=
  IntType.convert_of_holds holds

/-- Where the sums wrap, only the counter that they begin with has to fit. -/
def Fits (system : System) (a : Cptime) : Prop := a.cpUser < system.counter.bound ∧ Summed system a.all

theorem holds_of_fits {a : Cptime} (counts : a.Counts) (fits : Fits system a) : system.counter.Holds a.cpUser := by
  refine ⟨?_, fits.1⟩
  have low := counts.1
  cases system with
  | openBsd => exact low
  | freeBsd =>
    change -9223372036854775808 ≤ a.cpUser
    omega

theorem sumBusy_eq {a : Cptime} (counts : a.Counts) (fits : Fits system a) :
    sumBusy system.counter a = some (system.counter.convert a.busy) := by
  obtain ⟨user, nice, sys, intr, idle⟩ := counts
  have whole : Summed system a.all := fits.2
  have first : add machine system.counter a.cpUser a.cpNice = some (system.counter.convert (a.cpUser + a.cpNice)) := by
    have added := add_counter user nice (whole.mono (by unfold Cptime.all; omega))
    rwa [convert_counter (holds_of_fits ⟨user, nice, sys, intr, idle⟩ fits)] at added
  have second := add_counter (Int.add_nonneg user nice) sys (whole.mono (by unfold Cptime.all; omega))
  have third := add_counter (Int.add_nonneg (Int.add_nonneg user nice) sys) intr
    (whole.mono (by unfold Cptime.all; omega))
  simp only [sumBusy, first, second, third, Option.bind_eq_bind, Option.bind_some]
  rfl

theorem busy_nonneg {a : Cptime} (counts : a.Counts) : 0 ≤ a.busy := by
  obtain ⟨user, nice, sys, intr, -⟩ := counts
  unfold Cptime.busy
  omega

theorem sumAll_eq {a : Cptime} (counts : a.Counts) (fits : Fits system a) :
    sumAll system.counter a = some (system.counter.convert a.all) := by
  have busy := sumBusy_eq counts fits
  have last : add machine system.counter (system.counter.convert a.busy) a.cpIdle =
      some (system.counter.convert a.all) := add_counter (busy_nonneg counts) counts.2.2.2.2 fits.2
  have split : sumAll system.counter a =
      (sumBusy system.counter a).bind fun sum => add machine system.counter sum a.cpIdle := by
    simp only [sumAll, sumBusy, Option.bind_eq_bind, Option.bind_assoc]
  rw [split, busy, Option.bind_some, last]

theorem busy_le_all {a : Cptime} (counts : a.Counts) : a.busy ≤ a.all := by
  have idle := counts.2.2.2.2
  unfold Cptime.busy Cptime.all
  omega

theorem increases {old new : Cptime} (rises : Rises old new) :
    0 ≤ new.busy - old.busy ∧ new.busy - old.busy ≤ new.all - old.all := by
  obtain ⟨user, nice, sys, intr, idle⟩ := rises
  unfold Cptime.busy Cptime.all
  omega

/-- Nothing without a reading before, or when no time has passed since. -/
def percentage (before now : Option Cptime) : Option Int := do
  let old ← before
  let new ← now
  if old.cpUser = 0 ∨ new.all = old.all then none
  else some (100 * (new.busy - old.busy) / (new.all - old.all))

/-- A hundred times the time that has passed fits the type. -/
def Close (system : System) (old new : Cptime) : Prop := 100 * (new.all - old.all) < system.counter.bound

theorem holds_of_small {n : Int} (low : 0 ≤ n) (small : n < system.counter.bound) : system.counter.Holds n := by
  refine ⟨?_, small⟩
  cases system with
  | openBsd => exact low
  | freeBsd =>
    change -9223372036854775808 ≤ n
    omega

theorem quotient_bounds {part whole : Int} (low : 0 ≤ part) (le : part ≤ whole) (positive : 0 < whole) :
    0 ≤ 100 * part / whole ∧ 100 * part / whole ≤ 100 := by
  constructor
  · exact Int.ediv_nonneg (by omega) positive.le
  · apply Int.ediv_le_of_le_mul positive
    omega

theorem percentage_bounds {old new : Cptime} (rises : Rises old new) {n : Int}
    (result : percentage (some old) (some new) = some n) : 0 ≤ n ∧ n ≤ 100 := by
  simp only [percentage, Option.bind_eq_bind, Option.bind_some] at result
  split_ifs at result with absent
  obtain ⟨low, le⟩ := increases rises
  cases result
  apply quotient_bounds low le
  have changed : new.all ≠ old.all := fun same => absent (.inr same)
  omega

/-- The operations of the machine are exact. -/
theorem quotient_eq {part whole : Int} (low : 0 ≤ part) (le : part ≤ whole) (positive : 0 < whole)
    (small : 100 * whole < system.counter.bound) :
    mul machine system.counter 100 part = some (100 * part) ∧
    div machine system.counter (100 * part) whole = some (100 * part / whole) ∧
    IntType.int.convert (100 * part / whole) = 100 * part / whole := by
  obtain ⟨nonneg, hundred⟩ := quotient_bounds low le positive
  have truncated : (100 * part).tdiv whole = 100 * part / whole := Int.tdiv_eq_ediv_of_nonneg (by omega)
  refine ⟨machine_of_holds (holds_of_small (by omega) (by omega)), ?_, ?_⟩
  · rw [div, if_neg positive.ne', truncated]
    exact machine_of_holds (holds_of_small nonneg (by omega))
  · apply IntType.convert_of_holds
    rw [IntType.holds_int]
    omega

/-- A reading as the kernel gives it. -/
def Sound (system : System) (a : Cptime) : Prop := a.Counts ∧ Fits system a

theorem cpuPerc_eq {old new : Cptime} (before : Sound system old) (now : Sound system new) (rises : Rises old new)
    (close : Close system old new) :
    cpuPerc system.counter old (some new) = some (percentage (some old) (some new), new) := by
  have nonneg := (busy_nonneg before.1).trans (busy_le_all before.1)
  obtain ⟨low, le⟩ := increases rises
  have small : new.all - old.all < system.counter.bound := by
    unfold Close at close
    omega
  have sum : sub machine system.counter (system.counter.convert new.all) (system.counter.convert old.all) =
      some (new.all - old.all) := sub_counter nonneg (by omega) now.2.2 small
  have part : sub machine system.counter (system.counter.convert new.busy) (system.counter.convert old.busy) =
      some (new.busy - old.busy) :=
    sub_counter (busy_nonneg before.1) (by omega) (now.2.2.mono (busy_le_all now.1)) (by omega)
  unfold cpuPerc percentage
  simp only [Option.bind_eq_bind, Option.bind_some]
  by_cases unset : old.cpUser = 0
  · rw [if_pos unset, if_pos (.inl unset)]
  · simp only [if_neg unset, sumAll_eq before.1 before.2, sumAll_eq now.1 now.2, sumBusy_eq before.1 before.2,
      sumBusy_eq now.1 now.2, sum, part, Option.bind_some]
    by_cases same : new.all = old.all
    · have none : new.all - old.all = 0 := by omega
      rw [if_pos none, if_pos (.inr same)]
      rfl
    · have changed : new.all - old.all ≠ 0 := by omega
      rw [if_neg changed, if_neg (by tauto)]
      obtain ⟨product, quotient, converted⟩ := quotient_eq low le (by omega) close
      simp only [product, quotient, converted, Option.bind_some]
      rfl

end Arithmetic

section Runs

variable (system : System)

/-- The counters of a reading have not gone down since the one before, nor risen by too much. -/
def Allowed (past : Past Cptime (Option Cptime)) (taken : Cptime × Option Cptime) : Prop :=
  ∀ new ∈ taken.2, Sound system new ∧ ∀ old ∈ reading past, Rises old new ∧ Close system old new

/-- What the call comes to, with the readings that failed left out. -/
def Right (past : Past Cptime (Option Cptime)) (taken : Cptime × Option Cptime) : Prop :=
  cpuPerc system.counter taken.1 taken.2 =
    some (percentage (reading past) taken.2, (taken.2.or (reading past)).getD zero) ∧
  ∀ n ∈ percentage (reading past) taken.2, 0 ≤ n ∧ n ≤ 100

variable {system}

theorem right_of_reading {past : Past Cptime (Option Cptime)} {sysctl : Option Cptime}
    (known : ∀ old ∈ reading past, Sound system old)
    (allowed : Allowed system past ((reading past).getD zero, sysctl)) :
    Right system past ((reading past).getD zero, sysctl) := by
  unfold Right
  cases sysctl with
  | none =>
    cases reading past with
    | none => exact ⟨rfl, nofun⟩
    | some old => exact ⟨rfl, nofun⟩
  | some new =>
    obtain ⟨now, since⟩ := allowed new rfl
    cases latest : reading past with
    | none => exact ⟨rfl, nofun⟩
    | some old =>
      obtain ⟨rises, close⟩ := since old latest
      refine ⟨cpuPerc_eq (known old latest) now rises close, ?_⟩
      intro n result
      exact percentage_bounds rises result

/-- The array holds the latest reading, which was sound. -/
theorem kept_of_run {past : Past Cptime (Option Cptime)} {a : Cptime} (run : Run (step system.counter) zero past a)
    (allowed : Along (Allowed system) past) :
    a = (reading past).getD zero ∧ ∀ old ∈ reading past, Sound system old := by
  induction run with
  | start => exact ⟨rfl, nofun⟩
  | @step past before after sysctl run move ih =>
    obtain ⟨array, known⟩ := ih allowed.2
    have right : Right system past (before, sysctl) := by
      rw [array]
      exact right_of_reading known (array ▸ allowed.1)
    rw [step, right.1, Option.map_some] at move
    constructor
    · exact (Option.some.inj move).symm
    · intro old latest
      cases sysctl with
      | none => exact known old latest
      | some new =>
        have same : new = old := Option.some.inj latest
        rw [← same]
        exact (allowed.1 new rfl).1

/-- A run whose readings are as they should be: each further call has a result, which is the percentage of the
time since the latest reading that did not fail. -/
theorem bsd_usage_of_run {past : Past Cptime (Option Cptime)} {a : Cptime} {sysctl : Option Cptime}
    (run : Run (step system.counter) zero past a) (allowed : Along (Allowed system) past)
    (next : Allowed system past (a, sysctl)) : Right system past (a, sysctl) := by
  obtain ⟨rfl, known⟩ := kept_of_run run allowed
  exact right_of_reading known next

instance (system : System) (n : Int) : Decidable (Summed system n) := inferInstanceAs (Decidable (_ → _))

instance (system : System) (a : Cptime) : Decidable (Sound system a) :=
  inferInstanceAs (Decidable ((_ ∧ _ ∧ _ ∧ _ ∧ _) ∧ _ ∧ Summed system a.all))

instance (old new : Cptime) : Decidable (Rises old new) := inferInstanceAs (Decidable (_ ∧ _ ∧ _ ∧ _ ∧ _))

instance (system : System) (old new : Cptime) : Decidable (Close system old new) :=
  inferInstanceAs (Decidable (_ < _))

instance (system : System) (past : Past Cptime (Option Cptime)) (taken : Cptime × Option Cptime) :
    Decidable (Allowed system past taken) :=
  inferInstanceAs (Decidable (∀ new ∈ taken.2, Sound system new ∧ ∀ old ∈ reading past, _))

/-- A quarter of the time, between sums of which the later one has wrapped, and over a reading that failed. -/
theorem bsd_usage_of_run_wrapped :
    ∃ past a, Run (step System.openBsd.counter) zero past a ∧
      percentage (reading past) (some ⟨2 ^ 63 + 100, 0, 0, 0, 2 ^ 63 + 200⟩) = some 25 ∧
      Right .openBsd past (a, some ⟨2 ^ 63 + 100, 0, 0, 0, 2 ^ 63 + 200⟩) := by
  obtain ⟨past, a, run, checked⟩ := exists_run (step System.openBsd.counter) zero
    [some ⟨2 ^ 63, 0, 0, 0, 2 ^ 63 - 100⟩, none]
    (fun past a => decide (Along (Allowed .openBsd) past ∧
      percentage (reading past) (some ⟨2 ^ 63 + 100, 0, 0, 0, 2 ^ 63 + 200⟩) = some 25 ∧
      Allowed .openBsd past (a, some ⟨2 ^ 63 + 100, 0, 0, 0, 2 ^ 63 + 200⟩))) (by decide +kernel)
  obtain ⟨allowed, quarter, next⟩ := of_decide_eq_true checked
  exact ⟨past, a, run, quarter, bsd_usage_of_run run allowed next⟩

end Runs

end SlStatus.CpuUsageBsd
