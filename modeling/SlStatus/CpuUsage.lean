import Mathlib.Algebra.Order.Floor.Ring
import Mathlib.Data.Rat.Floor
import Mathlib.Tactic.Linarith
import SlStatus.Runs

/-! `cpu_perc` of `components/cpu.c` on Linux, the counters taken as exact numbers. The scan
stores into the array that holds the reading before, also when it stops halfway. -/

namespace SlStatus.CpuUsage
open Runs

/-- The `long double` array, in the order user, nice, system, idle, iowait, irq, softirq. -/
abbrev Counters := Fin 7 → ℚ

def total (a : Counters) : ℚ := a 0 + a 1 + a 2 + a 3 + a 4 + a 5 + a 6

def busy (a : Counters) : ℚ := a 0 + a 1 + a 2 + a 5 + a 6

/-- A conversion to `int`. -/
def truncate (q : ℚ) : Int := if 0 ≤ q then ⌊q⌋ else ⌈q⌉

/-- What one scan of `/proc/stat` stores before it stops; nothing where the file cannot be opened. -/
structure Scan where
  stored : List ℚ
  few : stored.length ≤ 7

def Scan.Complete (scan : Scan) : Prop := scan.stored.length = 7

instance (scan : Scan) : Decidable scan.Complete := inferInstanceAs (Decidable (_ = _))

/-- The array after the scan. -/
def pscanf (a : Counters) (scan : Scan) : Counters := fun i => scan.stored.getD i (a i)

/-- The number that is printed. -/
def cpuPerc (a : Counters) (scan : Scan) : Option Int × Counters :=
  let b := a
  let a := pscanf a scan
  if scan.stored.length ≠ 7 then (none, a)
  else if b 0 = 0 then (none, a)
  else
    let sum := total b - total a
    if sum = 0 then (none, a) else (some (truncate (100 * (busy b - busy a) / sum)), a)

def zero : Counters := fun _ => 0

def step (a : Counters) (scan : Scan) : Option Counters := some (cpuPerc a scan).2

theorem cpuPerc_array (a : Counters) (scan : Scan) : (cpuPerc a scan).2 = pscanf a scan := by
  unfold cpuPerc
  dsimp only
  split_ifs <;> rfl

/-- A complete scan leaves nothing of the reading before. -/
theorem pscanf_complete {scan : Scan} (complete : scan.Complete) (a b : Counters) : pscanf a scan = pscanf b scan := by
  funext i
  have inside : i.val < scan.stored.length := by
    rw [show scan.stored.length = 7 from complete]
    exact i.isLt
  simp only [pscanf, List.getD, List.getElem?_eq_getElem inside, Option.getD_some]

/-- The latest complete reading. -/
def reading : Past Counters Scan → Option Counters
  | [] => none
  | (_, scan) :: past => if scan.Complete then some (pscanf zero scan) else reading past

/-- The scans since the latest complete one, if there was one, changed no counter. -/
def Undisturbed : Past Counters Scan → Prop
  | [] => True
  | (a, scan) :: past => scan.Complete ∨ (∀ i, pscanf a scan i = a i) ∧ Undisturbed past

/-- The counters of a complete reading have not gone down since the one before. -/
def Rising (past : Past Counters Scan) (taken : Counters × Scan) : Prop :=
  taken.2.Complete → ∀ old ∈ reading past, ∀ i, old i ≤ pscanf zero taken.2 i

/-- A complete reading finds the array as the complete reading before has left it. -/
def Quiet (past : Past Counters Scan) (taken : Counters × Scan) : Prop := taken.2.Complete → Undisturbed past

/-- `n` is the truncated percentage of the increases between two readings. -/
def Percentage (old new : Counters) (n : Int) : Prop :=
  0 ≤ n ∧ n ≤ 100 ∧ n = truncate (100 * (busy new - busy old) / (total new - total old))

/-- A result is the percentage between this reading and the complete one before, and it is the
one that a run without the failed scans would have come to. -/
def Right (past : Past Counters Scan) (taken : Counters × Scan) : Prop :=
  (∀ n, (cpuPerc taken.1 taken.2).1 = some n → taken.2.Complete ∧
    ∃ old, reading past = some old ∧ Percentage old (pscanf zero taken.2) n) ∧
  (cpuPerc taken.1 taken.2).1 = (cpuPerc ((reading past).getD zero) taken.2).1

theorem array_of_undisturbed {past : Past Counters Scan} {a : Counters} (run : Run step zero past a)
    (undisturbed : Undisturbed past) : a = (reading past).getD zero := by
  induction run with
  | start => rfl
  | @step past before after scan run move ih =>
    cases move
    rw [cpuPerc_array, reading]
    rcases undisturbed with complete | ⟨same, undisturbed⟩
    · rw [if_pos complete]
      exact pscanf_complete complete before zero
    · split_ifs with complete
      · exact pscanf_complete complete before zero
      · rw [← ih undisturbed]
        funext i
        exact same i

theorem busy_nonneg {old new : Counters} (rising : ∀ i, old i ≤ new i) : 0 ≤ busy new - busy old := by
  unfold busy
  linarith [rising 0, rising 1, rising 2, rising 5, rising 6]

theorem busy_le_total {old new : Counters} (rising : ∀ i, old i ≤ new i) :
    busy new - busy old ≤ total new - total old := by
  unfold busy total
  linarith [rising 3, rising 4]

theorem truncate_bounds {q : ℚ} (low : 0 ≤ q) (high : q ≤ 100) : 0 ≤ truncate q ∧ truncate q ≤ 100 := by
  rw [truncate, if_pos low]
  refine ⟨Int.floor_nonneg.mpr low, ?_⟩
  apply Int.lt_add_one_iff.mp
  rw [Int.floor_lt]
  push_cast
  linarith

/-- Both differences are negative in the source, which the quotient does not show. -/
theorem percentage_of_rising {old new : Counters} (rising : ∀ i, old i ≤ new i) (changed : total old - total new ≠ 0) :
    Percentage old new (truncate (100 * (busy old - busy new) / (total old - total new))) := by
  have low := busy_nonneg rising
  have high := busy_le_total rising
  have positive : 0 < total new - total old := by
    apply lt_of_le_of_ne (low.trans high)
    intro same
    apply changed
    linarith
  have signs : 100 * (busy old - busy new) / (total old - total new) =
      100 * (busy new - busy old) / (total new - total old) := by
    rw [← neg_div_neg_eq, ← mul_neg, neg_sub, neg_sub]
  rw [signs]
  have lower : 0 ≤ 100 * (busy new - busy old) / (total new - total old) := by positivity
  have upper : 100 * (busy new - busy old) / (total new - total old) ≤ 100 := by
    rw [div_le_iff₀ positive]
    linarith
  obtain ⟨nonneg, small⟩ := truncate_bounds lower upper
  exact ⟨nonneg, small, rfl⟩

theorem right_of_quiet {past : Past Counters Scan} {a : Counters} {scan : Scan} (run : Run step zero past a)
    (rising : Rising past (a, scan)) (quiet : Quiet past (a, scan)) : Right past (a, scan) := by
  by_cases complete : scan.Complete
  · have array := array_of_undisturbed run (quiet complete)
    refine ⟨fun n result => ⟨complete, ?_⟩, by rw [array]⟩
    have size : ¬scan.stored.length ≠ 7 := not_not.mpr complete
    dsimp only at result
    rw [cpuPerc, if_neg size] at result
    dsimp only at result
    split_ifs at result with unset same
    cases result
    cases known : reading past with
    | none =>
      rw [known] at array
      exact absurd (congrFun array 0) unset
    | some old =>
      rw [known] at array
      obtain rfl : a = old := array
      refine ⟨a, rfl, ?_⟩
      rw [pscanf_complete complete a zero] at same ⊢
      exact percentage_of_rising (rising complete a known) same
  · have size : scan.stored.length ≠ 7 := complete
    refine ⟨fun n result => ?_, ?_⟩
    · dsimp only at result
      rw [cpuPerc, if_pos size] at result
      cases result
    · dsimp only
      rw [cpuPerc, cpuPerc, if_pos size, if_pos size]

/-- In every run with counters that do not go down: if no scan that stops halfway changes a
counter before the next complete one, every result is right. -/
theorem usage_right {past : Past Counters Scan} {last : Counters} (run : Run step zero past last)
    (rising : Along Rising past) (quiet : Along Quiet past) : Along Right past := by
  induction run with
  | start => trivial
  | @step past before after scan run move ih =>
    exact ⟨right_of_quiet run rising.1 quiet.1, ih rising.2 quiet.2⟩

instance decidableUndisturbed : (past : Past Counters Scan) → Decidable (Undisturbed past)
  | [] => inferInstanceAs (Decidable True)
  | (a, scan) :: past =>
      have : Decidable (Undisturbed past) := decidableUndisturbed past
      inferInstanceAs (Decidable (scan.Complete ∨ (∀ i, pscanf a scan i = a i) ∧ _))

instance (past : Past Counters Scan) (taken : Counters × Scan) : Decidable (Rising past taken) :=
  inferInstanceAs (Decidable (taken.2.Complete → ∀ old ∈ reading past, ∀ i, old i ≤ pscanf zero taken.2 i))

instance (past : Past Counters Scan) (taken : Counters × Scan) : Decidable (Quiet past taken) :=
  inferInstanceAs (Decidable (_ → _))

section Example

/-- A complete reading with these `user` and `idle` counters. -/
def full (user idle : ℚ) : Scan := ⟨[user, 0, 0, idle, 0, 0, 0], by simp⟩

/-- A scan that stops after the `user` counter. -/
def cut (user : ℚ) : Scan := ⟨[user], by simp⟩

/-- Half of the time between two readings, with a scan in between that stores what was there. -/
theorem usage_right_half :
    ∃ past last, Run step zero past last ∧ (cpuPerc last (full 2000 2000)).1 = some 50 ∧ past.length = 2 ∧
      Along Right past := by
  obtain ⟨past, last, run, checked⟩ := exists_run step zero [full 1000 1000, cut 1000]
    (fun past last => decide (Along Rising past ∧ Along Quiet past ∧
      (cpuPerc last (full 2000 2000)).1 = some 50 ∧ past.length = 2)) (by decide +kernel)
  obtain ⟨rising, quiet, half, length⟩ := of_decide_eq_true checked
  exact ⟨past, last, run, half, length, usage_right run rising quiet⟩

/-- The scan in between stores the new `user` counter: no time seems to have been busy. -/
theorem usage_lost :
    ∃ past last, Run step zero past last ∧ Along Rising past ∧ Rising past (last, full 2000 2000) ∧
      (cpuPerc last (full 2000 2000)).1 = some 0 ∧ ¬Right past (last, full 2000 2000) := by
  obtain ⟨past, last, run, checked⟩ := exists_run step zero [full 1000 1000, cut 2000]
    (fun past last => decide (Along Rising past ∧ Rising past (last, full 2000 2000) ∧
      (cpuPerc last (full 2000 2000)).1 = some 0 ∧
      (cpuPerc ((reading past).getD zero) (full 2000 2000)).1 = some 50)) (by decide +kernel)
  obtain ⟨rising, next, idle, half⟩ := of_decide_eq_true checked
  refine ⟨past, last, run, rising, next, idle, fun right => ?_⟩
  have same := right.2
  rw [idle, half] at same
  cases same

end Example

end SlStatus.CpuUsage
