import Mathlib.Algebra.Order.BigOperators.Group.List
import SlStatus.Truncation

/-! `cpu_perc` of `components/cpu.c` on Linux with its `long double`, which has 64 significant bits or more:
each conversion and each operation is rounded. On counters that are integers this changes nothing. -/

namespace SlStatus.LongDoubleUsage
open BinaryFloat CpuUsage Runs Truncation

section Function

variable (p : ℕ)

/-- From left to right. -/
def sum : List ℚ → ℚ
  | [] => 0
  | first :: rest => rest.foldl (fun sum next => nearest p (sum + next)) first

def total (a : Counters) : ℚ := sum p (List.ofFn a)

/-- Without `idle` and `iowait`. -/
def busy (a : Counters) : ℚ := sum p ((List.ofFn a).take 3 ++ (List.ofFn a).drop 5)

/-- The array after the scan, which rounds the numbers that it reads. -/
def pscanf (a : Counters) (scan : Scan) : Counters := fun i => (scan.stored.map (nearest p)).getD i (a i)

def cpuPerc (a : Counters) (scan : Scan) : Option Int × Counters :=
  let b := a
  let a := pscanf p a scan
  if scan.stored.length ≠ 7 then (none, a)
  else if (List.ofFn b).head? = some 0 then (none, a)
  else
    let sum := nearest p (total p b - total p a)
    if sum = 0 then (none, a)
    else (some (truncate (nearest p (nearest p (100 * nearest p (busy p b - busy p a)) / sum))), a)

def step (a : Counters) (scan : Scan) : Option Counters := some (cpuPerc p a scan).2

end Function

/-- A counter is an integer of 54 bits. -/
def Counter (q : ℚ) : Prop := q = ⌊q⌋ ∧ 0 ≤ ⌊q⌋ ∧ ⌊q⌋ < 2 ^ 54

instance (q : ℚ) : Decidable (Counter q) := inferInstanceAs (Decidable (_ ∧ _ ∧ _))

def Integral (scan : Scan) : Prop := ∀ q ∈ scan.stored, Counter q

instance (scan : Scan) : Decidable (Integral scan) := inferInstanceAs (Decidable (∀ q ∈ scan.stored, _))

section Exactness

variable {p : ℕ} {a b : Counters} {scan : Scan}

theorem nearest_integer (precise : 64 ≤ p) {n : ℤ} (bits : |n| < 2 ^ 64) : nearest p (n : ℚ) = n :=
  nearest_intCast (bits.trans_le (pow_le_pow_right₀ one_le_two precise))

/-- The sum of two numbers that are not negative. -/
theorem nearest_add (precise : 64 ≤ p) {n m : ℤ} (low : 0 ≤ n + m) (high : n + m < 2 ^ 64) :
    nearest p ((n : ℚ) + m) = (n + m : ℤ) := by
  rw [← Int.cast_add]
  exact nearest_integer precise (by rwa [abs_of_nonneg low])

theorem foldl_eq (precise : 64 ≤ p) {rest : List ℤ} (nonneg : ∀ n ∈ rest, 0 ≤ n) {first : ℤ} (low : 0 ≤ first)
    (high : first + rest.sum < 2 ^ 64) :
    (rest.map Int.cast).foldl (fun sum next => nearest p (sum + next)) (first : ℚ) = (first + rest.sum : ℤ) := by
  induction rest generalizing first with
  | nil => rw [List.sum_nil, add_zero, List.map_nil, List.foldl_nil]
  | cons next rest ih =>
    obtain ⟨positive, others⟩ := List.forall_mem_cons.mp nonneg
    have more := List.sum_nonneg others
    rw [List.sum_cons] at high ⊢
    rw [List.map_cons, List.foldl_cons, nearest_add precise (by omega) (by omega), ih others (by omega) (by omega),
      add_assoc]

/-- A sum of integers is exact. -/
theorem sum_eq (precise : 64 ≤ p) {ns : List ℤ} (nonneg : ∀ n ∈ ns, 0 ≤ n) (high : ns.sum < 2 ^ 64) :
    sum p (ns.map Int.cast) = (ns.sum : ℤ) := by
  cases ns with
  | nil => rfl
  | cons first rest =>
    obtain ⟨low, others⟩ := List.forall_mem_cons.mp nonneg
    rw [List.sum_cons] at high ⊢
    exact foldl_eq precise others low high

/-- The sums are those of integers, rounded or not. -/
theorem sums_eq (precise : 64 ≤ p) (counters : ∀ i, Counter (a i)) :
    ∃ all part : ℤ, total p a = all ∧ CpuUsage.total a = all ∧ busy p a = part ∧ CpuUsage.busy a = part ∧
      0 ≤ part ∧ part ≤ all ∧ all < 2 ^ 57 := by
  obtain ⟨n, rfl, bounds⟩ : ∃ n : Fin 7 → ℤ, a = (fun i => (n i : ℚ)) ∧ ∀ i, 0 ≤ n i ∧ n i < 2 ^ 54 :=
    ⟨fun i => ⌊a i⌋, funext fun i => (counters i).1, fun i => (counters i).2⟩
  have b0 := bounds 0
  have b1 := bounds 1
  have b2 := bounds 2
  have b3 := bounds 3
  have b4 := bounds 4
  have b5 := bounds 5
  have b6 := bounds 6
  have all := @sum_eq p precise [n 0, n 1, n 2, n 3, n 4, n 5, n 6] (by simp [bounds]) (by simp; omega)
  have part := @sum_eq p precise [n 0, n 1, n 2, n 5, n 6] (by simp [bounds]) (by simp; omega)
  refine ⟨_, _, all, ?_, part, ?_, by simp; omega, by simp; omega, by simp; omega⟩
  · simp [CpuUsage.total]
    ring
  · simp [CpuUsage.busy]
    ring

/-- A difference of two numbers of 57 bits, as it is or a hundred times. -/
theorem nearest_sub (precise : 64 ≤ p) {n m : ℤ} (first : 0 ≤ n ∧ n < 2 ^ 57) (second : 0 ≤ m ∧ m < 2 ^ 57) :
    nearest p ((n : ℚ) - m) = (n - m : ℤ) ∧ nearest p (100 * ((n - m : ℤ) : ℚ)) = (100 * (n - m) : ℤ) := by
  constructor
  · rw [← Int.cast_sub]
    exact nearest_integer precise (by rw [abs_lt]; omega)
  · have product : (100 : ℚ) * (n - m : ℤ) = (100 * (n - m) : ℤ) := by push_cast; rfl
    rw [product]
    exact nearest_integer precise (by rw [abs_lt]; omega)

theorem pscanf_eq (precise : 64 ≤ p) (integral : Integral scan) (a : Counters) :
    pscanf p a scan = CpuUsage.pscanf a scan := by
  have same : scan.stored.map (nearest p) = scan.stored := by
    apply (List.map_congr_left fun q member => ?_).trans (List.map_id _)
    obtain ⟨same, low, high⟩ := integral q member
    rw [same]
    exact nearest_integer precise (by rw [abs_of_nonneg low]; omega)
  unfold pscanf
  rw [same]
  rfl

/-- A scan of counters leaves counters. -/
theorem counters_pscanf (counters : ∀ i, Counter (a i)) (integral : Integral scan) (i : Fin 7) :
    Counter (CpuUsage.pscanf a scan i) := by
  unfold CpuUsage.pscanf
  rw [List.getD_eq_getElem?_getD]
  cases there : scan.stored[i.val]? with
  | none => exact counters i
  | some q => exact integral q (List.mem_of_getElem? there)

/-- On counters, the rounded function is the exact one. -/
theorem cpuPerc_eq (precise : 64 ≤ p) (counters : ∀ i, Counter (a i)) (integral : Integral scan) :
    cpuPerc p a scan = CpuUsage.cpuPerc a scan := by
  have after := counters_pscanf counters integral
  unfold cpuPerc CpuUsage.cpuPerc
  rw [pscanf_eq precise integral]
  obtain ⟨all, part, first, firstExact, second, secondExact, bounds⟩ := sums_eq precise counters
  obtain ⟨all', part', third, thirdExact, fourth, fourthExact, bounds'⟩ := sums_eq precise after
  obtain ⟨difference, -⟩ := nearest_sub precise (n := all) (m := all') (by omega) (by omega)
  obtain ⟨change, product⟩ := nearest_sub precise (n := part) (m := part') (by omega) (by omega)
  have head : (List.ofFn a).head? = some 0 ↔ a 0 = 0 := by
    rw [List.ofFn_succ, List.head?_cons, Option.some.injEq]
  dsimp only
  simp only [head]
  rw [first, second, third, fourth, firstExact, secondExact, thirdExact, fourthExact, difference, change, product]
  have whole : ((all : ℚ) - all') = (all - all' : ℤ) := by push_cast; rfl
  have hundred : 100 * ((part : ℚ) - part') = (100 * (part - part') : ℤ) := by push_cast; rfl
  rw [whole, hundred]
  split_ifs with few unset none
  · rfl
  · rfl
  · rfl
  · have bits : |100 * (part - part')| < 2 ^ p := by
      have small : |100 * (part - part')| < 2 ^ 64 := by
        rw [abs_lt]
        omega
      exact small.trans_le (pow_le_pow_right₀ one_le_two precise)
    rw [truncate_nearest (by omega) bits (by exact_mod_cast none)]

end Exactness

section Runs

variable {p : ℕ} {past : Past Counters Scan} {last : Counters}

theorem counters_of_run (precise : 64 ≤ p) (run : Run (step p) zero past last)
    (integral : Within (fun _ scan => Integral scan) past) : ∀ i, Counter (last i) := by
  refine run.invariant (fun _ scan => Integral scan) (fun a => ∀ i, Counter (a i)) (fun _ => (by decide : Counter 0))
    ?_ integral
  intro before scan after counters integral move
  cases move
  rw [cpuPerc_eq precise counters integral, cpuPerc_array]
  exact counters_pscanf counters integral

/-- A run on counters is one of the exact function, and a further call comes to what the exact one does. -/
theorem usage_of_run (precise : 64 ≤ p) (run : Run (step p) zero past last)
    (integral : Within (fun _ scan => Integral scan) past) :
    Run CpuUsage.step zero past last ∧ ∀ scan, Integral scan → cpuPerc p last scan = CpuUsage.cpuPerc last scan := by
  constructor
  · induction run with
    | start => exact .start
    | step scan run move ih =>
      have exact := cpuPerc_eq precise (counters_of_run precise run integral.tail) integral.head
      refine .step scan (ih integral.tail) ?_
      rw [CpuUsage.step, ← move, step, exact]
  · intro scan next
    exact cpuPerc_eq precise (counters_of_run precise run integral) next

/-- A third of the time, of which the quotient is rounded. -/
theorem usage_of_run_third :
    ∃ past last, Run (step 64) zero past last ∧ (cpuPerc 64 last (full 2000 3000)).1 = some 33 ∧
      Run CpuUsage.step zero past last ∧ ∀ scan, Integral scan → cpuPerc 64 last scan = CpuUsage.cpuPerc last scan := by
  obtain ⟨past, last, run, checked⟩ := exists_run (step 64) zero [full 1000 1000, cut 1000]
    (fun past last => decide (Within (fun _ scan => Integral scan) past ∧
      (cpuPerc 64 last (full 2000 3000)).1 = some 33)) (by decide +kernel)
  obtain ⟨integral, third⟩ := of_decide_eq_true checked
  obtain ⟨exact, same⟩ := usage_of_run (le_refl 64) run integral
  exact ⟨past, last, run, third, exact, same⟩

end Runs

end SlStatus.LongDoubleUsage
