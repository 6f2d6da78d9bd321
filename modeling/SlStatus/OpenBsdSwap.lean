import Mathlib.Algebra.BigOperators.Group.List.Basic
import Mathlib.Algebra.Order.BigOperators.Group.List
import Mathlib.Tactic.Ring
import SlStatus.Integers

/-! `components/swap.c` on OpenBSD. The loop over the devices counts them, but stays at the first
one. -/

namespace SlStatus.OpenBsdSwap
open Integers

/-- What is read of a `struct swapent`, in blocks of 512 bytes. -/
structure Swapent where
  seNblks : Int32
  seInuse : Int32
  deriving DecidableEq

/-- What the calls of `swapctl` and `calloc` come to. The array is as long as was asked for. -/
structure Swapctl where
  nswap : Int
  allocates : Bool
  rnswap : Int
  array : List Swapent
  length_eq : array.length = nswap.toNat

/-- The loop, from the devices at the pointer and how often it is still to be run. -/
def addUp (sep : List Swapent) : Nat → Int × Int → Option (Int × Int)
  | 0, sums => some sums
  | left + 1, (total, used) => do
      let here ← sep.head?
      let total ← add machine .int total (here.seNblks.toInt >>> (1 : Nat))
      let used ← add machine .int used (here.seInuse.toInt >>> (1 : Nat))
      addUp sep left (total, used)

/-- The total and what is used, if 0 is returned; no result where a sum overflows. -/
def getstats (sys : Swapctl) : Option (Option (Int × Int)) :=
  if sys.nswap < 1 then some none
  else if !sys.allocates then some none
  else if sys.rnswap < 0 then some none
  else if sys.nswap ≠ sys.rnswap then some none
  else (addUp sys.array sys.rnswap.toNat (0, 0)).map some

def Swapent.total (device : Swapent) : Int := device.seNblks.toInt / 2

def Swapent.used (device : Swapent) : Int := device.seInuse.toInt / 2

/-- What every device has, added up. -/
def sums (array : List Swapent) : Int × Int := ((array.map Swapent.total).sum, (array.map Swapent.used).sum)

/-- Success means that each device is counted once, and then no more is used than there is. -/
def Right (sys : Swapctl) : Prop :=
  ∃ result, getstats sys = some result ∧ ∀ stats, result = some stats → stats = sums sys.array ∧
    ((∀ device ∈ sys.array, device.seInuse ≤ device.seNblks) → stats.2 ≤ stats.1)

/-- All calls succeed, and as many devices are reported as were announced. -/
def Answered (sys : Swapctl) : Prop := 1 ≤ sys.nswap ∧ sys.allocates = true ∧ sys.rnswap = sys.nswap

/-- The first device is of the average size and has the average in use. -/
def Average (array : List Swapent) : Prop :=
  ∀ first ∈ array.head?, (array.map fun device => device.total - first.total).sum = 0 ∧
    (array.map fun device => device.used - first.used).sum = 0

/-- No device has a negative size or use. -/
def Counted (array : List Swapent) : Prop := ∀ device ∈ array, 0 ≤ device.seNblks.toInt ∧ 0 ≤ device.seInuse.toInt

instance (array : List Swapent) : Decidable (Counted array) :=
  inferInstanceAs (Decidable (∀ device ∈ array, 0 ≤ device.seNblks.toInt ∧ 0 ≤ device.seInuse.toInt))

theorem shift_total (device : Swapent) : device.seNblks.toInt >>> (1 : Nat) = device.total :=
  Int.shiftRight_eq_div_pow _ 1

theorem shift_used (device : Swapent) : device.seInuse.toInt >>> (1 : Nat) = device.used :=
  Int.shiftRight_eq_div_pow _ 1

/-- A sum that grows overflows if it does so in the end. -/
theorem add_int {n step rest : Int} (low : 0 ≤ n) (grows : 0 ≤ step) (later : 0 ≤ rest)
    (fits : IntType.int.Holds (n + step + rest)) : add machine .int n step = some (n + step) := by
  rw [IntType.holds_int] at fits
  exact machine_of_holds (IntType.holds_int.mpr (by omega))

theorem add_int_eq_some {n step sum : Int} (added : add machine .int n step = some sum) :
    sum = n + step ∧ IntType.int.Holds sum := by
  rw [add, machine_signed rfl] at added
  obtain ⟨holds, rfl⟩ := exactly_eq_some.mp added
  exact ⟨rfl, holds⟩

section Loop

variable {first : Swapent} (rest : List Swapent)

theorem addUp_succ (n : Nat) (total used : Int) :
    addUp (first :: rest) (n + 1) (total, used) =
      (add machine .int total first.total).bind fun total =>
        (add machine .int used first.used).bind fun used => addUp (first :: rest) n (total, used) := by
  rw [addUp, List.head?_cons, ← shift_total, ← shift_used]
  rfl

theorem sum_succ (n : Nat) (sum part : Int) : sum + part + n * part = sum + (n + 1 : Nat) * part := by
  push_cast
  ring

/-- The loop adds the numbers of the first device as often as it is run. -/
theorem addUp_first (counted : 0 ≤ first.total ∧ 0 ≤ first.used) (n : Nat) {total used : Int}
    (low : 0 ≤ total ∧ 0 ≤ used)
    (fits : IntType.int.Holds (total + n * first.total) ∧ IntType.int.Holds (used + n * first.used)) :
    addUp (first :: rest) n (total, used) = some (total + n * first.total, used + n * first.used) := by
  induction n generalizing total used with
  | zero => simp [addUp]
  | succ n ih =>
    rw [← sum_succ, ← sum_succ] at fits ⊢
    have total_more := Int.mul_nonneg (Int.natCast_nonneg n) counted.1
    have used_more := Int.mul_nonneg (Int.natCast_nonneg n) counted.2
    rw [addUp_succ, add_int low.1 counted.1 total_more fits.1, Option.bind_some,
      add_int low.2 counted.2 used_more fits.2, Option.bind_some]
    exact ih ⟨by omega, by omega⟩ fits

theorem addUp_eq_some (n : Nat) {total used : Int} {stats : Int × Int}
    (added : addUp (first :: rest) n (total, used) = some stats) :
    stats = (total + n * first.total, used + n * first.used) := by
  induction n generalizing total used with
  | zero =>
    rw [addUp, Option.some.injEq] at added
    simp [← added]
  | succ n ih =>
    rw [addUp_succ] at added
    obtain ⟨more, total_added, added⟩ := Option.bind_eq_some_iff.mp added
    obtain ⟨also, used_added, added⟩ := Option.bind_eq_some_iff.mp added
    rw [ih added, (add_int_eq_some total_added).1, (add_int_eq_some used_added).1, sum_succ, sum_succ]

end Loop

section Stats

variable {sys : Swapctl}

theorem sum_sub (devices : List Swapent) (f : Swapent → Int) (c : Int) :
    (devices.map fun device => f device - c).sum = (devices.map f).sum - devices.length * c := by
  induction devices with
  | nil => simp
  | cons device devices ih =>
    rw [List.map_cons, List.sum_cons, ih, List.map_cons, List.sum_cons, List.length_cons]
    push_cast
    ring

theorem average_iff {first : Swapent} {rest : List Swapent} :
    Average (first :: rest) ↔
      sums (first :: rest) = ((first :: rest).length * first.total, (first :: rest).length * first.used) := by
  unfold Average sums
  simp only [List.head?_cons, Option.mem_some_iff, forall_eq', sum_sub, Prod.mk.injEq, Int.sub_eq_zero]

theorem used_le_total {array : List Swapent} (inside : ∀ device ∈ array, device.seInuse ≤ device.seNblks) :
    (sums array).2 ≤ (sums array).1 := by
  apply List.sum_le_sum
  intro device member
  exact Int.ediv_le_ediv (by decide) (Int32.le_iff_toInt_le.mp (inside device member))

theorem getstats_failed (failed : ¬Answered sys) : getstats sys = some none := by
  unfold getstats
  split_ifs with none refused negative other
  · rfl
  · rfl
  · rfl
  · rfl
  · rw [Bool.not_eq_true', Bool.not_eq_false] at refused
    exact absurd ⟨Int.not_lt.mp none, refused, (not_not.mp other).symm⟩ failed

theorem getstats_answered (answered : Answered sys) :
    ∃ first rest, sys.array = first :: rest ∧
      getstats sys = (addUp (first :: rest) (first :: rest).length (0, 0)).map some := by
  obtain ⟨positive, allocates, same⟩ := answered
  have length := sys.length_eq
  cases array : sys.array with
  | nil =>
    rw [array, List.length_nil] at length
    omega
  | cons first rest =>
    refine ⟨first, rest, rfl, ?_⟩
    rw [array] at length
    unfold getstats
    rw [if_neg (by omega), if_neg (by simp [allocates]), if_neg (by omega), if_neg (by simp [same]), same, array,
      length]

/-- For any devices with a sum that is representable: if all calls succeed, the numbers are right
exactly when the first device has the average. -/
theorem stats_right_iff (counted : Counted sys.array)
    (fits : IntType.int.Holds (sums sys.array).1 ∧ IntType.int.Holds (sums sys.array).2) :
    Right sys ↔ (Answered sys → Average sys.array) := by
  by_cases answered : Answered sys
  · obtain ⟨first, rest, array, result⟩ := getstats_answered answered
    rw [array] at counted fits
    obtain ⟨blocks, inuse⟩ := counted first List.mem_cons_self
    have low : 0 ≤ first.total ∧ 0 ≤ first.used :=
      ⟨Int.ediv_nonneg blocks (by decide), Int.ediv_nonneg inuse (by decide)⟩
    rw [Right, result, array, average_iff]
    constructor
    · rintro ⟨_, ran, right⟩ _
      obtain ⟨stats, added, rfl⟩ := Option.map_eq_some_iff.mp ran
      rw [← (right stats rfl).1, addUp_eq_some rest _ added, Int.zero_add, Int.zero_add]
    · intro average
      have same := average answered
      rw [same] at fits
      have added := addUp_first rest low (first :: rest).length ⟨Int.le_refl 0, Int.le_refl 0⟩
        (by rwa [Int.zero_add, Int.zero_add])
      rw [Int.zero_add, Int.zero_add, ← same] at added
      refine ⟨some (sums (first :: rest)), by rw [added, Option.map_some], ?_⟩
      rintro _ ⟨⟩
      exact ⟨rfl, used_le_total⟩
  · rw [Right, getstats_failed answered]
    apply iff_of_true
    · refine ⟨none, rfl, ?_⟩
      intro stats same
      cases same
    · exact fun also => absurd also answered

end Stats

section Example

/-- Devices of 2 and of 4 KiB, the second of them full. -/
def small : Swapent := ⟨4, 2⟩

def full : Swapent := ⟨8, 8⟩

def reported (array : List Swapent) : Swapctl := ⟨array.length, true, array.length, array, rfl⟩

/-- One device alone is its own average. -/
theorem stats_right_alone : Right (reported [small]) := by
  apply (stats_right_iff (by decide) (by decide)).mpr
  intro _ first here
  cases here
  decide

/-- The first of two devices is counted twice. -/
theorem second_uncounted :
    getstats (reported [small, full]) = some (some (4, 2)) ∧ sums [small, full] = (6, 5) ∧
      ¬Right (reported [small, full]) := by
  refine ⟨by decide, by decide, ?_⟩
  rintro ⟨result, ran, right⟩
  have read : getstats (reported [small, full]) = some (some (4, 2)) := by decide
  rw [read] at ran
  cases ran
  exact absurd (right _ rfl).1 (by decide)

end Example

end SlStatus.OpenBsdSwap
