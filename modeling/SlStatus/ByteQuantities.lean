import SlStatus.Memory

/-! The numbers of bytes that reach `fmt_human` on OpenBSD and FreeBSD, against the exact products.
Each product is made in the type of its operands; it is widened only afterwards. -/

namespace SlStatus.ByteQuantities
open Integers Memory

inductive Part where
  | free | total | used

/-- What one call has read. On OpenBSD `getstats` has stored the numbers of the swap. -/
inductive Reading where
  | openBsdRam (part : Part) (read : OpenBsd.Uvmexp)
  | openBsdSwap (part : Part) (total used : Int)
  | freeBsdRamFree (pagesize : Int32) (free : UInt64)
  | freeBsdRamTotal (pagesize : Int32) (npages : UInt32)
  | freeBsdRamUsed (pagesize : Int32) (active : UInt32)
  | freeBsdSwap (part : Part) (pagesize : Int32) (read : FreeBsd.KvmSwap)

namespace Reading

def passed (arith : Arithmetic) : Reading → Option (Option Int)
  | openBsdRam .free read => OpenBsd.ramFree arith (some read)
  | openBsdRam .total read => OpenBsd.ramTotal arith (some read)
  | openBsdRam .used read => OpenBsd.ramUsed arith (some read)
  | openBsdSwap .free total used => OpenBsd.swapFree arith (some (total, used))
  | openBsdSwap .total total used => OpenBsd.swapTotal arith (some (total, used))
  | openBsdSwap .used total used => OpenBsd.swapUsed arith (some (total, used))
  | freeBsdRamFree pagesize free => FreeBsd.ramFree arith pagesize (some free)
  | freeBsdRamTotal pagesize npages => FreeBsd.ramTotal arith pagesize (some npages)
  | freeBsdRamUsed pagesize active => FreeBsd.ramUsed arith pagesize (some active)
  | freeBsdSwap .free pagesize read => FreeBsd.swapFree arith pagesize (some read)
  | freeBsdSwap .total pagesize read => FreeBsd.swapTotal arith pagesize (some read)
  | freeBsdSwap .used pagesize read => FreeBsd.swapUsed arith pagesize (some read)

/-- The pages or blocks in question. -/
def count : Reading → Int
  | openBsdRam .free read => read.npages.toInt - read.active.toInt
  | openBsdRam .total read => read.npages.toInt
  | openBsdRam .used read => read.active.toInt
  | openBsdSwap .free total used => total - used
  | openBsdSwap .total total _ => total
  | openBsdSwap .used _ used => used
  | freeBsdRamFree _ free => free.toNat
  | freeBsdRamTotal _ npages => npages.toNat
  | freeBsdRamUsed _ active => active.toNat
  | freeBsdSwap .free _ read => read.kswTotal.toNat - read.kswUsed.toNat
  | freeBsdSwap .total _ read => read.kswTotal.toNat
  | freeBsdSwap .used _ read => read.kswUsed.toNat

/-- The bytes of one of them. -/
def size : Reading → Int
  | openBsdRam _ read => 2 ^ read.pageshift.toInt.toNat
  | openBsdSwap .. => 1024
  | freeBsdRamFree pagesize _ | freeBsdRamTotal pagesize _ | freeBsdRamUsed pagesize _
  | freeBsdSwap _ pagesize _ => pagesize.toInt

def bytes (r : Reading) : Int := r.count * r.size

/-- Nothing is negative, and not more is used than there is. -/
def Reported : Reading → Prop
  | openBsdRam _ read => 0 ≤ read.active.toInt ∧ read.active ≤ read.npages ∧ 0 ≤ read.pageshift.toInt
  | openBsdSwap _ total used => 0 ≤ used ∧ used ≤ total ∧ IntType.int.Holds total
  | freeBsdRamFree pagesize _ | freeBsdRamTotal pagesize _ | freeBsdRamUsed pagesize _ => 0 < pagesize.toInt
  | freeBsdSwap _ pagesize read => 0 < pagesize.toInt ∧ read.kswUsed ≤ read.kswTotal

/-- The range in which the product is exact. -/
def Sound : Reading → Prop
  | r@(openBsdRam _ read) =>
      10 ≤ read.pageshift.toInt ∧ read.pageshift.toInt < 42 ∧ r.count * 2 ^ (read.pageshift.toInt - 10).toNat < 2 ^ 31
  | r@(openBsdSwap ..) => r.count * 1024 < 2 ^ 31
  | r@(freeBsdRamTotal ..) | r@(freeBsdRamUsed ..) => r.count * r.size < 2 ^ 32
  | freeBsdRamFree .. | freeBsdSwap .. => True

theorem count_nonneg {r : Reading} (reported : r.Reported) : 0 ≤ r.count := by
  cases r with
  | openBsdRam part read =>
    obtain ⟨nonneg, within, -⟩ := reported
    have within := Int32.le_iff_toInt_le.mp within
    cases part <;> dsimp only [count] <;> omega
  | openBsdSwap part total used =>
    obtain ⟨nonneg, within, -⟩ := reported
    cases part <;> dsimp only [count] <;> omega
  | freeBsdSwap part pagesize read =>
    have within := UInt32.le_iff_toNat_le.mp reported.2
    cases part <;> dsimp only [count] <;> omega
  | freeBsdRamFree pagesize free => exact Int.natCast_nonneg _
  | freeBsdRamTotal pagesize npages => exact Int.natCast_nonneg _
  | freeBsdRamUsed pagesize active => exact Int.natCast_nonneg _

end Reading

/-- A product is passed on as it is if it fits into its own type. -/
theorem widened_iff {t : IntType} {n : Int} (nonneg : 0 ≤ n) (bounded : n < 2 ^ 64) :
    ((machine.result t n).bind fun bytes => (machine.conversion .unsignedLong bytes).bind fun num => some (some num)) =
        some (some n) ↔
      t.Holds n := by
  have whole : IntType.unsignedLong.convert n = n := IntType.convert_of_holds ⟨nonneg, bounded⟩
  by_cases holds : t.Holds n
  · rw [machine_of_holds holds, Option.bind_some]
    exact iff_of_true (congrArg (some ∘ some) whole) holds
  · refine iff_of_false ?_ holds
    cases signed : t.signed with
    | true =>
      rw [machine_signed signed, exactly, if_neg holds, Option.bind_none]
      exact (Option.some_ne_none _).symm
    | false =>
      -- what has wrapped lies in the narrow type, and widening it does not change it
      have within := IntType.convert_within t n
      have wide : IntType.unsignedLong.Holds (t.convert n) := by
        cases t with
        | int | long => cases signed
        | unsignedInt => exact ⟨within.1, lt_trans within.2 (by decide)⟩
        | unsignedLong => exact within
      rw [machine_unsigned signed, Option.bind_some]
      intro passed
      have same := (IntType.convert_of_holds wide).symm.trans (Option.some.inj (Option.some.inj passed))
      rw [same] at within
      exact holds within

theorem pages_iff {t : IntType} {pagesize : Int32} {count : Int} (positive : 0 < pagesize.toInt)
    (nonneg : 0 ≤ count) (bounded : count * pagesize.toInt < 2 ^ 64) :
    FreeBsd.pages machine t pagesize count = some (some (count * pagesize.toInt)) ↔
      t.Holds (count * pagesize.toInt) := by
  have most := pagesize.toInt_lt
  have size : t.Holds pagesize.toInt := by
    cases t with
    | int => rw [IntType.holds_int]; omega
    | unsignedInt => rw [IntType.holds_unsignedInt]; omega
    | long => rw [IntType.holds_long]; omega
    | unsignedLong => rw [IntType.holds_unsignedLong]; omega
  rw [← widened_iff (Int.mul_nonneg nonneg positive.le) bounded]
  unfold FreeBsd.pages mul
  rw [show machine.conversion t pagesize.toInt = some pagesize.toInt from
    congrArg some (IntType.convert_of_holds size)]
  rfl

theorem blocks_iff {count : Int} (nonneg : 0 ≤ count) (bounded : count * 1024 < 2 ^ 64) :
    OpenBsd.blocks machine count = some (some (count * 1024)) ↔ count * 1024 < 2 ^ 31 := by
  refine (widened_iff (t := .int) (by omega) bounded).trans ?_
  rw [IntType.holds_int]
  omega

/-- The shift is made in an `int`; only what it has left is widened. -/
theorem pagetok_iff {count pageshift : Int} (nonneg : 0 ≤ count) (shift : IntType.int.Holds pageshift)
    (positive : 0 ≤ pageshift) :
    ((OpenBsd.pagetok machine count pageshift).bind fun size =>
        (mul machine .unsignedLong size 1024).bind fun bytes => some (some bytes)) =
        some (some (count * 2 ^ pageshift.toNat)) ↔
      10 ≤ pageshift ∧ pageshift < 42 ∧ count * 2 ^ (pageshift - 10).toNat < 2 ^ 31 := by
  have difference : sub machine .int pageshift OpenBsd.LOG1024 = some (pageshift - 10) := by
    rw [IntType.holds_int] at shift
    exact machine_of_holds (IntType.holds_int.mpr (by unfold OpenBsd.LOG1024; omega))
  unfold OpenBsd.pagetok
  rw [difference, Option.bind_eq_bind, Option.bind_some]
  by_cases range : 10 ≤ pageshift ∧ pageshift < 42
  · have shifted : 0 ≤ count ∧ 0 ≤ pageshift - 10 ∧ pageshift - 10 < IntType.int.width := by
      refine ⟨nonneg, ?_, ?_⟩
      · omega
      · change pageshift - 10 < 32
        omega
    have power : (2 : Int) ^ pageshift.toNat = 2 ^ (pageshift - 10).toNat * 1024 := by
      rw [show (1024 : Int) = 2 ^ 10 from rfl, ← pow_add]
      congr 1
      omega
    have product : 0 ≤ count * 2 ^ (pageshift - 10).toNat := Int.mul_nonneg nonneg (Int.pow_nonneg (by decide))
    unfold shl
    rw [if_pos shifted, machine_signed rfl, power, ← mul_assoc]
    generalize count * 2 ^ (pageshift - 10).toNat = pages at product ⊢
    by_cases small : pages < 2 ^ 31
    · have narrow : IntType.int.Holds pages := IntType.holds_int.mpr (by omega)
      have wide : IntType.unsignedLong.Holds pages := IntType.holds_unsignedLong.mpr (by omega)
      have bytes : IntType.unsignedLong.Holds (pages * 1024) := IntType.holds_unsignedLong.mpr (by omega)
      have converted : machine.conversion .unsignedLong pages = some pages :=
        congrArg some (IntType.convert_of_holds wide)
      rw [exactly_eq_some.mpr ⟨narrow, rfl⟩, Option.bind_some, converted, Option.bind_some, mul,
        machine_of_holds bytes, Option.bind_some]
      exact iff_of_true rfl ⟨range.1, range.2, small⟩
    · have wide : ¬ IntType.int.Holds pages := by
        rw [IntType.holds_int]
        omega
      rw [exactly, if_neg wide, Option.bind_none, Option.bind_none]
      exact iff_of_false (Option.some_ne_none _).symm fun all => small all.2.2
  · have outside : ¬ (0 ≤ count ∧ 0 ≤ pageshift - 10 ∧ pageshift - 10 < IntType.int.width) := by
      change ¬ (_ ∧ _ ∧ pageshift - 10 < 32)
      omega
    unfold shl
    rw [if_neg outside, Option.bind_none, Option.bind_none]
    exact iff_of_false (Option.some_ne_none _).symm fun all => range ⟨all.1, all.2.1⟩

theorem openBsd_ram_iff {part : Part} {read : OpenBsd.Uvmexp} (reported : (Reading.openBsdRam part read).Reported) :
    (Reading.openBsdRam part read).passed machine = some (some (Reading.openBsdRam part read).bytes) ↔
      (Reading.openBsdRam part read).Sound := by
  have nonneg := Reading.count_nonneg reported
  obtain ⟨active, within, positive⟩ := reported
  have shift : IntType.int.Holds read.pageshift.toInt := ⟨read.pageshift.le_toInt, read.pageshift.toInt_lt⟩
  have total := read.npages.toInt_lt
  have tokens := pagetok_iff nonneg shift positive
  cases part with
  | total => exact tokens
  | used => exact tokens
  | free =>
    have within := Int32.le_iff_toInt_le.mp within
    have difference : sub machine .int read.npages.toInt read.active.toInt =
        some (read.npages.toInt - read.active.toInt) :=
      machine_of_holds (IntType.holds_int.mpr (by omega))
    refine (Eq.congr_left ?_).trans tokens
    unfold Reading.passed OpenBsd.ramFree
    dsimp only
    rw [difference]
    rfl

theorem openBsd_swap_iff {part : Part} {total used : Int} (reported : (Reading.openBsdSwap part total used).Reported)
    (bounded : (Reading.openBsdSwap part total used).bytes < 2 ^ 64) :
    (Reading.openBsdSwap part total used).passed machine = some (some (Reading.openBsdSwap part total used).bytes) ↔
      (Reading.openBsdSwap part total used).Sound := by
  have nonneg := Reading.count_nonneg reported
  obtain ⟨least, within, holds⟩ := reported
  have blocks := blocks_iff nonneg bounded
  cases part with
  | total => exact blocks
  | used => exact blocks
  | free =>
    have difference : sub machine .int total used = some (total - used) := by
      rw [IntType.holds_int] at holds
      exact machine_of_holds (IntType.holds_int.mpr (by omega))
    refine (Eq.congr_left ?_).trans blocks
    unfold Reading.passed OpenBsd.swapFree
    dsimp only
    rw [difference]
    rfl

/-- Pages of FreeBSD that are counted with 32 bits. -/
theorem freeBsd_pages_iff {pagesize : Int32} {count : Int} (positive : 0 < pagesize.toInt) (nonneg : 0 ≤ count)
    (bounded : count * pagesize.toInt < 2 ^ 64) :
    FreeBsd.pages machine .unsignedInt pagesize count = some (some (count * pagesize.toInt)) ↔
      count * pagesize.toInt < 2 ^ 32 :=
  (pages_iff positive nonneg bounded).trans (and_iff_right (Int.mul_nonneg nonneg positive.le))

/-- The products of `long` have room for every count. -/
theorem freeBsd_swap_right {part : Part} {pagesize : Int32} {read : FreeBsd.KvmSwap}
    (reported : (Reading.freeBsdSwap part pagesize read).Reported)
    (bounded : (Reading.freeBsdSwap part pagesize read).bytes < 2 ^ 64) :
    (Reading.freeBsdSwap part pagesize read).passed machine =
      some (some (Reading.freeBsdSwap part pagesize read).bytes) := by
  have nonneg := Reading.count_nonneg reported
  obtain ⟨positive, within⟩ := reported
  have within := UInt32.le_iff_toNat_le.mp within
  have total := read.kswTotal.toNat_lt
  have assigned {n : UInt32} : machine.conversion .long n.toNat = some (n.toNat : Int) := by
    have bound := n.toNat_lt
    exact congrArg some (IntType.convert_of_holds (IntType.holds_long.mpr (by omega)))
  have most := pagesize.toInt_lt
  have fits : IntType.long.Holds ((Reading.freeBsdSwap part pagesize read).count * pagesize.toInt) := by
    have most : pagesize.toInt ≤ 2 ^ 31 - 1 := by omega
    have count : (Reading.freeBsdSwap part pagesize read).count ≤ 2 ^ 32 - 1 := by
      cases part <;> dsimp only [Reading.count] <;> omega
    have product := Int.mul_le_mul count most positive.le (by decide)
    exact ⟨le_trans (by decide) (Int.mul_nonneg nonneg positive.le), lt_of_le_of_lt product (by decide)⟩
  have pages := (pages_iff positive nonneg bounded).mpr fits
  cases part with
  | total =>
    refine Eq.trans ?_ pages
    unfold Reading.passed FreeBsd.swapTotal
    dsimp only
    rw [assigned]
    rfl
  | used =>
    refine Eq.trans ?_ pages
    unfold Reading.passed FreeBsd.swapUsed
    dsimp only
    rw [assigned]
    rfl
  | free =>
    have difference : sub machine .long read.kswTotal.toNat read.kswUsed.toNat =
        some (read.kswTotal.toNat - read.kswUsed.toNat : Int) :=
      machine_of_holds (IntType.holds_long.mpr (by omega))
    refine Eq.trans ?_ pages
    unfold Reading.passed FreeBsd.swapFree
    dsimp only
    rw [assigned, Option.bind_eq_bind, Option.bind_some, assigned, Option.bind_some, difference]
    rfl

theorem quantities_iff (r : Reading) (reported : r.Reported) (representable : r.bytes < 2 ^ 64) :
    r.passed machine = some (some r.bytes) ↔ r.Sound := by
  have nonneg := Reading.count_nonneg reported
  cases r with
  | openBsdRam part read => exact openBsd_ram_iff reported
  | openBsdSwap part total used => exact openBsd_swap_iff reported representable
  | freeBsdRamFree pagesize free =>
    have product : IntType.unsignedLong.Holds (free.toNat * pagesize.toInt) :=
      ⟨Int.mul_nonneg nonneg reported.le, representable⟩
    exact iff_of_true ((pages_iff reported nonneg representable).mpr product) trivial
  | freeBsdRamTotal pagesize npages => exact freeBsd_pages_iff reported nonneg representable
  | freeBsdRamUsed pagesize active => exact freeBsd_pages_iff reported nonneg representable
  | freeBsdSwap part pagesize read => exact iff_of_true (freeBsd_swap_right reported representable) trivial

/-- A gibibyte in pages of 4096. -/
theorem gibibyte_total :
    (Reading.freeBsdRamTotal 4096 262144).passed machine =
      some (some (Reading.freeBsdRamTotal 4096 262144).bytes) :=
  (quantities_iff (.freeBsdRamTotal 4096 262144) (show (0 : Int) < 4096 by decide)
    (show (262144 * 4096 : Int) < 2 ^ 64 by decide)).mpr (show (262144 * 4096 : Int) < 2 ^ 32 by decide)

/-- 4 GiB of memory on FreeBSD are shown as nothing, and 2 GiB of swap on OpenBSD are too much for
an `int`. -/
theorem quantities_wrong :
    ((Reading.freeBsdRamTotal 4096 1048576).Reported ∧ (Reading.freeBsdRamTotal 4096 1048576).bytes = 2 ^ 32 ∧
        (Reading.freeBsdRamTotal 4096 1048576).passed machine = some (some 0)) ∧
      (Reading.openBsdSwap .total 2097152 0).Reported ∧ (Reading.openBsdSwap .total 2097152 0).bytes = 2 ^ 31 ∧
        (Reading.openBsdSwap .total 2097152 0).passed machine = none := by
  refine ⟨⟨?_, ?_, ?_⟩, ?_, ?_, ?_⟩
  · exact show (0 : Int) < 4096 by decide
  · decide
  · decide +kernel
  · exact ⟨by decide, by decide, by decide⟩
  · decide
  · decide +kernel

end SlStatus.ByteQuantities
