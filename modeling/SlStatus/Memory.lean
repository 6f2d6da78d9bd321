import SlStatus.Integers

/-! The numbers of `components/ram.c` and `components/swap.c` that are computed from sizes and
counts: each function as an expression in the types of its operands, over one of the two
arithmetics. In place of the values read there is nothing where the read fails. A percentage is
what is printed with `"%d"`, a quantity what is passed to `fmt_human`. -/

namespace SlStatus.Memory
open Integers

variable (arith : Arithmetic)

namespace Linux

/-- The numbers of `/proc/meminfo` in kB. Into `buffers` goes `MemAvailable` first. -/
structure Meminfo where
  total : UInt64
  free : UInt64
  buffers : UInt64
  cached : UInt64

def ramPerc : Option Meminfo → Option (Option Int)
  | none => some none
  | some ⟨total, free, buffers, cached⟩ =>
      if total = 0 then some none
      else do
        let rest ← sub arith .unsignedLong total.toNat free.toNat
        let cache ← add arith .unsignedLong buffers.toNat cached.toNat
        let used ← sub arith .unsignedLong rest cache
        let product ← mul arith .unsignedLong 100 used
        let quotient ← div arith .unsignedLong product total.toNat
        let percent ← arith.conversion .int quotient
        return some percent

/-- What `get_swap_info` has assigned. -/
structure Swap where
  total : Int64
  free : Int64
  cached : Int64

/-- `"%d"` takes a `long` here, which has to fit into an `int`. -/
def swapPerc : Option Swap → Option (Option Int)
  | none => some none
  | some ⟨total, free, cached⟩ =>
      if total = 0 then some none
      else do
        let rest ← sub arith .long total.toInt free.toInt
        let used ← sub arith .long rest cached.toInt
        let product ← mul arith .long 100 used
        let quotient ← div arith .long product total.toInt
        let percent ← arith.result .int quotient
        return some percent

end Linux

namespace OpenBsd

/-- What is read of a `struct uvmexp`. -/
structure Uvmexp where
  npages : Int32
  active : Int32
  pageshift : Int32

def LOG1024 : Int := 10

def pagetok (size pageshift : Int) : Option Int := do
  let shift ← sub arith .int pageshift LOG1024
  let shifted ← shl arith .int size shift
  arith.conversion .unsignedLong shifted

def ramFree : Option Uvmexp → Option (Option Int)
  | none => some none
  | some uvmexp => do
      let freePages ← sub arith .int uvmexp.npages.toInt uvmexp.active.toInt
      let size ← pagetok arith freePages uvmexp.pageshift.toInt
      let bytes ← mul arith .unsignedLong size 1024
      return some bytes

def ramPerc : Option Uvmexp → Option (Option Int)
  | none => some none
  | some uvmexp => do
      let product ← mul arith .int uvmexp.active.toInt 100
      let percent ← div arith .int product uvmexp.npages.toInt
      return some percent

def ramTotal : Option Uvmexp → Option (Option Int)
  | none => some none
  | some uvmexp => do
      let size ← pagetok arith uvmexp.npages.toInt uvmexp.pageshift.toInt
      let bytes ← mul arith .unsignedLong size 1024
      return some bytes

def ramUsed : Option Uvmexp → Option (Option Int)
  | none => some none
  | some uvmexp => do
      let size ← pagetok arith uvmexp.active.toInt uvmexp.pageshift.toInt
      let bytes ← mul arith .unsignedLong size 1024
      return some bytes

/-- An `int` of blocks of 1024 bytes, passed on as bytes. -/
def blocks (count : Int) : Option (Option Int) := do
  let bytes ← mul arith .int count 1024
  let num ← arith.conversion .unsignedLong bytes
  return some num

/-- What `getstats` has stored, the total first. -/
def swapFree : Option (Int × Int) → Option (Option Int)
  | none => some none
  | some (total, used) => do
      let free ← sub arith .int total used
      blocks arith free

def swapPerc : Option (Int × Int) → Option (Option Int)
  | none => some none
  | some (total, used) =>
      if total = 0 then some none
      else do
        let product ← mul arith .int 100 used
        let percent ← div arith .int product total
        return some percent

def swapTotal : Option (Int × Int) → Option (Option Int)
  | none => some none
  | some (total, _) => blocks arith total

def swapUsed : Option (Int × Int) → Option (Option Int)
  | none => some none
  | some (_, used) => blocks arith used

end OpenBsd

namespace FreeBsd

/-- A count, of the type the product with `getpagesize()` has, passed on as bytes. -/
def pages (t : IntType) (pagesize : Int32) (count : Int) : Option (Option Int) := do
  let size ← arith.conversion t pagesize.toInt
  let bytes ← mul arith t count size
  let num ← arith.conversion .unsignedLong bytes
  return some num

/-- `t_free` is a `uint64_t`. -/
def ramFree (pagesize : Int32) : Option UInt64 → Option (Option Int)
  | none => some none
  | some free => pages arith .unsignedLong pagesize free.toNat

def ramTotal (pagesize : Int32) : Option UInt32 → Option (Option Int)
  | none => some none
  | some npages => pages arith .unsignedInt pagesize npages.toNat

/-- The active pages and all of them. -/
def ramPerc : Option (UInt32 × UInt32) → Option (Option Int)
  | none => some none
  | some (active, npages) => do
      let product ← mul arith .unsignedInt active.toNat 100
      let quotient ← div arith .unsignedInt product npages.toNat
      let percent ← arith.result .int quotient
      return some percent

def ramUsed (pagesize : Int32) : Option UInt32 → Option (Option Int)
  | none => some none
  | some active => pages arith .unsignedInt pagesize active.toNat

/-- `struct kvm_swap`, in pages. -/
structure KvmSwap where
  kswTotal : UInt32
  kswUsed : UInt32

def swapFree (pagesize : Int32) : Option KvmSwap → Option (Option Int)
  | none => some none
  | some info => do
      let total ← arith.conversion .long info.kswTotal.toNat
      let used ← arith.conversion .long info.kswUsed.toNat
      let free ← sub arith .long total used
      pages arith .long pagesize free

def swapPerc : Option KvmSwap → Option (Option Int)
  | none => some none
  | some info => do
      let total ← arith.conversion .long info.kswTotal.toNat
      let used ← arith.conversion .long info.kswUsed.toNat
      let product ← mul arith .long used 100
      let quotient ← div arith .long product total
      let percent ← arith.result .int quotient
      return some percent

def swapTotal (pagesize : Int32) : Option KvmSwap → Option (Option Int)
  | none => some none
  | some info => do
      let total ← arith.conversion .long info.kswTotal.toNat
      pages arith .long pagesize total

def swapUsed (pagesize : Int32) : Option KvmSwap → Option (Option Int)
  | none => some none
  | some info => do
      let used ← arith.conversion .long info.kswUsed.toNat
      pages arith .long pagesize used

end FreeBsd

end SlStatus.Memory
