import Mathlib.Algebra.Order.Ring.Int

/-! Integer arithmetic of C on a 64-bit platform. The result of a signed operation that does not
fit its type is undefined, one of an unsigned operation wraps. A second arithmetic has no result in
either case; what it computes is exact throughout. -/

namespace SlStatus.Integers

/-- `unsigned long` is also `size_t` and `uintmax_t`. -/
inductive IntType where
  | int | unsignedInt | long | unsignedLong
  deriving DecidableEq

namespace IntType

def signed : IntType → Bool
  | .int | .long => true
  | .unsignedInt | .unsignedLong => false

def width : IntType → Nat
  | .int | .unsignedInt => 32
  | .long | .unsignedLong => 64

def least (t : IntType) : Int := if t.signed then -(2 ^ (t.width - 1)) else 0

def bound (t : IntType) : Int := if t.signed then 2 ^ (t.width - 1) else 2 ^ t.width

def Holds (t : IntType) (n : Int) : Prop := t.least ≤ n ∧ n < t.bound

instance (t : IntType) (n : Int) : Decidable (t.Holds n) := inferInstanceAs (Decidable (_ ∧ _))

/-- A conversion keeps the low bits. -/
def convert (t : IntType) (n : Int) : Int := if t.signed then n.bmod (2 ^ t.width) else n % 2 ^ t.width

theorem holds_int {n : Int} : int.Holds n ↔ -2147483648 ≤ n ∧ n < 2147483648 := Iff.rfl

theorem holds_unsignedInt {n : Int} : unsignedInt.Holds n ↔ 0 ≤ n ∧ n < 4294967296 := Iff.rfl

theorem holds_long {n : Int} : long.Holds n ↔ -9223372036854775808 ≤ n ∧ n < 9223372036854775808 := Iff.rfl

theorem holds_unsignedLong {n : Int} : unsignedLong.Holds n ↔ 0 ≤ n ∧ n < 18446744073709551616 := Iff.rfl

/-- What fits is left as it is. -/
theorem convert_of_holds {t : IntType} {n : Int} (holds : t.Holds n) : t.convert n = n := by
  cases t with
  | int =>
    rw [holds_int] at holds
    exact Int.bmod_eq_of_le (by change -2147483648 ≤ n; omega) (by change n < 2147483648; omega)
  | long =>
    rw [holds_long] at holds
    exact Int.bmod_eq_of_le (by change -9223372036854775808 ≤ n; omega) (by change n < 9223372036854775808; omega)
  | unsignedInt =>
    rw [holds_unsignedInt] at holds
    exact Int.emod_eq_of_lt holds.1 holds.2
  | unsignedLong =>
    rw [holds_unsignedLong] at holds
    exact Int.emod_eq_of_lt holds.1 holds.2

theorem convert_within (t : IntType) (n : Int) : t.Holds (t.convert n) := by
  cases t with
  | int => exact ⟨Int.le_bmod (by decide), Int.bmod_lt (by decide)⟩
  | long => exact ⟨Int.le_bmod (by decide), Int.bmod_lt (by decide)⟩
  | unsignedInt => exact ⟨Int.emod_nonneg n (by decide), Int.emod_lt_of_pos n (by decide)⟩
  | unsignedLong => exact ⟨Int.emod_nonneg n (by decide), Int.emod_lt_of_pos n (by decide)⟩

end IntType

/-- What becomes of the exact result of an operation, and of a number that is converted; nothing
where that is undefined. -/
structure Arithmetic where
  result : IntType → Int → Option Int
  conversion : IntType → Int → Option Int

def machine : Arithmetic where
  result t n := if t.Holds n then some n else if t.signed then none else some (t.convert n)
  conversion t n := some (t.convert n)

def exactly (t : IntType) (n : Int) : Option Int := if t.Holds n then some n else none

def strict : Arithmetic where
  result := exactly
  conversion := exactly

@[simp] theorem strict_result (t : IntType) (n : Int) : strict.result t n = exactly t n := rfl

@[simp] theorem strict_conversion (t : IntType) (n : Int) : strict.conversion t n = exactly t n := rfl

section Operations

variable (arith : Arithmetic) (t : IntType) (a b : Int)

def add : Option Int := arith.result t (a + b)

def sub : Option Int := arith.result t (a - b)

def mul : Option Int := arith.result t (a * b)

def div : Option Int := if b = 0 then none else arith.result t (a.tdiv b)

/-- The shift of a number that is not negative, by less than the width. -/
def shl : Option Int := if 0 ≤ a ∧ 0 ≤ b ∧ b < t.width then arith.result t (a * 2 ^ b.toNat) else none

end Operations

section Exactness

variable {t : IntType} {n m : Int}

theorem exactly_eq_some : exactly t n = some m ↔ t.Holds n ∧ n = m := by
  unfold exactly
  split_ifs with holds
  · rw [Option.some.injEq, and_iff_right holds]
  · constructor
    · intro found
      cases found
    · intro both
      exact absurd both.1 holds

theorem machine_of_holds (holds : t.Holds n) : machine.result t n = some n := if_pos holds

theorem machine_signed (signed : t.signed = true) : machine.result t n = exactly t n := by
  unfold machine exactly
  dsimp only
  rw [if_pos signed]

theorem div_signed (signed : t.signed = true) (a b : Int) : div machine t a b = div strict t a b := by
  unfold div
  rw [machine_signed signed, strict_result]

theorem machine_unsigned (unsigned : t.signed = false) : machine.result t n = some (t.convert n) := by
  unfold machine
  dsimp only
  split_ifs with holds wrong
  · rw [IntType.convert_of_holds holds]
  · rw [unsigned] at wrong
    cases wrong
  · rfl

/-- A result that is exact is also that of the machine. -/
theorem machine_of_exactly (result : exactly t n = some m) : machine.result t n = some m := by
  obtain ⟨holds, rfl⟩ := exactly_eq_some.mp result
  exact machine_of_holds holds

theorem bind_exactly_eq_some {Value : Type*} {f : Int → Option Value} {value : Value} :
    (exactly t n).bind f = some value ↔ t.Holds n ∧ f n = some value := by
  rw [Option.bind_eq_some_iff]
  constructor
  · rintro ⟨m, result, rest⟩
    obtain ⟨holds, rfl⟩ := exactly_eq_some.mp result
    exact ⟨holds, rest⟩
  · rintro ⟨holds, rest⟩
    exact ⟨n, exactly_eq_some.mpr ⟨holds, rfl⟩, rest⟩

theorem bind_div_eq_some {Value : Type*} {a b : Int} {f : Int → Option Value} {value : Value} :
    (div strict t a b).bind f = some value ↔ b ≠ 0 ∧ t.Holds (a.tdiv b) ∧ f (a.tdiv b) = some value := by
  unfold div
  split_ifs with zero
  · rw [Option.bind_none]
    constructor
    · intro result
      cases result
    · intro both
      exact absurd zero both.1
  · exact bind_exactly_eq_some.trans (and_iff_right zero).symm

end Exactness

section Refinement

variable {Value Other : Type*}

/-- What the first computes, the second computes too. -/
def Refines (first second : Option Value) : Prop := ∀ value, first = some value → second = some value

theorem Refines.refl (value : Option Value) : Refines value value := fun _ same => same

theorem Refines.bind {first second : Option Value} {f g : Value → Option Other} (refines : Refines first second)
    (later : ∀ value, Refines (f value) (g value)) : Refines (first.bind f) (second.bind g) := by
  intro other result
  obtain ⟨value, here, rest⟩ := Option.bind_eq_some_iff.mp result
  exact Option.bind_eq_some_iff.mpr ⟨value, refines value here, later value other rest⟩

theorem refines_result (t : IntType) (n : Int) : Refines (strict.result t n) (machine.result t n) :=
  fun _ result => machine_of_exactly result

theorem refines_conversion (t : IntType) (n : Int) : Refines (strict.conversion t n) (machine.conversion t n) := by
  intro m result
  obtain ⟨holds, rfl⟩ := exactly_eq_some.mp result
  exact congrArg some (IntType.convert_of_holds holds)

theorem refines_div (t : IntType) (a b : Int) : Refines (div strict t a b) (div machine t a b) := by
  unfold div
  split_ifs
  · exact .refl none
  · exact refines_result t _

end Refinement

end SlStatus.Integers
