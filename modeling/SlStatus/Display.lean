import Mathlib.Data.Nat.Digits.Lemmas
import SlStatus.Util

/-! What the display functions share: their icons, the numbers they print, `bprintf`, and a name
that two of them watch. -/

namespace SlStatus.Display
open CString Util

/-- All icons have a code of four bytes, and the same first two. -/
def icon (third fourth : Byte) (visible : 0 ∉ [0xF3, 0xB0, third, fourth]) : Text :=
  ⟨[0xF3, 0xB0, third, fourth], visible⟩

/-- A chain of tests for an upper bound, each with its icon, and the icon after the last. -/
def pick {Level : Type*} [LT Level] [DecidableLT Level] : List (Level × Text) → Text → Level → Text
  | [], top, _ => top
  | (bound, icon) :: rest, top, level => if level < bound then icon else pick rest top level

def digits (n : Nat) : List Byte :=
  if n = 0 then [0x30] else (Nat.digits 10 n).reverse.map fun digit => UInt8.ofNat (0x30 + digit)

theorem digits_noNul (n : Nat) : 0 ∉ digits n := by
  unfold digits
  split_ifs
  · decide
  · rintro member
    obtain ⟨digit, small, zero⟩ := List.mem_map.mp member
    have bound : digit < 10 := Nat.digits_lt_base (by decide) (List.mem_reverse.mp small)
    have value := congrArg UInt8.toNat zero
    rw [UInt8.toNat_ofNat', Nat.mod_eq_of_lt (by omega)] at value
    change 0x30 + digit = 0 at value
    omega

/-- `%d` and `%u`. -/
def decimal (n : Int) : Text :=
  ⟨(if n < 0 then [0x2D] else []) ++ digits n.natAbs, by
    split_ifs <;> simp [digits_noNul]⟩

theorem length_digits_le {n k : Nat} (positive : 0 < k) (small : n < 10 ^ k) : (digits n).length ≤ k := by
  unfold digits
  split_ifs
  · exact positive
  · rw [List.length_map, List.length_reverse]
    exact (Nat.digits_length_le_iff (by decide) n).mpr small

theorem length_decimal_le {n k : Nat} (positive : 0 < k) (small : n < 10 ^ k) : (decimal n).bytes.length ≤ k := by
  have sign : ¬((n : Int) < 0) := Int.not_lt.mpr (Int.natCast_nonneg n)
  simp only [decimal, if_neg sign, List.nil_append, Int.natAbs_natCast]
  exact length_digits_le positive small

def character (code : Byte) (visible : 0 ≠ code) : Text := ⟨[code], by simpa using visible⟩

def space : Text := character 0x20 (by decide)

def percentSign : Text := character 0x25 (by decide)

/-- `"state"`, a property of modems and of devices. -/
def stateName : Text := ⟨[0x73, 0x74, 0x61, 0x74, 0x65], by decide⟩

/-- `NULL` when the text and its terminator do not fit into `buf`. -/
def bprintf (text : Text) : Option Text :=
  let (_, ret) := evsnprintf (Buffer.zeroed 1024) text.bytes
  if ret < 0 then none else some text

theorem bprintf_eq (text : Text) : bprintf text = if text.bytes.length < 1024 then some text else none := by
  have fits : (evsnprintf (Buffer.zeroed 1024) text.bytes).2 < 0 ↔ 1024 ≤ text.bytes.length :=
    esnprintf_neg_iff (Buffer.zeroed 1024) text.bytes
  simp only [bprintf, fits]
  split_ifs <;> first | rfl | omega

end SlStatus.Display
