import Mathlib.Algebra.Order.Ring.Int
import SlStatus.CString

/-! What `scanf` does at the conversions of the formats here: a run of characters of a set, which
it stores byte by byte, and an integer. -/

namespace SlStatus.Scanf
open CString

/-- How a conversion ends: at the end of the input before its first character, at a character
that does not fit, or with a value. -/
inductive Conversion (Value : Type) where
  | eof
  | mismatch
  | value (value : Value)
  deriving DecidableEq

def Conversion.map {Value Other : Type} (f : Value → Other) : Conversion Value → Conversion Other
  | .eof => .eof
  | .mismatch => .mismatch
  | .value found => .value (f found)

/-- `%width[set]`, of which the terminator is not yet part. -/
def run (width : Nat) (member : Byte → Bool) (input : List Byte) : Conversion (List Byte) :=
  if input = [] then .eof
  else if (input.takeWhile member).take width = [] then .mismatch
  else .value ((input.takeWhile member).take width)

def isSpace (byte : Byte) : Bool := byte = 0x20 || (0x09 ≤ byte && byte ≤ 0x0D)

def isDigit (byte : Byte) : Bool := 0x30 ≤ byte && byte ≤ 0x39

def isLetter (byte : Byte) : Bool := (0x41 ≤ byte && byte ≤ 0x5A) || (0x61 ≤ byte && byte ≤ 0x7A)

/-- A sign and digits, before it is known whether the number fits its type. -/
structure Numeral where
  negative : Bool
  magnitude : Nat
  deriving DecidableEq

def digitsValue (digits : List Byte) : Nat := digits.foldl (fun n digit => 10 * n + (digit.toNat - 0x30)) 0

def unsigned (negative : Bool) (input : List Byte) : Conversion Numeral :=
  if input.takeWhile isDigit = [] then .mismatch
  else .value ⟨negative, digitsValue (input.takeWhile isDigit)⟩

/-- White space, a sign if there is one, and digits. -/
def numeral (input : List Byte) : Conversion Numeral :=
  match input.dropWhile isSpace with
  | [] => .eof
  | first :: rest =>
      if first = 0x2D then unsigned true rest
      else if first = 0x2B then unsigned false rest
      else unsigned false (first :: rest)

/-- The value of `%ju`: a number that is too large becomes the largest, a negative one wraps. -/
def Numeral.toUintmax (n : Numeral) : UInt64 :=
  if UInt64.size ≤ n.magnitude then UInt64.ofNat (UInt64.size - 1)
  else if n.negative then 0 - UInt64.ofNat n.magnitude
  else UInt64.ofNat n.magnitude

/-- The value of `%ld`, kept within a `long`. -/
def Numeral.toLong (n : Numeral) : Int :=
  if n.negative then max (-(2 ^ 63)) (-n.magnitude) else min (2 ^ 63 - 1) n.magnitude

def ju (input : List Byte) : Conversion UInt64 := (numeral input).map Numeral.toUintmax

def ld (input : List Byte) : Conversion Int := (numeral input).map Numeral.toLong

/-- `pscanf` of `util.c` with one conversion: what it returns, and the value if it assigns one.
There is no input where the file cannot be opened. -/
def pscanf {Value : Type} (file : Option (List Byte)) (conversion : List Byte → Conversion Value) :
    Int × Option Value :=
  match file with
  | none => (-1, none)
  | some input =>
      match conversion input with
      | .eof => (-1, none)
      | .mismatch => (0, none)
      | .value value => (1, some value)

theorem takeWhile_digits {digits rest : List Byte} (all : ∀ digit ∈ digits, isDigit digit = true)
    (ends : ∀ byte ∈ rest.head?, isDigit byte = false) : (digits ++ rest).takeWhile isDigit = digits := by
  rw [List.takeWhile_append_of_pos all]
  cases rest with
  | nil => rw [List.takeWhile_nil, List.append_nil]
  | cons byte rest => rw [List.takeWhile_cons_of_neg (by simp [ends byte rfl]), List.append_nil]

/-- A digit is neither white space nor a sign. -/
theorem digit_plain {digit : Byte} (counts : isDigit digit = true) :
    isSpace digit = false ∧ digit ≠ 0x2D ∧ digit ≠ 0x2B := by
  simp only [isDigit, Bool.and_eq_true, decide_eq_true_eq, UInt8.le_iff_toNat_le] at counts
  obtain ⟨low, high⟩ := counts
  change 48 ≤ digit.toNat at low
  refine ⟨?_, ?_, ?_⟩
  · simp only [isSpace, Bool.or_eq_false_iff, Bool.and_eq_false_iff, decide_eq_false_iff_not,
      UInt8.le_iff_toNat_le, ← UInt8.toNat_inj]
    constructor
    · change digit.toNat ≠ 32
      omega
    · right
      change ¬digit.toNat ≤ 13
      omega
  · rintro rfl
    exact absurd low (by decide)
  · rintro rfl
    exact absurd low (by decide)

/-- Digits behind spaces are scanned up to the first byte that is none. -/
theorem numeral_digits {spaces digits rest : List Byte} (blank : ∀ byte ∈ spaces, isSpace byte = true)
    (some : digits ≠ []) (all : ∀ digit ∈ digits, isDigit digit = true)
    (ends : ∀ byte ∈ rest.head?, isDigit byte = false) :
    numeral (spaces ++ (digits ++ rest)) = .value ⟨false, digitsValue digits⟩ := by
  have run := takeWhile_digits all ends
  obtain ⟨first, others, rfl⟩ := List.exists_cons_of_ne_nil some
  obtain ⟨solid, unsignedMinus, unsignedPlus⟩ := digit_plain (all first List.mem_cons_self)
  unfold numeral
  rw [List.dropWhile_append_of_pos blank, List.cons_append, List.dropWhile_cons_of_neg (by simp [solid])]
  dsimp only
  rw [if_neg unsignedMinus, if_neg unsignedPlus, ← List.cons_append, unsigned, run, if_neg some]

section Array

variable {size : Nat}

/-- A byte stored at an index of the array; `none` outside it. -/
def put (array : Buffer size) (i : Nat) (byte : Byte) : Option (Buffer size) :=
  if i < size then some (array.set i byte) else none

def putAll (array : Buffer size) : Nat → List Byte → Option (Buffer size)
  | _, [] => some array
  | i, byte :: bytes =>
      match put array i byte with
      | none => none
      | some array => putAll array (i + 1) bytes

theorem putAll_isSome_iff (bytes : List Byte) (array : Buffer size) {i : Nat} (inside : i ≤ size) :
    (putAll array i bytes).isSome ↔ i + bytes.length ≤ size := by
  induction bytes generalizing array i with
  | nil => simp [putAll, inside]
  | cons byte bytes ih =>
    by_cases room : i < size
    · simp only [putAll, put, if_pos room, ih _ (Nat.succ_le_of_lt room), List.length_cons]
      omega
    · simp only [putAll, put, if_neg room, List.length_cons]
      constructor
      · intro stored
        cases stored
      · omega

/-- What is stored lies at its place, and all else is as it was. -/
theorem putAll_bytes {bytes : List Byte} {array after : Buffer size} {i : Nat}
    (stored : putAll array i bytes = some after) :
    after.bytes = array.bytes.take i ++ bytes ++ array.bytes.drop (i + bytes.length) := by
  induction bytes generalizing array i with
  | nil =>
    cases stored
    simp
  | cons byte bytes ih =>
    unfold putAll put at stored
    split_ifs at stored with room
    have inside : i < array.bytes.length := by rwa [array.length_eq]
    rw [ih stored]
    have front : (array.set i byte).bytes.take (i + 1) = array.bytes.take i ++ [byte] := by
      rw [Buffer.set, List.take_add_one, List.take_set_of_le (Nat.le_refl i), List.getElem?_set_self inside]
      rfl
    have back : (array.set i byte).bytes.drop (i + 1 + bytes.length) = array.bytes.drop (i + (bytes.length + 1)) := by
      rw [Buffer.set, List.drop_set_of_lt (by omega), Nat.add_assoc, Nat.add_comm 1]
    rw [front, back, List.length_cons]
    simp only [List.append_assoc, List.singleton_append]

/-- A string stored with its terminator is what is read there. -/
theorem string?_putAll {string : List Byte} {array after : Buffer size} (noNul : 0 ∉ string)
    (stored : putAll array 0 (string ++ [0]) = some after) : after.string? = some string := by
  rw [Buffer.string?, putAll_bytes stored, List.take_zero, List.nil_append, List.append_assoc]
  exact stringOf_append string _ noNul

end Array

end SlStatus.Scanf
