import Mathlib.Data.List.Basic

/-! C strings: byte sequences without a zero, and the fixed-size buffers that hold them. A
buffer is read up to its first zero; reading one that has none runs past its end, and
appending more than it can take writes past it, so both are partial here. -/

namespace SlStatus.CString

abbrev Byte := UInt8

/-- The characters of a C string, its terminator left out. -/
structure Text where
  bytes : List Byte
  noNul : 0 ∉ bytes
  deriving DecidableEq

def Text.empty : Text := ⟨[], by simp⟩

instance : Append Text :=
  ⟨fun front back => ⟨front.bytes ++ back.bytes, by simp [front.noNul, back.noNul]⟩⟩

@[simp] theorem Text.append_bytes (front back : Text) : (front ++ back).bytes = front.bytes ++ back.bytes := rfl

def stringOf : List Byte → Option (List Byte)
  | [] => none
  | byte :: rest => if byte = 0 then some [] else (stringOf rest).map (byte :: ·)

theorem stringOf_append (string rest : List Byte) (noNul : 0 ∉ string) :
    stringOf (string ++ 0 :: rest) = some string := by
  induction string with
  | nil => simp [stringOf]
  | cons byte string ih =>
    have nonzero : byte ≠ 0 := fun same => noNul (by simp [same])
    have tailNoNul : 0 ∉ string := fun member => noNul (List.mem_cons_of_mem _ member)
    simp only [List.cons_append, stringOf, if_neg nonzero, ih tailNoNul, Option.map_some]

theorem stringOf_eq_some {bytes string : List Byte} (read : stringOf bytes = some string) :
    0 ∉ string ∧ ∃ rest, bytes = string ++ 0 :: rest := by
  induction bytes generalizing string with
  | nil => simp [stringOf] at read
  | cons byte bytes ih =>
    by_cases zero : byte = 0
    · simp only [stringOf, if_pos zero, Option.some.injEq] at read
      subst string
      exact ⟨by simp, bytes, by simp [zero]⟩
    · simp only [stringOf, if_neg zero, Option.map_eq_some_iff] at read
      obtain ⟨tail, readTail, rfl⟩ := read
      obtain ⟨noNul, rest, rfl⟩ := ih readTail
      exact ⟨by simp [noNul, Ne.symm zero], rest, rfl⟩

/-- A string ends at its first zero, wherever the terminator was put. -/
theorem stringOf_terminated (front rest : List Byte) :
    stringOf (front ++ 0 :: rest) = some (front.takeWhile fun byte => byte ≠ 0) := by
  induction front with
  | nil => simp [stringOf]
  | cons byte front ih =>
    by_cases zero : byte = 0
    · simp [stringOf, zero]
    · simp [stringOf, zero, ih]

/-- A `char` array of a fixed number of bytes. -/
structure Buffer (size : Nat) where
  bytes : List Byte
  length_eq : bytes.length = size
  deriving DecidableEq

namespace Buffer

variable {size : Nat}

def zeroed (size : Nat) : Buffer size := ⟨List.replicate size 0, by simp⟩

/-- The string that starts at the buffer's first byte. -/
def string? (buffer : Buffer size) : Option (List Byte) := stringOf buffer.bytes

theorem string?_zeroed (positive : 0 < size) : (zeroed size).string? = some [] := by
  cases size with
  | zero => omega
  | succ size => simp [string?, zeroed, List.replicate_succ, stringOf]

theorem string?_noNul {buffer : Buffer size} {string : List Byte} (read : buffer.string? = some string) :
    0 ∉ string := (stringOf_eq_some read).1

theorem string?_length_lt {buffer : Buffer size} {string : List Byte} (read : buffer.string? = some string) :
    string.length < size := by
  obtain ⟨_, rest, bytes⟩ := stringOf_eq_some read
  have length := buffer.length_eq
  rw [bytes, List.length_append, List.length_cons] at length
  omega

/-- Stores `written` from the buffer's first byte on and leaves the bytes behind it. -/
def store (buffer : Buffer size) (written : List Byte) (fits : written.length ≤ size) : Buffer size :=
  ⟨written ++ buffer.bytes.drop written.length, by
    rw [List.length_append, List.length_drop, buffer.length_eq]
    omega⟩

theorem string?_store (buffer : Buffer size) (string : List Byte) (noNul : 0 ∉ string)
    (fits : (string ++ [0]).length ≤ size) : (buffer.store (string ++ [0]) fits).string? = some string := by
  simp only [string?, store, List.append_assoc, List.singleton_append]
  exact stringOf_append string _ noNul

/-- Stores one byte at an index. -/
def set (buffer : Buffer size) (i : Nat) (byte : Byte) : Buffer size :=
  ⟨buffer.bytes.set i byte, by rw [List.length_set, buffer.length_eq]⟩

/-- Writing the terminator where it already is changes nothing that is read. -/
theorem string?_set_end {buffer : Buffer size} {string : List Byte} (read : buffer.string? = some string) :
    (buffer.set string.length 0).string? = some string := by
  obtain ⟨noNul, rest, bytes⟩ := stringOf_eq_some read
  simp only [string?, set, bytes, List.set_append_right, Nat.le_refl, Nat.sub_self, List.set_cons_zero]
  exact stringOf_append string rest noNul

/-- `vsnprintf` once its conversions are done: at most `size - 1` bytes and the terminator
are stored, and the length the whole text has is returned. -/
def vsnprintf (str : Buffer size) (text : List Byte) : Buffer size × Int :=
  if positive : 0 < size then
    (str.store (text.take (size - 1) ++ [0]) (by simp; omega), text.length)
  else (str, text.length)

@[simp] theorem vsnprintf_ret (str : Buffer size) (text : List Byte) :
    (str.vsnprintf text).2 = text.length := by
  unfold vsnprintf
  split <;> rfl

theorem string?_vsnprintf (str : Buffer size) (text : List Byte) (noNul : 0 ∉ text) (positive : 0 < size) :
    (str.vsnprintf text).1.string? = some (text.take (size - 1)) := by
  simp only [vsnprintf, dif_pos positive]
  exact string?_store _ _ (fun member => noNul (List.mem_of_mem_take member)) _

/-- `strcat` of a string already read from its own buffer. -/
def strcat (dst : Buffer size) (src : List Byte) : Option (Buffer size) :=
  match dst.string? with
  | none => none
  | some front =>
      if fits : (front ++ src ++ [(0 : Byte)]).length ≤ size then some (dst.store _ fits)
      else none

theorem strcat_some {dst : Buffer size} {front src : List Byte} (read : dst.string? = some front)
    (noNul : 0 ∉ src) (room : front.length + src.length < size) :
    ∃ out, dst.strcat src = some out ∧ out.string? = some (front ++ src) := by
  have fits : (front ++ src ++ [(0 : Byte)]).length ≤ size := by
    simp only [List.length_append, List.length_singleton]
    omega
  refine ⟨dst.store _ fits, ?_, string?_store _ _ ?_ fits⟩
  · simp only [strcat, read, dif_pos fits]
  · simp [string?_noNul read, noNul]

end Buffer

end SlStatus.CString
