import Mathlib.Data.List.Basic
import Mathlib.Tactic.Ring
import SlStatus.CString

/-! Netlink on the wire: little-endian fields read with checked accesses, and attributes laid
out one after the other, each padded to a multiple of four bytes. -/

namespace SlStatus.Netlink
open CString

/-- `width` bytes, the lowest first. -/
def littleEndian : Nat → Nat → List Byte
  | 0, _ => []
  | width + 1, n => UInt8.ofNat n :: littleEndian width (n / 256)

def ofLittleEndian : List Byte → Nat
  | [] => 0
  | byte :: bytes => byte.toNat + 256 * ofLittleEndian bytes

/-- The field of `width` bytes at a position; `none` when it is not wholly inside. -/
def read (width : Nat) (bytes : List Byte) (p : Nat) : Option Nat :=
  if p + width ≤ bytes.length then some (ofLittleEndian ((bytes.drop p).take width)) else none

@[simp] theorem length_littleEndian (width n : Nat) : (littleEndian width n).length = width := by
  induction width generalizing n with
  | zero => rfl
  | succ width ih => rw [littleEndian, List.length_cons, ih]

theorem ofLittleEndian_littleEndian {width n : Nat} (fits : n < 256 ^ width) :
    ofLittleEndian (littleEndian width n) = n := by
  induction width generalizing n with
  | zero =>
    rw [Nat.pow_zero, Nat.lt_one_iff] at fits
    rw [fits]
    rfl
  | succ width ih =>
    have high : n / 256 < 256 ^ width := by
      apply Nat.div_lt_of_lt_mul
      rwa [Nat.mul_comm, ← Nat.pow_succ]
    rw [littleEndian, ofLittleEndian, ih high, UInt8.toNat_ofNat']
    omega

theorem drop_add_of_drop_eq {bytes front rest : List Byte} {p : Nat} (here : bytes.drop p = front ++ rest) :
    bytes.drop (p + front.length) = rest := by
  rw [← List.drop_drop, here, List.drop_left]

theorem read_front {front rest bytes : List Byte} {p : Nat} (here : bytes.drop p = front ++ rest)
    (inside : p ≤ bytes.length) : read front.length bytes p = some (ofLittleEndian front) := by
  have room := congrArg List.length here
  rw [List.length_drop, List.length_append] at room
  rw [read, if_pos (by omega), here, List.take_left]

theorem read_littleEndian {width n p : Nat} {bytes rest : List Byte}
    (here : bytes.drop p = littleEndian width n ++ rest) (inside : p ≤ bytes.length) (fits : n < 256 ^ width) :
    read width bytes p = some n := by
  have front := read_front here inside
  rwa [length_littleEndian, ofLittleEndian_littleEndian fits] at front

/-- `NLA_ALIGN` and `NLMSG_ALIGN`. -/
def align (n : Nat) : Nat := (n + 3) / 4 * 4

theorem le_align (n : Nat) : n ≤ align n := by
  unfold align
  omega

theorem align_lt (n : Nat) : align n < n + 4 := by
  unfold align
  omega

theorem align_eq_self_iff (n : Nat) : align n = n ↔ n % 4 = 0 := by
  unfold align
  omega

structure Attribute where
  type : UInt16
  payload : List Byte
  deriving DecidableEq

namespace Attribute

/-- `nla_len`, the header of four bytes counted. -/
def length (nla : Attribute) : Nat := 4 + nla.payload.length

def padding (nla : Attribute) : Nat := align nla.length - nla.length

def padded (nla : Attribute) : List Byte := nla.payload ++ List.replicate nla.padding 0

def encode (nla : Attribute) : List Byte :=
  littleEndian 2 nla.length ++ littleEndian 2 nla.type.toNat ++ nla.padded

theorem length_padded (nla : Attribute) : nla.padded.length = align nla.length - 4 := by
  have large := le_align nla.length
  rw [padded, padding, List.length_append, List.length_replicate]
  unfold length at large ⊢
  omega

theorem length_encode (nla : Attribute) : nla.encode.length = align nla.length := by
  have large := le_align nla.length
  have header : nla.length = 4 + nla.payload.length := rfl
  rw [encode, List.length_append, List.length_append, length_littleEndian, length_littleEndian, length_padded]
  omega

end Attribute

def encodeAll (nlas : List Attribute) : List Byte := nlas.flatMap Attribute.encode

theorem encodeAll_cons (nla : Attribute) (nlas : List Attribute) :
    encodeAll (nla :: nlas) = nla.encode ++ encodeAll nlas := List.flatMap_cons

theorem encodeAll_append (front back : List Attribute) :
    encodeAll (front ++ back) = encodeAll front ++ encodeAll back :=
  List.flatMap_append

theorem length_encodeAll_mod (nlas : List Attribute) : (encodeAll nlas).length % 4 = 0 := by
  induction nlas with
  | nil => rfl
  | cons nla nlas ih =>
    rw [encodeAll_cons, List.length_append, Attribute.length_encode]
    unfold align
    omega

/-- What a header says where an attribute is laid out, and where the next one begins. -/
theorem read_encode {nla : Attribute} {bytes rest : List Byte} {p : Nat} (here : bytes.drop p = nla.encode ++ rest)
    (fits : nla.length < 65536) :
    read 2 bytes p = some nla.length ∧ read 2 bytes (p + 2) = some nla.type.toNat ∧
      p + align nla.length ≤ bytes.length ∧ bytes.drop (p + align nla.length) = rest := by
  have room := congrArg List.length here
  rw [List.length_drop, List.length_append, Attribute.length_encode] at room
  have large := le_align nla.length
  have header : nla.length = 4 + nla.payload.length := rfl
  have start := here
  rw [Attribute.encode, List.append_assoc, List.append_assoc] at start
  have type := drop_add_of_drop_eq start
  rw [length_littleEndian] at type
  refine ⟨read_littleEndian start (by omega) (by omega), read_littleEndian type (by omega) nla.type.toNat_lt,
    by omega, ?_⟩
  rw [← Attribute.length_encode]
  exact drop_add_of_drop_eq here

/-- Where the payload lies, its padding behind it. -/
theorem drop_padded {nla : Attribute} {bytes rest : List Byte} {p : Nat} (here : bytes.drop p = nla.encode ++ rest) :
    bytes.drop (p + 4) = nla.padded ++ rest := by
  have header : (littleEndian 2 nla.length ++ littleEndian 2 nla.type.toNat).length = 4 := by simp
  rw [Attribute.encode, List.append_assoc] at here
  rw [← header]
  exact drop_add_of_drop_eq here

/-- Where the payload of an attribute among others lies. -/
theorem drop_payload {front back : List Attribute} {nla : Attribute} {bytes tail : List Byte} {p : Nat}
    (here : bytes.drop p = encodeAll (front ++ nla :: back) ++ tail) :
    ∃ rest, bytes.drop (p + (encodeAll front).length + 4) = nla.payload ++ rest := by
  rw [encodeAll_append, encodeAll_cons, List.append_assoc, List.append_assoc] at here
  have padded := drop_padded (drop_add_of_drop_eq here)
  rw [Attribute.padded, List.append_assoc] at padded
  exact ⟨_, padded⟩

theorem find_attribute {attr : Nat} {front back : List Attribute} {nla : Attribute}
    (others : ∀ other ∈ front, other.type.toNat ≠ attr) (found : nla.type.toNat = attr) :
    (front ++ nla :: back).find? (fun nla => nla.type.toNat = attr) = some nla := by
  apply List.find?_eq_some_iff_append.mpr
  exact ⟨by simp [found], front, back, rfl, fun other member => by simpa using others other member⟩

theorem find_attribute_none {attr : Nat} {nlas : List Attribute} (others : ∀ nla ∈ nlas, nla.type.toNat ≠ attr) :
    nlas.find? (fun nla => nla.type.toNat = attr) = none := by
  apply List.find?_eq_none.mpr
  intro nla member
  simpa using others nla member

theorem length_le_of_mem {nla : Attribute} {nlas : List Attribute} (member : nla ∈ nlas) :
    nla.length ≤ (encodeAll nlas).length := by
  obtain ⟨front, back, rfl⟩ := List.append_of_mem member
  have large := le_align nla.length
  rw [encodeAll_append, encodeAll_cons, List.length_append, List.length_append, Attribute.length_encode]
  omega

/-- In a short buffer every length fits into its header. -/
theorem fits_of_short {nlas : List Attribute} {bytes tail : List Byte} {p : Nat}
    (here : bytes.drop p = encodeAll nlas ++ tail) (short : bytes.length < 65536) :
    ∀ nla ∈ nlas, nla.length < 65536 := by
  intro nla member
  have room := congrArg List.length here
  rw [List.length_drop, List.length_append] at room
  have le := length_le_of_mem member
  omega

theorem length_le_encodeAll (nlas : List Attribute) : nlas.length ≤ (encodeAll nlas).length := by
  induction nlas with
  | nil => exact le_refl 0
  | cons nla nlas ih =>
    have large := le_align nla.length
    rw [encodeAll_cons, List.length_append, Attribute.length_encode, List.length_cons]
    unfold Attribute.length at large ⊢
    omega

end SlStatus.Netlink
