import SlStatus.Netlink

/-! The messages of generic netlink: a header, the header of the family and the attributes. A receiver that
checks every length reads back what was laid out. -/

namespace SlStatus.GenericNetlink
open CString Netlink

structure Message where
  type : UInt16
  flags : UInt16
  seq : UInt32
  pid : UInt32
  cmd : UInt8
  version : UInt8
  nlas : List Attribute
  deriving DecidableEq

/-- `struct nlmsghdr`. -/
def nlmsghdr (nlmsgLen nlmsgType nlmsgFlags nlmsgSeq nlmsgPid : Nat) : List Byte :=
  littleEndian 4 nlmsgLen ++ (littleEndian 2 nlmsgType ++ (littleEndian 2 nlmsgFlags ++
    (littleEndian 4 nlmsgSeq ++ littleEndian 4 nlmsgPid)))

/-- `struct genlmsghdr`, whose last field is reserved. -/
def genlmsghdr (cmd version : UInt8) : List Byte :=
  littleEndian 1 cmd.toNat ++ (littleEndian 1 version.toNat ++ littleEndian 2 0)

namespace Message

def length (m : Message) : Nat := 20 + (encodeAll m.nlas).length

def encode (m : Message) : List Byte :=
  nlmsghdr m.length m.type.toNat m.flags.toNat m.seq.toNat m.pid.toNat ++
    (genlmsghdr m.cmd m.version ++ encodeAll m.nlas)

theorem length_encode (m : Message) : m.encode.length = m.length := by
  simp only [encode, nlmsghdr, genlmsghdr, length, List.length_append, length_littleEndian]
  omega

/-- Every length fits its field. -/
structure Fits (m : Message) : Prop where
  whole : m.length < 2 ^ 32
  each : ∀ nla ∈ m.nlas, nla.length < 65536

end Message

/-- The attributes one after the other, none of them shorter than its header or longer than what is left. -/
def decodeAll : Nat → List Byte → Option (List Attribute)
  | _, [] => some []
  | 0, _ :: _ => none
  | budget + 1, bytes => do
      let nlaLen ← read 2 bytes 0
      let nlaType ← read 2 bytes 2
      if 4 ≤ nlaLen ∧ nlaLen ≤ bytes.length then do
        let rest ← decodeAll budget (bytes.drop (align nlaLen))
        pure ({ type := UInt16.ofNat nlaType, payload := (bytes.drop 4).take (nlaLen - 4) } :: rest)
      else none

def decode (bytes : List Byte) : Option Message := do
  let nlmsgLen ← read 4 bytes 0
  let nlmsgType ← read 2 bytes 4
  let nlmsgFlags ← read 2 bytes 6
  let nlmsgSeq ← read 4 bytes 8
  let nlmsgPid ← read 4 bytes 12
  let cmd ← read 1 bytes 16
  let version ← read 1 bytes 17
  let nlas ← decodeAll bytes.length (bytes.drop 20)
  if nlmsgLen = bytes.length then
    pure
      { type := UInt16.ofNat nlmsgType, flags := UInt16.ofNat nlmsgFlags, seq := UInt32.ofNat nlmsgSeq,
        pid := UInt32.ofNat nlmsgPid, cmd := UInt8.ofNat cmd, version := UInt8.ofNat version, nlas }
  else none

theorem decodeAll_encodeAll {nlas : List Attribute} (fits : ∀ nla ∈ nlas, nla.length < 65536) {budget : Nat}
    (enough : nlas.length ≤ budget) : decodeAll budget (encodeAll nlas) = some nlas := by
  induction nlas generalizing budget with
  | nil =>
    unfold decodeAll
    rfl
  | cons nla nlas ih =>
    obtain ⟨small, fits⟩ := List.forall_mem_cons.mp fits
    cases budget with
    | zero => exact absurd enough (Nat.not_succ_le_zero _)
    | succ budget =>
      have here : (encodeAll (nla :: nlas)).drop 0 = nla.encode ++ encodeAll nlas := by
        rw [List.drop_zero, encodeAll_cons]
      obtain ⟨length, type, room, rest⟩ := read_encode here small
      have header : nla.length = 4 + nla.payload.length := rfl
      have large := le_align nla.length
      have payload : ((encodeAll (nla :: nlas)).drop 4).take (nla.length - 4) = nla.payload := by
        rw [← Nat.zero_add 4, drop_padded here, Attribute.padded, List.append_assoc, header, Nat.zero_add,
          Nat.add_sub_cancel_left, List.take_left]
      have within : 4 ≤ nla.length ∧ nla.length ≤ (encodeAll (nla :: nlas)).length := by omega
      have tail := ih fits (Nat.le_of_succ_le_succ enough)
      rw [Nat.zero_add] at type rest
      cases split : encodeAll (nla :: nlas) with
      | nil =>
        rw [split] at within
        exact absurd (within.1.trans within.2) (by decide)
      | cons byte bytes =>
        rw [split] at length type rest payload within
        simp only [decodeAll, length, type, Option.bind_eq_bind, Option.bind_some, if_pos within, rest, tail, payload,
          Option.pure_def, UInt16.ofNat_toNat]

/-- A field where it is laid out, and what comes behind it. -/
theorem read_field {width n p : Nat} {bytes rest : List Byte} (here : bytes.drop p = littleEndian width n ++ rest)
    (inside : p ≤ bytes.length) (fits : n < 256 ^ width) :
    read width bytes p = some n ∧ bytes.drop (p + width) = rest := by
  have behind := drop_add_of_drop_eq here
  rw [length_littleEndian] at behind
  exact ⟨read_littleEndian here inside fits, behind⟩

theorem decode_encode {m : Message} (fits : m.Fits) : decode m.encode = some m := by
  have size : m.encode.length = 20 + (encodeAll m.nlas).length := m.length_encode
  have start : m.encode.drop 0 = littleEndian 4 m.length ++ (littleEndian 2 m.type.toNat ++
      (littleEndian 2 m.flags.toNat ++ (littleEndian 4 m.seq.toNat ++ (littleEndian 4 m.pid.toNat ++
        (littleEndian 1 m.cmd.toNat ++ (littleEndian 1 m.version.toNat ++ (littleEndian 2 0 ++
          encodeAll m.nlas))))))) := by
    simp only [List.drop_zero, Message.encode, nlmsghdr, genlmsghdr, List.append_assoc]
  obtain ⟨length, atType⟩ := read_field start (by omega) fits.whole
  obtain ⟨type, atFlags⟩ := read_field atType (by omega) m.type.toNat_lt
  obtain ⟨flags, atSeq⟩ := read_field atFlags (by omega) m.flags.toNat_lt
  obtain ⟨seq, atPid⟩ := read_field atSeq (by omega) m.seq.toNat_lt
  obtain ⟨pid, atCmd⟩ := read_field atPid (by omega) m.pid.toNat_lt
  obtain ⟨cmd, atVersion⟩ := read_field atCmd (by omega) m.cmd.toNat_lt
  obtain ⟨version, atReserved⟩ := read_field atVersion (by omega) m.version.toNat_lt
  obtain ⟨-, attributes⟩ := read_field atReserved (by omega) (by decide)
  have few : m.nlas.length ≤ m.encode.length := by
    have counted := length_le_encodeAll m.nlas
    omega
  have nlas := decodeAll_encodeAll fits.each few
  rw [m.length_encode] at nlas
  simp only [Nat.zero_add, Nat.reduceAdd] at type flags seq pid cmd version attributes
  simp only [decode, length, type, flags, seq, pid, cmd, version, attributes, nlas, m.length_encode, if_true,
    Option.bind_eq_bind, Option.bind_some, Option.pure_def, UInt16.ofNat_toNat, UInt32.ofNat_toNat, UInt8.ofNat_toNat]

end SlStatus.GenericNetlink
