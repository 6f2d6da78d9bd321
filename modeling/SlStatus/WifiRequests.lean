import SlStatus.GenericNetlink
import SlStatus.Wifi

/-! The three requests of `components/wifi.c`, copied piece by piece into a buffer of zeros, and what the kernel
reads in them. -/

namespace SlStatus.WifiRequests
open CString Netlink Wifi GenericNetlink

def NLM_F_REQUEST : Nat := 1
def NLM_F_DUMP : Nat := 0x300
def CTRL_CMD_GETFAMILY : UInt8 := 3
def CTRL_ATTR_FAMILY_NAME : Nat := 2
def NL80211_CMD_GET_INTERFACE : UInt8 := 5
def NL80211_CMD_GET_STATION : UInt8 := 17
def NL80211_ATTR_IFINDEX : Nat := 3

/-- `"nl80211"` with its terminator. -/
def family : List Byte := [0x6E, 0x6C, 0x38, 0x30, 0x32, 0x31, 0x31, 0]

/-- A copy into a buffer; `none` where it is not wholly inside. -/
def memcpy (buffer : List Byte) (p : Nat) (bytes : List Byte) : Option (List Byte) :=
  if p + bytes.length ≤ buffer.length then some (buffer.take p ++ bytes ++ buffer.drop (p + bytes.length)) else none

/-- `struct nlattr`. -/
def nlattr (nlaLen nlaType : Nat) : List Byte := littleEndian 2 nlaLen ++ littleEndian 2 nlaType

/-- The copies that each of the functions makes, `nlmsg_pid` being 0 and the version 1. -/
def request (size nlmsgType nlmsgFlags : Nat) (seq : UInt32) (cmd : UInt8) (nlaLen nlaType : Nat)
    (payload : List Byte) : Option (List Byte) := do
  let req := List.replicate size 0
  let p := 0
  let req ← memcpy req p (nlmsghdr size nlmsgType nlmsgFlags seq.toNat 0)
  let p := p + NLMSG_HDRLEN
  let req ← memcpy req p (genlmsghdr cmd 1)
  let p := p + GENL_HDRLEN
  let req ← memcpy req p (nlattr nlaLen nlaType)
  let p := p + NLA_HDRLEN
  memcpy req p payload

/-- What `nl80211fam` sends. -/
def familyRequest (seq : UInt32) : Option (List Byte) :=
  request (NLMSG_HDRLEN + GENL_HDRLEN + NLA_HDRLEN + align family.length) GENL_ID_CTRL NLM_F_REQUEST seq
    CTRL_CMD_GETFAMILY (NLA_HDRLEN + family.length) CTRL_ATTR_FAMILY_NAME family

/-- What `wifi_essid` sends. -/
def essidRequest (fam : UInt16) (seq idx : UInt32) : Option (List Byte) :=
  request (NLMSG_HDRLEN + GENL_HDRLEN + NLA_HDRLEN + align 4) fam.toNat NLM_F_REQUEST seq NL80211_CMD_GET_INTERFACE
    (NLA_HDRLEN + 4) NL80211_ATTR_IFINDEX (littleEndian 4 idx.toNat)

/-- What `wifi_perc` sends. -/
def percRequest (fam : UInt16) (seq idx : UInt32) : Option (List Byte) :=
  request (NLMSG_HDRLEN + GENL_HDRLEN + NLA_HDRLEN + align 4) fam.toNat (NLM_F_REQUEST ||| NLM_F_DUMP) seq
    NL80211_CMD_GET_STATION (NLA_HDRLEN + 4) NL80211_ATTR_IFINDEX (littleEndian 4 idx.toNat)

/-- A copy to where the zeros begin. -/
theorem memcpy_zeros {front bytes : List Byte} {p zeros more : Nat} (here : p = front.length)
    (room : zeros = bytes.length + more) :
    memcpy (front ++ List.replicate zeros 0) p bytes = some ((front ++ bytes) ++ List.replicate more 0) := by
  subst here room
  have inside : front.length + bytes.length ≤ (front ++ List.replicate (bytes.length + more) (0 : Byte)).length := by
    rw [List.length_append, List.length_replicate]
    omega
  rw [memcpy, if_pos inside, List.take_left, ← List.drop_drop, List.drop_left, List.drop_replicate,
    Nat.add_sub_cancel_left]

theorem length_nlmsghdr (len type flags seq pid : Nat) : (nlmsghdr len type flags seq pid).length = 16 := by
  simp only [nlmsghdr, List.length_append, length_littleEndian]

theorem length_genlmsghdr (cmd version : UInt8) : (genlmsghdr cmd version).length = 4 := by
  simp only [genlmsghdr, List.length_append, length_littleEndian]

theorem length_nlattr (len type : Nat) : (nlattr len type).length = 4 := by
  simp only [nlattr, List.length_append, length_littleEndian]

/-- A request of the size that its payload needs is the message with that attribute. -/
theorem request_eq (type flags : UInt16) (seq : UInt32) (cmd : UInt8) (nlaType : UInt16) (payload : List Byte) :
    request (20 + align (4 + payload.length)) type.toNat flags.toNat seq cmd (4 + payload.length) nlaType.toNat payload =
      some (Message.encode
        { type, flags, seq, pid := 0, cmd, version := 1, nlas := [{ type := nlaType, payload }] }) := by
  obtain ⟨padding, size⟩ := Nat.exists_eq_add_of_le (le_align (4 + payload.length))
  let header := nlmsghdr (20 + align (4 + payload.length)) type.toNat flags.toNat seq.toNat 0
  have headerLength : header.length = 16 := length_nlmsghdr ..
  have genericLength := length_genlmsghdr cmd 1
  have attributeLength := length_nlattr (4 + payload.length) nlaType.toNat
  have copied : memcpy (List.replicate (20 + align (4 + payload.length)) 0) 0 header =
      some (header ++ List.replicate (8 + payload.length + padding) 0) :=
    memcpy_zeros List.length_nil.symm (by omega)
  have generic : memcpy (header ++ List.replicate (8 + payload.length + padding) 0) 16 (genlmsghdr cmd 1) =
      some ((header ++ genlmsghdr cmd 1) ++ List.replicate (4 + payload.length + padding) 0) :=
    memcpy_zeros headerLength.symm (by omega)
  have labelled : memcpy ((header ++ genlmsghdr cmd 1) ++ List.replicate (4 + payload.length + padding) 0) 20
      (nlattr (4 + payload.length) nlaType.toNat) =
        some (((header ++ genlmsghdr cmd 1) ++ nlattr (4 + payload.length) nlaType.toNat) ++
          List.replicate (payload.length + padding) 0) :=
    memcpy_zeros (by rw [List.length_append, headerLength, genericLength]) (by omega)
  have filled : memcpy (((header ++ genlmsghdr cmd 1) ++ nlattr (4 + payload.length) nlaType.toNat) ++
      List.replicate (payload.length + padding) 0) 24 payload =
        some ((((header ++ genlmsghdr cmd 1) ++ nlattr (4 + payload.length) nlaType.toNat) ++ payload) ++
          List.replicate padding 0) :=
    memcpy_zeros (by rw [List.length_append, List.length_append, headerLength, genericLength, attributeLength]) rfl
  have whole : encodeAll [({ type := nlaType, payload } : Attribute)] =
      nlattr (4 + payload.length) nlaType.toNat ++ (payload ++ List.replicate padding 0) := by
    have left : align (4 + payload.length) - (4 + payload.length) = padding := by omega
    rw [encodeAll, List.flatMap_singleton, Attribute.encode, Attribute.padded, Attribute.padding, Attribute.length, left]
    rfl
  have length : Message.length { type, flags, seq, pid := 0, cmd, version := 1, nlas := [{ type := nlaType, payload }] } =
      20 + align (4 + payload.length) := by
    rw [Message.length, encodeAll, List.flatMap_singleton, Attribute.length_encode]
    rfl
  calc
    _ = memcpy (((header ++ genlmsghdr cmd 1) ++ nlattr (4 + payload.length) nlaType.toNat) ++
          List.replicate (payload.length + padding) 0) 24 payload := by
      simp only [request, NLMSG_HDRLEN, GENL_HDRLEN, NLA_HDRLEN, Nat.zero_add, Nat.reduceAdd, Option.bind_eq_bind]
      rw [copied, Option.bind_some, generic, Option.bind_some, labelled, Option.bind_some]
    _ = some (header ++ (genlmsghdr cmd 1 ++ encodeAll [({ type := nlaType, payload } : Attribute)])) := by
      rw [filled, whole]
      simp only [List.append_assoc]
    _ = _ := by
      rw [Message.encode, length]
      rfl

/-- The message that one of the functions asks with. -/
def asked (type flags : UInt16) (seq : UInt32) (cmd : UInt8) (nla : Attribute) : Message :=
  { type, flags, seq, pid := 0, cmd, version := 1, nlas := [nla] }

theorem request_decoded (type flags : UInt16) (seq : UInt32) (cmd : UInt8) (nlaType : UInt16) {payload : List Byte}
    (short : payload.length < 65532) :
    ∃ bytes, request (20 + align (4 + payload.length)) type.toNat flags.toNat seq cmd (4 + payload.length)
        nlaType.toNat payload = some bytes ∧ bytes.length = 20 + align (4 + payload.length) ∧
      decode bytes = some (asked type flags seq cmd { type := nlaType, payload }) := by
  have small := align_lt (4 + payload.length)
  have length : (asked type flags seq cmd { type := nlaType, payload }).length = 20 + align (4 + payload.length) := by
    rw [Message.length, asked, encodeAll, List.flatMap_singleton, Attribute.length_encode]
    rfl
  refine ⟨_, request_eq type flags seq cmd nlaType payload, (Message.length_encode _).trans length, ?_⟩
  apply decode_encode
  constructor
  · change (asked type flags seq cmd { type := nlaType, payload }).length < 2 ^ 32
    rw [length]
    omega
  · intro nla member
    obtain rfl := List.mem_singleton.mp member
    show 4 + payload.length < 65536
    omega

/-- The interface that a message names. -/
def interfaceOf (m : Message) : Option Nat :=
  (m.nlas.find? fun nla => nla.type.toNat = NL80211_ATTR_IFINDEX).map fun nla => ofLittleEndian nla.payload

/-- What `wifi_essid` and `wifi_perc` ask about an interface. -/
theorem interface_decoded (fam flags : UInt16) (seq idx : UInt32) (cmd : UInt8) :
    ∃ bytes, request (20 + align (4 + 4)) fam.toNat flags.toNat seq cmd (4 + 4) 3 (littleEndian 4 idx.toNat) =
        some bytes ∧ bytes.length = 28 ∧
      ∃ m, decode bytes = some m ∧ m = asked fam flags seq cmd { type := 3, payload := littleEndian 4 idx.toNat } ∧
        interfaceOf m = some idx.toNat := by
  have short : (littleEndian 4 idx.toNat).length < 65532 := by
    rw [length_littleEndian]
    decide
  obtain ⟨bytes, filled, length, decoded⟩ := request_decoded fam flags seq cmd 3 short
  rw [length_littleEndian] at filled length
  refine ⟨bytes, filled, length, _, decoded, rfl, ?_⟩
  change some (ofLittleEndian (littleEndian 4 idx.toNat)) = some idx.toNat
  rw [ofLittleEndian_littleEndian idx.toNat_lt]

/-- Whatever the counter, the family and the index are, each of the three buffers is filled exactly, and a receiver
reads in it what was meant: the name of the family, or the interface. -/
theorem requests_decoded (seq : UInt32) (fam : UInt16) (idx : UInt32) :
    (∃ bytes, familyRequest seq = some bytes ∧ bytes.length = sizeofCtrl ∧
      decode bytes = some (asked 16 1 seq CTRL_CMD_GETFAMILY { type := 2, payload := family })) ∧
    (∃ bytes, essidRequest fam seq idx = some bytes ∧ bytes.length = 28 ∧
      ∃ m, decode bytes = some m ∧
        m = asked fam 1 seq NL80211_CMD_GET_INTERFACE { type := 3, payload := littleEndian 4 idx.toNat } ∧
        interfaceOf m = some idx.toNat) ∧
    ∃ bytes, percRequest fam seq idx = some bytes ∧ bytes.length = 28 ∧
      ∃ m, decode bytes = some m ∧
        m = asked fam 0x301 seq NL80211_CMD_GET_STATION { type := 3, payload := littleEndian 4 idx.toNat } ∧
        interfaceOf m = some idx.toNat := by
  refine ⟨?_, interface_decoded fam 1 seq idx NL80211_CMD_GET_INTERFACE,
    interface_decoded fam 0x301 seq idx NL80211_CMD_GET_STATION⟩
  have short : family.length < 65532 := by decide
  exact request_decoded 16 1 seq CTRL_CMD_GETFAMILY 2 short

end SlStatus.WifiRequests
