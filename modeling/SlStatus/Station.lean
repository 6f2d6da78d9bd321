import SlStatus.AttributeLookup

/-! The messages of the reply to the station dump: the signal that a message has, and what the
loop body of `wifi_perc` takes from it where it is laid out. -/

namespace SlStatus.Station
open CString Netlink Wifi AttributeLookup

/-- An attribute of a message, and the attributes inside it if it is a nest of them. -/
structure Item where
  nla : Attribute
  children : List Attribute
  nests : nla.type.toNat = NL80211_ATTR_STA_INFO → nla.padded = encodeAll children

/-- Attributes of which none is a nest of a station. -/
def plain (nlas : List Attribute) (others : ∀ nla ∈ nlas, nla.type.toNat ≠ NL80211_ATTR_STA_INFO) : List Item :=
  nlas.attach.map fun nla => ⟨nla.1, [], fun same => absurd same (others nla.1 nla.2)⟩

/-- A message of the reply. Behind its header comes a part of at most four bytes (the generic
netlink header, or the status of `NLMSG_DONE`), then the attributes. `uncounted` is how much
of the padding of the last one `nlmsg_len` leaves out. -/
structure Message where
  type : UInt16
  flags : UInt16
  seq : UInt32
  pid : UInt32
  fixed : List Byte
  items : List Item
  uncounted : Nat
  fixed_le : fixed.length ≤ 4
  fixed_eq : items ≠ [] → fixed.length = 4
  uncounted_le : uncounted ≤ (items.getLast?.elim 0 fun item => item.nla.padding)

namespace Message

def nlas (m : Message) : List Attribute := m.items.map Item.nla

/-- `nlmsg_len`. -/
def length (m : Message) : Nat := 16 + m.fixed.length + (encodeAll m.nlas).length - m.uncounted

def header (m : Message) : List Byte :=
  littleEndian 4 m.length ++ (littleEndian 2 m.type.toNat ++ (littleEndian 2 m.flags.toNat ++
    (littleEndian 4 m.seq.toNat ++ littleEndian 4 m.pid.toNat)))

def encode (m : Message) : List Byte :=
  m.header ++ (m.fixed ++ (encodeAll m.nlas ++ List.replicate (align m.fixed.length - m.fixed.length) 0))

theorem uncounted_lt (m : Message) : m.uncounted < 4 := by
  have le := m.uncounted_le
  cases last : m.items.getLast? with
  | none =>
    rw [last] at le
    exact Nat.lt_of_le_of_lt le (by decide)
  | some item =>
    rw [last] at le
    have small := align_lt item.nla.length
    have padding : item.nla.padding = align item.nla.length - item.nla.length := rfl
    change m.uncounted ≤ item.nla.padding at le
    omega

theorem length_header (m : Message) : m.header.length = 16 := by
  simp only [header, List.length_append, length_littleEndian]

/-- The message takes `nlmsg_len` bytes and the padding up to a multiple of four. -/
theorem length_encode (m : Message) : m.encode.length = align m.length := by
  have few := m.uncounted_lt
  have multiple := length_encodeAll_mod m.nlas
  have large := le_align m.fixed.length
  rw [encode, List.length_append, List.length_append, List.length_append, length_header, List.length_replicate,
    length]
  by_cases empty : m.items = []
  · have none : m.uncounted = 0 := by
      have le := m.uncounted_le
      rw [empty] at le
      exact Nat.le_zero.mp le
    have nothing : m.nlas = [] := by rw [nlas, empty]; rfl
    rw [nothing, none]
    simp only [encodeAll, List.flatMap_nil, List.length_nil]
    unfold align at *
    omega
  · rw [m.fixed_eq empty]
    unfold align at *
    omega

end Message

def isStation (item : Item) : Bool := item.nla.type.toNat = NL80211_ATTR_STA_INFO

def isAverage (nla : Attribute) : Bool := nla.type.toNat = NL80211_STA_INFO_SIGNAL_AVG

theorem padded_encodeAll (type : UInt16) (children : List Attribute) :
    Attribute.padded ⟨type, encodeAll children⟩ = encodeAll children := by
  have multiple := length_encodeAll_mod children
  have whole : align (4 + (encodeAll children).length) = 4 + (encodeAll children).length :=
    (align_eq_self_iff _).mpr (by omega)
  simp only [Attribute.padded, Attribute.padding, Attribute.length, whole, Nat.sub_self, List.replicate_zero,
    List.append_nil]

/-- The percentage of an attribute of length one. -/
def percentage (nla : Attribute) : Option Int :=
  match nla.payload with
  | [byte] => some (RSSI_TO_PERC byte.toInt8.toInt)
  | _ => none

namespace Message

def station (m : Message) : Option Item := m.items.find? isStation

/-- The attributes that follow `NL80211_ATTR_STA_INFO` in the message. -/
def behind (m : Message) : List Attribute := (m.items.dropWhile fun item => !isStation item).tail.map Item.nla

/-- The percentage of the average signal inside the message's `NL80211_ATTR_STA_INFO`. -/
def signal (m : Message) : Option Int :=
  m.station.bind fun item => (item.children.find? isAverage).bind percentage

/-- What the message loop takes from the message: its second search does not stop at the end
of the nest. -/
def heard (m : Message) : Option Int :=
  m.station.bind fun item => ((item.children ++ m.behind).find? isAverage).bind percentage

/-- The nest has no average signal, and of the attributes that follow it the first that has
the same number is of length one. -/
def Stray (m : Message) : Prop :=
  ∃ item ∈ m.station, (∀ child ∈ item.children, isAverage child = false) ∧
    ∃ nla ∈ m.behind.find? isAverage, nla.payload.length = 1

theorem station_of_split {m : Message} {front back : List Attribute} {nla : Attribute}
    (split : m.nlas = front ++ nla :: back) (others : ∀ other ∈ front, other.type.toNat ≠ NL80211_ATTR_STA_INFO)
    (found : nla.type.toNat = NL80211_ATTR_STA_INFO) :
    ∃ item, m.station = some item ∧ item.nla = nla ∧ m.behind = back := by
  obtain ⟨first, later, items, rfl, rest⟩ := List.map_eq_append_iff.mp split
  obtain ⟨item, last, rfl, same, rfl⟩ := List.map_eq_cons_iff.mp rest
  have passed : ∀ other ∈ first, isStation other = false := by
    intro other member
    simpa [isStation] using others other.nla (List.mem_map_of_mem member)
  have here : isStation item = true := by simp [isStation, same, found]
  refine ⟨item, ?_, same, ?_⟩
  · rw [station, items, List.find?_append, List.find?_eq_none.mpr (by simpa using passed)]
    simp [here]
  · rw [behind, items, List.dropWhile_append_of_pos (by simpa using passed)]
    simp [here]

theorem station_none {m : Message} (others : ∀ nla ∈ m.nlas, nla.type.toNat ≠ NL80211_ATTR_STA_INFO) :
    m.station = none := by
  refine List.find?_eq_none.mpr fun item member => ?_
  simpa [isStation] using others item.nla (List.mem_map_of_mem member)

end Message

/-- The byte that `*p` reads at the start of a payload of one byte. -/
theorem first_of_drop {byte : Byte} {bytes rest : List Byte} {p : Nat} (here : bytes.drop p = [byte] ++ rest) :
    bytes[p]? = some byte := by
  have first := congrArg (fun suffix => suffix[0]?) here
  simpa only [List.getElem?_drop, Nat.add_zero, List.cons_append, List.getElem?_cons_zero] using first

/-- The loop body on the attributes of one message, laid out from `p` on. -/
theorem signalAvg_of_attributes {m : Message} {bytes tail : List Byte} {p e steps : Nat}
    (here : bytes.drop (p + 20) = encodeAll m.nlas ++ tail) (short : bytes.length < 65536)
    (bound : e + m.uncounted = p + 20 + (encodeAll m.nlas).length) (enough : (encodeAll m.nlas).length ≤ steps) :
    signalAvg bytes steps p e = .ok m.heard := by
  have trimmed := m.uncounted_lt
  have start : p + NLMSG_HDRLEN + GENL_HDRLEN = p + 20 := Nat.add_assoc p 16 4
  unfold signalAvg
  rw [start]
  rcases findattr_encodeAll NL80211_ATTR_STA_INFO here (fits_of_short here short) trimmed bound
      ((length_le_encodeAll m.nlas).trans enough) with
    ⟨absent, others⟩ | ⟨front, nest, back, split, others, type, result⟩
  · simp only [absent, Message.heard, Message.station_none others, Option.bind_none]
  · obtain ⟨item, station, rfl, behind⟩ := Message.station_of_split split others type
    simp only [result, Message.heard, station, Option.bind_some, behind]
    -- the second search goes through the nest and on through what follows it
    rw [split, encodeAll_append, encodeAll_cons] at here bound enough
    rw [List.append_assoc, List.append_assoc] at here
    have inNest := drop_padded (drop_add_of_drop_eq here)
    have nest := item.nests type
    rw [nest, ← List.append_assoc, ← encodeAll_append] at inNest
    have size : item.nla.encode.length = 4 + (encodeAll item.children).length := by
      have large := le_align item.nla.length
      have header : item.nla.length = 4 + item.nla.payload.length := rfl
      rw [← nest, Attribute.length_encode, Attribute.length_padded]
      omega
    simp only [List.length_append, size] at bound enough
    have inner : e + m.uncounted =
        p + 20 + (encodeAll front).length + 4 + (encodeAll (item.children ++ back)).length := by
      rw [encodeAll_append, List.length_append]
      omega
    have fewer : (item.children ++ back).length ≤ steps := by
      apply (length_le_encodeAll _).trans
      rw [encodeAll_append, List.length_append]
      omega
    rcases findattr_encodeAll NL80211_STA_INFO_SIGNAL_AVG inNest (fits_of_short inNest short) trimmed inner fewer with
      ⟨absent, none⟩ | ⟨before, hit, after, found, earlier, average, second⟩
    · have missing : (item.children ++ back).find? isAverage = Option.none := find_attribute_none none
      simp only [absent, missing, Option.bind_none]
    · have first : (before ++ hit :: after).find? isAverage = some hit := find_attribute earlier average
      rw [found] at inNest
      obtain ⟨rest, atHit⟩ := drop_payload inNest
      simp only [second, found, first, Option.bind_some, percentage]
      cases payload : hit.payload with
      | nil => rfl
      | cons byte more =>
        cases more with
        | nil =>
          rw [payload] at atHit
          simp only [List.length_singleton, if_true, first_of_drop atHit]
        | cons => simp

namespace Message

theorem length_parts (m : Message) :
    m.encode.length = 16 + m.fixed.length + (encodeAll m.nlas).length + (align m.fixed.length - m.fixed.length) := by
  simp only [encode, List.length_append, length_header, List.length_replicate]
  omega

/-- What the header says where a message is laid out. -/
theorem read_header {m : Message} {bytes tail : List Byte} {p : Nat} (here : bytes.drop p = m.encode ++ tail)
    (short : bytes.length < 65536) :
    read 4 bytes p = some m.length ∧ read 2 bytes (p + 4) = some m.type.toNat := by
  have room := congrArg List.length here
  rw [List.length_drop, List.length_append, length_parts] at room
  have small : m.length ≤ 16 + m.fixed.length + (encodeAll m.nlas).length := Nat.sub_le _ _
  rw [encode, header, List.append_assoc, List.append_assoc] at here
  have type := drop_add_of_drop_eq here
  rw [length_littleEndian, List.append_assoc] at type
  exact ⟨read_littleEndian here (by omega) (by omega), read_littleEndian type (by omega) m.type.toNat_lt⟩

theorem drop_attributes {m : Message} {bytes tail : List Byte} {p : Nat} (here : bytes.drop p = m.encode ++ tail)
    (some : m.items ≠ []) : bytes.drop (p + 20) = encodeAll m.nlas ++ tail := by
  have front : (m.header ++ m.fixed).length = 20 := by rw [List.length_append, length_header, m.fixed_eq some]
  rw [encode, m.fixed_eq some, ← List.append_assoc, List.append_assoc] at here
  rw [← front, drop_add_of_drop_eq here]
  simp [align]

theorem nlas_of_short {m : Message} (few : ¬m.length > 20) : m.items = [] := by
  by_contra some
  have fixed := m.fixed_eq some
  have trimmed := m.uncounted_lt
  have count : 0 < m.nlas.length := by
    rw [nlas, List.length_map]
    exact List.length_pos_iff.mpr some
  obtain ⟨nla, nlas, split⟩ := List.exists_cons_of_length_pos count
  have large := le_align nla.length
  have header : nla.length = 4 + nla.payload.length := rfl
  unfold length at few
  rw [split, encodeAll_cons, List.length_append, Attribute.length_encode] at few
  omega

theorem heard_of_short {m : Message} (few : ¬m.length > 20) : m.heard = none := by
  rw [heard, station, nlas_of_short few]
  rfl

end Message

/-- One iteration of the message loop at a message that is laid out from `p` on. -/
theorem messageLoop_message {m : Message} {bytes tail : List Byte} {r p steps : Nat} (strength : Option Int)
    (here : bytes.drop p = m.encode ++ tail) (short : bytes.length < 65536) (inside : p + align m.length ≤ r)
    (enough : align m.length ≤ steps + 1) :
    messageLoop bytes r (steps + 1) p strength =
      let taken := if strength = none then m.heard else none
      if m.type.toNat = NLMSG_DONE then .ok ([⟨p, taken⟩], strength.or taken, true)
      else
        (messageLoop bytes r steps (p + m.length) (strength.or taken)).map fun rest =>
          (⟨p, taken⟩ :: rest.1, rest.2) := by
  obtain ⟨length, type⟩ := Message.read_header here short
  have large := le_align m.length
  have size := m.length_encode
  rw [Message.length_parts] at size
  have goes : p ≠ r ∧ r - p ≥ NLMSG_HDRLEN := by
    simp only [NLMSG_HDRLEN]
    omega
  have counted : ¬r - p < m.length := by omega
  have found : (if strength = none ∧ m.length > NLMSG_HDRLEN + GENL_HDRLEN then
      signalAvg bytes steps p (p + m.length) else .ok none) = .ok (if strength = none then m.heard else none) := by
    by_cases unset : strength = none
    · by_cases long : m.length > 20
      · have some : m.items ≠ [] := by
          intro empty
          rw [Message.length, Message.nlas, empty] at long
          have fixed := m.fixed_le
          simp [encodeAll] at long
          omega
        rw [if_pos ⟨unset, long⟩, if_pos unset]
        refine signalAvg_of_attributes (Message.drop_attributes here some) short ?_ (by omega)
        have fixed := m.fixed_eq some
        have few : m.uncounted ≤ 20 := by have := m.uncounted_lt; omega
        unfold Message.length
        omega
      · rw [if_neg fun both => long both.2, if_pos unset, Message.heard_of_short long]
    · rw [if_neg fun both => unset both.1, if_neg unset]
  simp only [messageLoop, if_pos goes, length, type, if_neg counted, found]

theorem Message.heard_of_signal {m : Message} {value : Int} (signal : m.signal = some value) :
    m.heard = some value := by
  unfold Message.signal at signal
  obtain ⟨item, station, inside⟩ := Option.bind_eq_some_iff.mp signal
  obtain ⟨nla, average, percent⟩ := Option.bind_eq_some_iff.mp inside
  rw [Message.heard, station, Option.bind_some, List.find?_append, average]
  exact percent

theorem percentage_isSome_iff (nla : Attribute) : (percentage nla).isSome = true ↔ nla.payload.length = 1 := by
  unfold percentage
  cases nla.payload with
  | nil => simp
  | cons byte bytes => cases bytes <;> simp

/-- A message without a signal of its own gives one only through a stray attribute. -/
theorem Message.heard_none_iff {m : Message} (silent : m.signal = none) : m.heard = none ↔ ¬m.Stray := by
  unfold Message.signal at silent
  unfold Message.heard Message.Stray
  cases station : m.station with
  | none => simp
  | some item =>
    rw [station, Option.bind_some] at silent
    rw [Option.bind_some, List.find?_append]
    cases average : item.children.find? isAverage with
    | some nla =>
      rw [average, Option.bind_some] at silent
      have child : ¬∀ child ∈ item.children, isAverage child = false := by
        intro none
        have hit := List.find?_some average
        rw [none nla (List.mem_of_find?_eq_some average)] at hit
        cases hit
      simp [silent, child]
    | none =>
      have others : ∀ child ∈ item.children, isAverage child = false := by simpa using average
      rw [Option.none_or]
      cases next : m.behind.find? isAverage with
      | none => simp
      | some nla =>
        have single := percentage_isSome_iff nla
        cases value : percentage nla <;> simp_all

end SlStatus.Station
