import SlStatus.AttributeWalk

/-! What `findattr` reads and what it returns, against the end of its range. That it reads
nothing behind `e` is said by cutting the buffer off there: no checked access fails then. -/

namespace SlStatus.AttributeBounds
open CString Netlink Wifi Walk AttributeWalk

theorem ofLittleEndian_lt (bytes : List Byte) : ofLittleEndian bytes < 256 ^ bytes.length := by
  induction bytes with
  | nil => exact Nat.one_pos
  | cons byte bytes ih =>
    have small := byte.toNat_lt
    rw [ofLittleEndian, List.length_cons, Nat.pow_succ]
    omega

theorem read_lt {width p n : Nat} {bytes : List Byte} (field : read width bytes p = some n) : n < 256 ^ width := by
  unfold Netlink.read at field
  split_ifs at field with inside
  cases field
  have length : ((bytes.drop p).take width).length = width := by
    rw [List.length_take, List.length_drop]
    omega
  have small := ofLittleEndian_lt ((bytes.drop p).take width)
  rwa [length] at small

theorem read_take {width e p : Nat} {bytes : List Byte} (inside : p + width ≤ e) (range : e ≤ bytes.length) :
    read width (bytes.take e) p = read width bytes p := by
  have front : p + width ≤ (bytes.take e).length := by
    rw [List.length_take]
    omega
  rw [Netlink.read, Netlink.read, if_pos front, if_pos (inside.trans range), List.drop_take, List.take_take,
    Nat.min_eq_left (by omega)]

theorem header_take {bytes : List Byte} {e p nla_len nla_type : Nat} (range : e ≤ bytes.length) :
    Header (bytes.take e) p nla_len nla_type ↔ p + 4 ≤ e ∧ Header bytes p nla_len nla_type := by
  have length : (bytes.take e).length = e := List.length_take_of_le range
  constructor
  · intro header
    have inside := header.inside
    rw [length] at inside
    rw [Header, read_take (by omega) range, read_take (by omega) range] at header
    exact ⟨inside, header⟩
  · rintro ⟨inside, header⟩
    rwa [Header, read_take (by omega) range, read_take (by omega) range]

/-- What does not fail on the bytes before `e` comes to the same on the whole buffer. -/
theorem findattr_take {attr : Nat} {bytes : List Byte} {e : Nat} (range : e ≤ bytes.length) (p steps : Nat)
    (inside : findattr attr (bytes.take e) steps p e ≠ .error .fault) :
    findattr attr bytes steps p e = findattr attr (bytes.take e) steps p e := by
  induction steps generalizing p with
  | zero => rfl
  | succ steps ih =>
    rcases passes_or_stops attr (bytes.take e) e p with ⟨q, move⟩ | ⟨result, stops⟩
    · rw [findattr_passes steps move] at inside ⊢
      obtain ⟨before, nla_len, nla_type, header, other, rfl⟩ := move
      have move : Passes attr bytes e p (p + align nla_len) :=
        ⟨before, nla_len, nla_type, ((header_take range).mp header).2, other, rfl⟩
      rw [findattr_passes steps move, ih _ inside]
    · rw [findattr_stops steps stops] at inside ⊢
      cases stops with
      | atEnd reached => exact findattr_stops steps (.atEnd reached)
      | found before header => exact findattr_stops steps (.found before ((header_take range).mp header).2)
      | fault => exact absurd rfl inside

/-- The search reads nothing behind `e`, and a payload that it returns lies in its range. -/
def Bounded (attr : Nat) (bytes : List Byte) (p e : Nat) : Prop :=
  (∀ steps, findattr attr (bytes.take e) steps p e ≠ .error .fault) ∧
    ∀ steps start len, findattr attr bytes steps p e = .ok (some (start, len)) →
      p ≤ start ∧ start ≤ e ∧ start + len ≤ e

/-- An attribute at which the walk arrives has its header before `e`, and if it is the one
looked for, a length that takes in its header and nothing behind `e`. -/
def Framed (attr : Nat) (bytes : List Byte) (e q : Nat) : Prop :=
  q + 4 ≤ e ∧ ∀ nla_len, Header bytes q nla_len attr → 4 ≤ nla_len ∧ q + nla_len ≤ e

theorem reaches_le {attr : Nat} {bytes : List Byte} {e p q : Nat} (walk : Reaches (Passes attr bytes e) p q) :
    p ≤ q := by
  apply walk.keeps (fun q => p ≤ q)
  · rintro q q' le ⟨-, nla_len, -, -, -, rfl⟩
    omega
  · exact Nat.le_refl p

theorem lengthOf_payload {nla_len : Nat} (small : nla_len < 2 ^ 64) :
    (nla_len + 2 ^ 64 - NLA_HDRLEN) % 2 ^ 64 = if 4 ≤ nla_len then nla_len - 4 else nla_len + 2 ^ 64 - 4 := by
  have size : NLA_HDRLEN = 4 := rfl
  split_ifs <;> omega

theorem findattr_bounded_iff {attr : Nat} {bytes : List Byte} {p e : Nat} (range : e ≤ bytes.length)
    (memory : bytes.length < 2 ^ 64) :
    Bounded attr bytes p e ↔
      ∀ q, Reaches (Passes attr (bytes.take e) e) p q → q < e → Framed attr bytes e q := by
  have length : (bytes.take e).length = e := List.length_take_of_le range
  have size : NLA_HDRLEN = 4 := rfl
  constructor
  · rintro ⟨inside, payload⟩ q walk before
    have front : q + 4 ≤ e := by
      by_contra beyond
      have short : (bytes.take e).length < q + NLA_HDRLEN := by omega
      obtain ⟨steps, fault⟩ := (findattr_iff (by simp)).mpr ⟨q, walk, .fault before short⟩
      exact inside steps fault
    refine ⟨front, fun nla_len header => ?_⟩
    have found := (header_take range).mpr ⟨front, header⟩
    obtain ⟨steps, result⟩ := (findattr_iff (by simp)).mpr ⟨q, walk, .found before found⟩
    rw [← findattr_take range p steps (inside steps)] at result
    obtain ⟨-, -, ends⟩ := payload steps _ _ result
    have small : nla_len < 256 ^ 2 := read_lt header.1
    rw [lengthOf_payload (by omega)] at ends
    split_ifs at ends <;> omega
  · intro framed
    have inside : ∀ steps, findattr attr (bytes.take e) steps p e ≠ .error .fault := by
      intro steps fault
      obtain ⟨q, walk, stops⟩ := (findattr_iff (by simp)).mp ⟨steps, fault⟩
      cases stops with
      | fault before beyond =>
        have front := (framed q walk before).1
        omega
    refine ⟨inside, fun steps start len result => ?_⟩
    rw [findattr_take range p steps (inside steps)] at result
    obtain ⟨q, walk, stops⟩ := (findattr_iff (by simp)).mp ⟨steps, result⟩
    have onward := reaches_le walk
    cases stops with
    | found before header =>
      obtain ⟨front, fits⟩ := framed q walk before
      obtain ⟨whole, ends⟩ := fits _ ((header_take range).mp header).2
      rw [lengthOf_payload (by omega), if_pos whole]
      omega

/-- `wifi_essid` behind its `recv`: where the string begins that it returns, and `resp`. -/
def essidIn (resp : List Byte) (steps r : Nat) : Except Stop (Option Nat × List Byte) :=
  if r ≤ NLMSG_HDRLEN + GENL_HDRLEN then .ok (none, resp)
  else
    match findattr NL80211_ATTR_SSID resp steps (NLMSG_HDRLEN + GENL_HDRLEN) r with
    | .error stop => .error stop
    | .ok none => .ok (none, resp)
    | .ok (some (p, len)) => if p + len < resp.length then .ok (some p, resp.set (p + len) 0) else .error .fault

/-- A call that receives a datagram goes on as `essidIn` does. -/
theorem wifiEssid_received {steps fam : Nat} {outside : Outside} {family : List Byte} {reply : List (List Byte)}
    {s known : Socket} {datagram : Datagram} {queue : List Datagram}
    (asked : nl80211fam steps outside family s = .ok (fam, known)) (named : fam ≠ 0) (found : outside.idx ≠ none)
    (sent : known.nlsock = true ∧ outside.sent = true) (received : outside.failure ≠ some 0)
    (waiting : ({ known with seq := known.seq + 1 }.answered known.seq fam reply).queue = datagram :: queue) :
    wifiEssid steps outside family reply s =
      (essidIn (receive known.resp datagram.bytes).1 steps (receive known.resp datagram.bytes).2).map fun essid =>
        ⟨known.seq, [datagram], false, essid.1.bind fun p => stringOf (essid.2.drop p),
          { ({ known with seq := known.seq + 1 }.answered known.seq fam reply) with queue, resp := essid.2 }⟩ := by
  have same : ({ known with seq := known.seq + 1 }.answered known.seq fam reply).resp = known.resp := by
    unfold Socket.answered
    split_ifs <;> rfl
  have stays : ¬(fam = 0 ∨ outside.idx = none) := fun either => either.elim named found
  have goes : ¬((!known.nlsock || !outside.sent) = true) := by simp [sent.1, sent.2]
  unfold wifiEssid essidIn
  simp only [asked, if_neg stays, if_neg goes, if_neg received, waiting, same]
  split_ifs
  · rfl
  · rcases findattr NL80211_ATTR_SSID (receive known.resp datagram.bytes).1 steps (NLMSG_HDRLEN + GENL_HDRLEN)
        (receive known.resp datagram.bytes).2 with stop | payload
    · rfl
    · rcases payload with _ | ⟨p, len⟩
      · rfl
      · dsimp only
        split_ifs <;> rfl

/-- The terminator lands inside `resp` and leaves the bytes before the end of the SSID. -/
def Terminated (resp : List Byte) (r : Nat) : Prop :=
  ∀ steps p len, findattr NL80211_ATTR_SSID resp steps (NLMSG_HDRLEN + GENL_HDRLEN) r = .ok (some (p, len)) →
    ∃ after, essidIn resp steps r = .ok (some p, after) ∧ ∀ i < p + len, after[i]? = resp[i]?

/-- An SSID at which the walk arrives has a length that takes in its header, and a byte of
`resp` behind it. -/
def Followed (resp : List Byte) (q : Nat) : Prop :=
  ∀ nla_len, Header resp q nla_len NL80211_ATTR_SSID → 4 ≤ nla_len ∧ q + nla_len < resp.length

theorem terminated_iff {resp : List Byte} {r : Nat} (memory : resp.length < 2 ^ 64) :
    Terminated resp r ↔
      ∀ q, Reaches (Passes NL80211_ATTR_SSID resp r) (NLMSG_HDRLEN + GENL_HDRLEN) q → q < r → Followed resp q := by
  have size : NLA_HDRLEN = 4 := rfl
  constructor
  · intro terminated q walk before nla_len header
    have inside := header.inside
    obtain ⟨steps, result⟩ := (findattr_iff (by simp)).mpr ⟨q, walk, .found before header⟩
    obtain ⟨after, essid, -⟩ := terminated steps _ _ result
    have small : nla_len < 256 ^ 2 := read_lt header.1
    have long : ¬r ≤ NLMSG_HDRLEN + GENL_HDRLEN := Nat.not_le.mpr ((reaches_le walk).trans_lt before)
    rw [essidIn, if_neg long, result] at essid
    dsimp only at essid
    rw [lengthOf_payload (by omega)] at essid
    split_ifs at essid <;> omega
  · intro followed steps p len result
    obtain ⟨q, walk, stops⟩ := (findattr_iff (by simp)).mp ⟨steps, result⟩
    cases stops with
    | @found nla_len before header =>
      obtain ⟨whole, room⟩ := followed q walk before _ header
      have long : ¬r ≤ NLMSG_HDRLEN + GENL_HDRLEN := Nat.not_le.mpr ((reaches_le walk).trans_lt before)
      rw [lengthOf_payload (by omega), if_pos whole] at result ⊢
      refine ⟨resp.set (q + NLA_HDRLEN + (nla_len - 4)) 0, ?_, fun i small => List.getElem?_set_ne (by omega)⟩
      rw [essidIn, if_neg long, result]
      dsimp only
      rw [if_pos (by omega)]

/-- Both bounds, each with the condition on the attribute headers under which it holds. -/
theorem bounds_iff {bytes : List Byte} (memory : bytes.length < 2 ^ 64) :
    (∀ attr p e, e ≤ bytes.length →
      (Bounded attr bytes p e ↔
        ∀ q, Reaches (Passes attr (bytes.take e) e) p q → q < e → Framed attr bytes e q)) ∧
    ∀ r, Terminated bytes r ↔
      ∀ q, Reaches (Passes NL80211_ATTR_SSID bytes r) (NLMSG_HDRLEN + GENL_HDRLEN) q → q < r → Followed bytes q := by
  constructor
  · intro attr p e range
    exact findattr_bounded_iff range memory
  · intro r
    exact terminated_iff memory

theorem eq_of_reaches {attr : Nat} {bytes : List Byte} {e p q nla_len : Nat} (header : Header bytes p nla_len attr)
    (walk : Reaches (Passes attr bytes e) p q) : q = p := by
  rcases walk.cases_head with same | ⟨next, ⟨-, otherLen, nla_type, read, other, -⟩, -⟩
  · exact same.symm
  · exact absurd (read.unique header).2 other

section Example

/-- A message with the SSID of two letters, as `resp` holds it behind its first 20 bytes. -/
def answer : List Byte := List.replicate 20 0 ++ [6, 0, 52, 0, 0x41, 0x42, 0, 0]

theorem answer_header : Header answer 20 6 NL80211_ATTR_SSID := ⟨by decide, by decide⟩

theorem answer_bounded : Bounded NL80211_ATTR_SSID answer 20 28 ∧ Terminated answer 28 := by
  constructor
  · apply ((bounds_iff (by decide)).1 NL80211_ATTR_SSID 20 28 (by decide)).mpr
    intro q walk _
    obtain rfl := eq_of_reaches ((header_take (by decide)).mpr ⟨by decide, answer_header⟩) walk
    refine ⟨by decide, fun nla_len header => ?_⟩
    rw [(header.unique answer_header).1]
    decide
  · apply ((bounds_iff (by decide)).2 28).mpr
    intro q walk _ nla_len header
    obtain rfl := eq_of_reaches answer_header walk
    rw [(header.unique answer_header).1]
    decide

/-- A datagram that the SSID fills to the end if it has 4072 letters. -/
def filled (letters : List Byte) : List Byte := List.replicate 20 0 ++ ([0xEC, 0x0F] ++ ([52, 0] ++ letters))

theorem filled_unterminated {letters : List Byte} (many : letters.length = 4072) :
    ¬Terminated (filled letters) 4096 := by
  have memory : (filled letters).length = 4096 := by
    simp only [filled, List.length_append, List.length_replicate, List.length_cons, List.length_nil, many]
  have here : (filled letters).drop 20 = [0xEC, 0x0F] ++ ([52, 0] ++ letters) := List.drop_left' List.length_replicate
  have header : Header (filled letters) 20 4076 NL80211_ATTR_SSID :=
    ⟨read_front here (by omega), read_front (drop_add_of_drop_eq here) (by change 20 + 2 ≤ _; omega)⟩
  intro terminated
  have followed := (terminated_iff (by omega)).mp terminated 20 .refl (by decide) 4076 header
  omega

/-- One byte behind the last attribute is read as a header; a length that the kernel would not
send leads the payload past the end, or before its own beginning; and the terminator of an SSID
that ends with the buffer is written behind it. -/
theorem bounds_broken :
    ¬Bounded NL80211_ATTR_SSID (List.replicate 21 0) 20 21 ∧
      ¬Bounded NL80211_ATTR_SSID (List.replicate 20 0 ++ [100, 0, 52, 0]) 20 24 ∧
      ¬Bounded NL80211_ATTR_SSID (List.replicate 20 0 ++ [0, 0, 52, 0]) 20 24 ∧
      ¬Terminated (filled (List.replicate 4072 0x41)) 4096 := by
  refine ⟨fun bounded => ?_, fun bounded => ?_, fun bounded => ?_, fun terminated => ?_⟩
  · exact bounded.1 1 (by decide)
  · exact absurd (bounded.2 1 24 96 (by decide)) (by decide)
  · exact absurd (bounded.2 1 24 (2 ^ 64 - 4) (by decide)) (by decide)
  · exact filled_unterminated List.length_replicate terminated

end Example

end SlStatus.AttributeBounds
