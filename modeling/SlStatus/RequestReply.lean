import SlStatus.Runs
import SlStatus.StationDump

/-! The calls of `wifi_essid` and `wifi_perc` share one socket. A call that leaves part of the
reply to its request there hands it to the next one, and a call that expects more than the
kernel sends waits in `recv`. -/

namespace SlStatus.RequestReply
open CString Netlink Wifi AttributeLookup Station StationDump Runs

def NLMSG_ERROR : Nat := 2

/-- A message alone in a datagram that fits `resp`. -/
structure Answer where
  message : Message
  fits : message.encode.length ≤ 4096

/-- What the kernel answers to a dump. -/
inductive Dump where
  | stations (reply : List (List Message)) (wellFormed : WellFormed reply)
  | error (answer : Answer) (refused : answer.message.type.toNat = NLMSG_ERROR)

def Dump.messages : Dump → List (List Message)
  | .stations reply _ => reply
  | .error answer _ => [[answer.message]]

inductive Asked where
  | essid (answer : Answer)
  | perc (dump : Dump)

/-- A call of one of the two functions, with what the kernel answers should it be asked. -/
structure Call where
  outside : Outside
  family : Answer
  asked : Asked

def isSsid (nla : Attribute) : Bool := nla.type.toNat = NL80211_ATTR_SSID

/-- The name that a message gives. -/
def ssid (m : Message) : Option (List Byte) :=
  (m.nlas.find? isSsid).map fun nla => nla.payload.takeWhile fun byte => byte ≠ 0

/-- The percentage that a reply to the dump gives. -/
def Dump.strength : Dump → Option Int
  | .stations reply _ => reply.flatten.findSome? Message.heard
  | .error _ _ => none

/-- A call never called `recv` on an empty socket, and a value that it returned is the one of
its own reply, all datagrams that it took being of that reply. -/
def Answered {Value : Type} (own : Option Value) : Except Stop (Returned Value) → Prop
  | .error stop => stop ≠ .blocked
  | .ok returned =>
      returned.waited = false ∧ ∀ value, returned.result = some value →
        own = some value ∧ ∀ datagram ∈ returned.taken, datagram.request = returned.request

def left {Value : Type} : Except Stop (Returned Value) → Option Socket
  | .error _ => none
  | .ok returned => some returned.socket

def Call.essid (call : Call) (steps : Nat) (answer : Answer) (s : Socket) : Except Stop (Returned (List Byte)) :=
  wifiEssid steps call.outside call.family.message.encode [answer.message.encode] s

def Call.perc (call : Call) (steps : Nat) (dump : Dump) (s : Socket) : Except Stop (Returned Int) :=
  wifiPerc steps call.outside call.family.message.encode (dump.messages.map encodeMessages) s

/-- A call that does not return is the last one. -/
def step (steps : Nat) (s : Socket) (call : Call) : Option Socket :=
  match call.asked with
  | .essid answer => left (call.essid steps answer s)
  | .perc dump => left (call.perc steps dump s)

def Disciplined (steps : Nat) (s : Socket) (call : Call) : Prop :=
  match call.asked with
  | .essid answer => Answered (ssid answer.message) (call.essid steps answer s)
  | .perc dump => Answered dump.strength (call.perc steps dump s)

/-- The id in the answer of the controller, whose first attribute is the name of the family. -/
def familyId (m : Message) : Option Nat :=
  match m.nlas with
  | [] => none
  | name :: nlas =>
      if align name.length = 12 then
        (nlas.find? fun nla => nla.type.toNat = CTRL_ATTR_FAMILY_ID).bind fun nla =>
          if nla.payload.length = 2 then some (ofLittleEndian nla.payload) else none
      else none

/-- The request of a call of `wifi_perc` is sent. -/
def Asks (s : Socket) (call : Call) : Prop :=
  (s.nlsock || call.outside.opens) = true ∧ call.outside.sent = true ∧ call.outside.idx ≠ none

/-- The id of the family is known, or the controller tells it. -/
def Known (s : Socket) (call : Call) : Prop :=
  s.id ≠ 0 ∨ call.outside.familySent = true ∧ ∃ id ≠ 0, familyId call.family.message = some id

/-- The dump is not refused, and its messages are laid out as the message loop expects. -/
def Dump.Complete : Dump → Prop
  | .stations reply _ => ∀ messages ∈ reply, Aligned messages
  | .error _ _ => False

/-- No `recv` of the call fails, and a dump that it asks for is answered to the end. -/
def Orderly (s : Socket) (call : Call) : Prop :=
  call.outside.familyReceived = true ∧ call.outside.failure = none ∧
    match call.asked with
    | .essid _ => True
    | .perc dump => Asks s call → Known s call ∧ dump.Complete

/-- Between two calls nothing is left on the socket. -/
structure Idle (s : Socket) : Prop where
  empty : s.queue = []
  room : s.resp.length = 4096
  opened : s.id ≠ 0 → s.nlsock = true

/-- The test in front of a `send` that is not made or fails. -/
theorem unsent {opened sent : Bool} (fails : ¬(opened = true ∧ sent = true)) : (!opened || !sent) = true := by
  simpa [Decidable.imp_iff_not_or] using fails

theorem findattr_not_blocked (attr : Nat) (bytes : List Byte) (steps p e : Nat) :
    findattr attr bytes steps p e ≠ .error .blocked := by
  induction steps generalizing p with
  | zero =>
    unfold findattr
    split_ifs <;> simp
  | succ steps ih =>
    unfold findattr
    split_ifs
    · cases read 2 bytes p with
      | none => simp
      | some nla_len =>
        cases read 2 bytes (p + 2) with
        | none => simp
        | some nla_type =>
          dsimp only
          split_ifs
          · simp
          · apply ih
    · simp

/-- A datagram that is taken into `resp` lies at its front. -/
theorem answer_at (answer : Answer) {resp : List Byte} (room : resp.length = 4096) :
    receive resp answer.message.encode =
      (answer.message.encode ++ resp.drop answer.message.encode.length, answer.message.encode.length) :=
  receive_fits (answer.fits.trans_eq room.symm)

theorem short_answer {m : Message} (few : m.encode.length ≤ 20) : ssid m = none := by
  have small : ¬m.length > 20 := by
    have large := le_align m.length
    rw [m.length_encode] at few
    omega
  rw [ssid, Message.nlas, Message.nlas_of_short small]
  rfl

theorem attributes_at {m : Message} {bytes tail : List Byte} {p : Nat} (here : bytes.drop p = m.encode ++ tail)
    (long : 20 < m.encode.length) :
    bytes.drop (p + 20) = encodeAll m.nlas ++ tail ∧ m.encode.length = 20 + (encodeAll m.nlas).length := by
  have parts := m.length_parts
  have some : m.items ≠ [] := by
    intro empty
    have fixed := m.fixed_le
    have padded := align_lt m.fixed.length
    rw [Message.nlas, empty] at parts
    simp only [List.map_nil, encodeAll, List.flatMap_nil, List.length_nil] at parts
    unfold align at parts padded
    omega
  refine ⟨Message.drop_attributes here some, ?_⟩
  rw [parts, m.fixed_eq some]
  simp [align]

/-- What `wifi_essid` does with a datagram of one message. -/
theorem ssid_found {answer : Answer} {resp bytes : List Byte} {steps : Nat} (room : resp.length = 4096)
    (arrived : bytes = answer.message.encode ++ resp.drop answer.message.encode.length)
    (enough : 4096 ≤ steps) (long : 20 < answer.message.encode.length) :
    findattr NL80211_ATTR_SSID bytes steps 20 answer.message.encode.length = .ok none ∧ ssid answer.message = none ∨
      ∃ p len, findattr NL80211_ATTR_SSID bytes steps 20 answer.message.encode.length = .ok (some (p, len)) ∧
        p + len ≤ answer.message.encode.length ∧
        (p + len < bytes.length → stringOf ((bytes.set (p + len) 0).drop p) = ssid answer.message) := by
  have fits := answer.fits
  have whole : bytes.length = 4096 := by
    rw [arrived, List.length_append, List.length_drop, room]
    omega
  have laid : bytes.drop 0 = answer.message.encode ++ resp.drop answer.message.encode.length := arrived
  obtain ⟨here, size⟩ := attributes_at laid long
  rw [Nat.zero_add] at here
  have few : answer.message.nlas.length ≤ steps := by
    have count := length_le_encodeAll answer.message.nlas
    omega
  have bound : answer.message.encode.length + 0 = 20 + (encodeAll answer.message.nlas).length := size
  rcases findattr_encodeAll NL80211_ATTR_SSID here (fits_of_short here (by omega)) (by decide) bound few with
    ⟨absent, others⟩ | ⟨front, nla, back, split, others, type, found⟩
  · left
    refine ⟨absent, ?_⟩
    rw [ssid, show answer.message.nlas.find? isSsid = none from find_attribute_none others]
    rfl
  · right
    have name : ssid answer.message = some (nla.payload.takeWhile fun byte => byte ≠ 0) := by
      rw [ssid, split, show (front ++ nla :: back).find? isSsid = some nla from find_attribute others type]
      rfl
    rw [split] at here size
    obtain ⟨rest, payload⟩ := drop_payload here
    refine ⟨_, _, found, ?_, fun inside => ?_⟩
    · have large := le_align nla.length
      have header : nla.length = 4 + nla.payload.length := rfl
      rw [encodeAll_append, encodeAll_cons, List.length_append, List.length_append, Attribute.length_encode] at size
      omega
    · have more : rest ≠ [] := by
        intro empty
        have length := congrArg List.length payload
        rw [empty, List.append_nil, List.length_drop] at length
        omega
      obtain ⟨byte, rest, rfl⟩ := List.exists_cons_of_ne_nil more
      rw [name, List.drop_set, if_neg (by omega), payload, Nat.add_sub_cancel_left,
        List.set_append_right _ _ (le_refl _), Nat.sub_self, List.set_cons_zero]
      exact stringOf_terminated nla.payload rest

/-- `nl80211fam` once its request is sent on an idle socket. -/
theorem nl80211fam_asked {steps : Nat} {outside : Outside} {family : List Byte} {s : Socket} (idle : Idle s)
    (received : outside.familyReceived = true) (unknown : s.id = 0) (opened : (s.nlsock || outside.opens) = true)
    (sent : outside.familySent = true) :
    nl80211fam steps outside family s =
      (familyIn (receive s.resp family).1 steps (receive s.resp family).2).map fun found =>
        (found.getD 0, ⟨true, s.seq + 1, found.getD 0, [], (receive s.resp family).1⟩) := by
  simp only [nl80211fam, unknown, opened, sent, received, Socket.answered, GENL_ID_CTRL, idle.empty, List.nil_append,
    List.map_cons, List.map_nil, ne_eq, not_true_eq_false, if_false, Bool.not_true, Bool.or_self, Bool.false_eq_true,
    OfNat.ofNat_ne_zero]

theorem familyIn_not_blocked (resp : List Byte) (steps r : Nat) : familyIn resp steps r ≠ .error .blocked := by
  unfold familyIn
  split_ifs
  · exact nofun
  · split
    · rename_i stop found
      intro same
      cases same
      exact findattr_not_blocked _ _ _ _ _ found
    · exact nofun
    · split_ifs
      · split <;> exact nofun
      · exact nofun

/-- `nl80211fam` never waits on an idle socket, and leaves it idle. -/
theorem nl80211fam_idle {steps : Nat} {outside : Outside} {family : List Byte} {s : Socket} (idle : Idle s)
    (received : outside.familyReceived = true) :
    (∃ stop, stop ≠ .blocked ∧ nl80211fam steps outside family s = .error stop) ∨
      ∃ fam s', nl80211fam steps outside family s = .ok (fam, s') ∧ Idle s' ∧ (fam ≠ 0 → s'.nlsock = true) ∧
        (s'.nlsock = true → (s.nlsock || outside.opens) = true) := by
  by_cases known : s.id ≠ 0
  · right
    refine ⟨s.id, s, by rw [nl80211fam, if_pos known], idle, fun _ => idle.opened known, fun opened => ?_⟩
    rw [opened, Bool.true_or]
  · have unknown : s.id = 0 := not_not.mp known
    by_cases goes : (s.nlsock || outside.opens) = true ∧ outside.familySent = true
    · have room : (receive s.resp family).1.length = 4096 := (length_receive s.resp family).trans idle.room
      have waits := familyIn_not_blocked (receive s.resp family).1 steps (receive s.resp family).2
      rw [nl80211fam_asked idle received unknown goes.1 goes.2]
      cases found : familyIn (receive s.resp family).1 steps (receive s.resp family).2 with
      | error stop =>
        left
        refine ⟨stop, fun blocked => ?_, rfl⟩
        rw [blocked] at found
        exact waits found
      | ok id =>
        right
        exact ⟨_, _, rfl, ⟨rfl, room, fun _ => rfl⟩, fun _ => rfl, fun _ => goes.1⟩
    · right
      simp only [nl80211fam, if_neg known, unsent goes, if_true]
      exact ⟨_, _, rfl, ⟨idle.empty, idle.room, fun id => absurd unknown id⟩, nofun, id⟩

/-- The id that the controller tells is the one that `nl80211fam` copies. -/
theorem family_found {family : Answer} {resp : List Byte} {steps id : Nat} (room : resp.length = 4096)
    (enough : 4096 ≤ steps) (told : familyId family.message = some id) :
    familyIn (receive resp family.message.encode).1 steps (receive resp family.message.encode).2 = .ok (some id) := by
  have fits := family.fits
  rw [answer_at family room]
  dsimp only
  have whole : (family.message.encode ++ resp.drop family.message.encode.length).length = 4096 := by
    rw [List.length_append, List.length_drop, room]
    omega
  unfold familyId at told
  cases split : family.message.nlas with
  | nil =>
    rw [split] at told
    cases told
  | cons name nlas =>
    rw [split] at told
    simp only at told
    split_ifs at told with twelve
    obtain ⟨nla, hit, value⟩ := Option.bind_eq_some_iff.mp told
    split_ifs at value with two
    have long : 20 < family.message.encode.length := by
      have parts := family.message.length_parts
      rw [split, encodeAll_cons, List.length_append, Attribute.length_encode, twelve] at parts
      omega
    have laid : (family.message.encode ++ resp.drop family.message.encode.length).drop 0 =
        family.message.encode ++ resp.drop family.message.encode.length := rfl
    obtain ⟨here, size⟩ := attributes_at laid long
    rw [split, encodeAll_cons, List.append_assoc] at here
    have behind := drop_add_of_drop_eq here
    rw [Attribute.length_encode, twelve] at behind
    rw [split, encodeAll_cons, List.length_append, Attribute.length_encode, twelve] at size
    have few : nlas.length ≤ steps := by
      have count := length_le_encodeAll nlas
      omega
    have bound : family.message.encode.length + 0 = 32 + (encodeAll nlas).length := by omega
    rcases findattr_encodeAll CTRL_ATTR_FAMILY_ID behind (fits_of_short behind (by omega)) (by decide) bound few with
      ⟨-, others⟩ | ⟨front, other, back, rfl, others, type, found⟩
    · rw [find_attribute_none others] at hit
      cases hit
    · rw [find_attribute others type] at hit
      cases hit
      obtain ⟨rest, payload⟩ := drop_payload behind
      have inside : 32 + (encodeAll front).length + 6 ≤ family.message.encode.length := by
        rw [encodeAll_append, encodeAll_cons, List.length_append, List.length_append,
          Attribute.length_encode] at bound
        have large := le_align nla.length
        have header : nla.length = 4 + nla.payload.length := rfl
        omega
      have copied := read_front payload (by omega)
      have longer : ¬family.message.encode.length ≤ sizeofCtrl := by
        have ctrl : sizeofCtrl = 32 := rfl
        omega
      have start : sizeofCtrl = 0 + 20 + 12 := rfl
      rw [two] at copied found
      rw [familyIn, if_neg longer, start, found]
      simp only [if_true, copied]
      exact congrArg _ value

theorem fam_ne_zero {steps : Nat} {s s' : Socket} {call : Call} {fam : Nat} (idle : Idle s) (enough : 4096 ≤ steps)
    (received : call.outside.familyReceived = true) (opened : (s.nlsock || call.outside.opens) = true)
    (known : Known s call)
    (ran : nl80211fam steps call.outside call.family.message.encode s = .ok (fam, s')) : fam ≠ 0 := by
  by_cases cached : s.id ≠ 0
  · rw [nl80211fam, if_pos cached] at ran
    cases ran
    exact cached
  · obtain ⟨sent, id, positive, told⟩ := known.resolve_left cached
    rw [nl80211fam_asked idle received (not_not.mp cached) opened sent,
      family_found idle.room enough told] at ran
    cases ran
    exact positive

/-- `wifi_essid` returns the name in the first datagram on the socket, whichever that is. -/
theorem essid_first {steps request : Nat} {call : Call} {first s : Socket} {fam : Nat} {answer taken : Answer}
    {queue : List Datagram} (enough : 4096 ≤ steps) (room : s.resp.length = 4096)
    (ran : nl80211fam steps call.outside call.family.message.encode first = .ok (fam, s)) (known : fam ≠ 0)
    (opened : s.nlsock = true) (named : call.outside.idx ≠ none) (sent : call.outside.sent = true)
    (received : call.outside.failure = none)
    (pending : s.queue ++ [⟨s.seq, answer.message.encode⟩] = ⟨request, taken.message.encode⟩ :: queue) :
    taken.message.encode.length = 4096 ∧ call.essid steps answer first = .error .fault ∨
      ∃ resp, resp.length = 4096 ∧ call.essid steps answer first =
        .ok ⟨s.seq, [⟨request, taken.message.encode⟩], false, ssid taken.message,
          ⟨true, s.seq + 1, s.id, queue, resp⟩⟩ := by
  have kept := (length_receive s.resp taken.message.encode).trans room
  have asked : ¬(fam = 0 ∨ call.outside.idx = none) := not_or.mpr ⟨known, named⟩
  have whole := answer_at taken room
  have header : NLMSG_HDRLEN + GENL_HDRLEN = 20 := rfl
  have unfailing : ¬(none : Option Nat) = some 0 := nofun
  unfold Call.essid wifiEssid
  simp only [ran, if_neg asked, opened, sent, Bool.not_true, Bool.or_self, Bool.false_eq_true, if_false,
    Socket.answered, if_neg known, received, unfailing, List.map_cons, List.map_nil, pending, header]
  rw [whole] at kept ⊢
  dsimp only at kept ⊢
  by_cases few : taken.message.encode.length ≤ 20
  · right
    rw [if_pos few, short_answer few]
    exact ⟨_, kept, rfl⟩
  · rw [if_neg few]
    rcases ssid_found room rfl enough (Nat.not_le.mp few) with ⟨absent, none⟩ | ⟨p, len, found, inside, name⟩
    · right
      rw [absent, none]
      exact ⟨_, kept, rfl⟩
    · rw [found]
      dsimp only
      by_cases fits : p + len < (taken.message.encode ++ s.resp.drop taken.message.encode.length).length
      · right
        rw [if_pos fits, name fits]
        refine ⟨_, ?_, rfl⟩
        rw [List.length_set, kept]
      · left
        have room := taken.fits
        rw [if_neg fits]
        exact ⟨by omega, rfl⟩

/-- A call is answered, and leaves the socket idle if it returns. -/
def Clean {Value : Type} (own : Option Value) (outcome : Except Stop (Returned Value)) : Prop :=
  Answered own outcome ∧ ∀ s', left outcome = some s' → Idle s'

theorem clean_stop {Value : Type} (own : Option Value) {stop : Stop} (returns : stop ≠ .blocked) :
    Clean own (.error stop) := ⟨returns, nofun⟩

/-- A call that returns before it has asked anything. -/
theorem clean_null {Value : Type} (own : Option Value) {s : Socket} (idle : Idle s) (seq : Nat) :
    Clean own (.ok (.null { s with seq })) := by
  refine ⟨⟨rfl, nofun⟩, fun s' same => ?_⟩
  cases same
  exact ⟨idle.empty, idle.room, idle.opened⟩

/-- A call that takes its own reply and nothing else. -/
theorem clean_own {Value : Type} {own : Option Value} {returned : Returned Value} (result : returned.result = own)
    (waits : returned.waited = false) (taken : ∀ datagram ∈ returned.taken, datagram.request = returned.request)
    (idle : Idle returned.socket) : Clean own (.ok returned) := by
  refine ⟨⟨waits, fun value some => ⟨result.symm.trans some, taken⟩⟩, fun s' same => ?_⟩
  cases same
  exact idle

theorem essid_clean {steps : Nat} {call : Call} {answer : Answer} {s : Socket} (idle : Idle s)
    (enough : 4096 ≤ steps) (received : call.outside.familyReceived = true)
    (unfailing : call.outside.failure = none) : Clean (ssid answer.message) (call.essid steps answer s) := by
  rcases nl80211fam_idle idle received with ⟨stop, returns, ran⟩ | ⟨fam, s₁, ran, idle₁, opened, -⟩
  · have stopped : call.essid steps answer s = .error stop := by
      unfold Call.essid wifiEssid
      rw [ran]
    rw [stopped]
    exact clean_stop _ returns
  · by_cases asks : fam ≠ 0 ∧ call.outside.idx ≠ none ∧ call.outside.sent = true
    · obtain ⟨known, named, sent⟩ := asks
      have pending : s₁.queue ++ [⟨s₁.seq, answer.message.encode⟩] = [⟨s₁.seq, answer.message.encode⟩] := by
        rw [idle₁.empty, List.nil_append]
      rcases essid_first enough idle₁.room ran known (opened known) named sent unfailing pending with
        ⟨-, fault⟩ | ⟨resp, room, returned⟩
      · rw [fault]
        exact clean_stop _ nofun
      · rw [returned]
        exact clean_own rfl rfl (List.forall_mem_singleton.mpr rfl) ⟨rfl, room, fun _ => rfl⟩
    · have quiet : ∃ seq, call.essid steps answer s = .ok (.null { s₁ with seq }) := by
        unfold Call.essid wifiEssid
        rw [ran]
        by_cases early : fam = 0 ∨ call.outside.idx = none
        · simp only [if_pos early]
          exact ⟨_, rfl⟩
        · obtain ⟨known, named⟩ := not_or.mp early
          have fails : ¬(s₁.nlsock = true ∧ call.outside.sent = true) := fun both => asks ⟨known, named, both.2⟩
          simp only [if_neg early, unsent fails, if_true]
          exact ⟨_, rfl⟩
      obtain ⟨seq, quiet⟩ := quiet
      rw [quiet]
      exact clean_null _ idle₁ seq

theorem perc_clean {steps : Nat} {call : Call} {dump : Dump} {s : Socket} (idle : Idle s) (enough : 4096 ≤ steps)
    (received : call.outside.familyReceived = true) (unfailing : call.outside.failure = none)
    (answered : Asks s call → Known s call ∧ dump.Complete) : Clean dump.strength (call.perc steps dump s) := by
  rcases nl80211fam_idle idle received with ⟨stop, returns, ran⟩ | ⟨fam, s₁, ran, idle₁, -, opens⟩
  · have stopped : call.perc steps dump s = .error stop := by
      unfold Call.perc wifiPerc
      rw [ran]
    rw [stopped]
    exact clean_stop _ returns
  · by_cases asks : call.outside.idx ≠ none ∧ s₁.nlsock = true ∧ call.outside.sent = true
    · obtain ⟨named, opened, sent⟩ := asks
      obtain ⟨known, complete⟩ := answered ⟨opens opened, sent, named⟩
      have positive := fam_ne_zero idle enough received (opens opened) known ran
      cases dump with
      | error => exact complete.elim
      | stations reply wellFormed =>
        obtain ⟨resp, room, walked⟩ :=
          strengthLoop_aligned s₁.seq none [] wellFormed.ne_nil wellFormed idle₁.room enough complete
        have queued : (reply.map encodeMessages).map (fun bytes => ⟨s₁.seq, bytes⟩) = datagrams s₁.seq reply := by
          rw [List.map_map]
          rfl
        rw [List.append_nil] at walked
        have returned : call.perc steps (.stations reply wellFormed) s =
            .ok ⟨s₁.seq, datagrams s₁.seq reply, false, strengthAfter Message.heard none reply.flatten,
              ⟨true, s₁.seq + 1, s₁.id, [], resp⟩⟩ := by
          unfold Call.perc wifiPerc
          simp only [ran, if_neg named, opened, sent, Bool.not_true, Bool.or_self, Bool.false_eq_true, if_false,
            Socket.answered, if_neg positive, idle₁.empty, List.nil_append, unfailing, Dump.messages, queued, walked,
            Except.map]
        rw [returned]
        apply clean_own
        · rw [strengthAfter, Option.none_or, Dump.strength]
        · rfl
        · intro datagram member
          obtain ⟨messages, -, rfl⟩ := List.mem_map.mp member
          rfl
        · exact ⟨rfl, room, fun _ => rfl⟩
    · have quiet : ∃ seq, call.perc steps dump s = .ok (.null { s₁ with seq }) := by
        unfold Call.perc wifiPerc
        rw [ran]
        by_cases early : call.outside.idx = none
        · simp only [if_pos early]
          exact ⟨_, rfl⟩
        · have fails : ¬(s₁.nlsock = true ∧ call.outside.sent = true) := fun both => asks ⟨early, both⟩
          simp only [if_neg early, unsent fails, if_true]
          exact ⟨_, rfl⟩
      obtain ⟨seq, quiet⟩ := quiet
      rw [quiet]
      exact clean_null _ idle₁ seq

theorem idle_unopened : Idle Socket.unopened := ⟨rfl, List.length_replicate, fun id => absurd rfl id⟩

/-- An orderly call on an idle socket is answered by its own reply and leaves the socket idle. -/
theorem step_idle {steps : Nat} {s : Socket} {call : Call} (enough : 4096 ≤ steps) (idle : Idle s)
    (orderly : Orderly s call) : Disciplined steps s call ∧ ∀ s', step steps s call = some s' → Idle s' := by
  obtain ⟨received, unfailing, answered⟩ := orderly
  unfold Disciplined step
  cases asked : call.asked with
  | essid answer => exact essid_clean idle enough received unfailing
  | perc dump =>
    rw [asked] at answered
    exact perc_clean idle enough received unfailing answered

/-- In every run of orderly calls, each call returns only what the reply to its own request
gives, and none waits for more than that. -/
theorem disciplined_of_orderly {steps : Nat} {past : Past Socket Call} {last : Socket} (enough : 4096 ≤ steps)
    (run : Run (step steps) Socket.unopened past last) (within : Within Orderly past) :
    (∀ taken ∈ past, Disciplined steps taken.1 taken.2) ∧
      ∀ call, Orderly last call → Disciplined steps last call := by
  have kept : ∀ s call s', Idle s → Orderly s call → step steps s call = some s' → Idle s' :=
    fun s call s' idle orderly => (step_idle enough idle orderly).2 s'
  constructor
  · intro taken member
    have idle := run.invariant_before Orderly Idle idle_unopened kept within taken member
    exact (step_idle enough idle (within taken member)).1
  · intro call orderly
    have idle := run.invariant Orderly Idle idle_unopened kept within
    exact (step_idle enough idle orderly).1

/-- A message of attributes that are no nests. -/
def plainMessage (type : UInt16) (fixed : List Byte) (nlas : List Attribute) (four : fixed.length = 4)
    (others : ∀ nla ∈ nlas, nla.type.toNat ≠ 21) : Message where
  type := type
  flags := 0
  seq := 0
  pid := 1000
  fixed := fixed
  items := plain nlas others
  uncounted := 0
  fixed_le := four.le
  fixed_eq _ := four
  uncounted_le := Nat.zero_le _

/-- The controller tells the id 28 for the name `nl80211`. -/
def familyAnswer : Answer where
  message := plainMessage 16 [1, 2, 0, 0] [⟨2, [110, 108, 56, 48, 50, 49, 49, 0]⟩, ⟨1, [28, 0]⟩] rfl (by decide)
  fits := by decide

/-- Two interfaces, joined to networks of different names. -/
def home : Answer := ⟨plainMessage 28 [7, 1, 0, 0] [⟨52, [104, 111, 109, 101]⟩] rfl (by decide), by decide⟩

def work : Answer := ⟨plainMessage 28 [7, 1, 0, 0] [⟨52, [119, 111, 114, 107]⟩] rfl (by decide), by decide⟩

/-- `NLMSG_ERROR` with `EBUSY` and the request that it refuses. -/
def refusal : Answer where
  message := plainMessage 2 [240, 255, 255, 255] [⟨0, List.replicate 24 0⟩] rfl (by decide)
  fits := by decide

def undisturbed : Outside := ⟨true, true, true, some 3, true, none⟩

def homeCall : Call := ⟨undisturbed, familyAnswer, .essid home⟩

def strengthCall : Call := ⟨undisturbed, familyAnswer, .perc (.stations twoStations wellFormed_two)⟩

def workCall : Call := ⟨undisturbed, familyAnswer, .essid work⟩

/-- The call for the first interface is interrupted in `recv`. -/
def interruptedCall : Call := ⟨{ undisturbed with failure := some 0 }, familyAnswer, .essid home⟩

def refusedCall : Call := ⟨undisturbed, familyAnswer, .perc (.error refusal rfl)⟩

/-- The request for the id of the family cannot be sent. -/
def unknownCall : Call :=
  ⟨{ undisturbed with familySent := false }, familyAnswer, .perc (.stations twoStations wellFormed_two)⟩

theorem familyAnswer_told : familyId familyAnswer.message = some 28 := by decide

/-- A first call finds out the id of the family. -/
theorem nl80211fam_first {s : Socket} (call : Call) (idle : Idle s) (unknown : s.id = 0)
    (told : familyId call.family.message = some 28) (received : call.outside.familyReceived = true)
    (opens : call.outside.opens = true) (sent : call.outside.familySent = true) :
    ∃ resp, resp.length = 4096 ∧ nl80211fam 4096 call.outside call.family.message.encode s =
      .ok (28, ⟨true, s.seq + 1, 28, [], resp⟩) := by
  have opened : (s.nlsock || call.outside.opens) = true := by rw [opens, Bool.or_true]
  refine ⟨(receive s.resp call.family.message.encode).1, (length_receive _ _).trans idle.room, ?_⟩
  rw [nl80211fam_asked idle received unknown opened sent, family_found idle.room le_rfl told]
  rfl

theorem home_first {s : Socket} (idle : Idle s) (unknown : s.id = 0) :
    ∃ s', step 4096 s homeCall = some s' ∧ Idle s' ∧ s'.id = 28 := by
  obtain ⟨resp, room, family⟩ := nl80211fam_first homeCall idle unknown familyAnswer_told rfl rfl rfl
  have pending : [] ++ [(⟨s.seq + 1, home.message.encode⟩ : Datagram)] = [⟨s.seq + 1, home.message.encode⟩] := rfl
  rcases essid_first le_rfl room family (by decide) rfl nofun rfl rfl pending with
    ⟨full, -⟩ | ⟨resp', room', returned⟩
  · exact absurd full (by decide)
  · refine ⟨⟨true, s.seq + 2, 28, [], resp'⟩, ?_, ⟨rfl, room', fun _ => rfl⟩, rfl⟩
    change left (homeCall.essid 4096 home s) = _
    rw [returned]
    rfl

/-- The name of one interface and then the strength of another, both over one socket. -/
theorem disciplined_two : ∃ past last, Run (step 4096) Socket.unopened past last ∧ past.length = 1 ∧
    (∀ taken ∈ past, Disciplined 4096 taken.1 taken.2) ∧ Disciplined 4096 last strengthCall := by
  obtain ⟨s, first, -, known⟩ := home_first idle_unopened rfl
  have run : Run (step 4096) Socket.unopened [(Socket.unopened, homeCall)] s := .step homeCall .start first
  have within : Within Orderly [(Socket.unopened, homeCall)] :=
    List.forall_mem_singleton.mpr ⟨rfl, rfl, trivial⟩
  have complete : ∀ messages ∈ twoStations, Aligned messages := by decide
  have next : Orderly s strengthCall := ⟨rfl, rfl, fun _ => ⟨.inl (by rw [known]; decide), complete⟩⟩
  obtain ⟨earlier, later⟩ := disciplined_of_orderly le_rfl run within
  exact ⟨_, s, run, rfl, earlier, later strengthCall next⟩

/-- The reply stays on the socket. -/
theorem interrupted_first {s : Socket} (idle : Idle s) (unknown : s.id = 0) :
    ∃ resp, resp.length = 4096 ∧ step 4096 s interruptedCall =
      some ⟨true, s.seq + 2, 28, [⟨s.seq + 1, home.message.encode⟩], resp⟩ := by
  obtain ⟨resp, room, family⟩ := nl80211fam_first interruptedCall idle unknown familyAnswer_told rfl rfl rfl
  refine ⟨resp, room, ?_⟩
  change left (interruptedCall.essid 4096 home s) = _
  unfold Call.essid wifiEssid
  rw [family]
  rfl

/-- The reply that the interrupted call has left is returned for the other interface. -/
theorem stale_reply {s : Socket} (idle : Idle s) (unknown : s.id = 0) :
    ∃ past last returned, Run (step 4096) s past last ∧ workCall.essid 4096 work last = .ok returned ∧
      returned.result = ssid home.message ∧ returned.request = s.seq + 2 ∧
      returned.taken = [⟨s.seq + 1, home.message.encode⟩] ∧ ¬Disciplined 4096 last workCall := by
  obtain ⟨resp, room, first⟩ := interrupted_first idle unknown
  have cached : nl80211fam 4096 workCall.outside workCall.family.message.encode
      ⟨true, s.seq + 2, 28, [⟨s.seq + 1, home.message.encode⟩], resp⟩ =
        .ok (28, ⟨true, s.seq + 2, 28, [⟨s.seq + 1, home.message.encode⟩], resp⟩) := rfl
  have pending : [(⟨s.seq + 1, home.message.encode⟩ : Datagram)] ++ [⟨s.seq + 2, work.message.encode⟩] =
      ⟨s.seq + 1, home.message.encode⟩ :: [⟨s.seq + 2, work.message.encode⟩] := rfl
  rcases essid_first le_rfl room cached (by decide) rfl nofun rfl rfl pending with ⟨full, -⟩ | ⟨resp', -, returned⟩
  · exact absurd full (by decide)
  · refine ⟨_, _, _, .step interruptedCall .start first, returned, rfl, rfl, rfl, ?_⟩
    intro disciplined
    change Answered (ssid work.message) (workCall.essid 4096 work _) at disciplined
    rw [returned] at disciplined
    exact absurd (disciplined.2 _ rfl).1 (by decide)

/-- After `NLMSG_ERROR` the loop asks for more. -/
theorem refused_waits {s : Socket} (idle : Idle s) (unknown : s.id = 0) : ¬Disciplined 4096 s refusedCall := by
  obtain ⟨resp, room, family⟩ := nl80211fam_first refusedCall idle unknown familyAnswer_told rfl rfl rfl
  have fits : (encodeMessages [refusal.message]).length ≤ 4096 := by decide
  have walked := messageLoop_received none room fits le_rfl (by decide) (by decide)
  have length : (receive resp (encodeMessages [refusal.message])).2 = (encodeMessages [refusal.message]).length := by
    rw [receive_fits (by rw [room]; exact fits)]
  have enters : ¬(encodeMessages [refusal.message]).length < NLMSG_HDRLEN := by decide
  have queue :
      strengthLoop 4096 [⟨s.seq + 1, encodeMessages [refusal.message]⟩] none resp none = .error .blocked := by
    simp only [strengthLoop, length, if_neg enters, walked]
    rfl
  have blocked : refusedCall.perc 4096 (.error refusal rfl) s = .error .blocked := by
    unfold Call.perc wifiPerc
    rw [family]
    exact congrArg (Except.map _) queue
  intro disciplined
  change Answered none (refusedCall.perc 4096 (.error refusal rfl) s) at disciplined
  rw [blocked] at disciplined
  exact disciplined rfl

/-- A request of type 0 has no answer. -/
theorem unknown_waits {s : Socket} (idle : Idle s) (unknown : s.id = 0) : ¬Disciplined 4096 s unknownCall := by
  have blocked : unknownCall.perc 4096 (.stations twoStations wellFormed_two) s = .error .blocked := by
    simp [Call.perc, wifiPerc, nl80211fam, unknown, unknownCall, undisturbed, Socket.answered, idle.empty,
      strengthLoop, Except.map]
  intro disciplined
  change Answered _ (unknownCall.perc 4096 (.stations twoStations wellFormed_two) s) at disciplined
  rw [blocked] at disciplined
  exact disciplined rfl

theorem interrupted_reply_returned :
    (∃ past last returned, Run (step 4096) Socket.unopened past last ∧ workCall.essid 4096 work last = .ok returned ∧
      returned.result = ssid home.message ∧ returned.request = 3 ∧ returned.taken = [⟨2, home.message.encode⟩] ∧
      ¬Disciplined 4096 last workCall) ∧
    ¬Disciplined 4096 Socket.unopened refusedCall ∧ ¬Disciplined 4096 Socket.unopened unknownCall :=
  ⟨stale_reply idle_unopened rfl, refused_waits idle_unopened rfl, unknown_waits idle_unopened rfl⟩

end SlStatus.RequestReply
