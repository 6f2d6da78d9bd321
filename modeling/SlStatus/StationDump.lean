import SlStatus.Station

/-! The reply to the station dump: what `wifi_perc` visits and returns, against the messages
that the datagrams of the reply are made of. -/

namespace SlStatus.StationDump
open CString Netlink Wifi Station

def encodeMessages (messages : List Message) : List Byte := messages.flatMap Message.encode

def isDone (m : Message) : Bool := m.type.toNat = NLMSG_DONE

/-- The headers of messages laid out from `p` on. -/
def headers (p : Nat) : List Message → List Nat
  | [] => []
  | m :: messages => p :: headers (p + align m.length) messages

/-- The visits of those headers when `take` says what a message gives. -/
def visits (take : Message → Option Int) (p : Nat) (strength : Option Int) : List Message → List Visit
  | [] => []
  | m :: messages =>
      let taken := if strength = none then take m else none
      ⟨p, taken⟩ :: visits take (p + align m.length) (strength.or taken) messages

def strengthAfter (take : Message → Option Int) (strength : Option Int) (messages : List Message) : Option Int :=
  strength.or (messages.findSome? take)

theorem visits_position (take : Message → Option Int) (p : Nat) (strength : Option Int) (messages : List Message) :
    (visits take p strength messages).map Visit.position = headers p messages := by
  induction messages generalizing p strength with
  | nil => rfl
  | cons m messages ih => rw [visits, List.map_cons, ih, headers]

theorem strengthAfter_cons (take : Message → Option Int) (strength : Option Int) (m : Message)
    (messages : List Message) :
    strengthAfter take (strength.or (if strength = none then take m else none)) messages =
      strengthAfter take strength (m :: messages) := by
  cases strength with
  | some => rfl
  | none => cases taken : take m <;> simp [strengthAfter, taken]

theorem messageLoop_end {bytes : List Byte} {r p : Nat} (steps : Nat) (strength : Option Int) (ended : r - p < 16) :
    messageLoop bytes r steps p strength = .ok ([], strength, false) := by
  have stops : ¬(p ≠ r ∧ r - p ≥ NLMSG_HDRLEN) := fun goes => absurd goes.2 (Nat.not_le.mpr ended)
  cases steps <;> simp only [messageLoop, if_neg stops]

/-- No message but the last is `NLMSG_DONE`. -/
def OneDone (messages : List Message) : Prop := ∀ m ∈ messages.dropLast, isDone m = false

/-- Every message but the last ends, by its own length, at a multiple of four. -/
def Aligned (messages : List Message) : Prop := ∀ m ∈ messages.dropLast, m.length % 4 = 0

instance (messages : List Message) : Decidable (Aligned messages) :=
  inferInstanceAs (Decidable (∀ m ∈ messages.dropLast, m.length % 4 = 0))

instance (messages : List Message) : Decidable (OneDone messages) :=
  inferInstanceAs (Decidable (∀ m ∈ messages.dropLast, isDone m = false))

theorem messageLoop_aligned {messages : List Message} {bytes tail : List Byte} {r p steps : Nat}
    (strength : Option Int) (here : bytes.drop p = encodeMessages messages ++ tail) (short : bytes.length < 65536)
    (bound : r = p + (encodeMessages messages).length) (enough : r - p ≤ steps) (done : OneDone messages)
    (aligned : Aligned messages) :
    messageLoop bytes r steps p strength =
      .ok (visits Message.heard p strength messages, strengthAfter Message.heard strength messages,
        messages.getLast?.any isDone) := by
  induction messages generalizing p steps strength with
  | nil =>
    rw [messageLoop_end steps strength (by rw [bound]; simp [encodeMessages])]
    simp [visits, strengthAfter]
  | cons m messages ih =>
    have size := m.length_encode
    have parts := m.length_parts
    rw [encodeMessages, List.flatMap_cons] at here bound
    rw [List.append_assoc] at here
    rw [List.length_append, size] at bound
    obtain ⟨steps, rfl⟩ : ∃ fewer, steps = fewer + 1 := ⟨steps - 1, by omega⟩
    rw [messageLoop_message strength here short (by omega) (by omega)]
    have next := drop_add_of_drop_eq here
    rw [size] at next
    cases messages with
    | nil =>
      have ended : r - (p + m.length) < 16 := by
        have few := align_lt m.length
        simp only [List.flatMap_nil, List.length_nil] at bound
        omega
      have single : strengthAfter Message.heard strength [m] =
          strength.or (if strength = none then m.heard else none) := by
        rw [← strengthAfter_cons]
        simp [strengthAfter]
      by_cases last : m.type.toNat = NLMSG_DONE
      · simp [last, visits, isDone, single]
      · simp [last, messageLoop_end steps _ ended, Except.map, visits, isDone, single]
    | cons following messages =>
      have goesOn : ¬m.type.toNat = NLMSG_DONE := by
        simpa [isDone] using done m (by rw [List.dropLast_cons_cons]; exact List.mem_cons_self)
      have whole : m.length = align m.length := by
        refine ((align_eq_self_iff m.length).mpr (aligned m ?_)).symm
        rw [List.dropLast_cons_cons]
        exact List.mem_cons_self
      have rest : r = p + align m.length + (encodeMessages (following :: messages)).length := by
        rw [bound, Nat.add_assoc]
        rfl
      have fewer : r - (p + align m.length) ≤ steps := by omega
      have later := ih (strength.or (if strength = none then m.heard else none)) next rest fewer
        (fun other member => done other (by rw [List.dropLast_cons_cons]; exact List.mem_cons_of_mem _ member))
        (fun other member => aligned other (by rw [List.dropLast_cons_cons]; exact List.mem_cons_of_mem _ member))
      rw [← whole] at later
      have front : visits Message.heard p strength (m :: following :: messages) =
          ⟨p, if strength = none then m.heard else none⟩ :: visits Message.heard (p + align m.length)
            (strength.or (if strength = none then m.heard else none)) (following :: messages) := rfl
      rw [front, ← whole]
      simp only [if_neg goesOn, later, Except.map, strengthAfter_cons, List.getLast?_cons_cons]

theorem first_visit {bytes : List Byte} {r p steps : Nat} {strength after : Option Int} {visit : Visit}
    {others : List Visit} {finished : Bool}
    (result : messageLoop bytes r steps p strength = .ok (visit :: others, after, finished)) :
    visit.position = p := by
  cases steps with
  | zero =>
    simp only [messageLoop] at result
    split_ifs at result
    cases result
  | succ steps =>
    simp only [messageLoop] at result
    split at result
    · split at result
      · split at result
        · cases result
        · split at result
          · cases result
            rfl
          · obtain ⟨rest, -, same⟩ := exists_of_map result
            obtain ⟨head, -⟩ := List.cons.inj (congrArg Prod.fst same)
            rw [← head]
      · cases result
    · cases result

/-- If the loop visits just the headers, it has stepped over no padding. -/
theorem aligned_of_visits {messages : List Message} {bytes tail : List Byte} {r p steps : Nat}
    {strength after : Option Int} {visited : List Visit} {finished : Bool}
    (here : bytes.drop p = encodeMessages messages ++ tail) (short : bytes.length < 65536)
    (bound : r = p + (encodeMessages messages).length) (enough : r - p ≤ steps) (done : OneDone messages)
    (result : messageLoop bytes r steps p strength = .ok (visited, after, finished))
    (same : visited.map Visit.position = headers p messages) : Aligned messages := by
  induction messages generalizing p steps strength visited with
  | nil => exact nofun
  | cons m messages ih =>
    cases messages with
    | nil => exact nofun
    | cons following messages =>
      have size := m.length_encode
      have parts := m.length_parts
      rw [encodeMessages, List.flatMap_cons] at here bound
      rw [List.append_assoc] at here
      rw [List.length_append, size] at bound
      have next := drop_add_of_drop_eq here
      rw [size] at next
      have rest : r = p + align m.length + (encodeMessages (following :: messages)).length := by
        rw [bound, Nat.add_assoc]
        rfl
      obtain ⟨steps, rfl⟩ : ∃ fewer, steps = fewer + 1 := ⟨steps - 1, by omega⟩
      have goesOn : ¬m.type.toNat = NLMSG_DONE := by
        simpa [isDone] using done m (by rw [List.dropLast_cons_cons]; exact List.mem_cons_self)
      rw [messageLoop_message strength here short (by omega) (by omega)] at result
      simp only [if_neg goesOn] at result
      obtain ⟨⟨others, later⟩, inner, whole⟩ := exists_of_map result
      cases whole
      rw [List.map_cons, headers] at same
      obtain ⟨-, same⟩ := List.cons.inj same
      cases others with
      | nil => cases same
      | cons visit others =>
        have stepped := first_visit inner
        have headed := (List.cons.inj same).1
        have whole : align m.length = m.length := by omega
        rw [whole] at next rest same
        have earlier := ih next rest (by omega) (fun other member => done other (by
          rw [List.dropLast_cons_cons]
          exact List.mem_cons_of_mem _ member)) inner same
        unfold Aligned
        rw [List.dropLast_cons_cons]
        exact List.forall_mem_cons.mpr ⟨(align_eq_self_iff m.length).mp whole, earlier⟩

/-- Up to the first message that has a signal, none has a stray attribute. -/
def Unmixed : List Message → Prop
  | [] => True
  | m :: messages => m.signal = none → ¬m.Stray ∧ Unmixed messages

theorem unmixed_append (front back : List Message) :
    Unmixed (front ++ back) ↔ Unmixed front ∧ (front.findSome? Message.signal = none → Unmixed back) := by
  induction front with
  | nil => simp [Unmixed]
  | cons m front ih =>
    cases signal : m.signal with
    | none => simp [Unmixed, signal, ih, and_assoc]
    | some => simp [Unmixed, signal]

theorem visits_some (take other : Message → Option Int) (p : Nat) (value : Int) (messages : List Message) :
    visits take p (some value) messages = visits other p (some value) messages := by
  induction messages generalizing p with
  | nil => rfl
  | cons m messages ih =>
    simp only [visits, reduceCtorEq, if_false, Option.or_none]
    rw [ih]

theorem visits_heard_iff (p : Nat) (messages : List Message) :
    visits Message.heard p none messages = visits Message.signal p none messages ↔ Unmixed messages := by
  induction messages generalizing p with
  | nil => simp [visits, Unmixed]
  | cons m messages ih =>
    simp only [visits, if_true, Option.none_or, List.cons.injEq, Visit.mk.injEq, true_and, Unmixed]
    cases signal : m.signal with
    | some value => simp [Message.heard_of_signal signal, visits_some Message.heard Message.signal]
    | none =>
      rw [Message.heard_none_iff signal, ← ih (p + align m.length)]
      constructor
      · rintro ⟨unmixed, same⟩ -
        rw [(Message.heard_none_iff signal).mpr unmixed] at same
        exact ⟨unmixed, same⟩
      · intro rest
        obtain ⟨unmixed, same⟩ := rest rfl
        refine ⟨unmixed, ?_⟩
        rw [(Message.heard_none_iff signal).mpr unmixed]
        exact same

theorem findSome_heard {messages : List Message} (unmixed : Unmixed messages) :
    messages.findSome? Message.heard = messages.findSome? Message.signal := by
  induction messages with
  | nil => rfl
  | cons m messages ih =>
    rw [List.findSome?_cons, List.findSome?_cons]
    cases signal : m.signal with
    | some value => rw [Message.heard_of_signal signal]
    | none =>
      obtain ⟨clean, rest⟩ := unmixed signal
      rw [(Message.heard_none_iff signal).mpr clean]
      exact ih rest

/-- A reply to the dump as `recv` delivers it: datagrams of whole messages, the last message
of all being `NLMSG_DONE`. No datagram that is delivered is longer than `resp`. -/
structure WellFormed (reply : List (List Message)) : Prop where
  carries : ∀ messages ∈ reply, messages ≠ []
  fits : ∀ messages ∈ reply, (encodeMessages messages).length ≤ 4096
  done : reply.flatten.getLast?.any isDone = true
  once : OneDone reply.flatten

theorem WellFormed.ne_nil {reply : List (List Message)} (wellFormed : WellFormed reply) : reply ≠ [] := by
  rintro rfl
  exact absurd wellFormed.done (by decide)

def datagrams (request : Nat) (reply : List (List Message)) : List Datagram :=
  reply.map fun messages => ⟨request, encodeMessages messages⟩

/-- The visits of a reply, datagram by datagram. -/
def replyVisits (take : Message → Option Int) (strength : Option Int) : List (List Message) → List (List Visit)
  | [] => []
  | messages :: reply =>
      visits take 0 strength messages :: replyVisits take (strengthAfter take strength messages) reply

theorem oneDone_append {front back : List Message} (some : back ≠ []) (once : OneDone (front ++ back)) :
    (∀ m ∈ front, isDone m = false) ∧ OneDone back := by
  unfold OneDone at once
  rw [List.dropLast_append_of_ne_nil some] at once
  exact ⟨fun m member => once m (List.mem_append_left _ member),
    fun m member => once m (List.mem_append_right _ member)⟩

theorem wellFormed_cons {messages following : List Message} {reply : List (List Message)}
    (wellFormed : WellFormed (messages :: following :: reply)) :
    (∀ m ∈ messages, isDone m = false) ∧ WellFormed (following :: reply) := by
  obtain ⟨carries, fits, done, once⟩ := wellFormed
  rw [List.forall_mem_cons] at carries fits
  have some : (following :: reply).flatten ≠ [] := by
    rw [List.flatten_cons]
    exact List.append_ne_nil_of_left_ne_nil (carries.2 following List.mem_cons_self) _
  rw [List.flatten_cons] at done once
  obtain ⟨front, once⟩ := oneDone_append some once
  refine ⟨front, carries.2, fits.2, ?_, once⟩
  rwa [List.getLast?_append_of_ne_nil _ some] at done

theorem wellFormed_single {messages : List Message} (wellFormed : WellFormed [messages]) :
    OneDone messages ∧ messages.getLast?.any isDone = true := by
  obtain ⟨-, -, done, once⟩ := wellFormed
  rw [List.flatten_cons, List.flatten_nil, List.append_nil] at done once
  exact ⟨once, done⟩

theorem oneDone_of_forall {messages : List Message} (none : ∀ m ∈ messages, isDone m = false) :
    OneDone messages ∧ messages.getLast?.any isDone = false := by
  refine ⟨fun m member => none m (List.dropLast_subset _ member), ?_⟩
  cases last : messages.getLast? with
  | none => rfl
  | some m => exact none m (List.mem_of_getLast? last)

/-- A datagram that fits arrives whole in front of what `resp` held. -/
theorem receive_fits {resp datagram : List Byte} (fits : datagram.length ≤ resp.length) :
    receive resp datagram = (datagram ++ resp.drop datagram.length, datagram.length) := by
  unfold receive
  rw [List.take_of_length_le fits]

theorem length_receive (resp datagram : List Byte) : (receive resp datagram).1.length = resp.length := by
  simp only [receive, List.length_append, List.length_take, List.length_drop]
  omega

theorem header_fits {messages : List Message} (some : messages ≠ []) : 16 ≤ (encodeMessages messages).length := by
  obtain ⟨m, messages, rfl⟩ := List.exists_cons_of_ne_nil some
  rw [encodeMessages, List.flatMap_cons, List.length_append, Message.length_parts]
  omega

theorem received_at {messages : List Message} {resp : List Byte} (room : resp.length = 4096)
    (fits : (encodeMessages messages).length ≤ 4096) :
    (receive resp (encodeMessages messages)).1.drop 0 =
        encodeMessages messages ++ resp.drop (encodeMessages messages).length ∧
      (receive resp (encodeMessages messages)).1.length < 65536 := by
  constructor
  · rw [receive_fits (by omega), List.drop_zero]
  · rw [length_receive, room]
    decide

/-- What the message loop does to a datagram of the reply that `recv` has delivered. -/
theorem messageLoop_received {messages : List Message} {resp : List Byte} {steps : Nat} (strength : Option Int)
    (room : resp.length = 4096) (fits : (encodeMessages messages).length ≤ 4096) (enough : 4096 ≤ steps)
    (done : OneDone messages) (aligned : Aligned messages) :
    messageLoop (receive resp (encodeMessages messages)).1 (encodeMessages messages).length steps 0 strength =
      .ok (visits Message.heard 0 strength messages, strengthAfter Message.heard strength messages,
        messages.getLast?.any isDone) := by
  obtain ⟨here, short⟩ := received_at room fits
  exact messageLoop_aligned strength here short (Nat.zero_add _).symm (by omega) done aligned

/-- A datagram of the reply is received to its end, and there is a header in it. -/
theorem received_whole {messages : List Message} {reply : List (List Message)} {resp : List Byte}
    (wellFormed : WellFormed (messages :: reply)) (room : resp.length = 4096) :
    (receive resp (encodeMessages messages)).2 = (encodeMessages messages).length ∧
      ¬(encodeMessages messages).length < NLMSG_HDRLEN ∧ (receive resp (encodeMessages messages)).1.length = 4096 := by
  have fits := wellFormed.fits messages List.mem_cons_self
  have carries := wellFormed.carries messages List.mem_cons_self
  have length : (receive resp (encodeMessages messages)).2 = (encodeMessages messages).length := by
    rw [receive_fits (by omega)]
  have enters : ¬(encodeMessages messages).length < NLMSG_HDRLEN := Nat.not_lt.mpr (header_fits carries)
  exact ⟨length, enters, (length_receive resp (encodeMessages messages)).trans room⟩

theorem strengthLoop_aligned {reply : List (List Message)} {resp : List Byte} {steps : Nat} (request : Nat)
    (strength : Option Int) (left : List Datagram) (some : reply ≠ []) (wellFormed : WellFormed reply)
    (room : resp.length = 4096) (enough : 4096 ≤ steps) (aligned : ∀ messages ∈ reply, Aligned messages) :
    ∃ resp', resp'.length = 4096 ∧ strengthLoop steps (datagrams request reply ++ left) none resp strength =
      .ok ⟨replyVisits Message.heard strength reply, datagrams request reply, false,
        strengthAfter Message.heard strength reply.flatten, left, resp'⟩ := by
  induction reply generalizing resp strength with
  | nil => exact absurd rfl some
  | cons messages reply ih =>
    rw [List.forall_mem_cons] at aligned
    have fits := wellFormed.fits messages List.mem_cons_self
    obtain ⟨length, enters, kept⟩ := received_whole wellFormed room
    simp only [datagrams, List.map_cons, List.cons_append, strengthLoop, length, if_neg enters]
    cases reply with
    | nil =>
      obtain ⟨once, done⟩ := wellFormed_single wellFormed
      rw [messageLoop_received strength room fits enough once aligned.1, done]
      refine ⟨(receive resp (encodeMessages messages)).1, kept, ?_⟩
      simp [replyVisits]
    | cons following reply =>
      obtain ⟨open_, rest⟩ := wellFormed_cons wellFormed
      obtain ⟨once, goesOn⟩ := oneDone_of_forall open_
      obtain ⟨resp', room', later⟩ :=
        ih (strengthAfter Message.heard strength messages) (List.cons_ne_nil _ _) rest kept aligned.2
      rw [messageLoop_received strength room fits enough once aligned.1, goesOn]
      refine ⟨resp', room', ?_⟩
      rw [datagrams, List.map_cons, List.cons_append] at later
      simp only [Option.map_none, List.map_cons, List.cons_append, later, Except.map, replyVisits]
      simp [strengthAfter, List.findSome?_append, Option.or_assoc]

theorem aligned_of_reply {reply : List (List Message)} {resp : List Byte} {steps request : Nat}
    {strength : Option Int} {walked : Walked} (wellFormed : WellFormed reply) (room : resp.length = 4096)
    (enough : 4096 ≤ steps) (ran : strengthLoop steps (datagrams request reply) none resp strength = .ok walked)
    (same : walked.visits.map (List.map Visit.position) = reply.map (headers 0)) :
    ∀ messages ∈ reply, Aligned messages := by
  induction reply generalizing resp strength walked with
  | nil => exact nofun
  | cons messages reply ih =>
    have fits := wellFormed.fits messages List.mem_cons_self
    obtain ⟨length, enters, kept⟩ := received_whole wellFormed room
    have once : OneDone messages := by
      cases reply with
      | nil => exact (wellFormed_single wellFormed).1
      | cons => exact (oneDone_of_forall (wellFormed_cons wellFormed).1).1
    obtain ⟨here, short⟩ := received_at room fits
    simp only [datagrams, List.map_cons, strengthLoop, length, if_neg enters] at ran
    split at ran
    · cases ran
    · rename_i inner
      cases ran
      rw [List.map_cons, List.map_cons] at same
      obtain ⟨first, rest⟩ := List.cons.inj same
      have alone : reply = [] := List.map_eq_nil_iff.mp rest.symm
      rw [alone, List.forall_mem_singleton]
      exact aligned_of_visits here short (Nat.zero_add _).symm (by omega) once inner first
    · rename_i inner
      obtain ⟨later, ran', rfl⟩ := exists_of_map ran
      rw [List.map_cons, List.map_cons] at same
      obtain ⟨first, rest⟩ := List.cons.inj same
      refine List.forall_mem_cons.mpr
        ⟨aligned_of_visits here short (Nat.zero_add _).symm (by omega) once inner first, ?_⟩
      cases reply with
      | nil => exact nofun
      | cons following reply => exact ih (wellFormed_cons wellFormed).2 kept ran' rest

theorem replyVisits_position (take : Message → Option Int) (strength : Option Int) (reply : List (List Message)) :
    (replyVisits take strength reply).map (List.map Visit.position) = reply.map (headers 0) := by
  induction reply generalizing strength with
  | nil => rfl
  | cons messages reply ih => rw [replyVisits, List.map_cons, ih, visits_position, List.map_cons]

theorem replyVisits_some (take other : Message → Option Int) (value : Int) (reply : List (List Message)) :
    replyVisits take (some value) reply = replyVisits other (some value) reply := by
  induction reply with
  | nil => rfl
  | cons messages reply ih =>
    simp only [replyVisits, strengthAfter, Option.some_or]
    rw [ih, visits_some take other]

theorem replyVisits_heard_iff (reply : List (List Message)) :
    replyVisits Message.heard none reply = replyVisits Message.signal none reply ↔ Unmixed reply.flatten := by
  induction reply with
  | nil => simp [replyVisits, Unmixed]
  | cons messages reply ih =>
    rw [replyVisits, replyVisits, List.cons.injEq, visits_heard_iff, List.flatten_cons, unmixed_append]
    apply and_congr_right
    intro unmixed
    simp only [strengthAfter, Option.none_or, findSome_heard unmixed]
    cases found : messages.findSome? Message.signal with
    | none => simp [ih]
    | some value => simp [replyVisits_some Message.heard Message.signal]

/-- `wifi_perc` visits the messages of the reply in `queue`, returns what the first of them
that has a signal gives, and leaves nothing on the socket. -/
def Decodes (reply : List (List Message)) (queue : List Datagram) (resp : List Byte) : Prop :=
  ∃ bound, ∀ steps ≥ bound, ∃ resp',
    strengthLoop steps queue none resp none =
      .ok ⟨replyVisits Message.signal none reply, queue, false, reply.flatten.findSome? Message.signal, [], resp'⟩

theorem decodes_iff (request : Nat) (reply : List (List Message)) (resp : List Byte) (wellFormed : WellFormed reply)
    (room : resp.length = 4096) :
    Decodes reply (datagrams request reply) resp ↔
      (∀ messages ∈ reply, Aligned messages) ∧ Unmixed reply.flatten := by
  have some := wellFormed.ne_nil
  constructor
  · rintro ⟨bound, decodes⟩
    obtain ⟨resp', ran⟩ := decodes (max bound 4096) (le_max_left _ _)
    have aligned := aligned_of_reply wellFormed room (le_max_right _ _) ran (replyVisits_position _ _ _)
    refine ⟨aligned, ?_⟩
    obtain ⟨after, -, walked⟩ :=
      strengthLoop_aligned request none [] some wellFormed room (le_max_right bound _) aligned
    rw [List.append_nil, ran] at walked
    injection walked with same
    exact (replyVisits_heard_iff reply).mp (congrArg Walked.visits same).symm
  · rintro ⟨aligned, unmixed⟩
    refine ⟨4096, fun steps enough => ?_⟩
    obtain ⟨resp', -, ran⟩ := strengthLoop_aligned request none [] some wellFormed room enough aligned
    rw [List.append_nil, (replyVisits_heard_iff reply).mpr unmixed] at ran
    refine ⟨resp', ?_⟩
    rw [ran, strengthAfter, Option.none_or, findSome_heard unmixed]

/-- A message for a station with `children` in its nest and `behind` after the nest. -/
def stationMessage (children behind : List Attribute) (others : ∀ nla ∈ behind, nla.type.toNat ≠ 21) : Message where
  type := 28
  flags := 2
  seq := 3
  pid := 1000
  fixed := [19, 1, 0, 0]
  items := ⟨⟨21, encodeAll children⟩, children, fun _ => padded_encodeAll 21 children⟩ ::
    plain behind others
  uncounted := 0
  fixed_le := by decide
  fixed_eq _ := rfl
  uncounted_le := Nat.zero_le _

def doneMessage : Message where
  type := 3
  flags := 2
  seq := 3
  pid := 1000
  fixed := [0, 0, 0, 0]
  items := []
  uncounted := 0
  fixed_le := by decide
  fixed_eq none := absurd rfl none
  uncounted_le := Nat.zero_le _

def twoStations : List (List Message) :=
  [[stationMessage [⟨1, [0, 0, 0, 0]⟩] [] nofun, stationMessage [⟨13, [196]⟩, ⟨7, [190]⟩] [] nofun], [doneMessage]]

theorem wellFormed_two : WellFormed twoStations := ⟨by decide, by decide, by decide, by decide⟩

theorem decodes_two : twoStations.flatten.findSome? Message.signal = some 80 ∧
    Decodes twoStations (datagrams 1 twoStations) (List.replicate 4096 0) := by
  refine ⟨by decide, (decodes_iff 1 twoStations _ wellFormed_two List.length_replicate).mpr ⟨?_, ?_⟩⟩
  · decide
  · intro silent
    refine ⟨?_, fun loud => ?_⟩
    · rintro ⟨item, station, missing, nla, found, single⟩
      cases found
    · exact absurd loud (by decide)

/-- No signal in the nest, and behind it an attribute of its own that is numbered 13. -/
def strayReply : List (List Message) :=
  [[stationMessage [⟨1, [0, 0, 0, 0]⟩] [⟨13, [196]⟩] (by decide)], [doneMessage]]

/-- The first message ends in a byte of payload and three bytes of padding. -/
def unalignedReply : List (List Message) :=
  [[{ stationMessage [⟨13, [196]⟩] [⟨6, [0]⟩] (by decide) with uncounted := 3, uncounted_le := by decide },
    doneMessage]]

theorem stray_attribute_decoded :
    WellFormed strayReply ∧ strayReply.flatten.findSome? Message.signal = none ∧
      (∃ walked, strengthLoop 4096 (datagrams 1 strayReply) none (List.replicate 4096 0) none = .ok walked ∧
        walked.strength = some 80) ∧
      ¬Decodes strayReply (datagrams 1 strayReply) (List.replicate 4096 0) ∧
    WellFormed unalignedReply ∧ ¬Decodes unalignedReply (datagrams 1 unalignedReply) (List.replicate 4096 0) := by
  have stray : WellFormed strayReply := ⟨by decide, by decide, by decide, by decide⟩
  have unaligned : WellFormed unalignedReply := ⟨by decide, by decide, by decide, by decide⟩
  have room : (List.replicate 4096 (0 : Byte)).length = 4096 := List.length_replicate
  have walked := fun steps (enough : 4096 ≤ steps) =>
    strengthLoop_aligned 1 none [] stray.ne_nil stray room enough (by decide)
  refine ⟨stray, by decide, ?_, ?_, unaligned, ?_⟩
  · obtain ⟨resp', -, ran⟩ := walked 4096 le_rfl
    rw [List.append_nil] at ran
    have value : strengthAfter Message.heard none strayReply.flatten = some 80 := by decide
    exact ⟨_, ran, value⟩
  · rintro ⟨bound, decodes⟩
    obtain ⟨resp', ran⟩ := decodes (max bound 4096) (le_max_left _ _)
    obtain ⟨after, -, heard⟩ := walked (max bound 4096) (le_max_right _ _)
    rw [List.append_nil, ran] at heard
    injection heard with same
    have value : strayReply.flatten.findSome? Message.signal = strengthAfter Message.heard none strayReply.flatten :=
      congrArg Walked.strength same
    exact absurd value (by decide)
  · rintro ⟨bound, decodes⟩
    obtain ⟨resp', ran⟩ := decodes (max bound 4096) (le_max_left _ _)
    have aligned := aligned_of_reply unaligned room (le_max_right _ _) ran (replyVisits_position _ _ _)
    exact absurd aligned (by decide)

end SlStatus.StationDump
