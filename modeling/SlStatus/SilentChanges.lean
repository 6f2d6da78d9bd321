import SlStatus.DeviceCaches
import SlStatus.SinkLookup

/-! The callbacks of `components/pa.c`, `components/nm.c`, `components/upower.c` and
`components/mm.c`, and whether they raise their component's signal when something that is
displayed changes. -/

namespace SlStatus.SilentChanges
open CString Display Runs Caches Dispatches DeviceCaches

section Sinks
open PulseAudio SinkLookup

variable (percent : UInt32 → Int)

/-- What the display function returns, if it does. -/
def paShown (queue : List Pa) (function : SinkLookup.Display) (sink : Option Text) : Option (Option Text) :=
  (function.run queue sink).map Prod.fst

def PaChanged (queue queue' : List Pa) : Prop :=
  ∃ function sink text text', paShown queue function sink = some text ∧ paShown queue' function sink = some text' ∧
    text ≠ text'

/-- A callback that changes what is returned for some argument raises the signal. -/
def PaHeard (client : Client) : Call → Prop
  | .display _ _ => True
  | call => ∀ client' requests signal, client.call percent call = some (client', requests, signal) →
      PaChanged client.queue client'.queue → signal = true

/-- A name or a description does not change alone. -/
def PaTold (client : Client) : Call → Prop
  | .sinkInfo info eol pa => ∀ entry ∈ client.queue[pa]?, ∀ told ∈ info, eol = 0 → told.index = entry.index →
      percent told.volume = entry.volume → told.mute = entry.mute →
        entry.name = some told.name ∧ entry.description = some told.description
  | _ => True

/-- The entry that a lookup gives, or the one that it would make. -/
def entryOf (queue : List Pa) (sink : Option Text) : Pa := (search Pa.sink queue sink).getD (newEntry sink)

theorem paShown_queued {queue : List Pa} (ordered : Ordered queue) {pa : Pa} (member : pa ∈ queue)
    (function : SinkLookup.Display) : paShown queue function pa.sink = some (function.text pa) := by
  obtain ⟨i, here⟩ := List.mem_iff_getElem?.mp member
  simp only [paShown, display_run, PulseAudio.display, paFindBySink_hit ordered here, Option.map_some, here,
    Option.bind_some]

theorem paShown_some {queue : List Pa} (ordered : Ordered queue) {function : SinkLookup.Display} {sink : Option Text}
    {text : Option Text} (returned : paShown queue function sink = some text) :
    text = function.text (entryOf queue sink) := by
  rcases paFindBySink_cases ordered sink with ⟨i, pa, here, rfl, -⟩ | ⟨absent, -, miss⟩ | ⟨-, -, -, undefined⟩
  · have member := List.mem_of_getElem? here
    rw [paShown_queued ordered member] at returned
    rw [entryOf, search_of_mem ordered.nodup member]
    exact (Option.some.inj returned).symm
  · rw [entryOf, search_eq_none.mpr absent]
    simp only [paShown, display_run, PulseAudio.display, miss, Option.map_some, List.getElem?_concat_length,
      Option.bind_some, Option.some.injEq] at returned
    exact returned.symm
  · simp only [paShown, display_run, PulseAudio.display, undefined, Option.map_none, reduceCtorEq] at returned

theorem not_paChanged {queue queue' : List Pa} (ordered : Ordered queue) (ordered' : Ordered queue')
    (same : ∀ sink, entryOf queue' sink = entryOf queue sink) : ¬PaChanged queue queue' := by
  rintro ⟨function, sink, text, text', before, after, differs⟩
  apply differs
  rw [paShown_some ordered before, paShown_some ordered' after, same]

/-- The entry that `server_info_callback` makes shows what a lookup would have made. -/
theorem entryOf_serverInfo {client client' : Client} {defaultSinkName : Text} {requests : List Request} {signal : Bool}
    (ordered : Ordered client.queue)
    (called : client.call percent (.serverInfo defaultSinkName) = some (client', requests, signal))
    (sink : Option Text) : entryOf client'.queue sink = entryOf client.queue sink := by
  simp only [Client.call, serverInfoCallback] at called
  split_ifs at called with known
  · cases called
    rfl
  · simp only [Option.map_map, Option.map_eq_some_iff] at called
    obtain ⟨⟨pa, queue, asked⟩, found, made⟩ := called
    cases made
    rcases paFindBySink_cases ordered none with ⟨i, entry, -, -, hit⟩ | ⟨absent, -, miss⟩ | ⟨given, -⟩
    · rw [found] at hit
      cases hit
      rfl
    · rw [found] at miss
      cases miss
      change entryOf (client.queue ++ [newEntry none]) sink = _
      unfold entryOf search
      rw [List.find?_append]
      cases sink with
      | none => cases client.queue.find? fun entry => entry.sink = none <;> rfl
      | some name =>
        have other : (newEntry none).sink ≠ some name := by simp [newEntry, sinkKey]
        rw [List.find?_singleton, if_neg (by simpa using other), Option.or_none]
    · exact absurd rfl given

theorem entryOf_set_self {queue : List Pa} (ordered : Ordered queue) {i : Nat} {entry entry' : Pa}
    (here : queue[i]? = some entry) (kept : entry'.sink = entry.sink) :
    entryOf (queue.set i entry') entry.sink = entry' := by
  rw [entryOf, search_set_self ordered.nodup here kept, Option.getD_some]

theorem entryOf_set_other {queue : List Pa} {i : Nat} {entry entry' : Pa} (here : queue[i]? = some entry)
    (kept : entry'.sink = entry.sink) {sink : Option Text} (different : sink ≠ entry.sink) :
    entryOf (queue.set i entry') sink = entryOf queue sink := by
  rw [entryOf, search_set_other here kept different, entryOf]

/-- An entry that takes new values shows something else if and only if a function of it does. -/
theorem paChanged_set_iff {queue : List Pa} (ordered : Ordered queue) {i : Nat} {entry entry' : Pa}
    (here : queue[i]? = some entry) (kept : entry'.sink = entry.sink) :
    PaChanged queue (queue.set i entry') ↔
      ∃ function : SinkLookup.Display, function.text entry ≠ function.text entry' := by
  have ordered' : Ordered (queue.set i entry') := ordered.of_sinks (map_set_of_key here kept)
  have member := List.mem_of_getElem? here
  have member' : entry' ∈ queue.set i entry' := List.mem_set (List.getElem?_eq_some_iff.mp here).1 entry'
  constructor
  · rintro ⟨function, sink, text, text', before, after, differs⟩
    refine ⟨function, fun same => differs ?_⟩
    rw [paShown_some ordered before, paShown_some ordered' after]
    by_cases own : sink = entry.sink
    · subst sink
      rw [entryOf_set_self ordered here kept, entryOf, search_of_mem ordered.nodup member, Option.getD_some, same]
    · rw [entryOf_set_other here kept own]
  · rintro ⟨function, differs⟩
    refine ⟨function, entry.sink, _, _, paShown_queued ordered member function, ?_, differs⟩
    rw [← kept]
    exact paShown_queued ordered' member' function

theorem paHeard_sinkInfo_iff {client : Client} (ordered : Ordered client.queue) (info : Option SinkInfo) (eol : Int)
    (pa : Nat) : PaHeard percent client (.sinkInfo info eol pa) ↔ PaTold percent client (.sinkInfo info eol pa) := by
  have called : ∀ entry, client.queue[pa]? = some entry → client.call percent (.sinkInfo info eol pa) =
      some ({ client with queue := client.queue.set pa (paSinkInfoCallback percent info eol entry).1 }, [],
        (paSinkInfoCallback percent info eol entry).2) := by
    intro entry here
    simp only [Client.call, here, Option.map_some]
  constructor
  · rintro heard entry here told rfl rfl index volume mute
    have raised := heard _ _ _ (called entry here)
    dsimp only at raised
    rw [paChanged_set_iff ordered here (paSinkInfoCallback_sink percent (some told) 0 entry), paSinkInfoCallback_eq,
      index, volume, mute] at raised
    constructor
    · by_contra differs
      simpa using raised ⟨.name, differs⟩
    · by_contra differs
      simpa using raised ⟨.description, differs⟩
  · intro told client' requests signal here changed
    cases queued : client.queue[pa]? with
    | none => simp [Client.call, queued] at here
    | some entry =>
      rw [called entry queued] at here
      cases here
      have kept := paSinkInfoCallback_sink percent info eol entry
      obtain ⟨function, differs⟩ := (paChanged_set_iff ordered queued kept).mp changed
      cases info with
      | none => exact absurd rfl differs
      | some info =>
        by_cases more : eol = 0
        · subst eol
          by_contra silent
          rw [paSinkInfoCallback_eq] at silent differs
          simp only [decide_eq_true_eq, not_or, not_not] at silent
          obtain ⟨index, volume, mute⟩ := silent
          obtain ⟨name, description⟩ := told entry queued info rfl rfl index volume mute
          rw [← name, ← description, index, volume, mute] at differs
          exact differs rfl
        · simp only [paSinkInfoCallback, if_neg more] at differs
          exact absurd rfl differs

theorem paHeard_iff {client : Client} (ordered : Ordered client.queue) (call : Call) :
    PaHeard percent client call ↔ PaTold percent client call := by
  cases call with
  | display => exact Iff.rfl
  | sinkInfo info eol pa => exact paHeard_sinkInfo_iff percent ordered info eol pa
  | serverInfo defaultSinkName =>
    refine iff_of_true ?_ trivial
    intro client' requests signal called changed
    have taken : step percent client (.serverInfo defaultSinkName) = some client' := by
      rw [SinkLookup.step, called, Option.map_some]
    have ordered' := ordered_of_step percent ordered taken
    exact absurd changed (not_paChanged ordered ordered' (entryOf_serverInfo percent ordered called))
  | subscribe facility idx =>
    refine iff_of_true ?_ trivial
    intro client' requests signal called changed
    cases called
    exact absurd changed (not_paChanged ordered ordered fun sink => rfl)

end Sinks

section Networks
open NetworkManager Handlers

variable {Dev Ap : Type*}

/-- A callback of `nm.c`, with what libnm answers while it runs, the handlers connected so far
and a number for another one. -/
inductive NmNotice (Dev Ap : Type*) where
  | state (daemon : Daemon Dev Ap)
  | activeAccessPoint (daemon : Daemon Dev Ap) (id : UInt64) (handlers : Registry (Object Dev Ap) Property)
  | strength (daemon : Daemon Dev Ap) (ap : Ap)

/-- All that is displayed of an entry. -/
def nmView (isEthernet isWifi : Dev → Bool) (nm : Option (Nm Dev Ap)) : List (Option Text) :=
  [nmLine isEthernet isWifi nm, nmIp4 nm, nmIp6 nm]

/-- The device has a line to show once it is activated: a wireless one with a name has if the
text fits. -/
def HasLine (isEthernet isWifi : Dev → Bool) (nm : Nm Dev Ap) : Prop :=
  isEthernet nm.device = true ∨ isWifi nm.device = true ∧ ∀ essid ∈ nm.essid, essid.bytes.length < 1019

/-- A device with a line to show does not become activated without an address. -/
def NmTold (isEthernet isWifi : Dev → Bool) (queue : List (Nm Dev Ap)) :
    Event (Daemon Dev Ap × Ids) Text (NmNotice Dev Ap) → Prop
  | .dispatch i (.state daemon) => ∀ nm ∈ queue[i]?, daemon.state nm.device = NM_DEVICE_STATE_ACTIVATED →
      nm.state ≠ NM_DEVICE_STATE_ACTIVATED → HasLine isEthernet isWifi nm →
        firstAddress (daemon.ip4Config nm.device) ≠ none ∨ firstAddress (daemon.ip6Config nm.device) ≠ none
  | _ => True

theorem nmLine_activated (isEthernet isWifi : Dev → Bool) {nm : Nm Dev Ap}
    (activated : nm.state = NM_DEVICE_STATE_ACTIVATED) :
    nmLine isEthernet isWifi (some nm) ≠ none ↔ HasLine isEthernet isWifi nm := by
  have icon : (strengthIcon nm.ss).bytes.length = 4 := by
    unfold strengthIcon
    simp only [pick]
    split_ifs <;> rfl
  unfold HasLine
  simp only [nmLine, activated, ne_eq, not_true, if_false]
  split_ifs with ethernet wifi
  · simp [ethernet]
  · cases nm.essid with
    | none => simp [ethernet, wifi]
    | some essid =>
      have length : (strengthIcon nm.ss ++ space ++ essid).bytes.length = essid.bytes.length + 5 := by
        simp only [Text.append_bytes, List.length_append, icon, space, character, List.length_singleton]
        omega
      have fits : essid.bytes.length + 5 < 1024 ↔ essid.bytes.length < 1019 := by omega
      simp only [bprintf_eq, length, fits, ethernet, wifi, Bool.false_eq_true, false_or, true_and, Option.mem_def,
        Option.some.injEq, forall_eq']
      split_ifs with short <;> simp [short]
  · simp [ethernet, wifi]

/-- Only an update for a device that is activated without addresses is silent. -/
theorem nmUpdate_told_iff (isEthernet isWifi : Dev → Bool) (daemon : Daemon Dev Ap) (nm : Nm Dev Ap) :
    (nmView isEthernet isWifi (some nm) ≠ nmView isEthernet isWifi (some (nmUpdate daemon nm).1) →
        (nmUpdate daemon nm).2 = true) ↔
      (daemon.state nm.device = NM_DEVICE_STATE_ACTIVATED → nm.state ≠ NM_DEVICE_STATE_ACTIVATED →
        HasLine isEthernet isWifi nm →
          firstAddress (daemon.ip4Config nm.device) ≠ none ∨ firstAddress (daemon.ip6Config nm.device) ≠ none) := by
  by_cases activated : daemon.state nm.device = NM_DEVICE_STATE_ACTIVATED
  · rw [nmUpdate_activated activated]
    by_cases addressed :
        firstAddress (daemon.ip4Config nm.device) ≠ none ∨ firstAddress (daemon.ip6Config nm.device) ≠ none
    · refine iff_of_true ?_ fun _ _ _ => addressed
      intro _
      rw [Bool.or_eq_true, Option.isSome_iff_ne_none, Option.isSome_iff_ne_none]
      exact addressed
    · push Not at addressed
      obtain ⟨ip4, ip6⟩ := addressed
      simp only [ip4, ip6, Option.none_or, Option.isSome_none, Bool.or_self, Bool.false_eq_true, imp_false, ne_eq,
        not_not, not_true, or_self, activated, forall_const]
      have line := nmLine_activated isEthernet isWifi
        (show ({ nm with state := NM_DEVICE_STATE_ACTIVATED } : Nm Dev Ap).state = NM_DEVICE_STATE_ACTIVATED from rfl)
      constructor
      · intro same inactive shows
        have before : nmLine isEthernet isWifi (some nm) = none := by
          simp only [nmLine, ne_eq, inactive, not_false_eq_true, if_true]
        apply line.mpr shows
        rw [← before]
        exact (List.cons.inj same).1.symm
      · intro quiet
        by_cases inactive : nm.state = NM_DEVICE_STATE_ACTIVATED
        · rw [← inactive]
        · have before : nmLine isEthernet isWifi (some nm) = none := by
            simp only [nmLine, ne_eq, inactive, not_false_eq_true, if_true]
          have after := not_not.mp (mt line.mp (quiet inactive))
          simp only [nmView, before, after, nmIp4, nmIp6]
  · rw [nmUpdate_other activated]
    exact iff_of_true (fun _ => rfl) fun here => absurd here activated

variable [DecidableEq Dev] [DecidableEq Ap]

def nmCallback : NmNotice Dev Ap → Nm Dev Ap → Nm Dev Ap × Bool
  | .state daemon, nm => nmStateCallback daemon nm
  | .activeAccessPoint daemon id handlers, nm =>
      let (nm, _, signal) := nmAccessPointCallback daemon id nm handlers
      (nm, signal)
  | .strength daemon ap, nm => nmSignalStrengthCallback daemon ap nm

theorem nmCallback_iface (notice : NmNotice Dev Ap) (nm : Nm Dev Ap) : (nmCallback notice nm).1.iface = nm.iface := by
  cases notice with
  | state daemon =>
    change (nmUpdate daemon nm).1.iface = nm.iface
    rw [nmUpdate_eq]
  | activeAccessPoint daemon id handlers =>
    simp only [nmCallback]
    cases active : daemon.activeAccessPoint nm.device with
    | some ap => rw [nmAccessPointCallback_some id handlers active]
    | none =>
      cases left : nm.ap with
      | some ap => rw [nmAccessPointCallback_left id handlers active left]
      | none => rw [nmAccessPointCallback_none id handlers active left]
  | strength daemon ap =>
    simp only [nmCallback, nmSignalStrengthCallback]
    split_ifs <;> rfl

theorem nm_misses : Misses Nm.iface (nmLookup : Lookup (Daemon Dev Ap × Ids) Text (Nm Dev Ap)) := by
  intro answer queue iface missed
  have absent : queue.find? (fun nm => nm.iface = iface) = none := missed
  simp only [nmLookup, nmFind, absent, List.find?_nil]
  cases answer.1.byIface iface <;> rfl

/-- The other two callbacks signal whatever they change. -/
theorem accessPoint_told (daemon : Daemon Dev Ap) (id : UInt64) (handlers : Registry (Object Dev Ap) Property)
    (nm : Nm Dev Ap) (changed : nm ≠ (nmCallback (.activeAccessPoint daemon id handlers) nm).1) :
    (nmCallback (.activeAccessPoint daemon id handlers) nm).2 = true := by
  simp only [nmCallback] at changed ⊢
  cases active : daemon.activeAccessPoint nm.device with
  | some ap => rw [nmAccessPointCallback_some id handlers active]
  | none =>
    cases left : nm.ap with
    | some ap => rw [nmAccessPointCallback_left id handlers active left]
    | none =>
      rw [nmAccessPointCallback_none id handlers active left] at changed
      exact absurd rfl changed

theorem strength_told (daemon : Daemon Dev Ap) (ap : Ap) (nm : Nm Dev Ap)
    (changed : nm ≠ (nmCallback (.strength daemon ap) nm).1) : (nmCallback (.strength daemon ap) nm).2 = true := by
  simp only [nmCallback, nmSignalStrengthCallback] at changed ⊢
  split_ifs with differs
  · rfl
  · rw [if_neg differs] at changed
    exact absurd rfl changed

theorem nmHeard_iff (isEthernet isWifi : Dev → Bool) {queue : List (Nm Dev Ap)} (distinct : Distinct Nm.iface queue)
    (event : Event (Daemon Dev Ap × Ids) Text (NmNotice Dev Ap)) :
    Heard nmLookup nmCallback (nmView isEthernet isWifi) queue event ↔ NmTold isEthernet isWifi queue event := by
  cases event with
  | lookup asked => exact Iff.rfl
  | dispatch i notice =>
    have iff := heard_dispatch_iff nm_hits nm_misses nmCallback_iface (nmView isEthernet isWifi) distinct i notice
    cases notice with
    | state daemon =>
      rw [iff (daemon, ⟨0, 0, 0⟩)]
      exact forall₂_congr fun nm _ => nmUpdate_told_iff isEthernet isWifi daemon nm
    | activeAccessPoint daemon id handlers =>
      rw [iff (daemon, ⟨0, 0, 0⟩)]
      refine iff_of_true ?_ trivial
      intro nm _ differs
      exact accessPoint_told daemon id handlers nm fun same => differs (by rw [← same])
    | strength daemon ap =>
      rw [iff (daemon, ⟨0, 0, 0⟩)]
      refine iff_of_true ?_ trivial
      intro nm _ differs
      exact strength_told daemon ap nm fun same => differs (by rw [← same])

end Networks

section Devices
open UPower ModemManager

variable {Dev Modem : Type*}

def upowerView (upDeviceStateToString : Int → Text) (upower : Option (Upower Dev)) : List (Option Text) :=
  [upowerLine upower, upowerPerc upower, upowerState upDeviceStateToString upower]

def mmView (mm : Option (Mm Modem)) : List (Option Text) := [mmLine mm, mmPerc mm]

/-- A notification comes with the present values and its name. -/
def upowerCallback (notice : UPower.Properties × Text) : Upower Dev → Upower Dev × Bool :=
  upowerDeviceCallback notice.1 notice.2

def mmCallback (notice : ModemManager.Properties × Text) : Mm Modem → Mm Modem × Bool :=
  mmModemCallback notice.1 notice.2

theorem upower_told (notice : UPower.Properties × Text) (upower : Upower Dev)
    (changed : upower ≠ (upowerCallback notice upower).1) : (upowerCallback notice upower).2 = true := by
  unfold upowerCallback upowerDeviceCallback at changed ⊢
  split_ifs at changed ⊢ <;> first | rfl | exact absurd rfl changed

theorem mm_told (notice : ModemManager.Properties × Text) (mm : Mm Modem)
    (changed : mm ≠ (mmCallback notice mm).1) : (mmCallback notice mm).2 = true := by
  unfold mmCallback mmModemCallback at changed ⊢
  split_ifs at changed ⊢ <;> first | rfl | exact absurd rfl changed

theorem upower_misses : Misses Upower.device (upowerLookup true : Lookup (UPower.Client Dev) Text (Upower Dev)) := by
  intro client queue device missed
  have empty : search Upower.device ([] : List (Upower Dev)) device = none := rfl
  simp only [upowerLookup, if_true, upowerFind, missed, empty]
  cases client.owner device <;> rfl

theorem mm_misses : Misses Mm.iface (mmLookup : Lookup (Manager Modem) Text (Mm Modem)) := by
  intro manager queue iface missed
  have empty : search Mm.iface ([] : List (Mm Modem)) iface = none := rfl
  simp only [mmLookup, mmFind, missed, empty]
  cases portSearch iface manager.objects none <;> rfl

/-- A callback that signals whatever it changes is heard. -/
theorem heard_of_told {Entry Key Answer Notice View : Type*} [DecidableEq Key] {key : Entry → Key}
    {find : Lookup Answer Key Entry} {callback : Notice → Entry → Entry × Bool} (hits : Hits key find)
    (misses : Misses key find) (keeps : ∀ notice entry, key (callback notice entry).1 = key entry)
    (told : ∀ notice entry, entry ≠ (callback notice entry).1 → (callback notice entry).2 = true)
    (view : Option Entry → View) {queue : List Entry} (distinct : Distinct key queue)
    (event : Event Answer Key Notice) : Heard find callback view queue event := by
  cases event with
  | lookup asked => trivial
  | dispatch i notice =>
    intro entry here answer
    refine (heard_dispatch_iff hits misses keeps view distinct i notice answer).mpr ?_ entry here answer
    intro entry _ differs
    exact told notice entry fun same => differs (by rw [← same])

/-- Without a client there is never an entry. -/
theorem upower_heard_unconnected (upDeviceStateToString : Int → Text)
    {past : Past (List (Upower Dev)) (Event (UPower.Client Dev) Text (UPower.Properties × Text))}
    {queue : List (Upower Dev)} (run : Run (step (upowerLookup false) upowerCallback) [] past queue) :
    ∀ taken ∈ past,
      Heard (upowerLookup false) upowerCallback (upowerView upDeviceStateToString) taken.1 taken.2 := by
  intro taken member
  have empty : taken.1 = [] := by
    refine run.invariant_before (fun _ _ => True) (fun queue => queue = []) rfl ?_ (fun _ _ => trivial) taken member
    rintro before event after rfl - moved
    cases event with
    | lookup asked => exact (Option.some.inj moved).symm
    | dispatch i notice => cases moved
  rw [empty]
  cases taken.2 with
  | lookup asked => trivial
  | dispatch i notice => exact nofun

end Devices

/-- In every state that lookups and callbacks lead to, the callbacks of `upower.c` and `mm.c`
signal every change that is displayed. Those of `pa.c` do unless a name or a description
changes alone, and those of `nm.c` unless a device with a line to show becomes activated
before it has an address. -/
theorem heard_iff_told {Dev Ap Modem : Type*} [DecidableEq Dev] [DecidableEq Ap] (percent : UInt32 → Int)
    (isEthernet isWifi : Dev → Bool) (connected : Bool) (upDeviceStateToString : Int → Text) :
    (∀ past client, Run (SinkLookup.step percent) SinkLookup.initial past client →
      ∀ taken ∈ past, PaHeard percent taken.1 taken.2 ↔ PaTold percent taken.1 taken.2) ∧
    (∀ past (queue : List (NetworkManager.Nm Dev Ap)), Run (step nmLookup nmCallback) [] past queue →
      ∀ taken ∈ past, Heard nmLookup nmCallback (nmView isEthernet isWifi) taken.1 taken.2 ↔
        NmTold isEthernet isWifi taken.1 taken.2) ∧
    (∀ past (queue : List (UPower.Upower Dev)), Run (step (upowerLookup connected) upowerCallback) [] past queue →
      ∀ taken ∈ past,
        Heard (upowerLookup connected) upowerCallback (upowerView upDeviceStateToString) taken.1 taken.2) ∧
    ∀ past (queue : List (ModemManager.Mm Modem)), Run (step mmLookup mmCallback) [] past queue →
      ∀ taken ∈ past, Heard mmLookup mmCallback mmView taken.1 taken.2 := by
  refine ⟨?_, ?_, ?_, ?_⟩
  · intro past client run taken member
    obtain ⟨early, reached⟩ := run.reached member
    exact paHeard_iff percent (SinkLookup.ordered_of_run percent reached) taken.2
  · intro past queue run taken member
    obtain ⟨early, reached⟩ := run.reached member
    have distinct := distinct_of_run nm_creates.finds nmCallback_iface reached
    exact nmHeard_iff isEthernet isWifi distinct taken.2
  · intro past queue run taken member
    cases connected with
    | false => exact upower_heard_unconnected upDeviceStateToString run taken member
    | true =>
      have keeps : ∀ notice (upower : UPower.Upower Dev), (upowerCallback notice upower).1.device = upower.device :=
        fun notice upower => UPower.upowerDeviceCallback_device notice.1 notice.2 upower
      obtain ⟨early, reached⟩ := run.reached member
      have distinct := distinct_of_run upower_creates.finds keeps reached
      exact heard_of_told upower_hits upower_misses keeps upower_told _ distinct taken.2
  · intro past queue run taken member
    have keeps : ∀ notice (mm : ModemManager.Mm Modem), (mmCallback notice mm).1.iface = mm.iface :=
      fun notice mm => ModemManager.mmModemCallback_iface notice.1 notice.2 mm
    obtain ⟨early, reached⟩ := run.reached member
    have distinct := distinct_of_run mm_creates.finds keeps reached
    exact heard_of_told mm_hits mm_misses keeps mm_told _ distinct taken.2

section Silent
open PulseAudio SinkLookup NetworkManager

def speaker : Text := ⟨[0x73, 0x70, 0x6B], by decide⟩

def cable : Text := ⟨[0x65, 0x74, 0x68], by decide⟩

/-- A cable whose device is in the given state, with no configuration yet. -/
def plugged (state : Int) : Daemon Unit Unit where
  byIface := fun iface => if iface = cable then some () else none
  isWifi := fun _ => false
  state := fun _ => state
  ip4Config := fun _ => none
  ip6Config := fun _ => none
  activeAccessPoint := fun _ => none
  ssid := fun _ => none
  strength := fun _ => 0
  ssidToUtf8 := fun _ => Text.empty

/-- The first sink of a silent server fills its entry without a signal, and so does a cable
that gets its device activated. -/
theorem change_unheard :
    (∃ past client, Run (SinkLookup.step wholePercent) SinkLookup.initial past client ∧
      ∃ taken ∈ past, taken.2 = .sinkInfo (some ⟨0, speaker, speaker, 0, 0⟩) 0 0 ∧
        ¬PaHeard wholePercent taken.1 taken.2) ∧
    ∃ past queue, Run (step nmLookup nmCallback) ([] : List (Nm Unit Unit)) past queue ∧
      ∃ taken ∈ past, taken.2 = .dispatch 0 (.state (plugged NM_DEVICE_STATE_ACTIVATED)) ∧
        ¬Heard nmLookup nmCallback (nmView (fun _ => true) fun _ => false) taken.1 taken.2 := by
  constructor
  · obtain ⟨past, client, run, checked⟩ := exists_run (SinkLookup.step wholePercent) SinkLookup.initial
      [.display .name (some speaker), .sinkInfo (some ⟨0, speaker, speaker, 0, 0⟩) 0 0]
      (fun past _ => decide (past = [(⟨[newEntry (some speaker)], none⟩,
        .sinkInfo (some ⟨0, speaker, speaker, 0, 0⟩) 0 0), (SinkLookup.initial, .display .name (some speaker))]))
      (by decide)
    obtain rfl := of_decide_eq_true checked
    refine ⟨_, client, run, _, List.mem_cons_self, rfl, ?_⟩
    obtain ⟨early, reached⟩ := run.reached List.mem_cons_self
    rw [paHeard_iff wholePercent (SinkLookup.ordered_of_run wholePercent reached)]
    intro told
    have named := told (newEntry (some speaker)) rfl _ rfl rfl rfl (by decide) rfl
    cases named.1
  · have found : Run (step nmLookup nmCallback) ([] : List (Nm Unit Unit)) _
        [(NetworkManager.newEntry (plugged 30) ⟨0, 0, 0⟩ cable ()).1] :=
      .step (.lookup ((plugged 30, ⟨0, 0, 0⟩), cable)) .start rfl
    have told := found.step (.dispatch 0 (.state (plugged NM_DEVICE_STATE_ACTIVATED))) rfl
    refine ⟨_, _, told, _, List.mem_cons_self, rfl, ?_⟩
    rw [nmHeard_iff _ _ (distinct_of_run nm_creates.finds nmCallback_iface found)]
    intro addressed
    have unaddressed := addressed _ rfl rfl (by decide) (.inl rfl)
    simp [plugged, firstAddress] at unaddressed

end Silent

end SlStatus.SilentChanges
