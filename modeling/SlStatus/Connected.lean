import SlStatus.NetworkManager
import SlStatus.Runs

/-! One entry of `nm_find` under any course of notifications: what it says of the addresses
and of the access point hangs together in every state between two callbacks. -/

namespace SlStatus.Connected
open CString Handlers NetworkManager Runs

variable {Dev Ap : Type*}

abbrev Kept (Dev Ap : Type*) := Nm Dev Ap × Registry (Object Dev Ap) Property

/-- A callback, with what libnm answers while it runs; `id` is the number for a handler that
is connected. A strength notification may be late, from an access point already left. -/
inductive Notification (Dev Ap : Type*) where
  | state (daemon : Daemon Dev Ap)
  | activeAccessPoint (daemon : Daemon Dev Ap) (id : UInt64)
  | strength (daemon : Daemon Dev Ap) (ap : Ap)

/-- `g_signal_connect` gives out numbers that are positive and fit an `int`. -/
def FitsInt (id : UInt64) : Prop := 0 < id.toNat ∧ id.toNat < 2147483648

instance (id : UInt64) : Decidable (FitsInt id) := inferInstanceAs (Decidable (_ ∧ _))

def Fitting (_ : Kept Dev Ap) : Notification Dev Ap → Prop
  | .activeAccessPoint _ id => FitsInt id
  | _ => True

instance (kept : Kept Dev Ap) : (notification : Notification Dev Ap) → Decidable (Fitting kept notification)
  | .activeAccessPoint _ id => inferInstanceAs (Decidable (FitsInt id))
  | .state _ | .strength _ _ => inferInstanceAs (Decidable True)

theorem toInt_ne_zero {id : UInt64} (fits : FitsInt id) : toInt id ≠ 0 := by
  intro zero
  have bits : id.toBitVec.signExtend 32 = 0#32 := congrArg Int32.toBitVec zero
  rw [BitVec.signExtend_eq_setWidth_of_le _ (by decide)] at bits
  have value := congrArg BitVec.toNat bits
  rw [BitVec.toNat_setWidth, BitVec.toNat_ofNat] at value
  change id.toNat % 4294967296 = 0 at value
  obtain ⟨positive, small⟩ := fits
  omega

/-- What an update has read. -/
def reading : Kept Dev Ap × Notification Dev Ap → Option (Daemon Dev Ap)
  | (_, .state daemon) => some daemon
  | _ => none

/-- The updates, latest first; the first of all is made by `nm_find`. -/
def updates (created : Daemon Dev Ap) (past : Past (Kept Dev Ap) (Notification Dev Ap)) : List (Daemon Dev Ap) :=
  past.filterMap reading ++ [created]

/-- The updates since the device last became activated. -/
def activation (device : Dev) (daemons : List (Daemon Dev Ap)) : List (Daemon Dev Ap) :=
  daemons.takeWhile fun daemon => daemon.state device = NM_DEVICE_STATE_ACTIVATED

/-- The address is the first of a configuration read since the device last became activated. -/
def Current (config : Daemon Dev Ap → Option (Option (List Text))) (activation : List (Daemon Dev Ap))
    (address : Option Text) : Prop :=
  ∀ text ∈ address, ∃ daemon ∈ activation, firstAddress (config daemon) = some text

structure Consistent (created : Daemon Dev Ap) (past : Past (Kept Dev Ap) (Notification Dev Ap))
    (nm : Nm Dev Ap) : Prop where
  activated : nm.ipv4 ≠ none ∨ nm.ipv6 ≠ none → nm.state = NM_DEVICE_STATE_ACTIVATED
  ipv4 : Current (fun daemon => daemon.ip4Config nm.device) (activation nm.device (updates created past)) nm.ipv4
  ipv6 : Current (fun daemon => daemon.ip6Config nm.device) (activation nm.device (updates created past)) nm.ipv6
  essid : nm.essid ≠ none → nm.ap ≠ none
  ssId : nm.ssId ≠ 0 ↔ nm.ap ≠ none

theorem activation_activated {device : Dev} {daemon : Daemon Dev Ap} (daemons : List (Daemon Dev Ap))
    (activated : daemon.state device = NM_DEVICE_STATE_ACTIVATED) :
    activation device (daemon :: daemons) = daemon :: activation device daemons :=
  List.takeWhile_cons_of_pos (by simpa using activated)

theorem Current.none (config : Daemon Dev Ap → Option (Option (List Text))) (daemons : List (Daemon Dev Ap)) :
    Current config daemons none := nofun

/-- The address that an update leaves while the device is activated. -/
theorem Current.update {config : Daemon Dev Ap → Option (Option (List Text))} {daemons : List (Daemon Dev Ap)}
    {address : Option Text} (current : Current config daemons address) (daemon : Daemon Dev Ap) :
    Current config (daemon :: daemons) ((firstAddress (config daemon)).or address) := by
  intro text held
  rcases Option.or_eq_some_iff.mp held with read | ⟨-, kept⟩
  · exact ⟨daemon, List.mem_cons_self, read⟩
  · obtain ⟨earlier, member, read⟩ := current text kept
    exact ⟨earlier, List.mem_cons_of_mem _ member, read⟩

variable [DecidableEq Dev] [DecidableEq Ap]

def notified (kept : Kept Dev Ap) : Notification Dev Ap → Option (Kept Dev Ap)
  | .state daemon => some ((nmStateCallback daemon kept.1).1, kept.2)
  | .activeAccessPoint daemon id =>
      let (nm, handlers, _) := nmAccessPointCallback daemon id kept.1 kept.2
      some (nm, handlers)
  | .strength daemon ap => some ((nmSignalStrengthCallback daemon ap kept.1).1, kept.2)

omit [DecidableEq Dev] [DecidableEq Ap] in
theorem consistent_of_state {created : Daemon Dev Ap} {past : Past (Kept Dev Ap) (Notification Dev Ap)}
    {kept : Kept Dev Ap} (consistent : Consistent created past kept.1) (daemon : Daemon Dev Ap) :
    Consistent created ((kept, .state daemon) :: past) (nmUpdate daemon kept.1).1 := by
  by_cases activated : daemon.state kept.1.device = NM_DEVICE_STATE_ACTIVATED
  · have grown : activation kept.1.device (updates created ((kept, .state daemon) :: past)) =
        daemon :: activation kept.1.device (updates created past) := activation_activated _ activated
    rw [nmUpdate_activated activated]
    refine ⟨fun _ => rfl, ?_, ?_, consistent.essid, consistent.ssId⟩
    · rw [grown]
      exact consistent.ipv4.update daemon
    · rw [grown]
      exact consistent.ipv6.update daemon
  · rw [nmUpdate_other activated]
    exact ⟨by simp, Current.none _ _, Current.none _ _, consistent.essid, consistent.ssId⟩

theorem consistent_of_notified {created : Daemon Dev Ap} {past : Past (Kept Dev Ap) (Notification Dev Ap)}
    {kept kept' : Kept Dev Ap} {notification : Notification Dev Ap} (consistent : Consistent created past kept.1)
    (fitting : Fitting kept notification) (taken : notified kept notification = some kept') :
    Consistent created ((kept, notification) :: past) kept'.1 := by
  cases notification with
  | state daemon =>
    cases taken
    exact consistent_of_state consistent daemon
  | strength daemon ap =>
    cases taken
    unfold nmSignalStrengthCallback
    dsimp only
    split_ifs <;>
      exact ⟨consistent.activated, consistent.ipv4, consistent.ipv6, consistent.essid, consistent.ssId⟩
  | activeAccessPoint daemon id =>
    cases active : daemon.activeAccessPoint kept.1.device with
    | some ap =>
      simp only [notified, nmAccessPointCallback_some id kept.2 active, Option.some.injEq] at taken
      subst kept'
      refine ⟨consistent.activated, consistent.ipv4, consistent.ipv6, by simp, ?_⟩
      simp [toInt_ne_zero fitting]
    | none =>
      cases left : kept.1.ap with
      | some ap =>
        simp only [notified, nmAccessPointCallback_left id kept.2 active left, Option.some.injEq] at taken
        subst kept'
        exact ⟨consistent.activated, consistent.ipv4, consistent.ipv6, by simp, by simp⟩
      | none =>
        simp only [notified, nmAccessPointCallback_none id kept.2 active left, Option.some.injEq] at taken
        subst kept'
        exact ⟨consistent.activated, consistent.ipv4, consistent.ipv6, consistent.essid, consistent.ssId⟩

/-- The entry as `nm_find` allocates it. -/
def blank (daemon : Daemon Dev Ap) (iface : Text) (device : Dev) : Nm Dev Ap :=
  { iface, ipv4 := none, ipv6 := none, device, state := daemon.state device, stateId := 0, ap := none,
    essid := none, ss := 0, apId := 0, ssId := 0 }

omit [DecidableEq Dev] [DecidableEq Ap] in
/-- The addresses of a new entry are those of its first update. -/
theorem newEntry_addresses (daemon : Daemon Dev Ap) (ids : Ids) (iface : Text) (device : Dev) :
    (newEntry daemon ids iface device).1.state = (nmUpdate daemon (blank daemon iface device)).1.state ∧
    (newEntry daemon ids iface device).1.ipv4 = (nmUpdate daemon (blank daemon iface device)).1.ipv4 ∧
    (newEntry daemon ids iface device).1.ipv6 = (nmUpdate daemon (blank daemon iface device)).1.ipv6 := by
  unfold newEntry blank
  dsimp only
  rw [nmUpdate_eq]
  split_ifs
  · cases daemon.activeAccessPoint device with
    | none => exact ⟨rfl, rfl, rfl⟩
    | some ap => cases named : daemon.ssid ap <;> simp [named]
  · exact ⟨rfl, rfl, rfl⟩

omit [DecidableEq Dev] [DecidableEq Ap] in
theorem newEntry_accessPoint (daemon : Daemon Dev Ap) {ids : Ids} (fits : FitsInt ids.ss) (iface : Text)
    (device : Dev) :
    ((newEntry daemon ids iface device).1.essid ≠ none → (newEntry daemon ids iface device).1.ap ≠ none) ∧
    ((newEntry daemon ids iface device).1.ssId ≠ 0 ↔ (newEntry daemon ids iface device).1.ap ≠ none) := by
  unfold newEntry
  dsimp only
  rw [nmUpdate_eq]
  split_ifs
  · cases daemon.activeAccessPoint device with
    | none => simp
    | some ap => cases named : daemon.ssid ap <;> simp [named, toInt_ne_zero fits]
  · simp

omit [DecidableEq Dev] [DecidableEq Ap] in
theorem consistent_of_newEntry (daemon : Daemon Dev Ap) {ids : Ids} (fits : FitsInt ids.ss) (iface : Text)
    (device : Dev) : Consistent daemon [] (newEntry daemon ids iface device).1 := by
  obtain ⟨state, ipv4, ipv6⟩ := newEntry_addresses daemon ids iface device
  obtain ⟨essid, ssId⟩ := newEntry_accessPoint daemon fits iface device
  have same := (newEntry_key daemon ids iface device).2
  by_cases activated : daemon.state device = NM_DEVICE_STATE_ACTIVATED
  · have first : activation device (updates daemon []) = [daemon] := activation_activated [] activated
    rw [nmUpdate_activated activated] at state ipv4 ipv6
    refine ⟨fun _ => state, ?_, ?_, essid, ssId⟩
    · rw [same, first, ipv4]
      exact (Current.none _ []).update daemon
    · rw [same, first, ipv6]
      exact (Current.none _ []).update daemon
  · rw [nmUpdate_other activated] at ipv4 ipv6
    refine ⟨by simp [ipv4, ipv6], ?_, ?_, essid, ssId⟩
    · rw [ipv4]
      exact Current.none _ _
    · rw [ipv6]
      exact Current.none _ _

/-- From the entry that `nm_find` makes on, addresses are held only while the device is
activated and are of the present activation, a name only while there is an access point, and
the number of a strength handler exactly as long. -/
theorem consistent_of_run (daemon : Daemon Dev Ap) (ids : Ids) (queue : List (Nm Dev Ap)) (iface : Text) {device : Dev}
    {nm : Nm Dev Ap} {queue' : List (Nm Dev Ap)} {handlers : Registry (Object Dev Ap) Property}
    {past : Past (Kept Dev Ap) (Notification Dev Ap)} {last : Kept Dev Ap}
    (unknown : ∀ other ∈ queue, other.iface ≠ iface) (owner : daemon.byIface iface = some device)
    (found : nmFind daemon ids queue iface = (some nm, queue', handlers)) (fits : FitsInt ids.ss)
    (run : Run notified (nm, handlers) past last) (fitting : Within Fitting past) :
    Consistent daemon past last.1 := by
  have absent : queue.find? (fun other => other.iface = iface) = none :=
    List.find?_eq_none.mpr fun other member => by simpa using unknown other member
  simp only [nmFind, absent, owner, Prod.mk.injEq, Option.some.injEq] at found
  obtain ⟨rfl, -, -⟩ := found
  refine run.invariant_past Fitting (fun past kept => Consistent daemon past kept.1) ?_ ?_ fitting
  · exact consistent_of_newEntry daemon fits iface device
  · intro past before notification after consistent fitting taken
    exact consistent_of_notified consistent fitting taken

/-- A wireless device with an address, which it keeps through an update that reads none. -/
def addressed (config : Option (Option (List Text))) : Daemon Unit Bool :=
  { byIface := fun _ => some (), isWifi := fun _ => true, state := fun _ => NM_DEVICE_STATE_ACTIVATED,
    ip4Config := fun _ => config, ip6Config := fun _ => none, activeAccessPoint := fun _ => some true,
    ssid := fun _ => some [0x67], strength := fun _ => 70, ssidToUtf8 := fun _ => ⟨[0x67], by decide⟩ }

def address : Text := ⟨[0x31], by decide⟩

def wlan : Text := ⟨[0x77], by decide⟩

theorem consistent_of_run_addressed :
    ∃ past last, Run notified (newEntry (addressed (some (some [address]))) ⟨1, 2, 3⟩ wlan ()) past last ∧
      last.1.ipv4 = some address ∧ last.1.ssId = 4 ∧ Consistent (addressed (some (some [address]))) past last.1 := by
  obtain ⟨past, last, run, checked⟩ := exists_run notified
    (newEntry (addressed (some (some [address]))) ⟨1, 2, 3⟩ wlan ())
    [.state (addressed none), .activeAccessPoint (addressed none) 4, .strength (addressed none) false]
    (fun past last => decide (last.1.ipv4 = some address ∧ last.1.ssId = 4 ∧ Within Fitting past)) (by decide)
  obtain ⟨ipv4, ssId, fitting⟩ := of_decide_eq_true checked
  exact ⟨past, last, run, ipv4, ssId,
    consistent_of_run (addressed (some (some [address]))) ⟨1, 2, 3⟩ [] wlan nofun rfl rfl (by decide) run fitting⟩

end SlStatus.Connected
