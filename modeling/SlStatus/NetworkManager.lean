import Mathlib.Logic.Function.Basic
import SlStatus.Display
import SlStatus.Handlers

/-! `components/nm.c`: what it keeps of a network device and its active access point, and the
callbacks that keep it up to date. Handler numbers are `gulong` and the fields that hold them
are `int`. -/

namespace SlStatus.NetworkManager
open CString Display Handlers

variable {Dev Ap : Type*}

def NM_DEVICE_STATE_ACTIVATED : Int := 100

inductive Object (Dev Ap : Type*) where
  | device (device : Dev)
  | accessPoint (ap : Ap)
  deriving DecidableEq

inductive Property where
  | state | activeAccessPoint | strength
  deriving DecidableEq

/-- What libnm answers: of the two address lists, that there is no configuration, that it has
no list, or the list. -/
structure Daemon (Dev Ap : Type*) where
  byIface : Text → Option Dev
  isWifi : Dev → Bool
  state : Dev → Int
  ip4Config : Dev → Option (Option (List Text))
  ip6Config : Dev → Option (Option (List Text))
  activeAccessPoint : Dev → Option Ap
  ssid : Ap → Option (List Byte)
  strength : Ap → UInt8
  ssidToUtf8 : List Byte → Text

structure Nm (Dev Ap : Type*) where
  iface : Text
  ipv4 : Option Text
  ipv6 : Option Text
  device : Dev
  state : Int
  stateId : Int32
  ap : Option Ap
  essid : Option Text
  ss : Int
  apId : Int32
  ssId : Int32

/-- An `int` takes a `gulong`. -/
def toInt (id : UInt64) : Int32 := id.toInt64.toInt32

/-- An `int` is passed as a `gulong`. -/
def toULong (id : Int32) : UInt64 := id.toInt64.toUInt64

/-- The first address of a configuration that has one. -/
def firstAddress : Option (Option (List Text)) → Option Text
  | some (some (address :: _)) => some address
  | _ => none

/-- The second component tells whether `SIGRTMIN + NM_SIGNAL` is raised. -/
def nmUpdate (daemon : Daemon Dev Ap) (nm : Nm Dev Ap) : Nm Dev Ap × Bool :=
  let nm := { nm with state := daemon.state nm.device }
  if nm.state = NM_DEVICE_STATE_ACTIVATED then
    let ipv4 := firstAddress (daemon.ip4Config nm.device)
    let ipv6 := firstAddress (daemon.ip6Config nm.device)
    ({ nm with ipv4 := ipv4.or nm.ipv4, ipv6 := ipv6.or nm.ipv6 }, ipv4.isSome || ipv6.isSome)
  else ({ nm with ipv4 := none, ipv6 := none }, true)

def nmStateCallback (daemon : Daemon Dev Ap) (nm : Nm Dev Ap) : Nm Dev Ap × Bool := nmUpdate daemon nm

def nmSignalStrengthCallback (daemon : Daemon Dev Ap) (ap : Ap) (nm : Nm Dev Ap) : Nm Dev Ap × Bool :=
  let ss : Int := (daemon.strength ap).toNat
  if ss ≠ nm.ss then ({ nm with ss := ss }, true) else (nm, false)

/-- An update reads the state and the addresses and leaves the rest of the entry alone. -/
theorem nmUpdate_eq (daemon : Daemon Dev Ap) (nm : Nm Dev Ap) :
    (nmUpdate daemon nm).1 =
      { nm with
        state := (nmUpdate daemon nm).1.state
        ipv4 := (nmUpdate daemon nm).1.ipv4
        ipv6 := (nmUpdate daemon nm).1.ipv6 } := by
  unfold nmUpdate
  dsimp only
  split_ifs <;> rfl

theorem nmUpdate_activated {daemon : Daemon Dev Ap} {nm : Nm Dev Ap}
    (activated : daemon.state nm.device = NM_DEVICE_STATE_ACTIVATED) :
    nmUpdate daemon nm =
      ({ nm with
        state := NM_DEVICE_STATE_ACTIVATED
        ipv4 := (firstAddress (daemon.ip4Config nm.device)).or nm.ipv4
        ipv6 := (firstAddress (daemon.ip6Config nm.device)).or nm.ipv6 },
        (firstAddress (daemon.ip4Config nm.device)).isSome || (firstAddress (daemon.ip6Config nm.device)).isSome) := by
  simp only [nmUpdate, activated, if_true]

theorem nmUpdate_other {daemon : Daemon Dev Ap} {nm : Nm Dev Ap}
    (other : daemon.state nm.device ≠ NM_DEVICE_STATE_ACTIVATED) :
    nmUpdate daemon nm = ({ nm with state := daemon.state nm.device, ipv4 := none, ipv6 := none }, true) := by
  simp only [nmUpdate, if_neg other]

/-- What `nm_line` makes of the strength. -/
def strengthIcon (ss : Int) : Text :=
  pick [(20, icon 0xA4 0xAF (by decide)), (40, icon 0xA4 0x9F (by decide)), (60, icon 0xA4 0xA2 (by decide)),
    (80, icon 0xA4 0xA5 (by decide))] (icon 0xA4 0xA8 (by decide)) ss

/-- The display functions get what `nm_find` has returned. What kind of device an object is
never changes. -/
def nmLine (isEthernet isWifi : Dev → Bool) : Option (Nm Dev Ap) → Option Text
  | none => none
  | some nm =>
      if nm.state ≠ NM_DEVICE_STATE_ACTIVATED then none
      else if isEthernet nm.device then some (icon 0x88 0x80 (by decide))
      else if isWifi nm.device then
        match nm.essid with
        | some essid => bprintf (strengthIcon nm.ss ++ space ++ essid)
        | none => some (strengthIcon nm.ss)
      else none

def nmIp4 : Option (Nm Dev Ap) → Option Text
  | none => none
  | some nm => nm.ipv4

def nmIp6 : Option (Nm Dev Ap) → Option Text
  | none => none
  | some nm => nm.ipv6

variable [DecidableEq Dev] [DecidableEq Ap]

/-- `id` is the number that `g_signal_connect` gives out if it is called. -/
def nmAccessPointCallback (daemon : Daemon Dev Ap) (id : UInt64) (nm : Nm Dev Ap)
    (handlers : Registry (Object Dev Ap) Property) : Nm Dev Ap × Registry (Object Dev Ap) Property × Bool :=
  match daemon.activeAccessPoint nm.device with
  | some ap =>
      let nm := { nm with ap := some ap }
      let nm :=
        match daemon.ssid ap with
        | some ssid => { nm with essid := some (daemon.ssidToUtf8 ssid) }
        | none => nm
      ({ nm with ss := (daemon.strength ap).toNat, ssId := toInt id },
        connect handlers id (.accessPoint ap) .strength, true)
  | none =>
      match nm.ap with
      | some ap =>
          ({ nm with essid := none, ap := none, ss := 0, ssId := 0 },
            disconnect handlers (.accessPoint ap) (toULong nm.ssId), true)
      | none => (nm, handlers, false)

theorem nmAccessPointCallback_some {daemon : Daemon Dev Ap} {nm : Nm Dev Ap} {ap : Ap} (id : UInt64)
    (handlers : Registry (Object Dev Ap) Property) (active : daemon.activeAccessPoint nm.device = some ap) :
    nmAccessPointCallback daemon id nm handlers =
      ({ nm with
        ap := some ap
        essid := ((daemon.ssid ap).map daemon.ssidToUtf8).or nm.essid
        ss := (daemon.strength ap).toNat
        ssId := toInt id }, connect handlers id (.accessPoint ap) .strength, true) := by
  cases named : daemon.ssid ap <;> simp [nmAccessPointCallback, active, named]

theorem nmAccessPointCallback_left {daemon : Daemon Dev Ap} {nm : Nm Dev Ap} {ap : Ap} (id : UInt64)
    (handlers : Registry (Object Dev Ap) Property) (active : daemon.activeAccessPoint nm.device = none)
    (left : nm.ap = some ap) :
    nmAccessPointCallback daemon id nm handlers =
      ({ nm with essid := none, ap := none, ss := 0, ssId := 0 },
        disconnect handlers (.accessPoint ap) (toULong nm.ssId), true) := by
  simp only [nmAccessPointCallback, active, left]

theorem nmAccessPointCallback_none {daemon : Daemon Dev Ap} {nm : Nm Dev Ap} (id : UInt64)
    (handlers : Registry (Object Dev Ap) Property) (active : daemon.activeAccessPoint nm.device = none)
    (left : nm.ap = none) : nmAccessPointCallback daemon id nm handlers = (nm, handlers, false) := by
  simp only [nmAccessPointCallback, active, left]

/-- The numbers that the calls of `g_signal_connect` in `nm_find` give out. -/
structure Ids where
  ap : UInt64
  ss : UInt64
  state : UInt64

/-- The entry that `nm_find` makes for a device seen for the first time, with its handlers. -/
def newEntry (daemon : Daemon Dev Ap) (ids : Ids) (iface : Text) (device : Dev) :
    Nm Dev Ap × Registry (Object Dev Ap) Property :=
  let nm : Nm Dev Ap :=
    { iface, ipv4 := none, ipv6 := none, device, state := daemon.state device, stateId := 0, ap := none,
      essid := none, ss := 0, apId := 0, ssId := 0 }
  let nm := (nmUpdate daemon nm).1
  let (nm, handlers) : Nm Dev Ap × Registry (Object Dev Ap) Property :=
    if daemon.isWifi nm.device then
      let nm := { nm with ap := daemon.activeAccessPoint nm.device, apId := toInt ids.ap }
      let handlers := connect [] ids.ap (.device nm.device) .activeAccessPoint
      match nm.ap with
      | some ap =>
          let nm :=
            match daemon.ssid ap with
            | some ssid => { nm with essid := some (daemon.ssidToUtf8 ssid) }
            | none => nm
          ({ nm with ss := (daemon.strength ap).toNat, ssId := toInt ids.ss },
            connect handlers ids.ss (.accessPoint ap) .strength)
      | none => (nm, handlers)
    else (nm, [])
  ({ nm with stateId := toInt ids.state }, connect handlers ids.state (.device nm.device) .state)

/-- The entry asked for, the queue afterwards, and the handlers that were connected. -/
def nmFind (daemon : Daemon Dev Ap) (ids : Ids) (queue : List (Nm Dev Ap)) (iface : Text) :
    Option (Nm Dev Ap) × List (Nm Dev Ap) × Registry (Object Dev Ap) Property :=
  match queue.find? fun nm => nm.iface = iface with
  | some nm => (some nm, queue, [])
  | none =>
      match daemon.byIface iface with
      | none => (none, queue, [])
      | some device =>
          let (nm, handlers) := newEntry daemon ids iface device
          (some nm, queue ++ [nm], handlers)

omit [DecidableEq Dev] [DecidableEq Ap] in
/-- A new entry has the interface asked for and the device that the daemon named. -/
theorem newEntry_key (daemon : Daemon Dev Ap) (ids : Ids) (iface : Text) (device : Dev) :
    (newEntry daemon ids iface device).1.iface = iface ∧ (newEntry daemon ids iface device).1.device = device := by
  unfold newEntry
  dsimp only
  rw [nmUpdate_eq]
  split_ifs
  · cases daemon.activeAccessPoint device with
    | none => exact ⟨rfl, rfl⟩
    | some ap => cases named : daemon.ssid ap <;> simp [named]
  · exact ⟨rfl, rfl⟩

end SlStatus.NetworkManager
