import SlStatus.Backlights
import SlStatus.ModemManager
import SlStatus.NetworkManager
import SlStatus.UPower

/-! The lookups of the four device caches are of one kind: a search and, where it fails, one
attempt to make an entry. -/

namespace SlStatus.DeviceCaches
open CString Runs Caches NetworkManager ModemManager UPower Backlights

variable {Dev Ap Modem : Type*}

/-- What libnm answers and the numbers it gives out, for one lookup. -/
def nmLookup [DecidableEq Dev] [DecidableEq Ap] : Lookup (Daemon Dev Ap × Ids) Text (Nm Dev Ap) :=
  fun answer queue iface =>
    let (nm, queue, _) := nmFind answer.1 answer.2 queue iface
    some (nm, queue)

def mmLookup : Lookup (Manager Modem) Text (Mm Modem) := mmFind

/-- Whether there is a client is decided once, by `upower_init`. -/
def upowerLookup (connected : Bool) : Lookup (Client Dev) Text (Upower Dev) :=
  fun client queue device => some (upowerFind (if connected then some client else none) queue device)

def backlightLookup (percent : Int → Int → Int) : Lookup ((Text → Option Attributes) × Bool) Text Backlight :=
  fun answer queue name => some (backlightFind percent answer.1 answer.2 queue name)

theorem nmFind_eq [DecidableEq Dev] [DecidableEq Ap] (daemon : Daemon Dev Ap) (ids : Ids) (queue : List (Nm Dev Ap))
    (iface : Text) :
    ((nmFind daemon ids queue iface).1, (nmFind daemon ids queue iface).2.1) =
      findOrCreate Nm.iface queue iface
        ((daemon.byIface iface).map fun device => (NetworkManager.newEntry daemon ids iface device).1) := by
  unfold nmFind findOrCreate search
  cases queue.find? fun nm => nm.iface = iface with
  | some nm => rfl
  | none => cases daemon.byIface iface <;> simp

def nmOwner (answer : Daemon Dev Ap × Ids) (iface : Text) : Option Dev := answer.1.byIface iface

def upowerOwner (connected : Bool) (client : Client Dev) (device : Text) : Option Dev :=
  if connected then client.owner device else none

theorem nm_creates [DecidableEq Dev] [DecidableEq Ap] :
    CreatesFor Nm.iface Nm.device nmOwner (nmLookup : Lookup (Daemon Dev Ap × Ids) Text (Nm Dev Ap)) := by
  intro answer queue iface result found
  refine ⟨(answer.1.byIface iface).map fun device => (NetworkManager.newEntry answer.1 answer.2 iface device).1,
    ?_, ?_, ?_⟩
  · have same : (Nm.device ∘ fun device => (NetworkManager.newEntry answer.1 answer.2 iface device).1) = id :=
      funext fun device => (newEntry_key answer.1 answer.2 iface device).2
    rw [Option.map_map, same, Option.map_id, id, nmOwner]
  · intro nm made
    obtain ⟨device, -, rfl⟩ := Option.map_eq_some_iff.mp made
    exact (newEntry_key answer.1 answer.2 iface device).1
  · rw [← nmFind_eq]
    exact (Option.some.inj found).symm

theorem mm_creates :
    CreatesFor Mm.iface Mm.modem Manager.owner (mmLookup : Lookup (Manager Modem) Text (Mm Modem)) := by
  intro manager queue iface result found
  refine ⟨(manager.owner iface).map (ModemManager.newEntry manager iface), ?_, ?_, mmFind_eq found⟩
  · rw [Option.map_map]
    exact congrFun Option.map_id _
  · intro mm made
    obtain ⟨modem, -, rfl⟩ := Option.map_eq_some_iff.mp made
    rfl

theorem upower_creates :
    CreatesFor Upower.device Upower.gdevice (upowerOwner true)
      (upowerLookup true : Lookup (Client Dev) Text (Upower Dev)) := by
  intro client queue device result found
  refine ⟨(client.owner device).map (UPower.newEntry client device), ?_, ?_, ?_⟩
  · rw [Option.map_map]
    exact congrFun Option.map_id _
  · intro upower made
    obtain ⟨gdevice, -, rfl⟩ := Option.map_eq_some_iff.mp made
    exact newEntry_device client device gdevice
  · rw [← upowerFind_eq]
    exact (Option.some.inj found).symm

theorem nm_hits [DecidableEq Dev] [DecidableEq Ap] :
    Hits Nm.iface (nmLookup : Lookup (Daemon Dev Ap × Ids) Text (Nm Dev Ap)) := by
  intro answer queue iface nm hit
  have found : queue.find? (fun nm => nm.iface = iface) = some nm := hit
  simp only [nmLookup, nmFind, found]

theorem mm_hits : Hits Mm.iface (mmLookup : Lookup (Manager Modem) Text (Mm Modem)) := by
  intro manager queue iface mm hit
  simp only [mmLookup, mmFind, hit]

theorem upower_hits : Hits Upower.device (upowerLookup true : Lookup (Client Dev) Text (Upower Dev)) := by
  intro client queue device upower hit
  simp only [upowerLookup, if_true, upowerFind, hit]

theorem nm_wellKept [DecidableEq Dev] [DecidableEq Ap] :
    WellKept Nm.iface (nmLookup : Lookup (Daemon Dev Ap × Ids) Text (Nm Dev Ap)) :=
  fun _ _ run => represents_of_run nm_creates.finds nm_hits run

theorem mm_wellKept : WellKept Mm.iface (mmLookup : Lookup (Manager Modem) Text (Mm Modem)) :=
  fun _ _ run => represents_of_run mm_creates.finds mm_hits run

/-- Without a client there is never an entry. -/
theorem upower_unconnected {past : Past (List (Upower Dev)) (Client Dev × Text)} {queue : List (Upower Dev)}
    (run : Run (lookup (upowerLookup false)) [] past queue) : queue = [] := by
  refine run.invariant (fun _ _ => True) (fun queue => queue = []) rfl ?_ fun _ _ => trivial
  rintro before asked after rfl - looked
  exact (Option.some.inj looked).symm

theorem upower_wellKept (connected : Bool) :
    WellKept Upower.device (upowerLookup connected : Lookup (Client Dev) Text (Upower Dev)) := by
  intro past queue run
  cases connected with
  | false =>
    obtain rfl := upower_unconnected run
    refine ⟨Distinct.nil _, nofun, ?_, nofun⟩
    intro client device queue' failed
    exact (congrArg Prod.snd (Option.some.inj failed)).symm
  | true => exact represents_of_run upower_creates.finds upower_hits run

/-- A brightness is read for a name if the lookup is to create an entry, and the path leads to a device. -/
def backlightOwner (percent : Int → Int → Int) (answer : (Text → Option Attributes) × Bool) (name : Text) :
    Option Int := if answer.2 = false then none else readDevice percent answer.1 name

theorem backlight_creates (percent : Int → Int → Int) :
    CreatesFor Backlight.name Backlight.brightness (backlightOwner percent) (backlightLookup percent) := by
  intro answer queue name result found
  refine ⟨(backlightOwner percent answer name).map fun brightness => { name, brightness }, ?_, ?_, ?_⟩
  · rw [Option.map_map]
    exact congrFun Option.map_id _
  · intro backlight made
    obtain ⟨brightness, -, rfl⟩ := Option.map_eq_some_iff.mp made
    rfl
  · have created : (backlightOwner percent answer name).map (fun brightness => Backlight.mk name brightness) =
        if answer.2 = false then none
        else (readDevice percent answer.1 name).map fun brightness => { name, brightness } := by
      unfold backlightOwner
      split_ifs <;> rfl
    rw [created, ← backlightFind_eq]
    exact (Option.some.inj found).symm

theorem backlight_hits (percent : Int → Int → Int) : Hits Backlight.name (backlightLookup percent) := by
  intro answer queue name backlight hit
  simp only [backlightLookup, backlightFind, hit]

theorem backlight_wellKept (percent : Int → Int → Int) : WellKept Backlight.name (backlightLookup percent) :=
  fun _ _ run => represents_of_run (backlight_creates percent).finds (backlight_hits percent) run

/-- All four queues hold one entry for a key at most, in the order of their creation, and
change by a successful first lookup only; and an entry is made for a key that is not queued exactly
if the outside has something of that name. -/
theorem caches_wellKept [DecidableEq Dev] [DecidableEq Ap] (connected : Bool) (percent : Int → Int → Int) :
    WellKept Nm.iface (nmLookup : Lookup (Daemon Dev Ap × Ids) Text (Nm Dev Ap)) ∧
    WellKept Mm.iface (mmLookup : Lookup (Manager Modem) Text (Mm Modem)) ∧
    WellKept Upower.device (upowerLookup connected : Lookup (Client Dev) Text (Upower Dev)) ∧
    WellKept Backlight.name (backlightLookup percent) ∧
    (∀ sysfs queue name, (backlightFind percent sysfs false queue name).2 = queue) ∧
    CreatesFor Nm.iface Nm.device nmOwner (nmLookup : Lookup (Daemon Dev Ap × Ids) Text (Nm Dev Ap)) ∧
    CreatesFor Mm.iface Mm.modem Manager.owner (mmLookup : Lookup (Manager Modem) Text (Mm Modem)) ∧
    CreatesFor Upower.device Upower.gdevice (upowerOwner true)
      (upowerLookup true : Lookup (Client Dev) Text (Upower Dev)) ∧
    CreatesFor Backlight.name Backlight.brightness (backlightOwner percent) (backlightLookup percent) :=
  ⟨nm_wellKept, mm_wellKept, upower_wellKept connected, backlight_wellKept percent, backlightFind_keeps percent,
    nm_creates, mm_creates, upower_creates, backlight_creates percent⟩

/-- The name of the one device that each of the following has. -/
def device0 : Text := ⟨[0x30], by decide⟩

def wiredDevice : Daemon Unit Unit × Ids :=
  ({ byIface := fun iface => if iface = device0 then some () else none, isWifi := fun _ => false,
     state := fun _ => NM_DEVICE_STATE_ACTIVATED, ip4Config := fun _ => none, ip6Config := fun _ => none,
     activeAccessPoint := fun _ => none, ssid := fun _ => none, strength := fun _ => 0,
     ssidToUtf8 := fun _ => Text.empty }, ⟨1, 2, 3⟩)

def modemDevice : Manager Unit := ⟨[.modem () (some [device0])], fun _ => ⟨8, 50⟩⟩

def batteryDevice : Client Unit := ⟨[()], fun _ => device0, fun _ => ⟨2, none, 50, 2⟩⟩

def panelDevice : (Text → Option Attributes) × Bool :=
  (fun path => if path = backlightPath ++ device0 then some ⟨30, 60⟩ else none, true)

/-- The percentage of whole numbers, as the cast cuts it off. -/
def wholePercentage (brightness maxBrightness : Int) : Int := (100 * brightness).tdiv maxBrightness

/-- A queue to which a lookup has added an entry, and what it then is. -/
def KeptWithEntry {Entry Answer : Type*} (key : Entry → Text) (find : Lookup Answer Text Entry) : Prop :=
  ∃ past entry, Run (lookup find) [] past [entry] ∧ key entry = device0 ∧ Represents key find [entry]

theorem keptWithEntry_of_lookup {Entry Answer : Type*} {key : Entry → Text} {find : Lookup Answer Text Entry}
    (wellKept : WellKept key find) {answer : Answer} {entry : Entry}
    (made : lookup find [] (answer, device0) = some [entry]) (keyed : key entry = device0) :
    KeptWithEntry key find := by
  have run := Run.start.step (answer, device0) made
  exact ⟨_, entry, run, keyed, wellKept _ _ run⟩

theorem caches_wellKept_found :
    KeptWithEntry Nm.iface (nmLookup : Lookup (Daemon Unit Unit × Ids) Text (Nm Unit Unit)) ∧
    KeptWithEntry Mm.iface (mmLookup : Lookup (Manager Unit) Text (Mm Unit)) ∧
    KeptWithEntry Upower.device (upowerLookup true : Lookup (Client Unit) Text (Upower Unit)) ∧
    KeptWithEntry Backlight.name (backlightLookup wholePercentage) := by
  obtain ⟨nm, mm, upower, backlight, -⟩ := @caches_wellKept Unit Unit Unit _ _ true wholePercentage
  refine ⟨?_, ?_, ?_, ?_⟩
  · exact @keptWithEntry_of_lookup _ _ _ _ nm wiredDevice _ rfl rfl
  · exact @keptWithEntry_of_lookup _ _ _ _ mm modemDevice _ rfl rfl
  · exact @keptWithEntry_of_lookup _ _ _ _ upower batteryDevice _ rfl rfl
  · exact @keptWithEntry_of_lookup _ _ _ _ backlight panelDevice _ rfl rfl

end SlStatus.DeviceCaches
