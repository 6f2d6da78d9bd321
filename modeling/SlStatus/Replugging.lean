import SlStatus.DeviceCaches

/-! Devices that come and go in the daemon while they are looked up. No cache is told when an
object is removed, so an entry stays with the object it was made for. -/

namespace SlStatus.Replugging
open CString Runs Caches NetworkManager ModemManager UPower DeviceCaches

variable {Entry Key Answer Object Dev Ap Modem : Type*}

/-- After any lookups, with any changes in the daemon in between, the next one returns what
the daemon has for the key now. -/
def Follows (object : Entry → Object) (owner : Answer → Key → Option Object) (find : Lookup Answer Key Entry) : Prop :=
  ∀ past queue, Run (lookup find) [] past queue → ∀ answer k entry queue',
    find answer queue k = some (entry, queue') → entry.map object = owner answer k

/-- What it returns is bound to the owner that the first successful lookup of the key found,
which is the present owner as long as that has not changed. -/
def StaysWithFirst [DecidableEq Key] (object : Entry → Object) (owner : Answer → Key → Option Object)
    (find : Lookup Answer Key Entry) : Prop :=
  ∀ past queue, Run (lookup find) [] past queue → ∀ answer k entry queue',
    find answer queue k = some (entry, queue') →
      entry.map object = (firstOwner owner k past).or (owner answer k) ∧
      (entry.map object = owner answer k ↔ ∀ first ∈ firstOwner owner k past, owner answer k = some first)

theorem staysWithFirst [DecidableEq Key] {key : Entry → Key} {object : Entry → Object}
    {owner : Answer → Key → Option Object} {find : Lookup Answer Key Entry}
    (creates : CreatesFor key object owner find) : StaysWithFirst object owner find := by
  intro past queue run answer k entry queue' found
  have bound := object_of_lookup creates run found
  refine ⟨bound, ?_⟩
  rw [bound]
  cases firstOwner owner k past with
  | none => simp
  | some first => simp [eq_comm]

/-- Without a client no device owns anything. -/
theorem upower_unowned (k : Text) (past : Past (List (Upower Dev)) (Client Dev × Text)) :
    firstOwner (upowerOwner false) k past = none := by
  induction past with
  | nil => rfl
  | cons taken past ih => simp [firstOwner, ih, upowerOwner]

theorem upower_staysWithFirst (connected : Bool) :
    StaysWithFirst Upower.gdevice (upowerOwner connected)
      (upowerLookup connected : Lookup (Client Dev) Text (Upower Dev)) := by
  cases connected with
  | true => exact staysWithFirst upower_creates
  | false =>
    intro past queue run client k entry queue' found
    cases found
    rw [upower_unowned]
    simp [upowerOwner]

/-- In all three caches an entry is bound for good to the object that owned its key when it
was made. -/
theorem caches_stay_with_first [DecidableEq Dev] [DecidableEq Ap] (connected : Bool) :
    StaysWithFirst Nm.device nmOwner (nmLookup : Lookup (Daemon Dev Ap × Ids) Text (Nm Dev Ap)) ∧
    StaysWithFirst Mm.modem Manager.owner (mmLookup : Lookup (Manager Modem) Text (Mm Modem)) ∧
    StaysWithFirst Upower.gdevice (upowerOwner connected)
      (upowerLookup connected : Lookup (Client Dev) Text (Upower Dev)) :=
  ⟨staysWithFirst nm_creates, staysWithFirst mm_creates, upower_staysWithFirst connected⟩

/-- The key of a device that is taken out and put in again. -/
def port : Text := ⟨[0x70], by decide⟩

def wired (device : Option Bool) : Daemon Bool Unit × Ids :=
  ({ byIface := fun _ => device, isWifi := fun _ => false, state := fun _ => NM_DEVICE_STATE_ACTIVATED,
     ip4Config := fun _ => none, ip6Config := fun _ => none, activeAccessPoint := fun _ => none,
     ssid := fun _ => none, strength := fun _ => 0, ssidToUtf8 := fun _ => Text.empty }, ⟨1, 2, 3⟩)

def managing (modem : Option Bool) : Manager Bool :=
  ⟨modem.toList.map fun modem => .modem modem (some [port]), fun _ => ⟨8, 50⟩⟩

def powered (device : Option Bool) : Client Bool :=
  ⟨device.toList, fun _ => port, fun _ => ⟨2, none, 50, 2⟩⟩

/-- After one lookup of a key and the removal of its object, with nothing in its place and
with another object there, the lookup returns an entry of the object that is gone. -/
def Outlived (object : Entry → Bool) (daemon : Option Bool → Answer) (find : Lookup Answer Text Entry) : Prop :=
  ∃ past queue, Run (lookup find) [] past queue ∧
    (∃ entry, find (daemon none) queue port = some (some entry, queue) ∧ object entry = false) ∧
    ∃ entry, find (daemon (some true)) queue port = some (some entry, queue) ∧ object entry = false

theorem not_follows_of_outlived {object : Entry → Bool} {owner : Answer → Text → Option Bool}
    {daemon : Option Bool → Answer} {find : Lookup Answer Text Entry} (outlived : Outlived object daemon find)
    (owned : owner (daemon none) port = none) : ¬Follows object owner find := by
  obtain ⟨past, queue, run, ⟨entry, found, -⟩, -⟩ := outlived
  intro follows
  have bound := follows past queue run (daemon none) port (some entry) queue found
  rw [owned] at bound
  cases bound

theorem nm_outlived : Outlived Nm.device wired nmLookup :=
  ⟨_, _, .step (wired (some false), port) .start rfl, ⟨_, rfl, rfl⟩, ⟨_, rfl, rfl⟩⟩

theorem mm_outlived : Outlived Mm.modem managing mmLookup :=
  ⟨_, _, .step (managing (some false), port) .start rfl, ⟨_, rfl, rfl⟩, ⟨_, rfl, rfl⟩⟩

theorem upower_outlived : Outlived Upower.gdevice powered (upowerLookup true) :=
  ⟨_, _, .step (powered (some false), port) .start rfl, ⟨_, rfl, rfl⟩, ⟨_, rfl, rfl⟩⟩

/-- In all three caches. -/
theorem removed_objects_returned :
    (Outlived Nm.device wired nmLookup ∧
      ¬Follows Nm.device nmOwner (nmLookup : Lookup (Daemon Bool Unit × Ids) Text (Nm Bool Unit))) ∧
    (Outlived Mm.modem managing mmLookup ∧
      ¬Follows Mm.modem Manager.owner (mmLookup : Lookup (Manager Bool) Text (Mm Bool))) ∧
    (Outlived Upower.gdevice powered (upowerLookup true) ∧
      ¬Follows Upower.gdevice (upowerOwner true) (upowerLookup true : Lookup (Client Bool) Text (Upower Bool))) :=
  ⟨⟨nm_outlived, not_follows_of_outlived nm_outlived rfl⟩,
    ⟨mm_outlived, not_follows_of_outlived mm_outlived rfl⟩,
    ⟨upower_outlived, not_follows_of_outlived upower_outlived rfl⟩⟩

end SlStatus.Replugging
