import SlStatus.DeviceCaches
import SlStatus.Mirrors

/-! The entries of `upower_find` and `mm_find` as mirrors of what their objects say. -/

namespace SlStatus.DeviceMirrors
open CString Display Runs Caches Mirrors ModemManager UPower DeviceCaches

variable {Dev Modem : Type*}

inductive PowerProperty where
  | percentage | state
  deriving DecidableEq

abbrev PowerValue : PowerProperty → Type
  | .percentage => ℚ
  | .state => Int

/-- The callback finds the present values of the two properties that it reads. -/
def upowerWatcher : Watcher Dev Text (Upower Dev) PowerValue where
  name
    | .percentage => percentageName
    | .state => stateName
  object := Upower.gdevice
  cached upower
    | .percentage => upower.percentage
    | .state => upower.state
  callback values name upower :=
    (upowerDeviceCallback ⟨upower.kind, upower.model, values .percentage, values .state⟩ name upower).1

/-- A lookup finds the present values too. -/
def upowerRequest (values : Dev → (property : PowerProperty) → PowerValue property) (queue : List (Upower Dev))
    (request : Option (Client Dev) × Text) : Option (List (Upower Dev)) :=
  let client := request.1.map fun client =>
    { client with
      properties := fun gdevice =>
        { client.properties gdevice with
          percentage := values gdevice .percentage
          state := values gdevice .state } }
  some (upowerFind client queue request.2).2

inductive ModemProperty where
  | state | signalQuality
  deriving DecidableEq

abbrev ModemValue : ModemProperty → Type
  | .state => Int
  | .signalQuality => UInt32

def mmWatcher : Watcher Modem Text (Mm Modem) ModemValue where
  name
    | .state => stateName
    | .signalQuality => signalQualityName
  object := Mm.modem
  cached mm
    | .state => mm.state
    | .signalQuality => mm.sq
  callback values name mm := (mmModemCallback ⟨values .state, values .signalQuality⟩ name mm).1

def mmRequest (values : Modem → (property : ModemProperty) → ModemValue property) (queue : List (Mm Modem))
    (request : Manager Modem × Text) : Option (List (Mm Modem)) :=
  let manager := { request.1 with properties := fun modem => ⟨values modem .state, values modem .signalQuality⟩ }
  (mmFind manager queue request.2).map Prod.snd

/-- What the callback makes of an entry: the named field is read, all others stay. -/
theorem upowerDeviceCallback_eq (properties : UPower.Properties) (name : Text) (upower : Upower Dev) :
    (upowerDeviceCallback properties name upower).1 =
      { upower with
        percentage := if name = percentageName then properties.percentage else upower.percentage
        state := if name = stateName then properties.state else upower.state } := by
  have apart : percentageName ≠ stateName := by decide
  unfold upowerDeviceCallback
  split_ifs <;> simp_all

theorem mmModemCallback_eq (properties : ModemManager.Properties) (name : Text) (mm : Mm Modem) :
    (mmModemCallback properties name mm).1 =
      { mm with
        state := if name = stateName then properties.state else mm.state
        sq := if name = signalQualityName then properties.signalQuality else mm.sq } := by
  have apart : stateName ≠ signalQualityName := by decide
  unfold mmModemCallback
  split_ifs <;> simp_all

theorem upower_lawful : (upowerWatcher : Watcher Dev Text (Upower Dev) PowerValue).Lawful where
  object_callback values name upower := by
    simp only [upowerWatcher, upowerDeviceCallback_eq]
  cached_callback values name upower property := by
    simp only [upowerWatcher, upowerDeviceCallback_eq]
    cases property <;> dsimp only <;> split_ifs <;> simp
  cached_named values upower property := by
    simp only [upowerWatcher, upowerDeviceCallback_eq]
    cases property <;> simp

theorem mm_lawful : (mmWatcher : Watcher Modem Text (Mm Modem) ModemValue).Lawful where
  object_callback values name mm := by
    simp only [mmWatcher, mmModemCallback_eq]
  cached_callback values name mm property := by
    simp only [mmWatcher, mmModemCallback_eq]
    cases property <;> dsimp only <;> split_ifs <;> simp
  cached_named values mm property := by
    simp only [mmWatcher, mmModemCallback_eq]
    cases property <;> simp

/-- A successful search leaves the queue, and what is added to it was made from the present
values. -/
theorem copies_of_create {Object Name Property Entry Key : Type*} [DecidableEq Key] {Value : Property → Type*}
    {watcher : Watcher Object Name Entry Value} {values : Object → (property : Property) → Value property}
    {key : Entry → Key} {queue : List Entry} {k : Key} {created : Option Entry}
    (copied : ∀ entry ∈ created, ∀ property,
      watcher.cached entry property = values (watcher.object entry) property) :
    (findOrCreate key queue k created).2 = queue ∨ ∃ entry, (findOrCreate key queue k created).2 = queue ++ [entry] ∧
      ∀ property, watcher.cached entry property = values (watcher.object entry) property := by
  rcases findOrCreate_cases key queue k created with ⟨entry, -, -, hit⟩ | ⟨-, missed⟩
  · exact .inl (congrArg Prod.snd hit)
  · rw [missed]
    cases created with
    | none => exact .inl (List.append_nil queue)
    | some entry => exact .inr ⟨entry, rfl, copied entry rfl⟩

theorem upower_copies :
    Copies (upowerWatcher : Watcher Dev Text (Upower Dev) PowerValue) upowerRequest := by
  intro values queue request queue' found
  cases found
  cases request.1 with
  | none => exact .inl rfl
  | some client =>
    simp only [Option.map_some, upowerFind_eq]
    apply copies_of_create
    intro upower made property
    obtain ⟨gdevice, -, rfl⟩ := Option.map_eq_some_iff.mp made
    cases property <;> rfl

theorem mm_copies : Copies (mmWatcher : Watcher Modem Text (Mm Modem) ModemValue) mmRequest := by
  intro values queue request queue' found
  obtain ⟨result, looked, rfl⟩ := Option.map_eq_some_iff.mp found
  rw [mmFind_eq looked]
  apply copies_of_create
  intro mm made property
  obtain ⟨modem, -, rfl⟩ := Option.map_eq_some_iff.mp made
  cases property <;> rfl

/-- Over any course of lookups, changes, other notifications and dispatches, both caches hold
the present values except where a notification is still queued, and a notification changes
the named field of the entries of its object only. -/
theorem device_caches_mirror [DecidableEq Dev] [DecidableEq Modem] :
    Mirroring (upowerWatcher : Watcher Dev Text (Upower Dev) PowerValue) upowerRequest ∧
    Mirroring (mmWatcher : Watcher Modem Text (Mm Modem) ModemValue) mmRequest ∧
    (∀ values gdevice name (upower : Upower Dev), Mirrors.tell upowerWatcher values gdevice name upower =
      if upower.gdevice = gdevice then
        { upower with
          percentage := if name = percentageName then values gdevice .percentage else upower.percentage
          state := if name = stateName then values gdevice .state else upower.state }
      else upower) ∧
    ∀ values modem name (mm : Mm Modem), Mirrors.tell mmWatcher values modem name mm =
      if mm.modem = modem then
        { mm with
          state := if name = stateName then values modem .state else mm.state
          sq := if name = signalQualityName then values modem .signalQuality else mm.sq }
      else mm := by
  refine ⟨mirroring upower_lawful upower_copies, mirroring mm_lawful mm_copies, ?_, ?_⟩
  · intro values gdevice name upower
    simp only [Mirrors.tell, upowerWatcher, upowerDeviceCallback_eq]
  · intro values modem name mm
    simp only [Mirrors.tell, mmWatcher, mmModemCallback_eq]

/-- In some run the copy is behind its property by the one notification that is queued, and the dispatch of that
brings it up to date. -/
def Behind {Entry Request Property : Type*} [DecidableEq Property] {Value : Property → Type*}
    (watcher : Watcher Unit Text Entry Value) (find : Find Unit Entry Request Value)
    (values : Unit → (property : Property) → Value property) (property : Property) (old new : Value property) : Prop :=
  ∃ past s s', Run (Mirrors.step watcher find) ⟨values, [], []⟩ past s ∧
    s.notified = [((), watcher.name property)] ∧ s.values () property = new ∧
    s.queue.map (watcher.cached · property) = [old] ∧ Mirrored watcher s ∧
    Mirrors.step watcher find s .dispatch = some s' ∧ s'.notified = [] ∧
    s'.queue.map (watcher.cached · property) = [new] ∧ Mirrored watcher s'

def powerValues : Unit → (property : PowerProperty) → PowerValue property
  | _, .percentage => 50
  | _, .state => UP_DEVICE_STATE_DISCHARGING

def modemValues : Unit → (property : ModemProperty) → ModemValue property
  | _, .state => MM_MODEM_STATE_CONNECTED
  | _, .signalQuality => 60

theorem device_caches_mirror_behind :
    Behind upowerWatcher upowerRequest powerValues .percentage 50 40 ∧
    Behind mmWatcher mmRequest modemValues .signalQuality 60 20 := by
  obtain ⟨upower, mm, -, -⟩ := @device_caches_mirror Unit Unit _ _
  constructor
  · have run : Run (Mirrors.step upowerWatcher upowerRequest) ⟨powerValues, [], []⟩ _ _ :=
      (Run.start.step (.lookup (some batteryDevice, device0)) rfl).step (.change () .percentage 40) rfl
    have told := run.step .dispatch rfl
    exact ⟨_, _, _, run, rfl, rfl, rfl, upower _ _ _ _ run, rfl, rfl, by decide, upower _ _ _ _ told⟩
  · have run : Run (Mirrors.step mmWatcher mmRequest) ⟨modemValues, [], []⟩ _ _ :=
      (Run.start.step (.lookup (modemDevice, device0)) rfl).step (.change () .signalQuality 20) rfl
    have told := run.step .dispatch rfl
    exact ⟨_, _, _, run, rfl, rfl, rfl, mm _ _ _ _ run, rfl, rfl, by decide, mm _ _ _ _ told⟩

end SlStatus.DeviceMirrors
