import SlStatus.Caches
import SlStatus.Display

/-! `components/mm.c`. The search for a port declares its two variables outside the loop over
the objects and does not ask whether they were stored to. -/

namespace SlStatus.ModemManager
open CString Display Caches

variable {Modem : Type*}

def MM_MODEM_STATE_CONNECTED : Int := 11

/-- An object of the manager: it may have no modem, and the ports of a modem may not be there
to be peeked at. -/
inductive Object (Modem : Type*) where
  | other
  | modem (modem : Modem) (ports : Option (List Text))

/-- `mm_object_get_modem`. -/
def Object.getModem : Object Modem → Option Modem
  | .other => none
  | .modem object _ => some object

/-- What `mm_modem_peek_ports` stores; `none` where it fails and stores nothing. -/
def Object.peekPorts : Object Modem → Option (List Text)
  | .other => none
  | .modem _ ports => ports

structure Properties where
  state : Int
  signalQuality : UInt32
  deriving DecidableEq

/-- What libmm-glib answers. -/
structure Manager (Modem : Type*) where
  objects : List (Object Modem)
  properties : Modem → Properties

/-- `mm_t`. -/
structure Mm (Modem : Type*) where
  iface : Text
  modem : Modem
  state : Int
  sq : UInt32
  deriving DecidableEq

/-- `"signal-quality"`. -/
def signalQualityName : Text :=
  ⟨[0x73, 0x69, 0x67, 0x6E, 0x61, 0x6C, 0x2D, 0x71, 0x75, 0x61, 0x6C, 0x69, 0x74, 0x79], by decide⟩

/-- The second component tells whether `SIGRTMIN + MM_SIGNAL` is raised. -/
def mmModemCallback (properties : Properties) (name : Text) (mm : Mm Modem) : Mm Modem × Bool :=
  if name = stateName then
    if properties.state ≠ mm.state then ({ mm with state := properties.state }, true) else (mm, false)
  else if name = signalQualityName then
    if properties.signalQuality ≠ mm.sq then ({ mm with sq := properties.signalQuality }, true) else (mm, false)
  else (mm, false)

inductive Found (Modem : Type*) where
  | missing
  | undefined
  | found (modem : Modem)

/-- The loop over the objects, with what `ports` and `len` hold so far. -/
def portSearch (iface : Text) : List (Object Modem) → Option (List Text) → Found Modem
  | [], _ => .missing
  | object :: rest, ports =>
      match object.peekPorts.or ports with
      | none => .undefined
      | some names =>
          if iface ∈ names then
            match object.getModem with
            | none => .undefined
            | some modem => .found modem
          else portSearch iface rest (some names)

def newEntry (manager : Manager Modem) (iface : Text) (modem : Modem) : Mm Modem :=
  { iface, modem, state := (manager.properties modem).state, sq := (manager.properties modem).signalQuality }

/-- `none` where the ports are read before any were stored. -/
def mmFind (manager : Manager Modem) (queue : List (Mm Modem)) (iface : Text) :
    Option (Option (Mm Modem) × List (Mm Modem)) :=
  match search Mm.iface queue iface with
  | some mm => some (some mm, queue)
  | none =>
      match portSearch iface manager.objects none with
      | .undefined => none
      | .missing => some (none, queue)
      | .found modem =>
          let mm := newEntry manager iface modem
          some (some mm, queue ++ [mm])

/-- The display functions get what `mm_find` has returned. -/
def mmLine : Option (Mm Modem) → Option Text
  | none => none
  | some mm =>
      if mm.state = MM_MODEM_STATE_CONNECTED then
        some (pick [(25, icon 0xA2 0xBF (by decide)), (50, icon 0xA2 0xBC (by decide)),
          (70, icon 0xA2 0xBD (by decide))] (icon 0xA2 0xBE (by decide)) mm.sq)
      else none

def mmPerc : Option (Mm Modem) → Option Text
  | none => none
  | some mm => bprintf (decimal mm.sq.toNat)

/-- The modem of the first object that reports the port. -/
def reporting (iface : Text) (objects : List (Object Modem)) : Option Modem :=
  (objects.find? fun object => object.peekPorts.any (iface ∈ ·)).bind Object.getModem

def Manager.owner (manager : Manager Modem) (iface : Text) : Option Modem := reporting iface manager.objects

theorem reporting_here {iface : Text} {object : Object Modem} (rest : List (Object Modem)) {names : List Text}
    (stored : object.peekPorts = some names) (member : iface ∈ names) :
    reporting iface (object :: rest) = object.getModem := by
  simp only [reporting, List.find?_cons, stored, Option.any_some, member, decide_true, Option.bind_some]

theorem reporting_behind {iface : Text} {object : Object Modem} (rest : List (Object Modem))
    (absent : ∀ names ∈ object.peekPorts, iface ∉ names) :
    reporting iface (object :: rest) = reporting iface rest := by
  have reports : object.peekPorts.any (iface ∈ ·) = false := by
    cases stored : object.peekPorts with
    | none => rfl
    | some names => simp [absent names stored]
  simp only [reporting, List.find?_cons, reports]

theorem absent_of_stored {iface : Text} {names : List Text} (absent : iface ∉ names) :
    ∀ others ∈ some names, iface ∉ others := by
  rintro others ⟨⟩
  exact absent

/-- Ports left over from an object in front do not have the name, or the search would have
ended there. -/
theorem portSearch_eq (iface : Text) (objects : List (Object Modem)) (ports : Option (List Text))
    (left : ∀ names ∈ ports, iface ∉ names) :
    portSearch iface objects ports = .undefined ∨
      portSearch iface objects ports = (reporting iface objects).elim .missing .found := by
  induction objects generalizing ports with
  | nil => exact .inr rfl
  | cons object rest ih =>
    unfold portSearch
    cases stored : object.peekPorts with
    | none =>
      cases ports with
      | none => exact .inl rfl
      | some names =>
        rw [reporting_behind rest (by simp [stored])]
        simp only [Option.none_or, if_neg (left names rfl)]
        exact ih (some names) left
    | some names =>
      simp only [Option.some_or]
      by_cases member : iface ∈ names
      · right
        rw [reporting_here rest stored member, if_pos member]
        cases object with
        | other => cases stored
        | modem object ports => rfl
      · have absent := absent_of_stored member
        rw [reporting_behind rest (stored ▸ absent), if_neg member]
        exact ih (some names) absent

/-- A lookup that has a result finds the entry or makes one for the modem that reports the
port. -/
theorem mmFind_eq {manager : Manager Modem} {queue : List (Mm Modem)} {iface : Text}
    {result : Option (Mm Modem) × List (Mm Modem)} (found : mmFind manager queue iface = some result) :
    result = findOrCreate Mm.iface queue iface ((manager.owner iface).map (newEntry manager iface)) := by
  cases hit : search Mm.iface queue iface with
  | some mm =>
    simp only [mmFind, hit, Option.some.injEq] at found
    simp only [findOrCreate, hit, found]
  | none =>
    have unread : ∀ names ∈ (none : Option (List Text)), iface ∉ names := by simp
    rcases portSearch_eq iface manager.objects none unread with undefined | defined
    · simp only [mmFind, hit, undefined, reduceCtorEq] at found
    · cases owner : reporting iface manager.objects with
      | none =>
        simp only [mmFind, hit, defined, owner, Option.elim_none, Option.some.injEq] at found
        simp [findOrCreate, hit, ← found, Manager.owner, owner]
      | some modem =>
        simp only [mmFind, hit, defined, owner, Option.elim_some, Option.some.injEq] at found
        simp [findOrCreate, hit, ← found, Manager.owner, owner]

theorem mmModemCallback_iface (properties : Properties) (name : Text) (mm : Mm Modem) :
    (mmModemCallback properties name mm).1.iface = mm.iface := by
  unfold mmModemCallback
  split_ifs <;> rfl

end SlStatus.ModemManager
