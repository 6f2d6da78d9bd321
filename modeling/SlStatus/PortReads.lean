import Mathlib.Data.List.TakeWhile
import SlStatus.ModemManager

/-! Which ports `mm_find` reads. Its two variables are read for every object that the loop comes to,
whether or not that object has stored anything to them. -/

namespace SlStatus.PortReads
open CString Display Caches ModemManager

variable {Modem : Type*}

/-- The search, and the objects for which `ports` and `len` are read. -/
def portReads (iface : Text) : List (Object Modem) → Option (List Text) → Found Modem × List (Object Modem)
  | [], _ => (.missing, [])
  | object :: rest, ports =>
      match object.peekPorts.or ports with
      | none => (.undefined, [object])
      | some names =>
          if iface ∈ names then
            match object.getModem with
            | none => (.undefined, [object])
            | some modem => (.found modem, [object])
          else
            let (found, read) := portReads iface rest (some names)
            (found, object :: read)

theorem portReads_fst (iface : Text) (objects : List (Object Modem)) (ports : Option (List Text)) :
    (portReads iface objects ports).1 = portSearch iface objects ports := by
  induction objects generalizing ports with
  | nil => rfl
  | cons object rest ih =>
    unfold portReads portSearch
    cases object.peekPorts.or ports with
    | none => rfl
    | some names =>
      dsimp only
      split_ifs
      · cases object.getModem <;> rfl
      · exact ih (some names)

/-- The object has ports, and one of them is this. -/
def reports (iface : Text) (object : Object Modem) : Bool := object.peekPorts.any (iface ∈ ·)

/-- A lookup that is right: the ports are read only for objects that have stored them, and an entry is made
only for the modem of the first object that reports the port. -/
def Right (manager : Manager Modem) (queue : List (Mm Modem)) (iface : Text) : Prop :=
  (search Mm.iface queue iface = none →
      ∀ object ∈ (portReads iface manager.objects none).2, object.peekPorts.isSome = true) ∧
    mmFind manager queue iface =
      some (findOrCreate Mm.iface queue iface ((manager.owner iface).map (newEntry manager iface)))

/-- No object in front of the first that reports the port is without ports. -/
def Peekable (iface : Text) (objects : List (Object Modem)) : Prop :=
  ∀ object ∈ objects.takeWhile fun object => !reports iface object, object.peekPorts.isSome = true

section Front

variable {iface : Text} {object : Object Modem} {rest : List (Object Modem)} {names : List Text}

theorem peekable_reporting (stored : object.peekPorts = some names) (member : iface ∈ names) :
    Peekable iface (object :: rest) := by
  have here : reports iface object = true := by
    rw [reports, stored, Option.any_some, decide_eq_true member]
  unfold Peekable
  rw [List.takeWhile_cons_of_neg (by simp [here])]
  exact List.forall_mem_nil _

/-- An object that does not report the port is one of those in front. -/
theorem peekable_cons (absent : ∀ names ∈ object.peekPorts, iface ∉ names) :
    Peekable iface (object :: rest) ↔ object.peekPorts.isSome = true ∧ Peekable iface rest := by
  have silent : reports iface object = false := by
    cases stored : object.peekPorts with
    | none => rw [reports, stored, Option.any_none]
    | some names => rw [reports, stored, Option.any_some, decide_eq_false (absent names stored)]
  unfold Peekable
  rw [List.takeWhile_cons_of_pos (by simp [silent]), List.forall_mem_cons]

end Front

/-- The loop reads for the object that it starts with. -/
theorem portReads_head (iface : Text) (object : Object Modem) (rest : List (Object Modem))
    (ports : Option (List Text)) : object ∈ (portReads iface (object :: rest) ports).2 := by
  unfold portReads
  cases object.peekPorts.or ports with
  | none => exact List.mem_singleton_self object
  | some names =>
    dsimp only
    split_ifs
    · cases object.getModem <;> exact List.mem_singleton_self object
    · exact List.mem_cons_self ..

/-- Whatever an object in front has left, the reads tell the objects without ports from the others. -/
theorem portReads_assigned_iff (iface : Text) (objects : List (Object Modem)) (ports : Option (List Text)) :
    (∀ object ∈ (portReads iface objects ports).2, object.peekPorts.isSome = true) ↔ Peekable iface objects := by
  induction objects generalizing ports with
  | nil => exact iff_of_true (List.forall_mem_nil _) (List.forall_mem_nil _)
  | cons object rest ih =>
    cases stored : object.peekPorts with
    | none =>
      have read : object.peekPorts.isSome ≠ true := by simp [stored]
      rw [peekable_cons (by simp [stored])]
      exact iff_of_false (fun all => read (all object (portReads_head ..))) fun both => read both.1
    | some names =>
      unfold portReads
      rw [stored, Option.some_or]
      dsimp only
      by_cases member : iface ∈ names
      · refine iff_of_true ?_ (peekable_reporting stored member)
        rw [if_pos member]
        have single : ∀ examined ∈ [object], examined.peekPorts.isSome = true := by
          rw [List.forall_mem_singleton, stored, Option.isSome_some]
        cases object.getModem with
        | none => exact single
        | some modem => exact single
      · have absent := absent_of_stored member
        rw [if_neg member, peekable_cons (stored ▸ absent), List.forall_mem_cons, ih (some names)]

/-- A search whose reads all find what their objects have stored is never without ports. -/
theorem portReads_defined {iface : Text} {objects : List (Object Modem)} {ports : Option (List Text)}
    (assigned : ∀ object ∈ (portReads iface objects ports).2, object.peekPorts.isSome = true) :
    (portReads iface objects ports).1 ≠ .undefined := by
  induction objects generalizing ports with
  | nil =>
    intro same
    cases same
  | cons object rest ih =>
    obtain ⟨names, stored⟩ := Option.isSome_iff_exists.mp (assigned object (portReads_head ..))
    unfold portReads at assigned ⊢
    rw [stored, Option.some_or] at assigned ⊢
    dsimp only at assigned ⊢
    by_cases member : iface ∈ names
    · rw [if_pos member]
      cases object with
      | other => cases stored
      | modem object ports =>
        intro same
        cases same
    · rw [if_neg member] at assigned ⊢
      exact ih fun examined later => assigned examined (List.mem_cons_of_mem _ later)

theorem portSearch_defined {iface : Text} {objects : List (Object Modem)} (peekable : Peekable iface objects)
    (ports : Option (List Text)) : portSearch iface objects ports ≠ .undefined := by
  rw [← portReads_fst]
  exact portReads_defined ((portReads_assigned_iff iface objects ports).mpr peekable)

theorem mmFind_defined (manager : Manager Modem) (queue : List (Mm Modem)) {iface : Text}
    (known : (∃ mm, search Mm.iface queue iface = some mm) ∨ Peekable iface manager.objects) :
    ∃ result, mmFind manager queue iface = some result := by
  unfold mmFind
  cases hit : search Mm.iface queue iface with
  | some mm => exact ⟨_, rfl⟩
  | none =>
    rw [hit] at known
    have peekable : Peekable iface manager.objects := known.resolve_left fun ⟨mm, queued⟩ => by cases queued
    cases found : portSearch iface manager.objects none with
    | missing => exact ⟨_, rfl⟩
    | found modem => exact ⟨_, rfl⟩
    | undefined => exact absurd found (portSearch_defined peekable none)

/-- A lookup is right exactly where the port has an entry, or no object without ports comes before the one
that reports it. -/
theorem lookup_right_iff (manager : Manager Modem) (queue : List (Mm Modem)) (iface : Text) :
    Right manager queue iface ↔ (∃ mm ∈ queue, mm.iface = iface) ∨ Peekable iface manager.objects := by
  have assigned := portReads_assigned_iff iface manager.objects none
  cases hit : search Mm.iface queue iface with
  | some mm =>
    obtain ⟨member, same⟩ := search_eq_some hit
    refine iff_of_true ⟨fun absent => ?_, ?_⟩ (.inl ⟨mm, member, same⟩)
    · rw [hit] at absent
      cases absent
    · obtain ⟨result, found⟩ := mmFind_defined manager queue (.inl ⟨mm, hit⟩)
      rw [found, mmFind_eq found]
  | none =>
    have unqueued : ¬ ∃ mm ∈ queue, mm.iface = iface := by
      rintro ⟨mm, member, same⟩
      exact search_eq_none.mp hit mm member same
    rw [or_iff_right unqueued, ← assigned]
    constructor
    · intro right
      exact right.1 hit
    · intro reads
      obtain ⟨result, found⟩ := mmFind_defined manager queue (.inr (assigned.mp reads))
      exact ⟨fun _ => reads, by rw [found, mmFind_eq found]⟩

/-- `"ttyUSB0"`. -/
def portName : Text := ⟨[0x74, 0x74, 0x79, 0x55, 0x53, 0x42, 0x30], by decide⟩

/-- An object without a modem comes first. -/
def frontless : Manager Unit := ⟨[.other, .modem () (some [portName])], fun _ => ⟨11, 50⟩⟩

/-- It comes behind a modem with another port. -/
def leftOver : Manager Unit := ⟨[.modem () (some [stateName]), .other], fun _ => ⟨11, 50⟩⟩

/-- In front it makes the loop read what was never stored, behind the modem what is the modem's. -/
theorem ports_misread :
    (mmFind frontless [] portName = none ∧ ¬ Right frontless [] portName) ∧
      (portReads portName leftOver.objects none).2 = leftOver.objects ∧ ¬ Right leftOver [] portName := by
  refine ⟨⟨rfl, ?_⟩, rfl, ?_⟩
  · rintro ⟨-, result⟩
    cases result
  · rintro ⟨reads, -⟩
    have read : Object.other ∈ (portReads portName leftOver.objects none).2 := .tail _ (.head _)
    cases reads rfl .other read

end SlStatus.PortReads
