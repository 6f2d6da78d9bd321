import Mathlib.Logic.Function.Basic
import SlStatus.Runs

/-! Entries that hold copies of the properties of objects. A change of a property queues a
notification with the property's name, and a notification is handed to the callback of every
entry of its object, which reads the property anew. -/

namespace SlStatus.Mirrors
open Runs

variable {Object Name Property Entry Request : Type*} {Value : Property → Type*}

/-- What the callback of an entry gets to see are the present values and a name. -/
structure Watcher (Object Name Entry : Type*) {Property : Type*} (Value : Property → Type*) where
  name : Property → Name
  object : Entry → Object
  cached : Entry → (property : Property) → Value property
  callback : ((property : Property) → Value property) → Name → Entry → Entry

/-- The callback reads the property that is named and leaves the others. -/
structure Watcher.Lawful (watcher : Watcher Object Name Entry Value) : Prop where
  object_callback : ∀ values name entry, watcher.object (watcher.callback values name entry) = watcher.object entry
  cached_callback : ∀ values name entry property,
    watcher.cached (watcher.callback values name entry) property = watcher.cached entry property ∨
      watcher.cached (watcher.callback values name entry) property = values property
  cached_named : ∀ values entry property,
    watcher.cached (watcher.callback values (watcher.name property) entry) property = values property

structure State (Object Name Entry : Type*) {Property : Type*} (Value : Property → Type*) where
  values : Object → (property : Property) → Value property
  queue : List Entry
  notified : List (Object × Name)

/-- A lookup does not run the main context, so nothing else happens during one. -/
inductive Step (Object Name Request : Type*) {Property : Type*} (Value : Property → Type*) where
  | lookup (request : Request)
  | change (object : Object) (property : Property) (value : Value property)
  | other (object : Object) (name : Name)
  | dispatch

/-- The queue after a lookup, by the values that the properties have. -/
abbrev Find (Object Entry Request : Type*) {Property : Type*} (Value : Property → Type*) :=
  (Object → (property : Property) → Value property) → List Entry → Request → Option (List Entry)

/-- A lookup adds an entry at most, with the values as they are. -/
def Copies (watcher : Watcher Object Name Entry Value) (find : Find Object Entry Request Value) : Prop :=
  ∀ values queue request queue', find values queue request = some queue' →
    queue' = queue ∨ ∃ entry, queue' = queue ++ [entry] ∧
      ∀ property, watcher.cached entry property = values (watcher.object entry) property

variable [DecidableEq Object] [DecidableEq Property]

/-- The handlers of the object are called with the name, one for each of its entries. -/
def tell (watcher : Watcher Object Name Entry Value) (values : Object → (property : Property) → Value property)
    (object : Object) (name : Name) (entry : Entry) : Entry :=
  if watcher.object entry = object then watcher.callback (values object) name entry else entry

def step (watcher : Watcher Object Name Entry Value) (find : Find Object Entry Request Value)
    (s : State Object Name Entry Value) : Step Object Name Request Value → Option (State Object Name Entry Value)
  | .lookup request => (find s.values s.queue request).map fun queue => { s with queue }
  | .change object property value =>
      some { s with
        values := Function.update s.values object (Function.update (s.values object) property value)
        notified := s.notified ++ [(object, watcher.name property)] }
  | .other object name => some { s with notified := s.notified ++ [(object, name)] }
  | .dispatch =>
      match s.notified with
      | [] => none
      | (object, name) :: rest =>
          some { s with queue := s.queue.map (tell watcher s.values object name), notified := rest }

/-- Every copy is up to date or its notification is still to come. -/
def Mirrored (watcher : Watcher Object Name Entry Value) (s : State Object Name Entry Value) : Prop :=
  ∀ entry ∈ s.queue, ∀ property, (watcher.object entry, watcher.name property) ∈ s.notified ∨
    watcher.cached entry property = s.values (watcher.object entry) property

theorem mirrored_of_change {watcher : Watcher Object Name Entry Value} {s : State Object Name Entry Value}
    (mirrored : Mirrored watcher s) (object : Object) (property : Property) (value : Value property) :
    Mirrored watcher
      { s with
        values := Function.update s.values object (Function.update (s.values object) property value)
        notified := s.notified ++ [(object, watcher.name property)] } := by
  intro entry member copied
  by_cases own : watcher.object entry = object
  · by_cases same : copied = property
    · subst own same
      exact .inl (List.mem_append_right _ (List.mem_singleton_self _))
    · apply (mirrored entry member copied).imp (List.mem_append_left _)
      intro kept
      dsimp only
      rw [own, Function.update_self, Function.update_of_ne same, ← own, kept]
  · apply (mirrored entry member copied).imp (List.mem_append_left _)
    intro kept
    dsimp only
    rw [Function.update_of_ne own, kept]

omit [DecidableEq Property] in
theorem mirrored_of_dispatch {watcher : Watcher Object Name Entry Value} (lawful : watcher.Lawful)
    {s : State Object Name Entry Value} {object : Object} {name : Name} {rest : List (Object × Name)}
    (mirrored : Mirrored watcher s) (first : s.notified = (object, name) :: rest) :
    Mirrored watcher { s with queue := s.queue.map (tell watcher s.values object name), notified := rest } := by
  intro told toldMember property
  obtain ⟨entry, member, rfl⟩ := List.mem_map.mp toldMember
  have before := mirrored entry member property
  rw [first, List.mem_cons] at before
  unfold tell
  split_ifs with own
  · rw [lawful.object_callback]
    rcases before with (here | later) | kept
    · right
      rw [← (Prod.mk.inj here).2, lawful.cached_named, own]
    · exact .inl later
    · right
      rcases lawful.cached_callback (s.values object) name entry property with same | read
      · rw [same, kept]
      · rw [read, own]
  · rcases before with (here | later) | kept
    · exact absurd (Prod.mk.inj here).1 own
    · exact .inl later
    · exact .inr kept

theorem mirrored_of_step {watcher : Watcher Object Name Entry Value} (lawful : watcher.Lawful)
    {find : Find Object Entry Request Value} (copies : Copies watcher find) {s s' : State Object Name Entry Value}
    {label : Step Object Name Request Value} (mirrored : Mirrored watcher s)
    (taken : step watcher find s label = some s') : Mirrored watcher s' := by
  cases label with
  | lookup request =>
    obtain ⟨queue, found, rfl⟩ := Option.map_eq_some_iff.mp taken
    rcases copies _ _ _ _ found with rfl | ⟨entry, rfl, copied⟩
    · exact mirrored
    · intro other member property
      rcases List.mem_append.mp member with before | new
      · exact mirrored other before property
      · rw [List.mem_singleton.mp new]
        exact .inr (copied property)
  | change object property value =>
    cases taken
    exact mirrored_of_change mirrored object property value
  | other object name =>
    cases taken
    exact fun entry member property => (mirrored entry member property).imp_left (List.mem_append_left _)
  | dispatch =>
    cases first : s.notified with
    | nil => simp [step, first] at taken
    | cons notification rest =>
      simp only [step, first, Option.some.injEq] at taken
      subst taken
      exact mirrored_of_dispatch lawful mirrored first

/-- From the empty queue on, whatever the properties are and whatever is queued already. -/
def Mirroring (watcher : Watcher Object Name Entry Value) (find : Find Object Entry Request Value) : Prop :=
  ∀ values notified past s, Run (step watcher find) ⟨values, [], notified⟩ past s → Mirrored watcher s

theorem mirroring {watcher : Watcher Object Name Entry Value} (lawful : watcher.Lawful)
    {find : Find Object Entry Request Value} (copies : Copies watcher find) : Mirroring watcher find := by
  intro values notified past s run
  refine run.invariant (fun _ _ => True) (Mirrored watcher) ?_ ?_ fun _ _ => trivial
  · exact fun entry member => absurd member List.not_mem_nil
  · intro before label after mirrored _ taken
    exact mirrored_of_step lawful copies mirrored taken

end SlStatus.Mirrors
