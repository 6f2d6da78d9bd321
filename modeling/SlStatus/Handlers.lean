import Mathlib.Data.List.Basic

/-! Handlers connected to the properties of objects, in the way of GObject: connecting gives
a number that is positive and not in use, and disconnecting asks for it back. -/

namespace SlStatus.Handlers

variable {Object Property : Type*}

structure Handler (Object Property : Type*) where
  id : UInt64
  object : Object
  property : Property
  deriving DecidableEq

abbrev Registry (Object Property : Type*) := List (Handler Object Property)

/-- A number that `connect` may give out next. -/
def Fresh (handlers : Registry Object Property) (id : UInt64) : Prop :=
  0 < id ∧ ∀ handler ∈ handlers, handler.id ≠ id

instance (handlers : Registry Object Property) (id : UInt64) : Decidable (Fresh handlers id) :=
  inferInstanceAs (Decidable (_ ∧ _))

def connect (handlers : Registry Object Property) (id : UInt64) (object : Object) (property : Property) :
    Registry Object Property := handlers ++ [⟨id, object, property⟩]

/-- The handlers of one property, of whatever object. -/
def watching [DecidableEq Property] (handlers : Registry Object Property) (property : Property) :
    Registry Object Property := handlers.filter fun handler => handler.property = property

variable [DecidableEq Object]

/-- Nothing happens unless the number is that of a handler of the object. -/
def disconnect (handlers : Registry Object Property) (object : Object) (id : UInt64) : Registry Object Property :=
  handlers.filter fun handler => ¬(handler.object = object ∧ handler.id = id)

/-- The handlers that are called when the property of the object changes. -/
def connected [DecidableEq Property] (handlers : Registry Object Property) (object : Object) (property : Property) :
    Registry Object Property := (watching handlers property).filter fun handler => handler.object = object

variable [DecidableEq Property]

omit [DecidableEq Object] in
theorem watching_connect_self (handlers : Registry Object Property) (id : UInt64) (object : Object)
    (property : Property) :
    watching (connect handlers id object property) property =
      watching handlers property ++ [⟨id, object, property⟩] := by
  rw [watching, connect, List.filter_append, List.filter_singleton]
  simp [watching]

omit [DecidableEq Object] in
theorem watching_connect_other (handlers : Registry Object Property) (id : UInt64) (object : Object)
    {property other : Property} (different : property ≠ other) :
    watching (connect handlers id object property) other = watching handlers other := by
  rw [watching, connect, List.filter_append, List.filter_singleton]
  simp [watching, different]

theorem watching_disconnect (handlers : Registry Object Property) (object : Object) (id : UInt64)
    (property : Property) :
    watching (disconnect handlers object id) property = disconnect (watching handlers property) object id :=
  List.filter_comm _ _ _

theorem connected_disconnect_other (handlers : Registry Object Property) {object other : Object} (id : UInt64)
    (property : Property) (different : other ≠ object) :
    connected (disconnect handlers object id) other property = connected handlers other property := by
  rw [connected, watching_disconnect, disconnect, List.filter_filter]
  apply List.filter_congr
  intro handler _
  by_cases same : handler.object = other
  · simp [same, different]
  · simp [same]

end SlStatus.Handlers
