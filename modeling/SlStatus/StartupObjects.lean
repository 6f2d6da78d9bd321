import SlStatus.PulseStartup

/-! What the place of the main thread tells about the objects and the lock. -/

namespace SlStatus.StartupObjects
open Runs Monitors PulseAudio PulseStartup

/-- The objects there are, and the lock, as far as the place of the main thread tells. -/
structure Placed (s : State) : Prop where
  proper : s.place.Proper
  locked : s.monitor.holder = some .main ↔ s.place.locked = true
  loop : s.loop = s.place.loop
  paLoop : s.paLoop = s.place.paLoop
  running : s.running = s.place.running
  context : s.context.isSome = s.place.context
  paCtx : s.paCtx = s.place.paCtx
  inside : s.monitor.holder = some .loop → s.running = true
  asleep : .main ∈ s.monitor.asleep → s.place = .waiting
  others : .loop ∉ s.monitor.asleep

theorem placed_initial : Placed initial where
  proper := trivial
  locked := by decide
  loop := rfl
  paLoop := rfl
  running := rfl
  context := rfl
  paCtx := rfl
  inside := nofun
  asleep := nofun
  others := List.not_mem_nil

section Main

variable {s s' : State}

/-- A connection is ended once. -/
theorem disconnect_cases (disconnected : s.call .disconnect = some s') :
    (s' = s ∧ ∀ state, s.context = some state → state.good = false) ∨
    (∃ state, s.context = some state ∧ state.good = true ∧
      s' = { s with context := some .terminated, pending := [.setSignal, .signal] }) := by
  unfold State.call at disconnected
  cases there : s.context with
  | none =>
    simp only [there, Option.some.injEq] at disconnected
    exact .inl ⟨disconnected.symm, nofun⟩
  | some state =>
    simp only [there] at disconnected
    split_ifs at disconnected with good
    · exact .inr ⟨state, rfl, good, (Option.some.inj disconnected).symm⟩
    · refine .inl ⟨(Option.some.inj disconnected).symm, ?_⟩
      rintro other same
      rwa [← Option.some.inj same, ← Bool.not_eq_true]

/-- Every call takes its own entry off what the list stands for. -/
theorem placed_cleanUp {call : Call} {calls : List Call} (placed : Placed s) (here : s.place = .cleanUp (call :: calls))
    (called : s.call call = some s') : Placed { s' with place := .cleanUp calls } := by
  obtain ⟨proper, locked, loop, paLoop, running, context, paCtx, inside, asleep, others⟩ := placed
  rw [here] at proper locked loop paLoop running context paCtx asleep
  have nodup := nodup_of_proper proper
  have rest := proper_tail proper
  simp only [Place.locked, Place.loop, Place.paLoop, Place.running, Place.context, Place.paCtx, List.mem_cons,
    List.nodup_cons, reduceCtorEq] at *
  cases call with
  | disconnect =>
    obtain ⟨rfl, -⟩ | ⟨state, there, -, rfl⟩ := disconnect_cases called
    · constructor <;> simp_all
    · constructor <;> simp_all
  | stop =>
    unfold State.call at called
    split_ifs at called with available
    cases called
    constructor <;> simp_all
  | _ =>
    cases called
    constructor <;> simp_all

theorem placed_paFree {call : Call} {calls : List Call} (placed : Placed s) (here : s.place = .paFree (call :: calls))
    (called : s.call call = some s') : Placed { s' with place := .paFree calls } := by
  obtain ⟨proper, locked, loop, paLoop, running, context, paCtx, inside, asleep, others⟩ := placed
  rw [here] at proper locked loop paLoop running context paCtx asleep
  simp only [Place.Proper, List.suffix_cons_iff, List.suffix_nil, List.cons.injEq, reduceCtorEq, or_false] at proper
  rcases proper with ⟨rfl, rfl⟩ | ⟨rfl, rfl⟩
  · unfold State.call at called
    split_ifs at called with available
    cases called
    constructor <;> simp_all
  · cases called
    constructor <;> simp_all

theorem placed_main {ok : Bool} (placed : Placed s) (moved : s.main ok = some s') : Placed s' := by
  have same := placed
  obtain ⟨proper, locked, loop, paLoop, running, context, paCtx, inside, asleep, others⟩ := placed
  unfold State.main at moved
  cases here : s.place with
  | cleanUp calls =>
    cases calls with
    | nil => simp only [here, reduceCtorEq] at moved
    | cons call calls =>
      simp only [here] at moved
      obtain ⟨after, called, rfl⟩ := Option.map_eq_some_iff.mp moved
      exact placed_cleanUp same here called
  | paFree calls =>
    cases calls with
    | nil => simp only [here, reduceCtorEq] at moved
    | cons call calls =>
      simp only [here] at moved
      obtain ⟨after, called, rfl⟩ := Option.map_eq_some_iff.mp moved
      exact placed_paFree same here called
  | lock | waiting =>
    simp only [here] at moved
    obtain ⟨monitor, acquired, rfl⟩ := Option.map_eq_some_iff.mp moved
    obtain ⟨available, awake, rfl⟩ := Monitor.acquire_eq_some.mp acquired
    constructor <;> simp_all
  | check | getState =>
    simp only [here] at moved
    split_ifs at moved <;> cases moved <;> constructor <;> simp_all [refused]
  | setStateCallback | unlock =>
    simp only [here] at moved
    cases moved
    constructor <;> simp_all
  | returned => simp only [here, reduceCtorEq] at moved
  | loopNew | contextNew | connect | start =>
    simp only [here] at moved
    cases ok <;> cases moved <;> constructor <;> simp_all [unstarted, List.suffix_cons_iff]

/-- What the callback does is seen in the messages only. -/
theorem placed_execute (placed : Placed s) (statement : Statement) (pending : List Statement) :
    Placed { s.execute statement with pending } := by
  obtain ⟨proper, locked, loop, paLoop, running, context, paCtx, inside, asleep, others⟩ := placed
  cases statement <;> constructor <;> simp_all [State.execute]

theorem placed_step {action : Action} (placed : Placed s) (moved : step s action = some s') : Placed s' := by
  have same := placed
  obtain ⟨proper, locked, loop, paLoop, running, context, paCtx, inside, asleep, others⟩ := placed
  cases action <;> simp only [step] at moved
  case main ok =>
    split_ifs at moved
    exact placed_main same moved
  case callback =>
    split at moved <;> cases moved
    exact placed_execute same _ _
  case leave =>
    split_ifs at moved with inside
    cases moved
    constructor <;> simp_all
  case enter =>
    split_ifs at moved with started
    obtain ⟨monitor, acquired, rfl⟩ := Option.map_eq_some_iff.mp moved
    obtain ⟨available, awake, rfl⟩ := Monitor.acquire_eq_some.mp acquired
    constructor <;> simp_all
  case change next =>
    split at moved
    · cases moved
    · split_ifs at moved with forwards
      cases moved
      constructor <;> simp_all
  case stir =>
    cases moved
    constructor <;> simp_all
  case paFree =>
    split_ifs at moved with ended there
    · cases moved
      obtain here | here := ended
      · constructor <;> simp_all
      · simp_all
    · cases moved
      exact same

end Main

end SlStatus.StartupObjects
