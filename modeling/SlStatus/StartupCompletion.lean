import SlStatus.StartupMessages

/-! `pa_init` uses nothing that is not there, misses no signal, and comes to its end once the context is decided. -/

namespace SlStatus.StartupCompletion
open Runs Monitors PulseAudio PulseStartup StartupObjects StartupMessages

section Uses

variable (s : State)

def UsesLoop : Prop := s.paLoop = true ∧ s.loop = true

/-- The context has its connection served by the loop. -/
def UsesContext : Prop := s.paCtx = true ∧ s.context ≠ none ∧ s.loop = true

/-- The thread of the loop is joined without the lock, and the loop is freed without the thread. -/
def AllowedCall : Call → Prop
  | .disconnect | .unref => UsesContext s ∧ s.monitor.holder = some .main
  | .unlock => UsesLoop s ∧ s.monitor.holder = some .main
  | .stop => UsesLoop s ∧ s.monitor.holder ≠ some .main ∧ s.running = true
  | .free => UsesLoop s ∧ s.monitor.holder ≠ some .main ∧ s.running = false
  | .clearContext | .clearLoop => True

/-- What the next statement of either thread uses is there, and the lock is held exactly where it has to be. -/
def Allowed : Prop :=
  (s.pending ≠ [] → s.monitor.holder ≠ none ∧ s.context ≠ none ∧ UsesLoop s) ∧
  match s.place with
  | .loopNew | .returned | .cleanUp [] | .paFree [] => True
  | .lock | .waiting => UsesLoop s ∧ s.monitor.holder ≠ some .main
  | .contextNew | .start | .check | .unlock => UsesLoop s ∧ s.monitor.holder = some .main
  | .setStateCallback | .connect | .getState => UsesContext s ∧ s.monitor.holder = some .main
  | .cleanUp (call :: _) | .paFree (call :: _) => AllowedCall s call

variable {s}

/-- The loop is freed after the lock is released and the thread is joined. -/
theorem loop_of_busy {place : Place} (proper : place.Proper) (busy : place.locked = true ∨ place.running = true) :
    place.paLoop = true ∧ place.loop = true := by
  cases place with
  | cleanUp calls =>
    cases calls with
    | nil => simp at busy
    | cons call calls =>
      have later : ∀ entry ∈ ahead, Call.unlock ∈ entry.1 :: entry.2 ∨ Call.stop ∈ entry.1 :: entry.2 →
          Call.clearLoop ∈ entry.1 :: entry.2 ∧ Call.free ∈ entry.1 :: entry.2 := by decide
      simp only [Place.locked, Place.running, Place.paLoop, Place.loop, decide_eq_true_eq] at busy ⊢
      exact later (call, calls) (mem_ahead proper) busy
  | paFree calls =>
    simp only [Place.Proper, List.suffix_cons_iff, List.suffix_nil] at proper
    obtain rfl | rfl | rfl := proper <;> simp at busy ⊢
  | loopNew => simp at busy
  | _ => exact ⟨rfl, rfl⟩

/-- Whoever holds the lock, the loop is there. -/
theorem usesLoop_of_held (placed : Placed s) (held : s.monitor.holder ≠ none) : UsesLoop s := by
  obtain ⟨thread, holder⟩ := Option.ne_none_iff_exists'.mp held
  rw [UsesLoop, placed.paLoop, placed.loop]
  apply loop_of_busy placed.proper
  cases thread with
  | main => exact .inl (placed.locked.mp holder)
  | loop => exact .inr (placed.running ▸ placed.inside holder)

theorem allowed (placed : Placed s) (called : Called s) : Allowed s := by
  constructor
  · intro started
    obtain ⟨held, there⟩ := called.held started
    exact ⟨held, there, usesLoop_of_held placed held⟩
  · obtain ⟨proper, locked, loop, paLoop, running, context, paCtx, inside, asleep, others⟩ := placed
    cases here : s.place with
    | cleanUp calls =>
      cases calls with
      | nil => trivial
      | cons call calls =>
        rw [here] at proper locked loop paLoop running context paCtx
        have listed := mem_ahead proper
        simp only [ahead, List.mem_cons, Prod.mk.injEq, List.not_mem_nil, or_false] at listed
        rcases listed with h|h|h|h|h|h|h|h|h|h|h <;> obtain ⟨rfl, rfl⟩ := h <;>
          simp_all [AllowedCall, UsesLoop, UsesContext, Option.isSome_iff_ne_none]
    | paFree calls =>
      cases calls with
      | nil => trivial
      | cons call calls =>
        simp only [here, Place.Proper, List.suffix_cons_iff, List.suffix_nil, List.cons.injEq, reduceCtorEq, or_false]
          at proper
        rcases proper with ⟨rfl, rfl⟩ | ⟨rfl, rfl⟩ <;>
          simp_all [AllowedCall, UsesLoop]
    | _ =>
      simp_all [UsesLoop, UsesContext, Option.isSome_iff_ne_none]

end Uses

section Progress

/-- The steps of the program itself; the thread of the loop does not come back for more. -/
def Own : Action → Prop
  | .main _ | .callback | .leave => True
  | _ => False

instance : DecidablePred Own := fun action => by cases action <;> unfold Own <;> infer_instance

/-- The flag is set, or about to be set. -/
def Decided (s : State) : Prop := s.paStateCallbackSignal = true ∨ .setSignal ∈ s.pending

variable {s s' : State}

theorem work_le (called : Called s) (placed : Placed s) (there : s.context ≠ none) : s.work ≤ 45 := by
  have place : s.place.work ≤ 13 := by
    have context := placed.context
    have proper := placed.proper
    cases here : s.place with
    | cleanUp calls =>
      rw [here] at proper
      obtain unmade | turned := proper
      · exact unmade.length_le.trans (by decide)
      · exact turned.length_le.trans (by decide)
    | paFree calls =>
      rw [here] at proper
      exact (List.IsSuffix.length_le proper).trans (by decide)
    | loopNew | lock | contextNew =>
      rw [here, Place.context, Option.isSome_eq_false_iff, Option.isNone_iff_eq_none] at context
      exact absurd context there
    | _ => decide
  have pending : s.pending.length ≤ 5 := called.pending.length_le
  unfold State.work
  split_ifs <;> omega

/-- A call brings in what a disconnection makes of the callback, and nothing else. -/
theorem call_keeps {call : Call} (called : s.call call = some s') :
    s'.paStateCallbackSignal = s.paStateCallbackSignal ∧
      (s'.monitor.holder = some .loop → s.monitor.holder = some .loop) ∧
      (s'.pending = s.pending ∨ s'.pending = [.setSignal, .signal]) := by
  cases call with
  | disconnect =>
    obtain ⟨rfl, -⟩ | ⟨state, -, -, rfl⟩ := disconnect_cases called
    · exact ⟨rfl, id, .inl rfl⟩
    · exact ⟨rfl, id, .inr rfl⟩
  | stop =>
    unfold State.call at called
    split_ifs at called
    cases called
    exact ⟨rfl, id, .inl rfl⟩
  | unlock =>
    cases called
    exact ⟨rfl, nofun, .inl rfl⟩
  | _ =>
    cases called
    exact ⟨rfl, id, .inl rfl⟩

theorem Decided.call {call : Call} (decided : Decided s) (called : s.call call = some s') (place : Place) :
    Decided { s' with place } := by
  obtain ⟨signalled, -, same | ended⟩ := call_keeps called
  · unfold Decided
    rwa [signalled, same]
  · right
    rw [ended]
    exact List.mem_cons_self

/-- A step of the main thread outweighs what it brings in. -/
theorem work_lt (nearer : s'.place.work < s.place.work) (pending : s'.pending.length ≤ s.pending.length + 2)
    (holder : s'.monitor.holder = some .loop → s.monitor.holder = some .loop) : s'.work < s.work := by
  unfold State.work
  split_ifs with after before before
  · omega
  · exact absurd (holder after) before
  · omega
  · omega

theorem work_call {call : Call} {place : Place} (called : s.call call = some s') (nearer : place.work < s.place.work) :
    { s' with place : State }.work < s.work := by
  obtain ⟨-, holder, pending⟩ := call_keeps called
  refine @work_lt s { s' with place } nearer ?_ holder
  obtain same | ended := pending
  · rw [show { s' with place : State }.pending = s.pending from same]
    exact Nat.le_add_right _ _
  · rw [show { s' with place : State }.pending = _ from ended]
    exact Nat.le_add_left _ _

theorem main_progress {ok : Bool} (placed : Placed s) (quiet : ¬(s.pending ≠ [] ∧ s.monitor.holder = some .main))
    (decided : Decided s) (moved : s.main ok = some s') : Decided s' ∧ s'.work < s.work := by
  unfold State.main at moved
  cases here : s.place with
  | cleanUp calls | paFree calls =>
    cases calls with
    | nil => simp only [here, reduceCtorEq] at moved
    | cons call calls =>
      simp only [here] at moved
      obtain ⟨after, called, rfl⟩ := Option.map_eq_some_iff.mp moved
      refine ⟨decided.call called _, work_call called ?_⟩
      rw [here]
      exact Nat.lt_succ_self _
  | lock | waiting =>
    simp only [here] at moved
    obtain ⟨monitor, acquired, rfl⟩ := Option.map_eq_some_iff.mp moved
    obtain ⟨available, awake, rfl⟩ := Monitor.acquire_eq_some.mp acquired
    exact ⟨decided, work_lt (by rw [here]; dsimp only; decide) (Nat.le_add_right _ _) nofun⟩
  | check =>
    have set : s.paStateCallbackSignal = true := by
      obtain set | later := decided
      · exact set
      · exact absurd ⟨List.ne_nil_of_mem later, placed.locked.mpr (by rw [here]; rfl)⟩ quiet
    simp only [here] at moved
    rw [if_pos set] at moved
    cases moved
    exact ⟨decided, work_lt (by rw [here]; dsimp only; decide) (Nat.le_add_right _ _) id⟩
  | getState =>
    simp only [here] at moved
    split_ifs at moved <;> cases moved <;>
      exact ⟨decided, work_lt (by rw [here]; dsimp only; decide) (Nat.le_add_right _ _) id⟩
  | setStateCallback =>
    simp only [here] at moved
    cases moved
    exact ⟨decided, work_lt (by rw [here]; dsimp only; decide) (Nat.le_add_right _ _) id⟩
  | unlock =>
    simp only [here] at moved
    cases moved
    exact ⟨decided, work_lt (by rw [here]; dsimp only; decide) (Nat.le_add_right _ _) nofun⟩
  | returned => simp only [here, reduceCtorEq] at moved
  | loopNew | contextNew | connect | start =>
    simp only [here] at moved
    cases ok <;> cases moved <;> exact ⟨decided, work_lt (by rw [here]; dsimp only; decide) (Nat.le_add_right _ _) id⟩

/-- Every step of the program brings the main thread nearer to its end. -/
theorem own_progress {action : Action} (own : Own action) (placed : Placed s) (decided : Decided s)
    (moved : step s action = some s') : Decided s' ∧ s'.work < s.work := by
  cases action with
  | main ok =>
    simp only [step] at moved
    split_ifs at moved with quiet
    exact main_progress placed quiet decided moved
  | callback =>
    simp only [step] at moved
    split at moved
    · cases moved
    · next statement pending now =>
      cases moved
      constructor
      · obtain set | later := decided
        · left
          cases statement <;> first | exact set | rfl
        · rw [now] at later
          obtain rfl | later := List.mem_cons.mp later
          · exact .inl rfl
          · exact .inr later
      · simp only [State.work, execute_place, execute_holder, now, List.length_cons]
        omega
  | leave =>
    simp only [step] at moved
    split_ifs at moved with inside
    cases moved
    exact ⟨decided, by simp [State.work, inside.1, inside.2]⟩
  | enter | change | stir | paFree => exact own.elim

theorem call_ne_none {call : Call} (outside : call = .stop → s.monitor.holder = none) : s.call call ≠ none := by
  cases call with
  | disconnect =>
    simp only [State.call]
    split
    · exact nofun
    · split_ifs <;> exact nofun
  | stop =>
    simp only [State.call]
    rw [if_pos (outside rfl)]
    exact nofun
  | _ => exact nofun

/-- The thread is joined without the lock. -/
theorem unlocked_of_stop {calls : List Call} (proper : (Place.cleanUp (.stop :: calls)).Proper) :
    (Place.cleanUp (.stop :: calls)).locked = false := by
  have later : ∀ entry ∈ ahead, entry.1 = .stop → Call.unlock ∉ entry.1 :: entry.2 := by decide
  exact decide_eq_false (later (.stop, calls) (mem_ahead proper) rfl)

theorem holder_eq_none (placed : Placed s) (unlocked : s.place.locked = false)
    (outside : s.monitor.holder ≠ some .loop) : s.monitor.holder = none := by
  cases holder : s.monitor.holder with
  | none => rfl
  | some thread =>
    cases thread with
    | main =>
      have locked := placed.locked.mp holder
      rw [unlocked] at locked
      cases locked
    | loop => exact absurd holder outside

/-- With the flag set, no callback under way and the loop outside the lock, the main thread goes on. -/
theorem main_ne_none (placed : Placed s) (called : Called s) (set : s.paStateCallbackSignal = true)
    (outside : s.monitor.holder ≠ some .loop) (under : s.place.finished = false) : s.main true ≠ none := by
  have free (unlocked : s.place.locked = false) := holder_eq_none placed unlocked outside
  unfold State.main
  cases here : s.place with
  | lock =>
    have available := free (by rw [here]; rfl)
    have awake := called.watched.awake available set
    simp [Monitor.acquire, available, awake]
  | waiting =>
    have available := free (by rw [here]; rfl)
    have awake := called.watched.awake available set
    simp [Monitor.acquire, available, awake]
  | cleanUp calls =>
    cases calls with
    | nil =>
      rw [here] at under
      cases under
    | cons call calls =>
      dsimp only
      rw [Ne, Option.map_eq_none_iff]
      apply call_ne_none
      rintro rfl
      exact free (here ▸ unlocked_of_stop (here ▸ placed.proper))
  | paFree calls =>
    cases calls with
    | nil =>
      rw [here] at under
      cases under
    | cons call calls =>
      dsimp only
      rw [Ne, Option.map_eq_none_iff]
      exact call_ne_none fun _ => free (by rw [here]; rfl)
  | returned =>
    rw [here] at under
    cases under
  | check | getState =>
    dsimp only
    split_ifs <;> exact nofun
  | _ => exact nofun

/-- Where no thread can go on by itself, the main thread is through. -/
theorem finished_of_stuck (placed : Placed s) (called : Called s) (decided : Decided s)
    (stuck : ∀ action, Own action → step s action = none) : s.place.finished = true := by
  have quiet : s.pending = [] := by
    have callback := stuck .callback trivial
    cases pending : s.pending with
    | nil => rfl
    | cons statement pending' => simp only [step, pending, reduceCtorEq] at callback
  have set : s.paStateCallbackSignal = true := by
    obtain set | later := decided
    · exact set
    · rw [quiet] at later
      cases later
  have outside : s.monitor.holder ≠ some .loop := by
    intro inside
    have leave := stuck .leave trivial
    simp only [step, if_pos (And.intro inside quiet), reduceCtorEq] at leave
  by_contra under
  have main := stuck (.main true) trivial
  simp only [step, if_neg (fun both : s.pending ≠ [] ∧ s.monitor.holder = some .main => both.1 quiet)] at main
  exact main_ne_none placed called set outside (Bool.not_eq_true _ |>.mp under) main

end Progress

/-- The main thread does not sleep with the lock. -/
theorem asleep_of_held {s : State} (placed : Placed s) (held : s.monitor.holder = some .main) :
    ¬s.monitor.asleep ≠ [] := by
  intro asleep
  obtain ⟨thread, member⟩ := List.exists_mem_of_ne_nil _ asleep
  cases thread with
  | main =>
    have locked := placed.locked.mp held
    rw [placed.asleep member] at locked
    cases locked
  | loop => exact placed.others member

theorem valid_of_run {past : Past State Action} {s : State} (run : Run step initial past s) : Placed s ∧ Called s :=
  run.invariant (fun _ _ => True) (fun s => Placed s ∧ Called s) ⟨placed_initial, called_initial⟩
    (fun _ _ _ valid _ moved => ⟨placed_step valid.1 moved, called_step valid.1 valid.2 moved⟩) fun _ _ => trivial

/-- Whatever the library does, and however the threads take turns: nothing is used that is not there, and the lock is
held where it has to be; no signal is missed; when `pa_init` returns, the connection was accepted and its requests have
been sent, or everything is given back; and once the context is decided, the threads bring `pa_init` to its end by
themselves. The context is left behind by `pa_free`. -/
theorem startup_of_run {past : Past State Action} {s : State} (run : Run step initial past s) :
    Allowed s ∧
    (s.paStateCallbackSignal = true → s.monitor.asleep ≠ [] →
      s.monitor.holder = some .loop ∧ .signal ∈ s.pending) ∧
    (s.place = .returned →
      UsesLoop s ∧ UsesContext s ∧ s.running = true ∧ s.monitor.holder ≠ some .main ∧ s.requests = paReady) ∧
    (s.place = .cleanUp [] →
      s.monitor.holder = none ∧ s.paLoop = false ∧ s.loop = false ∧ s.running = false ∧ s.paCtx = false ∧
        s.context = none) ∧
    (s.place = .paFree [] → s.monitor.holder = none ∧ s.loop = false ∧ s.running = false ∧ s.context ≠ none) ∧
    ∀ state, s.context = some state → state.decided = true → ∀ late s', Run step s late s' →
      Within (fun _ => Own) late →
        late.length ≤ 45 ∧ ((∀ action, Own action → step s' action = none) → s'.place.finished = true) := by
  obtain ⟨placed, called⟩ := valid_of_run run
  refine ⟨allowed placed called, ?_, ?_, ?_, ?_, ?_⟩
  · intro set asleep
    obtain ⟨thread, holder, owed⟩ := called.watched set asleep
    cases thread with
    | main => exact absurd asleep (asleep_of_held placed holder)
    | loop => exact ⟨holder, owed⟩
  · intro here
    have locked := placed.locked
    obtain ⟨sent, -, state, there, -⟩ := called.succeeded (by rw [here]; rfl)
    have loop : s.loop = true := by rw [placed.loop, here]; rfl
    refine ⟨⟨?_, loop⟩, ⟨?_, ?_, loop⟩, ?_, ?_, sent⟩
    · rw [placed.paLoop, here]
      rfl
    · rw [placed.paCtx, here]
      rfl
    · rw [there]
      exact nofun
    · rw [placed.running, here]
      rfl
    · rw [Ne, locked, here]
      exact Bool.false_ne_true
  · intro here
    have context : s.context.isSome = false := by rw [placed.context, here]; rfl
    have running : s.running = false := by rw [placed.running, here]; rfl
    have outside : s.monitor.holder ≠ some .loop := fun inside => by cases running.symm.trans (placed.inside inside)
    refine ⟨holder_eq_none placed (by rw [here]; rfl) outside, ?_, ?_, running, ?_, ?_⟩
    · rw [placed.paLoop, here]
      rfl
    · rw [placed.loop, here]
      rfl
    · rw [placed.paCtx, here]
      rfl
    · exact Option.isNone_iff_eq_none.mp (Option.isSome_eq_false_iff.mp context)
  · intro here
    have running : s.running = false := by rw [placed.running, here]; rfl
    have outside : s.monitor.holder ≠ some .loop := fun inside => by cases running.symm.trans (placed.inside inside)
    obtain ⟨-, -, state, there, -⟩ := called.succeeded (by rw [here]; rfl)
    refine ⟨holder_eq_none placed (by rw [here]; rfl) outside, ?_, running, ?_⟩
    · rw [placed.loop, here]
      rfl
    · rw [there]
      exact nofun
  · intro state there settled late s' course own
    have decided : Decided s := (called.decided state there).mpr settled
    obtain ⟨⟨placed', called', decided'⟩, bound⟩ := Run.bounded (fun _ => Own)
      (fun s => Placed s ∧ Called s ∧ Decided s) State.work ⟨placed, called, decided⟩
      (fun before action after valid own moved => by
        obtain ⟨kept, less⟩ := own_progress own valid.1 valid.2.2 moved
        exact ⟨⟨placed_step valid.1 moved, called_step valid.1 valid.2.1 moved, kept⟩, less⟩) course own
    constructor
    · exact (Nat.le_of_add_right_le bound).trans (work_le called placed (by rw [there]; exact nofun))
    · exact finished_of_stuck placed' called' decided'

/-- The main thread sleeps while the flag is set, after it woke up once for nothing, and the signal is still to come. -/
theorem startup_of_run_signalled :
    ∃ past s, Run step initial past s ∧ s.monitor.asleep = [.main] ∧ s.paStateCallbackSignal = true ∧
      s.monitor.holder = some .loop ∧ .signal ∈ s.pending := by
  obtain ⟨past, s, run, checked⟩ := exists_run step initial
    [.main true, .main true, .main true, .main true, .change .connecting, .main true, .main true, .main true, .enter,
      .change .authorizing, .leave, .stir, .main true, .main true, .enter, .change .ready, .callback, .callback,
      .callback, .callback]
    (fun _ s => decide (s.monitor.asleep = [.main] ∧ s.paStateCallbackSignal = true)) (by decide +kernel)
  obtain ⟨asleep, set⟩ := of_decide_eq_true checked
  obtain ⟨-, missed, -⟩ := startup_of_run run
  exact ⟨past, s, run, asleep, set, missed set (by rw [asleep]; exact List.cons_ne_nil _ _)⟩

end SlStatus.StartupCompletion
