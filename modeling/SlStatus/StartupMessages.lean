import SlStatus.StartupObjects

/-! What has become of the callback: the requests that were sent, the flag and the signal. -/

namespace SlStatus.StartupMessages
open Runs Monitors PulseAudio PulseStartup StartupObjects

/-- What the callback has done, and what it has still to do. -/
structure Called (s : State) : Prop where
  nothing : s.place.early = true → s.paStateCallbackSignal = false ∧ s.pending = [] ∧ s.requests = []
  pending : s.pending <:+ paStateCallback .ready
  held : s.pending ≠ [] → s.monitor.holder ≠ none ∧ s.context ≠ none
  watched : Watched (s.paStateCallbackSignal = true) (fun _ => .signal ∈ s.pending) s.monitor
  decided : ∀ state, s.context = some state →
    (s.paStateCallbackSignal = true ∨ .setSignal ∈ s.pending ↔ state.decided = true)
  early : ∀ state, s.context = some state → state.rank < 4 → s.requests = [] ∧ s.pending = []
  ready : s.context = some .ready → s.requests ++ sends s.pending = paReady
  late : ∀ state, s.context = some state → 4 < state.rank → sends s.pending = []
  succeeded : s.place.succeeded = true →
    s.requests = paReady ∧ sends s.pending = [] ∧ ∃ state, s.context = some state ∧ 4 ≤ state.rank

theorem called_initial : Called initial where
  nothing _ := ⟨rfl, rfl, rfl⟩
  pending := List.nil_suffix
  held := fun called => absurd rfl called
  watched := watched_free
  decided := nofun
  early := nofun
  ready := nofun
  late := nofun
  succeeded := nofun

section Main

variable {s s' : State}

/-- The step is not seen in the messages. -/
theorem Called.of_same (called : Called s) (signalled : s'.paStateCallbackSignal = s.paStateCallbackSignal)
    (pending : s'.pending = s.pending) (requests : s'.requests = s.requests) (context : s'.context = s.context)
    (early : s'.place.early = true → s.place.early = true)
    (held : s.pending ≠ [] → s'.monitor.holder ≠ none)
    (watched : Watched (s.paStateCallbackSignal = true) (fun _ => .signal ∈ s.pending) s'.monitor)
    (succeeded : s'.place.succeeded = true → s.place.succeeded = true ∨ (s.context = some .ready ∧ s.pending = [])) :
    Called s' where
  nothing := by
    rw [signalled, pending, requests]
    exact fun before => called.nothing (early before)
  pending := by
    rw [pending]
    exact called.pending
  held := by
    rw [pending, context]
    exact fun some => ⟨held some, (called.held some).2⟩
  watched := by
    rw [signalled, pending]
    exact watched
  decided := by
    rw [signalled, pending, context]
    exact called.decided
  early := by
    rw [pending, requests, context]
    exact called.early
  ready := by
    rw [pending, requests, context]
    exact called.ready
  late := by
    rw [pending, context]
    exact called.late
  succeeded := by
    rw [pending, requests, context]
    intro after
    obtain before | ⟨ready, quiet⟩ := succeeded after
    · exact called.succeeded before
    · have sent := called.ready ready
      rw [quiet] at sent ⊢
      exact ⟨(List.append_nil _).symm.trans sent, rfl, .ready, ready, le_rfl⟩

/-- Nor in the lock. -/
theorem Called.of_monitor (called : Called s) (monitor : s'.monitor = s.monitor)
    (signalled : s'.paStateCallbackSignal = s.paStateCallbackSignal) (pending : s'.pending = s.pending)
    (requests : s'.requests = s.requests) (context : s'.context = s.context)
    (early : s'.place.early = true → s.place.early = true)
    (succeeded : s'.place.succeeded = true → s.place.succeeded = true ∨ (s.context = some .ready ∧ s.pending = [])) :
    Called s' := by
  refine called.of_same signalled pending requests context early ?_ ?_ succeeded
  · rw [monitor]
    exact fun some => (called.held some).1
  · rw [monitor]
    exact called.watched

/-- A thread that has the lock, and is in no callback, gives it away. -/
theorem Called.of_quiet (called : Called s) (signalled : s'.paStateCallbackSignal = s.paStateCallbackSignal)
    (pending : s'.pending = s.pending) (requests : s'.requests = s.requests) (context : s'.context = s.context)
    (early : s'.place.early = true → s.place.early = true) (quiet : s.pending = [])
    (watched : Watched (s.paStateCallbackSignal = true) (fun _ => .signal ∈ s.pending) s'.monitor)
    (succeeded : s'.place.succeeded = true → s.place.succeeded = true ∨ (s.context = some .ready ∧ s.pending = [])) :
    Called s' :=
  called.of_same signalled pending requests context early (fun some => absurd quiet some) watched succeeded

theorem watched_release (called : Called s) (quiet : s.pending = []) :
    Watched (s.paStateCallbackSignal = true) (fun _ => .signal ∈ s.pending) s.monitor.release := by
  apply called.watched.release
  rw [quiet]
  exact fun _ _ => List.not_mem_nil

/-- The context goes forward, and the callback begins. -/
theorem called_change {place : Place} {state next : ContextState} (called : Called s) (there : s.context = some state)
    (forwards : state.rank < next.rank) (quiet : s.pending = []) (held : s.monitor.holder ≠ none)
    (early : place.early = false) (succeeded : place.succeeded = true → s.place.succeeded = true) :
    Called { s with place, context := some next, pending := paStateCallback next } where
  nothing before := absurd (early.symm.trans before) Bool.false_ne_true
  pending := paStateCallback_suffix next
  held _ := ⟨held, nofun⟩
  watched := called.watched.update (fun _ owed => absurd (quiet ▸ owed) List.not_mem_nil) .inl
  decided other same := by
    cases same
    rw [setSignal_mem, or_iff_right_iff_imp]
    intro signalled
    have before := (called.decided state there).mp (.inl signalled)
    simp only [ContextState.decided, decide_eq_true_eq] at before ⊢
    exact before.trans forwards.le
  early other same below := by
    cases same
    exact ⟨(called.early state there (forwards.trans below)).1, paStateCallback_of_lt below⟩
  ready same := by
    cases same
    rw [sends_ready, (called.early state there forwards).1, List.nil_append]
  late other same above := by
    cases same
    exact sends_of_lt above
  succeeded after := by
    obtain ⟨sent, -, before, same, reached⟩ := called.succeeded (succeeded after)
    cases there.symm.trans same
    exact ⟨sent, sends_of_lt (reached.trans_lt forwards), next, rfl, (reached.trans_lt forwards).le⟩

theorem called_cleanUp {call : Call} {calls : List Call} (placed : Placed s) (same : Called s)
    (here : s.place = .cleanUp (call :: calls)) (quiet : ¬(s.pending ≠ [] ∧ s.monitor.holder = some .main))
    (called : s.call call = some s') : Called { s' with place := .cleanUp calls } := by
  have proper := placed.proper
  rw [here] at proper
  have still (member : Call.unlock ∈ call :: calls) : s.pending = [] := by
    by_contra some
    apply quiet
    refine ⟨some, placed.locked.mpr ?_⟩
    rw [here]
    exact decide_eq_true member
  cases call with
  | disconnect =>
    have still := still (List.mem_cons_of_mem _ (unlock_mem proper (.inl rfl)))
    obtain ⟨rfl, -⟩ | ⟨state, there, good, rfl⟩ := disconnect_cases called
    · exact same.of_monitor rfl rfl rfl rfl rfl nofun nofun
    · have below : state.rank < 5 := by
        simp only [ContextState.good, Bool.and_eq_true, decide_eq_true_eq] at good
        exact Nat.lt_succ_of_le good.2
      have locked : s.monitor.holder = some .main :=
        placed.locked.mpr (by rw [here]; exact decide_eq_true (List.mem_cons_of_mem _ (unlock_mem proper (.inl rfl))))
      exact @called_change s (.cleanUp calls) state .terminated same there below still (by rw [locked]; nofun) rfl nofun
  | unref =>
    have still := still (List.mem_cons_of_mem _ (unlock_mem proper (.inr rfl)))
    cases called
    exact {
      nothing := nofun
      pending := same.pending
      held := fun some => absurd still some
      watched := same.watched
      decided := nofun
      early := nofun
      ready := nofun
      late := nofun
      succeeded := nofun }
  | unlock =>
    cases called
    have still := still List.mem_cons_self
    exact same.of_quiet rfl rfl rfl rfl nofun still (watched_release same still) nofun
  | clearContext | free | clearLoop =>
    cases called
    exact same.of_monitor rfl rfl rfl rfl rfl nofun nofun
  | stop =>
    unfold State.call at called
    split_ifs at called with available
    cases called
    exact same.of_monitor rfl rfl rfl rfl rfl nofun nofun

theorem called_paFree {call : Call} {calls : List Call} (placed : Placed s) (same : Called s)
    (here : s.place = .paFree (call :: calls)) (called : s.call call = some s') :
    Called { s' with place := .paFree calls } := by
  have proper := placed.proper
  simp only [here, Place.Proper, List.suffix_cons_iff, List.suffix_nil, List.cons.injEq, reduceCtorEq, or_false]
    at proper
  have before : s.place.succeeded = true := by rw [here]; rfl
  rcases proper with ⟨rfl, rfl⟩ | ⟨rfl, rfl⟩
  · unfold State.call at called
    split_ifs at called with available
    cases called
    exact same.of_monitor rfl rfl rfl rfl rfl nofun (fun _ => .inl before)
  · cases called
    exact same.of_monitor rfl rfl rfl rfl rfl nofun (fun _ => .inl before)

theorem called_main {ok : Bool} (placed : Placed s) (same : Called s)
    (quiet : ¬(s.pending ≠ [] ∧ s.monitor.holder = some .main)) (moved : s.main ok = some s') : Called s' := by
  have still (locked : s.place.locked = true) : s.pending = [] := by
    by_contra some
    exact quiet ⟨some, placed.locked.mpr locked⟩
  unfold State.main at moved
  cases here : s.place with
  | cleanUp calls =>
    cases calls with
    | nil => simp only [here, reduceCtorEq] at moved
    | cons call calls =>
      simp only [here] at moved
      obtain ⟨after, called, rfl⟩ := Option.map_eq_some_iff.mp moved
      exact called_cleanUp placed same here quiet called
  | paFree calls =>
    cases calls with
    | nil => simp only [here, reduceCtorEq] at moved
    | cons call calls =>
      simp only [here] at moved
      obtain ⟨after, called, rfl⟩ := Option.map_eq_some_iff.mp moved
      exact called_paFree placed same here called
  | lock =>
    simp only [here] at moved
    obtain ⟨monitor, acquired, rfl⟩ := Option.map_eq_some_iff.mp moved
    have watched := same.watched.acquire acquired
    obtain ⟨available, awake, rfl⟩ := Monitor.acquire_eq_some.mp acquired
    exact same.of_same rfl rfl rfl rfl (fun _ => by rw [here]; rfl) (fun _ => Option.some_ne_none _) watched nofun
  | waiting =>
    simp only [here] at moved
    obtain ⟨monitor, acquired, rfl⟩ := Option.map_eq_some_iff.mp moved
    have watched := same.watched.acquire acquired
    obtain ⟨available, awake, rfl⟩ := Monitor.acquire_eq_some.mp acquired
    exact same.of_same rfl rfl rfl rfl nofun (fun _ => Option.some_ne_none _) watched nofun
  | check =>
    simp only [here] at moved
    split_ifs at moved with signalled
    · cases moved
      exact same.of_monitor rfl rfl rfl rfl rfl nofun nofun
    · cases moved
      exact same.of_quiet rfl rfl rfl rfl nofun (still (by rw [here]; rfl)) (Watched.wait signalled) nofun
  | getState =>
    simp only [here] at moved
    split_ifs at moved with ready
    · cases moved
      exact same.of_monitor rfl rfl rfl rfl rfl nofun (fun _ => .inr ⟨ready, still (by rw [here]; rfl)⟩)
    · cases moved
      exact same.of_monitor rfl rfl rfl rfl rfl nofun nofun
  | setStateCallback =>
    simp only [here] at moved
    cases moved
    exact same.of_monitor rfl rfl rfl rfl rfl nofun nofun
  | unlock =>
    simp only [here] at moved
    cases moved
    have quiet := still (by rw [here]; rfl)
    exact same.of_quiet rfl rfl rfl rfl nofun quiet (watched_release same quiet) (fun _ => .inl (by rw [here]; rfl))
  | returned => simp only [here, reduceCtorEq] at moved
  | loopNew =>
    simp only [here] at moved
    cases ok <;> cases moved
    · exact same.of_monitor rfl rfl rfl rfl rfl nofun nofun
    · exact same.of_monitor rfl rfl rfl rfl rfl (fun _ => by rw [here]; rfl) nofun
  | contextNew =>
    simp only [here] at moved
    cases ok <;> cases moved
    · exact same.of_monitor rfl rfl rfl rfl rfl nofun nofun
    · obtain ⟨unset, quiet, unsent⟩ := same.nothing (by rw [here]; rfl)
      exact {
        nothing := nofun
        pending := same.pending
        held := fun some => absurd quiet some
        watched := same.watched
        decided := fun state new => by
          cases new
          simp [unset, quiet, ContextState.decided, ContextState.rank]
        early := fun _ _ _ => ⟨unsent, quiet⟩
        ready := nofun
        late := fun _ _ _ => by
          simp only [quiet]
          rfl
        succeeded := nofun }
  | connect | start =>
    simp only [here] at moved
    cases ok <;> cases moved <;> exact same.of_monitor rfl rfl rfl rfl rfl nofun nofun

@[simp] theorem execute_place (statement : Statement) : (s.execute statement).place = s.place := by
  cases statement <;> rfl

@[simp] theorem execute_context (statement : Statement) : (s.execute statement).context = s.context := by
  cases statement <;> rfl

@[simp] theorem execute_holder (statement : Statement) :
    (s.execute statement).monitor.holder = s.monitor.holder := by
  cases statement <;> rfl

theorem sent_execute (statement : Statement) (pending : List Statement) :
    (s.execute statement).requests ++ sends pending = s.requests ++ sends (statement :: pending) := by
  cases statement <;> simp [State.execute, sends]

theorem sends_cons (statement : Statement) (pending : List Statement) :
    sends (statement :: pending) = sends [statement] ++ sends pending := by
  change List.filterMap _ ([statement] ++ pending) = _
  exact List.filterMap_append

theorem requests_execute {statement : Statement} (silent : sends [statement] = []) :
    (s.execute statement).requests = s.requests := by
  have sent := @sent_execute s statement []
  rwa [silent, List.append_nil, show sends [] = [] from rfl, List.append_nil] at sent

/-- The signal comes after the flag. -/
theorem watched_execute {statement : Statement} {pending : List Statement} (same : Called s)
    (now : s.pending = statement :: pending) (held : s.monitor.holder ≠ none) :
    Watched ((s.execute statement).paStateCallbackSignal = true) (fun _ => .signal ∈ pending)
      (s.execute statement).monitor := by
  have watched := same.watched
  rw [now] at watched
  cases statement with
  | setSubscribeCallback | send request =>
    refine watched.update ?_ .inl
    intro thread owed
    exact (List.mem_cons.mp owed).resolve_left nofun
  | setSignal =>
    refine watched.update ?_ ?_
    · intro thread owed
      exact (List.mem_cons.mp owed).resolve_left nofun
    · intro _
      obtain ⟨thread, holder⟩ := Option.ne_none_iff_exists'.mp held
      refine .inr ⟨thread, holder, ?_⟩
      have behind := same.pending
      rw [now] at behind
      simp only [paStateCallback, paReady, List.map_cons, List.map_nil, List.cons_append, List.nil_append,
        List.suffix_cons_iff, List.suffix_nil, List.cons.injEq, reduceCtorEq, false_and, false_or, or_false,
        true_and] at behind
      rw [behind]
      exact List.mem_cons_self
  | signal => exact Watched.signal

/-- The callback goes on to its next statement. -/
theorem called_execute {statement : Statement} {pending : List Statement} (same : Called s)
    (now : s.pending = statement :: pending) : Called { s.execute statement with pending } := by
  have started : s.pending ≠ [] := now ▸ List.cons_ne_nil _ _
  obtain ⟨held, there⟩ := same.held started
  obtain ⟨state, there⟩ := Option.ne_none_iff_exists'.mp there
  have above : 4 ≤ state.rank := by
    by_contra below
    exact started (same.early state there (not_le.mp below)).2
  have silent (none : sends s.pending = []) : sends [statement] = [] ∧ sends pending = [] := by
    rw [now, sends_cons] at none
    exact List.append_eq_nil_iff.mp none
  exact {
    nothing := fun early => absurd (same.nothing (by rwa [← @execute_place s statement])).2.1 started
    pending := (List.suffix_cons _ _).trans (now ▸ same.pending)
    held := fun _ => ⟨by rwa [execute_holder], by rw [execute_context, there]; exact nofun⟩
    watched := watched_execute same now held
    decided := by
      simp only [execute_context, there, Option.some.injEq, forall_eq']
      have decided := (same.decided state there).mpr (decide_eq_true above)
      rw [now] at decided
      refine iff_of_true ?_ (decide_eq_true above)
      obtain set | later := decided
      · left
        cases statement <;> first | exact set | rfl
      · obtain rfl | later := List.mem_cons.mp later
        · exact .inl rfl
        · exact .inr later
    early := by
      simp only [execute_context, there, Option.some.injEq, forall_eq']
      exact fun below => absurd above (not_le.mpr below)
    ready := by
      rw [execute_context, sent_execute, ← now]
      exact same.ready
    late := by
      rw [execute_context]
      exact fun other here below => (silent (same.late other here below)).2
    succeeded := by
      rw [execute_place, execute_context]
      intro after
      obtain ⟨sent, none, reached⟩ := same.succeeded after
      rw [requests_execute (silent none).1]
      exact ⟨sent, (silent none).2, reached⟩ }

theorem called_step {action : Action} (placed : Placed s) (same : Called s) (moved : step s action = some s') :
    Called s' := by
  cases action <;> simp only [step] at moved
  case main ok =>
    split_ifs at moved with quiet
    exact called_main placed same quiet moved
  case callback =>
    split at moved
    · cases moved
    · next statement pending next =>
      cases moved
      exact called_execute same next
  case leave =>
    split_ifs at moved with inside
    cases moved
    exact same.of_quiet rfl rfl rfl rfl id inside.2 (watched_release same inside.2) .inl
  case enter =>
    split_ifs at moved with started
    obtain ⟨monitor, acquired, rfl⟩ := Option.map_eq_some_iff.mp moved
    have watched := same.watched.acquire acquired
    obtain ⟨available, awake, rfl⟩ := Monitor.acquire_eq_some.mp acquired
    exact same.of_same rfl rfl rfl rfl id (fun _ => Option.some_ne_none _) watched .inl
  case change next =>
    split at moved
    · cases moved
    · next state there =>
      split_ifs at moved with forwards
      cases moved
      obtain ⟨forwards, quiet, inside⟩ := forwards
      have held : s.monitor.holder ≠ none := by
        obtain loop | main := inside
        · rw [loop]
          exact Option.some_ne_none _
        · rw [main.1]
          exact Option.some_ne_none _
      have later : s.place.early = false := by
        have context := placed.context
        rw [there] at context
        cases here : s.place <;> simp [here, Place.context, Place.early] at context ⊢
      exact called_change same there forwards quiet held later id
  case stir =>
    cases moved
    exact same.of_same rfl rfl rfl rfl id (fun some => (same.held some).1) same.watched.stir .inl
  case paFree =>
    split_ifs at moved with ended there
    · cases moved
      obtain here | here := ended
      · exact same.of_monitor rfl rfl rfl rfl rfl (fun before => absurd before Bool.false_ne_true)
          (fun _ => .inl (by rw [here]; rfl))
      · rw [placed.paLoop, here] at there
        cases there
    · cases moved
      exact same

end Main

end SlStatus.StartupMessages
