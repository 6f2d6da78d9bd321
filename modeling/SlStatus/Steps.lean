import SlStatus.MainLoop

/-! Everything a step of the machine can do, one case per branch of the source, and the
facts that every later argument about runs starts from. -/

namespace SlStatus.Steps
open CString Util Table Printstatus Runs MainLoop

variable {Comp σ : Type*} {cfg : Config Comp} [DecidableEq Comp]

inductive Move (options : Options) : State cfg σ → Label cfg σ → State cfg σ → Prop where
  | handled {s : State cfg σ} {signo : Int} (handled : Handled signo) (running : ¬s.pc.Ended)
      (awake : ∀ interrupted, s.pc ≠ .asleep interrupted) :
      Move options s (.signal signo) { s with upsigno := signo, errno := 0 }
  | handledAsleep {s : State cfg σ} {signo : Int} {interrupted : Bool} (handled : Handled signo)
      (here : s.pc = .asleep interrupted) :
      Move options s (.signal signo) { s with upsigno := signo, errno := 0, pc := .asleep true }
  | ending {s : State cfg σ} {signo : Int} (ends : signo = SIGINT ∨ signo = SIGTERM) (running : ¬s.pc.Ended)
      (awake : ∀ interrupted, s.pc ≠ .asleep interrupted) :
      Move options s (.signal signo) { s with done := true }
  | endingAsleep {s : State cfg σ} {signo : Int} {interrupted : Bool} (ends : signo = SIGINT ∨ signo = SIGTERM)
      (here : s.pc = .asleep interrupted) :
      Move options s (.signal signo) { s with done := true, pc := .asleep true }
  | outside {s : State cfg σ} {components : Comp → σ} (running : ¬s.pc.Ended) :
      Move options s (.outside components) { s with components := components }
  | setup {s : State cfg σ} {env : Env cfg σ} (here : s.pc = .setup) :
      Move options s (.main env) { s with errno := env.errno, pc := .tick }
  | tick {s : State cfg σ} {env : Env cfg σ} (here : s.pc = .tick) :
      Move options s (.main env) { s with errno := env.errno, pc := .clockStart }
  | clockStart {s : State cfg σ} {env : Env cfg σ} (here : s.pc = .clockStart) :
      Move options s (.main env) { s with start := env.now, pc := .call }
  | clockDies {s : State cfg σ} {env : Env cfg σ} (here : s.pc = .clockStart ∨ s.pc = .clockCurrent)
      (fails : env.fails = true) : Move options s (.main env) { s with pc := .died "clock_gettime:" }
  | call {s : State cfg σ} {env : Env cfg σ} (here : s.pc = .call) :
      Move options s (.main env) { s with iter := s.iter + 1, pc := .test .timer s.iter cfg.rows }
  | testEnd {s : State cfg σ} {env : Env cfg σ} {caller : Caller} {iter : UInt32}
      (here : s.pc = .test caller iter []) : Move options s (.main env) { s with pc := .clear caller iter }
  | select {s : State cfg σ} {env : Env cfg σ} {caller : Caller} {iter : UInt32} {i : Row cfg}
      {rest : List (Row cfg)} (here : s.pc = .test caller iter (i :: rest))
      (chosen : selected iter s.upsigno (cfg.arg i) = true) :
      Move options s (.main env) { s with pc := .eval caller iter i rest }
  | skip {s : State cfg σ} {env : Env cfg σ} {caller : Caller} {iter : UInt32} {i : Row cfg}
      {rest : List (Row cfg)} (here : s.pc = .test caller iter (i :: rest))
      (skipped : ¬selected iter s.upsigno (cfg.arg i) = true) :
      Move options s (.main env) { s with pc := .test caller iter rest }
  | evalFits {s : State cfg σ} {env : Env cfg σ} {caller : Caller} {iter : UInt32} {i : Row cfg}
      {rest : List (Row cfg)} (here : s.pc = .eval caller iter i rest) (fits : Fits cfg i env.res) :
      Move options s (.main env)
        { s with
          errno := env.errno
          components := Function.update s.components (cfg.arg i).func env.component
          statuses := (evaluate cfg s.statuses i env.res).1
          pc := .test caller iter rest }
  | evalBreak {s : State cfg σ} {env : Env cfg σ} {caller : Caller} {iter : UInt32} {i : Row cfg}
      {rest : List (Row cfg)} (here : s.pc = .eval caller iter i rest) (unfit : ¬Fits cfg i env.res) :
      Move options s (.main env)
        { s with
          errno := env.errno
          components := Function.update s.components (cfg.arg i).func env.component
          statuses := (evaluate cfg s.statuses i env.res).1
          pc := .clear caller iter }
  | clear {s : State cfg σ} {env : Env cfg σ} {caller : Caller} {iter : UInt32}
      (here : s.pc = .clear caller iter) :
      Move options s (.main env) { s with upsigno := 0, pc := .publish caller iter }
  | publishFault {s : State cfg σ} {env : Env cfg σ} {caller : Caller} {iter : UInt32}
      (here : s.pc = .publish caller iter) (outside : buildLine cfg env.stack s.statuses = none) :
      Move options s (.main env) { s with pc := .fault }
  | publishDies {s : State cfg σ} {env : Env cfg σ} {caller : Caller} {iter : UInt32} {message : String}
      (here : s.pc = .publish caller iter) (fails : env.fails = true) (other : message ≠ "nanosleep:") :
      Move options s (.main env) { s with pc := .died message }
  | publish {s : State cfg σ} {env : Env cfg σ} (caller : Caller) {iter : UInt32} {line : List Byte}
      (here : s.pc = .publish caller iter) (built : buildLine cfg env.stack s.statuses = some line)
      (guard : options.Sflag = true ∨ iter ≠ 0) :
      Move options s (.main env)
        { s with errno := env.errno, published := line :: s.published, pc := returnTo caller }
  | publishSkip {s : State cfg σ} {env : Env cfg σ} (caller : Caller) {iter : UInt32}
      (here : s.pc = .publish caller iter) (guard : ¬(options.Sflag = true ∨ iter ≠ 0)) :
      Move options s (.main env) { s with pc := returnTo caller }
  | doneTest {s : State cfg σ} {env : Env cfg σ} (here : s.pc = .doneTest) :
      Move options s (.main env) { s with pc := if s.done then .loopTest else .clockCurrent }
  | clockCurrent {s : State cfg σ} {env : Env cfg σ} (here : s.pc = .clockCurrent) :
      Move options s (.main env) { s with wait := waitFor cfg s.start env.now, pc := .waitTest }
  | waitTest {s : State cfg σ} {env : Env cfg σ} (here : s.pc = .waitTest) :
      Move options s (.main env) { s with pc := if s.wait.tvSec ≥ 0 then .asleep false else .afterWait }
  | sleepOver {s : State cfg σ} {env : Env cfg σ} (here : s.pc = .asleep false) :
      Move options s (.main env) { s with ret := 0, pc := .retTest }
  | sleepInterrupted {s : State cfg σ} {env : Env cfg σ} (here : s.pc = .asleep true)
      (remains : env.rem.tvSec ≥ 0) :
      Move options s (.main env) { s with wait := env.rem, ret := -1, errno := EINTR, pc := .retTest }
  | retTest {s : State cfg σ} {env : Env cfg σ} (here : s.pc = .retTest) :
      Move options s (.main env) { s with pc := if s.ret < 0 then .errnoTest else .afterWait }
  | errnoTest {s : State cfg σ} {env : Env cfg σ} (here : s.pc = .errnoTest) :
      Move options s (.main env) { s with pc := if s.errno = EINTR then .wakeDoneTest else .afterWait }
  | wakeDoneTest {s : State cfg σ} {env : Env cfg σ} (here : s.pc = .wakeDoneTest) :
      Move options s (.main env) { s with pc := if s.done then .afterWait else .test .wakeup 0 cfg.rows }
  | reset {s : State cfg σ} {env : Env cfg σ} (here : s.pc = .reset) :
      Move options s (.main env) { s with upsigno := 0, errno := 0, pc := .waitTest }
  | afterWait {s : State cfg σ} {env : Env cfg σ} (here : s.pc = .afterWait) :
      Move options s (.main env)
        { s with pc := if s.ret < 0 ∧ s.errno ≠ EINTR then .died "nanosleep:" else .loopTest }
  | loopTest {s : State cfg σ} {env : Env cfg σ} (here : s.pc = .loopTest) :
      Move options s (.main env) { s with pc := if s.done then .teardown else .tick }
  | teardown {s : State cfg σ} {env : Env cfg σ} (here : s.pc = .teardown) :
      Move options s (.main env) { s with pc := .close }
  | closeDies {s : State cfg σ} {env : Env cfg σ} (here : s.pc = .close) (fails : env.fails = true) :
      Move options s (.main env) { s with pc := .died "XCloseDisplay: Failed to close display" }
  | close {s : State cfg σ} {env : Env cfg σ} (here : s.pc = .close) :
      Move options s (.main env) { s with pc := .exited }

theorem not_handled_of_ending {signo : Int} (ends : signo = SIGINT ∨ signo = SIGTERM) : ¬Handled signo := by
  rcases ends with rfl | rfl <;> decide

theorem zero_ne_EINTR : (0 : Int) ≠ EINTR := by decide

omit [DecidableEq Comp] in
theorem interrupt_awake {pc : Pc cfg} (awake : ∀ interrupted, pc ≠ .asleep interrupted) : pc.interrupt = pc := by
  cases pc with
  | asleep interrupted => exact absurd rfl (awake interrupted)
  | _ => rfl

theorem move_of_signal {options : Options} {s s' : State cfg σ} {signo : Int}
    (taken : step options s (.signal signo) = some s') : Move options s (.signal signo) s' := by
  simp only [step] at taken
  split_ifs at taken with enabled
  cases taken
  by_cases sleeping : ∃ interrupted, s.pc = .asleep interrupted
  · obtain ⟨interrupted, here⟩ := sleeping
    by_cases kind : Handled signo
    · have move : Move options s _ _ := .handledAsleep kind here
      simpa only [sighandler, if_pos kind, here, Pc.interrupt] using move
    · have ends := (or_assoc.mpr enabled.1).resolve_right kind
      have move : Move options s _ _ := .endingAsleep ends here
      simpa only [sighandler, if_neg kind, here, Pc.interrupt] using move
  · have awake : ∀ interrupted, s.pc ≠ .asleep interrupted := not_exists.mp sleeping
    rw [interrupt_awake awake]
    by_cases kind : Handled signo
    · have move : Move options s _ _ := .handled kind enabled.2 awake
      simpa only [sighandler, if_pos kind] using move
    · have ends := (or_assoc.mpr enabled.1).resolve_right kind
      have move : Move options s _ _ := .ending ends enabled.2 awake
      simpa only [sighandler, if_neg kind] using move

theorem move_of_eval {options : Options} {s s' : State cfg σ} {env : Env cfg σ} {caller : Caller} {iter : UInt32}
    {i : Row cfg} {rest : List (Row cfg)} (here : s.pc = .eval caller iter i rest)
    (taken : mainStep options s env = some s') : Move options s (.main env) s' := by
  simp only [mainStep, here, Option.some.injEq] at taken
  subst s'
  by_cases fits : Fits cfg i env.res
  · have ret : ¬(evaluate cfg s.statuses i env.res).2 < 0 := by
      rw [evaluate_neg_iff, not_not]
      exact fits
    have move : Move options s (.main env) _ := .evalFits here fits
    simpa only [if_neg ret] using move
  · have ret : (evaluate cfg s.statuses i env.res).2 < 0 :=
      (evaluate_neg_iff cfg s.statuses i env.res).mpr fits
    have move : Move options s (.main env) _ := .evalBreak here fits
    simpa only [if_pos ret] using move

theorem move_of_publish {options : Options} {s s' : State cfg σ} {env : Env cfg σ} {caller : Caller}
    {iter : UInt32} (here : s.pc = .publish caller iter) (taken : mainStep options s env = some s') :
    Move options s (.main env) s' := by
  simp only [mainStep, here] at taken
  split at taken
  · cases taken
    exact .publishFault here ‹_›
  · rename_i line built
    by_cases guard : options.Sflag = true ∨ iter ≠ 0
    · by_cases fails : env.fails = true
      · simp only [if_pos guard, if_pos fails, Option.some.injEq] at taken
        exact taken ▸ .publishDies here fails (by split_ifs <;> decide)
      · simp only [if_pos guard, if_neg fails, Option.some.injEq] at taken
        exact taken ▸ .publish caller here built guard
    · simp only [if_neg guard, Option.some.injEq] at taken
      exact taken ▸ .publishSkip caller here guard

/-- The machine takes no other step than these. -/
theorem move_of_step {options : Options} {s s' : State cfg σ} {label : Label cfg σ}
    (taken : step options s label = some s') : Move options s label s' := by
  cases label with
  | signal signo => exact move_of_signal taken
  | outside components =>
    simp only [step] at taken
    split_ifs at taken with ended
    cases taken
    exact .outside ended
  | main env =>
    change mainStep options s env = some s' at taken
    cases here : s.pc with
    | eval caller iter i rest => exact move_of_eval here taken
    | publish caller iter => exact move_of_publish here taken
    | test caller iter rows =>
      cases rows with
      | nil =>
        simp only [mainStep, here, Option.some.injEq] at taken
        exact taken ▸ .testEnd here
      | cons i rest =>
        simp only [mainStep, here] at taken
        split_ifs at taken with chosen
        · cases taken
          exact .select here chosen
        · cases taken
          exact .skip here chosen
    | clockStart =>
      simp only [mainStep, here] at taken
      split_ifs at taken with fails
      · cases taken
        exact .clockDies (.inl here) fails
      · cases taken
        exact .clockStart here
    | clockCurrent =>
      simp only [mainStep, here] at taken
      split_ifs at taken with fails
      · cases taken
        exact .clockDies (.inr here) fails
      · cases taken
        exact .clockCurrent here
    | asleep interrupted =>
      cases interrupted with
      | false =>
        simp only [mainStep, here, Option.some.injEq] at taken
        exact taken ▸ .sleepOver here
      | true =>
        simp only [mainStep, here] at taken
        split_ifs at taken with remains
        cases taken
        exact .sleepInterrupted here remains
    | close =>
      simp only [mainStep, here] at taken
      split_ifs at taken with fails
      · cases taken
        exact .closeDies here fails.2
      · cases taken
        exact .close here
    | exited | died message | fault => simp [mainStep, here] at taken
    | setup => simp only [mainStep, here, Option.some.injEq] at taken; exact taken ▸ .setup here
    | tick => simp only [mainStep, here, Option.some.injEq] at taken; exact taken ▸ .tick here
    | call => simp only [mainStep, here, Option.some.injEq] at taken; exact taken ▸ .call here
    | clear caller iter => simp only [mainStep, here, Option.some.injEq] at taken; exact taken ▸ .clear here
    | doneTest => simp only [mainStep, here, Option.some.injEq] at taken; exact taken ▸ .doneTest here
    | waitTest => simp only [mainStep, here, Option.some.injEq] at taken; exact taken ▸ .waitTest here
    | retTest => simp only [mainStep, here, Option.some.injEq] at taken; exact taken ▸ .retTest here
    | errnoTest => simp only [mainStep, here, Option.some.injEq] at taken; exact taken ▸ .errnoTest here
    | wakeDoneTest => simp only [mainStep, here, Option.some.injEq] at taken; exact taken ▸ .wakeDoneTest here
    | reset => simp only [mainStep, here, Option.some.injEq] at taken; exact taken ▸ .reset here
    | afterWait => simp only [mainStep, here, Option.some.injEq] at taken; exact taken ▸ .afterWait here
    | loopTest => simp only [mainStep, here, Option.some.injEq] at taken; exact taken ▸ .loopTest here
    | teardown => simp only [mainStep, here, Option.some.injEq] at taken; exact taken ▸ .teardown here

theorem terminated_of_move {options : Options} {s s' : State cfg σ} {label : Label cfg σ}
    (terminated : Terminated s.statuses) (move : Move options s label s') : Terminated s'.statuses := by
  cases move with
  | evalFits | evalBreak => exact terminated_evaluate terminated _ _
  | _ => exact terminated

/-- The slots hold strings throughout, so the line is never read or written out of bounds. -/
theorem terminated_of_run {options : Options} {components : Comp → σ} {past : Past (State cfg σ) (Label cfg σ)}
    {s : State cfg σ} (run : Run (step options) (initial cfg options components) past s) :
    Terminated s.statuses := by
  refine run.invariant (fun _ _ => True) (fun s => Terminated s.statuses) ?_ ?_ fun _ _ => trivial
  · exact fun _ => ⟨[], Buffer.string?_zeroed cfg.cmdlen_pos⟩
  · intro before label after terminated _ taken
    exact terminated_of_move terminated (move_of_step taken)

omit [DecidableEq Comp] in
theorem returnTo_ne_fault (caller : Caller) : (returnTo caller : Pc cfg) ≠ .fault := by
  cases caller <;> simp [returnTo]

theorem no_fault {options : Options} {components : Comp → σ} {past : Past (State cfg σ) (Label cfg σ)}
    {s : State cfg σ} (run : Run (step options) (initial cfg options components) past s) : s.pc ≠ .fault := by
  cases run with
  | start => simp [initial]
  | step label run taken =>
    intro fault
    have terminated := terminated_of_run run
    cases move_of_step taken with
    | publishFault _ overflow =>
      rw [buildLine_eq terminated] at overflow
      cases overflow
    | handled _ running | ending _ running | outside running =>
      change _ = Pc.fault at fault
      exact running (by rw [fault]; trivial)
    | publish | publishSkip => exact returnTo_ne_fault _ fault
    | _ => first | cases fault | (dsimp only at fault; split_ifs at fault)

end SlStatus.Steps
