import SlStatus.DefaultConfig
import SlStatus.Steps

/-! How the process ends. A real-time signal or `SIGUSR1` clears `errno`, and `main` tests
`errno` twice after a sleep that a signal cut short: in the windows before these tests one
more signal makes the fatal branch certain. -/

namespace SlStatus.Ending
open CString Util Table Printstatus Runs MainLoop Steps DefaultConfig
set_option maxRecDepth 4096

variable {Comp σ : Type*} {cfg : Config Comp} [DecidableEq Comp]

/-- The library calls other than `nanosleep` succeed. -/
def Works : State cfg σ → Label cfg σ → Prop
  | _, .main env => env.fails = false
  | _, _ => True

instance (s : State cfg σ) : (label : Label cfg σ) → Decidable (Works s label)
  | .main env => inferInstanceAs (Decidable (env.fails = false))
  | .signal _ => inferInstanceAs (Decidable True)
  | .outside _ => inferInstanceAs (Decidable True)

/-- The signal does not land where it makes a pending errno test fail. -/
def Timely (s : State cfg σ) : Label cfg σ → Prop
  | .signal signo =>
      match s.pc with
      | .retTest | .afterWait => s.ret < 0 → ¬Handled signo
      | .errnoTest => ¬Handled signo
      | .wakeDoneTest => (Handled signo → s.done = false) ∧ (¬Handled signo → s.errno = EINTR)
      | _ => True
  | _ => True

instance (s : State cfg σ) : (label : Label cfg σ) → Decidable (Timely s label)
  | .main _ => inferInstanceAs (Decidable True)
  | .outside _ => inferInstanceAs (Decidable True)
  | .signal signo => by
      dsimp only [Timely]
      induction s.pc using Pc.casesOn <;> infer_instance

/-- What holds at each place as long as no signal lands there. -/
def Orderly (s : State cfg σ) : Prop :=
  match s.pc with
  | .setup | .tick | .clockStart | .call | .doneTest | .clockCurrent => 0 ≤ s.ret
  | .test caller _ _ | .eval caller _ _ _ | .clear caller _ | .publish caller _ =>
      match caller with
      | .timer => 0 ≤ s.ret
      | .wakeup => 0 ≤ s.wait.tvSec
  | .reset => 0 ≤ s.wait.tvSec
  | .waitTest => s.ret < 0 → 0 ≤ s.wait.tvSec
  | .asleep _ => True
  | .retTest => s.ret < 0 → s.errno = EINTR ∧ 0 ≤ s.wait.tvSec
  | .errnoTest => s.ret < 0 ∧ s.errno = EINTR ∧ 0 ≤ s.wait.tvSec
  | .wakeDoneTest => s.ret < 0 ∧ 0 ≤ s.wait.tvSec ∧ (s.done = true → s.errno = EINTR)
  | .afterWait => s.ret < 0 → s.errno = EINTR ∧ s.done = true
  | .loopTest => s.ret < 0 → s.done = true
  | .teardown | .close | .exited => s.done = true
  | .died _ | .fault => False

/-- The fatal branch is taken or can no longer be avoided. -/
def Doomed (s : State cfg σ) : Prop :=
  match s.pc with
  | .retTest | .errnoTest | .afterWait => s.ret < 0 ∧ s.errno ≠ EINTR
  | .wakeDoneTest => s.ret < 0 ∧ s.errno ≠ EINTR ∧ s.done = true
  | .died message => message = "nanosleep:"
  | _ => False

theorem orderly_of_main {options : Options} {s s' : State cfg σ} {env : Env cfg σ}
    (terminated : Terminated s.statuses) (orderly : Orderly s) (works : env.fails = false)
    (move : Move options s (.main env) s') : Orderly s' := by
  unfold Orderly at orderly
  cases move with
  | publishFault _ overflow =>
    rw [buildLine_eq terminated] at overflow
    cases overflow
  | clockDies _ fails | publishDies _ fails | closeDies _ fails => simp [works] at fails
  | setup here | tick here | clockStart here | call here | testEnd here | select here | skip here
  | evalFits here | evalBreak here | clear here =>
    simp only [here] at orderly
    exact orderly
  | publish caller here | publishSkip caller here =>
    simp only [here] at orderly
    cases caller <;> exact orderly
  | doneTest here =>
    simp only [here] at orderly
    by_cases done : s.done = true
    · simp only [if_pos done]
      exact fun _ => done
    · simp only [if_neg done]
      exact orderly
  | clockCurrent here =>
    simp only [here] at orderly
    exact fun failed => absurd failed (not_lt.mpr orderly)
  | waitTest here =>
    simp only [here] at orderly
    by_cases sleeps : s.wait.tvSec ≥ 0
    · simp only [if_pos sleeps]
      trivial
    · simp only [if_neg sleeps]
      exact fun failed => absurd (orderly failed) sleeps
  | sleepOver => exact fun failed => absurd failed (lt_irrefl 0)
  | sleepInterrupted _ remains => exact fun _ => ⟨rfl, remains⟩
  | retTest here =>
    simp only [here] at orderly
    by_cases failed : s.ret < 0
    · simp only [if_pos failed]
      exact ⟨failed, orderly failed⟩
    · simp only [if_neg failed]
      exact fun other => absurd other failed
  | errnoTest here =>
    simp only [here] at orderly
    obtain ⟨failed, interrupted, remains⟩ := orderly
    simp only [if_pos interrupted]
    exact ⟨failed, remains, fun _ => interrupted⟩
  | wakeDoneTest here =>
    simp only [here] at orderly
    obtain ⟨_, remains, interrupted⟩ := orderly
    by_cases done : s.done = true
    · simp only [if_pos done]
      exact fun _ => ⟨interrupted done, done⟩
    · simp only [if_neg done]
      exact remains
  | reset here =>
    simp only [here] at orderly
    exact fun _ => orderly
  | afterWait here =>
    simp only [here] at orderly
    have survives : ¬(s.ret < 0 ∧ s.errno ≠ EINTR) := fun dies => dies.2 (orderly dies.1).1
    simp only [if_neg survives]
    exact fun failed => (orderly failed).2
  | loopTest here =>
    simp only [here] at orderly
    by_cases done : s.done = true
    · simp only [if_pos done]
      exact done
    · simp only [if_neg done]
      exact not_lt.mp fun failed => done (orderly failed)
  | teardown here | close here =>
    simp only [here] at orderly
    exact orderly

/-- A step that is not untimely keeps things in order; an untimely one settles the end. -/
theorem orderly_of_move {options : Options} {s s' : State cfg σ} {label : Label cfg σ}
    (terminated : Terminated s.statuses) (orderly : Orderly s) (works : Works s label) (timely : Timely s label)
    (move : Move options s label s') : Orderly s' := by
  cases label with
  | main env => exact orderly_of_main terminated orderly works move
  | outside components => cases move; exact orderly
  | signal signo =>
    cases move with
    | handledAsleep | endingAsleep => trivial
    | handled kind _ awake =>
      unfold Timely at timely
      unfold Orderly at orderly ⊢
      cases here : s.pc with
      | retTest | afterWait =>
        simp only [here] at timely ⊢
        exact fun failed => absurd kind (timely failed)
      | errnoTest =>
        simp only [here] at timely
        exact absurd kind timely
      | wakeDoneTest =>
        simp only [here] at timely orderly ⊢
        exact ⟨orderly.1, orderly.2.1, fun done => absurd done (by simp [timely.1 kind])⟩
      | asleep => trivial
      | died | fault => simp only [here] at orderly
      | _ =>
        simp only [here] at orderly ⊢
        exact orderly
    | ending ends _ awake =>
      have kind := not_handled_of_ending ends
      unfold Timely at timely
      unfold Orderly at orderly ⊢
      cases here : s.pc with
      | afterWait =>
        simp only [here] at orderly ⊢
        exact fun failed => ⟨(orderly failed).1, trivial⟩
      | wakeDoneTest =>
        simp only [here] at timely orderly ⊢
        exact ⟨orderly.1, orderly.2.1, fun _ => timely.2 kind⟩
      | loopTest => exact fun _ => rfl
      | teardown | close | exited => rfl
      | asleep => trivial
      | died | fault => simp only [here] at orderly
      | _ =>
        simp only [here] at orderly ⊢
        exact orderly

/-- Nothing can be done about a doomed state. -/
theorem doomed_of_move {options : Options} {s s' : State cfg σ} {label : Label cfg σ} (doomed : Doomed s)
    (move : Move options s label s') : Doomed s' := by
  unfold Doomed at doomed
  cases move with
  | handled _ running =>
    unfold Doomed
    cases here : s.pc with
    | retTest | errnoTest | afterWait =>
      simp only [here] at doomed ⊢
      exact ⟨doomed.1, by decide⟩
    | wakeDoneTest =>
      simp only [here] at doomed ⊢
      exact ⟨doomed.1, by decide, doomed.2.2⟩
    | died message => simp [here, Pc.Ended] at running
    | _ => simp only [here] at doomed
  | ending _ running =>
    unfold Doomed
    cases here : s.pc with
    | retTest | errnoTest | afterWait =>
      simp only [here] at doomed ⊢
      exact doomed
    | wakeDoneTest =>
      simp only [here] at doomed ⊢
      exact ⟨doomed.1, doomed.2.1, trivial⟩
    | died message => simp [here, Pc.Ended] at running
    | _ => simp only [here] at doomed
  | outside => exact doomed
  | retTest here =>
    simp only [here] at doomed
    simp only [if_pos doomed.1]
    exact doomed
  | errnoTest here =>
    simp only [here] at doomed
    simp only [if_neg doomed.2]
    exact doomed
  | wakeDoneTest here =>
    simp only [here] at doomed
    simp only [if_pos doomed.2.2]
    exact ⟨doomed.1, doomed.2.1⟩
  | afterWait here =>
    simp only [here] at doomed
    simp only [if_pos (show s.ret < 0 ∧ s.errno ≠ EINTR from doomed)]
    rfl
  | clockDies here =>
    rcases here with here | here <;> simp only [here] at doomed
  | handledAsleep _ here | endingAsleep _ here => simp only [here] at doomed
  | setup here | tick here | clockStart here | call here | testEnd here | select here | skip here
  | evalFits here | evalBreak here | clear here | publishFault here | publishDies here | publish _ here
  | publishSkip _ here | doneTest here | clockCurrent here | waitTest here | sleepOver here
  | sleepInterrupted here | reset here | loopTest here | teardown here | closeDies here | close here =>
    simp only [here] at doomed

theorem doomed_of_untimely {options : Options} {s s' : State cfg σ} {label : Label cfg σ} (orderly : Orderly s)
    (untimely : ¬Timely s label) (move : Move options s label s') : Doomed s' := by
  unfold Orderly at orderly
  unfold Timely at untimely
  cases move with
  | handled kind =>
    unfold Doomed
    cases here : s.pc with
    | retTest | afterWait =>
      simp only [here, Classical.not_imp] at untimely
      exact ⟨untimely.1, zero_ne_EINTR⟩
    | errnoTest =>
      simp only [here] at orderly
      exact ⟨orderly.1, zero_ne_EINTR⟩
    | wakeDoneTest =>
      simp only [here] at orderly
      simp [here, kind] at untimely
      exact ⟨orderly.1, zero_ne_EINTR, untimely⟩
    | _ => simp [here] at untimely
  | ending ends =>
    have kind := not_handled_of_ending ends
    unfold Doomed
    cases here : s.pc with
    | wakeDoneTest =>
      simp only [here] at orderly
      simp [here, kind] at untimely
      exact ⟨orderly.1, untimely, rfl⟩
    | _ => simp [here, kind] at untimely
  | handledAsleep _ here | endingAsleep _ here => simp [here] at untimely
  | _ => exact absurd trivial untimely

theorem fate {options : Options} {components : Comp → σ} {past : Past (State cfg σ) (Label cfg σ)}
    {s : State cfg σ} (run : Run (step options) (initial cfg options components) past s)
    (works : Within Works past) : (Within Timely past ∧ Orderly s) ∨ (¬Within Timely past ∧ Doomed s) := by
  induction run with
  | start => exact .inl ⟨by simp [Within], le_refl (0 : Int)⟩
  | @step past before after label run taken ih =>
    have move := move_of_step taken
    rcases ih works.tail with ⟨timely, orderly⟩ | ⟨untimely, doomed⟩
    · by_cases lands : Timely before label
      · refine .inl ⟨?_, orderly_of_move (terminated_of_run run) orderly works.head lands move⟩
        intro taken member
        rcases List.mem_cons.mp member with rfl | member
        · exact lands
        · exact timely taken member
      · exact .inr ⟨fun within => lands within.head, doomed_of_untimely orderly lands move⟩
    · exact .inr ⟨fun within => untimely within.tail, doomed_of_move doomed move⟩

/-- `done` is set by `-1`, `SIGINT` or `SIGTERM` only. -/
def Asked (options : Options) (past : Past (State cfg σ) (Label cfg σ)) : Prop :=
  options.done = true ∨ ∃ taken ∈ past, taken.2 = .signal SIGINT ∨ taken.2 = .signal SIGTERM

theorem asked_of_done {options : Options} {components : Comp → σ} {past : Past (State cfg σ) (Label cfg σ)}
    {s : State cfg σ} (run : Run (step options) (initial cfg options components) past s) (done : s.done = true) :
    Asked options past := by
  induction run with
  | start => exact .inl done
  | @step past before after label run taken ih =>
    have kept : before.done = true → Asked options ((before, label) :: past) := by
      intro done
      rcases ih done with once | ⟨taken, member, ends⟩
      · exact .inl once
      · exact .inr ⟨taken, List.mem_cons_of_mem _ member, ends⟩
    cases move_of_step taken with
    | ending ends | endingAsleep ends =>
      refine .inr ⟨_, List.mem_cons_self, ?_⟩
      rcases ends with rfl | rfl
      · exact .inl rfl
      · exact .inr rfl
    | _ => exact kept done

theorem torn_down {options : Options} {components : Comp → σ} {past : Past (State cfg σ) (Label cfg σ)}
    {s : State cfg σ} (run : Run (step options) (initial cfg options components) past s)
    (closing : s.pc = .close ∨ s.pc = .exited) :
    ∃ taken ∈ past, taken.1.pc = .teardown ∧ ∃ env, taken.2 = .main env := by
  induction run with
  | start => simp [initial] at closing
  | @step past before after label run taken ih =>
    have kept : before.pc = .close ∨ before.pc = .exited →
        ∃ taken ∈ (before, label) :: past, taken.1.pc = .teardown ∧ ∃ env, taken.2 = .main env := by
      intro closing
      obtain ⟨taken, member, here⟩ := ih closing
      exact ⟨taken, List.mem_cons_of_mem _ member, here⟩
    cases move_of_step taken with
    | teardown here => exact ⟨_, List.mem_cons_self, here, _, rfl⟩
    | close here => exact kept (.inl here)
    | handled | ending | outside => exact kept closing
    | publish caller | publishSkip caller => cases caller <;> simp [returnTo] at closing
    | doneTest | waitTest | retTest | errnoTest | wakeDoneTest | afterWait | loopTest =>
      dsimp only at closing
      split_ifs at closing <;> simp at closing
    | _ => simp at closing

/-- No `die` is reached, the loop is left only after it was asked to, and `teardown` runs. -/
def EndsThroughDone (options : Options) (past : Past (State cfg σ) (Label cfg σ)) (s : State cfg σ) : Prop :=
  (∀ message, s.pc ≠ .died message) ∧
  (s.pc = .teardown ∨ s.pc = .close ∨ s.pc = .exited → s.done = true ∧ Asked options past) ∧
  (s.pc = .exited → ∃ taken ∈ past, taken.1.pc = .teardown ∧ ∃ env, taken.2 = .main env)

theorem endsThroughDone_of_orderly {options : Options} {components : Comp → σ}
    {past : Past (State cfg σ) (Label cfg σ)} {s : State cfg σ}
    (run : Run (step options) (initial cfg options components) past s) (orderly : Orderly s) :
    EndsThroughDone options past s := by
  refine ⟨?_, ?_, fun exited => torn_down run (.inr exited)⟩
  · intro message died
    simp only [Orderly, died] at orderly
  · intro left
    have done : s.done = true := by
      rcases left with here | here | here <;> simpa only [Orderly, here] using orderly
    exact ⟨done, asked_of_done run done⟩

/-- While the other library calls succeed, a run all of whose signals are timely ends through
`done` only, and a run that has ended did so exactly if all its signals were timely. -/
theorem ends_through_done (options : Options) (components : Comp → σ) {past : Past (State cfg σ) (Label cfg σ)}
    {s : State cfg σ} (run : Run (step options) (initial cfg options components) past s)
    (works : Within Works past) :
    (Within Timely past → EndsThroughDone options past s) ∧
    (s.pc.Ended → (EndsThroughDone options past s ↔ Within Timely past)) := by
  rcases fate run works with ⟨timely, orderly⟩ | ⟨untimely, doomed⟩
  · have ends := endsThroughDone_of_orderly run orderly
    exact ⟨fun _ => ends, fun _ => ⟨fun _ => timely, fun _ => ends⟩⟩
  · refine ⟨fun timely => absurd timely untimely, fun ended => ⟨fun ends => ?_, fun timely => absurd timely untimely⟩⟩
    unfold Doomed at doomed
    cases here : s.pc with
    | died message => exact absurd here (ends.1 message)
    | exited | fault => simp only [here] at doomed
    | _ => simp [here, Pc.Ended] at ended

/-- A `SIGTERM` in the first sleep. -/
theorem ends_through_done_terminated :
    ∃ past s, Run (step toStdout) (initial defaultConfig toStdout fun _ => ()) past s ∧ s.pc = .exited ∧
      EndsThroughDone toStdout past s := by
  obtain ⟨past, s, run, checked⟩ := exists_run (step toStdout)
    (initial defaultConfig toStdout fun _ => ())
    (quietly defaultConfig 26 ++ .signal SIGTERM :: quietly defaultConfig 8)
    (fun past s => decide (s.pc = .exited ∧ Within Works past ∧ Within Timely past)) (by decide)
  obtain ⟨exited, works, timely⟩ := of_decide_eq_true checked
  exact ⟨past, s, run, exited, (ends_through_done toStdout _ run works).1 timely⟩

/-- `SIGUSR1` wakes the first sleep and `SIGRTMIN + 1` lands before errno is tested. -/
theorem second_signal_kills :
    ∃ past s, Run (step toStdout) (initial defaultConfig toStdout fun _ => ()) past s ∧ Within Works past ∧
      s.pc = .died "nanosleep:" ∧ ¬EndsThroughDone toStdout past s := by
  obtain ⟨past, s, run, checked⟩ := exists_run (step toStdout)
    (initial defaultConfig toStdout fun _ => ())
    (quietly defaultConfig 26 ++ .signal SIGUSR1 :: quietly defaultConfig 1 ++
      .signal (SIGRTMIN + 1) :: quietly defaultConfig 3)
    (fun past s => decide (s.pc = .died "nanosleep:" ∧ Within Works past)) (by decide)
  obtain ⟨died, works⟩ := of_decide_eq_true checked
  exact ⟨past, s, run, works, died, fun ends => ends.1 _ died⟩

end SlStatus.Ending
