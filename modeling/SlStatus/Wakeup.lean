import SlStatus.DefaultConfig
import SlStatus.History

/-! The pass that a signal caught in the sleep brings about. It is called with the argument
zero, with which every row is selected before the row's signal is looked at, so it refreshes
the subscribers of the signal and every other row with them. -/

namespace SlStatus.Wakeup
open CString Util Table Printstatus Runs MainLoop Steps History DefaultConfig
set_option maxRecDepth 4096

variable {Comp σ : Type*} {cfg : Config Comp}

/-- No signal arrives, and each row's component answers what `answers` says. -/
def Quiet (answers : Row cfg → Option Text) (s : State cfg σ) : Label cfg σ → Prop
  | .main env =>
      match s.pc with
      | .eval _ _ i _ => env.res = answers i
      | _ => True
  | .signal _ => False
  | .outside _ => True

instance (answers : Row cfg → Option Text) (s : State cfg σ) :
    (label : Label cfg σ) → Decidable (Quiet answers s label)
  | .signal _ => inferInstanceAs (Decidable False)
  | .outside _ => inferInstanceAs (Decidable True)
  | .main env => by
      dsimp only [Quiet]
      induction s.pc using Pc.casesOn <;> infer_instance

/-- A row's component is called unless a row before it did not fit. -/
def Reached (answers : Row cfg → Option Text) (i : Row cfg) : Prop := ∀ j < i, Fits cfg j (answers j)

instance (answers : Row cfg → Option Text) (i : Row cfg) : Decidable (Reached answers i) :=
  inferInstanceAs (Decidable (∀ j < i, Fits cfg j (answers j)))

/-- The rows evaluated so far and the rows still to be tested make up the table. -/
def InPass (answers : Row cfg → Option Text) (past : Past (State cfg σ) (Label cfg σ)) (iter : UInt32)
    (rows : List (Row cfg)) : Prop :=
  iter = 0 ∧ (evaluated past).reverse ++ rows = cfg.rows ∧ ∀ j ∈ evaluated past, Fits cfg j (answers j)

/-- What holds from the interruption of the sleep to the end of the pass. -/
def Woken (answers : Row cfg → Option Text) (past : Past (State cfg σ) (Label cfg σ)) (s : State cfg σ) : Prop :=
  match s.pc with
  | .asleep interrupted => interrupted = true ∧ evaluated past = []
  | .retTest => s.ret < 0 ∧ s.errno = EINTR ∧ evaluated past = []
  | .errnoTest => s.errno = EINTR ∧ evaluated past = []
  | .wakeDoneTest => evaluated past = []
  | .test .wakeup iter rows => InPass answers past iter rows
  | .eval .wakeup iter i rest => InPass answers past iter (i :: rest)
  | .clear .wakeup _ | .publish .wakeup _ | .reset => ∀ i, i ∈ evaluated past ↔ Reached answers i
  | .afterWait | .loopTest => s.done = true
  | .teardown | .close | .exited | .died _ | .fault => True
  | _ => False

theorem reached_of_whole {answers : Row cfg → Option Text} {past : Past (State cfg σ) (Label cfg σ)}
    {iter : UInt32} (whole : InPass answers past iter []) (i : Row cfg) :
    i ∈ evaluated past ↔ Reached answers i := by
  obtain ⟨-, rows, fit⟩ := whole
  have all : ∀ j, j ∈ evaluated past := by
    intro j
    have member := mem_rows cfg j
    rwa [← rows, List.append_nil, List.mem_reverse] at member
  exact ⟨fun _ j _ => fit j (all j), fun _ => all i⟩

theorem reached_of_break {answers : Row cfg → Option Text} {past : Past (State cfg σ) (Label cfg σ)}
    {iter : UInt32} {i : Row cfg} {rest : List (Row cfg)} (inside : InPass answers past iter (i :: rest))
    (unfit : ¬Fits cfg i (answers i)) (k : Row cfg) : k ∈ i :: evaluated past ↔ Reached answers k := by
  obtain ⟨-, rows, fit⟩ := inside
  have front : ∀ j, j ∈ evaluated past ↔ j < i := fun j =>
    List.mem_reverse.symm.trans (mem_front_iff rows j)
  rw [List.mem_cons, front, ← le_iff_eq_or_lt]
  constructor
  · exact fun upTo j before => fit j ((front j).mpr (before.trans_le upTo))
  · intro reached
    by_contra behind
    exact unfit (reached i (not_le.mp behind))

variable [DecidableEq Comp]

theorem woken_of_move {options : Options} {answers : Row cfg → Option Text}
    {past : Past (State cfg σ) (Label cfg σ)} {s s' : State cfg σ} {label : Label cfg σ}
    (woken : Woken answers past s) (quiet : Quiet answers s label) (before : s.pc ≠ .reset)
    (move : Move options s label s') : Woken answers ((s, label) :: past) s' := by
  have elsewhere : called (s, label) = none → Woken answers past s' → Woken answers ((s, label) :: past) s' := by
    intro other kept
    simpa only [Woken, InPass, evaluated_other past other] using kept
  unfold Woken at woken
  cases move with
  | handled | handledAsleep | ending | endingAsleep => exact absurd quiet id
  | outside => exact elsewhere rfl woken
  | reset here => exact absurd here before
  | @testEnd _ caller _ here =>
    apply elsewhere (by simp only [called, here])
    simp only [here] at woken
    cases caller with
    | timer => exact woken
    | wakeup => exact reached_of_whole woken
  | @select _ caller _ _ _ here chosen =>
    apply elsewhere (by simp only [called, here])
    simp only [here] at woken
    cases caller <;> exact woken
  | @skip _ caller iter _ _ here skipped =>
    simp only [here] at woken
    cases caller with
    | timer => exact woken.elim
    | wakeup => exact absurd (by rw [woken.1]; exact selected_zero _ _) skipped
  | @evalFits env caller iter i rest here fits =>
    simp only [Quiet, here] at quiet
    simp only [here] at woken
    cases caller with
    | timer => exact woken.elim
    | wakeup =>
      obtain ⟨zero, rows, fit⟩ := woken
      simp only [Woken, InPass, evaluated_eval past here, List.reverse_cons, List.append_assoc, List.forall_mem_cons]
      exact ⟨zero, rows, quiet ▸ fits, fit⟩
  | @evalBreak env caller iter i rest here unfit =>
    simp only [Quiet, here] at quiet
    simp only [here] at woken
    cases caller with
    | timer => exact woken.elim
    | wakeup =>
      simp only [Woken, evaluated_eval past here]
      exact reached_of_break woken (quiet ▸ unfit)
  | @clear _ caller _ here =>
    apply elsewhere (by simp only [called, here])
    simp only [here] at woken
    cases caller <;> exact woken
  | @publish _ caller _ _ here | @publishSkip _ caller _ here =>
    apply elsewhere (by simp only [called, here])
    simp only [here] at woken
    cases caller with
    | timer => exact woken.elim
    | wakeup => exact woken
  | publishFault here | publishDies here | teardown here | closeDies here | close here =>
    exact elsewhere (by simp only [called, here]) trivial
  | sleepInterrupted here =>
    apply elsewhere (by simp only [called, here])
    simp only [here] at woken
    exact ⟨Int.negSucc_lt_zero 0, rfl, woken.2⟩
  | retTest here =>
    apply elsewhere (by simp only [called, here])
    simp only [here] at woken
    simp only [Woken, if_pos woken.1]
    exact woken.2
  | errnoTest here =>
    apply elsewhere (by simp only [called, here])
    simp only [here] at woken
    simp only [Woken, if_pos woken.1]
    exact woken.2
  | wakeDoneTest here =>
    apply elsewhere (by simp only [called, here])
    simp only [here] at woken
    by_cases done : s.done = true
    · simp only [Woken, if_pos done]
      exact done
    · simp only [Woken, if_neg done, InPass, woken]
      exact ⟨trivial, rfl, fun _ member => absurd member List.not_mem_nil⟩
  | afterWait here =>
    apply elsewhere (by simp only [called, here])
    simp only [here] at woken
    by_cases dies : s.ret < 0 ∧ s.errno ≠ EINTR
    · simp only [Woken, if_pos dies]
    · simp only [Woken, if_neg dies]
      exact woken
  | loopTest here =>
    apply elsewhere (by simp only [called, here])
    simp only [here] at woken
    simp only [Woken, if_pos woken]
  | clockDies here => rcases here with here | here <;> simp only [here] at woken
  | sleepOver here => simp [here] at woken
  | setup here | tick here | clockStart here | call here | doneTest here | clockCurrent here | waitTest here =>
    simp only [here] at woken

/-- The pass evaluated exactly the rows that subscribe to the signal, and left every other
slot and every other component as it was. -/
def TouchesSubscribers (signo : Int) (before after : State cfg σ) (pass : Past (State cfg σ) (Label cfg σ)) : Prop :=
  (∀ i, i ∈ evaluated pass ↔ Subscribes signo (cfg.arg i)) ∧
  (∀ i, ¬Subscribes signo (cfg.arg i) → after.statuses i = before.statuses i) ∧
  ∀ comp, (∀ i, Subscribes signo (cfg.arg i) → (cfg.arg i).func ≠ comp) →
    Within (fun s label => ∀ moved, label = .outside moved → moved comp = s.components comp) pass →
    after.components comp = before.components comp

theorem evaluated_wakeup {options : Options} {answers : Row cfg → Option Text} {signo : Int}
    {before woken after : State cfg σ} {pass : Past (State cfg σ) (Label cfg σ)} (asleep : before.pc = .asleep false)
    (delivered : step options before (.signal signo) = some woken) (run : Run (step options) woken pass after)
    (quiet : Within (Quiet answers) pass) (first : ∀ taken ∈ pass, taken.1.pc ≠ .reset)
    (ended : after.pc = .reset) (i : Row cfg) : i ∈ evaluated pass ↔ Reached answers i := by
  have started : Woken answers [] woken := by
    cases move_of_step delivered with
    | handledAsleep | endingAsleep => exact ⟨rfl, rfl⟩
    | handled _ _ awake | ending _ _ awake => exact absurd asleep (awake false)
  have held : Woken answers pass after := by
    refine run.invariant_past (fun s label => Quiet answers s label ∧ s.pc ≠ .reset) (Woken answers) started ?_ ?_
    · intro past s label s' held allowed taken
      exact woken_of_move held allowed.1 allowed.2 (move_of_step taken)
    · exact fun taken member => ⟨quiet taken member, first taken member⟩
  simp only [Woken, ended] at held
  exact held i

theorem kept_of_delivery {options : Options} {signo : Int} {before woken : State cfg σ}
    (delivered : step options before (.signal signo) = some woken) :
    woken.statuses = before.statuses ∧ woken.components = before.components := by
  cases move_of_step delivered <;> exact ⟨rfl, rfl⟩

/-- When one signal cuts the sleep short, the pass touches its subscribers only if exactly
they come no later than the first row that does not fit; when all fit, if all subscribe. -/
theorem touches_subscribers_iff (options : Options) (answers : Row cfg → Option Text) {signo : Int}
    {before woken after : State cfg σ} {pass : Past (State cfg σ) (Label cfg σ)} (asleep : before.pc = .asleep false)
    (delivered : step options before (.signal signo) = some woken) (run : Run (step options) woken pass after)
    (quiet : Within (Quiet answers) pass) (first : ∀ taken ∈ pass, taken.1.pc ≠ .reset)
    (ended : after.pc = .reset) :
    TouchesSubscribers signo before after pass ↔ ∀ i, Subscribes signo (cfg.arg i) ↔ Reached answers i := by
  have evaluates := evaluated_wakeup asleep delivered run quiet first ended
  obtain ⟨slots, components⟩ := kept_of_delivery delivered
  constructor
  · rintro ⟨exactly, -⟩ i
    exact (exactly i).symm.trans (evaluates i)
  · intro same
    have exactly : ∀ i, i ∈ evaluated pass ↔ Subscribes signo (cfg.arg i) := fun i =>
      (evaluates i).trans (same i).symm
    refine ⟨exactly, ?_, ?_⟩
    · intro i other
      rw [← slots]
      exact statuses_kept run fun member => other ((exactly i).mp member)
    · intro comp other unmoved
      rw [← components]
      exact components_kept run (fun i member => other i ((exactly i).mp member)) unmoved

/-- `SIGUSR1` in the first sleep. -/
theorem touches_subscribers_usr1 :
    ∃ early before woken pass after,
      Run (step toStdout) (initial defaultConfig toStdout fun _ => ()) early before ∧
      step toStdout before (.signal SIGUSR1) = some woken ∧ Run (step toStdout) woken pass after ∧
      TouchesSubscribers SIGUSR1 before after pass := by
  obtain ⟨early, before, woken, pass, after, reached, delivered, run, checked⟩ :=
    exists_run_through (step toStdout) (initial defaultConfig toStdout fun _ => ())
      (quietly defaultConfig 26) (.signal SIGUSR1) (quietly defaultConfig 23)
      (fun _ before pass after => decide (before.pc = .asleep false ∧ Within (Quiet fun _ => none) pass ∧
        (∀ taken ∈ pass, taken.1.pc ≠ .reset) ∧ after.pc = .reset)) (by decide)
  obtain ⟨asleep, quiet, first, ended⟩ := of_decide_eq_true checked
  exact ⟨early, before, woken, pass, after, reached, delivered, run,
    (touches_subscribers_iff toStdout (fun _ => none) asleep delivered run quiet first ended).mpr (by decide)⟩

/-- The volume row's signal in the first sleep: the pass calls the keymap component as well. -/
theorem volume_signal_touches_keymap :
    ∃ early before woken pass after,
      Run (step toStdout) (initial defaultConfig toStdout fun _ => ()) early before ∧ before.pc = .asleep false ∧
      step toStdout before (.signal (SIGRTMIN + PA_SIGNAL)) = some woken ∧
      Run (step toStdout) woken pass after ∧ Within (Quiet fun _ => none) pass ∧ after.pc = .reset ∧
      ¬TouchesSubscribers (SIGRTMIN + PA_SIGNAL) before after pass := by
  obtain ⟨early, before, woken, pass, after, reached, delivered, run, checked⟩ :=
    exists_run_through (step toStdout) (initial defaultConfig toStdout fun _ => ())
      (quietly defaultConfig 26) (.signal (SIGRTMIN + PA_SIGNAL)) (quietly defaultConfig 23)
      (fun _ before pass after => decide (before.pc = .asleep false ∧ Within (Quiet fun _ => none) pass ∧
        after.pc = .reset ∧ keymapRow ∈ evaluated pass)) (by decide)
  obtain ⟨asleep, quiet, ended, evaluates⟩ := of_decide_eq_true checked
  refine ⟨early, before, woken, pass, after, reached, asleep, delivered, run, quiet, ended, ?_⟩
  rintro ⟨exactly, -⟩
  exact absurd ((exactly keymapRow).mp evaluates) (by decide)

end SlStatus.Wakeup
