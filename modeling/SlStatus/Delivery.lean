import SlStatus.DefaultConfig
import SlStatus.History

/-! Whether a signal reaches the rows that subscribe to it. `upsigno` holds one signal, a
pass reads it once for each row and two places clear it, so what becomes of a signal is
decided by where it lands. -/

namespace SlStatus.Delivery
open CString Util Table Printstatus Runs MainLoop Steps History DefaultConfig
set_option maxRecDepth 4096

variable {Comp σ : Type*} {cfg : Config Comp}

/-- The step handles a signal of row `i`. -/
def Delivers (i : Row cfg) (taken : State cfg σ × Label cfg σ) : Prop :=
  ∃ signo, taken.2 = .signal signo ∧ Handled signo ∧ Subscribes signo (cfg.arg i)

/-- The step calls `printstatus`. -/
def starts : State cfg σ × Label cfg σ → Bool
  | (s, .main _) =>
      match s.pc with
      | .call => true
      | .wakeDoneTest => !s.done
      | _ => false
  | _ => false

/-- With the step `printstatus` returns. -/
def ends : State cfg σ × Label cfg σ → Bool
  | (s, .main _) =>
      match s.pc with
      | .publish _ _ => true
      | _ => false
  | _ => false

/-- A signal of row `i` was handled, a whole pass has come after it, and the row has not been
evaluated since. -/
def Lost (i : Row cfg) : Past (State cfg σ) (Label cfg σ) → Prop :=
  Since (Delivers i) fun late => i ∉ evaluated late ∧
    Since (fun taken => starts taken = true) (fun after => ∃ taken ∈ after, ends taken = true) late

/-- The same with a pass that has only started. -/
def Promised (i : Row cfg) : Past (State cfg σ) (Label cfg σ) → Prop :=
  Since (Delivers i) fun late => i ∉ evaluated late ∧ ∃ taken ∈ late, starts taken = true

def Owed (i : Row cfg) : Past (State cfg σ) (Label cfg σ) → Prop :=
  Since (Delivers i) fun late => i ∉ evaluated late

theorem not_called_of_not_mem {taken : State cfg σ × Label cfg σ} {late : Past (State cfg σ) (Label cfg σ)}
    {i : Row cfg} (absent : i ∉ evaluated (taken :: late)) : called taken ≠ some i ∧ i ∉ evaluated late := by
  refine ⟨fun calls => absent ?_, fun member => absent (mem_evaluated_cons member)⟩
  rw [evaluated, List.filterMap_cons_some calls]
  exact List.mem_cons_self

theorem owed_cons {i : Row cfg} {taken : State cfg σ × Label cfg σ} {past : Past (State cfg σ) (Label cfg σ)}
    (owed : Owed i (taken :: past)) : Delivers i taken ∨ (called taken ≠ some i ∧ Owed i past) := by
  rcases since_cons.mp owed with ⟨delivers, -⟩ | since
  · exact .inl delivers
  · obtain ⟨late, mark, early, -, -, absent⟩ := id since
    exact .inr ⟨(not_called_of_not_mem absent).1, since.imp fun late absent => (not_called_of_not_mem absent).2⟩

theorem promised_cons {i : Row cfg} {taken : State cfg σ × Label cfg σ} {past : Past (State cfg σ) (Label cfg σ)}
    (promised : Promised i (taken :: past)) :
    called taken ≠ some i ∧ (Promised i past ∨ (starts taken = true ∧ Owed i past)) := by
  rcases since_cons.mp promised with ⟨-, -, none, absurd, -⟩ | since
  · cases absurd
  · obtain ⟨late, mark, early, -, -, absent, -⟩ := id since
    refine ⟨(not_called_of_not_mem absent).1, ?_⟩
    by_cases start : starts taken = true
    · exact .inr ⟨start, since.imp fun late held => (not_called_of_not_mem held.1).2⟩
    · refine .inl (since.imp fun late held => ⟨(not_called_of_not_mem held.1).2, ?_⟩)
      exact ((List.exists_mem_cons_iff _ _ _).mp held.2).resolve_left start

theorem lost_cons {i : Row cfg} {taken : State cfg σ × Label cfg σ} {past : Past (State cfg σ) (Label cfg σ)}
    (lost : Lost i (taken :: past)) : Lost i past ∨ (ends taken = true ∧ Promised i past) := by
  rcases since_cons.mp lost with ⟨-, -, none⟩ | since
  · exact absurd none since_nil
  · by_cases finish : ends taken = true
    · refine .inr ⟨finish, since.imp fun late held => ⟨(not_called_of_not_mem held.1).2, ?_⟩⟩
      rcases since_cons.mp held.2 with ⟨-, none, absurd, -⟩ | started
      · cases absurd
      · exact started.exists_mark
    · refine .inl (since.imp fun late held => ⟨(not_called_of_not_mem held.1).2, ?_⟩)
      rcases since_cons.mp held.2 with ⟨-, none, absurd, -⟩ | started
      · cases absurd
      · exact started.imp fun after ended => ((List.exists_mem_cons_iff _ _ _).mp ended).resolve_left finish

/-- The next timer pass takes the row. -/
def Heeds (s : State cfg σ) (i : Row cfg) : Prop := s.iter = 0 ∨ Subscribes s.upsigno (cfg.arg i)

/-- The pass under way is still going to evaluate the row. -/
def Ahead (s : State cfg σ) (i : Row cfg) : Prop :=
  match s.pc with
  | .test _ iter rows => i ∈ rows ∧ (iter = 0 ∨ Subscribes s.upsigno (cfg.arg i))
  | .eval _ iter j rest => i = j ∨ (i ∈ rest ∧ (iter = 0 ∨ Subscribes s.upsigno (cfg.arg i)))
  | _ => False

/-- The row is evaluated in this pass or in the next, if a next one comes. -/
def Waiting (s : State cfg σ) (i : Row cfg) : Prop :=
  match s.pc with
  | .setup | .tick | .clockStart | .call => Heeds s i
  | .test _ _ _ | .eval _ _ _ _ => s.done = true ∨ Ahead s i
  | .clear _ _ | .publish .wakeup _ | .reset => s.done = true
  | .publish .timer _ | .doneTest | .clockCurrent | .waitTest | .asleep false | .loopTest =>
      s.done = true ∨ Heeds s i
  | .retTest => s.ret < 0 ∨ s.done = true ∨ Heeds s i
  | .afterWait => (s.ret < 0 ∧ s.errno ≠ EINTR) ∨ s.done = true ∨ Heeds s i
  | _ => True

/-- Handling `signo` before the next timer pass takes no row out of it. -/
def Covers (s : State cfg σ) (signo : Int) : Prop :=
  s.iter = 0 ∨ ∀ i, Subscribes s.upsigno (cfg.arg i) → Subscribes signo (cfg.arg i)

/-- The subscribers of `signo` are all in front of the cursor, and no row there loses an
earlier signal to it. -/
def Reaches (s : State cfg σ) (signo : Int) (iter : UInt32) (front rest : List (Row cfg)) : Prop :=
  (s.done = true ∨ ∀ i, Subscribes signo (cfg.arg i) → i ∈ front) ∧
  (iter = 0 ∨ ∀ i ∈ rest, Subscribes s.upsigno (cfg.arg i) → Subscribes signo (cfg.arg i))

/-- A signal lands where it costs no row an evaluation, and a text too long for its slot
keeps no awaited row from its evaluation. -/
def Unharmed (s : State cfg σ) : Label cfg σ → Prop
  | .signal signo => Handled signo →
      match s.pc with
      | .setup | .tick | .clockStart | .call => Covers s signo
      | .test _ iter rows => Reaches s signo iter rows rows
      | .eval _ iter j rest => Reaches s signo iter (j :: rest) rest
      | .clear _ _ | .publish .wakeup _ | .reset => s.done = true ∨ ∀ i, ¬Subscribes signo (cfg.arg i)
      | .publish .timer _ | .doneTest | .clockCurrent | .waitTest | .loopTest => s.done = true ∨ Covers s signo
      | .retTest | .afterWait => s.ret < 0 ∨ s.done = true ∨ Covers s signo
      | _ => True
  | .main env =>
      match s.pc with
      | .eval _ iter i rest =>
          Fits cfg i env.res ∨ ∀ j ∈ rest, ¬(iter = 0 ∨ Subscribes s.upsigno (cfg.arg j))
      | _ => True
  | .outside _ => True

instance (s : State cfg σ) (signo : Int) : Decidable (Covers s signo) := inferInstanceAs (Decidable (_ ∨ _))

instance (s : State cfg σ) (signo : Int) (iter : UInt32) (front rest : List (Row cfg)) :
    Decidable (Reaches s signo iter front rest) := inferInstanceAs (Decidable (_ ∧ _))

instance (s : State cfg σ) : (label : Label cfg σ) → Decidable (Unharmed s label)
  | .outside _ => inferInstanceAs (Decidable True)
  | .main env => by
      dsimp only [Unharmed]
      induction s.pc using Pc.casesOn <;> infer_instance
  | .signal signo => by
      dsimp only [Unharmed]
      induction s.pc using Pc.casesOn with
      | publish caller => induction caller using Caller.casesOn <;> infer_instance
      | _ => infer_instance

theorem heeds_of_covers {s : State cfg σ} {signo : Int} {i : Row cfg} (covers : Covers s signo)
    (heeds : Heeds s i ∨ Subscribes signo (cfg.arg i)) : s.iter = 0 ∨ Subscribes signo (cfg.arg i) := by
  rcases heeds with (zero | subscribes) | subscribes
  · exact .inl zero
  · exact covers.imp id fun all => all i subscribes
  · exact .inr subscribes

theorem heeds_unless {excused : Prop} {s : State cfg σ} {signo : Int} {i : Row cfg}
    (covers : excused ∨ Covers s signo) (heeds : (excused ∨ Heeds s i) ∨ Subscribes signo (cfg.arg i)) :
    excused ∨ (s.iter = 0 ∨ Subscribes signo (cfg.arg i)) := by
  rcases covers with excuse | covers
  · exact .inl excuse
  · rcases heeds with (excuse | heeds) | subscribes
    · exact .inl excuse
    · exact .inr (heeds_of_covers covers (.inl heeds))
    · exact .inr (.inr subscribes)

variable [DecidableEq Comp]

theorem ahead_of_move {options : Options} {s s' : State cfg σ} {label : Label cfg σ} {i : Row cfg}
    (unharmed : Unharmed s label) (other : called (s, label) ≠ some i) (ahead : Ahead s i)
    (move : Move options s label s') : Ahead s' i := by
  unfold Ahead at ahead
  unfold Unharmed at unharmed
  cases move with
  | handled kind =>
    replace unharmed := unharmed kind
    cases here : s.pc with
    | test caller iter rows =>
      simp only [here] at ahead unharmed
      exact ⟨ahead.1, ahead.2.elim .inl fun subscribes => unharmed.2.imp id fun all => all i ahead.1 subscribes⟩
    | eval caller iter j rest =>
      simp only [here] at ahead unharmed
      refine ahead.imp id fun later => ⟨later.1, ?_⟩
      exact later.2.elim .inl fun subscribes => unharmed.2.imp id fun all => all i later.1 subscribes
    | _ => simp only [here] at ahead
  | ending | outside => exact ahead
  | handledAsleep _ here | endingAsleep _ here => simp only [here] at ahead
  | testEnd here =>
    simp only [here] at ahead
    cases ahead.1
  | select here =>
    simp only [here] at ahead
    exact (List.mem_cons.mp ahead.1).imp id fun later => ⟨later, ahead.2⟩
  | @skip _ _ iter j rest here skipped =>
    simp only [here] at ahead
    refine ⟨(List.mem_cons.mp ahead.1).resolve_left fun same => skipped ?_, ahead.2⟩
    rw [selected_iff, ← same]
    exact ahead.2.imp id .inl
  | evalFits here =>
    simp only [here] at ahead
    simp only [called, here, ne_eq, Option.some.injEq] at other
    exact ahead.resolve_left (Ne.symm other)
  | evalBreak here unfit =>
    simp only [here] at ahead unharmed
    simp only [called, here, ne_eq, Option.some.injEq] at other
    obtain ⟨later, heeded⟩ := ahead.resolve_left (Ne.symm other)
    exact absurd heeded (unharmed.resolve_left unfit i later)
  | clockDies here => rcases here with here | here <;> simp only [here] at ahead
  | setup here | tick here | clockStart here | call here | clear here | publishFault here | publishDies here
  | publish _ here | publishSkip _ here | doneTest here | clockCurrent here | waitTest here | sleepOver here
  | sleepInterrupted here | retTest here | errnoTest here | wakeDoneTest here | reset here | afterWait here
  | loopTest here | teardown here | closeDies here | close here => simp only [here] at ahead

/-- A row that waits goes on waiting, and so does one whose signal has just been handled. -/
theorem waiting_of_signal {options : Options} {s s' : State cfg σ} {signo : Int} {i : Row cfg}
    (unharmed : Unharmed s (.signal signo)) (failed : s.pc = .errnoTest → s.ret < 0)
    (waiting : Waiting s i ∨ (Handled signo ∧ Subscribes signo (cfg.arg i)))
    (move : Move options s (.signal signo) s') : Waiting s' i := by
  have kept := move
  cases move with
  | handledAsleep | endingAsleep => trivial
  | ending ends _ awake =>
    replace waiting := waiting.resolve_right fun handled => not_handled_of_ending ends handled.1
    unfold Waiting at waiting ⊢
    cases here : s.pc with
    | setup | tick | clockStart | call | afterWait =>
      simp only [here] at waiting ⊢
      tauto
    | publish caller => cases caller <;> simp
    | asleep interrupted => exact absurd here (awake interrupted)
    | _ => simp
  | handled kind _ awake =>
    have onward : Ahead s i → Ahead _ i := fun ahead => ahead_of_move unharmed nofun ahead kept
    replace unharmed := unharmed kind
    replace waiting := waiting.imp id And.right
    unfold Waiting at waiting ⊢
    cases here : s.pc with
    | setup | tick | clockStart | call =>
      simp only [here] at waiting unharmed ⊢
      exact heeds_of_covers (s := s) unharmed waiting
    | test caller iter rows =>
      simp only [here] at waiting unharmed ⊢
      rcases waiting with (done | ahead) | subscribes
      · exact .inl done
      · exact .inr (by simpa only [Ahead, here] using onward ahead)
      · exact unharmed.1.imp id fun all => ⟨all i subscribes, .inr subscribes⟩
    | eval caller iter j rest =>
      simp only [here] at waiting unharmed ⊢
      rcases waiting with (done | ahead) | subscribes
      · exact .inl done
      · exact .inr (by simpa only [Ahead, here] using onward ahead)
      · apply unharmed.1.imp id
        intro all
        exact (List.mem_cons.mp (all i subscribes)).imp id fun later => ⟨later, .inr subscribes⟩
    | publish caller iter =>
      cases caller with
      | timer =>
        simp only [here] at waiting unharmed ⊢
        exact heeds_unless (s := s) unharmed waiting
      | wakeup =>
        simp only [here] at waiting unharmed ⊢
        exact waiting.elim id fun subscribes => unharmed.resolve_right fun none => none i subscribes
    | clear | reset =>
      simp only [here] at waiting unharmed ⊢
      exact waiting.elim id fun subscribes => unharmed.resolve_right fun none => none i subscribes
    | doneTest | clockCurrent | waitTest | loopTest =>
      simp only [here] at waiting unharmed ⊢
      exact heeds_unless (s := s) unharmed waiting
    | retTest =>
      simp only [here, ← or_assoc (a := s.ret < 0)] at waiting unharmed ⊢
      exact heeds_unless (s := s) unharmed waiting
    | afterWait =>
      simp only [here] at waiting unharmed ⊢
      by_cases short : s.ret < 0
      · exact .inl ⟨short, zero_ne_EINTR⟩
      · have goesOn := waiting.imp (fun waits => waits.resolve_left fun dies => short dies.1) id
        exact .inr (heeds_unless (s := s) (unharmed.resolve_left short) goesOn)
    | asleep interrupted => exact absurd here (awake interrupted)
    | _ => trivial

theorem waiting_of_main {options : Options} {s s' : State cfg σ} {env : Env cfg σ} {i : Row cfg}
    (unharmed : Unharmed s (.main env)) (other : called (s, .main env) ≠ some i) (waiting : Waiting s i)
    (failed : s.pc = .errnoTest → s.ret < 0) (move : Move options s (.main env) s') : Waiting s' i := by
  have onward : ∀ {s' : State cfg σ}, Move options s (.main env) s' → Ahead s i → Ahead s' i :=
    fun move ahead => ahead_of_move unharmed other ahead move
  have kept := move
  unfold Waiting at waiting
  cases move with
  | testEnd here | evalBreak here =>
    simp only [here] at waiting
    exact waiting.resolve_right (onward kept)
  | select here | skip here | evalFits here =>
    simp only [here] at waiting
    exact waiting.imp id (onward kept)
  | setup here | tick here | clockStart here =>
    simp only [here] at waiting
    exact waiting
  | call here =>
    simp only [here] at waiting
    exact .inr ⟨mem_rows cfg i, waiting⟩
  | @clear _ caller _ here =>
    simp only [here] at waiting
    cases caller with
    | timer => exact .inl waiting
    | wakeup => exact waiting
  | publish caller here | publishSkip caller here =>
    simp only [here] at waiting
    cases caller <;> exact waiting
  | doneTest here =>
    simp only [here] at waiting
    by_cases done : s.done = true
    · simp only [Waiting, if_pos done]
      exact waiting
    · simp only [Waiting, if_neg done]
      exact waiting
  | clockCurrent here =>
    simp only [here] at waiting
    exact waiting
  | waitTest here =>
    simp only [here] at waiting
    by_cases sleeps : s.wait.tvSec ≥ 0
    · simp only [Waiting, if_pos sleeps]
      exact waiting
    · simp only [Waiting, if_neg sleeps]
      exact .inr waiting
  | sleepOver here =>
    simp only [here] at waiting
    exact .inr waiting
  | sleepInterrupted here => exact .inl (Int.negSucc_lt_zero 0)
  | retTest here =>
    simp only [here] at waiting
    by_cases short : s.ret < 0
    · simp only [Waiting, if_pos short]
    · simp only [Waiting, if_neg short]
      exact .inr (waiting.resolve_left short)
  | errnoTest here =>
    by_cases interrupted : s.errno = EINTR
    · simp only [Waiting, if_pos interrupted]
    · simp only [Waiting, if_neg interrupted]
      exact .inl ⟨failed here, interrupted⟩
  | wakeDoneTest here =>
    by_cases done : s.done = true
    · simp only [Waiting, if_pos done]
      exact .inr (.inl done)
    · simp only [Waiting, if_neg done]
      exact .inr ⟨mem_rows cfg i, .inl rfl⟩
  | reset here =>
    simp only [here] at waiting
    exact .inl waiting
  | afterWait here =>
    simp only [here] at waiting
    by_cases dies : s.ret < 0 ∧ s.errno ≠ EINTR
    · simp only [Waiting, if_pos dies]
    · simp only [Waiting, if_neg dies]
      exact waiting.resolve_left dies
  | loopTest here =>
    simp only [here] at waiting
    by_cases done : s.done = true
    · simp only [Waiting, if_pos done]
    · simp only [Waiting, if_neg done]
      exact waiting.resolve_left done
  | publishFault | publishDies | clockDies | teardown | closeDies | close => trivial

theorem ahead_of_start {options : Options} {s s' : State cfg σ} {label : Label cfg σ} {i : Row cfg}
    (start : starts (s, label) = true) (waiting : Waiting s i) (move : Move options s label s') : Ahead s' i := by
  unfold Waiting at waiting
  cases move with
  | call here =>
    simp only [here] at waiting
    exact ⟨mem_rows cfg i, waiting⟩
  | wakeDoneTest here =>
    simp only [starts, here, Bool.not_eq_true'] at start
    simp only [Ahead, start, Bool.false_eq_true, if_false]
    exact ⟨mem_rows cfg i, .inl trivial⟩
  | handled | handledAsleep | ending | endingAsleep | outside => cases start
  | clockDies here => rcases here with here | here <;> simp [starts, here] at start
  | setup here | tick here | clockStart here | testEnd here | select here | skip here | evalFits here
  | evalBreak here | clear here | publishFault here | publishDies here | publish _ here | publishSkip _ here
  | doneTest here | clockCurrent here | waitTest here | sleepOver here | sleepInterrupted here | retTest here
  | errnoTest here | reset here | afterWait here | loopTest here | teardown here | closeDies here | close here =>
    simp [starts, here] at start

omit [DecidableEq Comp] in
theorem not_ahead_of_end {s : State cfg σ} {label : Label cfg σ} {i : Row cfg} (finish : ends (s, label) = true) :
    ¬Ahead s i := by
  cases label with
  | main env =>
    unfold Ahead
    cases here : s.pc with
    | publish => exact id
    | _ => simp [ends, here] at finish
  | signal | outside => cases finish

theorem failed_of_move {options : Options} {s s' : State cfg σ} {label : Label cfg σ}
    (failed : s.pc = .errnoTest → s.ret < 0) (move : Move options s label s') (here : s'.pc = .errnoTest) :
    s'.ret < 0 := by
  cases move with
  | handled | ending | outside => exact failed here
  | retTest =>
    by_cases short : s.ret < 0
    · exact short
    · simp [short] at here
  | publish caller | publishSkip caller => cases caller <;> cases here
  | doneTest | waitTest | errnoTest | wakeDoneTest | afterWait | loopTest =>
    dsimp only at here
    split_ifs at here
  | _ => cases here

/-- The rows that a started pass owes are ahead of it, the others wait, and none is lost. -/
def Kept (past : Past (State cfg σ) (Label cfg σ)) (s : State cfg σ) : Prop :=
  (s.pc = .errnoTest → s.ret < 0) ∧
  ∀ i, (Promised i past → Ahead s i) ∧ (Owed i past → Waiting s i) ∧ ¬Lost i past

theorem kept_of_move {options : Options} {past : Past (State cfg σ) (Label cfg σ)} {s s' : State cfg σ}
    {label : Label cfg σ} (kept : Kept past s) (unharmed : Unharmed s label) (move : Move options s label s') :
    Kept ((s, label) :: past) s' := by
  obtain ⟨failed, kept⟩ := kept
  refine ⟨failed_of_move failed move, fun i => ?_⟩
  obtain ⟨ahead, waiting, found⟩ := kept i
  refine ⟨?_, ?_, ?_⟩
  · intro promised
    obtain ⟨other, earlier | ⟨start, owed⟩⟩ := promised_cons promised
    · exact ahead_of_move unharmed other (ahead earlier) move
    · exact ahead_of_start start (waiting owed) move
  · intro owed
    have carried := owed_cons owed
    cases label with
    | main env =>
      obtain ⟨other, owed⟩ := carried.resolve_left nofun
      exact waiting_of_main unharmed other (waiting owed) failed move
    | signal signo =>
      refine waiting_of_signal unharmed failed ?_ move
      rcases carried with ⟨_, same, delivers⟩ | ⟨-, owed⟩
      · cases same
        exact .inr delivers
      · exact .inl (waiting owed)
    | outside components =>
      obtain ⟨-, owed⟩ := carried.resolve_left nofun
      cases move
      exact waiting owed
  · intro lost
    rcases lost_cons lost with earlier | ⟨finish, promised⟩
    · exact found earlier
    · exact not_ahead_of_end finish (ahead promised)

/-- In a run whose signals all land where they cost no row an evaluation, and in which no
text that is too long gets in the way, no signal is lost. -/
theorem no_signal_lost (options : Options) (components : Comp → σ) {past : Past (State cfg σ) (Label cfg σ)}
    {s : State cfg σ} (run : Run (step options) (initial cfg options components) past s)
    (unharmed : Within Unharmed past) (i : Row cfg) : ¬Lost i past := by
  have kept : Kept past s := by
    refine run.invariant_past Unharmed Kept ?_ ?_ unharmed
    · exact ⟨nofun, fun i => ⟨fun promised => absurd promised since_nil, fun owed => absurd owed since_nil, since_nil⟩⟩
    · exact fun past before label after kept allowed taken => kept_of_move kept allowed (move_of_step taken)
  exact (kept.2 i).2.2

/-- `SIGUSR1` in the first sleep, and the pass that follows. -/
theorem no_signal_lost_usr1 :
    ∃ past s, Run (step toStdout) (initial defaultConfig toStdout fun _ => ()) past s ∧ s.pc = .reset ∧
      ∀ i, ¬Lost i past := by
  obtain ⟨past, s, run, checked⟩ := exists_run (step toStdout)
    (initial defaultConfig toStdout fun _ => ())
    (quietly defaultConfig 26 ++ .signal SIGUSR1 :: quietly defaultConfig 23)
    (fun past s => decide (s.pc = .reset ∧ Within Unharmed past)) (by decide)
  obtain ⟨ended, unharmed⟩ := of_decide_eq_true checked
  exact ⟨past, s, run, ended, no_signal_lost toStdout _ run unharmed⟩

/-- Two signals between two passes: the second one takes the place of the first. -/
theorem network_signal_lost :
    ∃ past s, Run (step toStdout) (initial defaultConfig toStdout fun _ => ()) past s ∧ Lost networkRow past := by
  obtain ⟨early, before, between, late, last, first, delivered, second, checked⟩ :=
    exists_run_through (step toStdout) (initial defaultConfig toStdout fun _ => ())
      (quietly defaultConfig 31) (.signal (SIGRTMIN + NM_SIGNAL))
      (.signal (SIGRTMIN + PA_SIGNAL) :: quietly defaultConfig 14)
      (fun _ _ late _ => decide (networkRow ∉ evaluated late) && (late.take 12).any ends &&
        (late.drop 12).head?.any starts) (by decide)
  simp only [Bool.and_eq_true, decide_eq_true_eq, List.any_eq_true, Option.any_eq_true] at checked
  obtain ⟨⟨absent, finish, member, ended⟩, start, found, started⟩ := checked
  obtain ⟨rest, split⟩ := List.head?_eq_some_iff.mp found
  refine ⟨_, last, (Run.step _ first delivered).trans second, late, _, early, rfl, ?_, absent, ?_⟩
  · exact ⟨_, rfl, by decide, by decide⟩
  · exact ⟨late.take 12, start, rest, by rw [← split, List.take_append_drop], started, finish, member, ended⟩

end SlStatus.Delivery
