import SlStatus.DefaultConfig
import SlStatus.Steps

/-! What is shown against what is stored. A pass called with the argument zero evaluates the
rows and publishes nothing unless `-S` was given: the first pass and every wake-up. -/

namespace SlStatus.Publication
open CString Util Table Printstatus Runs MainLoop Steps DefaultConfig
set_option maxRecDepth 4096

theorem readLetters_flag {letters : List Char} {options accepted : Options}
    (read : readLetters letters options = some accepted) :
    accepted.Sflag = true ↔ options.Sflag = true ∨ 'S' ∈ letters := by
  fun_induction readLetters letters options with
  | case1 options =>
    cases read
    simp
  | case2 options rest ih | case3 options rest ih =>
    rw [ih read]
    simp
  | case4 options rest ih =>
    rw [ih read]
    simp
  | case5 => cases read

/-- Of all the options only `-S` sets the flag. -/
theorem readArguments_flag {arguments : List (List Char)} {options accepted : Options}
    (read : readArguments arguments options = some accepted) :
    accepted.Sflag = true ↔ options.Sflag = true ∨ ∃ argument ∈ arguments, 'S' ∈ argument := by
  fun_induction readArguments arguments options with
  | case1 options =>
    cases read
    simp
  | case2 options =>
    cases read
    simp
  | case3 => cases read
  | case4 => cases read
  | case5 options letter letters rest other next letters_read ih =>
    rw [ih read, readLetters_flag letters_read]
    simp [or_assoc]
  | case6 => cases read

variable {Comp σ : Type*} {cfg : Config Comp} [DecidableEq Comp]

/-- The main loop is about to sleep or has been left. -/
def AtCheckpoint (s : State cfg σ) : Prop := (s.pc = .waitTest ∧ s.wait.tvSec ≥ 0) ∨ s.pc = .teardown

/-- The last published text is the current line, a `-1` run publishes one line, and a
`SIGUSR1` in the sleep has published one more by the end of the pass it brings about. -/
def ShownIsStored (cfg : Config Comp) (options : Options) (components : Comp → σ) : Prop :=
  ∀ (past : Past (State cfg σ) (Label cfg σ)) (s : State cfg σ),
    Run (step options) (initial cfg options components) past s →
    (AtCheckpoint s → s.published.head? = some (concatenation s.statuses)) ∧
    (options.done = true → s.pc = .teardown → s.published.length = 1) ∧
    ∀ late asleep early interrupted, past = late ++ (asleep, .signal SIGUSR1) :: early →
      asleep.pc = .asleep interrupted → s.pc = .reset → asleep.published.length < s.published.length

/-- Between two passes the current line is shown. -/
def Shown (s : State cfg σ) : Prop :=
  match s.pc with
  | .doneTest | .clockCurrent | .waitTest | .asleep _ | .retTest | .errnoTest | .wakeDoneTest | .reset
  | .afterWait | .loopTest | .teardown => s.published.head? = some (concatenation s.statuses)
  | _ => True

theorem shown_of_move {options : Options} (flag : options.Sflag = true) {s s' : State cfg σ}
    {label : Label cfg σ} (terminated : Terminated s.statuses) (shown : Shown s)
    (move : Move options s label s') : Shown s' := by
  unfold Shown at shown
  cases move with
  | handled | ending | outside => exact shown
  | handledAsleep _ here | endingAsleep _ here =>
    simp only [here] at shown
    exact shown
  | publish caller here built =>
    rw [buildLine_eq terminated, Option.some.injEq] at built
    subst built
    cases caller <;> rfl
  | publishSkip caller here guard => exact absurd (.inl flag) guard
  | setup | tick | clockStart | clockDies | call | testEnd | select | skip | evalFits | evalBreak | clear
  | publishFault | publishDies | teardown | closeDies | close => trivial
  | clockCurrent here | sleepOver here | sleepInterrupted here | reset here =>
    simp only [here] at shown
    exact shown
  | doneTest here | waitTest here | retTest here | errnoTest here | wakeDoneTest here | afterWait here
  | loopTest here =>
    simp only [here] at shown
    unfold Shown
    dsimp only
    split_ifs <;> first | exact shown | trivial

/-- The course of a `-1` run: one timer pass and out. -/
def Once (s : State cfg σ) : Prop :=
  match s.pc with
  | .setup | .tick | .clockStart | .call | .test .timer _ _ | .eval .timer _ _ _ | .clear .timer _
  | .publish .timer _ => s.done = true ∧ s.published.length = 0
  | .doneTest | .loopTest | .teardown => s.done = true ∧ s.published.length = 1
  | .close | .exited | .died _ | .fault => True
  | _ => False

theorem once_of_move {options : Options} (flag : options.Sflag = true) {s s' : State cfg σ}
    {label : Label cfg σ} (once : Once s) (move : Move options s label s') : Once s' := by
  unfold Once at once
  cases move with
  | handled | outside => exact once
  | ending =>
    unfold Once
    cases here : s.pc with
    | test caller | eval caller | clear caller | publish caller =>
      cases caller <;> simp only [here] at once ⊢
      exact ⟨trivial, once.2⟩
    | setup | tick | clockStart | call | doneTest | loopTest | teardown =>
      simp only [here] at once ⊢
      exact ⟨trivial, once.2⟩
    | close | exited | died | fault => trivial
    | _ => simp only [here] at once
  | @publish _ caller _ line here =>
    cases caller with
    | timer =>
      simp only [here] at once
      exact ⟨once.1, congrArg Nat.succ once.2⟩
    | wakeup => simp only [here] at once
  | publishSkip caller here guard => exact absurd (.inl flag) guard
  | setup here | tick here | clockStart here | call here | teardown here =>
    simp only [here] at once
    first | exact once | trivial
  | @testEnd _ caller _ here | @select _ caller _ _ _ here | @skip _ caller _ _ _ here
  | @evalFits _ caller _ _ _ here | @evalBreak _ caller _ _ _ here | @clear _ caller _ here =>
    simp only [here] at once
    cases caller <;> exact once
  | doneTest here =>
    simp only [here] at once
    simp only [Once, if_pos once.1]
    exact once
  | loopTest here =>
    simp only [here] at once
    simp only [Once, if_pos once.1]
    exact once
  | clockDies | publishFault | publishDies | closeDies | close => trivial
  | handledAsleep _ here | endingAsleep _ here | clockCurrent here | waitTest here | sleepOver here
  | sleepInterrupted here | retTest here | errnoTest here | wakeDoneTest here | reset here
  | afterWait here => simp only [here] at once

/-- More lines than `lines` by the end of a pass that a signal in the sleep brings about. -/
def Redrawn (lines : Nat) (s : State cfg σ) : Prop :=
  lines ≤ s.published.length ∧ (s.pc = .reset → lines < s.published.length)

theorem redrawn_of_move {options : Options} (flag : options.Sflag = true) {lines : Nat} {s s' : State cfg σ}
    {label : Label cfg σ} (redrawn : Redrawn lines s) (move : Move options s label s') : Redrawn lines s' := by
  obtain ⟨kept, more⟩ := redrawn
  cases move with
  | handled | ending | outside => exact ⟨kept, more⟩
  | publish caller => exact ⟨Nat.le_succ_of_le kept, fun _ => Nat.lt_succ_of_le kept⟩
  | publishSkip caller here guard => exact absurd (.inl flag) guard
  | doneTest | waitTest | retTest | errnoTest | wakeDoneTest | afterWait | loopTest =>
    refine ⟨kept, fun here => ?_⟩
    dsimp only at here
    split_ifs at here
  | _ => exact ⟨kept, nofun⟩

theorem shown_is_stored_of_flag {options : Options} (flag : options.Sflag = true) (components : Comp → σ) :
    ShownIsStored cfg options components := by
  intro past s run
  refine ⟨?_, ?_, ?_⟩
  · intro checkpoint
    have shown : Shown s := by
      refine (run.invariant (fun _ _ => True) (fun s => Terminated s.statuses ∧ Shown s) ?_ ?_ fun _ _ => trivial).2
      · exact ⟨terminated_of_run .start, trivial⟩
      · intro before label after held _ taken
        have move := move_of_step taken
        exact ⟨terminated_of_move held.1 move, shown_of_move flag held.1 held.2 move⟩
    rcases checkpoint with ⟨here, -⟩ | here <;> simpa only [Shown, here] using shown
  · intro done here
    have once : Once s := by
      refine run.invariant (fun _ _ => True) Once ?_ ?_ fun _ _ => trivial
      · exact ⟨done, rfl⟩
      · exact fun before label after held _ taken => once_of_move flag held (move_of_step taken)
    simp only [Once, here] at once
    exact once.2
  · rintro late asleep early interrupted rfl sleeping ended
    obtain ⟨-, woken, delivered, later⟩ := run.split_step
    have begun : Redrawn asleep.published.length woken := by
      cases move_of_step delivered with
      | handledAsleep | endingAsleep => exact ⟨le_refl _, nofun⟩
      | handled _ _ awake | ending _ _ awake => exact absurd sleeping (awake interrupted)
    have redrawn : Redrawn asleep.published.length s := by
      refine later.invariant (fun _ _ => True) (Redrawn asleep.published.length) begun ?_ fun _ _ => trivial
      exact fun before label after held _ taken => redrawn_of_move flag held (move_of_step taken)
    exact redrawn.2 ended

/-- A step of `main` in which nothing fails and no component changes or answers. -/
def plain (s : State cfg σ) (comp : Comp) : Env cfg σ :=
  { fails := false, errno := 0, now := s.start, rem := ⟨0, 0⟩, res := none, component := s.components comp,
    stack := Buffer.zeroed _ }

/-- The row loop of the first pass comes to its end whatever the table. -/
theorem exists_loop {options : Options} (rows : List (Row cfg)) (comp : Comp) {s : State cfg σ}
    (here : s.pc = .test .timer 0 rows) :
    ∃ past last, Run (step options) s past last ∧ last.pc = .clear .timer 0 ∧ last.published = s.published := by
  induction rows generalizing s with
  | nil =>
    have move : step options s (.main (plain s comp)) = some { s with pc := .clear .timer 0 } := by
      simp only [step, mainStep, here]
    exact ⟨_, _, .step _ .start move, rfl, rfl⟩
  | cons i rest ih =>
    have select : step options s (.main (plain s comp)) = some { s with pc := .eval .timer 0 i rest } := by
      simp only [step, mainStep, here, selected_zero, if_true]
    obtain ⟨after, call, goesTo, same⟩ :
        ∃ after, step options { s with pc := .eval .timer 0 i rest } (.main (plain s comp)) = some after ∧
          after.pc = (if (evaluate cfg s.statuses i none).2 < 0 then .clear .timer 0 else .test .timer 0 rest) ∧
          after.published = s.published := ⟨_, rfl, rfl, rfl⟩
    have reached := Run.step _ (.step _ .start select) call
    by_cases overflow : (evaluate cfg s.statuses i none).2 < 0
    · exact ⟨_, after, reached, goesTo.trans (if_pos overflow), same⟩
    · obtain ⟨past, last, run, ended, kept⟩ := ih (goesTo.trans (if_neg overflow))
      exact ⟨_, last, reached.trans run, ended, kept.trans same⟩

omit [DecidableEq Comp] in
theorem waitFor_now (start : Timespec) : (waitFor cfg start start).tvSec ≥ 0 := by
  have nonneg : ¬((cfg.interval % 1000).toNat * 1000000 : Int) < 0 := by omega
  simp only [waitFor, difftimespec, Int.sub_self, lt_irrefl, if_false, Int.sub_zero, Int.zero_mul, Int.add_zero,
    if_neg nonneg]
  exact Int.natCast_nonneg _

/-- Without `-S` the first pass comes to a checkpoint with nothing published. -/
theorem exists_unpublished {options : Options} (flag : options.Sflag = false) (components : Comp → σ) :
    ∃ past s, Run (step options) (initial cfg options components) past s ∧ AtCheckpoint s ∧ s.published = [] := by
  let first := initial cfg options components
  let comp := (cfg.args.head cfg.args_ne_nil).func
  obtain ⟨early, before, entered, here, none⟩ :
      ∃ early before, Run (step options) first early before ∧ before.pc = .test .timer 0 cfg.rows ∧
        before.published = [] := by
    have walked : replay (step options) [] first (List.replicate 4 (.main (plain first comp))) = some _ := rfl
    exact ⟨_, _, replay_run _ .start walked, rfl, rfl⟩
  obtain ⟨loop, s, looped, atClear, same⟩ := exists_loop cfg.rows comp here
  have run := entered.trans looped
  have clears : step options s (.main (plain s comp)) = some { s with upsigno := 0, pc := .publish .timer 0 } := by
    simp only [step, mainStep, atClear]
  have skips : step options { s with upsigno := 0, pc := .publish .timer 0 } (.main (plain s comp)) =
      some { s with upsigno := 0, pc := .doneTest } := by
    simp [step, mainStep, buildLine_eq (terminated_of_run run), flag, returnTo]
  have returned := Run.step _ (.step _ run clears) skips
  by_cases done : s.done = true
  · have leaves : step options { s with upsigno := 0, pc := .doneTest } (.main (plain s comp)) =
        some { s with upsigno := 0, pc := .loopTest } := by simp only [step, mainStep, if_pos done]
    have ends : step options { s with upsigno := 0, pc := .loopTest } (.main (plain s comp)) =
        some { s with upsigno := 0, pc := .teardown } := by simp only [step, mainStep, if_pos done]
    exact ⟨_, _, .step _ (.step _ returned leaves) ends, .inr rfl, same.trans none⟩
  · have stays : step options { s with upsigno := 0, pc := .doneTest } (.main (plain s comp)) =
        some { s with upsigno := 0, pc := .clockCurrent } := by simp only [step, mainStep, if_neg done]
    have reads : step options { s with upsigno := 0, pc := .clockCurrent } (.main (plain s comp)) =
        some { s with upsigno := 0, wait := waitFor cfg s.start s.start, pc := .waitTest } := rfl
    exact ⟨_, _, .step _ (.step _ returned stays) reads, .inl ⟨rfl, waitFor_now s.start⟩, same.trans none⟩

/-- What is shown is what is stored if and only if `-S` is among the options. -/
theorem shown_is_stored_iff (arguments : List (List Char)) {options : Options}
    (accepted : readArguments arguments noOptions = some options) (components : Comp → σ) :
    ShownIsStored cfg options components ↔ ∃ argument ∈ arguments, 'S' ∈ argument := by
  have flag : options.Sflag = true ↔ ∃ argument ∈ arguments, 'S' ∈ argument :=
    (readArguments_flag accepted).trans (or_iff_right nofun)
  rw [← flag]
  constructor
  · intro stored
    by_contra unset
    obtain ⟨past, s, run, checkpoint, empty⟩ := exists_unpublished (Bool.eq_false_iff.mpr unset) components
    have shown := (stored past s run).1 checkpoint
    rw [empty] at shown
    cases shown
  · exact fun flag => shown_is_stored_of_flag flag components

/-- `slstatus -s -S`. -/
theorem shown_is_stored_both :
    ∃ options, readArguments [['-', 's'], ['-', 'S']] noOptions = some options ∧
      ShownIsStored defaultConfig options fun _ => () :=
  ⟨⟨true, true, false⟩, rfl, (shown_is_stored_iff [['-', 's'], ['-', 'S']] rfl _).mpr (by decide)⟩

/-- `slstatus -1` leaves the main loop without having written anything. -/
theorem once_writes_nothing :
    ∃ options past s, readArguments [['-', '1']] noOptions = some options ∧
      Run (step options) (initial defaultConfig options fun _ => ()) past s ∧ s.pc = .teardown ∧
      s.published = [] ∧ ¬ShownIsStored defaultConfig options fun _ => () := by
  obtain ⟨past, s, run, checked⟩ := exists_run (step ⟨true, false, true⟩)
    (initial defaultConfig ⟨true, false, true⟩ fun _ => ()) (quietly defaultConfig 25)
    (fun _ s => decide (s.pc = .teardown ∧ s.published = [])) (by decide)
  obtain ⟨left, empty⟩ := of_decide_eq_true checked
  refine ⟨_, past, s, rfl, run, left, empty, fun stored => ?_⟩
  have shown := (stored past s run).1 (.inr left)
  rw [empty] at shown
  cases shown

end SlStatus.Publication
