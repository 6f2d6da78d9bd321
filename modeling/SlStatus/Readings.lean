import SlStatus.History

/-! `upsigno` is volatile, and the condition of a row reads it up to three times, so that a signal may come between
two of the reads. Here the test of a row is taken apart into the reads that it makes; all else is as in `MainLoop`,
where it is one step. -/

namespace SlStatus.Readings
open Table Printstatus Runs MainLoop Steps History

/-- The parts of the condition that read `upsigno`, in their order: the comparison with `SIGUSR1`, the turn, and the
signal of the row. -/
inductive Operand where
  | redraw | turn | own
  deriving DecidableEq

variable {Comp σ : Type*} {cfg : Config Comp}

/-- Whether a part holds, for what it has read. -/
def Operand.holds (iter : UInt32) (upsigno : Int) (arg : Arg Comp) : Operand → Bool
  | .redraw => decide (upsigno = SIGUSR1)
  | .turn => decide (upsigno = 0) && decide (arg.turn > 0) && decide (iter % arg.turn = 0)
  | .own => decide (upsigno - SIGRTMIN = arg.signal)

/-- What is evaluated if a part does not hold; rows without a signal have no third part. -/
def Operand.next (arg : Arg Comp) : Operand → Option Operand
  | .redraw => some .turn
  | .turn => if arg.signal ≥ 0 then some .own else none
  | .own => none

/-- With the part that the row at the cursor comes to. -/
structure Reader (cfg : Config Comp) (σ : Type*) extends State cfg σ where
  operand : Operand

variable [DecidableEq Comp]

def mainStep (options : Options) (s : Reader cfg σ) (env : Env cfg σ) : Option (Reader cfg σ) :=
  match s.pc with
  | .test caller iter (i :: rest) =>
      -- nothing is read for an argument of zero
      if iter = 0 ∨ s.operand.holds iter s.upsigno (cfg.arg i) = true then
        some { s with pc := .eval caller iter i rest, operand := .redraw }
      else
        match s.operand.next (cfg.arg i) with
        | some operand => some { s with operand }
        | none => some { s with pc := .test caller iter rest, operand := .redraw }
  | _ => (MainLoop.mainStep options s.toState env).map fun after => { toState := after, operand := .redraw }

def step (options : Options) (s : Reader cfg σ) : Label cfg σ → Option (Reader cfg σ)
  | .main env => mainStep options s env
  | label => (MainLoop.step options s.toState label).map fun after => { toState := after, operand := s.operand }

def initial (cfg : Config Comp) (options : Options) (components : Comp → σ) : Reader cfg σ :=
  { toState := MainLoop.initial cfg options components, operand := .redraw }

/-- The past without the parts. -/
def whole (past : Past (Reader cfg σ) (Label cfg σ)) : Past (State cfg σ) (Label cfg σ) :=
  past.map fun taken => (taken.1.toState, taken.2)

/-- A read of `upsigno`: the row, the part of its condition, and the value. -/
def reading : Reader cfg σ × Label cfg σ → Option (Row cfg × Operand × Int)
  | (s, .main _) =>
      match s.pc with
      | .test _ _ (i :: _) => some (i, s.operand, s.upsigno)
      | _ => none
  | _ => none

/-- Latest first. -/
def readings (past : Past (Reader cfg σ) (Label cfg σ)) : List (Row cfg × Operand × Int) := past.filterMap reading

/-- What a step does: it goes through one part of a condition, or it is a step of `MainLoop` elsewhere. -/
inductive Move (options : Options) : Reader cfg σ → Label cfg σ → Reader cfg σ → Prop where
  | select {s : Reader cfg σ} {env : Env cfg σ} {caller : Caller} {iter : UInt32} {i : Row cfg}
      {rest : List (Row cfg)} (here : s.pc = .test caller iter (i :: rest))
      (holds : iter = 0 ∨ s.operand.holds iter s.upsigno (cfg.arg i) = true) :
      Move options s (.main env) { s with pc := .eval caller iter i rest, operand := .redraw }
  | goOn {s : Reader cfg σ} {env : Env cfg σ} {caller : Caller} {iter : UInt32} {i : Row cfg} {rest : List (Row cfg)}
      {operand : Operand} (here : s.pc = .test caller iter (i :: rest))
      (fails : ¬(iter = 0 ∨ s.operand.holds iter s.upsigno (cfg.arg i) = true))
      (next : s.operand.next (cfg.arg i) = some operand) : Move options s (.main env) { s with operand }
  | skip {s : Reader cfg σ} {env : Env cfg σ} {caller : Caller} {iter : UInt32} {i : Row cfg} {rest : List (Row cfg)}
      (here : s.pc = .test caller iter (i :: rest))
      (fails : ¬(iter = 0 ∨ s.operand.holds iter s.upsigno (cfg.arg i) = true))
      (last : s.operand.next (cfg.arg i) = none) :
      Move options s (.main env) { s with pc := .test caller iter rest, operand := .redraw }
  | apart {s : Reader cfg σ} {label : Label cfg σ} {after : State cfg σ} (operand : Operand)
      (elsewhere : reading (s, label) = none) (move : Steps.Move options s.toState label after) :
      Move options s label { toState := after, operand }

omit [DecidableEq Comp] in
theorem reading_elsewhere {s : Reader cfg σ} {env : Env cfg σ}
    (away : ∀ caller iter i rest, s.pc ≠ .test caller iter (i :: rest)) : reading (s, .main env) = none := by
  cases here : s.pc with
  | test caller iter rows =>
    cases rows with
    | nil => simp only [reading, here]
    | cons i rest => exact absurd here (away caller iter i rest)
  | _ => simp only [reading, here]

theorem move_of_step {options : Options} {s s' : Reader cfg σ} {label : Label cfg σ}
    (taken : step options s label = some s') : Move options s label s' := by
  have other (operand : Operand) (elsewhere : reading (s, label) = none)
      (moved : (MainLoop.step options s.toState label).map (fun after => { toState := after, operand }) = some s') :
      Move options s label s' := by
    obtain ⟨after, move, rfl⟩ := Option.map_eq_some_iff.mp moved
    exact .apart operand elsewhere (Steps.move_of_step move)
  cases label with
  | signal signo => exact other s.operand rfl taken
  | outside components => exact other s.operand rfl taken
  | main env =>
    change mainStep options s env = some s' at taken
    unfold mainStep at taken
    split at taken
    next caller iter i rest here =>
      split_ifs at taken with holds
      · cases taken
        exact .select here holds
      · split at taken
        next operand next =>
          cases taken
          exact .goOn here holds next
        next last =>
          cases taken
          exact .skip here holds last
    next away => exact other .redraw (reading_elsewhere away) taken

section Past

variable {s : Reader cfg σ} {env : Env cfg σ} {caller : Caller} {iter : UInt32} {i : Row cfg} {rest : List (Row cfg)}

omit [DecidableEq Comp] in
theorem readings_test (past : Past (Reader cfg σ) (Label cfg σ)) (here : s.pc = .test caller iter (i :: rest)) :
    readings ((s, .main env) :: past) = (i, s.operand, s.upsigno) :: readings past :=
  List.filterMap_cons_some (by simp only [reading, here])

omit [DecidableEq Comp] in
theorem readings_other {taken : Reader cfg σ × Label cfg σ} (past : Past (Reader cfg σ) (Label cfg σ))
    (elsewhere : reading taken = none) : readings (taken :: past) = readings past :=
  List.filterMap_cons_none elsewhere

end Past

section Uninterrupted

variable {options : Options} {s s' : State cfg σ} {env : Env cfg σ} {caller : Caller} {iter : UInt32} {i : Row cfg}
  {rest : List (Row cfg)}

theorem step_taking (here : s.pc = .test caller iter (i :: rest)) {operand : Operand}
    (holds : iter = 0 ∨ operand.holds iter s.upsigno (cfg.arg i) = true) :
    step options { toState := s, operand } (.main env) =
      some { toState := { s with pc := .eval caller iter i rest }, operand := .redraw } := by
  simp only [step, mainStep, here, if_pos holds]

theorem step_failing (here : s.pc = .test caller iter (i :: rest)) {operand : Operand}
    (fails : ¬(iter = 0 ∨ operand.holds iter s.upsigno (cfg.arg i) = true)) :
    step options { toState := s, operand } (.main env) =
      match operand.next (cfg.arg i) with
      | some operand => some { toState := s, operand }
      | none => some { toState := { s with pc := .test caller iter rest }, operand := .redraw } := by
  simp only [step, mainStep, here, if_neg fails]

/-- A run that reads the parts from one on, with no signal in between, to the row that it takes or to the next. -/
def Reads (options : Options) (s : State cfg σ) (operand : Operand) (s' : State cfg σ) : Prop :=
  ∃ past, Run (step options) { toState := s, operand } past { toState := s', operand := .redraw } ∧
    evaluated (whole past) = []

omit [DecidableEq Comp] in
theorem evaluated_test (here : s.pc = .test caller iter (i :: rest)) (operand : Operand)
    {past : Past (Reader cfg σ) (Label cfg σ)} (none : evaluated (whole past) = []) :
    evaluated (whole (past ++ [({ toState := s, operand }, .main env)])) = [] := by
  have uncalled := called_test here (.main env)
  unfold evaluated whole at none ⊢
  rw [List.map_append, List.filterMap_append, none, List.map_singleton, List.nil_append]
  exact List.filterMap_cons_none uncalled

theorem reads_taking (here : s.pc = .test caller iter (i :: rest)) (env : Env cfg σ) {operand : Operand}
    (holds : iter = 0 ∨ operand.holds iter s.upsigno (cfg.arg i) = true) :
    Reads options s operand { s with pc := .eval caller iter i rest } := by
  have taken := @step_taking _ _ _ _ options _ env _ _ _ _ here _ holds
  exact ⟨_, .step _ .start taken, @evaluated_test _ _ _ _ _ _ _ _ _ here operand [] rfl⟩

theorem reads_skipping (here : s.pc = .test caller iter (i :: rest)) (env : Env cfg σ) {operand : Operand}
    (fails : ¬(iter = 0 ∨ operand.holds iter s.upsigno (cfg.arg i) = true))
    (last : operand.next (cfg.arg i) = none) : Reads options s operand { s with pc := .test caller iter rest } := by
  have taken := @step_failing _ _ _ _ options _ env _ _ _ _ here _ fails
  rw [last] at taken
  exact ⟨_, .step _ .start taken, @evaluated_test _ _ _ _ _ _ _ _ _ here operand [] rfl⟩

theorem reads_going_on (here : s.pc = .test caller iter (i :: rest)) (env : Env cfg σ) {operand following : Operand}
    (fails : ¬(iter = 0 ∨ operand.holds iter s.upsigno (cfg.arg i) = true))
    (next : operand.next (cfg.arg i) = some following) (reads : Reads options s following s') :
    Reads options s operand s' := by
  have taken := @step_failing _ _ _ _ options _ env _ _ _ _ here _ fails
  rw [next] at taken
  obtain ⟨past, run, none⟩ := reads
  exact ⟨_, (Run.start.step (.main env) taken).trans run, evaluated_test here operand none⟩

/-- The parts together are the condition that `MainLoop` tests in one step. -/
theorem reads_selected (here : s.pc = .test caller iter (i :: rest)) (env : Env cfg σ) :
    Reads options s .redraw
      { s with
        pc := if selected iter s.upsigno (cfg.arg i) = true then .eval caller iter i rest
          else .test caller iter rest } := by
  by_cases redraw : iter = 0 ∨ Operand.redraw.holds iter s.upsigno (cfg.arg i) = true
  · have chosen : selected iter s.upsigno (cfg.arg i) = true := by
      rw [selected_iff]
      exact redraw.imp_right fun same => .inl (.inl (of_decide_eq_true same))
    rw [if_pos chosen]
    exact reads_taking here env redraw
  · apply reads_going_on here env redraw rfl
    by_cases turn : iter = 0 ∨ Operand.turn.holds iter s.upsigno (cfg.arg i) = true
    · have chosen : selected iter s.upsigno (cfg.arg i) = true := by
        rw [selected_iff]
        refine turn.imp_right fun due => .inr ?_
        simpa [Operand.holds, and_assoc] using due
      rw [if_pos chosen]
      exact reads_taking here env turn
    · have own : selected iter s.upsigno (cfg.arg i) = true ↔
          (cfg.arg i).signal ≥ 0 ∧ s.upsigno - SIGRTMIN = (cfg.arg i).signal := by
        rw [selected_iff, Subscribes]
        simp only [Operand.holds, not_or, Bool.and_eq_true, decide_eq_true_eq] at redraw turn
        tauto
      by_cases signal : (cfg.arg i).signal ≥ 0
      · apply reads_going_on here env turn (if_pos signal)
        by_cases same : s.upsigno - SIGRTMIN = (cfg.arg i).signal
        · rw [if_pos (own.mpr ⟨signal, same⟩)]
          exact reads_taking here env (.inr (decide_eq_true same))
        · have fails : ¬(iter = 0 ∨ Operand.own.holds iter s.upsigno (cfg.arg i) = true) := by
            rw [Operand.holds, decide_eq_true_eq]
            exact not_or.mpr ⟨(not_or.mp turn).1, same⟩
          rw [if_neg fun chosen => same (own.mp chosen).2]
          exact reads_skipping here env fails rfl
      · rw [if_neg fun chosen => signal (own.mp chosen).1]
        exact reads_skipping here env turn (if_neg signal)

theorem reads_of_step {label : Label cfg σ} (taken : MainLoop.step options s label = some s') :
    ∃ past, Run (step options) { toState := s, operand := .redraw } past { toState := s', operand := .redraw } ∧
      evaluated (whole past) = evaluated [(s, label)] := by
  have alone (moved : step options { toState := s, operand := .redraw } label =
      some { toState := s', operand := .redraw }) :
      ∃ past, Run (step options) { toState := s, operand := .redraw } past { toState := s', operand := .redraw } ∧
        evaluated (whole past) = evaluated [(s, label)] := ⟨_, .step label .start moved, rfl⟩
  cases label with
  | signal signo => exact alone (Option.map_eq_some_iff.mpr ⟨s', taken, rfl⟩)
  | outside components => exact alone (Option.map_eq_some_iff.mpr ⟨s', taken, rfl⟩)
  | main env =>
    by_cases atRow : ∃ caller iter i rest, s.pc = .test caller iter (i :: rest)
    · obtain ⟨caller, iter, i, rest, here⟩ := atRow
      have after : s' = { s with
          pc := if selected iter s.upsigno (cfg.arg i) = true then .eval caller iter i rest
            else .test caller iter rest } := by
        change MainLoop.mainStep options s env = some s' at taken
        simp only [MainLoop.mainStep, here] at taken
        split_ifs at taken with chosen
        · rw [if_pos chosen]
          exact (Option.some.inj taken).symm
        · rw [if_neg chosen]
          exact (Option.some.inj taken).symm
      obtain ⟨past, run, none⟩ := @reads_selected _ _ _ _ options s _ _ _ _ here env
      rw [after]
      exact ⟨past, run, none.trans (evaluated_other [] (called_test here (.main env))).symm⟩
    · apply alone
      change mainStep options _ env = _
      unfold mainStep
      split
      next caller iter i rest here => exact absurd ⟨caller, iter, i, rest, here⟩ atRow
      next => exact Option.map_eq_some_iff.mpr ⟨s', taken, rfl⟩

end Uninterrupted

/-- Each run of `MainLoop` is one of these, with the same rows evaluated. -/
theorem reads_of_run {options : Options} {first last : State cfg σ} {past : Past (State cfg σ) (Label cfg σ)}
    (run : Run (MainLoop.step options) first past last) :
    ∃ reads, Run (step options) { toState := first, operand := .redraw } reads { toState := last, operand := .redraw } ∧
      evaluated (whole reads) = evaluated past := by
  induction run with
  | start => exact ⟨[], .start, rfl⟩
  | @step past before after label run taken ih =>
    obtain ⟨early, before, same⟩ := ih
    obtain ⟨late, after, last⟩ := reads_of_step taken
    refine ⟨late ++ early, before.trans after, ?_⟩
    unfold evaluated whole at same last ⊢
    rw [List.map_append, List.filterMap_append, last, same]
    exact (@List.filterMap_append _ _ [(_, label)] past called).symm

end SlStatus.Readings
