import SlStatus.DefaultConfig
import SlStatus.Readings

/-! The timer passes, counted without bound, and the rows due in each. What a pass evaluates is read off the reads of
the pending signal that it made: signals may come in between. -/

namespace SlStatus.Schedule
open Table Runs History DefaultConfig Readings
open MainLoop hiding initial mainStep step
set_option maxRecDepth 4096

variable {Comp σ : Type*} {cfg : Config Comp}

/-- The step is `printstatus(iter++)`. -/
def calling : State cfg σ × Label cfg σ → Bool
  | (s, .main _) =>
      match s.pc with
      | .call => true
      | _ => false
  | _ => false

def calls (past : Past (State cfg σ) (Label cfg σ)) : Nat := past.countP calling

/-- The row is refreshed every `turn` seconds and the pass is one of those. -/
def Due (pass : Nat) (i : Row cfg) : Prop := 0 < (cfg.arg i).turn ∧ (cfg.arg i).turn.toNat ∣ pass

/-- What a part of the condition has to find pending if it is to select a row that is due. The counter is known modulo
its size. -/
def Undelayed (pass : Nat) (i : Row cfg) (upsigno : Int) : Operand → Prop
  | .redraw => upsigno = SIGUSR1
  | .turn => upsigno = 0 ∧ (cfg.arg i).turn.toNat ∣ pass % UInt32.size
  | .own => upsigno - SIGRTMIN = (cfg.arg i).signal

/-- One of the reads for the row finds it, unless the argument of the pass is zero and nothing is read. -/
def Heeded (pass : Nat) (i : Row cfg) (reads : List (Row cfg × Operand × Int)) : Prop :=
  pass % UInt32.size = 0 ∨ ∃ read ∈ reads, read.1 = i ∧ Undelayed pass i read.2.2 read.2.1

instance (pass : Nat) (i : Row cfg) : Decidable (Due pass i) := inferInstanceAs (Decidable (_ ∧ _))

instance (pass : Nat) (i : Row cfg) (upsigno : Int) (operand : Operand) : Decidable (Undelayed pass i upsigno operand) :=
  match operand with
  | .redraw => inferInstanceAs (Decidable (_ = _))
  | .turn => inferInstanceAs (Decidable (_ ∧ _))
  | .own => inferInstanceAs (Decidable (_ = _))

instance (pass : Nat) (i : Row cfg) (reads : List (Row cfg × Operand × Int)) : Decidable (Heeded pass i reads) :=
  inferInstanceAs (Decidable (_ ∨ _))

/-- No row loop ends on the way, and no text is too long for its slot. -/
def Looping (s : State cfg σ) : Label cfg σ → Prop
  | .main env =>
      match s.pc with
      | .clear _ _ => False
      | .eval _ _ i _ => Fits cfg i env.res
      | _ => True
  | _ => True

instance (s : State cfg σ) : (label : Label cfg σ) → Decidable (Looping s label)
  | .signal _ => inferInstanceAs (Decidable True)
  | .outside _ => inferInstanceAs (Decidable True)
  | .main env => by
      dsimp only [Looping]
      induction s.pc using Pc.casesOn <;> infer_instance

/-- One of the parts holds, or the argument is zero. -/
def Taking (k : UInt32) (i : Row cfg) (reads : List (Row cfg × Operand × Int)) : Prop :=
  ∃ read ∈ reads, read.1 = i ∧ (k = 0 ∨ read.2.1.holds k read.2.2 (cfg.arg i) = true)

/-- The rows behind the cursor have been read for, and those that were taken are those evaluated. -/
structure Passed (k iter : UInt32) (rest : List (Row cfg)) (taken : List (Row cfg))
    (past : Past (Reader cfg σ) (Label cfg σ)) : Prop where
  argument : iter = k
  read : ∀ i, i ∈ rest ∨ ∃ read ∈ readings past, read.1 = i
  taken : ∀ i, i ∈ taken ↔ Taking k i (readings past)

def InLoop (k : UInt32) (past : Past (Reader cfg σ) (Label cfg σ)) (s : Reader cfg σ) : Prop :=
  match s.pc with
  | .test .timer iter rows => Passed k iter rows (evaluated (whole past)) past
  | .eval .timer iter i rest => Passed k iter rest (i :: evaluated (whole past)) past
  | .clear .timer iter => Passed k iter [] (evaluated (whole past)) past
  | _ => False

section Steps

variable {k iter : UInt32} {i : Row cfg} {rest taken : List (Row cfg)} {past : Past (Reader cfg σ) (Label cfg σ)}
  {s : Reader cfg σ} {env : Env cfg σ} {caller : Caller}

theorem taking_cons {read : Row cfg × Operand × Int} {reads : List (Row cfg × Operand × Int)} {j : Row cfg} :
    Taking k j (read :: reads) ↔
      read.1 = j ∧ (k = 0 ∨ read.2.1.holds k read.2.2 (cfg.arg j) = true) ∨ Taking k j reads := by
  simp only [Taking, List.mem_cons, exists_eq_or_imp]

/-- What a step makes of the bookkeeping at the row it reads for. -/
theorem Passed.read_row (passed : Passed k iter (i :: rest) taken past) (here : s.pc = .test caller iter (i :: rest)) :
    ∀ j, j ∈ rest ∨ ∃ read ∈ readings ((s, .main env) :: past), read.1 = j := by
  intro j
  rw [readings_test past here]
  rcases passed.read j with member | ⟨read, member, same⟩
  · rcases List.mem_cons.mp member with rfl | later
    · exact .inr ⟨_, List.mem_cons_self, rfl⟩
    · exact .inl later
  · exact .inr ⟨read, List.mem_cons_of_mem _ member, same⟩

/-- A read that does not hold takes no row. -/
theorem Passed.fails (passed : Passed k iter (i :: rest) taken past) (here : s.pc = .test caller iter (i :: rest))
    (fails : ¬(iter = 0 ∨ s.operand.holds iter s.upsigno (cfg.arg i) = true)) (j : Row cfg) :
    j ∈ taken ↔ Taking k j (readings ((s, .main env) :: past)) := by
  rw [readings_test past here, taking_cons, passed.taken]
  refine (or_iff_right ?_).symm
  rintro ⟨rfl, holds⟩
  rw [passed.argument] at fails
  exact fails holds

theorem Passed.holds (passed : Passed k iter (i :: rest) taken past) (here : s.pc = .test caller iter (i :: rest))
    (holds : iter = 0 ∨ s.operand.holds iter s.upsigno (cfg.arg i) = true) (j : Row cfg) :
    j ∈ i :: taken ↔ Taking k j (readings ((s, .main env) :: past)) := by
  rw [readings_test past here, taking_cons, List.mem_cons, passed.taken]
  apply or_congr_left
  rw [passed.argument] at holds
  constructor
  · rintro rfl
    exact ⟨rfl, holds⟩
  · rintro ⟨rfl, -⟩
    rfl

end Steps

variable [DecidableEq Comp]

/-- Elsewhere in the pass nothing is read, and an evaluation is the one of the row that was taken. -/
theorem inLoop_of_apart {options : Options} {k : UInt32} {past : Past (Reader cfg σ) (Label cfg σ)} {s : Reader cfg σ}
    {after : State cfg σ} {label : Label cfg σ} (operand : Operand) (inside : InLoop k past s)
    (looping : Looping s.toState label) (elsewhere : reading (s, label) = none)
    (move : Steps.Move options s.toState label after) :
    InLoop k ((s, label) :: past) { toState := after, operand } := by
  have kept {iter : UInt32} {rest taken : List (Row cfg)} (passed : Passed k iter rest taken past) :
      Passed k iter rest taken ((s, label) :: past) := by
    have same := readings_other past elsewhere
    exact ⟨passed.argument, fun i => same.symm ▸ passed.read i, fun i => same.symm ▸ passed.taken i⟩
  have idle (uncalled : called (s.toState, label) = none) (same : after.pc = s.pc) :
      InLoop k ((s, label) :: past) { toState := after, operand } := by
    have evaluated : evaluated (whole ((s, label) :: past)) = evaluated (whole past) := evaluated_other _ uncalled
    unfold InLoop at inside ⊢
    rw [evaluated]
    dsimp only
    rw [same]
    split at inside
    · exact kept inside
    · exact kept inside
    · exact kept inside
    · exact inside.elim
  cases move with
  | handled | ending | outside => exact idle rfl rfl
  | handledAsleep _ here | endingAsleep _ here => simp only [InLoop, here] at inside
  | @testEnd env caller iter here =>
    have uncalled := called_test here (.main env)
    simp only [InLoop, here] at inside
    cases caller with
    | wakeup => exact inside.elim
    | timer =>
      have evaluated : evaluated (whole ((s, .main env) :: past)) = evaluated (whole past) :=
        evaluated_other _ uncalled
      change Passed k iter [] (History.evaluated (whole ((s, .main env) :: past))) ((s, .main env) :: past)
      rw [evaluated]
      exact kept inside
  | select here | skip here => simp only [reading, here, reduceCtorEq] at elsewhere
  | @evalFits env caller iter i rest here =>
    simp only [InLoop, here] at inside
    cases caller with
    | wakeup => exact inside.elim
    | timer =>
      have evaluated : evaluated (whole ((s, .main env) :: past)) = i :: evaluated (whole past) :=
        evaluated_eval _ here
      change Passed k iter rest (History.evaluated (whole ((s, .main env) :: past))) ((s, .main env) :: past)
      rw [evaluated]
      exact kept inside
  | evalBreak here unfit =>
    simp only [Looping, here] at looping
    exact absurd looping unfit
  | clear here => simp only [Looping, here] at looping
  | clockDies here => rcases here with here | here <;> simp only [InLoop, here] at inside
  | setup here | tick here | clockStart here | call here | publishFault here | publishDies here
  | publish _ here | publishSkip _ here | doneTest here | clockCurrent here | waitTest here | sleepOver here
  | sleepInterrupted here | retTest here | errnoTest here | wakeDoneTest here | reset here | afterWait here
  | loopTest here | teardown here | closeDies here | close here => simp only [InLoop, here] at inside

theorem inLoop_of_move {options : Options} {k : UInt32} {past : Past (Reader cfg σ) (Label cfg σ)}
    {s s' : Reader cfg σ} {label : Label cfg σ} (inside : InLoop k past s) (looping : Looping s.toState label)
    (move : Readings.Move options s label s') : InLoop k ((s, label) :: past) s' := by
  cases move with
  | apart operand elsewhere move => exact inLoop_of_apart operand inside looping elsewhere move
  | @select env caller iter i rest here holds =>
    have uncalled := called_test here (.main env)
    have evaluated : evaluated (whole ((s, .main env) :: past)) = evaluated (whole past) := evaluated_other _ uncalled
    simp only [InLoop, here] at inside
    cases caller with
    | wakeup => exact inside.elim
    | timer =>
      change Passed k iter rest (i :: History.evaluated (whole ((s, .main env) :: past))) ((s, .main env) :: past)
      rw [evaluated]
      exact ⟨inside.argument, inside.read_row here, inside.holds here holds⟩
  | @goOn env caller iter i rest operand here fails next =>
    have uncalled := called_test here (.main env)
    have evaluated : evaluated (whole ((s, .main env) :: past)) = evaluated (whole past) := evaluated_other _ uncalled
    unfold InLoop at inside ⊢
    dsimp only
    rw [here] at inside ⊢
    cases caller with
    | wakeup => exact inside.elim
    | timer =>
      dsimp only at inside ⊢
      rw [evaluated]
      refine ⟨inside.argument, ?_, inside.fails here fails⟩
      intro j
      exact (inside.read_row here j).imp_left (List.mem_cons_of_mem _)
  | @skip env caller iter i rest here fails last =>
    have uncalled := called_test here (.main env)
    have evaluated : evaluated (whole ((s, .main env) :: past)) = evaluated (whole past) := evaluated_other _ uncalled
    simp only [InLoop, here] at inside
    cases caller with
    | wakeup => exact inside.elim
    | timer =>
      change Passed k iter rest (History.evaluated (whole ((s, .main env) :: past))) ((s, .main env) :: past)
      rw [evaluated]
      exact ⟨inside.argument, inside.read_row here, inside.fails here fails⟩

theorem calls_of_move {options : Options} {s s' : State cfg σ} {label : Label cfg σ}
    {past : Past (State cfg σ) (Label cfg σ)} (count : s.iter.toNat = calls past % UInt32.size)
    (move : Steps.Move options s label s') : s'.iter.toNat = calls ((s, label) :: past) % UInt32.size := by
  have kept (other : calling (s, label) = false) : s.iter.toNat = calls ((s, label) :: past) % UInt32.size := by
    rw [calls, List.countP_cons_of_neg (by simp [other])]
    exact count
  cases move with
  | call here =>
    rw [calls, List.countP_cons_of_pos (by simp only [calling, here])]
    simp only [UInt32.toNat_add, count, calls]
    simp [Nat.add_mod]
  | handled | handledAsleep | ending | endingAsleep | outside => exact kept rfl
  | clockDies here => exact kept (by rcases here with here | here <;> simp only [calling, here])
  | _ => exact kept (by simp only [calling, *])

/-- The argument of a pass is its number, modulo the size of the counter. -/
theorem iter_of_run {options : Options} {components : Comp → σ} {past : Past (Reader cfg σ) (Label cfg σ)}
    {s : Reader cfg σ} (run : Run (step options) (initial cfg options components) past s) :
    s.iter.toNat = calls (whole past) % UInt32.size := by
  induction run with
  | start => rfl
  | @step past before after label run taken ih =>
    have atRow {env : Env cfg σ} {caller : Caller} {iter : UInt32} {i : Row cfg} {rest : List (Row cfg)}
        (here : before.pc = .test caller iter (i :: rest)) :
        before.iter.toNat = calls (whole ((before, .main env) :: past)) % UInt32.size := by
      have other : calling (before.toState, .main env) = false := by simp only [calling, here]
      change _ = calls ((before.toState, .main env) :: whole past) % UInt32.size
      rw [calls, List.countP_cons_of_neg (by simp [other])]
      exact ih
    cases move_of_step taken with
    | select here | goOn here | skip here => exact atRow here
    | apart operand elsewhere move => exact calls_of_move ih move

omit [DecidableEq Comp] in
/-- For a row that is due, a part of the condition comes to this. -/
theorem holds_of_due {pass : Nat} {k : UInt32} (count : k.toNat = pass % UInt32.size) {i : Row cfg}
    (due : Due pass i) (upsigno : Int) (operand : Operand) :
    operand.holds k upsigno (cfg.arg i) = true ↔ Undelayed pass i upsigno operand := by
  have turn : k % (cfg.arg i).turn = 0 ↔ (cfg.arg i).turn.toNat ∣ pass % UInt32.size := by
    rw [← count, ← UInt32.toNat_inj, UInt32.toNat_mod, Nat.dvd_iff_mod_eq_zero]
    rfl
  have positive : (cfg.arg i).turn > 0 := due.1
  cases operand with
  | redraw | own => simp only [Operand.holds, Undelayed, decide_eq_true_eq]
  | turn => simp only [Operand.holds, Undelayed, Bool.and_eq_true, decide_eq_true_eq, positive, and_true, turn]

omit [DecidableEq Comp] in
theorem taking_of_due {pass : Nat} {k : UInt32} (count : k.toNat = pass % UInt32.size) {i : Row cfg}
    (due : Due pass i) {reads : List (Row cfg × Operand × Int)} (read : ∃ read ∈ reads, read.1 = i) :
    Taking k i reads ↔ Heeded pass i reads := by
  have zero : k = 0 ↔ pass % UInt32.size = 0 := by
    rw [← count, ← UInt32.toNat_inj]
    rfl
  unfold Taking Heeded
  simp only [holds_of_due count due, zero]
  constructor
  · rintro ⟨read, member, same, wrapped | undelayed⟩
    · exact .inl wrapped
    · exact .inr ⟨read, member, same, undelayed⟩
  · rintro (wrapped | ⟨read, member, same, undelayed⟩)
    · obtain ⟨read, member, same⟩ := read
      exact ⟨read, member, same, .inl wrapped⟩
    · exact ⟨read, member, same, .inr undelayed⟩

theorem whole_loop {options : Options} {components : Comp → σ} {early pass : Past (Reader cfg σ) (Label cfg σ)}
    {start after : Reader cfg σ} {env : Env cfg σ} {iter : UInt32}
    (run : Run (step options) (initial cfg options components) (pass ++ (start, .main env) :: early) after)
    (call : start.pc = .call) (looping : ∀ taken ∈ whole pass, Looping taken.1 taken.2)
    (ended : after.pc = .clear .timer iter) :
    start.iter.toNat = calls (whole early) % UInt32.size ∧
      Passed start.iter iter [] (evaluated (whole pass)) pass := by
  obtain ⟨earlier, within, entered, later⟩ := run.split_step
  have begun : InLoop start.iter [] within := by
    cases move_of_step entered with
    | select here | goOn here | skip here => cases call.symm.trans here
    | apart operand elsewhere move =>
      cases move with
      | call here => exact ⟨rfl, fun i => .inl (mem_rows cfg i), fun i => by simp [Taking, evaluated, whole, readings]⟩
      | clockDies here => rcases here with here | here <;> cases call.symm.trans here
      | _ => simp_all
  have allowed : Within (fun s label => Looping s.toState label) pass := by
    intro taken member
    exact looping _ (List.mem_map_of_mem member)
  have done : InLoop start.iter pass after := by
    refine later.invariant_past _ (InLoop start.iter) begun ?_ allowed
    exact fun past before label after inside allowed taken => inLoop_of_move inside allowed (move_of_step taken)
  simp only [InLoop, ended] at done
  exact ⟨iter_of_run earlier, done⟩

/-- In the timer pass number `calls early`, as long as all texts fit, every row that is due is evaluated if and only if
the pass meets a zero argument or one of the reads made for the row finds what selects it. -/
theorem on_schedule_iff (options : Options) (components : Comp → σ) {early pass : Past (Reader cfg σ) (Label cfg σ)}
    {start after : Reader cfg σ} {env : Env cfg σ} {iter : UInt32}
    (run : Run (step options) (initial cfg options components) (pass ++ (start, .main env) :: early) after)
    (call : start.pc = .call) (looping : Within Looping (whole pass)) (ended : after.pc = .clear .timer iter) :
    (∀ i, Due (calls (whole early)) i → i ∈ evaluated (whole pass)) ↔
      ∀ i, Due (calls (whole early)) i → Heeded (calls (whole early)) i (readings pass) := by
  obtain ⟨count, passed⟩ := whole_loop run call looping ended
  have each (i : Row cfg) (due : Due (calls (whole early)) i) :
      i ∈ evaluated (whole pass) ↔ Heeded (calls (whole early)) i (readings pass) := by
    have read := (passed.read i).resolve_left List.not_mem_nil
    rw [passed.taken, taking_of_due count due read]
  constructor
  · intro shown i due
    exact (each i due).mp (shown i due)
  · intro heeded i due
    exact (each i due).mpr (heeded i due)

/-- The second timer pass when nothing interferes. -/
theorem on_schedule_quiet :
    ∃ early start env pass after,
      Run (step toStdout) (initial defaultConfig toStdout fun _ => ()) (pass ++ (start, .main env) :: early) after ∧
      calls (whole early) = 1 ∧ ∀ i, Due (calls (whole early)) i → i ∈ evaluated (whole pass) := by
  obtain ⟨early, start, within, pass, after, first, entered, second, checked⟩ :=
    exists_run_through (step toStdout) (initial defaultConfig toStdout fun _ => ()) (quietly defaultConfig 32)
      (quiet defaultConfig) (quietly defaultConfig 25)
      (fun early start pass after => decide (start.pc = .call ∧ Within Looping (whole pass) ∧
        after.pc = .clear .timer 1 ∧ calls (whole early) = 1 ∧ ∀ i, Due 1 i → Heeded 1 i (readings pass))) (by decide)
  obtain ⟨call, looping, ended, count, heeded⟩ := of_decide_eq_true checked
  have run := (Run.step _ first entered).trans second
  refine ⟨early, start, _, pass, after, run, count, ?_⟩
  apply (on_schedule_iff toStdout _ run call looping ended).mpr
  rw [count]
  exact heeded

abbrev QuietPast := Past (Reader defaultConfig Unit) (Label defaultConfig Unit)

/-- The pass leaves out the date, called with this signal pending and with these values read for the row. -/
def LeavesOutDate (pending : Int) (reads : List (Operand × Int)) (early : QuietPast) (start : Reader defaultConfig Unit)
    (pass : QuietPast) (after : Reader defaultConfig Unit) : Prop :=
  start.pc = .call ∧ Within Looping (whole pass) ∧ after.pc = .clear .timer 1 ∧ start.upsigno = pending ∧
    Due (calls (whole early)) dateRow ∧ dateRow ∉ evaluated (whole pass) ∧
    (readings pass).filterMap (fun read => if read.1 = dateRow then some read.2 else none) = reads

instance (pending : Int) (reads : List (Operand × Int)) (early : QuietPast) (start : Reader defaultConfig Unit)
    (pass : QuietPast) (after : Reader defaultConfig Unit) :
    Decidable (LeavesOutDate pending reads early start pass after) :=
  inferInstanceAs (Decidable (_ ∧ _))

def DateLeftOut (pending : Int) (reads : List (Operand × Int)) : Prop :=
  ∃ early start env pass after,
    Run (step toStdout) (initial defaultConfig toStdout fun _ => ()) (pass ++ (start, .main env) :: early) after ∧
    LeavesOutDate pending reads early start pass after

theorem dateLeftOut_of_labels {pending : Int} {reads : List (Operand × Int)}
    (early late : List (Label defaultConfig Unit))
    (checked : (replay (step toStdout) [] (initial defaultConfig toStdout fun _ => ()) early).any (fun before =>
      (step toStdout before.2 (quiet defaultConfig)).any fun after =>
        (replay (step toStdout) [] after late).any fun reached =>
          decide (LeavesOutDate pending reads before.1 before.2 reached.1 reached.2)) = true) :
    DateLeftOut pending reads := by
  obtain ⟨early, start, within, pass, after, first, entered, second, checked⟩ :=
    exists_run_through (step toStdout) _ early _ late
      (fun early start pass after => decide (LeavesOutDate pending reads early start pass after)) checked
  exact ⟨early, start, _, pass, after, (Run.step _ first entered).trans second, of_decide_eq_true checked⟩

/-- The volume row's signal during `tick` is not the date's; and a redraw asked for between the two reads for the date
comes too late for the first and too early for the second. -/
theorem signals_delay_date :
    DateLeftOut (SIGRTMIN + PA_SIGNAL) [(.turn, SIGRTMIN + PA_SIGNAL), (.redraw, SIGRTMIN + PA_SIGNAL)] ∧
    DateLeftOut 0 [(.turn, SIGUSR1), (.redraw, 0)] := by
  constructor
  · exact dateLeftOut_of_labels (quietly defaultConfig 31 ++ .signal (SIGRTMIN + PA_SIGNAL) :: quietly defaultConfig 1)
      (quietly defaultConfig 24) (by decide)
  · exact dateLeftOut_of_labels (quietly defaultConfig 32)
      (quietly defaultConfig 22 ++ .signal SIGUSR1 :: quietly defaultConfig 2) (by decide)

end SlStatus.Schedule
