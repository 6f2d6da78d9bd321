import SlStatus.History

/-! A pass of the machine is a call of `printstatus`, its input read off the run: the answers
of the components, and before each row the signals handled since the test before. -/

namespace SlStatus.Passes
open CString Util Table Printstatus Runs MainLoop Steps History

variable {Comp σ : Type*} {cfg : Config Comp}

/-- The row loop comes to `rest` with `pass`, whatever the input is for the rows of `rest`. -/
def Reaches (iter : UInt32) (start : Pass cfg) (rest : List (Row cfg)) (pass : Pass cfg) : Prop :=
  ∃ input : Input cfg, ∀ other : Input cfg,
    (∀ j ∉ rest, other.arrivals j = input.arrivals j ∧ other.results j = input.results j) →
      rowLoop iter other cfg.rows start = rowLoop iter other rest pass

theorem reaches_start (iter : UInt32) (start : Pass cfg) : Reaches iter start cfg.rows start :=
  ⟨⟨fun _ => [], fun _ => none, Buffer.zeroed _⟩, fun _ _ => rfl⟩

/-- One row further, by what the loop does with that row's part of the input. -/
theorem Reaches.next {iter : UInt32} {start pass pass' : Pass cfg} {i : Row cfg} {rest later : List (Row cfg)}
    (reaches : Reaches iter start (i :: rest) pass) (subset : later ⊆ rest) (absent : i ∉ later)
    (arrivals : List Int) (res : Option Text)
    (moves : ∀ other : Input cfg, other.arrivals i = arrivals → other.results i = res →
      rowLoop iter other (i :: rest) pass = rowLoop iter other later pass') : Reaches iter start later pass' := by
  obtain ⟨input, follows⟩ := reaches
  let answered : Input cfg :=
    { input with
      arrivals := Function.update input.arrivals i arrivals
      results := Function.update input.results i res }
  refine ⟨answered, fun other agrees => ?_⟩
  have own := agrees i absent
  simp only [answered, Function.update_self] at own
  rw [follows other, moves other own.1 own.2]
  intro j earlier
  rw [List.mem_cons, not_or] at earlier
  obtain ⟨different, behind⟩ := earlier
  have same := agrees j fun member => behind (subset member)
  simpa only [answered, Function.update_of_ne different] using same

theorem Reaches.skip {iter : UInt32} {start pass : Pass cfg} {i : Row cfg} {rest : List (Row cfg)}
    (reaches : Reaches iter start (i :: rest) pass) (absent : i ∉ rest) (arrivals : List Int)
    (skipped : ¬selected iter (recorded pass.upsigno arrivals) (cfg.arg i) = true) :
    Reaches iter start rest { pass with upsigno := recorded pass.upsigno arrivals } := by
  apply reaches.next (List.Subset.refl _) absent arrivals none
  rintro other rfl -
  exact rowLoop_skip rest skipped

theorem Reaches.fits {iter : UInt32} {start pass : Pass cfg} {i : Row cfg} {rest : List (Row cfg)}
    (reaches : Reaches iter start (i :: rest) pass) (absent : i ∉ rest) {arrivals : List Int} {res : Option Text}
    (chosen : selected iter (recorded pass.upsigno arrivals) (cfg.arg i) = true) (fits : Fits cfg i res) :
    Reaches iter start rest (pass.call (recorded pass.upsigno arrivals) i res) := by
  apply reaches.next (List.Subset.refl _) absent arrivals res
  rintro other rfl rfl
  exact rowLoop_fits rest chosen fits

/-- A text that does not fit leaves no row to come. -/
theorem Reaches.break {iter : UInt32} {start pass : Pass cfg} {i : Row cfg} {rest : List (Row cfg)}
    (reaches : Reaches iter start (i :: rest) pass) {arrivals : List Int} {res : Option Text}
    (chosen : selected iter (recorded pass.upsigno arrivals) (cfg.arg i) = true) (unfit : ¬Fits cfg i res) :
    Reaches iter start [] (pass.call (recorded pass.upsigno arrivals) i res) := by
  apply reaches.next (List.nil_subset _) List.not_mem_nil arrivals res
  rintro other rfl rfl
  exact rowLoop_break rest chosen unfit

theorem recorded_append (upsigno : Int) (early late : List Int) :
    recorded upsigno (early ++ late) = recorded (recorded upsigno early) late := List.foldl_append

theorem recorded_handled {signo : Int} (handled : Handled signo) (upsigno : Int) :
    recorded upsigno [signo] = signo := by
  simp only [recorded, List.foldl_cons, List.foldl_nil, sighandler, if_pos handled]

/-- The pass that the row loop has made agrees with the state and the past. -/
structure Matches (past : Past (State cfg σ) (Label cfg σ)) (s : State cfg σ) (pass : Pass cfg) : Prop where
  statuses : pass.statuses = s.statuses
  calls : pass.calls.map Prod.fst = evaluated past

/-- What the row loop of the call looks like at each place of the pass. -/
def Following (iter : UInt32) (start : Pass cfg) (past : Past (State cfg σ) (Label cfg σ)) (s : State cfg σ) : Prop :=
  match s.pc with
  | .test _ k rest =>
      k = iter ∧ rest.Nodup ∧ ∃ pass arrivals, Reaches iter start rest pass ∧ Matches past s pass ∧
        recorded pass.upsigno arrivals = s.upsigno
  | .eval _ k i rest =>
      k = iter ∧ (i :: rest).Nodup ∧ ∃ pass arrivals late, Reaches iter start (i :: rest) pass ∧
        Matches past s pass ∧ selected iter (recorded pass.upsigno arrivals) (cfg.arg i) = true ∧
        recorded (recorded pass.upsigno arrivals) late = s.upsigno
  | .clear _ k => k = iter ∧ ∃ pass, Reaches iter start [] pass ∧ Matches past s pass
  | _ => False

/-- Signals and the outside change nothing but the signal pending. -/
theorem Following.between {iter : UInt32} {start : Pass cfg} {past past' : Past (State cfg σ) (Label cfg σ)}
    {s s' : State cfg σ} (following : Following iter start past s) (here : s'.pc = s.pc)
    (statuses : s'.statuses = s.statuses) (calls : evaluated past' = evaluated past) (late : List Int)
    (pending : s'.upsigno = recorded s.upsigno late) : Following iter start past' s' := by
  have still {pass : Pass cfg} (agrees : Matches past s pass) : Matches past' s' pass :=
    ⟨agrees.statuses.trans statuses.symm, agrees.calls.trans calls.symm⟩
  unfold Following at following ⊢
  rw [here]
  split at following
  · obtain ⟨same, distinct, pass, arrivals, reaches, agrees, before⟩ := following
    refine ⟨same, distinct, pass, arrivals ++ late, reaches, still agrees, ?_⟩
    rw [recorded_append, before, pending]
  · obtain ⟨same, distinct, pass, arrivals, since, reaches, agrees, chosen, before⟩ := following
    refine ⟨same, distinct, pass, arrivals, since ++ late, reaches, still agrees, chosen, ?_⟩
    rw [recorded_append, before, pending]
  · obtain ⟨same, pass, reaches, agrees⟩ := following
    exact ⟨same, pass, reaches, still agrees⟩
  · exact following

variable [DecidableEq Comp]

theorem following_of_move {options : Options} {iter : UInt32} {start : Pass cfg}
    {past : Past (State cfg σ) (Label cfg σ)} {s s' : State cfg σ} {label : Label cfg σ}
    (following : Following iter start past s) (inside : ∀ caller k, s.pc ≠ .clear caller k)
    (move : Move options s label s') : Following iter start ((s, label) :: past) s' := by
  cases move with
  | handled handled =>
    exact following.between rfl rfl (evaluated_other past rfl) _ (recorded_handled handled _).symm
  | ending | outside => exact following.between rfl rfl (evaluated_other past rfl) [] rfl
  | testEnd here =>
    simp only [Following, here] at following ⊢
    obtain ⟨same, -, pass, arrivals, reaches, ⟨statuses, calls⟩, -⟩ := following
    rw [← evaluated_other past (called_test here _)] at calls
    exact ⟨same, pass, reaches, statuses, calls⟩
  | select here chosen =>
    simp only [Following, here] at following ⊢
    obtain ⟨same, distinct, pass, arrivals, reaches, ⟨statuses, calls⟩, pending⟩ := following
    rw [← evaluated_other past (called_test here _)] at calls
    refine ⟨same, distinct, pass, arrivals, [], reaches, ⟨statuses, calls⟩, ?_, pending⟩
    rw [pending, ← same]
    exact chosen
  | skip here skipped =>
    simp only [Following, here] at following ⊢
    obtain ⟨rfl, distinct, pass, arrivals, reaches, ⟨statuses, calls⟩, pending⟩ := following
    obtain ⟨absent, distinct⟩ := List.nodup_cons.mp distinct
    rw [← evaluated_other past (called_test here _)] at calls
    rw [← pending] at skipped
    exact ⟨rfl, distinct, _, [], reaches.skip absent arrivals skipped, ⟨statuses, calls⟩, pending⟩
  | evalFits here fits =>
    simp only [Following, here] at following ⊢
    obtain ⟨same, distinct, pass, arrivals, late, reaches, ⟨statuses, calls⟩, chosen, pending⟩ := following
    obtain ⟨absent, distinct⟩ := List.nodup_cons.mp distinct
    refine ⟨same, distinct, _, late, reaches.fits absent chosen fits, ⟨?_, ?_⟩, pending⟩
    · simp only [Pass.call, statuses]
    · rw [evaluated_eval past here, ← calls]
      rfl
  | evalBreak here unfit =>
    simp only [Following, here] at following ⊢
    obtain ⟨same, -, pass, arrivals, late, reaches, ⟨statuses, calls⟩, chosen, -⟩ := following
    refine ⟨same, _, reaches.break chosen unfit, ⟨?_, ?_⟩⟩
    · simp only [Pass.call, statuses]
    · rw [evaluated_eval past here, ← calls]
      rfl
  | clear here => exact absurd here (inside _ _)
  | clockDies here => rcases here with here | here <;> simp [Following, here] at following
  | handledAsleep _ here | endingAsleep _ here | setup here | tick here | clockStart here | call here
  | publishFault here | publishDies here | publish _ here | publishSkip _ here | doneTest here | clockCurrent here
  | waitTest here | sleepOver here | sleepInterrupted here | retTest here | errnoTest here | wakeDoneTest here
  | reset here | afterWait here | loopTest here | teardown here | closeDies here | close here =>
    simp [Following, here] at following

/-- From the call of `printstatus` to the end of its row loop, the machine does what the call
does on some input, and publishes the line that it builds. -/
theorem printstatus_of_run {options : Options} {first last : State cfg σ} {past : Past (State cfg σ) (Label cfg σ)}
    {caller : Caller} {iter : UInt32} (run : Run (step options) first past last)
    (entered : first.pc = .test caller iter cfg.rows) (left : last.pc = .clear caller iter)
    (inside : Within (fun s _ => ∀ caller k, s.pc ≠ .clear caller k) past) (stack : Buffer cfg.maxlen) :
    ∃ input calls, input.stack = stack ∧ calls.map Prod.fst = evaluated past ∧
      printstatus iter input ⟨first.upsigno, first.statuses, []⟩ =
        (⟨0, last.statuses, calls⟩, buildLine cfg stack last.statuses) := by
  let start : Pass cfg := ⟨first.upsigno, first.statuses, []⟩
  have following : Following iter start past last := by
    refine run.invariant_past _ (Following iter start) ?_ ?_ inside
    · rw [Following, entered]
      exact ⟨rfl, List.nodup_finRange _, start, [], reaches_start iter start, ⟨rfl, rfl⟩, rfl⟩
    · intro past before label after following inside taken
      exact following_of_move following inside (move_of_step taken)
  simp only [Following, left] at following
  obtain ⟨-, pass, ⟨input, follows⟩, statuses, calls⟩ := following
  refine ⟨{ input with stack := stack }, pass.calls, rfl, calls, ?_⟩
  have looped : rowLoop iter { input with stack := stack } cfg.rows start = pass :=
    follows { input with stack := stack } fun _ _ => ⟨rfl, rfl⟩
  simp only [printstatus, start] at looped ⊢
  rw [looped, statuses]

end SlStatus.Passes
