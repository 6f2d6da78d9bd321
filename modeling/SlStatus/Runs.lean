import Mathlib.Data.List.Basic

/-! Machines that take one labelled step at a time, the label carrying whatever the
outside decides. A run keeps its past, so that a property may speak about the order in
which things happened and not only about the state reached. -/

namespace SlStatus.Runs

variable {State Label : Type*} {next : State → Label → Option State}

/-- The steps already taken, latest first: the state each step left and its label. -/
abbrev Past (State Label : Type*) := List (State × Label)

inductive Run (next : State → Label → Option State) (first : State) : Past State Label → State → Prop where
  | start : Run next first [] first
  | step {past : Past State Label} {before after : State} (label : Label)
      (run : Run next first past before) (move : next before label = some after) :
      Run next first ((before, label) :: past) after

/-- Every step of the past was one that `allowed` admits. -/
def Within (allowed : State → Label → Prop) (past : Past State Label) : Prop :=
  ∀ taken ∈ past, allowed taken.1 taken.2

theorem Within.tail {allowed : State → Label → Prop} {taken : State × Label} {past : Past State Label}
    (within : Within allowed (taken :: past)) : Within allowed past :=
  fun other member => within other (List.mem_cons_of_mem _ member)

theorem Within.head {allowed : State → Label → Prop} {taken : State × Label} {past : Past State Label}
    (within : Within allowed (taken :: past)) : allowed taken.1 taken.2 :=
  within taken List.mem_cons_self

instance {allowed : State → Label → Prop} [∀ state label, Decidable (allowed state label)]
    (past : Past State Label) : Decidable (Within allowed past) :=
  inferInstanceAs (Decidable (∀ taken ∈ past, allowed taken.1 taken.2))

/-- Every step of the past was one that `holds` admits after the steps before it. -/
def Along (holds : Past State Label → State × Label → Prop) : Past State Label → Prop
  | [] => True
  | taken :: past => holds past taken ∧ Along holds past

instance decidableAlong {holds : Past State Label → State × Label → Prop} [∀ past taken, Decidable (holds past taken)] :
    (past : Past State Label) → Decidable (Along holds past)
  | [] => .isTrue trivial
  | _ :: past =>
      have : Decidable (Along holds past) := decidableAlong past
      inferInstanceAs (Decidable (_ ∧ _))

theorem Run.trans {first middle last : State} {early late : Past State Label}
    (before : Run next first early middle) (after : Run next middle late last) :
    Run next first (late ++ early) last := by
  induction after with
  | start => exact before
  | step label _ move ih => exact .step label ih move

/-- A run may be cut at any step of its past. -/
theorem Run.split {first last : State} {late early : Past State Label}
    (run : Run next first (late ++ early) last) :
    ∃ middle, Run next first early middle ∧ Run next middle late last := by
  induction late generalizing last with
  | nil => exact ⟨last, run, .start⟩
  | cons taken late ih =>
    cases run with
    | step label run move =>
      obtain ⟨middle, before, after⟩ := ih run
      exact ⟨middle, before, .step label after move⟩

theorem Run.split_step {first last before : State} {label : Label} {late early : Past State Label}
    (run : Run next first (late ++ (before, label) :: early) last) :
    Run next first early before ∧ ∃ after, next before label = some after ∧ Run next after late last := by
  obtain ⟨after, earlier, later⟩ := run.split
  cases earlier with
  | step label earlier move => exact ⟨earlier, after, move, later⟩

/-- The state that a step was taken in was reached. -/
theorem Run.reached {first last : State} {past : Past State Label} (run : Run next first past last)
    {taken : State × Label} (member : taken ∈ past) : ∃ early, Run next first early taken.1 := by
  obtain ⟨late, early, rfl⟩ := List.append_of_mem member
  exact ⟨early, run.split_step.1⟩

/-- The invariant rule, for runs whose steps all stay within what `allowed` admits. -/
theorem Run.invariant {first last : State} {past : Past State Label} (allowed : State → Label → Prop)
    (holds : State → Prop) (initial : holds first)
    (preserved : ∀ before label after, holds before → allowed before label →
      next before label = some after → holds after)
    (run : Run next first past last) (within : Within allowed past) : holds last := by
  induction run with
  | start => exact initial
  | step label _ move ih => exact preserved _ label _ (ih within.tail) within.head move

/-- The invariant holds before every step of such a run. -/
theorem Run.invariant_before {first last : State} {past : Past State Label} (allowed : State → Label → Prop)
    (holds : State → Prop) (initial : holds first)
    (preserved : ∀ before label after, holds before → allowed before label →
      next before label = some after → holds after)
    (run : Run next first past last) (within : Within allowed past) : ∀ taken ∈ past, holds taken.1 := by
  induction run with
  | start => exact nofun
  | step label run move ih =>
    have latest := run.invariant allowed holds initial preserved within.tail
    exact List.forall_mem_cons.mpr ⟨latest, ih within.tail⟩

/-- The invariant rule for an invariant that also reads the past. -/
theorem Run.invariant_past {first last : State} {past : Past State Label} (allowed : State → Label → Prop)
    (holds : Past State Label → State → Prop) (initial : holds [] first)
    (preserved : ∀ past before label after, holds past before → allowed before label →
      next before label = some after → holds ((before, label) :: past) after)
    (run : Run next first past last) (within : Within allowed past) : holds past last := by
  induction run with
  | start => exact initial
  | step label _ move ih => exact preserved _ _ label _ (ih within.tail) within.head move

/-- When every step that `allowed` admits keeps an invariant and every other step breaks the
property that it carries, the property holds throughout exactly the runs that stay within. -/
theorem Run.exact {first last : State} {past : Past State Label} (allowed : State → Label → Prop)
    (holds shown : State → Prop) (implies : ∀ state, holds state → shown state) (initial : holds first)
    (keeps : ∀ before label after, holds before → allowed before label → next before label = some after →
      holds after)
    (breaks : ∀ before label after, holds before → ¬allowed before label → next before label = some after →
      ¬shown after)
    (run : Run next first past last) :
    (shown last ∧ ∀ taken ∈ past, shown taken.1) ↔ Within allowed past := by
  constructor
  · intro throughout
    induction run with
    | start => exact nofun
    | @step past before after label run move ih =>
      obtain ⟨now, visited⟩ := throughout
      obtain ⟨latest, earlier⟩ := List.forall_mem_cons.mp visited
      have within := ih ⟨latest, earlier⟩
      have held := run.invariant allowed holds initial keeps within
      refine List.forall_mem_cons.mpr ⟨?_, within⟩
      by_contra refused
      exact breaks before label after held refused move now
  · intro within
    induction run with
    | start => exact ⟨implies _ initial, nofun⟩
    | @step past before after label run move ih =>
      obtain ⟨latest, earlier⟩ := ih within.tail
      have held := (run.step label move).invariant allowed holds initial keeps within
      exact ⟨implies _ held, List.forall_mem_cons.mpr ⟨latest, earlier⟩⟩

/-- A step that `marks` lies back, and the steps taken since then satisfy `holds`. -/
def Since (marks : State × Label → Prop) (holds : Past State Label → Prop) (past : Past State Label) : Prop :=
  ∃ late mark early, past = late ++ mark :: early ∧ marks mark ∧ holds late

theorem since_nil {marks : State × Label → Prop} {holds : Past State Label → Prop} : ¬Since marks holds [] := by
  rintro ⟨late, mark, early, split, -⟩
  exact absurd split.symm (List.append_ne_nil_of_right_ne_nil _ (List.cons_ne_nil _ _))

theorem since_cons {marks : State × Label → Prop} {holds : Past State Label → Prop} {taken : State × Label}
    {past : Past State Label} :
    Since marks holds (taken :: past) ↔
      (marks taken ∧ holds []) ∨ Since marks (fun late => holds (taken :: late)) past := by
  constructor
  · rintro ⟨late, mark, early, split, marked, since⟩
    cases late with
    | nil =>
      obtain ⟨rfl, rfl⟩ := List.cons.inj split
      exact .inl ⟨marked, since⟩
    | cons latest late =>
      obtain ⟨rfl, rfl⟩ := List.cons.inj split
      exact .inr ⟨late, mark, early, rfl, marked, since⟩
  · rintro (⟨marked, since⟩ | ⟨late, mark, early, rfl, marked, since⟩)
    · exact ⟨[], taken, past, rfl, marked, since⟩
    · exact ⟨taken :: late, mark, early, rfl, marked, since⟩

theorem Since.imp {marks : State × Label → Prop} {holds other : Past State Label → Prop} {past : Past State Label}
    (since : Since marks holds past) (implies : ∀ late, holds late → other late) : Since marks other past := by
  obtain ⟨late, mark, early, split, marked, held⟩ := since
  exact ⟨late, mark, early, split, marked, implies late held⟩

theorem Since.exists_mark {marks : State × Label → Prop} {holds : Past State Label → Prop}
    {past : Past State Label} (since : Since marks holds past) : ∃ taken ∈ past, marks taken := by
  obtain ⟨late, mark, early, rfl, marked, -⟩ := since
  exact ⟨mark, List.mem_append_right _ List.mem_cons_self, marked⟩

/-- Runs the given labels, earliest first, and returns the past with the state reached. -/
def replay (next : State → Label → Option State) : Past State Label → State → List Label →
    Option (Past State Label × State)
  | past, state, [] => some (past, state)
  | past, state, label :: labels =>
      match next state label with
      | none => none
      | some after => replay next ((state, label) :: past) after labels

theorem replay_run {first state last : State} {past done : Past State Label} (labels : List Label)
    (run : Run next first past state) (replayed : replay next past state labels = some (done, last)) :
    Run next first done last := by
  induction labels generalizing past state with
  | nil =>
    simp only [replay, Option.some.injEq, Prod.mk.injEq] at replayed
    obtain ⟨rfl, rfl⟩ := replayed
    exact run
  | cons label labels ih =>
    cases move : next state label with
    | none => simp [replay, move] at replayed
    | some after =>
      simp only [replay, move] at replayed
      exact ih (.step label run move) replayed

/-- A run found by evaluation, together with whatever was checked of it. -/
theorem exists_run (next : State → Label → Option State) (first : State) (labels : List Label)
    (check : Past State Label → State → Bool)
    (checked : (replay next [] first labels).any (fun reached => check reached.1 reached.2) = true) :
    ∃ past last, Run next first past last ∧ check past last = true := by
  cases reached : replay next [] first labels with
  | none => simp [reached] at checked
  | some result =>
    obtain ⟨past, last⟩ := result
    exact ⟨past, last, replay_run labels .start reached, by simpa [reached] using checked⟩

/-- A run found by evaluation and cut at the step with the given label. -/
theorem exists_run_through (next : State → Label → Option State) (first : State) (early : List Label)
    (label : Label) (late : List Label) (check : Past State Label → State → Past State Label → State → Bool)
    (checked : (replay next [] first early).any (fun before => (next before.2 label).any fun after =>
      (replay next [] after late).any fun reached => check before.1 before.2 reached.1 reached.2) = true) :
    ∃ past before after done last, Run next first past before ∧ next before label = some after ∧
      Run next after done last ∧ check past before done last = true := by
  simp only [Option.any_eq_true] at checked
  obtain ⟨⟨past, before⟩, earlier, after, move, ⟨done, last⟩, later, checked⟩ := checked
  exact ⟨past, before, after, done, last, replay_run early .start earlier, move, replay_run late .start later,
    checked⟩

end SlStatus.Runs
