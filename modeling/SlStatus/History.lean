import SlStatus.Steps

/-! Which rows a stretch of a run evaluates, and what the rows that it does not evaluate
keep. -/

namespace SlStatus.History
open CString Util Table Printstatus Runs MainLoop Steps

variable {Comp σ : Type*} {cfg : Config Comp}

/-- The row whose component a step calls. -/
def called : State cfg σ × Label cfg σ → Option (Row cfg)
  | (s, .main _) =>
      match s.pc with
      | .eval _ _ i _ => some i
      | _ => none
  | _ => none

theorem called_test {s : State cfg σ} {caller : Caller} {iter : UInt32} {rows : List (Row cfg)}
    (here : s.pc = .test caller iter rows) (label : Label cfg σ) : called (s, label) = none := by
  cases label with
  | main env => simp only [called, here]
  | _ => rfl

/-- The rows evaluated, latest first. -/
def evaluated (past : Past (State cfg σ) (Label cfg σ)) : List (Row cfg) := past.filterMap called

theorem evaluated_eval {s : State cfg σ} {env : Env cfg σ} {caller : Caller} {iter : UInt32} {i : Row cfg}
    {rest : List (Row cfg)} (past : Past (State cfg σ) (Label cfg σ)) (here : s.pc = .eval caller iter i rest) :
    evaluated ((s, .main env) :: past) = i :: evaluated past :=
  List.filterMap_cons_some (by simp only [called, here])

theorem evaluated_other {s : State cfg σ} {label : Label cfg σ} (past : Past (State cfg σ) (Label cfg σ))
    (elsewhere : called (s, label) = none) : evaluated ((s, label) :: past) = evaluated past :=
  List.filterMap_cons_none elsewhere

theorem mem_evaluated_cons {taken : State cfg σ × Label cfg σ} {past : Past (State cfg σ) (Label cfg σ)}
    {i : Row cfg} (member : i ∈ evaluated past) : i ∈ evaluated (taken :: past) := by
  rw [evaluated, List.mem_filterMap] at member ⊢
  obtain ⟨earlier, here, calls⟩ := member
  exact ⟨earlier, List.mem_cons_of_mem _ here, calls⟩

variable [DecidableEq Comp]

theorem statuses_kept {options : Options} {first last : State cfg σ} {past : Past (State cfg σ) (Label cfg σ)}
    (run : Run (step options) first past last) {i : Row cfg} (absent : i ∉ evaluated past) :
    last.statuses i = first.statuses i := by
  induction run with
  | start => rfl
  | @step past before after label run taken ih =>
    have kept := ih fun member => absent (mem_evaluated_cons member)
    cases move_of_step taken with
    | evalFits here | evalBreak here =>
      rw [evaluated_eval past here] at absent
      rw [← kept]
      exact evaluate_other cfg _ _ (List.ne_of_not_mem_cons absent)
    | _ => exact kept

/-- A component is left alone by a run that calls it for no row, unless the outside moves it. -/
theorem components_kept {options : Options} {first last : State cfg σ}
    {past : Past (State cfg σ) (Label cfg σ)} (run : Run (step options) first past last) {comp : Comp}
    (uncalled : ∀ i ∈ evaluated past, (cfg.arg i).func ≠ comp)
    (unmoved : Within (fun s label => ∀ moved, label = .outside moved → moved comp = s.components comp) past) :
    last.components comp = first.components comp := by
  induction run with
  | start => rfl
  | @step past before after label run taken ih =>
    have kept := ih (fun i member => uncalled i (mem_evaluated_cons member)) unmoved.tail
    cases move_of_step taken with
    | evalFits here | evalBreak here =>
      rw [evaluated_eval past here] at uncalled
      rw [← kept]
      exact Function.update_of_ne (uncalled _ List.mem_cons_self).symm _ _
    | outside =>
      rw [← kept]
      exact unmoved.head _ rfl
    | _ => exact kept

end SlStatus.History
