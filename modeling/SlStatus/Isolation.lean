import SlStatus.DefaultConfig
import SlStatus.Printstatus

/-! What a row whose text does not fit does to the rows behind it: the loop is left, so
they are not evaluated, although the pass has already taken their signal or their turn. -/

namespace SlStatus.Isolation
open CString Util Table Printstatus DefaultConfig
set_option maxRecDepth 4096

variable {Comp : Type*} {cfg : Config Comp}

/-- The signal a row's test reads if the loop gets that far. -/
def pendingAt (input : Input cfg) : List (Row cfg) → Int → Row cfg → Int
  | [], upsigno, _ => upsigno
  | j :: rest, upsigno, i =>
      let upsigno := recorded upsigno (input.arrivals j)
      if i = j then upsigno else pendingAt input rest upsigno i

/-- The row is selected in the pass, whether or not the loop gets to its test. -/
def SelectedIn (iter : UInt32) (input : Input cfg) (rows : List (Row cfg)) (upsigno : Int) (i : Row cfg) : Prop :=
  selected iter (pendingAt input rows upsigno i) (cfg.arg i) = true

instance (iter : UInt32) (input : Input cfg) (rows : List (Row cfg)) (upsigno : Int) (i : Row cfg) :
    Decidable (SelectedIn iter input rows upsigno i) := inferInstanceAs (Decidable (_ = true))

/-- The rows that the loop evaluates, in order. -/
def evaluations (iter : UInt32) (input : Input cfg) : List (Row cfg) → Int → List (Row cfg)
  | [], _ => []
  | i :: rest, upsigno =>
      let upsigno := recorded upsigno (input.arrivals i)
      if selected iter upsigno (cfg.arg i) then
        if Fits cfg i (input.results i) then i :: evaluations iter input rest upsigno else [i]
      else evaluations iter input rest upsigno

def Called (pass : Pass cfg) (i : Row cfg) : Prop := ∃ text, (i, text) ∈ pass.calls

theorem selectedIn_head (iter : UInt32) (input : Input cfg) (i : Row cfg) (rest : List (Row cfg)) (upsigno : Int) :
    SelectedIn iter input (i :: rest) upsigno i ↔
      selected iter (recorded upsigno (input.arrivals i)) (cfg.arg i) = true := by
  simp [SelectedIn, pendingAt]

theorem selectedIn_tail (iter : UInt32) (input : Input cfg) {i j : Row cfg} (rest : List (Row cfg))
    (upsigno : Int) (different : j ≠ i) :
    SelectedIn iter input (i :: rest) upsigno j ↔
      SelectedIn iter input rest (recorded upsigno (input.arrivals i)) j := by
  simp [SelectedIn, pendingAt, different]

/-- What a row loop adds to the log of the evaluations. -/
theorem calls_rowLoop (iter : UInt32) (input : Input cfg) (rows : List (Row cfg)) (pass : Pass cfg) :
    (rowLoop iter input rows pass).calls =
      ((evaluations iter input rows pass.upsigno).map fun i => (i, formatted cfg i (input.results i))).reverse ++
        pass.calls := by
  induction rows generalizing pass with
  | nil => rfl
  | cons j rest ih =>
    unfold evaluations
    dsimp only
    by_cases chosen : selected iter (recorded pass.upsigno (input.arrivals j)) (cfg.arg j) = true
    · by_cases fits : Fits cfg j (input.results j)
      · rw [rowLoop_fits rest chosen fits, ih, if_pos chosen, if_pos fits, List.map_cons, List.reverse_cons,
          List.append_assoc]
        rfl
      · rw [rowLoop_break rest chosen fits, if_pos chosen, if_neg fits]
        rfl
    · rw [rowLoop_skip rest chosen, ih, if_neg chosen]

theorem called_rowLoop (iter : UInt32) (input : Input cfg) (rows : List (Row cfg)) (pass : Pass cfg) (i : Row cfg) :
    Called (rowLoop iter input rows pass) i ↔ Called pass i ∨ i ∈ evaluations iter input rows pass.upsigno := by
  unfold Called
  rw [calls_rowLoop, or_comm]
  simp only [List.mem_append, List.mem_reverse, List.mem_map, Prod.mk.injEq, exists_or]
  apply or_congr_left
  constructor
  · rintro ⟨text, j, member, rfl, -⟩
    exact member
  · intro member
    exact ⟨_, i, member, rfl, rfl⟩

theorem mem_rows_of_evaluations {iter : UInt32} {input : Input cfg} {rows : List (Row cfg)} {upsigno : Int}
    {i : Row cfg} (member : i ∈ evaluations iter input rows upsigno) : i ∈ rows := by
  induction rows generalizing upsigno with
  | nil => simp [evaluations] at member
  | cons j rest ih =>
    simp only [evaluations] at member
    split_ifs at member
    · rcases List.mem_cons.mp member with rfl | later
      · exact List.mem_cons_self
      · exact List.mem_cons_of_mem _ (ih later)
    · rw [List.mem_singleton.mp member]
      exact List.mem_cons_self
    · exact List.mem_cons_of_mem _ (ih member)

/-- Nothing is evaluated behind a row that does not fit. -/
theorem fits_of_evaluated_behind {iter : UInt32} {input : Input cfg} {rows : List (Row cfg)} {upsigno : Int}
    (sorted : rows.Pairwise (· < ·)) {i j : Row cfg} (first : i ∈ evaluations iter input rows upsigno)
    (second : j ∈ evaluations iter input rows upsigno) (ordered : i < j) : Fits cfg i (input.results i) := by
  induction rows generalizing upsigno with
  | nil => simp [evaluations] at first
  | cons k rest ih =>
    obtain ⟨ahead, sorted⟩ := List.pairwise_cons.mp sorted
    simp only [evaluations] at first second
    split_ifs at first second with chosen fits
    · rcases List.mem_cons.mp first with rfl | first
      · exact fits
      · rcases List.mem_cons.mp second with rfl | second
        · exact absurd (ahead i (mem_rows_of_evaluations first)) (lt_asymm ordered)
        · exact ih sorted first second
    · rw [List.mem_singleton.mp first, List.mem_singleton.mp second] at ordered
      exact absurd ordered (lt_irrefl _)
    · exact ih sorted first second

/-- A selected row is evaluated unless a row before it did not fit. -/
theorem evaluated_of_selected {iter : UInt32} {input : Input cfg} {rows : List (Row cfg)} {upsigno : Int}
    (sorted : rows.Pairwise (· < ·)) {i : Row cfg} (member : i ∈ rows)
    (chosen : SelectedIn iter input rows upsigno i) :
    i ∈ evaluations iter input rows upsigno ∨
      ∃ k ∈ evaluations iter input rows upsigno, k < i ∧ ¬Fits cfg k (input.results k) := by
  induction rows generalizing upsigno with
  | nil => cases member
  | cons k rest ih =>
    obtain ⟨ahead, sorted⟩ := List.pairwise_cons.mp sorted
    unfold evaluations
    dsimp only
    by_cases same : i = k
    · subst same
      rw [selectedIn_head] at chosen
      left
      rw [if_pos chosen]
      split_ifs <;> simp
    · have later : i ∈ rest := (List.mem_cons.mp member).resolve_left same
      rw [selectedIn_tail iter input rest upsigno same] at chosen
      split_ifs with first fits
      · rcases ih sorted later chosen with evaluated | ⟨blocker, evaluated, before, unfit⟩
        · exact .inl (List.mem_cons_of_mem _ evaluated)
        · exact .inr ⟨blocker, List.mem_cons_of_mem _ evaluated, before, unfit⟩
      · exact .inr ⟨k, List.mem_singleton_self k, ahead i later, fits⟩
      · exact ih sorted later chosen

theorem statuses_of_unselected {iter : UInt32} {input : Input cfg} {rows : List (Row cfg)} {pass : Pass cfg}
    (distinct : rows.Nodup) (none : ∀ j ∈ rows, ¬SelectedIn iter input rows pass.upsigno j) :
    (rowLoop iter input rows pass).statuses = pass.statuses := by
  induction rows generalizing pass with
  | nil => rfl
  | cons k rest ih =>
    obtain ⟨absent, distinct⟩ := List.nodup_cons.mp distinct
    have skipped := none k List.mem_cons_self
    rw [selectedIn_head] at skipped
    rw [rowLoop_skip rest skipped, ih distinct]
    intro j later
    have different : j ≠ k := fun same => absent (same ▸ later)
    rw [← selectedIn_tail iter input rest pass.upsigno different]
    exact none j (List.mem_cons_of_mem _ later)

theorem statuses_of_quiet_tail {iter : UInt32} {input : Input cfg} {i : Row cfg} {rest : List (Row cfg)}
    {pass : Pass cfg} (distinct : rest.Nodup)
    (chosen : selected iter (recorded pass.upsigno (input.arrivals i)) (cfg.arg i) = true)
    (none : ∀ j ∈ rest, ¬SelectedIn iter input rest (recorded pass.upsigno (input.arrivals i)) j) :
    (rowLoop iter input (i :: rest) pass).statuses = (evaluate cfg pass.statuses i (input.results i)).1 := by
  by_cases fits : Fits cfg i (input.results i)
  · rw [rowLoop_fits rest chosen fits]
    exact statuses_of_unselected distinct none
  · rw [rowLoop_break rest chosen fits]
    rfl

/-- The same call with another answer for one row. -/
def answering (input : Input cfg) (i : Row cfg) (res : Option Text) : Input cfg :=
  { input with results := Function.update input.results i res }

theorem selectedIn_answering (iter : UInt32) (input : Input cfg) (i : Row cfg) (res : Option Text)
    (rows : List (Row cfg)) (upsigno : Int) (j : Row cfg) :
    SelectedIn iter (answering input i res) rows upsigno j ↔ SelectedIn iter input rows upsigno j := by
  have pending : pendingAt (answering input i res) rows upsigno j = pendingAt input rows upsigno j := by
    induction rows generalizing upsigno with
    | nil => rfl
    | cons k rest ih =>
      simp only [pendingAt, ih]
      rfl
  rw [SelectedIn, SelectedIn, pending]

theorem evaluate_agree {statuses other : Statuses cfg} {i k : Row cfg} (res : Option Text)
    (slots : ∀ j, j ≠ i → other j = statuses j) (j : Row cfg) (different : j ≠ i) :
    (evaluate cfg other k res).1 j = (evaluate cfg statuses k res).1 j := by
  by_cases own : j = k
  · subst own
    simp only [evaluate, Function.update_self, slots j different]
  · rw [evaluate_other cfg other res own, evaluate_other cfg statuses res own, slots j different]

/-- While no row behind row `i` is selected, its text decides its own slot only. -/
theorem statuses_answering {iter : UInt32} {input : Input cfg} {i : Row cfg} (res : Option Text)
    {rows : List (Row cfg)} (sorted : rows.Pairwise (· < ·)) {pass other : Pass cfg}
    (pending : other.upsigno = pass.upsigno) (slots : ∀ j, j ≠ i → other.statuses j = pass.statuses j)
    (quiet : ∀ j ∈ rows, i < j → ¬SelectedIn iter input rows pass.upsigno j) :
    ∀ j, j ≠ i → (rowLoop iter (answering input i res) rows other).statuses j =
      (rowLoop iter input rows pass).statuses j := by
  induction rows generalizing pass other with
  | nil => exact slots
  | cons k rest ih =>
    obtain ⟨ahead, sorted⟩ := List.pairwise_cons.mp sorted
    have distinct : rest.Nodup := sorted.imp fun lt => lt.ne
    have quiet : ∀ j ∈ rest, i < j →
        ¬SelectedIn iter input rest (recorded pass.upsigno (input.arrivals k)) j := by
      intro j member behind
      rw [← selectedIn_tail iter input rest pass.upsigno (ahead j member).ne']
      exact quiet j (List.mem_cons_of_mem _ member) behind
    have same : recorded other.upsigno ((answering input i res).arrivals k) =
        recorded pass.upsigno (input.arrivals k) := by rw [pending]; rfl
    by_cases chosen : selected iter (recorded pass.upsigno (input.arrivals k)) (cfg.arg k) = true
    · have chosen' : selected iter (recorded other.upsigno ((answering input i res).arrivals k)) (cfg.arg k) =
          true := by rw [same]; exact chosen
      by_cases own : k = i
      · subst own
        -- whether or not either call goes on, it finds no selected row behind this one
        intro j different
        rw [statuses_of_quiet_tail distinct chosen fun j member => quiet j member (ahead j member),
          statuses_of_quiet_tail distinct chosen', evaluate_other cfg _ _ different,
          evaluate_other cfg _ _ different, slots j different]
        intro j member
        rw [same, selectedIn_answering]
        exact quiet j member (ahead j member)
      · have result : (answering input i res).results k = input.results k :=
          Function.update_of_ne own _ _
        by_cases fits : Fits cfg k (input.results k)
        · rw [rowLoop_fits rest chosen fits, rowLoop_fits rest chosen' (by rw [result]; exact fits), same, result]
          exact ih sorted rfl (evaluate_agree _ slots) quiet
        · rw [rowLoop_break rest chosen fits, rowLoop_break rest chosen' (by rw [result]; exact fits), result]
          exact evaluate_agree _ slots
    · have chosen' : ¬selected iter (recorded other.upsigno ((answering input i res).arrivals k)) (cfg.arg k) =
          true := by rw [same]; exact chosen
      rw [rowLoop_skip rest chosen, rowLoop_skip rest chosen', same]
      exact ih sorted rfl slots quiet

/-- Row `i` does not show in the rest of the pass: every other selected row is evaluated, so
that no signal or turn of it is used up in vain, and every other slot ends as it would with
the answer `res` for row `i`. -/
def Undisturbed (iter : UInt32) (input : Input cfg) (pass : Pass cfg) (i : Row cfg) (res : Option Text) : Prop :=
  (∀ j, j ≠ i → SelectedIn iter input cfg.rows pass.upsigno j → Called (printstatus iter input pass).1 j) ∧
  ∀ j, j ≠ i → (printstatus iter input pass).1.statuses j =
    (printstatus iter (answering input i res) pass).1.statuses j

theorem called_printstatus (iter : UInt32) (input : Input cfg) {pass : Pass cfg} (none : pass.calls = [])
    (i : Row cfg) : Called (printstatus iter input pass).1 i ↔ i ∈ evaluations iter input cfg.rows pass.upsigno := by
  have before : ¬Called pass i := by simp [Called, none]
  exact (called_rowLoop iter input cfg.rows pass i).trans (or_iff_right before)

/-- A row whose text does not fit leaves the others alone exactly when no row behind it is
selected. -/
theorem undisturbed_iff (iter : UInt32) (input : Input cfg) (upsigno : Int) (statuses : Statuses cfg)
    (i : Row cfg) (res : Option Text) (called : Called (printstatus iter input ⟨upsigno, statuses, []⟩).1 i)
    (unfit : ¬Fits cfg i (input.results i)) :
    Undisturbed iter input ⟨upsigno, statuses, []⟩ i res ↔
      ∀ j, i < j → ¬SelectedIn iter input cfg.rows upsigno j := by
  have sorted := rows_sorted cfg
  have evaluated := (called_printstatus iter input rfl i).mp called
  constructor
  · rintro ⟨others, -⟩ j behind chosen
    have late := (called_printstatus iter input rfl j).mp (others j behind.ne' chosen)
    exact unfit (fits_of_evaluated_behind sorted evaluated late behind)
  · intro quiet
    constructor
    · intro j different chosen
      rw [called_printstatus iter input rfl]
      rcases evaluated_of_selected sorted (mem_rows cfg j) chosen with late | ⟨k, blocker, before, kUnfit⟩
      · exact late
      · have ahead : j < i := lt_of_le_of_ne (not_lt.mp fun behind => quiet j behind chosen) different
        exact absurd (fits_of_evaluated_behind sorted blocker evaluated (before.trans ahead)) kUnfit
    · intro j different
      rw [printstatus_statuses, printstatus_statuses]
      let pass : Pass cfg := ⟨upsigno, statuses, []⟩
      have behind : ∀ j ∈ cfg.rows, i < j → ¬SelectedIn iter input cfg.rows pass.upsigno j := fun j _ => quiet j
      exact (statuses_answering res sorted rfl (fun _ _ => rfl) behind j different).symm

/-- The first timer pass after the start, with only the last row due to print too much. -/
def longDate : Input defaultConfig :=
  { arrivals := fun _ => [], results := fun i => if i = dateRow then some longText else none,
    stack := Buffer.zeroed _ }

theorem undisturbed_iff_longDate :
    Undisturbed 1 longDate ⟨0, fun _ => Buffer.zeroed _, []⟩ dateRow none ↔
      ∀ j : Row defaultConfig, dateRow < j → ¬SelectedIn 1 longDate defaultConfig.rows 0 j :=
  undisturbed_iff 1 longDate 0 _ dateRow none
    ((called_printstatus 1 longDate rfl dateRow).mpr (by decide)) (by decide)

/-- The same pass with the keymap row printing too much: the date row is due behind it. -/
def longKeymap : Input defaultConfig :=
  { arrivals := fun _ => [], results := fun i => if i = keymapRow then some longText else none,
    stack := Buffer.zeroed _ }

theorem longKeymap_disturbs :
    Called (printstatus 1 longKeymap ⟨0, fun _ => Buffer.zeroed _, []⟩).1 keymapRow ∧
    ¬Fits defaultConfig keymapRow (longKeymap.results keymapRow) ∧
    Fits defaultConfig keymapRow none ∧
    ¬Undisturbed 1 longKeymap ⟨0, fun _ => Buffer.zeroed _, []⟩ keymapRow none := by
  refine ⟨(called_printstatus 1 longKeymap rfl _).mpr (by decide), by decide, by decide, ?_⟩
  rintro ⟨others, -⟩
  have called := others dateRow (by decide) (by decide)
  rw [called_printstatus 1 longKeymap rfl] at called
  exact absurd called (by decide)

end SlStatus.Isolation
