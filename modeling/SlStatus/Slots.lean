import SlStatus.Isolation

/-! What the slots hold and what the line reads after any sequence of passes, each called
with any argument, any pending signal and any answers. -/

namespace SlStatus.Slots
open CString Util Table Printstatus Isolation DefaultConfig
set_option maxRecDepth 4096

variable {Comp : Type*} {cfg : Config Comp}

structure Round (cfg : Config Comp) where
  iter : UInt32
  pending : Int
  input : Input cfg

def initial (cfg : Config Comp) : Pass cfg :=
  { upsigno := 0, statuses := fun _ => Buffer.zeroed cfg.cmdlen, calls := [] }

def runRound (pass : Pass cfg) (round : Round cfg) : Pass cfg × Option (List Byte) :=
  printstatus round.iter round.input { pass with upsigno := round.pending }

def passes (rounds : List (Round cfg)) : Pass cfg :=
  rounds.foldl (fun pass round => (runRound pass round).1) (initial cfg)

/-- What a slot should read as, from the evaluations made so far. -/
def expected (calls : List (Row cfg × Text)) (i : Row cfg) : List Byte :=
  match calls.lookup i with
  | none => []
  | some text => text.bytes.take (cfg.cmdlen - 1)

def SlotsHold (pass : Pass cfg) : Prop :=
  ∀ i, (pass.statuses i).string? = some (expected pass.calls i)

theorem SlotsHold.terminated {pass : Pass cfg} (hold : SlotsHold pass) : Terminated pass.statuses :=
  fun i => ⟨_, hold i⟩

theorem slotsHold_initial : SlotsHold (initial cfg) :=
  fun _ => Buffer.string?_zeroed cfg.cmdlen_pos

theorem slotsHold_call {pass : Pass cfg} (hold : SlotsHold pass) (i : Row cfg) (res : Option Text)
    (upsigno : Int) : SlotsHold (pass.call upsigno i res) := by
  intro j
  by_cases same : j = i
  · subst same
    simp only [Pass.call, expected, List.lookup_cons_self]
    exact evaluate_self cfg pass.statuses j res
  · have other : (j == i) = false := by simpa using same
    simp only [Pass.call, expected, List.lookup_cons, other, evaluate_other cfg pass.statuses res same]
    exact hold j

theorem slotsHold_rowLoop (iter : UInt32) (input : Input cfg) (rows : List (Row cfg)) {pass : Pass cfg}
    (hold : SlotsHold pass) : SlotsHold (rowLoop iter input rows pass) := by
  induction rows generalizing pass with
  | nil => exact hold
  | cons i rest ih =>
    have called := slotsHold_call hold i (input.results i) (recorded pass.upsigno (input.arrivals i))
    by_cases chosen : selected iter (recorded pass.upsigno (input.arrivals i)) (cfg.arg i) = true
    · by_cases fits : Fits cfg i (input.results i)
      · rw [rowLoop_fits rest chosen fits]
        exact ih called
      · rw [rowLoop_break rest chosen fits]
        exact called
    · rw [rowLoop_skip rest chosen]
      exact ih hold

theorem slotsHold_runRound {pass : Pass cfg} (hold : SlotsHold pass) (round : Round cfg) :
    SlotsHold (runRound pass round).1 := by
  have pending : SlotsHold { pass with upsigno := round.pending } := hold
  exact slotsHold_rowLoop round.iter round.input cfg.rows pending

theorem slotsHold_passes (rounds : List (Round cfg)) : SlotsHold (passes rounds) := by
  unfold passes
  generalize start : initial cfg = pass
  have hold : SlotsHold pass := start ▸ slotsHold_initial
  clear start
  induction rounds generalizing pass with
  | nil => exact hold
  | cons round rounds ih => exact ih _ (slotsHold_runRound hold round)

/-- After any passes each slot is a string of less than `CMDLEN` bytes, empty if its row was
never evaluated and otherwise the front of what the row printed last; and the line that the
next pass builds is the concatenation of the slots it leaves, with room for the terminator. The
next pass evaluates the rows that it selects, up to one that does not fit. -/
theorem slots_and_line (rounds : List (Round cfg)) (round : Round cfg) :
    (∀ i, ((passes rounds).statuses i).string? = some (expected (passes rounds).calls i)) ∧
    (∀ i, (expected (passes rounds).calls i).length < cfg.cmdlen) ∧
    (runRound (passes rounds) round).2 = some (concatenation (runRound (passes rounds) round).1.statuses) ∧
    (concatenation (runRound (passes rounds) round).1.statuses).length + 1 ≤ cfg.maxlen ∧
    (runRound (passes rounds) round).1.calls =
      ((evaluations round.iter round.input cfg.rows round.pending).map fun i =>
        (i, formatted cfg i (round.input.results i))).reverse ++ (passes rounds).calls := by
  have hold := slotsHold_passes rounds
  have after := (slotsHold_runRound hold round).terminated
  refine ⟨hold, fun i => Buffer.string?_length_lt (hold i), ?_, concatenation_length after, ?_⟩
  · exact buildLine_eq after round.input.stack
  · exact calls_rowLoop round.iter round.input cfg.rows { passes rounds with upsigno := round.pending }

/-- The first pass, in which no component has an answer. -/
def opening : Round defaultConfig :=
  { iter := 0, pending := 0,
    input := { arrivals := fun _ => [], results := fun _ => none, stack := Buffer.zeroed _ } }

/-- It evaluates all rows; the last one shows what its format has around the answer. -/
theorem slots_and_line_opening :
    (runRound (passes []) opening).1.calls.map Prod.fst = defaultConfig.rows.reverse ∧
    ((passes [opening]).statuses dateRow).string? = some [0x20, 0xEF, 0x81, 0xB3, 0x20] := by
  constructor
  · rw [(slots_and_line [] opening).2.2.2.2]
    decide
  · rw [(slots_and_line [opening] opening).1]
    decide

end SlStatus.Slots
