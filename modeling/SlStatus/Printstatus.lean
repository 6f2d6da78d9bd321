import SlStatus.Table

/-! One call of `printstatus`, with the signals that arrive before each row test and the
answers of the components given from outside. The row loop is left early when a text does
not fit its slot; the pending signal is cleared either way. -/

namespace SlStatus.Printstatus
open CString Util Table

variable {Comp : Type*} {cfg : Config Comp}

/-- The signal pending after some more have been handled. -/
def recorded (upsigno : Int) (arrivals : List Int) : Int :=
  arrivals.foldl (fun pending signo => (sighandler signo ⟨pending, 0, false⟩).upsigno) upsigno

/-- `calls` lists the evaluations made so far, latest first, with the text each printed. -/
structure Pass (cfg : Config Comp) where
  upsigno : Int
  statuses : Statuses cfg
  calls : List (Row cfg × Text)

/-- What the outside decides during a call: the signals handled since the previous row's
test, each component's answer, and what the stack held where `status` is put. -/
structure Input (cfg : Config Comp) where
  arrivals : Row cfg → List Int
  results : Row cfg → Option Text
  stack : Buffer cfg.maxlen

def rowLoop (iter : UInt32) (input : Input cfg) : List (Row cfg) → Pass cfg → Pass cfg
  | [], pass => pass
  | i :: rest, pass =>
      let upsigno := recorded pass.upsigno (input.arrivals i)
      if selected iter upsigno (cfg.arg i) then
        let (statuses, ret) := evaluate cfg pass.statuses i (input.results i)
        let calls := (i, formatted cfg i (input.results i)) :: pass.calls
        if ret < 0 then { upsigno, statuses, calls }
        else rowLoop iter input rest { upsigno, statuses, calls }
      else rowLoop iter input rest { pass with upsigno }

/-- What evaluating a row leaves of a pass. -/
def Pass.call (pass : Pass cfg) (upsigno : Int) (i : Row cfg) (res : Option Text) : Pass cfg :=
  { upsigno
    statuses := (evaluate cfg pass.statuses i res).1
    calls := (i, formatted cfg i res) :: pass.calls }

theorem rowLoop_skip {iter : UInt32} {input : Input cfg} {i : Row cfg} (rest : List (Row cfg)) {pass : Pass cfg}
    (skipped : ¬selected iter (recorded pass.upsigno (input.arrivals i)) (cfg.arg i) = true) :
    rowLoop iter input (i :: rest) pass =
      rowLoop iter input rest { pass with upsigno := recorded pass.upsigno (input.arrivals i) } := by
  simp only [rowLoop, if_neg skipped]

theorem rowLoop_fits {iter : UInt32} {input : Input cfg} {i : Row cfg} (rest : List (Row cfg)) {pass : Pass cfg}
    (chosen : selected iter (recorded pass.upsigno (input.arrivals i)) (cfg.arg i) = true)
    (fits : Fits cfg i (input.results i)) :
    rowLoop iter input (i :: rest) pass =
      rowLoop iter input rest
        (pass.call (recorded pass.upsigno (input.arrivals i)) i (input.results i)) := by
  have ret : ¬(evaluate cfg pass.statuses i (input.results i)).2 < 0 := by
    rw [evaluate_neg_iff, not_not]
    exact fits
  simp only [rowLoop, if_pos chosen, if_neg ret, Pass.call]

theorem rowLoop_break {iter : UInt32} {input : Input cfg} {i : Row cfg} (rest : List (Row cfg)) {pass : Pass cfg}
    (chosen : selected iter (recorded pass.upsigno (input.arrivals i)) (cfg.arg i) = true)
    (unfit : ¬Fits cfg i (input.results i)) :
    rowLoop iter input (i :: rest) pass =
      pass.call (recorded pass.upsigno (input.arrivals i)) i (input.results i) := by
  have ret : (evaluate cfg pass.statuses i (input.results i)).2 < 0 :=
    (evaluate_neg_iff cfg pass.statuses i (input.results i)).mpr unfit
  simp only [rowLoop, if_pos chosen, if_pos ret, Pass.call]

/-- The `strcat` loop. -/
def strcatLoop (statuses : Statuses cfg) : List (Row cfg) → Buffer cfg.maxlen → Option (Buffer cfg.maxlen)
  | [], status => some status
  | i :: rest, status =>
      match (statuses i).string? with
      | none => none
      | some slot =>
          match status.strcat slot with
          | none => none
          | some status => strcatLoop statuses rest status

theorem maxlen_pos (cfg : Config Comp) : 0 < cfg.maxlen :=
  Nat.mul_pos cfg.cmdlen_pos (List.length_pos_iff.mpr cfg.args_ne_nil)

/-- The published line; `none` when a slot or the line would be read or written out of bounds. -/
def buildLine (cfg : Config Comp) (stack : Buffer cfg.maxlen) (statuses : Statuses cfg) : Option (List Byte) :=
  match strcatLoop statuses cfg.rows (stack.store [0] (maxlen_pos cfg)) with
  | none => none
  | some status =>
      match status.string? with
      | none => none
      | some written => (status.set written.length 0).string?

def printstatus (iter : UInt32) (input : Input cfg) (pass : Pass cfg) : Pass cfg × Option (List Byte) :=
  let pass := rowLoop iter input cfg.rows pass
  let pass := { pass with upsigno := 0 }
  (pass, buildLine cfg input.stack pass.statuses)

theorem printstatus_statuses (iter : UInt32) (input : Input cfg) (pass : Pass cfg) :
    (printstatus iter input pass).1.statuses = (rowLoop iter input cfg.rows pass).statuses := rfl

/-- The in-order concatenation of the slots. -/
def concatenation (statuses : Statuses cfg) : List Byte :=
  cfg.rows.flatMap fun i => (statuses i).string?.getD []

/-- Every slot holds a string. -/
def Terminated (statuses : Statuses cfg) : Prop := ∀ i, ∃ slot, (statuses i).string? = some slot

theorem terminated_evaluate {statuses : Statuses cfg} (terminated : Terminated statuses) (i : Row cfg)
    (res : Option Text) : Terminated (evaluate cfg statuses i res).1 := by
  intro j
  by_cases same : j = i
  · subst same
    exact ⟨_, evaluate_self cfg statuses j res⟩
  · rw [evaluate_other cfg statuses res same]
    exact terminated j

/-- The room left in `status` pays for one full slot per row still to come. -/
theorem strcatLoop_some {statuses : Statuses cfg} (terminated : Terminated statuses) (rows : List (Row cfg))
    {status : Buffer cfg.maxlen} {front : List Byte} (read : status.string? = some front)
    (room : front.length + rows.length * (cfg.cmdlen - 1) < cfg.maxlen) :
    ∃ out, strcatLoop statuses rows status = some out ∧
      out.string? = some (front ++ rows.flatMap fun i => (statuses i).string?.getD []) := by
  induction rows generalizing status front with
  | nil => exact ⟨status, rfl, by simpa using read⟩
  | cons i rest ih =>
    obtain ⟨slot, slotRead⟩ := terminated i
    have short : slot.length < cfg.cmdlen := Buffer.string?_length_lt slotRead
    have step : (rest.length + 1) * (cfg.cmdlen - 1) = rest.length * (cfg.cmdlen - 1) + (cfg.cmdlen - 1) :=
      Nat.succ_mul _ _
    rw [List.length_cons, step] at room
    obtain ⟨next, appended, nextRead⟩ :=
      Buffer.strcat_some read (Buffer.string?_noNul slotRead) (by omega : front.length + slot.length < cfg.maxlen)
    obtain ⟨out, looped, outRead⟩ := ih nextRead (by rw [List.length_append]; omega)
    refine ⟨out, ?_, ?_⟩
    · simp only [strcatLoop, slotRead, appended, looped]
    · simpa [slotRead] using outRead

theorem rows_length (cfg : Config Comp) : cfg.rows.length = cfg.args.length := List.length_finRange

theorem maxlen_room (cfg : Config Comp) : cfg.args.length * (cfg.cmdlen - 1) < cfg.maxlen := by
  have rows : 0 < cfg.args.length := List.length_pos_iff.mpr cfg.args_ne_nil
  have bytes := cfg.cmdlen_pos
  rw [Config.maxlen, Nat.mul_comm cfg.cmdlen]
  exact Nat.mul_lt_mul_of_pos_left (by omega) rows

theorem buildLine_eq {statuses : Statuses cfg} (terminated : Terminated statuses) (stack : Buffer cfg.maxlen) :
    buildLine cfg stack statuses = some (concatenation statuses) := by
  have empty : (stack.store [0] (maxlen_pos cfg)).string? = some [] :=
    Buffer.string?_store stack [] (by simp) (maxlen_pos cfg)
  obtain ⟨out, looped, read⟩ := strcatLoop_some terminated cfg.rows empty (by
    rw [rows_length, List.length_nil, Nat.zero_add]
    exact maxlen_room cfg)
  simp only [buildLine, looped, read]
  exact Buffer.string?_set_end read

theorem concatenation_length {statuses : Statuses cfg} (terminated : Terminated statuses) :
    (concatenation statuses).length + 1 ≤ cfg.maxlen := by
  have line := buildLine_eq terminated (Buffer.zeroed cfg.maxlen)
  unfold buildLine at line
  split at line
  · cases line
  · split at line
    · cases line
    · exact Buffer.string?_length_lt line

end SlStatus.Printstatus
