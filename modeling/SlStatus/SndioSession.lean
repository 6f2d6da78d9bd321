import SlStatus.Display
import SlStatus.SndioVolume

/-! The connection to sndio that `vol_perc` of `components/volume.c` keeps from one evaluation to the next:
it is opened when there is none, and given up when the server hangs up. What sndio answers, and which
callbacks it makes, belongs to the evaluation. Using a handle that is not open, `pfds` that are not
allocated or a control that is not listed has no result. -/

namespace SlStatus.SndioSession
open CString Display Integers Runs Sndio SndioVolume

variable {Handle : Type}

/-- The static variables, the list of controls with what it is to hold, and the handles that sndio has given
out and not got back. -/
structure Session (Handle : Type) where
  initialized : Bool
  hdl : Option Handle
  pfds : Bool
  mixer : Mixer
  handles : List Handle

/-- What `init` meets: the callbacks are made by the two functions that register them. -/
structure Opening (Handle : Type) where
  handle : Option Handle
  describing : List Call
  described : Bool
  valuing : List Call
  valued : Bool
  allocated : Bool

/-- What one evaluation meets. -/
structure Evaluation (Handle : Type) where
  opening : Opening Handle
  nfds : Int
  polled : Int
  calls : List Call
  hangup : Bool

def initial : Session Handle := { initialized := false, hdl := none, pfds := false, mixer := Sndio.initial, handles := [] }

def deliver : Mixer → List Call → Option Mixer
  | mixer, [] => some mixer
  | mixer, call :: calls => (Sndio.step mixer call).bind fun mixer => deliver mixer calls

section Functions

variable [DecidableEq Handle]

/-- A handle can be closed as long as it is open. -/
def sioctlClose (handles : List Handle) (hdl : Handle) : Option (List Handle) :=
  if hdl ∈ handles then some (handles.erase hdl) else none

/-- What has been heard of the controls is of no meaning for the next connection. -/
def cleanup (s : Session Handle) : Option (Session Handle) := do
  let handles ← match s.hdl with
    | some hdl => sioctlClose s.handles hdl
    | none => some s.handles
  pure { s with hdl := none, pfds := false, mixer := Sndio.initial, handles }

/-- The second component is what `init` returns. -/
def init (s : Session Handle) (opening : Opening Handle) : Option (Session Handle × Bool) := do
  let s := { s with hdl := opening.handle, handles := opening.handle.toList ++ s.handles }
  match opening.handle with
  | none => pure (← cleanup s, false)
  | some _ =>
      let mixer ← deliver s.mixer opening.describing
      let s := { s with mixer }
      if opening.described = false then pure (← cleanup s, false)
      else
        let mixer ← deliver s.mixer opening.valuing
        let s := { s with mixer }
        if opening.valued = false then pure (← cleanup s, false)
        else if opening.allocated = false then pure (← cleanup s, false)
        else pure ({ s with pfds := true }, true)

/-- What comes before the test of `hdl`. -/
def connect (s : Session Handle) (opening : Opening Handle) : Option (Session Handle) := do
  if s.initialized = false then
    let (s, initialized) ← init s opening
    pure { s with initialized }
  else pure s

/-- The loop over the controls, and what it comes to as text. -/
def show? (s : Session Handle) : Option (Option Text) := do
  let controls ← s.mixer.controls
  let value ← value machine controls 100
  pure (bprintf (decimal value))

def volPerc (s : Session Handle) (e : Evaluation Handle) : Option (Session Handle × Option Text) := do
  let s ← connect s e.opening
  match s.hdl with
  | none => pure (s, none)
  | some hdl =>
      if hdl ∉ s.handles ∨ s.pfds = false then none
      else if 0 < e.nfds ∧ 0 < e.polled then
        let mixer ← deliver s.mixer e.calls
        let s := { s with mixer }
        if e.hangup then
          let s ← cleanup s
          pure ({ s with initialized := false }, none)
        else pure (s, ← show? s)
      else pure (s, ← show? s)

end Functions

/-- A value comes for a matched address, and it is within the 16-bit range of a level. -/
def Fair (mixer : Mixer) (call : Call) : Prop :=
  Known mixer call ∧
  match call with
  | .ondesc none _ _ => True
  | .ondesc (some desc) val _ =>
      controlType desc = some .level → 1 ≤ desc.maxval ∧ desc.maxval ≤ 65535 ∧ val.toUInt32 ≤ desc.maxval
  | .onval addr val =>
      ∀ latest ∈ mixer.described addr, latest.2 = true → controlType latest.1 = some .level → val ≤ latest.1.maxval

def AllFair : Mixer → List Call → Prop
  | _, [] => True
  | mixer, call :: calls => Fair mixer call ∧ ∀ mixer' ∈ Sndio.step mixer call, AllFair mixer' calls

/-- Every level is within its range. -/
def InRange (mixer : Mixer) : Prop :=
  ∀ addr desc val, mixer.described addr = some (desc, true) → mixer.reported addr = some val →
    controlType desc = some .level → 1 ≤ desc.maxval ∧ desc.maxval ≤ 65535 ∧ val ≤ desc.maxval

section Delivery

variable {mixer : Mixer}

theorem kept_initial : Kept Sndio.initial ∧ InRange Sndio.initial := by
  refine ⟨⟨⟨[], rfl, List.nodup_nil, fun c => by simp [Sndio.initial, Mixer.expected]⟩, by simp [Sndio.initial]⟩, ?_⟩
  intro addr desc val described
  cases described

/-- A fair call is taken, and leaves a list that is what it is to be. -/
theorem kept_of_call (kept : Kept mixer) (inRange : InRange mixer) {call : Call} (fair : Fair mixer call) :
    ∃ mixer', Sndio.step mixer call = some mixer' ∧ Kept mixer' ∧ InRange mixer' := by
  obtain ⟨controls, listed, distinct, holds⟩ := kept.listed
  rw [Option.mem_def] at listed
  cases call with
  | ondesc desc val allocated =>
    cases desc with
    | none =>
      have taken : Sndio.step mixer (.ondesc none val allocated) =
          some { mixer with controls := some (ondesc controls none val allocated) } := by
        simp only [Sndio.step, listed]
      exact ⟨_, taken, kept_of_ondesc kept taken, inRange⟩
    | some desc =>
      have taken : Sndio.step mixer (.ondesc (some desc) val allocated) =
          some
            { controls := some (ondesc controls (some desc) val allocated)
              described := Function.update mixer.described desc.addr (some (desc, allocated))
              reported := Function.update mixer.reported desc.addr (some val.toUInt32) } := by
        simp only [Sndio.step, listed]
      refine ⟨_, taken, kept_of_ondesc kept taken, ?_⟩
      intro addr other value described reported level
      by_cases same : addr = desc.addr
      · subst addr
        simp only [Function.update_self, Option.some.injEq, Prod.mk.injEq] at described reported
        obtain ⟨rfl, -⟩ := described
        subst reported
        exact fair.2 level
      · simp only [Function.update_of_ne same] at described reported
        exact inRange addr other value described reported level
  | onval addr val =>
    obtain ⟨desc, described, -⟩ := fair.1
    have taken : Sndio.step mixer (.onval addr val) =
        some
          { mixer with
            controls := onval controls addr val
            reported := Function.update mixer.reported addr (some val) } := by
      simp only [Sndio.step, listed, described, Option.isSome_some, if_true]
    refine ⟨_, taken, kept_of_onval kept fair.1 taken, ?_⟩
    intro other otherDesc value described' reported level
    by_cases same : other = addr
    · subst other
      simp only [Function.update_self, Option.some.injEq] at reported
      subst reported
      obtain ⟨old, written⟩ := Option.isSome_iff_exists.mp (kept.valued addr (by rw [described']; rfl))
      obtain ⟨least, most, -⟩ := inRange addr otherDesc old described' written level
      exact ⟨least, most, fair.2 (otherDesc, true) described' rfl level⟩
    · simp only [Function.update_of_ne same] at reported
      exact inRange other otherDesc value described' reported level

theorem kept_of_deliver {calls : List Call} (kept : Kept mixer) (inRange : InRange mixer) (fair : AllFair mixer calls) :
    ∃ mixer', deliver mixer calls = some mixer' ∧ Kept mixer' ∧ InRange mixer' := by
  induction calls generalizing mixer with
  | nil => exact ⟨mixer, rfl, kept, inRange⟩
  | cons call calls ih =>
    obtain ⟨mixer', taken, kept', inRange'⟩ := kept_of_call kept inRange fair.1
    obtain ⟨last, delivered, held⟩ := ih kept' inRange' (fair.2 mixer' taken)
    exact ⟨last, by rw [deliver, taken, Option.bind_some, delivered], held⟩

end Delivery

/-- Either there is no connection and nothing is left of one, or there is one with all it needs, and the list is
what has been heard on it. -/
inductive Sound : Session Handle → Prop where
  | closed : Sound initial
  | opened (hdl : Handle) (mixer : Mixer) (kept : Kept mixer) (inRange : InRange mixer) :
      Sound { initialized := true, hdl := some hdl, pfds := true, mixer, handles := [hdl] }

variable [DecidableEq Handle]

/-- The callbacks that `init` sees are fair. -/
def FairOpening (s : Session Handle) (opening : Opening Handle) : Prop :=
  AllFair s.mixer opening.describing ∧
    ∀ mixer ∈ deliver s.mixer opening.describing, AllFair mixer opening.valuing

/-- All callbacks of the evaluation are fair. -/
def Allowed (s : Session Handle) (e : Evaluation Handle) : Prop :=
  (s.initialized = false → FairOpening s e.opening) ∧ ∀ s' ∈ connect s e.opening, AllFair s'.mixer e.calls

def step (s : Session Handle) (e : Evaluation Handle) : Option (Session Handle) := (volPerc s e).map Prod.fst

section Steps

variable {s : Session Handle} {e : Evaluation Handle} {opening : Opening Handle} {hdl : Handle} {mixer : Mixer}

/-- The one handle there is can be closed, and nothing is left. -/
theorem cleanup_eq (initialized pfds : Bool) (mixer : Mixer) :
    cleanup { initialized, hdl := some hdl, pfds, mixer, handles := [hdl] } =
      some { (initial : Session Handle) with initialized } := by
  simp [cleanup, sioctlClose, initial]

/-- A connection is made, or all that had been done for it is undone. -/
theorem init_eq (fair : FairOpening (initial : Session Handle) opening) :
    init initial opening = some (initial, false) ∨
    ∃ hdl mixer, init initial opening =
        some ({ initialized := false, hdl := some hdl, pfds := true, mixer, handles := [hdl] }, true) ∧
      Kept mixer ∧ InRange mixer := by
  obtain ⟨kept, inRange⟩ := kept_initial
  cases handle : opening.handle with
  | none =>
    left
    simp [init, handle, cleanup, initial]
  | some hdl =>
    obtain ⟨described, delivered, keptDescribed, inRangeDescribed⟩ := kept_of_deliver kept inRange fair.1
    have valuing : AllFair described opening.valuing := fair.2 described delivered
    obtain ⟨valued, deliveredValues, keptValued, inRangeValued⟩ :=
      kept_of_deliver keptDescribed inRangeDescribed valuing
    have same : (initial : Session Handle).mixer = Sndio.initial := rfl
    have none : (initial : Session Handle).handles = [] := rfl
    simp only [init, handle, same, none, delivered, deliveredValues, Option.bind_eq_bind, Option.bind_some,
      Option.toList_some, List.append_nil, Option.pure_def, cleanup_eq]
    split_ifs
    · exact .inl rfl
    · exact .inl rfl
    · exact .inl rfl
    · exact .inr ⟨hdl, valued, rfl, keptValued, inRangeValued⟩

theorem connect_sound (sound : Sound s) (fair : s.initialized = false → FairOpening s opening) :
    ∃ s', connect s opening = some s' ∧ Sound s' := by
  cases sound with
  | closed =>
    rcases init_eq (fair rfl) with failed | ⟨hdl, mixer, made, kept, inRange⟩
    · refine ⟨initial, ?_, .closed⟩
      simp only [connect, failed, Option.bind_eq_bind, Option.bind_some, Option.pure_def]
      rfl
    · refine ⟨_, ?_, .opened hdl mixer kept inRange⟩
      simp only [connect, made, Option.bind_eq_bind, Option.bind_some, Option.pure_def]
      rfl
  | opened hdl mixer kept inRange => exact ⟨_, rfl, .opened hdl mixer kept inRange⟩

/-- 0 if a mute is set, else the least of 100 and the levels. -/
def volume (controls : List Control) : Int := if Muted controls then 0 else (levels controls).foldr min 100

omit [DecidableEq Handle] in
theorem bprintf_percent {percent : Int} (nonneg : 0 ≤ percent) (most : percent ≤ 100) :
    bprintf (decimal percent) = some (decimal percent) := by
  obtain ⟨n, rfl⟩ := Int.eq_ofNat_of_zero_le nonneg
  have short : (decimal n).bytes.length ≤ 3 := length_decimal_le (by decide) (by omega)
  rw [bprintf_eq, if_pos (by omega)]

omit [DecidableEq Handle] in
/-- What the loop comes to while the list is what it is to be. -/
theorem show_eq (kept : Kept mixer) (inRange : InRange mixer) :
    ∃ controls, mixer.controls = some controls ∧ (∀ c, c ∈ controls ↔ mixer.expected c.addr = some c) ∧
      0 ≤ volume controls ∧ volume controls ≤ 100 ∧
      ∀ s : Session Handle, s.mixer = mixer → show? s = some (some (decimal (volume controls))) := by
  obtain ⟨controls, listed, -, holds⟩ := kept.listed
  rw [Option.mem_def] at listed
  have transmitted : Transmitted controls := by
    intro c member level
    obtain ⟨desc, described, val, reported, type, matched, same⟩ := expected_eq_some.mp ((holds c).mp member)
    rw [same] at level ⊢
    have isLevel : type = .level := level
    exact inRange c.addr desc val described reported (isLevel ▸ matched)
  have exact : value strict controls 100 = some (volume controls) := value_eq transmitted (by decide)
  have run : value machine controls 100 = some (volume controls) := value_refines controls 100 _ exact
  have nonneg : 0 ≤ volume controls := by
    unfold volume
    split_ifs
    · exact le_refl 0
    · exact le_least (by decide) (levels_nonneg transmitted)
  have most : volume controls ≤ 100 := by
    unfold volume
    split_ifs
    · decide
    · exact least_le 100 _
  refine ⟨controls, listed, holds, nonneg, most, ?_⟩
  intro s same
  simp only [show?, same, listed, run, bprintf_percent nonneg most, Option.bind_eq_bind, Option.bind_some,
    Option.pure_def]

/-- What an evaluation has to show for itself: nothing, and there is no connection any more, or the volume that
the controls of the present connection come to. -/
def Right (s : Session Handle) (text : Option Text) : Prop :=
  (text = none ∧ s = initial) ∨
  ∃ controls, s.initialized = true ∧ s.mixer.controls = some controls ∧
    (∀ c, c ∈ controls ↔ s.mixer.expected c.addr = some c) ∧ 0 ≤ volume controls ∧ volume controls ≤ 100 ∧
    text = some (decimal (volume controls))

/-- No evaluation uses anything that is not there, and each leaves a connection or nothing. -/
theorem volPerc_sound (sound : Sound s) (allowed : Allowed s e) :
    ∃ s' text, volPerc s e = some (s', text) ∧ Sound s' ∧ Right s' text := by
  obtain ⟨connected, made, sound'⟩ := connect_sound sound allowed.1
  have fair := allowed.2 connected made
  cases sound' with
  | closed =>
    refine ⟨initial, none, ?_, .closed, .inl ⟨rfl, rfl⟩⟩
    simp only [volPerc, made, Option.bind_eq_bind, Option.bind_some]
    rfl
  | opened hdl mixer kept inRange =>
    have usable : ¬(hdl ∉ [hdl] ∨ true = false) := by simp
    obtain ⟨heard, delivered, kept', inRange'⟩ := kept_of_deliver kept inRange fair
    simp only [volPerc, made, Option.bind_eq_bind, Option.bind_some, if_neg usable, delivered, cleanup_eq,
      Option.pure_def]
    split_ifs with ready hungUp
    · exact ⟨_, _, rfl, .closed, .inl ⟨rfl, rfl⟩⟩
    · obtain ⟨controls, listed, holds, nonneg, most, shown⟩ := show_eq kept' inRange'
      rw [shown _ rfl]
      exact ⟨_, _, rfl, .opened hdl heard kept' inRange', .inr ⟨controls, rfl, listed, holds, nonneg, most, rfl⟩⟩
    · obtain ⟨controls, listed, holds, nonneg, most, shown⟩ := show_eq kept inRange
      rw [shown _ rfl]
      exact ⟨_, _, rfl, .opened hdl mixer kept inRange, .inr ⟨controls, rfl, listed, holds, nonneg, most, rfl⟩⟩

end Steps

/-- Over any course of evaluations, failed connections and hang-ups, no evaluation touches a handle, an array or
a control that is not there, every handle is closed once, and what is shown is the volume of the controls
described on the present connection, nothing of an earlier one being left. -/
theorem session_of_run {past : Past (Session Handle) (Evaluation Handle)} {s : Session Handle}
    (run : Run step initial past s) (within : Within Allowed past) :
    s.handles = s.hdl.toList ∧ (s.pfds = true ↔ s.hdl.isSome) ∧ (s.initialized = true ↔ s.hdl.isSome) ∧
    (s.hdl = none → s.mixer.controls = some []) ∧
    ∀ e, Allowed s e → ∃ s' text, volPerc s e = some (s', text) ∧ Right s' text := by
  have sound : Sound s := by
    refine run.invariant Allowed Sound .closed ?_ within
    intro before e after sound allowed taken
    obtain ⟨s', text, evaluated, sound', -⟩ := volPerc_sound sound allowed
    rw [step, evaluated, Option.map_some] at taken
    cases taken
    exact sound'
  have evaluates : ∀ e, Allowed s e → ∃ s' text, volPerc s e = some (s', text) ∧ Right s' text := by
    intro e allowed
    obtain ⟨s', text, evaluated, -, right⟩ := volPerc_sound sound allowed
    exact ⟨s', text, evaluated, right⟩
  cases sound with
  | closed => exact ⟨rfl, by simp [initial], by simp [initial], fun _ => rfl, evaluates⟩
  | opened hdl mixer => exact ⟨rfl, by simp, by simp, nofun, evaluates⟩

instance (mixer : Mixer) (call : Call) : Decidable (Fair mixer call) :=
  match call with
  | .ondesc none _ _ => inferInstanceAs (Decidable (_ ∧ True))
  | .ondesc (some _) _ _ => inferInstanceAs (Decidable (_ ∧ (_ → _)))
  | .onval addr val => inferInstanceAs (Decidable (_ ∧ ∀ latest ∈ mixer.described addr,
      latest.2 = true → controlType latest.1 = some .level → val ≤ latest.1.maxval))

instance decidableAllFair : (mixer : Mixer) → (calls : List Call) → Decidable (AllFair mixer calls)
  | _, [] => .isTrue trivial
  | mixer, call :: calls =>
      have : ∀ mixer', Decidable (AllFair mixer' calls) := fun mixer' => decidableAllFair mixer' calls
      inferInstanceAs (Decidable (Fair mixer call ∧ ∀ mixer' ∈ Sndio.step mixer call, AllFair mixer' calls))

instance (s : Session Handle) (opening : Opening Handle) : Decidable (FairOpening s opening) :=
  inferInstanceAs (Decidable (_ ∧ ∀ mixer ∈ deliver s.mixer opening.describing, AllFair mixer opening.valuing))

instance (s : Session Handle) (e : Evaluation Handle) : Decidable (Allowed s e) :=
  inferInstanceAs (Decidable ((_ → _) ∧ ∀ s' ∈ connect s e.opening, AllFair s'.mixer e.calls))

/-- A server that describes one level, and one that cannot be reached. -/
def level (hdl : Nat) (val : Int32) : Opening Nat :=
  { handle := some hdl, describing := [.ondesc (some (outputLevel 0)) val true, .ondesc none 0 true], described := true,
    valuing := [], valued := true, allocated := true }

def unreachable : Opening Nat :=
  { handle := none, describing := [], described := true, valuing := [], valued := true, allocated := true }

/-- After a hang-up, and a server that could not be reached, the volume is that of the new connection. -/
theorem session_of_run_reconnected :
    ∃ past s, Run step (initial : Session Nat) past s ∧ s.handles = [1] ∧
      ∃ s' text, volPerc s { opening := unreachable, nfds := 1, polled := 0, calls := [], hangup := false } =
        some (s', text) ∧ Right s' text := by
  obtain ⟨past, s, run, checked⟩ := exists_run step (initial : Session Nat)
    [{ opening := level 0 200, nfds := 1, polled := 0, calls := [], hangup := false },
      { opening := unreachable, nfds := 1, polled := 1, calls := [.onval 0 51], hangup := true },
      { opening := unreachable, nfds := 1, polled := 0, calls := [], hangup := false },
      { opening := level 1 102, nfds := 1, polled := 1, calls := [.onval 0 128], hangup := false }]
    (fun past s => decide (s.handles = [1] ∧ Within Allowed past ∧
      Allowed s { opening := unreachable, nfds := 1, polled := 0, calls := [], hangup := false })) (by decide +kernel)
  obtain ⟨handles, within, allowed⟩ := of_decide_eq_true checked
  obtain ⟨-, -, -, -, evaluates⟩ := session_of_run run within
  exact ⟨past, s, run, handles, evaluates _ allowed⟩

end SlStatus.SndioSession
