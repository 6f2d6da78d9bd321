import Mathlib.Data.List.Nodup
import Mathlib.Logic.Function.Basic
import SlStatus.CString
import SlStatus.Runs

/-! The two callbacks of `components/volume.c` for sndio, over any course of descriptions and
values. The list holds only the controls that the filter lets through, while values are
reported for all. -/

namespace SlStatus.Sndio
open CString Runs

inductive SioctlType where
  | none | num | sw | vec | list | sel
  deriving DecidableEq

/-- What the callbacks read of a `struct sioctl_desc`. -/
structure Desc where
  addr : UInt32
  group : Text
  node0Name : Text
  type : SioctlType
  func : Text
  maxval : UInt32
  deriving DecidableEq

inductive ControlType where
  | level | mute
  deriving DecidableEq

structure Control where
  addr : UInt32
  type : ControlType
  maxval : UInt32
  val : UInt32
  deriving DecidableEq

/-- `"output"`. -/
def outputName : Text := ⟨[0x6F, 0x75, 0x74, 0x70, 0x75, 0x74], by decide⟩

/-- `"level"`. -/
def levelName : Text := ⟨[0x6C, 0x65, 0x76, 0x65, 0x6C], by decide⟩

/-- `"mute"`. -/
def muteName : Text := ⟨[0x6D, 0x75, 0x74, 0x65], by decide⟩

/-- Only output.level and output.mute controls are matched. -/
def controlType (desc : Desc) : Option ControlType :=
  if desc.group ≠ Text.empty ∨ desc.node0Name ≠ outputName then none
  else if desc.type = .num ∧ desc.func = levelName then some .level
  else if desc.type = .sw ∧ desc.func = muteName then some .mute
  else none

/-- `allocated` tells whether `malloc` succeeds if it is called. -/
def ondesc (controls : List Control) (desc : Option Desc) (val : Int32) (allocated : Bool) : List Control :=
  match desc with
  | none => controls
  | some desc =>
      let controls := controls.eraseP fun c => desc.addr = c.addr
      match controlType desc with
      | none => controls
      | some type =>
          if allocated then { addr := desc.addr, type, maxval := desc.maxval, val := val.toUInt32 } :: controls
          else controls

/-- `none` where the search runs off the list and `NULL` is written through. -/
def onval : List Control → UInt32 → UInt32 → Option (List Control)
  | [], _, _ => none
  | c :: rest, addr, val =>
      if c.addr = addr then some ({ c with val } :: rest) else (onval rest addr val).map (c :: ·)

inductive Call where
  | ondesc (desc : Option Desc) (val : Int32) (allocated : Bool)
  | onval (addr val : UInt32)
  deriving DecidableEq

/-- The list, unless `NULL` has been written through, beside the latest description of every
address, with the luck of its allocation, and the latest value. -/
structure Mixer where
  controls : Option (List Control)
  described : UInt32 → Option (Desc × Bool)
  reported : UInt32 → Option UInt32

def initial : Mixer := { controls := some [], described := fun _ => none, reported := fun _ => none }

/-- Values are reported for described addresses only. -/
def step (mixer : Mixer) (call : Call) : Option Mixer :=
  match mixer.controls, call with
  | none, _ => none
  | some controls, .ondesc none val allocated =>
      some { mixer with controls := some (ondesc controls none val allocated) }
  | some controls, .ondesc (some desc) val allocated =>
      some
        { controls := some (ondesc controls (some desc) val allocated)
          described := Function.update mixer.described desc.addr (some (desc, allocated))
          reported := Function.update mixer.reported desc.addr (some val.toUInt32) }
  | some controls, .onval addr val =>
      if (mixer.described addr).isSome then
        some
          { mixer with
            controls := onval controls addr val
            reported := Function.update mixer.reported addr (some val) }
      else none

/-- The control that the list is to hold for an address. -/
def Mixer.expected (mixer : Mixer) (addr : UInt32) : Option Control :=
  match mixer.described addr, mixer.reported addr with
  | some (desc, true), some val =>
      (controlType desc).map fun type => { addr, type, maxval := desc.maxval, val }
  | _, _ => none

/-- `NULL` has not been written through, no address is listed twice, and the list holds what
the latest descriptions and values say. -/
def Listed (mixer : Mixer) : Prop :=
  ∃ controls ∈ mixer.controls, (controls.map Control.addr).Nodup ∧
    ∀ c, c ∈ controls ↔ mixer.expected c.addr = some c

/-- The address's latest description has passed the filter and was allocated. -/
def Matched (mixer : Mixer) (addr : UInt32) : Prop :=
  ∃ desc, mixer.described addr = some (desc, true) ∧ (controlType desc).isSome

/-- Values are reported for matched addresses only. -/
def Known (mixer : Mixer) : Call → Prop
  | .ondesc _ _ _ => True
  | .onval addr _ => Matched mixer addr

/-- What holds between the callbacks while values come for matched addresses only. -/
structure Kept (mixer : Mixer) : Prop where
  listed : Listed mixer
  valued : ∀ addr, (mixer.described addr).isSome → (mixer.reported addr).isSome

theorem mem_erased {controls : List Control} (distinct : (controls.map Control.addr).Nodup) (addr : UInt32)
    (c : Control) : (c ∈ controls.eraseP fun c => addr = c.addr) ↔ c ∈ controls ∧ c.addr ≠ addr := by
  induction controls with
  | nil => simp
  | cons first controls ih =>
    obtain ⟨unlisted, distinct⟩ := List.nodup_cons.mp distinct
    by_cases same : addr = first.addr
    · have others : ∀ other ∈ controls, other.addr ≠ addr := fun other member here =>
        unlisted (List.mem_map.mpr ⟨other, member, here.trans same⟩)
      rw [List.eraseP_cons_of_pos (by simpa using same), List.mem_cons]
      constructor
      · intro member
        exact ⟨.inr member, others c member⟩
      · rintro ⟨rfl | member, different⟩
        · exact absurd same.symm different
        · exact member
    · rw [List.eraseP_cons_of_neg (by simpa using same), List.mem_cons, List.mem_cons, ih distinct]
      constructor
      · rintro (rfl | ⟨member, different⟩)
        · exact ⟨.inl rfl, fun here => same here.symm⟩
        · exact ⟨.inr member, different⟩
      · rintro ⟨here | member, different⟩
        · exact .inl here
        · exact .inr ⟨member, different⟩

/-- The list loses the control of the address, and gains one if the description is matched. -/
theorem mem_ondesc {controls : List Control} (distinct : (controls.map Control.addr).Nodup) (desc : Desc)
    (val : Int32) (allocated : Bool) (c : Control) :
    c ∈ ondesc controls (some desc) val allocated ↔
      (c ∈ controls ∧ c.addr ≠ desc.addr) ∨
        (allocated = true ∧ ∃ type ∈ controlType desc,
          c = { addr := desc.addr, type, maxval := desc.maxval, val := val.toUInt32 }) := by
  rw [← mem_erased distinct desc.addr c, ondesc]
  cases controlType desc with
  | none => simp
  | some type => cases allocated <;> simp [or_comm]

theorem nodup_ondesc {controls : List Control} (distinct : (controls.map Control.addr).Nodup) (desc : Desc)
    (val : Int32) (allocated : Bool) : ((ondesc controls (some desc) val allocated).map Control.addr).Nodup := by
  have erased : ((controls.eraseP fun c => desc.addr = c.addr).map Control.addr).Nodup :=
    distinct.sublist (List.eraseP_sublist.map _)
  rw [ondesc]
  cases controlType desc with
  | none => exact erased
  | some type =>
    cases allocated with
    | false => exact erased
    | true =>
      refine List.nodup_cons.mpr ⟨?_, erased⟩
      intro member
      obtain ⟨c, listed, same⟩ := List.mem_map.mp member
      exact ((mem_erased distinct desc.addr c).mp listed).2 same

theorem onval_eq_none {controls : List Control} {addr : UInt32} (unlisted : ∀ c ∈ controls, c.addr ≠ addr)
    (val : UInt32) : onval controls addr val = none := by
  induction controls with
  | nil => rfl
  | cons first controls ih =>
    obtain ⟨different, unlisted⟩ := List.forall_mem_cons.mp unlisted
    rw [onval, if_neg different, ih unlisted, Option.map_none]

/-- A control after a value for an address. -/
def written (addr val : UInt32) (c : Control) : Control := if c.addr = addr then { c with val } else c

theorem addr_written (addr val : UInt32) (c : Control) : (written addr val c).addr = c.addr := by
  unfold written
  split_ifs <;> rfl

theorem addresses_written (addr val : UInt32) (controls : List Control) :
    (controls.map (written addr val)).map Control.addr = controls.map Control.addr := by
  rw [List.map_map]
  apply List.map_congr_left
  intro c _
  exact addr_written addr val c

/-- The search stops at the one control that there is. -/
theorem onval_eq_some {controls : List Control} {addr : UInt32} (distinct : (controls.map Control.addr).Nodup)
    (listed : ∃ c ∈ controls, c.addr = addr) (val : UInt32) :
    onval controls addr val = some (controls.map (written addr val)) := by
  induction controls with
  | nil => simp at listed
  | cons first controls ih =>
    obtain ⟨unlisted, distinct⟩ := List.nodup_cons.mp distinct
    rw [onval, List.map_cons, written]
    by_cases same : first.addr = addr
    · have others : controls.map (written addr val) = controls := by
        conv_rhs => rw [← List.map_id controls]
        apply List.map_congr_left
        intro other member
        exact if_neg fun here => unlisted (List.mem_map.mpr ⟨other, member, here.trans same.symm⟩)
      rw [if_pos same, if_pos same, others]
    · obtain ⟨c, member, here⟩ := listed
      rcases List.mem_cons.mp member with rfl | member
      · exact absurd here same
      · rw [if_neg same, if_neg same, ih distinct ⟨c, member, here⟩, Option.map_some]

theorem expected_eq_some {mixer : Mixer} {addr : UInt32} {c : Control} :
    mixer.expected addr = some c ↔
      ∃ desc, mixer.described addr = some (desc, true) ∧ ∃ val, mixer.reported addr = some val ∧
        ∃ type, controlType desc = some type ∧ c = { addr, type, maxval := desc.maxval, val } := by
  unfold Mixer.expected
  constructor
  · intro here
    split at here
    · rename_i desc val described reported
      obtain ⟨type, matched, rfl⟩ := Option.map_eq_some_iff.mp here
      exact ⟨desc, described, val, reported, type, matched, rfl⟩
    · cases here
  · rintro ⟨desc, described, val, reported, type, matched, rfl⟩
    simp only [described, reported, matched, Option.map_some]

theorem matched_of_mem {mixer : Mixer} {controls : List Control}
    (holds : ∀ c, c ∈ controls ↔ mixer.expected c.addr = some c) {c : Control} (member : c ∈ controls) :
    Matched mixer c.addr := by
  obtain ⟨desc, described, -, -, type, matched, -⟩ := expected_eq_some.mp ((holds c).mp member)
  exact ⟨desc, described, by rw [matched, Option.isSome_some]⟩

theorem mem_of_matched {mixer : Mixer} {controls : List Control}
    (holds : ∀ c, c ∈ controls ↔ mixer.expected c.addr = some c)
    (valued : ∀ addr, (mixer.described addr).isSome → (mixer.reported addr).isSome) {addr : UInt32}
    (matched : Matched mixer addr) : ∃ c ∈ controls, c.addr = addr := by
  obtain ⟨desc, described, filtered⟩ := matched
  obtain ⟨type, filtered⟩ := Option.isSome_iff_exists.mp filtered
  obtain ⟨val, reported⟩ := Option.isSome_iff_exists.mp (valued addr (by rw [described, Option.isSome_some]))
  refine ⟨{ addr, type, maxval := desc.maxval, val }, (holds _).mpr ?_, rfl⟩
  exact expected_eq_some.mpr ⟨desc, described, val, reported, type, filtered, rfl⟩

/-- A description decides its own address and no other. -/
theorem expected_of_ondesc (mixer : Mixer) (controls : Option (List Control)) (desc : Desc) (val : Int32)
    (allocated : Bool) (addr : UInt32) (c : Control) :
    Mixer.expected
        { controls
          described := Function.update mixer.described desc.addr (some (desc, allocated))
          reported := Function.update mixer.reported desc.addr (some val.toUInt32) } addr = some c ↔
      (mixer.expected addr = some c ∧ addr ≠ desc.addr) ∨
        (addr = desc.addr ∧ allocated = true ∧ ∃ type ∈ controlType desc,
          c = { addr := desc.addr, type, maxval := desc.maxval, val := val.toUInt32 }) := by
  rw [expected_eq_some]
  by_cases same : addr = desc.addr
  · subst addr
    simp only [Function.update_self, Option.some.injEq, Prod.mk.injEq, ne_eq, not_true, and_false, true_and, false_or]
    constructor
    · rintro ⟨other, ⟨rfl, allocated⟩, _, rfl, type, matched, rfl⟩
      exact ⟨allocated, type, matched, rfl⟩
    · rintro ⟨allocated, type, matched, rfl⟩
      exact ⟨desc, ⟨rfl, allocated⟩, _, rfl, type, matched, rfl⟩
  · simp only [Function.update_of_ne same, same, ne_eq, not_false_eq_true, and_true, false_and, or_false]
    exact expected_eq_some.symm

theorem kept_of_ondesc {mixer mixer' : Mixer} {desc : Option Desc} {val : Int32} {allocated : Bool}
    (kept : Kept mixer) (taken : step mixer (.ondesc desc val allocated) = some mixer') : Kept mixer' := by
  obtain ⟨⟨controls, listed, distinct, holds⟩, valued⟩ := kept
  cases desc with
  | none =>
    simp only [step, Option.mem_def.mp listed, Option.some.injEq] at taken
    subst mixer'
    exact ⟨⟨controls, rfl, distinct, holds⟩, valued⟩
  | some desc =>
    simp only [step, Option.mem_def.mp listed, Option.some.injEq] at taken
    subst mixer'
    refine ⟨⟨_, rfl, nodup_ondesc distinct desc val allocated, ?_⟩, ?_⟩
    · intro c
      rw [mem_ondesc distinct, expected_of_ondesc, holds]
      constructor
      · rintro (other | ⟨allocated, type, matched, rfl⟩)
        · exact .inl other
        · exact .inr ⟨rfl, allocated, type, matched, rfl⟩
      · rintro (other | ⟨-, created⟩)
        · exact .inl other
        · exact .inr created
    · intro addr described
      by_cases same : addr = desc.addr
      · subst addr
        simp
      · dsimp only at described ⊢
        rw [Function.update_of_ne same] at described ⊢
        exact valued addr described

/-- A value of a described address shows in what is expected there. -/
theorem expected_of_onval (mixer : Mixer) (controls : Option (List Control)) {addr : UInt32} (val : UInt32)
    (valued : (mixer.reported addr).isSome) (other : UInt32) :
    Mixer.expected { mixer with controls, reported := Function.update mixer.reported addr (some val) } other =
      (mixer.expected other).map (written addr val) := by
  obtain ⟨old, reported⟩ := Option.isSome_iff_exists.mp valued
  by_cases same : other = addr
  · subst other
    unfold Mixer.expected
    dsimp only
    rw [reported, Function.update_self]
    rcases mixer.described addr with _ | ⟨desc, _ | _⟩
    · rfl
    · rfl
    · dsimp only
      rw [Option.map_map]
      congr 1
      funext type
      exact (if_pos rfl).symm
  · have untouched : (mixer.expected other).map (written addr val) = mixer.expected other := by
      cases expected : mixer.expected other with
      | none => rfl
      | some c =>
        obtain ⟨-, -, -, -, type, -, rfl⟩ := expected_eq_some.mp expected
        exact congrArg some (if_neg same)
    rw [untouched]
    simp only [Mixer.expected, Function.update_of_ne same]

theorem kept_of_onval {mixer mixer' : Mixer} {addr val : UInt32} (kept : Kept mixer)
    (matched : Matched mixer addr) (taken : step mixer (.onval addr val) = some mixer') : Kept mixer' := by
  obtain ⟨⟨controls, listed, distinct, holds⟩, valued⟩ := kept
  simp only [step, Option.mem_def.mp listed] at taken
  split_ifs at taken with described
  cases taken
  have searched := onval_eq_some distinct (mem_of_matched holds valued matched) val
  refine ⟨⟨_, searched, ?_, ?_⟩, ?_⟩
  · rw [addresses_written]
    exact distinct
  · intro c
    rw [expected_of_onval mixer _ val (valued addr described), List.mem_map, Option.map_eq_some_iff]
    constructor
    · rintro ⟨old, member, rfl⟩
      rw [addr_written]
      exact ⟨old, (holds old).mp member, rfl⟩
    · rintro ⟨old, expected, rfl⟩
      rw [addr_written] at expected
      exact ⟨old, (holds old).mpr expected, rfl⟩
  · intro other described
    by_cases same : other = addr
    · subst other
      simp
    · dsimp only
      rw [Function.update_of_ne same]
      exact valued other described

theorem unlisted_of_unknown {mixer mixer' : Mixer} {call : Call} (kept : Kept mixer) (unknown : ¬Known mixer call)
    (taken : step mixer call = some mixer') : ¬Listed mixer' := by
  obtain ⟨⟨controls, listed, distinct, holds⟩, -⟩ := kept
  cases call with
  | ondesc => exact absurd trivial unknown
  | onval addr val =>
    simp only [step, Option.mem_def.mp listed] at taken
    split_ifs at taken with described
    cases taken
    have missed : onval controls addr val = none := by
      apply onval_eq_none
      rintro c member rfl
      exact unknown (matched_of_mem holds member)
    rintro ⟨controls', listed', -⟩
    rw [missed] at listed'
    cases listed'

/-- Under any sequence of descriptions and values the list is what they say if and only if all
values come for addresses whose latest description has made it into the list. -/
theorem listed_iff_known {past : Past Mixer Call} {last : Mixer} (run : Run step initial past last) :
    (Listed last ∧ ∀ taken ∈ past, Listed taken.1) ↔ Within Known past := by
  refine run.exact Known Kept Listed (fun _ kept => kept.listed) ?_ ?_ fun _ _ _ => unlisted_of_unknown
  · exact ⟨⟨[], rfl, List.nodup_nil, fun c => by simp [initial, Mixer.expected]⟩, by simp [initial]⟩
  · intro before call after kept known taken
    cases call with
    | ondesc => exact kept_of_ondesc kept taken
    | onval => exact kept_of_onval kept known taken

instance (mixer : Mixer) (addr : UInt32) : Decidable (Matched mixer addr) :=
  decidable_of_iff ((mixer.described addr).any fun latest => latest.2 && (controlType latest.1).isSome) (by
    unfold Matched
    rcases mixer.described addr with _ | ⟨desc, _ | _⟩ <;> simp)

instance (mixer : Mixer) (call : Call) : Decidable (Known mixer call) :=
  match call with
  | .ondesc _ _ _ => .isTrue trivial
  | .onval addr _ => inferInstanceAs (Decidable (Matched mixer addr))

/-- `output.level`, `output.mute` and `input.level` at their addresses. -/
def outputLevel (addr : UInt32) : Desc :=
  { addr, group := Text.empty, node0Name := outputName, type := .num, func := levelName, maxval := 255 }

def outputMute (addr : UInt32) : Desc :=
  { addr, group := Text.empty, node0Name := outputName, type := .sw, func := muteName, maxval := 1 }

def inputLevel (addr : UInt32) : Desc :=
  { outputLevel addr with node0Name := ⟨[0x69, 0x6E, 0x70, 0x75, 0x74], by decide⟩ }

theorem listed_iff_known_retyped :
    ∃ past last, Run step initial past last ∧ last.controls = some [⟨0, .mute, 1, 1⟩, ⟨1, .level, 255, 7⟩] ∧
      (Listed last ∧ ∀ taken ∈ past, Listed taken.1) := by
  obtain ⟨past, last, run, checked⟩ := exists_run step initial
    [.ondesc (some (outputLevel 0)) 5 true, .ondesc (some (inputLevel 2)) 9 true,
      .ondesc (some (outputLevel 1)) 6 true, .onval 1 7, .onval 0 8, .ondesc (some (outputMute 0)) 0 true,
      .onval 0 1, .ondesc none 0 true]
    (fun past last => decide (last.controls = some [⟨0, .mute, 1, 1⟩, ⟨1, .level, 255, 7⟩] ∧ Within Known past))
    (by decide)
  obtain ⟨controls, known⟩ := of_decide_eq_true checked
  exact ⟨past, last, run, controls, (listed_iff_known run).mpr known⟩

/-- A described input control reports its value, and `NULL` is written through. -/
theorem input_value_written :
    ∃ past last, Run step initial past last ∧ last.controls = none ∧ ¬Listed last ∧
      past.map Prod.snd = [.onval 0 6, .ondesc (some (inputLevel 0)) 5 true] := by
  obtain ⟨past, last, run, checked⟩ := exists_run step initial
    [.ondesc (some (inputLevel 0)) 5 true, .onval 0 6]
    (fun past last => decide (last.controls = none ∧
      past.map Prod.snd = [.onval 0 6, .ondesc (some (inputLevel 0)) 5 true])) (by decide)
  obtain ⟨written, calls⟩ := of_decide_eq_true checked
  refine ⟨past, last, run, written, ?_, calls⟩
  rintro ⟨controls, listed, -⟩
  rw [written] at listed
  cases listed

end SlStatus.Sndio
