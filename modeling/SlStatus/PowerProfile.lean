import SlStatus.CString
import SlStatus.Runs

/-! `components/ppd.c`. Every reply is copied to a string of its own, and the test for a change
begins with the pointers. -/

namespace SlStatus.PowerProfile
open CString Runs

/-- A string on the heap. -/
structure GString where
  address : Nat
  content : Text
  deriving DecidableEq

/-- `ppd_profile` after a call, and whether `SIGRTMIN + PPD_SIGNAL` is raised. The reply is the copy
that `g_variant_dup_string` makes; none where the call fails. -/
def ppdUpdate (ppdProfile reply : Option GString) : Option GString × Bool :=
  match reply with
  | none => (ppdProfile, false)
  | some profile =>
      if ppdProfile.map GString.address ≠ some profile.address ∨
          ∃ stored ∈ ppdProfile, profile.content ≠ stored.content then
        (some profile, true)
      else (ppdProfile, false)

structure Process where
  connected : Bool
  ppdProfile : Option GString
  deriving DecidableEq

def started : Process := { connected := false, ppdProfile := none }

inductive Call where
  | ppdInit (proxy : Bool) (reply : Option GString)
  | ppdCallback (reply : Option GString)
  deriving DecidableEq

/-- The copy that the call of `ppd_update` gets; none also where it is not called. -/
def Call.reply : Call → Option GString
  | .ppdInit proxy reply => if proxy then reply else none
  | .ppdCallback reply => reply

def Call.connects : Call → Bool
  | .ppdInit proxy _ => proxy
  | .ppdCallback _ => false

/-- The callback is connected once there is a proxy. -/
def Call.possible (process : Process) : Call → Bool
  | .ppdInit .. => !process.connected
  | .ppdCallback _ => process.connected

/-- A copy is made while the stored string is still there, and lies elsewhere. -/
def Fresh (ppdProfile reply : Option GString) : Prop :=
  ∀ profile ∈ reply, ∀ stored ∈ ppdProfile, stored.address ≠ profile.address

instance (ppdProfile reply : Option GString) : Decidable (Fresh ppdProfile reply) := by
  unfold Fresh
  infer_instance

def step (process : Process) (call : Call) : Option Process :=
  if call.possible process = true ∧ Fresh process.ppdProfile call.reply then
    some
      { connected := process.connected || call.connects
        ppdProfile := (ppdUpdate process.ppdProfile call.reply).1 }
  else none

/-- The content of the last successful reply. -/
def lastReply : Past Process Call → Option Text
  | [] => none
  | (_, call) :: past => (call.reply.map GString.content).or (lastReply past)

def Tracks (past : Past Process Call) (process : Process) : Prop :=
  process.ppdProfile.map GString.content = lastReply past

/-- The signal is raised exactly when the reply has another content than the stored profile. -/
def Announced (taken : Process × Call) : Prop :=
  (ppdUpdate taken.1.ppdProfile taken.2.reply).2 = true ↔
    ∃ profile ∈ taken.2.reply, taken.1.ppdProfile.map GString.content ≠ some profile.content

/-- A successful reply has not the content of the last one. -/
def Changing (past : Past Process Call) (taken : Process × Call) : Prop :=
  ∀ profile ∈ taken.2.reply, lastReply past ≠ some profile.content

/-- The pointers differ, so the contents are never compared. -/
theorem ppdUpdate_fresh {ppdProfile : Option GString} {profile : GString} (fresh : Fresh ppdProfile (some profile)) :
    ppdUpdate ppdProfile (some profile) = (some profile, true) := by
  have different : ppdProfile.map GString.address ≠ some profile.address := by
    intro same
    obtain ⟨stored, member, address⟩ := Option.map_eq_some_iff.mp same
    exact fresh profile rfl stored member address
  exact if_pos (.inl different)

theorem step_cases {before after : Process} {call : Call} (move : step before call = some after) :
    Fresh before.ppdProfile call.reply ∧ after.ppdProfile = (ppdUpdate before.ppdProfile call.reply).1 := by
  unfold step at move
  split_ifs at move with possible
  cases move
  exact ⟨possible.2, rfl⟩

/-- One call keeps the content that of the last successful reply. -/
theorem tracks_step {past : Past Process Call} {before after : Process} {call : Call} (tracks : Tracks past before)
    (move : step before call = some after) : Tracks ((before, call) :: past) after := by
  obtain ⟨fresh, stored⟩ := step_cases move
  unfold Tracks lastReply
  rw [stored]
  cases reply : call.reply with
  | none => exact tracks
  | some profile =>
    rw [reply] at fresh
    rw [ppdUpdate_fresh fresh]
    rfl

/-- A call announces what is new, and nothing else, exactly if there is something new in what it has got. -/
theorem announced_iff {past : Past Process Call} {before after : Process} {call : Call} (tracks : Tracks past before)
    (move : step before call = some after) : Announced (before, call) ↔ Changing past (before, call) := by
  have fresh := (step_cases move).1
  unfold Announced Changing
  dsimp only
  rw [tracks]
  cases reply : call.reply with
  | none =>
    refine iff_of_true ⟨?_, ?_⟩ ?_
    · intro raised
      cases raised
    · rintro ⟨profile, member, -⟩
      cases member
    · intro profile member
      cases member
  | some profile =>
    rw [reply] at fresh
    rw [ppdUpdate_fresh fresh]
    constructor
    · rintro announced other ⟨⟩
      obtain ⟨other, member, new⟩ := announced.mp rfl
      cases member
      exact new
    · intro changing
      exact iff_of_true rfl ⟨profile, rfl, changing profile rfl⟩

/-- The content is right after every call; the signals are right if and only if no reply repeats the one
before. -/
theorem profile_tracked {past : Past Process Call} {last : Process} (run : Run step started past last) :
    Tracks past last ∧ Along (fun past taken => Tracks past taken.1) past ∧
      (Along (fun _ taken => Announced taken) past ↔ Along Changing past) := by
  induction run with
  | start => exact ⟨rfl, trivial, Iff.rfl⟩
  | step call _ move ih =>
    obtain ⟨tracks, always, signals⟩ := ih
    exact ⟨tracks_step tracks move, ⟨tracks, always⟩, and_congr (announced_iff tracks move) signals⟩

/-- `"balanced"`. -/
def balancedName : Text := ⟨[0x62, 0x61, 0x6C, 0x61, 0x6E, 0x63, 0x65, 0x64], by decide⟩

/-- `"performance"`. -/
def performanceName : Text := ⟨[0x70, 0x65, 0x72, 0x66, 0x6F, 0x72, 0x6D, 0x61, 0x6E, 0x63, 0x65], by decide⟩

/-- The proxy is made, and the profile changes once. -/
theorem change_tracked :
    ∃ past last, Run step started past last ∧ past.length = 2 ∧ Tracks past last ∧
      Along (fun _ taken => Announced taken) past := by
  have init : Run step started _ ⟨true, some ⟨1, balancedName⟩⟩ :=
    .step (.ppdInit true (some ⟨1, balancedName⟩)) .start rfl
  have run : Run step started _ ⟨true, some ⟨2, performanceName⟩⟩ :=
    .step (.ppdCallback (some ⟨2, performanceName⟩)) init rfl
  obtain ⟨tracks, -, signals⟩ := profile_tracked run
  refine ⟨_, _, run, rfl, tracks, signals.mpr ⟨?_, ?_, trivial⟩⟩
  · rintro profile ⟨⟩
    decide
  · rintro profile ⟨⟩
    decide

/-- The same profile is told twice, and the second time raises the signal as well. -/
theorem repeated_profile :
    ∃ past last, Run step started past last ∧
      past.map (fun taken => taken.2.reply.map GString.content) = [some balancedName, some balancedName] ∧
      (∀ taken ∈ past, (ppdUpdate taken.1.ppdProfile taken.2.reply).2 = true) ∧
      ¬ Along (fun _ taken => Announced taken) past := by
  have init : Run step started _ ⟨true, some ⟨1, balancedName⟩⟩ :=
    .step (.ppdInit true (some ⟨1, balancedName⟩)) .start rfl
  have run : Run step started _ ⟨true, some ⟨2, balancedName⟩⟩ :=
    .step (.ppdCallback (some ⟨2, balancedName⟩)) init rfl
  refine ⟨_, _, run, rfl, by decide, ?_⟩
  rintro ⟨announced, -⟩
  obtain ⟨profile, member, new⟩ := announced.mp rfl
  cases member
  exact new rfl

end SlStatus.PowerProfile
