import SlStatus.SinkChanges
import SlStatus.SinkDeliveries

/-! The entries of `components/pa.c` over any course of lookups, changes and deliveries: they are
coherent as long as every step is orderly. -/

namespace SlStatus.SinkCoherence
open CString PulseAudio SinkServer SinkInvariant SinkChanges SinkDeliveries Runs Caches
open SinkLookup hiding step initial

theorem kept_of_step {percent : UInt32 → Int} {s s' : System} {action : Action} (kept : Kept percent s)
    (orderly : Orderly percent s action) (taken : SinkServer.step percent s action = some s') :
    Kept percent s' := by
  cases action with
  | display => exact kept_of_display kept taken
  | change => exact kept_of_change kept taken
  | create => exact kept_of_create kept taken
  | remove => exact kept_of_remove kept taken
  | setDefault => exact kept_of_setDefault kept orderly taken
  | answer => exact kept_of_answer kept taken
  | reply => exact kept_of_reply kept taken
  | event => exact kept_of_event kept orderly taken

/-- As long as every step is orderly, no entry of a named sink ever holds what another sink says,
and whenever nothing is under way the entries hold what the sinks say. -/
theorem coherent_of_run (percent : UInt32 → Int) {server : Server} (wellFormed : server.WellFormed)
    {past : Past System Action} {last : System}
    (run : Run (SinkServer.step percent) (SinkServer.initial server) past last)
    (orderly : Within (Orderly percent) past) :
    Coherent percent last ∧ ∀ taken ∈ past, Coherent percent taken.1 := by
  have first : Kept percent (SinkServer.initial server) := kept_initial wellFormed
  have steps : ∀ before action after, Kept percent before → Orderly percent before action →
      SinkServer.step percent before action = some after → Kept percent after :=
    fun _ _ _ kept orderly taken => kept_of_step kept orderly taken
  constructor
  · exact coherent_of_kept (run.invariant (Orderly percent) (Kept percent) first steps orderly)
  · intro taken member
    exact coherent_of_kept (run.invariant_before (Orderly percent) (Kept percent) first steps orderly taken member)

def speakers : Text := ⟨[0x73], by decide⟩

def dock : Text := ⟨[0x64], by decide⟩

/-- Two sinks, the headset being the default. -/
def desk : Server :=
  { sinks := [⟨0, headset, headset, 65536, 0⟩, ⟨1, speakers, speakers, 32768, 0⟩], defaultSink := headset,
    used := [0, 1], subscribed := false }

theorem desk_wellFormed : desk.WellFormed := by
  constructor
  · unfold Distinct
    decide
  · unfold Distinct
    decide
  · decide
  · exact ⟨_, List.mem_cons_self, rfl⟩

/-- A sink changes, and a new one becomes the default while its event is on its way. -/
def docking : List Action :=
  [.display .line (some speakers), .display .perc none, .answer, .answer, .answer, .answer, .reply, .reply, .reply,
    .answer, .reply, .change 1 dock 65536 1, .event 0, .answer, .reply, .create ⟨2, dock, dock, 0, 0⟩,
    .setDefault dock, .event 0, .answer, .reply, .answer, .reply]

theorem coherent_of_run_docked :
    ∃ past last, Run (SinkServer.step wholePercent) (SinkServer.initial desk) past last ∧
      past.map Prod.snd = docking.reverse ∧ Quiescent last ∧
      last.client.queue.map held = [some ⟨speakers, dock, 1, 100, 1⟩, some ⟨dock, dock, 2, 0, 0⟩] ∧
      Coherent wholePercent last ∧ ∀ taken ∈ past, Coherent wholePercent taken.1 := by
  obtain ⟨past, last, run, checked⟩ := exists_run (SinkServer.step wholePercent) (SinkServer.initial desk) docking
    (fun past last => decide (Within (Orderly wholePercent) past ∧ past.map Prod.snd = docking.reverse ∧
      Quiescent last ∧ last.client.queue.map held = [some ⟨speakers, dock, 1, 100, 1⟩, some ⟨dock, dock, 2, 0, 0⟩]))
    (by decide +kernel)
  obtain ⟨orderly, steps, quiescent, entries⟩ := of_decide_eq_true checked
  exact ⟨past, last, run, steps, quiescent, entries, coherent_of_run wholePercent desk_wellFormed run orderly⟩

/-- The default sink changes, and nobody is told. -/
def unannounced : List Action :=
  [.display .line none, .answer, .answer, .answer, .reply, .reply, .answer, .reply, .setDefault speakers]

/-- The default sink has an entry under its name too, and its event goes to that one. -/
def unshared : List Action :=
  [.display .line (some headset), .display .line none, .answer, .answer, .answer, .answer, .reply, .reply, .reply,
    .answer, .reply, .change 0 dock 0 1, .event 0, .answer, .reply]

/-- The event of another sink goes to an entry whose index is still 0. -/
def misrouted : List Action :=
  [.display .line (some speakers), .answer, .answer, .reply, .change 0 headset 0 0, .event 0, .answer, .answer,
    .answer, .answer, .reply, .reply, .reply, .reply]

def Confuses (actions : List Action) : Prop :=
  ∃ past last, Run (SinkServer.step wholePercent) (SinkServer.initial desk) past last ∧
    past.map Prod.snd = actions.reverse ∧ Quiescent last ∧ ¬Coherent wholePercent last

theorem confuses_of_replay {actions : List Action}
    (checked : (replay (SinkServer.step wholePercent) [] (SinkServer.initial desk) actions).any (fun reached =>
      decide (reached.1.map Prod.snd = actions.reverse ∧ Quiescent reached.2 ∧
        ¬Coherent wholePercent reached.2)) = true) : Confuses actions := by
  obtain ⟨past, last, run, checked⟩ := exists_run (SinkServer.step wholePercent) (SinkServer.initial desk) actions
    (fun past last => decide (past.map Prod.snd = actions.reverse ∧ Quiescent last ∧ ¬Coherent wholePercent last))
    checked
  exact ⟨past, last, run, of_decide_eq_true checked⟩

/-- Nothing is under way, and an entry holds what its sink does not say. -/
theorem sinks_confused : desk.WellFormed ∧ Confuses unannounced ∧ Confuses unshared ∧ Confuses misrouted := by
  refine ⟨desk_wellFormed, confuses_of_replay ?_, confuses_of_replay ?_, confuses_of_replay ?_⟩ <;> decide +kernel

end SlStatus.SinkCoherence
