import SlStatus.Dispatches
import SlStatus.PulseAudio
import SlStatus.Runs

/-! The lookups of `components/pa.c` over any course of calls: the display functions, and the
callbacks with whatever the server says. -/

namespace SlStatus.SinkLookup
open CString Display PulseAudio Runs

inductive Display where
  | line | description | mute | name | perc
  deriving DecidableEq

/-- What the function shows of its entry. -/
def Display.text : Display → Pa → Option Text
  | .line => lineText
  | .description => Pa.description
  | .mute => fun pa => some (muteText pa)
  | .name => Pa.name
  | .perc => fun pa => bprintf (decimal pa.volume)

def Display.run : Display → List Pa → Option Text → Option (Option Text × List Pa × List Request)
  | .line => paLine
  | .description => paDescription
  | .mute => paMute
  | .name => paName
  | .perc => paPerc

inductive Call where
  | display (function : Display) (sink : Option Text)
  | sinkInfo (info : Option SinkInfo) (eol : Int) (pa : Nat)
  | serverInfo (defaultSinkName : Text)
  | subscribe (facility : Facility) (idx : UInt32)
  deriving DecidableEq

/-- `pa_queue` and `pa_default_sink`. -/
structure Client where
  queue : List Pa
  paDefaultSink : Option Text
  deriving DecidableEq

def initial : Client := { queue := [], paDefaultSink := none }

variable (percent : UInt32 → Int)

/-- With the requests that are sent, and whether the signal is raised. -/
def Client.call (client : Client) : Call → Option (Client × List Request × Bool)
  | .display function sink =>
      (function.run client.queue sink).map fun (_, queue, requests) => ({ client with queue }, requests, false)
  | .sinkInfo info eol pa =>
      client.queue[pa]?.map fun entry =>
        let (entry, signal) := paSinkInfoCallback percent info eol entry
        ({ client with queue := client.queue.set pa entry }, [], signal)
  | .serverInfo defaultSinkName =>
      (serverInfoCallback client.queue client.paDefaultSink defaultSinkName).map
        fun (queue, paDefaultSink, requests) => ({ queue, paDefaultSink }, requests, false)
  | .subscribe facility idx => some (client, paSubscribeCallback client.queue facility idx, false)

def step (client : Client) (call : Call) : Option Client := (client.call percent call).map Prod.fst

/-- What the call looks up. -/
def lookedUp (client : Client) : Call → Option (Option Text)
  | .display _ sink => some sink
  | .serverInfo defaultSinkName => if client.paDefaultSink = some defaultSinkName then none else some none
  | _ => none

theorem display_run (function : Display) : function.run = PulseAudio.display function.text := by
  cases function <;> rfl

/-- A call that looks nothing up leaves the sinks and the order of the queue. -/
theorem sinks_of_step {client client' : Client} {call : Call} (taken : step percent client call = some client')
    (silent : lookedUp client call = none) : client'.queue.map Pa.sink = client.queue.map Pa.sink := by
  cases call with
  | display => cases silent
  | sinkInfo info eol pa =>
    simp only [step, Client.call, Option.map_map, Option.map_eq_some_iff] at taken
    obtain ⟨entry, here, rfl⟩ := taken
    change (client.queue.set pa (paSinkInfoCallback percent info eol entry).1).map Pa.sink = _
    exact Dispatches.map_set_of_key here (paSinkInfoCallback_sink percent info eol entry)
  | serverInfo defaultSinkName =>
    have known : client.paDefaultSink = some defaultSinkName := by
      by_contra unknown
      simp only [lookedUp, if_neg unknown] at silent
      cases silent
    simp only [step, Client.call, serverInfoCallback, if_pos known, Option.map_some, Option.some.injEq] at taken
    rw [← taken]
  | subscribe =>
    cases taken
    rfl

/-- Any other call leaves the queue as the lookup does. -/
theorem queue_of_step {client client' : Client} {call : Call} {sink : Option Text}
    (taken : step percent client call = some client') (looked : lookedUp client call = some sink) :
    ∃ pa requests, paFindBySink client.queue sink = some (pa, client'.queue, requests) := by
  cases call with
  | display function sink =>
    cases looked
    simp only [step, Client.call, display_run, PulseAudio.display, Option.map_map, Option.map_eq_some_iff] at taken
    obtain ⟨⟨pa, queue, requests⟩, found, rfl⟩ := taken
    exact ⟨pa, requests, found⟩
  | serverInfo defaultSinkName =>
    simp only [lookedUp] at looked
    split_ifs at looked with known
    cases looked
    simp only [step, Client.call, serverInfoCallback, if_neg known, Option.map_map, Option.map_eq_some_iff] at taken
    obtain ⟨⟨pa, queue, requests⟩, found, rfl⟩ := taken
    exact ⟨pa, requests, found⟩
  | _ => cases looked

theorem ordered_of_step {client client' : Client} {call : Call} (ordered : Ordered client.queue)
    (taken : step percent client call = some client') : Ordered client'.queue := by
  cases looked : lookedUp client call with
  | none => exact ordered.of_sinks (sinks_of_step percent taken looked)
  | some sink =>
    obtain ⟨pa, requests, found⟩ := queue_of_step percent taken looked
    exact (ordered.lookup found).1

theorem ordered_of_run {past : Past Client Call} {client : Client} (run : Run (step percent) initial past client) :
    Ordered client.queue := by
  refine run.invariant (fun _ _ => True) (fun client => Ordered client.queue) Ordered.nil ?_ fun _ _ => trivial
  intro before call after ordered _ taken
  exact ordered_of_step percent ordered taken

/-- An entry has no other place later. -/
theorem sink_kept {client client' : Client} {call : Call} (ordered : Ordered client.queue)
    (taken : step percent client call = some client') {i : Nat} {sink : Option Text}
    (here : (client.queue[i]?).map Pa.sink = some sink) : (client'.queue[i]?).map Pa.sink = some sink := by
  cases looked : lookedUp client call with
  | none =>
    rw [← List.getElem?_map] at here ⊢
    rw [sinks_of_step percent taken looked]
    exact here
  | some arg =>
    obtain ⟨pa, requests, found⟩ := queue_of_step percent taken looked
    obtain ⟨added, grown⟩ := (ordered.lookup found).2.1
    obtain ⟨entry, there, keyed⟩ := Option.map_eq_some_iff.mp here
    have bound := (List.getElem?_eq_some_iff.mp there).1
    rw [← grown, List.getElem?_append_left bound]
    exact here

/-- What the earlier calls have returned is where it was. -/
theorem returned_kept {past : Past Client Call} {client : Client} (run : Run (step percent) initial past client) :
    ∀ taken ∈ past, ∀ sink ∈ lookedUp taken.1 taken.2, ∀ pa queue requests,
      paFindBySink taken.1.queue sink = some (pa, queue, requests) →
        (client.queue[pa]?).map Pa.sink = some (sinkKey sink) := by
  induction run with
  | start => exact nofun
  | @step past before after call run move ih =>
    have ordered := ordered_of_run percent run
    refine List.forall_mem_cons.mpr ⟨?_, ?_⟩
    · intro sink looked pa queue requests found
      obtain ⟨pa', requests', found'⟩ := queue_of_step percent move looked
      rw [found] at found'
      cases found'
      exact (ordered.lookup found).2.2
    · intro taken member sink looked pa queue requests found
      exact sink_kept percent ordered move (ih taken member sink looked pa queue requests found)

/-- The next lookup returns, no sink has two entries behind it, and if the argument denotes
what an earlier one did it returns the same entry and leaves the queue. -/
def Proper (past : Past Client Call) (client : Client) (sink : Option Text) : Prop :=
  ∃ pa queue requests, paFindBySink client.queue sink = some (pa, queue, requests) ∧
    (queue.map Pa.sink).Nodup ∧ (queue[pa]?).map Pa.sink = some (sinkKey sink) ∧
    ∀ taken ∈ past, ∀ earlier ∈ lookedUp taken.1 taken.2, sinkKey earlier = sinkKey sink →
      ∀ pa' queue' requests', paFindBySink taken.1.queue earlier = some (pa', queue', requests') →
        pa' = pa ∧ queue = client.queue

/-- The argument is `NULL`, or the default sink has no entry, or the argument is the sink of an
entry. -/
def Safe (queue : List Pa) (sink : Option Text) : Prop :=
  sink = none ∨ (∀ pa ∈ queue, pa.sink ≠ none) ∨ ∃ pa ∈ queue, pa.sink = sink

instance (queue : List Pa) (sink : Option Text) : Decidable (Safe queue sink) :=
  inferInstanceAs (Decidable (_ ∨ _ ∨ _))

/-- After any calls a lookup does what it should if and only if it comes upon no entry of the
default sink on its way. -/
theorem proper_iff_safe (percent : UInt32 → Int) {past : Past Client Call} {client : Client}
    (run : Run (step percent) initial past client) (sink : Option Text) :
    Proper past client sink ↔ Safe client.queue sink := by
  have ordered := ordered_of_run percent run
  constructor
  · rintro ⟨pa, queue, requests, found, -⟩
    rcases paFindBySink_cases ordered sink with ⟨i, entry, here, same, -⟩ | ⟨-, named, -⟩ | ⟨-, -, -, undefined⟩
    · exact .inr (.inr ⟨entry, List.mem_of_getElem? here, same⟩)
    · exact named.imp_right .inl
    · rw [found] at undefined
      cases undefined
  · intro safe
    rcases paFindBySink_cases ordered sink with
      ⟨i, entry, here, rfl, hit⟩ | ⟨absent, named, miss⟩ | ⟨given, absent, ⟨entry, member, default⟩, -⟩
    · refine ⟨i, _, _, hit, ordered.nodup, (ordered.lookup hit).2.2, ?_⟩
      intro taken member earlier looked same pa' queue' requests' found
      have there := returned_kept percent run taken member earlier looked pa' queue' requests' found
      obtain ⟨other, there, keyed⟩ := Option.map_eq_some_iff.mp there
      refine ⟨ordered.index_eq there here ?_, rfl⟩
      rw [keyed, same, ordered.keyed entry (List.mem_of_getElem? here)]
    · refine ⟨_, _, _, miss, (ordered.append absent named).nodup, (ordered.lookup miss).2.2, ?_⟩
      intro taken member earlier looked same pa' queue' requests' found
      have there := returned_kept percent run taken member earlier looked pa' queue' requests' found
      obtain ⟨other, there, keyed⟩ := Option.map_eq_some_iff.mp there
      rw [same] at keyed
      exact absurd keyed (absent_sinkKey absent named other (List.mem_of_getElem? there))
    · rcases safe with none | named | ⟨other, queued, same⟩
      · exact absurd none given
      · exact absurd default (named entry member)
      · exact absurd same (absent other queued)

/-- `"hs"`. -/
def headset : Text := ⟨[0x68, 0x73], by decide⟩

def wholePercent (volume : UInt32) : Int := volume.toNat * 100 / 65536

/-- A named sink before the default sink, and both again. -/
theorem proper_iff_safe_named :
    ∃ past client, Run (step wholePercent) initial past client ∧ client.queue.map Pa.sink = [some headset, none] ∧
      Proper past client (some headset) := by
  obtain ⟨past, client, run, checked⟩ := exists_run (step wholePercent) initial
    [.display .line (some headset), .serverInfo headset, .sinkInfo (some ⟨3, headset, headset, 65536, 0⟩) 0 0,
      .display .perc none, .subscribe .sink 3, .display .name (some headset), .serverInfo defaultSink]
    (fun _ client => decide (client.queue.map Pa.sink = [some headset, none] ∧ Safe client.queue (some headset)))
    (by decide)
  obtain ⟨sinks, safe⟩ := of_decide_eq_true checked
  exact ⟨past, client, run, sinks, (proper_iff_safe wholePercent run _).mpr safe⟩

/-- Behind the entry of the default sink, a name and even the default sink's own alias make the
search compare `NULL`. -/
theorem null_compared :
    ∃ past client, Run (step wholePercent) initial past client ∧ past.map Prod.snd = [.display .line none] ∧
      paFindBySink client.queue (some headset) = none ∧ ¬Proper past client (some headset) ∧
      paFindBySink client.queue (some defaultSink) = none ∧ ¬Proper past client (some defaultSink) := by
  obtain ⟨past, client, run, checked⟩ := exists_run (step wholePercent) initial [.display .line none]
    (fun past client => decide (past.map Prod.snd = [.display .line none] ∧
      paFindBySink client.queue (some headset) = none ∧ paFindBySink client.queue (some defaultSink) = none))
    (by decide)
  obtain ⟨calls, named, aliased⟩ := of_decide_eq_true checked
  refine ⟨past, client, run, calls, named, ?_, aliased, ?_⟩
  · rintro ⟨pa, queue, requests, found, -⟩
    rw [named] at found
    cases found
  · rintro ⟨pa, queue, requests, found, -⟩
    rw [aliased] at found
    cases found

end SlStatus.SinkLookup
