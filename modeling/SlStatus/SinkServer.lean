import SlStatus.LastWord
import SlStatus.SinkLookup

/-! `components/pa.c` and the server that it talks to. Requests are answered in order and the
answers come back in order; a change of a sink sends an event to a subscriber, and the events
are delivered in any order. The default sink changes without an event. -/

namespace SlStatus.SinkServer
open CString PulseAudio SinkLookup Runs Caches LastWord

structure Server where
  sinks : List SinkInfo
  defaultSink : Text
  used : List UInt32
  subscribed : Bool
  deriving DecidableEq

inductive Reply where
  | serverInfo (defaultSinkName : Text)
  | sinkInfo (info : Option SinkInfo) (pa : Nat)
  deriving DecidableEq

structure System where
  server : Server
  client : Client
  requests : List Request
  replies : List Reply
  events : List UInt32
  deriving DecidableEq

inductive Action where
  | display (function : Display) (sink : Option Text)
  | change (index : UInt32) (description : Text) (volume : UInt32) (mute : Int)
  | create (info : SinkInfo)
  | remove (index : UInt32)
  | setDefault (name : Text)
  | answer
  | reply
  | event (k : Nat)
  deriving DecidableEq

/-- Names and indexes are not shared, an index is given out once, and the default sink is one
of the sinks. -/
structure Server.WellFormed (server : Server) : Prop where
  names : Distinct SinkInfo.name server.sinks
  indexes : Distinct SinkInfo.index server.sinks
  used : ∀ info ∈ server.sinks, info.index ∈ server.used
  default : ∃ info ∈ server.sinks, info.name = server.defaultSink

/-- No name stands for the default sink. -/
def Server.byName (server : Server) (name : Option Text) : Option SinkInfo :=
  search SinkInfo.name server.sinks (name.getD server.defaultSink)

def Server.byIndex (server : Server) (index : UInt32) : Option SinkInfo := search SinkInfo.index server.sinks index

/-- What the server says to a request, if it replies. -/
def Server.answer (server : Server) : Request → Option Reply
  | .subscribe => none
  | .serverInfo => some (.serverInfo server.defaultSink)
  | .sinkInfoByName name pa => some (.sinkInfo (server.byName name) pa)
  | .sinkInfoByIndex index pa => some (.sinkInfo (server.byIndex index) pa)

/-- The call that a reply leads to. A failed request gives no information and a negative
`eol`, and the end of a list of one is left out, since it changes nothing. -/
def Reply.call : Reply → Call
  | .serverInfo defaultSinkName => .serverInfo defaultSinkName
  | .sinkInfo info pa => .sinkInfo info (if info.isSome then 0 else -1) pa

/-- The events of a change of the sinks. -/
def Server.told (server : Server) (index : UInt32) : List UInt32 := if server.subscribed then [index] else []

def changed (index : UInt32) (description : Text) (volume : UInt32) (mute : Int) (info : SinkInfo) : SinkInfo :=
  if info.index = index then { info with description, volume, mute } else info

variable (percent : UInt32 → Int)

/-- The client takes a call and sends what it asks for. -/
def System.take (s : System) (call : Call) : Option System :=
  (s.client.call percent call).map fun (client, requests, _) =>
    { s with client, requests := s.requests ++ requests }

def step (s : System) : Action → Option System
  | .display function sink => s.take percent (.display function sink)
  | .change index description volume mute =>
      if (s.server.byIndex index).isSome then
        some { s with
          server := { s.server with sinks := s.server.sinks.map (changed index description volume mute) }
          events := s.events ++ s.server.told index }
      else none
  | .create info =>
      if info.index ∈ s.server.used ∨ (s.server.byName (some info.name)).isSome then none
      else
        some { s with
          server := { s.server with sinks := s.server.sinks ++ [info], used := info.index :: s.server.used }
          events := s.events ++ s.server.told info.index }
  | .remove index =>
      match s.server.byIndex index with
      | none => none
      | some info =>
          if info.name = s.server.defaultSink then none
          else
            some { s with
              server := { s.server with sinks := s.server.sinks.filter fun info => info.index ≠ index }
              events := s.events ++ s.server.told index }
  | .setDefault name =>
      if (s.server.byName (some name)).isSome then some { s with server := { s.server with defaultSink := name } }
      else none
  | .answer =>
      match s.requests with
      | [] => none
      | request :: requests =>
          some { s with
            server := { s.server with subscribed := s.server.subscribed || decide (request = .subscribe) }
            requests
            replies := s.replies ++ (s.server.answer request).toList }
  | .reply =>
      match s.replies with
      | [] => none
      | reply :: replies => { s with replies }.take percent reply.call
  | .event k =>
      match s.events[k]? with
      | none => none
      | some idx => { s with events := s.events.eraseIdx k }.take percent (.subscribe .sink idx)

/-- The context has become ready. -/
def initial (server : Server) : System :=
  { server := { server with subscribed := false }, client := SinkLookup.initial, requests := paReady, replies := [],
    events := [] }

/-- What an entry holds of a sink. -/
structure Data where
  name : Text
  description : Text
  index : UInt32
  volume : Int
  mute : Int
  deriving DecidableEq

def dataOf (info : SinkInfo) : Data :=
  { name := info.name, description := info.description, index := info.index, volume := percent info.volume,
    mute := info.mute }

/-- What the entry holds once it is filled. -/
def held (pa : Pa) : Option Data :=
  pa.name.bind fun name => pa.description.map fun description =>
    { name, description, index := pa.index, volume := pa.volume, mute := pa.mute }

def Quiescent (s : System) : Prop := s.requests = [] ∧ s.replies = [] ∧ s.events = []

/-- What is held for a named sink bears its name, and when nothing is under way the entries
hold what the sinks say now, the default entry what the default sink says. -/
def Coherent (s : System) : Prop :=
  (∀ pa ∈ s.client.queue, ∀ name ∈ pa.sink, ∀ data ∈ held pa, data.name = name) ∧
    (Quiescent s → ∀ pa ∈ s.client.queue, ∀ data ∈ held pa, ∀ info ∈ s.server.sinks,
      info.name = pa.sink.getD s.server.defaultSink → data = dataOf percent info)

/-- What a request for an entry is answered by if it is answered now. -/
def Server.answerFor (server : Server) (i : Nat) : Request → Option SinkInfo
  | .sinkInfoByName name pa => if pa = i then server.byName name else none
  | .sinkInfoByIndex index pa => if pa = i then server.byIndex index else none
  | _ => none

def Reply.infoFor (i : Nat) : Reply → Option SinkInfo
  | .sinkInfo info pa => if pa = i then info else none
  | _ => none

/-- What the entry holds once all that is under way has arrived, if nothing changes. -/
def destined (s : System) (i : Nat) : Option Data :=
  (((lastSome (s.server.answerFor i) s.requests).or (lastSome (Reply.infoFor i) s.replies)).map (dataOf percent)).or
    (s.client.queue[i]?.bind held)

def Reply.default : Reply → Option Text
  | .serverInfo defaultSinkName => some defaultSinkName
  | _ => none

/-- The default sink that the client has been told of, or is about to be. -/
def announced (s : System) : Option Text := (lastSome Reply.default s.replies).or s.client.paDefaultSink

/-- The default sink has this name for the client too, and no other is announced to it. -/
def Settled (s : System) (name : Text) : Prop :=
  s.client.paDefaultSink = some name ∧ s.server.defaultSink = name ∧ ∀ reply ∈ s.replies, ∀ d ∈ reply.default, d = name

/-- The entry is for this sink. -/
def Tracks (s : System) (pa : Pa) (name : Text) : Prop := pa.sink = some name ∨ (pa.sink = none ∧ Settled s name)

/-- The entry is empty, or it holds or is to hold what the sink says. -/
def UpToDate (s : System) (i : Nat) (info : SinkInfo) : Prop :=
  ∀ data ∈ destined percent s i, data = dataOf percent info

/-- The entry is up to date, or an event of the sink is still to come. -/
def Awaited (s : System) (i : Nat) (info : SinkInfo) : Prop := UpToDate percent s i info ∨ info.index ∈ s.events

/-- The client knows the default sink, or asks for it, or an event may still make it ask. -/
def Announcing (s : System) : Prop :=
  Request.serverInfo ∈ s.requests ∨ announced s = some s.server.defaultSink ∨ s.events ≠ []

/-- What is said of the sink is fit for the entry: it is for this sink, or for none yet. -/
def Suits (s : System) (pa : Pa) (info : SinkInfo) : Prop :=
  ∀ name ∈ pa.sink.or s.client.paDefaultSink, Tracks s pa name → name = info.name

/-- The default sink does not change, or return, without anybody hearing of it. An event is not
taken by an entry of another sink, nor kept from an entry of its own sink that needs it, nor
from the last chance to ask for the default sink. -/
def Orderly (s : System) : Action → Prop
  | .setDefault name =>
      let s' := { s with server := { s.server with defaultSink := name } }
      Announcing s' ∧ ∀ i < s.client.queue.length, ∀ pa ∈ s.client.queue[i]?, pa.sink = none → Settled s' name →
        ∀ info ∈ s.server.sinks, info.name = name → Awaited percent s i info
  | .event k => ∀ idx ∈ s.events[k]?,
      let s' := { s with events := s.events.eraseIdx k }
      (paFindByIndex s.client.queue idx ≠ none → Announcing s') ∧
        ∀ info ∈ s.server.sinks, info.index = idx → ∀ i < s.client.queue.length, ∀ pa ∈ s.client.queue[i]?,
          if paFindByIndex s.client.queue idx = some i then Suits s pa info
          else Tracks s pa info.name → Awaited percent s' i info
  | _ => True

section Decidable
variable (s : System) (pa : Pa) (i : Nat) (name : Text) (info : SinkInfo)

instance : Decidable (Settled s name) := inferInstanceAs (Decidable (_ ∧ _ ∧ ∀ reply ∈ _, ∀ d ∈ _, _))

instance : Decidable (Tracks s pa name) := inferInstanceAs (Decidable (_ ∨ _ ∧ _))

instance : Decidable (UpToDate percent s i info) := inferInstanceAs (Decidable (∀ data ∈ _, _))

instance : Decidable (Awaited percent s i info) := inferInstanceAs (Decidable (_ ∨ _))

instance : Decidable (Announcing s) := inferInstanceAs (Decidable (_ ∨ _ ∨ _))

instance : Decidable (Suits s pa info) := inferInstanceAs (Decidable (∀ name ∈ _, _ → _))

instance : Decidable (Quiescent s) := inferInstanceAs (Decidable (_ ∧ _ ∧ _))

instance : Decidable (Coherent percent s) :=
  inferInstanceAs (Decidable ((∀ pa ∈ _, ∀ name ∈ _, ∀ data ∈ _, _) ∧ (_ → ∀ pa ∈ _, ∀ data ∈ _, ∀ info ∈ _, _)))

instance : (action : Action) → Decidable (Orderly percent s action)
  | .setDefault _ => inferInstanceAs (Decidable (_ ∧ ∀ i < _, ∀ pa ∈ _, _ → _ → ∀ info ∈ _, _ → _))
  | .event _ =>
      -- not by going through all numbers of 32 bits
      @Option.decidableForallMem _ _ (fun _ => inferInstanceAs (Decidable (_ ∧ ∀ info ∈ _, _ → ∀ i < _, ∀ pa ∈ _, _))) _
  | .display _ _ | .change _ _ _ _ | .create _ | .remove _ | .answer | .reply => inferInstanceAs (Decidable True)

end Decidable

section Lemmas
variable {percent}

theorem search_map {α κ : Type*} [DecidableEq κ] (key : α → κ) {change : α → α} (kept : ∀ a, key (change a) = key a)
    (list : List α) (k : κ) : search key (list.map change) k = (search key list k).map change := by
  rw [search, List.find?_map, search]
  congr 2
  funext a
  simp only [Function.comp, kept]

theorem changed_name (index : UInt32) (description : Text) (volume : UInt32) (mute : Int) (info : SinkInfo) :
    (changed index description volume mute info).name = info.name := by
  unfold changed
  split_ifs <;> rfl

theorem changed_index (index : UInt32) (description : Text) (volume : UInt32) (mute : Int) (info : SinkInfo) :
    (changed index description volume mute info).index = info.index := by
  unfold changed
  split_ifs <;> rfl

theorem dataOf_index {info other : SinkInfo} (same : dataOf percent info = dataOf percent other) :
    info.index = other.index := congrArg Data.index same

theorem Server.WellFormed.byName_eq {server : Server} (wellFormed : server.WellFormed) {info : SinkInfo}
    (member : info ∈ server.sinks) : server.byName (some info.name) = some info :=
  search_of_mem wellFormed.names member

theorem Server.WellFormed.byIndex_eq {server : Server} (wellFormed : server.WellFormed) {info : SinkInfo}
    (member : info ∈ server.sinks) : server.byIndex info.index = some info :=
  search_of_mem wellFormed.indexes member

theorem Server.WellFormed.eq_of_index {server : Server} (wellFormed : server.WellFormed) {info other : SinkInfo}
    (member : info ∈ server.sinks) (otherMember : other ∈ server.sinks) (same : info.index = other.index) :
    info = other := wellFormed.indexes.eq_of_key member otherMember same

theorem tracks_named {s : System} {pa : Pa} {name key : Text} (named : pa.sink = some key) :
    Tracks s pa name ↔ key = name := by
  simp [Tracks, named]

theorem tracks_default {s : System} {pa : Pa} {name : Text} (default : pa.sink = none) :
    Tracks s pa name ↔ Settled s name := by
  simp [Tracks, default]

theorem destined_congr {s s' : System} {i : Nat}
    (requests : lastSome (s'.server.answerFor i) s'.requests = lastSome (s.server.answerFor i) s.requests)
    (replies : lastSome (Reply.infoFor i) s'.replies = lastSome (Reply.infoFor i) s.replies)
    (entry : s'.client.queue[i]? = s.client.queue[i]?) : destined percent s' i = destined percent s i := by
  unfold destined
  rw [requests, replies, entry]

/-- What is asked last is what the entry is to hold. -/
theorem upToDate_asked {s : System} {requests : List Request} {request : Request} {i : Nat} {info : SinkInfo}
    (asked : s.requests = requests ++ [request]) (answers : s.server.answerFor i request = some info) :
    UpToDate percent s i info := by
  unfold UpToDate destined
  rw [asked, lastSome_concat, answers]
  rintro data ⟨⟩
  rfl

theorem Server.WellFormed.answerFor_name {server : Server} (wellFormed : server.WellFormed) {info : SinkInfo}
    (member : info ∈ server.sinks) (i : Nat) : server.answerFor i (.sinkInfoByName (some info.name) i) = some info :=
  (if_pos rfl).trans (wellFormed.byName_eq member)

theorem UpToDate.of_destined {s s' : System} {i : Nat} {info : SinkInfo} (fresh : UpToDate percent s i info)
    (same : destined percent s' i = destined percent s i) : UpToDate percent s' i info := by
  rw [UpToDate, same]
  exact fresh

theorem Awaited.of_destined {s s' : System} {i : Nat} {info : SinkInfo} (awaited : Awaited percent s i info)
    (same : destined percent s' i = destined percent s i) (later : info.index ∈ s.events → info.index ∈ s'.events) :
    Awaited percent s' i info :=
  awaited.imp (fun fresh => fresh.of_destined same) later

/-- What the client has for the sink of an entry. -/
theorem Tracks.known {s : System} {pa : Pa} {name : Text} (tracks : Tracks s pa name) :
    pa.sink = some name ∨ (pa.sink = none ∧ s.client.paDefaultSink = some name) :=
  tracks.imp_right fun tracked => ⟨tracked.1, tracked.2.1⟩

end Lemmas

end SlStatus.SinkServer
