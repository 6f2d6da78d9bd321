import SlStatus.SinkServer

/-! What keeps the entries of `components/pa.c` coherent with the sinks of the server. -/

namespace SlStatus.SinkInvariant
open CString PulseAudio SinkServer Caches LastWord
open SinkLookup hiding step initial

/-- The entry that the answer to a request is for. -/
def entryOf : Request → Option Nat
  | .sinkInfoByName _ pa => some pa
  | .sinkInfoByIndex _ pa => some pa
  | _ => none

def toldEntry : Reply → Option Nat
  | .sinkInfo _ pa => some pa
  | _ => none

/-- If the request is for the entry, its answer is about the sink of that name. -/
def AsksFor (server : Server) (name : Text) (i : Nat) : Request → Prop
  | .sinkInfoByName asked pa => pa = i → asked = some name
  | .sinkInfoByIndex index pa => pa = i → ∀ info ∈ server.sinks, info.index = index → info.name = name
  | _ => True

/-- All that a named entry holds or is told of is its sink's. -/
structure Own (s : System) (i : Nat) (name : Text) : Prop where
  held : ∀ pa ∈ s.client.queue[i]?, ∀ data ∈ held pa, data.name = name
  replies : ∀ reply ∈ s.replies, ∀ info ∈ reply.infoFor i, info.name = name
  requests : ∀ request ∈ s.requests, AsksFor s.server name i request

def AsksByName (i : Nat) (name : Option Text) (request : Request) : Prop := request = .sinkInfoByName name i

/-- Behind a request for the entry by another name stands one by this name. -/
def Renamed (i : Nat) (name : Text) (requests : List Request) : Prop :=
  Followed (fun request => ∃ other, other ≠ some name ∧ AsksByName i other request) (AsksByName i (some name)) requests

/-- Before the subscription the server has said nothing. -/
structure Unsubscribed (s : System) : Prop where
  replies : s.replies = []
  events : s.events = []
  unknown : s.client.paDefaultSink = none
  empty : ∀ pa ∈ s.client.queue, held pa = none
  pending : ∃ rest, s.requests = .subscribe :: rest
  named : ∀ index pa, .sinkInfoByIndex index pa ∉ s.requests

variable (percent : UInt32 → Int)

structure Kept (s : System) : Prop where
  wellFormed : s.server.WellFormed
  ordered : Ordered s.client.queue
  requestBound : ∀ request ∈ s.requests, ∀ i ∈ entryOf request, i < s.client.queue.length
  replyBound : ∀ reply ∈ s.replies, ∀ i ∈ toldEntry reply, i < s.client.queue.length
  eventKnown : ∀ idx ∈ s.events, idx ∈ s.server.used
  indexKnown : ∀ index pa, .sinkInfoByIndex index pa ∈ s.requests → index ∈ s.server.used
  own : ∀ i pa name, s.client.queue[i]? = some pa → pa.sink = some name → Own s i name
  renamed : ∀ i pa name, s.client.queue[i]? = some pa → pa.sink = none → s.client.paDefaultSink = some name →
    Renamed i name s.requests
  default : s.client.paDefaultSink ≠ none → ∃ pa ∈ s.client.queue, pa.sink = none
  announcing : Announcing s
  awaited : ∀ i pa info, s.client.queue[i]? = some pa → info ∈ s.server.sinks → Tracks s pa info.name →
    Awaited percent s i info
  unsubscribed : s.server.subscribed = false → Unsubscribed s

variable {percent}

theorem answerFor_other {server : Server} {request : Request} {i : Nat} (other : i ∉ entryOf request) :
    server.answerFor i request = none := by
  cases request with
  | sinkInfoByName _ pa | sinkInfoByIndex _ pa =>
    have different : pa ≠ i := by
      rintro rfl
      exact other rfl
    exact if_neg different
  | _ => rfl

theorem asksFor_other {server : Server} {request : Request} {name : Text} {i : Nat} (other : i ∉ entryOf request) :
    AsksFor server name i request := by
  cases request with
  | sinkInfoByName _ pa | sinkInfoByIndex _ pa =>
    rintro rfl
    exact absurd rfl other
  | _ => trivial

theorem infoFor_other {reply : Reply} {i : Nat} (other : i ∉ toldEntry reply) : reply.infoFor i = none := by
  cases reply with
  | sinkInfo _ pa =>
    have different : pa ≠ i := by
      rintro rfl
      exact other rfl
    exact if_neg different
  | serverInfo => rfl

/-- Until the server has been heard, nothing but requests by the right name are under way. -/
theorem upToDate_unsubscribed {s : System} (wellFormed : s.server.WellFormed) (unsubscribed : Unsubscribed s)
    (own : ∀ i pa name, s.client.queue[i]? = some pa → pa.sink = some name → Own s i name) {i : Nat} {pa : Pa}
    {info : SinkInfo} (here : s.client.queue[i]? = some pa) (member : info ∈ s.server.sinks)
    (tracks : Tracks s pa info.name) : UpToDate percent s i info := by
  have named : pa.sink = some info.name := by
    rcases tracks with named | ⟨-, settled, -⟩
    · exact named
    · rw [unsubscribed.unknown] at settled
      cases settled
  have asks := (own i pa info.name here named).requests
  unfold UpToDate destined
  rw [unsubscribed.replies, lastSome, Option.or_none, here, Option.bind_some,
    unsubscribed.empty pa (List.mem_of_getElem? here), Option.or_none]
  intro data arrives
  obtain ⟨answer, said, rfl⟩ := Option.map_eq_some_iff.mp arrives
  obtain ⟨request, asked, answers⟩ := lastSome_mem said
  cases request with
  | sinkInfoByName name j =>
    simp only [Server.answerFor] at answers
    split_ifs at answers with same
    rw [asks _ asked same, wellFormed.byName_eq member] at answers
    rw [Option.some.inj answers]
  | sinkInfoByIndex index j => exact absurd asked (unsubscribed.named index j)
  | _ => cases answers

/-- No entry is asked for by another name than the one it tracks unless it is asked for by that
one again. -/
theorem renamed_of_known {s : System} (kept : Kept percent s) {i : Nat} {pa : Pa} {name : Text}
    (here : s.client.queue[i]? = some pa)
    (known : pa.sink = some name ∨ (pa.sink = none ∧ s.client.paDefaultSink = some name)) :
    Renamed i name s.requests := by
  rcases known with named | ⟨default, told⟩
  · have asks := (kept.own i pa name here named).requests
    have start : Renamed i name [] := trivial
    apply start.append
    rintro request member ⟨other, different, rfl⟩
    exact different (asks _ member rfl)
  · exact kept.renamed i pa name here default told

theorem kept_initial {server : Server} (wellFormed : server.WellFormed) :
    Kept percent (SinkServer.initial server) := by
  obtain ⟨names, indexes, used, default⟩ := wellFormed
  have requests : (SinkServer.initial server).requests = [.subscribe, .serverInfo] := rfl
  have unasked : ∀ index pa, .sinkInfoByIndex index pa ∉ (SinkServer.initial server).requests := by
    simp [requests]
  constructor
  · exact ⟨names, indexes, used, default⟩
  · exact Ordered.nil
  · simp [requests, entryOf]
  · exact nofun
  · exact nofun
  · exact fun index pa member => absurd member (unasked index pa)
  · exact nofun
  · exact nofun
  · exact fun told => absurd rfl told
  · exact .inl (by simp [requests])
  · exact nofun
  · exact fun _ => ⟨rfl, rfl, rfl, nofun, ⟨_, requests⟩, unasked⟩

/-- When nothing is under way the client knows the default sink. -/
theorem settled_of_quiescent {s : System} (announcing : Announcing s) (quiescent : Quiescent s) :
    Settled s s.server.defaultSink := by
  obtain ⟨noRequests, noReplies, noEvents⟩ := quiescent
  refine ⟨?_, rfl, ?_⟩
  · rcases announcing with asked | known | coming
    · rw [noRequests] at asked
      cases asked
    · rw [announced, noReplies, lastSome, Option.none_or] at known
      exact known
    · exact absurd noEvents coming
  · rw [noReplies]
    intro reply member
    cases member

theorem coherent_of_kept {s : System} (kept : Kept percent s) : Coherent percent s := by
  constructor
  · intro pa member name named data has
    obtain ⟨i, here⟩ := List.mem_iff_getElem?.mp member
    exact (kept.own i pa name here named).held pa here data has
  · intro quiescent pa member data has info infoMember name
    obtain ⟨i, here⟩ := List.mem_iff_getElem?.mp member
    have tracks : Tracks s pa info.name := by
      cases key : pa.sink with
      | none =>
        rw [key, Option.getD_none] at name
        rw [tracks_default key, name]
        exact settled_of_quiescent kept.announcing quiescent
      | some sink =>
        rw [key, Option.getD_some] at name
        exact (tracks_named key).mpr name.symm
    obtain ⟨noRequests, noReplies, noEvents⟩ := quiescent
    rcases kept.awaited i pa info here infoMember tracks with fresh | coming
    · apply fresh
      unfold destined
      rw [noRequests, noReplies, here]
      exact has
    · rw [noEvents] at coming
      cases coming

end SlStatus.SinkInvariant
