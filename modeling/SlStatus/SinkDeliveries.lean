import SlStatus.SinkInvariant

/-! Lookups, answers and the delivery of replies and events keep the entries of
`components/pa.c` coherent, as far as the events come to the entries that they are for. -/

namespace SlStatus.SinkDeliveries
open CString PulseAudio SinkServer SinkInvariant Caches LastWord
open SinkLookup hiding step initial

variable {percent : UInt32 → Int}

/-- A lookup has made an entry. -/
def grown (s : System) (sink : Option Text) : System :=
  { s with
    client := { s.client with queue := s.client.queue ++ [newEntry sink] }
    requests := s.requests ++ [.sinkInfoByName (sinkKey sink) s.client.queue.length] }

theorem held_newEntry (sink : Option Text) : held (newEntry sink) = none := rfl

theorem getElem?_grown {s : System} {sink : Option Text} {i : Nat} {pa : Pa}
    (here : (grown s sink).client.queue[i]? = some pa) :
    (i < s.client.queue.length ∧ s.client.queue[i]? = some pa) ∨
      (i = s.client.queue.length ∧ pa = newEntry sink) := by
  rcases Nat.lt_trichotomy i s.client.queue.length with front | rfl | behind
  · left
    dsimp only [grown] at here
    rw [List.getElem?_append_left front] at here
    exact ⟨front, here⟩
  · right
    dsimp only [grown] at here
    rw [List.getElem?_concat_length] at here
    exact ⟨rfl, (Option.some.inj here).symm⟩
  · have bound := (List.getElem?_eq_some_iff.mp here).1
    dsimp only [grown] at bound
    rw [List.length_append, List.length_singleton] at bound
    omega

theorem destined_grown {s : System} {sink : Option Text} {i : Nat} (front : i < s.client.queue.length) :
    destined percent (grown s sink) i = destined percent s i := by
  have other : i ∉ entryOf (.sinkInfoByName (sinkKey sink) s.client.queue.length) := by
    rintro ⟨⟩
    exact Nat.lt_irrefl _ front
  refine destined_congr ?_ rfl (List.getElem?_append_left front)
  dsimp only [grown]
  rw [lastSome_concat, answerFor_other other, Option.none_or]

theorem own_grown {s : System} {sink : Option Text} {i : Nat} {name : Text} (front : i < s.client.queue.length)
    (own : Own s i name) : Own (grown s sink) i name := by
  refine ⟨?_, own.replies, ?_⟩
  · dsimp only [grown]
    rw [List.getElem?_append_left front]
    exact own.held
  · refine List.forall_mem_append.mpr ⟨own.requests, List.forall_mem_singleton.mpr ?_⟩
    exact fun same => absurd front (same ▸ Nat.lt_irrefl _)

/-- Nothing is under way for an entry that has just been made, except what it asks for. -/
theorem own_created {s : System} {sink : Option Text} {name : Text} (kept : Kept percent s)
    (keyed : sinkKey sink = some name) : Own (grown s sink) s.client.queue.length name := by
  refine ⟨?_, ?_, ?_⟩
  · dsimp only [grown]
    rw [List.getElem?_concat_length]
    rintro _ ⟨⟩
    exact nofun
  · intro reply member
    have other : s.client.queue.length ∉ toldEntry reply :=
      fun here => Nat.lt_irrefl _ (kept.replyBound reply member _ here)
    rw [infoFor_other other]
    exact nofun
  · refine List.forall_mem_append.mpr ⟨?_, List.forall_mem_singleton.mpr fun _ => keyed⟩
    intro request member
    exact asksFor_other fun here => Nat.lt_irrefl _ (kept.requestBound request member _ here)

/-- While the client knows a default sink the entry for it is there. -/
theorem unknown_of_absent {s : System} {sink : Option Text} (kept : Kept percent s)
    (absent : ∀ pa ∈ s.client.queue, pa.sink ≠ sink)
    (named : sink = none ∨ ∀ pa ∈ s.client.queue, pa.sink ≠ none) (default : sinkKey sink = none) :
    s.client.paDefaultSink = none := by
  by_contra told
  obtain ⟨pa, member, here⟩ := kept.default told
  exact absent_sinkKey absent named pa member (here.trans default.symm)

theorem kept_of_grown {s : System} {sink : Option Text} (kept : Kept percent s)
    (absent : ∀ pa ∈ s.client.queue, pa.sink ≠ sink)
    (named : sink = none ∨ ∀ pa ∈ s.client.queue, pa.sink ≠ none) : Kept percent (grown s sink) := by
  have length : (grown s sink).client.queue.length = s.client.queue.length + 1 := by simp [grown]
  have unknown := unknown_of_absent kept absent named
  constructor
  · exact kept.wellFormed
  · exact kept.ordered.append absent named
  · rw [length]
    refine List.forall_mem_append.mpr ⟨?_, List.forall_mem_singleton.mpr ?_⟩
    · exact fun request member i here => Nat.lt_succ_of_lt (kept.requestBound request member i here)
    · rintro i ⟨⟩
      exact Nat.lt_succ_self _
  · rw [length]
    exact fun reply member i here => Nat.lt_succ_of_lt (kept.replyBound reply member i here)
  · exact kept.eventKnown
  · intro index pa member
    rcases List.mem_append.mp member with member | member
    · exact kept.indexKnown index pa member
    · cases List.mem_singleton.mp member
  · intro i pa name here keyed
    rcases getElem?_grown here with ⟨front, before⟩ | ⟨rfl, rfl⟩
    · exact own_grown front (kept.own i pa name before keyed)
    · exact own_created kept keyed
  · intro i pa name here default told
    rcases getElem?_grown here with ⟨front, before⟩ | ⟨rfl, rfl⟩
    · apply (kept.renamed i pa name before default told).append
      intro request member
      rw [List.mem_singleton.mp member]
      rintro ⟨other, -, same⟩
      cases same
      exact Nat.lt_irrefl _ front
    · exact absurd (told.symm.trans (unknown default)) (Option.some_ne_none name)
  · intro told
    obtain ⟨pa, member, here⟩ := kept.default told
    exact ⟨pa, List.mem_append_left _ member, here⟩
  · exact kept.announcing.imp_left fun member => List.mem_append_left _ member
  · intro i pa info here member tracks
    rcases getElem?_grown here with ⟨front, before⟩ | ⟨rfl, rfl⟩
    · exact (kept.awaited i pa info before member tracks).of_destined (destined_grown front) id
    · left
      have keyed : sinkKey sink = some info.name := by
        rcases tracks with named | ⟨default, settled, -⟩
        · exact named
        · exact absurd (settled.symm.trans (unknown default)) (Option.some_ne_none _)
      apply upToDate_asked rfl
      rw [keyed]
      exact kept.wellFormed.answerFor_name member _
  · intro unheard
    obtain ⟨replies, events, unknown, empty, ⟨rest, pending⟩, byName⟩ := kept.unsubscribed unheard
    refine ⟨replies, events, unknown, ?_, ?_, ?_⟩
    · exact List.forall_mem_append.mpr ⟨empty, List.forall_mem_singleton.mpr (held_newEntry sink)⟩
    · refine ⟨rest ++ [.sinkInfoByName (sinkKey sink) s.client.queue.length], ?_⟩
      dsimp only [grown]
      rw [pending, List.cons_append]
    · intro index pa member
      rcases List.mem_append.mp member with member | member
      · exact byName index pa member
      · cases List.mem_singleton.mp member

theorem kept_of_display {s s' : System} {function : Display} {sink : Option Text} (kept : Kept percent s)
    (taken : step percent s (.display function sink) = some s') : Kept percent s' := by
  simp only [step, System.take, Client.call, display_run, PulseAudio.display, Option.map_map,
    Option.map_eq_some_iff] at taken
  obtain ⟨⟨pa, queue, requests⟩, found, rfl⟩ := taken
  rcases paFindBySink_cases kept.ordered sink with ⟨i, entry, -, -, hit⟩ | ⟨absent, named, miss⟩ | ⟨-, -, -, undefined⟩
  · rw [found] at hit
    cases hit
    simpa using kept
  · rw [found] at miss
    cases miss
    exact kept_of_grown kept absent named
  · rw [found] at undefined
    cases undefined

/-- A reply says of an entry what the request was to be answered by. -/
theorem infoFor_answer {server : Server} {request : Request} {reply : Reply}
    (answered : server.answer request = some reply) (i : Nat) : reply.infoFor i = server.answerFor i request := by
  cases request <;> cases answered <;> rfl

theorem toldEntry_answer {server : Server} {request : Request} {reply : Reply}
    (answered : server.answer request = some reply) : toldEntry reply = entryOf request := by
  cases request <;> cases answered <;> rfl

theorem lastSome_answer (server : Server) (request : Request) (i : Nat) :
    lastSome (Reply.infoFor i) (server.answer request).toList = server.answerFor i request := by
  cases answered : server.answer request with
  | none =>
    cases request <;> cases answered
    rfl
  | some reply => exact (Option.none_or).trans (infoFor_answer answered i)

/-- What is asked by a request for its own entry is what the reply brings. -/
theorem name_of_asksFor {server : Server} {name : Text} {i : Nat} {request : Request} {info : SinkInfo}
    (asks : AsksFor server name i request) (answers : server.answerFor i request = some info) : info.name = name := by
  cases request with
  | sinkInfoByName asked j =>
    simp only [Server.answerFor] at answers
    split_ifs at answers with same
    rw [asks same] at answers
    exact (search_eq_some answers).2
  | sinkInfoByIndex index j =>
    simp only [Server.answerFor] at answers
    split_ifs at answers with same
    obtain ⟨member, here⟩ := search_eq_some answers
    exact asks same info member here
  | _ => cases answers

/-- The server answers the first request. -/
def answered (s : System) (request : Request) (requests : List Request) : System :=
  { s with
    server := { s.server with subscribed := s.server.subscribed || decide (request = .subscribe) }
    requests
    replies := s.replies ++ (s.server.answer request).toList }

theorem destined_answered {s : System} {request : Request} {requests : List Request}
    (asked : s.requests = request :: requests) (i : Nat) :
    destined percent (answered s request requests) i = destined percent s i := by
  have answers : ∀ other, (answered s request requests).server.answerFor i other = s.server.answerFor i other := by
    intro other
    cases other <;> rfl
  unfold destined
  rw [funext answers, asked, lastSome]
  dsimp only [answered]
  rw [lastSome_append, lastSome_answer, Option.or_assoc]

theorem own_answered {s : System} {request : Request} {requests : List Request} {i : Nat} {name : Text}
    (asked : s.requests = request :: requests) (own : Own s i name) : Own (answered s request requests) i name := by
  obtain ⟨held, replies, asks⟩ := own
  rw [asked] at asks
  obtain ⟨first, later⟩ := List.forall_mem_cons.mp asks
  refine ⟨held, List.forall_mem_append.mpr ⟨replies, ?_⟩, ?_⟩
  · intro reply member info told
    rw [infoFor_answer (Option.mem_toList.mp member)] at told
    exact name_of_asksFor first told
  · intro other member
    have still := later other member
    cases other <;> exact still

/-- A request for the default sink becomes an announcement of it. -/
theorem announcing_answered {s : System} {request : Request} {requests : List Request}
    (asked : s.requests = request :: requests) (announcing : Announcing s) :
    Announcing (answered s request requests) := by
  unfold Announcing announced
  dsimp only [answered]
  rw [lastSome_append]
  by_cases asks : request = .serverInfo
  · subst request
    exact .inr (.inl rfl)
  · have unspoken : lastSome Reply.default (s.server.answer request).toList = none := by
      cases request <;> first | rfl | exact absurd rfl asks
    rw [unspoken, Option.none_or]
    apply announcing.imp_left
    rw [asked]
    exact fun member => (List.mem_cons.mp member).resolve_left (Ne.symm asks)

theorem kept_of_answer {s s' : System} (kept : Kept percent s) (taken : step percent s .answer = some s') :
    Kept percent s' := by
  cases asked : s.requests with
  | nil => simp [step, asked] at taken
  | cons request requests =>
    simp only [step, asked, Option.some.injEq] at taken
    subst s'
    change Kept percent (answered s request requests)
    have later : requests ⊆ s.requests := asked ▸ List.subset_cons_self request requests
    obtain ⟨sinkNames, sinkIndexes, used, default⟩ := kept.wellFormed
    constructor
    · exact ⟨sinkNames, sinkIndexes, used, default⟩
    · exact kept.ordered
    · exact fun other member => kept.requestBound other (later member)
    · refine List.forall_mem_append.mpr ⟨kept.replyBound, ?_⟩
      intro reply member
      rw [toldEntry_answer (Option.mem_toList.mp member)]
      exact kept.requestBound request (asked ▸ List.mem_cons_self)
    · exact kept.eventKnown
    · exact fun index pa member => kept.indexKnown index pa (later member)
    · exact fun i pa name here named => own_answered asked (kept.own i pa name here named)
    · intro i pa name here default told
      have renamed := kept.renamed i pa name here default told
      rw [Renamed, asked] at renamed
      exact renamed.2
    · exact kept.default
    · exact announcing_answered asked kept.announcing
    · intro i pa info here member tracks
      have before : Tracks s pa info.name := by
        refine tracks.imp_right fun tracked => ⟨tracked.1, tracked.2.1, tracked.2.2.1, ?_⟩
        exact fun reply told => tracked.2.2.2 reply (List.mem_append_left _ told)
      exact (kept.awaited i pa info here member before).of_destined (destined_answered asked i) id
    · intro unheard
      obtain ⟨unheard, other⟩ := Bool.or_eq_false_iff.mp unheard
      obtain ⟨rest, pending⟩ := (kept.unsubscribed unheard).pending
      rw [asked] at pending
      cases pending
      cases other

/-- What is said of the default sink before a reply that says nothing else. -/
theorem tracks_before {s : System} {reply : Reply} {replies : List Reply} {pa : Pa} {name : Text}
    (arrived : s.replies = reply :: replies) (same : ∀ d ∈ reply.default, s.client.paDefaultSink = some d)
    (tracks : Tracks { s with replies } pa name) : Tracks s pa name := by
  apply tracks.imp_right
  rintro ⟨null, told, now, only⟩
  refine ⟨null, told, now, ?_⟩
  rw [arrived]
  refine List.forall_mem_cons.mpr ⟨?_, only⟩
  intro d member
  exact Option.some.inj ((same d member).symm.trans told)

/-- An entry that is told of a sink holds what it was told, if it was told anything. -/
theorem held_sinkInfo (info : Option SinkInfo) (pa : Pa) :
    held (paSinkInfoCallback percent info (if info.isSome then 0 else -1) pa).1 =
      (info.map (dataOf percent)).or (held pa) := by
  cases info with
  | none => rfl
  | some info =>
    rw [Option.isSome_some, if_pos rfl, paSinkInfoCallback_eq]
    rfl

/-- An entry stays in its place. -/
theorem getElem?_of_sinks {queue queue' : List Pa} (sinks : queue'.map Pa.sink = queue.map Pa.sink) {i : Nat} {pa : Pa}
    (here : queue'[i]? = some pa) : ∃ before, queue[i]? = some before ∧ before.sink = pa.sink := by
  have same := congrArg (fun sinks => sinks[i]?) sinks
  simp only [List.getElem?_map, here, Option.map_some] at same
  exact Option.map_eq_some_iff.mp same.symm

/-- The client takes what a reply brings for an entry. -/
def told (s : System) (j : Nat) (entry : Pa) (replies : List Reply) : System :=
  { s with replies, client := { s.client with queue := s.client.queue.set j entry } }

theorem own_told {s : System} {info : Option SinkInfo} {j : Nat} {entry entry' : Pa} {replies : List Reply} {i : Nat}
    {name : Text} (arrived : s.replies = .sinkInfo info j :: replies) (there : s.client.queue[j]? = some entry)
    (holds : held entry' = (info.map (dataOf percent)).or (held entry)) (own : Own s i name) :
    Own (told s j entry' replies) i name := by
  have bound := (List.getElem?_eq_some_iff.mp there).1
  obtain ⟨held, only, asks⟩ := own
  rw [arrived] at only
  obtain ⟨first, later⟩ := List.forall_mem_cons.mp only
  refine ⟨?_, later, asks⟩
  intro pa now data has
  dsimp only [told] at now
  by_cases same : j = i
  · subst j
    rw [List.getElem?_set_self bound] at now
    cases now
    rw [holds] at has
    rcases Option.or_eq_some_iff.mp has with fresh | ⟨-, old⟩
    · obtain ⟨answer, rfl, rfl⟩ := Option.map_eq_some_iff.mp fresh
      exact first answer (if_pos rfl)
    · exact held entry there data old
  · rw [List.getElem?_set_ne same] at now
    exact held pa now data has

theorem destined_told {s : System} {info : Option SinkInfo} {j : Nat} {entry entry' : Pa} {replies : List Reply}
    (arrived : s.replies = .sinkInfo info j :: replies) (there : s.client.queue[j]? = some entry)
    (holds : held entry' = (info.map (dataOf percent)).or (held entry)) (i : Nat) :
    destined percent (told s j entry' replies) i = destined percent s i := by
  by_cases own : j = i
  · subst j
    have bound := (List.getElem?_eq_some_iff.mp there).1
    have brought : Reply.infoFor i (.sinkInfo info i) = info := if_pos rfl
    unfold destined
    dsimp only [told]
    rw [List.getElem?_set_self bound, there, Option.bind_some, Option.bind_some, holds, arrived, lastSome, brought,
      ← Option.or_assoc, ← Option.map_or, Option.or_assoc]
  · have other : Reply.infoFor i (.sinkInfo info j) = none := if_neg own
    refine destined_congr rfl ?_ (List.getElem?_set_ne own)
    dsimp only [told]
    rw [arrived, lastSome, other, Option.or_none]

theorem kept_of_told {s : System} {info : Option SinkInfo} {j : Nat} {entry entry' : Pa} {replies : List Reply}
    (kept : Kept percent s) (arrived : s.replies = .sinkInfo info j :: replies)
    (there : s.client.queue[j]? = some entry) (kind : entry'.sink = entry.sink)
    (holds : held entry' = (info.map (dataOf percent)).or (held entry)) : Kept percent (told s j entry' replies) := by
  have later : replies ⊆ s.replies := arrived ▸ List.subset_cons_self _ replies
  have length : (told s j entry' replies).client.queue.length = s.client.queue.length := List.length_set
  have sinks : (told s j entry' replies).client.queue.map Pa.sink = s.client.queue.map Pa.sink :=
    Dispatches.map_set_of_key there kind
  constructor
  · exact kept.wellFormed
  · exact kept.ordered.of_sinks sinks
  · rw [length]
    exact kept.requestBound
  · rw [length]
    exact fun reply member => kept.replyBound reply (later member)
  · exact kept.eventKnown
  · exact kept.indexKnown
  · intro i pa name here named
    obtain ⟨before, there', same⟩ := getElem?_of_sinks sinks here
    exact own_told arrived there holds (kept.own i before name there' (same.trans named))
  · intro i pa name here default known
    obtain ⟨before, there', same⟩ := getElem?_of_sinks sinks here
    exact kept.renamed i before name there' (same.trans default) known
  · intro known
    obtain ⟨pa, member, default⟩ := kept.default known
    have sink : pa.sink ∈ s.client.queue.map Pa.sink := List.mem_map_of_mem member
    rw [← sinks, default] at sink
    exact List.mem_map.mp sink
  · have announcing := kept.announcing
    rw [Announcing, announced, arrived, lastSome] at announcing
    rw [Announcing, announced]
    simpa only [told, Reply.default, Option.or_none] using announcing
  · intro i pa info' here member tracks
    obtain ⟨before, there', same⟩ := getElem?_of_sinks sinks here
    have tracked : Tracks s before info'.name := by
      rw [Tracks, same]
      refine tracks_before arrived ?_ tracks
      intro d here
      cases here
    exact (kept.awaited i before info' there' member tracked).of_destined (destined_told arrived there holds i) id
  · intro unheard
    rw [(kept.unsubscribed unheard).replies] at arrived
    cases arrived

theorem kept_of_sinkInfo {s s' : System} {info : Option SinkInfo} {j : Nat} {replies : List Reply}
    (kept : Kept percent s) (arrived : s.replies = .sinkInfo info j :: replies)
    (taken : { s with replies }.take percent (Reply.call (.sinkInfo info j)) = some s') : Kept percent s' := by
  simp only [System.take, Reply.call, Client.call, Option.map_map, Option.map_eq_some_iff] at taken
  obtain ⟨entry, there, rfl⟩ := taken
  have kind := paSinkInfoCallback_sink percent info (if info.isSome then 0 else -1) entry
  have last := kept_of_told kept arrived there kind (held_sinkInfo info entry)
  simpa only [told, Function.comp_apply, List.append_nil] using last

/-- The client takes over the default sink that it is told, and asks for it by name. -/
def adopted (s : System) (name : Text) (i : Nat) (replies : List Reply) : System :=
  { s with
    replies
    client := { s.client with paDefaultSink := some name }
    requests := s.requests ++ [.sinkInfoByName (some name) i] }

theorem announced_serverInfo {s : System} {name : Text} {replies : List Reply}
    (arrived : s.replies = .serverInfo name :: replies) :
    announced s = (lastSome Reply.default replies).or (some name) := by
  rw [announced, arrived, lastSome, Option.or_assoc]
  rfl

theorem own_adopted {s : System} {name key : Text} {i j : Nat} {replies : List Reply} (later : replies ⊆ s.replies)
    (apart : i ≠ j) (own : Own s j key) : Own (adopted s name i replies) j key := by
  obtain ⟨held, told, asks⟩ := own
  refine ⟨held, fun reply member => told reply (later member), ?_⟩
  exact List.forall_mem_append.mpr ⟨asks, List.forall_mem_singleton.mpr fun same => absurd same apart⟩

theorem destined_adopted {s : System} {name : Text} {i j : Nat} {replies : List Reply}
    (arrived : s.replies = .serverInfo name :: replies) (apart : i ≠ j) :
    destined percent (adopted s name i replies) j = destined percent s j := by
  have silent : s.server.answerFor j (.sinkInfoByName (some name) i) = none := if_neg apart
  have untold : Reply.infoFor j (.serverInfo name) = none := rfl
  refine destined_congr ?_ ?_ rfl
  · dsimp only [adopted]
    rw [lastSome_concat, silent, Option.none_or]
  · dsimp only [adopted]
    rw [arrived, lastSome, untold, Option.or_none]

theorem kept_of_adopted {s : System} {name : Text} {i : Nat} {pa : Pa} {replies : List Reply} (kept : Kept percent s)
    (arrived : s.replies = .serverInfo name :: replies) (here : s.client.queue[i]? = some pa)
    (default : pa.sink = none) : Kept percent (adopted s name i replies) := by
  have later : replies ⊆ s.replies := arrived ▸ List.subset_cons_self _ replies
  have only : ∀ {j : Nat} {other : Pa}, s.client.queue[j]? = some other → other.sink = none → j = i :=
    fun there null => kept.ordered.index_eq there here (null.trans default.symm)
  have apart : ∀ {j : Nat} {other : Pa} {key : Text}, s.client.queue[j]? = some other → other.sink = some key →
      i ≠ j := by
    rintro j other key there named rfl
    rw [here] at there
    cases there
    rw [default] at named
    cases named
  constructor
  · exact kept.wellFormed
  · exact kept.ordered
  · refine List.forall_mem_append.mpr ⟨kept.requestBound, List.forall_mem_singleton.mpr ?_⟩
    rintro j ⟨⟩
    exact (List.getElem?_eq_some_iff.mp here).1
  · exact fun reply member => kept.replyBound reply (later member)
  · exact kept.eventKnown
  · intro index j member
    rcases List.mem_append.mp member with member | member
    · exact kept.indexKnown index j member
    · cases List.mem_singleton.mp member
  · exact fun j other key there named => own_adopted later (apart there named) (kept.own j other key there named)
  · intro j other key there null known
    obtain rfl := only there null
    cases known
    refine followed_concat _ ?_ rfl
    rintro ⟨asked, different, same⟩
    cases same
    exact different rfl
  · exact fun _ => ⟨pa, List.mem_of_getElem? here, default⟩
  · rcases kept.announcing with asked | known | coming
    · exact .inl (List.mem_append_left _ asked)
    · rw [announced_serverInfo arrived] at known
      exact .inr (.inl known)
    · exact .inr (.inr coming)
  · intro j other info there member tracks
    rcases tracks with named | ⟨null, known, -⟩
    · exact (kept.awaited j other info there member (.inl named)).of_destined
        (destined_adopted arrived (apart there named)) id
    · obtain rfl := only there null
      cases known
      exact .inl (upToDate_asked rfl (kept.wellFormed.answerFor_name member j))
  · intro unheard
    rw [(kept.unsubscribed unheard).replies] at arrived
    cases arrived

/-- A default sink that is known already changes nothing. -/
theorem kept_of_known {s : System} {name : Text} {replies : List Reply} (kept : Kept percent s)
    (arrived : s.replies = .serverInfo name :: replies) (known : s.client.paDefaultSink = some name) :
    Kept percent { s with replies } := by
  have later : replies ⊆ s.replies := arrived ▸ List.subset_cons_self _ replies
  refine ⟨kept.wellFormed, kept.ordered, kept.requestBound, fun reply member => kept.replyBound reply (later member),
    kept.eventKnown, kept.indexKnown, ?_, kept.renamed, kept.default, ?_, ?_, ?_⟩
  · intro i pa key here named
    obtain ⟨held, told, asks⟩ := kept.own i pa key here named
    exact ⟨held, fun reply member => told reply (later member), asks⟩
  · have announcing := kept.announcing
    rw [Announcing, announced_serverInfo arrived] at announcing
    rw [Announcing, announced]
    dsimp only
    rw [known]
    exact announcing
  · intro i pa info here member tracks
    have before : Tracks s pa info.name := by
      refine tracks_before arrived ?_ tracks
      rintro _ ⟨⟩
      exact known
    have untold : Reply.infoFor i (.serverInfo name) = none := rfl
    refine (kept.awaited i pa info here member before).of_destined (destined_congr rfl ?_ rfl) id
    dsimp only
    rw [arrived, lastSome, untold, Option.or_none]
  · intro unheard
    rw [(kept.unsubscribed unheard).replies] at arrived
    cases arrived

theorem kept_of_serverInfo {s s' : System} {name : Text} {replies : List Reply} (kept : Kept percent s)
    (arrived : s.replies = .serverInfo name :: replies)
    (taken : { s with replies }.take percent (Reply.call (.serverInfo name)) = some s') : Kept percent s' := by
  simp only [System.take, Reply.call, Client.call, serverInfoCallback] at taken
  split_ifs at taken with known
  · simp only [Option.map_some, Option.some.injEq, List.append_nil] at taken
    subst s'
    exact kept_of_known kept arrived known
  · rcases paFindBySink_cases kept.ordered none with ⟨i, pa, here, default, hit⟩ | ⟨absent, named, miss⟩ | ⟨given, -⟩
    · simp only [hit, Option.map_some, Option.some.injEq, List.nil_append] at taken
      subst s'
      exact kept_of_adopted kept arrived here default
    · simp only [miss, Option.map_some, Option.some.injEq] at taken
      subst s'
      have made : (grown s none).client.queue[s.client.queue.length]? = some (newEntry none) :=
        List.getElem?_concat_length
      have last := kept_of_adopted (kept_of_grown kept absent named) arrived made rfl
      simpa only [adopted, grown, List.append_assoc] using last
    · exact absurd rfl given

theorem kept_of_reply {s s' : System} (kept : Kept percent s) (taken : step percent s .reply = some s') :
    Kept percent s' := by
  cases arrived : s.replies with
  | nil => simp [step, arrived] at taken
  | cons reply replies =>
    simp only [step, arrived] at taken
    cases reply with
    | serverInfo name => exact kept_of_serverInfo kept arrived taken
    | sinkInfo info j => exact kept_of_sinkInfo kept arrived taken

/-- A request is sent for an event, and the event is gone. -/
def heard (s : System) (k : Nat) (request : Request) : System :=
  { s with events := s.events.eraseIdx k, requests := s.requests ++ [request] }

theorem destined_heard {s : System} {k i : Nat} {request : Request} (silent : s.server.answerFor i request = none) :
    destined percent (heard s k request) i = destined percent s i := by
  refine destined_congr ?_ rfl rfl
  dsimp only [heard]
  rw [lastSome_concat, silent, Option.none_or]

/-- An event of another sink is still to come. -/
theorem mem_eraseIdx_other {events : List UInt32} {k : Nat} {idx other : UInt32} (queued : events[k]? = some idx)
    (different : other ≠ idx) (member : other ∈ events) : other ∈ events.eraseIdx k := by
  obtain ⟨j, there⟩ := List.mem_iff_getElem?.mp member
  refine List.mem_eraseIdx_iff_getElem?.mpr ⟨j, ?_, there⟩
  rintro rfl
  rw [queued] at there
  exact different (Option.some.inj there).symm

theorem kept_of_heard {s : System} {k : Nat} {idx : UInt32} {request : Request} (kept : Kept percent s)
    (queued : s.events[k]? = some idx) (bound : ∀ i ∈ entryOf request, i < s.client.queue.length)
    (known : ∀ index pa, request = .sinkInfoByIndex index pa → index ∈ s.server.used)
    (unnamed : ∀ name pa, request ≠ .sinkInfoByName name pa)
    (asks : ∀ i pa name, s.client.queue[i]? = some pa → pa.sink = some name → AsksFor s.server name i request)
    (announcing : Announcing (heard s k request))
    (awaited : ∀ i pa info, s.client.queue[i]? = some pa → info ∈ s.server.sinks → Tracks s pa info.name →
      Awaited percent (heard s k request) i info) : Kept percent (heard s k request) := by
  constructor
  · exact kept.wellFormed
  · exact kept.ordered
  · exact List.forall_mem_append.mpr ⟨kept.requestBound, List.forall_mem_singleton.mpr bound⟩
  · exact kept.replyBound
  · exact fun other member => kept.eventKnown other (List.mem_of_mem_eraseIdx member)
  · intro index pa member
    rcases List.mem_append.mp member with member | member
    · exact kept.indexKnown index pa member
    · exact known index pa (List.mem_singleton.mp member).symm
  · intro i pa name here named
    obtain ⟨held, replies, requests⟩ := kept.own i pa name here named
    exact ⟨held, replies,
      List.forall_mem_append.mpr ⟨requests, List.forall_mem_singleton.mpr (asks i pa name here named)⟩⟩
  · intro i pa name here default told
    apply (kept.renamed i pa name here default told).append
    rintro other member ⟨asked, -, same⟩
    exact unnamed asked i ((List.mem_singleton.mp member).symm.trans same)
  · exact kept.default
  · exact announcing
  · exact awaited
  · intro unheard
    rw [(kept.unsubscribed unheard).events] at queued
    cases queued

/-- No entry carries the index: the default sink is asked for. -/
theorem kept_of_missed {s : System} {k : Nat} {idx : UInt32} (kept : Kept percent s)
    (queued : s.events[k]? = some idx) (orderly : Orderly percent s (.event k))
    (miss : paFindByIndex s.client.queue idx = none) : Kept percent (heard s k .serverInfo) := by
  refine kept_of_heard kept queued nofun nofun nofun (fun _ _ _ _ _ => trivial) ?_ ?_
  · exact .inl (List.mem_append_right _ List.mem_cons_self)
  · intro i pa info here member tracks
    have same : destined percent (heard s k .serverInfo) i = destined percent s i := destined_heard rfl
    by_cases own : info.index = idx
    · have wanted := (orderly idx queued).2 info member own i (List.getElem?_eq_some_iff.mp here).1 pa here
      rw [miss, if_neg nofun] at wanted
      exact (wanted tracks).of_destined same id
    · exact (kept.awaited i pa info here member tracks).of_destined same (mem_eraseIdx_other queued own)

/-- The entry that carries the index asks for it. -/
theorem kept_of_carried {s : System} {k j : Nat} {idx : UInt32} (kept : Kept percent s)
    (queued : s.events[k]? = some idx) (orderly : Orderly percent s (.event k))
    (hit : paFindByIndex s.client.queue idx = some j) : Kept percent (heard s k (.sinkInfoByIndex idx j)) := by
  obtain ⟨announcing, fit⟩ := orderly idx queued
  have suits : ∀ pa info, s.client.queue[j]? = some pa → info ∈ s.server.sinks → info.index = idx →
      Suits s pa info := by
    intro pa info here member own
    have wanted := fit info member own j (List.getElem?_eq_some_iff.mp here).1 pa here
    rwa [if_pos hit] at wanted
  refine kept_of_heard kept queued ?_ ?_ nofun ?_ ?_ ?_
  · rintro i ⟨⟩
    exact (List.findIdx?_eq_some_iff_getElem.mp hit).1
  · rintro index pa ⟨⟩
    exact kept.eventKnown idx (List.mem_of_getElem? queued)
  · rintro i pa name here named rfl info member own
    refine (suits pa info here member own name ?_ (.inl named)).symm
    rw [named]
    rfl
  · rw [hit] at announcing
    exact (announcing nofun).imp_left fun member => List.mem_append_left _ member
  · intro i pa info here member tracks
    by_cases own : info.index = idx
    · by_cases taker : j = i
      · subst j
        left
        have answers : s.server.answerFor i (.sinkInfoByIndex idx i) = some info := by
          rw [← own]
          exact (if_pos rfl).trans (kept.wellFormed.byIndex_eq member)
        exact upToDate_asked rfl answers
      · have wanted := fit info member own i (List.getElem?_eq_some_iff.mp here).1 pa here
        rw [hit, if_neg fun same => taker (Option.some.inj same)] at wanted
        exact (wanted tracks).of_destined (destined_heard (if_neg taker)) id
    · have silent : s.server.answerFor i (.sinkInfoByIndex idx j) = none := by
        by_contra speaks
        obtain ⟨other, answers⟩ := Option.ne_none_iff_exists'.mp speaks
        simp only [Server.answerFor] at answers
        split_ifs at answers with taker
        subst j
        obtain ⟨otherMember, carried⟩ := search_eq_some answers
        have tracked : info.name ∈ pa.sink.or s.client.paDefaultSink := by
          rcases tracks with named | ⟨default, settled, -⟩
          · rw [named]
            rfl
          · rw [default]
            exact settled
        have sameName := suits pa other here otherMember carried info.name tracked tracks
        have same := kept.wellFormed.names.eq_of_key member otherMember sameName
        exact own (same ▸ carried)
      exact (kept.awaited i pa info here member tracks).of_destined (destined_heard silent)
        (mem_eraseIdx_other queued own)

theorem kept_of_event {s s' : System} {k : Nat} (kept : Kept percent s) (orderly : Orderly percent s (.event k))
    (taken : step percent s (.event k) = some s') : Kept percent s' := by
  cases queued : s.events[k]? with
  | none => simp [step, queued] at taken
  | some idx =>
    simp only [step, queued, System.take, Client.call, paSubscribeCallback, Option.map_some, Option.some.injEq]
      at taken
    subst s'
    cases found : paFindByIndex s.client.queue idx with
    | none => exact kept_of_missed kept queued orderly found
    | some j => exact kept_of_carried kept queued orderly found

end SlStatus.SinkDeliveries
