import SlStatus.SinkInvariant

/-! Changes of the sinks, their creation and removal, and changes of the default sink keep the
entries of `components/pa.c` coherent, as far as they are announced. -/

namespace SlStatus.SinkChanges
open CString PulseAudio SinkServer SinkInvariant Caches LastWord
open SinkLookup hiding step initial

variable {percent : UInt32 → Int}

/-- What a sink is to say to an entry that tracks it does not depend on the other sinks. -/
theorem lastSome_of_server {s : System} {server : Server} {i : Nat} {info : SinkInfo} (kept : Kept percent s)
    (member : info ∈ s.server.sinks) (renamed : Renamed i info.name s.requests)
    (differs : ∀ request ∈ s.requests, server.answerFor i request ≠ s.server.answerFor i request →
      ∃ other, other ≠ some info.name ∧ AsksByName i other request) :
    lastSome (server.answerFor i) s.requests = lastSome (s.server.answerFor i) s.requests := by
  apply lastSome_congr
  apply renamed.imp differs
  rintro request - rfl
  rw [kept.wellFormed.answerFor_name member, Option.isSome_some]

/-- The sinks change, and a subscriber is told of one index. -/
def replaced (s : System) (server : Server) (index : UInt32) : System :=
  { s with server, events := s.events ++ s.server.told index }

theorem own_replaced {s : System} {server : Server} {index : UInt32} {i : Nat} {name : Text} (own : Own s i name)
    (known : ∀ index pa, .sinkInfoByIndex index pa ∈ s.requests → index ∈ s.server.used)
    (sameSinks : ∀ info ∈ server.sinks, info.index ∈ s.server.used →
      ∃ before ∈ s.server.sinks, before.index = info.index ∧ before.name = info.name) :
    Own (replaced s server index) i name := by
  refine ⟨own.held, own.replies, ?_⟩
  intro request member
  have asks := own.requests request member
  cases request with
  | sinkInfoByIndex idx j =>
    intro same info infoMember there
    have given : info.index ∈ s.server.used := there ▸ known idx j member
    obtain ⟨before, beforeMember, sameIndex, sameName⟩ := sameSinks info infoMember given
    rw [← sameName]
    exact asks same before beforeMember (sameIndex.trans there)
  | _ => exact asks

theorem unsubscribed_replaced {s : System} {server : Server} {index : UInt32} (unheard : s.server.subscribed = false)
    (unsubscribed : Unsubscribed s) : Unsubscribed (replaced s server index) := by
  obtain ⟨replies, events, unknown, empty, pending, named⟩ := unsubscribed
  refine ⟨replies, ?_, unknown, empty, pending, named⟩
  simp [replaced, events, Server.told, unheard]

theorem tracks_replaced {s : System} {server : Server} {index : UInt32} {pa : Pa} {name : Text}
    (default : server.defaultSink = s.server.defaultSink) (tracks : Tracks (replaced s server index) pa name) :
    Tracks s pa name := by
  apply tracks.imp_right
  rintro ⟨null, told, now, only⟩
  exact ⟨null, told, default.symm.trans now, only⟩

/-- The other sinks say what they said. -/
theorem kept_of_replaced {s : System} {server : Server} {index : UInt32} (kept : Kept percent s)
    (wellFormed : server.WellFormed) (subscribed : server.subscribed = s.server.subscribed)
    (default : server.defaultSink = s.server.defaultSink) (used : ∀ idx ∈ s.server.used, idx ∈ server.used)
    (given : index ∈ server.used)
    (sameSinks : ∀ info ∈ server.sinks, info.index ∈ s.server.used →
      ∃ before ∈ s.server.sinks, before.index = info.index ∧ before.name = info.name)
    (others : ∀ i pa, s.client.queue[i]? = some pa → ∀ info ∈ server.sinks, info.index ≠ index →
      Tracks s pa info.name → info ∈ s.server.sinks ∧
        (UpToDate percent s i info → UpToDate percent (replaced s server index) i info)) :
    Kept percent (replaced s server index) := by
  have own : ∀ i pa name, s.client.queue[i]? = some pa → pa.sink = some name → Own (replaced s server index) i name :=
    fun i pa name here named => own_replaced (kept.own i pa name here named) kept.indexKnown sameSinks
  have unsubscribed : server.subscribed = false → Unsubscribed (replaced s server index) := by
    intro unheard
    rw [subscribed] at unheard
    exact unsubscribed_replaced unheard (kept.unsubscribed unheard)
  refine ⟨wellFormed, kept.ordered, kept.requestBound, kept.replyBound, ?_, ?_, own, kept.renamed, kept.default,
    ?_, ?_, unsubscribed⟩
  · intro idx member
    rcases List.mem_append.mp member with member | member
    · exact used idx (kept.eventKnown idx member)
    · unfold Server.told at member
      split_ifs at member
      · rw [List.mem_singleton.mp member]
        exact given
      · cases member
  · intro idx pa member
    exact used idx (kept.indexKnown idx pa member)
  · rcases kept.announcing with asked | known | coming
    · exact .inl asked
    · exact .inr (.inl (known.trans (congrArg some default.symm)))
    · exact .inr (.inr (List.append_ne_nil_of_left_ne_nil coming _))
  · intro i pa info here member tracks
    cases heard : s.server.subscribed with
    | false =>
      exact .inl (upToDate_unsubscribed wellFormed (unsubscribed (subscribed.trans heard)) own here member tracks)
    | true =>
      by_cases changed : info.index = index
      · right
        rw [changed]
        exact List.mem_append_right _ (by simp [Server.told, heard])
      · have before := tracks_replaced default tracks
        obtain ⟨old, fresh⟩ := others i pa here info member changed before
        exact (kept.awaited i pa info here old before).imp fresh fun event => List.mem_append_left _ event

/-- What the other sinks say is left as it is. -/
theorem upToDate_replaced {s : System} {server : Server} {index : UInt32} {g : SinkInfo → Option SinkInfo} {i : Nat}
    {info : SinkInfo} (answers : ∀ request, server.answerFor i request = (s.server.answerFor i request).bind g)
    (left : ∀ answer, answer.index ≠ index → g answer = some answer) (other : info.index ≠ index)
    (fresh : UpToDate percent s i info) : UpToDate percent (replaced s server index) i info := by
  unfold UpToDate destined at fresh ⊢
  dsimp only [replaced]
  rw [funext answers]
  cases said : lastSome (s.server.answerFor i) s.requests with
  | none =>
    rw [said] at fresh
    rw [lastSome_bind_none said]
    exact fresh
  | some answer =>
    rw [said] at fresh
    have same := fresh (dataOf percent answer) rfl
    have apart : answer.index ≠ index := dataOf_index same ▸ other
    rw [lastSome_bind_some said (left answer apart)]
    exact fresh

theorem answerFor_change (server : Server) (index : UInt32) (description : Text) (volume : UInt32) (mute : Int)
    (i : Nat) (request : Request) :
    Server.answerFor { server with sinks := server.sinks.map (changed index description volume mute) } i request =
      (server.answerFor i request).bind fun info => some (changed index description volume mute info) := by
  have byName := search_map SinkInfo.name (changed_name index description volume mute) server.sinks
  have byIndex := search_map SinkInfo.index (changed_index index description volume mute) server.sinks
  cases request with
  | sinkInfoByName name pa | sinkInfoByIndex name pa =>
    simp only [Server.answerFor, Server.byName, Server.byIndex, byName, byIndex, Option.map_eq_bind]
    split_ifs <;> rfl
  | _ => rfl

theorem kept_of_change {s s' : System} {index : UInt32} {description : Text} {volume : UInt32} {mute : Int}
    (kept : Kept percent s) (taken : step percent s (.change index description volume mute) = some s') :
    Kept percent s' := by
  simp only [step] at taken
  split_ifs at taken with found
  cases taken
  obtain ⟨target, found⟩ := Option.isSome_iff_exists.mp found
  obtain ⟨targetMember, rfl⟩ := search_eq_some found
  have names := changed_name target.index description volume mute
  have indexes := changed_index target.index description volume mute
  obtain ⟨sinkNames, sinkIndexes, used, ⟨defaultInfo, defaultMember, default⟩⟩ := kept.wellFormed
  refine kept_of_replaced kept ⟨sinkNames.map names, sinkIndexes.map indexes, ?_, ?_⟩ rfl rfl (fun _ member => member)
    (used target targetMember) ?_ ?_
  · intro info member
    obtain ⟨before, beforeMember, rfl⟩ := List.mem_map.mp member
    rw [indexes]
    exact used before beforeMember
  · exact ⟨_, List.mem_map_of_mem defaultMember, (names defaultInfo).trans default⟩
  · intro info member _
    obtain ⟨before, beforeMember, rfl⟩ := List.mem_map.mp member
    exact ⟨before, beforeMember, (indexes before).symm, (names before).symm⟩
  · intro i pa here info member other tracks
    obtain ⟨before, beforeMember, rfl⟩ := List.mem_map.mp member
    rw [indexes] at other
    have untouched : changed target.index description volume mute before = before := if_neg other
    rw [untouched]
    refine ⟨beforeMember, ?_⟩
    refine upToDate_replaced (answerFor_change s.server target.index description volume mute i) ?_ other
    intro answer apart
    exact congrArg some (if_neg apart)

theorem search_concat {α κ : Type*} [DecidableEq κ] (key : α → κ) (list : List α) {a : α} {k : κ}
    (other : key a ≠ k) : search key (list ++ [a]) k = search key list k := by
  rw [search, List.find?_append, List.find?_singleton, if_neg (by simpa using other), Option.or_none, search]

/-- A new sink is no answer to what is asked of the others. -/
theorem answerFor_create {s : System} {info other : SinkInfo} (kept : Kept percent s) (member : other ∈ s.server.sinks)
    (unused : info.index ∉ s.server.used) (unnamed : s.server.byName (some info.name) = none) {i : Nat}
    {request : Request} (asked : request ∈ s.requests)
    (differs : Server.answerFor
      { s.server with sinks := s.server.sinks ++ [info], used := info.index :: s.server.used } i request ≠
        s.server.answerFor i request) : ∃ name, name ≠ some other.name ∧ AsksByName i name request := by
  cases request with
  | sinkInfoByName name j =>
    by_cases own : j = i
    · subst j
      refine ⟨name, ?_, rfl⟩
      rintro rfl
      have apart : info.name ≠ other.name := (search_eq_none.mp unnamed other member).symm
      apply differs
      simp only [Server.answerFor, Server.byName, Option.getD_some,
        search_concat SinkInfo.name s.server.sinks apart]
    · simp only [Server.answerFor, if_neg own] at differs
      exact absurd rfl differs
  | sinkInfoByIndex index j =>
    have known := kept.indexKnown index j asked
    have apart : info.index ≠ index := fun same => unused (same ▸ known)
    simp only [Server.answerFor, Server.byIndex, search_concat SinkInfo.index s.server.sinks apart] at differs
    exact absurd rfl differs
  | _ => exact absurd rfl differs

theorem kept_of_create {s s' : System} {info : SinkInfo} (kept : Kept percent s)
    (taken : step percent s (.create info) = some s') : Kept percent s' := by
  simp only [step] at taken
  split_ifs at taken with refused
  cases taken
  rw [not_or, Option.not_isSome_iff_eq_none] at refused
  obtain ⟨unused, unnamed⟩ := refused
  obtain ⟨sinkNames, sinkIndexes, used, ⟨defaultInfo, defaultMember, default⟩⟩ := kept.wellFormed
  have newIndex : ∀ other ∈ s.server.sinks, other.index ≠ info.index :=
    fun other member same => unused (same ▸ used other member)
  have wellFormed : Server.WellFormed
      { s.server with sinks := s.server.sinks ++ [info], used := info.index :: s.server.used } := by
    refine ⟨sinkNames.append (search_eq_none.mp unnamed), sinkIndexes.append newIndex, ?_, ?_⟩
    · intro other member
      rcases List.mem_append.mp member with member | member
      · exact List.mem_cons_of_mem _ (used other member)
      · rw [List.mem_singleton.mp member]
        exact List.mem_cons_self
    · exact ⟨defaultInfo, List.mem_append_left _ defaultMember, default⟩
  have oldSink : ∀ other ∈ s.server.sinks ++ [info], other.index ≠ info.index → other ∈ s.server.sinks := by
    intro other member different
    rcases List.mem_append.mp member with member | member
    · exact member
    · exact absurd (congrArg SinkInfo.index (List.mem_singleton.mp member)) different
  refine kept_of_replaced kept wellFormed rfl rfl (fun _ member => List.mem_cons_of_mem _ member) List.mem_cons_self
    ?_ ?_
  · intro other member known
    have old := oldSink other member fun same => unused (same ▸ known)
    exact ⟨other, old, rfl, rfl⟩
  · intro i pa here other member different tracks
    have old := oldSink other member different
    refine ⟨old, ?_⟩
    intro fresh
    have renamed := renamed_of_known kept here tracks.known
    have same := lastSome_of_server kept old renamed fun _ asked =>
      answerFor_create kept old unused unnamed asked
    exact fresh.of_destined (destined_congr same rfl rfl)

/-- What is searched for is found in a part of the list, unless it is what was left out. -/
theorem search_filter {α κ : Type*} [DecidableEq κ] {key : α → κ} {list : List α} (distinct : Distinct key list)
    (p : α → Bool) (k : κ) : search key (list.filter p) k = (search key list k).bind (Option.guard p) := by
  have distinct' : Distinct key (list.filter p) := distinct.sublist (List.filter_sublist.map key)
  cases found : search key list k with
  | none =>
    have absent := search_eq_none.mp found
    exact search_eq_none.mpr fun a member => absent a (List.mem_of_mem_filter member)
  | some a =>
    obtain ⟨member, rfl⟩ := search_eq_some found
    rw [Option.bind_some, Option.guard]
    split_ifs with kept
    · exact search_of_mem distinct' (List.mem_filter.mpr ⟨member, kept⟩)
    · refine search_eq_none.mpr fun other otherMember same => kept ?_
      obtain ⟨otherMember, otherKept⟩ := List.mem_filter.mp otherMember
      rw [← distinct.eq_of_key otherMember member same]
      exact otherKept

theorem answerFor_remove {server : Server} (wellFormed : server.WellFormed) (index : UInt32) (i : Nat)
    (request : Request) :
    Server.answerFor { server with sinks := server.sinks.filter fun info => info.index ≠ index } i request =
      (server.answerFor i request).bind (Option.guard fun info => decide (info.index ≠ index)) := by
  have byName := search_filter wellFormed.names fun info => decide (info.index ≠ index)
  have byIndex := search_filter wellFormed.indexes fun info => decide (info.index ≠ index)
  cases request with
  | sinkInfoByName name pa | sinkInfoByIndex name pa =>
    simp only [Server.answerFor, Server.byName, Server.byIndex, byName, byIndex]
    split_ifs <;> rfl
  | _ => rfl

theorem kept_of_remove {s s' : System} {index : UInt32} (kept : Kept percent s)
    (taken : step percent s (.remove index) = some s') : Kept percent s' := by
  cases found : s.server.byIndex index with
  | none => simp only [step, found, reduceCtorEq] at taken
  | some target =>
    simp only [step, found] at taken
    split_ifs at taken with isDefault
    cases taken
    obtain ⟨targetMember, rfl⟩ := search_eq_some found
    obtain ⟨sinkNames, sinkIndexes, used, ⟨defaultInfo, defaultMember, default⟩⟩ := kept.wellFormed
    have left : ∀ info, info ∈ s.server.sinks.filter (fun info => info.index ≠ target.index) →
        info ∈ s.server.sinks := fun info member => List.mem_of_mem_filter member
    refine kept_of_replaced kept ⟨?_, ?_, ?_, ?_⟩ rfl rfl (fun _ member => member) (used target targetMember) ?_ ?_
    · exact sinkNames.sublist (List.filter_sublist.map _)
    · exact sinkIndexes.sublist (List.filter_sublist.map _)
    · exact fun info member => used info (left info member)
    · refine ⟨defaultInfo, List.mem_filter.mpr ⟨defaultMember, ?_⟩, default⟩
      rw [decide_eq_true_eq]
      intro same
      rw [kept.wellFormed.eq_of_index defaultMember targetMember same] at default
      exact isDefault default
    · exact fun info member _ => ⟨info, left info member, rfl, rfl⟩
    · intro i pa here info member other tracks
      refine ⟨left info member, ?_⟩
      refine upToDate_replaced (answerFor_remove kept.wellFormed target.index i) ?_ other
      intro answer apart
      exact if_pos (decide_eq_true apart)

theorem kept_of_setDefault {s s' : System} {name : Text} (kept : Kept percent s)
    (orderly : Orderly percent s (.setDefault name)) (taken : step percent s (.setDefault name) = some s') :
    Kept percent s' := by
  simp only [step] at taken
  split_ifs at taken with found
  cases taken
  obtain ⟨target, found⟩ := Option.isSome_iff_exists.mp found
  obtain ⟨announcing, returning⟩ := orderly
  obtain ⟨sinkNames, sinkIndexes, used, -⟩ := kept.wellFormed
  refine ⟨⟨sinkNames, sinkIndexes, used, target, search_eq_some found⟩, kept.ordered, kept.requestBound,
    kept.replyBound, kept.eventKnown, kept.indexKnown, ?_, kept.renamed, kept.default, announcing, ?_, ?_⟩
  · intro i pa key here named
    obtain ⟨held, replies, requests⟩ := kept.own i pa key here named
    refine ⟨held, replies, ?_⟩
    intro request member
    have asks := requests request member
    cases request <;> exact asks
  · intro i pa info here member tracks
    have bound := (List.getElem?_eq_some_iff.mp here).1
    have awaited : Awaited percent s i info := by
      rcases tracks with named | ⟨default, settled⟩
      · exact kept.awaited i pa info here member (.inl named)
      · have now : info.name = name := settled.2.1.symm
        exact returning i bound pa here default (now ▸ settled) info member now
    have renamed := renamed_of_known kept here tracks.known
    refine awaited.of_destined (destined_congr (lastSome_of_server kept member renamed ?_) rfl rfl) id
    intro request asked differs
    cases request with
    | sinkInfoByName key j =>
      by_cases own : j = i
      · subst j
        refine ⟨key, ?_, rfl⟩
        rintro rfl
        exact differs rfl
      · simp only [Server.answerFor, if_neg own] at differs
        exact absurd rfl differs
    | _ => exact absurd rfl differs
  · intro unheard
    obtain ⟨replies, events, unknown, empty, pending, named⟩ := kept.unsubscribed unheard
    exact ⟨replies, events, unknown, empty, pending, named⟩

end SlStatus.SinkChanges
