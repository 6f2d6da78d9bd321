import SlStatus.Display

/-! `components/pa.c`: the queue of sinks, the callbacks that fill its entries, and the display
functions. A pointer to an entry is its place in the queue, which only grows at its tail. The
functions return the requests that they send to the server. -/

namespace SlStatus.PulseAudio
open CString Display

/-- `pa_t`. -/
structure Pa where
  sink : Option Text
  name : Option Text
  description : Option Text
  index : UInt32
  volume : Int
  mute : Int
  deriving DecidableEq

/-- What the callback reads of a `pa_sink_info`, `volume` being that of the loudest channel. -/
structure SinkInfo where
  index : UInt32
  name : Text
  description : Text
  volume : UInt32
  mute : Int
  deriving DecidableEq

inductive Request where
  | subscribe
  | serverInfo
  | sinkInfoByName (name : Option Text) (pa : Nat)
  | sinkInfoByIndex (index : UInt32) (pa : Nat)
  deriving DecidableEq

/-- The facility of a subscription event. -/
inductive Facility where
  | sink | other
  deriving DecidableEq

/-- `"@DEFAULT_SINK@"`. -/
def defaultSink : Text :=
  ⟨[0x40, 0x44, 0x45, 0x46, 0x41, 0x55, 0x4C, 0x54, 0x5F, 0x53, 0x49, 0x4E, 0x4B, 0x40], by decide⟩

/-- `"@DEFAULT_AUDIO_SINK@"`. -/
def defaultAudioSink : Text :=
  ⟨[0x40, 0x44, 0x45, 0x46, 0x41, 0x55, 0x4C, 0x54, 0x5F, 0x41, 0x55, 0x44, 0x49, 0x4F, 0x5F, 0x53, 0x49, 0x4E, 0x4B,
    0x40], by decide⟩

def paFindByIndex (queue : List Pa) (index : UInt32) : Option Nat := queue.findIdx? fun pa => pa.index = index

/-- The test of the search, `none` where it passes `NULL` to `strcmp`. -/
def Pa.matches (pa : Pa) (sink : Option Text) : Option Bool :=
  match sink, pa.sink with
  | none, key => some key.isNone
  | some _, none => none
  | some sink, some key => some (key = sink)

/-- The place of the first match, if there is one; `none` where a test has no result. -/
def searchSink : List Pa → Option Text → Option (Option Nat)
  | [], _ => some none
  | pa :: rest, sink =>
      match pa.matches sink with
      | none => none
      | some true => some (some 0)
      | some false => (searchSink rest sink).map (Option.map (· + 1))

/-- What the entry that a lookup creates has for its sink. -/
def sinkKey (sink : Option Text) : Option Text :=
  if sink = none ∨ sink = some defaultSink ∨ sink = some defaultAudioSink then none else sink

/-- An entry as `calloc` leaves it. -/
def newEntry (sink : Option Text) : Pa :=
  { sink := sinkKey sink, name := none, description := none, index := 0, volume := 0, mute := 0 }

def paFindBySink (queue : List Pa) (sink : Option Text) : Option (Nat × List Pa × List Request) :=
  (searchSink queue sink).map fun found =>
    match found with
    | some pa => (pa, queue, [])
    | none => (queue.length, queue ++ [newEntry sink], [.sinkInfoByName (sinkKey sink) queue.length])

/-- `percent` is the floating-point conversion of a volume. The second component tells whether
`SIGRTMIN + PA_SIGNAL` is raised. -/
def paSinkInfoCallback (percent : UInt32 → Int) (info : Option SinkInfo) (eol : Int) (pa : Pa) : Pa × Bool :=
  match info with
  | none => (pa, false)
  | some info =>
      if eol = 0 then
        let (pa, signal) := if info.index ≠ pa.index then ({ pa with index := info.index }, true) else (pa, false)
        let volume := percent info.volume
        let (pa, signal) := if volume ≠ pa.volume then ({ pa with volume }, true) else (pa, signal)
        let (pa, signal) := if info.mute ≠ pa.mute then ({ pa with mute := info.mute }, true) else (pa, signal)
        ({ pa with name := some info.name, description := some info.description }, signal)
      else (pa, false)

/-- Takes `pa_default_sink` and returns it behind the queue. -/
def serverInfoCallback (queue : List Pa) (paDefaultSink : Option Text) (defaultSinkName : Text) :
    Option (List Pa × Option Text × List Request) :=
  if paDefaultSink = some defaultSinkName then some (queue, paDefaultSink, [])
  else
    let paDefaultSink := some defaultSinkName
    (paFindBySink queue none).map fun (pa, queue, requests) =>
      (queue, paDefaultSink, requests ++ [.sinkInfoByName paDefaultSink pa])

def paSubscribeCallback (queue : List Pa) (facility : Facility) (idx : UInt32) : List Request :=
  match facility with
  | .other => []
  | .sink =>
      match paFindByIndex queue idx with
      | some pa => [.sinkInfoByIndex idx pa]
      | none => [.serverInfo]

/-- What `pa_state_callback` asks for once the context is ready. -/
def paReady : List Request := [.subscribe, .serverInfo]

/-- A display function looks its sink up and shows something of the entry. -/
def display (text : Pa → Option Text) (queue : List Pa) (sink : Option Text) :
    Option (Option Text × List Pa × List Request) :=
  (paFindBySink queue sink).map fun (pa, queue, requests) => (queue[pa]?.bind text, queue, requests)

def lineText (pa : Pa) : Option Text :=
  let icon :=
    if pa.mute ≠ 0 then icon 0x96 0x81 (by decide)
    else
      pick [(34, icon 0x95 0xBF (by decide)), (67, icon 0x96 0x80 (by decide))] (icon 0x95 0xBE (by decide))
        pa.volume
  bprintf (icon ++ space ++ decimal pa.volume ++ percentSign)

/-- `"+"` and `"-"`. -/
def muteText (pa : Pa) : Text := if pa.mute ≠ 0 then ⟨[0x2B], by decide⟩ else ⟨[0x2D], by decide⟩

def paLine := display lineText

def paDescription := display Pa.description

def paMute := display fun pa => some (muteText pa)

def paName := display Pa.name

def paPerc := display fun pa => bprintf (decimal pa.volume)

theorem matches_self (pa : Pa) : pa.matches pa.sink = some true := by
  unfold Pa.matches
  cases pa.sink <;> simp

theorem matches_other {pa : Pa} {sink : Option Text} (named : sink = none ∨ pa.sink ≠ none)
    (different : pa.sink ≠ sink) : pa.matches sink = some false := by
  unfold Pa.matches
  cases sink with
  | none => simpa [Option.isSome_iff_ne_none] using different
  | some name =>
    obtain ⟨key, keyed⟩ := Option.ne_none_iff_exists'.mp (named.resolve_left (Option.some_ne_none name))
    rw [keyed] at different
    simpa [keyed] using different

theorem matches_null {pa : Pa} (default : pa.sink = none) (name : Text) : pa.matches (some name) = none := by
  simp only [Pa.matches, default]

theorem searchSink_absent {queue : List Pa} {sink : Option Text} (absent : ∀ pa ∈ queue, pa.sink ≠ sink)
    (named : sink = none ∨ ∀ pa ∈ queue, pa.sink ≠ none) : searchSink queue sink = some none := by
  induction queue with
  | nil => rfl
  | cons pa rest ih =>
    have different := matches_other (named.imp_right fun all => all pa List.mem_cons_self)
      (absent pa List.mem_cons_self)
    have tail := ih (fun other member => absent other (List.mem_cons_of_mem _ member))
      (named.imp_right fun all other member => all other (List.mem_cons_of_mem _ member))
    simp only [searchSink, different, tail, Option.map_some, Option.map_none]

/-- A search for a name that is not queued comes to the entry of the default sink. -/
theorem searchSink_undefined {queue : List Pa} {name : Text} (absent : ∀ pa ∈ queue, pa.sink ≠ some name)
    (default : ∃ pa ∈ queue, pa.sink = none) : searchSink queue (some name) = none := by
  induction queue with
  | nil => simp at default
  | cons pa rest ih =>
    by_cases null : pa.sink = none
    · simp only [searchSink, matches_null null]
    · have different := matches_other (.inr null) (absent pa List.mem_cons_self)
      obtain ⟨other, member, here⟩ := default
      have behind : other ∈ rest := by
        rcases List.mem_cons.mp member with rfl | behind
        · exact absurd here null
        · exact behind
      have tail := ih (fun pa member => absent pa (List.mem_cons_of_mem _ member)) ⟨other, behind, here⟩
      simp only [searchSink, different, tail, Option.map_none]

theorem sinkKey_sinkKey (sink : Option Text) : sinkKey (sinkKey sink) = sinkKey sink := by
  by_cases default : sink = none ∨ sink = some defaultSink ∨ sink = some defaultAudioSink
  · simp [sinkKey, default]
  · simp [sinkKey, default]

/-- An argument is kept as it is, or it denotes the default sink. -/
theorem sinkKey_cases (sink : Option Text) : sinkKey sink = sink ∨ sinkKey sink = none := by
  unfold sinkKey
  split_ifs
  · exact .inr rfl
  · exact .inl rfl

/-- The sinks are distinct, none is an alias, and an entry for the default sink comes last. -/
structure Ordered (queue : List Pa) : Prop where
  apart : queue.Pairwise fun pa later => pa.sink ≠ none ∧ pa.sink ≠ later.sink
  keyed : ∀ pa ∈ queue, sinkKey pa.sink = pa.sink

theorem Ordered.nil : Ordered [] := ⟨.nil, nofun⟩

theorem Ordered.nodup {queue : List Pa} (ordered : Ordered queue) : (queue.map Pa.sink).Nodup :=
  List.pairwise_map.mpr (ordered.apart.imp And.right)

theorem Ordered.index_eq {queue : List Pa} (ordered : Ordered queue) {i j : Nat} {pa other : Pa}
    (here : queue[i]? = some pa) (there : queue[j]? = some other) (same : pa.sink = other.sink) : i = j := by
  have bound : i < (queue.map Pa.sink).length := by
    rw [List.length_map]
    exact (List.getElem?_eq_some_iff.mp here).1
  refine (List.getElem?_inj bound ordered.nodup).mp ?_
  rw [List.getElem?_map, List.getElem?_map, here, there, Option.map_some, Option.map_some, same]

theorem Ordered.of_sinks {queue queue' : List Pa} (ordered : Ordered queue)
    (same : queue'.map Pa.sink = queue.map Pa.sink) : Ordered queue' := by
  constructor
  · have sinks : (queue.map Pa.sink).Pairwise fun sink later => sink ≠ none ∧ sink ≠ later :=
      List.pairwise_map.mpr ordered.apart
    rw [← same] at sinks
    exact List.pairwise_map.mp sinks
  · intro pa member
    obtain ⟨other, otherMember, sink⟩ := List.mem_map.mp (same ▸ List.mem_map_of_mem member)
    rw [← sink]
    exact ordered.keyed other otherMember

/-- The search finds the entry of a sink that is queued. -/
theorem searchSink_of_queued {queue : List Pa} (ordered : Ordered queue) {i : Nat} {pa : Pa}
    (here : queue[i]? = some pa) : searchSink queue pa.sink = some (some i) := by
  have apart := ordered.apart
  clear ordered
  induction queue generalizing i with
  | nil => simp at here
  | cons first rest ih =>
    obtain ⟨ahead, apart⟩ := List.pairwise_cons.mp apart
    cases i with
    | zero =>
      obtain rfl : first = pa := by simpa using here
      simp only [searchSink, matches_self]
    | succ i =>
      rw [List.getElem?_cons_succ] at here
      obtain ⟨named, different⟩ := ahead pa (List.mem_of_getElem? here)
      have tail := ih here apart
      simp only [searchSink, matches_other (.inr named) different, tail, Option.map_some]

theorem paFindBySink_hit {queue : List Pa} (ordered : Ordered queue) {i : Nat} {pa : Pa}
    (here : queue[i]? = some pa) : paFindBySink queue pa.sink = some (i, queue, []) := by
  simp only [paFindBySink, searchSink_of_queued ordered here, Option.map_some]

theorem paFindBySink_miss {queue : List Pa} {sink : Option Text} (absent : ∀ pa ∈ queue, pa.sink ≠ sink)
    (named : sink = none ∨ ∀ pa ∈ queue, pa.sink ≠ none) :
    paFindBySink queue sink =
      some (queue.length, queue ++ [newEntry sink], [.sinkInfoByName (sinkKey sink) queue.length]) := by
  simp only [paFindBySink, searchSink_absent absent named, Option.map_some]

theorem paFindBySink_undefined {queue : List Pa} {name : Text} (absent : ∀ pa ∈ queue, pa.sink ≠ some name)
    (default : ∃ pa ∈ queue, pa.sink = none) : paFindBySink queue (some name) = none := by
  simp only [paFindBySink, searchSink_undefined absent default, Option.map_none]

/-- A lookup finds its entry, makes one, or compares `NULL`. -/
theorem paFindBySink_cases {queue : List Pa} (ordered : Ordered queue) (sink : Option Text) :
    (∃ i pa, queue[i]? = some pa ∧ pa.sink = sink ∧ paFindBySink queue sink = some (i, queue, [])) ∨
    ((∀ pa ∈ queue, pa.sink ≠ sink) ∧ (sink = none ∨ ∀ pa ∈ queue, pa.sink ≠ none) ∧
      paFindBySink queue sink =
        some (queue.length, queue ++ [newEntry sink], [.sinkInfoByName (sinkKey sink) queue.length])) ∨
    (sink ≠ none ∧ (∀ pa ∈ queue, pa.sink ≠ sink) ∧ (∃ pa ∈ queue, pa.sink = none) ∧
      paFindBySink queue sink = none) := by
  by_cases queued : ∃ pa ∈ queue, pa.sink = sink
  · obtain ⟨pa, member, rfl⟩ := queued
    obtain ⟨i, here⟩ := List.mem_iff_getElem?.mp member
    exact .inl ⟨i, pa, here, rfl, paFindBySink_hit ordered here⟩
  · push Not at queued
    by_cases named : sink = none ∨ ∀ pa ∈ queue, pa.sink ≠ none
    · exact .inr (.inl ⟨queued, named, paFindBySink_miss queued named⟩)
    · push Not at named
      obtain ⟨given, default⟩ := named
      obtain ⟨name, rfl⟩ := Option.ne_none_iff_exists'.mp given
      exact .inr (.inr ⟨given, queued, default, paFindBySink_undefined queued default⟩)

/-- What no search finds, no entry is kept under. -/
theorem absent_sinkKey {queue : List Pa} {sink : Option Text} (absent : ∀ pa ∈ queue, pa.sink ≠ sink)
    (named : sink = none ∨ ∀ pa ∈ queue, pa.sink ≠ none) : ∀ pa ∈ queue, pa.sink ≠ sinkKey sink := by
  intro pa member
  rcases sinkKey_cases sink with same | default
  · rw [same]
    exact absent pa member
  · rw [default]
    rcases named with rfl | named
    · exact absent pa member
    · exact named pa member

theorem Ordered.append {queue : List Pa} (ordered : Ordered queue) {sink : Option Text}
    (absent : ∀ pa ∈ queue, pa.sink ≠ sink) (named : sink = none ∨ ∀ pa ∈ queue, pa.sink ≠ none) :
    Ordered (queue ++ [newEntry sink]) := by
  have allNamed : ∀ pa ∈ queue, pa.sink ≠ none := by
    intro pa member
    rcases named with rfl | named
    · exact absent pa member
    · exact named pa member
  constructor
  · refine List.pairwise_append.mpr ⟨ordered.apart, List.pairwise_singleton _ _, ?_⟩
    intro pa member created here
    rw [List.mem_singleton.mp here]
    exact ⟨allNamed pa member, absent_sinkKey absent named pa member⟩
  · intro pa member
    rcases List.mem_append.mp member with member | member
    · exact ordered.keyed pa member
    · rw [List.mem_singleton.mp member]
      exact sinkKey_sinkKey sink

/-- A lookup that returns leaves the entries where they are and the queue ordered, and what it
returns has the key of its argument. -/
theorem Ordered.lookup {queue queue' : List Pa} (ordered : Ordered queue) {sink : Option Text} {pa : Nat}
    {requests : List Request} (found : paFindBySink queue sink = some (pa, queue', requests)) :
    Ordered queue' ∧ queue <+: queue' ∧ (queue'[pa]?).map Pa.sink = some (sinkKey sink) := by
  rcases paFindBySink_cases ordered sink with ⟨i, entry, here, rfl, hit⟩ | ⟨absent, named, miss⟩ | ⟨-, -, -, undefined⟩
  · rw [found] at hit
    cases hit
    refine ⟨ordered, List.prefix_rfl, ?_⟩
    rw [here, Option.map_some, ordered.keyed entry (List.mem_of_getElem? here)]
  · rw [found] at miss
    cases miss
    refine ⟨ordered.append absent named, List.prefix_append _ _, ?_⟩
    simp [newEntry]
  · rw [found] at undefined
    cases undefined

/-- An answer replaces all that is kept of the sink, and signals unless the numbers stay. -/
theorem paSinkInfoCallback_eq (percent : UInt32 → Int) (info : SinkInfo) (pa : Pa) :
    paSinkInfoCallback percent (some info) 0 pa =
      ({ sink := pa.sink, name := some info.name, description := some info.description, index := info.index,
         volume := percent info.volume, mute := info.mute },
        decide (info.index ≠ pa.index ∨ percent info.volume ≠ pa.volume ∨ info.mute ≠ pa.mute)) := by
  obtain ⟨sink, name, description, index, volume, mute⟩ := pa
  simp only [paSinkInfoCallback, if_true]
  split_ifs <;> simp_all

theorem paSinkInfoCallback_sink (percent : UInt32 → Int) (info : Option SinkInfo) (eol : Int) (pa : Pa) :
    (paSinkInfoCallback percent info eol pa).1.sink = pa.sink := by
  cases info with
  | none => rfl
  | some info =>
    by_cases more : eol = 0
    · rw [more, paSinkInfoCallback_eq]
    · simp only [paSinkInfoCallback, if_neg more]

end SlStatus.PulseAudio
