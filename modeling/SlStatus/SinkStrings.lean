import SlStatus.Ownership
import SlStatus.SinkLookup

/-! The strings of `components/pa.c` in memory: those of the entries and `pa_default_sink`, each of them a copy
that is given back before it is replaced. What the calls do through the pointers is what they
do on texts, and the teardown gives everything back. -/

namespace SlStatus.SinkStrings
open CString Display PulseAudio SinkLookup Runs Ownership

variable {Block : Type}

/-- `pa_t`, with its pointers. -/
structure PaT (Block : Type) where
  sink : Option Block
  name : Option Block
  description : Option Block
  index : UInt32
  volume : Int
  mute : Int

/-- The strings that are allocated, `pa_queue` and `pa_default_sink`. -/
structure Heap (Block : Type) where
  strings : Store Block Text
  queue : List (PaT Block)
  paDefaultSink : Option Block

/-- An entry as `calloc` leaves it, with its sink. -/
def callocEntry (sink : Option Block) : PaT Block :=
  { sink, name := none, description := none, index := 0, volume := 0, mute := 0 }

def started : Heap Block := { strings := fun _ => none, queue := [], paDefaultSink := none }

section Definitions

def paFindByIndex (queue : List (PaT Block)) (index : UInt32) : Option Nat :=
  queue.findIdx? fun pa => pa.index = index

/-- The test of the search, `none` where `strcmp` is passed `NULL` or a pointer that leads nowhere. -/
def PaT.matches (strings : Store Block Text) (pa : PaT Block) : Option Text → Option Bool
  | none => some pa.sink.isNone
  | some sink => do
      let b ← pa.sink
      let key ← strings b
      pure (key = sink)

def searchSink (strings : Store Block Text) : List (PaT Block) → Option Text → Option (Option Nat)
  | [], _ => some none
  | pa :: rest, sink => do
      if ← pa.matches strings sink then pure (some 0)
      else do
        let found ← searchSink strings rest sink
        pure (found.map (· + 1))

variable [DecidableEq Block] (malloc : Store Block Text → Block) (percent : UInt32 → Int)

/-- A request takes the text that the pointer leads to at that time. -/
def paFindBySink (heap : Heap Block) (sink : Option Text) : Option (Nat × Heap Block × List Request) := do
  match ← searchSink heap.strings heap.queue sink with
  | some pa => pure (pa, heap, [])
  | none => do
      let (key, strings) :=
        match sinkKey sink with
        | none => (none, heap.strings)
        | some sink =>
            let (b, strings) := heap.strings.strdup malloc sink
            (some b, strings)
      let pa := callocEntry key
      let asked ← strings.read pa.sink
      pure (heap.queue.length, { heap with strings, queue := heap.queue ++ [pa] },
        [.sinkInfoByName asked heap.queue.length])

def paSinkInfoCallback (info : Option SinkInfo) (eol : Int) (strings : Store Block Text) (pa : PaT Block) :
    Option (PaT Block × Store Block Text × Bool) :=
  match info with
  | none => some (pa, strings, false)
  | some info =>
      if eol = 0 then do
        let (pa, signal) := if info.index ≠ pa.index then ({ pa with index := info.index }, true) else (pa, false)
        let volume := percent info.volume
        let (pa, signal) := if volume ≠ pa.volume then ({ pa with volume }, true) else (pa, signal)
        let (pa, signal) := if info.mute ≠ pa.mute then ({ pa with mute := info.mute }, true) else (pa, signal)
        let (name, strings) ← strings.renew malloc pa.name info.name
        let pa := { pa with name := some name }
        let (description, strings) ← strings.renew malloc pa.description info.description
        pure ({ pa with description := some description }, strings, signal)
      else some (pa, strings, false)

def serverInfoCallback (heap : Heap Block) (defaultSinkName : Text) : Option (Heap Block × List Request) := do
  if (← heap.strings.read heap.paDefaultSink) = some defaultSinkName then pure (heap, [])
  else do
    let (b, strings) ← heap.strings.renew malloc heap.paDefaultSink defaultSinkName
    let (pa, heap, requests) ← paFindBySink malloc { heap with strings, paDefaultSink := some b } none
    let asked ← heap.strings.read heap.paDefaultSink
    pure (heap, requests ++ [.sinkInfoByName asked pa])

def paSubscribeCallback (queue : List (PaT Block)) (facility : Facility) (idx : UInt32) : List Request :=
  match facility with
  | .other => []
  | .sink =>
      match paFindByIndex queue idx with
      | some pa => [.sinkInfoByIndex idx pa]
      | none => [.serverInfo]

/-- The entry without its strings. -/
def PaT.numbers (pa : PaT Block) : Pa :=
  { sink := none, name := none, description := none, index := pa.index, volume := pa.volume, mute := pa.mute }

/-- What a display function shows of its entry: a string that the entry points to, or a text made from the
numbers. -/
def shown (strings : Store Block Text) (pa : PaT Block) : SinkLookup.Display → Option (Option Text)
  | .description => strings.read pa.description
  | .name => strings.read pa.name
  | function => some (function.text pa.numbers)

def display (function : SinkLookup.Display) (heap : Heap Block) (sink : Option Text) :
    Option (Option Text × Heap Block × List Request) := do
  let (pa, heap, requests) ← paFindBySink malloc heap sink
  let entry ← heap.queue[pa]?
  let text ← shown heap.strings entry function
  pure (text, heap, requests)

/-- With the requests that are sent, and whether the signal is raised. -/
def Heap.call (heap : Heap Block) : Call → Option (Heap Block × List Request × Bool)
  | .display function sink =>
      (display malloc function heap sink).map fun (_, heap, requests) => (heap, requests, false)
  | .sinkInfo info eol pa => do
      let entry ← heap.queue[pa]?
      let (entry, strings, signal) ← paSinkInfoCallback malloc percent info eol heap.strings entry
      pure ({ heap with strings, queue := heap.queue.set pa entry }, [], signal)
  | .serverInfo defaultSinkName =>
      (serverInfoCallback malloc heap defaultSinkName).map fun (heap, requests) => (heap, requests, false)
  | .subscribe facility idx => some (heap, paSubscribeCallback heap.queue facility idx, false)

/-- What `pa_free` gives back of each entry that it takes out. -/
def freeEntries : List (PaT Block) → Store Block Text → Option (Store Block Text)
  | [], strings => some strings
  | pa :: rest, strings => do
      let strings ← strings.release pa.sink
      let strings ← strings.release pa.name
      let strings ← strings.release pa.description
      freeEntries rest strings

def paFree (heap : Heap Block) : Option (Heap Block) := do
  let strings ← freeEntries heap.queue heap.strings
  let strings ← strings.release heap.paDefaultSink
  pure { strings, queue := [], paDefaultSink := none }

end Definitions

def PaT.owned (pa : PaT Block) : List Block := pa.sink.toList ++ (pa.name.toList ++ pa.description.toList)

def Heap.owned (heap : Heap Block) : List Block := heap.paDefaultSink.toList ++ heap.queue.flatMap PaT.owned

/-- The entry with the texts that its pointers lead to. -/
def view (strings : Store Block Text) (pa : PaT Block) : Option Pa := do
  let sink ← strings.read pa.sink
  let name ← strings.read pa.name
  let description ← strings.read pa.description
  pure { sink, name, description, index := pa.index, volume := pa.volume, mute := pa.mute }

/-- What is in memory is the queue of texts, and every string belongs to one pointer. -/
structure Related (heap : Heap Block) (client : Client) : Prop where
  queue : heap.queue.map (view heap.strings) = client.queue.map some
  default : heap.strings.read heap.paDefaultSink = some client.paDefaultSink
  owns : Owns heap.strings heap.owned

theorem related_started : Related (started : Heap Block) initial := by
  constructor
  · rfl
  · rfl
  · exact owns_nothing

/-- A view has the numbers of the entry, and the texts. -/
theorem view_eq {strings : Store Block Text} {pa : PaT Block} {entry : Pa} :
    view strings pa = some entry ↔ strings.read pa.sink = some entry.sink ∧ strings.read pa.name = some entry.name ∧
      strings.read pa.description = some entry.description ∧ pa.index = entry.index ∧ pa.volume = entry.volume ∧
      pa.mute = entry.mute := by
  obtain ⟨sink, name, description, index, volume, mute⟩ := entry
  unfold view
  cases strings.read pa.sink with
  | none => simp
  | some sink' =>
    cases strings.read pa.name with
    | none => simp
    | some name' => cases strings.read pa.description <;> simp

/-- What an entry does not own does not show in it. -/
theorem view_kept {strings strings' : Store Block Text} {pa : PaT Block} (kept : Kept strings strings' pa.owned) :
    view strings' pa = view strings pa := by
  have sink : strings'.read pa.sink = strings.read pa.sink :=
    (kept.mono (List.subset_append_left _ _)).read
  have rest := kept.mono (List.subset_append_right _ _)
  have name : strings'.read pa.name = strings.read pa.name :=
    (rest.mono (List.subset_append_left _ _)).read
  have description : strings'.read pa.description = strings.read pa.description :=
    (rest.mono (List.subset_append_right _ _)).read
  unfold view
  rw [sink, name, description]

theorem views_kept {strings strings' : Store Block Text} {queue : List (PaT Block)}
    (kept : Kept strings strings' (queue.flatMap PaT.owned)) : queue.map (view strings') = queue.map (view strings) := by
  apply List.map_congr_left
  intro pa member
  apply view_kept
  intro b owned
  exact kept b (List.mem_flatMap.mpr ⟨pa, member, owned⟩)

theorem matches_eq {strings : Store Block Text} {pa : PaT Block} {entry : Pa} (viewed : view strings pa = some entry)
    (sink : Option Text) : pa.matches strings sink = entry.matches sink := by
  obtain ⟨read, -⟩ := view_eq.mp viewed
  cases sink with
  | none =>
    cases owned : pa.sink with
    | none =>
      rw [owned] at read
      simp [PaT.matches, Pa.matches, owned, ← Option.some.inj read]
    | some b =>
      rw [owned] at read
      obtain ⟨key, -, same⟩ := Option.map_eq_some_iff.mp read
      simp [PaT.matches, Pa.matches, owned, ← same]
  | some sink =>
    cases owned : pa.sink with
    | none =>
      rw [owned] at read
      simp [PaT.matches, Pa.matches, owned, ← Option.some.inj read]
    | some b =>
      rw [owned] at read
      obtain ⟨key, here, same⟩ := Option.map_eq_some_iff.mp read
      simp [PaT.matches, Pa.matches, owned, here, ← same]

theorem searchSink_eq {strings : Store Block Text} {queue : List (PaT Block)} {entries : List Pa}
    (viewed : queue.map (view strings) = entries.map some) (sink : Option Text) :
    searchSink strings queue sink = PulseAudio.searchSink entries sink := by
  induction queue generalizing entries with
  | nil =>
    obtain rfl : entries = [] := by simpa using viewed.symm
    rfl
  | cons pa queue ih =>
    cases entries with
    | nil => cases viewed
    | cons entry entries =>
      obtain ⟨here, rest⟩ := List.cons.inj viewed
      rw [searchSink, PulseAudio.searchSink, matches_eq here, ih rest]
      cases entry.matches sink with
      | none => rfl
      | some same =>
        cases same with
        | true => rfl
        | false => cases PulseAudio.searchSink entries sink <;> rfl

theorem findByIndex_eq {strings : Store Block Text} {queue : List (PaT Block)} {entries : List Pa}
    (viewed : queue.map (view strings) = entries.map some) (index : UInt32) :
    paFindByIndex queue index = PulseAudio.paFindByIndex entries index := by
  induction queue generalizing entries with
  | nil =>
    obtain rfl : entries = [] := by simpa using viewed.symm
    rfl
  | cons pa queue ih =>
    cases entries with
    | nil => cases viewed
    | cons entry entries =>
      obtain ⟨here, rest⟩ := List.cons.inj viewed
      obtain ⟨-, -, -, same, -⟩ := view_eq.mp here
      have tail := ih rest
      unfold paFindByIndex PulseAudio.paFindByIndex at tail ⊢
      rw [List.findIdx?_cons, List.findIdx?_cons, same, tail]

theorem searchSink_lt {queue : List Pa} {sink : Option Text} {i : Nat}
    (found : PulseAudio.searchSink queue sink = some (some i)) : i < queue.length := by
  induction queue generalizing i with
  | nil => cases found
  | cons pa queue ih =>
    rw [PulseAudio.searchSink] at found
    cases same : pa.matches sink with
    | none =>
      rw [same] at found
      cases found
    | some same' =>
      cases same' with
      | true =>
        rw [same] at found
        cases found
        exact Nat.zero_lt_succ _
      | false =>
        rw [same] at found
        obtain ⟨place, there, shifted⟩ := Option.map_eq_some_iff.mp found
        obtain ⟨j, rfl, rfl⟩ := Option.map_eq_some_iff.mp shifted
        exact Nat.succ_lt_succ (ih there)

theorem shown_eq {strings : Store Block Text} {pa : PaT Block} {entry : Pa} (viewed : view strings pa = some entry)
    (function : SinkLookup.Display) : shown strings pa function = some (function.text entry) := by
  obtain ⟨-, name, description, index, volume, mute⟩ := view_eq.mp viewed
  cases function with
  | description => exact description
  | name => exact name
  | line => simp only [shown, SinkLookup.Display.text, lineText, PaT.numbers, volume, mute]
  | mute => simp only [shown, SinkLookup.Display.text, muteText, PaT.numbers, mute]
  | perc => simp only [shown, SinkLookup.Display.text, PaT.numbers, volume]

section Queue

variable {heap : Heap Block} {client : Client}

/-- An entry is put at the tail, with what it owns. -/
theorem Related.append (related : Related heap client) {strings : Store Block Text} {pa : PaT Block} {entry : Pa}
    (kept : Kept heap.strings strings heap.owned) (viewed : view strings pa = some entry)
    (owns : Owns strings (pa.owned ++ heap.owned)) :
    Related { heap with strings, queue := heap.queue ++ [pa] } { client with queue := client.queue ++ [entry] } := by
  have queued := views_kept (kept.mono (List.subset_append_right _ _))
  constructor
  · rw [List.map_append, List.map_append, List.map_singleton, List.map_singleton, viewed, queued, related.queue]
  · exact (kept.mono (List.subset_append_left _ _)).read.trans related.default
  · apply owns.perm
    show (pa.owned ++ heap.owned).Perm (heap.paDefaultSink.toList ++ (heap.queue ++ [pa]).flatMap PaT.owned)
    rw [List.flatMap_append, List.flatMap_singleton, ← List.append_assoc]
    exact List.perm_append_comm

/-- An entry is overwritten, with what it owns. -/
theorem Related.set (related : Related heap client) {i : Nat} {pa : PaT Block} (here : heap.queue[i]? = some pa) :
    ∃ rest, heap.owned.Perm (pa.owned ++ rest) ∧
      ∀ strings pa' entry, Kept heap.strings strings rest → view strings pa' = some entry →
        Owns strings (pa'.owned ++ rest) →
        Related { heap with strings, queue := heap.queue.set i pa' }
          { client with queue := client.queue.set i entry } := by
  obtain ⟨rest, split, replaced, others⟩ := flatMap_split PaT.owned here
  -- the default sink's block goes behind those of the entry
  have moved : ∀ blocks tail, List.Perm tail (blocks ++ rest) →
      List.Perm (heap.paDefaultSink.toList ++ tail) (blocks ++ (heap.paDefaultSink.toList ++ rest)) :=
    fun blocks tail same => (same.append_left _).trans (List.perm_append_comm_assoc _ blocks rest)
  refine ⟨heap.paDefaultSink.toList ++ rest, moved _ _ split, ?_⟩
  intro strings pa' entry kept viewed owns
  constructor
  · apply List.ext_getElem?
    intro j
    have before : (heap.queue.map (view heap.strings))[j]? = (client.queue.map some)[j]? := by rw [related.queue]
    rw [List.getElem?_map, List.getElem?_map] at before
    rw [List.getElem?_map, List.getElem?_map]
    by_cases same : j = i
    · subst j
      rw [here] at before
      have bound : i < client.queue.length := by
        by_contra beyond
        rw [List.getElem?_eq_none (Nat.not_lt.mp beyond)] at before
        cases before
      rw [List.getElem?_set_self (List.getElem?_eq_some_iff.mp here).1, List.getElem?_set_self bound, Option.map_some,
        Option.map_some, viewed]
    · rw [List.getElem?_set_ne (Ne.symm same), List.getElem?_set_ne (Ne.symm same), ← before]
      cases there : heap.queue[j]? with
      | none => rfl
      | some other =>
        have within : other.owned ⊆ heap.paDefaultSink.toList ++ rest :=
          fun b owned => List.mem_append_right _ (others j other same there owned)
        rw [Option.map_some, Option.map_some, view_kept (kept.mono within)]
  · exact (kept.mono (List.subset_append_left _ _)).read.trans related.default
  · exact owns.perm (moved _ _ (replaced pa')).symm

end Queue

section Steps

variable [DecidableEq Block] {malloc : Store Block Text → Block} {heap : Heap Block} {client : Client}

/-- The lookups both fail, or they give the same place and send the same, and leave alike what they leave. -/
theorem Related.lookup (allocates : Allocates malloc) (related : Related heap client) (sink : Option Text) :
    (paFindBySink malloc heap sink = none ∧ PulseAudio.paFindBySink client.queue sink = none) ∨
    ∃ pa heap' queue requests, paFindBySink malloc heap sink = some (pa, heap', requests) ∧
      PulseAudio.paFindBySink client.queue sink = some (pa, queue, requests) ∧ pa < queue.length ∧
      Related heap' { client with queue } := by
  have searched := searchSink_eq related.queue sink
  have sizes : heap.queue.length = client.queue.length := by simpa using congrArg List.length related.queue
  cases found : PulseAudio.searchSink client.queue sink with
  | none =>
    left
    constructor
    · simp only [paFindBySink, searched, found, Option.bind_eq_bind, Option.bind_none]
    · simp only [PulseAudio.paFindBySink, found, Option.map_none]
  | some place =>
    right
    cases place with
    | some pa =>
      refine ⟨pa, heap, client.queue, [], ?_, ?_, searchSink_lt found, related⟩
      · simp only [paFindBySink, searched, found, Option.bind_eq_bind, Option.bind_some, Option.pure_def]
      · simp only [PulseAudio.paFindBySink, found, Option.map_some]
    | none =>
      have given : PulseAudio.paFindBySink client.queue sink = some (client.queue.length,
          client.queue ++ [newEntry sink], [.sinkInfoByName (sinkKey sink) client.queue.length]) := by
        simp only [PulseAudio.paFindBySink, found, Option.map_some]
      have inside : client.queue.length < (client.queue ++ [newEntry sink]).length := by simp
      cases keyed : sinkKey sink with
      | none =>
        rw [keyed] at given
        refine ⟨_, { heap with queue := heap.queue ++ [callocEntry none] }, _, _, ?_, given, inside, ?_⟩
        · simp only [paFindBySink, searched, found, keyed, callocEntry, Store.read, sizes, Option.bind_eq_bind,
            Option.bind_some, Option.pure_def]
        · apply related.append (Kept.refl _ _)
          · exact view_eq.mpr ⟨by simp [newEntry, callocEntry, keyed, Store.read], rfl, rfl, rfl, rfl, rfl⟩
          · exact related.owns
      | some key =>
        rw [keyed] at given
        obtain ⟨owns, copied, kept⟩ := related.owns.strdup allocates key
        refine ⟨_, { heap with
          strings := (heap.strings.strdup malloc key).2,
          queue := heap.queue ++ [callocEntry (some (heap.strings.strdup malloc key).1)] }, _, _, ?_, given, inside, ?_⟩
        · simp only [paFindBySink, searched, found, keyed, callocEntry, Store.read, copied, sizes, Option.map_some,
            Option.bind_eq_bind, Option.bind_some, Option.pure_def]
        · apply related.append kept
          · exact view_eq.mpr ⟨by simp [newEntry, callocEntry, keyed, Store.read, copied], rfl, rfl, rfl, rfl, rfl⟩
          · exact owns

theorem paSinkInfoCallback_eq (percent : UInt32 → Int) (info : SinkInfo) (strings : Store Block Text) (pa : PaT Block) :
    paSinkInfoCallback malloc percent (some info) 0 strings pa =
      (strings.renew malloc pa.name info.name).bind fun (name, strings) =>
        (strings.renew malloc pa.description info.description).map fun (description, strings) =>
          ({ sink := pa.sink, name := some name, description := some description, index := info.index,
             volume := percent info.volume, mute := info.mute }, strings,
            decide (info.index ≠ pa.index ∨ percent info.volume ≠ pa.volume ∨ info.mute ≠ pa.mute)) := by
  obtain ⟨sink, name, description, index, volume, mute⟩ := pa
  simp only [paSinkInfoCallback, if_true, Option.bind_eq_bind, Option.pure_def, Option.map_eq_bind]
  split_ifs <;> simp_all

/-- A reply is written through the pointers as it is to the texts, and what the entry has owned is given back. -/
theorem sinkInfo_view (percent : UInt32 → Int) (allocates : Allocates malloc) (info : Option SinkInfo) (eol : Int) {strings : Store Block Text}
    {pa : PaT Block} {entry : Pa} {rest : List Block} (viewed : view strings pa = some entry)
    (owns : Owns strings (pa.owned ++ rest)) :
    ∃ pa' strings', paSinkInfoCallback malloc percent info eol strings pa =
        some (pa', strings', (PulseAudio.paSinkInfoCallback percent info eol entry).2) ∧
      view strings' pa' = some (PulseAudio.paSinkInfoCallback percent info eol entry).1 ∧
      Owns strings' (pa'.owned ++ rest) ∧ Kept strings strings' rest := by
  cases info with
  | none => exact ⟨pa, strings, rfl, viewed, owns, Kept.refl _ _⟩
  | some info =>
    by_cases more : eol = 0
    · subst eol
      obtain ⟨sink, -, -, index, volume, mute⟩ := view_eq.mp viewed
      have nameFirst : (pa.owned ++ rest).Perm (pa.name.toList ++ (pa.description.toList ++ (pa.sink.toList ++ rest))) := by
        apply List.perm_iff_count.mpr
        intro b
        simp only [PaT.owned, List.count_append]
        omega
      obtain ⟨name, named, renewed, owns', nameHolds, kept⟩ := (owns.perm nameFirst).renew allocates info.name
      have descriptionNext : (name :: (pa.description.toList ++ (pa.sink.toList ++ rest))).Perm
          (pa.description.toList ++ (name :: (pa.sink.toList ++ rest))) := List.perm_middle.symm
      obtain ⟨description, described, renewed', owns'', descriptionHolds, kept'⟩ :=
        (owns'.perm descriptionNext).renew allocates info.description
      have back : (description :: name :: (pa.sink.toList ++ rest)).Perm
          ((pa.sink.toList ++ ([name] ++ [description])) ++ rest) := by
        apply List.perm_iff_count.mpr
        intro b
        simp only [List.count_append, List.count_cons, List.count_nil]
        omega
      have others : Kept strings described (pa.sink.toList ++ rest) :=
        (kept.mono (List.subset_append_right _ _)).trans (kept'.mono (List.subset_cons_self _ _))
      simp only [paSinkInfoCallback_eq, PulseAudio.paSinkInfoCallback_eq, renewed, Option.bind_some, renewed',
        Option.map_some, index, volume, mute]
      refine ⟨_, described, rfl, ?_, owns''.perm back, others.mono (List.subset_append_right _ _)⟩
      apply view_eq.mpr
      refine ⟨(others.mono (List.subset_append_left _ _)).read.trans sink, ?_, ?_, rfl, rfl, rfl⟩
      · show (described name).map some = some (some info.name)
        rw [kept' name List.mem_cons_self, nameHolds, Option.map_some]
      · show (described description).map some = some (some info.description)
        rw [descriptionHolds, Option.map_some]
    · simp only [paSinkInfoCallback, PulseAudio.paSinkInfoCallback, if_neg more]
      exact ⟨pa, strings, rfl, viewed, owns, Kept.refl _ _⟩

theorem Related.serverInfo (allocates : Allocates malloc) (related : Related heap client) (defaultSinkName : Text) :
    (serverInfoCallback malloc heap defaultSinkName = none ∧
      PulseAudio.serverInfoCallback client.queue client.paDefaultSink defaultSinkName = none) ∨
    ∃ heap' queue paDefaultSink requests, serverInfoCallback malloc heap defaultSinkName = some (heap', requests) ∧
      PulseAudio.serverInfoCallback client.queue client.paDefaultSink defaultSinkName =
        some (queue, paDefaultSink, requests) ∧ Related heap' { queue, paDefaultSink } := by
  by_cases known : client.paDefaultSink = some defaultSinkName
  · right
    refine ⟨heap, client.queue, client.paDefaultSink, [], ?_, ?_, related⟩
    · simp only [serverInfoCallback, related.default, known, if_true, Option.bind_eq_bind, Option.bind_some,
        Option.pure_def]
    · simp only [PulseAudio.serverInfoCallback, if_pos known]
  · obtain ⟨b, strings, renewed, owns, holds, kept⟩ := related.owns.renew allocates defaultSinkName
    have renamed : Related { heap with strings, paDefaultSink := some b }
        { client with paDefaultSink := some defaultSinkName } := by
      constructor
      · exact (views_kept kept).trans related.queue
      · show (strings b).map some = some (some defaultSinkName)
        rw [holds, Option.map_some]
      · exact owns
    rcases renamed.lookup allocates none with ⟨fails, failsIn⟩ | ⟨pa, heap', queue, requests, gives, givesIn, -, after⟩
    · left
      constructor
      · simp only [serverInfoCallback, related.default, if_neg known, renewed, fails, Option.bind_eq_bind,
          Option.bind_some, Option.bind_none]
      · simp only [PulseAudio.serverInfoCallback, if_neg known, failsIn, Option.map_none]
    · right
      refine ⟨heap', queue, some defaultSinkName, requests ++ [.sinkInfoByName (some defaultSinkName) pa], ?_, ?_, after⟩
      · simp only [serverInfoCallback, related.default, if_neg known, renewed, gives, after.default,
          Option.bind_eq_bind, Option.bind_some, Option.pure_def]
      · simp only [PulseAudio.serverInfoCallback, if_neg known, givesIn, Option.map_some]

theorem Related.display (allocates : Allocates malloc) (related : Related heap client) (function : SinkLookup.Display)
    (sink : Option Text) :
    (display malloc function heap sink = none ∧ function.run client.queue sink = none) ∨
    ∃ text heap' queue requests, display malloc function heap sink = some (text, heap', requests) ∧
      function.run client.queue sink = some (text, queue, requests) ∧ Related heap' { client with queue } := by
  rw [display_run]
  rcases related.lookup allocates sink with ⟨fails, failsIn⟩ | ⟨pa, heap', queue, requests, gives, givesIn, inside, after⟩
  · left
    constructor
    · simp only [SinkStrings.display, fails, Option.bind_eq_bind, Option.bind_none]
    · simp only [PulseAudio.display, failsIn, Option.map_none]
  · right
    have there : (heap'.queue.map (view heap'.strings))[pa]? = (queue.map some)[pa]? := by rw [after.queue]
    rw [List.getElem?_map, List.getElem?_map, List.getElem?_eq_getElem inside, Option.map_some,
      Option.map_eq_some_iff] at there
    obtain ⟨entry, here, viewed⟩ := there
    refine ⟨function.text queue[pa], heap', queue, requests, ?_, ?_, after⟩
    · simp only [SinkStrings.display, gives, here, shown_eq viewed, Option.bind_eq_bind, Option.bind_some,
        Option.pure_def]
    · simp only [PulseAudio.display, givesIn, List.getElem?_eq_getElem inside, Option.map_some, Option.bind_some]

theorem Related.sinkInfo (percent : UInt32 → Int) (allocates : Allocates malloc) (related : Related heap client)
    (info : Option SinkInfo) (eol : Int) {i : Nat} {entry : Pa} (here : client.queue[i]? = some entry) :
    ∃ pa pa' strings, heap.queue[i]? = some pa ∧ paSinkInfoCallback malloc percent info eol heap.strings pa =
        some (pa', strings, (PulseAudio.paSinkInfoCallback percent info eol entry).2) ∧
      Related { heap with strings, queue := heap.queue.set i pa' }
        { client with queue := client.queue.set i (PulseAudio.paSinkInfoCallback percent info eol entry).1 } := by
  have there : (heap.queue.map (view heap.strings))[i]? = (client.queue.map some)[i]? := by rw [related.queue]
  rw [List.getElem?_map, List.getElem?_map, here, Option.map_some, Option.map_eq_some_iff] at there
  obtain ⟨pa, queued, viewed⟩ := there
  obtain ⟨rest, split, replaced⟩ := related.set queued
  obtain ⟨pa', strings, done, viewed', owns, kept⟩ :=
    sinkInfo_view percent allocates info eol viewed (related.owns.perm split)
  exact ⟨pa, pa', strings, queued, done, replaced strings pa' _ kept viewed' owns⟩

/-- One call does in memory what it does on texts, or both are undefined. -/
theorem Related.call (percent : UInt32 → Int) (allocates : Allocates malloc) (related : Related heap client)
    (call : Call) :
    (heap.call malloc percent call = none ∧ client.call percent call = none) ∨
    ∃ heap' client' sent, heap.call malloc percent call = some (heap', sent) ∧
      client.call percent call = some (client', sent) ∧ Related heap' client' := by
  cases call with
  | display function sink =>
    rcases related.display allocates function sink with
      ⟨fails, failsIn⟩ | ⟨text, heap', queue, requests, gives, givesIn, after⟩
    · left
      simp only [Heap.call, Client.call, fails, failsIn, Option.map_none, and_self]
    · right
      refine ⟨heap', { client with queue }, (requests, false), ?_, ?_, after⟩
      · simp only [Heap.call, gives, Option.map_some]
      · simp only [Client.call, givesIn, Option.map_some]
  | sinkInfo info eol pa =>
    cases here : client.queue[pa]? with
    | none =>
      have missing : heap.queue[pa]? = none := by
        have there : (heap.queue.map (view heap.strings))[pa]? = (client.queue.map some)[pa]? := by rw [related.queue]
        rw [List.getElem?_map, List.getElem?_map, here] at there
        exact Option.map_eq_none_iff.mp there
      left
      simp only [Heap.call, Client.call, here, missing, Option.map_none, Option.bind_eq_bind, Option.bind_none,
        and_self]
    | some entry =>
      obtain ⟨block, pa', strings, queued, done, after⟩ := related.sinkInfo percent allocates info eol here
      right
      refine ⟨_, _, ([], (PulseAudio.paSinkInfoCallback percent info eol entry).2), ?_, ?_, after⟩
      · simp only [Heap.call, queued, done, Option.bind_eq_bind, Option.bind_some, Option.pure_def]
      · simp only [Client.call, here, Option.map_some]
  | serverInfo defaultSinkName =>
    rcases related.serverInfo allocates defaultSinkName with
      ⟨fails, failsIn⟩ | ⟨heap', queue, paDefaultSink, requests, gives, givesIn, after⟩
    · left
      simp only [Heap.call, Client.call, fails, failsIn, Option.map_none, and_self]
    · right
      refine ⟨heap', { queue, paDefaultSink }, (requests, false), ?_, ?_, after⟩
      · simp only [Heap.call, gives, Option.map_some]
      · simp only [Client.call, givesIn, Option.map_some]
  | subscribe facility idx =>
    have asked : paSubscribeCallback heap.queue facility idx =
        PulseAudio.paSubscribeCallback client.queue facility idx := by
      cases facility with
      | other => rfl
      | sink =>
        have found := findByIndex_eq related.queue idx
        unfold paSubscribeCallback PulseAudio.paSubscribeCallback
        cases there : PulseAudio.paFindByIndex client.queue idx with
        | none => simp only [found, there]
        | some pa => simp only [found, there]
    right
    exact ⟨heap, client, (PulseAudio.paSubscribeCallback client.queue facility idx, false), by rw [Heap.call, asked],
      rfl, related⟩

theorem freeEntries_owns {queue : List (PaT Block)} {strings : Store Block Text} {rest : List Block}
    (owns : Owns strings (queue.flatMap PaT.owned ++ rest)) :
    ∃ strings', freeEntries queue strings = some strings' ∧ Owns strings' rest := by
  induction queue generalizing strings with
  | nil => exact ⟨strings, rfl, owns⟩
  | cons pa queue ih =>
    rw [List.flatMap_cons, PaT.owned, List.append_assoc, List.append_assoc, List.append_assoc] at owns
    obtain ⟨noSink, sink, afterSink, -⟩ := owns.release
    obtain ⟨noName, name, afterName, -⟩ := afterSink.release
    obtain ⟨noDescription, description, afterDescription, -⟩ := afterName.release
    obtain ⟨strings', freed, left⟩ := ih afterDescription
    refine ⟨strings', ?_, left⟩
    simp only [freeEntries, sink, name, description, freed, Option.bind_eq_bind, Option.bind_some]

theorem Related.free (related : Related heap client) :
    ∃ heap', paFree heap = some heap' ∧ ∀ b, heap'.strings b = none := by
  obtain ⟨strings, entries, owns⟩ := freeEntries_owns (related.owns.perm List.perm_append_comm)
  rw [← List.append_nil heap.paDefaultSink.toList] at owns
  obtain ⟨strings', default, nothing, -⟩ := owns.release
  refine ⟨{ strings := strings', queue := [], paDefaultSink := none }, ?_, nothing.empty⟩
  simp only [paFree, entries, default, Option.bind_eq_bind, Option.bind_some, Option.pure_def]

end Steps

/-- A call, with the allocator as it is then. -/
structure Event (Block : Type) where
  call : Call
  malloc : Store Block Text → Block

section Machine

variable [DecidableEq Block] (percent : UInt32 → Int)

def step (heap : Heap Block) (event : Event Block) : Option (Heap Block) :=
  (heap.call event.malloc percent event.call).map Prod.fst

def Allocated (_ : Heap Block) (event : Event Block) : Prop := Allocates event.malloc

/-- In this state a call is undefined only where it is on texts, it sends and signals and shows the same, no string is
shared or lost, and the teardown gives back all of them, each once. -/
structure Sound (heap : Heap Block) (client : Client) : Prop where
  calls : ∀ malloc call, Allocates malloc →
    (heap.call malloc percent call).map Prod.snd = (client.call percent call).map Prod.snd
  shows : ∀ malloc function sink, Allocates malloc →
    (display malloc function heap sink).map Prod.fst = (function.run client.queue sink).map Prod.fst
  owned : Owns heap.strings heap.owned
  frees : ∃ heap', paFree heap = some heap' ∧ ∀ b, heap'.strings b = none

variable {percent} {heap : Heap Block} {client : Client}

theorem Related.sound (related : Related heap client) : Sound percent heap client := by
  refine ⟨?_, ?_, related.owns, related.free⟩
  · intro malloc call allocates
    rcases related.call percent allocates call with ⟨fails, failsIn⟩ | ⟨_, _, sent, gives, givesIn, -⟩
    · rw [fails, failsIn, Option.map_none, Option.map_none]
    · rw [gives, givesIn, Option.map_some, Option.map_some]
  · intro malloc function sink allocates
    rcases related.display allocates function sink with ⟨fails, failsIn⟩ | ⟨_, _, _, _, gives, givesIn, -⟩
    · rw [fails, failsIn, Option.map_none, Option.map_none]
    · rw [gives, givesIn, Option.map_some, Option.map_some]

theorem related_of_run {past : Past (Heap Block) (Event Block)} (run : Run (step percent) started past heap)
    (within : Within Allocated past) :
    ∃ calls client, Run (SinkLookup.step percent) initial calls client ∧
      calls.map Prod.snd = past.map (fun taken => taken.2.call) ∧ Related heap client := by
  induction run with
  | start => exact ⟨[], initial, .start, rfl, related_started⟩
  | step event run move ih =>
    obtain ⟨calls, client, reached, same, related⟩ := ih within.tail
    rcases related.call percent within.head event.call with
      ⟨fails, -⟩ | ⟨heap', client', sent, gives, givesIn, after⟩
    · rw [step, fails, Option.map_none] at move
      cases move
    · rw [step, gives, Option.map_some] at move
      cases move
      refine ⟨(client, event.call) :: calls, client', .step event.call reached ?_, ?_, after⟩
      · rw [SinkLookup.step, givesIn, Option.map_some]
      · rw [List.map_cons, List.map_cons, same]

/-- Whatever the allocator does, any calls do through the pointers what they do on texts: no string is read or given
back that is not there, and none is left behind. -/
theorem strings_of_run {past : Past (Heap Block) (Event Block)} (run : Run (step percent) started past heap)
    (within : Within Allocated past) :
    ∃ calls client, Run (SinkLookup.step percent) initial calls client ∧
      calls.map Prod.snd = past.map (fun taken => taken.2.call) ∧ Sound percent heap client := by
  obtain ⟨calls, client, reached, same, related⟩ := related_of_run run within
  exact ⟨calls, client, reached, same, related.sound⟩

end Machine

/-- Every run on texts is one in memory. -/
theorem exists_run_related [DecidableEq Block] [Infinite Block] {percent : UInt32 → Int} {calls : Past Client Call}
    {client : Client} (run : Run (SinkLookup.step percent) initial calls client) :
    ∃ (past : Past (Heap Block) (Event Block)) (heap : Heap Block), Run (step percent) started past heap ∧
      Within Allocated past ∧ past.map (fun taken => taken.2.call) = calls.map Prod.snd ∧ Related heap client := by
  obtain ⟨malloc, allocates⟩ : ∃ malloc : Store Block Text → Block, Allocates malloc := exists_allocates
  induction run with
  | start => exact ⟨[], started, .start, nofun, rfl, related_started⟩
  | step call run move ih =>
    obtain ⟨past, heap, reached, within, same, related⟩ := ih
    rcases related.call percent allocates call with
      ⟨-, fails⟩ | ⟨heap', client', sent, gives, givesIn, after⟩
    · rw [SinkLookup.step, fails, Option.map_none] at move
      cases move
    · rw [SinkLookup.step, givesIn, Option.map_some] at move
      cases move
      refine ⟨(heap, { call, malloc }) :: past, heap', .step _ reached ?_, ?_, ?_, after⟩
      · rw [step, gives, Option.map_some]
      · exact List.forall_mem_cons.mpr ⟨allocates, within⟩
      · rw [List.map_cons, List.map_cons, same]

/-- Two replies to one entry and two default sinks: the copies of before have been given back. -/
theorem strings_of_run_renewed :
    ∃ (past : Past (Heap Nat) (Event Nat)) (heap : Heap Nat), Run (step wholePercent) started past heap ∧
      past.length = 6 ∧ ∃ calls client, Run (SinkLookup.step wholePercent) initial calls client ∧
        calls.map Prod.snd = past.map (fun taken => taken.2.call) ∧ Sound wholePercent heap client := by
  obtain ⟨calls, client, run, checked⟩ := exists_run (SinkLookup.step wholePercent) initial
    [.display .line (some headset), .serverInfo headset, .sinkInfo (some ⟨3, headset, headset, 65536, 0⟩) 0 0,
      .sinkInfo (some ⟨3, headset, defaultSink, 65536, 0⟩) 0 0, .display .name (some headset), .serverInfo defaultSink]
    (fun calls _ => decide (calls.length = 6)) (by decide)
  obtain ⟨past, heap, reached, within, same, -⟩ : ∃ (past : Past (Heap Nat) (Event Nat)) (heap : Heap Nat),
      Run (step wholePercent) started past heap ∧ Within Allocated past ∧
        past.map (fun taken => taken.2.call) = calls.map Prod.snd ∧ Related heap client := exists_run_related run
  have counted := congrArg List.length same
  rw [List.length_map, List.length_map, of_decide_eq_true checked] at counted
  exact ⟨past, heap, reached, counted, strings_of_run reached within⟩

end SlStatus.SinkStrings
