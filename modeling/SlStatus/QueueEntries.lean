import Mathlib.Logic.Function.Basic
import SlStatus.Caches
import SlStatus.QueueMacros

/-! Queues of allocated entries, as the caches of devices are kept: a search through the pointers that
ends at the first entry with the key, an entry that is allocated and put at the tail where
there is none, callbacks that were given the pointer to an entry, and the loop that empties
the queue. Beside it stands the same on a list. -/

namespace SlStatus.QueueEntries
open Links QueueMacros Caches Runs

universe u

variable {Place Entry : Type u} {Key Answer : Type*}

/-- The links of the head and of the allocated entries, the entries, and the pointers that the callbacks were
given, one for each entry made. No loop over the queue is followed any longer than it was made. -/
structure Heap (Place Entry : Type u) where
  links : Memory Place
  entries : Place → Option Entry
  made : List Place

section Definitions

variable [DecidableEq Place] [DecidableEq Key]

def Heap.calloc (heap : Heap Place Entry) (p : Place) (entry : Entry) : Heap Place Entry :=
  { heap with links := heap.links.alloc p ⟨none, none⟩, entries := Function.update heap.entries p (some entry) }

def Heap.free (heap : Heap Place Entry) (p : Place) : Option (Heap Place Entry) := do
  let links ← heap.links.free p
  pure { heap with links, entries := Function.update heap.entries p none }

/-- A write through a pointer to an entry. -/
def Heap.change (heap : Heap Place Entry) (p : Place) (f : Entry → Entry) : Option (Heap Place Entry) := do
  let entry ← heap.entries p
  pure { heap with entries := Function.update heap.entries p (some (f entry)) }

/-- The loop that compares keys, from a pointer on. -/
def scan (heap : Heap Place Entry) (key : Entry → Key) (k : Key) : Nat → Option Place → Option (Option Place)
  | _, none => some none
  | 0, some _ => none
  | budget + 1, some p => do
      let entry ← heap.entries p
      if key entry = k then pure (some p)
      else do
        let following ← heap.links.next p
        scan heap key k budget following

def queueUp (heap : Heap Place Entry) (head p : Place) (entry : Entry) : Option (Heap Place Entry) := do
  let heap := heap.calloc p entry
  let links ← tailqInsertTail heap.links head p
  pure { heap with links, made := heap.made ++ [p] }

/-- Where the search fails `attempt` is made: it may end in an error, without an entry or with one, for
which `calloc` gives `fresh`. -/
def find (heap : Heap Place Entry) (head : Place) (key : Entry → Key) (k : Key) (attempt : Option (Option Entry))
    (fresh : Place) : Option (Option Place × Heap Place Entry) := do
  let first ← tailqFirst heap.links head
  match ← scan heap key k heap.made.length first with
  | some p => pure (some p, heap)
  | none =>
      match ← attempt with
      | none => pure (none, heap)
      | some entry => do
          let heap ← queueUp heap head fresh entry
          pure (some fresh, heap)

/-- The loop that takes the first entry out until there is none, with what is done to each. -/
def drain (release : Heap Place Entry → Place → Option (Heap Place Entry)) (head : Place) :
    Nat → Heap Place Entry → Option (List Place × Heap Place Entry)
  | budget, heap => do
      match ← tailqFirst heap.links head with
      | none => pure ([], heap)
      | some p =>
          match budget with
          | 0 => none
          | budget + 1 => do
              let links ← tailqRemove heap.links head p
              let heap ← release { heap with links } p
              let (rest, heap) ← drain release head budget heap
              pure (p :: rest, heap)

/-- The same on a list of entries. -/
def findIn (key : Entry → Key) (queue : List Entry) (k : Key) (attempt : Option (Option Entry)) :
    Option (Option Entry × List Entry) :=
  match search key queue k with
  | some entry => some (some entry, queue)
  | none => attempt.map fun created => (created, queue ++ created.toList)

end Definitions

/-- The heap holds the head and these entries at these places, and nothing else. -/
structure Holds (heap : Heap Place Entry) (head : Place) (places : List Place) (queue : List Entry) : Prop where
  queued : Queued heap.links head places
  entries : places.map heap.entries = queue.map some
  live : ∀ p, heap.links.Live p ↔ p ∈ head :: places
  owned : ∀ p, (heap.entries p).isSome ↔ p ∈ places
  made : heap.made = places

section Finds

variable [DecidableEq Key] {heap : Heap Place Entry} {head fresh : Place}
  {places front back : List Place} {queue : List Entry} {key : Entry → Key} {k : Key} {entry : Entry}
  {attempt : Option (Option Entry)} {budget : Nat}

/-- The loop passes every entry with another key, and ends at the first with the key. -/
theorem scan_split (key : Entry → Key) (k : Key) {rear : Option Place}
    (listed : Listed heap.links rear (head :: (front ++ back))) (entries : back.map heap.entries = queue.map some)
    (enough : back.length ≤ budget) :
    (scan heap key k budget back.head? = some none ∧ ∀ entry ∈ queue, key entry ≠ k) ∨
    ∃ p entry ahead behind earlier later, scan heap key k budget back.head? = some (some p) ∧
      back = ahead ++ p :: behind ∧ queue = earlier ++ entry :: later ∧
      ahead.map heap.entries = earlier.map some ∧ heap.entries p = some entry ∧
      behind.map heap.entries = later.map some ∧ key entry = k ∧ ∀ other ∈ earlier, key other ≠ k := by
  induction back generalizing front queue budget with
  | nil =>
    obtain rfl : queue = [] := by simpa using entries.symm
    exact .inl ⟨by unfold scan; rfl, nofun⟩
  | cons p back ih =>
    cases queue with
    | nil => cases entries
    | cons first queue =>
      obtain ⟨here, rest⟩ := List.cons.inj entries
      cases budget with
      | zero => exact absurd enough (Nat.not_succ_le_zero _)
      | succ budget =>
        by_cases same : key first = k
        · refine .inr ⟨p, first, [], back, [], queue, ?_, rfl, rfl, rfl, here, rest, same, nofun⟩
          simp only [List.head?_cons, scan, here, Option.bind_eq_bind, Option.bind_some, if_pos same, Option.pure_def]
        · have next : heap.links.next p = some back.head? := by
            have split : Listed heap.links rear ((head :: front) ++ p :: back) := listed
            exact split.around.1
          have shifted : Listed heap.links rear (head :: ((front ++ [p]) ++ back)) := by
            rw [List.append_assoc]
            exact listed
          have passed : scan heap key k (budget + 1) (p :: back).head? = scan heap key k budget back.head? := by
            simp only [List.head?_cons, scan, here, Option.bind_eq_bind, Option.bind_some, if_neg same, next]
          rw [passed]
          rcases ih shifted rest (Nat.le_of_succ_le_succ enough) with
            ⟨scanned, others⟩ | ⟨q, entry, ahead, behind, earlier, later, scanned, rfl, rfl, before, found, after, keyed,
              others⟩
          · exact .inl ⟨scanned, List.forall_mem_cons.mpr ⟨same, others⟩⟩
          · refine .inr ⟨q, entry, p :: ahead, behind, first :: earlier, later, scanned, rfl, rfl, ?_, found, after, keyed,
              List.forall_mem_cons.mpr ⟨same, others⟩⟩
            rw [List.map_cons, List.map_cons, here, before]

/-- The loop finds what a search of the entries from there on finds. -/
theorem scan_eq (queued : Queued heap.links head (front ++ back)) (entries : back.map heap.entries = queue.map some)
    (enough : back.length ≤ budget) :
    ∃ place, scan heap key k budget back.head? = some place ∧ place.bind heap.entries = search key queue k ∧
      ∀ p ∈ place, p ∈ back := by
  rcases scan_split key k queued entries enough with
    ⟨scanned, others⟩ | ⟨p, entry, ahead, behind, earlier, later, scanned, rfl, rfl, -, found, -, keyed, others⟩
  · refine ⟨none, scanned, ?_, nofun⟩
    apply Eq.symm
    apply List.find?_eq_none.mpr
    intro entry member
    simpa using others entry member
  · refine ⟨some p, scanned, ?_, ?_⟩
    · rw [Option.bind_some, found]
      apply Eq.symm
      apply List.find?_eq_some_iff_append.mpr
      refine ⟨by simpa using keyed, earlier, later, rfl, ?_⟩
      intro other member
      simpa using others other member
    · intro q read
      cases read
      simp

theorem Holds.first (holds : Holds heap head places queue) : tailqFirst heap.links head = some places.head? := by
  have start : Listed heap.links (some head) ([] ++ head :: places) := holds.queued
  exact start.around.1

variable [DecidableEq Place]

/-- A block that was not allocated is put at the tail with its entry. -/
theorem queueUp_holds (holds : Holds heap head places queue) (unused : ¬heap.links.Live fresh) (entry : Entry) :
    ∃ heap', queueUp heap head fresh entry = some heap' ∧ heap'.entries fresh = some entry ∧
      Holds heap' head (places ++ [fresh]) (queue ++ [entry]) := by
  have outside : fresh ∉ head :: places := fun member => unused ((holds.live fresh).mpr member)
  have notQueued : fresh ∉ places := fun member => outside (List.mem_cons_of_mem head member)
  have kept : Queued (heap.calloc fresh entry).links head places :=
    holds.queued.frame fun p member => Memory.alloc_ne fun same => outside (same ▸ member)
  have live : (heap.calloc fresh entry).links.Live fresh := Memory.live_alloc.mpr (.inl rfl)
  obtain ⟨links, inserted, queued, rewritten⟩ := queued_of_insertTail kept live outside
  refine ⟨{ heap.calloc fresh entry with links, made := heap.made ++ [fresh] }, ?_, Function.update_self .., ?_⟩
  · simp only [queueUp, inserted, Option.bind_eq_bind, Option.bind_some, Option.pure_def]
    rfl
  · refine ⟨queued, ?_, ?_, ?_, ?_⟩
    · have before : places.map (Function.update heap.entries fresh (some entry)) = places.map heap.entries :=
        List.map_congr_left fun p member => Function.update_of_ne (ne_of_mem_of_not_mem member notQueued) _ _
      rw [List.map_append, List.map_append, List.map_singleton, List.map_singleton]
      change places.map (Function.update heap.entries fresh (some entry)) ++
        [Function.update heap.entries fresh (some entry) fresh] = _
      rw [before, holds.entries, Function.update_self]
    · intro p
      have known := holds.live p
      rw [rewritten.live, ← List.cons_append, List.mem_append, List.mem_singleton, ← known]
      exact Memory.live_alloc.trans or_comm
    · intro p
      have known := holds.owned p
      change (Function.update heap.entries fresh (some entry) p).isSome ↔ _
      by_cases same : p = fresh
      · simp [same]
      · rw [Function.update_of_ne same, known]
        simp [same]
    · exact congrArg (· ++ [fresh]) holds.made

/-- The search through the pointers and the one of the list end alike, and leave alike what they leave. -/
theorem find_holds (holds : Holds heap head places queue) (unused : ¬heap.links.Live fresh) (key : Entry → Key) (k : Key)
    (attempt : Option (Option Entry)) :
    (findIn key queue k attempt = none → find heap head key k attempt fresh = none) ∧
    ∀ result queue', findIn key queue k attempt = some (result, queue') →
      ∃ place heap' places', find heap head key k attempt fresh = some (place, heap') ∧
        place.bind heap'.entries = result ∧ Holds heap' head places' queue' := by
  have whole : Queued heap.links head ([] ++ places) := holds.queued
  have enough : places.length ≤ heap.made.length := le_of_eq (congrArg _ holds.made.symm)
  obtain ⟨place, scanned, found, inside⟩ : ∃ place,
      scan heap key k heap.made.length places.head? = some place ∧ place.bind heap.entries = search key queue k ∧
        ∀ p ∈ place, p ∈ places := scan_eq whole holds.entries enough
  cases place with
  | some p =>
    rw [Option.bind_some] at found
    obtain ⟨entry, read⟩ := Option.isSome_iff_exists.mp ((holds.owned p).mpr (inside p rfl))
    have hit : find heap head key k attempt fresh = some (some p, heap) := by
      simp only [find, holds.first, scanned, Option.bind_eq_bind, Option.bind_some, Option.pure_def]
    simp only [findIn, ← found, read]
    refine ⟨fun fails => absurd fails (Option.some_ne_none _), ?_⟩
    rintro result queue' ⟨⟩
    exact ⟨some p, heap, places, hit, by rw [Option.bind_some, read], holds⟩
  | none =>
    rw [Option.bind_none] at found
    simp only [findIn, ← found]
    cases attempt with
    | none =>
      refine ⟨fun _ => ?_, ?_⟩
      · simp only [find, holds.first, scanned, Option.bind_eq_bind, Option.bind_some, Option.bind_none]
      · intro result queue' gives
        cases gives
    | some created =>
      refine ⟨fun fails => absurd fails (Option.some_ne_none _), ?_⟩
      rintro result queue' ⟨⟩
      cases created with
      | none =>
        refine ⟨none, heap, places, ?_, rfl, by simpa using holds⟩
        simp only [find, holds.first, scanned, Option.bind_eq_bind, Option.bind_some, Option.pure_def]
      | some entry =>
        obtain ⟨heap', queued, stored, holds'⟩ := queueUp_holds holds unused entry
        refine ⟨some fresh, heap', places ++ [fresh], ?_, by rw [Option.bind_some, stored], holds'⟩
        simp only [find, holds.first, scanned, queued, Option.bind_eq_bind, Option.bind_some, Option.pure_def]

end Finds

/-- What is done to an entry that has been taken out touches nothing else, and gives it back or does not. -/
def Releases (keeps : Prop) (release : Heap Place Entry → Place → Option (Heap Place Entry)) : Prop :=
  ∀ (heap : Heap Place Entry) (p : Place), heap.links.Live p → (heap.entries p).isSome →
    ∃ heap', release heap p = some heap' ∧ (heap'.links.Live p ↔ keeps) ∧
      ∀ q, q ≠ p → heap'.links q = heap.links q ∧ heap'.entries q = heap.entries q

theorem releases_nothing : Releases True fun (heap : Heap Place Entry) (_ : Place) => some heap :=
  fun heap _ live _ => ⟨heap, rfl, iff_true_intro live, fun _ _ => ⟨rfl, rfl⟩⟩

section Changes

variable [DecidableEq Place] {heap : Heap Place Entry} {head p : Place} {places : List Place} {queue : List Entry}
  {entry : Entry} {n : Nat}

/-- What is written through the pointer to the entry at a position is written to that entry. -/
theorem change_holds (holds : Holds heap head places queue) (given : heap.made[n]? = some p) (f : Entry → Entry) :
    ∃ heap', heap.change p f = some heap' ∧ Holds heap' head places (queue.modify n f) := by
  rw [holds.made] at given
  have member : p ∈ places := List.mem_of_getElem? given
  have nodup : places.Nodup := (List.nodup_cons.mp holds.queued.nodup).2
  obtain ⟨entry, read⟩ := Option.isSome_iff_exists.mp ((holds.owned p).mpr member)
  refine ⟨{ heap with entries := Function.update heap.entries p (some (f entry)) }, ?_, ?_⟩
  · simp only [Heap.change, read, Option.bind_eq_bind, Option.bind_some, Option.pure_def]
  · refine ⟨holds.queued, ?_, holds.live, ?_, holds.made⟩
    · apply List.ext_getElem?
      intro i
      have pair : places[i]?.map heap.entries = queue[i]?.map some := by
        rw [← List.getElem?_map, ← List.getElem?_map, holds.entries]
      rw [List.getElem?_map, List.getElem?_map, List.getElem?_modify]
      by_cases same : n = i
      · subst i
        rw [given, Option.map_some, read] at pair
        cases here : queue[n]? with
        | none => simp [here] at pair
        | some old =>
          rw [here, Option.map_some, Option.some.injEq, Option.some.injEq] at pair
          subst pair
          simp [given]
      · simp only [if_neg same, id_map']
        rw [← pair]
        cases other : places[i]? with
        | none => rfl
        | some q =>
          have apart : q ≠ p := by
            rintro rfl
            exact same ((List.getElem?_inj (List.getElem?_eq_some_iff.mp given).1 nodup).mp (given.trans other.symm))
          rw [Option.map_some, Option.map_some, Function.update_of_ne apart]
    · intro q
      rw [← holds.owned q]
      by_cases same : q = p
      · simp [same, read]
      · change (Function.update heap.entries p (some (f entry)) q).isSome ↔ _
        rw [Function.update_of_ne same]

theorem releases_free : Releases False (Heap.free : Heap Place Entry → Place → Option (Heap Place Entry)) := by
  intro heap p live owned
  obtain ⟨links, freed, gone, same⟩ := Memory.free_eq live
  refine ⟨{ heap with links, entries := Function.update heap.entries p none }, ?_, iff_false_intro gone, ?_⟩
  · simp only [Heap.free, freed, Option.bind_eq_bind, Option.bind_some, Option.pure_def]
  · intro q other
    exact ⟨same q other, Function.update_of_ne other _ _⟩

theorem releases_change (f : Entry → Entry) :
    Releases True fun (heap : Heap Place Entry) (p : Place) => heap.change p f := by
  intro heap p live owned
  obtain ⟨entry, read⟩ := Option.isSome_iff_exists.mp owned
  refine ⟨{ heap with entries := Function.update heap.entries p (some (f entry)) }, ?_, iff_true_intro live, ?_⟩
  · simp only [Heap.change, read, Option.bind_eq_bind, Option.bind_some, Option.pure_def]
  · intro q other
    exact ⟨rfl, Function.update_of_ne other _ _⟩

/-- The loop takes out every entry once, in the order of the queue, and what it did to each is all it did. -/
theorem drain_eq {release : Heap Place Entry → Place → Option (Heap Place Entry)} {keeps : Prop} {budget : Nat}
    (releases : Releases keeps release) (queued : Queued heap.links head places)
    (owned : ∀ p ∈ places, (heap.entries p).isSome) (enough : places.length ≤ budget) :
    ∃ heap', drain release head budget heap = some (places, heap') ∧ Queued heap'.links head [] ∧
      (∀ p ∈ places, heap'.links.Live p ↔ keeps) ∧
      ∀ p, p ∉ places → (heap'.links.Live p ↔ heap.links.Live p) := by
  induction places generalizing heap budget with
  | nil =>
    have start : Listed heap.links (some head) ([] ++ head :: []) := queued
    have first : tailqFirst heap.links head = some none := start.around.1
    refine ⟨heap, ?_, queued, nofun, fun _ _ => Iff.rfl⟩
    unfold drain
    simp only [first, Option.bind_eq_bind, Option.bind_some, Option.pure_def]
  | cons p places ih =>
    cases budget with
    | zero => exact absurd enough (Nat.not_succ_le_zero _)
    | succ budget =>
      have start : Listed heap.links (some head) ([] ++ head :: p :: places) := queued
      have first : tailqFirst heap.links head = some (some p) := start.around.1
      have front : Queued heap.links head ([] ++ p :: places) := queued
      obtain ⟨links, removed, shorter, rewritten⟩ := queued_of_remove front
      obtain ⟨headOut, nodup⟩ := List.nodup_cons.mp queued.nodup
      obtain ⟨notLater, -⟩ := List.nodup_cons.mp nodup
      have live : links.Live p := (rewritten.live p).mpr (queued.live p (by simp))
      obtain ⟨freed, done, kept, same⟩ := releases { heap with links } p live (owned p List.mem_cons_self)
      have rest : Queued freed.links head places := by
        refine shorter.frame fun q member => (same q ?_).1
        rintro rfl
        rcases List.mem_cons.mp member with rfl | later
        · exact headOut List.mem_cons_self
        · exact notLater later
      have others : ∀ q ∈ places, (freed.entries q).isSome := by
        intro q member
        rw [(same q (ne_of_mem_of_not_mem member notLater)).2]
        exact owned q (List.mem_cons_of_mem p member)
      obtain ⟨heap', drained, empty, each, beyond⟩ := ih rest others (Nat.le_of_succ_le_succ enough)
      refine ⟨heap', ?_, empty, ?_, ?_⟩
      · unfold drain
        simp only [first, removed, done, drained, Option.bind_eq_bind, Option.bind_some, Option.pure_def]
      · intro q member
        rcases List.mem_cons.mp member with rfl | later
        · exact (beyond q notLater).trans kept
        · exact each q later
      · intro q outside
        rw [List.mem_cons, not_or] at outside
        obtain ⟨other, notPlaces⟩ := outside
        have unchanged : freed.links.Live q ↔ links.Live q := by
          unfold Memory.Live
          rw [(same q other).1]
        exact (beyond q notPlaces).trans (unchanged.trans (rewritten.live q))

end Changes

/-- A lookup, with the block that `calloc` would give, and a callback for the entry made as the `n`-th. -/
inductive Event (Place : Type u) (Entry : Type u) (Key Answer : Type*) where
  | lookup (answer : Answer) (k : Key) (fresh : Place)
  | callback (n : Nat) (f : Entry → Entry)

section Machine

variable [DecidableEq Place] [DecidableEq Key] (attempt : Answer → Key → Option (Option Entry)) (key : Entry → Key)
  (head : Place)

def step (heap : Heap Place Entry) : Event Place Entry Key Answer → Option (Heap Place Entry)
  | .lookup answer k fresh => (find heap head key k (attempt answer k) fresh).map Prod.snd
  | .callback n f => do
      let p ← heap.made[n]?
      heap.change p f

def stepIn (queue : List Entry) : Event Place Entry Key Answer → Option (List Entry)
  | .lookup answer k _ => (findIn key queue k (attempt answer k)).map Prod.snd
  | .callback n f => if n < queue.length then some (queue.modify n f) else none

/-- Both, side by side. -/
def both (s : Heap Place Entry × List Entry) (event : Event Place Entry Key Answer) :
    Option (Heap Place Entry × List Entry) :=
  (step attempt key head s.1 event).bind fun heap => (stepIn attempt key s.2 event).map fun queue => (heap, queue)

/-- `calloc` gives a block that is not allocated. -/
def Unused (s : Heap Place Entry × List Entry) : Event Place Entry Key Answer → Prop
  | .lookup _ _ fresh => ¬s.1.links.Live fresh
  | .callback _ _ => True

/-- What the pointers lead to is what the list has, and nothing else is allocated; both fail in the same steps,
and a lookup gives the entry that the one of the list gives. -/
structure Mirrors (heap : Heap Place Entry) (queue : List Entry) : Prop where
  traversed : ∃ places, tailqForeach heap.links head heap.made.length = some places ∧
    places.map heap.entries = queue.map some ∧ ∀ p, heap.links.Live p ↔ p ∈ head :: places
  steps : ∀ event : Event Place Entry Key Answer, Unused (heap, queue) event →
    (step attempt key head heap event).isSome = (stepIn attempt key queue event).isSome
  answers : ∀ answer k fresh, ¬heap.links.Live fresh →
    (find heap head key k (attempt answer k) fresh).map (fun result => result.1.bind result.2.entries) =
      (findIn key queue k (attempt answer k)).map Prod.fst

variable {attempt key head} {heap : Heap Place Entry} {places : List Place} {queue : List Entry}

/-- Either both fail, or the heap that the step leaves holds the list that it leaves. -/
theorem step_holds (holds : Holds heap head places queue) (event : Event Place Entry Key Answer)
    (unused : Unused (heap, queue) event) :
    (step attempt key head heap event = none ∧ stepIn attempt key queue event = none) ∨
    ∃ heap' places' queue', step attempt key head heap event = some heap' ∧
      stepIn attempt key queue event = some queue' ∧ Holds heap' head places' queue' := by
  cases event with
  | lookup answer k fresh =>
    obtain ⟨fails, gives⟩ := find_holds holds unused key k (attempt answer k)
    cases found : findIn key queue k (attempt answer k) with
    | none => exact .inl ⟨by rw [step, fails found, Option.map_none], by rw [stepIn, found, Option.map_none]⟩
    | some result =>
      obtain ⟨place, heap', places', looked, -, holds'⟩ := gives result.1 result.2 found
      exact .inr ⟨heap', places', result.2, by rw [step, looked, Option.map_some], by
        rw [stepIn, found, Option.map_some], holds'⟩
  | callback n f =>
    have sizes : places.length = queue.length := by simpa using congrArg List.length holds.entries
    cases given : heap.made[n]? with
    | none =>
      have beyond := List.getElem?_eq_none_iff.mp given
      rw [holds.made, sizes] at beyond
      refine .inl ⟨?_, if_neg (not_lt_of_ge beyond)⟩
      simp only [step, given, Option.bind_eq_bind, Option.bind_none]
    | some p =>
      obtain ⟨inside, -⟩ := List.getElem?_eq_some_iff.mp given
      rw [holds.made, sizes] at inside
      obtain ⟨heap', changed, holds'⟩ := change_holds holds given f
      refine .inr ⟨heap', places, queue.modify n f, ?_, if_pos inside, holds'⟩
      simp only [step, given, changed, Option.bind_eq_bind, Option.bind_some]

theorem Holds.mirrors (holds : Holds heap head places queue) : Mirrors attempt key head heap queue := by
  have enough : places.length ≤ heap.made.length := le_of_eq (congrArg _ holds.made.symm)
  refine ⟨⟨places, (queued_foreach holds.queued enough).1, holds.entries, holds.live⟩, ?_, ?_⟩
  · intro event unused
    rcases step_holds holds event unused with ⟨fails, failsIn⟩ | ⟨heap', places', queue', gives, givesIn, -⟩
    · rw [fails, failsIn, Option.isSome_none, Option.isSome_none]
    · rw [gives, givesIn, Option.isSome_some, Option.isSome_some]
  · intro answer k fresh unused
    obtain ⟨fails, gives⟩ := find_holds holds unused key k (attempt answer k)
    cases found : findIn key queue k (attempt answer k) with
    | none => rw [fails found, Option.map_none, Option.map_none]
    | some result =>
      obtain ⟨place, heap', places', looked, entry, -⟩ := gives result.1 result.2 found
      rw [looked, Option.map_some, Option.map_some, entry]

/-- Only the head is allocated, and the queue is empty. -/
structure Fresh (head : Place) (heap : Heap Place Entry) : Prop where
  only : ∃ m : Memory Place, (∀ p, m.Live p ↔ p = head) ∧ tailqInit m head = some heap.links
  unmade : heap.made = [] ∧ ∀ p, heap.entries p = none

theorem Fresh.holds (fresh : Fresh head heap) : Holds heap head [] [] := by
  obtain ⟨m, only, made⟩ := fresh.only
  obtain ⟨first, initialised, queued, rewritten⟩ := queued_of_init ((only head).mpr rfl)
  cases initialised.symm.trans made
  refine ⟨queued, rfl, ?_, ?_, fresh.unmade.1⟩
  · intro p
    rw [rewritten.live, only, List.mem_singleton]
  · intro p
    simp [fresh.unmade.2 p]

theorem holds_of_run {first : Heap Place Entry}
    {past : Past (Heap Place Entry × List Entry) (Event Place Entry Key Answer)} (fresh : Fresh head first)
    (run : Run (both attempt key head) (first, []) past (heap, queue)) (within : Within Unused past) :
    ∃ places, Holds heap head places queue := by
  refine run.invariant Unused (fun s => ∃ places, Holds s.1 head places s.2) ⟨[], fresh.holds⟩ ?_ within
  rintro before event after ⟨places, holds⟩ unused taken
  rcases step_holds holds event unused with ⟨fails, -⟩ | ⟨heap', places', queue', gives, givesIn, holds'⟩
  · rw [both, fails, Option.bind_none] at taken
    cases taken
  · rw [both, gives, givesIn, Option.bind_some, Option.map_some] at taken
    cases taken
    exact ⟨places', holds'⟩

/-- The loop of the teardown takes every entry that was made out of the queue, once and in the order of their
making, and leaves allocated what it keeps and the head. -/
theorem drain_of_holds {release : Heap Place Entry → Place → Option (Heap Place Entry)} {keeps : Prop}
    (holds : Holds heap head places queue) (releases : Releases keeps release) :
    ∃ heap', drain release head heap.made.length heap = some (heap.made, heap') ∧
      tailqFirst heap'.links head = some none ∧ ∀ p, heap'.links.Live p ↔ p = head ∨ keeps ∧ p ∈ heap.made := by
  have enough : places.length ≤ heap.made.length := le_of_eq (congrArg _ holds.made.symm)
  obtain ⟨heap', drained, empty, each, beyond⟩ :=
    drain_eq releases holds.queued (fun p member => (holds.owned p).mpr member) enough
  have headOut := (List.nodup_cons.mp holds.queued.nodup).1
  rw [holds.made] at drained enough ⊢
  have start : Listed heap'.links (some head) ([] ++ head :: []) := empty
  refine ⟨heap', drained, start.around.1, ?_⟩
  intro p
  by_cases member : p ∈ places
  · have notHead : p ≠ head := ne_of_mem_of_not_mem member headOut
    rw [each p member]
    simp [member, notHead]
  · rw [beyond p member, holds.live]
    simp [member]

end Machine

end SlStatus.QueueEntries
