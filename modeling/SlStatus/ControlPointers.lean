import SlStatus.QueueEntries
import SlStatus.Sndio

/-! The list of controls of `components/volume.c` as it is in memory: the `LIST_*` macros, the callbacks that run
through the pointers, and the loop of `cleanup`. What they do there is what they do on a list. -/

namespace SlStatus.ControlPointers
open Links QueueEntries Runs Sndio

variable {Place : Type}

def listFirst (m : Memory Place) (head : Place) : Option (Option Place) := m.next head

section Definitions

variable [DecidableEq Place]

def listInsertHead (m : Memory Place) (head elm : Place) : Option (Memory Place) := insertAfter m none head elm

def listRemove (m : Memory Place) (elm : Place) : Option (Memory Place) := remove m none elm

/-- The loop of `LIST_FOREACH_SAFE` in `ondesc`, which the first control with the address ends. -/
def erase (addr : UInt32) : Nat → Option Place → Heap Place Control → Option (Heap Place Control)
  | _, none, heap => some heap
  | 0, some _, _ => none
  | budget + 1, some c, heap => do
      let ctmp ← heap.links.next c
      let control ← heap.entries c
      if addr = control.addr then do
        let links ← listRemove heap.links c
        Heap.free { heap with links } c
      else erase addr budget ctmp heap

/-- `malloc` is the block that it would give, or `NULL`. -/
def ondesc (head : Place) (heap : Heap Place Control) (desc : Option Desc) (val : Int32) (malloc : Option Place) :
    Option (Heap Place Control) :=
  match desc with
  | none => some heap
  | some desc => do
      let first ← listFirst heap.links head
      let heap ← erase desc.addr heap.made.length first heap
      match controlType desc, malloc with
      | some type, some c => do
          let heap := heap.calloc c { addr := desc.addr, type, maxval := desc.maxval, val := val.toUInt32 }
          let links ← listInsertHead heap.links head c
          pure { heap with links, made := heap.made ++ [c] }
      | _, _ => pure heap

def onval (head : Place) (heap : Heap Place Control) (addr val : UInt32) : Option (Heap Place Control) := do
  let first ← listFirst heap.links head
  let c ← (← scan heap Control.addr addr heap.made.length first)
  heap.change c fun control => { control with val }

/-- The loop of `cleanup`. -/
def clear (head : Place) : Nat → Heap Place Control → Option (Heap Place Control)
  | budget, heap => do
      match ← listFirst heap.links head with
      | none => pure heap
      | some c =>
          match budget with
          | 0 => none
          | budget + 1 => do
              let links ← listRemove heap.links c
              let heap ← Heap.free { heap with links } c
              clear head budget heap

/-- The controls that the loop of `vol_perc` comes to. -/
def foreach (heap : Heap Place Control) : Nat → Option Place → Option (List Control)
  | _, none => some []
  | 0, some _ => none
  | budget + 1, some c => do
      let control ← heap.entries c
      let following ← heap.links.next c
      let rest ← foreach heap budget following
      pure (control :: rest)

end Definitions

/-- The memory holds the head and these controls at these places, and nothing else. No loop need be longer than
the number of controls that were ever allocated. -/
structure Holds (heap : Heap Place Control) (head : Place) (places : List Place) (controls : List Control) : Prop where
  listed : Listed heap.links none (head :: places)
  entries : places.map heap.entries = controls.map some
  live : ∀ p, heap.links.Live p ↔ p ∈ head :: places
  owned : ∀ p, (heap.entries p).isSome ↔ p ∈ places
  few : places.length ≤ heap.made.length

section Loops

variable {heap : Heap Place Control} {head c : Place} {places front back ahead behind : List Place}
  {controls earlier later : List Control} {control : Control} {addr : UInt32} {budget : Nat}

theorem Holds.first (holds : Holds heap head places controls) : listFirst heap.links head = some places.head? := by
  have start : Listed heap.links none ([] ++ head :: places) := holds.listed
  exact start.around.1

theorem Holds.scanned (holds : Holds heap head places controls) (addr : UInt32) :
    (scan heap Control.addr addr heap.made.length places.head? = some none ∧ ∀ control ∈ controls, control.addr ≠ addr) ∨
    ∃ p control ahead behind earlier later,
      scan heap Control.addr addr heap.made.length places.head? = some (some p) ∧ places = ahead ++ p :: behind ∧
      controls = earlier ++ control :: later ∧ ahead.map heap.entries = earlier.map some ∧
      heap.entries p = some control ∧ behind.map heap.entries = later.map some ∧ control.addr = addr ∧
      ∀ other ∈ earlier, other.addr ≠ addr := by
  have whole : Listed heap.links none (head :: ([] ++ places)) := holds.listed
  exact scan_split Control.addr addr whole holds.entries holds.few

theorem Holds.owned_live (holds : Holds heap head places controls) :
    ∀ p, (heap.entries p).isSome → heap.links.Live p := by
  intro p entered
  exact (holds.live p).mpr (List.mem_cons_of_mem head ((holds.owned p).mp entered))

theorem foreach_eq (listed : Listed heap.links none (head :: (front ++ back)))
    (entries : back.map heap.entries = controls.map some) (enough : back.length ≤ budget) :
    foreach heap budget back.head? = some controls := by
  induction back generalizing front controls budget with
  | nil =>
    obtain rfl : controls = [] := by simpa using entries.symm
    unfold foreach
    rfl
  | cons c back ih =>
    cases controls with
    | nil => cases entries
    | cons control controls =>
      obtain ⟨here, rest⟩ := List.cons.inj entries
      have split : Listed heap.links none ((head :: front) ++ c :: back) := listed
      have shifted : Listed heap.links none (head :: ((front ++ [c]) ++ back)) := by
        rw [List.append_assoc]
        exact listed
      cases budget with
      | zero => exact absurd enough (Nat.not_succ_le_zero _)
      | succ budget =>
        have tail := ih shifted rest (Nat.le_of_succ_le_succ enough)
        simp only [List.head?_cons, foreach, here, split.around.1, tail, Option.bind_eq_bind, Option.bind_some,
          Option.pure_def]

variable [DecidableEq Place]

/-- What is done with the place where the search has ended. -/
def takeOut (heap : Heap Place Control) : Option Place → Option (Heap Place Control)
  | none => some heap
  | some c => do
      let links ← listRemove heap.links c
      Heap.free { heap with links } c

/-- The loop is the search, and then the removal. -/
theorem erase_of_scan (live : ∀ p, (heap.entries p).isSome → heap.links.Live p) {p place : Option Place}
    (scanned : scan heap Control.addr addr budget p = some place) : erase addr budget p heap = takeOut heap place := by
  induction budget generalizing p with
  | zero =>
    cases p with
    | none =>
      unfold scan at scanned
      cases scanned
      unfold erase
      rfl
    | some c =>
      unfold scan at scanned
      cases scanned
  | succ budget ih =>
    cases p with
    | none =>
      unfold scan at scanned
      cases scanned
      unfold erase
      rfl
    | some c =>
      rw [scan] at scanned
      obtain ⟨control, here, rest⟩ := Option.bind_eq_some_iff.mp scanned
      obtain ⟨link, there⟩ := Option.isSome_iff_exists.mp (live c (by rw [here, Option.isSome_some]))
      have next : heap.links.next c = some link.next := congrArg (Option.map Link.next) there
      rw [erase, next, here]
      simp only [Option.bind_eq_bind, Option.bind_some]
      by_cases same : control.addr = addr
      · rw [if_pos same] at rest
        cases rest
        rw [if_pos same.symm]
        rfl
      · rw [if_neg same, next] at rest
        rw [if_neg (Ne.symm same)]
        exact ih rest

theorem takeOut_holds (holds : Holds heap head (ahead ++ c :: behind) (earlier ++ control :: later))
    (before : ahead.map heap.entries = earlier.map some) (after : behind.map heap.entries = later.map some) :
    ∃ heap', takeOut heap (some c) = some heap' ∧ Holds heap' head (ahead ++ behind) (earlier ++ later) := by
  obtain ⟨front, p, whole⟩ : ∃ front p, head :: ahead = front ++ [p] := QueueMacros.exists_before head ahead
  have listed := holds.listed
  rw [← List.cons_append, whole, List.append_assoc] at listed
  obtain ⟨links, removed, shorter, rewritten⟩ := remove_listed listed
  rw [← List.singleton_append, ← List.append_assoc, ← whole, List.cons_append] at shorter rewritten
  have live : links.Live c := (rewritten.live c).mpr ((holds.live c).mpr (by simp))
  obtain ⟨freed, given, gone, same⟩ := Memory.free_eq live
  have nodup := holds.listed.nodup
  have outside : c ∉ head :: (ahead ++ behind) := by grind
  have elsewhere : ∀ q ∈ head :: (ahead ++ behind), q ≠ c := fun q member => ne_of_mem_of_not_mem member outside
  refine ⟨{ heap with links := freed, entries := Function.update heap.entries c none }, ?_, ?_, ?_, ?_, ?_, ?_⟩
  · simp only [takeOut, listRemove, removed, Heap.free, given, Option.bind_eq_bind, Option.bind_some, Option.pure_def]
  · exact shorter.frame fun q member => same q (elsewhere q member)
  · have kept : ∀ part : List Place, part ⊆ ahead ++ behind →
        part.map (Function.update heap.entries c none) = part.map heap.entries := by
      intro part inside
      apply List.map_congr_left
      intro q member
      exact Function.update_of_ne (elsewhere q (List.mem_cons_of_mem head (inside member))) _ _
    rw [List.map_append, List.map_append, kept ahead (List.subset_append_left _ _),
      kept behind (List.subset_append_right _ _), before, after]
  · intro q
    by_cases here : q = c
    · subst q
      exact iff_of_false gone outside
    · have unchanged : freed.Live q ↔ heap.links.Live q := by
        rw [← rewritten.live q]
        unfold Memory.Live
        rw [same q here]
      rw [unchanged, holds.live q]
      simp [here]
  · intro q
    by_cases here : q = c
    · subst q
      have notQueued : c ∉ ahead ++ behind := fun member => outside (List.mem_cons_of_mem head member)
      simpa using notQueued
    · change (Function.update heap.entries c none q).isSome ↔ _
      rw [Function.update_of_ne here, holds.owned q]
      simp [here]
  · have few := holds.few
    rw [List.length_append, List.length_cons] at few
    show (ahead ++ behind).length ≤ heap.made.length
    rw [List.length_append]
    omega

end Loops

section Calls

variable [DecidableEq Place] {heap : Heap Place Control} {head c : Place} {places : List Place}
  {controls : List Control}

theorem erase_holds (holds : Holds heap head places controls) (addr : UInt32) :
    ∃ heap' places', erase addr heap.made.length places.head? heap = some heap' ∧
      Holds heap' head places' (controls.eraseP fun c => addr = c.addr) := by
  rcases holds.scanned addr with
    ⟨scanned, others⟩ | ⟨p, control, ahead, behind, earlier, later, scanned, rfl, rfl, before, -, after, keyed, others⟩
  · refine ⟨heap, places, erase_of_scan holds.owned_live scanned, ?_⟩
    rw [List.eraseP_of_forall_not]
    · exact holds
    · intro other member
      simpa using Ne.symm (others other member)
  · obtain ⟨heap', taken, holds'⟩ := takeOut_holds holds before after
    refine ⟨heap', ahead ++ behind, (erase_of_scan holds.owned_live scanned).trans taken, ?_⟩
    have passed : ∀ other ∈ earlier, ¬(decide (addr = other.addr)) = true := by
      intro other member
      simpa using Ne.symm (others other member)
    rw [List.eraseP_append_right _ passed, List.eraseP_cons_of_pos (by simpa using keyed.symm)]
    exact holds'

/-- A new control is put at the front. -/
theorem insert_holds (holds : Holds heap head places controls) (unused : ¬heap.links.Live c) (control : Control) :
    ∃ links, listInsertHead (heap.calloc c control).links head c = some links ∧
      Holds { heap.calloc c control with links, made := heap.made ++ [c] } head (c :: places) (control :: controls) := by
  have outside : c ∉ head :: places := fun member => unused ((holds.live c).mpr member)
  have notListed : c ∉ places := fun member => outside (List.mem_cons_of_mem head member)
  have kept : Listed (heap.calloc c control).links none ([] ++ head :: places) :=
    holds.listed.frame fun p member => Memory.alloc_ne (ne_of_mem_of_not_mem member outside)
  have live : (heap.calloc c control).links.Live c := Memory.live_alloc.mpr (.inl rfl)
  obtain ⟨links, inserted, listed, rewritten⟩ := insertAfter_listed kept outside live
  refine ⟨links, inserted, listed, ?_, ?_, ?_, ?_⟩
  · have before : places.map (Function.update heap.entries c (some control)) = places.map heap.entries :=
      List.map_congr_left fun p member => Function.update_of_ne (ne_of_mem_of_not_mem member notListed) _ _
    rw [List.map_cons, List.map_cons, ← holds.entries, ← before]
    exact congrArg (· :: _) (Function.update_self ..)
  · intro p
    have known := holds.live p
    rw [rewritten.live]
    change Memory.Live (heap.links.alloc c ⟨none, none⟩) p ↔ _
    rw [Memory.live_alloc, known]
    simp only [List.mem_cons]
    exact or_left_comm
  · intro p
    change (Function.update heap.entries c (some control) p).isSome ↔ _
    by_cases same : p = c
    · simp [same]
    · rw [Function.update_of_ne same, holds.owned p]
      simp [same]
  · show (c :: places).length ≤ (heap.made ++ [c]).length
    rw [List.length_cons, List.length_append, List.length_singleton]
    exact Nat.succ_le_succ holds.few

/-- The block is not allocated when `malloc` gives it. -/
def Unused (head : Place) (heap : Heap Place Control) (desc : Option Desc) (malloc : Option Place) : Prop :=
  ∀ described ∈ desc, ∀ c ∈ malloc, ∀ first ∈ listFirst heap.links head,
    ∀ heap' ∈ erase described.addr heap.made.length first heap, ¬heap'.links.Live c

theorem ondesc_holds (holds : Holds heap head places controls) (desc : Option Desc) (val : Int32)
    {malloc : Option Place} (unused : Unused head heap desc malloc) :
    ∃ heap' places', ondesc head heap desc val malloc = some heap' ∧
      Holds heap' head places' (Sndio.ondesc controls desc val malloc.isSome) := by
  cases desc with
  | none => exact ⟨heap, places, rfl, holds⟩
  | some desc =>
    obtain ⟨erased, rest, done, holds'⟩ := erase_holds holds desc.addr
    rw [Sndio.ondesc]
    cases matched : controlType desc with
    | none =>
      refine ⟨erased, rest, ?_, holds'⟩
      simp only [ondesc, holds.first, done, matched, Option.bind_eq_bind, Option.bind_some, Option.pure_def]
    | some type =>
      cases malloc with
      | none =>
        refine ⟨erased, rest, ?_, holds'⟩
        simp only [ondesc, holds.first, done, matched, Option.bind_eq_bind, Option.bind_some, Option.pure_def]
      | some c =>
        have fresh : ¬erased.links.Live c := unused desc rfl c rfl _ holds.first erased done
        obtain ⟨links, inserted, holds''⟩ :=
          insert_holds holds' fresh { addr := desc.addr, type, maxval := desc.maxval, val := val.toUInt32 }
        refine ⟨_, c :: rest, ?_, holds''⟩
        simp only [ondesc, holds.first, done, matched, inserted, Option.bind_eq_bind, Option.bind_some, Option.pure_def]
        rfl

/-- Writing through the pointer that the search has ended at. -/
theorem onval_holds (holds : Holds heap head places controls) (addr val : UInt32) :
    (onval head heap addr val = none ∧ Sndio.onval controls addr val = none) ∨
    ∃ heap' controls', onval head heap addr val = some heap' ∧ Sndio.onval controls addr val = some controls' ∧
      Holds heap' head places controls' := by
  rcases holds.scanned addr with
    ⟨scanned, others⟩ | ⟨p, control, ahead, behind, earlier, later, scanned, rfl, rfl, before, found, after, keyed, others⟩
  · refine .inl ⟨?_, onval_eq_none others val⟩
    simp only [onval, holds.first, scanned, Option.bind_eq_bind, Option.bind_some, Option.bind_none]
  · right
    have written : Sndio.onval (earlier ++ control :: later) addr val =
        some (earlier ++ { control with val } :: later) := by
      clear before holds
      induction earlier with
      | nil => rw [List.nil_append, Sndio.onval, if_pos keyed, List.nil_append]
      | cons first earlier ih =>
        obtain ⟨different, others⟩ := List.forall_mem_cons.mp others
        rw [List.cons_append, Sndio.onval, if_neg different, ih others, Option.map_some, List.cons_append]
    have nodup : (ahead ++ p :: behind).Nodup := (List.nodup_cons.mp holds.listed.nodup).2
    have notAhead : p ∉ ahead := by grind
    have notBehind : p ∉ behind := by grind
    have kept : ∀ part : List Place, p ∉ part →
        part.map (Function.update heap.entries p (some { control with val })) = part.map heap.entries :=
      fun part outside =>
        List.map_congr_left fun q member => Function.update_of_ne (ne_of_mem_of_not_mem member outside) _ _
    refine ⟨{ heap with entries := Function.update heap.entries p (some { control with val }) }, _, ?_, written,
      holds.listed, ?_, holds.live, ?_, holds.few⟩
    · simp only [onval, holds.first, scanned, Heap.change, found, Option.bind_eq_bind, Option.bind_some, Option.pure_def]
    · simp only [List.map_append, List.map_cons, kept ahead notAhead, kept behind notBehind, before, after,
        Function.update_self]
    · intro q
      rw [← holds.owned q]
      by_cases same : q = p
      · simp [same, found]
      · change (Function.update heap.entries p _ q).isSome ↔ _
        rw [Function.update_of_ne same]

/-- The loop of `cleanup` gives back every control. -/
theorem clear_holds {budget : Nat} (holds : Holds heap head places controls) (enough : places.length ≤ budget) :
    ∃ heap', clear head budget heap = some heap' ∧ Holds heap' head [] [] := by
  induction places generalizing heap controls budget with
  | nil =>
    obtain rfl : controls = [] := by simpa using holds.entries.symm
    refine ⟨heap, ?_, holds⟩
    unfold clear
    simp only [holds.first, List.head?_nil, Option.bind_eq_bind, Option.bind_some, Option.pure_def]
  | cons c places ih =>
    cases controls with
    | nil => cases holds.entries
    | cons control controls =>
      cases budget with
      | zero => exact absurd enough (Nat.not_succ_le_zero _)
      | succ budget =>
        obtain ⟨here, rest⟩ := List.cons.inj holds.entries
        have split : Holds heap head ([] ++ c :: places) ([] ++ control :: controls) := holds
        obtain ⟨heap', taken, holds'⟩ := takeOut_holds split rfl rest
        obtain ⟨cleared, done, empty⟩ := ih holds' (Nat.le_of_succ_le_succ enough)
        refine ⟨cleared, ?_, empty⟩
        unfold clear
        simp only [takeOut, Option.bind_eq_bind] at taken
        simp only [holds.first, List.head?_cons, Option.bind_eq_bind, Option.bind_some]
        rw [← Option.bind_assoc, taken, Option.bind_some, done]

end Calls

/-- A callback or a clean-up, with the block that `malloc` would give. -/
inductive Event (Place : Type) where
  | ondesc (desc : Option Desc) (val : Int32) (malloc : Option Place)
  | onval (addr val : UInt32)
  | cleanup
  deriving DecidableEq

section Machine

variable [DecidableEq Place] (head : Place)

def step (heap : Heap Place Control) : Event Place → Option (Heap Place Control)
  | .ondesc desc val malloc => ondesc head heap desc val malloc
  | .onval addr val => onval head heap addr val
  | .cleanup => clear head heap.made.length heap

/-- The same on a list. -/
def stepIn (controls : List Control) : Event Place → Option (List Control)
  | .ondesc desc val malloc => some (Sndio.ondesc controls desc val malloc.isSome)
  | .onval addr val => Sndio.onval controls addr val
  | .cleanup => some []

def Allocated (heap : Heap Place Control) : Event Place → Prop
  | .ondesc desc _ malloc => Unused head heap desc malloc
  | _ => True

/-- The memory of the process before anything is described. -/
def started : Heap Place Control :=
  { links := fun p => if p = head then some ⟨none, none⟩ else none, entries := fun _ => none, made := [] }

/-- The loops see the list, which holds all that is allocated, and a call is undefined only where it is on the
list. -/
structure Mirrors (heap : Heap Place Control) (controls : List Control) : Prop where
  traversed : ((listFirst heap.links head).bind fun first => foreach heap heap.made.length first) = some controls
  owned : ∃ places : List Place, places.Nodup ∧ places.map heap.entries = controls.map some ∧
    ∀ p, heap.links.Live p ↔ p = head ∨ p ∈ places
  calls : ∀ event, Allocated head heap event → (step head heap event).isSome = (stepIn controls event).isSome

variable {head} {heap : Heap Place Control} {places : List Place} {controls : List Control}

theorem holds_started : Holds (started head) head [] [] := by
  constructor
  · refine ⟨.cons_cons ⟨?_, nofun⟩ (.singleton none), List.nodup_singleton head, nofun⟩
    simp [started, Memory.next]
  · rfl
  · intro p
    by_cases same : p = head <;> simp [started, Memory.Live, same]
  · intro p
    simp [started]
  · exact le_refl 0

theorem step_holds (holds : Holds heap head places controls) (event : Event Place) (unused : Allocated head heap event) :
    (step head heap event = none ∧ stepIn controls event = none) ∨
    ∃ heap' places' controls', step head heap event = some heap' ∧ stepIn controls event = some controls' ∧
      Holds heap' head places' controls' := by
  cases event with
  | ondesc desc val malloc =>
    obtain ⟨heap', places', done, holds'⟩ := ondesc_holds holds desc val unused
    exact .inr ⟨heap', places', _, done, rfl, holds'⟩
  | onval addr val =>
    rcases onval_holds holds addr val with ⟨fails, failsIn⟩ | ⟨heap', controls', gives, givesIn, holds'⟩
    · exact .inl ⟨fails, failsIn⟩
    · exact .inr ⟨heap', places, controls', gives, givesIn, holds'⟩
  | cleanup =>
    obtain ⟨heap', done, empty⟩ := clear_holds holds holds.few
    exact .inr ⟨heap', [], [], done, rfl, empty⟩

theorem Holds.mirrors (holds : Holds heap head places controls) : Mirrors head heap controls := by
  constructor
  · have whole : Listed heap.links none (head :: ([] ++ places)) := holds.listed
    rw [holds.first, Option.bind_some]
    exact foreach_eq whole holds.entries holds.few
  · refine ⟨places, (List.nodup_cons.mp holds.listed.nodup).2, holds.entries, ?_⟩
    intro p
    rw [holds.live, List.mem_cons]
  · intro event unused
    rcases step_holds holds event unused with ⟨fails, failsIn⟩ | ⟨heap', places', controls', gives, givesIn, -⟩
    · rw [fails, failsIn, Option.isSome_none, Option.isSome_none]
    · rw [gives, givesIn, Option.isSome_some, Option.isSome_some]

theorem holds_of_run {past : Past (Heap Place Control) (Event Place)} (run : Run (step head) (started head) past heap)
    (within : Within (Allocated head) past) :
    ∃ calls places controls, Run stepIn [] calls controls ∧ calls.map Prod.snd = past.map Prod.snd ∧
      Holds heap head places controls := by
  induction run with
  | start => exact ⟨[], [], [], .start, rfl, holds_started⟩
  | step event run move ih =>
    obtain ⟨calls, places, controls, reached, same, holds⟩ := ih within.tail
    rcases step_holds holds event within.head with ⟨fails, -⟩ | ⟨heap', places', controls', gives, givesIn, holds'⟩
    · rw [fails] at move
      cases move
    · rw [gives] at move
      cases move
      refine ⟨(controls, event) :: calls, places', controls', .step event reached givesIn, ?_, holds'⟩
      rw [List.map_cons, List.map_cons, same]

/-- Over any callbacks and clean-ups, with any blocks from `malloc`, what is in memory is what the same calls make
of a list: no pointer is followed to a control that is gone, none is given back twice, and none is lost. -/
theorem controls_of_run {past : Past (Heap Place Control) (Event Place)}
    (run : Run (step head) (started head) past heap) (within : Within (Allocated head) past) :
    ∃ calls controls, Run stepIn [] calls controls ∧ calls.map Prod.snd = past.map Prod.snd ∧
      Mirrors head heap controls := by
  obtain ⟨calls, places, controls, reached, same, holds⟩ := holds_of_run run within
  exact ⟨calls, controls, reached, same, holds.mirrors⟩

instance (heap : Heap Place Control) (desc : Option Desc) (malloc : Option Place) :
    Decidable (Unused head heap desc malloc) :=
  inferInstanceAs (Decidable (∀ described ∈ desc, ∀ c ∈ malloc, ∀ first ∈ listFirst heap.links head,
    ∀ heap' ∈ erase described.addr heap.made.length first heap, ¬heap'.links.Live c))

instance (heap : Heap Place Control) (event : Event Place) : Decidable (Allocated head heap event) := by
  cases event <;> unfold Allocated <;> infer_instance

end Machine

/-- A control that is described again gets the block that was its own, and another one stays in front. -/
theorem controls_of_run_reused :
    ∃ past heap, Run (step 0) (started 0) past heap ∧ past.length = 5 ∧
      ∃ calls controls, Run stepIn [] calls controls ∧ calls.map Prod.snd = past.map Prod.snd ∧
        Mirrors 0 heap controls := by
  obtain ⟨past, heap, run, checked⟩ := exists_run (step 0) (started 0)
    [.ondesc (some (outputLevel 7)) 100 (some 1), .ondesc (some (outputLevel 8)) 50 (some 2),
      .ondesc (some (outputLevel 7)) 30 (some 1), .onval 8 60, .ondesc none 0 none]
    (fun past _ => decide (past.length = 5 ∧ Within (Allocated 0) past)) (by decide)
  obtain ⟨five, within⟩ := of_decide_eq_true checked
  exact ⟨past, heap, run, five, controls_of_run run within⟩

end SlStatus.ControlPointers
