import SlStatus.DeviceCaches
import SlStatus.QueueEntries

/-! The four device caches as they are in memory: the lookups through the pointers of their queues give what
the lookups of lists give, whatever the blocks that `calloc` hands out, and the loops of the
teardown take every entry out. -/

namespace SlStatus.DevicePointers
open CString Runs Caches NetworkManager ModemManager UPower Backlights DeviceCaches QueueEntries QueueMacros Links

variable {Place Dev Ap Modem : Type}

/-- What each lookup does where the search has failed. -/
def nmAttempt [DecidableEq Dev] [DecidableEq Ap] (answer : Daemon Dev Ap × Ids) (iface : Text) :
    Option (Option (Nm Dev Ap)) :=
  some ((answer.1.byIface iface).map fun device => (NetworkManager.newEntry answer.1 answer.2 iface device).1)

def mmAttempt (manager : Manager Modem) (iface : Text) : Option (Option (Mm Modem)) :=
  match portSearch iface manager.objects none with
  | .undefined => none
  | .missing => some none
  | .found modem => some (some (ModemManager.newEntry manager iface modem))

def upowerAttempt (client : Client Dev) (device : Text) : Option (Option (Upower Dev)) :=
  some ((client.owner device).map (UPower.newEntry client device))

def backlightAttempt (percent : Int → Int → Int) (answer : (Text → Option Attributes) × Bool) (name : Text) :
    Option (Option Backlight) :=
  some (if answer.2 = false then none else (readDevice percent answer.1 name).map fun brightness => { name, brightness })

variable {Entry Key Answer : Type} [DecidableEq Place] [DecidableEq Key]

/-- The lookup of the list searches and then makes the attempt, and the one through pointers does the same in
every state that any lookups and callbacks have left. -/
structure Followed (Place : Type) [DecidableEq Place] (key : Entry → Key) (find : Lookup Answer Key Entry)
    (attempt : Answer → Key → Option (Option Entry)) : Prop where
  list : ∀ answer queue k, find answer queue k = findIn key queue k (attempt answer k)
  pointers : ∀ (head : Place) (first heap : Heap Place Entry)
    (past : Past (Heap Place Entry × List Entry) (Event Place Entry Key Answer)) (queue : List Entry),
    Fresh head first → Run (both attempt key head) (first, []) past (heap, queue) → Within Unused past →
    Mirrors attempt key head heap queue

theorem followed_of_list {key : Entry → Key} {find : Lookup Answer Key Entry}
    {attempt : Answer → Key → Option (Option Entry)}
    (list : ∀ answer queue k, find answer queue k = findIn key queue k (attempt answer k)) :
    Followed Place key find attempt := by
  refine ⟨list, ?_⟩
  intro head first heap past queue fresh run within
  obtain ⟨places, holds⟩ := holds_of_run fresh run within
  exact holds.mirrors

theorem nm_list [DecidableEq Dev] [DecidableEq Ap] (answer : Daemon Dev Ap × Ids) (queue : List (Nm Dev Ap))
    (iface : Text) : nmLookup answer queue iface = findIn Nm.iface queue iface (nmAttempt answer iface) := by
  have same := nmFind_eq answer.1 answer.2 queue iface
  have looked : nmLookup answer queue iface =
      some ((nmFind answer.1 answer.2 queue iface).1, (nmFind answer.1 answer.2 queue iface).2.1) := rfl
  rw [looked, same]
  unfold findOrCreate findIn
  cases search Nm.iface queue iface <;> rfl

theorem mm_list (manager : Manager Modem) (queue : List (Mm Modem)) (iface : Text) :
    mmLookup manager queue iface = findIn Mm.iface queue iface (mmAttempt manager iface) := by
  unfold mmLookup mmFind findIn mmAttempt
  cases search Mm.iface queue iface with
  | some mm => rfl
  | none => cases portSearch iface manager.objects none <;> simp

theorem upower_list (client : Client Dev) (queue : List (Upower Dev)) (device : Text) :
    upowerLookup true client queue device = findIn Upower.device queue device (upowerAttempt client device) := by
  have looked : upowerLookup true client queue device = some (upowerFind (some client) queue device) := rfl
  rw [looked, upowerFind_eq]
  unfold findOrCreate findIn
  cases search Upower.device queue device <;> rfl

theorem backlight_list (percent : Int → Int → Int) (answer : (Text → Option Attributes) × Bool)
    (queue : List Backlight) (name : Text) :
    backlightLookup percent answer queue name =
      findIn Backlight.name queue name (backlightAttempt percent answer name) := by
  unfold backlightLookup
  rw [backlightFind_eq]
  unfold findOrCreate findIn
  cases search Backlight.name queue name <;> rfl

/-- All four lookups, on any course of lookups and callbacks, are in memory what they are on lists. -/
theorem device_queues_followed [DecidableEq Dev] [DecidableEq Ap] (percent : Int → Int → Int) :
    Followed Place Nm.iface (nmLookup : Lookup (Daemon Dev Ap × Ids) Text (Nm Dev Ap)) nmAttempt ∧
    Followed Place Mm.iface (mmLookup : Lookup (Manager Modem) Text (Mm Modem)) mmAttempt ∧
    Followed Place Upower.device (upowerLookup true : Lookup (Client Dev) Text (Upower Dev)) upowerAttempt ∧
    Followed Place Backlight.name (backlightLookup percent) (backlightAttempt percent) :=
  ⟨followed_of_list nm_list, followed_of_list mm_list, followed_of_list upower_list,
    followed_of_list (backlight_list percent)⟩

theorem exists_fresh (head : Place) : ∃ heap : Heap Place Entry, Fresh head heap := by
  let m : Memory Place := fun p => if p = head then some ⟨none, none⟩ else none
  have only (p : Place) : m.Live p ↔ p = head := by simp [m, Memory.Live]
  obtain ⟨links, made, -, -⟩ := queued_of_init ((only head).mpr rfl)
  exact ⟨⟨links, fun _ => none, []⟩, ⟨m, only, made⟩, rfl, fun _ => rfl⟩

/-- A first lookup, with its entry in any block that is not the head. -/
theorem lookup_of_attempt {key : Entry → Key} {attempt : Answer → Key → Option (Option Entry)} {head place : Place}
    {first : Heap Place Entry} (fresh : Fresh head first) (other : place ≠ head) {answer : Answer} {k : Key}
    {entry : Entry} (made : attempt answer k = some (some entry)) :
    ∃ past heap, Run (both attempt key head) (first, []) past (heap, [entry]) ∧ Within Unused past ∧
      ∃ p, heap.made = [p] := by
  have unused : Unused (first, ([] : List Entry)) (.lookup answer k place : Event Place Entry Key Answer) := by
    intro live
    exact other (List.mem_singleton.mp ((fresh.holds.live place).mp live))
  have listed : stepIn attempt key [] (.lookup answer k place) = some [entry] := by
    simp [stepIn, findIn, search, made]
  rcases step_holds fresh.holds (.lookup answer k place) unused with
    ⟨-, fails⟩ | ⟨heap, places, queue, taken, same, holds⟩
  · cases listed.symm.trans fails
  · obtain rfl := Option.some.inj (listed.symm.trans same)
    have moved : both attempt key head (first, []) (.lookup answer k place) = some (heap, [entry]) := by
      rw [both, taken, listed, Option.bind_some, Option.map_some]
    have single : heap.made.length = 1 := by
      rw [holds.made]
      simpa using congrArg List.length holds.entries
    exact ⟨_, heap, Run.start.step _ moved, List.forall_mem_singleton.mpr unused, List.length_eq_one_iff.mp single⟩

/-- A run that makes an entry, and what the queue in memory then is. -/
def FollowedWithEntry {Entry Answer : Type} (key : Entry → Text) (attempt : Answer → Text → Option (Option Entry)) :
    Prop :=
  ∃ (first heap : Heap Nat Entry) (entry : Entry), Fresh 0 first ∧
    (∃ past, Run (both attempt key 0) (first, []) past (heap, [entry])) ∧ key entry = device0 ∧
    Mirrors attempt key 0 heap [entry]

theorem followedWithEntry {Entry Answer : Type} {key : Entry → Text} {find : Lookup Answer Text Entry}
    {attempt : Answer → Text → Option (Option Entry)} (followed : Followed Nat key find attempt) {answer : Answer}
    {entry : Entry} (made : attempt answer device0 = some (some entry)) (keyed : key entry = device0) :
    FollowedWithEntry key attempt := by
  obtain ⟨first, fresh⟩ := exists_fresh (0 : Nat)
  obtain ⟨past, heap, run, within, -⟩ := lookup_of_attempt fresh Nat.one_ne_zero made
  have mirrors := followed.pointers 0 first heap past [entry] fresh run within
  exact ⟨first, heap, entry, fresh, ⟨past, run⟩, keyed, mirrors⟩

theorem device_queues_followed_found :
    FollowedWithEntry Nm.iface (nmAttempt : Daemon Unit Unit × Ids → _) ∧
    FollowedWithEntry Mm.iface (mmAttempt : Manager Unit → _) ∧
    FollowedWithEntry Upower.device (upowerAttempt : Client Unit → _) ∧
    FollowedWithEntry Backlight.name (backlightAttempt wholePercentage) := by
  obtain ⟨nm, mm, upower, backlight⟩ := @device_queues_followed Nat Unit Unit Unit _ _ _ wholePercentage
  refine ⟨?_, ?_, ?_, ?_⟩
  · exact @followedWithEntry _ _ _ _ _ nm wiredDevice _ rfl rfl
  · exact @followedWithEntry _ _ _ _ _ mm modemDevice _ rfl rfl
  · exact @followedWithEntry _ _ _ _ _ upower batteryDevice _ rfl rfl
  · exact @followedWithEntry _ _ _ _ _ backlight panelDevice _ rfl rfl

/-- What `nm_free` makes of an entry that it has taken out: it is not given back. -/
def nmCleared (nm : Nm Dev Ap) : Nm Dev Ap := { nm with ipv4 := none, ipv6 := none, essid := none, stateId := 0 }

def nmFree (head : Place) (heap : Heap Place (Nm Dev Ap)) : Option (List Place × Heap Place (Nm Dev Ap)) :=
  drain (fun heap p => heap.change p nmCleared) head heap.made.length heap

def mmFree (head : Place) (heap : Heap Place (Mm Modem)) : Option (List Place × Heap Place (Mm Modem)) :=
  drain (fun heap _ => some heap) head heap.made.length heap

/-- What `upower_free` does with an entry that it has taken out. -/
def upowerRelease (heap : Heap Place (Upower Dev)) (p : Place) : Option (Heap Place (Upower Dev)) := do
  let heap ← heap.change p fun upower => { upower with model := none }
  heap.free p

def upowerFree (head : Place) (heap : Heap Place (Upower Dev)) : Option (List Place × Heap Place (Upower Dev)) :=
  drain upowerRelease head heap.made.length heap

theorem releases_upower : Releases False (upowerRelease : Heap Place (Upower Dev) → Place → _) := by
  intro heap p live owned
  obtain ⟨changed, done, kept, same⟩ := releases_change (fun upower : Upower Dev => { upower with model := none })
    heap p live owned
  have still : (changed.entries p).isSome := by
    obtain ⟨entry, read⟩ := Option.isSome_iff_exists.mp owned
    simp only [Heap.change, read, Option.bind_eq_bind, Option.bind_some, Option.pure_def, Option.some.injEq] at done
    simp [← done]
  obtain ⟨freed, given, gone, others⟩ := releases_free changed p (kept.mpr trivial) still
  refine ⟨freed, ?_, gone, ?_⟩
  · simp only [upowerRelease, done, given, Option.bind_eq_bind, Option.bind_some]
  · intro q other
    obtain ⟨links, entries⟩ := others q other
    exact ⟨links.trans (same q other).1, entries.trans (same q other).2⟩

/-- Whatever has been looked up and called back, the loop takes all entries out in the order of their making
and ends, and it leaves allocated the head and, if it keeps them, the entries. -/
def TornDown (Place : Type) [DecidableEq Place] (key : Entry → Key) (attempt : Answer → Key → Option (Option Entry))
    (free : Place → Heap Place Entry → Option (List Place × Heap Place Entry)) (keeps : Prop) : Prop :=
  ∀ (head : Place) (first heap : Heap Place Entry)
    (past : Past (Heap Place Entry × List Entry) (Event Place Entry Key Answer)) (queue : List Entry),
    Fresh head first → Run (both attempt key head) (first, []) past (heap, queue) → Within Unused past →
    ∃ heap', free head heap = some (heap.made, heap') ∧ tailqFirst heap'.links head = some none ∧
      ∀ p, heap'.links.Live p ↔ p = head ∨ keeps ∧ p ∈ heap.made

theorem tornDown_of_releases {key : Entry → Key} {attempt : Answer → Key → Option (Option Entry)}
    {release : Heap Place Entry → Place → Option (Heap Place Entry)} {keeps : Prop} (releases : Releases keeps release) :
    TornDown Place key attempt (fun head heap => drain release head heap.made.length heap) keeps := by
  intro head first heap past queue fresh run within
  obtain ⟨places, holds⟩ := holds_of_run fresh run within
  exact drain_of_holds holds releases

/-- Only `upower_free` gives its entries back, each of them once; `nm_free` and `mm_free` take theirs out of the
queue and leave them allocated. -/
theorem device_queues_torn_down [DecidableEq Dev] [DecidableEq Ap] :
    TornDown Place Upower.device (upowerAttempt : Client Dev → Text → _) upowerFree False ∧
    TornDown Place Nm.iface (nmAttempt : Daemon Dev Ap × Ids → Text → _) nmFree True ∧
    TornDown Place Mm.iface (mmAttempt : Manager Modem → Text → _) mmFree True :=
  ⟨tornDown_of_releases releases_upower, tornDown_of_releases (releases_change nmCleared),
    tornDown_of_releases releases_nothing⟩

/-- A run that makes an entry, and the teardown after it. -/
def TornDownWithEntry {Entry Answer : Type} (key : Entry → Text) (attempt : Answer → Text → Option (Option Entry))
    (free : Nat → Heap Nat Entry → Option (List Nat × Heap Nat Entry)) (keeps : Prop) : Prop :=
  ∃ (first heap heap' : Heap Nat Entry) (p : Nat) (entry : Entry), Fresh 0 first ∧
    (∃ past, Run (both attempt key 0) (first, []) past (heap, [entry])) ∧ heap.made = [p] ∧
    free 0 heap = some ([p], heap') ∧ tailqFirst heap'.links 0 = some none ∧
    ∀ q, heap'.links.Live q ↔ q = 0 ∨ keeps ∧ q = p

theorem tornDownWithEntry {Entry Answer : Type} {key : Entry → Text} {attempt : Answer → Text → Option (Option Entry)}
    {free : Nat → Heap Nat Entry → Option (List Nat × Heap Nat Entry)} {keeps : Prop}
    (tornDown : TornDown Nat key attempt free keeps) {answer : Answer} {entry : Entry}
    (made : attempt answer device0 = some (some entry)) : TornDownWithEntry key attempt free keeps := by
  obtain ⟨first, fresh⟩ := exists_fresh (0 : Nat)
  obtain ⟨past, heap, run, within, p, single⟩ := lookup_of_attempt fresh Nat.one_ne_zero made
  obtain ⟨heap', freed, empty, live⟩ := tornDown 0 first heap past [entry] fresh run within
  rw [single] at freed
  simp only [single, List.mem_singleton] at live
  exact ⟨first, heap, heap', p, entry, fresh, ⟨past, run⟩, single, freed, empty, live⟩

theorem device_queues_torn_down_found :
    TornDownWithEntry Upower.device (upowerAttempt : Client Unit → _) upowerFree False ∧
    TornDownWithEntry Nm.iface (nmAttempt : Daemon Unit Unit × Ids → _) nmFree True ∧
    TornDownWithEntry Mm.iface (mmAttempt : Manager Unit → _) mmFree True := by
  obtain ⟨upower, nm, mm⟩ := @device_queues_torn_down Nat Unit Unit Unit _ _ _
  refine ⟨?_, ?_, ?_⟩
  · exact @tornDownWithEntry _ _ _ _ _ _ upower batteryDevice _ rfl
  · exact @tornDownWithEntry _ _ _ _ _ _ nm wiredDevice _ rfl
  · exact @tornDownWithEntry _ _ _ _ _ _ mm modemDevice _ rfl

end SlStatus.DevicePointers
