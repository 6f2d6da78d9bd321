import SlStatus.Caches

/-! A queue under lookups and under callbacks that each change one entry. A reader sees the
entries through the lookup, and is told when to look again. -/

namespace SlStatus.Dispatches
open Runs Caches

variable {Entry Key Answer Notice View : Type*}

/-- A callback is run for the entry at a place of the queue. -/
inductive Event (Answer Key Notice : Type*) where
  | lookup (asked : Answer × Key)
  | dispatch (i : Nat) (notice : Notice)

/-- The second component of a callback's result tells whether it calls for another look. -/
def step (find : Lookup Answer Key Entry) (callback : Notice → Entry → Entry × Bool) (queue : List Entry) :
    Event Answer Key Notice → Option (List Entry)
  | .lookup asked => lookup find queue asked
  | .dispatch i notice => queue[i]?.map fun entry => queue.set i (callback notice entry).1

/-- What is seen of the entry that a lookup gives. -/
def shown (find : Lookup Answer Key Entry) (view : Option Entry → View) (answer : Answer) (queue : List Entry)
    (k : Key) : Option View := (find answer queue k).map fun result => view result.1

/-- If a callback changes what is seen for some key, it calls for another look. -/
def Heard (find : Lookup Answer Key Entry) (callback : Notice → Entry → Entry × Bool) (view : Option Entry → View)
    (queue : List Entry) : Event Answer Key Notice → Prop
  | .lookup _ => True
  | .dispatch i notice => ∀ entry ∈ queue[i]?, ∀ answer k,
      shown find view answer queue k ≠ shown find view answer (queue.set i (callback notice entry).1) k →
        (callback notice entry).2 = true

/-- Where nothing is queued for the key, nothing that is queued counts. -/
def Misses [DecidableEq Key] (key : Entry → Key) (find : Lookup Answer Key Entry) : Prop :=
  ∀ answer queue k, search key queue k = none → (find answer queue k).map Prod.fst = (find answer [] k).map Prod.fst

theorem map_set_of_key {key : Entry → Key} {queue : List Entry} {i : Nat} {entry entry' : Entry}
    (here : queue[i]? = some entry) (kept : key entry' = key entry) :
    (queue.set i entry').map key = queue.map key := by
  rw [List.map_set, kept]
  apply List.ext_getElem?
  intro j
  rw [List.getElem?_set]
  split_ifs with same bound
  · subst j
    rw [List.getElem?_map, here, Option.map_some]
  · subst j
    exact (List.getElem?_eq_none (Nat.not_lt.mp bound)).symm
  · rfl

variable [DecidableEq Key]

theorem search_set_self {key : Entry → Key} {queue : List Entry} (distinct : Distinct key queue) {i : Nat}
    {entry entry' : Entry} (here : queue[i]? = some entry) (kept : key entry' = key entry) :
    search key (queue.set i entry') (key entry) = some entry' := by
  have distinct' : Distinct key (queue.set i entry') := by
    rw [Distinct, map_set_of_key here kept]
    exact distinct
  rw [← kept]
  apply search_of_mem distinct'
  exact List.mem_set (List.getElem?_eq_some_iff.mp here).1 entry'

theorem search_set_other {key : Entry → Key} {queue : List Entry} {i : Nat} {entry entry' : Entry}
    (here : queue[i]? = some entry) (kept : key entry' = key entry) {k : Key} (different : k ≠ key entry) :
    search key (queue.set i entry') k = search key queue k := by
  induction queue generalizing i with
  | nil => rfl
  | cons first rest ih =>
    cases i with
    | zero =>
      obtain rfl : first = entry := by simpa using here
      simp only [search, List.set_cons_zero, List.find?_cons, kept, decide_eq_false (Ne.symm different)]
    | succ i =>
      rw [List.getElem?_cons_succ] at here
      have tail := ih here
      simp only [search, List.set_cons_succ, List.find?_cons] at tail ⊢
      rw [tail]

/-- Lookups and callbacks that keep the keys keep them distinct. -/
theorem distinct_of_run {key : Entry → Key} {find : Lookup Answer Key Entry}
    {callback : Notice → Entry → Entry × Bool} (finds : FindsOrCreates key find)
    (keeps : ∀ notice entry, key (callback notice entry).1 = key entry)
    {past : Past (List Entry) (Event Answer Key Notice)} {queue : List Entry}
    (run : Run (step find callback) [] past queue) : Distinct key queue := by
  refine run.invariant (fun _ _ => True) (Distinct key) (Distinct.nil key) ?_ fun _ _ => trivial
  intro before event after distinct _ taken
  cases event with
  | lookup asked => exact distinct_of_lookup finds distinct taken
  | dispatch i notice =>
    obtain ⟨entry, here, rfl⟩ := Option.map_eq_some_iff.mp taken
    rw [Distinct, map_set_of_key here (keeps notice entry)]
    exact distinct

/-- The key of the changed entry is the one that shows a change. -/
theorem heard_dispatch_iff {key : Entry → Key} {find : Lookup Answer Key Entry}
    {callback : Notice → Entry → Entry × Bool} (hits : Hits key find) (misses : Misses key find)
    (keeps : ∀ notice entry, key (callback notice entry).1 = key entry) (view : Option Entry → View)
    {queue : List Entry} (distinct : Distinct key queue) (i : Nat) (notice : Notice) (answer : Answer) :
    Heard find callback view queue (.dispatch i notice : Event Answer Key Notice) ↔
      ∀ entry ∈ queue[i]?, view (some entry) ≠ view (some (callback notice entry).1) →
        (callback notice entry).2 = true := by
  constructor
  · intro heard entry here changed
    apply heard entry here answer (key entry)
    have before := hits answer queue (key entry) entry (search_of_mem distinct (List.mem_of_getElem? here))
    have after := hits answer _ (key entry) _ (search_set_self distinct here (keeps notice entry))
    simp only [shown, before, after, Option.map_some, ne_eq, Option.some.injEq]
    exact changed
  · intro told entry here other k differs
    by_contra silent
    apply differs
    have same : view (some entry) = view (some (callback notice entry).1) := by
      by_contra changed
      exact silent (told entry here changed)
    by_cases own : k = key entry
    · subst k
      have before := hits other queue (key entry) entry (search_of_mem distinct (List.mem_of_getElem? here))
      have after := hits other _ (key entry) _ (search_set_self distinct here (keeps notice entry))
      simp only [shown, before, after, Option.map_some, same]
    · have searched := search_set_other here (keeps notice entry) own
      cases found : search key queue k with
      | some queued =>
        have before := hits other queue k queued found
        have after := hits other _ k queued (searched.trans found)
        simp only [shown, before, after, Option.map_some]
      | none =>
        have before := misses other queue k found
        have after := misses other _ k (searched.trans found)
        have seen : ∀ queue, shown find view other queue k = ((find other queue k).map Prod.fst).map view := by
          intro queue
          rw [shown, Option.map_map]
          rfl
        rw [seen, seen, before, after]

end SlStatus.Dispatches
