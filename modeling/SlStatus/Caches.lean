import Mathlib.Data.List.Nodup
import SlStatus.Runs

/-! Queues of entries that are searched by key, a lookup adding an entry at the tail where it
finds none. What the entry is made from is asked outside, so a lookup has an answer of the
outside for an argument, and it may have no result at all. -/

namespace SlStatus.Caches
open Runs

variable {Entry Key Answer : Type*}

/-- A lookup gives an entry or nothing, and the queue it leaves. -/
abbrev Lookup (Answer Key Entry : Type*) := Answer → List Entry → Key → Option (Option Entry × List Entry)

/-- The queue after a lookup. -/
def lookup (find : Lookup Answer Key Entry) (queue : List Entry) (asked : Answer × Key) : Option (List Entry) :=
  (find asked.1 queue asked.2).map Prod.snd

def Distinct (key : Entry → Key) (queue : List Entry) : Prop := (queue.map key).Nodup

theorem Distinct.nil (key : Entry → Key) : Distinct key [] := List.nodup_nil

/-- An entry is known by its key. -/
theorem Distinct.eq_of_key {key : Entry → Key} {queue : List Entry} (distinct : Distinct key queue)
    {entry other : Entry} (member : entry ∈ queue) (otherMember : other ∈ queue) (same : key entry = key other) :
    entry = other := List.inj_on_of_nodup_map distinct member otherMember same

theorem Distinct.append {key : Entry → Key} {queue : List Entry} (distinct : Distinct key queue) {entry : Entry}
    (absent : ∀ other ∈ queue, key other ≠ key entry) : Distinct key (queue ++ [entry]) := by
  rw [Distinct, List.map_append, List.nodup_append]
  refine ⟨distinct, List.nodup_singleton _, ?_⟩
  intro k member k' here same
  obtain ⟨other, otherMember, rfl⟩ := List.mem_map.mp member
  rw [List.map_singleton, List.mem_singleton] at here
  exact absent other otherMember (same.trans here)

/-- Callbacks that leave the keys alone leave them distinct. -/
theorem Distinct.map {key : Entry → Key} {queue : List Entry} (distinct : Distinct key queue)
    {change : Entry → Entry} (kept : ∀ entry, key (change entry) = key entry) : Distinct key (queue.map change) := by
  have keys : (queue.map change).map key = queue.map key := by
    rw [List.map_map]
    exact List.map_congr_left fun entry _ => kept entry
  rw [Distinct, keys]
  exact distinct

variable [DecidableEq Key]

def search (key : Entry → Key) (queue : List Entry) (k : Key) : Option Entry := queue.find? fun entry => key entry = k

theorem search_eq_none {key : Entry → Key} {queue : List Entry} {k : Key} :
    search key queue k = none ↔ ∀ entry ∈ queue, key entry ≠ k := by
  simp only [search, List.find?_eq_none, decide_eq_true_eq, ne_eq]

theorem search_eq_some {key : Entry → Key} {queue : List Entry} {k : Key} {entry : Entry}
    (found : search key queue k = some entry) : entry ∈ queue ∧ key entry = k :=
  ⟨List.mem_of_find?_eq_some found, by simpa using List.find?_some found⟩

theorem search_of_mem {key : Entry → Key} {queue : List Entry} (distinct : Distinct key queue) {entry : Entry}
    (member : entry ∈ queue) : search key queue (key entry) = some entry := by
  cases found : search key queue (key entry) with
  | none => exact absurd rfl (search_eq_none.mp found entry member)
  | some other =>
    obtain ⟨otherMember, same⟩ := search_eq_some found
    rw [distinct.eq_of_key otherMember member same]

/-- The search, and what is done where it fails. -/
def findOrCreate (key : Entry → Key) (queue : List Entry) (k : Key) (created : Option Entry) :
    Option Entry × List Entry :=
  match search key queue k with
  | some entry => (some entry, queue)
  | none => (created, queue ++ created.toList)

theorem findOrCreate_miss {key : Entry → Key} {queue : List Entry} {k : Key}
    (absent : ∀ entry ∈ queue, key entry ≠ k) (created : Option Entry) :
    findOrCreate key queue k created = (created, queue ++ created.toList) := by
  simp only [findOrCreate, search_eq_none.mpr absent]

/-- Either the key is queued and nothing changes, or the queue grows by what was created. -/
theorem findOrCreate_cases (key : Entry → Key) (queue : List Entry) (k : Key) (created : Option Entry) :
    (∃ entry ∈ queue, key entry = k ∧ findOrCreate key queue k created = (some entry, queue)) ∨
    ((∀ entry ∈ queue, key entry ≠ k) ∧
      findOrCreate key queue k created = (created, queue ++ created.toList)) := by
  cases found : search key queue k with
  | none =>
    have absent := search_eq_none.mp found
    exact .inr ⟨absent, findOrCreate_miss absent created⟩
  | some entry =>
    obtain ⟨member, same⟩ := search_eq_some found
    exact .inl ⟨entry, member, same, by simp only [findOrCreate, found]⟩

/-- The lookup is a search and, where that fails, an attempt to make an entry with the key. -/
def FindsOrCreates (key : Entry → Key) (find : Lookup Answer Key Entry) : Prop :=
  ∀ answer queue k result, find answer queue k = some result →
    ∃ created : Option Entry, (∀ entry ∈ created, key entry = k) ∧ result = findOrCreate key queue k created

/-- A lookup that finds its key asks for nothing outside. -/
def Hits (key : Entry → Key) (find : Lookup Answer Key Entry) : Prop :=
  ∀ answer queue k entry, search key queue k = some entry → find answer queue k = some (some entry, queue)

/-- What a queue is to be after any sequence of lookups, and what the next one does to it. -/
structure Represents (key : Entry → Key) (find : Lookup Answer Key Entry) (queue : List Entry) : Prop where
  distinct : Distinct key queue
  hit : ∀ answer, ∀ entry ∈ queue, find answer queue (key entry) = some (some entry, queue)
  fail : ∀ answer k queue', find answer queue k = some (none, queue') → queue' = queue
  create : ∀ answer k entry queue', (∀ other ∈ queue, key other ≠ k) →
    find answer queue k = some (some entry, queue') → key entry = k ∧ queue' = queue ++ [entry]

theorem distinct_of_lookup {key : Entry → Key} {find : Lookup Answer Key Entry}
    (finds : FindsOrCreates key find) {queue queue' : List Entry} {asked : Answer × Key}
    (distinct : Distinct key queue) (looked : lookup find queue asked = some queue') : Distinct key queue' := by
  obtain ⟨result, found, rfl⟩ := Option.map_eq_some_iff.mp looked
  obtain ⟨created, keyed, rfl⟩ := finds _ _ _ _ found
  rcases findOrCreate_cases key queue asked.2 created with ⟨entry, -, -, same⟩ | ⟨absent, grown⟩
  · rw [same]
    exact distinct
  · rw [grown]
    cases created with
    | none => simpa using distinct
    | some entry => exact distinct.append fun other member => keyed entry rfl ▸ absent other member

theorem represents_of_run {key : Entry → Key} {find : Lookup Answer Key Entry} (finds : FindsOrCreates key find)
    (hits : Hits key find) {past : Past (List Entry) (Answer × Key)} {queue : List Entry}
    (run : Run (lookup find) [] past queue) : Represents key find queue := by
  have distinct : Distinct key queue := by
    refine run.invariant (fun _ _ => True) (Distinct key) (Distinct.nil key) ?_ fun _ _ => trivial
    intro before asked after distinct _ looked
    exact distinct_of_lookup finds distinct looked
  refine ⟨distinct, fun answer entry member => hits _ _ _ _ (search_of_mem distinct member), ?_, ?_⟩
  · intro answer k queue' failed
    obtain ⟨created, -, result⟩ := finds _ _ _ _ failed
    rcases findOrCreate_cases key queue k created with ⟨entry, -, -, same⟩ | ⟨-, grown⟩
    · rw [same] at result
      cases result
    · rw [grown] at result
      cases result
      exact List.append_nil _
  · intro answer k entry queue' absent made
    obtain ⟨created, keyed, result⟩ := finds _ _ _ _ made
    rw [findOrCreate_miss absent] at result
    cases result
    exact ⟨keyed entry rfl, rfl⟩

/-- The queue is what it is to be after any lookups, from the empty queue on. -/
def WellKept (key : Entry → Key) (find : Lookup Answer Key Entry) : Prop :=
  ∀ past queue, Run (lookup find) [] past queue → Represents key find queue

section Bound
variable {Object : Type*}

/-- An entry is made for the object that owns the key, if there is one. -/
def CreatesFor (key : Entry → Key) (object : Entry → Object) (owner : Answer → Key → Option Object)
    (find : Lookup Answer Key Entry) : Prop :=
  ∀ answer queue k result, find answer queue k = some result →
    ∃ created : Option Entry, created.map object = owner answer k ∧ (∀ entry ∈ created, key entry = k) ∧
      result = findOrCreate key queue k created

theorem CreatesFor.finds {key : Entry → Key} {object : Entry → Object} {owner : Answer → Key → Option Object}
    {find : Lookup Answer Key Entry} (creates : CreatesFor key object owner find) : FindsOrCreates key find := by
  intro answer queue k result found
  obtain ⟨created, -, keyed, made⟩ := creates answer queue k result found
  exact ⟨created, keyed, made⟩

/-- The owner that the first lookup of the key to find one has found. -/
def firstOwner (owner : Answer → Key → Option Object) (k : Key) : Past (List Entry) (Answer × Key) → Option Object
  | [] => none
  | (_, asked) :: past => (firstOwner owner k past).or (if asked.2 = k then owner asked.1 k else none)

theorem findOrCreate_object (key : Entry → Key) (object : Entry → Object) (queue : List Entry) (k : Key)
    (created : Option Entry) :
    (findOrCreate key queue k created).1.map object =
      ((search key queue k).map object).or (created.map object) := by
  unfold findOrCreate
  cases search key queue k <;> rfl

theorem search_findOrCreate (key : Entry → Key) (queue : List Entry) (k k' : Key) {created : Option Entry}
    (keyed : ∀ entry ∈ created, key entry = k') :
    search key (findOrCreate key queue k' created).2 k =
      (search key queue k).or (if k' = k then created else none) := by
  rcases findOrCreate_cases key queue k' created with ⟨entry, member, same, hit⟩ | ⟨absent, missed⟩
  · rw [hit]
    split_ifs with asked
    · subst asked
      obtain ⟨other, found⟩ : ∃ other, search key queue k' = some other :=
        Option.ne_none_iff_exists'.mp fun none => search_eq_none.mp none entry member same
      rw [found, Option.some_or]
    · exact Option.or_none.symm
  · rw [missed, search, List.find?_append]
    congr 1
    cases created with
    | none => split_ifs <;> rfl
    | some entry => simp [keyed entry rfl, List.find?_singleton]

/-- What is queued for a key is bound to the first owner that was found. -/
theorem search_object_of_run {key : Entry → Key} {object : Entry → Object} {owner : Answer → Key → Option Object}
    {find : Lookup Answer Key Entry} (creates : CreatesFor key object owner find)
    {past : Past (List Entry) (Answer × Key)} {queue : List Entry} (run : Run (lookup find) [] past queue) (k : Key) :
    (search key queue k).map object = firstOwner owner k past := by
  induction run with
  | start => rfl
  | @step past before after asked run looked ih =>
    obtain ⟨result, found, rfl⟩ := Option.map_eq_some_iff.mp looked
    obtain ⟨created, bound, keyed, rfl⟩ := creates _ _ _ _ found
    rw [search_findOrCreate key before k asked.2 keyed, firstOwner, ← ih, Option.map_or]
    split_ifs with same
    · rw [bound, same]
    · rfl

/-- A lookup gives the entry that was made for the first owner ever found, the present owner
being asked for only as long as there was none. -/
theorem object_of_lookup {key : Entry → Key} {object : Entry → Object} {owner : Answer → Key → Option Object}
    {find : Lookup Answer Key Entry} (creates : CreatesFor key object owner find)
    {past : Past (List Entry) (Answer × Key)} {queue queue' : List Entry} {answer : Answer} {k : Key}
    {entry : Option Entry} (run : Run (lookup find) [] past queue)
    (found : find answer queue k = some (entry, queue')) :
    entry.map object = (firstOwner owner k past).or (owner answer k) := by
  obtain ⟨created, bound, -, result⟩ := creates _ _ _ _ found
  rw [← search_object_of_run creates run k, ← bound, ← findOrCreate_object, ← result]

end Bound

end SlStatus.Caches
