import SlStatus.Links
import SlStatus.Runs

/-! The tail queues of `queue.h`. A head is a place like the link of an entry, its `tqh_first` and
`tqh_last` standing where an entry has its two pointers: `TAILQ_LAST` and `TAILQ_PREV` read the
one as the other. -/

namespace SlStatus.QueueMacros
open Links Runs

variable {Place : Type*}

def tailqFirst (m : Memory Place) (head : Place) : Option (Option Place) := m.next head

def tailqLast (m : Memory Place) (head : Place) : Option (Option Place) := previous m head

def tailqPrev (m : Memory Place) (elm : Place) : Option (Option Place) := previous m elm

def tailqForeach (m : Memory Place) (head : Place) (budget : Nat) : Option (List Place) :=
  (tailqFirst m head).bind fun first => walk m.next budget first

def tailqForeachReverse (m : Memory Place) (head : Place) (budget : Nat) : Option (List Place) :=
  (tailqLast m head).bind fun last => walk (tailqPrev m) budget last

/-- The queue at `head` holds these places in this order. -/
abbrev Queued (m : Memory Place) (head : Place) (queue : List Place) : Prop := Listed m (some head) (head :: queue)

/-- The place before any part of the queue. -/
theorem exists_before (head : Place) (front : List Place) : ∃ before p, head :: front = before ++ [p] :=
  ⟨_, _, (List.dropLast_append_getLast (List.cons_ne_nil head front)).symm⟩

theorem queued_foreach {m : Memory Place} {head : Place} {queue : List Place} (queued : Queued m head queue)
    {budget : Nat} (enough : queue.length ≤ budget) :
    tailqForeach m head budget = some queue ∧ tailqForeachReverse m head budget = some queue.reverse := by
  have whole : head :: queue = head :: (queue ++ []) := by rw [List.append_nil]
  have start : Listed m (some head) ([] ++ head :: queue) := queued
  refine ⟨walk_forward start enough, ?_⟩
  have last : tailqLast m head = some queue.getLast? := by
    rw [Queued, whole] at queued
    exact previous_eq queued (by simpa using queued.known_rear)
  rw [tailqForeachReverse, last, Option.bind_some]
  rw [Queued, whole] at queued
  exact walk_backward queued enough

variable [DecidableEq Place]

def tailqInit (m : Memory Place) (head : Place) : Option (Memory Place) := do
  let m ← m.setNext head none
  m.setPrev head (some head)

def tailqInsertHead (m : Memory Place) (head elm : Place) : Option (Memory Place) :=
  insertAfter m (some head) head elm

def tailqInsertTail (m : Memory Place) (head elm : Place) : Option (Memory Place) := insertLast m head elm

def tailqInsertAfter (m : Memory Place) (head listelm elm : Place) : Option (Memory Place) :=
  insertAfter m (some head) listelm elm

def tailqInsertBefore (m : Memory Place) (listelm elm : Place) : Option (Memory Place) := insertBefore m listelm elm

def tailqRemove (m : Memory Place) (head elm : Place) : Option (Memory Place) := remove m (some head) elm

def tailqReplace (m : Memory Place) (head elm elm2 : Place) : Option (Memory Place) := replace m (some head) elm elm2

/-- What may be done to a queue, and to the memory around it. -/
inductive Call (Place : Type*) where
  | insertHead (elm : Place)
  | insertTail (elm : Place)
  | insertAfter (listelm elm : Place)
  | insertBefore (listelm elm : Place)
  | remove (elm : Place)
  | replace (elm elm2 : Place)
  | alloc (p : Place) (link : Link Place)
  | free (p : Place)
  deriving DecidableEq

def Call.run (head : Place) (m : Memory Place) : Call Place → Option (Memory Place)
  | .insertHead elm => tailqInsertHead m head elm
  | .insertTail elm => tailqInsertTail m head elm
  | .insertAfter listelm elm => tailqInsertAfter m head listelm elm
  | .insertBefore listelm elm => tailqInsertBefore m listelm elm
  | .remove elm => tailqRemove m head elm
  | .replace elm elm2 => tailqReplace m head elm elm2
  | .alloc p link => some (m.alloc p link)
  | .free p => m.free p

/-- The list with places put where one of them is. -/
def splice (queue : List Place) (elm : Place) (places : List Place) : List Place :=
  queue.flatMap fun p => if p = elm then places else [p]

/-- What the call is to do to the queue as a list. -/
def Call.effect (queue : List Place) : Call Place → List Place
  | .insertHead elm => elm :: queue
  | .insertTail elm => queue ++ [elm]
  | .insertAfter listelm elm => splice queue listelm [listelm, elm]
  | .insertBefore listelm elm => splice queue listelm [elm, listelm]
  | .remove elm => splice queue elm []
  | .replace elm elm2 => splice queue elm [elm2]
  | .alloc _ _ | .free _ => queue

/-- What is put in is allocated and not queued, and what the call refers to is. -/
def Call.Fits (head : Place) (m : Memory Place) (queue : List Place) : Call Place → Prop
  | .insertHead elm | .insertTail elm => m.Live elm ∧ elm ∉ head :: queue
  | .insertAfter listelm elm | .insertBefore listelm elm | .replace listelm elm =>
      listelm ∈ queue ∧ m.Live elm ∧ elm ∉ head :: queue
  | .remove elm => elm ∈ queue
  | .alloc p _ => ¬m.Live p
  | .free p => m.Live p ∧ p ∉ head :: queue

/-- The memory, and beside it the queue as a list. -/
abbrev State (Place : Type*) := Memory Place × List Place

def step (head : Place) (s : State Place) (call : Call Place) : Option (State Place) :=
  (call.run head s.1).map fun m => (m, call.effect s.2)

def Allowed (head : Place) (s : State Place) (call : Call Place) : Prop := call.Fits head s.1 s.2

section Steps

variable {m : Memory Place} {head elm : Place} {queue front back places : List Place}

theorem splice_eq (nodup : (front ++ elm :: back).Nodup) :
    splice (front ++ elm :: back) elm places = front ++ places ++ back := by
  have away : ∀ p ∈ front ++ back, p ≠ elm := by grind
  have kept : ∀ part : List Place, (∀ p ∈ part, p ∈ front ++ back) →
      (part.flatMap fun p => if p = elm then places else [p]) = part := by
    intro part inside
    calc
      (part.flatMap fun p => if p = elm then places else [p]) = part.flatMap fun p => [p] :=
        List.flatMap_congr fun p member => if_neg (away p (inside p member))
      _ = part := List.flatMap_singleton' part
  rw [splice, List.flatMap_append, List.flatMap_cons, if_pos rfl, kept front (by grind), kept back (by grind),
    List.append_assoc]

theorem queued_of_init (live : m.Live head) :
    ∃ m', tailqInit m head = some m' ∧ Queued m' head [] ∧ Rewritten [head] m m' := by
  refine ⟨(m.withNext head none).withPrev head (some head), ?_, ⟨?_, ?_, ?_⟩, ?_, ?_⟩
  · rw [tailqInit, Option.bind_eq_bind, Memory.setNext_eq live, Option.bind_some,
      Memory.setPrev_eq (by simpa using live)]
  · refine .cons_cons ⟨?_, ?_⟩ (.singleton none)
    · rw [Option.bind_some, Memory.next_withPrev, Memory.next_withNext_self live]
    · rintro q ⟨⟩
      exact Memory.prev_withPrev_self (by simpa using live)
  · exact List.nodup_singleton head
  · rintro q ⟨⟩
    rfl
  · intro r outside
    rw [List.mem_singleton] at outside
    rw [Memory.withPrev_ne outside, Memory.withNext_ne outside]
  · simp

theorem queued_of_insertHead (queued : Queued m head queue) (live : m.Live elm) (fresh : elm ∉ head :: queue) :
    ∃ m', tailqInsertHead m head elm = some m' ∧ Queued m' head (elm :: queue) ∧
      Rewritten (head :: elm :: queue) m m' := by
  have start : Listed m (some head) ([] ++ head :: queue) := queued
  exact insertAfter_listed start fresh live

theorem queued_of_insertTail (queued : Queued m head queue) (live : m.Live elm) (fresh : elm ∉ head :: queue) :
    ∃ m', tailqInsertTail m head elm = some m' ∧ Queued m' head (queue ++ [elm]) ∧
      Rewritten (head :: (queue ++ [elm])) m m' := by
  obtain ⟨before, p, whole⟩ := exists_before head queue
  have longer : head :: (queue ++ [elm]) = before ++ [p, elm] := by
    rw [← List.cons_append, whole, List.append_assoc]
    rfl
  rw [Queued, whole] at queued
  rw [whole] at fresh
  unfold Queued
  rw [longer]
  exact insertLast_listed queued fresh live

theorem queued_of_remove (queued : Queued m head (front ++ elm :: back)) :
    ∃ m', tailqRemove m head elm = some m' ∧ Queued m' head (front ++ back) ∧
      Rewritten (head :: (front ++ back)) m m' := by
  obtain ⟨before, p, whole⟩ := exists_before head front
  have shorter : head :: (front ++ back) = before ++ p :: back := by
    rw [← List.cons_append, whole, List.append_assoc]
    rfl
  rw [Queued, ← List.cons_append, whole, List.append_assoc] at queued
  unfold Queued
  rw [shorter]
  exact remove_listed queued

/-- Every call that fits succeeds and does to the list what it is to do. -/
theorem queued_of_run (queued : Queued m head queue) (call : Call Place) (fits : call.Fits head m queue) :
    ∃ m', call.run head m = some m' ∧ Queued m' head (call.effect queue) := by
  have nodup : queue.Nodup := (List.nodup_cons.mp queued.nodup).2
  cases call with
  | insertHead elm =>
    obtain ⟨m', run, queued', -⟩ := queued_of_insertHead queued fits.1 fits.2
    exact ⟨m', run, queued'⟩
  | insertTail elm =>
    obtain ⟨m', run, queued', -⟩ := queued_of_insertTail queued fits.1 fits.2
    exact ⟨m', run, queued'⟩
  | insertAfter listelm elm =>
    obtain ⟨member, live, fresh⟩ := fits
    obtain ⟨front, back, rfl⟩ := List.append_of_mem member
    rw [Call.effect, splice_eq nodup, List.append_assoc]
    have whole : Listed m (some head) ((head :: front) ++ listelm :: back) := queued
    obtain ⟨m', run, queued', -⟩ := insertAfter_listed whole fresh live
    exact ⟨m', run, queued'⟩
  | insertBefore listelm elm =>
    obtain ⟨member, live, fresh⟩ := fits
    obtain ⟨front, back, rfl⟩ := List.append_of_mem member
    obtain ⟨before, p, whole⟩ := exists_before head front
    rw [Queued, ← List.cons_append, whole, List.append_assoc] at queued
    rw [← List.cons_append, whole, List.append_assoc] at fresh
    rw [Call.effect, splice_eq nodup]
    unfold Queued
    rw [List.append_assoc, ← List.cons_append, whole, List.append_assoc]
    obtain ⟨m', run, queued', -⟩ := insertBefore_listed queued fresh live
    exact ⟨m', run, queued'⟩
  | remove elm =>
    obtain ⟨front, back, rfl⟩ := List.append_of_mem fits
    rw [Call.effect, splice_eq nodup, List.append_nil]
    obtain ⟨m', run, queued', -⟩ := queued_of_remove queued
    exact ⟨m', run, queued'⟩
  | replace elm elm2 =>
    obtain ⟨member, live, fresh⟩ := fits
    obtain ⟨front, back, rfl⟩ := List.append_of_mem member
    obtain ⟨before, p, whole⟩ := exists_before head front
    rw [Queued, ← List.cons_append, whole, List.append_assoc] at queued
    rw [← List.cons_append, whole, List.append_assoc] at fresh
    rw [Call.effect, splice_eq nodup]
    unfold Queued
    rw [List.append_assoc, ← List.cons_append, whole, List.append_assoc]
    obtain ⟨m', run, queued', -⟩ := replace_listed queued fresh live
    exact ⟨m', run, queued'⟩
  | alloc p link =>
    refine ⟨m.alloc p link, rfl, queued.frame ?_⟩
    rintro r member
    exact Memory.alloc_ne fun same => fits (same ▸ queued.live r member)
  | free p =>
    obtain ⟨m', freed, -, same⟩ := Memory.free_eq fits.1
    refine ⟨m', freed, queued.frame ?_⟩
    intro r member
    exact same r fun here => fits.2 (here ▸ member)

end Steps

/-- Over any calls in any order, with memory taken and given back between them, both traversals see the list
that the calls are to make, and no call that fits follows a pointer to a place that is not there. -/
theorem queue_of_run {head : Place} {m first last : Memory Place} {past : Past (State Place) (Call Place)}
    {queue : List Place} (live : m.Live head) (made : tailqInit m head = some first)
    (run : Run (step head) (first, []) past (last, queue)) (within : Within (Allowed head) past) :
    (∀ budget, queue.length ≤ budget →
      tailqForeach last head budget = some queue ∧ tailqForeachReverse last head budget = some queue.reverse) ∧
    ∀ call, Allowed head (last, queue) call → ∃ s, step head (last, queue) call = some s := by
  obtain ⟨m', initialised, queued, -⟩ := queued_of_init live
  cases initialised.symm.trans made
  have held : Queued last head queue := by
    refine run.invariant (Allowed head) (fun s => Queued s.1 head s.2) queued ?_ within
    intro before call after queued fits taken
    obtain ⟨m', ran, queued'⟩ := queued_of_run queued call fits
    rw [step, ran] at taken
    cases taken
    exact queued'
  refine ⟨fun budget enough => queued_foreach held enough, ?_⟩
  intro call fits
  obtain ⟨m', ran, -⟩ := queued_of_run held call fits
  exact ⟨_, by rw [step, ran, Option.map_some]⟩

instance (head : Place) (m : Memory Place) (queue : List Place) (call : Call Place) : Decidable (call.Fits head m queue) :=
  match call with
  | .insertHead _ | .insertTail _ | .insertAfter _ _ | .insertBefore _ _ | .remove _ | .replace _ _ | .alloc _ _
  | .free _ => by
      unfold Call.Fits
      infer_instance

instance (head : Place) (s : State Place) (call : Call Place) : Decidable (Allowed head s call) :=
  inferInstanceAs (Decidable (call.Fits head s.1 s.2))

/-- Entries on both sides of one that is taken out, given back and taken for another. -/
theorem queue_of_run_reused :
    ∃ past last, Run (step 0) (Memory.withPrev (fun p => if p = 0 then some ⟨none, none⟩ else none) 0 (some 0), [])
        past (last, [3, 1, 2]) ∧
      tailqForeach last 0 3 = some [3, 1, 2] ∧ tailqForeachReverse last 0 3 = some [2, 1, 3] := by
  obtain ⟨past, ⟨last, queue⟩, run, checked⟩ := exists_run (step 0)
    (Memory.withPrev (fun p => if p = 0 then some ⟨none, none⟩ else none) 0 (some 0), ([] : List Nat))
    [.alloc 1 ⟨none, none⟩, .insertTail 1, .alloc 2 ⟨some 7, none⟩, .insertHead 2, .alloc 3 ⟨none, none⟩,
      .insertAfter 2 3, .remove 2, .free 2, .alloc 2 ⟨none, some 9⟩, .insertTail 2]
    (fun past last => decide (last.2 = [3, 1, 2] ∧ Within (Allowed 0) past)) (by decide)
  obtain ⟨rfl, within⟩ := of_decide_eq_true checked
  have live : Memory.Live (fun p => if p = 0 then some (⟨none, none⟩ : Link Nat) else none) 0 := by decide
  have made : tailqInit (fun p => if p = 0 then some (⟨none, none⟩ : Link Nat) else none) 0 =
      some (Memory.withPrev (fun p => if p = 0 then some ⟨none, none⟩ else none) 0 (some 0)) := by
    rw [tailqInit, Option.bind_eq_bind, Memory.setNext_eq live, Option.bind_some,
      Memory.setPrev_eq (by simpa using live)]
    congr 1
    funext p
    by_cases zero : p = 0 <;> simp [Memory.withPrev, Memory.withNext, zero]
  exact ⟨past, last, run, (queue_of_run live made run within).1 3 (by decide)⟩

end SlStatus.QueueMacros
