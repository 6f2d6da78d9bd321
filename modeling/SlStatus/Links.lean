import Mathlib.Data.List.Chain
import Mathlib.Data.List.Nodup

/-! A memory of places that are linked in both directions, and the lists that run through it. A
pointer may be null, and a place that is not allocated can neither be read nor written, so
reading and writing are partial. -/

namespace SlStatus.Links

/-- What a place holds of a list: the place behind it and the place before it. -/
structure Link (Place : Type*) where
  next : Option Place
  prev : Option Place
  deriving DecidableEq

/-- The places that are allocated, with their links. -/
abbrev Memory (Place : Type*) := Place → Option (Link Place)

variable {Place : Type*}

namespace Memory

def Live (m : Memory Place) (p : Place) : Prop := (m p).isSome

instance (m : Memory Place) (p : Place) : Decidable (m.Live p) := inferInstanceAs (Decidable (_ = _))

def next (m : Memory Place) (p : Place) : Option (Option Place) := (m p).map Link.next

def prev (m : Memory Place) (p : Place) : Option (Option Place) := (m p).map Link.prev

section Allocated

variable {m : Memory Place} {p : Place} {link : Option Place}

theorem live_of_next (read : m.next p = some link) : m.Live p := by
  obtain ⟨old, allocated, -⟩ := Option.map_eq_some_iff.mp read
  exact Option.isSome_iff_exists.mpr ⟨old, allocated⟩

theorem live_of_prev (read : m.prev p = some link) : m.Live p := by
  obtain ⟨old, allocated, -⟩ := Option.map_eq_some_iff.mp read
  exact Option.isSome_iff_exists.mpr ⟨old, allocated⟩

end Allocated

variable [DecidableEq Place]

/-- The memory with one field of one place replaced, nothing happening where there is no such place. -/
def withNext (m : Memory Place) (p : Place) (q : Option Place) : Memory Place :=
  fun r => if r = p then (m r).map ({ · with next := q }) else m r

def withPrev (m : Memory Place) (p : Place) (q : Option Place) : Memory Place :=
  fun r => if r = p then (m r).map ({ · with prev := q }) else m r

def setNext (m : Memory Place) (p : Place) (q : Option Place) : Option (Memory Place) :=
  if m.Live p then some (m.withNext p q) else none

def setPrev (m : Memory Place) (p : Place) (q : Option Place) : Option (Memory Place) :=
  if m.Live p then some (m.withPrev p q) else none

/-- A place is allocated with links of no meaning, and is given back, which can be done once. -/
def alloc (m : Memory Place) (p : Place) (link : Link Place) : Memory Place :=
  fun r => if r = p then some link else m r

def free (m : Memory Place) (p : Place) : Option (Memory Place) :=
  if m.Live p then some fun r => if r = p then none else m r else none

/-- Writes back to a place that there need not be. -/
def withBack (m : Memory Place) (p? q : Option Place) : Memory Place :=
  fun r => if some r = p? then (m r).map ({ · with prev := q }) else m r

def setBack (m : Memory Place) (p? q : Option Place) : Option (Memory Place) :=
  match p? with
  | some p => m.setPrev p q
  | none => some m

section Fields

variable {m : Memory Place} {p r : Place} {p? link : Option Place}

theorem setNext_eq (live : m.Live p) : m.setNext p link = some (m.withNext p link) := if_pos live

theorem setPrev_eq (live : m.Live p) : m.setPrev p link = some (m.withPrev p link) := if_pos live

theorem alloc_ne {link : Link Place} (other : r ≠ p) : m.alloc p link r = m r := if_neg other

theorem live_alloc {link : Link Place} : (m.alloc p link).Live r ↔ r = p ∨ m.Live r := by
  unfold Live alloc
  split_ifs with same <;> simp [same]

theorem free_eq (live : m.Live p) : ∃ m', m.free p = some m' ∧ ¬m'.Live p ∧ ∀ r, r ≠ p → m' r = m r := by
  refine ⟨_, if_pos live, ?_, fun _ other => if_neg other⟩
  simp [Live]

theorem setBack_eq (live : ∀ p ∈ p?, m.Live p) : m.setBack p? link = some (m.withBack p? link) := by
  cases p? with
  | none =>
    have same : m.withBack none link = m := by
      funext r
      simp [withBack]
    rw [same]
    rfl
  | some p =>
    have same : m.withBack (some p) link = m.withPrev p link := by
      funext r
      simp [withBack, withPrev]
    rw [same]
    exact setPrev_eq (live p rfl)

@[simp] theorem live_withNext : (m.withNext p link).Live r ↔ m.Live r := by
  unfold Live withNext
  split_ifs <;> simp

@[simp] theorem live_withPrev : (m.withPrev p link).Live r ↔ m.Live r := by
  unfold Live withPrev
  split_ifs <;> simp

@[simp] theorem live_withBack : (m.withBack p? link).Live r ↔ m.Live r := by
  unfold Live withBack
  split_ifs <;> simp

@[simp] theorem prev_withNext : (m.withNext p link).prev r = m.prev r := by
  unfold prev withNext
  split_ifs
  · exact Option.map_map ..
  · rfl

@[simp] theorem next_withPrev : (m.withPrev p link).next r = m.next r := by
  unfold next withPrev
  split_ifs
  · exact Option.map_map ..
  · rfl

@[simp] theorem next_withBack : (m.withBack p? link).next r = m.next r := by
  unfold next withBack
  split_ifs
  · exact Option.map_map ..
  · rfl

theorem next_withNext_self (live : m.Live p) : (m.withNext p link).next p = some link := by
  obtain ⟨old, read⟩ := Option.isSome_iff_exists.mp live
  simp only [next, withNext, if_true, read, Option.map_some]

theorem prev_withPrev_self (live : m.Live p) : (m.withPrev p link).prev p = some link := by
  obtain ⟨old, read⟩ := Option.isSome_iff_exists.mp live
  simp only [prev, withPrev, if_true, read, Option.map_some]

theorem prev_withBack_self (live : m.Live p) : (m.withBack (some p) link).prev p = some link := by
  obtain ⟨old, read⟩ := Option.isSome_iff_exists.mp live
  simp only [prev, withBack, if_true, read, Option.map_some]

theorem withNext_ne (other : r ≠ p) : m.withNext p link r = m r := if_neg other

theorem withPrev_ne (other : r ≠ p) : m.withPrev p link r = m r := if_neg other

theorem withBack_ne (other : r ∉ p?) : m.withBack p? link r = m r := if_neg (Ne.symm other)

theorem next_withNext_ne (other : r ≠ p) : (m.withNext p link).next r = m.next r :=
  congrArg (Option.map Link.next) (withNext_ne other)

theorem prev_withPrev_ne (other : r ≠ p) : (m.withPrev p link).prev r = m.prev r :=
  congrArg (Option.map Link.prev) (withPrev_ne other)

theorem prev_withBack_ne (other : r ∉ p?) : (m.withBack p? link).prev r = m.prev r :=
  congrArg (Option.map Link.prev) (withBack_ne other)

end Fields

end Memory

/-- The places of a list in their order, and the null pointer that ends it. -/
def ended (ps : List Place) : List (Option Place) := ps.map some ++ [none]

@[simp] theorem ended_nil : ended ([] : List Place) = [none] := rfl

@[simp] theorem ended_cons (p : Place) (ps : List Place) : ended (p :: ps) = some p :: ended ps := rfl

theorem head?_ended (ps : List Place) : (ended ps).head? = some ps.head? := by cases ps <;> rfl

theorem mem_ended {ps : List Place} {a : Option Place} : a ∈ ended ps ↔ (∃ p ∈ ps, some p = a) ∨ a = none := by
  simp [ended]

/-- The one pointer is before the other, and the place that the second one leads to knows it. Behind the
last place that is the place `rear`, if the list has one. -/
def Linked (m : Memory Place) (rear a b : Option Place) : Prop :=
  a.bind m.next = some b ∧ ∀ q ∈ b.or rear, m.prev q = some a

abbrev Chain (m : Memory Place) (rear : Option Place) (as : List (Option Place)) : Prop :=
  as.IsChain (Linked m rear)

/-- The places in their order from the head on, which is the only place the end may be known to. -/
structure Listed (m : Memory Place) (rear : Option Place) (ps : List Place) : Prop where
  chain : Chain m rear (ended ps)
  nodup : ps.Nodup
  rear_head : ∀ q ∈ rear, ps.head? = some q

section Chains

variable {m m' : Memory Place} {rear b : Option Place} {as : List (Option Place)}

/-- A chain reads only what leads forward from all pointers but the last, and back from all but the first. -/
theorem Chain.transport (chain : Chain m rear as)
    (forward : ∀ a ∈ as.dropLast, a.bind m'.next = a.bind m.next)
    (backward : ∀ b ∈ as.tail, ∀ q ∈ b.or rear, m'.prev q = m.prev q) : Chain m' rear as := by
  induction as with
  | nil => exact .nil
  | cons a as ih =>
    cases as with
    | nil => exact .singleton a
    | cons b as =>
      obtain ⟨⟨leads, known⟩, rest⟩ := List.isChain_cons_cons.mp chain
      have here : a.bind m'.next = a.bind m.next := forward a List.mem_cons_self
      refine .cons_cons ⟨here.trans leads, ?_⟩ (ih rest ?_ ?_)
      · intro q member
        exact (backward b List.mem_cons_self q member).trans (known q member)
      · intro c member
        exact forward c (List.mem_cons_of_mem a member)
      · intro c member
        exact backward c (List.mem_cons_of_mem b member)

end Chains

section Lists

variable {m m' : Memory Place} {rear : Option Place} {before after ps : List Place} {p elm : Place}

/-- A list is a chain in front of a place, the link behind it and the chain from there on. -/
theorem chain_split :
    Chain m rear (ended (before ++ p :: after)) ↔
      Chain m rear (before.map some ++ [some p]) ∧ Linked m rear (some p) after.head? ∧
        Chain m rear (ended after) := by
  cases after with
  | nil => simp [ended, List.isChain_append_cons_cons]
  | cons q after => simp [ended, List.isChain_append_cons_cons]

theorem Listed.rear_notMem_tail (listed : Listed m rear ps) : ∀ q ∈ rear, q ∉ ps.tail := by
  intro q read
  obtain ⟨rest, rfl⟩ := List.head?_eq_some_iff.mp (listed.rear_head q read)
  exact (List.nodup_cons.mp listed.nodup).1

/-- What changes neither behind a place nor in it leaves the front as it was. -/
theorem front_kept (listed : Listed m rear (before ++ p :: after)) (forward : ∀ r ∈ before, m'.next r = m.next r)
    (backward : ∀ r ∈ (before ++ [p]).tail, m'.prev r = m.prev r) :
    Chain m' rear (before.map some ++ [some p]) := by
  apply (chain_split.mp listed.chain).1.transport
  · intro a member
    rw [List.dropLast_concat] at member
    obtain ⟨r, inside, rfl⟩ := List.mem_map.mp member
    exact forward r inside
  · intro b member q read
    have places : before.map some ++ [some p] = (before ++ [p]).map some := by simp
    rw [places, ← List.map_tail] at member
    obtain ⟨r, inside, rfl⟩ := List.mem_map.mp member
    exact Option.mem_some_iff.mp read ▸ backward r inside

/-- What changes no later than in the place ahead leaves the back as it was. -/
theorem back_kept (listed : Listed m rear (before ++ p :: after)) (forward : ∀ r ∈ after, m'.next r = m.next r)
    (backward : ∀ r, r ∈ after ∨ r ∈ rear → r ∉ after.head?.or rear → m'.prev r = m.prev r) :
    Chain m' rear (ended after) := by
  cases after with
  | nil => exact .singleton none
  | cons q after =>
    apply (chain_split.mp listed.chain).2.2.transport
    · intro a member
      rw [ended, List.dropLast_concat] at member
      obtain ⟨r, inside, rfl⟩ := List.mem_map.mp member
      exact forward r inside
    · intro b member r read
      have nodup := listed.nodup
      rw [ended_cons, List.tail_cons] at member
      have inside : (r ∈ q :: after ∨ r ∈ rear) ∧ r ≠ q := by
        rcases mem_ended.mp member with ⟨r, member, rfl⟩ | rfl
        · cases read
          grind
        · have elsewhere := listed.rear_notMem_tail r read
          cases before <;> grind
      exact backward r inside.1 (by simpa using inside.2.symm)

/-- A place is put between two others, or at the end. -/
theorem Listed.link (listed : Listed m rear (before ++ p :: after)) (fresh : elm ∉ before ++ p :: after)
    (forward : ∀ r, r ≠ p → r ≠ elm → m'.next r = m.next r)
    (backward : ∀ r, r ≠ elm → r ∉ after.head?.or rear → m'.prev r = m.prev r)
    (toward : Linked m' rear (some p) (some elm)) (onward : Linked m' rear (some elm) after.head?) :
    Listed m' rear (before ++ p :: elm :: after) := by
  have nodup := listed.nodup
  refine ⟨?_, by grind, ?_⟩
  · refine chain_split.mpr ⟨?_, toward, ?_⟩
    · apply front_kept listed
      · intro r member
        exact forward r (by grind) (by grind)
      · intro r member
        apply backward r (by grind [List.mem_of_mem_tail])
        have elsewhere := listed.rear_notMem_tail
        cases after <;> cases before <;> grind
    · have first := listed.rear_head
      have back : Chain m' rear (ended after) := by
        refine back_kept listed (by grind) ?_
        intro r _ ahead
        exact backward r (by grind [List.mem_of_mem_head?]) ahead
      refine List.isChain_cons.mpr ⟨?_, back⟩
      change ∀ b ∈ (ended after).head?, _
      rw [head?_ended]
      rintro _ ⟨⟩
      exact onward
  · intro q read
    have first := listed.rear_head q read
    cases before <;> simpa using first

/-- A place is taken out from between two others, or from the end. -/
theorem Listed.unlink (listed : Listed m rear (before ++ p :: elm :: after))
    (forward : ∀ r, r ≠ p → r ≠ elm → m'.next r = m.next r)
    (backward : ∀ r, r ≠ elm → r ∉ after.head?.or rear → m'.prev r = m.prev r)
    (seam : Linked m' rear (some p) after.head?) : Listed m' rear (before ++ p :: after) := by
  have nodup := listed.nodup
  refine ⟨?_, by grind, ?_⟩
  · refine chain_split.mpr ⟨?_, seam, ?_⟩
    · apply front_kept listed
      · intro r member
        exact forward r (by grind) (by grind)
      · intro r member
        apply backward r (by grind [List.mem_of_mem_tail])
        have elsewhere := listed.rear_notMem_tail
        cases after <;> cases before <;> grind
    · have whole : before ++ p :: elm :: after = (before ++ [p]) ++ elm :: after := by simp
      have elsewhere := listed.rear_notMem_tail
      rw [whole] at listed
      refine back_kept listed (by grind) ?_
      intro r inside ahead
      refine backward r ?_ ahead
      cases before <;> grind
  · intro q read
    have first := listed.rear_head q read
    cases before <;> simpa using first

/-- The links around a place of the list, as they are read. -/
theorem Listed.around (listed : Listed m rear (before ++ p :: after)) :
    m.next p = some after.head? ∧ (∀ q ∈ after.head?.or rear, m.prev q = some (some p)) :=
  (chain_split.mp listed.chain).2.1

theorem Listed.live (listed : Listed m rear ps) : ∀ p ∈ ps, m.Live p := by
  intro p member
  obtain ⟨before, after, rfl⟩ := List.append_of_mem member
  exact Memory.live_of_next listed.around.1

/-- A list of which no place has been written is a list still. -/
theorem Listed.frame (listed : Listed m rear ps) (same : ∀ p ∈ ps, m' p = m p) : Listed m' rear ps := by
  refine ⟨listed.chain.transport ?_ ?_, listed.nodup, listed.rear_head⟩
  · intro a member
    rw [ended, List.dropLast_concat] at member
    obtain ⟨p, inside, rfl⟩ := List.mem_map.mp member
    exact congrArg (Option.map Link.next) (same p inside)
  · intro b member q read
    have inside : q ∈ ps := by
      rcases mem_ended.mp (List.mem_of_mem_tail member) with ⟨p, here, rfl⟩ | rfl
      · cases read
        exact here
      · exact List.mem_of_mem_head? (listed.rear_head q read)
    exact congrArg (Option.map Link.prev) (same q inside)

end Lists

/-- Nothing is written but what is touched, and nothing is allocated or given back. -/
structure Rewritten (touched : List Place) (m m' : Memory Place) : Prop where
  same : ∀ r ∉ touched, m' r = m r
  live : ∀ r, m'.Live r ↔ m.Live r

/-- `elm` is put behind the place `p`. -/
def insertAfter [DecidableEq Place] (m : Memory Place) (rear : Option Place) (p elm : Place) :
    Option (Memory Place) := do
  let next ← m.next p
  let m ← m.setNext elm next
  let m ← m.setBack (next.or rear) (some elm)
  let m ← m.setNext p (some elm)
  m.setPrev elm (some p)

/-- `elm` is put before the place `q`, whatever is before that. -/
def insertBefore [DecidableEq Place] (m : Memory Place) (q elm : Place) : Option (Memory Place) := do
  let prev ← m.prev q
  let m ← m.setPrev elm prev
  let m ← m.setNext elm (some q)
  let place ← (← m.prev q)
  let m ← m.setNext place (some elm)
  m.setPrev q (some elm)

/-- `elm` is put at the end, to which the head points back. -/
def insertLast [DecidableEq Place] (m : Memory Place) (head elm : Place) : Option (Memory Place) := do
  let m ← m.setNext elm none
  let last ← m.prev head
  let m ← m.setPrev elm last
  let place ← (← m.prev head)
  let m ← m.setNext place (some elm)
  m.setPrev head (some elm)

def remove [DecidableEq Place] (m : Memory Place) (rear : Option Place) (elm : Place) : Option (Memory Place) := do
  let next ← m.next elm
  let prev ← m.prev elm
  let m ← m.setBack (next.or rear) prev
  let place ← (← m.prev elm)
  m.setNext place (← m.next elm)

/-- `other` takes the place of `elm`. -/
def replace [DecidableEq Place] (m : Memory Place) (rear : Option Place) (elm other : Place) :
    Option (Memory Place) := do
  let next ← m.next elm
  let m ← m.setNext other next
  let m ← m.setBack (next.or rear) (some other)
  let prev ← m.prev elm
  let m ← m.setPrev other prev
  let place ← (← m.prev other)
  m.setNext place (some other)

/-- Follows the pointers that `next` reads, from the given one to the null pointer. The budget bounds the
number of places, a circle having no end. -/
def walk (next : Place → Option (Option Place)) : Nat → Option Place → Option (List Place)
  | _, none => some []
  | 0, some _ => none
  | budget + 1, some p => ((next p).bind fun following => walk next budget following).map (p :: ·)

section Operations

variable {m : Memory Place} {rear : Option Place} {before after ps : List Place} {p q elm other head : Place}

/-- The places that an operation writes back to are allocated. -/
theorem Listed.live_behind (listed : Listed m rear (before ++ p :: after)) :
    ∀ q ∈ after.head?.or rear, m.Live q := by
  intro q read
  exact Memory.live_of_prev (listed.around.2 q read)

theorem Listed.mem_behind (listed : Listed m rear (before ++ p :: after)) :
    ∀ q ∈ after.head?.or rear, q ∈ before ++ p :: after := by
  intro q read
  have first := listed.rear_head
  cases after with
  | nil => exact List.mem_of_mem_head? (first q read)
  | cons r after =>
    cases read
    simp

/-- The same list, seen from the next place on. -/
theorem Listed.shift (listed : Listed m rear (before ++ p :: elm :: after)) :
    Listed m rear ((before ++ [p]) ++ elm :: after) := by
  rw [List.append_assoc]
  exact listed

/-- What knows the place ahead is not the place between. -/
theorem Listed.apart (listed : Listed m rear (before ++ p :: elm :: after)) : ∀ q ∈ after.head?.or rear, q ≠ elm := by
  have nodup := listed.nodup
  have elsewhere := listed.rear_notMem_tail
  intro q read
  cases after <;> cases before <;> grind

variable [DecidableEq Place]

theorem insertAfter_listed (listed : Listed m rear (before ++ p :: after)) (fresh : elm ∉ before ++ p :: after)
    (live : m.Live elm) :
    ∃ m', insertAfter m rear p elm = some m' ∧ Listed m' rear (before ++ p :: elm :: after) ∧
      Rewritten (before ++ p :: elm :: after) m m' := by
  obtain ⟨next, -⟩ := listed.around
  have inside := listed.mem_behind
  have away : p ≠ elm := by grind
  have other : ∀ q ∈ after.head?.or rear, q ≠ elm := fun q read same => fresh (same ▸ inside q read)
  have here : m.Live p := Memory.live_of_next next
  have behind := listed.live_behind
  refine ⟨(((m.withNext elm after.head?).withBack (after.head?.or rear) (some elm)).withNext p (some elm)).withPrev
    elm (some p), ?_, ?_, ?_, ?_⟩
  · simp only [insertAfter, next, Option.bind_eq_bind, Option.bind_some]
    rw [Memory.setNext_eq live, Option.bind_some, Memory.setBack_eq (by simpa using behind), Option.bind_some,
      Memory.setNext_eq (by simpa using here), Option.bind_some, Memory.setPrev_eq (by simpa using live)]
  · apply listed.link fresh
    · intro r notP notElm
      rw [Memory.next_withPrev, Memory.next_withNext_ne notP, Memory.next_withBack, Memory.next_withNext_ne notElm]
    · intro r notElm notBehind
      rw [Memory.prev_withPrev_ne notElm, Memory.prev_withNext, Memory.prev_withBack_ne notBehind, Memory.prev_withNext]
    · refine ⟨?_, ?_⟩
      · rw [Option.bind_some, Memory.next_withPrev, Memory.next_withNext_self (by simpa using here)]
      · rintro q ⟨⟩
        exact Memory.prev_withPrev_self (by simpa using live)
    · refine ⟨?_, ?_⟩
      · rw [Option.bind_some, Memory.next_withPrev, Memory.next_withNext_ne away.symm, Memory.next_withBack,
          Memory.next_withNext_self live]
      · intro q read
        rw [Memory.prev_withPrev_ne (other q read), Memory.prev_withNext, read,
          Memory.prev_withBack_self (by simpa using behind q read)]
  · intro r outside
    have notBehind : r ∉ after.head?.or rear := by grind
    rw [Memory.withPrev_ne (by grind), Memory.withNext_ne (by grind), Memory.withBack_ne notBehind,
      Memory.withNext_ne (by grind)]
  · simp

theorem insertBefore_listed (listed : Listed m rear (before ++ p :: q :: after))
    (fresh : elm ∉ before ++ p :: q :: after) (live : m.Live elm) :
    ∃ m', insertBefore m q elm = some m' ∧ Listed m' rear (before ++ p :: elm :: q :: after) ∧
      Rewritten (before ++ p :: elm :: q :: after) m m' := by
  obtain ⟨next, prev⟩ := listed.around
  have read : m.prev q = some (some p) := prev q rfl
  have here : m.Live p := Memory.live_of_next next
  have there : m.Live q := Memory.live_of_prev read
  have awayP : p ≠ elm := by grind
  have awayQ : q ≠ elm := by grind
  refine ⟨(((m.withPrev elm (some p)).withNext elm (some q)).withNext p (some elm)).withPrev q (some elm), ?_, ?_, ?_, ?_⟩
  · simp only [insertBefore, read, Option.bind_eq_bind, Option.bind_some]
    rw [Memory.setPrev_eq live, Option.bind_some, Memory.setNext_eq (by simpa using live), Option.bind_some,
      Memory.prev_withNext, Memory.prev_withPrev_ne awayQ, read, Option.bind_some, Option.bind_some,
      Memory.setNext_eq (by simpa using here), Option.bind_some, Memory.setPrev_eq (by simpa using there)]
  · apply listed.link fresh
    · intro r notP notElm
      rw [Memory.next_withPrev, Memory.next_withNext_ne notP, Memory.next_withNext_ne notElm, Memory.next_withPrev]
    · intro r notElm notBehind
      have notQ : r ≠ q := fun same => notBehind (by simp [same])
      rw [Memory.prev_withPrev_ne notQ, Memory.prev_withNext, Memory.prev_withNext, Memory.prev_withPrev_ne notElm]
    · refine ⟨?_, ?_⟩
      · rw [Option.bind_some, Memory.next_withPrev, Memory.next_withNext_self (by simpa using here)]
      · rintro q ⟨⟩
        rw [Memory.prev_withPrev_ne awayQ.symm, Memory.prev_withNext, Memory.prev_withNext,
          Memory.prev_withPrev_self live]
    · refine ⟨?_, ?_⟩
      · rw [Option.bind_some, Memory.next_withPrev, Memory.next_withNext_ne awayP.symm,
          Memory.next_withNext_self (by simpa using live), List.head?_cons]
      · rintro q ⟨⟩
        exact Memory.prev_withPrev_self (by simpa using there)
  · intro r outside
    rw [Memory.withPrev_ne (by grind), Memory.withNext_ne (by grind), Memory.withNext_ne (by grind),
      Memory.withPrev_ne (by grind)]
  · simp

theorem insertLast_listed (listed : Listed m (some head) (before ++ [p])) (fresh : elm ∉ before ++ [p])
    (live : m.Live elm) :
    ∃ m', insertLast m head elm = some m' ∧ Listed m' (some head) (before ++ [p, elm]) ∧
      Rewritten (before ++ [p, elm]) m m' := by
  obtain ⟨next, prev⟩ := listed.around
  have read : m.prev head = some (some p) := prev head rfl
  have inside : head ∈ before ++ [p] := List.mem_of_mem_head? (listed.rear_head head rfl)
  have here : m.Live p := Memory.live_of_next next
  have first : m.Live head := Memory.live_of_prev read
  have awayP : p ≠ elm := by grind
  have away : head ≠ elm := fun same => fresh (same ▸ inside)
  refine ⟨(((m.withNext elm none).withPrev elm (some p)).withNext p (some elm)).withPrev head (some elm), ?_, ?_, ?_, ?_⟩
  · simp only [insertLast, Option.bind_eq_bind]
    rw [Memory.setNext_eq live, Option.bind_some, Memory.prev_withNext, read, Option.bind_some,
      Memory.setPrev_eq (by simpa using live), Option.bind_some, Memory.prev_withPrev_ne away, Memory.prev_withNext, read,
      Option.bind_some, Option.bind_some, Memory.setNext_eq (by simpa using here), Option.bind_some,
      Memory.setPrev_eq (by simpa using first)]
  · apply listed.link fresh
    · intro r notP notElm
      rw [Memory.next_withPrev, Memory.next_withNext_ne notP, Memory.next_withPrev, Memory.next_withNext_ne notElm]
    · intro r notElm notBehind
      have notHead : r ≠ head := fun same => notBehind (by simp [same])
      rw [Memory.prev_withPrev_ne notHead, Memory.prev_withNext, Memory.prev_withPrev_ne notElm, Memory.prev_withNext]
    · refine ⟨?_, ?_⟩
      · rw [Option.bind_some, Memory.next_withPrev, Memory.next_withNext_self (by simpa using here)]
      · rintro q ⟨⟩
        rw [Memory.prev_withPrev_ne away.symm, Memory.prev_withNext, Memory.prev_withPrev_self (by simpa using live)]
    · refine ⟨?_, ?_⟩
      · rw [Option.bind_some, Memory.next_withPrev, Memory.next_withNext_ne awayP.symm, Memory.next_withPrev,
          Memory.next_withNext_self live]
        rfl
      · rintro q ⟨⟩
        exact Memory.prev_withPrev_self (by simpa using first)
  · intro r outside
    rw [Memory.withPrev_ne (by grind), Memory.withNext_ne (by grind), Memory.withPrev_ne (by grind),
      Memory.withNext_ne (by grind)]
  · simp

/-- The two writes that take a place out. -/
theorem removed_listed (listed : Listed m rear (before ++ p :: elm :: after)) :
    Listed ((m.withBack (after.head?.or rear) (some p)).withNext p after.head?) rear (before ++ p :: after) := by
  have here : m.Live p := Memory.live_of_next listed.around.1
  apply listed.unlink
  · intro r notP notElm
    rw [Memory.next_withNext_ne notP, Memory.next_withBack]
  · intro r notElm notBehind
    rw [Memory.prev_withNext, Memory.prev_withBack_ne notBehind]
  · refine ⟨?_, ?_⟩
    · rw [Option.bind_some, Memory.next_withNext_self (by simpa using here)]
    · intro q read
      rw [Memory.prev_withNext, read, Memory.prev_withBack_self (listed.shift.live_behind q read)]

theorem remove_listed (listed : Listed m rear (before ++ p :: elm :: after)) :
    ∃ m', remove m rear elm = some m' ∧ Listed m' rear (before ++ p :: after) ∧
      Rewritten (before ++ p :: after) m m' := by
  obtain ⟨nextP, prevElm⟩ := listed.around
  have next : m.next elm = some after.head? := listed.shift.around.1
  have prev : m.prev elm = some (some p) := prevElm elm rfl
  have apart := listed.apart
  have here : m.Live p := Memory.live_of_next nextP
  refine ⟨_, ?_, removed_listed listed, ?_, ?_⟩
  · simp only [remove, next, prev, Option.bind_eq_bind, Option.bind_some]
    rw [Memory.setBack_eq listed.shift.live_behind, Option.bind_some,
      Memory.prev_withBack_ne (fun read => apart elm read rfl), prev, Option.bind_some, Option.bind_some,
      Memory.next_withBack, next, Option.bind_some, Memory.setNext_eq (by simpa using here)]
  · intro r outside
    have notBehind : r ∉ after.head?.or rear := by
      intro read
      have inside := listed.shift.mem_behind r read
      have notElm := apart r read
      grind
    rw [Memory.withNext_ne (by grind), Memory.withBack_ne notBehind]
  · simp

/-- Taking a place out and putting another one there instead. -/
theorem replace_listed (listed : Listed m rear (before ++ p :: elm :: after))
    (fresh : other ∉ before ++ p :: elm :: after) (live : m.Live other) :
    ∃ m', replace m rear elm other = some m' ∧ Listed m' rear (before ++ p :: other :: after) ∧
      Rewritten (before ++ p :: other :: after) m m' := by
  obtain ⟨nextP, prevElm⟩ := listed.around
  have next : m.next elm = some after.head? := listed.shift.around.1
  have prev : m.prev elm = some (some p) := prevElm elm rfl
  have apart := listed.apart
  have inside := listed.shift.mem_behind
  have behind := listed.shift.live_behind
  have here : m.Live p := Memory.live_of_next nextP
  have awayP : p ≠ other := by grind
  have away : ∀ q ∈ after.head?.or rear, q ≠ other := by grind
  refine ⟨(((m.withNext other after.head?).withBack (after.head?.or rear) (some other)).withPrev other
    (some p)).withNext p (some other), ?_, ?_, ?_, ?_⟩
  · simp only [replace, next, Option.bind_eq_bind, Option.bind_some]
    rw [Memory.setNext_eq live, Option.bind_some, Memory.setBack_eq (by simpa using behind), Option.bind_some,
      Memory.prev_withBack_ne (fun read => apart elm read rfl), Memory.prev_withNext, prev, Option.bind_some,
      Memory.setPrev_eq (by simpa using live), Option.bind_some, Memory.prev_withPrev_self (by simpa using live),
      Option.bind_some, Option.bind_some, Memory.setNext_eq (by simpa using here)]
  · apply (removed_listed listed).link (by grind)
    · intro r notP notOther
      rw [Memory.next_withNext_ne notP, Memory.next_withPrev, Memory.next_withBack, Memory.next_withNext_ne notOther,
        Memory.next_withNext_ne notP, Memory.next_withBack]
    · intro r notOther notBehind
      rw [Memory.prev_withNext, Memory.prev_withPrev_ne notOther, Memory.prev_withBack_ne notBehind, Memory.prev_withNext,
        Memory.prev_withNext, Memory.prev_withBack_ne notBehind]
    · refine ⟨?_, ?_⟩
      · rw [Option.bind_some, Memory.next_withNext_self (by simpa using here)]
      · rintro q ⟨⟩
        rw [Memory.prev_withNext, Memory.prev_withPrev_self (by simpa using live)]
    · refine ⟨?_, ?_⟩
      · rw [Option.bind_some, Memory.next_withNext_ne awayP.symm, Memory.next_withPrev, Memory.next_withBack,
          Memory.next_withNext_self live]
      · intro q read
        rw [Memory.prev_withNext, Memory.prev_withPrev_ne (away q read), read,
          Memory.prev_withBack_self (by simpa using behind q read)]
  · intro r outside
    have notBehind : r ∉ after.head?.or rear := by grind
    rw [Memory.withNext_ne (by grind), Memory.withPrev_ne (by grind), Memory.withBack_ne notBehind,
      Memory.withNext_ne (by grind)]
  · simp

end Operations

section Walks

variable {m : Memory Place} {rear : Option Place} {before after ps : List Place} {p head : Place} {budget : Nat}

/-- Forward from a place on, a walk sees the places behind it. -/
theorem walk_forward (listed : Listed m rear (before ++ p :: after)) (enough : after.length ≤ budget) :
    ((m.next p).bind fun first => walk m.next budget first) = some after := by
  induction after generalizing before p budget with
  | nil =>
    rw [listed.around.1, Option.bind_some, List.head?_nil]
    unfold walk
    rfl
  | cons q after ih =>
    rw [listed.around.1, Option.bind_some, List.head?_cons]
    cases budget with
    | zero => exact absurd enough (Nat.not_succ_le_zero _)
    | succ budget => rw [walk, ih listed.shift (Nat.le_of_succ_le_succ enough), Option.map_some]

/-- The last of the places is known to the head, and the last before a place to that place. -/
theorem Listed.known_rear (listed : Listed m (some head) (head :: ps)) :
    m.prev head = some (some (ps.getLastD head)) := by
  cases ps using List.reverseRecOn with
  | nil =>
    have start : Listed m (some head) ([] ++ head :: []) := listed
    exact start.around.2 head rfl
  | append_singleton front last =>
    rw [← List.cons_append] at listed
    rw [List.getLastD_concat]
    exact listed.around.2 head rfl

theorem Listed.known (listed : Listed m rear (head :: (before ++ p :: after))) :
    m.prev p = some (some (before.getLastD head)) := by
  cases before using List.reverseRecOn with
  | nil =>
    have start : Listed m rear ([] ++ head :: p :: after) := listed
    exact start.around.2 p rfl
  | append_singleton front last =>
    rw [List.append_assoc, List.singleton_append, ← List.cons_append] at listed
    rw [List.getLastD_concat]
    exact listed.around.2 p rfl

/-- What stands in for a pointer back from a place: what is behind the place before the place before it.
Before the first place that is the null pointer behind the last. -/
def previous (m : Memory Place) (p : Place) : Option (Option Place) := do
  let before ← (← m.prev p)
  let earlier ← (← m.prev before)
  m.next earlier

theorem previous_eq (listed : Listed m (some head) (head :: (before ++ after)))
    (known : m.prev p = some (some (before.getLastD head))) : previous m p = some before.getLast? := by
  cases before using List.reverseRecOn with
  | nil =>
    obtain ⟨front, last, whole⟩ : ∃ front last, head :: after = front ++ [last] :=
      ⟨_, _, (List.dropLast_append_getLast (List.cons_ne_nil head _)).symm⟩
    rw [List.nil_append, whole] at listed
    obtain ⟨ended, endKnown⟩ := listed.around
    have rear : m.prev head = some (some last) := endKnown head rfl
    rw [List.getLastD_nil] at known
    simp only [previous, known, rear, ended, Option.bind_eq_bind, Option.bind_some, List.head?_nil, List.getLast?_nil]
  | append_singleton front last =>
    obtain ⟨earliest, earlier, whole⟩ : ∃ earliest earlier, head :: front = earliest ++ [earlier] :=
      ⟨_, _, (List.dropLast_append_getLast (List.cons_ne_nil head _)).symm⟩
    rw [List.append_assoc, List.singleton_append, ← List.cons_append, whole, List.append_assoc,
      List.singleton_append] at listed
    obtain ⟨next, prev⟩ := listed.around
    have backward : m.prev last = some (some earlier) := prev last rfl
    rw [List.getLastD_concat] at known
    simp only [previous, known, backward, next, Option.bind_eq_bind, Option.bind_some, List.head?_cons,
      List.getLast?_concat]

/-- Backward, a walk from the end of some front of the list sees that front reversed. -/
theorem walk_backward (listed : Listed m (some head) (head :: (before ++ after))) (enough : before.length ≤ budget) :
    walk (previous m) budget before.getLast? = some before.reverse := by
  induction before using List.reverseRecOn generalizing after budget with
  | nil =>
    unfold walk
    rfl
  | append_singleton front last ih =>
    rw [List.append_assoc, List.singleton_append] at listed
    rw [List.length_append, List.length_singleton] at enough
    rw [List.getLast?_concat, List.reverse_concat]
    cases budget with
    | zero => exact absurd enough (Nat.not_succ_le_zero _)
    | succ budget =>
      rw [walk, previous_eq listed listed.known, Option.bind_some, ih listed (Nat.le_of_succ_le_succ enough),
        Option.map_some]

end Walks

end SlStatus.Links
