import SlStatus.Runs

/-! A lock with one condition variable, and threads that wait for a condition on what the lock protects. A thread
tests the condition while it holds the lock, and one that makes it true holds the lock until it has signalled. -/

namespace SlStatus.Monitors
open Runs

/-- The thread that holds the lock, and those that sleep until there is a signal. -/
structure Monitor (Thread : Type*) where
  holder : Option Thread
  asleep : List Thread
  deriving DecidableEq

variable {Thread : Type*}

def Monitor.free : Monitor Thread := ⟨none, []⟩

section Operations

variable (monitor : Monitor Thread) (thread : Thread)

def Monitor.release : Monitor Thread := { monitor with holder := none }

/-- The lock is released, and the thread sleeps. -/
def Monitor.wait : Monitor Thread := ⟨none, thread :: monitor.asleep⟩

/-- Every thread is woken up. -/
def Monitor.signal : Monitor Thread := { monitor with asleep := [] }

@[simp] theorem Monitor.release_holder : monitor.release.holder = none := rfl

@[simp] theorem Monitor.release_asleep : monitor.release.asleep = monitor.asleep := rfl

@[simp] theorem Monitor.wait_holder : (monitor.wait thread).holder = none := rfl

@[simp] theorem Monitor.wait_asleep : (monitor.wait thread).asleep = thread :: monitor.asleep := rfl

@[simp] theorem Monitor.signal_holder : monitor.signal.holder = monitor.holder := rfl

@[simp] theorem Monitor.signal_asleep : monitor.signal.asleep = [] := rfl

variable [DecidableEq Thread]

/-- There is no result while another thread holds the lock, or this one sleeps. -/
def Monitor.acquire : Option (Monitor Thread) :=
  if monitor.holder = none ∧ thread ∉ monitor.asleep then some { monitor with holder := some thread } else none

/-- A thread that wakes up without a signal. -/
def Monitor.stir : Monitor Thread := { monitor with asleep := monitor.asleep.filter fun other => other ≠ thread }

@[simp] theorem Monitor.stir_holder : (monitor.stir thread).holder = monitor.holder := rfl

@[simp] theorem Monitor.mem_stir_asleep {other : Thread} :
    other ∈ (monitor.stir thread).asleep ↔ other ∈ monitor.asleep ∧ other ≠ thread := by
  rw [Monitor.stir, List.mem_filter, decide_eq_true_iff]

variable {monitor thread} {after : Monitor Thread}

theorem Monitor.acquire_eq_some :
    monitor.acquire thread = some after ↔
      monitor.holder = none ∧ thread ∉ monitor.asleep ∧ after = { monitor with holder := some thread } := by
  unfold Monitor.acquire
  split_ifs with available
  · rw [Option.some.injEq, eq_comm]
    exact ⟨fun same => ⟨available.1, available.2, same⟩, fun held => held.2.2⟩
  · exact ⟨nofun, fun held => absurd ⟨held.1, held.2.1⟩ available⟩

end Operations

/-- While the condition holds and a thread sleeps, the holder of the lock is one that `owes` a signal. -/
def Watched (condition : Prop) (owes : Thread → Prop) (monitor : Monitor Thread) : Prop :=
  condition → monitor.asleep ≠ [] → ∃ thread, monitor.holder = some thread ∧ owes thread

section Watched

variable {condition condition' : Prop} {owes owes' : Thread → Prop} {monitor : Monitor Thread}

theorem watched_free : Watched condition owes (Monitor.free : Monitor Thread) := fun _ asleep => absurd rfl asleep

/-- Nobody sleeps while the condition holds and the lock is free. -/
theorem Watched.awake (watched : Watched condition owes monitor) (available : monitor.holder = none)
    (holds : condition) : monitor.asleep = [] := by
  by_contra asleep
  obtain ⟨thread, held, -⟩ := watched holds asleep
  rw [available] at held
  cases held

/-- The lock does not change hands: the condition may become true if its holder then owes the signal. -/
theorem Watched.update (watched : Watched condition owes monitor) (kept : ∀ thread, owes thread → owes' thread)
    (made : condition' → condition ∨ ∃ thread, monitor.holder = some thread ∧ owes' thread) :
    Watched condition' owes' monitor := by
  intro holds asleep
  obtain before | owed := made holds
  · obtain ⟨thread, held, owed⟩ := watched before asleep
    exact ⟨thread, held, kept thread owed⟩
  · exact owed

variable {thread : Thread}

theorem Watched.acquire [DecidableEq Thread] {after : Monitor Thread} (watched : Watched condition owes monitor)
    (acquired : monitor.acquire thread = some after) : Watched condition owes after := by
  obtain ⟨available, -, rfl⟩ := Monitor.acquire_eq_some.mp acquired
  intro holds asleep
  exact absurd (watched.awake available holds) asleep

/-- A holder that owes nothing may release the lock. -/
theorem Watched.release (watched : Watched condition owes monitor)
    (paid : ∀ thread, monitor.holder = some thread → ¬owes thread) : Watched condition owes monitor.release := by
  intro holds asleep
  obtain ⟨thread, held, owed⟩ := watched holds asleep
  exact absurd owed (paid thread held)

/-- A thread may go to sleep while the condition does not hold. -/
theorem Watched.wait (fails : ¬condition) : Watched condition owes (monitor.wait thread) :=
  fun holds => absurd holds fails

theorem Watched.signal : Watched condition owes monitor.signal := fun _ asleep => absurd rfl asleep

theorem Watched.stir [DecidableEq Thread] (watched : Watched condition owes monitor) :
    Watched condition owes (monitor.stir thread) := by
  intro holds asleep
  apply watched holds
  intro nobody
  exact asleep (by rw [Monitor.stir, nobody, List.filter_nil])

end Watched

section Courses

variable {State Label : Type*} {next : State → Label → Option State}

/-- Steps that each use up a part of a finite amount of work are no more than that amount. -/
theorem Run.bounded {first last : State} {past : Past State Label} (allowed : State → Label → Prop)
    (holds : State → Prop) (work : State → Nat) (initial : holds first)
    (preserved : ∀ before label after, holds before → allowed before label → next before label = some after →
      holds after ∧ work after < work before)
    (run : Run next first past last) (within : Within allowed past) :
    holds last ∧ past.length + work last ≤ work first := by
  induction run with
  | start => exact ⟨initial, Nat.le_of_eq (Nat.zero_add _)⟩
  | step label _ move ih =>
    obtain ⟨held, bound⟩ := ih within.tail
    obtain ⟨kept, less⟩ := preserved _ label _ held within.head move
    refine ⟨kept, ?_⟩
    rw [List.length_cons]
    omega

end Courses

end SlStatus.Monitors
