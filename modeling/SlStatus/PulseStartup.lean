import SlStatus.Monitors
import SlStatus.PulseAudio

/-! `pa_init` and the end of `pa_free` of `components/pa.c`, beside the thread of the main loop. Both threads call the
library with the lock of the main loop held, and `pa_state_callback` runs inside such a call whenever the state of the
context has changed. The library may fail where it can say so, take the context forward to any state, and wake up a
thread without a signal. -/

namespace SlStatus.PulseStartup
open Runs Monitors PulseAudio

inductive Thread where
  | main
  | loop
  deriving DecidableEq

inductive ContextState where
  | unconnected
  | connecting
  | authorizing
  | settingName
  | ready
  | failed
  | terminated
  deriving DecidableEq

/-- The state of a context only grows, and the last two are final. -/
def ContextState.rank : ContextState → Nat
  | .unconnected => 0
  | .connecting => 1
  | .authorizing => 2
  | .settingName => 3
  | .ready => 4
  | .failed | .terminated => 5

/-- The states that the callback has a case for. -/
def ContextState.decided (state : ContextState) : Bool := 4 ≤ state.rank

/-- A connection that `pa_context_disconnect` ends. -/
def ContextState.good (state : ContextState) : Bool := 1 ≤ state.rank && state.rank ≤ 4

inductive Statement where
  | setSubscribeCallback
  | send (request : Request)
  | setSignal
  | signal
  deriving DecidableEq

def paStateCallback : ContextState → List Statement
  | .ready => .setSubscribeCallback :: paReady.map .send ++ [.setSignal, .signal]
  | .terminated | .failed => [.setSignal, .signal]
  | _ => []

/-- What gives back what was acquired, and sets the pointers to it to null. -/
inductive Call where
  | disconnect
  | unref
  | clearContext
  | unlock
  | stop
  | free
  | clearLoop
  deriving DecidableEq

/-- Where the main thread is. It returns with nothing left to clean up, or from the end of `pa_init`. -/
inductive Place where
  | loopNew
  | lock
  | contextNew
  | setStateCallback
  | connect
  | start
  | check
  | waiting
  | getState
  | unlock
  | returned
  | cleanUp (calls : List Call)
  | paFree (calls : List Call)
  deriving DecidableEq

/-- After a connection that was not made, or a thread that was not started. -/
def unstarted : List Call := [.disconnect, .unref, .clearContext, .unlock, .free, .clearLoop]

/-- After a connection that the server did not accept. -/
def refused : List Call := [.disconnect, .unref, .clearContext, .unlock, .stop, .free, .clearLoop]

/-- `loop` and `context` are the objects, `paLoop` and `paCtx` tell whether the pointers are not null; `pending` is
what the holder of the lock has still to do of a callback. -/
structure State where
  place : Place
  monitor : Monitor Thread
  paLoop : Bool
  loop : Bool
  running : Bool
  paCtx : Bool
  context : Option ContextState
  paStateCallbackSignal : Bool
  pending : List Statement
  requests : List Request
  deriving DecidableEq

def initial : State := ⟨.loopNew, Monitor.free, false, false, false, false, none, false, [], []⟩

def State.execute (s : State) : Statement → State
  | .setSubscribeCallback => s
  | .send request => { s with requests := s.requests ++ [request] }
  | .setSignal => { s with paStateCallbackSignal := true }
  | .signal => { s with monitor := s.monitor.signal }

/-- The thread is joined when it is outside the lock. -/
def State.call (s : State) : Call → Option State
  | .disconnect =>
      match s.context with
      | none => some s
      | some state =>
          if state.good then some { s with context := some .terminated, pending := paStateCallback .terminated }
          else some s
  | .unref => some { s with context := none }
  | .clearContext => some { s with paCtx := false }
  | .unlock => some { s with monitor := s.monitor.release }
  | .stop => if s.monitor.holder = none then some { s with running := false } else none
  | .free => some { s with loop := false }
  | .clearLoop => some { s with paLoop := false }

/-- The next statement of the main thread; `ok` tells whether a call succeeds that may fail. -/
def State.main (s : State) (ok : Bool) : Option State :=
  match s.place with
  | .loopNew =>
      if ok then some { s with place := .lock, loop := true, paLoop := true }
      else some { s with place := .cleanUp [] }
  | .lock => (s.monitor.acquire .main).map fun monitor => { s with place := .contextNew, monitor }
  | .contextNew =>
      if ok then some { s with place := .setStateCallback, context := some .unconnected, paCtx := true }
      else some { s with place := .cleanUp [.unlock, .free, .clearLoop] }
  | .setStateCallback => some { s with place := .connect }
  | .connect => if ok then some { s with place := .start } else some { s with place := .cleanUp unstarted }
  | .start =>
      if ok then some { s with place := .check, running := true } else some { s with place := .cleanUp unstarted }
  | .check =>
      if s.paStateCallbackSignal then some { s with place := .getState }
      else some { s with place := .waiting, monitor := s.monitor.wait .main }
  | .waiting => (s.monitor.acquire .main).map fun monitor => { s with place := .check, monitor }
  | .getState =>
      if s.context = some .ready then some { s with place := .unlock } else some { s with place := .cleanUp refused }
  | .unlock => some { s with place := .returned, monitor := s.monitor.release }
  | .returned => none
  | .cleanUp [] => none
  | .cleanUp (call :: calls) => (s.call call).map fun s => { s with place := .cleanUp calls }
  | .paFree [] => none
  | .paFree (call :: calls) => (s.call call).map fun s => { s with place := .paFree calls }

inductive Action where
  | main (ok : Bool)
  | callback
  | leave
  | enter
  | change (next : ContextState)
  | stir
  | paFree
  deriving DecidableEq

/-- A thread that is in a callback does nothing else. The context changes inside `pa_context_connect`, or while the
thread of the loop holds the lock. -/
def step (s : State) : Action → Option State
  | .main ok => if s.pending ≠ [] ∧ s.monitor.holder = some .main then none else s.main ok
  | .callback =>
      match s.pending with
      | [] => none
      | statement :: pending => some { s.execute statement with pending }
  | .leave =>
      if s.monitor.holder = some .loop ∧ s.pending = [] then some { s with monitor := s.monitor.release } else none
  | .enter =>
      if s.running then (s.monitor.acquire .loop).map fun monitor => { s with monitor } else none
  | .change next =>
      match s.context with
      | none => none
      | some state =>
          if state.rank < next.rank ∧ s.pending = [] ∧
              (s.monitor.holder = some .loop ∨ (s.monitor.holder = some .main ∧ s.place = .connect)) then
            some { s with context := some next, pending := paStateCallback next }
          else none
  | .stir => some { s with monitor := s.monitor.stir .main }
  | .paFree =>
      if s.place = .returned ∨ s.place = .cleanUp [] then
        if s.paLoop then some { s with place := .paFree [.stop, .free] } else some s
      else none

/-- What is still to be sent. -/
def sends (pending : List Statement) : List Request :=
  pending.filterMap fun statement => match statement with
    | .send request => some request
    | _ => none

namespace Place

/-- The lists of calls that the place can have. -/
@[simp] def Proper : Place → Prop
  | .cleanUp calls => calls <:+ unstarted ∨ calls <:+ refused
  | .paFree calls => calls <:+ [.stop, .free]
  | _ => True

@[simp] def locked : Place → Bool
  | .loopNew | .lock | .waiting | .returned | .paFree _ => false
  | .cleanUp calls => Call.unlock ∈ calls
  | _ => true

@[simp] def loop : Place → Bool
  | .loopNew => false
  | .cleanUp calls | .paFree calls => Call.free ∈ calls
  | _ => true

@[simp] def paLoop : Place → Bool
  | .loopNew => false
  | .cleanUp calls => Call.clearLoop ∈ calls
  | _ => true

@[simp] def running : Place → Bool
  | .check | .waiting | .getState | .unlock | .returned => true
  | .cleanUp calls | .paFree calls => Call.stop ∈ calls
  | _ => false

@[simp] def context : Place → Bool
  | .loopNew | .lock | .contextNew => false
  | .cleanUp calls => Call.unref ∈ calls
  | _ => true

@[simp] def paCtx : Place → Bool
  | .loopNew | .lock | .contextNew => false
  | .cleanUp calls => Call.clearContext ∈ calls
  | _ => true

/-- There has been no context yet. -/
@[simp] def early : Place → Bool
  | .loopNew | .lock | .contextNew => true
  | _ => false

/-- The context was found ready. -/
@[simp] def succeeded : Place → Bool
  | .unlock | .returned | .paFree _ => true
  | _ => false

end Place

/-- How far the main thread still has to go. -/
def Place.work : Place → Nat
  | .loopNew => 16
  | .lock => 15
  | .contextNew => 14
  | .setStateCallback => 13
  | .connect => 12
  | .start => 11
  | .waiting => 10
  | .check => 9
  | .getState => 8
  | .unlock => 1
  | .returned => 0
  | .cleanUp calls | .paFree calls => calls.length

def Place.finished : Place → Bool
  | .returned | .cleanUp [] | .paFree [] => true
  | _ => false

/-- Each call may bring in two statements of the callback. -/
def State.work (s : State) : Nat :=
  3 * s.place.work + s.pending.length + if s.monitor.holder = some .loop then 1 else 0

section Callback

variable (state : ContextState)

theorem paStateCallback_suffix : paStateCallback state <:+ paStateCallback .ready := by cases state <;> decide

theorem setSignal_mem : .setSignal ∈ paStateCallback state ↔ state.decided = true := by cases state <;> decide

theorem sends_ready : sends (paStateCallback .ready) = paReady := rfl

variable {state}

theorem paStateCallback_of_lt : state.rank < 4 → paStateCallback state = [] := by cases state <;> decide

theorem sends_of_lt : 4 < state.rank → sends (paStateCallback state) = [] := by cases state <;> decide

end Callback

section Calls

/-- The calls that can come next, each with those behind it. -/
def ahead : List (Call × List Call) :=
  [(.disconnect, [.unref, .clearContext, .unlock, .free, .clearLoop]),
    (.disconnect, [.unref, .clearContext, .unlock, .stop, .free, .clearLoop]),
    (.unref, [.clearContext, .unlock, .free, .clearLoop]), (.unref, [.clearContext, .unlock, .stop, .free, .clearLoop]),
    (.clearContext, [.unlock, .free, .clearLoop]), (.clearContext, [.unlock, .stop, .free, .clearLoop]),
    (.unlock, [.free, .clearLoop]), (.unlock, [.stop, .free, .clearLoop]), (.stop, [.free, .clearLoop]),
    (.free, [.clearLoop]), (.clearLoop, [])]

theorem mem_ahead {call : Call} {calls : List Call} (proper : (Place.cleanUp (call :: calls)).Proper) :
    (call, calls) ∈ ahead := by
  simp only [Place.Proper, unstarted, refused, List.suffix_cons_iff, List.suffix_nil, List.cons.injEq, reduceCtorEq,
    or_false] at proper
  rcases proper with (h|h|h|h|h|h)|(h|h|h|h|h|h|h) <;> obtain ⟨rfl, rfl⟩ := h <;> decide

/-- The lock is still held where the context is used. -/
theorem unlock_mem {call : Call} {calls : List Call} (proper : (Place.cleanUp (call :: calls)).Proper)
    (uses : call = .disconnect ∨ call = .unref) : .unlock ∈ calls := by
  have later : ∀ entry ∈ ahead, entry.1 = .disconnect ∨ entry.1 = .unref → Call.unlock ∈ entry.2 := by decide
  exact later (call, calls) (mem_ahead proper) uses

theorem nodup_of_proper {calls : List Call} (proper : (Place.cleanUp calls).Proper) : calls.Nodup := by
  obtain unmade | turned := proper
  · exact unmade.sublist.nodup (by decide)
  · exact turned.sublist.nodup (by decide)

theorem proper_tail {call : Call} {calls : List Call} (proper : (Place.cleanUp (call :: calls)).Proper) :
    (Place.cleanUp calls).Proper :=
  proper.imp (List.suffix_cons call calls).trans (List.suffix_cons call calls).trans

end Calls

end SlStatus.PulseStartup
