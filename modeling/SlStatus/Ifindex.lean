import SlStatus.CString
import SlStatus.Runs

/-! `ifindex` of `components/wifi.c`. It puts the name into `ifr` before it asks the kernel, so a
request that fails leaves the new name beside the index of another interface. -/

namespace SlStatus.Ifindex
open CString Runs

def IFNAMSIZ : Nat := 16

/-- The static variables. -/
structure State where
  ifsock : Bool
  ifrName : Text
  ifrIfindex : Nat
  deriving DecidableEq

def State.unopened : State := ⟨false, Text.empty, 0⟩

/-- A call, and what it meets: whether `socket` succeeds, and what `SIOCGIFINDEX` stores if it
does. -/
structure Call where
  interface : Text
  short : interface.bytes.length < IFNAMSIZ
  opens : Bool
  stores : Option Nat

def ifindex (s : State) (call : Call) : Int × State :=
  let s := { s with ifsock := s.ifsock || call.opens }
  if !s.ifsock then (-1, s)
  else if s.ifrName ≠ call.interface then
    let s := { s with ifrName := call.interface }
    match call.stores with
    | none => (-1, s)
    | some index => (index, { s with ifrIfindex := index })
  else (s.ifrIfindex, s)

def step (s : State) (call : Call) : Option State := some (ifindex s call).2

/-- The call comes to the `ioctl`. -/
def Asks (s : State) (call : Call) : Prop := (s.ifsock || call.opens) = true ∧ s.ifrName ≠ call.interface

/-- The call comes to the end without one. -/
def Hits (s : State) (call : Call) : Prop := (s.ifsock || call.opens) = true ∧ s.ifrName = call.interface

instance (s : State) (call : Call) : Decidable (Asks s call) := inferInstanceAs (Decidable (_ ∧ _))

instance (s : State) (call : Call) : Decidable (Hits s call) := inferInstanceAs (Decidable (_ ∧ _))

/-- The index that the kernel last returned for a name. -/
def resolved (interface : Text) : Past State Call → Option Nat
  | [] => none
  | (s, call) :: past =>
      (if Asks s call ∧ call.interface = interface then call.stores else none).or (resolved interface past)

/-- What the kernel stored at the latest request; `none` if that failed or there was none. -/
def latest : Past State Call → Option Nat
  | [] => none
  | (s, call) :: past => if Asks s call then call.stores else latest past

theorem ifindex_asks {s : State} {call : Call} (asks : Asks s call) :
    ifindex s call = ((call.stores.map Int.ofNat).getD (-1),
      ⟨true, call.interface, call.stores.getD s.ifrIfindex⟩) := by
  obtain ⟨opened, other⟩ := asks
  unfold ifindex
  cases call.stores <;> simp [opened, other]

theorem ifindex_hits {s : State} {call : Call} (hits : Hits s call) :
    ifindex s call = ((s.ifrIfindex : Int), ⟨true, s.ifrName, s.ifrIfindex⟩) := by
  obtain ⟨opened, same⟩ := hits
  unfold ifindex
  simp [opened, same]

theorem ifindex_closed {s : State} {call : Call} (closed : (s.ifsock || call.opens) = false) :
    ifindex s call = (-1, ⟨false, s.ifrName, s.ifrIfindex⟩) := by
  unfold ifindex
  simp [closed]

theorem closed_or (s : State) (call : Call) :
    (s.ifsock || call.opens) = false ∨ Hits s call ∨ Asks s call := by
  cases opened : s.ifsock || call.opens with
  | false => exact .inl rfl
  | true =>
    by_cases same : s.ifrName = call.interface
    · exact .inr (.inl ⟨opened, same⟩)
    · exact .inr (.inr ⟨opened, same⟩)

/-- A result that is not negative is the index last returned for the name, and a name that was
never resolved has the result -1. -/
def Right (past : Past State Call) (taken : State × Call) : Prop :=
  (0 ≤ (ifindex taken.1 taken.2).1 →
    (resolved taken.2.interface (taken :: past)).map Int.ofNat = some (ifindex taken.1 taken.2).1) ∧
  (resolved taken.2.interface (taken :: past) = none → (ifindex taken.1 taken.2).1 = -1)

/-- The name is taken for known only if the latest request, which was for it, succeeded. -/
def Settled (past : Past State Call) (taken : State × Call) : Prop :=
  Hits taken.1 taken.2 → (latest past).isSome = true

/-- Elsewhere the result is right by coincidence only: the index left in `ifr` is the one that
the kernel returned for the name at an earlier time. -/
def Strict (past : Past State Call) (taken : State × Call) : Prop :=
  Right past taken → ¬Settled past taken → resolved taken.2.interface past = some taken.1.ifrIfindex

/-- After a request that succeeded, name and index in `ifr` belong together. -/
def Paired (past : Past State Call) (s : State) : Prop :=
  ∀ index, latest past = some index → s.ifrIfindex = index ∧ resolved s.ifrName past = some index

theorem resolved_of_not_asks {interface : Text} {s : State} {call : Call} {past : Past State Call}
    (silent : ¬Asks s call) : resolved interface ((s, call) :: past) = resolved interface past := by
  rw [resolved, if_neg fun both => silent both.1, Option.none_or]

theorem latest_of_not_asks {s : State} {call : Call} {past : Past State Call} (silent : ¬Asks s call) :
    latest ((s, call) :: past) = latest past := by
  rw [latest, if_neg silent]

theorem Hits.not_asks {s : State} {call : Call} (hits : Hits s call) : ¬Asks s call :=
  fun asks => asks.2 hits.2

theorem not_asks_of_closed {s : State} {call : Call} (closed : (s.ifsock || call.opens) = false) : ¬Asks s call := by
  intro asks
  rw [asks.1] at closed
  cases closed

theorem paired_step {past : Past State Call} {s : State} (call : Call) (paired : Paired past s) :
    Paired ((s, call) :: past) (ifindex s call).2 := by
  intro index stored
  rcases closed_or s call with closed | hits | asks
  · have silent := not_asks_of_closed closed
    rw [latest_of_not_asks silent] at stored
    rw [ifindex_closed closed, resolved_of_not_asks silent]
    exact paired index stored
  · rw [latest_of_not_asks hits.not_asks] at stored
    rw [ifindex_hits hits, resolved_of_not_asks hits.not_asks]
    exact paired index stored
  · rw [latest, if_pos asks] at stored
    rw [ifindex_asks asks, stored, resolved, if_pos ⟨asks, rfl⟩, stored]
    exact ⟨rfl, rfl⟩

theorem paired_of_run {past : Past State Call} {s : State} (run : Run step State.unopened past s) : Paired past s := by
  apply run.invariant_past (fun _ _ => True) Paired
  · intro index stored
    cases stored
  · intro past before call after paired _ move
    cases move
    exact paired_step call paired
  · exact fun _ _ => trivial

theorem right_of_settled {past : Past State Call} {s : State} {call : Call} (paired : Paired past s)
    (settled : Settled past (s, call)) : Right past (s, call) := by
  rcases closed_or s call with closed | hits | asks
  · rw [Right, ifindex_closed closed]
    exact ⟨fun counted => absurd counted (show ¬(0 : Int) ≤ -1 by decide), fun _ => rfl⟩
  · obtain ⟨index, stored⟩ := Option.isSome_iff_exists.mp (settled hits)
    obtain ⟨kept, known⟩ := paired index stored
    have same : resolved call.interface ((s, call) :: past) = some index := by
      rw [resolved_of_not_asks hits.not_asks, ← hits.2, known]
    rw [Right, ifindex_hits hits, same, kept]
    exact ⟨fun _ => rfl, fun none => by cases none⟩
  · rw [Right, ifindex_asks asks, resolved, if_pos ⟨asks, rfl⟩]
    cases call.stores with
    | none => exact ⟨fun counted => absurd counted (show ¬(0 : Int) ≤ -1 by decide), fun _ => rfl⟩
    | some index => exact ⟨fun _ => rfl, fun none => by cases none⟩

theorem strict (past : Past State Call) (taken : State × Call) : Strict past taken := by
  obtain ⟨s, call⟩ := taken
  intro right unsettled
  obtain ⟨hits, -⟩ := Classical.not_imp.mp unsettled
  have known := right.1
  rw [ifindex_hits hits, resolved_of_not_asks hits.not_asks] at known
  obtain ⟨index, found, same⟩ := Option.map_eq_some_iff.mp (known (Int.natCast_nonneg _))
  rw [found, Int.ofNat.inj same]

/-- In every run in which a name is taken for known only right after the kernel resolved it,
all results are right; any other result is right by coincidence only. -/
theorem ifindex_right {past : Past State Call} {last : State} (run : Run step State.unopened past last) :
    (Along Settled past → Along Right past) ∧ Along Strict past := by
  induction run with
  | start => exact ⟨fun _ => trivial, trivial⟩
  | @step past before after call run move ih =>
    refine ⟨?_, strict past (before, call), ih.2⟩
    rintro ⟨settled, earlier⟩
    exact ⟨right_of_settled (paired_of_run run) settled, ih.1 earlier⟩

instance (past : Past State Call) (taken : State × Call) : Decidable (Right past taken) :=
  inferInstanceAs (Decidable ((_ → _) ∧ (_ → _)))

instance (past : Past State Call) (taken : State × Call) : Decidable (Settled past taken) :=
  inferInstanceAs (Decidable (_ → _))

section Example

/-- `"a"` and `"b"`. -/
def nameA : Text := ⟨[0x61], by decide⟩

def nameB : Text := ⟨[0x62], by decide⟩

def callA : Call := ⟨nameA, by decide, true, some 3⟩

/-- The kernel has no interface of this name. -/
def callB : Call := ⟨nameB, by decide, true, none⟩

/-- Both names, and the known one again and again. -/
theorem ifindex_right_twice :
    ∃ past last, Run step State.unopened past last ∧ latest past = some 3 ∧ past.length = 4 ∧ Along Right past := by
  obtain ⟨past, last, run, checked⟩ := exists_run step State.unopened [callB, callA, callA, callA]
    (fun past _ => decide (Along Settled past ∧ latest past = some 3 ∧ past.length = 4)) (by decide)
  obtain ⟨settled, stored, length⟩ := of_decide_eq_true checked
  exact ⟨past, last, run, stored, length, (ifindex_right run).1 settled⟩

/-- At the second call for a name that was never resolved, the index of the other interface is
returned. -/
theorem index_of_other :
    ∃ past last, Run step State.unopened past last ∧ resolved nameB past = none ∧
      (ifindex last callB).1 = 3 ∧ ¬Along Right ((last, callB) :: past) := by
  obtain ⟨past, last, run, checked⟩ := exists_run step State.unopened [callA, callB]
    (fun past last => decide (resolved nameB past = none ∧ (ifindex last callB).1 = 3 ∧
      ¬Along Right ((last, callB) :: past))) (by decide)
  exact ⟨past, last, run, of_decide_eq_true checked⟩

end Example

end SlStatus.Ifindex
