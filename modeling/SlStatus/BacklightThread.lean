import SlStatus.Backlights
import SlStatus.Runs

/-! `components/backlight.c` with its two threads. The main thread searches the queue, reads the
brightness and inserts the entry; the loop receives an event, searches the queue, reads the
brightness and updates the entry; the brightness changes in between, and its events come
through once the monitor receives. -/

namespace SlStatus.BacklightThread
open CString Util Caches Backlights Runs
set_option maxRecDepth 4096

/-- The main thread inside `backlight_find(name, 1)`. -/
inductive Main where
  | idle
  | missed (name : Text)
  | read (name : Text) (brightness : Int)
  deriving DecidableEq

/-- The thread inside `backlight_loop`. -/
inductive Loop where
  | starting
  | receiving
  | received (name : Text)
  | found (name : Text)
  | read (name : Text) (brightness : Int)
  deriving DecidableEq

structure Shared where
  queue : List Backlight
  sysfs : Text → Option Attributes
  events : List Text
  main : Main
  loop : Loop

inductive Action where
  | find (name : Text)
  | readDevice
  | insert
  | change (name : Text) (brightness : Int)
  | listen
  | receive
  | search
  | readEvent
  | update

variable (percent : Int → Int → Int)

/-- The percentage that the attributes of the device give now. -/
def current (sysfs : Text → Option Attributes) (name : Text) : Option Int :=
  (sysfs (backlightPath ++ name)).map fun device => percent device.brightness device.maxBrightness

def setBrightness (sysfs : Text → Option Attributes) (name : Text) (brightness : Int) : Text → Option Attributes :=
  Function.update sysfs (backlightPath ++ name)
    ((sysfs (backlightPath ++ name)).map fun device => { device with brightness })

def step (s : Shared) : Action → Option Shared
  | .find name =>
      match s.main with
      | .idle =>
          match search Backlight.name s.queue name with
          | some _ => some s
          | none => some { s with main := .missed name }
      | _ => none
  | .readDevice =>
      match s.main with
      | .missed name =>
          match readDevice percent s.sysfs name with
          | some brightness => some { s with main := .read name brightness }
          | none => some { s with main := .idle }
      | _ => none
  | .insert =>
      match s.main with
      | .read name brightness => some { s with queue := s.queue ++ [{ name, brightness }], main := .idle }
      | _ => none
  | .change name brightness =>
      if (s.sysfs (backlightPath ++ name)).isSome then
        some { s with
          sysfs := setBrightness s.sysfs name brightness
          events := if s.loop = .starting then s.events else s.events ++ [name] }
      else none
  | .listen =>
      match s.loop with
      | .starting => some { s with loop := .receiving }
      | _ => none
  | .receive =>
      match s.loop, s.events with
      | .receiving, name :: events => some { s with events, loop := .received name }
      | _, _ => none
  | .search =>
      match s.loop with
      | .received name =>
          match (backlightFind percent s.sysfs false s.queue name).1 with
          | some _ => some { s with loop := .found name }
          | none => some { s with loop := .receiving }
      | _ => none
  | .readEvent =>
      match s.loop with
      | .found name => (current percent s.sysfs name).map fun brightness => { s with loop := .read name brightness }
      | _ => none
  | .update =>
      match s.loop with
      | .read name brightness =>
          some { s with
            queue := s.queue.map fun backlight =>
              if backlight.name = name then (backlightUpdate brightness backlight).1 else backlight
            loop := .receiving }
      | _ => none

/-- The event that the loop has taken and not dealt with yet. -/
def Loop.handling : Loop → Option Text
  | .received name | .found name | .read name _ => some name
  | _ => none

/-- Every entry of which no event is queued or being handled has the percentage of now. -/
def Coherent (s : Shared) : Prop :=
  ∀ backlight ∈ s.queue, backlight.name ∉ s.events → s.loop.handling ≠ some backlight.name →
    some backlight.brightness = current percent s.sysfs backlight.name

instance (s : Shared) : Decidable (Coherent percent s) :=
  inferInstanceAs (Decidable (∀ backlight ∈ s.queue, _ → _ → _))

/-- An entry is inserted only with the percentage of now or while an event is still to be
looked up, and as long as the monitor does not receive, the percentages of entries stay. -/
def Unraced (s : Shared) : Action → Prop
  | .insert =>
      match s.main with
      | .read name brightness =>
          name ∈ s.events ∨ s.loop = .received name ∨ some brightness = current percent s.sysfs name
      | _ => True
  | .change name brightness =>
      s.loop = .starting → (∃ backlight ∈ s.queue, backlight.name = name) →
        current percent (setBrightness s.sysfs name brightness) name = current percent s.sysfs name
  | _ => True

instance (s : Shared) : (action : Action) → Decidable (Unraced percent s action)
  | .insert => by
      dsimp only [Unraced]
      induction s.main using Main.casesOn <;> infer_instance
  | .change name brightness => inferInstanceAs (Decidable (s.loop = .starting → (∃ _ ∈ s.queue, _) → _))
  | .find _ | .readDevice | .listen | .receive | .search | .readEvent | .update => inferInstanceAs (Decidable True)

/-- What an entry still has before it: an event on its way, or nothing more to do. -/
inductive Upcoming (events : List Text) (loop : Loop) (sysfs : Text → Option Attributes) (backlight : Backlight) :
    Prop where
  | queued (event : backlight.name ∈ events)
  | received (here : loop = .received backlight.name)
  | found (here : loop = .found backlight.name)
  | read (brightness : Int) (here : loop = .read backlight.name brightness)
      (fresh : some brightness = current percent sysfs backlight.name)
  | settled (away : loop.handling ≠ some backlight.name)
      (fresh : some backlight.brightness = current percent sysfs backlight.name)

structure Kept (s : Shared) : Prop where
  distinct : Distinct Backlight.name s.queue
  upcoming : ∀ backlight ∈ s.queue, Upcoming percent s.events s.loop s.sysfs backlight
  known : ∀ name, (s.loop = .found name ∨ ∃ brightness, s.loop = .read name brightness) →
    ∃ backlight ∈ s.queue, backlight.name = name
  quiet : s.loop = .starting → s.events = []
  absent : ∀ name, (s.main = .missed name ∨ ∃ brightness, s.main = .read name brightness) →
    ∀ backlight ∈ s.queue, backlight.name ≠ name

variable {percent}

theorem backlightPath_append_inj {name other : Text} (same : backlightPath ++ name = backlightPath ++ other) :
    name = other := by
  have bytes := congrArg Text.bytes same
  rw [Text.append_bytes, Text.append_bytes, List.append_cancel_left_eq] at bytes
  cases name
  cases other
  cases bytes
  rfl

theorem current_setBrightness_other (sysfs : Text → Option Attributes) {name other : Text} (brightness : Int)
    (different : other ≠ name) :
    current percent (setBrightness sysfs name brightness) other = current percent sysfs other := by
  have path : backlightPath ++ other ≠ backlightPath ++ name := fun same => different (backlightPath_append_inj same)
  rw [current, setBrightness, Function.update_of_ne path, current]

theorem coherent_of_kept {s : Shared} (kept : Kept percent s) : Coherent percent s := by
  intro backlight member unqueued unhandled
  cases kept.upcoming backlight member with
  | queued event => exact absurd event unqueued
  | received here | found here | read _ here => exact absurd (by rw [here]; rfl) unhandled
  | settled _ fresh => exact fresh

theorem kept_of_find {s s' : Shared} {name : Text} (kept : Kept percent s)
    (taken : step percent s (.find name) = some s') : Kept percent s' := by
  cases here : s.main with
  | missed | read => simp [step, here] at taken
  | idle =>
    cases found : search Backlight.name s.queue name with
    | some backlight =>
      simp only [step, here, found, Option.some.injEq] at taken
      exact taken ▸ kept
    | none =>
      simp only [step, here, found, Option.some.injEq] at taken
      subst s'
      refine ⟨kept.distinct, kept.upcoming, kept.known, kept.quiet, ?_⟩
      intro other named
      have same : name = other := by simpa using named
      exact same ▸ search_eq_none.mp found

theorem kept_of_readDevice {s s' : Shared} (kept : Kept percent s)
    (taken : step percent s .readDevice = some s') : Kept percent s' := by
  cases here : s.main with
  | idle | read => simp [step, here] at taken
  | missed name =>
    simp only [step, here] at taken
    split at taken <;> cases taken
    · refine ⟨kept.distinct, kept.upcoming, kept.known, kept.quiet, ?_⟩
      intro other named
      have same : name = other := by simpa using named
      exact kept.absent other (.inl (same ▸ here))
    · exact ⟨kept.distinct, kept.upcoming, kept.known, kept.quiet, by simp⟩

/-- While the main thread is on its way to insert an entry, the loop is not at one. -/
theorem away_of_reading {s : Shared} (kept : Kept percent s) {name : Text} {brightness : Int}
    (here : s.main = .read name brightness) (unreceived : s.loop ≠ .received name) :
    s.loop.handling ≠ some name := by
  have absent := kept.absent name (.inr ⟨brightness, here⟩)
  intro handled
  cases loop : s.loop with
  | starting | receiving => simp [loop, Loop.handling] at handled
  | received other =>
    have same : other = name := by simpa [loop, Loop.handling] using handled
    exact unreceived (same ▸ loop)
  | found other =>
    have same : other = name := by simpa [loop, Loop.handling] using handled
    obtain ⟨backlight, member, named⟩ := kept.known name (.inl (same ▸ loop))
    exact absent backlight member named
  | read other value =>
    have same : other = name := by simpa [loop, Loop.handling] using handled
    obtain ⟨backlight, member, named⟩ := kept.known name (.inr ⟨value, same ▸ loop⟩)
    exact absent backlight member named

theorem step_insert {s s' : Shared} (taken : step percent s .insert = some s') :
    ∃ name brightness, s.main = .read name brightness ∧
      s' = { s with queue := s.queue ++ [{ name, brightness }], main := .idle } := by
  cases here : s.main with
  | idle | missed => simp [step, here] at taken
  | read name brightness =>
    simp only [step, here, Option.some.injEq] at taken
    exact ⟨name, brightness, rfl, taken.symm⟩

theorem kept_of_insert {s s' : Shared} (kept : Kept percent s) (unraced : Unraced percent s .insert)
    (taken : step percent s .insert = some s') : Kept percent s' := by
  obtain ⟨name, brightness, here, rfl⟩ := step_insert taken
  have absent := kept.absent name (.inr ⟨brightness, here⟩)
  refine ⟨kept.distinct.append absent, ?_, ?_, kept.quiet, by simp⟩
  · intro backlight member
    rcases List.mem_append.mp member with before | new
    · exact kept.upcoming backlight before
    · rw [List.mem_singleton.mp new]
      simp only [Unraced, here] at unraced
      rcases unraced with queued | received | fresh
      · exact .queued queued
      · exact .received received
      · by_cases received : s.loop = .received name
        · exact .received received
        · exact .settled (away_of_reading kept here received) fresh
  · intro other known
    obtain ⟨backlight, member, named⟩ := kept.known other known
    exact ⟨backlight, List.mem_append_left _ member, named⟩

theorem Upcoming.change {events events' : List Text} {loop : Loop} {sysfs : Text → Option Attributes}
    {backlight : Backlight} (upcoming : Upcoming percent events loop sysfs backlight) {name : Text} (brightness : Int)
    (different : backlight.name ≠ name) (kept : ∀ event ∈ events, event ∈ events') :
    Upcoming percent events' loop (setBrightness sysfs name brightness) backlight := by
  cases upcoming with
  | queued event => exact .queued (kept _ event)
  | received here => exact .received here
  | found here => exact .found here
  | read value here fresh =>
    exact .read value here (by rw [current_setBrightness_other sysfs brightness different, fresh])
  | settled away fresh =>
    exact .settled away (by rw [current_setBrightness_other sysfs brightness different, fresh])

theorem kept_of_change {s s' : Shared} {name : Text} {brightness : Int} (kept : Kept percent s)
    (unraced : Unraced percent s (.change name brightness))
    (taken : step percent s (.change name brightness) = some s') : Kept percent s' := by
  simp only [step] at taken
  split_ifs at taken with device starting
  · cases taken
    refine ⟨kept.distinct, ?_, kept.known, kept.quiet, kept.absent⟩
    intro backlight member
    by_cases same : backlight.name = name
    · -- no event comes, but the percentage stays
      have stays := unraced starting ⟨backlight, member, same⟩
      have away : s.loop.handling ≠ some backlight.name := by simp [starting, Loop.handling]
      have fresh := coherent_of_kept kept backlight member (by simp [kept.quiet starting]) away
      exact .settled away (by rw [fresh, same, stays])
    · exact (kept.upcoming backlight member).change brightness same fun event queued => queued
  · cases taken
    refine ⟨kept.distinct, ?_, kept.known, fun here => absurd here starting, kept.absent⟩
    intro backlight member
    by_cases same : backlight.name = name
    · exact .queued (List.mem_append_right _ (List.mem_singleton.mpr same))
    · exact (kept.upcoming backlight member).change brightness same fun event => List.mem_append_left _

theorem kept_of_listen {s s' : Shared} (kept : Kept percent s) (taken : step percent s .listen = some s') :
    Kept percent s' := by
  cases here : s.loop with
  | starting =>
    simp only [step, here, Option.some.injEq] at taken
    subst s'
    refine ⟨kept.distinct, ?_, by simp, by simp, kept.absent⟩
    intro backlight member
    apply Upcoming.settled (by simp [Loop.handling])
    exact coherent_of_kept kept backlight member (by simp [kept.quiet here]) (by simp [here, Loop.handling])
  | _ => simp [step, here] at taken

theorem kept_of_receive {s s' : Shared} (kept : Kept percent s) (taken : step percent s .receive = some s') :
    Kept percent s' := by
  cases here : s.loop with
  | receiving =>
    cases queued : s.events with
    | nil => simp [step, here, queued] at taken
    | cons name events =>
      simp only [step, here, queued, Option.some.injEq] at taken
      subst s'
      refine ⟨kept.distinct, ?_, by simp, by simp, kept.absent⟩
      intro backlight member
      by_cases same : backlight.name = name
      · exact .received (by rw [same])
      · cases kept.upcoming backlight member with
        | queued event =>
          rw [queued] at event
          exact .queued ((List.mem_cons.mp event).resolve_left same)
        | received there | found there | read _ there => rw [here] at there; cases there
        | settled _ fresh => exact .settled (by simpa [Loop.handling] using fun named => same named.symm) fresh
  | _ => simp [step, here] at taken

theorem kept_of_search {s s' : Shared} (kept : Kept percent s) (taken : step percent s .search = some s') :
    Kept percent s' := by
  cases here : s.loop with
  | received name =>
    rw [step, here] at taken
    dsimp only at taken
    rw [backlightFind_eq] at taken
    simp only [if_true, findOrCreate] at taken
    cases found : search Backlight.name s.queue name with
    | some backlight =>
      simp only [found, Option.some.injEq] at taken
      subst s'
      obtain ⟨member, named⟩ := search_eq_some found
      refine ⟨kept.distinct, ?_, ?_, by simp, kept.absent⟩
      · intro other otherMember
        cases kept.upcoming other otherMember with
        | queued event => exact .queued event
        | received there =>
          rw [here] at there
          cases there
          exact .found rfl
        | found there | read _ there => rw [here] at there; cases there
        | settled away fresh => exact .settled (by simpa [here, Loop.handling] using away) fresh
      · intro other found
        have same : name = other := by simpa using found
        exact ⟨backlight, member, named.trans same⟩
    | none =>
      simp only [found, Option.some.injEq] at taken
      subst s'
      refine ⟨kept.distinct, ?_, by simp, by simp, kept.absent⟩
      intro other otherMember
      have foreign := search_eq_none.mp found other otherMember
      cases kept.upcoming other otherMember with
      | queued event => exact .queued event
      | received there =>
        rw [here] at there
        cases there
        exact absurd rfl foreign
      | found there | read _ there => rw [here] at there; cases there
      | settled _ fresh => exact .settled (by simp [Loop.handling]) fresh
  | _ => simp [step, here] at taken

theorem kept_of_readEvent {s s' : Shared} (kept : Kept percent s) (taken : step percent s .readEvent = some s') :
    Kept percent s' := by
  cases here : s.loop with
  | found name =>
    simp only [step, here] at taken
    obtain ⟨brightness, fresh, rfl⟩ := Option.map_eq_some_iff.mp taken
    refine ⟨kept.distinct, ?_, ?_, by simp, kept.absent⟩
    · intro other member
      by_cases same : other.name = name
      · exact .read brightness (by rw [same]) (by rw [same, fresh])
      · cases kept.upcoming other member with
        | queued event => exact .queued event
        | received there | read _ there => rw [here] at there; cases there
        | found there =>
          rw [here] at there
          cases there
          exact absurd rfl same
        | settled away fresh => exact .settled (by simpa [here, Loop.handling] using away) fresh
    · intro other read
      have same : name = other := by simpa using read
      exact kept.known other (.inl (same ▸ here))
  | _ => simp [step, here] at taken

theorem backlightUpdate_eq (brightness : Int) (backlight : Backlight) :
    (backlightUpdate brightness backlight).1 = { backlight with brightness } := by
  unfold backlightUpdate
  split_ifs with changed
  · rfl
  · rw [not_not] at changed
    rw [changed]

theorem kept_of_update {s s' : Shared} (kept : Kept percent s) (taken : step percent s .update = some s') :
    Kept percent s' := by
  cases here : s.loop with
  | read name brightness =>
    simp only [step, here, Option.some.injEq, backlightUpdate_eq] at taken
    subst s'
    refine ⟨?_, ?_, by simp, by simp, ?_⟩
    · apply kept.distinct.map
      intro backlight
      split_ifs <;> rfl
    · intro updated member
      obtain ⟨backlight, before, rfl⟩ := List.mem_map.mp member
      split_ifs with same
      · cases kept.upcoming backlight before with
        | queued event => exact .queued event
        | received there | found there => rw [here] at there; cases there
        | read value there fresh =>
          rw [here] at there
          cases there
          exact .settled (by simp [Loop.handling]) fresh
        | settled away => exact absurd (by rw [here, same]; rfl) away
      · cases kept.upcoming backlight before with
        | queued event => exact .queued event
        | received there | found there => rw [here] at there; cases there
        | read value there =>
          rw [here] at there
          cases there
          exact absurd rfl same
        | settled _ fresh => exact .settled (by simp [Loop.handling]) fresh
    · intro other reading updated member
      obtain ⟨backlight, before, rfl⟩ := List.mem_map.mp member
      have foreign := kept.absent other reading backlight before
      split_ifs <;> exact foreign
  | _ => simp [step, here] at taken

theorem kept_of_step {s s' : Shared} {action : Action} (kept : Kept percent s) (unraced : Unraced percent s action)
    (taken : step percent s action = some s') : Kept percent s' := by
  cases action with
  | find name => exact kept_of_find kept taken
  | readDevice => exact kept_of_readDevice kept taken
  | insert => exact kept_of_insert kept unraced taken
  | change name brightness => exact kept_of_change kept unraced taken
  | listen => exact kept_of_listen kept taken
  | receive => exact kept_of_receive kept taken
  | search => exact kept_of_search kept taken
  | readEvent => exact kept_of_readEvent kept taken
  | update => exact kept_of_update kept taken

theorem incoherent_of_raced {s s' : Shared} {action : Action} (kept : Kept percent s)
    (raced : ¬Unraced percent s action) (taken : step percent s action = some s') : ¬Coherent percent s' := by
  intro coherent
  cases action with
  | insert =>
    obtain ⟨name, brightness, here, rfl⟩ := step_insert taken
    simp only [Unraced, here, not_or] at raced
    obtain ⟨unqueued, unreceived, stale⟩ := raced
    exact stale (coherent _ (List.mem_append_right _ (List.mem_singleton_self _)) unqueued
      (away_of_reading kept here unreceived))
  | change name brightness =>
    simp only [Unraced, Classical.not_imp] at raced
    obtain ⟨starting, ⟨backlight, member, rfl⟩, differs⟩ := raced
    simp only [step, if_pos starting] at taken
    split_ifs at taken with device
    cases taken
    have away : s.loop.handling ≠ some backlight.name := by simp [starting, Loop.handling]
    have unqueued : backlight.name ∉ s.events := by simp [kept.quiet starting]
    have before := coherent_of_kept kept backlight member unqueued away
    have after := coherent backlight member unqueued away
    exact differs (after.symm.trans before)
  | _ => exact raced trivial

/-- Before the first lookup and before the monitor receives. -/
def initial (sysfs : Text → Option Attributes) : Shared :=
  { queue := [], sysfs := sysfs, events := [], main := .idle, loop := .starting }

theorem kept_initial (sysfs : Text → Option Attributes) : Kept percent (initial sysfs) :=
  ⟨Distinct.nil _, by simp [initial], by simp [initial], fun _ => rfl, by simp [initial]⟩

/-- Under any interleaving of the two threads with the changes, the entries are up to date in
every state if and only if no step raced. -/
theorem coherent_iff_unraced (percent : Int → Int → Int) (sysfs : Text → Option Attributes)
    {past : Past Shared Action} {last : Shared} (run : Run (step percent) (initial sysfs) past last) :
    (Coherent percent last ∧ ∀ taken ∈ past, Coherent percent taken.1) ↔ Within (Unraced percent) past :=
  run.exact (Unraced percent) (Kept percent) (Coherent percent) (fun _ => coherent_of_kept) (kept_initial sysfs)
    (fun _ _ _ => kept_of_step) (fun _ _ _ => incoherent_of_raced)

/-- Undisturbed, the three steps of the main thread are `backlight_find(name, 1)`. -/
theorem backlightFind_of_steps {s : Shared} (idle : s.main = .idle) (name : Text) :
    ∃ past last, Run (step percent) s past last ∧ last.main = .idle ∧
      last.queue = (backlightFind percent s.sysfs true s.queue name).2 := by
  cases found : search Backlight.name s.queue name with
  | some backlight =>
    refine ⟨_, s, .step (.find name) .start (by simp only [step, idle, found]), idle, ?_⟩
    simp only [backlightFind, found]
  | none =>
    have missed : Run (step percent) s _ { s with main := .missed name } :=
      .step (.find name) .start (by simp only [step, idle, found])
    cases read : readDevice percent s.sysfs name with
    | none =>
      have returned : Run (step percent) s _ { s with main := .idle } :=
        missed.step .readDevice (by simp only [step, read])
      refine ⟨_, _, returned, rfl, ?_⟩
      simp [backlightFind, found, read]
    | some brightness =>
      have reading : Run (step percent) s _ { s with main := .read name brightness } :=
        missed.step .readDevice (by simp only [step, read])
      refine ⟨_, _, reading.step .insert rfl, rfl, ?_⟩
      simp [backlightFind, found, read]

def lid : Text := ⟨[0x6C], by decide⟩

/-- One device, at half of its brightness. -/
def half : Text → Option Attributes := fun path => if path = backlightPath ++ lid then some ⟨50, 100⟩ else none

def percentage (brightness maxBrightness : Int) : Int := 100 * brightness / maxBrightness

theorem coherent_iff_unraced_late :
    ∃ past last, Run (step percentage) (initial half) past last ∧ last.queue = [⟨lid, 80⟩] ∧
      (Coherent percentage last ∧ ∀ taken ∈ past, Coherent percentage taken.1) := by
  obtain ⟨past, last, run, checked⟩ := exists_run (step percentage) (initial half)
    [.listen, .find lid, .change lid 60, .readDevice, .receive, .search, .insert, .change lid 80, .receive, .search,
      .readEvent, .update]
    (fun past last => decide (last.queue = [⟨lid, 80⟩] ∧ Within (Unraced percentage) past)) (by decide)
  obtain ⟨queue, unraced⟩ := of_decide_eq_true checked
  exact ⟨past, last, run, queue, (coherent_iff_unraced percentage half run).mpr unraced⟩

def changing : Action → Bool
  | .change _ _ => true
  | _ => false

/-- An entry has missed a change for good. -/
def Stale (s : Shared) : Prop :=
  s.queue = [⟨lid, 50⟩] ∧ s.events = [] ∧ s.loop = .receiving ∧ current percentage s.sysfs lid = some 80 ∧
    ¬Coherent percentage s

instance (s : Shared) : Decidable (Stale s) := inferInstanceAs (Decidable (_ ∧ _))

/-- The brightness changes between its reading and the insertion, with the monitor receiving,
and the event is dropped; or it changes behind the insertion before the monitor receives. -/
theorem update_lost :
    (∃ past last, Run (step percentage) (initial half) past last ∧ Stale last ∧
      ∀ taken ∈ past, changing taken.2 = true → taken.1.loop = .receiving) ∧
    ∃ past last, Run (step percentage) (initial half) past last ∧ Stale last ∧
      ∀ taken ∈ past, changing taken.2 = true → taken.1.queue = [⟨lid, 50⟩] := by
  constructor
  · obtain ⟨past, last, run, checked⟩ := exists_run (step percentage) (initial half)
      [.listen, .find lid, .readDevice, .change lid 80, .receive, .search, .insert]
      (fun past last => decide (Stale last ∧ ∀ taken ∈ past, changing taken.2 = true → taken.1.loop = .receiving))
      (by decide)
    exact ⟨past, last, run, of_decide_eq_true checked⟩
  · obtain ⟨past, last, run, checked⟩ := exists_run (step percentage) (initial half)
      [.find lid, .readDevice, .insert, .change lid 80, .listen]
      (fun past last => decide (Stale last ∧
        ∀ taken ∈ past, changing taken.2 = true → taken.1.queue = [⟨lid, 50⟩])) (by decide)
    exact ⟨past, last, run, of_decide_eq_true checked⟩

end SlStatus.BacklightThread
