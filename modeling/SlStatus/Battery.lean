import Mathlib.Data.List.TakeWhile
import Mathlib.Data.Rat.Floor
import SlStatus.Display
import SlStatus.Scanf

/-! `components/battery.c` on Linux, without the capacity. The status is scanned into an array of
twelve bytes. The numbers on the stack are not initialised: what is left there by earlier calls
is a parameter. -/

namespace SlStatus.Battery
open CString Util Display Scanf

def PATH_MAX : Nat := 4096

inductive Supply where
  | status | charge | energy | current | power
  deriving DecidableEq

/-- `"/sys/class/power_supply/"`. -/
def powerSupply : Text :=
  ⟨[0x2F, 0x73, 0x79, 0x73, 0x2F, 0x63, 0x6C, 0x61, 0x73, 0x73, 0x2F, 0x70, 0x6F, 0x77, 0x65, 0x72, 0x5F, 0x73, 0x75,
    0x70, 0x70, 0x6C, 0x79, 0x2F], by decide⟩

/-- `"/status"`, `"/charge_now"`, `"/energy_now"`, `"/current_now"` and `"/power_now"`. -/
def fileName : Supply → Text
  | .status => ⟨[0x2F, 0x73, 0x74, 0x61, 0x74, 0x75, 0x73], by decide⟩
  | .charge => ⟨[0x2F, 0x63, 0x68, 0x61, 0x72, 0x67, 0x65, 0x5F, 0x6E, 0x6F, 0x77], by decide⟩
  | .energy => ⟨[0x2F, 0x65, 0x6E, 0x65, 0x72, 0x67, 0x79, 0x5F, 0x6E, 0x6F, 0x77], by decide⟩
  | .current => ⟨[0x2F, 0x63, 0x75, 0x72, 0x72, 0x65, 0x6E, 0x74, 0x5F, 0x6E, 0x6F, 0x77], by decide⟩
  | .power => ⟨[0x2F, 0x70, 0x6F, 0x77, 0x65, 0x72, 0x5F, 0x6E, 0x6F, 0x77], by decide⟩

/-- `POWER_SUPPLY_STATUS` and its siblings. -/
def path (supply : Supply) (bat : Text) : Text := powerSupply ++ bat ++ fileName supply

/-- What `esnprintf` returns for the path. -/
def pathLength (supply : Supply) (bat : Text) : Int := (esnprintf (Buffer.zeroed PATH_MAX) (path supply bat).bytes).2

/-- `"Charging"`, `"Discharging"`, `"Full"` and `"Not charging"`, with their symbols. -/
def charging : Text := ⟨[0x43, 0x68, 0x61, 0x72, 0x67, 0x69, 0x6E, 0x67], by decide⟩

def discharging : Text := ⟨[0x44, 0x69, 0x73, 0x63, 0x68, 0x61, 0x72, 0x67, 0x69, 0x6E, 0x67], by decide⟩

def full : Text := ⟨[0x46, 0x75, 0x6C, 0x6C], by decide⟩

def notCharging : Text := ⟨[0x4E, 0x6F, 0x74, 0x20, 0x63, 0x68, 0x61, 0x72, 0x67, 0x69, 0x6E, 0x67], by decide⟩

def plus : Text := character 0x2B (by decide)

def minus : Text := character 0x2D (by decide)

def circle : Text := character 0x6F (by decide)

def questionMark : Text := character 0x3F (by decide)

def map : List (Text × Text) := [(charging, plus), (discharging, minus), (full, circle), (notCharging, circle)]

def isStatus (byte : Byte) : Bool := isLetter byte || byte = 0x20

/-- The scan of the status with `"%12[a-zA-Z ]"`; `none` where it stores outside the array. -/
def pscanfState (file : Option (List Byte)) (state : Buffer 12) : Option (Int × Buffer 12) :=
  match pscanf file (run 12 isStatus) with
  | (n, none) => some (n, state)
  | (n, some string) => (putAll state 0 (string ++ [0])).map fun state => (n, state)

/-- The scan of a number with `"%ju"`: the variable keeps its value if none is assigned. -/
def pscanfNumber (file : Option (List Byte)) (old : UInt64) : Int × UInt64 :=
  let (n, value) := pscanf file ju
  (n, value.getD old)

section
-- the contents of the readable files by their paths
variable (files : Text → Option (List Byte))

/-- The first of two files whose path fits and which is readable. -/
def pick (bat : Text) (f1 f2 : Supply) : Option Supply :=
  if pathLength f1 bat > 0 ∧ (files (path f1 bat)).isSome then some f1
  else if pathLength f2 bat > 0 ∧ (files (path f2 bat)).isSome then some f2
  else none

/-- The symbol, if one is returned; no result where an access lies outside the array. -/
def batteryState (bat : Text) (state : Buffer 12) : Option (Option Text) :=
  if pathLength .status bat < 0 then some none
  else
    match pscanfState (files (path .status bat)) state with
    | none => none
    | some (n, state) =>
        if n ≠ 1 then some none
        else
          match state.string? with
          | none => none
          | some string =>
              match map.find? fun entry => entry.1.bytes = string with
              | some entry => some (some entry.2)
              | none => some (some questionMark)

/-- `"h "`. -/
def hourUnit : Text := ⟨[0x68, 0x20], by decide⟩

def minuteUnit : Text := character 0x6D (by decide)

def remaining (chargeNow currentNow : UInt64) : Text :=
  let timeleft : ℚ := chargeNow.toNat / currentNow.toNat
  let h := ⌊timeleft⌋
  let m := ⌊(timeleft - h) * 60⌋
  decimal h ++ hourUnit ++ decimal m ++ minuteUnit

def batteryRemaining (bat : Text) (state : Buffer 12) (chargeNow currentNow : UInt64) : Option (Option Text) :=
  if pathLength .status bat < 0 then some none
  else
    match pscanfState (files (path .status bat)) state with
    | none => none
    | some (n, state) =>
        if n ≠ 1 then some none
        else
          match pick files bat .charge .energy with
          | none => some none
          | some file =>
              let (n, chargeNow) := pscanfNumber (files (path file bat)) chargeNow
              if n < 0 then some none
              else
                match state.string? with
                | none => none
                | some string =>
                    if string = discharging.bytes then
                      match pick files bat .current .power with
                      | none => some none
                      | some file =>
                          let (n, currentNow) := pscanfNumber (files (path file bat)) currentNow
                          if n < 0 then some none
                          else if currentNow = 0 then some none
                          else some (bprintf (remaining chargeNow currentNow))
                    else some (some Text.empty)

end

theorem isStatus_zero : isStatus 0 = false := by decide

/-- The letters and spaces at the front of the file. -/
def status (content : List Byte) : List Byte := content.takeWhile isStatus

theorem status_noNul (content : List Byte) : 0 ∉ status content := by
  intro member
  have letter := List.mem_takeWhile_imp member
  rw [isStatus_zero] at letter
  cases letter

/-- What the scan leaves: nothing is stored where there is no letter at the front, else at
most twelve letters and the terminator. -/
theorem pscanfState_eq (content : List Byte) (state : Buffer 12) :
    (∃ n, n ≠ 1 ∧ pscanfState (some content) state = some (n, state) ∧ (status content).length = 0) ∨
      pscanfState (some content) state =
        (putAll state 0 ((status content).take 12 ++ [0])).map fun state => (1, state) := by
  unfold pscanfState pscanf run
  by_cases empty : content = []
  · exact .inl ⟨-1, by decide, by simp only [if_pos empty], by simp [empty, status]⟩
  · simp only [if_neg empty]
    by_cases none : (content.takeWhile isStatus).take 12 = []
    · left
      refine ⟨0, by decide, by simp only [if_pos none], ?_⟩
      have length := congrArg List.length none
      rw [List.length_take, List.length_nil] at length
      rw [status]
      omega
    · exact .inr (by simp only [if_neg none, status])

/-- What has been stored when the scan returns 1, and that it has stayed inside the array. -/
theorem string?_of_scanned {content : List Byte} {state after : Buffer 12}
    (scanned : pscanfState (some content) state = some (1, after)) :
    after.string? = some (status content) ∧ (status content).length < 12 := by
  rcases pscanfState_eq content state with ⟨n, other, nothing, -⟩ | stores
  · rw [scanned] at nothing
    cases nothing
    exact absurd rfl other
  · rw [scanned] at stores
    obtain ⟨array, stored, same⟩ := Option.map_eq_some_iff.mp stores.symm
    cases same
    have fits := (putAll_isSome_iff _ state (Nat.zero_le 12)).mp (by rw [stored]; rfl)
    rw [List.length_append, List.length_take, List.length_singleton] at fits
    have few : (status content).length < 12 := by omega
    rw [List.take_of_length_le (Nat.le_of_lt few)] at stored
    exact ⟨string?_putAll (status_noNul content) stored, few⟩

/-- The scan stores outside the array exactly where twelve letters and spaces stand at the front. -/
theorem pscanfState_none_iff {content : List Byte} {state : Buffer 12} :
    pscanfState (some content) state = none ↔ 12 ≤ (status content).length := by
  rcases pscanfState_eq content state with ⟨n, -, nothing, short⟩ | stores
  · rw [nothing, short]
    constructor
    · intro outside
      cases outside
    · intro long
      exact absurd long (by decide)
  · rw [stores, Option.map_eq_none_iff, ← Option.not_isSome_iff_eq_none, putAll_isSome_iff _ _ (Nat.zero_le 12)]
    rw [List.length_append, List.length_take, List.length_singleton]
    omega

/-- What the scan of the status meets; nothing where the path does not fit. -/
def opened (files : Text → Option (List Byte)) (bat : Text) : Option (List Byte) :=
  if pathLength .status bat < 0 then none else files (path .status bat)

/-- Fewer than twelve letters and spaces stand at the front of the file, if there is one. -/
def Short (files : Text → Option (List Byte)) (bat : Text) : Prop :=
  ∀ content, opened files bat = some content → (status content).length < 12

theorem scan_inside_iff {files : Text → Option (List Byte)} {bat : Text} {state : Buffer 12}
    (fits : ¬pathLength .status bat < 0) :
    pscanfState (files (path .status bat)) state ≠ none ↔ Short files bat := by
  unfold Short opened
  rw [if_neg fits]
  cases files (path .status bat) with
  | none => simp [pscanfState, pscanf]
  | some content => simp only [ne_eq, pscanfState_none_iff, Option.some.injEq, forall_eq', Nat.not_le]

theorem short_of_long_path {files : Text → Option (List Byte)} {bat : Text} (long : pathLength .status bat < 0) :
    Short files bat := by
  intro content same
  rw [opened, if_pos long] at same
  cases same

/-- What is behind the scan needs only an array that holds a string, if the scan has returned 1. -/
theorem inside_iff_of_scan {files : Text → Option (List Byte)} {bat : Text} (state : Buffer 12)
    {result : Option (Option Text)} (long : pathLength .status bat < 0 → result ≠ none)
    (outside : ¬pathLength .status bat < 0 → pscanfState (files (path .status bat)) state = none → result = none)
    (other : ¬pathLength .status bat < 0 → ∀ n after,
      pscanfState (files (path .status bat)) state = some (n, after) → n ≠ 1 → result ≠ none)
    (inside : ¬pathLength .status bat < 0 → ∀ after string,
      pscanfState (files (path .status bat)) state = some (1, after) → after.string? = some string → result ≠ none) :
    result ≠ none ↔ Short files bat := by
  by_cases fits : pathLength .status bat < 0
  · exact iff_of_true (long fits) (short_of_long_path fits)
  · rw [← scan_inside_iff fits]
    constructor
    · exact mt (outside fits)
    · intro stays
      obtain ⟨⟨n, after⟩, scanned⟩ := Option.ne_none_iff_exists'.mp stays
      by_cases one : n = 1
      · subst n
        cases file : files (path .status bat) with
        | none =>
          rw [file] at scanned
          cases scanned
        | some content => exact inside fits after _ scanned (string?_of_scanned (file ▸ scanned)).1
      · exact other fits n after scanned one

theorem batteryState_inside_iff {files : Text → Option (List Byte)} {bat : Text} {state : Buffer 12} :
    batteryState files bat state ≠ none ↔ Short files bat := by
  apply inside_iff_of_scan state
  · intro long
    simp [batteryState, if_pos long]
  · intro fits scanned
    simp [batteryState, if_neg fits, scanned]
  · intro fits n after scanned other
    simp [batteryState, scanned, if_pos other]
  · intro fits after string scanned read
    simp only [batteryState, if_neg fits, scanned, read, ne_eq, not_true_eq_false, if_false]
    cases map.find? fun entry => entry.1.bytes = string <;> simp

theorem batteryRemaining_inside_iff {files : Text → Option (List Byte)} {bat : Text} {state : Buffer 12}
    {chargeNow currentNow : UInt64} :
    batteryRemaining files bat state chargeNow currentNow ≠ none ↔ Short files bat := by
  apply inside_iff_of_scan state
  · intro long
    simp [batteryRemaining, if_pos long]
  · intro fits scanned
    simp [batteryRemaining, if_neg fits, scanned]
  · intro fits n after scanned other
    simp [batteryRemaining, scanned, if_pos other]
  · intro fits after string scanned read
    simp only [batteryRemaining, if_neg fits, scanned, read, ne_eq, not_true_eq_false, if_false]
    cases pick files bat .charge .energy with
    | none => simp
    | some amount =>
      dsimp only
      split_ifs
      · simp
      · cases pick files bat .current .power with
        | none => simp
        | some rate =>
          dsimp only
          split_ifs <;> simp
      · simp

/-- In both functions, for every content of the status file and whatever the array held before,
the scan stays inside the array exactly when fewer than twelve letters and spaces stand at the
front of the file; and where it returns 1, the array holds them as a string. -/
theorem status_inside_iff (state : Buffer 12) :
    (∀ content, pscanfState (some content) state ≠ none ↔ (status content).length < 12) ∧
      (∀ content after, pscanfState (some content) state = some (1, after) →
        after.string? = some (status content)) ∧
      (∀ files bat, batteryState files bat state ≠ none ↔ Short files bat) ∧
      ∀ files bat chargeNow currentNow,
        batteryRemaining files bat state chargeNow currentNow ≠ none ↔ Short files bat := by
  refine ⟨fun content => ?_, fun content after scanned => (string?_of_scanned scanned).1,
    fun files bat => batteryState_inside_iff, fun files bat chargeNow currentNow => batteryRemaining_inside_iff⟩
  rw [ne_eq, pscanfState_none_iff, Nat.not_le]

section Example

/-- `"BAT0"`. -/
def bat0 : Text := ⟨[0x42, 0x41, 0x54, 0x30], by decide⟩

/-- The status alone is readable, on a line of its own. -/
def statusFile (line : Text) (file : Text) : Option (List Byte) :=
  if file = path .status bat0 then some (line.bytes ++ [0x0A]) else none

theorem bat0_opened (line : Text) : opened (statusFile line) bat0 = some (line.bytes ++ [0x0A]) := by
  rw [opened, if_neg (by decide), statusFile, if_pos rfl]

/-- A discharging battery takes up all of the array. -/
theorem status_inside_discharging :
    batteryState (statusFile discharging) bat0 (Buffer.zeroed 12) ≠ none ∧
      ∃ after, pscanfState (some (discharging.bytes ++ [0x0A])) (Buffer.zeroed 12) = some (1, after) ∧
        after.string? = some discharging.bytes := by
  constructor
  · apply ((status_inside_iff _).2.2.1 _ _).mpr
    intro content same
    rw [bat0_opened] at same
    cases same
    decide
  · obtain ⟨after, scanned⟩ : ∃ after, pscanfState (some (discharging.bytes ++ [0x0A])) (Buffer.zeroed 12) =
        some (1, after) := ⟨_, rfl⟩
    exact ⟨after, scanned, (status_inside_iff _).2.1 _ after scanned⟩

/-- One that is not charging needs a thirteenth byte. -/
theorem status_outside :
    (∀ state, pscanfState (some (notCharging.bytes ++ [0x0A])) state = none) ∧
      (∀ state, batteryState (statusFile notCharging) bat0 state = none) ∧
      ∀ state chargeNow currentNow,
        batteryRemaining (statusFile notCharging) bat0 state chargeNow currentNow = none := by
  have long : ¬Short (statusFile notCharging) bat0 := by
    intro short
    exact absurd (short _ (bat0_opened notCharging)) (by decide)
  refine ⟨fun state => pscanfState_none_iff.mpr (by decide), fun state => ?_, fun state chargeNow currentNow => ?_⟩
  · by_contra inside
    exact long (batteryState_inside_iff.mp inside)
  · by_contra inside
    exact long (batteryRemaining_inside_iff.mp inside)

end Example

end SlStatus.Battery
