import SlStatus.Netspeeds
import SlStatus.Runs

/-! The calls of a `netspeed` function over time. All of them share one static variable per
direction, whichever interface they are for. The functions for Linux and for the BSDs differ in
what a failed reading leaves there; what holds of the rates is shown of both at once. -/

namespace SlStatus.SpeedHistory
open CString Netspeeds Runs

section History

-- a function that keeps the static variable between its calls: the rate that it hands to
-- `fmt_human`, if it does, and the variable afterwards; no result where it divides by zero
variable {Label : Type} (next : UInt64 → Label → Option (Option UInt64 × UInt64))
  (interface : Label → Text) (reading : Label → Option UInt64) (interval : UInt32)

/-- What the functions of both systems have in common. -/
structure Metering : Prop where
  read : ∀ bytes call new out, reading call = some new → next bytes call = some out →
    out.2 = new ∧ ∀ rate, out.1 = some rate → bytes ≠ 0 ∧ interval ≠ 0 ∧ rate = (new - bytes) * 1000 / interval.toUInt64
  failed : ∀ bytes call out, reading call = none → next bytes call = some out →
    out.1 = none ∧ (out.2 = bytes ∨ out.2 = 0)

def step (bytes : UInt64) (call : Label) : Option UInt64 := (next bytes call).map Prod.snd

/-- The rate that a call hands on. -/
def handed (bytes : UInt64) (call : Label) : Option UInt64 := (next bytes call).bind Prod.fst

/-- The latest successful reading, of whichever interface. -/
def latest : Past UInt64 Label → Option (Text × UInt64)
  | [] => none
  | (_, call) :: past => ((reading call).map fun new => (interface call, new)).or (latest past)

/-- The latest successful reading of one interface. -/
def previous (name : Text) : Past UInt64 Label → Option UInt64
  | [] => none
  | (_, call) :: past => (if interface call = name then reading call else none).or (previous name past)

/-- Every rate that is handed on is that of this reading and the previous one of the same
interface, which was not greater. -/
def Right (past : Past UInt64 Label) (taken : UInt64 × Label) : Prop :=
  ∀ rate, handed next taken.1 taken.2 = some rate →
    ∃ old new, previous interface reading (interface taken.2) past = some old ∧ reading taken.2 = some new ∧
      old ≤ new ∧ rate.toNat = (new.toNat - old.toNat) * 1000 / interval.toNat

/-- The counter did not go down, and the product does not wrap. -/
def Grown (old new : UInt64) : Prop := old ≤ new ∧ (new.toNat - old.toNat) * 1000 < UInt64.size

instance (old new : UInt64) : Decidable (Grown old new) := inferInstanceAs (Decidable (_ ∧ _))

/-- When a reading meets a variable that is set, the reading before, of whichever interface, was
of the same one, and the counter has grown. -/
def Steady (past : Past UInt64 Label) (taken : UInt64 × Label) : Prop :=
  ∀ new, reading taken.2 = some new → taken.1 ≠ 0 → ∀ last, latest interface reading past = some last →
    last.1 = interface taken.2 ∧ Grown last.2 new

/-- Right after a reading of the same interface, no other rate is right. -/
def Strict (past : Past UInt64 Label) (taken : UInt64 × Label) : Prop :=
  Right next interface reading interval past taken → handed next taken.1 taken.2 ≠ none →
    ∀ last, latest interface reading past = some last → last.1 = interface taken.2 →
      ∃ new, reading taken.2 = some new ∧ Grown last.2 new

/-- The static variable is the latest reading, unless it is zero. -/
def Kept (past : Past UInt64 Label) (bytes : UInt64) : Prop :=
  bytes ≠ 0 → ∃ name, latest interface reading past = some (name, bytes)

variable {next interface reading interval}

theorem previous_of_latest {past : Past UInt64 Label} {name : Text} {old : UInt64}
    (last : latest interface reading past = some (name, old)) : previous interface reading name past = some old := by
  induction past with
  | nil => cases last
  | cons taken past ih =>
    obtain ⟨bytes, call⟩ := taken
    unfold latest at last
    unfold previous
    cases read : reading call with
    | none =>
      rw [read, Option.map_none, Option.none_or] at last
      rw [ih last]
      split_ifs <;> rfl
    | some new =>
      rw [read, Option.map_some, Option.some_or] at last
      cases last
      rw [if_pos rfl, Option.some_or]

/-- A wrapped product gives another quotient. -/
theorem quotient_ne {product interval : Nat} (positive : 0 < interval) (small : interval ≤ UInt64.size)
    (wraps : UInt64.size ≤ product) : product % UInt64.size / interval ≠ product / interval := by
  have split := Nat.mod_add_div product UInt64.size
  have once : 1 ≤ product / UInt64.size := (Nat.one_le_div_iff (by decide)).mpr wraps
  have more : product % UInt64.size + interval ≤ product := by
    have le := Nat.mul_le_mul_left UInt64.size once
    omega
  have next := Nat.div_le_div_right (c := interval) more
  rw [Nat.add_div_right _ positive] at next
  omega

theorem rate_eq {old new : UInt64} (grown : old ≤ new) :
    ((new - old) * 1000 / interval.toUInt64).toNat =
      (new.toNat - old.toNat) * 1000 % UInt64.size / interval.toNat := by
  have difference : (new - old).toNat = new.toNat - old.toNat := UInt64.toNat_sub_of_le _ _ grown
  rw [UInt64.toNat_div, UInt64.toNat_mul, difference, UInt32.toNat_toUInt64]
  rfl

variable (metering : Metering next reading interval)
include metering

theorem kept_step {past : Past UInt64 Label} {before after : UInt64} {call : Label}
    (kept : Kept interface reading past before) (move : step next before call = some after) :
    Kept interface reading ((before, call) :: past) after := by
  obtain ⟨out, result, rfl⟩ := Option.map_eq_some_iff.mp move
  intro nonzero
  unfold latest
  cases read : reading call with
  | none =>
    obtain ⟨-, same | zero⟩ := metering.failed before call out read result
    · rw [same] at nonzero ⊢
      exact kept nonzero
    · exact absurd zero nonzero
  | some new => exact ⟨interface call, by rw [(metering.read before call new out read result).1]; rfl⟩

theorem kept_of_run {past : Past UInt64 Label} {bytes : UInt64} (run : Run (step next) 0 past bytes) :
    Kept interface reading past bytes := by
  apply run.invariant_past (fun _ _ => True) (Kept interface reading)
  · exact fun nonzero => absurd rfl nonzero
  · exact fun past before call after kept _ move => kept_step metering kept move
  · exact fun _ _ => trivial

/-- What there is to hand on, and what it is made of. -/
theorem handed_eq {bytes rate : UInt64} {call : Label} (shown : handed next bytes call = some rate) :
    ∃ new, reading call = some new ∧ bytes ≠ 0 ∧ interval ≠ 0 ∧ rate = (new - bytes) * 1000 / interval.toUInt64 := by
  obtain ⟨out, result, first⟩ := Option.bind_eq_some_iff.mp shown
  cases read : reading call with
  | none =>
    rw [(metering.failed bytes call out read result).1] at first
    cases first
  | some new =>
    obtain ⟨nonzero, positive, value⟩ := (metering.read bytes call new out read result).2 rate first
    exact ⟨new, rfl, nonzero, positive, value⟩

theorem right_of_steady {past : Past UInt64 Label} {bytes : UInt64} {call : Label}
    (kept : Kept interface reading past bytes) (steady : Steady interface reading past (bytes, call)) :
    Right next interface reading interval past (bytes, call) := by
  intro rate shown
  obtain ⟨new, read, nonzero, -, rfl⟩ := handed_eq metering shown
  obtain ⟨name, last⟩ := kept nonzero
  obtain ⟨same, grown, fits⟩ := steady new read nonzero _ last
  dsimp only at same grown fits
  subst same
  exact ⟨bytes, new, previous_of_latest last, read, grown, rate_toNat grown fits⟩

theorem strict {past : Past UInt64 Label} {bytes : UInt64} (call : Label) (kept : Kept interface reading past bytes) :
    Strict next interface reading interval past (bytes, call) := by
  intro right handing last latest same
  obtain ⟨rate, shown⟩ := Option.ne_none_iff_exists'.mp handing
  obtain ⟨new, read, nonzero, positive, rfl⟩ := handed_eq metering shown
  obtain ⟨old, other, before, again, le, value⟩ := right _ shown
  obtain ⟨name, stored⟩ := kept nonzero
  rw [latest] at stored
  cases stored
  dsimp only at same
  subst same
  rw [previous_of_latest latest] at before
  cases before
  rw [read] at again
  cases again
  refine ⟨new, read, le, ?_⟩
  rw [rate_eq le] at value
  by_contra wraps
  have word := interval.toNat_lt
  have small : interval.toNat ≤ UInt64.size := by
    change _ ≤ 18446744073709551616
    omega
  have large : 0 < interval.toNat := Nat.pos_of_ne_zero fun zero => positive (UInt32.toNat_inj.mp zero)
  exact quotient_ne large small (Nat.le_of_not_lt wraps) value

theorem rates_right {past : Past UInt64 Label} {bytes : UInt64} (run : Run (step next) 0 past bytes) :
    (Along (Steady interface reading) past → Along (Right next interface reading interval) past) ∧
      Along (Strict next interface reading interval) past := by
  induction run with
  | start => exact ⟨fun _ => trivial, trivial⟩
  | @step past before after call run move ih =>
    have kept : Kept interface reading past before := kept_of_run metering run
    refine ⟨?_, strict metering call kept, ih.2⟩
    rintro ⟨steady, earlier⟩
    exact ⟨right_of_steady metering kept steady, ih.1 earlier⟩

end History

/-- A call on Linux: the file of the interface holds `contents`, if a number can be read there. -/
structure LinuxCall where
  interface : Text
  contents : Option UInt64
  deriving DecidableEq

namespace LinuxCall

variable (direction : Direction) (interval : UInt32)

/-- What the call reads: nothing either where the path is too long. -/
def reading (call : LinuxCall) : Option UInt64 :=
  if (Util.esnprintf (Buffer.zeroed PATH_MAX) (path direction call.interface).bytes).2 < 0 then none else call.contents

def next (bytes : UInt64) (call : LinuxCall) : Option (Option UInt64 × UInt64) :=
  (netspeed direction interval call.interface ⟨bytes, call.contents.getD 0, call.contents.isSome⟩).map fun out =>
    (out.1, out.2.bytes)

theorem metering : Metering (next direction interval) (reading direction) interval := by
  constructor
  · intro bytes call new out read result
    unfold reading at read
    unfold next netspeed at result
    split_ifs at read with long
    rw [if_neg long, read] at result
    simp only [Option.isSome_some, Option.getD_some, Bool.true_eq_false, if_false] at result
    split_ifs at result with unset zero
    · cases result
      exact ⟨rfl, nofun⟩
    · cases result
    · cases result
      refine ⟨rfl, ?_⟩
      rintro rate ⟨⟩
      exact ⟨unset, zero, rfl⟩
  · intro bytes call out read result
    unfold reading at read
    unfold next netspeed at result
    split_ifs at read with long
    · rw [if_pos long] at result
      cases result
      exact ⟨rfl, .inl rfl⟩
    · rw [if_neg long, read] at result
      cases result
      exact ⟨rfl, .inl rfl⟩

end LinuxCall

/-- An entry of the list of `getifaddrs`: the bytes received and sent, where `ifa_data` is set. -/
structure Ifaddr where
  ifaName : Text
  ifaData : Option (UInt64 × UInt64)
  deriving DecidableEq

/-- A call on a BSD, with the list; `none` where `getifaddrs` fails. -/
structure BsdCall where
  interface : Text
  ifal : Option (List Ifaddr)
  deriving DecidableEq

namespace BsdCall

variable (direction : Direction) (interval : UInt32)

/-- `ifi_ibytes` or `ifi_obytes`. -/
def counter (data : UInt64 × UInt64) : UInt64 :=
  match direction with
  | .rx => data.1
  | .tx => data.2

/-- The loop over the list: the static variable and `if_ok`. -/
def sum (name : Text) : List Ifaddr → UInt64 × Bool → UInt64 × Bool
  | [], found => found
  | ifa :: ifal, (bytes, ifOk) =>
      match ifa.ifaData with
      | some data =>
          if ifa.ifaName = name then sum name ifal (bytes + counter direction data, true)
          else sum name ifal (bytes, ifOk)
      | none => sum name ifal (bytes, ifOk)

def netspeed (interface : Text) (ifal : Option (List Ifaddr)) (bytes : UInt64) : Option (Option UInt64 × UInt64) :=
  let oldbytes := bytes
  match ifal with
  | none => some (none, bytes)
  | some ifal =>
      let (bytes, ifOk) := sum direction interface ifal (0, false)
      if ifOk = false then some (none, bytes)
      else if oldbytes = 0 then some (none, bytes)
      else if interval = 0 then none
      else some (some ((bytes - oldbytes) * 1000 / interval.toUInt64), bytes)

def reading (call : BsdCall) : Option UInt64 :=
  call.ifal.bind fun ifal =>
    let (bytes, ifOk) := sum direction call.interface ifal (0, false)
    if ifOk then some bytes else none

def next (bytes : UInt64) (call : BsdCall) : Option (Option UInt64 × UInt64) :=
  netspeed direction interval call.interface call.ifal bytes

/-- Where no entry is found, nothing is added. -/
theorem sum_not_found {name : Text} {ifal : List Ifaddr} {bytes : UInt64} {ifOk : Bool}
    (missing : (sum direction name ifal (bytes, ifOk)).2 = false) :
    ifOk = false ∧ (sum direction name ifal (bytes, ifOk)).1 = bytes := by
  induction ifal generalizing bytes ifOk with
  | nil => exact ⟨missing, rfl⟩
  | cons ifa ifal ih =>
    unfold sum at missing ⊢
    cases data : ifa.ifaData with
    | none =>
      simp only [data] at missing ⊢
      exact ih missing
    | some counted =>
      simp only [data] at missing ⊢
      split_ifs at missing ⊢
      · exact absurd (ih missing).1 (by decide)
      · exact ih missing

theorem metering : Metering (next direction interval) (reading direction) interval := by
  constructor
  · intro bytes call new out read result
    obtain ⟨ifal, listed, counted⟩ := Option.bind_eq_some_iff.mp read
    dsimp only at counted
    unfold next netspeed at result
    simp only [listed] at result
    split_ifs at counted with found
    cases counted
    rw [if_neg (by simp [found])] at result
    split_ifs at result with unset zero
    · cases result
      exact ⟨rfl, nofun⟩
    · cases result
      refine ⟨rfl, ?_⟩
      rintro rate ⟨⟩
      exact ⟨unset, zero, rfl⟩
  · intro bytes call out read result
    unfold next netspeed at result
    cases listed : call.ifal with
    | none =>
      rw [listed] at result
      cases result
      exact ⟨rfl, .inl rfl⟩
    | some ifal =>
      simp only [reading, listed, Option.bind_some] at read
      have missing : (sum direction call.interface ifal (0, false)).2 = false := by
        cases found : (sum direction call.interface ifal (0, false)).2 with
        | false => rfl
        | true =>
          rw [found] at read
          cases read
      simp only [listed, missing, if_true, Option.some.injEq] at result
      subst out
      exact ⟨rfl, .inr (sum_not_found direction missing).2⟩

end BsdCall

/-- On both systems and in both directions: if each reading that meets a variable that is set
follows one of the same interface and has grown, every rate is right; and right after a reading
of the same interface no other rate is. -/
theorem speeds_right (direction : Direction) (interval : UInt32) :
    (∀ past bytes, Run (step (LinuxCall.next direction interval)) 0 past bytes →
      (Along (Steady LinuxCall.interface (LinuxCall.reading direction)) past →
        Along (Right (LinuxCall.next direction interval) LinuxCall.interface (LinuxCall.reading direction) interval)
          past) ∧
      Along (Strict (LinuxCall.next direction interval) LinuxCall.interface (LinuxCall.reading direction) interval)
        past) ∧
    ∀ past bytes, Run (step (BsdCall.next direction interval)) 0 past bytes →
      (Along (Steady BsdCall.interface (BsdCall.reading direction)) past →
        Along (Right (BsdCall.next direction interval) BsdCall.interface (BsdCall.reading direction) interval)
          past) ∧
      Along (Strict (BsdCall.next direction interval) BsdCall.interface (BsdCall.reading direction) interval)
        past := by
  constructor
  · intro past bytes run
    exact rates_right (LinuxCall.metering direction interval) run
  · intro past bytes run
    exact rates_right (BsdCall.metering direction interval) run

instance (direction : Direction) (past : Past UInt64 LinuxCall) (taken : UInt64 × LinuxCall) :
    Decidable (Steady LinuxCall.interface (LinuxCall.reading direction) past taken) :=
  -- not by going through all counters of 64 bits
  @Option.decidableForallMem _ _ (fun _ => @instDecidableForall _ _ _ (@Option.decidableForallMem _ _
    (fun _ => inferInstanceAs (Decidable (_ ∧ _))) _)) _

section Example

/-- `"m"` and `"n"`. -/
def cable : Text := ⟨[0x6D], by decide⟩

def radio : Text := ⟨[0x6E], by decide⟩

/-- A reading, one that fails, and one later. -/
theorem speeds_right_late :
    ∃ past bytes, Run (step (LinuxCall.next .rx 1000)) 0 past bytes ∧
      previous LinuxCall.interface (LinuxCall.reading .rx) cable past = some 3000 ∧
      handed (LinuxCall.next .rx 1000) bytes ⟨cable, some 7000⟩ = some 4000 ∧
      Along (Right (LinuxCall.next .rx 1000) LinuxCall.interface (LinuxCall.reading .rx) 1000) past := by
  obtain ⟨past, bytes, run, checked⟩ := exists_run (step (LinuxCall.next .rx 1000)) 0
    [⟨cable, some 1000⟩, ⟨cable, none⟩, ⟨cable, some 3000⟩]
    (fun past bytes => decide (Along (Steady LinuxCall.interface (LinuxCall.reading .rx)) past ∧
      previous LinuxCall.interface (LinuxCall.reading .rx) cable past = some 3000 ∧
      handed (LinuxCall.next .rx 1000) bytes ⟨cable, some 7000⟩ = some 4000)) (by decide)
  obtain ⟨steady, last, later⟩ := of_decide_eq_true checked
  exact ⟨past, bytes, run, last, later, (((speeds_right .rx 1000).1 past bytes run).1 steady)⟩

/-- A reading of another interface in between: the first call for the radio hands on the distance
between the two counters, which here has wrapped. -/
theorem speeds_mixed :
    ∃ past bytes, Run (step (LinuxCall.next .rx 1000)) 0 past bytes ∧
      previous LinuxCall.interface (LinuxCall.reading .rx) radio past = none ∧
      handed (LinuxCall.next .rx 1000) bytes ⟨radio, some 400⟩ = some 18446744073708951 ∧
      ¬Right (LinuxCall.next .rx 1000) LinuxCall.interface (LinuxCall.reading .rx) 1000 past
        (bytes, ⟨radio, some 400⟩) := by
  obtain ⟨past, bytes, run, checked⟩ := exists_run (step (LinuxCall.next .rx 1000)) 0 [⟨cable, some 1000⟩]
    (fun past bytes => decide (previous LinuxCall.interface (LinuxCall.reading .rx) radio past = none ∧
      handed (LinuxCall.next .rx 1000) bytes ⟨radio, some 400⟩ = some 18446744073708951)) (by decide)
  obtain ⟨never, shown⟩ := of_decide_eq_true checked
  refine ⟨past, bytes, run, never, shown, fun right => ?_⟩
  obtain ⟨old, -, before, -⟩ := right _ shown
  rw [never] at before
  cases before

end Example

end SlStatus.SpeedHistory
