import Mathlib.Tactic.Ring
import SlStatus.Netspeeds
import SlStatus.Schedule

/-! A row that shows a speed. Time is counted in ticks, any number of them to the interval: a
timer pass begins an interval, and a wake-up comes as many ticks into it as the outside says. -/

namespace SlStatus.ShownSpeeds
open CString Table Runs MainLoop Steps Schedule Netspeeds

/-- What the row's function keeps and reads, beside the ticks since the timer pass. -/
structure Gauge extends Meter where
  since : Nat
  deriving DecidableEq

structure Sample where
  time : Nat
  counter : UInt64
  deriving DecidableEq

/-- The bytes counted from one sample to the next, for a division by milliseconds. -/
def counted (before now : Sample) : Nat := (now.counter.toNat - before.counter.toNat) * 1000

/-- The rate is the whole part of the bytes divided by the time. -/
def Divided (interval : UInt32) (ticks : Nat) (before now : Sample) (rate : Nat) : Prop :=
  rate * ((now.time - before.time) * interval.toNat) ≤ counted before now * ticks ∧
    counted before now * ticks < (rate + 1) * ((now.time - before.time) * interval.toNat)

/-- One interval has passed, or so few bytes were counted that there is no rate to show. -/
def Timely (interval : UInt32) (ticks : Nat) (before now : Sample) : Prop :=
  now.time = before.time + ticks ∨
    counted before now < interval.toNat ∧ counted before now * ticks < (now.time - before.time) * interval.toNat

instance (interval : UInt32) (ticks : Nat) (before now : Sample) : Decidable (Timely interval ticks before now) :=
  inferInstanceAs (Decidable (_ ∨ _))

instance (interval : UInt32) (ticks : Nat) (before now : Sample) (rate : Nat) :
    Decidable (Divided interval ticks before now rate) := inferInstanceAs (Decidable (_ ∧ _))

theorem divided_of_timely {interval : UInt32} {ticks : Nat} {before now : Sample} (positive : 0 < interval.toNat)
    (ticking : 0 < ticks) (timely : Timely interval ticks before now) :
    Divided interval ticks before now (counted before now / interval.toNat) := by
  rcases timely with one | ⟨few, fewTicks⟩
  · have elapsed : now.time - before.time = ticks := by omega
    have below := Nat.div_mul_le_self (counted before now) interval.toNat
    have above := Nat.lt_mul_div_succ (counted before now) positive
    rw [Nat.mul_comm] at above
    unfold Divided
    rw [elapsed, Nat.mul_comm ticks, ← Nat.mul_assoc, ← Nat.mul_assoc]
    exact ⟨Nat.mul_le_mul_right ticks below, Nat.mul_lt_mul_of_pos_right above ticking⟩
  · rw [Divided, Nat.div_eq_of_lt few, Nat.zero_mul, Nat.zero_add, Nat.one_mul]
    exact ⟨Nat.zero_le _, fewTicks⟩

/-- Over a whole number of intervals there is no other way to show the right rate. -/
theorem timely_of_divided {interval : UInt32} {ticks : Nat} {before now : Sample} {intervals : Nat}
    (positive : 0 < interval.toNat) (ticking : 0 < ticks) (whole : now.time = before.time + intervals * ticks)
    (divided : Divided interval ticks before now (counted before now / interval.toNat)) :
    Timely interval ticks before now := by
  have elapsed : now.time - before.time = intervals * ticks := by omega
  have above := Nat.lt_mul_div_succ (counted before now) positive
  rw [Nat.mul_comm] at above
  rw [Divided, elapsed] at divided
  obtain ⟨least, most⟩ := divided
  rw [Timely, elapsed]
  match intervals with
  | 0 => simp at most
  | 1 => exact .inl (by omega)
  | intervals + 2 =>
    -- the rate of the code is that many times too large, so it can only be zero
    have scaled : counted before now / interval.toNat * (intervals + 2) * interval.toNat ≤ counted before now := by
      refine Nat.le_of_mul_le_mul_right ?_ ticking
      calc counted before now / interval.toNat * (intervals + 2) * interval.toNat * ticks
          = counted before now / interval.toNat * ((intervals + 2) * ticks * interval.toNat) := by ring
        _ ≤ counted before now * ticks := least
    have rates := Nat.lt_of_mul_lt_mul_right (Nat.lt_of_le_of_lt scaled above)
    have none : counted before now / interval.toNat = 0 := by
      rw [Nat.mul_add] at rates
      have grown : 0 ≤ counted before now / interval.toNat * intervals := Nat.zero_le _
      omega
    rw [none, Nat.zero_add, Nat.one_mul] at most
    exact .inr ⟨Nat.lt_of_div_eq_zero positive none, most⟩

variable {Comp : Type*} {cfg : Config Comp} (i : Row cfg)

def gauge (s : State cfg Gauge) : Gauge := s.components (cfg.arg i).func

/-- When the row is evaluated in a step, and what its file holds then. -/
def sampled (ticks : Nat) (past : Past (State cfg Gauge) (Label cfg Gauge)) :
    State cfg Gauge × Label cfg Gauge → Option Sample
  | (s, .main _) =>
      match s.pc with
      | .eval .timer _ j _ =>
          if j = i then some { time := calls past * ticks, counter := (gauge i s).counter } else none
      | .eval .wakeup _ j _ =>
          if j = i then some { time := calls past * ticks + (gauge i s).since, counter := (gauge i s).counter }
          else none
      | _ => none
  | _ => none

/-- The latest evaluation of the row. -/
def latest (ticks : Nat) : Past (State cfg Gauge) (Label cfg Gauge) → Option Sample
  | [] => none
  | taken :: past => (sampled i ticks past taken).or (latest ticks past)

variable (direction : Direction) (interface : Text)

/-- The rate that is handed to `fmt_human` if the row is evaluated now. -/
def rateNow (s : State cfg Gauge) : Option UInt64 :=
  (netspeed direction cfg.interval interface (gauge i s).toMeter).bind Prod.fst

/-- The row's component does what the function does, nothing else writes its static variable,
and its counter does not decrease. -/
def Metered (fmtHuman : UInt64 → Option Text) (s : State cfg Gauge) : Label cfg Gauge → Prop
  | .main env =>
      match s.pc with
      | .eval _ _ j _ => j = i →
          ((netspeed direction cfg.interval interface (gauge i s).toMeter).map fun (rate, meter) =>
            (rate.bind fmtHuman, { gauge i s with toMeter := meter })) = some (env.res, env.component)
      | _ => True
  | .signal _ => True
  | .outside components =>
      (components (cfg.arg i).func).bytes = (gauge i s).bytes ∧
        (gauge i s).counter ≤ (components (cfg.arg i).func).counter

/-- What is shown is the bytes since the previous evaluation divided by the time since then. -/
def Matching (ticks : Nat) (past : Past (State cfg Gauge) (Label cfg Gauge))
    (taken : State cfg Gauge × Label cfg Gauge) : Prop :=
  ∀ now ∈ sampled i ticks past taken, ∀ rate ∈ rateNow i direction interface taken.1,
    ∃ before ∈ latest i ticks past, Divided cfg.interval ticks before now rate.toNat

/-- The static variable still has the counter as it was at the previous evaluation, and the
difference can be multiplied. -/
def Kept (before now : Sample) (s : State cfg Gauge) : Prop :=
  (gauge i s).bytes = before.counter ∧ counted before now < UInt64.size

/-- An evaluation that has something to show comes one interval after the previous one. -/
def Steady (ticks : Nat) (past : Past (State cfg Gauge) (Label cfg Gauge))
    (taken : State cfg Gauge × Label cfg Gauge) : Prop :=
  ∀ now ∈ sampled i ticks past taken, (gauge i taken.1).readable = true → (gauge i taken.1).bytes ≠ 0 →
    ∀ before ∈ latest i ticks past, Kept i before now taken.1 ∧ Timely cfg.interval ticks before now

/-- Over whole intervals that is the only way to show what is right. -/
def Strict (ticks : Nat) (past : Past (State cfg Gauge) (Label cfg Gauge))
    (taken : State cfg Gauge × Label cfg Gauge) : Prop :=
  ∀ now ∈ sampled i ticks past taken, ∀ rate ∈ rateNow i direction interface taken.1,
    ∀ before ∈ latest i ticks past, Kept i before now taken.1 →
      (∃ intervals, now.time = before.time + intervals * ticks) →
        Divided cfg.interval ticks before now rate.toNat → Timely cfg.interval ticks before now

/-- What the past says of the static variable and the counter. -/
def Counted (ticks : Nat) (past : Past (State cfg Gauge) (Label cfg Gauge)) (s : State cfg Gauge) : Prop :=
  (latest i ticks past = none → (gauge i s).bytes = 0) ∧
    ∀ before ∈ latest i ticks past, before.counter ≤ (gauge i s).counter

theorem latest_other {ticks : Nat} {past : Past (State cfg Gauge) (Label cfg Gauge)}
    {taken : State cfg Gauge × Label cfg Gauge} (elsewhere : sampled i ticks past taken = none) :
    latest i ticks (taken :: past) = latest i ticks past := by
  rw [latest, elsewhere, Option.none_or]

theorem Counted.other {ticks : Nat} {past : Past (State cfg Gauge) (Label cfg Gauge)}
    {taken : State cfg Gauge × Label cfg Gauge} {s s' : State cfg Gauge} (counted : Counted i ticks past s)
    (elsewhere : sampled i ticks past taken = none) (bytes : (gauge i s').bytes = (gauge i s).bytes)
    (counter : (gauge i s).counter ≤ (gauge i s').counter) : Counted i ticks (taken :: past) s' := by
  rw [Counted, latest_other i elsewhere, bytes]
  exact ⟨counted.1, fun before member => UInt64.le_trans (counted.2 before member) counter⟩

variable [DecidableEq Comp]

/-- An evaluation of any row by whichever caller. -/
theorem counted_of_eval {ticks : Nat} {fmtHuman : UInt64 → Option Text}
    (unique : ∀ j, (cfg.arg j).func = (cfg.arg i).func → j = i)
    {past : Past (State cfg Gauge) (Label cfg Gauge)} {s s' : State cfg Gauge} {env : Env cfg Gauge} {caller : Caller}
    {iter : UInt32} {j : Row cfg} {rest : List (Row cfg)} (counted : Counted i ticks past s)
    (here : s.pc = .eval caller iter j rest) (metered : Metered i direction interface fmtHuman s (.main env))
    (written : s'.components = Function.update s.components (cfg.arg j).func env.component) :
    Counted i ticks ((s, .main env) :: past) s' := by
  by_cases own : j = i
  · subst j
    simp only [Metered, here] at metered
    obtain ⟨⟨rate, meter⟩, returned, answered⟩ := Option.map_eq_some_iff.mp (metered trivial)
    have component : env.component = { gauge i s with toMeter := meter } := (Prod.mk.inj answered).2.symm
    have after : (gauge i s').counter = (gauge i s).counter := by
      rw [gauge, written, Function.update_self, component]
      exact netspeed_counter returned
    obtain ⟨time, sample⟩ : ∃ time, sampled i ticks past (s, .main env) = some ⟨time, (gauge i s).counter⟩ := by
      cases caller with
      | timer => exact ⟨calls past * ticks, by simp only [sampled, here, if_true]⟩
      | wakeup => exact ⟨calls past * ticks + (gauge i s).since, by simp only [sampled, here, if_true]⟩
    rw [Counted, latest, sample, Option.some_or, after]
    refine ⟨nofun, ?_⟩
    rintro before ⟨⟩
    exact UInt64.le_refl _
  · have elsewhere : sampled i ticks past (s, .main env) = none := by
      cases caller <;> simp only [sampled, here, if_neg own]
    have same : gauge i s' = gauge i s := by
      rw [gauge, written, Function.update_of_ne fun shared => own (unique j shared.symm)]
      rfl
    apply counted.other i elsewhere
    · rw [same]
    · rw [same]
      exact UInt64.le_refl _

theorem counted_of_move {options : Options} {ticks : Nat} {fmtHuman : UInt64 → Option Text}
    (unique : ∀ j, (cfg.arg j).func = (cfg.arg i).func → j = i) {past : Past (State cfg Gauge) (Label cfg Gauge)}
    {s s' : State cfg Gauge} {label : Label cfg Gauge} (counted : Counted i ticks past s)
    (metered : Metered i direction interface fmtHuman s label) (move : Move options s label s') :
    Counted i ticks ((s, label) :: past) s' := by
  have still : sampled i ticks past (s, label) = none → s'.components = s.components →
      Counted i ticks ((s, label) :: past) s' := by
    intro elsewhere kept
    have same : gauge i s' = gauge i s := congrFun kept _
    apply counted.other i elsewhere
    · rw [same]
    · rw [same]
      exact UInt64.le_refl _
  cases move with
  | evalFits here | evalBreak here => exact counted_of_eval i direction interface unique counted here metered rfl
  | outside => exact counted.other i rfl metered.1 metered.2
  | handled | handledAsleep | ending | endingAsleep => exact still rfl rfl
  | clockDies here => rcases here with here | here <;> exact still (by simp only [sampled, here]) rfl
  | _ => exact still (by simp only [sampled, *]) rfl

theorem counted_of_run {options : Options} {components : Comp → Gauge} {ticks : Nat} {fmtHuman : UInt64 → Option Text}
    (unique : ∀ j, (cfg.arg j).func = (cfg.arg i).func → j = i) (zero : (components (cfg.arg i).func).bytes = 0)
    {past : Past (State cfg Gauge) (Label cfg Gauge)} {s : State cfg Gauge}
    (run : Run (step options) (initial cfg options components) past s)
    (metered : Within (Metered i direction interface fmtHuman) past) : Counted i ticks past s := by
  have start : Counted i ticks [] (initial cfg options components) := ⟨fun _ => zero, nofun⟩
  refine run.invariant_past _ (Counted i ticks) start ?_ metered
  intro past before label after counted allowed taken
  exact counted_of_move i direction interface unique counted allowed (move_of_step taken)

omit [DecidableEq Comp] in
/-- What there is to show, and what it is made of. -/
theorem rateNow_eq_some {s : State cfg Gauge} {rate : UInt64} (shown : rateNow i direction interface s = some rate) :
    (gauge i s).readable = true ∧ (gauge i s).bytes ≠ 0 ∧ 0 < cfg.interval.toNat ∧
      rate = ((gauge i s).counter - (gauge i s).bytes) * 1000 / cfg.interval.toUInt64 := by
  obtain ⟨⟨handed, meter⟩, returned, same⟩ := Option.bind_eq_some_iff.mp shown
  cases same
  obtain ⟨readable, bytes, positive, value⟩ := netspeed_rate returned
  exact ⟨readable, bytes, Nat.pos_of_ne_zero fun zero => positive (UInt32.toNat_inj.mp zero), value⟩

omit [DecidableEq Comp] in
theorem sampled_counter {ticks : Nat} {past : Past (State cfg Gauge) (Label cfg Gauge)} {s : State cfg Gauge}
    {label : Label cfg Gauge} {now : Sample} (sample : sampled i ticks past (s, label) = some now) :
    now.counter = (gauge i s).counter := by
  cases label with
  | main env =>
    cases here : s.pc with
    | eval caller iter j rest =>
      cases caller <;>
      · simp only [sampled, here] at sample
        split_ifs at sample
        cases sample
        rfl
    | _ => simp [sampled, here] at sample
  | _ => cases sample

omit [DecidableEq Comp] in
/-- With the static variable as it should be, the rate is that of the two samples. -/
theorem rate_of_kept {ticks : Nat} {past : Past (State cfg Gauge) (Label cfg Gauge)} {s : State cfg Gauge}
    {label : Label cfg Gauge} {before now : Sample} {rate : UInt64} (counted : Counted i ticks past s)
    (sample : sampled i ticks past (s, label) = some now) (previous : before ∈ latest i ticks past)
    (kept : Kept i before now s) (shown : rateNow i direction interface s = some rate) :
    rate.toNat = ShownSpeeds.counted before now / cfg.interval.toNat := by
  obtain ⟨bytes, fits⟩ := kept
  have counter := sampled_counter i sample
  obtain ⟨-, -, -, rfl⟩ := rateNow_eq_some i direction interface shown
  rw [ShownSpeeds.counted, counter, ← bytes] at fits ⊢
  exact rate_toNat (bytes ▸ counted.2 before previous) fits

/-- In every run, if every evaluation with something to show comes one interval after the
previous one, which has read the counter, every rate shown is right; and over a whole number
of intervals no other evaluation shows the right rate. -/
theorem rates_match (options : Options) {components : Comp → Gauge} {ticks : Nat} {fmtHuman : UInt64 → Option Text}
    (ticking : 0 < ticks) (unique : ∀ j, (cfg.arg j).func = (cfg.arg i).func → j = i)
    (zero : (components (cfg.arg i).func).bytes = 0) {past : Past (State cfg Gauge) (Label cfg Gauge)}
    {last : State cfg Gauge} (run : Run (step options) (initial cfg options components) past last)
    (metered : Within (Metered i direction interface fmtHuman) past) :
    (Along (Steady i ticks) past → Along (Matching i direction interface ticks) past) ∧
      Along (Strict i direction interface ticks) past := by
  induction run with
  | start => exact ⟨fun _ => trivial, trivial⟩
  | @step past before after label run taken ih =>
    obtain ⟨steadily, strictly⟩ := ih metered.tail
    have counted : Counted i ticks past before := counted_of_run i direction interface unique zero run metered.tail
    refine ⟨?_, ?_, strictly⟩
    · rintro ⟨steady, earlier⟩
      refine ⟨?_, steadily earlier⟩
      intro now sample rate shown
      obtain ⟨readable, bytes, positive, -⟩ := rateNow_eq_some i direction interface shown
      cases previous : latest i ticks past with
      | none => exact absurd (counted.1 previous) bytes
      | some sampleBefore =>
        obtain ⟨kept, timely⟩ := steady now sample readable bytes sampleBefore previous
        refine ⟨sampleBefore, rfl, ?_⟩
        rw [rate_of_kept i direction interface counted sample previous kept shown]
        exact divided_of_timely positive ticking timely
    · intro now sample rate shown sampleBefore previous kept whole divided
      obtain ⟨-, -, positive, -⟩ := rateNow_eq_some i direction interface shown
      obtain ⟨intervals, whole⟩ := whole
      rw [rate_of_kept i direction interface counted sample previous kept shown] at divided
      exact timely_of_divided positive ticking whole divided

instance (before now : Sample) (s : State cfg Gauge) : Decidable (Kept i before now s) :=
  inferInstanceAs (Decidable (_ ∧ _))

instance (ticks : Nat) (past : Past (State cfg Gauge) (Label cfg Gauge)) (taken : State cfg Gauge × Label cfg Gauge) :
    Decidable (Steady i ticks past taken) := inferInstanceAs (Decidable (∀ now ∈ _, _ → _ → ∀ before ∈ _, _))

instance (ticks : Nat) (past : Past (State cfg Gauge) (Label cfg Gauge)) (taken : State cfg Gauge × Label cfg Gauge) :
    Decidable (Matching i direction interface ticks past taken) :=
  -- not by going through all rates of 64 bits
  @Option.decidableForallMem _ _
    (fun _ => @Option.decidableForallMem _ _ (fun _ => inferInstanceAs (Decidable (∃ before ∈ _, _))) _) _

instance (fmtHuman : UInt64 → Option Text) (s : State cfg Gauge) :
    (label : Label cfg Gauge) → Decidable (Metered i direction interface fmtHuman s label)
  | .signal _ => inferInstanceAs (Decidable True)
  | .outside _ => inferInstanceAs (Decidable (_ ∧ _))
  | .main env => by
      dsimp only [Metered]
      induction s.pc using Pc.casesOn <;> infer_instance

section Example

/-- A single row with `netspeed_rx`, refreshed every `turn` seconds. -/
def speedConfig (turn : UInt32) : Config Unit :=
  { interval := 1000, unknownStr := Text.empty, cmdlen := 64, args := [⟨(), ⟨Text.empty, Text.empty⟩, turn, -1⟩],
    cmdlen_pos := by decide, args_ne_nil := List.cons_ne_nil _ _ }

def speedRow (turn : UInt32) : Row (speedConfig turn) := ⟨0, Nat.one_pos⟩

/-- `"eth0"`. -/
def eth0 : Text := ⟨[0x65, 0x74, 0x68, 0x30], by decide⟩

/-- `"2.0 Ki"` and `"3.9 Ki"`. -/
def someHuman (rate : UInt64) : Option Text :=
  if rate = 2000 then some ⟨[0x32, 0x2E, 0x30, 0x20, 0x4B, 0x69], by decide⟩
  else if rate = 4000 then some ⟨[0x33, 0x2E, 0x39, 0x20, 0x4B, 0x69], by decide⟩
  else none

def still : Gauge := ⟨⟨0, 1000, true⟩, 0⟩

/-- A step of `main` that evaluates the row, if it does, as the function would. -/
def reading (turn : UInt32) (bytes counter : UInt64) (rate : Option UInt64) : Label (speedConfig turn) Gauge := .main
  { fails := false, errno := 0, now := ⟨0, 0⟩, rem := ⟨0, 0⟩, res := rate.bind someHuman,
    component := ⟨⟨bytes, counter, true⟩, 0⟩, stack := Buffer.zeroed _ }

def counting (turn : UInt32) (bytes counter : UInt64) : Label (speedConfig turn) Gauge :=
  .outside fun _ => ⟨⟨bytes, counter, true⟩, 0⟩

/-- The second pass of a row with turn 1. -/
theorem rates_match_each_second :
    ∃ past last, Run (step toStdout) (initial (speedConfig 1) toStdout fun _ => still) past last ∧
      latest (speedRow 1) 60 past = some ⟨120, 3000⟩ ∧ Along (Matching (speedRow 1) .rx eth0 60) past := by
  obtain ⟨past, last, run, checked⟩ := exists_run (step toStdout)
    (initial (speedConfig 1) toStdout fun _ => still)
    (List.replicate 16 (reading 1 1000 1000 none) ++ counting 1 1000 3000 ::
      List.replicate 5 (reading 1 3000 3000 (some 2000)))
    (fun past _ => decide (Within (Metered (speedRow 1) .rx eth0 someHuman) past ∧
      Along (Steady (speedRow 1) 60) past ∧ latest (speedRow 1) 60 past = some ⟨120, 3000⟩)) (by decide)
  obtain ⟨metered, steady, sample⟩ := of_decide_eq_true checked
  refine ⟨past, last, run, sample, ?_⟩
  exact (rates_match (speedRow 1) .rx eth0 toStdout (by decide) (by decide) rfl run metered).1 steady

/-- With turn 2 the row shows twice the speed. -/
theorem speed_doubled :
    ∃ past last, Run (step toStdout) (initial (speedConfig 2) toStdout fun _ => still) past last ∧
      Within (Metered (speedRow 2) .rx eth0 someHuman) past ∧ latest (speedRow 2) 60 past = some ⟨180, 5000⟩ ∧
      ¬Along (Matching (speedRow 2) .rx eth0 60) past := by
  obtain ⟨past, last, run, checked⟩ := exists_run (step toStdout)
    (initial (speedConfig 2) toStdout fun _ => still)
    (List.replicate 30 (reading 2 1000 1000 none) ++ counting 2 1000 5000 ::
      List.replicate 5 (reading 2 5000 5000 (some 4000)))
    (fun past _ => decide (Within (Metered (speedRow 2) .rx eth0 someHuman) past ∧
      latest (speedRow 2) 60 past = some ⟨180, 5000⟩ ∧ ¬Along (Matching (speedRow 2) .rx eth0 60) past)) (by decide)
  exact ⟨past, last, run, of_decide_eq_true checked⟩

end Example

end SlStatus.ShownSpeeds
