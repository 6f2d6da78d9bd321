import Mathlib.Algebra.Order.Ring.Int
import SlStatus.MainLoop

/-! The subtractions before the sleep. A normalised `timespec` stands for a number of
nanoseconds, whose sign is that of its seconds; each subtraction is the exact one on these
numbers and its result is normalised again. -/

namespace SlStatus.SleepArithmetic
open Table MainLoop

/-- What `nanosleep` accepts as its nanoseconds. -/
def Normalised (t : Timespec) : Prop := 0 ≤ t.tvNsec ∧ t.tvNsec < 1000000000

instance (t : Timespec) : Decidable (Normalised t) := inferInstanceAs (Decidable (_ ∧ _))

def nanoseconds (t : Timespec) : Int := t.tvSec * 1000000000 + t.tvNsec

theorem difftimespec_normalised {a b : Timespec} (left : Normalised a) (right : Normalised b) :
    Normalised (difftimespec a b) := by
  unfold Normalised difftimespec at *
  dsimp only
  split_ifs <;> omega

theorem nanoseconds_difftimespec (a b : Timespec) :
    nanoseconds (difftimespec a b) = nanoseconds a - nanoseconds b := by
  unfold nanoseconds difftimespec
  dsimp only
  split_ifs <;> omega

theorem tvSec_nonneg_iff {t : Timespec} (normalised : Normalised t) : 0 ≤ t.tvSec ↔ 0 ≤ nanoseconds t := by
  unfold Normalised nanoseconds at *
  omega

/-- Nothing overflows in the subtraction: the seconds fit into a `long` at each step, and the nanoseconds and the product
by 1E9 stay far below `2 ^ 53`, so that a `double` holds them and their sum exactly. -/
structure Fits (a b : Timespec) : Prop where
  seconds : -(2 ^ 63) ≤ a.tvSec - b.tvSec ∧ a.tvSec - b.tvSec < 2 ^ 63
  borrowed : -(2 ^ 63) ≤ (difftimespec a b).tvSec ∧ (difftimespec a b).tvSec < 2 ^ 63
  nanoseconds : -(2 ^ 53) < a.tvNsec - b.tvNsec ∧ a.tvNsec - b.tvNsec < 2 ^ 53
  carried : -(2 ^ 53) < (difftimespec a b).tvNsec ∧ (difftimespec a b).tvNsec < 2 ^ 53

theorem difftimespec_fits {a b : Timespec} (left : Normalised a) (right : Normalised b)
    (before : 0 ≤ a.tvSec ∧ a.tvSec < 2 ^ 63) (after : 0 ≤ b.tvSec ∧ b.tvSec < 2 ^ 63) : Fits a b := by
  unfold Normalised at left right
  constructor
  · omega
  · unfold difftimespec
    dsimp only
    split_ifs <;> omega
  · omega
  · unfold difftimespec
    dsimp only
    split_ifs <;> omega

variable {Comp σ : Type*} {cfg : Config Comp}

/-- `intspec`. -/
def intspec (cfg : Config Comp) : Timespec := ⟨(cfg.interval / 1000).toNat, (cfg.interval % 1000).toNat * 1000000⟩

theorem waitFor_eq (cfg : Config Comp) (start current : Timespec) :
    waitFor cfg start current = difftimespec (intspec cfg) (difftimespec current start) := rfl

theorem intspec_eq (cfg : Config Comp) :
    Normalised (intspec cfg) ∧ nanoseconds (intspec cfg) = cfg.interval.toNat * 1000000 := by
  have quotient : (cfg.interval / 1000).toNat = cfg.interval.toNat / 1000 := UInt32.toNat_div ..
  have rest : (cfg.interval % 1000).toNat = cfg.interval.toNat % 1000 := UInt32.toNat_mod ..
  unfold Normalised nanoseconds intspec
  rw [quotient, rest]
  dsimp only
  omega

variable [DecidableEq Comp]

/-- Where the loop goes from `waitTest`, told by the exact numbers. -/
theorem wait_tested (options : Options) {s : State cfg σ} (env : Env cfg σ) {elapsed : Int} (here : s.pc = .waitTest)
    (normalised : Normalised s.wait) (exact : nanoseconds s.wait = cfg.interval.toNat * 1000000 - elapsed) :
    mainStep options s env =
      some { s with pc := if cfg.interval.toNat * 1000000 < elapsed then .afterWait else .asleep false } := by
  have sign := tvSec_nonneg_iff normalised
  simp only [mainStep, here]
  by_cases late : (cfg.interval.toNat : Int) * 1000000 < elapsed
  · rw [if_pos late, if_neg (by omega)]
  · rw [if_neg late, if_pos (by omega)]

/-- For every interval and any two normalised readings of which the second is not the earlier, both differences are
normalised and exact, and as long as the readings fit into a `long` nothing overflows. From the second reading the
machine goes on in two steps: the wait that is handed to `nanosleep` lies between zero and the interval, and the sleep
is skipped exactly when more time has passed than that. -/
theorem sleep_exact {start current : Timespec} (first : Normalised start) (second : Normalised current)
    (later : nanoseconds start ≤ nanoseconds current) :
    (Normalised (difftimespec current start) ∧
      nanoseconds (difftimespec current start) = nanoseconds current - nanoseconds start) ∧
    (Normalised (waitFor cfg start current) ∧
      nanoseconds (waitFor cfg start current) =
        cfg.interval.toNat * 1000000 - (nanoseconds current - nanoseconds start)) ∧
    (0 ≤ start.tvSec → current.tvSec < 2 ^ 63 →
      Fits current start ∧ Fits (intspec cfg) (difftimespec current start)) ∧
    ∀ (options : Options) (s : State cfg σ) (env test : Env cfg σ), s.pc = .clockCurrent → s.start = start →
      env.now = current → env.fails = false →
        ∃ tested left, mainStep options s env = some tested ∧ mainStep options tested test = some left ∧
          left.wait = waitFor cfg start current ∧
            (left.pc = .afterWait ∧ cfg.interval.toNat * 1000000 < nanoseconds current - nanoseconds start ∨
              left.pc = .asleep false ∧ 0 ≤ nanoseconds left.wait ∧
                nanoseconds left.wait ≤ cfg.interval.toNat * 1000000 ∧
                nanoseconds current - nanoseconds start ≤ cfg.interval.toNat * 1000000) := by
  have diff := difftimespec_normalised second first
  have elapsed := nanoseconds_difftimespec current start
  obtain ⟨spec, interval⟩ := intspec_eq cfg
  have wait : Normalised (waitFor cfg start current) := difftimespec_normalised spec diff
  have value : nanoseconds (waitFor cfg start current) =
      cfg.interval.toNat * 1000000 - (nanoseconds current - nanoseconds start) := by
    rw [waitFor_eq, nanoseconds_difftimespec, interval, elapsed]
  refine ⟨⟨diff, elapsed⟩, ⟨wait, value⟩, ?_, ?_⟩
  · intro low high
    have size := cfg.interval.toNat_lt
    have positive : 0 ≤ (difftimespec current start).tvSec := (tvSec_nonneg_iff diff).mpr (by omega)
    have order : start.tvSec ≤ current.tvSec := by
      unfold Normalised nanoseconds at *
      omega
    have subtraction := difftimespec_fits second first ⟨by omega, high⟩ ⟨low, by omega⟩
    refine ⟨subtraction, difftimespec_fits spec diff ?_ ⟨positive, subtraction.borrowed.2⟩⟩
    have seconds := (tvSec_nonneg_iff spec).mpr (by omega)
    refine ⟨seconds, ?_⟩
    unfold Normalised nanoseconds at *
    omega
  · intro options s env test here began read succeeds
    have move : mainStep options s env = some { s with wait := waitFor cfg start current, pc := .waitTest } := by
      simp only [mainStep, here, succeeds, began, read, if_neg Bool.false_ne_true]
    refine ⟨_, _, move, wait_tested options test rfl wait value, rfl, ?_⟩
    dsimp only
    rw [value]
    by_cases late : (cfg.interval.toNat : Int) * 1000000 < nanoseconds current - nanoseconds start
    · exact .inl ⟨if_pos late, late⟩
    · exact .inr ⟨if_neg late, by omega, by omega, by omega⟩

/-- An interval of a second and a half. -/
def sleepConfig : Config Unit :=
  { interval := 1500, unknownStr := CString.Text.empty, cmdlen := 16,
    args := [⟨(), ⟨CString.Text.empty, CString.Text.empty⟩, 1, -1⟩], cmdlen_pos := by decide,
    args_ne_nil := List.cons_ne_nil _ _ }

/-- Before the second reading of the clock. -/
def passed (start : Timespec) : State sleepConfig Unit :=
  { initial sleepConfig toStdout (fun _ => ()) with start, pc := .clockCurrent }

def clock (now : Timespec) : Env sleepConfig Unit :=
  { fails := false, errno := 0, now, rem := ⟨0, 0⟩, res := none, component := (), stack := CString.Buffer.zeroed _ }

/-- Six nanoseconds more than a second have passed, and both subtractions borrow; and one more than the interval. -/
theorem sleep_exact_borrowed :
    (∃ tested left, mainStep toStdout (passed ⟨7, 999999999⟩) (clock ⟨9, 5⟩) = some tested ∧
      mainStep toStdout tested (clock ⟨9, 5⟩) = some left ∧ left.pc = .asleep false ∧
      nanoseconds left.wait = 499999994) ∧
    ∃ tested left, mainStep toStdout (passed ⟨7, 999999999⟩) (clock ⟨9, 500000000⟩) = some tested ∧
      mainStep toStdout tested (clock ⟨9, 500000000⟩) = some left ∧ left.pc = .afterWait := by
  constructor
  · have exact := @sleep_exact Unit Unit sleepConfig _ ⟨7, 999999999⟩ ⟨9, 5⟩ (by decide) (by decide) (by decide)
    obtain ⟨-, ⟨-, value⟩, -, steps⟩ := exact
    obtain ⟨tested, left, first, second, wait, goes⟩ := steps toStdout (passed ⟨7, 999999999⟩) (clock ⟨9, 5⟩)
      (clock ⟨9, 5⟩) rfl rfl rfl rfl
    rcases goes with ⟨-, late⟩ | ⟨asleep, -⟩
    · exact absurd late (by decide)
    · exact ⟨tested, left, first, second, asleep, by rw [wait, value]; decide⟩
  · have exact := @sleep_exact Unit Unit sleepConfig _ ⟨7, 999999999⟩ ⟨9, 500000000⟩ (by decide) (by decide)
      (by decide)
    obtain ⟨-, -, -, steps⟩ := exact
    obtain ⟨tested, left, first, second, -, goes⟩ := steps toStdout (passed ⟨7, 999999999⟩) (clock ⟨9, 500000000⟩)
      (clock ⟨9, 500000000⟩) rfl rfl rfl rfl
    rcases goes with ⟨skipped, -⟩ | ⟨-, -, -, early⟩
    · exact ⟨tested, left, first, second, skipped⟩
    · exact absurd early (by decide)

end SlStatus.SleepArithmetic
