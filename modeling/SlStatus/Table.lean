import Mathlib.Data.List.FinRange
import Mathlib.Logic.Function.Basic
import SlStatus.Util

/-! The compiled-in configuration: the rows of `args`, the test that picks the rows a pass
evaluates, and the slot each row writes. The signal numbers are those of Linux with glibc. -/

namespace SlStatus.Table
open CString Util

def SIGINT : Int := 2
def SIGUSR1 : Int := 10
def SIGTERM : Int := 15
def SIGRTMIN : Int := 34
def SIGRTMAX : Int := 64

/-- A format with one `%s`: the literal text on both sides of it. -/
structure Format where
  before : Text
  after : Text
  deriving DecidableEq

/-- `struct arg`. A component function is known here only by its identity; the string it is
called with belongs to it, and what it answers is decided outside. -/
structure Arg (Comp : Type*) where
  func : Comp
  fmt : Format
  turn : UInt32
  signal : Int

/-- `config.h`. An array of no rows and a slot of no bytes are not C, so neither can be built. -/
structure Config (Comp : Type*) where
  interval : UInt32
  unknownStr : Text
  cmdlen : Nat
  args : List (Arg Comp)
  cmdlen_pos : 0 < cmdlen
  args_ne_nil : args ≠ []

variable {Comp : Type*} {cfg : Config Comp}

abbrev Row (cfg : Config Comp) := Fin cfg.args.length

abbrev Statuses (cfg : Config Comp) := Row cfg → Buffer cfg.cmdlen

def Config.arg (cfg : Config Comp) (i : Row cfg) : Arg Comp := cfg.args.get i

def Config.rows (cfg : Config Comp) : List (Row cfg) := List.finRange cfg.args.length

/-- `MAXLEN`. -/
def Config.maxlen (cfg : Config Comp) : Nat := cfg.cmdlen * cfg.args.length

theorem mem_rows (cfg : Config Comp) (i : Row cfg) : i ∈ cfg.rows := List.mem_finRange i

theorem rows_nodup (cfg : Config Comp) : cfg.rows.Nodup := List.nodup_finRange _

theorem rows_sorted (cfg : Config Comp) : cfg.rows.Pairwise (· < ·) := List.pairwise_lt_finRange _

/-- The rows in front of a cursor are those before the row it stands at. -/
theorem mem_front_iff {front rest : List (Row cfg)} {i : Row cfg} (split : front ++ i :: rest = cfg.rows)
    (j : Row cfg) : j ∈ front ↔ j < i := by
  have sorted := rows_sorted cfg
  rw [← split, List.pairwise_append, List.pairwise_cons] at sorted
  obtain ⟨-, ⟨ahead, -⟩, ordered⟩ := sorted
  constructor
  · exact fun member => ordered j member i List.mem_cons_self
  · intro before
    have member := mem_rows cfg j
    rw [← split, List.mem_append, List.mem_cons] at member
    rcases member with front | same | later
    · exact front
    · exact absurd same before.ne
    · exact absurd (ahead j later) (lt_asymm before)

/-- `sighandler` acts on these three globals only. -/
structure Globals where
  upsigno : Int
  errno : Int
  done : Bool
  deriving DecidableEq

/-- The signals that `sighandler` records instead of ending the program. -/
def Handled (signo : Int) : Prop := (signo ≤ SIGRTMAX ∧ signo ≥ SIGRTMIN) ∨ signo = SIGUSR1

instance (signo : Int) : Decidable (Handled signo) :=
  inferInstanceAs (Decidable ((signo ≤ SIGRTMAX ∧ signo ≥ SIGRTMIN) ∨ signo = SIGUSR1))

/-- The signals `main` installs `sighandler` for. -/
def Installed (signo : Int) : Prop := signo = SIGINT ∨ signo = SIGTERM ∨ Handled signo

instance (signo : Int) : Decidable (Installed signo) :=
  inferInstanceAs (Decidable (signo = SIGINT ∨ signo = SIGTERM ∨ Handled signo))

def sighandler (signo : Int) (globals : Globals) : Globals :=
  if Handled signo then { globals with upsigno := signo, errno := 0 }
  else { globals with done := true }

/-- The row condition of `printstatus`, the negation of the test that skips the row. -/
def selected (iter : UInt32) (upsigno : Int) (arg : Arg Comp) : Bool :=
  !(decide (iter ≠ 0) && !((decide (iter = 0) && decide (upsigno = 0)) || decide (upsigno = SIGUSR1) ||
    (decide (upsigno = 0) && decide (arg.turn > 0) && decide (iter % arg.turn = 0)) ||
    (decide (arg.signal ≥ 0) && decide (upsigno - SIGRTMIN = arg.signal))))

/-- A row's signal field names this signal; `SIGUSR1` stands for every row. -/
def Subscribes (signo : Int) (arg : Arg Comp) : Prop :=
  signo = SIGUSR1 ∨ (arg.signal ≥ 0 ∧ signo - SIGRTMIN = arg.signal)

instance (signo : Int) (arg : Arg Comp) : Decidable (Subscribes signo arg) :=
  inferInstanceAs (Decidable (signo = SIGUSR1 ∨ (arg.signal ≥ 0 ∧ signo - SIGRTMIN = arg.signal)))

/-- A pass called with a zero argument takes every row, whatever signal is pending. -/
@[simp] theorem selected_zero (upsigno : Int) (arg : Arg Comp) : selected 0 upsigno arg = true := by
  simp [selected]

theorem selected_iff (iter : UInt32) (upsigno : Int) (arg : Arg Comp) :
    selected iter upsigno arg = true ↔
      iter = 0 ∨ Subscribes upsigno arg ∨ (upsigno = 0 ∧ 0 < arg.turn ∧ iter % arg.turn = 0) := by
  by_cases zero : iter = 0
  · simp [zero]
  · simp only [selected, zero, Subscribes]
    simp
    tauto

/-- The text a row prints: its component's answer, or `unknown_str`, inside the row's format. -/
def formatted (cfg : Config Comp) (i : Row cfg) (res : Option Text) : Text :=
  (cfg.arg i).fmt.before ++ res.getD cfg.unknownStr ++ (cfg.arg i).fmt.after

def Fits (cfg : Config Comp) (i : Row cfg) (res : Option Text) : Prop :=
  (formatted cfg i res).bytes.length < cfg.cmdlen

instance (cfg : Config Comp) (i : Row cfg) (res : Option Text) : Decidable (Fits cfg i res) :=
  inferInstanceAs (Decidable (_ < _))

/-- The body of the row loop once the row is selected, with the result of `esnprintf`. -/
def evaluate (cfg : Config Comp) (statuses : Statuses cfg) (i : Row cfg) (res : Option Text) :
    Statuses cfg × Int :=
  let (slot, ret) := esnprintf (statuses i) (formatted cfg i res).bytes
  (Function.update statuses i slot, ret)

theorem evaluate_neg_iff (cfg : Config Comp) (statuses : Statuses cfg) (i : Row cfg) (res : Option Text) :
    (evaluate cfg statuses i res).2 < 0 ↔ ¬Fits cfg i res := by
  rw [Fits, Nat.not_lt]
  exact esnprintf_neg_iff _ _

theorem evaluate_other (cfg : Config Comp) (statuses : Statuses cfg) {i j : Row cfg} (res : Option Text)
    (different : j ≠ i) : (evaluate cfg statuses i res).1 j = statuses j :=
  Function.update_of_ne different _ _

theorem evaluate_self (cfg : Config Comp) (statuses : Statuses cfg) (i : Row cfg) (res : Option Text) :
    ((evaluate cfg statuses i res).1 i).string? = some ((formatted cfg i res).bytes.take (cfg.cmdlen - 1)) := by
  simp only [evaluate, Function.update_self]
  exact string?_esnprintf _ _ (formatted cfg i res).noNul cfg.cmdlen_pos

end SlStatus.Table
