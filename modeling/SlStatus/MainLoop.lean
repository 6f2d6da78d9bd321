import SlStatus.Printstatus
import SlStatus.Runs

/-! `main` as a machine that takes one step at a time, so that `sighandler` may run between
any two of them. What the outside decides (clock readings, the answers of the components,
which calls fail) comes with the label of the step. -/

namespace SlStatus.MainLoop
open CString Util Table Printstatus Runs

structure Timespec where
  tvSec : Int
  tvNsec : Int
  deriving DecidableEq

def difftimespec (a b : Timespec) : Timespec :=
  { tvSec := a.tvSec - b.tvSec - (if a.tvNsec < b.tvNsec then 1 else 0)
    tvNsec := a.tvNsec - b.tvNsec + (if a.tvNsec < b.tvNsec then 1 else 0) * 1000000000 }

def EINTR : Int := 4

structure Options where
  sflag : Bool
  Sflag : Bool
  done : Bool
  deriving DecidableEq

/-- The letters of one argument; `none` where `main` dies with the version or the usage. -/
def readLetters : List Char → Options → Option Options
  | [], options => some options
  | '1' :: rest, options => readLetters rest { options with done := true, sflag := true }
  | 's' :: rest, options => readLetters rest { options with sflag := true }
  | 'S' :: rest, options => readLetters rest { options with Sflag := true }
  | _ :: _, _ => none

/-- The `ARGBEGIN` loop over the arguments after the program's name, and the test for
arguments left over. -/
def readArguments : List (List Char) → Options → Option Options
  | [], options => some options
  | ['-', '-'] :: rest, options => if rest = [] then some options else none
  | ('-' :: letter :: letters) :: rest, options =>
      match readLetters (letter :: letters) options with
      | none => none
      | some options => readArguments rest options
  | _ :: _, _ => none

def noOptions : Options := ⟨false, false, false⟩

inductive Caller where
  | timer | wakeup
  deriving DecidableEq

section
variable {Comp σ : Type*}

/-- Where `main` is. The rows of a `test` are those from `args[i]` on. -/
inductive Pc (cfg : Config Comp) where
  | setup
  | tick
  | clockStart
  | call
  | test (caller : Caller) (iter : UInt32) (rows : List (Row cfg))
  | eval (caller : Caller) (iter : UInt32) (i : Row cfg) (rest : List (Row cfg))
  | clear (caller : Caller) (iter : UInt32)
  | publish (caller : Caller) (iter : UInt32)
  | doneTest
  | clockCurrent
  | waitTest
  | asleep (interrupted : Bool)
  | retTest
  | errnoTest
  | wakeDoneTest
  | reset
  | afterWait
  | loopTest
  | teardown
  | close
  | exited
  | died (message : String)
  | fault
  deriving DecidableEq

def Pc.Ended {cfg : Config Comp} : Pc cfg → Prop
  | .exited | .died _ | .fault => True
  | _ => False

instance {cfg : Config Comp} (pc : Pc cfg) : Decidable pc.Ended := by
  cases pc <;> unfold Pc.Ended <;> infer_instance

/-- A signal handled during the sleep makes `nanosleep` return early. -/
def Pc.interrupt {cfg : Config Comp} : Pc cfg → Pc cfg
  | .asleep _ => .asleep true
  | pc => pc

structure State (cfg : Config Comp) (σ : Type*) extends Globals where
  iter : UInt32
  ret : Int
  start : Timespec
  wait : Timespec
  statuses : Statuses cfg
  components : Comp → σ
  published : List (List Byte)
  pc : Pc cfg

/-- What the outside decides about one step of `main`. -/
structure Env (cfg : Config Comp) (σ : Type*) where
  fails : Bool
  errno : Int
  now : Timespec
  rem : Timespec
  res : Option Text
  component : σ
  stack : Buffer cfg.maxlen

inductive Label (cfg : Config Comp) (σ : Type*) where
  | main (env : Env cfg σ)
  | signal (signo : Int)
  | outside (components : Comp → σ)

variable {cfg : Config Comp}

/-- The wait handed to `nanosleep`. -/
def waitFor (cfg : Config Comp) (start current : Timespec) : Timespec :=
  let diff := difftimespec current start
  let intspec : Timespec := ⟨(cfg.interval / 1000).toNat, (cfg.interval % 1000).toNat * 1000000⟩
  difftimespec intspec diff

def returnTo : Caller → Pc cfg
  | .timer => .doneTest
  | .wakeup => .reset

variable [DecidableEq Comp]

def mainStep (options : Options) (s : State cfg σ) (env : Env cfg σ) : Option (State cfg σ) :=
  match s.pc with
  | .setup => some { s with errno := env.errno, pc := .tick }
  | .tick => some { s with errno := env.errno, pc := .clockStart }
  | .clockStart =>
      if env.fails then some { s with pc := .died "clock_gettime:" }
      else some { s with start := env.now, pc := .call }
  | .call => some { s with iter := s.iter + 1, pc := .test .timer s.iter cfg.rows }
  | .test caller iter [] => some { s with pc := .clear caller iter }
  | .test caller iter (i :: rest) =>
      if selected iter s.upsigno (cfg.arg i) then some { s with pc := .eval caller iter i rest }
      else some { s with pc := .test caller iter rest }
  | .eval caller iter i rest =>
      let (statuses, ret) := evaluate cfg s.statuses i env.res
      some { s with
        errno := env.errno
        components := Function.update s.components (cfg.arg i).func env.component
        statuses := statuses
        pc := if ret < 0 then .clear caller iter else .test caller iter rest }
  | .clear caller iter => some { s with upsigno := 0, pc := .publish caller iter }
  | .publish caller iter =>
      match buildLine cfg env.stack s.statuses with
      | none => some { s with pc := .fault }
      | some line =>
          if options.Sflag ∨ iter ≠ 0 then
            if env.fails then
              some { s with pc := .died (if options.sflag then "puts:" else "XStoreName: Allocation failed") }
            else some { s with errno := env.errno, published := line :: s.published, pc := returnTo caller }
          else some { s with pc := returnTo caller }
  | .doneTest => some { s with pc := if s.done then .loopTest else .clockCurrent }
  | .clockCurrent =>
      if env.fails then some { s with pc := .died "clock_gettime:" }
      else some { s with wait := waitFor cfg s.start env.now, pc := .waitTest }
  | .waitTest => some { s with pc := if s.wait.tvSec ≥ 0 then .asleep false else .afterWait }
  | .asleep false => some { s with ret := 0, pc := .retTest }
  | .asleep true =>
      -- the wrapper stores the time that remains and sets errno after the handlers have run
      if env.rem.tvSec ≥ 0 then some { s with wait := env.rem, ret := -1, errno := EINTR, pc := .retTest }
      else none
  | .retTest => some { s with pc := if s.ret < 0 then .errnoTest else .afterWait }
  | .errnoTest => some { s with pc := if s.errno = EINTR then .wakeDoneTest else .afterWait }
  | .wakeDoneTest => some { s with pc := if s.done then .afterWait else .test .wakeup 0 cfg.rows }
  | .reset => some { s with upsigno := 0, errno := 0, pc := .waitTest }
  | .afterWait => some { s with pc := if s.ret < 0 ∧ s.errno ≠ EINTR then .died "nanosleep:" else .loopTest }
  | .loopTest => some { s with pc := if s.done then .teardown else .tick }
  | .teardown => some { s with pc := .close }
  | .close =>
      if options.sflag = false ∧ env.fails then
        some { s with pc := .died "XCloseDisplay: Failed to close display" }
      else some { s with pc := .exited }
  | .exited | .died _ | .fault => none

def step (options : Options) (s : State cfg σ) : Label cfg σ → Option (State cfg σ)
  | .main env => mainStep options s env
  | .signal signo =>
      if Installed signo ∧ ¬s.pc.Ended then
        some { s with toGlobals := sighandler signo s.toGlobals, pc := s.pc.interrupt }
      else none
  | .outside components => if s.pc.Ended then none else some { s with components := components }

/-- The state in which `setup` is called, the display opened if it is needed. -/
def initial (cfg : Config Comp) (options : Options) (components : Comp → σ) : State cfg σ :=
  { upsigno := 0, errno := 0, done := options.done, iter := 0, ret := 0, start := ⟨0, 0⟩, wait := ⟨0, 0⟩,
    statuses := fun _ => Buffer.zeroed cfg.cmdlen, components := components, published := [], pc := .setup }

/-- A step of `main` in which the call succeeds or the component answers nothing. -/
def quiet (cfg : Config Comp) : Label cfg Unit := .main
  { fails := false, errno := 0, now := ⟨0, 0⟩, rem := ⟨0, 0⟩, res := none, component := (),
    stack := Buffer.zeroed _ }

def quietly (cfg : Config Comp) (steps : Nat) : List (Label cfg Unit) := List.replicate steps (quiet cfg)

/-- The options after `-s`. -/
def toStdout : Options := ⟨true, false, false⟩

end

end SlStatus.MainLoop
