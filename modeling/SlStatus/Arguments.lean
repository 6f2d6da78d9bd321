import SlStatus.MainLoop

/-! The arguments of the program, as the loops of `arg.h` read them with their two counters, and what they mean. -/

namespace SlStatus.Arguments
open MainLoop

/-- What `main` dies with. -/
inductive Exit where
  | version | usage
  deriving DecidableEq

/-- The `switch` on a letter. -/
def readLetter (options : Options) : Char → Except Exit Options
  | 'v' => .error .version
  | '1' => .ok { options with done := true, sflag := true }
  | 's' => .ok { options with sflag := true }
  | 'S' => .ok { options with Sflag := true }
  | _ => .error .usage

/-- The loop over `(*argv)[i_]`. No letter has a value, so that `argused_` stays 0. -/
def letterLoop : List Char → Options → Except Exit Options
  | [], options => .ok options
  | letter :: letters, options =>
      match readLetter options letter with
      | .error exit => .error exit
      | .ok options => letterLoop letters options

/-- The loop over `argv`, which ends in `NULL`; with what is left of `argc`. -/
def argLoop (argc : Int) : List (List Char) → Options → Except Exit (Int × Options)
  | ('-' :: letter :: letters) :: argv, options =>
      if letter = '-' ∧ letters = [] then .ok (argc - 1, options)
      else
        match letterLoop (letter :: letters) options with
        | .error exit => .error exit
        | .ok options => argLoop (argc - 1) argv options
  | _, options => .ok (argc, options)

def main (argc : Int) (argv : List (List Char)) : Except Exit Options :=
  let read :=
    match argv with
    | [] => argLoop argc [] noOptions
    | _ :: argv => argLoop (argc - 1) argv noOptions
  match read with
  | .error exit => .error exit
  | .ok (argc, options) => if argc ≠ 0 then .error .usage else .ok options

/-- A dash with letters behind it. -/
def isGroup (arg : List Char) : Bool := arg.head? = some '-' ∧ 2 ≤ arg.length ∧ arg ≠ ['-', '-']

/-- The letters before the first argument that is not a group of them. -/
def letters (args : List (List Char)) : List Char := (args.takeWhile isGroup).flatMap List.tail

/-- What is not read, two dashes not counted. -/
def leftOver (args : List (List Char)) : List (List Char) :=
  let rest := args.dropWhile isGroup
  if rest.head? = some ['-', '-'] then rest.tail else rest

def unknown (letter : Char) : Bool := letter ∉ ['1', 's', 'S']

def exitOf (letter : Char) : Exit := if letter = 'v' then .version else .usage

/-- The options, with those that the letters add. -/
def given (options : Options) (letters : List Char) : Options :=
  { sflag := options.sflag || decide ('s' ∈ letters ∨ '1' ∈ letters)
    Sflag := options.Sflag || decide ('S' ∈ letters)
    done := options.done || decide ('1' ∈ letters) }

/-- What the arguments mean: the first unknown letter decides, then whether anything is left over, and in the end
which letters there are. -/
def meaning (args : List (List Char)) : Except Exit Options :=
  match (letters args).find? unknown with
  | some letter => .error (exitOf letter)
  | none => if leftOver args = [] then .ok (given noOptions (letters args)) else .error .usage

theorem readLetter_eq (options : Options) (letter : Char) :
    readLetter options letter =
      if unknown letter then .error (exitOf letter) else .ok (given options [letter]) := by
  unfold readLetter
  split
  · rfl
  · simp [unknown, given]
  · simp [unknown, given]
  · simp [unknown, given]
  · rename_i notV not1 notS notBigS
    have outside : unknown letter = true := by
      simp only [unknown, List.mem_cons, List.not_mem_nil, or_false, not_or, decide_eq_true_eq]
      exact ⟨not1, notS, notBigS⟩
    rw [if_pos outside, exitOf, if_neg notV]

theorem given_cons (options : Options) (letter : Char) (letters : List Char) :
    given (given options [letter]) letters = given options (letter :: letters) := by
  simp only [given, List.mem_cons, List.not_mem_nil, or_false, Options.mk.injEq, Bool.or_assoc, ← Bool.decide_or]
  refine ⟨?_, trivial, trivial⟩
  congr 2
  exact propext (or_or_or_comm ..)

theorem letterLoop_eq (letters : List Char) (options : Options) :
    letterLoop letters options =
      match letters.find? unknown with
      | some letter => .error (exitOf letter)
      | none => .ok (given options letters) := by
  induction letters generalizing options with
  | nil => simp [letterLoop, given]
  | cons letter letters ih =>
    rw [letterLoop, readLetter_eq]
    cases outside : unknown letter with
    | true => simp [outside]
    | false =>
      have rest := ih (given options [letter])
      simp only [given_cons] at rest
      rw [List.find?_cons_of_neg (by simp [outside]), if_neg (by simp)]
      exact rest

/-- An argument is read as a group, or it ends the loop. -/
theorem argLoop_cons (argc : Int) (arg : List Char) (args : List (List Char)) (options : Options) :
    argLoop argc (arg :: args) options =
      if isGroup arg then
        match letterLoop arg.tail options with
        | .error exit => .error exit
        | .ok options => argLoop (argc - 1) args options
      else if arg = ['-', '-'] then .ok (argc - 1, options)
      else .ok (argc, options) := by
  cases arg with
  | nil => rfl
  | cons first rest =>
    cases rest with
    | nil =>
      have single : isGroup [first] = false := by simp [isGroup]
      rw [single, if_neg (by decide), if_neg (by simp)]
      unfold argLoop
      split
      · rename_i same
        cases same
      · rfl
    | cons letter rest =>
      by_cases dash : first = '-'
      · subst first
        by_cases double : letter = '-' ∧ rest = []
        · obtain ⟨rfl, rfl⟩ := double
          rfl
        · have group : isGroup ('-' :: letter :: rest) = true := by simpa [isGroup, -not_and, not_and_or] using double
          rw [argLoop, if_neg double, if_pos group, List.tail_cons]
      · have other : isGroup (first :: letter :: rest) = false := by simp [isGroup, dash]
        have notDouble : first :: letter :: rest ≠ ['-', '-'] := fun same => dash (List.cons.inj same).1
        rw [other, if_neg (by decide), if_neg notDouble]
        unfold argLoop
        split
        · rename_i same
          exact absurd (List.cons.inj (List.cons.inj same).1).1 dash
        · rfl

theorem letters_cons {arg : List Char} (group : isGroup arg = true) (args : List (List Char)) :
    letters (arg :: args) = arg.tail ++ letters args := by
  rw [letters, List.takeWhile_cons_of_pos group, List.flatMap_cons]
  rfl

theorem leftOver_cons {arg : List Char} (group : isGroup arg = true) (args : List (List Char)) :
    leftOver (arg :: args) = leftOver args := by
  rw [leftOver, List.dropWhile_cons_of_pos group]
  rfl

theorem given_append (options : Options) (front back : List Char) :
    given (given options front) back = given options (front ++ back) := by
  induction front generalizing options with
  | nil => simp [given]
  | cons letter front ih => rw [← given_cons, ih, List.cons_append, given_cons]

/-- The counter ends at the number of the arguments that are left over. -/
theorem argLoop_eq (args : List (List Char)) (options : Options) :
    argLoop args.length args options =
      match (letters args).find? unknown with
      | some letter => .error (exitOf letter)
      | none => .ok ((leftOver args).length, given options (letters args)) := by
  induction args generalizing options with
  | nil => simp [argLoop, letters, leftOver, given]
  | cons arg args ih =>
    rw [argLoop_cons]
    cases group : isGroup arg with
    | true =>
      have fewer : ((arg :: args).length : Int) - 1 = args.length := by simp
      rw [if_pos rfl, letterLoop_eq, letters_cons group, leftOver_cons group, List.find?_append, fewer]
      cases bad : arg.tail.find? unknown with
      | some letter => rfl
      | none =>
        rw [Option.none_or, ← given_append]
        exact ih (given options arg.tail)
    | false =>
      have none : letters (arg :: args) = [] := by
        rw [letters, List.takeWhile_cons_of_neg (by simp [group])]
        rfl
      have rest : leftOver (arg :: args) = if arg = ['-', '-'] then args else arg :: args := by
        rw [leftOver, List.dropWhile_cons_of_neg (by simp [group])]
        simp
      rw [none, rest, if_neg (by simp)]
      split_ifs <;> simp [given]

theorem readLetters_cons (letter : Char) (letters : List Char) (options : Options) :
    readLetters (letter :: letters) options =
      if unknown letter then none else readLetters letters (given options [letter]) := by
  conv_lhs => unfold readLetters
  split
  · rename_i same
    cases same
  · rename_i same
    obtain ⟨rfl, rfl⟩ := List.cons.inj same
    simp [unknown, given]
  · rename_i same
    obtain ⟨rfl, rfl⟩ := List.cons.inj same
    simp [unknown, given]
  · rename_i same
    obtain ⟨rfl, rfl⟩ := List.cons.inj same
    simp [unknown, given]
  · rename_i not1 notS notBigS same
    obtain ⟨rfl, rfl⟩ := List.cons.inj same
    have outside : unknown letter = true := by
      simp only [unknown, List.mem_cons, List.not_mem_nil, or_false, not_or, decide_eq_true_eq]
      exact ⟨not1, notS, notBigS⟩
    rw [if_pos outside]

theorem readLetters_eq (letters : List Char) (options : Options) :
    readLetters letters options = (letterLoop letters options).toOption := by
  induction letters generalizing options with
  | nil => rfl
  | cons letter letters ih =>
    rw [readLetters_cons, letterLoop, readLetter_eq, ih]
    cases unknown letter <;> rfl

theorem readArguments_eq (args : List (List Char)) (options : Options) :
    readArguments args options =
      match argLoop args.length args options with
      | .error _ => none
      | .ok (argc, options) => if argc ≠ 0 then none else some options := by
  induction args, options using readArguments.induct with
  | case1 options => rfl
  | case2 options => rfl
  | case3 rest options some =>
    have left : ((['-', '-'] :: rest).length : Int) - 1 ≠ 0 := by simpa using some
    rw [argLoop, if_pos ⟨rfl, rfl⟩, readArguments, if_neg some]
    exact (if_pos left).symm
  | case4 letter letters rest options notDouble failed =>
    have several : ¬(letter = '-' ∧ letters = []) := fun double => notDouble double.1 double.2
    rw [readArguments.eq_3 _ _ _ _ notDouble, failed]
    rw [readLetters_eq] at failed
    rw [argLoop, if_neg several]
    cases read : letterLoop (letter :: letters) options with
    | error exit => rfl
    | ok accepted =>
      rw [read] at failed
      cases failed
  | case5 letter letters rest options notDouble accepted read ih =>
    have several : ¬(letter = '-' ∧ letters = []) := fun double => notDouble double.1 double.2
    have fewer : ((('-' :: letter :: letters) :: rest).length : Int) - 1 = rest.length := by simp
    rw [readArguments.eq_3 _ _ _ _ notDouble, read]
    rw [readLetters_eq] at read
    rw [argLoop, if_neg several, fewer]
    cases loop : letterLoop (letter :: letters) options with
    | error exit =>
      rw [loop] at read
      cases read
    | ok taken =>
      rw [loop] at read
      cases read
      exact ih
  | case6 arg rest options notDouble notGroup =>
    have other : isGroup arg = false := by
      cases arg with
      | nil => rfl
      | cons first arg =>
        cases arg with
        | nil => simp [isGroup]
        | cons letter letters =>
          have notDash : first ≠ '-' := fun dash => notGroup letter letters (by rw [dash])
          simp [isGroup, notDash]
    have positive : ((arg :: rest).length : Int) ≠ 0 := by
      rw [List.length_cons]
      omega
    rw [argLoop_cons, other, if_neg (by decide), if_neg notDouble, readArguments.eq_4 _ _ _ notDouble notGroup]
    exact (if_pos positive).symm

/-- Every argument vector is read as what it means, and the options are those that the machine of the main loop
starts with. -/
theorem arguments_read (argv : List (List Char)) :
    main argv.length argv = meaning argv.tail ∧ readArguments argv.tail noOptions = (main argv.length argv).toOption := by
  have read : main argv.length argv =
      match argLoop argv.tail.length argv.tail noOptions with
      | .error exit => .error exit
      | .ok (argc, options) => if argc ≠ 0 then .error .usage else .ok options := by
    cases argv with
    | nil => rfl
    | cons name argv =>
      have fewer : ((name :: argv).length : Int) - 1 = argv.length := by simp
      rw [main, fewer]
      rfl
  constructor
  · rw [read, argLoop_eq, meaning]
    cases (letters argv.tail).find? unknown with
    | some letter => rfl
    | none =>
      by_cases none : leftOver argv.tail = []
      · simp [none]
      · simp [none]
  · rw [read, readArguments_eq]
    cases argLoop argv.tail.length argv.tail noOptions with
    | error exit => rfl
    | ok left =>
      by_cases none : left.1 = 0
      · simp [none, Except.toOption]
      · simp [none, Except.toOption]

/-- Letters in one group or in several, and what stands behind two dashes. -/
example : main 4 [['x'], ['-', 's', 'S'], ['-', '1'], ['-', '-']] = .ok ⟨true, true, true⟩ := by decide

end SlStatus.Arguments
