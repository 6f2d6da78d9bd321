import Mathlib.Data.List.Perm.Basic
import Mathlib.Logic.Function.Basic
import SlStatus.Display
import SlStatus.Scanf

/-! `components/swap.c` on Linux. A line is counted for a field as soon as it begins with the
name, whatever comes next and whether `sscanf` finds a number there; success is what is left when
the count or the file is at its end. -/

namespace SlStatus.Swap
open CString Display Scanf

inductive Field where
  | swapTotal | swapFree | swapCached
  deriving DecidableEq

/-- `"SwapTotal"`, `"SwapFree"` and `"SwapCached"`. -/
def Field.name : Field → List Byte
  | .swapTotal => [0x53, 0x77, 0x61, 0x70, 0x54, 0x6F, 0x74, 0x61, 0x6C]
  | .swapFree => [0x53, 0x77, 0x61, 0x70, 0x46, 0x72, 0x65, 0x65]
  | .swapCached => [0x53, 0x77, 0x61, 0x70, 0x43, 0x61, 0x63, 0x68, 0x65, 0x64]

/-- The entries of `ent`, in their order. -/
def ent : List Field := [.swapTotal, .swapFree, .swapCached]

/-- The fields for which the caller passes a pointer. -/
abbrev Request := Field → Bool

/-- A number that `sscanf` has stored. The line it was scanned from is kept beside it for the
sake of the proofs; no function reads it. -/
structure Number where
  value : Int
  line : List Byte
  deriving DecidableEq

/-- The variables of the caller; nothing in one that was never assigned. -/
abbrev Vars := Field → Option Number

/-- An open file: its bytes up to where it ends, or up to where a read fails. -/
structure File where
  content : List Byte
  failing : Bool

/-- The lines that `getline` returns, each with its newline; the last may have none. -/
def lines : List Byte → List (List Byte)
  | [] => []
  | byte :: bytes =>
      if byte = 0x0A then [byte] :: lines bytes
      else
        match lines bytes with
        | [] => [[byte]]
        | line :: rest => (byte :: line) :: rest

def whole (line : List Byte) : Bool := line.getLast? = some 0x0A

/-- The string at `line + len + 1`. In a line that is a name and nothing else it begins behind
the terminator, where the buffer holds what earlier lines have left. -/
def argument (behind : List Byte) (field : Field) (line : List Byte) : List Byte :=
  ((line ++ 0 :: behind).drop (field.name.length + 1)).takeWhile fun byte => byte ≠ 0

/-- `sscanf` with `"%ld kB\n"`, whose result is not looked at. -/
def sscanf (behind : List Byte) (field : Field) (line : List Byte) (vars : Vars) : Vars :=
  match ld (argument behind field line) with
  | .value value => Function.update vars field (some ⟨value, line⟩)
  | _ => vars

/-- The entry at which the `for` loop breaks. -/
def entryOf (requested : Request) (line : List Byte) : Option Field :=
  ent.find? fun field => requested field && field.name.isPrefixOf line

/-- The `while` loop, and what `ferror` returns behind it. -/
def readLines (requested : Request) (behind : List Byte) (failing : Bool) :
    List (List Byte) → Nat → Bool → Vars → Bool × Vars
  | _, 0, error, vars => (error, vars)
  | [], _ + 1, error, vars => (error || failing, vars)
  | line :: rest, left + 1, error, vars =>
      -- a line without a newline is one at which the reading has come to its end
      let error := error || (failing && !whole line)
      match entryOf requested line with
      | none => readLines requested behind failing rest (left + 1) error vars
      | some field => readLines requested behind failing rest left error (sscanf behind field line vars)

/-- There is no file where it cannot be opened. -/
def getSwapInfo (requested : Request) (behind : List Byte) : Option File → Int × Vars
  | none => (1, fun _ => none)
  | some fp =>
      let left := ent.countP requested
      let (error, vars) := readLines requested behind fp.failing (lines fp.content) left false fun _ => none
      if error then (1, vars) else (0, vars)

section Callers
variable (fmtHuman : UInt64 → Option Text) (behind : List Byte) (file : Option File)

def only (field : Field) : Request := fun other => other = field

def all : Request := fun _ => true

def Vars.value (vars : Vars) (field : Field) : Option Int := (vars field).map Number.value

/-- The result of `swap_free`; none where it uses a variable that was never assigned. The other
callers likewise. -/
def swapFree : Option (Option Text) :=
  let (failed, vars) := getSwapInfo (only .swapFree) behind file
  if failed ≠ 0 then some none
  else do
    let free ← vars.value .swapFree
    return fmtHuman (UInt64.ofInt (free * 1024))

def swapPerc : Option (Option Text) :=
  let (failed, vars) := getSwapInfo all behind file
  if failed ≠ 0 then some none
  else do
    let total ← vars.value .swapTotal
    if total = 0 then return none
    let free ← vars.value .swapFree
    let cached ← vars.value .swapCached
    -- the products wrap in a `long`, and `%d` takes the low half of it
    return bprintf (decimal (((100 * (total - free - cached)).bmod (2 ^ 64)).tdiv total |>.bmod (2 ^ 32)))

def swapTotal : Option (Option Text) :=
  let (failed, vars) := getSwapInfo (only .swapTotal) behind file
  if failed ≠ 0 then some none
  else do
    let total ← vars.value .swapTotal
    return fmtHuman (UInt64.ofInt (total * 1024))

def swapUsed : Option (Option Text) :=
  let (failed, vars) := getSwapInfo all behind file
  if failed ≠ 0 then some none
  else do
    let total ← vars.value .swapTotal
    let free ← vars.value .swapFree
    let cached ← vars.value .swapCached
    return fmtHuman (UInt64.ofInt ((total - free - cached) * 1024))

end Callers

section Lines

theorem whole_of_mem_dropLast (content : List Byte) : ∀ line ∈ (lines content).dropLast, whole line := by
  induction content with
  | nil => simp [lines]
  | cons byte content ih =>
    unfold lines
    by_cases newline : byte = 0x0A
    · rw [if_pos newline]
      intro line member
      cases rest : lines content with
      | nil => simp [rest] at member
      | cons next rest' =>
        rw [rest, List.dropLast_cons_cons, List.mem_cons] at member
        rcases member with rfl | member
        · simp [whole, newline]
        · exact ih line (rest ▸ member)
    · rw [if_neg newline]
      cases rest : lines content with
      | nil => simp
      | cons next rest' =>
        intro line member
        cases rest' with
        | nil => simp at member
        | cons third rest' =>
          rw [rest] at ih
          simp only [List.dropLast_cons_cons, List.mem_cons] at ih member
          rcases member with rfl | member
          · have ended := ih next (.inl rfl)
            cases next with
            | nil => simp [whole] at ended
            | cons first next => simpa [whole] using ended
          · exact ih line (.inr member)

variable (requested : Request) (behind : List Byte)

/-- The lines that are counted, each with the field for which it is. -/
def hits (lines : List (List Byte)) : List (Field × List Byte) :=
  lines.filterMap fun line => (entryOf requested line).map fun field => (field, line)

theorem hits_cons (line : List Byte) (lines : List (List Byte)) :
    hits requested (line :: lines) =
      ((entryOf requested line).map fun field => (field, line)).toList ++ hits requested lines := by
  unfold hits
  rw [List.filterMap_cons]
  cases entryOf requested line <;> rfl

/-- The assignments that lines which are counted come to. -/
def assign (counted : List (Field × List Byte)) (vars : Vars) : Vars :=
  counted.foldl (fun vars hit => sscanf behind hit.1 hit.2 vars) vars

theorem readLines_vars (failing : Bool) (lines : List (List Byte)) (left : Nat) (error : Bool) (vars : Vars) :
    (readLines requested behind failing lines left error vars).2 =
      assign behind ((hits requested lines).take left) vars := by
  induction lines generalizing left error vars with
  | nil => cases left <;> rfl
  | cons line lines ih =>
    cases left with
    | zero => rfl
    | succ left =>
      unfold readLines
      rw [hits_cons]
      cases entryOf requested line with
      | none => exact ih _ _ _
      | some field => exact ih _ _ _

/-- The reading meets its failure if the lines before it are not enough. -/
theorem readLines_error (failing : Bool) {lines : List (List Byte)} (ended : ∀ line ∈ lines.dropLast, whole line)
    (left : Nat) (error : Bool) (vars : Vars) :
    (readLines requested behind failing lines left error vars).1 =
      (error || (failing && decide ((hits requested (lines.filter whole)).length < left))) := by
  induction lines generalizing left error vars with
  | nil => cases left <;> simp [readLines, hits]
  | cons line lines ih =>
    cases left with
    | zero => simp [readLines]
    | succ left =>
      unfold readLines
      by_cases complete : whole line
      · have tail : ∀ line ∈ lines.dropLast, whole line := by
          intro other member
          apply ended
          cases lines with
          | nil => simp at member
          | cons next lines => exact List.mem_cons_of_mem _ member
        have unbroken : (error || (failing && !whole line)) = error := by simp [complete]
        rw [List.filter_cons_of_pos complete, hits_cons, unbroken]
        cases entryOf requested line with
        | none => exact ih tail _ _ _
        | some field =>
          rw [ih tail]
          simp only [Option.map_some, Option.toList_some, List.singleton_append, List.length_cons,
            Nat.add_lt_add_iff_right]
      · cases lines with
        | nil =>
          rw [List.filter_cons_of_neg complete]
          cases entryOf requested line <;> cases left <;> simp [readLines, hits, complete]
        | cons next lines => exact absurd (ended line (List.mem_cons_self ..)) complete

end Lines

section Assignments

variable {behind : List Byte} {vars : Vars} {field : Field} {line : List Byte}

theorem sscanf_cases (behind : List Byte) (field : Field) (line : List Byte) (vars : Vars) :
    sscanf behind field line vars = vars ∨
      ∃ value, sscanf behind field line vars = Function.update vars field (some ⟨value, line⟩) := by
  unfold sscanf
  cases ld (argument behind field line) with
  | value value => exact .inr ⟨value, rfl⟩
  | eof => exact .inl rfl
  | mismatch => exact .inl rfl

theorem sscanf_other {other : Field} (different : other ≠ field) (vars : Vars) :
    sscanf behind field line vars other = vars other := by
  rcases sscanf_cases behind field line vars with same | ⟨value, stored⟩
  · rw [same]
  · rw [stored, Function.update_of_ne different]

theorem sscanf_value {value : Int} (scanned : ld (argument behind field line) = .value value) (vars : Vars) :
    sscanf behind field line vars field = some ⟨value, line⟩ := by
  simp only [sscanf, scanned, Function.update_self]

/-- What a variable holds after a scan comes from that line, or was there before. -/
theorem sscanf_some {number : Number} (held : sscanf behind field line vars field = some number) :
    number.line = line ∨ vars field = some number := by
  rcases sscanf_cases behind field line vars with same | ⟨value, stored⟩
  · exact .inr (same ▸ held)
  · rw [stored, Function.update_self] at held
    cases held
    exact .inl rfl

theorem assign_other {counted : List (Field × List Byte)} (absent : field ∉ counted.map Prod.fst) (vars : Vars) :
    assign behind counted vars field = vars field := by
  induction counted generalizing vars with
  | nil => rfl
  | cons hit counted ih =>
    rw [List.map_cons, List.mem_cons, not_or] at absent
    change assign behind counted (sscanf behind hit.1 hit.2 vars) field = _
    rw [ih absent.2, sscanf_other absent.1]

theorem assign_some {counted : List (Field × List Byte)} {number : Number}
    (held : assign behind counted vars field = some number) :
    (field, number.line) ∈ counted ∨ vars field = some number := by
  induction counted generalizing vars with
  | nil => exact .inr held
  | cons hit counted ih =>
    rcases ih held with member | before
    · exact .inl (List.mem_cons_of_mem _ member)
    · by_cases here : field = hit.1
      · subst here
        rcases sscanf_some before with same | before
        · exact .inl (same ▸ List.mem_cons_self ..)
        · exact .inr before
      · exact .inr (sscanf_other here vars ▸ before)

/-- If each field is counted once at most, no later line takes the number away. -/
theorem assign_value {counted : List (Field × List Byte)} {value : Int} (once : (counted.map Prod.fst).Nodup)
    (member : (field, line) ∈ counted) (scanned : ld (argument behind field line) = .value value) (vars : Vars) :
    assign behind counted vars field = some ⟨value, line⟩ := by
  induction counted generalizing vars with
  | nil => cases member
  | cons hit counted ih =>
    rw [List.map_cons, List.nodup_cons] at once
    change assign behind counted (sscanf behind hit.1 hit.2 vars) field = _
    rcases List.mem_cons.mp member with rfl | member
    · rw [assign_other once.1, sscanf_value scanned]
    · exact ih once.2 member _

end Assignments

section Reports

/-- The line carries exactly the name of the field, and the number stands behind the colon. -/
def Carries (field : Field) (number : Number) : Prop :=
  ∃ rest, number.line = field.name ++ 0x3A :: rest ∧
    ld (rest.takeWhile fun byte => byte ≠ 0) = .value number.value

theorem Carries.scanned {field : Field} {number : Number} (carries : Carries field number) (behind : List Byte) :
    ld (argument behind field number.line) = .value number.value := by
  obtain ⟨rest, line, value⟩ := carries
  have skipped : (number.line ++ 0 :: behind).drop (field.name.length + 1) = rest ++ 0 :: behind := by
    rw [line, List.append_assoc, List.cons_append, List.append_cons]
    exact List.drop_left' (by simp)
  have ended : (rest ++ 0 :: behind).takeWhile (fun byte => byte ≠ 0) = rest.takeWhile fun byte => byte ≠ 0 := by
    rw [List.takeWhile_append]
    split_ifs with all
    · rw [(List.takeWhile_prefix _).eq_of_length all]
      simp
    · rfl
  rw [argument, skipped, ended, value]

variable (requested : Request) (behind : List Byte)

/-- Success means that each field requested has a number from a line of the file which carries
exactly its name. -/
def Reports (file : Option File) : Prop :=
  (getSwapInfo requested behind file).1 = 0 →
    ∀ field, requested field → ∃ number fp, file = some fp ∧ number.line ∈ lines fp.content ∧
      Carries field number ∧ (getSwapInfo requested behind file).2 field = some number

/-- The lines after which the loop ends: of those that begin with a name that is requested, as
many as there are such names. -/
def counted (fp : File) : List (Field × List Byte) := (hits requested (lines fp.content)).take (ent.countP requested)

/-- A read fails before that many lines have been read to their end. -/
def Broken (fp : File) : Prop :=
  fp.failing ∧ (hits requested ((lines fp.content).filter whole)).length < ent.countP requested

/-- Each field requested has one of these lines, which carries exactly its name and a number. -/
def Complete (fp : File) : Prop :=
  ∀ field, requested field → ∃ number, (field, number.line) ∈ counted requested fp ∧ Carries field number

variable {requested behind}

theorem getSwapInfo_some (fp : File) :
    ((getSwapInfo requested behind (some fp)).1 = 0 ↔ ¬Broken requested fp) ∧
      (getSwapInfo requested behind (some fp)).2 = assign behind (counted requested fp) fun _ => none := by
  have error := readLines_error requested behind fp.failing (whole_of_mem_dropLast fp.content) (ent.countP requested)
    false fun _ => none
  have vars := readLines_vars requested behind fp.failing (lines fp.content) (ent.countP requested) false fun _ => none
  have flag : (readLines requested behind fp.failing (lines fp.content) (ent.countP requested) false fun _ => none).1 ↔
      Broken requested fp := by
    rw [error, Bool.false_or, Bool.and_eq_true, decide_eq_true_iff]
    rfl
  dsimp only [getSwapInfo]
  rw [counted, ← vars]
  split_ifs with broken
  · exact ⟨iff_of_false Int.one_ne_zero (not_not.mpr (flag.mp broken)), rfl⟩
  · exact ⟨iff_of_true rfl (mt flag.mpr broken), rfl⟩

/-- As many lines are counted as there are fields requested, at most; so if each of these has a
line, it has one only. -/
theorem counted_once {fp : File} (complete : Complete requested fp) :
    ((counted requested fp).map Prod.fst).Nodup := by
  have distinct : (ent.filter requested).Nodup := (by decide : ent.Nodup).filter _
  have covered : ent.filter requested ⊆ (counted requested fp).map Prod.fst := by
    intro field member
    obtain ⟨number, member, _⟩ := complete field (List.mem_filter.mp member).2
    exact List.mem_map_of_mem member
  have few : ((counted requested fp).map Prod.fst).length ≤ (ent.filter requested).length := by
    rw [List.length_map, counted, List.length_take, ← List.countP_eq_length_filter]
    exact Nat.min_le_left _ _
  exact ((List.subperm_of_subset distinct covered).perm_of_length_le few).nodup_iff.mp distinct

theorem mem_lines_of_counted {fp : File} {field : Field} {line : List Byte}
    (member : (field, line) ∈ counted requested fp) : line ∈ lines fp.content := by
  obtain ⟨other, inside, same⟩ := List.mem_filterMap.mp (List.mem_of_mem_take member)
  obtain ⟨_, _, same⟩ := Option.map_eq_some_iff.mp same
  cases same
  exact inside

theorem reports_of_complete {fp : File} (complete : Complete requested fp) : Reports requested behind (some fp) := by
  intro success field wanted
  obtain ⟨number, member, carries⟩ := complete field wanted
  refine ⟨number, fp, rfl, mem_lines_of_counted member, carries, ?_⟩
  rw [(getSwapInfo_some fp).2]
  exact assign_value (counted_once complete) member (carries.scanned behind) _

theorem complete_of_reports {fp : File} (reports : Reports requested behind (some fp))
    (unbroken : ¬Broken requested fp) : Complete requested fp := by
  intro field wanted
  obtain ⟨number, _, _, _, carries, held⟩ := reports ((getSwapInfo_some fp).1.mpr unbroken) field wanted
  rw [(getSwapInfo_some fp).2] at held
  rcases assign_some held with member | before
  · exact ⟨number, member, carries⟩
  · cases before

/-- If the file is opened, a read fails before enough lines are found, or all that is asked for
stands in the lines that are counted. -/
def Sound (requested : Request) (file : Option File) : Prop :=
  ∀ fp, file = some fp → Broken requested fp ∨ Complete requested fp

theorem reports_iff (requested : Request) (behind : List Byte) (file : Option File) :
    Reports requested behind file ↔ Sound requested file := by
  cases file with
  | none =>
    apply iff_of_true
    · intro success
      cases success
    · intro fp opened
      cases opened
  | some fp =>
    constructor
    · intro reports _ opened
      cases opened
      by_cases broken : Broken requested fp
      · exact .inl broken
      · exact .inr (complete_of_reports reports broken)
    · intro sound success
      rcases sound fp rfl with broken | complete
      · exact absurd broken ((getSwapInfo_some fp).1.mp success)
      · exact reports_of_complete complete success

variable {file : Option File}

theorem Reports.value {field : Field} (reports : Reports requested behind file) (wanted : requested field)
    (success : (getSwapInfo requested behind file).1 = 0) :
    ∃ value, (getSwapInfo requested behind file).2.value field = some value := by
  obtain ⟨number, _, _, _, _, held⟩ := reports success field wanted
  exact ⟨number.value, by rw [Vars.value, held, Option.map_some]⟩

theorem Reports.values (reports : Reports all behind file) (success : (getSwapInfo all behind file).1 = 0) :
    ∃ values : Field → Int, ∀ field, (getSwapInfo all behind file).2.value field = some (values field) :=
  Classical.skolem.mp fun _ => reports.value rfl success

theorem swapFree_defined (fmtHuman : UInt64 → Option Text) (reports : Reports (only .swapFree) behind file) :
    swapFree fmtHuman behind file ≠ none := by
  unfold swapFree
  dsimp only
  split_ifs with failed
  · exact Option.some_ne_none _
  · obtain ⟨free, read⟩ := reports.value (by decide : only .swapFree .swapFree) (not_not.mp failed)
    rw [read]
    exact Option.some_ne_none _

theorem swapTotal_defined (fmtHuman : UInt64 → Option Text) (reports : Reports (only .swapTotal) behind file) :
    swapTotal fmtHuman behind file ≠ none := by
  unfold swapTotal
  dsimp only
  split_ifs with failed
  · exact Option.some_ne_none _
  · obtain ⟨total, read⟩ := reports.value (by decide : only .swapTotal .swapTotal) (not_not.mp failed)
    rw [read]
    exact Option.some_ne_none _

theorem swapUsed_defined (fmtHuman : UInt64 → Option Text) (reports : Reports all behind file) :
    swapUsed fmtHuman behind file ≠ none := by
  unfold swapUsed
  dsimp only
  split_ifs with failed
  · exact Option.some_ne_none _
  · obtain ⟨values, read⟩ := reports.values (not_not.mp failed)
    rw [read, read, read]
    exact Option.some_ne_none _

theorem swapPerc_defined (reports : Reports all behind file) : swapPerc behind file ≠ none := by
  unfold swapPerc
  dsimp only
  split_ifs with failed
  · exact Option.some_ne_none _
  · obtain ⟨values, read⟩ := reports.values (not_not.mp failed)
    rw [read, read, read, Option.bind_eq_bind, Option.bind_some]
    split_ifs with zero
    · exact Option.some_ne_none _
    · exact Option.some_ne_none _

/-- For every file and every set of fields: success is reported only for numbers from lines of
exactly these names, if and only if the file is sound for these fields; and then no caller uses a
variable that was not assigned. -/
theorem swap_reported_iff (behind : List Byte) (file : Option File) :
    (∀ requested, Reports requested behind file ↔ Sound requested file) ∧
      ∀ fmtHuman, (Sound (only .swapFree) file → swapFree fmtHuman behind file ≠ none) ∧
        (Sound all file → swapPerc behind file ≠ none) ∧
        (Sound (only .swapTotal) file → swapTotal fmtHuman behind file ≠ none) ∧
        (Sound all file → swapUsed fmtHuman behind file ≠ none) := by
  constructor
  · intro requested
    exact reports_iff requested behind file
  · intro fmtHuman
    refine ⟨?_, ?_, ?_, ?_⟩
    · intro sound
      exact swapFree_defined fmtHuman ((reports_iff _ behind file).mpr sound)
    · intro sound
      exact swapPerc_defined ((reports_iff _ behind file).mpr sound)
    · intro sound
      exact swapTotal_defined fmtHuman ((reports_iff _ behind file).mpr sound)
    · intro sound
      exact swapUsed_defined fmtHuman ((reports_iff _ behind file).mpr sound)

/-- `" 8 kB\n"` behind a name and a colon. -/
def totalLine : List Byte := Field.swapTotal.name ++ [0x3A, 0x20, 0x38, 0x20, 0x6B, 0x42, 0x0A]

/-- `"SwapFreeX 7\n"`. -/
def otherLine : List Byte := Field.swapFree.name ++ [0x58, 0x20, 0x37, 0x0A]

/-- `":6\n"` and `":0\n"` behind the other two names. -/
def freeLine : List Byte := Field.swapFree.name ++ [0x3A, 0x36, 0x0A]

def cachedLine : List Byte := Field.swapCached.name ++ [0x3A, 0x30, 0x0A]

/-- All three lines, in an order of their own. -/
theorem swap_reported_three :
    Reports all [] (some ⟨cachedLine ++ totalLine ++ freeLine, false⟩) ∧
      swapPerc [] (some ⟨cachedLine ++ totalLine ++ freeLine, false⟩) ≠ none := by
  have sound : Sound all (some ⟨cachedLine ++ totalLine ++ freeLine, false⟩) := by
    intro fp opened
    cases opened
    right
    intro field _
    cases field with
    | swapTotal => exact ⟨⟨8, totalLine⟩, by decide, _, rfl, by decide⟩
    | swapFree => exact ⟨⟨6, freeLine⟩, by decide, _, rfl, by decide⟩
    | swapCached => exact ⟨⟨0, cachedLine⟩, by decide, _, rfl, by decide⟩
  obtain ⟨reported, callers⟩ := swap_reported_iff [] (some ⟨cachedLine ++ totalLine ++ freeLine, false⟩)
  exact ⟨(reported all).mpr sound, (callers fun _ => none).2.1 sound⟩

theorem not_reports_of_unassigned {field : Field} (wanted : requested field)
    (success : (getSwapInfo requested behind file).1 = 0)
    (unassigned : (getSwapInfo requested behind file).2 field = none) : ¬Reports requested behind file := by
  intro reports
  obtain ⟨number, _, _, _, _, held⟩ := reports success field wanted
  cases unassigned.symm.trans held

/-- Success with the variable of a line that is missing, with one from a line of another name, and
with the variable of a line that comes after another has been counted twice. -/
theorem unread_reported :
    ¬Reports (only .swapFree) [] (some ⟨totalLine, false⟩) ∧
      (∀ fmtHuman, swapFree fmtHuman [] (some ⟨totalLine, false⟩) = none) ∧
      ¬Reports (only .swapFree) [] (some ⟨otherLine, false⟩) ∧
      ¬Reports all [] (some ⟨totalLine ++ totalLine ++ otherLine, false⟩) ∧
      swapPerc [] (some ⟨totalLine ++ totalLine ++ otherLine, false⟩) = none := by
  refine ⟨?_, ?_, ?_, ?_, ?_⟩
  · exact not_reports_of_unassigned (by decide : only .swapFree .swapFree) (by decide) (by decide)
  · intro fmtHuman
    rfl
  · intro reports
    obtain ⟨number, _, _, _, ⟨rest, line, _⟩, held⟩ := reports (by decide) .swapFree (by decide)
    have scanned : (getSwapInfo (only .swapFree) [] (some ⟨otherLine, false⟩)).2 .swapFree = some ⟨7, otherLine⟩ := by
      decide
    rw [scanned, Option.some.injEq] at held
    rw [← held] at line
    cases line
  · exact not_reports_of_unassigned (rfl : all .swapCached) (by decide) (by decide)
  · decide

end Reports

end SlStatus.Swap
