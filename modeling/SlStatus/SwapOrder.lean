import Mathlib.Data.List.TakeWhile
import SlStatus.Swap

/-! `get_swap_info` on a file that has one line for each of the three names. The order of the lines
and whatever stands between them make no difference, and nothing is read behind the last line
that was asked for. -/

namespace SlStatus.SwapOrder
open CString Scanf Swap

/-- `" kB"`. -/
def kB : List Byte := [0x20, 0x6B, 0x42]

/-- The line of a field with a number of any number of digits. Only the last line of the file may
lack its newline. -/
def Entry (field : Field) (value : Nat) (line : List Byte) : Prop :=
  ∃ spaces digits newline, line = field.name ++ 0x3A :: (spaces ++ (digits ++ (kB ++ newline))) ∧
    (∀ byte ∈ spaces, byte = 0x20) ∧ digits ≠ [] ∧ (∀ digit ∈ digits, isDigit digit = true) ∧
    digitsValue digits = value ∧ (newline = [] ∨ newline = [0x0A])

/-- One line begins with each of the names, and it is the line of that field with its number. -/
def WellFormed (content : List Byte) (values : Field → Nat) : Prop :=
  ∀ field, ∃ line, ((lines content).filter fun line => field.name.isPrefixOf line) = [line] ∧
    Entry field (values field) line

theorem Entry.carries {field : Field} {value : Nat} {line : List Byte} (entry : Entry field value line)
    (small : value < 2 ^ 63) : Carries field ⟨value, line⟩ := by
  obtain ⟨spaces, digits, newline, rfl, blank, some, all, rfl, ending⟩ := entry
  refine ⟨spaces ++ (digits ++ (kB ++ newline)), rfl, ?_⟩
  have visible : ∀ byte ∈ spaces ++ (digits ++ (kB ++ newline)), decide (byte ≠ 0) = true := by
    intro byte member
    rw [decide_eq_true_iff]
    rintro rfl
    simp only [List.mem_append] at member
    rcases member with space | digit | letter | last
    · exact absurd (blank 0 space) (by decide)
    · exact absurd (all 0 digit) (by decide)
    · exact absurd letter (by decide)
    · rcases ending with rfl | rfl
      · cases last
      · exact absurd last (by decide)
  have spaced : ∀ byte ∈ spaces, isSpace byte = true := by
    intro byte member
    rw [blank byte member]
    decide
  have stops : ∀ byte ∈ (kB ++ newline).head?, isDigit byte = false := by
    intro byte first
    cases first
    decide
  rw [List.takeWhile_eq_self_iff.mpr visible, ld, numeral_digits spaced some all stops, Conversion.map,
    Numeral.toLong, if_neg Bool.false_ne_true]
  dsimp only
  rw [Int.min_eq_right (by omega)]

/-- No name begins another. -/
theorem eq_of_prefixes {field other : Field} {line : List Byte} (begins : field.name <+: line)
    (also : other.name <+: line) : field = other := by
  rcases List.prefix_or_prefix_of_prefix begins also with inside | inside
  · revert inside
    cases field <;> cases other <;> decide
  · revert inside
    cases field <;> cases other <;> decide

theorem entryOf_eq_some {requested : Request} {field : Field} {line : List Byte} :
    entryOf requested line = some field ↔ requested field = true ∧ field.name.isPrefixOf line = true := by
  constructor
  · intro found
    have satisfies := List.find?_some found
    rwa [Bool.and_eq_true] at satisfies
  · intro fits
    have listed : field ∈ ent := by cases field <;> decide
    cases found : entryOf requested line with
    | none => exact absurd (List.find?_eq_none.mp found field listed) (by simp [fits.1, fits.2])
    | some other =>
      have satisfies := List.find?_some found
      rw [Bool.and_eq_true] at satisfies
      rw [eq_of_prefixes (List.isPrefixOf_iff_prefix.mp fits.2) (List.isPrefixOf_iff_prefix.mp satisfies.2)]

section Unread

variable (requested : Request) (behind : List Byte) (failing : Bool)

/-- The loop once more, with the lines for which `getline` is not called. -/
def readLinesUpTo : List (List Byte) → Nat → Bool → Vars → List (List Byte) × Bool × Vars
  | lines, 0, error, vars => (lines, error, vars)
  | [], _ + 1, error, vars => ([], error || failing, vars)
  | line :: rest, left + 1, error, vars =>
      let error := error || (failing && !whole line)
      match entryOf requested line with
      | none => readLinesUpTo rest (left + 1) error vars
      | some field => readLinesUpTo rest left error (sscanf behind field line vars)

theorem readLinesUpTo_readLines (lines : List (List Byte)) (left : Nat) (error : Bool) (vars : Vars) :
    (readLinesUpTo requested behind failing lines left error vars).2 =
      readLines requested behind failing lines left error vars := by
  induction lines generalizing left error vars with
  | nil => cases left <;> rfl
  | cons line lines ih =>
    cases left with
    | zero => rfl
    | succ left =>
      unfold readLinesUpTo readLines
      cases entryOf requested line with
      | none => exact ih _ _ _
      | some field => exact ih _ _ _

theorem readLinesUpTo_zero (lines : List (List Byte)) (error : Bool) (vars : Vars) :
    readLinesUpTo requested behind failing lines 0 error vars = (lines, error, vars) := by
  cases lines <;> rfl

/-- The lines that `get_swap_info` leaves unread. -/
def unread (fp : File) : List (List Byte) :=
  (readLinesUpTo requested behind fp.failing (lines fp.content) (ent.countP requested) false fun _ => none).1

/-- If there are lines enough, the last that is read is one that counts. -/
theorem readLinesUpTo_last {lines : List (List Byte)} {left : Nat} (positive : 0 < left)
    (enough : left ≤ (hits requested lines).length) (error : Bool) (vars : Vars) :
    ∃ front last, lines = front ++ last :: (readLinesUpTo requested behind failing lines left error vars).1 ∧
      ∃ field, entryOf requested last = some field := by
  induction lines generalizing left error vars with
  | nil => exact absurd enough (by simpa [hits] using positive.ne')
  | cons line lines ih =>
    obtain ⟨left, rfl⟩ := Nat.exists_eq_succ_of_ne_zero positive.ne'
    unfold readLinesUpTo
    rw [hits_cons] at enough
    cases counts : entryOf requested line with
    | none =>
      rw [counts] at enough
      obtain ⟨front, last, split, found⟩ := ih positive enough (error || (failing && !whole line)) vars
      exact ⟨line :: front, last, by rw [List.cons_append, ← split], found⟩
    | some field =>
      cases left with
      | zero => exact ⟨[], line, by simp only [List.nil_append, readLinesUpTo_zero], field, counts⟩
      | succ left =>
        simp only [counts, Option.map_some, Option.toList_some, List.singleton_append, List.length_cons] at enough
        obtain ⟨front, last, split, found⟩ := ih (Nat.succ_pos left) (Nat.le_of_succ_le_succ enough)
          (error || (failing && !whole line)) (sscanf behind field line vars)
        exact ⟨line :: front, last, by rw [List.cons_append, ← split], found⟩

end Unread

section Order

variable {requested : Request} {content : List Byte} {values : Field → Nat}

theorem fields_of_hits (requested : Request) (lines : List (List Byte)) :
    (hits requested lines).map Prod.fst = lines.filterMap (entryOf requested) := by
  rw [hits, List.map_filterMap]
  congr 1
  funext line
  cases entryOf requested line <;> rfl

/-- The lines that count, in the order of the file, are those of the fields requested. -/
theorem hits_perm (wellFormed : WellFormed content values) :
    ((hits requested (lines content)).map Prod.fst).Perm (ent.filter requested) := by
  rw [fields_of_hits, List.perm_iff_count]
  intro field
  have listed : ent.count field = 1 := by cases field <;> decide
  rw [List.count_eq_countP, List.countP_filterMap]
  by_cases wanted : requested field = true
  · obtain ⟨line, single, -⟩ := wellFormed field
    have begins : ∀ line, ((entryOf requested line).map fun other => other == field).getD false =
        field.name.isPrefixOf line := by
      intro line
      by_cases fits : field.name.isPrefixOf line = true
      · rw [entryOf_eq_some.mpr ⟨wanted, fits⟩, fits, Option.map_some, Option.getD_some, beq_self_eq_true]
      · rw [Bool.eq_false_of_not_eq_true fits]
        cases found : entryOf requested line with
        | none => rfl
        | some other =>
          have different : other ≠ field := by
            rintro rfl
            exact fits (entryOf_eq_some.mp found).2
          simpa using different
    rw [List.count_filter wanted, listed]
    simp only [begins, List.countP_eq_length_filter, single, List.length_singleton]
  · have absent : field ∉ ent.filter requested := fun member => wanted (List.mem_filter.mp member).2
    rw [List.count_eq_zero_of_not_mem absent, List.countP_eq_zero]
    intro line _
    cases found : entryOf requested line with
    | none => simp
    | some other =>
      have different : other ≠ field := by
        rintro rfl
        exact wanted (entryOf_eq_some.mp found).1
      simpa using different

theorem length_hits (wellFormed : WellFormed content values) :
    (hits requested (lines content)).length = ent.countP requested := by
  rw [← List.length_map Prod.fst, (hits_perm wellFormed).length_eq, List.countP_eq_length_filter]

/-- Every line that counts is counted. -/
theorem counted_all (wellFormed : WellFormed content values) (failing : Bool) :
    counted requested ⟨content, failing⟩ = hits requested (lines content) :=
  List.take_of_length_le (length_hits wellFormed).le

theorem complete_of_wellFormed (small : ∀ field, values field < 2 ^ 63) (wellFormed : WellFormed content values)
    (failing : Bool) {field : Field} (wanted : requested field = true) :
    ∃ line, (field, line) ∈ counted requested ⟨content, failing⟩ ∧ Carries field ⟨values field, line⟩ := by
  obtain ⟨line, single, entry⟩ := wellFormed field
  have member : line ∈ (lines content).filter fun line => field.name.isPrefixOf line := by
    rw [single]
    exact List.mem_singleton_self line
  obtain ⟨inside, begins⟩ := List.mem_filter.mp member
  refine ⟨line, ?_, entry.carries (small field)⟩
  rw [counted_all wellFormed]
  exact List.mem_filterMap.mpr ⟨line, inside, by rw [entryOf_eq_some.mpr ⟨wanted, begins⟩, Option.map_some]⟩

/-- Each field requested gets its number, whatever the order of the lines, and the last line that
is read is that of a field requested. The loop that leaves the others is the one of `getSwapInfo`. -/
theorem swap_assigned (behind : List Byte) (small : ∀ field, values field < 2 ^ 63)
    (wellFormed : WellFormed content values) (nonempty : ∃ field, requested field = true) :
    (getSwapInfo requested behind (some ⟨content, false⟩)).1 = 0 ∧
      (∀ field, requested field = true →
        (getSwapInfo requested behind (some ⟨content, false⟩)).2.value field = some (values field : Int)) ∧
      ∃ front last, lines content = front ++ last :: unread requested behind ⟨content, false⟩ ∧
        (∃ field, requested field = true ∧ field.name <+: last) ∧
        (readLinesUpTo requested behind false (lines content) (ent.countP requested) false fun _ => none).2 =
          readLines requested behind false (lines content) (ent.countP requested) false fun _ => none := by
  obtain ⟨success, vars⟩ := @getSwapInfo_some requested behind ⟨content, false⟩
  have complete : Complete requested ⟨content, false⟩ := by
    intro field wanted
    obtain ⟨line, member, carries⟩ := complete_of_wellFormed small wellFormed false wanted
    exact ⟨⟨values field, line⟩, member, carries⟩
  refine ⟨success.mpr fun broken => Bool.false_ne_true broken.1, ?_, ?_⟩
  · intro field wanted
    obtain ⟨line, member, carries⟩ := complete_of_wellFormed small wellFormed false wanted
    rw [vars, Vars.value, assign_value (counted_once complete) member (carries.scanned behind), Option.map_some]
  · have enough : ent.countP requested ≤ (hits requested (lines content)).length := (length_hits wellFormed).ge
    have positive : 0 < ent.countP requested := by
      obtain ⟨field, wanted⟩ := nonempty
      rw [List.countP_pos_iff]
      exact ⟨field, by cases field <;> decide, wanted⟩
    obtain ⟨front, last, split, field, counts⟩ :=
      readLinesUpTo_last requested behind false positive enough false fun _ => none
    obtain ⟨wanted, begins⟩ := entryOf_eq_some.mp counts
    exact ⟨front, last, split, ⟨field, wanted, List.isPrefixOf_iff_prefix.mp begins⟩,
      readLinesUpTo_readLines requested behind false _ _ _ _⟩

end Order

section Example

def entryLine (field : Field) (digit : Byte) : List Byte := field.name ++ 0x3A :: ([0x20] ++ ([digit] ++ (kB ++ [0x0A])))

/-- The line for what is cached comes last, after one of another name. -/
def meminfo : List Byte :=
  entryLine .swapFree 0x35 ++ (entryLine .swapTotal 0x38 ++ ([0x5A, 0x0A] ++ entryLine .swapCached 0x30))

def meminfoValues : Field → Nat
  | .swapTotal => 8
  | .swapFree => 5
  | .swapCached => 0

theorem entry_entryLine (field : Field) {digit : Byte} (digits : isDigit digit = true) :
    Entry field (digitsValue [digit]) (entryLine field digit) :=
  ⟨[0x20], [digit], [0x0A], rfl, List.forall_mem_singleton.mpr rfl, List.cons_ne_nil _ _,
    List.forall_mem_singleton.mpr digits, rfl, .inr rfl⟩

theorem meminfo_wellFormed : WellFormed meminfo meminfoValues := by
  intro field
  cases field with
  | swapTotal => exact ⟨entryLine .swapTotal 0x38, by decide, entry_entryLine .swapTotal rfl⟩
  | swapFree => exact ⟨entryLine .swapFree 0x35, by decide, entry_entryLine .swapFree rfl⟩
  | swapCached => exact ⟨entryLine .swapCached 0x30, by decide, entry_entryLine .swapCached rfl⟩

/-- The total is found on the second line, and the other two are left unread. -/
theorem swap_assigned_total :
    (getSwapInfo (only .swapTotal) [] (some ⟨meminfo, false⟩)).2.value .swapTotal = some 8 ∧
      unread (only .swapTotal) [] ⟨meminfo, false⟩ = [[0x5A, 0x0A], entryLine .swapCached 0x30] := by
  have small : ∀ field, meminfoValues field < 2 ^ 63 := by
    intro field
    cases field <;> decide
  obtain ⟨-, assigned, -⟩ := swap_assigned [] small meminfo_wellFormed ⟨.swapTotal, (rfl : only .swapTotal .swapTotal)⟩
  exact ⟨assigned .swapTotal rfl, by decide⟩

end Example

end SlStatus.SwapOrder
