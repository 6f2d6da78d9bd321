import SlStatus.CString

/-! `keyboard_indicators` of `components/keyboard_indicators.c`, with its index into `fmt`, against the description
above it: a list of letters, each with or without a question mark. -/

namespace SlStatus.KeyboardIndicators
open CString

inductive Lock where
  | caps | num
  deriving DecidableEq

/-- `led_mask & (1 << (key == 'n'))`. -/
def isset (ledMask : Nat) : Lock → Bool
  | .caps => ledMask.testBit 0
  | .num => ledMask.testBit 1

/-- `tolower`, where its result is one of the two letters. -/
def keyOf (byte : Byte) : Option Lock :=
  if byte = 0x63 ∨ byte = 0x43 then some .caps
  else if byte = 0x6E ∨ byte = 0x4E then some .num
  else none

def lower : Lock → Byte
  | .caps => 0x63
  | .num => 0x6E

def upper : Lock → Byte
  | .caps => 0x43
  | .num => 0x4E

section Function

variable (fmt : List Byte) (ledMask fmtlen : Nat)

/-- The loop from `i` on, `left` passes before its end; `buf` is what has been written. No result where `fmt` is read
behind its terminator. -/
def indicators : Nat → Nat → List Byte → Option (List Byte)
  | 0, _, buf => some buf
  | left + 1, i, buf =>
      match fmt[i]? with
      | none => none
      | some byte =>
          match keyOf byte with
          | none => indicators left (i + 1) buf
          | some key =>
              if i + 1 ≥ fmtlen then
                indicators left (i + 1) (buf ++ [if isset ledMask key then upper key else lower key])
              else
                match fmt[i + 1]? with
                | none => none
                | some next =>
                    if next ≠ 0x3F then
                      indicators left (i + 1) (buf ++ [if isset ledMask key then upper key else lower key])
                    else if isset ledMask key then indicators left (i + 1) (buf ++ [byte])
                    else indicators left (i + 1) buf

end Function

/-- The display could be opened; `fmtlen` is `strnlen(fmt, 4)`. -/
def keyboardIndicators (fmt : Text) (ledMask : Nat) : Option (List Byte) :=
  indicators fmt.bytes ledMask (min fmt.bytes.length 4) (min fmt.bytes.length 4) 0 []

/-- A letter of the format, with its case, and whether it is shown only when the lock is on. -/
structure Indicator where
  lock : Lock
  capital : Bool
  optional : Bool
  deriving DecidableEq

def letter (indicator : Indicator) : Byte :=
  if indicator.capital then upper indicator.lock else lower indicator.lock

/-- How it is written. -/
def written (indicator : Indicator) : List Byte := letter indicator :: if indicator.optional then [0x3F] else []

/-- What the comment says of it. -/
def shown (ledMask : Nat) (indicator : Indicator) : List Byte :=
  if indicator.optional then if isset ledMask indicator.lock then [letter indicator] else []
  else [if isset ledMask indicator.lock then upper indicator.lock else lower indicator.lock]

/-- Other characters are passed over, a question mark after one of them as well. -/
def parse : List Byte → List Indicator
  | [] => []
  | byte :: rest =>
      match keyOf byte with
      | none => parse rest
      | some lock => ⟨lock, byte = upper lock, rest.head? = some 0x3F⟩ :: parse rest

theorem keyOf_letter (indicator : Indicator) : keyOf (letter indicator) = some indicator.lock := by
  obtain ⟨lock, capital, optional⟩ := indicator
  unfold letter
  cases lock <;> cases capital <;> rfl

/-- The case is kept. -/
theorem letter_eq {byte : Byte} {lock : Lock} (key : keyOf byte = some lock) (optional : Bool) :
    letter ⟨lock, byte = upper lock, optional⟩ = byte := by
  unfold keyOf at key
  split_ifs at key with caps num
  · cases key
    rcases caps with rfl | rfl <;> rfl
  · cases key
    rcases num with rfl | rfl <;> rfl

theorem parse_none {byte : Byte} (key : keyOf byte = none) (rest : List Byte) : parse (byte :: rest) = parse rest := by
  rw [parse, key]

theorem parse_some {byte : Byte} {lock : Lock} (key : keyOf byte = some lock) (rest : List Byte) :
    parse (byte :: rest) = ⟨lock, byte = upper lock, rest.head? = some 0x3F⟩ :: parse rest := by
  rw [parse, key]

/-- The loop goes on with what it has not read yet. -/
theorem indicators_eq (fmt : List Byte) (ledMask : Nat) {fmtlen : Nat} (inside : fmtlen ≤ fmt.length) {left i : Nat}
    (reached : i + left = fmtlen) (buf : List Byte) :
    indicators fmt ledMask fmtlen left i buf =
      some (buf ++ (parse ((fmt.take fmtlen).drop i)).flatMap (shown ledMask)) := by
  induction left generalizing i buf with
  | zero =>
    have ended : (fmt.take fmtlen).drop i = [] := by
      rw [List.drop_eq_nil_iff, List.length_take]
      omega
    rw [indicators, ended, parse, List.flatMap_nil, List.append_nil]
  | succ left ih =>
    have here : i < fmt.length := by omega
    have whole : i < (fmt.take fmtlen).length := by
      rw [List.length_take]
      omega
    have rest : (fmt.take fmtlen).drop i = fmt[i] :: (fmt.take fmtlen).drop (i + 1) := by
      rw [List.drop_eq_getElem_cons whole, List.getElem_take]
    have next : ((fmt.take fmtlen).drop (i + 1)).head? = if i + 1 < fmtlen then fmt[i + 1]? else none := by
      rw [List.head?_drop, List.getElem?_take]
    rw [indicators, List.getElem?_eq_getElem here, rest]
    dsimp only
    cases key : keyOf fmt[i] with
    | none =>
      rw [parse_none key]
      exact ih (by omega) buf
    | some lock =>
      rw [parse_some key, List.flatMap_cons]
      dsimp only
      by_cases last : i + 1 ≥ fmtlen
      · rw [if_neg (by omega)] at next
        rw [if_pos last, ih (by omega), next, List.append_assoc]
        rfl
      · have there : i + 1 < fmt.length := by omega
        rw [if_pos (by omega), List.getElem?_eq_getElem there] at next
        rw [if_neg last, List.getElem?_eq_getElem there, next]
        dsimp only
        by_cases question : fmt[i + 1] = 0x3F
        · rw [if_neg (not_not.mpr question), question]
          have shows : shown ledMask ⟨lock, fmt[i] = upper lock, some (0x3F : Byte) = some 0x3F⟩ =
              if isset ledMask lock then [fmt[i]] else [] := by
            simp only [shown, letter_eq key, decide_true, if_true]
          rw [shows]
          split_ifs
          · rw [ih (by omega), List.append_assoc]
          · rw [ih (by omega), List.nil_append]
        · have absent : ¬some fmt[i + 1] = some (0x3F : Byte) := fun same => question (Option.some.inj same)
          rw [if_pos question, ih (by omega), List.append_assoc]
          simp only [shown, absent, decide_false]
          rfl

theorem length_shown (ledMask : Nat) (bytes : List Byte) :
    ((parse bytes).flatMap (shown ledMask)).length ≤ bytes.length := by
  induction bytes with
  | nil => exact Nat.le_refl 0
  | cons byte rest ih =>
    cases key : keyOf byte with
    | none =>
      rw [parse_none key, List.length_cons]
      omega
    | some lock =>
      rw [parse_some key, List.flatMap_cons, List.length_append, List.length_cons]
      have one : (shown ledMask ⟨lock, byte = upper lock, rest.head? = some 0x3F⟩).length ≤ 1 := by
        unfold shown
        split_ifs <;> simp
      omega

theorem capital_eq (indicator : Indicator) : decide (letter indicator = upper indicator.lock) = indicator.capital := by
  obtain ⟨lock, capital, optional⟩ := indicator
  unfold letter
  cases lock <;> cases capital <;> rfl

/-- An indicator is read as it is written, in front of anything but a question mark. -/
theorem parse_written (indicator : Indicator) {rest : List Byte} (apart : rest.head? ≠ some 0x3F) :
    parse (written indicator ++ rest) = indicator :: parse rest := by
  have key := keyOf_letter indicator
  have capital := capital_eq indicator
  obtain ⟨lock, case, optional⟩ := indicator
  cases optional with
  | false =>
    have alone : written ⟨lock, case, false⟩ ++ rest = letter ⟨lock, case, false⟩ :: rest := rfl
    rw [alone, parse_some key, capital, decide_eq_false apart]
  | true =>
    have question : written ⟨lock, case, true⟩ ++ rest = letter ⟨lock, case, true⟩ :: 0x3F :: rest := rfl
    rw [question, parse_some key, capital, List.head?_cons, decide_eq_true rfl, parse_none (by decide)]

theorem parse_flatMap_written (indicators : List Indicator) : parse (indicators.flatMap written) = indicators := by
  induction indicators with
  | nil => rfl
  | cons indicator indicators ih =>
    have apart : (indicators.flatMap written).head? ≠ some 0x3F := by
      cases indicators with
      | nil => nofun
      | cons next indicators =>
        have key := keyOf_letter next
        intro question
        have same : letter next = 0x3F := Option.some.inj question
        rw [same] at key
        exact absurd key nofun
    rw [List.flatMap_cons, parse_written indicator apart, ih]

/-- Of every format the first four characters are shown as the letters they are written with, and a format that is
no longer is shown as the comment says. -/
theorem indicators_shown (fmt : Text) (ledMask : Nat) :
    keyboardIndicators fmt ledMask = some ((parse (fmt.bytes.take 4)).flatMap (shown ledMask)) ∧
    ((parse (fmt.bytes.take 4)).flatMap (shown ledMask)).length ≤ 4 ∧
    ∀ indicators : List Indicator, fmt.bytes = indicators.flatMap written → fmt.bytes.length ≤ 4 →
      keyboardIndicators fmt ledMask = some (indicators.flatMap (shown ledMask)) := by
  have reads : keyboardIndicators fmt ledMask = some ((parse (fmt.bytes.take 4)).flatMap (shown ledMask)) := by
    have fmtlen : fmt.bytes.take (min fmt.bytes.length 4) = fmt.bytes.take 4 := by
      rw [Nat.min_comm, ← List.take_take, List.take_length]
    rw [keyboardIndicators, indicators_eq fmt.bytes ledMask (Nat.min_le_left _ _) (Nat.zero_add _), List.drop_zero,
      List.nil_append, fmtlen]
  refine ⟨reads, ?_, ?_⟩
  · exact Nat.le_trans (length_shown ledMask _) (List.length_take_le 4 fmt.bytes)
  · intro indicators spelled short
    rw [reads, List.take_of_length_le short, spelled, parse_flatMap_written]

/-- In `nc?n?` the last question mark is not seen. -/
example : keyboardIndicators ⟨[0x6E, 0x63, 0x3F, 0x6E, 0x3F], by decide⟩ 0 = some [0x6E, 0x6E] := by decide

end SlStatus.KeyboardIndicators
