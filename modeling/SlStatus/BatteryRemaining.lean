import Mathlib.Tactic.FieldSimp
import SlStatus.Battery

/-! The time that `battery_remaining` shows for a battery that is discharging, computed with
exact rationals. The two numbers are picked one by one, and a scan that finds no number in its
file leaves what was on the stack. -/

namespace SlStatus.BatteryRemaining
open CString Util Display Scanf Battery

/-- The hours, as a quotient of natural numbers. -/
theorem floor_timeleft (charge current : Nat) : ⌊(charge / current : ℚ)⌋ = (charge / current : Nat) := by
  rw [Rat.floor_natCast_div_natCast, Int.natCast_ediv]

/-- The minutes, likewise. -/
theorem floor_rest {charge current : Nat} (positive : 0 < current) :
    ⌊((charge / current : ℚ) - ((charge / current : Nat) : Int)) * 60⌋ = (charge % current * 60 / current : Nat) := by
  have nonzero : (current : ℚ) ≠ 0 := by exact_mod_cast positive.ne'
  have split : (charge : ℚ) = current * (charge / current : Nat) + (charge % current : Nat) := by
    exact_mod_cast (Nat.div_add_mod charge current).symm
  have rest : ((charge / current : ℚ) - (charge / current : Nat)) * 60 =
      ((charge % current * 60 : Nat) : ℚ) / current := by
    push_cast
    rw [split]
    field_simp
    ring
  rw [Int.cast_natCast, rest, Rat.floor_natCast_div_natCast, Int.natCast_ediv]

theorem hours_and_minutes {charge current : Nat} (positive : 0 < current) :
    charge % current * 60 / current < 60 ∧
      60 * (charge / current) + charge % current * 60 / current = 60 * charge / current := by
  have small := Nat.mod_lt charge positive
  constructor
  · rw [Nat.div_lt_iff_lt_mul positive]
    omega
  · have split := Nat.div_add_mod charge current
    have whole : 60 * charge = charge % current * 60 + current * (60 * (charge / current)) := by
      calc
        60 * charge = 60 * (current * (charge / current) + charge % current) := by rw [split]
        _ = _ := by ring
    rw [whole, Nat.add_mul_div_left _ _ positive, Nat.add_comm]

theorem toNat_pos {n : UInt64} (nonzero : n ≠ 0) : 0 < n.toNat :=
  Nat.pos_of_ne_zero fun zero => nonzero (UInt64.toNat_inj.mp zero)

theorem remaining_eq {chargeNow currentNow : UInt64} (nonzero : currentNow ≠ 0) :
    remaining chargeNow currentNow =
      decimal (chargeNow.toNat / currentNow.toNat : Nat) ++ hourUnit ++
        decimal (chargeNow.toNat % currentNow.toNat * 60 / currentNow.toNat : Nat) ++ minuteUnit := by
  have positive := toNat_pos nonzero
  simp only [remaining, floor_timeleft, floor_rest positive]

/-- The text always fits into `buf`. -/
theorem bprintf_remaining {chargeNow currentNow : UInt64} (nonzero : currentNow ≠ 0) :
    bprintf (remaining chargeNow currentNow) = some (remaining chargeNow currentNow) := by
  have positive := toNat_pos nonzero
  have large := chargeNow.toNat_lt
  have hours : chargeNow.toNat / currentNow.toNat < 10 ^ 20 :=
    Nat.lt_of_le_of_lt (Nat.div_le_self _ _) (Nat.lt_trans large (by decide))
  have minutes : chargeNow.toNat % currentNow.toNat * 60 / currentNow.toNat < 10 ^ 2 :=
    Nat.lt_trans (hours_and_minutes positive).1 (by decide)
  have front := length_decimal_le (by decide) hours
  have back := length_decimal_le (by decide) minutes
  rw [bprintf_eq, remaining_eq nonzero, if_pos]
  simp only [Text.append_bytes, List.length_append]
  change _ + 2 + _ + 1 < 1024
  omega

section
variable (files : Text → Option (List Byte)) (bat : Text)

/-- The number in a file. -/
def parsed (file : Supply) : Conversion UInt64 :=
  match files (path file bat) with
  | none => .eof
  | some content => ju content

/-- The status is that of a battery that is discharging. -/
def Discharging : Prop := ∃ content, opened files bat = some content ∧ status content = discharging.bytes

/-- A charge goes with a current, and an energy with a power. -/
def Matching (amount rate : Supply) : Prop :=
  amount = .charge ∧ rate = .current ∨ amount = .energy ∧ rate = .power

/-- The text shows the hours and minutes for two numbers that have been read from the files that
were picked, which match. -/
def Timed (text : Text) : Prop :=
  ∃ amount rate chargeNow currentNow, ∃ hours minutes : Nat,
    pick files bat .charge .energy = some amount ∧ pick files bat .current .power = some rate ∧
      Matching amount rate ∧ parsed files bat amount = .value chargeNow ∧ parsed files bat rate = .value currentNow ∧
      text = decimal hours ++ hourUnit ++ decimal minutes ++ minuteUnit ∧ minutes < 60 ∧
      (60 * hours + minutes : Int) = ⌊60 * (chargeNow.toNat / currentNow.toNat : ℚ)⌋

/-- Whatever is on the stack: what is returned is such a text or `NULL`. -/
def Right : Prop :=
  ∀ state chargeNow currentNow, ∃ result, batteryRemaining files bat state chargeNow currentNow = some result ∧
    ∀ text, result = some text → Timed files bat text

/-- If two files are picked of which neither is empty, and the second does not hold zero, then
both hold numbers and they match. -/
def Usable : Prop :=
  ∀ amount rate, pick files bat .charge .energy = some amount → pick files bat .current .power = some rate →
    parsed files bat amount ≠ .eof → parsed files bat rate ≠ .eof → parsed files bat rate ≠ .value 0 →
      (∃ chargeNow, parsed files bat amount = .value chargeNow) ∧
        (∃ currentNow, parsed files bat rate = .value currentNow) ∧ Matching amount rate

end

section
variable {files : Text → Option (List Byte)} {bat : Text}

/-- The variable after the scan of a number. -/
def assigned (old : UInt64) : Conversion UInt64 → UInt64
  | .value number => number
  | _ => old

theorem pscanfNumber_eq (files : Text → Option (List Byte)) (bat : Text) (file : Supply) (old : UInt64) :
    ((pscanfNumber (files (path file bat)) old).1 < 0 ↔ parsed files bat file = .eof) ∧
      (pscanfNumber (files (path file bat)) old).2 = assigned old (parsed files bat file) := by
  unfold pscanfNumber pscanf parsed
  cases files (path file bat) with
  | none => simp [assigned]
  | some content =>
    dsimp only
    cases ju content <;> simp [assigned]

/-- The status of a battery that is discharging is scanned to the end. -/
theorem scanned_discharging (discharges : Discharging files bat) (state : Buffer 12) :
    ¬pathLength .status bat < 0 ∧ ∃ after, pscanfState (files (path .status bat)) state = some (1, after) ∧
      after.string? = some discharging.bytes := by
  obtain ⟨content, file, same⟩ := discharges
  unfold opened at file
  split_ifs at file with long
  refine ⟨long, ?_⟩
  have length : (status content).length = 11 := by rw [same]; rfl
  rw [file]
  rcases pscanfState_eq content state with ⟨n, -, -, nothing⟩ | stores
  · omega
  · have inside : pscanfState (some content) state ≠ none := by
      rw [ne_eq, pscanfState_none_iff]
      omega
    obtain ⟨⟨n, after⟩, scanned⟩ := Option.ne_none_iff_exists'.mp inside
    rw [scanned] at stores
    obtain ⟨array, -, pair⟩ := Option.map_eq_some_iff.mp stores.symm
    cases pair
    refine ⟨after, scanned, ?_⟩
    rw [(string?_of_scanned scanned).1, same]

/-- Both scans come past the end of their files, and the second leaves a number to divide by. -/
def Divides (files : Text → Option (List Byte)) (bat : Text) (currentNow : UInt64) (amount rate : Supply) : Prop :=
  pick files bat .charge .energy = some amount ∧ pick files bat .current .power = some rate ∧
    parsed files bat amount ≠ .eof ∧ parsed files bat rate ≠ .eof ∧ assigned currentNow (parsed files bat rate) ≠ 0

/-- The call for a battery that is discharging, by the files that are picked. -/
theorem batteryRemaining_discharging (discharges : Discharging files bat) (state : Buffer 12)
    (chargeNow currentNow : UInt64) :
    (batteryRemaining files bat state chargeNow currentNow = some none ∧
      ∀ amount rate, ¬Divides files bat currentNow amount rate) ∨
    ∃ amount rate, Divides files bat currentNow amount rate ∧
      batteryRemaining files bat state chargeNow currentNow =
        some (some (remaining (assigned chargeNow (parsed files bat amount))
          (assigned currentNow (parsed files bat rate)))) := by
  obtain ⟨fits, after, scanned, string⟩ := scanned_discharging discharges state
  unfold batteryRemaining Divides
  simp only [if_neg fits, scanned, string, ne_eq, not_true_eq_false, if_false, if_true]
  cases first : pick files bat .charge .energy with
  | none => exact .inl ⟨rfl, fun amount rate both => by cases both.1⟩
  | some amount =>
    obtain ⟨empty, value⟩ := pscanfNumber_eq files bat amount chargeNow
    simp only [value, empty]
    by_cases ended : parsed files bat amount = .eof
    · rw [if_pos ended]
      left
      refine ⟨rfl, ?_⟩
      rintro other rate ⟨⟨⟩, -, nonempty, -⟩
      exact nonempty ended
    · rw [if_neg ended]
      cases second : pick files bat .current .power with
      | none => exact .inl ⟨rfl, fun amount rate both => by cases both.2.1⟩
      | some rate =>
        obtain ⟨emptyToo, valueToo⟩ := pscanfNumber_eq files bat rate currentNow
        simp only [valueToo, emptyToo]
        by_cases endedToo : parsed files bat rate = .eof
        · rw [if_pos endedToo]
          left
          refine ⟨rfl, ?_⟩
          rintro other another ⟨-, ⟨⟩, -, nonempty, -⟩
          exact nonempty endedToo
        · rw [if_neg endedToo]
          by_cases zero : assigned currentNow (parsed files bat rate) = 0
          · rw [if_pos zero]
            left
            refine ⟨rfl, ?_⟩
            rintro other another ⟨-, ⟨⟩, -, -, nonzero⟩
            exact nonzero zero
          · rw [if_neg zero, bprintf_remaining zero]
            exact .inr ⟨amount, rate, ⟨rfl, rfl, ended, endedToo, zero⟩, rfl⟩

theorem timed_of_numbers {amount rate : Supply} {chargeNow currentNow : UInt64}
    (first : pick files bat .charge .energy = some amount) (second : pick files bat .current .power = some rate)
    (matching : Matching amount rate) (read : parsed files bat amount = .value chargeNow)
    (readToo : parsed files bat rate = .value currentNow) (nonzero : currentNow ≠ 0) :
    Timed files bat (remaining chargeNow currentNow) := by
  have positive := toNat_pos nonzero
  obtain ⟨small, whole⟩ := @hours_and_minutes chargeNow.toNat currentNow.toNat positive
  refine ⟨amount, rate, chargeNow, currentNow, _, _, first, second, matching, read, readToo, remaining_eq nonzero,
    small, ?_⟩
  have product : 60 * (chargeNow.toNat / currentNow.toNat : ℚ) =
      ((60 * chargeNow.toNat : Nat) : ℚ) / currentNow.toNat := by
    push_cast
    ring
  rw [product, Rat.floor_natCast_div_natCast]
  exact_mod_cast whole

theorem usable_of_right (discharges : Discharging files bat) (right : Right files bat) : Usable files bat := by
  intro amount rate first second read readToo notZero
  -- with one on the stack, a rate that is not read is not zero
  have nonzero : assigned 1 (parsed files bat rate) ≠ 0 := by
    cases number : parsed files bat rate with
    | eof => exact absurd number readToo
    | mismatch => exact show (1 : UInt64) ≠ 0 by decide
    | value found => exact fun zero => notZero (number.trans (congrArg Conversion.value zero))
  obtain ⟨result, called, timed⟩ := right (Buffer.zeroed 12) 0 1
  rcases batteryRemaining_discharging discharges (Buffer.zeroed 12) 0 1 with ⟨-, never⟩ | ⟨other, another, -, shown⟩
  · exact absurd ⟨first, second, read, readToo, nonzero⟩ (never amount rate)
  · rw [called] at shown
    obtain ⟨numbered, rated, chargeNow, currentNow, -, -, picked, pickedToo, matching, number, numberToo, -⟩ :=
      timed _ (Option.some.inj shown)
    rw [first] at picked
    rw [second] at pickedToo
    cases picked
    cases pickedToo
    exact ⟨⟨chargeNow, number⟩, ⟨currentNow, numberToo⟩, matching⟩

theorem right_of_usable (discharges : Discharging files bat) (usable : Usable files bat) : Right files bat := by
  intro state chargeNow currentNow
  rcases batteryRemaining_discharging discharges state chargeNow currentNow with
    ⟨null, -⟩ | ⟨amount, rate, ⟨first, second, read, readToo, nonzero⟩, shown⟩
  · exact ⟨none, null, fun text same => by cases same⟩
  · refine ⟨_, shown, ?_⟩
    rintro text ⟨⟩
    have notZero : parsed files bat rate ≠ .value 0 := fun zero => nonzero (by rw [zero]; rfl)
    obtain ⟨⟨charge, number⟩, ⟨current, numberToo⟩, matching⟩ := usable amount rate first second read readToo notZero
    rw [number, numberToo]
    rw [numberToo] at nonzero
    exact timed_of_numbers first second matching number numberToo nonzero

/-- For every battery that is discharging and all contents of its files: whatever is on the
stack, the time is right or there is none, exactly when no scan that finds no number goes
unnoticed and no charge meets a power, or an energy a current. -/
theorem remaining_right_iff (discharges : Discharging files bat) : Right files bat ↔ Usable files bat :=
  ⟨usable_of_right discharges, right_of_usable discharges⟩

end

section Example

/-- The files of a battery that is discharging: an amount, and a rate. -/
def supplies (amount rate : Supply) (first second : List Byte) (file : Text) : Option (List Byte) :=
  if file = path .status bat0 then some discharging.bytes
  else if file = path amount bat0 then some first
  else if file = path rate bat0 then some second
  else none

theorem supplies_discharging (amount rate : Supply) (first second : List Byte) :
    Discharging (supplies amount rate first second) bat0 := by
  refine ⟨discharging.bytes, ?_, by decide⟩
  rw [opened, if_neg (by decide), supplies, if_pos rfl]

/-- A charge of 36000 and a current of 5000. -/
theorem remaining_right_numbers :
    Right (supplies .charge .current (digits 36000) (digits 5000)) bat0 := by
  apply (remaining_right_iff (supplies_discharging _ _ _ _)).mpr
  intro amount rate first second _ _ _
  have picked : pick (supplies .charge .current (digits 36000) (digits 5000)) bat0 .charge .energy = some .charge := rfl
  have pickedToo : pick (supplies .charge .current (digits 36000) (digits 5000)) bat0 .current .power = some .current :=
    rfl
  rw [picked] at first
  rw [pickedToo] at second
  cases first
  cases second
  exact ⟨⟨36000, rfl⟩, ⟨5000, rfl⟩, .inl ⟨rfl, rfl⟩⟩

/-- A charge is divided by a power; and of two files without a number the one leaves an amount
that was on the stack, the other a rate. -/
theorem remaining_wrong :
    ¬Right (supplies .charge .power (digits 36000) (digits 6000)) bat0 ∧
      ¬Right (supplies .charge .current full.bytes (digits 6000)) bat0 ∧
      ¬Right (supplies .charge .current (digits 36000) full.bytes) bat0 := by
  refine ⟨fun right => ?_, fun right => ?_, fun right => ?_⟩
  · have usable := usable_of_right (supplies_discharging _ _ _ _) right
    have matching := (usable .charge .power rfl rfl (by decide) (by decide) (by decide)).2.2
    exact absurd matching (by rintro (⟨-, other⟩ | ⟨other, -⟩) <;> cases other)
  · have usable := usable_of_right (supplies_discharging _ _ _ _) right
    obtain ⟨chargeNow, number⟩ := (usable .charge .current rfl rfl (by decide) (by decide) (by decide)).1
    have none : parsed (supplies .charge .current full.bytes (digits 6000)) bat0 .charge = .mismatch := rfl
    rw [none] at number
    cases number
  · have usable := usable_of_right (supplies_discharging _ _ _ _) right
    obtain ⟨currentNow, number⟩ := (usable .charge .current rfl rfl (by decide) (by decide) (by decide)).2.1
    have none : parsed (supplies .charge .current (digits 36000) full.bytes) bat0 .current = .mismatch := rfl
    rw [none] at number
    cases number

end Example

end SlStatus.BatteryRemaining
