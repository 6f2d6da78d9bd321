import SlStatus.Backlights
import SlStatus.Integers
import SlStatus.Numerals
import SlStatus.Truncation

/-! The percentages of `components/backlight.c`: an entry of the queue gets its own through a `float`, and
`backlight_perc` computes it from the two files in `double`. `backlight_icon` reads back what that prints. -/

namespace SlStatus.Brightness
open Backlights BinaryFloat CString Display Integers Numerals Scanf Truncation Util
open CpuUsage (truncate)

/-- The expression of `backlight_find` and of `backlight_loop`; nothing where it is undefined. -/
def percent (brightness maxBrightness : Int) : Option Int :=
  if maxBrightness = 0 then none
  else exactly .int (truncate (double (double (100 * nearest 24 (brightness : ℚ)) / double (maxBrightness : ℚ))))

/-- The expression of `backlight_perc`. -/
def doublePercent (brightness maxBrightness : Int) : Option Int :=
  if maxBrightness = 0 then none
  else exactly .int (truncate (double (double (100 * double (brightness : ℚ)) / double (maxBrightness : ℚ))))

/-- `"/brightness"`. -/
def brightnessName : Text := ⟨[0x2F, 0x62, 0x72, 0x69, 0x67, 0x68, 0x74, 0x6E, 0x65, 0x73, 0x73], by decide⟩

/-- `"/max_brightness"`. -/
def maxBrightnessName : Text :=
  ⟨[0x2F, 0x6D, 0x61, 0x78, 0x5F, 0x62, 0x72, 0x69, 0x67, 0x68, 0x74, 0x6E, 0x65, 0x73, 0x73], by decide⟩

/-- The path of a file of the device. -/
def path (arg file : Text) : Text := backlightPath ++ arg ++ file

/-- `%d`, for numbers of an `int`. -/
def d (input : List Byte) : Conversion Int :=
  (numeral input).map fun number => if number.negative then -number.magnitude else number.magnitude

/-- A file as the function reads it: `esnprintf` and `pscanf`. -/
def readFile (files : Text → Option (List Byte)) (arg file : Text) : Option Int :=
  if (esnprintf (Buffer.zeroed PATH_MAX) (path arg file).bytes).2 < 0 then none
  else
    let (n, value) := pscanf (files (path arg file)) d
    if n ≠ 1 then none else value

def backlightPerc (files : Text → Option (List Byte)) (arg : Text) : Option (Option Text) :=
  match readFile files arg brightnessName with
  | none => some none
  | some brightness =>
      match readFile files arg maxBrightnessName with
      | none => some none
      | some maxBrightness =>
          (doublePercent brightness maxBrightness).map fun percentage => bprintf (decimal percentage)

/-- The number that a text begins with, as an `unsigned long`. -/
def strtoul (text : Text) : Nat :=
  match numeral text.bytes with
  | .value number => number.toUintmax.toNat
  | _ => 0

theorem low_visible : 0 ∉ [(0xF3 : Byte), 0xB0, 0x83, 0x9E] := by decide

theorem medium_visible : 0 ∉ [(0xF3 : Byte), 0xB0, 0x83, 0x9F] := by decide

theorem high_visible : 0 ∉ [(0xF3 : Byte), 0xB0, 0x83, 0x9D] := by decide

theorem top_visible : 0 ∉ [(0xF3 : Byte), 0xB0, 0x83, 0xA0] := by decide

/-- What is handed over is the result of `backlight_perc`. -/
def backlightIcon (perc : Option Text) : Option Text :=
  perc.map fun text =>
    pick [(25, icon 0x83 0x9E low_visible), (50, icon 0x83 0x9F medium_visible), (75, icon 0x83 0x9D high_visible)]
      (icon 0x83 0xA0 top_visible) (strtoul text)

section Percentage

variable {brightness maxBrightness : Int}

/-- A quotient with a small dividend is truncated exactly. -/
theorem truncate_quotient {m : Int} (low : 0 ≤ m) (high : m < 2 ^ 32) (positive : 0 < maxBrightness)
    (fits : maxBrightness < 2 ^ 31) :
    truncate (double (double (100 * (m : ℚ)) / double (maxBrightness : ℚ))) = 100 * m / maxBrightness := by
  have dividend : double (100 * (m : ℚ)) = (100 * m : Int) := by
    have cast : (100 : ℚ) * m = (100 * m : Int) := by push_cast; rfl
    rw [cast]
    exact nearest_intCast (abs_lt.mpr ⟨by omega, by omega⟩)
  have divisor : double (maxBrightness : ℚ) = maxBrightness :=
    nearest_intCast (abs_lt.mpr ⟨by omega, by omega⟩)
  obtain ⟨divisor', rfl⟩ := Int.eq_ofNat_of_zero_le positive.le
  have quotient := truncate_div (100 * m) (m := divisor') (by omega)
  have rounded := truncate_nearest (p := 53) (by decide) (n := 100 * m) (abs_lt.mpr ⟨by omega, by omega⟩)
    (m := divisor') (by omega)
  rw [dividend, divisor, double, rounded, Int.cast_natCast, quotient, Int.tdiv_eq_ediv_of_nonneg (by omega)]

theorem doublePercent_eq (low : 0 ≤ brightness) (le : brightness ≤ maxBrightness) (positive : 0 < maxBrightness)
    (fits : maxBrightness < 2 ^ 31) :
    doublePercent brightness maxBrightness = some (100 * brightness / maxBrightness) := by
  have exact : double (brightness : ℚ) = brightness := nearest_intCast (abs_lt.mpr ⟨by omega, by omega⟩)
  have whole := Int.ediv_nonneg (by omega : 0 ≤ 100 * brightness) positive.le
  have most : 100 * brightness / maxBrightness ≤ 100 := Int.ediv_le_of_le_mul positive (by omega)
  have holds : IntType.int.Holds (100 * brightness / maxBrightness) := by
    rw [IntType.holds_int]
    omega
  rw [doublePercent, if_neg positive.ne', exact, truncate_quotient low (by omega) positive fits, exactly,
    if_pos holds]

/-- The number as a `float`: too close to the number to change the percentage by more than one. -/
theorem exists_float (low : 0 ≤ brightness) (le : brightness ≤ maxBrightness) (positive : 0 < maxBrightness) :
    ∃ m : Int, nearest 24 (brightness : ℚ) = m ∧ 0 ≤ m ∧ 100 * |m - brightness| < maxBrightness ∧
      (brightness < 2 ^ 24 → m = brightness) := by
  obtain ⟨m, same⟩ := exists_nearest_intCast (K := ℚ) 24 brightness
  refine ⟨m, same, ?_, ?_, ?_⟩
  · have sign := nearest_nonneg (p := 24) (by decide) (Int.cast_nonneg (R := ℚ) low)
    rw [same] at sign
    exact Int.cast_nonneg_iff.mp sign
  · have error := nearest_relative 24 (brightness : ℚ)
    rw [same, le_div_iff₀ (by positivity)] at error
    have close : |m - brightness| * 2 ^ 24 ≤ |brightness| := by exact_mod_cast error
    rw [abs_of_nonneg low] at close
    omega
  · intro small
    have exact := nearest_intCast (K := ℚ) (p := 24) (abs_lt.mpr ⟨by omega, small⟩ : |brightness| < 2 ^ 24)
    exact Int.cast_injective (α := ℚ) (same.symm.trans exact)

theorem ediv_le_succ {a b c : Int} (positive : 0 < c) (le : a ≤ b + c) : a / c ≤ b / c + 1 := by
  have next := Int.add_mul_ediv_right b 1 positive.ne'
  rw [Int.one_mul] at next
  rw [← next]
  exact Int.ediv_le_ediv positive le

theorem percent_near (low : 0 ≤ brightness) (le : brightness ≤ maxBrightness) (positive : 0 < maxBrightness)
    (fits : maxBrightness < 2 ^ 31) :
    ∃ n, percent brightness maxBrightness = some n ∧ 0 ≤ n ∧ n ≤ 100 ∧
      |n - 100 * brightness / maxBrightness| ≤ 1 ∧
      (brightness < 2 ^ 24 → n = 100 * brightness / maxBrightness) := by
  obtain ⟨m, same, nonneg, near, small⟩ := exists_float low le positive
  have sides := abs_lt.mp (by omega : |m - brightness| < maxBrightness)
  have above : 100 * m < 100 * brightness + maxBrightness := by
    have side := le_abs_self (m - brightness)
    omega
  have below : 100 * brightness - maxBrightness < 100 * m := by
    have side := neg_abs_le (m - brightness)
    omega
  have whole : 0 ≤ 100 * m / maxBrightness := Int.ediv_nonneg (by omega) positive.le
  have most : 100 * m / maxBrightness < 101 := Int.ediv_lt_of_lt_mul positive (by omega)
  have upper := ediv_le_succ positive above.le
  have lower := ediv_le_succ positive (by omega : 100 * brightness ≤ 100 * m + maxBrightness)
  have holds : IntType.int.Holds (100 * m / maxBrightness) := by
    rw [IntType.holds_int]
    omega
  refine ⟨100 * m / maxBrightness, ?_, whole, by omega, abs_le.mpr (by omega), ?_⟩
  · rw [percent, if_neg positive.ne', same, truncate_quotient nonneg (by omega) positive fits, exactly, if_pos holds]
  · intro few
    rw [small few]

end Percentage

section Shown

variable {files : Text → Option (List Byte)} {name file : Text}

/-- What follows the number in its file does not matter, as long as it is no digit. -/
theorem readFile_decimal {n : Int} {rest : List Byte} (ends : ∀ byte ∈ rest.head?, isDigit byte = false)
    (fits : (path name file).bytes.length < PATH_MAX)
    (held : files (path name file) = some ((decimal n).bytes ++ rest)) : readFile files name file = some n := by
  have length := (esnprintf_neg_iff (Buffer.zeroed PATH_MAX) (path name file).bytes).not.mpr (by omega)
  have read : d ((decimal n).bytes ++ rest) = .value n := by
    rw [d, numeral_decimal n ends]
    simp only [Conversion.map, decide_eq_true_eq, Conversion.value.injEq]
    split_ifs with negative
    · rw [Int.ofNat_natAbs_of_nonpos negative.le, neg_neg]
    · exact Int.natAbs_of_nonneg (not_lt.mp negative)
  simp only [readFile, if_neg length, held, pscanf, read, ne_eq, not_true_eq_false, if_false]

theorem strtoul_decimal {n : Nat} (small : n < UInt64.size) : strtoul (decimal n) = n := by
  have read := numeral_decimal n ends_nil
  rw [List.append_nil] at read
  rw [strtoul, read]
  simp only [Numeral.toUintmax, Int.natAbs_natCast, if_neg (Nat.not_le.mpr small)]
  rw [if_neg (by simp), UInt64.toNat_ofNat', Nat.mod_eq_of_lt small]

/-- What all icons have in common, the one that is picked has. -/
theorem pick_of {Level : Type*} [LT Level] [DecidableLT Level] {p : Text → Prop} {bounds : List (Level × Text)}
    {top : Text} (all : ∀ bound ∈ bounds, p bound.2) (last : p top) (level : Level) :
    p (pick bounds top level) := by
  induction bounds with
  | nil => exact last
  | cons bound bounds ih =>
    unfold pick
    split_ifs with less
    · exact all bound List.mem_cons_self
    · exact ih fun other member => all other (List.mem_cons_of_mem _ member)

theorem pick_natCast (n : Nat) (low medium high top : Text) :
    pick [((25 : Int), low), (50, medium), (75, high)] top n = pick [(25, low), (50, medium), (75, high)] top n := by
  simp only [pick, Nat.cast_lt_ofNat]

/-- The entry that the search creates. -/
theorem backlightFind_missing {sysfs : Text → Option Attributes} {queue : List Backlight} {b m n : Int}
    (missing : ∀ entry ∈ queue, entry.name ≠ name) (short : (backlightPath ++ name).bytes.length < PATH_MAX)
    (device : sysfs (backlightPath ++ name) = some ⟨b, m⟩) (number : percent b m = some n) :
    (backlightFind (fun b m => (percent b m).getD 0) sysfs true queue name).1 = some ⟨name, n⟩ := by
  have length := (esnprintf_neg_iff (Buffer.zeroed PATH_MAX) (backlightPath ++ name).bytes).not.mpr (by omega)
  have read : readDevice (fun b m => (percent b m).getD 0) sysfs name = some n := by
    simp only [readDevice, if_neg length, device, number, Option.getD_some]
  rw [backlightFind_eq, if_neg Bool.noConfusion, read, Option.map_some,
    Caches.findOrCreate_miss missing]

theorem backlightPerc_eq {b m : Int} {rest rest' : List Byte} (low : 0 ≤ b) (le : b ≤ m) (positive : 0 < m)
    (fits : m < 2 ^ 31) (short : (path name maxBrightnessName).bytes.length < PATH_MAX)
    (ends : ∀ byte ∈ rest.head?, isDigit byte = false) (ends' : ∀ byte ∈ rest'.head?, isDigit byte = false)
    (held : files (path name brightnessName) = some ((decimal b).bytes ++ rest))
    (held' : files (path name maxBrightnessName) = some ((decimal m).bytes ++ rest')) :
    backlightPerc files name = some (some (decimal (100 * b / m))) := by
  have shorter : (path name brightnessName).bytes.length < PATH_MAX := by
    have names : brightnessName.bytes.length ≤ maxBrightnessName.bytes.length := by decide
    simp only [path, Text.append_bytes, List.length_append] at short ⊢
    omega
  have whole := Int.ediv_nonneg (by omega : 0 ≤ 100 * b) positive.le
  have most : 100 * b / m ≤ 100 := Int.ediv_le_of_le_mul positive (by omega)
  have length := @length_decimal (100 * b / m) 3 (by decide) (by omega)
  have first := readFile_decimal ends shorter held
  have last := readFile_decimal ends' short held'
  have printed : bprintf (decimal (100 * b / m)) = some (decimal (100 * b / m)) := by
    rw [bprintf_eq, if_pos (by omega)]
  unfold backlightPerc
  rw [first, last]
  dsimp only
  rw [doublePercent_eq low le positive fits, Option.map_some, printed]

/-- Both icons are picked by the same bounds. -/
theorem backlightLine_eq {p : Nat} (most : p ≤ 100) :
    ∃ icon, backlightIcon (some (decimal p)) = some icon ∧
      backlightLine (some ⟨name, p⟩) = some (icon ++ space ++ decimal p ++ percentSign) := by
  refine ⟨_, rfl, ?_⟩
  have read : strtoul (decimal p) = p := strtoul_decimal (most.trans_lt (by decide))
  have length := @length_decimal p 3 (by decide) (by omega)
  unfold backlightLine
  dsimp only
  rw [read, pick_natCast, bprintf_eq]
  generalize picked : pick _ _ p = icon
  have four : icon.bytes.length = 4 := by
    rw [← picked]
    refine pick_of (p := fun icon => icon.bytes.length = 4) ?_ rfl p
    simp only [List.forall_mem_cons]
    exact ⟨rfl, rfl, rfl, fun _ member => absurd member List.not_mem_nil⟩
  rw [if_pos]
  simp only [Text.append_bytes, List.length_append, four]
  change _ + 1 + _ + 1 < _
  omega

/-- The line and `backlight_perc` differ by one at most; below 2 ^ 24 they agree, and so do their icons. -/
theorem brightness_shown {sysfs : Text → Option Attributes} {queue : List Backlight} {b m : Int}
    {rest rest' : List Byte} (low : 0 ≤ b) (le : b ≤ m) (positive : 0 < m) (fits : m < 2 ^ 31)
    (short : (path name maxBrightnessName).bytes.length < PATH_MAX)
    (ends : ∀ byte ∈ rest.head?, isDigit byte = false) (ends' : ∀ byte ∈ rest'.head?, isDigit byte = false)
    (held : files (path name brightnessName) = some ((decimal b).bytes ++ rest))
    (held' : files (path name maxBrightnessName) = some ((decimal m).bytes ++ rest'))
    (missing : ∀ entry ∈ queue, entry.name ≠ name) (device : sysfs (backlightPath ++ name) = some ⟨b, m⟩) :
    ∃ n, (backlightFind (fun b m => (percent b m).getD 0) sysfs true queue name).1 = some ⟨name, n⟩ ∧
      0 ≤ n ∧ n ≤ 100 ∧ |n - 100 * b / m| ≤ 1 ∧
      backlightPerc files name = some (some (decimal (100 * b / m))) ∧
      (b < 2 ^ 24 → n = 100 * b / m ∧ ∃ icon, (backlightPerc files name).map backlightIcon = some (some icon) ∧
        backlightLine (some ⟨name, n⟩) = some (icon ++ space ++ decimal (100 * b / m) ++ percentSign)) := by
  obtain ⟨n, number, nonneg, most, near, small⟩ := percent_near low le positive fits
  have shorter : (backlightPath ++ name).bytes.length < PATH_MAX := by
    simp only [path, Text.append_bytes, List.length_append] at short ⊢
    omega
  have read := backlightPerc_eq low le positive fits short ends ends' held held'
  refine ⟨n, backlightFind_missing missing shorter device number, nonneg, most, near, read, ?_⟩
  intro few
  obtain ⟨p, rfl⟩ := Int.eq_ofNat_of_zero_le nonneg
  obtain ⟨icon, picked, line⟩ := @backlightLine_eq name p (by omega)
  rw [read, ← small few, Option.map_some]
  exact ⟨rfl, icon, congrArg some picked, line⟩

/-- One percent of which the line shows nothing. -/
theorem brightness_shown_rounded :
    percent 16777217 1677721700 = some 0 ∧
    ∃ n, (backlightFind (fun b m => (percent b m).getD 0) (fun _ => some ⟨16777217, 1677721700⟩) true []
        brightnessName).1 = some ⟨brightnessName, n⟩ ∧
      0 ≤ n ∧ n ≤ 100 ∧ |n - 100 * 16777217 / 1677721700| ≤ 1 :=
  have shown := @brightness_shown
    (fun file =>
      let n := if file = path brightnessName brightnessName then 16777217 else 1677721700
      some ((decimal n).bytes ++ []))
    brightnessName (fun _ => some ⟨16777217, 1677721700⟩) [] 16777217 1677721700 [] [] (by decide) (by decide)
    (by decide) (by decide) (by decide) ends_nil ends_nil (by rw [if_pos rfl]) (by rw [if_neg (by decide)])
    (fun _ member => absurd member List.not_mem_nil) rfl
  ⟨by decide +kernel, shown.imp fun _ ⟨entry, nonneg, most, near, _⟩ => ⟨entry, nonneg, most, near⟩⟩

end Shown

end SlStatus.Brightness
