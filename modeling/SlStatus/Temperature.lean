import SlStatus.Integers
import SlStatus.Numerals
import SlStatus.Truncation

/-! `temp` of `components/temperature.c`: a number of a file on Linux, in thousandths of a degree and read without its
sign; a number of millionths of a kelvin on OpenBSD, which passes through a `float`; a number of tenths of a kelvin on
FreeBSD, of which the degrees and the tenths are printed one after the other. -/

namespace SlStatus.Temperature
open BinaryFloat CString Display Integers Numerals Scanf Truncation
open CpuUsage (truncate)

theorem tdiv_cases (n d : Int) : 0 ≤ n ∧ n.tdiv d = n / d ∨ n < 0 ∧ n.tdiv d = -(-n / d) := by
  rcases le_or_gt 0 n with nonneg | negative
  · exact .inl ⟨nonneg, Int.tdiv_eq_ediv_of_nonneg nonneg⟩
  · right
    rw [← Int.tdiv_eq_ediv_of_nonneg (by omega), Int.neg_tdiv, neg_neg]
    exact ⟨negative, rfl⟩

namespace Linux

def temp (file : Option (List Byte)) : Option Text :=
  match pscanf file ju with
  | (1, some temp) => bprintf (decimal (temp / 1000).toNat)
  | _ => none

theorem temp_eq (n : Int) {rest : List Byte} (ends : ∀ byte ∈ rest.head?, isDigit byte = false) :
    temp (some ((decimal n).bytes ++ rest)) =
      some (decimal (Numeral.toUintmax ⟨n < 0, n.natAbs⟩ / 1000).toNat) := by
  have read : ju ((decimal n).bytes ++ rest) = .value (Numeral.toUintmax ⟨n < 0, n.natAbs⟩) := by
    rw [ju, numeral_decimal n ends]
    rfl
  have length := @length_decimal_le (Numeral.toUintmax ⟨n < 0, n.natAbs⟩ / 1000).toNat 20 (by decide)
    ((UInt64.toNat_lt _).trans (by decide))
  simp only [temp, pscanf, read]
  rw [bprintf_eq, if_pos (by omega)]

/-- The file is read rightly as long as it is not freezing. -/
theorem temp_iff {n : Int} (fits : n.natAbs < UInt64.size) {rest : List Byte}
    (ends : ∀ byte ∈ rest.head?, isDigit byte = false) :
    temp (some ((decimal n).bytes ++ rest)) = some (decimal (n.tdiv 1000)) ↔ 0 ≤ n := by
  rw [temp_eq n ends, Option.some.injEq, decimal_injective.eq_iff, UInt64.toNat_div]
  unfold Numeral.toUintmax
  rw [if_neg (Nat.not_le.mpr fits)]
  dsimp only
  change n.natAbs < 18446744073709551616 at fits
  rcases tdiv_cases n 1000 with ⟨nonneg, quotient⟩ | ⟨negative, quotient⟩
  · have same : (UInt64.ofNat n.natAbs).toNat = n.natAbs := by rw [UInt64.toNat_ofNat', Nat.mod_eq_of_lt fits]
    rw [if_neg (by simpa using nonneg), same, iff_true_right nonneg, quotient]
    change ((n.natAbs / 1000 : Nat) : Int) = _
    omega
  · have wrapped : (0 - UInt64.ofNat n.natAbs).toNat = 18446744073709551616 - n.natAbs := by
      rw [UInt64.toNat_sub, UInt64.toNat_ofNat', Nat.mod_eq_of_lt fits]
      change (18446744073709551616 - n.natAbs + 0) % 18446744073709551616 = _
      rw [Nat.add_zero, Nat.mod_eq_of_lt (by omega)]
    rw [if_pos (decide_eq_true negative), wrapped, iff_false_right (by omega), quotient]
    change ¬(((18446744073709551616 - n.natAbs) / 1000 : Nat) : Int) = _
    omega

end Linux

/-- No result where an operation is undefined; `NULL` where there is no reading. -/
def shown (text : Int → Option Text) : Option Int → Option (Option Text)
  | none => some none
  | some temp => (text temp).map bprintf

namespace OpenBsd

/-- The degrees, the difference rounded to a `float`. -/
def degrees (value : Int) : Option Int := do
  let difference ← sub machine .long value 273150000
  exactly .int (truncate (double (nearest 24 (difference : ℚ) / 1000000)))

def temp : Option Int → Option (Option Text) := shown fun value => (degrees value).map decimal

/-- A whole number of degrees has few enough digits for a `float`. -/
theorem representable_degrees {k : Int} (small : |k| ≤ 1000) : Representable 24 ((1000000 * k : Int) : ℚ) := by
  refine representable_iff.mpr ⟨15625 * k, 6, ?_, ?_⟩
  · rw [abs_lt]
    have bounds := abs_le.mp small
    omega
  · push_cast
    ring

/-- The difference as a `float`, which does not pass a whole number of degrees. -/
theorem exists_float (d : Int) :
    ∃ m : Int, nearest 24 (d : ℚ) = m ∧ |m - d| * 2 ^ 24 ≤ |d| ∧
      ∀ k : Int, |k| ≤ 1000 → (1000000 * k ≤ d → 1000000 * k ≤ m) ∧ (d ≤ 1000000 * k → m ≤ 1000000 * k) := by
  obtain ⟨m, same⟩ := exists_nearest_intCast (K := ℚ) 24 d
  refine ⟨m, same, ?_, ?_⟩
  · have error := nearest_relative 24 (d : ℚ)
    rw [same, le_div_iff₀ (by positivity)] at error
    exact_mod_cast error
  · intro k near
    have representable := representable_degrees near
    constructor
    · intro le
      have reached := le_nearest (by decide) representable (Int.cast_le.mpr le)
      rw [same] at reached
      exact Int.cast_le.mp reached
    · intro le
      have reached := nearest_le (by decide) representable (Int.cast_le.mpr le)
      rw [same] at reached
      exact Int.cast_le.mp reached

/-- What does not pass a whole number of degrees has the same whole part, or is the next whole number. -/
theorem quotient_cases {d m : Int} (low : -1000000000 ≤ d) (high : d ≤ 1000000000)
    (passes : ∀ k : Int, |k| ≤ 1000 →
      (1000000 * k ≤ d → 1000000 * k ≤ m) ∧ (d ≤ 1000000 * k → m ≤ 1000000 * k)) :
    m.tdiv 1000000 = d.tdiv 1000000 ∨
      |m.tdiv 1000000| = |d.tdiv 1000000| + 1 ∧ 1000000 * m.tdiv 1000000 = m := by
  obtain ⟨above, below⟩ := passes 0 (by decide)
  rcases tdiv_cases d 1000000 with ⟨sign, quotient⟩ | ⟨sign, quotient⟩
  · have reached := (passes (d / 1000000) (abs_le.mpr (by omega))).1 (by omega)
    have next : m ≤ 1000000 * (d / 1000000 + 1) := by
      rcases lt_or_ge (d / 1000000) 1000 with inside | edge
      · exact (passes (d / 1000000 + 1) (abs_le.mpr (by omega))).2 (by omega)
      · have most := (passes 1000 (by decide)).2 (by omega)
        omega
    rw [quotient, Int.tdiv_eq_ediv_of_nonneg (by omega : 0 ≤ m)]
    rcases next.lt_or_eq with inside | whole
    · left
      omega
    · right
      rw [abs_of_nonneg (by omega), abs_of_nonneg (by omega)]
      omega
  · have reached := (passes (-(-d / 1000000)) (abs_le.mpr (by omega))).2 (by omega)
    have next : 1000000 * (-(-d / 1000000) - 1) ≤ m := by
      rcases lt_or_ge (-d / 1000000) 1000 with inside | edge
      · exact (passes (-(-d / 1000000) - 1) (abs_le.mpr (by omega))).1 (by omega)
      · have least := (passes (-1000) (by decide)).1 (by omega)
        omega
    have flipped : m.tdiv 1000000 = -(-m / 1000000) := by
      rw [← Int.tdiv_eq_ediv_of_nonneg (by omega), Int.neg_tdiv, neg_neg]
    rw [quotient, flipped]
    rcases next.lt_or_eq with inside | whole
    · left
      omega
    · right
      rw [abs_of_nonpos (by omega), abs_of_nonpos (by omega)]
      omega

/-- The degrees are the exact ones without their fraction; or the temperature is so close to the next whole degree that
a `float` does not tell them apart. -/
theorem degrees_near {value : Int} (small : |value - 273150000| ≤ 1000000000) :
    ∃ n, degrees value = some n ∧
      (n = (value - 273150000).tdiv 1000000 ∨
        |n| = |(value - 273150000).tdiv 1000000| + 1 ∧
          |1000000 * n - (value - 273150000)| * 2 ^ 24 ≤ |value - 273150000|) := by
  obtain ⟨low, high⟩ := abs_le.mp small
  have difference : sub machine .long value 273150000 = some (value - 273150000) :=
    machine_of_holds (by rw [IntType.holds_long]; omega)
  unfold degrees
  rw [difference]
  generalize value - 273150000 = d at low high ⊢
  obtain ⟨m, same, near, passes⟩ := exists_float d
  have least := (passes (-1000) (by decide)).1 (by omega)
  have most := (passes 1000 (by decide)).2 (by omega)
  have bits : |m| < 2 ^ 53 := abs_lt.mpr ⟨by omega, by omega⟩
  have truncated : truncate (double ((m : ℚ) / 1000000)) = m.tdiv 1000000 := by
    have quotient := truncate_div m (m := 1000000) (by decide)
    have rounded := truncate_nearest (p := 53) (by decide) bits (m := 1000000) (by decide)
    push_cast at quotient rounded
    exact rounded.trans quotient
  have fits : IntType.int.Holds (m.tdiv 1000000) := by
    rw [IntType.holds_int]
    rcases tdiv_cases m 1000000 with ⟨sign, quotient⟩ | ⟨sign, quotient⟩ <;> rw [quotient] <;> omega
  refine ⟨m.tdiv 1000000, ?_, ?_⟩
  · simp only [Option.bind_eq_bind, Option.bind_some, same, truncated, exactly, if_pos fits]
  · rcases quotient_cases low high passes with whole | ⟨next, exact⟩
    · exact .inl whole
    · right
      rw [exact]
      exact ⟨next, near⟩

theorem temp_eq {value n : Int} (computed : degrees value = some n) : temp (some value) = some (some (decimal n)) := by
  obtain ⟨difference, -, converted⟩ := Option.bind_eq_some_iff.mp computed
  have fits : IntType.int.Holds n := by
    obtain ⟨holds, rfl⟩ := exactly_eq_some.mp converted
    exact holds
  rw [IntType.holds_int] at fits
  have length := @length_decimal n 10 (by decide) (by omega)
  rw [temp, shown, computed, Option.map_some, Option.map_some, bprintf_eq, if_pos (by omega)]

/-- Nearly seventeen degrees. -/
example : degrees 290149999 = some 17 := by decide +kernel

end OpenBsd

namespace FreeBsd

theorem point_visible : (0 : Byte) ≠ 0x2E := by decide

/-- `"."`. -/
def point : Text := character 0x2E point_visible

/-- `"%d.%d"` of the degrees and the tenths. -/
def written (tenths : Int) : Text := decimal (tenths.tdiv 10) ++ point ++ decimal |tenths.tmod 10|

def text (temp : Int) : Option Text := (sub machine .int temp 2731).map written

def temp : Option Int → Option (Option Text) := shown text

theorem parts_eq (d : Int) :
    0 ≤ d ∧ d.tdiv 10 = d / 10 ∧ |d.tmod 10| = d % 10 ∨ d < 0 ∧ d.tdiv 10 = -(-d / 10) ∧ |d.tmod 10| = -d % 10 := by
  rcases le_or_gt 0 d with nonneg | negative
  · left
    rw [Int.tdiv_eq_ediv_of_nonneg nonneg, Int.tmod_eq_emod_of_nonneg nonneg, abs_of_nonneg (by omega)]
    exact ⟨nonneg, rfl, rfl⟩
  · right
    have quotient : d.tdiv 10 = -(-d / 10) := by
      rw [← Int.tdiv_eq_ediv_of_nonneg (by omega), Int.neg_tdiv, neg_neg]
    have rest : |d.tmod 10| = -d % 10 := by
      rw [← abs_neg, ← Int.neg_tmod, Int.tmod_eq_emod_of_nonneg (by omega), abs_of_nonneg (by omega)]
    exact ⟨negative, quotient, rest⟩

/-- The sign is lost where there are no whole degrees. -/
theorem written_iff {d e : Int} : written e = written d ↔ e = d ∨ e = -d ∧ |d| < 10 := by
  have ends (m : Int) : ∀ byte ∈ (point.bytes ++ (decimal m).bytes).head?, isDigit byte = false := by
    rintro byte ⟨⟩
    rfl
  have same : written e = written d ↔ e.tdiv 10 = d.tdiv 10 ∧ |e.tmod 10| = |d.tmod 10| := by
    constructor
    · intro equal
      have bytes := congrArg Text.bytes equal
      simp only [written, Text.append_bytes, List.append_assoc] at bytes
      obtain ⟨whole, rest⟩ := decimal_append_inj (ends _) (ends _) bytes
      exact ⟨whole, eq_of_bytes (List.append_cancel_left rest)⟩
    · rintro ⟨whole, tenths⟩
      rw [written, written, whole, tenths]
  rw [same]
  have close : |d| < 10 ↔ -10 < d ∧ d < 10 := abs_lt
  rcases parts_eq d with ⟨sign, whole, rest⟩ | ⟨sign, whole, rest⟩ <;>
    rcases parts_eq e with ⟨sign', whole', rest'⟩ | ⟨sign', whole', rest'⟩ <;>
    rw [whole, rest, whole', rest', close] <;> omega

theorem temp_eq {reading : Int} (holds : IntType.int.Holds (reading - 2731)) :
    temp (some reading) = some (some (written (reading - 2731))) := by
  have text : text reading = some (written (reading - 2731)) := by
    unfold FreeBsd.text sub
    rw [machine_of_holds holds, Option.map_some]
  rw [IntType.holds_int] at holds
  have parts := parts_eq (reading - 2731)
  have whole := @length_decimal ((reading - 2731).tdiv 10) 10 (by decide) (by omega)
  have tenths := @length_decimal |(reading - 2731).tmod 10| 1 (by decide) (by omega)
  have short : (written (reading - 2731)).bytes.length < 1024 := by
    simp only [written, Text.append_bytes, List.length_append]
    change _ + 1 + _ < 1024
    omega
  rw [temp, shown, text, Option.map_some, bprintf_eq, if_pos short]

/-- Two temperatures are shown alike if they are equal, or less than a degree above and below zero. -/
theorem temp_iff {a b : Int} (first : IntType.int.Holds (a - 2731)) (last : IntType.int.Holds (b - 2731)) :
    temp (some b) = temp (some a) ↔ b = a ∨ b - 2731 = -(a - 2731) ∧ |a - 2731| < 10 := by
  rw [temp_eq first, temp_eq last, Option.some.injEq, Option.some.injEq, written_iff, sub_left_inj]

end FreeBsd

/-- On Linux the file is read rightly as long as it is not freezing; on FreeBSD the text tells the temperature, up to
the sign of one less than a degree away from zero; on OpenBSD, within a thousand degrees, the degrees are the exact ones
or, that close to the next whole degree, one more. -/
theorem temperatures_shown :
    (∀ n : Int, n.natAbs < UInt64.size → ∀ rest : List Byte, (∀ byte ∈ rest.head?, isDigit byte = false) →
      (Linux.temp (some ((decimal n).bytes ++ rest)) = some (decimal (n.tdiv 1000)) ↔ 0 ≤ n)) ∧
    (∀ a b : Int, IntType.int.Holds (a - 2731) → IntType.int.Holds (b - 2731) →
      (FreeBsd.temp (some b) = FreeBsd.temp (some a) ↔ b = a ∨ b - 2731 = -(a - 2731) ∧ |a - 2731| < 10)) ∧
    ∀ value : Int, |value - 273150000| ≤ 1000000000 →
      ∃ n, OpenBsd.temp (some value) = some (some (decimal n)) ∧
        (n = (value - 273150000).tdiv 1000000 ∨
          |n| = |(value - 273150000).tdiv 1000000| + 1 ∧
            |1000000 * n - (value - 273150000)| * 2 ^ 24 ≤ |value - 273150000|) := by
  refine ⟨?_, ?_, ?_⟩
  · intro n fits rest ends
    exact Linux.temp_iff fits ends
  · intro a b first last
    exact FreeBsd.temp_iff first last
  · intro value small
    obtain ⟨n, degrees, close⟩ := OpenBsd.degrees_near small
    exact ⟨n, OpenBsd.temp_eq degrees, close⟩

end SlStatus.Temperature
