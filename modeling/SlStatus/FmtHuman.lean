import Mathlib.Data.Nat.Log
import Mathlib.Data.Rat.Floor
import SlStatus.HalfEven
import SlStatus.Numerals

/-! `fmt_human` of `util.c`, with rational numbers in place of `double`. The prefix belongs to the
largest power of the base that is not above the number; the loop compares the quotient itself, and
what is printed is rounded afterwards. -/

namespace SlStatus.FmtHuman
open CString Display HalfEven Numerals Scanf

def prefix1000 : List Text :=
  [.empty, character 0x6B (by decide), character 0x4D (by decide), character 0x47 (by decide),
    character 0x54 (by decide), character 0x50 (by decide), character 0x45 (by decide), character 0x5A (by decide),
    character 0x59 (by decide)]

def prefix1024 : List Text :=
  [.empty, ⟨[0x4B, 0x69], by decide⟩, ⟨[0x4D, 0x69], by decide⟩, ⟨[0x47, 0x69], by decide⟩, ⟨[0x54, 0x69], by decide⟩,
    ⟨[0x50, 0x69], by decide⟩, ⟨[0x45, 0x69], by decide⟩, ⟨[0x5A, 0x69], by decide⟩, ⟨[0x59, 0x69], by decide⟩]

/-- The `switch`; other bases are warned about. -/
def prefixes (base : Int) : Option (List Text) :=
  if base = 1000 then some prefix1000 else if base = 1024 then some prefix1024 else none

/-- The loop, `left` passes before `i` is `prefixlen`. -/
def scale (base : ℚ) : Nat → Nat → ℚ → Nat × ℚ
  | 0, i, scaled => (i, scaled)
  | left + 1, i, scaled => if base ≤ scaled then scale base left (i + 1) (scaled / base) else (i, scaled)

def tenths (number : ℚ) : Int := halfEven (10 * number)

/-- `%.1f` of a number that is not negative. -/
def fixed (number : ℚ) : Text :=
  decimal (tenths number / 10) ++ character 0x2E (by decide) ++ decimal (tenths number % 10)

/-- No result where `prefix[i]` is read behind the end of the table. -/
def fmtHuman (num : UInt64) (base : Int) : Option (Option Text) :=
  match prefixes base with
  | none => some none
  | some table => do
      let (i, scaled) := scale base table.length 0 num.toNat
      let unit ← table[i]?
      return bprintf (fixed scaled ++ space ++ unit)

/-- The number that `fixed` shows. -/
def printed (number : ℚ) : ℚ := tenths number / 10

/-- Of both tables. -/
def prefixlen : Nat := 9

/-- Where the loop stops for a number, and with what. -/
def exponent (base : Int) (num : Nat) : Nat := (scale base prefixlen 0 num).1

def scaled (base : Int) (num : Nat) : ℚ := (scale base prefixlen 0 num).2

/-- The quantity that the output stands for. -/
def denoted (base : Int) (num : Nat) : ℚ := printed (scaled base num) * base ^ exponent base num

section Printed

variable {x y : ℚ} {n : Int}

theorem printed_mono (le : x ≤ y) : printed x ≤ printed y := by
  have order : (tenths x : ℚ) ≤ tenths y := Int.cast_le.mpr (halfEven_mono (by linarith))
  unfold printed
  linarith

theorem printed_error (x : ℚ) : |printed x - x| ≤ 1 / 20 := by
  have error : |(tenths x : ℚ) - 10 * x| ≤ 1 / 2 := halfEven_error (10 * x)
  rw [abs_le] at error ⊢
  unfold printed
  constructor <;> linarith

theorem printed_le (le : x ≤ n) : printed x ≤ n := by
  have bound : tenths x ≤ 10 * n := halfEven_le (by push_cast; linarith)
  have cast : (tenths x : ℚ) ≤ 10 * n := mod_cast bound
  unfold printed
  linarith

theorem le_printed (le : n ≤ x) : n ≤ printed x := by
  have bound : 10 * n ≤ tenths x := le_halfEven (by push_cast; linarith)
  have cast : 10 * (n : ℚ) ≤ tenths x := mod_cast bound
  unfold printed
  linarith

/-- Ten times an integer is even: a tie below it is printed as the integer. -/
theorem printed_lt_iff : printed x < n ↔ x < n - 1 / 20 := by
  have even : Even (10 * n) := ⟨5 * n, by ring⟩
  have below : tenths x < 10 * n ↔ 10 * x < ((10 * n : Int) : ℚ) - 1 / 2 := halfEven_lt_iff even
  have cast : (tenths x : ℚ) < 10 * n ↔ tenths x < 10 * n := by
    rw [← Int.cast_lt (R := ℚ)]
    push_cast
    rfl
  calc
    printed x < n ↔ (tenths x : ℚ) < 10 * n := by
      unfold printed
      constructor <;> intro <;> linarith
    _ ↔ 10 * x < ((10 * n : Int) : ℚ) - 1 / 2 := cast.trans below
    _ ↔ x < n - 1 / 20 := by
      push_cast
      constructor <;> intro <;> linarith

end Printed

section Loop

variable {base num : Nat}

theorem power_pos (large : 1 < base) (i : Nat) : (0 : ℚ) < base ^ i :=
  pow_pos (Nat.cast_pos.mpr (Nat.zero_lt_of_lt large)) i

/-- The condition of the loop, as one on the number itself. -/
theorem goes_on_iff (large : 1 < base) {i : Nat} : (base : ℚ) ≤ (num : ℚ) / base ^ i ↔ base ^ (i + 1) ≤ num := by
  rw [le_div_iff₀ (power_pos large i), ← pow_succ']
  exact_mod_cast Iff.rfl

/-- From a power that is not above the number the loop goes on to the largest one. -/
theorem scale_eq (large : 1 < base) {left i : Nat} (reached : i ≤ Nat.log base num)
    (enough : Nat.log base num ≤ i + left) :
    scale base left i ((num : ℚ) / base ^ i) = (Nat.log base num, (num : ℚ) / base ^ Nat.log base num) := by
  induction left generalizing i with
  | zero =>
    have same : i = Nat.log base num := by omega
    rw [scale, ← same]
  | succ left ih =>
    unfold scale
    split_ifs with more
    · have next := Nat.le_log_of_pow_le large ((goes_on_iff large).mp more)
      rw [div_div, ← pow_succ]
      exact ih next (by omega)
    · have last : num < base ^ (i + 1) := lt_of_not_ge fun le => more ((goes_on_iff large).mpr le)
      have same : Nat.log base num = i := by
        have below := Nat.log_lt_of_lt_pow' (Nat.succ_ne_zero i) last
        omega
      rw [same]

/-- Even 2^64 has no more than 21 digits. -/
theorem log_lt (large : 1000 ≤ base) (bounded : num ≤ 2 ^ 64) : Nat.log base num < 7 := by
  apply Nat.log_lt_of_lt_pow' (by decide)
  calc
    num ≤ 2 ^ 64 := bounded
    _ < 1000 ^ 7 := by decide
    _ ≤ base ^ 7 := Nat.pow_le_pow_left large 7

theorem stop_eq (large : 1000 ≤ base) (bounded : num ≤ 2 ^ 64) :
    scale base prefixlen 0 num = (Nat.log base num, (num : ℚ) / base ^ Nat.log base num) := by
  have small := log_lt large bounded
  have stop : scale base prefixlen 0 ((num : ℚ) / base ^ 0) = _ :=
    scale_eq (by omega) (Nat.zero_le _) (by unfold prefixlen; omega)
  rwa [pow_zero, div_one] at stop

theorem exponent_eq (large : 1000 ≤ base) (bounded : num ≤ 2 ^ 64) : exponent base num = Nat.log base num :=
  congrArg Prod.fst (stop_eq large bounded)

theorem scaled_eq (large : 1000 ≤ base) (bounded : num ≤ 2 ^ 64) :
    scaled base num = (num : ℚ) / base ^ Nat.log base num :=
  congrArg Prod.snd (stop_eq large bounded)

theorem scaled_nonneg (large : 1000 ≤ base) (bounded : num ≤ 2 ^ 64) : 0 ≤ scaled base num := by
  rw [scaled_eq large bounded]
  exact div_nonneg (Nat.cast_nonneg num) (power_pos (by omega) _).le

theorem scaled_lt (large : 1000 ≤ base) (bounded : num ≤ 2 ^ 64) : scaled base num < base := by
  rw [scaled_eq large bounded]
  have last : ¬ base ^ (Nat.log base num + 1) ≤ num :=
    not_le_of_gt (Nat.lt_pow_succ_log_self (by omega) num)
  exact lt_of_not_ge fun le => last ((goes_on_iff (by omega)).mp le)

theorem one_le_scaled (large : 1000 ≤ base) (bounded : num ≤ 2 ^ 64) (nonzero : num ≠ 0) : 1 ≤ scaled base num := by
  rw [scaled_eq large bounded, one_le_div₀ (power_pos (by omega) _)]
  exact_mod_cast Nat.pow_log_le_self base nonzero

/-- The mantissa before a change of the prefix is at most the base, and after it at least one. -/
theorem denoted_mono (large : 1000 ≤ base) {first second : Nat} (le : first ≤ second) (bounded : second ≤ 2 ^ 64) :
    denoted base first ≤ denoted base second := by
  have firstBounded := le.trans bounded
  have power (i : Nat) : (0 : ℚ) ≤ base ^ i := (power_pos (by omega) i).le
  unfold denoted
  rw [exponent_eq large bounded, exponent_eq large firstBounded]
  rcases (Nat.log_mono_right (b := base) le).lt_or_eq with less | same
  · have below : printed (scaled base first) ≤ (base : Int) := printed_le (scaled_lt large firstBounded).le
    have nonzero : second ≠ 0 := by
      rintro rfl
      rw [Nat.log_zero_right] at less
      omega
    have above : ((1 : Int) : ℚ) ≤ printed (scaled base second) :=
      le_printed (by exact_mod_cast one_le_scaled large bounded nonzero)
    have powers : (base : ℚ) ^ (Nat.log base first + 1) ≤ base ^ Nat.log base second :=
      pow_le_pow_right₀ (by exact_mod_cast (by omega : 1 ≤ base)) less
    calc
      printed (scaled base first) * base ^ Nat.log base first
          ≤ base * base ^ Nat.log base first := mul_le_mul_of_nonneg_right below (power _)
      _ = base ^ (Nat.log base first + 1) := (pow_succ' _ _).symm
      _ ≤ base ^ Nat.log base second := powers
      _ = 1 * base ^ Nat.log base second := (one_mul _).symm
      _ ≤ printed (scaled base second) * base ^ Nat.log base second :=
        mul_le_mul_of_nonneg_right (by exact_mod_cast above) (power _)
  · have order : scaled base first ≤ scaled base second := by
      rw [scaled_eq large bounded, scaled_eq large firstBounded, same]
      exact div_le_div_of_nonneg_right (by exact_mod_cast le) (power _)
    rw [same]
    exact mul_le_mul_of_nonneg_right (printed_mono order) (power _)

end Loop

theorem fixed_length {number : ℚ} (nonneg : 0 ≤ number) (small : number ≤ 1024) : (fixed number).bytes.length ≤ 6 := by
  have lower : 0 ≤ tenths number := le_halfEven (by push_cast; linarith)
  have upper : tenths number ≤ 10240 := halfEven_le (by push_cast; linarith)
  obtain ⟨n, count⟩ := Int.eq_ofNat_of_zero_le lower
  have whole := length_decimal_le (n := n / 10) (k := 4) (by decide) (by omega)
  have tenth := length_decimal_le (n := n % 10) (k := 1) (by decide) (by omega)
  unfold fixed
  rw [count, Text.append_bytes, Text.append_bytes, List.length_append, List.length_append]
  change (decimal (n / 10 : Nat)).bytes.length + 1 + (decimal (n % 10 : Nat)).bytes.length ≤ 6
  omega

/-- The text is a number with one decimal, a blank and a unit. -/
def Shows (text : Text) (number : ℚ) (unit : Text) : Prop :=
  ∃ whole digit : Nat, digit < 10 ∧ number = whole + (digit : ℚ) / 10 ∧
    text.bytes = (decimal whole).bytes ++ ([0x2E, UInt8.ofNat (0x30 + digit), 0x20] ++ unit.bytes)

theorem decimal_digit {digit : Nat} (small : digit < 10) :
    (decimal digit).bytes = [UInt8.ofNat (0x30 + digit)] := by
  interval_cases digit <;> rfl

/-- What is printed is read back. -/
theorem shows_fixed {number : ℚ} (nonneg : 0 ≤ number) (unit : Text) :
    Shows (fixed number ++ space ++ unit) (printed number) unit := by
  have lower : 0 ≤ tenths number := le_halfEven (by push_cast; linarith)
  obtain ⟨n, count⟩ := Int.eq_ofNat_of_zero_le lower
  have small : n % 10 < 10 := Nat.mod_lt n (by decide)
  refine ⟨n / 10, n % 10, small, ?_, ?_⟩
  · have split : (10 : ℚ) * (n / 10 : Nat) + (n % 10 : Nat) = n := by exact_mod_cast Nat.div_add_mod n 10
    rw [printed, count, Int.cast_natCast]
    linarith
  · rw [fixed, count]
    change (decimal (n / 10 : Nat)).bytes ++ [0x2E] ++ (decimal (n % 10 : Nat)).bytes ++ [0x20] ++ unit.bytes = _
    rw [decimal_digit small, List.append_assoc, List.append_assoc, List.append_assoc]
    rfl

/-- A text shows one number, with one unit. -/
theorem Shows.unique {text unit unit' : Text} {number number' : ℚ} (shows : Shows text number unit)
    (others : Shows text number' unit') : number = number' ∧ unit = unit' := by
  obtain ⟨whole, digit, small, rfl, bytes⟩ := shows
  obtain ⟨whole', digit', small', rfl, bytes'⟩ := others
  have ends (d : Byte) (rest : List Byte) : ∀ byte ∈ ([0x2E, d, 0x20] ++ rest).head?, isDigit byte = false := by
    rintro byte ⟨⟩
    rfl
  obtain ⟨wholes, rest⟩ := decimal_append_inj (ends _ _) (ends _ _) (bytes.symm.trans bytes')
  have equal : UInt8.ofNat (0x30 + digit) = UInt8.ofNat (0x30 + digit') ∧ unit.bytes = unit'.bytes := by
    simpa using rest
  have digits := congrArg UInt8.toNat equal.1
  rw [toNat_digit small, toNat_digit small'] at digits
  have same : whole = whole' ∧ digit = digit' := by omega
  obtain ⟨rfl, rfl⟩ := same
  refine ⟨rfl, ?_⟩
  cases unit
  cases unit'
  rw [Text.mk.injEq]
  exact equal.2

theorem prefixes_cases {base : Int} {table : List Text} (found : prefixes base = some table) :
    table = prefix1000 ∨ table = prefix1024 := by
  unfold prefixes at found
  split_ifs at found
  · exact .inl (Option.some.inj found).symm
  · exact .inr (Option.some.inj found).symm

theorem unit_length {base : Int} {table : List Text} (found : prefixes base = some table) :
    table.length = prefixlen ∧ ∀ unit ∈ table, unit.bytes.length ≤ 2 := by
  rcases prefixes_cases found with rfl | rfl
  · decide
  · decide

theorem first_empty {base : Int} {table : List Text} (found : prefixes base = some table) :
    table[0]? = some Text.empty := by
  rcases prefixes_cases found with rfl | rfl
  · rfl
  · rfl

theorem fmtHuman_eq {base : Nat} {table : List Text} (found : prefixes base = some table) (large : 1000 ≤ base)
    (small : base ≤ 1024) (num : UInt64) :
    ∃ unit, table[exponent base num.toNat]? = some unit ∧
      fmtHuman num base = some (some (fixed (scaled base num.toNat) ++ space ++ unit)) := by
  have bounded : num.toNat ≤ 2 ^ 64 := num.toNat_lt.le
  obtain ⟨length, short⟩ := unit_length found
  have inside : exponent base num.toNat < table.length := by
    rw [exponent_eq large bounded, length]
    exact (log_lt large bounded).trans (by decide)
  have below : scaled base num.toNat ≤ 1024 :=
    (scaled_lt large bounded).le.trans (by exact_mod_cast small)
  refine ⟨table[exponent base num.toNat], List.getElem?_eq_getElem inside, ?_⟩
  have fits : (fixed (scaled base num.toNat) ++ space ++ table[exponent base num.toNat]).bytes.length < 1024 := by
    have number := fixed_length (scaled_nonneg large bounded) below
    have unit := short _ (List.getElem_mem inside)
    rw [Text.append_bytes, Text.append_bytes, List.length_append, List.length_append]
    change _ + 1 + _ < 1024
    omega
  unfold fmtHuman
  rw [found]
  dsimp only
  rw [length]
  change (table[exponent base num.toNat]?.bind fun unit =>
    some (bprintf (fixed (scaled base num.toNat) ++ space ++ unit))) = _
  rw [List.getElem?_eq_getElem inside, Option.bind_some, bprintf_eq, if_pos fits]

theorem supported_cases {base : Int} (supported : base = 1000 ∨ base = 1024) :
    ∃ b : Nat, base = b ∧ 1000 ≤ b ∧ b ≤ 1024 ∧ ∃ table, prefixes b = some table := by
  rcases supported with rfl | rfl
  · exact ⟨1000, rfl, by decide, by decide, prefix1000, rfl⟩
  · exact ⟨1024, rfl, by decide, by decide, prefix1024, rfl⟩

/-- The index stays in the table, also for the number that a `double` rounds up to; the prefix is that
of the largest power which is not above the number; the text shows the printed mantissa, which is off by a twentieth
at most; and a larger number is never shown as a smaller quantity. -/
theorem fmtHuman_scales {base : Int} (supported : base = 1000 ∨ base = 1024) :
    ∃ table, prefixes base = some table ∧
      (∀ num : Nat, num ≤ 2 ^ 64 → exponent base num < table.length) ∧
      (∀ num : UInt64, ∃ text unit, table[exponent base num.toNat]? = some unit ∧
        fmtHuman num base = some (some text) ∧ Shows text (printed (scaled base num.toNat)) unit) ∧
      (∀ num : Nat, num < 2 ^ 64 →
        ((num : Int) < base → exponent base num = 0) ∧
        (base ≤ num → ∀ j, base ^ j ≤ num ↔ j ≤ exponent base num) ∧
        |printed (scaled base num) - num / base ^ exponent base num| ≤ 1 / 20) ∧
      ∀ first second : Nat, first ≤ second → second < 2 ^ 64 → denoted base first ≤ denoted base second := by
  obtain ⟨b, rfl, large, small, table, found⟩ := supported_cases supported
  refine ⟨table, found, ?_, ?_, ?_, ?_⟩
  · intro num bounded
    rw [exponent_eq large bounded, (unit_length found).1]
    exact (log_lt large bounded).trans (by decide)
  · intro num
    obtain ⟨unit, entry, shown⟩ := fmtHuman_eq found large small num
    exact ⟨_, unit, entry, shown, shows_fixed (scaled_nonneg large num.toNat_lt.le) unit⟩
  · intro num bounded
    rw [exponent_eq large bounded.le]
    refine ⟨?_, ?_, ?_⟩
    · intro below
      exact Nat.log_of_lt (by exact_mod_cast below)
    · intro above j
      have nonzero : num ≠ 0 := by omega
      rw [Nat.le_log_iff_pow_le (by omega) nonzero]
      exact_mod_cast Iff.rfl
    · rw [Int.cast_natCast, ← scaled_eq large bounded.le]
      exact printed_error (scaled b num)
  · intro first second le bounded
    exact denoted_mono large le bounded.le

theorem fmtHuman_scales_binary :
    ∃ table, prefixes 1024 = some table ∧ (∀ num : Nat, num ≤ 2 ^ 64 → exponent 1024 num < table.length) ∧
      (∃ text unit, fmtHuman 1536 1024 = some (some text) ∧ Shows text (3 / 2) unit) ∧
      ∀ first second : Nat, first ≤ second → second < 2 ^ 64 → denoted 1024 first ≤ denoted 1024 second := by
  obtain ⟨table, found, inside, shown, -, mono⟩ := fmtHuman_scales (.inr (rfl : (1024 : Int) = 1024))
  obtain ⟨text, unit, -, result, reads⟩ := shown 1536
  have half : printed (scaled 1024 (1536 : UInt64).toNat) = 3 / 2 := by decide +kernel
  exact ⟨table, found, inside, ⟨text, unit, result, half ▸ reads⟩, mono⟩

/-- The number in the text is below the base, and at least 1.0 in front of a prefix. -/
def Canonical (base : Int) (num : UInt64) : Prop :=
  ∃ text number unit, fmtHuman num base = some (some text) ∧ Shows text number unit ∧ number < base ∧
    (unit ≠ Text.empty → 1 ≤ number)

/-- The number is in none of the bands that reach from a twentieth of a unit below the next one up
to it. -/
def OutsideBands (base : Int) (num : Nat) : Prop :=
  ∀ j, (num : Int) < base ^ (j + 1) → 20 * num + base ^ j < 20 * base ^ (j + 1)

section Bands

variable {base num : Nat}

/-- The band of the unit that the number has. -/
theorem below_band_iff (large : 1000 ≤ base) (bounded : num ≤ 2 ^ 64) :
    scaled base num < base - 1 / 20 ↔
      20 * num + base ^ Nat.log base num < 20 * base ^ (Nat.log base num + 1) := by
  have cast : (20 * (num : ℚ) + base ^ Nat.log base num < 20 * base ^ (Nat.log base num + 1)) ↔
      20 * num + base ^ Nat.log base num < 20 * base ^ (Nat.log base num + 1) := by
    exact_mod_cast Iff.rfl
  rw [scaled_eq large bounded, div_lt_iff₀ (power_pos (by omega) _), ← cast, pow_succ]
  constructor <;> intro <;> linarith

/-- A number lies below the power above it, and in no other band. -/
theorem outsideBands_iff (large : 1000 ≤ base) (bounded : num ≤ 2 ^ 64) :
    OutsideBands base num ↔ scaled base num < base - 1 / 20 := by
  have outside : OutsideBands base num ↔ ∀ j, num < base ^ (j + 1) → 20 * num + base ^ j < 20 * base ^ (j + 1) := by
    unfold OutsideBands
    exact_mod_cast Iff.rfl
  have last := Nat.lt_pow_succ_log_self (b := base) (by omega) num
  rw [outside, below_band_iff large bounded]
  constructor
  · intro all
    exact all _ last
  · intro own j below
    rcases lt_trichotomy j (Nat.log base num) with less | rfl | more
    · have nonzero : num ≠ 0 := by
        rintro rfl
        rw [Nat.log_zero_right] at less
        omega
      have reached : base ^ (j + 1) ≤ num := Nat.pow_le_of_le_log nonzero less
      omega
    · exact own
    · have power : num < base ^ j := last.trans_le (Nat.pow_le_pow_right (by omega) more)
      have next : 1000 * base ^ j ≤ base ^ (j + 1) := by
        rw [pow_succ']
        exact Nat.mul_le_mul_right _ large
      omega

end Bands

/-- The text shows what is printed, and only a number below the base is too small for a prefix. -/
theorem canonical_iff_printed {base : Nat} {table : List Text} (found : prefixes base = some table)
    (large : 1000 ≤ base) (small : base ≤ 1024) (num : UInt64) :
    Canonical base num ↔ printed (scaled base num.toNat) < (base : Int) := by
  have bounded : num.toNat ≤ 2 ^ 64 := num.toNat_lt.le
  obtain ⟨unit, entry, shown⟩ := fmtHuman_eq found large small num
  have reads := shows_fixed (scaled_nonneg large bounded) unit
  constructor
  · rintro ⟨text, number, other, result, shows, below, -⟩
    cases shown.symm.trans result
    rwa [(reads.unique shows).1]
  · intro below
    refine ⟨_, _, unit, shown, reads, below, ?_⟩
    intro visible
    have nonzero : num.toNat ≠ 0 := by
      intro zero
      rw [exponent_eq large bounded, zero, Nat.log_zero_right, first_empty found] at entry
      exact visible (Option.some.inj entry).symm
    exact_mod_cast le_printed (n := 1) (by exact_mod_cast one_le_scaled large bounded nonzero)

/-- The prefix is chosen before the number is rounded: what is printed reaches the base exactly in
the bands. -/
theorem canonical_iff {base : Int} (supported : base = 1000 ∨ base = 1024) (num : UInt64) :
    Canonical base num ↔ OutsideBands base num.toNat := by
  obtain ⟨b, rfl, large, small, table, found⟩ := supported_cases supported
  rw [canonical_iff_printed found large small, outsideBands_iff large num.toNat_lt.le, printed_lt_iff,
    Int.cast_natCast]

theorem thousand_canonical : Canonical 1000 1000 := by
  refine (canonical_iff (.inl rfl) 1000).mpr ?_
  intro j below
  cases j with
  | zero => exact absurd below (by decide)
  | succ j =>
    change 20 * 1000 + 1000 ^ (j + 1) < 20 * (1000 : Int) ^ (j + 2)
    have power : (1 : Int) ≤ 1000 ^ j := one_le_pow₀ (by decide)
    rw [pow_succ, pow_succ, pow_succ]
    omega

/-- 999950 is shown as 1000.0 k, and 1048525 with the other base as 1024.0 Ki. -/
theorem mantissa_reaches_base :
    (fmtHuman 999950 1000 = some (some ⟨[0x31, 0x30, 0x30, 0x30, 0x2E, 0x30, 0x20, 0x6B], by decide⟩) ∧
        ¬ Canonical 1000 999950) ∧
      fmtHuman 1048525 1024 = some (some ⟨[0x31, 0x30, 0x32, 0x34, 0x2E, 0x30, 0x20, 0x4B, 0x69], by decide⟩) ∧
        ¬ Canonical 1024 1048525 := by
  have decimal : ¬ printed (scaled 1000 999950) < 1000 := by decide +kernel
  have binary : ¬ printed (scaled 1024 1048525) < 1024 := by decide +kernel
  have thousand := @canonical_iff_printed 1000 prefix1000 rfl (by decide) (by decide) 999950
  have power := @canonical_iff_printed 1024 prefix1024 rfl (by decide) (by decide) 1048525
  exact ⟨⟨by decide +kernel, thousand.not.mpr decimal⟩, by decide +kernel, power.not.mpr binary⟩

end SlStatus.FmtHuman
