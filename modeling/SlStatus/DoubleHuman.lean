import SlStatus.BinaryFloat
import SlStatus.FmtHuman

/-! `fmt_human` of `util.c` with its `double`: the conversion and each division are rounded. For numbers below
10^15 this changes neither the prefix nor, unless the quotient is a tie, the digits. -/

namespace SlStatus.DoubleHuman
open BinaryFloat CString Display FmtHuman HalfEven

/-- The loop, `left` passes before `i` is `prefixlen`. -/
def scaleDouble (base : ℚ) : Nat → Nat → ℚ → Nat × ℚ
  | 0, i, scaled => (i, scaled)
  | left + 1, i, scaled => if base ≤ scaled then scaleDouble base left (i + 1) (double (scaled / base)) else (i, scaled)

/-- No result where `prefix[i]` is read behind the end of the table. -/
def fmtHumanDouble (num : UInt64) (base : Int) : Option (Option Text) :=
  match prefixes base with
  | none => some none
  | some table => do
      let (i, scaled) := scaleDouble base table.length 0 (double (num.toNat : ℚ))
      let unit ← table[i]?
      return bprintf (fixed scaled ++ space ++ unit)

section Binary

variable {scaled : ℚ}

/-- A division by a power of two is exact. -/
theorem double_div (representable : Representable 53 scaled) : double (scaled / 1024) = scaled / 1024 := by
  have quotient : scaled / 1024 = scaled * 2 ^ (-10 : ℤ) := by
    rw [zpow_neg, div_eq_mul_inv]
    norm_num
  rw [quotient]
  exact nearest_of_representable (by decide) (representable.mul_zpow _)

theorem scaleDouble_binary (representable : Representable 53 scaled) (left i : Nat) :
    scaleDouble 1024 left i scaled = scale 1024 left i scaled := by
  induction left generalizing i scaled with
  | zero => rfl
  | succ left ih =>
    have quotient : Representable 53 (scaled / 1024) := by
      rw [← double_div representable]
      exact representable_nearest (by decide) _
    rw [scaleDouble, scale, double_div representable, ih quotient]

theorem fmtHumanDouble_binary {num : UInt64} (bits : num.toNat < 2 ^ 53) :
    fmtHumanDouble num 1024 = fmtHuman num 1024 := by
  have whole : |(num.toNat : ℤ)| < 2 ^ 53 := by
    rw [Nat.abs_cast]
    exact_mod_cast bits
  have representable := representable_intCast (K := ℚ) whole
  have exact := nearest_intCast (K := ℚ) whole
  rw [Int.cast_natCast] at representable exact
  unfold fmtHumanDouble fmtHuman
  rw [double, exact]
  cases prefixes 1024 with
  | none => rfl
  | some table =>
    have cast : ((1024 : ℤ) : ℚ) = 1024 := by norm_num
    dsimp only
    rw [cast, scaleDouble_binary representable]

end Binary

section Table

/-- Each pass takes away at least nine bits. -/
theorem scaleDouble_index {base scaled : ℚ} (large : 1000 ≤ base) (left : Nat) {i : Nat} (few : i ≤ 7)
    (bound : scaled ≤ 2 ^ (64 - 9 * i : ℤ)) : (scaleDouble base left i scaled).1 ≤ 7 := by
  induction left generalizing i scaled with
  | zero => exact few
  | succ left ih =>
    rw [scaleDouble]
    split_ifs with more
    · have fewer : i ≠ 7 := by
        rintro rfl
        norm_num at bound
        linarith
      apply ih (by omega)
      apply nearest_le (by decide) (representable_zpow (by decide) _)
      have next : (2 : ℚ) ^ (64 - 9 * i : ℤ) = 2 ^ (64 - 9 * (i + 1 : Nat) : ℤ) * 512 := by
        rw [show (512 : ℚ) = 2 ^ (9 : ℤ) by norm_num, ← zpow_add₀ two_ne_zero]
        congr 1
        push_cast
        ring
      have positive : (0 : ℚ) ≤ 2 ^ (64 - 9 * (i + 1 : Nat) : ℤ) := (zpow_pos two_pos _).le
      rw [div_le_iff₀ (by linarith)]
      calc
        scaled ≤ 2 ^ (64 - 9 * (i + 1 : Nat) : ℤ) * 512 := bound.trans next.le
        _ ≤ 2 ^ (64 - 9 * (i + 1 : Nat) : ℤ) * base := mul_le_mul_of_nonneg_left (by linarith) positive
    · exact few

theorem supported_of_prefixes {base : Int} {table : List Text} (found : prefixes base = some table) :
    base = 1000 ∨ base = 1024 := by
  unfold prefixes at found
  split_ifs at found with decimal binary
  · exact .inl decimal
  · exact .inr binary

/-- No number leads out of the table. -/
theorem fmtHumanDouble_ne_none (num : UInt64) (base : Int) : fmtHumanDouble num base ≠ none := by
  unfold fmtHumanDouble
  cases found : prefixes base with
  | none => nofun
  | some table =>
    have large : (1000 : ℚ) ≤ base := by
      rcases supported_of_prefixes found with rfl | rfl <;> norm_num
    have bound : double (num.toNat : ℚ) ≤ 2 ^ (64 - 9 * (0 : Nat) : ℤ) := by
      apply nearest_le (by decide) (representable_zpow (by decide) _)
      have power : (2 : ℚ) ^ (64 - 9 * (0 : Nat) : ℤ) = 2 ^ 64 := by norm_num
      rw [power]
      exact_mod_cast num.toNat_lt.le
    have index := scaleDouble_index large table.length (Nat.zero_le 7) bound
    have inside : (scaleDouble base table.length 0 (double (num.toNat : ℚ))).1 < table.length := by
      rw [(unit_length found).1] at index ⊢
      exact index.trans_lt (by decide)
    dsimp only
    rw [List.getElem?_eq_getElem inside]
    nofun

end Table

section Decimal

variable {base num : Nat}

/-- What the number has become after so many passes. -/
def rounded (base num : Nat) : Nat → ℚ
  | 0 => num
  | i + 1 => double (rounded base num i / base)

/-- A power that the number has reached is reached by what is left of it. -/
theorem le_rounded (positive : 0 < base) (bits : num < 2 ^ 53) {i j : Nat} (le : base ^ i * j ≤ num) :
    (j : ℚ) ≤ rounded base num i := by
  induction i generalizing j with
  | zero =>
    rw [rounded]
    exact_mod_cast (by simpa using le : j ≤ num)
  | succ i ih =>
    have divisor : (0 : ℚ) < base := Nat.cast_pos.mpr positive
    have before : ((base * j : Nat) : ℚ) ≤ rounded base num i := ih (by rwa [← mul_assoc, ← pow_succ])
    have small : j < 2 ^ 53 := by
      have power := Nat.one_le_pow (i + 1) base positive
      have le := (Nat.le_mul_of_pos_left j power).trans le
      omega
    have representable := representable_intCast (K := ℚ) (n := j) (p := 53)
      (by rw [Nat.abs_cast]; exact_mod_cast small)
    rw [Int.cast_natCast] at representable
    apply le_nearest (by decide) representable
    rw [le_div_iff₀ divisor, mul_comm]
    exact_mod_cast before

/-- Each pass adds at most two units to the relative error. -/
theorem rounded_error (positive : 0 < base) {i : Nat} (few : i ≤ 4) :
    |rounded base num i - (num : ℚ) / base ^ i| ≤ (num : ℚ) / base ^ i * (2 * i) / 2 ^ 53 := by
  induction i with
  | zero =>
    rw [rounded]
    simp
  | succ i ih =>
    have divisor : (0 : ℚ) < base := Nat.cast_pos.mpr positive
    have before := ih (by omega)
    have passes : (i : ℚ) ≤ 3 := by exact_mod_cast (by omega : i ≤ 3)
    have next : (num : ℚ) / base ^ (i + 1) = (num : ℚ) / base ^ i / base := by rw [pow_succ, div_div]
    have nonneg : (0 : ℚ) ≤ (num : ℚ) / base ^ i / base := by positivity
    have quotient : |rounded base num i / base - (num : ℚ) / base ^ i / base| ≤
        (num : ℚ) / base ^ i / base * (2 * i) / 2 ^ 53 := by
      rw [← sub_div, abs_div, abs_of_pos divisor, div_le_iff₀ divisor]
      calc
        _ ≤ (num : ℚ) / base ^ i * (2 * i) / 2 ^ 53 := before
        _ = (num : ℚ) / base ^ i / base * (2 * i) / 2 ^ 53 * base := by field_simp
    have error : |double (rounded base num i / base) - rounded base num i / base| ≤
        |rounded base num i / base| / 2 ^ 53 := nearest_relative 53 _
    rw [rounded, next]
    generalize (num : ℚ) / base ^ i / base = exact at quotient nonneg ⊢
    generalize rounded base num i / base = stored at quotient error ⊢
    have slack : exact * (2 * i) / 2 ^ 53 ≤ exact := by
      rw [div_le_iff₀ (by norm_num)]
      exact mul_le_mul_of_nonneg_left (by linarith) nonneg
    have size : |stored| ≤ 2 * exact := by
      have triangle := abs_sub_abs_le_abs_sub stored exact
      rw [abs_of_nonneg nonneg] at triangle
      linarith
    calc
      |double stored - exact| ≤ |double stored - stored| + |stored - exact| := abs_sub_le _ _ _
      _ ≤ 2 * exact / 2 ^ 53 + exact * (2 * i) / 2 ^ 53 := by linarith
      _ = exact * (2 * (i + 1 : Nat)) / 2 ^ 53 := by
        push_cast
        ring

/-- Multiplied back, it is closer to the number than any other integer is. -/
theorem rounded_near (positive : 0 < base) (small : num * 8 < 2 ^ 53) {i : Nat} (few : i ≤ 4) :
    |rounded base num i * base ^ i - num| < 1 := by
  have power : (0 : ℚ) < base ^ i := pow_pos (Nat.cast_pos.mpr positive) i
  have passes : (i : ℚ) ≤ 4 := by exact_mod_cast few
  have bits : (num : ℚ) * 8 < 2 ^ 53 := by exact_mod_cast small
  have nonneg : (0 : ℚ) ≤ num := Nat.cast_nonneg num
  have scaled : rounded base num i * base ^ i - num = (rounded base num i - (num : ℚ) / base ^ i) * base ^ i := by
    rw [sub_mul, div_mul_cancel₀ _ power.ne']
  calc
    |rounded base num i * base ^ i - num| = |rounded base num i - (num : ℚ) / base ^ i| * base ^ i := by
      rw [scaled, abs_mul, abs_of_pos power]
    _ ≤ (num : ℚ) / base ^ i * (2 * i) / 2 ^ 53 * base ^ i :=
      mul_le_mul_of_nonneg_right (rounded_error positive few) power.le
    _ = num * (2 * i) / 2 ^ 53 := by field_simp
    _ ≤ num * 8 / 2 ^ 53 := by gcongr; linarith
    _ < 1 := (div_lt_one (by norm_num)).mpr bits

/-- The rounded loop goes on exactly when the exact one does. -/
theorem rounded_goes_on_iff (positive : 0 < base) (small : num * 8 < 2 ^ 53) {i : Nat} (few : i ≤ 4) :
    (base : ℚ) ≤ rounded base num i ↔ base ^ (i + 1) ≤ num := by
  constructor
  · intro reached
    by_contra less
    have power : (0 : ℚ) < base ^ i := pow_pos (Nat.cast_pos.mpr positive) i
    have near := (abs_lt.mp (rounded_near positive small few)).2
    have next : (num : ℚ) + 1 ≤ base ^ (i + 1) := by exact_mod_cast (by omega : num + 1 ≤ base ^ (i + 1))
    have product : (base : ℚ) ^ (i + 1) ≤ rounded base num i * base ^ i := by
      rw [pow_succ']
      exact mul_le_mul_of_nonneg_right reached power.le
    linarith
  · intro le
    exact le_rounded positive (by omega) (by rwa [← pow_succ])

theorem scaleDouble_eq (large : 1 < base) (small : num * 8 < 2 ^ 53) (few : Nat.log base num ≤ 4) {left i : Nat}
    (reached : i ≤ Nat.log base num) (enough : Nat.log base num ≤ i + left) :
    scaleDouble base left i (rounded base num i) = (Nat.log base num, rounded base num (Nat.log base num)) := by
  have positive := Nat.zero_lt_of_lt large
  induction left generalizing i with
  | zero =>
    have same : i = Nat.log base num := by omega
    rw [scaleDouble, ← same]
  | succ left ih =>
    have condition := rounded_goes_on_iff positive small (reached.trans few)
    unfold scaleDouble
    split_ifs with more
    · have next := Nat.le_log_of_pow_le large (condition.mp more)
      exact ih next (by omega)
    · have last : num < base ^ (i + 1) := lt_of_not_ge fun le => more (condition.mpr le)
      have same : Nat.log base num = i := by
        have below := Nat.log_lt_of_lt_pow' (Nat.succ_ne_zero i) last
        omega
      rw [same]

/-- A tie between two tenths, multiplied back, is an integer. -/
theorem sameSide_rounded (small : num * 8 < 2 ^ 53) {i : Nat} (few : i ≤ 4) (n : Int) :
    (10 * ((num : ℚ) / 1000 ^ i) < n - 1 / 2 → 10 * rounded 1000 num i < n - 1 / 2) ∧
      (n - 1 / 2 < 10 * ((num : ℚ) / 1000 ^ i) → n - 1 / 2 < 10 * rounded 1000 num i) := by
  cases i with
  | zero =>
    rw [rounded, pow_zero, div_one]
    exact ⟨id, id⟩
  | succ i =>
    obtain ⟨low, high⟩ := abs_lt.mp (@rounded_near 1000 num (by decide) small (i + 1) few)
    rw [Nat.cast_ofNat] at low high
    have power : (0 : ℚ) < 1000 ^ (i + 1) := by positivity
    have tie : ((n : ℚ) - 1 / 2) * 1000 ^ (i + 1) = 10 * ((2 * n - 1) * 50 * 1000 ^ i : Int) := by
      push_cast
      ring
    constructor
    · intro less
      rw [← mul_div_assoc, div_lt_iff₀ power, tie] at less
      have below : (num : ℚ) < ((2 * n - 1) * 50 * 1000 ^ i : Int) := by linarith
      have step : (num : ℚ) + 1 ≤ ((2 * n - 1) * 50 * 1000 ^ i : Int) := by exact_mod_cast below
      apply lt_of_mul_lt_mul_right _ power.le
      rw [tie]
      linarith
    · intro greater
      rw [← mul_div_assoc, lt_div_iff₀ power, tie] at greater
      have beyond : (((2 * n - 1) * 50 * 1000 ^ i : Int) : ℚ) < num := by linarith
      have step : (((2 * n - 1) * 50 * 1000 ^ i : Int) : ℚ) + 1 ≤ num := by exact_mod_cast beyond
      apply lt_of_mul_lt_mul_right _ power.le
      rw [tie]
      linarith

end Decimal

section Text

/-- A number of tenths in front of a prefix. -/
def shown (t : Int) (unit : Text) : Text := fixed ((t : ℚ) / 10) ++ space ++ unit

/-- What is printed of a number is a number of tenths. -/
theorem fixed_eq (number : ℚ) (unit : Text) : fixed number ++ space ++ unit = shown (tenths number) unit := by
  have same : tenths ((tenths number : ℚ) / 10) = tenths number := by
    have cancel : 10 * ((tenths number : ℚ) / 10) = tenths number := by ring
    rw [tenths, cancel, halfEven_intCast]
  rw [shown, fixed, fixed, same]

/-- The two texts may differ in the tenth that the quotient is rounded to when it is half-way between two. -/
def Tied (num : UInt64) (k : Int) (unit : Text) : Prop :=
  10 * scaled 1000 num.toNat = k - 1 / 2 ∧
    (fmtHuman num 1000 = some (some (shown (k - 1) unit)) ∧ fmtHumanDouble num 1000 = some (some (shown k unit)) ∨
      fmtHuman num 1000 = some (some (shown k unit)) ∧ fmtHumanDouble num 1000 = some (some (shown (k - 1) unit)))

theorem log_le_four {num : Nat} (small : num < 10 ^ 15) : Nat.log 1000 num ≤ 4 := by
  have less : Nat.log 1000 num < 5 := Nat.log_lt_of_lt_pow' (by decide) (small.trans_eq (by norm_num))
  omega

theorem fmtHumanDouble_decimal {num : UInt64} (small : num.toNat < 10 ^ 15) :
    ∃ unit, fmtHuman num 1000 = some (some (shown (tenths (scaled 1000 num.toNat)) unit)) ∧
      fmtHumanDouble num 1000 =
        some (some (shown (tenths (rounded 1000 num.toNat (Nat.log 1000 num.toNat))) unit)) := by
  have bounded : num.toNat ≤ 2 ^ 64 := num.toNat_lt.le
  have few := log_le_four small
  have bits : num.toNat * 8 < 2 ^ 53 := by omega
  have whole : |(num.toNat : ℤ)| < 2 ^ 53 := by
    rw [Nat.abs_cast]
    omega
  have exact := nearest_intCast (K := ℚ) whole
  rw [Int.cast_natCast] at exact
  obtain ⟨unit, entry, text⟩ := @fmtHuman_eq 1000 prefix1000 rfl (by decide) (by decide) num
  rw [exponent_eq (by decide) bounded] at entry
  have loop := @scaleDouble_eq 1000 num.toNat (by decide) bits few prefixlen 0 (Nat.zero_le _)
    (by unfold prefixlen; omega)
  have low : 0 ≤ rounded 1000 num.toNat (Nat.log 1000 num.toNat) := by
    have reached := @le_rounded 1000 num.toNat (by decide) (by omega)
      (Nat.log 1000 num.toNat) 0 (by omega)
    rwa [Nat.cast_zero] at reached
  have high : rounded 1000 num.toNat (Nat.log 1000 num.toNat) ≤ 1024 := by
    have last : ¬1000 ^ (Nat.log 1000 num.toNat + 1) ≤ num.toNat :=
      not_le_of_gt (Nat.lt_pow_succ_log_self (by decide) num.toNat)
    have stopped := mt (@rounded_goes_on_iff 1000 num.toNat (by decide) bits _ few).mp last
    push_cast at stopped
    linarith
  have fits : (fixed (rounded 1000 num.toNat (Nat.log 1000 num.toNat)) ++ space ++ unit).bytes.length < 1024 := by
    have number := fixed_length low high
    have short := (@unit_length 1000 prefix1000 rfl).2 unit (List.mem_of_getElem? entry)
    rw [Text.append_bytes, Text.append_bytes, List.length_append, List.length_append]
    change _ + 1 + _ < 1024
    omega
  have stop : scaleDouble ((1000 : Int) : ℚ) prefix1000.length 0 (double (num.toNat : ℚ)) =
      (Nat.log 1000 num.toNat, rounded 1000 num.toNat (Nat.log 1000 num.toNat)) := by
    rw [double, exact]
    exact loop
  refine ⟨unit, text.trans (by rw [fixed_eq]; rfl), ?_⟩
  change (prefix1000[(scaleDouble ((1000 : Int) : ℚ) prefix1000.length 0 (double (num.toNat : ℚ))).1]?.bind
    fun unit => some (bprintf
      (fixed (scaleDouble ((1000 : Int) : ℚ) prefix1000.length 0 (double (num.toNat : ℚ))).2 ++ space ++ unit))) = _
  rw [stop, entry, Option.bind_some, bprintf_eq, if_pos fits, fixed_eq]

/-- In `double`, no number leads out of the table. With the base 1024 the text is the exact one for all numbers
of 53 bits; with any base it is for all below 10^15, save that a tie may go to the other tenth. -/
theorem fmtHuman_rounded :
    (∀ num base, fmtHumanDouble num base ≠ none) ∧
    (∀ num, num.toNat < 2 ^ 53 → fmtHumanDouble num 1024 = fmtHuman num 1024) ∧
    ∀ num base, num.toNat < 10 ^ 15 →
      fmtHumanDouble num base = fmtHuman num base ∨ base = 1000 ∧ ∃ k unit, Tied num k unit := by
  refine ⟨fmtHumanDouble_ne_none, fun num bits => fmtHumanDouble_binary bits, ?_⟩
  intro num base small
  cases found : prefixes base with
  | none =>
    left
    rw [fmtHumanDouble, fmtHuman, found]
  | some table =>
    rcases supported_of_prefixes found with rfl | rfl
    · obtain ⟨unit, exact, text⟩ := fmtHumanDouble_decimal small
      have value : scaled 1000 num.toNat = (num.toNat : ℚ) / 1000 ^ Nat.log 1000 num.toNat :=
        @scaled_eq 1000 num.toNat (by decide) num.toNat_lt.le
      have sides := @sameSide_rounded num.toNat (by omega) _ (log_le_four small)
      simp only [← value] at sides
      rcases halfEven_of_sameSide sides with same | ⟨k, tie, ⟨one, other⟩ | ⟨one, other⟩⟩
      · left
        rw [exact, text, tenths, tenths, same]
      · rw [tenths, one] at exact
        rw [tenths, other] at text
        exact .inr ⟨rfl, k, unit, tie, .inl ⟨exact, text⟩⟩
      · rw [tenths, one] at exact
        rw [tenths, other] at text
        exact .inr ⟨rfl, k, unit, tie, .inr ⟨exact, text⟩⟩
    · exact .inl (fmtHumanDouble_binary (by omega))

/-- The tie of 1150 is not one in `double`, where the quotient is a little smaller. -/
theorem fmtHuman_rounded_tie :
    Tied 1150 12 (character 0x6B (by decide)) ∧ fmtHumanDouble 1150 1000 ≠ fmtHuman 1150 1000 := by
  have tied : Tied 1150 12 (character 0x6B (by decide)) := by
    refine ⟨by decide +kernel, .inr ⟨by decide +kernel, by decide +kernel⟩⟩
  exact ⟨tied, by decide +kernel⟩

end Text

end SlStatus.DoubleHuman
