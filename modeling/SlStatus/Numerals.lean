import SlStatus.Display
import SlStatus.Scanf

/-! Numbers that are printed are read back. -/

namespace SlStatus.Numerals
open CString Display Scanf

theorem toNat_digit {digit : Nat} (small : digit < 10) : (UInt8.ofNat (0x30 + digit)).toNat = 0x30 + digit := by
  rw [UInt8.toNat_ofNat', Nat.mod_eq_of_lt (by omega)]

theorem isDigit_of_mem {n : Nat} {byte : Byte} (member : byte ∈ digits n) : isDigit byte = true := by
  unfold digits at member
  split_ifs at member with zero
  · rw [List.mem_singleton.mp member]
    rfl
  · obtain ⟨digit, inside, rfl⟩ := List.mem_map.mp member
    have small : digit < 10 := Nat.digits_lt_base (by decide) (List.mem_reverse.mp inside)
    simp only [isDigit, Bool.and_eq_true, decide_eq_true_eq, UInt8.le_iff_toNat_le, toNat_digit small]
    exact ⟨Nat.le_add_right _ _, Nat.add_le_add_left (Nat.le_of_lt_succ small) _⟩

theorem digits_ne_nil (n : Nat) : digits n ≠ [] := by
  unfold digits
  split_ifs with zero
  · exact List.cons_ne_nil _ _
  · rw [Ne, List.map_eq_nil_iff, List.reverse_eq_nil_iff]
    exact Nat.digits_ne_nil_iff_ne_zero.mpr zero

/-- The digits are printed from the highest on. -/
theorem digitsValue_map {list : List Nat} (small : ∀ digit ∈ list, digit < 10) :
    digitsValue (list.reverse.map fun digit => UInt8.ofNat (0x30 + digit)) = Nat.ofDigits 10 list := by
  induction list with
  | nil => rfl
  | cons digit list ih =>
    have rest := ih fun other member => small other (List.mem_cons_of_mem _ member)
    unfold digitsValue at rest ⊢
    rw [List.reverse_cons, List.map_append, List.foldl_append, rest, List.map_singleton, List.foldl_cons,
      List.foldl_nil, toNat_digit (small digit List.mem_cons_self), Nat.add_sub_cancel_left, Nat.ofDigits_cons,
      Nat.add_comm]

theorem digitsValue_digits (n : Nat) : digitsValue (digits n) = n := by
  unfold digits
  split_ifs with zero
  · exact zero.symm
  · rw [digitsValue_map fun _ => Nat.digits_lt_base (by decide), Nat.ofDigits_digits]

/-- At the end of the input there is no digit. -/
theorem ends_nil : ∀ byte ∈ ([] : List Byte).head?, isDigit byte = false :=
  fun _ member => absurd member (Option.not_mem_none _)

/-- Whatever follows, as long as no digit does. -/
theorem numeral_digits (n : Nat) {rest : List Byte} (ends : ∀ byte ∈ rest.head?, isDigit byte = false) :
    numeral (digits n ++ rest) = .value ⟨false, n⟩ := by
  have read := @Scanf.numeral_digits [] (digits n) rest nofun (digits_ne_nil n) (fun _ => isDigit_of_mem) ends
  rwa [digitsValue_digits, List.nil_append] at read

theorem numeral_decimal (n : Int) {rest : List Byte} (ends : ∀ byte ∈ rest.head?, isDigit byte = false) :
    numeral ((decimal n).bytes ++ rest) = .value ⟨n < 0, n.natAbs⟩ := by
  unfold decimal
  dsimp only
  split_ifs with negative
  · have run := takeWhile_digits (fun _ => isDigit_of_mem (n := n.natAbs)) ends
    rw [List.append_assoc, List.singleton_append, numeral, List.dropWhile_cons_of_neg (by decide)]
    dsimp only
    rw [if_pos rfl, unsigned, run, if_neg (digits_ne_nil _), digitsValue_digits, decide_eq_true negative]
  · rw [List.nil_append, numeral_digits n.natAbs ends, decide_eq_false negative]

/-- Two numbers before a character that is no digit. -/
theorem decimal_append_inj {n m : Int} {rest rest' : List Byte} (ends : ∀ byte ∈ rest.head?, isDigit byte = false)
    (ends' : ∀ byte ∈ rest'.head?, isDigit byte = false)
    (same : (decimal n).bytes ++ rest = (decimal m).bytes ++ rest') : n = m ∧ rest = rest' := by
  have read := (numeral_decimal n ends).symm.trans (same ▸ numeral_decimal m ends')
  simp only [Conversion.value.injEq, Numeral.mk.injEq, decide_eq_decide] at read
  obtain ⟨sign, magnitude⟩ := read
  have equal : n = m := by omega
  subst equal
  exact ⟨rfl, List.append_cancel_left same⟩

theorem eq_of_bytes {n m : Int} (same : (decimal n).bytes = (decimal m).bytes) : n = m := by
  have appended := congrArg (· ++ []) same
  exact (decimal_append_inj ends_nil ends_nil appended).1

theorem decimal_injective : Function.Injective decimal := fun _ _ same => eq_of_bytes (congrArg Text.bytes same)

/-- With the sign. -/
theorem length_decimal {n : Int} {k : Nat} (positive : 0 < k) (small : n.natAbs < 10 ^ k) :
    (decimal n).bytes.length ≤ k + 1 := by
  have length := length_digits_le positive small
  unfold decimal
  rw [List.length_append]
  split_ifs
  · rw [List.length_singleton]
    omega
  · rw [List.length_nil]
    omega

end SlStatus.Numerals
