import SlStatus.CString
import SlStatus.Scanf
import SlStatus.Strtok

/-! `get_layout` of `components/keymap.c`. Rules and additional groups are tokens like the layouts;
they are passed over, and do not count. -/

namespace SlStatus.Keymap
open CString Scanf Strtok

/-- `"+:_"`. -/
def isSeparator (byte : Byte) : Bool := byte = 0x2B || byte = 0x3A || byte = 0x5F

/-- `"evdev"`, `"inet"`, `"pc"` and `"base"`. -/
def invalid : List (List Byte) :=
  [[0x65, 0x76, 0x64, 0x65, 0x76], [0x69, 0x6E, 0x65, 0x74], [0x70, 0x63], [0x62, 0x61, 0x73, 0x65]]

def validLayoutOrVariant (sym : List Byte) : Bool := !invalid.any fun word => word.isPrefixOf sym

def singleDigit (tok : List Byte) : Bool := tok.length = 1 && tok.head?.any isDigit

/-- The loop, with the cursor that `strtok` keeps. -/
def layoutLoop (grpNum : Int) (cursor : List Byte) (grp : Int) (layout : Option (List Byte)) : Option (List Byte) :=
  match _found : strtok isSeparator cursor with
  | none => layout
  | some (tok, behind) =>
      if grp ≤ grpNum then
        if !validLayoutOrVariant tok then layoutLoop grpNum behind grp layout
        -- :2, :3, :4
        else if singleDigit tok then layoutLoop grpNum behind grp layout
        else layoutLoop grpNum behind (grp + 1) (some tok)
      else layout
termination_by cursor.length
decreasing_by all_goals exact strtok_shorter _found

/-- None for `NULL`. -/
def getLayout (syms : Text) (grpNum : Int) : Option (List Byte) := layoutLoop grpNum syms.bytes 0 none

/-- A token that names no layout. -/
def Ignorable (tok : List Byte) : Prop :=
  (∃ digit, tok = [digit] ∧ isDigit digit = true) ∨ ∃ word ∈ invalid, word <+: tok

theorem ignorable_iff (tok : List Byte) :
    Ignorable tok ↔ validLayoutOrVariant tok = false ∨ singleDigit tok = true := by
  have words : (∃ word ∈ invalid, word <+: tok) ↔ validLayoutOrVariant tok = false := by
    unfold validLayoutOrVariant
    rw [Bool.not_eq_false', List.any_eq_true]
    simp only [List.isPrefixOf_iff_prefix]
  have digit : (∃ digit, tok = [digit] ∧ isDigit digit = true) ↔ singleDigit tok = true := by
    unfold singleDigit
    rw [Bool.and_eq_true, decide_eq_true_eq, List.length_eq_one_iff]
    constructor
    · rintro ⟨digit, rfl, isDigit⟩
      exact ⟨⟨digit, rfl⟩, isDigit⟩
    · rintro ⟨⟨digit, rfl⟩, isDigit⟩
      exact ⟨digit, rfl, isDigit⟩
  unfold Ignorable
  rw [words, digit, or_comm]

instance (tok : List Byte) : Decidable (Ignorable tok) := decidable_of_iff _ (ignorable_iff tok).symm

/-- The tokens that name layouts. -/
def layouts (toks : List (List Byte)) : List (List Byte) := toks.filter fun tok => ¬ Ignorable tok

section Tokens

variable {tok : List Byte} {toks : List (List Byte)}

theorem layouts_ignorable (ignorable : Ignorable tok) : layouts (tok :: toks) = layouts toks :=
  List.filter_cons_of_neg (by simpa using ignorable)

theorem layouts_layout (layout : ¬ Ignorable tok) : layouts (tok :: toks) = tok :: layouts toks :=
  List.filter_cons_of_pos (by simpa using layout)

end Tokens

/-- From group `grp` on the loop goes through the layouts, and keeps the last that is not above `grpNum`. -/
theorem layoutLoop_eq (grpNum : Int) (cursor : List Byte) (grp : Int) (layout : Option (List Byte)) :
    layoutLoop grpNum cursor grp layout =
      ((layouts (tokens isSeparator cursor)).take (grpNum + 1 - grp).toNat).getLast?.or layout := by
  fun_induction layoutLoop grpNum cursor grp layout with
  | case1 cursor grp layout nothing =>
    rw [tokens_of_none nothing, layouts, List.filter_nil, List.take_nil, List.getLast?_nil, Option.none_or]
  | case2 cursor grp layout tok behind found within rule ih =>
    have ignorable : Ignorable tok := (ignorable_iff tok).mpr (.inl (by simpa using rule))
    rw [ih, tokens_of_some found, layouts_ignorable ignorable]
  | case3 cursor grp layout tok behind found within valid digit ih =>
    have ignorable : Ignorable tok := (ignorable_iff tok).mpr (.inr digit)
    rw [ih, tokens_of_some found, layouts_ignorable ignorable]
  | case4 cursor grp layout tok behind found within valid longer ih =>
    have counted : ¬ Ignorable tok := by
      rw [ignorable_iff]
      simpa using And.intro valid longer
    have groups : (grpNum + 1 - grp).toNat = (grpNum + 1 - (grp + 1)).toNat + 1 := by omega
    rw [ih, tokens_of_some found, layouts_layout counted, groups, List.take_succ_cons, List.getLast?_cons]
    cases List.getLast? _ with
    | none => rfl
    | some last => rfl
  | case5 cursor grp layout tok behind found above =>
    have groups : (grpNum + 1 - grp).toNat = 0 := by omega
    rw [groups, List.take_zero, List.getLast?_nil, Option.none_or]

/-- The layouts occur among the tokens in their order, and every other token is ignorable. -/
theorem getLayout_selects {names toks : List (List Byte)} {syms : Text} (spelled : Spelled isSeparator syms.bytes toks)
    (occur : layouts toks = names) (grpNum : Nat) :
    (∀ inside : grpNum < names.length, getLayout syms grpNum = some names[grpNum]) ∧
      (names.length ≤ grpNum → 0 < names.length → getLayout syms grpNum = names.getLast?) ∧
      (getLayout syms grpNum = none ↔ names = []) := by
  have chosen : getLayout syms grpNum = (names.take (grpNum + 1)).getLast? := by
    unfold getLayout
    rw [layoutLoop_eq, tokens_spelled spelled, occur, Option.or_none]
    rfl
  rw [chosen]
  refine ⟨?_, ?_, ?_⟩
  · intro inside
    rw [List.getLast?_take, if_neg (Nat.succ_ne_zero grpNum), Nat.add_sub_cancel, List.getElem?_eq_getElem inside,
      Option.some_or]
  · intro beyond _
    rw [List.take_of_length_le (by omega)]
  · rw [List.getLast?_eq_none_iff, List.take_eq_nil_iff, or_iff_right (Nat.succ_ne_zero grpNum)]

/-- `"pc+us:2"`. -/
def symbols : Text := ⟨[0x70, 0x63, 0x2B, 0x75, 0x73, 0x3A, 0x32], by decide⟩

/-- `"us"` is the last layout also of the second group. -/
theorem second_group : getLayout symbols 1 = some [0x75, 0x73] := by
  have spelled : Spelled isSeparator symbols.bytes [[0x70, 0x63], [0x75, 0x73], [0x32]] := by
    refine ⟨[], [0x2B, 0x75, 0x73, 0x3A, 0x32], rfl, ?_, List.cons_ne_nil _ _, ?_, ?_, ?_⟩
    · exact List.forall_mem_nil _
    · simp [isSeparator]
    · simp [isSeparator]
    refine ⟨[0x2B], [0x3A, 0x32], rfl, ?_, List.cons_ne_nil _ _, ?_, ?_, ?_⟩
    · simp [isSeparator]
    · simp [isSeparator]
    · simp [isSeparator]
    exact ⟨[0x3A], [], rfl, by simp [isSeparator], List.cons_ne_nil _ _, by simp [isSeparator], by simp,
      List.forall_mem_nil _⟩
  have occur : layouts [[0x70, 0x63], [0x75, 0x73], [0x32]] = [[0x75, 0x73]] := by decide
  exact (getLayout_selects spelled occur 1).2.1 (by decide) (by decide)

end SlStatus.Keymap
