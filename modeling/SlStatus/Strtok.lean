import Mathlib.Data.List.TakeWhile

/-! `strtok` over any alphabet: the cursor that it keeps, the tokens that calling it until nothing
is left gives, and that these are the ones a text was spelled from. -/

namespace SlStatus.Strtok

variable {Letter : Type*} (separator : Letter → Bool)

/-- The token, and the cursor behind the separator that ends it. -/
def strtok (cursor : List Letter) : Option (List Letter × List Letter) :=
  match cursor.dropWhile separator with
  | [] => none
  | first :: rest =>
      some (first :: rest.takeWhile fun letter => !separator letter,
        (rest.dropWhile fun letter => !separator letter).drop 1)

variable {separator} in
theorem strtok_shorter {cursor tok behind : List Letter} (found : strtok separator cursor = some (tok, behind)) :
    behind.length < cursor.length := by
  unfold strtok at found
  split at found
  · cases found
  · next first rest start =>
    cases found
    have skipped := List.length_dropWhile_le separator cursor
    have word := List.length_dropWhile_le (fun letter => !separator letter) rest
    rw [start, List.length_cons] at skipped
    rw [List.length_drop]
    omega

/-- What the calls return, one after another. -/
def tokens (cursor : List Letter) : List (List Letter) :=
  match _found : strtok separator cursor with
  | none => []
  | some (tok, behind) => tok :: tokens behind
termination_by cursor.length
decreasing_by exact strtok_shorter _found

/-- The text has these tokens in this order, behind a run of separators each and with one at the end.
The first run and the last may be empty; the runs between two tokens are not. -/
def Spelled : List Letter → List (List Letter) → Prop
  | text, [] => ∀ letter ∈ text, separator letter = true
  | text, tok :: toks =>
      ∃ run rest, text = run ++ tok ++ rest ∧ (∀ letter ∈ run, separator letter = true) ∧
        tok ≠ [] ∧ (∀ letter ∈ tok, separator letter = false) ∧
        (∀ letter ∈ rest.head?, separator letter = true) ∧ Spelled rest toks

section

variable {separator}

theorem tokens_of_none {cursor : List Letter} (nothing : strtok separator cursor = none) :
    tokens separator cursor = [] := by
  rw [tokens]
  split
  · rfl
  · next tok behind found =>
    rw [nothing] at found
    cases found

theorem tokens_of_some {cursor tok behind : List Letter} (found : strtok separator cursor = some (tok, behind)) :
    tokens separator cursor = tok :: tokens separator behind := by
  rw [tokens]
  split
  · next nothing =>
    rw [nothing] at found
    cases found
  · next same =>
    rw [found] at same
    cases same
    rfl

theorem strtok_separators {run : List Letter} (all : ∀ letter ∈ run, separator letter = true) :
    strtok separator run = none := by
  unfold strtok
  rw [List.dropWhile_eq_nil_iff.mpr all]

/-- One separator more in front changes nothing. -/
theorem tokens_drop_one {rest : List Letter} (begins : ∀ letter ∈ rest.head?, separator letter = true) :
    tokens separator (rest.drop 1) = tokens separator rest := by
  cases rest with
  | nil => rfl
  | cons letter rest =>
    have same : strtok separator (letter :: rest) = strtok separator rest := by
      unfold strtok
      rw [List.dropWhile_cons_of_pos (begins letter rfl)]
    rw [List.drop_one, List.tail_cons]
    cases found : strtok separator rest with
    | none => rw [tokens_of_none found, tokens_of_none (same.trans found)]
    | some pair => rw [tokens_of_some found, tokens_of_some (same.trans found)]

/-- A token ends at the first separator behind it. -/
theorem strtok_token {run tok rest : List Letter} (all : ∀ letter ∈ run, separator letter = true) (visible : tok ≠ [])
    (solid : ∀ letter ∈ tok, separator letter = false) (ends : ∀ letter ∈ rest.head?, separator letter = true) :
    strtok separator (run ++ tok ++ rest) = some (tok, rest.drop 1) := by
  obtain ⟨first, word, rfl⟩ := List.exists_cons_of_ne_nil visible
  have start : (run ++ (first :: word) ++ rest).dropWhile separator = first :: (word ++ rest) := by
    rw [List.append_assoc, List.dropWhile_append_of_pos all, List.cons_append,
      List.dropWhile_cons_of_neg (by simp [solid first])]
  have inside : ∀ letter ∈ word, (!separator letter) = true := by
    intro letter member
    rw [solid letter (List.mem_cons_of_mem first member), Bool.not_false]
  have taken : rest.takeWhile (fun letter => !separator letter) = [] := by
    cases rest with
    | nil => rfl
    | cons letter rest => exact List.takeWhile_cons_of_neg (by simp [ends letter rfl])
  have dropped : rest.dropWhile (fun letter => !separator letter) = rest := by
    cases rest with
    | nil => rfl
    | cons letter rest => exact List.dropWhile_cons_of_neg (by simp [ends letter rfl])
  unfold strtok
  rw [start]
  dsimp only
  rw [List.takeWhile_append_of_pos inside, List.dropWhile_append_of_pos inside, taken, dropped, List.append_nil]

theorem tokens_spelled {text : List Letter} {toks : List (List Letter)} (spelled : Spelled separator text toks) :
    tokens separator text = toks := by
  induction toks generalizing text with
  | nil => exact tokens_of_none (strtok_separators spelled)
  | cons tok toks ih =>
    obtain ⟨run, rest, rfl, all, visible, solid, ends, spelled⟩ := spelled
    rw [tokens_of_some (strtok_token all visible solid ends), tokens_drop_one ends, ih spelled]

end

end SlStatus.Strtok
