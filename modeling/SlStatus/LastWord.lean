import Mathlib.Data.List.Basic

/-! What is last said by the elements of a list, each of which may say nothing. -/

namespace SlStatus.LastWord

variable {α β : Type*}

def lastSome (f : α → Option β) : List α → Option β
  | [] => none
  | a :: rest => (lastSome f rest).or (f a)

theorem lastSome_append (f : α → Option β) (front back : List α) :
    lastSome f (front ++ back) = (lastSome f back).or (lastSome f front) := by
  induction front with
  | nil => simp [lastSome]
  | cons a front ih => rw [List.cons_append, lastSome, ih, lastSome, Option.or_assoc]

theorem lastSome_concat (f : α → Option β) (front : List α) (a : α) :
    lastSome f (front ++ [a]) = (f a).or (lastSome f front) := by
  rw [lastSome_append]
  simp [lastSome]

theorem lastSome_mem {f : α → Option β} {list : List α} {b : β} (said : lastSome f list = some b) :
    ∃ a ∈ list, f a = some b := by
  induction list with
  | nil => cases said
  | cons a rest ih =>
    rcases Option.or_eq_some_iff.mp said with later | ⟨-, here⟩
    · obtain ⟨other, member, speaks⟩ := ih later
      exact ⟨other, List.mem_cons_of_mem _ member, speaks⟩
    · exact ⟨a, List.mem_cons_self, here⟩

theorem lastSome_eq_none {f : α → Option β} {list : List α} (silent : ∀ a ∈ list, f a = none) :
    lastSome f list = none := by
  cases said : lastSome f list with
  | none => rfl
  | some b =>
    obtain ⟨a, member, speaks⟩ := lastSome_mem said
    rw [silent a member] at speaks
    cases speaks

theorem isSome_lastSome {f : α → Option β} {list : List α} {a : α} (member : a ∈ list) (speaks : (f a).isSome) :
    (lastSome f list).isSome := by
  induction list with
  | nil => cases member
  | cons other rest ih =>
    rw [lastSome, Option.isSome_or, Bool.or_eq_true]
    rcases List.mem_cons.mp member with rfl | member
    · exact .inr speaks
    · exact .inl (ih member)

/-- Every element of the one kind has one of the other kind behind it. -/
def Followed (p q : α → Prop) : List α → Prop
  | [] => True
  | a :: rest => (p a → ∃ b ∈ rest, q b) ∧ Followed p q rest

theorem Followed.imp {p p' q q' : α → Prop} {list : List α} (followed : Followed p q list)
    (fewer : ∀ a ∈ list, p' a → p a) (more : ∀ a ∈ list, q a → q' a) : Followed p' q' list := by
  induction list with
  | nil => trivial
  | cons a rest ih =>
    obtain ⟨here, behind⟩ := followed
    refine ⟨?_, ?_⟩
    · intro first
      obtain ⟨b, member, second⟩ := here (fewer a List.mem_cons_self first)
      exact ⟨b, member, more b (List.mem_cons_of_mem _ member) second⟩
    · exact ih behind (fun b member => fewer b (List.mem_cons_of_mem _ member))
        fun b member => more b (List.mem_cons_of_mem _ member)

theorem Followed.append {p q : α → Prop} {list added : List α} (followed : Followed p q list)
    (other : ∀ a ∈ added, ¬p a) : Followed p q (list ++ added) := by
  induction list with
  | nil =>
    induction added with
    | nil => trivial
    | cons a added ih =>
      refine ⟨fun first => absurd first (other a List.mem_cons_self), ?_⟩
      exact ih fun b member => other b (List.mem_cons_of_mem _ member)
  | cons a rest ih =>
    obtain ⟨here, behind⟩ := followed
    refine ⟨?_, ih behind⟩
    intro first
    obtain ⟨b, member, second⟩ := here first
    exact ⟨b, List.mem_append_left _ member, second⟩

theorem followed_concat {p q : α → Prop} (list : List α) {b : α} (other : ¬p b) (last : q b) :
    Followed p q (list ++ [b]) := by
  induction list with
  | nil => exact ⟨fun first => absurd first other, trivial⟩
  | cons a rest ih => exact ⟨fun _ => ⟨b, List.mem_append_right _ (List.mem_singleton_self b), last⟩, ih⟩

/-- A change of what is said in front of something that is said counts for nothing. -/
theorem lastSome_congr {f f' : α → Option β} {list : List α}
    (covered : Followed (fun a => f' a ≠ f a) (fun b => (f b).isSome) list) : lastSome f' list = lastSome f list := by
  induction list with
  | nil => rfl
  | cons a rest ih =>
    obtain ⟨here, behind⟩ := covered
    rw [lastSome, lastSome, ih behind]
    by_cases same : f' a = f a
    · rw [same]
    · obtain ⟨b, member, speaks⟩ := here same
      obtain ⟨word, said⟩ := Option.isSome_iff_exists.mp (isSome_lastSome member speaks)
      rw [said, Option.some_or, Option.some_or]

theorem lastSome_bind_none {γ : Type*} {f : α → Option β} {list : List α} (silent : lastSome f list = none)
    (g : β → Option γ) : lastSome (fun a => (f a).bind g) list = none := by
  apply lastSome_eq_none
  intro a member
  cases speaks : f a with
  | none => rfl
  | some word =>
    have said : (lastSome f list).isSome := isSome_lastSome member (by rw [speaks, Option.isSome_some])
    rw [silent] at said
    cases said

/-- If words are changed or taken back and the last is not taken back, it stays the last. -/
theorem lastSome_bind_some {γ : Type*} {f : α → Option β} {g : β → Option γ} {list : List α} {b : β} {c : γ}
    (said : lastSome f list = some b) (kept : g b = some c) : lastSome (fun a => (f a).bind g) list = some c := by
  induction list with
  | nil => cases said
  | cons a rest ih =>
    rcases Option.or_eq_some_iff.mp said with later | ⟨silent, here⟩
    · rw [lastSome, ih later, Option.some_or]
    · rw [lastSome, lastSome_bind_none silent g, Option.none_or, here, Option.bind_some, kept]

end SlStatus.LastWord
