import Mathlib.Data.Fintype.EquivFin
import Mathlib.Data.List.Flatten
import Mathlib.Data.List.Perm.Basic
import Mathlib.Logic.Function.Basic

/-! Memory that is allocated and given back in blocks, beside the list of the blocks that its program holds
pointers to. -/

namespace SlStatus.Ownership

variable {Block Content : Type}

/-- What is in the blocks that are allocated. -/
abbrev Store (Block Content : Type) := Block → Option Content

section Operations

variable [DecidableEq Block]

/-- Giving back what is not allocated is undefined. -/
def Store.free (store : Store Block Content) (b : Block) : Option (Store Block Content) :=
  if (store b).isSome then some (Function.update store b none) else none

/-- A pointer that is not null is given back. -/
def Store.release (store : Store Block Content) : Option Block → Option (Store Block Content)
  | none => some store
  | some b => store.free b

def Store.put (store : Store Block Content) (b : Block) (content : Content) : Store Block Content :=
  Function.update store b (some content)

/-- A copy in a new block. -/
def Store.strdup (malloc : Store Block Content → Block) (store : Store Block Content) (content : Content) :
    Block × Store Block Content := (malloc store, store.put (malloc store) content)

/-- A pointer is given back and overwritten with one to a copy. -/
def Store.renew (malloc : Store Block Content → Block) (store : Store Block Content) (p : Option Block)
    (content : Content) : Option (Block × Store Block Content) :=
  (store.release p).map fun store => store.strdup malloc content

end Operations

/-- What a pointer leads to, if it is not null. -/
def Store.read (store : Store Block Content) : Option Block → Option (Option Content)
  | none => some none
  | some b => (store b).map some

/-- The blocks are distinct, and no other is allocated. -/
structure Owns (store : Store Block Content) (owned : List Block) : Prop where
  nodup : owned.Nodup
  live : ∀ b, (store b).isSome ↔ b ∈ owned

/-- The allocator hands out a block that is not allocated, whatever finitely many are. -/
def Allocates (malloc : Store Block Content → Block) : Prop :=
  ∀ store owned, Owns store owned → store (malloc store) = none

/-- The two agree on these blocks. -/
def Kept (store store' : Store Block Content) (blocks : List Block) : Prop := ∀ b ∈ blocks, store' b = store b

theorem Kept.refl (store : Store Block Content) (blocks : List Block) : Kept store store blocks := fun _ _ => rfl

theorem Kept.trans {store middle store' : Store Block Content} {blocks : List Block} (early : Kept store middle blocks)
    (late : Kept middle store' blocks) : Kept store store' blocks :=
  fun b member => (late b member).trans (early b member)

theorem Kept.mono {store store' : Store Block Content} {blocks fewer : List Block} (kept : Kept store store' blocks)
    (within : fewer ⊆ blocks) : Kept store store' fewer := fun b member => kept b (within member)

theorem Kept.read {store store' : Store Block Content} {p : Option Block} (kept : Kept store store' p.toList) :
    store'.read p = store.read p := by
  cases p with
  | none => rfl
  | some b => exact congrArg (Option.map some) (kept b (List.mem_singleton_self b))

theorem owns_nothing : Owns (fun _ => none : Store Block Content) [] := by
  constructor
  · exact List.nodup_nil
  · intro b
    simp

theorem Owns.perm {store : Store Block Content} {owned owned' : List Block} (owns : Owns store owned)
    (same : owned.Perm owned') : Owns store owned' :=
  ⟨same.nodup_iff.mp owns.nodup, fun b => (owns.live b).trans same.mem_iff⟩

theorem Owns.live_of_mem {store : Store Block Content} {owned : List Block} (owns : Owns store owned) {b : Block}
    (member : b ∈ owned) : ∃ content, store b = some content :=
  Option.isSome_iff_exists.mp ((owns.live b).mpr member)

/-- Once nothing is owned, nothing is allocated. -/
theorem Owns.empty {store : Store Block Content} (owns : Owns store []) (b : Block) : store b = none := by
  apply Option.not_isSome_iff_eq_none.mp
  intro live
  exact List.not_mem_nil ((owns.live b).mp live)

/-- Where there are infinitely many blocks, such an allocator exists. -/
theorem exists_allocates [Infinite Block] : ∃ malloc : Store Block Content → Block, Allocates malloc := by
  classical
  refine ⟨fun store => Classical.epsilon fun b => store b = none, ?_⟩
  intro store owned owns
  obtain ⟨b, outside⟩ := Infinite.exists_notMem_finset owned.toFinset
  apply Classical.epsilon_spec (p := fun b => store b = none)
  refine ⟨b, Option.not_isSome_iff_eq_none.mp fun live => outside ?_⟩
  exact List.mem_toFinset.mpr ((owns.live b).mp live)

section Steps

variable [DecidableEq Block] {store : Store Block Content} {owned rest : List Block}

/-- What is owned is given back without touching the rest. -/
theorem Owns.release {p : Option Block} (owns : Owns store (p.toList ++ rest)) :
    ∃ store', store.release p = some store' ∧ Owns store' rest ∧ Kept store store' rest := by
  cases p with
  | none => exact ⟨store, rfl, owns, Kept.refl store rest⟩
  | some b =>
    obtain ⟨notRest, nodup⟩ := List.nodup_cons.mp owns.nodup
    have live : (store b).isSome := (owns.live b).mpr List.mem_cons_self
    refine ⟨Function.update store b none, if_pos live, ⟨nodup, ?_⟩, ?_⟩
    · intro c
      by_cases same : c = b
      · simpa [same] using notRest
      · rw [Function.update_of_ne same, owns.live c]
        simp [same]
    · intro c member
      exact Function.update_of_ne (ne_of_mem_of_not_mem member notRest) _ _

/-- A copy is owned beside the rest. -/
theorem Owns.strdup {malloc : Store Block Content → Block} (allocates : Allocates malloc) (owns : Owns store owned)
    (content : Content) :
    Owns (store.strdup malloc content).2 ((store.strdup malloc content).1 :: owned) ∧
      (store.strdup malloc content).2 (store.strdup malloc content).1 = some content ∧
      Kept store (store.strdup malloc content).2 owned := by
  have unused := allocates store owned owns
  have outside : malloc store ∉ owned := by
    intro member
    obtain ⟨old, read⟩ := owns.live_of_mem member
    exact absurd (unused.symm.trans read) (Option.some_ne_none old).symm
  refine ⟨⟨List.nodup_cons.mpr ⟨outside, owns.nodup⟩, ?_⟩, Function.update_self .., ?_⟩
  · intro b
    change (Function.update store (malloc store) (some content) b).isSome ↔ b ∈ malloc store :: owned
    by_cases same : b = malloc store
    · simp [same]
    · rw [Function.update_of_ne same, owns.live b]
      simp [same]
  · intro b member
    exact Function.update_of_ne (ne_of_mem_of_not_mem member outside) _ _

theorem Owns.renew {malloc : Store Block Content → Block} (allocates : Allocates malloc) {p : Option Block}
    (owns : Owns store (p.toList ++ rest)) (content : Content) :
    ∃ b store', store.renew malloc p content = some (b, store') ∧ Owns store' (b :: rest) ∧
      store' b = some content ∧ Kept store store' rest := by
  obtain ⟨freed, released, owns', kept⟩ := owns.release
  obtain ⟨owns'', copied, kept'⟩ := owns'.strdup allocates content
  exact ⟨_, _, by rw [Store.renew, released, Option.map_some], owns'', copied, kept.trans kept'⟩

end Steps

/-- What the elements of a list own splits at one of them, whatever it is replaced by. -/
theorem flatMap_split {α : Type} (owner : α → List Block) {queue : List α} {i : Nat} {entry : α}
    (here : queue[i]? = some entry) :
    ∃ rest, (queue.flatMap owner).Perm (owner entry ++ rest) ∧
      (∀ entry', ((queue.set i entry').flatMap owner).Perm (owner entry' ++ rest)) ∧
      ∀ j other, j ≠ i → queue[j]? = some other → owner other ⊆ rest := by
  induction queue generalizing i with
  | nil => simp at here
  | cons first queue ih =>
    cases i with
    | zero =>
      obtain rfl : first = entry := by simpa using here
      refine ⟨queue.flatMap owner, List.Perm.refl _, fun _ => List.Perm.refl _, ?_⟩
      intro j other different there
      cases j with
      | zero => exact absurd rfl different
      | succ j =>
        intro b member
        exact List.mem_flatMap.mpr ⟨other, List.mem_of_getElem? there, member⟩
    | succ i =>
      obtain ⟨rest, split, replaced, others⟩ := ih here
      have moved : ∀ blocks tail, List.Perm tail (blocks ++ rest) →
          List.Perm (owner first ++ tail) (blocks ++ (owner first ++ rest)) :=
        fun blocks tail same => (same.append_left _).trans (List.perm_append_comm_assoc _ blocks rest)
      refine ⟨owner first ++ rest, moved _ _ split, fun entry' => moved _ _ (replaced entry'), ?_⟩
      intro j other different there
      cases j with
      | zero =>
        obtain rfl : first = other := by simpa using there
        exact List.subset_append_left _ _
      | succ j =>
        intro b member
        exact List.mem_append_right _ (others j other (fun same => different (congrArg _ same)) there member)

end SlStatus.Ownership
