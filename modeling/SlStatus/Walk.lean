import Mathlib.Logic.Relation

/-! Loops that go from place to place. Each step comes nearer to the end or stands still, and
a walk that comes to a place where it stands still never ends. -/

namespace SlStatus.Walk
open Relation

variable {Place : Type*} {goes : Place → Place → Prop}

abbrev Reaches (goes : Place → Place → Prop) : Place → Place → Prop := ReflTransGen goes

/-- What is kept by every step is kept by a walk. -/
theorem Reaches.keeps (holds : Place → Prop) (preserved : ∀ p q, holds p → goes p q → holds q)
    {first last : Place} (walk : Reaches goes first last) (initial : holds first) : holds last := by
  induction walk with
  | refl => exact initial
  | tail _ move ih => exact preserved _ _ ih move

/-- What a step passes back is passed back by a walk. -/
theorem Reaches.passesBack (holds : Place → Prop) (preserved : ∀ p q, goes p q → holds q → holds p)
    {first last : Place} (walk : Reaches goes first last) (final : holds last) : holds first := by
  induction walk using ReflTransGen.head_induction_on with
  | refl => exact final
  | head move _ ih => exact preserved _ _ move ih

section Rank
variable (rank : Place → Nat) (onward : ∀ p q, goes p q → q = p ∨ rank q < rank p)
include onward

/-- Every step comes strictly nearer to the end unless the walk comes to stand still. -/
theorem advances_iff (first : Place) :
    (∀ p q, Reaches goes first p → goes p q → rank q < rank p) ↔ ∀ p, Reaches goes first p → ¬goes p p := by
  constructor
  · intro advances p walk still
    exact Nat.lt_irrefl _ (advances p p walk still)
  · intro moving p q walk move
    rcases onward p q move with rfl | nearer
    · exact absurd move (moving q walk)
    · exact nearer

/-- Induction along a walk that comes only to places where it does not stand still. -/
theorem induction_of_moving {clear motive : Place → Prop} (still : ∀ p, clear p → ¬goes p p)
    (moving : ∀ p, clear p → (∀ q, goes p q → motive q) → motive p) {first : Place}
    (never : ∀ p, Reaches goes first p → clear p) : motive first := by
  induction distance : rank first using Nat.strongRecOn generalizing first with
  | ind distance ih =>
    have here : clear first := never first .refl
    apply moving first here
    intro q move
    rcases onward first q move with rfl | nearer
    · exact absurd move (still q here)
    · apply ih (rank q) (distance ▸ nearer) _ rfl
      intro p walk
      exact never p (.head move walk)

end Rank

end SlStatus.Walk
