import SlStatus.Walk
import SlStatus.Wifi

/-! Where `findattr` goes and where it stops, told by the bytes alone. Its walk ends unless it
comes to an attribute of length zero and another type, where it stays for good. -/

namespace SlStatus.AttributeWalk
open CString Netlink Wifi Walk

def Header (bytes : List Byte) (p nla_len nla_type : Nat) : Prop :=
  read 2 bytes p = some nla_len ∧ read 2 bytes (p + 2) = some nla_type

/-- The loop of `findattr` goes from one attribute to the next. -/
def Passes (attr : Nat) (bytes : List Byte) (e p q : Nat) : Prop :=
  p < e ∧ ∃ nla_len nla_type, Header bytes p nla_len nla_type ∧ nla_type ≠ attr ∧ q = p + align nla_len

/-- An attribute of length zero that is not the one looked for. -/
def Idle (attr : Nat) (bytes : List Byte) (e p : Nat) : Prop :=
  p < e ∧ ∃ nla_type, Header bytes p 0 nla_type ∧ nla_type ≠ attr

/-- How the loop is left at a position. -/
inductive Stops (attr : Nat) (bytes : List Byte) (e p : Nat) : Except Stop (Option (Nat × Nat)) → Prop where
  | atEnd (reached : e ≤ p) : Stops attr bytes e p (.ok none)
  | found {nla_len : Nat} (before : p < e) (header : Header bytes p nla_len attr) :
      Stops attr bytes e p (.ok (some (p + NLA_HDRLEN, (nla_len + 2 ^ 64 - NLA_HDRLEN) % 2 ^ 64)))
  | fault (before : p < e) (beyond : bytes.length < p + NLA_HDRLEN) : Stops attr bytes e p (.error .fault)

theorem header_or_beyond (bytes : List Byte) (p : Nat) :
    (∃ nla_len nla_type, Header bytes p nla_len nla_type) ∨ bytes.length < p + NLA_HDRLEN := by
  by_cases inside : p + 4 ≤ bytes.length
  · have length : p + 2 ≤ bytes.length := by omega
    have type : p + 2 + 2 ≤ bytes.length := by omega
    exact .inl ⟨_, _, if_pos length, if_pos type⟩
  · exact .inr (Nat.lt_of_not_le inside)

theorem Header.inside {bytes : List Byte} {p nla_len nla_type : Nat} (header : Header bytes p nla_len nla_type) :
    p + 4 ≤ bytes.length := by
  have type := header.2
  unfold Netlink.read at type
  split_ifs at type
  omega

theorem Header.unique {bytes : List Byte} {p nla_len nla_type otherLen otherType : Nat}
    (header : Header bytes p nla_len nla_type) (other : Header bytes p otherLen otherType) :
    nla_len = otherLen ∧ nla_type = otherType :=
  ⟨Option.some.inj (header.1.symm.trans other.1), Option.some.inj (header.2.symm.trans other.2)⟩

theorem align_eq_zero_iff (n : Nat) : align n = 0 ↔ n = 0 := by
  unfold align
  omega

theorem passes_self_iff {attr : Nat} {bytes : List Byte} {e p : Nat} :
    Passes attr bytes e p p ↔ Idle attr bytes e p := by
  constructor
  · rintro ⟨before, nla_len, nla_type, header, other, same⟩
    have zero : nla_len = 0 := (align_eq_zero_iff nla_len).mp (by omega)
    subst nla_len
    exact ⟨before, nla_type, header, other⟩
  · rintro ⟨before, nla_type, header, other⟩
    exact ⟨before, 0, nla_type, header, other, rfl⟩

theorem passes_onward {attr : Nat} {bytes : List Byte} {e p q : Nat} (move : Passes attr bytes e p q) :
    q = p ∨ e - q < e - p := by
  obtain ⟨before, nla_len, -, -, -, rfl⟩ := move
  omega

theorem findattr_passes {attr : Nat} {bytes : List Byte} {e p q : Nat} (steps : Nat)
    (move : Passes attr bytes e p q) : findattr attr bytes (steps + 1) p e = findattr attr bytes steps q e := by
  obtain ⟨before, nla_len, nla_type, ⟨length, type⟩, other, rfl⟩ := move
  simp only [findattr, if_pos before, length, type, if_neg other]

theorem findattr_stops {attr : Nat} {bytes : List Byte} {e p : Nat} {result : Except Stop (Option (Nat × Nat))}
    (steps : Nat) (stops : Stops attr bytes e p result) : findattr attr bytes (steps + 1) p e = result := by
  cases stops with
  | atEnd reached => simp only [findattr, if_neg (Nat.not_lt.mpr reached)]
  | found before header => simp only [findattr, if_pos before, header.1, header.2, if_true]
  | fault before beyond =>
    have unreadable : read 2 bytes (p + 2) = none := if_neg (Nat.not_le.mpr beyond)
    cases length : read 2 bytes p <;> simp only [findattr, if_pos before, length, unreadable]

theorem Stops.ended {attr : Nat} {bytes : List Byte} {e p : Nat} {result : Except Stop (Option (Nat × Nat))}
    (stops : Stops attr bytes e p result) : result ≠ .error .running := by
  cases stops <;> simp

theorem passes_or_stops (attr : Nat) (bytes : List Byte) (e p : Nat) :
    (∃ q, Passes attr bytes e p q) ∨ ∃ result, Stops attr bytes e p result := by
  by_cases before : p < e
  · rcases header_or_beyond bytes p with ⟨nla_len, nla_type, header⟩ | beyond
    · by_cases same : nla_type = attr
      · subst nla_type
        exact .inr ⟨_, .found before header⟩
      · exact .inl ⟨_, before, nla_len, nla_type, header, same, rfl⟩
    · exact .inr ⟨_, .fault before beyond⟩
  · exact .inr ⟨_, .atEnd (Nat.le_of_not_lt before)⟩

/-- What a search comes to, given steps enough. -/
def Finds (attr : Nat) (bytes : List Byte) (e p : Nat) (result : Except Stop (Option (Nat × Nat))) : Prop :=
  ∃ q, Reaches (Passes attr bytes e) p q ∧ Stops attr bytes e q result

theorem findattr_iff {attr : Nat} {bytes : List Byte} {e p : Nat} {result : Except Stop (Option (Nat × Nat))}
    (ended : result ≠ .error .running) :
    (∃ steps, findattr attr bytes steps p e = result) ↔ Finds attr bytes e p result := by
  constructor
  · rintro ⟨steps, found⟩
    induction steps generalizing p with
    | zero =>
      simp only [findattr] at found
      split_ifs at found with before
      · exact absurd found.symm ended
      · exact ⟨p, .refl, found ▸ .atEnd (Nat.le_of_not_lt before)⟩
    | succ steps ih =>
      rcases passes_or_stops attr bytes e p with ⟨q, move⟩ | ⟨other, stops⟩
      · rw [findattr_passes steps move] at found
        obtain ⟨last, walk, stops⟩ := ih found
        exact ⟨last, .head move walk, stops⟩
      · rw [findattr_stops steps stops] at found
        exact ⟨p, .refl, found ▸ stops⟩
  · rintro ⟨q, walk, stops⟩
    apply walk.passesBack fun p => ∃ steps, findattr attr bytes steps p e = result
    · rintro p q move ⟨steps, found⟩
      exact ⟨steps + 1, (findattr_passes steps move).trans found⟩
    · exact ⟨1, findattr_stops 0 stops⟩

/-- The walk comes to stand still. -/
def Stalls (attr : Nat) (bytes : List Byte) (e p : Nat) : Prop :=
  ∃ q, Reaches (Passes attr bytes e) p q ∧ Idle attr bytes e q

theorem findattr_idle {attr : Nat} {bytes : List Byte} {e p : Nat} (idle : Idle attr bytes e p) (steps : Nat) :
    findattr attr bytes steps p e = .error .running := by
  induction steps with
  | zero => simp only [findattr, if_pos idle.1]
  | succ steps ih => rw [findattr_passes steps (passes_self_iff.mpr idle), ih]

theorem findattr_stalls {attr : Nat} {bytes : List Byte} {e p : Nat} (stalls : Stalls attr bytes e p) (steps : Nat) :
    findattr attr bytes steps p e = .error .running := by
  obtain ⟨q, walk, idle⟩ := stalls
  revert steps
  apply walk.passesBack fun p => ∀ steps, findattr attr bytes steps p e = .error .running
  · intro p q move running steps
    cases steps with
    | zero => simp only [findattr, if_pos move.1]
    | succ steps => rw [findattr_passes steps move, running steps]
  · exact findattr_idle idle

/-- The search ends exactly when its walk does not come to stand still. -/
theorem findattr_ends_iff {attr : Nat} {bytes : List Byte} {e p : Nat} :
    (∃ steps, findattr attr bytes steps p e ≠ .error .running) ↔ ¬Stalls attr bytes e p := by
  constructor
  · rintro ⟨steps, ended⟩ stalls
    exact ended (findattr_stalls stalls steps)
  · intro moving
    have still : ∀ q, ¬Idle attr bytes e q → ¬Passes attr bytes e q q := fun q => mt passes_self_iff.mp
    apply induction_of_moving (motive := fun p => ∃ steps, findattr attr bytes steps p e ≠ .error .running)
      (fun p => e - p) (fun _ _ => passes_onward) still
    · intro p _ later
      rcases passes_or_stops attr bytes e p with ⟨q, move⟩ | ⟨result, stops⟩
      · obtain ⟨steps, ended⟩ := later q move
        exact ⟨steps + 1, findattr_passes steps move ▸ ended⟩
      · exact ⟨1, findattr_stops 0 stops ▸ stops.ended⟩
    · intro q walk idle
      exact moving ⟨q, walk, idle⟩

theorem passes_advances_iff {attr : Nat} {bytes : List Byte} {e p : Nat} :
    (∀ q q', Reaches (Passes attr bytes e) p q → Passes attr bytes e q q' → q < q') ↔ ¬Stalls attr bytes e p := by
  have rising : ∀ q q', Passes attr bytes e q q' → (q < q' ↔ e - q' < e - q) := by
    rintro q q' ⟨before, nla_len, -, -, -, rfl⟩
    omega
  calc
    _ ↔ ∀ q q', Reaches (Passes attr bytes e) p q → Passes attr bytes e q q' → e - q' < e - q :=
      forall₄_congr fun q q' _ move => rising q q' move
    _ ↔ ∀ q, Reaches (Passes attr bytes e) p q → ¬Passes attr bytes e q q :=
      advances_iff (fun p => e - p) (fun _ _ => passes_onward) p
    _ ↔ _ := by simp only [passes_self_iff, Stalls, not_exists, not_and]

theorem bind_settled {Value Result : Type} {few many : Except Stop Value}
    {fewNext manyNext : Value → Except Stop Result}
    (first : few ≠ .error .running → many = few)
    (second : ∀ value, few = .ok value → fewNext value ≠ .error .running → manyNext value = fewNext value)
    (ended : few.bind fewNext ≠ .error .running) : many.bind manyNext = few.bind fewNext := by
  cases result : few with
  | error stop =>
    have halted : few ≠ .error .running := by
      intro running
      simp [running, Except.bind] at ended
    rw [first halted, result]
    rfl
  | ok value =>
    rw [result] at ended
    rw [first (by simp [result]), result]
    exact second value result ended

/-- A result that is there after some steps is the same after more. -/
def Settles {Value : Type} (run : Nat → Except Stop Value) : Prop :=
  ∀ steps, run steps ≠ .error .running → run (steps + 1) = run steps

namespace Settles

variable {Value Result : Type} {run : Nat → Except Stop Value} {next : Nat → Value → Except Stop Result}

theorem of_le (settles : Settles run) {few many : Nat} (le : few ≤ many) (ended : run few ≠ .error .running) :
    run many = run few := by
  induction le with
  | refl => rfl
  | step _ ih => rw [settles _ (ih ▸ ended), ih]

theorem unique (settles : Settles run) {few many : Nat} (first : run few ≠ .error .running)
    (second : run many ≠ .error .running) : run few = run many := by
  rcases Nat.le_total few many with le | le
  · exact (settles.of_le le first).symm
  · exact settles.of_le le second

theorem bind (first : Settles run) (second : ∀ value, Settles fun steps => next steps value) :
    Settles fun steps => (run steps).bind (next steps) := by
  intro steps
  exact bind_settled (first steps) fun value _ => second value steps

theorem ends_bind (first : Settles run) (second : ∀ value, Settles fun steps => next steps value)
    (ends : ∃ steps, run steps ≠ .error .running)
    (later : ∀ value, (∃ steps, run steps = .ok value) → ∃ steps, next steps value ≠ .error .running) :
    ∃ steps, (run steps).bind (next steps) ≠ .error .running := by
  obtain ⟨few, ended⟩ := ends
  cases result : run few with
  | error stop =>
    refine ⟨few, fun running => ended ?_⟩
    simp only [result, Except.bind, Except.error.injEq] at running ⊢
    exact running
  | ok value =>
    obtain ⟨many, nextEnded⟩ := later value ⟨few, result⟩
    refine ⟨max few many, ?_⟩
    rw [first.of_le (Nat.le_max_left few many) ended, result]
    rwa [← (second value).of_le (Nat.le_max_right few many) nextEnded] at nextEnded

end Settles

theorem findattr_settles (attr : Nat) (bytes : List Byte) (p e : Nat) :
    Settles fun steps => findattr attr bytes steps p e := by
  intro steps ended
  dsimp only at ended ⊢
  induction steps generalizing p with
  | zero =>
    simp only [findattr] at ended ⊢
    split_ifs at ended ⊢ with before
    · exact absurd rfl ended
    · rfl
  | succ steps ih =>
    rcases passes_or_stops attr bytes e p with ⟨q, move⟩ | ⟨result, stops⟩
    · rw [findattr_passes _ move] at ended ⊢
      rw [ih q ended, findattr_passes steps move]
    · rw [findattr_stops _ stops, findattr_stops _ stops]

end SlStatus.AttributeWalk
