import SlStatus.Display

/-! `vol_perc` of `components/volume.c` with the mixer device, on Linux. The number is not initialised: what is on the
stack is a parameter. The names of the channels come from a header of the system. -/

namespace SlStatus.OssVolume
open CString Display

/-- `"vol"`. -/
def vol : Text := ⟨[0x76, 0x6F, 0x6C], by decide⟩

/-- What the device answers: a file descriptor, the mask of its channels, and a number for each of them. -/
structure Device where
  opened : Bool
  devmask : Option Nat
  mixerRead : Nat → Option UInt32

section Function

variable (device : Device) (devmask : Nat)

/-- The loop from `i` on; nothing where a number cannot be read. -/
def readMaster : List Text → Nat → UInt32 → Option UInt32
  | [], _, v => some v
  | vname :: vnames, i, v =>
      if devmask.testBit i = true ∧ vname = vol then
        match device.mixerRead i with
        | none => none
        | some v => readMaster vnames (i + 1) v
      else readMaster vnames (i + 1) v

end Function

/-- The descriptors that are open afterwards, and what is returned. -/
def volPerc (vnames : List Text) (device : Device) (fds : Nat) (v : UInt32) : Nat × Option Text :=
  if device.opened = false then (fds, none)
  else
    let fds := fds + 1
    match device.devmask with
    | none => (fds - 1, none)
    | some devmask =>
        match readMaster device devmask vnames 0 v with
        | none => (fds - 1, none)
        | some v => (fds - 1, bprintf (decimal (v &&& 0xFF).toNat))

/-- The device has a channel of that name. -/
def HasMaster (vnames : List Text) (devmask : Nat) : Prop := ∃ i, vnames[i]? = some vol ∧ devmask.testBit i = true

section Loop

variable {device : Device} {devmask : Nat}

/-- Without the channel the number stays what it was. -/
theorem readMaster_absent {vnames : List Text} {i : Nat}
    (absent : ∀ j, vnames[j]? = some vol → devmask.testBit (i + j) ≠ true) (v : UInt32) :
    readMaster device devmask vnames i v = some v := by
  induction vnames generalizing i with
  | nil => rfl
  | cons vname vnames ih =>
    have other : ¬(devmask.testBit i = true ∧ vname = vol) := by
      rintro ⟨bit, rfl⟩
      exact absent 0 rfl bit
    rw [readMaster, if_neg other]
    apply ih
    intro j there
    have later := absent (j + 1) there
    rwa [show i + 1 + j = i + (j + 1) by omega]

/-- With it the number is not the one that was on the stack. -/
theorem readMaster_present {vnames : List Text} {i j : Nat} (there : vnames[j]? = some vol)
    (bit : devmask.testBit (i + j) = true) (v w : UInt32) :
    readMaster device devmask vnames i v = readMaster device devmask vnames i w := by
  induction vnames generalizing i j v w with
  | nil => cases there
  | cons vname vnames ih =>
    unfold readMaster
    split_ifs with here
    · rfl
    · cases j with
      | zero => exact absurd ⟨bit, Option.some.inj there⟩ here
      | succ j => exact ih there (by rwa [show i + 1 + j = i + (j + 1) by omega]) v w

end Loop

theorem bprintf_byte (v : UInt32) :
    bprintf (decimal (v &&& 0xFF).toNat) = some (decimal (v &&& 0xFF).toNat) := by
  have small : (v &&& 0xFF).toNat ≤ 255 := by
    rw [UInt32.toNat_and]
    exact Nat.and_le_right
  have length := @length_decimal_le (v &&& 0xFF).toNat 3 (by decide) (by omega)
  rw [bprintf_eq, if_pos (by omega)]

theorem absent_of_not {vnames : List Text} {devmask : Nat} (missing : ¬HasMaster vnames devmask) :
    ∀ j, vnames[j]? = some vol → devmask.testBit (0 + j) ≠ true := by
  intro j there bit
  rw [Nat.zero_add] at bit
  exact missing ⟨j, there, bit⟩

/-- Without the channel the text is made of what was on the stack. -/
theorem volPerc_absent {vnames : List Text} {device : Device} {devmask : Nat} (opened : device.opened = true)
    (answered : device.devmask = some devmask) (missing : ¬HasMaster vnames devmask) (fds : Nat) (v : UInt32) :
    volPerc vnames device fds v = (fds, some (decimal (v &&& 0xFF).toNat)) := by
  simp only [volPerc, opened, answered, readMaster_absent (absent_of_not missing), bprintf_byte, Bool.true_eq_false,
    if_false, Nat.add_sub_cancel]

/-- Every path closes the device, and what is shown depends on what was on the stack exactly if the device answers but
has no channel of the name; then it is the lowest byte of that. -/
theorem master_shown (vnames : List Text) (device : Device) (fds : Nat) :
    (∀ v, (volPerc vnames device fds v).1 = fds) ∧
    ((∀ v w, volPerc vnames device fds v = volPerc vnames device fds w) ↔
      (device.opened = true → ∀ devmask, device.devmask = some devmask → HasMaster vnames devmask)) ∧
    (device.opened = true → ∀ devmask, device.devmask = some devmask → ¬HasMaster vnames devmask →
      ∀ v, (volPerc vnames device fds v).2 = some (decimal (v &&& 0xFF).toNat)) := by
  refine ⟨?_, ?_, ?_⟩
  · intro v
    unfold volPerc
    split_ifs
    · rfl
    · cases device.devmask with
      | none => rfl
      | some devmask =>
        dsimp only
        cases readMaster device devmask vnames 0 v <;> rfl
  · constructor
    · intro same opened devmask answered
      by_contra missing
      have texts := congrArg Prod.snd (same 0 1)
      simp only [volPerc_absent opened answered missing, Option.some.injEq] at texts
      have different : decimal ((0 : UInt32) &&& 0xFF).toNat ≠ decimal ((1 : UInt32) &&& 0xFF).toNat := by decide
      exact different texts
    · intro master v w
      unfold volPerc
      split_ifs with closed
      · rfl
      · cases answered : device.devmask with
        | none => rfl
        | some devmask =>
          obtain ⟨i, there, bit⟩ := master (Bool.not_eq_false _ |>.mp closed) devmask answered
          dsimp only
          rw [@readMaster_present device devmask vnames 0 i there (by rwa [Nat.zero_add]) v w]
  · intro opened devmask answered missing v
    rw [volPerc_absent opened answered missing]

end SlStatus.OssVolume
