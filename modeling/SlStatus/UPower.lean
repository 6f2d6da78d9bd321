import Mathlib.Algebra.Order.Ring.Unbundled.Rat
import SlStatus.Caches
import SlStatus.Display

/-! `components/upower.c`. A percentage is a finite `gdouble`, hence rational, and is only
copied, compared and cut off. -/

namespace SlStatus.UPower
open CString Display Caches

variable {Dev : Type*}

def UP_DEVICE_STATE_DISCHARGING : Int := 2

structure Properties where
  kind : Int
  model : Option Text
  percentage : ℚ
  state : Int
  deriving DecidableEq

/-- What libupower answers. -/
structure Client (Dev : Type*) where
  devices : List Dev
  nativePath : Dev → Text
  properties : Dev → Properties

/-- `upower_t`. The struct does not name its device: `gdevice` is the object that the entry's
handler is connected to. -/
structure Upower (Dev : Type*) where
  device : Text
  gdevice : Dev
  model : Option Text
  percentage : ℚ
  kind : Int
  state : Int
  deriving DecidableEq

/-- `"percentage"`. -/
def percentageName : Text := ⟨[0x70, 0x65, 0x72, 0x63, 0x65, 0x6E, 0x74, 0x61, 0x67, 0x65], by decide⟩

/-- The second component tells whether `SIGRTMIN + UPOWER_SIGNAL` is raised. -/
def upowerDeviceCallback (properties : Properties) (name : Text) (upower : Upower Dev) : Upower Dev × Bool :=
  if name = percentageName then
    if properties.percentage ≠ upower.percentage then
      ({ upower with percentage := properties.percentage }, true)
    else (upower, false)
  else if name = stateName then
    if properties.state ≠ upower.state then ({ upower with state := properties.state }, true)
    else (upower, false)
  else (upower, false)

def upowerUpdateFromDevice (upower : Upower Dev) (properties : Properties) : Upower Dev × Bool :=
  ({ upower with
    kind := properties.kind
    model := properties.model
    percentage := properties.percentage
    state := properties.state }, true)

/-- The first device with the native path. -/
def Client.owner (client : Client Dev) (device : Text) : Option Dev :=
  client.devices.find? fun gdevice => client.nativePath gdevice = device

def newEntry (client : Client Dev) (device : Text) (gdevice : Dev) : Upower Dev :=
  let upower : Upower Dev := { device, gdevice, model := none, percentage := 0, kind := 0, state := 0 }
  (upowerUpdateFromDevice upower (client.properties gdevice)).1

/-- There is no client if `upower_init` got none. -/
def upowerFind (client : Option (Client Dev)) (queue : List (Upower Dev)) (device : Text) :
    Option (Upower Dev) × List (Upower Dev) :=
  match client with
  | none => (none, queue)
  | some client =>
      match search Upower.device queue device with
      | some upower => (some upower, queue)
      | none =>
          match client.owner device with
          | none => (none, queue)
          | some gdevice =>
              let upower := newEntry client device gdevice
              (some upower, queue ++ [upower])

def discharging : List (ℚ × Text) :=
  [ (5, icon 0x82 0x8E (by decide)), (15, icon 0x81 0xBA (by decide)), (25, icon 0x81 0xBB (by decide)),
    (35, icon 0x81 0xBC (by decide)), (45, icon 0x81 0xBD (by decide)), (55, icon 0x81 0xBE (by decide)),
    (65, icon 0x81 0xBF (by decide)), (75, icon 0x82 0x80 (by decide)), (85, icon 0x82 0x81 (by decide)),
    (95, icon 0x82 0x82 (by decide)) ]

def charging : List (ℚ × Text) :=
  [ (5, icon 0xA2 0x9F (by decide)), (15, icon 0xA2 0x9C (by decide)), (25, icon 0x82 0x86 (by decide)),
    (35, icon 0x82 0x87 (by decide)), (45, icon 0x82 0x88 (by decide)), (55, icon 0xA2 0x9D (by decide)),
    (65, icon 0x82 0x89 (by decide)), (75, icon 0xA2 0x9E (by decide)), (85, icon 0x82 0x8A (by decide)),
    (95, icon 0x82 0x8B (by decide)) ]

/-- `(int)upower->percentage`. -/
def wholePercent (percentage : ℚ) : Int := percentage.num.tdiv percentage.den

/-- The display functions get what `upower_find` has returned. -/
def upowerLine : Option (Upower Dev) → Option Text
  | none => none
  | some upower =>
      let icon :=
        if upower.state = UP_DEVICE_STATE_DISCHARGING then
          pick discharging (icon 0x81 0xB9 (by decide)) upower.percentage
        else pick charging (icon 0x82 0x85 (by decide)) upower.percentage
      bprintf (icon ++ space ++ decimal (wholePercent upower.percentage) ++ percentSign)

def upowerPerc : Option (Upower Dev) → Option Text
  | none => none
  | some upower => bprintf (decimal (wholePercent upower.percentage))

def upowerState (upDeviceStateToString : Int → Text) : Option (Upower Dev) → Option Text
  | none => none
  | some upower => some (upDeviceStateToString upower.state)

theorem upowerFind_eq (client : Client Dev) (queue : List (Upower Dev)) (device : Text) :
    upowerFind (some client) queue device =
      findOrCreate Upower.device queue device ((client.owner device).map (newEntry client device)) := by
  simp only [upowerFind, findOrCreate]
  cases search Upower.device queue device with
  | some upower => rfl
  | none => cases client.owner device <;> simp

theorem newEntry_device (client : Client Dev) (device : Text) (gdevice : Dev) :
    (newEntry client device gdevice).device = device := rfl

theorem upowerDeviceCallback_device (properties : Properties) (name : Text) (upower : Upower Dev) :
    (upowerDeviceCallback properties name upower).1.device = upower.device := by
  unfold upowerDeviceCallback
  split_ifs <;> rfl

end SlStatus.UPower
