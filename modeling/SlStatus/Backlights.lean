import SlStatus.Caches
import SlStatus.Display

/-! `components/backlight.c` without its thread. The percentage is computed in floating point:
`percent` stands for what the cast makes of the two attributes. -/

namespace SlStatus.Backlights
open CString Util Display Caches

def PATH_MAX : Nat := 4096

/-- `/sys/class/backlight/`. -/
def backlightPath : Text :=
  ⟨[0x2F, 0x73, 0x79, 0x73, 0x2F, 0x63, 0x6C, 0x61, 0x73, 0x73, 0x2F, 0x62, 0x61, 0x63, 0x6B, 0x6C, 0x69, 0x67,
    0x68, 0x74, 0x2F], by decide⟩

/-- The two attributes that a backlight device has, as `atoi` reads them. -/
structure Attributes where
  brightness : Int
  maxBrightness : Int
  deriving DecidableEq

/-- `backlight_t`; its `monitor` is never used. -/
structure Backlight where
  name : Text
  brightness : Int
  deriving DecidableEq

variable (percent : Int → Int → Int)

/-- What the search leaves to do: the device at the path is asked for its attributes. -/
def readDevice (sysfs : Text → Option Attributes) (name : Text) : Option Int :=
  let path := backlightPath ++ name
  let (_, ret) := esnprintf (Buffer.zeroed PATH_MAX) path.bytes
  if ret < 0 then none
  else
    match sysfs path with
    | none => none
    | some device => some (percent device.brightness device.maxBrightness)

def backlightFind (sysfs : Text → Option Attributes) (create : Bool) (queue : List Backlight) (name : Text) :
    Option Backlight × List Backlight :=
  match search Backlight.name queue name with
  | some backlight => (some backlight, queue)
  | none =>
      if create = false then (none, queue)
      else
        match readDevice percent sysfs name with
        | none => (none, queue)
        | some brightness =>
            let backlight : Backlight := { name, brightness }
            (some backlight, queue ++ [backlight])

/-- What the loop does with an entry that it has found; the second component tells whether
`SIGRTMIN + BACKLIGHT_SIGNAL` is raised. -/
def backlightUpdate (brightness : Int) (backlight : Backlight) : Backlight × Bool :=
  if brightness ≠ backlight.brightness then ({ backlight with brightness }, true) else (backlight, false)

/-- The display function gets what `backlight_find` has returned. -/
def backlightLine : Option Backlight → Option Text
  | none => none
  | some backlight =>
      let icon := pick [(25, icon 0x83 0x9E (by decide)), (50, icon 0x83 0x9F (by decide)),
        (75, icon 0x83 0x9D (by decide))] (icon 0x83 0xA0 (by decide)) backlight.brightness
      bprintf (icon ++ space ++ decimal backlight.brightness ++ percentSign)

theorem backlightFind_eq (sysfs : Text → Option Attributes) (create : Bool) (queue : List Backlight) (name : Text) :
    backlightFind percent sysfs create queue name =
      findOrCreate Backlight.name queue name
        (if create = false then none
          else (readDevice percent sysfs name).map fun brightness => { name, brightness }) := by
  simp only [backlightFind, findOrCreate]
  cases search Backlight.name queue name with
  | some backlight => rfl
  | none =>
    split_ifs
    · simp
    · cases readDevice percent sysfs name <;> simp

/-- The loop looks up the names of the events without creating anything. -/
theorem backlightFind_keeps (sysfs : Text → Option Attributes) (queue : List Backlight) (name : Text) :
    (backlightFind percent sysfs false queue name).2 = queue := by
  unfold backlightFind
  cases search Backlight.name queue name <;> rfl

end SlStatus.Backlights
