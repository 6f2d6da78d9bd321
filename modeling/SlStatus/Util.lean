import SlStatus.CString

/-! The formatting helpers of `util.c`. What they print to stderr is left out: no caller
reads it back. -/

namespace SlStatus.Util
open CString

variable {size : Nat}

/-- Both failures of `vsnprintf`, an error and a truncated output, become `-1`. -/
def evsnprintf (str : Buffer size) (text : List Byte) : Buffer size × Int :=
  let (str, ret) := str.vsnprintf text
  if ret < 0 then (str, -1)
  else if ret ≥ size then (str, -1)
  else (str, ret)

def esnprintf (str : Buffer size) (text : List Byte) : Buffer size × Int := evsnprintf str text

@[simp] theorem esnprintf_buffer (str : Buffer size) (text : List Byte) :
    (esnprintf str text).1 = (str.vsnprintf text).1 := by
  simp only [esnprintf, evsnprintf]
  split_ifs <;> rfl

/-- The result is negative exactly when the text and its terminator need more than the buffer. -/
theorem esnprintf_neg_iff (str : Buffer size) (text : List Byte) :
    (esnprintf str text).2 < 0 ↔ size ≤ text.length := by
  have length : (str.vsnprintf text).2 = text.length := Buffer.vsnprintf_ret str text
  simp only [esnprintf, evsnprintf, length]
  split_ifs <;> constructor <;> intro <;> omega

/-- Whether or not the text fits, the buffer ends up with as much of it as has room. -/
theorem string?_esnprintf (str : Buffer size) (text : List Byte) (noNul : 0 ∉ text) (positive : 0 < size) :
    (esnprintf str text).1.string? = some (text.take (size - 1)) := by
  rw [esnprintf_buffer]
  exact Buffer.string?_vsnprintf str text noNul positive

end SlStatus.Util
