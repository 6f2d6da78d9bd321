import SlStatus.Util

/-! `components/netspeeds.c` on Linux. The two functions are one, each with a static variable and
a file of its own; the rate is handed to `fmt_human`. -/

namespace SlStatus.Netspeeds
open CString Util

inductive Direction where
  | rx | tx
  deriving DecidableEq

/-- `"/sys/class/net/"`. -/
def classNet : Text :=
  ⟨[0x2F, 0x73, 0x79, 0x73, 0x2F, 0x63, 0x6C, 0x61, 0x73, 0x73, 0x2F, 0x6E, 0x65, 0x74, 0x2F], by decide⟩

/-- `"/statistics/rx_bytes"` and `"/statistics/tx_bytes"`. -/
def statistics : Direction → Text
  | .rx =>
      ⟨[0x2F, 0x73, 0x74, 0x61, 0x74, 0x69, 0x73, 0x74, 0x69, 0x63, 0x73, 0x2F, 0x72, 0x78, 0x5F, 0x62, 0x79, 0x74, 0x65,
        0x73], by decide⟩
  | .tx =>
      ⟨[0x2F, 0x73, 0x74, 0x61, 0x74, 0x69, 0x73, 0x74, 0x69, 0x63, 0x73, 0x2F, 0x74, 0x78, 0x5F, 0x62, 0x79, 0x74, 0x65,
        0x73], by decide⟩

/-- `NET_RX_BYTES` and `NET_TX_BYTES`. -/
def path (direction : Direction) (interface : Text) : Text := classNet ++ interface ++ statistics direction

def PATH_MAX : Nat := 4096

/-- `bytes` is the static variable; the file holds `counter`, if it can be read. -/
structure Meter where
  bytes : UInt64
  counter : UInt64
  readable : Bool
  deriving DecidableEq

/-- The number handed to `fmt_human`, if it comes to that; `none` where `0` is divided by. -/
def netspeed (direction : Direction) (interval : UInt32) (interface : Text) (meter : Meter) :
    Option (Option UInt64 × Meter) :=
  let oldbytes := meter.bytes
  if (esnprintf (Buffer.zeroed PATH_MAX) (path direction interface).bytes).2 < 0 then some (none, meter)
  else if meter.readable = false then some (none, meter)
  else
    let meter := { meter with bytes := meter.counter }
    if oldbytes = 0 then some (none, meter)
    else if interval = 0 then none
    else some (some ((meter.bytes - oldbytes) * 1000 / interval.toUInt64), meter)

def netspeedRx := netspeed .rx

def netspeedTx := netspeed .tx

/-- A rate comes from a second reading at least. -/
theorem netspeed_rate {direction : Direction} {interval : UInt32} {interface : Text} {meter meter' : Meter}
    {rate : UInt64} (returned : netspeed direction interval interface meter = some (some rate, meter')) :
    meter.readable = true ∧ meter.bytes ≠ 0 ∧ interval ≠ 0 ∧
      rate = (meter.counter - meter.bytes) * 1000 / interval.toUInt64 := by
  simp only [netspeed] at returned
  split_ifs at returned <;> cases returned
  rename_i read counted positive
  exact ⟨Bool.not_eq_false _ ▸ read, counted, positive, rfl⟩

/-- The file is left alone. -/
theorem netspeed_counter {direction : Direction} {interval : UInt32} {interface : Text} {meter meter' : Meter}
    {rate : Option UInt64} (returned : netspeed direction interval interface meter = some (rate, meter')) :
    meter'.counter = meter.counter := by
  simp only [netspeed] at returned
  split_ifs at returned <;> cases returned <;> rfl

/-- The rate as a natural number, as long as nothing wraps. -/
theorem rate_toNat {interval : UInt32} {old new : UInt64} (grown : old ≤ new)
    (fits : (new.toNat - old.toNat) * 1000 < UInt64.size) :
    ((new - old) * 1000 / interval.toUInt64).toNat = (new.toNat - old.toNat) * 1000 / interval.toNat := by
  have difference : (new - old).toNat = new.toNat - old.toNat := UInt64.toNat_sub_of_le _ _ grown
  have product : ((new - old) * 1000).toNat = (new.toNat - old.toNat) * 1000 := by
    rw [UInt64.toNat_mul, difference]
    exact Nat.mod_eq_of_lt fits
  rw [UInt64.toNat_div, product, UInt32.toNat_toUInt64]

end SlStatus.Netspeeds
