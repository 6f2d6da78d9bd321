import SlStatus.Netlink

/-! `components/wifi.c`: the walks over what nl80211 answers. `resp` is a list of bytes with
checked accesses, pointers into it are positions, and `char` is signed. A walk need not come
to an end, so each is given a number of steps. -/

namespace SlStatus.Wifi
open CString Netlink

def NLMSG_HDRLEN : Nat := 16
def GENL_HDRLEN : Nat := 4
def NLA_HDRLEN : Nat := 4
def NLMSG_DONE : Nat := 3
def NL80211_ATTR_STA_INFO : Nat := 21
def NL80211_STA_INFO_SIGNAL_AVG : Nat := 13
def NL80211_ATTR_SSID : Nat := 52
def GENL_ID_CTRL : Nat := 16
def CTRL_ATTR_FAMILY_ID : Nat := 1

/-- The length of the request of `nl80211fam`. -/
def sizeofCtrl : Nat := NLMSG_HDRLEN + GENL_HDRLEN + NLA_HDRLEN + align 8

/-- Why a call does not return: it reads outside the buffer, it is still walking when its
steps are used up, or it waits for a datagram that does not come. -/
inductive Stop where
  | fault | running | blocked
  deriving DecidableEq

theorem exists_of_map {α β : Type} {f : α → β} {x : Except Stop α} {b : β} (mapped : x.map f = .ok b) :
    ∃ a, x = .ok a ∧ f a = b := by
  cases x with
  | error stop => cases mapped
  | ok a => exact ⟨a, rfl, Except.ok.inj mapped⟩

def RSSI_TO_PERC (rssi : Int) : Int :=
  if rssi ≥ -50 then 100 else if rssi ≤ -100 then 0 else 2 * (rssi + 100)

/-- The start of the payload with the number stored in `*len`; `none` for `NULL`. -/
def findattr (attr : Nat) (bytes : List Byte) : Nat → Nat → Nat → Except Stop (Option (Nat × Nat))
  | 0, p, e => if p < e then .error .running else .ok none
  | steps + 1, p, e =>
      if p < e then
        match read 2 bytes p, read 2 bytes (p + 2) with
        | some nla_len, some nla_type =>
            if nla_type = attr then .ok (some (p + NLA_HDRLEN, (nla_len + 2 ^ 64 - NLA_HDRLEN) % 2 ^ 64))
            else findattr attr bytes steps (p + align nla_len) e
        | _, _ => .error .fault
      else .ok none

/-- What the message loop of `wifi_perc` takes from the message at `p` that ends at `e`. -/
def signalAvg (bytes : List Byte) (steps p e : Nat) : Except Stop (Option Int) :=
  match findattr NL80211_ATTR_STA_INFO bytes steps (p + NLMSG_HDRLEN + GENL_HDRLEN) e with
  | .error stop => .error stop
  | .ok none => .ok none
  | .ok (some (info, _)) =>
      match findattr NL80211_STA_INFO_SIGNAL_AVG bytes steps info e with
      | .error stop => .error stop
      | .ok none => .ok none
      | .ok (some (avg, len)) =>
          if len = 1 then
            match bytes[avg]? with
            | some byte => .ok (some (RSSI_TO_PERC byte.toInt8.toInt))
            | none => .error .fault
          else .ok none

/-- An iteration of the message loop: where it found its header and the percentage that it
wrote to `strength`, if it wrote one. -/
structure Visit where
  position : Nat
  taken : Option Int
  deriving DecidableEq

/-- The message loop of `wifi_perc` over the first `r` bytes from `p` on. `strength` is `none`
while the string is empty; the last component tells whether `NLMSG_DONE` was met. -/
def messageLoop (bytes : List Byte) (r : Nat) : Nat → Nat → Option Int → Except Stop (List Visit × Option Int × Bool)
  | 0, p, strength =>
      if p ≠ r ∧ r - p ≥ NLMSG_HDRLEN then .error .running else .ok ([], strength, false)
  | steps + 1, p, strength =>
      if p ≠ r ∧ r - p ≥ NLMSG_HDRLEN then
        match read 4 bytes p, read 2 bytes (p + 4) with
        | some nlmsg_len, some nlmsg_type =>
            let e := if r - p < nlmsg_len then r else p + nlmsg_len
            let found :=
              if strength = none ∧ nlmsg_len > NLMSG_HDRLEN + GENL_HDRLEN then signalAvg bytes steps p e
              else .ok none
            match found with
            | .error stop => .error stop
            | .ok taken =>
                let strength := strength.or taken
                if nlmsg_type = NLMSG_DONE then .ok ([⟨p, taken⟩], strength, true)
                else (messageLoop bytes r steps e strength).map fun rest => (⟨p, taken⟩ :: rest.1, rest.2)
        | _, _ => .error .fault
      else .ok ([], strength, false)

/-- A datagram on the socket, with the number of the request that it answers. -/
structure Datagram where
  request : Nat
  bytes : List Byte

/-- `recv` puts what fits of a datagram at the front of `resp` and returns its length. -/
def receive (resp datagram : List Byte) : List Byte × Nat :=
  let front := datagram.take resp.length
  (front ++ resp.drop front.length, front.length)

/-- What the loop of `wifi_perc` around `recv` has done when it is left: the visits of each
datagram, the datagrams, whether it called `recv` on an empty socket, and the result. -/
structure Walked where
  visits : List (List Visit)
  taken : List Datagram
  waited : Bool
  strength : Option Int
  queue : List Datagram
  resp : List Byte

/-- The loop of `wifi_perc` around `recv`, which fails after `failure` datagrams if a number
is given. -/
def strengthLoop (steps : Nat) : List Datagram → Option Nat → List Byte → Option Int → Except Stop Walked
  | queue, some 0, resp, _ => .ok ⟨[], [], queue.isEmpty, none, queue, resp⟩
  | [], _, _, _ => .error .blocked
  | datagram :: queue, failure, resp, strength =>
      let (resp, r) := receive resp datagram.bytes
      if r < NLMSG_HDRLEN then .ok ⟨[], [datagram], false, none, queue, resp⟩
      else
        match messageLoop resp r steps 0 strength with
        | .error stop => .error stop
        | .ok (visits, strength, true) => .ok ⟨[visits], [datagram], false, strength, queue, resp⟩
        | .ok (visits, strength, false) =>
            (strengthLoop steps queue (failure.map Nat.pred) resp strength).map fun walked =>
              { walked with visits := visits :: walked.visits, taken := datagram :: walked.taken }

/-- The static variables of the file and what waits on its socket. Requests are numbered
from 1 on; `nlmsg_seq` holds their numbers modulo `2 ^ 32`. -/
structure Socket where
  nlsock : Bool
  seq : Nat
  id : Nat
  queue : List Datagram
  resp : List Byte

def Socket.unopened : Socket := ⟨false, 1, 0, [], List.replicate 4096 0⟩

/-- What a call meets: whether `socket`, the two `send`s and the `recv` of `nl80211fam`
succeed, what `ifindex` returns, and the datagrams after which a later `recv` fails. -/
structure Outside where
  opens : Bool
  familySent : Bool
  familyReceived : Bool
  idx : Option Nat
  sent : Bool
  failure : Option Nat

/-- The kernel queues its answers to a request. It has none to one of type 0, `NLMSG_NOOP`. -/
def Socket.answered (s : Socket) (request type : Nat) (answers : List (List Byte)) : Socket :=
  if type = 0 then s else { s with queue := s.queue ++ answers.map fun bytes => ⟨request, bytes⟩ }

/-- The id that `nl80211fam` copies out of the `r` bytes it has received. -/
def familyIn (resp : List Byte) (steps r : Nat) : Except Stop (Option Nat) :=
  if r ≤ sizeofCtrl then .ok none
  else
    match findattr CTRL_ATTR_FAMILY_ID resp steps sizeofCtrl r with
    | .error stop => .error stop
    | .ok none => .ok none
    | .ok (some (p, len)) =>
        if len = 2 then
          match read 2 resp p with
          | some id => .ok (some id)
          | none => .error .fault
        else .ok none

def nl80211fam (steps : Nat) (outside : Outside) (family : List Byte) (s : Socket) : Except Stop (Nat × Socket) :=
  if s.id ≠ 0 then .ok (s.id, s)
  else
    let request := s.seq
    let s := { s with seq := s.seq + 1, nlsock := s.nlsock || outside.opens }
    if !s.nlsock || !outside.familySent then .ok (0, s)
    else
      let s := s.answered request GENL_ID_CTRL [family]
      if !outside.familyReceived then .ok (0, s)
      else
        match s.queue with
        | [] => .error .blocked
        | datagram :: queue =>
            let (resp, r) := receive s.resp datagram.bytes
            let s := { s with queue, resp }
            (familyIn resp steps r).map fun found => (found.getD s.id, { s with id := found.getD s.id })

/-- How a call returns: the number of its own request, the datagrams that it took after
sending it, and whether it called `recv` on an empty socket. -/
structure Returned (Value : Type) where
  request : Nat
  taken : List Datagram
  waited : Bool
  result : Option Value
  socket : Socket

def Returned.null {Value : Type} (s : Socket) : Returned Value := ⟨s.seq, [], false, none, s⟩

def wifiEssid (steps : Nat) (outside : Outside) (family : List Byte) (reply : List (List Byte)) (s : Socket) :
    Except Stop (Returned (List Byte)) :=
  match nl80211fam steps outside family s with
  | .error stop => .error stop
  | .ok (fam, s) =>
      if fam = 0 ∨ outside.idx = none then .ok (.null s)
      else
        let request := s.seq
        let s := { s with seq := s.seq + 1 }
        if !s.nlsock || !outside.sent then .ok (.null s)
        else
          let s := s.answered request fam reply
          if outside.failure = some 0 then .ok ⟨request, [], s.queue.isEmpty, none, s⟩
          else
            match s.queue with
            | [] => .error .blocked
            | datagram :: queue =>
                let (resp, r) := receive s.resp datagram.bytes
                let s := { s with queue, resp }
                if r ≤ NLMSG_HDRLEN + GENL_HDRLEN then .ok ⟨request, [datagram], false, none, s⟩
                else
                  match findattr NL80211_ATTR_SSID resp steps (NLMSG_HDRLEN + GENL_HDRLEN) r with
                  | .error stop => .error stop
                  | .ok none => .ok ⟨request, [datagram], false, none, s⟩
                  | .ok (some (p, len)) =>
                      if p + len < resp.length then
                        let resp := resp.set (p + len) 0
                        .ok ⟨request, [datagram], false, stringOf (resp.drop p), { s with resp }⟩
                      else .error .fault

def wifiPerc (steps : Nat) (outside : Outside) (family : List Byte) (reply : List (List Byte)) (s : Socket) :
    Except Stop (Returned Int) :=
  match nl80211fam steps outside family s with
  | .error stop => .error stop
  | .ok (fam, s) =>
      if outside.idx = none then .ok (.null s)
      else
        let request := s.seq
        let s := { s with seq := s.seq + 1 }
        if !s.nlsock || !outside.sent then .ok (.null s)
        else
          let s := s.answered request fam reply
          (strengthLoop steps s.queue outside.failure s.resp none).map fun walked =>
            ⟨request, walked.taken, walked.waited, walked.strength,
              { s with queue := walked.queue, resp := walked.resp }⟩

end SlStatus.Wifi
