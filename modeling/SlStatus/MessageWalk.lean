import SlStatus.AttributeWalk

/-! Where the message loop of `wifi_perc` goes in a datagram. It ends unless it comes to a
message of length zero, or one of its two searches in a message does not end. -/

namespace SlStatus.MessageWalk
open CString Netlink Wifi Walk AttributeWalk

/-- What is made of the average that the second search has found. -/
def average (bytes : List Byte) : Option (Nat × Nat) → Except Stop (Option Int)
  | none => .ok none
  | some (avg, len) =>
      if len = 1 then
        match bytes[avg]? with
        | some byte => .ok (some (RSSI_TO_PERC byte.toInt8.toInt))
        | none => .error .fault
      else .ok none

/-- The second search begins where the payload does that the first has found. -/
def inStation (bytes : List Byte) (e steps : Nat) : Option (Nat × Nat) → Except Stop (Option Int)
  | none => .ok none
  | some (info, _) => (findattr NL80211_STA_INFO_SIGNAL_AVG bytes steps info e).bind (average bytes)

theorem signalAvg_eq (bytes : List Byte) (steps p e : Nat) :
    signalAvg bytes steps p e =
      (findattr NL80211_ATTR_STA_INFO bytes steps (p + NLMSG_HDRLEN + GENL_HDRLEN) e).bind
        (inStation bytes e steps) := by
  unfold signalAvg
  rcases findattr NL80211_ATTR_STA_INFO bytes steps (p + NLMSG_HDRLEN + GENL_HDRLEN) e with stop | found
  · rfl
  · rcases found with _ | ⟨info, len⟩
    · rfl
    · simp only [Except.bind, inStation]
      rcases findattr NL80211_STA_INFO_SIGNAL_AVG bytes steps info e with stop | found
      · rfl
      · rcases found with _ | ⟨avg, len⟩ <;> rfl

theorem average_ended (bytes : List Byte) (found : Option (Nat × Nat)) : average bytes found ≠ .error .running := by
  unfold average
  split
  · simp
  · split_ifs
    · split <;> simp
    · simp

def SearchStalls (bytes : List Byte) (p e : Nat) : Prop :=
  Stalls NL80211_ATTR_STA_INFO bytes e (p + NLMSG_HDRLEN + GENL_HDRLEN) ∨
    ∃ info len, Finds NL80211_ATTR_STA_INFO bytes e (p + NLMSG_HDRLEN + GENL_HDRLEN) (.ok (some (info, len))) ∧
      Stalls NL80211_STA_INFO_SIGNAL_AVG bytes e info

theorem signalAvg_stalls {bytes : List Byte} {p e : Nat} (stalls : SearchStalls bytes p e) (steps : Nat) :
    signalAvg bytes steps p e = .error .running := by
  rw [signalAvg_eq]
  rcases stalls with first | ⟨info, len, finds, second⟩
  · rw [findattr_stalls first]
    rfl
  · obtain ⟨enough, found⟩ := (findattr_iff (by simp)).mpr finds
    by_cases running :
        findattr NL80211_ATTR_STA_INFO bytes steps (p + NLMSG_HDRLEN + GENL_HDRLEN) e = .error .running
    · rw [running]
      rfl
    · have other : findattr NL80211_ATTR_STA_INFO bytes enough (p + NLMSG_HDRLEN + GENL_HDRLEN) e ≠
          .error .running := by
        rw [found]
        simp
      have same := (findattr_settles _ bytes _ e).unique running other
      rw [same, found]
      simp only [Except.bind, inStation, findattr_stalls second]

theorem inStation_settles (bytes : List Byte) (e : Nat) (found : Option (Nat × Nat)) :
    Settles fun steps => inStation bytes e steps found := by
  rcases found with _ | ⟨info, len⟩
  · exact fun _ _ => rfl
  · exact (findattr_settles _ bytes info e).bind fun _ _ _ => rfl

theorem signalAvg_settles (bytes : List Byte) (p e : Nat) : Settles fun steps => signalAvg bytes steps p e := by
  simp only [signalAvg_eq]
  exact (findattr_settles _ bytes _ e).bind (inStation_settles bytes e)

theorem signalAvg_ends_iff {bytes : List Byte} {p e : Nat} :
    (∃ steps, signalAvg bytes steps p e ≠ .error .running) ↔ ¬SearchStalls bytes p e := by
  constructor
  · rintro ⟨steps, ended⟩ stalls
    exact ended (signalAvg_stalls stalls steps)
  · intro moving
    simp only [signalAvg_eq]
    apply (findattr_settles _ bytes _ e).ends_bind (inStation_settles bytes e)
    · exact findattr_ends_iff.mpr fun stalls => moving (.inl stalls)
    · rintro (_ | ⟨info, len⟩) found
      · exact ⟨0, by simp [inStation]⟩
      · have finds := (findattr_iff (by simp)).mp found
        apply (findattr_settles _ bytes info e).ends_bind fun _ _ _ => rfl
        · exact findattr_ends_iff.mpr fun stalls => moving (.inr ⟨info, len, finds, stalls⟩)
        · exact fun payload _ => ⟨0, average_ended bytes payload⟩

def MessageHeader (bytes : List Byte) (p nlmsg_len nlmsg_type : Nat) : Prop :=
  read 4 bytes p = some nlmsg_len ∧ read 2 bytes (p + 4) = some nlmsg_type

/-- There is room for one more header before the end of the datagram. -/
def Room (r p : Nat) : Prop := p ≠ r ∧ r - p ≥ NLMSG_HDRLEN

/-- `e` in the message loop. -/
def messageEnd (r p nlmsg_len : Nat) : Nat := if r - p < nlmsg_len then r else p + nlmsg_len

/-- The percentage that the loop body takes from a message, where it looks for one. -/
def heardIn (bytes : List Byte) (strength : Option Int) (nlmsg_len p e steps : Nat) : Except Stop (Option Int) :=
  if strength = none ∧ nlmsg_len > NLMSG_HDRLEN + GENL_HDRLEN then signalAvg bytes steps p e else .ok none

/-- The message loop goes on to the message behind, with the string as it then is. -/
def Follows (bytes : List Byte) (r : Nat) (here next : Nat × Option Int) : Prop :=
  Room r here.1 ∧ ∃ nlmsg_len nlmsg_type taken, MessageHeader bytes here.1 nlmsg_len nlmsg_type ∧
    (∃ steps, heardIn bytes here.2 nlmsg_len here.1 (messageEnd r here.1 nlmsg_len) steps = .ok taken) ∧
    nlmsg_type ≠ NLMSG_DONE ∧ next = (messageEnd r here.1 nlmsg_len, here.2.or taken)

/-- A message of length zero that does not end the dump, or one in which a search stalls. -/
def Stays (bytes : List Byte) (r : Nat) (here : Nat × Option Int) : Prop :=
  Room r here.1 ∧ ∃ nlmsg_len nlmsg_type, MessageHeader bytes here.1 nlmsg_len nlmsg_type ∧
    (nlmsg_len = 0 ∧ nlmsg_type ≠ NLMSG_DONE ∨
      here.2 = none ∧ nlmsg_len > NLMSG_HDRLEN + GENL_HDRLEN ∧
        SearchStalls bytes here.1 (messageEnd r here.1 nlmsg_len))

theorem heardIn_settles (bytes : List Byte) (strength : Option Int) (nlmsg_len p e : Nat) :
    Settles fun steps => heardIn bytes strength nlmsg_len p e steps := by
  unfold heardIn
  split_ifs
  · exact signalAvg_settles bytes p e
  · exact fun _ _ => rfl

/-- The loop from the end of its body on, once the body has taken what it takes. -/
def onward (bytes : List Byte) (r p e nlmsg_type : Nat) (strength : Option Int) (steps : Nat) (taken : Option Int) :
    Except Stop (List Visit × Option Int × Bool) :=
  if nlmsg_type = NLMSG_DONE then .ok ([⟨p, taken⟩], strength.or taken, true)
  else (messageLoop bytes r steps e (strength.or taken)).map fun rest => (⟨p, taken⟩ :: rest.1, rest.2)

/-- One iteration of the message loop. -/
theorem messageLoop_header {bytes : List Byte} {r p nlmsg_len nlmsg_type : Nat} (room : Room r p)
    (header : MessageHeader bytes p nlmsg_len nlmsg_type) (steps : Nat) (strength : Option Int) :
    messageLoop bytes r (steps + 1) p strength =
      (heardIn bytes strength nlmsg_len p (messageEnd r p nlmsg_len) steps).bind
        (onward bytes r p (messageEnd r p nlmsg_len) nlmsg_type strength steps) := by
  have entered : p ≠ r ∧ r - p ≥ NLMSG_HDRLEN := room
  cases heard : heardIn bytes strength nlmsg_len p (messageEnd r p nlmsg_len) steps <;>
  · simp only [heardIn, messageEnd] at heard
    simp only [messageLoop, if_pos entered, header.1, header.2, heard]
    rfl

theorem messageLoop_left {bytes : List Byte} {r p : Nat} (left : ¬Room r p) (steps : Nat) (strength : Option Int) :
    messageLoop bytes r steps p strength = .ok ([], strength, false) := by
  have ended : ¬(p ≠ r ∧ r - p ≥ NLMSG_HDRLEN) := left
  cases steps <;> simp only [messageLoop, if_neg ended]

theorem messageLoop_zero {bytes : List Byte} {r p : Nat} (room : Room r p) (strength : Option Int) :
    messageLoop bytes r 0 p strength = .error .running := by
  have entered : p ≠ r ∧ r - p ≥ NLMSG_HDRLEN := room
  simp only [messageLoop, if_pos entered]

theorem messageLoop_fault {bytes : List Byte} {r p : Nat} (room : Room r p)
    (unreadable : ¬∃ nlmsg_len nlmsg_type, MessageHeader bytes p nlmsg_len nlmsg_type) (steps : Nat)
    (strength : Option Int) : messageLoop bytes r (steps + 1) p strength = .error .fault := by
  have entered : p ≠ r ∧ r - p ≥ NLMSG_HDRLEN := room
  cases length : read 4 bytes p with
  | none => simp only [messageLoop, if_pos entered, length]
  | some nlmsg_len =>
    cases type : read 2 bytes (p + 4) with
    | none => simp only [messageLoop, if_pos entered, length, type]
    | some nlmsg_type => exact absurd ⟨nlmsg_len, nlmsg_type, length, type⟩ unreadable

theorem map_running_iff {α β : Type} {f : α → β} {x : Except Stop α} :
    x.map f = .error .running ↔ x = .error .running := by
  cases x <;> simp [Except.map]

theorem onward_settled {bytes : List Byte} {r p e nlmsg_type steps : Nat} {strength taken : Option Int}
    (settled : messageLoop bytes r steps e (strength.or taken) ≠ .error .running →
      messageLoop bytes r (steps + 1) e (strength.or taken) = messageLoop bytes r steps e (strength.or taken))
    (ended : onward bytes r p e nlmsg_type strength steps taken ≠ .error .running) :
    onward bytes r p e nlmsg_type strength (steps + 1) taken = onward bytes r p e nlmsg_type strength steps taken := by
  unfold onward at ended ⊢
  split_ifs at ended ⊢
  · rfl
  · rw [settled (mt map_running_iff.mpr ended)]

theorem messageLoop_settles (bytes : List Byte) (r p : Nat) (strength : Option Int) :
    Settles fun steps => messageLoop bytes r steps p strength := by
  intro steps ended
  dsimp only at ended ⊢
  induction steps generalizing p strength with
  | zero =>
    by_cases room : Room r p
    · exact absurd (messageLoop_zero room strength) ended
    · simp only [messageLoop_left room]
  | succ steps ih =>
    by_cases room : Room r p
    · by_cases readable : ∃ nlmsg_len nlmsg_type, MessageHeader bytes p nlmsg_len nlmsg_type
      · obtain ⟨nlmsg_len, nlmsg_type, header⟩ := readable
        simp only [messageLoop_header room header] at ended ⊢
        have body := heardIn_settles bytes strength nlmsg_len p (messageEnd r p nlmsg_len) steps
        exact bind_settled body (fun _ _ => onward_settled (ih _ _)) ended
      · simp only [messageLoop_fault room readable]
    · simp only [messageLoop_left room]

theorem follows_onward {bytes : List Byte} {r : Nat} {here next : Nat × Option Int}
    (move : Follows bytes r here next) : next = here ∨ r - next.1 < r - here.1 := by
  obtain ⟨p, strength⟩ := here
  obtain ⟨⟨apart, room⟩, nlmsg_len, nlmsg_type, taken, header, ⟨steps, heard⟩, type, rfl⟩ := move
  have header : NLMSG_HDRLEN = 16 := rfl
  dsimp only at *
  by_cases zero : nlmsg_len = 0
  · left
    have short : ¬(strength = none ∧ nlmsg_len > NLMSG_HDRLEN + GENL_HDRLEN) := by
      rw [zero]
      exact fun both => absurd both.2 (Nat.not_lt_zero _)
    rw [heardIn, if_neg short] at heard
    cases heard
    rw [messageEnd, if_neg (by omega), zero, Option.or_none, Nat.add_zero]
  · right
    unfold messageEnd
    split_ifs <;> omega

theorem stays_of_follows_self {bytes : List Byte} {r : Nat} {here : Nat × Option Int}
    (move : Follows bytes r here here) : Stays bytes r here := by
  obtain ⟨p, strength⟩ := here
  obtain ⟨room, nlmsg_len, nlmsg_type, taken, header, -, type, same⟩ := move
  have stands : p = messageEnd r p nlmsg_len := congrArg Prod.fst same
  have behind := room.2
  have size : NLMSG_HDRLEN = 16 := rfl
  refine ⟨room, nlmsg_len, nlmsg_type, header, .inl ⟨?_, type⟩⟩
  unfold messageEnd at stands
  dsimp only at behind
  split_ifs at stands <;> omega

theorem messageLoop_stays {bytes : List Byte} {r : Nat} {here : Nat × Option Int} (stays : Stays bytes r here)
    (steps : Nat) : messageLoop bytes r steps here.1 here.2 = .error .running := by
  obtain ⟨p, strength⟩ := here
  obtain ⟨room, nlmsg_len, nlmsg_type, header, ⟨zero, type⟩ | ⟨unset, long, stalls⟩⟩ := stays
  · dsimp only at *
    have behind := room.2
    have size : NLMSG_HDRLEN = 16 := rfl
    have stands : messageEnd r p 0 = p := by rw [messageEnd, if_neg (by omega), Nat.add_zero]
    have short : ¬(strength = none ∧ 0 > NLMSG_HDRLEN + GENL_HDRLEN) := fun both => absurd both.2 (Nat.not_lt_zero _)
    subst nlmsg_len
    induction steps with
    | zero => exact messageLoop_zero room strength
    | succ steps ih =>
      rw [messageLoop_header room header, heardIn, if_neg short]
      simp only [Except.bind, onward, if_neg type, stands, Option.or_none, ih]
      rfl
  · cases steps with
    | zero => exact messageLoop_zero room strength
    | succ steps =>
      rw [messageLoop_header room header, heardIn, if_pos ⟨unset, long⟩, signalAvg_stalls stalls]
      rfl

theorem messageLoop_passesBack {bytes : List Byte} {r : Nat} {here next : Nat × Option Int}
    (move : Follows bytes r here next)
    (running : ∀ steps, messageLoop bytes r steps next.1 next.2 = .error .running) (steps : Nat) :
    messageLoop bytes r steps here.1 here.2 = .error .running := by
  obtain ⟨room, nlmsg_len, nlmsg_type, taken, header, ⟨enough, heard⟩, type, rfl⟩ := move
  cases steps with
  | zero => exact messageLoop_zero room here.2
  | succ steps =>
    rw [messageLoop_header room header]
    by_cases searching :
        heardIn bytes here.2 nlmsg_len here.1 (messageEnd r here.1 nlmsg_len) steps = .error .running
    · rw [searching]
      rfl
    · have other : heardIn bytes here.2 nlmsg_len here.1 (messageEnd r here.1 nlmsg_len) enough ≠ .error .running := by
        rw [heard]
        simp
      have same := (heardIn_settles bytes here.2 nlmsg_len here.1 _).unique searching other
      rw [same, heard]
      simp only [Except.bind, onward, if_neg type, running steps]
      rfl

theorem messageLoop_ends_iff {bytes : List Byte} {r : Nat} {first : Nat × Option Int} :
    (∃ steps, messageLoop bytes r steps first.1 first.2 ≠ .error .running) ↔
      ∀ here, Reaches (Follows bytes r) first here → ¬Stays bytes r here := by
  constructor
  · rintro ⟨steps, ended⟩ here walk stays
    apply ended
    clear ended
    revert steps
    apply walk.passesBack fun here => ∀ steps, messageLoop bytes r steps here.1 here.2 = .error .running
    · exact fun here next move running => messageLoop_passesBack move running
    · exact messageLoop_stays stays
  · intro moving
    have still : ∀ here, ¬Stays bytes r here → ¬Follows bytes r here here := fun _ => mt stays_of_follows_self
    apply induction_of_moving
      (motive := fun here => ∃ steps, messageLoop bytes r steps here.1 here.2 ≠ .error .running)
      (fun here => r - here.1) (fun _ _ => follows_onward) still _ moving
    rintro ⟨p, strength⟩ moving later
    dsimp only at moving later ⊢
    by_cases room : Room r p
    · by_cases readable : ∃ nlmsg_len nlmsg_type, MessageHeader bytes p nlmsg_len nlmsg_type
      · obtain ⟨nlmsg_len, nlmsg_type, header⟩ := readable
        have heard : ∃ steps,
            heardIn bytes strength nlmsg_len p (messageEnd r p nlmsg_len) steps ≠ .error .running := by
          unfold heardIn
          split_ifs with searched
          · exact signalAvg_ends_iff.mpr fun stalls =>
              moving ⟨room, nlmsg_len, nlmsg_type, header, .inr ⟨searched.1, searched.2, stalls⟩⟩
          · exact ⟨0, by simp⟩
        have rest : ∀ taken, Settles fun steps =>
            onward bytes r p (messageEnd r p nlmsg_len) nlmsg_type strength steps taken :=
          fun taken steps => onward_settled (messageLoop_settles bytes r _ _ steps)
        have ends := (heardIn_settles bytes strength nlmsg_len p _).ends_bind rest heard
        obtain ⟨steps, ended⟩ := ends fun taken hears => by
          by_cases done : nlmsg_type = NLMSG_DONE
          · exact ⟨0, by simp [onward, if_pos done]⟩
          · obtain ⟨steps, ended⟩ := later _ ⟨room, nlmsg_len, nlmsg_type, taken, header, hears, done, rfl⟩
            refine ⟨steps, ?_⟩
            rw [onward, if_neg done]
            exact mt map_running_iff.mp ended
        exact ⟨steps + 1, messageLoop_header room header steps strength ▸ ended⟩
      · exact ⟨1, by simp [messageLoop_fault room readable 0]⟩
    · exact ⟨0, by simp [messageLoop_left room]⟩

theorem follows_advances {bytes : List Byte} {r : Nat} {first here next : Nat × Option Int}
    (moving : ∀ here, Reaches (Follows bytes r) first here → ¬Stays bytes r here)
    (walk : Reaches (Follows bytes r) first here) (move : Follows bytes r here next) : here.1 < next.1 := by
  have never : ∀ here, Reaches (Follows bytes r) first here → ¬Follows bytes r here here :=
    fun here walk still => moving here walk (stays_of_follows_self still)
  have nearer := (advances_iff (fun here => r - here.1) (fun _ _ => follows_onward) first).mpr never here next walk move
  omega

/-- Each loop ends, and each iteration goes forward, exactly when its walk comes to no header
at which it would stay: for `findattr` that of another attribute of length zero, for the message
loop that of a message of length zero, or of one in which a search of `findattr` does not end. -/
theorem walks_end_iff (bytes : List Byte) :
    (∀ attr e p,
      ((∃ steps, findattr attr bytes steps p e ≠ .error .running) ∧
        ∀ q q', Reaches (Passes attr bytes e) p q → Passes attr bytes e q q' → q < q') ↔
      ∀ q, Reaches (Passes attr bytes e) p q → ¬Idle attr bytes e q) ∧
    ∀ r strength,
      ((∃ steps, messageLoop bytes r steps 0 strength ≠ .error .running) ∧
        ∀ here next, Reaches (Follows bytes r) (0, strength) here → Follows bytes r here next → here.1 < next.1) ↔
      ∀ here, Reaches (Follows bytes r) (0, strength) here → ¬Stays bytes r here := by
  refine ⟨fun attr e p => ?_, fun r strength => ?_⟩
  · have stalls : ¬Stalls attr bytes e p ↔ ∀ q, Reaches (Passes attr bytes e) p q → ¬Idle attr bytes e q := by
      simp only [Stalls, not_exists, not_and]
    rw [findattr_ends_iff, passes_advances_iff, and_self, stalls]
  · constructor
    · rintro ⟨ends, -⟩
      exact messageLoop_ends_iff.mp ends
    · intro moving
      exact ⟨messageLoop_ends_iff.mpr moving, fun here next walk move => follows_advances moving walk move⟩

/-- An attribute of length zero behind the headers of a message of 24 bytes, and an empty header
of a message: both loops stay where they are. -/
theorem zero_length_never_ends :
    (∀ steps, findattr NL80211_ATTR_SSID (List.replicate 20 0 ++ [0, 0, 1, 0]) steps 20 24 = .error .running) ∧
      ∀ steps, messageLoop (List.replicate 16 0) 16 steps 0 none = .error .running := by
  constructor
  · exact findattr_idle ⟨by decide, 1, ⟨by decide, by decide⟩, by decide⟩
  · have room : Room 16 0 := ⟨by decide, by decide⟩
    have header : MessageHeader (List.replicate 16 0) 0 0 0 := ⟨by decide, by decide⟩
    have stays : Stays (List.replicate 16 0) 16 (0, none) := ⟨room, 0, 0, header, .inl ⟨rfl, by decide⟩⟩
    exact messageLoop_stays stays

end SlStatus.MessageWalk
