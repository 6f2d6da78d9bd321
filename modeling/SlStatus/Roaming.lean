import SlStatus.NetworkManager
import SlStatus.Runs

/-! One wireless device over any course of its active access point. The callback for a new
access point connects a strength handler and never disconnects the one before it, which goes
well only if the device leaves an access point before it takes the next. -/

namespace SlStatus.Roaming
open CString Handlers NetworkManager Runs

variable {Dev Ap : Type*}

/-- The daemon, the entry of one device and the handlers connected for it. -/
structure Wireless (Dev Ap : Type*) where
  daemon : Daemon Dev Ap
  nm : Nm Dev Ap
  handlers : Registry (Object Dev Ap) Property

/-- A change in the daemon; `id` is the number for a handler that its callback connects. -/
inductive Change (Ap : Type*) where
  | activeAccessPoint (ap : Option Ap) (id : UInt64)
  | strength (ap : Ap) (strength : UInt8)

def Wireless.active (w : Wireless Dev Ap) : Option Ap := w.daemon.activeAccessPoint w.nm.device

variable [DecidableEq Dev] [DecidableEq Ap]

def Wireless.accessPointCallback (w : Wireless Dev Ap) (id : UInt64) : Wireless Dev Ap :=
  let (nm, handlers, _) := nmAccessPointCallback w.daemon id w.nm w.handlers
  { w with nm, handlers }

omit [DecidableEq Dev] [DecidableEq Ap] in
def Wireless.strengthCallback (w : Wireless Dev Ap) (ap : Ap) : Wireless Dev Ap :=
  { w with nm := (nmSignalStrengthCallback w.daemon ap w.nm).1 }

/-- A change takes place and is told to the handlers that are connected. -/
def change (w : Wireless Dev Ap) : Change Ap → Option (Wireless Dev Ap)
  | .activeAccessPoint ap id =>
      if ap ≠ w.active ∧ Fresh w.handlers id then
        let told := connected w.handlers (.device w.nm.device) .activeAccessPoint
        let changed := Function.update w.daemon.activeAccessPoint w.nm.device ap
        some (told.foldl (fun w _ => w.accessPointCallback id)
          { w with daemon := { w.daemon with activeAccessPoint := changed } })
      else none
  | .strength ap strength =>
      let told := connected w.handlers (.accessPoint ap) .strength
      let changed := Function.update w.daemon.strength ap strength
      some (told.foldl (fun w _ => w.strengthCallback ap)
        { w with daemon := { w.daemon with strength := changed } })

/-- What is kept of the access point is of the active one: the strength handlers, the
strength and the name. -/
def Belongs (w : Wireless Dev Ap) : Prop :=
  (watching w.handlers .strength).map Handler.object = w.active.toList.map .accessPoint ∧
  w.nm.ss = w.active.elim 0 (fun ap => ((w.daemon.strength ap).toNat : Int)) ∧
  w.nm.essid = w.active.bind fun ap => (w.daemon.ssid ap).map w.daemon.ssidToUtf8

/-- No change leads from one access point straight to another, and when the last one is left
its handler's number has survived the `int` it was kept in. -/
def Settled (w : Wireless Dev Ap) : Change Ap → Prop
  | .activeAccessPoint (some _) _ => w.active = none
  | .activeAccessPoint none _ => ∀ handler ∈ watching w.handlers .strength, toULong (toInt handler.id) = handler.id
  | .strength _ _ => True

instance (w : Wireless Dev Ap) : Decidable (Belongs w) := inferInstanceAs (Decidable (_ ∧ _ ∧ _))

instance (w : Wireless Dev Ap) : (event : Change Ap) → Decidable (Settled w event)
  | .activeAccessPoint (some _) _ => inferInstanceAs (Decidable (w.active = none))
  | .activeAccessPoint none _ => inferInstanceAs (Decidable (∀ handler ∈ _, _))
  | .strength _ _ => inferInstanceAs (Decidable True)

structure Bound (w : Wireless Dev Ap) : Prop where
  belongs : Belongs w
  same : w.nm.ap = w.active
  told : ∃ handler, connected w.handlers (.device w.nm.device) .activeAccessPoint = [handler]
  kept : ∀ handler ∈ watching w.handlers .strength, w.nm.ssId = toInt handler.id

theorem accessPointCallback_some {w : Wireless Dev Ap} {ap : Ap} (id : UInt64) (active : w.active = some ap) :
    w.accessPointCallback id =
      { w with
        nm := { w.nm with
          ap := some ap
          essid := ((w.daemon.ssid ap).map w.daemon.ssidToUtf8).or w.nm.essid
          ss := (w.daemon.strength ap).toNat
          ssId := toInt id }
        handlers := connect w.handlers id (.accessPoint ap) .strength } := by
  unfold Wireless.active at active
  rw [Wireless.accessPointCallback, nmAccessPointCallback_some id w.handlers active]

theorem accessPointCallback_none {w : Wireless Dev Ap} {ap : Ap} (id : UInt64) (active : w.active = none)
    (left : w.nm.ap = some ap) :
    w.accessPointCallback id =
      { w with
        nm := { w.nm with essid := none, ap := none, ss := 0, ssId := 0 }
        handlers := disconnect w.handlers (.accessPoint ap) (toULong w.nm.ssId) } := by
  unfold Wireless.active at active
  rw [Wireless.accessPointCallback, nmAccessPointCallback_left id w.handlers active left]

/-- The daemon has made the change and has not told anybody yet. -/
def Wireless.switched (w : Wireless Dev Ap) (ap : Option Ap) : Wireless Dev Ap :=
  { w with
    daemon := { w.daemon with
      activeAccessPoint := Function.update w.daemon.activeAccessPoint w.nm.device ap } }

omit [DecidableEq Ap] in
theorem active_switched (w : Wireless Dev Ap) (ap : Option Ap) : (w.switched ap).active = ap :=
  Function.update_self _ _ _

theorem change_active {w w' : Wireless Dev Ap} {ap : Option Ap} {id : UInt64} (bound : Bound w)
    (taken : change w (.activeAccessPoint ap id) = some w') :
    ap ≠ w.active ∧ w' = (w.switched ap).accessPointCallback id := by
  obtain ⟨handler, told⟩ := bound.told
  simp only [change, told, List.foldl_cons, List.foldl_nil] at taken
  split_ifs at taken with enabled
  exact ⟨enabled.1, (Option.some.inj taken).symm⟩

omit [DecidableEq Dev] [DecidableEq Ap] in
theorem watching_of_belongs {w : Wireless Dev Ap} (belongs : Belongs w) {ap : Ap} (active : w.active = some ap) :
    ∃ id, watching w.handlers .strength = [⟨id, .accessPoint ap, .strength⟩] := by
  have objects := belongs.1
  rw [active] at objects
  obtain ⟨⟨id, object, property⟩, single, same⟩ := List.map_eq_singleton_iff.mp objects
  have member : ⟨id, object, property⟩ ∈ watching w.handlers .strength := by rw [single]; exact List.mem_cons_self
  have strength : property = .strength := by simpa using List.of_mem_filter member
  exact ⟨id, by rw [single, strength, show object = .accessPoint ap from same]⟩

omit [DecidableEq Dev] [DecidableEq Ap] in
theorem watching_of_none {w : Wireless Dev Ap} (belongs : Belongs w) (active : w.active = none) :
    watching w.handlers .strength = [] := by
  have objects := belongs.1
  rw [active] at objects
  exact List.map_eq_nil_iff.mp objects

theorem callback_active (w : Wireless Dev Ap) (id : UInt64) : (w.accessPointCallback id).active = w.active := by
  cases now : w.active with
  | some ap =>
    rw [accessPointCallback_some id now]
    exact now
  | none =>
    cases left : w.nm.ap with
    | some ap =>
      rw [accessPointCallback_none id now left]
      exact now
    | none =>
      unfold Wireless.active at now
      simp [Wireless.active, Wireless.accessPointCallback, nmAccessPointCallback, now, left]

/-- The callback connects and disconnects handlers of access points only. -/
theorem callback_told (w : Wireless Dev Ap) (id : UInt64) (device : Dev) :
    connected (w.accessPointCallback id).handlers (.device device) .activeAccessPoint =
      connected w.handlers (.device device) .activeAccessPoint := by
  cases now : w.active with
  | some ap =>
    rw [accessPointCallback_some id now]
    exact congrArg _ (watching_connect_other _ _ _ (by decide))
  | none =>
    cases left : w.nm.ap with
    | some ap =>
      rw [accessPointCallback_none id now left]
      exact connected_disconnect_other _ _ _ nofun
    | none =>
      unfold Wireless.active at now
      simp [Wireless.accessPointCallback, nmAccessPointCallback, now, left]

theorem bound_of_gain {w w' : Wireless Dev Ap} {ap : Ap} {id : UInt64} (bound : Bound w) (inactive : w.active = none)
    (taken : change w (.activeAccessPoint (some ap) id) = some w') : Bound w' := by
  obtain ⟨-, rfl⟩ := change_active bound taken
  have now := active_switched w (some ap)
  have watched : watching ((w.switched (some ap)).accessPointCallback id).handlers .strength =
      [⟨id, .accessPoint ap, .strength⟩] := by
    rw [accessPointCallback_some id now, watching_connect_self]
    exact congrArg (· ++ _) (watching_of_none bound.belongs inactive)
  have unnamed : w.nm.essid = none := by
    rw [bound.belongs.2.2, inactive]
    rfl
  refine ⟨⟨?_, ?_, ?_⟩, ?_, ?_, ?_⟩
  · rw [watched, callback_active, now]
    rfl
  · rw [callback_active, now, accessPointCallback_some id now]
    rfl
  · rw [callback_active, now, accessPointCallback_some id now]
    exact (congrArg _ unnamed).trans Option.or_none
  · rw [callback_active, now, accessPointCallback_some id now]
  · obtain ⟨handler, told⟩ := bound.told
    refine ⟨handler, (callback_told _ id _).trans ?_⟩
    rw [accessPointCallback_some id now]
    exact told
  · rw [watched, accessPointCallback_some id now]
    simp

/-- What the callback leaves of the one strength handler when its access point goes away. -/
theorem watching_of_loss {w : Wireless Dev Ap} {ap : Ap} (id : UInt64) (bound : Bound w)
    (active : w.active = some ap) :
    ∃ handler, watching w.handlers .strength = [handler] ∧
      watching ((w.switched none).accessPointCallback id).handlers .strength =
        if toULong (toInt handler.id) = handler.id then [] else [handler] := by
  obtain ⟨kept, watched⟩ := watching_of_belongs bound.belongs active
  have number := bound.kept ⟨kept, .accessPoint ap, .strength⟩ (by rw [watched]; exact List.mem_cons_self)
  refine ⟨_, watched, ?_⟩
  rw [accessPointCallback_none id (active_switched w none) (bound.same.trans active), watching_disconnect]
  change disconnect (watching w.handlers .strength) _ (toULong w.nm.ssId) = _
  rw [watched, number, disconnect, List.filter_singleton]
  by_cases survives : toULong (toInt kept) = kept
  · simp [survives]
  · simp [survives, Ne.symm survives]

theorem bound_of_loss {w w' : Wireless Dev Ap} {id : UInt64} (bound : Bound w)
    (settled : Settled w (.activeAccessPoint none id))
    (taken : change w (.activeAccessPoint none id) = some w') : Bound w' := by
  obtain ⟨changed, rfl⟩ := change_active bound taken
  obtain ⟨ap, active⟩ := Option.ne_none_iff_exists'.mp changed.symm
  obtain ⟨handler, watched, remaining⟩ := watching_of_loss id bound active
  have survives : toULong (toInt handler.id) = handler.id :=
    settled handler (by rw [watched]; exact List.mem_cons_self)
  rw [if_pos survives] at remaining
  have now := active_switched w none
  have left : (w.switched none).nm.ap = some ap := bound.same.trans active
  refine ⟨⟨?_, ?_, ?_⟩, ?_, ?_, ?_⟩
  · rw [remaining, callback_active, now]
    rfl
  · rw [callback_active, now, accessPointCallback_none id now left]
    rfl
  · rw [callback_active, now, accessPointCallback_none id now left]
    rfl
  · rw [callback_active, now, accessPointCallback_none id now left]
  · obtain ⟨handler, told⟩ := bound.told
    refine ⟨handler, (callback_told _ id _).trans ?_⟩
    rw [accessPointCallback_none id now left]
    exact told
  · rw [remaining]
    exact nofun

omit [DecidableEq Dev] [DecidableEq Ap] in
theorem strengthCallback_eq (w : Wireless Dev Ap) (ap : Ap) :
    w.strengthCallback ap = { w with nm := { w.nm with ss := (w.daemon.strength ap).toNat } } := by
  unfold Wireless.strengthCallback nmSignalStrengthCallback
  dsimp only
  split_ifs with differs
  · rfl
  · rw [not_not] at differs
    rw [differs]

/-- The entry after a strength change, told or not. -/
theorem strength_after_change {w w' : Wireless Dev Ap} {ap : Ap} {strength : UInt8} (bound : Bound w)
    (taken : change w (.strength ap strength) = some w') :
    w' = { w with
      daemon := { w.daemon with strength := Function.update w.daemon.strength ap strength }
      nm := { w.nm with ss := w.active.elim 0 fun active =>
        ((Function.update w.daemon.strength ap strength active).toNat : Int) } } := by
  simp only [change, Option.some.injEq] at taken
  subst taken
  cases active : w.active with
  | none =>
    have told : connected w.handlers (.accessPoint ap) .strength = [] := by
      rw [connected, watching_of_none bound.belongs active, List.filter_nil]
    have zero : w.nm.ss = 0 := by rw [bound.belongs.2.1, active]; rfl
    rw [told]
    simp only [List.foldl_nil, Option.elim_none, ← zero]
  | some current =>
    obtain ⟨kept, watched⟩ := watching_of_belongs bound.belongs active
    by_cases same : current = ap
    · have told : connected w.handlers (.accessPoint ap) .strength = [⟨kept, .accessPoint ap, .strength⟩] := by
        rw [connected, watched, same, List.filter_singleton]
        simp
      rw [told, List.foldl_cons, List.foldl_nil, strengthCallback_eq, same]
      rfl
    · have told : connected w.handlers (.accessPoint ap) .strength = [] := by
        rw [connected, watched, List.filter_singleton]
        simp [same]
      have shown : w.nm.ss = (w.daemon.strength current).toNat := by rw [bound.belongs.2.1, active]; rfl
      rw [told]
      simp only [List.foldl_nil, Option.elim_some, Function.update_of_ne same, ← shown]

theorem bound_of_strength {w w' : Wireless Dev Ap} {ap : Ap} {strength : UInt8} (bound : Bound w)
    (taken : change w (.strength ap strength) = some w') : Bound w' := by
  rw [strength_after_change bound taken]
  exact ⟨⟨bound.belongs.1, rfl, bound.belongs.2.2⟩, bound.same, bound.told, bound.kept⟩

theorem bound_of_settled {w w' : Wireless Dev Ap} {event : Change Ap} (bound : Bound w) (settled : Settled w event)
    (taken : change w event = some w') : Bound w' := by
  cases event with
  | strength ap strength => exact bound_of_strength bound taken
  | activeAccessPoint next id =>
    cases next with
    | none => exact bound_of_loss bound settled taken
    | some ap => exact bound_of_gain bound settled taken

theorem broken_of_unsettled {w w' : Wireless Dev Ap} {event : Change Ap} (bound : Bound w)
    (unsettled : ¬Settled w event) (taken : change w event = some w') : ¬Belongs w' := by
  cases event with
  | strength => exact absurd trivial unsettled
  | activeAccessPoint next id =>
    obtain ⟨changed, rfl⟩ := change_active bound taken
    intro belongs
    have counted := congrArg List.length belongs.1
    rw [callback_active, active_switched, List.length_map, List.length_map] at counted
    cases next with
    | none =>
      obtain ⟨ap, active⟩ := Option.ne_none_iff_exists'.mp changed.symm
      obtain ⟨handler, watched, remaining⟩ := watching_of_loss id bound active
      have lost : ¬toULong (toInt handler.id) = handler.id := by
        simpa [Settled, watched] using unsettled
      rw [remaining, if_neg lost] at counted
      cases counted
    | some ap =>
      obtain ⟨before, active⟩ := Option.ne_none_iff_exists'.mp unsettled
      obtain ⟨kept, watched⟩ := watching_of_belongs bound.belongs active
      rw [accessPointCallback_some id (active_switched w (some ap)), watching_connect_self] at counted
      change (watching w.handlers .strength ++ _).length = _ at counted
      rw [watched] at counted
      cases counted

/-- `nm_find` leaves an entry whose access-point data belongs to the active access point. -/
theorem bound_of_newEntry {daemon : Daemon Dev Ap} (ids : Ids) (iface : Text) {device : Dev}
    (wifi : daemon.isWifi device = true) :
    Bound ⟨daemon, (newEntry daemon ids iface device).1, (newEntry daemon ids iface device).2⟩ := by
  unfold newEntry
  dsimp only
  rw [nmUpdate_eq]
  simp only [wifi, if_true]
  cases active : daemon.activeAccessPoint device with
  | none =>
    refine ⟨⟨?_, ?_, ?_⟩, ?_, ?_, ?_⟩ <;> simp [Wireless.active, active, watching, connected, connect]
  | some ap =>
    cases named : daemon.ssid ap <;>
      refine ⟨⟨?_, ?_, ?_⟩, ?_, ?_, ?_⟩ <;>
      simp [Wireless.active, active, named, watching, connected, connect]

/-- From the entry that `nm_find` makes for a wireless device on, what is kept belongs to the
active access point throughout if and only if every change was settled. -/
theorem belongs_iff_settled (daemon : Daemon Dev Ap) (ids : Ids) (queue : List (Nm Dev Ap)) (iface : Text)
    {device : Dev} {nm : Nm Dev Ap} {queue' : List (Nm Dev Ap)} {handlers : Registry (Object Dev Ap) Property}
    {past : Past (Wireless Dev Ap) (Change Ap)} {last : Wireless Dev Ap}
    (unknown : ∀ other ∈ queue, other.iface ≠ iface) (owner : daemon.byIface iface = some device)
    (wifi : daemon.isWifi device = true) (found : nmFind daemon ids queue iface = (some nm, queue', handlers))
    (run : Run change ⟨daemon, nm, handlers⟩ past last) :
    (Belongs last ∧ ∀ taken ∈ past, Belongs taken.1) ↔ Within Settled past := by
  have absent : queue.find? (fun other => other.iface = iface) = none :=
    List.find?_eq_none.mpr fun other member => by simpa using unknown other member
  simp only [nmFind, absent, owner, Prod.mk.injEq, Option.some.injEq] at found
  obtain ⟨rfl, -, rfl⟩ := found
  exact run.exact Settled Bound Belongs (fun w bound => bound.belongs) (bound_of_newEntry ids iface wifi)
    (fun before event after bound settled taken => bound_of_settled bound settled taken)
    (fun before event after bound unsettled taken => broken_of_unsettled bound unsettled taken)

def wlan0 : Text := ⟨[0x77, 0x6C, 0x61, 0x6E, 0x30], by decide⟩

/-- A wireless device between two access points, of which the second hides its name. -/
def twoPoints : Daemon Unit Bool :=
  { byIface := fun _ => some (), isWifi := fun _ => true, state := fun _ => NM_DEVICE_STATE_ACTIVATED,
    ip4Config := fun _ => none, ip6Config := fun _ => none, activeAccessPoint := fun _ => some false,
    ssid := fun hidden => if hidden then none else some [0x68], strength := fun hidden => if hidden then 30 else 70,
    ssidToUtf8 := fun _ => ⟨[0x68], by decide⟩ }

def firstIds : Ids := ⟨1, 2, 3⟩

def started : Wireless Unit Bool :=
  ⟨twoPoints, (newEntry twoPoints firstIds wlan0 ()).1, (newEntry twoPoints firstIds wlan0 ()).2⟩

/-- The device leaves the first access point and then takes the second. -/
theorem belongs_apart :
    ∃ past last, Run change started past last ∧ last.active = some true ∧
      (Belongs last ∧ ∀ taken ∈ past, Belongs taken.1) := by
  obtain ⟨past, last, run, checked⟩ := exists_run change started
    [.strength false 50, .activeAccessPoint none 4, .strength true 20, .activeAccessPoint (some true) 4]
    (fun past last => decide (last.active = some true ∧ Within Settled past)) (by decide)
  obtain ⟨active, settled⟩ := of_decide_eq_true checked
  exact ⟨past, last, run, active,
    (belongs_iff_settled twoPoints firstIds [] wlan0 nofun rfl rfl rfl run).mpr settled⟩

/-- The device goes from the first access point straight to the second. -/
theorem roaming_keeps_name :
    ∃ past last, Run change started past last ∧ last.active = some true ∧
      (watching last.handlers .strength).length = 2 ∧ last.nm.essid.isSome = true ∧ ¬Belongs last := by
  obtain ⟨past, last, run, checked⟩ := exists_run change started [.activeAccessPoint (some true) 4]
    (fun past last => decide (last.active = some true ∧ (watching last.handlers .strength).length = 2 ∧
      last.nm.essid.isSome = true ∧ ¬Belongs last)) (by decide)
  exact ⟨past, last, run, of_decide_eq_true checked⟩

end SlStatus.Roaming
