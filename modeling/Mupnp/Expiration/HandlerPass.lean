import Mupnp.Discovery.CachedPacketRemoval
import Mupnp.Expiration.MetExpirations

/-!
# What one pass of the expiration handler does

A pass goes wrong in three ways. It does not look at the expiration of the device behind one that it
removes; it removes what the cached packet names, which may be another device; and it waits for an
expiration that is not the earliest one, or without limit, because services are only looked at once
a device has given it a bound, because an embedded device hides what an earlier one has, and because
a bound that is not in the future stands for none.

`expirationHandler_iff` says exactly when none of this happens (`HandlerCondition`), and that the
pass then removes the expired root devices, attempts the renewals that are due among the others,
and waits no longer than until the earliest expiration that is left (`HandlesExactly`).
`run_of_separated` is the run of the loop under the condition, and `separated_of_run` says that
the condition on the removals is necessary, which `expired_mem_of_run` shows: what a loop has left
behind it is never removed later.
-/

set_option autoImplicit false
set_option relaxedAutoImplicit false

namespace Mupnp.Expiration

open Foundation Util Ssdp Discovery

/-! ### What a pass should do -/

/-- When a device that was announced expires, zero for never. The sum is exact, which that of
`mupnp_ssdp_packet_getexpiration` is only as far as a `long` can hold it. -/
def deviceExpiration (object : DeviceObject) : ℤ :=
  if object.ssdpPkt.getMaxAge = 0 then 0
  else object.ssdpPkt.timeStamp + object.ssdpPkt.getMaxAge

/-- When a subscription expires, as an exact sum. -/
def subscriptionExpiration (service : Service) : ℤ :=
  service.subscriptionTimestamp + service.subscriptionTimeout - subscriptionDelay

/-- The time is positive and has come. -/
def hasCome (now time : ℤ) : Bool := decide (0 < time) && decide (time ≤ now)

/-- The positive expirations of root devices and of the subscribed services in their trees. -/
def expirationTimes (devices : List Device) : List ℤ :=
  (devices.map (fun dev ↦ deviceExpiration dev.value) ++
    (RoseTree.preorderIn devices).flatMap fun object ↦
      (object.services.filter Service.isSubscribed).map subscriptionExpiration).filter
    fun time ↦ decide (0 < time)

/-- The root devices whose expiration has not come. -/
def remaining (now : ℤ) (devices : List Device) : List Device :=
  devices.filter fun dev ↦ !hasCome now (deviceExpiration dev.value)

/-- The subscribed services whose expiration has come. -/
def renewalsDue (now : ℤ) (devices : List Device) : List ServiceKey :=
  (RoseTree.preorderIn devices).flatMap fun object ↦
    (object.services.zipIdx.filter fun p ↦
      p.1.isSubscribed && hasCome now (subscriptionExpiration p.1)).map fun p ↦ (object.id, p.2)

/-- The root devices that the handler does not take for expired. -/
def unexpired (now : ℤ) (devices : List Device) : List Device :=
  devices.filter fun dev ↦ !isExpired now dev.value

/-- The services of a list of devices after the scans of a pass. -/
abbrev renewed (now : ℤ) (subRes : ServiceKey → RenewalResponse) (devices : List Device) :
    List Device :=
  RoseTree.mapIn (renewObject now subRes) devices

/-- A pass removes exactly the expired root devices, attempts exactly the renewals that are due
among the others, and waits at most until the earliest expiration that is left. -/
structure IsExact (now : ℤ) (devices : List Device) (pass : Pass) : Prop where
  removes : pass.ctrlPoint.deviceList.map (fun dev ↦ (dev.value.id, dev.value.ssdpPkt)) =
    (remaining now devices).map fun dev ↦ (dev.value.id, dev.value.ssdpPkt)
  renews : pass.attempts = renewalsDue now (remaining now devices)
  waits : ∀ time ∈ expirationTimes pass.ctrlPoint.deviceList,
    ∃ wakeUp, condWait now (waitTimeout now pass.expirationTime) = some wakeUp ∧ wakeUp ≤ time

/-- The pass has a result, and the result is exact. -/
def HandlesExactly (now : ℤ) (subRes : ServiceKey → RenewalResponse) (ctrlPoint : ControlPoint) :
    Prop :=
  ∃ pass, expirationHandler now subRes ctrlPoint = some pass ∧ IsExact now ctrlPoint.deviceList pass

/-! ### When it does -/

/-- The lookup of a name in a list of devices. -/
def lookup (devices : List Device) (udn : CString) : Option Device :=
  if strlen (some udn) ≤ 0 then none else searchByUdn devices (some udn)

/-- Each expired root device is the first device that its packet names, among the devices of the
unexpired root devices before it, its own and those of the root devices after it. -/
def RemovesItself (now : ℤ) : List Device → List Device → Prop
  | _, [] => True
  | before, dev :: after =>
    if isExpired now dev.value then
      (lookup (before ++ dev :: after) dev.packetUdn).map (fun found ↦ found.value.id) =
          some dev.value.id ∧
        RemovesItself now before after
    else RemovesItself now (before ++ [dev]) after

/-- The expirations that a pass comes across: those of the root devices that do not stand behind a
removed one, and, once there is something to compare with, those that the scans of their services
come across. -/
def metByPass (now : ℤ) (subRes : ServiceKey → RenewalResponse) :
    Bool → List ℤ → List Device → List ℤ
  | _, seen, [] => seen
  | afterRemoval, seen, dev :: rest =>
    if isExpired now dev.value then metByPass now subRes true seen rest
    else
      let marked :=
        if afterRemoval = false ∧ 0 < dev.value.ssdpPkt.getExpiration then
          seen ++ [dev.value.ssdpPkt.getExpiration]
        else seen
      metByPass now subRes false
        (if marked = [] then [] else marked ++ metBelow now subRes marked [dev]) rest

/-- No expired root device stands directly behind another one; each removal is one of the expired
device itself; no subscription is due because its sum of `long`s has overflowed; and after the
renewals either nothing is left that expires, or everything that the pass comes across is in the
future and something of it is not after anything that is left. -/
structure HandlerCondition (now : ℤ) (subRes : ServiceKey → RenewalResponse)
    (devices : List Device) : Prop where
  separated : devices.IsChain fun dev next ↦
    ¬ (isExpired now dev.value = true ∧ isExpired now next.value = true)
  removesItself : RemovesItself now [] devices
  renews : ∀ object ∈ RoseTree.preorderIn (unexpired now devices), ∀ service ∈ object.services,
    isDue now service = true → IsLong (subscriptionExpiration service)
  waits : expirationTimes (renewed now subRes (unexpired now devices)) = [] ∨
    (∃ time ∈ metByPass now subRes false [] devices,
      ∀ other ∈ expirationTimes (renewed now subRes (unexpired now devices)), time ≤ other) ∧
    ∀ time ∈ metByPass now subRes false [] devices, now < time

/-! ### The bound -/

/-- The bound that the handler keeps is the least of what it came across, and zero when it came
across nothing. -/
def IsBoundOf (seen : List ℤ) (bound : ℤ) : Prop :=
  (∀ time ∈ seen, 0 < time) ∧ (seen = [] ∧ bound = 0 ∨ IsLeast {time | time ∈ seen} bound)

theorem isBoundOf_nil : IsBoundOf [] 0 :=
  ⟨fun _ h ↦ absurd h List.not_mem_nil, Or.inl ⟨rfl, rfl⟩⟩

theorem IsBoundOf.eq_zero_iff {seen : List ℤ} {bound : ℤ} (h : IsBoundOf seen bound) :
    bound = 0 ↔ seen = [] := by
  obtain ⟨hpos, ⟨hnil, hzero⟩ | hleast⟩ := h
  · exact ⟨fun _ ↦ hnil, fun _ ↦ hzero⟩
  · constructor
    · intro hzero
      exact absurd (hpos bound hleast.1) (by rw [hzero]; exact lt_irrefl 0)
    · intro hnil
      rw [hnil] at hleast
      exact absurd hleast.1 List.not_mem_nil

/-- The expiration of a device is marked when it is positive. -/
theorem IsBoundOf.markExpiration {seen : List ℤ} {pass : Pass}
    (h : IsBoundOf seen pass.expirationTime) (tmpTime : ℤ) :
    IsBoundOf (if 0 < tmpTime then seen ++ [tmpTime] else seen)
      (pass.markExpiration tmpTime).expirationTime := by
  unfold Pass.markExpiration
  by_cases hpos : 0 < tmpTime
  · rw [if_pos hpos]
    refine ⟨?_, Or.inr ?_⟩
    · intro time htime
      rcases List.mem_append.mp htime with htime | htime
      · exact h.1 time htime
      · rw [List.mem_singleton.mp htime]
        exact hpos
    · by_cases hmark : tmpTime < pass.expirationTime ∨ pass.expirationTime = 0
      · rw [if_pos ⟨hpos, hmark⟩]
        refine ⟨List.mem_append_right _ List.mem_cons_self, fun time htime ↦ ?_⟩
        rcases List.mem_append.mp htime with htime | htime
        · rcases hmark with hlt | hzero
          · obtain ⟨-, ⟨hnil, -⟩ | hleast⟩ := h
            · rw [hnil] at htime
              exact absurd htime List.not_mem_nil
            · exact hlt.le.trans (hleast.2 htime)
          · rw [h.eq_zero_iff.mp hzero] at htime
            exact absurd htime List.not_mem_nil
        · exact (List.mem_singleton.mp htime).ge
      · rw [if_neg fun hboth ↦ hmark hboth.2]
        rw [not_or] at hmark
        obtain ⟨-, ⟨-, hzero⟩ | hleast⟩ := h
        · exact absurd hzero hmark.2
        · refine ⟨List.mem_append_left _ hleast.1, fun time htime ↦ ?_⟩
          rcases List.mem_append.mp htime with htime | htime
          · exact hleast.2 htime
          · rw [List.mem_singleton.mp htime]
            exact not_lt.mp hmark.1
  · rw [if_neg hpos, if_neg fun hboth ↦ hpos hboth.1]
    exact h

/-- After the scan of a root device the bound is the least of what was come across. -/
theorem IsBoundOf.scanRoot {seen : List ℤ} {pass : Pass} (h : IsBoundOf seen pass.expirationTime)
    (now : ℤ) (subRes : ServiceKey → RenewalResponse) (dev : Device) :
    IsBoundOf (if seen = [] then [] else seen ++ metBelow now subRes seen [dev])
      (pass.scanRoot now subRes dev).expirationTime := by
  have hscan : (getFirstExpiratedService now subRes dev pass.expirationTime).foundSrv =
      (getFirstExpiratedServiceIn now subRes [dev] pass.expirationTime none).foundSrv := by
    rw [getFirstExpiratedServiceIn_singleton]
  unfold Pass.scanRoot
  dsimp only
  rw [hscan]
  obtain ⟨hpos, ⟨rfl, hzero⟩ | hleast⟩ := h
  · rw [if_pos rfl, foundSrv_getFirstExpiratedServiceIn_of_nonpos now subRes [dev] hzero.le, hzero]
    exact isBoundOf_nil
  · rw [if_neg (List.ne_nil_of_mem hleast.1)]
    constructor
    · intro time htime
      rcases List.mem_append.mp htime with htime | htime
      · exact hpos time htime
      · exact pos_of_mem_treeTimes now subRes (metBelow_subset now subRes [dev] seen htime)
    · right
      rcases foundSrv_getFirstExpiratedServiceIn now subRes [dev] hleast none with
        ⟨hnone, hfound⟩ | ⟨-, srv, hfound, hsrv⟩
      · rw [hfound, metBelow_eq_nil now subRes hnone, List.append_nil]
        exact hleast
      · rw [hfound]
        exact hsrv

/-! ### The device list in a pass -/

theorem deviceIds_renewed (now : ℤ) (subRes : ServiceKey → RenewalResponse)
    (devices : List Device) : deviceIds (renewed now subRes devices) = deviceIds devices := by
  unfold deviceIds renewed
  rw [RoseTree.preorderIn_mapIn, List.map_map]
  rfl

theorem renewed_append (now : ℤ) (subRes : ServiceKey → RenewalResponse)
    (first second : List Device) :
    renewed now subRes (first ++ second) =
      renewed now subRes first ++ renewed now subRes second := by
  unfold renewed
  rw [RoseTree.mapIn_eq_map, RoseTree.mapIn_eq_map, RoseTree.mapIn_eq_map, List.map_append]

/-- The services do not matter for a lookup. -/
theorem lookup_renewed (now : ℤ) (subRes : ServiceKey → RenewalResponse)
    (devices rest : List Device) (udn : CString) :
    (lookup (renewed now subRes devices ++ rest) udn).map (fun found ↦ found.value.id) =
      (lookup (devices ++ rest) udn).map fun found ↦ found.value.id := by
  unfold lookup
  split_ifs with hlen
  · rfl
  · have hne : udn ≠ [] := by
      rintro rfl
      exact hlen le_rfl
    rw [searchByUdn_eq_find _ hne, searchByUdn_eq_find _ hne, RoseTree.subtreesIn_append,
      RoseTree.subtreesIn_append, RoseTree.subtreesIn_mapIn, List.find?_append, List.find?_append,
      List.find?_map]
    have hsame : (fun dev : Device ↦ decide (dev.value.udn = some udn)) ∘
        RoseTree.map (renewObject now subRes) = fun dev ↦ decide (dev.value.udn = some udn) := by
      funext dev
      rw [Function.comp_apply, RoseTree.value_map]
      rfl
    rw [hsame]
    cases (RoseTree.subtreesIn devices).find? fun dev ↦ decide (dev.value.udn = some udn) with
    | none => rfl
    | some found =>
      rw [Option.map_some, Option.some_or, Option.some_or, Option.map_some, Option.map_some,
        RoseTree.value_map]
      rfl

/-- No root device before or behind another one has its identity. -/
theorem ne_of_nodup {before after : List Device} {dev : Device}
    (hnodup : (deviceIds (before ++ dev :: after)).Nodup) :
    (∀ other ∈ before, other.id ≠ dev.id) ∧ ∀ other ∈ after, other.id ≠ dev.id := by
  rw [deviceIds_append, deviceIds_cons] at hnodup
  obtain ⟨-, hafter, hdisjoint⟩ := List.nodup_append.mp hnodup
  constructor
  · intro other hother heq
    exact hdisjoint _ (id_mem_deviceIds_of_mem hother) _ List.mem_cons_self heq
  · intro other hother heq
    refine (List.nodup_cons.mp hafter).1 (List.mem_append_right _ ?_)
    rw [← heq]
    exact id_mem_deviceIds_of_mem hother

theorem nodup_of_cons {before after : List Device} {dev : Device}
    (hnodup : (deviceIds (before ++ dev :: after)).Nodup) :
    (deviceIds (before ++ after)).Nodup := by
  rw [deviceIds_append, deviceIds_cons] at hnodup
  rw [deviceIds_append]
  exact hnodup.sublist (((List.sublist_append_right _ _).cons _).append_left _)

/-- A root device of the list is found by its identity. -/
theorem findRoot_eq {pass : Pass} {before after : List Device} {dev : Device}
    (hlist : pass.ctrlPoint.deviceList = before ++ dev :: after)
    (hnodup : (deviceIds (before ++ dev :: after)).Nodup) :
    pass.findRoot dev.value.id = some dev := by
  have hbefore : ∀ other ∈ before, other.value.id ≠ dev.value.id := (ne_of_nodup hnodup).1
  unfold Pass.findRoot
  rw [hlist, List.find?_append, List.find?_eq_none.mpr (by simpa using hbefore),
    List.find?_cons_of_pos (by simp)]
  rfl

theorem of_findRoot_eq_some {pass : Pass} {id : DeviceId} {dev : Device}
    (h : pass.findRoot id = some dev) : dev ∈ pass.ctrlPoint.deviceList ∧ dev.value.id = id := by
  have hid := List.find?_some h
  exact ⟨List.mem_of_find?_eq_some h, of_decide_eq_true hid⟩

/-- The scan of a root device changes its services. -/
theorem scanRoot_deviceList (now : ℤ) (subRes : ServiceKey → RenewalResponse) {pass : Pass}
    {before after : List Device} {dev : Device}
    (hlist : pass.ctrlPoint.deviceList = before ++ dev :: after)
    (hnodup : (deviceIds (before ++ dev :: after)).Nodup) :
    (pass.scanRoot now subRes dev).ctrlPoint.deviceList =
      before ++ renewed now subRes [dev] ++ after := by
  obtain ⟨hbefore, hafter⟩ := ne_of_nodup hnodup
  unfold Pass.scanRoot ControlPoint.updateRoot renewed
  dsimp only
  rw [hlist, List.map_append, List.map_cons, scanned_getFirstExpiratedService,
    RoseTree.mapIn_singleton, List.append_assoc]
  congr 1
  · exact ControlPoint.map_update_eq_self _ hbefore
  · have htop : dev.id = dev.value.id := rfl
    rw [if_pos htop]
    exact congrArg _ (ControlPoint.map_update_eq_self _ hafter)

theorem scanRoot_attempts (now : ℤ) (subRes : ServiceKey → RenewalResponse) (pass : Pass)
    (dev : Device) :
    (pass.scanRoot now subRes dev).attempts = pass.attempts ++ dueServices now [dev] := by
  have hscan := attempts_getFirstExpiratedServiceIn now subRes [dev] pass.expirationTime none
  rw [getFirstExpiratedServiceIn_singleton] at hscan
  unfold Pass.scanRoot
  dsimp only at hscan ⊢
  rw [hscan]

@[simp] theorem markExpiration_ctrlPoint (pass : Pass) (tmpTime : ℤ) :
    (pass.markExpiration tmpTime).ctrlPoint = pass.ctrlPoint := by
  unfold Pass.markExpiration
  split_ifs <;> rfl

@[simp] theorem markExpiration_attempts (pass : Pass) (tmpTime : ℤ) :
    (pass.markExpiration tmpTime).attempts = pass.attempts := by
  unfold Pass.markExpiration
  split_ifs <;> rfl

/-- A removal takes out the root device that its packet names. -/
theorem remove_deviceList {pass : Pass} {before after : List Device} {dev : Device}
    (hlist : pass.ctrlPoint.deviceList = before ++ dev :: after)
    (hnodup : (deviceIds (before ++ dev :: after)).Nodup)
    (hlookup : (lookup (before ++ dev :: after) dev.packetUdn).map (fun found ↦ found.value.id) =
      some dev.value.id) :
    (pass.remove dev.ssdpPkt).ctrlPoint.deviceList = before ++ after := by
  obtain ⟨found, hfound, hid⟩ := Option.map_eq_some_iff.mp hlookup
  have hget : pass.ctrlPoint.invalidate.getDeviceByUdn
      (some (usnGetUdn dev.ssdpPkt.getUsn udnLenMax)) = some found := by
    rw [← hlist] at hfound
    exact hfound
  unfold Pass.remove ControlPoint.removeDeviceBySsdpPacket
  dsimp only
  rw [hget]
  have hdelete : (pass.ctrlPoint.invalidate.deleteDevice dev.id).deviceList =
      (before ++ dev :: after).filter fun other ↦ other.id ≠ dev.id := by
    rw [← hlist] at hnodup ⊢
    refine ControlPoint.deleteDevice_root hnodup ?_
    show dev ∈ pass.ctrlPoint.deviceList
    rw [hlist]
    exact List.mem_append_right _ List.mem_cons_self
  obtain ⟨hbefore, hafter⟩ := ne_of_nodup hnodup
  have hfoundId : found.id = dev.id := hid
  dsimp only
  rw [hfoundId, hdelete, List.filter_append, List.filter_cons_of_neg (by simp),
    List.filter_eq_self.mpr (by simpa using hbefore),
    List.filter_eq_self.mpr (by simpa using hafter)]

/-! ### The loop -/

/-- The identities of the devices of a list. -/
abbrev rootIds (devices : List Device) : List DeviceId := devices.map fun dev ↦ dev.value.id

theorem nodup_rootIds {devices : List Device} (hnodup : (deviceIds devices).Nodup) :
    (rootIds devices).Nodup := by
  induction devices with
  | nil => exact List.nodup_nil
  | cons dev rest ih =>
    rw [deviceIds_cons] at hnodup
    obtain ⟨hfresh, hrest⟩ := List.nodup_cons.mp hnodup
    refine List.nodup_cons.mpr ⟨fun hmem ↦ hfresh ?_, ih (hrest.sublist
      (List.sublist_append_right _ _))⟩
    obtain ⟨other, hother, heq⟩ := List.mem_map.mp hmem
    have hid : other.id = dev.id := heq
    rw [← hid]
    exact List.mem_append_right _ (id_mem_deviceIds_of_mem hother)

/-- The device with which the loop goes on: behind a removed device it is the first of the rest. -/
def savedDevice (afterRemoval : Bool) (rest : List Device) : Option DeviceId :=
  if afterRemoval then (rootIds rest).head? else none

/-- No expired device stands directly behind another one, nor at the head of the rest behind a
removed one. -/
def SeparatedFrom (now : ℤ) : Bool → List Device → Prop
  | _, [] => True
  | afterRemoval, dev :: rest =>
    ¬ (afterRemoval = true ∧ isExpired now dev.value = true) ∧
      SeparatedFrom now (isExpired now dev.value) rest

section loop

variable {now : ℤ} {subRes : ServiceKey → RenewalResponse}

theorem run_nil (saved : Option DeviceId) (pass : Pass) :
    Pass.run now subRes saved [] pass = some pass := by
  cases saved <;> rfl

/-- At an expired device, the loop removes what its packet names and goes on behind it. -/
theorem run_of_expired {pass : Pass} {before after : List Device} {dev : Device}
    (hlist : pass.ctrlPoint.deviceList = before ++ dev :: after)
    (hnodup : (deviceIds (before ++ dev :: after)).Nodup)
    (hexpired : isExpired now dev.value = true) :
    Pass.run now subRes none (rootIds (dev :: after)) pass =
      Pass.run now subRes (savedDevice true after) (rootIds after) (pass.remove dev.ssdpPkt) := by
  rw [rootIds, List.map_cons, Pass.run, findRoot_eq hlist hnodup]
  dsimp only
  rw [if_pos hexpired]
  cases after with
  | nil => exact (run_nil _ _).symm
  | cons next rest =>
    have hnext : pass.findRoot next.value.id = some next := by
      have hsplit : before ++ dev :: next :: rest = (before ++ [dev]) ++ next :: rest := by
        rw [List.append_assoc, List.singleton_append]
      exact findRoot_eq (hlist.trans hsplit) (hsplit ▸ hnodup)
    rw [List.map_cons, List.find?_cons_of_pos (by rw [hnext]; rfl)]
    rfl

/-- At an unexpired device, the loop marks its expiration, unless it stands behind a removed one,
and scans its services. -/
theorem run_of_unexpired {pass : Pass} {before after : List Device} {dev : Device}
    (hlist : pass.ctrlPoint.deviceList = before ++ dev :: after)
    (hnodup : (deviceIds (before ++ dev :: after)).Nodup)
    (hunexpired : isExpired now dev.value = false) (afterRemoval : Bool) :
    Pass.run now subRes (savedDevice afterRemoval (dev :: after)) (rootIds (dev :: after)) pass =
      Pass.run now subRes none (rootIds after)
        ((if afterRemoval then pass
          else pass.markExpiration dev.value.ssdpPkt.getExpiration).scanRoot now subRes dev) := by
  cases afterRemoval with
  | true =>
    rw [savedDevice, if_pos rfl, rootIds, List.map_cons, List.head?_cons, Pass.run,
      if_neg (not_not.mpr rfl), findRoot_eq hlist hnodup]
    rfl
  | false =>
    rw [savedDevice, if_neg Bool.false_ne_true, rootIds, List.map_cons, Pass.run,
      findRoot_eq hlist hnodup]
    dsimp only
    rw [if_neg (Bool.not_eq_true _ ▸ hunexpired), if_neg Bool.false_ne_true]
    rfl

theorem unexpired_cons (dev : Device) (rest : List Device) :
    unexpired now (dev :: rest) =
      if isExpired now dev.value then unexpired now rest else dev :: unexpired now rest := by
  unfold unexpired
  rw [List.filter_cons]
  cases isExpired now dev.value <;> rfl

theorem marked_ctrlPoint (afterRemoval : Bool) (pass : Pass) (tmpTime : ℤ) :
    (if afterRemoval then pass else pass.markExpiration tmpTime).ctrlPoint = pass.ctrlPoint := by
  split_ifs
  · rfl
  · exact markExpiration_ctrlPoint pass tmpTime

theorem marked_attempts (afterRemoval : Bool) (pass : Pass) (tmpTime : ℤ) :
    (if afterRemoval then pass else pass.markExpiration tmpTime).attempts = pass.attempts := by
  split_ifs
  · rfl
  · exact markExpiration_attempts pass tmpTime

/-- Behind a removed device the expiration is not marked. -/
theorem IsBoundOf.marked {seen : List ℤ} {pass : Pass} (h : IsBoundOf seen pass.expirationTime)
    (afterRemoval : Bool) (tmpTime : ℤ) :
    IsBoundOf (if afterRemoval = false ∧ 0 < tmpTime then seen ++ [tmpTime] else seen)
      (if afterRemoval then pass else pass.markExpiration tmpTime).expirationTime := by
  cases afterRemoval with
  | true =>
    rw [if_pos rfl, if_neg fun hboth ↦ Bool.false_ne_true hboth.1.symm]
    exact h
  | false =>
    rw [if_neg Bool.false_ne_true]
    simpa only [true_and] using h.markExpiration tmpTime

theorem dueServices_append (first second : List Device) :
    dueServices now (first ++ second) = dueServices now first ++ dueServices now second := by
  unfold dueServices
  rw [RoseTree.preorderIn_append, List.flatMap_append]

/-- A run of the loop from a device on, when no expired device stands behind another one and every
expired device is the one that its packet names. -/
theorem run_of_separated (rest : List Device) {afterRemoval : Bool} {before : List Device}
    {seen : List ℤ} {pass : Pass}
    (hlist : pass.ctrlPoint.deviceList = renewed now subRes before ++ rest)
    (hnodup : (deviceIds (before ++ rest)).Nodup) (hbound : IsBoundOf seen pass.expirationTime)
    (hseparated : SeparatedFrom now afterRemoval rest)
    (hremoves : RemovesItself now before rest) :
    ∃ pass', Pass.run now subRes (savedDevice afterRemoval rest) (rootIds rest) pass = some pass' ∧
      pass'.ctrlPoint.deviceList = renewed now subRes (before ++ unexpired now rest) ∧
      pass'.attempts = pass.attempts ++ dueServices now (unexpired now rest) ∧
      IsBoundOf (metByPass now subRes afterRemoval seen rest) pass'.expirationTime := by
  induction rest generalizing afterRemoval before seen pass with
  | nil =>
    refine ⟨pass, run_nil _ _, ?_, ?_, hbound⟩
    · rw [hlist, show unexpired now [] = [] from rfl, List.append_nil, List.append_nil]
    · rw [show dueServices now (unexpired now []) = [] from rfl, List.append_nil]
  | cons dev rest ih =>
    have hnodup' : (deviceIds (renewed now subRes before ++ dev :: rest)).Nodup := by
      rw [deviceIds_append, deviceIds_renewed, ← deviceIds_append]
      exact hnodup
    obtain ⟨hfirst, hseparated⟩ := hseparated
    unfold RemovesItself at hremoves
    rw [unexpired_cons, metByPass]
    by_cases hexpired : isExpired now dev.value = true
    · rw [if_pos hexpired] at hremoves
      rw [if_pos hexpired, if_pos hexpired]
      obtain rfl : afterRemoval = false := by
        rw [Bool.eq_false_iff]
        exact fun hafter ↦ hfirst ⟨hafter, hexpired⟩
      rw [hexpired] at hseparated
      have hlookup := hremoves.1
      rw [← lookup_renewed now subRes] at hlookup
      have hremoved := remove_deviceList hlist hnodup' hlookup
      have hrestNodup : (deviceIds (before ++ rest)).Nodup := nodup_of_cons hnodup
      obtain ⟨pass', hrun, hdevices, hattempts, hbound'⟩ :=
        ih hremoved hrestNodup hbound hseparated hremoves.2
      refine ⟨pass', ?_, hdevices, hattempts, hbound'⟩
      rw [← hrun]
      exact run_of_expired hlist hnodup' hexpired
    · rw [if_neg hexpired] at hremoves
      rw [if_neg hexpired, if_neg hexpired]
      rw [Bool.not_eq_true] at hexpired
      rw [hexpired] at hseparated
      have hmarkedBound := hbound.marked afterRemoval dev.value.ssdpPkt.getExpiration
      have hscanned := scanRoot_deviceList now subRes ((congrArg ControlPoint.deviceList
        (marked_ctrlPoint afterRemoval pass dev.value.ssdpPkt.getExpiration)).trans hlist) hnodup'
      rw [← renewed_append] at hscanned
      have hrestNodup : (deviceIds ((before ++ [dev]) ++ rest)).Nodup := by
        rw [List.append_assoc]
        exact hnodup
      obtain ⟨pass', hrun, hdevices, hattempts, hbound'⟩ :=
        ih hscanned hrestNodup (hmarkedBound.scanRoot now subRes dev) hseparated hremoves
      refine ⟨pass', ?_, ?_, ?_, hbound'⟩
      · rw [run_of_unexpired hlist hnodup' hexpired, ← hrun]
        rfl
      · rw [hdevices, List.append_assoc, List.singleton_append]
      · rw [hattempts, scanRoot_attempts, marked_attempts, List.append_assoc, ← dueServices_append,
          List.singleton_append]

/-! ### What the loop leaves behind it -/

/-- A list has an expired device with the identity. -/
def HasExpired (now : ℤ) (devices : List Device) (id : DeviceId) : Prop :=
  ∃ dev ∈ devices, dev.value.id = id ∧ isExpired now dev.value = true

/-- The devices whose expiration the loop still looks at. -/
def stillChecked : Option DeviceId → List DeviceId → List DeviceId
  | none, ids => ids
  | some tmpDev, ids => (ids.dropWhile fun id ↦ decide (id ≠ tmpDev)).tail

theorem stillChecked_sublist (saved : Option DeviceId) (ids : List DeviceId) :
    (stillChecked saved ids).Sublist ids := by
  cases saved with
  | none => exact List.Sublist.refl ids
  | some tmpDev => exact (List.tail_sublist _).trans (List.dropWhile_sublist _)

/-- A scan leaves every root device in its place. -/
theorem rootIds_scanRoot (pass : Pass) (dev : Device) :
    rootIds (pass.scanRoot now subRes dev).ctrlPoint.deviceList =
      rootIds pass.ctrlPoint.deviceList := by
  unfold Pass.scanRoot ControlPoint.updateRoot rootIds
  dsimp only
  rw [List.map_map]
  refine List.map_congr_left fun root _ ↦ ?_
  rw [Function.comp_apply, scanned_getFirstExpiratedService]
  split_ifs with hid
  · rw [RoseTree.value_map]
    exact hid.symm
  · rfl

/-- A scan leaves every expired device in the list. -/
theorem HasExpired.scanRoot {pass : Pass} {id : DeviceId} {dev : Device}
    (hroots : (rootIds pass.ctrlPoint.deviceList).Nodup) (hdev : dev ∈ pass.ctrlPoint.deviceList)
    (h : HasExpired now pass.ctrlPoint.deviceList id) :
    HasExpired now (pass.scanRoot now subRes dev).ctrlPoint.deviceList id := by
  obtain ⟨root, hroot, hid, hexpired⟩ := h
  have hmem := List.mem_map_of_mem (f := fun root : Device ↦ if root.id = dev.value.id then
    (getFirstExpiratedService now subRes dev pass.expirationTime).scanned else root) hroot
  by_cases hsame : root.id = dev.value.id
  · obtain rfl := List.inj_on_of_nodup_map hroots hroot hdev hsame
    refine ⟨_, hmem, ?_⟩
    rw [if_pos hsame, scanned_getFirstExpiratedService, RoseTree.value_map]
    exact ⟨hid, hexpired⟩
  · refine ⟨_, hmem, ?_⟩
    rw [if_neg hsame]
    exact ⟨hid, hexpired⟩

/-- A removal takes the device that the packet names out of the device list. -/
theorem remove_cases (pass : Pass) (ssdpPkt : SsdpPacket) :
    lookup pass.ctrlPoint.deviceList (usnGetUdn ssdpPkt.getUsn udnLenMax) = none ∧
        (pass.remove ssdpPkt).ctrlPoint.deviceList = pass.ctrlPoint.deviceList ∨
      ∃ found,
        lookup pass.ctrlPoint.deviceList (usnGetUdn ssdpPkt.getUsn udnLenMax) = some found ∧
        (pass.remove ssdpPkt).ctrlPoint.deviceList =
          RoseTree.pruneIn (fun object ↦ decide (object.id = found.value.id))
            pass.ctrlPoint.deviceList := by
  have hget : pass.ctrlPoint.invalidate.getDeviceByUdn
      (some (usnGetUdn ssdpPkt.getUsn udnLenMax)) =
        lookup pass.ctrlPoint.deviceList (usnGetUdn ssdpPkt.getUsn udnLenMax) := rfl
  unfold Pass.remove ControlPoint.removeDeviceBySsdpPacket
  dsimp only
  rw [hget]
  cases hlookup : lookup pass.ctrlPoint.deviceList (usnGetUdn ssdpPkt.getUsn udnLenMax) with
  | none => exact Or.inl ⟨rfl, rfl⟩
  | some found => exact Or.inr ⟨found, rfl, rfl⟩

theorem rootIds_remove_sublist (pass : Pass) (ssdpPkt : SsdpPacket) :
    (rootIds (pass.remove ssdpPkt).ctrlPoint.deviceList).Sublist
      (rootIds pass.ctrlPoint.deviceList) := by
  rcases remove_cases pass ssdpPkt with ⟨-, hsame⟩ | ⟨found, -, hpruned⟩
  · rw [hsame]
  · have hvalues : ∀ devices : List Device,
        rootIds devices = (devices.map RoseTree.value).map DeviceObject.id := by
      intro devices
      rw [List.map_map]
      rfl
    rw [hpruned, hvalues, hvalues, RoseTree.map_value_pruneIn]
    exact List.filter_sublist.map _

/-- A removal takes out at most the root device that its packet names. -/
theorem HasExpired.remove {pass : Pass} {id : DeviceId}
    (h : HasExpired now pass.ctrlPoint.deviceList id) {ssdpPkt : SsdpPacket}
    (hne : (lookup pass.ctrlPoint.deviceList (usnGetUdn ssdpPkt.getUsn udnLenMax)).map
      (fun found ↦ found.value.id) ≠ some id) :
    HasExpired now (pass.remove ssdpPkt).ctrlPoint.deviceList id := by
  rcases remove_cases pass ssdpPkt with ⟨-, hsame⟩ | ⟨found, hfound, hpruned⟩
  · rw [hsame]
    exact h
  · obtain ⟨root, hroot, hid, hexpired⟩ := h
    rw [hfound, Option.map_some] at hne
    have hother : root.value.id ≠ found.value.id := by
      intro heq
      exact hne (congrArg some (heq.symm.trans hid))
    rw [hpruned, RoseTree.pruneIn_eq_map_filter]
    refine ⟨_, List.mem_map_of_mem (List.mem_filter.mpr ⟨hroot, ?_⟩), hid, hexpired⟩
    simpa using hother

/-- When no expired device is left at the end, every one that is there was still ahead of the
loop. -/
theorem expired_mem_of_run {ids : List DeviceId} (hids : ids.Nodup) {saved : Option DeviceId}
    {pass pass' : Pass} (hroots : (rootIds pass.ctrlPoint.deviceList).Nodup)
    (hrun : Pass.run now subRes saved ids pass = some pass')
    (hnone : ∀ id, ¬ HasExpired now pass'.ctrlPoint.deviceList id) {id : DeviceId}
    (hid : HasExpired now pass.ctrlPoint.deviceList id) : id ∈ stillChecked saved ids := by
  induction ids generalizing saved pass id with
  | nil =>
    rw [run_nil] at hrun
    obtain rfl := Option.some.inj hrun
    exact absurd hid (hnone id)
  | cons head rest ih =>
    obtain ⟨hhead, hrest⟩ := List.nodup_cons.mp hids
    have hscan : ∀ {pass : Pass} {dev : Device}, (rootIds pass.ctrlPoint.deviceList).Nodup →
        dev ∈ pass.ctrlPoint.deviceList → HasExpired now pass.ctrlPoint.deviceList id →
        Pass.run now subRes none rest (pass.scanRoot now subRes dev) = some pass' → id ∈ rest := by
      intro pass dev hroots hdev hid hrun
      refine ih hrest ?_ hrun (hid.scanRoot hroots hdev)
      rw [rootIds_scanRoot]
      exact hroots
    cases saved with
    | none =>
      rw [Pass.run] at hrun
      split at hrun
      · exact List.mem_cons_of_mem _ (ih hrest hroots hrun hid)
      · rename_i dev hfind
        obtain ⟨hdev, hdevId⟩ := of_findRoot_eq_some hfind
        split_ifs at hrun with hexpired
        · have hremovedRoots : (rootIds (pass.remove dev.ssdpPkt).ctrlPoint.deviceList).Nodup :=
            hroots.sublist (rootIds_remove_sublist pass dev.ssdpPkt)
          have hlater : ∀ id', HasExpired now (pass.remove dev.ssdpPkt).ctrlPoint.deviceList id' →
              id' ∈ rest := by
            intro id' hid'
            split at hrun
            · obtain rfl := Option.some.inj hrun
              exact absurd hid' (hnone id')
            · exact (stillChecked_sublist _ _).subset (ih hrest hremovedRoots hrun hid')
          have hexpiredHead : HasExpired now pass.ctrlPoint.deviceList head :=
            ⟨dev, hdev, hdevId, hexpired⟩
          by_cases hremoved : (lookup pass.ctrlPoint.deviceList
              (usnGetUdn dev.ssdpPkt.getUsn udnLenMax)).map (fun found ↦ found.value.id) = some head
          · by_cases heq : id = head
            · rw [heq]
              exact List.mem_cons_self
            · refine List.mem_cons_of_mem _ (hlater id (hid.remove ?_))
              rw [hremoved]
              exact fun hsome ↦ heq (Option.some.inj hsome).symm
          · exact absurd (hlater head (hexpiredHead.remove hremoved)) hhead
        · refine List.mem_cons_of_mem _ (hscan ?_ ?_ ?_ hrun)
          · rw [markExpiration_ctrlPoint]
            exact hroots
          · rw [markExpiration_ctrlPoint]
            exact hdev
          · rw [markExpiration_ctrlPoint]
            exact hid
    | some tmpDev =>
      rw [Pass.run] at hrun
      split_ifs at hrun with hne
      · rw [stillChecked, List.dropWhile_cons_of_pos (by simpa using hne)]
        exact ih hrest hroots hrun hid
      · rw [stillChecked, List.dropWhile_cons_of_neg (by simpa using hne), List.tail_cons]
        split at hrun
        · exact absurd hrun (Option.some_ne_none pass').symm
        · rename_i dev hfind
          exact hscan hroots (of_findRoot_eq_some hfind).1 hid hrun

/-- When no expired device is left at the end of the loop, no expired device stood behind another
one and every expired device was the one that its packet named. -/
theorem separated_of_run (rest : List Device) {afterRemoval : Bool} {before : List Device}
    {pass pass' : Pass} (hlist : pass.ctrlPoint.deviceList = renewed now subRes before ++ rest)
    (hnodup : (deviceIds (before ++ rest)).Nodup)
    (hrun : Pass.run now subRes (savedDevice afterRemoval rest) (rootIds rest) pass = some pass')
    (hnone : ∀ id, ¬ HasExpired now pass'.ctrlPoint.deviceList id)
    (hhead : afterRemoval = true → ∀ dev, rest.head? = some dev → isExpired now dev.value = false) :
    SeparatedFrom now afterRemoval rest ∧ RemovesItself now before rest := by
  induction rest generalizing afterRemoval before pass with
  | nil => exact ⟨trivial, trivial⟩
  | cons dev rest ih =>
    have hnodup' : (deviceIds (renewed now subRes before ++ dev :: rest)).Nodup := by
      rw [deviceIds_append, deviceIds_renewed, ← deviceIds_append]
      exact hnodup
    have hrestNodup : (deviceIds (before ++ rest)).Nodup := nodup_of_cons hnodup
    unfold SeparatedFrom RemovesItself
    by_cases hexpired : isExpired now dev.value = true
    · obtain rfl : afterRemoval = false := by
        rw [Bool.eq_false_iff]
        intro hafter
        rw [hhead hafter dev rfl] at hexpired
        exact Bool.false_ne_true hexpired
      have hrun' := (run_of_expired hlist hnodup' hexpired).symm.trans hrun
      have hroots : (rootIds (pass.remove dev.ssdpPkt).ctrlPoint.deviceList).Nodup := by
        refine List.Nodup.sublist (rootIds_remove_sublist pass dev.ssdpPkt) ?_
        rw [hlist]
        exact nodup_rootIds hnodup'
      have hrestIds : (rootIds (dev :: rest)).Nodup :=
        (nodup_rootIds hnodup).sublist ((List.sublist_append_right _ _).map _)
      obtain ⟨hdevRest, hrestIds⟩ := List.nodup_cons.mp hrestIds
      have hlater : ∀ id, HasExpired now (pass.remove dev.ssdpPkt).ctrlPoint.deviceList id →
          id ∈ stillChecked (savedDevice true rest) (rootIds rest) :=
        fun id hid ↦ expired_mem_of_run hrestIds hroots hrun' hnone hid
      have hlookup : (lookup (renewed now subRes before ++ dev :: rest) dev.packetUdn).map
          (fun found ↦ found.value.id) = some dev.value.id := by
        by_contra hne
        have hkept : HasExpired now (pass.remove dev.ssdpPkt).ctrlPoint.deviceList
            dev.value.id := by
          refine HasExpired.remove ⟨dev, ?_, rfl, hexpired⟩ ?_
          · rw [hlist]
            exact List.mem_append_right _ List.mem_cons_self
          · rw [hlist]
            exact hne
        exact hdevRest ((stillChecked_sublist _ _).subset (hlater _ hkept))
      have hremoved := remove_deviceList hlist hnodup' hlookup
      have hnext : ∀ next, rest.head? = some next → isExpired now next.value = false := by
        intro next hsome
        obtain ⟨later, rfl⟩ := List.head?_eq_some_iff.mp hsome
        rw [Bool.eq_false_iff]
        intro hexpired'
        have hmem := hlater next.value.id ⟨next, by
          rw [hremoved]
          exact List.mem_append_right _ List.mem_cons_self, rfl, hexpired'⟩
        rw [savedDevice, if_pos rfl, rootIds, List.map_cons, List.head?_cons, stillChecked,
          List.dropWhile_cons_of_neg (by simp), List.tail_cons] at hmem
        exact (List.nodup_cons.mp hrestIds).1 hmem
      obtain ⟨hseparated, hremoves⟩ := ih hremoved hrestNodup hrun' fun _ ↦ hnext
      rw [if_pos hexpired, hexpired, ← lookup_renewed now subRes]
      exact ⟨⟨fun hboth ↦ Bool.false_ne_true hboth.1, hseparated⟩, hlookup, hremoves⟩
    · rw [if_neg hexpired]
      rw [Bool.not_eq_true] at hexpired
      rw [run_of_unexpired hlist hnodup' hexpired] at hrun
      have hscanned := scanRoot_deviceList now subRes ((congrArg ControlPoint.deviceList
        (marked_ctrlPoint afterRemoval pass dev.value.ssdpPkt.getExpiration)).trans hlist) hnodup'
      rw [← renewed_append] at hscanned
      have hrestNodup : (deviceIds ((before ++ [dev]) ++ rest)).Nodup := by
        rw [List.append_assoc]
        exact hnodup
      have hrun' : Pass.run now subRes (savedDevice false rest) (rootIds rest) _ = some pass' :=
          hrun
      obtain ⟨hseparated, hremoves⟩ := ih hscanned hrestNodup hrun' fun hafter ↦
        absurd hafter Bool.false_ne_true
      rw [hexpired]
      exact ⟨⟨fun hboth ↦ Bool.false_ne_true hboth.2, hseparated⟩, hremoves⟩

end loop

/-! ### Exactly when a pass is exact -/

/-- The condition from the head of the list on is the condition on neighbours. -/
theorem separatedFrom_iff (now : ℤ) (devices : List Device) (afterRemoval : Bool) :
    SeparatedFrom now afterRemoval devices ↔
      (afterRemoval = true → ∀ dev, devices.head? = some dev → isExpired now dev.value = false) ∧
        devices.IsChain fun dev next ↦
          ¬ (isExpired now dev.value = true ∧ isExpired now next.value = true) := by
  induction devices generalizing afterRemoval with
  | nil => simp [SeparatedFrom]
  | cons dev rest ih =>
    rw [SeparatedFrom, ih]
    cases rest with
    | nil => simp
    | cons next rest => simp [List.isChain_cons_cons]

/-- A wait that ends in time for everything that expires. -/
theorem waits_iff {now : ℕ} {met times : List ℤ} {bound : ℤ} (h : IsBoundOf met bound) :
    (∀ time ∈ times, ∃ wakeUp, condWait now (waitTimeout now bound) = some wakeUp ∧
        wakeUp ≤ time) ↔
      times = [] ∨ (∃ time ∈ met, ∀ other ∈ times, time ≤ other) ∧ ∀ time ∈ met, now < time := by
  have hwait : condWait now (waitTimeout now bound) = if now < bound then some bound else none := by
    unfold condWait waitTimeout
    by_cases hlt : (now : ℤ) < bound
    · rw [if_pos hlt, if_pos hlt, if_neg (by omega)]
      congr 1
      omega
    · rw [if_neg hlt, if_neg hlt, if_pos (by omega)]
  rw [hwait]
  obtain ⟨-, ⟨rfl, rfl⟩ | hleast⟩ := h
  · rw [if_neg (by omega)]
    constructor
    · intro hnone
      refine Or.inl (List.eq_nil_iff_forall_not_mem.mpr fun time htime ↦ ?_)
      obtain ⟨wakeUp, hsome, -⟩ := hnone time htime
      exact absurd hsome (Option.some_ne_none wakeUp).symm
    · rintro (rfl | ⟨⟨time, htime, -⟩, -⟩)
      · exact fun time htime ↦ absurd htime List.not_mem_nil
      · exact absurd htime List.not_mem_nil
  · by_cases hlt : (now : ℤ) < bound
    · rw [if_pos hlt]
      constructor
      · intro hwaits
        refine Or.inr ⟨⟨bound, hleast.1, fun other hother ↦ ?_⟩, fun time htime ↦
          hlt.trans_le (hleast.2 htime)⟩
        obtain ⟨wakeUp, hsome, hle⟩ := hwaits other hother
        rwa [← Option.some.inj hsome] at hle
      · rintro (rfl | ⟨⟨time, htime, hearliest⟩, -⟩) other hother
        · exact absurd hother List.not_mem_nil
        · exact ⟨bound, rfl, (hleast.2 htime).trans (hearliest other hother)⟩
    · rw [if_neg hlt]
      constructor
      · intro hnone
        refine Or.inl (List.eq_nil_iff_forall_not_mem.mpr fun time htime ↦ ?_)
        obtain ⟨wakeUp, hsome, -⟩ := hnone time htime
        exact absurd hsome (Option.some_ne_none wakeUp).symm
      · rintro (rfl | ⟨-, hfuture⟩)
        · exact fun time htime ↦ absurd htime List.not_mem_nil
        · exact absurd (hfuture bound hleast.1) hlt

/-- A reading of the clock. -/
def IsClockTime (time : ℤ) : Prop := 0 ≤ time ∧ time ≤ longMax

/-- A sum that overflows is far in the future, and the handler takes it for none: it finds the same
devices expired. -/
theorem isExpired_eq {now : ℤ} (hnow : IsClockTime now) {object : DeviceObject}
    (hstamp : IsClockTime object.ssdpPkt.timeStamp) :
    isExpired now object = hasCome now (deviceExpiration object) := by
  obtain ⟨hmin, hmax⟩ := object.ssdpPkt.isLong_getMaxAge
  obtain ⟨hpos, hle⟩ := hstamp
  unfold isExpired hasCome deviceExpiration SsdpPacket.getExpiration
  split_ifs with hzero
  · rfl
  · by_cases hlong : object.ssdpPkt.timeStamp + object.ssdpPkt.getMaxAge ≤ longMax
    · rw [longAdd_eq_iff.mpr ⟨by omega, hlong⟩]
    · have hneg := longAdd_neg hle hmax (by omega)
      have hlate : ¬ object.ssdpPkt.timeStamp + object.ssdpPkt.getMaxAge ≤ now := by
        have := hnow.2
        omega
      rw [decide_eq_false (by omega), decide_eq_false hlate, Bool.false_and, Bool.and_false]

theorem remaining_eq {now : ℤ} (hnow : IsClockTime now) {devices : List Device}
    (hstamps : ∀ dev ∈ devices, IsClockTime dev.value.ssdpPkt.timeStamp) :
    remaining now devices = unexpired now devices := by
  refine List.filter_congr fun dev hdev ↦ ?_
  rw [isExpired_eq hnow (hstamps dev hdev)]

theorem getSubscriptionExpiration_eq {service : Service}
    (hlong : IsLong (subscriptionExpiration service)) :
    getSubscriptionExpiration service = subscriptionExpiration service := by
  have hsum : service.subscriptionTimestamp + service.subscriptionTimeout + -subscriptionDelay =
      subscriptionExpiration service := by
    unfold subscriptionExpiration
    omega
  unfold getSubscriptionExpiration longAdd
  rw [Int.bmod_add_bmod, hsum]
  unfold IsLong longMax at hlong
  exact Int.bmod_eq_of_le (by omega) (by omega)

/-- A time that has come is a `long`. -/
theorem IsClockTime.isLong_of_hasCome {now : ℤ} (hnow : IsClockTime now) {time : ℤ}
    (hcome : hasCome now time = true) : IsLong time := by
  obtain ⟨hpos, hle⟩ := Bool.and_eq_true_iff.mp hcome
  have hpos' := of_decide_eq_true hpos
  have hmax := (of_decide_eq_true hle).trans hnow.2
  unfold IsLong longMax at *
  omega

/-- What is due by the exact sum is due by the sum of `long`s. -/
theorem isDue_of_hasCome {now : ℤ} (hnow : IsClockTime now) {service : Service}
    (hdue : (service.isSubscribed && hasCome now (subscriptionExpiration service)) = true) :
    isDue now service = true := by
  have hcome := (Bool.and_eq_true_iff.mp hdue).2
  rw [isDue, getSubscriptionExpiration_eq (hnow.isLong_of_hasCome hcome), Bool.and_assoc]
  exact hdue

/-- The services of a list of devices, each by its device and its position there. -/
def keyedServices (devices : List Device) : List (ServiceKey × Service) :=
  (RoseTree.preorderIn devices).flatMap fun object ↦
    object.services.zipIdx.map fun p ↦ ((object.id, p.2), p.1)

theorem mem_keyedServices {devices : List Device} {object : DeviceObject}
    (hobject : object ∈ RoseTree.preorderIn devices) {service : Service}
    (hservice : service ∈ object.services) :
    ∃ key, (key, service) ∈ keyedServices devices := by
  obtain ⟨i, hi⟩ := List.mem_iff_getElem?.mp hservice
  exact ⟨(object.id, i), List.mem_flatMap.mpr
    ⟨object, hobject, List.mem_map.mpr ⟨(service, i), List.mk_mem_zipIdx_iff_getElem?.mpr hi, rfl⟩⟩⟩

/-- The keys of the services that pass a test. -/
theorem flatMap_filter_eq (test : Service → Bool) (devices : List Device) :
    ((RoseTree.preorderIn devices).flatMap fun object ↦
      (object.services.zipIdx.filter fun p ↦ test p.1).map fun p ↦ (object.id, p.2)) =
      ((keyedServices devices).filter fun keyed ↦ test keyed.2).map Prod.fst := by
  unfold keyedServices
  rw [List.filter_flatMap, List.map_flatMap]
  refine List.flatMap_congr fun object _ ↦ ?_
  rw [List.filter_map, List.map_map]
  rfl

/-- The renewals that are attempted are those that are due when no sum has overflowed that makes a
subscription due. -/
theorem dueServices_eq_iff {now : ℤ} (hnow : IsClockTime now) (devices : List Device) :
    dueServices now devices = renewalsDue now devices ↔
      ∀ object ∈ RoseTree.preorderIn devices, ∀ service ∈ object.services,
        isDue now service = true → IsLong (subscriptionExpiration service) := by
  have hattempted : dueServices now devices =
      ((keyedServices devices).filter fun keyed ↦ isDue now keyed.2).map Prod.fst :=
    flatMap_filter_eq (isDue now) devices
  have hdue : renewalsDue now devices = ((keyedServices devices).filter fun keyed ↦
      keyed.2.isSubscribed && hasCome now (subscriptionExpiration keyed.2)).map Prod.fst :=
    flatMap_filter_eq (fun service ↦
      service.isSubscribed && hasCome now (subscriptionExpiration service)) devices
  constructor
  · intro heq object hobject service hservice hservice'
    obtain ⟨key, hkey⟩ := mem_keyedServices hobject hservice
    have hsublist := List.monotone_filter_right (keyedServices devices)
      fun keyed hkeyed ↦ @isDue_of_hasCome now hnow keyed.2 hkeyed
    have hlength := congrArg List.length heq
    rw [hattempted, hdue, List.length_map, List.length_map] at hlength
    have hmem : (key, service) ∈ (keyedServices devices).filter fun keyed ↦
        isDue now keyed.2 := List.mem_filter.mpr ⟨hkey, hservice'⟩
    rw [← hsublist.eq_of_length hlength.symm] at hmem
    exact hnow.isLong_of_hasCome (Bool.and_eq_true_iff.mp (List.mem_filter.mp hmem).2).2
  · intro hlong
    unfold dueServices renewalsDue dueOf
    refine List.flatMap_congr fun object hobject ↦ congrArg _ (List.filter_congr fun p hp ↦ ?_)
    have hservice : p.1 ∈ object.services := List.fst_mem_of_mem_zipIdx hp
    rw [Bool.eq_iff_iff]
    constructor
    · intro hdue
      have hexpiration := getSubscriptionExpiration_eq (hlong object hobject p.1 hservice hdue)
      rw [isDue, hexpiration, Bool.and_assoc] at hdue
      exact hdue
    · exact isDue_of_hasCome hnow

/-- Devices with the packets of unexpired ones have not expired. -/
theorem not_hasExpired_of_map_eq {now : ℤ} {devices left : List Device}
    (h : left.map (fun dev ↦ (dev.value.id, dev.value.ssdpPkt)) =
      (unexpired now devices).map fun dev ↦ (dev.value.id, dev.value.ssdpPkt)) (id : DeviceId) :
    ¬ HasExpired now left id := by
  rintro ⟨root, hroot, -, hexpired⟩
  have hmem := List.mem_map_of_mem (f := fun dev : Device ↦ (dev.value.id, dev.value.ssdpPkt)) hroot
  rw [h] at hmem
  obtain ⟨dev, hdev, heq⟩ := List.mem_map.mp hmem
  have hpkt : dev.value.ssdpPkt = root.value.ssdpPkt := (Prod.mk.inj heq).2
  have hunexpired := (List.mem_filter.mp hdev).2
  unfold isExpired at hexpired hunexpired
  rw [hpkt, hexpired] at hunexpired
  exact Bool.false_ne_true hunexpired

/-- One pass of the expiration handler removes exactly the expired root devices, attempts exactly
the renewals that are due among the others, and waits at most until the earliest expiration that is
left, exactly under the condition. The time stamps of the packets are readings of the clock. -/
theorem expirationHandler_iff {ctrlPoint : ControlPoint}
    (hnodup : (deviceIds ctrlPoint.deviceList).Nodup) (now : ℕ) (hnow : IsClockTime now)
    (hstamps : ∀ dev ∈ ctrlPoint.deviceList, IsClockTime dev.value.ssdpPkt.timeStamp)
    (subRes : ServiceKey → RenewalResponse) :
    HandlesExactly now subRes ctrlPoint ↔ HandlerCondition now subRes ctrlPoint.deviceList := by
  have hremaining := remaining_eq hnow hstamps
  have hrun_of : ∀ (hseparated : SeparatedFrom now false ctrlPoint.deviceList)
      (hremoves : RemovesItself now [] ctrlPoint.deviceList), _ := fun hseparated hremoves ↦
    @run_of_separated now subRes ctrlPoint.deviceList false [] [] ⟨ctrlPoint, [], 0⟩ rfl hnodup
      isBoundOf_nil hseparated hremoves
  constructor
  · rintro ⟨pass, hrun, hexact⟩
    have hleft := hexact.removes
    rw [hremaining] at hleft
    obtain ⟨hseparated, hremoves⟩ := @separated_of_run now subRes ctrlPoint.deviceList false []
      ⟨ctrlPoint, [], 0⟩ pass rfl hnodup hrun (not_hasExpired_of_map_eq hleft)
      fun hafter ↦ absurd hafter Bool.false_ne_true
    obtain ⟨pass', hrun', hdevices, hattempts, hbound⟩ := hrun_of hseparated hremoves
    obtain rfl : pass = pass' := Option.some.inj (hrun.symm.trans hrun')
    refine ⟨((separatedFrom_iff now _ false).mp hseparated).2, hremoves, ?_, ?_⟩
    · refine (dueServices_eq_iff hnow _).mp ?_
      rw [← hremaining, ← hexact.renews, hremaining, hattempts, List.nil_append]
    · rw [← waits_iff hbound, ← List.nil_append (unexpired now ctrlPoint.deviceList), ← hdevices]
      exact hexact.waits
  · intro hcondition
    have hseparated := (separatedFrom_iff now ctrlPoint.deviceList false).mpr
      ⟨fun hafter ↦ absurd hafter Bool.false_ne_true, hcondition.separated⟩
    obtain ⟨pass, hrun, hdevices, hattempts, hbound⟩ :=
      hrun_of hseparated hcondition.removesItself
    rw [List.nil_append] at hdevices hattempts
    refine ⟨pass, hrun, ?_, ?_, ?_⟩
    · rw [hremaining, hdevices, renewed, RoseTree.mapIn_eq_map, List.map_map]
      refine List.map_congr_left fun dev _ ↦ ?_
      rw [Function.comp_apply, RoseTree.value_map]
      rfl
    · rw [hremaining, hattempts, (dueServices_eq_iff hnow _).mpr hcondition.renews]
    · rw [waits_iff hbound, hdevices]
      exact hcondition.waits

/-- A root device that was announced at a time with a maximum age. -/
def announcedDevice (id : DeviceId) (udn cacheControl : String) (timeStamp : ℤ)
    (services : List Service) : Device :=
  .node ⟨id, some udn.toList, none, services,
    ⟨none, [⟨some "USN".toList, some udn.toList⟩,
      ⟨some "Cache-Control".toList, some cacheControl.toList⟩], timeStamp⟩, 80⟩ []

/-- A service that was subscribed to at the time zero for 300 seconds. -/
def subscribedService : Service :=
  ⟨none, some "urn:power".toList, none, none, none, some "uuid:sid".toList, 300, 0, 0⟩

theorem expirationHandler_iff_clock :
    HandlesExactly 1000 (fun _ ↦ some (some "uuid:sid".toList, 1800))
      ⟨[announcedDevice 1 "uuid:b" "max-age=1800" 500 [subscribedService],
        announcedDevice 0 "uuid:a" "max-age=100" 0 []], [], 0, false, false⟩ := by
  refine (expirationHandler_iff (by decide) 1000 ⟨by decide, by decide⟩ ?_ _).mpr
    ⟨by decide +kernel, ?_, by decide +kernel, Or.inr ?_⟩
  · intro dev hdev
    simp only [List.mem_cons, List.not_mem_nil, or_false] at hdev
    rcases hdev with rfl | rfl
    · exact ⟨by decide, by decide⟩
    · exact ⟨by decide, by decide⟩
  · unfold RemovesItself
    rw [if_neg (by decide +kernel)]
    unfold RemovesItself
    rw [if_pos (by decide +kernel)]
    exact ⟨by decide +kernel, trivial⟩
  · decide +kernel

/-- Of two root devices that have expired and stand next to each other, the second one stays; and a
device with the largest lease time is waited for without limit. -/
theorem not_handlesExactly :
    (∃ ctrlPoint : ControlPoint, (deviceIds ctrlPoint.deviceList).Nodup ∧
      (∀ dev ∈ ctrlPoint.deviceList, dev.value.ssdpPkt.timeStamp = 0) ∧
      ¬ HandlesExactly 1000 (fun _ ↦ none) ctrlPoint) ∧
    ∃ ctrlPoint : ControlPoint, (deviceIds ctrlPoint.deviceList).Nodup ∧
      (∀ dev ∈ ctrlPoint.deviceList, dev.value.ssdpPkt.timeStamp = 50) ∧
      ¬ HandlesExactly 1000 (fun _ ↦ none) ctrlPoint := by
  constructor
  · refine ⟨⟨[announcedDevice 0 "uuid:a" "max-age=100" 0 [],
      announcedDevice 1 "uuid:b" "max-age=100" 0 []], [], 0, false, false⟩, by decide, by decide, ?_⟩
    rintro ⟨pass, hrun, hexact⟩
    have hleft : (expirationHandler 1000 (fun _ ↦ none)
        ⟨[announcedDevice 0 "uuid:a" "max-age=100" 0 [],
          announcedDevice 1 "uuid:b" "max-age=100" 0 []], [], 0, false, false⟩).map
        (fun pass ↦ pass.ctrlPoint.deviceList.length) = some 1 := by decide +kernel
    have hnone : remaining 1000 [announcedDevice 0 "uuid:a" "max-age=100" 0 [],
        announcedDevice 1 "uuid:b" "max-age=100" 0 []] = [] := by decide +kernel
    have hremoves := congrArg List.length hexact.removes
    rw [List.length_map, List.length_map, hnone, List.length_nil] at hremoves
    rw [hrun, Option.map_some, hremoves] at hleft
    exact absurd hleft (by decide)
  · refine ⟨⟨[announcedDevice 0 "uuid:a" "max-age=9223372036854775807" 50 []], [], 0, false, false⟩,
      by decide, by decide, ?_⟩
    rintro ⟨pass, hrun, hexact⟩
    have hbound : (expirationHandler 1000 (fun _ ↦ none)
        ⟨[announcedDevice 0 "uuid:a" "max-age=9223372036854775807" 50 []], [], 0, false, false⟩).map
        (fun pass ↦ (pass.expirationTime, expirationTimes pass.ctrlPoint.deviceList)) =
          some (0, [9223372036854775857]) := by decide +kernel
    rw [hrun, Option.map_some, Option.some.injEq] at hbound
    obtain ⟨htime, htimes⟩ := Prod.mk.inj hbound
    obtain ⟨wakeUp, hwait, -⟩ := hexact.waits 9223372036854775857
      (by rw [htimes]; exact List.mem_singleton_self _)
    rw [htime] at hwait
    cases hwait

end Mupnp.Expiration
