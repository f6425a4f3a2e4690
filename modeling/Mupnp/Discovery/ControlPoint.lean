import Mupnp.Discovery.Device

/-!
# The control point's locked sections

The state that `controlpoint.c` protects with the control point mutex, and the sections that are run
under it: the two sections of `mupnp_controlpoint_fetchdevice` around the unlocked download
(`reserve` and `commit`), the two sections of `mupnp_controlpoint_removedevicebyssdppacket` around
the unlocked listener call (`invalidate` and `deleteDevice`), and the sections of
`mupnp_controlpoint_stop`. Each of them is one function of the state.

What a listener is told is left out, and so are the condition variables: a section that waits for a
condition is enabled when the condition holds.
-/

set_option autoImplicit false
set_option relaxedAutoImplicit false

namespace Mupnp.Discovery

open Foundation Util Ssdp

/-- A thread that runs control point code: a worker that `mupnp_controlpoint_stop` joins (an SSDP
server thread or the expiration thread), or a thread of the application. -/
inductive ThreadId where
  | worker (number : ℕ)
  | application (number : ℕ)
  deriving DecidableEq

/-- `mUpnpControlPointFetch`: the reservation that a thread keeps while it downloads a
description. The thread stands for the address of the record, which lies on its stack. -/
structure Fetch where
  owner : ThreadId
  udn : CString
  rootUdn : CString
  location : CString
  superseded : Bool
  deriving DecidableEq

/-- What the control point mutex protects. -/
structure ControlPoint where
  deviceList : List Device
  pendingFetches : List Fetch
  discoveryEpoch : BitVec 64
  stopping : Bool
  deviceListener : Bool

namespace ControlPoint

/-- A control point that was just created. -/
def new (deviceListener : Bool) : ControlPoint := ⟨[], [], 0, false, deviceListener⟩

/-- `mupnp_controlpoint_getdevicebyudn`. -/
def getDeviceByUdn (ctrlPoint : ControlPoint) (udn : Option CString) : Option Device :=
  if strlen udn ≤ 0 then none else searchByUdn ctrlPoint.deviceList udn

/-- `mupnp_controlpoint_getdevicebyudn` followed by `mupnp_device_getrootdevice`: the lookup takes
one root device after the other, so the parent pointers of what it finds lead to the root device in
whose tree it was looking. -/
def getRootDeviceByUdn (ctrlPoint : ControlPoint) (udn : CString) : Option Device :=
  if strlen (some udn) ≤ 0 then none
  else ctrlPoint.deviceList.find? fun root ↦ (searchByUdn [root] (some udn)).isSome

/-- Changes the root device object with an identity. -/
def updateRoot (ctrlPoint : ControlPoint) (id : DeviceId) (f : Device → Device) : ControlPoint :=
  { ctrlPoint with
    deviceList := ctrlPoint.deviceList.map fun root ↦ if root.id = id then f root else root }

/-! ### Fetching a description -/

/-- The loop over the pending fetches when a new one is reserved: a fetch of the same root is
marked, until a fetch of the same location is met. The result says whether there was one. -/
def markSuperseded (fetch : Fetch) : List Fetch → List Fetch × Bool
  | [] => ([], false)
  | pending :: rest =>
    if streq (some pending.location) (some fetch.location) then (pending :: rest, true)
    else
      let marked :=
        if streq (some pending.udn) (some fetch.udn) ||
            streq (some pending.rootUdn) (some fetch.rootUdn) then
          { pending with superseded := true }
        else pending
      let next := markSuperseded fetch rest
      (marked :: next.1, next.2)

/-- What a reserved fetch remembers for its commit. -/
structure Reservation where
  epoch : BitVec 64
  cachedLocation : Option CString

/-- The part of the first section that is run when no download can be avoided. `memory` says whether
the string for the cached location can be allocated. -/
def enqueue (ctrlPoint : ControlPoint) (owner : ThreadId) (udn location : CString)
    (dev : Option Device) (memory : Bool) : ControlPoint × Option Reservation :=
  let fetch : Fetch :=
    { owner := owner
      udn := udn
      rootUdn := (match dev with
        | some dev => (dev.udn.getD []).take (udnLenMax - 1)
        | none => udn.take (udnLenMax - 1))
      location := location
      superseded := false }
  let marked := markSuperseded fetch ctrlPoint.pendingFetches
  if marked.2 then ({ ctrlPoint with pendingFetches := marked.1 }, none)
  else if memory = false then ({ ctrlPoint with pendingFetches := marked.1 }, none)
  else
    ({ ctrlPoint with pendingFetches := fetch :: marked.1 },
      some ⟨ctrlPoint.discoveryEpoch, dev.bind (·.ssdpPkt.getLocation)⟩)

/-- The UDN and the location of an announcement that is not ignored. -/
def fetchTarget (ssdpPkt : SsdpPacket) : Option (CString × CString) :=
  let udn := usnGetUdn ssdpPkt.getUsn udnLenMax
  if strlen (some udn) ≤ 0 ∨ strlen ssdpPkt.getLocation ≤ 0 then none
  else ssdpPkt.getLocation.map fun location ↦ (udn, location)

/-- The first section of `mupnp_controlpoint_fetchdevice`: the cached device is refreshed, or the
fetch is a duplicate, or it is reserved. -/
def reserve (ctrlPoint : ControlPoint) (owner : ThreadId) (ssdpPkt : SsdpPacket) (now : ℤ)
    (memory : Bool) : ControlPoint × Option Reservation :=
  match fetchTarget ssdpPkt with
  | none => (ctrlPoint, none)
  | some (udn, location) =>
    if ctrlPoint.stopping then (ctrlPoint, none)
    else
      match ctrlPoint.getRootDeviceByUdn udn with
      | some dev =>
        if streq dev.ssdpPkt.getLocation (some location) then
          (ctrlPoint.updateRoot dev.id (·.setSsdpPacket ssdpPkt now), none)
        else ctrlPoint.enqueue owner udn location (some dev) memory
      | none => ctrlPoint.enqueue owner udn location none memory

/-- `mupnp_controlpoint_createdevicefromssdkpacket` without the lock, and the test that follows it:
the description that was downloaded becomes a candidate when it declares the announced device. -/
def createCandidate (ssdpPkt : SsdpPacket) (udn : CString) (description : Option Device)
    (fetchTime : ℤ) : Option Device :=
  match description with
  | none => none
  | some description =>
    let candidate := description.setSsdpPacket ssdpPkt fetchTime
    if !streq candidate.udn (some udn) &&
      (Discovery.getDeviceByUdn candidate (some udn)).isNone then
      none
    else some candidate

/-- The part of the second section that is run when nothing forbids to publish: the control point
and the device object that is left over. -/
def publish (ctrlPoint : ControlPoint) (udn : CString) (ssdpPkt : SsdpPacket)
    (cachedLocation : Option CString) (candidate : Option Device) (now : ℤ) :
    ControlPoint × Option Device :=
  match ctrlPoint.getRootDeviceByUdn udn with
  | some dev =>
    if !streq cachedLocation dev.ssdpPkt.getLocation then (ctrlPoint, candidate)
    else
      match candidate with
      | none => (ctrlPoint, none)
      | some candidate =>
        let updated := updateFromDevice dev candidate ssdpPkt now
        (ctrlPoint.updateRoot dev.id fun _ ↦ updated.2.1, some updated.2.2)
  | none =>
    match candidate with
    | none => (ctrlPoint, none)
    | some candidate =>
      match ctrlPoint.getDeviceByUdn candidate.udn with
      | none => ({ ctrlPoint with deviceList := ctrlPoint.deviceList ++ [candidate] }, none)
      | some _ => (ctrlPoint, some candidate)

/-- The second section of `mupnp_controlpoint_fetchdevice`: the candidate is published when the
control point is not stopping, the fetch was not superseded and the epoch is still the same, and the
reservation is given back. -/
def commit (ctrlPoint : ControlPoint) (fetch : Fetch) (ssdpPkt : SsdpPacket)
    (reservation : Reservation) (candidate : Option Device) (now : ℤ) :
    ControlPoint × Option Device :=
  let published :=
    if !ctrlPoint.stopping && !fetch.superseded &&
        reservation.epoch == ctrlPoint.discoveryEpoch then
      ctrlPoint.publish fetch.udn ssdpPkt reservation.cachedLocation candidate now
    else (ctrlPoint, candidate)
  ({ published.1 with
      pendingFetches := published.1.pendingFetches.eraseP (·.owner = fetch.owner) },
    published.2)

/-! ### Removing a device -/

/-- The start of `mupnp_controlpoint_removedevicebyssdppacket` under the lock. -/
def invalidate (ctrlPoint : ControlPoint) : ControlPoint :=
  { ctrlPoint with discoveryEpoch := ctrlPoint.discoveryEpoch + 1 }

/-- `mupnp_device_delete` on an object of the control point: it is taken out of the list that holds
it. -/
def deleteDevice (ctrlPoint : ControlPoint) (id : DeviceId) : ControlPoint :=
  { ctrlPoint with
    deviceList := RoseTree.pruneIn (fun object ↦ decide (object.id = id)) ctrlPoint.deviceList }

/-- The device objects that `deleteDevice` releases: the object and those embedded in it. -/
def deletedIds (ctrlPoint : ControlPoint) (id : DeviceId) : List DeviceId :=
  deviceIds (RoseTree.cutIn (fun object ↦ decide (object.id = id)) ctrlPoint.deviceList)

/-- `mupnp_controlpoint_removedevicebyssdppacket` when no other thread is active. -/
def removeDeviceBySsdpPacket (ctrlPoint : ControlPoint) (ssdpPkt : SsdpPacket) : ControlPoint :=
  match ctrlPoint.invalidate.getDeviceByUdn (some (usnGetUdn ssdpPkt.getUsn udnLenMax)) with
  | none => ctrlPoint.invalidate
  | some dev => ctrlPoint.invalidate.deleteDevice dev.id

/-! ### Stopping and starting -/

/-- The first section of `mupnp_controlpoint_stop`. -/
def beginStop (ctrlPoint : ControlPoint) : ControlPoint :=
  { ctrlPoint with stopping := true, discoveryEpoch := ctrlPoint.discoveryEpoch + 1 }

/-- `mupnp_devicelist_clear` at the end of `mupnp_controlpoint_stop`. -/
def clearDevices (ctrlPoint : ControlPoint) : ControlPoint := { ctrlPoint with deviceList := [] }

/-- The section of `mupnp_controlpoint_start` that comes after its call of the stop function. -/
def beginStart (ctrlPoint : ControlPoint) : ControlPoint := { ctrlPoint with stopping := false }

/-- The object with an identity, when it is in the device list or embedded in a device there. -/
def findObject (ctrlPoint : ControlPoint) (id : DeviceId) : Option Device :=
  (RoseTree.subtreesIn ctrlPoint.deviceList).find? fun dev ↦ decide (dev.value.id = id)

/-- The root devices from an object on in the device list. -/
def devicesFrom (ctrlPoint : ControlPoint) (id : DeviceId) : List Device :=
  ctrlPoint.deviceList.dropWhile fun root ↦ decide (root.value.id ≠ id)

/-- The root devices that follow an object in the device list. -/
def devicesAfter (ctrlPoint : ControlPoint) (id : DeviceId) : List Device :=
  (ctrlPoint.devicesFrom id).tail

/-! ### Lookup rules -/

theorem fetchTarget_eq_some {ssdpPkt : SsdpPacket} {udn location : CString}
    (h : fetchTarget ssdpPkt = some (udn, location)) :
    udn = usnGetUdn ssdpPkt.getUsn udnLenMax ∧ udn ≠ [] ∧
      ssdpPkt.getLocation = some location ∧ location ≠ [] := by
  simp only [fetchTarget] at h
  split_ifs at h with hempty
  obtain ⟨hudn, hlocation⟩ := not_or.mp hempty
  cases hheader : ssdpPkt.getLocation with
  | none => simp [hheader] at h
  | some value =>
    rw [hheader] at h hlocation
    obtain ⟨rfl, rfl⟩ := Prod.mk.inj (Option.some.inj h)
    exact ⟨rfl, by simpa [strlen] using hudn, rfl, by simpa [strlen] using hlocation⟩

@[simp] theorem fetchTarget_copy (dst src : SsdpPacket) (now : ℤ) :
    fetchTarget (dst.copy src now) = fetchTarget src := rfl

theorem getDeviceByUdn_eq_find (ctrlPoint : ControlPoint) {udn : CString} (hudn : udn ≠ []) :
    ctrlPoint.getDeviceByUdn (some udn) =
      (RoseTree.subtreesIn ctrlPoint.deviceList).find? fun dev ↦
        decide (dev.value.udn = some udn) := by
  rw [getDeviceByUdn, if_neg (by simpa [strlen] using hudn), searchByUdn_eq_find _ hudn]

/-- What a lookup finds is the first object of the walk that has the name, which is not empty. -/
theorem getDeviceByUdn_eq_some_iff {ctrlPoint : ControlPoint} {udn : Option CString}
    {dev : Device} :
    ctrlPoint.getDeviceByUdn udn = some dev ↔
      ∃ name, name ≠ [] ∧ udn = some name ∧
        (RoseTree.subtreesIn ctrlPoint.deviceList).find?
          (fun dev ↦ decide (dev.value.udn = some name)) = some dev := by
  constructor
  · intro hfound
    by_cases hlen : strlen udn ≤ 0
    · rw [getDeviceByUdn, if_pos hlen] at hfound
      cases hfound
    · cases udn with
      | none => simp [strlen] at hlen
      | some name =>
        have hname : name ≠ [] := by simpa [strlen] using hlen
        exact ⟨name, hname, rfl, getDeviceByUdn_eq_find ctrlPoint hname ▸ hfound⟩
  · rintro ⟨name, hname, rfl, hfound⟩
    rw [getDeviceByUdn_eq_find ctrlPoint hname, hfound]

/-- A lookup that fails for a name says that no object of the control point has it. -/
theorem udn_ne_of_getDeviceByUdn_eq_none {ctrlPoint : ControlPoint} {udn : CString}
    (hudn : udn ≠ []) (hnone : ctrlPoint.getDeviceByUdn (some udn) = none) :
    ∀ dev ∈ RoseTree.subtreesIn ctrlPoint.deviceList, dev.value.udn ≠ some udn := by
  rw [getDeviceByUdn_eq_find ctrlPoint hudn, List.find?_eq_none] at hnone
  exact fun dev hdev ↦ by simpa using hnone dev hdev

theorem id_mem_deviceIds_of_getDeviceByUdn {ctrlPoint : ControlPoint} {udn : Option CString}
    {dev : Device} (hfound : ctrlPoint.getDeviceByUdn udn = some dev) :
    dev.id ∈ deviceIds ctrlPoint.deviceList := by
  obtain ⟨name, -, -, hfind⟩ := getDeviceByUdn_eq_some_iff.mp hfound
  exact id_mem_deviceIds_of_mem_subtreesIn (List.mem_of_find?_eq_some hfind)

/-- The root device that a lookup leads to is in the device list, and its tree has the name. -/
theorem getRootDeviceByUdn_mem {ctrlPoint : ControlPoint} {udn : CString} {dev : Device}
    (hroot : ctrlPoint.getRootDeviceByUdn udn = some dev) :
    dev ∈ ctrlPoint.deviceList ∧ udn ≠ [] ∧ (searchByUdn [dev] (some udn)).isSome := by
  rw [getRootDeviceByUdn] at hroot
  split_ifs at hroot with hlen
  have hudn : udn ≠ [] := by simpa [strlen] using hlen
  have hfound := List.find?_some (p := fun root ↦ (searchByUdn [root] (some udn)).isSome) hroot
  exact ⟨List.mem_of_find?_eq_some hroot, hudn, hfound⟩

/-! ### What the sections do -/

/-- The first section of a fetch leaves the control point alone, or refreshes the root device that
is cached with the announced location, or goes on to reserve. -/
theorem reserve_cases (ctrlPoint : ControlPoint) (owner : ThreadId) (ssdpPkt : SsdpPacket) (now : ℤ)
    (memory : Bool) :
    ((fetchTarget ssdpPkt = none ∨ ctrlPoint.stopping = true) ∧
        ctrlPoint.reserve owner ssdpPkt now memory = (ctrlPoint, none)) ∨
      (∃ udn location dev, fetchTarget ssdpPkt = some (udn, location) ∧
        ctrlPoint.stopping = false ∧ ctrlPoint.getRootDeviceByUdn udn = some dev ∧
        dev.ssdpPkt.getLocation = some location ∧
        ctrlPoint.reserve owner ssdpPkt now memory =
          (ctrlPoint.updateRoot dev.id (·.setSsdpPacket ssdpPkt now), none)) ∨
      ∃ udn location, fetchTarget ssdpPkt = some (udn, location) ∧ ctrlPoint.stopping = false ∧
        (∀ dev, ctrlPoint.getRootDeviceByUdn udn = some dev →
          dev.ssdpPkt.getLocation ≠ some location) ∧
        ctrlPoint.reserve owner ssdpPkt now memory =
          ctrlPoint.enqueue owner udn location (ctrlPoint.getRootDeviceByUdn udn) memory := by
  cases htarget : fetchTarget ssdpPkt with
  | none =>
    refine Or.inl ⟨Or.inl rfl, ?_⟩
    rw [reserve, htarget]
  | some target =>
    obtain ⟨udn, location⟩ := target
    by_cases hstopping : ctrlPoint.stopping = true
    · refine Or.inl ⟨Or.inr hstopping, ?_⟩
      rw [reserve, htarget]
      simp only [hstopping, if_true]
    · have hrunning : ctrlPoint.stopping = false := by simpa using hstopping
      cases hroot : ctrlPoint.getRootDeviceByUdn udn with
      | none =>
        refine Or.inr (Or.inr ⟨udn, location, rfl, hrunning, by simp [hroot], ?_⟩)
        rw [reserve, htarget]
        simp only [hrunning, hroot, Bool.false_eq_true, if_false]
      | some dev =>
        by_cases hlocation : dev.ssdpPkt.getLocation = some location
        · have hstreq : streq dev.ssdpPkt.getLocation (some location) = true := by
            rw [hlocation, streq_some_some]
          refine Or.inr (Or.inl ⟨udn, location, dev, rfl, hrunning, hroot, hlocation, ?_⟩)
          rw [reserve, htarget]
          simp only [hrunning, hroot, hstreq, Bool.false_eq_true, if_false, if_true]
        · have hstreq : streq dev.ssdpPkt.getLocation (some location) = false := by
            rw [Bool.eq_false_iff, Ne, streq_eq_true_iff]
            rintro ⟨common, hdev, hlocation'⟩
            exact hlocation (hdev.trans hlocation'.symm)
          refine Or.inr (Or.inr ⟨udn, location, rfl, hrunning, ?_, ?_⟩)
          · intro dev' hdev'
            obtain rfl : dev = dev' := Option.some.inj (hroot.symm.trans hdev')
            exact hlocation
          · rw [reserve, htarget]
            simp only [hrunning, hroot, hstreq, Bool.false_eq_true, if_false]

/-- Reserving touches nothing but the pending fetches. -/
theorem enqueue_fst (ctrlPoint : ControlPoint) (owner : ThreadId) (udn location : CString)
    (dev : Option Device) (memory : Bool) :
    ∃ pendingFetches, (ctrlPoint.enqueue owner udn location dev memory).1 =
      { ctrlPoint with pendingFetches := pendingFetches } := by
  simp only [enqueue]
  split_ifs <;> exact ⟨_, rfl⟩

/-- The conditions under which the second section of a fetch publishes anything. -/
def MayPublish (ctrlPoint : ControlPoint) (fetch : Fetch) (reservation : Reservation) : Prop :=
  ctrlPoint.stopping = false ∧ fetch.superseded = false ∧
    reservation.epoch = ctrlPoint.discoveryEpoch

/-- What the second section of a fetch makes of the device list, and what is left over. -/
inductive CommitOutcome (ctrlPoint : ControlPoint) (fetch : Fetch) (ssdpPkt : SsdpPacket)
    (reservation : Reservation) (candidate : Option Device) (now : ℤ) :
    List Device → Option Device → Prop where
  /-- The device list stays as it is. -/
  | unchanged : CommitOutcome ctrlPoint fetch ssdpPkt reservation candidate now
      ctrlPoint.deviceList candidate
  /-- A cached root device takes the candidate's description. -/
  | updated (dev newDev : Device) (hpublish : ctrlPoint.MayPublish fetch reservation)
      (hroot : ctrlPoint.getRootDeviceByUdn fetch.udn = some dev)
      (hlocation : streq reservation.cachedLocation dev.ssdpPkt.getLocation = true)
      (hcandidate : candidate = some newDev) :
      CommitOutcome ctrlPoint fetch ssdpPkt reservation candidate now
        (ctrlPoint.updateRoot dev.id fun _ ↦
          (updateFromDevice dev newDev ssdpPkt now).2.1).deviceList
        (some (updateFromDevice dev newDev ssdpPkt now).2.2)
  /-- The candidate becomes the last root device. -/
  | added (newDev : Device) (hpublish : ctrlPoint.MayPublish fetch reservation)
      (hroot : ctrlPoint.getRootDeviceByUdn fetch.udn = none)
      (hcandidate : candidate = some newDev)
      (hnew : ctrlPoint.getDeviceByUdn newDev.udn = none) :
      CommitOutcome ctrlPoint fetch ssdpPkt reservation candidate now
        (ctrlPoint.deviceList ++ [newDev]) none

/-- The second section of a fetch has one of the listed outcomes. -/
theorem commit_outcome (ctrlPoint : ControlPoint) (fetch : Fetch) (ssdpPkt : SsdpPacket)
    (reservation : Reservation) (candidate : Option Device) (now : ℤ) :
    CommitOutcome ctrlPoint fetch ssdpPkt reservation candidate now
      (ctrlPoint.commit fetch ssdpPkt reservation candidate now).1.deviceList
      (ctrlPoint.commit fetch ssdpPkt reservation candidate now).2 := by
  simp only [commit]
  split_ifs with hguard
  · have hpublish : ctrlPoint.MayPublish fetch reservation := by
      simpa [MayPublish, and_assoc] using hguard
    simp only [publish]
    cases hroot : ctrlPoint.getRootDeviceByUdn fetch.udn with
    | some dev =>
      by_cases hlocation : streq reservation.cachedLocation dev.ssdpPkt.getLocation = true
      · simp only [hlocation, Bool.not_true, Bool.false_eq_true, if_false]
        cases candidate with
        | none => exact .unchanged
        | some newDev => exact .updated dev newDev hpublish hroot hlocation rfl
      · simp only [hlocation, Bool.not_false, if_true]
        exact .unchanged
    | none =>
      cases candidate with
      | none => exact .unchanged
      | some newDev =>
        cases hnew : ctrlPoint.getDeviceByUdn newDev.udn with
        | none =>
          simp only [hnew]
          exact .added newDev hpublish hroot rfl hnew
        | some found =>
          simp only [hnew]
          exact .unchanged
  · exact .unchanged

/-- Besides the device list, the second section of a fetch only gives back the reservation. -/
theorem commit_fst_eq (ctrlPoint : ControlPoint) (fetch : Fetch) (ssdpPkt : SsdpPacket)
    (reservation : Reservation) (candidate : Option Device) (now : ℤ) :
    (ctrlPoint.commit fetch ssdpPkt reservation candidate now).1 =
      { ctrlPoint with
        deviceList := (ctrlPoint.commit fetch ssdpPkt reservation candidate now).1.deviceList
        pendingFetches := ctrlPoint.pendingFetches.eraseP (·.owner = fetch.owner) } := by
  have hpublish : ∀ cached, ∃ deviceList,
      (ctrlPoint.publish fetch.udn ssdpPkt cached candidate now).1 =
        { ctrlPoint with deviceList := deviceList } := by
    intro cached
    simp only [publish]
    split
    · split_ifs
      · exact ⟨_, rfl⟩
      · split <;> exact ⟨_, rfl⟩
    · split
      · exact ⟨_, rfl⟩
      · split <;> exact ⟨_, rfl⟩
  obtain ⟨deviceList, hdeviceList⟩ := hpublish reservation.cachedLocation
  simp only [commit]
  split_ifs
  · rw [hdeviceList]
  · rfl

/-- A candidate is the downloaded description with the packet that announced it, and some device of
its tree has the announced name. -/
theorem createCandidate_eq_some {ssdpPkt : SsdpPacket} {udn : CString}
    {description : Option Device} {fetchTime : ℤ} {candidate : Device}
    (h : createCandidate ssdpPkt udn description fetchTime = some candidate) :
    ∃ fetched, description = some fetched ∧ candidate = fetched.setSsdpPacket ssdpPkt fetchTime ∧
      (candidate.udn = some udn ∨ (Discovery.getDeviceByUdn candidate (some udn)).isSome) := by
  cases description with
  | none => cases h
  | some fetched =>
    simp only [createCandidate] at h
    split_ifs at h with hother
    obtain rfl := Option.some.inj h
    refine ⟨fetched, rfl, rfl, ?_⟩
    by_cases hudn : streq (fetched.setSsdpPacket ssdpPkt fetchTime).udn (some udn) = true
    · obtain ⟨common, hleft, hright⟩ := streq_eq_true_iff.mp hudn
      exact Or.inl (hleft.trans hright.symm)
    · right
      simpa [hudn, Option.isSome_iff_ne_none] using hother

end ControlPoint

end Mupnp.Discovery
