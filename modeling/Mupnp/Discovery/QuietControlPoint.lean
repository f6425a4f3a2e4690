import Mupnp.Discovery.CachedPacketRemoval

/-!
# A control point on which one thread works

What a thread does to the device list of a control point when no other thread works on it: an
announcement of an unknown device adds the device that its description declares
(`run_added`), an announcement of a cached device from its location only renews its packet
(`run_renewed`), and a byebye takes the device out (`run_dismissed_first`).
-/

set_option autoImplicit false
set_option relaxedAutoImplicit false

namespace Mupnp.Discovery

open Foundation Util Ssdp

/-- No other thread works on the control point, and the thread waits for a packet. -/
structure IsQuiet (t : ThreadId) (s : System) : Prop where
  idle : s.thread t = .idle
  running : s.ctrlPoint.stopping = false
  settled : s.ctrlPoint.pendingFetches = []

/-- No device of a list has the name. -/
def IsUnknown (udn : CString) (devices : List Device) : Prop :=
  ∀ object ∈ RoseTree.preorderIn devices, object.udn ≠ some udn

/-- Some device of a tree has the name. -/
def Declares (udn : CString) (dev : Device) : Prop :=
  ∃ object ∈ RoseTree.preorderIn [dev], object.udn = some udn

/-- The packet as the control point keeps it. -/
def keptPacket (ssdpPkt : SsdpPacket) (now : ℤ) : SsdpPacket := SsdpPacket.new.copy ssdpPkt now

/-- The control point caches a device behind some others: it has what a description declares, it was
announced from a location with a lease time, and the lease counts from a time. -/
def Caches (ctrlPoint : ControlPoint) (before : List Device) (description : Device)
    (location : CString) (leaseTime time : ℤ) : Prop :=
  ∃ dev, ctrlPoint.deviceList = before ++ [dev] ∧ dev.udn = description.udn ∧
    dev.services = description.services ∧ dev.devices = description.devices ∧
    dev.ssdpPkt.getLocation = some location ∧ dev.ssdpPkt.getMaxAge = leaseTime ∧
    dev.ssdpPkt.timeStamp = time

/-! ### Lookups -/

section Lookup

variable {ctrlPoint : ControlPoint} {udn : CString}

theorem find_eq_none_of_isUnknown {devices : List Device} (h : IsUnknown udn devices) :
    (RoseTree.subtreesIn devices).find? (fun dev ↦ decide (dev.value.udn = some udn)) = none :=
  List.find?_eq_none.mpr fun dev hdev ↦ by simpa using h dev.value (List.mem_map_of_mem hdev)

theorem getDeviceByUdn_of_isUnknown (hne : udn ≠ []) (h : IsUnknown udn ctrlPoint.deviceList) :
    ctrlPoint.getDeviceByUdn (some udn) = none := by
  rw [ControlPoint.getDeviceByUdn_eq_find ctrlPoint hne, find_eq_none_of_isUnknown h]

theorem isUnknown_singleton {devices : List Device} (h : IsUnknown udn devices) {dev : Device}
    (hdev : dev ∈ devices) : IsUnknown udn [dev] := by
  intro object hobject
  refine h object ?_
  obtain ⟨before, after, rfl⟩ := List.append_of_mem hdev
  rw [List.append_cons, RoseTree.preorderIn_append, RoseTree.preorderIn_append]
  exact List.mem_append_left _ (List.mem_append_right _ hobject)

theorem searchByUdn_of_isUnknown (hne : udn ≠ []) {devices : List Device}
    (h : IsUnknown udn devices) : searchByUdn devices (some udn) = none := by
  rw [searchByUdn_eq_find _ hne, find_eq_none_of_isUnknown h]

/-- A search in a tree that has the name succeeds. -/
theorem isSome_searchByUdn (hne : udn ≠ []) {dev : Device} (h : Declares udn dev) :
    (searchByUdn [dev] (some udn)).isSome = true := by
  obtain ⟨object, hobject, hudn⟩ := h
  obtain ⟨found, hfound, rfl⟩ := List.mem_map.mp hobject
  rw [searchByUdn_eq_find _ hne, List.find?_isSome]
  exact ⟨found, hfound, decide_eq_true hudn⟩

theorem getRootDeviceByUdn_of_isUnknown (hne : udn ≠ [])
    (h : IsUnknown udn ctrlPoint.deviceList) : ctrlPoint.getRootDeviceByUdn udn = none := by
  rw [ControlPoint.getRootDeviceByUdn, if_neg (not_strlen_some_le_zero hne), List.find?_eq_none]
  intro dev hdev
  rw [searchByUdn_of_isUnknown hne (isUnknown_singleton h hdev)]
  simp

variable {before : List Device} {dev : Device}

/-- The last root device is found by its name when no device before it has that name. -/
theorem getDeviceByUdn_of_last (hne : udn ≠ []) (h : IsUnknown udn before)
    (hudn : dev.udn = some udn) (hlist : ctrlPoint.deviceList = before ++ [dev]) :
    ctrlPoint.getDeviceByUdn (some udn) = some dev := by
  rw [ControlPoint.getDeviceByUdn_eq_find ctrlPoint hne, hlist, RoseTree.subtreesIn_append,
    List.find?_append, find_eq_none_of_isUnknown h, RoseTree.subtreesIn_cons,
    List.find?_cons_of_pos (by simpa [Device.udn] using hudn)]
  rfl

/-- The last root device is found by any name of its tree that no device before it has. -/
theorem getRootDeviceByUdn_of_last (hne : udn ≠ []) (h : IsUnknown udn before)
    (hdeclares : Declares udn dev) (hlist : ctrlPoint.deviceList = before ++ [dev]) :
    ctrlPoint.getRootDeviceByUdn udn = some dev := by
  have hbefore : before.find? (fun root ↦ (searchByUdn [root] (some udn)).isSome) = none := by
    refine List.find?_eq_none.mpr fun root hroot ↦ ?_
    rw [searchByUdn_of_isUnknown hne (isUnknown_singleton h hroot)]
    simp
  rw [ControlPoint.getRootDeviceByUdn, if_neg (not_strlen_some_le_zero hne), hlist,
    List.find?_append, hbefore, List.find?_singleton, isSome_searchByUdn hne hdeclares]
  rfl

theorem declares_of_udn (hudn : dev.udn = some udn) : Declares udn dev := by
  refine ⟨dev.value, ?_, hudn⟩
  rw [RoseTree.preorderIn_cons]
  exact List.mem_cons_self

/-- Devices with one name and one list of embedded devices declare the same names. -/
theorem declares_congr {other : Device} (hudn : other.udn = dev.udn)
    (hdevices : other.devices = dev.devices) (h : Declares udn dev) : Declares udn other := by
  obtain ⟨object, hobject, hname⟩ := h
  rw [RoseTree.preorderIn_cons] at hobject
  rcases List.mem_cons.mp hobject with rfl | hbelow
  · exact declares_of_udn (hudn.trans hname)
  · refine ⟨object, ?_, hname⟩
    rw [RoseTree.preorderIn_cons, show other.children = dev.children from hdevices]
    exact List.mem_cons_of_mem _ hbelow

/-- Among distinct objects, the last root device is none of the root devices before it. -/
theorem id_ne_of_last (hnodup : (deviceIds (before ++ [dev])).Nodup) :
    ∀ other ∈ before, other.id ≠ dev.id := by
  intro other hother hid
  rw [deviceIds_append] at hnodup
  exact (List.nodup_append.mp hnodup).2.2 other.id (id_mem_deviceIds_of_mem hother) dev.id
    (id_mem_deviceIds_of_mem List.mem_cons_self) hid

end Lookup

/-! ### Sections -/

section Sections

variable {ctrlPoint : ControlPoint} {t : ThreadId} {udn location : CString} {ssdpPkt : SsdpPacket}

/-- The fetch of a device that is not cached. -/
def firstFetch (t : ThreadId) (udn location : CString) : Fetch where
  owner := t
  udn := udn
  rootUdn := udn.take (udnLenMax - 1)
  location := location
  superseded := false

/-- The fetch of an unknown device is reserved when nothing else is being fetched. -/
theorem reserve_of_isUnknown (hrunning : ctrlPoint.stopping = false)
    (hsettled : ctrlPoint.pendingFetches = []) (hunknown : IsUnknown udn ctrlPoint.deviceList)
    (htarget : ControlPoint.fetchTarget ssdpPkt = some (udn, location)) (now : ℤ) :
    ctrlPoint.reserve t ssdpPkt now true =
      ({ ctrlPoint with pendingFetches := [firstFetch t udn location] },
        some ⟨ctrlPoint.discoveryEpoch, none⟩) := by
  have hnone := getRootDeviceByUdn_of_isUnknown (ControlPoint.fetchTarget_eq_some htarget).2.1
    hunknown
  rw [ControlPoint.reserve, htarget]
  simp only [hrunning, hnone, ControlPoint.enqueue, hsettled, ControlPoint.markSuperseded,
    Bool.false_eq_true, if_false, Bool.true_eq_false]
  rfl

/-- A description of an unknown tree is added when its fetch ends. -/
theorem commit_of_isUnknown (hrunning : ctrlPoint.stopping = false)
    (hsettled : ctrlPoint.pendingFetches = [firstFetch t udn location])
    (hne : udn ≠ []) (hunknown : IsUnknown udn ctrlPoint.deviceList) {candidate : Device}
    {rootUdn : CString} (hudn : candidate.udn = some rootUdn) (hroot : rootUdn ≠ [])
    (hunknownRoot : IsUnknown rootUdn ctrlPoint.deviceList) (now : ℤ) :
    ctrlPoint.commit (firstFetch t udn location) ssdpPkt ⟨ctrlPoint.discoveryEpoch, none⟩
        (some candidate) now =
      ({ ctrlPoint with deviceList := ctrlPoint.deviceList ++ [candidate], pendingFetches := [] },
        none) := by
  have hnone := getRootDeviceByUdn_of_isUnknown hne hunknown
  have hnew := getDeviceByUdn_of_isUnknown hroot hunknownRoot
  rw [ControlPoint.commit, if_pos (by simp [hrunning, firstFetch])]
  simp only [ControlPoint.publish, firstFetch, hnone, hudn, hnew, hsettled]
  simp

/-- A description that declares the announced name is a candidate. -/
theorem createCandidate_of_declares (hne : udn ≠ []) {description : Device}
    (hdeclares : Declares udn description) (fetchTime : ℤ) :
    ControlPoint.createCandidate ssdpPkt udn (some description) fetchTime =
      some (description.setSsdpPacket ssdpPkt fetchTime) := by
  have hkept : Declares udn (description.setSsdpPacket ssdpPkt fetchTime) :=
    @declares_congr udn description _ rfl rfl hdeclares
  have hfound := isSome_searchByUdn hne hkept
  simp only [ControlPoint.createCandidate]
  refine if_neg fun hother ↦ ?_
  obtain ⟨hdiffers, hmissing⟩ := Bool.and_eq_true_iff.mp hother
  rw [searchByUdn] at hfound
  split_ifs at hfound with hsame
  · obtain ⟨common, hleft, hright⟩ := strcmp_eq_zero_iff.mp hsame
    have hequal : streq (description.setSsdpPacket ssdpPkt fetchTime).udn (some udn) = true :=
      streq_eq_true_iff.mpr ⟨common, hleft, hright⟩
    rw [hequal] at hdiffers
    cases hdiffers
  · rw [Option.isNone_iff_eq_none.mp hmissing] at hfound
    cases hfound

/-- A cached device that is announced from its location takes the packet. -/
theorem reserve_of_last (hrunning : ctrlPoint.stopping = false) {before : List Device}
    {dev : Device} (hlist : ctrlPoint.deviceList = before ++ [dev])
    (hnodup : (deviceIds ctrlPoint.deviceList).Nodup) (hunknown : IsUnknown udn before)
    (hdeclares : Declares udn dev) (hlocation : dev.ssdpPkt.getLocation = some location)
    (htarget : ControlPoint.fetchTarget ssdpPkt = some (udn, location)) (now : ℤ) :
    ctrlPoint.reserve t ssdpPkt now true =
      ({ ctrlPoint with deviceList := before ++ [dev.setSsdpPacket ssdpPkt now] }, none) := by
  have hne : udn ≠ [] := (ControlPoint.fetchTarget_eq_some htarget).2.1
  have hfound := getRootDeviceByUdn_of_last hne hunknown hdeclares hlist
  have hsame : streq dev.ssdpPkt.getLocation (some location) = true :=
    streq_eq_true_iff.mpr ⟨location, hlocation, rfl⟩
  have hother : ∀ other ∈ before, other.id ≠ dev.id := id_ne_of_last (hlist ▸ hnodup)
  rw [ControlPoint.reserve, htarget]
  simp only [hrunning, hfound, hsame, Bool.false_eq_true, if_false, if_true,
    ControlPoint.updateRoot, hlist, List.map_append, List.map_cons, List.map_nil]
  rw [ControlPoint.map_update_eq_self _ hother]

/-- The last root device is taken out when it is deleted. -/
theorem deleteDevice_last {before : List Device} {dev : Device}
    (hlist : ctrlPoint.deviceList = before ++ [dev])
    (hnodup : (deviceIds ctrlPoint.deviceList).Nodup) :
    (ctrlPoint.deleteDevice dev.id).deviceList = before := by
  have hother : ∀ other ∈ before, other.id ≠ dev.id := id_ne_of_last (hlist ▸ hnodup)
  have hmem : dev ∈ ctrlPoint.deviceList := hlist ▸ List.mem_append_right before List.mem_cons_self
  rw [ControlPoint.deleteDevice_root hnodup hmem, hlist, List.filter_append,
    List.filter_eq_self.mpr fun other hmem ↦ decide_eq_true (hother other hmem),
    List.filter_cons_of_neg (by simp), List.filter_nil, List.append_nil]

end Sections

/-! ### Steps -/

section Steps

variable {s : System} {t : ThreadId} {udn location : CString} {ssdpPkt : SsdpPacket} {now : ℤ}
  {a : Action}

/-- A reserved fetch goes on to download the description. -/
theorem addDevice_of_reserved {ctrlPoint : ControlPoint} {reservation : ControlPoint.Reservation}
    (h : s.ctrlPoint.reserve t (keptPacket ssdpPkt now) now true = (ctrlPoint, some reservation)) :
    s.addDeviceBySsdpPacket t ssdpPkt now true =
      s.update ctrlPoint t (.fetching (keptPacket ssdpPkt now) reservation) := by
  unfold keptPacket at h
  simp only [System.addDeviceBySsdpPacket, h]
  rfl

/-- An announcement that is not reserved leaves the thread idle. -/
theorem addDevice_of_not_reserved {ctrlPoint : ControlPoint}
    (h : s.ctrlPoint.reserve t (keptPacket ssdpPkt now) now true = (ctrlPoint, none)) :
    s.addDeviceBySsdpPacket t ssdpPkt now true = s.update ctrlPoint t .idle := by
  unfold keptPacket at h
  simp only [System.addDeviceBySsdpPacket, h]

/-- The end of the download of a thread that has a fetch. -/
theorem step_commit {reservation : ControlPoint.Reservation} {fetch : Fetch}
    (hthread : s.thread t = .fetching ssdpPkt reservation)
    (hfetch : s.ctrlPoint.pendingFetches.find? (·.owner = t) = some fetch)
    {description : Option Device} (hfresh : s.ledger.Fresh (deviceIds description.toList))
    (fetchTime now : ℤ) :
    s.step (.commit t description fetchTime now) =
      some (s.commitFetch t ssdpPkt reservation fetch description fetchTime now) := by
  simp only [System.step, hthread, hfetch, if_pos hfresh]

/-- An announcement of an unknown device adds the device that its description declares. -/
theorem run_added (hquiet : IsQuiet t s)
    (hstep : s.step a = some (s.addDeviceBySsdpPacket t ssdpPkt now true))
    (htarget : ControlPoint.fetchTarget ssdpPkt = some (udn, location))
    (hunknown : IsUnknown udn s.ctrlPoint.deviceList) {description : Device}
    (hdeclares : Declares udn description) {rootUdn : CString}
    (hudn : description.udn = some rootUdn) (hroot : rootUdn ≠ [])
    (hunknownRoot : IsUnknown rootUdn s.ctrlPoint.deviceList)
    (hfresh : s.ledger.Fresh (deviceIds [description])) (fetchTime committed : ℤ) :
    ∃ s', discovery.run s [a, .commit t (some description) fetchTime committed] = some s' ∧
      IsQuiet t s' ∧ s'.ctrlPoint.deviceListener = s.ctrlPoint.deviceListener ∧
      Caches s'.ctrlPoint s.ctrlPoint.deviceList description location ssdpPkt.getMaxAge
        fetchTime := by
  obtain ⟨hidle, hrunning, hsettled⟩ := hquiet
  have hne : udn ≠ [] := (ControlPoint.fetchTarget_eq_some htarget).2.1
  have hreserved := @reserve_of_isUnknown s.ctrlPoint t udn location (keptPacket ssdpPkt now)
    hrunning hsettled hunknown htarget now
  rw [addDevice_of_reserved hreserved] at hstep
  have hsecond := @step_commit (s.update
      { s.ctrlPoint with pendingFetches := [firstFetch t udn location] } t
      (.fetching (keptPacket ssdpPkt now) ⟨s.ctrlPoint.discoveryEpoch, none⟩)) t _ _
    (firstFetch t udn location) (ThreadTable.get_set_self _ _ _)
    (by simp [System.update, firstFetch]) (some description) hfresh fetchTime committed
  have hcandidate : ControlPoint.createCandidate (keptPacket ssdpPkt now)
      (firstFetch t udn location).udn (some description) fetchTime =
        some (description.setSsdpPacket (keptPacket ssdpPkt now) fetchTime) :=
    createCandidate_of_declares hne hdeclares fetchTime
  have hcommitted := @commit_of_isUnknown
    { s.ctrlPoint with pendingFetches := [firstFetch t udn location] } t udn location
    (keptPacket ssdpPkt now) hrunning rfl hne hunknown
    (description.setSsdpPacket (keptPacket ssdpPkt now) fetchTime) rootUdn hudn hroot hunknownRoot
    committed
  refine ⟨_, TransitionSystem.run_cons_eq_some_iff.mpr ⟨_, hstep,
    TransitionSystem.run_singleton_eq_some_iff.mpr hsecond⟩, ?_⟩
  simp only [System.commitFetch, System.update, hcandidate, hcommitted]
  exact ⟨⟨ThreadTable.get_set_self _ _ _, hrunning, rfl⟩, trivial, _, rfl, rfl, rfl, rfl,
    (ControlPoint.fetchTarget_eq_some htarget).2.2.1, rfl, rfl⟩

/-- An announcement of a cached device from its location renews its packet. -/
theorem run_renewed (hquiet : IsQuiet t s)
    (hstep : s.step a = some (s.addDeviceBySsdpPacket t ssdpPkt now true))
    (htarget : ControlPoint.fetchTarget ssdpPkt = some (udn, location)) {before : List Device}
    {description : Device} {leaseTime time : ℤ}
    (hcaches : Caches s.ctrlPoint before description location leaseTime time)
    (hnodup : (deviceIds s.ctrlPoint.deviceList).Nodup) (hunknown : IsUnknown udn before)
    (hdeclares : Declares udn description) :
    ∃ s', discovery.run s [a] = some s' ∧ IsQuiet t s' ∧
      s'.ctrlPoint.deviceListener = s.ctrlPoint.deviceListener ∧
      Caches s'.ctrlPoint before description location ssdpPkt.getMaxAge now := by
  obtain ⟨hidle, hrunning, hsettled⟩ := hquiet
  obtain ⟨dev, hlist, hudn, hservices, hdevices, hlocation, -, -⟩ := hcaches
  have hreserved := @reserve_of_last s.ctrlPoint t udn location (keptPacket ssdpPkt now) hrunning
    before dev hlist hnodup hunknown (declares_congr hudn hdevices hdeclares) hlocation htarget now
  rw [addDevice_of_not_reserved hreserved] at hstep
  exact ⟨_, TransitionSystem.run_singleton_eq_some_iff.mpr hstep,
    ⟨ThreadTable.get_set_self _ _ _, hrunning, hsettled⟩, rfl, _, rfl, hudn, hservices, hdevices,
    (ControlPoint.fetchTarget_eq_some htarget).2.2.1, rfl, rfl⟩

/-- What a thread does when it deletes an object of the control point. -/
theorem deleteDevice_of_mem {id : DeviceId} (h : id ∈ deviceIds s.ctrlPoint.deviceList)
    (caller : Caller) :
    (s.deleteDevice t id caller).ctrlPoint = s.ctrlPoint.deleteDevice id ∧
      (s.deleteDevice t id caller).thread t = System.afterRemoval caller := by
  rw [System.deleteDevice, if_pos h]
  exact ⟨rfl, ThreadTable.get_set_self _ _ _⟩

/-- A device that says goodbye is taken out. -/
theorem run_dismissed_first (hquiet : IsQuiet t s)
    (hstep : s.step a = some (s.update s.ctrlPoint t (.removing udn .byebye)))
    {before : List Device} {description : Device} {leaseTime time : ℤ}
    (hcaches : Caches s.ctrlPoint before description location leaseTime time)
    (hunknown : IsUnknown udn before) (hnodup : (deviceIds s.ctrlPoint.deviceList).Nodup)
    (hudn : description.udn = some udn) (hne : udn ≠ []) :
    ∃ s', discovery.run s (a :: .lookup t ::
        if s.ctrlPoint.deviceListener = true then [.delete t] else []) = some s' ∧ IsQuiet t s' ∧
      s'.ctrlPoint.deviceListener = s.ctrlPoint.deviceListener ∧
      s'.ctrlPoint.deviceList = before := by
  obtain ⟨hidle, hrunning, hsettled⟩ := hquiet
  obtain ⟨dev, hlist, hsame, -⟩ := hcaches
  rw [← hsame] at hudn
  have hfound : s.ctrlPoint.invalidate.getDeviceByUdn (some udn) = some dev :=
    getDeviceByUdn_of_last hne hunknown hudn hlist
  have hids : dev.id ∈ deviceIds s.ctrlPoint.deviceList := by
    rw [hlist]
    exact id_mem_deviceIds_of_mem (List.mem_append_right before List.mem_cons_self)
  have hremoved : (s.ctrlPoint.invalidate.deleteDevice dev.id).deviceList = before :=
    @deleteDevice_last s.ctrlPoint.invalidate before dev hlist hnodup
  have hsecond : (s.update s.ctrlPoint t (.removing udn .byebye)).step (.lookup t) =
      some ((s.update s.ctrlPoint t (.removing udn .byebye)).lookupDevice t udn .byebye) := by
    simp only [System.step, System.thread, System.update, ThreadTable.get_set_self]
  let invalidated : System :=
    { s.update s.ctrlPoint t (.removing udn .byebye) with ctrlPoint := s.ctrlPoint.invalidate }
  cases hlistener : s.ctrlPoint.deviceListener with
  | false =>
    refine ⟨_, TransitionSystem.run_cons_eq_some_iff.mpr ⟨_, hstep,
      TransitionSystem.run_singleton_eq_some_iff.mpr hsecond⟩, ?_⟩
    have hdeleted : (s.update s.ctrlPoint t (.removing udn .byebye)).lookupDevice t udn .byebye =
        invalidated.deleteDevice t dev.id .byebye := by
      simp only [System.lookupDevice, System.update, hfound, hlistener]
      rfl
    obtain ⟨hctrlPoint, hthread⟩ := @deleteDevice_of_mem invalidated t dev.id hids .byebye
    rw [hdeleted, hctrlPoint]
    exact ⟨⟨hthread, hctrlPoint ▸ hrunning, hctrlPoint ▸ hsettled⟩, hlistener, hremoved⟩
  | true =>
    have hdeleting : (s.update s.ctrlPoint t (.removing udn .byebye)).lookupDevice t udn .byebye =
        invalidated.update s.ctrlPoint.invalidate t (.deleting dev.id .byebye) := by
      simp only [System.lookupDevice, System.update, hfound, hlistener]
      rfl
    have hthird : (invalidated.update s.ctrlPoint.invalidate t (.deleting dev.id .byebye)).step
        (.delete t) = some ((invalidated.update s.ctrlPoint.invalidate t
          (.deleting dev.id .byebye)).deleteDevice t dev.id .byebye) := by
      simp only [System.step, System.thread, System.update, ThreadTable.get_set_self]
    obtain ⟨hctrlPoint, hthread⟩ := @deleteDevice_of_mem
      (invalidated.update s.ctrlPoint.invalidate t (.deleting dev.id .byebye)) t dev.id hids .byebye
    rw [hdeleting] at hsecond
    refine ⟨_, TransitionSystem.run_cons_eq_some_iff.mpr ⟨_, hstep,
      TransitionSystem.run_cons_eq_some_iff.mpr ⟨_, hsecond,
        TransitionSystem.run_singleton_eq_some_iff.mpr hthird⟩⟩, ?_⟩
    rw [hctrlPoint]
    exact ⟨⟨hthread, hctrlPoint ▸ hrunning, hctrlPoint ▸ hsettled⟩, hlistener, hremoved⟩

end Steps

end Mupnp.Discovery
