import Mupnp.Advertisement.Agreement
import Mupnp.Advertisement.AnnouncementDatagrams
import Mupnp.Discovery.QuietControlPoint

/-!
# The life of an announced device at a control point

A device announces itself, announces itself again any number of times, and says goodbye. The
datagrams of these passes are heard by one thread of a control point that no other thread works on.
The first pass adds the device that its description declares, with the location and the lease of the
device, every later pass moves the end of the lease and does nothing else, and the last one takes
the device out again (`announced_life`).

Only the first datagram of a pass matters: the listener does nothing for the others
(`run_notified_of_forall`).
-/

set_option autoImplicit false
set_option relaxedAutoImplicit false

namespace Mupnp.Advertisement

open Foundation Util Http Net Ssdp Discovery

/-! ### The listener thread -/

/-- The listener is called with a packet at a time. -/
def notified (t : ThreadId) (heard : ReceivedPacket × ℤ) : Action :=
  .ssdpNotify t (heard.1.toSsdpPacket heard.2) heard.2 true

/-- What a listener thread does with packets when the first of them makes it download a
description. -/
def fetching (listener : ReceivedPacket × ℤ → Action) (t : ThreadId) (description : Device)
    (fetchTime now : ℤ) : List (ReceivedPacket × ℤ) → List Action
  | [] => []
  | first :: rest =>
    listener first :: .commit t (some description) fetchTime now :: rest.map listener

/-- What the listener thread does in a pass that says goodbye. -/
def dismissed (t : ThreadId) (deviceListener : Bool) : List (ReceivedPacket × ℤ) → List Action
  | [] => []
  | first :: rest =>
    notified t first :: .lookup t ::
      ((if deviceListener = true then [.delete t] else []) ++ rest.map (notified t))

/-- A packet that the listener does nothing for. -/
theorem step_notified_of_not_root {t : ThreadId} {s : System} (hidle : s.thread t = .idle)
    {heard : ReceivedPacket × ℤ} (hroot : (heard.1.toSsdpPacket heard.2).isRootDevice = false) :
    s.step (notified t heard) = some s := by
  simp only [notified, System.step, hidle, hroot, Bool.false_eq_true, if_false]

/-- Packets that are not about a root device change nothing. -/
theorem run_notified_of_forall {t : ThreadId} {s : System} (hidle : s.thread t = .idle)
    {rest : List (ReceivedPacket × ℤ)}
    (hrest : ∀ heard ∈ rest, (heard.1.toSsdpPacket heard.2).isRootDevice = false) :
    discovery.run s (rest.map (notified t)) = some s := by
  induction rest with
  | nil => rfl
  | cons heard rest ih =>
    rw [List.forall_mem_cons] at hrest
    rw [List.map_cons, TransitionSystem.run_cons_eq_some_iff]
    exact ⟨s, step_notified_of_not_root hidle hrest.1, ih hrest.2⟩

section Steps

variable {t : ThreadId} {s : System} {heard : ReceivedPacket × ℤ}

/-- The listener adds the device of an alive notification. -/
theorem step_notified_alive (hidle : s.thread t = .idle)
    (hroot : (heard.1.toSsdpPacket heard.2).isRootDevice = true)
    (halive : (heard.1.toSsdpPacket heard.2).isAlive = true) :
    s.step (notified t heard) =
      some (s.addDeviceBySsdpPacket t (heard.1.toSsdpPacket heard.2) heard.2 true) := by
  simp only [notified, System.step, hidle, hroot, halive, if_true]

/-- The listener removes the device of a byebye notification. -/
theorem step_notified_byebye (hidle : s.thread t = .idle)
    (hroot : (heard.1.toSsdpPacket heard.2).isRootDevice = true)
    (halive : (heard.1.toSsdpPacket heard.2).isAlive = false)
    (hbyebye : (heard.1.toSsdpPacket heard.2).isByebye = true) {udn : CString}
    (husn : usnGetUdn (heard.1.toSsdpPacket heard.2).getUsn udnLenMax = udn) :
    s.step (notified t heard) = some (s.update s.ctrlPoint t (.removing udn .byebye)) := by
  simp only [notified, System.step, hidle, hroot, halive, hbyebye, husn, if_true,
    Bool.false_eq_true, if_false]

end Steps

/-! ### The life of a device -/

/-- A thread hears the datagrams of some requests, each at a time of its own. -/
def Hears (requests : List HttpRequest) (heard : List (ReceivedPacket × ℤ)) : Prop :=
  ∃ ssdpPkt sender selected, ssdpPkt.headers = [] ∧
    heard.map Prod.fst = packetsHeard ssdpPkt sender selected requests

/-- A device tree whose passes can be sent and heard: the lease times fit their array, every datagram
fits, the UDN of the root device comes back from its service names, and nothing else mentions a root
device. -/
structure IsAnnounceable (texts : NotifyTexts) (bindAddr : CString) (root : AnnouncedTree) :
    Prop where
  leaseTime : ∀ dev ∈ root.preorder, FitsLeaseTime dev.leaseTime
  alive : ∀ ssdpReq ∈ aliveRequests texts bindAddr root.value true root, IsDatagram ssdpReq
  byebye : ∀ ssdpReq ∈ byebyeRequests texts bindAddr true (entries (located root)),
    IsDatagram ssdpReq
  fits : Fits true root.value.toDeviceEntry
  readable : ReadableUdn root.value.udn
  named : root.value.udn ≠ []
  other : NamesNoOtherRoot (announceFrom true (entries (located root)))

/-- The lease time of the root device is a `long`. -/
theorem IsAnnounceable.isLong {texts : NotifyTexts} {bindAddr : CString} {root : AnnouncedTree}
    (h : IsAnnounceable texts bindAddr root) : IsLong root.value.leaseTime :=
  (h.leaseTime root.value (by simp [RoseTree.preorder_eq])).isLong

/-- The time of the packet that a cached device has after a pass. -/
def refreshTime (time : ℤ) (heard : List (ReceivedPacket × ℤ)) : ℤ :=
  (heard.head?.map Prod.snd).getD time

section Life

variable {texts : NotifyTexts} {bindAddr : CString} {root : AnnouncedTree} {t : ThreadId}
  {s : System} {before : List Device} {description : Device}

/-- The announcement of an unknown device adds it. -/
theorem run_announced (h : IsAnnounceable texts bindAddr root) (hquiet : IsQuiet t s)
    (hunknown : IsUnknown root.value.udn s.ctrlPoint.deviceList)
    (hudn : description.udn = some root.value.udn)
    (hfresh : s.ledger.Fresh (deviceIds [description])) {heard : List (ReceivedPacket × ℤ)}
    (hheard : Hears (aliveRequests texts bindAddr root.value true root) heard)
    (fetchTime now : ℤ) :
    ∃ s', discovery.run s (fetching (notified t) t description fetchTime now heard) = some s' ∧
      IsQuiet t s' ∧
      s'.ctrlPoint.deviceListener = s.ctrlPoint.deviceListener ∧
      Caches s'.ctrlPoint s.ctrlPoint.deviceList description (root.value.getLocationUrl bindAddr)
        root.value.leaseTime fetchTime := by
  obtain ⟨ssdpPkt, sender, selected, hclear, hpackets⟩ := hheard
  obtain ⟨first, rest, hsplit, hfirst, hrest⟩ := announcement_heard h.alive h.fits h.readable
    h.named h.other h.isLong.1 h.isLong.2 hclear sender selected
  rw [hsplit] at hpackets
  obtain ⟨⟨packet, time⟩, others, rfl, rfl, hothers⟩ := List.map_eq_cons_iff.mp hpackets
  obtain ⟨hroot, halive, hmaxAge, htarget⟩ := hfirst time
  have hstep := @step_notified_alive t s (packet, time) hquiet.idle hroot halive
  obtain ⟨s', hrun, hquiet', hlistener, hcaches⟩ := run_added hquiet hstep htarget hunknown
    (declares_of_udn hudn) hudn h.named hunknown hfresh fetchTime now
  rw [hmaxAge] at hcaches
  refine ⟨s', ?_, hquiet', hlistener, hcaches⟩
  refine TransitionSystem.run_append_eq_some_iff.mpr ⟨s', hrun, ?_⟩
  refine run_notified_of_forall hquiet'.idle fun heard hmem ↦ hrest heard.1 ?_ heard.2
  exact hothers ▸ List.mem_map_of_mem hmem

/-- A later announcement only moves the time from which the lease counts. -/
theorem run_refreshed (h : IsAnnounceable texts bindAddr root) (hquiet : IsQuiet t s) {time : ℤ}
    (hcaches : Caches s.ctrlPoint before description (root.value.getLocationUrl bindAddr)
      root.value.leaseTime time)
    (hudn : description.udn = some root.value.udn) (hunknown : IsUnknown root.value.udn before)
    (hnodup : (deviceIds s.ctrlPoint.deviceList).Nodup) {heard : List (ReceivedPacket × ℤ)}
    (hheard : Hears (aliveRequests texts bindAddr root.value true root) heard) :
    ∃ s', discovery.run s (heard.map (notified t)) = some s' ∧ IsQuiet t s' ∧
      s'.ctrlPoint.deviceListener = s.ctrlPoint.deviceListener ∧
      Caches s'.ctrlPoint before description (root.value.getLocationUrl bindAddr)
        root.value.leaseTime (refreshTime time heard) := by
  obtain ⟨ssdpPkt, sender, selected, hclear, hpackets⟩ := hheard
  obtain ⟨first, rest, hsplit, hfirst, hrest⟩ := announcement_heard h.alive h.fits h.readable
    h.named h.other h.isLong.1 h.isLong.2 hclear sender selected
  rw [hsplit] at hpackets
  obtain ⟨⟨packet, heardAt⟩, others, rfl, rfl, hothers⟩ := List.map_eq_cons_iff.mp hpackets
  obtain ⟨hroot, halive, hmaxAge, htarget⟩ := hfirst heardAt
  have hstep := @step_notified_alive t s (packet, heardAt) hquiet.idle hroot halive
  obtain ⟨s', hrun, hquiet', hlistener, hcaches'⟩ := run_renewed hquiet hstep htarget hcaches hnodup
    hunknown (declares_of_udn hudn)
  rw [hmaxAge] at hcaches'
  refine ⟨s', ?_, hquiet', hlistener, hcaches'⟩
  refine TransitionSystem.run_append_eq_some_iff.mpr ⟨s', hrun, ?_⟩
  refine run_notified_of_forall hquiet'.idle fun heard hmem ↦ hrest heard.1 ?_ heard.2
  exact hothers ▸ List.mem_map_of_mem hmem

/-- Any number of later announcements only move the time from which the lease counts. -/
theorem run_refreshed_passes (h : IsAnnounceable texts bindAddr root) (hquiet : IsQuiet t s)
    {time : ℤ} (hcaches : Caches s.ctrlPoint before description
      (root.value.getLocationUrl bindAddr) root.value.leaseTime time)
    (hudn : description.udn = some root.value.udn) (hunknown : IsUnknown root.value.udn before)
    (haccounted : s.Accounted)
    {passes : List (List (ReceivedPacket × ℤ))}
    (hpasses : ∀ heard ∈ passes, Hears (aliveRequests texts bindAddr root.value true root) heard) :
    ∃ s', discovery.run s (passes.flatMap fun heard ↦ heard.map (notified t)) = some s' ∧
      IsQuiet t s' ∧ s'.ctrlPoint.deviceListener = s.ctrlPoint.deviceListener ∧
      Caches s'.ctrlPoint before description (root.value.getLocationUrl bindAddr)
        root.value.leaseTime (passes.foldl refreshTime time) := by
  induction passes generalizing s time with
  | nil => exact ⟨s, rfl, hquiet, rfl, hcaches⟩
  | cons heard passes ih =>
    rw [List.forall_mem_cons] at hpasses
    obtain ⟨s₁, hrun, hquiet₁, hlistener₁, hcaches₁⟩ :=
      run_refreshed h hquiet hcaches hudn hunknown haccounted.live_nodup hpasses.1
    obtain ⟨s₂, hrest, hquiet₂, hlistener₂, hcaches₂⟩ := ih hquiet₁ hcaches₁
      (System.accounted_of_run haccounted hrun) hpasses.2
    refine ⟨s₂, ?_, hquiet₂, hlistener₂.trans hlistener₁, hcaches₂⟩
    rw [List.flatMap_cons]
    exact TransitionSystem.run_append_eq_some_iff.mpr ⟨s₁, hrun, hrest⟩

/-- A device that says goodbye is taken out. -/
theorem run_dismissed (h : IsAnnounceable texts bindAddr root) (hquiet : IsQuiet t s) {time : ℤ}
    (hcaches : Caches s.ctrlPoint before description (root.value.getLocationUrl bindAddr)
      root.value.leaseTime time)
    (hudn : description.udn = some root.value.udn) (hunknown : IsUnknown root.value.udn before)
    (hnodup : (deviceIds s.ctrlPoint.deviceList).Nodup) {heard : List (ReceivedPacket × ℤ)}
    (hheard : Hears (byebyeRequests texts bindAddr true (entries (located root))) heard) :
    ∃ s', discovery.run s (dismissed t s.ctrlPoint.deviceListener heard) = some s' ∧
      IsQuiet t s' ∧ s'.ctrlPoint.deviceList = before := by
  obtain ⟨ssdpPkt, sender, selected, hclear, hpackets⟩ := hheard
  have hvalue : (entries (located root)).value = root.value.toDeviceEntry := by
    simp [entries, located]
  have hother : NamesNoOtherRoot (byebyeFrom true (entries (located root))) := by
    rw [byebyeFrom_eq, ← announceFrom_eq]
    exact h.other
  obtain ⟨first, rest, hsplit, hfirst, hrest⟩ := byebye_heard h.byebye (hvalue ▸ h.fits)
    (hvalue ▸ h.readable) hother hclear sender selected
  rw [hsplit] at hpackets
  obtain ⟨⟨packet, heardAt⟩, others, rfl, rfl, hothers⟩ := List.map_eq_cons_iff.mp hpackets
  obtain ⟨hroot, halive, hbyebye, husn⟩ := hfirst heardAt
  rw [hvalue] at husn
  have hstep := @step_notified_byebye t s (packet, heardAt) hquiet.idle hroot halive hbyebye _ husn
  obtain ⟨s', hrun, hquiet', -, hlist'⟩ :=
    run_dismissed_first hquiet hstep hcaches hunknown hnodup hudn h.named
  refine ⟨s', ?_, hquiet', hlist'⟩
  refine TransitionSystem.run_append_eq_some_iff.mpr ⟨s', hrun, ?_⟩
  refine run_notified_of_forall hquiet'.idle fun heard hmem ↦ hrest heard.1 ?_ heard.2
  exact hothers ▸ List.mem_map_of_mem hmem

/-- **The life of an announced device.** In every reachable state of a control point on which no
other thread works, a listener thread hears a device announce itself, announce itself again any
number of times, and say goodbye. The first pass adds the device of the description to the cache,
the later ones only move the time from which its lease counts, and after the last one the cache is
what it was before. -/
theorem announced_life (h : IsAnnounceable texts bindAddr root) {deviceListener : Bool}
    {actions : List Action} (hreach : discovery.run (System.init deviceListener) actions = some s)
    (hquiet : IsQuiet t s) (hunknown : IsUnknown root.value.udn s.ctrlPoint.deviceList)
    (hudn : description.udn = some root.value.udn)
    (hfresh : s.ledger.Fresh (deviceIds [description]))
    {first last : List (ReceivedPacket × ℤ)} {passes : List (List (ReceivedPacket × ℤ))}
    (hfirst : Hears (aliveRequests texts bindAddr root.value true root) first)
    (hpasses : ∀ heard ∈ passes, Hears (aliveRequests texts bindAddr root.value true root) heard)
    (hlast : Hears (byebyeRequests texts bindAddr true (entries (located root))) last)
    (fetchTime now : ℤ) :
    ∃ s₁ s₂ s₃,
      discovery.run s (fetching (notified t) t description fetchTime now first) = some s₁ ∧
      Caches s₁.ctrlPoint s.ctrlPoint.deviceList description (root.value.getLocationUrl bindAddr)
        root.value.leaseTime fetchTime ∧
      discovery.run s₁ (passes.flatMap fun heard ↦ heard.map (notified t)) = some s₂ ∧
      Caches s₂.ctrlPoint s.ctrlPoint.deviceList description (root.value.getLocationUrl bindAddr)
        root.value.leaseTime (passes.foldl refreshTime fetchTime) ∧
      discovery.run s₂ (dismissed t s.ctrlPoint.deviceListener last) = some s₃ ∧
      IsQuiet t s₃ ∧ s₃.ctrlPoint.deviceList = s.ctrlPoint.deviceList := by
  have haccounted : s.Accounted := System.accounted_of_run (System.accounted_init _) hreach
  obtain ⟨s₁, hrun₁, hquiet₁, hlistener₁, hcaches₁⟩ :=
    run_announced h hquiet hunknown hudn hfresh hfirst fetchTime now
  have haccounted₁ : s₁.Accounted := System.accounted_of_run haccounted hrun₁
  obtain ⟨s₂, hrun₂, hquiet₂, hlistener₂, hcaches₂⟩ :=
    run_refreshed_passes h hquiet₁ hcaches₁ hudn hunknown haccounted₁ hpasses
  have hnodup₂ := (System.accounted_of_run haccounted₁ hrun₂).live_nodup
  obtain ⟨s₃, hrun₃, hquiet₃, hlist₃⟩ := run_dismissed h hquiet₂ hcaches₂ hudn hunknown hnodup₂
    hlast
  rw [hlistener₂, hlistener₁] at hrun₃
  exact ⟨s₁, s₂, s₃, hrun₁, hcaches₁, hrun₂, hcaches₂, hrun₃, hquiet₃, hlist₃⟩

end Life

/-- A root device with a service and an embedded device. -/
def announcedRoot : AnnouncedTree :=
  .node ⟨⟨⟨"uuid:a".toList, "urn:d".toList, ["urn:s".toList]⟩, "/description.xml".toList, 38400⟩,
      1800, 1⟩
    [.node ⟨⟨⟨"uuid:b".toList, "urn:e".toList, []⟩, "/description.xml".toList, 38400⟩, 1800, 1⟩ []]

/-- The texts of a library. -/
def announcedTexts : NotifyTexts := ⟨"mUPnP/1".toList, "mUPnP/1".toList, "ff02::c".toList⟩

theorem isAnnounceable_announcedRoot :
    IsAnnounceable announcedTexts "10.0.0.1".toList announcedRoot where
  leaseTime := by decide +kernel
  alive := by decide +kernel
  byebye := by decide +kernel
  fits := by decide +kernel
  readable := ⟨by decide, by decide⟩
  named := by decide
  other := by
    unfold NamesNoOtherRoot
    decide +kernel

/-- Requests that a new thread hears at a time. -/
def heardAt (time : ℤ) (requests : List HttpRequest) : List (ReceivedPacket × ℤ) :=
  (packetsHeard .new none none requests).map fun ssdpPkt ↦ (ssdpPkt, time)

theorem hears_heardAt (time : ℤ) (requests : List HttpRequest) :
    Hears requests (heardAt time requests) :=
  ⟨.new, none, none, rfl, by simp [heardAt, List.map_map, Function.comp_def]⟩

theorem announced_life_sample :
    let alive := aliveRequests announcedTexts "10.0.0.1".toList announcedRoot.value true announcedRoot
    let byebye :=
      byebyeRequests announcedTexts "10.0.0.1".toList true (entries (located announcedRoot))
    ∃ s₁ s₂ s₃, discovery.run (System.init true)
        (fetching (notified (.worker 0)) (.worker 0) rootDescription 1 2 (heardAt 0 alive)) =
          some s₁ ∧
      Caches s₁.ctrlPoint [] rootDescription
        "http://10.0.0.1:38400/description.xml".toList 1800 1 ∧
      discovery.run s₁ ([heardAt 900 alive, heardAt 1800 alive].flatMap fun heard ↦
        heard.map (notified (.worker 0))) = some s₂ ∧
      Caches s₂.ctrlPoint [] rootDescription
        "http://10.0.0.1:38400/description.xml".toList 1800 1800 ∧
      discovery.run s₂ (dismissed (.worker 0) true (heardAt 2000 byebye)) = some s₃ ∧
      IsQuiet (.worker 0) s₃ ∧ s₃.ctrlPoint.deviceList = [] := by
  intro alive byebye
  have hpasses : ∀ heard ∈ [heardAt 900 alive, heardAt 1800 alive], Hears alive heard := by
    simp [hears_heardAt]
  have hrun : discovery.run (System.init true) [] = some (System.init true) := rfl
  have hquiet : IsQuiet (.worker 0) (System.init true) := ⟨rfl, rfl, rfl⟩
  have hunknown : IsUnknown announcedRoot.value.udn (System.init true).ctrlPoint.deviceList :=
    fun object hobject ↦ by cases hobject
  have hudn : rootDescription.udn = some announcedRoot.value.udn := rfl
  exact announced_life isAnnounceable_announcedRoot hrun hquiet hunknown hudn (by decide)
    (hears_heardAt 0 alive) hpasses (hears_heardAt 2000 byebye) 1 2

end Mupnp.Advertisement
