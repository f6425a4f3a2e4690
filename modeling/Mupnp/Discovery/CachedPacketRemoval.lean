import Mupnp.Discovery.DeviceLedger
import Mupnp.Discovery.PendingFetches

/-!
# Removing a device through its cached packet

Expiration and an interface change remove a root device by looking up the USN of the packet that the
root keeps. `OwnPackets` says when this finds the root itself: the packet names the root, and no
device that the lookup meets earlier has its name. Then the removal takes out that root device and
nothing else (`removeDeviceBySsdpPacket_deviceList`).

A refresh, an update or an addition that stores a packet naming another device of the tree breaks
this, and so does an update whose new description embeds a device with the UDN of a later root.
`NamesRoots` excludes exactly these steps, and `removal_takes_out_the_root_of_run` proves that
`OwnPackets` holds at the end of every run without them.
-/

set_option autoImplicit false
set_option relaxedAutoImplicit false

namespace Mupnp.Discovery

open Foundation Util Ssdp

/-- The UDN by which a device is looked up when it is removed through its own packet. -/
def Device.packetUdn (dev : Device) : CString := usnGetUdn dev.ssdpPkt.getUsn udnLenMax

/-- The packet of each root device names that root, and no root device before it has a device of
that name in its tree. -/
structure OwnPackets (devices : List Device) : Prop where
  names : ∀ root ∈ devices, root.packetUdn ≠ [] ∧ root.udn = some root.packetUdn
  first : devices.Pairwise fun earlier root ↦
    ∀ object ∈ earlier.preorder, object.udn ≠ some root.packetUdn

theorem ownPackets_nil : OwnPackets [] :=
  ⟨fun _ h ↦ absurd h List.not_mem_nil, List.Pairwise.nil⟩

namespace ControlPoint

/-- The lookup of a root device's own packet finds the root device. -/
theorem getDeviceByUdn_packetUdn {ctrlPoint : ControlPoint} (hown : OwnPackets ctrlPoint.deviceList)
    {root : Device} (hroot : root ∈ ctrlPoint.deviceList) :
    ctrlPoint.getDeviceByUdn (some root.packetUdn) = some root := by
  obtain ⟨hne, hname⟩ := hown.names root hroot
  obtain ⟨before, after, hsplit⟩ := List.append_of_mem hroot
  have hpairs := hown.first
  rw [hsplit] at hpairs
  have hbefore : ∀ dev ∈ RoseTree.subtreesIn before, dev.value.udn ≠ some root.packetUdn := by
    intro dev hdev
    have hvalue : dev.value ∈ RoseTree.preorderIn before := List.mem_map_of_mem hdev
    obtain ⟨earlier, hearlier, hobject⟩ := RoseTree.mem_preorderIn_iff.mp hvalue
    exact (List.pairwise_append.mp hpairs).2.2 earlier hearlier root List.mem_cons_self _ hobject
  rw [getDeviceByUdn_eq_find ctrlPoint hne, hsplit, RoseTree.subtreesIn_append,
    RoseTree.subtreesIn_cons, List.find?_append]
  have hnone : (RoseTree.subtreesIn before).find?
      (fun dev ↦ decide (dev.value.udn = some root.packetUdn)) = none :=
    List.find?_eq_none.mpr fun dev hdev ↦ by simpa using hbefore dev hdev
  rw [hnone, List.find?_cons_of_pos (by simpa [Device.udn] using hname)]
  rfl

/-- Deleting a root device takes out that root device and nothing else. -/
theorem deleteDevice_root {ctrlPoint : ControlPoint}
    (hnodup : (deviceIds ctrlPoint.deviceList).Nodup)
    {root : Device} (hroot : root ∈ ctrlPoint.deviceList) :
    (ctrlPoint.deleteDevice root.id).deviceList =
      ctrlPoint.deviceList.filter fun dev ↦ dev.id ≠ root.id := by
  have hbelow : ∀ dev ∈ ctrlPoint.deviceList, ∀ object ∈ RoseTree.preorderIn dev.children,
      ¬ decide (object.id = root.id) = true := by
    intro dev hdev object hobject hid
    have hmem : object.id ∈ deviceIds dev.devices := List.mem_map_of_mem hobject
    rw [of_decide_eq_true hid] at hmem
    exact id_not_mem_embedded hnodup hroot hdev hmem
  rw [deleteDevice, RoseTree.pruneIn_eq_filter fun dev hdev _ ↦ hbelow dev hdev]
  refine List.filter_congr fun dev _ ↦ ?_
  by_cases hid : dev.value.id = root.value.id
  · simp [Device.id, hid]
  · simp [Device.id, hid]

/-- Removing a device through the packet that a root device keeps takes out that root device and
nothing else. -/
theorem removeDeviceBySsdpPacket_deviceList {ctrlPoint : ControlPoint}
    (hnodup : (deviceIds ctrlPoint.deviceList).Nodup) (hown : OwnPackets ctrlPoint.deviceList)
    {root : Device} (hroot : root ∈ ctrlPoint.deviceList) :
    (ctrlPoint.removeDeviceBySsdpPacket root.ssdpPkt).deviceList =
      ctrlPoint.deviceList.filter fun dev ↦ dev.id ≠ root.id := by
  have hfound : ctrlPoint.invalidate.getDeviceByUdn
      (some (usnGetUdn root.ssdpPkt.getUsn udnLenMax)) = some root :=
    @getDeviceByUdn_packetUdn ctrlPoint.invalidate hown root hroot
  rw [removeDeviceBySsdpPacket, hfound]
  exact @deleteDevice_root ctrlPoint.invalidate hnodup root hroot

/-! ### The steps that keep the packets -/

/-- The deletion of an object leaves every packet with the root that keeps it. -/
theorem ownPackets_deleteDevice {ctrlPoint : ControlPoint} (hown : OwnPackets ctrlPoint.deviceList)
    (id : DeviceId) : OwnPackets (ctrlPoint.deleteDevice id).deviceList := by
  rw [deleteDevice, RoseTree.pruneIn_eq_map_filter]
  refine ⟨fun root hroot ↦ ?_, ?_⟩
  · obtain ⟨old, hold, rfl⟩ := List.mem_map.mp hroot
    exact hown.names old (List.mem_filter.mp hold).1
  · refine List.pairwise_map.mpr ((hown.first.filter _).imp ?_)
    intro earlier root hfirst object hobject
    refine hfirst object ?_
    rw [RoseTree.preorder_eq] at hobject ⊢
    exact ((RoseTree.preorderIn_pruneIn_sublist _ _).cons_cons _).subset hobject

end ControlPoint

/-- A root device may be exchanged for one that has the same name and whose packet names it, when
its tree has no device with the name of a later root. -/
theorem OwnPackets.replace {before after : List Device} {dev dev' : Device}
    (hown : OwnPackets (before ++ dev :: after)) (hudn : dev'.udn = dev.udn)
    (hpacket : dev'.packetUdn = dev.packetUdn)
    (hlater : ∀ root ∈ after, some root.packetUdn ∉ deviceUdns dev'.devices) :
    OwnPackets (before ++ dev' :: after) := by
  obtain ⟨hbefore, hfrom, hcross⟩ := List.pairwise_append.mp hown.first
  obtain ⟨hdev, hafter⟩ := List.pairwise_cons.mp hfrom
  refine ⟨fun root hroot ↦ ?_, ?_⟩
  · rcases List.mem_append.mp hroot with hmem | hmem
    · exact hown.names root (List.mem_append_left _ hmem)
    · rcases List.mem_cons.mp hmem with rfl | hmem
      · rw [hudn, hpacket]
        exact hown.names dev (List.mem_append_right _ List.mem_cons_self)
      · exact hown.names root (List.mem_append_right _ (List.mem_cons_of_mem _ hmem))
  · refine List.pairwise_append.mpr ⟨hbefore, List.pairwise_cons.mpr ⟨?_, hafter⟩, ?_⟩
    · intro root hroot object hobject
      rw [RoseTree.preorder_eq] at hobject
      rcases List.mem_cons.mp hobject with rfl | hbelow
      · have hold := hdev root hroot dev.value
          (by rw [RoseTree.preorder_eq]; exact List.mem_cons_self)
        exact fun heq ↦ hold (hudn.symm.trans heq)
      · intro heq
        exact hlater root hroot (heq ▸ List.mem_map_of_mem hbelow)
    · intro earlier hearlier root hroot object hobject
      rcases List.mem_cons.mp hroot with rfl | hmem
      · rw [hpacket]
        exact hcross earlier hearlier dev List.mem_cons_self object hobject
      · exact hcross earlier hearlier root (List.mem_cons_of_mem _ hmem) object hobject

/-- No later root device has a name that occurs below an earlier one. -/
theorem OwnPackets.not_mem_deviceUdns {before after : List Device} {dev : Device}
    (hown : OwnPackets (before ++ dev :: after)) :
    ∀ root ∈ after, some root.packetUdn ∉ deviceUdns dev.devices := by
  intro root hroot hmem
  obtain ⟨object, hobject, hname⟩ := List.mem_map.mp hmem
  have hpairs := (List.pairwise_cons.mp (List.pairwise_append.mp hown.first).2.1).1 root hroot
      object
  rw [RoseTree.preorder_eq] at hpairs
  exact hpairs (List.mem_cons_of_mem _ hobject) hname

/-- A root device may be added when its packet names it and no device has that name. -/
theorem OwnPackets.append {devices : List Device} (hown : OwnPackets devices) {newDev : Device}
    (hne : newDev.packetUdn ≠ []) (hname : newDev.udn = some newDev.packetUdn)
    (hnew : ∀ dev ∈ RoseTree.subtreesIn devices, dev.value.udn ≠ some newDev.packetUdn) :
    OwnPackets (devices ++ [newDev]) := by
  refine ⟨fun root hroot ↦ ?_, ?_⟩
  · rcases List.mem_append.mp hroot with hmem | hmem
    · exact hown.names root hmem
    · obtain rfl := List.mem_singleton.mp hmem
      exact ⟨hne, hname⟩
  · refine List.pairwise_append.mpr ⟨hown.first, List.pairwise_singleton _ _, ?_⟩
    intro earlier hearlier root hroot object hobject
    obtain rfl := List.mem_singleton.mp hroot
    have hmem : object ∈ RoseTree.preorderIn devices :=
      RoseTree.mem_preorderIn_iff.mpr ⟨earlier, hearlier, hobject⟩
    obtain ⟨dev, hdev, rfl⟩ := List.mem_map.mp hmem
    exact hnew dev hdev

namespace ControlPoint

/-- A packet that refreshes a cached root device names that root. -/
def RefreshNamesRoot (ctrlPoint : ControlPoint) (ssdpPkt : SsdpPacket) : Prop :=
  ∀ udn location dev, fetchTarget ssdpPkt = some (udn, location) → ctrlPoint.stopping = false →
    ctrlPoint.getRootDeviceByUdn udn = some dev → dev.ssdpPkt.getLocation = some location →
    dev.udn = some udn

/-- A fetch that adds a root device was reserved for that root. A fetch that updates one was
reserved for it, and the new description embeds no device with the UDN of a later root. -/
structure CommitNamesRoot (ctrlPoint : ControlPoint) (fetch : Fetch) (reservation : Reservation)
    (candidate : Option Device) : Prop where
  added : ∀ newDev, candidate = some newDev → ctrlPoint.MayPublish fetch reservation →
    ctrlPoint.getRootDeviceByUdn fetch.udn = none → ctrlPoint.getDeviceByUdn newDev.udn = none →
    newDev.udn = some fetch.udn
  updated : ∀ newDev dev before after, candidate = some newDev →
    ctrlPoint.MayPublish fetch reservation → ctrlPoint.getRootDeviceByUdn fetch.udn = some dev →
    streq reservation.cachedLocation dev.ssdpPkt.getLocation = true →
    streq newDev.udn dev.udn = true → ctrlPoint.deviceList = before ++ dev :: after →
    dev.udn = some fetch.udn ∧ ∀ root ∈ after, root.udn ∉ deviceUdns newDev.devices

/-- A refresh with a packet that names the root keeps every packet with its root. -/
theorem ownPackets_reserve {ctrlPoint : ControlPoint}
    (hnodup : (deviceIds ctrlPoint.deviceList).Nodup)
    (hown : OwnPackets ctrlPoint.deviceList) {ssdpPkt : SsdpPacket}
    (hnames : ctrlPoint.RefreshNamesRoot ssdpPkt) (owner : ThreadId) (now : ℤ) (memory : Bool) :
    OwnPackets (ctrlPoint.reserve owner ssdpPkt now memory).1.deviceList := by
  rcases reserve_cases ctrlPoint owner ssdpPkt now memory with ⟨-, hignored⟩ |
    ⟨udn, location, dev, htarget, hrunning, hroot, hlocation, hrefreshed⟩ |
    ⟨udn, location, -, -, -, hreserved⟩
  · rwa [hignored]
  · have hudn : dev.udn = some udn := hnames udn location dev htarget hrunning hroot hlocation
    have hmem := (getRootDeviceByUdn_mem hroot).1
    obtain ⟨before, after, hsplit, -, hupdate⟩ :=
      updateRoot_deviceList hnodup hmem (·.setSsdpPacket ssdpPkt now)
    have hpacket : (dev.setSsdpPacket ssdpPkt now).packetUdn = dev.packetUdn := by
      have hname := (hown.names dev hmem).2
      calc (dev.setSsdpPacket ssdpPkt now).packetUdn = udn := (fetchTarget_eq_some htarget).1.symm
        _ = dev.packetUdn := Option.some.inj (hudn.symm.trans hname)
    rw [hrefreshed, hupdate]
    rw [hsplit] at hown
    exact hown.replace rfl hpacket hown.not_mem_deviceUdns
  · obtain ⟨pendingFetches, henqueue⟩ := enqueue_fst ctrlPoint owner udn location
      (ctrlPoint.getRootDeviceByUdn udn) memory
    rwa [hreserved, henqueue]

/-- A commit that names the root keeps every packet with its root. -/
theorem ownPackets_commit {ctrlPoint : ControlPoint}
    (hnodup : (deviceIds ctrlPoint.deviceList).Nodup)
    (hown : OwnPackets ctrlPoint.deviceList) {fetch : Fetch} {ssdpPkt : SsdpPacket}
    (htarget : fetchTarget ssdpPkt = some (fetch.udn, fetch.location)) {reservation : Reservation}
    {description : Option Device} {fetchTime now : ℤ} {devices : List Device}
    {leftOver : Option Device}
    (hnames : ctrlPoint.CommitNamesRoot fetch reservation
      (createCandidate ssdpPkt fetch.udn description fetchTime))
    (houtcome : CommitOutcome ctrlPoint fetch ssdpPkt reservation
      (createCandidate ssdpPkt fetch.udn description fetchTime) now devices leftOver) :
    OwnPackets devices := by
  obtain ⟨hfetchUdn, hne, -, -⟩ := fetchTarget_eq_some htarget
  cases houtcome with
  | unchanged => exact hown
  | updated dev newDev hpublish hroot hlocation hcandidate =>
    have hmem := (getRootDeviceByUdn_mem hroot).1
    obtain ⟨before, after, hsplit, -, hupdate⟩ := updateRoot_deviceList hnodup hmem fun _ ↦
      (updateFromDevice dev newDev ssdpPkt now).2.1
    rw [hupdate]
    by_cases haccepted : streq newDev.udn dev.udn = true
    · obtain ⟨hdevUdn, hlater⟩ := hnames.updated newDev dev before after hcandidate hpublish hroot
        hlocation haccepted hsplit
      have hdevPacket : dev.packetUdn = fetch.udn :=
        Option.some.inj ((hown.names dev hmem).2.symm.trans hdevUdn)
      have hpacket : (updateFromDevice dev newDev ssdpPkt now).2.1.packetUdn = dev.packetUdn := by
        rw [hdevPacket, hfetchUdn, Device.packetUdn, SsdpPacket.getUsn, SsdpPacket.getHeaderValue,
          updateFromDevice_fst_headers haccepted]
        rfl
      have hown' := hown
      rw [hsplit] at hown
      refine hown.replace (updateFromDevice_fst_id_udn dev newDev ssdpPkt now).2 hpacket ?_
      intro root hafter
      have hrootUdn : root.udn = some root.packetUdn :=
        (hown.names root (List.mem_append_right _ (List.mem_cons_of_mem _ hafter))).2
      rcases updateFromDevice_fst_deviceUdns dev newDev ssdpPkt now with hkept | hswapped
      · rw [hkept]
        exact hown.not_mem_deviceUdns root hafter
      · rw [hswapped, ← hrootUdn]
        exact hlater root hafter
    · rw [updateFromDevice_of_ne (by simpa using haccepted), ← hsplit]
      exact hown
  | added newDev hpublish hroot hcandidate hnew =>
    have hudn := hnames.added newDev hcandidate hpublish hroot hnew
    obtain ⟨fetched, -, hnewDev, -⟩ := createCandidate_eq_some hcandidate
    have hpacket : newDev.packetUdn = fetch.udn := by
      rw [hfetchUdn, hnewDev]
      rfl
    rw [hudn] at hnew
    rw [← hpacket] at hudn hne hnew
    exact hown.append hne hudn (udn_ne_of_getDeviceByUdn_eq_none hne hnew)

end ControlPoint

/-- The step by which a download ends. -/
def Action.isCommit : Action → Bool
  | .commit _ _ _ _ => true
  | _ => false

namespace System

/-- A step stores a packet with a root device only when the packet names that root, and embeds no
device with the UDN of a later root. -/
structure NamesRoots (s : System) (a : Action) : Prop where
  refresh : ∀ ssdpPkt, a.announcement = some ssdpPkt → s.ctrlPoint.RefreshNamesRoot ssdpPkt
  commit : ∀ t description fetchTime now ssdpPkt reservation fetch,
    a = .commit t description fetchTime now → s.thread t = .fetching ssdpPkt reservation →
    s.ctrlPoint.pendingFetches.find? (·.owner = t) = some fetch →
    s.ctrlPoint.CommitNamesRoot fetch reservation
      (ControlPoint.createCandidate ssdpPkt fetch.udn description fetchTime)

/-- A step that names the roots keeps every packet with its root. -/
theorem ownPackets_of_step {s s' : System} {a : Action} (haccounted : s.Accounted)
    (htracked : s.Tracked) (hown : OwnPackets s.ctrlPoint.deviceList) (hnames : s.NamesRoots a)
    (hstep : s.step a = some s') : OwnPackets s'.ctrlPoint.deviceList := by
  cases step_effect hstep with
  | quiet hepoch hctrlPoint hledger => rwa [hctrlPoint]
  | announced t ssdpPkt now memory hthread ha hannouncement hs' =>
    have hrefresh : s.ctrlPoint.RefreshNamesRoot (SsdpPacket.new.copy ssdpPkt now) :=
      hnames.refresh ssdpPkt hannouncement
    rw [hs', addDeviceBySsdpPacket_ctrlPoint]
    exact ControlPoint.ownPackets_reserve haccounted.live_nodup hown hrefresh t now memory
  | committed t ssdpPkt reservation fetch description fetchTime now hthread hfetch hfresh ha hs' =>
    have howner : fetch.owner = t := by simpa using List.find?_some hfetch
    obtain ⟨packet, reservation', hfetching, htarget⟩ := htracked.fetching fetch.key
      (List.mem_map_of_mem (List.mem_of_find?_eq_some hfetch))
    have hsame : Thread.fetching packet reservation' = .fetching ssdpPkt reservation := by
      rw [← hfetching, ← hthread, ← howner]
      rfl
    obtain ⟨rfl, rfl⟩ := Thread.fetching.inj hsame
    subst hs'
    exact ControlPoint.ownPackets_commit haccounted.live_nodup hown htarget
      (hnames.commit t description fetchTime now packet reservation' fetch ha hthread hfetch)
      (ControlPoint.commit_outcome s.ctrlPoint fetch packet reservation' _ now)
  | invalidated t udn caller hthread ha hctrlPoint hledger =>
    rw [hctrlPoint]
    exact hown
  | deletedAtOnce t udn caller dev hthread ha hlistener hfound hctrlPoint hledger =>
    rw [hctrlPoint]
    exact @ControlPoint.ownPackets_deleteDevice s.ctrlPoint.invalidate hown dev.id
  | deleted t dev caller hthread ha hctrlPoint hledger =>
    rw [hctrlPoint]
    exact ControlPoint.ownPackets_deleteDevice hown dev
  | stopped t restart ha hctrlPoint hledger =>
    rw [hctrlPoint]
    exact hown
  | cleared t ha hctrlPoint hledger =>
    rw [hctrlPoint]
    exact ownPackets_nil
  | started t ha hctrlPoint hledger =>
    rw [hctrlPoint]
    exact hown

/-- At the end of every run whose steps store packets only with the roots they name, removing a
device through the packet of a root device takes out that root device and nothing else. -/
theorem removal_takes_out_the_root_of_run (deviceListener : Bool) (actions : List Action)
    (s : System)
    (hnames : discovery.AllSteps NamesRoots (init deviceListener) actions)
    (hrun : discovery.run (init deviceListener) actions = some s) :
    ∀ root ∈ s.ctrlPoint.deviceList,
      (s.ctrlPoint.removeDeviceBySsdpPacket root.ssdpPkt).deviceList =
        s.ctrlPoint.deviceList.filter fun dev ↦ dev.id ≠ root.id := by
  have hstep : ∀ s a s', (s.Accounted ∧ s.Tracked ∧ OwnPackets s.ctrlPoint.deviceList) →
      s.NamesRoots a → discovery.step s a = some s' →
      s'.Accounted ∧ s'.Tracked ∧ OwnPackets s'.ctrlPoint.deviceList :=
    fun s a s' h ha hs ↦ ⟨accounted_of_step h.1 hs, tracked_of_step h.2.1 hs,
      ownPackets_of_step h.1 h.2.1 h.2.2 ha hs⟩
  have hinit : (init deviceListener).Accounted ∧ (init deviceListener).Tracked ∧
      OwnPackets (init deviceListener).ctrlPoint.deviceList :=
    ⟨accounted_init deviceListener, tracked_init deviceListener, ownPackets_nil⟩
  obtain ⟨haccounted, -, hown⟩ :=
    TransitionSystem.invariant_of_run_of_allSteps hstep hnames hinit hrun
  intro root hroot
  exact ControlPoint.removeDeviceBySsdpPacket_deviceList haccounted.live_nodup hown hroot

theorem removal_takes_out_the_root_of_run_discovered :
    ∃ s, discovery.run (init true) [rootResponse, rootCommit] = some s ∧
      ∀ root ∈ s.ctrlPoint.deviceList,
        (s.ctrlPoint.removeDeviceBySsdpPacket root.ssdpPkt).deviceList =
          s.ctrlPoint.deviceList.filter fun dev ↦ dev.id ≠ root.id := by
  refine ⟨_, rfl, removal_takes_out_the_root_of_run true [rootResponse, rootCommit] _ ?_ rfl⟩
  refine ⟨⟨fun ssdpPkt _ udn location dev _ _ hroot ↦ ?_, fun _ _ _ _ _ _ _ ha ↦ by cases ha⟩, ?_⟩
  · exact absurd (ControlPoint.getRootDeviceByUdn_mem hroot).1 List.not_mem_nil
  · intro s₁ hs₁
    obtain rfl : downloading = s₁ := Option.some.inj hs₁
    refine ⟨⟨fun _ h ↦ (by cases h), fun t description fetchTime now ssdpPkt reservation fetch ha
      hthread hfetch ↦ ?_⟩, fun _ _ ↦ trivial⟩
    obtain ⟨rfl, rfl, rfl, rfl⟩ := Action.commit.inj ha
    obtain rfl := Option.some.inj hfetch
    obtain ⟨rfl, -⟩ := Thread.fetching.inj hthread
    refine ⟨fun newDev hnewDev _ _ _ ↦ ?_, fun _ dev _ _ _ _ hroot ↦ ?_⟩
    · obtain rfl := Option.some.inj hnewDev
      rfl
    · exact absurd (ControlPoint.getRootDeviceByUdn_mem hroot).1 List.not_mem_nil

/-- A search response for an embedded device that names the cached location refreshes the root
device with its packet. A removal through that packet takes out the embedded device only. -/
theorem not_removal_takes_out_the_root :
    ¬ ∀ (deviceListener : Bool) (actions : List Action) (s : System),
      (∀ a ∈ actions, a.announcement.isSome = true ∨ a.isCommit = true) →
      discovery.run (init deviceListener) actions = some s →
      ∀ root ∈ s.ctrlPoint.deviceList,
        (s.ctrlPoint.removeDeviceBySsdpPacket root.ssdpPkt).deviceList =
          s.ctrlPoint.deviceList.filter fun dev ↦ dev.id ≠ root.id := by
  intro hclaim
  have hactions := hclaim true [rootResponse, rootCommit,
    .ssdpResponse (.worker 0) (packetOf "uuid:b::urn:schemas-upnp-org:device:b:1" "http://a/1") 3
      true]
    _ (by decide) rfl _ List.mem_cons_self
  have hlength := congrArg List.length hactions
  exact absurd hlength (by decide)

end System

end Mupnp.Discovery
