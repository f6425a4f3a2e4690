import Mupnp.Discovery.DeviceLedger

/-!
# Root uniqueness

No two root devices of the control point ever have the same non-empty UDN
(`rootUdnsUnique_of_run`), whatever the fetched descriptions declare. The check that counts is the
one at the commit: a candidate is added only when no object of any tree has its UDN, and an update
takes a candidate's description only when its UDN is that of the cached root.
-/

set_option autoImplicit false
set_option relaxedAutoImplicit false

namespace Mupnp.Discovery

open Foundation Util Ssdp

/-- No two root devices have the same non-empty UDN. -/
def RootUdnsUnique (devices : List Device) : Prop :=
  (devices.map Device.udn).Pairwise fun first second ↦
    ∀ udn : CString, udn ≠ [] → first = some udn → second ≠ some udn

theorem RootUdnsUnique.of_sublist {devices devices' : List Device}
    (hunique : RootUdnsUnique devices)
    (hsub : (devices'.map Device.udn).Sublist (devices.map Device.udn)) : RootUdnsUnique devices' :=
  List.Pairwise.sublist hsub hunique

/-- A root device may be added when no root device has its UDN. -/
theorem RootUdnsUnique.append {devices : List Device} (hunique : RootUdnsUnique devices)
    {newDev : Device}
    (hnew : ∀ udn : CString, udn ≠ [] → newDev.udn = some udn → ∀ dev ∈ devices,
      dev.udn ≠ some udn) :
    RootUdnsUnique (devices ++ [newDev]) := by
  rw [RootUdnsUnique, List.map_append, List.map_singleton]
  refine List.pairwise_append.mpr ⟨hunique, List.pairwise_singleton _ _, ?_⟩
  intro first hfirst second hsecond udn hudn hfirstUdn hsecondUdn
  obtain ⟨dev, hdev, rfl⟩ := List.mem_map.mp hfirst
  obtain rfl : second = newDev.udn := by simpa using hsecond
  exact hnew udn hudn hsecondUdn dev hdev hfirstUdn

namespace ControlPoint

/-- Pruning the trees keeps the UDNs of the root devices that stay, in order. -/
theorem deleteDevice_udns_sublist (ctrlPoint : ControlPoint) (id : DeviceId) :
    ((ctrlPoint.deleteDevice id).deviceList.map Device.udn).Sublist
      (ctrlPoint.deviceList.map Device.udn) := by
  have hvalues := RoseTree.map_value_pruneIn (fun object ↦ decide (object.id = id))
    ctrlPoint.deviceList
  have hsub : ((ctrlPoint.deleteDevice id).deviceList.map RoseTree.value).Sublist
      (ctrlPoint.deviceList.map RoseTree.value) := by
    rw [deleteDevice, hvalues]
    exact List.filter_sublist
  have hudns := hsub.map DeviceObject.udn
  rwa [List.map_map, List.map_map] at hudns

/-- A refresh keeps the UDNs of the root devices. -/
theorem reserve_udns (ctrlPoint : ControlPoint) (owner : ThreadId) (ssdpPkt : SsdpPacket) (now : ℤ)
    (memory : Bool) :
    (ctrlPoint.reserve owner ssdpPkt now memory).1.deviceList.map Device.udn =
      ctrlPoint.deviceList.map Device.udn := by
  rcases reserve_cases ctrlPoint owner ssdpPkt now memory with ⟨-, hignored⟩ |
    ⟨udn, location, dev, -, -, -, -, hrefreshed⟩ | ⟨udn, location, -, -, -, hreserved⟩
  · rw [hignored]
  · rw [hrefreshed, updateRoot, List.map_map]
    refine List.map_congr_left fun root _ ↦ ?_
    simp only [Function.comp_apply]
    split_ifs <;> rfl
  · obtain ⟨pendingFetches, henqueue⟩ := enqueue_fst ctrlPoint owner udn location
      (ctrlPoint.getRootDeviceByUdn udn) memory
    rw [hreserved, henqueue]

/-- The commit of a fetch adds a root device only when its UDN is new. -/
theorem rootUdnsUnique_of_commit {ctrlPoint : ControlPoint} {fetch : Fetch} {ssdpPkt : SsdpPacket}
    {reservation : Reservation} {candidate : Option Device} {now : ℤ} {devices : List Device}
    {leftOver : Option Device} (hnodup : (deviceIds ctrlPoint.deviceList).Nodup)
    (hunique : RootUdnsUnique ctrlPoint.deviceList)
    (houtcome : CommitOutcome ctrlPoint fetch ssdpPkt reservation candidate now devices leftOver) :
    RootUdnsUnique devices := by
  cases houtcome with
  | unchanged => exact hunique
  | updated dev newDev hpublish hroot hlocation hcandidate =>
    obtain ⟨before, after, hsplit, -, hupdate⟩ := updateRoot_deviceList hnodup
      (getRootDeviceByUdn_mem hroot).1 fun _ ↦ (updateFromDevice dev newDev ssdpPkt now).2.1
    have hudn := (updateFromDevice_fst_id_udn dev newDev ssdpPkt now).2
    refine hunique.of_sublist ?_
    rw [hupdate, hsplit, List.map_append, List.map_append, List.map_cons, List.map_cons, hudn]
  | added newDev hpublish hroot hcandidate hnew =>
    refine hunique.append fun udn hudn hnewUdn dev hdev ↦ ?_
    rw [hnewUdn] at hnew
    exact udn_ne_of_getDeviceByUdn_eq_none hudn hnew dev (RoseTree.mem_subtreesIn_of_mem hdev)

end ControlPoint

namespace System

/-- Every step keeps the UDNs of the root devices distinct. -/
theorem rootUdnsUnique_of_step {s s' : System} {a : Action} (haccounted : s.Accounted)
    (hunique : RootUdnsUnique s.ctrlPoint.deviceList) (hstep : s.step a = some s') :
    RootUdnsUnique s'.ctrlPoint.deviceList := by
  cases step_effect hstep with
  | quiet hepoch hctrlPoint hledger => rwa [hctrlPoint]
  | announced t ssdpPkt now memory hthread ha hannouncement hs' =>
    refine hunique.of_sublist ?_
    rw [hs', addDeviceBySsdpPacket_ctrlPoint, ControlPoint.reserve_udns]
  | committed t ssdpPkt reservation fetch description fetchTime now hthread hfetch hfresh ha hs' =>
    subst hs'
    exact ControlPoint.rootUdnsUnique_of_commit haccounted.live_nodup hunique
      (ControlPoint.commit_outcome s.ctrlPoint fetch ssdpPkt reservation _ now)
  | invalidated t udn caller hthread ha hctrlPoint hledger =>
    rw [hctrlPoint]
    exact hunique
  | deletedAtOnce t udn caller dev hthread ha hlistener hfound hctrlPoint hledger =>
    rw [hctrlPoint]
    exact hunique.of_sublist (s.ctrlPoint.invalidate.deleteDevice_udns_sublist dev.id)
  | deleted t dev caller hthread ha hctrlPoint hledger =>
    rw [hctrlPoint]
    exact hunique.of_sublist (s.ctrlPoint.deleteDevice_udns_sublist dev)
  | stopped t restart ha hctrlPoint hledger =>
    rw [hctrlPoint]
    exact hunique
  | cleared t ha hctrlPoint hledger =>
    rw [hctrlPoint]
    exact List.Pairwise.nil
  | started t ha hctrlPoint hledger =>
    rw [hctrlPoint]
    exact hunique

/-- In every reachable state the root devices have distinct UDNs: neither the order in which
fetches, removals and stops interleave nor what the descriptions declare can add a root device
twice. -/
theorem rootUdnsUnique_of_run (deviceListener : Bool) (actions : List Action) (s : System)
    (hrun : discovery.run (init deviceListener) actions = some s) :
    RootUdnsUnique s.ctrlPoint.deviceList := by
  have hstep : ∀ s a s', s.Accounted ∧ RootUdnsUnique s.ctrlPoint.deviceList →
      discovery.step s a = some s' → s'.Accounted ∧ RootUdnsUnique s'.ctrlPoint.deviceList :=
    fun s a s' h hs ↦ ⟨accounted_of_step h.1 hs, rootUdnsUnique_of_step h.1 h.2 hs⟩
  have hinit : (init deviceListener).Accounted ∧
      RootUdnsUnique (init deviceListener).ctrlPoint.deviceList :=
    ⟨accounted_init deviceListener, List.Pairwise.nil⟩
  exact (TransitionSystem.invariant_of_run hstep hinit hrun).2

theorem rootUdnsUnique_of_run_discovered :
    ∃ s, discovery.run (init true) [rootResponse, rootCommit] = some s ∧
      s.ctrlPoint.deviceList.map Device.id = [1] ∧ RootUdnsUnique s.ctrlPoint.deviceList :=
  ⟨_, rfl, rfl, rootUdnsUnique_of_run true [rootResponse, rootCommit] _ rfl⟩

end System

end Mupnp.Discovery
