import Mupnp.Discovery.StepEffect

/-!
# The ledger of device objects

`System.Accounted` says that the ledger and the device list agree: the objects in the device list
and in the trees below are pairwise distinct, none of them was deleted, and every object that was
created and is not there any more was deleted once. `accounted_of_step` proves that every step keeps
this, `accounted_of_run` that it holds in every reachable state.

Because identities are distinct, changing the root device with an identity changes one position of
the device list only (`updateRoot_deviceList`).
-/

set_option autoImplicit false
set_option relaxedAutoImplicit false

namespace Mupnp.Discovery

open Foundation Util Ssdp

/-- The ledger agrees with the objects that the control point holds. -/
def System.Accounted (s : System) : Prop :=
  s.ledger.Balanced (deviceIds s.ctrlPoint.deviceList)

/-! ### Identities under changes of the device list -/

theorem deviceIds_map_of_forall {devices : List Device} {f : Device → Device}
    (hf : ∀ dev ∈ devices, deviceIds [f dev] = deviceIds [dev]) :
    deviceIds (devices.map f) = deviceIds devices := by
  induction devices with
  | nil => rfl
  | cons dev rest ih =>
    have hrest := ih fun other hother ↦ hf other (List.mem_cons_of_mem _ hother)
    calc deviceIds ((dev :: rest).map f) = deviceIds [f dev] ++ deviceIds (rest.map f) :=
          deviceIds_append [f dev] (rest.map f)
      _ = deviceIds [dev] ++ deviceIds rest := by rw [hf dev List.mem_cons_self, hrest]
      _ = deviceIds (dev :: rest) := (deviceIds_append [dev] rest).symm

theorem deviceIds_singleton (dev : Device) : deviceIds [dev] = dev.id :: deviceIds dev.devices := by
  rw [deviceIds_cons, deviceIds_nil, List.append_nil]

@[simp] theorem deviceIds_setSsdpPacket (dev : Device) (ssdpPkt : SsdpPacket) (now : ℤ) :
    deviceIds [dev.setSsdpPacket ssdpPkt now] = deviceIds [dev] := by
  rw [deviceIds_singleton, deviceIds_singleton]
  rfl

/-- The objects of a list, those embedded in one of its devices first. -/
theorem deviceIds_middle_perm (before : List Device) (dev : Device) (after : List Device) :
    (deviceIds (before ++ dev :: after)).Perm
      (deviceIds dev.devices ++ dev.id :: deviceIds (before ++ after)) := by
  rw [deviceIds_append, deviceIds_cons, deviceIds_append]
  refine List.perm_middle.trans (List.Perm.trans ?_ List.perm_middle.symm)
  exact List.Perm.cons _ (List.perm_append_comm_assoc _ _ _)

/-- Among distinct objects, no root device is embedded in a root device. -/
theorem id_not_mem_embedded {devices : List Device} (hnodup : (deviceIds devices).Nodup)
    {root dev : Device} (hroot : root ∈ devices) (hdev : dev ∈ devices) :
    root.id ∉ deviceIds dev.devices := by
  obtain ⟨before, after, rfl⟩ := List.append_of_mem hdev
  have hdisjoint := (List.nodup_append.mp
    ((deviceIds_middle_perm before dev after).nodup_iff.mp hnodup)).2.2
  have hmem : root.id ∈ dev.id :: deviceIds (before ++ after) := by
    rcases List.mem_append.mp hroot with hbefore | hfrom
    · exact List.mem_cons_of_mem _ (id_mem_deviceIds_of_mem (List.mem_append_left _ hbefore))
    · rcases List.mem_cons.mp hfrom with rfl | hafter
      · exact List.mem_cons_self
      · exact List.mem_cons_of_mem _ (id_mem_deviceIds_of_mem (List.mem_append_right _ hafter))
  exact fun hbelow ↦ hdisjoint root.id hbelow root.id hmem rfl

namespace ControlPoint

/-- Changing the root device with an identity leaves the others alone. -/
theorem map_update_eq_self {devices : List Device} {id : DeviceId} (f : Device → Device)
    (h : ∀ other ∈ devices, other.id ≠ id) :
    (devices.map fun root ↦ if root.id = id then f root else root) = devices := by
  refine (List.map_congr_left fun other hmem ↦ ?_).trans (List.map_id devices)
  rw [if_neg (h other hmem)]
  rfl

/-- Among distinct objects, changing the root device with an identity changes one position. -/
theorem updateRoot_deviceList {ctrlPoint : ControlPoint} {dev : Device}
    (hnodup : (deviceIds ctrlPoint.deviceList).Nodup) (hmem : dev ∈ ctrlPoint.deviceList)
    (f : Device → Device) :
    ∃ before after, ctrlPoint.deviceList = before ++ dev :: after ∧
      (∀ other ∈ before ++ after, other.id ≠ dev.id) ∧
      (ctrlPoint.updateRoot dev.id f).deviceList = before ++ f dev :: after := by
  obtain ⟨before, after, hsplit⟩ := List.append_of_mem hmem
  have hfresh : dev.id ∉ deviceIds (before ++ after) := by
    rw [hsplit] at hnodup
    have htail := (List.nodup_append.mp
      ((deviceIds_middle_perm before dev after).nodup_iff.mp hnodup)).2.1
    exact (List.nodup_cons.mp htail).1
  have hother : ∀ other ∈ before ++ after, other.id ≠ dev.id := by
    intro other hother heq
    exact hfresh (heq ▸ id_mem_deviceIds_of_mem hother)
  refine ⟨before, after, hsplit, hother, ?_⟩
  simp only [updateRoot, hsplit, List.map_append, List.map_cons, if_true]
  rw [map_update_eq_self f fun other h ↦ hother other (List.mem_append_left _ h),
    map_update_eq_self f fun other h ↦ hother other (List.mem_append_right _ h)]

/-- Replacing a root device exchanges its objects. -/
theorem updateRoot_deviceIds_perm {ctrlPoint : ControlPoint} {dev : Device}
    (hnodup : (deviceIds ctrlPoint.deviceList).Nodup) (hmem : dev ∈ ctrlPoint.deviceList)
    (f : Device → Device) :
    (deviceIds [dev] ++ deviceIds (ctrlPoint.updateRoot dev.id f).deviceList).Perm
      (deviceIds [f dev] ++ deviceIds ctrlPoint.deviceList) := by
  obtain ⟨before, after, hsplit, -, hupdate⟩ := updateRoot_deviceList hnodup hmem f
  have hmiddle : ∀ top : Device, (deviceIds (before ++ top :: after)).Perm
      (deviceIds [top] ++ (deviceIds before ++ deviceIds after)) := by
    intro top
    have htop : top :: after = [top] ++ after := rfl
    rw [htop, deviceIds_append, deviceIds_append]
    exact List.perm_append_comm_assoc _ _ _
  rw [hupdate, hsplit]
  calc (deviceIds [dev] ++ deviceIds (before ++ f dev :: after)).Perm
        (deviceIds [dev] ++ (deviceIds [f dev] ++ (deviceIds before ++ deviceIds after))) :=
        (hmiddle (f dev)).append_left _
    _ |>.Perm (deviceIds [f dev] ++ (deviceIds [dev] ++ (deviceIds before ++ deviceIds after))) :=
        List.perm_append_comm_assoc _ _ _
    _ |>.Perm (deviceIds [f dev] ++ deviceIds (before ++ dev :: after)) :=
        (hmiddle dev).symm.append_left _

/-- The first section of a fetch keeps every object where it is. -/
theorem reserve_deviceIds (ctrlPoint : ControlPoint) (owner : ThreadId) (ssdpPkt : SsdpPacket)
    (now : ℤ) (memory : Bool) :
    deviceIds (ctrlPoint.reserve owner ssdpPkt now memory).1.deviceList =
      deviceIds ctrlPoint.deviceList := by
  rcases reserve_cases ctrlPoint owner ssdpPkt now memory with ⟨-, hignored⟩ |
    ⟨udn, location, dev, -, -, -, -, hrefreshed⟩ | ⟨udn, location, -, -, -, hreserved⟩
  · rw [hignored]
  · rw [hrefreshed]
    refine deviceIds_map_of_forall fun root _ ↦ ?_
    split_ifs
    · exact deviceIds_setSsdpPacket root ssdpPkt now
    · rfl
  · obtain ⟨pendingFetches, henqueue⟩ := enqueue_fst ctrlPoint owner udn location
      (ctrlPoint.getRootDeviceByUdn udn) memory
    rw [hreserved, henqueue]

/-- Deleting an object takes it out together with the objects embedded in it. -/
theorem deleteDevice_deviceIds_perm (ctrlPoint : ControlPoint) (id : DeviceId) :
    (ctrlPoint.deletedIds id ++ deviceIds (ctrlPoint.deleteDevice id).deviceList).Perm
      (deviceIds ctrlPoint.deviceList) := by
  have hperm := RoseTree.cutIn_append_pruneIn_perm (fun object ↦ decide (object.id = id))
    ctrlPoint.deviceList
  have hids := hperm.map DeviceObject.id
  rwa [List.map_append] at hids

/-- The second section of a fetch keeps each object of the device list and of the candidate either
in the device list or in what is left over. -/
theorem commit_deviceIds_perm {ctrlPoint : ControlPoint} {fetch : Fetch} {ssdpPkt : SsdpPacket}
    {reservation : Reservation} {candidate : Option Device} {now : ℤ} {devices : List Device}
    {leftOver : Option Device} (hnodup : (deviceIds ctrlPoint.deviceList).Nodup)
    (houtcome : CommitOutcome ctrlPoint fetch ssdpPkt reservation candidate now devices leftOver) :
    (deviceIds leftOver.toList ++ deviceIds devices).Perm
      (deviceIds candidate.toList ++ deviceIds ctrlPoint.deviceList) := by
  cases houtcome with
  | unchanged => exact List.Perm.refl _
  | updated dev newDev hpublish hroot hlocation hcandidate =>
    subst hcandidate
    have hmem := (getRootDeviceByUdn_mem hroot).1
    have hexchange := updateRoot_deviceIds_perm hnodup hmem fun _ ↦
      (updateFromDevice dev newDev ssdpPkt now).2.1
    have hobjects := updateFromDevice_ids_perm dev newDev ssdpPkt now
    simp only [Option.toList_some]
    refine (List.perm_append_left_iff (deviceIds [dev])).mp ?_
    calc (deviceIds [dev] ++ (deviceIds [(updateFromDevice dev newDev ssdpPkt now).2.2] ++
          deviceIds (ctrlPoint.updateRoot dev.id fun _ ↦
            (updateFromDevice dev newDev ssdpPkt now).2.1).deviceList)).Perm
          (deviceIds [(updateFromDevice dev newDev ssdpPkt now).2.2] ++ (deviceIds [dev] ++
            deviceIds (ctrlPoint.updateRoot dev.id fun _ ↦
              (updateFromDevice dev newDev ssdpPkt now).2.1).deviceList)) :=
          List.perm_append_comm_assoc _ _ _
      _ |>.Perm (deviceIds [(updateFromDevice dev newDev ssdpPkt now).2.2] ++
            (deviceIds [(updateFromDevice dev newDev ssdpPkt now).2.1] ++
              deviceIds ctrlPoint.deviceList)) := hexchange.append_left _
      _ |>.Perm ((deviceIds [(updateFromDevice dev newDev ssdpPkt now).2.1] ++
            deviceIds [(updateFromDevice dev newDev ssdpPkt now).2.2]) ++
              deviceIds ctrlPoint.deviceList) := by
          rw [← List.append_assoc]
          exact List.perm_append_comm.append_right _
      _ |>.Perm ((deviceIds [dev] ++ deviceIds [newDev]) ++ deviceIds ctrlPoint.deviceList) :=
          hobjects.append_right _
      _ |>.Perm (deviceIds [dev] ++ (deviceIds [newDev] ++ deviceIds ctrlPoint.deviceList)) := by
          rw [List.append_assoc]
  | added newDev hpublish hroot hcandidate hnew =>
    subst hcandidate
    rw [deviceIds_append]
    show (deviceIds ctrlPoint.deviceList ++ deviceIds [newDev]).Perm _
    exact List.perm_append_comm

end ControlPoint

namespace System

/-- A candidate has the objects of the description it comes from. -/
theorem deviceIds_createCandidate {ssdpPkt : SsdpPacket} {udn : CString}
    {description : Option Device} {fetchTime : ℤ} {candidate : Device}
    (h : ControlPoint.createCandidate ssdpPkt udn description fetchTime = some candidate) :
    deviceIds description.toList = deviceIds [candidate] := by
  obtain ⟨fetched, rfl, rfl, -⟩ := ControlPoint.createCandidate_eq_some h
  exact (deviceIds_setSsdpPacket fetched ssdpPkt fetchTime).symm

/-- Committing a fetch keeps the ledger balanced: the downloaded objects are allocated, and what is
not in the device list afterwards is released. -/
theorem accounted_commitFetch {s : System} (haccounted : s.Accounted) (t : ThreadId)
    (ssdpPkt : SsdpPacket) (reservation : ControlPoint.Reservation) (fetch : Fetch)
    {description : Option Device} (hfresh : s.ledger.Fresh (deviceIds description.toList))
    (fetchTime now : ℤ) :
    (s.commitFetch t ssdpPkt reservation fetch description fetchTime now).Accounted := by
  have halloc := Ledger.Balanced.alloc haccounted hfresh
  have houtcome := ControlPoint.commit_outcome s.ctrlPoint fetch ssdpPkt reservation
    (ControlPoint.createCandidate ssdpPkt fetch.udn description fetchTime) now
  have hperm := ControlPoint.commit_deviceIds_perm haccounted.live_nodup houtcome
  simp only [Accounted, commitFetch, update]
  refine Ledger.Balanced.free (halloc.of_perm ?_)
  cases hcandidate : ControlPoint.createCandidate ssdpPkt fetch.udn description fetchTime with
  | none =>
    rw [hcandidate] at houtcome
    have hlist : (s.ctrlPoint.commit fetch ssdpPkt reservation none now).1.deviceList =
        s.ctrlPoint.deviceList := by
      generalize (s.ctrlPoint.commit fetch ssdpPkt reservation none now).2 = leftOver at houtcome
      generalize (s.ctrlPoint.commit fetch ssdpPkt reservation none now).1.deviceList = devices
        at houtcome ⊢
      cases houtcome with
      | unchanged => rfl
      | updated dev newDev hpublish hroot hlocation hnone => cases hnone
      | added newDev hpublish hroot hnone hnew => cases hnone
    simp only [Option.isNone_none, if_true]
    rw [hlist]
  | some candidate =>
    rw [hcandidate] at hperm
    simp only [Option.isNone_some, Bool.false_eq_true, if_false]
    rw [deviceIds_createCandidate hcandidate]
    exact hperm

/-- Every step keeps the ledger balanced. -/
theorem accounted_of_step {s s' : System} {a : Action} (haccounted : s.Accounted)
    (hstep : s.step a = some s') : s'.Accounted := by
  cases step_effect hstep with
  | quiet hepoch hctrlPoint hledger =>
    simpa only [Accounted, hctrlPoint, hledger] using haccounted
  | announced t ssdpPkt now memory hthread ha hannouncement hs' =>
    rw [Accounted, hs', addDeviceBySsdpPacket_ctrlPoint, addDeviceBySsdpPacket_ledger,
      ControlPoint.reserve_deviceIds]
    exact haccounted
  | committed t ssdpPkt reservation fetch description fetchTime now hthread hfetch hfresh ha hs' =>
    subst hs'
    exact accounted_commitFetch haccounted t ssdpPkt reservation fetch hfresh fetchTime now
  | invalidated t udn caller hthread ha hctrlPoint hledger =>
    rw [Accounted, hctrlPoint, hledger]
    exact haccounted
  | deletedAtOnce t udn caller dev hthread ha hlistener hfound hctrlPoint hledger =>
    simp only [Accounted, hctrlPoint, hledger]
    exact Ledger.Balanced.free
      (haccounted.of_perm (s.ctrlPoint.deleteDevice_deviceIds_perm dev.id))
  | deleted t dev caller hthread ha hctrlPoint hledger =>
    simp only [Accounted, hctrlPoint, hledger]
    exact Ledger.Balanced.free
      (haccounted.of_perm (s.ctrlPoint.deleteDevice_deviceIds_perm dev))
  | stopped t restart ha hctrlPoint hledger =>
    rw [Accounted, hctrlPoint, hledger]
    exact haccounted
  | cleared t ha hctrlPoint hledger =>
    simp only [Accounted, hctrlPoint, hledger]
    refine Ledger.Balanced.free (haccounted.of_perm ?_)
    rw [ControlPoint.clearDevices, deviceIds_nil, List.append_nil]
  | started t ha hctrlPoint hledger =>
    rw [Accounted, hctrlPoint, hledger]
    exact haccounted

/-- The ledger is balanced at the end of every run that starts with a balanced one. -/
theorem accounted_of_run {s s' : System} {actions : List Action} (haccounted : s.Accounted)
    (hrun : discovery.run s actions = some s') : s'.Accounted :=
  TransitionSystem.invariant_of_run (I := Accounted) (fun _ _ _ h hstep ↦ accounted_of_step h hstep)
    haccounted hrun

theorem accounted_init (deviceListener : Bool) : (init deviceListener).Accounted :=
  Ledger.balanced_empty

end System

end Mupnp.Discovery
