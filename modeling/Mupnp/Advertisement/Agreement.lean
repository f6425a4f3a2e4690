import Mupnp.Advertisement.DeviceSsdp

/-!
# What a device advertises

The pairs that a device tree stands for: one for the root device, two for each device and one for
each of its services (`advertisements`). Announcing the tree and taking it back send each of them,
and a search for everything is answered with each of them, as often as messages are repeated
(`announcement_agreement`). That is so for devices with all their texts; what becomes of others is in
`Described`.
-/

set_option autoImplicit false
set_option relaxedAutoImplicit false

namespace Mupnp.Advertisement

open Foundation Util Ssdp

/-- What a device advertises for itself and for its services. -/
def ownAdvertisements (isRootDevice : Bool) (dev : DeviceEntry) : List SsdpPair :=
  (if isRootDevice = true then
      [(dev.getNotifyDeviceNt isRootDevice, dev.getNotifyDeviceUsn isRootDevice)]
    else []) ++
    [(dev.getNotifyDeviceTypeNt, dev.getNotifyDeviceTypeUsn), (dev.udn, dev.udn)] ++
    dev.serviceTypes.map fun serviceType ↦
      (DeviceEntry.getNotifyServiceTypeNt serviceType, dev.getNotifyServiceTypeUsn serviceType)

/-- What a tree advertises, its root first. -/
def advertisements (root : DeviceTree) : List SsdpPair :=
  ownAdvertisements true root.value ++
    (RoseTree.preorderIn root.children).flatMap (ownAdvertisements false)

theorem announceFrom_eq (root : DeviceTree) : announceFrom true root = advertisements root := by
  obtain ⟨dev, devices⟩ := root
  have hwalk : announceFromIn devices =
      (RoseTree.preorderIn devices).flatMap (ownAdvertisements false) :=
    @RoseTree.walkIn_eq_flatMap DeviceEntry SsdpPair (ownAdvertisements false) (announceFrom false)
      announceFromIn (fun _ _ ↦ rfl) rfl (fun _ _ ↦ rfl) devices
  rw [announceFrom, hwalk]
  rfl

theorem byebyeFrom_eq (root : DeviceTree) : byebyeFrom true root = advertisements root := by
  obtain ⟨dev, devices⟩ := root
  have hwalk : byebyeFromIn devices =
      (RoseTree.preorderIn devices).flatMap (ownAdvertisements false) :=
    @RoseTree.walkIn_eq_flatMap DeviceEntry SsdpPair (ownAdvertisements false) (byebyeFrom false)
      byebyeFromIn (fun _ _ ↦ rfl) rfl (fun _ _ ↦ rfl) devices
  rw [byebyeFrom, hwalk]
  rfl

/-! ### Repetitions -/

section repetition

variable {α : Type*} [DecidableEq α]

theorem count_flatMap_replicate (a : α) (count : ℕ) (list : List α) :
    (list.flatMap (List.replicate count)).count a = count * list.count a := by
  induction list with
  | nil => simp
  | cons b list ih =>
    rw [List.flatMap_cons, List.count_append, ih, List.count_replicate, List.count_cons]
    split_ifs
    · rw [Nat.mul_add, Nat.mul_one, Nat.add_comm]
    · rw [Nat.zero_add, Nat.add_zero]

theorem count_flatten_replicate (a : α) (count : ℕ) (list : List α) :
    (List.replicate count list).flatten.count a = count * list.count a := by
  rw [List.count_flatten, List.map_replicate, List.sum_replicate_nat]

/-- Each element repeated is the whole list repeated when the elements are the same. -/
theorem flatMap_replicate_perm_iff {count : ℕ} (hcount : 0 < count) {list list' : List α} :
    (list.flatMap (List.replicate count)).Perm (List.replicate count list').flatten ↔
      list.Perm list' := by
  simp only [List.perm_iff_count, count_flatMap_replicate, count_flatten_replicate]
  exact forall_congr' fun a ↦ Nat.mul_left_cancel_iff hcount

theorem flatMap_replicate_perm (count : ℕ) {list list' : List α} (h : list.Perm list') :
    (list.flatMap (List.replicate count)).Perm (List.replicate count list').flatten := by
  rw [List.perm_iff_count] at h ⊢
  intro a
  rw [count_flatMap_replicate, count_flatten_replicate, h a]

end repetition

/-! ### Answers to a search -/

/-- The answers of a device and of its services, before they are repeated. -/
def ownAnswers (st : CString) (isRootDevice : Bool) (dev : DeviceEntry) : List SsdpPair :=
  (if stIsAllDevice (some st) = true then
      (if isRootDevice = true then
          [(dev.getNotifyDeviceNt isRootDevice, dev.getNotifyDeviceUsn isRootDevice)]
        else []) ++
        [(dev.getNotifyDeviceTypeNt, dev.getNotifyDeviceTypeUsn), (dev.udn, dev.udn)]
    else if stIsRootDevice (some st) = true then
      if isRootDevice = true then [(upnpRootDevice, dev.getNotifyDeviceUsn isRootDevice)] else []
    else if stIsUuidDevice (some st) = true then
      if st = dev.udn then [(dev.udn, dev.udn)] else []
    else if stIsUrn (some st) = true then
      if st = dev.deviceType then [(dev.deviceType, dev.getNotifyDeviceTypeUsn)] else []
    else []) ++
    dev.serviceTypes.flatMap fun serviceType ↦
      if stIsAllDevice (some st) = true then
        [(DeviceEntry.getNotifyServiceTypeNt serviceType, dev.getNotifyServiceTypeUsn serviceType)]
      else if stIsUrn (some st) = true then
        if st = serviceType then [(serviceType, dev.getNotifyServiceTypeUsn serviceType)] else []
      else []

/-- The answers for a tree, before they are repeated. -/
def answers (st : CString) (root : DeviceTree) : List SsdpPair :=
  ownAnswers st true root.value ++ (RoseTree.preorderIn root.children).flatMap (ownAnswers st false)

section received

variable {ssdpPkt : SearchRequest} {st : CString} (hst : ssdpPkt.getSt = some st) (hne : st ≠ [])
include hst hne

/-- A device and its services answer a search with the repeated answers. -/
theorem deviceResponses_eq (ssdpCount : ℕ) (isRootDevice : Bool) (dev : DeviceEntry) :
    deviceResponses ssdpCount ssdpPkt isRootDevice dev ++
        dev.serviceTypes.flatMap (serviceSsdpMessageReceived ssdpCount ssdpPkt dev) =
      (ownAnswers st isRootDevice dev).flatMap (List.replicate ssdpCount) := by
  have hlength : ¬ strlen (some st) ≤ 0 := not_strlen_some_le_zero hne
  unfold ownAnswers
  rw [List.flatMap_append, List.flatMap_assoc]
  congr 1
  · unfold deviceResponses postSearchResponse
    simp only [hst, streq_some_some]
    split_ifs <;> simp
  · refine List.flatMap_congr fun serviceType _ ↦ ?_
    unfold serviceSsdpMessageReceived postSearchResponse
    simp only [hst, streq_some_some, if_neg hlength]
    split_ifs <;> simp

theorem deviceSsdpMessageReceived_eq (ssdpCount : ℕ) (root : DeviceTree) :
    deviceSsdpMessageReceived ssdpCount ssdpPkt true root =
      (answers st root).flatMap (List.replicate ssdpCount) := by
  obtain ⟨dev, devices⟩ := root
  have hwalk : deviceSsdpMessageReceivedIn ssdpCount ssdpPkt devices =
      (RoseTree.preorderIn devices).flatMap
        fun dev ↦ (ownAnswers st false dev).flatMap (List.replicate ssdpCount) :=
    @RoseTree.walkIn_eq_flatMap DeviceEntry SsdpPair _
      (deviceSsdpMessageReceived ssdpCount ssdpPkt false)
      (deviceSsdpMessageReceivedIn ssdpCount ssdpPkt)
      (fun dev children ↦ by
        rw [deviceSsdpMessageReceived, deviceResponses_eq hst hne])
      rfl (fun _ _ ↦ rfl) devices
  unfold answers
  rw [deviceSsdpMessageReceived, deviceResponses_eq hst hne, hwalk, List.flatMap_append,
    List.flatMap_assoc]
  rfl

end received

/-- A request that is accepted has a search target. -/
theorem SearchRequest.exists_st_of_isAccepted {ssdpPkt : SearchRequest} {isDuplicate : Bool}
    (h : ssdpPkt.isAccepted isDuplicate = true) : ∃ st, ssdpPkt.getSt = some st ∧ st ≠ [] := by
  have hlength : 0 < strlen ssdpPkt.getSt := by
    unfold SearchRequest.isAccepted at h
    simp only [Bool.and_eq_true, decide_eq_true_eq] at h
    exact h.1.1.2
  cases hst : ssdpPkt.getSt with
  | none =>
    rw [hst] at hlength
    exact absurd hlength (by decide)
  | some st =>
    rw [hst] at hlength
    refine ⟨st, rfl, ?_⟩
    rintro rfl
    exact absurd hlength (by decide)

/-- What an accepted request is answered with. -/
theorem searchResponses_eq (root : DeviceTree) (ssdpCount : ℕ) {ssdpPkt : SearchRequest}
    {isDuplicate : Bool} (h : ssdpPkt.isAccepted isDuplicate = true) {st : CString}
    (hst : ssdpPkt.getSt = some st) :
    searchResponses root ssdpCount ssdpPkt isDuplicate =
      (answers st root).flatMap (List.replicate ssdpCount) := by
  obtain ⟨other, hother, hne⟩ := SearchRequest.exists_st_of_isAccepted h
  obtain rfl := Option.some.inj (hst.symm.trans hother)
  unfold searchResponses
  rw [if_pos h, deviceSsdpMessageReceived_eq hst hne]

theorem ownAnswers_of_isAllDevice {st : CString} (h : stIsAllDevice (some st) = true)
    (isRootDevice : Bool) (dev : DeviceEntry) :
    ownAnswers st isRootDevice dev = ownAdvertisements isRootDevice dev := by
  unfold ownAnswers ownAdvertisements
  rw [if_pos h]
  simp only [if_pos h]
  rw [List.map_eq_flatMap]

/-- A search for everything finds what is advertised. -/
theorem answers_of_isAllDevice {st : CString} (h : stIsAllDevice (some st) = true)
    (root : DeviceTree) : answers st root = advertisements root := by
  unfold answers advertisements
  rw [ownAnswers_of_isAllDevice h, funext (ownAnswers_of_isAllDevice h false)]

/-- Announcing a tree once, taking it back once, and an answer to a search for everything send the
same pairs; on an interface each of them is repeated as often as the others. -/
theorem announcement_agreement (root : DeviceTree) (ssdpCount : ℕ) :
    (announceFrom true root).Perm (byebyeFrom true root) ∧
      (announce root ssdpCount).Perm (byebye root ssdpCount) ∧
      ∀ (ssdpPkt : SearchRequest) (isDuplicate : Bool), ssdpPkt.isAccepted isDuplicate = true →
        stIsAllDevice ssdpPkt.getSt = true →
        (searchResponses root ssdpCount ssdpPkt isDuplicate).Perm (announce root ssdpCount) := by
  refine ⟨?_, ?_, fun ssdpPkt isDuplicate haccepted hall ↦ ?_⟩
  · rw [announceFrom_eq, byebyeFrom_eq]
  · unfold announce byebye
    rw [announceFrom_eq, byebyeFrom_eq]
  · obtain ⟨st, hst, -⟩ := SearchRequest.exists_st_of_isAccepted haccepted
    rw [hst] at hall
    rw [searchResponses_eq root ssdpCount haccepted hst, answers_of_isAllDevice hall]
    unfold announce
    rw [announceFrom_eq]
    exact flatMap_replicate_perm ssdpCount (List.Perm.refl _)

/-- A search for a target. -/
def sampleSearch (st : CString) : SearchRequest where
  data := "M-SEARCH * HTTP/1.1".toList
  headers := [⟨some "HOST".toList, some "239.255.255.250:1900".toList⟩,
    ⟨some "MAN".toList, some "\"ssdp:discover\"".toList⟩, ⟨some "MX".toList, some "3".toList⟩,
    ⟨some "ST".toList, some st⟩]

/-- A root device with a service, and an embedded device with a service of the same type. -/
def sampleRoot : DeviceTree :=
  .node ⟨"uuid:a".toList, "urn:d".toList, ["urn:s".toList]⟩
    [.node ⟨"uuid:b".toList, "urn:e".toList, ["urn:s".toList]⟩ []]

end Mupnp.Advertisement
