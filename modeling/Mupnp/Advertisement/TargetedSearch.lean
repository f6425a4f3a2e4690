import Mupnp.Advertisement.Agreement

/-!
# Searches for one target

Which pairs answer a search for one target, beside the advertised pairs of that target. The kind of
a target is found by looking for a marker anywhere in it, so a target that has the marker of
another kind is answered wrongly: `targetedSearch_iff` is the exact condition.
-/

set_option autoImplicit false
set_option relaxedAutoImplicit false

namespace Mupnp.Advertisement

open Foundation Util Ssdp

/-! ### Kinds of targets -/

theorem mentions_some_iff {st : CString} {text : String} :
    SsdpPacket.mentions (some st) text = true ↔ text.toList <:+: st := by
  unfold SsdpPacket.mentions
  rw [decide_eq_true_eq, strstr_nonneg_iff]

/-- The texts of a device begin with the marker of their kind, and the types fit the line buffers.
-/
structure DeviceEntry.IsWellFormed (dev : DeviceEntry) : Prop where
  udn : "uuid:".toList <+: dev.udn
  deviceType : "urn:".toList <+: dev.deviceType
  serviceType : ∀ serviceType ∈ dev.serviceTypes, "urn:".toList <+: serviceType
  device_fits : dev.deviceType.length < ssdpHeaderLineMaxSize
  service_fits : ∀ serviceType ∈ dev.serviceTypes, serviceType.length < ssdpHeaderLineMaxSize

/-- A search for the target is answered as it should: the target does not look like a search for
everything, looks like a root device only when it is one, and is no device type that looks like a
UDN. -/
def IsAnswered (st : CString) (root : DeviceTree) : Prop :=
  stIsAllDevice (some st) = false ∧ (stIsRootDevice (some st) = true → st = upnpRootDevice) ∧
    (stIsUuidDevice (some st) = true → ∀ dev ∈ root.preorder, dev.deviceType ≠ st)

theorem lineBuffer_eq_self {text : CString} (h : text.length < ssdpHeaderLineMaxSize) :
    lineBuffer text = text :=
  List.take_of_length_le (by omega)

theorem stIsUrn_of_prefix {text : CString} (h : "urn:".toList <+: text) :
    stIsUrn (some text) = true :=
  mentions_some_iff.mpr ((List.IsPrefix.isInfix (by decide)).trans h.isInfix)

theorem stIsUuidDevice_of_prefix {text : CString} (h : "uuid:".toList <+: text) :
    stIsUuidDevice (some text) = true :=
  mentions_some_iff.mpr ((List.IsPrefix.isInfix (by decide)).trans h.isInfix)

theorem ne_of_prefix {text : CString} (h : "uuid:".toList <+: text ∨ "urn:".toList <+: text) :
    text ≠ upnpRootDevice := by
  rintro rfl
  rcases h with h | h
  · exact absurd h (by decide)
  · exact absurd h (by decide)

theorem udn_ne_type {udn type : CString} (hudn : "uuid:".toList <+: udn)
    (htype : "urn:".toList <+: type) : udn ≠ type := by
  rintro rfl
  obtain ⟨rest, rfl⟩ := hudn
  obtain ⟨rest', heq⟩ := htype
  exact absurd (List.cons.inj (List.cons.inj heq).2).1 (by decide)

/-! ### One device -/

/-- The advertised pair of a device that a search for its type misses. -/
def missedPair (st : CString) (dev : DeviceEntry) : List SsdpPair :=
  if stIsUuidDevice (some st) = true ∧ dev.deviceType = st then
    [(dev.deviceType, dev.getNotifyDeviceTypeUsn)]
  else []

section device

variable {dev : DeviceEntry} (h : dev.IsWellFormed)
include h

/-- A device has nothing but its own texts in the notification types. -/
theorem DeviceEntry.IsWellFormed.notify :
    dev.getNotifyDeviceTypeNt = dev.deviceType ∧
      ∀ serviceType ∈ dev.serviceTypes,
        DeviceEntry.getNotifyServiceTypeNt serviceType = serviceType :=
  ⟨lineBuffer_eq_self h.device_fits,
    fun serviceType hmem ↦ lineBuffer_eq_self (h.service_fits serviceType hmem)⟩

variable {st : CString} (hall : stIsAllDevice (some st) = false)
  (hroot : stIsRootDevice (some st) = true → st = upnpRootDevice)
include hall

/-- The services of a device answer with what is advertised for them. -/
theorem serviceAnswers_eq :
    (dev.serviceTypes.flatMap fun serviceType ↦
        if stIsAllDevice (some st) = true then
          [(DeviceEntry.getNotifyServiceTypeNt serviceType,
            dev.getNotifyServiceTypeUsn serviceType)]
        else if stIsUrn (some st) = true then
          if st = serviceType then [(serviceType, dev.getNotifyServiceTypeUsn serviceType)] else []
        else []) =
      (dev.serviceTypes.map fun serviceType ↦ (DeviceEntry.getNotifyServiceTypeNt serviceType,
        dev.getNotifyServiceTypeUsn serviceType)).filter (·.1 = st) := by
  obtain ⟨-, hnotify⟩ := h.notify
  have hurn := h.serviceType
  revert hnotify hurn
  generalize dev.serviceTypes = serviceTypes
  intro hnotify hurn
  induction serviceTypes with
  | nil => rfl
  | cons serviceType rest ih =>
    have hself := hnotify serviceType List.mem_cons_self
    have hmarker := stIsUrn_of_prefix (hurn serviceType List.mem_cons_self)
    rw [List.flatMap_cons, List.map_cons,
      ih (fun other hother ↦ hnotify other (List.mem_cons_of_mem _ hother))
        fun other hother ↦ hurn other (List.mem_cons_of_mem _ hother), hall, hself]
    by_cases heq : serviceType = st
    · subst heq
      rw [List.filter_cons_of_pos (by simp)]
      simp [hmarker]
    · rw [List.filter_cons_of_neg (by simpa using heq)]
      simp [Ne.symm heq]

include hroot

/-- What a device advertises of a target is what it answers and what it misses. -/
theorem filter_ownAdvertisements (isRootDevice : Bool) :
    (ownAdvertisements isRootDevice dev).filter (·.1 = st) =
      missedPair st dev ++ ownAnswers st isRootDevice dev := by
  obtain ⟨htype, -⟩ := h.notify
  have hservices := serviceAnswers_eq h hall
  have hnt : dev.getNotifyDeviceNt true = upnpRootDevice := by
    show lineBuffer upnpRootDevice = upnpRootDevice
    decide
  have hudnUuid := stIsUuidDevice_of_prefix h.udn
  have htypeUrn := stIsUrn_of_prefix h.deviceType
  have hudnRoot := ne_of_prefix (Or.inl h.udn)
  have htypeRoot := ne_of_prefix (Or.inr h.deviceType)
  unfold ownAdvertisements ownAnswers missedPair
  rw [hservices, List.filter_append, List.filter_append, htype]
  cases hkind : stIsRootDevice (some st) with
  | true =>
    obtain rfl := hroot hkind
    have huuid : stIsUuidDevice (some upnpRootDevice) = false := by decide
    cases isRootDevice with
    | true => simp [hnt, huuid, hudnRoot, htypeRoot, hall]
    | false => simp [huuid, hudnRoot, htypeRoot, hall]
  | false =>
    have hne : upnpRootDevice ≠ st := by
      rintro rfl
      exact absurd hkind (by decide)
    have hrootPart : (if isRootDevice = true then
          [(dev.getNotifyDeviceNt isRootDevice, dev.getNotifyDeviceUsn isRootDevice)]
        else []).filter (·.1 = st) = [] := by
      cases isRootDevice with
      | true => simp [hnt, hne]
      | false => rfl
    rw [hrootPart, hall]
    cases huuid : stIsUuidDevice (some st) with
    | true =>
      by_cases htypeSt : dev.deviceType = st
      · have hudnSt : dev.udn ≠ st := by
          rw [← htypeSt]
          exact udn_ne_type h.udn h.deviceType
        simp [htypeSt, hudnSt, Ne.symm hudnSt]
      · by_cases hudnSt : dev.udn = st
        · simp [htypeSt, hudnSt]
        · simp [htypeSt, hudnSt, Ne.symm hudnSt]
    | false =>
      have hudnSt : dev.udn ≠ st := by
        rintro rfl
        rw [hudnUuid] at huuid
        cases huuid
      by_cases htypeSt : dev.deviceType = st
      · rw [htypeSt] at htypeUrn
        simp [htypeSt, hudnSt, htypeUrn]
      · simp [htypeSt, hudnSt, Ne.symm htypeSt]

end device

/-! ### The tree -/

section tree

variable {root : DeviceTree} (h : ∀ dev ∈ root.preorder, dev.IsWellFormed) {st : CString}
include h

/-- What a tree advertises of a target is what it answers and what it misses. -/
theorem filter_advertisements_perm (hall : stIsAllDevice (some st) = false)
    (hroot : stIsRootDevice (some st) = true → st = upnpRootDevice) :
    ((advertisements root).filter (·.1 = st)).Perm
      (root.preorder.flatMap (missedPair st) ++ answers st root) := by
  have hsplit : ∀ devices : List DeviceEntry, (∀ dev ∈ devices, dev.IsWellFormed) →
      ((devices.flatMap (ownAdvertisements false)).filter (·.1 = st)).Perm
        (devices.flatMap (missedPair st) ++ devices.flatMap (ownAnswers st false)) := by
    intro devices hdevices
    induction devices with
    | nil => exact List.Perm.refl _
    | cons dev rest ih =>
      have hrest := ih fun other hother ↦ hdevices other (List.mem_cons_of_mem _ hother)
      rw [List.flatMap_cons, List.filter_append,
        filter_ownAdvertisements (hdevices dev List.mem_cons_self) hall hroot false,
        List.flatMap_cons, List.flatMap_cons, List.append_assoc, List.append_assoc]
      refine List.Perm.append_left _ ((hrest.append_left _).trans ?_)
      rw [← List.append_assoc, ← List.append_assoc]
      exact List.perm_append_comm.append_right _
  rw [RoseTree.preorder_eq] at h ⊢
  unfold advertisements answers
  rw [List.filter_append, filter_ownAdvertisements (h _ List.mem_cons_self) hall hroot true,
    List.flatMap_cons, List.append_assoc, List.append_assoc]
  refine List.Perm.append_left _ (((hsplit _ fun dev hdev ↦
    h dev (List.mem_cons_of_mem _ hdev)).append_left _).trans ?_)
  rw [← List.append_assoc, ← List.append_assoc]
  exact List.perm_append_comm.append_right _

omit h in
theorem missed_eq_nil_iff (devices : List DeviceEntry) :
    devices.flatMap (missedPair st) = [] ↔
      (stIsUuidDevice (some st) = true → ∀ dev ∈ devices, dev.deviceType ≠ st) := by
  rw [List.flatMap_eq_nil_iff]
  unfold missedPair
  constructor
  · intro hnil huuid dev hdev htype
    have hpair := hnil dev hdev
    rw [if_pos ⟨huuid, htype⟩] at hpair
    cases hpair
  · intro hnone dev hdev
    exact if_neg fun hboth ↦ hnone hboth.1 dev hdev hboth.2

/-- The answers are the advertised pairs of the target exactly when it is answered. -/
theorem answers_perm_iff :
    (answers st root).Perm ((advertisements root).filter (·.1 = st)) ↔ IsAnswered st root := by
  have hrootWf := h root.value (by rw [RoseTree.preorder_eq]; exact List.mem_cons_self)
  have hnt : root.value.getNotifyDeviceNt true = upnpRootDevice := by
    show lineBuffer upnpRootDevice = upnpRootDevice
    decide
  unfold IsAnswered
  cases hall : stIsAllDevice (some st) with
  | true =>
    refine iff_of_false (fun hperm ↦ ?_) fun hanswered ↦ by cases hanswered.1
    have hmem : (upnpRootDevice, root.value.getNotifyDeviceUsn true) ∈ answers st root := by
      rw [answers_of_isAllDevice hall]
      refine List.mem_append_left _ (List.mem_append_left _ (List.mem_append_left _ ?_))
      rw [← hnt]
      exact List.mem_cons_self
    have hst := (List.mem_filter.mp (hperm.mem_iff.mp hmem)).2
    obtain rfl : upnpRootDevice = st := by simpa using hst
    exact absurd hall (by decide)
  | false =>
    by_cases hroot : stIsRootDevice (some st) = true → st = upnpRootDevice
    · have hsplit := filter_advertisements_perm h hall hroot
      have hiff : (answers st root).Perm ((advertisements root).filter (·.1 = st)) ↔
          root.preorder.flatMap (missedPair st) = [] := by
        constructor
        · intro hperm
          have hlength := (hperm.trans hsplit).length_eq
          rw [List.length_append] at hlength
          exact List.length_eq_zero_iff.mp (by omega)
        · intro hnil
          rw [hnil, List.nil_append] at hsplit
          exact hsplit.symm
      rw [hiff, missed_eq_nil_iff]
      exact ⟨fun hnone ↦ ⟨rfl, hroot, hnone⟩, fun hanswered ↦ hanswered.2.2⟩
    · refine iff_of_false (fun hperm ↦ ?_) fun hanswered ↦ hroot hanswered.2.1
      obtain ⟨hkind, hne⟩ := Classical.not_imp.mp hroot
      have hmem : (upnpRootDevice, root.value.getNotifyDeviceUsn true) ∈ answers st root := by
        refine List.mem_append_left _ (List.mem_append_left _ ?_)
        rw [hall, hkind]
        exact List.mem_cons_self
      have hst := (List.mem_filter.mp (hperm.mem_iff.mp hmem)).2
      exact hne (by simpa [eq_comm] using hst)

/-- A search for one target is answered with what is announced of the target, on one interface,
exactly when the target is answered. -/
theorem targetedSearch_iff {ssdpCount : ℕ} (hcount : 0 < ssdpCount) {ssdpPkt : SearchRequest}
    {isDuplicate : Bool} (haccepted : ssdpPkt.isAccepted isDuplicate = true)
    (hst : ssdpPkt.getSt = some st) :
    (searchResponses root ssdpCount ssdpPkt isDuplicate).Perm
        ((announce root ssdpCount).filter (·.1 = st)) ↔ IsAnswered st root := by
  rw [searchResponses_eq root ssdpCount haccepted hst, ← answers_perm_iff h]
  unfold announce
  rw [announceFrom_eq, List.filter_flatten, List.map_replicate]
  exact flatMap_replicate_perm_iff hcount

end tree

theorem isWellFormed_sampleRoot : ∀ dev ∈ sampleRoot.preorder, dev.IsWellFormed := by
  have hentries : sampleRoot.preorder =
      [⟨"uuid:a".toList, "urn:d".toList, ["urn:s".toList]⟩,
        ⟨"uuid:b".toList, "urn:e".toList, ["urn:s".toList]⟩] := rfl
  intro dev hdev
  rw [hentries] at hdev
  rcases List.mem_cons.mp hdev with rfl | hdev
  · exact ⟨by decide, by decide, by decide, by decide, by decide⟩
  · obtain rfl := List.mem_singleton.mp hdev
    exact ⟨by decide, by decide, by decide, by decide, by decide⟩

theorem targetedSearch_sample :
    (searchResponses sampleRoot 3 (sampleSearch "urn:s".toList) false).Perm
      ((announce sampleRoot 3).filter (·.1 = "urn:s".toList)) := by
  refine (targetedSearch_iff isWellFormed_sampleRoot (by decide) (by decide +kernel)
    (by decide +kernel)).mpr ⟨by decide, ?_, ?_⟩
  · intro hkind
    exact absurd hkind (by decide)
  · intro hkind
    exact absurd hkind (by decide)

/-- A target that has the marker of the root device in it. -/
theorem not_targetedSearch :
    ¬ ∀ (root : DeviceTree) (ssdpCount : ℕ) (ssdpPkt : SearchRequest) (isDuplicate : Bool)
      (st : CString), (∀ dev ∈ root.preorder, dev.IsWellFormed) → 0 < ssdpCount →
        ssdpPkt.isAccepted isDuplicate = true → ssdpPkt.getSt = some st →
        st ≠ "ssdp:all".toList →
        (searchResponses root ssdpCount ssdpPkt isDuplicate).Perm
          ((announce root ssdpCount).filter (·.1 = st)) := by
  intro h
  have hperm := h sampleRoot 1 (sampleSearch "upnp:rootdevice:1".toList) false
    "upnp:rootdevice:1".toList isWellFormed_sampleRoot (by decide) (by decide +kernel)
    (by decide +kernel) (by decide)
  have hlength := hperm.length_eq
  exact absurd hlength (by decide +kernel)

end Mupnp.Advertisement
