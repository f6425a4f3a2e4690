import Mupnp.Advertisement.Agreement

/-!
# The identity that a device advertises

What the datagrams of a device tree are meant to say: the UDN of a device, alone or with
`upnp:rootdevice` or a type behind it, beside the identifier itself (`identities`). The source
formats most of these texts into buffers of `MUPNP_SSDP_HEADER_LINE_MAXSIZE` bytes, and the control
point gets the UDN back with `mupnp_usn_getudn`, which looks for the first `::`.

`advertisesIdentity_iff` says for which device trees the datagrams say it in full and the UDN comes
back.
-/

set_option autoImplicit false
set_option relaxedAutoImplicit false

namespace Mupnp.Advertisement

open Foundation Util Ssdp

/-! ### Full identifiers -/

/-- The unique service name for a type: the UDN, `::` and the type. -/
def DeviceEntry.typeUsn (dev : DeviceEntry) (type : CString) : CString :=
  dev.udn ++ ("::".toList ++ type)

/-- The identifiers of a device and of its services in full, each with its unique service name. -/
def identities (isRootDevice : Bool) (dev : DeviceEntry) : List SsdpPair :=
  (if isRootDevice = true then [(upnpRootDevice, dev.typeUsn upnpRootDevice)] else []) ++
    [(dev.deviceType, dev.typeUsn dev.deviceType), (dev.udn, dev.udn)] ++
    dev.serviceTypes.map fun serviceType ↦ (serviceType, dev.typeUsn serviceType)

/-- The devices of a tree, each with whether it is the root device. -/
def owners (root : DeviceTree) : List (Bool × DeviceEntry) :=
  (true, root.value) :: (RoseTree.preorderIn root.children).map fun dev ↦ (false, dev)

/-- The identifiers of a tree. -/
def treeIdentities (root : DeviceTree) : List SsdpPair :=
  (owners root).flatMap fun owner ↦ identities owner.1 owner.2

/-- The datagrams of a device tree say its identifiers in full, and the control point gets each UDN
that fits its buffer back from every unique service name of the device. -/
structure AdvertisesIdentity (root : DeviceTree) : Prop where
  alive : announceFrom true root = treeIdentities root
  byebye : byebyeFrom true root = treeIdentities root
  response : ∀ ssdpCount ssdpPkt isDuplicate,
    ∀ pair ∈ searchResponses root ssdpCount ssdpPkt isDuplicate, pair ∈ treeIdentities root
  udn : ∀ owner ∈ owners root, owner.2.udn.length < udnLenMax →
    ∀ pair ∈ ownAdvertisements owner.1 owner.2,
      usnGetUdn (some pair.2) udnLenMax = owner.2.udn

/-- A UDN that does not run into the `::` behind it, and does not end with a blank. -/
structure ReadableUdn (udn : CString) : Prop where
  colons : ¬ "::".toList <:+: udn ++ [':']
  blank : udn.getLast? ≠ some ' '

/-! ### Buffers -/

theorem lineBuffer_eq_self_iff {text : CString} :
    lineBuffer text = text ↔ text.length < ssdpHeaderLineMaxSize := by
  rw [lineBuffer, List.take_eq_self_iff]
  have hsize : ssdpHeaderLineMaxSize = 128 := rfl
  omega

theorem flatMap_eq_flatMap_iff {α β : Type*} {f g : α → List β} {list : List α}
    (hlength : ∀ a, (f a).length = (g a).length) :
    list.flatMap f = list.flatMap g ↔ ∀ a ∈ list, f a = g a := by
  induction list with
  | nil => simp
  | cons a rest ih =>
    rw [List.flatMap_cons, List.flatMap_cons, List.forall_mem_cons, ← ih]
    constructor
    · exact fun h ↦ List.append_inj h (hlength a)
    · rintro ⟨ha, hrest⟩
      rw [ha, hrest]

/-- What is advertised with a unique service name that fits into the buffer is advertised in
full. -/
theorem lineBuffer_pair_iff {dev : DeviceEntry} {type : CString} :
    (lineBuffer type, lineBuffer (dev.udn ++ "::".toList ++ type)) = (type, dev.typeUsn type) ↔
      (dev.typeUsn type).length < ssdpHeaderLineMaxSize := by
  rw [List.append_assoc, Prod.mk.injEq, DeviceEntry.typeUsn, lineBuffer_eq_self_iff,
    lineBuffer_eq_self_iff, and_iff_right_iff_imp, List.length_append, List.length_append]
  omega

/-- The unique service names of a device fit into the buffer. -/
def Fits (isRootDevice : Bool) (dev : DeviceEntry) : Prop :=
  ∀ pair ∈ identities isRootDevice dev, pair.2.length < ssdpHeaderLineMaxSize

instance (isRootDevice : Bool) (dev : DeviceEntry) : Decidable (Fits isRootDevice dev) :=
  inferInstanceAs (Decidable (∀ pair ∈ _, _))

theorem length_lt_of_typeUsn {dev : DeviceEntry} {type : CString}
    (h : (dev.typeUsn type).length < ssdpHeaderLineMaxSize) :
    dev.udn.length < ssdpHeaderLineMaxSize := by
  rw [DeviceEntry.typeUsn, List.length_append] at h
  omega

/-- A device advertises itself and its services in full exactly when its names fit. -/
theorem ownAdvertisements_eq_iff {isRootDevice : Bool} {dev : DeviceEntry} :
    ownAdvertisements isRootDevice dev = identities isRootDevice dev ↔ Fits isRootDevice dev := by
  have hmap : dev.serviceTypes.map (fun serviceType ↦
      (DeviceEntry.getNotifyServiceTypeNt serviceType, dev.getNotifyServiceTypeUsn serviceType)) =
        dev.serviceTypes.map (fun serviceType ↦ (serviceType, dev.typeUsn serviceType)) ↔
          ∀ serviceType ∈ dev.serviceTypes,
            (dev.typeUsn serviceType).length < ssdpHeaderLineMaxSize := by
    rw [List.map_inj_left]
    exact forall₂_congr fun serviceType _ ↦ lineBuffer_pair_iff
  have hself : (dev.typeUsn dev.deviceType).length < ssdpHeaderLineMaxSize →
      dev.udn.length < ssdpHeaderLineMaxSize := length_lt_of_typeUsn
  have htype := @lineBuffer_pair_iff dev dev.deviceType
  have hroot := @lineBuffer_pair_iff dev upnpRootDevice
  have htail : (dev.getNotifyDeviceTypeNt, dev.getNotifyDeviceTypeUsn) ::
      (dev.udn, dev.udn) :: dev.serviceTypes.map (fun serviceType ↦
        (DeviceEntry.getNotifyServiceTypeNt serviceType, dev.getNotifyServiceTypeUsn serviceType)) =
      (dev.deviceType, dev.typeUsn dev.deviceType) ::
        (dev.udn, dev.udn) :: dev.serviceTypes.map (fun serviceType ↦
          (serviceType, dev.typeUsn serviceType)) ↔ Fits false dev := by
    rw [List.cons.injEq, List.cons.injEq, hmap, Fits, identities]
    simp only [Bool.false_eq_true, if_false, List.nil_append, List.cons_append,
      List.forall_mem_cons, List.forall_mem_map, true_and]
    exact ⟨fun h ↦ ⟨htype.mp h.1, hself (htype.mp h.1), h.2⟩, fun h ↦ ⟨htype.mpr h.1, h.2.2⟩⟩
  cases isRootDevice with
  | false => exact htail
  | true =>
    have hcons : Fits true dev ↔
        (dev.typeUsn upnpRootDevice).length < ssdpHeaderLineMaxSize ∧ Fits false dev :=
      @List.forall_mem_cons SsdpPair _ (upnpRootDevice, dev.typeUsn upnpRootDevice)
        (identities false dev)
    rw [hcons, ← htail, ← hroot, ← List.cons.injEq]
    rfl

/-! ### The trees -/

theorem advertisements_eq (root : DeviceTree) :
    advertisements root =
      (owners root).flatMap fun owner ↦ ownAdvertisements owner.1 owner.2 := by
  rw [advertisements, owners, List.flatMap_cons, List.flatMap_map]

theorem length_ownAdvertisements (isRootDevice : Bool) (dev : DeviceEntry) :
    (ownAdvertisements isRootDevice dev).length = (identities isRootDevice dev).length := by
  cases isRootDevice <;> simp [ownAdvertisements, identities]

theorem advertisements_eq_iff (root : DeviceTree) :
    advertisements root = treeIdentities root ↔
      ∀ owner ∈ owners root, Fits owner.1 owner.2 := by
  have hlength : ∀ owner : Bool × DeviceEntry,
      (ownAdvertisements owner.1 owner.2).length = (identities owner.1 owner.2).length :=
    fun owner ↦ length_ownAdvertisements owner.1 owner.2
  rw [advertisements_eq, treeIdentities]
  exact (flatMap_eq_flatMap_iff hlength).trans
    (forall₂_congr fun owner _ ↦ ownAdvertisements_eq_iff)

section members

variable {isRootDevice : Bool} {dev : DeviceEntry}

theorem udn_mem_identities : (dev.udn, dev.udn) ∈ identities isRootDevice dev := by
  simp [identities]

theorem deviceType_mem_identities :
    (dev.deviceType, dev.typeUsn dev.deviceType) ∈ identities isRootDevice dev := by
  simp [identities]

theorem rootDevice_mem_identities (h : isRootDevice = true) :
    (upnpRootDevice, dev.typeUsn upnpRootDevice) ∈ identities isRootDevice dev := by
  simp [identities, h]

theorem serviceType_mem_identities {serviceType : CString} (h : serviceType ∈ dev.serviceTypes) :
    (serviceType, dev.typeUsn serviceType) ∈ identities isRootDevice dev :=
  List.mem_append_right _ (List.mem_map_of_mem h)

/-- A device answers a search with its full identifiers, when its names fit. -/
theorem mem_identities_of_mem_ownAnswers {st : CString} (h : Fits isRootDevice dev)
    {pair : SsdpPair} (hpair : pair ∈ ownAnswers st isRootDevice dev) :
    pair ∈ identities isRootDevice dev := by
  have hbuffer : ∀ {type : CString}, (type, dev.typeUsn type) ∈ identities isRootDevice dev →
      lineBuffer (dev.udn ++ "::".toList ++ type) = dev.typeUsn type := by
    intro type hmem
    rw [List.append_assoc]
    exact lineBuffer_eq_self_iff.mpr (h _ hmem)
  by_cases hall : stIsAllDevice (some st) = true
  · rw [ownAnswers_of_isAllDevice hall] at hpair
    rwa [ownAdvertisements_eq_iff.mpr h] at hpair
  · unfold ownAnswers at hpair
    rw [if_neg hall] at hpair
    rcases List.mem_append.mp hpair with hown | hservice
    · split_ifs at hown with hrootSt hroot huuid hudn hurn htype
      · rw [List.mem_singleton.mp hown, DeviceEntry.getNotifyDeviceUsn, if_pos hroot,
          hbuffer (rootDevice_mem_identities hroot)]
        exact rootDevice_mem_identities hroot
      · cases hown
      · rw [List.mem_singleton.mp hown]
        exact udn_mem_identities
      · cases hown
      · rw [List.mem_singleton.mp hown, DeviceEntry.getNotifyDeviceTypeUsn,
          hbuffer deviceType_mem_identities]
        exact deviceType_mem_identities
      · cases hown
      · cases hown
    · obtain ⟨serviceType, hmem, hanswer⟩ := List.mem_flatMap.mp hservice
      rw [if_neg hall] at hanswer
      split_ifs at hanswer with hurn htype
      · rw [List.mem_singleton.mp hanswer, DeviceEntry.getNotifyServiceTypeUsn,
          hbuffer (serviceType_mem_identities hmem)]
        exact serviceType_mem_identities hmem
      · cases hanswer
      · cases hanswer

end members

theorem mem_treeIdentities_of_mem_answers {root : DeviceTree}
    (h : ∀ owner ∈ owners root, Fits owner.1 owner.2) {st : CString} {pair : SsdpPair}
    (hpair : pair ∈ answers st root) : pair ∈ treeIdentities root := by
  have hanswers : answers st root =
      (owners root).flatMap fun owner ↦ ownAnswers st owner.1 owner.2 := by
    rw [answers, owners, List.flatMap_cons, List.flatMap_map]
  rw [hanswers] at hpair
  obtain ⟨owner, howner, hmem⟩ := List.mem_flatMap.mp hpair
  exact List.mem_flatMap.mpr
    ⟨owner, howner, mem_identities_of_mem_ownAnswers (h owner howner) hmem⟩

/-! ### The UDN that comes back -/

theorem indexOf_colons_iff (udn type : CString) :
    indexOf "::".toList (udn ++ ("::".toList ++ type)) = some udn.length ↔
      ¬ "::".toList <:+: udn ++ [':'] := by
  induction udn with
  | nil => exact ⟨fun _ ↦ by decide, fun _ ↦ rfl⟩
  | cons c rest ih =>
    have hstart : "::".toList.isPrefixOf (c :: (rest ++ ("::".toList ++ type))) =
        "::".toList.isPrefixOf (c :: (rest ++ [':'])) := by
      cases rest with
      | nil => rfl
      | cons d rest => simp [List.isPrefixOf]
    rw [List.cons_append, indexOf, hstart, List.cons_append, List.infix_cons_iff, not_or,
      ← ih, ← List.isPrefixOf_iff_prefix]
    split_ifs with hcolons
    · exact iff_of_false (by simp) fun h ↦ h.1 hcolons
    · rw [and_iff_right hcolons, Option.map_eq_some_iff]
      constructor
      · rintro ⟨position, hposition, hlength⟩
        rwa [← Nat.succ.inj hlength]
      · exact fun hposition ↦ ⟨rest.length, hposition, rfl⟩

theorem strrtrim_blank_iff {text : CString} :
    strrtrim text " ".toList = text ↔ text.getLast? ≠ some ' ' := by
  rw [strrtrim_eq_self_iff]
  constructor
  · intro h hblank
    exact absurd (h ' ' hblank) (by decide)
  · intro h c hc
    have hne : c ≠ ' ' := by
      rintro rfl
      exact h hc
    simpa using hne

/-- The UDN comes back from a name with a type exactly when it can be told from what is behind
it. -/
theorem usnGetUdn_typeUsn_iff {dev : DeviceEntry} (hroom : dev.udn.length < udnLenMax)
    (type : CString) :
    usnGetUdn (some (dev.typeUsn type)) udnLenMax = dev.udn ↔ ReadableUdn dev.udn := by
  obtain ⟨position, hposition, hle⟩ := @indexOf_le_length "::".toList dev.udn type (by decide)
  have hindex := indexOf_colons_iff dev.udn type
  have hstrstr : strstr (some (dev.typeUsn type)) (some "::".toList) = position := by
    simp only [strstr, DeviceEntry.typeUsn, hposition]
  have hnonneg : ¬ (position : ℤ) < 0 := by omega
  have hbuffer : (position : ℤ) < (udnLenMax : ℤ) := by omega
  have hcut : usnGetUdn (some (dev.typeUsn type)) udnLenMax =
      strrtrim (dev.udn.take position) " ".toList := by
    simp only [usnGetUdn, hstrstr, if_neg hnonneg, if_pos hbuffer, Int.toNat_natCast]
    rw [DeviceEntry.typeUsn, List.take_append_of_le_length hle]
  rw [hcut]
  constructor
  · intro hsame
    have hshort : (strrtrim (dev.udn.take position) " ".toList).length ≤ position :=
      (List.rdropWhile_prefix _ _).length_le.trans (List.length_take_le _ _)
    rw [hsame] at hshort
    obtain rfl : position = dev.udn.length := Nat.le_antisymm hle hshort
    rw [List.take_length] at hsame
    exact ⟨hindex.mp hposition, strrtrim_blank_iff.mp hsame⟩
  · rintro ⟨hcolons, hblank⟩
    have hfound := hindex.mpr hcolons
    obtain rfl : dev.udn.length = position :=
      Option.some.inj (hfound.symm.trans hposition)
    rw [List.take_length]
    exact strrtrim_blank_iff.mpr hblank

/-- A UDN alone comes back. -/
theorem usnGetUdn_udn {udn : CString} (h : ReadableUdn udn) (hroom : udn.length < udnLenMax) :
    usnGetUdn (some udn) udnLenMax = udn := by
  have hmissing : strstr (some udn) (some "::".toList) < 0 := by
    refine Int.not_le.mp ?_
    rw [strstr_nonneg_iff]
    exact fun hcolons ↦ h.colons (hcolons.trans (List.prefix_append udn [':']).isInfix)
  simp only [usnGetUdn, if_pos hmissing]
  rw [List.take_of_length_le (by omega)]
  exact strrtrim_blank_iff.mpr h.blank

/-- The control point gets the UDN back from every name of a device exactly when it can be read. -/
theorem usnGetUdn_identities_iff {isRootDevice : Bool} {dev : DeviceEntry}
    (hroom : dev.udn.length < udnLenMax) :
    (∀ pair ∈ identities isRootDevice dev, usnGetUdn (some pair.2) udnLenMax = dev.udn) ↔
      ReadableUdn dev.udn := by
  constructor
  · intro h
    exact (usnGetUdn_typeUsn_iff hroom dev.deviceType).mp (h _ deviceType_mem_identities)
  · intro h pair hpair
    have htype := fun type ↦ (usnGetUdn_typeUsn_iff hroom type).mpr h
    rcases List.mem_append.mp hpair with hpair | hservice
    · rcases List.mem_append.mp hpair with hroot | hown
      · split_ifs at hroot with htrue
        · rw [List.mem_singleton.mp hroot]
          exact htype upnpRootDevice
        · cases hroot
      · rcases List.mem_cons.mp hown with rfl | hown
        · exact htype dev.deviceType
        · rw [List.mem_singleton.mp hown]
          exact usnGetUdn_udn h hroom
    · obtain ⟨serviceType, -, rfl⟩ := List.mem_map.mp hservice
      exact htype serviceType

/-- The datagrams of a device tree say its identifiers in full and every UDN comes back, exactly
when each unique service name fits into the buffer and no UDN runs into the `::` behind it or ends
with a blank. -/
theorem advertisesIdentity_iff (root : DeviceTree) :
    AdvertisesIdentity root ↔
      ∀ owner ∈ owners root, Fits owner.1 owner.2 ∧ ReadableUdn owner.2.udn := by
  have hroom : ∀ owner : Bool × DeviceEntry, Fits owner.1 owner.2 →
      owner.2.udn.length < udnLenMax :=
    fun owner hfits ↦ hfits _ udn_mem_identities
  constructor
  · intro h owner howner
    have halive := h.alive
    rw [announceFrom_eq, advertisements_eq_iff] at halive
    have hfits := halive owner howner
    have hudn := h.udn owner howner (hroom owner hfits)
    rw [ownAdvertisements_eq_iff.mpr hfits] at hudn
    exact ⟨hfits, (usnGetUdn_identities_iff (hroom owner hfits)).mp hudn⟩
  · intro h
    have hfits := fun owner howner ↦ (h owner howner).1
    have htree := (advertisements_eq_iff root).mpr hfits
    refine ⟨(announceFrom_eq root).trans htree, (byebyeFrom_eq root).trans htree, ?_, ?_⟩
    · intro ssdpCount ssdpPkt isDuplicate pair hpair
      by_cases haccepted : ssdpPkt.isAccepted isDuplicate = true
      · obtain ⟨st, hst, -⟩ := SearchRequest.exists_st_of_isAccepted haccepted
        rw [searchResponses_eq root ssdpCount haccepted hst] at hpair
        obtain ⟨answer, hanswer, hsame⟩ := List.mem_flatMap.mp hpair
        rw [List.eq_of_mem_replicate hsame]
        exact mem_treeIdentities_of_mem_answers hfits hanswer
      · rw [searchResponses, if_neg haccepted] at hpair
        cases hpair
    · intro owner howner hshort
      rw [ownAdvertisements_eq_iff.mpr (hfits owner howner)]
      exact (usnGetUdn_identities_iff hshort).mpr (h owner howner).2

/-- A device with a UDN that fits the buffer of the control point, but not that of its names. -/
def longUdnRoot : DeviceTree :=
  .node ⟨"uuid:".toList ++ List.replicate 110 'a', "urn:d".toList, []⟩ []

/-- The name of the root device is cut. -/
theorem not_advertisesIdentity : ¬ ∀ root, AdvertisesIdentity root := by
  intro h
  have halive := (h longUdnRoot).alive
  rw [announceFrom_eq, advertisements_eq_iff] at halive
  have hfits := halive (true, longUdnRoot.value) List.mem_cons_self
  exact absurd hfits (by decide +kernel)

end Mupnp.Advertisement
