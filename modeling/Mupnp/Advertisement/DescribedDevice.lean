import Mupnp.Advertisement.Agreement

/-!
# Devices as their descriptions give them

A description may leave out the UDN or the type of an embedded device, and the type of a service.
Where such a text is printed into a buffer, the C library writes something in its place
(`nullText`); a header that is set to it keeps what it had; and copying it into a buffer does not
come to an end, as for the type of a service.

On devices that have all their texts this is what `DeviceEntry` stands for (`announceFrom_entries`,
`byebyeFrom_entries`, `searchResponses_entries`). The three passes over a tree send the same pairs
exactly when no UDN and no type of a service is missing (`announcementsAgree_iff`): without a UDN
the announcements repeat the pair of the device type, while a response has neither header.
-/

set_option autoImplicit false
set_option relaxedAutoImplicit false

namespace Mupnp.Advertisement

open Foundation Util Ssdp

/-- The texts of a device and the types of its services, as far as the description gives them. -/
structure DescribedDevice where
  udn : Option CString
  deviceType : Option CString
  serviceTypes : List (Option CString)
  deriving DecidableEq

abbrev DescribedTree := RoseTree DescribedDevice

/-- The headers `NT` or `ST` and `USN` of a datagram, as far as they have a value. -/
abbrev SentPair := Option CString × Option CString

namespace Described

/-- The macros of `ssdp.h` that set the two headers. -/
def setPair (ssdpPkt : SentPair) (nt usn : Option CString) : SentPair :=
  (stringSetValue ssdpPkt.1 nt, stringSetValue ssdpPkt.2 usn)

section Texts

variable (nullText : CString) (dev : DescribedDevice)

/-- `mupnp_device_getnotifydevicent`. -/
def getNotifyDeviceNt (isRootDevice : Bool) : CString :=
  lineBuffer (if isRootDevice = false then dev.udn.getD nullText else upnpRootDevice)

/-- `mupnp_device_getnotifydeviceusn`. -/
def getNotifyDeviceUsn (isRootDevice : Bool) : CString :=
  lineBuffer (if isRootDevice = true then dev.udn.getD nullText ++ "::".toList ++ upnpRootDevice
    else dev.udn.getD nullText)

/-- `mupnp_device_getnotifydevicetypent`. -/
def getNotifyDeviceTypeNt : CString := lineBuffer (dev.deviceType.getD nullText)

/-- `mupnp_device_getnotifydevicetypeusn`. -/
def getNotifyDeviceTypeUsn : CString :=
  lineBuffer (dev.udn.getD nullText ++ "::".toList ++ dev.deviceType.getD nullText)

/-- `mupnp_service_getnotifyservicetypent`, which copies the type with `strncpy`. -/
def getNotifyServiceTypeNt (serviceType : Option CString) : Option CString :=
  serviceType.map lineBuffer

/-- `mupnp_service_getnotifyservicetypeusn`, with the device of the service. -/
def getNotifyServiceTypeUsn (serviceType : Option CString) : CString :=
  lineBuffer (dev.udn.getD nullText ++ "::".toList ++ serviceType.getD nullText)

/-! ### Announcements -/

/-- What a device sends for itself from one request, alive or byebye. -/
def deviceNotifications (isRootDevice : Bool) : List SentPair :=
  let rooted :=
    if isRootDevice = true then
      setPair (none, none) (some (getNotifyDeviceNt nullText dev isRootDevice))
        (some (getNotifyDeviceUsn nullText dev isRootDevice))
    else (none, none)
  let typed := setPair rooted (some (getNotifyDeviceTypeNt nullText dev))
    (some (getNotifyDeviceTypeUsn nullText dev))
  (if isRootDevice = true then [rooted] else []) ++ [typed, setPair typed dev.udn dev.udn]

/-- `mupnp_service_announcefrom`. -/
def serviceAnnounceFrom (serviceType : Option CString) : Option SentPair :=
  (getNotifyServiceTypeNt serviceType).map fun nt ↦
    setPair (none, none) (some nt) (some (getNotifyServiceTypeUsn nullText dev serviceType))

/-- `mupnp_service_byebyefrom`. -/
def serviceByebyeFrom (serviceType : Option CString) : Option SentPair :=
  (getNotifyServiceTypeNt serviceType).map fun nt ↦
    setPair (none, none) (some nt) (some (getNotifyServiceTypeUsn nullText dev serviceType))

/-- What a device sends for itself and for its services. -/
def ownAnnouncements (isRootDevice : Bool) : Option (List SentPair) :=
  (dev.serviceTypes.mapM (serviceAnnounceFrom nullText dev)).map
    (deviceNotifications nullText dev isRootDevice ++ ·)

/-- What a device takes back for itself and for its services. -/
def ownByebyes (isRootDevice : Bool) : Option (List SentPair) :=
  (dev.serviceTypes.mapM (serviceByebyeFrom nullText dev)).map
    (deviceNotifications nullText dev isRootDevice ++ ·)

/-! ### Answers to a search -/

/-- `mupnp_device_postsearchresponse`: the response is sent `mupnp_ssdp_getannouncecount` times. -/
def postSearchResponse (ssdpCount : ℕ) (st usn : Option CString) : List SentPair :=
  List.replicate ssdpCount (setPair (none, none) st usn)

/-- `mupnp_service_ssdpmessagereceived`: both texts are made before the target is looked at. -/
def serviceSsdpMessageReceived (ssdpCount : ℕ) (ssdpPkt : SearchRequest)
    (serviceType : Option CString) : Option (List SentPair) :=
  let ssdpSt := ssdpPkt.getSt
  if strlen ssdpSt ≤ 0 then some []
  else
    (getNotifyServiceTypeNt serviceType).map fun serviceNt ↦
      let serviceUsn := some (getNotifyServiceTypeUsn nullText dev serviceType)
      if stIsAllDevice ssdpSt = true then postSearchResponse ssdpCount (some serviceNt) serviceUsn
      else if stIsUrn ssdpSt = true then
        if streq ssdpSt serviceType = true then postSearchResponse ssdpCount serviceType serviceUsn
        else []
      else []

/-- What `mupnp_device_ssdpmessagereceived` answers for the device itself. -/
def deviceResponses (ssdpCount : ℕ) (ssdpPkt : SearchRequest) (isRootDevice : Bool) :
    List SentPair :=
  let ssdpSt := ssdpPkt.getSt
  if stIsAllDevice ssdpSt = true then
    (if isRootDevice = true then
        postSearchResponse ssdpCount (some (getNotifyDeviceNt nullText dev isRootDevice))
          (some (getNotifyDeviceUsn nullText dev isRootDevice))
      else []) ++
      postSearchResponse ssdpCount (some (getNotifyDeviceTypeNt nullText dev))
        (some (getNotifyDeviceTypeUsn nullText dev)) ++
      postSearchResponse ssdpCount dev.udn dev.udn
  else if stIsRootDevice ssdpSt = true then
    if isRootDevice = true then
      postSearchResponse ssdpCount (some upnpRootDevice)
        (some (getNotifyDeviceUsn nullText dev isRootDevice))
    else []
  else if stIsUuidDevice ssdpSt = true then
    if streq ssdpSt dev.udn = true then postSearchResponse ssdpCount dev.udn dev.udn else []
  else if stIsUrn ssdpSt = true then
    if streq ssdpSt dev.deviceType = true then
      postSearchResponse ssdpCount dev.deviceType (some (getNotifyDeviceTypeUsn nullText dev))
    else []
  else []

/-- What a device answers for itself and for its services. -/
def ownResponses (ssdpCount : ℕ) (ssdpPkt : SearchRequest) (isRootDevice : Bool) :
    Option (List SentPair) :=
  (dev.serviceTypes.mapM (serviceSsdpMessageReceived nullText dev ssdpCount ssdpPkt)).map
    fun services ↦ deviceResponses nullText dev ssdpCount ssdpPkt isRootDevice ++ services.flatten

end Texts

/-! ### Passes over a tree -/

mutual

/-- A pass over a tree that sends what each device gives, the root device first: nothing comes of it
when one of them does not come to an end. -/
def pass (own : Bool → DescribedDevice → Option (List SentPair)) (isRootDevice : Bool) :
    DescribedTree → Option (List SentPair)
  | .node dev devices =>
    (own isRootDevice dev).bind fun sent ↦ (passIn own devices).map (sent ++ ·)

/-- The loop of a pass over the embedded devices. -/
def passIn (own : Bool → DescribedDevice → Option (List SentPair)) :
    List DescribedTree → Option (List SentPair)
  | [] => some []
  | childDev :: rest =>
    (pass own false childDev).bind fun sent ↦ (passIn own rest).map (sent ++ ·)

end

/-- `mupnp_device_announcefrom`. -/
def announceFrom (nullText : CString) (root : DescribedTree) : Option (List SentPair) :=
  pass (fun isRootDevice dev ↦ ownAnnouncements nullText dev isRootDevice) true root

/-- `mupnp_device_byebyefrom`. -/
def byebyeFrom (nullText : CString) (root : DescribedTree) : Option (List SentPair) :=
  pass (fun isRootDevice dev ↦ ownByebyes nullText dev isRootDevice) true root

/-- `mupnp_device_ssdplistener`: what is sent in answer to a request that comes in. -/
def searchResponses (nullText : CString) (root : DescribedTree) (ssdpCount : ℕ)
    (ssdpPkt : SearchRequest) (isDuplicate : Bool) : Option (List SentPair) :=
  if ssdpPkt.isAccepted isDuplicate = true then
    pass (fun isRootDevice dev ↦ ownResponses nullText dev ssdpCount ssdpPkt isRootDevice) true root
  else some []

section Pass

variable {own : Bool → DescribedDevice → Option (List SentPair)}

/-- A pass in which each device comes to an end. -/
theorem passIn_eq_some {sent : DescribedDevice → List SentPair} {trees : List DescribedTree}
    (h : ∀ dev ∈ RoseTree.preorderIn trees, own false dev = some (sent dev)) :
    passIn own trees = some ((RoseTree.preorderIn trees).flatMap sent) := by
  induction trees using RoseTree.forest_induction with
  | nil => rfl
  | cons dev devices rest hdevices hrest =>
    rw [RoseTree.preorderIn_cons, RoseTree.value_node, RoseTree.children_node] at h ⊢
    obtain ⟨hdev, hothers⟩ := List.forall_mem_cons.mp h
    rw [passIn, pass, hdev, hdevices fun other hother ↦ hothers other (List.mem_append_left _ hother),
      hrest fun other hother ↦ hothers other (List.mem_append_right _ hother), List.flatMap_cons,
      List.flatMap_append]
    simp

theorem pass_eq_some {sent : Bool → DescribedDevice → List SentPair} {root : DescribedTree}
    (h : ∀ isRootDevice, ∀ dev ∈ root.preorder,
      own isRootDevice dev = some (sent isRootDevice dev)) :
    pass own true root = some (sent true root.value ++
      (RoseTree.preorderIn root.children).flatMap (sent false)) := by
  obtain ⟨dev, devices⟩ := root
  rw [RoseTree.preorder_eq, RoseTree.value_node, RoseTree.children_node] at h
  rw [pass, h true dev List.mem_cons_self,
    passIn_eq_some fun other hother ↦ h false other (List.mem_cons_of_mem _ hother)]
  rfl

/-- In a pass that comes to an end, each device has come to an end. -/
theorem isSome_of_passIn {trees : List DescribedTree} (h : (passIn own trees).isSome = true) :
    ∀ dev ∈ RoseTree.preorderIn trees, (own false dev).isSome = true := by
  induction trees using RoseTree.forest_induction with
  | nil => exact fun dev hdev ↦ absurd hdev List.not_mem_nil
  | cons dev devices rest hdevices hrest =>
    rw [passIn, pass] at h
    cases hown : own false dev with
    | none => simp [hown] at h
    | some sent =>
      cases hbelow : passIn own devices with
      | none => simp [hown, hbelow] at h
      | some below =>
        cases hbehind : passIn own rest with
        | none => simp [hown, hbelow, hbehind] at h
        | some behind =>
          rw [RoseTree.preorderIn_cons, RoseTree.value_node, RoseTree.children_node,
            List.forall_mem_cons, List.forall_mem_append]
          exact ⟨by rw [hown]; rfl, hdevices (by rw [hbelow]; rfl), hrest (by rw [hbehind]; rfl)⟩

theorem isSome_of_pass {root : DescribedTree} (h : (pass own true root).isSome = true) :
    ∀ dev ∈ root.preorder, ∃ isRootDevice, (own isRootDevice dev).isSome = true := by
  obtain ⟨dev, devices⟩ := root
  rw [pass] at h
  cases hown : own true dev with
  | none => simp [hown] at h
  | some sent =>
    cases hbelow : passIn own devices with
    | none => simp [hown, hbelow] at h
    | some below =>
      have hdevices : (passIn own devices).isSome = true := by rw [hbelow]; rfl
      rw [RoseTree.preorder_eq, RoseTree.value_node, RoseTree.children_node, List.forall_mem_cons]
      exact ⟨⟨true, by rw [hown]; rfl⟩,
        fun other hother ↦ ⟨false, isSome_of_passIn hdevices other hother⟩⟩

end Pass

/-! ### Devices whose services have types -/

/-- What a device advertises when its services have types. -/
def advertised (nullText : CString) (isRootDevice : Bool) (dev : DescribedDevice) :
    List SentPair :=
  deviceNotifications nullText dev isRootDevice ++ dev.serviceTypes.map fun serviceType ↦
    ((serviceType.map lineBuffer), some (getNotifyServiceTypeUsn nullText dev serviceType))

section Services

variable {nullText : CString} {dev : DescribedDevice}

/-- A loop over services that all have types comes to an end. -/
theorem mapM_serviceTypes {α : Type} {f : Option CString → Option α} (g : Option CString → α)
    {serviceTypes : List (Option CString)}
    (hf : ∀ type, f (some type) = some (g (some type))) (htyped : none ∉ serviceTypes) :
    serviceTypes.mapM f = some (serviceTypes.map g) := by
  induction serviceTypes with
  | nil => rfl
  | cons serviceType rest ih =>
    rw [List.mem_cons, not_or] at htyped
    obtain ⟨type, rfl⟩ := Option.ne_none_iff_exists'.mp (Ne.symm htyped.1)
    rw [List.mapM_cons, hf, ih htyped.2]
    rfl

theorem none_not_mem_of_mapM {α : Type} {f : Option CString → Option α} (hf : f none = none)
    {serviceTypes : List (Option CString)} (h : (serviceTypes.mapM f).isSome = true) :
    none ∉ serviceTypes := by
  induction serviceTypes with
  | nil => exact List.not_mem_nil
  | cons serviceType rest ih =>
    cases serviceType with
    | none =>
      rw [List.mapM_cons, hf] at h
      cases h
    | some type =>
      rw [List.mem_cons, not_or]
      refine ⟨Option.some_ne_none type |>.symm, ih ?_⟩
      cases hrest : rest.mapM f with
      | some others => rfl
      | none =>
        rw [List.mapM_cons, hrest] at h
        cases hfirst : f (some type) <;> simp [hfirst] at h

theorem ownAnnouncements_eq (htyped : none ∉ dev.serviceTypes) (isRootDevice : Bool) :
    ownAnnouncements nullText dev isRootDevice = some (advertised nullText isRootDevice dev) := by
  unfold ownAnnouncements
  rw [mapM_serviceTypes (fun serviceType ↦ (serviceType.map lineBuffer,
    some (getNotifyServiceTypeUsn nullText dev serviceType))) (fun _ ↦ rfl) htyped]
  rfl

theorem ownByebyes_eq (htyped : none ∉ dev.serviceTypes) (isRootDevice : Bool) :
    ownByebyes nullText dev isRootDevice = some (advertised nullText isRootDevice dev) := by
  unfold ownByebyes
  rw [mapM_serviceTypes (fun serviceType ↦ (serviceType.map lineBuffer,
    some (getNotifyServiceTypeUsn nullText dev serviceType))) (fun _ ↦ rfl) htyped]
  rfl

/-- The answers of a device to a search for everything: each header is set once. -/
def answered (nullText : CString) (isRootDevice : Bool) (dev : DescribedDevice) : List SentPair :=
  (if isRootDevice = true then
      [(some (getNotifyDeviceNt nullText dev isRootDevice),
        some (getNotifyDeviceUsn nullText dev isRootDevice))]
    else []) ++
    [(some (getNotifyDeviceTypeNt nullText dev), some (getNotifyDeviceTypeUsn nullText dev)),
      (dev.udn, dev.udn)] ++
    dev.serviceTypes.map fun serviceType ↦
      ((serviceType.map lineBuffer), some (getNotifyServiceTypeUsn nullText dev serviceType))

theorem ownResponses_eq (htyped : none ∉ dev.serviceTypes) (ssdpCount : ℕ)
    {ssdpPkt : SearchRequest} (hne : ¬ strlen ssdpPkt.getSt ≤ 0)
    (hall : stIsAllDevice ssdpPkt.getSt = true) (isRootDevice : Bool) :
    ownResponses nullText dev ssdpCount ssdpPkt isRootDevice =
      some ((answered nullText isRootDevice dev).flatMap (List.replicate ssdpCount)) := by
  have hservice : ∀ type, serviceSsdpMessageReceived nullText dev ssdpCount ssdpPkt (some type) =
      some (List.replicate ssdpCount ((some type).map lineBuffer,
        some (getNotifyServiceTypeUsn nullText dev (some type)))) := by
    intro type
    unfold serviceSsdpMessageReceived
    simp only [if_neg hne, if_pos hall]
    rfl
  unfold ownResponses deviceResponses answered
  rw [mapM_serviceTypes (fun serviceType ↦ List.replicate ssdpCount (serviceType.map lineBuffer,
    some (getNotifyServiceTypeUsn nullText dev serviceType))) hservice htyped, List.flatMap_append,
    List.flatMap_map]
  simp only [if_pos hall]
  cases isRootDevice <;>
    simp [postSearchResponse, setPair, List.flatMap_def, stringSetValue_none_left]

/-- A device with a UDN answers with what it advertises. -/
theorem answered_eq (hudn : dev.udn ≠ none) (isRootDevice : Bool) :
    answered nullText isRootDevice dev = advertised nullText isRootDevice dev := by
  obtain ⟨udn, hudn⟩ := Option.ne_none_iff_exists'.mp hudn
  unfold answered advertised deviceNotifications
  rw [hudn]
  cases isRootDevice <;> rfl

end Services

/-! ### When the passes agree -/

/-- What the devices of a tree send, from the root on. -/
def sentBy (own : Bool → DescribedDevice → List SentPair) (root : DescribedTree) : List SentPair :=
  own true root.value ++ (RoseTree.preorderIn root.children).flatMap (own false)

theorem mem_sentBy {own : Bool → DescribedDevice → List SentPair} {root : DescribedTree}
    {pair : SentPair} (h : pair ∈ sentBy own root) :
    ∃ isRootDevice, ∃ dev ∈ root.preorder, pair ∈ own isRootDevice dev := by
  rw [RoseTree.preorder_eq]
  rcases List.mem_append.mp h with hroot | hbelow
  · exact ⟨true, _, List.mem_cons_self, hroot⟩
  · obtain ⟨dev, hdev, hpair⟩ := List.mem_flatMap.mp hbelow
    exact ⟨false, dev, List.mem_cons_of_mem _ hdev, hpair⟩

theorem mem_sentBy_of_forall {own : Bool → DescribedDevice → List SentPair} {root : DescribedTree}
    {dev : DescribedDevice} (hdev : dev ∈ root.preorder) {pair : SentPair}
    (h : ∀ isRootDevice, pair ∈ own isRootDevice dev) : pair ∈ sentBy own root := by
  rw [RoseTree.preorder_eq] at hdev
  rcases List.mem_cons.mp hdev with rfl | hbelow
  · exact List.mem_append_left _ (h true)
  · exact List.mem_append_right _ (List.mem_flatMap.mpr ⟨dev, hbelow, h false⟩)

theorem sentBy_congr {own other : Bool → DescribedDevice → List SentPair} {root : DescribedTree}
    (h : ∀ isRootDevice, ∀ dev ∈ root.preorder, own isRootDevice dev = other isRootDevice dev) :
    sentBy own root = sentBy other root := by
  rw [RoseTree.preorder_eq] at h
  rw [sentBy, sentBy, h true _ List.mem_cons_self]
  exact congrArg _ (List.flatMap_congr fun dev hdev ↦ h false dev (List.mem_cons_of_mem _ hdev))

/-- The UDN of a device and the types of its services are given. -/
structure IsComplete (dev : DescribedDevice) : Prop where
  udn : dev.udn ≠ none
  serviceTypes : none ∉ dev.serviceTypes

/-- A pass that announces a tree, one that takes it back, and an answer to a search for everything
come to an end and send the same pairs; a search is answered as often as an announcement is
repeated. -/
def AnnouncementsAgree (nullText : CString) (root : DescribedTree) (ssdpCount : ℕ) : Prop :=
  ∃ announced removed, announceFrom nullText root = some announced ∧
    byebyeFrom nullText root = some removed ∧ announced.Perm removed ∧
    ∀ (ssdpPkt : SearchRequest) (isDuplicate : Bool), ssdpPkt.isAccepted isDuplicate = true →
      stIsAllDevice ssdpPkt.getSt = true →
      ∃ responses, searchResponses nullText root ssdpCount ssdpPkt isDuplicate = some responses ∧
        responses.Perm (List.replicate ssdpCount announced).flatten

section Agreement

variable {nullText : CString} {root : DescribedTree}

theorem announceFrom_eq (htyped : ∀ dev ∈ root.preorder, none ∉ dev.serviceTypes) :
    announceFrom nullText root = some (sentBy (advertised nullText) root) :=
  pass_eq_some fun isRootDevice dev hdev ↦ ownAnnouncements_eq (htyped dev hdev) isRootDevice

theorem byebyeFrom_eq (htyped : ∀ dev ∈ root.preorder, none ∉ dev.serviceTypes) :
    byebyeFrom nullText root = some (sentBy (advertised nullText) root) :=
  pass_eq_some fun isRootDevice dev hdev ↦ ownByebyes_eq (htyped dev hdev) isRootDevice

theorem searchResponses_eq (htyped : ∀ dev ∈ root.preorder, none ∉ dev.serviceTypes)
    (ssdpCount : ℕ) {ssdpPkt : SearchRequest} {isDuplicate : Bool}
    (haccepted : ssdpPkt.isAccepted isDuplicate = true)
    (hall : stIsAllDevice ssdpPkt.getSt = true) :
    searchResponses nullText root ssdpCount ssdpPkt isDuplicate =
      some ((sentBy (answered nullText) root).flatMap (List.replicate ssdpCount)) := by
  obtain ⟨st, hst, hne⟩ := SearchRequest.exists_st_of_isAccepted haccepted
  have hlength : ¬ strlen ssdpPkt.getSt ≤ 0 := by
    rw [hst]
    exact not_strlen_some_le_zero hne
  unfold searchResponses
  rw [if_pos haccepted, pass_eq_some fun isRootDevice dev hdev ↦
    ownResponses_eq (htyped dev hdev) ssdpCount hlength hall isRootDevice, sentBy,
    List.flatMap_append, List.flatMap_assoc]

/-- Whatever a device announces has a notification type. -/
theorem isSome_of_mem_advertised {isRootDevice : Bool} {dev : DescribedDevice}
    (htyped : none ∉ dev.serviceTypes) {pair : SentPair}
    (hpair : pair ∈ advertised nullText isRootDevice dev) : pair.1.isSome = true := by
  rcases List.mem_append.mp hpair with hdevice | hservice
  · unfold deviceNotifications at hdevice
    rcases List.mem_append.mp hdevice with hroot | hown
    · cases isRootDevice with
      | false => cases hroot
      | true =>
        rw [List.mem_singleton.mp hroot]
        rfl
    · rcases List.mem_pair.mp hown with rfl | rfl
      · rfl
      · cases dev.udn <;> rfl
  · obtain ⟨serviceType, hmem, rfl⟩ := List.mem_map.mp hservice
    cases serviceType with
    | none => exact absurd hmem htyped
    | some type => rfl

/-- A device without a UDN answers with a response that has neither header. -/
theorem none_mem_answered {isRootDevice : Bool} {dev : DescribedDevice} (hudn : dev.udn = none) :
    (none, none) ∈ answered nullText isRootDevice dev := by
  unfold answered
  rw [hudn]
  exact List.mem_append_left _ (List.mem_append_right _
    (List.mem_cons_of_mem _ (List.mem_singleton_self _)))

/-- The services of a tree that can be announced have types. -/
theorem serviceTypes_of_announceFrom (h : (announceFrom nullText root).isSome = true) :
    ∀ dev ∈ root.preorder, none ∉ dev.serviceTypes := by
  intro dev hdev
  obtain ⟨isRootDevice, hown⟩ := isSome_of_pass h dev hdev
  unfold ownAnnouncements at hown
  rw [Option.isSome_map] at hown
  exact none_not_mem_of_mapM rfl hown

/-- The passes over a tree agree exactly when every device has a UDN and every service a type. -/
theorem announcementsAgree_iff (nullText : CString) (root : DescribedTree) {ssdpCount : ℕ}
    (hcount : 0 < ssdpCount) :
    AnnouncementsAgree nullText root ssdpCount ↔ ∀ dev ∈ root.preorder, IsComplete dev := by
  constructor
  · rintro ⟨announced, removed, hannounced, -, -, hanswered⟩
    have htyped := serviceTypes_of_announceFrom (Option.isSome_of_eq_some hannounced)
    obtain rfl : _ = announced := Option.some.inj ((announceFrom_eq htyped).symm.trans hannounced)
    obtain ⟨responses, hresponses, hperm⟩ := hanswered (sampleSearch "ssdp:all".toList) false
      (by decide +kernel) (by decide +kernel)
    rw [searchResponses_eq htyped ssdpCount (by decide +kernel) (by decide +kernel)] at hresponses
    obtain rfl := Option.some.inj hresponses
    refine fun dev hdev ↦ ⟨fun hudn ↦ ?_, htyped dev hdev⟩
    have hresponse : (none, none) ∈
        (sentBy (answered nullText) root).flatMap (List.replicate ssdpCount) :=
      List.mem_flatMap.mpr ⟨_, mem_sentBy_of_forall hdev fun _ ↦ none_mem_answered hudn,
        List.mem_replicate.mpr ⟨hcount.ne', rfl⟩⟩
    obtain ⟨announced, hannounced, hpair⟩ := List.mem_flatten.mp (hperm.mem_iff.mp hresponse)
    rw [List.eq_of_mem_replicate hannounced] at hpair
    -- Every pair that is announced has a notification type.
    obtain ⟨isRootDevice, other, hother, hsent⟩ := mem_sentBy hpair
    exact absurd (isSome_of_mem_advertised (htyped other hother) hsent) (by decide)
  · intro hcomplete
    have htyped := fun dev hdev ↦ (hcomplete dev hdev).serviceTypes
    refine ⟨_, _, announceFrom_eq htyped, byebyeFrom_eq htyped, List.Perm.refl _,
      fun ssdpPkt isDuplicate haccepted hall ↦
        ⟨_, searchResponses_eq htyped ssdpCount haccepted hall, ?_⟩⟩
    rw [sentBy_congr fun isRootDevice dev hdev ↦
      answered_eq (hcomplete dev hdev).udn isRootDevice]
    exact flatMap_replicate_perm ssdpCount (List.Perm.refl _)

end Agreement

/-! ### Devices with all their texts -/

/-- A device that has all its texts. -/
def ofEntry (dev : DeviceEntry) : DescribedDevice :=
  ⟨some dev.udn, some dev.deviceType, dev.serviceTypes.map some⟩

def ofEntries (root : DeviceTree) : DescribedTree := root.relabel ofEntry

/-- Both headers have a value. -/
def ofPair (pair : SsdpPair) : SentPair := (some pair.1, some pair.2)

section Entries

variable {nullText : CString}

/-- A pass over devices that have all their texts. -/
theorem pass_ofEntries {own : Bool → DescribedDevice → Option (List SentPair)}
    {sent : Bool → DeviceEntry → List SsdpPair}
    (h : ∀ isRootDevice dev, own isRootDevice (ofEntry dev) =
      some ((sent isRootDevice dev).map ofPair)) (root : DeviceTree) :
    pass own true (ofEntries root) = some ((sent true root.value ++
      (RoseTree.preorderIn root.children).flatMap (sent false)).map ofPair) := by
  have hsome : ∀ isRootDevice, ∀ dev ∈ (ofEntries root).preorder,
      own isRootDevice dev = some ((own isRootDevice dev).getD []) := by
    intro isRootDevice dev hdev
    rw [ofEntries, RoseTree.preorder_relabel] at hdev
    obtain ⟨entry, -, rfl⟩ := List.mem_map.mp hdev
    rw [h]
    rfl
  rw [pass_eq_some hsome, ofEntries, RoseTree.value_relabel, RoseTree.children_relabel,
    RoseTree.preorderIn_relabelIn, List.flatMap_map, h, Option.getD_some, List.map_append,
    List.map_flatMap]
  simp only [h, Option.getD_some]

theorem none_not_mem_ofEntry (dev : DeviceEntry) : none ∉ (ofEntry dev).serviceTypes := by
  simp [ofEntry]

theorem deviceNotifications_ofEntry (isRootDevice : Bool) (dev : DeviceEntry) :
    deviceNotifications nullText (ofEntry dev) isRootDevice =
      ((if isRootDevice = true then
          [(dev.getNotifyDeviceNt isRootDevice, dev.getNotifyDeviceUsn isRootDevice)]
        else []) ++
        [(dev.getNotifyDeviceTypeNt, dev.getNotifyDeviceTypeUsn), (dev.udn, dev.udn)]).map
          ofPair := by
  cases isRootDevice <;> rfl

theorem advertised_ofEntry (isRootDevice : Bool) (dev : DeviceEntry) :
    advertised nullText isRootDevice (ofEntry dev) =
      (ownAdvertisements isRootDevice dev).map ofPair := by
  have hservices : (ofEntry dev).serviceTypes.map (fun serviceType ↦ (serviceType.map lineBuffer,
      some (getNotifyServiceTypeUsn nullText (ofEntry dev) serviceType))) =
      (dev.serviceTypes.map fun serviceType ↦ (DeviceEntry.getNotifyServiceTypeNt serviceType,
        dev.getNotifyServiceTypeUsn serviceType)).map ofPair := by
    rw [ofEntry, List.map_map, List.map_map]
    rfl
  unfold advertised ownAdvertisements
  rw [deviceNotifications_ofEntry, hservices, ← List.map_append]

/-- On devices with all their texts, an announcement is that of their entries. -/
theorem announceFrom_entries (root : DeviceTree) :
    announceFrom nullText (ofEntries root) =
      some ((Advertisement.announceFrom true root).map ofPair) := by
  rw [Advertisement.announceFrom_eq]
  refine pass_ofEntries (fun isRootDevice dev ↦ ?_) root
  rw [ownAnnouncements_eq (none_not_mem_ofEntry dev), advertised_ofEntry]

theorem byebyeFrom_entries (root : DeviceTree) :
    byebyeFrom nullText (ofEntries root) =
      some ((Advertisement.byebyeFrom true root).map ofPair) := by
  rw [Advertisement.byebyeFrom_eq]
  refine pass_ofEntries (fun isRootDevice dev ↦ ?_) root
  rw [ownByebyes_eq (none_not_mem_ofEntry dev), advertised_ofEntry]

theorem map_ofPair_postSearchResponse (ssdpCount : ℕ) (st usn : CString) :
    (Advertisement.postSearchResponse ssdpCount st usn).map ofPair =
      postSearchResponse ssdpCount (some st) (some usn) := List.map_replicate

theorem ownResponses_ofEntry (ssdpCount : ℕ) (ssdpPkt : SearchRequest) (isRootDevice : Bool)
    (dev : DeviceEntry) :
    ownResponses nullText (ofEntry dev) ssdpCount ssdpPkt isRootDevice =
      some ((Advertisement.deviceResponses ssdpCount ssdpPkt isRootDevice dev ++
        dev.serviceTypes.flatMap
          (Advertisement.serviceSsdpMessageReceived ssdpCount ssdpPkt dev)).map ofPair) := by
  have hservice : ∀ type, serviceSsdpMessageReceived nullText (ofEntry dev) ssdpCount ssdpPkt
      (some type) = some ((Advertisement.serviceSsdpMessageReceived ssdpCount ssdpPkt dev
        ((some type).getD [])).map ofPair) := by
    intro type
    unfold serviceSsdpMessageReceived Advertisement.serviceSsdpMessageReceived
    simp only [Option.getD_some]
    split_ifs
    · rfl
    · rw [map_ofPair_postSearchResponse]
      rfl
    · rw [map_ofPair_postSearchResponse]
      rfl
    · rfl
    · rfl
  have hdevice : deviceResponses nullText (ofEntry dev) ssdpCount ssdpPkt isRootDevice =
      (Advertisement.deviceResponses ssdpCount ssdpPkt isRootDevice dev).map ofPair := by
    unfold deviceResponses Advertisement.deviceResponses
    simp only [apply_ite (List.map ofPair), List.map_append, map_ofPair_postSearchResponse,
      List.map_nil]
    rfl
  unfold ownResponses
  rw [mapM_serviceTypes (fun serviceType ↦ (Advertisement.serviceSsdpMessageReceived ssdpCount
    ssdpPkt dev (serviceType.getD [])).map ofPair) hservice (none_not_mem_ofEntry dev), hdevice,
    Option.map_some, List.map_append, List.map_flatMap, ofEntry, List.map_map, List.flatMap_def]
  rfl

theorem searchResponses_entries (root : DeviceTree) (ssdpCount : ℕ) (ssdpPkt : SearchRequest)
    (isDuplicate : Bool) :
    searchResponses nullText (ofEntries root) ssdpCount ssdpPkt isDuplicate =
      some ((Advertisement.searchResponses root ssdpCount ssdpPkt isDuplicate).map ofPair) := by
  unfold searchResponses Advertisement.searchResponses
  split_ifs with haccepted
  · obtain ⟨dev, devices⟩ := root
    have hwalk : deviceSsdpMessageReceivedIn ssdpCount ssdpPkt devices =
        (RoseTree.preorderIn devices).flatMap fun dev ↦
          Advertisement.deviceResponses ssdpCount ssdpPkt false dev ++ dev.serviceTypes.flatMap
            (Advertisement.serviceSsdpMessageReceived ssdpCount ssdpPkt dev) :=
      @RoseTree.walkIn_eq_flatMap DeviceEntry SsdpPair _
        (deviceSsdpMessageReceived ssdpCount ssdpPkt false)
        (deviceSsdpMessageReceivedIn ssdpCount ssdpPkt)
        (fun _ _ ↦ rfl) rfl (fun _ _ ↦ rfl) devices
    rw [deviceSsdpMessageReceived, hwalk]
    exact @pass_ofEntries
      (fun isRootDevice dev ↦ ownResponses nullText dev ssdpCount ssdpPkt isRootDevice)
      (fun isRootDevice dev ↦ Advertisement.deviceResponses ssdpCount ssdpPkt isRootDevice dev ++
        dev.serviceTypes.flatMap (Advertisement.serviceSsdpMessageReceived ssdpCount ssdpPkt dev))
      (fun isRootDevice dev ↦ ownResponses_ofEntry ssdpCount ssdpPkt isRootDevice dev)
      (.node dev devices)
  · rfl

end Entries

/-- A root device with an embedded device that has neither a UDN nor services. -/
def namelessRoot : DescribedTree :=
  .node ⟨some "uuid:a".toList, some "urn:d".toList, [some "urn:s".toList]⟩
    [.node ⟨none, some "urn:e".toList, []⟩ []]

/-- A root device with a service, and an embedded device without a type. -/
theorem announcementsAgree_typeless :
    AnnouncementsAgree "(null)".toList
      (.node ⟨some "uuid:a".toList, some "urn:d".toList, [some "urn:s".toList]⟩
        [.node ⟨some "uuid:b".toList, none, [some "urn:s".toList]⟩ []]) 3 := by
  refine (announcementsAgree_iff _ _ (by decide)).mpr fun dev hdev ↦ ?_
  rcases List.mem_cons.mp hdev with rfl | hdev
  · exact ⟨by decide, by decide⟩
  · rw [List.mem_singleton.mp hdev]
    exact ⟨by decide, by decide⟩

/-- The response about the embedded device has neither header. -/
theorem not_announcementsAgree :
    ¬ ∀ (nullText : CString) (root : DescribedTree) (ssdpCount : ℕ),
      AnnouncementsAgree nullText root ssdpCount := by
  intro h
  obtain ⟨announced, removed, hannounced, -, -, hanswered⟩ := h "(null)".toList namelessRoot 1
  obtain ⟨responses, hresponses, hperm⟩ := hanswered (sampleSearch "ssdp:all".toList) false
    (by decide +kernel) (by decide +kernel)
  have hsent : (searchResponses "(null)".toList namelessRoot 1 (sampleSearch "ssdp:all".toList)
      false).map (fun sent ↦ sent.contains (none, none)) = some true := by decide +kernel
  have halive : (announceFrom "(null)".toList namelessRoot).map
      (fun sent ↦ sent.contains (none, none)) = some false := by decide +kernel
  rw [hresponses, Option.map_some, Option.some.injEq, List.contains_iff_mem] at hsent
  rw [hannounced, Option.map_some, Option.some.injEq] at halive
  have hmem := hperm.mem_iff.mp hsent
  rw [List.replicate_one, List.flatten_singleton, ← List.contains_iff_mem, halive] at hmem
  exact absurd hmem (by decide)

end Described

end Mupnp.Advertisement
