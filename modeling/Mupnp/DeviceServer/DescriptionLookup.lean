import Mupnp.DeviceServer.RequestDispatch

/-!
# Looking up a device by its description address

`mupnp_device_getdevicebydescriptionuri` of `device.c` as a search in the tree of devices. The
lookups by type and by UDN beside it compare each embedded device; this one compares, at each
embedded device, the device that holds it. `getDeviceByDescriptionUri_eq_find` says what that comes
to: the first device of the tree with the address that has embedded devices of its own, be it the
device that was asked or one below it.

`finds_embedded_device_iff` is the exact condition under which it finds the embedded devices with
an address.
-/

set_option autoImplicit false
set_option relaxedAutoImplicit false

namespace Mupnp.DeviceServer

open Foundation Util

namespace ServedDevice

mutual

/-- `mupnp_device_getdevicebydescriptionuri` with the device itself as the result. -/
def getDeviceByDescriptionUri : ServedDevice → Option CString → Option ServedDevice
  | .node object devices, url =>
    if strlen url ≤ 0 then none else searchByDescriptionUri (.node object devices) url devices

/-- The loop of `mupnp_device_getdevicebydescriptionuri` over the embedded devices of a device. -/
def searchByDescriptionUri (dev : ServedDevice) (url : Option CString) :
    List ServedDevice → Option ServedDevice
  | [] => none
  | childDev :: rest =>
    if streq dev.value.descriptionUri url then some dev
    else
      match getDeviceByDescriptionUri childDev url with
      | some moreChildDev => some moreChildDev
      | none => searchByDescriptionUri dev url rest

end

/-- The lookup of the HTTP server is this one, with what it serves of the device. -/
theorem map_value_searchByDescriptionUri (dev : ServedDevice) (url : Option CString)
    (devices : List ServedDevice) :
    (searchByDescriptionUri dev url devices).map RoseTree.value =
      DeviceServer.searchByDescriptionUri dev.value url devices := by
  induction devices using RoseTree.forest_induction generalizing dev with
  | nil => rfl
  | cons object devices rest hdevices hrest =>
    have hchild : (getDeviceByDescriptionUri (.node object devices) url).map RoseTree.value =
        DeviceServer.getDeviceByDescriptionUri (.node object devices) url := by
      rw [getDeviceByDescriptionUri, DeviceServer.getDeviceByDescriptionUri]
      split_ifs
      · rfl
      · exact hdevices (.node object devices)
    rw [searchByDescriptionUri, DeviceServer.searchByDescriptionUri, ← hchild, ← hrest]
    split_ifs
    · rfl
    · cases getDeviceByDescriptionUri (.node object devices) url with
      | some moreChildDev => rfl
      | none => rfl

theorem map_value_getDeviceByDescriptionUri (dev : ServedDevice) (url : Option CString) :
    (getDeviceByDescriptionUri dev url).map RoseTree.value =
      DeviceServer.getDeviceByDescriptionUri dev url := by
  cases dev with
  | node object devices =>
    rw [getDeviceByDescriptionUri, DeviceServer.getDeviceByDescriptionUri]
    split_ifs
    · rfl
    · exact map_value_searchByDescriptionUri _ url devices

/-! ### What the search finds -/

/-- The embedded devices of a device, at any depth. -/
def embeddedDevices (dev : ServedDevice) : List ServedDevice := RoseTree.subtreesIn dev.children

/-- A device has an address as its description address. -/
def HasDescriptionUri (uri : CString) (dev : ServedDevice) : Prop :=
  dev.value.descriptionUri = some uri

instance (uri : CString) (dev : ServedDevice) : Decidable (HasDescriptionUri uri dev) :=
  inferInstanceAs (Decidable (_ = _))

/-- A device that the search stops at: it has the address and holds an embedded device. -/
def isFound (uri : CString) (dev : ServedDevice) : Bool :=
  decide (HasDescriptionUri uri dev) && !dev.children.isEmpty

theorem isFound_iff {uri : CString} {dev : ServedDevice} :
    isFound uri dev = true ↔ HasDescriptionUri uri dev ∧ dev.children ≠ [] := by
  rw [isFound, Bool.and_eq_true, decide_eq_true_eq, Bool.not_eq_true', List.isEmpty_eq_false_iff]

theorem streq_descriptionUri_iff {uri : CString} {dev : ServedDevice} :
    streq dev.value.descriptionUri (some uri) = true ↔ HasDescriptionUri uri dev := by
  rw [streq_eq_true_iff, HasDescriptionUri]
  constructor
  · rintro ⟨str, hdev, huri⟩
    rw [hdev, huri]
  · intro hdev
    exact ⟨uri, hdev, rfl⟩

/-- A device with the address is given back at its first embedded device. -/
theorem searchByDescriptionUri_of_has {uri : CString} {dev : ServedDevice}
    (hdev : HasDescriptionUri uri dev) {devices : List ServedDevice} (hdevices : devices ≠ []) :
    searchByDescriptionUri dev (some uri) devices = some dev := by
  obtain ⟨childDev, rest, rfl⟩ := List.exists_cons_of_ne_nil hdevices
  rw [searchByDescriptionUri, if_pos (streq_descriptionUri_iff.mpr hdev)]

/-- The search below a device without the address. -/
theorem searchByDescriptionUri_of_not_has {uri : CString} (huri : uri ≠ []) {dev : ServedDevice}
    (hdev : ¬ HasDescriptionUri uri dev) (devices : List ServedDevice) :
    searchByDescriptionUri dev (some uri) devices =
      (RoseTree.subtreesIn devices).find? (isFound uri) := by
  induction devices using RoseTree.forest_induction generalizing dev with
  | nil => rfl
  | cons object devices rest hdevices hrest =>
    have hother : ¬ streq dev.value.descriptionUri (some uri) = true :=
      fun heq ↦ hdev (streq_descriptionUri_iff.mp heq)
    rw [searchByDescriptionUri, if_neg hother, getDeviceByDescriptionUri,
      if_neg (not_strlen_some_le_zero huri), hrest hdev, RoseTree.subtreesIn_cons]
    by_cases hchild : HasDescriptionUri uri (.node object devices)
    · by_cases hempty : devices = []
      · subst hempty
        have hfails : ¬ isFound uri (.node object []) = true :=
          fun hfound ↦ (isFound_iff.mp hfound).2 rfl
        rw [searchByDescriptionUri, List.find?_cons_of_neg hfails]
        rfl
      · rw [searchByDescriptionUri_of_has hchild hempty,
          List.find?_cons_of_pos (isFound_iff.mpr ⟨hchild, hempty⟩)]
    · have hfails : ¬ isFound uri (.node object devices) = true :=
        fun hfound ↦ hchild (isFound_iff.mp hfound).1
      rw [hdevices hchild, List.find?_cons_of_neg hfails, List.find?_append,
        RoseTree.children_node]
      cases (RoseTree.subtreesIn devices).find? (isFound uri) with
      | some found => rfl
      | none => rfl

/-- The search finds the first device of the tree that has the address and holds an embedded
device. -/
theorem getDeviceByDescriptionUri_eq_find {uri : CString} (huri : uri ≠ []) (dev : ServedDevice) :
    getDeviceByDescriptionUri dev (some uri) = dev.subtrees.find? (isFound uri) := by
  have hsearch : getDeviceByDescriptionUri dev (some uri) =
      searchByDescriptionUri dev (some uri) dev.children := by
    cases dev with
    | node object devices =>
      rw [getDeviceByDescriptionUri, if_neg (not_strlen_some_le_zero huri), RoseTree.children_node]
  rw [hsearch, RoseTree.subtrees_eq_cons]
  by_cases hfound : isFound uri dev = true
  · obtain ⟨hdev, hdevices⟩ := isFound_iff.mp hfound
    rw [List.find?_cons_of_pos hfound, searchByDescriptionUri_of_has hdev hdevices]
  · rw [List.find?_cons_of_neg hfound]
    by_cases hdev : HasDescriptionUri uri dev
    · have hdevices : dev.children = [] := by
        by_contra hdevices
        exact hfound (isFound_iff.mpr ⟨hdev, hdevices⟩)
      rw [hdevices, searchByDescriptionUri]
      rfl
    · exact searchByDescriptionUri_of_not_has huri hdev dev.children

/-! ### What it is meant to find -/

/-- The lookup finds an embedded device with an address: it gives a device exactly when there is
one, and what it gives is one. -/
structure FindsEmbedded (dev : ServedDevice) (uri : CString) : Prop where
  sound : ∀ found, getDeviceByDescriptionUri dev (some uri) = some found →
    found ∈ embeddedDevices dev ∧ HasDescriptionUri uri found
  complete : (∃ found, getDeviceByDescriptionUri dev (some uri) = some found) ↔
    ∃ embedded ∈ embeddedDevices dev, HasDescriptionUri uri embedded

/-- The lookup finds embedded devices by an address exactly when the device that is asked does not
have the address and an embedded device together, and one of the embedded devices with the address,
if there are any, holds an embedded device of its own. -/
theorem finds_embedded_device_iff (dev : ServedDevice) (uri : CString) (huri : uri ≠ []) :
    FindsEmbedded dev uri ↔
      ¬ (HasDescriptionUri uri dev ∧ dev.children ≠ []) ∧
      ((∃ embedded ∈ embeddedDevices dev, HasDescriptionUri uri embedded) →
        ∃ holder ∈ embeddedDevices dev, HasDescriptionUri uri holder ∧ holder.children ≠ []) := by
  have hfind := getDeviceByDescriptionUri_eq_find huri dev
  rw [RoseTree.subtrees_eq_cons] at hfind
  constructor
  · intro hfinds
    have howner : ¬ (HasDescriptionUri uri dev ∧ dev.children ≠ []) := by
      intro hdev
      rw [List.find?_cons_of_pos (isFound_iff.mpr hdev)] at hfind
      exact RoseTree.not_mem_subtreesIn_children dev (hfinds.sound dev hfind).1
    refine ⟨howner, fun hembedded ↦ ?_⟩
    obtain ⟨found, hfound⟩ := hfinds.complete.mpr hembedded
    have hpasses := hfound
    rw [hfind] at hpasses
    exact ⟨found, (hfinds.sound found hfound).1, isFound_iff.mp (List.find?_some hpasses)⟩
  · rintro ⟨howner, hholder⟩
    have hskips : ¬ isFound uri dev = true := fun hfound ↦ howner (isFound_iff.mp hfound)
    rw [List.find?_cons_of_neg hskips] at hfind
    have hsound : ∀ found, getDeviceByDescriptionUri dev (some uri) = some found →
        found ∈ embeddedDevices dev ∧ HasDescriptionUri uri found := by
      intro found hfound
      rw [hfind] at hfound
      exact ⟨List.mem_of_find?_eq_some hfound, (isFound_iff.mp (List.find?_some hfound)).1⟩
    refine ⟨hsound, ?_, ?_⟩
    · rintro ⟨found, hfound⟩
      exact ⟨found, hsound found hfound⟩
    · intro hembedded
      obtain ⟨holder, hmem, hpasses⟩ := hholder hembedded
      rw [hfind]
      exact Option.isSome_iff_exists.mp
        (List.find?_isSome.mpr ⟨holder, hmem, isFound_iff.mpr hpasses⟩)

/-- A device that is described at an address. -/
def describedAt (uri : String) : ServedObject where
  descriptionUri := some uri.toList
  rootNode := none
  services := []

/-- A root device with an embedded device, each described at an address of its own. -/
def lampInHouse : ServedDevice :=
  .node (describedAt "/house.xml") [.node (describedAt "/lamp.xml") []]

theorem finds_embedded_device_iff_house :
    FindsEmbedded lampInHouse "/house.xml".toList ↔
      ¬ (HasDescriptionUri "/house.xml".toList lampInHouse ∧ lampInHouse.children ≠ []) ∧
      ((∃ embedded ∈ embeddedDevices lampInHouse,
          HasDescriptionUri "/house.xml".toList embedded) →
        ∃ holder ∈ embeddedDevices lampInHouse,
          HasDescriptionUri "/house.xml".toList holder ∧ holder.children ≠ []) :=
  finds_embedded_device_iff lampInHouse "/house.xml".toList (by decide)

/-- An embedded device without embedded devices is not found by its own address. -/
theorem not_finds_embedded_device :
    ¬ ∀ (dev : ServedDevice) (uri : CString), uri ≠ [] → FindsEmbedded dev uri := by
  intro hall
  have hfinds := hall lampInHouse "/lamp.xml".toList (by decide)
  obtain ⟨found, hfound⟩ := hfinds.complete.mpr
    ⟨.node (describedAt "/lamp.xml") [], List.mem_singleton.mpr rfl, rfl⟩
  rw [getDeviceByDescriptionUri_eq_find (by decide)] at hfound
  obtain ⟨hhas, hdevices⟩ := isFound_iff.mp (List.find?_some hfound)
  rcases List.mem_cons.mp (List.mem_of_find?_eq_some hfound) with rfl | hmem
  · exact absurd hhas (by decide)
  · obtain rfl := List.mem_singleton.mp hmem
    exact hdevices rfl

end ServedDevice

end Mupnp.DeviceServer
