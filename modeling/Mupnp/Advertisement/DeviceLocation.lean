import Mupnp.Advertisement.DeviceSsdp
import Mupnp.Util.LongString

/-!
# The location that a device advertises

The description URI and the HTTP port of each device of a tree: how they are set when a description
is parsed (`mupnp_device_initdevicelist`), what `mupnp_device_start` does with the port, and the
LOCATION that the datagrams of `mupnp_device_announcefrom` and `mupnp_device_postsearchresponse`
carry. A device announces its own location, and a service that of the root device.

`oneLocation_iff` says when all of them are the location of the root device at the port that the
HTTP servers are bound to. A device that is started on the port it had when its description was
parsed has one location (`oneLocation_of_parse`).
-/

set_option autoImplicit false
set_option relaxedAutoImplicit false

namespace Mupnp.Advertisement

open Foundation Util Net

/-- A device with its description URI and its HTTP port. -/
structure LocatedDevice extends DeviceEntry where
  descriptionUri : CString
  httpPort : ℤ
  deriving DecidableEq

abbrev LocatedTree := RoseTree LocatedDevice

/-- A tree without its locations. -/
def entries (root : LocatedTree) : DeviceTree := root.relabel LocatedDevice.toDeviceEntry

/-! ### Addresses -/

/-- What `mupnp_net_gethosturl` writes before the port: the zone index of an IPv6 address follows
an escaped percent sign. -/
def hostUrlStart (host : CString) : CString :=
  "http://".toList ++
    (if isIpv6Address (some host) then
        let zone := host.dropWhile (· ≠ '%')
        "[".toList ++ host.takeWhile (· ≠ '%') ++
          (if zone = [] then [] else "%25".toList ++ zone.tail) ++ "]".toList
      else host) ++ ":".toList

/-- What `mupnp_net_gethosturl` writes. -/
def hostUrl (host : CString) (port : ℤ) (uri : CString) : CString :=
  hostUrlStart host ++ (long2str port ++ uri)

/-- `mupnp_device_getlocationurl`, into a line buffer. -/
def LocatedDevice.getLocationUrl (dev : LocatedDevice) (host : CString) : CString :=
  lineBuffer (hostUrl host dev.httpPort dev.descriptionUri)

/-! ### Descriptions -/

mutual

/-- `mupnp_device_setdevicenode` for a device with a description URI and an HTTP port. -/
def setDeviceNode (descriptionUri : CString) (httpPort : ℤ) : DeviceTree → LocatedTree
  | .node entry devices =>
    .node ⟨entry, descriptionUri, httpPort⟩ (initDeviceList descriptionUri httpPort devices)

/-- `mupnp_device_initdevicelist`: each new device gets the description URI and the HTTP port of its
parent. -/
def initDeviceList (descriptionUri : CString) (httpPort : ℤ) : List DeviceTree → List LocatedTree
  | [] => []
  | childNode :: rest =>
    setDeviceNode descriptionUri httpPort childNode :: initDeviceList descriptionUri httpPort rest

end

/-- `mupnp_device_parsedescription`, of a description that is read: a device keeps its own
description URI and HTTP port. -/
def parseDescription (dev : LocatedDevice) (description : DeviceTree) : LocatedTree :=
  setDeviceNode dev.descriptionUri dev.httpPort description

/-! ### Starting -/

/-- `mupnp_device_sethttpport`. -/
def setHttpPort (root : LocatedTree) (httpPort : ℤ) : LocatedTree :=
  .node { root.value with httpPort := httpPort } root.children

/-- `mupnp_device_start` as far as it finds a port, for at most `turns` attempts: the device and the
port that `mupnp_http_serverlist_open` has bound its servers to. `opens` says for which ports that
succeeds. -/
def start (opens : ℤ → Bool) : (turns : ℕ) → LocatedTree → Option (LocatedTree × ℤ)
  | 0, _ => none
  | turns + 1, root =>
    if opens root.value.httpPort = true then some (root, root.value.httpPort)
    else start opens turns (setHttpPort root (root.value.httpPort + 1))

/-! ### Datagrams -/

mutual

/-- `mupnp_device_announcefrom`, with the LOCATION of each datagram. -/
def aliveFrom (bindAddr : CString) (rootDev : LocatedDevice) (isRootDevice : Bool) :
    LocatedTree → List (SsdpPair × CString)
  | .node dev devices =>
    (if isRootDevice = true then
        [((dev.getNotifyDeviceNt isRootDevice, dev.getNotifyDeviceUsn isRootDevice),
          dev.getLocationUrl bindAddr)]
      else []) ++
      [((dev.getNotifyDeviceTypeNt, dev.getNotifyDeviceTypeUsn), dev.getLocationUrl bindAddr),
        ((dev.udn, dev.udn), dev.getLocationUrl bindAddr)] ++
      dev.serviceTypes.map (fun serviceType ↦
        (serviceAnnounceFrom dev.toDeviceEntry serviceType, rootDev.getLocationUrl bindAddr)) ++
      aliveFromIn bindAddr rootDev devices

/-- The loop of `mupnp_device_announcefrom` over the embedded devices. -/
def aliveFromIn (bindAddr : CString) (rootDev : LocatedDevice) :
    List LocatedTree → List (SsdpPair × CString)
  | [] => []
  | childDev :: rest =>
    aliveFrom bindAddr rootDev false childDev ++ aliveFromIn bindAddr rootDev rest

end

/-- The alive announcements of a device tree from an address. -/
def alive (root : LocatedTree) (bindAddr : CString) : List (SsdpPair × CString) :=
  aliveFrom bindAddr root.value true root

/-- The responses to a search that came in at an address: `mupnp_device_postsearchresponse` puts the
location of the root device into each. -/
def locatedResponses (root : LocatedTree) (localAddr : CString) (ssdpCount : ℕ)
    (ssdpPkt : SearchRequest) (isDuplicate : Bool) : List (SsdpPair × CString) :=
  (searchResponses (entries root) ssdpCount ssdpPkt isDuplicate).map fun pair ↦
    (pair, root.value.getLocationUrl localAddr)

/-- The announcements are the ones of the tree without its locations. -/
theorem map_fst_alive (root : LocatedTree) (bindAddr : CString) :
    (alive root bindAddr).map Prod.fst = announceFrom true (entries root) := by
  have hwalk : ∀ trees : List LocatedTree,
      (aliveFromIn bindAddr root.value trees).map Prod.fst =
        announceFromIn (RoseTree.relabelIn LocatedDevice.toDeviceEntry trees) := by
    intro trees
    induction trees using RoseTree.forest_induction with
    | nil => rfl
    | cons dev devices rest ihDevices ihRest =>
      simp [aliveFromIn, aliveFrom, RoseTree.relabelIn, RoseTree.relabel, announceFromIn,
        announceFrom, ihDevices, ihRest, Function.comp_def]
  obtain ⟨dev, devices⟩ := root
  simp only [RoseTree.value_node] at hwalk
  simp [alive, aliveFrom, entries, RoseTree.relabel, announceFrom, hwalk, Function.comp_def]

/-! ### One location -/

/-- The LOCATION of every alive announcement from an address and of every response to a search that
came in there is the URL of the address, the port and the description URI of the root device, if
the line buffer has room for it. -/
def OneLocation (root : LocatedTree) (port : ℤ) (address : CString) : Prop :=
  let location := hostUrl address port root.value.descriptionUri
  location.length < ssdpHeaderLineMaxSize →
    (∀ datagram ∈ alive root address, datagram.2 = location) ∧
      ∀ ssdpCount ssdpPkt isDuplicate,
        ∀ datagram ∈ locatedResponses root address ssdpCount ssdpPkt isDuplicate,
          datagram.2 = location

/-- The room that the line buffer has for the port and the description URI. -/
def locationRoom (address : CString) : ℕ :=
  ssdpHeaderLineMaxSize - 1 - (hostUrlStart address).length

/-- The port and the description URI of a device are written as these ones, as far as there is
room. -/
def IsPlacedAt (address : CString) (port : ℤ) (uri : CString) (dev : LocatedDevice) : Prop :=
  (long2str dev.httpPort ++ dev.descriptionUri).take (locationRoom address) = long2str port ++ uri

instance (address : CString) (port : ℤ) (uri : CString) (dev : LocatedDevice) :
    Decidable (IsPlacedAt address port uri dev) := inferInstanceAs (Decidable (_ = _))

theorem getLocationUrl_eq_iff {address uri : CString} {port : ℤ}
    (hfits : (hostUrl address port uri).length < ssdpHeaderLineMaxSize) (dev : LocatedDevice) :
    dev.getLocationUrl address = hostUrl address port uri ↔ IsPlacedAt address port uri dev := by
  have hstart : (hostUrlStart address).length ≤ ssdpHeaderLineMaxSize - 1 := by
    rw [hostUrl, List.length_append] at hfits
    omega
  rw [LocatedDevice.getLocationUrl, lineBuffer, hostUrl, hostUrl, IsPlacedAt, locationRoom,
    List.take_append, List.take_of_length_le hstart, List.append_cancel_left_eq]

/-- A device with this port and this description URI is placed there. -/
theorem isPlacedAt_self {address : CString} {dev : LocatedDevice}
    (hfits : (hostUrl address dev.httpPort dev.descriptionUri).length < ssdpHeaderLineMaxSize) :
    IsPlacedAt address dev.httpPort dev.descriptionUri dev := by
  rw [hostUrl, List.length_append] at hfits
  refine List.take_of_length_le ?_
  rw [locationRoom]
  omega

/-- The datagrams of a list of trees have one location when its devices have it. -/
theorem aliveFromIn_location_iff {address location : CString} {rootDev : LocatedDevice}
    (hroot : rootDev.getLocationUrl address = location) (trees : List LocatedTree) :
    (∀ datagram ∈ aliveFromIn address rootDev trees, datagram.2 = location) ↔
      ∀ dev ∈ RoseTree.preorderIn trees, dev.getLocationUrl address = location := by
  induction trees using RoseTree.forest_induction with
  | nil => exact iff_of_true (fun _ h ↦ by cases h) (fun _ h ↦ by cases h)
  | cons dev devices rest ihDevices ihRest =>
    rw [RoseTree.preorderIn_cons, List.forall_mem_cons, List.forall_mem_append,
      RoseTree.value_node, RoseTree.children_node, ← ihDevices, ← ihRest, aliveFromIn, aliveFrom,
      List.forall_mem_append, List.forall_mem_append, List.forall_mem_append,
      List.forall_mem_map]
    simp [hroot, and_assoc]

/-- The announcements of a tree have one location when its devices have it. -/
theorem alive_location_iff {address location : CString} {root : LocatedTree}
    (hroot : root.value.getLocationUrl address = location) :
    (∀ datagram ∈ alive root address, datagram.2 = location) ↔
      ∀ dev ∈ RoseTree.preorderIn root.children, dev.getLocationUrl address = location := by
  obtain ⟨dev, devices⟩ := root
  rw [RoseTree.value_node] at hroot
  rw [alive, aliveFrom, List.forall_mem_append, List.forall_mem_append, List.forall_mem_append,
    List.forall_mem_map, RoseTree.value_node, aliveFromIn_location_iff hroot,
    RoseTree.children_node]
  simp [hroot]

/-! ### The run -/

/-- A start that succeeds sets the port of the root device to the one that is bound, and nothing
else. -/
theorem start_spec {opens : ℤ → Bool} {turns : ℕ} {root started : LocatedTree} {port : ℤ}
    (h : start opens turns root = some (started, port)) :
    started = setHttpPort root port ∧ opens port = true ∧ root.value.httpPort ≤ port ∧
      ∀ failed, root.value.httpPort ≤ failed → failed < port → opens failed = false := by
  induction turns generalizing root with
  | zero => cases h
  | succ turns ih =>
    rw [start] at h
    split_ifs at h with hopens
    · obtain ⟨rfl, rfl⟩ := Prod.mk.inj (Option.some.inj h)
      obtain ⟨dev, devices⟩ := root
      refine ⟨rfl, hopens, Int.le_refl _, fun failed hle hlt ↦ ?_⟩
      exact absurd hlt (Int.not_lt.mpr hle)
    · obtain ⟨hstarted, hport, hle, hfailed⟩ := ih h
      have hnext : (setHttpPort root (root.value.httpPort + 1)).value.httpPort =
          root.value.httpPort + 1 := rfl
      rw [hnext] at hle hfailed
      refine ⟨hstarted, hport, by omega, fun failed hfirst hlt ↦ ?_⟩
      by_cases heq : failed = root.value.httpPort
      · rw [heq]
        exact Bool.not_eq_true _ ▸ hopens
      · exact hfailed failed (by omega) hlt

/-- A device whose port was set has one location exactly when its embedded devices are placed at
it. -/
theorem oneLocation_setHttpPort_iff (root : LocatedTree) (port : ℤ) (address : CString) :
    OneLocation (setHttpPort root port) port address ↔
      ((hostUrl address port root.value.descriptionUri).length < ssdpHeaderLineMaxSize →
        ∀ dev ∈ RoseTree.preorderIn root.children,
          IsPlacedAt address port root.value.descriptionUri dev) := by
  refine imp_congr_right fun hfits ↦ ?_
  have hfits' : (hostUrl address port root.value.descriptionUri).length < ssdpHeaderLineMaxSize :=
    hfits
  have hroot : (setHttpPort root port).value.getLocationUrl address =
      hostUrl address port root.value.descriptionUri :=
    (getLocationUrl_eq_iff hfits' _).mpr
      (@isPlacedAt_self address (setHttpPort root port).value hfits')
  have hresponses : ∀ ssdpCount ssdpPkt isDuplicate,
      ∀ datagram ∈ locatedResponses (setHttpPort root port) address ssdpCount ssdpPkt isDuplicate,
        datagram.2 = hostUrl address port root.value.descriptionUri := by
    intro ssdpCount ssdpPkt isDuplicate datagram hmem
    obtain ⟨pair, -, rfl⟩ := List.mem_map.mp hmem
    exact hroot
  exact (and_iff_left hresponses).trans ((alive_location_iff hroot).trans
    (forall₂_congr fun dev _ ↦ getLocationUrl_eq_iff hfits' dev))

/-- Each device of a description has the description URI and the port that the root device had when
it was parsed. -/
theorem mem_initDeviceList {descriptionUri : CString} {httpPort : ℤ} (trees : List DeviceTree) :
    ∀ dev ∈ RoseTree.preorderIn (initDeviceList descriptionUri httpPort trees),
      dev.descriptionUri = descriptionUri ∧ dev.httpPort = httpPort := by
  induction trees using RoseTree.forest_induction with
  | nil => exact fun dev hdev ↦ by cases hdev
  | cons entry devices rest ihDevices ihRest =>
    rw [initDeviceList, setDeviceNode, RoseTree.preorderIn_cons, List.forall_mem_cons,
      List.forall_mem_append]
    exact ⟨⟨rfl, rfl⟩, ihDevices, ihRest⟩

/-- A device that is started with its first attempt, on the port it had when its description was
parsed, has one location. -/
theorem oneLocation_of_parse {opens : ℤ → Bool} {turns : ℕ} {dev : LocatedDevice}
    {description : DeviceTree} {started : LocatedTree}
    (hstart : start opens turns (parseDescription dev description) = some (started, dev.httpPort))
    (address : CString) : OneLocation started dev.httpPort address := by
  obtain ⟨entry, devices⟩ := description
  obtain ⟨rfl, -⟩ := start_spec hstart
  refine (oneLocation_setHttpPort_iff _ _ address).mpr fun hfits embedded hembedded ↦ ?_
  obtain ⟨huri, hport⟩ := mem_initDeviceList devices embedded hembedded
  have hself := @isPlacedAt_self address embedded (by rwa [huri, hport])
  rwa [huri, hport] at hself

/-- A device that was started has one location at an address exactly when the URL does not fit, or
each embedded device has the port that was bound and the description URI of the root device. -/
theorem oneLocation_iff {opens : ℤ → Bool} {turns : ℕ} {root started : LocatedTree} {port : ℤ}
    (hstart : start opens turns root = some (started, port)) (address : CString) :
    OneLocation started port address ↔
      ((hostUrl address port root.value.descriptionUri).length < ssdpHeaderLineMaxSize →
        ∀ dev ∈ RoseTree.preorderIn root.children,
          IsPlacedAt address port root.value.descriptionUri dev) := by
  obtain ⟨rfl, -⟩ := start_spec hstart
  exact oneLocation_setHttpPort_iff root port address

/-- A root device with an embedded device, as `mupnp_device_new` sets its description URI and its
port. -/
def embeddedRoot : LocatedTree :=
  parseDescription ⟨⟨[], [], []⟩, "/description.xml".toList, 38400⟩
    (.node ⟨"uuid:a".toList, "urn:d".toList, []⟩ [.node ⟨"uuid:b".toList, "urn:e".toList, []⟩ []])

theorem oneLocation_iff_embeddedRoot : OneLocation embeddedRoot 38400 "10.0.0.1".toList :=
  (@oneLocation_iff (fun _ ↦ true) 1 embeddedRoot embeddedRoot 38400 rfl "10.0.0.1".toList).mpr
    fun _ ↦ by decide +kernel

/-- The embedded device is announced with a port that was already in use. -/
theorem not_oneLocation :
    ¬ ∀ (opens : ℤ → Bool) (turns : ℕ) (root started : LocatedTree) (port : ℤ) (address : CString),
      start opens turns root = some (started, port) → OneLocation started port address := by
  intro h
  have hone := h (fun port ↦ decide (port ≠ 38400)) 2 embeddedRoot (setHttpPort embeddedRoot 38401)
    38401 "10.0.0.1".toList (by decide +kernel)
  have hplaced := (oneLocation_setHttpPort_iff embeddedRoot 38401 "10.0.0.1".toList).mp hone
    (by decide +kernel)
  exact absurd hplaced (by decide +kernel)

end Mupnp.Advertisement
