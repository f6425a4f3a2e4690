import Mupnp.Foundation.RoseTree
import Mupnp.Ssdp.SsdpPacket

/-!
# Devices of the control point

The device objects that the control point caches, from `device.c`. A device is a tree: an object
with its description, its SSDP packet and its services, and the embedded devices below it. The
parent pointers of the source are the tree structure itself. Every object has an identity that
stands for its address; a pointer to a device is such an identity.

From the description a device keeps its UDN and its type, and a service the five values that
`mupnp_device_hassamestructure` compares; the icons, the service descriptions and the device-side
servers are left out.

`updateFromDevice` is `mupnp_device_updatefromdevice`: `updateFromDevice_ids_perm` says that it
moves the objects of the two trees around without losing or duplicating one,
`updateFromDevice_fst_id_udn` and `updateFromDevice_fst_headers` what it makes of the cached root,
and `updateFromDevice_fst_deviceUdns` which embedded devices the root has afterwards.
-/

set_option autoImplicit false
set_option relaxedAutoImplicit false

namespace Mupnp.Discovery

open Foundation Util Ssdp

/-- The identity of a device object. -/
abbrev DeviceId := ℕ

/-- A service of a cached device with its GENA subscription. -/
structure Service where
  serviceType : Option CString
  serviceId : Option CString
  scpdUrl : Option CString
  controlUrl : Option CString
  eventSubUrl : Option CString
  subscriptionSid : Option CString
  subscriptionTimeout : ℤ
  subscriptionTimestamp : ℤ
  eventKey : BitVec 64
  deriving DecidableEq

/-- What a device object holds besides its embedded devices. -/
structure DeviceObject where
  id : DeviceId
  udn : Option CString
  deviceType : Option CString
  services : List Service
  ssdpPkt : SsdpPacket
  httpPort : ℤ
  deriving DecidableEq

/-- A device with its embedded devices. -/
abbrev Device := RoseTree DeviceObject

namespace Device

def id (dev : Device) : DeviceId := dev.value.id

def udn (dev : Device) : Option CString := dev.value.udn

def deviceType (dev : Device) : Option CString := dev.value.deviceType

def services (dev : Device) : List Service := dev.value.services

def ssdpPkt (dev : Device) : SsdpPacket := dev.value.ssdpPkt

def httpPort (dev : Device) : ℤ := dev.value.httpPort

/-- The embedded devices directly below the device. -/
def devices (dev : Device) : List Device := dev.children

/-- Changes the object at the top and leaves the embedded devices alone. -/
def withObject (dev : Device) (f : DeviceObject → DeviceObject) : Device :=
  .node (f dev.value) dev.children

/-- `mupnp_device_setssdppacket`. -/
def setSsdpPacket (dev : Device) (ssdpPkt : SsdpPacket) (now : ℤ) : Device :=
  dev.withObject fun object ↦ { object with ssdpPkt := object.ssdpPkt.copy ssdpPkt now }

/-- `mupnp_device_sethttpport`. -/
def setHttpPort (dev : Device) (httpPort : ℤ) : Device :=
  dev.withObject fun object ↦ { object with httpPort := httpPort }

end Device

/-- The identities of all objects of a list of devices and of the devices below. -/
def deviceIds (devices : List Device) : List DeviceId :=
  (RoseTree.preorderIn devices).map DeviceObject.id

/-! ### Lookup by UDN -/

mutual

/-- `mupnp_device_getdevicebyudn`: the first embedded device with the UDN. -/
def getDeviceByUdn : Device → Option CString → Option Device
  | .node _ devices, udn => if strlen udn ≤ 0 then none else searchByUdn devices udn

/-- The loop of `mupnp_device_getdevicebyudn` and of `mupnp_controlpoint_getdevicebyudn`: each
device is compared before the devices below it. -/
def searchByUdn : List Device → Option CString → Option Device
  | [], _ => none
  | childDev :: rest, udn =>
    if strcmp childDev.value.udn udn = 0 then some childDev
    else
      match getDeviceByUdn childDev udn with
      | some moreChildDev => some moreChildDev
      | none => searchByUdn rest udn

end

/-- `mupnp_device_findbyudnintree`: the first device of the tree with the UDN, the root included. -/
def findByUdnInTree (dev : Device) (udn : Option CString) : Option Device :=
  if strlen udn ≤ 0 then none
  else dev.subtrees.find? fun found ↦ streq found.value.udn udn

@[simp] theorem strcmp_some_eq_zero_iff {str : Option CString} {udn : CString} :
    strcmp str (some udn) = 0 ↔ str = some udn := by
  rw [strcmp_eq_zero_iff]
  constructor
  · rintro ⟨common, hstr, hudn⟩
    rw [hstr, Option.some.inj hudn]
  · intro hstr
    exact ⟨udn, hstr, rfl⟩

@[simp] theorem searchByUdn_nil (udn : Option CString) : searchByUdn [] udn = none := rfl

/-- A search for a name looks at the devices in the order of the walk and stops at the first one
that has it. -/
theorem searchByUdn_eq_find (devices : List Device) {udn : CString} (hudn : udn ≠ []) :
    searchByUdn devices (some udn) =
      (RoseTree.subtreesIn devices).find? fun dev ↦ decide (dev.value.udn = some udn) := by
  have hlen : ¬ strlen (some udn) ≤ 0 := not_strlen_some_le_zero hudn
  induction devices using RoseTree.forest_induction with
  | nil => rfl
  | cons object children rest hchildren hrest =>
    rw [searchByUdn, RoseTree.subtreesIn_cons, RoseTree.value_node, RoseTree.children_node]
    by_cases hobject : object.udn = some udn
    · rw [if_pos (strcmp_some_eq_zero_iff.mpr hobject),
        List.find?_cons_of_pos (by simp [hobject])]
    · rw [if_neg (mt strcmp_some_eq_zero_iff.mp hobject),
        List.find?_cons_of_neg (by simp [hobject]),
        List.find?_append, getDeviceByUdn, if_neg hlen, hchildren, hrest]
      cases (RoseTree.subtreesIn children).find? fun dev ↦ decide (dev.value.udn = some udn) <;> rfl

/-! ### Updating a cached device from a new description -/

/-- `mupnp_device_optstreq`: two missing or empty values are equal. -/
def optStrEq (a b : Option CString) : Bool :=
  if strlen a ≤ 0 ∨ strlen b ≤ 0 then decide (strlen a ≤ 0 ∧ strlen b ≤ 0) else streq a b

/-- The loop of `mupnp_device_hassamestructure` over the services of two devices. -/
def hasSameServices : List Service → List Service → Bool
  | [], [] => true
  | a :: as, b :: bs =>
    optStrEq a.serviceType b.serviceType && optStrEq a.serviceId b.serviceId &&
      optStrEq a.scpdUrl b.scpdUrl && optStrEq a.controlUrl b.controlUrl &&
      optStrEq a.eventSubUrl b.eventSubUrl && hasSameServices as bs
  | _, _ => false

mutual

/-- `mupnp_device_hassamestructure`: the two trees expose the same devices, services and URLs. -/
def hasSameStructure : Device → Device → Bool
  | .node a devices, b =>
    optStrEq a.udn b.value.udn && optStrEq a.deviceType b.value.deviceType &&
      hasSameServices a.services b.value.services && hasSameStructureIn devices b.children

/-- The loop of `mupnp_device_hassamestructure` over the embedded devices. -/
def hasSameStructureIn : List Device → List Device → Bool
  | [], [] => true
  | a :: as, b :: bs => hasSameStructure a b && hasSameStructureIn as bs
  | _, _ => false

end

/-- `mupnp_service_issubscribed`. -/
def Service.isSubscribed (service : Service) : Bool := 0 < stringLength service.subscriptionSid

/-- The body of the loop of `mupnp_device_copysubscriptions`: the first service of the old device
with the same identifier passes its subscription on when it has one. -/
def copySubscription (oldDev : Option Device) (newService : Service) : Service :=
  match oldDev.bind fun oldDev ↦
    oldDev.services.find? fun oldService ↦ streq oldService.serviceId newService.serviceId with
  | none => newService
  | some oldService =>
    if oldService.isSubscribed then
      { newService with
        subscriptionSid := stringSetValue newService.subscriptionSid oldService.subscriptionSid
        subscriptionTimeout := oldService.subscriptionTimeout
        subscriptionTimestamp := oldService.subscriptionTimestamp
        eventKey := oldService.eventKey }
    else newService

/-- `mupnp_device_copysubscriptions`: every device of the new tree takes the subscriptions of the
device of the old tree that has its UDN. -/
def copySubscriptions (newDev oldRoot : Device) : Device :=
  newDev.map fun object ↦
    { object with
      services := object.services.map (copySubscription (findByUdnInTree oldRoot object.udn)) }

/-- `mupnp_device_swapdescription`: the two objects exchange their descriptions, services and
embedded devices. -/
def swapDescription (dst src : Device) : Device × Device :=
  (.node { dst.value with
      udn := src.value.udn, deviceType := src.value.deviceType, services := src.value.services }
    src.children,
  .node { src.value with
      udn := dst.value.udn, deviceType := dst.value.deviceType, services := dst.value.services }
    dst.children)

/-- `mupnp_device_updatefromdevice`, run at the time `now`: the result, the cached device and what
is left in the new one. -/
def updateFromDevice (dev newDev : Device) (ssdpPkt : SsdpPacket) (now : ℤ) :
    Bool × Device × Device :=
  if !streq newDev.udn dev.udn then (false, dev, newDev)
  else
    let swapped :=
      if !optStrEq dev.ssdpPkt.getConfigId ssdpPkt.getConfigId || !hasSameStructure dev newDev then
        swapDescription dev (copySubscriptions newDev dev)
      else (dev, newDev)
    (true, (swapped.1.setSsdpPacket ssdpPkt now).setHttpPort newDev.httpPort, swapped.2)

/-! ### What an update keeps -/

@[simp] theorem deviceIds_nil : deviceIds [] = [] := rfl

theorem deviceIds_cons (dev : Device) (rest : List Device) :
    deviceIds (dev :: rest) = dev.id :: (deviceIds dev.devices ++ deviceIds rest) := by
  simp [deviceIds, RoseTree.preorderIn_cons, Device.id, Device.devices]

theorem deviceIds_append (first second : List Device) :
    deviceIds (first ++ second) = deviceIds first ++ deviceIds second := by
  simp [deviceIds, RoseTree.preorderIn_append]

theorem id_mem_deviceIds_of_mem_subtreesIn {dev : Device} {devices : List Device}
    (h : dev ∈ RoseTree.subtreesIn devices) : dev.id ∈ deviceIds devices :=
  List.mem_map_of_mem (List.mem_map_of_mem h)

theorem id_mem_deviceIds_of_mem {dev : Device} {devices : List Device} (h : dev ∈ devices) :
    dev.id ∈ deviceIds devices :=
  id_mem_deviceIds_of_mem_subtreesIn (RoseTree.mem_subtreesIn_of_mem h)

theorem deviceIds_copySubscriptions (newDev oldRoot : Device) :
    deviceIds [copySubscriptions newDev oldRoot] = deviceIds [newDev] := by
  have hmap : [copySubscriptions newDev oldRoot] = RoseTree.mapIn (fun object ↦
      { object with
        services := object.services.map (copySubscription (findByUdnInTree oldRoot object.udn)) })
      [newDev] := rfl
  rw [deviceIds, hmap, RoseTree.preorderIn_mapIn, List.map_map]
  rfl

@[simp] theorem udn_copySubscriptions (newDev oldRoot : Device) :
    (copySubscriptions newDev oldRoot).udn = newDev.udn := by
  simp [copySubscriptions, Device.udn]

@[simp] theorem id_copySubscriptions (newDev oldRoot : Device) :
    (copySubscriptions newDev oldRoot).id = newDev.id := by
  simp [copySubscriptions, Device.id]

/-- A swap moves the objects of two trees around without losing or duplicating one. -/
theorem swapDescription_ids_perm (dst src : Device) :
    (deviceIds [(swapDescription dst src).1] ++ deviceIds [(swapDescription dst src).2]).Perm
      (deviceIds [dst] ++ deviceIds [src]) := by
  simp only [deviceIds_cons, deviceIds_nil, List.append_nil]
  refine List.Perm.cons _ (List.perm_middle.trans (List.Perm.trans ?_ List.perm_middle.symm))
  exact List.Perm.cons _ List.perm_append_comm

/-- An update that is refused leaves the two devices as they were. -/
theorem updateFromDevice_of_ne {dev newDev : Device} (hudn : streq newDev.udn dev.udn = false)
    (ssdpPkt : SsdpPacket) (now : ℤ) :
    updateFromDevice dev newDev ssdpPkt now = (false, dev, newDev) := by
  simp [updateFromDevice, hudn]

/-- The cached root keeps its identity and its UDN in an update. -/
theorem updateFromDevice_fst_id_udn (dev newDev : Device) (ssdpPkt : SsdpPacket) (now : ℤ) :
    (updateFromDevice dev newDev ssdpPkt now).2.1.id = dev.id ∧
      (updateFromDevice dev newDev ssdpPkt now).2.1.udn = dev.udn := by
  by_cases hudn : streq newDev.udn dev.udn = true
  · obtain ⟨udn, hnew, hold⟩ := streq_eq_true_iff.mp hudn
    rw [updateFromDevice, if_neg (by simp [hudn])]
    split_ifs with hchanged
    · refine ⟨rfl, ?_⟩
      calc (copySubscriptions newDev dev).udn = newDev.udn := udn_copySubscriptions newDev dev
        _ = dev.udn := hnew.trans hold.symm
    · exact ⟨rfl, rfl⟩
  · rw [updateFromDevice_of_ne (by simpa using hudn)]
    exact ⟨rfl, rfl⟩

/-- After an update that is not refused, the cached root has the headers of the packet. -/
theorem updateFromDevice_fst_headers {dev newDev : Device} (hudn : streq newDev.udn dev.udn = true)
    (ssdpPkt : SsdpPacket) (now : ℤ) :
    (updateFromDevice dev newDev ssdpPkt now).2.1.ssdpPkt.headers = ssdpPkt.headers := by
  rw [updateFromDevice, if_neg (by simp [hudn])]
  rfl

/-- The names in a tree, in the order of the walk. -/
def deviceUdns (devices : List Device) : List (Option CString) :=
  (RoseTree.preorderIn devices).map DeviceObject.udn

theorem deviceUdns_copySubscriptions (newDev oldRoot : Device) :
    deviceUdns (copySubscriptions newDev oldRoot).devices = deviceUdns newDev.devices := by
  rw [deviceUdns, Device.devices, copySubscriptions, RoseTree.children_map,
    RoseTree.preorderIn_mapIn,
    List.map_map]
  rfl

/-- After an update, the embedded devices of the cached root have the names they had before, or
those of the new description. -/
theorem updateFromDevice_fst_deviceUdns (dev newDev : Device) (ssdpPkt : SsdpPacket) (now : ℤ) :
    deviceUdns (updateFromDevice dev newDev ssdpPkt now).2.1.devices = deviceUdns dev.devices ∨
      deviceUdns (updateFromDevice dev newDev ssdpPkt now).2.1.devices =
        deviceUdns newDev.devices := by
  by_cases hudn : streq newDev.udn dev.udn = true
  · rw [updateFromDevice, if_neg (by simp [hudn])]
    split_ifs with hchanged
    · exact Or.inr (deviceUdns_copySubscriptions newDev dev)
    · exact Or.inl rfl
  · rw [updateFromDevice_of_ne (by simpa using hudn)]
    exact Or.inl rfl

/-- An update keeps every object in exactly one of the two trees. -/
theorem updateFromDevice_ids_perm (dev newDev : Device) (ssdpPkt : SsdpPacket) (now : ℤ) :
    (deviceIds [(updateFromDevice dev newDev ssdpPkt now).2.1] ++
        deviceIds [(updateFromDevice dev newDev ssdpPkt now).2.2]).Perm
      (deviceIds [dev] ++ deviceIds [newDev]) := by
  have htop : ∀ (top : Device) (port : ℤ),
      deviceIds [(top.setSsdpPacket ssdpPkt now).setHttpPort port] = deviceIds [top] := by
    intro top port
    rw [deviceIds_cons, deviceIds_cons]
    rfl
  by_cases hudn : streq newDev.udn dev.udn = true
  · rw [updateFromDevice, if_neg (by simp [hudn])]
    split_ifs with hchanged
    · rw [htop]
      refine (swapDescription_ids_perm dev (copySubscriptions newDev dev)).trans ?_
      rw [deviceIds_copySubscriptions]
    · rw [htop]
  · rw [updateFromDevice_of_ne (by simpa using hudn)]

end Mupnp.Discovery
