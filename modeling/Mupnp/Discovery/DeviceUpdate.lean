import Mathlib.Data.List.Nodup
import Mupnp.Discovery.Device

/-!
# An update of a cached device keeps the subscriptions

`mupnp_device_updatefromdevice` with the pointers that `mupnp_device_swapdescription` sets again:
every device knows its parent and every service the device that holds it. A `LinkedDevice` is a
device of the control point with these pointers, and `unlinked` forgets them
(`unlinked_updateFromDevice_fst`).

`hasSameStructure_iff` says what the comparison of two trees compares: their outlines, in which a
missing value and an empty one are the same. An update is refused when the names of the roots differ,
and otherwise leaves the outline of the new tree and consistent pointers. Its subscriptions are
exactly those of the services that both trees have as long as these have identifiers
(`updatesKeepingSubscriptions_iff`): the comparison takes two missing identifiers for the same one,
and the copy of the subscriptions does not.
-/

set_option autoImplicit false
set_option relaxedAutoImplicit false

namespace Mupnp.Discovery

open Foundation Util Ssdp

/-! ### Devices with their pointers -/

/-- A service with the pointer to the device that holds it. -/
structure LinkedService extends Service where
  parentDev : Option DeviceId
  deriving DecidableEq

/-- What a device object holds besides its embedded devices, with the pointer to its parent. -/
structure LinkedObject where
  id : DeviceId
  udn : Option CString
  deviceType : Option CString
  services : List LinkedService
  ssdpPkt : SsdpPacket
  httpPort : ℤ
  parentDev : Option DeviceId
  deriving DecidableEq

/-- The object without its pointers. -/
def LinkedObject.unlinked (object : LinkedObject) : DeviceObject where
  id := object.id
  udn := object.udn
  deviceType := object.deviceType
  services := object.services.map LinkedService.toService
  ssdpPkt := object.ssdpPkt
  httpPort := object.httpPort

/-- A device with its embedded devices and their pointers. -/
abbrev LinkedDevice := RoseTree LinkedObject

namespace LinkedDevice

/-- The device without its pointers. -/
def unlinked (dev : LinkedDevice) : Device := dev.relabel LinkedObject.unlinked

/-- Changes the object at the top and leaves the embedded devices alone. -/
def withObject (dev : LinkedDevice) (f : LinkedObject → LinkedObject) : LinkedDevice :=
  .node (f dev.value) dev.children

/-- `mupnp_device_setparentdevice`. -/
def setParentDevice (dev : LinkedDevice) (parentDev : Option DeviceId) : LinkedDevice :=
  dev.withObject fun object ↦ { object with parentDev := parentDev }

/-- `mupnp_device_copysubscriptions`. -/
def copySubscriptions (newDev oldRoot : LinkedDevice) : LinkedDevice :=
  newDev.map fun object ↦
    { object with
      services := object.services.map fun service ↦
        { service with
          toService := copySubscription (findByUdnInTree oldRoot.unlinked object.udn)
            service.toService } }

/-- The device with the description of another one: its services and its embedded devices point to
the device from now on. -/
def withDescription (dev src : LinkedDevice) : LinkedDevice :=
  .node { dev.value with
      udn := src.value.udn
      deviceType := src.value.deviceType
      services := src.value.services.map fun service ↦
        { service with parentDev := some dev.value.id } }
    (src.children.map fun childDev ↦ setParentDevice childDev (some dev.value.id))

/-- `mupnp_device_swapdescription`. -/
def swapDescription (dst src : LinkedDevice) : LinkedDevice × LinkedDevice :=
  (withDescription dst src, withDescription src dst)

/-- `mupnp_device_updatefromdevice`, run at the time `now`: the result, the cached device and what
is left in the new one. -/
def updateFromDevice (dev newDev : LinkedDevice) (ssdpPkt : SsdpPacket) (now : ℤ) :
    Bool × LinkedDevice × LinkedDevice :=
  if !streq newDev.value.udn dev.value.udn then (false, dev, newDev)
  else
    let swapped :=
      if !optStrEq dev.value.ssdpPkt.getConfigId ssdpPkt.getConfigId ||
          !hasSameStructure dev.unlinked newDev.unlinked then
        swapDescription dev (copySubscriptions newDev dev)
      else (dev, newDev)
    (true,
      swapped.1.withObject fun object ↦
        { object with
          ssdpPkt := object.ssdpPkt.copy ssdpPkt now, httpPort := newDev.value.httpPort },
      swapped.2)

/-! ### Forgetting the pointers -/

theorem unlinked_setParentDevice (dev : LinkedDevice) (parentDev : Option DeviceId) :
    unlinked (dev.setParentDevice parentDev) = dev.unlinked := by
  cases dev
  rfl

theorem unlinked_copySubscriptions (newDev oldRoot : LinkedDevice) :
    unlinked (copySubscriptions newDev oldRoot) =
      Discovery.copySubscriptions newDev.unlinked oldRoot.unlinked := by
  refine RoseTree.relabel_map (fun object ↦ ?_) newDev
  simp only [LinkedObject.unlinked, List.map_map]
  rfl

theorem unlinked_withDescription (dev src : LinkedDevice) :
    unlinked (withDescription dev src) =
      (Discovery.swapDescription dev.unlinked src.unlinked).1 := by
  have hservices : (src.value.services.map fun service ↦
      { service with parentDev := some dev.value.id }).map LinkedService.toService =
        src.value.services.map LinkedService.toService := by
    rw [List.map_map]
    rfl
  have hdevices : RoseTree.relabelIn LinkedObject.unlinked
      (src.children.map fun childDev ↦ setParentDevice childDev (some dev.value.id)) =
        RoseTree.relabelIn LinkedObject.unlinked src.children := by
    rw [RoseTree.relabelIn_eq_map, RoseTree.relabelIn_eq_map, List.map_map]
    exact List.map_congr_left fun childDev _ ↦ unlinked_setParentDevice childDev _
  simp only [unlinked, withDescription, Discovery.swapDescription, RoseTree.relabel,
    RoseTree.value_relabel, RoseTree.children_relabel, LinkedObject.unlinked, hservices, hdevices]

theorem unlinked_withObject_ssdpPkt (dev : LinkedDevice) (ssdpPkt : SsdpPacket) (httpPort now : ℤ) :
    unlinked (dev.withObject fun object ↦
        { object with ssdpPkt := object.ssdpPkt.copy ssdpPkt now, httpPort := httpPort }) =
      (dev.unlinked.setSsdpPacket ssdpPkt now).setHttpPort httpPort := by
  cases dev
  rfl

/-- The result of an update and what it makes of the cached device do not depend on the pointers. -/
theorem unlinked_updateFromDevice_fst (dev newDev : LinkedDevice) (ssdpPkt : SsdpPacket) (now : ℤ) :
    ((dev.updateFromDevice newDev ssdpPkt now).1,
        (dev.updateFromDevice newDev ssdpPkt now).2.1.unlinked) =
      ((Discovery.updateFromDevice dev.unlinked newDev.unlinked ssdpPkt now).1,
        (Discovery.updateFromDevice dev.unlinked newDev.unlinked ssdpPkt now).2.1) := by
  have hudn : ∀ tree : LinkedDevice, tree.unlinked.udn = tree.value.udn := fun tree ↦ by
    cases tree
    rfl
  have hport : newDev.unlinked.httpPort = newDev.value.httpPort := by
    cases newDev
    rfl
  have hconfig : dev.unlinked.ssdpPkt = dev.value.ssdpPkt := by
    cases dev
    rfl
  unfold updateFromDevice Discovery.updateFromDevice
  rw [hudn, hudn, hport, hconfig]
  split_ifs with hne hchanged
  · rfl
  · simp only [unlinked_withObject_ssdpPkt, swapDescription, unlinked_withDescription,
      unlinked_copySubscriptions]
  · simp only [unlinked_withObject_ssdpPkt]

/-! ### Consistent pointers -/

/-- In a tree with consistent pointers, every service points to its device and every embedded device
to the one above it. -/
def IsLinked (dev : LinkedDevice) : Prop :=
  ∀ holder ∈ dev.subtrees,
    (∀ service ∈ holder.value.services, service.parentDev = some holder.value.id) ∧
      ∀ childDev ∈ holder.children, childDev.value.parentDev = some holder.value.id

instance (dev : LinkedDevice) : Decidable dev.IsLinked :=
  inferInstanceAs (Decidable (∀ holder ∈ dev.subtrees,
    (∀ service ∈ holder.value.services, service.parentDev = some holder.value.id) ∧
      ∀ childDev ∈ holder.children, childDev.value.parentDev = some holder.value.id))

/-- The pointers of a tree are consistent when those of the object at the top are and the trees
below it have consistent pointers. -/
theorem isLinked_iff {dev : LinkedDevice} :
    dev.IsLinked ↔ ((∀ service ∈ dev.value.services, service.parentDev = some dev.value.id) ∧
        ∀ childDev ∈ dev.children, childDev.value.parentDev = some dev.value.id) ∧
      ∀ holder ∈ RoseTree.subtreesIn dev.children,
        (∀ service ∈ holder.value.services, service.parentDev = some holder.value.id) ∧
          ∀ childDev ∈ holder.children, childDev.value.parentDev = some holder.value.id := by
  unfold IsLinked
  rw [RoseTree.subtrees_eq_cons]
  exact List.forall_mem_cons

/-- Setting the parent of the trees of a list leaves what is below them. -/
theorem mem_subtreesIn_setParentDevice {holder : LinkedDevice} {devices : List LinkedDevice}
    {parentDev : Option DeviceId}
    (h : holder ∈ RoseTree.subtreesIn (devices.map fun dev ↦ setParentDevice dev parentDev)) :
    ∃ holder' ∈ RoseTree.subtreesIn devices, holder.value.id = holder'.value.id ∧
      holder.value.services = holder'.value.services ∧ holder.children = holder'.children := by
  induction devices with
  | nil => exact absurd h List.not_mem_nil
  | cons dev rest ih =>
    rw [List.map_cons, RoseTree.subtreesIn_cons] at h
    rw [RoseTree.subtreesIn_cons]
    rcases List.mem_cons.mp h with rfl | h
    · exact ⟨dev, List.mem_cons_self, rfl, rfl, rfl⟩
    · rcases List.mem_append.mp h with h | h
      · exact ⟨holder, List.mem_cons_of_mem _ (List.mem_append_left _ h), rfl, rfl, rfl⟩
      · obtain ⟨holder', hmem, heq⟩ := ih h
        exact ⟨holder', List.mem_cons_of_mem _ (List.mem_append_right _ hmem), heq⟩

/-- A device that takes over a description has consistent pointers. -/
theorem isLinked_withDescription (dev : LinkedDevice) {src : LinkedDevice} (hsrc : src.IsLinked) :
    (withDescription dev src).IsLinked := by
  obtain ⟨-, hbelow⟩ := isLinked_iff.mp hsrc
  refine isLinked_iff.mpr ⟨⟨?_, ?_⟩, ?_⟩
  · intro service hservice
    obtain ⟨service', -, rfl⟩ := List.mem_map.mp hservice
    rfl
  · intro childDev hchild
    obtain ⟨childDev', -, rfl⟩ := List.mem_map.mp hchild
    rfl
  · intro holder hholder
    obtain ⟨holder', hmem, hid, hservices, hchildren⟩ := mem_subtreesIn_setParentDevice hholder
    rw [hid, hservices, hchildren]
    exact hbelow holder' hmem

/-- Copying subscriptions does not touch the pointers. -/
theorem isLinked_copySubscriptions {newDev : LinkedDevice} (hnew : newDev.IsLinked)
    (oldRoot : LinkedDevice) : (copySubscriptions newDev oldRoot).IsLinked := by
  intro holder hholder
  unfold copySubscriptions at hholder
  rw [← RoseTree.subtreesIn_singleton, ← RoseTree.mapIn_singleton, RoseTree.subtreesIn_mapIn,
    RoseTree.subtreesIn_singleton] at hholder
  obtain ⟨holder', hmem, rfl⟩ := List.mem_map.mp hholder
  obtain ⟨hservices, hchildren⟩ := hnew holder' hmem
  rw [RoseTree.value_map, RoseTree.children_map, RoseTree.mapIn_eq_map]
  constructor
  · intro service hservice
    obtain ⟨service', hservice', rfl⟩ := List.mem_map.mp hservice
    exact hservices service' hservice'
  · intro childDev hchild
    obtain ⟨childDev', hchild', rfl⟩ := List.mem_map.mp hchild
    rw [RoseTree.value_map]
    exact hchildren childDev' hchild'

/-- An update is refused when the names of the roots differ. -/
theorem updateFromDevice_of_udn_ne {dev newDev : LinkedDevice}
    (hne : newDev.value.udn ≠ dev.value.udn) (ssdpPkt : SsdpPacket) (now : ℤ) :
    dev.updateFromDevice newDev ssdpPkt now = (false, dev, newDev) := by
  have hstreq : streq newDev.value.udn dev.value.udn = false := by
    rw [Bool.eq_false_iff]
    intro hstreq
    obtain ⟨udn, hudn, hudn'⟩ := streq_eq_true_iff.mp hstreq
    exact hne (hudn.trans hudn'.symm)
  unfold updateFromDevice
  rw [if_pos (by simp [hstreq])]

/-- An update leaves the device at its place in the tree. -/
theorem parentDev_updateFromDevice (dev newDev : LinkedDevice) (ssdpPkt : SsdpPacket) (now : ℤ) :
    (dev.updateFromDevice newDev ssdpPkt now).2.1.value.parentDev = dev.value.parentDev := by
  unfold updateFromDevice
  split_ifs with hrefused hchanged
  · rfl
  · rfl
  · rfl

/-- An update leaves consistent pointers. -/
theorem isLinked_updateFromDevice {dev newDev : LinkedDevice} (hdev : dev.IsLinked)
    (hnew : newDev.IsLinked) (ssdpPkt : SsdpPacket) (now : ℤ) :
    (dev.updateFromDevice newDev ssdpPkt now).2.1.IsLinked := by
  have htop : ∀ {tree : LinkedDevice} (httpPort : ℤ), tree.IsLinked →
      (tree.withObject fun object ↦
        { object with
          ssdpPkt := object.ssdpPkt.copy ssdpPkt now, httpPort := httpPort }).IsLinked := by
    intro tree httpPort htree
    have hparts := isLinked_iff.mp htree
    exact isLinked_iff.mpr hparts
  unfold updateFromDevice
  split_ifs with hne hchanged
  · exact hdev
  · exact htop _ (isLinked_withDescription dev (isLinked_copySubscriptions hnew dev))
  · exact htop _ hdev

end LinkedDevice

/-! ### What two trees have in common -/

/-- What a description says of a service: its type, its identifier and its addresses, in which a
missing value reads as an empty one. -/
structure ServiceOutline where
  serviceType : CString
  serviceId : CString
  scpdUrl : CString
  controlUrl : CString
  eventSubUrl : CString
  deriving DecidableEq

/-- What a description says of a device. -/
structure DeviceOutline where
  udn : CString
  deviceType : CString
  services : List ServiceOutline
  deriving DecidableEq

def Service.outline (service : Service) : ServiceOutline where
  serviceType := service.serviceType.getD []
  serviceId := service.serviceId.getD []
  scpdUrl := service.scpdUrl.getD []
  controlUrl := service.controlUrl.getD []
  eventSubUrl := service.eventSubUrl.getD []

def DeviceObject.outline (object : DeviceObject) : DeviceOutline where
  udn := object.udn.getD []
  deviceType := object.deviceType.getD []
  services := object.services.map Service.outline

/-- The structure of a device: names, types, services and addresses, in their order. -/
def Device.outline (dev : Device) : RoseTree DeviceOutline := dev.relabel DeviceObject.outline

theorem optStrEq_iff {a b : Option CString} : optStrEq a b = true ↔ a.getD [] = b.getD [] := by
  have hlen : ∀ str : Option CString, strlen str ≤ 0 ↔ str.getD [] = [] := by
    intro str
    rw [Nat.le_zero, strlen, List.length_eq_zero_iff]
  unfold optStrEq
  simp only [hlen]
  split_ifs with hempty
  · rw [decide_eq_true_iff]
    constructor
    · rintro ⟨ha, hb⟩
      rw [ha, hb]
    · intro heq
      rcases hempty with ha | hb
      · exact ⟨ha, heq ▸ ha⟩
      · exact ⟨heq.trans hb, hb⟩
  · rw [not_or] at hempty
    cases a with
    | none => exact absurd rfl hempty.1
    | some a =>
      cases b with
      | none => exact absurd rfl hempty.2
      | some b => exact streq_some_some

theorem hasSameServices_iff (as bs : List Service) :
    hasSameServices as bs = true ↔ as.map Service.outline = bs.map Service.outline := by
  induction as generalizing bs with
  | nil => cases bs <;> simp [hasSameServices]
  | cons a as ih =>
    cases bs with
    | nil => simp [hasSameServices]
    | cons b bs =>
      simp only [hasSameServices, Bool.and_eq_true, optStrEq_iff, ih, List.map_cons,
        List.cons.injEq, Service.outline, ServiceOutline.mk.injEq, and_assoc]

theorem hasSameStructureIn_iff (as bs : List Device) :
    hasSameStructureIn as bs = true ↔
      RoseTree.relabelIn DeviceObject.outline as = RoseTree.relabelIn DeviceObject.outline bs := by
  induction as using RoseTree.forest_induction generalizing bs with
  | nil => cases bs <;> simp [hasSameStructureIn, RoseTree.relabelIn]
  | cons a devices as hdevices has =>
    cases bs with
    | nil => simp [hasSameStructureIn, RoseTree.relabelIn]
    | cons b bs =>
      obtain ⟨b, others⟩ := b
      simp only [hasSameStructureIn, hasSameStructure, Bool.and_eq_true, optStrEq_iff,
        hasSameServices_iff, hdevices, has, RoseTree.relabelIn, RoseTree.relabel, List.cons.injEq,
        RoseTree.node.injEq, DeviceObject.outline, DeviceOutline.mk.injEq, RoseTree.value_node,
        RoseTree.children_node, and_assoc]

/-- Two trees have the same structure for the code when their outlines are equal. -/
theorem hasSameStructure_iff (a b : Device) :
    hasSameStructure a b = true ↔ a.outline = b.outline := by
  have hlists := hasSameStructureIn_iff [a] [b]
  unfold Device.outline
  simpa [hasSameStructureIn, RoseTree.relabelIn] using hlists

/-! ### Services by their device and identifier -/

namespace Device

/-- The tree has the service, with what it has for an identifier, at the device with the name. -/
def HasService (dev : Device) (udn : CString) (serviceId : Option CString) (service : Service) :
    Prop :=
  ∃ object ∈ dev.preorder,
    object.udn = some udn ∧ service ∈ object.services ∧ service.serviceId = serviceId

/-- Names and identifiers tell the devices of a tree and the services of a device apart: at most one
service of a device has no identifier. -/
structure IsKeyed (dev : Device) : Prop where
  udns : (dev.preorder.map DeviceObject.udn).Nodup
  udn_pos : ∀ object ∈ dev.preorder, 0 < strlen object.udn
  serviceIds : ∀ object ∈ dev.preorder, (object.services.map Service.serviceId).Nodup

theorem IsKeyed.object_unique {dev : Device} (hkeyed : dev.IsKeyed) {object object' : DeviceObject}
    (hobject : object ∈ dev.preorder) (hobject' : object' ∈ dev.preorder)
    (hudn : object.udn = object'.udn) : object = object' :=
  List.inj_on_of_nodup_map hkeyed.udns hobject hobject' hudn

theorem IsKeyed.service_unique {dev : Device} (hkeyed : dev.IsKeyed) {udn : CString}
    {serviceId : Option CString} {service service' : Service}
    (hservice : dev.HasService udn serviceId service)
    (hservice' : dev.HasService udn serviceId service') : service = service' := by
  obtain ⟨object, hobject, hudn, hmem, hid⟩ := hservice
  obtain ⟨object', hobject', hudn', hmem', hid'⟩ := hservice'
  obtain rfl := hkeyed.object_unique hobject hobject' (hudn.trans hudn'.symm)
  exact List.inj_on_of_nodup_map (hkeyed.serviceIds object hobject) hmem hmem' (hid.trans hid'.symm)

/-- The names of the devices of a tree with their services, in the order of the walk. -/
def holdings (dev : Device) : List (Option CString × List Service) :=
  dev.preorder.map fun object ↦ (object.udn, object.services)

theorem hasService_iff {dev : Device} {udn : CString} {serviceId : Option CString}
    {service : Service} :
    dev.HasService udn serviceId service ↔
      ∃ holding ∈ dev.holdings,
        holding.1 = some udn ∧ service ∈ holding.2 ∧ service.serviceId = serviceId := by
  constructor
  · rintro ⟨object, hobject, hfound⟩
    exact ⟨_, List.mem_map_of_mem hobject, hfound⟩
  · rintro ⟨holding, hholding, hfound⟩
    obtain ⟨object, hobject, rfl⟩ := List.mem_map.mp hholding
    exact ⟨object, hobject, hfound⟩

/-- The services of a keyed tree are found by their names and identifiers. -/
theorem IsKeyed.exists_of_mem {dev : Device} (hkeyed : dev.IsKeyed)
    {holding : Option CString × List Service} (hholding : holding ∈ dev.holdings)
    {service : Service} (hservice : service ∈ holding.2) :
    ∃ udn, udn ≠ [] ∧ holding.1 = some udn ∧ dev.HasService udn service.serviceId service := by
  obtain ⟨object, hobject, rfl⟩ := List.mem_map.mp hholding
  obtain ⟨udn, hudn, hne⟩ := eq_some_of_strlen_pos (hkeyed.udn_pos object hobject)
  exact ⟨udn, hne, hudn, object, hobject, hudn, hservice, rfl⟩

/-- Trees with the same outline have services with the same names and non-empty identifiers. -/
theorem HasService.of_outline_eq {dev dev' : Device} (houtline : dev.outline = dev'.outline)
    {udn : CString} {serviceId : Option CString} (hudn : udn ≠ []) (hne : serviceId.getD [] ≠ [])
    {service : Service} (hservice : dev.HasService udn serviceId service) :
    ∃ service', dev'.HasService udn serviceId service' := by
  have htext : ∀ {text other : Option CString}, other.getD [] ≠ [] →
      text.getD [] = other.getD [] → text = other := by
    intro text other hother heq
    cases text with
    | none => exact absurd heq.symm hother
    | some text =>
      cases other with
      | none => exact absurd rfl hother
      | some other => exact congrArg some heq
  obtain ⟨object, hobject, hname, hmem, hid⟩ := hservice
  have hobjects : dev.preorder.map DeviceObject.outline =
      dev'.preorder.map DeviceObject.outline := by
    rw [← RoseTree.preorder_relabel, ← RoseTree.preorder_relabel]
    exact congrArg RoseTree.preorder houtline
  obtain ⟨object', hobject', heq⟩ : ∃ object' ∈ dev'.preorder,
      object'.outline = object.outline := by
    rw [← List.mem_map, ← hobjects]
    exact List.mem_map_of_mem hobject
  obtain ⟨service', hmem', heq'⟩ : ∃ service' ∈ object'.services,
      service'.outline = service.outline := by
    have hservices : object'.services.map Service.outline = object.services.map Service.outline :=
      congrArg DeviceOutline.services heq
    rw [← List.mem_map, hservices]
    exact List.mem_map_of_mem hmem
  refine ⟨service', object', hobject', ?_, hmem', ?_⟩
  · rw [← hname]
    exact htext (by rwa [hname]) (congrArg DeviceOutline.udn heq)
  · rw [← hid]
    exact htext (by rwa [hid]) (congrArg ServiceOutline.serviceId heq')

end Device

/-! ### Which subscriptions an update carries over -/

/-- The state of a subscription that an update carries over. -/
def Service.subscription (service : Service) : Option CString × ℤ × ℤ × BitVec 64 :=
  (service.subscriptionSid, service.subscriptionTimeout, service.subscriptionTimestamp,
    service.eventKey)

/-- The result has the subscriptions of the services that the old and the new tree have in common,
and no others. -/
structure CarriesSubscriptions (dev newDev result : Device) : Prop where
  keeps : ∀ {udn : CString} {serviceId : Option CString} {service newService : Service},
    dev.HasService udn serviceId service → service.isSubscribed = true →
    newDev.HasService udn serviceId newService →
    (∃ kept, result.HasService udn serviceId kept) ∧
      ∀ kept, result.HasService udn serviceId kept → kept.subscription = service.subscription
  only : ∀ object ∈ result.preorder, ∀ kept ∈ object.services, kept.isSubscribed = true →
    ∃ udn service newService, object.udn = some udn ∧
      dev.HasService udn kept.serviceId service ∧ service.isSubscribed = true ∧
      newDev.HasService udn kept.serviceId newService

/-- A tree that stays while the new one has the same outline keeps all of its subscriptions, which
are those that both trees have unless a service without an identifier stands where the new tree has
an empty one, or the other way round. -/
theorem carriesSubscriptions_iff_of_outline_eq {dev newDev result : Device} (hdev : dev.IsKeyed)
    (houtline : dev.outline = newDev.outline) (hresult : result.holdings = dev.holdings) :
    CarriesSubscriptions dev newDev result ↔ ∀ udn service,
      dev.HasService udn service.serviceId service → service.isSubscribed = true →
      service.serviceId.getD [] = [] →
      ∃ newService, newDev.HasService udn service.serviceId newService := by
  have hsame : ∀ udn serviceId kept, result.HasService udn serviceId kept ↔
      dev.HasService udn serviceId kept := by
    intro udn serviceId kept
    rw [Device.hasService_iff, Device.hasService_iff, hresult]
  constructor
  · intro h udn service hservice hsubscribed _
    obtain ⟨object, hobject, hudn, hmem, -⟩ := (hsame udn service.serviceId service).mpr hservice
    obtain ⟨udn', _, newService, hudn', -, -, hnewService⟩ := h.only object hobject service hmem
      hsubscribed
    obtain rfl : udn' = udn := Option.some.inj (hudn'.symm.trans hudn)
    exact ⟨newService, hnewService⟩
  · intro h
    constructor
    · intro udn serviceId service newService hservice hsubscribed hnewService
      refine ⟨⟨service, (hsame _ _ service).mpr hservice⟩, fun kept hkept ↦ ?_⟩
      rw [hdev.service_unique ((hsame _ _ kept).mp hkept) hservice]
    · intro object hobject kept hkept hsubscribed
      have hholding : (object.udn, object.services) ∈ dev.holdings := by
        rw [← hresult]
        exact List.mem_map_of_mem hobject
      obtain ⟨udn, hne, hudn, hhas⟩ := hdev.exists_of_mem hholding hkept
      obtain ⟨newService, hnewService⟩ :
          ∃ newService, newDev.HasService udn kept.serviceId newService := by
        by_cases hid : kept.serviceId.getD [] = []
        · exact h udn kept hhas hsubscribed hid
        · exact hhas.of_outline_eq houtline hne hid
      exact ⟨udn, kept, newService, hudn, hhas, hsubscribed, hnewService⟩

/-- The search for a name in a keyed tree finds the device that has it. -/
theorem findByUdnInTree_eq_some {dev : Device} (hdev : dev.IsKeyed) {object : DeviceObject}
    (hobject : object ∈ dev.preorder) :
    ∃ found, findByUdnInTree dev object.udn = some found ∧ found.value = object := by
  have hpos := hdev.udn_pos object hobject
  obtain ⟨udn, hudn, -⟩ := eq_some_of_strlen_pos hpos
  obtain ⟨tree, htree, hvalue⟩ : ∃ tree ∈ dev.subtrees, tree.value = object := by
    rw [← RoseTree.subtreesIn_singleton]
    exact List.mem_map.mp hobject
  unfold findByUdnInTree
  rw [if_neg (Nat.not_le.mpr hpos)]
  cases hfind : dev.subtrees.find? fun found ↦ streq found.value.udn object.udn with
  | none =>
    have hno := List.find?_eq_none.mp hfind tree htree
    rw [hvalue, hudn] at hno
    exact absurd (streq_some_some.mpr rfl) hno
  | some found =>
    refine ⟨found, rfl, ?_⟩
    have hmem : found.value ∈ dev.preorder := by
      unfold RoseTree.preorder RoseTree.preorderIn
      rw [RoseTree.subtreesIn_singleton]
      exact List.mem_map_of_mem (List.mem_of_find?_eq_some hfind)
    have hmatch := List.find?_some hfind
    obtain ⟨name, hfound, hname⟩ := streq_eq_true_iff.mp hmatch
    exact hdev.object_unique hmem hobject (hfound.trans hname.symm)

/-- The service of the new tree takes the subscription of the one with the same name and identifier
in the old tree. -/
theorem copySubscription_eq {dev : Device} (hdev : dev.IsKeyed) {udn serviceId : CString}
    {service newService : Service} (hservice : dev.HasService udn (some serviceId) service)
    (hsubscribed : service.isSubscribed = true) (hid : newService.serviceId = some serviceId) :
    (copySubscription (findByUdnInTree dev (some udn)) newService).subscription =
      service.subscription := by
  obtain ⟨object, hobject, hudn, hmem, hserviceId⟩ := hservice
  obtain ⟨found, hfound, hvalue⟩ := findByUdnInTree_eq_some hdev hobject
  rw [hudn] at hfound
  have hservices : found.services.find? (fun oldService ↦
      streq oldService.serviceId newService.serviceId) = some service := by
    have hfoundServices : found.services = object.services := congrArg DeviceObject.services hvalue
    rw [hfoundServices]
    cases hfind : object.services.find? fun oldService ↦
        streq oldService.serviceId newService.serviceId with
    | none =>
      have hno := List.find?_eq_none.mp hfind service hmem
      rw [hserviceId, hid] at hno
      exact absurd (streq_some_some.mpr rfl) hno
    | some oldService =>
      have hmatch := List.find?_some hfind
      obtain ⟨name, hold, hname⟩ := streq_eq_true_iff.mp hmatch
      have hids : oldService.serviceId = service.serviceId := by
        rw [hold, hserviceId, ← hid, hname]
      rw [List.inj_on_of_nodup_map (hdev.serviceIds object hobject)
        (List.mem_of_find?_eq_some hfind) hmem hids]
  have hsid : service.subscriptionSid ≠ none := by
    intro hnone
    simp [Service.isSubscribed, hnone, stringLength, strlen] at hsubscribed
  obtain ⟨sid, hsid⟩ := Option.ne_none_iff_exists'.mp hsid
  simp only [copySubscription, hfound, Option.bind_some, hservices, hsubscribed, if_true,
    Service.subscription, hsid, stringSetValue_some]

/-- A service that is subscribed after the copy has its subscription from a service of the old tree
with the same name and identifier. -/
theorem of_isSubscribed_copySubscription {dev : Device} {udn : CString} {newService : Service}
    (hfresh : newService.isSubscribed = false)
    (hsubscribed : (copySubscription (findByUdnInTree dev (some udn)) newService).isSubscribed =
      true) :
    ∃ serviceId service, newService.serviceId = some serviceId ∧
      dev.HasService udn (some serviceId) service ∧ service.isSubscribed = true := by
  unfold copySubscription at hsubscribed
  split at hsubscribed
  · rw [hfresh] at hsubscribed
    exact absurd hsubscribed Bool.false_ne_true
  · rename_i service hfind
    split_ifs at hsubscribed with hservice
    · obtain ⟨found, hfound, hfind⟩ := Option.bind_eq_some_iff.mp hfind
      have hmatch := List.find?_some hfind
      obtain ⟨serviceId, hid, hnewId⟩ := streq_eq_true_iff.mp hmatch
      unfold findByUdnInTree at hfound
      split_ifs at hfound
      have hsame := List.find?_some hfound
      obtain ⟨name, hname, hudn⟩ := streq_eq_true_iff.mp hsame
      refine ⟨serviceId, service, hnewId, ⟨found.value, ?_, ?_, ?_, hid⟩, hservice⟩
      · unfold RoseTree.preorder RoseTree.preorderIn
        rw [RoseTree.subtreesIn_singleton]
        exact List.mem_map_of_mem (List.mem_of_find?_eq_some hfound)
      · rw [hname, hudn]
      · exact List.mem_of_find?_eq_some hfind
    · rw [hfresh] at hsubscribed
      exact absurd hsubscribed Bool.false_ne_true

@[simp] theorem serviceId_copySubscription (oldDev : Option Device) (newService : Service) :
    (copySubscription oldDev newService).serviceId = newService.serviceId := by
  unfold copySubscription
  split
  · rfl
  · split_ifs <;> rfl

@[simp] theorem outline_copySubscription (oldDev : Option Device) (newService : Service) :
    (copySubscription oldDev newService).outline = newService.outline := by
  unfold copySubscription
  split
  · rfl
  · split_ifs <;> rfl

theorem outline_copySubscriptions (newDev oldRoot : Device) :
    (copySubscriptions newDev oldRoot).outline = newDev.outline := by
  have houtline : ∀ object : DeviceObject, DeviceObject.outline { object with
      services := object.services.map (copySubscription (findByUdnInTree oldRoot object.udn)) } =
        object.outline := by
    intro object
    have hservices : (object.services.map
        (copySubscription (findByUdnInTree oldRoot object.udn))).map Service.outline =
          object.services.map Service.outline := by
      rw [List.map_map]
      exact List.map_congr_left fun service _ ↦ outline_copySubscription _ service
    simp only [DeviceObject.outline, hservices]
  cases newDev with
  | node object devices =>
    simp only [copySubscriptions, Device.outline, RoseTree.map, RoseTree.relabel, houtline,
      RoseTree.relabelIn_mapIn_of_forall houtline]

theorem holdings_copySubscriptions (newDev oldRoot : Device) :
    (copySubscriptions newDev oldRoot).holdings = newDev.holdings.map fun holding ↦
      (holding.1, holding.2.map (copySubscription (findByUdnInTree oldRoot holding.1))) := by
  unfold copySubscriptions Device.holdings RoseTree.preorder
  rw [← RoseTree.mapIn_singleton, RoseTree.preorderIn_mapIn, List.map_map, List.map_map]
  rfl

/-- A service without an identifier takes no subscription. -/
theorem copySubscription_of_serviceId_eq_none {newService : Service}
    (hid : newService.serviceId = none) (oldDev : Option Device) :
    copySubscription oldDev newService = newService := by
  have hnone : (oldDev.bind fun oldDev ↦
      oldDev.services.find? fun oldService ↦ streq oldService.serviceId newService.serviceId) =
        none := by
    rw [Option.bind_eq_none_iff]
    intro found _
    refine List.find?_eq_none.mpr fun oldService _ hmatch ↦ ?_
    obtain ⟨serviceId, -, hnewId⟩ := streq_eq_true_iff.mp hmatch
    exact absurd (hid.symm.trans hnewId) (Option.some_ne_none _).symm
  simp only [copySubscription, hnone]

section Copied

variable {dev newDev result : Device}

/-- After the copy, a service that both trees have with an identifier has the subscription of the old
tree. -/
theorem keeps_of_copySubscriptions (hdev : dev.IsKeyed)
    (hresult : result.holdings = (copySubscriptions newDev dev).holdings) {udn serviceId : CString}
    {service : Service} (hservice : dev.HasService udn (some serviceId) service)
    (hsubscribed : service.isSubscribed = true) {kept : Service}
    (hkept : result.HasService udn (some serviceId) kept) :
    kept.subscription = service.subscription := by
  obtain ⟨holding', hholding', hudn, hmem, hid⟩ := Device.hasService_iff.mp hkept
  rw [hresult, holdings_copySubscriptions] at hholding'
  obtain ⟨holding, hholding, rfl⟩ := List.mem_map.mp hholding'
  obtain ⟨newService, hnewService, rfl⟩ := List.mem_map.mp hmem
  rw [serviceId_copySubscription] at hid
  have hname : holding.1 = some udn := hudn
  rw [hname]
  exact copySubscription_eq hdev hservice hsubscribed hid

/-- The copy leaves the services of the new tree where they are. -/
theorem exists_hasService_copySubscriptions
    (hresult : result.holdings = (copySubscriptions newDev dev).holdings) {udn : CString}
    {serviceId : Option CString} {newService : Service}
    (hnewService : newDev.HasService udn serviceId newService) :
    result.HasService udn serviceId
      (copySubscription (findByUdnInTree dev (some udn)) newService) := by
  obtain ⟨holding, hholding, hudn, hmem, hid⟩ := Device.hasService_iff.mp hnewService
  refine Device.hasService_iff.mpr
    ⟨(holding.1, holding.2.map (copySubscription (findByUdnInTree dev holding.1))), ?_, hudn, ?_,
      ?_⟩
  · rw [hresult, holdings_copySubscriptions]
    exact List.mem_map_of_mem hholding
  · rw [hudn]
    exact List.mem_map_of_mem hmem
  · rw [serviceId_copySubscription, hid]

/-- After the copy, only services that both trees have are subscribed. -/
theorem only_of_copySubscriptions (hnew : newDev.IsKeyed)
    (hfresh : ∀ object ∈ newDev.preorder, ∀ service ∈ object.services, service.isSubscribed = false)
    (hresult : result.holdings = (copySubscriptions newDev dev).holdings) {object : DeviceObject}
    (hobject : object ∈ result.preorder) {kept : Service} (hkept : kept ∈ object.services)
    (hsubscribed : kept.isSubscribed = true) :
    ∃ udn service newService, object.udn = some udn ∧
      dev.HasService udn kept.serviceId service ∧ service.isSubscribed = true ∧
      newDev.HasService udn kept.serviceId newService := by
  have hholding : (object.udn, object.services) ∈ result.holdings := List.mem_map_of_mem hobject
  rw [hresult, holdings_copySubscriptions] at hholding
  obtain ⟨holding, hholding, heq⟩ := List.mem_map.mp hholding
  obtain ⟨hname, hservices⟩ := Prod.mk.inj heq
  rw [← hservices] at hkept
  obtain ⟨newService, hnewService, rfl⟩ := List.mem_map.mp hkept
  obtain ⟨udn, -, hudn, hhas⟩ := hnew.exists_of_mem hholding hnewService
  have hnone : newService.isSubscribed = false := by
    obtain ⟨object', hobject', rfl⟩ := List.mem_map.mp hholding
    exact hfresh object' hobject' newService hnewService
  rw [hudn] at hsubscribed
  obtain ⟨serviceId, service, hid, hold, hwas⟩ :=
    of_isSubscribed_copySubscription hnone hsubscribed
  refine ⟨udn, service, newService, hname.symm.trans hudn, ?_, hwas, ?_⟩
  · rw [serviceId_copySubscription, hid]
    exact hold
  · rwa [serviceId_copySubscription]

/-- The new tree, after the copy, has the subscriptions that it has in common with the old one,
unless both have a service without an identifier at a device and that of the old one is
subscribed. -/
theorem carriesSubscriptions_iff_of_copySubscriptions (hdev : dev.IsKeyed) (hnew : newDev.IsKeyed)
    (hfresh : ∀ object ∈ newDev.preorder, ∀ service ∈ object.services, service.isSubscribed = false)
    (hresult : result.holdings = (copySubscriptions newDev dev).holdings) :
    CarriesSubscriptions dev newDev result ↔ ∀ udn service newService,
      dev.HasService udn none service → service.isSubscribed = true →
      ¬ newDev.HasService udn none newService := by
  constructor
  · intro h udn service newService hservice hsubscribed hnewService
    have hkept := exists_hasService_copySubscriptions hresult hnewService
    have hsame := (h.keeps hservice hsubscribed hnewService).2 _ hkept
    obtain ⟨object, hobject, -, hmem, hid⟩ := hnewService
    rw [copySubscription_of_serviceId_eq_none hid] at hsame
    have hnone : newService.isSubscribed = service.isSubscribed := by
      have hsid : newService.subscriptionSid = service.subscriptionSid := congrArg Prod.fst hsame
      rw [Service.isSubscribed, Service.isSubscribed, hsid]
    rw [hfresh object hobject newService hmem, hsubscribed] at hnone
    exact Bool.false_ne_true hnone
  · intro h
    constructor
    · intro udn serviceId service newService hservice hsubscribed hnewService
      cases serviceId with
      | none => exact absurd hnewService (h udn service newService hservice hsubscribed)
      | some serviceId =>
        exact ⟨⟨_, exists_hasService_copySubscriptions hresult hnewService⟩, fun kept hkept ↦
          keeps_of_copySubscriptions hdev hresult hservice hsubscribed hkept⟩
    · intro object hobject kept hkept hsubscribed
      exact only_of_copySubscriptions hnew hfresh hresult hobject hkept hsubscribed

end Copied

/-! ### The specification of an update -/

/-- `mupnp_device_updatefromdevice` leaves the cached device the description that it has. -/
def keepsDescription (dev newDev : Device) (ssdpPkt : SsdpPacket) : Bool :=
  optStrEq dev.ssdpPkt.getConfigId ssdpPkt.getConfigId && hasSameStructure dev newDev

/-- What an update needs of the subscribed services of the cached tree whose identifier is missing or
empty. Where the description stays, the new tree has a service with the same at the device. Where it
is exchanged, and the identifier is missing, the new tree has no service without one there. -/
def IdentifiesSubscribed (dev newDev : Device) (ssdpPkt : SsdpPacket) : Prop :=
  if keepsDescription dev newDev ssdpPkt = true then
    ∀ udn service, dev.HasService udn service.serviceId service → service.isSubscribed = true →
      service.serviceId.getD [] = [] →
      ∃ newService, newDev.HasService udn service.serviceId newService
  else
    ∀ udn service newService, dev.HasService udn none service → service.isSubscribed = true →
      ¬ newDev.HasService udn none newService

/-- Nothing is asked of subscribed services that have an identifier. -/
theorem identifiesSubscribed_of_forall {dev : Device}
    (h : ∀ object ∈ dev.preorder, ∀ service ∈ object.services, service.isSubscribed = true →
      service.serviceId.getD [] ≠ []) (newDev : Device) (ssdpPkt : SsdpPacket) :
    IdentifiesSubscribed dev newDev ssdpPkt := by
  unfold IdentifiesSubscribed
  split_ifs
  · rintro udn service ⟨object, hobject, -, hmem, -⟩ hsubscribed hempty
    exact absurd hempty (h object hobject service hmem hsubscribed)
  · rintro udn service newService ⟨object, hobject, -, hmem, hid⟩ hsubscribed -
    exact h object hobject service hmem hsubscribed (by rw [hid]; rfl)

/-- An update that is not refused gives the cached device the outline of the new tree. It has the
subscriptions that the two trees have in common as far as they are told apart by identifiers. -/
theorem updateFromDevice_fst_outline {dev newDev : Device} (hdev : dev.IsKeyed)
    (hnew : newDev.IsKeyed)
    (hfresh : ∀ object ∈ newDev.preorder, ∀ service ∈ object.services, service.isSubscribed = false)
    (hudn : streq newDev.udn dev.udn = true) (ssdpPkt : SsdpPacket) (now : ℤ) :
    (updateFromDevice dev newDev ssdpPkt now).1 = true ∧
      (updateFromDevice dev newDev ssdpPkt now).2.1.outline = newDev.outline ∧
      (CarriesSubscriptions dev newDev (updateFromDevice dev newDev ssdpPkt now).2.1 ↔
        IdentifiesSubscribed dev newDev ssdpPkt) := by
  have htop : ∀ (tree : Device) (httpPort : ℤ),
      ((tree.setSsdpPacket ssdpPkt now).setHttpPort httpPort).outline = tree.outline ∧
        ((tree.setSsdpPacket ssdpPkt now).setHttpPort httpPort).holdings = tree.holdings := by
    intro tree httpPort
    obtain ⟨object, devices⟩ := tree
    exact ⟨rfl, rfl⟩
  have hswap : ∀ src : Device, (swapDescription dev src).1.outline = src.outline ∧
      (swapDescription dev src).1.holdings = src.holdings := by
    intro src
    obtain ⟨object, devices⟩ := src
    exact ⟨rfl, rfl⟩
  have hkeeps : (!optStrEq dev.ssdpPkt.getConfigId ssdpPkt.getConfigId ||
      !hasSameStructure dev newDev) = !keepsDescription dev newDev ssdpPkt := by
    rw [keepsDescription, Bool.not_and]
  unfold updateFromDevice IdentifiesSubscribed
  rw [if_neg (by simp [hudn]), hkeeps]
  refine ⟨rfl, ?_⟩
  cases hchanged : keepsDescription dev newDev ssdpPkt with
  | false =>
    obtain ⟨houtline, hholdings⟩ := htop (swapDescription dev (copySubscriptions newDev dev)).1
      newDev.httpPort
    obtain ⟨houtline', hholdings'⟩ := hswap (copySubscriptions newDev dev)
    refine ⟨?_, carriesSubscriptions_iff_of_copySubscriptions hdev hnew hfresh
      (hholdings.trans hholdings')⟩
    exact houtline.trans (houtline'.trans (outline_copySubscriptions newDev dev))
  | true =>
    obtain ⟨houtline, hholdings⟩ := htop dev newDev.httpPort
    have hsame : dev.outline = newDev.outline :=
      (hasSameStructure_iff dev newDev).mp (Bool.and_eq_true_iff.mp hchanged).2
    exact ⟨houtline.trans hsame, carriesSubscriptions_iff_of_outline_eq hdev hsame hholdings⟩

/-- What an update of a cached device from a new description is for. It is refused when the names of
the roots differ. Otherwise the cached device has the structure of the new tree with consistent
pointers, and the subscriptions of the services that both trees have, and no others. -/
def UpdatesKeepingSubscriptions (dev newDev : LinkedDevice) (ssdpPkt : SsdpPacket) (now : ℤ) :
    Prop :=
  (newDev.value.udn ≠ dev.value.udn →
    (dev.updateFromDevice newDev ssdpPkt now).1 = false ∧
      (dev.updateFromDevice newDev ssdpPkt now).2.1 = dev) ∧
  (newDev.value.udn = dev.value.udn →
    (dev.updateFromDevice newDev ssdpPkt now).1 = true ∧
      (dev.updateFromDevice newDev ssdpPkt now).2.1.unlinked.outline = newDev.unlinked.outline ∧
      (dev.updateFromDevice newDev ssdpPkt now).2.1.value.parentDev = dev.value.parentDev ∧
      (dev.updateFromDevice newDev ssdpPkt now).2.1.IsLinked ∧
      CarriesSubscriptions dev.unlinked newDev.unlinked
        (dev.updateFromDevice newDev ssdpPkt now).2.1.unlinked)

/-- In trees whose devices and services are told apart by their names and identifiers, an update does
what it is for exactly when the names of the roots differ, or the subscribed services without an
identifier meet the condition of `IdentifiesSubscribed`. -/
theorem updatesKeepingSubscriptions_iff {dev newDev : LinkedDevice} (hdev : dev.unlinked.IsKeyed)
    (hnew : newDev.unlinked.IsKeyed) (hlinked : dev.IsLinked) (hnewLinked : newDev.IsLinked)
    (hfresh : ∀ object ∈ newDev.unlinked.preorder, ∀ service ∈ object.services,
      service.isSubscribed = false) (ssdpPkt : SsdpPacket) (now : ℤ) :
    UpdatesKeepingSubscriptions dev newDev ssdpPkt now ↔
      (newDev.value.udn = dev.value.udn →
        IdentifiesSubscribed dev.unlinked newDev.unlinked ssdpPkt) := by
  have hname : ∀ tree : LinkedDevice, tree.unlinked.udn = tree.value.udn := by
    intro tree
    obtain ⟨object, devices⟩ := tree
    rfl
  obtain ⟨hresult, hunlinked⟩ :=
    Prod.mk.inj (LinkedDevice.unlinked_updateFromDevice_fst dev newDev ssdpPkt now)
  have hsame : newDev.value.udn = dev.value.udn →
      streq newDev.unlinked.udn dev.unlinked.udn = true := by
    intro heq
    have hpos := hdev.udn_pos dev.unlinked.value (by
      rw [RoseTree.preorder_eq]
      exact List.mem_cons_self)
    obtain ⟨udn, hudn, -⟩ := eq_some_of_strlen_pos hpos
    rw [hname, hname, heq, streq_eq_true_iff]
    exact ⟨udn, (hname dev).symm.trans hudn, (hname dev).symm.trans hudn⟩
  unfold UpdatesKeepingSubscriptions
  rw [hunlinked, hresult]
  constructor
  · rintro ⟨-, hupdated⟩ heq
    obtain ⟨-, -, -, -, hcarries⟩ := hupdated heq
    exact (updateFromDevice_fst_outline hdev hnew hfresh (hsame heq) ssdpPkt now).2.2.mp hcarries
  · intro hids
    refine ⟨fun hne ↦ ?_, fun heq ↦ ?_⟩
    · rw [← hresult, LinkedDevice.updateFromDevice_of_udn_ne hne]
      exact ⟨rfl, rfl⟩
    · obtain ⟨htrue, houtline, hcarries⟩ :=
        updateFromDevice_fst_outline hdev hnew hfresh (hsame heq) ssdpPkt now
      exact ⟨htrue, houtline, LinkedDevice.parentDev_updateFromDevice dev newDev ssdpPkt now,
        LinkedDevice.isLinked_updateFromDevice hlinked hnewLinked ssdpPkt now,
        hcarries.mpr (hids heq)⟩

/-- A light with one subscribed service and an embedded clock. -/
def lightDeviceWith (serviceId : Option CString) : LinkedDevice :=
  .node ⟨0, some "uuid:light".toList, some "urn:light:1".toList,
      [⟨⟨some "urn:power:1".toList, serviceId, some "/power/scpd".toList,
        some "/power/control".toList, some "/power/event".toList, some "uuid:sid".toList, 300, 1000,
        4⟩, some 0⟩], SsdpPacket.new, 80, none⟩
    [.node ⟨1, some "uuid:clock".toList, some "urn:clock:1".toList, [], SsdpPacket.new, 80, some 0⟩
      []]

/-- The light with another address for the events of its service. -/
def changedLightDeviceWith (serviceId : Option CString) : LinkedDevice :=
  .node ⟨2, some "uuid:light".toList, some "urn:light:1".toList,
      [⟨⟨some "urn:power:1".toList, serviceId, some "/power/scpd".toList,
        some "/power/control".toList, some "/power/event2".toList, none, 0, 0, 0⟩, some 2⟩],
      SsdpPacket.new, 8080, none⟩
    [.node ⟨3, some "uuid:clock".toList, some "urn:clock:1".toList, [], SsdpPacket.new, 8080,
      some 2⟩ []]

/-- The light whose service has an identifier. -/
def lightDevice : LinkedDevice := lightDeviceWith (some "urn:power".toList)

def changedLightDevice : LinkedDevice := changedLightDeviceWith (some "urn:power".toList)

theorem updatesKeepingSubscriptions_iff_light :
    UpdatesKeepingSubscriptions lightDevice changedLightDevice SsdpPacket.new 2000 := by
  have hdev : lightDevice.unlinked.IsKeyed :=
    ⟨by decide, by decide, by decide⟩
  have hnew : changedLightDevice.unlinked.IsKeyed :=
    ⟨by decide, by decide, by decide⟩
  refine (updatesKeepingSubscriptions_iff hdev hnew (by decide) (by decide) (by decide) _ _).mpr
    fun _ ↦ identifiesSubscribed_of_forall (by decide) _ _

/-- The subscription of a service without an identifier is lost when the description changes. -/
theorem not_updatesKeepingSubscriptions :
    ¬ ∀ dev newDev : LinkedDevice, dev.unlinked.IsKeyed → newDev.unlinked.IsKeyed →
      dev.IsLinked → newDev.IsLinked →
      (∀ object ∈ newDev.unlinked.preorder, ∀ service ∈ object.services,
        service.isSubscribed = false) →
      ∀ ssdpPkt now, UpdatesKeepingSubscriptions dev newDev ssdpPkt now := by
  intro h
  have hdev : (lightDeviceWith none).unlinked.IsKeyed := ⟨by decide, by decide, by decide⟩
  have hnew : (changedLightDeviceWith none).unlinked.IsKeyed := ⟨by decide, by decide, by decide⟩
  obtain ⟨-, hupdated⟩ := h _ _ hdev hnew (by decide) (by decide) (by decide) SsdpPacket.new 2000
  obtain ⟨-, -, -, -, hcarries⟩ := hupdated (by decide)
  have hservice : (lightDeviceWith none).unlinked.HasService "uuid:light".toList none
      ⟨some "urn:power:1".toList, none, some "/power/scpd".toList, some "/power/control".toList,
        some "/power/event".toList, some "uuid:sid".toList, 300, 1000, 4⟩ :=
    ⟨(lightDeviceWith none).unlinked.value, by decide, by decide, by decide, rfl⟩
  have hnewService : (changedLightDeviceWith none).unlinked.HasService "uuid:light".toList none
      ⟨some "urn:power:1".toList, none, some "/power/scpd".toList, some "/power/control".toList,
        some "/power/event2".toList, none, 0, 0, 0⟩ :=
    ⟨(changedLightDeviceWith none).unlinked.value, by decide, by decide, by decide, rfl⟩
  have hlost : ((lightDeviceWith none).updateFromDevice (changedLightDeviceWith none) SsdpPacket.new
      2000).2.1.unlinked.HasService "uuid:light".toList none
        ⟨some "urn:power:1".toList, none, some "/power/scpd".toList, some "/power/control".toList,
          some "/power/event2".toList, none, 0, 0, 0⟩ :=
    ⟨((lightDeviceWith none).updateFromDevice (changedLightDeviceWith none) SsdpPacket.new
      2000).2.1.unlinked.value, by decide, by decide, by decide, rfl⟩
  have hkept := (hcarries.keeps hservice (by decide) hnewService).2 _ hlost
  exact absurd hkept (by decide)

end Mupnp.Discovery
