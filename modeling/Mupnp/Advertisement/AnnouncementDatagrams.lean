import Mathlib.Data.List.Forall2
import Mupnp.Advertisement.AdvertisedIdentity
import Mupnp.Advertisement.DeviceLocation
import Mupnp.Discovery.ControlPoint
import Mupnp.Ssdp.LeaseTime
import Mupnp.Ssdp.ReceiveThread

/-!
# The datagrams of an announcement

The requests that `mupnp_device_announcefrom` and `mupnp_device_byebyefrom` send with
`mupnp_ssdp_socket_notifyfrom`, with all of their headers. A device sets the headers for its own
datagrams in one request object, and a service in an object of its own; the datagrams of a service
have no `BOOTID.UPNP.ORG`.

What a control point hears of a pass are these requests, each behind a header that its first line
makes (`packetsHeard_headers`). Exactly the first of them is about the root device: it names the
UDN, the location and the lease time of the root (`announcement_heard`).
-/

set_option autoImplicit false
set_option relaxedAutoImplicit false

namespace Mupnp.Advertisement

open Foundation Util Http Net Ssdp

/-- A device with its lease time and its boot identifier. -/
structure AnnouncedDevice extends LocatedDevice where
  leaseTime : ℤ
  bootId : ℤ
  deriving DecidableEq

abbrev AnnouncedTree := RoseTree AnnouncedDevice

/-- A tree without its lease times. -/
def located (root : AnnouncedTree) : LocatedTree := root.relabel AnnouncedDevice.toLocatedDevice

/-- The texts that every request has: the user agent of the library, the name of the server, and the
multicast address for IPv6. -/
structure NotifyTexts where
  userAgent : CString
  server : CString
  ipv6Address : CString

/-! ### Requests -/

/-- `mupnp_ssdprequest_new`. -/
def ssdpRequestNew (userAgent : CString) : HttpRequest :=
  { HttpRequest.new userAgent with
    toHttpPacket := HttpPacket.empty.setContentLength 0
    uri := some "*".toList }

/-- The macros of `ssdp.h` that set one header of a request. -/
def setRequestHeader (ssdpReq : HttpRequest) (name : String) (value : CString) : HttpRequest :=
  { ssdpReq with toHttpPacket := ssdpReq.toHttpPacket.setHeaderValue name.toList (some value) }

/-- The text that `mupnp_ssdprequest_setleasetime` and `mupnp_ssdpresponse_setleasetime` print. -/
def leaseTimeText (value : ℤ) : CString := "max-age".toList ++ "=".toList ++ long2str value

/-- The array in which `mupnp_ssdprequest_setleasetime` prints its text:
`char buf[sizeof(MUPNP_HTTP_MAX_AGE) + 1 + MUPNP_STRING_INTEGER_BUFLEN]`. -/
def requestLeaseTimeBufLen : ℕ := 8 + 1 + 16

/-- A lease time whose text and its terminator fit the array of a request. `sprintf` writes beyond
the array otherwise, and the requests below say nothing about that. -/
def FitsLeaseTime (value : ℤ) : Prop := (leaseTimeText value).length < requestLeaseTimeBufLen

instance (value : ℤ) : Decidable (FitsLeaseTime value) :=
  inferInstanceAs (Decidable ((leaseTimeText value).length < requestLeaseTimeBufLen))

theorem length_leaseTimeText (value : ℤ) :
    (leaseTimeText value).length = (long2str value).length + 8 := by
  have hname : "max-age".toList.length = 7 := rfl
  have hsign : "=".toList.length = 1 := rfl
  unfold leaseTimeText
  simp only [List.length_append, hname, hsign]
  omega

/-- The lease times that fit have at most 16 characters. -/
theorem fitsLeaseTime_iff {value : ℤ} :
    FitsLeaseTime value ↔ -1000000000000000 < value ∧ value < 10000000000000000 := by
  have hiff := @length_long2str_le_iff value 15 (by decide)
  simp only [Int.reducePow, Nat.reduceAdd] at hiff
  rw [FitsLeaseTime, requestLeaseTimeBufLen, length_leaseTimeText]
  omega

theorem FitsLeaseTime.isLong {value : ℤ} (h : FitsLeaseTime value) : IsLong value := by
  have hmax : longMax = 9223372036854775807 := rfl
  have hbounds := fitsLeaseTime_iff.mp h
  rw [IsLong, hmax]
  omega

/-- The request with the notification type and the unique service name of a pair. -/
def setPair (ssdpReq : HttpRequest) (pair : SsdpPair) : HttpRequest :=
  setRequestHeader (setRequestHeader ssdpReq "NT" pair.1) "USN" pair.2

/-- `mupnp_ssdp_gethostaddress`. -/
def getHostAddress (texts : NotifyTexts) (ifAddr : CString) : CString :=
  if isIpv6Address (some ifAddr) = true then texts.ipv6Address else "239.255.255.250".toList

/-- The request as `mupnp_ssdp_socket_notifyfrom` sends it. -/
def notifyFrom (texts : NotifyTexts) (bindAddr : CString) (ssdpReq : HttpRequest) : HttpRequest :=
  { setRequestHeader ssdpReq "HOST" (hostHeaderValue (getHostAddress texts bindAddr) 1900) with
    method := stringSetValue ssdpReq.method (some "NOTIFY".toList) }

/-- The headers that `mupnp_device_announcefrom` and `mupnp_service_announcefrom` set first. -/
def aliveRequest (texts : NotifyTexts) (leaseTime : ℤ) (location : CString) : HttpRequest :=
  let named := setRequestHeader (ssdpRequestNew texts.userAgent) "Server" texts.server
  let leased := setRequestHeader named "Cache-Control" (leaseTimeText leaseTime)
  setRequestHeader (setRequestHeader leased "Location" location) "NTS" "ssdp:alive".toList

/-- The headers that the byebye functions set first. -/
def byebyeRequest (texts : NotifyTexts) : HttpRequest :=
  setRequestHeader (ssdpRequestNew texts.userAgent) "NTS" "ssdp:byebye".toList

/-- The datagrams that a device sends for itself from one request object: those of the root device,
of its type and of its UDN. -/
def deviceRequests (texts : NotifyTexts) (bindAddr : CString) (isRootDevice : Bool)
    (dev : DeviceEntry) (ssdpReq : HttpRequest) : List HttpRequest :=
  let first := notifyFrom texts bindAddr (setPair ssdpReq
    (dev.getNotifyDeviceNt isRootDevice, dev.getNotifyDeviceUsn isRootDevice))
  let second := notifyFrom texts bindAddr (setPair (if isRootDevice = true then first else ssdpReq)
    (dev.getNotifyDeviceTypeNt, dev.getNotifyDeviceTypeUsn))
  let third := notifyFrom texts bindAddr (setPair second (dev.udn, dev.udn))
  (if isRootDevice = true then [first] else []) ++ [second, third]

/-- The request of `mupnp_service_announcefrom`. -/
def serviceAliveRequest (texts : NotifyTexts) (bindAddr : CString)
    (rootDev dev : AnnouncedDevice) (serviceType : CString) : HttpRequest :=
  notifyFrom texts bindAddr (setPair
    (aliveRequest texts dev.leaseTime (rootDev.getLocationUrl bindAddr))
    (serviceAnnounceFrom dev.toDeviceEntry serviceType))

/-- The request of `mupnp_service_byebyefrom`. -/
def serviceByebyeRequest (texts : NotifyTexts) (bindAddr : CString) (dev : DeviceEntry)
    (serviceType : CString) : HttpRequest :=
  notifyFrom texts bindAddr (setPair (byebyeRequest texts) (serviceByebyeFrom dev serviceType))

mutual

/-- `mupnp_device_announcefrom`: the requests that are sent. -/
def aliveRequests (texts : NotifyTexts) (bindAddr : CString) (rootDev : AnnouncedDevice)
    (isRootDevice : Bool) : AnnouncedTree → List HttpRequest
  | .node dev devices =>
    deviceRequests texts bindAddr isRootDevice dev.toDeviceEntry
        (setRequestHeader (aliveRequest texts dev.leaseTime (dev.getLocationUrl bindAddr))
          "BOOTID.UPNP.ORG" (long2str dev.bootId)) ++
      dev.serviceTypes.map (serviceAliveRequest texts bindAddr rootDev dev) ++
      aliveRequestsIn texts bindAddr rootDev devices

/-- The loop of `mupnp_device_announcefrom` over the embedded devices. -/
def aliveRequestsIn (texts : NotifyTexts) (bindAddr : CString) (rootDev : AnnouncedDevice) :
    List AnnouncedTree → List HttpRequest
  | [] => []
  | childDev :: rest =>
    aliveRequests texts bindAddr rootDev false childDev ++
      aliveRequestsIn texts bindAddr rootDev rest

end

mutual

/-- `mupnp_device_byebyefrom`: the requests that are sent. -/
def byebyeRequests (texts : NotifyTexts) (bindAddr : CString) (isRootDevice : Bool) :
    DeviceTree → List HttpRequest
  | .node dev devices =>
    deviceRequests texts bindAddr isRootDevice dev (byebyeRequest texts) ++
      dev.serviceTypes.map (serviceByebyeRequest texts bindAddr dev) ++
      byebyeRequestsIn texts bindAddr devices

/-- The loop of `mupnp_device_byebyefrom` over the embedded devices. -/
def byebyeRequestsIn (texts : NotifyTexts) (bindAddr : CString) : List DeviceTree → List HttpRequest
  | [] => []
  | childDev :: rest =>
    byebyeRequests texts bindAddr false childDev ++ byebyeRequestsIn texts bindAddr rest

end

/-! ### Their headers -/

/-- The headers of an alive notification. -/
def aliveHeaders (texts : NotifyTexts) (bindAddr : CString) (leaseTime : ℤ) (location : CString)
    (bootId : Option ℤ) (pair : SsdpPair) : HttpHeaderList :=
  [⟨some "Content-Length".toList, some (long2str 0)⟩, ⟨some "Server".toList, some texts.server⟩,
      ⟨some "Cache-Control".toList, some (leaseTimeText leaseTime)⟩,
      ⟨some "Location".toList, some location⟩, ⟨some "NTS".toList, some "ssdp:alive".toList⟩] ++
    (bootId.map fun bootId ↦
      (⟨some "BOOTID.UPNP.ORG".toList, some (long2str bootId)⟩ : HttpHeader)).toList ++
    [⟨some "NT".toList, some pair.1⟩, ⟨some "USN".toList, some pair.2⟩,
      ⟨some "HOST".toList, some (hostHeaderValue (getHostAddress texts bindAddr) 1900)⟩]

/-- The headers of a byebye notification. -/
def byebyeHeaders (texts : NotifyTexts) (bindAddr : CString) (pair : SsdpPair) : HttpHeaderList :=
  [⟨some "Content-Length".toList, some (long2str 0)⟩,
    ⟨some "NTS".toList, some "ssdp:byebye".toList⟩, ⟨some "NT".toList, some pair.1⟩,
    ⟨some "USN".toList, some pair.2⟩,
    ⟨some "HOST".toList, some (hostHeaderValue (getHostAddress texts bindAddr) 1900)⟩]

/-- A notification with some headers. -/
def notification (texts : NotifyTexts) (headers : HttpHeaderList) : HttpRequest where
  headers := headers
  content := none
  method := some "NOTIFY".toList
  uri := some "*".toList
  version := some "HTTP/1.1".toList
  userAgent := some texts.userAgent

section Headers

variable (texts : NotifyTexts) (bindAddr : CString)

theorem deviceRequests_alive (isRootDevice : Bool) (dev : DeviceEntry) (leaseTime bootId : ℤ)
    (location : CString) :
    deviceRequests texts bindAddr isRootDevice dev
        (setRequestHeader (aliveRequest texts leaseTime location) "BOOTID.UPNP.ORG"
          (long2str bootId)) =
      ((if isRootDevice = true then
          [(dev.getNotifyDeviceNt isRootDevice, dev.getNotifyDeviceUsn isRootDevice)]
        else []) ++ [(dev.getNotifyDeviceTypeNt, dev.getNotifyDeviceTypeUsn),
          (dev.udn, dev.udn)]).map fun pair ↦
        notification texts (aliveHeaders texts bindAddr leaseTime location (some bootId) pair) := by
  cases isRootDevice <;> rfl

theorem deviceRequests_byebye (isRootDevice : Bool) (dev : DeviceEntry) :
    deviceRequests texts bindAddr isRootDevice dev (byebyeRequest texts) =
      ((if isRootDevice = true then
          [(dev.getNotifyDeviceNt isRootDevice, dev.getNotifyDeviceUsn isRootDevice)]
        else []) ++ [(dev.getNotifyDeviceTypeNt, dev.getNotifyDeviceTypeUsn),
          (dev.udn, dev.udn)]).map fun pair ↦
        notification texts (byebyeHeaders texts bindAddr pair) := by
  cases isRootDevice <;> rfl

theorem serviceAliveRequest_eq (rootDev dev : AnnouncedDevice) (serviceType : CString) :
    serviceAliveRequest texts bindAddr rootDev dev serviceType =
      notification texts (aliveHeaders texts bindAddr dev.leaseTime
        (rootDev.getLocationUrl bindAddr) none
          (serviceAnnounceFrom dev.toDeviceEntry serviceType)) := rfl

theorem serviceByebyeRequest_eq (dev : DeviceEntry) (serviceType : CString) :
    serviceByebyeRequest texts bindAddr dev serviceType =
      notification texts (byebyeHeaders texts bindAddr (serviceByebyeFrom dev serviceType)) := rfl

end Headers

/-! ### The requests of a tree -/

/-- A request is an alive notification of a pair. -/
def IsAlive (texts : NotifyTexts) (bindAddr : CString) (ssdpReq : HttpRequest) (pair : SsdpPair) :
    Prop :=
  ∃ leaseTime location bootId,
    ssdpReq = notification texts (aliveHeaders texts bindAddr leaseTime location bootId pair)

/-- A request is a byebye notification of a pair. -/
def IsByebye (texts : NotifyTexts) (bindAddr : CString) (ssdpReq : HttpRequest) (pair : SsdpPair) :
    Prop :=
  ssdpReq = notification texts (byebyeHeaders texts bindAddr pair)

section Requests

variable {texts : NotifyTexts} {bindAddr : CString}

theorem exists_of_forall₂_left {α β : Type*} {relation : α → β → Prop} {first : List α}
    {second : List β} (h : List.Forall₂ relation first second) {a : α} (ha : a ∈ first) :
    ∃ b ∈ second, relation a b := by
  induction h with
  | nil => cases ha
  | @cons c d first second hhead _ ih =>
    rcases List.mem_cons.mp ha with rfl | ha
    · exact ⟨d, List.mem_cons_self, hhead⟩
    · obtain ⟨b, hb, hrelation⟩ := ih ha
      exact ⟨b, List.mem_cons_of_mem _ hb, hrelation⟩

/-- The services of a device send alive notifications of what they announce. -/
theorem isAlive_services (rootDev dev : AnnouncedDevice) :
    List.Forall₂ (IsAlive texts bindAddr)
      (dev.serviceTypes.map (serviceAliveRequest texts bindAddr rootDev dev))
      (dev.serviceTypes.map (serviceAnnounceFrom dev.toDeviceEntry)) :=
  List.forall₂_map_left_iff.mpr (List.forall₂_map_right_iff.mpr (List.forall₂_same.mpr
    fun serviceType _ ↦
      ⟨_, _, _, serviceAliveRequest_eq texts bindAddr rootDev dev serviceType⟩))

theorem isByebye_services (dev : DeviceEntry) :
    List.Forall₂ (IsByebye texts bindAddr)
      (dev.serviceTypes.map (serviceByebyeRequest texts bindAddr dev))
      (dev.serviceTypes.map (serviceByebyeFrom dev)) :=
  List.forall₂_map_left_iff.mpr (List.forall₂_map_right_iff.mpr (List.forall₂_same.mpr
    fun serviceType _ ↦ serviceByebyeRequest_eq texts bindAddr dev serviceType))

/-- The requests of embedded devices are alive notifications of what they announce. -/
theorem isAlive_aliveRequestsIn (rootDev : AnnouncedDevice) (trees : List AnnouncedTree) :
    List.Forall₂ (IsAlive texts bindAddr) (aliveRequestsIn texts bindAddr rootDev trees)
      (announceFromIn (RoseTree.relabelIn LocatedDevice.toDeviceEntry
        (RoseTree.relabelIn AnnouncedDevice.toLocatedDevice trees))) := by
  induction trees using RoseTree.forest_induction with
  | nil => exact List.Forall₂.nil
  | cons dev devices rest ihDevices ihRest =>
    rw [aliveRequestsIn, aliveRequests, deviceRequests_alive]
    refine List.rel_append (List.rel_append (List.rel_append ?_ (isAlive_services rootDev dev))
      ihDevices) ihRest
    exact List.Forall₂.cons ⟨_, _, _, rfl⟩ (List.Forall₂.cons ⟨_, _, _, rfl⟩ List.Forall₂.nil)

/-- The first request of a tree is that of the root device, and the others are alive notifications
of what else the tree announces. -/
theorem aliveRequests_eq (root : AnnouncedTree) :
    ∃ rest, aliveRequests texts bindAddr root.value true root =
        notification texts (aliveHeaders texts bindAddr root.value.leaseTime
          (root.value.getLocationUrl bindAddr) (some root.value.bootId)
          (upnpRootDevice, lineBuffer (root.value.udn ++ "::".toList ++ upnpRootDevice))) :: rest ∧
      List.Forall₂ (IsAlive texts bindAddr) rest
        (announceFrom true (entries (located root))).tail := by
  obtain ⟨dev, devices⟩ := root
  refine ⟨_, by rw [RoseTree.value_node, aliveRequests, deviceRequests_alive]; rfl, ?_⟩
  refine List.Forall₂.cons ⟨_, _, _, rfl⟩ (List.Forall₂.cons ⟨_, _, _, rfl⟩ ?_)
  exact List.rel_append (isAlive_services dev dev) (isAlive_aliveRequestsIn dev devices)

theorem isByebye_byebyeRequestsIn (trees : List DeviceTree) :
    List.Forall₂ (IsByebye texts bindAddr) (byebyeRequestsIn texts bindAddr trees)
      (byebyeFromIn trees) := by
  induction trees using RoseTree.forest_induction with
  | nil => exact List.Forall₂.nil
  | cons dev devices rest ihDevices ihRest =>
    rw [byebyeRequestsIn, byebyeRequests, deviceRequests_byebye]
    refine List.rel_append (List.rel_append (List.rel_append ?_ (isByebye_services dev)) ihDevices)
      ihRest
    exact List.Forall₂.cons rfl (List.Forall₂.cons rfl List.Forall₂.nil)

/-- The requests of a tree that says goodbye are byebye notifications of what it announced, and the
first one is that of the root device. -/
theorem byebyeRequests_eq (root : DeviceTree) :
    ∃ rest, byebyeRequests texts bindAddr true root =
        notification texts (byebyeHeaders texts bindAddr
          (upnpRootDevice, lineBuffer (root.value.udn ++ "::".toList ++ upnpRootDevice))) :: rest ∧
      List.Forall₂ (IsByebye texts bindAddr) rest (byebyeFrom true root).tail := by
  obtain ⟨dev, devices⟩ := root
  refine ⟨_, by rw [byebyeRequests, deviceRequests_byebye]; rfl, ?_⟩
  refine List.Forall₂.cons rfl (List.Forall₂.cons rfl ?_)
  exact List.rel_append (isByebye_services dev) (isByebye_byebyeRequestsIn devices)

end Requests

/-! ### What is heard -/

/-- A request that can be written and fits the receive buffer. -/
structure IsDatagram (ssdpReq : HttpRequest) : Prop where
  fields : ∀ header ∈ ssdpReq.headers, IsField header
  length : (ssdpRequestToString ssdpReq).length ≤ dgramRecvBufSize

instance (ssdpReq : HttpRequest) : Decidable (IsDatagram ssdpReq) :=
  decidable_of_iff ((∀ header ∈ ssdpReq.headers, IsField header) ∧
      (ssdpRequestToString ssdpReq).length ≤ dgramRecvBufSize)
    ⟨fun h ↦ ⟨h.1, h.2⟩, fun h ↦ ⟨h.fields, h.length⟩⟩

/-- The packets that the listener of a receive thread is called with, when requests arrive one
after the other while the thread has a packet. -/
def packetsHeard (ssdpPkt : ReceivedPacket) (sender : Option (CString × ℤ))
    (selected : Option CString) (requests : List HttpRequest) : List ReceivedPacket :=
  receiveThread ssdpPkt (requests.map fun ssdpReq ↦
    .received ⟨ssdpRequestToString ssdpReq, sender, selected⟩)

/-- The header that the first line of a notification is read as. -/
def notifyHeader : HttpHeader := firstLineHeader "NOTIFY".toList "* HTTP/1.1".toList

theorem isFirstLine_notify : IsFirstLine "NOTIFY".toList "* HTTP/1.1".toList :=
  ⟨⟨by decide, by decide⟩, by decide, ⟨by decide, by decide, by decide⟩⟩

/-- Notifications are heard with their headers, each behind the one of its first line. -/
theorem packetsHeard_headers {texts : NotifyTexts} {requests : List HttpRequest}
    (h : ∀ ssdpReq ∈ requests, IsDatagram ssdpReq)
    (hnotify : ∀ ssdpReq ∈ requests, ssdpReq = notification texts ssdpReq.headers)
    {ssdpPkt : ReceivedPacket} (hclear : ssdpPkt.headers = []) (sender : Option (CString × ℤ))
    (selected : Option CString) :
    (packetsHeard ssdpPkt sender selected requests).map ReceivedPacket.headers =
      requests.map fun ssdpReq ↦ notifyHeader :: ssdpReq.headers := by
  have htext : ∀ ssdpReq ∈ requests, ssdpRequestToString ssdpReq =
      messageText "NOTIFY".toList "* HTTP/1.1".toList ssdpReq.headers := by
    intro ssdpReq hmem
    rw [hnotify ssdpReq hmem]
    exact (ssdpRequestToString_eq _).trans (by simp [notification])
  have hmessages : ∀ headers ∈ requests.map fun ssdpReq ↦ ssdpReq.headers,
      (∀ header ∈ headers, IsField header) ∧
        (messageText "NOTIFY".toList "* HTTP/1.1".toList headers).length ≤ dgramRecvBufSize := by
    intro headers hmem
    obtain ⟨ssdpReq, hreq, rfl⟩ := List.mem_map.mp hmem
    exact ⟨(h ssdpReq hreq).fields, htext ssdpReq hreq ▸ (h ssdpReq hreq).length⟩
  have hheard := headers_receiveThread isFirstLine_notify hmessages hclear sender selected
  rw [List.map_map, List.map_map] at hheard
  have hsent : (requests.map fun ssdpReq ↦
        Reception.received ⟨ssdpRequestToString ssdpReq, sender, selected⟩) =
      requests.map fun ssdpReq ↦ .received
        ⟨messageText "NOTIFY".toList "* HTTP/1.1".toList ssdpReq.headers, sender, selected⟩ :=
    List.map_congr_left fun ssdpReq hmem ↦ by rw [htext ssdpReq hmem]
  rw [packetsHeard, hsent]
  exact hheard

/-- The datagrams of a pass that are not about the root device do not mention it. -/
def NamesNoOtherRoot (pairs : List SsdpPair) : Prop :=
  ∀ pair ∈ pairs.tail, SsdpPacket.mentions (some pair.1) "upnp:rootdevice" = false ∧
    SsdpPacket.mentions (some pair.2) "upnp:rootdevice" = false

section Packet

variable {texts : NotifyTexts} {bindAddr : CString} {ssdpPkt : SsdpPacket} {leaseTime : ℤ}
  {location : CString} {bootId : Option ℤ} {pair : SsdpPair}

/-- What a control point reads in an alive notification. -/
theorem alive_values (h : ssdpPkt.headers =
    notifyHeader :: aliveHeaders texts bindAddr leaseTime location bootId pair) :
    ssdpPkt.getNt = some pair.1 ∧ ssdpPkt.getSt = none ∧ ssdpPkt.getUsn = some pair.2 ∧
      ssdpPkt.getNts = some "ssdp:alive".toList ∧ ssdpPkt.getLocation = some location ∧
      ssdpPkt.getCacheControl = some (leaseTimeText leaseTime) := by
  obtain ⟨localAddress, headers, timeStamp⟩ := ssdpPkt
  obtain rfl : headers = _ := h
  cases bootId with
  | none => exact ⟨rfl, rfl, rfl, rfl, rfl, rfl⟩
  | some bootId => exact ⟨rfl, rfl, rfl, rfl, rfl, rfl⟩

theorem byebye_values (h : ssdpPkt.headers = notifyHeader :: byebyeHeaders texts bindAddr pair) :
    ssdpPkt.getNt = some pair.1 ∧ ssdpPkt.getSt = none ∧ ssdpPkt.getUsn = some pair.2 ∧
      ssdpPkt.getNts = some "ssdp:byebye".toList := by
  obtain ⟨localAddress, headers, timeStamp⟩ := ssdpPkt
  obtain rfl : headers = _ := h
  exact ⟨rfl, rfl, rfl, rfl⟩

theorem isRootDevice_of_values (hnt : ssdpPkt.getNt = some pair.1) (hst : ssdpPkt.getSt = none)
    (husn : ssdpPkt.getUsn = some pair.2) :
    ssdpPkt.isRootDevice = (SsdpPacket.mentions (some pair.1) "upnp:rootdevice" ||
      SsdpPacket.mentions (some pair.2) "upnp:rootdevice") := by
  have hnone : SsdpPacket.mentions none "upnp:rootdevice" = false := rfl
  rw [SsdpPacket.isRootDevice, hnt, hst, husn, hnone, Bool.or_false]

/-- The lease time of a notification is read as it was written. -/
theorem getMaxAge_leaseTimeText (h : ssdpPkt.getCacheControl = some (leaseTimeText leaseTime))
    (hmin : -longMax - 1 ≤ leaseTime) (hmax : leaseTime ≤ longMax) :
    ssdpPkt.getMaxAge = leaseTime := by
  have htext : leaseTimeText leaseTime =
      [] ++ ("max-age".toList ++ ([] ++ '=' :: long2str leaseTime)) := rfl
  have hspan : (leaseTimeText leaseTime).drop (maxAgeSpan (leaseTimeText leaseTime)) =
      long2str leaseTime := rfl
  rw [SsdpPacket.getMaxAge_eq h htext, hspan]
  by_cases hneg : leaseTime < 0
  · exact atol_long2str_of_neg hneg hmin
  · exact atol_long2str (by omega) hmax

end Packet

/-- The UDN in the unique service name of a root device comes back. -/
theorem usnGetUdn_rootUsn {dev : DeviceEntry} (hfits : Fits true dev) (hudn : ReadableUdn dev.udn) :
    usnGetUdn (some (lineBuffer (dev.udn ++ "::".toList ++ upnpRootDevice))) udnLenMax =
      dev.udn := by
  have hname := hfits _ (rootDevice_mem_identities rfl)
  have hbuffer : lineBuffer (dev.udn ++ "::".toList ++ upnpRootDevice) =
      dev.typeUsn upnpRootDevice := by
    rw [List.append_assoc]
    exact lineBuffer_eq_self_iff.mpr hname
  rw [hbuffer]
  exact (usnGetUdn_typeUsn_iff (length_lt_of_typeUsn hname) upnpRootDevice).mpr hudn

section Heard

variable {texts : NotifyTexts} {bindAddr : CString}

/-- A pass is heard packet by packet; when only its first request mentions the root device, only the
first packet is about it. -/
theorem pass_heard {kind : HttpRequest → SsdpPair → Prop}
    (hkind : ∀ ssdpReq pair, kind ssdpReq pair → ssdpReq = notification texts ssdpReq.headers ∧
      ∀ ssdpPkt : SsdpPacket, ssdpPkt.headers = notifyHeader :: ssdpReq.headers →
        ssdpPkt.getNt = some pair.1 ∧ ssdpPkt.getSt = none ∧ ssdpPkt.getUsn = some pair.2)
    {headers : HttpHeaderList} {requests : List HttpRequest} {pairs : List SsdpPair}
    (hpairs : List.Forall₂ kind requests pairs)
    (hother : ∀ pair ∈ pairs, SsdpPacket.mentions (some pair.1) "upnp:rootdevice" = false ∧
      SsdpPacket.mentions (some pair.2) "upnp:rootdevice" = false)
    (hdatagram : ∀ ssdpReq ∈ notification texts headers :: requests, IsDatagram ssdpReq)
    {ssdpPkt : ReceivedPacket} (hclear : ssdpPkt.headers = []) (sender : Option (CString × ℤ))
    (selected : Option CString) :
    ∃ first rest, packetsHeard ssdpPkt sender selected (notification texts headers :: requests) =
        first :: rest ∧ first.headers = notifyHeader :: headers ∧
      ∀ ssdpPkt ∈ rest, ∀ timeStamp, (ssdpPkt.toSsdpPacket timeStamp).isRootDevice = false := by
  have hnotify : ∀ ssdpReq ∈ notification texts headers :: requests,
      ssdpReq = notification texts ssdpReq.headers := by
    rw [List.forall_mem_cons]
    refine ⟨rfl, fun ssdpReq hmem ↦ ?_⟩
    obtain ⟨pair, -, hpair⟩ := exists_of_forall₂_left hpairs hmem
    exact (hkind ssdpReq pair hpair).1
  have hheaders := packetsHeard_headers hdatagram hnotify hclear sender selected
  rw [List.map_cons] at hheaders
  obtain ⟨first, rest, hpackets, hfirst, hrest⟩ := List.map_eq_cons_iff.mp hheaders
  refine ⟨first, rest, hpackets, hfirst, fun other hmem timeStamp ↦ ?_⟩
  have hmap : other.headers ∈ rest.map ReceivedPacket.headers := List.mem_map_of_mem hmem
  rw [hrest] at hmap
  obtain ⟨ssdpReq, hreq, hsame⟩ := List.mem_map.mp hmap
  obtain ⟨pair, hpair, hrequest⟩ := exists_of_forall₂_left hpairs hreq
  obtain ⟨hnt, hst, husn⟩ := (hkind ssdpReq pair hrequest).2 (other.toSsdpPacket timeStamp)
    hsame.symm
  obtain ⟨hfirst, hsecond⟩ := hother pair hpair
  rw [isRootDevice_of_values hnt hst husn, hfirst, hsecond]
  rfl

/-- An alive notification is a notification, and what is heard of it names its pair. -/
theorem IsAlive.heard {ssdpReq : HttpRequest} {pair : SsdpPair}
    (h : IsAlive texts bindAddr ssdpReq pair) :
    ssdpReq = notification texts ssdpReq.headers ∧
      ∀ ssdpPkt : SsdpPacket, ssdpPkt.headers = notifyHeader :: ssdpReq.headers →
        ssdpPkt.getNt = some pair.1 ∧ ssdpPkt.getSt = none ∧ ssdpPkt.getUsn = some pair.2 := by
  obtain ⟨leaseTime, location, bootId, rfl⟩ := h
  refine ⟨rfl, fun ssdpPkt hsame ↦ ?_⟩
  obtain ⟨hnt, hst, husn, -⟩ := alive_values hsame
  exact ⟨hnt, hst, husn⟩

theorem IsByebye.heard {ssdpReq : HttpRequest} {pair : SsdpPair}
    (h : IsByebye texts bindAddr ssdpReq pair) :
    ssdpReq = notification texts ssdpReq.headers ∧
      ∀ ssdpPkt : SsdpPacket, ssdpPkt.headers = notifyHeader :: ssdpReq.headers →
        ssdpPkt.getNt = some pair.1 ∧ ssdpPkt.getSt = none ∧ ssdpPkt.getUsn = some pair.2 := by
  rw [IsByebye] at h
  subst h
  refine ⟨rfl, fun ssdpPkt hsame ↦ ?_⟩
  obtain ⟨hnt, hst, husn, -⟩ := byebye_values hsame
  exact ⟨hnt, hst, husn⟩

/-- The packets of an announcement pass, and which of them is about the root device. -/
theorem announcement_heard {root : AnnouncedTree}
    (hdatagram : ∀ ssdpReq ∈ aliveRequests texts bindAddr root.value true root, IsDatagram ssdpReq)
    (hfits : Fits true root.value.toDeviceEntry) (hudn : ReadableUdn root.value.udn)
    (hne : root.value.udn ≠ [])
    (hother : NamesNoOtherRoot (announceFrom true (entries (located root))))
    (hmin : -longMax - 1 ≤ root.value.leaseTime) (hmax : root.value.leaseTime ≤ longMax)
    {ssdpPkt : ReceivedPacket} (hclear : ssdpPkt.headers = []) (sender : Option (CString × ℤ))
    (selected : Option CString) :
    ∃ first rest, packetsHeard ssdpPkt sender selected
        (aliveRequests texts bindAddr root.value true root) = first :: rest ∧
      (∀ timeStamp, (first.toSsdpPacket timeStamp).isRootDevice = true ∧
        (first.toSsdpPacket timeStamp).isAlive = true ∧
        (first.toSsdpPacket timeStamp).getMaxAge = root.value.leaseTime ∧
        Discovery.ControlPoint.fetchTarget (first.toSsdpPacket timeStamp) =
          some (root.value.udn, root.value.getLocationUrl bindAddr)) ∧
      ∀ ssdpPkt ∈ rest, ∀ timeStamp, (ssdpPkt.toSsdpPacket timeStamp).isRootDevice = false := by
  obtain ⟨requests, hrequests, halive⟩ := @aliveRequests_eq texts bindAddr root
  rw [hrequests] at hdatagram ⊢
  obtain ⟨first, rest, hpackets, hfirst, hrest⟩ := pass_heard (fun _ _ ↦ IsAlive.heard) halive hother
    hdatagram hclear sender selected
  refine ⟨first, rest, hpackets, fun timeStamp ↦ ?_, hrest⟩
  obtain ⟨hnt, hst, husn, hnts, hlocation, hcache⟩ :=
    alive_values (show (first.toSsdpPacket timeStamp).headers = _ from hfirst)
  have hmentions : SsdpPacket.mentions (some upnpRootDevice) "upnp:rootdevice" = true := by decide
  refine ⟨?_, ?_, getMaxAge_leaseTimeText hcache hmin hmax, ?_⟩
  · rw [isRootDevice_of_values hnt hst husn, hmentions, Bool.true_or]
  · rw [SsdpPacket.isAlive, hnts]
    decide
  · have hlength : ¬ strlen (some root.value.udn) ≤ 0 := not_strlen_some_le_zero hne
    have hurl : ¬ strlen (some (root.value.getLocationUrl bindAddr)) ≤ 0 :=
      not_strlen_some_le_zero (List.cons_ne_nil _ _)
    unfold Discovery.ControlPoint.fetchTarget
    rw [husn, usnGetUdn_rootUsn hfits hudn, hlocation]
    simp only [if_neg (not_or.mpr ⟨hlength, hurl⟩), Option.map_some]

/-- The packets of a pass that says goodbye, and which of them is about the root device. -/
theorem byebye_heard {root : DeviceTree}
    (hdatagram : ∀ ssdpReq ∈ byebyeRequests texts bindAddr true root, IsDatagram ssdpReq)
    (hfits : Fits true root.value) (hudn : ReadableUdn root.value.udn)
    (hother : NamesNoOtherRoot (byebyeFrom true root)) {ssdpPkt : ReceivedPacket}
    (hclear : ssdpPkt.headers = []) (sender : Option (CString × ℤ)) (selected : Option CString) :
    ∃ first rest, packetsHeard ssdpPkt sender selected (byebyeRequests texts bindAddr true root) =
        first :: rest ∧
      (∀ timeStamp, (first.toSsdpPacket timeStamp).isRootDevice = true ∧
        (first.toSsdpPacket timeStamp).isAlive = false ∧
        (first.toSsdpPacket timeStamp).isByebye = true ∧
        usnGetUdn (first.toSsdpPacket timeStamp).getUsn udnLenMax = root.value.udn) ∧
      ∀ ssdpPkt ∈ rest, ∀ timeStamp, (ssdpPkt.toSsdpPacket timeStamp).isRootDevice = false := by
  obtain ⟨requests, hrequests, hbyebye⟩ := @byebyeRequests_eq texts bindAddr root
  rw [hrequests] at hdatagram ⊢
  obtain ⟨first, rest, hpackets, hfirst, hrest⟩ := pass_heard (fun _ _ ↦ IsByebye.heard) hbyebye
    hother hdatagram hclear sender selected
  refine ⟨first, rest, hpackets, fun timeStamp ↦ ?_, hrest⟩
  obtain ⟨hnt, hst, husn, hnts⟩ :=
    byebye_values (show (first.toSsdpPacket timeStamp).headers = _ from hfirst)
  have hmentions : SsdpPacket.mentions (some upnpRootDevice) "upnp:rootdevice" = true := by decide
  refine ⟨?_, ?_, ?_, ?_⟩
  · rw [isRootDevice_of_values hnt hst husn, hmentions, Bool.true_or]
  · rw [SsdpPacket.isAlive, hnts]
    decide
  · rw [SsdpPacket.isByebye, hnts]
    decide
  · rw [husn]
    exact usnGetUdn_rootUsn hfits hudn

end Heard

end Mupnp.Advertisement
