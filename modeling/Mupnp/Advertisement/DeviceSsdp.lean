import Mupnp.Foundation.RoseTree
import Mupnp.Net.NetUri
import Mupnp.Ssdp.SsdpPacket

/-!
# Announcements and search responses of a device

The device side of SSDP: `mupnp_device_announcefrom` and `mupnp_device_byebyefrom` of `device.c`
with their counterparts for services in `service.c`, and the answers to a search in
`device_ssdp_server.c` and `service_ssdp_server.c`. A device has the texts that its notification
types and its unique service names are made of, which are written into buffers of
`MUPNP_SSDP_HEADER_LINE_MAXSIZE` bytes.

Of a datagram that is sent, the model keeps the notification type or search target and the unique
service name. The device at the top is the one whose description was parsed, and with it the only
root device. The devices here have a UDN and a type, and so do their services; `DescribedDevice` is
a device whose description leaves some of these texts out.
-/

set_option autoImplicit false
set_option relaxedAutoImplicit false

namespace Mupnp.Advertisement

open Foundation Util Http Net Ssdp

/-- A device that has a UDN and a type, and the types of its services. -/
structure DeviceEntry where
  udn : CString
  deviceType : CString
  serviceTypes : List CString
  deriving DecidableEq

/-- A device with its embedded devices. -/
abbrev DeviceTree := RoseTree DeviceEntry

/-- The notification type or search target of a datagram, and its unique service name. -/
abbrev SsdpPair := CString × CString

/-- `MUPNP_SSDP_HEADER_LINE_MAXSIZE`. -/
def ssdpHeaderLineMaxSize : ℕ := 128

/-- What a buffer holds of a text that is written into it. -/
def lineBuffer (text : CString) : CString := text.take (ssdpHeaderLineMaxSize - 1)

/-- `MUPNP_DEVICE_UPNP_ROOTDEVICE` and `MUPNP_ST_ROOT_DEVICE`. -/
def upnpRootDevice : CString := "upnp:rootdevice".toList

namespace DeviceEntry

variable (dev : DeviceEntry)

/-- `mupnp_device_getnotifydevicent`. -/
def getNotifyDeviceNt (isRootDevice : Bool) : CString :=
  lineBuffer (if isRootDevice = false then dev.udn else upnpRootDevice)

/-- `mupnp_device_getnotifydeviceusn`. -/
def getNotifyDeviceUsn (isRootDevice : Bool) : CString :=
  lineBuffer (if isRootDevice = true then dev.udn ++ "::".toList ++ upnpRootDevice else dev.udn)

/-- `mupnp_device_getnotifydevicetypent`. -/
def getNotifyDeviceTypeNt : CString := lineBuffer dev.deviceType

/-- `mupnp_device_getnotifydevicetypeusn`. -/
def getNotifyDeviceTypeUsn : CString := lineBuffer (dev.udn ++ "::".toList ++ dev.deviceType)

/-- `mupnp_service_getnotifyservicetypent`. -/
def getNotifyServiceTypeNt (serviceType : CString) : CString := lineBuffer serviceType

/-- `mupnp_service_getnotifyservicetypeusn`, with the device of the service. -/
def getNotifyServiceTypeUsn (serviceType : CString) : CString :=
  lineBuffer (dev.udn ++ "::".toList ++ serviceType)

end DeviceEntry

/-! ### Announcements -/

/-- `mupnp_service_announcefrom`. -/
def serviceAnnounceFrom (dev : DeviceEntry) (serviceType : CString) : SsdpPair :=
  (DeviceEntry.getNotifyServiceTypeNt serviceType, dev.getNotifyServiceTypeUsn serviceType)

/-- `mupnp_service_byebyefrom`. -/
def serviceByebyeFrom (dev : DeviceEntry) (serviceType : CString) : SsdpPair :=
  (DeviceEntry.getNotifyServiceTypeNt serviceType, dev.getNotifyServiceTypeUsn serviceType)

mutual

/-- `mupnp_device_announcefrom`. -/
def announceFrom (isRootDevice : Bool) : DeviceTree → List SsdpPair
  | .node dev devices =>
    (if isRootDevice = true then
        [(dev.getNotifyDeviceNt isRootDevice, dev.getNotifyDeviceUsn isRootDevice)]
      else []) ++
      [(dev.getNotifyDeviceTypeNt, dev.getNotifyDeviceTypeUsn), (dev.udn, dev.udn)] ++
      dev.serviceTypes.map (serviceAnnounceFrom dev) ++ announceFromIn devices

/-- The loop of `mupnp_device_announcefrom` over the embedded devices. -/
def announceFromIn : List DeviceTree → List SsdpPair
  | [] => []
  | childDev :: rest => announceFrom false childDev ++ announceFromIn rest

end

mutual

/-- `mupnp_device_byebyefrom`. -/
def byebyeFrom (isRootDevice : Bool) : DeviceTree → List SsdpPair
  | .node dev devices =>
    (if isRootDevice = true then
        [(dev.getNotifyDeviceNt isRootDevice, dev.getNotifyDeviceUsn isRootDevice)]
      else []) ++
      [(dev.getNotifyDeviceTypeNt, dev.getNotifyDeviceTypeUsn), (dev.udn, dev.udn)] ++
      dev.serviceTypes.map (serviceByebyeFrom dev) ++ byebyeFromIn devices

/-- The loop of `mupnp_device_byebyefrom` over the embedded devices. -/
def byebyeFromIn : List DeviceTree → List SsdpPair
  | [] => []
  | childDev :: rest => byebyeFrom false childDev ++ byebyeFromIn rest

end

/-- The loop of `mupnp_device_announce` for the address of one interface, with
`mupnp_ssdp_getannouncecount`. -/
def announce (root : DeviceTree) (ssdpCount : ℕ) : List SsdpPair :=
  (List.replicate ssdpCount (announceFrom true root)).flatten

/-- The loop of `mupnp_device_byebye` for the address of one interface. -/
def byebye (root : DeviceTree) (ssdpCount : ℕ) : List SsdpPair :=
  (List.replicate ssdpCount (byebyeFrom true root)).flatten

/-! ### Searches -/

/-- `mupnp_st_isalldevice`. -/
def stIsAllDevice (st : Option CString) : Bool := SsdpPacket.mentions st "ssdp:all"

/-- `mupnp_st_isrootdevice`. -/
def stIsRootDevice (st : Option CString) : Bool := SsdpPacket.mentions st "upnp:rootdevice"

/-- `mupnp_st_isuuiddevice`. -/
def stIsUuidDevice (st : Option CString) : Bool := SsdpPacket.mentions st "uuid"

/-- `mupnp_st_isurn`. -/
def stIsUrn (st : Option CString) : Bool := SsdpPacket.mentions st "urn"

/-- A search request: the text of the datagram and its headers. -/
structure SearchRequest where
  data : CString
  headers : HttpHeaderList
  deriving DecidableEq

namespace SearchRequest

def getHeaderValue (ssdpPkt : SearchRequest) (name : String) : Option CString :=
  headerListGetValue ssdpPkt.headers name.toList

/-- `mupnp_ssdp_packet_getst`. -/
def getSt (ssdpPkt : SearchRequest) : Option CString := ssdpPkt.getHeaderValue "ST"

/-- The loop of `mupnp_ssdp_packet_getmx`. -/
def mxValue (mx : ℕ) : CString → ℕ
  | [] => mx
  | c :: rest =>
    if c.isDigit = false then 0
    else mxValue (if mx < 5 then min 5 (10 * mx + (c.toNat - '0'.toNat)) else mx) rest

/-- `mupnp_ssdp_packet_getmx`. -/
def getMx (ssdpPkt : SearchRequest) : ℕ := mxValue 0 ((ssdpPkt.getHeaderValue "MX").getD [])

/-- The checks that `mupnp_device_ssdpmessagereceived` makes of a request that comes in; whether
`filter_duplicate_m_search` has seen it before is given. -/
def isAccepted (ssdpPkt : SearchRequest) (isDuplicate : Bool) : Bool :=
  let ssdpMxString := ssdpPkt.getHeaderValue "MX"
  let ssdpTargetAddr := ssdpPkt.getHeaderValue "HOST"
  SsdpPacket.mentions (some ssdpPkt.data) "M-SEARCH" &&
    SsdpPacket.mentions (some ssdpPkt.data) "*" &&
    SsdpPacket.mentions (some ssdpPkt.data) "HTTP/1.1" &&
    (strcmp ssdpTargetAddr (some "239.255.255.250:1900".toList) == 0 ||
      isIpv6Address ssdpTargetAddr) &&
    strstr (ssdpPkt.getHeaderValue "MAN") (some "\"ssdp:discover\"".toList) == 0 &&
    decide (0 < strlen ssdpMxString) && (ssdpMxString.getD []).all Char.isDigit &&
    decide (0 < strlen ssdpPkt.getSt) && !isDuplicate && decide (1 ≤ ssdpPkt.getMx)

end SearchRequest

/-- `mupnp_device_postsearchresponse`: the response is sent `mupnp_ssdp_getannouncecount` times. -/
def postSearchResponse (ssdpCount : ℕ) (st usn : CString) : List SsdpPair :=
  List.replicate ssdpCount (st, usn)

/-- `mupnp_service_ssdpmessagereceived`. -/
def serviceSsdpMessageReceived (ssdpCount : ℕ) (ssdpPkt : SearchRequest) (dev : DeviceEntry)
    (serviceType : CString) : List SsdpPair :=
  let ssdpSt := ssdpPkt.getSt
  if strlen ssdpSt ≤ 0 then []
  else if stIsAllDevice ssdpSt = true then
    postSearchResponse ssdpCount (DeviceEntry.getNotifyServiceTypeNt serviceType)
      (dev.getNotifyServiceTypeUsn serviceType)
  else if stIsUrn ssdpSt = true then
    if streq ssdpSt (some serviceType) = true then
      postSearchResponse ssdpCount serviceType (dev.getNotifyServiceTypeUsn serviceType)
    else []
  else []

/-- What `mupnp_device_ssdpmessagereceived` answers for the device itself. -/
def deviceResponses (ssdpCount : ℕ) (ssdpPkt : SearchRequest) (isRootDevice : Bool)
    (dev : DeviceEntry) : List SsdpPair :=
  let ssdpSt := ssdpPkt.getSt
  if stIsAllDevice ssdpSt = true then
    (if isRootDevice = true then
        postSearchResponse ssdpCount (dev.getNotifyDeviceNt isRootDevice)
          (dev.getNotifyDeviceUsn isRootDevice)
      else []) ++
      postSearchResponse ssdpCount dev.getNotifyDeviceTypeNt dev.getNotifyDeviceTypeUsn ++
      postSearchResponse ssdpCount dev.udn dev.udn
  else if stIsRootDevice ssdpSt = true then
    if isRootDevice = true then
      postSearchResponse ssdpCount upnpRootDevice (dev.getNotifyDeviceUsn isRootDevice)
    else []
  else if stIsUuidDevice ssdpSt = true then
    if streq ssdpSt (some dev.udn) = true then postSearchResponse ssdpCount dev.udn dev.udn else []
  else if stIsUrn ssdpSt = true then
    if streq ssdpSt (some dev.deviceType) = true then
      postSearchResponse ssdpCount dev.deviceType dev.getNotifyDeviceTypeUsn
    else []
  else []

mutual

/-- `mupnp_device_ssdpmessagereceived` behind its checks. -/
def deviceSsdpMessageReceived (ssdpCount : ℕ) (ssdpPkt : SearchRequest) (isRootDevice : Bool) :
    DeviceTree → List SsdpPair
  | .node dev devices =>
    deviceResponses ssdpCount ssdpPkt isRootDevice dev ++
      dev.serviceTypes.flatMap (serviceSsdpMessageReceived ssdpCount ssdpPkt dev) ++
      deviceSsdpMessageReceivedIn ssdpCount ssdpPkt devices

/-- The loop of `mupnp_device_ssdpmessagereceived` over the embedded devices, which do not check the
request again. -/
def deviceSsdpMessageReceivedIn (ssdpCount : ℕ) (ssdpPkt : SearchRequest) :
    List DeviceTree → List SsdpPair
  | [] => []
  | childDev :: rest =>
    deviceSsdpMessageReceived ssdpCount ssdpPkt false childDev ++
      deviceSsdpMessageReceivedIn ssdpCount ssdpPkt rest

end

/-- `mupnp_device_ssdplistener`: what is sent in answer to a request that comes in. -/
def searchResponses (root : DeviceTree) (ssdpCount : ℕ) (ssdpPkt : SearchRequest)
    (isDuplicate : Bool) : List SsdpPair :=
  if ssdpPkt.isAccepted isDuplicate = true then
    deviceSsdpMessageReceived ssdpCount ssdpPkt true root
  else []

end Mupnp.Advertisement
