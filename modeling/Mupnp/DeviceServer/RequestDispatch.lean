import Mupnp.Http.HttpRequest
import Mupnp.Http.HttpResponse
import Mupnp.Service.ServiceUrl
import Mupnp.Xml.XmlSerialize

/-!
# The HTTP server of a device

`device_http_server.c` up to the point where a request has found what it is about, with the
lookups of `device.c` and `service.c` that it uses: where a request goes, and what a request for a
description is answered with. A text is a string of bytes here, one character each.

A device serves a tree of devices. Only the root has a document of its own, so that only the root
has an XML tree and the `URLBase` in it; an embedded device that is found by its description
address is answered with an empty document.
-/

set_option autoImplicit false
set_option relaxedAutoImplicit false

namespace Mupnp.DeviceServer

open Foundation Http Net Service Util Xml

/-! ### Escaped addresses -/

/-- `mupnp_net_uri_isalphanumchar`. -/
def isAlphanumChar (c : Char) : Bool :=
  ('a' ≤ c && c ≤ 'z') || ('A' ≤ c && c ≤ 'Z') || ('0' ≤ c && c ≤ '9')

/-- `mupnp_net_uri_isescapedstring`: the first percent sign has two hexadecimal digits behind it. -/
def isEscapedString (buf : CString) : Bool :=
  match buf.dropWhile (· ≠ '%') with
  | _ :: first :: second :: _ =>
    (HttpPacket.hexDigit first).isSome && (HttpPacket.hexDigit second).isSome
  | _ => false

/-- The loop of `mupnp_net_uri_unescapestring`: a percent sign with two letters or digits behind it
is one byte, whose value is what `strtol` reads of the two. -/
def unescapeChars : CString → CString
  | [] => []
  | [c] => [c]
  | [c, d] => [c, d]
  | c :: first :: second :: rest =>
    if c = '%' ∧ isAlphanumChar first = true ∧ isAlphanumChar second = true then
      Char.ofNat (HttpPacket.hexValue 0 [first, second]).1 :: unescapeChars rest
    else c :: unescapeChars (first :: second :: rest)

/-- The target of a request as `mupnp_device_httprequestrecieved` leaves it: a target that counts as
escaped stays as it is. -/
def receivedUri (uri : Option CString) : Option CString :=
  if strlen uri ≤ 0 then uri
  else if isEscapedString (uri.getD []) then uri
  else some (bufferString (unescapeChars (uri.getD [])))

/-! ### Devices that are served -/

/-- A service of a device that is served, with the XML tree of its description. -/
structure ServedService where
  scpdUrl : Option CString
  controlUrl : Option CString
  eventSubUrl : Option CString
  scpdNode : Option XmlNode
  deriving DecidableEq

/-- A device that is served, besides its embedded devices; only the root has an XML tree. -/
structure ServedObject where
  descriptionUri : Option CString
  rootNode : Option XmlNode
  services : List ServedService

abbrev ServedDevice := RoseTree ServedObject

/-- A root device with its HTTP server. -/
structure HttpDevice where
  tree : ServedDevice
  httpPort : ℤ
  location : Option CString
  presentationUrl : Option CString
  hasPresentationListener : Bool

namespace HttpDevice

/-- `mupnp_device_geturlbase`. -/
def getUrlBase (dev : HttpDevice) : Option CString :=
  dev.tree.value.rootNode.bind fun rootNode ↦ rootNode.getChildNodeValue "URLBase".toList

/-- `mupnp_service_mangleurl` for an address of a service of the device. -/
def mangleUrl (dev : HttpDevice) (serviceUrl : Option CString) : Option NetUri :=
  mangleAbsoluteUrl serviceUrl dev.getUrlBase dev.location

/-- `mupnp_service_isscpdurl`. -/
def isScpdUrl (url : Option CString) (service : ServedService) : Bool :=
  NetUri.isEquivalent service.scpdUrl url

/-- The comparison of `mupnp_device_getservicebycontrolurl`: the address of the service contains the
target. -/
def isControlUrl (dev : HttpDevice) (url : Option CString) (service : ServedService) : Bool :=
  match dev.mangleUrl service.controlUrl with
  | some serviceUrl => decide (strstr serviceUrl.getRequest url ≠ -1)
  | none => false

/-- The comparison of `mupnp_device_getservicebyeventsuburl`: the target is the path of the address.
-/
def isEventSubUrl (dev : HttpDevice) (url : Option CString) (service : ServedService) : Bool :=
  match dev.mangleUrl service.eventSubUrl with
  | some eventSubUrl => streq eventSubUrl.path url
  | none => false

/-- The search of the three lookups of a service by a target: the services of a device come before
those of the devices embedded in it. -/
def getServiceBy (dev : HttpDevice) (url : Option CString) (isUrl : ServedService → Bool) :
    Option ServedService :=
  if strlen url ≤ 0 then none else dev.tree.search ServedObject.services isUrl

/-- `mupnp_device_getservicebyscpdurl`. -/
def getServiceByScpdUrl (dev : HttpDevice) (url : Option CString) : Option ServedService :=
  dev.getServiceBy url (isScpdUrl url)

/-- `mupnp_device_getservicebycontrolurl`. -/
def getServiceByControlUrl (dev : HttpDevice) (url : Option CString) : Option ServedService :=
  dev.getServiceBy url (dev.isControlUrl url)

/-- `mupnp_device_getservicebyeventsuburl`. -/
def getServiceByEventSubUrl (dev : HttpDevice) (url : Option CString) : Option ServedService :=
  dev.getServiceBy url (dev.isEventSubUrl url)

end HttpDevice

mutual

/-- `mupnp_device_getdevicebydescriptionuri`. -/
def getDeviceByDescriptionUri : ServedDevice → Option CString → Option ServedObject
  | .node object devices, url =>
    if strlen url ≤ 0 then none else searchByDescriptionUri object url devices

/-- The loop of `mupnp_device_getdevicebydescriptionuri` over the embedded devices: at each of them
it is the device that holds them whose address is compared. -/
def searchByDescriptionUri (object : ServedObject) (url : Option CString) :
    List ServedDevice → Option ServedObject
  | [] => none
  | childDev :: rest =>
    if streq object.descriptionUri url then some object
    else
      match getDeviceByDescriptionUri childDev url with
      | some moreChildDev => some moreChildDev
      | none => searchByDescriptionUri object url rest

end

/-! ### Where a request goes -/

/-- What a request is handed to, or the status code that it is answered with at once. -/
inductive Dispatch where
  | presentation
  | description (object : ServedObject)
  | scpd (service : ServedService)
  | control (service : ServedService)
  | subscription (service : ServedService)
  | status (code : ℤ)

def isMethod (httpReq : HttpRequest) (method : String) : Bool :=
  streq httpReq.method (some method.toList)

/-- `mupnp_http_request_issoapaction`. -/
def isSoapAction (httpReq : HttpRequest) : Bool :=
  httpReq.toHttpPacket.hasHeader "SOAPACTION".toList || isMethod httpReq "M-POST"

namespace HttpDevice

/-- `mupnp_device_ispresentationrequest`: the target contains the address of the presentation behind
its first character. -/
def isPresentationRequest (dev : HttpDevice) (httpReq : HttpRequest) : Bool :=
  isMethod httpReq "GET" && dev.presentationUrl.isSome && httpReq.uri.isSome &&
    decide (0 < strstr httpReq.uri dev.presentationUrl)

/-- `mupnp_device_getrequestrecieved` up to the document that is asked for. -/
def getRequestReceived (dev : HttpDevice) (url : Option CString) : Dispatch :=
  if strlen url ≤ 0 then .status 400
  else if streq dev.tree.value.descriptionUri url then .description dev.tree.value
  else
    match dev.getServiceByScpdUrl url with
    | some embService => .scpd embService
    | none =>
      match getDeviceByDescriptionUri dev.tree url with
      | some embDev => .description embDev
      | none => .status 404

/-- `mupnp_device_postrequestrecieved` and `mupnp_device_soapactionrecieved`. -/
def postRequestReceived (dev : HttpDevice) (httpReq : HttpRequest) : Dispatch :=
  if isSoapAction httpReq then
    match dev.getServiceByControlUrl httpReq.uri with
    | some ctrlService => .control ctrlService
    | none => .status 400
  else .status 400

/-- `mupnp_device_subscriptionrecieved` up to the service that is asked for. -/
def subscriptionReceived (dev : HttpDevice) (uri : Option CString) : Dispatch :=
  if strlen uri ≤ 0 then .status 412
  else
    match dev.getServiceByEventSubUrl uri with
    | some service => .subscription service
    | none => .status 412

/-- `mupnp_device_httprequestrecieved` up to what the request is about. -/
def dispatch (dev : HttpDevice) (received : HttpRequest) : Dispatch :=
  let httpReq := { received with uri := receivedUri received.uri }
  if dev.isPresentationRequest httpReq && dev.hasPresentationListener then .presentation
  else if isMethod httpReq "GET" || isMethod httpReq "HEAD" then dev.getRequestReceived httpReq.uri
  else if isMethod httpReq "POST" || isMethod httpReq "M-POST" then dev.postRequestReceived httpReq
  else if isMethod httpReq "SUBSCRIBE" || isMethod httpReq "UNSUBSCRIBE" then
    dev.subscriptionReceived httpReq.uri
  else .status 400

end HttpDevice

/-! ### Documents -/

/-- `MUPNP_DEVICE_URLBASE_MAXLEN`. -/
def urlBaseMaxLen : ℕ := 64

/-- `mupnp_net_gethosturl` with an empty path, into a buffer of a size: the zone index of an IPv6
address is written behind an escaped percent sign. -/
def getHostUrl (host : CString) (port : ℤ) (bufSize : ℕ) : CString :=
  let hostText :=
    if isIpv6Address (some host) then
      let zone := host.dropWhile (· ≠ '%')
      "[".toList ++ host.takeWhile (· ≠ '%') ++
        (if zone = [] then [] else "%25".toList ++ zone.tail) ++ "]".toList
    else host
  ("http://".toList ++ hostText ++ ":".toList ++ long2str port).take (bufSize - 1)

/-- The text of a document: the declaration and the XML tree. -/
def documentText (node : Option XmlNode) : Option CString :=
  node.map fun node ↦ "<?xml version=\"1.0\"?>".toList ++ "\n".toList ++ nodeToString node

/-- `mupnp_device_getdescription`: outside of the NMPR mode the base address of a root device is
updated first. -/
def HttpDevice.getDescription (dev : HttpDevice) (nmprMode : Bool) (ifAddr : CString)
    (object : ServedObject) : Option CString :=
  documentText (object.rootNode.map fun rootNode ↦
    if nmprMode then rootNode
    else
      rootNode.setChildNode "URLBase".toList
        (some (getHostUrl ifAddr dev.httpPort urlBaseMaxLen)))

/-- The document that a request is about; a document without an XML tree has no text. -/
def HttpDevice.document (dev : HttpDevice) (nmprMode : Bool) (ifAddr : CString) :
    Dispatch → Option (Option CString)
  | .description object => some (dev.getDescription nmprMode ifAddr object)
  | .scpd service => some (documentText service.scpdNode)
  | _ => none

/-- The response of `mupnp_device_getrequestrecieved` with a document. A request for the header
alone gives the content `NULL`, which leaves it as it is. -/
def documentResponse (isHead : Bool) (descStr : Option CString) : HttpResponse :=
  let coded := HttpResponse.new.setStatusCode 200
  let typed := { coded with
    toHttpPacket := coded.toHttpPacket.setHeaderValue "Content-Type".toList
      (some "text/xml; charset=\"utf-8\"".toList) }
  let filled := { typed with content := stringSetValue typed.content descStr }
  let sized := { filled with
    toHttpPacket := filled.toHttpPacket.setContentLength (stringLength descStr) }
  if isHead then { sized with content := stringSetValue sized.content none } else sized

/-- The answer to a request for a document. -/
def HttpDevice.answer (dev : HttpDevice) (nmprMode : Bool) (ifAddr : CString)
    (httpReq : HttpRequest) : Option HttpResponse :=
  (dev.document nmprMode ifAddr (dev.dispatch httpReq)).map
    (documentResponse (isMethod httpReq "HEAD"))

end Mupnp.DeviceServer
