import Mupnp.Event.StateVariable
import Mupnp.Event.Subscriber
import Mupnp.Http.HttpHeaderList
import Mupnp.Xml.XmlNode

/-!
# NOTIFY messages

`event/notify_request.c`: the message by which a device tells a subscriber the values of state
variables, and what a control point takes out of it. `setPropertySetNode` builds the message;
`getPropertyList` reads the properties back from the parsed body.

`DeliverySubscriber.notifyHttpRequest` adds the address to which the message is posted and the
headers `HOST`, `Connection` and `Server`.
-/

set_option autoImplicit false
set_option relaxedAutoImplicit false

namespace Mupnp.Event

open Foundation Util Http Xml

/-- `mUpnpProperty`: a property as a control point receives it. -/
structure Property where
  name : Option CString
  value : Option CString
  sid : Option CString
  seq : BitVec 64
  deriving DecidableEq

/-- The headers of a NOTIFY request and the root node that its body was built from or parsed to. -/
structure NotifyRequest where
  headers : HttpHeaderList
  root : Option XmlNode

/-- `MUPNP_SUBSCRIPTION_SID_HEADER_SIZE`. -/
def sidHeaderSize : ℕ := 5 + (128 + 8)

/-- `mupnp_event_subscription_tosidheaderstring`: the prefix `uuid:` is added when the SID does not
contain it. -/
def toSidHeaderString (sid : CString) : CString :=
  if 0 ≤ strstr (some sid) (some "uuid:".toList) then sid.take (sidHeaderSize - 1)
  else ("uuid:".toList ++ sid).take (sidHeaderSize - 1)

/-- `mupnp_event_subscription_getsid`: the text after the first colon. -/
def subscriptionGetSid (headerValue : Option CString) : Option CString :=
  headerValue.map fun headerValue ↦
    let colonIdx := strstr (some headerValue) (some ":".toList)
    if colonIdx < 0 then headerValue else headerValue.drop (colonIdx.toNat + 1)

theorem subscriptionGetSid_of_not_mem {headerValue : CString} (h : ':' ∉ headerValue) :
    subscriptionGetSid (some headerValue) = some headerValue := by
  have hcolon : strstr (some headerValue) (some ":".toList) = -1 := strstr_singleton_of_not_mem h
  unfold subscriptionGetSid
  rw [Option.map_some, hcolon, if_pos (by decide)]

theorem subscriptionGetSid_append {before : CString} (h : ':' ∉ before) (after : CString) :
    subscriptionGetSid (some (before ++ ':' :: after)) = some after := by
  have hcolon : strstr (some (before ++ ':' :: after)) (some ":".toList) = before.length :=
    strstr_singleton_append h after
  unfold subscriptionGetSid
  rw [Option.map_some, hcolon, if_neg (by omega)]
  simp

namespace NotifyRequest

/-- `mupnp_event_notify_request_getsid`. -/
def getSid (notifyReq : NotifyRequest) : Option CString :=
  subscriptionGetSid (headerListGetValue notifyReq.headers "SID".toList)

/-- `mupnp_event_notify_request_getseq`: the number that the header starts with, as a `size_t`. -/
def getSeq (notifyReq : NotifyRequest) : BitVec 64 :=
  BitVec.ofInt 64 (str2long (headerListGetValue notifyReq.headers "SEQ".toList))

end NotifyRequest

/-! ### Building the message -/

/-- The node for a property: its only child has the name and the value of the variable. -/
def propertyNode (statVar : StateVariable) : XmlNode :=
  (XmlNode.new.setName (some "e:property".toList)).addChildNode
    ((XmlNode.new.setName statVar.name).setValue statVar.value)

/-- `mupnp_event_notify_request_createpropertysetnode`: all evented variables of a service, or one
variable. -/
def createPropertySetNode (service : Option (List StateVariable)) (statVar : Option StateVariable) :
    XmlNode :=
  let propSetNode := (XmlNode.new.setName (some "e:propertyset".toList)).setNamespace "e".toList
    (some "urn:schemas-upnp-org:event-1-0".toList)
  match service with
  | some statVars =>
    (statVars.filter StateVariable.isSendEvents).foldl
      (fun node statVar ↦ node.addChildNode (propertyNode statVar)) propSetNode
  | none =>
    match statVar with
    | some statVar => propSetNode.addChildNode (propertyNode statVar)
    | none => propSetNode

/-- `mupnp_event_notify_request_setpropertysetnode`. -/
def setPropertySetNode (sub : Subscriber) (service : Option (List StateVariable))
    (statVar : Option StateVariable) : NotifyRequest where
  headers :=
    let named := headerListSet (headerListSet [] "NT".toList (some "upnp:event".toList))
      "NTS".toList (some "upnp:propchange".toList)
    let identified := headerListSet named "SID".toList (some (toSidHeaderString (sub.sid.getD [])))
    let numbered := headerListSet identified "SEQ".toList (some (long2str sub.notifyCount))
    headerListSet numbered "Content-Type".toList (some "text/xml; charset=\"utf-8\"".toList)
  root := some (createPropertySetNode service statVar)

/-! ### Reading the message -/

/-- `mupnp_property_createfromnode`: a namespace prefix is dropped. -/
def createPropertyFromNode (varNode : Option XmlNode) : Property :=
  match varNode with
  | none => ⟨none, none, none, 0⟩
  | some varNode =>
    let colonIdx := strstr varNode.name (some ":".toList)
    let varName :=
      if 0 ≤ colonIdx then varNode.name.map (·.drop (colonIdx.toNat + 1)) else varNode.name
    ⟨stringSetValue none varName, stringSetValue none varNode.text, none, 0⟩

/-- `mupnp_event_notify_request_getpropertylist`: the first child of each property node. -/
def NotifyRequest.getPropertyList (notifyReq : NotifyRequest) : List Property :=
  match notifyReq.root with
  | none => []
  | some propSetNode => propSetNode.children.map fun propNode ↦
    { createPropertyFromNode propNode.children.head? with
      sid := stringSetValue none notifyReq.getSid
      seq := notifyReq.getSeq }

/-! ### The headers -/

theorem setPropertySetNode_getSid (sub : Subscriber) (service : Option (List StateVariable))
    (statVar : Option StateVariable) :
    (setPropertySetNode sub service statVar).getSid =
      subscriptionGetSid (some (toSidHeaderString (sub.sid.getD []))) := by
  rw [NotifyRequest.getSid, setPropertySetNode]
  simp only
  rw [headerListGetValue_set_of_ne _ (by decide), headerListGetValue_set_of_ne _ (by decide),
    headerListGetValue_set_self]

/-- The sequence number of a message is the notify count of its subscriber. -/
theorem setPropertySetNode_getSeq {sub : Subscriber} (hpos : 0 ≤ sub.notifyCount)
    (hmax : sub.notifyCount ≤ longMax) (service : Option (List StateVariable))
    (statVar : Option StateVariable) :
    (setPropertySetNode sub service statVar).getSeq = BitVec.ofInt 64 sub.notifyCount := by
  rw [NotifyRequest.getSeq, setPropertySetNode]
  simp only
  rw [headerListGetValue_set_of_ne _ (by decide), headerListGetValue_set_self, str2long,
    Option.map_some, Option.getD_some, atol_long2str hpos hmax]

end Mupnp.Event
