import Mupnp.Discovery.Device
import Mupnp.Event.NotifyRequest

/-!
# Events at the control point

`controlpoint_http_server.c` with the subscription functions of `controlpoint_event.c`: what a
control point does with a NOTIFY message for a service of a cached device. `notifyReceived` is the
branch of `mupnp_controlpoint_httprequestreceived` for the service that the SID of the message
belongs to; a message whose SID belongs to no service is acknowledged and has no effect.

A subscription request that the control point posts is answered by the network: a step that posts
one takes the answer as an argument, `none` when it is not successful. The event listeners are
left out.
-/

set_option autoImplicit false
set_option relaxedAutoImplicit false

namespace Mupnp.Event

open Util Discovery

/-- A service of a cached device with the state table of its description. -/
structure EventedService extends Service where
  stateTable : List StateVariable

/-- A successful answer to a subscription request, with the time at which it came. -/
structure SubscriptionGrant where
  sid : Option CString
  timeout : ℤ
  time : ℤ

/-- What becomes of a NOTIFY message. -/
inductive NotifyOutcome where
  | ignored
  | applied
  | resubscribed
  deriving DecidableEq

/-- `MUPNP_EVENT_MAX_SEQ`. -/
def eventMaxSeq : BitVec 64 := 2147483647

namespace EventedService

def isSubscribed (service : EventedService) : Bool := service.toService.isSubscribed

/-- The test of `mupnp_device_getservicebysid` for one service: on a control point, a service has no
subscribers of its own. -/
def hasSid (service : EventedService) (sid : Option CString) : Bool :=
  decide (0 < strlen sid) && service.isSubscribed && decide (strcmp service.subscriptionSid sid = 0)

/-- `mupnp_controlpoint_unsubscribe`: whatever the answer, the subscription is forgotten. -/
def unsubscribe (service : EventedService) : EventedService :=
  { service with
    subscriptionSid := stringSetValue service.subscriptionSid (some [])
    subscriptionTimeout := 0
    subscriptionTimestamp := 0 }

/-- `mupnp_controlpoint_subscribe` on a service that is not subscribed. -/
def subscribe (service : EventedService) (answer : Option SubscriptionGrant) : EventedService :=
  match answer with
  | some grant =>
    { service with
      eventKey := 0
      subscriptionSid := stringSetValue service.subscriptionSid grant.sid
      subscriptionTimeout := grant.timeout
      subscriptionTimestamp := grant.time }
  | none =>
    { service with
      eventKey := 0
      subscriptionSid := stringSetValue service.subscriptionSid (some []) }

/-- `mupnp_controlpoint_updatestatetablefromproperty`. -/
def updateStateTableFromProperty (service : EventedService) (prop : Property) : EventedService :=
  { service with stateTable := setStateVariableByName service.stateTable prop.name prop.value }

/-- The test for the sequence number: it starts the subscription or follows the event key. -/
def acceptsSeq (service : EventedService) (seq : BitVec 64) : Bool :=
  !(seq != 0 && seq != service.eventKey + 1)

/-- The event key that is stored when a sequence number was accepted. -/
def nextEventKey (seq : BitVec 64) : BitVec 64 := if seq = eventMaxSeq then 0 else seq

/-- The NOTIFY branch of `mupnp_controlpoint_httprequestreceived` for one service. -/
def notifyReceived (service : EventedService) (notifyReq : NotifyRequest)
    (answer : Option SubscriptionGrant) : EventedService × NotifyOutcome :=
  if service.hasSid notifyReq.getSid then
    let seq := notifyReq.getSeq
    if service.acceptsSeq seq then
      let keyed := { service with eventKey := nextEventKey seq }
      (notifyReq.getPropertyList.foldl updateStateTableFromProperty keyed, .applied)
    else (service.unsubscribe.subscribe answer, .resubscribed)
  else (service, .ignored)

/-! ### What a message changes -/

/-- Applying properties touches the state table only. -/
theorem foldl_updateStateTable_eq (properties : List Property) (service : EventedService) :
    (properties.foldl updateStateTableFromProperty service).toService = service.toService := by
  induction properties generalizing service with
  | nil => rfl
  | cons prop rest ih => exact ih (service.updateStateTableFromProperty prop)

theorem acceptsSeq_iff {service : EventedService} {seq : BitVec 64} :
    service.acceptsSeq seq = true ↔ seq = 0 ∨ seq = service.eventKey + 1 := by
  by_cases hzero : seq = 0 <;> simp [acceptsSeq, hzero]

/-- Which messages are for a service depends on its SID only. -/
theorem hasSid_congr {service service' : EventedService}
    (h : service'.subscriptionSid = service.subscriptionSid) (sid : Option CString) :
    service'.hasSid sid = service.hasSid sid := by
  simp only [hasSid, isSubscribed, Service.isSubscribed, h]

/-- A message for the service with a sequence number that is accepted. -/
theorem notifyReceived_of_accepts {service : EventedService} {notifyReq : NotifyRequest}
    (hsid : service.hasSid notifyReq.getSid = true)
    (hseq : service.acceptsSeq notifyReq.getSeq = true) (answer : Option SubscriptionGrant) :
    (service.notifyReceived notifyReq answer).2 = .applied ∧
      (service.notifyReceived notifyReq answer).1.toService =
        { service.toService with eventKey := nextEventKey notifyReq.getSeq } := by
  simp only [notifyReceived, hsid, hseq, if_true, foldl_updateStateTable_eq, and_self]

/-- A message for the service with a sequence number that is not accepted. -/
theorem notifyReceived_of_not_accepts {service : EventedService} {notifyReq : NotifyRequest}
    (hsid : service.hasSid notifyReq.getSid = true)
    (hseq : service.acceptsSeq notifyReq.getSeq = false) (answer : Option SubscriptionGrant) :
    service.notifyReceived notifyReq answer =
      (service.unsubscribe.subscribe answer, .resubscribed) := by
  simp only [notifyReceived, hsid, hseq, if_true, Bool.false_eq_true, if_false]

/-- A message for another subscription changes nothing. -/
theorem notifyReceived_of_not_hasSid {service : EventedService} {notifyReq : NotifyRequest}
    (hsid : service.hasSid notifyReq.getSid = false) (answer : Option SubscriptionGrant) :
    service.notifyReceived notifyReq answer = (service, .ignored) := by
  simp only [notifyReceived, hsid, Bool.false_eq_true, if_false]

/-- A new subscription starts with the event key zero. -/
theorem subscribe_eventKey (service : EventedService) (answer : Option SubscriptionGrant) :
    (service.subscribe answer).eventKey = 0 := by
  cases answer <;> rfl

end EventedService

end Mupnp.Event
