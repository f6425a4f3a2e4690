import Mupnp.DeviceServer.ServiceRouting
import Mupnp.Event.SidFidelity
import Mupnp.Event.SubscriptionServer
import Mupnp.Http.PipelinedExchange

/-!
# Subscription requests over a connection

The requests that `mupnp_controlpoint_subscribe`, `mupnp_controlpoint_resubscribe` and
`mupnp_controlpoint_unsubscribe` of `controlpoint_event.c` post, what a device makes of each of them
(`requestReceived_new`, `requestReceived_renewal`, `requestReceived_unsubscription`), and what the
control point has of the answer (`grantOfResponse_heard`).
-/

set_option autoImplicit false
set_option relaxedAutoImplicit false

namespace Mupnp.Event

open DeviceServer Foundation Http Net Util

/-! ### The control point -/

/-- What a control point subscribes to a service with: its user agent, the URL of the service and
the header `CALLBACK`. -/
structure EventPoint where
  userAgent : CString
  eventSubUrl : NetUri
  callback : CString

/-- What a control point can ask for. -/
inductive SubscriptionCall where
  | subscribe (timeout : ℤ)
  | unsubscribe

/-- The method of the request. -/
def SubscriptionCall.method : SubscriptionCall → CString
  | .subscribe _ => "SUBSCRIBE".toList
  | .unsubscribe => "UNSUBSCRIBE".toList

theorem SubscriptionCall.isToken_method (call : SubscriptionCall) : IsToken call.method := by
  cases call with
  | subscribe timeout =>
    show IsToken "SUBSCRIBE".toList
    exact ⟨by decide, by decide⟩
  | unsubscribe =>
    show IsToken "UNSUBSCRIBE".toList
    exact ⟨by decide, by decide⟩

theorem SubscriptionCall.length_method_le (call : SubscriptionCall) :
    call.method.length ≤ "UNSUBSCRIBE".toList.length := by
  cases call with
  | subscribe timeout =>
    show "SUBSCRIBE".toList.length ≤ "UNSUBSCRIBE".toList.length
    decide
  | unsubscribe => exact le_rfl

/-- The requests of a control point are told from the others by their methods. -/
theorem SubscriptionCall.streq_method (call : SubscriptionCall) :
    streq (some call.method) (some "GET".toList) = false ∧
      streq (some call.method) (some "HEAD".toList) = false ∧
      (streq (some call.method) (some "POST".toList) ||
        streq (some call.method) (some "M-POST".toList)) = false ∧
      (streq (some call.method) (some "SUBSCRIBE".toList) ||
        streq (some call.method) (some "UNSUBSCRIBE".toList)) = true := by
  cases call with
  | subscribe timeout =>
    rw [show SubscriptionCall.method (.subscribe timeout) = "SUBSCRIBE".toList from rfl]
    decide
  | unsubscribe =>
    rw [show SubscriptionCall.method .unsubscribe = "UNSUBSCRIBE".toList from rfl]
    decide

/-- `mupnp_net_getmodifierhosturl`: the zone index of an IPv6 address is written behind an escaped
percent sign. -/
def getModifierHostUrl (host : CString) (port : ℤ) (uri before behind : CString) (bufSize : ℕ) :
    CString :=
  let hostText :=
    if isIpv6Address (some host) then
      let zone := host.dropWhile (· ≠ '%')
      "[".toList ++ host.takeWhile (· ≠ '%') ++
        (if zone = [] then [] else "%25".toList ++ zone.tail) ++ "]".toList
    else host
  (before ++ "http://".toList ++ hostText ++ ":".toList ++ long2str port ++ uri ++ behind).take
    (bufSize - 1)

/-- `mupnp_controlpoint_geteventsubcallbackurl`, with a buffer of 512 bytes. -/
def getEventSubCallbackUrl (ifAddr : CString) (eventPort : ℤ) (eventSubUri : CString) : CString :=
  getModifierHostUrl ifAddr eventPort eventSubUri "<".toList ">".toList 512

/-- `mupnp_event_subscription_request_setnewsubscription`. -/
def setNewSubscription (subReq : HttpRequest) (eventSubUrl : NetUri) (callback : CString)
    (timeout : ℤ) : HttpRequest :=
  let named := { subReq with method := stringSetValue subReq.method (some "SUBSCRIBE".toList) }
  let addressed := subscriptionRequestSetService named eventSubUrl
  let called := { addressed with
    toHttpPacket := addressed.toHttpPacket.setHeaderValue "CALLBACK".toList (some callback) }
  let typed := { called with
    toHttpPacket := called.toHttpPacket.setHeaderValue "NT".toList
      (some "upnp:event".toList) }
  subscriptionRequestSetTimeout typed timeout

namespace EventPoint

/-- The request for a call. -/
def request (point : EventPoint) (service : EventedService) : SubscriptionCall → HttpRequest
  | .subscribe timeout =>
    if service.isSubscribed then
      setRenewSubscription (HttpRequest.new point.userAgent) point.eventSubUrl
        service.subscriptionSid timeout
    else
      setNewSubscription (HttpRequest.new point.userAgent) point.eventSubUrl point.callback timeout
  | .unsubscribe => service.unsubscriptionRequest point.userAgent point.eventSubUrl

/-- The request as it is posted to the URL of the service. -/
def posting (point : EventPoint) (host uri : CString) (service : EventedService)
    (call : SubscriptionCall) : Posting :=
  ⟨point.request service call, host, point.eventSubUrl.port, call.method, uri⟩

end EventPoint

/-- The verdict of `mupnp_event_subscription_response_issuccessful`. -/
def isSuccessful (subRes : HttpResponse) : Bool :=
  decide (200 ≤ subRes.statusCode ∧ subRes.statusCode < 300)

/-- What a control point takes out of a response that came at a time. -/
def grantOfResponse (subRes : HttpResponse) (time : ℤ) : Option SubscriptionGrant :=
  if isSuccessful subRes then
    some ⟨subscriptionGetSid (subRes.getHeaderValue "SID".toList),
      subscriptionGetTimeout (subRes.getHeaderValue "TIMEOUT".toList), time⟩
  else none

/-- The service after a call with its answer. -/
def EventedService.settle (service : EventedService) (answer : Option SubscriptionGrant) :
    SubscriptionCall → EventedService
  | .subscribe _ =>
    if service.isSubscribed then service.resubscribe answer else service.subscribe answer
  | .unsubscribe => service.unsubscribe

/-- `mupnp_controlpoint_subscribe` and `mupnp_controlpoint_unsubscribe`, over a connection, with the
time at which the answer comes. -/
def EventedService.callOver (service : EventedService) (point : EventPoint)
    (call : SubscriptionCall) (peer : Option (List Char → Socket)) (time : ℤ) : EventedService :=
  service.settle (grantOfResponse (postMainStatus (point.request service call) HttpResponse.new
    (point.eventSubUrl.host.getD []) point.eventSubUrl.port peer).1 time) call

/-! ### What can be posted -/

/-- A control point whose requests fit the lines of a message. -/
structure IsEventPoint (point : EventPoint) (host uri : CString) : Prop where
  host_eq : point.eventSubUrl.host = some host
  uri_eq : point.eventSubUrl.getRequest = some uri
  uri_token : IsToken uri
  relative : ¬ "://".toList <:+: uri
  line : ("UNSUBSCRIBE".toList ++ " ".toList ++ uri ++ " ".toList ++ "HTTP/1.1".toList ++
    "\r\n".toList).length < readlineBufSize
  hostHeader : IsHeader "HOST".toList (hostHeaderValue host point.eventSubUrl.port)
  userAgentHeader : IsHeader "User-Agent".toList point.userAgent
  callbackHeader : IsHeader "CALLBACK".toList point.callback
  callback_ne_nil : point.callback ≠ []

/-- A timeout that is a `long`, except for the least one. -/
def IsTimeout (timeout : ℤ) : Prop := -longMax ≤ timeout ∧ timeout ≤ longMax

/-- A call that a control point makes: it cancels subscriptions that it has. -/
def SubscriptionCall.IsMade (call : SubscriptionCall) (service : EventedService) : Prop :=
  match call with
  | .subscribe timeout => IsTimeout timeout
  | .unsubscribe => service.isSubscribed = true

instance (call : SubscriptionCall) (service : EventedService) :
    Decidable (call.IsMade service) :=
  match call with
  | .subscribe timeout => inferInstanceAs (Decidable (-longMax ≤ timeout ∧ timeout ≤ longMax))
  | .unsubscribe => inferInstanceAs (Decidable (service.isSubscribed = true))

/-- A service that is not subscribed, or has an identifier. -/
def StoresUuid (service : EventedService) : Prop :=
  service.isSubscribed = true → ∃ uuid, service.subscriptionSid = some uuid ∧ IsUuid uuid

/-! ### Headers -/

section Headers

variable {uuid : CString} {timeout : ℤ}

theorem isSubscribed_iff {service : EventedService} :
    service.isSubscribed = true ↔ ∃ sid, service.subscriptionSid = some sid ∧ sid ≠ [] := by
  unfold EventedService.isSubscribed Discovery.Service.isSubscribed
  rw [decide_eq_true_iff]
  cases hsid : service.subscriptionSid with
  | none => exact iff_of_false (by decide) (by simp)
  | some sid =>
    have hlength : stringLength (some sid) = sid.length := rfl
    rw [hlength]
    simp [List.length_pos_iff]

theorem IsUuid.sentSid (h : IsUuid uuid) : sentSid uuid = "uuid:".toList ++ uuid := by
  rw [Event.sentSid, if_neg h.not_infix]

theorem sentSid_prefixed (uuid : CString) :
    sentSid ("uuid:".toList ++ uuid) = "uuid:".toList ++ uuid := by
  have hwithin : "uuid".toList <:+: "uuid:".toList ++ uuid := ⟨[], ':' :: uuid, rfl⟩
  rw [sentSid, if_pos hwithin]

/-- The identifier is what stands behind the first colon of its header. -/
theorem subscriptionGetSid_prefixed (uuid : CString) :
    subscriptionGetSid (some ("uuid:".toList ++ uuid)) = some uuid :=
  @subscriptionGetSid_append "uuid".toList (by decide) uuid

theorem isHeader_sid (h : IsUuid uuid) : IsHeader "SID".toList ("uuid:".toList ++ uuid) := by
  have hchar : ∀ c ∈ "uuid:".toList ++ uuid, c ≠ '\r' ∧ c ≠ '\n' ∧ c ≠ '\x00' := by
    intro c hc
    rcases List.mem_append.mp hc with hfront | hmem
    · have hall : ∀ c ∈ "uuid:".toList, c ≠ '\r' ∧ c ≠ '\n' ∧ c ≠ '\x00' := by decide
      exact hall c hfront
    · rcases h.chars c hmem with hdigit | rfl
      · refine ⟨?_, ?_, ?_⟩ <;>
        · rintro rfl
          exact absurd hdigit (by decide)
      · decide
  have hlast : ∀ c, ("uuid:".toList ++ uuid).getLast? = some c → c ∉ " :".toList := by
    intro c hc hmem
    rw [List.getLast?_append_of_ne_nil _ h.ne_nil] at hc
    rcases h.chars c (List.mem_of_getLast? hc) with hdigit | rfl
    · simp only [String.reduceToList, List.mem_cons, List.not_mem_nil, or_false] at hmem
      rcases hmem with rfl | rfl
      · exact absurd hdigit (by decide)
      · exact absurd hdigit (by decide)
    · exact absurd hmem (by decide)
  refine ⟨⟨by decide, by decide⟩, by decide, ⟨hchar, by simp, hlast⟩, ?_⟩
  have hsize := h.size
  have hbuffer : readlineBufSize = 512 := rfl
  rw [HttpPacket.headerLine_some, hbuffer]
  simp only [List.length_append]
  have hname : "SID".toList.length = 3 := rfl
  have hcolon : ": ".toList.length = 2 := rfl
  have hprefix : "uuid:".toList.length = 5 := rfl
  have hend : "\r\n".toList.length = 2 := rfl
  omega

/-- A number that is a `long` in a header. -/
theorem length_long2str_le (h : IsTimeout timeout) : (long2str timeout).length ≤ 20 := by
  have hmax : longMax = 9223372036854775807 := rfl
  obtain ⟨hmin, hle⟩ := h
  have hdigits : (Nat.toDigits 10 timeout.natAbs).length ≤ 19 :=
    (Nat.length_toDigits_le_iff (by decide) (by decide)).mpr (by omega)
  unfold long2str
  split_ifs
  · rw [List.length_cons]
    omega
  · omega

theorem isDigit_of_mem_long2str {c : Char} (hc : c ∈ long2str timeout) :
    c.isDigit = true ∨ c = '-' := by
  unfold long2str at hc
  split_ifs at hc
  · rcases List.mem_cons.mp hc with rfl | hdigit
    · exact Or.inr rfl
    · exact Or.inl (isDigit_of_mem_toDigits hdigit)
  · exact Or.inl (isDigit_of_mem_toDigits hc)

theorem isHeader_timeout (h : IsTimeout timeout) :
    IsHeader "TIMEOUT".toList (toTimeoutHeaderString timeout) := by
  unfold toTimeoutHeaderString
  split_ifs with hfinite
  · have hchar : ∀ c ∈ "Second-".toList ++ long2str timeout,
        c ≠ '\r' ∧ c ≠ '\n' ∧ c ≠ '\x00' ∧ c ∉ " :".toList := by
      intro c hc
      rcases List.mem_append.mp hc with hfront | hmem
      · have hall : ∀ c ∈ "Second-".toList, c ≠ '\r' ∧ c ≠ '\n' ∧ c ≠ '\x00' ∧ c ∉ " :".toList := by
          decide
        exact hall c hfront
      · rcases isDigit_of_mem_long2str hmem with hdigit | rfl
        · refine ⟨?_, ?_, ?_, ?_⟩
          · rintro rfl
            exact absurd hdigit (by decide)
          · rintro rfl
            exact absurd hdigit (by decide)
          · rintro rfl
            exact absurd hdigit (by decide)
          · intro hblank
            simp only [String.reduceToList, List.mem_cons, List.not_mem_nil, or_false] at hblank
            rcases hblank with rfl | rfl
            · exact absurd hdigit (by decide)
            · exact absurd hdigit (by decide)
        · decide
    refine ⟨⟨by decide, by decide⟩, by decide, ⟨fun c hc ↦ ?_, fun c hc ↦ ?_, fun c hc ↦ ?_⟩, ?_⟩
    · obtain ⟨hreturn, hfeed, hnul, -⟩ := hchar c hc
      exact ⟨hreturn, hfeed, hnul⟩
    · exact (hchar c (List.mem_of_head? hc)).2.2.2
    · exact (hchar c (List.mem_of_getLast? hc)).2.2.2
    · have hlength := length_long2str_le h
      have hbuffer : readlineBufSize = 512 := rfl
      rw [HttpPacket.headerLine_some, hbuffer]
      simp only [List.length_append]
      have hname : "TIMEOUT".toList.length = 7 := rfl
      have hcolon : ": ".toList.length = 2 := rfl
      have hprefix : "Second-".toList.length = 7 := rfl
      have hend : "\r\n".toList.length = 2 := rfl
      omega
  · exact ⟨⟨by decide, by decide⟩, by decide, ⟨by decide, by decide, by decide⟩, by decide⟩

/-- What a device grants for a timeout. -/
def granted (timeout : ℤ) : ℤ :=
  limitTimeout (subscriptionGetTimeout (some (toTimeoutHeaderString timeout)))

theorem isGrantable_granted (h : IsTimeout timeout) : IsGrantable (granted timeout) := by
  have hlongMin : longMin = -longMax - 1 := rfl
  obtain ⟨hmin, hmax⟩ := h
  refine isGrantable_limitTimeout ?_
  unfold toTimeoutHeaderString
  split_ifs with hfinite
  · have hminus : strstr (some ("Second-".toList ++ long2str timeout)) (some "-".toList) = 6 := rfl
    have hnumber : timeoutNumber (some ("Second-".toList ++ long2str timeout)) = some timeout := by
      rw [timeoutNumber, hminus]
      refine congrArg some ?_
      by_cases hneg : timeout < 0
      · exact atol_long2str_of_neg hneg (by omega)
      · exact atol_long2str (by omega) hmax
    rw [hnumber, ne_eq, Option.some.injEq]
    omega
  · decide

/-- A timeout that is granted is read back from its header. -/
theorem IsGrantable.getTimeout (h : IsGrantable timeout) :
    subscriptionGetTimeout (some (toTimeoutHeaderString timeout)) = timeout := by
  have hmax : longMax = 9223372036854775807 := rfl
  have hlimit : subscriptionMaxTimeout = 300 := rfl
  obtain ⟨hpos, hle⟩ := h
  exact subscriptionGetTimeout_toTimeoutHeaderString (by omega) (Or.inl hpos)

theorem IsGrantable.isTimeout (h : IsGrantable timeout) : IsTimeout timeout := by
  have hmax : longMax = 9223372036854775807 := rfl
  have hlimit : subscriptionMaxTimeout = 300 := rfl
  obtain ⟨hpos, hle⟩ := h
  constructor <;> omega

end Headers

/-! ### Requests -/

section Request

variable {point : EventPoint} {host uri : CString} {service : EventedService}

theorem headers_new (hnot : service.isSubscribed = false) (timeout : ℤ) :
    (point.posting host uri service (.subscribe timeout)).sent.headers =
      [⟨some "CALLBACK".toList, some point.callback⟩, ⟨some "NT".toList, some "upnp:event".toList⟩,
        ⟨some "TIMEOUT".toList, some (toTimeoutHeaderString timeout)⟩,
        ⟨some "HOST".toList, some (hostHeaderValue host point.eventSubUrl.port)⟩,
        ⟨some "User-Agent".toList, some point.userAgent⟩] := by
  rw [Posting.sent, EventPoint.posting, EventPoint.request, hnot]
  rfl

theorem headers_renewal {uuid : CString} (hsid : service.subscriptionSid = some uuid)
    (huuid : IsUuid uuid) (timeout : ℤ) :
    (point.posting host uri service (.subscribe timeout)).sent.headers =
      [⟨some "SID".toList, some ("uuid:".toList ++ uuid)⟩,
        ⟨some "TIMEOUT".toList, some (toTimeoutHeaderString timeout)⟩,
        ⟨some "HOST".toList, some (hostHeaderValue host point.eventSubUrl.port)⟩,
        ⟨some "User-Agent".toList, some point.userAgent⟩] := by
  have hsubscribed : service.isSubscribed = true := isSubscribed_iff.mpr ⟨uuid, hsid, huuid.ne_nil⟩
  have hvalue := stringAddValue_sentSid uuid
  rw [huuid.sentSid] at hvalue
  rw [Posting.sent, EventPoint.posting, EventPoint.request, hsubscribed, if_pos rfl, hsid,
    setRenewSubscription, subscriptionRequestSetSid, hvalue]
  rfl

theorem headers_unsubscription {uuid : CString} (hsid : service.subscriptionSid = some uuid)
    (huuid : IsUuid uuid) :
    (point.posting host uri service .unsubscribe).sent.headers =
      [⟨some "SID".toList, some ("uuid:".toList ++ uuid)⟩,
        ⟨some "HOST".toList, some (hostHeaderValue host point.eventSubUrl.port)⟩,
        ⟨some "User-Agent".toList, some point.userAgent⟩] := by
  have hvalue := stringAddValue_sentSid uuid
  rw [huuid.sentSid] at hvalue
  rw [Posting.sent, EventPoint.posting, EventPoint.request, EventedService.unsubscriptionRequest,
    hsid, setUnsubscription, subscriptionRequestSetSid, hvalue]
  rfl

/-- The other fields of a request. -/
theorem fields_posting (host uri : CString) (service : EventedService) (call : SubscriptionCall) :
    (point.posting host uri service call).sent.content = none ∧
      (point.posting host uri service call).sent.method = some call.method ∧
      (point.posting host uri service call).sent.uri = point.eventSubUrl.getRequest ∧
      (point.posting host uri service call).sent.version = some "HTTP/1.1".toList := by
  have huri := stringSetValue_none_left point.eventSubUrl.getRequest
  cases call with
  | subscribe timeout =>
    rw [Posting.sent, EventPoint.posting, EventPoint.request]
    split_ifs
    · exact ⟨rfl, rfl, huri, rfl⟩
    · exact ⟨rfl, rfl, huri, rfl⟩
  | unsubscribe => exact ⟨rfl, rfl, huri, rfl⟩

/-- A request whose headers can be written is one without a body. -/
theorem isConforming_of_headers (hpoint : IsEventPoint point host uri) {call : SubscriptionCall}
    (hheaders : ∀ header ∈ (point.posting host uri service call).sent.headers, ∃ name value,
      header = ⟨some name, some value⟩ ∧ IsHeader name value)
    (hlength : (point.posting host uri service call).sent.toHttpPacket.hasHeader
      "Content-Length".toList = false)
    (hcoding : (point.posting host uri service call).sent.toHttpPacket.hasHeader
      "Transfer-Encoding".toList = false) :
    (point.posting host uri service call).IsConforming := by
  obtain ⟨hcontent, hmethod, huri, hversion⟩ := @fields_posting point host uri service call
  have htoken : IsToken "HTTP/1.1".toList := ⟨by decide, by decide⟩
  refine Or.inr ⟨hheaders, hcontent, hlength, hcoding, hmethod, huri.trans hpoint.uri_eq, hversion,
    call.isToken_method, hpoint.uri_token, htoken, hpoint.relative, ?_⟩
  have hline := hpoint.line
  have hshort := call.length_method_le
  rw [show (point.posting host uri service call).method = call.method from rfl,
    show (point.posting host uri service call).uri = uri from rfl]
  simp only [List.length_append] at hline ⊢
  omega

/-- What a control point posts for its calls can be read as it was posted. -/
theorem isConforming_posting (hpoint : IsEventPoint point host uri) (hstored : StoresUuid service)
    {call : SubscriptionCall} (hmade : call.IsMade service) :
    (point.posting host uri service call).IsConforming := by
  have hnt : IsHeader "NT".toList "upnp:event".toList :=
    ⟨⟨by decide, by decide⟩, by decide, ⟨by decide, by decide, by decide⟩, by decide⟩
  -- Every request ends with these two.
  have hlast := forall_isHeader_cons hpoint.hostHeader
    (forall_isHeader_cons hpoint.userAgentHeader forall_isHeader_nil)
  cases call with
  | subscribe timeout =>
    have htimeout := isHeader_timeout hmade
    cases hsubscribed : service.isSubscribed with
    | false =>
      have hheaders := @headers_new point host uri service hsubscribed timeout
      refine isConforming_of_headers hpoint ?_ (by rw [HttpPacket.hasHeader, hheaders]; rfl)
        (by rw [HttpPacket.hasHeader, hheaders]; rfl)
      rw [hheaders]
      exact forall_isHeader_cons hpoint.callbackHeader (forall_isHeader_cons hnt
        (forall_isHeader_cons htimeout hlast))
    | true =>
      obtain ⟨uuid, hsid, huuid⟩ := hstored hsubscribed
      have hheaders := @headers_renewal point host uri service uuid hsid huuid timeout
      refine isConforming_of_headers hpoint ?_ (by rw [HttpPacket.hasHeader, hheaders]; rfl)
        (by rw [HttpPacket.hasHeader, hheaders]; rfl)
      rw [hheaders]
      exact forall_isHeader_cons (isHeader_sid huuid) (forall_isHeader_cons htimeout hlast)
  | unsubscribe =>
    obtain ⟨uuid, hsid, huuid⟩ := hstored hmade
    have hheaders := @headers_unsubscription point host uri service uuid hsid huuid
    refine isConforming_of_headers hpoint ?_ (by rw [HttpPacket.hasHeader, hheaders]; rfl)
      (by rw [HttpPacket.hasHeader, hheaders]; rfl)
    rw [hheaders]
    exact forall_isHeader_cons (isHeader_sid huuid) hlast

end Request

/-! ### What a device makes of the requests -/

section Device

variable {point : EventPoint} {host uri : CString} {service : EventedService}
  {dev : SubscriptionDevice} {target : ServedService} {received : HttpRequest}

/-- A call goes to the service that is found for its target. -/
theorem dispatch_of_call
    (htarget : dev.getServiceByEventSubUrl (receivedUri (some uri)) = some target)
    {call : SubscriptionCall} (h : (point.posting host uri service call).Arrives received) :
    dev.dispatch received = .subscription target := by
  set lookedUp := { received with uri := receivedUri received.uri }
  have hmethod : ∀ method, isMethod lookedUp method =
      streq (some call.method) (some method.toList) := by
    intro method
    rw [isMethod, h.method]
    rfl
  obtain ⟨hget, hhead, hpost, hsubscribe⟩ := call.streq_method
  rw [← hmethod "GET"] at hget
  rw [← hmethod "HEAD"] at hhead
  rw [← hmethod "POST", ← hmethod "M-POST"] at hpost
  rw [← hmethod "SUBSCRIBE", ← hmethod "UNSUBSCRIBE"] at hsubscribe
  have huri : lookedUp.uri = receivedUri (some uri) := congrArg receivedUri h.uri
  have hlength : ¬ strlen (receivedUri (some uri)) ≤ 0 := by
    intro hempty
    rw [HttpDevice.getServiceByEventSubUrl, HttpDevice.getServiceBy, if_pos hempty] at htarget
    cases htarget
  unfold HttpDevice.dispatch
  simp only [lookedUp, isPresentationRequest_eq_false hget, hget, hhead, hpost, hsubscribe,
    Bool.false_and, Bool.or_false, Bool.false_eq_true, if_false, if_true]
  rw [HttpDevice.subscriptionReceived, show (receivedUri received.uri) = receivedUri (some uri)
    from huri, if_neg hlength, htarget]

variable {server sid : CString} {now : ℤ}

/-- A request that asks for a new subscription. -/
theorem requestReceived_new
    (htarget : dev.getServiceByEventSubUrl (receivedUri (some uri)) = some target)
    (hcallback : point.callback ≠ []) (hnot : service.isSubscribed = false) {timeout : ℤ}
    (h : (point.posting host uri service (.subscribe timeout)).Arrives received) :
    dev.requestReceived server sid now received =
      some (dev.setSubscribers target (dev.subscribers target ++
          [DeliverySubscriber.newSubscription point.callback sid
            (subscriptionGetTimeout (some (toTimeoutHeaderString timeout))) now]),
        some (grantResponse server (some sid) (granted timeout))) := by
  have hheaders := h.headers.trans (headers_new hnot timeout)
  have hcallbackValue : received.getHeaderValue "CALLBACK".toList = some point.callback := by
    rw [HttpPacket.getHeaderValue, hheaders]
    rfl
  have hnt : received.getHeaderValue "NT".toList = some "upnp:event".toList := by
    rw [HttpPacket.getHeaderValue, hheaders]
    rfl
  have htimeout : received.getHeaderValue "TIMEOUT".toList =
      some (toTimeoutHeaderString timeout) := by
    rw [HttpPacket.getHeaderValue, hheaders]
    rfl
  have hhas : received.toHttpPacket.hasHeader "CALLBACK".toList = true ∧
      received.toHttpPacket.hasHeader "SID".toList = false := by
    simp only [HttpPacket.hasHeader, hheaders]
    exact ⟨rfl, rfl⟩
  have hmethod : isMethod received "UNSUBSCRIBE" = false := by
    rw [isMethod, h.method]
    show streq (some "SUBSCRIBE".toList) (some "UNSUBSCRIBE".toList) = false
    decide
  have hevent : strcmp (some "upnp:event".toList) (some "upnp:event".toList) = 0 := by decide
  rw [SubscriptionDevice.requestReceived, dispatch_of_call htarget h]
  simp only [SubscriptionDevice.subscriptionReceived, hhas, hcallbackValue, hnt, hmethod, hevent,
    not_strlen_some_le_zero hcallback, SubscriptionDevice.newSubscriptionReceived,
    SubscriptionDevice.grantedTimeout, htimeout, Bool.true_eq_false, Bool.false_eq_true, false_and,
    and_false, ne_eq, not_true_eq_false, if_false, if_true, Option.getD_some, Option.map_some,
    granted]

variable {uuid : CString}

/-- A request that renews a subscription. -/
theorem requestReceived_renewal
    (htarget : dev.getServiceByEventSubUrl (receivedUri (some uri)) = some target)
    (hsubscribers : ∀ sub ∈ dev.subscribers target, IsIdentified sub)
    (hsid : service.subscriptionSid = some uuid) (huuid : IsUuid uuid) {timeout : ℤ}
    (h : (point.posting host uri service (.subscribe timeout)).Arrives received) :
    dev.requestReceived server sid now received =
      some (((dev.subscribers target).findIdx? (carries uuid)).elim
        (dev, some (badSubscription 412)) fun position ↦
          (dev.setSubscribers target ((dev.subscribers target).modify position
              (SubscriptionDevice.renewed · (granted timeout) now)),
            some (grantResponse server (some uuid) (granted timeout)))) := by
  have hheaders := h.headers.trans (headers_renewal hsid huuid timeout)
  have hsidValue : received.getHeaderValue "SID".toList = some ("uuid:".toList ++ uuid) := by
    rw [HttpPacket.getHeaderValue, hheaders]
    rfl
  have htimeout : received.getHeaderValue "TIMEOUT".toList =
      some (toTimeoutHeaderString timeout) := by
    rw [HttpPacket.getHeaderValue, hheaders]
    rfl
  have hhas : received.toHttpPacket.hasHeader "CALLBACK".toList = false ∧
      received.toHttpPacket.hasHeader "SID".toList = true ∧
      received.toHttpPacket.hasHeader "NT".toList = false := by
    simp only [HttpPacket.hasHeader, hheaders]
    exact ⟨rfl, rfl, rfl⟩
  have hmethod : isMethod received "UNSUBSCRIBE" = false := by
    rw [isMethod, h.method]
    show streq (some "SUBSCRIBE".toList) (some "UNSUBSCRIBE".toList) = false
    decide
  rw [SubscriptionDevice.requestReceived, dispatch_of_call htarget h]
  simp only [SubscriptionDevice.subscriptionReceived, hhas, hmethod, Bool.true_eq_false,
    Bool.false_eq_true, false_and, and_false, or_false, if_false, if_true,
    SubscriptionDevice.renewSubscriptionReceived, hsidValue, subscriptionGetSid_prefixed,
    subscriberPosition_eq hsubscribers huuid, SubscriptionDevice.grantedTimeout, htimeout,
    Option.map_some]
  cases hfound : (dev.subscribers target).findIdx? (carries uuid) with
  | none => rfl
  | some position => rfl

/-- A request that cancels a subscription. -/
theorem requestReceived_unsubscription
    (htarget : dev.getServiceByEventSubUrl (receivedUri (some uri)) = some target)
    (hsubscribers : ∀ sub ∈ dev.subscribers target, IsIdentified sub)
    (hsid : service.subscriptionSid = some uuid) (huuid : IsUuid uuid)
    (h : (point.posting host uri service .unsubscribe).Arrives received) :
    dev.requestReceived server sid now received =
      some (((dev.subscribers target).findIdx? (carries uuid)).elim
        (dev, some (badSubscription 412)) fun position ↦
          (dev.setSubscribers target ((dev.subscribers target).eraseIdx position),
            some (subscribeResponse server 200))) := by
  have hheaders := h.headers.trans (headers_unsubscription hsid huuid)
  have hsidValue : received.getHeaderValue "SID".toList = some ("uuid:".toList ++ uuid) := by
    rw [HttpPacket.getHeaderValue, hheaders]
    rfl
  have hhas : received.toHttpPacket.hasHeader "CALLBACK".toList = false ∧
      received.toHttpPacket.hasHeader "SID".toList = true ∧
      received.toHttpPacket.hasHeader "NT".toList = false := by
    simp only [HttpPacket.hasHeader, hheaders]
    exact ⟨rfl, rfl, rfl⟩
  have hmethod : isMethod received "UNSUBSCRIBE" = true := by
    rw [isMethod, h.method]
    show streq (some "UNSUBSCRIBE".toList) (some "UNSUBSCRIBE".toList) = true
    decide
  rw [SubscriptionDevice.requestReceived, dispatch_of_call htarget h]
  simp only [SubscriptionDevice.subscriptionReceived, hhas, hmethod, Bool.true_eq_false,
    Bool.false_eq_true, false_and, and_false, or_false, if_false, if_true,
    SubscriptionDevice.unsubscriptionReceived, hsidValue, subscriptionGetSid_prefixed,
    subscriberPosition_eq hsubscribers huuid, Option.map_some]
  cases hfound : (dev.subscribers target).findIdx? (carries uuid) with
  | none => rfl
  | some position => rfl

end Device

/-! ### Responses -/

section Response

variable {server sid uuid httpDate : CString} {timeout : ℤ}

theorem headers_grantResponse (hsent : sentSid sid = "uuid:".toList ++ uuid) :
    ((grantResponse server (some sid) timeout).dated httpDate).headers =
      [⟨some "Server".toList, some server⟩, ⟨some "Content-Length".toList, some "0".toList⟩,
        ⟨some "SID".toList, some ("uuid:".toList ++ uuid)⟩,
        ⟨some "TIMEOUT".toList, some (toTimeoutHeaderString timeout)⟩,
        ⟨some "Date".toList, some httpDate⟩] := by
  have hvalue := stringAddValue_sentSid sid
  rw [hsent] at hvalue
  rw [grantResponse, subscriptionResponseSetSid, hvalue]
  rfl

theorem headers_subscribeResponse :
    ((subscribeResponse server 200).dated httpDate).headers =
      [⟨some "Server".toList, some server⟩, ⟨some "Content-Length".toList, some "0".toList⟩,
        ⟨some "Date".toList, some httpDate⟩] := rfl

/-- A successful response without a body that is read as it was posted. -/
theorem isConforming_of_empty {subRes : HttpResponse} (hversion : subRes.version =
      some "HTTP/1.1".toList) (hcode : subRes.statusCode = 200)
    (hreason : subRes.reasonPhrase = some "OK".toList) (hcontent : subRes.content = none)
    (hlength : (subRes.dated httpDate).getHeaderValue "Content-Length".toList = some "0".toList)
    (hheaders : ∀ header ∈ (subRes.dated httpDate).headers, ∃ name value,
      header = ⟨some name, some value⟩ ∧ IsHeader name value) : subRes.IsConforming httpDate := by
  have hbody : ((subRes.dated httpDate).content.getD []).length = 0 := by
    have hnone : (subRes.dated httpDate).content = none := hcontent
    rw [hnone]
    rfl
  have hpacket : IsPacket (subRes.dated httpDate).toHttpPacket := by
    refine ⟨hheaders, ⟨_, hlength, by decide, by decide, ?_⟩, ?_⟩
    · rw [hbody]
      rfl
    · rw [hbody]
      decide
  have hstatus : (subRes.dated httpDate).statusCode = 200 := hcode
  refine ⟨_, _, hpacket, hversion, hreason, ⟨by decide, by decide⟩, ?_, by decide,
    ⟨by decide, by decide, by decide⟩, ?_⟩
  · rw [hstatus]
    decide
  · rw [hstatus]
    decide +kernel

theorem isHeader_noContent : IsHeader "Content-Length".toList "0".toList :=
  ⟨⟨by decide, by decide⟩, by decide, ⟨by decide, by decide, by decide⟩, by decide⟩

theorem isConforming_grantResponse (hserver : IsHeader "Server".toList server)
    (hdate : IsHeader "Date".toList httpDate) (hsent : sentSid sid = "uuid:".toList ++ uuid)
    (huuid : IsUuid uuid) (htimeout : IsTimeout timeout) :
    (grantResponse server (some sid) timeout).IsConforming httpDate := by
  have hheaders := @headers_grantResponse server sid uuid httpDate timeout hsent
  refine isConforming_of_empty rfl rfl rfl rfl ?_ ?_
  · rw [HttpPacket.getHeaderValue, hheaders]
    rfl
  · rw [hheaders]
    exact forall_isHeader_cons hserver (forall_isHeader_cons isHeader_noContent
      (forall_isHeader_cons (isHeader_sid huuid) (forall_isHeader_cons (isHeader_timeout htimeout)
        (forall_isHeader_cons hdate forall_isHeader_nil))))

theorem isConforming_subscribeResponse (hserver : IsHeader "Server".toList server)
    (hdate : IsHeader "Date".toList httpDate) :
    (subscribeResponse server 200).IsConforming httpDate := by
  refine isConforming_of_empty rfl rfl rfl rfl rfl ?_
  rw [headers_subscribeResponse]
  exact forall_isHeader_cons hserver (forall_isHeader_cons isHeader_noContent
    (forall_isHeader_cons hdate forall_isHeader_nil))

/-- What a control point reads of an answer: the answer, or something that is no success. -/
def IsHeardAs (subRes read : HttpResponse) : Prop :=
  (∃ httpDate, subRes.Arrives read httpDate) ∨ isSuccessful read = false

theorem grantOfResponse_of_failure {read : HttpResponse} (h : isSuccessful read = false)
    (time : ℤ) : grantOfResponse read time = none := by
  rw [grantOfResponse, h, if_neg Bool.false_ne_true]

/-- What a control point takes out of an answer that was granted. -/
theorem grantOfResponse_of_arrives (hsent : sentSid sid = "uuid:".toList ++ uuid)
    (htimeout : IsGrantable timeout) {read : HttpResponse}
    (h : (grantResponse server (some sid) timeout).Arrives read httpDate) (time : ℤ) :
    grantOfResponse read time = some ⟨some uuid, timeout, time⟩ := by
  have hheaders := h.headers.trans (headers_grantResponse hsent)
  have hcode : read.statusCode = 200 := h.statusCode
  have hsuccess : isSuccessful read = true := by
    rw [isSuccessful, hcode]
    decide
  have hsid : read.getHeaderValue "SID".toList = some ("uuid:".toList ++ uuid) := by
    rw [HttpPacket.getHeaderValue, hheaders]
    rfl
  have hvalue : read.getHeaderValue "TIMEOUT".toList = some (toTimeoutHeaderString timeout) := by
    rw [HttpPacket.getHeaderValue, hheaders]
    rfl
  rw [grantOfResponse, hsuccess, if_pos rfl, hsid, hvalue, subscriptionGetSid_prefixed,
    htimeout.getTimeout]

end Response

/-! ### The exchange -/

/-- A connection to a device. -/
def SubscriptionDevice.IsServed (server sid : CString) (now : ℤ) (dev : SubscriptionDevice)
    (peer : List Char → Socket) : Prop :=
  IsServedBy (fun httpReq ↦ (dev.requestReceived server sid now httpReq).bind Prod.snd) peer

section Exchange

variable {point : EventPoint} {host uri : CString} {service : EventedService}
  {dev : SubscriptionDevice} {target : ServedService} {server uuid : CString} {now : ℤ}

/-- A call is refused, or it is answered with something that a control point can read. -/
theorem exists_requestReceived
    (htarget : dev.getServiceByEventSubUrl (receivedUri (some uri)) = some target)
    (hsubscribers : ∀ sub ∈ dev.subscribers target, IsIdentified sub)
    (hpoint : IsEventPoint point host uri) (hstored : StoresUuid service) {call : SubscriptionCall}
    (hmade : call.IsMade service) (hserver : IsHeader "Server".toList server)
    (huuid : IsUuid uuid) {received : HttpRequest}
    (h : (point.posting host uri service call).Arrives received) :
    ∃ (dev' : SubscriptionDevice) (subRes : HttpResponse),
      dev.requestReceived server ("uuid:".toList ++ uuid) now received = some (dev', some subRes) ∧
      (subRes = badSubscription 412 ∨ ∀ httpDate, IsHeader "Date".toList httpDate →
        subRes.IsConforming httpDate) := by
  cases call with
  | subscribe timeout =>
    have hgranted := (isGrantable_granted hmade).isTimeout
    cases hsubscribed : service.isSubscribed with
    | false =>
      exact ⟨_, _, requestReceived_new htarget hpoint.callback_ne_nil hsubscribed h,
        Or.inr fun httpDate hdate ↦ isConforming_grantResponse hserver hdate
          (sentSid_prefixed uuid) huuid hgranted⟩
    | true =>
      obtain ⟨held, hsid, hheld⟩ := hstored hsubscribed
      have hreceived := @requestReceived_renewal point host uri service dev target received server
        ("uuid:".toList ++ uuid) now held htarget hsubscribers hsid hheld timeout h
      cases hfound : (dev.subscribers target).findIdx? (carries held) with
      | none =>
        rw [hfound] at hreceived
        exact ⟨_, _, hreceived, Or.inl rfl⟩
      | some position =>
        rw [hfound] at hreceived
        exact ⟨_, _, hreceived, Or.inr fun httpDate hdate ↦
          isConforming_grantResponse hserver hdate hheld.sentSid hheld hgranted⟩
  | unsubscribe =>
    obtain ⟨held, hsid, hheld⟩ := hstored hmade
    have hreceived := @requestReceived_unsubscription point host uri service dev target received
      server ("uuid:".toList ++ uuid) now held htarget hsubscribers hsid hheld h
    cases hfound : (dev.subscribers target).findIdx? (carries held) with
    | none =>
      rw [hfound] at hreceived
      exact ⟨_, _, hreceived, Or.inl rfl⟩
    | some position =>
      rw [hfound] at hreceived
      exact ⟨_, _, hreceived, Or.inr fun httpDate hdate ↦
        isConforming_subscribeResponse hserver hdate⟩

/-- What a control point reads when its request is refused. -/
theorem isSuccessful_of_refused {posting : Posting} (hconforming : posting.IsConforming)
    {peer : List Char → Socket} {httpDate : CString} {more : List Char}
    (hpeer : (peer posting.message).content =
      ((badSubscription 412).post httpDate).getD [] ++ more) :
    isSuccessful (postMainStatus posting.httpReq HttpResponse.new posting.ipaddr posting.port
      (some peer)).1 = false := by
  obtain ⟨packet, hpost⟩ : ∃ packet, ((badSubscription 412).post httpDate).getD [] =
      "HTTP/1.1".toList ++ " ".toList ++ long2str 412 ++ " ".toList ++
        "Precondition Failed".toList ++ "\r\n".toList ++ packet := ⟨_, rfl⟩
  rw [hpost, List.append_assoc] at hpeer
  have hcode := statusCode_postMainStatus hconforming ⟨by decide, by decide⟩
    (by decide : -2 ^ 31 ≤ (412 : ℤ) ∧ (412 : ℤ) < 2 ^ 31) (by decide)
    ⟨by decide, by decide, by decide⟩ (by decide +kernel) hpeer HttpResponse.new
  unfold isSuccessful
  rcases hcode with hcode | hcode
  · rw [hcode]
    decide
  · rw [hcode]
    decide

/-- **Calls are exchanged.** A call that is made over a connection to a device is heard by the
device, and what comes of it is what comes of the answer of the device; an answer that is a success
is read as it was posted. -/
theorem exists_callOver
    (htarget : dev.getServiceByEventSubUrl (receivedUri (some uri)) = some target)
    (hsubscribers : ∀ sub ∈ dev.subscribers target, IsIdentified sub)
    (hpoint : IsEventPoint point host uri) (hstored : StoresUuid service) {call : SubscriptionCall}
    (hmade : call.IsMade service) (hserver : IsHeader "Server".toList server)
    (huuid : IsUuid uuid) {peer : List Char → Socket}
    (hpeer : dev.IsServed server ("uuid:".toList ++ uuid) now peer) (time : ℤ) :
    ∃ (received : HttpRequest) (dev' : SubscriptionDevice) (subRes read : HttpResponse),
      (point.posting host uri service call).Arrives received ∧
      dev.requestReceived server ("uuid:".toList ++ uuid) now received = some (dev', some subRes) ∧
      IsHeardAs subRes read ∧
      (isSuccessful subRes = true → ∃ httpDate, subRes.Arrives read httpDate) ∧
      service.callOver point call (some peer) time =
        service.settle (grantOfResponse read time) call := by
  have hconforming := @isConforming_posting point host uri service hpoint hstored call hmade
  have hhead : (point.posting host uri service call).method ≠ "HEAD".toList := by
    have hother := call.streq_method.2.1
    rw [← Bool.not_eq_true, streq_some_some] at hother
    exact hother
  obtain ⟨received, httpDate, more, hdate, harrives, hwritten⟩ := hpeer.exists_written hconforming
  obtain ⟨dev', subRes, hreceived, hanswer⟩ := @exists_requestReceived point host uri service dev
    target server uuid now htarget hsubscribers hpoint hstored call hmade hserver huuid received
    harrives
  have hback := hwritten subRes (by rw [hreceived]; rfl)
  have hcall : ∀ read, (postMainStatus (point.posting host uri service call).httpReq
        HttpResponse.new host point.eventSubUrl.port (some peer)).1 = read →
      service.callOver point call (some peer) time =
        service.settle (grantOfResponse read time) call := by
    rintro read rfl
    rw [EventedService.callOver, hpoint.host_eq]
    rfl
  rcases hanswer with rfl | hanswer
  · have hrefused := isSuccessful_of_refused hconforming hback
    exact ⟨received, dev', _, _, harrives, hreceived, Or.inr hrefused, nofun, hcall _ rfl⟩
  · obtain ⟨read, hread, hres⟩ := exists_postMainStatus_eq hconforming hhead
      (hanswer httpDate hdate) hback HttpResponse.new
    refine ⟨received, dev', subRes, read, harrives, hreceived, Or.inl ⟨httpDate, hres⟩,
      fun _ ↦ ⟨httpDate, hres⟩, hcall read ?_⟩
    exact congrArg Prod.fst hread

end Exchange

end Mupnp.Event
