import Mupnp.Event.NotifyRequest
import Mupnp.Http.HttpRequest
import Mupnp.Soap.Soap

/-!
# Where notifications are delivered

The part of `device_http_server.c` that takes the delivery URL of a subscriber from the header
`CALLBACK`, and the part of `event/subscriber.c` and `event/notify_request.c` that addresses a
notification. The delivery URL of a subscriber never changes, so that whatever happens to it all its
notifications have the host, the port and the path of what was read from the header
(`posts_forall_iff`).
-/

set_option autoImplicit false
set_option relaxedAutoImplicit false

namespace Mupnp.Event

open Http Net Util Xml

/-- A subscriber with the URL that its notifications are delivered to. -/
structure DeliverySubscriber extends Subscriber where
  deliveryUrl : NetUri

/-- One posting of a request: the address that is connected to, and the request. -/
structure NotifyPost where
  ipaddr : Option CString
  port : ℤ
  request : HttpRequest

/-- `mupnp_strltrim`. -/
def strltrim (str delim : CString) : CString := str.dropWhile (delim.contains ·)

/-- `mupnp_http_packet_sethost`: without an address the header is not set. -/
def setHost (httpPkt : HttpPacket) (addr : Option CString) (port : ℤ) : HttpPacket :=
  match addr with
  | some addr => httpPkt.setHeaderValue "HOST".toList (some (hostHeaderValue addr port))
  | none => httpPkt

/-- `mupnp_soap_request_post`, with the status codes of the answers: what is posted, and the status
code of the last answer. A notification has no header `SOAPACTION` to rename. -/
def soapRequestPost (httpReq : HttpRequest) (ipaddr : Option CString)
    (port status retryStatus : ℤ) : List NotifyPost × ℤ :=
  let posted := match ipaddr with
    | some ipaddr => httpReq.addressed ipaddr port
    | none => httpReq
  if status = 405 then
    let retried := { posted with
      method := stringSetValue posted.method (some "M-POST".toList)
      headers := posted.headers ++ [⟨some "MAN".toList,
        some "\"http://schemas.xmlsoap.org/soap/envelope/\"; ns=01".toList⟩] }
    ([⟨ipaddr, port, posted⟩, ⟨ipaddr, port, retried⟩], retryStatus)
  else ([⟨ipaddr, port, posted⟩], status)

/-- What happens to a subscriber: a notification of all evented variables of a service or of one
variable, with the status codes of its answers, or a renewal. -/
inductive DeliveryAction where
  | notify (service : Option (List StateVariable)) (statVar : Option StateVariable)
      (status retryStatus : ℤ)
  | renew (timeout now : ℤ)

namespace DeliverySubscriber

/-- The subscriber that `mupnp_device_newsubscriptionrecieved` makes for the value of the header
`CALLBACK`. -/
def newSubscription (callback sid : CString) (timeout now : ℤ) : DeliverySubscriber :=
  { Subscriber.new now with
    sid := stringSetValue none (some sid)
    timeout := limitTimeout timeout
    deliveryUrl := NetUri.setValue (strrtrim (strltrim callback "<".toList) ">".toList) }

/-- `mupnp_subscriber_getdeliveryhost`. -/
def getDeliveryHost (sub : DeliverySubscriber) : Option CString := sub.deliveryUrl.host

/-- `mupnp_subscriber_getdeliverypath`. -/
def getDeliveryPath (sub : DeliverySubscriber) : Option CString := sub.deliveryUrl.path

/-- `mupnp_subscriber_getdeliveryport`. -/
def getDeliveryPort (sub : DeliverySubscriber) : ℤ := sub.deliveryUrl.port

/-- `mupnp_event_notify_request_setpropertysetnode` on a new request. -/
def notifyHttpRequest (sub : DeliverySubscriber) (userAgent server : CString)
    (service : Option (List StateVariable)) (statVar : Option StateVariable) : HttpRequest :=
  let httpReq := HttpRequest.new userAgent
  let notifyReq := setPropertySetNode sub.toSubscriber service statVar
  let closed := httpReq.toHttpPacket.setHeaderValue "Connection".toList (some "close".toList)
  let hosted := setHost closed sub.getDeliveryHost sub.getDeliveryPort
  let served := hosted.setHeaderValue "Server".toList (some server)
  let described := notifyReq.headers.foldl
    (fun packet header ↦ packet.setHeaderValue (header.name.getD []) header.value) served
  let content := Soap.setContent (createPropertySetNode service statVar)
  let filled := described.appendContent content
  { httpReq with
    toHttpPacket := filled.setContentLength (stringLength filled.content)
    method := stringSetValue httpReq.method (some "NOTIFY".toList)
    uri := stringSetValue httpReq.uri sub.getDeliveryPath }

/-- `mupnp_subscriber_notifymain`: the subscriber afterwards, and what is posted. -/
def notifyMain (sub : DeliverySubscriber) (userAgent server : CString)
    (service : Option (List StateVariable)) (statVar : Option StateVariable)
    (status retryStatus : ℤ) : DeliverySubscriber × List NotifyPost :=
  let httpReq := sub.notifyHttpRequest userAgent server service statVar
  let (posts, code) :=
    soapRequestPost httpReq sub.getDeliveryHost sub.getDeliveryPort status retryStatus
  if 200 ≤ code ∧ code < 300 then
    ({ sub with toSubscriber := sub.toSubscriber.incrementNotifyCount }, posts)
  else (sub, posts)

def step (sub : DeliverySubscriber) (userAgent server : CString) :
    DeliveryAction → DeliverySubscriber × List NotifyPost
  | .notify service statVar status retryStatus =>
    sub.notifyMain userAgent server service statVar status retryStatus
  | .renew timeout now =>
    ({ sub with
        toSubscriber := { sub.toSubscriber.renew now with timeout := limitTimeout timeout } }, [])

/-- Everything that is posted while a list of actions happens. -/
def posts (userAgent server : CString) :
    DeliverySubscriber → List DeliveryAction → List NotifyPost
  | _, [] => []
  | sub, action :: rest =>
    (sub.step userAgent server action).2 ++
      posts userAgent server (sub.step userAgent server action).1 rest

/-! ### One step -/

section Step

variable (userAgent server : CString)

theorem step_deliveryUrl (sub : DeliverySubscriber) (action : DeliveryAction) :
    (sub.step userAgent server action).1.deliveryUrl = sub.deliveryUrl := by
  cases action with
  | notify service statVar status retryStatus =>
    unfold step notifyMain
    simp only
    split_ifs <;> rfl
  | renew timeout now => rfl

theorem mem_soapRequestPost {httpReq : HttpRequest} {ipaddr : Option CString}
    {port status retryStatus : ℤ} {post : NotifyPost}
    (hpost : post ∈ (soapRequestPost httpReq ipaddr port status retryStatus).1) :
    post.ipaddr = ipaddr ∧ post.port = port ∧ post.request.uri = httpReq.uri := by
  have hposted : ∀ addr : Option CString, (match addr with
      | some ipaddr => httpReq.addressed ipaddr port
      | none => httpReq).uri = httpReq.uri := by
    intro addr
    cases addr <;> rfl
  unfold soapRequestPost at hpost
  simp only at hpost
  split_ifs at hpost
  · rcases List.mem_pair.mp hpost with rfl | rfl
    · exact ⟨rfl, rfl, hposted ipaddr⟩
    · exact ⟨rfl, rfl, hposted ipaddr⟩
  · rw [List.mem_singleton.mp hpost]
    exact ⟨rfl, rfl, hposted ipaddr⟩

/-- Whatever a step posts goes to the delivery URL. -/
theorem address_of_mem_step {sub : DeliverySubscriber} {action : DeliveryAction}
    {post : NotifyPost} (hpost : post ∈ (sub.step userAgent server action).2) :
    post.ipaddr = sub.deliveryUrl.host ∧ post.port = sub.deliveryUrl.port ∧
      post.request.uri = sub.deliveryUrl.path := by
  cases action with
  | renew timeout now => cases hpost
  | notify service statVar status retryStatus =>
    have hmem : post ∈ (soapRequestPost (sub.notifyHttpRequest userAgent server service statVar)
        sub.getDeliveryHost sub.getDeliveryPort status retryStatus).1 := by
      unfold step notifyMain at hpost
      simp only at hpost
      split_ifs at hpost <;> exact hpost
    obtain ⟨hipaddr, hport, huri⟩ := mem_soapRequestPost hmem
    refine ⟨hipaddr, hport, huri.trans ?_⟩
    exact stringSetValue_none_left _

theorem exists_mem_step (sub : DeliverySubscriber) :
    ∃ post, post ∈ (sub.step userAgent server (.notify none none 200 200)).2 :=
  ⟨_, List.mem_singleton.mpr rfl⟩

/-! ### Whole runs -/

theorem address_of_mem_posts {sub : DeliverySubscriber} {actions : List DeliveryAction}
    {post : NotifyPost} (hpost : post ∈ posts userAgent server sub actions) :
    post.ipaddr = sub.deliveryUrl.host ∧ post.port = sub.deliveryUrl.port ∧
      post.request.uri = sub.deliveryUrl.path := by
  induction actions generalizing sub with
  | nil => cases hpost
  | cons action rest ih =>
    rcases List.mem_append.mp hpost with hfirst | hrest
    · exact address_of_mem_step userAgent server hfirst
    · rw [← step_deliveryUrl userAgent server sub action]
      exact ih hrest

/-- Everything that is posted to a subscriber in any run is addressed in one way exactly when its
delivery URL is. -/
theorem posts_forall_iff (sub : DeliverySubscriber) (host : Option CString) (port : ℤ)
    (target : Option CString) :
    (∀ actions, ∀ post ∈ posts userAgent server sub actions,
        post.ipaddr = host ∧ post.port = port ∧ post.request.uri = target) ↔
      sub.deliveryUrl.host = host ∧ sub.deliveryUrl.port = port ∧
        sub.deliveryUrl.path = target := by
  constructor
  · intro hposts
    obtain ⟨post, hpost⟩ := exists_mem_step userAgent server sub
    have haddress := hposts [.notify none none 200 200] post (List.mem_append_left _ hpost)
    obtain ⟨hipaddr, hport, huri⟩ := address_of_mem_step userAgent server hpost
    rw [← hipaddr, ← hport, ← huri]
    exact haddress
  · rintro ⟨rfl, rfl, rfl⟩ actions post hpost
    exact address_of_mem_posts userAgent server hpost

end Step

end DeliverySubscriber

end Mupnp.Event
