import Mupnp.Event.EventedService
import Mupnp.Event.SubscriptionTimeout
import Mupnp.Http.ReceivedHeader

/-!
# The SID of a subscription on its way

The SID that a device grants arrives as a header value, is stored without what stands in front of
its first colon, and is sent back with `uuid:` in front when `uuid` does not occur in it:
`event/subscription_request.c` and the subscription functions of `controlpoint_event.c`.

`sid_fidelity_iff` says which SIDs come back as they were granted, and are found again when a NOTIFY
message carries them.
-/

set_option autoImplicit false
set_option relaxedAutoImplicit false

namespace Mupnp.Event

open Discovery Foundation Http Net Util

/-! ### Requests -/

/-- `mupnp_event_subscription_request_setsid`. -/
def subscriptionRequestSetSid (subReq : HttpRequest) (sid : Option CString) : HttpRequest :=
  let headerSid :=
    if strstr sid (some "uuid".toList) < 0 then stringAddValue none (some "uuid:".toList) else none
  { subReq with
    toHttpPacket := subReq.toHttpPacket.setHeaderValue "SID".toList (stringAddValue headerSid sid) }

/-- `mupnp_event_subscription_request_settimeout`. -/
def subscriptionRequestSetTimeout (subReq : HttpRequest) (timeout : ℤ) : HttpRequest :=
  { subReq with
    toHttpPacket := subReq.toHttpPacket.setHeaderValue "TIMEOUT".toList
      (some (toTimeoutHeaderString timeout)) }

/-- `mupnp_event_subscription_request_setservice`, for a service with the given URL. -/
def subscriptionRequestSetService (subReq : HttpRequest) (eventSubUrl : NetUri) : HttpRequest :=
  { subReq with uri := stringSetValue subReq.uri eventSubUrl.getRequest }

/-- `mupnp_event_subscription_request_setrenewsubscription`. -/
def setRenewSubscription (subReq : HttpRequest) (eventSubUrl : NetUri) (uuid : Option CString)
    (timeout : ℤ) : HttpRequest :=
  let named := { subReq with method := stringSetValue subReq.method (some "SUBSCRIBE".toList) }
  let addressed := subscriptionRequestSetService named eventSubUrl
  subscriptionRequestSetTimeout (subscriptionRequestSetSid addressed uuid) timeout

/-- `mupnp_event_subscription_request_setunsubscription`. -/
def setUnsubscription (subReq : HttpRequest) (eventSubUrl : NetUri) (sid : Option CString) :
    HttpRequest :=
  let named := { subReq with method := stringSetValue subReq.method (some "UNSUBSCRIBE".toList) }
  subscriptionRequestSetSid (subscriptionRequestSetService named eventSubUrl) sid

/-- What a successful response with a SID header grants. -/
def grantOf (sidHeader : CString) (timeout time : ℤ) : SubscriptionGrant :=
  ⟨subscriptionGetSid (receivedValue "SID".toList sidHeader), timeout, time⟩

namespace EventedService

/-- `mupnp_controlpoint_resubscribe`: a service that is not subscribed posts nothing. -/
def resubscribe (service : EventedService) (answer : Option SubscriptionGrant) : EventedService :=
  if service.isSubscribed = false then service
  else
    match answer with
    | some grant =>
      { service with
        subscriptionSid := stringSetValue service.subscriptionSid grant.sid
        subscriptionTimeout := grant.timeout
        subscriptionTimestamp := grant.time }
    | none =>
      { service with subscriptionSid := stringSetValue service.subscriptionSid (some []) }

/-- The request that `mupnp_controlpoint_resubscribe` posts. -/
def renewalRequest (service : EventedService) (userAgent : CString) (eventSubUrl : NetUri)
    (timeout : ℤ) : Option HttpRequest :=
  if service.isSubscribed = false then none
  else some (setRenewSubscription (HttpRequest.new userAgent) eventSubUrl service.subscriptionSid
    timeout)

/-- The request that `mupnp_controlpoint_unsubscribe` posts. -/
def unsubscriptionRequest (service : EventedService) (userAgent : CString) (eventSubUrl : NetUri) :
    HttpRequest :=
  setUnsubscription (HttpRequest.new userAgent) eventSubUrl service.subscriptionSid

/-- A service that was subscribed and then renewed some times, each time with the same SID header;
the pairs are the timeouts that were granted and the times of the answers. -/
def subscribedWith (service : EventedService) (sidHeader : CString) (first : ℤ × ℤ)
    (renewals : List (ℤ × ℤ)) : EventedService :=
  renewals.foldl (fun service renewal ↦
      service.resubscribe (some (grantOf sidHeader renewal.1 renewal.2)))
    (service.subscribe (some (grantOf sidHeader first.1 first.2)))

end EventedService

/-- The loops of `mupnp_controlpoint_httprequestreceived` and `mupnp_device_getservicebysid` over
the root devices and the devices below. On a control point a service has no subscribers of its own.
-/
def getServiceBySid (devices : List Device) (sid : Option CString) : Option Service :=
  if strlen sid ≤ 0 then none
  else RoseTree.searchIn DeviceObject.services
    (fun service ↦ service.isSubscribed && decide (strcmp service.subscriptionSid sid = 0)) devices

/-! ### What is to be kept -/

/-- A character that can be seen. -/
def IsVisible (c : Char) : Prop := 33 ≤ c.toNat ∧ c.toNat ≤ 126

/-- The requests of a service carry a SID header, and a message with this header is for the service
unless another service has its SID. -/
structure CarriesSid (service : EventedService) (sidHeader : CString) : Prop where
  renewal : ∀ userAgent eventSubUrl timeout subReq,
    service.renewalRequest userAgent eventSubUrl timeout = some subReq →
      ∀ ipaddr port,
        (subReq.addressed ipaddr port).getHeaderValue "SID".toList = some sidHeader
  unsubscription : ∀ userAgent eventSubUrl ipaddr port,
    ((service.unsubscriptionRequest userAgent eventSubUrl).addressed ipaddr port).getHeaderValue
      "SID".toList = some sidHeader
  notify : ∀ devices before after,
    (RoseTree.preorderIn devices).flatMap DeviceObject.services =
        before ++ service.toService :: after →
      (∀ other ∈ before ++ after, other.subscriptionSid ≠ service.subscriptionSid) →
        getServiceBySid devices (subscriptionGetSid (receivedValue "SID".toList sidHeader)) =
          some service.toService

/-- The number of characters of a SID header that fit the read buffer. -/
def sidRoom : ℕ := valueRoom "SID".toList - 1

/-- The SID headers that come back: those that fit the buffer and either have the prefix `uuid:` in
front of a text in which `uuid` does not occur, that is not empty and does not end with a colon, or
contain `uuid` but no colon. -/
def KeepsSid (sidHeader : CString) : Prop :=
  sidHeader.length ≤ sidRoom ∧
    ((':' ∉ sidHeader ∧ "uuid".toList <:+: sidHeader) ∨
      ∃ sid, sidHeader = "uuid:".toList ++ sid ∧ sid ≠ [] ∧ sid.getLast? ≠ some ':' ∧
        ¬ "uuid".toList <:+: sid)

/-! ### The SID that is stored -/

/-- What a service stores of a SID header. -/
def storedSid (sidHeader : CString) : CString :=
  (subscriptionGetSid (receivedValue "SID".toList sidHeader)).getD []

/-- The SID header that is made of a stored SID. -/
def sentSid (sid : CString) : CString :=
  if "uuid".toList <:+: sid then sid else "uuid:".toList ++ sid

section stored

variable {sidHeader : CString}

/-- A character that can be seen is trimmed when it is a colon. -/
theorem IsVisible.contains_iff {c : Char} (h : IsVisible c) :
    headerlineDelim.contains c = true ↔ c = ':' := by
  rw [contains_headerlineDelim]
  constructor
  · rintro (rfl | rfl | rfl | hcolon)
    · exact absurd h (by unfold IsVisible; decide)
    · exact absurd h (by unfold IsVisible; decide)
    · exact absurd h (by unfold IsVisible; decide)
    · exact hcolon
  · intro hcolon
    exact .inr (.inr (.inr hcolon))

/-- A SID header arrives without what does not fit the buffer and without the colons at its ends. -/
theorem receivedValue_sid (h : ∀ c ∈ sidHeader, IsVisible c) :
    receivedValue "SID".toList sidHeader =
      some (strtrim (sidHeader.take sidRoom) headerlineDelim) := by
  have hvalue : ∀ c ∈ sidHeader, c ≠ '\n' ∧ c ≠ '\x00' := by
    intro c hc
    have hvisible := h c hc
    constructor
    · rintro rfl
      exact absurd hvisible (by unfold IsVisible; decide)
    · rintro rfl
      exact absurd hvisible (by unfold IsVisible; decide)
  have hroom : valueRoom "SID".toList = sidRoom + 1 := rfl
  have hreceived := @receivedValue_eq "SID".toList sidHeader ⟨by decide, by decide⟩ (by decide)
    (by decide) hvalue
  have hblank : " ".toList ++ sidHeader ++ "\r\n".toList = ' ' :: (sidHeader ++ "\r\n".toList) :=
    rfl
  have htrim : ∀ text : CString, strtrim (' ' :: text) headerlineDelim =
      strtrim text headerlineDelim := by
    intro text
    unfold strtrim
    rw [List.dropWhile_cons_of_pos (by decide)]
  have hsuffix : ∀ c ∈ "\r\n".toList.take (sidRoom - sidHeader.length),
      headerlineDelim.contains c = true := by
    intro c hc
    have hend : ∀ c ∈ "\r\n".toList, headerlineDelim.contains c = true := by decide
    exact hend c (List.mem_of_mem_take hc)
  rw [hreceived, hblank, hroom, List.take_succ_cons, htrim, List.take_append,
    strtrim_append hsuffix]

/-- What is stored is what has arrived, or what stands behind its first colon. -/
theorem storedSid_cases (h : ∀ c ∈ sidHeader, IsVisible c) :
    (':' ∉ strtrim (sidHeader.take sidRoom) headerlineDelim ∧
        storedSid sidHeader = strtrim (sidHeader.take sidRoom) headerlineDelim) ∨
      (storedSid sidHeader).length < (strtrim (sidHeader.take sidRoom) headerlineDelim).length := by
  rw [storedSid, receivedValue_sid h]
  by_cases hcolon : ':' ∈ strtrim (sidHeader.take sidRoom) headerlineDelim
  · obtain ⟨before, after, heq, hbefore⟩ := List.eq_append_cons_of_mem hcolon
    right
    rw [heq, subscriptionGetSid_append hbefore, Option.getD_some, List.length_append,
      List.length_cons]
    omega
  · left
    exact ⟨hcolon, by rw [subscriptionGetSid_of_not_mem hcolon, Option.getD_some]⟩

/-- What is stored of a header with a prefix. -/
theorem storedSid_uuid {sid : CString} (h : ∀ c ∈ "uuid:".toList ++ sid, IsVisible c) :
    storedSid ("uuid:".toList ++ sid) =
      if strrtrim (sid.take (sidRoom - 5)) headerlineDelim = [] then "uuid".toList
      else strrtrim (sid.take (sidRoom - 5)) headerlineDelim := by
  have htake : ("uuid:".toList ++ sid).take sidRoom = "uuid:".toList ++ sid.take (sidRoom - 5) := by
    rw [List.take_append]
    rfl
  have hdrop : ∀ rest : CString, ("uuid:".toList ++ rest).dropWhile (headerlineDelim.contains ·) =
      "uuid:".toList ++ rest := fun rest ↦ List.dropWhile_cons_of_neg (by decide)
  have hstart : strrtrim "uuid:".toList headerlineDelim = "uuid".toList := by decide
  rw [storedSid, receivedValue_sid h, htake, strtrim, hdrop, strrtrim_append_eq, hstart]
  by_cases hempty : strrtrim (sid.take (sidRoom - 5)) headerlineDelim = []
  · rw [if_pos hempty, if_pos hempty]
    rfl
  · rw [if_neg hempty, if_neg hempty]
    have hget := @subscriptionGetSid_append "uuid".toList (by decide)
      (strrtrim (sid.take (sidRoom - 5)) headerlineDelim)
    exact congrArg (fun sid ↦ sid.getD []) hget

/-- A header of the right kind comes back. -/
theorem KeepsSid.sentSid (h : ∀ c ∈ sidHeader, IsVisible c) (hkeeps : KeepsSid sidHeader) :
    sentSid (storedSid sidHeader) = sidHeader := by
  obtain ⟨hroom, ⟨hcolon, huuid⟩ | ⟨sid, rfl, hne, hlast, huuid⟩⟩ := hkeeps
  · have hdelim : ∀ c ∈ sidHeader, headerlineDelim.contains c = false := by
      intro c hc
      rw [← Bool.not_eq_true, (h c hc).contains_iff]
      rintro rfl
      exact hcolon hc
    have hself := @strtrim_eq_self headerlineDelim [] sidHeader [] (by simp) (by simp)
      (fun c hc ↦ hdelim c (List.mem_of_head? hc)) (fun c hc ↦ hdelim c (List.mem_of_getLast? hc))
    rw [List.nil_append, List.append_nil] at hself
    have hstored : storedSid sidHeader = sidHeader := by
      rw [storedSid, receivedValue_sid h, List.take_of_length_le hroom, hself,
        subscriptionGetSid_of_not_mem hcolon, Option.getD_some]
    rw [hstored, Event.sentSid, if_pos huuid]
  · have hfits : sid.take (sidRoom - 5) = sid := by
      refine List.take_of_length_le ?_
      rw [List.length_append] at hroom
      have hfive : "uuid:".toList.length = 5 := by decide
      omega
    have hself : strrtrim sid headerlineDelim = sid := by
      have htrim := @strrtrim_append sid [] headerlineDelim (by simp) fun c hc ↦ by
        have hvisible := h c (List.mem_append_right _ (List.mem_of_getLast? hc))
        rw [← Bool.not_eq_true, hvisible.contains_iff]
        rintro rfl
        exact hlast hc
      rwa [List.append_nil] at htrim
    rw [storedSid_uuid h, hfits, hself, if_neg hne, Event.sentSid, if_neg huuid]

/-- A header that comes back is of the right kind. -/
theorem keepsSid_of_sentSid (h : ∀ c ∈ sidHeader, IsVisible c)
    (hsent : sentSid (storedSid sidHeader) = sidHeader) : KeepsSid sidHeader := by
  by_cases huuid : "uuid".toList <:+: storedSid sidHeader
  · rw [sentSid, if_pos huuid] at hsent
    have htrim := length_strtrim_le (sidHeader.take sidRoom) headerlineDelim
    have htake := List.length_take_le' sidRoom sidHeader
    have hroom := List.length_take_le sidRoom sidHeader
    have hlength := congrArg List.length hsent
    rcases storedSid_cases h with ⟨hcolon, hstored⟩ | hshorter
    · have hheader : strtrim (sidHeader.take sidRoom) headerlineDelim = sidHeader :=
        hstored.symm.trans hsent
      rw [hheader] at hcolon htrim
      exact ⟨htrim.trans hroom, .inl ⟨hcolon, hsent ▸ huuid⟩⟩
    · omega
  · rw [sentSid, if_neg huuid] at hsent
    have hvisible : ∀ c ∈ "uuid:".toList ++ storedSid sidHeader, IsVisible c := by
      rw [hsent]
      exact h
    have hstored : storedSid ("uuid:".toList ++ storedSid sidHeader) = storedSid sidHeader := by
      rw [hsent]
    rw [storedSid_uuid hvisible] at hstored
    by_cases hempty :
        strrtrim ((storedSid sidHeader).take (sidRoom - 5)) headerlineDelim = []
    · rw [if_pos hempty] at hstored
      exact absurd (hstored ▸ List.infix_rfl) huuid
    · rw [if_neg hempty] at hstored
      have hstart : strrtrim ((storedSid sidHeader).take (sidRoom - 5)) headerlineDelim <+:
          (storedSid sidHeader).take (sidRoom - 5) := List.rdropWhile_prefix _ _
      have hlength := hstart.length_le
      have hroom := List.length_take_le (sidRoom - 5) (storedSid sidHeader)
      rw [hstored] at hlength hempty
      refine ⟨?_, .inr ⟨storedSid sidHeader, hsent.symm, hempty, ?_, huuid⟩⟩
      · have hfive : "uuid:".toList.length = 5 := by decide
        have hsidRoom : sidRoom = 506 := rfl
        rw [← hsent, List.length_append]
        omega
      · intro hlast
        rw [← hstored] at hlast
        exact absurd (contains_getLast_strrtrim hlast) (by decide)

end stored

/-! ### The SID that is sent -/

section sent

variable {service : EventedService} {sidHeader : CString}

theorem stringAddValue_sentSid (sid : CString) :
    stringAddValue (if strstr (some sid) (some "uuid".toList) < 0 then
      stringAddValue none (some "uuid:".toList) else none) (some sid) = some (sentSid sid) := by
  by_cases huuid : "uuid".toList <:+: sid
  · have hpos := strstr_nonneg_iff.mpr huuid
    have hne : sid ≠ [] := by
      rintro rfl
      exact absurd (List.eq_nil_of_infix_nil huuid) (by decide)
    obtain ⟨c, rest, rfl⟩ := List.exists_cons_of_ne_nil hne
    rw [if_neg (by omega), sentSid, if_pos huuid]
    rfl
  · have hneg := mt strstr_nonneg_iff.mp huuid
    rw [if_pos (by omega), sentSid, if_neg huuid]
    cases sid with
    | nil => rfl
    | cons c rest => rfl

/-- The header `SID` of a request to which the sender has added its own headers. -/
theorem addressed_getSid (subReq : HttpRequest) (ipaddr : CString) (port : ℤ) :
    (subReq.addressed ipaddr port).getHeaderValue "SID".toList =
      subReq.getHeaderValue "SID".toList := by
  unfold HttpRequest.addressed HttpPacket.setHeaderValue HttpPacket.getHeaderValue
  simp only
  rw [headerListGetValue_set_of_ne _ (by decide), headerListGetValue_set_of_ne _ (by decide)]

theorem getSid_requestSetSid (subReq : HttpRequest) (sid : CString) :
    (subscriptionRequestSetSid subReq (some sid)).getHeaderValue "SID".toList =
      some (sentSid sid) := by
  unfold subscriptionRequestSetSid HttpPacket.setHeaderValue HttpPacket.getHeaderValue
  simp only [stringAddValue_sentSid]
  exact headerListGetValue_set_self _ _ _

theorem getSid_setRenewSubscription (subReq : HttpRequest) (eventSubUrl : NetUri) (sid : CString)
    (timeout : ℤ) :
    (setRenewSubscription subReq eventSubUrl (some sid) timeout).getHeaderValue "SID".toList =
      some (sentSid sid) := by
  unfold setRenewSubscription subscriptionRequestSetTimeout
  have hother : strcaseeq "TIMEOUT".toList "SID".toList = false := by decide
  exact (headerListGetValue_set_of_ne _ hother _).trans (getSid_requestSetSid _ sid)

/-- A renewal with the SID of the subscription leaves it. -/
theorem resubscribe_subscriptionSid {sid : CString} (h : service.subscriptionSid = some sid)
    {grant : SubscriptionGrant} (hgrant : grant.sid = some sid) :
    (service.resubscribe (some grant)).subscriptionSid = some sid := by
  unfold EventedService.resubscribe
  split_ifs
  · exact h
  · simp only [hgrant, stringSetValue_some]

/-- A subscription stores the SID that was granted, and each renewal stores it again. -/
theorem subscriptionSid_subscribedWith (h : ∀ c ∈ sidHeader, IsVisible c) (first : ℤ × ℤ)
    (renewals : List (ℤ × ℤ)) :
    (service.subscribedWith sidHeader first renewals).subscriptionSid =
      some (storedSid sidHeader) := by
  have hgrant : ∀ timeout time, (grantOf sidHeader timeout time).sid =
      some (storedSid sidHeader) := by
    intro timeout time
    rw [grantOf, storedSid, receivedValue_sid h]
    rfl
  have hfold : ∀ (start : EventedService),
      start.subscriptionSid = some (storedSid sidHeader) →
        (renewals.foldl (fun service renewal ↦
          service.resubscribe (some (grantOf sidHeader renewal.1 renewal.2)))
            start).subscriptionSid = some (storedSid sidHeader) := by
    induction renewals with
    | nil => exact fun start hstart ↦ hstart
    | cons renewal renewals ih =>
      intro start hstart
      exact ih _ (resubscribe_subscriptionSid hstart (hgrant renewal.1 renewal.2))
  refine hfold _ ?_
  unfold EventedService.subscribe
  simp only [hgrant, stringSetValue_some]

/-- A message with the SID of a service is for this service. -/
theorem getServiceBySid_of_unique {devices : List Device} {before after : List Service}
    {found : Service} {sid : CString} (hne : sid ≠ []) (hsid : found.subscriptionSid = some sid)
    (h : (RoseTree.preorderIn devices).flatMap DeviceObject.services = before ++ found :: after)
    (hother : ∀ other ∈ before ++ after, other.subscriptionSid ≠ found.subscriptionSid) :
    getServiceBySid devices (some sid) = some found := by
  have hlength : ¬ strlen (some sid) ≤ 0 := not_strlen_some_le_zero hne
  have hfound : (found.isSubscribed && decide (strcmp found.subscriptionSid (some sid) = 0)) =
      true := by
    rw [Bool.and_eq_true, decide_eq_true_eq, strcmp_some_eq_zero_iff, Service.isSubscribed, hsid]
    exact ⟨by simpa [stringLength, strlen, List.length_pos_iff] using hne, rfl⟩
  have hbefore : ∀ other ∈ before,
      ¬ (other.isSubscribed && decide (strcmp other.subscriptionSid (some sid) = 0)) = true := by
    intro other hmem hpass
    rw [Bool.and_eq_true, decide_eq_true_eq, strcmp_some_eq_zero_iff] at hpass
    exact hother other (List.mem_append_left _ hmem) (hpass.2.trans hsid.symm)
  rw [getServiceBySid, if_neg hlength, RoseTree.searchIn_eq_find, h, List.find?_append,
    List.find?_eq_none.mpr hbefore, Option.none_or, List.find?_cons, hfound]

end sent

/-! ### Which headers come back -/

/-- **Which SIDs come back.** After a subscription with a SID header of visible characters, and any
number of renewals with the same one, the requests of the service carry this header, and a message
with it is for the service, if and only if the header is of the kind that is kept. -/
theorem sid_fidelity_iff {sidHeader : CString} (h : ∀ c ∈ sidHeader, IsVisible c)
    (service : EventedService) (first : ℤ × ℤ) (renewals : List (ℤ × ℤ)) :
    CarriesSid (service.subscribedWith sidHeader first renewals) sidHeader ↔
      KeepsSid sidHeader := by
  have hstored := @subscriptionSid_subscribedWith service sidHeader h first renewals
  have hunsubscription : ∀ userAgent eventSubUrl ipaddr port,
      (((service.subscribedWith sidHeader first renewals).unsubscriptionRequest userAgent
        eventSubUrl).addressed ipaddr port).getHeaderValue "SID".toList =
          some (sentSid (storedSid sidHeader)) := by
    intro userAgent eventSubUrl ipaddr port
    rw [addressed_getSid, EventedService.unsubscriptionRequest, hstored]
    exact getSid_requestSetSid _ _
  constructor
  · intro hcarries
    have hsent := hcarries.unsubscription [] (NetUri.setValue []) [] 0
    rw [hunsubscription] at hsent
    exact keepsSid_of_sentSid h (Option.some.inj hsent)
  · intro hkeeps
    have hsent := hkeeps.sentSid h
    have hne : storedSid sidHeader ≠ [] := by
      intro hempty
      rw [hempty] at hsent
      obtain ⟨-, ⟨hcolon, -⟩ | ⟨sid, hsid, hne, -⟩⟩ := hkeeps
      · exact hcolon (hsent ▸ by decide)
      · exact hne (List.append_cancel_left (hsent.trans hsid)).symm
    refine ⟨?_, ?_, ?_⟩
    · intro userAgent eventSubUrl timeout subReq hrequest ipaddr port
      unfold EventedService.renewalRequest at hrequest
      split_ifs at hrequest
      rw [addressed_getSid, ← Option.some.inj hrequest, hstored, getSid_setRenewSubscription, hsent]
    · intro userAgent eventSubUrl ipaddr port
      rw [hunsubscription, hsent]
    · intro devices before after hservices hother
      have hsid : subscriptionGetSid (receivedValue "SID".toList sidHeader) =
          some (storedSid sidHeader) := by
        rw [storedSid, receivedValue_sid h]
        rfl
      rw [hsid]
      exact getServiceBySid_of_unique hne hstored hservices hother

/-- A service without a description. -/
def bareService : EventedService := ⟨⟨none, none, none, none, none, none, 0, 0, 0⟩, []⟩

/-- A SID header with the prefix that comes back. -/
theorem sid_fidelity_iff_prefix :
    CarriesSid (bareService.subscribedWith "uuid:1".toList (1800, 0) [(1800, 900)])
      "uuid:1".toList ↔ KeepsSid "uuid:1".toList := by
  have hvisible : ∀ c ∈ "uuid:1".toList, IsVisible c := by
    unfold IsVisible
    decide
  exact sid_fidelity_iff hvisible bareService (1800, 0) [(1800, 900)]

/-- A SID header with `uuid` behind its prefix comes back without the prefix. -/
theorem not_sid_fidelity :
    ¬ ∀ (sidHeader : CString) (service : EventedService) (first : ℤ × ℤ)
        (renewals : List (ℤ × ℤ)), sidHeader ≠ [] → (∀ c ∈ sidHeader, IsVisible c) →
      CarriesSid (service.subscribedWith sidHeader first renewals) sidHeader := by
  intro hcarries
  have hvisible : ∀ c ∈ "uuid:my-uuid-7".toList, IsVisible c := by
    unfold IsVisible
    decide
  have hcarried := (hcarries "uuid:my-uuid-7".toList bareService (1800, 0) [] (by decide)
    hvisible).unsubscription [] (NetUri.setValue []) [] 0
  have hsent : (((bareService.subscribedWith "uuid:my-uuid-7".toList (1800, 0)
      []).unsubscriptionRequest [] (NetUri.setValue [])).addressed [] 0).getHeaderValue
        "SID".toList = some "my-uuid-7".toList := by decide +kernel
  exact absurd (Option.some.inj (hsent.symm.trans hcarried)) (by decide)

end Mupnp.Event
