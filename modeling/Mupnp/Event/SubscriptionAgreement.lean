import Mathlib.Data.List.Nodup
import Mupnp.Event.ServiceNotify
import Mupnp.Event.SubscriptionExchange
import Mupnp.Foundation.TransitionSystem
import Mupnp.Foundation.UniqueMatch

/-!
# Agreement on subscriptions

A device, any number of control points that subscribe to its services over connections of their own
(`mupnp_controlpoint_subscribe` and `mupnp_controlpoint_unsubscribe`), the rounds of notifications
in which the device removes subscribers (`mupnp_service_notifymain`), and requests of others. A call
has two steps, between which anything may happen: the device answers it, and the control point reads
the answer, which may be lost. A control point has one call for its service under way at a time.

The device handles one request or one round at a time. Every connection has a thread of its own, but
`device_http_server.c` inserts a new subscriber and renews one without the mutex of the
service, so that nothing is said about requests that are handled at the same moment.

`requestEffect_of_requestReceived` says what any request may do to the subscribers of a device,
`inAgreement_step` what every step keeps, and `agreement_of_run` what holds after every run.
`callOver_of_run` ties the steps to calls that are made over HTTP connections.
-/

set_option autoImplicit false
set_option relaxedAutoImplicit false

namespace Mupnp.Event

open DeviceServer Foundation Http Net Util

/-! ### The subscribers of a service -/

theorem carries_iff {uuid : CString} {sub : DeliverySubscriber} :
    carries uuid sub = true ↔ sub.sid = some ("uuid:".toList ++ uuid) := by
  rw [carries, decide_eq_true_iff]

theorem carries_eq_false {uuid other : CString} {sub : DeliverySubscriber}
    (h : carries uuid sub = true) (hne : other ≠ uuid) : carries other sub = false := by
  rw [← Bool.not_eq_true, carries_iff, carries_iff.mp h, Option.some.injEq,
    List.append_cancel_left_eq]
  exact hne.symm

/-- The subscribers of a service were made with different identifiers that the device created. -/
structure IsRegister (issued : List CString) (subscribers : List DeliverySubscriber) : Prop where
  identified : ∀ sub ∈ subscribers, ∃ uuid ∈ issued, IsUuid uuid ∧ carries uuid sub = true
  nodup : (subscribers.map fun sub ↦ sub.sid).Nodup

/-- A subscriber with an identifier, a timeout and a delivery URL is there. -/
def IsServedAs (subscribers : List DeliverySubscriber) (uuid : CString) (timeout : ℤ)
    (url : NetUri) : Prop :=
  ∃ sub ∈ subscribers, carries uuid sub = true ∧ sub.timeout = timeout ∧ sub.deliveryUrl = url

section Register

variable {issued : List CString} {subscribers : List DeliverySubscriber} {uuid other : CString}
  {timeout : ℤ} {url : NetUri}

theorem IsRegister.isIdentified (h : IsRegister issued subscribers) :
    ∀ sub ∈ subscribers, IsIdentified sub := by
  intro sub hmem
  obtain ⟨uuid, -, huuid, hcarries⟩ := h.identified sub hmem
  exact ⟨uuid, carries_iff.mp hcarries, huuid⟩

theorem IsRegister.atMostOne (h : IsRegister issued subscribers) (uuid : CString) :
    AtMostOne (carries uuid) subscribers :=
  atMostOne_of_nodup h.nodup fun _ hcarries ↦ carries_iff.mp hcarries

theorem IsRegister.mono (h : IsRegister issued subscribers) (uuid : CString) :
    IsRegister (uuid :: issued) subscribers := by
  refine ⟨fun sub hmem ↦ ?_, h.nodup⟩
  obtain ⟨used, hused, hrest⟩ := h.identified sub hmem
  exact ⟨used, List.mem_cons_of_mem _ hused, hrest⟩

/-- A subscriber with an identifier that was not issued before. -/
theorem IsRegister.append (h : IsRegister issued subscribers) {sub : DeliverySubscriber}
    (hsub : carries uuid sub = true) (huuid : IsUuid uuid) (hfresh : uuid ∉ issued) :
    IsRegister (uuid :: issued) (subscribers ++ [sub]) := by
  refine ⟨fun found hmem ↦ ?_, ?_⟩
  · rcases List.mem_append.mp hmem with hold | hnew
    · exact (h.mono uuid).identified found hold
    · obtain rfl := List.mem_singleton.mp hnew
      exact ⟨uuid, List.mem_cons_self, huuid, hsub⟩
  · rw [List.map_append, List.map_singleton]
    refine h.nodup.append (List.nodup_singleton _) ?_
    rw [List.disjoint_singleton]
    intro hmem
    obtain ⟨found, hfound, hsame⟩ := List.mem_map.mp hmem
    obtain ⟨used, hused, -, hcarries⟩ := h.identified found hfound
    have heq : used = uuid := by
      by_contra hne
      have hnot := carries_eq_false hcarries (Ne.symm hne)
      rw [carries, hsame, ← carries, hsub] at hnot
      cases hnot
    exact hfresh (heq ▸ hused)

/-- A change that leaves the identifiers. -/
theorem IsRegister.map (h : IsRegister issued subscribers)
    {change : DeliverySubscriber → DeliverySubscriber} (hsid : ∀ sub, (change sub).sid = sub.sid) :
    IsRegister issued (subscribers.map change) := by
  have hcarries : ∀ uuid sub, carries uuid (change sub) = carries uuid sub := by
    intro uuid sub
    rw [carries, carries, hsid]
  refine ⟨fun sub hmem ↦ ?_, ?_⟩
  · obtain ⟨found, hfound, rfl⟩ := List.mem_map.mp hmem
    obtain ⟨uuid, hused, huuid, hfor⟩ := h.identified found hfound
    exact ⟨uuid, hused, huuid, (hcarries uuid found).trans hfor⟩
  · rw [List.map_map]
    exact (List.map_congr_left fun sub _ ↦ hsid sub).symm ▸ h.nodup

theorem IsRegister.filter (h : IsRegister issued subscribers)
    (keep : DeliverySubscriber → Bool) : IsRegister issued (subscribers.filter keep) :=
  ⟨fun sub hmem ↦ h.identified sub (List.mem_of_mem_filter hmem),
    h.nodup.sublist (List.filter_sublist.map _)⟩

end Register

/-! ### What a request does to the subscribers -/

/-- Whom a request with the header `SID` is about. -/
def namedSid (subReq : HttpRequest) : Option CString :=
  (subscriptionGetSid (subReq.getHeaderValue "SID".toList)).bind skipUuid

/-- The ways in which a request may change the subscribers of a device. -/
inductive RequestEffect (sid : CString) (subReq : HttpRequest) (dev : SubscriptionDevice) :
    SubscriptionDevice → Prop
  | unchanged : RequestEffect sid subReq dev dev
  | added (service : ServedService) (sub : DeliverySubscriber) (hsid : sub.sid = some sid) :
    RequestEffect sid subReq dev
      (dev.setSubscribers service (dev.subscribers service ++ [sub]))
  | renewed (service : ServedService) (uuid : CString) (hnamed : namedSid subReq = some uuid)
      (timeout now : ℤ) :
    RequestEffect sid subReq dev (dev.setSubscribers service ((dev.subscribers service).map
      fun sub ↦ if carries uuid sub then SubscriptionDevice.renewed sub timeout now else sub))
  | removed (service : ServedService) (uuid : CString) (hnamed : namedSid subReq = some uuid) :
    RequestEffect sid subReq dev (dev.setSubscribers service ((dev.subscribers service).filter
      fun sub ↦ !carries uuid sub))

/-- The registers of a device. -/
def HasRegisters (issued : List CString) (dev : SubscriptionDevice) : Prop :=
  ∀ service, IsRegister issued (dev.subscribers service)

section Effect

variable {issued : List CString} {dev dev' : SubscriptionDevice} {sid : CString}
  {subReq : HttpRequest}

theorem setSubscribers_subscribers (dev : SubscriptionDevice) (service other : ServedService)
    (subscribers : List DeliverySubscriber) :
    (dev.setSubscribers service subscribers).subscribers other =
      if other = service then subscribers else dev.subscribers other := by
  exact Function.update_apply _ _ _ _

/-- The subscriber that is found for a header is the first one that it names. -/
theorem findIdx?_of_subscriberPosition {subscribers : List DeliverySubscriber}
    (hidentified : ∀ sub ∈ subscribers, IsIdentified sub) {header : Option CString} {position : ℕ}
    (h : subscriberPosition subscribers header = some (some position)) :
    ∃ uuid, header.bind skipUuid = some uuid ∧
      subscribers.findIdx? (carries uuid) = some position := by
  unfold subscriberPosition at h
  split_ifs at h with hempty
  · cases h
  cases hread : header.bind skipUuid with
  | none =>
    rw [hread] at h
    cases subscribers with
    | nil => cases h
    | cons sub rest =>
      obtain ⟨uuid, hsid, -⟩ := hidentified sub List.mem_cons_self
      rw [findPosition, hsid] at h
      cases h
  | some uuid =>
    rw [hread, findPosition_eq hidentified, Option.some.injEq] at h
    exact ⟨uuid, rfl, h⟩

/-- An unsubscription removes the subscriber that it names. -/
theorem requestEffect_unsubscriptionReceived {service : ServedService} {server : CString}
    {subRes : HttpResponse} (hregister : IsRegister issued (dev.subscribers service))
    (h : dev.unsubscriptionReceived server service subReq = some (dev', subRes)) :
    RequestEffect sid subReq dev dev' := by
  obtain ⟨found, hfound, hresult⟩ := Option.map_eq_some_iff.mp h
  cases found with
  | none =>
    obtain rfl := congrArg Prod.fst hresult
    exact .unchanged
  | some position =>
    obtain ⟨uuid, hnamed, hposition⟩ :=
      findIdx?_of_subscriberPosition hregister.isIdentified hfound
    obtain rfl := congrArg Prod.fst hresult
    rw [Option.elim_some, (hregister.atMostOne uuid).eraseIdx_findIdx? hposition]
    exact .removed service uuid hnamed

/-- A renewal changes the subscriber that it names. -/
theorem requestEffect_renewSubscriptionReceived {service : ServedService} {server : CString}
    {now : ℤ} {subRes : HttpResponse} (hregister : IsRegister issued (dev.subscribers service))
    (h : dev.renewSubscriptionReceived server now service subReq = some (dev', subRes)) :
    RequestEffect sid subReq dev dev' := by
  obtain ⟨found, hfound, hresult⟩ := Option.map_eq_some_iff.mp h
  cases found with
  | none =>
    obtain rfl := congrArg Prod.fst hresult
    exact .unchanged
  | some position =>
    obtain ⟨uuid, hnamed, hposition⟩ :=
      findIdx?_of_subscriberPosition hregister.isIdentified hfound
    obtain rfl := congrArg Prod.fst hresult
    rw [Option.elim_some, (hregister.atMostOne uuid).modify_findIdx? hposition]
    exact .renewed service uuid hnamed _ now

/-- Every request for a subscription has one of the effects. -/
theorem requestEffect_subscriptionReceived {service : ServedService} {server : CString} {now : ℤ}
    {subRes : HttpResponse} (hregister : IsRegister issued (dev.subscribers service))
    (h : dev.subscriptionReceived server sid now service subReq = some (dev', subRes)) :
    RequestEffect sid subReq dev dev' := by
  have hrefused : ∀ {refusal : HttpResponse}, some (dev, refusal) = some (dev', subRes) →
      RequestEffect sid subReq dev dev' := by
    intro refusal heq
    obtain ⟨rfl, -⟩ := Prod.mk.inj (Option.some.inj heq)
    exact .unchanged
  unfold SubscriptionDevice.subscriptionReceived at h
  dsimp only at h
  split_ifs at h
  · exact hrefused h
  · exact hrefused h
  · exact hrefused h
  · exact hrefused h
  · exact requestEffect_unsubscriptionReceived hregister h
  · obtain rfl := congrArg Prod.fst (Option.some.inj h)
    exact .added service _ rfl
  · exact requestEffect_renewSubscriptionReceived hregister h
  · exact hrefused h

/-- Every request has one of the effects. -/
theorem requestEffect_of_requestReceived (hregisters : HasRegisters issued dev) {server : CString}
    {now : ℤ} {answer : Option HttpResponse}
    (h : dev.requestReceived server sid now subReq = some (dev', answer)) :
    RequestEffect sid subReq dev dev' := by
  unfold SubscriptionDevice.requestReceived at h
  split at h
  · next service hdispatch =>
    obtain ⟨⟨changed, subRes⟩, hreceived, heq⟩ := Option.map_eq_some_iff.mp h
    obtain rfl : changed = dev' := congrArg Prod.fst heq
    exact requestEffect_subscriptionReceived (hregisters service) hreceived
  · obtain rfl := congrArg Prod.fst (Option.some.inj h)
    exact .unchanged
  · obtain rfl := congrArg Prod.fst (Option.some.inj h)
    exact .unchanged
  · obtain rfl := congrArg Prod.fst (Option.some.inj h)
    exact .unchanged

/-- The routes of a device are those of its tree. -/
theorem RequestEffect.toHttpDevice (h : RequestEffect sid subReq dev dev') :
    dev'.toHttpDevice = dev.toHttpDevice := by
  cases h <;> rfl

/-- Assumes: the identifier was not issued before. The registers stay registers. -/
theorem RequestEffect.hasRegisters {uuid : CString}
    (h : RequestEffect ("uuid:".toList ++ uuid) subReq dev dev')
    (hregisters : HasRegisters issued dev) (huuid : IsUuid uuid) (hfresh : uuid ∉ issued) :
    HasRegisters (uuid :: issued) dev' := by
  have hset : ∀ {service : ServedService} {subscribers : List DeliverySubscriber},
      IsRegister (uuid :: issued) subscribers →
        HasRegisters (uuid :: issued) (dev.setSubscribers service subscribers) := by
    intro service subscribers hnew other
    rw [setSubscribers_subscribers]
    split_ifs
    · exact hnew
    · exact (hregisters other).mono uuid
  cases h with
  | unchanged => exact fun service ↦ (hregisters service).mono uuid
  | added service sub hsid =>
    exact hset ((hregisters service).append (carries_iff.mpr hsid) huuid hfresh)
  | renewed service named hnamed timeout now =>
    refine hset (((hregisters service).mono uuid).map fun sub ↦ ?_)
    split_ifs <;> rfl
  | removed service named hnamed => exact hset (((hregisters service).mono uuid).filter _)

/-- A subscriber that a request does not name stays as it is. -/
theorem RequestEffect.isServedAs (h : RequestEffect sid subReq dev dev') {uuid : CString}
    (hother : namedSid subReq ≠ some uuid) {target : ServedService} {timeout : ℤ} {url : NetUri}
    (hserved : IsServedAs (dev.subscribers target) uuid timeout url) :
    IsServedAs (dev'.subscribers target) uuid timeout url := by
  obtain ⟨sub, hmem, hcarries, hrest⟩ := hserved
  have hnamed : ∀ {named : CString}, namedSid subReq = some named → carries named sub = false := by
    intro named heq
    refine carries_eq_false hcarries fun hsame ↦ hother ?_
    rw [heq, hsame]
  have hset : ∀ {service : ServedService} {subscribers : List DeliverySubscriber},
      (target = service → sub ∈ subscribers) →
        IsServedAs ((dev.setSubscribers service subscribers).subscribers target) uuid timeout
          url := by
    intro service subscribers hstays
    refine ⟨sub, ?_, hcarries, hrest⟩
    rw [setSubscribers_subscribers]
    split_ifs with htarget
    · exact hstays htarget
    · exact hmem
  cases h with
  | unchanged => exact ⟨sub, hmem, hcarries, hrest⟩
  | added service new hsid =>
    refine hset fun htarget ↦ List.mem_append_left _ ?_
    exact htarget ▸ hmem
  | renewed service named heq renewal now =>
    refine hset fun htarget ↦ List.mem_map.mpr ⟨sub, htarget ▸ hmem, ?_⟩
    rw [hnamed heq, if_neg Bool.false_ne_true]
  | removed service named heq =>
    refine hset fun htarget ↦ List.mem_filter.mpr ⟨htarget ▸ hmem, ?_⟩
    rw [hnamed heq, Bool.not_false]

end Effect

/-! ### What a control point knows -/

/-- What a service knows of its subscription: the identifier and the timeout. -/
def EventedService.known (service : EventedService) : Option (CString × ℤ) :=
  if service.isSubscribed then
    service.subscriptionSid.map fun sid ↦ (sid, service.subscriptionTimeout)
  else none

/-- What a service knows after a call whose answer was read. -/
def SubscriptionCall.learned (call : SubscriptionCall) (subRes : HttpResponse) :
    Option (CString × ℤ) :=
  match call with
  | .subscribe _ =>
    (grantOfResponse subRes 0).bind fun grant ↦ grant.sid.map fun sid ↦ (sid, grant.timeout)
  | .unsubscribe => none

/-- An answer to a call that subscribes: what it grants has an identifier. -/
def IsAnswer (subRes : HttpResponse) : Prop :=
  isSuccessful subRes = true → ∃ uuid timeout, IsUuid uuid ∧
    ∀ time, grantOfResponse subRes time = some ⟨some uuid, timeout, time⟩

section Known

variable {service : EventedService} {subRes read : HttpResponse} {uuid : CString} {timeout : ℤ}

theorem known_of_isSubscribed (hsid : service.subscriptionSid = some uuid) (hne : uuid ≠ []) :
    service.known = some (uuid, service.subscriptionTimeout) := by
  rw [EventedService.known, if_pos (isSubscribed_iff.mpr ⟨uuid, hsid, hne⟩), hsid, Option.map_some]

theorem known_of_not_isSubscribed (h : service.isSubscribed = false) : service.known = none := by
  rw [EventedService.known, h, if_neg Bool.false_ne_true]

/-- A service without an identifier knows nothing. -/
theorem known_of_nil (hsid : service.subscriptionSid = some []) : service.known = none := by
  refine known_of_not_isSubscribed ?_
  rw [← Bool.not_eq_true, isSubscribed_iff]
  rintro ⟨sid, hsome, hne⟩
  exact hne (Option.some.inj (hsome.symm.trans hsid))

theorem known_settle_none (call : SubscriptionCall) : (service.settle none call).known = none := by
  cases call with
  | subscribe timeout =>
    rw [EventedService.settle]
    split_ifs with hsubscribed
    · rw [EventedService.resubscribe, if_neg (by rw [hsubscribed]; exact Bool.true_eq_false.mp)]
      exact known_of_nil rfl
    · exact known_of_nil rfl
  | unsubscribe => exact known_of_nil rfl

theorem known_settle_some (hne : uuid ≠ []) (asked time : ℤ) :
    (service.settle (some ⟨some uuid, timeout, time⟩) (.subscribe asked)).known =
      some (uuid, timeout) := by
  rw [EventedService.settle]
  split_ifs with hsubscribed
  · rw [EventedService.resubscribe, if_neg (by rw [hsubscribed]; exact Bool.true_eq_false.mp)]
    exact known_of_isSubscribed rfl hne
  · exact known_of_isSubscribed rfl hne

/-- The date of a response does not count for what it grants. -/
theorem grantOfResponse_eq_of_arrives {httpDate : CString} (h : subRes.Arrives read httpDate)
    (time : ℤ) : grantOfResponse read time = grantOfResponse subRes time := by
  have hvalue : ∀ name : CString, strcaseeq "Date".toList name = false →
      read.getHeaderValue name = subRes.getHeaderValue name := by
    intro name hother
    rw [HttpPacket.getHeaderValue, h.headers]
    exact headerListGetValue_set_of_ne _ hother _
  rw [grantOfResponse, grantOfResponse, isSuccessful, isSuccessful, h.statusCode,
    hvalue _ (by decide), hvalue _ (by decide)]

/-- What is granted can be read. -/
theorem grantOfResponse_grantResponse {server sid : CString}
    (hsent : sentSid sid = "uuid:".toList ++ uuid) (htimeout : IsGrantable timeout) (time : ℤ) :
    grantOfResponse (grantResponse server (some sid) timeout) time =
      some ⟨some uuid, timeout, time⟩ := by
  have harrives : (grantResponse server (some sid) timeout).Arrives
      ((grantResponse server (some sid) timeout).dated []) [] := ⟨rfl, rfl, rfl, rfl, rfl⟩
  rw [← grantOfResponse_eq_of_arrives harrives]
  exact grantOfResponse_of_arrives hsent htimeout harrives time

/-- A service that reads an answer knows what the answer says, or nothing. -/
theorem known_settle {call : SubscriptionCall} (hheard : IsHeardAs subRes read)
    (hanswer : ∀ asked, call = .subscribe asked → IsAnswer subRes) (time : ℤ) :
    (service.settle (grantOfResponse read time) call).known = call.learned subRes ∨
      (service.settle (grantOfResponse read time) call).known = none := by
  cases hsuccess : isSuccessful read with
  | false =>
    right
    rw [grantOfResponse_of_failure hsuccess, known_settle_none]
  | true =>
    rcases hheard with ⟨httpDate, harrives⟩ | hfailure
    · cases call with
      | subscribe asked =>
        have hgranted : isSuccessful subRes = true := by
          rw [← hsuccess, isSuccessful, isSuccessful, harrives.statusCode]
        obtain ⟨uuid, timeout, huuid, hgrant⟩ := hanswer asked rfl hgranted
        left
        rw [grantOfResponse_eq_of_arrives harrives, hgrant, known_settle_some huuid.ne_nil,
          SubscriptionCall.learned, hgrant]
        rfl
      | unsubscribe => exact Or.inl (known_of_nil rfl)
    · rw [hsuccess] at hfailure
      cases hfailure

end Known

/-! ### The system -/

/-- Control points, numbered in any way, with the services of a device that each of them subscribes
to. -/
structure EventNetwork (ι : Type) where
  server : CString
  point : ι → EventPoint
  host : ι → CString
  uri : ι → CString
  target : ι → ServedService

/-- The device and the services of the control points. `pending` has the calls that the device has
answered and whose answer was not read yet, `issued` the identifiers that were created, and
`dropped` those of the subscribers that a round of notifications has removed. -/
structure SubscriptionState (ι : Type) where
  dev : SubscriptionDevice
  service : ι → EventedService
  pending : ι → Option (SubscriptionCall × HttpResponse)
  issued : List CString
  dropped : List CString

/-- What can happen next: the device answers a call, a control point reads the answer, a call fails
on its way to the device, the device notifies the subscribers of a service, or it answers a request
of somebody else. An answer and a round are one step each: while the device is at one of them it is
not at another. -/
inductive SubscriptionAction (ι : Type) where
  | call (i : ι) (call : SubscriptionCall) (received : HttpRequest) (uuid : CString) (now : ℤ)
  | settle (i : ι) (read : HttpResponse) (time : ℤ)
  | fail (i : ι) (call : SubscriptionCall)
  | round (target : ServedService) (now : ℤ) (acknowledged : DeliverySubscriber → Bool)
  | other (received : HttpRequest) (uuid : CString) (now : ℤ)

/-- `mupnp_service_notifymain` keeps the subscriber. -/
def staysIn (now : ℤ) (acknowledged : DeliverySubscriber → Bool) (sub : DeliverySubscriber) :
    Bool :=
  !sub.isExpired now && acknowledged sub

/-- `mupnp_subscriber_incrementnotifycount`. -/
def counted (sub : DeliverySubscriber) : DeliverySubscriber :=
  { sub with toSubscriber := sub.toSubscriber.incrementNotifyCount }

/-- A round leaves the subscribers that `mupnp_service_notifymain` leaves. Assumes: `answered` says
of each subscriber whether its message was acknowledged. -/
theorem map_toSubscriber_round {entries : List (SubscriberId × DeliverySubscriber)}
    {acknowledged : SubscriberId → Bool} {answered : DeliverySubscriber → Bool}
    (hanswered : ∀ entry ∈ entries, answered entry.2 = acknowledged entry.1)
    (stateTable : List StateVariable) (round : Round) (now : ℤ) :
    (((entries.map Prod.snd).filter (staysIn now answered)).map counted).map
        DeliverySubscriber.toSubscriber =
      (notifyMain (entries.map fun entry ↦ (entry.1, entry.2.toSubscriber)) stateTable round now
        acknowledged).1.map Prod.snd := by
  unfold notifyMain
  induction entries with
  | nil => rfl
  | cons entry rest ih =>
    have hentry := hanswered entry List.mem_cons_self
    have hrest := ih fun later hlater ↦ hanswered later (List.mem_cons_of_mem _ hlater)
    cases hexpired : entry.2.isExpired now with
    | true =>
      have hgone : staysIn now answered entry.2 = false := by
        rw [staysIn, hexpired, Bool.not_true, Bool.false_and]
      simp only [List.map_cons, List.filter_cons, hgone, hexpired, Bool.not_true,
        Bool.false_eq_true, if_false]
      exact hrest
    | false =>
      have hstays : staysIn now answered entry.2 = acknowledged entry.1 := by
        rw [staysIn, hexpired, Bool.not_false, Bool.true_and, hentry]
      cases hacknowledged : acknowledged entry.1 with
      | true =>
        simp only [List.map_cons, List.filter_cons, List.filterMap_cons, hstays, hexpired,
          hacknowledged, Bool.not_false, if_true]
        exact congrArg (entry.2.toSubscriber.incrementNotifyCount :: ·) hrest
      | false =>
        simp only [List.map_cons, List.filter_cons, List.filterMap_cons, hstays, hexpired,
          hacknowledged, Bool.not_false, Bool.false_eq_true, if_true, if_false]
        exact hrest

namespace SubscriptionState

variable {ι : Type}

def step [DecidableEq ι] (net : EventNetwork ι) (s : SubscriptionState ι) :
    SubscriptionAction ι → Option (SubscriptionState ι)
  | .call i call received uuid now =>
    if (s.pending i).isSome then none
    else
      (s.dev.requestReceived net.server ("uuid:".toList ++ uuid) now received).bind
        fun result ↦ result.2.map fun subRes ↦
          { s with
            dev := result.1
            pending := Function.update s.pending i (some (call, subRes))
            issued := uuid :: s.issued }
  | .settle i read time =>
    (s.pending i).map fun entry ↦
      { s with
        service := Function.update s.service i
          ((s.service i).settle (grantOfResponse read time) entry.1)
        pending := Function.update s.pending i none }
  | .fail i call =>
    if (s.pending i).isSome then none
    else some { s with service := Function.update s.service i ((s.service i).settle none call) }
  | .round target now acknowledged =>
    let subscribers := s.dev.subscribers target
    some { s with
      dev := s.dev.setSubscribers target
        ((subscribers.filter (staysIn now acknowledged)).map counted)
      dropped := s.dropped ++
        (subscribers.filter fun sub ↦ !staysIn now acknowledged sub).filterMap fun sub ↦
          sub.sid.bind skipUuid }
  | .other received uuid now =>
    (s.dev.requestReceived net.server ("uuid:".toList ++ uuid) now received).map fun result ↦
      { s with dev := result.1, issued := uuid :: s.issued }

/-- The subscriptions of a network as a transition system. -/
def subscriptions [DecidableEq ι] (net : EventNetwork ι) :
    TransitionSystem (SubscriptionState ι) (SubscriptionAction ι) := ⟨step net⟩

/-- What a control point knows, or will know when it has read an answer that is on its way. -/
def known (s : SubscriptionState ι) (i : ι) : Option (CString × ℤ) :=
  (s.pending i).elim (s.service i).known fun entry ↦ entry.1.learned entry.2

/-- The condition on the world: requests arrive as they were posted, identifiers are new, answers
arrive as they were posted or are lost, and nobody else names the subscription of a control
point. -/
def Faithful (net : EventNetwork ι) (s : SubscriptionState ι) : SubscriptionAction ι → Prop
  | .call i call received uuid _ =>
    ((net.point i).posting (net.host i) (net.uri i) (s.service i) call).Arrives received ∧
      call.IsMade (s.service i) ∧ IsUuid uuid ∧ uuid ∉ s.issued
  | .settle i read _ => ∀ call subRes, s.pending i = some (call, subRes) → IsHeardAs subRes read
  | .other received uuid _ =>
    IsUuid uuid ∧ uuid ∉ s.issued ∧
      ∀ i held timeout, s.known i = some (held, timeout) → namedSid received ≠ some held
  | _ => True

/-- The URL that a device delivers to for the header `CALLBACK` of a control point. -/
def deliveryUrlOf (net : EventNetwork ι) (i : ι) : NetUri :=
  NetUri.setValue (strrtrim (strltrim (net.point i).callback "<".toList) ">".toList)

/-- The device serves what a control point knows, unless a round has removed its subscriber. -/
def IsKept (net : EventNetwork ι) (s : SubscriptionState ι) (i : ι) (uuid : CString)
    (timeout : ℤ) : Prop :=
  uuid ∈ s.dropped ∨
    IsServedAs (s.dev.subscribers (net.target i)) uuid timeout (deliveryUrlOf net i)

/-- What every step keeps. -/
structure InAgreement (net : EventNetwork ι) (s : SubscriptionState ι) : Prop where
  located : ∀ i, s.dev.getServiceByEventSubUrl (receivedUri (some (net.uri i))) =
    some (net.target i)
  registers : HasRegisters s.issued s.dev
  answered : ∀ i asked subRes, s.pending i = some (.subscribe asked, subRes) → IsAnswer subRes
  created : ∀ i uuid timeout, s.known i = some (uuid, timeout) → uuid ∈ s.issued ∧ IsUuid uuid
  distinct : ∀ i j uuid timeout other, s.known i = some (uuid, timeout) →
    s.known j = some (uuid, other) → i = j
  kept : ∀ i uuid timeout, s.known i = some (uuid, timeout) → IsKept net s i uuid timeout

end SubscriptionState

/-! ### One call -/

section Call

variable {issued : List CString} {point : EventPoint} {host uri uuid server : CString}
  {service : EventedService} {dev dev' : SubscriptionDevice} {target : ServedService}
  {received : HttpRequest} {subRes : HttpResponse} {now : ℤ}

/-- A call names no subscription but that of its service. -/
theorem namedSid_of_call (hstored : StoresUuid service) {call : SubscriptionCall}
    (hmade : call.IsMade service)
    (h : (point.posting host uri service call).Arrives received) {named : CString}
    (hnamed : namedSid received = some named) :
    ∃ timeout, service.known = some (named, timeout) := by
  have hheld : ∀ {held : CString}, service.subscriptionSid = some held → IsUuid held →
      received.getHeaderValue "SID".toList = some ("uuid:".toList ++ held) →
        ∃ timeout, service.known = some (named, timeout) := by
    intro held hsid huuid hvalue
    rw [namedSid, hvalue, subscriptionGetSid_prefixed, Option.bind_some, huuid.skipUuid,
      Option.some.injEq] at hnamed
    subst hnamed
    exact ⟨_, known_of_isSubscribed hsid huuid.ne_nil⟩
  cases call with
  | subscribe timeout =>
    cases hsubscribed : service.isSubscribed with
    | false =>
      have hvalue : received.getHeaderValue "SID".toList = none := by
        rw [HttpPacket.getHeaderValue, h.headers.trans (headers_new hsubscribed timeout)]
        rfl
      rw [namedSid, hvalue] at hnamed
      cases hnamed
    | true =>
      obtain ⟨held, hsid, huuid⟩ := hstored hsubscribed
      refine hheld hsid huuid ?_
      rw [HttpPacket.getHeaderValue, h.headers.trans (headers_renewal hsid huuid timeout)]
      rfl
  | unsubscribe =>
    obtain ⟨held, hsid, huuid⟩ := hstored hmade
    refine hheld hsid huuid ?_
    rw [HttpPacket.getHeaderValue, h.headers.trans (headers_unsubscription hsid huuid)]
    rfl

/-- A new subscription is served with what its answer grants. -/
theorem served_of_new
    (htarget : dev.getServiceByEventSubUrl (receivedUri (some uri)) = some target)
    (hcallback : point.callback ≠ []) (hnot : service.isSubscribed = false) {timeout : ℤ}
    (htimeout : IsTimeout timeout)
    (h : (point.posting host uri service (.subscribe timeout)).Arrives received)
    (hreceived : dev.requestReceived server ("uuid:".toList ++ uuid) now received =
      some (dev', some subRes)) :
    (∀ time, grantOfResponse subRes time = some ⟨some uuid, granted timeout, time⟩) ∧
      IsServedAs (dev'.subscribers target) uuid (granted timeout)
        (NetUri.setValue (strrtrim (strltrim point.callback "<".toList) ">".toList)) := by
  have hnew := (requestReceived_new htarget hcallback hnot h).symm.trans hreceived
  obtain ⟨hdev, hanswer⟩ := Prod.mk.inj (Option.some.inj hnew)
  obtain rfl := hdev
  obtain rfl := Option.some.inj hanswer
  refine ⟨grantOfResponse_grantResponse (sentSid_prefixed uuid) (isGrantable_granted htimeout), ?_⟩
  rw [setSubscribers_subscribers, if_pos rfl]
  exact ⟨_, List.mem_append_right _ (List.mem_singleton_self _), carries_iff.mpr rfl, rfl, rfl⟩

/-- A subscription that is renewed is served with what the answer grants. -/
theorem served_of_renewal (hregisters : HasRegisters issued dev)
    (htarget : dev.getServiceByEventSubUrl (receivedUri (some uri)) = some target) {held : CString}
    (hsid : service.subscriptionSid = some held) (hheld : IsUuid held) {timeout : ℤ}
    (htimeout : IsTimeout timeout) {sid : CString}
    (h : (point.posting host uri service (.subscribe timeout)).Arrives received)
    (hreceived : dev.requestReceived server sid now received = some (dev', some subRes)) :
    isSuccessful subRes = false ∨
      (∀ time, grantOfResponse subRes time = some ⟨some held, granted timeout, time⟩) ∧
        ∀ {old : ℤ} {url : NetUri}, IsServedAs (dev.subscribers target) held old url →
          IsServedAs (dev'.subscribers target) held (granted timeout) url := by
  have hrenewed := (requestReceived_renewal htarget (hregisters target).isIdentified hsid hheld
    h).symm.trans hreceived
  cases hfound : (dev.subscribers target).findIdx? (carries held) with
  | none =>
    rw [hfound, Option.elim_none] at hrenewed
    obtain ⟨-, hanswer⟩ := Prod.mk.inj (Option.some.inj hrenewed)
    obtain rfl := Option.some.inj hanswer
    exact Or.inl rfl
  | some position =>
    rw [hfound, Option.elim_some] at hrenewed
    obtain ⟨hdev, hanswer⟩ := Prod.mk.inj (Option.some.inj hrenewed)
    obtain rfl := hdev
    obtain rfl := Option.some.inj hanswer
    refine Or.inr ⟨grantOfResponse_grantResponse hheld.sentSid (isGrantable_granted htimeout), ?_⟩
    rintro old url ⟨sub, hmem, hcarries, -, hurl⟩
    rw [setSubscribers_subscribers, if_pos rfl,
      ((hregisters target).atMostOne held).modify_findIdx? hfound]
    refine ⟨SubscriptionDevice.renewed sub (granted timeout) now,
      List.mem_map.mpr ⟨sub, hmem, ?_⟩, hcarries, rfl, hurl⟩
    rw [hcarries, if_pos rfl]

theorem learned_of_grant {asked timeout : ℤ}
    (h : ∀ time, grantOfResponse subRes time = some ⟨some uuid, timeout, time⟩) :
    SubscriptionCall.learned (.subscribe asked) subRes = some (uuid, timeout) := by
  rw [SubscriptionCall.learned, h]
  rfl

theorem learned_of_failure (h : isSuccessful subRes = false) (call : SubscriptionCall) :
    call.learned subRes = none := by
  cases call with
  | subscribe asked => rw [SubscriptionCall.learned, grantOfResponse_of_failure h, Option.bind_none]
  | unsubscribe => rfl

/-- What a call teaches is served: it is the new identifier, or the one that is renewed. -/
theorem served_of_call (hregisters : HasRegisters issued dev)
    (htarget : dev.getServiceByEventSubUrl (receivedUri (some uri)) = some target)
    (hcallback : point.callback ≠ []) (hstored : StoresUuid service) (huuid : IsUuid uuid)
    {call : SubscriptionCall} (hmade : call.IsMade service)
    (h : (point.posting host uri service call).Arrives received)
    (hreceived : dev.requestReceived server ("uuid:".toList ++ uuid) now received =
      some (dev', some subRes)) :
    (∀ asked, call = .subscribe asked → IsAnswer subRes) ∧
      ∀ {learned : CString} {timeout : ℤ}, call.learned subRes = some (learned, timeout) →
        learned = uuid ∧ IsServedAs (dev'.subscribers target) uuid timeout
            (NetUri.setValue (strrtrim (strltrim point.callback "<".toList) ">".toList)) ∨
          service.known = some (learned, service.subscriptionTimeout) ∧
            ∀ {old : ℤ} {url : NetUri}, IsServedAs (dev.subscribers target) learned old url →
              IsServedAs (dev'.subscribers target) learned timeout url := by
  cases call with
  | subscribe asked =>
    cases hsubscribed : service.isSubscribed with
    | false =>
      obtain ⟨hgrant, hserved⟩ :=
        served_of_new htarget hcallback hsubscribed hmade h hreceived
      refine ⟨fun _ _ _ ↦ ⟨uuid, _, huuid, hgrant⟩, fun hlearned ↦ ?_⟩
      rw [learned_of_grant hgrant, Option.some.injEq] at hlearned
      obtain ⟨rfl, rfl⟩ := Prod.mk.inj hlearned
      exact Or.inl ⟨rfl, hserved⟩
    | true =>
      obtain ⟨held, hsid, hheld⟩ := hstored hsubscribed
      rcases served_of_renewal hregisters htarget hsid hheld hmade h hreceived with
        hfailure | ⟨hgrant, hserved⟩
      · refine ⟨fun _ _ hsuccess ↦ ?_, fun hlearned ↦ ?_⟩
        · rw [hfailure] at hsuccess
          cases hsuccess
        · rw [learned_of_failure hfailure] at hlearned
          cases hlearned
      · refine ⟨fun _ _ _ ↦ ⟨held, _, hheld, hgrant⟩, fun hlearned ↦ ?_⟩
        rw [learned_of_grant hgrant, Option.some.injEq] at hlearned
        obtain ⟨rfl, rfl⟩ := Prod.mk.inj hlearned
        exact Or.inr ⟨known_of_isSubscribed hsid hheld.ne_nil, hserved⟩
  | unsubscribe =>
    refine ⟨fun asked heq ↦ ?_, fun hlearned ↦ ?_⟩
    · cases heq
    · cases hlearned

end Call

/-! ### What every step keeps -/

namespace SubscriptionState

variable {ι : Type} {net : EventNetwork ι} {s s' : SubscriptionState ι}

theorem known_of_pending_none {i : ι} (h : s.pending i = none) :
    s.known i = (s.service i).known := by
  rw [known, h, Option.elim_none]

theorem known_of_pending_some {i : ι} {call : SubscriptionCall} {subRes : HttpResponse}
    (h : s.pending i = some (call, subRes)) : s.known i = call.learned subRes := by
  rw [known, h, Option.elim_some]

theorem known_congr {i : ι} (hpending : s'.pending i = s.pending i)
    (hservice : s'.service i = s.service i) : s'.known i = s.known i := by
  rw [known, known, hpending, hservice]

/-- A service that waits for no answer has an identifier that the device created. -/
theorem InAgreement.storesUuid (h : s.InAgreement net) {i : ι} (hpending : s.pending i = none) :
    StoresUuid (s.service i) := by
  intro hsubscribed
  obtain ⟨uuid, hsid, hne⟩ := isSubscribed_iff.mp hsubscribed
  have hknown := (known_of_pending_none hpending).trans (known_of_isSubscribed hsid hne)
  exact ⟨uuid, hsid, (h.created i uuid _ hknown).2⟩

/-- Control points may forget what they know. -/
theorem InAgreement.of_forget (h : s.InAgreement net) (hdev : s'.dev = s.dev)
    (hissued : s'.issued = s.issued) (hdropped : s'.dropped = s.dropped)
    (hpending : ∀ i entry, s'.pending i = some entry → s.pending i = some entry)
    (hknown : ∀ i, s'.known i = s.known i ∨ s'.known i = none) : s'.InAgreement net := by
  have hold : ∀ {i uuid timeout}, s'.known i = some (uuid, timeout) →
      s.known i = some (uuid, timeout) := by
    intro i uuid timeout hsome
    rcases hknown i with hsame | hnone
    · exact hsame.symm.trans hsome
    · rw [hnone] at hsome
      cases hsome
  refine ⟨?_, ?_, fun i asked subRes hsome ↦ h.answered i asked subRes (hpending i _ hsome), ?_,
    fun i j uuid timeout other hi hj ↦ h.distinct i j uuid timeout other (hold hi) (hold hj), ?_⟩
  · rw [hdev]
    exact h.located
  · rw [hdev, hissued]
    exact h.registers
  · rw [hissued]
    exact fun i uuid timeout hsome ↦ h.created i uuid timeout (hold hsome)
  · intro i uuid timeout hsome
    rw [IsKept, hdropped, hdev]
    exact h.kept i uuid timeout (hold hsome)

/-- A request of somebody else. -/
theorem InAgreement.other (h : s.InAgreement net) {received : HttpRequest} {uuid : CString}
    {dev : SubscriptionDevice}
    (heffect : RequestEffect ("uuid:".toList ++ uuid) received s.dev dev) (huuid : IsUuid uuid)
    (hfresh : uuid ∉ s.issued)
    (hothers : ∀ i held timeout, s.known i = some (held, timeout) →
      namedSid received ≠ some held) :
    InAgreement net { s with dev := dev, issued := uuid :: s.issued } := by
  refine ⟨fun i ↦ ?_, heffect.hasRegisters h.registers huuid hfresh, h.answered, ?_, h.distinct, ?_⟩
  · rw [heffect.toHttpDevice]
    exact h.located i
  · intro i held timeout hknown
    obtain ⟨hissued, hheld⟩ := h.created i held timeout hknown
    exact ⟨List.mem_cons_of_mem _ hissued, hheld⟩
  · intro i held timeout hknown
    exact (h.kept i held timeout hknown).imp_right
      (heffect.isServedAs (hothers i held timeout hknown))

/-- What a control point learns is new, or it has known it before. All that is known was
created. -/
theorem InAgreement.created_of_learn (h : s.InAgreement net) {i : ι} {uuid : CString}
    (huuid : IsUuid uuid) (hother : ∀ {j : ι}, j ≠ i → s'.known j = s.known j)
    (hlearn : ∀ {learned : CString} {timeout : ℤ}, s'.known i = some (learned, timeout) →
      learned = uuid ∨ ∃ old, s.known i = some (learned, old))
    {j : ι} {learned : CString} {timeout : ℤ} (hknown : s'.known j = some (learned, timeout)) :
    learned ∈ uuid :: s.issued ∧ IsUuid learned := by
  have hold : ∀ {j : ι} {old : ℤ}, s.known j = some (learned, old) →
      learned ∈ uuid :: s.issued ∧ IsUuid learned := fun hbefore ↦
    (h.created _ learned _ hbefore).imp_left (List.mem_cons_of_mem _)
  by_cases hne : j = i
  · subst hne
    rcases hlearn hknown with rfl | ⟨old, hbefore⟩
    · exact ⟨List.mem_cons_self, huuid⟩
    · exact hold hbefore
  · exact hold ((hother hne).symm.trans hknown)

/-- Two control points do not come to know the same. -/
theorem InAgreement.distinct_of_learn (h : s.InAgreement net) {i : ι} {uuid : CString}
    (hfresh : uuid ∉ s.issued) (hother : ∀ {j : ι}, j ≠ i → s'.known j = s.known j)
    (hlearn : ∀ {learned : CString} {timeout : ℤ}, s'.known i = some (learned, timeout) →
      learned = uuid ∨ ∃ old, s.known i = some (learned, old))
    {j k : ι} {learned : CString} {timeout other : ℤ}
    (hj : s'.known j = some (learned, timeout)) (hk : s'.known k = some (learned, other)) :
    j = k := by
  have hdiffer : ∀ {j : ι} {timeout other : ℤ}, j ≠ i →
      s'.known i = some (learned, timeout) → s'.known j ≠ some (learned, other) := by
    intro j timeout other hne hknown hsame
    rw [hother hne] at hsame
    rcases hlearn hknown with rfl | ⟨old, hbefore⟩
    · exact hfresh (h.created j learned other hsame).1
    · exact hne (h.distinct j i learned _ _ hsame hbefore)
  by_contra hne
  by_cases hjcall : j = i
  · subst hjcall
    exact hdiffer (Ne.symm hne) hj hk
  · by_cases hkcall : k = i
    · subst hkcall
      exact hdiffer hne hk hj
    · rw [hother hjcall] at hj
      rw [hother hkcall] at hk
      exact hne (h.distinct j k learned timeout other hj hk)

/-- A call of a control point. -/
theorem InAgreement.call [DecidableEq ι] (h : s.InAgreement net)
    (hcallback : ∀ i, (net.point i).callback ≠ [])
    {i : ι} (hpending : s.pending i = none) {call : SubscriptionCall} {received : HttpRequest}
    {uuid : CString} {now : ℤ}
    (harrives : ((net.point i).posting (net.host i) (net.uri i) (s.service i)
      call).Arrives received)
    (hmade : call.IsMade (s.service i)) (huuid : IsUuid uuid) (hfresh : uuid ∉ s.issued)
    {dev : SubscriptionDevice} {subRes : HttpResponse}
    (hreceived : s.dev.requestReceived net.server ("uuid:".toList ++ uuid) now received =
      some (dev, some subRes)) :
    InAgreement net { s with
      dev := dev
      pending := Function.update s.pending i (some (call, subRes))
      issued := uuid :: s.issued } := by
  have heffect := requestEffect_of_requestReceived h.registers hreceived
  have hstored := h.storesUuid hpending
  obtain ⟨hanswer, hlearned⟩ := served_of_call h.registers (h.located i) (hcallback i) hstored huuid
    hmade harrives hreceived
  have hservice := known_of_pending_none hpending
  set s' : SubscriptionState ι := { s with
    dev := dev
    pending := Function.update s.pending i (some (call, subRes))
    issued := uuid :: s.issued }
  have hself : s'.known i = call.learned subRes :=
    known_of_pending_some (Function.update_self i _ s.pending)
  have hother : ∀ {j : ι}, j ≠ i → s'.known j = s.known j := fun hne ↦
    known_congr (Function.update_of_ne hne _ _) rfl
  have hlearn : ∀ {learned : CString} {timeout : ℤ}, s'.known i = some (learned, timeout) →
      learned = uuid ∨ ∃ old, s.known i = some (learned, old) := by
    intro learned timeout hknown
    exact (hlearned (hself.symm.trans hknown)).imp And.left fun hold ↦
      ⟨_, hservice.trans hold.1⟩
  refine ⟨fun j ↦ ?_, heffect.hasRegisters h.registers huuid hfresh, ?_,
    fun _ _ _ hknown ↦ h.created_of_learn huuid hother hlearn hknown,
    fun _ _ _ _ _ hj hk ↦ h.distinct_of_learn hfresh hother hlearn hj hk, ?_⟩
  · rw [heffect.toHttpDevice]
    exact h.located j
  · intro j asked answer hsome
    by_cases hne : j = i
    · subst hne
      rw [show s'.pending j = some (call, subRes) from Function.update_self j _ s.pending] at hsome
      obtain ⟨hcall, rfl⟩ := Prod.mk.inj (Option.some.inj hsome)
      exact hanswer asked hcall
    · rw [show s'.pending j = s.pending j from Function.update_of_ne hne _ _] at hsome
      exact h.answered j asked answer hsome
  · intro j learned timeout hknown
    by_cases hne : j = i
    · subst hne
      rcases hlearned (hself.symm.trans hknown) with ⟨rfl, hserved⟩ | ⟨hold, hserved⟩
      · exact Or.inr hserved
      · exact (h.kept j learned _ (hservice.trans hold)).imp_right fun hbefore ↦ hserved hbefore
    · rw [hother hne] at hknown
      -- A call names nobody's subscription but its own.
      refine (h.kept j learned timeout hknown).imp_right (heffect.isServedAs fun hnamed ↦ ?_)
      obtain ⟨held, hheld⟩ := namedSid_of_call hstored hmade harrives hnamed
      exact hne (h.distinct j i learned timeout held hknown (hservice.trans hheld))

/-- A round of notifications. -/
theorem InAgreement.round (h : s.InAgreement net) (target : ServedService) (now : ℤ)
    (acknowledged : DeliverySubscriber → Bool) :
    InAgreement net { s with
      dev := s.dev.setSubscribers target
        (((s.dev.subscribers target).filter (staysIn now acknowledged)).map counted)
      dropped := s.dropped ++
        ((s.dev.subscribers target).filter fun sub ↦ !staysIn now acknowledged sub).filterMap
          fun sub ↦ sub.sid.bind skipUuid } := by
  refine ⟨h.located, fun service ↦ ?_, h.answered, h.created, h.distinct, ?_⟩
  · rw [setSubscribers_subscribers]
    split_ifs
    · exact ((h.registers target).filter _).map fun sub ↦ rfl
    · exact h.registers service
  · intro i uuid timeout hknown
    rcases h.kept i uuid timeout hknown with hdropped | ⟨sub, hmem, hcarries, htimeout, hurl⟩
    · exact Or.inl (List.mem_append_left _ hdropped)
    by_cases htarget : net.target i = target
    · cases hstays : staysIn now acknowledged sub with
      | true =>
        right
        rw [setSubscribers_subscribers, if_pos htarget]
        exact ⟨counted sub, List.mem_map_of_mem (List.mem_filter.mpr ⟨htarget ▸ hmem, hstays⟩),
          hcarries, htimeout, hurl⟩
      | false =>
        refine Or.inl (List.mem_append_right _ (List.mem_filterMap.mpr ⟨sub,
          List.mem_filter.mpr ⟨htarget ▸ hmem, ?_⟩, ?_⟩))
        · rw [hstays, Bool.not_false]
        · rw [carries_iff.mp hcarries, Option.bind_some, skipUuid_prefixed]
    · right
      rw [setSubscribers_subscribers, if_neg htarget]
      exact ⟨sub, hmem, hcarries, htimeout, hurl⟩

/-- **One step.** Every step keeps the agreement. -/
theorem inAgreement_step [DecidableEq ι] (hcallback : ∀ i, (net.point i).callback ≠ [])
    (action : SubscriptionAction ι) (h : s.InAgreement net) (hfaithful : s.Faithful net action)
    (hstep : step net s action = some s') : s'.InAgreement net := by
  cases action with
  | call i call received uuid now =>
    obtain ⟨harrives, hmade, huuid, hfresh⟩ := hfaithful
    rw [step] at hstep
    split_ifs at hstep with hpending
    obtain ⟨⟨dev, answer⟩, hreceived, hanswer⟩ := Option.bind_eq_some_iff.mp hstep
    obtain ⟨subRes, rfl, rfl⟩ := Option.map_eq_some_iff.mp hanswer
    rw [Bool.not_eq_true, Option.isSome_eq_false_iff, Option.isNone_iff_eq_none] at hpending
    exact h.call hcallback hpending harrives hmade huuid hfresh hreceived
  | settle i read time =>
    obtain ⟨⟨call, subRes⟩, hpending, rfl⟩ := Option.map_eq_some_iff.mp hstep
    refine h.of_forget rfl rfl rfl (fun j entry hsome ↦ ?_) fun j ↦ ?_
    · by_cases hne : j = i
      · subst hne
        simp only [Function.update_self] at hsome
        cases hsome
      · simpa only [Function.update_of_ne hne] using hsome
    · by_cases hne : j = i
      · subst hne
        simp only [known, hpending, Function.update_self, Option.elim_none, Option.elim_some]
        exact known_settle (hfaithful call subRes hpending)
          (fun asked heq ↦ h.answered j asked subRes (heq ▸ hpending)) time
      · exact Or.inl (known_congr (Function.update_of_ne hne _ _) (Function.update_of_ne hne _ _))
  | fail i call =>
    rw [step] at hstep
    split_ifs at hstep with hpending
    rw [Bool.not_eq_true, Option.isSome_eq_false_iff, Option.isNone_iff_eq_none] at hpending
    obtain rfl := Option.some.inj hstep
    refine h.of_forget rfl rfl rfl (fun j entry hsome ↦ hsome) fun j ↦ ?_
    by_cases hne : j = i
    · subst hne
      right
      simp only [known, hpending, Function.update_self, Option.elim_none, known_settle_none]
    · exact Or.inl (known_congr rfl (Function.update_of_ne hne _ _))
  | round target now acknowledged =>
    obtain rfl := Option.some.inj hstep
    exact h.round target now acknowledged
  | other received uuid now =>
    obtain ⟨huuid, hfresh, hothers⟩ := hfaithful
    obtain ⟨⟨dev, answer⟩, hreceived, rfl⟩ := Option.map_eq_some_iff.mp hstep
    exact h.other (requestEffect_of_requestReceived h.registers hreceived) huuid hfresh hothers

/-! ### Runs -/

/-- Nothing has happened yet: the device has no subscribers, and no control point is subscribed. -/
structure IsInitial (net : EventNetwork ι) (s : SubscriptionState ι) : Prop where
  located : ∀ i, s.dev.getServiceByEventSubUrl (receivedUri (some (net.uri i))) =
    some (net.target i)
  subscribers : ∀ service, s.dev.subscribers service = []
  service : ∀ i, (s.service i).isSubscribed = false
  pending : ∀ i, s.pending i = none
  issued : s.issued = []
  dropped : s.dropped = []

theorem IsInitial.inAgreement (h : s.IsInitial net) : s.InAgreement net := by
  have hknown : ∀ i, s.known i = none := fun i ↦
    (known_of_pending_none (h.pending i)).trans (known_of_not_isSubscribed (h.service i))
  refine ⟨h.located, fun service ↦ ?_, fun i asked subRes hsome ↦ ?_, fun i uuid timeout hsome ↦ ?_,
    fun i j uuid timeout other hsome ↦ ?_, fun i uuid timeout hsome ↦ ?_⟩
  · rw [h.subscribers]
    exact ⟨fun sub hmem ↦ absurd hmem List.not_mem_nil, List.nodup_nil⟩
  · rw [h.pending] at hsome
    cases hsome
  · rw [hknown] at hsome
    cases hsome
  · rw [hknown] at hsome
    cases hsome
  · rw [hknown] at hsome
    cases hsome

theorem inAgreement_of_run [DecidableEq ι] (hcallback : ∀ i, (net.point i).callback ≠ [])
    {actions : List (SubscriptionAction ι)} (hinitial : s.IsInitial net)
    (hfaithful : (subscriptions net).AllSteps (Faithful net) s actions)
    (hrun : (subscriptions net).run s actions = some s') : s'.InAgreement net :=
  TransitionSystem.invariant_of_run_of_allSteps (I := InAgreement net)
    (fun _ action _ h hok hstep ↦ inAgreement_step hcallback action h hok hstep) hfaithful
    hinitial.inAgreement hrun

/-- **Both sides agree on subscriptions.** The device handles requests and rounds one at a time, in
any order, and creates identifiers that are new and well formed. After any interleaving of calls,
answers that arrive or are lost, failures, rounds and requests of others, a control point that is
subscribed and waits for no answer has a subscriber of its own at the device, with its timeout and
its delivery URL, unless a round has removed it; and no two control points have the same
subscription. -/
theorem agreement_of_run [DecidableEq ι] (hcallback : ∀ i, (net.point i).callback ≠ [])
    {actions : List (SubscriptionAction ι)} (hinitial : s.IsInitial net)
    (hfaithful : (subscriptions net).AllSteps (Faithful net) s actions)
    (hrun : (subscriptions net).run s actions = some s') :
    (∀ i, s'.pending i = none → (s'.service i).isSubscribed = true →
      ∃ uuid, (s'.service i).subscriptionSid = some uuid ∧
        (uuid ∈ s'.dropped ∨
          ∃ sub, (s'.dev.subscribers (net.target i)).filter (carries uuid) = [sub] ∧
            sub.timeout = (s'.service i).subscriptionTimeout ∧
            sub.deliveryUrl = deliveryUrlOf net i)) ∧
    ∀ i j, s'.pending i = none → s'.pending j = none → (s'.service i).isSubscribed = true →
      (s'.service j).subscriptionSid = (s'.service i).subscriptionSid → i = j := by
  have h := inAgreement_of_run hcallback hinitial hfaithful hrun
  have hknown : ∀ {i : ι} {uuid : CString}, s'.pending i = none →
      (s'.service i).subscriptionSid = some uuid → uuid ≠ [] →
        s'.known i = some (uuid, (s'.service i).subscriptionTimeout) := fun hpending hsid hne ↦
    (known_of_pending_none hpending).trans (known_of_isSubscribed hsid hne)
  constructor
  · intro i hpending hsubscribed
    obtain ⟨uuid, hsid, hne⟩ := isSubscribed_iff.mp hsubscribed
    refine ⟨uuid, hsid, (h.kept i uuid _ (hknown hpending hsid hne)).imp_right ?_⟩
    rintro ⟨sub, hmem, hcarries, htimeout, hurl⟩
    exact ⟨sub, ((h.registers _).atMostOne uuid).filter_eq_singleton hmem hcarries, htimeout, hurl⟩
  · intro i j hi hj hsubscribed hsame
    obtain ⟨uuid, hsid, hne⟩ := isSubscribed_iff.mp hsubscribed
    exact h.distinct i j uuid _ _ (hknown hi hsid hne) (hknown hj (hsame.trans hsid) hne)

/-! ### Calls over connections -/

/-- The step of a call that the device has answered. -/
theorem step_call [DecidableEq ι] {i : ι} (hpending : s.pending i = none) (call : SubscriptionCall)
    {received : HttpRequest} {uuid : CString} {now : ℤ} {dev : SubscriptionDevice}
    {subRes : HttpResponse}
    (hreceived : s.dev.requestReceived net.server ("uuid:".toList ++ uuid) now received =
      some (dev, some subRes)) :
    (subscriptions net).step s (.call i call received uuid now) = some { s with
      dev := dev
      pending := Function.update s.pending i (some (call, subRes))
      issued := uuid :: s.issued } := by
  show step net s (.call i call received uuid now) = _
  rw [step, hpending, Option.isSome_none, if_neg Bool.false_ne_true, hreceived]
  rfl

/-- The step of a control point that reads an answer. -/
theorem step_settle [DecidableEq ι] {i : ι} {call : SubscriptionCall} {subRes : HttpResponse}
    (hpending : s.pending i = some (call, subRes)) (read : HttpResponse) (time : ℤ) :
    (subscriptions net).step s (.settle i read time) = some { s with
      service := Function.update s.service i
        ((s.service i).settle (grantOfResponse read time) call)
      pending := Function.update s.pending i none } := by
  show step net s (.settle i read time) = _
  rw [step, hpending]
  rfl

/-- **Calls over connections are steps.** After any run, a call that a control point makes over a
connection to the device, which serves it alone and with a new identifier, is a step of the device
and a step of the control point: the system can take them from here, and they leave the service as
the call does. -/
theorem callOver_of_run [DecidableEq ι]
    (hpoints : ∀ i, IsEventPoint (net.point i) (net.host i) (net.uri i))
    (hserver : IsHeader "Server".toList net.server) {actions : List (SubscriptionAction ι)}
    (hinitial : s.IsInitial net)
    (hfaithful : (subscriptions net).AllSteps (Faithful net) s actions)
    (hrun : (subscriptions net).run s actions = some s') {i : ι} (hpending : s'.pending i = none)
    {call : SubscriptionCall} (hmade : call.IsMade (s'.service i)) {uuid : CString}
    (huuid : IsUuid uuid) (hfresh : uuid ∉ s'.issued) {now : ℤ} {peer : List Char → Socket}
    (hpeer : s'.dev.IsServed net.server ("uuid:".toList ++ uuid) now peer) (time : ℤ) :
    ∃ received read after,
      (subscriptions net).AllSteps (Faithful net) s'
        [.call i call received uuid now, .settle i read time] ∧
      (subscriptions net).run s' [.call i call received uuid now, .settle i read time] =
        some after ∧
      after.pending i = none ∧
      after.service i = (s'.service i).callOver (net.point i) call (some peer) time ∧
      ∀ j, j ≠ i → after.service j = s'.service j := by
  have h := inAgreement_of_run (fun i ↦ (hpoints i).callback_ne_nil) hinitial hfaithful hrun
  obtain ⟨received, dev, subRes, read, harrives, hreceived, hheard, -, hcall⟩ :=
    exists_callOver (h.located i) (h.registers (net.target i)).isIdentified (hpoints i)
      (h.storesUuid hpending) hmade hserver huuid hpeer time
  set answered : SubscriptionState ι := { s' with
    dev := dev
    pending := Function.update s'.pending i (some (call, subRes))
    issued := uuid :: s'.issued }
  have hanswered : answered.pending i = some (call, subRes) := Function.update_self i _ s'.pending
  have hfirst : (subscriptions net).step s' (.call i call received uuid now) = some answered :=
    step_call hpending call hreceived
  have hsecond := @step_settle ι net answered _ i call subRes hanswered read time
  refine ⟨received, read, _, ⟨⟨harrives, hmade, huuid, hfresh⟩, fun reached hreached ↦ ?_⟩,
    TransitionSystem.run_cons_eq_some_iff.mpr ⟨answered, hfirst,
      TransitionSystem.run_singleton_eq_some_iff.mpr hsecond⟩, Function.update_self i _ _, ?_, ?_⟩
  · obtain rfl : answered = reached := Option.some.inj (hfirst.symm.trans hreached)
    refine ⟨fun asked answer hsome ↦ ?_, fun _ _ ↦ trivial⟩
    obtain ⟨-, rfl⟩ := Prod.mk.inj (Option.some.inj (hanswered.symm.trans hsome))
    exact hheard
  · rw [hcall]
    exact Function.update_self i _ _
  · exact fun j hne ↦ Function.update_of_ne hne _ _

end SubscriptionState

/-! ### Two subscriptions -/

def clockService : ServedService := ⟨none, none, some "/event".toList, none⟩

/-- A device with a service that nobody has subscribed to. -/
def clockDevice : SubscriptionDevice where
  tree := .node { descriptionUri := none, rootNode := none, services := [clockService] } []
  httpPort := 4004
  location := some "http://10.0.0.1:4004/description.xml".toList
  presentationUrl := none
  hasPresentationListener := false
  subscribers _ := []

/-- Two control points with addresses of their own. -/
def clockNetwork : EventNetwork Bool where
  server := "test".toList
  point second :=
    { userAgent := "test".toList
      eventSubUrl := NetUri.setValue "http://10.0.0.1:4004/event".toList
      callback := getEventSubCallbackUrl
        (if second then "10.0.0.3".toList else "10.0.0.2".toList) 39500 "/evt".toList }
  host _ := "10.0.0.1".toList
  uri _ := "/event".toList
  target _ := clockService

def clockStart : SubscriptionState Bool where
  dev := clockDevice
  service _ := bareService
  pending _ := none
  issued := []
  dropped := []

/-- The identifier that is created at a time. -/
def clockUuid (time : ℤ) : CString := (createUuid time 7).drop "uuid:".toList.length

/-- The request of a control point that subscribes, as it was posted. -/
def clockRequest (second : Bool) (service : EventedService) (timeout : ℤ) : HttpRequest :=
  ((clockNetwork.point second).posting "10.0.0.1".toList "/event".toList service
    (.subscribe timeout)).sent

/-- What a control point reads of an answer. -/
def clockResponse (uuid : CString) (timeout : ℤ) : HttpResponse :=
  (grantResponse "test".toList (some ("uuid:".toList ++ uuid)) (granted timeout)).dated
    "now".toList

theorem isInitial_clockStart : clockStart.IsInitial clockNetwork where
  located _ := by
    show clockDevice.getServiceByEventSubUrl (receivedUri (some "/event".toList)) =
      some clockService
    decide +kernel
  subscribers _ := rfl
  service _ := rfl
  pending _ := rfl
  issued := rfl
  dropped := rfl

theorem isHeader_clockServer : IsHeader "Server".toList "test".toList :=
  ⟨⟨by decide, by decide⟩, by decide, ⟨by decide, by decide, by decide⟩, by decide⟩

theorem isEventPoint_clock (second : Bool) :
    IsEventPoint (clockNetwork.point second) "10.0.0.1".toList "/event".toList := by
  have hrelative : ¬ "://".toList <:+: "/event".toList :=
    mt strstr_nonneg_iff.mpr (by decide +kernel)
  have hport : (clockNetwork.point second).eventSubUrl.port = 4004 := by decide +kernel +revert
  have hcallback : (clockNetwork.point second).callback =
      if second then "<http://10.0.0.3:39500/evt>".toList
      else "<http://10.0.0.2:39500/evt>".toList := by
    decide +kernel +revert
  refine ⟨by decide +kernel +revert, by decide +kernel +revert, ⟨by decide, by decide⟩, hrelative,
    by decide, ?_, ?_, ?_, ?_⟩
  · rw [hport]
    exact ⟨⟨by decide, by decide⟩, by decide, ⟨by decide +kernel, by decide +kernel,
      by decide +kernel⟩, by decide +kernel⟩
  · show IsHeader "User-Agent".toList "test".toList
    exact ⟨⟨by decide, by decide⟩, by decide, ⟨by decide, by decide, by decide⟩, by decide⟩
  · rw [hcallback]
    exact ⟨⟨by decide, by decide⟩, by decide, ⟨by decide +revert, by decide +revert,
      by decide +revert⟩, by decide +revert⟩
  · rw [hcallback]
    decide +revert

namespace SubscriptionState

/-- Requests arrive as they were posted, answers arrive with the date `now`, and there are no
requests of others. -/
def IsDelivered {ι : Type} (net : EventNetwork ι) (s : SubscriptionState ι) :
    SubscriptionAction ι → Prop
  | .call i call received uuid _ =>
    ((net.point i).posting (net.host i) (net.uri i) (s.service i) call).Arrives received ∧
      call.IsMade (s.service i) ∧ IsUuid uuid ∧ uuid ∉ s.issued
  | .settle i read _ => ∀ entry ∈ s.pending i, entry.2.Arrives read "now".toList
  | .other _ _ _ => False
  | _ => True

instance {ι : Type} (net : EventNetwork ι) (s : SubscriptionState ι)
    (action : SubscriptionAction ι) : Decidable (s.IsDelivered net action) :=
  match action with
  | .call i call received uuid _ =>
    inferInstanceAs (Decidable (((net.point i).posting (net.host i) (net.uri i) (s.service i)
      call).Arrives received ∧ call.IsMade (s.service i) ∧ IsUuid uuid ∧ uuid ∉ s.issued))
  | .settle i read _ =>
    inferInstanceAs (Decidable (∀ entry ∈ s.pending i, entry.2.Arrives read "now".toList))
  | .fail _ _ => .isTrue trivial
  | .round _ _ _ => .isTrue trivial
  | .other _ _ _ => .isFalse id

theorem faithful_of_isDelivered {ι : Type} {net : EventNetwork ι} (s : SubscriptionState ι)
    (action : SubscriptionAction ι) (h : s.IsDelivered net action) : s.Faithful net action := by
  cases action with
  | call i call received uuid now => exact h
  | settle i read time => exact fun call subRes hsome ↦ Or.inl ⟨"now".toList, h _ hsome⟩
  | fail i call => trivial
  | round target now acknowledged => trivial
  | other received uuid now => exact h.elim

/-- Both control points subscribe before one of them reads its answer. The first one renews, and
before it reads the answer there is a round that the second one does not acknowledge. -/
def clockActions : List (SubscriptionAction Bool) :=
  [.call false (.subscribe 100) (clockRequest false bareService 100) (clockUuid 0) 0,
    .call true (.subscribe 100) (clockRequest true bareService 100) (clockUuid 1) 1,
    .settle true (clockResponse (clockUuid 1) 100) 4,
    .settle false (clockResponse (clockUuid 0) 100) 5,
    .call false (.subscribe 200) (clockRequest false
      (bareService.settle (some ⟨some (clockUuid 0), granted 100, 5⟩) (.subscribe 100)) 200)
      (clockUuid 50) 50,
    .round clockService 60 (carries (clockUuid 0)),
    .settle false (clockResponse (clockUuid 0) 200) 65]

/-- What they leave. -/
def clockAgreed : SubscriptionState Bool :=
  ((subscriptions clockNetwork).run clockStart clockActions).getD clockStart

theorem run_clockActions :
    (subscriptions clockNetwork).run clockStart clockActions = some clockAgreed := by
  have hsome : ((subscriptions clockNetwork).run clockStart clockActions).isSome = true := by
    decide +kernel
  obtain ⟨s, hrun⟩ := Option.isSome_iff_exists.mp hsome
  rw [clockAgreed, hrun, Option.getD_some]

theorem faithful_clockActions :
    (subscriptions clockNetwork).AllSteps (Faithful clockNetwork) clockStart clockActions := by
  have hdelivered : (subscriptions clockNetwork).AllSteps (IsDelivered clockNetwork) clockStart
      clockActions := by
    decide +kernel
  exact hdelivered.imp faithful_of_isDelivered

/-- Both control points are subscribed, the first one for the time that it has asked for last, and
the round has removed the subscriber of the second one. -/
theorem agreement_of_run_clock :
    ((clockAgreed.service false).subscriptionSid = some (clockUuid 0) ∧
      (clockAgreed.service false).subscriptionTimeout = 200 ∧
      (clockAgreed.service true).subscriptionSid = some (clockUuid 1) ∧
      clockAgreed.dropped = [clockUuid 1]) ∧
    (∀ i, clockAgreed.pending i = none → (clockAgreed.service i).isSubscribed = true →
      ∃ uuid, (clockAgreed.service i).subscriptionSid = some uuid ∧
        (uuid ∈ clockAgreed.dropped ∨
          ∃ sub, (clockAgreed.dev.subscribers (clockNetwork.target i)).filter (carries uuid) =
              [sub] ∧
            sub.timeout = (clockAgreed.service i).subscriptionTimeout ∧
            sub.deliveryUrl = deliveryUrlOf clockNetwork i)) ∧
    ∀ i j, clockAgreed.pending i = none → clockAgreed.pending j = none →
      (clockAgreed.service i).isSubscribed = true →
        (clockAgreed.service j).subscriptionSid = (clockAgreed.service i).subscriptionSid →
          i = j := by
  refine ⟨by decide +kernel, ?_⟩
  exact agreement_of_run (fun i ↦ (isEventPoint_clock i).callback_ne_nil) isInitial_clockStart
    faithful_clockActions run_clockActions

/-- What the device answers afterwards. -/
def clockAnswer (_ : ℕ) (httpReq : HttpRequest) : HttpResponse :=
  ((clockAgreed.dev.requestReceived "test".toList ("uuid:".toList ++ clockUuid 80) 80
    httpReq).bind Prod.snd).getD HttpResponse.new

/-- The connection to the device, in one segment each way. -/
def clockPeer (message : List Char) : Socket :=
  ⟨[((ClientThread.answering clockAnswer fun _ ↦ "now".toList).run [] ⟨[message]⟩).flatMap
    Turn.written]⟩

theorem isServed_clockPeer :
    clockAgreed.dev.IsServed "test".toList ("uuid:".toList ++ clockUuid 80) 80 clockPeer := by
  have hdate : IsHeader "Date".toList "now".toList :=
    ⟨⟨by decide, by decide⟩, by decide, ⟨by decide, by decide, by decide⟩, by decide⟩
  exact ⟨clockAnswer, fun _ ↦ "now".toList, [], hdate,
    fun _ _ hsome ↦ congrArg (Option.getD · HttpResponse.new) hsome,
    fun message ↦ ⟨⟨[message]⟩, by simp [SegmentedStream.content],
      by simp [clockPeer, SegmentedStream.content]⟩⟩

/-- The second control point renews over a connection. -/
theorem callOver_of_run_clock : ∃ received read after,
    (subscriptions clockNetwork).AllSteps (Faithful clockNetwork) clockAgreed
      [.call true (.subscribe 100) received (clockUuid 80) 80, .settle true read 85] ∧
    (subscriptions clockNetwork).run clockAgreed
      [.call true (.subscribe 100) received (clockUuid 80) 80, .settle true read 85] =
        some after ∧
    after.pending true = none ∧
    after.service true = (clockAgreed.service true).callOver (clockNetwork.point true)
      (.subscribe 100) (some clockPeer) 85 ∧
    ∀ j, j ≠ true → after.service j = clockAgreed.service j :=
  @callOver_of_run Bool clockNetwork clockStart clockAgreed _ isEventPoint_clock
    isHeader_clockServer clockActions isInitial_clockStart faithful_clockActions run_clockActions
    true (by decide +kernel) (.subscribe 100) ⟨by decide, by decide⟩ (clockUuid 80)
    (by decide +kernel) (by decide +kernel) 80 clockPeer isServed_clockPeer 85

end SubscriptionState

end Mupnp.Event
