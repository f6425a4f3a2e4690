import Mupnp.DeviceServer.RequestDispatch
import Mupnp.Event.NotifyDelivery
import Mupnp.Event.SidLookup
import Mupnp.Event.SubscriptionTimeout
import Mupnp.Http.ChunkedRoundTrip
import Mupnp.Http.ClientThread

/-!
# Subscriptions at a device

`mupnp_device_subscriptionrecieved` of `device_http_server.c`, with the responses of
`event/subscription_response.c` and the identifiers of `upnp_function.c`: what a device does with a
request that subscribes to a service, renews a subscription or cancels it, and what it answers. A
request that makes the device read a string behind its terminator has no result here.

`subscriberPosition_eq` says which subscriber a request is about when all identifiers were created
by the device.
-/

set_option autoImplicit false
set_option relaxedAutoImplicit false

namespace Mupnp.Event

open DeviceServer Http Net Util

/-! ### Identifiers -/

/-- A number as `%04x` writes it. -/
def hexWord (value : ℕ) : CString :=
  let digits := Nat.toDigits 16 value
  List.replicate (4 - digits.length) '0' ++ digits

/-- The words of an identifier, with hyphens in between. -/
def uuidText (first second third fourth : CString) : CString :=
  first ++ '-' :: (second ++ '-' :: (third ++ '-' :: fourth))

/-- `mupnp_createuuid` without a library for it, where `time` is the time and `random` what is made
of it and of a random number. -/
def createUuid (time random : ℤ) : CString :=
  let low := fun value : ℤ ↦ hexWord (value % 0x10000).toNat
  let high := fun (value : ℤ) (mask : ℕ) ↦
    hexWord (((value / 2 ^ 31) % 0x10000).toNat ||| mask)
  "uuid:".toList ++
    uuidText (low time) (high time 0xA000) (low random) (high random 0xE000)

/-- What every variant of `mupnp_createuuid` writes behind the prefix: digits of base sixteen and
hyphens. -/
structure IsUuid (uuid : CString) : Prop where
  ne_nil : uuid ≠ []
  chars : ∀ c ∈ uuid, (HttpPacket.hexDigit c).isSome = true ∨ c = '-'
  size : uuid.length ≤ 64

instance (uuid : CString) : Decidable (IsUuid uuid) :=
  decidable_of_iff (uuid ≠ [] ∧
      (∀ c ∈ uuid, (HttpPacket.hexDigit c).isSome = true ∨ c = '-') ∧ uuid.length ≤ 64)
    ⟨fun ⟨ne_nil, chars, size⟩ ↦ ⟨ne_nil, chars, size⟩, fun h ↦ ⟨h.ne_nil, h.chars, h.size⟩⟩

/-! ### The lookup -/

/-- The loop of `mupnp_service_getsubscriberbysid`, with the position of the subscriber that is
found. -/
def findPosition (sid : Option CString) : List DeliverySubscriber → Option (Option ℕ)
  | [] => some none
  | sub :: rest =>
    match sub.sid with
    | none => (findPosition sid rest).map (Option.map (· + 1))
    | some subSid =>
      sid.bind fun read ↦ (skipUuid subSid).bind fun subRead ↦
        if streq (some read) (some subRead) then some (some 0)
        else (findPosition sid rest).map (Option.map (· + 1))

/-- `mupnp_service_getsubscriberbysid`. -/
def subscriberPosition (subscribers : List DeliverySubscriber) (sid : Option CString) :
    Option (Option ℕ) :=
  if strlen sid ≤ 0 then some none else findPosition (sid.bind skipUuid) subscribers

/-! ### Identifiers that were created -/

theorem chars_hexWord (value : ℕ) (h : value < 0x10000) :
    (∀ c ∈ hexWord value, (HttpPacket.hexDigit c).isSome = true) ∧ (hexWord value).length = 4 := by
  have hsize := isSize_toDigits value (by unfold longMax; omega)
  have hlength : (Nat.toDigits 16 value).length ≤ 4 :=
    (Nat.length_toDigits_le_iff (by decide) (by decide)).mpr h
  constructor
  · intro c hc
    rcases List.mem_append.mp hc with hzero | hdigit
    · rw [List.eq_of_mem_replicate hzero]
      decide
    · exact hsize.digit c hdigit
  · rw [hexWord, List.length_append, List.length_replicate]
    omega

theorem isUuid_uuidText {first second third fourth : ℕ} (hfirst : first < 0x10000)
    (hsecond : second < 0x10000) (hthird : third < 0x10000) (hfourth : fourth < 0x10000) :
    IsUuid (uuidText (hexWord first) (hexWord second) (hexWord third) (hexWord fourth)) := by
  refine ⟨List.append_ne_nil_of_right_ne_nil _ (List.cons_ne_nil _ _), fun c hc ↦ ?_, ?_⟩
  · simp only [uuidText, List.mem_append, List.mem_cons] at hc
    rcases hc with hc | rfl | hc | rfl | hc | rfl | hc
    · exact Or.inl ((chars_hexWord first hfirst).1 c hc)
    · exact Or.inr rfl
    · exact Or.inl ((chars_hexWord second hsecond).1 c hc)
    · exact Or.inr rfl
    · exact Or.inl ((chars_hexWord third hthird).1 c hc)
    · exact Or.inr rfl
    · exact Or.inl ((chars_hexWord fourth hfourth).1 c hc)
  · simp only [uuidText, List.length_append, List.length_cons, (chars_hexWord first hfirst).2,
      (chars_hexWord second hsecond).2, (chars_hexWord third hthird).2,
      (chars_hexWord fourth hfourth).2]
    decide

/-- An identifier is created with the prefix. -/
theorem exists_createUuid (time random : ℤ) :
    ∃ uuid, createUuid time random = "uuid:".toList ++ uuid ∧ IsUuid uuid := by
  have hlow : ∀ value : ℤ, (value % 0x10000).toNat < 0x10000 := by
    intro value
    omega
  have hhigh : ∀ (value : ℤ) (mask : ℕ), mask < 2 ^ 16 →
      ((value / 2 ^ 31) % 0x10000).toNat ||| mask < 0x10000 := by
    intro value mask hmask
    have hvalue : ((value / 2 ^ 31) % 0x10000).toNat < 2 ^ 16 := by omega
    exact Nat.or_lt_two_pow hvalue hmask
  exact ⟨_, rfl, isUuid_uuidText (hlow time) (hhigh time _ (by decide)) (hlow random)
    (hhigh random _ (by decide))⟩

section Lookup

variable {uuid : CString}

theorem IsUuid.ne_of_mem (h : IsUuid uuid) {c : Char} (hc : c ∈ uuid) : c ≠ 'u' ∧ c ≠ ':' := by
  rcases h.chars c hc with hdigit | rfl
  · constructor
    · rintro rfl
      exact absurd hdigit (by decide)
    · rintro rfl
      exact absurd hdigit (by decide)
  · decide

theorem IsUuid.not_infix (h : IsUuid uuid) : ¬ "uuid".toList <:+: uuid := by
  intro hwithin
  exact (h.ne_of_mem (hwithin.subset List.mem_cons_self)).1 rfl

theorem IsUuid.skipUuid (h : IsUuid uuid) : skipUuid uuid = some uuid := by
  rw [Event.skipUuid, if_neg (mt strstr_nonneg_iff.mp h.not_infix)]

theorem skipUuid_prefixed (uuid : CString) : skipUuid ("uuid:".toList ++ uuid) = some uuid := by
  have hwithin : "uuid".toList <:+: "uuid:".toList ++ uuid := ⟨[], ':' :: uuid, rfl⟩
  rw [skipUuid, if_pos (strstr_nonneg_iff.mpr hwithin), if_pos]
  · rfl
  · rw [List.length_append]
    exact Nat.le_add_right _ _

/-- The subscriber was made with an identifier that the device created. -/
def IsIdentified (sub : DeliverySubscriber) : Prop :=
  ∃ uuid, sub.sid = some ("uuid:".toList ++ uuid) ∧ IsUuid uuid

/-- The subscriber was made with the identifier. -/
def carries (uuid : CString) (sub : DeliverySubscriber) : Bool :=
  decide (sub.sid = some ("uuid:".toList ++ uuid))

/-- The loop finds the first subscriber that was made with an identifier. -/
theorem findPosition_eq {subscribers : List DeliverySubscriber}
    (hsubscribers : ∀ sub ∈ subscribers, IsIdentified sub) (read : CString) :
    findPosition (some read) subscribers = some (subscribers.findIdx? (carries read)) := by
  induction subscribers with
  | nil => rfl
  | cons sub rest ih =>
    obtain ⟨uuid, hsid, -⟩ := hsubscribers sub List.mem_cons_self
    have hrest := ih fun later hlater ↦ hsubscribers later (List.mem_cons_of_mem _ hlater)
    have hfind : findPosition (some read) (sub :: rest) = if read = uuid then some (some 0)
        else (findPosition (some read) rest).map (Option.map (· + 1)) := by
      rw [findPosition, hsid]
      simp only [Option.bind_some, skipUuid_prefixed, streq_some_some]
    rw [hfind, List.findIdx?_cons]
    by_cases heq : read = uuid
    · have hsame : sub.sid = some ("uuid:".toList ++ read) := by rw [hsid, heq]
      rw [if_pos heq, carries, decide_eq_true hsame, if_pos rfl]
    · have hother : ¬ sub.sid = some ("uuid:".toList ++ read) := by
        rw [hsid, Option.some.injEq, List.append_cancel_left_eq]
        exact Ne.symm heq
      rw [if_neg heq, carries, decide_eq_false hother, if_neg Bool.false_ne_true, hrest,
        Option.map_some]

/-- A request with an identifier is about the first subscriber that was made with it. -/
theorem subscriberPosition_eq {subscribers : List DeliverySubscriber}
    (hsubscribers : ∀ sub ∈ subscribers, IsIdentified sub) (h : IsUuid uuid) :
    subscriberPosition subscribers (some uuid) =
      some (subscribers.findIdx? (carries uuid)) := by
  rw [subscriberPosition, if_neg (not_strlen_some_le_zero h.ne_nil), Option.bind_some, h.skipUuid,
    findPosition_eq hsubscribers]

end Lookup

/-! ### Responses -/

/-- `mupnp_device_badsubscriptionrecieved`. -/
def badSubscription (code : ℤ) : HttpResponse := HttpResponse.new.setStatusCode code

/-- `mupnp_event_subscription_subscriberesponse_setresponse` on a new response. -/
def subscribeResponse (server : CString) (code : ℤ) : HttpResponse :=
  let coded := HttpResponse.new.setStatusCode code
  { coded with
    toHttpPacket :=
      (coded.toHttpPacket.setHeaderValue "Server".toList (some server)).setContentLength 0 }

/-- `mupnp_event_subscription_response_setsid`. -/
def subscriptionResponseSetSid (subRes : HttpResponse) (sid : Option CString) : HttpResponse :=
  let headerSid :=
    if strstr sid (some "uuid".toList) < 0 then stringAddValue none (some "uuid:".toList) else none
  { subRes with
    toHttpPacket := subRes.toHttpPacket.setHeaderValue "SID".toList (stringAddValue headerSid sid) }

/-- `mupnp_event_subscription_response_settimeout`. -/
def subscriptionResponseSetTimeout (subRes : HttpResponse) (value : ℤ) : HttpResponse :=
  { subRes with
    toHttpPacket := subRes.toHttpPacket.setHeaderValue "TIMEOUT".toList
      (some (toTimeoutHeaderString value)) }

/-- The response to a request that is granted. -/
def grantResponse (server : CString) (sid : Option CString) (timeout : ℤ) : HttpResponse :=
  subscriptionResponseSetTimeout
    (subscriptionResponseSetSid (subscribeResponse server 200) sid) timeout

/-! ### Requests -/

/-- A root device with its HTTP server and the subscribers of its services. -/
structure SubscriptionDevice extends HttpDevice where
  subscribers : ServedService → List DeliverySubscriber

namespace SubscriptionDevice

/-- Changes the subscribers of a service. -/
def setSubscribers (dev : SubscriptionDevice) (service : ServedService)
    (subscribers : List DeliverySubscriber) : SubscriptionDevice :=
  { dev with subscribers := Function.update dev.subscribers service subscribers }

/-- The timeout that is granted for the header of a request. -/
def grantedTimeout (subReq : HttpRequest) : ℤ :=
  limitTimeout (subscriptionGetTimeout (subReq.getHeaderValue "TIMEOUT".toList))

/-- `mupnp_device_newsubscriptionrecieved`, with the identifier that it creates. -/
def newSubscriptionReceived (server sid : CString) (now : ℤ) (dev : SubscriptionDevice)
    (service : ServedService) (subReq : HttpRequest) : SubscriptionDevice × HttpResponse :=
  let sub := DeliverySubscriber.newSubscription
    ((subReq.getHeaderValue "CALLBACK".toList).getD []) sid
    (subscriptionGetTimeout (subReq.getHeaderValue "TIMEOUT".toList)) now
  (dev.setSubscribers service (dev.subscribers service ++ [sub]),
    grantResponse server (some sid) (grantedTimeout subReq))

/-- What a renewal makes of a subscriber. -/
def renewed (sub : DeliverySubscriber) (timeout now : ℤ) : DeliverySubscriber :=
  { sub with toSubscriber := { sub.toSubscriber with timeout := timeout }.renew now }

/-- `mupnp_device_renewsubscriptionrecieved`. -/
def renewSubscriptionReceived (server : CString) (now : ℤ) (dev : SubscriptionDevice)
    (service : ServedService) (subReq : HttpRequest) :
    Option (SubscriptionDevice × HttpResponse) :=
  let sid := subscriptionGetSid (subReq.getHeaderValue "SID".toList)
  (subscriberPosition (dev.subscribers service) sid).map fun found ↦
    found.elim (dev, badSubscription 412) fun position ↦
      (dev.setSubscribers service ((dev.subscribers service).modify position
          (renewed · (grantedTimeout subReq) now)),
        grantResponse server sid (grantedTimeout subReq))

/-- `mupnp_device_unsubscriptionrecieved`. -/
def unsubscriptionReceived (server : CString) (dev : SubscriptionDevice) (service : ServedService)
    (subReq : HttpRequest) : Option (SubscriptionDevice × HttpResponse) :=
  let sid := subscriptionGetSid (subReq.getHeaderValue "SID".toList)
  (subscriberPosition (dev.subscribers service) sid).map fun found ↦
    found.elim (dev, badSubscription 412) fun position ↦
      (dev.setSubscribers service ((dev.subscribers service).eraseIdx position),
        subscribeResponse server 200)

/-- `mupnp_device_subscriptionrecieved` behind the lookup of the service. -/
def subscriptionReceived (server sid : CString) (now : ℤ) (dev : SubscriptionDevice)
    (service : ServedService) (subReq : HttpRequest) : Option (SubscriptionDevice × HttpResponse) :=
  let hasCallback := subReq.toHttpPacket.hasHeader "CALLBACK".toList
  let hasSid := subReq.toHttpPacket.hasHeader "SID".toList
  let hasNt := subReq.toHttpPacket.hasHeader "NT".toList
  if hasCallback = false ∧ hasSid = false then some (dev, badSubscription 412)
  else if hasCallback = true ∧ strlen (subReq.getHeaderValue "CALLBACK".toList) ≤ 0 then
    some (dev, badSubscription 412)
  else if hasSid = true ∧ (hasCallback = true ∨ hasNt = true) then some (dev, badSubscription 400)
  else if hasNt = true ∧
      strcmp (subReq.getHeaderValue "NT".toList) (some "upnp:event".toList) ≠ 0 then
    some (dev, badSubscription 412)
  else if isMethod subReq "UNSUBSCRIBE" then dev.unsubscriptionReceived server service subReq
  else if hasCallback then some (dev.newSubscriptionReceived server sid now service subReq)
  else if hasSid then dev.renewSubscriptionReceived server now service subReq
  else some (dev, badSubscription 412)

/-- What `mupnp_device_httprequestrecieved` does with a request as far as subscriptions are
concerned. The responses to requests that reach something else are left out. -/
def requestReceived (server sid : CString) (now : ℤ) (dev : SubscriptionDevice)
    (httpReq : HttpRequest) : Option (SubscriptionDevice × Option HttpResponse) :=
  match dev.dispatch httpReq with
  | .subscription service =>
    (dev.subscriptionReceived server sid now service httpReq).map fun (dev, subRes) ↦
      (dev, some subRes)
  -- Only a request for a subscription is answered with this code here.
  | .status 412 => some (dev, some (badSubscription 412))
  | .status code => some (dev, some (HttpResponse.ofStatusCode code))
  | _ => some (dev, none)

end SubscriptionDevice

end Mupnp.Event
