import Mupnp.Event.EventedService

/-!
# Sequence numbers from the device to the control point

A subscriber of a device and the service of the control point that it feeds (`EventChannel`). The
device numbers its notifications 0, 1, 2, ... up to `notifyCountMax` and then from 1 again
(`seq_incrementNotifyCount`). The control point takes a number that starts the subscription or
follows its event key, and stores zero as the event key for `eventMaxSeq`, which is half of the
range.

So a run in which every notification arrives in order is accepted up to that number and not further
(`all_applied_iff`), and after it the number one is taken for its successor. A gap is recognised in
every other case, except for the loss of the very first notification (`recognisesGap_iff`).
-/

set_option autoImplicit false
set_option relaxedAutoImplicit false

namespace Mupnp.Event

open Util Discovery

/-- The sequence number that comes after another one: the numbers wrap from the largest 32-bit
number to one. -/
def successorSeq (seq : BitVec 64) : BitVec 64 := if seq = 4294967295 then 1 else seq + 1

/-- Numbers that fit into 64 bits are told apart. -/
theorem ofNat_ne_ofNat {a b : ℕ} (ha : a < 2 ^ 64) (hb : b < 2 ^ 64) (hne : a ≠ b) :
    BitVec.ofNat 64 a ≠ BitVec.ofNat 64 b := by
  intro heq
  have htoNat := congrArg BitVec.toNat heq
  rw [BitVec.toNat_ofNat, BitVec.toNat_ofNat, Nat.mod_eq_of_lt ha, Nat.mod_eq_of_lt hb] at htoNat
  exact hne htoNat

/-- Consecutive notifications of a subscriber carry consecutive sequence numbers. -/
theorem seq_incrementNotifyCount {sub : Subscriber} (hpos : 0 ≤ sub.notifyCount)
    (hmax : sub.notifyCount ≤ notifyCountMax) :
    BitVec.ofInt 64 sub.incrementNotifyCount.notifyCount =
      successorSeq (BitVec.ofInt 64 sub.notifyCount) := by
  obtain ⟨count, hcount⟩ := Int.eq_ofNat_of_zero_le hpos
  have hlarge : count ≤ 4294967295 := by
    unfold notifyCountMax at hmax
    omega
  simp only [Subscriber.incrementNotifyCount, notifyCountMax, hcount, successorSeq]
  by_cases hlast : count = 4294967295
  · subst hlast
    rfl
  · have hne : BitVec.ofNat 64 count ≠ 4294967295 :=
      ofNat_ne_ofNat (by omega) (by decide) hlast
    have hsucc : (count : ℤ) + 1 = ((count + 1 : ℕ) : ℤ) := by push_cast; rfl
    rw [if_neg (by omega), BitVec.ofInt_natCast, if_neg hne, hsucc, BitVec.ofInt_natCast]
    exact BitVec.ofNat_add count 1

/-! ### Delivery in order -/

/-- A subscriber of a device and the service of a control point that its notifications are for. -/
structure EventChannel where
  subscriber : Subscriber
  service : EventedService

/-- What a notification carries, and the answer to a subscription request of the control point,
should it post one. -/
structure Delivery where
  service : Option (List StateVariable)
  statVar : Option StateVariable
  answer : Option SubscriptionGrant

namespace EventChannel

/-- The service takes the SID of the subscriber for its own. -/
def Connected (channel : EventChannel) : Prop :=
  channel.service.hasSid
    (subscriptionGetSid (some (toSidHeaderString (channel.subscriber.sid.getD [])))) = true

/-- The subscription was just made. -/
structure Fresh (channel : EventChannel) : Prop where
  connected : channel.Connected
  notifyCount : channel.subscriber.notifyCount = 0
  eventKey : channel.service.eventKey = 0

/-- `mupnp_subscriber_notifymain` with a control point that receives the message: it acknowledges
every message, so the notify count goes up. -/
def deliver (channel : EventChannel) (delivery : Delivery) : EventChannel × NotifyOutcome :=
  let received := channel.service.notifyReceived
    (setPropertySetNode channel.subscriber delivery.service delivery.statVar) delivery.answer
  (⟨channel.subscriber.incrementNotifyCount, received.1⟩, received.2)

/-- What becomes of notifications that are delivered once and in order. -/
def outcomes (channel : EventChannel) : List Delivery → List NotifyOutcome
  | [] => []
  | delivery :: rest =>
    (channel.deliver delivery).2 :: outcomes (channel.deliver delivery).1 rest

/-- The event key of a service that has accepted the first notifications of a subscription. -/
def keyAfter (count : ℕ) : BitVec 64 :=
  if count = 0 then 0 else EventedService.nextEventKey (BitVec.ofNat 64 (count - 1))

/-- The device has sent a number of notifications, and the control point has accepted all of them.
-/
structure InStep (channel : EventChannel) (count : ℕ) : Prop where
  connected : channel.Connected
  notifyCount : channel.subscriber.notifyCount = count
  eventKey : channel.service.eventKey = keyAfter count

theorem Fresh.inStep {channel : EventChannel} (h : channel.Fresh) : channel.InStep 0 where
  connected := h.connected
  notifyCount := h.notifyCount
  eventKey := h.eventKey

/-- The message that is sent next carries the count. -/
theorem InStep.getSeq {channel : EventChannel} {count : ℕ} (h : channel.InStep count)
    (hcount : count ≤ 2147483648) (delivery : Delivery) :
    (setPropertySetNode channel.subscriber delivery.service delivery.statVar).getSeq =
      BitVec.ofNat 64 count := by
  have hpos : 0 ≤ channel.subscriber.notifyCount := by rw [h.notifyCount]; omega
  have hmax : channel.subscriber.notifyCount ≤ longMax := by
    rw [h.notifyCount]
    unfold longMax
    omega
  rw [setPropertySetNode_getSeq hpos hmax, h.notifyCount, BitVec.ofInt_natCast]

/-- The first `eventMaxSeq` messages and one more are accepted. -/
theorem keyAfter_accepts {count : ℕ} (hcount : count < 2147483648) :
    BitVec.ofNat 64 count = 0 ∨ BitVec.ofNat 64 count = keyAfter count + 1 := by
  by_cases hzero : count = 0
  · left
    rw [hzero]
    rfl
  · obtain ⟨previous, rfl⟩ := Nat.exists_eq_succ_of_ne_zero hzero
    right
    have hlimit : BitVec.ofNat 64 previous ≠ BitVec.ofNat 64 2147483647 :=
      ofNat_ne_ofNat (by omega) (by decide) (by omega)
    have hne : BitVec.ofNat 64 previous ≠ eventMaxSeq := hlimit
    rw [keyAfter, if_neg hzero, EventedService.nextEventKey, Nat.succ_sub_one, if_neg hne]
    exact BitVec.ofNat_add previous 1

theorem InStep.deliver {channel : EventChannel} {count : ℕ} (h : channel.InStep count)
    (hcount : count < 2147483648) (delivery : Delivery) :
    (channel.deliver delivery).2 = .applied ∧ (channel.deliver delivery).1.InStep (count + 1) := by
  have hseq := h.getSeq hcount.le delivery
  have hsid : channel.service.hasSid
      (setPropertySetNode channel.subscriber delivery.service delivery.statVar).getSid = true := by
    rw [setPropertySetNode_getSid]
    exact h.connected
  have haccepts : channel.service.acceptsSeq
      (setPropertySetNode channel.subscriber delivery.service delivery.statVar).getSeq = true := by
    rw [EventedService.acceptsSeq_iff, hseq, h.eventKey]
    exact keyAfter_accepts hcount
  obtain ⟨houtcome, hservice⟩ :=
    EventedService.notifyReceived_of_accepts hsid haccepts delivery.answer
  refine ⟨houtcome, ?_, ?_, ?_⟩
  · have hkept := congrArg Service.subscriptionSid hservice
    exact (EventedService.hasSid_congr hkept _).trans h.connected
  · simp only [EventChannel.deliver, Subscriber.incrementNotifyCount, h.notifyCount, notifyCountMax]
    rw [if_neg (by omega)]
    push_cast
    rfl
  · simp only [EventChannel.deliver, hservice, hseq]
    rw [keyAfter, if_neg (Nat.succ_ne_zero count), Nat.add_sub_cancel]

/-- After `eventMaxSeq` the control point has forgotten how far the device has counted. -/
theorem InStep.deliver_limit {channel : EventChannel} (h : channel.InStep 2147483648)
    (delivery : Delivery) : (channel.deliver delivery).2 = .resubscribed := by
  have hseq := h.getSeq le_rfl delivery
  have hsid : channel.service.hasSid
      (setPropertySetNode channel.subscriber delivery.service delivery.statVar).getSid = true := by
    rw [setPropertySetNode_getSid]
    exact h.connected
  have hrefuses : channel.service.acceptsSeq
      (setPropertySetNode channel.subscriber delivery.service delivery.statVar).getSeq = false := by
    rw [Bool.eq_false_iff, Ne, EventedService.acceptsSeq_iff, hseq, h.eventKey]
    decide
  rw [EventChannel.deliver, EventedService.notifyReceived_of_not_accepts hsid hrefuses]

/-- Notifications that are delivered in order are all accepted up to `eventMaxSeq` and not further.
-/
theorem InStep.all_applied_iff {channel : EventChannel} {count : ℕ} (h : channel.InStep count)
    (hcount : count ≤ 2147483648) (deliveries : List Delivery) :
    (∀ outcome ∈ channel.outcomes deliveries, outcome = .applied) ↔
      count + deliveries.length ≤ 2147483648 := by
  induction deliveries generalizing channel count with
  | nil => simpa [outcomes] using hcount
  | cons delivery rest ih =>
    rw [outcomes, List.forall_mem_cons, List.length_cons]
    rcases Nat.lt_or_eq_of_le hcount with hlt | rfl
    · obtain ⟨happlied, hnext⟩ := h.deliver hlt delivery
      rw [ih hnext hlt]
      simp only [happlied, true_and]
      omega
    · rw [h.deliver_limit delivery]
      refine iff_of_false (fun hall ↦ ?_) (by omega)
      cases hall.1

end EventChannel

/-! ### Gaps -/

/-- A message that arrives, whoever sent it and in whatever order, and the answer to a subscription
request of the control point, should it post one. -/
structure Reception where
  notifyReq : NotifyRequest
  answer : Option SubscriptionGrant

/-- A service with the last sequence number that was accepted in its current subscription. -/
structure SubscribedService where
  service : EventedService
  lastAccepted : Option (BitVec 64)

namespace SubscribedService

/-- A message arrives. -/
def receive (subscribed : SubscribedService) (reception : Reception) : SubscribedService :=
  let received := subscribed.service.notifyReceived reception.notifyReq reception.answer
  ⟨received.1,
    match received.2 with
    | .ignored => subscribed.lastAccepted
    | .applied => some reception.notifyReq.getSeq
    | .resubscribed => none⟩

/-- The event key is determined by the last number that was accepted, which is at most
`eventMaxSeq`. -/
structure Keyed (subscribed : SubscribedService) : Prop where
  eventKey : subscribed.service.eventKey =
    match subscribed.lastAccepted with
    | none => 0
    | some seq => EventedService.nextEventKey seq
  le_max : ∀ seq, subscribed.lastAccepted = some seq → seq.toNat ≤ 2147483647

/-- The event key is smaller than `eventMaxSeq`. -/
theorem Keyed.eventKey_lt {subscribed : SubscribedService} (h : subscribed.Keyed) :
    subscribed.service.eventKey.toNat < 2147483647 := by
  rw [h.eventKey]
  cases hlast : subscribed.lastAccepted with
  | none => decide
  | some seq =>
    have hle := h.le_max seq hlast
    simp only [EventedService.nextEventKey]
    split_ifs with hmax
    · decide
    · have hne : seq.toNat ≠ 2147483647 := fun heq ↦ hmax (BitVec.eq_of_toNat_eq heq)
      omega

theorem Keyed.receive {subscribed : SubscribedService} (h : subscribed.Keyed)
    (reception : Reception) : (subscribed.receive reception).Keyed := by
  cases hsid : subscribed.service.hasSid reception.notifyReq.getSid with
  | false =>
    rw [SubscribedService.receive, EventedService.notifyReceived_of_not_hasSid hsid]
    exact h
  | true =>
    cases haccepts : subscribed.service.acceptsSeq reception.notifyReq.getSeq with
    | false =>
      rw [SubscribedService.receive, EventedService.notifyReceived_of_not_accepts hsid haccepts]
      refine ⟨EventedService.subscribe_eventKey _ _, fun seq hseq ↦ by cases hseq⟩
    | true =>
      obtain ⟨houtcome, hservice⟩ :=
        EventedService.notifyReceived_of_accepts hsid haccepts reception.answer
      have hlast : (subscribed.receive reception).lastAccepted =
          some reception.notifyReq.getSeq := by
        simp only [SubscribedService.receive, houtcome]
      refine ⟨?_, fun seq hseq ↦ ?_⟩
      · rw [hlast]
        simp only [SubscribedService.receive, hservice]
      · rw [hlast] at hseq
        obtain rfl := Option.some.inj hseq
        have hkey := h.eventKey_lt
        rcases EventedService.acceptsSeq_iff.mp haccepts with hzero | hnext
        · rw [hzero]
          decide
        · rw [hnext, BitVec.toNat_add]
          have hone : (1 : BitVec 64).toNat = 1 := rfl
          omega

theorem Keyed.foldl_receive {subscribed : SubscribedService} (h : subscribed.Keyed)
    (receptions : List Reception) : (receptions.foldl SubscribedService.receive
      subscribed).Keyed := by
  induction receptions generalizing subscribed with
  | nil => exact h
  | cons reception rest ih => exact ih (h.receive reception)

/-- A sequence number follows the last one that was accepted. -/
def Follows (subscribed : SubscribedService) (seq : BitVec 64) : Prop :=
  ∃ last, subscribed.lastAccepted = some last ∧ seq = successorSeq last

/-- A message for the service whose number is not zero and does not follow the last one makes the
control point subscribe again, and it is not applied. -/
def RecognisesGap (subscribed : SubscribedService) (reception : Reception) : Prop :=
  subscribed.service.hasSid reception.notifyReq.getSid = true → reception.notifyReq.getSeq ≠ 0 →
    ¬ subscribed.Follows reception.notifyReq.getSeq →
    (subscribed.service.notifyReceived reception.notifyReq reception.answer).2 = .resubscribed ∧
      (subscribed.service.notifyReceived reception.notifyReq reception.answer).1.stateTable =
        subscribed.service.stateTable

/-- The number one, with nothing accepted before it or right after `eventMaxSeq`. -/
def MistakesOne (subscribed : SubscribedService) (reception : Reception) : Prop :=
  subscribed.service.hasSid reception.notifyReq.getSid = true ∧ reception.notifyReq.getSeq = 1 ∧
    (subscribed.lastAccepted = none ∨ subscribed.lastAccepted = some eventMaxSeq)

theorem Keyed.recognisesGap_iff {subscribed : SubscribedService} (h : subscribed.Keyed)
    (reception : Reception) :
    subscribed.RecognisesGap reception ↔ ¬ subscribed.MistakesOne reception := by
  constructor
  · rintro hgap ⟨hsid, hone, hlast⟩
    have hkey : subscribed.service.eventKey = 0 := by
      rw [h.eventKey]
      rcases hlast with hlast | hlast <;> rw [hlast]
      rfl
    have haccepts : subscribed.service.acceptsSeq reception.notifyReq.getSeq = true := by
      rw [EventedService.acceptsSeq_iff, hone, hkey]
      decide
    have hfollows : ¬ subscribed.Follows reception.notifyReq.getSeq := by
      rintro ⟨last, hsome, hnext⟩
      rcases hlast with hlast | hlast
      · rw [hlast] at hsome
        cases hsome
      · obtain rfl := Option.some.inj (hlast.symm.trans hsome)
        rw [hone] at hnext
        exact absurd hnext (by decide)
    have houtcome := (hgap hsid (by rw [hone]; decide) hfollows).1
    rw [(EventedService.notifyReceived_of_accepts hsid haccepts reception.answer).1] at houtcome
    cases houtcome
  · intro hmistake hsid hzero hfollows
    cases haccepts : subscribed.service.acceptsSeq reception.notifyReq.getSeq with
    | false =>
      rw [EventedService.notifyReceived_of_not_accepts hsid haccepts]
      refine ⟨rfl, ?_⟩
      cases reception.answer <;> rfl
    | true =>
      exfalso
      have hnext := (EventedService.acceptsSeq_iff.mp haccepts).resolve_left hzero
      have hkey := h.eventKey
      cases hlast : subscribed.lastAccepted with
      | none =>
        rw [hlast] at hkey
        exact hmistake ⟨hsid, by rw [hnext, hkey]; rfl, Or.inl hlast⟩
      | some last =>
        rw [hlast] at hkey
        by_cases hmax : last = eventMaxSeq
        · refine hmistake ⟨hsid, ?_, Or.inr (by rw [hlast, hmax])⟩
          rw [hnext, hkey]
          simp only [EventedService.nextEventKey, hmax, if_true]
          rfl
        · refine hfollows ⟨last, hlast, ?_⟩
          have hne : last ≠ 4294967295 := by
            rintro rfl
            exact absurd (h.le_max _ hlast) (by decide)
          rw [hnext, hkey, successorSeq, if_neg hne]
          simp only [EventedService.nextEventKey, if_neg hmax]

end SubscribedService

/-- From a new subscription on, notifications that are delivered once and in order are all accepted
if and only if there are at most `eventMaxSeq` of them and one more, and after any messages a gap
is recognised if and only if the number one is not mistaken for the next one. -/
theorem event_sequence_iff (channel : EventChannel) (hfresh : channel.Fresh)
    (deliveries : List Delivery) (receptions : List Reception) (reception : Reception) :
    ((∀ outcome ∈ channel.outcomes deliveries, outcome = .applied) ↔
        deliveries.length ≤ 2147483648) ∧
      ((receptions.foldl SubscribedService.receive ⟨channel.service, none⟩).RecognisesGap
        reception ↔
        ¬ (receptions.foldl SubscribedService.receive ⟨channel.service, none⟩).MistakesOne
          reception) := by
  have hkeyed : SubscribedService.Keyed ⟨channel.service, none⟩ :=
    ⟨hfresh.eventKey, fun seq hseq ↦ by cases hseq⟩
  refine ⟨?_, (hkeyed.foldl_receive receptions).recognisesGap_iff reception⟩
  have hinOrder := hfresh.inStep.all_applied_iff (Nat.zero_le _) deliveries
  rwa [Nat.zero_add] at hinOrder

/-- A service with one evented variable, subscribed with the SID `1`. -/
def subscribedSample : EventChannel where
  subscriber := ⟨some "1".toList, 300, 0, 0⟩
  service :=
    { serviceType := none, serviceId := none, scpdUrl := none, controlUrl := none
      eventSubUrl := none, subscriptionSid := some "1".toList, subscriptionTimeout := 300
      subscriptionTimestamp := 0, eventKey := 0
      stateTable := [⟨some "Status".toList, some "yes".toList, none⟩] }

/-- The notification of one variable. -/
def statusDelivery : Delivery :=
  ⟨none, some ⟨some "Status".toList, some "yes".toList, some "1".toList⟩, none⟩

theorem subscribedSample_fresh : subscribedSample.Fresh := by
  refine ⟨?_, rfl, rfl⟩
  unfold EventChannel.Connected
  decide

theorem event_sequence_iff_subscribed :
    ((∀ outcome ∈ subscribedSample.outcomes [statusDelivery], outcome = .applied) ↔
        [statusDelivery].length ≤ 2147483648) ∧
      (SubscribedService.RecognisesGap ⟨subscribedSample.service, none⟩
          ⟨setPropertySetNode subscribedSample.subscriber none none, none⟩ ↔
        ¬ SubscribedService.MistakesOne ⟨subscribedSample.service, none⟩
          ⟨setPropertySetNode subscribedSample.subscriber none none, none⟩) :=
  event_sequence_iff subscribedSample subscribedSample_fresh [statusDelivery] [] _

/-- A subscription that lives through half of the range is torn down although nothing was lost. -/
theorem not_all_in_order_applied :
    ¬ ∀ (channel : EventChannel) (deliveries : List Delivery), channel.Fresh →
      ∀ outcome ∈ channel.outcomes deliveries, outcome = .applied := by
  intro hclaim
  have happlied := hclaim subscribedSample (List.replicate 2147483649 statusDelivery)
    subscribedSample_fresh
  rw [subscribedSample_fresh.inStep.all_applied_iff (Nat.zero_le _), List.length_replicate]
    at happlied
  omega

end Mupnp.Event
