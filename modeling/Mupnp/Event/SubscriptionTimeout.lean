import Mupnp.Event.Subscriber

/-!
# Timeouts of subscriptions

The `TIMEOUT` header of a subscription (`event/subscription.c`), and the timeout that a device
grants for it (`device_http_server.c`). `timeouts_granted_iff` says that the granted timeout is
between one and the largest one, except for a header whose number is the least `long`: its
negation is itself, and a device has no lower limit.
-/

set_option autoImplicit false
set_option relaxedAutoImplicit false

namespace Mupnp.Event

open Util

/-- The negation of a `long`. -/
def longNeg (value : ℤ) : ℤ := (-BitVec.ofInt 64 value).toInt

/-- The number that `mupnp_event_subscription_gettimeout` reads behind the first hyphen of a
header. -/
def timeoutNumber (headerValue : Option CString) : Option ℤ :=
  let minusIdx := strstr headerValue (some "-".toList)
  if minusIdx < 0 then none
  else some (str2long (headerValue.map fun headerValue ↦ headerValue.drop (minusIdx.toNat + 1)))

/-- `mupnp_event_subscription_gettimeout`. -/
def subscriptionGetTimeout (headerValue : Option CString) : ℤ :=
  match timeoutNumber headerValue with
  | none => subscriptionInfiniteValue
  | some timeout =>
    if timeout = 0 then subscriptionInfiniteValue
    else if timeout < 0 then longNeg timeout
    else timeout

/-- `mupnp_event_subscription_totimeoutheaderstring`. -/
def toTimeoutHeaderString (time : ℤ) : CString :=
  if time ≠ subscriptionInfiniteValue then "Second-".toList ++ long2str time
  else "infinite".toList

/-- The subscriber that `mupnp_device_newsubscriptionrecieved` adds at the time `now`. -/
def newSubscriptionReceived (now : ℤ) (sid : CString) (timeoutHeader : Option CString) :
    Subscriber :=
  { Subscriber.new now with
    timeout := limitTimeout (subscriptionGetTimeout timeoutHeader)
    sid := some sid }

/-- What `mupnp_device_renewsubscriptionrecieved` makes of a subscriber at the time `now`. -/
def renewSubscriptionReceived (now : ℤ) (sub : Subscriber) (timeoutHeader : Option CString) :
    Subscriber :=
  { sub with timeout := limitTimeout (subscriptionGetTimeout timeoutHeader) }.renew now

/-- A timeout that a device may grant. -/
def IsGrantable (timeout : ℤ) : Prop := 1 ≤ timeout ∧ timeout ≤ subscriptionMaxTimeout

/-- The least `long`. -/
def longMin : ℤ := -longMax - 1

/-! ### Numbers -/

theorem longMin_le_atol (str : CString) : longMin ≤ atol str := by
  have hmax : longMax = 9223372036854775807 := rfl
  have hmin : longMin = -9223372036854775808 := rfl
  unfold atol
  split <;> omega

theorem longMin_le_timeoutNumber {headerValue : Option CString} {timeout : ℤ}
    (h : timeoutNumber headerValue = some timeout) : longMin ≤ timeout := by
  rw [timeoutNumber] at h
  split at h
  · cases h
  · obtain rfl := Option.some.inj h
    rw [str2long]
    cases headerValue with
    | none => decide
    | some headerValue => exact longMin_le_atol _

theorem longNeg_longMin : longNeg longMin = longMin := by decide

theorem longNeg_of_lt {value : ℤ} (hmin : longMin < value) (hneg : value < 0) :
    longNeg value = -value := by
  have hlongMin : longMin = -9223372036854775808 := rfl
  have hself : value.bmod (2 ^ 64) = value := Int.bmod_eq_of_le (by omega) (by omega)
  rw [longNeg, BitVec.toInt_neg, BitVec.toInt_ofInt, hself]
  exact Int.bmod_eq_of_le (by omega) (by omega)

/-- What a device grants for a number that is not the least one. -/
theorem isGrantable_limitTimeout {headerValue : Option CString}
    (h : timeoutNumber headerValue ≠ some longMin) :
    IsGrantable (limitTimeout (subscriptionGetTimeout headerValue)) := by
  have hmax : subscriptionMaxTimeout = 300 := rfl
  have hinfinite : subscriptionInfiniteValue = -1 := rfl
  have hcap : ∀ timeout : ℤ, 0 < timeout ∨ timeout = subscriptionInfiniteValue →
      IsGrantable (limitTimeout timeout) := by
    intro timeout htimeout
    unfold limitTimeout IsGrantable
    split_ifs <;> omega
  refine hcap _ ?_
  unfold subscriptionGetTimeout
  cases hnumber : timeoutNumber headerValue with
  | none => exact .inr rfl
  | some timeout =>
    by_cases hzero : timeout = 0
    · exact .inr (if_pos hzero)
    · by_cases hneg : timeout < 0
      · have hmin : longMin ≤ timeout := longMin_le_timeoutNumber hnumber
        have hne : timeout ≠ longMin := fun heq ↦ h (hnumber.trans (congrArg some heq))
        have hnegated := longNeg_of_lt (by omega) hneg
        left
        simp only [if_neg hzero, if_pos hneg, hnegated]
        omega
      · left
        simp only [if_neg hzero, if_neg hneg]
        omega

theorem limitTimeout_of_longMin {headerValue : Option CString}
    (h : timeoutNumber headerValue = some longMin) :
    limitTimeout (subscriptionGetTimeout headerValue) = longMin := by
  have hzero : longMin ≠ 0 := by decide
  have hneg : longMin < 0 := by decide
  simp only [subscriptionGetTimeout, h, if_neg hzero, if_pos hneg, longNeg_longMin]
  decide

/-- A duration is read back from its header. -/
theorem subscriptionGetTimeout_toTimeoutHeaderString {time : ℤ} (hmax : time ≤ longMax)
    (htime : 1 ≤ time ∨ time = subscriptionInfiniteValue) :
    subscriptionGetTimeout (some (toTimeoutHeaderString time)) = time := by
  have hinfinite : subscriptionInfiniteValue = -1 := rfl
  rcases htime with hpos | rfl
  · have hfinite : time ≠ subscriptionInfiniteValue := by omega
    have hminus : strstr (some ("Second-".toList ++ long2str time)) (some "-".toList) = 6 := rfl
    have hnumber : timeoutNumber (some (toTimeoutHeaderString time)) = some time := by
      rw [toTimeoutHeaderString, if_pos hfinite, timeoutNumber, hminus]
      exact congrArg some (atol_long2str (by omega) hmax)
    have hzero : time ≠ 0 := by omega
    have hneg : ¬ time < 0 := by omega
    simp only [subscriptionGetTimeout, hnumber, if_neg hzero, if_neg hneg]
  · decide

/-- **Which timeouts are granted.** A new or renewed subscription is granted a timeout between one
and the largest one, and durations are read back from their headers, if and only if the number in
the header is not the least one. -/
theorem timeouts_granted_iff (now : ℤ) (sid : CString) (sub : Subscriber)
    (timeoutHeader : Option CString) :
    (IsGrantable (newSubscriptionReceived now sid timeoutHeader).timeout ∧
        IsGrantable (renewSubscriptionReceived now sub timeoutHeader).timeout ∧
        ∀ time ≤ longMax, 1 ≤ time ∨ time = subscriptionInfiniteValue →
          subscriptionGetTimeout (some (toTimeoutHeaderString time)) = time) ↔
      timeoutNumber timeoutHeader ≠ some longMin := by
  constructor
  · rintro ⟨hgranted, -⟩ hnumber
    have hnegative : ¬ (1 : ℤ) ≤ longMin := by decide
    rw [newSubscriptionReceived, limitTimeout_of_longMin hnumber] at hgranted
    exact hnegative hgranted.1
  · intro hnumber
    exact ⟨isGrantable_limitTimeout hnumber, isGrantable_limitTimeout hnumber,
      fun time hmax htime ↦ subscriptionGetTimeout_toTimeoutHeaderString hmax htime⟩

/-- A header with a negative number out of range is granted a negative timeout. -/
theorem not_timeouts_granted :
    ¬ ∀ (now : ℤ) (sid : CString) (sub : Subscriber) (timeoutHeader : Option CString),
      IsGrantable (newSubscriptionReceived now sid timeoutHeader).timeout ∧
        IsGrantable (renewSubscriptionReceived now sub timeoutHeader).timeout := by
  intro hgranted
  have hheader := hgranted 0 "1".toList (Subscriber.new 0)
    (some "Second--99999999999999999999".toList)
  have hnumber : timeoutNumber (some "Second--99999999999999999999".toList) = some longMin := by
    decide +kernel
  have hnew := hheader.1
  rw [newSubscriptionReceived, limitTimeout_of_longMin hnumber] at hnew
  exact absurd hnew.1 (by decide)

end Mupnp.Event
