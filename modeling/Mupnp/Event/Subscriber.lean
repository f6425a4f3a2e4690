import Mupnp.Util.LongString

/-!
# Event subscribers

`event/subscriber.c`: what a device keeps for a subscriber. Its notify count is the sequence
number of the next notification; it wraps from `notifyCountMax` to one. `DeliverySubscriber` adds
the URL that the notifications are delivered to.
-/

set_option autoImplicit false
set_option relaxedAutoImplicit false

namespace Mupnp.Event

open Util

structure Subscriber where
  sid : Option CString
  timeout : ℤ
  subscriptionTime : ℤ
  notifyCount : ℤ
  deriving DecidableEq

/-- `MUPNP_NOTIFY_COUNT_MAX`: the largest 32-bit number. -/
def notifyCountMax : ℤ := 2 ^ 32 - 1

/-- `MUPNP_SUBSCRIPTION_INFINITE_VALUE`. -/
def subscriptionInfiniteValue : ℤ := -1

/-- `MUPNP_SUBSCRIPTION_MAX_TIMEOUT`. -/
def subscriptionMaxTimeout : ℤ := 300

/-- The limit that a device puts on the timeout of a new or a renewed subscription. -/
def limitTimeout (timeout : ℤ) : ℤ :=
  if subscriptionMaxTimeout < timeout ∨ timeout = subscriptionInfiniteValue then
    subscriptionMaxTimeout
  else timeout

namespace Subscriber

/-- `mupnp_subscriber_new`, run at the time `now`. -/
def new (now : ℤ) : Subscriber := ⟨none, 0, now, 0⟩

/-- `mupnp_subscriber_renew`, run at the time `now`. -/
def renew (sub : Subscriber) (now : ℤ) : Subscriber := { sub with subscriptionTime := now }

/-- `mupnp_subscriber_incrementnotifycount`. -/
def incrementNotifyCount (sub : Subscriber) : Subscriber :=
  { sub with
    notifyCount := (if notifyCountMax ≤ sub.notifyCount then 0 else sub.notifyCount) + 1 }

/-- `mupnp_subscriber_isexpired`, run at the time `currTime`. -/
def isExpired (sub : Subscriber) (currTime : ℤ) : Bool :=
  if sub.timeout = subscriptionInfiniteValue then false
  else decide (sub.subscriptionTime + sub.timeout < currTime)

/-- The notify count of a subscriber that has acknowledged a number of notifications. -/
def countAfter (acknowledged : ℕ) : ℤ :=
  if acknowledged = 0 then 0 else ((acknowledged : ℤ) - 1) % notifyCountMax + 1

theorem countAfter_mem (acknowledged : ℕ) :
    0 ≤ countAfter acknowledged ∧ countAfter acknowledged ≤ notifyCountMax := by
  unfold countAfter notifyCountMax
  split_ifs <;> omega

theorem incrementNotifyCount_countAfter {sub : Subscriber} {acknowledged : ℕ}
    (h : sub.notifyCount = countAfter acknowledged) :
    sub.incrementNotifyCount.notifyCount = countAfter (acknowledged + 1) := by
  have hmax : notifyCountMax = 4294967295 := rfl
  rw [incrementNotifyCount, h, countAfter, countAfter, hmax, if_neg (Nat.succ_ne_zero acknowledged)]
  push_cast
  split_ifs <;> omega

end Subscriber

end Mupnp.Event
