import Mupnp.Event.ServiceNotify
import Mupnp.Foundation.CircularList
import Mupnp.Foundation.MemoryTrace
import Mupnp.Foundation.ThreadTable
import Mupnp.Foundation.TransitionSystem

/-!
# The records of the subscribers of a service

The subscriber records of a device service in memory, with the links of their list, and the
threads of the device that work on them. A notification round and a cancellation hold the service
mutex and are one step each. A new subscription and a renewal do not hold it: each of their
statements that touches a record or the list is a step of its own, so that a round or a
cancellation of another thread can come between any two of them.

`trace` records every use of a record, and what was allocated and freed.
-/

set_option autoImplicit false
set_option relaxedAutoImplicit false

namespace Mupnp.Event

open Foundation Util

/-- The next statement of a handler that fills a new record. -/
inductive CreatingStage where
  | setDeliveryUrl | setTimeout | setSid | add
  deriving DecidableEq

/-- The next statement of `mupnp_list_insert`. -/
inductive InsertingStage where
  | setPrev | setNext | setNextPrev | setPrevNext
  deriving DecidableEq

/-- The next statement of `mupnp_list_next` in the lookup of a renewal. -/
inductive SeekingStage where
  | testNull | testHead | takeNext
  deriving DecidableEq

/-- The next statement of a renewal that has a record at hand: the lookup reads the SID of the
record, skips its prefix and compares it, the handler sets the timeout and the subscription time.
-/
inductive RenewingStage where
  | getSid | skipUuid | compareSid | setTimeout | renew
  deriving DecidableEq

/-- What a renewal request says. -/
structure RenewalRequest where
  sid : Option CString
  timeout : ℤ

/-- Where a thread stands between two steps. `none` as a list element is the head of the list. -/
inductive SubscriberThread where
  | idle
  | creating (sub : SubscriberId) (sid : CString) (timeout : ℤ) (stage : CreatingStage)
  | inserting (sub : SubscriberId) (prevList : Option SubscriberId) (stage : InsertingStage)
  | seeking (request : RenewalRequest) (list : Option SubscriberId) (stage : SeekingStage)
  | renewing (request : RenewalRequest) (sub : SubscriberId) (stage : RenewingStage)
  /-- Has taken the head of the list for a record. -/
  | strayed

instance : Inhabited SubscriberThread := ⟨.idle⟩

/-- The records of a service in memory. A record that was not allocated yet has no meaning. -/
structure SubscriberHeap where
  links : Links SubscriberId
  contents : SubscriberId → Subscriber
  created : ℕ
  trace : List (MemoryEvent SubscriberId)
  threads : ThreadTable ℕ SubscriberThread

/-- What can happen next. Each step names the thread that takes it. -/
inductive SubscriberAction where
  /-- A subscription is accepted: `mupnp_subscriber_new`. -/
  | subscribe (thread : ℕ) (sid : CString) (timeout now : ℤ)
  /-- A renewal arrives. -/
  | renew (thread : ℕ) (sid : Option CString) (timeout : ℤ)
  /-- The next statement of a subscription or a renewal. -/
  | statement (thread : ℕ) (now : ℤ)
  /-- `mupnp_device_unsubscriptionrecieved`. -/
  | unsubscribe (thread : ℕ) (sid : Option CString)
  /-- `mupnp_service_notifymain`. -/
  | round (thread : ℕ) (now : ℤ) (acknowledged : SubscriberId → Bool)

namespace SubscriberHeap

/-- A service without subscribers. -/
def init : SubscriberHeap := ⟨Links.init, fun _ ↦ Subscriber.new 0, 0, [], ThreadTable.init⟩

def thread (s : SubscriberHeap) (t : ℕ) : SubscriberThread := s.threads.get t

def goTo (s : SubscriberHeap) (t : ℕ) (thread : SubscriberThread) : SubscriberHeap :=
  { s with threads := s.threads.set t thread }

/-- Reads or writes a list element. -/
def use (s : SubscriberHeap) : Option SubscriberId → SubscriberHeap
  | none => s
  | some sub => { s with trace := .use sub :: s.trace }

/-- Changes the contents of a record. -/
def update (s : SubscriberHeap) (sub : SubscriberId) (change : Subscriber → Subscriber) :
    SubscriberHeap :=
  { s.use (some sub) with
    contents := fun other ↦ if other = sub then change (s.contents sub) else s.contents other }

/-- The records that a walk through the list meets. -/
def subscribers (s : SubscriberHeap) : List SubscriberId := s.links.walk s.created none

/-- `mupnp_subscriber_new`. -/
def subscriberNew (s : SubscriberHeap) (now : ℤ) : SubscriberHeap :=
  { s with
    links := s.links.isolate s.created
    contents := fun other ↦ if other = s.created then Subscriber.new now else s.contents other
    created := s.created + 1
    trace := .alloc s.created :: s.trace }

/-- `mupnp_list_remove`. -/
def listRemove (s : SubscriberHeap) (sub : SubscriberId) : SubscriberHeap :=
  { ((s.use (some sub)).use (s.links.prev (some sub))).use (s.links.next (some sub)) with
    links := s.links.remove sub }

/-- `mupnp_subscriber_delete`. -/
def subscriberDelete (s : SubscriberHeap) (sub : SubscriberId) : SubscriberHeap :=
  let removed := s.listRemove sub
  { removed with trace := .free sub :: removed.trace }

/-- `mupnp_service_removesubscriber`. -/
def removeSubscriber (s : SubscriberHeap) (sub : SubscriberId) : SubscriberHeap :=
  (s.listRemove sub).subscriberDelete sub

/-- The comparison in `mupnp_service_getsubscriberbysid`. -/
def isSid (s : SubscriberHeap) (sid : Option CString) (sub : SubscriberId) : Bool :=
  streq (sid.map withoutUuid) ((s.contents sub).sid.map withoutUuid)

/-- The loop of `mupnp_service_getsubscriberbysid` over the records of the list. -/
def findBySid (s : SubscriberHeap) (sid : Option CString) :
    List SubscriberId → SubscriberHeap × Option SubscriberId
  | [] => (s, none)
  | sub :: rest =>
    if s.isSid sid sub then (s.use (some sub), some sub)
    else findBySid (s.use (some sub)) sid rest

/-- `mupnp_device_unsubscriptionrecieved` under the mutex. -/
def unsubscribe (s : SubscriberHeap) (sid : Option CString) : SubscriberHeap :=
  if strlen sid ≤ 0 then s
  else
    match s.findBySid sid s.subscribers with
    | (found, none) => found
    | (found, some sub) => found.removeSubscriber sub

/-- The loop that stores the records of the list in an array. -/
def useAll (s : SubscriberHeap) (subs : List SubscriberId) : SubscriberHeap :=
  subs.foldl (fun s sub ↦ s.use (some sub)) s

def removeExpired (now : ℤ) (s : SubscriberHeap) (sub : SubscriberId) : SubscriberHeap :=
  if (s.contents sub).isExpired now then (s.use (some sub)).removeSubscriber sub
  else s.use (some sub)

def notify (acknowledged : SubscriberId → Bool) (s : SubscriberHeap) (sub : SubscriberId) :
    SubscriberHeap :=
  if acknowledged sub then s.update sub Subscriber.incrementNotifyCount
  else (s.use (some sub)).removeSubscriber sub

/-- `mupnp_service_notifymain`: both loops run over an array of the records in the list. -/
def notifyMain (s : SubscriberHeap) (now : ℤ) (acknowledged : SubscriberId → Bool) :
    SubscriberHeap :=
  let live := s.subscribers.foldl (removeExpired now) (s.useAll s.subscribers)
  live.subscribers.foldl (notify acknowledged) (live.useAll live.subscribers)

/-- One statement outside of the mutex. -/
def statement (s : SubscriberHeap) (t : ℕ) (now : ℤ) : SubscriberThread → Option SubscriberHeap
  | .idle | .strayed => none
  | .creating sub sid timeout .setDeliveryUrl =>
    some ((s.use (some sub)).goTo t (.creating sub sid timeout .setTimeout))
  | .creating sub sid timeout .setTimeout =>
    some ((s.update sub fun record ↦ { record with timeout := limitTimeout timeout }).goTo t
      (.creating sub sid timeout .setSid))
  | .creating sub sid timeout .setSid =>
    some ((s.update sub fun record ↦ { record with sid := some sid }).goTo t
      (.creating sub sid timeout .add))
  | .creating sub _ _ .add => some (s.goTo t (.inserting sub (s.links.prev none) .setPrev))
  | .inserting sub prevList .setPrev =>
    some ({ s.use (some sub) with links := s.links.setPrev (some sub) prevList }.goTo t
      (.inserting sub prevList .setNext))
  | .inserting sub prevList .setNext =>
    some ({ (s.use (some sub)).use prevList with
      links := s.links.setNext (some sub) (s.links.next prevList) }.goTo t
      (.inserting sub prevList .setNextPrev))
  | .inserting sub prevList .setNextPrev =>
    some ({ (s.use prevList).use (s.links.next prevList) with
      links := s.links.setPrev (s.links.next prevList) (some sub) }.goTo t
      (.inserting sub prevList .setPrevNext))
  | .inserting sub prevList .setPrevNext =>
    some ({ s.use prevList with links := s.links.setNext prevList (some sub) }.goTo t .idle)
  | .seeking request list .testNull => some ((s.use list).goTo t (.seeking request list .testHead))
  | .seeking request list .testHead =>
    some (((s.use list).use (s.links.next list)).goTo t
      (if s.links.next list = none then .idle else .seeking request list .takeNext))
  | .seeking request list .takeNext =>
    match s.links.next list with
    | none => some ((s.use list).goTo t .strayed)
    | some sub => some ((s.use list).goTo t (.renewing request sub .getSid))
  | .renewing request sub .getSid =>
    some ((s.use (some sub)).goTo t (.renewing request sub .skipUuid))
  | .renewing request sub .skipUuid =>
    some ((s.use (some sub)).goTo t (.renewing request sub .compareSid))
  | .renewing request sub .compareSid =>
    some ((s.use (some sub)).goTo t
      (if s.isSid request.sid sub then .renewing request sub .setTimeout
      else .seeking request (some sub) .testNull))
  | .renewing request sub .setTimeout =>
    some ((s.update sub fun record ↦ { record with timeout := limitTimeout request.timeout }).goTo t
      (.renewing request sub .renew))
  | .renewing _ sub .renew => some ((s.update sub fun record ↦ record.renew now).goTo t .idle)

/-- One step; nothing when the thread is not where the action takes place. -/
def step (s : SubscriberHeap) : SubscriberAction → Option SubscriberHeap
  | .subscribe t sid timeout now =>
    match s.thread t with
    | .idle =>
      some ((s.subscriberNew now).goTo t (.creating s.created sid timeout .setDeliveryUrl))
    | _ => none
  | .renew t sid timeout =>
    match s.thread t with
    | .idle =>
      some (s.goTo t (if strlen sid ≤ 0 then .idle else .seeking ⟨sid, timeout⟩ none .testNull))
    | _ => none
  | .statement t now => s.statement t now (s.thread t)
  | .unsubscribe t sid =>
    match s.thread t with
    | .idle => some (s.unsubscribe sid)
    | _ => none
  | .round t now acknowledged =>
    match s.thread t with
    | .idle => some (s.notifyMain now acknowledged)
    | _ => none

end SubscriberHeap

/-- The subscriber records of a service as a transition system. -/
def subscriberLifecycle : TransitionSystem SubscriberHeap SubscriberAction := ⟨SubscriberHeap.step⟩

end Mupnp.Event
