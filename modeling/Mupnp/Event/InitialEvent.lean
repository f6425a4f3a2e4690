import Mupnp.Event.ServiceNotify
import Mupnp.Foundation.ThreadTable
import Mupnp.Foundation.TransitionSystem

/-!
# The initial event of a subscription

The threads of a device that subscribe, change state variables and run notification rounds for one
service (`eventing`). A handler of a new subscription inserts the subscriber, answers, and runs a
round about all variables some time later; in between, the round of any other thread may reach the
new subscriber.

`Numbered` says that the messages to each subscriber are numbered without a gap, and
`numbered_of_run` that this holds in every run. The first message to a subscriber carries all
evented variables when no round about one variable comes between its insertion and its initial event
(`initial_event_of_run`); such a round breaks this.
-/

set_option autoImplicit false
set_option relaxedAutoImplicit false

namespace Mupnp.Event

open Foundation Util

/-- Where a thread of the device stands between two steps. -/
inductive DeviceThread where
  | idle
  /-- In `mupnp_device_newsubscriptionrecieved`, after the subscriber was inserted. -/
  | subscribed
  /-- About to run notification rounds. -/
  | notifying (rounds : List Round)

instance : Inhabited DeviceThread := ⟨.idle⟩

/-- A service of a device, with everything that was sent to its subscribers. -/
structure EventingDevice where
  stateTable : List StateVariable
  subscribers : List (SubscriberId × Subscriber)
  created : ℕ
  threads : ThreadTable ℕ DeviceThread
  sent : List SentNotification

/-- What can happen next. Each step names the thread that takes it. -/
inductive DeviceAction where
  /-- A subscription request is accepted. -/
  | subscribe (thread : ℕ) (sid : CString) (timeout now : ℤ)
  /-- A renewal arrives. -/
  | renew (thread : ℕ) (sid : Option CString) (timeout now : ℤ)
  /-- A cancellation arrives. -/
  | unsubscribe (thread : ℕ) (sid : Option CString)
  /-- `mupnp_service_createnotifyallthread` after its wait, on a thread that still runs or not. -/
  | initialEvent (thread : ℕ) (runnable : Bool)
  /-- `mupnp_statevariable_setvalue` or `mupnp_statevariable_setvaluewithoutnotify`. -/
  | setValue (thread : ℕ) (index : ℕ) (data : Option CString) (doNotify : Bool)
  /-- `mupnp_service_notify` for a variable. -/
  | notify (thread : ℕ) (index : ℕ)
  /-- `mupnp_service_notifyall`. -/
  | notifyAll (thread : ℕ) (doBracket : Bool)
  /-- The next round of a thread. -/
  | round (thread : ℕ) (now : ℤ)

namespace EventingDevice

/-- A device whose service has no subscribers yet. -/
def init (stateTable : List StateVariable) :
    EventingDevice := ⟨stateTable, [], 0, ThreadTable.init, []⟩

def thread (s : EventingDevice) (t : ℕ) : DeviceThread := s.threads.get t

def goTo (s : EventingDevice) (t : ℕ) (thread : DeviceThread) : EventingDevice :=
  { s with threads := s.threads.set t thread }

/-- The evented variables, one after the other. -/
def singleRounds (stateTable : List StateVariable) : List Round :=
  ((List.range stateTable.length).filter fun index ↦
    (stateTable[index]?).any StateVariable.isSendEvents).map .single

/-- `mupnp_device_newsubscriptionrecieved` up to the answer. -/
def subscribe (s : EventingDevice) (sid : CString) (timeout now : ℤ) : EventingDevice :=
  { s with
    subscribers := s.subscribers ++
      [(s.created, { Subscriber.new now with timeout := limitTimeout timeout, sid := some sid })]
    created := s.created + 1 }

/-- `mupnp_device_renewsubscriptionrecieved`. -/
def renew (s : EventingDevice) (sid : Option CString) (timeout now : ℤ) : EventingDevice :=
  match getSubscriberBySid s.subscribers sid with
  | none => s
  | some found =>
    { s with
      subscribers := s.subscribers.map fun sub ↦
        if sub.1 = found.1 then
          (sub.1, { sub.2 with timeout := limitTimeout timeout, subscriptionTime := now })
        else sub }

/-- `mupnp_device_unsubscriptionrecieved`. -/
def unsubscribe (s : EventingDevice) (sid : Option CString) : EventingDevice :=
  match getSubscriberBySid s.subscribers sid with
  | none => s
  | some found => { s with subscribers := s.subscribers.filter fun sub ↦ decide (sub.1 ≠ found.1) }

/-- A round, in which every message is acknowledged. -/
def runRound (s : EventingDevice) (round : Round) (now : ℤ) : EventingDevice :=
  let notified := notifyMain s.subscribers s.stateTable round now fun _ ↦ true
  { s with subscribers := notified.1, sent := s.sent ++ notified.2 }

/-- One step of the device; nothing when the thread is not where the action takes place. -/
def step (s : EventingDevice) : DeviceAction → Option EventingDevice
  | .subscribe t sid timeout now =>
    match s.thread t with
    | .idle => some ((s.subscribe sid timeout now).goTo t .subscribed)
    | _ => none
  | .renew t sid timeout now =>
    match s.thread t with
    | .idle => some (s.renew sid timeout now)
    | _ => none
  | .unsubscribe t sid =>
    match s.thread t with
    | .idle => some (s.unsubscribe sid)
    | _ => none
  | .initialEvent t runnable =>
    match s.thread t with
    | .subscribed => some (s.goTo t (if runnable then .notifying [.whole] else .idle))
    | _ => none
  | .setValue t index data doNotify =>
    match s.thread t, s.stateTable[index]? with
    | .idle, some statVar =>
      some ({ s with stateTable := s.stateTable.set index (statVar.setValue data) }.goTo t
        (if doNotify && statVar.isSendEvents then .notifying [.single index] else .idle))
    | _, _ => none
  | .notify t index =>
    match s.thread t, s.stateTable[index]? with
    | .idle, some _ => some (s.goTo t (.notifying [.single index]))
    | _, _ => none
  | .notifyAll t doBracket =>
    match s.thread t with
    | .idle =>
      some (s.goTo t (.notifying (if doBracket then [.whole] else singleRounds s.stateTable)))
    | _ => none
  | .round t now =>
    match s.thread t with
    | .notifying (round :: rest) => some ((s.runRound round now).goTo t (.notifying rest))
    | .notifying [] => some (s.goTo t .idle)
    | _ => none

/-- The messages that were sent to a subscriber, oldest first. -/
def sentTo (s : EventingDevice) (id : SubscriberId) : List SentNotification :=
  s.sent.filter fun notification ↦ decide (notification.recipient = id)

end EventingDevice

/-- A service of a device with its threads as a transition system. -/
def eventing : TransitionSystem EventingDevice DeviceAction := ⟨EventingDevice.step⟩

namespace EventingDevice

/-- The messages to each subscriber are numbered without a gap, and the notify count of a subscriber
says how many it was sent. -/
structure Numbered (s : EventingDevice) : Prop where
  nodup : (s.subscribers.map Prod.fst).Nodup
  id_lt : ∀ sub ∈ s.subscribers, sub.1 < s.created
  recipient_lt : ∀ notification ∈ s.sent, notification.recipient < s.created
  count : ∀ sub ∈ s.subscribers, sub.2.notifyCount = Subscriber.countAfter (s.sentTo sub.1).length
  seq : ∀ id k notification, (s.sentTo id)[k]? = some notification →
    notification.request.getSeq = BitVec.ofInt 64 (Subscriber.countAfter k)

/-- The first message to each subscriber carries all evented variables. -/
def InitialEvents (s : EventingDevice) : Prop :=
  ∀ id notification, (s.sentTo id).head? = some notification →
    notification.request.CarriesAll notification.stateTable

/-- When a round about one variable is run, every subscriber that was sent nothing yet has expired,
unless that variable is the only evented one. -/
def AwaitsInitialEvents (s : EventingDevice) (a : DeviceAction) : Prop :=
  ∀ t now index rest, a = .round t now → s.thread t = .notifying (.single index :: rest) →
    (∀ sub ∈ s.subscribers, sub.2.notifyCount = 0 → sub.2.isExpired now = true) ∨
      ∀ statVar ∈ s.stateTable, statVar.isSendEvents = true →
        s.stateTable[index]? = some statVar

/-! ### What a step can do -/

/-- The ways in which a step may change the subscribers and what was sent. -/
inductive StepEffect (s : EventingDevice) (a : DeviceAction) (s' : EventingDevice) : Prop where
  /-- Subscribers stay as they are but for their timeouts, or some are removed. -/
  | kept (hsub : ∀ sub ∈ s'.subscribers, ∃ old ∈ s.subscribers, sub.1 = old.1 ∧
        sub.2.notifyCount = old.2.notifyCount)
      (hids : (s'.subscribers.map Prod.fst).Sublist (s.subscribers.map Prod.fst))
      (hcreated : s'.created = s.created) (hsent : s'.sent = s.sent)
  /-- A subscriber is inserted. -/
  | subscribed (sub : Subscriber) (hcount : sub.notifyCount = 0)
      (hsub : s'.subscribers = s.subscribers ++ [(s.created, sub)])
      (hcreated : s'.created = s.created + 1) (hsent : s'.sent = s.sent)
  /-- A round is run. -/
  | round (t : ℕ) (now : ℤ) (round : Round) (rest : List Round) (ha : a = .round t now)
      (hthread : s.thread t = .notifying (round :: rest))
      (hsub : s'.subscribers = (s.runRound round now).subscribers)
      (hcreated : s'.created = s.created) (hsent : s'.sent = (s.runRound round now).sent)

theorem StepEffect.of_eq {s s' : EventingDevice} {a : DeviceAction}
    (hsub : s'.subscribers = s.subscribers) (hcreated : s'.created = s.created)
    (hsent : s'.sent = s.sent) : StepEffect s a s' :=
  .kept (fun sub hmem ↦ ⟨sub, hsub ▸ hmem, rfl, rfl⟩) (by rw [hsub]) hcreated hsent

/-- A renewal changes no notify count. -/
theorem renew_stepEffect (s : EventingDevice) (a : DeviceAction) (sid : Option CString)
    (timeout now : ℤ) : StepEffect s a (s.renew sid timeout now) := by
  simp only [renew]
  split
  · exact .of_eq rfl rfl rfl
  · rename_i found hfound
    refine .kept (fun sub hmem ↦ ?_) ?_ rfl rfl
    · obtain ⟨old, hold, rfl⟩ := List.mem_map.mp hmem
      refine ⟨old, hold, ?_, ?_⟩
      · split_ifs <;> rfl
      · split_ifs <;> rfl
    · have hids : (s.subscribers.map fun sub ↦
          if sub.1 = found.1 then
            (sub.1, { sub.2 with timeout := limitTimeout timeout, subscriptionTime := now })
          else sub).map Prod.fst = s.subscribers.map Prod.fst := by
        rw [List.map_map]
        refine List.map_congr_left fun sub _ ↦ ?_
        simp only [Function.comp_apply]
        split_ifs <;> rfl
      rw [hids]

theorem unsubscribe_stepEffect (s : EventingDevice) (a : DeviceAction) (sid : Option CString) :
    StepEffect s a (s.unsubscribe sid) := by
  simp only [unsubscribe]
  split
  · exact .of_eq rfl rfl rfl
  · exact .kept (fun sub hmem ↦ ⟨sub, (List.mem_filter.mp hmem).1, rfl, rfl⟩)
      (List.filter_sublist.map _) rfl rfl

/-- Every enabled step has one of the listed effects. -/
theorem step_stepEffect {s s' : EventingDevice} {a : DeviceAction} (hstep : s.step a = some s') :
    StepEffect s a s' := by
  cases a with
  | subscribe t sid timeout now =>
    simp only [step] at hstep
    split at hstep
    · obtain rfl := Option.some.inj hstep
      exact .subscribed _ rfl rfl rfl rfl
    · cases hstep
  | renew t sid timeout now =>
    simp only [step] at hstep
    split at hstep
    · obtain rfl := Option.some.inj hstep
      exact renew_stepEffect s _ sid timeout now
    · cases hstep
  | unsubscribe t sid =>
    simp only [step] at hstep
    split at hstep
    · obtain rfl := Option.some.inj hstep
      exact unsubscribe_stepEffect s _ sid
    · cases hstep
  | initialEvent t runnable =>
    simp only [step] at hstep
    split at hstep
    · obtain rfl := Option.some.inj hstep
      exact .of_eq rfl rfl rfl
    · cases hstep
  | setValue t index data doNotify =>
    simp only [step] at hstep
    split at hstep
    · obtain rfl := Option.some.inj hstep
      exact .of_eq rfl rfl rfl
    · cases hstep
  | notify t index =>
    simp only [step] at hstep
    split at hstep
    · obtain rfl := Option.some.inj hstep
      exact .of_eq rfl rfl rfl
    · cases hstep
  | notifyAll t doBracket =>
    simp only [step] at hstep
    split at hstep
    · obtain rfl := Option.some.inj hstep
      exact .of_eq rfl rfl rfl
    · cases hstep
  | round t now =>
    simp only [step] at hstep
    split at hstep
    · rename_i round rest hthread
      obtain rfl := Option.some.inj hstep
      exact .round t now round rest rfl hthread rfl rfl rfl
    · obtain rfl := Option.some.inj hstep
      exact .of_eq rfl rfl rfl
    · cases hstep

/-! ### Numbering -/

theorem sentTo_congr {s s' : EventingDevice} (hsent : s'.sent = s.sent) (id : SubscriberId) :
    s'.sentTo id = s.sentTo id := by
  rw [sentTo, sentTo, hsent]

/-- The subscribers that a round reaches. -/
def live (s : EventingDevice) (now : ℤ) : List (SubscriberId × Subscriber) :=
  s.subscribers.filter fun sub ↦ !sub.2.isExpired now

theorem live_sublist (s : EventingDevice) (now : ℤ) : (s.live now).Sublist s.subscribers :=
  List.filter_sublist

theorem runRound_subscribers (s : EventingDevice) (round : Round) (now : ℤ) :
    (s.runRound round now).subscribers =
      (s.live now).map fun sub ↦ (sub.1, sub.2.incrementNotifyCount) := by
  simp [runRound, notifyMain, live, List.filterMap_eq_map']

/-- The messages of a round to one subscriber. -/
theorem sentTo_runRound (s : EventingDevice) (round : Round) (now : ℤ) (id : SubscriberId) :
    (s.runRound round now).sentTo id = s.sentTo id ++
      ((s.live now).filter fun sub ↦ decide (sub.1 = id)).map fun sub ↦
        ⟨sub.1, round.request s.stateTable sub.2, s.stateTable⟩ := by
  simp only [sentTo, runRound, notifyMain, live, List.filter_append, List.filter_map]
  rfl

theorem live_nodup {s : EventingDevice} (h : s.Numbered) (now : ℤ) :
    ((s.live now).map Prod.fst).Nodup :=
  h.nodup.sublist ((s.live_sublist now).map _)

/-- Among subscribers with distinct identities, at most one has a given one. -/
theorem filter_eq_singleton {subscribers : List (SubscriberId × Subscriber)}
    (hnodup : (subscribers.map Prod.fst).Nodup) {sub : SubscriberId × Subscriber}
    (hmem : sub ∈ subscribers) :
    (subscribers.filter fun other ↦ decide (other.1 = sub.1)) = [sub] := by
  obtain ⟨before, after, rfl⟩ := List.append_of_mem hmem
  rw [List.map_append, List.map_cons] at hnodup
  obtain ⟨-, hfrom, hcross⟩ := List.nodup_append.mp hnodup
  have hbefore : (before.filter fun other ↦ decide (other.1 = sub.1)) = [] := by
    refine List.filter_eq_nil_iff.mpr fun other hother heq ↦ ?_
    exact hcross other.1 (List.mem_map_of_mem hother) sub.1 List.mem_cons_self
      (of_decide_eq_true heq)
  have hafter : (after.filter fun other ↦ decide (other.1 = sub.1)) = [] := by
    refine List.filter_eq_nil_iff.mpr fun other hother heq ↦ ?_
    refine (List.nodup_cons.mp hfrom).1 ?_
    rw [← of_decide_eq_true heq]
    exact List.mem_map_of_mem hother
  rw [List.filter_append, List.filter_cons_of_pos (by simp), hbefore, hafter, List.nil_append]

/-- A round sends one message to a subscriber that it reaches, and none to anyone else. -/
theorem sentTo_runRound_cases {s : EventingDevice} (h : s.Numbered) (round : Round) (now : ℤ)
    (id : SubscriberId) :
    (∃ sub, (id, sub) ∈ s.live now ∧ (s.runRound round now).sentTo id =
        s.sentTo id ++ [⟨id, round.request s.stateTable sub, s.stateTable⟩]) ∨
      ((∀ sub, (id, sub) ∉ s.live now) ∧ (s.runRound round now).sentTo id = s.sentTo id) := by
  rw [sentTo_runRound]
  by_cases hreached : ∃ sub, (id, sub) ∈ s.live now
  · obtain ⟨sub, hsub⟩ := hreached
    refine Or.inl ⟨sub, hsub, ?_⟩
    rw [filter_eq_singleton (live_nodup h now) hsub]
    rfl
  · have hnone : ((s.live now).filter fun sub ↦ decide (sub.1 = id)) = [] := by
      refine List.filter_eq_nil_iff.mpr fun sub hsub heq ↦ hreached ⟨sub.2, ?_⟩
      rw [← of_decide_eq_true heq]
      exact hsub
    refine Or.inr ⟨fun sub hsub ↦ hreached ⟨sub, hsub⟩, ?_⟩
    rw [hnone, List.map_nil, List.append_nil]

/-- A message that a round sends to a subscriber has the number of the messages before it. -/
theorem getSeq_of_live {s : EventingDevice} (h : s.Numbered) (round : Round) {now : ℤ}
    {id : SubscriberId} {sub : Subscriber} (hsub : (id, sub) ∈ s.live now) :
    (round.request s.stateTable sub).getSeq =
      BitVec.ofInt 64 (Subscriber.countAfter (s.sentTo id).length) := by
  have hcount := h.count (id, sub) ((s.live_sublist now).subset hsub)
  obtain ⟨hpos, hmax⟩ := Subscriber.countAfter_mem (s.sentTo id).length
  rw [← hcount] at hpos hmax ⊢
  exact getSeq_request round s.stateTable hpos hmax

/-- A subscriber that does not exist yet was sent nothing. -/
theorem sentTo_created {s : EventingDevice} (h : s.Numbered) : s.sentTo s.created = [] :=
  List.filter_eq_nil_iff.mpr fun notification hmem heq ↦
    (h.recipient_lt notification hmem).ne (of_decide_eq_true heq)

/-- A round keeps the numbering. -/
theorem numbered_of_round {s s' : EventingDevice} (h : s.Numbered) {round : Round} {now : ℤ}
    (hsub : s'.subscribers = (s.runRound round now).subscribers) (hcreated : s'.created = s.created)
    (hsent : s'.sent = (s.runRound round now).sent) : s'.Numbered := by
  have hlive := (s.live_sublist now).subset
  rw [runRound_subscribers] at hsub
  refine ⟨?_, fun sub hmem ↦ ?_, fun notification hmem ↦ ?_, fun sub hmem ↦ ?_,
    fun id k notification hk ↦ ?_⟩
  · rw [hsub, List.map_map]
    exact live_nodup h now
  · rw [hsub] at hmem
    obtain ⟨old, hold, rfl⟩ := List.mem_map.mp hmem
    rw [hcreated]
    exact h.id_lt old (hlive hold)
  · rw [hsent, runRound, hcreated] at *
    rcases List.mem_append.mp hmem with hbefore | hnew
    · exact h.recipient_lt notification hbefore
    · obtain ⟨sub, hreached, rfl⟩ := List.mem_map.mp hnew
      exact h.id_lt sub (hlive hreached)
  · rw [hsub] at hmem
    obtain ⟨old, hold, rfl⟩ := List.mem_map.mp hmem
    rw [sentTo_congr hsent]
    rcases sentTo_runRound_cases h round now old.1 with ⟨sub, -, hone⟩ | ⟨hnone, -⟩
    · rw [hone, List.length_append]
      exact Subscriber.incrementNotifyCount_countAfter (h.count old (hlive hold))
    · exact absurd hold (hnone old.2)
  · rw [sentTo_congr hsent] at hk
    rcases sentTo_runRound_cases h round now id with ⟨sub, hreached, hone⟩ | ⟨-, hnone⟩
    · rw [hone] at hk
      rcases Nat.lt_or_ge k (s.sentTo id).length with hlt | hge
      · rw [List.getElem?_append_left hlt] at hk
        exact h.seq id k notification hk
      · rw [List.getElem?_append_right hge] at hk
        obtain ⟨hindex, -⟩ := List.getElem?_eq_some_iff.mp hk
        have hlast : k = (s.sentTo id).length := by
          rw [List.length_singleton] at hindex
          omega
        rw [hlast, Nat.sub_self] at hk
        obtain rfl := Option.some.inj hk
        rw [hlast]
        exact getSeq_of_live h round hreached
    · rw [hnone] at hk
      exact h.seq id k notification hk

/-- Every step keeps the messages to each subscriber numbered without a gap. -/
theorem numbered_of_step {s s' : EventingDevice} {a : DeviceAction} (h : s.Numbered)
    (hstep : s.step a = some s') : s'.Numbered := by
  cases step_stepEffect hstep with
  | kept hsub hids hcreated hsent =>
    refine ⟨h.nodup.sublist hids, fun sub hmem ↦ ?_, ?_, fun sub hmem ↦ ?_, ?_⟩
    · obtain ⟨old, hold, hid, -⟩ := hsub sub hmem
      rw [hid, hcreated]
      exact h.id_lt old hold
    · rw [hsent, hcreated]
      exact h.recipient_lt
    · obtain ⟨old, hold, hid, hcount⟩ := hsub sub hmem
      rw [sentTo_congr hsent, hcount, hid]
      exact h.count old hold
    · intro id k notification hk
      rw [sentTo_congr hsent] at hk
      exact h.seq id k notification hk
  | subscribed sub hcount hsub hcreated hsent =>
    refine ⟨?_, fun other hmem ↦ ?_, fun notification hmem ↦ ?_, fun other hmem ↦ ?_, ?_⟩
    · rw [hsub, List.map_append]
      refine List.nodup_append.mpr ⟨h.nodup, by simp, fun id hid other hother ↦ ?_⟩
      obtain ⟨old, hold, rfl⟩ := List.mem_map.mp hid
      rw [List.mem_singleton.mp hother]
      exact (h.id_lt old hold).ne
    · rw [hsub] at hmem
      rw [hcreated]
      rcases List.mem_append.mp hmem with hold | hnew
      · exact Nat.lt_succ_of_lt (h.id_lt other hold)
      · rw [List.mem_singleton.mp hnew]
        exact Nat.lt_succ_self _
    · rw [hsent] at hmem
      rw [hcreated]
      exact Nat.lt_succ_of_lt (h.recipient_lt notification hmem)
    · rw [hsub] at hmem
      rw [sentTo_congr hsent]
      rcases List.mem_append.mp hmem with hold | hnew
      · exact h.count other hold
      · rw [List.mem_singleton.mp hnew, hcount, sentTo_created h]
        rfl
    · intro id k notification hk
      rw [sentTo_congr hsent] at hk
      exact h.seq id k notification hk
  | round t now round rest ha hthread hsub hcreated hsent =>
    exact numbered_of_round h hsub hcreated hsent

/-- A round that reaches a subscriber for the first time carries all evented variables to it. -/
theorem AwaitsInitialEvents.carriesAll {s : EventingDevice} {a : DeviceAction}
    (h : s.AwaitsInitialEvents a) {t : ℕ} {now : ℤ} {round : Round} {rest : List Round}
    (ha : a = .round t now) (hthread : s.thread t = .notifying (round :: rest))
    {sub : SubscriberId × Subscriber} (hmem : sub ∈ s.subscribers) (hcount : sub.2.notifyCount = 0)
    (hlive : sub.2.isExpired now = false) :
    (round.request s.stateTable sub.2).CarriesAll s.stateTable := by
  cases round with
  | whole => exact carriesAll_whole s.stateTable sub.2
  | single index =>
    rcases h t now index rest ha hthread with hexpired | honly
    · rw [hexpired sub hmem hcount] at hlive
      cases hlive
    · exact carriesAll_single honly sub.2

/-- A step keeps the initial events complete when it waits for those that are due. -/
theorem initialEvents_of_step {s s' : EventingDevice} {a : DeviceAction} (h : s.Numbered)
    (hinitial : s.InitialEvents) (ha : s.AwaitsInitialEvents a) (hstep : s.step a = some s') :
    s'.InitialEvents := by
  cases step_stepEffect hstep with
  | kept hsub hids hcreated hsent =>
    intro id notification hhead
    rw [sentTo_congr hsent] at hhead
    exact hinitial id notification hhead
  | subscribed sub hcount hsub hcreated hsent =>
    intro id notification hhead
    rw [sentTo_congr hsent] at hhead
    exact hinitial id notification hhead
  | round t now round rest haction hthread hsub hcreated hsent =>
    intro id notification hhead
    rw [sentTo_congr hsent] at hhead
    rcases sentTo_runRound_cases h round now id with ⟨sub, hreached, hone⟩ | ⟨-, hnone⟩
    · rw [hone] at hhead
      cases hbefore : s.sentTo id with
      | nil =>
        rw [hbefore] at hhead
        obtain rfl := Option.some.inj hhead
        obtain ⟨hmem, hlive⟩ := List.mem_filter.mp hreached
        have hcount : sub.notifyCount = 0 := by
          rw [h.count (id, sub) hmem, hbefore]
          rfl
        have hunexpired : sub.isExpired now = false := by simpa using hlive
        exact @AwaitsInitialEvents.carriesAll s a ha t now round rest haction hthread (id, sub)
          hmem hcount hunexpired
      | cons first others =>
        rw [hbefore] at hhead
        obtain rfl := Option.some.inj hhead
        exact hinitial id first (by rw [hbefore]; rfl)
    · rw [hnone] at hhead
      exact hinitial id notification hhead

theorem numbered_init (stateTable : List StateVariable) : (init stateTable).Numbered where
  nodup := List.nodup_nil
  id_lt := fun _ h ↦ absurd h List.not_mem_nil
  recipient_lt := fun _ h ↦ absurd h List.not_mem_nil
  count := fun _ h ↦ absurd h List.not_mem_nil
  seq := fun _ _ _ h ↦ by cases h

/-- In every run the messages to each subscriber are numbered from zero without a gap. -/
theorem numbered_of_run (stateTable : List StateVariable) {actions : List DeviceAction}
    {s : EventingDevice} (hrun : eventing.run (init stateTable) actions = some s) : s.Numbered :=
  TransitionSystem.invariant_of_run (I := Numbered) (fun _ _ _ h hs ↦ numbered_of_step h hs)
    (numbered_init stateTable) hrun

/-- In every run in which no round about one of several evented variables reaches a subscriber that
was sent nothing yet, the first message to every subscriber has the number zero and carries all
evented variables, and the messages after it are numbered 1, 2, 3 and so on up to the largest 32-bit
number, after which the numbers start again from one. -/
theorem initial_event_of_run (stateTable : List StateVariable) (actions : List DeviceAction)
    (s : EventingDevice)
    (hawaits : eventing.AllSteps AwaitsInitialEvents (init stateTable) actions)
    (hrun : eventing.run (init stateTable) actions = some s) (id : SubscriberId) :
    (∀ notification, (s.sentTo id).head? = some notification →
        notification.request.getSeq = 0 ∧
          notification.request.CarriesAll notification.stateTable) ∧
      ∀ k notification, (s.sentTo id)[k]? = some notification →
        notification.request.getSeq = BitVec.ofInt 64 (Subscriber.countAfter k) := by
  have hstep : ∀ s a s', s.Numbered ∧ s.InitialEvents → s.AwaitsInitialEvents a →
      eventing.step s a = some s' → s'.Numbered ∧ s'.InitialEvents :=
    fun s a s' h ha hs ↦ ⟨numbered_of_step h.1 hs, initialEvents_of_step h.1 h.2 ha hs⟩
  have hinit : (init stateTable).Numbered ∧ (init stateTable).InitialEvents :=
    ⟨numbered_init stateTable, fun _ _ h ↦ by cases h⟩
  obtain ⟨hnumbered, hinitial⟩ :=
    TransitionSystem.invariant_of_run_of_allSteps hstep hawaits hinit hrun
  refine ⟨fun notification hhead ↦ ⟨?_, hinitial id notification hhead⟩, hnumbered.seq id⟩
  exact hnumbered.seq id 0 notification (by rw [← List.head?_eq_getElem?, hhead])

/-- A service with two evented variables. -/
def twoVariables : List StateVariable :=
  [⟨some "Volume".toList, some "yes".toList, some "1".toList⟩,
    ⟨some "Mute".toList, some "yes".toList, some "0".toList⟩]

/-- A subscriber gets its initial event, and then the round of another thread about a variable. -/
theorem initial_event_of_run_subscribed :
    ∃ s, eventing.run (init twoVariables)
        [.subscribe 0 "1".toList 100 0, .initialEvent 0 true, .setValue 1 1 (some "2".toList) true,
          .round 0 1, .round 1 1] = some s ∧
      (s.sentTo 0).length = 2 ∧
      ((∀ notification, (s.sentTo 0).head? = some notification →
          notification.request.getSeq = 0 ∧
            notification.request.CarriesAll notification.stateTable) ∧
        ∀ k notification, (s.sentTo 0)[k]? = some notification →
          notification.request.getSeq = BitVec.ofInt 64 (Subscriber.countAfter k)) := by
  refine ⟨_, rfl, rfl, initial_event_of_run twoVariables
    [.subscribe 0 "1".toList 100 0, .initialEvent 0 true, .setValue 1 1 (some "2".toList) true,
      .round 0 1, .round 1 1] _ ?_ rfl 0⟩
  refine ⟨fun _ _ _ _ ha ↦ (by cases ha), fun s₁ hs₁ ↦ ⟨fun _ _ _ _ ha ↦ (by cases ha),
    fun s₂ hs₂ ↦ ⟨fun _ _ _ _ ha ↦ (by cases ha), fun s₃ hs₃ ↦ ⟨?_,
      fun s₄ hs₄ ↦ ⟨?_, fun _ _ ↦ trivial⟩⟩⟩⟩⟩
  · intro t now index rest ha hthread
    obtain rfl := (DeviceAction.round.inj ha).1
    obtain rfl := Option.some.inj hs₁
    obtain rfl := Option.some.inj hs₂
    obtain rfl := Option.some.inj hs₃
    cases (List.cons.inj (DeviceThread.notifying.inj hthread)).1
  · intro t now index rest ha hthread
    have hcounts : s₄.subscribers.map (fun sub ↦ sub.2.notifyCount) = [1] := by
      obtain rfl := Option.some.inj hs₁
      obtain rfl := Option.some.inj hs₂
      obtain rfl := Option.some.inj hs₃
      obtain rfl := Option.some.inj hs₄
      rfl
    -- The subscriber was sent the initial event.
    refine Or.inl fun sub hmem hcount ↦ ?_
    have hone := List.mem_map_of_mem (f := fun sub : SubscriberId × Subscriber ↦
      sub.2.notifyCount) hmem
    rw [hcounts, List.mem_singleton, hcount] at hone
    exact absurd hone (by decide)

/-- Another thread changes a variable before the initial event of a new subscriber. -/
theorem not_initial_event :
    ¬ ∀ (stateTable : List StateVariable) (actions : List DeviceAction) (s : EventingDevice)
      (id : SubscriberId), eventing.run (init stateTable) actions = some s →
      ∀ notification, (s.sentTo id).head? = some notification →
        notification.request.getSeq = 0 ∧
          notification.request.CarriesAll notification.stateTable := by
  intro hclaim
  have hcarries := (hclaim twoVariables [.subscribe 0 "1".toList 100 0,
    .setValue 1 0 (some "2".toList) true, .round 1 1] _ 0 rfl _ rfl).2
  have hmute := hcarries ⟨some "Mute".toList, some "yes".toList, some "0".toList⟩
    (List.mem_cons_of_mem _ List.mem_cons_self) (by decide)
  exact absurd hmute (by decide)

end EventingDevice

end Mupnp.Event
