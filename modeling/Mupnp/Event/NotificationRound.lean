import Mupnp.Event.NotifyDelivery
import Mupnp.Event.SubscriberSafety

/-!
# A notification round over the records of a list

`mupnp_service_notifymain` keeps the records of the list in an array, twice, and takes records out
of the list while it goes through the array. `notifySending` is the round with everything that it
posts: a notification that is answered with the status 405 is posted a second time, with the method
`M-POST`. No insertion is under way when the round starts, and the records of the list are alive
(`IsSubscriberList`).

Each of the two loops leaves the records that it is to keep, in their order
(`IsSubscriberList.foldl`). `notifySending_spec` says what becomes of every subscriber, and
`notifySending_refines` that the round does to the list of subscribers what `notifyMain` does.
-/

set_option autoImplicit false
set_option relaxedAutoImplicit false

namespace Mupnp.Event

open Foundation Http Util MemoryEvent

/-- The status codes of the answers to a notification, and to its second posting if there is one. -/
structure NotifyAnswers where
  status : ℤ
  retryStatus : ℤ

/-- A notification as it is posted. -/
structure PostedNotification where
  notification : SentNotification
  method : CString

namespace NotifyAnswers

/-- The methods with which `mupnp_soap_request_post` posts a notification. -/
def methods (answers : NotifyAnswers) : List CString :=
  if answers.status = 405 then ["NOTIFY".toList, "M-POST".toList] else ["NOTIFY".toList]

/-- The status code of the last answer. -/
def lastStatus (answers : NotifyAnswers) : ℤ :=
  if answers.status = 405 then answers.retryStatus else answers.status

/-- `mupnp_event_notify_response_issuccessful`. -/
def isSuccessful (answers : NotifyAnswers) : Bool :=
  decide (200 ≤ answers.lastStatus ∧ answers.lastStatus < 300)

/-- `mupnp_soap_request_post` for a notification. -/
def posted (answers : NotifyAnswers) (notification : SentNotification) : List PostedNotification :=
  answers.methods.map fun method ↦ ⟨notification, method⟩

end NotifyAnswers

theorem soapRequestPost_answers {httpReq : HttpRequest}
    (hmethod : httpReq.method = some "NOTIFY".toList) (ipaddr : Option CString) (port : ℤ)
    (answers : NotifyAnswers) :
    (soapRequestPost httpReq ipaddr port answers.status answers.retryStatus).1.map
        (fun post ↦ post.request.method) = answers.methods.map some ∧
      (soapRequestPost httpReq ipaddr port answers.status answers.retryStatus).2 =
        answers.lastStatus := by
  have hposted : ∀ addr, (httpReq.addressed addr port).method = some "NOTIFY".toList :=
    fun _ ↦ hmethod
  unfold soapRequestPost NotifyAnswers.methods NotifyAnswers.lastStatus
  cases ipaddr with
  | none =>
    dsimp only
    split_ifs
    · exact ⟨by rw [List.map_cons, List.map_singleton, hmethod]; rfl, rfl⟩
    · exact ⟨by rw [List.map_singleton, hmethod]; rfl, rfl⟩
  | some addr =>
    dsimp only
    split_ifs
    · exact ⟨by rw [List.map_cons, List.map_singleton, hposted]; rfl, rfl⟩
    · exact ⟨by rw [List.map_singleton, hposted]; rfl, rfl⟩

/-- The requests that are posted for a subscriber have these methods, and the last answer decides
whether its count goes up. -/
theorem DeliverySubscriber.notifyMain_answers (sub : DeliverySubscriber) (userAgent server : CString)
    (service : Option (List StateVariable)) (statVar : Option StateVariable)
    (answers : NotifyAnswers) :
    let notified := sub.notifyMain userAgent server service statVar answers.status
      answers.retryStatus
    notified.2.map (fun post ↦ post.request.method) = answers.methods.map some ∧
      notified.1.toSubscriber =
        if answers.isSuccessful = true then sub.toSubscriber.incrementNotifyCount
        else sub.toSubscriber := by
  have hmethod : (sub.notifyHttpRequest userAgent server service statVar).method =
      some "NOTIFY".toList := rfl
  obtain ⟨hmethods, hcode⟩ := soapRequestPost_answers hmethod sub.getDeliveryHost
    sub.getDeliveryPort answers
  unfold notifyMain NotifyAnswers.isSuccessful
  simp only [hcode, decide_eq_true_eq]
  split_ifs
  · exact ⟨hmethods, rfl⟩
  · exact ⟨hmethods, rfl⟩

namespace SubscriberHeap

/-- The second loop of `mupnp_service_notifymain` at a record: `mupnp_subscriber_notifymain` posts
a notification to the subscriber before the answer says whether it stays. -/
def notifySend (round : Round) (stateTable : List StateVariable)
    (answers : SubscriberId → NotifyAnswers) (s : SubscriberHeap × List PostedNotification)
    (sub : SubscriberId) : SubscriberHeap × List PostedNotification :=
  (s.1.notify (fun sub ↦ (answers sub).isSuccessful) sub,
    s.2 ++ (answers sub).posted ⟨sub, round.request stateTable (s.1.contents sub), stateTable⟩)

/-- `mupnp_service_notifymain` with everything that is posted, in order. -/
def notifySending (s : SubscriberHeap) (stateTable : List StateVariable) (round : Round) (now : ℤ)
    (answers : SubscriberId → NotifyAnswers) : SubscriberHeap × List PostedNotification :=
  let live := s.subscribers.foldl (removeExpired now) (s.useAll s.subscribers)
  live.subscribers.foldl (notifySend round stateTable answers)
    (live.useAll live.subscribers, [])

/-- A circular list of records that are alive. -/
structure IsSubscriberList (s : SubscriberHeap) (records : List SubscriberId) : Prop where
  chained : Chained s.links (fun _ ↦ False) records
  length_le : records.length ≤ s.created
  alive : ∀ sub ∈ records, Alive s.trace sub
  safe : Safe s.trace

namespace IsSubscriberList

variable {s : SubscriberHeap} {records : List SubscriberId}

theorem subscribers_eq (h : s.IsSubscriberList records) : s.subscribers = records :=
  h.chained.walk_eq h.length_le

theorem use (h : s.IsSubscriberList records) {sub : SubscriberId} (hmem : sub ∈ records) :
    (s.use (some sub)).IsSubscriberList records := by
  refine ⟨h.chained, h.length_le, fun other hother ↦ alive_use.mpr (h.alive other hother), ?_⟩
  exact ⟨h.alive sub hmem, h.safe⟩

theorem update (h : s.IsSubscriberList records) {sub : SubscriberId} (hmem : sub ∈ records)
    (change : Subscriber → Subscriber) : (s.update sub change).IsSubscriberList records :=
  ⟨(h.use hmem).chained, (h.use hmem).length_le, (h.use hmem).alive, (h.use hmem).safe⟩

/-- Filling the array of the records reads them only. -/
theorem useAll {subs : List SubscriberId} (h : s.IsSubscriberList records)
    (hsubs : ∀ sub ∈ subs, sub ∈ records) :
    (s.useAll subs).IsSubscriberList records ∧ (s.useAll subs).contents = s.contents := by
  induction subs generalizing s with
  | nil => exact ⟨h, rfl⟩
  | cons sub rest ih =>
    obtain ⟨hsub, hrest⟩ := List.forall_mem_cons.mp hsubs
    exact ih (h.use hsub) hrest

theorem removeSubscriber {sub : SubscriberId} {before after : List SubscriberId}
    (h : s.IsSubscriberList (before ++ sub :: after)) :
    (s.removeSubscriber sub).IsSubscriberList (before ++ after) := by
  obtain ⟨hsafe, halive⟩ := removeSubscriber_trace h.chained h.safe h.alive
  have hnot := (List.nodup_cons.mp (List.nodup_middle.mp h.chained.nodup)).1
  have hsub : ∀ other ∈ before ++ after, other ∈ before ++ sub :: after :=
    (Chained.append_sublist_middle before after sub).subset
  refine ⟨?_, ?_, fun other hother ↦ ?_, hsafe⟩
  · rw [removeSubscriber_links]
    exact h.chained.remove not_false not_false
  · have hlength := h.length_le
    rw [removeSubscriber_created]
    rw [List.length_append, List.length_cons] at hlength
    rw [List.length_append]
    omega
  · exact (halive other).mpr
      ⟨h.alive other (hsub other hother), fun heq ↦ hnot (heq ▸ hother)⟩

/-- A loop over an array of the records, each of which stays in the list or is removed in its
turn. -/
theorem foldl {turn : SubscriberHeap → SubscriberId → SubscriberHeap} {I : SubscriberHeap → Prop}
    {keep : SubscriberId → Bool}
    (hturn : ∀ {s sub before after}, I s → s.IsSubscriberList (before ++ sub :: after) →
      I (turn s sub) ∧ (turn s sub).IsSubscriberList
        (if keep sub then before ++ sub :: after else before ++ after))
    (rest : List SubscriberId) : ∀ {s : SubscriberHeap} {kept : List SubscriberId}, I s →
      s.IsSubscriberList (kept ++ rest) →
      I (rest.foldl turn s) ∧ (rest.foldl turn s).IsSubscriberList (kept ++ rest.filter keep) := by
  induction rest with
  | nil => exact fun hI h ↦ ⟨hI, h⟩
  | cons sub rest ih =>
    intro s kept hI h
    obtain ⟨hI', h'⟩ := hturn hI h
    cases hkeep : keep sub with
    | true =>
      rw [hkeep, if_pos rfl, ← List.singleton_append, ← List.append_assoc] at h'
      rw [List.foldl_cons, List.filter_cons_of_pos hkeep, ← List.singleton_append,
        ← List.append_assoc]
      exact ih hI' h'
    | false =>
      rw [hkeep, if_neg Bool.false_ne_true] at h'
      rw [List.foldl_cons, List.filter_cons_of_neg (Bool.eq_false_iff.mp hkeep)]
      exact ih hI' h'

/-- The first loop leaves the records that have not expired. -/
theorem foldl_removeExpired (h : s.IsSubscriberList records) (now : ℤ) :
    (records.foldl (removeExpired now) (s.useAll records)).contents = s.contents ∧
      (records.foldl (removeExpired now) (s.useAll records)).IsSubscriberList
        (records.filter fun sub ↦ !(s.contents sub).isExpired now) := by
  obtain ⟨hlist, hcontents⟩ := h.useAll fun sub hmem ↦ hmem
  rw [← List.nil_append records] at hlist
  refine foldl (I := fun s' ↦ s'.contents = s.contents) (fun {s' sub before after} hI hlist' ↦ ?_)
    records hcontents hlist
  have hused := hlist'.use (List.mem_append_right before List.mem_cons_self)
  rw [removeExpired, hI]
  cases (s.contents sub).isExpired now with
  | true => exact ⟨by rw [if_pos rfl, removeSubscriber_contents, use_contents, hI],
      hused.removeSubscriber⟩
  | false => exact ⟨hI, hused⟩

/-- The second loop leaves the records whose subscriber has acknowledged. -/
theorem foldl_notify (h : s.IsSubscriberList records) (acknowledged : SubscriberId → Bool) :
    (records.foldl (notify acknowledged) (s.useAll records)).IsSubscriberList
      (records.filter acknowledged) := by
  obtain ⟨hlist, -⟩ := h.useAll fun sub hmem ↦ hmem
  rw [← List.nil_append records] at hlist
  refine (foldl (I := fun _ ↦ True) (fun {s' sub before after} _ hlist' ↦ ⟨trivial, ?_⟩)
    records trivial hlist).2
  have hmem : sub ∈ before ++ sub :: after := List.mem_append_right before List.mem_cons_self
  rw [notify]
  cases acknowledged sub with
  | true => exact hlist'.update hmem _
  | false => exact (hlist'.use hmem).removeSubscriber

end IsSubscriberList

/-! ### Messages and counts -/

theorem notify_contents (s : SubscriberHeap) (acknowledged : SubscriberId → Bool)
    (sub other : SubscriberId) : (s.notify acknowledged sub).contents other =
      if other = sub ∧ acknowledged sub = true then (s.contents other).incrementNotifyCount
      else s.contents other := by
  rw [notify]
  cases acknowledged sub with
  | true =>
    change (if other = sub then (s.contents sub).incrementNotifyCount else s.contents other) = _
    by_cases heq : other = sub
    · rw [if_pos heq, if_pos ⟨heq, rfl⟩, heq]
    · rw [if_neg heq, if_neg fun hboth ↦ heq hboth.1]
  | false =>
    rw [if_neg Bool.false_ne_true, removeSubscriber_contents, use_contents,
      if_neg fun hboth ↦ Bool.false_ne_true hboth.2]

/-- Assumes: an array without duplicates. The second loop counts once for each record whose
subscriber acknowledges. -/
theorem foldl_notify_contents (acknowledged : SubscriberId → Bool) {rest : List SubscriberId}
    (hnodup : rest.Nodup) (s : SubscriberHeap) (other : SubscriberId) :
    (rest.foldl (notify acknowledged) s).contents other =
      if other ∈ rest ∧ acknowledged other = true then (s.contents other).incrementNotifyCount
      else s.contents other := by
  induction rest generalizing s with
  | nil => exact (if_neg fun hboth ↦ List.not_mem_nil hboth.1).symm
  | cons sub rest ih =>
    obtain ⟨hsub, hrest⟩ := List.nodup_cons.mp hnodup
    rw [List.foldl_cons, ih hrest, notify_contents]
    by_cases heq : other = sub
    · subst heq
      simp [hsub]
    · simp [heq]

/-- Assumes: an array without duplicates. The second loop posts one notification for each record. -/
theorem foldl_notifySend (round : Round) (stateTable : List StateVariable)
    (answers : SubscriberId → NotifyAnswers) {rest : List SubscriberId} (hnodup : rest.Nodup)
    (s : SubscriberHeap) (posts : List PostedNotification) :
    rest.foldl (notifySend round stateTable answers) (s, posts) =
      (rest.foldl (notify fun sub ↦ (answers sub).isSuccessful) s,
        posts ++ rest.flatMap fun sub ↦
          (answers sub).posted ⟨sub, round.request stateTable (s.contents sub), stateTable⟩) := by
  induction rest generalizing s posts with
  | nil => rw [List.flatMap_nil, List.append_nil, List.foldl_nil, List.foldl_nil]
  | cons sub rest ih =>
    obtain ⟨hsub, hrest⟩ := List.nodup_cons.mp hnodup
    have hsame : ∀ other ∈ rest,
        (s.notify (fun sub ↦ (answers sub).isSuccessful) sub).contents other =
          s.contents other := by
      intro other hother
      rw [notify_contents]
      exact if_neg fun hboth : other = sub ∧ _ ↦ hsub (hboth.1 ▸ hother)
    rw [List.foldl_cons, List.foldl_cons, notifySend, ih hrest, List.flatMap_cons,
      List.append_assoc]
    refine congrArg (Prod.mk _) (congrArg (fun later ↦ posts ++ (_ ++ later)) ?_)
    exact List.flatMap_congr fun other hother ↦ by rw [hsame other hother]

/-! ### The round -/

/-- The two loops, over the records that they meet. -/
theorem IsSubscriberList.notifySending_eq {s : SubscriberHeap} {records : List SubscriberId}
    (h : s.IsSubscriberList records) (stateTable : List StateVariable) (round : Round) (now : ℤ)
    (answers : SubscriberId → NotifyAnswers) :
    let live := records.filter fun sub ↦ !(s.contents sub).isExpired now
    (s.notifySending stateTable round now answers).1.IsSubscriberList
        (live.filter fun sub ↦ (answers sub).isSuccessful) ∧
      (s.notifySending stateTable round now answers).2 =
        live.flatMap (fun sub ↦
          (answers sub).posted ⟨sub, round.request stateTable (s.contents sub), stateTable⟩) ∧
      ∀ sub, (s.notifySending stateTable round now answers).1.contents sub =
        if sub ∈ live ∧ (answers sub).isSuccessful = true then
          (s.contents sub).incrementNotifyCount
        else s.contents sub := by
  intro live
  obtain ⟨hcontents, hlive⟩ := h.foldl_removeExpired now
  have hround := foldl_notifySend round stateTable answers hlive.chained.nodup
  have hafter := hlive.foldl_notify fun sub ↦ (answers sub).isSuccessful
  obtain ⟨-, hsame⟩ := hlive.useAll fun sub hmem ↦ hmem
  unfold notifySending
  rw [h.subscribers_eq]
  dsimp only
  rw [hlive.subscribers_eq, hround]
  refine ⟨hafter, ?_, fun sub ↦ ?_⟩
  · rw [List.nil_append, hsame, hcontents]
  · rw [foldl_notify_contents _ hlive.chained.nodup, hsame, hcontents]

/-- The subscribers as values, each with its record. -/
def view (s : SubscriberHeap) : List (SubscriberId × Subscriber) :=
  s.subscribers.map fun sub ↦ (sub, s.contents sub)

/-- On the subscribers as values the round is the one of the list, and each of its notifications is
posted as the answers of its recipient ask for. -/
theorem notifySending_refines {s : SubscriberHeap} {records : List SubscriberId}
    (h : s.IsSubscriberList records) (stateTable : List StateVariable) (round : Round) (now : ℤ)
    (answers : SubscriberId → NotifyAnswers) :
    let notified := Event.notifyMain s.view stateTable round now fun sub ↦
      (answers sub).isSuccessful
    (s.notifySending stateTable round now answers).1.view = notified.1 ∧
      (s.notifySending stateTable round now answers).2 =
        notified.2.flatMap fun sent ↦ (answers sent.recipient).posted sent := by
  obtain ⟨hlist, hposts, hcontents⟩ := h.notifySending_eq stateTable round now answers
  unfold Event.notifyMain
  rw [view, view, hlist.subscribers_eq, h.subscribers_eq, hposts]
  dsimp only
  rw [List.filter_map, List.filterMap_map, List.map_map, List.flatMap_map]
  refine ⟨?_, rfl⟩
  rw [← List.filterMap_eq_filter (p := fun sub ↦ (answers sub).isSuccessful), List.map_filterMap]
  refine List.filterMap_congr fun sub hsub ↦ ?_
  cases hack : (answers sub).isSuccessful with
  | true =>
    have hcount := hcontents sub
    rw [if_pos ⟨hsub, hack⟩] at hcount
    simp [Option.guard, hack, hcount]
  | false => simp [Option.guard, hack]

end SubscriberHeap

end Mupnp.Event
