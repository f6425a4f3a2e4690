import Mupnp.Event.SubscriberLinks

/-!
# Sections under the service mutex

A notification round and a cancellation free records of the list. They keep `Linked` as long as no
thread has one of these records at hand (`Shrinks.notifyMain`, `Shrinks.unsubscribe`). `Shrinks`
is what holds between two turns of their loops.
-/

set_option autoImplicit false
set_option relaxedAutoImplicit false

namespace Mupnp.Event

open Foundation Util MemoryEvent

namespace SubscriberHeap

@[simp] theorem listRemove_threads (s : SubscriberHeap) (sub : SubscriberId) :
    (s.listRemove sub).threads = s.threads := by
  simp [listRemove]

@[simp] theorem listRemove_created (s : SubscriberHeap) (sub : SubscriberId) :
    (s.listRemove sub).created = s.created := by
  simp [listRemove]

@[simp] theorem listRemove_contents (s : SubscriberHeap) (sub : SubscriberId) :
    (s.listRemove sub).contents = s.contents := by
  simp [listRemove]

theorem alive_listRemove_trace (s : SubscriberHeap) (sub other : SubscriberId) :
    Alive (s.listRemove sub).trace other ↔ Alive s.trace other := by
  simp [listRemove]

theorem alloc_mem_listRemove_trace (s : SubscriberHeap) (sub other : SubscriberId) :
    .alloc other ∈ (s.listRemove sub).trace ↔ .alloc other ∈ s.trace := by
  simp [listRemove]

theorem safe_listRemove {s : SubscriberHeap} (hsafe : Safe s.trace) {sub : SubscriberId}
    (halive : Alive s.trace sub) (hprev : ∀ other ∈ s.links.prev (some sub), Alive s.trace other)
    (hnext : ∀ other ∈ s.links.next (some sub), Alive s.trace other) :
    Safe (s.listRemove sub).trace := by
  have hsub : ∀ other ∈ some sub, Alive s.trace other := by simpa using halive
  refine safe_use (safe_use (safe_use hsafe hsub) fun other hother ↦ ?_) fun other hother ↦ ?_
  · simpa using hprev other hother
  · simpa using hnext other hother

/-- The second removal from the list, by the destructor, changes no link. -/
theorem removeSubscriber_links (s : SubscriberHeap) (sub : SubscriberId) :
    (s.removeSubscriber sub).links = s.links.remove sub :=
  Links.remove_of_self (Links.remove_next_self s.links sub) (Links.remove_prev_self s.links sub)

@[simp] theorem removeSubscriber_threads (s : SubscriberHeap) (sub : SubscriberId) :
    (s.removeSubscriber sub).threads = s.threads := by
  simp [removeSubscriber, subscriberDelete]

@[simp] theorem removeSubscriber_created (s : SubscriberHeap) (sub : SubscriberId) :
    (s.removeSubscriber sub).created = s.created := by
  simp [removeSubscriber, subscriberDelete]

@[simp] theorem removeSubscriber_contents (s : SubscriberHeap) (sub : SubscriberId) :
    (s.removeSubscriber sub).contents = s.contents := by
  simp [removeSubscriber, subscriberDelete]

/-- Removing a record of a list whose records are alive uses none that is not, and frees that record
only. -/
theorem removeSubscriber_trace {s : SubscriberHeap} {opened : Option SubscriberId → Prop}
    {before after : List SubscriberId} {sub : SubscriberId}
    (hchained : Chained s.links opened (before ++ sub :: after)) (hsafe : Safe s.trace)
    (halive : ∀ other ∈ before ++ sub :: after, Alive s.trace other) :
    Safe (s.removeSubscriber sub).trace ∧ ∀ other,
      Alive (s.removeSubscriber sub).trace other ↔ Alive s.trace other ∧ other ≠ sub := by
  have hmem : sub ∈ before ++ sub :: after := List.mem_append_right _ List.mem_cons_self
  have hkept : ∀ other, Alive ((s.listRemove sub).listRemove sub).trace other ↔
      Alive s.trace other := fun other ↦
    (alive_listRemove_trace _ sub other).trans (alive_listRemove_trace s sub other)
  have hfirst : Safe (s.listRemove sub).trace := by
    refine safe_listRemove hsafe (halive sub hmem) (fun other hother ↦ halive other ?_)
      fun other hother ↦ halive other ?_
    · have hprev : s.links.prev (some sub) = before.getLast? :=
        hchained.prev before (sub :: after) rfl
      rw [hprev] at hother
      exact List.mem_append_left _ (List.mem_of_getLast? hother)
    · exact hchained.mem_of_next (by simp) hother
  have hself : Alive (s.listRemove sub).trace sub :=
    (alive_listRemove_trace s sub sub).mpr (halive sub hmem)
  have hlinks : (s.listRemove sub).links = s.links.remove sub := rfl
  have hsecond : Safe ((s.listRemove sub).listRemove sub).trace := by
    refine safe_listRemove hfirst hself (fun other hother ↦ ?_) fun other hother ↦ ?_
    · rw [hlinks, Links.remove_prev_self] at hother
      rwa [← Option.some.inj hother]
    · rw [hlinks, Links.remove_next_self] at hother
      rwa [← Option.some.inj hother]
  exact ⟨⟨(hkept sub).mpr (halive sub hmem), hsecond⟩,
    fun other ↦ alive_free.trans (and_congr_left' (hkept other))⟩

namespace Linked

variable {s : SubscriberHeap} {records : List SubscriberId}

/-- A walk through the list meets the records up to the first one that is linked back only. -/
theorem mem_subscribers_iff (h : s.Linked records) {sub : SubscriberId} :
    sub ∈ s.subscribers ↔ Chained.Reached s.Opened records sub :=
  h.chained.mem_walk_iff h.length_le

theorem subscribers_nodup (h : s.Linked records) : s.subscribers.Nodup :=
  h.chained.walk_nodup s.created

/-- A record that is linked back only stays after the same cursor when another one is removed. -/
theorem cut_after_of_remove {before after front back : List SubscriberId}
    {sub other : SubscriberId} (hcut : before ++ sub :: after = front ++ other :: back)
    (hbefore : front.getLast? ≠ before.getLast?) (hsub : front.getLast? ≠ some sub) :
    ∃ front' back', before ++ after = front' ++ other :: back' ∧
      front'.getLast? = front.getLast? := by
  have hplace : ∀ {between rest : List SubscriberId}, front = before ++ between →
      sub :: after = between ++ rest → ∃ tail, between = sub :: tail ∧ tail ≠ [] := by
    intro between rest hfront hafter
    rcases List.cons_eq_append_iff.mp hafter with ⟨rfl, -⟩ | ⟨tail, rfl, -⟩
    · exact absurd (by rw [hfront, List.append_nil]) hbefore
    · refine ⟨tail, rfl, fun hnil ↦ hsub ?_⟩
      rw [hfront, hnil]
      simp
  rcases List.append_eq_append_iff.mp hcut with ⟨between, hfront, hafter⟩ |
    ⟨between, hfront, hback⟩
  · obtain ⟨tail, rfl, htail⟩ := hplace hfront hafter
    have hafter' : after = tail ++ other :: back := (List.cons.inj hafter).2
    refine ⟨before ++ tail, back, ?_, ?_⟩
    · rw [hafter', List.append_assoc]
    · rw [hfront, List.getLast?_append_of_ne_nil _ htail,
        List.getLast?_append_of_ne_nil _ (List.cons_ne_nil _ _),
        List.getLast?_cons_of_ne_nil htail]
  · rcases List.cons_eq_append_iff.mp hback with ⟨rfl, -⟩ | ⟨tail, rfl, htail⟩
    · exact absurd (by rw [hfront, List.append_nil]) hbefore
    · exact ⟨front, tail ++ after, by simp [hfront], rfl⟩

/-- Removing a record changes the next link of its predecessor and its own only. -/
theorem next_remove {before after : List SubscriberId} {sub : SubscriberId}
    (h : s.Linked (before ++ sub :: after)) (hclosed : ¬ s.Opened before.getLast?)
    {list : Option SubscriberId} (hlist : list ≠ some sub) (hnext : s.links.next list ≠ some sub) :
    (s.links.remove sub).next list = s.links.next list := by
  have hprev : s.links.prev (some sub) = before.getLast? :=
    h.chained.prev before (sub :: after) rfl
  rw [Links.remove_next_of_ne hlist, hprev]
  refine if_neg ?_
  rintro rfl
  exact hnext (h.chained.next before (sub :: after) rfl hclosed)

/-- A thread does not notice that a record is removed that it does not have at hand. -/
theorem ok_remove {before after : List SubscriberId} {sub : SubscriberId}
    (h : s.Linked (before ++ sub :: after)) (hclosed : ¬ s.Opened before.getLast?) {t : ℕ}
    (hheld : ¬ (s.thread t).Holds s.links sub) :
    (s.thread t).Ok (s.links.remove sub) (before ++ after) := by
  have hok := h.ok t
  have hprev : s.links.prev (some sub) = before.getLast? :=
    h.chained.prev before (sub :: after) rfl
  have hsubMem : sub ∈ before ++ sub :: after := List.mem_append_right _ List.mem_cons_self
  have hmem : ∀ other, other ∈ before ++ sub :: after → other ≠ sub → other ∈ before ++ after := by
    intro other hother hne
    simpa [hne] using hother
  have hnotMem : ∀ other, other ∉ before ++ sub :: after → other ∉ before ++ after :=
    fun other hother hmem' ↦ hother ((Chained.append_sublist_middle before after sub).subset hmem')
  have hlast : ∀ cursor, cursor = (before ++ sub :: after).getLast? → cursor ≠ some sub →
      cursor = (before ++ after).getLast? := by
    intro cursor hcursor hne
    by_cases hnil : after = []
    · subst hnil
      exact absurd (by simpa using hcursor) hne
    · rw [hcursor, List.getLast?_append_of_ne_nil _ hnil,
        List.getLast?_append_of_ne_nil _ (List.cons_ne_nil _ _),
        List.getLast?_cons_of_ne_nil hnil]
  have hownPrev : ∀ other, other ∉ before ++ sub :: after →
      (s.links.remove sub).prev (some other) = s.links.prev (some other) := by
    intro other hother
    have hne : (some other : Option ℕ) ≠ some sub := fun heq ↦
      hother (Option.some.inj heq ▸ hsubMem)
    rw [Links.remove_prev_of_ne hne]
    refine if_neg fun heq ↦ hother ?_
    exact h.chained.mem_of_next (by simp) heq.symm
  have hownNext : ∀ other, other ∉ before ++ sub :: after →
      (s.links.remove sub).next (some other) = s.links.next (some other) := by
    intro other hother
    have hne : (some other : Option ℕ) ≠ some sub := fun heq ↦
      hother (Option.some.inj heq ▸ hsubMem)
    rw [Links.remove_next_of_ne hne]
    refine if_neg fun heq ↦ hother ?_
    rw [hprev] at heq
    exact List.mem_append_left _ (List.mem_of_getLast? heq.symm)
  cases hthread : s.thread t with
  | idle => trivial
  | creating other sid timeout stage =>
    rw [hthread] at hok
    exact hnotMem other hok
  | inserting other prevList stage =>
    rw [hthread] at hok hheld
    cases stage with
    | setPrev => exact ⟨hnotMem other hok.1, hlast _ hok.2 hheld⟩
    | setNext =>
      exact ⟨hnotMem other hok.1, hlast _ hok.2.1 hheld, (hownPrev other hok.1).trans hok.2.2⟩
    | setNextPrev =>
      exact ⟨hnotMem other hok.1, hlast _ hok.2.1 hheld, (hownPrev other hok.1).trans hok.2.2.1,
        (hownNext other hok.1).trans hok.2.2.2⟩
    | setPrevNext =>
      obtain ⟨front, back, hcut, rfl⟩ := hok
      have hopened : s.Opened front.getLast? := ⟨t, by rw [hthread]; rfl⟩
      exact cut_after_of_remove hcut (fun heq ↦ hclosed (heq ▸ hopened)) hheld
  | seeking request list stage =>
    rw [hthread] at hok hheld
    have hlist : list ≠ some sub → (∀ other ∈ list, other ∈ before ++ sub :: after) →
        ∀ other ∈ list, other ∈ before ++ after := fun hne hall other hother ↦
      hmem other (hall other hother) fun heq ↦ hne (heq ▸ hother)
    cases stage with
    | testNull => exact hlist hheld hok
    | testHead => exact hlist hheld hok
    | takeNext =>
      obtain ⟨hne, hnext⟩ := not_or.mp hheld
      exact ⟨hlist hne hok.1, by rw [h.next_remove hclosed hne hnext]; exact hok.2⟩
  | renewing request held stage =>
    rw [hthread] at hok hheld
    exact hmem held hok hheld
  | strayed =>
    rw [hthread] at hok
    exact hok

/-- Removing a record from the list that no thread has at hand. -/
theorem removeSubscriber (h : s.Linked records) {sub : SubscriberId} (hsub : sub ∈ s.subscribers)
    (hheld : ∀ t, ¬ (s.thread t).Holds s.links sub) :
    ∃ records', (s.removeSubscriber sub).Linked records' ∧
      (∀ t other, (s.thread t).Holds (s.links.remove sub) other →
        (s.thread t).Holds s.links other) ∧
      ∀ other, other ∈ (s.removeSubscriber sub).subscribers ↔
        other ≠ sub ∧ other ∈ s.subscribers := by
  obtain ⟨before, after, rfl, hreached⟩ := h.mem_subscribers_iff.mp hsub
  have hclosed : ¬ s.Opened before.getLast? := hreached before [] (List.append_nil before).symm
  have hnotOpened : ¬ s.Opened (some sub) := by
    rintro ⟨t, hopens⟩
    refine hheld t ?_
    have hprevList := SubscriberThread.prevList_of_opens hopens
    cases hthread : s.thread t with
    | inserting other prevList stage =>
      rw [hthread] at hprevList
      exact Option.some.inj hprevList
    | idle | creating | seeking | renewing | strayed =>
      rw [hthread] at hprevList
      cases hprevList
  have hthread : ∀ t, (s.removeSubscriber sub).thread t = s.thread t := fun t ↦ by
    rw [thread, removeSubscriber_threads, thread]
  have hopened : (s.removeSubscriber sub).Opened = s.Opened := by
    funext cursor
    simp only [Opened, hthread]
  have hmem : sub ∈ before ++ sub :: after := List.mem_append_right _ List.mem_cons_self
  obtain ⟨hsafe, hfreed⟩ :=
    removeSubscriber_trace h.chained h.safe fun other hother ↦ h.alive_of_mem hother
  have hlinked : (s.removeSubscriber sub).Linked (before ++ after) := by
    refine ⟨?_, hsafe, fun other ↦ ?_,
      fun other hother ↦ ?_, fun t ↦ ?_, fun t t' other ↦ ?_, fun t t' cursor ↦ ?_⟩
    · rw [removeSubscriber_links, hopened]
      exact h.chained.remove hclosed hnotOpened
    · have hnotMem := (List.nodup_cons.mp (List.nodup_middle.mp h.chained.nodup)).1
      rw [hfreed other, h.alive other]
      simp only [hthread]
      constructor
      · rintro ⟨hother | howner, hne⟩
        · exact .inl (by simpa [hne] using hother)
        · exact .inr howner
      · rintro (hother | ⟨t, howner⟩)
        · exact ⟨.inl ((Chained.append_sublist_middle before after sub).subset hother),
            fun heq ↦ hnotMem (heq ▸ hother)⟩
        · exact ⟨.inr ⟨t, howner⟩, fun heq ↦ h.not_mem_of_owns howner (heq ▸ hmem)⟩
    · rw [removeSubscriber_created]
      rcases List.mem_cons.mp hother with heq | hearlier
      · cases heq
      · refine h.lt_created other ?_
        rwa [alloc_mem_listRemove_trace, alloc_mem_listRemove_trace] at hearlier
    · rw [hthread, removeSubscriber_links]
      exact h.ok_remove hclosed (hheld t)
    · rw [hthread, hthread]
      exact h.owns_unique t t' other
    · rw [hthread, hthread]
      exact h.prevList_unique t t' cursor
  refine ⟨before ++ after, hlinked, fun t other hother ↦ ?_, fun other ↦ ?_⟩
  · have hnot := hheld t
    cases hthread' : s.thread t with
    | seeking request list stage =>
      rw [hthread'] at hother hnot
      cases stage with
      | testNull | testHead => exact hother
      | takeNext =>
        obtain ⟨hne, hnext⟩ := not_or.mp hnot
        rwa [SubscriberThread.Holds, h.next_remove hclosed hne hnext] at hother
    | idle | creating | inserting | renewing | strayed =>
      rw [hthread'] at hother
      exact hother
  · rw [hlinked.mem_subscribers_iff, hopened,
      Chained.reached_remove_iff h.chained.nodup hnotOpened, h.mem_subscribers_iff]

end Linked

/-- A section under the mutex that has begun in `s₀`, up to now. -/
structure Shrinks (s₀ s : SubscriberHeap) : Prop where
  linked : ∃ records, s.Linked records
  threads : s.threads = s₀.threads
  holds : ∀ t sub, (s.thread t).Holds s.links sub → (s₀.thread t).Holds s₀.links sub
  subscribers : ∀ sub ∈ s.subscribers, sub ∈ s₀.subscribers

namespace Shrinks

variable {s₀ s : SubscriberHeap} {sub : SubscriberId}

theorem refl {records : List SubscriberId} (h : s₀.Linked records) : Shrinks s₀ s₀ :=
  ⟨⟨records, h⟩, rfl, fun _ _ hholds ↦ hholds, fun _ hmem ↦ hmem⟩

theorem alive (h : Shrinks s₀ s) (hmem : sub ∈ s.subscribers) : Alive s.trace sub := by
  obtain ⟨records, hlinked⟩ := h.linked
  exact hlinked.alive_of_mem (hlinked.mem_subscribers_iff.mp hmem).mem

theorem update (h : Shrinks s₀ s) (hmem : sub ∈ s.subscribers)
    (change : Subscriber → Subscriber) : Shrinks s₀ (s.update sub change) := by
  obtain ⟨records, hlinked⟩ := h.linked
  exact ⟨⟨records, hlinked.update (h.alive hmem) change⟩, h.threads, h.holds, h.subscribers⟩

theorem use (h : Shrinks s₀ s) (hmem : sub ∈ s.subscribers) : Shrinks s₀ (s.use (some sub)) := by
  obtain ⟨records, hlinked⟩ := h.linked
  have halive := h.alive hmem
  refine ⟨⟨records, hlinked.use (some sub) fun other hother ↦ ?_⟩, h.threads, h.holds,
    h.subscribers⟩
  rw [Option.mem_some_iff.mp hother] at halive
  exact halive

theorem removeSubscriber (h : Shrinks s₀ s) (hmem : sub ∈ s.subscribers)
    (hheld : ∀ t, ¬ (s₀.thread t).Holds s₀.links sub) :
    Shrinks s₀ (s.removeSubscriber sub) ∧
      ∀ other ∈ s.subscribers, other ≠ sub → other ∈ (s.removeSubscriber sub).subscribers := by
  obtain ⟨records, hlinked⟩ := h.linked
  obtain ⟨records', hlinked', hholds, hsubscribers⟩ :=
    hlinked.removeSubscriber hmem fun t hholds ↦ hheld t (h.holds t sub hholds)
  refine ⟨⟨⟨records', hlinked'⟩, ?_, fun t other hother ↦ ?_, fun other hother ↦ ?_⟩,
    fun other hother hne ↦ (hsubscribers other).mpr ⟨hne, hother⟩⟩
  · rw [removeSubscriber_threads, h.threads]
  · rw [removeSubscriber_links, thread, removeSubscriber_threads] at hother
    exact h.holds t other (hholds t other hother)
  · exact h.subscribers other ((hsubscribers other).mp hother).2

/-- A loop over records of the list whose turns keep the records of the later turns in the list. -/
theorem foldl {turn : SubscriberHeap → SubscriberId → SubscriberHeap} {I : SubscriberHeap → Prop}
    {subs : List SubscriberId}
    (hturn : ∀ s sub, Shrinks s₀ s → I s → sub ∈ s.subscribers → sub ∈ subs →
      Shrinks s₀ (turn s sub) ∧ I (turn s sub) ∧
        ∀ other ∈ s.subscribers, other ≠ sub → other ∈ (turn s sub).subscribers)
    (h : Shrinks s₀ s) (hI : I s) (hnodup : subs.Nodup)
    (hsubs : ∀ sub ∈ subs, sub ∈ s.subscribers) :
    Shrinks s₀ (subs.foldl turn s) := by
  induction subs generalizing s with
  | nil => exact h
  | cons sub rest ih =>
    obtain ⟨hnext, hI', hkept⟩ :=
      hturn s sub h hI (hsubs sub List.mem_cons_self) List.mem_cons_self
    obtain ⟨hsub, hrest⟩ := List.nodup_cons.mp hnodup
    refine ih (fun s sub hs hI hmem hin ↦ hturn s sub hs hI hmem (List.mem_cons_of_mem _ hin))
      hnext hI' hrest fun other hother ↦ ?_
    exact hkept other (hsubs other (List.mem_cons_of_mem _ hother)) fun heq ↦ hsub (heq ▸ hother)

theorem useAll (h : Shrinks s₀ s) {subs : List SubscriberId}
    (hsubs : ∀ sub ∈ subs, sub ∈ s.subscribers) :
    Shrinks s₀ (s.useAll subs) ∧ (s.useAll subs).links = s.links ∧
      (s.useAll subs).created = s.created ∧ (s.useAll subs).contents = s.contents := by
  induction subs generalizing s with
  | nil => exact ⟨h, rfl, rfl, rfl⟩
  | cons sub rest ih =>
    exact ih (h.use (hsubs sub List.mem_cons_self)) fun other hother ↦
      hsubs other (List.mem_cons_of_mem _ hother)

/-- A notification round. -/
theorem notifyMain {records : List SubscriberId} (h : s₀.Linked records) {now : ℤ}
    {acknowledged : SubscriberId → Bool}
    (hheld : ∀ sub ∈ s₀.subscribers,
      (s₀.contents sub).isExpired now = true ∨ acknowledged sub = false →
        ∀ t, ¬ (s₀.thread t).Holds s₀.links sub) :
    Shrinks s₀ (s₀.notifyMain now acknowledged) := by
  have hexpired : Shrinks s₀
      (s₀.subscribers.foldl (removeExpired now) (s₀.useAll s₀.subscribers)) := by
    obtain ⟨hall, hlinks, hcreated, hcontents⟩ := (refl h).useAll fun sub hmem ↦ hmem
    refine hall.foldl (I := fun s ↦ s.contents = s₀.contents) (fun s sub hs hI hmem hin ↦ ?_)
      hcontents h.subscribers_nodup fun sub hmem ↦ ?_
    · rw [removeExpired]
      split_ifs with hexp
      · have hremove := (hs.use hmem).removeSubscriber hmem (hheld sub hin (.inl (hI ▸ hexp)))
        exact ⟨hremove.1, by rw [removeSubscriber_contents, use_contents, hI], hremove.2⟩
      · exact ⟨hs.use hmem, hI, fun other hother _ ↦ hother⟩
    · rwa [SubscriberHeap.subscribers, hlinks, hcreated]
  obtain ⟨records', hlinked⟩ := hexpired.linked
  obtain ⟨hall, hlinks, hcreated, -⟩ := hexpired.useAll fun sub hmem ↦ hmem
  refine hall.foldl (I := fun _ ↦ True) (fun s sub hs _ hmem hin ↦ ?_) trivial
    hlinked.subscribers_nodup fun sub hmem ↦ ?_
  · rw [notify]
    split_ifs with hack
    · exact ⟨hs.update hmem _, trivial, fun other hother _ ↦ hother⟩
    · have hremove := (hs.use hmem).removeSubscriber hmem
        (hheld sub (hexpired.subscribers sub hin) (.inr (by simpa using hack)))
      exact ⟨hremove.1, trivial, hremove.2⟩
  · rwa [SubscriberHeap.subscribers, hlinks, hcreated]

/-- The lookup by SID finds the first record with it. -/
theorem findBySid (h : Shrinks s₀ s) (sid : Option CString) {subs : List SubscriberId}
    (hsubs : ∀ sub ∈ subs, sub ∈ s.subscribers) :
    Shrinks s₀ (s.findBySid sid subs).1 ∧
      (s.findBySid sid subs).1.subscribers = s.subscribers ∧
      (s.findBySid sid subs).2 = subs.find? (s.isSid sid) := by
  induction subs generalizing s with
  | nil => exact ⟨h, rfl, rfl⟩
  | cons sub rest ih =>
    have hused := h.use (hsubs sub List.mem_cons_self)
    rw [SubscriberHeap.findBySid, List.find?_cons]
    cases hsid : s.isSid sid sub with
    | true => exact ⟨hused, rfl, rfl⟩
    | false =>
      exact ih hused fun other hother ↦ hsubs other (List.mem_cons_of_mem _ hother)

/-- A cancellation. -/
theorem unsubscribe {records : List SubscriberId} (h : s₀.Linked records) {sid : Option CString}
    (hheld : ∀ sub, 0 < strlen sid → s₀.subscribers.find? (s₀.isSid sid) = some sub →
      ∀ t, ¬ (s₀.thread t).Holds s₀.links sub) : Shrinks s₀ (s₀.unsubscribe sid) := by
  obtain ⟨hfound, hsubscribers, hfind⟩ := (refl h).findBySid sid fun sub hmem ↦ hmem
  rw [SubscriberHeap.unsubscribe]
  split_ifs with hsid
  · exact refl h
  · split
    · rename_i found hnone
      rw [hnone] at hfound
      exact hfound
    · rename_i found sub hsome
      rw [hsome] at hfound hsubscribers hfind
      have hmem : sub ∈ found.subscribers := by
        rw [hsubscribers]
        exact List.mem_of_find?_eq_some hfind.symm
      exact (hfound.removeSubscriber hmem (hheld sub (Nat.lt_of_not_le hsid) hfind.symm)).1

end Shrinks

end SubscriberHeap

end Mupnp.Event
