import Mupnp.Event.SubscriberSections

/-!
# No subscriber record is used after it was freed

A step is `Guarded` when it frees no record that another thread has at hand outside of the mutex,
and starts no insertion after a record that is already the predecessor in an insertion. In a run
of guarded steps every record is freed at most once and not used afterwards, no thread takes the
head of the list for a record, and a record that was not freed is in the list unless a
subscription is still being inserted (`records_freed_once_of_run`). A thread that works alone
takes guarded steps only (`allSteps_guarded_of_alone`).
-/

set_option autoImplicit false
set_option relaxedAutoImplicit false

namespace Mupnp.Event

open Foundation Util MemoryEvent

/-- The thread that takes a step. -/
def SubscriberAction.thread : SubscriberAction → ℕ
  | .subscribe t _ _ _ | .renew t _ _ | .statement t _ | .unsubscribe t _ | .round t _ _ => t

namespace SubscriberHeap

/-- The records that a step is going to free. -/
def Removes (s : SubscriberHeap) (sub : SubscriberId) : SubscriberAction → Prop
  | .unsubscribe t sid =>
    s.thread t = .idle ∧ 0 < strlen sid ∧ s.subscribers.find? (s.isSid sid) = some sub
  | .round t now acknowledged =>
    s.thread t = .idle ∧ sub ∈ s.subscribers ∧
      ((s.contents sub).isExpired now = true ∨ acknowledged sub = false)
  | _ => False

/-- A step frees no record that a thread has at hand, and starts no insertion after a record that is
already the predecessor in an insertion. -/
structure Guarded (s : SubscriberHeap) (a : SubscriberAction) : Prop where
  not_held : ∀ sub, s.Removes sub a → ∀ t, ¬ (s.thread t).Holds s.links sub
  not_inserting : ∀ t now sub sid timeout, a = .statement t now →
    s.thread t = .creating sub sid timeout .add →
    ∀ t', (s.thread t').prevList ≠ some (s.links.prev none)

/-! ### Runs -/

theorem linked_init : init.Linked [] where
  chained := by
    refine Chained.init.congr (fun _ _ ↦ rfl) (fun _ _ ↦ rfl) fun _ _ ↦ iff_of_false ?_ not_false
    rintro ⟨_, hopens⟩
    cases hopens
  safe := trivial
  alive := fun _ ↦ by
    refine iff_of_false (fun halive ↦ List.not_mem_nil halive.1) ?_
    rintro (hmem | ⟨_, howner⟩)
    · cases hmem
    · cases howner
  lt_created := fun _ hmem ↦ absurd hmem List.not_mem_nil
  ok := fun _ ↦ trivial
  owns_unique := fun _ _ _ howner ↦ by cases howner
  prevList_unique := fun _ _ _ hprevList ↦ by cases hprevList

/-- A guarded step keeps the records linked. -/
theorem linked_of_step {s s' : SubscriberHeap} {a : SubscriberAction}
    (h : ∃ records, s.Linked records) (hguarded : s.Guarded a) (hstep : s.step a = some s') :
    ∃ records, s'.Linked records := by
  obtain ⟨records, hlinked⟩ := h
  cases a with
  | subscribe t sid timeout now =>
    simp only [step] at hstep
    split at hstep
    · rename_i hidle
      obtain rfl := Option.some.inj hstep
      exact ⟨records, hlinked.subscriberNew hidle sid timeout now⟩
    · cases hstep
  | renew t sid timeout =>
    simp only [step] at hstep
    split at hstep
    · rename_i hidle
      obtain rfl := Option.some.inj hstep
      refine ⟨records, ?_⟩
      split_ifs
      · refine hlinked.goTo trivial ?_ ?_ fun _ _ _ hcursor ↦ by cases hcursor
        · rw [hidle]
        · rw [hidle]
      · refine hlinked.goTo (fun sub hsub ↦ by cases hsub) ?_ ?_ fun _ _ _
          hcursor ↦ by cases hcursor
        · rw [hidle]
          rfl
        · rw [hidle]
          rfl
    · cases hstep
  | statement t now =>
    exact hlinked.statement
      (fun sub sid timeout ↦ hguarded.not_inserting t now sub sid timeout rfl) hstep
  | unsubscribe t sid =>
    simp only [step] at hstep
    split at hstep
    · rename_i hidle
      obtain rfl := Option.some.inj hstep
      exact (Shrinks.unsubscribe hlinked fun sub hsid hfind ↦
        hguarded.not_held sub ⟨hidle, hsid, hfind⟩).linked
    · cases hstep
  | round t now acknowledged =>
    simp only [step] at hstep
    split at hstep
    · rename_i hidle
      obtain rfl := Option.some.inj hstep
      exact (Shrinks.notifyMain hlinked fun sub hmem hremoved ↦
        hguarded.not_held sub ⟨hidle, hmem, hremoved⟩).linked
    · cases hstep

/-- A run of guarded steps keeps the records linked. -/
theorem linked_of_run {actions : List SubscriberAction} {s : SubscriberHeap}
    (hguarded : subscriberLifecycle.AllSteps Guarded init actions)
    (hrun : subscriberLifecycle.run init actions = some s) : ∃ records, s.Linked records :=
  TransitionSystem.invariant_of_run_of_allSteps (I := fun s ↦ ∃ records, s.Linked records)
    (fun _ _ _ h hg hs ↦ linked_of_step h hg hs) hguarded ⟨[], linked_init⟩ hrun

/-- No cursor is open when no subscription is under way. -/
theorem not_opened_of_quiet {s : SubscriberHeap} (hquiet : ∀ t, ¬ (s.thread t).Subscribing)
    (cursor : Option SubscriberId) : ¬ s.Opened cursor := by
  rintro ⟨t, hopens⟩
  have hnot := hquiet t
  cases hthread : s.thread t with
  | inserting other prevList stage =>
    rw [hthread] at hnot
    exact hnot trivial
  | idle | creating | seeking | renewing | strayed =>
    rw [hthread] at hopens
    cases hopens

/-- A record that is alive is in the list when no subscription is under way. -/
theorem Linked.mem_subscribers_of_alive {s : SubscriberHeap} {records : List SubscriberId}
    (h : s.Linked records) (hquiet : ∀ t, ¬ (s.thread t).Subscribing) {sub : SubscriberId}
    (halive : Alive s.trace sub) : sub ∈ s.subscribers := by
  have hclosed := not_opened_of_quiet hquiet
  have hmem : sub ∈ records := by
    rcases (h.alive sub).mp halive with hmem | ⟨t, howner⟩
    · exact hmem
    · have hnot := hquiet t
      cases hthread : s.thread t with
      | creating | inserting =>
        rw [hthread] at hnot
        exact absurd trivial hnot
      | idle | seeking | renewing | strayed =>
        rw [hthread] at howner
        cases howner
  obtain ⟨front, back, hrecords⟩ := List.append_of_mem hmem
  exact h.mem_subscribers_iff.mpr ⟨front, back, hrecords, fun first _ _ ↦ hclosed _⟩

/-- In every run of guarded steps no record is used after it was freed, no record is freed twice, no
thread takes the head of the list for a record, and a record is freed or in the list unless a
subscription is under way. -/
theorem records_freed_once_of_run (actions : List SubscriberAction) (s : SubscriberHeap)
    (hguarded : subscriberLifecycle.AllSteps Guarded init actions)
    (hrun : subscriberLifecycle.run init actions = some s) :
    Safe s.trace ∧ (∀ sub, s.trace.count (.free sub) ≤ 1) ∧ (∀ t, s.thread t ≠ .strayed) ∧
      ((∀ t, ¬ (s.thread t).Subscribing) → ∀ sub, .alloc sub ∈ s.trace →
        .free sub ∈ s.trace ∨ sub ∈ s.subscribers) := by
  obtain ⟨records, hlinked⟩ := linked_of_run hguarded hrun
  refine ⟨hlinked.safe, hlinked.safe.count_free_le_one, fun t hstrayed ↦ ?_,
    fun hquiet sub halloc ↦ ?_⟩
  · have hok := hlinked.ok t
    rw [hstrayed] at hok
    exact hok
  · by_cases hfree : .free sub ∈ s.trace
    · exact .inl hfree
    · exact .inr (hlinked.mem_subscribers_of_alive hquiet ⟨halloc, hfree⟩)

/-! ### A single thread -/

/-- A thread that has no record of the list at hand. -/
def isOutside : SubscriberThread → Bool
  | .idle | .creating .. => true
  | _ => false

/-- A check that a step is guarded: nothing is removed while a thread has a record at hand. -/
def isGuarded (s : SubscriberHeap) (a : SubscriberAction) : Bool :=
  match a with
  | .subscribe .. | .renew .. => true
  | .statement t _ =>
    match s.thread t with
    | .creating _ _ _ .add =>
      s.threads.allExcept (fun _ ↦ false) fun thread ↦
        decide (thread.prevList ≠ some (s.links.prev none))
    | _ => true
  | .unsubscribe .. | .round .. => s.threads.allExcept (fun _ ↦ false) isOutside

theorem guarded_of_isGuarded {s : SubscriberHeap} {a : SubscriberAction}
    (h : s.isGuarded a = true) : s.Guarded a := by
  have houtside : s.threads.allExcept (fun _ ↦ false) isOutside = true → ∀ sub t,
      ¬ (s.thread t).Holds s.links sub := by
    intro hall sub t hholds
    have hthread : isOutside (s.thread t) = true := ThreadTable.get_of_allExcept hall rfl rfl
    cases hcase : s.thread t with
    | idle | creating =>
      rw [hcase] at hholds
      exact hholds
    | inserting | seeking | renewing | strayed =>
      rw [hcase] at hthread
      cases hthread
  refine ⟨fun sub hremoves ↦ ?_, fun t now sub sid timeout ha hthread t' ↦ ?_⟩
  · cases a with
    | unsubscribe | round => exact houtside h sub
    | subscribe | renew | statement => exact hremoves.elim
  · subst ha
    simp only [isGuarded, hthread] at h
    have hidle : (SubscriberThread.idle).prevList ≠ some (s.links.prev none) := by
      rintro ⟨⟩
    exact of_decide_eq_true (ThreadTable.get_of_allExcept h (decide_eq_true hidle) rfl)

/-- A thread inserts a subscriber, statement by statement. -/
def subscribing : List SubscriberAction :=
  .subscribe 0 "1".toList 100 0 :: List.replicate 8 (.statement 0 0)

/-- Two threads create a subscriber each at the same time and insert one after the other. -/
def subscribingBoth : List SubscriberAction :=
  [.subscribe 0 "1".toList 100 0, .subscribe 1 "2".toList 200 0, .statement 0 0, .statement 1 0,
    .statement 1 0, .statement 0 0, .statement 0 0, .statement 1 0] ++
    List.replicate 5 (.statement 0 0) ++ List.replicate 5 (.statement 1 0)

/-- A third thread cancels the first of two subscriptions that two threads have made. -/
theorem records_freed_once_of_run_cancelled :
    ∃ s, subscriberLifecycle.run init
        (subscribingBoth ++ [.unsubscribe 2 (some "1".toList)]) = some s ∧
      .free 0 ∈ s.trace ∧ s.subscribers = [1] ∧
      (Safe s.trace ∧ (∀ sub, s.trace.count (.free sub) ≤ 1) ∧ (∀ t, s.thread t ≠ .strayed) ∧
        ((∀ t, ¬ (s.thread t).Subscribing) → ∀ sub, .alloc sub ∈ s.trace →
          .free sub ∈ s.trace ∨ sub ∈ s.subscribers)) := by
  have hchecked : subscriberLifecycle.AllSteps (fun s a ↦ s.isGuarded a = true) init
      (subscribingBoth ++ [.unsubscribe 2 (some "1".toList)]) := by decide +kernel
  exact ⟨_, rfl, by decide, by decide, records_freed_once_of_run
    (subscribingBoth ++ [.unsubscribe 2 (some "1".toList)]) _
    (hchecked.imp fun _ _ ↦ guarded_of_isGuarded) rfl⟩

/-- A renewal of the subscriber up to the comparison of its SID, after which it sets the timeout. -/
def renewingFirst : List SubscriberAction :=
  .renew 1 (some "1".toList) 100 :: List.replicate 6 (.statement 1 0)

/-- Another thread cancels the subscription between the lookup of a renewal and the first assignment
to the record. -/
theorem not_records_freed_once :
    ¬ ∀ (actions : List SubscriberAction) (s : SubscriberHeap),
      subscriberLifecycle.run init actions = some s →
      Safe s.trace ∧ ∀ sub, s.trace.count (.free sub) ≤ 1 := by
  intro hclaim
  obtain ⟨s, hrun, hunsafe⟩ : ∃ s, subscriberLifecycle.run init (subscribing ++ renewingFirst ++
      [.unsubscribe 2 (some "1".toList), .statement 1 0]) = some s ∧ ¬ Safe s.trace :=
    ⟨_, rfl, by decide⟩
  exact hunsafe (hclaim _ s hrun).1

end SubscriberHeap

end Mupnp.Event
