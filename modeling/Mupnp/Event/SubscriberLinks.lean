import Mupnp.Event.SubscriberLifecycle

/-!
# The list of the subscribers during insertions

`Linked` is the invariant of the subscriber records: the records in the list and those that a
subscription still owns are exactly the ones that are alive, every record that a thread has at
hand is in the list, and no two insertions have the same predecessor. Every statement outside of
the mutex keeps it, provided that an insertion starts after a record that is not yet the
predecessor in another one (`Linked.statement`).
-/

set_option autoImplicit false
set_option relaxedAutoImplicit false

namespace Mupnp.Event

open Foundation Util MemoryEvent

namespace SubscriberThread

/-- The record that a subscription has not linked to the list yet. -/
def owns : SubscriberThread → Option SubscriberId
  | .creating sub _ _ _ => some sub
  | .inserting _ _ .setPrevNext => none
  | .inserting sub _ _ => some sub
  | _ => none

/-- The predecessor in an insertion. -/
def prevList : SubscriberThread → Option (Option SubscriberId)
  | .inserting _ prevList _ => some prevList
  | _ => none

/-- The cursor after which a record is linked back only. -/
def opens : SubscriberThread → Option (Option SubscriberId)
  | .inserting _ prevList .setPrevNext => some prevList
  | _ => none

theorem prevList_of_opens {thread : SubscriberThread} {cursor : Option SubscriberId}
    (hopens : thread.opens = some cursor) : thread.prevList = some cursor := by
  cases thread with
  | inserting sub prevList stage =>
    cases stage with
    | setPrevNext => exact hopens
    | setPrev | setNext | setNextPrev => cases hopens
  | idle | creating | seeking | renewing | strayed => cases hopens

/-- A thread that has a record at hand: it is going to use it, or has seen that it comes next. -/
def Holds (links : Links SubscriberId) (sub : SubscriberId) : SubscriberThread → Prop
  | .inserting _ prevList _ => prevList = some sub
  | .seeking _ list .takeNext => list = some sub ∨ links.next list = some sub
  | .seeking _ list _ => list = some sub
  | .renewing _ held _ => held = sub
  | _ => False

/-- A thread whose record is not linked both ways yet. -/
def Subscribing : SubscriberThread → Prop
  | .creating _ _ _ _ | .inserting _ _ _ => True
  | _ => False

/-- What holds of a thread when `records` are in the list. -/
def Ok (links : Links SubscriberId) (records : List SubscriberId) : SubscriberThread → Prop
  | .idle => True
  | .creating sub _ _ _ => sub ∉ records
  | .inserting sub prevList .setPrev => sub ∉ records ∧ prevList = records.getLast?
  | .inserting sub prevList .setNext =>
    sub ∉ records ∧ prevList = records.getLast? ∧ links.prev (some sub) = prevList
  | .inserting sub prevList .setNextPrev =>
    sub ∉ records ∧ prevList = records.getLast? ∧ links.prev (some sub) = prevList ∧
      links.next (some sub) = none
  | .inserting sub prevList .setPrevNext =>
    ∃ front back, records = front ++ sub :: back ∧ front.getLast? = prevList
  | .seeking _ list .takeNext => (∀ sub ∈ list, sub ∈ records) ∧ links.next list ≠ none
  | .seeking _ list _ => ∀ sub ∈ list, sub ∈ records
  | .renewing _ sub _ => sub ∈ records
  | .strayed => False

end SubscriberThread

namespace SubscriberHeap

/-- Some insertion has linked the record after this cursor back only. -/
def Opened (s : SubscriberHeap) (cursor : Option SubscriberId) : Prop :=
  ∃ t, (s.thread t).opens = some cursor

/-- The records in the list and the threads agree with the memory. -/
structure Linked (s : SubscriberHeap) (records : List SubscriberId) : Prop where
  chained : Chained s.links s.Opened records
  safe : Safe s.trace
  alive : ∀ sub, Alive s.trace sub ↔ sub ∈ records ∨ ∃ t, (s.thread t).owns = some sub
  lt_created : ∀ sub, .alloc sub ∈ s.trace → sub < s.created
  ok : ∀ t, (s.thread t).Ok s.links records
  owns_unique : ∀ t t' sub, (s.thread t).owns = some sub → (s.thread t').owns = some sub → t = t'
  prevList_unique : ∀ t t' cursor, (s.thread t).prevList = some cursor →
    (s.thread t').prevList = some cursor → t = t'

/-! ### Uses -/

@[simp] theorem use_links (s : SubscriberHeap) (cursor : Option SubscriberId) :
    (s.use cursor).links = s.links := by
  cases cursor <;> rfl

@[simp] theorem use_contents (s : SubscriberHeap) (cursor : Option SubscriberId) :
    (s.use cursor).contents = s.contents := by
  cases cursor <;> rfl

@[simp] theorem use_created (s : SubscriberHeap) (cursor : Option SubscriberId) :
    (s.use cursor).created = s.created := by
  cases cursor <;> rfl

@[simp] theorem use_threads (s : SubscriberHeap) (cursor : Option SubscriberId) :
    (s.use cursor).threads = s.threads := by
  cases cursor <;> rfl

@[simp] theorem use_thread (s : SubscriberHeap) (cursor : Option SubscriberId) (t : ℕ) :
    (s.use cursor).thread t = s.thread t := by
  rw [thread, use_threads, thread]

@[simp] theorem alive_use_trace (s : SubscriberHeap) (cursor : Option SubscriberId)
    (sub : SubscriberId) : Alive (s.use cursor).trace sub ↔ Alive s.trace sub := by
  cases cursor with
  | none => exact Iff.rfl
  | some other => exact alive_use

@[simp] theorem alloc_mem_use_trace (s : SubscriberHeap) (cursor : Option SubscriberId)
    (sub : SubscriberId) : .alloc sub ∈ (s.use cursor).trace ↔ .alloc sub ∈ s.trace := by
  cases cursor with
  | none => exact Iff.rfl
  | some other => simp [use]

theorem safe_use {s : SubscriberHeap} (hsafe : Safe s.trace) {cursor : Option SubscriberId}
    (halive : ∀ sub ∈ cursor, Alive s.trace sub) : Safe (s.use cursor).trace := by
  cases cursor with
  | none => exact hsafe
  | some sub => exact ⟨halive sub rfl, hsafe⟩

theorem thread_goTo_self (s : SubscriberHeap) (t : ℕ) (thread : SubscriberThread) :
    (s.goTo t thread).thread t = thread := ThreadTable.get_set_self _ _ _

theorem thread_goTo_of_ne (s : SubscriberHeap) {t t' : ℕ} (hne : t' ≠ t)
    (thread : SubscriberThread) : (s.goTo t thread).thread t' = s.thread t' :=
  ThreadTable.get_set_of_ne hne _

theorem opened_iff_of_set {s s' : SubscriberHeap} {t : ℕ} {thread : SubscriberThread}
    (hthreads : s'.threads = s.threads.set t thread) (hopens : thread.opens = (s.thread t).opens)
    (cursor : Option SubscriberId) : s'.Opened cursor ↔ s.Opened cursor := by
  have hsame : ∀ t', (s'.thread t').opens = (s.thread t').opens := by
    intro t'
    rw [SubscriberHeap.thread, hthreads, ThreadTable.get_set]
    split_ifs with heq
    · rw [hopens, heq]
    · rfl
  simp only [Opened, hsame]

namespace Linked

variable {s : SubscriberHeap} {records : List SubscriberId}

theorem alive_of_mem (h : s.Linked records) {sub : SubscriberId} (hmem : sub ∈ records) :
    Alive s.trace sub := (h.alive sub).mpr (.inl hmem)

theorem alive_of_owns (h : s.Linked records) {t : ℕ} {sub : SubscriberId}
    (howns : (s.thread t).owns = some sub) : Alive s.trace sub :=
  (h.alive sub).mpr (.inr ⟨t, howns⟩)

/-- A thread that owns a record has not linked it. -/
theorem not_mem_of_owns (h : s.Linked records) {t : ℕ} {sub : SubscriberId}
    (howns : (s.thread t).owns = some sub) : sub ∉ records := by
  have hok := h.ok t
  cases hthread : s.thread t with
  | creating other _ _ _ =>
    rw [hthread] at howns hok
    obtain rfl := Option.some.inj howns
    exact hok
  | inserting other prevList stage =>
    rw [hthread] at howns hok
    cases stage with
    | setPrevNext => cases howns
    | setPrev | setNext | setNextPrev =>
      obtain rfl := Option.some.inj howns
      exact hok.1
  | idle | seeking | renewing | strayed =>
    rw [hthread] at howns
    cases howns

/-- Fewer records are alive than were created. -/
theorem length_le (h : s.Linked records) : records.length ≤ s.created := by
  have hsub : records ⊆ List.range s.created := fun sub hmem ↦
    List.mem_range.mpr (h.lt_created sub (h.alive_of_mem hmem).1)
  calc records.length ≤ (List.range s.created).length :=
        (List.subperm_of_subset h.chained.nodup hsub).length_le
    _ = s.created := List.length_range

/-- Using a record that is alive changes nothing else. -/
theorem use (h : s.Linked records) (cursor : Option SubscriberId)
    (halive : ∀ sub ∈ cursor, Alive s.trace sub) : (s.use cursor).Linked records where
  chained := by
    have hopened : (s.use cursor).Opened = s.Opened := by
      funext other
      simp only [Opened, use_thread]
    rw [use_links, hopened]
    exact h.chained
  safe := safe_use h.safe halive
  alive := fun sub ↦ by
    simp only [alive_use_trace, use_thread]
    exact h.alive sub
  lt_created := fun sub hmem ↦ by
    rw [use_created]
    exact h.lt_created sub ((alloc_mem_use_trace s cursor sub).mp hmem)
  ok := fun t ↦ by
    rw [use_thread, use_links]
    exact h.ok t
  owns_unique := fun t t' sub ↦ by
    simp only [use_thread]
    exact h.owns_unique t t' sub
  prevList_unique := fun t t' other ↦ by
    simp only [use_thread]
    exact h.prevList_unique t t' other

theorem update (h : s.Linked records) {sub : SubscriberId} (halive : Alive s.trace sub)
    (change : Subscriber → Subscriber) : (s.update sub change).Linked records := by
  have hused := h.use (some sub) fun other hother ↦ by
    rw [Option.mem_some_iff.mp hother] at halive
    exact halive
  exact ⟨hused.chained, hused.safe, hused.alive, hused.lt_created, hused.ok, hused.owns_unique,
    hused.prevList_unique⟩

/-! ### Moves of a thread -/

/-- A step in which one thread moves. -/
theorem move {s' : SubscriberHeap} {records' : List SubscriberId} {t : ℕ}
    {thread : SubscriberThread} (h : s.Linked records)
    (hthreads : s'.threads = s.threads.set t thread)
    (hchained : Chained s'.links s'.Opened records') (hsafe : Safe s'.trace)
    (halive : ∀ sub, Alive s'.trace sub ↔ sub ∈ records' ∨ thread.owns = some sub ∨
      ∃ t', t' ≠ t ∧ (s.thread t').owns = some sub)
    (hlt : ∀ sub, .alloc sub ∈ s'.trace → sub < s'.created) (hok : thread.Ok s'.links records')
    (hothers : ∀ t', t' ≠ t → (s.thread t').Ok s'.links records')
    (howns : ∀ t', t' ≠ t → ∀ sub, thread.owns = some sub → (s.thread t').owns ≠ some sub)
    (hprevList : ∀ t', t' ≠ t → ∀ cursor, thread.prevList = some cursor →
      (s.thread t').prevList ≠ some cursor) : s'.Linked records' := by
  have hself : s'.thread t = thread := by
    rw [SubscriberHeap.thread, hthreads, ThreadTable.get_set_self]
  have hother : ∀ t', t' ≠ t → s'.thread t' = s.thread t' := fun t' hne ↦ by
    rw [SubscriberHeap.thread, hthreads, ThreadTable.get_set_of_ne hne, SubscriberHeap.thread]
  refine ⟨hchained, hsafe, fun sub ↦ ?_, hlt, fun t' ↦ ?_, fun t₁ t₂ sub h₁ h₂ ↦ ?_,
    fun t₁ t₂ cursor h₁ h₂ ↦ ?_⟩
  · rw [halive sub]
    refine or_congr_right ⟨?_, ?_⟩
    · rintro (howner | ⟨t', hne, howner⟩)
      · exact ⟨t, by rw [hself, howner]⟩
      · exact ⟨t', by rw [hother t' hne, howner]⟩
    · rintro ⟨t', howner⟩
      by_cases hne : t' = t
      · rw [hne, hself] at howner
        exact .inl howner
      · rw [hother t' hne] at howner
        exact .inr ⟨t', hne, howner⟩
  · by_cases hne : t' = t
    · rw [hne, hself]
      exact hok
    · rw [hother t' hne]
      exact hothers t' hne
  · by_cases hne₁ : t₁ = t <;> by_cases hne₂ : t₂ = t
    · rw [hne₁, hne₂]
    · rw [hne₁, hself] at h₁
      rw [hother t₂ hne₂] at h₂
      exact absurd h₂ (howns t₂ hne₂ sub h₁)
    · rw [hne₂, hself] at h₂
      rw [hother t₁ hne₁] at h₁
      exact absurd h₁ (howns t₁ hne₁ sub h₂)
    · rw [hother t₁ hne₁] at h₁
      rw [hother t₂ hne₂] at h₂
      exact h.owns_unique t₁ t₂ sub h₁ h₂
  · by_cases hne₁ : t₁ = t <;> by_cases hne₂ : t₂ = t
    · rw [hne₁, hne₂]
    · rw [hne₁, hself] at h₁
      rw [hother t₂ hne₂] at h₂
      exact absurd h₂ (hprevList t₂ hne₂ cursor h₁)
    · rw [hne₂, hself] at h₂
      rw [hother t₁ hne₁] at h₁
      exact absurd h₁ (hprevList t₁ hne₁ cursor h₂)
    · rw [hother t₁ hne₁] at h₁
      rw [hother t₂ hne₂] at h₂
      exact h.prevList_unique t₁ t₂ cursor h₁ h₂

/-- The records that are alive, seen from a thread. -/
theorem alive_iff (h : s.Linked records) (t : ℕ) (sub : SubscriberId) :
    Alive s.trace sub ↔ sub ∈ records ∨ (s.thread t).owns = some sub ∨
      ∃ t', t' ≠ t ∧ (s.thread t').owns = some sub := by
  rw [h.alive sub]
  refine or_congr_right ⟨?_, ?_⟩
  · rintro ⟨t', howner⟩
    by_cases hne : t' = t
    · exact .inl (hne ▸ howner)
    · exact .inr ⟨t', hne, howner⟩
  · rintro (howner | ⟨t', -, howner⟩)
    · exact ⟨t, howner⟩
    · exact ⟨t', howner⟩

/-- A move to another statement that works on the same record. -/
theorem goTo (h : s.Linked records) {t : ℕ} {thread : SubscriberThread}
    (hok : thread.Ok s.links records) (howns : thread.owns = (s.thread t).owns)
    (hopens : thread.opens = (s.thread t).opens)
    (hprevList : ∀ t', t' ≠ t → ∀ cursor, thread.prevList = some cursor →
      (s.thread t').prevList ≠ some cursor) : (s.goTo t thread).Linked records := by
  refine h.move rfl ?_ h.safe (fun sub ↦ ?_) h.lt_created hok (fun t' _ ↦ h.ok t')
    (fun t' hne sub hsub howner ↦ ?_) hprevList
  · exact h.chained.congr (fun _ _ ↦ rfl) (fun _ _ ↦ rfl)
      fun cursor _ ↦ opened_iff_of_set rfl hopens cursor
  · rw [howns]
    exact h.alive_iff t sub
  · rw [howns] at hsub
    exact hne (h.owns_unique t' t sub howner hsub)

/-! ### Insertions -/

/-- A thread does not notice links that are not its own. -/
theorem ok_congr (h : s.Linked records) {t : ℕ} {links : Links SubscriberId}
    (hprev : ∀ sub, (s.thread t).owns = some sub →
      links.prev (some sub) = s.links.prev (some sub))
    (hnext : ∀ sub, (s.thread t).owns = some sub →
      links.next (some sub) = s.links.next (some sub))
    (hchain : ∀ cursor, (∀ sub ∈ cursor, sub ∈ records) → s.links.next cursor ≠ none →
      links.next cursor ≠ none) : (s.thread t).Ok links records := by
  have hok := h.ok t
  cases hthread : s.thread t with
  | idle => trivial
  | creating sub sid timeout stage =>
    rw [hthread] at hok
    exact hok
  | inserting sub prevList stage =>
    rw [hthread] at hok hprev hnext
    cases stage with
    | setPrev => exact hok
    | setNext => exact ⟨hok.1, hok.2.1, (hprev sub rfl).trans hok.2.2⟩
    | setNextPrev =>
      exact ⟨hok.1, hok.2.1, (hprev sub rfl).trans hok.2.2.1, (hnext sub rfl).trans hok.2.2.2⟩
    | setPrevNext => exact hok
  | seeking request list stage =>
    rw [hthread] at hok
    cases stage with
    | testNull => exact hok
    | testHead => exact hok
    | takeNext => exact ⟨hok.1, hchain list hok.1 hok.2⟩
  | renewing request sub stage =>
    rw [hthread] at hok
    exact hok
  | strayed =>
    rw [hthread] at hok
    exact hok

/-- Links of a record that a thread still owns can be set at will. -/
theorem setOwn (h : s.Linked records) {t : ℕ} {sub : SubscriberId} {thread : SubscriberThread}
    {links : Links SubscriberId} (howner : (s.thread t).owns = some sub)
    (howns : thread.owns = some sub) (hopens : thread.opens = (s.thread t).opens)
    (hprevList : thread.prevList = (s.thread t).prevList)
    (hnext : ∀ cursor, cursor ≠ some sub → links.next cursor = s.links.next cursor)
    (hprev : ∀ cursor, cursor ≠ some sub → links.prev cursor = s.links.prev cursor)
    (hok : thread.Ok links records) :
    ({ s with links := links }.goTo t thread).Linked records := by
  have hne : ∀ cursor, (∀ record ∈ cursor, record ∈ records) → cursor ≠ some sub :=
    fun cursor hcursor heq ↦ h.not_mem_of_owns howner (hcursor sub heq)
  refine h.move rfl ?_ h.safe (fun other ↦ ?_) h.lt_created hok (fun t' hne' ↦ ?_)
    (fun t' hne' other hother howner' ↦ ?_) (fun t' hne' cursor hcursor hcursor' ↦ ?_)
  · exact h.chained.congr (fun cursor hcursor ↦ hnext cursor (hne cursor hcursor))
      (fun cursor hcursor ↦ hprev cursor (hne cursor hcursor))
      fun cursor _ ↦ opened_iff_of_set rfl hopens cursor
  · rw [howns, ← howner]
    exact h.alive_iff t other
  · have hother : ∀ other, (s.thread t').owns = some other →
        (some other : Option ℕ) ≠ some sub := by
      intro other howner' heq
      rw [heq, ← howner] at howner'
      exact hne' (h.owns_unique t' t sub (howner'.trans howner) howner)
    refine h.ok_congr (fun other howner' ↦ hprev _ (hother other howner'))
      (fun other howner' ↦ hnext _ (hother other howner')) fun cursor hcursor hsome ↦ ?_
    show links.next cursor ≠ none
    rwa [hnext cursor (hne cursor hcursor)]
  · rw [howns, ← howner] at hother
    exact hne' (h.owns_unique t' t other howner' hother)
  · rw [hprevList] at hcursor
    exact hne' (h.prevList_unique t' t cursor hcursor' hcursor)

/-- The predecessor in an insertion that has not linked back yet is the last record, and is
followed by the head. -/
theorem next_prevList (h : s.Linked records) {t : ℕ} {sub : SubscriberId}
    {prevList : Option SubscriberId} {stage : InsertingStage}
    (hthread : s.thread t = .inserting sub prevList stage) (hstage : stage ≠ .setPrevNext) :
    prevList = records.getLast? ∧ ¬ s.Opened prevList ∧ s.links.next prevList = none := by
  have hok := h.ok t
  rw [hthread] at hok
  have hlast : prevList = records.getLast? := by
    cases stage with
    | setPrev => exact hok.2
    | setNext => exact hok.2.1
    | setNextPrev => exact hok.2.1
    | setPrevNext => exact absurd rfl hstage
  have hclosed : ¬ s.Opened prevList := by
    rintro ⟨t', hopens⟩
    have heq := h.prevList_unique t' t _ (SubscriberThread.prevList_of_opens hopens)
      (by rw [hthread]; rfl)
    rw [heq, hthread] at hopens
    cases stage with
    | setPrevNext => exact hstage rfl
    | setPrev | setNext | setNextPrev => cases hopens
  refine ⟨hlast, hclosed, ?_⟩
  rw [hlast] at hclosed ⊢
  exact h.chained.next records [] (List.append_nil records).symm hclosed

/-- The third statement of an insertion links the new record back from the head. -/
theorem insertBack (h : s.Linked records) {t : ℕ} {sub : SubscriberId}
    {prevList : Option SubscriberId} (hthread : s.thread t = .inserting sub prevList .setNextPrev) :
    ({ s with links := s.links.setPrev (s.links.next prevList) (some sub) }.goTo t
      (.inserting sub prevList .setPrevNext)).Linked (records ++ [sub]) := by
  have hok := h.ok t
  rw [hthread] at hok
  obtain ⟨hnew, rfl, hprev, hnext⟩ := hok
  have howner : (s.thread t).owns = some sub := by rw [hthread]; rfl
  obtain ⟨-, hclosed, hend⟩ := h.next_prevList hthread (by decide)
  refine h.move rfl ?_ h.safe (fun other ↦ ?_) h.lt_created ?_ (fun t' hne ↦ ?_)
    (fun _ _ _ hother ↦ by cases hother) (fun t' hne cursor hcursor hcursor' ↦ ?_)
  · refine (h.chained.insertBack hnew hprev hnext hclosed).congr (fun _ _ ↦ rfl) (fun _ _ ↦ rfl)
      fun cursor _ ↦ ?_
    constructor
    · rintro ⟨t', hopens⟩
      by_cases hne : t' = t
      · rw [hne, thread_goTo_self] at hopens
        exact .inr (Option.some.inj hopens).symm
      · rw [thread_goTo_of_ne _ hne] at hopens
        exact .inl ⟨t', hopens⟩
    · rintro (⟨t', hopens⟩ | rfl)
      · have hne : t' ≠ t := by
          rintro rfl
          rw [hthread] at hopens
          cases hopens
        exact ⟨t', by rwa [thread_goTo_of_ne _ hne]⟩
      · exact ⟨t, by rw [thread_goTo_self]; rfl⟩
  · have halive := h.alive_iff t other
    rw [howner] at halive
    refine halive.trans ?_
    rw [List.mem_append, List.mem_singleton]
    constructor
    · rintro (hmem | hself | hother)
      · exact .inl (.inl hmem)
      · exact .inl (.inr (Option.some.inj hself).symm)
      · exact .inr (.inr hother)
    · rintro ((hmem | rfl) | hnone | hother)
      · exact .inl hmem
      · exact .inr (.inl rfl)
      · cases hnone
      · exact .inr (.inr hother)
  · exact ⟨records, [], rfl, rfl⟩
  · have hother : ∀ other, (s.thread t').owns = some other → other ≠ sub := fun other hother heq ↦
      hne (h.owns_unique t' t sub (heq ▸ hother) howner)
    have hprevList : (s.thread t').prevList ≠ some records.getLast? := fun heq ↦
      hne (h.prevList_unique t' t _ heq (by rw [hthread]; rfl))
    have hok' := h.ok t'
    have hmem : ∀ other, other ∈ records → other ∈ records ++ [sub] := fun other ↦
      List.mem_append_left [sub]
    have hlinks : (s.links.setPrev (s.links.next records.getLast?) (some sub)).next =
      s.links.next := rfl
    cases hthread' : s.thread t' with
    | idle => trivial
    | creating other sid timeout stage =>
      rw [hthread'] at hok' hother
      simpa [SubscriberThread.Ok, hother other rfl] using hok'
    | inserting other prevList stage =>
      rw [hthread'] at hok' hprevList
      cases stage with
      | setPrev => exact absurd (congrArg some hok'.2) hprevList
      | setNext => exact absurd (congrArg some hok'.2.1) hprevList
      | setNextPrev => exact absurd (congrArg some hok'.2.1) hprevList
      | setPrevNext =>
        obtain ⟨front, back, hrecords, hlast⟩ := hok'
        exact ⟨front, back ++ [sub], by simp [hrecords], hlast⟩
    | seeking request list stage =>
      rw [hthread'] at hok'
      cases stage with
      | testNull => exact fun other hlist ↦ hmem other (hok' other hlist)
      | testHead => exact fun other hlist ↦ hmem other (hok' other hlist)
      | takeNext => exact ⟨fun other hlist ↦ hmem other (hok'.1 other hlist), hok'.2⟩
    | renewing request other stage =>
      rw [hthread'] at hok'
      exact hmem other hok'
    | strayed =>
      rw [hthread'] at hok'
      exact hok'
  · obtain rfl := Option.some.inj hcursor
    exact hne (h.prevList_unique t' t _ hcursor' (by rw [hthread]; rfl))

/-- The last statement of an insertion links the new record from its predecessor. -/
theorem close (h : s.Linked records) {t : ℕ} {sub : SubscriberId} {prevList : Option SubscriberId}
    (hthread : s.thread t = .inserting sub prevList .setPrevNext) :
    ({ s with links := s.links.setNext prevList (some sub) }.goTo t .idle).Linked records := by
  have hok := h.ok t
  rw [hthread] at hok
  obtain ⟨front, back, rfl, rfl⟩ := hok
  refine h.move rfl ?_ h.safe (fun other ↦ ?_) h.lt_created trivial (fun t' hne ↦ ?_)
    (fun _ _ _ hother ↦ by cases hother) (fun _ _ _ hcursor ↦ by cases hcursor)
  · refine h.chained.close.congr (fun _ _ ↦ rfl) (fun _ _ ↦ rfl) fun cursor _ ↦ ?_
    constructor
    · rintro ⟨t', hopens⟩
      by_cases hne : t' = t
      · rw [hne, thread_goTo_self] at hopens
        cases hopens
      · rw [thread_goTo_of_ne _ hne] at hopens
        refine ⟨⟨t', hopens⟩, fun hcursor ↦ hne ?_⟩
        rw [hcursor] at hopens
        exact h.prevList_unique t' t _ (SubscriberThread.prevList_of_opens hopens)
          (by rw [hthread]; rfl)
    · rintro ⟨⟨t', hopens⟩, hcursor⟩
      have hne : t' ≠ t := by
        rintro rfl
        rw [hthread] at hopens
        exact hcursor (Option.some.inj hopens).symm
      exact ⟨t', by rwa [thread_goTo_of_ne _ hne]⟩
  · have halive := h.alive_iff t other
    rw [hthread] at halive
    exact halive
  · refine h.ok_congr (fun _ _ ↦ rfl) (fun other howner ↦ ?_) fun cursor _ hsome ↦ ?_
    · refine if_neg fun heq ↦ h.not_mem_of_owns howner ?_
      exact List.mem_append_left _ (List.mem_of_getLast? heq.symm)
    · show (if cursor = front.getLast? then some sub else s.links.next cursor) ≠ none
      split_ifs
      · exact Option.some_ne_none sub
      · exact hsome

/-! ### Statements outside of the mutex -/

/-- A new record is owned by the thread that makes it. -/
theorem subscriberNew (h : s.Linked records) {t : ℕ} (hidle : s.thread t = .idle) (sid : CString)
    (timeout now : ℤ) :
    ((s.subscriberNew now).goTo t (.creating s.created sid timeout .setDeliveryUrl)).Linked
      records := by
  have hfresh : .alloc s.created ∉ s.trace := fun hmem ↦
    Nat.lt_irrefl _ (h.lt_created s.created hmem)
  have hnotAlive : ¬ Alive s.trace s.created := fun halive ↦ hfresh halive.1
  have hnew : s.created ∉ records := fun hmem ↦ hnotAlive (h.alive_of_mem hmem)
  have hnotOwned : ∀ t', (s.thread t').owns ≠ some s.created := fun t' howner ↦
    hnotAlive (h.alive_of_owns howner)
  have hne : ∀ cursor, (∀ sub ∈ cursor, sub ∈ records) → cursor ≠ some s.created :=
    fun cursor hcursor heq ↦ hnew (hcursor s.created heq)
  refine h.move rfl ?_ (h.safe.alloc hfresh) (fun sub ↦ ?_) (fun sub hmem ↦ ?_) hnew
    (fun t' hne' ↦ ?_) (fun t' _ sub hsub howner ↦ ?_) (fun _ _ _ hcursor ↦ by cases hcursor)
  · refine h.chained.congr (fun cursor hcursor ↦ Links.isolate_next_of_ne (hne cursor hcursor))
      (fun cursor hcursor ↦ Links.isolate_prev_of_ne (hne cursor hcursor)) fun cursor _ ↦ ?_
    exact opened_iff_of_set rfl (by rw [hidle]; rfl) cursor
  · refine (h.safe.alive_alloc hfresh).trans ?_
    have halive := h.alive_iff t sub
    rw [hidle] at halive
    rw [halive]
    constructor
    · rintro ((hmem | hnone | howner) | rfl)
      · exact .inl hmem
      · cases hnone
      · exact .inr (.inr howner)
      · exact .inr (.inl rfl)
    · rintro (hmem | hself | howner)
      · exact .inl (.inl hmem)
      · exact .inr (Option.some.inj hself).symm
      · exact .inl (.inr (.inr howner))
  · rcases List.mem_cons.mp hmem with heq | hearlier
    · obtain rfl := MemoryEvent.alloc.inj heq
      exact Nat.lt_succ_self _
    · exact Nat.lt_succ_of_lt (h.lt_created sub hearlier)
  · have hother : ∀ sub, (s.thread t').owns = some sub →
        (some sub : Option ℕ) ≠ some s.created := fun sub howner heq ↦
      hnotOwned t' (howner.trans heq)
    refine h.ok_congr (fun sub howner ↦ Links.isolate_prev_of_ne (hother sub howner))
      (fun sub howner ↦ Links.isolate_next_of_ne (hother sub howner)) fun cursor hcursor hsome ↦ ?_
    have hnext := @Links.isolate_next_of_ne _ _ s.links _ _ (hne cursor hcursor)
    exact fun hnone ↦ hsome (hnext.symm.trans hnone)
  · obtain rfl := Option.some.inj hsub
    exact hnotOwned t' howner

/-- The next statement of a thread that fills its record. -/
theorem creating (h : s.Linked records) {s' : SubscriberHeap} {t : ℕ} {now : ℤ}
    {sub : SubscriberId} {sid : CString} {timeout : ℤ} {stage : CreatingStage}
    (hthread : s.thread t = .creating sub sid timeout stage)
    (hinserting : stage = .add → ∀ t', (s.thread t').prevList ≠ some (s.links.prev none))
    (hstep : s.statement t now (s.thread t) = some s') : s'.Linked records := by
  have hok := h.ok t
  have howner : (s.thread t).owns = some sub := by rw [hthread]; rfl
  have halive := h.alive_of_owns howner
  have huse : ∀ other ∈ some sub, Alive s.trace other := by simpa using halive
  rw [hthread] at hok hstep
  cases stage with
  | setDeliveryUrl =>
    obtain rfl := Option.some.inj hstep
    refine (h.use (some sub) huse).goTo hok ?_ ?_ fun _ _ _ hcursor ↦ by cases hcursor
    · rw [use_thread, hthread]
      rfl
    · rw [use_thread, hthread]
      rfl
  | setTimeout =>
    obtain rfl := Option.some.inj hstep
    refine (h.update halive _).goTo hok ?_ ?_ fun _ _ _ hcursor ↦ by cases hcursor
    · exact howner.symm
    · exact (congrArg SubscriberThread.opens hthread).symm
  | setSid =>
    obtain rfl := Option.some.inj hstep
    refine (h.update halive _).goTo hok ?_ ?_ fun _ _ _ hcursor ↦ by cases hcursor
    · exact howner.symm
    · exact (congrArg SubscriberThread.opens hthread).symm
  | add =>
    obtain rfl := Option.some.inj hstep
    have hlast : s.links.prev none = records.getLast? :=
      h.chained.prev records [] (List.append_nil records).symm
    refine h.goTo ⟨hok, hlast⟩ howner.symm (by rw [hthread]; rfl) fun t' _ cursor hcursor ↦ ?_
    obtain rfl := Option.some.inj hcursor
    exact hinserting rfl t'

/-- The next statement of a thread that links its record. -/
theorem inserting (h : s.Linked records) {s' : SubscriberHeap} {t : ℕ} {now : ℤ}
    {sub : SubscriberId} {prevList : Option SubscriberId} {stage : InsertingStage}
    (hthread : s.thread t = .inserting sub prevList stage)
    (hstep : s.statement t now (s.thread t) = some s') : ∃ records', s'.Linked records' := by
  have hok := h.ok t
  have hprevAlive : ∀ other ∈ prevList, Alive s.trace other := by
    intro other hother
    refine h.alive_of_mem ?_
    rw [hthread] at hok
    cases stage with
    | setPrev => exact List.mem_of_getLast? (hok.2 ▸ hother)
    | setNext => exact List.mem_of_getLast? (hok.2.1 ▸ hother)
    | setNextPrev => exact List.mem_of_getLast? (hok.2.1 ▸ hother)
    | setPrevNext =>
      obtain ⟨front, back, rfl, rfl⟩ := hok
      exact List.mem_append_left _ (List.mem_of_getLast? hother)
  rw [hthread] at hstep hok
  cases stage with
  | setPrev =>
    have howner : (s.thread t).owns = some sub := by rw [hthread]; rfl
    have huse : ∀ other ∈ some sub, Alive s.trace other := by
      simpa using h.alive_of_owns howner
    obtain rfl := Option.some.inj hstep
    refine ⟨records, (h.use (some sub) huse).setOwn howner rfl ?_ ?_ (fun _ _ ↦ rfl)
      (fun cursor hne ↦ if_neg hne) ⟨hok.1, hok.2, if_pos rfl⟩⟩
    · rw [use_thread, hthread]
      rfl
    · rw [use_thread, hthread]
      rfl
  | setNext =>
    have howner : (s.thread t).owns = some sub := by rw [hthread]; rfl
    have huse : ∀ other ∈ some sub, Alive s.trace other := by
      simpa using h.alive_of_owns howner
    have hused := (h.use (some sub) huse).use prevList fun other hother ↦
      (alive_use_trace s (some sub) other).mpr (hprevAlive other hother)
    obtain ⟨-, -, hend⟩ := h.next_prevList hthread (by decide)
    obtain rfl := Option.some.inj hstep
    have howner' : (((s.use (some sub)).use prevList).thread t).owns = some sub := by
      rw [use_thread, use_thread, howner]
    refine ⟨records, hused.setOwn howner' rfl ?_ ?_ (fun cursor hne ↦ ?_)
      (fun cursor hne ↦ ?_) ⟨hok.1, hok.2.1, hok.2.2, (if_pos rfl).trans hend⟩⟩
    · rw [use_thread, use_thread, hthread]
      rfl
    · rw [use_thread, use_thread, hthread]
      rfl
    · rw [use_links, use_links]
      exact if_neg hne
    · rw [use_links, use_links]
      rfl
  | setNextPrev =>
    obtain ⟨-, -, hend⟩ := h.next_prevList hthread (by decide)
    have hused := (h.use prevList hprevAlive).use (s.links.next prevList) fun other hother ↦ by
      rw [hend] at hother
      cases hother
    obtain rfl := Option.some.inj hstep
    have hthread' : ((s.use prevList).use (s.links.next prevList)).thread t =
        .inserting sub prevList .setNextPrev := by
      rw [use_thread, use_thread, hthread]
    have hlinked := hused.insertBack hthread'
    rw [use_links, use_links] at hlinked
    exact ⟨_, hlinked⟩
  | setPrevNext =>
    have hused := h.use prevList hprevAlive
    obtain rfl := Option.some.inj hstep
    have hthread' : (s.use prevList).thread t = .inserting sub prevList .setPrevNext := by
      rw [use_thread, hthread]
    have hclosed := hused.close hthread'
    rw [use_links] at hclosed
    exact ⟨records, hclosed⟩

/-- The next statement of a thread that looks for a record. -/
theorem seeking (h : s.Linked records) {s' : SubscriberHeap} {t : ℕ} {now : ℤ}
    {request : RenewalRequest} {list : Option SubscriberId} {stage : SeekingStage}
    (hthread : s.thread t = .seeking request list stage)
    (hstep : s.statement t now (s.thread t) = some s') : s'.Linked records := by
  have hok := h.ok t
  have hlist : ∀ sub ∈ list, sub ∈ records := by
    rw [hthread] at hok
    cases stage with
    | testNull => exact hok
    | testHead => exact hok
    | takeNext => exact hok.1
  have hused := h.use _ fun sub hsub ↦ h.alive_of_mem (hlist sub hsub)
  have hnext : ∀ sub ∈ s.links.next list, sub ∈ records := fun sub hsub ↦
    h.chained.mem_of_next hlist hsub
  have howns : (s.thread t).owns = none := by rw [hthread]; rfl
  have hopens : (s.thread t).opens = none := by rw [hthread]; rfl
  rw [hthread] at hstep hok
  cases stage with
  | testNull =>
    obtain rfl := Option.some.inj hstep
    refine hused.goTo hlist ?_ ?_ fun _ _ _ hcursor ↦ by cases hcursor
    · rw [use_thread, howns]
      rfl
    · rw [use_thread, hopens]
      rfl
  | testHead =>
    have hused' := hused.use (s.links.next list) fun sub hsub ↦
      hused.alive_of_mem (hnext sub hsub)
    obtain rfl := Option.some.inj hstep
    by_cases hend : s.links.next list = none
    · rw [if_pos hend]
      refine hused'.goTo trivial ?_ ?_ fun _ _ _ hcursor ↦ by cases hcursor
      · rw [use_thread, use_thread, howns]
        rfl
      · rw [use_thread, use_thread, hopens]
        rfl
    · rw [if_neg hend]
      refine hused'.goTo ⟨hlist, ?_⟩ ?_ ?_ fun _ _ _ hcursor ↦ by cases hcursor
      · rwa [use_links, use_links]
      · rw [use_thread, use_thread, howns]
        rfl
      · rw [use_thread, use_thread, hopens]
        rfl
  | takeNext =>
    simp only [statement] at hstep
    cases hsub : s.links.next list with
    | none => exact absurd hsub hok.2
    | some sub =>
      rw [hsub] at hstep
      obtain rfl := Option.some.inj hstep
      refine hused.goTo (hnext sub hsub) ?_ ?_ fun _ _ _ hcursor ↦ by cases hcursor
      · rw [use_thread, howns]
        rfl
      · rw [use_thread, hopens]
        rfl

/-- The next statement of a renewal that has a record at hand. -/
theorem renewing (h : s.Linked records) {s' : SubscriberHeap} {t : ℕ} {now : ℤ}
    {request : RenewalRequest} {sub : SubscriberId} {stage : RenewingStage}
    (hthread : s.thread t = .renewing request sub stage)
    (hstep : s.statement t now (s.thread t) = some s') : s'.Linked records := by
  have hmem := h.ok t
  rw [hthread] at hmem
  have halive := h.alive_of_mem hmem
  have hused := h.use (some sub) fun other hother ↦ by
    rw [Option.mem_some_iff.mp hother] at halive
    exact halive
  have howns : (s.thread t).owns = none := by rw [hthread]; rfl
  have hopens : (s.thread t).opens = none := by rw [hthread]; rfl
  rw [hthread] at hstep
  cases stage with
  | getSid =>
    obtain rfl := Option.some.inj hstep
    exact hused.goTo hmem howns.symm hopens.symm fun _ _ _ hcursor ↦ by cases hcursor
  | skipUuid =>
    obtain rfl := Option.some.inj hstep
    exact hused.goTo hmem howns.symm hopens.symm fun _ _ _ hcursor ↦ by cases hcursor
  | compareSid =>
    obtain rfl := Option.some.inj hstep
    by_cases hsid : s.isSid request.sid sub = true
    · rw [if_pos hsid]
      exact hused.goTo hmem howns.symm hopens.symm fun _ _ _ hcursor ↦ by cases hcursor
    · rw [if_neg hsid]
      refine hused.goTo (fun other hother ↦ ?_) howns.symm hopens.symm
        fun _ _ _ hcursor ↦ by cases hcursor
      rw [Option.mem_some_iff.mp hother] at hmem
      exact hmem
  | setTimeout =>
    obtain rfl := Option.some.inj hstep
    exact (h.update halive _).goTo hmem howns.symm hopens.symm fun _ _ _ hcursor ↦ by cases hcursor
  | renew =>
    obtain rfl := Option.some.inj hstep
    exact (h.update halive _).goTo trivial howns.symm hopens.symm
      fun _ _ _ hcursor ↦ by cases hcursor

/-- The next statement of any thread. -/
theorem statement (h : s.Linked records) {s' : SubscriberHeap} {t : ℕ} {now : ℤ}
    (hinserting : ∀ sub sid timeout, s.thread t = .creating sub sid timeout .add →
      ∀ t', (s.thread t').prevList ≠ some (s.links.prev none))
    (hstep : s.statement t now (s.thread t) = some s') : ∃ records', s'.Linked records' := by
  cases hthread : s.thread t with
  | creating sub sid timeout stage =>
    refine ⟨records, h.creating hthread (fun hstage ↦ ?_) hstep⟩
    exact hinserting sub sid timeout (hstage ▸ hthread)
  | inserting sub prevList stage => exact h.inserting hthread hstep
  | seeking request list stage => exact ⟨records, h.seeking hthread hstep⟩
  | renewing request sub stage => exact ⟨records, h.renewing hthread hstep⟩
  | idle | strayed =>
    rw [hthread] at hstep
    cases hstep

end Linked

end SubscriberHeap

end Mupnp.Event
