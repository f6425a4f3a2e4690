import Mupnp.Discovery.StepEffect

/-!
# Pending fetches and their threads

Every pending fetch belongs to a thread that is downloading for it, a thread has at most one, and
every thread that downloads has one (`System.Tracked`). The invariant says that a pending record,
which lies on the stack of its thread, is never left behind when the thread goes on, and that it
still names the UDN and the location of the packet the thread downloads for; `tracked_of_run`
holds it along every run.
-/

set_option autoImplicit false
set_option relaxedAutoImplicit false

namespace Mupnp.Discovery

open Foundation Util Ssdp

/-- What a pending fetch is for: the fields that its thread relies on. -/
def Fetch.key (fetch : Fetch) : ThreadId × CString × CString :=
  (fetch.owner, fetch.udn, fetch.location)

namespace ControlPoint

/-- Marking fetches as superseded changes nothing else about them. -/
theorem map_markSuperseded {β : Type*} (g : Fetch → β)
    (hg : ∀ pending superseded, g { pending with superseded := superseded } = g pending)
    (fetch : Fetch) (pendingFetches : List Fetch) :
    (markSuperseded fetch pendingFetches).1.map g = pendingFetches.map g := by
  induction pendingFetches with
  | nil => rfl
  | cons pending rest ih =>
    rw [markSuperseded]
    split_ifs
    · rfl
    · rw [List.map_cons, List.map_cons, hg, ih]
    · rw [List.map_cons, List.map_cons, ih]

/-- The pending fetches after the first section of a fetch: those before it, and a new one when a
fetch was reserved. -/
theorem reserve_pendingFetches (ctrlPoint : ControlPoint) (owner : ThreadId) (ssdpPkt : SsdpPacket)
    (now : ℤ) (memory : Bool) :
    ((ctrlPoint.reserve owner ssdpPkt now memory).2 = none ∧
        (ctrlPoint.reserve owner ssdpPkt now memory).1.pendingFetches.map Fetch.key =
          ctrlPoint.pendingFetches.map Fetch.key) ∨
      ∃ reservation udn location, fetchTarget ssdpPkt = some (udn, location) ∧
        (ctrlPoint.reserve owner ssdpPkt now memory).2 = some reservation ∧
        (ctrlPoint.reserve owner ssdpPkt now memory).1.pendingFetches.map Fetch.key =
          (owner, udn, location) :: ctrlPoint.pendingFetches.map Fetch.key := by
  rcases reserve_cases ctrlPoint owner ssdpPkt now memory with ⟨-, hignored⟩ |
    ⟨udn, location, dev, -, -, -, -, hrefreshed⟩ | ⟨udn, location, htarget, -, -, hreserved⟩
  · rw [hignored]
    exact Or.inl ⟨rfl, rfl⟩
  · rw [hrefreshed]
    exact Or.inl ⟨rfl, rfl⟩
  · have hmap := fun fetch ↦
      map_markSuperseded Fetch.key (fun _ _ ↦ rfl) fetch ctrlPoint.pendingFetches
    rw [hreserved]
    simp only [enqueue]
    split_ifs
    · exact Or.inl ⟨rfl, hmap _⟩
    · exact Or.inl ⟨rfl, hmap _⟩
    · exact Or.inr ⟨_, udn, location, htarget, rfl, by rw [List.map_cons, hmap]; rfl⟩

end ControlPoint

/-- A list of pending fetches and the local states of the threads belong together. -/
structure FetchesTracked (keys : List (ThreadId × CString × CString)) (thread : ThreadId → Thread) :
    Prop where
  nodup : (keys.map Prod.fst).Nodup
  fetching : ∀ key ∈ keys, ∃ ssdpPkt reservation, thread key.1 = .fetching ssdpPkt reservation ∧
    ControlPoint.fetchTarget ssdpPkt = some key.2
  pending : ∀ t, (thread t).isFetching = true → ∃ key ∈ keys, key.1 = t

/-- The pending fetches and the downloading threads of a system belong together. -/
def System.Tracked (s : System) : Prop :=
  FetchesTracked (s.ctrlPoint.pendingFetches.map Fetch.key) s.thread

namespace FetchesTracked

variable {keys : List (ThreadId × CString × CString)} {thread thread' : ThreadId → Thread}
  {t : ThreadId}

/-- A thread that is not downloading has no pending fetch. -/
theorem ne_of_not_fetching (h : FetchesTracked keys thread) (ht : (thread t).isFetching = false) :
    ∀ key ∈ keys, key.1 ≠ t := by
  rintro key hkey rfl
  obtain ⟨ssdpPkt, reservation, hthread, -⟩ := h.fetching key hkey
  rw [hthread] at ht
  cases ht

/-- A step of a thread that does not download, neither before nor after it. -/
theorem of_other (h : FetchesTracked keys thread) (hother : ∀ u, u ≠ t → thread' u = thread u)
    (ht : (thread t).isFetching = false) (ht' : (thread' t).isFetching = false) :
    FetchesTracked keys thread' := by
  refine ⟨h.nodup, fun key hkey ↦ ?_, fun u hu ↦ ?_⟩
  · rw [hother key.1 (h.ne_of_not_fetching ht key hkey)]
    exact h.fetching key hkey
  · by_cases hut : u = t
    · rw [hut, ht'] at hu
      cases hu
    · rw [hother u hut] at hu
      exact h.pending u hu

/-- A thread reserves a fetch. -/
theorem cons (h : FetchesTracked keys thread) (hother : ∀ u, u ≠ t → thread' u = thread u)
    (ht : (thread t).isFetching = false) {ssdpPkt : SsdpPacket}
    {reservation : ControlPoint.Reservation} (ht' : thread' t = .fetching ssdpPkt reservation)
    {target : CString × CString} (htarget : ControlPoint.fetchTarget ssdpPkt = some target) :
    FetchesTracked ((t, target) :: keys) thread' := by
  have hne := h.ne_of_not_fetching ht
  refine ⟨?_, fun key hkey ↦ ?_, fun u hu ↦ ?_⟩
  · rw [List.map_cons]
    refine List.nodup_cons.mpr ⟨fun hmem ↦ ?_, h.nodup⟩
    obtain ⟨key, hkey, heq⟩ := List.mem_map.mp hmem
    exact hne key hkey heq
  · rcases List.mem_cons.mp hkey with rfl | hold
    · exact ⟨ssdpPkt, reservation, ht', htarget⟩
    · rw [hother key.1 (hne key hold)]
      exact h.fetching key hold
  · by_cases hut : u = t
    · exact ⟨(t, target), List.mem_cons_self, hut.symm⟩
    · rw [hother u hut] at hu
      obtain ⟨key, hkey, heq⟩ := h.pending u hu
      exact ⟨key, List.mem_cons_of_mem _ hkey, heq⟩

/-- A thread gives its reservation back. -/
theorem erase (h : FetchesTracked keys thread) (hother : ∀ u, u ≠ t → thread' u = thread u)
    (ht' : (thread' t).isFetching = false) :
    FetchesTracked (keys.eraseP (·.1 = t)) thread' := by
  have hsub : (keys.eraseP (·.1 = t)).Sublist keys := List.eraseP_sublist
  have hne : ∀ key ∈ keys.eraseP (·.1 = t), key.1 ≠ t := by
    intro key hkey heq
    obtain ⟨erased, before, after, hbefore, herased, hkeys, hrest⟩ :=
      List.exists_of_eraseP (p := fun key ↦ decide (key.1 = t)) (hsub.subset hkey)
        (decide_eq_true heq)
    rw [hrest] at hkey
    rcases List.mem_append.mp hkey with hmem | hmem
    · exact hbefore key hmem (decide_eq_true heq)
    · have hnodup := h.nodup
      rw [hkeys, List.map_append, List.map_cons] at hnodup
      refine (List.nodup_cons.mp (List.nodup_append.mp hnodup).2.1).1 ?_
      exact List.mem_map.mpr ⟨key, hmem, heq.trans (of_decide_eq_true herased).symm⟩
  refine ⟨h.nodup.sublist (hsub.map _), fun key hkey ↦ ?_, fun u hu ↦ ?_⟩
  · rw [hother key.1 (hne key hkey)]
    exact h.fetching key (hsub.subset hkey)
  · by_cases hut : u = t
    · rw [hut, ht'] at hu
      cases hu
    · rw [hother u hut] at hu
      obtain ⟨key, hkey, heq⟩ := h.pending u hu
      refine ⟨key, (List.mem_eraseP_of_neg ?_).mpr hkey, heq⟩
      simpa [heq] using hut

end FetchesTracked

namespace System

/-- A step that neither reserves nor commits leaves the pending fetches alone. -/
theorem tracked_of_other {s s' : System} {a : Action} (htracked : s.Tracked)
    (hpending : s'.ctrlPoint.pendingFetches = s.ctrlPoint.pendingFetches)
    (hannouncement : a.announcement = none) (hbefore : (s.thread a.thread).isFetching = false)
    (hstep : s.step a = some s') : s'.Tracked := by
  have hafter : (s'.thread a.thread).isFetching = false := by
    cases step_threadEffect hstep with
    | same hs' => rwa [hs']
    | set state hthreads hfetching hheld =>
      rw [thread, hthreads, ThreadTable.get_set_self]
      by_contra hstate
      have hsome := hfetching (by simpa using hstate)
      rw [hannouncement] at hsome
      cases hsome
  rw [Tracked, hpending]
  exact htracked.of_other (fun u hu ↦ thread_eq_of_step hstep (Ne.symm hu)) hbefore hafter

/-- Every step keeps the pending fetches and the downloading threads together. -/
theorem tracked_of_step {s s' : System} {a : Action} (htracked : s.Tracked)
    (hstep : s.step a = some s') : s'.Tracked := by
  cases hstate : s.thread a.thread with
  | fetching ssdpPkt reservation =>
    obtain ⟨description, fetchTime, now, ha⟩ := eq_commit_of_fetching hstate hstep
    rw [ha] at hstep
    obtain ⟨packet, reservation', fetch, hthread, hfetch, -, hs'⟩ := step_commit_eq_some hstep
    have howner : fetch.owner = a.thread := by simpa using List.find?_some hfetch
    have hcommit := ControlPoint.commit_fst_eq s.ctrlPoint fetch packet reservation'
      (ControlPoint.createCandidate packet fetch.udn description fetchTime) now
    have hpending : s'.ctrlPoint.pendingFetches.map Fetch.key =
        (s.ctrlPoint.pendingFetches.map Fetch.key).eraseP (·.1 = a.thread) := by
      rw [hs']
      simp only [commitFetch, update]
      rw [hcommit, howner, List.eraseP_map]
      rfl
    rw [Tracked, hpending]
    refine htracked.erase (fun u hu ↦ thread_eq_of_step hstep (Ne.symm hu)) ?_
    rw [hs']
    simp [commitFetch, update, thread, Thread.isFetching]
  | _ =>
    have hbefore : (s.thread a.thread).isFetching = false := by rw [hstate]; rfl
    cases hannouncement : a.announcement with
    | some announced =>
      obtain ⟨now, memory, -, -, hs'⟩ := step_eq_of_announcement hannouncement hstep
      have hothers : ∀ u, u ≠ a.thread → s'.thread u = s.thread u :=
        fun u hu ↦ thread_eq_of_step hstep (Ne.symm hu)
      rcases ControlPoint.reserve_pendingFetches s.ctrlPoint a.thread
        (SsdpPacket.new.copy announced now) now memory with
        ⟨hnone, hkeys⟩ | ⟨reservation, udn, location, htarget, hsome, hkeys⟩
      · rw [Tracked, hs', addDeviceBySsdpPacket_ctrlPoint, hkeys, ← hs']
        refine htracked.of_other hothers hbefore ?_
        rw [hs']
        simp [addDeviceBySsdpPacket, hnone, update, thread, Thread.isFetching]
      · have hfetching : s'.thread a.thread =
            .fetching (SsdpPacket.new.copy announced now) reservation := by
          rw [hs']
          simp [addDeviceBySsdpPacket, hsome, update, thread]
        rw [Tracked, hs', addDeviceBySsdpPacket_ctrlPoint, hkeys, ← hs']
        exact htracked.cons hothers hbefore hfetching htarget
    | none =>
      refine tracked_of_other htracked ?_ hannouncement hbefore hstep
      cases step_effect hstep with
      | quiet hepoch hctrlPoint hledger => rw [hctrlPoint]
      | announced t ssdpPkt now memory hthread ha hsome hs' =>
        rw [hannouncement] at hsome
        cases hsome
      | committed t ssdpPkt reservation fetch description fetchTime now hthread hfetch hfresh
          ha hs' =>
        subst ha
        rw [Action.thread, hthread] at hbefore
        cases hbefore
      | invalidated t udn caller hthread ha hctrlPoint hledger =>
        rw [hctrlPoint]
        rfl
      | deletedAtOnce t udn caller dev hthread ha hlistener hfound hctrlPoint hledger =>
        rw [hctrlPoint]
        rfl
      | deleted t dev caller hthread ha hctrlPoint hledger =>
        rw [hctrlPoint]
        rfl
      | stopped t restart ha hctrlPoint hledger =>
        rw [hctrlPoint]
        rfl
      | cleared t ha hctrlPoint hledger =>
        rw [hctrlPoint]
        rfl
      | started t ha hctrlPoint hledger =>
        rw [hctrlPoint]
        rfl

theorem tracked_init (deviceListener : Bool) : (init deviceListener).Tracked where
  nodup := List.nodup_nil
  fetching := fun _ hkey ↦ absurd hkey List.not_mem_nil
  pending := fun _ hfetching ↦ Bool.noConfusion hfetching

theorem tracked_of_run {s s' : System} {actions : List Action} (htracked : s.Tracked)
    (hrun : discovery.run s actions = some s') : s'.Tracked :=
  TransitionSystem.invariant_of_run (I := Tracked) (fun _ _ _ h hstep ↦ tracked_of_step h hstep)
    htracked hrun

end System

end Mupnp.Discovery
