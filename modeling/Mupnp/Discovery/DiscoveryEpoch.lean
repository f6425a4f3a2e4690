import Mathlib.Data.BitVec
import Mupnp.Discovery.StepEffect

/-!
# Removals and stops against fetches in flight

A removal and a stop increment the discovery epoch in their first section, and a fetch remembers
the epoch at its reservation. `discoveryEpoch_of_run` counts the increments of a run, so a fetch
that was reserved before one of them finds another epoch at its commit and leaves every cached
device as it is (`commit_deviceList_of_stale`).

`StopProgress` is the invariant that carries a stop from its first section to its end and beyond:
while no start function accepts work again, nothing is reserved, and when the stop has finished
neither a device nor a pending fetch is left.
-/

set_option autoImplicit false
set_option relaxedAutoImplicit false

namespace Mupnp.Discovery

open Foundation Util Ssdp

namespace Action

/-- The step by which the start function accepts work again. -/
def isStart : Action → Bool
  | start _ => true
  | _ => false

end Action

/-! ### The epoch -/

namespace ControlPoint

theorem reserve_discoveryEpoch (ctrlPoint : ControlPoint) (owner : ThreadId) (ssdpPkt : SsdpPacket)
    (now : ℤ) (memory : Bool) :
    (ctrlPoint.reserve owner ssdpPkt now memory).1.discoveryEpoch = ctrlPoint.discoveryEpoch := by
  rcases reserve_cases ctrlPoint owner ssdpPkt now memory with ⟨-, hignored⟩ |
    ⟨udn, location, dev, -, -, -, -, hrefreshed⟩ | ⟨udn, location, -, -, -, hreserved⟩
  · rw [hignored]
  · rw [hrefreshed]
    rfl
  · obtain ⟨pendingFetches, henqueue⟩ := enqueue_fst ctrlPoint owner udn location
      (ctrlPoint.getRootDeviceByUdn udn) memory
    rw [hreserved, henqueue]

/-- A reservation remembers the epoch in which it is made. -/
theorem reserve_epoch {ctrlPoint : ControlPoint} {owner : ThreadId} {ssdpPkt : SsdpPacket} {now : ℤ}
    {memory : Bool} {reservation : Reservation}
    (hreserved : (ctrlPoint.reserve owner ssdpPkt now memory).2 = some reservation) :
    reservation.epoch = ctrlPoint.discoveryEpoch := by
  rcases reserve_cases ctrlPoint owner ssdpPkt now memory with ⟨-, hignored⟩ |
    ⟨udn, location, dev, -, -, -, -, hrefreshed⟩ | ⟨udn, location, -, -, -, henqueued⟩
  · rw [hignored] at hreserved
    cases hreserved
  · rw [hrefreshed] at hreserved
    cases hreserved
  · rw [henqueued] at hreserved
    simp only [enqueue] at hreserved
    split_ifs at hreserved
    obtain rfl := Option.some.inj hreserved
    rfl

/-- A fetch that may not publish leaves the device list as it is. -/
theorem commit_deviceList_of_not_mayPublish {ctrlPoint : ControlPoint} {fetch : Fetch}
    {reservation : Reservation} (hstale : ¬ ctrlPoint.MayPublish fetch reservation)
    (ssdpPkt : SsdpPacket) (candidate : Option Device) (now : ℤ) :
    (ctrlPoint.commit fetch ssdpPkt reservation candidate now).1.deviceList =
      ctrlPoint.deviceList := by
  have houtcome := commit_outcome ctrlPoint fetch ssdpPkt reservation candidate now
  generalize (ctrlPoint.commit fetch ssdpPkt reservation candidate now).2 = leftOver at houtcome
  generalize (ctrlPoint.commit fetch ssdpPkt reservation candidate now).1.deviceList = devices
    at houtcome ⊢
  cases houtcome with
  | unchanged => rfl
  | updated dev newDev hpublish hroot hlocation hcandidate => exact absurd hpublish hstale
  | added newDev hpublish hroot hcandidate hnew => exact absurd hpublish hstale

end ControlPoint

namespace System

/-- The first section of a removal or of stop increments the epoch, and no other step changes it. -/
theorem discoveryEpoch_of_step {s s' : System} {a : Action} (hstep : s.step a = some s') :
    s'.ctrlPoint.discoveryEpoch =
      s.ctrlPoint.discoveryEpoch + if a.incrementsEpoch then 1 else 0 := by
  cases step_effect hstep with
  | quiet hepoch hctrlPoint hledger => simp [hepoch, hctrlPoint]
  | announced t ssdpPkt now memory hthread ha hannouncement hs' =>
    have hepoch : a.incrementsEpoch = false := by
      rcases ha with rfl | rfl <;> rfl
    rw [hs', addDeviceBySsdpPacket_ctrlPoint, ControlPoint.reserve_discoveryEpoch, hepoch]
    simp
  | committed t ssdpPkt reservation fetch description fetchTime now hthread hfetch hfresh ha hs' =>
    have hcommit := ControlPoint.commit_fst_eq s.ctrlPoint fetch ssdpPkt reservation
      (ControlPoint.createCandidate ssdpPkt fetch.udn description fetchTime) now
    rw [hs', ha]
    simp only [commitFetch, update]
    rw [hcommit]
    simp [Action.incrementsEpoch]
  | invalidated t udn caller hthread ha hctrlPoint hledger =>
    rw [hctrlPoint, ha]
    rfl
  | deletedAtOnce t udn caller dev hthread ha hlistener hfound hctrlPoint hledger =>
    rw [hctrlPoint, ha]
    rfl
  | deleted t dev caller hthread ha hctrlPoint hledger =>
    rw [hctrlPoint, ha]
    simp [ControlPoint.deleteDevice, Action.incrementsEpoch]
  | stopped t restart ha hctrlPoint hledger =>
    rw [hctrlPoint, ha]
    rfl
  | cleared t ha hctrlPoint hledger =>
    rw [hctrlPoint]
    rcases ha with rfl | rfl <;> simp [ControlPoint.clearDevices, Action.incrementsEpoch]
  | started t ha hctrlPoint hledger =>
    rw [hctrlPoint, ha]
    simp [ControlPoint.beginStart, Action.incrementsEpoch]

/-- At the end of a run the epoch has grown by the number of removals and stops that began in it. -/
theorem discoveryEpoch_of_run {s s' : System} {actions : List Action}
    (hrun : discovery.run s actions = some s') :
    s'.ctrlPoint.discoveryEpoch =
      s.ctrlPoint.discoveryEpoch + BitVec.ofNat 64 (actions.countP Action.incrementsEpoch) := by
  have hmeasure := TransitionSystem.run_measure (M := discovery)
    (fun s ↦ s.ctrlPoint.discoveryEpoch) (fun a ↦ if a.incrementsEpoch then 1 else 0)
    (fun s a s' hstep ↦ discoveryEpoch_of_step hstep) hrun
  have hcount : (actions.map fun a ↦ if a.incrementsEpoch then (1 : BitVec 64) else 0).sum =
      BitVec.ofNat 64 (actions.countP Action.incrementsEpoch) := by
    clear hrun hmeasure
    induction actions with
    | nil => rfl
    | cons a rest ih =>
      rw [List.map_cons, List.sum_cons, ih]
      by_cases ha : a.incrementsEpoch = true
      · rw [if_pos ha, List.countP_cons_of_pos ha, BitVec.add_comm, BitVec.ofNat_add]
        rfl
      · rw [if_neg ha, List.countP_cons_of_neg ha, zero_add]
  rw [hmeasure, hcount]

/-- A run with some increments, but not so many that the epoch comes round, changes the epoch. -/
theorem discoveryEpoch_ne_of_run {s s' : System} {actions : List Action}
    (hrun : discovery.run s actions = some s')
    (hincrement : ∃ a ∈ actions, a.incrementsEpoch = true)
    (hwrap : actions.countP Action.incrementsEpoch < 2 ^ 64) :
    s.ctrlPoint.discoveryEpoch ≠ s'.ctrlPoint.discoveryEpoch := by
  intro heq
  have hpos : 0 < actions.countP Action.incrementsEpoch := by
    obtain ⟨a, hmem, ha⟩ := hincrement
    exact List.countP_pos_iff.mpr ⟨a, hmem, ha⟩
  have hrunEpoch := discoveryEpoch_of_run hrun
  rw [← heq] at hrunEpoch
  have hzero : BitVec.ofNat 64 (actions.countP Action.incrementsEpoch) = 0#64 := by
    have hself : s.ctrlPoint.discoveryEpoch + 0#64 = s.ctrlPoint.discoveryEpoch +
        BitVec.ofNat 64 (actions.countP Action.incrementsEpoch) := by
      rw [← hrunEpoch]
      exact BitVec.add_zero _
    exact ((BitVec.add_right_inj _).mp hself).symm
  have hnat := congrArg BitVec.toNat hzero
  rw [BitVec.toNat_ofNat, Nat.mod_eq_of_lt hwrap] at hnat
  exact hpos.ne' hnat

/-! ### Fetches in flight -/

/-- After an announcement that is fetched, the fetch remembers the epoch that the control point is
in. -/
theorem reservation_epoch {s s' : System} {a : Action} {announced ssdpPkt : SsdpPacket}
    {reservation : ControlPoint.Reservation} (hannouncement : a.announcement = some announced)
    (hstep : s.step a = some s') (hfetching : s'.thread a.thread = .fetching ssdpPkt reservation) :
    reservation.epoch = s'.ctrlPoint.discoveryEpoch := by
  obtain ⟨now, memory, -, -, rfl⟩ := step_eq_of_announcement hannouncement hstep
  rw [addDeviceBySsdpPacket_ctrlPoint, ControlPoint.reserve_discoveryEpoch]
  simp only [addDeviceBySsdpPacket] at hfetching
  split at hfetching
  · simp [update, thread] at hfetching
  · rename_i reserved hreserved
    have hstate : Thread.fetching (SsdpPacket.new.copy announced now) reserved =
        .fetching ssdpPkt reservation := by
      rw [← hfetching]
      simp [update, thread]
    obtain ⟨-, rfl⟩ := Thread.fetching.inj hstate
    exact ControlPoint.reserve_epoch hreserved

/-- A fetch that finds another epoch than that of its reservation leaves every cached device as it
is. -/
theorem commit_deviceList_of_stale {s s' : System} {t : ThreadId} {ssdpPkt : SsdpPacket}
    {reservation : ControlPoint.Reservation}
    (hfetching : s.thread t = .fetching ssdpPkt reservation)
    (hepoch : reservation.epoch ≠ s.ctrlPoint.discoveryEpoch) {description : Option Device}
    {fetchTime now : ℤ} (hstep : s.step (.commit t description fetchTime now) = some s') :
    s'.ctrlPoint.deviceList = s.ctrlPoint.deviceList := by
  obtain ⟨packet, reservation', fetch, hthread, -, -, rfl⟩ := step_commit_eq_some hstep
  obtain ⟨rfl, rfl⟩ := Thread.fetching.inj (hfetching.symm.trans hthread)
  refine ControlPoint.commit_deviceList_of_not_mayPublish ?_ _ _ _
  rintro ⟨-, -, hsame⟩
  exact hepoch hsame

/-! ### Stopping -/

/-- How far the stop function has come on a thread. As long as no start function accepts work again,
it is waiting, or in a listener call with nothing pending, or it has emptied the control point. -/
def StopProgress (t : ThreadId) (s : System) : Prop :=
  s.ctrlPoint.stopping = true ∧
    ((∃ restart, s.thread t = .stopping restart) ∨
      ((∃ dev restart, s.thread t = .walking dev restart) ∧ s.ctrlPoint.pendingFetches = []) ∨
      s.thread t = .crashed ∨
      (s.ctrlPoint.deviceList = [] ∧ s.ctrlPoint.pendingFetches = []))

/-- While the control point is stopping, a step keeps the flag, reserves nothing and, when no fetch
is pending, changes the device list only by taking devices out. -/
theorem stopping_of_step {s s' : System} {a : Action} (hstopping : s.ctrlPoint.stopping = true)
    (hstart : a.isStart = false) (hstep : s.step a = some s') :
    s'.ctrlPoint.stopping = true ∧
      (s.ctrlPoint.pendingFetches = [] → s'.ctrlPoint.pendingFetches = [] ∧
        (s.ctrlPoint.deviceList = [] → s'.ctrlPoint.deviceList = [])) := by
  cases step_effect hstep with
  | quiet hincrement hctrlPoint hledger =>
    rw [hctrlPoint]
    exact ⟨hstopping, fun hpending ↦ ⟨hpending, fun hlist ↦ hlist⟩⟩
  | announced t ssdpPkt now memory hthread ha hannouncement hs' =>
    have hignored : s.ctrlPoint.reserve t (SsdpPacket.new.copy ssdpPkt now) now memory =
        (s.ctrlPoint, none) := by
      rcases ControlPoint.reserve_cases s.ctrlPoint t (SsdpPacket.new.copy ssdpPkt now) now memory
        with ⟨-, hignored⟩ | ⟨_, _, _, -, hrunning, -⟩ | ⟨_, _, -, hrunning, -⟩
      · exact hignored
      · exact absurd (hstopping.symm.trans hrunning) (by decide)
      · exact absurd (hstopping.symm.trans hrunning) (by decide)
    rw [hs', addDeviceBySsdpPacket_ctrlPoint, hignored]
    exact ⟨hstopping, fun hpending ↦ ⟨hpending, fun hlist ↦ hlist⟩⟩
  | committed t ssdpPkt reservation fetch description fetchTime now hthread hfetch hfresh ha hs' =>
    have hcommit := ControlPoint.commit_fst_eq s.ctrlPoint fetch ssdpPkt reservation
      (ControlPoint.createCandidate ssdpPkt fetch.udn description fetchTime) now
    subst hs'
    simp only [commitFetch, update]
    rw [hcommit]
    refine ⟨hstopping, fun hpending ↦ ?_⟩
    rw [hpending] at hfetch
    cases hfetch
  | invalidated t udn caller hthread ha hctrlPoint hledger =>
    rw [hctrlPoint]
    exact ⟨hstopping, fun hpending ↦ ⟨hpending, fun hlist ↦ hlist⟩⟩
  | deletedAtOnce t udn caller dev hthread ha hlistener hfound hctrlPoint hledger =>
    rw [hctrlPoint]
    refine ⟨hstopping, fun hpending ↦ ⟨hpending, fun hlist ↦ ?_⟩⟩
    simp [ControlPoint.deleteDevice, ControlPoint.invalidate, hlist]
  | deleted t dev caller hthread ha hctrlPoint hledger =>
    rw [hctrlPoint]
    refine ⟨hstopping, fun hpending ↦ ⟨hpending, fun hlist ↦ ?_⟩⟩
    simp [ControlPoint.deleteDevice, hlist]
  | stopped t restart ha hctrlPoint hledger =>
    rw [hctrlPoint]
    exact ⟨rfl, fun hpending ↦ ⟨hpending, fun hlist ↦ hlist⟩⟩
  | cleared t ha hctrlPoint hledger =>
    rw [hctrlPoint]
    exact ⟨hstopping, fun hpending ↦ ⟨hpending, fun _ ↦ rfl⟩⟩
  | started t ha hctrlPoint hledger =>
    rw [ha] at hstart
    cases hstart

/-- The loop of the stop function leaves the thread in a listener call or empties the device list.
-/
theorem stopLoop_progress (s : System) (t : ThreadId) (restart : Bool) (devices : List Device) :
    (∃ dev, (s.stopLoop t restart devices).thread t = .walking dev restart) ∨
      (s.stopLoop t restart devices).ctrlPoint.deviceList = [] := by
  rcases stopLoop_cases s t restart devices with ⟨dev, -, hcall⟩ | ⟨-, hclear⟩
  · left
    refine ⟨dev.id, ?_⟩
    rw [hcall]
    simp [update, thread]
  · right
    rw [hclear]
    rfl

/-- A stop that has begun goes on until it has emptied the control point. -/
theorem stopProgress_of_step {t : ThreadId} {s s' : System} {a : Action}
    (hprogress : StopProgress t s) (hstart : a.isStart = false) (hstep : s.step a = some s') :
    StopProgress t s' := by
  obtain ⟨hstopping, hstage⟩ := hprogress
  obtain ⟨hstopping', hpending'⟩ := stopping_of_step hstopping hstart hstep
  refine ⟨hstopping', ?_⟩
  rcases hstage with ⟨restart, hthread⟩ | ⟨⟨dev, restart, hthread⟩, hpending⟩ | hcrashed |
    ⟨hlist, hpending⟩
  · by_cases hactor : a.thread = t
    · obtain ⟨u, rfl⟩ : ∃ u, a = .joined u := by
        cases a <;> simp_all [Action.thread, step]
      obtain rfl : u = t := hactor
      simp only [step, hthread] at hstep
      split_ifs at hstep with hjoined
      obtain rfl := Option.some.inj hstep
      have hnone : s.ctrlPoint.pendingFetches = [] := by simp_all
      rcases stopLoop_progress s u restart s.ctrlPoint.deviceList with ⟨dev, hwalking⟩ | hempty
      · exact Or.inr (Or.inl ⟨⟨dev, restart, hwalking⟩, (hpending' hnone).1⟩)
      · exact Or.inr (Or.inr (Or.inr ⟨hempty, (hpending' hnone).1⟩))
    · exact Or.inl ⟨restart, by rw [thread_eq_of_step hstep hactor, hthread]⟩
  · by_cases hactor : a.thread = t
    · obtain ⟨u, rfl⟩ : ∃ u, a = .walkOn u := by
        cases a <;> simp_all [Action.thread, step]
      obtain rfl : u = t := hactor
      simp only [step, hthread] at hstep
      split_ifs at hstep with hlive
      · obtain rfl := Option.some.inj hstep
        rcases stopLoop_progress s u restart (s.ctrlPoint.devicesAfter dev) with
          ⟨next, hwalking⟩ | hempty
        · exact Or.inr (Or.inl ⟨⟨next, restart, hwalking⟩, (hpending' hpending).1⟩)
        · exact Or.inr (Or.inr (Or.inr ⟨hempty, (hpending' hpending).1⟩))
      · obtain rfl := Option.some.inj hstep
        refine Or.inr (Or.inr (Or.inl ?_))
        simp [fail, thread]
    · refine Or.inr (Or.inl ⟨⟨dev, restart, ?_⟩, (hpending' hpending).1⟩)
      rw [thread_eq_of_step hstep hactor, hthread]
  · refine Or.inr (Or.inr (Or.inl ?_))
    have hother : a.thread ≠ t := by
      rintro rfl
      cases a <;> simp_all [Action.thread, step]
    rw [thread_eq_of_step hstep hother, hcrashed]
  · obtain ⟨hpendingNil, hlistNil⟩ := hpending' hpending
    exact Or.inr (Or.inr (Or.inr ⟨hlistNil hlist, hpendingNil⟩))

theorem stopProgress_of_run {t : ThreadId} {s s' : System} {actions : List Action}
    (hprogress : StopProgress t s) (hstart : ∀ a ∈ actions, a.isStart = false)
    (hrun : discovery.run s actions = some s') : StopProgress t s' :=
  TransitionSystem.invariant_of_run_of_forall_mem (I := StopProgress t)
    (fun _ _ _ h ha hstep ↦ stopProgress_of_step h ha hstep) hstart hprogress hrun

/-- The first section of stop sets the flag and leaves the thread waiting. -/
theorem stopProgress_of_stop {t : ThreadId} {restart : Bool} {s s' : System}
    (hstep : s.step (.stop t restart) = some s') : StopProgress t s' := by
  cases step_moves hstep with
  | stop hthread =>
    refine ⟨rfl, Or.inl ⟨restart, ?_⟩⟩
    simp [update, thread]

/-- Removals and stops against fetches in flight. A fetch that was reserved before the epoch
increment of a removal or of a stop leaves every cached device as it is when it is committed after
it, whatever other threads do in between, unless they wrap the epoch. Once a stop has finished,
there is neither a device nor a pending fetch in the control point until a start function accepts
work again. -/
theorem removals_and_stops_discard_fetches :
    (∀ (s s₁ s₂ s₃ : System) (announce : Action) (announced ssdpPkt : SsdpPacket)
      (reservation : ControlPoint.Reservation) (between : List Action)
      (description : Option Device) (fetchTime now : ℤ),
      announce.announcement = some announced → s.step announce = some s₁ →
      s₁.thread announce.thread = .fetching ssdpPkt reservation →
      discovery.run s₁ between = some s₂ → (∀ a ∈ between, a.thread ≠ announce.thread) →
      (∃ a ∈ between, a.incrementsEpoch = true) →
      between.countP Action.incrementsEpoch < 2 ^ 64 →
      s₂.step (.commit announce.thread description fetchTime now) = some s₃ →
      s₃.ctrlPoint.deviceList = s₂.ctrlPoint.deviceList) ∧
    ∀ (s s₁ s₂ s₃ : System) (t : ThreadId) (restart : Bool) (during after : List Action),
      s.step (.stop t restart) = some s₁ → discovery.run s₁ during = some s₂ →
      (s₂.thread t = .idle ∨ s₂.thread t = .starting) → discovery.run s₂ after = some s₃ →
      (∀ a ∈ during ++ after, a.isStart = false) →
      s₃.ctrlPoint.deviceList = [] ∧ s₃.ctrlPoint.pendingFetches = [] := by
  constructor
  · intro s s₁ s₂ s₃ announce announced ssdpPkt reservation between description fetchTime now
      hannouncement hreserve hfetching hrun hothers hincrement hwrap hcommit
    have hepoch : reservation.epoch = s₁.ctrlPoint.discoveryEpoch :=
      reservation_epoch hannouncement hreserve hfetching
    have hstale : reservation.epoch ≠ s₂.ctrlPoint.discoveryEpoch := by
      rw [hepoch]
      exact discoveryEpoch_ne_of_run hrun hincrement hwrap
    have hfetching' : s₂.thread announce.thread = .fetching ssdpPkt reservation := by
      rw [thread_eq_of_run hrun hothers, hfetching]
    exact commit_deviceList_of_stale hfetching' hstale hcommit
  · intro s s₁ s₂ s₃ t restart during after hstop hduring hfinished hafter hstart
    have hprogress : StopProgress t s₂ :=
      stopProgress_of_run (stopProgress_of_stop hstop)
        (fun a ha ↦ hstart a (List.mem_append_left _ ha)) hduring
    have hempty : s₂.ctrlPoint.deviceList = [] ∧ s₂.ctrlPoint.pendingFetches = [] := by
      rcases hprogress.2 with ⟨_, hthread⟩ | ⟨⟨_, _, hthread⟩, -⟩ | hthread | hempty
      · rcases hfinished with h | h <;> rw [h] at hthread <;> cases hthread
      · rcases hfinished with h | h <;> rw [h] at hthread <;> cases hthread
      · rcases hfinished with h | h <;> rw [h] at hthread <;> cases hthread
      · exact hempty
    have hkeep : ∀ u a u', u.ctrlPoint.stopping = true ∧ u.ctrlPoint.pendingFetches = [] ∧
        u.ctrlPoint.deviceList = [] → a.isStart = false → discovery.step u a = some u' →
        u'.ctrlPoint.stopping = true ∧ u'.ctrlPoint.pendingFetches = [] ∧
          u'.ctrlPoint.deviceList = [] := by
      rintro u a u' ⟨hstopping, hpending, hlist⟩ ha hstep
      obtain ⟨hstopping', hrest⟩ := stopping_of_step hstopping ha hstep
      exact ⟨hstopping', (hrest hpending).1, (hrest hpending).2 hlist⟩
    have hend := TransitionSystem.invariant_of_run_of_forall_mem hkeep
      (fun a ha ↦ hstart a (List.mem_append_right _ ha)) ⟨hprogress.1, hempty.2, hempty.1⟩ hafter
    exact ⟨hend.2.2, hend.2.1⟩

theorem removals_and_stops_discard_fetches_stopped :
    ∃ s₂ s₃ s₄ : System, downloading.step (.stop (.application 0) false) = some s₂ ∧
      s₂.step rootCommit = some s₃ ∧ s₃.ctrlPoint.deviceList = s₂.ctrlPoint.deviceList ∧
      s₃.step (.joined (.application 0)) = some s₄ ∧
      s₄.ctrlPoint.deviceList = [] ∧ s₄.ctrlPoint.pendingFetches = [] := by
  refine ⟨_, _, _, rfl, rfl, ?_, rfl, ?_⟩
  · exact removals_and_stops_discard_fetches.1 (init true) downloading _ _ rootResponse _ _ _
      [.stop (.application 0) false] (some rootDescription) 1 2 rfl rfl rfl rfl (by decide)
        (by decide) (by decide) rfl
  · exact removals_and_stops_discard_fetches.2 downloading _ _ _ (.application 0) false
      [rootCommit, .joined (.application 0)] [] rfl rfl (Or.inl rfl) rfl (by decide)

end System

end Mupnp.Discovery
