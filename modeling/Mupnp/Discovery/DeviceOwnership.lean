import Mupnp.Discovery.DeviceLedger

/-!
# Concurrent removals

The removal paths carry device pointers over the windows in which the control point mutex is not
held. `HeldLive` says that every pointer that some thread carries is to an object that the control
point still holds. While it holds, no step uses a deleted object (`useAfterFree_of_step`).

A step keeps `HeldLive` when the objects it deletes are carried by no other thread and are not the
ones that its own caller goes on with (`SparesHeld`). `removals_delete_once_of_run` is the result
for runs: when every step spares what is held, no step uses a deleted object and each object is
deleted at most once, and exactly once when the control point no longer holds it. Two byebye
removals of one device break both (`not_removals_delete_once`).
-/

set_option autoImplicit false
set_option relaxedAutoImplicit false

namespace Mupnp.Discovery

open Foundation Util Ssdp

namespace System

/-- Every device pointer that a thread carries is to an object that the control point holds. -/
def HeldLive (s : System) : Prop :=
  ∀ t, ∀ dev ∈ (s.thread t).held, dev ∈ deviceIds s.ctrlPoint.deviceList

/-- The device objects that a step deletes. -/
def deletedBy (s : System) : Action → List DeviceId
  | .commit t description fetchTime now =>
    match s.thread t, s.ctrlPoint.pendingFetches.find? (·.owner = t) with
    | .fetching ssdpPkt reservation, some fetch =>
      deviceIds (s.ctrlPoint.commit fetch ssdpPkt reservation
        (ControlPoint.createCandidate ssdpPkt fetch.udn description fetchTime) now).2.toList
    | _, _ => []
  | .lookup t =>
    match s.thread t with
    | .removing udn _ =>
      match s.ctrlPoint.getDeviceByUdn (some udn) with
      | some dev => if s.ctrlPoint.deviceListener then [] else s.ctrlPoint.deletedIds dev.id
      | none => []
    | _ => []
  | .delete t =>
    match s.thread t with
    | .deleting dev _ => s.ctrlPoint.deletedIds dev
    | _ => []
  | .joined _ =>
    if s.ctrlPoint.deviceList.any fun dev ↦ dev.udn.isSome && s.ctrlPoint.deviceListener then []
    else deviceIds s.ctrlPoint.deviceList
  | .walkOn t =>
    match s.thread t with
    | .walking dev _ =>
      if (s.ctrlPoint.devicesAfter dev).any fun dev ↦
          dev.udn.isSome && s.ctrlPoint.deviceListener then []
      else deviceIds s.ctrlPoint.deviceList
    | _ => []
  | _ => []

/-- No thread still needs an object that the step deletes: neither a pointer that another thread
carries, nor the one that the caller of this removal goes on with. -/
def SparesHeld (s : System) (a : Action) : Prop :=
  ∀ dev ∈ s.deletedBy a,
    dev ∉ (s.thread a.thread).kept ∧ ∀ t, t ≠ a.thread → dev ∉ (s.thread t).held

theorem kept_subset_held (state : Thread) : ∀ dev ∈ state.kept, dev ∈ state.held := by
  intro dev hdev
  cases state with
  | readingPacket other caller => exact List.mem_cons_of_mem _ hdev
  | removing udn caller => exact hdev
  | deleting other caller => exact List.mem_cons_of_mem _ hdev
  | _ => exact absurd hdev List.not_mem_nil

/-! ### Using the pointers -/

theorem findObject_isSome {ctrlPoint : ControlPoint} {id : DeviceId}
    (hlive : id ∈ deviceIds ctrlPoint.deviceList) : (ctrlPoint.findObject id).isSome := by
  obtain ⟨object, hobject, hid⟩ := List.mem_map.mp hlive
  obtain ⟨dev, hdev, hvalue⟩ := List.mem_map.mp hobject
  refine List.find?_isSome.mpr ⟨dev, hdev, ?_⟩
  rw [hvalue]
  exact decide_eq_true hid

/-- While every pointer is to an object that is there, no step uses a deleted one. -/
theorem useAfterFree_of_step {s s' : System} {a : Action} (hheld : s.HeldLive)
    (hstep : s.step a = some s') : s'.useAfterFree = s.useAfterFree := by
  cases step_moves hstep with
  | @announce t ssdpPkt now memory hthread hannounced =>
    exact addDeviceBySsdpPacket_useAfterFree s t ssdpPkt now memory
  | leave hthread hsilent hbyebye => rfl
  | ignore hthread hsilent => rfl
  | @respond t ssdpPkt now memory hthread =>
    exact addDeviceBySsdpPacket_useAfterFree s t ssdpPkt now memory
  | commit hthread hfetch hfresh => rfl
  | expire hthread => rfl
  | changeIp hthread => rfl
  | endScan hthread => rfl
  | scan hthread => rfl
  | @readPacket t dev caller hthread =>
    have hdev := hheld t dev (by rw [hthread]; exact List.mem_cons_self)
    obtain ⟨found, hfound⟩ := Option.isSome_iff_exists.mp (findObject_isSome hdev)
    rw [readPacket, hfound]
    rfl
  | lookup hthread =>
    simp only [lookupDevice]
    split
    · rfl
    · rename_i dev hfound
      have hdev : dev.id ∈ deviceIds s.ctrlPoint.invalidate.deviceList :=
        ControlPoint.id_mem_deviceIds_of_getDeviceByUdn hfound
      split_ifs
      · rfl
      · rw [deleteDevice, if_pos hdev]
        rfl
  | @delete t dev caller hthread =>
    have hdev := hheld t dev (by rw [hthread]; exact List.mem_cons_self)
    rw [deleteDevice, if_pos hdev]
    rfl
  | @resume t caller hthread =>
    have hcaller : ∀ dev ∈ caller.held, dev ∈ deviceIds s.ctrlPoint.deviceList :=
      fun dev hdev ↦ hheld t dev (by rw [hthread]; exact hdev)
    rcases caller with _ | ⟨currTime, _ | dev⟩ | ⟨address, rest, _ | tmp⟩
    · rfl
    · rfl
    · rw [resume, if_pos (hcaller dev List.mem_cons_self)]
      rfl
    · rfl
    · rw [resume, if_pos (hcaller tmp List.mem_cons_self)]
      rfl
  | stop hthread => rfl
  | joined hthread hended => exact stopLoop_useAfterFree s _ _ _
  | walkOn hthread hdev => exact stopLoop_useAfterFree s _ _ _
  | @walkDeleted t dev restart hthread hdeleted =>
    exact absurd (hheld t dev (by rw [hthread]; exact List.mem_cons_self)) hdeleted
  | start hthread => rfl

/-! ### Keeping the pointers valid -/

/-- An object that the control point holds is there after a step, or the step deletes it. -/
theorem mem_deviceIds_or_mem_deletedBy {s s' : System} {a : Action} (haccounted : s.Accounted)
    (hstep : s.step a = some s') {dev : DeviceId} (hdev : dev ∈ deviceIds s.ctrlPoint.deviceList) :
    dev ∈ deviceIds s'.ctrlPoint.deviceList ∨ dev ∈ s.deletedBy a := by
  cases step_effect hstep with
  | quiet hepoch hctrlPoint hledger =>
    rw [hctrlPoint]
    exact Or.inl hdev
  | announced t ssdpPkt now memory hthread ha hannouncement hs' =>
    rw [hs', addDeviceBySsdpPacket_ctrlPoint, ControlPoint.reserve_deviceIds]
    exact Or.inl hdev
  | committed t ssdpPkt reservation fetch description fetchTime now hthread hfetch hfresh ha hs' =>
    have hperm := ControlPoint.commit_deviceIds_perm haccounted.live_nodup
      (ControlPoint.commit_outcome s.ctrlPoint fetch ssdpPkt reservation
        (ControlPoint.createCandidate ssdpPkt fetch.udn description fetchTime) now)
    have hmem := hperm.mem_iff.mpr (List.mem_append_right _ hdev)
    rcases List.mem_append.mp hmem with hleft | hkept
    · right
      simp only [ha, deletedBy, hthread, hfetch]
      exact hleft
    · left
      rw [hs']
      exact hkept
  | invalidated t udn caller hthread ha hctrlPoint hledger =>
    rw [hctrlPoint]
    exact Or.inl hdev
  | deletedAtOnce t udn caller found hthread ha hlistener hfound hctrlPoint hledger =>
    have hmem := (s.ctrlPoint.deleteDevice_deviceIds_perm found.id).mem_iff.mpr hdev
    rcases List.mem_append.mp hmem with hdeleted | hkept
    · right
      simp only [ha, deletedBy, hthread, hfound, hlistener, Bool.false_eq_true, if_false]
      exact hdeleted
    · left
      rw [hctrlPoint]
      exact hkept
  | deleted t found caller hthread ha hctrlPoint hledger =>
    have hmem := (s.ctrlPoint.deleteDevice_deviceIds_perm found).mem_iff.mpr hdev
    rcases List.mem_append.mp hmem with hdeleted | hkept
    · right
      simp only [ha, deletedBy, hthread]
      exact hdeleted
    · left
      rw [hctrlPoint]
      exact hkept
  | stopped t restart ha hctrlPoint hledger =>
    rw [hctrlPoint]
    exact Or.inl hdev
  | cleared t ha hctrlPoint hledger =>
    rcases ha with rfl | rfl
    · cases step_moves hstep with
      | @joined _ restart hthread hended =>
        rcases stopLoop_cases s t restart s.ctrlPoint.deviceList with
          ⟨called, -, hcall⟩ | ⟨hsilent, -⟩
        · rw [hcall]
          exact Or.inl hdev
        · right
          rw [deletedBy, if_neg (Bool.eq_false_iff.mp hsilent)]
          exact hdev
    · cases step_moves hstep with
      | @walkOn _ walked restart hthread hlive =>
        rcases stopLoop_cases s t restart (s.ctrlPoint.devicesAfter walked) with
          ⟨called, -, hcall⟩ | ⟨hsilent, -⟩
        · rw [hcall]
          exact Or.inl hdev
        · right
          simp only [deletedBy, hthread]
          rw [if_neg (Bool.eq_false_iff.mp hsilent)]
          exact hdev
      | walkDeleted hthread hdeleted => exact Or.inl hdev
  | started t ha hctrlPoint hledger =>
    rw [hctrlPoint]
    exact Or.inl hdev

/-- A step that spares what is held leaves every pointer valid. -/
theorem heldLive_of_step {s s' : System} {a : Action} (haccounted : s.Accounted)
    (hheld : s.HeldLive) (hspares : s.SparesHeld a) (hstep : s.step a = some s') : s'.HeldLive := by
  have hkeep : ∀ dev ∈ deviceIds s.ctrlPoint.deviceList, dev ∉ s.deletedBy a →
      dev ∈ deviceIds s'.ctrlPoint.deviceList := fun dev hdev hnot ↦
    (mem_deviceIds_or_mem_deletedBy haccounted hstep hdev).resolve_right hnot
  cases step_threadEffect hstep with
  | same hs' => rwa [hs']
  | set state hthreads hfetching hstate =>
    intro t dev hdev
    by_cases hactor : t = a.thread
    · rw [hactor, thread, hthreads, ThreadTable.get_set_self] at hdev
      rcases hstate dev hdev with hkept | ⟨hlist, hcurrent⟩
      · refine hkeep dev ?_ fun hdeleted ↦ (hspares dev hdeleted).1 hkept
        exact hheld a.thread dev (kept_subset_held _ dev hkept)
      · rwa [hlist]
    · rw [thread_eq_of_step hstep (Ne.symm hactor)] at hdev
      exact hkeep dev (hheld t dev hdev) fun hdeleted ↦ (hspares dev hdeleted).2 t hactor hdev

theorem heldLive_init (deviceListener : Bool) : (init deviceListener).HeldLive :=
  fun _ _ hdev ↦ absurd hdev List.not_mem_nil

/-- In every run whose steps delete only what no thread still needs, no step uses an object after
it was deleted, and each object is deleted at most once, and exactly once when the control point
does not hold it any more. -/
theorem removals_delete_once_of_run (deviceListener : Bool) (actions : List Action) (s : System)
    (hspares : discovery.AllSteps SparesHeld (init deviceListener) actions)
    (hrun : discovery.run (init deviceListener) actions = some s) :
    s.useAfterFree = false ∧ s.ledger.freed.Nodup ∧
      ∀ dev ∈ s.ledger.allocated, dev ∈ s.ledger.freed ↔
        dev ∉ deviceIds s.ctrlPoint.deviceList := by
  have hstep : ∀ s a s', (s.Accounted ∧ s.HeldLive ∧ s.useAfterFree = false) → s.SparesHeld a →
      discovery.step s a = some s' → s'.Accounted ∧ s'.HeldLive ∧ s'.useAfterFree = false :=
    fun s a s' h ha hs ↦ ⟨accounted_of_step h.1 hs, heldLive_of_step h.1 h.2.1 ha hs,
      (useAfterFree_of_step h.2.1 hs).trans h.2.2⟩
  have hinit : (init deviceListener).Accounted ∧ (init deviceListener).HeldLive ∧
      (init deviceListener).useAfterFree = false :=
    ⟨accounted_init deviceListener, heldLive_init deviceListener, rfl⟩
  obtain ⟨haccounted, -, hfree⟩ :=
    TransitionSystem.invariant_of_run_of_allSteps hstep hspares hinit hrun
  refine ⟨hfree, haccounted.freed_nodup, fun dev halloc ↦ ⟨fun hfreed hlive ↦ ?_, fun hgone ↦ ?_⟩⟩
  · exact haccounted.not_mem_freed hlive hfreed
  · exact haccounted.mem_freed_of_not_mem halloc hgone

theorem removals_delete_once_of_run_byebye :
    ∃ s, discovery.run (init true)
        [rootResponse, rootCommit, rootByebye 0, .lookup (.worker 0), .delete (.worker 0)] =
          some s ∧
      s.ledger.freed = [1, 2] ∧ s.useAfterFree = false ∧ s.ledger.freed.Nodup ∧
      ∀ dev ∈ s.ledger.allocated,
        dev ∈ s.ledger.freed ↔ dev ∉ deviceIds s.ctrlPoint.deviceList := by
  refine ⟨_, rfl, rfl, removals_delete_once_of_run true
    [rootResponse, rootCommit, rootByebye 0, .lookup (.worker 0), .delete (.worker 0)] _ ?_ rfl⟩
  refine ⟨fun _ h ↦ absurd h List.not_mem_nil,
    fun s₁ (hs₁ : (init true).step rootResponse = some s₁) ↦ ⟨?_,
    fun s₂ (hs₂ : s₁.step rootCommit = some s₂) ↦ ⟨?_,
    fun s₃ (hs₃ : s₂.step (rootByebye 0) = some s₃) ↦ ⟨?_,
    fun s₄ (hs₄ : s₃.step (.lookup (.worker 0)) = some s₄) ↦ ⟨?_, fun _ _ ↦ trivial⟩⟩⟩⟩⟩
  · obtain rfl := Option.some.inj hs₁
    exact fun _ h ↦ absurd h List.not_mem_nil
  · obtain rfl := Option.some.inj hs₁
    obtain rfl := Option.some.inj hs₂
    exact fun _ h ↦ absurd h List.not_mem_nil
  · obtain rfl := Option.some.inj hs₁
    obtain rfl := Option.some.inj hs₂
    obtain rfl := Option.some.inj hs₃
    exact fun _ h ↦ absurd h List.not_mem_nil
  · intro dev hdev
    have hothers : ∀ t, t ≠ .worker 0 → s₄.thread t = .idle := by
      intro t ht
      rw [thread_eq_of_step hs₄ (Ne.symm ht), thread_eq_of_step hs₃ (Ne.symm ht),
        thread_eq_of_step hs₂ (Ne.symm ht), thread_eq_of_step hs₁ (Ne.symm ht)]
      rfl
    refine ⟨?_, fun t ht hmem ↦ ?_⟩
    · obtain rfl := Option.some.inj hs₁
      obtain rfl := Option.some.inj hs₂
      obtain rfl := Option.some.inj hs₃
      obtain rfl := Option.some.inj hs₄
      exact List.not_mem_nil
    · rw [hothers t ht] at hmem
      exact absurd hmem List.not_mem_nil

/-- Two worker threads that receive the byebye notification of one device both find it before either
deletes it, and the second one deletes it again. -/
theorem not_removals_delete_once :
    ¬ ∀ (actions : List Action) (s : System), discovery.run (init true) actions = some s →
      s.useAfterFree = false ∧ s.ledger.freed.Nodup ∧
        ∀ dev ∈ s.ledger.allocated,
          dev ∈ s.ledger.freed ↔ dev ∉ deviceIds s.ctrlPoint.deviceList := by
  intro hclaim
  have hfree := (hclaim [rootResponse, rootCommit, rootByebye 0, rootByebye 1, .lookup (.worker 0),
    .lookup (.worker 1), .delete (.worker 0), .delete (.worker 1)] _ rfl).1
  cases hfree

end System

end Mupnp.Discovery
