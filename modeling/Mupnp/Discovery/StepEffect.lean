import Mupnp.Discovery.DiscoverySystem

/-!
# What a step can do

`Moves s a s'` lists the branches of a step, with what is known about the thread that takes it, and
`step_moves` says that every enabled step takes one of them. `Effect s a s'` lists the ways in which
a step `a` may change what the control point mutex protects and the ledger of device objects.
`step_effect` says that every enabled step is one of them; the invariants of the control point are
derived from it and never unfold `step`. The local states of the threads are described by
`thread_eq_of_step` (a step touches one thread only) and by `eq_commit_of_fetching` (a thread that
downloads does nothing but commit).
-/

set_option autoImplicit false
set_option relaxedAutoImplicit false

namespace Mupnp.Discovery

open Foundation Util Ssdp

namespace Action

/-- The thread that takes the step. -/
def thread : Action → ThreadId
  | ssdpNotify t _ _ _ | ssdpResponse t _ _ _ | commit t _ _ _ | expirationPass t _ | ipChanged t _
  | scan t | readPacket t | lookup t | delete t | resume t | stop t _ | joined t | walkOn t
  | start t => t

/-- The packet that is announced, when the step adds a device for it. -/
def announcement : Action → Option SsdpPacket
  | ssdpNotify _ ssdpPkt _ _ =>
    if ssdpPkt.isRootDevice && ssdpPkt.isAlive then some ssdpPkt else none
  | ssdpResponse _ ssdpPkt _ _ => some ssdpPkt
  | _ => none

/-- The step is one that increments the discovery epoch: the first section of a removal or of
stop. -/
def incrementsEpoch : Action → Bool
  | lookup _ | stop _ _ => true
  | _ => false

end Action

namespace System

/-- The ways in which a step may change the control point and the ledger. -/
inductive Effect (s : System) (a : Action) (s' : System) : Prop where
  /-- Nothing changes but the state of the thread. -/
  | quiet (hepoch : a.incrementsEpoch = false) (hctrlPoint : s'.ctrlPoint = s.ctrlPoint)
      (hledger : s'.ledger = s.ledger)
  /-- An announcement is received: the first section of a fetch. -/
  | announced (t : ThreadId) (ssdpPkt : SsdpPacket) (now : ℤ) (memory : Bool)
      (hthread : s.thread t = .idle)
      (ha : a = .ssdpNotify t ssdpPkt now memory ∨ a = .ssdpResponse t ssdpPkt now memory)
      (hannouncement : a.announcement = some ssdpPkt)
      (hs' : s' = s.addDeviceBySsdpPacket t ssdpPkt now memory)
  /-- The second section of a fetch. -/
  | committed (t : ThreadId) (ssdpPkt : SsdpPacket) (reservation : ControlPoint.Reservation)
      (fetch : Fetch) (description : Option Device) (fetchTime now : ℤ)
      (hthread : s.thread t = .fetching ssdpPkt reservation)
      (hfetch : s.ctrlPoint.pendingFetches.find? (·.owner = t) = some fetch)
      (hfresh : s.ledger.Fresh (deviceIds description.toList))
      (ha : a = .commit t description fetchTime now)
      (hs' : s' = s.commitFetch t ssdpPkt reservation fetch description fetchTime now)
  /-- The first section of a removal, when nothing is deleted in it. -/
  | invalidated (t : ThreadId) (udn : CString) (caller : Caller)
      (hthread : s.thread t = .removing udn caller) (ha : a = .lookup t)
      (hctrlPoint : s'.ctrlPoint = s.ctrlPoint.invalidate) (hledger : s'.ledger = s.ledger)
  /-- The only section of a removal when there is no listener. -/
  | deletedAtOnce (t : ThreadId) (udn : CString) (caller : Caller) (dev : Device)
      (hthread : s.thread t = .removing udn caller) (ha : a = .lookup t)
      (hlistener : s.ctrlPoint.deviceListener = false)
      (hfound : s.ctrlPoint.getDeviceByUdn (some udn) = some dev)
      (hctrlPoint : s'.ctrlPoint = s.ctrlPoint.invalidate.deleteDevice dev.id)
      (hledger : s'.ledger = s.ledger.free (s.ctrlPoint.deletedIds dev.id))
  /-- The second section of a removal. -/
  | deleted (t : ThreadId) (dev : DeviceId) (caller : Caller)
      (hthread : s.thread t = .deleting dev caller) (ha : a = .delete t)
      (hctrlPoint : s'.ctrlPoint = s.ctrlPoint.deleteDevice dev)
      (hledger : s'.ledger = s.ledger.free (s.ctrlPoint.deletedIds dev))
  /-- The first section of stop. -/
  | stopped (t : ThreadId) (restart : Bool) (ha : a = .stop t restart)
      (hctrlPoint : s'.ctrlPoint = s.ctrlPoint.beginStop) (hledger : s'.ledger = s.ledger)
  /-- The end of stop. -/
  | cleared (t : ThreadId) (ha : a = .joined t ∨ a = .walkOn t)
      (hctrlPoint : s'.ctrlPoint = s.ctrlPoint.clearDevices)
      (hledger : s'.ledger = s.ledger.free (deviceIds s.ctrlPoint.deviceList))
  /-- The end of start. -/
  | started (t : ThreadId) (ha : a = .start t) (hctrlPoint : s'.ctrlPoint = s.ctrlPoint.beginStart)
      (hledger : s'.ledger = s.ledger)

theorem addDeviceBySsdpPacket_ctrlPoint (s : System) (t : ThreadId) (ssdpPkt : SsdpPacket) (now : ℤ)
    (memory : Bool) :
    (s.addDeviceBySsdpPacket t ssdpPkt now memory).ctrlPoint =
      (s.ctrlPoint.reserve t (SsdpPacket.new.copy ssdpPkt now) now memory).1 := by
  simp only [addDeviceBySsdpPacket]
  split <;> rfl

theorem addDeviceBySsdpPacket_ledger (s : System) (t : ThreadId) (ssdpPkt : SsdpPacket) (now : ℤ)
    (memory : Bool) : (s.addDeviceBySsdpPacket t ssdpPkt now memory).ledger = s.ledger := by
  simp only [addDeviceBySsdpPacket]
  split <;> rfl

theorem addDeviceBySsdpPacket_useAfterFree (s : System) (t : ThreadId) (ssdpPkt : SsdpPacket)
    (now : ℤ) (memory : Bool) :
    (s.addDeviceBySsdpPacket t ssdpPkt now memory).useAfterFree = s.useAfterFree := by
  simp only [addDeviceBySsdpPacket]
  split <;> rfl

/-- The loop of the stop function either calls the listener or clears the device list. -/
theorem stopLoop_cases (s : System) (t : ThreadId) (restart : Bool) (devices : List Device) :
    (∃ dev ∈ devices,
        s.stopLoop t restart devices = s.update s.ctrlPoint t (.walking dev.id restart)) ∨
      ((devices.any fun dev ↦ dev.udn.isSome && s.ctrlPoint.deviceListener) = false ∧
        s.stopLoop t restart devices =
          { s.update s.ctrlPoint.clearDevices t (if restart then .starting else .idle) with
            ledger := s.ledger.free (deviceIds s.ctrlPoint.deviceList) }) := by
  induction devices with
  | nil => exact Or.inr ⟨rfl, rfl⟩
  | cons dev rest ih =>
    by_cases hlistener : (dev.udn.isSome && s.ctrlPoint.deviceListener) = true
    · refine Or.inl ⟨dev, List.mem_cons_self, ?_⟩
      rw [stopLoop, if_pos hlistener]
    · rw [stopLoop, if_neg hlistener, List.any_cons, Bool.eq_false_iff.mpr hlistener, Bool.false_or]
      rcases ih with ⟨found, hmem, hcall⟩ | hclear
      · exact Or.inl ⟨found, List.mem_cons_of_mem _ hmem, hcall⟩
      · exact Or.inr hclear

theorem stopLoop_useAfterFree (s : System) (t : ThreadId) (restart : Bool) (devices : List Device) :
    (s.stopLoop t restart devices).useAfterFree = s.useAfterFree := by
  rcases stopLoop_cases s t restart devices with ⟨dev, -, hcall⟩ | ⟨-, hclear⟩
  · rw [hcall]
    rfl
  · rw [hclear]
    rfl

/-! ### The branches of a step -/

/-- The branches of a step: where its thread is, what is known there, and the state that follows. -/
inductive Moves (s : System) : Action → System → Prop where
  | announce {t : ThreadId} {ssdpPkt : SsdpPacket} {now : ℤ} {memory : Bool}
      (hthread : s.thread t = .idle)
      (hannounced : (ssdpPkt.isRootDevice && ssdpPkt.isAlive) = true) :
      Moves s (.ssdpNotify t ssdpPkt now memory) (s.addDeviceBySsdpPacket t ssdpPkt now memory)
  | leave {t : ThreadId} {ssdpPkt : SsdpPacket} {now : ℤ} {memory : Bool}
      (hthread : s.thread t = .idle)
      (hsilent : ¬ (ssdpPkt.isRootDevice && ssdpPkt.isAlive) = true)
      (hbyebye : (ssdpPkt.isRootDevice && ssdpPkt.isByebye) = true) :
      Moves s (.ssdpNotify t ssdpPkt now memory)
        (s.update s.ctrlPoint t (.removing (usnGetUdn ssdpPkt.getUsn udnLenMax) .byebye))
  | ignore {t : ThreadId} {ssdpPkt : SsdpPacket} {now : ℤ} {memory : Bool}
      (hthread : s.thread t = .idle)
      (hsilent : ¬ (ssdpPkt.isRootDevice && ssdpPkt.isAlive) = true) :
      Moves s (.ssdpNotify t ssdpPkt now memory) s
  | respond {t : ThreadId} {ssdpPkt : SsdpPacket} {now : ℤ} {memory : Bool}
      (hthread : s.thread t = .idle) :
      Moves s (.ssdpResponse t ssdpPkt now memory) (s.addDeviceBySsdpPacket t ssdpPkt now memory)
  | commit {t : ThreadId} {description : Option Device} {fetchTime now : ℤ}
      {ssdpPkt : SsdpPacket} {reservation : ControlPoint.Reservation} {fetch : Fetch}
      (hthread : s.thread t = .fetching ssdpPkt reservation)
      (hfetch : s.ctrlPoint.pendingFetches.find? (·.owner = t) = some fetch)
      (hfresh : s.ledger.Fresh (deviceIds description.toList)) :
      Moves s (.commit t description fetchTime now)
        (s.commitFetch t ssdpPkt reservation fetch description fetchTime now)
  | expire {t : ThreadId} {currTime : ℤ} (hthread : s.thread t = .idle) :
      Moves s (.expirationPass t currTime)
        (s.update s.ctrlPoint t (expirationHandler currTime s.ctrlPoint.deviceList))
  | changeIp {t : ThreadId} {addresses : List CString} (hthread : s.thread t = .idle) :
      Moves s (.ipChanged t addresses) (s.update s.ctrlPoint t (.scanning addresses))
  | endScan {t : ThreadId} (hthread : s.thread t = .scanning []) :
      Moves s (.scan t) (s.update s.ctrlPoint t .idle)
  | scan {t : ThreadId} {address : CString} {rest : List CString}
      (hthread : s.thread t = .scanning (address :: rest)) :
      Moves s (.scan t) (s.update s.ctrlPoint t (ipChangedLoop address rest s.ctrlPoint.deviceList))
  | readPacket {t : ThreadId} {dev : DeviceId} {caller : Caller}
      (hthread : s.thread t = .readingPacket dev caller) :
      Moves s (.readPacket t) (s.readPacket t dev caller)
  | lookup {t : ThreadId} {udn : CString} {caller : Caller}
      (hthread : s.thread t = .removing udn caller) :
      Moves s (.lookup t) (s.lookupDevice t udn caller)
  | delete {t : ThreadId} {dev : DeviceId} {caller : Caller}
      (hthread : s.thread t = .deleting dev caller) :
      Moves s (.delete t) (s.deleteDevice t dev caller)
  | resume {t : ThreadId} {caller : Caller} (hthread : s.thread t = .resuming caller) :
      Moves s (.resume t) (s.resume t caller)
  | stop {t : ThreadId} {restart : Bool} (hthread : s.thread t = .idle) :
      Moves s (.stop t restart) (s.update s.ctrlPoint.beginStop t (.stopping restart))
  | joined {t : ThreadId} {restart : Bool} (hthread : s.thread t = .stopping restart)
      (hended : (s.workersEnded && s.ctrlPoint.pendingFetches.isEmpty) = true) :
      Moves s (.joined t) (s.stopLoop t restart s.ctrlPoint.deviceList)
  | walkOn {t : ThreadId} {dev : DeviceId} {restart : Bool}
      (hthread : s.thread t = .walking dev restart)
      (hlive : dev ∈ deviceIds s.ctrlPoint.deviceList) :
      Moves s (.walkOn t) (s.stopLoop t restart (s.ctrlPoint.devicesAfter dev))
  | walkDeleted {t : ThreadId} {dev : DeviceId} {restart : Bool}
      (hthread : s.thread t = .walking dev restart)
      (hdeleted : dev ∉ deviceIds s.ctrlPoint.deviceList) : Moves s (.walkOn t) (s.fail t)
  | start {t : ThreadId} (hthread : s.thread t = .starting) :
      Moves s (.start t) (s.update s.ctrlPoint.beginStart t .idle)

/-- Every enabled step takes one of the branches. -/
theorem step_moves {s s' : System} {a : Action} (hstep : s.step a = some s') : Moves s a s' := by
  cases a with
  | ssdpNotify t ssdpPkt now memory =>
    simp only [step] at hstep
    split at hstep
    · rename_i hthread
      split_ifs at hstep with hroot halive hbyebye <;> obtain rfl := Option.some.inj hstep
      · exact .announce hthread (Bool.and_eq_true_iff.mpr ⟨hroot, halive⟩)
      · exact .leave hthread (fun h ↦ halive (Bool.and_eq_true_iff.mp h).2)
          (Bool.and_eq_true_iff.mpr ⟨hroot, hbyebye⟩)
      · exact .ignore hthread fun h ↦ halive (Bool.and_eq_true_iff.mp h).2
      · exact .ignore hthread fun h ↦ hroot (Bool.and_eq_true_iff.mp h).1
    · cases hstep
  | ssdpResponse t ssdpPkt now memory =>
    simp only [step] at hstep
    split at hstep
    · obtain rfl := Option.some.inj hstep
      exact .respond ‹_›
    · cases hstep
  | commit t description fetchTime now =>
    simp only [step] at hstep
    split at hstep
    · rename_i ssdpPkt reservation fetch hthread hfetch
      split_ifs at hstep with hfresh
      obtain rfl := Option.some.inj hstep
      exact .commit hthread hfetch hfresh
    · cases hstep
  | expirationPass t currTime =>
    simp only [step] at hstep
    split at hstep
    · obtain rfl := Option.some.inj hstep
      exact .expire ‹_›
    · cases hstep
  | ipChanged t addresses =>
    simp only [step] at hstep
    split at hstep
    · obtain rfl := Option.some.inj hstep
      exact .changeIp ‹_›
    · cases hstep
  | scan t =>
    simp only [step] at hstep
    split at hstep
    · obtain rfl := Option.some.inj hstep
      exact .endScan ‹_›
    · obtain rfl := Option.some.inj hstep
      exact .scan ‹_›
    · cases hstep
  | readPacket t =>
    simp only [step] at hstep
    split at hstep
    · obtain rfl := Option.some.inj hstep
      exact .readPacket ‹_›
    · cases hstep
  | lookup t =>
    simp only [step] at hstep
    split at hstep
    · obtain rfl := Option.some.inj hstep
      exact .lookup ‹_›
    · cases hstep
  | delete t =>
    simp only [step] at hstep
    split at hstep
    · obtain rfl := Option.some.inj hstep
      exact .delete ‹_›
    · cases hstep
  | resume t =>
    simp only [step] at hstep
    split at hstep
    · obtain rfl := Option.some.inj hstep
      exact .resume ‹_›
    · cases hstep
  | stop t restart =>
    simp only [step] at hstep
    split at hstep
    · obtain rfl := Option.some.inj hstep
      exact .stop ‹_›
    · cases hstep
  | joined t =>
    simp only [step] at hstep
    split at hstep
    · rename_i restart hthread
      split_ifs at hstep with hended
      obtain rfl := Option.some.inj hstep
      exact .joined hthread hended
    · cases hstep
  | walkOn t =>
    simp only [step] at hstep
    split at hstep
    · rename_i dev restart hthread
      split_ifs at hstep with hlive <;> obtain rfl := Option.some.inj hstep
      · exact .walkOn hthread hlive
      · exact .walkDeleted hthread hlive
    · cases hstep
  | start t =>
    simp only [step] at hstep
    split at hstep
    · obtain rfl := Option.some.inj hstep
      exact .start ‹_›
    · cases hstep

/-! ### What a branch changes -/

theorem resume_ctrlPoint_ledger (s : System) (t : ThreadId) (caller : Caller) :
    (s.resume t caller).ctrlPoint = s.ctrlPoint ∧ (s.resume t caller).ledger = s.ledger := by
  rcases caller with _ | ⟨currTime, _ | dev⟩ | ⟨address, rest, _ | tmp⟩
  · exact ⟨rfl, rfl⟩
  · exact ⟨rfl, rfl⟩
  · simp only [resume]
    split_ifs <;> exact ⟨rfl, rfl⟩
  · exact ⟨rfl, rfl⟩
  · simp only [resume]
    split_ifs <;> exact ⟨rfl, rfl⟩

/-- Every enabled step has one of the listed effects. -/
theorem step_effect {s s' : System} {a : Action} (hstep : s.step a = some s') : Effect s a s' := by
  cases step_moves hstep with
  | @announce t ssdpPkt now memory hthread hannounced =>
    exact .announced t ssdpPkt now memory hthread (Or.inl rfl) (if_pos hannounced) rfl
  | leave hthread hsilent hbyebye => exact .quiet rfl rfl rfl
  | ignore hthread hsilent => exact .quiet rfl rfl rfl
  | @respond t ssdpPkt now memory hthread =>
    exact .announced t ssdpPkt now memory hthread (Or.inr rfl) rfl rfl
  | commit hthread hfetch hfresh => exact .committed _ _ _ _ _ _ _ hthread hfetch hfresh rfl rfl
  | expire hthread => exact .quiet rfl rfl rfl
  | changeIp hthread => exact .quiet rfl rfl rfl
  | endScan hthread => exact .quiet rfl rfl rfl
  | scan hthread => exact .quiet rfl rfl rfl
  | readPacket hthread =>
    simp only [readPacket]
    split
    · exact .quiet rfl rfl rfl
    · exact .quiet rfl rfl rfl
  | @lookup t udn caller hthread =>
    simp only [lookupDevice, deleteDevice]
    split
    · exact .invalidated t udn caller hthread rfl rfl rfl
    · rename_i dev hfound
      split_ifs with hlistener hlive
      · exact .invalidated t udn caller hthread rfl rfl rfl
      · exact .deletedAtOnce t udn caller dev hthread rfl (by simpa using hlistener) hfound rfl rfl
      · exact .invalidated t udn caller hthread rfl rfl rfl
  | @delete t dev caller hthread =>
    simp only [deleteDevice]
    split_ifs with hlive
    · exact .deleted t dev caller hthread rfl rfl rfl
    · exact .quiet rfl rfl rfl
  | @resume t caller hthread =>
    obtain ⟨hctrlPoint, hledger⟩ := resume_ctrlPoint_ledger s t caller
    exact .quiet rfl hctrlPoint hledger
  | @stop t restart hthread => exact .stopped t restart rfl rfl rfl
  | @joined t restart hthread hended =>
    rcases stopLoop_cases s t restart s.ctrlPoint.deviceList with ⟨dev, -, hcall⟩ | ⟨-, hclear⟩
    · rw [hcall]
      exact .quiet rfl rfl rfl
    · rw [hclear]
      exact .cleared t (Or.inl rfl) rfl rfl
  | @walkOn t dev restart hthread hlive =>
    rcases stopLoop_cases s t restart (s.ctrlPoint.devicesAfter dev) with
      ⟨next, -, hcall⟩ | ⟨-, hclear⟩
    · rw [hcall]
      exact .quiet rfl rfl rfl
    · rw [hclear]
      exact .cleared t (Or.inr rfl) rfl rfl
  | walkDeleted hthread hdeleted => exact .quiet rfl rfl rfl
  | @start t hthread => exact .started t rfl rfl rfl

/-- An announcement is received by an idle thread, which begins a fetch. -/
theorem step_eq_of_announcement {s s' : System} {a : Action} {ssdpPkt : SsdpPacket}
    (hannouncement : a.announcement = some ssdpPkt) (hstep : s.step a = some s') :
    ∃ now memory, s.thread a.thread = .idle ∧
      (a = .ssdpNotify a.thread ssdpPkt now memory ∨
        a = .ssdpResponse a.thread ssdpPkt now memory) ∧
      s' = s.addDeviceBySsdpPacket a.thread ssdpPkt now memory := by
  cases step_moves hstep with
  | @announce t packet now memory hthread hannounced =>
    obtain rfl := Option.some.inj ((if_pos hannounced).symm.trans hannouncement)
    exact ⟨now, memory, hthread, Or.inl rfl, rfl⟩
  | leave hthread hsilent hbyebye => cases (if_neg hsilent).symm.trans hannouncement
  | ignore hthread hsilent => cases (if_neg hsilent).symm.trans hannouncement
  | @respond t packet now memory hthread =>
    obtain rfl := Option.some.inj hannouncement
    exact ⟨now, memory, hthread, Or.inr rfl, rfl⟩
  | _ => cases hannouncement

/-- A download that ends commits the fetch that its thread had reserved. -/
theorem step_commit_eq_some {s s' : System} {t : ThreadId} {description : Option Device}
    {fetchTime now : ℤ} (hstep : s.step (.commit t description fetchTime now) = some s') :
    ∃ ssdpPkt reservation fetch, s.thread t = .fetching ssdpPkt reservation ∧
      s.ctrlPoint.pendingFetches.find? (·.owner = t) = some fetch ∧
      s.ledger.Fresh (deviceIds description.toList) ∧
      s' = s.commitFetch t ssdpPkt reservation fetch description fetchTime now := by
  cases step_moves hstep with
  | commit hthread hfetch hfresh => exact ⟨_, _, _, hthread, hfetch, hfresh, rfl⟩

/-- A thread that downloads does nothing but commit. -/
theorem eq_commit_of_fetching {s s' : System} {a : Action} {ssdpPkt : SsdpPacket}
    {reservation : ControlPoint.Reservation}
    (hfetching : s.thread a.thread = .fetching ssdpPkt reservation)
    (hstep : s.step a = some s') :
    ∃ description fetchTime now, a = .commit a.thread description fetchTime now := by
  cases a with
  | commit t description fetchTime now => exact ⟨description, fetchTime, now, rfl⟩
  | _ =>
    simp only [Action.thread] at hfetching
    simp only [step, hfetching] at hstep
    cases hstep

/-! ### The local states of the threads -/

theorem afterRemoval_held (caller : Caller) : (afterRemoval caller).held = caller.held := by
  cases caller <;> rfl

theorem head_id_mem_deviceIds {rest devices : List Device} (hsub : ∀ dev ∈ rest, dev ∈ devices)
    {dev : DeviceId} (h : dev ∈ (rest.head?.map Device.id).toList) : dev ∈ deviceIds devices := by
  cases rest with
  | nil => simp at h
  | cons first others =>
    obtain rfl : dev = first.id := by simpa using h
    exact id_mem_deviceIds_of_mem (hsub first List.mem_cons_self)

/-- The expiration handler picks its pointers from the list it walks. -/
theorem expirationHandler_held {currTime : ℤ} {walked devices : List Device}
    (hsub : ∀ dev ∈ walked, dev ∈ devices) :
    ∀ dev ∈ (expirationHandler currTime walked).held, dev ∈ deviceIds devices := by
  induction walked with
  | nil => simp [expirationHandler, Thread.held]
  | cons first rest ih =>
    have hrest : ∀ dev ∈ rest, dev ∈ devices := fun dev h ↦ hsub dev (List.mem_cons_of_mem _ h)
    rw [expirationHandler]
    split_ifs with hexpired
    · intro dev hdev
      rcases List.mem_cons.mp hdev with rfl | hnext
      · exact id_mem_deviceIds_of_mem (hsub first List.mem_cons_self)
      · exact head_id_mem_deviceIds hrest hnext
    · exact ih hrest

/-- The interface change handler picks its pointers from the list it walks. -/
theorem ipChangedLoop_held {address : CString} {rest : List CString} {walked devices : List Device}
    (hsub : ∀ dev ∈ walked, dev ∈ devices) :
    ∀ dev ∈ (ipChangedLoop address rest walked).held, dev ∈ deviceIds devices := by
  induction walked with
  | nil => simp [ipChangedLoop, Thread.held]
  | cons first others ih =>
    have hothers : ∀ dev ∈ others, dev ∈ devices := fun dev h ↦ hsub dev (List.mem_cons_of_mem _ h)
    rw [ipChangedLoop]
    split_ifs with haddress
    · intro dev hdev
      rcases List.mem_cons.mp hdev with rfl | hnext
      · exact id_mem_deviceIds_of_mem (hsub first List.mem_cons_self)
      · exact head_id_mem_deviceIds hothers hnext
    · exact ih hothers

theorem mem_of_mem_devicesFrom {ctrlPoint : ControlPoint} {id : DeviceId} {dev : Device}
    (h : dev ∈ ctrlPoint.devicesFrom id) : dev ∈ ctrlPoint.deviceList :=
  (List.dropWhile_sublist _).subset h

theorem mem_of_mem_devicesAfter {ctrlPoint : ControlPoint} {id : DeviceId} {dev : Device}
    (h : dev ∈ ctrlPoint.devicesAfter id) : dev ∈ ctrlPoint.deviceList :=
  mem_of_mem_devicesFrom (List.mem_of_mem_tail h)

end System

/-- The thread downloads a description. -/
def Thread.isFetching : Thread → Bool
  | .fetching _ _ => true
  | _ => false

/-- The device pointers of a caller that a thread keeps while it runs a removal. -/
def Thread.kept : Thread → List DeviceId
  | .readingPacket _ caller | .removing _ caller | .deleting _ caller => caller.held
  | _ => []

namespace System

theorem expirationHandler_isFetching (currTime : ℤ) (devices : List Device) :
    (expirationHandler currTime devices).isFetching = false := by
  induction devices with
  | nil => rfl
  | cons dev rest ih =>
    rw [expirationHandler]
    split_ifs
    · rfl
    · exact ih

theorem ipChangedLoop_isFetching (address : CString) (rest : List CString) (devices : List Device) :
    (ipChangedLoop address rest devices).isFetching = false := by
  induction devices with
  | nil => rfl
  | cons dev others ih =>
    rw [ipChangedLoop]
    split_ifs
    · rfl
    · exact ih

/-- What a step does to the local states of the threads: that of one thread changes, only an
announcement makes it download, and the device pointers it carries then are those of its caller or,
when the device list stays, pointers into it. -/
inductive ThreadEffect (s : System) (a : Action) (s' : System) : Prop where
  | same (hs' : s' = s)
  | set (state : Thread) (hthreads : s'.threads = s.threads.set a.thread state)
      (hfetching : state.isFetching = true → a.announcement.isSome = true)
      (hheld : ∀ dev ∈ state.held, dev ∈ (s.thread a.thread).kept ∨
        (s'.ctrlPoint.deviceList = s.ctrlPoint.deviceList ∧
          dev ∈ deviceIds s.ctrlPoint.deviceList))

/-- A step that puts its thread into a state without device pointers. -/
theorem ThreadEffect.of_held_nil {s s' : System} {a : Action} (state : Thread)
    (hthreads : s'.threads = s.threads.set a.thread state)
    (hfetching : state.isFetching = false) (hheld : state.held = []) : ThreadEffect s a s' :=
  .set state hthreads (fun h ↦ absurd (h.symm.trans hfetching) (by decide))
    fun dev hdev ↦ by simp [hheld] at hdev

/-- A step that leaves the device list alone and takes its pointers from it. -/
theorem ThreadEffect.of_held_current {s s' : System} {a : Action} {state : Thread}
    (hthreads : s'.threads = s.threads.set a.thread state)
    (hfetching : state.isFetching = false)
    (hlist : s'.ctrlPoint.deviceList = s.ctrlPoint.deviceList)
    (hheld : ∀ dev ∈ state.held, dev ∈ deviceIds s.ctrlPoint.deviceList) : ThreadEffect s a s' :=
  .set state hthreads (fun h ↦ absurd (h.symm.trans hfetching) (by decide))
    fun dev hdev ↦ Or.inr ⟨hlist, hheld dev hdev⟩

/-- A step of a removal, which keeps the pointer of its caller. -/
theorem ThreadEffect.of_held_kept {s s' : System} {a : Action} (state : Thread)
    (hthreads : s'.threads = s.threads.set a.thread state)
    (hfetching : state.isFetching = false)
    (hheld : ∀ dev ∈ state.held, dev ∈ (s.thread a.thread).kept) : ThreadEffect s a s' :=
  .set state hthreads (fun h ↦ absurd (h.symm.trans hfetching) (by decide))
    fun dev hdev ↦ Or.inl (hheld dev hdev)

theorem afterRemoval_isFetching (caller : Caller) : (afterRemoval caller).isFetching = false := by
  cases caller <;> rfl

theorem addDeviceBySsdpPacket_threads (s : System) (t : ThreadId) (ssdpPkt : SsdpPacket) (now : ℤ)
    (memory : Bool) :
    ∃ state : Thread, state.held = [] ∧
      (s.addDeviceBySsdpPacket t ssdpPkt now memory).threads = s.threads.set t state := by
  simp only [addDeviceBySsdpPacket]
  split
  · exact ⟨.idle, rfl, rfl⟩
  · rename_i reservation hreserved
    exact ⟨.fetching (SsdpPacket.new.copy ssdpPkt now) reservation, rfl, rfl⟩

/-- The stop function carries at most the device whose listener call it is in. -/
theorem stopLoop_threadEffect {s : System} {a : Action} (restart : Bool) {devices : List Device}
    (hsub : ∀ dev ∈ devices, dev ∈ s.ctrlPoint.deviceList) :
    ThreadEffect s a (s.stopLoop a.thread restart devices) := by
  rcases stopLoop_cases s a.thread restart devices with ⟨dev, hmem, hcall⟩ | ⟨-, hclear⟩
  · rw [hcall]
    refine .of_held_current rfl rfl rfl fun held hheld ↦ ?_
    obtain rfl : held = dev.id := by simpa [Thread.held] using hheld
    exact id_mem_deviceIds_of_mem (hsub dev hmem)
  · rw [hclear]
    refine .of_held_nil (if restart then .starting else .idle) rfl ?_ ?_
    · cases restart <;> rfl
    · cases restart <;> rfl

/-- Deleting an object leaves the thread with the pointer of its caller. -/
theorem deleteDevice_threadEffect {s invalidated : System} {a : Action} {caller : Caller}
    (hkept : (s.thread a.thread).kept = caller.held) (hthreads : invalidated.threads = s.threads)
    (dev : DeviceId) : ThreadEffect s a (invalidated.deleteDevice a.thread dev caller) := by
  simp only [deleteDevice]
  split_ifs with hlive
  · refine .of_held_kept (afterRemoval caller) (by simp only [update, hthreads])
      (afterRemoval_isFetching caller) ?_
    rw [afterRemoval_held, hkept]
    exact fun _ hheld ↦ hheld
  · exact .of_held_nil .crashed (by simp only [fail, hthreads]) rfl rfl

/-- The caller of a removal takes its next pointers from the device list. -/
theorem resume_threadEffect {s : System} {a : Action} (caller : Caller) :
    ThreadEffect s a (s.resume a.thread caller) := by
  rcases caller with _ | ⟨currTime, _ | dev⟩ | ⟨address, rest, _ | tmp⟩
  · exact .of_held_nil .idle rfl rfl rfl
  · exact .of_held_nil .idle rfl rfl rfl
  · simp only [resume]
    split_ifs with hlive
    · exact .of_held_current rfl (expirationHandler_isFetching _ _) rfl
        (expirationHandler_held fun _ hmem ↦ mem_of_mem_devicesAfter hmem)
    · exact .of_held_nil .crashed rfl rfl rfl
  · exact .of_held_nil (.scanning rest) rfl rfl rfl
  · simp only [resume]
    split_ifs with hlive
    · exact .of_held_current rfl (ipChangedLoop_isFetching _ _ _) rfl
        (ipChangedLoop_held fun _ hmem ↦ mem_of_mem_devicesFrom hmem)
    · exact .of_held_nil .crashed rfl rfl rfl

/-- Every enabled step changes the local state of one thread only. -/
theorem step_threadEffect {s s' : System} {a : Action} (hstep : s.step a = some s') :
    ThreadEffect s a s' := by
  cases step_moves hstep with
  | @announce t ssdpPkt now memory hthread hannounced =>
    obtain ⟨state, hheld, hthreads⟩ := addDeviceBySsdpPacket_threads s t ssdpPkt now memory
    refine .set state hthreads (fun _ ↦ ?_) fun dev hdev ↦ by simp [hheld] at hdev
    rw [Action.announcement, if_pos hannounced]
    rfl
  | leave hthread hsilent hbyebye => exact .of_held_nil (.removing _ .byebye) rfl rfl rfl
  | ignore hthread hsilent => exact .same rfl
  | @respond t ssdpPkt now memory hthread =>
    obtain ⟨state, hheld, hthreads⟩ := addDeviceBySsdpPacket_threads s t ssdpPkt now memory
    exact .set state hthreads (fun _ ↦ rfl) fun dev hdev ↦ by simp [hheld] at hdev
  | commit hthread hfetch hfresh => exact .of_held_nil .idle rfl rfl rfl
  | expire hthread =>
    exact .of_held_current rfl (expirationHandler_isFetching _ _) rfl
      (expirationHandler_held fun _ hmem ↦ hmem)
  | @changeIp t addresses hthread => exact .of_held_nil (.scanning addresses) rfl rfl rfl
  | endScan hthread => exact .of_held_nil .idle rfl rfl rfl
  | scan hthread =>
    exact .of_held_current rfl (ipChangedLoop_isFetching _ _ _) rfl
      (ipChangedLoop_held fun _ hmem ↦ hmem)
  | @readPacket t dev caller hthread =>
    simp only [readPacket]
    split
    · exact .of_held_nil .crashed rfl rfl rfl
    · refine .of_held_kept (.removing _ caller) rfl rfl ?_
      simp only [Action.thread, hthread, Thread.held, Thread.kept]
      exact fun _ hheld ↦ hheld
  | @lookup t udn caller hthread =>
    have hkept : (s.thread (Action.lookup t).thread).kept = caller.held := by
      simp only [Action.thread, hthread, Thread.kept]
    simp only [lookupDevice]
    split
    · refine .of_held_kept (afterRemoval caller) rfl (afterRemoval_isFetching caller) ?_
      rw [afterRemoval_held, hkept]
      exact fun _ hheld ↦ hheld
    · rename_i dev hfound
      split_ifs with hlistener
      · refine .set (.deleting dev.id caller) rfl (fun h ↦ by cases h) fun held hheld ↦ ?_
        rcases List.mem_cons.mp hheld with rfl | hcaller
        · exact Or.inr ⟨rfl, ControlPoint.id_mem_deviceIds_of_getDeviceByUdn hfound⟩
        · exact Or.inl (hkept ▸ hcaller)
      · refine deleteDevice_threadEffect hkept ?_ dev.id
        rfl
  | @delete t dev caller hthread =>
    refine deleteDevice_threadEffect ?_ ?_ dev
    · simp only [Action.thread, hthread, Thread.kept]
    · rfl
  | resume hthread => exact resume_threadEffect _
  | @stop t restart hthread => exact .of_held_nil (.stopping restart) rfl rfl rfl
  | joined hthread hended => exact stopLoop_threadEffect _ fun _ hmem ↦ hmem
  | walkOn hthread hlive =>
    exact stopLoop_threadEffect _ fun _ hmem ↦ mem_of_mem_devicesAfter hmem
  | walkDeleted hthread hdeleted => exact .of_held_nil .crashed rfl rfl rfl
  | start hthread => exact .of_held_nil .idle rfl rfl rfl

/-- A step leaves the local states of the other threads alone. -/
theorem thread_eq_of_step {s s' : System} {a : Action} (hstep : s.step a = some s') {t : ThreadId}
    (hother : a.thread ≠ t) : s'.thread t = s.thread t := by
  cases step_threadEffect hstep with
  | same hs' => rw [hs']
  | set state hthreads hfetching hheld =>
    rw [thread, thread, hthreads, ThreadTable.get_set_of_ne (Ne.symm hother)]

/-- A run in which a thread takes no step leaves its local state alone. -/
theorem thread_eq_of_run {s s' : System} {actions : List Action}
    (hrun : discovery.run s actions = some s') {t : ThreadId}
    (hother : ∀ a ∈ actions, a.thread ≠ t) : s'.thread t = s.thread t := by
  have hkeep : ∀ s₁ a s₂, s₁.thread t = s.thread t → a.thread ≠ t →
      discovery.step s₁ a = some s₂ → s₂.thread t = s.thread t := by
    intro s₁ a s₂ hs₁ ha hstep
    rw [thread_eq_of_step hstep ha, hs₁]
  exact TransitionSystem.invariant_of_run_of_forall_mem hkeep hother rfl hrun

end System

end Mupnp.Discovery
