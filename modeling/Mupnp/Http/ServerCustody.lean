import Mupnp.Http.ServerLifecycle

/-!
# Who frees what in an HTTP server

The invariant of a server that only one thread at a time stops or deletes (`Custody`). A client
thread frees itself unless another thread has taken it from the list, and then that thread frees it
(`ClientCustody`). What the owner of the shutdown has already done is known from the statement it
stands at (`Fits`), and for a client thread whose listener has asked for the deletion also from how
far it has come itself (`Asked`).

`Custody.testAccept` to `Custody.freeServer` say that the statements of the owner keep the
invariant.
-/

set_option autoImplicit false
set_option relaxedAutoImplicit false

namespace Mupnp.Http

open Foundation MemoryEvent

/-! ### Phases -/

/-- A client thread as far as the memory is concerned: it attends to its connection, it has gone
through its last section, its data is freed, or it is at the end of `posix_thread_proc`. -/
inductive ClientPhase where
  | idle | attending
  | leaving (ownerStopping deletePending : Bool)
  | detached (ownerStopping : Bool)
  | exiting | destroying | ended
  deriving DecidableEq

def ClientPoint.phase : ClientPoint → ClientPhase
  | .idle => .idle
  | .beginning | .serving | .handling _ | .listening _ | .finishing => .attending
  | .shuttingDown (.listener _) _ => .attending
  | .leaving ownerStopping deletePending => .leaving ownerStopping deletePending
  | .shuttingDown (.action ownerStopping) _ => .detached ownerStopping
  | .ending ownerStopping => .detached ownerStopping
  | .exiting => .exiting
  | .destroying => .destroying
  | .ended => .ended

/-- The thread still uses its own object. -/
def ClientPhase.runs : ClientPhase → Bool
  | .idle | .ended => false
  | _ => true

def ClientPhase.hasData : ClientPhase → Bool
  | .attending | .leaving _ _ => true
  | _ => false

/-- The client thread that the accept thread is about to start, or could not start. -/
def AcceptPoint.holds : AcceptPoint → Option ℕ
  | .adding n | .starting n | .removing n | .discarding n => some n
  | _ => none

/-- The client thread that the accept thread has put into the list and not started. -/
def AcceptPoint.lists : AcceptPoint → Option ℕ
  | .starting n | .removing n => some n
  | _ => none

theorem AcceptPoint.holds_of_lists {point : AcceptPoint} {n : ℕ} (h : point.lists = some n) :
    point.holds = some n := by
  cases point with
  | starting | removing => exact h
  | opening | testing | accepting | adding | discarding | exiting | destroying | ended => cases h

/-- The client thread that was taken from the list and is not deleted yet. -/
def ShutdownPoint.takes : ShutdownPoint → Option ℕ
  | .stop _ (.deleteClient n _) | .stop _ (.joinClient n _) => some n
  | _ => none

/-- A statement of a call of `mupnp_http_server_delete` that is not made by a registered client. -/
def ShutdownPoint.deletes : ShutdownPoint → Bool
  | .search | .stop .delete _ | .stop .close _ | .freeServer => true
  | _ => false

/-- The accept thread is freed, and the server still points to it. -/
def ShutdownPoint.acceptFreed : ShutdownPoint → Bool
  | .stop _ .clearAccept => true
  | _ => false

/-- The list is freed, and the server still points to it. -/
def ShutdownPoint.listFreed : ShutdownPoint → Bool
  | .stop _ .clearList => true
  | _ => false

theorem ShutdownPoint.exists_of_acceptFreed {point : ShutdownPoint}
    (h : point.acceptFreed = true) : ∃ call, point = .stop call .clearAccept := by
  unfold acceptFreed at h
  split at h
  · exact ⟨_, rfl⟩
  · cases h

theorem ShutdownPoint.exists_of_listFreed {point : ShutdownPoint} (h : point.listFreed = true) :
    ∃ call, point = .stop call .clearList := by
  unfold listFreed at h
  split at h
  · exact ⟨_, rfl⟩
  · cases h

/-- Who stops or deletes the server. -/
inductive Owner where
  | application (t : ℕ)
  | client (n : ℕ)
  deriving DecidableEq

/-- `mupnp_thread_self`. -/
def Owner.self : Owner → Option ℕ
  | .application _ => none
  | .client n => some n

/-- The owner is to free the client thread. -/
def Taken (owner : Option Owner) (stage : Option ShutdownPoint) (n : ℕ) : Prop :=
  owner ≠ some (.client n) ∧ stage.bind ShutdownPoint.takes = some n

/-! ### The invariant -/

/-- The custody of a client thread. `owns` says that it is the owner of the shutdown, `taken` that
the owner is to free it. -/
structure ClientCustody (s : ServerFields) (alive : ServerObject → Prop) (phase : ClientPhase)
    (owns taken : Prop) (n : ℕ) : Prop where
  alive_client : alive (.client n) ↔
    s.acceptPoint.holds = some n ∨ phase.runs = true ∨ taken
  alive_data : alive (.clientData n) ↔ s.acceptPoint.holds = some n ∨ phase.hasData = true
  registered : n ∈ s.registered ↔
    s.acceptPoint.lists = some n ∨ phase = .attending ∧ s.ownerStopping n = false
  holds : s.acceptPoint.holds = some n → phase = .idle ∧ ¬ taken ∧ s.ownerStopping n = false
  running : (s.clientFlags n).isRunning = true ↔ phase.runs = true ∧ phase ≠ .destroying
  stopWaiting : phase.runs = true → ¬ taken → (s.clientFlags n).stopWaiting = false
  exiting : phase = .exiting → ¬ taken → (s.clientFlags n).deletePending = true
  ownerStopping : phase.runs = true → s.ownerStopping n = true → owns ∨ taken
  of_taken : taken → s.ownerStopping n = true ∧ (s.clientFlags n).deletePending = false ∧
    phase ≠ .destroying
  attending : phase = .attending → (s.clientFlags n).deletePending = true → owns
  leaving : ∀ ownerStopping deletePending, phase = .leaving ownerStopping deletePending →
    s.ownerStopping n = ownerStopping ∧ (deletePending = true → owns)
  detached : ∀ ownerStopping, phase = .detached ownerStopping → s.ownerStopping n = ownerStopping

/-- What is known when the owner is about to run a statement of `mupnp_http_server_stop`. -/
def StopStage.Fits (s : ServerFields) : StopStage → Prop
  | .testAccept => True
  | .stopAccept | .awaitAccept => s.acceptThread = true
  | .deleteAccept | .clearAccept => s.acceptThread = true ∧ s.acceptPoint = .ended
  | .testClients => s.acceptThread = false
  | .takeClient => s.acceptThread = false ∧ s.clientThreads ≠ none
  | .deleteClient _ clearing | .joinClient _ clearing =>
    s.acceptThread = false ∧ s.clientThreads ≠ none ∧ clearing = false
  | .deleteList | .clearList => s.acceptThread = false ∧ s.clientThreads = some []

/-- What is known when the owner is about to run a statement. -/
def ShutdownPoint.Fits (s : ServerFields) : ShutdownPoint → Prop
  | .search | .unlink => True
  | .stop call stage => (call = .close → s.clientThreads = none) ∧ stage.Fits s
  | .freeServer => s.clientThreads = none

/-- The listener of a client thread has deleted the server, which waits for the thread to come to
its end. -/
structure Dismissed (s : ServerFields) (n : ℕ) : Prop where
  deletePending : s.deletePending = true
  ownerStopping : s.ownerStopping n = true
  self_deleted : (s.clientFlags n).deletePending = true
  clientThreads : s.clientThreads = none

/-- What is known of a client thread whose listener deletes the server: it stops the server in its
listener, goes through its last section, and deletes the server behind it. -/
inductive Asked (s : ServerFields) (alive : Prop) (n : ℕ) :
    ClientPhase → Option ShutdownPoint → Prop where
  | searching (hstopping : s.ownerStopping n = false) : Asked s alive n .attending (some .search)
  | unlinking (hpending : s.deletePending = true) (hstopping : s.ownerStopping n = false) :
    Asked s alive n .attending (some .unlink)
  | stopping (stage : StopStage) (hjoin : ∀ clearing, stage ≠ .joinClient n clearing)
    (hpending : s.deletePending = true)
    (hself : s.ownerStopping n = true →
      (∃ clearing, stage = .deleteClient n clearing) ∨ (s.clientFlags n).deletePending = true) :
    Asked s alive n .attending (some (.stop .fromClient stage))
  | dismissed (hdismissed : Dismissed s n) (halive : alive) : Asked s alive n .attending none
  | leaving (ownerStopping : Bool) (hdismissed : Dismissed s n) (halive : alive) :
    Asked s alive n (.leaving ownerStopping true) none
  | deleting (ownerStopping : Bool) (point : ShutdownPoint) (hdeletes : point.deletes = true)
    (hdismissed : Dismissed s n) : Asked s alive n (.detached ownerStopping) (some point)
  | released (phase : ClientPhase) (hdata : phase.hasData = false) (hdismissed : Dismissed s n)
    (hfreed : ¬ alive) : Asked s alive n phase none

/-- The custody of a server: `alive` says which objects are allocated and not freed, `phase` where
its client threads are, `owner` who stops or deletes it and `stage` which statement is next. -/
structure Custody (s : ServerFields) (alive : ServerObject → Prop) (phase : ℕ → ClientPhase)
    (owner : Option Owner) (stage : Option ShutdownPoint) : Prop where
  client : ∀ n,
    ClientCustody s alive (phase n) (owner = some (.client n)) (Taken owner stage n) n
  fresh : ∀ n, s.accepted ≤ n → phase n = .idle ∧ s.ownerStopping n = false
  nodup : s.registered.Nodup
  alive_server : alive .httpServer ∨ s.acceptPoint = .ended ∧ (∀ n, phase n ≠ .attending) ∧
    stage = none ∧ (s.deleteCalled = true ∨ s.deletePending = true)
  alive_accept : alive .acceptThread ↔
    s.acceptThread = true ∧ stage.any ShutdownPoint.acceptFreed = false
  alive_list : alive .clientThreads ↔
    s.clientThreads ≠ none ∧ stage.any ShutdownPoint.listFreed = false
  accept_running : s.acceptFlags.isRunning = true ↔ s.acceptPoint ≠ .ended
  accept_kept : s.acceptFlags.deletePending = false ∧ s.acceptPoint ≠ .destroying
  accept_over : s.acceptThread = false → s.acceptPoint = .ended
  clients_none : s.clientThreads = none → s.acceptThread = false
  stopped : s.stopCompleted = true → s.clientThreads = none
  fits : ∀ point, stage = some point → owner ≠ none ∧ point.Fits s
  pending : s.deletePending = true → ∃ n, owner = some (.client n)
  asked : ∀ n, owner = some (.client n) → Asked s (alive .httpServer) n (phase n) stage
  application : ∀ t, owner = some (.application t) → ∃ point, stage = some point ∧
    ((∃ next, point = .stop .stop next) ∨ point.deletes = true ∧ s.deleteCalled = true)
  deleted : s.deleteCalled = true → ¬ alive .httpServer ∨
    ∃ t point, owner = some (.application t) ∧ stage = some point ∧ point.deletes = true

section Facts

variable {s : ServerFields} {alive : ServerObject → Prop} {phase : ℕ → ClientPhase}
  {owner : Option Owner} {stage : Option ShutdownPoint}

/-- The custody of a client thread does not change when nothing does that it speaks of. -/
theorem ClientCustody.congr {s' : ServerFields} {alive' : ServerObject → Prop} {phase : ClientPhase}
    {owns owns' taken taken' : Prop} {n : ℕ} (h : ClientCustody s alive phase owns taken n)
    (hclient : alive' (.client n) ↔ alive (.client n))
    (hdata : alive' (.clientData n) ↔ alive (.clientData n))
    (hholds : s'.acceptPoint.holds = some n ↔ s.acceptPoint.holds = some n)
    (hlists : s'.acceptPoint.lists = some n ↔ s.acceptPoint.lists = some n)
    (hregistered : n ∈ s'.registered ↔ n ∈ s.registered)
    (hflags : s'.clientFlags n = s.clientFlags n)
    (hstopping : s'.ownerStopping n = s.ownerStopping n) (howns : owns → owns')
    (htaken : taken' ↔ taken) : ClientCustody s' alive' phase owns' taken' n where
  alive_client := by rw [hclient, hholds, htaken, h.alive_client]
  alive_data := by rw [hdata, hholds, h.alive_data]
  registered := by rw [hregistered, hlists, hstopping, h.registered]
  holds := by
    rw [hholds, htaken, hstopping]
    exact h.holds
  running := by rw [hflags, h.running]
  stopWaiting := by
    rw [htaken, hflags]
    exact h.stopWaiting
  exiting := by
    rw [htaken, hflags]
    exact h.exiting
  ownerStopping := by
    rw [hstopping, htaken]
    exact fun hruns hstop ↦ (h.ownerStopping hruns hstop).imp_left howns
  of_taken := by
    rw [hstopping, htaken, hflags]
    exact h.of_taken
  attending := by
    rw [hflags]
    exact fun hphase hpending ↦ howns (h.attending hphase hpending)
  leaving := by
    rw [hstopping]
    intro ownerStopping deletePending hphase
    obtain ⟨hcarries, hleaving⟩ := h.leaving ownerStopping deletePending hphase
    exact ⟨hcarries, fun hpending ↦ howns (hleaving hpending)⟩
  detached := by
    rw [hstopping]
    exact h.detached

theorem Asked.congr {s' : ServerFields} {alive alive' : Prop} {n : ℕ} {phase : ClientPhase}
    (h : Asked s alive n phase stage) (hpending : s'.deletePending = s.deletePending)
    (hstopping : s'.ownerStopping n = s.ownerStopping n)
    (hflags : s'.clientFlags n = s.clientFlags n)
    (hthreads : s.clientThreads = none → s'.clientThreads = none) (halive : alive' ↔ alive) :
    Asked s' alive' n phase stage := by
  have hdismissed : Dismissed s n → Dismissed s' n := fun hdismissed ↦
    ⟨hpending.trans hdismissed.deletePending, hstopping.trans hdismissed.ownerStopping,
      (congrArg _ hflags).trans hdismissed.self_deleted,
      hthreads hdismissed.clientThreads⟩
  cases h with
  | searching hfree => exact .searching (hstopping.trans hfree)
  | unlinking hasked hfree => exact .unlinking (hpending.trans hasked) (hstopping.trans hfree)
  | stopping stage hjoin hasked hself =>
    refine .stopping stage hjoin (hpending.trans hasked) ?_
    rw [hstopping, hflags]
    exact hself
  | dismissed hold hserver => exact .dismissed (hdismissed hold) (halive.mpr hserver)
  | leaving ownerStopping hold hserver =>
    exact .leaving ownerStopping (hdismissed hold) (halive.mpr hserver)
  | deleting ownerStopping point hdeletes hold =>
    exact .deleting ownerStopping point hdeletes (hdismissed hold)
  | released phase hdata hold hfreed =>
    exact .released phase hdata (hdismissed hold) (mt halive.mp hfreed)

/-- A server that somebody is stopping or deleting is not freed. -/
theorem Custody.server_of_stage {point : ShutdownPoint}
    (h : Custody s alive phase owner (some point)) : alive .httpServer := by
  rcases h.alive_server with halive | ⟨-, -, hstage, -⟩
  · exact halive
  · cases hstage

theorem Custody.server_of_attending (h : Custody s alive phase owner stage) {n : ℕ}
    (hphase : phase n = .attending) : alive .httpServer := by
  rcases h.alive_server with halive | ⟨-, hattending, -⟩
  · exact halive
  · exact absurd hphase (hattending n)

theorem Custody.server_of_accept (h : Custody s alive phase owner stage)
    (haccept : s.acceptPoint ≠ .ended) : alive .httpServer := by
  rcases h.alive_server with halive | ⟨hended, -⟩
  · exact halive
  · exact absurd hended haccept

/-- A registered client thread is not freed. -/
theorem Custody.client_of_registered (h : Custody s alive phase owner stage) {n : ℕ}
    (hmem : n ∈ s.registered) : alive (.client n) := by
  rw [(h.client n).alive_client]
  rcases (h.client n).registered.mp hmem with hlists | ⟨hphase, -⟩
  · exact Or.inl (AcceptPoint.holds_of_lists hlists)
  · right
    left
    rw [hphase]
    rfl

/-- The list is there as long as a client thread is registered. -/
theorem Custody.list_of_registered (h : Custody s alive phase owner stage) {n : ℕ}
    (hmem : n ∈ s.registered) : alive .clientThreads := by
  rw [h.alive_list]
  have hsome : ∀ list, s.clientThreads = some list → list ≠ [] := by
    rintro _ hlist rfl
    rw [ServerFields.registered, hlist] at hmem
    cases hmem
  constructor
  · intro hnone
    rw [ServerFields.registered, hnone] at hmem
    cases hmem
  · rw [Bool.eq_false_iff]
    intro hany
    obtain ⟨point, hstage, hfreed⟩ := (Option.any_eq_true _ _).mp hany
    obtain ⟨call, rfl⟩ := ShutdownPoint.exists_of_listFreed hfreed
    obtain ⟨-, -, -, hempty⟩ := h.fits _ hstage
    exact hsome [] hempty rfl

end Facts

/-! ### Statements of the owner -/

section Statements

variable {s : ServerFields} {alive : ServerObject → Prop} {phase : ℕ → ClientPhase} {o : Owner}
  {call : StopCall} {stage : StopStage}

/-- The owner of the shutdown goes on to another statement. It may have freed the accept thread or
the list, or have cleared what points to them. -/
theorem Custody.moveTo {alive' : ServerObject → Prop} {b : Bool} {c : Option (List ℕ)}
    {point next : ShutdownPoint} (h : Custody s alive phase (some o) (some point))
    (hsame : ∀ object, object ≠ .acceptThread → object ≠ .clientThreads →
      (alive' object ↔ alive object))
    (haccept : alive' .acceptThread ↔ b = true ∧ next.acceptFreed = false)
    (hlist : alive' .clientThreads ↔ c ≠ none ∧ next.listFreed = false)
    (hover : b = false → s.acceptPoint = .ended) (hnone : c = none → b = false)
    (hregistered : c.getD [] = s.registered) (hclear : s.clientThreads = none → c = none)
    (htakes : next.takes = point.takes)
    (hfits : next.Fits { s with acceptThread := b, clientThreads := c })
    (hasked : ∀ n, o = .client n → Asked s (alive .httpServer) n (phase n) (some next))
    (happlication : ∀ t, o = .application t →
      ((∃ stage, next = .stop .stop stage) ↔ ∃ stage, point = .stop .stop stage))
    (hdeletes : ∀ t, o = .application t → next.deletes = point.deletes) :
    Custody { s with acceptThread := b, clientThreads := c } alive' phase (some o) (some next) := by
  have hserver : alive' .httpServer ↔ alive .httpServer :=
    hsame _ (fun h ↦ by cases h) fun h ↦ by cases h
  exact
    { h with
      client := fun n ↦ by
        refine (h.client n).congr (hsame _ (fun h ↦ by cases h) fun h ↦ by cases h)
          (hsame _ (fun h ↦ by cases h) fun h ↦ by cases h) Iff.rfl Iff.rfl ?_ rfl rfl id ?_
        · rw [ServerFields.registered, hregistered]
        · rw [Taken, Taken, Option.bind_some, Option.bind_some, htakes]
      nodup := by
        change (c.getD []).Nodup
        rw [hregistered]
        exact h.nodup
      alive_server := Or.inl (hserver.mpr h.server_of_stage)
      alive_accept := haccept
      alive_list := hlist
      accept_over := hover
      clients_none := hnone
      stopped := fun hstopped ↦ hclear (h.stopped hstopped)
      fits := by
        rintro _ ⟨⟩
        exact ⟨Option.some_ne_none o, hfits⟩
      asked := by
        rintro n ⟨⟩
        exact (hasked n rfl).congr rfl rfl rfl hclear hserver
      application := by
        rintro t ⟨⟩
        obtain ⟨_, ⟨⟩, hpoint⟩ := h.application t rfl
        refine ⟨next, rfl, ?_⟩
        rw [happlication t rfl, hdeletes t rfl]
        exact hpoint
      deleted := by
        intro hdeleted
        rcases h.deleted hdeleted with hfreed | ⟨t, _, ⟨⟩, ⟨⟩, hdelete⟩
        · exact Or.inl (mt hserver.mp hfreed)
        · exact Or.inr ⟨t, next, rfl, rfl, (hdeletes t rfl).trans hdelete⟩ }

/-- A statement that has taken a client thread from the list deletes it or waits for it. -/
theorem StopStage.not_takes {n : ℕ} (hself : ∀ n clearing, stage ≠ .deleteClient n clearing)
    (hjoin : ∀ clearing, stage ≠ .joinClient n clearing) :
    (ShutdownPoint.stop call stage).takes ≠ some n := by
  intro htakes
  cases stage with
  | deleteClient m clearing => exact hself m clearing rfl
  | joinClient m clearing =>
    obtain rfl := Option.some.inj htakes
    exact hjoin clearing rfl
  | testAccept | stopAccept | awaitAccept | deleteAccept | clearAccept | testClients | takeClient
  | deleteList | clearList => cases htakes

/-- The owner goes on to another statement of `mupnp_http_server_stop`. -/
theorem Custody.stopTo {alive' : ServerObject → Prop} {b : Bool} {c : Option (List ℕ)}
    {next : StopStage} (h : Custody s alive phase (some o) (some (.stop call stage)))
    (hself : ∀ n clearing, stage ≠ .deleteClient n clearing)
    (hsame : ∀ object, object ≠ .acceptThread → object ≠ .clientThreads →
      (alive' object ↔ alive object))
    (haccept : alive' .acceptThread ↔
      b = true ∧ (ShutdownPoint.stop call next).acceptFreed = false)
    (hlist : alive' .clientThreads ↔
      c ≠ none ∧ (ShutdownPoint.stop call next).listFreed = false)
    (hover : b = false → s.acceptPoint = .ended) (hnone : c = none → b = false)
    (hregistered : c.getD [] = s.registered) (hclear : s.clientThreads = none → c = none)
    (htakes : (ShutdownPoint.stop call next).takes = (ShutdownPoint.stop call stage).takes)
    (hfits : next.Fits { s with acceptThread := b, clientThreads := c }) :
    Custody { s with acceptThread := b, clientThreads := c } alive' phase (some o)
      (some (.stop call next)) := by
  have hcall := (h.fits _ rfl).2.1
  have hdeletes : (ShutdownPoint.stop call next).deletes =
      (ShutdownPoint.stop call stage).deletes := by
    cases call <;> rfl
  refine h.moveTo hsame haccept hlist hover hnone hregistered hclear htakes
    ⟨fun hclose ↦ hclear (hcall hclose), hfits⟩ ?_ (fun t _ ↦ ?_) fun t _ ↦ hdeletes
  · intro n ho
    have hasked := h.asked n (congrArg some ho)
    generalize phase n = p at hasked ⊢
    cases hasked with
    | stopping _ hjoin hpending hflag =>
      refine Asked.stopping next (fun clearing hnext ↦ ?_) hpending fun hstopping ↦ Or.inr ?_
      · subst hnext
        exact StopStage.not_takes hself hjoin htakes.symm
      rcases hflag hstopping with ⟨clearing, hstage⟩ | hflag
      · exact absurd hstage (hself n clearing)
      · exact hflag
    | deleting ownerStopping _ hdelete hdismissed =>
      exact Asked.deleting ownerStopping _ (hdeletes.trans hdelete) hdismissed
  · constructor
    · rintro ⟨_, hnext⟩
      exact ⟨stage, by cases hnext; rfl⟩
    · rintro ⟨_, hstage⟩
      exact ⟨next, by cases hstage; rfl⟩

/-- A statement that changes nothing that the invariant speaks of. -/
theorem Custody.stopOn {next : StopStage}
    (h : Custody s alive phase (some o) (some (.stop call stage)))
    (hself : ∀ n clearing, stage ≠ .deleteClient n clearing)
    (haccept : (ShutdownPoint.stop call next).acceptFreed =
      (ShutdownPoint.stop call stage).acceptFreed)
    (hlist : (ShutdownPoint.stop call next).listFreed = (ShutdownPoint.stop call stage).listFreed)
    (htakes : (ShutdownPoint.stop call next).takes = (ShutdownPoint.stop call stage).takes)
    (hfits : next.Fits s) : Custody s alive phase (some o) (some (.stop call next)) :=
  h.stopTo hself (fun _ _ _ ↦ Iff.rfl) (haccept ▸ h.alive_accept) (hlist ▸ h.alive_list)
    h.accept_over h.clients_none rfl id htakes hfits

theorem Custody.testAccept (h : Custody s alive phase (some o) (some (.stop call .testAccept))) :
    Custody s alive phase (some o)
      (some (.stop call (if s.acceptThread then .stopAccept else .testClients))) := by
  split_ifs with hthread
  · exact h.stopOn (fun _ _ hstage ↦ by cases hstage) rfl rfl rfl hthread
  · exact h.stopOn (fun _ _ hstage ↦ by cases hstage) rfl rfl rfl (Bool.eq_false_iff.mpr hthread)

theorem Custody.stopAccept (h : Custody s alive phase (some o) (some (.stop call .stopAccept))) :
    Custody { s with acceptFlags := s.acceptFlags.stopRequested } alive phase (some o)
      (some (.stop call .awaitAccept)) := by
  have hnext : Custody s alive phase (some o) (some (.stop call .awaitAccept)) :=
    h.stopOn (fun _ _ hstage ↦ by cases hstage) rfl rfl rfl (h.fits _ rfl).2.2
  exact
    { hnext with
      client := fun n ↦ (hnext.client n).congr Iff.rfl Iff.rfl Iff.rfl Iff.rfl Iff.rfl rfl rfl id
        Iff.rfl
      asked := fun n ho ↦ (hnext.asked n ho).congr rfl rfl rfl id Iff.rfl }

theorem Custody.awaitAccept (h : Custody s alive phase (some o) (some (.stop call .awaitAccept)))
    (hended : s.acceptFlags.isRunning = false) :
    Custody s alive phase (some o) (some (.stop call .deleteAccept)) := by
  refine h.stopOn (fun _ _ hstage ↦ by cases hstage) rfl rfl rfl ⟨(h.fits _ rfl).2.2, ?_⟩
  by_contra hpoint
  rw [h.accept_running.mpr hpoint] at hended
  cases hended

/-- The accept thread is freed. -/
theorem Custody.deleteAccept
    (h : Custody s alive phase (some o) (some (.stop call .deleteAccept))) :
    Custody s (fun object ↦ alive object ∧ object ≠ .acceptThread) phase (some o)
      (some (.stop call .clearAccept)) := by
  refine h.stopTo (fun _ _ hstage ↦ by cases hstage) (fun object hne _ ↦ and_iff_left hne) ?_ ?_
    h.accept_over h.clients_none rfl id rfl (h.fits _ rfl).2.2
  · exact iff_of_false (fun hfreed ↦ hfreed.2 rfl) fun hfreed ↦ by cases hfreed.2
  · exact (and_iff_left fun h ↦ by cases h).trans h.alive_list

theorem Custody.clearAccept (h : Custody s alive phase (some o) (some (.stop call .clearAccept))) :
    Custody { s with acceptThread := false } alive phase (some o)
      (some (.stop call .testClients)) := by
  obtain ⟨-, -, -, hended⟩ := h.fits _ rfl
  refine h.stopTo (fun _ _ hstage ↦ by cases hstage) (fun _ _ _ ↦ Iff.rfl) ?_ h.alive_list
    (fun _ ↦ hended) (fun _ ↦ rfl) rfl id rfl rfl
  rw [h.alive_accept]
  exact iff_of_false (fun hfreed ↦ by cases hfreed.2) fun hthread ↦ by cases hthread.1

/-- The list is freed. -/
theorem Custody.deleteList (h : Custody s alive phase (some o) (some (.stop call .deleteList))) :
    Custody s (fun object ↦ alive object ∧ object ≠ .clientThreads) phase (some o)
      (some (.stop call .clearList)) := by
  refine h.stopTo (fun _ _ hstage ↦ by cases hstage) (fun object _ hne ↦ and_iff_left hne) ?_ ?_
    h.accept_over h.clients_none rfl id rfl (h.fits _ rfl).2.2
  · exact (and_iff_left fun h ↦ by cases h).trans h.alive_accept
  · exact iff_of_false (fun hfreed ↦ hfreed.2 rfl) fun hfreed ↦ by cases hfreed.2

theorem Custody.clearList (h : Custody s alive phase (some o) (some (.stop call .clearList))) :
    Custody { s with clientThreads := none } alive phase (some o)
      (some (.stop call .testClients)) := by
  obtain ⟨-, -, hover, hempty⟩ := h.fits _ rfl
  refine h.stopTo (fun _ _ hstage ↦ by cases hstage) (fun _ _ _ ↦ Iff.rfl) h.alive_accept ?_
    h.accept_over (fun _ ↦ hover) ?_ (fun _ ↦ rfl) rfl hover
  · rw [h.alive_list]
    exact iff_of_false (fun hfreed ↦ by cases hfreed.2) fun hthread ↦ hthread.1 rfl
  · rw [ServerFields.registered, hempty]
    rfl

/-- When the accept thread is over, a registered client thread attends to its connection and was not
taken. -/
theorem Custody.attending_of_registered {stage : Option ShutdownPoint}
    (h : Custody s alive phase (some o) stage) (hover : s.acceptThread = false) {n : ℕ}
    (hmem : n ∈ s.registered) : phase n = .attending ∧ s.ownerStopping n = false := by
  rcases (h.client n).registered.mp hmem with hlists | hattending
  · rw [h.accept_over hover] at hlists
    cases hlists
  · exact hattending

/-- What is known of an owner of the application does not depend on the statement of
`mupnp_http_server_stop`. -/
theorem Custody.application_stop {next : StopStage}
    (h : Custody s alive phase (some o) (some (.stop call stage))) (t : ℕ)
    (ho : some o = some (.application t)) :
    ∃ point, some (ShutdownPoint.stop call next) = some point ∧
      ((∃ next, point = .stop .stop next) ∨ point.deletes = true ∧ s.deleteCalled = true) := by
  refine ⟨_, rfl, ?_⟩
  obtain ⟨_, ⟨⟩, ⟨_, ⟨⟩⟩ | hdelete⟩ := h.application t ho
  · exact Or.inl ⟨next, rfl⟩
  · cases call with
    | delete | close => exact Or.inr hdelete
    | stop | fromClient => cases hdelete.1

theorem Custody.deleted_stop {next : StopStage}
    (h : Custody s alive phase (some o) (some (.stop call stage)))
    (hdeleted : s.deleteCalled = true) : ¬ alive .httpServer ∨
      ∃ t point, some o = some (.application t) ∧
        some (ShutdownPoint.stop call next) = some point ∧ point.deletes = true := by
  rcases h.deleted hdeleted with hfreed | ⟨t, _, ho, ⟨⟩, hdelete⟩
  · exact Or.inl hfreed
  · refine Or.inr ⟨t, _, ho, rfl, ?_⟩
    cases call with
    | delete | close => exact hdelete
    | stop | fromClient => cases hdelete

/-- The first registered client thread is taken from the list. -/
theorem Custody.takeClient {n : ℕ} {rest : List ℕ}
    (h : Custody s alive phase (some o) (some (.stop call .takeClient)))
    (hlist : s.clientThreads = some (n :: rest)) :
    Custody { s with
      clientThreads := some rest
      ownerStopping := fun other ↦ if other = n then true else s.ownerStopping other }
      alive phase (some o) (some (.stop call (.deleteClient n false))) := by
  obtain ⟨-, hclose, hover, -⟩ := h.fits _ rfl
  have hregistered : s.registered = n :: rest := by
    rw [ServerFields.registered, hlist]
    rfl
  have hmem : n ∈ s.registered := by
    rw [hregistered]
    exact List.mem_cons_self
  have hnodup := h.nodup
  rw [hregistered, List.nodup_cons] at hnodup
  obtain ⟨hattending, hfree⟩ := h.attending_of_registered hover hmem
  have hended := h.accept_over hover
  have hnone : s.clientThreads ≠ none := by
    rw [hlist]
    exact Option.some_ne_none _
  exact
    { h with
      client := by
        intro other
        by_cases hother : other = n
        · subst hother
          have hcustody := h.client other
          rw [hattending] at hcustody ⊢
          exact
            { hcustody with
              alive_client := iff_of_true (hcustody.alive_client.mpr (Or.inr (Or.inl rfl)))
                (Or.inr (Or.inl rfl))
              registered := by
                refine iff_of_false hnodup.1 ?_
                rintro (hlists | ⟨-, hstopping⟩)
                · rw [hended] at hlists
                  cases hlists
                · have htrue : (if other = other then true else s.ownerStopping other) = true :=
                    if_pos rfl
                  cases htrue.symm.trans hstopping
              holds := by
                intro hholds
                rw [hended] at hholds
                cases hholds
              stopWaiting := fun hruns _ ↦ hcustody.stopWaiting hruns fun htaken ↦ by
                cases htaken.2
              exiting := fun hphase ↦ by cases hphase
              ownerStopping := by
                intro _ _
                by_cases ho : some o = some (.client other)
                · exact Or.inl ho
                · exact Or.inr ⟨ho, rfl⟩
              of_taken := by
                intro htaken
                refine ⟨if_pos rfl, ?_, fun hphase ↦ by cases hphase⟩
                rw [Bool.eq_false_iff]
                exact fun hpending ↦ htaken.1 (hcustody.attending rfl hpending)
              leaving := fun _ _ hphase ↦ by cases hphase
              detached := fun _ hphase ↦ by cases hphase }
        · refine (h.client other).congr Iff.rfl Iff.rfl Iff.rfl Iff.rfl ?_ rfl (if_neg hother) id ?_
          · rw [hregistered, List.mem_cons, or_iff_right hother]
            rfl
          · refine iff_of_false (fun htaken ↦ hother ?_) fun htaken ↦ by cases htaken.2
            exact (Option.some.inj htaken.2).symm
      fresh := by
        intro other hother
        obtain ⟨hidle, hstopping⟩ := h.fresh other hother
        refine ⟨hidle, (if_neg ?_).trans hstopping⟩
        rintro rfl
        rw [hattending] at hidle
        cases hidle
      nodup := hnodup.2
      alive_server := Or.inl h.server_of_stage
      alive_list := iff_of_true (h.list_of_registered hmem) ⟨Option.some_ne_none _, rfl⟩
      clients_none := fun hrest ↦ by cases hrest
      stopped := fun hstopped ↦ absurd (h.stopped hstopped) hnone
      fits := by
        rintro _ ⟨⟩
        refine ⟨Option.some_ne_none o, fun hcall ↦ absurd (hclose hcall) hnone, hover,
          Option.some_ne_none _, rfl⟩
      asked := by
        intro m ho
        have hasked := h.asked m ho
        generalize phase m = p at hasked ⊢
        cases hasked with
        | stopping _ _ hpending hflag =>
          refine Asked.stopping _ (fun _ hjoin ↦ by cases hjoin) hpending fun hstopping ↦ ?_
          by_cases hm : m = n
          · exact Or.inl ⟨false, by rw [hm]⟩
          · rcases hflag ((if_neg hm).symm.trans hstopping) with ⟨_, hstage⟩ | hflag
            · cases hstage
            · exact Or.inr hflag
        | deleting _ _ _ hdismissed => exact absurd hdismissed.clientThreads hnone
      application := h.application_stop
      deleted := h.deleted_stop }

/-- A client thread that was taken from the list is not freed before it is deleted. -/
theorem Custody.client_of_deleteClient {n : ℕ} {clearing : Bool}
    (h : Custody s alive phase (some o) (some (.stop call (.deleteClient n clearing)))) :
    alive (.client n) := by
  have hcustody := h.client n
  rw [hcustody.alive_client]
  by_cases ho : o = .client n
  · have hasked := h.asked n (congrArg some ho)
    generalize phase n = p at hasked
    cases hasked with
    | stopping _ _ _ _ => exact Or.inr (Or.inl rfl)
    | deleting _ _ _ _ => exact Or.inr (Or.inl rfl)
  · exact Or.inr (Or.inr ⟨fun howner ↦ ho (Option.some.inj howner), rfl⟩)

/-- A client thread that stops the server from its listener deletes itself. -/
theorem Custody.deleteSelf {n : ℕ} {clearing : Bool}
    (h : Custody s alive phase (some (.client n)) (some (.stop call (.deleteClient n clearing)))) :
    Custody { s with
      clientFlags := fun other ↦
        if other = n then (s.clientFlags n).selfDeleted else s.clientFlags other }
      alive phase (some (.client n)) (some (.stop call .takeClient)) := by
  obtain ⟨-, hclose, hover, hnone, -⟩ := h.fits _ rfl
  have hasked := h.asked n rfl
  have hcustody := h.client n
  have hflags : (if n = n then (s.clientFlags n).selfDeleted else s.clientFlags n) =
      (s.clientFlags n).selfDeleted := if_pos rfl
  obtain ⟨hphase, rfl, hpending⟩ :
      phase n = .attending ∧ call = .fromClient ∧ s.deletePending = true := by
    generalize phase n = p at hasked
    cases hasked with
    | stopping _ _ hpending _ => exact ⟨rfl, rfl, hpending⟩
    | deleting _ _ _ hdismissed => exact absurd hdismissed.clientThreads hnone
  exact
    { h with
      client := by
        intro other
        by_cases hother : other = n
        · subst hother
          rw [hphase] at hcustody ⊢
          exact
            { hcustody with
              alive_client := iff_of_true (hcustody.alive_client.mpr (Or.inr (Or.inl rfl)))
                (Or.inr (Or.inl rfl))
              holds := fun hholds ↦ by cases (hcustody.holds hholds).1
              running := by
                change (if other = other then _ else _ : ThreadFlags).isRunning = true ↔ _
                rw [hflags]
                exact hcustody.running
              stopWaiting := by
                intro hruns _
                change (if other = other then _ else _ : ThreadFlags).stopWaiting = false
                rw [hflags]
                exact hcustody.stopWaiting hruns fun htaken ↦ htaken.1 rfl
              exiting := fun hexiting ↦ by cases hexiting
              ownerStopping := fun _ _ ↦ Or.inl rfl
              of_taken := fun htaken ↦ absurd rfl htaken.1
              attending := fun _ _ ↦ rfl
              leaving := fun _ _ hleaving ↦ by cases hleaving
              detached := fun _ hdetached ↦ by cases hdetached }
        · refine (h.client other).congr Iff.rfl Iff.rfl Iff.rfl Iff.rfl Iff.rfl (if_neg hother) rfl
            id ?_
          refine iff_of_false (fun htaken ↦ by cases htaken.2) fun htaken ↦ hother ?_
          exact (Option.some.inj htaken.2).symm
      alive_server := Or.inl h.server_of_stage
      fits := by
        rintro _ ⟨⟩
        exact ⟨Option.some_ne_none _, hclose, hover, hnone⟩
      asked := by
        rintro m ⟨⟩
        rw [hphase]
        refine Asked.stopping _ (fun _ hjoin ↦ by cases hjoin) hpending fun _ ↦ Or.inr ?_
        change (if n = n then _ else _ : ThreadFlags).deletePending = true
        rw [hflags]
        rfl
      application := h.application_stop
      deleted := h.deleted_stop }

/-- Another client thread that was taken is told to stop. -/
theorem Custody.deleteOther {n : ℕ} {clearing : Bool}
    (h : Custody s alive phase (some o) (some (.stop call (.deleteClient n clearing))))
    (hother : o ≠ .client n) :
    Custody { s with
      clientFlags := fun other ↦
        if other = n then (s.clientFlags n).stopRequested else s.clientFlags other }
      alive phase (some o) (some (.stop call (.joinClient n clearing))) := by
  have hcustody := h.client n
  have htaken : Taken (some o) (some (.stop call (.deleteClient n clearing))) n :=
    ⟨fun ho ↦ hother (Option.some.inj ho), rfl⟩
  have hflags : (if n = n then (s.clientFlags n).stopRequested else s.clientFlags n) =
      (s.clientFlags n).stopRequested := if_pos rfl
  exact
    { h with
      client := by
        intro m
        by_cases hm : m = n
        · subst hm
          exact
            { hcustody with
              running := by
                change (if m = m then _ else _ : ThreadFlags).isRunning = true ↔ _
                rw [hflags]
                exact hcustody.running
              stopWaiting := fun _ hfree ↦ absurd htaken hfree
              exiting := fun _ hfree ↦ absurd htaken hfree
              of_taken := by
                intro _
                change _ ∧ (if m = m then _ else _ : ThreadFlags).deletePending = false ∧ _
                rw [hflags]
                exact hcustody.of_taken htaken
              attending := by
                intro hattending
                change (if m = m then _ else _ : ThreadFlags).deletePending = true → _
                rw [hflags]
                exact hcustody.attending hattending }
        · exact (h.client m).congr Iff.rfl Iff.rfl Iff.rfl Iff.rfl Iff.rfl (if_neg hm) rfl id
            Iff.rfl
      alive_server := Or.inl h.server_of_stage
      fits := by
        rintro _ ⟨⟩
        exact h.fits _ rfl
      asked := by
        rintro m ⟨⟩
        have hm : m ≠ n := fun hm ↦ hother (congrArg Owner.client hm)
        have hflags : (if m = n then (s.clientFlags n).stopRequested else s.clientFlags m) =
            s.clientFlags m := if_neg hm
        have hasked := h.asked m rfl
        generalize phase m = p at hasked ⊢
        cases hasked with
        | stopping _ _ hpending hflag =>
          refine Asked.stopping _ (fun _ hjoin ↦ hm ?_) hpending fun hstopping ↦ Or.inr ?_
          · cases hjoin
            rfl
          rcases hflag hstopping with ⟨_, ⟨⟩⟩ | hflag
          · exact absurd rfl hm
          · exact (congrArg ThreadFlags.deletePending hflags).trans hflag
        | deleting ownerStopping _ hdeletes hdismissed =>
          exact absurd hdismissed.clientThreads (h.fits _ rfl).2.2.2.1
      application := h.application_stop
      deleted := h.deleted_stop }

/-- A client thread that was taken and has come to its end is freed. -/
theorem Custody.joinClient {n : ℕ} {clearing : Bool}
    (h : Custody s alive phase (some o) (some (.stop call (.joinClient n clearing))))
    (hended : (s.clientFlags n).isRunning = false) :
    alive (.client n) ∧ Custody s (fun object ↦ alive object ∧ object ≠ .client n) phase (some o)
      (some (.stop call .takeClient)) := by
  obtain ⟨-, hclose, hover, hnone, -⟩ := h.fits _ rfl
  have hcustody := h.client n
  have hother : o ≠ .client n := by
    rintro rfl
    have hasked := h.asked n rfl
    generalize phase n = p at hasked hcustody
    cases hasked with
    | stopping _ _ _ _ =>
      rw [hcustody.running.mpr ⟨rfl, fun hphase ↦ by cases hphase⟩] at hended
      cases hended
    | deleting _ _ _ hdismissed => exact hnone hdismissed.clientThreads
  have htaken : Taken (some o) (some (.stop call (.joinClient n clearing))) n :=
    ⟨fun ho ↦ hother (Option.some.inj ho), rfl⟩
  have hruns : (phase n).runs ≠ true := by
    intro hruns
    rw [hcustody.running.mpr ⟨hruns, (hcustody.of_taken htaken).2.2⟩] at hended
    cases hended
  have hholds : s.acceptPoint.holds ≠ some n := fun hholds ↦ (hcustody.holds hholds).2.1 htaken
  refine ⟨hcustody.alive_client.mpr (Or.inr (Or.inr htaken)), ?_⟩
  exact
    { h with
      client := by
        intro m
        by_cases hm : m = n
        · subst hm
          exact
            { hcustody with
              alive_client := by
                refine iff_of_false (fun halive ↦ halive.2 rfl) ?_
                rintro (hhold | hrun | htaken)
                · exact hholds hhold
                · exact hruns hrun
                · cases htaken.2
              alive_data := (and_iff_left fun h ↦ by cases h).trans hcustody.alive_data
              holds := fun hhold ↦ absurd hhold hholds
              stopWaiting := fun hrun ↦ absurd hrun hruns
              exiting := fun hexiting ↦ absurd (congrArg ClientPhase.runs hexiting) hruns
              ownerStopping := fun hrun ↦ absurd hrun hruns
              of_taken := fun htaken ↦ by cases htaken.2 }
        · refine (h.client m).congr (and_iff_left fun h ↦ hm ?_) (and_iff_left fun h ↦ by cases h)
            Iff.rfl Iff.rfl Iff.rfl rfl rfl id ?_
          · cases h
            rfl
          · refine iff_of_false (fun htaken ↦ by cases htaken.2) fun htaken ↦ hm ?_
            exact (Option.some.inj htaken.2).symm
      alive_server := Or.inl ⟨h.server_of_stage, fun h ↦ by cases h⟩
      alive_accept := (and_iff_left fun h ↦ by cases h).trans h.alive_accept
      alive_list := (and_iff_left fun h ↦ by cases h).trans h.alive_list
      fits := by
        rintro _ ⟨⟩
        exact ⟨Option.some_ne_none o, hclose, hover, hnone⟩
      asked := by
        rintro m ⟨⟩
        have hasked := h.asked m rfl
        generalize phase m = p at hasked ⊢
        cases hasked with
        | stopping _ _ hpending hflag =>
          refine Asked.stopping _ (fun _ hjoin ↦ by cases hjoin) hpending fun hstopping ↦ Or.inr ?_
          rcases hflag hstopping with ⟨_, ⟨⟩⟩ | hflag
          exact hflag
        | deleting ownerStopping _ hdeletes hdismissed =>
          exact absurd hdismissed.clientThreads hnone
      application := h.application_stop
      deleted := fun hdeleted ↦ (h.deleted_stop hdeleted).imp_left fun hfreed hserver ↦
        hfreed hserver.1 }

/-- Who stops or deletes the server when the owner goes on with `next`: a thread of the application
that is done has nothing more to do with the server. -/
def Owner.after : Owner → Option ShutdownPoint → Option Owner
  | .application _, none => none
  | o, _ => some o

/-- The owner has carried out a call of `mupnp_http_server_stop`. -/
theorem Custody.completed {owner : Option Owner} {stage : Option ShutdownPoint}
    (h : Custody s alive phase owner stage) (hnone : s.clientThreads = none) :
    Custody { s with stopCompleted := true } alive phase owner stage :=
  { h with
    client := fun n ↦ (h.client n).congr Iff.rfl Iff.rfl Iff.rfl Iff.rfl Iff.rfl rfl rfl id Iff.rfl
    stopped := fun _ ↦ hnone
    asked := fun n ho ↦ (h.asked n ho).congr rfl rfl rfl id Iff.rfl }

/-- The application has stopped the server. -/
theorem Custody.return_stop (h : Custody s alive phase (some o) (some (.stop .stop stage)))
    (htakes : (ShutdownPoint.stop .stop stage).takes = none)
    (haccept : (ShutdownPoint.stop .stop stage).acceptFreed = false)
    (hlist : (ShutdownPoint.stop .stop stage).listFreed = false) :
    (∃ t, o = .application t) ∧ Custody s alive phase none none := by
  obtain ⟨t, rfl⟩ : ∃ t, o = .application t := by
    cases o with
    | application t => exact ⟨t, rfl⟩
    | client n =>
      have hasked := h.asked n rfl
      generalize phase n = p at hasked
      cases hasked with
      | deleting _ _ hdeletes _ => cases hdeletes
  refine ⟨⟨t, rfl⟩, ?_⟩
  exact
    { h with
      client := by
        intro n
        refine (h.client n).congr Iff.rfl Iff.rfl Iff.rfl Iff.rfl Iff.rfl rfl rfl
          (fun howner ↦ by cases howner) (iff_of_false (fun htaken ↦ by cases htaken.2) ?_)
        rintro ⟨-, htaken⟩
        rw [Option.bind_some, htakes] at htaken
        cases htaken
      alive_server := Or.inl h.server_of_stage
      alive_accept := by
        rw [h.alive_accept, Option.any_some, haccept]
        rfl
      alive_list := by
        rw [h.alive_list, Option.any_some, hlist]
        rfl
      fits := fun _ hstage ↦ by cases hstage
      pending := by
        intro hpending
        obtain ⟨n, howner⟩ := h.pending hpending
        cases howner
      asked := fun _ howner ↦ by cases howner
      application := fun _ howner ↦ by cases howner
      deleted := by
        intro hdeleted
        rcases h.deleted hdeleted with hfreed | ⟨_, _, _, ⟨⟩, hdeletes⟩
        · exact Or.inl hfreed
        · cases hdeletes }

/-- The listener of a client thread has stopped the server, and the client thread itself. -/
theorem Custody.return_fromClient
    (h : Custody s alive phase (some o) (some (.stop .fromClient .testClients)))
    (hnone : s.clientThreads = none) :
    (∃ n, o = .client n) ∧ Custody s alive phase (some o) none := by
  obtain ⟨n, rfl⟩ : ∃ n, o = .client n := by
    cases o with
    | client n => exact ⟨n, rfl⟩
    | application t =>
      obtain ⟨_, ⟨⟩, ⟨_, ⟨⟩⟩ | ⟨⟨⟩, -⟩⟩ := h.application t rfl
  refine ⟨⟨n, rfl⟩, ?_⟩
  have hserver := h.server_of_stage
  have hcustody := h.client n
  exact
    { h with
      client := by
        intro m
        refine (h.client m).congr Iff.rfl Iff.rfl Iff.rfl Iff.rfl Iff.rfl rfl rfl id ?_
        exact iff_of_false (fun htaken ↦ by cases htaken.2) fun htaken ↦ by cases htaken.2
      alive_server := Or.inl hserver
      fits := fun _ hstage ↦ by cases hstage
      asked := by
        rintro m ⟨⟩
        have hasked := h.asked n rfl
        generalize phase n = p at hasked hcustody ⊢
        cases hasked with
        | stopping _ _ hpending hflag =>
          have hstopping : s.ownerStopping n = true := by
            by_contra hfree
            have hmem := hcustody.registered.mpr (Or.inr ⟨rfl, Bool.eq_false_iff.mpr hfree⟩)
            rw [ServerFields.registered, hnone] at hmem
            cases hmem
          rcases hflag hstopping with ⟨_, ⟨⟩⟩ | hflag
          exact Asked.dismissed ⟨hpending, hstopping, hflag, hnone⟩ hserver
        | deleting _ _ hdeletes _ => cases hdeletes
      application := fun _ howner ↦ by cases howner
      deleted := by
        intro hdeleted
        rcases h.deleted hdeleted with hfreed | ⟨_, _, ⟨⟩, _⟩
        exact Or.inl hfreed }

/-- A call of `mupnp_http_server_stop` is over. -/
theorem Custody.return (h : Custody s alive phase (some o) (some (.stop call .testClients)))
    (hnone : s.clientThreads = none) :
    Custody { s with stopCompleted := true } alive phase (o.after call.return) call.return := by
  cases call with
  | stop =>
    obtain ⟨⟨t, rfl⟩, hdone⟩ := h.return_stop rfl rfl rfl
    exact hdone.completed hnone
  | fromClient =>
    obtain ⟨⟨n, rfl⟩, hdone⟩ := h.return_fromClient hnone
    exact hdone.completed hnone
  | delete =>
    have hafter : o.after (StopCall.return .delete) = some o := by cases o <;> rfl
    rw [hafter]
    refine Custody.completed ?_ hnone
    refine h.moveTo (fun _ _ _ ↦ Iff.rfl) h.alive_accept h.alive_list h.accept_over h.clients_none
      rfl id rfl ⟨fun _ ↦ hnone, trivial⟩ ?_ (fun t _ ↦ ?_) fun t _ ↦ rfl
    · intro n ho
      have hasked := h.asked n (congrArg some ho)
      generalize phase n = p at hasked ⊢
      cases hasked with
      | deleting _ _ _ hdismissed => exact Asked.deleting _ _ rfl hdismissed
    · exact iff_of_false (fun ⟨_, hnext⟩ ↦ by cases hnext) fun ⟨_, hstage⟩ ↦ by cases hstage
  | close =>
    have hafter : o.after (StopCall.return .close) = some o := by cases o <;> rfl
    rw [hafter]
    refine Custody.completed ?_ hnone
    refine h.moveTo (fun _ _ _ ↦ Iff.rfl) h.alive_accept h.alive_list h.accept_over h.clients_none
      rfl id rfl hnone ?_ (fun t _ ↦ ?_) fun t _ ↦ rfl
    · intro n ho
      have hasked := h.asked n (congrArg some ho)
      generalize phase n = p at hasked ⊢
      cases hasked with
      | deleting _ _ _ hdismissed => exact Asked.deleting _ _ rfl hdismissed
    · exact iff_of_false (fun ⟨_, hnext⟩ ↦ by cases hnext) fun ⟨_, hstage⟩ ↦ by cases hstage

/-- A registered client thread finds itself in the list. -/
theorem Custody.search_of_mem {n : ℕ}
    (h : Custody s alive phase (some (.client n)) (some .search)) (hmem : n ∈ s.registered) :
    Custody { s with deletePending := true } alive phase (some (.client n)) (some .unlink) :=
  { h with
    client := by
      intro m
      refine (h.client m).congr Iff.rfl Iff.rfl Iff.rfl Iff.rfl Iff.rfl rfl rfl id ?_
      exact iff_of_false (fun htaken ↦ by cases htaken.2) fun htaken ↦ by cases htaken.2
    alive_server := Or.inl h.server_of_stage
    fits := by
      rintro _ ⟨⟩
      exact ⟨Option.some_ne_none _, trivial⟩
    pending := fun _ ↦ ⟨n, rfl⟩
    asked := by
      rintro m ⟨⟩
      have hasked := h.asked n rfl
      generalize phase n = p at hasked ⊢
      cases hasked with
      | searching hstopping => exact Asked.unlinking rfl hstopping
      | deleting _ _ _ hdismissed =>
        rw [ServerFields.registered, hdismissed.clientThreads] at hmem
        cases hmem
    application := fun _ howner ↦ by cases howner
    deleted := by
      intro hdeleted
      rcases h.deleted hdeleted with hfreed | ⟨_, _, ⟨⟩, _⟩
      exact Or.inl hfreed }

/-- Anybody else deletes the server. -/
theorem Custody.search_of_not_mem (h : Custody s alive phase (some o) (some .search))
    (hmem : ¬ ∃ n ∈ s.registered, some n = o.self) :
    Custody s alive phase (some o) (some (.stop .delete .testAccept)) := by
  refine h.moveTo (fun _ _ _ ↦ Iff.rfl) h.alive_accept h.alive_list h.accept_over h.clients_none
    rfl id rfl ⟨(fun hcall ↦ by cases hcall), trivial⟩ ?_ (fun t _ ↦ ?_) fun t _ ↦ rfl
  · rintro n rfl
    have hasked := h.asked n rfl
    have hcustody := h.client n
    generalize phase n = p at hasked hcustody ⊢
    cases hasked with
    | searching hstopping =>
      exact absurd ⟨n, hcustody.registered.mpr (Or.inr ⟨rfl, hstopping⟩), rfl⟩ hmem
    | deleting _ _ _ hdismissed => exact Asked.deleting _ _ rfl hdismissed
  · exact iff_of_false (fun ⟨_, hnext⟩ ↦ by cases hnext) fun ⟨_, hstage⟩ ↦ by cases hstage

theorem Custody.unlink (h : Custody s alive phase (some o) (some .unlink)) :
    Custody s alive phase (some o) (some (.stop .fromClient .testAccept)) := by
  have happlication : ∀ t, o ≠ .application t := by
    rintro t rfl
    obtain ⟨_, ⟨⟩, ⟨_, ⟨⟩⟩ | ⟨⟨⟩, -⟩⟩ := h.application t rfl
  refine h.moveTo (fun _ _ _ ↦ Iff.rfl) h.alive_accept h.alive_list h.accept_over h.clients_none
    rfl id rfl ⟨(fun hcall ↦ by cases hcall), trivial⟩ ?_ (fun t ho ↦ absurd ho (happlication t))
    fun t ho ↦ absurd ho (happlication t)
  intro n ho
  have hasked := h.asked n (congrArg some ho)
  generalize phase n = p at hasked ⊢
  cases hasked with
  | unlinking hpending hstopping =>
    refine Asked.stopping _ (fun _ hjoin ↦ by cases hjoin) hpending fun htrue ↦ ?_
    rw [hstopping] at htrue
    cases htrue
  | deleting _ _ hdeletes _ => cases hdeletes

/-- When the server is about to be freed, no client thread attends to a connection. -/
theorem Custody.not_attending (h : Custody s alive phase (some o) (some .freeServer)) (n : ℕ) :
    phase n ≠ .attending := by
  intro hphase
  have hcustody := h.client n
  rw [hphase] at hcustody
  by_cases hstopping : s.ownerStopping n = true
  · rcases hcustody.ownerStopping rfl hstopping with howns | htaken
    · have hasked := h.asked n howns
      rw [hphase] at hasked
      cases hasked
    · cases htaken.2
  · have hmem := hcustody.registered.mpr (Or.inr ⟨rfl, Bool.eq_false_iff.mpr hstopping⟩)
    rw [ServerFields.registered, (h.fits _ rfl).2] at hmem
    cases hmem

/-- The server is freed. -/
theorem Custody.freeServer (h : Custody s alive phase (some o) (some .freeServer)) :
    Custody s (fun object ↦ alive object ∧ object ≠ .httpServer) phase (o.after none) none := by
  have hended := h.accept_over (h.clients_none (h.fits _ rfl).2)
  cases o with
  | application t =>
    obtain ⟨_, ⟨⟩, ⟨_, ⟨⟩⟩ | ⟨-, hdeleted⟩⟩ := h.application t rfl
    exact
      { h with
        client := by
          intro n
          refine (h.client n).congr (and_iff_left fun h ↦ by cases h)
            (and_iff_left fun h ↦ by cases h) Iff.rfl Iff.rfl Iff.rfl rfl rfl
            (fun howner ↦ by cases howner) ?_
          exact iff_of_false (fun htaken ↦ by cases htaken.2) fun htaken ↦ by cases htaken.2
        alive_server := Or.inr ⟨hended, h.not_attending, rfl, Or.inl hdeleted⟩
        alive_accept := (and_iff_left fun h ↦ by cases h).trans h.alive_accept
        alive_list := (and_iff_left fun h ↦ by cases h).trans h.alive_list
        fits := fun _ hstage ↦ by cases hstage
        pending := by
          intro hpending
          obtain ⟨n, howner⟩ := h.pending hpending
          cases howner
        asked := fun _ howner ↦ by cases howner
        application := fun _ howner ↦ by cases howner
        deleted := fun _ ↦ Or.inl fun hserver ↦ hserver.2 rfl }
  | client n =>
    obtain ⟨hdismissed, hdata⟩ : Dismissed s n ∧ (phase n).hasData = false := by
      have hasked := h.asked n rfl
      generalize phase n = p at hasked ⊢
      cases hasked with
      | deleting _ _ _ hdismissed => exact ⟨hdismissed, rfl⟩
    exact
      { h with
        client := by
          intro m
          refine (h.client m).congr (and_iff_left fun h ↦ by cases h)
            (and_iff_left fun h ↦ by cases h) Iff.rfl Iff.rfl Iff.rfl rfl rfl id ?_
          exact iff_of_false (fun htaken ↦ by cases htaken.2) fun htaken ↦ by cases htaken.2
        alive_server := Or.inr ⟨hended, h.not_attending, rfl, Or.inr hdismissed.deletePending⟩
        alive_accept := (and_iff_left fun h ↦ by cases h).trans h.alive_accept
        alive_list := (and_iff_left fun h ↦ by cases h).trans h.alive_list
        fits := fun _ hstage ↦ by cases hstage
        asked := by
          rintro m ⟨⟩
          exact Asked.released _ hdata hdismissed fun hserver ↦ hserver.2 rfl
        application := fun _ howner ↦ by cases howner
        deleted := fun _ ↦ Or.inl fun hserver ↦ hserver.2 rfl }

end Statements

end Mupnp.Http
