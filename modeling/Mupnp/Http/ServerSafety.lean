import Mupnp.Http.ServerSteps

/-!
# Every object of an HTTP server is freed once

A step is `Exclusive` when it begins to stop or to delete the server only while nobody else does,
and when no client thread but the one whose listener has asked for it finds the deletion of the
server pending in its last section. In a run of exclusive steps no object is used after it was
freed, none is freed twice, and a server that was stopped has no client thread; when the threads
have come to rest, every client thread and its data are freed, and so is a server that was to be
deleted (`freed_once_of_exclusive`). A run cannot end before that (`Sound.exists_step`).
-/

set_option autoImplicit false
set_option relaxedAutoImplicit false

namespace Mupnp.Http

open Foundation MemoryEvent

/-- The next statement of a thread, and not the beginning of a call. -/
def ServerAction.continues : ServerAction → Bool
  | .stop _ | .delete _ => false
  | .application _ | .accept _ | .client _ _ => true

namespace HttpServer

/-- Nobody stops or deletes the server, and no listener has asked for its deletion. -/
def isQuiet (s : HttpServer) : Bool :=
  s.application.allExcept (fun _ ↦ false) Option.isNone &&
    s.clients.allExcept (fun _ ↦ false) (fun point ↦ point.shutdown.isNone) && !s.deletePending

/-- A step that begins to stop or to delete the server does so while nobody else does, and the last
section of a client thread finds the deletion of the server pending only if its own listener has
asked for it. -/
def isExclusive (s : HttpServer) : ServerAction → Bool
  | .stop _ | .delete _ => s.isQuiet
  | .application _ | .accept _ => true
  | .client n _ =>
    match s.client n with
    | .handling (.deletesServer _) => s.isQuiet
    | .finishing => !s.deletePending || (s.clientFlags n).deletePending
    | _ => true

/-- No call is under way, no client thread runs, and the accept thread holds none. -/
structure AtRest (s : HttpServer) : Prop where
  application : ∀ t, s.application.get t = none
  client : ∀ n, s.client n = .idle ∨ s.client n = .ended
  accept : s.acceptPoint.holds = none

/-! ### One step -/

variable {s s' : HttpServer} {owner : Option Owner} {stage : Option ShutdownPoint}

theorem pointOf_of_isQuiet (hquiet : s.isQuiet = true) :
    (∀ o, s.pointOf o = none) ∧ s.deletePending = false := by
  rw [isQuiet, Bool.and_eq_true, Bool.and_eq_true, Bool.not_eq_true'] at hquiet
  obtain ⟨⟨happlication, hclients⟩, hpending⟩ := hquiet
  refine ⟨fun o ↦ ?_, hpending⟩
  cases o with
  | application t =>
    exact Option.isNone_iff_eq_none.mp (ThreadTable.get_of_allExcept happlication rfl rfl)
  | client n =>
    have hclient : (s.clients.get n).shutdown.isNone = true :=
      ThreadTable.get_of_allExcept hclients rfl rfl
    exact Option.isNone_iff_eq_none.mp hclient

theorem Sound.of_isQuiet (h : s.Sound owner stage) (hquiet : s.isQuiet = true) :
    s.Sound none none ∧ s.deletePending = false := by
  obtain ⟨hpoint, hpending⟩ := pointOf_of_isQuiet hquiet
  obtain ⟨rfl, rfl⟩ := h.quiet hpoint hpending
  exact ⟨h, hpending⟩

/-- An exclusive step keeps the custody of the server. -/
theorem sound_of_step {action : ServerAction} (h : ∃ owner stage, s.Sound owner stage)
    (hexclusive : s.isExclusive action = true) (hstep : s.step action = some s') :
    ∃ owner stage, s'.Sound owner stage := by
  obtain ⟨owner, stage, h⟩ := h
  cases action with
  | stop t =>
    obtain ⟨hquiet, hpending⟩ := h.of_isQuiet hexclusive
    rw [step] at hstep
    split_ifs at hstep with hbusy
    obtain rfl := Option.some.inj hstep
    have hcalled : s.deleteCalled = false := by
      rw [Bool.or_eq_true, not_or] at hbusy
      exact Bool.eq_false_iff.mpr hbusy.1
    exact ⟨_, _, hquiet.call hcalled hpending (Or.inl rfl) hcalled t⟩
  | delete t =>
    obtain ⟨hquiet, hpending⟩ := h.of_isQuiet hexclusive
    rw [step] at hstep
    split_ifs at hstep with hbusy
    obtain rfl := Option.some.inj hstep
    have hcalled : s.deleteCalled = false := by
      rw [Bool.or_eq_true, not_or] at hbusy
      exact Bool.eq_false_iff.mpr hbusy.1
    exact ⟨_, _, hquiet.call hcalled hpending (Or.inr rfl) rfl t⟩
  | application t =>
    obtain ⟨point, hpoint, hmap⟩ := Option.bind_eq_some_iff.mp hstep
    obtain ⟨⟨s₁, next⟩, hshutdown, rfl⟩ := Option.map_eq_some_iff.mp hmap
    exact ⟨_, _, h.applicationStep hpoint hshutdown⟩
  | accept success => exact ⟨_, _, h.acceptStep hstep⟩
  | client n request =>
    rw [isExclusive] at hexclusive
    by_cases hasks : ∃ keepAlive, s.client n = .handling (.deletesServer keepAlive)
    · obtain ⟨keepAlive, hclient⟩ := hasks
      rw [hclient] at hexclusive
      obtain ⟨hquiet, -⟩ := h.of_isQuiet hexclusive
      rw [step, hclient] at hstep
      obtain rfl := Option.some.inj hstep
      exact ⟨_, _, hquiet.ask hclient⟩
    · refine h.clientStep (not_exists.mp hasks) (fun hclient hpending ↦ ?_) hstep
      rw [hclient] at hexclusive
      simpa [hpending] using hexclusive

/-! ### Runs -/

theorem sound_init : init.Sound none none where
  recorded :=
    { safe := by decide
      server := by decide
      client := by simp [init]
      clientData := by simp [init] }
  custody :=
    { client := by
        intro n
        exact
          { alive_client := iff_of_false (by simp [init, Alive]) (by rintro (⟨⟨⟩⟩ | ⟨⟨⟩⟩ | ⟨-, ⟨⟩⟩))
            alive_data := iff_of_false (by simp [init, Alive]) (by rintro (⟨⟨⟩⟩ | ⟨⟨⟩⟩))
            registered := iff_of_false List.not_mem_nil (by rintro (⟨⟨⟩⟩ | ⟨⟨⟩, -⟩))
            holds := fun hholds ↦ by cases hholds
            running := iff_of_false (fun hrunning ↦ by cases hrunning) fun hruns ↦ by cases hruns.1
            stopWaiting := fun hruns ↦ by cases hruns
            exiting := fun hexiting ↦ by cases hexiting
            ownerStopping := fun hruns ↦ by cases hruns
            of_taken := fun htaken ↦ by cases htaken.2
            attending := fun hattending ↦ by cases hattending
            leaving := fun _ _ hleaving ↦ by cases hleaving
            detached := fun _ hdetached ↦ by cases hdetached }
      fresh := fun _ _ ↦ ⟨rfl, rfl⟩
      nodup := List.nodup_nil
      alive_server := Or.inl (by decide)
      alive_accept := iff_of_true (by decide) ⟨rfl, rfl⟩
      alive_list := iff_of_true (by decide) ⟨Option.some_ne_none _, rfl⟩
      accept_running := iff_of_true rfl fun hended ↦ by cases hended
      accept_kept := ⟨rfl, fun hdestroying ↦ by cases hdestroying⟩
      accept_over := fun hthread ↦ by cases hthread
      clients_none := fun hnone ↦ by cases hnone
      stopped := fun hstopped ↦ by cases hstopped
      fits := fun _ hstage ↦ by cases hstage
      pending := fun hpending ↦ by cases hpending
      asked := fun _ howner ↦ by cases howner
      application := fun _ howner ↦ by cases howner
      deleted := fun hdeleted ↦ by cases hdeleted }
  placed := by
    intro o
    cases o <;> rfl

/-! ### Rest -/

/-- When the threads have come to rest, nobody stops or deletes the server. -/
theorem Sound.stage_of_atRest (h : s.Sound owner stage) (hrest : s.AtRest) : stage = none := by
  have hpoint : ∀ o, s.pointOf o = none := by
    intro o
    cases o with
    | application t => exact hrest.application t
    | client n =>
      rw [pointOf]
      rcases hrest.client n with hclient | hclient <;> rw [hclient] <;> rfl
  cases owner with
  | none =>
    cases stage with
    | none => rfl
    | some point => exact absurd rfl (h.custody.fits point rfl).1
  | some o => exact h.stage_eq_none (hpoint o) rfl

/-- An object that was allocated and is not alive any more was freed once. -/
theorem Recorded.count_free {trace : List (MemoryEvent ServerObject)} {accepted : ℕ}
    {object : ServerObject} (h : Recorded trace accepted) (halloc : .alloc object ∈ trace)
    (hfreed : ¬ Alive trace object) : trace.count (.free object) = 1 := by
  have hmem : .free object ∈ trace := by
    by_contra hnot
    exact hfreed ⟨halloc, hnot⟩
  have hpos : 0 < trace.count (.free object) := List.count_pos_iff.mpr hmem
  have hle := h.safe.count_free_le_one object
  omega

/-- When the threads have come to rest, every client thread and its data are freed. -/
theorem Sound.clients_freed (h : s.Sound owner stage) (hrest : s.AtRest) {n : ℕ}
    (hn : n < s.accepted) :
    s.trace.count (.free (.client n)) = 1 ∧ s.trace.count (.free (.clientData n)) = 1 := by
  have hstage := h.stage_of_atRest hrest
  subst hstage
  have hcustody := h.custody.client n
  have hholds : s.acceptPoint.holds ≠ some n := by
    rw [hrest.accept]
    exact (Option.some_ne_none n).symm
  have hphase : (s.phase n).runs = false ∧ (s.phase n).hasData = false := by
    rw [phase]
    rcases hrest.client n with hclient | hclient <;> rw [hclient] <;> exact ⟨rfl, rfl⟩
  constructor
  · refine Recorded.count_free h.recorded ((h.recorded.client n).mpr hn) ?_
    rw [hcustody.alive_client, hphase.1]
    rintro (hheld | ⟨⟨⟩⟩ | ⟨-, ⟨⟩⟩)
    exact hholds hheld
  · refine Recorded.count_free h.recorded ((h.recorded.clientData n).mpr hn) ?_
    rw [hcustody.alive_data, hphase.2]
    rintro (hheld | ⟨⟨⟩⟩)
    exact hholds hheld

/-- When the threads have come to rest, a server that was to be deleted is freed. -/
theorem Sound.server_freed (h : s.Sound owner stage) (hrest : s.AtRest)
    (hdelete : s.deleteCalled = true ∨ s.deletePending = true) :
    s.trace.count (.free .httpServer) = 1 := by
  have hstage := h.stage_of_atRest hrest
  subst hstage
  refine Recorded.count_free h.recorded h.recorded.server ?_
  rcases hdelete with hcalled | hpending
  · rcases h.custody.deleted hcalled with hfreed | ⟨_, _, _, ⟨⟩, _⟩
    exact hfreed
  · obtain ⟨n, howner⟩ := h.custody.pending hpending
    have hasked := h.custody.asked n howner
    have hphase : s.phase n = .idle ∨ s.phase n = .ended := by
      rw [phase]
      rcases hrest.client n with hclient | hclient <;> rw [hclient]
      · exact Or.inl rfl
      · exact Or.inr rfl
    generalize s.phase n = p at hasked hphase
    cases hasked with
    | dismissed => exact hphase.elim (fun hidle ↦ by cases hidle) fun hended ↦ by cases hended
    | leaving => exact hphase.elim (fun hidle ↦ by cases hidle) fun hended ↦ by cases hended
    | released _ _ _ hfreed => exact hfreed

/-! ### Progress -/

/-- A thread that cannot take the next statement of its call waits for the accept thread or for a
client thread that it has taken from the list. -/
theorem waits_of_shutdownStep {self : Option ℕ} {point : ShutdownPoint}
    (hstep : s.shutdownStep self point = none) :
    s.acceptFlags.isRunning = true ∨ ∃ call n clearing,
      point = .stop call (.joinClient n clearing) ∧ (s.clientFlags n).isRunning = true := by
  cases point with
  | search =>
    rw [shutdownStep] at hstep
    split_ifs at hstep
  | unlink | freeServer => cases hstep
  | stop call stage =>
    rw [shutdownStep] at hstep
    cases stage with
    | awaitAccept =>
      rw [stopStep] at hstep
      split_ifs at hstep with hrunning
      exact Or.inl hrunning
    | deleteAccept =>
      rw [stopStep] at hstep
      split_ifs at hstep with _ hrunning
      exact Or.inl hrunning
    | joinClient n clearing =>
      rw [stopStep] at hstep
      split_ifs at hstep with hrunning
      exact Or.inr ⟨call, n, clearing, rfl, hrunning⟩
    | testAccept | clearAccept | clearList => cases hstep
    | stopAccept | testClients | deleteClient =>
      rw [stopStep] at hstep
      split_ifs at hstep
    | takeClient | deleteList =>
      rw [stopStep] at hstep
      split at hstep <;> cases hstep

theorem isSome_acceptStep (hpoint : s.acceptPoint ≠ .ended) :
    (s.acceptStep true s.acceptPoint).isSome = true := by
  cases hcases : s.acceptPoint with
  | ended => exact absurd hcases hpoint
  | opening | testing | accepting | adding | starting | removing | discarding | exiting
  | destroying => rfl

theorem isSome_clientStep {n : ℕ} {point : ClientPoint} (hshutdown : point.shutdown = none)
    (hidle : point ≠ .idle) (hended : point ≠ .ended) :
    (s.clientStep n .unreadable point).isSome = true := by
  cases point with
  | idle => exact absurd rfl hidle
  | ended => exact absurd rfl hended
  | shuttingDown call point => cases hshutdown
  | handling request => cases request <;> rfl
  | ending ownerStopping => cases ownerStopping <;> rfl
  | beginning | serving | listening | finishing | leaving | exiting | destroying => rfl

theorem exists_of_shutdown {point : ClientPoint} {next : ShutdownPoint}
    (h : point.shutdown = some next) : ∃ call, point = .shuttingDown call next := by
  cases point with
  | shuttingDown call point =>
    obtain rfl := Option.some.inj h
    exact ⟨call, rfl⟩
  | idle | beginning | serving | handling | listening | finishing | leaving | ending | exiting
  | destroying | ended => cases h

/-- The owner does not wait for itself. -/
theorem Sound.owner_ne_of_joinClient {o : Owner} {call : StopCall} {n : ℕ} {clearing : Bool}
    (h : s.Sound (some o) (some (.stop call (.joinClient n clearing)))) : o ≠ .client n := by
  rintro rfl
  obtain ⟨-, -, -, hsome, -⟩ := h.custody.fits _ rfl
  have hasked := h.custody.asked n rfl
  generalize s.phase n = p at hasked
  cases hasked with
  | stopping _ hjoin _ _ => exact hjoin clearing rfl
  | deleting _ _ _ hdismissed => exact hsome hdismissed.clientThreads

/-- As long as the threads have not come to rest, some thread can take its next statement. -/
theorem Sound.exists_step (h : s.Sound owner stage) (hrest : ¬ s.AtRest) :
    ∃ action, action.continues = true ∧ (s.step action).isSome = true := by
  by_cases hended : s.acceptPoint = .ended
  swap
  · exact ⟨.accept true, rfl, isSome_acceptStep hended⟩
  have hclient : ∀ n, (s.client n).shutdown = none → s.client n ≠ .idle → s.client n ≠ .ended →
      ∃ action, action.continues = true ∧ (s.step action).isSome = true :=
    fun n hshutdown hidle hend ↦
      ⟨.client n .unreadable, rfl, isSome_clientStep hshutdown hidle hend⟩
  cases stage with
  | none =>
    by_contra hstuck
    have hpoint : ∀ o, s.pointOf o = none := fun o ↦ (h.placed o).trans (ite_self none)
    refine hrest ⟨fun t ↦ hpoint (.application t), fun n ↦ ?_, ?_⟩
    · by_contra hruns
      rw [not_or] at hruns
      exact hstuck (hclient n (hpoint (.client n)) hruns.1 hruns.2)
    · rw [hended]
      rfl
  | some point =>
    obtain ⟨o, rfl⟩ := Option.ne_none_iff_exists'.mp (h.custody.fits point rfl).1
    have hpoint : s.pointOf o = some point := (h.placed o).trans (if_pos rfl)
    cases hstep : s.shutdownStep o.self point with
    | some next =>
      have hsome : (s.shutdownStep o.self point).isSome = true := by
        rw [hstep]
        rfl
      cases o with
      | application t =>
        refine ⟨.application t, rfl, ?_⟩
        change s.application.get t = some point at hpoint
        rw [step, hpoint, Option.bind_some, Option.isSome_map]
        exact hsome
      | client n =>
        obtain ⟨call, hcalls⟩ := exists_of_shutdown hpoint
        refine ⟨.client n .unreadable, rfl, ?_⟩
        rw [step, hcalls, HttpServer.clientStep, Option.isSome_map]
        exact hsome
    | none =>
      rcases waits_of_shutdownStep hstep with hrunning | ⟨call, n, clearing, rfl, hrunning⟩
      · exact absurd hended (h.custody.accept_running.mp hrunning)
      · have hother := h.owner_ne_of_joinClient
        have hfree : (s.client n).shutdown = none :=
          (h.placed (.client n)).trans (if_neg fun heq ↦ hother (Option.some.inj heq))
        obtain ⟨hruns, -⟩ := (h.custody.client n).running.mp hrunning
        refine hclient n hfree (fun hidle ↦ ?_) fun hend ↦ ?_
        · rw [phase, hidle] at hruns
          cases hruns
        · rw [phase, hend] at hruns
          cases hruns

/-! ### Every run -/

/-- In every run of exclusive steps no object is used after it was freed, none is freed twice, and a
server that was stopped has no client thread. As long as the threads have not come to rest, one of
them can go on; when they have, every client thread and its data are freed once, and so is a server
whose deletion was asked for. -/
theorem freed_once_of_exclusive (actions : List ServerAction) (s : HttpServer)
    (hexclusive : serverLifecycle.AllSteps (fun s action ↦ s.isExclusive action) init actions)
    (hrun : serverLifecycle.run init actions = some s) :
    Safe s.trace ∧ (∀ object, s.trace.count (.free object) ≤ 1) ∧
      (s.stopCompleted = true → s.registered = []) ∧
      (¬ s.AtRest → ∃ action, action.continues = true ∧ (s.step action).isSome = true) ∧
      (s.AtRest →
        (∀ n < s.accepted, s.trace.count (.free (.client n)) = 1 ∧
          s.trace.count (.free (.clientData n)) = 1) ∧
        (s.deleteCalled = true ∨ s.deletePending = true →
          s.trace.count (.free .httpServer) = 1)) := by
  obtain ⟨owner, stage, hsound⟩ : ∃ owner stage, s.Sound owner stage :=
    TransitionSystem.invariant_of_run_of_allSteps (I := fun s ↦ ∃ owner stage, s.Sound owner stage)
      (fun _ _ _ h hok hstep ↦ sound_of_step h hok hstep) hexclusive ⟨none, none, sound_init⟩ hrun
  refine ⟨hsound.recorded.safe, hsound.recorded.safe.count_free_le_one, fun hstopped ↦ ?_,
    hsound.exists_step, fun hrest ↦ ⟨fun _ ↦ hsound.clients_freed hrest, hsound.server_freed hrest⟩⟩
  rw [ServerFields.registered, hsound.custody.stopped hstopped]
  rfl

/-- Two connections are accepted. The second one is closed by its client, and on the request of the
first one the listener deletes the server. -/
def servedConnections : List ServerAction :=
  List.replicate 9 (.accept true) ++ List.replicate 7 (.client 1 .unreadable) ++
    [.client 0 .unreadable, .client 0 (.deletesServer false)] ++
    List.replicate 5 (.client 0 .unreadable) ++ List.replicate 2 (.accept true) ++
    List.replicate 21 (.client 0 .unreadable)

theorem freed_once_of_exclusive_servedConnections :
    ∃ s, serverLifecycle.run init servedConnections = some s ∧ s.accepted = 2 ∧
      .free .httpServer ∈ s.trace ∧
      Safe s.trace ∧ (∀ object, s.trace.count (.free object) ≤ 1) ∧
      (s.stopCompleted = true → s.registered = []) ∧
      (¬ s.AtRest → ∃ action, action.continues = true ∧ (s.step action).isSome = true) ∧
      (s.AtRest →
        (∀ n < s.accepted, s.trace.count (.free (.client n)) = 1 ∧
          s.trace.count (.free (.clientData n)) = 1) ∧
        (s.deleteCalled = true ∨ s.deletePending = true →
          s.trace.count (.free .httpServer) = 1)) :=
  ⟨_, rfl, rfl, by decide, freed_once_of_exclusive servedConnections _ (by decide) rfl⟩

/-- On the request of the first of two connections the listener deletes the server, and the thread
of the second one, which its client closes meanwhile, finds the deletion pending. -/
def closedMeanwhile : List ServerAction :=
  List.replicate 9 (.accept true) ++
    [.client 0 .unreadable, .client 1 .unreadable, .client 0 (.deletesServer false)] ++
    List.replicate 2 (.client 0 .unreadable) ++ List.replicate 3 (.client 1 .unreadable) ++
    List.replicate 3 (.client 0 .unreadable) ++ List.replicate 2 (.accept true) ++
    List.replicate 20 (.client 0 .unreadable)

/-- Both client threads delete the server. The first one frees it, and the second one locks its
mutex after that. -/
theorem not_freed_once :
    ¬ ∀ (actions : List ServerAction) (s : HttpServer),
      serverLifecycle.run init actions = some s → Safe s.trace := by
  intro hclaim
  obtain ⟨s, hrun, hunsafe⟩ : ∃ s, serverLifecycle.run init
      (closedMeanwhile ++ [.client 1 .unreadable]) = some s ∧ ¬ Safe s.trace :=
    ⟨_, rfl, by decide⟩
  exact hunsafe (hclaim _ s hrun)

end HttpServer

end Mupnp.Http
