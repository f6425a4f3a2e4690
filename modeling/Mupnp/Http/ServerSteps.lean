import Mupnp.Http.ServerThreads

/-!
# The steps of an HTTP server keep its custody

Every statement of a thread uses only objects that are not freed, and keeps the custody of the
server: `shutdownStep_custody` for a thread that stops or deletes the server, `Sound.acceptStep` for
the accept thread, `Sound.clientStep` for a client thread, and `Sound.applicationStep` for a thread
of the application. `Sound.ask` and `Sound.call` are the beginning of a call.
-/

set_option autoImplicit false
set_option relaxedAutoImplicit false

namespace Mupnp.Http

open Foundation MemoryEvent HttpServer

/-! ### The trace -/

/-- The trace is safe, and what it says was allocated is what the server counts. -/
structure Recorded (trace : List (MemoryEvent ServerObject)) (accepted : ℕ) : Prop where
  safe : Safe trace
  server : .alloc .httpServer ∈ trace
  client : ∀ n, .alloc (.client n) ∈ trace ↔ n < accepted
  clientData : ∀ n, .alloc (.clientData n) ∈ trace ↔ n < accepted

section Trace

variable {trace : List (MemoryEvent ServerObject)} {accepted : ℕ} {objects : List ServerObject}
  {fields : ServerFields} {phase : ℕ → ClientPhase} {owner : Option Owner}
  {stage : Option ShutdownPoint}

theorem Recorded.use (h : Recorded trace accepted)
    (halive : ∀ object ∈ objects, Alive trace object) :
    Recorded (objects.map .use ++ trace) accepted where
  safe := h.safe.map_use_append halive
  server := List.mem_append_right _ h.server
  client := by simpa using h.client
  clientData := by simpa using h.clientData

theorem Recorded.free {object : ServerObject} (h : Recorded trace accepted)
    (halive : Alive trace object) : Recorded (.free object :: trace) accepted where
  safe := ⟨halive, h.safe⟩
  server := List.mem_cons_of_mem _ h.server
  client := by simpa using h.client
  clientData := by simpa using h.clientData

/-- A client thread and its data are allocated. -/
theorem Recorded.accept (h : Recorded trace accepted) (hserver : Alive trace .httpServer) :
    Recorded ([.alloc (.client accepted), .alloc (.clientData accepted), .use .httpServer] ++ trace)
      (accepted + 1) ∧ ∀ object,
        Alive
          ([.alloc (.client accepted), .alloc (.clientData accepted), .use .httpServer] ++ trace)
          object ↔ (Alive trace object ∨ object = .clientData accepted) ∨
            object = .client accepted := by
  have hclient : .alloc (.client accepted) ∉ trace := fun hmem ↦
    absurd ((h.client accepted).mp hmem) (Nat.lt_irrefl accepted)
  have hdata : .alloc (.clientData accepted) ∉ trace := fun hmem ↦
    absurd ((h.clientData accepted).mp hmem) (Nat.lt_irrefl accepted)
  have hused : Safe (.use .httpServer :: trace) := ⟨hserver, h.safe⟩
  have hsecond : .alloc (.clientData accepted) ∉ MemoryEvent.use .httpServer :: trace := by
    simpa using hdata
  have hfirst : .alloc (.client accepted) ∉
      MemoryEvent.alloc (.clientData accepted) :: .use .httpServer :: trace := by
    simpa using hclient
  have hlt : ∀ n, n < accepted + 1 ↔ n = accepted ∨ n < accepted := fun n ↦ by omega
  refine ⟨⟨(hused.alloc hsecond).alloc hfirst, ?_, fun n ↦ ?_, fun n ↦ ?_⟩, fun object ↦ ?_⟩
  · exact List.mem_append_right _ h.server
  · rw [hlt, ← h.client n]
    simp
  · rw [hlt, ← h.clientData n]
    simp
  · change Alive (_ :: _ :: _ :: trace) object ↔ _
    rw [(hused.alloc hsecond).alive_alloc hfirst, hused.alive_alloc hsecond, alive_use]

theorem Custody.use (h : Custody fields (Alive trace) phase owner stage) :
    Custody fields (Alive (objects.map .use ++ trace)) phase owner stage := by
  have halive : Alive (objects.map .use ++ trace) = Alive trace :=
    funext fun _ ↦ propext alive_map_use_append
  rwa [halive]

theorem Custody.free {object : ServerObject}
    (h : Custody fields (fun other ↦ Alive trace other ∧ other ≠ object) phase owner stage) :
    Custody fields (Alive (.free object :: trace)) phase owner stage := by
  have halive : Alive (.free object :: trace) = fun other ↦ Alive trace other ∧ other ≠ object :=
    funext fun _ ↦ propext alive_free
  rwa [halive]

end Trace

/-! ### What a statement reads -/

section Reads

variable {s : HttpServer} {phase : ℕ → ClientPhase} {owner : Option Owner}
  {stage : Option ShutdownPoint}

theorem mem_of_mem_searched {self : Option ℕ} {list : List ℕ} {n : ℕ} (h : n ∈ searched self list) :
    n ∈ list := by
  induction list with
  | nil => exact h
  | cons other rest ih =>
    rw [searched] at h
    split_ifs at h
    · rw [List.mem_singleton.mp h]
      exact List.mem_cons_self
    · rcases List.mem_cons.mp h with rfl | h
      · exact List.mem_cons_self
      · exact List.mem_cons_of_mem _ (ih h)

/-- A client thread that runs is not freed. -/
theorem Custody.client_of_runs (h : Custody s.toServerFields (Alive s.trace) phase owner stage)
    {n : ℕ} (hruns : (phase n).runs = true) : Alive s.trace (.client n) :=
  (h.client n).alive_client.mpr (Or.inr (Or.inl hruns))

/-- The data of a client thread is not freed before it leaves. -/
theorem Custody.data_of_hasData (h : Custody s.toServerFields (Alive s.trace) phase owner stage)
    {n : ℕ} (hdata : (phase n).hasData = true) : Alive s.trace (.clientData n) :=
  (h.client n).alive_data.mpr (Or.inr hdata)

/-- An element of the list, or its header. -/
theorem Custody.alive_elim
    (h : Custody s.toServerFields (Alive s.trace) phase owner stage)
    (hlist : Alive s.trace .clientThreads) {element : Option ℕ}
    (helement : ∀ n, element = some n → n ∈ s.registered) :
    Alive s.trace (element.elim .clientThreads .client) := by
  cases element with
  | none => exact hlist
  | some n => exact h.client_of_registered (helement n rfl)

/-- The neighbours of a client thread are not freed. -/
theorem Custody.alive_neighbours
    (h : Custody s.toServerFields (Alive s.trace) phase owner stage) (n : ℕ) :
    ∀ object ∈ s.neighbours n, Alive s.trace object := by
  unfold neighbours
  split
  · exact fun _ hmem ↦ absurd hmem List.not_mem_nil
  · rename_i list hthreads
    have hregistered : s.registered = list := by
      rw [ServerFields.registered, hthreads]
      rfl
    split_ifs with hmem
    · have hlist := h.list_of_registered (hregistered.symm ▸ hmem)
      rw [List.forall_mem_cons, List.forall_mem_singleton]
      constructor
      · refine h.alive_elim hlist fun m hlast ↦ ?_
        rw [hregistered]
        exact (List.takeWhile_subset _) (List.mem_of_getLast? hlast)
      · refine h.alive_elim hlist fun m hhead ↦ ?_
        rw [hregistered]
        have htail := List.mem_of_mem_tail (List.mem_of_head? hhead)
        exact (List.dropWhile_sublist _).subset htail
    · exact fun _ hmem ↦ absurd hmem List.not_mem_nil

/-- What the search in `mupnp_http_server_delete` reads is not freed. -/
theorem Custody.alive_searchedObjects
    (h : Custody s.toServerFields (Alive s.trace) phase owner (some .search)) (self : Option ℕ) :
    ∀ object ∈ s.searchedObjects self, Alive s.trace object := by
  unfold searchedObjects
  split
  · exact fun _ hmem ↦ absurd hmem List.not_mem_nil
  · rename_i list hthreads
    rw [List.forall_mem_cons, List.forall_mem_map]
    refine ⟨h.alive_list.mpr ⟨?_, rfl⟩, fun n hsearched ↦ h.client_of_registered ?_⟩
    · rw [hthreads]
      exact Option.some_ne_none _
    · rw [ServerFields.registered, hthreads]
      exact mem_of_mem_searched hsearched

end Reads

/-! ### Stopping and deleting -/

section Shutdown

variable {s s' : HttpServer} {phase : ℕ → ClientPhase} {o : Owner} {next : Option ShutdownPoint}

/-- What a statement of the owner keeps. -/
structure Keeps (s s' : HttpServer) (phase : ℕ → ClientPhase) (o : Owner)
    (next : Option ShutdownPoint) : Prop where
  recorded : Recorded s'.trace s'.accepted
  custody : Custody s'.toServerFields (Alive s'.trace) phase (o.after next) next
  clients : s'.clients = s.clients
  application : s'.application = s.application

theorem Owner.eq_client {n : ℕ} (h : o.self = some n) : o = .client n := by
  cases o with
  | application t => cases h
  | client m =>
    cases h
    rfl

theorem Owner.after_some (o : Owner) (point : ShutdownPoint) : o.after (some point) = some o := by
  cases o <;> rfl

/-- The uses and the free of an object that is not freed. -/
theorem Recorded.use_free {trace : List (MemoryEvent ServerObject)} {accepted : ℕ}
    {objects : List ServerObject} {object : ServerObject} (h : Recorded trace accepted)
    (halive : ∀ other ∈ objects, Alive trace other) (hmem : object ∈ objects) :
    Recorded (.free object :: (objects.map .use ++ trace)) accepted :=
  (h.use halive).free (alive_map_use_append.mpr (halive object hmem))

theorem Custody.use_free {trace : List (MemoryEvent ServerObject)} {objects : List ServerObject}
    {fields : ServerFields} {owner : Option Owner} {stage : Option ShutdownPoint}
    {object : ServerObject}
    (h : Custody fields (fun other ↦ Alive trace other ∧ other ≠ object) phase owner stage) :
    Custody fields (Alive (.free object :: (objects.map .use ++ trace))) phase owner stage := by
  refine Custody.free ?_
  have halive : Alive (objects.map .use ++ trace) = Alive trace :=
    funext fun _ ↦ propext alive_map_use_append
  rwa [halive]

/-- The owner goes on after it has used objects that are not freed. -/
theorem Keeps.goOn {point : ShutdownPoint} {objects : List ServerObject}
    (hrecorded : Recorded s.trace s.accepted) (hreads : ∀ object ∈ objects, Alive s.trace object)
    (hcustody : Custody s'.toServerFields (Alive s.trace) phase (some o) (some point))
    (htrace : s'.trace = objects.map .use ++ s.trace) (haccepted : s'.accepted = s.accepted)
    (hclients : s'.clients = s.clients) (happlication : s'.application = s.application) :
    Keeps s s' phase o (some point) := by
  refine ⟨?_, ?_, hclients, happlication⟩
  · rw [htrace, haccepted]
    exact hrecorded.use hreads
  · rw [htrace, Owner.after_some]
    exact hcustody.use

/-- The owner goes on after it has used objects and freed one of them. -/
theorem Keeps.goOn_free {point : ShutdownPoint} {objects : List ServerObject}
    {object : ServerObject} (hrecorded : Recorded s.trace s.accepted)
    (hreads : ∀ other ∈ objects, Alive s.trace other) (hmem : object ∈ objects)
    (hcustody : Custody s'.toServerFields (fun other ↦ Alive s.trace other ∧ other ≠ object) phase
      (some o) (some point))
    (htrace : s'.trace = .free object :: (objects.map .use ++ s.trace))
    (haccepted : s'.accepted = s.accepted) (hclients : s'.clients = s.clients)
    (happlication : s'.application = s.application) : Keeps s s' phase o (some point) := by
  refine ⟨?_, ?_, hclients, happlication⟩
  · rw [htrace, haccepted]
    exact hrecorded.use_free hreads hmem
  · rw [htrace, Owner.after_some]
    exact hcustody.use_free

theorem stopStep_custody {call : StopCall} {stage : StopStage}
    (hrecorded : Recorded s.trace s.accepted)
    (h : Custody s.toServerFields (Alive s.trace) phase (some o) (some (.stop call stage)))
    (hstep : s.stopStep o.self call stage = some (s', next)) : Keeps s s' phase o next := by
  have hserver : Alive s.trace .httpServer := h.server_of_stage
  have hreads : ∀ object ∈ [ServerObject.httpServer], Alive s.trace object := by
    simpa using hserver
  cases stage with
  | testAccept =>
    obtain ⟨rfl, rfl⟩ := Prod.mk.inj (Option.some.inj hstep)
    exact Keeps.goOn hrecorded hreads h.testAccept rfl rfl rfl rfl
  | stopAccept =>
    have hthread : s.acceptThread = true := (h.fits _ rfl).2.2
    rw [stopStep, if_pos hthread] at hstep
    obtain ⟨rfl, rfl⟩ := Prod.mk.inj (Option.some.inj hstep)
    have haccept : Alive s.trace .acceptThread := h.alive_accept.mpr ⟨hthread, rfl⟩
    refine Keeps.goOn hrecorded ?_ h.stopAccept rfl rfl rfl rfl
    rw [List.forall_mem_cons, List.forall_mem_singleton]
    exact ⟨hserver, haccept⟩
  | awaitAccept =>
    rw [stopStep] at hstep
    split_ifs at hstep with hrunning
    obtain ⟨rfl, rfl⟩ := Prod.mk.inj (Option.some.inj hstep)
    have haccept : Alive s.trace .acceptThread := h.alive_accept.mpr ⟨(h.fits _ rfl).2.2, rfl⟩
    have hreads : ∀ object ∈ [ServerObject.acceptThread], Alive s.trace object := by
      simpa using haccept
    exact Keeps.goOn hrecorded hreads (h.awaitAccept (Bool.eq_false_iff.mpr hrunning)) rfl rfl rfl
      rfl
  | deleteAccept =>
    have hthread : s.acceptThread = true := (h.fits _ rfl).2.2.1
    rw [stopStep, if_pos hthread] at hstep
    split_ifs at hstep with hrunning
    obtain ⟨rfl, rfl⟩ := Prod.mk.inj (Option.some.inj hstep)
    have haccept : Alive s.trace .acceptThread := h.alive_accept.mpr ⟨hthread, rfl⟩
    refine Keeps.goOn_free hrecorded ?_ (List.mem_cons_of_mem _ List.mem_cons_self) h.deleteAccept
      rfl rfl rfl rfl
    rw [List.forall_mem_cons, List.forall_mem_singleton]
    exact ⟨hserver, haccept⟩
  | clearAccept =>
    obtain ⟨rfl, rfl⟩ := Prod.mk.inj (Option.some.inj hstep)
    exact Keeps.goOn hrecorded hreads h.clearAccept rfl rfl rfl rfl
  | testClients =>
    rw [stopStep] at hstep
    split_ifs at hstep with hthreads
    · obtain ⟨rfl, rfl⟩ := Prod.mk.inj (Option.some.inj hstep)
      have hnext := (h.fits _ rfl).2.2
      refine Keeps.goOn hrecorded hreads
        (h.stopOn (fun _ _ hstage ↦ by cases hstage) rfl rfl rfl ⟨hnext, fun hnone ↦ ?_⟩) rfl rfl rfl
        rfl
      rw [hnone] at hthreads
      cases hthreads
    · obtain ⟨rfl, rfl⟩ := Prod.mk.inj (Option.some.inj hstep)
      rw [Option.not_isSome_iff_eq_none] at hthreads
      exact ⟨hrecorded.use hreads, (h.return hthreads).use, rfl, rfl⟩
  | takeClient =>
    obtain ⟨-, -, hover, hsome⟩ := h.fits _ rfl
    have hlist : Alive s.trace .clientThreads := h.alive_list.mpr ⟨hsome, rfl⟩
    rw [stopStep] at hstep
    split at hstep
    · rename_i hthreads
      exact absurd hthreads hsome
    · rename_i hthreads
      obtain ⟨rfl, rfl⟩ := Prod.mk.inj (Option.some.inj hstep)
      refine Keeps.goOn hrecorded ?_
        (h.stopOn (fun _ _ hstage ↦ by cases hstage) rfl rfl rfl ⟨hover, hthreads⟩) rfl rfl rfl rfl
      rw [List.forall_mem_cons, List.forall_mem_singleton]
      exact ⟨hserver, hlist⟩
    · rename_i n rest hthreads
      obtain ⟨rfl, rfl⟩ := Prod.mk.inj (Option.some.inj hstep)
      have hmem : n ∈ s.registered := by
        rw [ServerFields.registered, hthreads]
        exact List.mem_cons_self
      obtain ⟨hphase, -⟩ := h.attending_of_registered hover hmem
      have hdata : Alive s.trace (.clientData n) :=
        h.data_of_hasData (congrArg ClientPhase.hasData hphase)
      refine ⟨(hrecorded.use ?_).use ?_, ?_, rfl, rfl⟩
      · rw [List.forall_mem_cons, List.forall_mem_cons, List.forall_mem_singleton]
        exact ⟨hserver, hlist, hdata⟩
      · intro object hobject
        rw [alive_map_use_append]
        rcases List.mem_cons.mp hobject with rfl | hobject
        · exact h.client_of_registered hmem
        · exact h.alive_neighbours n object hobject
      · rw [Owner.after_some]
        have herase : s.clientThreads.map (·.erase n) = some rest := by
          rw [hthreads, Option.map_some, List.erase_cons_head]
        have hnext := h.takeClient hthreads
        rw [← herase] at hnext
        exact hnext.use.use
  | deleteClient n clearing =>
    obtain ⟨-, -, -, -, rfl⟩ := h.fits _ rfl
    have hclient : ∀ object ∈ [ServerObject.client n], Alive s.trace object := by
      simpa using h.client_of_deleteClient
    rw [stopStep] at hstep
    split_ifs at hstep with hself
    · obtain ⟨rfl, rfl⟩ := Prod.mk.inj (Option.some.inj hstep)
      obtain rfl := Owner.eq_client hself
      exact ⟨hrecorded.use hclient, h.deleteSelf.use, rfl, rfl⟩
    · obtain ⟨rfl, rfl⟩ := Prod.mk.inj (Option.some.inj hstep)
      refine Keeps.goOn hrecorded hclient (h.deleteOther ?_) rfl rfl rfl rfl
      rintro rfl
      exact hself rfl
  | joinClient n clearing =>
    obtain ⟨-, -, -, -, rfl⟩ := h.fits _ rfl
    rw [stopStep] at hstep
    split_ifs at hstep with hrunning
    obtain ⟨rfl, rfl⟩ := Prod.mk.inj (Option.some.inj hstep)
    obtain ⟨halive, hnext⟩ := h.joinClient (Bool.eq_false_iff.mpr hrunning)
    have hreads : ∀ object ∈ [ServerObject.client n], Alive s.trace object := by
      simpa using halive
    exact Keeps.goOn_free hrecorded hreads List.mem_cons_self hnext rfl rfl rfl rfl
  | deleteList =>
    obtain ⟨-, -, -, hempty⟩ := h.fits _ rfl
    rw [stopStep, hempty] at hstep
    obtain ⟨rfl, rfl⟩ := Prod.mk.inj (Option.some.inj hstep)
    have hlist : Alive s.trace .clientThreads := by
      refine h.alive_list.mpr ⟨?_, rfl⟩
      rw [hempty]
      exact Option.some_ne_none _
    refine Keeps.goOn_free hrecorded ?_ (List.mem_cons_of_mem _ List.mem_cons_self) h.deleteList
      rfl rfl rfl rfl
    rw [List.forall_mem_cons, List.forall_mem_singleton]
    exact ⟨hserver, hlist⟩
  | clearList =>
    obtain ⟨rfl, rfl⟩ := Prod.mk.inj (Option.some.inj hstep)
    exact ⟨hrecorded.use hreads, (h.clearList.return rfl).use, rfl, rfl⟩

theorem shutdownStep_custody {point : ShutdownPoint} (hrecorded : Recorded s.trace s.accepted)
    (h : Custody s.toServerFields (Alive s.trace) phase (some o) (some point))
    (hstep : s.shutdownStep o.self point = some (s', next)) : Keeps s s' phase o next := by
  have hserver : Alive s.trace .httpServer := h.server_of_stage
  have hreads : ∀ object ∈ [ServerObject.httpServer], Alive s.trace object := by
    simpa using hserver
  cases point with
  | search =>
    have hsearched : ∀ object ∈ .httpServer :: s.searchedObjects o.self,
        Alive s.trace object := by
      rw [List.forall_mem_cons]
      exact ⟨hserver, h.alive_searchedObjects o.self⟩
    rw [shutdownStep] at hstep
    split_ifs at hstep with hfound
    · obtain ⟨rfl, rfl⟩ := Prod.mk.inj (Option.some.inj hstep)
      obtain ⟨n, hmem, hself⟩ := hfound
      obtain rfl := Owner.eq_client hself.symm
      exact ⟨hrecorded.use hsearched, (h.search_of_mem hmem).use, rfl, rfl⟩
    · obtain ⟨rfl, rfl⟩ := Prod.mk.inj (Option.some.inj hstep)
      exact Keeps.goOn hrecorded hsearched (h.search_of_not_mem hfound) rfl rfl rfl rfl
  | unlink =>
    obtain ⟨rfl, rfl⟩ := Prod.mk.inj (Option.some.inj hstep)
    exact Keeps.goOn hrecorded hreads h.unlink rfl rfl rfl rfl
  | stop call stage => exact stopStep_custody hrecorded h hstep
  | freeServer =>
    obtain ⟨rfl, rfl⟩ := Prod.mk.inj (Option.some.inj hstep)
    exact ⟨hrecorded.use_free hreads List.mem_cons_self, h.freeServer.use_free, rfl, rfl⟩

end Shutdown

/-! ### Where the threads stand -/

/-- The call of `mupnp_http_server_stop` or `mupnp_http_server_delete` that a client thread is in.
-/
def ClientPoint.shutdown : ClientPoint → Option ShutdownPoint
  | .shuttingDown _ point => some point
  | _ => none

namespace HttpServer

/-- The call that somebody is in. -/
def pointOf (s : HttpServer) : Owner → Option ShutdownPoint
  | .application t => s.application.get t
  | .client n => (s.client n).shutdown

def phase (s : HttpServer) (n : ℕ) : ClientPhase := (s.client n).phase

theorem phase_goTo (s : HttpServer) (n : ℕ) (point : ClientPoint) :
    (s.goTo n point).phase = Function.update s.phase n point.phase := by
  funext m
  by_cases hm : m = n
  · rw [hm, Function.update_self, phase, client, goTo, ThreadTable.get_set_self]
  · rw [Function.update_of_ne hm, phase, client, goTo, ThreadTable.get_set_of_ne hm]
    rfl

theorem pointOf_goTo_self (s : HttpServer) (n : ℕ) (point : ClientPoint) :
    (s.goTo n point).pointOf (.client n) = point.shutdown := by
  rw [pointOf, client, goTo, ThreadTable.get_set_self]

theorem pointOf_goTo_of_ne {s : HttpServer} {n : ℕ} {o : Owner} (hne : o ≠ .client n)
    (point : ClientPoint) : (s.goTo n point).pointOf o = s.pointOf o := by
  cases o with
  | application t => rfl
  | client m =>
    have hm : m ≠ n := fun hm ↦ hne (congrArg Owner.client hm)
    rw [pointOf, client, goTo, ThreadTable.get_set_of_ne hm]
    rfl

/-- The server with its threads: its custody is kept, and nobody but the owner stops or deletes
it. -/
structure Sound (s : HttpServer) (owner : Option Owner) (stage : Option ShutdownPoint) :
    Prop where
  recorded : Recorded s.trace s.accepted
  custody : Custody s.toServerFields (Alive s.trace) s.phase owner stage
  placed : ∀ o, s.pointOf o = if owner = some o then stage else none

variable {s s' : HttpServer} {owner : Option Owner} {stage : Option ShutdownPoint}

theorem Sound.of_pointOf {o : Owner} {point : ShutdownPoint} (h : s.Sound owner stage)
    (hpoint : s.pointOf o = some point) : owner = some o ∧ stage = some point := by
  have hplaced := h.placed o
  split_ifs at hplaced with howner
  · exact ⟨howner, hplaced.symm.trans hpoint⟩
  · rw [hplaced] at hpoint
    cases hpoint

/-- An owner that is in no call has nothing more to stop or to delete. -/
theorem Sound.stage_eq_none {o : Owner} (h : s.Sound owner stage) (hpoint : s.pointOf o = none)
    (howner : owner = some o) : stage = none := by
  have hplaced := h.placed o
  rw [if_pos howner, hpoint] at hplaced
  exact hplaced.symm

/-- When nobody is in a call and no listener has asked for the deletion, nobody stops or deletes the
server. -/
theorem Sound.quiet (h : s.Sound owner stage) (hpoint : ∀ o, s.pointOf o = none)
    (hpending : s.deletePending = false) : owner = none ∧ stage = none := by
  cases owner with
  | none =>
    refine ⟨rfl, ?_⟩
    cases stage with
    | none => rfl
    | some point => exact absurd rfl (h.custody.fits point rfl).1
  | some o =>
    have hstage := h.stage_eq_none (hpoint o) rfl
    subst hstage
    cases o with
    | application t =>
      obtain ⟨_, ⟨⟩, _⟩ := h.custody.application t rfl
    | client n =>
      have hdismissed : Dismissed s.toServerFields n := by
        have hasked := h.custody.asked n rfl
        generalize s.phase n = p at hasked
        cases hasked with
        | dismissed hdismissed _ => exact hdismissed
        | leaving _ hdismissed _ => exact hdismissed
        | released _ _ hdismissed _ => exact hdismissed
      rw [hdismissed.deletePending] at hpending
      cases hpending

/-- A client thread moves, and may begin or end a call. -/
theorem Sound.place {s₁ : HttpServer} {n : ℕ} {point : ClientPoint} {owner' : Option Owner}
    {stage' : Option ShutdownPoint} (h : s.Sound owner stage) (hclients : s₁.clients = s.clients)
    (happlication : s₁.application = s.application) (hrecorded : Recorded s₁.trace s₁.accepted)
    (hcustody : Custody s₁.toServerFields (Alive s₁.trace)
      (Function.update s.phase n point.phase) owner' stage')
    (hself : point.shutdown = if owner' = some (.client n) then stage' else none)
    (hothers : ∀ o, o ≠ .client n →
      (if owner = some o then stage else none) = if owner' = some o then stage' else none) :
    (s₁.goTo n point).Sound owner' stage' where
  recorded := hrecorded
  custody := by
    have hphase : s₁.phase = s.phase := by
      funext m
      rw [phase, client, hclients, phase, client]
    rw [phase_goTo, hphase]
    exact hcustody
  placed := by
    intro o
    by_cases ho : o = .client n
    · rw [ho, pointOf_goTo_self]
      exact hself
    · rw [pointOf_goTo_of_ne ho, ← hothers o ho, ← h.placed o]
      cases o with
      | application t => rw [pointOf, happlication, pointOf]
      | client m => rw [pointOf, client, hclients, pointOf, client]

/-- A client thread moves without beginning or ending a call. -/
theorem Sound.goTo {s₁ : HttpServer} {n : ℕ} {point : ClientPoint} (h : s.Sound owner stage)
    (hclients : s₁.clients = s.clients) (happlication : s₁.application = s.application)
    (hrecorded : Recorded s₁.trace s₁.accepted)
    (hcustody : Custody s₁.toServerFields (Alive s₁.trace)
      (Function.update s.phase n point.phase) owner stage)
    (hpoint : s.pointOf (.client n) = none) (hshutdown : point.shutdown = none) :
    (s₁.goTo n point).Sound owner stage := by
  refine h.place hclients happlication hrecorded hcustody ?_ fun _ _ ↦ rfl
  rw [hshutdown, ← h.placed (.client n), hpoint]

/-- A client thread that attends to its connection goes on to do so. -/
theorem Sound.attend {n : ℕ} {point : ClientPoint} (objects : List ServerObject)
    (h : s.Sound owner stage) (hphase : s.phase n = .attending)
    (hpoint : s.pointOf (.client n) = none)
    (halive : ∀ object ∈ objects, object = .client n ∨ object = .clientData n ∨
      object = .httpServer)
    (hnext : point.phase = .attending) (hshutdown : point.shutdown = none) :
    ((s.use objects).goTo n point).Sound owner stage := by
  refine h.goTo rfl rfl (h.recorded.use fun object hobject ↦ ?_) ?_ hpoint hshutdown
  · rcases halive object hobject with rfl | rfl | rfl
    · exact h.custody.client_of_runs (congrArg ClientPhase.runs hphase)
    · exact h.custody.data_of_hasData (congrArg ClientPhase.hasData hphase)
    · exact h.custody.server_of_attending hphase
  · rw [hnext, ← hphase, Function.update_eq_self]
    exact h.custody.use

/-- A statement of the call that a client thread is in. -/
theorem Sound.shuttingDown {n : ℕ} {call : DeleteCall} {point : ShutdownPoint} {s₁ : HttpServer}
    {next : Option ShutdownPoint} (h : s.Sound owner stage)
    (hclient : s.client n = .shuttingDown call point)
    (hstep : s.shutdownStep (some n) point = some (s₁, next)) :
    (s₁.goTo n (next.elim call.return (.shuttingDown call))).Sound (some (.client n)) next := by
  have hpoint : s.pointOf (.client n) = some point := by
    rw [pointOf, hclient]
    rfl
  obtain ⟨rfl, rfl⟩ := h.of_pointOf hpoint
  have hkeeps : Keeps s s₁ s.phase (.client n) next :=
    shutdownStep_custody h.recorded h.custody hstep
  have hphase : (next.elim call.return (.shuttingDown call)).phase = s.phase n := by
    rw [phase, hclient]
    cases next <;> cases call <;> rfl
  refine h.place hkeeps.clients hkeeps.application hkeeps.recorded ?_ ?_ fun o ho ↦ ?_
  · rw [hphase, Function.update_eq_self]
    exact hkeeps.custody
  · rw [if_pos rfl]
    cases next with
    | none => cases call <;> rfl
    | some => rfl
  · have hne : some (Owner.client n) ≠ some o := fun h ↦ ho (Option.some.inj h).symm
    rw [if_neg hne, if_neg hne]

/-- The last section of a client thread, in which it finds a request for the deletion of the server
only if it is its own. -/
theorem Sound.finish {n : ℕ} (h : s.Sound owner stage) (hclient : s.client n = .finishing)
    (hasked : s.deletePending = true → (s.clientFlags n).deletePending = true) :
    ((if s.ownerStopping n then s.use [.httpServer, .clientData n]
        else (s.use [.httpServer, .clientData n]).threadRemove n).goTo n
      (.leaving (s.ownerStopping n) s.deletePending)).Sound owner stage := by
  have hphase : s.phase n = .attending := by rw [phase, hclient]; rfl
  have hpoint : s.pointOf (.client n) = none := by rw [pointOf, hclient]; rfl
  have hcustody := h.custody.finish hphase
    (fun hpending ↦ (h.custody.client n).attending hphase (hasked hpending))
    (h.stage_eq_none hpoint)
  have hserver := h.custody.server_of_attending hphase
  have hdata : Alive s.trace (.clientData n) :=
    h.custody.data_of_hasData (congrArg ClientPhase.hasData hphase)
  have hself : Alive s.trace (.client n) :=
    h.custody.client_of_runs (congrArg ClientPhase.runs hphase)
  have hrecorded : Recorded (s.use [.httpServer, .clientData n]).trace s.accepted := by
    refine h.recorded.use ?_
    rw [List.forall_mem_cons, List.forall_mem_singleton]
    exact ⟨hserver, hdata⟩
  by_cases hstopping : s.ownerStopping n = true
  · rw [if_pos hstopping] at hcustody ⊢
    exact h.goTo rfl rfl hrecorded hcustody.use hpoint rfl
  · rw [if_neg hstopping] at hcustody ⊢
    refine h.goTo rfl rfl (hrecorded.use fun object hobject ↦ ?_) hcustody.use.use hpoint rfl
    rw [use, alive_map_use_append]
    rcases List.mem_cons.mp hobject with rfl | hobject
    · exact hself
    · exact h.custody.alive_neighbours n object hobject

/-- The end of `mupnp_http_server_clientthread` up to the deletion of the server, if that is asked
for. -/
theorem Sound.leave {n : ℕ} {ownerStopping deletePending : Bool} (h : s.Sound owner stage)
    (hclient : s.client n = .leaving ownerStopping deletePending) :
    (((s.free (.clientData n)).use [.client n]).goTo n
      (if deletePending then .shuttingDown (.action ownerStopping) .search
      else .ending ownerStopping)).Sound owner (if deletePending then some .search else stage) := by
  have hphase : s.phase n = .leaving ownerStopping deletePending := by rw [phase, hclient]; rfl
  have hpoint : s.pointOf (.client n) = none := by rw [pointOf, hclient]; rfl
  have hdata : Alive s.trace (.clientData n) :=
    h.custody.data_of_hasData (congrArg ClientPhase.hasData hphase)
  have hself : Alive s.trace (.client n) :=
    h.custody.client_of_runs (congrArg ClientPhase.runs hphase)
  have hrecorded : Recorded ((s.free (.clientData n)).use [.client n]).trace s.accepted := by
    refine (h.recorded.free hdata).use ?_
    rw [List.forall_mem_singleton, alive_free]
    exact ⟨hself, fun hobject ↦ by cases hobject⟩
  cases deletePending with
  | false =>
    have hcustody := h.custody.leave hphase (h.stage_eq_none hpoint)
    exact h.goTo rfl rfl hrecorded hcustody.free.use hpoint rfl
  | true =>
    obtain ⟨howner, hcustody⟩ := h.custody.leave_of_deletePending hphase (h.stage_eq_none hpoint)
    refine h.place rfl rfl hrecorded hcustody.free.use (if_pos howner).symm fun o ho ↦ ?_
    have hne : owner ≠ some o := by
      rw [howner]
      exact fun heq ↦ ho (Option.some.inj heq).symm
    rw [if_neg hne, if_neg hne]

/-- The end of the action of a client thread. -/
theorem Sound.endAction {n : ℕ} {ownerStopping : Bool} (h : s.Sound owner stage)
    (hclient : s.client n = .ending ownerStopping) :
    (if ownerStopping then s.goTo n .exiting
      else ((s.use [.client n]).setClientFlags n (s.clientFlags n).selfDeleted).goTo n
        .exiting).Sound owner stage := by
  have hphase : s.phase n = .detached ownerStopping := by rw [phase, hclient]; rfl
  have hpoint : s.pointOf (.client n) = none := by rw [pointOf, hclient]; rfl
  cases ownerStopping with
  | true =>
    have hcustody := h.custody.endOther hphase (h.stage_eq_none hpoint)
    exact h.goTo rfl rfl h.recorded hcustody hpoint rfl
  | false =>
    have hcustody := h.custody.endSelf hphase (h.stage_eq_none hpoint)
    refine h.goTo rfl rfl (h.recorded.use ?_) hcustody.use hpoint rfl
    rw [List.forall_mem_singleton]
    exact h.custody.client_of_runs (congrArg ClientPhase.runs hphase)

/-- The last section of `posix_thread_proc`. -/
theorem Sound.exit {n : ℕ} (h : s.Sound owner stage) (hclient : s.client n = .exiting) :
    (((s.use [.client n]).setClientFlags n (s.clientFlags n).ended).goTo n
      (if (s.clientFlags n).destroy then .destroying else .ended)).Sound owner stage := by
  have hphase : s.phase n = .exiting := by rw [phase, hclient]; rfl
  have hpoint : s.pointOf (.client n) = none := by rw [pointOf, hclient]; rfl
  have hcustody := h.custody.exit hphase (h.stage_eq_none hpoint)
  have hself : ∀ object ∈ [ServerObject.client n], Alive s.trace object := by
    rw [List.forall_mem_singleton]
    exact h.custody.client_of_runs (congrArg ClientPhase.runs hphase)
  cases hdestroy : (s.clientFlags n).destroy with
  | true =>
    rw [hdestroy] at hcustody
    exact h.goTo rfl rfl (h.recorded.use hself) hcustody.use hpoint rfl
  | false =>
    rw [hdestroy] at hcustody
    exact h.goTo rfl rfl (h.recorded.use hself) hcustody.use hpoint rfl

/-- A client thread frees itself. -/
theorem Sound.destroy {n : ℕ} (h : s.Sound owner stage) (hclient : s.client n = .destroying) :
    (((s.use [.client n]).free (.client n)).goTo n .ended).Sound owner stage := by
  have hphase : s.phase n = .destroying := by rw [phase, hclient]; rfl
  have hpoint : s.pointOf (.client n) = none := by rw [pointOf, hclient]; rfl
  have hcustody := h.custody.destroy hphase (h.stage_eq_none hpoint)
  refine h.goTo rfl rfl (h.recorded.use_free ?_ List.mem_cons_self) hcustody.use_free hpoint rfl
  rw [List.forall_mem_singleton]
  exact h.custody.client_of_runs (congrArg ClientPhase.runs hphase)

/-- The listener of a client thread begins to delete the server. -/
theorem Sound.ask {n : ℕ} {keepAlive : Bool} (h : s.Sound none none)
    (hclient : s.client n = .handling (.deletesServer keepAlive)) :
    ((s.use [.httpServer]).goTo n (.shuttingDown (.listener keepAlive) .search)).Sound
      (some (.client n)) (some .search) := by
  have hphase : s.phase n = .attending := by rw [phase, hclient]; rfl
  refine h.place rfl rfl (h.recorded.use ?_) ?_ ?_ fun o ho ↦ ?_
  · rw [List.forall_mem_singleton]
    exact h.custody.server_of_attending hphase
  · have hcustody := h.custody.ask hphase
    have hupdate : Function.update s.phase n .attending = s.phase :=
      hphase ▸ Function.update_eq_self n s.phase
    change Custody _ _ (Function.update s.phase n .attending) _ _
    rw [hupdate]
    exact hcustody.use
  · rw [if_pos rfl]
    rfl
  · rw [if_neg (Option.some_ne_none _).symm]
    exact (if_neg fun heq ↦ ho (Option.some.inj heq).symm).symm

/-- A statement of a client thread that does not begin a call in its listener, and in its last
section finds a request for the deletion of the server only if it is its own. -/
theorem Sound.clientStep {n : ℕ} {request : ClientRequest} (h : s.Sound owner stage)
    (hasks : ∀ keepAlive, s.client n ≠ .handling (.deletesServer keepAlive))
    (hfinishing : s.client n = .finishing → s.deletePending = true →
      (s.clientFlags n).deletePending = true)
    (hstep : s.clientStep n request (s.client n) = some s') :
    ∃ owner' stage', s'.Sound owner' stage' := by
  have hphase : s.phase n = (s.client n).phase := rfl
  have hpoint : s.pointOf (.client n) = (s.client n).shutdown := rfl
  cases hclient : s.client n with
  | idle | ended =>
    rw [hclient] at hstep
    cases hstep
  | beginning =>
    rw [hclient] at hphase hpoint hstep
    obtain rfl := Option.some.inj hstep
    exact ⟨_, _, h.attend _ hphase hpoint (by simp) rfl rfl⟩
  | serving =>
    rw [hclient] at hphase hpoint hstep
    rw [HttpServer.clientStep] at hstep
    by_cases hunreadable : request = .unreadable
    · rw [if_pos hunreadable] at hstep
      obtain rfl := Option.some.inj hstep
      exact ⟨_, _, h.attend [] hphase hpoint (by simp) rfl rfl⟩
    · rw [if_neg hunreadable] at hstep
      obtain rfl := Option.some.inj hstep
      refine ⟨_, _, h.attend _ hphase hpoint (by simp) ?_ ?_⟩
      · split_ifs <;> rfl
      · split_ifs <;> rfl
  | handling request =>
    rw [hclient] at hphase hpoint hstep
    cases request with
    | unreadable | bad =>
      obtain rfl := Option.some.inj hstep
      exact ⟨_, _, h.attend [] hphase hpoint (by simp) rfl rfl⟩
    | served keepAlive =>
      obtain rfl := Option.some.inj hstep
      exact ⟨_, _, h.attend _ hphase hpoint (by simp) rfl rfl⟩
    | deletesServer keepAlive => exact absurd hclient (hasks keepAlive)
  | listening keepAlive =>
    rw [hclient] at hphase hpoint hstep
    obtain rfl := Option.some.inj hstep
    refine ⟨_, _, h.attend _ hphase hpoint (by simp) ?_ ?_⟩
    · split_ifs <;> rfl
    · split_ifs <;> rfl
  | shuttingDown call point =>
    rw [hclient] at hstep
    obtain ⟨⟨s₁, next⟩, hshutdown, rfl⟩ := Option.map_eq_some_iff.mp hstep
    exact ⟨_, _, h.shuttingDown hclient hshutdown⟩
  | finishing =>
    have hasked := hfinishing hclient
    rw [hclient] at hstep
    obtain rfl := Option.some.inj hstep
    exact ⟨_, _, h.finish hclient hasked⟩
  | leaving ownerStopping deletePending =>
    rw [hclient] at hstep
    obtain rfl := Option.some.inj hstep
    exact ⟨_, _, h.leave hclient⟩
  | ending ownerStopping =>
    rw [hclient] at hstep
    have hnext := h.endAction hclient
    rw [HttpServer.clientStep] at hstep
    split_ifs at hstep hnext
    · obtain rfl := Option.some.inj hstep
      exact ⟨_, _, hnext⟩
    · obtain rfl := Option.some.inj hstep
      exact ⟨_, _, hnext⟩
  | exiting =>
    rw [hclient] at hstep
    obtain rfl := Option.some.inj hstep
    exact ⟨_, _, h.exit hclient⟩
  | destroying =>
    rw [hclient] at hstep
    obtain rfl := Option.some.inj hstep
    exact ⟨_, _, h.destroy hclient⟩

/-! ### The accept thread -/

/-- The accept thread moves, and no client thread does. -/
theorem Sound.acceptTo {s₁ : HttpServer} (h : s.Sound owner stage)
    (hclients : s₁.clients = s.clients) (happlication : s₁.application = s.application)
    (hrecorded : Recorded s₁.trace s₁.accepted)
    (hcustody : Custody s₁.toServerFields (Alive s₁.trace) s.phase owner stage) :
    s₁.Sound owner stage where
  recorded := hrecorded
  custody := by
    have hphase : s₁.phase = s.phase := by
      funext m
      rw [phase, client, hclients, phase, client]
    rw [hphase]
    exact hcustody
  placed := by
    intro o
    rw [← h.placed o]
    cases o with
    | application t => rw [pointOf, happlication, pointOf]
    | client m => rw [pointOf, client, hclients, pointOf, client]

/-- A statement of the accept thread at which it holds the same client thread before and after. -/
theorem Sound.acceptOn {q : AcceptPoint} {g : ThreadFlags} {objects : List ServerObject}
    (h : s.Sound owner stage) (hpoint : s.acceptPoint ≠ .ended)
    (halive : ∀ object ∈ objects, Alive s.trace object)
    (hholds : q.holds = s.acceptPoint.holds) (hlists : q.lists = s.acceptPoint.lists)
    (hrunning : g.isRunning = true ↔ q ≠ .ended) (hkept : g.deletePending = false)
    (hq : q ≠ .destroying) :
    HttpServer.Sound { s.use objects with acceptFlags := g, acceptPoint := q } owner stage :=
  h.acceptTo rfl rfl (h.recorded.use halive)
    (h.custody.acceptTo hpoint hholds hlists hrunning hkept hq).use

/-- A client thread that the accept thread holds is not freed. -/
theorem Sound.alive_of_holds {n : ℕ} (h : s.Sound owner stage)
    (hholds : s.acceptPoint.holds = some n) :
    Alive s.trace (.client n) ∧ Alive s.trace (.clientData n) :=
  ⟨(h.custody.client n).alive_client.mpr (Or.inl hholds),
    (h.custody.client n).alive_data.mpr (Or.inl hholds)⟩

/-- A statement of the accept thread. -/
theorem Sound.acceptStep {success : Bool} (h : s.Sound owner stage)
    (hstep : s.acceptStep success s.acceptPoint = some s') : s'.Sound owner stage := by
  have hended : s.acceptPoint ≠ .ended := by
    intro hpoint
    rw [hpoint] at hstep
    cases hstep
  have hserver := h.custody.server_of_accept hended
  obtain ⟨haccept, hlist⟩ := h.custody.accept_of_accept hended
  have hrunning : s.acceptFlags.isRunning = true := h.custody.accept_running.mpr hended
  have hkept := h.custody.accept_kept.1
  cases hpoint : s.acceptPoint with
  | ended => exact absurd hpoint hended
  | destroying => exact absurd hpoint h.custody.accept_kept.2
  | opening =>
    rw [hpoint] at hstep
    obtain rfl := Option.some.inj hstep
    refine h.acceptOn hended ?_ ?_ ?_ (iff_of_true hrunning ?_) hkept ?_
    · rw [List.forall_mem_cons, List.forall_mem_singleton]
      exact ⟨haccept, hserver⟩
    · rw [hpoint]
      split_ifs <;> rfl
    · rw [hpoint]
      split_ifs <;> rfl
    · split_ifs <;> exact fun h ↦ by cases h
    · split_ifs <;> exact fun h ↦ by cases h
  | testing =>
    rw [hpoint] at hstep
    obtain rfl := Option.some.inj hstep
    refine h.acceptOn hended ?_ ?_ ?_ (iff_of_true hrunning ?_) hkept ?_
    · rw [List.forall_mem_singleton]
      exact haccept
    · rw [hpoint]
      split_ifs <;> rfl
    · rw [hpoint]
      split_ifs <;> rfl
    · split_ifs <;> exact fun h ↦ by cases h
    · split_ifs <;> exact fun h ↦ by cases h
  | accepting =>
    rw [hpoint, HttpServer.acceptStep] at hstep
    split_ifs at hstep
    · obtain rfl := Option.some.inj hstep
      obtain ⟨hrecorded, halive⟩ := h.recorded.accept hserver
      have hnew : ¬ Alive s.trace (.client s.accepted) := fun hold ↦
        absurd ((h.recorded.client _).mp hold.1) (Nat.lt_irrefl _)
      have hcustody := h.custody.accept hpoint hnew
      refine h.acceptTo rfl rfl hrecorded ?_
      rw [← funext fun object ↦ propext (halive object)] at hcustody
      exact hcustody
    · obtain rfl := Option.some.inj hstep
      exact @acceptOn s owner stage .exiting s.acceptFlags [] h hended (by simp)
        (by rw [hpoint]; rfl) (by rw [hpoint]; rfl) (iff_of_true hrunning fun h ↦ by cases h) hkept
        fun h ↦ by cases h
  | adding n =>
    have hholds : s.acceptPoint.holds = some n := by rw [hpoint]; rfl
    obtain ⟨list, hthreads⟩ := Option.ne_none_iff_exists'.mp (h.custody.alive_list.mp hlist).1
    rw [hpoint, HttpServer.acceptStep, threadListAdd] at hstep
    dsimp only [HttpServer.use] at hstep
    rw [hthreads] at hstep
    obtain rfl := Option.some.inj hstep
    refine h.acceptTo rfl rfl ((h.recorded.use ?_).use ?_) (h.custody.add hpoint hthreads).use.use
    · rw [List.forall_mem_singleton]
      exact hserver
    · rw [List.forall_mem_cons, List.forall_mem_cons, List.forall_mem_singleton,
        alive_map_use_append, alive_map_use_append, alive_map_use_append]
      refine ⟨hlist, (h.alive_of_holds hholds).1, h.custody.alive_elim hlist fun m hlast ↦ ?_⟩
      rw [ServerFields.registered, hthreads]
      exact List.mem_of_getLast? hlast
  | starting n =>
    have hholds : s.acceptPoint.holds = some n := by rw [hpoint]; rfl
    obtain ⟨hself, -⟩ := h.alive_of_holds hholds
    have hreads : ∀ object ∈ [ServerObject.client n], Alive s.trace object := by
      rw [List.forall_mem_singleton]
      exact hself
    rw [hpoint, HttpServer.acceptStep] at hstep
    split_ifs at hstep
    · obtain rfl := Option.some.inj hstep
      have hborn : n < s.accepted := (h.recorded.client n).mp hself.1
      obtain ⟨hidle, -, hfree⟩ := (h.custody.client n).holds hholds
      have howner : owner ≠ some (.client n) := h.custody.owner_ne_of_idle hidle hfree
      refine h.place rfl rfl (h.recorded.use hreads) (h.custody.start hpoint hborn).use ?_
        fun _ _ ↦ rfl
      rw [if_neg howner]
      rfl
    · obtain rfl := Option.some.inj hstep
      exact h.acceptOn hended hreads (by rw [hpoint]; rfl) (by rw [hpoint]; rfl)
        (iff_of_true hrunning fun h ↦ by cases h) hkept fun h ↦ by cases h
  | removing n =>
    have hholds : s.acceptPoint.holds = some n := by rw [hpoint]; rfl
    rw [hpoint] at hstep
    obtain rfl := Option.some.inj hstep
    refine h.acceptTo rfl rfl ((h.recorded.use ?_).use fun object hobject ↦ ?_)
      (h.custody.remove hpoint).use.use
    · rw [List.forall_mem_singleton]
      exact hserver
    · rw [alive_map_use_append]
      rcases List.mem_cons.mp hobject with rfl | hobject
      · exact (h.alive_of_holds hholds).1
      · exact h.custody.alive_neighbours n object hobject
  | discarding n =>
    have hholds : s.acceptPoint.holds = some n := by rw [hpoint]; rfl
    obtain ⟨hself, hdata⟩ := h.alive_of_holds hholds
    rw [hpoint] at hstep
    obtain rfl := Option.some.inj hstep
    refine h.acceptTo rfl rfl ((h.recorded.use_free ?_ List.mem_cons_self).free ?_) ?_
    · rw [List.forall_mem_singleton]
      exact hself
    · rw [alive_free]
      exact ⟨alive_map_use_append.mpr hdata, fun hobject ↦ by cases hobject⟩
    · refine Custody.free ?_
      have hfreed : ∀ object,
          Alive (.free (.client n) :: ([ServerObject.client n].map .use ++ s.trace)) object ↔
            Alive s.trace object ∧ object ≠ .client n := fun object ↦
        alive_free.trans (and_congr_left' alive_map_use_append)
      have hcustody := h.custody.discard hpoint
      simp only [← hfreed] at hcustody
      exact hcustody
  | exiting =>
    have hdestroy : s.acceptFlags.destroy = false := by rw [ThreadFlags.destroy, hkept]; rfl
    rw [hpoint] at hstep
    obtain rfl := Option.some.inj hstep
    rw [hdestroy]
    refine h.acceptOn hended ?_ (by rw [hpoint]; rfl) (by rw [hpoint]; rfl)
      (iff_of_false (fun h ↦ by cases h) fun h ↦ h rfl) hkept fun h ↦ by cases h
    rw [List.forall_mem_singleton]
    exact haccept

/-! ### The application -/

/-- A statement of the call that a thread of the application is in. -/
theorem Sound.applicationStep {t : ℕ} {point : ShutdownPoint} {s₁ : HttpServer}
    {next : Option ShutdownPoint} (h : s.Sound owner stage)
    (hpoint : s.application.get t = some point)
    (hstep : s.shutdownStep none point = some (s₁, next)) :
    HttpServer.Sound { s₁ with application := s₁.application.set t next }
      ((Owner.application t).after next) next := by
  obtain ⟨rfl, rfl⟩ := @Sound.of_pointOf s owner stage (.application t) point h hpoint
  have hkeeps : Keeps s s₁ s.phase (.application t) next :=
    shutdownStep_custody h.recorded h.custody hstep
  refine ⟨hkeeps.recorded, ?_, fun o ↦ ?_⟩
  · have hphase : s₁.phase = s.phase := by
      funext m
      rw [phase, client, hkeeps.clients, phase, client]
    change Custody _ _ s₁.phase _ _
    rw [hphase]
    exact hkeeps.custody
  · by_cases ho : o = .application t
    · subst ho
      rw [pointOf, ThreadTable.get_set_self]
      cases next with
      | none => exact (if_neg (Option.some_ne_none _).symm).symm
      | some point => exact (if_pos rfl).symm
    · have hold : s.pointOf o = none :=
        (h.placed o).trans (if_neg fun heq ↦ ho (Option.some.inj heq).symm)
      have hnew : HttpServer.pointOf { s₁ with application := s₁.application.set t next } o =
          s.pointOf o := by
        cases o with
        | application u =>
          have hu : u ≠ t := fun hu ↦ ho (congrArg Owner.application hu)
          rw [pointOf, ThreadTable.get_set_of_ne hu, hkeeps.application, pointOf]
        | client m =>
          change (s₁.clients.get m).shutdown = (s.clients.get m).shutdown
          rw [hkeeps.clients]
      rw [hnew, hold]
      cases next with
      | none => exact (if_neg (Option.some_ne_none _).symm).symm
      | some point => exact (if_neg fun heq ↦ ho (Option.some.inj heq).symm).symm

/-- A thread of the application begins to stop or to delete the server. -/
theorem Sound.call {b : Bool} {point : ShutdownPoint} (h : s.Sound none none)
    (hcalled : s.deleteCalled = false) (hpending : s.deletePending = false)
    (hpoint : point = .stop .stop .testAccept ∨ point = .search) (hb : b = point.deletes) (t : ℕ) :
    HttpServer.Sound
      { s with application := s.application.set t (some point), deleteCalled := b }
      (some (.application t)) (some point) where
  recorded := h.recorded
  custody := h.custody.call hcalled hpending hpoint hb t
  placed := by
    intro o
    by_cases ho : o = .application t
    · subst ho
      rw [if_pos rfl, pointOf, ThreadTable.get_set_self]
    · rw [if_neg fun heq ↦ ho (Option.some.inj heq).symm]
      have hold : s.pointOf o = none := (h.placed o).trans (if_neg (Option.some_ne_none _).symm)
      cases o with
      | application u =>
        have hu : u ≠ t := fun hu ↦ ho (congrArg Owner.application hu)
        rw [pointOf, ThreadTable.get_set_of_ne hu]
        exact hold
      | client m => exact hold

end HttpServer

end Mupnp.Http
