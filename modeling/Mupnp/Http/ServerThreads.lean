import Mupnp.Http.ServerCustody

/-!
# The accept thread and the client threads of an HTTP server

What the statements of the accept thread and of a client thread do to the custody of a server, while
some other thread may be stopping or deleting it. `Custody.start` is the accept thread starting a
client thread, `Custody.finish` the last section of a client thread, in which it learns whether it
was taken from the list; `Custody.leave`, `Custody.endSelf`, `Custody.exit` and `Custody.destroy`
are its way to the end.
-/

set_option autoImplicit false
set_option relaxedAutoImplicit false

namespace Mupnp.Http

open Foundation MemoryEvent

variable {s : ServerFields} {alive : ServerObject → Prop} {phase : ℕ → ClientPhase}
  {owner : Option Owner} {stage : Option ShutdownPoint}

/-! ### One thread moves -/

/-- What is known of the next statement of the owner does not depend on which client threads are
registered. -/
theorem ShutdownPoint.Fits.congr {s' : ServerFields} {point : ShutdownPoint} (h : point.Fits s)
    (hthread : s'.acceptThread = s.acceptThread)
    (hpoint : s.acceptPoint = .ended → s'.acceptPoint = .ended)
    (hnone : s'.clientThreads = none ↔ s.clientThreads = none)
    (hempty : s.acceptThread = false → s.clientThreads = some [] → s'.clientThreads = some []) :
    point.Fits s' := by
  cases point with
  | search | unlink => trivial
  | freeServer => exact hnone.mpr h
  | stop call stage =>
    refine ⟨fun hcall ↦ hnone.mpr (h.1 hcall), ?_⟩
    have hstage := h.2
    cases stage with
    | testAccept => trivial
    | stopAccept | awaitAccept | testClients => exact hthread.trans hstage
    | deleteAccept | clearAccept => exact ⟨hthread.trans hstage.1, hpoint hstage.2⟩
    | takeClient => exact ⟨hthread.trans hstage.1, mt hnone.mp hstage.2⟩
    | deleteClient | joinClient =>
      exact ⟨hthread.trans hstage.1, mt hnone.mp hstage.2.1, hstage.2.2⟩
    | deleteList | clearList => exact ⟨hthread.trans hstage.1, hempty hstage.1 hstage.2⟩

/-- A client thread moves, or the accept thread with a client thread that it holds, and nobody
else is concerned. -/
theorem Custody.threadTo {alive' : ServerObject → Prop} {q : AcceptPoint} {c : Option (List ℕ)}
    {f : ℕ → ThreadFlags} {a n : ℕ} {p : ClientPhase} (h : Custody s alive phase owner stage)
    (hsame : ∀ object, object ≠ .client n → object ≠ .clientData n →
      (alive' object ↔ alive object))
    (hclient : ClientCustody
      { s with clientThreads := c, clientFlags := f, accepted := a, acceptPoint := q } alive' p
      (owner = some (.client n)) (Taken owner stage n) n)
    (hholds : ∀ m, m ≠ n → (q.holds = some m ↔ s.acceptPoint.holds = some m))
    (hlists : ∀ m, m ≠ n → (q.lists = some m ↔ s.acceptPoint.lists = some m))
    (hregistered : ∀ m, m ≠ n → (m ∈ c.getD [] ↔ m ∈ s.registered))
    (hflags : ∀ m, m ≠ n → f m = s.clientFlags m)
    (hfresh : ∀ m, a ≤ m → Function.update phase n p m = .idle ∧ s.ownerStopping m = false)
    (hnodup : (c.getD []).Nodup) (hended : q = .ended ↔ s.acceptPoint = .ended)
    (hkept : q ≠ .destroying) (hattending : p = .attending → s.acceptPoint ≠ .ended)
    (hnone : c = none ↔ s.clientThreads = none)
    (hempty : s.acceptThread = false → s.clientThreads = some [] → c = some [])
    (hasked : owner = some (.client n) → Asked
      { s with clientThreads := c, clientFlags := f, accepted := a, acceptPoint := q }
      (alive .httpServer) n p stage) :
    Custody { s with clientThreads := c, clientFlags := f, accepted := a, acceptPoint := q } alive'
      (Function.update phase n p) owner stage := by
  have hserver : alive' .httpServer ↔ alive .httpServer :=
    hsame _ (fun h ↦ by cases h) fun h ↦ by cases h
  exact
    { h with
      client := by
        intro m
        by_cases hm : m = n
        · subst hm
          rw [Function.update_self]
          exact hclient
        · rw [Function.update_of_ne hm]
          refine (h.client m).congr (hsame _ (fun hobject ↦ hm ?_) fun hobject ↦ by cases hobject)
            (hsame _ (fun hobject ↦ by cases hobject) fun hobject ↦ hm ?_) (hholds m hm)
            (hlists m hm) (hregistered m hm) (hflags m hm) rfl id Iff.rfl
          · cases hobject
            rfl
          · cases hobject
            rfl
      fresh := hfresh
      nodup := hnodup
      alive_server := by
        rcases h.alive_server with hold | ⟨hover, hnot, hrest⟩
        · exact Or.inl (hserver.mpr hold)
        · refine Or.inr ⟨hended.mpr hover, fun m ↦ ?_, hrest⟩
          by_cases hm : m = n
          · subst hm
            rw [Function.update_self]
            exact fun hphase ↦ hattending hphase hover
          · rw [Function.update_of_ne hm]
            exact hnot m
      alive_accept := (hsame _ (fun h ↦ by cases h) fun h ↦ by cases h).trans h.alive_accept
      alive_list := by
        rw [hsame _ (fun hobject ↦ by cases hobject) (fun hobject ↦ by cases hobject),
          h.alive_list]
        exact and_congr_left' (not_congr hnone.symm)
      accept_running := h.accept_running.trans (not_congr hended.symm)
      accept_kept := ⟨h.accept_kept.1, hkept⟩
      accept_over := fun hthread ↦ hended.mpr (h.accept_over hthread)
      clients_none := fun hthreads ↦ h.clients_none (hnone.mp hthreads)
      stopped := fun hstopped ↦ hnone.mpr (h.stopped hstopped)
      fits := by
        intro point hstage
        obtain ⟨howner, hfits⟩ := h.fits point hstage
        exact ⟨howner, hfits.congr rfl hended.mpr hnone hempty⟩
      asked := by
        intro m howner
        by_cases hm : m = n
        · subst hm
          rw [Function.update_self]
          exact (hasked howner).congr rfl rfl rfl id hserver
        · rw [Function.update_of_ne hm]
          exact (h.asked m howner).congr rfl rfl (hflags m hm) hnone.mpr hserver
      deleted := by
        intro hdeleted
        rw [hserver]
        exact h.deleted hdeleted }

/-- The accept thread moves. -/
theorem Custody.acceptTo {q : AcceptPoint} {g : ThreadFlags}
    (h : Custody s alive phase owner stage) (hpoint : s.acceptPoint ≠ .ended)
    (hholds : q.holds = s.acceptPoint.holds) (hlists : q.lists = s.acceptPoint.lists)
    (hrunning : g.isRunning = true ↔ q ≠ .ended) (hkept : g.deletePending = false)
    (hq : q ≠ .destroying) :
    Custody { s with acceptFlags := g, acceptPoint := q } alive phase owner stage := by
  have hthread : s.acceptThread ≠ false := fun hthread ↦ hpoint (h.accept_over hthread)
  exact
    { h with
      client := by
        intro n
        refine (h.client n).congr Iff.rfl Iff.rfl ?_ ?_ Iff.rfl rfl rfl id Iff.rfl
        · rw [hholds]
        · rw [hlists]
      alive_server := Or.inl (h.server_of_accept hpoint)
      accept_running := hrunning
      accept_kept := ⟨hkept, hq⟩
      accept_over := fun hover ↦ absurd hover hthread
      fits := by
        intro point hstage
        obtain ⟨howner, hfits⟩ := h.fits point hstage
        exact ⟨howner, hfits.congr rfl (fun hended ↦ absurd hended hpoint) Iff.rfl fun _ ↦ id⟩
      asked := fun n howner ↦ (h.asked n howner).congr rfl rfl rfl id Iff.rfl }

/-- As long as the accept thread has not come to its end, neither it nor the list is freed. -/
theorem Custody.accept_of_accept (h : Custody s alive phase owner stage)
    (hpoint : s.acceptPoint ≠ .ended) : alive .acceptThread ∧ alive .clientThreads := by
  have hthread : s.acceptThread = true := by
    by_contra hfalse
    exact hpoint (h.accept_over (Bool.eq_false_iff.mpr hfalse))
  refine ⟨h.alive_accept.mpr ⟨hthread, ?_⟩, h.alive_list.mpr ⟨fun hnone ↦ ?_, ?_⟩⟩
  · rw [Bool.eq_false_iff]
    intro hany
    obtain ⟨point, hstage, hfreed⟩ := (Option.any_eq_true _ _).mp hany
    obtain ⟨call, rfl⟩ := ShutdownPoint.exists_of_acceptFreed hfreed
    exact hpoint (h.fits _ hstage).2.2.2
  · rw [h.clients_none hnone] at hthread
    cases hthread
  · rw [Bool.eq_false_iff]
    intro hany
    obtain ⟨point, hstage, hfreed⟩ := (Option.any_eq_true _ _).mp hany
    obtain ⟨call, rfl⟩ := ShutdownPoint.exists_of_listFreed hfreed
    rw [(h.fits _ hstage).2.2.1] at hthread
    cases hthread

/-! ### Client threads -/

theorem ClientCustody.not_holds {p : ClientPhase} {owns taken : Prop} {n : ℕ}
    (h : ClientCustody s alive p owns taken n) (hphase : p ≠ .idle) :
    s.acceptPoint.holds ≠ some n := fun hholds ↦ hphase (h.holds hholds).1

theorem ClientCustody.not_lists {p : ClientPhase} {owns taken : Prop} {n : ℕ}
    (h : ClientCustody s alive p owns taken n) (hphase : p ≠ .idle) :
    s.acceptPoint.lists ≠ some n := fun hlists ↦
  h.not_holds hphase (AcceptPoint.holds_of_lists hlists)

/-- A client thread that does not attend to its connection is not registered by it. -/
theorem ClientCustody.registered_congr {p p' : ClientPhase} {owns taken : Prop} {n : ℕ}
    (h : ClientCustody s alive p owns taken n) (hp : p ≠ .attending) (hp' : p' ≠ .attending) :
    n ∈ s.registered ↔
      s.acceptPoint.lists = some n ∨ p' = .attending ∧ s.ownerStopping n = false := by
  rw [h.registered]
  exact or_congr_right (iff_of_false (fun hold ↦ hp hold.1) fun hnew ↦ hp' hnew.1)

/-- A client thread that was not accepted yet is not the one that moves. -/
theorem Custody.fresh_update (h : Custody s alive phase owner stage) {n : ℕ}
    (hphase : phase n ≠ .idle) (p : ClientPhase) (other : ℕ) (hother : s.accepted ≤ other) :
    Function.update phase n p other = .idle ∧ s.ownerStopping other = false := by
  obtain ⟨hidle, hstopping⟩ := h.fresh other hother
  rw [Function.update_of_ne]
  · exact ⟨hidle, hstopping⟩
  · rintro rfl
    exact hphase hidle

/-- A client thread moves, with its flags and its place in the list. -/
theorem Custody.clientTo {alive' : ServerObject → Prop} {c : Option (List ℕ)}
    {f : ℕ → ThreadFlags} {n : ℕ} {p : ClientPhase} (h : Custody s alive phase owner stage)
    (hphase : phase n ≠ .idle) (hp : p ≠ .attending)
    (hsame : ∀ object, object ≠ .client n → object ≠ .clientData n →
      (alive' object ↔ alive object))
    (hclient : ClientCustody { s with clientThreads := c, clientFlags := f } alive' p
      (owner = some (.client n)) (Taken owner stage n) n)
    (hregistered : ∀ m, m ≠ n → (m ∈ c.getD [] ↔ m ∈ s.registered))
    (hflags : ∀ m, m ≠ n → f m = s.clientFlags m) (hnodup : (c.getD []).Nodup)
    (hnone : c = none ↔ s.clientThreads = none)
    (hempty : s.clientThreads = some [] → c = some [])
    (hasked : owner = some (.client n) → Asked
      { s with clientThreads := c, clientFlags := f } (alive .httpServer) n p stage) :
    Custody { s with clientThreads := c, clientFlags := f } alive' (Function.update phase n p)
      owner stage :=
  h.threadTo hsame hclient (fun _ _ ↦ Iff.rfl) (fun _ _ ↦ Iff.rfl) hregistered hflags
    (h.fresh_update hphase p) hnodup Iff.rfl h.accept_kept.2 (fun hattending ↦ absurd hattending hp)
    hnone (fun _ ↦ hempty) hasked

/-- The last section of a client thread. If it was not taken from the list, it removes itself. -/
theorem Custody.finish {n : ℕ} (h : Custody s alive phase owner stage)
    (hphase : phase n = .attending)
    (hpending : s.deletePending = true → owner = some (.client n))
    (hstage : owner = some (.client n) → stage = none) :
    Custody { s with
      clientThreads := if s.ownerStopping n then s.clientThreads
        else s.clientThreads.map (·.erase n) }
      alive (Function.update phase n (.leaving (s.ownerStopping n) s.deletePending)) owner
      stage := by
  have hcustody := h.client n
  rw [hphase] at hcustody
  have hidle : ClientPhase.attending ≠ .idle := fun hidle ↦ by cases hidle
  have hlists := hcustody.not_lists hidle
  have hregistered : (if s.ownerStopping n then s.clientThreads
      else s.clientThreads.map (·.erase n)).getD [] = s.registered.erase n := by
    split_ifs with hstopping
    · have hmem : n ∉ s.registered := by
        rw [hcustody.registered]
        rintro (hlist | ⟨-, hfree⟩)
        · exact hlists hlist
        · rw [hstopping] at hfree
          cases hfree
      exact (List.erase_of_not_mem hmem).symm
    · rw [ServerFields.registered]
      cases s.clientThreads <;> rfl
  refine h.clientTo (hphase ▸ hidle) (fun h ↦ by cases h) (fun _ _ _ ↦ Iff.rfl) ?_ ?_
    (fun _ _ ↦ rfl) ?_ ?_ ?_ ?_
  · exact
      { hcustody with
        registered := by
          change n ∈ Option.getD _ _ ↔ _
          rw [hregistered]
          refine iff_of_false h.nodup.not_mem_erase ?_
          rintro (hlist | ⟨hattending, -⟩)
          · exact hlists hlist
          · cases hattending
        holds := fun hholds ↦ absurd hholds (hcustody.not_holds hidle)
        running := hcustody.running.trans
          (iff_of_true ⟨rfl, fun h ↦ by cases h⟩ ⟨rfl, fun h ↦ by cases h⟩)
        exiting := fun hexiting ↦ by cases hexiting
        of_taken := fun htaken ↦
          ⟨(hcustody.of_taken htaken).1, (hcustody.of_taken htaken).2.1, fun h ↦ by cases h⟩
        attending := fun hattending ↦ by cases hattending
        leaving := by
          rintro _ _ ⟨⟩
          exact ⟨rfl, hpending⟩
        detached := fun _ hdetached ↦ by cases hdetached }
  · intro m hm
    rw [hregistered]
    exact List.mem_erase_of_ne hm
  · rw [hregistered]
    exact h.nodup.erase n
  · split_ifs
    · exact Iff.rfl
    · exact Option.map_eq_none_iff
  · intro hempty
    split_ifs
    · exact hempty
    · rw [hempty]
      rfl
  · intro howner
    have hasked := h.asked n howner
    rw [hphase, hstage howner] at hasked
    rw [hstage howner]
    cases hasked with
    | dismissed hdismissed hserver =>
      have hleaving : ClientPhase.leaving (s.ownerStopping n) s.deletePending =
          .leaving (s.ownerStopping n) true := by rw [hdismissed.deletePending]
      rw [hleaving]
      refine (Asked.leaving _ hdismissed hserver).congr rfl rfl rfl (fun hnone ↦ ?_) Iff.rfl
      split_ifs
      · exact hnone
      · rw [hnone]
        rfl
    | released _ hdata _ _ => cases hdata

/-- The data of a client thread is freed. -/
theorem ClientCustody.leave {n : ℕ} {ownerStopping deletePending : Bool} {owns taken : Prop}
    (h : ClientCustody s alive (.leaving ownerStopping deletePending) owns taken n) :
    ClientCustody s (fun object ↦ alive object ∧ object ≠ .clientData n) (.detached ownerStopping)
      owns taken n := by
  have hidle : ClientPhase.leaving ownerStopping deletePending ≠ .idle := fun hidle ↦ by
    cases hidle
  exact
    { h with
      alive_client := (and_iff_left fun h ↦ by cases h).trans h.alive_client
      alive_data := by
        refine iff_of_false (fun halive ↦ halive.2 rfl) ?_
        rintro (hholds | hdata)
        · exact h.not_holds hidle hholds
        · cases hdata
      registered := h.registered_congr (fun h ↦ by cases h) fun h ↦ by cases h
      holds := fun hholds ↦ absurd hholds (h.not_holds hidle)
      running := h.running.trans
        (iff_of_true ⟨rfl, fun h ↦ by cases h⟩ ⟨rfl, fun h ↦ by cases h⟩)
      exiting := fun hexiting ↦ by cases hexiting
      of_taken := fun htaken ↦
        ⟨(h.of_taken htaken).1, (h.of_taken htaken).2.1, fun h ↦ by cases h⟩
      attending := fun hattending ↦ by cases hattending
      leaving := fun _ _ hleaving ↦ by cases hleaving
      detached := by
        rintro _ ⟨⟩
        exact (h.leaving _ _ rfl).1 }

/-- A client thread that does not delete the server frees its data. -/
theorem Custody.leave {n : ℕ} {ownerStopping : Bool} (h : Custody s alive phase owner stage)
    (hphase : phase n = .leaving ownerStopping false)
    (hstage : owner = some (.client n) → stage = none) :
    Custody s (fun object ↦ alive object ∧ object ≠ .clientData n)
      (Function.update phase n (.detached ownerStopping)) owner stage := by
  have hcustody := h.client n
  rw [hphase] at hcustody
  refine h.clientTo (hphase ▸ fun hidle ↦ by cases hidle) (fun h ↦ by cases h)
    (fun object _ hne ↦ and_iff_left hne) hcustody.leave (fun _ _ ↦ Iff.rfl) (fun _ _ ↦ rfl)
    h.nodup Iff.rfl id fun howner ↦ ?_
  have hasked := h.asked n howner
  rw [hphase, hstage howner] at hasked
  cases hasked with
  | released _ hdata _ _ => cases hdata

/-- The client thread whose listener deletes the server frees its data, and deletes the server. -/
theorem Custody.leave_of_deletePending {n : ℕ} {ownerStopping : Bool}
    (h : Custody s alive phase owner stage) (hphase : phase n = .leaving ownerStopping true)
    (hstage : owner = some (.client n) → stage = none) :
    owner = some (.client n) ∧
      Custody s (fun object ↦ alive object ∧ object ≠ .clientData n)
        (Function.update phase n (.detached ownerStopping)) owner (some .search) := by
  have hcustody := h.client n
  rw [hphase] at hcustody
  obtain rfl : owner = some (.client n) := (hcustody.leaving _ _ rfl).2 rfl
  obtain rfl : stage = none := hstage rfl
  obtain ⟨hdismissed, hserver⟩ : Dismissed s n ∧ alive .httpServer := by
    have hasked := h.asked n rfl
    rw [hphase] at hasked
    cases hasked with
    | leaving _ hdismissed hserver => exact ⟨hdismissed, hserver⟩
    | released _ hdata _ _ => cases hdata
  have htaken : ∀ m, Taken (some (.client n)) (some .search) m ↔
      Taken (some (.client n)) none m := fun m ↦
    iff_of_false (fun htaken ↦ by cases htaken.2) fun htaken ↦ by cases htaken.2
  refine ⟨rfl, ?_⟩
  exact
    { h with
      client := by
        intro m
        by_cases hm : m = n
        · subst hm
          rw [Function.update_self]
          exact hcustody.leave.congr Iff.rfl Iff.rfl Iff.rfl Iff.rfl Iff.rfl rfl rfl id (htaken m)
        · rw [Function.update_of_ne hm]
          refine (h.client m).congr (and_iff_left fun h ↦ by cases h)
            (and_iff_left fun hobject ↦ hm ?_) Iff.rfl Iff.rfl Iff.rfl rfl rfl id (htaken m)
          cases hobject
          rfl
      fresh := h.fresh_update (hphase ▸ fun hidle ↦ by cases hidle) _
      alive_server := Or.inl ⟨hserver, fun h ↦ by cases h⟩
      alive_accept := (and_iff_left fun h ↦ by cases h).trans h.alive_accept
      alive_list := (and_iff_left fun h ↦ by cases h).trans h.alive_list
      fits := by
        rintro _ ⟨⟩
        exact ⟨Option.some_ne_none _, trivial⟩
      asked := by
        rintro m ⟨⟩
        rw [Function.update_self]
        exact Asked.deleting ownerStopping _ rfl hdismissed
      application := fun _ howner ↦ by cases howner
      deleted := by
        intro hdeleted
        rcases h.deleted hdeleted with hfreed | ⟨_, _, ⟨⟩, _⟩
        exact absurd hserver hfreed }

/-- A client thread that was not taken from the list deletes itself. -/
theorem Custody.endSelf {n : ℕ} (h : Custody s alive phase owner stage)
    (hphase : phase n = .detached false) (hstage : owner = some (.client n) → stage = none) :
    Custody { s with
      clientFlags := fun other ↦
        if other = n then (s.clientFlags n).selfDeleted else s.clientFlags other }
      alive (Function.update phase n .exiting) owner stage := by
  have hcustody := h.client n
  rw [hphase] at hcustody
  have hfree : s.ownerStopping n = false := hcustody.detached false rfl
  have hidle : ClientPhase.detached false ≠ .idle := fun hidle ↦ by cases hidle
  have hflags : (if n = n then (s.clientFlags n).selfDeleted else s.clientFlags n) =
      (s.clientFlags n).selfDeleted := if_pos rfl
  refine h.clientTo (hphase ▸ hidle) (fun h ↦ by cases h) (fun _ _ _ ↦ Iff.rfl) ?_
    (fun _ _ ↦ Iff.rfl) (fun m hm ↦ if_neg hm) h.nodup Iff.rfl id fun howner ↦ ?_
  · exact
      { hcustody with
        registered := hcustody.registered_congr (fun h ↦ by cases h) fun h ↦ by cases h
        holds := fun hholds ↦ absurd hholds (hcustody.not_holds hidle)
        running := by
          change (if n = n then _ else _ : ThreadFlags).isRunning = true ↔ _
          rw [hflags]
          exact hcustody.running.trans
            (iff_of_true ⟨rfl, fun h ↦ by cases h⟩ ⟨rfl, fun h ↦ by cases h⟩)
        stopWaiting := by
          intro _ htaken
          change (if n = n then _ else _ : ThreadFlags).stopWaiting = false
          rw [hflags]
          exact hcustody.stopWaiting rfl htaken
        exiting := by
          intro _ _
          change (if n = n then _ else _ : ThreadFlags).deletePending = true
          rw [hflags]
          rfl
        of_taken := by
          intro htaken
          rw [(hcustody.of_taken htaken).1] at hfree
          cases hfree
        attending := fun hattending ↦ by cases hattending
        leaving := fun _ _ hleaving ↦ by cases hleaving
        detached := fun _ hdetached ↦ by cases hdetached }
  · have hasked := h.asked n howner
    rw [hphase, hstage howner] at hasked
    cases hasked with
    | released _ _ hdismissed _ =>
      rw [hdismissed.ownerStopping] at hfree
      cases hfree

/-- A client thread that was taken from the list, by itself or by another thread, comes to the end
of its action. -/
theorem Custody.endOther {n : ℕ} (h : Custody s alive phase owner stage)
    (hphase : phase n = .detached true) (hstage : owner = some (.client n) → stage = none) :
    Custody s alive (Function.update phase n .exiting) owner stage := by
  have hcustody := h.client n
  rw [hphase] at hcustody
  have hstopping : s.ownerStopping n = true := hcustody.detached true rfl
  have hidle : ClientPhase.detached true ≠ .idle := fun hidle ↦ by cases hidle
  have hreleased : owner = some (.client n) → Dismissed s n ∧ ¬ alive .httpServer := by
    intro howner
    have hasked := h.asked n howner
    rw [hphase, hstage howner] at hasked
    cases hasked with
    | released _ _ hdismissed hfreed => exact ⟨hdismissed, hfreed⟩
  refine h.clientTo (hphase ▸ hidle) (fun h ↦ by cases h) (fun _ _ _ ↦ Iff.rfl) ?_
    (fun _ _ ↦ Iff.rfl) (fun _ _ ↦ rfl) h.nodup Iff.rfl id fun howner ↦ ?_
  · exact
      { hcustody with
        registered := hcustody.registered_congr (fun h ↦ by cases h) fun h ↦ by cases h
        holds := fun hholds ↦ absurd hholds (hcustody.not_holds hidle)
        running := hcustody.running.trans
          (iff_of_true ⟨rfl, fun h ↦ by cases h⟩ ⟨rfl, fun h ↦ by cases h⟩)
        exiting := by
          intro _ htaken
          rcases hcustody.ownerStopping rfl hstopping with howner | htaken'
          · exact (hreleased howner).1.self_deleted
          · exact absurd htaken' htaken
        of_taken := fun htaken ↦
          ⟨hstopping, (hcustody.of_taken htaken).2.1, fun h ↦ by cases h⟩
        attending := fun hattending ↦ by cases hattending
        leaving := fun _ _ hleaving ↦ by cases hleaving
        detached := fun _ hdetached ↦ by cases hdetached }
  · obtain ⟨hdismissed, hfreed⟩ := hreleased howner
    rw [hstage howner]
    exact Asked.released _ rfl hdismissed hfreed

/-- Behind its last section, a client thread that was not taken from the list by another thread
frees itself, and one that was does not touch its object again. -/
theorem ClientCustody.exit {n : ℕ} {owns taken : Prop}
    (h : ClientCustody s alive .exiting owns taken n) :
    ClientCustody { s with
      clientFlags := fun other ↦
        if other = n then (s.clientFlags n).ended else s.clientFlags other }
      alive (if (s.clientFlags n).destroy then .destroying else .ended) owns taken n := by
  have hidle : ClientPhase.exiting ≠ .idle := fun hidle ↦ by cases hidle
  have hflags : (if n = n then (s.clientFlags n).ended else s.clientFlags n) =
      (s.clientFlags n).ended := if_pos rfl
  have hrunning : (if n = n then (s.clientFlags n).ended else s.clientFlags n).isRunning = false :=
    congrArg ThreadFlags.isRunning hflags
  by_cases htaken : taken
  · have hdestroy : (s.clientFlags n).destroy ≠ true := by
      rw [ThreadFlags.destroy, (h.of_taken htaken).2.1]
      exact Bool.false_ne_true
    rw [if_neg hdestroy]
    exact
      { h with
        alive_client := iff_of_true (h.alive_client.mpr (Or.inr (Or.inl rfl)))
          (Or.inr (Or.inr htaken))
        registered := h.registered_congr (fun h ↦ by cases h) fun h ↦ by cases h
        holds := fun hholds ↦ absurd hholds (h.not_holds hidle)
        running := by
          refine iff_of_false (fun htrue ↦ ?_) fun hruns ↦ by cases hruns.1
          rw [hrunning] at htrue
          cases htrue
        stopWaiting := fun hruns ↦ by cases hruns
        exiting := fun hexiting ↦ by cases hexiting
        ownerStopping := fun hruns ↦ by cases hruns
        of_taken := fun _ ↦ ⟨(h.of_taken htaken).1,
          (congrArg ThreadFlags.deletePending hflags).trans (h.of_taken htaken).2.1,
          fun h ↦ by cases h⟩
        attending := fun hattending ↦ by cases hattending
        leaving := fun _ _ hleaving ↦ by cases hleaving
        detached := fun _ hdetached ↦ by cases hdetached }
  · have hdestroy : (s.clientFlags n).destroy = true := by
      rw [ThreadFlags.destroy, h.exiting rfl htaken, h.stopWaiting rfl htaken]
      rfl
    rw [if_pos hdestroy]
    exact
      { h with
        registered := h.registered_congr (fun h ↦ by cases h) fun h ↦ by cases h
        holds := fun hholds ↦ absurd hholds (h.not_holds hidle)
        running := by
          refine iff_of_false (fun htrue ↦ ?_) fun hruns ↦ hruns.2 rfl
          rw [hrunning] at htrue
          cases htrue
        stopWaiting := fun _ _ ↦
          (congrArg ThreadFlags.stopWaiting hflags).trans (h.stopWaiting rfl htaken)
        exiting := fun hexiting ↦ by cases hexiting
        of_taken := fun htaken' ↦ absurd htaken' htaken
        attending := fun hattending ↦ by cases hattending
        leaving := fun _ _ hleaving ↦ by cases hleaving
        detached := fun _ hdetached ↦ by cases hdetached }

/-- The last section of `posix_thread_proc`. -/
theorem Custody.exit {n : ℕ} (h : Custody s alive phase owner stage)
    (hphase : phase n = .exiting) (hstage : owner = some (.client n) → stage = none) :
    Custody { s with
      clientFlags := fun other ↦
        if other = n then (s.clientFlags n).ended else s.clientFlags other }
      alive (Function.update phase n (if (s.clientFlags n).destroy then .destroying else .ended))
      owner stage := by
  have hcustody := h.client n
  rw [hphase] at hcustody
  have hflags : (if n = n then (s.clientFlags n).ended else s.clientFlags n) =
      (s.clientFlags n).ended := if_pos rfl
  refine h.clientTo (hphase ▸ fun h ↦ by cases h) (by split_ifs <;> exact fun h ↦ by cases h)
    (fun _ _ _ ↦ Iff.rfl) hcustody.exit (fun _ _ ↦ Iff.rfl) (fun m hm ↦ if_neg hm) h.nodup Iff.rfl
    id fun howner ↦ ?_
  have hasked := h.asked n howner
  rw [hphase, hstage howner] at hasked
  rw [hstage howner]
  cases hasked with
  | released _ _ hdismissed hfreed =>
    refine Asked.released _ (by split_ifs <;> rfl) ⟨hdismissed.deletePending,
      hdismissed.ownerStopping, ?_, hdismissed.clientThreads⟩ hfreed
    exact (congrArg ThreadFlags.deletePending hflags).trans hdismissed.self_deleted

/-- A client thread frees itself. -/
theorem Custody.destroy {n : ℕ} (h : Custody s alive phase owner stage)
    (hphase : phase n = .destroying) (hstage : owner = some (.client n) → stage = none) :
    Custody s (fun object ↦ alive object ∧ object ≠ .client n) (Function.update phase n .ended)
      owner stage := by
  have hcustody := h.client n
  rw [hphase] at hcustody
  have hidle : ClientPhase.destroying ≠ .idle := fun hidle ↦ by cases hidle
  have htaken : ¬ Taken owner stage n := fun htaken ↦ (hcustody.of_taken htaken).2.2 rfl
  refine h.clientTo (hphase ▸ hidle) (fun h ↦ by cases h) (fun object hne _ ↦ and_iff_left hne) ?_
    (fun _ _ ↦ Iff.rfl) (fun _ _ ↦ rfl) h.nodup Iff.rfl id fun howner ↦ ?_
  · exact
      { hcustody with
        alive_client := by
          refine iff_of_false (fun halive ↦ halive.2 rfl) ?_
          rintro (hholds | hruns | htaken')
          · exact hcustody.not_holds hidle hholds
          · cases hruns
          · exact htaken htaken'
        alive_data := (and_iff_left fun h ↦ by cases h).trans hcustody.alive_data
        registered := hcustody.registered_congr (fun h ↦ by cases h) fun h ↦ by cases h
        holds := fun hholds ↦ absurd hholds (hcustody.not_holds hidle)
        running := hcustody.running.trans (iff_of_false (fun h ↦ h.2 rfl) fun h ↦ by cases h.1)
        stopWaiting := fun hruns ↦ by cases hruns
        exiting := fun hexiting ↦ by cases hexiting
        ownerStopping := fun hruns ↦ by cases hruns
        of_taken := fun htaken' ↦ absurd htaken' htaken
        attending := fun hattending ↦ by cases hattending
        leaving := fun _ _ hleaving ↦ by cases hleaving
        detached := fun _ hdetached ↦ by cases hdetached }
  · have hasked := h.asked n howner
    rw [hphase, hstage howner] at hasked
    rw [hstage howner]
    cases hasked with
    | released _ _ hdismissed hfreed => exact Asked.released _ rfl hdismissed hfreed

/-! ### The accept thread -/

/-- A client thread that was not started is not the owner. -/
theorem Custody.owner_ne_of_idle {n : ℕ} (h : Custody s alive phase owner stage)
    (hphase : phase n = .idle) (hfree : s.ownerStopping n = false) : owner ≠ some (.client n) := by
  intro howner
  have hasked := h.asked n howner
  rw [hphase] at hasked
  cases hasked with
  | released _ _ hdismissed _ =>
    rw [hdismissed.ownerStopping] at hfree
    cases hfree

/-- The accept thread moves with a client thread that is not started yet. -/
theorem Custody.heldTo {alive' : ServerObject → Prop} {q : AcceptPoint} {c : Option (List ℕ)}
    {a n : ℕ} (h : Custody s alive phase owner stage) (hphase : phase n = .idle)
    (hfree : s.ownerStopping n = false) (hnot : ¬ Taken owner stage n)
    (hpoint : s.acceptPoint ≠ .ended)
    (hsame : ∀ object, object ≠ .client n → object ≠ .clientData n →
      (alive' object ↔ alive object))
    (hclient : alive' (.client n) ↔ q.holds = some n)
    (hdata : alive' (.clientData n) ↔ q.holds = some n)
    (hmem : n ∈ c.getD [] ↔ q.lists = some n)
    (hholds : ∀ m, m ≠ n → (q.holds = some m ↔ s.acceptPoint.holds = some m))
    (hlists : ∀ m, m ≠ n → (q.lists = some m ↔ s.acceptPoint.lists = some m))
    (hregistered : ∀ m, m ≠ n → (m ∈ c.getD [] ↔ m ∈ s.registered))
    (hfresh : s.accepted ≤ a) (hnodup : (c.getD []).Nodup) (hended : q ≠ .ended)
    (hkept : q ≠ .destroying) (hnone : c = none ↔ s.clientThreads = none) :
    Custody { s with clientThreads := c, accepted := a, acceptPoint := q } alive' phase owner
      stage := by
  have hcustody := h.client n
  rw [hphase] at hcustody
  have hupdate : Function.update phase n .idle = phase := hphase ▸ Function.update_eq_self n phase
  rw [← hupdate]
  refine h.threadTo hsame ?_ hholds hlists hregistered (fun _ _ ↦ rfl) ?_ hnodup
    (iff_of_false hended hpoint) hkept (fun hidle ↦ by cases hidle) hnone ?_
    fun howner ↦ absurd howner (h.owner_ne_of_idle hphase hfree)
  · exact
      { hcustody with
        alive_client := by
          rw [hclient]
          refine ⟨Or.inl, ?_⟩
          rintro (hheld | hruns | htaken)
          · exact hheld
          · cases hruns
          · exact absurd htaken hnot
        alive_data := by
          rw [hdata]
          refine ⟨Or.inl, ?_⟩
          rintro (hheld | hhas)
          · exact hheld
          · cases hhas
        registered := by
          refine hmem.trans ⟨Or.inl, ?_⟩
          rintro (hlisted | ⟨⟨⟩, -⟩)
          exact hlisted
        holds := fun _ ↦ ⟨rfl, hnot, hfree⟩ }
  · intro m hm
    rw [hupdate]
    exact h.fresh m (Nat.le_trans hfresh hm)
  · intro hthread
    exact absurd (h.accept_over hthread) hpoint

/-- A connection is accepted. -/
theorem Custody.accept (h : Custody s alive phase owner stage) (hpoint : s.acceptPoint = .accepting)
    (hclient : ¬ alive (.client s.accepted)) :
    Custody { s with accepted := s.accepted + 1, acceptPoint := .adding s.accepted }
      (fun object ↦ (alive object ∨ object = .clientData s.accepted) ∨
        object = .client s.accepted) phase owner stage := by
  obtain ⟨hphase, hfree⟩ := h.fresh s.accepted (Nat.le_refl _)
  have hcustody := h.client s.accepted
  refine h.heldTo hphase hfree (fun htaken ↦ hclient (hcustody.alive_client.mpr
    (Or.inr (Or.inr htaken)))) (hpoint ▸ fun hended ↦ by cases hended) ?_
    (iff_of_true (Or.inr rfl) rfl) (iff_of_true (Or.inl (Or.inr rfl)) rfl) ?_ ?_ ?_
    (fun _ _ ↦ Iff.rfl) (Nat.le_succ _) h.nodup (fun hended ↦ by cases hended)
    (fun hdestroying ↦ by cases hdestroying) Iff.rfl
  · intro object hne hne'
    rw [or_iff_left hne, or_iff_left hne']
  · refine hcustody.registered.trans (iff_of_false ?_ fun hlists ↦ by cases hlists)
    rw [hpoint, hphase]
    rintro (hlists | ⟨⟨⟩, -⟩)
    cases hlists
  · intro m hm
    rw [hpoint]
    exact iff_of_false (fun hholds ↦ hm (Option.some.inj hholds).symm) fun hholds ↦ by cases hholds
  · intro m _
    rw [hpoint]
    exact Iff.rfl

section Held

variable {n : ℕ}

/-- The accept thread puts a client thread into the list. -/
theorem Custody.add {list : List ℕ} (h : Custody s alive phase owner stage)
    (hpoint : s.acceptPoint = .adding n) (hlist : s.clientThreads = some list) :
    Custody { s with clientThreads := some (list ++ [n]), acceptPoint := .starting n } alive phase
      owner stage := by
  have hcustody := h.client n
  have hholds : s.acceptPoint.holds = some n := by rw [hpoint]; rfl
  obtain ⟨hphase, hnot, hfree⟩ := hcustody.holds hholds
  have hregistered : s.registered = list := by
    rw [ServerFields.registered, hlist]
    rfl
  have hmem : n ∉ list := by
    rw [← hregistered, hcustody.registered, hpoint, hphase]
    rintro (hlists | ⟨⟨⟩, -⟩)
    cases hlists
  have hnodup := h.nodup
  rw [hregistered] at hnodup
  refine h.heldTo hphase hfree hnot (hpoint ▸ fun hended ↦ by cases hended)
    (fun _ _ _ ↦ Iff.rfl) (iff_of_true (hcustody.alive_client.mpr (Or.inl hholds)) rfl)
    (iff_of_true (hcustody.alive_data.mpr (Or.inl hholds)) rfl)
    (iff_of_true (List.mem_append_right _ List.mem_cons_self) rfl) ?_ ?_ ?_ (Nat.le_refl _) ?_
    (fun hended ↦ by cases hended) (fun hdestroying ↦ by cases hdestroying) ?_
  · intro m _
    rw [hpoint]
    exact Iff.rfl
  · intro m hm
    rw [hpoint]
    exact iff_of_false (fun hlists ↦ hm (Option.some.inj hlists).symm) fun hlists ↦ by cases hlists
  · intro m hm
    rw [hregistered]
    change m ∈ list ++ [n] ↔ m ∈ list
    rw [List.mem_append, List.mem_singleton, or_iff_left hm]
  · have hswap : List.Perm (n :: list) (list ++ [n]) := (List.perm_append_singleton n list).symm
    exact hswap.nodup (List.nodup_cons.mpr ⟨hmem, hnodup⟩)
  · rw [hlist]
    exact iff_of_false (Option.some_ne_none _) (Option.some_ne_none _)

/-- The accept thread takes a client thread that it could not start from the list. -/
theorem Custody.remove (h : Custody s alive phase owner stage)
    (hpoint : s.acceptPoint = .removing n) :
    Custody { s with
      clientThreads := s.clientThreads.map (·.erase n), acceptPoint := .discarding n } alive phase
      owner stage := by
  have hcustody := h.client n
  have hholds : s.acceptPoint.holds = some n := by rw [hpoint]; rfl
  obtain ⟨hphase, hnot, hfree⟩ := hcustody.holds hholds
  have hregistered : (s.clientThreads.map (·.erase n)).getD [] = s.registered.erase n := by
    rw [ServerFields.registered]
    cases s.clientThreads <;> rfl
  refine h.heldTo hphase hfree hnot (hpoint ▸ fun hended ↦ by cases hended)
    (fun _ _ _ ↦ Iff.rfl) (iff_of_true (hcustody.alive_client.mpr (Or.inl hholds)) rfl)
    (iff_of_true (hcustody.alive_data.mpr (Or.inl hholds)) rfl) ?_ ?_ ?_ ?_ (Nat.le_refl _) ?_
    (fun hended ↦ by cases hended) (fun hdestroying ↦ by cases hdestroying)
    Option.map_eq_none_iff
  · rw [hregistered]
    exact iff_of_false h.nodup.not_mem_erase fun hlists ↦ by cases hlists
  · intro m _
    rw [hpoint]
    exact Iff.rfl
  · intro m hm
    rw [hpoint]
    exact iff_of_false (fun hlists ↦ by cases hlists) fun hlists ↦
      hm (Option.some.inj hlists).symm
  · intro m hm
    rw [hregistered]
    exact List.mem_erase_of_ne hm
  · rw [hregistered]
    exact h.nodup.erase n

/-- The accept thread frees a client thread that it could not start, and its data. -/
theorem Custody.discard (h : Custody s alive phase owner stage)
    (hpoint : s.acceptPoint = .discarding n) :
    Custody { s with acceptPoint := .testing }
      (fun object ↦ (alive object ∧ object ≠ .client n) ∧ object ≠ .clientData n) phase owner
      stage := by
  have hcustody := h.client n
  have hholds : s.acceptPoint.holds = some n := by rw [hpoint]; rfl
  obtain ⟨hphase, hnot, hfree⟩ := hcustody.holds hholds
  refine h.heldTo hphase hfree hnot (hpoint ▸ fun hended ↦ by cases hended) ?_ ?_ ?_ ?_ ?_ ?_
    (fun _ _ ↦ Iff.rfl) (Nat.le_refl _) h.nodup (fun hended ↦ by cases hended)
    (fun hdestroying ↦ by cases hdestroying) Iff.rfl
  · intro object hne hne'
    rw [and_iff_left hne', and_iff_left hne]
  · exact iff_of_false (fun halive ↦ halive.1.2 rfl) fun hheld ↦ by cases hheld
  · exact iff_of_false (fun halive ↦ halive.2 rfl) fun hheld ↦ by cases hheld
  · refine hcustody.registered.trans (iff_of_false ?_ fun hlists ↦ by cases hlists)
    rw [hpoint, hphase]
    rintro (hlists | ⟨⟨⟩, -⟩)
    cases hlists
  · intro m hm
    rw [hpoint]
    exact iff_of_false (fun hheld ↦ by cases hheld) fun hheld ↦ hm (Option.some.inj hheld).symm
  · intro m _
    rw [hpoint]
    exact Iff.rfl

/-- The accept thread starts a client thread. -/
theorem Custody.start (h : Custody s alive phase owner stage) (hpoint : s.acceptPoint = .starting n)
    (hborn : n < s.accepted) :
    Custody { s with
      clientFlags := fun other ↦ if other = n then ThreadFlags.started else s.clientFlags other
      acceptPoint := .testing }
      alive (Function.update phase n .attending) owner stage := by
  have hcustody := h.client n
  have hholds : s.acceptPoint.holds = some n := by rw [hpoint]; rfl
  obtain ⟨hphase, hnot, hfree⟩ := hcustody.holds hholds
  have hflags : (if n = n then ThreadFlags.started else s.clientFlags n) = ThreadFlags.started :=
    if_pos rfl
  refine h.threadTo (fun _ _ _ ↦ Iff.rfl) ?_ ?_ ?_ (fun _ _ ↦ Iff.rfl) (fun m hm ↦ if_neg hm) ?_
    h.nodup ?_ (fun hdestroying ↦ by cases hdestroying) ?_ Iff.rfl (fun _ ↦ id)
    fun howner ↦ absurd howner (h.owner_ne_of_idle hphase hfree)
  · exact
      { alive_client :=
          iff_of_true (hcustody.alive_client.mpr (Or.inl hholds)) (Or.inr (Or.inl rfl))
        alive_data := iff_of_true (hcustody.alive_data.mpr (Or.inl hholds)) (Or.inr rfl)
        registered := by
          refine iff_of_true (hcustody.registered.mpr (Or.inl ?_)) (Or.inr ⟨rfl, hfree⟩)
          rw [hpoint]
          rfl
        holds := fun hheld ↦ by cases hheld
        running := iff_of_true (congrArg ThreadFlags.isRunning hflags)
          ⟨rfl, fun h ↦ by cases h⟩
        stopWaiting := fun _ _ ↦ congrArg ThreadFlags.stopWaiting hflags
        exiting := fun hexiting ↦ by cases hexiting
        ownerStopping := by
          intro _ hstopping
          change s.ownerStopping n = true at hstopping
          rw [hfree] at hstopping
          cases hstopping
        of_taken := fun htaken ↦ absurd htaken hnot
        attending := by
          intro _ hpending
          rw [congrArg ThreadFlags.deletePending hflags] at hpending
          cases hpending
        leaving := fun _ _ hleaving ↦ by cases hleaving
        detached := fun _ hdetached ↦ by cases hdetached }
  · intro m hm
    rw [hpoint]
    exact iff_of_false (fun hheld ↦ by cases hheld) fun hheld ↦ hm (Option.some.inj hheld).symm
  · intro m hm
    rw [hpoint]
    exact iff_of_false (fun hlists ↦ by cases hlists) fun hlists ↦
      hm (Option.some.inj hlists).symm
  · intro m hm
    rw [Function.update_of_ne]
    · exact h.fresh m hm
    · rintro rfl
      exact absurd hborn (Nat.not_lt.mpr hm)
  · rw [hpoint]
    exact iff_of_false (fun hended ↦ by cases hended) fun hended ↦ by cases hended
  · rw [hpoint]
    exact fun _ hended ↦ by cases hended

end Held

/-! ### A new call -/

/-- A thread of the application begins to stop or to delete the server. -/
theorem Custody.call {b : Bool} {point : ShutdownPoint} (h : Custody s alive phase none none)
    (hcalled : s.deleteCalled = false) (hpending : s.deletePending = false)
    (hpoint : point = .stop .stop .testAccept ∨ point = .search) (hb : b = point.deletes) (t : ℕ) :
    Custody { s with deleteCalled := b } alive phase (some (.application t)) (some point) := by
  have hserver : alive .httpServer := by
    rcases h.alive_server with halive | ⟨-, -, -, hdelete | hdelete⟩
    · exact halive
    · rw [hcalled] at hdelete
      cases hdelete
    · rw [hpending] at hdelete
      cases hdelete
  obtain ⟨htakes, haccept, hlist⟩ :
      point.takes = none ∧ point.acceptFreed = false ∧ point.listFreed = false := by
    rcases hpoint with rfl | rfl <;> exact ⟨rfl, rfl, rfl⟩
  exact
    { h with
      client := by
        intro n
        refine (h.client n).congr Iff.rfl Iff.rfl Iff.rfl Iff.rfl Iff.rfl rfl rfl
          (fun howner ↦ by cases howner) (iff_of_false ?_ fun htaken ↦ by cases htaken.2)
        rintro ⟨-, htaken⟩
        rw [Option.bind_some, htakes] at htaken
        cases htaken
      alive_server := Or.inl hserver
      alive_accept := by
        rw [h.alive_accept, Option.any_some, haccept]
        rfl
      alive_list := by
        rw [h.alive_list, Option.any_some, hlist]
        rfl
      fits := by
        rintro _ ⟨⟩
        refine ⟨Option.some_ne_none _, ?_⟩
        rcases hpoint with rfl | rfl
        · exact ⟨(fun hcall ↦ by cases hcall), trivial⟩
        · trivial
      pending := by
        intro hpending'
        rw [hpending] at hpending'
        cases hpending'
      asked := fun _ howner ↦ by cases howner
      application := by
        intro _ _
        refine ⟨point, rfl, ?_⟩
        rcases hpoint with rfl | rfl
        · exact Or.inl ⟨_, rfl⟩
        · exact Or.inr ⟨rfl, hb⟩
      deleted := fun hdeleted ↦ Or.inr ⟨t, point, rfl, rfl, hb.symm.trans hdeleted⟩ }

/-- The listener of a client thread begins to delete the server. -/
theorem Custody.ask {n : ℕ} (h : Custody s alive phase none none) (hphase : phase n = .attending) :
    Custody s alive phase (some (.client n)) (some .search) := by
  have hserver := h.server_of_attending hphase
  exact
    { h with
      client := by
        intro m
        refine (h.client m).congr Iff.rfl Iff.rfl Iff.rfl Iff.rfl Iff.rfl rfl rfl
          (fun howner ↦ by cases howner) ?_
        exact iff_of_false (fun htaken ↦ by cases htaken.2) fun htaken ↦ by cases htaken.2
      alive_server := Or.inl hserver
      fits := by
        rintro _ ⟨⟩
        exact ⟨Option.some_ne_none _, trivial⟩
      pending := fun _ ↦ ⟨n, rfl⟩
      asked := by
        rintro m ⟨⟩
        have hcustody := h.client n
        rw [hphase] at hcustody ⊢
        refine Asked.searching (Bool.eq_false_iff.mpr fun hstopping ↦ ?_)
        rcases hcustody.ownerStopping rfl hstopping with howner | htaken
        · cases howner
        · cases htaken.2
      application := fun _ howner ↦ by cases howner
      deleted := by
        intro hdeleted
        rcases h.deleted hdeleted with hfreed | ⟨_, _, ⟨⟩, _⟩
        exact Or.inl hfreed }

end Mupnp.Http
