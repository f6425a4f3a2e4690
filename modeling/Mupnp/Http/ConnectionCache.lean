import Mupnp.Http.PersistentConnection

/-!
# Runs of the cache of persistent connections

What holds of the cache along a run of gets and puts: it has no more entries than it should and no
two for one host and port, every handle is in one entry or was released once (`Sound`), and an
entry whose time has not run out makes room for a new key only, as the least recently used one
(`DropsLeastRecentlyUsed`).

A put can spoil each of these: it forgets a connection that it replaces, it leaves an entry that it
renews at its place in the list, and it makes room even when it adds nothing. `IsAllowed` excludes
these calls, and a handle in the cache or released that is put for another key; `sound_of_run` is
about the runs without them.
-/

set_option autoImplicit false
set_option relaxedAutoImplicit false

namespace Mupnp.Http

open Foundation Util PersistentConnection

variable {α : Type*}

namespace ConnectionCache

/-! ### What a call does -/

/-- The first loop of a get removes the entries whose time has run out. -/
theorem clearExpired_eq (sysTime : ℤ) {turns : ℕ} {cache : ConnectionCache α}
    (hturns : cache.entries.length ≤ turns) :
    clearExpired sysTime turns cache =
      { entries := cache.entries.filter fun node ↦ !node.isExpired sysTime
        released := ((cache.entries.filter (isExpired sysTime)).map cacheData).reverse ++
          cache.released } := by
  induction turns generalizing cache with
  | zero =>
    obtain ⟨entries, released⟩ := cache
    obtain rfl : entries = [] := List.length_eq_zero_iff.mp (Nat.le_zero.mp hturns)
    rfl
  | succ turns ih =>
    rw [clearExpired]
    cases hfind : cache.entries.find? (isExpired sysTime) with
    | none =>
      have hall : ∀ node ∈ cache.entries, ¬ node.isExpired sysTime = true :=
        List.find?_eq_none.mp hfind
      have hkept : (cache.entries.filter fun node ↦ !node.isExpired sysTime) = cache.entries :=
        List.filter_eq_self.mpr fun node hnode ↦ by simpa using hall node hnode
      simp only [hkept, List.filter_eq_nil_iff.mpr hall, List.map_nil, List.reverse_nil,
        List.nil_append]
    | some node =>
      obtain ⟨hexpired, before, after, hentries, hbefore⟩ :=
        List.find?_eq_some_iff_append.mp hfind
      have hnone : ∀ other ∈ before, ¬ other.isExpired sysTime = true :=
        fun other hother ↦ by simpa using hbefore other hother
      have herase : cache.entries.eraseP (isExpired sysTime) = before ++ after := by
        rw [hentries, List.eraseP_append_right _ hnone, List.eraseP_cons_of_pos hexpired]
      have hshort : (before ++ after).length ≤ turns := by
        rw [hentries] at hturns
        simp only [List.length_append, List.length_cons] at hturns ⊢
        omega
      have hrest := @ih (delete ⟨before ++ after, cache.released⟩ node) hshort
      simp only [herase]
      rw [hrest, hentries]
      simp [delete, hexpired, List.filter_eq_nil_iff.mpr hnone]

/-- The first entry of a kind is changed at its place. -/
theorem modify_findIdx {p : PersistentConnection α → Bool} {node : PersistentConnection α}
    {before after : List (PersistentConnection α)} (hbefore : ∀ other ∈ before, p other = false)
    (hnode : p node = true) (f : PersistentConnection α → PersistentConnection α) :
    (before ++ node :: after).modify ((before ++ node :: after).findIdx p) f =
      before ++ f node :: after := by
  induction before with
  | nil => simp [List.findIdx_cons, hnode]
  | cons other rest ih =>
    obtain ⟨hother, hrest⟩ := List.forall_mem_cons.mp hbefore
    simp only [List.cons_append, List.findIdx_cons, hother, cond_false, List.modify_succ_cons,
      ih hrest]

/-- The entry for a key that is looked up, at its place in the list. -/
theorem exists_of_find?_eq_some {entries : List (PersistentConnection α)} {host : CString}
    {port : ℤ} {node : PersistentConnection α} (h : entries.find? (isFor host port) = some node) :
    ∃ before after, entries = before ++ node :: after ∧ node.key = (host, port) ∧
      entries.eraseP (isFor host port) = before ++ after ∧
      ∀ f : PersistentConnection α → PersistentConnection α,
        entries.modify (entries.findIdx (isFor host port)) f = before ++ f node :: after := by
  obtain ⟨hnode, before, after, rfl, hbefore⟩ := List.find?_eq_some_iff_append.mp h
  have hnone : ∀ other ∈ before, ¬ other.isFor host port = true :=
    fun other hother ↦ by simpa using hbefore other hother
  refine ⟨before, after, rfl, isFor_iff.mp hnode, ?_, fun f ↦ ?_⟩
  · rw [List.eraseP_append_right _ hnone, List.eraseP_cons_of_pos hnode]
  · exact modify_findIdx (fun other hother ↦ by simpa using hbefore other hother) hnode f

theorem not_mem_keys_of_find?_eq_none {entries : List (PersistentConnection α)} {host : CString}
    {port : ℤ} (h : entries.find? (isFor host port) = none) :
    (host, port) ∉ entries.map key := by
  intro hmem
  obtain ⟨node, hnode, hkey⟩ := List.mem_map.mp hmem
  exact List.find?_eq_none.mp h node hnode (isFor_iff.mpr hkey)

section calls

variable (cache : ConnectionCache α) (host : CString) (port : ℤ)

/-- What a get does: it removes the entries whose time has run out, and takes the entry that it
finds to the end of the list. -/
theorem get_cases (sysTime now : ℤ) :
    let kept := cache.entries.filter fun node ↦ !node.isExpired sysTime
    let released := ((cache.entries.filter (isExpired sysTime)).map cacheData).reverse ++
      cache.released
    (∃ node before after, kept = before ++ node :: after ∧ node.key = (host, port) ∧
        cache.get host port sysTime now =
          (some node.cacheData, ⟨before ++ after ++ [{ node with timestamp := now }], released⟩)) ∨
      cache.get host port sysTime now = (none, ⟨kept, released⟩) := by
  intro kept released
  have hcleared : clearExpired sysTime cache.entries.length cache = ⟨kept, released⟩ :=
    clearExpired_eq sysTime (Nat.le_refl _)
  unfold get
  rw [hcleared]
  dsimp only
  cases hfind : kept.find? (isFor host port) with
  | none => exact Or.inr rfl
  | some node =>
    obtain ⟨before, after, hkept, hkey, herase, -⟩ := exists_of_find?_eq_some hfind
    refine Or.inl ⟨node, before, after, hkept, hkey, ?_⟩
    simp only [herase]

/-- The cache in which a put that finds no entry adds one. -/
def makeRoom (cache : ConnectionCache α) : ConnectionCache α :=
  if persistentCacheSize ≤ cache.entries.length then
    match cache.entries with
    | [] => cache
    | oldest :: rest => delete ⟨rest, cache.released⟩ oldest
  else cache

/-- Room is made only when there is none, by the first entry. -/
theorem makeRoom_cases :
    (cache.entries.length < persistentCacheSize ∧ cache.makeRoom = cache) ∨
      ∃ oldest rest, cache.entries = oldest :: rest ∧
        persistentCacheSize ≤ cache.entries.length ∧
        cache.makeRoom = ⟨rest, oldest.cacheData :: cache.released⟩ := by
  by_cases hfull : persistentCacheSize ≤ cache.entries.length
  · obtain ⟨entries, released⟩ := cache
    cases entries with
    | nil => exact absurd hfull (Nat.not_succ_le_zero 4)
    | cons oldest rest => exact Or.inr ⟨oldest, rest, rfl, hfull, if_pos hfull⟩
  · exact Or.inl ⟨Nat.not_le.mp hfull, if_neg hfull⟩

variable [DecidableEq α]

/-- What a put does when there is an entry for the key: it renews the entry at its place, gives its
key to another handle at the end of the list, or removes it. -/
theorem put_of_find?_eq_some {node : PersistentConnection α}
    (h : cache.entries.find? (isFor host port) = some node) (data : Option α) (now : ℤ) :
    ∃ before after, cache.entries = before ++ node :: after ∧ node.key = (host, port) ∧
      cache.put host port data now =
        if data = some node.cacheData then
          ⟨before ++ { node with timestamp := now } :: after, cache.released⟩
        else
          match data with
          | some data => ⟨before ++ after ++ [⟨host, port, data, now⟩], cache.released⟩
          | none => ⟨before ++ after, node.cacheData :: cache.released⟩ := by
  obtain ⟨before, after, hentries, hkey, herase, hmodify⟩ := exists_of_find?_eq_some h
  refine ⟨before, after, hentries, hkey, ?_⟩
  rw [put, h]
  dsimp only
  by_cases hdata : data = some node.cacheData
  · rw [if_pos hdata, if_pos hdata, hmodify]
  · rw [if_neg hdata, if_neg hdata]
    cases data with
    | some data =>
      exact congrArg
        (fun entries ↦ ConnectionCache.mk (entries ++ [⟨host, port, data, now⟩]) cache.released)
        herase
    | none =>
      exact congrArg (fun entries ↦ ConnectionCache.mk entries (node.cacheData :: cache.released))
        herase

theorem put_of_find?_eq_none (h : cache.entries.find? (isFor host port) = none) (data : Option α)
    (now : ℤ) :
    cache.put host port data now =
      match data with
      | some data =>
        ⟨cache.makeRoom.entries ++ [⟨host, port, data, now⟩], cache.makeRoom.released⟩
      | none => cache.makeRoom := by
  rw [put, h]
  cases data <;> rfl

end calls

end ConnectionCache

/-! ### What holds along a run -/

namespace History

variable [DecidableEq α]

/-- The cache is not too large, has no two entries for one host and port, and every handle that was
put is in one entry or was released once. -/
structure Sound (history : History α) : Prop where
  bounded : history.cache.entries.length ≤ persistentCacheSize
  distinct : history.cache.keys.Nodup
  owned : ∀ handle ∈ history.put,
    history.cache.handles.count handle + history.cache.released.count handle = 1

/-- A call drops an entry of another key whose time has not run out only when the cache is full and
a new key is added, and then the least recently used one. -/
def DropsLeastRecentlyUsed (history : History α) (call : CacheCall α) : Prop :=
  ∀ node ∈ history.cache.entries, node.key ≠ call.key → node.isExpired call.clock = false →
    node.key ∉ (history.step call).cache.keys →
      persistentCacheSize ≤ history.cache.entries.length ∧ call.data.isSome = true ∧
        call.key ∉ history.cache.keys ∧
        LeastRecentlyUsed history.uses history.cache.keys node.key

/-- The calls of which the cache keeps track: a get, a put of a handle that was never put before for
a new key, a put of the same handle again for the key that was used last, and a put without a handle
unless it would drop an entry for nothing. -/
def IsAllowed (history : History α) : CacheCall α → Prop
  | .get .. => True
  | .put host port (some handle) _ =>
    match history.cache.entries.find? (isFor host port) with
    | some node => node.cacheData = handle ∧ history.cache.entries.getLast? = some node
    | none => handle ∉ history.put
  | .put host port none now =>
    (history.cache.entries.find? (isFor host port)).isSome = true ∨
      history.cache.entries.length < persistentCacheSize ∨
        ∀ oldest ∈ history.cache.entries.head?, oldest.isExpired now = true

instance (history : History α) (call : CacheCall α) :
    Decidable (history.IsAllowed call) :=
  match call with
  | .get .. => inferInstanceAs (Decidable True)
  | .put host port (some handle) _ =>
    match hfind : history.cache.entries.find? (isFor host port) with
    | some node =>
      decidable_of_iff (node.cacheData = handle ∧ history.cache.entries.getLast? = some node)
        (by simp only [IsAllowed, hfind])
    | none => decidable_of_iff (handle ∉ history.put) (by simp only [IsAllowed, hfind])
  | .put _ _ none _ =>
    inferInstanceAs (Decidable (_ ∨ _ ∨ ∀ oldest ∈ history.cache.entries.head?, _))

/-- What every allowed call keeps: the list is in the order of the last uses, and the handles are
accounted for. -/
structure Invariant (history : History α) : Prop where
  bounded : history.cache.entries.length ≤ persistentCacheSize
  recency : InRecencyOrder history.uses history.cache.keys
  balanced : Ledger.Balanced ⟨history.put, history.cache.released⟩ history.cache.handles

theorem Invariant.sound {history : History α} (h : Invariant history) : Sound history where
  bounded := h.bounded
  distinct := h.recency.nodup
  owned := by
    intro handle hput
    have hcount := List.count_eq_one_of_mem h.balanced.allocated_nodup hput
    rwa [← h.balanced.perm.count_eq, List.count_append] at hcount

omit [DecidableEq α] in
theorem invariant_empty : Invariant (empty : History α) where
  bounded := Nat.zero_le _
  recency := InRecencyOrder.nil
  balanced := Ledger.balanced_empty

/-- What a get keeps. -/
theorem invariant_get {history : History α} (h : Invariant history) (host : CString)
    (port sysTime now : ℤ) : Invariant (history.step (.get host port sysTime now)) := by
  have hsplit := (List.filter_append_perm (isExpired sysTime) history.cache.entries).map cacheData
  rw [List.map_append] at hsplit
  have hbalanced := (h.balanced.of_perm (((List.reverse_perm _).append_right _).trans hsplit)).free
  have hkept : InRecencyOrder history.uses ((history.cache.entries.filter fun node ↦
      !node.isExpired sysTime).map key) :=
    h.recency.sublist (List.filter_sublist.map key)
  have hlength := (List.length_filter_le (fun node ↦ !node.isExpired sysTime)
    history.cache.entries).trans h.bounded
  rw [step]
  rcases history.cache.get_cases host port sysTime now with
    ⟨node, before, after, heq, hkey, hget⟩ | hget
  · rw [hget]
    rw [heq] at hbalanced hkept hlength
    refine ⟨?_, ?_, hbalanced.of_perm ?_⟩
    · simpa [Nat.add_assoc, Nat.add_comm] using hlength
    · rw [List.map_append, List.map_cons, hkey] at hkept
      simpa [ConnectionCache.keys, ← hkey, key] using hkept.use
    · simpa [ConnectionCache.handles] using
        (List.perm_append_singleton node.cacheData (after.map cacheData)).append_left
          (before.map cacheData)
  · rw [hget]
    exact ⟨hlength, hkept, hbalanced⟩

/-- What a put keeps when it finds an entry. -/
theorem invariant_put_of_mem {history : History α} (h : Invariant history) {host : CString}
    {port : ℤ} {node : PersistentConnection α}
    (hfind : history.cache.entries.find? (isFor host port) = some node) {data : Option α} {now : ℤ}
    (hallowed : history.IsAllowed (.put host port data now)) :
    Invariant (history.step (.put host port data now)) := by
  obtain ⟨before, after, heq, hkey, hput⟩ :=
    history.cache.put_of_find?_eq_some host port hfind data now
  have hkeys : history.cache.keys = before.map key ++ (host, port) :: after.map key := by
    rw [ConnectionCache.keys, heq, List.map_append, List.map_cons, hkey]
  have hhandles : history.cache.handles =
      before.map cacheData ++ node.cacheData :: after.map cacheData := by
    rw [ConnectionCache.handles, heq, List.map_append, List.map_cons]
  have hrecency := h.recency
  have hbalanced := h.balanced
  have hbounded := h.bounded
  rw [hkeys] at hrecency
  rw [hhandles] at hbalanced
  rw [heq, List.length_append, List.length_cons] at hbounded
  rw [step, hput]
  cases data with
  | none =>
    refine ⟨?_, ?_, ?_⟩
    · simp only [reduceCtorEq, if_false, List.length_append]
      omega
    · have hsub : (before.map key ++ after.map key).Sublist
          (before.map key ++ (host, port) :: after.map key) :=
        (List.sublist_cons_self _ _).append_left _
      simpa [ConnectionCache.keys] using hrecency.sublist hsub
    · have hdead : Ledger.Balanced ⟨history.put, history.cache.released⟩
          ([node.cacheData] ++ (before.map cacheData ++ after.map cacheData)) := by
        rw [List.singleton_append]
        exact hbalanced.of_perm List.perm_middle.symm
      simpa [ConnectionCache.handles, Ledger.free] using hdead.free
  | some handle =>
    simp only [IsAllowed, hfind] at hallowed
    obtain ⟨hsame, hlast⟩ := hallowed
    have hknown : handle ∈ history.put :=
      hbalanced.mem_allocated (hsame ▸ List.mem_append_right _ List.mem_cons_self)
    have hafter : after = [] := by
      cases after with
      | nil => rfl
      | cons other rest =>
        have hmem : node ∈ other :: rest := by
          rw [heq, List.getLast?_append_cons, List.getLast?_cons_cons] at hlast
          exact List.mem_of_getLast? hlast
        have hnot := (List.nodup_cons.mp (List.nodup_middle.mp hrecency.nodup)).1
        exact absurd (List.mem_append_right _ (hkey ▸ List.mem_map_of_mem hmem)) hnot
    subst hafter
    have huse := hrecency.use
    refine ⟨?_, ?_, ?_⟩
    · simpa [hsame] using hbounded
    · simpa [hsame, ConnectionCache.keys, ← hkey, key] using huse
    · simpa [hsame, ConnectionCache.handles, hknown] using hbalanced

omit [DecidableEq α] in
/-- What making room keeps. -/
theorem invariant_makeRoom {history : History α} (h : Invariant history) :
    Invariant { history with cache := history.cache.makeRoom } ∧
      history.cache.makeRoom.entries.length < persistentCacheSize ∧
      history.cache.makeRoom.entries.Sublist history.cache.entries := by
  rcases history.cache.makeRoom_cases with ⟨hroom, hsame⟩ | ⟨oldest, rest, heq, -, hdrop⟩
  · rw [hsame]
    exact ⟨h, hroom, List.Sublist.refl _⟩
  · have hbounded := h.bounded
    rw [heq, List.length_cons] at hbounded
    have hsub : rest.Sublist history.cache.entries := heq ▸ List.sublist_cons_self oldest rest
    have hbalanced : Ledger.Balanced ⟨history.put, history.cache.released⟩
        ([oldest.cacheData] ++ rest.map cacheData) := by
      have hhandles := h.balanced
      rwa [ConnectionCache.handles, heq, List.map_cons] at hhandles
    rw [hdrop]
    exact ⟨⟨Nat.le_of_lt hbounded, h.recency.sublist (hsub.map key), hbalanced.free⟩, hbounded,
      hsub⟩

/-- What a put keeps when it finds no entry. -/
theorem invariant_put_of_not_mem {history : History α} (h : Invariant history) {host : CString}
    {port : ℤ} (hfind : history.cache.entries.find? (isFor host port) = none) {data : Option α}
    {now : ℤ} (hallowed : history.IsAllowed (.put host port data now)) :
    Invariant (history.step (.put host port data now)) := by
  obtain ⟨hmade, hroom, hsub⟩ := invariant_makeRoom h
  rw [step, history.cache.put_of_find?_eq_none host port hfind data now]
  cases data with
  | none => exact hmade
  | some handle =>
    simp only [IsAllowed, hfind] at hallowed
    have hnew : (host, port) ∉ history.cache.makeRoom.keys := fun hmem ↦
      ConnectionCache.not_mem_keys_of_find?_eq_none hfind ((hsub.map key).subset hmem)
    have hfresh : Ledger.Fresh ⟨history.put, history.cache.makeRoom.released⟩ [handle] :=
      ⟨List.nodup_singleton handle, fun object hobject ↦ by
        rwa [List.mem_singleton.mp hobject]⟩
    refine ⟨?_, ?_, ?_⟩
    · simpa using Nat.succ_le_of_lt hroom
    · simpa [ConnectionCache.keys, key] using hmade.recency.concat hnew
    · have halloc := (hmade.balanced.alloc hfresh).of_perm (List.perm_append_comm)
      simpa [ConnectionCache.handles, Ledger.alloc, hallowed] using halloc

/-- Every allowed call keeps the invariant. -/
theorem invariant_step {history : History α} (h : Invariant history) {call : CacheCall α}
    (hallowed : history.IsAllowed call) : Invariant (history.step call) := by
  cases call with
  | get host port sysTime now => exact invariant_get h host port sysTime now
  | put host port data now =>
    cases hfind : history.cache.entries.find? (isFor host port) with
    | none => exact invariant_put_of_not_mem h hfind hallowed
    | some node => exact invariant_put_of_mem h hfind hallowed

/-! ### What is dropped -/

/-- A get keeps every entry whose time has not run out. -/
theorem mem_keys_step_get {history : History α} {host : CString} {port sysTime now : ℤ}
    {node : PersistentConnection α} (hnode : node ∈ history.cache.entries)
    (hlive : node.isExpired sysTime = false) :
    node.key ∈ (history.step (.get host port sysTime now)).cache.keys := by
  have hkept : node.key ∈ (history.cache.entries.filter fun node ↦
      !node.isExpired sysTime).map key :=
    List.mem_map_of_mem (List.mem_filter.mpr ⟨hnode, by rw [hlive]; rfl⟩)
  rw [step]
  rcases history.cache.get_cases host port sysTime now with
    ⟨found, before, after, heq, -, hget⟩ | hget
  · rw [heq, List.map_append, List.map_cons] at hkept
    rw [hget]
    simp only [ConnectionCache.keys, List.map_append, List.map_cons, List.map_nil]
    have hmoved := List.perm_middle.trans (List.perm_append_singleton found.key
      (before.map key ++ after.map key)).symm
    exact hmoved.subset hkept
  · rw [hget]
    exact hkept

/-- A put that finds an entry keeps the others. -/
theorem mem_keys_step_put {history : History α} {host : CString} {port : ℤ}
    {found : PersistentConnection α}
    (hfind : history.cache.entries.find? (isFor host port) = some found) {data : Option α} {now : ℤ}
    {node : PersistentConnection α} (hnode : node ∈ history.cache.entries)
    (hne : node.key ≠ (host, port)) :
    node.key ∈ (history.step (.put host port data now)).cache.keys := by
  obtain ⟨before, after, heq, hkey, hput⟩ :=
    history.cache.put_of_find?_eq_some host port hfind data now
  have hother : node ∈ before ∨ node ∈ after := by
    rw [heq] at hnode
    rcases List.mem_append.mp hnode with hbefore | hrest
    · exact Or.inl hbefore
    · rcases List.mem_cons.mp hrest with rfl | hafter
      · exact absurd hkey hne
      · exact Or.inr hafter
  have hmem : node.key ∈ before.map key ∨ node.key ∈ after.map key :=
    hother.imp List.mem_map_of_mem List.mem_map_of_mem
  change node.key ∈ (history.cache.put host port data now).keys
  rw [hput]
  cases data with
  | none =>
    simp only [reduceCtorEq, if_false, ConnectionCache.keys, List.map_append]
    exact List.mem_append.mpr hmem
  | some handle =>
    split_ifs
    · simp only [ConnectionCache.keys, List.map_append, List.map_cons]
      exact List.mem_append.mpr (hmem.imp_right (List.mem_cons_of_mem _))
    · simp only [ConnectionCache.keys, List.map_append]
      exact List.mem_append_left _ (List.mem_append.mpr hmem)

/-- An allowed call drops no entry but the least recently used one, for a new key. -/
theorem dropsLeastRecentlyUsed {history : History α} (h : Invariant history) {call : CacheCall α}
    (hallowed : history.IsAllowed call) : history.DropsLeastRecentlyUsed call := by
  intro node hnode hne hlive hgone
  cases call with
  | get host port sysTime now => exact absurd (mem_keys_step_get hnode hlive) hgone
  | put host port data now =>
    cases hfind : history.cache.entries.find? (isFor host port) with
    | some found => exact absurd (mem_keys_step_put hfind hnode hne) hgone
    | none =>
      have hmade : node.key ∉ history.cache.makeRoom.keys := by
        intro hmem
        rw [step, history.cache.put_of_find?_eq_none host port hfind data now] at hgone
        cases data with
        | none => exact hgone hmem
        | some handle =>
          refine hgone ?_
          rw [ConnectionCache.keys, List.map_append]
          exact List.mem_append_left _ hmem
      rcases history.cache.makeRoom_cases with ⟨-, hsame⟩ | ⟨oldest, rest, heq, hfull, hdrop⟩
      · rw [hsame] at hmade
        exact absurd (List.mem_map_of_mem hnode) hmade
      · have hfirst : node = oldest := by
          rw [heq] at hnode
          refine (List.mem_cons.mp hnode).resolve_right fun hrest ↦ hmade ?_
          rw [hdrop]
          exact List.mem_map_of_mem hrest
        have hrecency := h.recency
        have hkeys : history.cache.keys = oldest.key :: rest.map key := by
          rw [ConnectionCache.keys, heq, List.map_cons]
        rw [hkeys] at hrecency
        cases data with
        | none =>
          rcases hallowed with hfound | hroom | hexpired
          · rw [hfind] at hfound
            cases hfound
          · exact absurd hfull (Nat.not_le.mpr hroom)
          · have hout := hexpired node (by rw [heq, hfirst]; rfl)
            rw [CacheCall.clock, hout] at hlive
            cases hlive
        | some handle =>
          refine ⟨hfull, rfl, ConnectionCache.not_mem_keys_of_find?_eq_none hfind, ?_⟩
          rw [hkeys, hfirst]
          exact hrecency.leastRecentlyUsed

/-- Along every run of allowed calls from the empty cache, the cache is sound and drops the least
recently used entry for a new key only. -/
theorem sound_of_run {calls : List (CacheCall α)} {history : History α}
    (hallowed : system.AllSteps IsAllowed empty calls)
    (hrun : system.run empty calls = some history) :
    Sound history ∧ ∀ call, history.IsAllowed call → history.DropsLeastRecentlyUsed call := by
  have hinvariant : Invariant history :=
    TransitionSystem.invariant_of_run_of_allSteps
      (fun s call s' hs hok hstep ↦ by
        obtain rfl : s.step call = s' := Option.some.inj hstep
        exact invariant_step hs hok)
      hallowed invariant_empty hrun
  exact ⟨hinvariant.sound, fun call ↦ dropsLeastRecentlyUsed hinvariant⟩

/-- Five connections fill the cache, the first one is used again, and a sixth one comes. -/
def evictingCalls : List (CacheCall ℕ) :=
  [.put "a".toList 80 (some 1) 0, .put "b".toList 80 (some 2) 1, .put "c".toList 80 (some 3) 2,
    .put "d".toList 80 (some 4) 3, .put "e".toList 80 (some 5) 4, .get "a".toList 80 5 5,
    .put "f".toList 80 (some 6) 6]

/-- The connection that was not used for the longest time goes. -/
theorem sound_of_run_sample :
    ∃ history, system.run empty evictingCalls = some history ∧ history.cache.released = [2] ∧
      Sound history ∧ ∀ call, history.IsAllowed call → history.DropsLeastRecentlyUsed call :=
  ⟨_, rfl, rfl, @sound_of_run ℕ _ evictingCalls _ (by decide +kernel) rfl⟩

/-- The connection that is replaced is forgotten. -/
theorem not_sound :
    ¬ ∀ (calls : List (CacheCall ℕ)) (history : History ℕ),
      system.run empty calls = some history →
        Sound history ∧ ∀ call, history.DropsLeastRecentlyUsed call := by
  intro h
  obtain ⟨hsound, -⟩ := h [.put "a".toList 80 (some 1) 0, .put "a".toList 80 (some 2) 1] _ rfl
  exact absurd (hsound.owned 1 (by decide)) (by decide)

end History

end Mupnp.Http
