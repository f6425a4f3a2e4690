import Mupnp.Discovery.PendingFetches
import Mupnp.Discovery.RootUniqueness

/-!
# Which announcement wins

Announcements of one root device from several locations, with their downloads in flight at the
same time. At most the first pending fetch is not superseded (`Announced`), and it is the one that
will publish; `System.outcome` is the location that the control point will end with. A commit
keeps it (`outcome_of_commit`), and an announcement makes it its own location exactly when
`LastWins` holds of the state it meets (`outcome_of_announcement`).

`last_announcement_wins_iff` is the result over runs: when every fetch has completed, the control
point holds one root device with the announced UDN, at the location of the last announcement, if
and only if `LastWins` held when that announcement was received. It fails when the location of a
fetch that was superseded meanwhile is announced again, which `markSuperseded` takes for a
duplicate, and when the location of the cached device is announced while a newer fetch is pending.
-/

set_option autoImplicit false
set_option relaxedAutoImplicit false

namespace Mupnp.Discovery

open Foundation Util Ssdp

/-! ### The root devices of one name -/

/-- The root devices with a UDN. -/
def rootsNamed (udn : CString) (devices : List Device) : List Device :=
  devices.filter fun root ↦ decide (root.udn = some udn)

/-- The location at which the control point has cached the root device with a UDN. -/
def cachedLocation (udn : CString) (devices : List Device) : Option CString :=
  (rootsNamed udn devices).head?.bind (·.ssdpPkt.getLocation)

/-- What the control point relies on when it looks for the root device with a UDN: the UDN is that
of the root in every tree where it occurs, no two roots have it, and the root has a location. -/
structure RootCached (udn : CString) (devices : List Device) : Prop where
  namesRootOnly : ∀ root ∈ devices, some udn ∈ deviceUdns [root] → root.udn = some udn
  unique : RootUdnsUnique devices
  located : ∀ root ∈ devices, root.udn = some udn →
    ∃ location, root.ssdpPkt.getLocation = some location

section RootCached

variable {udn : CString} {devices before after : List Device} {root dev : Device}

theorem mem_rootsNamed : root ∈ rootsNamed udn devices ↔ root ∈ devices ∧ root.udn = some udn := by
  simp [rootsNamed]

/-- A root device with a UDN is the only one. -/
theorem RootCached.rootsNamed_eq (hcached : RootCached udn (before ++ root :: after))
    (hne : udn ≠ []) (hudn : root.udn = some udn) :
    rootsNamed udn (before ++ root :: after) = [root] := by
  have hpairs := List.pairwise_map.mp hcached.unique
  obtain ⟨-, hfrom, hcross⟩ := List.pairwise_append.mp hpairs
  have hbefore : before.filter (fun dev ↦ decide (dev.udn = some udn)) = [] := by
    refine List.filter_eq_nil_iff.mpr fun dev hdev hname ↦ ?_
    exact hcross dev hdev root List.mem_cons_self udn hne (of_decide_eq_true hname) hudn
  have hafter : after.filter (fun dev ↦ decide (dev.udn = some udn)) = [] := by
    refine List.filter_eq_nil_iff.mpr fun dev hdev hname ↦ ?_
    exact (List.pairwise_cons.mp hfrom).1 dev hdev udn hne hudn (of_decide_eq_true hname)
  rw [rootsNamed, List.filter_append, List.filter_cons_of_pos (by simpa using hudn), hbefore,
    hafter,
    List.nil_append]

/-- There is one root device with a UDN, at a location, when that location is cached. -/
theorem RootCached.cachedLocation_eq_some_iff (hcached : RootCached udn devices) (hne : udn ≠ [])
    {location : CString} :
    cachedLocation udn devices = some location ↔
      ∃ root, rootsNamed udn devices = [root] ∧ root.ssdpPkt.getLocation = some location := by
  constructor
  · intro hlocation
    obtain ⟨root, hhead, hroot⟩ := Option.bind_eq_some_iff.mp hlocation
    obtain ⟨hmem, hudn⟩ := mem_rootsNamed.mp (List.mem_of_mem_head? hhead)
    obtain ⟨before, after, rfl⟩ := List.append_of_mem hmem
    exact ⟨root, hcached.rootsNamed_eq hne hudn, hroot⟩
  · rintro ⟨root, hroots, hlocation⟩
    rw [cachedLocation, hroots]
    exact hlocation

theorem isSome_searchByUdn_iff (hne : udn ≠ []) :
    (searchByUdn devices (some udn)).isSome = true ↔ some udn ∈ deviceUdns devices := by
  rw [searchByUdn_eq_find devices hne, List.find?_isSome]
  simp only [decide_eq_true_eq, deviceUdns, RoseTree.preorderIn, List.map_map, List.mem_map,
    Function.comp_apply]

/-- The lookup of the UDN leads to the root device that has it. -/
theorem RootCached.getRootDeviceByUdn_eq {ctrlPoint : ControlPoint}
    (hcached : RootCached udn ctrlPoint.deviceList) (hne : udn ≠ []) :
    ctrlPoint.getRootDeviceByUdn udn = (rootsNamed udn ctrlPoint.deviceList).head? := by
  rw [ControlPoint.getRootDeviceByUdn, if_neg (not_strlen_some_le_zero hne), ← List.head?_filter,
    rootsNamed]
  refine congrArg List.head? (List.filter_congr fun root hroot ↦ ?_)
  rw [Bool.eq_iff_iff, isSome_searchByUdn_iff hne, decide_eq_true_eq]
  constructor
  · exact hcached.namesRootOnly root hroot
  · intro hudn
    rw [← hudn, deviceUdns, RoseTree.preorderIn_cons]
    exact List.mem_cons_self

/-- The root device may be exchanged for one that has its UDN and a location. -/
theorem RootCached.replace (hcached : RootCached udn (before ++ root :: after))
    (hudn : root.udn = some udn) (hdev : dev.udn = some udn) {location : CString}
    (hlocation : dev.ssdpPkt.getLocation = some location) :
    RootCached udn (before ++ dev :: after) := by
  have hold : ∀ other ∈ before ++ dev :: after, other = dev ∨ other ∈ before ++ root :: after := by
    intro other hother
    rcases List.mem_append.mp hother with hmem | hmem
    · exact Or.inr (List.mem_append_left _ hmem)
    · rcases List.mem_cons.mp hmem with rfl | hmem
      · exact Or.inl rfl
      · exact Or.inr (List.mem_append_right _ (List.mem_cons_of_mem _ hmem))
  refine ⟨fun other hother hnamed ↦ ?_, hcached.unique.of_sublist ?_, fun other hother hname ↦ ?_⟩
  · rcases hold other hother with rfl | hmem
    · exact hdev
    · exact hcached.namesRootOnly other hmem hnamed
  · rw [List.map_append, List.map_append, List.map_cons, List.map_cons, hdev, hudn]
  · rcases hold other hother with rfl | hmem
    · exact ⟨location, hlocation⟩
    · exact hcached.located other hmem hname

/-- A root device with a UDN and a location may be added when no root device has the UDN. -/
theorem RootCached.append (hcached : RootCached udn devices) (hnone : rootsNamed udn devices = [])
    (hdev : dev.udn = some udn) {location : CString}
    (hlocation : dev.ssdpPkt.getLocation = some location) : RootCached udn (devices ++ [dev]) := by
  refine ⟨fun other hother hnamed ↦ ?_, ?_, fun other hother hname ↦ ?_⟩
  · rcases List.mem_append.mp hother with hmem | hmem
    · exact hcached.namesRootOnly other hmem hnamed
    · rwa [List.mem_singleton.mp hmem]
  · refine hcached.unique.append fun name hname hnew other hother hudn ↦ ?_
    obtain rfl : udn = name := Option.some.inj (hdev.symm.trans hnew)
    have hmem : other ∈ rootsNamed udn devices := mem_rootsNamed.mpr ⟨hother, hudn⟩
    rw [hnone] at hmem
    exact absurd hmem List.not_mem_nil
  · rcases List.mem_append.mp hother with hmem | hmem
    · exact hcached.located other hmem hname
    · exact ⟨location, by rwa [List.mem_singleton.mp hmem]⟩

end RootCached

namespace ControlPoint

/-- Changing the cached root device to one that keeps its UDN moves its location. -/
theorem rootCached_updateRoot {ctrlPoint : ControlPoint} {udn location : CString} {root : Device}
    (hnodup : (deviceIds ctrlPoint.deviceList).Nodup)
    (hcached : RootCached udn ctrlPoint.deviceList) (hne : udn ≠ [])
    (hroot : (rootsNamed udn ctrlPoint.deviceList).head? = some root) (f : Device → Device)
    (hudn : (f root).udn = root.udn) (hlocation : (f root).ssdpPkt.getLocation = some location) :
    RootCached udn (ctrlPoint.updateRoot root.id f).deviceList ∧
      cachedLocation udn (ctrlPoint.updateRoot root.id f).deviceList = some location := by
  obtain ⟨hmem, hname⟩ := mem_rootsNamed.mp (List.mem_of_mem_head? hroot)
  obtain ⟨before, after, hsplit, -, hupdate⟩ := updateRoot_deviceList hnodup hmem f
  have hnew := (hsplit ▸ hcached).replace hname (hudn.trans hname) hlocation
  rw [hupdate]
  refine ⟨hnew, ?_⟩
  rw [cachedLocation, hnew.rootsNamed_eq hne (hudn.trans hname)]
  exact hlocation

/-- When no root device has the UDN, no object has it. -/
theorem getDeviceByUdn_eq_none_of_rootsNamed {ctrlPoint : ControlPoint} {udn : CString}
    (hcached : RootCached udn ctrlPoint.deviceList) (hne : udn ≠ [])
    (hnone : rootsNamed udn ctrlPoint.deviceList = []) :
    ctrlPoint.getDeviceByUdn (some udn) = none := by
  rw [getDeviceByUdn_eq_find ctrlPoint hne, List.find?_eq_none]
  intro dev hdev hudn
  have hobject : dev.value ∈ RoseTree.preorderIn ctrlPoint.deviceList := List.mem_map_of_mem hdev
  obtain ⟨root, hroot, hbelow⟩ := RoseTree.mem_preorderIn_iff.mp hobject
  have hnamed : some udn ∈ deviceUdns [root] := by
    rw [← of_decide_eq_true hudn, deviceUdns]
    refine List.mem_map_of_mem (RoseTree.mem_preorderIn_iff.mpr ?_)
    exact ⟨root, List.mem_cons_self, hbelow⟩
  have hmem : root ∈ rootsNamed udn ctrlPoint.deviceList :=
    mem_rootsNamed.mpr ⟨hroot, hcached.namesRootOnly root hroot hnamed⟩
  rw [hnone] at hmem
  exact absurd hmem List.not_mem_nil

/-- A commit that nothing forbids caches the root device at the location of its packet. -/
theorem rootCached_commit {ctrlPoint : ControlPoint} {udn location : CString}
    (hnodup : (deviceIds ctrlPoint.deviceList).Nodup)
    (hcached : RootCached udn ctrlPoint.deviceList) (hne : udn ≠ []) {fetch : Fetch}
    (hfetch : fetch.udn = udn) {reservation : Reservation}
    (hpublish : ctrlPoint.MayPublish fetch reservation)
    (hreservation : reservation.cachedLocation = cachedLocation udn ctrlPoint.deviceList)
    {candidate : Device} (hcandidate : candidate.udn = some udn) {ssdpPkt : SsdpPacket}
    (hpacket : ssdpPkt.getLocation = some location)
    (hlocation : candidate.ssdpPkt.getLocation = some location) (now : ℤ) :
    RootCached udn (ctrlPoint.commit fetch ssdpPkt reservation (some candidate) now).1.deviceList ∧
      cachedLocation udn
        (ctrlPoint.commit fetch ssdpPkt reservation (some candidate) now).1.deviceList =
          some location := by
  obtain ⟨hrunning, hsuperseded, hepoch⟩ := hpublish
  have hroot := hcached.getRootDeviceByUdn_eq hne
  have hguard : (!ctrlPoint.stopping && !fetch.superseded &&
      reservation.epoch == ctrlPoint.discoveryEpoch) = true := by
    simp [hrunning, hsuperseded, hepoch]
  simp only [commit, hguard, if_true, publish, hfetch, hroot, hreservation]
  cases hhead : (rootsNamed udn ctrlPoint.deviceList).head? with
  | none =>
    have hnone : rootsNamed udn ctrlPoint.deviceList = [] := List.head?_eq_none_iff.mp hhead
    have hnew := getDeviceByUdn_eq_none_of_rootsNamed hcached hne hnone
    simp only [hcandidate, hnew]
    have hadded := hcached.append hnone hcandidate hlocation
    refine ⟨hadded, ?_⟩
    rw [cachedLocation, hadded.rootsNamed_eq hne hcandidate]
    exact hlocation
  | some dev =>
    obtain ⟨hmem, hudn⟩ := mem_rootsNamed.mp (List.mem_of_mem_head? hhead)
    obtain ⟨current, hcurrent⟩ := hcached.located dev hmem hudn
    have hsame : streq (cachedLocation udn ctrlPoint.deviceList) dev.ssdpPkt.getLocation =
        true := by
      rw [cachedLocation, hhead, Option.bind_some, hcurrent, streq_some_some]
    have haccepted : streq candidate.udn dev.udn = true := by
      rw [hcandidate, hudn, streq_some_some]
    simp only [hsame, Bool.not_true, Bool.false_eq_true, if_false]
    refine rootCached_updateRoot hnodup hcached hne hhead _ ?_ ?_
    · exact (updateFromDevice_fst_id_udn dev candidate ssdpPkt now).2
    · rw [SsdpPacket.getLocation, SsdpPacket.getHeaderValue, updateFromDevice_fst_headers haccepted]
      exact hpacket

/-- A description that declares the announced UDN becomes a candidate. -/
theorem createCandidate_of_udn {description : Device} {udn : CString}
    (hudn : description.udn = some udn) (ssdpPkt : SsdpPacket) (fetchTime : ℤ) :
    createCandidate ssdpPkt udn (some description) fetchTime =
      some (description.setSsdpPacket ssdpPkt fetchTime) := by
  have hdeclares : streq (description.setSsdpPacket ssdpPkt fetchTime).udn (some udn) = true := by
    rw [← hudn]
    show streq description.udn description.udn = true
    rw [hudn, streq_some_some]
  simp [createCandidate, hdeclares]

/-- A fetch that was superseded publishes nothing. -/
theorem commit_deviceList_of_superseded (ctrlPoint : ControlPoint) {fetch : Fetch}
    (hsuperseded : fetch.superseded = true) (ssdpPkt : SsdpPacket) (reservation : Reservation)
    (candidate : Option Device) (now : ℤ) :
    (ctrlPoint.commit fetch ssdpPkt reservation candidate now).1.deviceList =
      ctrlPoint.deviceList := by
  simp [commit, hsuperseded]

/-! ### Superseding -/

/-- The mark of the loop over the pending fetches. -/
def supersede (fetch : Fetch) : Fetch := { fetch with superseded := true }

/-- Among fetches of one root, the loop marks those before the first one of the same location. -/
theorem markSuperseded_eq (fetch : Fetch) (pendingFetches : List Fetch)
    (hudn : ∀ pending ∈ pendingFetches, pending.udn = fetch.udn) :
    (pendingFetches.find? (fun pending ↦ decide (pending.location = fetch.location)) = none ∧
        markSuperseded fetch pendingFetches = (pendingFetches.map supersede, false)) ∨
      ∃ before same after, pendingFetches = before ++ same :: after ∧
        pendingFetches.find? (fun pending ↦ decide (pending.location = fetch.location)) =
          some same ∧
        same.location = fetch.location ∧
        markSuperseded fetch pendingFetches = (before.map supersede ++ same :: after, true) := by
  induction pendingFetches with
  | nil => exact Or.inl ⟨rfl, rfl⟩
  | cons pending rest ih =>
    have hpending : streq (some pending.udn) (some fetch.udn) = true := by
      rw [hudn pending List.mem_cons_self, streq_some_some]
    by_cases hlocation : pending.location = fetch.location
    · refine Or.inr ⟨[], pending, rest, rfl, ?_, hlocation, ?_⟩
      · exact List.find?_cons_of_pos (by simpa using hlocation)
      · rw [markSuperseded, if_pos (by rw [hlocation, streq_some_some])]
        rfl
    · have hother : streq (some pending.location) (some fetch.location) = false := by
        rw [Bool.eq_false_iff, Ne, streq_eq_true_iff]
        rintro ⟨common, hleft, hright⟩
        exact hlocation (Option.some.inj (hleft.trans hright.symm))
      have hmark : markSuperseded fetch (pending :: rest) =
          (supersede pending :: (markSuperseded fetch rest).1, (markSuperseded fetch rest).2) := by
        simp only [markSuperseded, hother, hpending, Bool.true_or, Bool.false_eq_true, if_false,
          if_true]
        rfl
      rw [hmark, List.find?_cons_of_neg (by simpa using hlocation)]
      rcases ih fun other hmem ↦ hudn other (List.mem_cons_of_mem _ hmem) with
        ⟨hnone, hall⟩ | ⟨before, same, after, hsplit, hfind, hsame, hmarked⟩
      · rw [hall]
        exact Or.inl ⟨hnone, rfl⟩
      · rw [hmarked]
        exact Or.inr ⟨pending :: before, same, after, by rw [hsplit]; rfl, hfind, hsame, rfl⟩

/-- What the UDN of the root is set to decides nothing. -/
theorem enqueue_eq (ctrlPoint : ControlPoint) (owner : ThreadId) (udn location : CString)
    (dev : Option Device) (memory : Bool) :
    ∃ rootUdn : CString, ctrlPoint.enqueue owner udn location dev memory =
      if (markSuperseded ⟨owner, udn, rootUdn, location, false⟩ ctrlPoint.pendingFetches).2 then
        ({ ctrlPoint with
          pendingFetches := (markSuperseded ⟨owner, udn, rootUdn, location, false⟩
            ctrlPoint.pendingFetches).1 }, none)
      else if memory = false then
        ({ ctrlPoint with
          pendingFetches := (markSuperseded ⟨owner, udn, rootUdn, location, false⟩
            ctrlPoint.pendingFetches).1 }, none)
      else
        ({ ctrlPoint with
          pendingFetches := ⟨owner, udn, rootUdn, location, false⟩ ::
            (markSuperseded ⟨owner, udn, rootUdn, location, false⟩ ctrlPoint.pendingFetches).1 },
          some ⟨ctrlPoint.discoveryEpoch, dev.bind (·.ssdpPkt.getLocation)⟩) := by
  cases dev with
  | none => exact ⟨_, rfl⟩
  | some dev => exact ⟨_, rfl⟩

/-- Among fetches of one root, an announcement that is not a refresh is a duplicate, or it lacks
memory, or it is reserved. -/
theorem enqueue_cases {ctrlPoint : ControlPoint} {udn : CString}
    (hudn : ∀ pending ∈ ctrlPoint.pendingFetches, pending.udn = udn) (owner : ThreadId)
    (location : CString) (dev : Option Device) (memory : Bool) :
    (∃ before same after, ctrlPoint.pendingFetches = before ++ same :: after ∧
        ctrlPoint.pendingFetches.find? (fun pending ↦ decide (pending.location = location)) =
          some same ∧ same.location = location ∧
        ctrlPoint.enqueue owner udn location dev memory =
          ({ ctrlPoint with pendingFetches := before.map supersede ++ same :: after }, none)) ∨
      ctrlPoint.pendingFetches.find? (fun pending ↦ decide (pending.location = location)) = none ∧
        (memory = false ∧ ctrlPoint.enqueue owner udn location dev memory =
            ({ ctrlPoint with pendingFetches := ctrlPoint.pendingFetches.map supersede }, none) ∨
          memory = true ∧ ∃ fetch : Fetch, fetch.owner = owner ∧ fetch.udn = udn ∧
            fetch.location = location ∧ fetch.superseded = false ∧
            ctrlPoint.enqueue owner udn location dev memory =
              ({ ctrlPoint with pendingFetches := fetch :: ctrlPoint.pendingFetches.map supersede },
                some ⟨ctrlPoint.discoveryEpoch, dev.bind (·.ssdpPkt.getLocation)⟩)) := by
  obtain ⟨rootUdn, henqueue⟩ := ctrlPoint.enqueue_eq owner udn location dev memory
  rw [henqueue]
  generalize hfetch : (⟨owner, udn, rootUdn, location, false⟩ : Fetch) = fetch
  have hfetchUdn : fetch.udn = udn := by rw [← hfetch]
  have hfetchLocation : fetch.location = location := by rw [← hfetch]
  rcases markSuperseded_eq fetch ctrlPoint.pendingFetches (by rwa [hfetchUdn]) with
    ⟨hnone, hmarked⟩ | ⟨before, same, after, hsplit, hfind, hsame, hmarked⟩
  · rw [hfetchLocation] at hnone
    refine Or.inr ⟨hnone, ?_⟩
    simp only [hmarked, Bool.false_eq_true, if_false]
    cases memory with
    | false => exact Or.inl ⟨rfl, rfl⟩
    | true =>
      refine Or.inr ⟨rfl, fetch, ?_, hfetchUdn, hfetchLocation, ?_, rfl⟩
      · rw [← hfetch]
      · rw [← hfetch]
  · rw [hfetchLocation] at hfind hsame
    refine Or.inl ⟨before, same, after, hsplit, hfind, hsame, ?_⟩
    simp only [hmarked, if_true]

end ControlPoint

/-- The pending fetch that is not superseded. -/
def newestFetch (pendingFetches : List Fetch) : Option Fetch :=
  pendingFetches.find? fun fetch ↦ !fetch.superseded

/-- At most the first pending fetch is not superseded. -/
def OnlyFirstCounts (pendingFetches : List Fetch) : Prop :=
  ∀ fetch ∈ pendingFetches.tail, fetch.superseded = true

section newestFetch

variable {pendingFetches before after : List Fetch} {fetch : Fetch}

theorem newestFetch_eq_none_iff :
    newestFetch pendingFetches = none ↔ ∀ fetch ∈ pendingFetches, fetch.superseded = true := by
  simp [newestFetch]

theorem newestFetch_map_supersede :
    newestFetch (pendingFetches.map ControlPoint.supersede) = none := by
  refine newestFetch_eq_none_iff.mpr fun fetch hfetch ↦ ?_
  obtain ⟨pending, -, rfl⟩ := List.mem_map.mp hfetch
  rfl

theorem OnlyFirstCounts.of_sublist (h : OnlyFirstCounts pendingFetches)
    (hsub : before.Sublist pendingFetches) : OnlyFirstCounts before :=
  fun fetch hfetch ↦ h fetch (hsub.tail.subset hfetch)

theorem onlyFirstCounts_of_newestFetch_eq_none (h : newestFetch pendingFetches = none) :
    OnlyFirstCounts pendingFetches :=
  fun fetch hfetch ↦ newestFetch_eq_none_iff.mp h fetch (List.mem_of_mem_tail hfetch)

/-- The pending fetch that is not superseded is the first one. -/
theorem OnlyFirstCounts.before_eq_nil (h : OnlyFirstCounts (before ++ fetch :: after))
    (hfetch : fetch.superseded = false) : before = [] := by
  cases before with
  | nil => rfl
  | cons first rest =>
    have hmem : fetch ∈ (first :: rest ++ fetch :: after).tail :=
      List.mem_append_right rest List.mem_cons_self
    rw [h fetch hmem] at hfetch
    cases hfetch

/-- The fetches behind any pending fetch are superseded. -/
theorem OnlyFirstCounts.superseded_of_mem_after (h : OnlyFirstCounts (before ++ fetch :: after)) :
    ∀ other ∈ after, other.superseded = true := by
  intro other hother
  refine h other ?_
  cases before with
  | nil => exact hother
  | cons first rest => exact List.mem_append_right rest (List.mem_cons_of_mem _ hother)

theorem newestFetch_cons (hfetch : fetch.superseded = false) :
    newestFetch (fetch :: after) = some fetch :=
  List.find?_cons_of_pos (by simp [hfetch])

/-- Taking a superseded fetch out does not change which one is not superseded. -/
theorem newestFetch_append_cons (hfetch : fetch.superseded = true) :
    newestFetch (before ++ fetch :: after) = newestFetch (before ++ after) := by
  rw [newestFetch, newestFetch, List.find?_append, List.find?_append,
    List.find?_cons_of_neg (by simp [hfetch])]

end newestFetch

/-! ### The invariant -/

/-- The announcements of one root device are in flight. -/
structure Announced (udn : CString) (s : System) : Prop where
  accounted : s.Accounted
  tracked : s.Tracked
  running : s.ctrlPoint.stopping = false
  cached : RootCached udn s.ctrlPoint.deviceList
  targets : ∀ fetch ∈ s.ctrlPoint.pendingFetches, fetch.udn = udn
  onlyFirstCounts : OnlyFirstCounts s.ctrlPoint.pendingFetches
  newest : ∀ fetch, newestFetch s.ctrlPoint.pendingFetches = some fetch →
    ∃ ssdpPkt reservation, s.thread fetch.owner = .fetching ssdpPkt reservation ∧
      reservation.epoch = s.ctrlPoint.discoveryEpoch ∧
      reservation.cachedLocation = cachedLocation udn s.ctrlPoint.deviceList ∧
      cachedLocation udn s.ctrlPoint.deviceList ≠ some fetch.location

/-- Nothing is in flight, and the control point does not stop. -/
structure Settled (udn : CString) (s : System) : Prop where
  accounted : s.Accounted
  tracked : s.Tracked
  running : s.ctrlPoint.stopping = false
  cached : RootCached udn s.ctrlPoint.deviceList
  idle : s.ctrlPoint.pendingFetches = []

/-- When every pending fetch is superseded, none has to meet a condition. -/
theorem Announced.of_superseded {udn : CString} {s : System} (haccounted : s.Accounted)
    (htracked : s.Tracked) (hrunning : s.ctrlPoint.stopping = false)
    (hcached : RootCached udn s.ctrlPoint.deviceList)
    (htargets : ∀ fetch ∈ s.ctrlPoint.pendingFetches, fetch.udn = udn)
    (hnone : newestFetch s.ctrlPoint.pendingFetches = none) : Announced udn s := by
  refine ⟨haccounted, htracked, hrunning, hcached, htargets,
    onlyFirstCounts_of_newestFetch_eq_none hnone, ?_⟩
  rw [hnone]
  exact fun fetch hfetch ↦ by cases hfetch

/-- What keeps the pending fetches, their threads and where the root device is cached keeps the
invariant. -/
theorem Announced.of_kept {udn : CString} {s s' : System} (h : Announced udn s)
    (haccounted : s'.Accounted) (htracked : s'.Tracked) (hrunning : s'.ctrlPoint.stopping = false)
    (hcached : RootCached udn s'.ctrlPoint.deviceList)
    (hpending : s'.ctrlPoint.pendingFetches = s.ctrlPoint.pendingFetches)
    (hepoch : s'.ctrlPoint.discoveryEpoch = s.ctrlPoint.discoveryEpoch)
    (hlocation : cachedLocation udn s'.ctrlPoint.deviceList =
      cachedLocation udn s.ctrlPoint.deviceList)
    (howners : ∀ fetch ∈ s.ctrlPoint.pendingFetches, s'.thread fetch.owner = s.thread fetch.owner) :
    Announced udn s' := by
  refine ⟨haccounted, htracked, hrunning, hcached, ?_, ?_, ?_⟩
  · rw [hpending]
    exact h.targets
  · rw [hpending]
    exact h.onlyFirstCounts
  · rw [hpending, hepoch, hlocation]
    intro fetch hfetch
    rw [howners fetch (List.mem_of_find?_eq_some hfetch)]
    exact h.newest fetch hfetch

theorem Settled.announced {udn : CString} {s : System} (h : Settled udn s) : Announced udn s where
  accounted := h.accounted
  tracked := h.tracked
  running := h.running
  cached := h.cached
  targets := by simp [h.idle]
  onlyFirstCounts := by simp [h.idle, OnlyFirstCounts]
  newest := by simp [h.idle, newestFetch]

theorem settled_init (udn : CString) (deviceListener : Bool) :
    Settled udn (System.init deviceListener) where
  accounted := System.accounted_init deviceListener
  tracked := System.tracked_init deviceListener
  running := rfl
  cached := ⟨fun _ h ↦ absurd h List.not_mem_nil, List.Pairwise.nil,
    fun _ h ↦ absurd h List.not_mem_nil⟩
  idle := rfl

/-- A download ends with a description of the root device. -/
def Action.describes (udn : CString) : Action → Bool
  | .commit _ (some description) _ _ => decide (description.udn = some udn)
  | _ => false

/-- The USN of an announcement names the root device. -/
def Action.announces (udn : CString) (a : Action) : Bool :=
  a.announcement.any fun ssdpPkt ↦ decide (usnGetUdn ssdpPkt.getUsn udnLenMax = udn)

/-- The string for the cached location can be allocated when the announcement is received. -/
def Action.memory : Action → Bool
  | .ssdpNotify _ _ _ memory | .ssdpResponse _ _ _ memory => memory
  | _ => true

namespace System

/-- The location that the root device will be cached at when the pending fetches have completed. -/
def outcome (udn : CString) (s : System) : Option CString :=
  match newestFetch s.ctrlPoint.pendingFetches with
  | some fetch => some fetch.location
  | none => cachedLocation udn s.ctrlPoint.deviceList

/-- An announcement of a location will decide where the root device is cached: it refreshes the
cached device while no other fetch is about to replace it, or it is a duplicate of a fetch that is
not superseded, or it is fetched. -/
def LastWins (udn : CString) (s : System) (location : CString) (memory : Bool) : Prop :=
  if cachedLocation udn s.ctrlPoint.deviceList = some location then
    newestFetch s.ctrlPoint.pendingFetches = none
  else
    match s.ctrlPoint.pendingFetches.find? fun fetch ↦ decide (fetch.location = location) with
    | some fetch => fetch.superseded = false
    | none => memory = true

theorem outcome_of_newestFetch {udn : CString} {s : System} {fetch : Fetch}
    (h : newestFetch s.ctrlPoint.pendingFetches = some fetch) :
    s.outcome udn = some fetch.location := by
  rw [outcome, h]

theorem outcome_of_newestFetch_eq_none {udn : CString} {s : System}
    (h : newestFetch s.ctrlPoint.pendingFetches = none) :
    s.outcome udn = cachedLocation udn s.ctrlPoint.deviceList := by
  rw [outcome, h]

/-- A download that ends with a description of the root device does not change where the root
device will be cached. -/
theorem outcome_of_commit {udn : CString} (hne : udn ≠ []) {s s' : System} {a : Action}
    (h : Announced udn s) (ha : a.describes udn = true) (hstep : s.step a = some s') :
    Announced udn s' ∧ s'.outcome udn = s.outcome udn := by
  have haccounted := accounted_of_step h.accounted hstep
  have htracked := tracked_of_step h.tracked hstep
  obtain ⟨t, description, fetchTime, now, rfl, hdescribes⟩ :
      ∃ t description fetchTime now, a = .commit t (some description) fetchTime now ∧
        description.udn = some udn := by
    cases a with
    | commit t description fetchTime now =>
      cases description with
      | none => cases ha
      | some description => exact ⟨t, description, fetchTime, now, rfl, of_decide_eq_true ha⟩
    | _ => cases ha
  obtain ⟨ssdpPkt, reservation, fetch, hthread, hfetch, -, hs'⟩ := step_commit_eq_some hstep
  obtain ⟨hdecide, before, after, hsplit, hbefore⟩ := List.find?_eq_some_iff_append.mp hfetch
  have howner : fetch.owner = t := of_decide_eq_true hdecide
  have hmem : fetch ∈ s.ctrlPoint.pendingFetches := List.mem_of_find?_eq_some hfetch
  have hudn : fetch.udn = udn := h.targets fetch hmem
  obtain ⟨packet, reservation', hfetching, htarget⟩ :=
    h.tracked.fetching fetch.key (List.mem_map_of_mem hmem)
  have hsame : Thread.fetching packet reservation' = .fetching ssdpPkt reservation := by
    rw [← hfetching, ← hthread, ← howner]
    rfl
  obtain ⟨rfl, rfl⟩ := Thread.fetching.inj hsame
  have hlocation : packet.getLocation = some fetch.location :=
    (ControlPoint.fetchTarget_eq_some htarget).2.2.1
  have hcandidate := ControlPoint.createCandidate_of_udn hdescribes packet fetchTime
  have hcommit := ControlPoint.commit_fst_eq s.ctrlPoint fetch packet reservation'
    (some (description.setSsdpPacket packet fetchTime)) now
  have hctrlPoint : s'.ctrlPoint = (s.ctrlPoint.commit fetch packet reservation'
      (some (description.setSsdpPacket packet fetchTime)) now).1 := by
    rw [hs']
    simp only [commitFetch, update, hudn, hcandidate]
  have hpending : s'.ctrlPoint.pendingFetches = before ++ after := by
    rw [hctrlPoint, hcommit, hsplit, howner, List.eraseP_append_right _ (by simpa using hbefore),
      List.eraseP_cons_of_pos (by simpa using howner)]
  have hrunning : s'.ctrlPoint.stopping = false := by
    rw [hctrlPoint, hcommit]
    exact h.running
  have hepoch : s'.ctrlPoint.discoveryEpoch = s.ctrlPoint.discoveryEpoch := by
    rw [hctrlPoint, hcommit]
  have hsub : (before ++ after).Sublist s.ctrlPoint.pendingFetches := by
    rw [hsplit]
    exact (List.Sublist.refl before).append (List.sublist_cons_self fetch after)
  have htargets : ∀ other ∈ s'.ctrlPoint.pendingFetches, other.udn = udn :=
    fun other hother ↦ h.targets other (hsub.subset (hpending ▸ hother))
  have hfirst : OnlyFirstCounts s'.ctrlPoint.pendingFetches :=
    hpending ▸ h.onlyFirstCounts.of_sublist hsub
  cases hsuperseded : fetch.superseded with
  | true =>
    have hdevices : s'.ctrlPoint.deviceList = s.ctrlPoint.deviceList := by
      rw [hctrlPoint, ControlPoint.commit_deviceList_of_superseded _ hsuperseded]
    have hnewest : newestFetch s'.ctrlPoint.pendingFetches =
        newestFetch s.ctrlPoint.pendingFetches := by
      rw [hpending, hsplit, newestFetch_append_cons hsuperseded]
    refine ⟨⟨haccounted, htracked, hrunning, hdevices ▸ h.cached, htargets, hfirst, ?_⟩, ?_⟩
    · intro other hother
      have hfresh : other.owner ≠ t := by
        rintro rfl
        have hmem' : other ∈ s'.ctrlPoint.pendingFetches := List.mem_of_find?_eq_some hother
        have hdone : (s'.thread other.owner).isFetching = false := by
          rw [hs']
          simp [commitFetch, update, thread, Thread.isFetching]
        exact htracked.ne_of_not_fetching hdone other.key (List.mem_map_of_mem hmem') rfl
      rw [hnewest] at hother
      rw [thread_eq_of_step hstep (Ne.symm hfresh), hepoch, hdevices]
      exact h.newest other hother
    · rw [outcome, outcome, hnewest, hdevices]
  | false =>
    obtain rfl : before = [] := (hsplit ▸ h.onlyFirstCounts).before_eq_nil hsuperseded
    have hnewest : newestFetch s.ctrlPoint.pendingFetches = some fetch := by
      rw [hsplit]
      exact newestFetch_cons hsuperseded
    have hnone : newestFetch s'.ctrlPoint.pendingFetches = none := by
      rw [hpending, newestFetch_eq_none_iff]
      exact (hsplit ▸ h.onlyFirstCounts).superseded_of_mem_after
    obtain ⟨packet', reservation, hthread', hsameEpoch, hreservation, -⟩ := h.newest fetch hnewest
    obtain ⟨rfl, rfl⟩ := Thread.fetching.inj (hthread'.symm.trans (howner ▸ hthread))
    have hdescribed : (description.setSsdpPacket packet' fetchTime).udn = some udn := hdescribes
    obtain ⟨hcached, hcachedLocation⟩ := ControlPoint.rootCached_commit h.accounted.live_nodup
      h.cached hne hudn ⟨h.running, hsuperseded, hsameEpoch⟩ hreservation hdescribed hlocation
      hlocation now
    rw [← hctrlPoint] at hcached hcachedLocation
    refine ⟨⟨haccounted, htracked, hrunning, hcached, htargets, hfirst, ?_⟩, ?_⟩
    · rw [hnone]
      exact fun other hother ↦ by cases hother
    · rw [outcome_of_newestFetch_eq_none hnone, outcome_of_newestFetch hnewest, hcachedLocation]

/-- The thread that receives an announcement downloads nothing. -/
theorem thread_owner_of_announcement {s s' : System} {a : Action} (htracked : s.Tracked)
    (hidle : s.thread a.thread = .idle) (hstep : s.step a = some s') :
    ∀ fetch ∈ s.ctrlPoint.pendingFetches, s'.thread fetch.owner = s.thread fetch.owner := by
  intro fetch hfetch
  have hfetching : (s.thread a.thread).isFetching = false := by
    rw [hidle]
    rfl
  exact thread_eq_of_step hstep
    (htracked.ne_of_not_fetching hfetching fetch.key (List.mem_map_of_mem hfetch)).symm

section announcement

variable {udn location : CString} {s s' : System} (h : Announced udn s)
  (haccounted : s'.Accounted) (htracked : s'.Tracked)

include h

/-- After a refresh of the cached root device, its location decides unless a fetch is about to
replace it. -/
theorem outcome_of_refreshed (hcurrent : cachedLocation udn s.ctrlPoint.deviceList = some location)
    (hpending : s'.ctrlPoint.pendingFetches = s.ctrlPoint.pendingFetches)
    (hlocation : cachedLocation udn s'.ctrlPoint.deviceList = some location) :
    s'.outcome udn = some location ↔ newestFetch s.ctrlPoint.pendingFetches = none := by
  cases hnewest : newestFetch s.ctrlPoint.pendingFetches with
  | none =>
    rw [outcome_of_newestFetch_eq_none (hpending ▸ hnewest)]
    exact iff_of_true hlocation rfl
  | some fetch =>
    obtain ⟨-, -, -, -, -, hmoves⟩ := h.newest fetch hnewest
    rw [outcome_of_newestFetch (hpending ▸ hnewest)]
    refine iff_of_false (fun hsame ↦ hmoves ?_) (by simp)
    rw [hcurrent, hsame]

include haccounted htracked

/-- When every pending fetch is superseded, the root device stays where it is cached. -/
theorem outcome_of_superseded {pending : List Fetch}
    (hcurrent : cachedLocation udn s.ctrlPoint.deviceList ≠ some location)
    (hctrlPoint : s'.ctrlPoint = { s.ctrlPoint with pendingFetches := pending })
    (htargets : ∀ fetch ∈ pending, fetch.udn = udn) (hnone : newestFetch pending = none) :
    Announced udn s' ∧ s'.outcome udn ≠ some location := by
  have hpending : s'.ctrlPoint.pendingFetches = pending := by rw [hctrlPoint]
  refine ⟨.of_superseded haccounted htracked (hctrlPoint ▸ h.running) (hctrlPoint ▸ h.cached)
    (hpending ▸ htargets) (hpending ▸ hnone), ?_⟩
  rw [outcome_of_newestFetch_eq_none (hpending ▸ hnone), hctrlPoint]
  exact hcurrent

/-- A duplicate of a pending fetch decides if and only if that fetch is not superseded. -/
theorem outcome_of_duplicate {before after : List Fetch} {same : Fetch}
    (hcurrent : cachedLocation udn s.ctrlPoint.deviceList ≠ some location)
    (hsplit : s.ctrlPoint.pendingFetches = before ++ same :: after)
    (hsame : same.location = location)
    (hctrlPoint : s'.ctrlPoint = { s.ctrlPoint with
      pendingFetches := before.map ControlPoint.supersede ++ same :: after })
    (howners : ∀ fetch ∈ s.ctrlPoint.pendingFetches,
      s'.thread fetch.owner = s.thread fetch.owner) :
    Announced udn s' ∧ (s'.outcome udn = some location ↔ same.superseded = false) := by
  cases hsuperseded : same.superseded with
  | true =>
    have hnone : newestFetch (before.map ControlPoint.supersede ++ same :: after) = none := by
      rw [newestFetch_append_cons hsuperseded, newestFetch_eq_none_iff]
      intro other hother
      rcases List.mem_append.mp hother with hmem | hmem
      · exact newestFetch_eq_none_iff.mp newestFetch_map_supersede other hmem
      · exact (hsplit ▸ h.onlyFirstCounts).superseded_of_mem_after other hmem
    have htargets : ∀ fetch ∈ before.map ControlPoint.supersede ++ same :: after,
        fetch.udn = udn := by
      intro fetch hfetch
      rcases List.mem_append.mp hfetch with hmem | hmem
      · obtain ⟨pending, hpending, rfl⟩ := List.mem_map.mp hmem
        exact h.targets pending (hsplit ▸ List.mem_append_left _ hpending)
      · exact h.targets fetch (hsplit ▸ List.mem_append_right _ hmem)
    obtain ⟨hannounced, houtcome⟩ :=
      outcome_of_superseded h haccounted htracked hcurrent hctrlPoint htargets hnone
    exact ⟨hannounced, iff_of_false houtcome (by decide)⟩
  | false =>
    obtain rfl : before = [] := (hsplit ▸ h.onlyFirstCounts).before_eq_nil hsuperseded
    have hkept : s'.ctrlPoint = s.ctrlPoint := by
      rw [hctrlPoint, List.map_nil, ← hsplit]
    have hnewest : newestFetch s'.ctrlPoint.pendingFetches = some same := by
      rw [hkept, hsplit]
      exact newestFetch_cons hsuperseded
    refine ⟨h.of_kept haccounted htracked (hkept ▸ h.running) (hkept ▸ h.cached)
      (by rw [hkept]) (by rw [hkept]) (by rw [hkept]) howners, ?_⟩
    rw [outcome_of_newestFetch hnewest, hsame]
    exact iff_of_true rfl rfl

/-- A new fetch supersedes the others and decides. -/
theorem outcome_of_reserved {fetch : Fetch} {ssdpPkt : SsdpPacket}
    (hcurrent : cachedLocation udn s.ctrlPoint.deviceList ≠ some location)
    (hudn : fetch.udn = udn) (hlocation : fetch.location = location)
    (hfresh : fetch.superseded = false)
    (hctrlPoint : s'.ctrlPoint = { s.ctrlPoint with
      pendingFetches := fetch :: s.ctrlPoint.pendingFetches.map ControlPoint.supersede })
    (hfetching : s'.thread fetch.owner = .fetching ssdpPkt
      ⟨s.ctrlPoint.discoveryEpoch, cachedLocation udn s.ctrlPoint.deviceList⟩) :
    Announced udn s' ∧ s'.outcome udn = some location := by
  have hnewest : newestFetch s'.ctrlPoint.pendingFetches = some fetch := by
    rw [hctrlPoint]
    exact newestFetch_cons hfresh
  refine ⟨⟨haccounted, htracked, hctrlPoint ▸ h.running, hctrlPoint ▸ h.cached, ?_, ?_, ?_⟩, ?_⟩
  · rw [hctrlPoint]
    intro other hother
    rcases List.mem_cons.mp hother with rfl | hmem
    · exact hudn
    · obtain ⟨pending, hpending, rfl⟩ := List.mem_map.mp hmem
      exact h.targets pending hpending
  · rw [hctrlPoint]
    exact newestFetch_eq_none_iff.mp newestFetch_map_supersede
  · intro other hother
    obtain rfl : fetch = other := Option.some.inj (hnewest.symm.trans hother)
    refine ⟨_, _, hfetching, ?_, ?_, ?_⟩
    · rw [hctrlPoint]
    · rw [hctrlPoint]
    · rw [hctrlPoint, hlocation]
      exact hcurrent
  · rw [outcome_of_newestFetch hnewest, hlocation]

end announcement

/-- An announcement makes its own location the one that the root device will be cached at if and
only if `LastWins` holds of the state it meets. -/
theorem outcome_of_announcement {udn location : CString} {s s' : System} {a : Action}
    (h : Announced udn s) {ssdpPkt : SsdpPacket} (hannouncement : a.announcement = some ssdpPkt)
    (htarget : ControlPoint.fetchTarget ssdpPkt = some (udn, location))
    (hstep : s.step a = some s') :
    Announced udn s' ∧ (s'.outcome udn = some location ↔ s.LastWins udn location a.memory) := by
  have haccounted := accounted_of_step h.accounted hstep
  have htracked := tracked_of_step h.tracked hstep
  have hne : udn ≠ [] := (ControlPoint.fetchTarget_eq_some htarget).2.1
  have hcopied : (SsdpPacket.new.copy ssdpPkt 0).getLocation = some location :=
    (ControlPoint.fetchTarget_eq_some htarget).2.2.1
  obtain ⟨now, memory, hidle, ha, hs'⟩ := step_eq_of_announcement hannouncement hstep
  have hmemory : a.memory = memory := by
    rcases ha with ha | ha
    · rw [ha]
      rfl
    · rw [ha]
      rfl
  have howners := thread_owner_of_announcement h.tracked hidle hstep
  have hroot := h.cached.getRootDeviceByUdn_eq hne
  have hctrlPoint := addDeviceBySsdpPacket_ctrlPoint s a.thread ssdpPkt now memory
  rw [← hs'] at hctrlPoint
  rcases ControlPoint.reserve_cases s.ctrlPoint a.thread
    (SsdpPacket.new.copy ssdpPkt now) now memory
    with ⟨hignored, -⟩ | ⟨udn', location', dev, htarget', -, hdev, hdevLocation, hrefreshed⟩ |
      ⟨udn', location', htarget', -, hother, hreserved⟩
  · rw [ControlPoint.fetchTarget_copy, htarget, h.running] at hignored
    rcases hignored with hnone | hstopping
    · cases hnone
    · cases hstopping
  · obtain ⟨rfl, rfl⟩ : udn = udn' ∧ location = location' := by
      simpa [htarget] using htarget'
    rw [hroot] at hdev
    have hcurrent : cachedLocation udn s.ctrlPoint.deviceList = some location := by
      rw [cachedLocation, hdev]
      exact hdevLocation
    rw [hrefreshed] at hctrlPoint
    dsimp only at hctrlPoint
    obtain ⟨hcached, hlocation⟩ := ControlPoint.rootCached_updateRoot h.accounted.live_nodup
      h.cached hne hdev (·.setSsdpPacket (SsdpPacket.new.copy ssdpPkt now) now) rfl hcopied
    rw [← hctrlPoint] at hcached hlocation
    have hpending : s'.ctrlPoint.pendingFetches = s.ctrlPoint.pendingFetches := by
      rw [hctrlPoint]
      rfl
    refine ⟨h.of_kept haccounted htracked (hctrlPoint ▸ h.running) hcached hpending
      (by rw [hctrlPoint]; rfl) (hlocation.trans hcurrent.symm) howners, ?_⟩
    rw [LastWins, if_pos hcurrent]
    exact outcome_of_refreshed h hcurrent hpending hlocation
  · obtain ⟨rfl, rfl⟩ : udn = udn' ∧ location = location' := by
      simpa [htarget] using htarget'
    have hcurrent : cachedLocation udn s.ctrlPoint.deviceList ≠ some location := by
      intro hcached
      obtain ⟨root, hhead, hlocation⟩ := Option.bind_eq_some_iff.mp hcached
      exact hother root (hroot.trans hhead) hlocation
    rw [LastWins, if_neg hcurrent, hmemory]
    rw [hreserved] at hctrlPoint
    rcases ControlPoint.enqueue_cases h.targets a.thread location
      (s.ctrlPoint.getRootDeviceByUdn udn) memory with
      ⟨before, same, after, hsplit, hfind, hsame, henqueue⟩ |
      ⟨hfind, ⟨hfull, henqueue⟩ | ⟨hfull, fetch, howner, hudn, hlocation, hfresh, henqueue⟩⟩
    · rw [henqueue] at hctrlPoint
      simp only [hfind]
      exact outcome_of_duplicate h haccounted htracked hcurrent hsplit hsame hctrlPoint howners
    · rw [henqueue] at hctrlPoint
      simp only [hfind]
      have htargets : ∀ fetch ∈ s.ctrlPoint.pendingFetches.map ControlPoint.supersede,
          fetch.udn = udn := by
        intro fetch hfetch
        obtain ⟨pending, hpending, rfl⟩ := List.mem_map.mp hfetch
        exact h.targets pending hpending
      obtain ⟨hannounced, houtcome⟩ := outcome_of_superseded h haccounted htracked hcurrent
        hctrlPoint htargets newestFetch_map_supersede
      exact ⟨hannounced, iff_of_false houtcome (by rw [hfull]; decide)⟩
    · have hfetching : s'.thread fetch.owner = .fetching (SsdpPacket.new.copy ssdpPkt now)
          ⟨s.ctrlPoint.discoveryEpoch, cachedLocation udn s.ctrlPoint.deviceList⟩ := by
        rw [hs', howner, cachedLocation, ← hroot]
        simp only [addDeviceBySsdpPacket, hreserved, henqueue, update, thread,
          ThreadTable.get_set_self]
      rw [henqueue] at hctrlPoint
      simp only [hfind]
      obtain ⟨hannounced, houtcome⟩ := outcome_of_reserved h haccounted htracked hcurrent hudn
        hlocation hfresh hctrlPoint hfetching
      exact ⟨hannounced, iff_of_true houtcome hfull⟩

/-- An announcement without a location is ignored. -/
theorem announced_of_ignored {udn : CString} {s s' : System} {a : Action} (h : Announced udn s)
    {ssdpPkt : SsdpPacket} (hannouncement : a.announcement = some ssdpPkt)
    (htarget : ControlPoint.fetchTarget ssdpPkt = none) (hstep : s.step a = some s') :
    Announced udn s' := by
  obtain ⟨now, memory, hidle, -, hs'⟩ := step_eq_of_announcement hannouncement hstep
  have hctrlPoint : s'.ctrlPoint = s.ctrlPoint := by
    rw [hs', addDeviceBySsdpPacket_ctrlPoint, ControlPoint.reserve, ControlPoint.fetchTarget_copy,
      htarget]
  exact h.of_kept (accounted_of_step h.accounted hstep) (tracked_of_step h.tracked hstep)
    (hctrlPoint ▸ h.running) (hctrlPoint ▸ h.cached) (by rw [hctrlPoint]) (by rw [hctrlPoint])
    (by rw [hctrlPoint]) (thread_owner_of_announcement h.tracked hidle hstep)

/-- Announcements of the root device and the ends of their downloads keep the invariant. -/
theorem announced_of_step {udn : CString} (hne : udn ≠ []) {s s' : System} {a : Action}
    (h : Announced udn s) (ha : (a.announces udn || a.describes udn) = true)
    (hstep : s.step a = some s') : Announced udn s' := by
  rcases Bool.or_eq_true_iff.mp ha with hannounces | hdescribes
  · obtain ⟨ssdpPkt, hannouncement, hudn⟩ := (Option.any_eq_true _ _).mp hannounces
    cases htarget : ControlPoint.fetchTarget ssdpPkt with
    | none => exact announced_of_ignored h hannouncement htarget hstep
    | some target =>
      obtain ⟨name, location⟩ := target
      obtain rfl : name = udn :=
        (ControlPoint.fetchTarget_eq_some htarget).1.trans (of_decide_eq_true hudn)
      exact (outcome_of_announcement h hannouncement htarget hstep).1
  · exact (outcome_of_commit hne h hdescribes hstep).1

/-- Announcements of one root device are received in any order with the ends of their downloads, and
after the last one every download ends with a description of the root. Then the control point holds
one root device with the announced UDN, at the location of the last announcement, if and only if
`LastWins` held of the state that the last announcement met. -/
theorem last_announcement_wins_iff (udn location : CString) (s₀ s₁ s₂ s₃ : System)
    (received rest : List Action) (last : Action) (ssdpPkt : SsdpPacket)
    (hsettled : Settled udn s₀)
    (hreceived : ∀ a ∈ received, (a.announces udn || a.describes udn) = true)
    (hrun : discovery.run s₀ received = some s₁) (hlast : last.announcement = some ssdpPkt)
    (htarget : ControlPoint.fetchTarget ssdpPkt = some (udn, location))
    (hstep : discovery.step s₁ last = some s₂) (hrest : ∀ a ∈ rest, a.describes udn = true)
    (hfetched : discovery.run s₂ rest = some s₃) (hdone : s₃.ctrlPoint.pendingFetches = []) :
    (∃ root, rootsNamed udn s₃.ctrlPoint.deviceList = [root] ∧
        root.ssdpPkt.getLocation = some location) ↔ s₁.LastWins udn location last.memory := by
  have hne : udn ≠ [] := (ControlPoint.fetchTarget_eq_some htarget).2.1
  have hs₁ : Announced udn s₁ := TransitionSystem.invariant_of_run_of_forall_mem
    (I := Announced udn) (fun _ _ _ h ha hs ↦ announced_of_step hne h ha hs) hreceived
    hsettled.announced hrun
  obtain ⟨hs₂, hwins⟩ := outcome_of_announcement hs₁ hlast htarget hstep
  obtain ⟨hs₃, houtcome⟩ : Announced udn s₃ ∧ s₃.outcome udn = s₂.outcome udn := by
    refine TransitionSystem.invariant_of_run_of_forall_mem
      (I := fun s ↦ Announced udn s ∧ s.outcome udn = s₂.outcome udn)
      (fun s a s' h ha hs ↦ ?_) hrest ⟨hs₂, rfl⟩ hfetched
    obtain ⟨hs', hkept⟩ := outcome_of_commit hne h.1 ha hs
    exact ⟨hs', hkept.trans h.2⟩
  have hnone : newestFetch s₃.ctrlPoint.pendingFetches = none := by
    rw [hdone]
    rfl
  rw [← hs₃.cached.cachedLocation_eq_some_iff hne, ← outcome_of_newestFetch_eq_none hnone, houtcome]
  exact hwins

/-- The root device is announced from a location. -/
def rootAnnouncement (number : ℕ) (location : String) : Action :=
  .ssdpResponse (.worker number) (packetOf "uuid:a::upnp:rootdevice" location) 0 true

/-- The download of a worker ends with a description of the root device. -/
def rootFetched (number : ℕ) (id : DeviceId) : Action :=
  .commit (.worker number) (some (describedDevice id "uuid:a" [])) 1 2

/-- The root device is announced at another location before the first download has ended. -/
theorem last_announcement_wins_iff_discovered :
    ∃ s₁ s₂ s₃, discovery.run (init true) [rootAnnouncement 0 "http://a/1"] = some s₁ ∧
      discovery.step s₁ (rootAnnouncement 1 "http://a/2") = some s₂ ∧
      discovery.run s₂ [rootFetched 0 1, rootFetched 1 2] = some s₃ ∧
      ((∃ root, rootsNamed "uuid:a".toList s₃.ctrlPoint.deviceList = [root] ∧
          root.ssdpPkt.getLocation = some "http://a/2".toList) ↔
        s₁.LastWins "uuid:a".toList "http://a/2".toList true) :=
  ⟨_, _, _, rfl, rfl, rfl, last_announcement_wins_iff "uuid:a".toList "http://a/2".toList (init true)
    _ _ _ [rootAnnouncement 0 "http://a/1"] [rootFetched 0 1, rootFetched 1 2]
    (rootAnnouncement 1 "http://a/2") (packetOf "uuid:a::upnp:rootdevice" "http://a/2")
    (settled_init _ true) (by decide) rfl rfl rfl rfl (by decide) rfl rfl⟩

/-- The root device is announced at one location, at another and again at the first one, before any
download has ended. The first fetch was superseded by the second, which the third announcement
supersedes before it is dropped as a duplicate of the first: no device is cached. -/
theorem not_last_announcement_wins :
    ¬ ∀ (udn location : CString) (s₁ s₂ s₃ : System) (received rest : List Action) (last : Action)
      (ssdpPkt : SsdpPacket),
      (∀ a ∈ received, (a.announces udn || a.describes udn) = true) →
      discovery.run (init true) received = some s₁ → last.announcement = some ssdpPkt →
      ControlPoint.fetchTarget ssdpPkt = some (udn, location) → discovery.step s₁ last = some s₂ →
      (∀ a ∈ rest, a.describes udn = true) → discovery.run s₂ rest = some s₃ →
      s₃.ctrlPoint.pendingFetches = [] → (∀ a ∈ received ++ [last], a.memory = true) →
      ∃ root, rootsNamed udn s₃.ctrlPoint.deviceList = [root] ∧
        root.ssdpPkt.getLocation = some location := by
  intro hclaim
  obtain ⟨root, hroots, -⟩ := hclaim "uuid:a".toList "http://a/1".toList _ _ _
    [rootAnnouncement 0 "http://a/1", rootAnnouncement 1 "http://a/2"]
    [rootFetched 0 1, rootFetched 1 2]
    (rootAnnouncement 2 "http://a/1") _ (by decide) rfl rfl rfl rfl (by decide) rfl rfl (by decide)
  have hlength : 0 = 1 := congrArg List.length hroots
  exact absurd hlength (by decide)

end System

end Mupnp.Discovery
