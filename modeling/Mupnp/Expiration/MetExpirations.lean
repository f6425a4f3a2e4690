import Mathlib.Order.Bounds.Basic
import Mupnp.Expiration.ExpirationHandler

/-!
# The expirations that a pass comes across

What a scan of the services does, without its order: `renewObject` are the services after the scan
(`scanned_getFirstExpiratedServiceIn`), `dueServices` the renewals it attempts
(`attempts_getFirstExpiratedServiceIn`).

The earliest expiration is looked for with a bound, and below a device only the last embedded device
with something earlier than the bound counts. `metBelow` lists what the scan comes across in this
way; `foundSrv_getFirstExpiratedServiceIn` says that what it finds is the least of that.
-/

set_option autoImplicit false
set_option relaxedAutoImplicit false

namespace Mupnp.Expiration

open Foundation Util Ssdp Discovery

variable (now : ℤ) (subRes : ServiceKey → RenewalResponse)

/-! ### The services after a scan -/

/-- A service after the scan has gone over it. -/
def renewService (subRes : RenewalResponse) (srv : Service) : Service :=
  if srv.isSubscribed = false then srv else (checkService now subRes srv).1

/-- A device object after the scan has gone over its services. -/
def renewObject (object : DeviceObject) : DeviceObject :=
  { object with
    services := object.services.zipIdx.map fun p ↦ renewService now (subRes (object.id, p.2)) p.1 }

/-- The services of a device object whose subscription is due. -/
def dueOf (object : DeviceObject) : List ServiceKey :=
  (object.services.zipIdx.filter fun p ↦ isDue now p.1).map fun p ↦ (object.id, p.2)

/-- The services of a list of devices whose subscription is due. -/
def dueServices (devices : List Device) : List ServiceKey :=
  (RoseTree.preorderIn devices).flatMap (dueOf now)

/-- The expiration of a service that counts in a scan: zero when there is none. -/
def countedTime (subRes : RenewalResponse) (srv : Service) : ℤ :=
  if srv.isSubscribed = false then 0 else (checkService now subRes srv).2.2

/-- The positive expirations among the services at the positions from `i` on. -/
def timesFrom (now : ℤ) (subRes : ℕ → RenewalResponse) (i : ℕ) (services : List Service) : List ℤ :=
  ((services.zipIdx i).map fun p ↦ countedTime now (subRes p.2) p.1).filter
    fun time ↦ decide (0 < time)

/-- The positive expirations among the services of a device object. -/
def ownTimes (object : DeviceObject) : List ℤ :=
  timesFrom now (fun i ↦ subRes (object.id, i)) 0 object.services

theorem checkService_attempted (subRes : RenewalResponse) {srv : Service}
    (hsubscribed : srv.isSubscribed = true) :
    (checkService now subRes srv).2.1 = isDue now srv := by
  unfold checkService isDue
  rw [hsubscribed]
  dsimp only
  split_ifs with hdue
  · simp [hdue]
  · simp [hdue]
  · show false = _
    rw [Bool.true_and, ← Bool.decide_and]
    exact (decide_eq_false hdue).symm

/-- The expiration that counts is that of the service after the scan. -/
theorem getSubscriptionExpiration_checkService {subRes : RenewalResponse} {srv : Service}
    (hpos : 0 < (checkService now subRes srv).2.2) :
    getSubscriptionExpiration (checkService now subRes srv).1 =
      (checkService now subRes srv).2.2 := by
  unfold checkService at hpos ⊢
  dsimp only at hpos ⊢
  split_ifs at hpos ⊢ with hdue hfailed
  · exact absurd hpos (lt_irrefl 0)
  · rfl
  · rfl

section services

variable (subRes : ℕ → RenewalResponse) (services : List Service) (i : ℕ) (expirationTime : ℤ)
  (foundSrv : Option Service)

theorem services_scanServices :
    (scanServices now subRes i services expirationTime foundSrv).services =
      (services.zipIdx i).map fun p ↦ renewService now (subRes p.2) p.1 := by
  induction services generalizing i expirationTime foundSrv with
  | nil => rfl
  | cons srv rest ih =>
    rw [List.zipIdx_cons, List.map_cons, scanServices]
    by_cases hsubscribed : srv.isSubscribed = false
    · rw [if_pos hsubscribed]
      simp only [ih, renewService, if_pos hsubscribed]
    · rw [if_neg hsubscribed]
      simp only [apply_ite ServiceScan.services, ih, renewService, if_neg hsubscribed, ite_self]

theorem attempts_scanServices :
    (scanServices now subRes i services expirationTime foundSrv).attempts =
      ((services.zipIdx i).filter fun p ↦ isDue now p.1).map Prod.snd := by
  induction services generalizing i expirationTime foundSrv with
  | nil => rfl
  | cons srv rest ih =>
    rw [List.zipIdx_cons, List.filter_cons, scanServices]
    by_cases hsubscribed : srv.isSubscribed = false
    · have hdue : isDue now srv = false := by
        unfold isDue
        rw [hsubscribed]
        rfl
      rw [if_pos hsubscribed, hdue]
      exact ih (i + 1) expirationTime foundSrv
    · rw [if_neg hsubscribed]
      rw [Bool.not_eq_false] at hsubscribed
      simp only [apply_ite ServiceScan.attempts, ih, ite_self,
        checkService_attempted now _ hsubscribed]
      cases isDue now srv with
      | true => rfl
      | false => rfl

end services

/-- A scan leaves the devices with their services gone over. -/
theorem scanned_getFirstExpiratedServiceIn (devices : List Device) (expirationTime : ℤ)
    (foundSrv : Option Service) :
    (getFirstExpiratedServiceIn now subRes devices expirationTime foundSrv).scanned =
      RoseTree.mapIn (renewObject now subRes) devices := by
  induction devices using RoseTree.forest_induction generalizing expirationTime foundSrv with
  | nil => rfl
  | cons object children rest hchildren hrest =>
    simp only [getFirstExpiratedServiceIn, getFirstExpiratedService, RoseTree.mapIn, RoseTree.map,
      hchildren, hrest, services_scanServices, renewObject]

/-- A scan attempts the renewals that are due, each once. -/
theorem attempts_getFirstExpiratedServiceIn (devices : List Device) (expirationTime : ℤ)
    (foundSrv : Option Service) :
    (getFirstExpiratedServiceIn now subRes devices expirationTime foundSrv).attempts =
      dueServices now devices := by
  induction devices using RoseTree.forest_induction generalizing expirationTime foundSrv with
  | nil => rfl
  | cons object children rest hchildren hrest =>
    have hsplit : dueServices now (.node object children :: rest) =
        dueOf now object ++ dueServices now children ++ dueServices now rest := by
      simp only [dueServices, RoseTree.preorderIn_cons, RoseTree.value_node, RoseTree.children_node,
        List.flatMap_cons, List.flatMap_append, List.append_assoc]
    simp only [getFirstExpiratedServiceIn, getFirstExpiratedService, hchildren, hrest,
      attempts_scanServices, hsplit, dueOf, List.map_map]
    rfl

/-! ### What a scan comes across -/

/-- The positive expirations among the services of a list of devices. -/
def treeTimes (devices : List Device) : List ℤ :=
  (RoseTree.preorderIn devices).flatMap (ownTimes now subRes)

/-- Some service of the devices expires before everything in a list. -/
def hasEarlier (seen : List ℤ) (devices : List Device) : Bool :=
  (treeTimes now subRes devices).any fun time ↦ seen.all fun other ↦ decide (time < other)

mutual

/-- What the scan of a device comes across after a list of expirations: those of its services, and
below it what `metBelow` says. -/
def metTree (seen : List ℤ) : Device → List ℤ
  | .node object devices =>
    ownTimes now subRes object ++ metBelow (seen ++ ownTimes now subRes object) devices

/-- What the scan of a list of devices comes across after a list of expirations: only the last
device in which a service expires before all of them counts. -/
def metBelow (seen : List ℤ) : List Device → List ℤ
  | [] => []
  | childDev :: rest =>
    if hasEarlier now subRes seen rest then metBelow seen rest
    else if hasEarlier now subRes seen [childDev] then metTree seen childDev
    else []

end

theorem hasEarlier_eq_true_iff {seen : List ℤ} {devices : List Device} :
    hasEarlier now subRes seen devices = true ↔
      ∃ time ∈ treeTimes now subRes devices, ∀ other ∈ seen, time < other := by
  simp [hasEarlier]

/-- The bound of a scan is the least of what was come across: something is earlier than all of that
when it is earlier than the bound. -/
theorem hasEarlier_iff_of_isLeast {seen : List ℤ} {bound : ℤ}
    (hbound : IsLeast {time | time ∈ seen} bound) {devices : List Device} :
    hasEarlier now subRes seen devices = true ↔
      ∃ time ∈ treeTimes now subRes devices, time < bound := by
  rw [hasEarlier_eq_true_iff]
  constructor
  · rintro ⟨time, htime, hearlier⟩
    exact ⟨time, htime, hearlier bound hbound.1⟩
  · rintro ⟨time, htime, hearlier⟩
    exact ⟨time, htime, fun other hother ↦ hearlier.trans_le (hbound.2 hother)⟩

theorem treeTimes_cons (object : DeviceObject) (children rest : List Device) :
    treeTimes now subRes (.node object children :: rest) =
      ownTimes now subRes object ++ treeTimes now subRes children ++ treeTimes now subRes rest := by
  simp only [treeTimes, RoseTree.preorderIn_cons, RoseTree.value_node, RoseTree.children_node,
    List.flatMap_cons, List.flatMap_append, List.append_assoc]

theorem hasEarlier_cons (seen : List ℤ) (dev : Device) (rest : List Device) :
    hasEarlier now subRes seen (dev :: rest) =
      (hasEarlier now subRes seen [dev] || hasEarlier now subRes seen rest) := by
  unfold hasEarlier treeTimes
  rw [← List.singleton_append, RoseTree.preorderIn_append, List.flatMap_append, List.any_append]

theorem metBelow_eq_nil {seen : List ℤ} {devices : List Device}
    (h : hasEarlier now subRes seen devices = false) : metBelow now subRes seen devices = [] := by
  cases devices with
  | nil => rw [metBelow]
  | cons dev rest =>
    rw [hasEarlier_cons, Bool.or_eq_false_iff] at h
    rw [metBelow, h.1, h.2, if_neg Bool.false_ne_true, if_neg Bool.false_ne_true]

theorem timesFrom_cons (subRes : ℕ → RenewalResponse) (i : ℕ) (srv : Service)
    (rest : List Service) :
    timesFrom now subRes i (srv :: rest) =
      if 0 < countedTime now (subRes i) srv then
        countedTime now (subRes i) srv :: timesFrom now subRes (i + 1) rest
      else timesFrom now subRes (i + 1) rest := by
  unfold timesFrom
  rw [List.zipIdx_cons, List.map_cons, List.filter_cons]
  simp only [decide_eq_true_eq]

/-- What the bound and the service found are after a scan that came across `times`. -/
structure ScanOutcome (seen times : List ℤ) (bound : ℤ) (foundSrv : Option Service) (bound' : ℤ)
    (foundSrv' : Option Service) : Prop where
  least : IsLeast {time | time ∈ seen ++ times} bound'
  found : bound' = bound ∧ foundSrv' = foundSrv ∨
    bound' < bound ∧ ∃ srv, foundSrv' = some srv ∧ getSubscriptionExpiration srv = bound'

/-- The loop over the services of a device: the bound becomes the least of what was come across, and
a service is found when one expires before the bound. -/
theorem scanServices_outcome (subRes : ℕ → RenewalResponse) (services : List Service) (i : ℕ)
    {seen : List ℤ} {bound : ℤ} (hbound : IsLeast {time | time ∈ seen} bound)
    (foundSrv : Option Service) :
    ScanOutcome seen (timesFrom now subRes i services) bound foundSrv
      (scanServices now subRes i services bound foundSrv).expirationTime
      (scanServices now subRes i services bound foundSrv).foundSrv := by
  induction services generalizing i seen bound foundSrv with
  | nil =>
    refine ⟨?_, Or.inl ⟨rfl, rfl⟩⟩
    rw [show timesFrom now subRes i [] = [] from rfl, List.append_nil]
    exact hbound
  | cons srv rest ih =>
    rw [timesFrom_cons, scanServices]
    by_cases hsubscribed : srv.isSubscribed = false
    · have hzero : countedTime now (subRes i) srv = 0 := if_pos hsubscribed
      rw [if_pos hsubscribed, hzero, if_neg (lt_irrefl 0)]
      exact ih (i + 1) hbound foundSrv
    · have hcounted : countedTime now (subRes i) srv = (checkService now (subRes i) srv).2.2 :=
        if_neg hsubscribed
      rw [if_neg hsubscribed, hcounted]
      dsimp only
      by_cases hpos : 0 < (checkService now (subRes i) srv).2.2
      · rw [if_pos hpos]
        by_cases hearlier : (checkService now (subRes i) srv).2.2 < bound
        · have hnext : IsLeast {time | time ∈ seen ++ [(checkService now (subRes i) srv).2.2]}
              (checkService now (subRes i) srv).2.2 := by
            refine ⟨List.mem_append_right _ List.mem_cons_self, fun time htime ↦ ?_⟩
            rcases List.mem_append.mp htime with htime | htime
            · exact hearlier.le.trans (hbound.2 htime)
            · exact (List.mem_singleton.mp htime).ge
          obtain ⟨hleast, hfound⟩ := ih (i + 1) hnext (some (checkService now (subRes i) srv).1)
          rw [if_pos ⟨hpos, hearlier⟩]
          rw [List.append_assoc] at hleast
          refine ⟨hleast, Or.inr ?_⟩
          rcases hfound with ⟨hsame, hsrv⟩ | ⟨hlt, hsrv⟩
          · refine ⟨hsame.trans_lt hearlier, _, hsrv, ?_⟩
            rw [hsame]
            exact getSubscriptionExpiration_checkService now hpos
          · exact ⟨hlt.trans hearlier, hsrv⟩
        · have hnext : IsLeast {time | time ∈ seen ++ [(checkService now (subRes i) srv).2.2]}
              bound := by
            refine ⟨List.mem_append_left _ hbound.1, fun time htime ↦ ?_⟩
            rcases List.mem_append.mp htime with htime | htime
            · exact hbound.2 htime
            · rw [List.mem_singleton.mp htime]
              exact not_lt.mp hearlier
          obtain ⟨hleast, hfound⟩ := ih (i + 1) hnext foundSrv
          rw [if_neg fun h ↦ hearlier h.2]
          rw [List.append_assoc] at hleast
          exact ⟨hleast, hfound⟩
      · rw [if_neg hpos, if_neg fun h ↦ hpos h.1]
        exact ih (i + 1) hbound foundSrv

/-- Without a bound no service is found. -/
theorem scanServices_of_nonpos (subRes : ℕ → RenewalResponse) (services : List Service) (i : ℕ)
    {bound : ℤ} (hbound : bound ≤ 0) (foundSrv : Option Service) :
    (scanServices now subRes i services bound foundSrv).expirationTime = bound ∧
      (scanServices now subRes i services bound foundSrv).foundSrv = foundSrv := by
  induction services generalizing i with
  | nil => exact ⟨rfl, rfl⟩
  | cons srv rest ih =>
    rw [scanServices]
    by_cases hsubscribed : srv.isSubscribed = false
    · rw [if_pos hsubscribed]
      exact ih (i + 1)
    · rw [if_neg hsubscribed]
      have hno : ¬ (0 < (checkService now (subRes i) srv).2.2 ∧
          (checkService now (subRes i) srv).2.2 < bound) :=
        fun h ↦ absurd (h.1.trans h.2) (not_lt.mpr hbound)
      dsimp only
      rw [if_neg hno]
      exact ih (i + 1)

/-- What a search for something earlier finds, after a scan that came across `times`. -/
def SearchOutcome (earlier : Bool) (seen times : List ℤ) (foundSrv foundSrv' : Option Service) :
    Prop :=
  earlier = false ∧ foundSrv' = foundSrv ∨
    earlier = true ∧ ∃ srv, foundSrv' = some srv ∧
      IsLeast {time | time ∈ seen ++ times} (getSubscriptionExpiration srv)

/-- The search below a device is a search in the device, when it is one in the devices below. -/
theorem getFirstExpiratedService_outcome {object : DeviceObject} {children : List Device}
    (hchildren : ∀ {seen : List ℤ} {bound : ℤ}, IsLeast {time | time ∈ seen} bound →
      ∀ foundSrv, SearchOutcome (hasEarlier now subRes seen children) seen
        (metBelow now subRes seen children) foundSrv
        (getFirstExpiratedServiceIn now subRes children bound foundSrv).foundSrv)
    {seen : List ℤ} {bound : ℤ} (hbound : IsLeast {time | time ∈ seen} bound) :
    SearchOutcome (hasEarlier now subRes seen [.node object children]) seen
      (metTree now subRes seen (.node object children)) none
      (getFirstExpiratedService now subRes (.node object children) bound).foundSrv := by
  have hscan : ScanOutcome seen (ownTimes now subRes object) bound none
      (scanServices now (fun i ↦ subRes (object.id, i)) 0 object.services bound none).expirationTime
      (scanServices now (fun i ↦ subRes (object.id, i)) 0 object.services bound none).foundSrv :=
    scanServices_outcome now (fun i ↦ subRes (object.id, i)) object.services 0 hbound none
  obtain ⟨hleast, hown⟩ := hscan
  have htimes : treeTimes now subRes [.node object children] =
      ownTimes now subRes object ++ treeTimes now subRes children := by
    rw [treeTimes_cons, show treeTimes now subRes [] = [] from rfl, List.append_nil]
  rw [getFirstExpiratedService, metTree]
  dsimp only
  rcases hchildren hleast
      (scanServices now (fun i ↦ subRes (object.id, i)) 0 object.services bound none).foundSrv with
    ⟨hnone, hfound⟩ | ⟨hearlier, srv, hfound, hsrv⟩
  · have hbelow : metBelow now subRes (seen ++ ownTimes now subRes object) children = [] :=
      metBelow_eq_nil now subRes hnone
    rw [hfound, hbelow, List.append_nil]
    rcases hown with ⟨hsame, hsrv⟩ | ⟨hlt, srv, hsrv, htime⟩
    · refine Or.inl ⟨?_, hsrv⟩
      rw [hsame] at hleast
      rw [← Bool.not_eq_true, hasEarlier_iff_of_isLeast now subRes hleast] at hnone
      rw [← Bool.not_eq_true, hasEarlier_iff_of_isLeast now subRes hbound, htimes]
      rintro ⟨time, htime, hlt⟩
      rcases List.mem_append.mp htime with htime | htime
      · exact absurd hlt (not_lt.mpr (hleast.2 (List.mem_append_right _ htime)))
      · exact hnone ⟨time, htime, hlt⟩
    · refine Or.inr ⟨?_, srv, hsrv, ?_⟩
      · rw [hasEarlier_iff_of_isLeast now subRes hbound, htimes]
        refine ⟨_, List.mem_append_left _ ?_, hlt⟩
        rcases List.mem_append.mp hleast.1 with hmem | hmem
        · exact absurd hlt (not_lt.mpr (hbound.2 hmem))
        · exact hmem
      · rw [htime]
        exact hleast
  · refine Or.inr ⟨?_, srv, hfound, ?_⟩
    · rw [hasEarlier_eq_true_iff] at hearlier ⊢
      obtain ⟨time, htime, hlt⟩ := hearlier
      rw [htimes]
      exact ⟨time, List.mem_append_right _ htime, fun other hother ↦
        hlt other (List.mem_append_left _ hother)⟩
    · rw [List.append_assoc] at hsrv
      exact hsrv

/-- A scan with a bound finds a service when one expires before the bound, and then one that expires
first among what the scan came across. -/
theorem foundSrv_getFirstExpiratedServiceIn (devices : List Device) {seen : List ℤ} {bound : ℤ}
    (hbound : IsLeast {time | time ∈ seen} bound) (foundSrv : Option Service) :
    SearchOutcome (hasEarlier now subRes seen devices) seen (metBelow now subRes seen devices)
      foundSrv (getFirstExpiratedServiceIn now subRes devices bound foundSrv).foundSrv := by
  induction devices using RoseTree.forest_induction generalizing seen bound foundSrv with
  | nil => exact Or.inl ⟨rfl, rfl⟩
  | cons object children rest hchildren hrest =>
    have hdev := @getFirstExpiratedService_outcome now subRes object children hchildren seen bound
      hbound
    rw [getFirstExpiratedServiceIn, metBelow, hasEarlier_cons]
    dsimp only
    rcases hrest hbound ((getFirstExpiratedService now subRes (.node object children)
        bound).foundSrv.or foundSrv) with ⟨hnone, hfound⟩ | ⟨hearlier, srv, hfound, hsrv⟩
    · rw [hnone, hfound, Bool.or_false, if_neg Bool.false_ne_true]
      rcases hdev with ⟨hnone', hfound'⟩ | ⟨hearlier', srv, hfound', hsrv⟩
      · rw [hnone', hfound', Option.none_or]
        exact Or.inl ⟨rfl, rfl⟩
      · rw [hearlier', hfound', Option.some_or, if_pos rfl]
        exact Or.inr ⟨rfl, srv, rfl, hsrv⟩
    · rw [hearlier, hfound, Bool.or_true, if_pos rfl]
      exact Or.inr ⟨rfl, srv, rfl, hsrv⟩

/-- What a scan comes across are expirations in the tree. -/
theorem metBelow_subset (devices : List Device) (seen : List ℤ) :
    metBelow now subRes seen devices ⊆ treeTimes now subRes devices := by
  induction devices using RoseTree.forest_induction generalizing seen with
  | nil =>
    rw [metBelow]
    exact List.nil_subset _
  | cons object children rest hchildren hrest =>
    rw [metBelow, treeTimes_cons]
    split_ifs with hlater hearlier
    · exact List.subset_append_of_subset_right _ (hrest seen)
    · rw [metTree]
      refine List.subset_append_of_subset_left _ (List.append_subset.mpr ⟨?_, ?_⟩)
      · exact List.subset_append_left _ _
      · exact List.subset_append_of_subset_right _ (hchildren _)
    · exact List.nil_subset _

theorem pos_of_mem_treeTimes {devices : List Device} {time : ℤ}
    (h : time ∈ treeTimes now subRes devices) : 0 < time := by
  obtain ⟨object, -, htime⟩ := List.mem_flatMap.mp h
  exact of_decide_eq_true (List.mem_filter.mp htime).2

/-- Without a bound a scan finds nothing. -/
theorem foundSrv_getFirstExpiratedServiceIn_of_nonpos (devices : List Device) {bound : ℤ}
    (hbound : bound ≤ 0) (foundSrv : Option Service) :
    (getFirstExpiratedServiceIn now subRes devices bound foundSrv).foundSrv = foundSrv := by
  induction devices using RoseTree.forest_induction generalizing foundSrv with
  | nil => rfl
  | cons object children rest hchildren hrest =>
    obtain ⟨hsame, hown⟩ := scanServices_of_nonpos now (fun i ↦ subRes (object.id, i))
      object.services 0 hbound none
    simp only [getFirstExpiratedServiceIn, getFirstExpiratedService, hsame, hown, hchildren, hrest,
      Option.none_or]

/-- The scan of one device is that of a list of one. -/
theorem getFirstExpiratedServiceIn_singleton (dev : Device) (bound : ℤ) :
    getFirstExpiratedServiceIn now subRes [dev] bound none =
      ⟨[(getFirstExpiratedService now subRes dev bound).scanned],
        (getFirstExpiratedService now subRes dev bound).attempts,
        (getFirstExpiratedService now subRes dev bound).foundSrv⟩ := by
  simp only [getFirstExpiratedServiceIn, List.append_nil, Option.or_none]

theorem scanned_getFirstExpiratedService (dev : Device) (bound : ℤ) :
    (getFirstExpiratedService now subRes dev bound).scanned = dev.map (renewObject now subRes) := by
  have hscan := scanned_getFirstExpiratedServiceIn now subRes [dev] bound none
  rw [getFirstExpiratedServiceIn_singleton, RoseTree.mapIn_singleton] at hscan
  exact (List.cons.inj hscan).1

end Mupnp.Expiration
