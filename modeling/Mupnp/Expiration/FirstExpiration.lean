import Mupnp.Expiration.ExpirationHandler
import Mupnp.Foundation.BoundedMinimum

/-!
# The service that expires first

What `mupnp_device_getfirstexpiratedservice` finds in a device tree in which no subscription has
expired, so that nothing is renewed.

The loop over the services goes on with the expiration that it has reached
(`scanServices_isLeastBelow`); the loop over the embedded devices goes on with the old one, and the
last device in which something is found counts. `getFirstExpiratedService_iff` says for which trees
and bounds this is the service that expires first.
-/

set_option autoImplicit false
set_option relaxedAutoImplicit false

namespace Mupnp.Expiration

open Foundation Util Discovery

/-! ### What is to be found -/

/-- The subscribed services with a positive expiration in a list. -/
def expiringServices (services : List Service) : List Service :=
  services.filter fun srv ↦ srv.isSubscribed && decide (0 < getSubscriptionExpiration srv)

/-- The services of the devices in a list and below. -/
def treeServices (devices : List Device) : List Service :=
  (RoseTree.preorderIn devices).flatMap DeviceObject.services

/-- The services of a device and the devices below it that can be found with a bound: subscribed,
with a positive expiration before the bound. -/
def servicesBefore (bound : ℤ) (dev : Device) : List Service :=
  below getSubscriptionExpiration bound (expiringServices (treeServices [dev]))

/-- A service is found that expires first of those that can be found, and none exactly when there is
no such service. -/
structure FindsFirst (now : ℤ) (subRes : ServiceKey → RenewalResponse) (dev : Device) (bound : ℤ) :
    Prop where
  first : ∀ srv ∈ (getFirstExpiratedService now subRes dev bound).foundSrv,
    srv ∈ servicesBefore bound dev ∧ ∀ other ∈ servicesBefore bound dev,
      getSubscriptionExpiration srv ≤ getSubscriptionExpiration other
  none_iff : (getFirstExpiratedService now subRes dev bound).foundSrv = none ↔
    servicesBefore bound dev = []

mutual

/-- The bound that holds for the devices below a device is the least of the given one and the
expirations of its services, and with it the last of these devices has the earliest expiration. -/
def lastIsFirst (bound : ℤ) : Device → Bool
  | .node object devices =>
    lastIsFirstIn
      (leastKey getSubscriptionExpiration bound (expiringServices object.services)) devices

/-- Of the devices in a list with an expiration before the bound the last one has the earliest, and
so it is below that one. -/
def lastIsFirstIn (bound : ℤ) : List Device → Bool
  | [] => true
  | childDev :: rest =>
    if (below getSubscriptionExpiration bound (expiringServices (treeServices rest))).isEmpty then
      lastIsFirst bound childDev
    else
      (servicesBefore bound childDev).all (fun srv ↦
        (expiringServices (treeServices rest)).any fun later ↦
          decide (getSubscriptionExpiration later ≤ getSubscriptionExpiration srv)) &&
        lastIsFirstIn bound rest

end

theorem findsFirst_iff {now : ℤ} {subRes : ServiceKey → RenewalResponse} {dev : Device}
    {bound : ℤ} :
    FindsFirst now subRes dev bound ↔
      IsLeastBelow getSubscriptionExpiration bound (expiringServices (treeServices [dev]))
        (getFirstExpiratedService now subRes dev bound).foundSrv := by
  constructor
  · intro h
    cases hfound : (getFirstExpiratedService now subRes dev bound).foundSrv with
    | none => exact h.none_iff.mp hfound
    | some srv => exact h.first srv hfound
  · intro h
    cases hfound : (getFirstExpiratedService now subRes dev bound).foundSrv with
    | none =>
      rw [hfound] at h
      exact ⟨fun srv hsrv ↦ (by cases hfound.symm.trans hsrv), iff_of_true hfound h⟩
    | some srv =>
      rw [hfound] at h
      refine ⟨fun srv' hsrv ↦ ?_, iff_of_false (fun hnone ↦ ?_) (List.ne_nil_of_mem h.1)⟩
      · obtain rfl := Option.some.inj (hfound.symm.trans hsrv)
        exact h
      · cases hfound.symm.trans hnone

theorem treeServices_cons (object : DeviceObject) (children rest : List Device) :
    treeServices (.node object children :: rest) =
      object.services ++ treeServices children ++ treeServices rest := by
  simp only [treeServices, RoseTree.preorderIn_cons, RoseTree.value_node, RoseTree.children_node,
    List.flatMap_cons, List.flatMap_append, List.append_assoc]

theorem treeServices_nil : treeServices [] = [] := rfl

theorem expiringServices_append (services others : List Service) :
    expiringServices (services ++ others) =
      expiringServices services ++ expiringServices others :=
  List.filter_append services others

/-! ### The search -/

section search

variable {now : ℤ}

/-- A subscription that has not expired is left alone. -/
theorem checkService_of_not_due (subRes : RenewalResponse) {srv : Service}
    (hsubscribed : srv.isSubscribed = true) (hdue : isDue now srv = false) :
    checkService now subRes srv = (srv, false, getSubscriptionExpiration srv) := by
  rw [isDue, hsubscribed, Bool.true_and, ← Bool.decide_and, decide_eq_false_iff_not] at hdue
  exact if_neg hdue

/-- One turn of the loop over the services is a search in a list of one. -/
theorem exists_scanServices_cons (subRes : ℕ → RenewalResponse) (i : ℕ) {srv : Service}
    (rest : List Service) (bound : ℤ) (foundSrv : Option Service) (hdue : isDue now srv = false) :
    ∃ first : Option Service,
      IsLeastBelow getSubscriptionExpiration bound (expiringServices [srv]) first ∧
      (scanServices now subRes i (srv :: rest) bound foundSrv).foundSrv =
        (scanServices now subRes (i + 1) rest
          (leastKey getSubscriptionExpiration bound (expiringServices [srv]))
          (first.or foundSrv)).foundSrv ∧
      (scanServices now subRes i (srv :: rest) bound foundSrv).expirationTime =
        (scanServices now subRes (i + 1) rest
          (leastKey getSubscriptionExpiration bound (expiringServices [srv]))
          (first.or foundSrv)).expirationTime := by
  rw [scanServices]
  by_cases hsubscribed : srv.isSubscribed = false
  · have hnone : expiringServices [srv] = [] :=
      List.filter_eq_nil_iff.mpr fun other hother ↦ by
        rw [List.mem_singleton.mp hother, hsubscribed, Bool.false_and]
        exact Bool.false_ne_true
    rw [hnone, if_pos hsubscribed]
    exact ⟨none, rfl, rfl, rfl⟩
  · rw [if_neg hsubscribed]
    rw [Bool.not_eq_false] at hsubscribed
    simp only [checkService_of_not_due (subRes i) hsubscribed hdue]
    by_cases hpos : 0 < getSubscriptionExpiration srv
    · have hone : expiringServices [srv] = [srv] := by
        rw [expiringServices, List.filter_singleton, hsubscribed, decide_eq_true hpos]
        rfl
      by_cases hlt : getSubscriptionExpiration srv < bound
      · have hleast : IsLeastBelow getSubscriptionExpiration bound [srv] (some srv) :=
          ⟨mem_below_iff.mpr ⟨List.mem_cons_self, hlt⟩, fun other hother ↦
            (congrArg _ (List.mem_singleton.mp (mem_below_iff.mp hother).1)).ge⟩
        rw [hone, hleast.leastKey_eq, if_pos ⟨hpos, hlt⟩]
        exact ⟨some srv, hleast, rfl, rfl⟩
      · have hleast : IsLeastBelow getSubscriptionExpiration bound [srv] none :=
          below_eq_nil_iff.mpr fun other hother ↦
            (List.mem_singleton.mp hother) ▸ not_lt.mp hlt
        rw [hone, hleast.leastKey_eq, if_neg fun h ↦ hlt h.2]
        exact ⟨none, hleast, rfl, rfl⟩
    · have hnone : expiringServices [srv] = [] := by
        rw [expiringServices, List.filter_singleton, decide_eq_false hpos, Bool.and_false]
        rfl
      rw [hnone, if_neg fun h ↦ hpos h.1]
      exact ⟨none, rfl, rfl, rfl⟩

/-- The loop over the services finds the one that expires first, and its expiration becomes the
bound. -/
theorem scanServices_isLeastBelow (subRes : ℕ → RenewalResponse) (services : List Service) (i : ℕ)
    (bound : ℤ) (foundSrv : Option Service) (hdue : ∀ srv ∈ services, isDue now srv = false) :
    ∃ found : Option Service,
      IsLeastBelow getSubscriptionExpiration bound (expiringServices services) found ∧
      (scanServices now subRes i services bound foundSrv).foundSrv = found.or foundSrv ∧
      (scanServices now subRes i services bound foundSrv).expirationTime =
        leastKey getSubscriptionExpiration bound (expiringServices services) := by
  induction services generalizing i bound foundSrv with
  | nil => exact ⟨none, rfl, rfl, rfl⟩
  | cons srv rest ih =>
    rw [List.forall_mem_cons] at hdue
    obtain ⟨first, hfirst, hfound, htime⟩ :=
      exists_scanServices_cons subRes i rest bound foundSrv hdue.1
    obtain ⟨later, hlater, hfound', htime'⟩ := ih (i + 1)
      (leastKey getSubscriptionExpiration bound (expiringServices [srv])) (first.or foundSrv) hdue.2
    have hsplit : expiringServices (srv :: rest) =
        expiringServices [srv] ++ expiringServices rest := expiringServices_append [srv] rest
    rw [hsplit, leastKey_append]
    refine ⟨later.or first, ?_, ?_, htime.trans htime'⟩
    · exact (isLeastBelow_or_append_iff hfirst hlater.isFoundBelow).mpr hlater
    · rw [hfound, hfound', Option.or_assoc]

/-! ### The tree -/

/-- What a search in devices finds with a bound: something when there is something, and what expires
first exactly under a condition. -/
def SearchMeets (bound : ℤ) (services : List Service) (found : Option Service) (condition : Bool) :
    Prop :=
  IsFoundBelow getSubscriptionExpiration bound (expiringServices services) found ∧
    (IsLeastBelow getSubscriptionExpiration bound (expiringServices services) found ↔
      condition = true)

/-- The search in a device, when the loop over the devices below it is one. -/
theorem getFirstExpiratedService_meets (subRes : ServiceKey → RenewalResponse)
    {object : DeviceObject} {children : List Device} (bound : ℤ)
    (hown : ∀ srv ∈ object.services, isDue now srv = false)
    (hchildren : ∀ bound foundSrv, ∃ found : Option Service,
      (getFirstExpiratedServiceIn now subRes children bound foundSrv).foundSrv =
        found.or foundSrv ∧
      SearchMeets bound (treeServices children) found (lastIsFirstIn bound children)) :
    SearchMeets bound (object.services ++ treeServices children)
      (getFirstExpiratedService now subRes (.node object children) bound).foundSrv
      (lastIsFirst bound (.node object children)) := by
  obtain ⟨first, hfirst, hfound, htime⟩ :=
    scanServices_isLeastBelow (fun i ↦ subRes (object.id, i)) object.services 0 bound none hown
  obtain ⟨second, hsecond, hbelow, hleast⟩ := hchildren
    (leastKey getSubscriptionExpiration bound (expiringServices object.services)) first
  have hscan : (getFirstExpiratedService now subRes (.node object children) bound).foundSrv =
      second.or first := by
    rw [getFirstExpiratedService, ← hsecond]
    simp only [htime, hfound, Option.or_none]
  rw [SearchMeets, hscan, expiringServices_append, lastIsFirst, ← hleast]
  exact ⟨isFoundBelow_or_append hfirst hbelow, isLeastBelow_or_append_iff hfirst hbelow⟩

/-- The loop over the devices finds something before the bound when there is something, and what
expires first exactly when the last device has it, at each device that is gone into. -/
theorem exists_getFirstExpiratedServiceIn (subRes : ServiceKey → RenewalResponse)
    (devices : List Device) (bound : ℤ) (foundSrv : Option Service)
    (hdue : ∀ srv ∈ treeServices devices, isDue now srv = false) :
    ∃ found : Option Service,
      (getFirstExpiratedServiceIn now subRes devices bound foundSrv).foundSrv =
        found.or foundSrv ∧
      SearchMeets bound (treeServices devices) found (lastIsFirstIn bound devices) := by
  induction devices using RoseTree.forest_induction generalizing bound foundSrv with
  | nil => exact ⟨none, rfl, rfl, iff_of_true rfl rfl⟩
  | cons object children rest hchildren hrest =>
    rw [treeServices_cons] at hdue ⊢
    obtain ⟨hdue, hdueRest⟩ := List.forall_mem_append.mp hdue
    obtain ⟨hdueOwn, hdueBelow⟩ := List.forall_mem_append.mp hdue
    obtain ⟨hbelow, hleast⟩ := getFirstExpiratedService_meets subRes bound hdueOwn
      fun bound foundSrv ↦ hchildren bound foundSrv hdueBelow
    obtain ⟨later, hlater, hlaterBelow, hlaterLeast⟩ := hrest bound
      ((getFirstExpiratedService now subRes (.node object children) bound).foundSrv.or foundSrv)
      hdueRest
    refine ⟨later.or (getFirstExpiratedService now subRes (.node object children) bound).foundSrv,
      ?_, ?_⟩
    · rw [getFirstExpiratedServiceIn, Option.or_assoc]
      exact hlater
    · rw [SearchMeets, expiringServices_append, lastIsFirstIn]
      refine ⟨isFoundBelow_append hbelow hlaterBelow, ?_⟩
      cases later with
      | none =>
        have hnil : below getSubscriptionExpiration bound
          (expiringServices (treeServices rest)) = [] := hlaterBelow
        rw [hnil, if_pos List.isEmpty_nil, Option.none_or, isLeastBelow_append_of_nil hnil]
        exact hleast
      | some srv =>
        have hne : ¬ (below getSubscriptionExpiration bound
            (expiringServices (treeServices rest))).isEmpty = true :=
          fun hempty ↦ List.ne_nil_of_mem hlaterBelow (List.isEmpty_iff.mp hempty)
        have hbefore : servicesBefore bound (.node object children) =
            below getSubscriptionExpiration bound
              (expiringServices (object.services ++ treeServices children)) := by
          rw [servicesBefore, treeServices_cons, treeServices_nil, List.append_nil]
        rw [if_neg hne, Option.some_or, isLeastBelow_append_iff hlaterBelow, hlaterLeast, hbefore]
        simp only [Bool.and_eq_true, List.all_eq_true, List.any_eq_true, decide_eq_true_iff]

/-- When no subscription has expired, the search finds the service that expires first exactly when,
at each device that is gone into, the last device with an expiration before the bound has the
earliest. -/
theorem getFirstExpiratedService_iff (now : ℤ) (subRes : ServiceKey → RenewalResponse)
    (dev : Device) (bound : ℤ) (hdue : ∀ srv ∈ treeServices [dev], isDue now srv = false) :
    FindsFirst now subRes dev bound ↔ lastIsFirst bound dev = true := by
  rcases dev with ⟨object, children⟩
  rw [findsFirst_iff]
  rw [treeServices_cons, treeServices_nil, List.append_nil] at hdue ⊢
  obtain ⟨hdueOwn, hdueBelow⟩ := List.forall_mem_append.mp hdue
  exact (getFirstExpiratedService_meets subRes bound hdueOwn fun bound foundSrv ↦
    exists_getFirstExpiratedServiceIn subRes children bound foundSrv hdueBelow).2

end search

/-- A service that was subscribed to at the time zero. -/
def leasedService (timeout : ℤ) : Service :=
  ⟨none, some "urn:power".toList, none, none, none, some "uuid:sid".toList, timeout, 0, 0⟩

/-- A device whose services were subscribed to at the time zero. -/
def leasedDevice (id : DeviceId) (timeouts : List ℤ) (devices : List Device) : Device :=
  .node ⟨id, none, none, timeouts.map leasedService, ⟨none, [], 0⟩, 80⟩ devices

/-- The service that expires first is two levels down, in the last embedded device. -/
theorem getFirstExpiratedService_leased :
    FindsFirst 0 (fun _ ↦ none)
      (leasedDevice 0 [600] [leasedDevice 1 [500] [], leasedDevice 2 [] [leasedDevice 3 [400] []]])
      1000 :=
  (getFirstExpiratedService_iff 0 _ _ 1000 (by decide)).mpr (by decide)

/-- The second embedded device hides the service of the first one, which expires before its own. -/
theorem not_findsFirst :
    ¬ FindsFirst 0 (fun _ ↦ none)
      (leasedDevice 0 [600] [leasedDevice 1 [400] [], leasedDevice 2 [500] []]) 1000 := by
  intro h
  have hfound : (getFirstExpiratedService 0 (fun _ ↦ none)
      (leasedDevice 0 [600] [leasedDevice 1 [400] [], leasedDevice 2 [500] []]) 1000).foundSrv =
      some (leasedService 500) := by decide
  have hle := (h.first _ hfound).2 (leasedService 400) (by decide)
  exact absurd hle (by decide)

end Mupnp.Expiration
