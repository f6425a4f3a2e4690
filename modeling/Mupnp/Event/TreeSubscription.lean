import Mupnp.Event.SidFidelity

/-!
# Subscribing to all services of a device tree

`mupnp_controlpoint_subscribeall` and `mupnp_controlpoint_resubscribeall` of
`controlpoint_event.c`. Both attempt the services of a device and then go over its embedded devices,
but the step of that loop follows the link of the device itself and not of the embedded device. A
device is therefore given with its links: the devices behind it in its list, or itself where it is
in no list (`deviceNext`). The routines need not return, and the recursion is bounded by fuel.

They return exactly when every device on the way down the first embedded devices that has an embedded
device is the last one of a list (`Returns`), and then they have attempted the services on that way
(`attemptAll_eq_some`). So each service of the tree is attempted exactly once when they return and
no other embedded device has a service (`attempts_tree_iff`).
-/

set_option autoImplicit false
set_option relaxedAutoImplicit false

namespace Mupnp.Event

open Foundation Util Discovery

/-- A pointer to a service: the device that holds it and its place there. -/
structure ServiceRef where
  device : DeviceId
  index : ℕ
  deriving DecidableEq

/-- The services of a device object, without those of its embedded devices. -/
def ownServices (object : DeviceObject) : List ServiceRef :=
  (List.range object.services.length).map (ServiceRef.mk object.id)

/-- The services of the trees of a list. -/
def treeServices (devices : List Device) : List ServiceRef :=
  (RoseTree.preorderIn devices).flatMap ownServices

/-! ### The routines -/

/-- The subscriptions at the control point, with the network that answers and the services for which
an attempt was made. -/
structure SubscriptionRun (ν : Type*) where
  network : ν
  service : ServiceRef → EventedService
  attempted : List ServiceRef

section routines

variable {ν : Type*}

/-- How the network answers a subscription request for a service. -/
abbrev Answering (ν : Type*) := ν → ServiceRef → EventedService → ν × Option SubscriptionGrant

/-- One of the functions that try to subscribe to a service. -/
abbrev Attempt (ν : Type*) := ServiceRef → SubscriptionRun ν → SubscriptionRun ν × Bool

/-- `mupnp_controlpoint_resubscribe`. -/
def resubscribe (answering : Answering ν) : Attempt ν := fun ref run ↦
  let service := run.service ref
  let attempted := run.attempted ++ [ref]
  if service.isSubscribed = false then ({ run with attempted := attempted }, false)
  else
    let (network, answer) := answering run.network ref service
    ({ network := network
       service := Function.update run.service ref (service.resubscribe answer)
       attempted := attempted }, answer.isSome)

/-- `mupnp_controlpoint_subscribe`. -/
def subscribe (answering : Answering ν) : Attempt ν := fun ref run ↦
  let service := run.service ref
  if service.isSubscribed = true then resubscribe answering ref run
  else
    let (network, answer) := answering run.network ref service
    ({ network := network
       service := Function.update run.service ref (service.subscribe answer)
       attempted := run.attempted ++ [ref] }, answer.isSome)

/-- The links of a device: the devices behind it in its list, and nothing for a device that is in no
list. -/
abbrev Links := Option (List Device)

/-- `mupnp_device_next`: a device in no list is linked to itself. -/
def deviceNext (dev : Device) : Links → Option (Device × Links)
  | none => some (dev, none)
  | some [] => none
  | some (next :: rest) => some (next, some rest)

/-- `mupnp_device_getdevices`. -/
def getDevices (dev : Device) : Option (Device × Links) :=
  match dev.devices with
  | [] => none
  | childDev :: rest => some (childDev, some rest)

variable (attempt : Attempt ν)

/-- The loop over the services of a device. -/
def attemptServices (services : List ServiceRef) (run : SubscriptionRun ν) :
    SubscriptionRun ν × Bool :=
  services.foldl (fun (run, isSuccess) ref ↦
    let (run, done) := attempt ref run
    (run, if done = true then true else isSuccess)) (run, false)

mutual

/-- The two routines, with the function that they call for a service: `none` when the fuel does not
suffice. -/
def attemptAll : ℕ → Device → Links → SubscriptionRun ν → Option (SubscriptionRun ν × Bool)
  | 0, _, _, _ => none
  | fuel + 1, dev, links, run =>
    let (run, isSuccess) := attemptServices attempt (ownServices dev.value) run
    attemptDevices fuel dev links (getDevices dev) run isSuccess

/-- The loop over the embedded devices: the device that comes next is the one behind the device
itself. -/
def attemptDevices : ℕ → Device → Links → Option (Device × Links) → SubscriptionRun ν → Bool →
    Option (SubscriptionRun ν × Bool)
  | _, _, _, none, run, isSuccess => some (run, isSuccess)
  | 0, _, _, some _, _, _ => none
  | fuel + 1, dev, links, some (childDev, childLinks), run, isSuccess =>
    match attemptAll fuel childDev childLinks run with
    | none => none
    | some (run, done) =>
      attemptDevices fuel dev links (deviceNext dev links) run
        (if done = true then true else isSuccess)

end

end routines

/-- `mupnp_controlpoint_subscribeall`. -/
def subscribeAll {ν : Type*} (answering : Answering ν) (fuel : ℕ) (dev : Device)
    (links : Links) (run : SubscriptionRun ν) : Option (SubscriptionRun ν × Bool) :=
  attemptAll (subscribe answering) fuel dev links run

/-- `mupnp_controlpoint_resubscribeall`. -/
def resubscribeAll {ν : Type*} (answering : Answering ν) (fuel : ℕ) (dev : Device)
    (links : Links) (run : SubscriptionRun ν) : Option (SubscriptionRun ν × Bool) :=
  attemptAll (resubscribe answering) fuel dev links run

/-! ### What is attempted -/

/-- An attempt is noted, and nothing else is. -/
def Records {ν : Type*} (attempt : Attempt ν) : Prop :=
  ∀ ref run, (attempt ref run).1.attempted = run.attempted ++ [ref]

/-- The services on the way down the first embedded devices. -/
def visitedServices : Device → List ServiceRef
  | .node object [] => ownServices object
  | .node object (childDev :: _) => ownServices object ++ visitedServices childDev

/-- The services of the other embedded devices of the devices on that way. -/
def passedOverServices : Device → List ServiceRef
  | .node _ [] => []
  | .node _ (childDev :: rest) => treeServices rest ++ passedOverServices childDev

/-- Every device on that way that has an embedded device is the last one of a list. -/
def Returns : Device → Links → Prop
  | .node _ [], _ => True
  | .node _ (childDev :: rest), links => links = some [] ∧ Returns childDev (some rest)

theorem records_resubscribe {ν : Type*} (answering : Answering ν) :
    Records (resubscribe answering) := by
  intro ref run
  unfold resubscribe
  dsimp only
  split_ifs <;> rfl

theorem records_subscribe {ν : Type*} (answering : Answering ν) :
    Records (subscribe answering) := by
  intro ref run
  unfold subscribe
  dsimp only
  split_ifs
  · exact records_resubscribe answering ref run
  · rfl

/-- Every service of the tree is on the way or passed over. -/
theorem visited_append_passedOver_perm (dev : Device) :
    (visitedServices dev ++ passedOverServices dev).Perm (treeServices [dev]) := by
  induction dev using RoseTree.first_child_induction with
  | leaf object =>
    simp [visitedServices, passedOverServices, treeServices, RoseTree.preorderIn_cons]
  | child object childDev rest ih =>
    have htree : treeServices [.node object (childDev :: rest)] =
        ownServices object ++ (treeServices [childDev] ++ treeServices rest) := by
      unfold treeServices
      rw [RoseTree.preorderIn_cons, RoseTree.preorderIn_nil, List.append_nil, List.flatMap_cons,
        RoseTree.value_node, RoseTree.children_node,
        RoseTree.preorderIn_cons_eq_append childDev rest, List.flatMap_append]
      rfl
    rw [htree, visitedServices, passedOverServices, List.append_assoc]
    refine List.Perm.append_left _ ?_
    calc visitedServices childDev ++ (treeServices rest ++ passedOverServices childDev)
        = visitedServices childDev ++ treeServices rest ++ passedOverServices childDev :=
          (List.append_assoc _ _ _).symm
      _ |>.Perm (visitedServices childDev ++ (passedOverServices childDev ++ treeServices rest)) :=
          by
            rw [List.append_assoc]
            exact List.Perm.append_left _ List.perm_append_comm
      _ |>.Perm (treeServices [childDev] ++ treeServices rest) := by
            rw [← List.append_assoc]
            exact ih.append_right _

section routines

variable {ν : Type*} {attempt : Attempt ν}

theorem attemptDevices_none (fuel : ℕ) (dev : Device) (links : Links) (run : SubscriptionRun ν)
    (isSuccess : Bool) : attemptDevices attempt fuel dev links none run isSuccess =
      some (run, isSuccess) := by
  cases fuel <;> rw [attemptDevices]

/-- Only the last device of a list has no device behind it. -/
theorem exists_deviceNext {links : Links} (hlinks : links ≠ some []) (dev : Device) :
    ∃ next, deviceNext dev links = some next := by
  cases links with
  | none => exact ⟨_, rfl⟩
  | some siblings =>
    cases siblings with
    | nil => exact absurd rfl hlinks
    | cons sibling rest => exact ⟨_, rfl⟩

/-- A loop that goes on behind a device that is not the last one of a list never ends. -/
theorem attemptDevices_eq_none {links : Links} (hlinks : links ≠ some []) (fuel : ℕ) (dev : Device)
    (child : Device × Links) (run : SubscriptionRun ν) (isSuccess : Bool) :
    attemptDevices attempt fuel dev links (some child) run isSuccess = none := by
  induction fuel generalizing child run isSuccess with
  | zero => rw [attemptDevices]
  | succ fuel ih =>
    obtain ⟨next, hnext⟩ := exists_deviceNext hlinks dev
    rw [attemptDevices, hnext]
    cases attemptAll attempt fuel child.1 child.2 run with
    | none => rfl
    | some result => exact ih next _ _

/-- At the end of a list only the first embedded device is taken. -/
theorem attemptDevices_succ (fuel : ℕ) (dev : Device) (child : Device × Links)
    (run : SubscriptionRun ν) (isSuccess : Bool) :
    attemptDevices attempt (fuel + 1) dev (some []) (some child) run isSuccess =
      (attemptAll attempt fuel child.1 child.2 run).map fun result ↦
        (result.1, if result.2 = true then true else isSuccess) := by
  rw [attemptDevices]
  cases attemptAll attempt fuel child.1 child.2 run with
  | none => rfl
  | some result => exact attemptDevices_none _ _ _ _ _

/-- The routines return where every device on the way is the last one of a list. -/
theorem exists_attemptAll {dev : Device} {links : Links} (h : Returns dev links)
    (run : SubscriptionRun ν) :
    ∃ fuel result, attemptAll attempt fuel dev links run = some result := by
  induction dev using RoseTree.first_child_induction generalizing links run with
  | leaf object =>
    refine ⟨1, attemptServices attempt (ownServices object) run, ?_⟩
    rw [attemptAll]
    exact attemptDevices_none _ _ _ _ _
  | child object childDev rest ih =>
    obtain ⟨rfl, hchild⟩ := h
    obtain ⟨fuel, result, hresult⟩ := ih hchild (attemptServices attempt (ownServices object) run).1
    refine ⟨fuel + 2, (result.1, if result.2 = true then true else
      (attemptServices attempt (ownServices object) run).2), ?_⟩
    rw [attemptAll]
    exact (attemptDevices_succ _ _ _ _ _).trans (congrArg _ hresult)

variable (hrecords : Records attempt)
include hrecords

theorem attemptServices_attempted (services : List ServiceRef) (run : SubscriptionRun ν) :
    (attemptServices attempt services run).1.attempted = run.attempted ++ services := by
  have hloop : ∀ (isSuccess : Bool) (run : SubscriptionRun ν),
      (services.foldl (fun (run, isSuccess) ref ↦
        let (run, done) := attempt ref run
        (run, if done = true then true else isSuccess)) (run, isSuccess)).1.attempted =
        run.attempted ++ services := by
    induction services with
    | nil => exact fun _ run ↦ (List.append_nil _).symm
    | cons ref rest ih =>
      intro isSuccess run
      rw [List.foldl_cons, ih, hrecords ref run, List.append_assoc]
      rfl
  exact hloop false run

/-- When the routines return, they took the way down the first embedded devices. -/
theorem attemptAll_eq_some {fuel : ℕ} {dev : Device} {links : Links} {run : SubscriptionRun ν}
    {result : SubscriptionRun ν × Bool}
    (h : attemptAll attempt fuel dev links run = some result) :
    Returns dev links ∧ result.1.attempted = run.attempted ++ visitedServices dev := by
  induction dev using RoseTree.first_child_induction generalizing fuel links run result with
  | leaf object =>
    cases fuel with
    | zero => exact absurd h (Option.some_ne_none result).symm
    | succ fuel =>
      rw [attemptAll] at h
      obtain rfl := Option.some.inj ((attemptDevices_none _ _ _ _ _).symm.trans h)
      exact ⟨trivial, attemptServices_attempted hrecords _ _⟩
  | child object childDev rest ih =>
    cases fuel with
    | zero => exact absurd h (Option.some_ne_none result).symm
    | succ fuel =>
      rw [attemptAll] at h
      by_cases hlinks : links = some []
      · subst hlinks
        cases fuel with
        | zero => exact absurd h (Option.some_ne_none result).symm
        | succ fuel =>
          replace h := (attemptDevices_succ _ _ _ _ _).symm.trans h
          obtain ⟨childResult, hchild, rfl⟩ := Option.map_eq_some_iff.mp h
          obtain ⟨hreturns, hattempted⟩ := ih hchild
          refine ⟨⟨rfl, hreturns⟩, hattempted.trans ?_⟩
          rw [visitedServices, ← List.append_assoc]
          exact congrArg (· ++ _) (attemptServices_attempted hrecords _ _)
      · exact absurd ((attemptDevices_eq_none hlinks _ _ _ _ _).symm.trans h)
          (Option.some_ne_none result).symm

end routines

/-! ### Completeness -/

/-- A routine returns and has then attempted each service of the tree once and no other. -/
def CoversTree {ν : Type*} (routine : ℕ → SubscriptionRun ν → Option (SubscriptionRun ν × Bool))
    (dev : Device) (run : SubscriptionRun ν) : Prop :=
  ∃ fuel result attempted, routine fuel run = some result ∧
    result.1.attempted = run.attempted ++ attempted ∧ attempted.Perm (treeServices [dev])

theorem coversTree_iff {ν : Type*} {attempt : Attempt ν} (hrecords : Records attempt)
    (dev : Device) (links : Links) (run : SubscriptionRun ν) :
    CoversTree (fun fuel ↦ attemptAll attempt fuel dev links) dev run ↔
      Returns dev links ∧ passedOverServices dev = [] := by
  have hperm := visited_append_passedOver_perm dev
  constructor
  · rintro ⟨fuel, result, attempted, hresult, hattempted, hservices⟩
    obtain ⟨hreturns, hvisited⟩ := attemptAll_eq_some hrecords hresult
    obtain rfl : attempted = visitedServices dev :=
      List.append_cancel_left (hattempted.symm.trans hvisited)
    have hlength := (hservices.trans hperm.symm).length_eq
    rw [List.length_append] at hlength
    exact ⟨hreturns, List.eq_nil_of_length_eq_zero (by omega)⟩
  · rintro ⟨hreturns, hpassed⟩
    obtain ⟨fuel, result, hresult⟩ := @exists_attemptAll ν attempt dev links hreturns run
    refine ⟨fuel, result, visitedServices dev, hresult, (attemptAll_eq_some hrecords hresult).2, ?_⟩
    rwa [hpassed, List.append_nil] at hperm

/-- The two routines return and attempt each service of the tree exactly once exactly when every
device on the way down the first embedded devices that has an embedded device is the last one of a
list, and no embedded device off this way has a service in its tree. -/
theorem attempts_tree_iff {ν : Type*} (answering : Answering ν) (dev : Device)
    (links : Links) (run : SubscriptionRun ν) :
    (CoversTree (fun fuel ↦ subscribeAll answering fuel dev links) dev run ↔
        Returns dev links ∧ passedOverServices dev = []) ∧
      (CoversTree (fun fuel ↦ resubscribeAll answering fuel dev links) dev run ↔
        Returns dev links ∧ passedOverServices dev = []) :=
  ⟨coversTree_iff (records_subscribe answering) dev links run,
    coversTree_iff (records_resubscribe answering) dev links run⟩

/-- A device object with one service. -/
def serviceObject (id : DeviceId) : DeviceObject where
  id := id
  udn := none
  deviceType := none
  services := [⟨none, none, none, none, none, none, 0, 0, 0⟩]
  ssdpPkt := ⟨none, [], 0⟩
  httpPort := 0

/-- A root device with two embedded devices, the last one in its list. -/
theorem not_attempts_tree :
    ¬ ∀ (answering : Answering Unit) (dev : Device) (links : Links)
        (run : SubscriptionRun Unit),
      CoversTree (fun fuel ↦ subscribeAll answering fuel dev links) dev run ∧
        CoversTree (fun fuel ↦ resubscribeAll answering fuel dev links) dev run := by
  intro h
  have hcovers := (h (fun network _ _ ↦ (network, none))
    (.node (serviceObject 0) [.node (serviceObject 1) [], .node (serviceObject 2) []])
    (some [])
    ⟨(), fun _ ↦ ⟨⟨none, none, none, none, none, none, 0, 0, 0⟩, []⟩, []⟩).1
  have hpassed := ((coversTree_iff (records_subscribe _) _ _ _).mp hcovers).2
  exact absurd hpassed (List.cons_ne_nil _ _)

end Mupnp.Event
