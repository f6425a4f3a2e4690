import Mupnp.Event.NotifyRequest

/-!
# Notification rounds

`service_notify.c`: a device tells all subscribers of a service the value of one variable, or the
values of all evented variables. `notifyMain` is one run of `mupnp_service_notifymain`, which
holds the service mutex: subscribers that have expired are removed, the others are notified in
list order, and those that do not acknowledge are removed.

A subscriber record has an identity that stands for its address.
-/

set_option autoImplicit false
set_option relaxedAutoImplicit false

namespace Mupnp.Event

open Foundation Util Xml

abbrev SubscriberId := ℕ

/-- A subscription identifier that contains `uuid`, without its first five characters. -/
def withoutUuid (sid : CString) : CString :=
  if 0 ≤ strstr (some sid) (some "uuid".toList) then sid.drop 5 else sid

/-- `mupnp_service_getsubscriberbysid`: a prefix `uuid:` is skipped on both sides. -/
def getSubscriberBySid (subscribers : List (SubscriberId × Subscriber)) (sid : Option CString) :
    Option (SubscriberId × Subscriber) :=
  if strlen sid ≤ 0 then none
  else subscribers.find? fun sub ↦ streq (sid.map withoutUuid) (sub.2.sid.map withoutUuid)

/-- What a round is about: the variable at a position of the state table, or every evented
variable. -/
inductive Round where
  | single (index : ℕ)
  | whole
  deriving DecidableEq

/-- The message of a round to a subscriber. -/
def Round.request (round : Round) (stateTable : List StateVariable) (sub : Subscriber) :
    NotifyRequest :=
  match round with
  | single index => setPropertySetNode sub none stateTable[index]?
  | whole => setPropertySetNode sub (some stateTable) none

/-- A message that was sent, with the state table of the service at that time. -/
structure SentNotification where
  recipient : SubscriberId
  request : NotifyRequest
  stateTable : List StateVariable

/-- `mupnp_service_notifymain`, run at the time `currTime`: the subscribers that stay, and the
messages in the order in which they were sent. -/
def notifyMain (subscribers : List (SubscriberId × Subscriber)) (stateTable : List StateVariable)
    (round : Round) (currTime : ℤ) (acknowledged : SubscriberId → Bool) :
    List (SubscriberId × Subscriber) × List SentNotification :=
  let live := subscribers.filter fun sub ↦ !sub.2.isExpired currTime
  (live.filterMap fun sub ↦
      if acknowledged sub.1 then some (sub.1, sub.2.incrementNotifyCount) else none,
    live.map fun sub ↦ ⟨sub.1, round.request stateTable sub.2, stateTable⟩)

/-! ### What a message carries -/

/-- The names and the values that a message carries. -/
def NotifyRequest.carried (notifyReq : NotifyRequest) : List (Option CString × Option CString) :=
  (notifyReq.root.map RoseTree.children).getD [] |>.filterMap fun propNode ↦
    propNode.children.head?.map fun (varNode : XmlNode) ↦ (varNode.name, varNode.text)

/-- A message carries every evented variable of a state table. -/
def NotifyRequest.CarriesAll (notifyReq : NotifyRequest) (stateTable : List StateVariable) : Prop :=
  ∀ statVar ∈ stateTable, statVar.isSendEvents = true →
    (statVar.name, statVar.value) ∈ notifyReq.carried

theorem children_createPropertySetNode (stateTable : List StateVariable)
    (statVar : Option StateVariable) :
    (createPropertySetNode (some stateTable) statVar).children =
      (stateTable.filter StateVariable.isSendEvents).map propertyNode := by
  rw [createPropertySetNode, XmlNode.foldl_addChildNode]
  rfl

theorem children_propertyNode (statVar : StateVariable) :
    (propertyNode statVar).children =
      [.node ⟨stringSetValue none statVar.name, stringSetValue none statVar.value, []⟩ []] := rfl

/-- A round about all variables carries them. -/
theorem carriesAll_whole (stateTable : List StateVariable) (sub : Subscriber) :
    (Round.whole.request stateTable sub).CarriesAll stateTable := by
  intro statVar hmem hevented
  have hchild : propertyNode statVar ∈
      (createPropertySetNode (some stateTable) none).children := by
    rw [children_createPropertySetNode]
    exact List.mem_map_of_mem (List.mem_filter.mpr ⟨hmem, hevented⟩)
  refine List.mem_filterMap.mpr ⟨propertyNode statVar, hchild, ?_⟩
  rw [children_propertyNode, stringSetValue_none_left, stringSetValue_none_left]
  rfl

/-- A round about the only evented variable carries all evented variables. -/
theorem carriesAll_single {stateTable : List StateVariable} {index : ℕ}
    (honly : ∀ statVar ∈ stateTable, statVar.isSendEvents = true →
      stateTable[index]? = some statVar) (sub : Subscriber) :
    ((Round.single index).request stateTable sub).CarriesAll stateTable := by
  intro statVar hmem hevented
  have hnode : (createPropertySetNode none stateTable[index]?).children =
      [propertyNode statVar] := by
    rw [honly statVar hmem hevented]
    rfl
  refine List.mem_filterMap.mpr ⟨propertyNode statVar, ?_, ?_⟩
  · show propertyNode statVar ∈ (createPropertySetNode none stateTable[index]?).children
    rw [hnode]
    exact List.mem_singleton_self _
  · rw [children_propertyNode, stringSetValue_none_left, stringSetValue_none_left]
    rfl

/-- The sequence number of a message is the notify count of its subscriber. -/
theorem getSeq_request (round : Round) (stateTable : List StateVariable) {sub : Subscriber}
    (hpos : 0 ≤ sub.notifyCount) (hmax : sub.notifyCount ≤ notifyCountMax) :
    (round.request stateTable sub).getSeq = BitVec.ofInt 64 sub.notifyCount := by
  have hlong : sub.notifyCount ≤ longMax := by
    unfold notifyCountMax at hmax
    unfold longMax
    omega
  cases round with
  | single index => exact setPropertySetNode_getSeq hpos hlong _ _
  | whole => exact setPropertySetNode_getSeq hpos hlong _ _

end Mupnp.Event
