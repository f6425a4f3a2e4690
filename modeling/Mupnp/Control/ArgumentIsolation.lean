import Mupnp.Control.ActionRequest

/-!
# What the listener of an action sees of earlier requests

The arguments of an action keep their values from one control request to the next, and a request
without a value for an argument, which is how an empty element is read, leaves the old value. So
the input arguments are free of earlier requests exactly when the request has a value for each of
them (`requests_do_not_leak_iff`).

`value_argumentListSet` says what one request does to the value of an argument: it is the last
value that the request has for it, or the old one. `shape_afterRequests` says that requests change
values only.
-/

set_option autoImplicit false
set_option relaxedAutoImplicit false

namespace Mupnp.Control

open Util Xml

/-! ### Names and directions stay -/

/-- The nodes of the arguments. -/
def nodes (argList : List Argument) : List XmlNode := argList.map Argument.argumentNode

theorem argumentListGet_congr {argList argList' : List Argument}
    (h : nodes argList = nodes argList')
    (name : Option CString) : argumentListGet argList name = argumentListGet argList' name := by
  have hnodes : ∀ (args : List Argument) (name : CString),
      args.findIdx? (fun arg ↦ arg.getName.any (strcaseeq · name)) =
        (nodes args).findIdx? fun node ↦
          (XmlNode.getChildNodeValue node "name".toList).any (strcaseeq · name) := by
    intro args name
    rw [nodes, List.findIdx?_map]
    rfl
  cases name with
  | none => rfl
  | some name => simp only [argumentListGet, Option.bind_some, hnodes, h]

/-- An argument that is seen was there before, with the same node. -/
theorem exists_getElem?_of_nodes {argList argList' : List Argument}
    (h : nodes argList = nodes argList') {i : ℕ} {arg : Argument} (harg : argList[i]? = some arg) :
    ∃ arg', argList'[i]? = some arg' ∧ arg'.argumentNode = arg.argumentNode := by
  have hsame := congrArg (fun list ↦ list[i]?) h
  simp only [nodes, List.getElem?_map, harg, Option.map_some] at hsame
  exact Option.map_eq_some_iff.mp hsame.symm

theorem isInDirection_congr {arg arg' : Argument} (h : arg'.argumentNode = arg.argumentNode) :
    arg'.isInDirection = arg.isInDirection := by
  rw [Argument.isInDirection, Argument.isInDirection, Argument.getDirection, Argument.getDirection,
    h]

theorem nodes_modify (argList : List Argument) (position : ℕ) (data : Option CString) :
    nodes (argList.modify position (Argument.setValue · data)) = nodes argList := by
  refine List.ext_getElem? fun i ↦ ?_
  simp only [nodes, List.getElem?_map, List.getElem?_modify]
  cases argList[i]? with
  | none => rfl
  | some arg =>
    simp only [Option.map_some]
    split_ifs <;> rfl

theorem nodes_setFromSource (argList : List Argument) (srcArg : Argument) :
    nodes (setFromSource argList srcArg) = nodes argList := by
  rw [setFromSource]
  split
  · rfl
  · exact nodes_modify argList _ _

theorem nodes_argumentListSet (argList srcArgList : List Argument) :
    nodes (argumentListSet argList srcArgList) = nodes argList := by
  induction srcArgList generalizing argList with
  | nil => rfl
  | cons srcArg rest ih => exact (ih _).trans (nodes_setFromSource argList srcArg)

theorem nodes_clearOutputArgumentValues (argList : List Argument) :
    nodes (clearOutputArgumentValues argList) = nodes argList := by
  rw [nodes, clearOutputArgumentValues, List.map_map]
  refine List.map_congr_left fun arg _ ↦ ?_
  simp only [Function.comp_apply]
  split_ifs <;> rfl

theorem nodes_callListener (listener : ActionListener) (argList : List Argument) :
    nodes (callListener listener argList) = nodes argList := by
  have hwrites : ∀ (writes : List (ℕ × Option CString)) (args : List Argument),
      nodes (writes.foldl (fun args write ↦ args.modify write.1 (Argument.setValue · write.2))
        args) =
        nodes args := by
    intro writes
    induction writes with
    | nil => exact fun _ ↦ rfl
    | cons write rest ih => exact fun args ↦ (ih _).trans (nodes_modify args write.1 write.2)
  exact hwrites _ _

/-- What no request changes in an action. -/
def Action.shape (action : Action) : XmlNode × List XmlNode :=
  (action.actionNode, nodes action.argumentList)

theorem shape_changeArguments (actionList : List Action) (position : ℕ)
    {change : List Argument → List Argument} (hchange : ∀ args, nodes (change args) = nodes args) :
    (changeArguments actionList position change).map Action.shape =
      actionList.map Action.shape := by
  refine List.ext_getElem? fun i ↦ ?_
  simp only [changeArguments, List.getElem?_map, List.getElem?_modify]
  cases actionList[i]? with
  | none => rfl
  | some action =>
    by_cases hposition : position = i
    · simp [hposition, Action.shape, hchange]
    · simp [hposition]

theorem nodes_seenArguments (bodyNode : Option XmlNode) (argList : List Argument) :
    nodes (seenArguments bodyNode argList) = nodes argList := by
  rw [seenArguments, nodes_clearOutputArgumentValues, givenArguments, nodes_argumentListSet]

/-- A request changes values only. -/
theorem shape_actionControlRequestReceived (listener : Option ActionListener)
    (actionList : List Action) (bodyNode : Option XmlNode) :
    (actionControlRequestReceived listener actionList bodyNode).1.map Action.shape =
      actionList.map Action.shape := by
  unfold actionControlRequestReceived
  cases getActionByName actionList (getActionName bodyNode) with
  | none => rfl
  | some position =>
    cases listener with
    | none => exact shape_changeArguments actionList _ fun args ↦ nodes_argumentListSet args _
    | some listener =>
      exact shape_changeArguments actionList _ fun args ↦
        (nodes_callListener listener _).trans (nodes_seenArguments bodyNode args)

/-- A history of requests changes values only. -/
theorem shape_afterRequests (listener : Option ActionListener) (actionList : List Action)
    (history : List (Option XmlNode)) :
    (afterRequests listener actionList history).map Action.shape = actionList.map Action.shape := by
  induction history generalizing actionList with
  | nil => rfl
  | cons bodyNode rest ih =>
    exact (ih _).trans (shape_actionControlRequestReceived listener actionList bodyNode)

theorem getActionByName_congr {actionList actionList' : List Action}
    (h : actionList.map Action.shape = actionList'.map Action.shape) (name : CString) :
    getActionByName actionList name = getActionByName actionList' name := by
  have hshape : ∀ actions : List Action,
      actions.findIdx? (fun action ↦ streq action.getName (some name)) =
        (actions.map Action.shape).findIdx? fun shape ↦
          streq (XmlNode.getChildNodeValue shape.1 "name".toList) (some name) := by
    intro actions
    rw [List.findIdx?_map]
    rfl
  rw [getActionByName, getActionByName, hshape, hshape, h]

/-! ### Values -/

/-- The last value that the arguments of a request have for the argument at a position. -/
def suppliedValue (argList srcArgList : List Argument) (position : ℕ) : Option CString :=
  ((srcArgList.filter fun srcArg ↦
    argumentListGet argList srcArg.getName = some position).filterMap Argument.value).getLast?

theorem suppliedValue_congr {argList argList' : List Argument} (h : nodes argList = nodes argList')
    (srcArgList : List Argument) (position : ℕ) :
    suppliedValue argList srcArgList position = suppliedValue argList' srcArgList position := by
  simp only [suppliedValue, argumentListGet_congr h]

theorem value_setFromSource (argList : List Argument) (srcArg : Argument) (position : ℕ) :
    (setFromSource argList srcArg)[position]?.map Argument.value =
      argList[position]?.map fun arg ↦
        if argumentListGet argList srcArg.getName = some position then
          stringSetValue arg.value srcArg.value
        else arg.value := by
  rw [setFromSource]
  cases hget : argumentListGet argList srcArg.getName with
  | none => simp
  | some found =>
    simp only [List.getElem?_modify, Option.some.injEq]
    cases argList[position]? with
    | none => rfl
    | some arg =>
      by_cases hfound : found = position
      · simp [hfound, Argument.setValue]
      · simp [hfound]

/-- The value of an argument after a request is the last one that the request has for it, or the old
one. -/
theorem value_argumentListSet (argList srcArgList : List Argument) (position : ℕ) :
    (argumentListSet argList srcArgList)[position]?.map Argument.value =
      argList[position]?.map fun arg ↦
        stringSetValue arg.value (suppliedValue argList srcArgList position) := by
  induction srcArgList generalizing argList with
  | nil => rfl
  | cons srcArg rest ih =>
    have hnodes := nodes_setFromSource argList srcArg
    have hvalue := value_setFromSource argList srcArg position
    have hrest := ih (setFromSource argList srcArg)
    rw [suppliedValue_congr hnodes] at hrest
    rw [show argumentListSet argList (srcArg :: rest) =
      argumentListSet (setFromSource argList srcArg) rest from rfl, hrest]
    have hcomp : ∀ value, (setFromSource argList srcArg)[position]?.map
        (fun arg ↦ stringSetValue arg.value value) =
          ((setFromSource argList srcArg)[position]?.map Argument.value).map
            (stringSetValue · value) := by
      intro value
      rw [Option.map_map]
      rfl
    rw [hcomp, hvalue, Option.map_map]
    congr 1
    funext arg
    simp only [Function.comp_apply, suppliedValue]
    by_cases hget : argumentListGet argList srcArg.getName = some position
    · rw [if_pos hget, List.filter_cons_of_pos (by simpa using hget)]
      cases hsrc : srcArg.value with
      | none => rw [stringSetValue_none, List.filterMap_cons_none hsrc]
      | some value =>
        rw [List.filterMap_cons_some hsrc, List.getLast?_cons, stringSetValue_some]
        cases (List.filterMap Argument.value
          (rest.filter fun srcArg ↦ argumentListGet argList srcArg.getName =
            some position)).getLast? with
        | none => rfl
        | some last => rfl
    · rw [if_neg hget, List.filter_cons_of_neg (by simpa using hget)]

theorem suppliedValue_ne_none_iff {argList srcArgList : List Argument} {position : ℕ} :
    suppliedValue argList srcArgList position ≠ none ↔
      ∃ srcArg ∈ srcArgList, argumentListGet argList srcArg.getName = some position ∧
        srcArg.value ≠ none := by
  rw [suppliedValue, Ne, List.getLast?_eq_none_iff, List.filterMap_eq_nil_iff]
  simp only [List.mem_filter, decide_eq_true_eq, not_forall]
  constructor
  · rintro ⟨srcArg, ⟨hmem, hget⟩, hvalue⟩
    exact ⟨srcArg, hmem, hget, hvalue⟩
  · rintro ⟨srcArg, hmem, hget, hvalue⟩
    exact ⟨srcArg, ⟨hmem, hget⟩, hvalue⟩

/-- The value of an input argument that the listener sees. -/
theorem value_seenArguments {bodyNode : Option XmlNode} {argList : List Argument} {position : ℕ}
    {arg seen : Argument} (harg : argList[position]? = some arg)
    (hin : arg.isInDirection = true)
    (hseen : (seenArguments bodyNode argList)[position]? = some seen) :
    seen.value = stringSetValue arg.value
      (suppliedValue argList (setSoapRequest bodyNode) position) := by
  rw [seenArguments, clearOutputArgumentValues, List.getElem?_map] at hseen
  obtain ⟨given, hgiven, hcleared⟩ := Option.map_eq_some_iff.mp hseen
  have hnode : given.argumentNode = arg.argumentNode := by
    obtain ⟨same, hsame, hnode⟩ := exists_getElem?_of_nodes
      (nodes_argumentListSet argList (setSoapRequest bodyNode)).symm harg
    rw [givenArguments, hsame] at hgiven
    rw [← Option.some.inj hgiven, hnode]
  have hnotOut : given.isOutDirection = false := by
    rw [Argument.isInDirection, Argument.getDirection, ← hnode] at hin
    obtain ⟨direction, hdirection, hin'⟩ := streq_eq_true_iff.mp hin
    rw [Argument.isOutDirection, Argument.getDirection, hdirection, ← Option.some.inj hin']
    decide
  rw [hnotOut] at hcleared
  obtain rfl : given = seen := by simpa using hcleared
  have hvalue := value_argumentListSet argList (setSoapRequest bodyNode) position
  rw [givenArguments] at hgiven
  rw [hgiven, harg] at hvalue
  exact Option.some.inj hvalue

/-- The values of the input arguments agree when each of them does. -/
theorem inValues_eq_iff {argList argList' : List Argument} (h : nodes argList = nodes argList') :
    inValues argList = inValues argList' ↔
      ∀ (i : ℕ) (arg arg' : Argument), argList[i]? = some arg → argList'[i]? = some arg' →
        arg.isInDirection = true → arg.value = arg'.value := by
  induction argList generalizing argList' with
  | nil =>
    obtain rfl : argList' = [] := by simpa [nodes] using h.symm
    simp
  | cons arg rest ih =>
    cases argList' with
    | nil => exact absurd h (by simp [nodes])
    | cons arg' rest' =>
      obtain ⟨hnode, hrest⟩ := List.cons.inj h
      have hsame : arg'.isInDirection = arg.isInDirection := isInDirection_congr hnode.symm
      have hsplit : (∀ (i : ℕ) (a a' : Argument), (arg :: rest)[i]? = some a →
          (arg' :: rest')[i]? = some a' → a.isInDirection = true → a.value = a'.value) ↔
          (arg.isInDirection = true → arg.value = arg'.value) ∧
            ∀ (i : ℕ) (a a' : Argument), rest[i]? = some a → rest'[i]? = some a' →
              a.isInDirection = true → a.value = a'.value := by
        constructor
        · exact fun hall ↦ ⟨hall 0 arg arg' rfl rfl, fun i ↦ hall (i + 1)⟩
        · rintro ⟨hfirst, hall⟩ i a a' ha ha' hin
          cases i with
          | zero =>
            obtain rfl : arg = a := Option.some.inj ha
            obtain rfl : arg' = a' := Option.some.inj ha'
            exact hfirst hin
          | succ i => exact hall i a a' ha ha' hin
      rw [hsplit, ← ih hrest]
      by_cases hin : arg.isInDirection = true
      · simp [inValues, hin, hsame]
      · simp [inValues, hin, hsame]

/-! ### Histories of requests -/

/-- The listener sees the same values of the input arguments after any two histories of requests. -/
def HistoryIndependent (actionList : List Action) (bodyNode : Option XmlNode) : Prop :=
  ∀ (listener : ActionListener) (history history' : List (Option XmlNode)),
    (actionControlRequestReceived (some listener)
        (afterRequests (some listener) actionList history) bodyNode).2.map inValues =
      (actionControlRequestReceived (some listener)
        (afterRequests (some listener) actionList history') bodyNode).2.map inValues

/-- A request carries every input argument once. -/
def CarriesOnce (argList srcArgList : List Argument) : Prop :=
  ∀ (i : ℕ) (arg : Argument), argList[i]? = some arg → arg.isInDirection = true →
    (srcArgList.filter fun srcArg ↦
      argumentListGet argList srcArg.getName = some i).length = 1

/-- After any history of requests, the listener sees the values that the request carries, where an
argument without characters carries the empty string. -/
def SeesCarriedValues (actionList : List Action) (argList : List Argument)
    (bodyNode : Option XmlNode) : Prop :=
  ∀ (listener : ActionListener) (history : List (Option XmlNode)) (seen : List Argument),
    (actionControlRequestReceived (some listener)
      (afterRequests (some listener) actionList history) bodyNode).2 = some seen →
    ∀ (i : ℕ) (arg srcArg : Argument), seen[i]? = some arg → arg.isInDirection = true →
      srcArg ∈ setSoapRequest bodyNode →
      argumentListGet argList srcArg.getName = some i → arg.value = some (srcArg.value.getD [])

/-- A request has a value for every input argument. -/
def SuppliesInArguments (argList srcArgList : List Argument) : Prop :=
  ∀ (i : ℕ) (arg : Argument), argList[i]? = some arg → arg.isInDirection = true →
    ∃ srcArg ∈ srcArgList, argumentListGet argList srcArg.getName = some i ∧ srcArg.value ≠ none

/-- What the listener is called with after requests that changed values only. -/
theorem exists_seen {actionList actionList' : List Action} {bodyNode : Option XmlNode}
    {position : ℕ} {action : Action} (listener : ActionListener)
    (hposition : getActionByName actionList (getActionName bodyNode) = some position)
    (haction : actionList[position]? = some action)
    (hshape : actionList'.map Action.shape = actionList.map Action.shape) :
    ∃ action', actionList'[position]? = some action' ∧
      nodes action'.argumentList = nodes action.argumentList ∧
      (actionControlRequestReceived (some listener) actionList' bodyNode).2 =
        some (seenArguments bodyNode action'.argumentList) := by
  have hsame := congrArg (fun list ↦ list[position]?) hshape
  simp only [List.getElem?_map, haction, Option.map_some] at hsame
  obtain ⟨action', haction', hshape'⟩ := Option.map_eq_some_iff.mp hsame
  refine ⟨action', haction', (Prod.mk.inj hshape').2, ?_⟩
  unfold actionControlRequestReceived
  rw [getActionByName_congr hshape, hposition]
  simp only [haction', Option.map_some]

/-- A request that has a value for every input argument hides all earlier requests. -/
theorem historyIndependent_of_supplies {actionList : List Action} {bodyNode : Option XmlNode}
    {position : ℕ} {action : Action}
    (hposition : getActionByName actionList (getActionName bodyNode) = some position)
    (haction : actionList[position]? = some action)
    (hsupplies : SuppliesInArguments action.argumentList (setSoapRequest bodyNode)) :
    HistoryIndependent actionList bodyNode := by
  intro listener history history'
  obtain ⟨first, -, hfirst, hseen⟩ := exists_seen listener hposition haction
    (shape_afterRequests (some listener) actionList history)
  obtain ⟨second, -, hsecond, hseen'⟩ := exists_seen listener hposition haction
    (shape_afterRequests (some listener) actionList history')
  rw [hseen, hseen', Option.map_some, Option.map_some]
  refine congrArg some ((inValues_eq_iff ?_).mpr fun i seen seen' hget hget' hin ↦ ?_)
  · rw [nodes_seenArguments, nodes_seenArguments, hfirst, hsecond]
  · obtain ⟨arg, harg, hnode⟩ := exists_getElem?_of_nodes
      (nodes_seenArguments bodyNode first.argumentList) hget
    obtain ⟨arg', harg', hnode'⟩ := exists_getElem?_of_nodes
      (nodes_seenArguments bodyNode second.argumentList) hget'
    obtain ⟨declared, hdeclared, hnode''⟩ := exists_getElem?_of_nodes hfirst harg
    have hinDeclared : declared.isInDirection = true := by
      rw [isInDirection_congr (hnode''.trans hnode), hin]
    have hsupplied := suppliedValue_ne_none_iff.mpr (hsupplies i declared hdeclared hinDeclared)
    obtain ⟨value, hvalue⟩ := Option.ne_none_iff_exists'.mp hsupplied
    have hinArg : arg.isInDirection = true := by rw [isInDirection_congr hnode, hin]
    have hinArg' : arg'.isInDirection = true := by
      obtain ⟨same, hsame, hsameNode⟩ := exists_getElem?_of_nodes hsecond harg'
      rw [hdeclared] at hsame
      obtain rfl := Option.some.inj hsame
      rw [← isInDirection_congr hsameNode, hinDeclared]
    rw [value_seenArguments harg hinArg hget, value_seenArguments harg' hinArg' hget',
      suppliedValue_congr hfirst, suppliedValue_congr hsecond, hvalue]
    rfl

/-- A request with one value for every input argument is what the listener sees. -/
theorem seesCarriedValues_of_supplies {actionList : List Action} {bodyNode : Option XmlNode}
    {position : ℕ} {action : Action}
    (hposition : getActionByName actionList (getActionName bodyNode) = some position)
    (haction : actionList[position]? = some action)
    (hsupplies : SuppliesInArguments action.argumentList (setSoapRequest bodyNode))
    (honce : CarriesOnce action.argumentList (setSoapRequest bodyNode)) :
    SeesCarriedValues actionList action.argumentList bodyNode := by
  intro listener history seen hseen i arg srcArg hget hin hmem hsource
  obtain ⟨current, -, hcurrent, hseen'⟩ := exists_seen listener hposition haction
    (shape_afterRequests (some listener) actionList history)
  obtain rfl := Option.some.inj (hseen.symm.trans hseen')
  obtain ⟨before, hbefore, hnode⟩ := exists_getElem?_of_nodes
    (nodes_seenArguments bodyNode current.argumentList) hget
  obtain ⟨declared, hdeclared, hnode'⟩ := exists_getElem?_of_nodes hcurrent hbefore
  have hinDeclared : declared.isInDirection = true := by
    rw [isInDirection_congr (hnode'.trans hnode), hin]
  obtain ⟨only, honly⟩ := List.length_eq_one_iff.mp (honce i declared hdeclared hinDeclared)
  have hsrc : srcArg = only := by
    have hsrcMem : srcArg ∈ (setSoapRequest bodyNode).filter fun srcArg ↦
        argumentListGet action.argumentList srcArg.getName = some i :=
      List.mem_filter.mpr ⟨hmem, by simpa using hsource⟩
    rw [honly] at hsrcMem
    exact List.mem_singleton.mp hsrcMem
  have hvalue : srcArg.value ≠ none := by
    obtain ⟨supplier, hsupplier, hget', hsome⟩ := hsupplies i declared hdeclared hinDeclared
    have hsupplierMem : supplier ∈ (setSoapRequest bodyNode).filter fun srcArg ↦
        argumentListGet action.argumentList srcArg.getName = some i :=
      List.mem_filter.mpr ⟨hsupplier, by simpa using hget'⟩
    rw [honly] at hsupplierMem
    rwa [hsrc, ← List.mem_singleton.mp hsupplierMem]
  obtain ⟨value, hvalue⟩ := Option.ne_none_iff_exists'.mp hvalue
  have hsupplied : suppliedValue current.argumentList (setSoapRequest bodyNode) i = some value := by
    rw [suppliedValue_congr hcurrent, suppliedValue, honly, ← hsrc,
      List.filterMap_cons_some hvalue]
    rfl
  have hinBefore : before.isInDirection = true := by rw [isInDirection_congr hnode, hin]
  rw [value_seenArguments hbefore hinBefore hget, hsupplied, hvalue]
  rfl

/-- An input argument without a value in the request shows what was left in it. -/
theorem supplies_of_historyIndependent {actionList : List Action} {bodyNode : Option XmlNode}
    {position : ℕ} {action : Action}
    (hposition : getActionByName actionList (getActionName bodyNode) = some position)
    (haction : actionList[position]? = some action)
    (hindependent : HistoryIndependent actionList bodyNode) :
    SuppliesInArguments action.argumentList (setSoapRequest bodyNode) := by
  intro i declared hdeclared hin
  refine suppliedValue_ne_none_iff.mp fun hnone ↦ ?_
  obtain ⟨other, hother⟩ : ∃ other : CString, some other ≠ declared.value := by
    by_cases hempty : declared.value = some []
    · exact ⟨"left".toList, by rw [hempty]; decide⟩
    · exact ⟨[], fun heq ↦ hempty heq.symm⟩
  let listener : ActionListener := fun _ ↦ [(i, some other)]
  obtain ⟨first, hfirst, -, hseen⟩ := exists_seen listener hposition haction
    (shape_afterRequests (some listener) actionList [])
  obtain ⟨second, hsecond, hnodes, hseen'⟩ := exists_seen listener hposition haction
    (shape_afterRequests (some listener) actionList [bodyNode])
  obtain rfl := Option.some.inj (haction.symm.trans hfirst)
  have hleft : second.argumentList =
      callListener listener (seenArguments bodyNode action.argumentList) := by
    have hafter : (afterRequests (some listener) actionList [bodyNode])[position]? =
        some { action with
          argumentList := callListener listener (seenArguments bodyNode action.argumentList) } := by
      show (actionControlRequestReceived (some listener) actionList bodyNode).1[position]? = _
      unfold actionControlRequestReceived
      rw [hposition]
      simp [changeArguments, haction]
    rw [← Option.some.inj (hafter.symm.trans hsecond)]
  have hindependent' := hindependent listener [] [bodyNode]
  rw [hseen, hseen'] at hindependent'
  have hvalues := (inValues_eq_iff (by rw [nodes_seenArguments, nodes_seenArguments, hnodes])).mp
    (Option.some.inj hindependent') i
  obtain ⟨seen, hget, hnode⟩ := exists_getElem?_of_nodes
    (nodes_seenArguments bodyNode action.argumentList).symm hdeclared
  have hinSeen : seen.isInDirection = true := by rw [isInDirection_congr hnode, hin]
  have hwritten : second.argumentList[i]? = some (seen.setValue (some other)) := by
    rw [hleft]
    simp [callListener, listener, hget]
  obtain ⟨seen', hget', hnode'⟩ := exists_getElem?_of_nodes
    (nodes_seenArguments bodyNode second.argumentList).symm hwritten
  have hvalue := hvalues seen seen' hget hget' hinSeen
  rw [value_seenArguments hdeclared hin hget, hnone,
    value_seenArguments hwritten hinSeen hget', suppliedValue_congr hnodes, hnone] at hvalue
  exact hother hvalue.symm

/-- The input arguments that the listener of an action sees are free of earlier requests, and are
the ones that the request carries, exactly when the request has a value for each of them. -/
theorem requests_do_not_leak_iff {actionList : List Action} {bodyNode : Option XmlNode}
    {position : ℕ} {action : Action}
    (hposition : getActionByName actionList (getActionName bodyNode) = some position)
    (haction : actionList[position]? = some action) :
    (HistoryIndependent actionList bodyNode ∧
        (CarriesOnce action.argumentList (setSoapRequest bodyNode) →
          SeesCarriedValues actionList action.argumentList bodyNode)) ↔
      SuppliesInArguments action.argumentList (setSoapRequest bodyNode) :=
  ⟨fun h ↦ supplies_of_historyIndependent hposition haction h.1, fun hsupplies ↦
    ⟨historyIndependent_of_supplies hposition haction hsupplies,
      seesCarriedValues_of_supplies hposition haction hsupplies⟩⟩

/-- A node with a name, a value and child nodes. -/
def namedNode (name : String) (value : Option CString) (children : List XmlNode) : XmlNode :=
  .node ⟨some name.toList, value, []⟩ children

/-- A service with one action that has one input argument. -/
def passwordService : List Action :=
  [⟨namedNode "action" none [namedNode "name" (some "Login".toList) []],
    [⟨namedNode "argument" none [namedNode "name" (some "Password".toList) [],
      namedNode "direction" (some "in".toList) []], none⟩]⟩]

/-- A request of that action; the value of an empty element is missing. -/
def loginRequest (password : Option CString) : Option XmlNode :=
  some (namedNode "s:Body" none [namedNode "u:Login" none [namedNode "Password" password []]])

theorem requests_do_not_leak_iff_login :
    HistoryIndependent passwordService (loginRequest (some "1".toList)) := by
  have hposition : getActionByName passwordService
      (getActionName (loginRequest (some "1".toList))) = some 0 := rfl
  refine ((requests_do_not_leak_iff hposition rfl).mpr fun i arg harg _ ↦ ?_).1
  cases i with
  | zero => exact ⟨_, List.mem_singleton.mpr rfl, rfl, by decide⟩
  | succ i => cases harg

/-- An empty password shows the password of the request before. -/
theorem not_requests_do_not_leak :
    ¬ ∀ (actionList : List Action) (bodyNode : Option XmlNode) (position : ℕ) (action : Action),
      getActionByName actionList (getActionName bodyNode) = some position →
      actionList[position]? = some action → HistoryIndependent actionList bodyNode := by
  intro hclaim
  have hindependent := hclaim passwordService (loginRequest none) 0 _ rfl rfl
  have hsame := hindependent (fun _ ↦ []) [] [loginRequest (some "secret".toList)]
  exact absurd hsame (by decide)

end Mupnp.Control
