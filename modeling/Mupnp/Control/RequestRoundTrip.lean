import Mathlib.Data.List.Forall2
import Mupnp.Control.ArgumentIsolation
import Mupnp.Control.CallElement

/-!
# From a control point to a device

A control point writes the request for an action (`control/action_request.c`), and a device parses
it and copies its arguments into an action of its own. `request_arrives` says that the name of the
action and the values of its input arguments arrive and that no other argument changes, for every
message that the parser accepts.
-/

set_option autoImplicit false
set_option relaxedAutoImplicit false

namespace Mupnp.Control

open Foundation Foundation.RoseTree Foundation.XmlText Util Xml Soap

/-! ### Requests of a control point -/

/-- `mupnp_control_action_request_createactionnode`. -/
def createActionNode (action : ServiceAction) : XmlNode :=
  let nameWithNamespace := stringAddValue (stringAddValue none (some "u:".toList)) action.getName
  let named := XmlNode.new.setName nameWithNamespace
  let declared := named.setNamespace "u".toList action.service.getServiceType
  (action.argumentList.filter Argument.isInDirection).foldl
    (fun node arg ↦ node.addChildNode (argumentNode arg)) declared

/-- `mupnp_control_action_request_setaction`: the content of the request. -/
def setAction (action : ServiceAction) : CString :=
  setContent (addToBody createEnvelopeBodyNode (requestBodyPosition createEnvelopeBodyNode)
    (createActionNode action))

/-! ### What arrives -/

/-- `mupnp_soap_request_sethttprequest` and `mupnp_soap_request_getbodynode`: the body node of a
request with a content. -/
def receivedBody (parser : Parser) (content : CString) : Option XmlNode :=
  (xmlParse parser content).bind requestBodyNode

/-- The arguments of an action before any value was set. -/
def freshArguments (argList : List Argument) : List Argument :=
  argList.map fun arg ↦ ⟨arg.argumentNode, none⟩

/-- A fresh argument after the value of an argument arrived for it, an unset value as an empty one.
-/
structure ArgumentArrived (arg received : Argument) : Prop where
  sameNode : received.argumentNode = arg.argumentNode
  input : arg.isInDirection = true → received.value.getD [] = arg.value.getD []
  other : arg.isInDirection = false → received.value = none

/-- The name of an action and its input arguments arrive at a device, which copies them into a
fresh copy of the action. -/
structure RequestArrives (parser : Parser) (action : ServiceAction) : Prop where
  name : some (getActionName (receivedBody parser (setAction action))) = action.getName
  arguments : List.Forall₂ ArgumentArrived action.argumentList
    (argumentListSet (freshArguments action.argumentList)
      (setSoapRequest (receivedBody parser (setAction action))))

/-- An action whose request can be written: its name and the names of its input arguments are names
of XML, its arguments are told apart whatever the case of their letters, and its input values are
made of characters of XML. -/
structure RequestSchema (action : ServiceAction) : Prop where
  name : ∃ name, action.getName = some name ∧ IsLocalName name
  inputs : ∀ arg ∈ action.argumentList, arg.isInDirection = true → WritableArgument arg
  distinct : (action.argumentList.filterMap Argument.getName).Pairwise
    fun name other ↦ strcaseeq name other = false

/-! ### The text of the request -/

section text

variable {action : ServiceAction} {name : CString}

/-- The element of the request of an action with a name. -/
def requestElement (action : ServiceAction) (name : CString) : XmlNode :=
  callNode ("u:".toList ++ name) [serviceDeclaration action.service.getServiceType]
    (action.argumentList.filter Argument.isInDirection)

theorem setAction_eq (hname : action.getName = some name) (hlocal : IsLocalName name) :
    setAction action = setContent (envelopeAround [requestElement action name]) := by
  have hne : name ≠ [] := ne_nil_of_isName (isName_of_isLocalName hlocal)
  have hnode : stringAddValue (stringAddValue none (some "u:".toList)) (some name) =
      some ("u:".toList ++ name) := by
    rw [stringAddValue_of_ne_nil _ hne]
    rfl
  have hdeclared : (XmlNode.new.setName (some ("u:".toList ++ name))).setNamespace "u".toList
      action.service.getServiceType =
      .node ⟨some ("u:".toList ++ name), none, [serviceDeclaration action.service.getServiceType]⟩
        [] := by
    simp only [XmlNode.new, XmlNode.setName, XmlNode.setNamespace, XmlNode.setAttribute,
      XmlNode.withElement, value_node, children_node, attributeListSet, stringSetValue_none_left,
      serviceDeclaration]
    rfl
  rw [setAction, createActionNode, hname, hnode, addToBody_request, XmlNode.foldl_addChildNode,
    hdeclared]
  rfl

theorem writable_requestElement (hschema : RequestSchema action) (hlocal : IsLocalName name)
    (htype : ∀ c ∈ action.service.getServiceType.getD [], isXmlChar c = true) :
    ∀ element ∈ preorderIn [requestElement action name], Writable element := by
  have hstart : IsName ("u:".toList ++ name) := @isName_append "u".toList _ (by decide) hlocal
  refine writable_callNode (writable_of_serviceDeclaration hstart htype) fun arg harg ↦ ?_
  obtain ⟨hmem, hin⟩ := List.mem_filter.mp harg
  exact hschema.inputs arg hmem hin

/-- The body node of a request that was parsed. -/
theorem receivedBody_setAction {parser : Parser} (hparser : Conforming parser)
    (hschema : RequestSchema action)
    (htype : ∀ c ∈ action.service.getServiceType.getD [], isXmlChar c = true)
    (hsize : byteLength (setAction action) ≤ intMax) (hname : action.getName = some name) :
    ∃ element, element.name = some ("u:".toList ++ name) ∧
      receivedBody parser (setAction action) = some (readBody (.node element
        ((action.argumentList.filter Argument.isInDirection).map readArgument))) := by
  obtain ⟨name', hname', hlocal⟩ := hschema.name
  obtain rfl := Option.some.inj (hname'.symm.trans hname)
  have hsetAction := setAction_eq hname hlocal
  obtain ⟨text, hback⟩ := readBack_callNode ("u:".toList ++ name')
    [serviceDeclaration action.service.getServiceType]
    (action.argumentList.filter Argument.isInDirection) 2
  have hheight : height (requestElement action name') + 2 ≤ xmlMaxDepth :=
    (Nat.add_le_add_right (height_callNode _ _ _) 2).trans (by decide)
  have hparse := xmlParse_setContent hparser (writable_requestElement hschema hlocal htype) hheight
    (hsetAction ▸ hsize)
  rw [requestElement, hback] at hparse
  refine ⟨readElement ⟨some ("u:".toList ++ name'), none,
    [serviceDeclaration action.service.getServiceType]⟩ text, rfl, ?_⟩
  rw [receivedBody, hsetAction, requestElement, hparse, Option.bind_some]
  rfl

end text

/-! ### Copying the arguments -/

section arguments

variable {argList : List Argument}

theorem nodes_freshArguments (argList : List Argument) :
    nodes (freshArguments argList) = nodes argList := by
  rw [nodes, freshArguments, List.map_map]
  rfl

/-- An argument is found at its own position. -/
theorem argumentListGet_getElem
    (h : (argList.filterMap Argument.getName).Pairwise fun name other ↦
      strcaseeq name other = false)
    {i : ℕ} {arg : Argument} (harg : argList[i]? = some arg) {name : CString}
    (hname : arg.getName = some name) : argumentListGet argList (some name) = some i := by
  have hpairwise := List.pairwise_iff_getElem.mp (List.pairwise_filterMap.mp h)
  obtain ⟨hi, rfl⟩ := List.getElem?_eq_some_iff.mp harg
  rw [argumentListGet, Option.bind_some, List.findIdx?_eq_some_iff_getElem]
  refine ⟨hi, ?_, fun j hj ↦ ?_⟩
  · rw [hname, Option.any_some, strcaseeq_self]
  · cases hother : argList[j].getName with
    | none => simp
    | some other =>
      have hdiffer := hpairwise j i (hj.trans hi) hi hj other hother name hname
      simp [hdiffer]

/-- The value that is supplied for a position when all arguments for it have the same one. -/
theorem suppliedValue_eq {srcArgList : List Argument} {position : ℕ} {value : Option CString}
    (hall : ∀ srcArg ∈ srcArgList, argumentListGet argList srcArg.getName = some position →
      srcArg.value = value)
    (hsome : value ≠ none →
      ∃ srcArg ∈ srcArgList, argumentListGet argList srcArg.getName = some position) :
    suppliedValue argList srcArgList position = value := by
  cases hsupplied : suppliedValue argList srcArgList position with
  | none =>
    by_contra hne
    obtain ⟨srcArg, hmem, hposition⟩ := hsome fun hnone ↦ hne hnone.symm
    refine absurd hsupplied (suppliedValue_ne_none_iff.mpr ⟨srcArg, hmem, hposition, ?_⟩)
    rw [hall srcArg hmem hposition]
    exact fun hnone ↦ hne hnone.symm
  | some supplied =>
    have hlast := List.mem_of_getLast? hsupplied
    obtain ⟨srcArg, hmem, hvalue⟩ := List.mem_filterMap.mp hlast
    obtain ⟨hmem, hposition⟩ := List.mem_filter.mp hmem
    rw [← hvalue, hall srcArg hmem (of_decide_eq_true hposition)]

theorem requestArgument_readArgument (arg : Argument) :
    (requestArgument (readArgument arg)).getName = arg.getName ∧
      (requestArgument (readArgument arg)).value =
        stringAddValue none (some (arg.value.getD [])) := by
  constructor
  · have hname : (readArgument arg).name = arg.getName := rfl
    rw [requestArgument, hname]
    simp only [Argument.getName, Argument.setValue, Argument.setName, readArgument,
      XmlNode.setChildNode, XmlNode.getChildNodeByName, children_node, List.find?_nil,
      Option.isSome_none, Bool.false_eq_true, if_false, XmlNode.addChildNode, List.nil_append,
      XmlNode.getChildNodeValue]
    simp [XmlNode.new, XmlNode.setName, XmlNode.setValue, XmlNode.withElement, XmlNode.name,
      XmlNode.text, strcaseeq_self, stringSetValue_none_left]
  · rw [requestArgument, Argument.setValue, readArgument]
    exact stringSetValue_none_left _

/-- The input arguments of a request are copied into a fresh list. -/
theorem argumentListSet_freshArguments (hdistinct : (argList.filterMap Argument.getName).Pairwise
      fun name other ↦ strcaseeq name other = false)
    (hnamed : ∀ arg ∈ argList, arg.isInDirection = true → ∃ name, arg.getName = some name) :
    List.Forall₂ ArgumentArrived argList
      (argumentListSet (freshArguments argList)
        ((argList.filter Argument.isInDirection).map fun arg ↦
          requestArgument (readArgument arg))) := by
  set srcArgList := (argList.filter Argument.isInDirection).map fun arg ↦
    requestArgument (readArgument arg) with hsource
  have hnodes : nodes (argumentListSet (freshArguments argList) srcArgList) = nodes argList := by
    rw [nodes_argumentListSet, nodes_freshArguments]
  have hsupplied : ∀ (i : ℕ) (arg : Argument), argList[i]? = some arg →
      suppliedValue (freshArguments argList) srcArgList i =
        if arg.isInDirection then stringAddValue none (some (arg.value.getD [])) else none := by
    intro i arg harg
    have hfound : ∀ srcArg ∈ srcArgList,
        argumentListGet (freshArguments argList) srcArg.getName = some i →
          arg.isInDirection = true ∧ srcArg = requestArgument (readArgument arg) := by
      intro srcArg hmem hposition
      obtain ⟨other, hother, rfl⟩ := List.mem_map.mp hmem
      obtain ⟨hmemOther, hin⟩ := List.mem_filter.mp hother
      obtain ⟨name, hname⟩ := hnamed other hmemOther hin
      obtain ⟨j, hj⟩ := List.mem_iff_getElem?.mp hmemOther
      rw [argumentListGet_congr (nodes_freshArguments argList), (requestArgument_readArgument _).1,
        hname, argumentListGet_getElem hdistinct hj hname] at hposition
      obtain rfl := Option.some.inj hposition
      obtain rfl := Option.some.inj (harg.symm.trans hj)
      exact ⟨hin, rfl⟩
    refine suppliedValue_eq ?_ ?_
    · intro srcArg hmem hposition
      obtain ⟨hin, rfl⟩ := hfound srcArg hmem hposition
      rw [if_pos hin, (requestArgument_readArgument arg).2]
    · intro hne
      have hin : arg.isInDirection = true := by
        by_contra hout
        exact hne (if_neg hout)
      have hmemArg := List.mem_of_getElem? harg
      obtain ⟨name, hname⟩ := hnamed arg hmemArg hin
      refine ⟨_, List.mem_map_of_mem (List.mem_filter.mpr ⟨hmemArg, hin⟩), ?_⟩
      rw [argumentListGet_congr (nodes_freshArguments argList), (requestArgument_readArgument _).1,
        hname, argumentListGet_getElem hdistinct harg hname]
  rw [List.forall₂_iff_get]
  have hlength : argList.length = (argumentListSet (freshArguments argList) srcArgList).length := by
    have hmap := congrArg List.length hnodes
    rw [nodes, nodes, List.length_map, List.length_map] at hmap
    exact hmap.symm
  refine ⟨hlength, fun i hi hi' ↦ ?_⟩
  have harg : argList[i]? = some (argList.get ⟨i, hi⟩) := List.getElem?_eq_getElem hi
  have hreceived : (argumentListSet (freshArguments argList) srcArgList)[i]? =
      some ((argumentListSet (freshArguments argList) srcArgList).get ⟨i, hi'⟩) :=
    List.getElem?_eq_getElem hi'
  have hnode := congrArg (fun list ↦ list[i]?) hnodes
  simp only [nodes, List.getElem?_map, harg, hreceived, Option.map_some, Option.some.injEq] at hnode
  have hvalue := value_argumentListSet (freshArguments argList) srcArgList i
  have hfresh : (freshArguments argList)[i]? =
      some ⟨(argList.get ⟨i, hi⟩).argumentNode, none⟩ := by
    rw [freshArguments, List.getElem?_map, harg, Option.map_some]
  rw [hreceived, hfresh, hsupplied i _ harg, Option.map_some, Option.map_some, Option.some.injEq,
    stringSetValue_none_left] at hvalue
  refine ⟨hnode, fun hin ↦ ?_, fun hout ↦ ?_⟩
  · rw [hvalue, if_pos hin]
    cases (argList.get ⟨i, hi⟩).value.getD [] with
    | nil => rfl
    | cons c rest => rfl
  · rw [hvalue, if_neg (ne_true_of_eq_false hout)]

end arguments

/-- **Requests arrive.** A device receives the name of the action and the values of its input
arguments, for every message that is not longer than the parser accepts. -/
theorem request_arrives {parser : Parser} (hparser : Conforming parser) {action : ServiceAction}
    (hschema : RequestSchema action)
    (htype : ∀ c ∈ action.service.getServiceType.getD [], isXmlChar c = true)
    (hsize : byteLength (setAction action) ≤ intMax) : RequestArrives parser action := by
  obtain ⟨name, hname, hlocal⟩ := hschema.name
  obtain ⟨element, helement, hbody⟩ := receivedBody_setAction hparser hschema htype hsize hname
  have hnamed : ∀ arg ∈ action.argumentList, arg.isInDirection = true →
      ∃ name, arg.getName = some name := by
    intro arg harg hin
    obtain ⟨argName, hargName, -⟩ := (hschema.inputs arg harg hin).name
    exact ⟨argName, hargName⟩
  have hcopied := argumentListSet_freshArguments hschema.distinct hnamed
  refine ⟨?_, ?_⟩
  · have hdelim : indexOf ":".toList ("u:".toList ++ name) = some 1 := rfl
    rw [hbody, hname, getActionName]
    simp only [getActionNode, Option.bind_some, readBody, children_node, List.head?_cons,
      XmlNode.name, value_node, helement, hdelim]
    rfl
  · rw [hbody]
    simpa [setSoapRequest, getActionNode, readBody, Function.comp_def] using hcopied

/-! ### Requests that do not arrive -/

/-- An input argument with a value. -/
def inputArgument (name value : CString) : Argument where
  argumentNode := (XmlNode.new.setChildNode "name".toList (some name)).setChildNode
    "direction".toList (some "in".toList)
  value := some value

/-- The action of a service of a type with one input argument. -/
def storeAction (serviceType value : CString) : ServiceAction where
  actionNode := XmlNode.new.setChildNode "name".toList (some "Store".toList)
  argumentList := [inputArgument "Text".toList value]
  service := ⟨some (XmlNode.new.setChildNode "serviceType".toList (some serviceType))⟩

theorem requestSchema_storeAction (serviceType : CString) {value : CString}
    (h : ∀ c ∈ value, IsTextChar c) : RequestSchema (storeAction serviceType value) where
  name := ⟨"Store".toList, rfl, by decide⟩
  inputs := by
    intro arg harg _
    obtain rfl := List.mem_singleton.mp harg
    refine ⟨⟨"Text".toList, rfl, by decide⟩, fun other hother ↦ ?_⟩
    obtain rfl := Option.some.inj hother
    exact h
  distinct := List.pairwise_singleton _ _

theorem request_arrives_store :
    RequestArrives subsetParser (storeAction "urn:x".toList "1 < 2".toList) :=
  request_arrives conforming_subsetParser (requestSchema_storeAction _ (by decide)) (by decide)
    (by decide +kernel)

/-- A request that is not parsed does not arrive. -/
theorem not_arrives_of_none {parser : Parser} {serviceType value : CString}
    (h : xmlParse parser (setAction (storeAction serviceType value)) = none) :
    ¬ RequestArrives parser (storeAction serviceType value) := by
  intro harrives
  have hname := harrives.name
  rw [receivedBody, h, Option.bind_none] at hname
  exact absurd (Option.some.inj hname) (by decide)

theorem setAction_storeAction (serviceType value : CString) :
    setAction (storeAction serviceType value) =
      setContent (envelopeAround [requestElement (storeAction serviceType value) "Store".toList]) :=
  setAction_eq rfl (by decide)

/-- The message is longer than the value in it. -/
theorem byteLength_le_setAction (serviceType value : CString) :
    byteLength value ≤ byteLength (setAction (storeAction serviceType value)) := by
  have hescaped := byteLength_le_escapedLength value
  have hargument : argumentLength (inputArgument "Text".toList value) =
      9 + 2 * byteLength "Text".toList + escapedLength (some value) := rfl
  have hinputs : (storeAction serviceType value).argumentList.filter Argument.isInDirection =
      [inputArgument "Text".toList value] := rfl
  rw [setAction_storeAction, byteLength_setContent, requestElement, byteLength_callNode, callLength,
    hinputs, List.map_singleton, List.sum_singleton, hargument]
  omega

/-- **Some requests do not arrive.** A type of a service with a character that XML does not have,
and a value that makes the message longer than the parser accepts. -/
theorem not_request_arrives :
    Conforming subsetParser ∧
      RequestSchema (storeAction "\x01".toList "1 < 2".toList) ∧
      ¬ RequestArrives subsetParser (storeAction "\x01".toList "1 < 2".toList) ∧
      RequestSchema (storeAction "urn:x".toList (List.replicate (intMax + 1) 'a')) ∧
      ¬ RequestArrives subsetParser
        (storeAction "urn:x".toList (List.replicate (intMax + 1) 'a')) := by
  have htext : ∀ c ∈ List.replicate (intMax + 1) 'a', IsTextChar c := by
    intro c hc
    rw [List.eq_of_mem_replicate hc]
    decide
  refine ⟨conforming_subsetParser, requestSchema_storeAction _ (by decide), not_arrives_of_none ?_,
    requestSchema_storeAction _ htext, not_arrives_of_none ?_⟩
  · rw [setAction_storeAction]
    exact xmlParse_setContent_of_mem conforming_subsetParser
      (mem_callNode (List.mem_singleton_self '\x01') (by decide)) (by decide)
  · refine xmlParse_of_lt ?_ subsetParser
    calc
      intMax < byteLength (List.replicate (intMax + 1) 'a') := by
        have hsize : 'a'.utf8Size = 1 := rfl
        rw [byteLength_replicate, hsize, Nat.mul_one]
        exact Nat.lt_succ_self intMax
      _ ≤ byteLength (setAction (storeAction "urn:x".toList (List.replicate (intMax + 1) 'a'))) :=
        byteLength_le_setAction _ _

end Mupnp.Control
