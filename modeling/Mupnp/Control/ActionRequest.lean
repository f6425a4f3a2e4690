import Mupnp.Xml.XmlNode

/-!
# Control requests on a device

`mupnp_device_actioncontrolrequestrecieved` and what it calls: the arguments of a control request
are read from the child nodes of its action node (`setSoapRequest`), their values are copied into
the argument list of the action of the device (`argumentListSet`), the output arguments are
cleared and the action listener is called (`performListener`). The action object of the device is
kept from one request to the next.

A listener is modelled by the values that it sets. The response and the status of the action are
left out.
-/

set_option autoImplicit false
set_option relaxedAutoImplicit false

namespace Mupnp.Control

open Util Xml

/-- An argument of an action or of a request. Its name and its direction stand in child nodes of its
node. -/
structure Argument where
  argumentNode : XmlNode
  value : Option CString

namespace Argument

/-- `mupnp_argument_getname`. -/
def getName (arg : Argument) : Option CString := arg.argumentNode.getChildNodeValue "name".toList

/-- `mupnp_argument_getdirection`. -/
def getDirection (arg : Argument) : Option CString :=
  arg.argumentNode.getChildNodeValue "direction".toList

/-- `mupnp_argument_isindirection`. -/
def isInDirection (arg : Argument) : Bool := streq arg.getDirection (some "in".toList)

/-- `mupnp_argument_isoutdirection`. -/
def isOutDirection (arg : Argument) : Bool := streq arg.getDirection (some "out".toList)

/-- `mupnp_argument_setname`. -/
def setName (arg : Argument) (name : Option CString) : Argument :=
  { arg with argumentNode := arg.argumentNode.setChildNode "name".toList name }

/-- `mupnp_argument_setvalue`. -/
def setValue (arg : Argument) (data : Option CString) : Argument :=
  { arg with value := stringSetValue arg.value data }

end Argument

/-- The position of the argument that `mupnp_argumentlist_get` returns: the first one of the name,
up to case. -/
def argumentListGet (argList : List Argument) (name : Option CString) : Option ℕ :=
  name.bind fun name ↦ argList.findIdx? fun arg ↦ arg.getName.any (strcaseeq · name)

/-- One turn of the loop of `mupnp_argumentlist_set`. -/
def setFromSource (argList : List Argument) (srcArg : Argument) : List Argument :=
  match argumentListGet argList srcArg.getName with
  | none => argList
  | some position => argList.modify position (Argument.setValue · srcArg.value)

/-- `mupnp_argumentlist_set`. -/
def argumentListSet (argList srcArgList : List Argument) : List Argument :=
  srcArgList.foldl setFromSource argList

/-- `mupnp_control_action_request_getactionnode`: the first child node of the body node. -/
def getActionNode (bodyNode : Option XmlNode) : Option XmlNode :=
  bodyNode.bind fun node ↦ node.children.head?

/-- `mupnp_control_action_request_getactionname`: what stands after the first colon of the name. -/
def getActionName (bodyNode : Option XmlNode) : CString :=
  match (getActionNode bodyNode).bind XmlNode.name with
  | none => []
  | some name =>
    match indexOf ":".toList name with
    | none => []
    | some urnDelimIdx => name.drop (urnDelimIdx + 1)

/-- The argument that `mupnp_control_action_request_setsoaprequest` makes of a child node. -/
def requestArgument (argNode : XmlNode) : Argument :=
  ((⟨argNode, none⟩ : Argument).setName argNode.name).setValue argNode.text

/-- `mupnp_control_action_request_setsoaprequest`: the arguments of a request. -/
def setSoapRequest (bodyNode : Option XmlNode) : List Argument :=
  match getActionNode bodyNode with
  | none => []
  | some actionNode => actionNode.children.map requestArgument

/-- An action of a service. -/
structure Action where
  actionNode : XmlNode
  argumentList : List Argument

/-- `mupnp_action_getname`. -/
def Action.getName (action : Action) : Option CString :=
  action.actionNode.getChildNodeValue "name".toList

/-- The position of the action that `mupnp_service_getactionbyname` returns. -/
def getActionByName (actionList : List Action) (name : CString) : Option ℕ :=
  if strlen (some name) ≤ 0 then none
  else actionList.findIdx? fun action ↦ streq action.getName (some name)

/-- `mupnp_action_clearoutputargumentvalues`. -/
def clearOutputArgumentValues (argList : List Argument) : List Argument :=
  argList.map fun arg ↦ if arg.isOutDirection then arg.setValue (some []) else arg

/-- What a listener does with the arguments that it sees: the calls of `mupnp_argument_setvalue`,
each for the argument at a position. -/
abbrev ActionListener := List Argument → List (ℕ × Option CString)

/-- The arguments after a listener was called. -/
def callListener (listener : ActionListener) (argList : List Argument) : List Argument :=
  (listener argList).foldl
    (fun args write ↦ args.modify write.1 (Argument.setValue · write.2)) argList

/-- The arguments of an action with the values of a request. -/
def givenArguments (bodyNode : Option XmlNode) (argList : List Argument) : List Argument :=
  argumentListSet argList (setSoapRequest bodyNode)

/-- The arguments that the listener of an action is called with. -/
def seenArguments (bodyNode : Option XmlNode) (argList : List Argument) : List Argument :=
  clearOutputArgumentValues (givenArguments bodyNode argList)

/-- Changes the arguments of the action at a position. -/
def changeArguments (actionList : List Action) (position : ℕ)
    (change : List Argument → List Argument) : List Action :=
  actionList.modify position fun action ↦
    { action with argumentList := change action.argumentList }

/-- `mupnp_device_actioncontrolrequestrecieved`: the actions of the service afterwards, and the
arguments that the listener saw, if it was called. -/
def actionControlRequestReceived (listener : Option ActionListener) (actionList : List Action)
    (bodyNode : Option XmlNode) : List Action × Option (List Argument) :=
  match getActionByName actionList (getActionName bodyNode), listener with
  | none, _ => (actionList, none)
  | some position, none =>
    (changeArguments actionList position (givenArguments bodyNode), none)
  | some position, some listener =>
    (changeArguments actionList position fun argList ↦
        callListener listener (seenArguments bodyNode argList),
      actionList[position]?.map fun action ↦ seenArguments bodyNode action.argumentList)

/-- The actions of a service after a history of control requests, oldest first. -/
def afterRequests (listener : Option ActionListener) (actionList : List Action)
    (history : List (Option XmlNode)) : List Action :=
  history.foldl (fun actions bodyNode ↦ (actionControlRequestReceived listener actions bodyNode).1)
    actionList

/-- The values of the input arguments. -/
def inValues (argList : List Argument) : List (Option CString) :=
  (argList.filter Argument.isInDirection).map Argument.value

end Mupnp.Control
