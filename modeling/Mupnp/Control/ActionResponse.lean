import Mupnp.Control.ActionRequest
import Mupnp.Soap.Soap
import Mupnp.Util.CharBuffer

/-!
# Action responses on a device

`control/action_response.c`: the response to a control request that succeeded. The name of the
response element is put together in an array of fixed size, whose memory is a parameter here.
-/

set_option autoImplicit false
set_option relaxedAutoImplicit false

namespace Mupnp.Control

open Util Xml Soap

/-- The service that an action belongs to, as far as control uses it. -/
structure ControlledService where
  serviceNode : Option XmlNode

/-- `mupnp_service_getservicetype`. -/
def ControlledService.getServiceType (service : ControlledService) : Option CString :=
  service.serviceNode.bind fun node ↦ node.getChildNodeValue "serviceType".toList

/-- An action with its service. -/
structure ServiceAction extends Action where
  service : ControlledService

/-- `MUPNP_ACTOINNAME_LEN_MAX`. -/
def actionNameLenMax : ℕ := 128

/-- The size of `nodeName` in `mupnp_control_action_response_createresponsenode`. -/
def nodeNameSize : ℕ := actionNameLenMax + 2 + 2 + 9 + 1

/-- What `nodeName` holds at the end, when `memory` is what it held at first. -/
def responseNodeName (memory : CharBuffer) (actionName : Option CString) : Option CString :=
  (memory.strcpy "u".toList).bind fun named ↦
    (named.strcat ":".toList).bind fun delimited ↦
      actionName.bind fun actionName ↦
        (delimited.strncat actionName actionNameLenMax).bind fun appended ↦
          (appended.strcat "Response".toList).bind CharBuffer.text

/-- The node for an argument with a value. -/
def argumentNode (arg : Argument) : XmlNode :=
  (XmlNode.new.setName arg.getName).setValue arg.value

/-- `mupnp_control_action_response_createresponsenode`. -/
def createResponseNode (memory : CharBuffer) (action : ServiceAction) : Option XmlNode :=
  (responseNodeName memory action.getName).map fun nodeName ↦
    let named := XmlNode.new.setName (some nodeName)
    let declared :=
      if action.service.serviceNode.isSome then
        named.setAttribute "xmlns:u".toList action.service.getServiceType
      else named
    (action.argumentList.filter Argument.isOutDirection).foldl
      (fun node arg ↦ node.addChildNode (argumentNode arg)) declared

/-- `mupnp_control_action_response_setresponse`: the content of the response. -/
def setResponse (memory : CharBuffer) (action : ServiceAction) : Option CString :=
  (createResponseNode memory action).map fun resNode ↦
    setContent (addToBody createEnvelopeBodyNode
      (responseBodyPosition createEnvelopeBodyNode) resNode)

end Mupnp.Control
