import Mupnp.Util.StringFunction

/-!
# State variables

The part of `statevariable.c` and `service.c` that eventing uses: a state variable with its name,
its `sendEvents` attribute and its value, and the lookup of a variable by name in the state table
of a service. Data types and listeners are left out, and allowed values have a module of their own.
-/

set_option autoImplicit false
set_option relaxedAutoImplicit false

namespace Mupnp.Event

open Util

structure StateVariable where
  name : Option CString
  sendEvents : Option CString
  value : Option CString
  deriving DecidableEq

namespace StateVariable

/-- `mupnp_statevariable_issendevents`. -/
def isSendEvents (statVar : StateVariable) : Bool := streq statVar.sendEvents (some "yes".toList)

/-- `mupnp_statevariable_isname`. -/
def isName (statVar : StateVariable) (name : Option CString) : Bool := streq statVar.name name

/-- `mupnp_statevariable_setvalue`, without the notification that follows it on a device. -/
def setValue (statVar : StateVariable) (data : Option CString) : StateVariable :=
  { statVar with value := stringSetValue statVar.value data }

end StateVariable

/-- Changes the first variable of a name. -/
def updateStateVariable (stateTable : List StateVariable) (name data : Option CString) :
    List StateVariable :=
  match stateTable with
  | [] => []
  | statVar :: rest =>
    if statVar.isName name then statVar.setValue data :: rest
    else statVar :: updateStateVariable rest name data

/-- `mupnp_service_getstatevariablebyname` followed by `mupnp_statevariable_setvalue`. -/
def setStateVariableByName (stateTable : List StateVariable) (name data : Option CString) :
    List StateVariable :=
  if strlen name ≤ 0 then stateTable else updateStateVariable stateTable name data

end Mupnp.Event
