import Mupnp.Control.ActionResponse
import Mupnp.Util.Dictionary

/-!
# Strict action results

The functions of `control/action_ctrl.c` for strict action invocations:
`mupnp_action_result_fromresponse` decodes a response of a device, with the action as its schema.

A node is passed together with its ancestors, innermost first, in place of the parent pointers of
the source.
-/

set_option autoImplicit false
set_option relaxedAutoImplicit false

namespace Mupnp.Control

open Foundation.XmlText Util Xml Soap

/-- `mUpnpActionResultCode`. -/
inductive ActionResultCode where
  | success
  | invalidArguments
  | transportError
  | httpError
  | soapFault
  | parseError
  | incomplete
  deriving DecidableEq

structure ActionResult where
  code : ActionResultCode
  httpStatusCode : ℤ
  upnpErrorCode : ℤ
  outputs : Dictionary
  faultCode : Option CString
  faultString : Option CString
  errorDescription : Option CString
  deriving DecidableEq

/-- `mupnp_action_result_new`. -/
def ActionResult.new : ActionResult := ⟨.parseError, 0, 0, [], none, none, none⟩

/-! ### Elements and namespaces -/

/-- What stands before the first colon of a name, if there is one. -/
def namespacePrefix (name : CString) : Option CString :=
  if ':' ∈ name then some (name.takeWhile (· ≠ ':')) else none

/-- What stands behind the first colon of a name, or the whole name. -/
def localName (name : CString) : CString :=
  if ':' ∈ name then (name.dropWhile (· ≠ ':')).tail else name

/-- `mupnp_action_localname`. -/
def actionLocalName (node : XmlNode) : Option CString := node.name.map localName

/-- `mupnp_xml_node_getattributevalue`. -/
def getAttributeValue (node : XmlNode) (name : CString) : Option CString :=
  (attributeListGet node.attributes name).bind XmlAttribute.value

/-- The loop of `mupnp_action_node_is` over a node and its ancestors. -/
def inheritedValue (path : List XmlNode) (declared : CString) : Option CString :=
  path.findSome? (getAttributeValue · declared)

/-- The largest size of a prefix that the array of `mupnp_action_node_is` has room for. -/
def prefixSizeMax : ℕ := 256 - 7

/-- The name of the attribute that declares the namespace of an element; nothing when there is no
room for it. -/
def declarationName (name : CString) : Option CString :=
  match namespacePrefix name with
  | none => some "xmlns".toList
  | some nsPrefix =>
    if prefixSizeMax < byteLength nsPrefix then none else some ("xmlns:".toList ++ nsPrefix)

/-- `mupnp_action_node_is` for the first node of a path. -/
def actionNodeIs (path : List XmlNode) (name ns : Option CString) : Bool :=
  match path with
  | [] => false
  | node :: _ =>
    if streq (actionLocalName node) name then
      match declarationName (node.name.getD []) with
      | none => false
      | some declared =>
        match inheritedValue path declared with
        | none => false
        | some value => streq (some value) ns
    else false

/-! ### Schemas -/

/-- `mupnp_action_getargumentbyname`. -/
def getArgumentByName (argList : List Argument) (name : Option CString) : Option Argument :=
  if strlen name ≤ 0 then none else argList.find? fun arg ↦ streq arg.getName name

/-- An argument that is found has the name. -/
theorem getArgumentByName_sound {argList : List Argument} {name : Option CString} {arg : Argument}
    (h : getArgumentByName argList name = some arg) : arg ∈ argList ∧ arg.getName = name := by
  unfold getArgumentByName at h
  split_ifs at h
  have htest : streq arg.getName name = true :=
    List.find?_some (p := fun (other : Argument) ↦ streq other.getName name) h
  obtain ⟨str, hname, hkey⟩ := streq_eq_true_iff.mp htest
  exact ⟨List.mem_of_find?_eq_some h, hname.trans hkey.symm⟩

/-- An argument with the name of an argument is found. -/
theorem exists_getArgumentByName {argList : List Argument} {arg : Argument} (hmem : arg ∈ argList)
    (hpos : 0 < strlen arg.getName) :
    ∃ found, getArgumentByName argList arg.getName = some found := by
  obtain ⟨value, hvalue, -⟩ := eq_some_of_strlen_pos hpos
  rw [← Option.isSome_iff_exists, getArgumentByName, if_neg (Nat.not_le.mpr hpos),
    List.find?_isSome]
  refine ⟨arg, hmem, ?_⟩
  rw [hvalue]
  exact streq_some_some.mpr rfl

/-- The checks of `mupnp_action_validschema` for the arguments, each against the ones before it. -/
def validArguments (previous : List Argument) : List Argument → Bool
  | [] => true
  | arg :: rest =>
    decide (0 < strlen arg.getName) && (arg.isInDirection || arg.isOutDirection) &&
      previous.all (fun other ↦ !streq other.getName arg.getName) &&
      validArguments (previous ++ [arg]) rest

/-- `mupnp_action_validschema`. -/
def validSchema (action : ServiceAction) : Bool :=
  decide (0 < strlen action.getName) && validArguments [] action.argumentList

/-- The checks of the arguments pass when all of them are named and directed, and no name is there
twice or among the names before. -/
theorem validArguments_iff {previous argList : List Argument} :
    validArguments previous argList = true ↔
      (∀ arg ∈ argList, 0 < strlen arg.getName ∧
        (arg.isInDirection = true ∨ arg.isOutDirection = true)) ∧
      (argList.map Argument.getName).Nodup ∧
      (previous.map Argument.getName).Disjoint (argList.map Argument.getName) := by
  induction argList generalizing previous with
  | nil => simp [validArguments]
  | cons arg rest ih =>
    by_cases hpos : 0 < strlen arg.getName
    · rw [validArguments, Bool.and_eq_true, Bool.and_eq_true, Bool.and_eq_true, Bool.or_eq_true,
        decide_eq_true_eq, all_not_streq_iff hpos, ih, List.map_append, List.map_singleton,
        List.disjoint_append_left, List.singleton_disjoint, List.forall_mem_cons, List.map_cons,
        List.nodup_cons, List.disjoint_cons_right]
      tauto
    · have hfails : ¬ validArguments previous (arg :: rest) = true := by
        simp [validArguments, hpos]
      exact iff_of_false hfails fun h ↦ hpos (h.1 arg List.mem_cons_self).1

/-! ### Decoding -/

/-- `mupnp_action_responsecontent`: the path to the only child node of the body, for the nodes that
a response was parsed to. -/
def actionResponseContent (nodes : List XmlNode) : Option (List XmlNode) :=
  match nodes with
  | [envelope] =>
    if actionNodeIs [envelope] (some "Envelope".toList) (some xmlnsUrl) then
      match envelope.children.filter fun (node : XmlNode) ↦
          actionNodeIs [node, envelope] (some "Body".toList) (some xmlnsUrl) with
      | [body] =>
        match body.children with
        | [response] => some [response, body, envelope]
        | _ => none
      | _ => none
    else none
  | _ => none

/-- `mupnp_action_parseerrorcode`: a number between `1` and `INT_MAX`, or zero. -/
def parseErrorCode (value : Option CString) : ℤ :=
  match value with
  | none => 0
  | some value =>
    let number := value.dropWhile isspace
    let digits := if number.head? = some '-' ∨ number.head? = some '+' then number.tail else number
    if digits = [] ∨ digits.any (!·.isDigit) then 0
    else if 0 < atol value ∧ atol value ≤ intMax then atol value
    else 0

/-- `mupnp_xml_node_getchildnodewithnamespace`, whatever the namespace. -/
def getChildNodeIgnoringNamespace (node : XmlNode) (name : CString) : Option XmlNode :=
  node.children.find? fun (child : XmlNode) ↦ child.name.any fun childName ↦
    strcaseeq (localName childName) name

/-- A string of a result after the value of a node was stored in it, if there is such a node. -/
def storeNodeValue (str : Option CString) (node : Option XmlNode) : Option CString :=
  match node with
  | none => str
  | some node => stringSetValue str node.text

/-- `mupnp_action_result_setfault`. -/
def setFault (result : ActionResult) (path : List XmlNode) (response : XmlNode) : ActionResult :=
  let faulted :=
    { result with
      code := .soapFault
      faultCode :=
        storeNodeValue result.faultCode (getChildNodeIgnoringNamespace response "faultcode".toList)
      faultString := storeNodeValue result.faultString
        (getChildNodeIgnoringNamespace response "faultstring".toList) }
  match getChildNodeIgnoringNamespace response "detail".toList with
  | none => faulted
  | some detail =>
    match getChildNodeIgnoringNamespace detail "UPnPError".toList with
    | none => faulted
    | some error =>
      if actionNodeIs (error :: detail :: path) (some "UPnPError".toList)
          (some "urn:schemas-upnp-org:control-1-0".toList) then
        { faulted with
          upnpErrorCode := parseErrorCode
            ((getChildNodeIgnoringNamespace error "errorCode".toList).bind XmlNode.text)
          errorDescription := storeNodeValue faulted.errorDescription
            (getChildNodeIgnoringNamespace error "errorDescription".toList) }
      else faulted

/-- The loop of `mupnp_action_result_setoutputs`: the outputs, or nothing when a child node is
rejected. -/
def collectOutputs (argList : List Argument) : Dictionary → List XmlNode → Option Dictionary
  | outputs, [] => some outputs
  | outputs, node :: rest =>
    let name := actionLocalName node
    match getArgumentByName argList name with
    | none => none
    | some arg =>
      if !arg.isOutDirection || (dictionaryGetValue outputs name).isSome ||
        node.hasChildNodes then none
      else
        collectOutputs argList (dictionarySetValue outputs name (some (node.text.getD []))) rest

/-- `mupnp_action_result_setoutputs`. -/
def setOutputs (result : ActionResult) (action : ServiceAction) (path : List XmlNode)
    (response : XmlNode) : ActionResult :=
  let responseName := stringAddValue (stringSetValue none action.getName) (some "Response".toList)
  if actionNodeIs path responseName action.service.getServiceType then
    match collectOutputs action.argumentList result.outputs response.children with
    | none => { result with outputs := [] }
    | some outputs =>
      let missing := action.argumentList.any fun arg ↦
        arg.isOutDirection && (dictionaryGetValue outputs arg.getName).isNone
      { result with
        code := if missing then .incomplete else .success
        outputs := outputs }
  else result

/-- The part of `mupnp_action_result_fromresponse` after parsing. -/
def decodeNodes (result : ActionResult) (action : ServiceAction) (nodes : List XmlNode) :
    ActionResult :=
  match actionResponseContent nodes with
  | some (response :: ancestors) =>
    if actionNodeIs (response :: ancestors) (some "Fault".toList) (some xmlnsUrl) then
      setFault result (response :: ancestors) response
    else if result.code ≠ .httpError then setOutputs result action (response :: ancestors) response
    else result
  | _ => result

/-- The result before the content of a response is looked at. -/
def statusResult (httpStatusCode : ℤ) : ActionResult :=
  { ActionResult.new with
    code :=
      if httpStatusCode = 0 then .transportError
      else if httpStatusCode < 200 ∨ 300 ≤ httpStatusCode then .httpError
      else .parseError
    httpStatusCode := httpStatusCode }

/-- `mupnp_action_result_fromresponse`, when memory can be allocated. -/
def resultFromResponse (parser : Parser) (action : Option ServiceAction) (httpStatusCode : ℤ)
    (content : Option CString) : ActionResult :=
  if httpStatusCode = 0 then statusResult httpStatusCode
  else
    match action, content with
    | some action, some content =>
      decodeNodes (statusResult httpStatusCode) action (xmlParse parser content).toList
    | _, _ => statusResult httpStatusCode

theorem resultFromResponse_of_ne_zero {httpStatusCode : ℤ} (h : httpStatusCode ≠ 0)
    (parser : Parser) (action : ServiceAction) (content : CString) :
    resultFromResponse parser (some action) httpStatusCode (some content) =
      decodeNodes (statusResult httpStatusCode) action (xmlParse parser content).toList :=
  if_neg h

end Mupnp.Control
