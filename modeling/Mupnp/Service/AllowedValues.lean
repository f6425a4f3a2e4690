import Mupnp.Xml.XmlNode

/-!
# Allowed values of a state variable

`mupnp_statevariable_getallowedvaluelist` and `mupnp_statevariable_is_allowed_value` of
`statevariable.c`. The list is built from the description when it is first asked for, and stays at
the state variable. Its first value is kept in the head of the list and each further one is inserted
right behind the head; the test for an allowed value goes over the values behind the head.

`isAllowedValue_afterCalls` says what the test answers after any earlier calls, and
`accepts_listed_iff` when this is whether the value is listed. The description of a state variable
is set once, before any call, and stays.
-/

set_option autoImplicit false
set_option relaxedAutoImplicit false

namespace Mupnp.Service

open Util Xml

/-- `mUpnpAllowedValuesList`: the value in the head and the values of the records behind it. -/
structure AllowedValuesList where
  value : Option CString
  members : List (Option CString)

/-- A state variable with its description and its list of allowed values, `none` before it is
built. -/
structure DescribedVariable where
  stateVarNode : XmlNode
  allowedValueList : Option AllowedValuesList

/-- `mupnp_strcasecmp(str1, str2) == 0`: a missing string equals nothing. -/
def equalIgnoringCase : Option CString → Option CString → Bool
  | some str1, some str2 => strcaseeq str1 str2
  | _, _ => false

/-- What the loop of `mupnp_statevariable_getallowedvaluelist` does for one child node. -/
def addAllowedValue (list : Option AllowedValuesList) (cnode : XmlNode) :
    Option AllowedValuesList :=
  match list with
  | none => some ⟨stringSetValue none cnode.text, []⟩
  | some list => some { list with members := stringSetValue none cnode.text :: list.members }

namespace DescribedVariable

/-- `mupnp_statevariable_new` and `mupnp_statevariable_setstatevariablenode`. -/
def new (node : XmlNode) : DescribedVariable := ⟨node, none⟩

/-- `mupnp_statevariable_getallowedvaluelist`. -/
def getAllowedValueList (statVar : DescribedVariable) : DescribedVariable :=
  if statVar.allowedValueList.isSome then statVar
  else
    match statVar.stateVarNode.getChildNodeByName "allowedValueList".toList with
    | none => statVar
    | some allowedValuesNode =>
      { statVar with
        allowedValueList :=
          allowedValuesNode.children.foldl addAllowedValue statVar.allowedValueList }

/-- `mupnp_statevariable_is_allowed_value`, with the state variable that it leaves. -/
def isAllowedValue (statVar : DescribedVariable) (value : Option CString) :
    Bool × DescribedVariable :=
  let statVar :=
    if statVar.allowedValueList.isSome then statVar else statVar.getAllowedValueList
  match statVar.allowedValueList with
  | none => (false, statVar)
  | some list => (list.members.any (equalIgnoringCase value), statVar)

/-- A call that builds the list, or uses it when it is there. -/
inductive Call where
  | getAllowedValueList
  | isAllowedValue (value : Option CString)

/-- The state variable after a call. -/
def afterCall (statVar : DescribedVariable) : Call → DescribedVariable
  | .getAllowedValueList => statVar.getAllowedValueList
  | .isAllowedValue value => (statVar.isAllowedValue value).2

/-- A state variable with a description after some calls. -/
def afterCalls (node : XmlNode) (earlier : List Call) : DescribedVariable :=
  earlier.foldl afterCall (new node)

/-! ### The list that is built -/

/-- The allowed values that a description lists. -/
def listedValues (node : XmlNode) : List (Option CString) :=
  match node.getChildNodeByName "allowedValueList".toList with
  | none => []
  | some allowedValuesNode => allowedValuesNode.children.map XmlNode.text

/-- The list of some values as the loop builds it: what comes behind the head is in reverse
order. -/
def listOf : List (Option CString) → Option AllowedValuesList
  | [] => none
  | first :: later => some ⟨first, later.reverse⟩

/-- A list of allowed values is missing or the one of the description. -/
structure Built (node : XmlNode) (statVar : DescribedVariable) : Prop where
  node_eq : statVar.stateVarNode = node
  list_eq : statVar.allowedValueList.isSome = true →
    statVar.allowedValueList = listOf (listedValues node)

theorem foldl_addAllowedValue_some (cnodes : List XmlNode) (list : AllowedValuesList) :
    cnodes.foldl addAllowedValue (some list) =
      some { list with members := (cnodes.map XmlNode.text).reverse ++ list.members } := by
  induction cnodes generalizing list with
  | nil => rfl
  | cons cnode rest ih =>
    rw [List.foldl_cons, addAllowedValue, ih, stringSetValue_none_left, List.map_cons,
      List.reverse_cons, List.append_assoc]
    rfl

theorem foldl_addAllowedValue (cnodes : List XmlNode) :
    cnodes.foldl addAllowedValue none = listOf (cnodes.map XmlNode.text) := by
  cases cnodes with
  | nil => rfl
  | cons cnode rest =>
    rw [List.foldl_cons, addAllowedValue, foldl_addAllowedValue_some, stringSetValue_none_left,
      List.append_nil]
    rfl

theorem built_new (node : XmlNode) : Built node (new node) :=
  ⟨rfl, fun hsome ↦ absurd hsome Bool.false_ne_true⟩

/-- After the list is asked for, it is the one of the description. -/
theorem Built.getAllowedValueList {node : XmlNode} {statVar : DescribedVariable}
    (h : Built node statVar) : statVar.getAllowedValueList =
      ⟨node, listOf (listedValues node)⟩ := by
  obtain ⟨stateVarNode, allowedValueList⟩ := statVar
  obtain ⟨hnode, hlist⟩ := h
  subst hnode
  unfold DescribedVariable.getAllowedValueList
  by_cases hsome : allowedValueList.isSome = true
  · rw [if_pos hsome, ← hlist hsome]
  · rw [if_neg hsome]
    obtain rfl : allowedValueList = none := Option.not_isSome_iff_eq_none.mp hsome
    unfold listedValues
    dsimp only
    cases stateVarNode.getChildNodeByName "allowedValueList".toList with
    | none => rfl
    | some allowedValuesNode =>
      exact congrArg (DescribedVariable.mk stateVarNode)
        (foldl_addAllowedValue allowedValuesNode.children)

/-- The test goes over the values behind the head, and leaves the list of the description. -/
theorem Built.isAllowedValue {node : XmlNode} {statVar : DescribedVariable}
    (h : Built node statVar) (value : Option CString) :
    statVar.isAllowedValue value =
      ((listedValues node).tail.any (equalIgnoringCase value),
        ⟨node, listOf (listedValues node)⟩) := by
  have hbuilt : (if statVar.allowedValueList.isSome = true then statVar
      else statVar.getAllowedValueList) = ⟨node, listOf (listedValues node)⟩ := by
    split_ifs with hsome
    · rw [← h.list_eq hsome, ← h.node_eq]
    · exact h.getAllowedValueList
  rw [DescribedVariable.isAllowedValue, hbuilt]
  cases listedValues node with
  | nil => rfl
  | cons first later => exact Prod.ext List.any_reverse rfl

theorem Built.afterCall {node : XmlNode} {statVar : DescribedVariable} (h : Built node statVar)
    (call : Call) : Built node (statVar.afterCall call) := by
  cases call with
  | getAllowedValueList =>
    rw [DescribedVariable.afterCall, h.getAllowedValueList]
    exact ⟨rfl, fun _ ↦ rfl⟩
  | isAllowedValue value =>
    rw [DescribedVariable.afterCall, h.isAllowedValue]
    exact ⟨rfl, fun _ ↦ rfl⟩

theorem built_afterCalls (node : XmlNode) (earlier : List Call) :
    Built node (afterCalls node earlier) := by
  have hfold : ∀ statVar, Built node statVar →
      Built node (earlier.foldl DescribedVariable.afterCall statVar) := by
    induction earlier with
    | nil => exact fun statVar h ↦ h
    | cons call rest ih => exact fun statVar h ↦ ih _ (h.afterCall call)
  exact hfold (new node) (built_new node)

/-! ### Which values are accepted -/

/-- Whatever was called before, the test compares a value with all listed values but the first. -/
theorem isAllowedValue_afterCalls (node : XmlNode) (earlier : List Call)
    (value : Option CString) :
    ((afterCalls node earlier).isAllowedValue value).1 =
      (listedValues node).tail.any (equalIgnoringCase value) := by
  rw [(built_afterCalls node earlier).isAllowedValue]

/-- A value equals a listed one, ignoring case. -/
def IsListed (node : XmlNode) (value : Option CString) : Prop :=
  ∃ listed ∈ listedValues node, equalIgnoringCase value listed = true

/-- The test accepts exactly the listed values if and only if a value that equals the first listed
one equals a later one too. -/
theorem accepts_listed_iff (node : XmlNode) (earlier : List Call) (value : Option CString) :
    (((afterCalls node earlier).isAllowedValue value).1 = true ↔ IsListed node value) ↔
      ∀ first later, listedValues node = first :: later → equalIgnoringCase value first = true →
        ∃ other ∈ later, equalIgnoringCase value other = true := by
  rw [isAllowedValue_afterCalls, List.any_eq_true, IsListed]
  constructor
  · intro haccepts first later hlisted hfirst
    rw [hlisted] at haccepts
    exact haccepts.mpr ⟨first, List.mem_cons_self, hfirst⟩
  · intro hlater
    constructor
    · rintro ⟨listed, hmem, hequal⟩
      exact ⟨listed, List.mem_of_mem_tail hmem, hequal⟩
    · rintro ⟨listed, hmem, hequal⟩
      obtain ⟨first, later, hlisted⟩ := List.exists_cons_of_ne_nil (List.ne_nil_of_mem hmem)
      rw [hlisted] at hmem ⊢
      rcases List.mem_cons.mp hmem with rfl | hrest
      · exact hlater listed later hlisted hequal
      · exact ⟨listed, hrest, hequal⟩

/-- The description of a state variable with the allowed values `STOPPED` and `PLAYING`. -/
def transportState : XmlNode :=
  let allowed (value : String) : XmlNode :=
    (XmlNode.new.setName (some "allowedValue".toList)).setValue (some value.toList)
  (XmlNode.new.setName (some "stateVariable".toList)).addChildNode
    (((XmlNode.new.setName (some "allowedValueList".toList)).addChildNode
      (allowed "STOPPED")).addChildNode (allowed "PLAYING"))

/-- The first listed value is refused. -/
theorem not_accepts_listed :
    ¬ ∀ (node : XmlNode) (earlier : List Call) (value : Option CString),
      ((afterCalls node earlier).isAllowedValue value).1 = true ↔ IsListed node value := by
  intro haccepts
  have hlisted : IsListed transportState (some "STOPPED".toList) :=
    ⟨some "STOPPED".toList, by decide, by decide⟩
  have haccepted := (haccepts transportState [] (some "STOPPED".toList)).mpr hlisted
  exact absurd haccepted (by decide)

end DescribedVariable

end Mupnp.Service
