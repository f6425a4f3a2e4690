import Mathlib.Data.List.Forall2
import Mathlib.Data.List.Nodup
import Mupnp.Event.EventedService
import Mupnp.Soap.SoapMessage

/-!
# Convergence of state tables

A device tells a control point the values of all its evented state variables in one NOTIFY
message. `property_set_converges_iff` says when the copy of the control point has these values
after it accepts the message: an empty value is not taken over, because an element without
character data has no value and `mupnp_string_setvalue` keeps what a string object holds when it
is given none; and a message that is longer than the parser accepts changes nothing.
-/

set_option autoImplicit false
set_option relaxedAutoImplicit false

namespace Mupnp.Event

open Foundation Foundation.RoseTree Foundation.XmlText Util Xml Soap

/-! ### What is sent and received -/

/-- A NOTIFY message on its way: the device writes the node of its body
(`mupnp_soap_request_setcontent`), and the control point parses the text
(`mupnp_soap_request_sethttprequest`). -/
def deliver (parser : Parser) (notifyReq : NotifyRequest) : NotifyRequest :=
  { notifyReq with root := notifyReq.root.bind fun root ↦ xmlParse parser (setContent root) }

theorem deliver_getSid (parser : Parser) (notifyReq : NotifyRequest) :
    (deliver parser notifyReq).getSid = notifyReq.getSid := rfl

theorem deliver_getSeq (parser : Parser) (notifyReq : NotifyRequest) :
    (deliver parser notifyReq).getSeq = notifyReq.getSeq := rfl

/-- State variables that can be written: their names are different names of XML, and they have
values that are made of characters of XML. -/
structure WritableVariables (statVars : List StateVariable) : Prop where
  named : ∀ statVar ∈ statVars, ∃ name, statVar.name = some name ∧ IsLocalName name
  distinct : (statVars.map StateVariable.name).Nodup
  valued : ∀ statVar ∈ statVars, ∃ value, statVar.value = some value ∧ ∀ c ∈ value, IsTextChar c

/-- A variable of a device and its copy at a control point. -/
structure SameVariable (statVar copied : StateVariable) : Prop where
  name : copied.name = statVar.name
  sendEvents : copied.sendEvents = statVar.sendEvents

/-- Each evented variable has the value that the device has, and no other variable changed. -/
structure Converges (statVars before after : List StateVariable) : Prop where
  length : after.length = before.length
  values : ∀ (i : ℕ) (statVar old : StateVariable), statVars[i]? = some statVar →
    before[i]? = some old →
      after[i]? = some (if statVar.isSendEvents then { old with value := statVar.value } else old)

/-- The length of the node of a property. -/
def propertyLength (statVar : StateVariable) : ℕ :=
  37 + 2 * byteLength (statVar.name.getD []) + escapedLength statVar.value

/-- The length of the message for all evented variables. -/
def propertySetLength (statVars : List StateVariable) : ℕ :=
  112 + ((statVars.filter StateVariable.isSendEvents).map propertyLength).sum +
    if statVars.filter StateVariable.isSendEvents = [] then 0 else 1

/-! ### The text of the message -/

section text

variable {statVars : List StateVariable}

/-- What the root of the message holds. -/
def propertySetElement : XmlElement where
  name := some "e:propertyset".toList
  value := none
  attributes := [⟨some "xmlns:e".toList, some "urn:schemas-upnp-org:event-1-0".toList⟩]

/-- The body of the message for some variables. -/
def propertySetNode (statVars : List StateVariable) : XmlNode :=
  .node propertySetElement (statVars.map propertyNode)

theorem propertyNode_eq (statVar : StateVariable) :
    propertyNode statVar = .node ⟨some "e:property".toList, none, []⟩
      [.node ⟨statVar.name, statVar.value, []⟩ []] := by
  simp [propertyNode, XmlNode.new, XmlNode.setName, XmlNode.setValue, XmlNode.withElement,
    XmlNode.addChildNode, stringSetValue_none_left]

theorem createPropertySetNode_eq (statVars : List StateVariable) (statVar : Option StateVariable) :
    createPropertySetNode (some statVars) statVar =
      propertySetNode (statVars.filter StateVariable.isSendEvents) := by
  rw [createPropertySetNode, XmlNode.foldl_addChildNode]
  rfl

theorem writable_propertySetNode (h : WritableVariables statVars) :
    ∀ element ∈ preorderIn [propertySetNode (statVars.filter StateVariable.isSendEvents)],
      Writable element := by
  have hroot : Writable propertySetElement := by
    refine ⟨⟨_, rfl, by decide⟩, ?_, ?_, ?_, ?_⟩
    · decide
    · decide
    · decide
    · rintro value ⟨⟩
  have hproperty : Writable ⟨some "e:property".toList, none, []⟩ := by
    refine ⟨⟨_, rfl, by decide⟩, ?_, ?_, List.Pairwise.nil, ?_⟩
    · rintro source ⟨⟩
    · rintro source ⟨⟩
    · rintro value ⟨⟩
  rw [preorderIn_cons, preorderIn_nil, List.append_nil, propertySetNode, value_node, children_node,
    List.forall_mem_cons]
  refine ⟨hroot, ?_⟩
  have hvars : ∀ vars : List StateVariable, (∀ statVar ∈ vars, statVar ∈ statVars) →
      ∀ element ∈ preorderIn (vars.map propertyNode), Writable element := by
    intro vars
    induction vars with
    | nil => exact fun _ element hmem ↦ by cases hmem
    | cons statVar rest ih =>
      intro hsub
      rw [List.forall_mem_cons] at hsub
      obtain ⟨name, hname, hlocal⟩ := h.named statVar hsub.1
      obtain ⟨value, hvalue, hchars⟩ := h.valued statVar hsub.1
      have hleaf : Writable ⟨statVar.name, statVar.value, []⟩ := by
        refine ⟨⟨name, hname, isName_of_isLocalName hlocal⟩, ?_, ?_, List.Pairwise.nil, ?_⟩
        · rintro source ⟨⟩
        · rintro source ⟨⟩
        · intro other hother
          rw [hvalue] at hother
          obtain rfl := Option.some.inj hother
          exact hchars
      rw [List.map_cons, preorderIn_cons, propertyNode_eq, value_node, children_node,
        preorderIn_cons, value_node, children_node, preorderIn_nil]
      simp only [List.append_nil, List.nil_append, List.cons_append, List.forall_mem_cons]
      exact ⟨hproperty, hleaf, ih hsub.2⟩
  exact hvars _ fun statVar hmem ↦ (List.mem_filter.mp hmem).1

theorem height_propertySetNode (statVars : List StateVariable) :
    height (propertySetNode statVars) ≤ 3 := by
  have hproperties : heightIn (statVars.map propertyNode) ≤ 2 := by
    induction statVars with
    | nil => exact Nat.zero_le _
    | cons statVar rest ih =>
      rw [List.map_cons, heightIn, propertyNode_eq, height, heightIn, height, heightIn]
      exact Nat.max_le.mpr ⟨Nat.le_refl _, ih⟩
  rw [propertySetNode, height]
  omega

theorem byteLength_propertyNode (statVar : StateVariable) :
    byteLength (toStringIndent (propertyNode statVar) 1) = propertyLength statVar := by
  obtain ⟨hspace, hless, hgreater, hslash, hfeed⟩ := utf8Size_markup
  have hattributes : attributesToString none [] = [] := rfl
  have hindent : byteLength (List.replicate 1 ' ') = 1 := rfl
  have hindent' : byteLength (List.replicate 2 ' ') = 2 := rfl
  have hname : byteLength "e:property".toList = 10 := rfl
  rw [propertyNode_eq, toStringIndent, childrenToString, childrenToString, toStringIndent]
  simp only [hattributes, stringSetValue_none_left, byteLength_append, byteLength_cons,
    byteLength_nil, byteLength_escapeChars, Nat.reduceAdd, hindent, hindent', hless, hgreater,
    hslash, hfeed, hname, Option.getD_some, propertyLength]
  omega

theorem byteLength_properties (statVars : List StateVariable) :
    byteLength (childrenToString (statVars.map propertyNode) 1) =
      (statVars.map propertyLength).sum := by
  induction statVars with
  | nil => rfl
  | cons statVar rest ih =>
    rw [List.map_cons, childrenToString, byteLength_append, byteLength_propertyNode, ih,
      List.map_cons, List.sum_cons]

/-- The length of the message. -/
theorem byteLength_propertySetNode (statVars : List StateVariable) :
    byteLength (setContent (propertySetNode (statVars.filter StateVariable.isSendEvents))) =
      propertySetLength statVars := by
  obtain ⟨hspace, hless, hgreater, hslash, hfeed⟩ := utf8Size_markup
  have hattributes : byteLength (attributesToString none propertySetElement.attributes) = 41 := by
    decide
  have hname : byteLength (propertySetElement.name.getD []) = 13 := rfl
  have hheader : byteLength versionHeader = 38 := rfl
  have hindent : byteLength (List.replicate 0 ' ') = 0 := rfl
  have hvalue : byteLength ((escapeChars (stringSetValue none propertySetElement.value)).getD []) =
      0 := rfl
  rw [setContent, nodeToString, propertySetNode, propertySetLength]
  cases hevented : statVars.filter StateVariable.isSendEvents with
  | nil =>
    rw [List.map_nil, toStringIndent, if_pos rfl]
    simp only [byteLength_append, byteLength_cons, byteLength_nil, hattributes, hname, hheader,
      hindent, hvalue, hless, hgreater, hslash, hfeed, List.map_nil, List.sum_nil]
    omega
  | cons statVar rest =>
    have hproperties := byteLength_properties (statVar :: rest)
    rw [List.map_cons] at hproperties
    rw [List.map_cons, toStringIndent, if_neg (List.cons_ne_nil _ _)]
    simp only [byteLength_append, byteLength_cons, byteLength_nil, hattributes, hname, hheader,
      hindent, hproperties, hless, hgreater, hslash, hfeed, Nat.zero_add]
    omega

end text

/-! ### The properties that are received -/

section received

variable {statVars : List StateVariable}

/-- The value of a variable as it is received. -/
def carriedValue (statVar : StateVariable) : Option CString :=
  stringAddValue none (some (statVar.value.getD []))

theorem readBackIn_properties (statVars : List StateVariable) :
    ∃ text, readBackIn (statVars.map propertyNode) 1 = statVars.map fun statVar ↦
      .node ⟨some "e:property".toList, text, []⟩
        [.node ⟨statVar.name, carriedValue statVar, []⟩ []] := by
  refine ⟨some (innerText 1 1), ?_⟩
  induction statVars with
  | nil => rw [List.map_nil, readBackIn, List.map_nil]
  | cons statVar rest ih =>
    rw [List.map_cons, readBackIn, ih, propertyNode_eq, readBack, readBackIn, readBackIn, readBack]
    rfl

theorem createPropertyFromNode_leaf {name : CString} (h : IsLocalName name)
    (value : Option CString) :
    createPropertyFromNode (some (.node ⟨some name, value, []⟩ [])) =
      ⟨some name, value, none, 0⟩ := by
  have hcolon : strstr (some name) (some ":".toList) = -1 := by
    rw [strstr, show ":".toList = [':'] from rfl,
      indexOf_singleton_eq_none (ne_colon_of_isLocalName h)]
  have hnot : ¬ (0 : ℤ) ≤ -1 := by decide
  simp only [createPropertyFromNode, XmlNode.name, XmlNode.text, value_node, hcolon, if_neg hnot,
    stringSetValue_none_left]

/-- The properties of a message that was delivered. -/
theorem getPropertyList_deliver {parser : Parser} (hparser : Conforming parser)
    (h : WritableVariables statVars) (hsize : propertySetLength statVars ≤ intMax)
    (sub : Subscriber) :
    ∃ sid seq, (deliver parser (setPropertySetNode sub (some statVars) none)).getPropertyList =
      (statVars.filter StateVariable.isSendEvents).map fun statVar ↦
        ⟨statVar.name, carriedValue statVar, sid, seq⟩ := by
  have hheight : height (propertySetNode (statVars.filter StateVariable.isSendEvents)) ≤
      xmlMaxDepth := (height_propertySetNode _).trans (by decide)
  have hlength := (byteLength_propertySetNode statVars).trans_le hsize
  have hparse := xmlParse_document hparser (writable_propertySetNode h) hheight hlength
  obtain ⟨text, hread⟩ := readBackIn_properties (statVars.filter StateVariable.isSendEvents)
  obtain ⟨rootText, hroot⟩ := readBack_node propertySetElement
    ((statVars.filter StateVariable.isSendEvents).map propertyNode) 0
  rw [propertySetNode, hroot, hread] at hparse
  have hdelivered : (deliver parser (setPropertySetNode sub (some statVars) none)).root =
      some (.node (readElement propertySetElement rootText)
        ((statVars.filter StateVariable.isSendEvents).map
        fun statVar ↦ .node ⟨some "e:property".toList, text, []⟩
          [.node ⟨statVar.name, carriedValue statVar, []⟩ []])) := by
    rw [deliver, setPropertySetNode]
    simp only [Option.bind_some, createPropertySetNode_eq]
    rw [setContent_eq, propertySetNode, hparse]
  refine ⟨stringSetValue none (deliver parser (setPropertySetNode sub (some statVars) none)).getSid,
    (deliver parser (setPropertySetNode sub (some statVars) none)).getSeq, ?_⟩
  rw [NotifyRequest.getPropertyList, hdelivered]
  simp only [children_node, List.map_map]
  refine List.map_congr_left fun statVar hmem ↦ ?_
  obtain ⟨name, hname, hlocal⟩ := h.named statVar (List.mem_filter.mp hmem).1
  simp only [Function.comp_apply, children_node, List.head?_cons, hname,
    createPropertyFromNode_leaf hlocal]

/-- A message that is too long brings no properties. -/
theorem getPropertyList_deliver_of_lt (hsize : intMax < propertySetLength statVars)
    (parser : Parser) (sub : Subscriber) :
    (deliver parser (setPropertySetNode sub (some statVars) none)).getPropertyList = [] := by
  have hlength := hsize.trans_eq (byteLength_propertySetNode statVars).symm
  have hdelivered : (deliver parser (setPropertySetNode sub (some statVars) none)).root = none := by
    rw [deliver, setPropertySetNode]
    simp only [Option.bind_some, createPropertySetNode_eq]
    exact xmlParse_of_lt hlength parser
  rw [NotifyRequest.getPropertyList, hdelivered]

end received

/-! ### The state table afterwards -/

section table

/-- A variable after a property was received. -/
def assign (statVar : StateVariable) (prop : Property) : StateVariable :=
  if statVar.name = prop.name then statVar.setValue prop.value else statVar

theorem assign_name (statVar : StateVariable) (prop : Property) :
    (assign statVar prop).name = statVar.name := by
  unfold assign
  split_ifs <;> rfl

/-- A property changes the variable of its name. -/
theorem setStateVariableByName_eq_map {table : List StateVariable} {prop : Property}
    {name : CString}
    (hname : prop.name = some name) (hne : name ≠ [])
    (hdistinct : (table.map StateVariable.name).Nodup) :
    setStateVariableByName table prop.name prop.value = table.map (assign · prop) := by
  rw [hname, setStateVariableByName, if_neg (not_strlen_some_le_zero hne)]
  induction table with
  | nil => rfl
  | cons statVar rest ih =>
    rw [List.map_cons, List.nodup_cons] at hdistinct
    obtain ⟨hfirst, hrest⟩ := hdistinct
    rw [updateStateVariable, List.map_cons, assign, hname]
    by_cases hsame : statVar.name = some name
    · have hunchanged : ∀ other ∈ rest, assign other prop = other := by
        intro other hother
        rw [assign, hname, if_neg]
        intro hothername
        exact hfirst (hsame ▸ hothername ▸ List.mem_map_of_mem hother)
      have htest : statVar.isName (some name) = true := by
        rw [StateVariable.isName, hsame, streq_some_some]
      rw [if_pos htest, if_pos hsame, List.map_congr_left hunchanged, List.map_id']
    · have htest : ¬ statVar.isName (some name) = true := by
        intro htest
        obtain ⟨str, hstr, hstrName⟩ := streq_eq_true_iff.mp htest
        exact hsame (hstr.trans hstrName.symm)
      rw [if_neg htest, if_neg hsame, ih hrest]

/-- Properties change each variable alone. -/
theorem foldl_setStateVariableByName {properties : List Property} {table : List StateVariable}
    (hnamed : ∀ prop ∈ properties, ∃ name, prop.name = some name ∧ name ≠ [])
    (hdistinct : (table.map StateVariable.name).Nodup) :
    properties.foldl (fun stateTable prop ↦ setStateVariableByName stateTable prop.name prop.value)
        table = table.map fun statVar ↦ properties.foldl assign statVar := by
  induction properties generalizing table with
  | nil => simp
  | cons prop rest ih =>
    obtain ⟨name, hname, hne⟩ := hnamed prop List.mem_cons_self
    have hnames : (table.map (assign · prop)).map StateVariable.name =
        table.map StateVariable.name := by
      rw [List.map_map]
      exact List.map_congr_left fun statVar _ ↦ assign_name statVar prop
    rw [List.foldl_cons, setStateVariableByName_eq_map hname hne hdistinct,
      ih (fun other hother ↦ hnamed other (List.mem_cons_of_mem _ hother)) (hnames ▸ hdistinct),
      List.map_map]
    rfl

theorem foldl_assign_of_forall_ne {properties : List Property} {statVar : StateVariable}
    (h : ∀ prop ∈ properties, statVar.name ≠ prop.name) :
    properties.foldl assign statVar = statVar := by
  induction properties with
  | nil => rfl
  | cons prop rest ih =>
    rw [List.foldl_cons, assign, if_neg (h prop List.mem_cons_self)]
    exact ih fun other hother ↦ h other (List.mem_cons_of_mem _ hother)

/-- A variable takes the value of the property of its name. -/
theorem foldl_assign_of_mem {properties : List Property} {statVar : StateVariable} {prop : Property}
    (hdistinct : (properties.map Property.name).Nodup) (hmem : prop ∈ properties)
    (hname : statVar.name = prop.name) :
    properties.foldl assign statVar = statVar.setValue prop.value := by
  induction properties with
  | nil => cases hmem
  | cons first rest ih =>
    rw [List.map_cons, List.nodup_cons] at hdistinct
    obtain ⟨hfirst, hrest⟩ := hdistinct
    rw [List.foldl_cons]
    rcases List.mem_cons.mp hmem with rfl | hmem
    · have hothers : ∀ other ∈ rest, (statVar.setValue prop.value).name ≠ other.name := by
        intro other hother heq
        exact hfirst (hname ▸ heq ▸ List.mem_map_of_mem hother)
      rw [assign, if_pos hname, foldl_assign_of_forall_ne hothers]
    · have hne : statVar.name ≠ first.name := by
        intro heq
        exact hfirst (heq ▸ hname ▸ List.mem_map_of_mem hmem)
      rw [assign, if_neg hne, ih hrest hmem]

end table

/-- The state table after a list of properties was received. -/
theorem EventedService.foldl_updateStateTable_stateTable (properties : List Property)
    (service : EventedService) :
    (properties.foldl EventedService.updateStateTableFromProperty service).stateTable =
      properties.foldl (fun stateTable prop ↦
        setStateVariableByName stateTable prop.name prop.value)
        service.stateTable := by
  induction properties generalizing service with
  | nil => rfl
  | cons prop rest ih => exact ih (service.updateStateTableFromProperty prop)

section convergence

variable {parser : Parser} {statVars : List StateVariable} {service : EventedService}
  {sub : Subscriber}

/-- What a variable of the copy becomes when the message is not too long. -/
theorem foldl_assign_received {statVars : List StateVariable} (h : WritableVariables statVars)
    {statVar old : StateVariable} (hmem : statVar ∈ statVars) (hsame : SameVariable statVar old)
    (sid : Option CString) (seq : BitVec 64) :
    ((statVars.filter StateVariable.isSendEvents).map fun statVar ↦
        (⟨statVar.name, carriedValue statVar, sid, seq⟩ : Property)).foldl assign old =
      if statVar.isSendEvents then old.setValue (carriedValue statVar) else old := by
  by_cases hevented : statVar.isSendEvents = true
  · have hnames : (((statVars.filter StateVariable.isSendEvents).map fun statVar ↦
        (⟨statVar.name, carriedValue statVar, sid, seq⟩ : Property)).map Property.name).Nodup := by
      rw [List.map_map]
      exact h.distinct.sublist (List.filter_sublist.map _)
    rw [if_pos hevented]
    exact foldl_assign_of_mem hnames
      (List.mem_map_of_mem (List.mem_filter.mpr ⟨hmem, hevented⟩)) hsame.name
  · rw [if_neg hevented]
    refine foldl_assign_of_forall_ne fun prop hprop hname ↦ ?_
    obtain ⟨other, hother, rfl⟩ := List.mem_map.mp hprop
    obtain ⟨hotherMem, hotherEvented⟩ := List.mem_filter.mp hother
    rw [hsame.name] at hname
    rw [List.inj_on_of_nodup_map h.distinct hmem hotherMem hname] at hevented
    exact hevented hotherEvented

theorem names_eq_of_sameVariables {statVars copied : List StateVariable}
    (h : List.Forall₂ SameVariable statVars copied) :
    copied.map StateVariable.name = statVars.map StateVariable.name := by
  induction h with
  | nil => rfl
  | cons hsame _ ih => rw [List.map_cons, List.map_cons, hsame.name, ih]

/-- The copy after a message was accepted. -/
theorem stateTable_notifyReceived (hparser : Conforming parser) (h : WritableVariables statVars)
    (hcopy : List.Forall₂ SameVariable statVars service.stateTable)
    (hsid : service.hasSid (deliver parser (setPropertySetNode sub (some statVars) none)).getSid =
      true)
    (hseq : service.acceptsSeq (deliver parser
      (setPropertySetNode sub (some statVars) none)).getSeq =
      true) (answer : Option SubscriptionGrant) :
    ∃ change : StateVariable → StateVariable,
      (service.notifyReceived (deliver parser (setPropertySetNode sub (some statVars) none))
        answer).1.stateTable = service.stateTable.map change ∧
      ∀ (i : ℕ) (statVar old : StateVariable), statVars[i]? = some statVar →
        service.stateTable[i]? = some old →
          change old =
            if statVar.isSendEvents ∧ propertySetLength statVars ≤ intMax then
              old.setValue (carriedValue statVar)
            else old := by
  have hnames := names_eq_of_sameVariables hcopy
  have hafter : (service.notifyReceived (deliver parser
      (setPropertySetNode sub (some statVars) none))
      answer).1.stateTable =
      (deliver parser (setPropertySetNode sub (some statVars) none)).getPropertyList.foldl
        (fun stateTable prop ↦ setStateVariableByName stateTable prop.name prop.value)
        service.stateTable := by
    simp only [EventedService.notifyReceived, hsid, hseq, if_true,
      EventedService.foldl_updateStateTable_stateTable]
  by_cases hsize : propertySetLength statVars ≤ intMax
  · obtain ⟨sid, seq, hproperties⟩ := getPropertyList_deliver hparser h hsize sub
    refine ⟨_, hafter.trans (foldl_setStateVariableByName ?_ (hnames ▸ h.distinct)), ?_⟩
    · rw [hproperties]
      intro prop hprop
      obtain ⟨statVar, hstatVar, rfl⟩ := List.mem_map.mp hprop
      obtain ⟨name, hname, hlocal⟩ := h.named statVar (List.mem_filter.mp hstatVar).1
      exact ⟨name, hname, ne_nil_of_isName (isName_of_isLocalName hlocal)⟩
    · intro i statVar old hstatVar hold
      have hsame : SameVariable statVar old := by
        obtain ⟨hi, rfl⟩ := List.getElem?_eq_some_iff.mp hstatVar
        obtain ⟨hi', rfl⟩ := List.getElem?_eq_some_iff.mp hold
        exact (List.forall₂_iff_get.mp hcopy).2 i hi hi'
      rw [hproperties, foldl_assign_received h (List.mem_of_getElem? hstatVar) hsame]
      simp [hsize]
  · refine ⟨id, ?_, fun i statVar old _ _ ↦ ?_⟩
    · rw [hafter, getPropertyList_deliver_of_lt (Nat.not_le.mp hsize), List.foldl_nil, List.map_id]
    · rw [if_neg fun hboth ↦ hsize hboth.2]
      rfl

/-- A variable takes the value of the device when the value is not empty, or was there before. -/
theorem setValue_carriedValue_iff {statVar old : StateVariable} {value : CString}
    (hvalue : statVar.value = some value) :
    old.setValue (carriedValue statVar) = { old with value := statVar.value } ↔
      (statVar.value = some [] → old.value = statVar.value) := by
  have hcarried : carriedValue statVar = stringAddValue none (some value) := by
    rw [carriedValue, hvalue, Option.getD_some]
  rw [hcarried, hvalue, StateVariable.setValue]
  cases value with
  | nil =>
    constructor
    · intro hsame _
      have hold := congrArg StateVariable.value hsame
      exact hold
    · intro hkept
      have hnone : stringAddValue none (some []) = none := rfl
      rw [hnone, stringSetValue_none, hkept rfl]
  | cons c rest =>
    constructor
    · rintro - ⟨⟩
    · intro _
      rfl

end convergence

/-- **When the copy of a control point converges.** After it accepts a message for all evented
variables, the copy has the values of the device unless the device has an empty value that the copy
did not have before, or the message is too long for the parser and the copy did not have all values
before. -/
theorem property_set_converges_iff {parser : Parser} (hparser : Conforming parser)
    {statVars : List StateVariable} (h : WritableVariables statVars) {service : EventedService}
    (hcopy : List.Forall₂ SameVariable statVars service.stateTable) {sub : Subscriber}
    (hsid : service.hasSid (deliver parser (setPropertySetNode sub (some statVars) none)).getSid =
      true)
    (hseq : service.acceptsSeq (deliver parser
      (setPropertySetNode sub (some statVars) none)).getSeq =
      true) (answer : Option SubscriptionGrant) :
    Converges statVars service.stateTable
        (service.notifyReceived (deliver parser (setPropertySetNode sub (some statVars) none))
          answer).1.stateTable ↔
      ∀ (i : ℕ) (statVar old : StateVariable), statVars[i]? = some statVar →
        service.stateTable[i]? = some old → statVar.isSendEvents = true →
          statVar.value = some [] ∨ intMax < propertySetLength statVars →
            old.value = statVar.value := by
  obtain ⟨change, hafter, hchange⟩ :=
    stateTable_notifyReceived hparser h hcopy hsid hseq answer
  rw [hafter]
  constructor
  · rintro ⟨-, hvalues⟩ i statVar old hstatVar hold hevented hcase
    have hsame := hvalues i statVar old hstatVar hold
    rw [List.getElem?_map, hold, Option.map_some, Option.some.injEq, hchange i _ _ hstatVar hold,
      if_pos hevented] at hsame
    by_cases hsize : propertySetLength statVars ≤ intMax
    · obtain ⟨value, hvalue, -⟩ := h.valued statVar (List.mem_of_getElem? hstatVar)
      rw [if_pos ⟨hevented, hsize⟩, setValue_carriedValue_iff hvalue] at hsame
      exact hsame (hcase.resolve_right (Nat.not_lt.mpr hsize))
    · rw [if_neg fun hboth ↦ hsize hboth.2] at hsame
      have hold := congrArg StateVariable.value hsame
      exact hold
  · intro hcondition
    refine ⟨List.length_map _, fun i statVar old hstatVar hold ↦ ?_⟩
    rw [List.getElem?_map, hold, Option.map_some, hchange i _ _ hstatVar hold]
    congr 1
    by_cases hevented : statVar.isSendEvents = true
    · have hkept := hcondition i statVar old hstatVar hold hevented
      rw [if_pos hevented]
      by_cases hsize : propertySetLength statVars ≤ intMax
      · obtain ⟨value, hvalue, -⟩ := h.valued statVar (List.mem_of_getElem? hstatVar)
        rw [if_pos ⟨hevented, hsize⟩, setValue_carriedValue_iff hvalue]
        exact fun hempty ↦ hkept (.inl hempty)
      · rw [if_neg fun hboth ↦ hsize hboth.2, ← hkept (.inr (Nat.not_le.mp hsize))]
    · rw [if_neg hevented, if_neg fun hboth ↦ hevented hboth.1]

/-! ### A value that arrives and one that does not -/

/-- An evented variable with a value. -/
def statusVariable (value : CString) : StateVariable :=
  ⟨some "Status".toList, some "yes".toList, some value⟩

/-- The subscriber of a device to which nothing was sent yet. -/
def statusSubscriber : Subscriber := ⟨some "1".toList, 300, 0, 0⟩

/-- The copy of a control point that is subscribed, with a value of the variable. -/
def statusService (value : CString) : EventedService where
  serviceType := none
  serviceId := none
  scpdUrl := none
  controlUrl := none
  eventSubUrl := none
  subscriptionSid := some "1".toList
  subscriptionTimeout := 300
  subscriptionTimestamp := 0
  eventKey := 0
  stateTable := [statusVariable value]

theorem writableVariables_status {value : CString} (h : ∀ c ∈ value, IsTextChar c) :
    WritableVariables [statusVariable value] where
  named := by
    intro statVar hmem
    obtain rfl := List.mem_singleton.mp hmem
    exact ⟨"Status".toList, rfl, by decide⟩
  distinct := List.nodup_singleton _
  valued := by
    intro statVar hmem
    obtain rfl := List.mem_singleton.mp hmem
    exact ⟨value, rfl, h⟩

theorem sameVariables_status (value old : CString) :
    List.Forall₂ SameVariable [statusVariable value] (statusService old).stateTable :=
  List.Forall₂.cons ⟨rfl, rfl⟩ List.Forall₂.nil

/-- The message for the variable. -/
def statusNotification (value : CString) : NotifyRequest :=
  deliver subsetParser (setPropertySetNode statusSubscriber (some [statusVariable value]) none)

theorem hasSid_statusNotification (value old : CString) :
    (statusService old).hasSid (statusNotification value).getSid = true := by
  rw [statusNotification, deliver_getSid, setPropertySetNode_getSid]
  rfl

theorem acceptsSeq_statusNotification (value old : CString) :
    (statusService old).acceptsSeq (statusNotification value).getSeq = true := by
  rw [statusNotification, deliver_getSeq, setPropertySetNode_getSeq (by decide) (by decide)]
  rfl

theorem property_set_converges_iff_status :
    Converges [statusVariable "<on>".toList] (statusService "off".toList).stateTable
        ((statusService "off".toList).notifyReceived (statusNotification "<on>".toList)
          none).1.stateTable ↔
      ∀ (i : ℕ) (statVar old : StateVariable), [statusVariable "<on>".toList][i]? = some statVar →
        (statusService "off".toList).stateTable[i]? = some old → statVar.isSendEvents = true →
          statVar.value = some [] ∨
            intMax < propertySetLength [statusVariable "<on>".toList] →
            old.value = statVar.value :=
  property_set_converges_iff conforming_subsetParser (writableVariables_status (by decide))
    (sameVariables_status _ _) (hasSid_statusNotification _ _) (acceptsSeq_statusNotification _ _)
    none

/-- **An empty value does not arrive.** -/
theorem not_property_set_converges :
    Conforming subsetParser ∧ WritableVariables [statusVariable []] ∧
      List.Forall₂ SameVariable [statusVariable []] (statusService "off".toList).stateTable ∧
      (statusService "off".toList).hasSid (statusNotification []).getSid = true ∧
      (statusService "off".toList).acceptsSeq (statusNotification []).getSeq = true ∧
      ¬ Converges [statusVariable []] (statusService "off".toList).stateTable
        ((statusService "off".toList).notifyReceived
          (statusNotification []) none).1.stateTable := by
  have hkept : ((statusService "off".toList).notifyReceived
      (statusNotification []) none).1.stateTable =
      [statusVariable "off".toList] := by decide +kernel
  refine ⟨conforming_subsetParser, writableVariables_status (by decide), sameVariables_status _ _,
    hasSid_statusNotification _ _, acceptsSeq_statusNotification _ _, fun hconverges ↦ ?_⟩
  have hvalue := hconverges.values 0 (statusVariable []) (statusVariable "off".toList) rfl rfl
  rw [hkept] at hvalue
  exact absurd hvalue (by decide)

end Mupnp.Event
