import Mathlib.Data.List.Nodup
import Mathlib.Data.List.Perm.Subperm
import Mupnp.Control.ActionResult

/-!
# Which responses are accepted

`ResponseShape` says what a response to an action looks like: an envelope with one body with one
element, the response element. It is stated for any test of elements: `ElementIs` looks up the
declaration of a namespace as this XML layer looks up all attributes, without regard to letter
case, and in an array that has room for prefixes of `prefixSizeMax` bytes; `XmlElementIs` takes
declarations as XML does.

`strict_response_acceptance` says for `ElementIs` when the decoder succeeds, when it finds a
response incomplete, and that it returns no outputs otherwise. `not_strict_response_acceptance`
shows two responses for which this is not so with `XmlElementIs`.
-/

set_option autoImplicit false
set_option relaxedAutoImplicit false

namespace Mupnp.Control

open Foundation Foundation.XmlText Util Xml Soap

/-! ### What a response looks like -/

/-- A test of an element, given with its ancestors, for a local name and a namespace. -/
abbrev ElementTest := List XmlNode → Option CString → Option CString → Prop

/-- The nearest node of a path with a value for an attribute has this value. -/
def Declares (lookup : XmlNode → CString → Option CString) (path : List XmlNode)
    (declared value : CString) : Prop :=
  ∃ inner node outer, path = inner ++ node :: outer ∧
    (∀ other ∈ inner, lookup other declared = none) ∧ lookup node declared = some value

/-- The name of the attribute that declares the namespace of an element. -/
def xmlDeclarationName (name : CString) : CString :=
  match namespacePrefix name with
  | none => "xmlns".toList
  | some nsPrefix => "xmlns:".toList ++ nsPrefix

/-- An element with a local name in a namespace, as this XML layer looks up attributes. -/
def ElementIs : ElementTest := fun path name ns ↦
  ∃ node ancestors full value, path = node :: ancestors ∧ node.name = some full ∧
    some (localName full) = name ∧
    (∀ nsPrefix ∈ namespacePrefix full, byteLength nsPrefix ≤ prefixSizeMax) ∧
    Declares getAttributeValue path (xmlDeclarationName full) value ∧ some value = ns

/-- The value of an attribute of exactly this name. -/
def getXmlAttributeValue (node : XmlNode) (name : CString) : Option CString :=
  (node.attributes.find? fun attr ↦ decide (attr.name = some name)).bind XmlAttribute.value

/-- An element with a local name in a namespace, as XML has it. -/
def XmlElementIs : ElementTest := fun path name ns ↦
  ∃ node ancestors full value, path = node :: ancestors ∧ node.name = some full ∧
    some (localName full) = name ∧
    Declares getXmlAttributeValue path (xmlDeclarationName full) value ∧ some value = ns

/-- The name of the response element of an action. -/
def responseName (action : ServiceAction) : Option CString :=
  some (action.getName.getD [] ++ "Response".toList)

/-- One envelope with exactly one body that holds exactly one element, the response element. -/
structure ResponseShape (is : ElementTest) (action : ServiceAction) (nodes : List XmlNode)
    (envelope body response : XmlNode) : Prop where
  onlyEnvelope : nodes = [envelope]
  isEnvelope : is [envelope] (some "Envelope".toList) (some xmlnsUrl)
  onlyBody : ∃ before after, envelope.children = before ++ body :: after ∧
    is [body, envelope] (some "Body".toList) (some xmlnsUrl) ∧
    ∀ other ∈ before ++ after, ¬ is [other, envelope] (some "Body".toList) (some xmlnsUrl)
  onlyResponse : body.children = [response]
  isResponse : is [response, body, envelope] (responseName action) action.service.getServiceType

/-- The names of the output arguments of an action. -/
def outNames (argList : List Argument) : List (Option CString) :=
  (argList.filter Argument.isOutDirection).map Argument.getName

/-- A response whose child nodes are leaves. `related` compares their local names with the names of
the output arguments. -/
def Responds (is : ElementTest) (related : List (Option CString) → List (Option CString) → Prop)
    (action : ServiceAction) (nodes : List XmlNode) : Prop :=
  ∃ envelope body response, ResponseShape is action nodes envelope body response ∧
    (∀ child ∈ response.children, child.children = []) ∧
    related (response.children.map actionLocalName) (outNames action.argumentList)

/-- One local name for each output argument. -/
def Corresponds (names declared : List (Option CString)) : Prop := names.Perm declared

/-- One local name for each of some output arguments, but not for all. -/
def CorrespondsInPart (names declared : List (Option CString)) : Prop :=
  names.Subperm declared ∧ ¬ names.Perm declared

/-- A result is what the status and the nodes of a response ask for. -/
structure StrictlyDecoded (is : ElementTest) (action : ServiceAction) (status : ℤ)
    (nodes : List XmlNode) (result : ActionResult) : Prop where
  success : result.code = .success ↔
    (200 ≤ status ∧ status < 300) ∧ Responds is Corresponds action nodes
  incomplete : result.code = .incomplete ↔
    (200 ≤ status ∧ status < 300) ∧ Responds is CorrespondsInPart action nodes
  outputs : result.code ≠ .success → result.code ≠ .incomplete → result.outputs = []

/-! ### Testing elements -/

theorem declares_iff {lookup : XmlNode → CString → Option CString} {path : List XmlNode}
    {declared value : CString} :
    Declares lookup path declared value ↔ path.findSome? (lookup · declared) = some value := by
  rw [List.findSome?_eq_some_iff]
  constructor
  · rintro ⟨inner, node, outer, hpath, hinner, hnode⟩
    exact ⟨inner, node, outer, hpath, hnode, hinner⟩
  · rintro ⟨inner, node, outer, hpath, hnode, hinner⟩
    exact ⟨inner, node, outer, hpath, hinner, hnode⟩

theorem declarationName_eq_some_iff {name declared : CString} :
    declarationName name = some declared ↔
      (∀ nsPrefix ∈ namespacePrefix name, byteLength nsPrefix ≤ prefixSizeMax) ∧
        xmlDeclarationName name = declared := by
  unfold declarationName xmlDeclarationName
  cases namespacePrefix name with
  | none => simp
  | some nsPrefix =>
    by_cases h : prefixSizeMax < byteLength nsPrefix
    · have hle : ¬ byteLength nsPrefix ≤ prefixSizeMax := Nat.not_le.mpr h
      simp [h, hle]
    · simp [h, Nat.not_lt.mp h]

/-- What `mupnp_action_node_is` tests. -/
theorem actionNodeIs_eq_true_iff {path : List XmlNode} {name ns : Option CString} :
    actionNodeIs path name ns = true ↔ ElementIs path name ns := by
  cases path with
  | nil =>
    constructor
    · intro h
      cases h
    · rintro ⟨_, _, _, _, hpath, _⟩
      cases hpath
  | cons node ancestors =>
    constructor
    · intro h
      rw [actionNodeIs] at h
      split at h
      · rename_i hname
        split at h
        · cases h
        · rename_i declared hdeclared
          split at h
          · cases h
          · rename_i value hvalue
            obtain ⟨str, hlocal, hstr⟩ := streq_eq_true_iff.mp hname
            obtain ⟨full, hfull, hlocalName⟩ := Option.map_eq_some_iff.mp hlocal
            rw [hfull, Option.getD_some, declarationName_eq_some_iff] at hdeclared
            obtain ⟨other, hother, hns⟩ := streq_eq_true_iff.mp h
            obtain rfl := Option.some.inj hother
            exact ⟨node, ancestors, full, value, rfl, hfull, hlocalName ▸ hstr.symm, hdeclared.1,
              declares_iff.mpr (hdeclared.2 ▸ hvalue), hns.symm⟩
      · cases h
    · rintro ⟨node', ancestors', full, value, hpath, hfull, hname, hsize, hdeclares, hns⟩
      obtain ⟨rfl, rfl⟩ := List.cons.inj hpath
      have hlocal : actionLocalName node = some (localName full) := by
        rw [actionLocalName, hfull, Option.map_some]
      have hdeclared : declarationName (node.name.getD []) = some (xmlDeclarationName full) := by
        rw [hfull, Option.getD_some]
        exact declarationName_eq_some_iff.mpr ⟨hsize, rfl⟩
      have hvalue : inheritedValue (node :: ancestors) (xmlDeclarationName full) = some value :=
        declares_iff.mp hdeclares
      have hself : ∀ str : CString, streq (some str) (some str) = true :=
        fun str ↦ streq_some_some.mpr rfl
      rw [actionNodeIs, hlocal, ← hname, if_pos (hself _), hdeclared]
      simp only [hvalue]
      rw [← hns]
      exact hself value

/-- What `mupnp_action_responsecontent` finds. -/
theorem actionResponseContent_eq_some_iff {nodes path : List XmlNode} :
    actionResponseContent nodes = some path ↔
      ∃ envelope body response, path = [response, body, envelope] ∧ nodes = [envelope] ∧
        ElementIs [envelope] (some "Envelope".toList) (some xmlnsUrl) ∧
        (∃ before after, envelope.children = before ++ body :: after ∧
          ElementIs [body, envelope] (some "Body".toList) (some xmlnsUrl) ∧
          ∀ other ∈ before ++ after,
            ¬ ElementIs [other, envelope] (some "Body".toList) (some xmlnsUrl)) ∧
        body.children = [response] := by
  constructor
  · intro h
    unfold actionResponseContent at h
    split at h
    · rename_i envelope
      split at h
      · rename_i henvelope
        split at h
        · rename_i body hbody
          split at h
          · rename_i response hresponse
            obtain rfl := Option.some.inj h
            obtain ⟨before, after, hchildren, hbefore, hself, hafter⟩ :=
              List.filter_eq_cons_iff.mp hbody
            refine ⟨envelope, body, response, rfl, rfl, actionNodeIs_eq_true_iff.mp henvelope,
              ⟨before, after, hchildren, actionNodeIs_eq_true_iff.mp hself, ?_⟩, hresponse⟩
            intro other hother hbodyOther
            have htest := actionNodeIs_eq_true_iff.mpr hbodyOther
            rcases List.mem_append.mp hother with hother | hother
            · exact hbefore other hother htest
            · exact List.filter_eq_nil_iff.mp hafter other hother htest
          · cases h
        · cases h
      · cases h
    · cases h
  · rintro ⟨envelope, body, response, rfl, rfl, henvelope,
      ⟨before, after, hchildren, hbody, hothers⟩,
      hresponse⟩
    have hnot : ∀ other ∈ before ++ after,
        ¬ actionNodeIs [other, envelope] (some "Body".toList) (some xmlnsUrl) = true :=
      fun other hother htest ↦ hothers other hother (actionNodeIs_eq_true_iff.mp htest)
    have hfilter : (envelope.children.filter fun (node : XmlNode) ↦
        actionNodeIs [node, envelope] (some "Body".toList) (some xmlnsUrl)) = [body] :=
      List.filter_eq_cons_iff.mpr ⟨before, after, hchildren,
        fun other hother ↦ hnot other (List.mem_append_left _ hother),
        actionNodeIs_eq_true_iff.mpr hbody,
        List.filter_eq_nil_iff.mpr fun other hother ↦ hnot other (List.mem_append_right _ hother)⟩
    simp only [actionResponseContent, if_pos (actionNodeIs_eq_true_iff.mpr henvelope), hfilter,
      hresponse]

/-! ### Collecting the outputs -/

section outputs

variable {argList : List Argument}

/-- The names of the output arguments tell them from all other arguments. -/
structure DistinctOutputs (argList : List Argument) : Prop where
  named : ∀ arg ∈ argList, arg.isOutDirection = true → 0 < strlen arg.getName
  alone : ∀ arg ∈ argList, arg.isOutDirection = true → ∀ other ∈ argList,
    other.getName = arg.getName → other.isOutDirection = true
  nodup : (outNames argList).Nodup

theorem distinctOutputs_of_validArguments (h : validArguments [] argList = true) :
    DistinctOutputs argList := by
  obtain ⟨hnamed, hnodup, -⟩ := validArguments_iff.mp h
  refine ⟨fun arg harg _ ↦ (hnamed arg harg).1, ?_, hnodup.sublist (List.filter_sublist.map _)⟩
  intro arg harg hout other hother hname
  rw [List.inj_on_of_nodup_map hnodup hother harg hname]
  exact hout

theorem strlen_pos_of_mem_outNames (h : DistinctOutputs argList) {name : Option CString}
    (hname : name ∈ outNames argList) : 0 < strlen name := by
  obtain ⟨arg, harg, rfl⟩ := List.mem_map.mp hname
  obtain ⟨hmem, hout⟩ := List.mem_filter.mp harg
  exact h.named arg hmem hout

/-- An output argument is found by its name. -/
theorem mem_outNames_iff (h : DistinctOutputs argList) {name : Option CString} :
    name ∈ outNames argList ↔
      ∃ arg, getArgumentByName argList name = some arg ∧ arg.isOutDirection = true := by
  constructor
  · intro hname
    have hpos := strlen_pos_of_mem_outNames h hname
    obtain ⟨arg, harg, rfl⟩ := List.mem_map.mp hname
    obtain ⟨hmem, hout⟩ := List.mem_filter.mp harg
    obtain ⟨found, hfind⟩ := exists_getArgumentByName hmem hpos
    obtain ⟨hfound, hfoundName⟩ := getArgumentByName_sound hfind
    exact ⟨found, hfind, h.alone arg hmem hout found hfound hfoundName⟩
  · rintro ⟨arg, hfind, hout⟩
    obtain ⟨hmem, hname⟩ := getArgumentByName_sound hfind
    exact List.mem_map.mpr ⟨arg, List.mem_filter.mpr ⟨hmem, hout⟩, hname⟩

/-- The output for a child node. -/
def outputOf (child : XmlNode) : DictionaryElement :=
  ⟨actionLocalName child, some (child.text.getD [])⟩

/-- One turn of the loop. -/
theorem collectOutputs_cons (h : DistinctOutputs argList) {outputs : Dictionary}
    (hvalues : HasValues outputs) (child : XmlNode) (rest : List XmlNode) :
    collectOutputs argList outputs (child :: rest) =
      if actionLocalName child ∈ outNames argList ∧ child.children = [] ∧
          actionLocalName child ∉ outputs.map DictionaryElement.key then
        collectOutputs argList (outputs ++ [outputOf child]) rest
      else none := by
  rw [collectOutputs]
  by_cases hname : actionLocalName child ∈ outNames argList
  · obtain ⟨key, hkey, hne⟩ := eq_some_of_strlen_pos (strlen_pos_of_mem_outNames h hname)
    obtain ⟨arg, harg, hout⟩ := (mem_outNames_iff h).mp hname
    rw [hkey] at hname harg
    have hseen := hvalues.getValue_isSome_iff hne
    have hleaf : child.hasChildNodes = true ↔ child.children ≠ [] := by
      simp [XmlNode.hasChildNodes]
    simp only [hkey, harg, hout, Bool.not_true, Bool.false_or, Bool.or_eq_true, hseen, hleaf]
    by_cases haccept : child.children = [] ∧ some key ∉ outputs.map DictionaryElement.key
    · have hset : dictionarySetValue outputs (some key) (some (child.text.getD [])) =
          outputs ++ [outputOf child] := by
        rw [dictionarySetValue_of_eq_none ((dictionaryGetElement_eq_none_iff hne).mpr haccept.2),
          outputOf, hkey]
      rw [if_neg (by tauto), if_pos ⟨hname, haccept⟩, hset]
    · rw [if_pos (by tauto), if_neg fun hall ↦ haccept hall.2]
  · rw [if_neg fun hall ↦ hname hall.1]
    cases harg : getArgumentByName argList (actionLocalName child) with
    | none => rfl
    | some arg =>
      have hin : arg.isOutDirection = false := by
        by_contra hout
        exact hname ((mem_outNames_iff h).mpr ⟨arg, harg, by simpa using hout⟩)
      simp [hin]

/-- The loop accepts leaves that are named like output arguments, each name once. -/
theorem collectOutputs_eq_some_iff (h : DistinctOutputs argList) {outputs : Dictionary}
    (hvalues : HasValues outputs) {children : List XmlNode} {result : Dictionary} :
    collectOutputs argList outputs children = some result ↔
      (∀ child ∈ children, child.children = [] ∧ actionLocalName child ∈ outNames argList ∧
        actionLocalName child ∉ outputs.map DictionaryElement.key) ∧
      (children.map actionLocalName).Nodup ∧ result = outputs ++ children.map outputOf := by
  induction children generalizing outputs with
  | nil =>
    rw [collectOutputs, Option.some_inj]
    constructor
    · rintro rfl
      simp
    · rintro ⟨-, -, hresult⟩
      simpa using hresult.symm
  | cons child rest ih =>
    rw [collectOutputs_cons h hvalues, List.forall_mem_cons, List.map_cons, List.nodup_cons]
    split
    · rename_i haccept
      rw [ih (by rw [outputOf]; exact hvalues.append _ _)]
      have hkeys : (outputs ++ [outputOf child]).map DictionaryElement.key =
          outputs.map DictionaryElement.key ++ [actionLocalName child] := by
        rw [List.map_append]
        rfl
      simp only [hkeys, List.mem_append, List.mem_singleton, List.append_assoc]
      constructor
      · rintro ⟨hrest, hnodup, rfl⟩
        refine ⟨⟨⟨haccept.2.1, haccept.1, haccept.2.2⟩, fun other hother ↦ ?_⟩, ⟨?_, hnodup⟩, rfl⟩
        · obtain ⟨hleaf, hmem, hnew⟩ := hrest other hother
          exact ⟨hleaf, hmem, fun hold ↦ hnew (.inl hold)⟩
        · intro hmem
          obtain ⟨other, hother, heq⟩ := List.mem_map.mp hmem
          exact (hrest other hother).2.2 (.inr heq)
      · rintro ⟨⟨-, hrest⟩, ⟨hfirst, hnodup⟩, rfl⟩
        refine ⟨fun other hother ↦ ?_, hnodup, rfl⟩
        obtain ⟨hleaf, hmem, hnew⟩ := hrest other hother
        refine ⟨hleaf, hmem, ?_⟩
        rintro (hold | heq)
        · exact hnew hold
        · exact hfirst (heq ▸ List.mem_map_of_mem hother)
    · rename_i hreject
      constructor
      · intro hnone
        cases hnone
      · rintro ⟨⟨⟨hleaf, hmem, hnew⟩, -⟩, -⟩
        exact absurd ⟨hmem, hleaf, hnew⟩ hreject

/-- Every output argument has its value when all names have been collected. -/
theorem any_isNone_outputs_iff (h : DistinctOutputs argList) (children : List XmlNode) :
    (argList.any fun arg ↦ arg.isOutDirection &&
        (dictionaryGetValue (children.map outputOf) arg.getName).isNone) = false ↔
      outNames argList ⊆ children.map actionLocalName := by
  have hvalues : HasValues (children.map outputOf) := by
    intro dirElem hmem
    obtain ⟨child, -, rfl⟩ := List.mem_map.mp hmem
    rfl
  have hkeys : (children.map outputOf).map DictionaryElement.key =
      children.map actionLocalName := by
    rw [List.map_map]
    rfl
  have hfound : ∀ arg ∈ argList, arg.isOutDirection = true →
      ((dictionaryGetValue (children.map outputOf) arg.getName).isNone = false ↔
        arg.getName ∈ children.map actionLocalName) := by
    intro arg harg hout
    obtain ⟨key, hkey, hne⟩ := eq_some_of_strlen_pos (h.named arg harg hout)
    rw [hkey, ← hkeys, ← hvalues.getValue_isSome_iff hne, Option.isNone_eq_false_iff]
  rw [List.any_eq_false]
  constructor
  · intro hall name hname
    obtain ⟨arg, harg, rfl⟩ := List.mem_map.mp hname
    obtain ⟨hmem, hout⟩ := List.mem_filter.mp harg
    refine (hfound arg hmem hout).mp ?_
    have hnone := hall arg hmem
    rw [hout, Bool.true_and] at hnone
    exact Bool.eq_false_iff.mpr hnone
  · intro hsubset arg harg hmissing
    obtain ⟨hout, hnone⟩ := Bool.and_eq_true_iff.mp hmissing
    have hmem : arg.getName ∈ outNames argList :=
      List.mem_map_of_mem (List.mem_filter.mpr ⟨harg, hout⟩)
    rw [(hfound arg harg hout).mpr (hsubset hmem)] at hnone
    cases hnone

/-- The loop accepts a list of leaves whose names are some of the names of the output arguments. -/
theorem collectOutputs_nil_eq_some_iff (h : DistinctOutputs argList)
    {children : List XmlNode} {result : Dictionary} :
    collectOutputs argList [] children = some result ↔
      (∀ child ∈ children, child.children = []) ∧
        (children.map actionLocalName).Subperm (outNames argList) ∧
        result = children.map outputOf := by
  rw [collectOutputs_eq_some_iff h (fun dirElem hmem ↦ absurd hmem List.not_mem_nil)]
  constructor
  · rintro ⟨hall, hnodup, hresult⟩
    have hsubset : children.map actionLocalName ⊆ outNames argList := by
      intro name hname
      obtain ⟨child, hchild, rfl⟩ := List.mem_map.mp hname
      exact (hall child hchild).2.1
    exact ⟨fun child hchild ↦ (hall child hchild).1, hnodup.subperm hsubset, hresult⟩
  · rintro ⟨hleaf, hsubperm, hresult⟩
    obtain ⟨names, hperm, hsublist⟩ := hsubperm
    refine ⟨fun child hchild ↦ ⟨hleaf child hchild, ?_, List.not_mem_nil⟩,
      hperm.nodup_iff.mp (h.nodup.sublist hsublist), hresult⟩
    exact hsublist.subset (hperm.mem_iff.mpr (List.mem_map_of_mem hchild))

end outputs

/-! ### Decoding a response -/

section decoding

variable {action : ServiceAction}

theorem responseName_eq (action : ServiceAction) :
    stringAddValue (stringSetValue none action.getName) (some "Response".toList) =
      responseName action := by
  rw [stringSetValue_none_left]
  rfl

theorem setFault_outputs (result : ActionResult) (path : List XmlNode) (response : XmlNode) :
    (setFault result path response).outputs = result.outputs := by
  unfold setFault
  split
  · rfl
  · split
    · rfl
    · split <;> rfl

theorem setFault_code (result : ActionResult) (path : List XmlNode) (response : XmlNode) :
    (setFault result path response).code = .soapFault := by
  unfold setFault
  split
  · rfl
  · split
    · rfl
    · split <;> rfl

/-- The response element of an action is not a fault. -/
theorem not_fault_of_response {path : List XmlNode} {ns ns' : Option CString}
    (h : ElementIs path (responseName action) ns) : ¬ ElementIs path (some "Fault".toList) ns' := by
  rintro ⟨node, ancestors, full, _, rfl, hfull, hfault, -⟩
  obtain ⟨node', ancestors', full', _, hpath, hfull', hresponse, -⟩ := h
  obtain ⟨rfl, -⟩ := List.cons.inj hpath
  obtain rfl := Option.some.inj (hfull.symm.trans hfull')
  rw [hfault] at hresponse
  have hlength := congrArg List.length (Option.some.inj hresponse)
  rw [List.length_append] at hlength
  have hfaultLength : "Fault".toList.length = 5 := rfl
  have hsuffixLength : "Response".toList.length = 8 := rfl
  omega

theorem responseShape_iff {nodes : List XmlNode} {envelope body response : XmlNode} :
    ResponseShape ElementIs action nodes envelope body response ↔
      actionResponseContent nodes = some [response, body, envelope] ∧
        ElementIs [response, body, envelope]
          (responseName action) action.service.getServiceType := by
  rw [actionResponseContent_eq_some_iff]
  constructor
  · rintro ⟨honly, henvelope, hbody, hresponse, his⟩
    exact ⟨⟨envelope, body, response, rfl, honly, henvelope, hbody, hresponse⟩, his⟩
  · rintro ⟨⟨envelope', body', response', hpath, honly, henvelope, hbody, hresponse⟩, his⟩
    simp only [List.cons.injEq, and_true] at hpath
    obtain ⟨rfl, rfl, rfl⟩ := hpath
    exact ⟨honly, henvelope, hbody, hresponse, his⟩

/-- A node list has one response element at most. -/
theorem responds_iff_of_shape {related : List (Option CString) → List (Option CString) → Prop}
    {nodes : List XmlNode} {envelope body response : XmlNode}
    (h : ResponseShape ElementIs action nodes envelope body response) :
    Responds ElementIs related action nodes ↔
      (∀ child ∈ response.children, child.children = []) ∧
        related (response.children.map actionLocalName) (outNames action.argumentList) := by
  constructor
  · rintro ⟨envelope', body', response', hshape, hchildren⟩
    have hpath := (responseShape_iff.mp h).1.symm.trans (responseShape_iff.mp hshape).1
    simp only [Option.some.injEq, List.cons.injEq, and_true] at hpath
    rw [hpath.1]
    exact hchildren
  · intro hchildren
    exact ⟨envelope, body, response, h, hchildren⟩

/-- The outputs of a response element with leaves for some output arguments. -/
theorem setOutputs_of_subperm (hschema : DistinctOutputs action.argumentList)
    {result : ActionResult}
    (hresult : result.outputs = []) {path : List XmlNode} {response : XmlNode}
    (his : ElementIs path (responseName action) action.service.getServiceType)
    (hleaf : ∀ child ∈ response.children, child.children = [])
    (hsubperm : (response.children.map actionLocalName).Subperm (outNames action.argumentList)) :
    setOutputs result action path response =
      { result with
        code :=
          if outNames action.argumentList ⊆ response.children.map actionLocalName then .success
          else .incomplete
        outputs := response.children.map outputOf } := by
  have hcollect := (collectOutputs_nil_eq_some_iff hschema).mpr ⟨hleaf, hsubperm, rfl⟩
  have hmissing := any_isNone_outputs_iff hschema response.children
  rw [setOutputs, responseName_eq]
  simp only [actionNodeIs_eq_true_iff.mpr his, if_true, hresult, hcollect]
  by_cases hsubset : outNames action.argumentList ⊆ response.children.map actionLocalName
  · rw [hmissing.mpr hsubset, if_pos hsubset]
    rfl
  · rw [Bool.not_eq_false _ |>.mp fun hall ↦ hsubset (hmissing.mp hall), if_neg hsubset]
    rfl

/-- A response element with other children. -/
theorem setOutputs_of_not_subperm (hschema : DistinctOutputs action.argumentList)
    {result : ActionResult}
    (hresult : result.outputs = []) {path : List XmlNode} {response : XmlNode}
    (his : ElementIs path (responseName action) action.service.getServiceType)
    (hchildren : ¬ ((∀ child ∈ response.children, child.children = []) ∧
      (response.children.map actionLocalName).Subperm (outNames action.argumentList))) :
    setOutputs result action path response = { result with outputs := [] } := by
  have hcollect : collectOutputs action.argumentList [] response.children = none := by
    rw [Option.eq_none_iff_forall_not_mem]
    intro outputs hmem
    obtain ⟨hleaf, hsubperm, -⟩ := (collectOutputs_nil_eq_some_iff hschema).mp hmem
    exact hchildren ⟨hleaf, hsubperm⟩
  rw [setOutputs, responseName_eq]
  simp only [actionNodeIs_eq_true_iff.mpr his, if_true, hresult, hcollect]

theorem decodeNodes_of_shape {result : ActionResult} (hcode : result.code ≠ .httpError)
    {nodes : List XmlNode} {envelope body response : XmlNode}
    (h : ResponseShape ElementIs action nodes envelope body response) :
    decodeNodes result action nodes =
      setOutputs result action [response, body, envelope] response := by
  obtain ⟨hcontent, his⟩ := responseShape_iff.mp h
  have hfault : ¬ actionNodeIs [response, body, envelope] (some "Fault".toList)
      (some xmlnsUrl) = true :=
    fun hfault ↦ not_fault_of_response his (actionNodeIs_eq_true_iff.mp hfault)
  simp only [decodeNodes, hcontent, if_neg hfault, if_pos hcode]

/-- Without a response element there are no outputs. -/
theorem decodeNodes_of_not_shape {result : ActionResult} {nodes : List XmlNode}
    (h : result.code = .httpError ∨
      ∀ envelope body response, ¬ ResponseShape ElementIs action nodes envelope body response) :
    (decodeNodes result action nodes).outputs = result.outputs ∧
      ((decodeNodes result action nodes).code = result.code ∨
        (decodeNodes result action nodes).code = .soapFault) := by
  unfold decodeNodes
  split
  · rename_i response ancestors hcontent
    split
    · exact ⟨setFault_outputs _ _ _, .inr (setFault_code _ _ _)⟩
    · split
      · rename_i hcode
        obtain ⟨envelope, body, response', hpath, -⟩ :=
          actionResponseContent_eq_some_iff.mp hcontent
        rw [hpath] at hcontent
        have his : ¬ actionNodeIs [response', body, envelope] (responseName action)
            action.service.getServiceType = true := by
          intro his
          rcases h with h | h
          · exact hcode h
          · exact h envelope body response'
              (responseShape_iff.mpr ⟨hcontent, actionNodeIs_eq_true_iff.mp his⟩)
        rw [hpath, setOutputs, responseName_eq]
        rw [if_neg his]
        exact ⟨rfl, .inl rfl⟩
      · exact ⟨rfl, .inl rfl⟩
  · exact ⟨rfl, .inl rfl⟩

/-- The names of all output arguments, once each, are found when the names found are some of them
and none is left out. -/
theorem perm_outNames_iff (hschema : DistinctOutputs action.argumentList)
    {names : List (Option CString)}
    (h : names.Subperm (outNames action.argumentList)) :
    names.Perm (outNames action.argumentList) ↔ outNames action.argumentList ⊆ names := by
  constructor
  · intro hperm
    exact hperm.symm.subset
  · intro hsubset
    exact h.antisymm (hschema.nodup.subperm hsubset)

/-- What a result without outputs becomes. -/
theorem decodeNodes_strict (hschema : DistinctOutputs action.argumentList) {result : ActionResult}
    (houtputs : result.outputs = []) (hsuccess : result.code ≠ .success)
    (hincomplete : result.code ≠ .incomplete) (nodes : List XmlNode) :
    ((decodeNodes result action nodes).code = .success ↔
        result.code ≠ .httpError ∧ Responds ElementIs Corresponds action nodes) ∧
      ((decodeNodes result action nodes).code = .incomplete ↔
        result.code ≠ .httpError ∧ Responds ElementIs CorrespondsInPart action nodes) ∧
      ((decodeNodes result action nodes).code ≠ .success →
        (decodeNodes result action nodes).code ≠ .incomplete →
          (decodeNodes result action nodes).outputs = []) := by
  by_cases hshape : result.code ≠ .httpError ∧
      ∃ envelope body response, ResponseShape ElementIs action nodes envelope body response
  · obtain ⟨hcode, envelope, body, response, hshape⟩ := hshape
    have his := (responseShape_iff.mp hshape).2
    rw [decodeNodes_of_shape hcode hshape, responds_iff_of_shape hshape,
      responds_iff_of_shape hshape]
    by_cases hchildren : (∀ child ∈ response.children, child.children = []) ∧
        (response.children.map actionLocalName).Subperm (outNames action.argumentList)
    · obtain ⟨hleaf, hsubperm⟩ := hchildren
      have hperm := perm_outNames_iff hschema hsubperm
      rw [setOutputs_of_subperm hschema houtputs his hleaf hsubperm, Corresponds, CorrespondsInPart,
        hperm]
      by_cases hsubset : outNames action.argumentList ⊆ response.children.map actionLocalName
      · simpa [hsubset, hcode] using hleaf
      · simpa [hsubset, hcode, hsubperm] using hleaf
    · rw [setOutputs_of_not_subperm hschema houtputs his hchildren]
      refine ⟨⟨fun h ↦ absurd h hsuccess, ?_⟩, ⟨fun h ↦ absurd h hincomplete, ?_⟩, fun _ _ ↦ rfl⟩
      · rintro ⟨-, hleaf, hperm⟩
        exact absurd ⟨hleaf, hperm.subperm⟩ hchildren
      · rintro ⟨-, hleaf, hsubperm, -⟩
        exact absurd ⟨hleaf, hsubperm⟩ hchildren
  · have hnot : result.code = .httpError ∨
        ∀ envelope body response, ¬ ResponseShape ElementIs action nodes envelope body
          response := by
      by_contra hcontra
      push Not at hcontra
      exact hshape hcontra
    have hresponds : ∀ related, ¬ (result.code ≠ .httpError ∧
        Responds ElementIs related action nodes) := by
      rintro related ⟨hcode, envelope, body, response, hresponse, -⟩
      exact hshape ⟨hcode, envelope, body, response, hresponse⟩
    obtain ⟨hsame, hcode⟩ := decodeNodes_of_not_shape hnot
    refine ⟨⟨fun h ↦ ?_, fun h ↦ absurd h (hresponds _)⟩,
      ⟨fun h ↦ ?_, fun h ↦ absurd h (hresponds _)⟩, fun _ _ ↦ hsame.trans houtputs⟩
    · rcases hcode with hcode | hcode
      · exact absurd (hcode.symm.trans h) hsuccess
      · cases hcode.symm.trans h
    · rcases hcode with hcode | hcode
      · exact absurd (hcode.symm.trans h) hincomplete
      · cases hcode.symm.trans h

/-- The code of a result before the content of the response is looked at. -/
theorem statusResult_code_ne_httpError_iff (status : ℤ) :
    status ≠ 0 ∧ (statusResult status).code ≠ .httpError ↔ 200 ≤ status ∧ status < 300 := by
  unfold statusResult
  by_cases hzero : status = 0
  · simp [hzero]
  · by_cases herror : status < 200 ∨ 300 ≤ status
    · simp only [hzero, herror, if_true, if_false]
      constructor
      · rintro ⟨-, h⟩
        exact absurd rfl h
      · intro h
        omega
    · simp only [hzero, herror, if_false]
      constructor
      · intro _
        omega
      · intro _
        exact ⟨hzero, ActionResultCode.noConfusion⟩

theorem statusResult_code_ne (status : ℤ) :
    (statusResult status).code ≠ .success ∧ (statusResult status).code ≠ .incomplete := by
  unfold statusResult
  split_ifs <;> exact ⟨ActionResultCode.noConfusion, ActionResultCode.noConfusion⟩

end decoding

/-- **Responses are accepted strictly.** The decoder succeeds exactly on a response with the right
shape and one leaf for each output argument, finds it incomplete exactly when leaves for some of
them are missing, and returns no outputs otherwise. -/
theorem strict_response_acceptance (parser : Parser) (action : ServiceAction)
    (hschema : validSchema action = true) (status : ℤ) (content : CString) :
    StrictlyDecoded ElementIs action status (xmlParse parser content).toList
      (resultFromResponse parser (some action) status (some content)) := by
  obtain ⟨hsuccess, hincomplete⟩ := statusResult_code_ne status
  by_cases hzero : status = 0
  · rw [resultFromResponse, if_pos hzero]
    refine ⟨⟨fun h ↦ absurd h hsuccess, ?_⟩, ⟨fun h ↦ absurd h hincomplete, ?_⟩, fun _ _ ↦ rfl⟩
    · rintro ⟨hstatus, -⟩
      omega
    · rintro ⟨hstatus, -⟩
      omega
  · have harguments := distinctOutputs_of_validArguments (Bool.and_eq_true_iff.mp hschema).2
    obtain ⟨hfull, hpart, houtputs⟩ := decodeNodes_strict harguments rfl hsuccess hincomplete
      (xmlParse parser content).toList
    have hstatus : (statusResult status).code ≠ .httpError ↔ 200 ≤ status ∧ status < 300 := by
      rw [← statusResult_code_ne_httpError_iff]
      exact ⟨fun h ↦ ⟨hzero, h⟩, And.right⟩
    rw [hstatus] at hfull hpart
    rw [resultFromResponse_of_ne_zero hzero]
    exact ⟨hfull, hpart, houtputs⟩

/-! ### Two responses that are taken otherwise -/

/-- A service of type `urn:x`. -/
def playerService : ControlledService where
  serviceNode := some (XmlNode.new.setChildNode "serviceType".toList (some "urn:x".toList))

/-- An action of it without arguments. -/
def playAction : ServiceAction where
  actionNode := XmlNode.new.setChildNode "name".toList (some "Play".toList)
  argumentList := []
  service := playerService

/-- A response to the action whose envelope declares a prefix. -/
def playResponse (nsPrefix declared : CString) : XmlNode :=
  .node ⟨some (nsPrefix ++ ":Envelope".toList), none,
      [⟨some ("xmlns:".toList ++ declared), some xmlnsUrl⟩]⟩
    [.node ⟨some (nsPrefix ++ ":Body".toList), none, []⟩
      [.node ⟨some "PlayResponse".toList, none, [⟨some "xmlns".toList, some "urn:x".toList⟩]⟩ []]]

/-- The text of that response. -/
def playResponseText (nsPrefix declared : CString) : CString :=
  declaration ++ "\n<".toList ++ nsPrefix ++ ":Envelope xmlns:".toList ++ declared ++
    "=\"".toList ++
    xmlnsUrl ++ "\"><".toList ++ nsPrefix ++
    ":Body><PlayResponse xmlns=\"urn:x\"></PlayResponse></".toList ++ nsPrefix ++
      ":Body></".toList ++
    nsPrefix ++ ":Envelope>".toList

/-- A prefix for which the decoder has no room. -/
def longPrefix : CString := List.replicate (prefixSizeMax + 1) 'p'

theorem strict_response_acceptance_play :
    StrictlyDecoded ElementIs playAction 200
      (xmlParse subsetParser (playResponseText "s".toList "s".toList)).toList
      (resultFromResponse subsetParser (some playAction) 200
        (some (playResponseText "s".toList "s".toList))) :=
  strict_response_acceptance subsetParser playAction (by decide) 200 _

/-- Its shape is right as XML has it. -/
theorem responds_playResponse_longPrefix :
    Responds XmlElementIs Corresponds playAction [playResponse longPrefix longPrefix] := by
  have henvelope : XmlElementIs [playResponse longPrefix longPrefix] (some "Envelope".toList)
      (some xmlnsUrl) :=
    ⟨_, [], longPrefix ++ ":Envelope".toList, xmlnsUrl, rfl, rfl, by decide +kernel,
      declares_iff.mpr (by decide +kernel), rfl⟩
  refine ⟨_, _, _, ⟨rfl, henvelope, ⟨[], [], rfl, ?_, ?_⟩, rfl, ?_⟩, ?_, ?_⟩
  · exact ⟨_, _, longPrefix ++ ":Body".toList, xmlnsUrl, rfl, rfl, by decide +kernel,
      declares_iff.mpr (by decide +kernel), rfl⟩
  · intro other hother
    cases hother
  · exact ⟨_, _, "PlayResponse".toList, "urn:x".toList, rfl, rfl, by decide,
      declares_iff.mpr (by decide), by decide⟩
  · intro child hchild
    cases hchild
  · exact List.Perm.nil

/-- A prefix that is declared only in another letter case is not declared in XML. -/
theorem not_responds_playResponse :
    ¬ Responds XmlElementIs Corresponds playAction [playResponse "s".toList "S".toList] := by
  rintro ⟨envelope, body, response, hshape, -⟩
  obtain ⟨node, ancestors, full, value, hpath, hfull, -, hdeclares, -⟩ := hshape.isEnvelope
  obtain ⟨rfl, rfl⟩ := List.cons.inj hpath
  obtain rfl := List.head_eq_of_cons_eq hshape.onlyEnvelope
  obtain rfl := Option.some.inj hfull
  have hnone : [playResponse "s".toList "S".toList].findSome?
      (getXmlAttributeValue · (xmlDeclarationName "s:Envelope".toList)) = none := by decide
  cases hnone.symm.trans (declares_iff.mp hdeclares)

/-- **The decoder does not take declarations as XML does.** A response whose prefix is too long for
the array fails; a response whose prefix is declared in another letter case succeeds. -/
theorem not_strict_response_acceptance :
    Conforming subsetParser ∧ validSchema playAction = true ∧
      ¬ StrictlyDecoded XmlElementIs playAction 200
        (xmlParse subsetParser (playResponseText longPrefix longPrefix)).toList
        (resultFromResponse subsetParser (some playAction) 200
          (some (playResponseText longPrefix longPrefix))) ∧
      ¬ StrictlyDecoded XmlElementIs playAction 200
        (xmlParse subsetParser (playResponseText "s".toList "S".toList)).toList
        (resultFromResponse subsetParser (some playAction) 200
          (some (playResponseText "s".toList "S".toList))) := by
  have hlong : xmlParse subsetParser (playResponseText longPrefix longPrefix) =
      some (playResponse longPrefix longPrefix) := by decide +kernel
  have hcase : xmlParse subsetParser (playResponseText "s".toList "S".toList) =
      some (playResponse "s".toList "S".toList) := by decide +kernel
  refine ⟨conforming_subsetParser, by decide, fun h ↦ ?_, fun h ↦ ?_⟩
  · have hcode : (resultFromResponse subsetParser (some playAction) 200
        (some (playResponseText longPrefix longPrefix))).code = .parseError := by
      rw [resultFromResponse_of_ne_zero (by decide), hlong]
      decide +kernel
    rw [hlong] at h
    cases hcode.symm.trans (h.success.mpr ⟨by decide, responds_playResponse_longPrefix⟩)
  · have hcode : (resultFromResponse subsetParser (some playAction) 200
        (some (playResponseText "s".toList "S".toList))).code = .success := by
      rw [resultFromResponse_of_ne_zero (by decide), hcase]
      decide +kernel
    rw [hcase] at h
    exact not_responds_playResponse (h.success.mp hcode).2

end Mupnp.Control
