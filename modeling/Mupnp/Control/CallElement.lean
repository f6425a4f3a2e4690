import Mupnp.Control.ActionResult
import Mupnp.Soap.SoapMessage

/-!
# Elements of calls

A request and its response are written in the same way: an element in the namespace of the service
with one leaf for each argument (`callNode`). `writable_callNode`, `readBack_callNode` and
`byteLength_callNode` say when it can be written, what it is read as and how long it is.
-/

set_option autoImplicit false
set_option relaxedAutoImplicit false

namespace Mupnp.Control

open Foundation Foundation.RoseTree Foundation.XmlText Util Xml Soap

/-- The element for a call or its response. -/
def callNode (name : CString) (attributes : List XmlAttribute) (args : List Argument) : XmlNode :=
  .node ⟨some name, none, attributes⟩ (args.map argumentNode)

/-- The attribute that declares the namespace of a service. -/
def serviceDeclaration (serviceType : Option CString) : XmlAttribute :=
  ⟨some "xmlns:u".toList, serviceType⟩

theorem argumentNode_eq (arg : Argument) :
    argumentNode arg = .node ⟨arg.getName, arg.value, []⟩ [] := by
  simp [argumentNode, XmlNode.new, XmlNode.setName, XmlNode.setValue, XmlNode.withElement,
    stringSetValue_none_left]

/-! ### Writing -/

/-- An argument whose name and value can be written. -/
structure WritableArgument (arg : Argument) : Prop where
  name : ∃ name, arg.getName = some name ∧ IsLocalName name
  value : ∀ value ∈ arg.value, ∀ c ∈ value, IsTextChar c

theorem WritableArgument.writable {arg : Argument} (h : WritableArgument arg) :
    Writable (argumentNode arg).value := by
  obtain ⟨name, hname, hlocal⟩ := h.name
  rw [argumentNode_eq, value_node]
  refine ⟨⟨name, hname, isName_of_isLocalName hlocal⟩, ?_, ?_, List.Pairwise.nil, h.value⟩
  · rintro source ⟨⟩
  · rintro source ⟨⟩

theorem writable_of_attributes_nil {name : CString} (h : IsName name) :
    Writable ⟨some name, none, []⟩ := by
  refine ⟨⟨name, rfl, h⟩, ?_, ?_, List.Pairwise.nil, ?_⟩
  · rintro source ⟨⟩
  · rintro source ⟨⟩
  · rintro value ⟨⟩

theorem writable_of_serviceDeclaration {name : CString} (h : IsName name)
    {serviceType : Option CString} (htype : ∀ c ∈ serviceType.getD [], isXmlChar c = true) :
    Writable ⟨some name, none, [serviceDeclaration serviceType]⟩ := by
  have hsources : attributeSources none [serviceDeclaration serviceType] =
      [("xmlns:u".toList, serviceType.getD [])] := by
    simp only [serviceDeclaration, attributeSources, stringSetValue_none_left, Option.getD_some]
  refine ⟨⟨name, rfl, h⟩, ?_, ?_, ?_, ?_⟩
  · rw [hsources]
    simp only [List.mem_singleton, forall_eq]
    decide
  · rw [hsources]
    simpa only [List.mem_singleton, forall_eq] using htype
  · rw [hsources]
    exact List.pairwise_singleton _ _
  · rintro value ⟨⟩

theorem preorderIn_arguments (args : List Argument) :
    preorderIn (args.map argumentNode) = args.map fun arg ↦ (argumentNode arg).value := by
  induction args with
  | nil => rfl
  | cons arg rest ih =>
    have hleaf : (argumentNode arg).children = [] := by rw [argumentNode_eq, children_node]
    rw [List.map_cons, preorderIn_cons, ih, hleaf, preorderIn_nil, List.nil_append, List.map_cons]

/-- The element of a call can be written when its parts can. -/
theorem writable_callNode {name : CString} {attributes : List XmlAttribute} {args : List Argument}
    (h : Writable ⟨some name, none, attributes⟩) (hargs : ∀ arg ∈ args, WritableArgument arg) :
    ∀ element ∈ preorderIn [callNode name attributes args], Writable element := by
  rw [preorderIn_cons, preorderIn_nil, List.append_nil, callNode, value_node, children_node,
    preorderIn_arguments, List.forall_mem_cons]
  refine ⟨h, fun element hmem ↦ ?_⟩
  obtain ⟨arg, harg, rfl⟩ := List.mem_map.mp hmem
  exact (hargs arg harg).writable

theorem height_callNode (name : CString) (attributes : List XmlAttribute) (args : List Argument) :
    height (callNode name attributes args) ≤ 2 := by
  have hleaves : heightIn (args.map argumentNode) ≤ 1 := by
    induction args with
    | nil => exact Nat.zero_le _
    | cons arg rest ih =>
      rw [List.map_cons, heightIn, argumentNode_eq, height]
      exact Nat.max_le.mpr ⟨Nat.le_refl _, ih⟩
  rw [callNode, height]
  omega

/-! ### Reading -/

/-- The node that the leaf of an argument is read as. -/
def readArgument (arg : Argument) : XmlNode :=
  .node ⟨arg.getName, stringAddValue none (some (arg.value.getD [])), []⟩ []

theorem readBackIn_arguments (args : List Argument) (level : ℕ) :
    readBackIn (args.map argumentNode) level = args.map readArgument := by
  induction args with
  | nil => rw [List.map_nil, readBackIn, List.map_nil]
  | cons arg rest ih =>
    rw [List.map_cons, readBackIn, ih, argumentNode_eq, readBack]
    rfl

/-- What the element of a call is read as. -/
theorem readBack_callNode (name : CString) (attributes : List XmlAttribute) (args : List Argument)
    (level : ℕ) :
    ∃ text, readBack (callNode name attributes args) level =
      .node (readElement ⟨some name, none, attributes⟩ text) (args.map readArgument) := by
  obtain ⟨text, hread⟩ := readBack_node ⟨some name, none, attributes⟩ (args.map argumentNode) level
  refine ⟨text, ?_⟩
  rw [callNode, hread, readBackIn_arguments]

/-- The type of the service is part of the text. -/
theorem mem_callNode {name : CString} {serviceType : Option CString} {args : List Argument}
    {c : Char}
    (hc : c ∈ serviceType.getD []) (hxml : isXmlChar c = false) :
    c ∈ toStringIndent (callNode name [serviceDeclaration serviceType] args) 2 := by
  have hne : ∀ d : Char, isXmlChar d = true → c ≠ d := by
    rintro d hd rfl
    rw [hxml] at hd
    cases hd
  have hescape : escapeChar c = [c] := by
    rw [escapeChar, if_neg (hne _ rfl), if_neg (hne _ rfl), if_neg (hne _ rfl), if_neg (hne _ rfl),
      if_neg (hne _ rfl)]
  have hattribute : c ∈ attributesToString none [serviceDeclaration serviceType] := by
    have hvalue := mem_escapeChars hc hescape
    simp only [serviceDeclaration, attributesToString, stringSetValue_none_left, List.mem_cons,
      List.mem_append]
    tauto
  cases args with
  | nil =>
    rw [callNode, List.map_nil, toStringIndent]
    simp only [List.mem_append, List.mem_cons]
    tauto
  | cons arg rest =>
    rw [callNode, List.map_cons, toStringIndent]
    simp only [List.mem_append, List.mem_cons]
    tauto

/-! ### Lengths -/

/-- The length of the leaf of an argument. -/
def argumentLength (arg : Argument) : ℕ :=
  9 + 2 * byteLength (arg.getName.getD []) + escapedLength arg.value

/-- The length of the element of a call, when its attributes have a length. -/
def callLength (name : CString) (attributesLength : ℕ) (args : List Argument) : ℕ :=
  8 + 2 * byteLength name + attributesLength + (args.map argumentLength).sum +
    if args = [] then 0 else 3

theorem byteLength_argumentNode (arg : Argument) :
    byteLength (toStringIndent (argumentNode arg) 3) = argumentLength arg := by
  obtain ⟨hspace, hless, hgreater, hslash, hfeed⟩ := utf8Size_markup
  have hattributes : attributesToString none [] = [] := rfl
  have hindent : byteLength (List.replicate 3 ' ') = 3 := rfl
  rw [argumentNode_eq, toStringIndent]
  simp only [hattributes, stringSetValue_none_left, byteLength_append, byteLength_cons,
    byteLength_nil, byteLength_escapeChars, hindent, hless, hgreater, hslash, hfeed, argumentLength]
  omega

theorem byteLength_arguments (args : List Argument) :
    byteLength (childrenToString (args.map argumentNode) 3) = (args.map argumentLength).sum := by
  induction args with
  | nil => rfl
  | cons arg rest ih =>
    rw [List.map_cons, childrenToString, byteLength_append, byteLength_argumentNode, ih,
      List.map_cons, List.sum_cons]

theorem byteLength_callNode (name : CString) (attributes : List XmlAttribute)
    (args : List Argument) :
    byteLength (toStringIndent (callNode name attributes args) 2) =
      callLength name (byteLength (attributesToString none attributes)) args := by
  obtain ⟨hspace, hless, hgreater, hslash, hfeed⟩ := utf8Size_markup
  have hindent : byteLength (List.replicate 2 ' ') = 2 := rfl
  have hvalue : byteLength ((escapeChars (stringSetValue none none)).getD []) = 0 := rfl
  cases args with
  | nil =>
    rw [callNode, List.map_nil, toStringIndent, callLength, if_pos rfl]
    simp only [byteLength_append, byteLength_cons, byteLength_nil, hvalue, hindent, hless, hgreater,
      hslash, hfeed, Option.getD_some, List.map_nil, List.sum_nil]
    omega
  | cons arg rest =>
    have hleaves := byteLength_arguments (arg :: rest)
    rw [List.map_cons] at hleaves
    rw [callNode, List.map_cons, toStringIndent, callLength, if_neg (List.cons_ne_nil _ _)]
    simp only [byteLength_append, byteLength_cons, byteLength_nil, hleaves, hindent, hless,
      hgreater,
      hslash, hfeed, Option.getD_some]
    omega

/-- The length of the declaration of the namespace of a service. -/
theorem byteLength_serviceDeclaration (serviceType : Option CString) :
    byteLength (attributesToString none [serviceDeclaration serviceType]) =
      11 + escapedLength serviceType := by
  have hspace : ' '.utf8Size = 1 := rfl
  have hequals : '='.utf8Size = 1 := rfl
  have hquote : '"'.utf8Size = 1 := rfl
  have hname : byteLength "xmlns:u".toList = 7 := rfl
  simp only [serviceDeclaration, attributesToString, stringSetValue_none_left, Option.getD_some,
    byteLength_cons, byteLength_append, byteLength_nil, byteLength_escapeChars, hspace, hequals,
    hquote, hname]
  omega

end Mupnp.Control
