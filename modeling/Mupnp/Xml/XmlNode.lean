import Mupnp.Foundation.RoseTree
import Mupnp.Util.StringFunction

/-!
# XML nodes

`xml/xml_node.c`, `xml/xml_node_list.c` and `xml/xml_attribute_list.c`: trees of nodes with a
name, a value and attributes. Attributes and child nodes are looked up by name without regard to
letter case, and names may carry a namespace prefix, which only the lookup with a namespace takes
apart. The parent pointers of the source are the tree structure itself, and the user data of a
node is left out.
-/

set_option autoImplicit false
set_option relaxedAutoImplicit false

namespace Mupnp.Xml

open Foundation Util

structure XmlAttribute where
  name : Option CString
  value : Option CString
  deriving DecidableEq

/-- What an XML node holds besides its child nodes. -/
structure XmlElement where
  name : Option CString
  value : Option CString
  attributes : List XmlAttribute
  deriving DecidableEq

abbrev XmlNode := RoseTree XmlElement

/-- `mupnp_xml_attributelist_get`: the first attribute of the name. -/
def attributeListGet (attrList : List XmlAttribute) (name : CString) : Option XmlAttribute :=
  attrList.find? fun attr ↦ attr.name.any (strcaseeq · name)

/-- `mupnp_xml_attributelist_set`. -/
def attributeListSet (attrList : List XmlAttribute) (name : CString) (value : Option CString) :
    List XmlAttribute :=
  match attrList with
  | [] => [⟨some name, stringSetValue none value⟩]
  | attr :: rest =>
    if attr.name.any (strcaseeq · name) then
      { attr with value := stringSetValue attr.value value } :: rest
    else attr :: attributeListSet rest name value

namespace XmlNode

/-- `mupnp_xml_node_new`. -/
def new : XmlNode := .node ⟨none, none, []⟩ []

def name (node : XmlNode) : Option CString := node.value.name

/-- `mupnp_xml_node_getvalue`. -/
def text (node : XmlNode) : Option CString := node.value.value

def attributes (node : XmlNode) : List XmlAttribute := node.value.attributes

def withElement (node : XmlNode) (f : XmlElement → XmlElement) : XmlNode :=
  .node (f node.value) node.children

/-- `mupnp_xml_node_setname`. -/
def setName (node : XmlNode) (name : Option CString) : XmlNode :=
  node.withElement fun element ↦ { element with name := stringSetValue element.name name }

/-- `mupnp_xml_node_setvalue`. -/
def setValue (node : XmlNode) (value : Option CString) : XmlNode :=
  node.withElement fun element ↦ { element with value := stringSetValue element.value value }

/-- `mupnp_xml_node_naddvalue`. -/
def addValue (node : XmlNode) (value : Option CString) : XmlNode :=
  node.withElement fun element ↦ { element with value := stringAddValue element.value value }

/-- `mupnp_xml_node_setattribute`. -/
def setAttribute (node : XmlNode) (name : CString) (value : Option CString) : XmlNode :=
  node.withElement fun element ↦
    { element with attributes := attributeListSet element.attributes name value }

/-- `mupnp_xml_node_setnamespace`. -/
def setNamespace (node : XmlNode) (ns : CString) (value : Option CString) : XmlNode :=
  node.setAttribute ("xmlns:".toList ++ ns) value

/-- `mupnp_xml_node_addchildnode`. -/
def addChildNode (node childNode : XmlNode) : XmlNode :=
  .node node.value (node.children ++ [childNode])

/-- Child nodes that are added one after the other. -/
theorem foldl_addChildNode {α : Type*} (element : α → XmlNode) (items : List α) (node : XmlNode) :
    items.foldl (fun node item ↦ node.addChildNode (element item)) node =
      .node node.value (node.children ++ items.map element) := by
  induction items generalizing node with
  | nil =>
    obtain ⟨value, children⟩ := node
    rw [List.map_nil, List.append_nil]
    rfl
  | cons item rest ih =>
    rw [List.foldl_cons, ih, addChildNode, RoseTree.value_node, RoseTree.children_node,
      List.append_assoc, List.map_cons, List.singleton_append]

/-- `mupnp_xml_node_getchildnodebyname`: the first child node of the name. -/
def getChildNodeByName (node : XmlNode) (name : CString) : Option XmlNode :=
  node.children.find? fun child ↦ child.name.any (strcaseeq · name)

/-- `mupnp_xml_node_getchildnodevalue`. -/
def getChildNodeValue (node : XmlNode) (name : CString) : Option CString :=
  (node.getChildNodeByName name).bind text

/-- `mupnp_xml_node_setchildnode`: sets the value of the first child node of the name, or adds one.
-/
def setChildNode (node : XmlNode) (name : CString) (value : Option CString) : XmlNode :=
  if (node.getChildNodeByName name).isSome then
    let position := node.children.findIdx fun (child : XmlNode) ↦ child.name.any (strcaseeq · name)
    .node node.value (node.children.modify position fun (child : XmlNode) ↦ child.setValue value)
  else node.addChildNode ((new.setName (some name)).setValue value)

/-- `mupnp_xml_node_haschildnodes`. -/
def hasChildNodes (node : XmlNode) : Bool := !node.children.isEmpty

end XmlNode

end Mupnp.Xml
