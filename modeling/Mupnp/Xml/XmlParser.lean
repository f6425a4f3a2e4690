import Mupnp.Foundation.TransitionSystem
import Mupnp.Foundation.XmlText
import Mupnp.Xml.XmlNode

/-!
# Parsing XML

`xml/xml_parser_expat.c`: the handlers that build a tree of nodes from what the XML parser
reports, and `mupnp_xml_parse` around them. The parser itself is not part of the repository; it is
the parameter `parser`, which gets the characters that the UTF-8 text stands for.

The tree under construction is kept as the list of the elements that are open. A handler that
stops the parser is a step that is not enabled.
-/

set_option autoImplicit false
set_option relaxedAutoImplicit false

namespace Mupnp.Xml

open Foundation Foundation.XmlText Util

/-- `MUPNP_XML_MAX_DEPTH`. -/
def xmlMaxDepth : ℕ := 128

/-- The largest `int`. -/
def intMax : ℕ := 2 ^ 31 - 1

/-- `mUpnpExpatData`. The current node is the first one of `opened`, each of which is the parent of
the one before; `closed` is the root node when there is no current node. -/
structure ExpatData where
  closed : Option XmlNode
  opened : List XmlNode
  depth : ℕ

/-- The root node, with what is open below it. -/
def ExpatData.rootNode (data : ExpatData) : Option XmlNode :=
  match data.opened with
  | [] => data.closed
  | node :: rest => some (rest.foldl (fun child parent ↦ parent.addChildNode child) node)

/-- The data that `mupnp_xml_parse` starts with. -/
def ExpatData.init : ExpatData := ⟨none, [], 0⟩

/-- The node that `mupnp_expat_element_start` makes. -/
def startedNode (el : CString) (attr : List XmlText.Attribute) : XmlNode :=
  attr.foldl (fun node a ↦ node.setAttribute a.1 (some a.2)) (XmlNode.new.setName (some el))

/-- `mupnp_expat_element_start`. An element after the root node becomes a child node of it. -/
def elementStart (data : ExpatData) (el : CString) (attr : List XmlText.Attribute) :
    Option ExpatData :=
  if xmlMaxDepth ≤ data.depth then none
  else
    some
      { closed := none
        opened := startedNode el attr :: (data.opened ++ data.closed.toList)
        depth := data.depth + 1 }

/-- `mupnp_expat_element_end`. -/
def elementEnd (data : ExpatData) : ExpatData :=
  match data.opened with
  | [] => { data with depth := data.depth - 1 }
  | [node] => ⟨some node, [], data.depth - 1⟩
  | node :: parent :: rest => ⟨data.closed, parent.addChildNode node :: rest, data.depth - 1⟩

/-- `mupnp_expat_character_data`. -/
def characterData (data : ExpatData) (s : CString) : ExpatData :=
  { data with opened := data.opened.modifyHead fun (node : XmlNode) ↦ node.addValue (some s) }

/-- The handlers. -/
def expat : TransitionSystem ExpatData Callback where
  step := fun data call ↦
    match call with
    | .startElement name attributes => elementStart data name attributes
    | .characterData s => some (characterData data s)
    | .endElement _ => some (elementEnd data)

/-- `mupnp_xml_parse`: the root node, or nothing when it fails. A trailing NUL is not parsed. -/
def xmlParse (parser : Parser) (data : CString) : Option XmlNode :=
  if data = [] ∨ intMax < byteLength data then none
  else
    ((parser (if data.getLast? = some '\x00' then data.dropLast else data)).bind fun calls ↦
      expat.run .init calls).bind ExpatData.rootNode

/-! ### Portions of character data -/

/-- Text in two portions is the same as text in one. -/
theorem characterData_append (data : ExpatData) (first second : CString) :
    characterData (characterData data first) second = characterData data (first ++ second) := by
  cases data with
  | mk closed opened depth =>
    cases opened with
    | nil => rfl
    | cons node rest =>
      cases first with
      | nil => rfl
      | cons c first =>
        cases second with
        | nil => simp [characterData, XmlNode.addValue, XmlNode.withElement, stringAddValue]
        | cons d second => simp [characterData, XmlNode.addValue, XmlNode.withElement,
          stringAddValue]

theorem characterData_nil (data : ExpatData) : characterData data [] = data := by
  cases data with
  | mk closed opened depth =>
    cases opened with
    | nil => rfl
    | cons node rest =>
      cases node
      rfl

/-- What the handlers do with a portion of text, they do with its characters. -/
theorem run_characters (data : ExpatData) (s : CString) :
    expat.run data ((s.map Atom.character).map Callback.ofAtom) = some (characterData data s) := by
  induction s generalizing data with
  | nil => exact congrArg some (characterData_nil data).symm
  | cons c rest ih =>
    refine TransitionSystem.run_cons_eq_some_iff.mpr ⟨characterData data [c], rfl, ?_⟩
    rw [ih, characterData_append]
    rfl

/-- The portions in which character data comes decide nothing. -/
theorem run_ofAtom (calls : List Callback) (data : ExpatData) :
    expat.run data ((calls.flatMap Callback.atoms).map Callback.ofAtom) = expat.run data calls := by
  induction calls generalizing data with
  | nil => rfl
  | cons call rest ih =>
    ext result
    rw [List.flatMap_cons, List.map_append, TransitionSystem.run_append_eq_some_iff,
      TransitionSystem.run_cons_eq_some_iff]
    simp only [ih]
    have hcall : ∀ data', expat.run data (call.atoms.map Callback.ofAtom) = some data' ↔
        expat.step data call = some data' := by
      intro data'
      cases call with
      | startElement name attributes => exact TransitionSystem.run_singleton_eq_some_iff
      | characterData s => exact (run_characters data s).congr_left
      | endElement name => exact TransitionSystem.run_singleton_eq_some_iff
    simp only [hcall]

/-- What a conforming parser makes of a text that the reader accepts. -/
theorem xmlParse_of_readDocument {parser : Parser} (hparser : Conforming parser) {data : CString}
    {atoms : List Atom} (hread : readDocument data = some atoms) (hne : data ≠ [])
    (hlast : data.getLast? ≠ some '\x00') (hsize : byteLength data ≤ intMax) :
    xmlParse parser data =
      (expat.run .init (atoms.map Callback.ofAtom)).bind ExpatData.rootNode := by
  obtain ⟨calls, hcalls, rfl⟩ := hparser.reads data atoms hread
  have hsmall : ¬ (data = [] ∨ intMax < byteLength data) := by
    rintro (h | h)
    · exact hne h
    · exact absurd hsize (Nat.not_le.mpr h)
  rw [xmlParse, if_neg hsmall, if_neg hlast, hcalls, Option.bind_some, run_ofAtom]

end Mupnp.Xml
