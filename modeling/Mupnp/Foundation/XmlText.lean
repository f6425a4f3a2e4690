import Mathlib.Tactic.Common
import Mupnp.Foundation.CharText

/-!
# XML text

A subset of XML 1.0 as an executable reader, against which a parser can be judged: elements,
attributes in double quotes, character data and the five predefined entities, after the
declaration of version and encoding. What it accepts, `readDocument` turns into the start tags,
the single characters and the end tags of the root element. Line ends are read as line feeds and
the white space of attribute values as spaces.

`scan` reads text one character at a time, and `nest` checks that tags match and drops what stands
around the root element. `Conforming` says that a parser reports what `readDocument` does on every
text that it accepts, and refuses every text with a character that XML does not have.
`conforming_subsetParser` gives the parser that accepts the subset alone.
-/

set_option autoImplicit false
set_option relaxedAutoImplicit false

namespace Mupnp.Foundation

namespace XmlText

/-! ### Characters -/

/-- `Char` of XML 1.0. -/
def isXmlChar (c : Char) : Bool :=
  c.toNat = 0x9 || c.toNat = 0xA || c.toNat = 0xD ||
    (0x20 ≤ c.toNat && c.toNat ≤ 0xD7FF) || (0xE000 ≤ c.toNat && c.toNat ≤ 0xFFFD) ||
    (0x10000 ≤ c.toNat && c.toNat ≤ 0x10FFFF)

/-- `S` of XML 1.0. -/
def isSpace (c : Char) : Bool := c = ' ' || c = '\t' || c = '\n' || c = '\r'

/-- `NameStartChar` of XML 1.0 without the colon. -/
def isLocalStartChar (c : Char) : Bool :=
  c = '_' || ('A' ≤ c && c ≤ 'Z') || ('a' ≤ c && c ≤ 'z') ||
    (0xC0 ≤ c.toNat && c.toNat ≤ 0xD6) || (0xD8 ≤ c.toNat && c.toNat ≤ 0xF6) ||
    (0xF8 ≤ c.toNat && c.toNat ≤ 0x2FF) || (0x370 ≤ c.toNat && c.toNat ≤ 0x37D) ||
    (0x37F ≤ c.toNat && c.toNat ≤ 0x1FFF) || (0x200C ≤ c.toNat && c.toNat ≤ 0x200D) ||
    (0x2070 ≤ c.toNat && c.toNat ≤ 0x218F) || (0x2C00 ≤ c.toNat && c.toNat ≤ 0x2FEF) ||
    (0x3001 ≤ c.toNat && c.toNat ≤ 0xD7FF) || (0xF900 ≤ c.toNat && c.toNat ≤ 0xFDCF) ||
    (0xFDF0 ≤ c.toNat && c.toNat ≤ 0xFFFD) || (0x10000 ≤ c.toNat && c.toNat ≤ 0xEFFFF)

/-- `NameChar` of XML 1.0 without the colon. -/
def isLocalChar (c : Char) : Bool :=
  isLocalStartChar c || c = '-' || c = '.' || ('0' ≤ c && c ≤ '9') || c.toNat = 0xB7 ||
    (0x300 ≤ c.toNat && c.toNat ≤ 0x36F) || (0x203F ≤ c.toNat && c.toNat ≤ 0x2040)

def isNameStartChar (c : Char) : Bool := c = ':' || isLocalStartChar c

def isNameChar (c : Char) : Bool := c = ':' || isLocalChar c

/-- `Name` of XML 1.0. -/
def IsName : List Char → Prop
  | [] => False
  | c :: rest => isNameStartChar c = true ∧ ∀ d ∈ rest, isNameChar d = true

/-- A name without a colon. -/
def IsLocalName : List Char → Prop
  | [] => False
  | c :: rest => isLocalStartChar c = true ∧ ∀ d ∈ rest, isLocalChar d = true

instance : (name : List Char) → Decidable (IsName name)
  | [] => .isFalse not_false
  | _ :: _ => inferInstanceAs (Decidable (_ ∧ _))

instance : (name : List Char) → Decidable (IsLocalName name)
  | [] => .isFalse not_false
  | _ :: _ => inferInstanceAs (Decidable (_ ∧ _))

/-- A character that character data may hold as it is. -/
def isDataChar (c : Char) : Bool :=
  isXmlChar c && c ≠ '<' && c ≠ '&' && c ≠ '>' && c ≠ '\r'

/-- A character that an attribute value may hold as it is. -/
def isValueChar (c : Char) : Bool := isDataChar c && c ≠ '"'

/-- The characters of the predefined entities. -/
def entity (name : List Char) : Option Char :=
  if name = "amp".toList then some '&'
  else if name = "lt".toList then some '<'
  else if name = "gt".toList then some '>'
  else if name = "quot".toList then some '"'
  else if name = "apos".toList then some '\''
  else none

/-! ### Scanning -/

/-- An attribute: its name and its value. -/
abbrev Attribute := List Char × List Char

/-- What a document is made of. -/
inductive Atom where
  | start (name : List Char) (attributes : List Attribute)
  | character (c : Char)
  | stop (name : List Char)
  deriving DecidableEq

/-- How far a text was read. -/
inductive LexState where
  | content
  /-- After an ampersand. -/
  | reference (name : List Char)
  /-- After a `<`. -/
  | markup
  | startName (name : List Char)
  /-- After the space before an attribute. -/
  | beforeAttribute (name : List Char) (attributes : List Attribute)
  | attributeName (name : List Char) (attributes : List Attribute) (key : List Char)
  /-- After the `=` of an attribute. -/
  | beforeValue (name : List Char) (attributes : List Attribute) (key : List Char)
  | attributeValue (name : List Char) (attributes : List Attribute) (key value : List Char)
  | valueReference (name : List Char) (attributes : List Attribute) (key value : List Char)
      (entity : List Char)
  /-- After the value of an attribute. -/
  | afterAttribute (name : List Char) (attributes : List Attribute)
  /-- After a `</`. -/
  | stopName (name : List Char)
  deriving DecidableEq

/-- What a character of an attribute value is read as. -/
def valueChar (c : Char) : Char := if c = '\t' ∨ c = '\n' then ' ' else c

/-- Reads one character; nothing when the text is not accepted. -/
def step : LexState → Char → Option (LexState × List Atom)
  | .content, c =>
    if c = '<' then some (.markup, [])
    else if c = '&' then some (.reference [], [])
    else if isDataChar c then some (.content, [.character c])
    else none
  | .reference name, c =>
    if c = ';' then (entity name).map fun d ↦ (.content, [.character d])
    else if isLocalChar c then some (.reference (name ++ [c]), [])
    else none
  | .markup, c =>
    if c = '/' then some (.stopName [], [])
    else if isNameStartChar c then some (.startName [c], [])
    else none
  | .startName name, c =>
    if c = '>' then some (.content, [.start name []])
    else if c = ' ' then some (.beforeAttribute name [], [])
    else if isNameChar c then some (.startName (name ++ [c]), [])
    else none
  | .beforeAttribute name attributes, c =>
    if isNameStartChar c then some (.attributeName name attributes [c], []) else none
  | .attributeName name attributes key, c =>
    if c = '=' then some (.beforeValue name attributes key, [])
    else if isNameChar c then some (.attributeName name attributes (key ++ [c]), [])
    else none
  | .beforeValue name attributes key, c =>
    if c = '"' then some (.attributeValue name attributes key [], []) else none
  | .attributeValue name attributes key value, c =>
    if c = '"' then
      if key ∈ attributes.map Prod.fst then none
      else some (.afterAttribute name (attributes ++ [(key, value)]), [])
    else if c = '&' then some (.valueReference name attributes key value [], [])
    else if isValueChar c then
      some (.attributeValue name attributes key (value ++ [valueChar c]), [])
    else none
  | .valueReference name attributes key value reference, c =>
    if c = ';' then
      (entity reference).map fun d ↦ (.attributeValue name attributes key (value ++ [d]), [])
    else if isLocalChar c then
      some (.valueReference name attributes key value (reference ++ [c]), [])
    else none
  | .afterAttribute name attributes, c =>
    if c = '>' then some (.content, [.start name attributes])
    else if c = ' ' then some (.beforeAttribute name attributes, [])
    else none
  | .stopName name, c =>
    if c = '>' then if name = [] then none else some (.content, [.stop name])
    else if (if name = [] then isNameStartChar c else isNameChar c) then
      some (.stopName (name ++ [c]), [])
    else none

/-- Reads a text, from a state, and collects the atoms. -/
def scan : LexState → List Char → Option (LexState × List Atom)
  | state, [] => some (state, [])
  | state, c :: rest =>
    (step state c).bind fun first ↦
      (scan first.1 rest).map fun second ↦ (second.1, first.2 ++ second.2)

/-- Checks that tags match around one root element, and drops the space around it. `names` are the
open elements, innermost first. -/
def nest : (names : List (List Char)) → (rootRead : Bool) → List Atom → Option (List Atom)
  | [], rootRead, [] => if rootRead then some [] else none
  | _ :: _, _, [] => none
  | [], rootRead, .start name attributes :: rest =>
    if rootRead then none else (nest [name] true rest).map (.start name attributes :: ·)
  | [], rootRead, .character c :: rest => if isSpace c then nest [] rootRead rest else none
  | [], _, .stop _ :: _ => none
  | name :: names, rootRead, .start inner attributes :: rest =>
    (nest (inner :: name :: names) rootRead rest).map (.start inner attributes :: ·)
  | name :: names, rootRead, .character c :: rest =>
    (nest (name :: names) rootRead rest).map (.character c :: ·)
  | name :: names, rootRead, .stop other :: rest =>
    if other = name then (nest names rootRead rest).map (.stop other :: ·) else none

/-- Reads a carriage return, with a line feed after it, as a line feed. -/
def readLineEnds : (afterReturn : Bool) → List Char → List Char
  | _, [] => []
  | afterReturn, c :: rest =>
    if c = '\r' then '\n' :: readLineEnds true rest
    else if c = '\n' ∧ afterReturn = true then readLineEnds false rest
    else c :: readLineEnds false rest

/-- The declaration that a document starts with. -/
def declaration : List Char := "<?xml version=\"1.0\" encoding=\"utf-8\"?>".toList

/-- The atoms of what stands after the declaration. -/
def readContent (text : List Char) : Option (List Atom) :=
  match scan .content (readLineEnds false text) with
  | some (.content, atoms) => nest [] false atoms
  | _ => none

/-- The atoms of the root element of a document. -/
def readDocument (text : List Char) : Option (List Atom) :=
  if declaration.isPrefixOf text then readContent (text.drop declaration.length) else none

/-! ### Parsers -/

/-- What a parser reports to its handlers. Character data may come in any number of portions. -/
inductive Callback where
  | startElement (name : List Char) (attributes : List Attribute)
  | characterData (data : List Char)
  | endElement (name : List Char)

def Callback.atoms : Callback → List Atom
  | startElement name attributes => [.start name attributes]
  | characterData data => data.map .character
  | endElement name => [.stop name]

/-- A parser as the function from a text to its reports; nothing when it refuses the text. -/
abbrev Parser := List Char → Option (List Callback)

/-- A parser conforms to XML as far as this reader goes. -/
structure Conforming (parser : Parser) : Prop where
  reads : ∀ text atoms, readDocument text = some atoms →
    ∃ calls, parser text = some calls ∧ calls.flatMap Callback.atoms = atoms
  refuses : ∀ text, (∃ c ∈ text, isXmlChar c = false) → parser text = none

/-- The report of a single atom. -/
def Callback.ofAtom : Atom → Callback
  | .start name attributes => startElement name attributes
  | .character c => characterData [c]
  | .stop name => endElement name

/-- The parser that accepts what this reader does. -/
def subsetParser : Parser := fun text ↦ (readDocument text).map (List.map Callback.ofAtom)

theorem isXmlChar_of_isLocalChar {c : Char} (h : isLocalChar c = true) : isXmlChar c = true := by
  have hle : ∀ d e : Char, d ≤ e ↔ d.toNat ≤ e.toNat := fun d e ↦ Iff.rfl
  simp only [isLocalChar, isLocalStartChar, isXmlChar, Bool.or_eq_true, Bool.and_eq_true,
    decide_eq_true_eq, ← Char.toNat_inj, hle, Char.reduceToNat] at h ⊢
  omega

theorem isNameChar_of_isNameStartChar {c : Char} (h : isNameStartChar c = true) :
    isNameChar c = true := by
  simp only [isNameStartChar, isNameChar, isLocalChar, Bool.or_eq_true] at h ⊢
  tauto

theorem isXmlChar_of_isNameChar {c : Char} (h : isNameChar c = true) : isXmlChar c = true := by
  simp only [isNameChar, Bool.or_eq_true, decide_eq_true_eq] at h
  rcases h with rfl | h
  · rfl
  · exact isXmlChar_of_isLocalChar h

theorem isXmlChar_of_isDataChar {c : Char} (h : isDataChar c = true) : isXmlChar c = true := by
  simp only [isDataChar, Bool.and_eq_true] at h
  exact h.1.1.1.1

/-- Only characters of XML are read. -/
theorem isXmlChar_of_step {state : LexState} {c : Char} {result : LexState × List Atom}
    (h : step state c = some result) : isXmlChar c = true := by
  have hascii : ∀ {d : Char}, isXmlChar d = true → c = d → isXmlChar c = true := by
    rintro d hd rfl
    exact hd
  have hname : isNameChar c = true → isXmlChar c = true := isXmlChar_of_isNameChar
  have hstart : isNameStartChar c = true → isXmlChar c = true :=
    fun hc ↦ hname (isNameChar_of_isNameStartChar hc)
  have hvalue : isValueChar c = true → isXmlChar c = true := fun hc ↦ by
    simp only [isValueChar, Bool.and_eq_true] at hc
    exact isXmlChar_of_isDataChar hc.1
  have hdata : isDataChar c = true → isXmlChar c = true := isXmlChar_of_isDataChar
  have hlocal : isLocalChar c = true → isXmlChar c = true := isXmlChar_of_isLocalChar
  cases state <;> simp only [step] at h <;> repeat' split at h
  all_goals first
    | exact hstart ‹_›
    | exact hname ‹_›
    | exact hlocal ‹_›
    | exact hdata ‹_›
    | exact hvalue ‹_›
    | exact hascii rfl ‹_›
    | cases h

theorem isXmlChar_of_scan {state : LexState} {text : List Char} {result : LexState × List Atom}
    (h : scan state text = some result) : ∀ c ∈ text, isXmlChar c = true := by
  induction text generalizing state result with
  | nil => simp
  | cons c rest ih =>
    obtain ⟨first, hfirst, hrest⟩ := Option.bind_eq_some_iff.mp h
    obtain ⟨second, hsecond, -⟩ := Option.map_eq_some_iff.mp hrest
    intro d hd
    rcases List.mem_cons.mp hd with rfl | hd
    · exact isXmlChar_of_step hfirst
    · exact ih hsecond d hd

/-- Reading the line ends loses no character that XML does not have. -/
theorem mem_readLineEnds {afterReturn : Bool} {text : List Char} {c : Char} (hc : c ∈ text)
    (hreturn : c ≠ '\r') (hfeed : c ≠ '\n') : c ∈ readLineEnds afterReturn text := by
  induction text generalizing afterReturn with
  | nil => cases hc
  | cons d rest ih =>
    rw [readLineEnds]
    rcases List.mem_cons.mp hc with rfl | hc
    · rw [if_neg hreturn, if_neg fun h ↦ hfeed h.1]
      exact List.mem_cons_self
    · split
      · exact List.mem_cons_of_mem _ (ih hc)
      · split
        · exact ih hc
        · exact List.mem_cons_of_mem _ (ih hc)

/-- What is read is a line feed or stood in the text, and is no carriage return. -/
theorem mem_of_mem_readLineEnds {afterReturn : Bool} {text : List Char} {c : Char}
    (hc : c ∈ readLineEnds afterReturn text) : c = '\n' ∨ c ∈ text ∧ c ≠ '\r' := by
  induction text generalizing afterReturn with
  | nil => cases hc
  | cons d rest ih =>
    have hrest : ∀ {afterReturn : Bool}, c ∈ readLineEnds afterReturn rest →
        c = '\n' ∨ c ∈ d :: rest ∧ c ≠ '\r' := fun hc ↦
      (ih hc).imp_right fun h ↦ ⟨List.mem_cons_of_mem d h.1, h.2⟩
    rw [readLineEnds] at hc
    split at hc
    · rcases List.mem_cons.mp hc with hfeed | hc
      · exact Or.inl hfeed
      · exact hrest hc
    · rename_i hreturn
      split at hc
      · exact hrest hc
      · rcases List.mem_cons.mp hc with rfl | hc
        · exact Or.inr ⟨List.mem_cons_self, hreturn⟩
        · exact hrest hc

theorem isXmlChar_of_mem_declaration : ∀ c ∈ declaration, isXmlChar c = true := by decide

theorem isXmlChar_of_readDocument {text : List Char} {atoms : List Atom}
    (h : readDocument text = some atoms) : ∀ c ∈ text, isXmlChar c = true := by
  intro c hc
  rw [readDocument] at h
  split at h
  · rename_i hstart
    obtain ⟨rest, rfl⟩ := List.isPrefixOf_iff_prefix.mp hstart
    rw [List.drop_left, readContent] at h
    split at h
    · rename_i hscan
      rcases List.mem_append.mp hc with hc | hc
      · exact isXmlChar_of_mem_declaration c hc
      · by_contra hne
        refine hne (isXmlChar_of_scan hscan c (mem_readLineEnds hc ?_ ?_))
        · rintro rfl
          exact hne rfl
        · rintro rfl
          exact hne rfl
    · cases h
  · cases h

theorem flatMap_atoms_map_ofAtom (atoms : List Atom) :
    (atoms.map Callback.ofAtom).flatMap Callback.atoms = atoms := by
  induction atoms with
  | nil => rfl
  | cons atom rest ih =>
    rw [List.map_cons, List.flatMap_cons, ih]
    cases atom <;> rfl

/-- The parser of the subset conforms. -/
theorem conforming_subsetParser : Conforming subsetParser where
  reads := fun text atoms hread ↦
    ⟨atoms.map Callback.ofAtom, by rw [subsetParser, hread, Option.map_some],
      flatMap_atoms_map_ofAtom atoms⟩
  refuses := fun text ⟨c, hc, hne⟩ ↦ by
    rw [subsetParser, Option.map_eq_none_iff]
    cases hread : readDocument text with
    | none => rfl
    | some atoms => exact absurd (isXmlChar_of_readDocument hread c hc) (by simp [hne])

end XmlText

end Mupnp.Foundation
