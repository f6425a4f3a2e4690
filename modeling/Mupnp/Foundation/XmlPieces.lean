import Mupnp.Foundation.XmlText

/-!
# Pieces of XML text

What pieces of a text are read as, for the reader of the module on XML text. `Scans` composes over
pieces (`Scans.append`); names, references, attribute values, character data and tags have one
lemma each. `Balanced` atoms are the ones whose tags match, and `readContent_eq` puts the pieces
of a document together: a root element between white space.
-/

set_option autoImplicit false
set_option relaxedAutoImplicit false

namespace Mupnp.Foundation

namespace XmlText

/-- A text leads from one state to another and stands for these atoms. -/
def Scans (state : LexState) (text : List Char) (state' : LexState) (atoms : List Atom) : Prop :=
  scan state text = some (state', atoms)

namespace Scans

variable {state state' state'' : LexState} {text text' : List Char} {atoms atoms' : List Atom}

theorem nil (state : LexState) : Scans state [] state [] := rfl

theorem single {c : Char} (h : step state c = some (state', atoms)) :
    Scans state [c] state' atoms := by
  simp [Scans, scan, h]

/-- Texts one after the other. -/
theorem append (h : Scans state text state' atoms) (h' : Scans state' text' state'' atoms') :
    Scans state (text ++ text') state'' (atoms ++ atoms') := by
  induction text generalizing state atoms with
  | nil =>
    obtain ⟨rfl, rfl⟩ := Prod.mk.inj (Option.some.inj h)
    exact h'
  | cons c rest ih =>
    obtain ⟨first, hfirst, hrest⟩ := Option.bind_eq_some_iff.mp h
    obtain ⟨second, hsecond, heq⟩ := Option.map_eq_some_iff.mp hrest
    obtain ⟨rfl, rfl⟩ := Prod.mk.inj heq
    have hih := ih hsecond
    rw [Scans] at hih
    rw [Scans, List.cons_append, scan, hfirst, Option.bind_some, hih, Option.map_some,
      List.append_assoc]

theorem cons {c : Char} (h : step state c = some (state', atoms))
    (h' : Scans state' text state'' atoms') : Scans state (c :: text) state'' (atoms ++ atoms') :=
  (single h).append h'

/-- A character that produces no atom. -/
theorem silent {c : Char} (h : step state c = some (state', []))
    (h' : Scans state' text state'' atoms) : Scans state (c :: text) state'' atoms :=
  cons h h'

/-- Characters that only grow a part of the state. -/
theorem grow (grown : List Char → LexState) (read : Char → Char)
    (h : ∀ so : List Char, ∀ c ∈ text, step (grown so) c = some (grown (so ++ [read c]), []))
    (so : List Char) : Scans (grown so) text (grown (so ++ text.map read)) [] := by
  induction text generalizing so with
  | nil =>
    rw [List.map_nil, List.append_nil]
    exact nil _
  | cons c rest ih =>
    have hrest := ih (fun so d hd ↦ h so d (List.mem_cons_of_mem _ hd)) (so ++ [read c])
    rw [List.append_assoc, List.singleton_append] at hrest
    exact silent (h so c List.mem_cons_self) hrest

end Scans

/-! ### Names -/

theorem isName_of_isLocalName {name : List Char} (h : IsLocalName name) : IsName name := by
  cases name with
  | nil => exact h
  | cons c rest =>
    refine ⟨?_, fun d hd ↦ ?_⟩
    · rw [isNameStartChar, h.1, Bool.or_true]
    · rw [isNameChar, h.2 d hd, Bool.or_true]

/-- A prefix, a colon and a local name are a name. -/
theorem isName_append {prefixName name : List Char} (hstart : IsLocalName prefixName)
    (hname : IsLocalName name) : IsName (prefixName ++ ':' :: name) := by
  cases prefixName with
  | nil => cases hstart
  | cons c rest =>
    refine ⟨(isName_of_isLocalName hstart).1, fun d hd ↦ ?_⟩
    rcases List.mem_append.mp hd with hd | hd
    · exact (isName_of_isLocalName hstart).2 d hd
    · rcases List.mem_cons.mp hd with rfl | hd
      · rfl
      · cases name with
        | nil => cases hd
        | cons e name =>
          have hlocal := isName_of_isLocalName hname
          rcases List.mem_cons.mp hd with rfl | hd
          · exact isNameChar_of_isNameStartChar hlocal.1
          · exact hlocal.2 d hd

/-- The characters of a name are none of those that end one. -/
theorem ne_of_isNameChar {c : Char} (h : isNameChar c = true) :
    c ≠ '>' ∧ c ≠ ' ' ∧ c ≠ '=' ∧ c ≠ '/' ∧ c ≠ ';' ∧ c ≠ '\r' := by
  refine ⟨?_, ?_, ?_, ?_, ?_, ?_⟩ <;>
    · rintro rfl
      revert h
      decide

theorem isNameChar_of_mem {name : List Char} (h : IsName name) :
    ∀ c ∈ name, isNameChar c = true := by
  cases name with
  | nil => cases h
  | cons c rest =>
    intro d hd
    rcases List.mem_cons.mp hd with rfl | hd
    · exact isNameChar_of_isNameStartChar h.1
    · exact h.2 d hd

theorem ne_nil_of_isName {name : List Char} (h : IsName name) : name ≠ [] := by
  rintro rfl
  exact h

theorem ne_nul_of_isLocalName {name : List Char} (h : IsLocalName name) : '\x00' ∉ name := by
  intro hmem
  have hchar := isNameChar_of_mem (isName_of_isLocalName h) _ hmem
  revert hchar
  decide

theorem ne_colon_of_isLocalName {name : List Char} (h : IsLocalName name) : ':' ∉ name := by
  intro hmem
  cases name with
  | nil => cases hmem
  | cons c rest =>
    rcases List.mem_cons.mp hmem with rfl | hmem
    · exact absurd h.1 (by decide)
    · exact absurd (h.2 _ hmem) (by decide)

theorem isLocalName_append {name suffix : List Char} (h : IsLocalName name)
    (hsuffix : ∀ c ∈ suffix, isLocalChar c = true) : IsLocalName (name ++ suffix) := by
  cases name with
  | nil => cases h
  | cons c rest =>
    refine ⟨h.1, fun d hd ↦ ?_⟩
    rcases List.mem_append.mp hd with hd | hd
    · exact h.2 d hd
    · exact hsuffix d hd

section names

variable {name : List Char}

theorem scans_startName (h : IsName name) : Scans .markup name (.startName name) [] := by
  cases name with
  | nil => cases h
  | cons c rest =>
    have hc := ne_of_isNameChar (isNameChar_of_isNameStartChar h.1)
    have hstep : step .markup c = some (.startName [c], []) := by
      rw [step, if_neg hc.2.2.2.1, if_pos h.1]
    have hgrow : Scans (.startName [c]) rest (.startName ([c] ++ rest.map id)) [] :=
      Scans.grow .startName id (fun so d hd ↦ by
        have hne := ne_of_isNameChar (h.2 d hd)
        rw [step, if_neg hne.1, if_neg hne.2.1, if_pos (h.2 d hd)]
        rfl) [c]
    rw [List.map_id] at hgrow
    exact Scans.silent hstep hgrow

theorem scans_stopName (h : IsName name) : Scans (.stopName []) name (.stopName name) [] := by
  cases name with
  | nil => cases h
  | cons c rest =>
    have hc := ne_of_isNameChar (isNameChar_of_isNameStartChar h.1)
    have hstep : step (.stopName []) c = some (.stopName [c], []) := by
      rw [step, if_neg hc.1, if_pos rfl, if_pos h.1]
      rfl
    have hgrow : ∀ so : List Char, so ≠ [] →
        Scans (.stopName so) rest (.stopName (so ++ rest)) [] := by
      have hrest := h.2
      clear hstep hc h
      induction rest with
      | nil =>
        intro so _
        rw [List.append_nil]
        exact Scans.nil _
      | cons d rest ih =>
        intro so hso
        have hd := hrest d List.mem_cons_self
        have hne := ne_of_isNameChar hd
        have hnext := ih (fun e he ↦ hrest e (List.mem_cons_of_mem _ he)) (so ++ [d]) (by simp)
        rw [List.append_assoc, List.singleton_append] at hnext
        refine Scans.silent ?_ hnext
        rw [step, if_neg hne.1, if_neg hso, if_pos hd]
    exact Scans.silent hstep (hgrow [c] (by simp))

theorem scans_attributeName (h : IsName name) (element : List Char) (attributes : List Attribute) :
    Scans (.beforeAttribute element attributes) name (.attributeName element attributes name)
      [] := by
  cases name with
  | nil => cases h
  | cons c rest =>
    have hstep : step (.beforeAttribute element attributes) c =
        some (.attributeName element attributes [c], []) := by
      rw [step, if_pos h.1]
    have hgrow : Scans (.attributeName element attributes [c]) rest
        (.attributeName element attributes ([c] ++ rest.map id)) [] :=
      Scans.grow (.attributeName element attributes) id (fun so d hd ↦ by
        have hne := ne_of_isNameChar (h.2 d hd)
        rw [step, if_neg hne.2.2.1, if_pos (h.2 d hd)]
        rfl) [c]
    rw [List.map_id] at hgrow
    exact Scans.silent hstep hgrow

end names

/-! ### References and character data -/

theorem ne_of_isLocalChar {c : Char} (h : isLocalChar c = true) : c ≠ ';' :=
  (ne_of_isNameChar (by rw [isNameChar, h, Bool.or_true])).2.2.2.2.1

section references

variable {name : List Char} {c : Char}

theorem scans_reference (hname : ∀ d ∈ name, isLocalChar d = true) (h : entity name = some c) :
    Scans .content ('&' :: (name ++ [';'])) .content [.character c] := by
  have hgrow : Scans (.reference []) name (.reference ([] ++ name.map id)) [] :=
    Scans.grow .reference id (fun so d hd ↦ by
      rw [step, if_neg (ne_of_isLocalChar (hname d hd)), if_pos (hname d hd)]
      rfl) []
  rw [List.map_id, List.nil_append] at hgrow
  have hstop : step (.reference name) ';' = some (.content, [.character c]) := by
    rw [step, if_pos rfl, h, Option.map_some]
  exact Scans.silent rfl (hgrow.append (Scans.single hstop))

theorem scans_valueReference (hname : ∀ d ∈ name, isLocalChar d = true) (h : entity name = some c)
    (element : List Char) (attributes : List Attribute) (key value : List Char) :
    Scans (.attributeValue element attributes key value) ('&' :: (name ++ [';']))
      (.attributeValue element attributes key (value ++ [c])) [] := by
  have hgrow : Scans (.valueReference element attributes key value []) name
      (.valueReference element attributes key value ([] ++ name.map id)) [] :=
    Scans.grow (.valueReference element attributes key value) id (fun so d hd ↦ by
      rw [step, if_neg (ne_of_isLocalChar (hname d hd)), if_pos (hname d hd)]
      rfl) []
  rw [List.map_id, List.nil_append] at hgrow
  have hstop : step (.valueReference element attributes key value name) ';' =
      some (.attributeValue element attributes key (value ++ [c]), []) := by
    rw [step, if_pos rfl, h, Option.map_some]
  exact Scans.silent rfl (hgrow.append (Scans.single hstop))

end references

theorem step_content_of_isDataChar {c : Char} (h : isDataChar c = true) :
    step .content c = some (.content, [.character c]) := by
  have hne := h
  simp only [isDataChar, Bool.and_eq_true, decide_eq_true_eq] at hne
  rw [step, if_neg hne.1.1.1.2, if_neg hne.1.1.2, if_pos h]

theorem scans_characters {text : List Char} (h : ∀ c ∈ text, isDataChar c = true) :
    Scans .content text .content (text.map .character) := by
  induction text with
  | nil => exact Scans.nil _
  | cons c rest ih =>
    exact Scans.cons (step_content_of_isDataChar (h c List.mem_cons_self))
      (ih fun d hd ↦ h d (List.mem_cons_of_mem _ hd))

/-! ### Tags -/

/-- The state inside a start tag, after the name and some attributes. -/
def tagState (name : List Char) (attributes : List Attribute) : LexState :=
  if attributes = [] then .startName name else .afterAttribute name attributes

section tags

variable {name : List Char} {attributes : List Attribute}

theorem step_tagState_space (name : List Char) (attributes : List Attribute) :
    step (tagState name attributes) ' ' = some (.beforeAttribute name attributes, []) := by
  unfold tagState
  split
  · rename_i h
    rw [h]
    rfl
  · rfl

theorem step_tagState_stop (name : List Char) (attributes : List Attribute) :
    step (tagState name attributes) '>' = some (.content, [.start name attributes]) := by
  unfold tagState
  split
  · rename_i h
    rw [h]
    rfl
  · rfl

/-- One attribute of a start tag, whatever its value stands for. -/
theorem scans_attribute {key text value : List Char} (hkey : IsName key)
    (hnew : key ∉ attributes.map Prod.fst)
    (hvalue : Scans (.attributeValue name attributes key []) text
      (.attributeValue name attributes key value) []) :
    Scans (tagState name attributes) (' ' :: (key ++ ('=' :: '"' :: (text ++ ['"']))))
      (tagState name (attributes ++ [(key, value)])) [] := by
  have hstop : step (.attributeValue name attributes key value) '"' =
      some (tagState name (attributes ++ [(key, value)]), []) := by
    rw [step, if_pos rfl, if_neg hnew, tagState, if_neg (by simp)]
  exact Scans.silent (step_tagState_space name attributes)
    ((scans_attributeName hkey name attributes).append
      (Scans.silent rfl (Scans.silent rfl (hvalue.append (Scans.single hstop)))))

theorem scans_openTag (hname : IsName name) :
    Scans .content ('<' :: name) (tagState name []) [] :=
  Scans.silent rfl (scans_startName hname)

theorem scans_stopTag (hname : IsName name) :
    Scans .content ('<' :: '/' :: (name ++ ['>'])) .content [.stop name] := by
  have hstop : step (.stopName name) '>' = some (.content, [.stop name]) := by
    rw [step, if_pos rfl, if_neg (ne_nil_of_isName hname)]
  exact Scans.silent rfl (Scans.silent rfl
    ((scans_stopName hname).append (Scans.single hstop)))

end tags

/-! ### Documents -/

/-- Atoms whose tags match. -/
def Balanced (atoms : List Atom) : Prop :=
  ∀ name names rest, nest (name :: names) true (atoms ++ rest) =
    (nest (name :: names) true rest).map (atoms ++ ·)

namespace Balanced

variable {atoms atoms' : List Atom}

theorem nil : Balanced [] := fun name names rest ↦ by
  simp

theorem append (h : Balanced atoms) (h' : Balanced atoms') : Balanced (atoms ++ atoms') :=
  fun name names rest ↦ by
    rw [List.append_assoc, h, h', Option.map_map]
    simp [Function.comp_def]

theorem characters (text : List Char) : Balanced (text.map .character) := fun name names rest ↦ by
  induction text with
  | nil => simp
  | cons c text ih =>
    rw [List.map_cons, List.cons_append, nest, ih, Option.map_map]
    rfl

theorem element (h : Balanced atoms) (name : List Char) (attributes : List Attribute) :
    Balanced (.start name attributes :: (atoms ++ [.stop name])) := fun outer names rest ↦ by
  rw [List.cons_append, List.append_assoc, List.singleton_append, nest, h, nest, if_pos rfl,
    Option.map_map, Option.map_map]
  simp [Function.comp_def]

end Balanced

theorem nest_space (rootRead : Bool) {text : List Char} (h : ∀ c ∈ text, isSpace c = true)
    (rest : List Atom) : nest [] rootRead (text.map .character ++ rest) =
      nest [] rootRead rest := by
  induction text with
  | nil => rfl
  | cons c text ih =>
    rw [List.map_cons, List.cons_append, nest, if_pos (h c List.mem_cons_self)]
    exact ih fun d hd ↦ h d (List.mem_cons_of_mem _ hd)

/-- A root element between white space. -/
theorem readContent_eq {text before after : List Char} {name : List Char}
    {attributes : List Attribute} {atoms : List Atom} (hbalanced : Balanced atoms)
    (hbefore : ∀ c ∈ before, isSpace c = true) (hafter : ∀ c ∈ after, isSpace c = true)
    (h : Scans .content (readLineEnds false text) .content
      (before.map .character ++
        (.start name attributes :: (atoms ++ (.stop name :: after.map .character))))) :
    readContent text = some (.start name attributes :: (atoms ++ [.stop name])) := by
  have hend : nest [] true (after.map .character) = some [] := by
    rw [← List.append_nil (after.map _), nest_space true hafter]
    rfl
  rw [readContent, show scan _ _ = _ from h]
  simp only
  rw [nest_space false hbefore, nest, if_neg (by decide), hbalanced, nest, if_pos rfl, hend]
  rfl

/-! ### Line ends -/

theorem readLineEnds_of_ne {text : List Char} (h : ∀ c ∈ text, c ≠ '\r') (rest : List Char) :
    readLineEnds false (text ++ rest) = text ++ readLineEnds false rest := by
  induction text with
  | nil => rfl
  | cons c text ih =>
    rw [List.cons_append, readLineEnds, if_neg (h c List.mem_cons_self), if_neg (by simp),
      ih fun d hd ↦ h d (List.mem_cons_of_mem _ hd), List.cons_append]

/-- A line end does not reach over a character that is no line feed. -/
theorem readLineEnds_append_cons {c : Char} (hreturn : c ≠ '\r') (hfeed : c ≠ '\n')
    (afterReturn : Bool) (text rest : List Char) :
    readLineEnds afterReturn (text ++ c :: rest) =
      readLineEnds afterReturn text ++ c :: readLineEnds false rest := by
  induction text generalizing afterReturn with
  | nil =>
    have hnil : readLineEnds afterReturn [] = [] := rfl
    rw [hnil, List.nil_append, List.nil_append, readLineEnds, if_neg hreturn,
      if_neg fun h ↦ hfeed h.1]
  | cons d text ih =>
    rw [List.cons_append, readLineEnds, readLineEnds]
    split
    · rw [ih, List.cons_append]
    · split
      · exact ih false
      · rw [ih, List.cons_append]

/-- A text is read like this after its line ends are, whatever follows it. -/
def ReadsAs (state : LexState) (text : List Char) (state' : LexState) (atoms : List Atom) : Prop :=
  ∀ rest state'' atoms', Scans state' (readLineEnds false rest) state'' atoms' →
    Scans state (readLineEnds false (text ++ rest)) state'' (atoms ++ atoms')

namespace ReadsAs

variable {state state' state'' : LexState} {text text' : List Char} {atoms atoms' : List Atom}

theorem nil (state : LexState) : ReadsAs state [] state [] := fun _ _ _ h ↦ h

theorem append (h : ReadsAs state text state' atoms) (h' : ReadsAs state' text' state'' atoms') :
    ReadsAs state (text ++ text') state'' (atoms ++ atoms') := fun rest final last hrest ↦ by
  rw [List.append_assoc, List.append_assoc]
  exact h _ _ _ (h' _ _ _ hrest)

/-- A text without carriage returns. -/
theorem of_scans (hreturn : ∀ c ∈ text, c ≠ '\r') (h : Scans state text state' atoms) :
    ReadsAs state text state' atoms := fun rest final last hrest ↦ by
  rw [readLineEnds_of_ne hreturn]
  exact h.append hrest

/-- The whole of a text. -/
theorem scans (h : ReadsAs state text state' atoms) :
    Scans state (readLineEnds false text) state' atoms := by
  have hall := h [] state' [] (Scans.nil state')
  rwa [List.append_nil, List.append_nil] at hall

/-- One attribute of a start tag, with any line ends in its value. -/
theorem ofAttribute {name key value : List Char} {attributes : List Attribute} (hkey : IsName key)
    (hnew : key ∉ attributes.map Prod.fst)
    (hvalue : Scans (.attributeValue name attributes key []) (readLineEnds false text)
      (.attributeValue name attributes key value) []) :
    ReadsAs (tagState name attributes) (' ' :: (key ++ ('=' :: '"' :: (text ++ ['"']))))
      (tagState name (attributes ++ [(key, value)])) [] := fun rest final last hrest ↦ by
  have hquote : ∀ c ∈ ['=', '"'], c ≠ '\r' := by decide
  have hreturn : ∀ c ∈ ' ' :: (key ++ ['=', '"']), c ≠ '\r' := by
    intro c hc
    rcases List.mem_cons.mp hc with rfl | hc
    · decide
    · rcases List.mem_append.mp hc with hc | hc
      · exact (ne_of_isNameChar (isNameChar_of_mem hkey c hc)).2.2.2.2.2
      · exact hquote c hc
  have hsplit : ' ' :: (key ++ ('=' :: '"' :: (text ++ ['"']))) ++ rest =
      ' ' :: (key ++ ['=', '"']) ++ (text ++ '"' :: rest) := by simp
  have hattribute := (scans_attribute hkey hnew hvalue).append hrest
  rw [hsplit, readLineEnds_of_ne hreturn, readLineEnds_append_cons (by decide) (by decide)]
  simpa using hattribute

/-- A start tag around its attributes. -/
theorem startTag {name : List Char} {attributes : List Attribute} (hname : IsName name)
    (hattributes : ReadsAs (tagState name []) text (tagState name attributes) []) :
    ReadsAs .content ('<' :: (name ++ (text ++ ['>']))) .content [.start name attributes] := by
  have hopen : ReadsAs .content ('<' :: name) (tagState name []) [] := by
    refine of_scans ?_ (scans_openTag hname)
    intro c hc
    rcases List.mem_cons.mp hc with rfl | hc
    · decide
    · exact (ne_of_isNameChar (isNameChar_of_mem hname c hc)).2.2.2.2.2
  have hclose : ReadsAs (tagState name attributes) ['>'] .content [.start name attributes] :=
    of_scans (by decide) (Scans.single (step_tagState_stop name attributes))
  exact hopen.append (hattributes.append hclose)

theorem stopTag {name : List Char} (hname : IsName name) :
    ReadsAs .content ('<' :: '/' :: (name ++ ['>'])) .content [.stop name] := by
  refine of_scans ?_ (scans_stopTag hname)
  intro c hc
  simp only [List.mem_cons, List.mem_append, List.not_mem_nil, or_false] at hc
  rcases hc with rfl | rfl | hc | rfl
  · decide
  · decide
  · exact (ne_of_isNameChar (isNameChar_of_mem hname c hc)).2.2.2.2.2
  · decide

/-- Character data that needs no reference. -/
theorem characters (h : ∀ c ∈ text, isDataChar c = true) :
    ReadsAs .content text .content (text.map .character) := by
  refine of_scans (fun c hc ↦ ?_) (scans_characters h)
  rintro rfl
  exact absurd (h _ hc) (by decide)

end ReadsAs

end XmlText

end Mupnp.Foundation
