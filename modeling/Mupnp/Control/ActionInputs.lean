import Mathlib.Data.List.Nodup
import Mupnp.Control.ActionResult

/-!
# The inputs of a strict action invocation

`mupnp_action_validinputs` of `control/action_ctrl.c`: the test that an action and the values that a
caller offers for it have to pass before a request is sent. Both loops compare names exactly: the
arguments are looked up in the dictionary, and then the keys of the dictionary among the arguments.

`validInputs_iff` says what is accepted. Besides its arguments, an action needs a name.
-/

set_option autoImplicit false
set_option relaxedAutoImplicit false

namespace Mupnp.Control

open Util Xml

/-- The second loop of `mupnp_action_validinputs`, over the elements of the dictionary with the ones
before each of them. -/
def validEntries (argList : List Argument) (previous : Dictionary) : Dictionary → Bool
  | [] => true
  | entry :: rest =>
    (match getArgumentByName argList entry.key with
      | none => false
      | some arg => arg.isInDirection && entry.value.isSome) &&
      previous.all (fun other ↦ !streq other.key entry.key) &&
      validEntries argList (previous ++ [entry]) rest

/-- `mupnp_action_validinputs`, with `none` for a missing dictionary. -/
def validInputs (action : ServiceAction) (inputs : Option Dictionary) : Bool :=
  validSchema action &&
    action.argumentList.all (fun arg ↦
      !arg.isInDirection || (inputs.bind (dictionaryGetValue · arg.getName)).isSome) &&
    validEntries action.argumentList [] (inputs.getD [])

/-! ### What is accepted -/

/-- The names of the input arguments of an action. -/
def inNames (argList : List Argument) : List (Option CString) :=
  (argList.filter Argument.isInDirection).map Argument.getName

/-- The arguments of an action have names that are not empty and tell them apart, and each is for
input or for output. -/
structure ValidArguments (argList : List Argument) : Prop where
  named : ∀ arg ∈ argList, 0 < strlen arg.getName
  directed : ∀ arg ∈ argList, arg.getDirection = some "in".toList ∨
    arg.getDirection = some "out".toList
  nodup : (argList.map Argument.getName).Nodup

/-- The keys of a dictionary are the names of the input arguments, each of them once. -/
structure KeysAreInputs (argList : List Argument) (inputs : Dictionary) : Prop where
  nodup : (inputs.map DictionaryElement.key).Nodup
  exact : ∀ key, key ∈ inputs.map DictionaryElement.key ↔ key ∈ inNames argList

section lookups

variable {argList : List Argument}

theorem streq_some_iff {str : Option CString} {value : CString} :
    streq str (some value) = true ↔ str = some value := by
  rw [streq_eq_true_iff]
  constructor
  · rintro ⟨text, hstr, hvalue⟩
    rw [hstr, hvalue]
  · intro hstr
    exact ⟨value, hstr, rfl⟩

theorem validArguments_iff_validArguments :
    validArguments [] argList = true ↔ ValidArguments argList := by
  have hdirected : ∀ arg : Argument,
      (arg.isInDirection = true ∨ arg.isOutDirection = true) ↔
        (arg.getDirection = some "in".toList ∨ arg.getDirection = some "out".toList) :=
    fun arg ↦ or_congr streq_some_iff streq_some_iff
  rw [validArguments_iff]
  constructor
  · rintro ⟨hall, hnodup, -⟩
    exact ⟨fun arg harg ↦ (hall arg harg).1,
      fun arg harg ↦ (hdirected arg).mp (hall arg harg).2, hnodup⟩
  · intro h
    exact ⟨fun arg harg ↦ ⟨h.named arg harg, (hdirected arg).mpr (h.directed arg harg)⟩, h.nodup,
      List.disjoint_nil_left _⟩

/-- Among arguments that their names tell apart, an argument is found by its name. -/
theorem getArgumentByName_eq_some_iff (h : ValidArguments argList) {name : Option CString}
    {arg : Argument} :
    getArgumentByName argList name = some arg ↔ arg ∈ argList ∧ arg.getName = name := by
  constructor
  · exact getArgumentByName_sound
  · rintro ⟨hmem, rfl⟩
    obtain ⟨found, hfound⟩ := exists_getArgumentByName hmem (h.named arg hmem)
    obtain ⟨hfoundMem, hname⟩ := getArgumentByName_sound hfound
    rw [hfound, List.inj_on_of_nodup_map h.nodup hfoundMem hmem hname]

/-- A key passes the test of the second loop when it is the name of an input argument. -/
theorem mem_inNames_iff (h : ValidArguments argList) {key : Option CString} :
    key ∈ inNames argList ↔
      ∃ arg, getArgumentByName argList key = some arg ∧ arg.isInDirection = true := by
  simp only [getArgumentByName_eq_some_iff h, inNames, List.mem_map, List.mem_filter]
  constructor
  · rintro ⟨arg, ⟨hmem, hin⟩, hname⟩
    exact ⟨arg, ⟨hmem, hname⟩, hin⟩
  · rintro ⟨arg, ⟨hmem, hname⟩, hin⟩
    exact ⟨arg, ⟨hmem, hin⟩, hname⟩

theorem strlen_pos_of_mem_inNames (h : ValidArguments argList) {key : Option CString}
    (hkey : key ∈ inNames argList) : 0 < strlen key := by
  obtain ⟨arg, harg, rfl⟩ := List.mem_map.mp hkey
  exact h.named arg (List.mem_of_mem_filter harg)

/-- The second loop accepts the elements whose keys name input arguments, each once. -/
theorem validEntries_iff (h : ValidArguments argList) {previous entries : Dictionary}
    (hvalues : HasValues entries) :
    validEntries argList previous entries = true ↔
      (∀ entry ∈ entries, entry.key ∈ inNames argList) ∧
      (entries.map DictionaryElement.key).Nodup ∧
      (previous.map DictionaryElement.key).Disjoint (entries.map DictionaryElement.key) := by
  induction entries generalizing previous with
  | nil => simp [validEntries]
  | cons entry rest ih =>
    have hvalue : entry.value.isSome = true := hvalues entry List.mem_cons_self
    have hrest := @ih (previous ++ [entry]) fun other hother ↦
      hvalues other (List.mem_cons_of_mem _ hother)
    have hkey : (match getArgumentByName argList entry.key with
        | none => false
        | some arg => arg.isInDirection && entry.value.isSome) = true ↔
        entry.key ∈ inNames argList := by
      rw [mem_inNames_iff h, hvalue]
      cases getArgumentByName argList entry.key with
      | none => simp
      | some arg => simp
    rw [validEntries, Bool.and_eq_true, Bool.and_eq_true, hkey, hrest, List.map_append,
      List.map_singleton, List.disjoint_append_left, List.singleton_disjoint,
      List.forall_mem_cons, List.map_cons, List.nodup_cons, List.disjoint_cons_right]
    by_cases hmem : entry.key ∈ inNames argList
    · rw [all_not_streq_iff (strlen_pos_of_mem_inNames h hmem)]
      tauto
    · exact iff_of_false (fun hall ↦ hmem hall.1.1) fun hall ↦ hmem hall.1.1

/-- The first loop accepts the dictionaries in which the names of all input arguments are keys. -/
theorem all_inputs_found_iff (h : ValidArguments argList) {inputs : Dictionary}
    (hvalues : HasValues inputs) :
    (argList.all fun arg ↦
        !arg.isInDirection || (dictionaryGetValue inputs arg.getName).isSome) = true ↔
      ∀ key ∈ inNames argList, key ∈ inputs.map DictionaryElement.key := by
  have harg : ∀ arg ∈ argList,
      ((dictionaryGetValue inputs arg.getName).isSome = true ↔
        arg.getName ∈ inputs.map DictionaryElement.key) := by
    intro arg hmem
    obtain ⟨value, hvalue, hne⟩ := eq_some_of_strlen_pos (h.named arg hmem)
    rw [hvalue]
    exact hvalues.getValue_isSome_iff hne
  rw [List.all_eq_true]
  constructor
  · intro hall key hkey
    obtain ⟨arg, hfilter, rfl⟩ := List.mem_map.mp hkey
    obtain ⟨hmem, hin⟩ := List.mem_filter.mp hfilter
    have hfound := hall arg hmem
    rw [hin, Bool.not_true, Bool.false_or] at hfound
    exact (harg arg hmem).mp hfound
  · intro hkeys arg hmem
    cases hin : arg.isInDirection with
    | false => rfl
    | true =>
      have hname : arg.getName ∈ inNames argList :=
        List.mem_map.mpr ⟨arg, List.mem_filter.mpr ⟨hmem, hin⟩, rfl⟩
      rw [Bool.not_true, Bool.false_or]
      exact (harg arg hmem).mpr (hkeys _ hname)

end lookups

/-- The inputs of an action are accepted exactly when the action has a name, its arguments are valid
and the keys of the dictionary are the names of its input arguments, each of them once. A missing
dictionary counts as an empty one. -/
theorem validInputs_iff (action : ServiceAction) (inputs : Option Dictionary)
    (hvalues : HasValues (inputs.getD [])) :
    validInputs action inputs = true ↔
      0 < strlen action.getName ∧ ValidArguments action.argumentList ∧
        KeysAreInputs action.argumentList (inputs.getD []) := by
  have hbind : ∀ name, (inputs.bind (dictionaryGetValue · name)) =
      dictionaryGetValue (inputs.getD []) name := by
    intro name
    cases inputs with
    | none =>
      rw [Option.bind_none, Option.getD_none, dictionaryGetValue, dictionaryGetElement]
      split_ifs
      · rfl
      · rfl
    | some dir => rfl
  rw [validInputs, validSchema, Bool.and_eq_true, Bool.and_eq_true, Bool.and_eq_true,
    decide_eq_true_eq, validArguments_iff_validArguments]
  simp only [hbind]
  constructor
  · rintro ⟨⟨⟨hnamed, hvalid⟩, hfound⟩, hentries⟩
    obtain ⟨hkeys, hnodup, -⟩ := (validEntries_iff hvalid hvalues).mp hentries
    refine ⟨hnamed, hvalid, hnodup, fun key ↦ ⟨fun hkey ↦ ?_, ?_⟩⟩
    · obtain ⟨entry, hentry, rfl⟩ := List.mem_map.mp hkey
      exact hkeys entry hentry
    · exact (all_inputs_found_iff hvalid hvalues).mp hfound key
  · rintro ⟨hnamed, hvalid, hnodup, hexact⟩
    refine ⟨⟨⟨hnamed, hvalid⟩, ?_⟩, ?_⟩
    · exact (all_inputs_found_iff hvalid hvalues).mpr fun key hkey ↦ (hexact key).mpr hkey
    · refine (validEntries_iff hvalid hvalues).mpr ⟨?_, hnodup, List.disjoint_nil_left _⟩
      intro entry hentry
      exact (hexact entry.key).mp (List.mem_map.mpr ⟨entry, hentry, rfl⟩)

/-- An argument of a name and a direction. -/
def describedArgument (name direction : String) : Argument where
  argumentNode := (XmlNode.new.setChildNode "name".toList (some name.toList)).setChildNode
    "direction".toList (some direction.toList)
  value := none

/-- An action that takes a target and gives a result. -/
def seekAction : ServiceAction where
  actionNode := XmlNode.new.setChildNode "name".toList (some "Seek".toList)
  argumentList := [describedArgument "Target" "in", describedArgument "Result" "out"]
  service := ⟨none⟩

theorem validInputs_iff_seek :
    validInputs seekAction (some [⟨some "Target".toList, some "1".toList⟩]) = true ↔
      0 < strlen seekAction.getName ∧ ValidArguments seekAction.argumentList ∧
        KeysAreInputs seekAction.argumentList [⟨some "Target".toList, some "1".toList⟩] :=
  validInputs_iff seekAction (some [⟨some "Target".toList, some "1".toList⟩])
    (List.forall_mem_singleton.mpr rfl)

/-- Without a name, an action without arguments refuses the empty dictionary. -/
theorem not_validInputs_iff :
    ¬ ∀ (action : ServiceAction) (inputs : Dictionary), HasValues inputs →
      (validInputs action (some inputs) = true ↔
        ValidArguments action.argumentList ∧ KeysAreInputs action.argumentList inputs) := by
  intro hall
  let nameless : ServiceAction := { seekAction with actionNode := XmlNode.new, argumentList := [] }
  have hvalid : ValidArguments nameless.argumentList :=
    ⟨fun arg harg ↦ absurd harg List.not_mem_nil, fun arg harg ↦ absurd harg List.not_mem_nil,
      List.nodup_nil⟩
  have haccepted : validInputs nameless (some []) = true :=
    (hall nameless [] (fun entry hentry ↦ absurd hentry List.not_mem_nil)).mpr
      ⟨hvalid, List.nodup_nil, fun key ↦ Iff.rfl⟩
  exact absurd haccepted (by decide)

end Mupnp.Control
