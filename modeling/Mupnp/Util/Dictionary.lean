import Mupnp.Util.StringFunction

/-!
# Dictionaries

`util/dictionary.c`: a list of elements with a key and a value each. A key is found by exact
comparison, and an empty key is never found. A dictionary whose keys are not empty and kept apart is
the map that it gives values for (`IsKeyed.mem_iff`).
-/

set_option autoImplicit false
set_option relaxedAutoImplicit false

namespace Mupnp.Util

structure DictionaryElement where
  key : Option CString
  value : Option CString
  deriving DecidableEq

abbrev Dictionary := List DictionaryElement

/-- The test of `mupnp_dictionary_getelement` for one element. -/
def DictionaryElement.hasKey (dirElem : DictionaryElement) (key : Option CString) : Bool :=
  decide (0 < strlen dirElem.key) && streq dirElem.key key

/-- `mupnp_dictionary_getelement`. -/
def dictionaryGetElement (dir : Dictionary) (key : Option CString) : Option DictionaryElement :=
  if strlen key ≤ 0 then none else dir.find? (·.hasKey key)

/-- `mupnp_dictionary_getvalue`. -/
def dictionaryGetValue (dir : Dictionary) (key : Option CString) : Option CString :=
  (dictionaryGetElement dir key).bind DictionaryElement.value

/-- Sets the value of the first element of a key. -/
def dictionaryUpdate (dir : Dictionary) (key value : Option CString) : Dictionary :=
  match dir with
  | [] => []
  | dirElem :: rest =>
    if dirElem.hasKey key then
      ⟨stringSetValue dirElem.key key, stringSetValue dirElem.value value⟩ :: rest
    else dirElem :: dictionaryUpdate rest key value

/-- `mupnp_dictionary_setvalue`. -/
def dictionarySetValue (dir : Dictionary) (key value : Option CString) : Dictionary :=
  if (dictionaryGetElement dir key).isSome then dictionaryUpdate dir key value
  else dir ++ [⟨stringSetValue none key, stringSetValue none value⟩]

/-- An element that is not there yet comes last. -/
theorem dictionarySetValue_of_eq_none {dir : Dictionary} {key : Option CString}
    (h : dictionaryGetElement dir key = none) (value : Option CString) :
    dictionarySetValue dir key value = dir ++ [⟨key, value⟩] := by
  rw [dictionarySetValue, h, stringSetValue_none_left, stringSetValue_none_left]
  rfl

/-- A key that is not empty is found when an element has it. -/
theorem dictionaryGetElement_eq_none_iff {dir : Dictionary} {key : CString} (hne : key ≠ []) :
    dictionaryGetElement dir (some key) = none ↔ some key ∉ dir.map DictionaryElement.key := by
  rw [dictionaryGetElement, if_neg (not_strlen_some_le_zero hne), List.find?_eq_none, List.mem_map]
  constructor
  · rintro h ⟨dirElem, hmem, hkey⟩
    refine h dirElem hmem ?_
    rw [DictionaryElement.hasKey, hkey, Bool.and_eq_true, streq_some_some, decide_eq_true_eq]
    exact ⟨List.length_pos_of_ne_nil hne, rfl⟩
  · intro h dirElem hmem hkey
    rw [DictionaryElement.hasKey, Bool.and_eq_true, streq_eq_true_iff] at hkey
    obtain ⟨-, str, hstr, hkey⟩ := hkey
    exact h ⟨dirElem, hmem, hstr.trans hkey.symm⟩

/-- Every element has a value. -/
def HasValues (dir : Dictionary) : Prop := ∀ dirElem ∈ dir, dirElem.value.isSome = true

theorem HasValues.append {dir : Dictionary} (h : HasValues dir) (key : Option CString)
    (value : CString) : HasValues (dir ++ [⟨key, some value⟩]) := by
  intro dirElem hmem
  rcases List.mem_append.mp hmem with hmem | hmem
  · exact h dirElem hmem
  · rw [List.mem_singleton.mp hmem]
    rfl

theorem HasValues.getValue_isSome_iff {dir : Dictionary} (h : HasValues dir) {key : CString}
    (hne : key ≠ []) :
    (dictionaryGetValue dir (some key)).isSome = true ↔
      some key ∈ dir.map DictionaryElement.key := by
  rw [← not_iff_not, ← dictionaryGetElement_eq_none_iff hne, dictionaryGetValue]
  cases helement : dictionaryGetElement dir (some key) with
  | none => simp
  | some dirElem =>
    have hmem : dirElem ∈ dir := by
      rw [dictionaryGetElement] at helement
      split at helement
      · cases helement
      · exact List.mem_of_find?_eq_some helement
    simp [h dirElem hmem]

/-! ### Dictionaries as maps -/

/-- Every element has a key that is not empty and a value, and no key is there twice. -/
structure IsKeyed (dir : Dictionary) : Prop where
  entry : ∀ dirElem ∈ dir, ∃ key value, key ≠ [] ∧ dirElem = ⟨some key, some value⟩
  nodup : (dir.map DictionaryElement.key).Nodup

theorem isKeyed_nil : IsKeyed [] := ⟨fun _ hmem ↦ absurd hmem List.not_mem_nil, List.nodup_nil⟩

theorem hasKey_iff {dirElem : DictionaryElement} {key : CString} (hne : key ≠ []) :
    dirElem.hasKey (some key) = true ↔ dirElem.key = some key := by
  rw [DictionaryElement.hasKey, Bool.and_eq_true, streq_eq_true_iff, decide_eq_true_eq]
  constructor
  · rintro ⟨-, str, hstr, hkey⟩
    exact hstr.trans hkey.symm
  · intro hkey
    rw [hkey]
    exact ⟨List.length_pos_of_ne_nil hne, key, rfl, rfl⟩

theorem dictionaryGetValue_cons (dirElem : DictionaryElement) (rest : Dictionary) {key : CString}
    (hne : key ≠ []) : dictionaryGetValue (dirElem :: rest) (some key) =
      if dirElem.key = some key then dirElem.value else dictionaryGetValue rest (some key) := by
  rw [dictionaryGetValue, dictionaryGetValue, dictionaryGetElement, dictionaryGetElement,
    if_neg (not_strlen_some_le_zero hne), if_neg (not_strlen_some_le_zero hne), List.find?_cons]
  cases hkey : dirElem.hasKey (some key) with
  | true => rw [if_pos ((hasKey_iff hne).mp hkey), Option.bind_some]
  | false =>
    rw [if_neg fun heq ↦ ?_]
    rw [(hasKey_iff hne).mpr heq] at hkey
    cases hkey

theorem dictionaryGetValue_nil_key (dir : Dictionary) : dictionaryGetValue dir (some []) = none :=
  rfl

theorem map_key_dictionaryUpdate (dir : Dictionary) {key : CString} (hne : key ≠ [])
    (value : Option CString) :
    (dictionaryUpdate dir (some key) value).map DictionaryElement.key =
      dir.map DictionaryElement.key := by
  induction dir with
  | nil => rfl
  | cons dirElem rest ih =>
    rw [dictionaryUpdate]
    split_ifs with hkey
    · rw [List.map_cons, List.map_cons, (hasKey_iff hne).mp hkey]
      rfl
    · rw [List.map_cons, List.map_cons, ih]

theorem mem_dictionaryUpdate {dir : Dictionary} {key value : CString} {dirElem : DictionaryElement}
    (hmem : dirElem ∈ dictionaryUpdate dir (some key) (some value)) :
    dirElem ∈ dir ∨ dirElem = ⟨some key, some value⟩ := by
  induction dir with
  | nil => cases hmem
  | cons first rest ih =>
    rw [dictionaryUpdate] at hmem
    split_ifs at hmem
    · rcases List.mem_cons.mp hmem with hnew | hrest
      · exact Or.inr hnew
      · exact Or.inl (List.mem_cons_of_mem first hrest)
    · rcases List.mem_cons.mp hmem with rfl | hrest
      · exact Or.inl List.mem_cons_self
      · exact (ih hrest).imp_left (List.mem_cons_of_mem first)

theorem dictionaryGetValue_update {dir : Dictionary} {key other : CString} (hne : key ≠ [])
    (hother : other ≠ []) (value : CString)
    (hkey : some key ∈ dir.map DictionaryElement.key) :
    dictionaryGetValue (dictionaryUpdate dir (some key) (some value)) (some other) =
      if other = key then some value else dictionaryGetValue dir (some other) := by
  induction dir with
  | nil => cases hkey
  | cons dirElem rest ih =>
    rw [dictionaryUpdate, dictionaryGetValue_cons dirElem rest hother]
    by_cases hfirst : dirElem.hasKey (some key) = true
    · have hfirstKey := (hasKey_iff hne).mp hfirst
      rw [if_pos hfirst, dictionaryGetValue_cons _ rest hother, hfirstKey]
      simp only [stringSetValue_some, Option.some.injEq]
      by_cases hsame : other = key
      · rw [if_pos hsame.symm, if_pos hsame]
      · rw [if_neg (Ne.symm hsame), if_neg hsame, if_neg (Ne.symm hsame)]
    · rw [if_neg hfirst, dictionaryGetValue_cons dirElem _ hother]
      rw [List.map_cons, List.mem_cons] at hkey
      have hrest := hkey.resolve_left fun heq ↦ hfirst ((hasKey_iff hne).mpr heq.symm)
      by_cases hfound : dirElem.key = some other
      · have hdiffers : other ≠ key := by
          rintro rfl
          exact hfirst ((hasKey_iff hother).mpr hfound)
        rw [if_pos hfound, if_pos hfound, if_neg hdiffers]
      · rw [if_neg hfound, if_neg hfound]
        exact ih hrest

theorem dictionaryGetValue_append {dir : Dictionary} {key other : CString} (hother : other ≠ [])
    (value : CString) (hkey : some key ∉ dir.map DictionaryElement.key) :
    dictionaryGetValue (dir ++ [⟨some key, some value⟩]) (some other) =
      if other = key then some value else dictionaryGetValue dir (some other) := by
  induction dir with
  | nil =>
    rw [List.nil_append, dictionaryGetValue_cons _ _ hother]
    simp only [Option.some.injEq, eq_comm]
  | cons dirElem rest ih =>
    rw [List.map_cons, List.mem_cons, not_or] at hkey
    rw [List.cons_append, dictionaryGetValue_cons _ _ hother, dictionaryGetValue_cons _ _ hother,
      ih hkey.2]
    by_cases hsame : other = key
    · rw [if_pos hsame, if_pos hsame, if_neg]
      rw [hsame]
      exact Ne.symm hkey.1
    · rw [if_neg hsame, if_neg hsame]

theorem dictionarySetValue_cases (dir : Dictionary) {key : CString} (hne : key ≠ [])
    (value : CString) :
    some key ∈ dir.map DictionaryElement.key ∧
        dictionarySetValue dir (some key) (some value) =
          dictionaryUpdate dir (some key) (some value) ∨
      some key ∉ dir.map DictionaryElement.key ∧
        dictionarySetValue dir (some key) (some value) = dir ++ [⟨some key, some value⟩] := by
  cases hget : dictionaryGetElement dir (some key) with
  | none =>
    exact Or.inr ⟨(dictionaryGetElement_eq_none_iff hne).mp hget,
      dictionarySetValue_of_eq_none hget _⟩
  | some dirElem =>
    refine Or.inl ⟨?_, by rw [dictionarySetValue, hget]; rfl⟩
    by_contra hnot
    rw [(dictionaryGetElement_eq_none_iff hne).mpr hnot] at hget
    cases hget

/-- Setting a value keeps the keys apart. -/
theorem IsKeyed.setValue {dir : Dictionary} (h : IsKeyed dir) {key : CString} (hne : key ≠ [])
    (value : CString) : IsKeyed (dictionarySetValue dir (some key) (some value)) := by
  rcases dictionarySetValue_cases dir hne value with ⟨-, heq⟩ | ⟨hnot, heq⟩
  · rw [heq]
    refine ⟨fun dirElem hmem ↦ ?_, ?_⟩
    · rcases mem_dictionaryUpdate hmem with hold | hnew
      · exact h.entry dirElem hold
      · exact ⟨key, value, hne, hnew⟩
    · rw [map_key_dictionaryUpdate dir hne]
      exact h.nodup
  · rw [heq]
    refine ⟨fun dirElem hmem ↦ ?_, ?_⟩
    · rcases List.mem_append.mp hmem with hold | hnew
      · exact h.entry dirElem hold
      · exact ⟨key, value, hne, List.mem_singleton.mp hnew⟩
    · rw [List.map_append, List.nodup_append]
      refine ⟨h.nodup, List.nodup_cons.mpr ⟨List.not_mem_nil, List.nodup_nil⟩,
        fun first hfirst second hsecond ↦ ?_⟩
      rw [List.mem_singleton.mp hsecond]
      exact ne_of_mem_of_not_mem hfirst hnot

/-- Setting a value changes the value of its key. -/
theorem dictionaryGetValue_setValue (dir : Dictionary) {key : CString} (hne : key ≠ [])
    (value other : CString) :
    dictionaryGetValue (dictionarySetValue dir (some key) (some value)) (some other) =
      if other = key then some value else dictionaryGetValue dir (some other) := by
  by_cases hother : other = []
  · subst hother
    rw [dictionaryGetValue_nil_key, dictionaryGetValue_nil_key, if_neg hne.symm]
  rcases dictionarySetValue_cases dir hne value with ⟨hmem, heq⟩ | ⟨hnot, heq⟩
  · rw [heq, dictionaryGetValue_update hne hother value hmem]
  · rw [heq, dictionaryGetValue_append hother value hnot]

/-- The elements of a dictionary are the values that it gives for their keys. -/
theorem IsKeyed.mem_iff {dir : Dictionary} (h : IsKeyed dir) (key value : CString) :
    ⟨some key, some value⟩ ∈ dir ↔ dictionaryGetValue dir (some key) = some value := by
  obtain ⟨hentry, hnodup⟩ := h
  induction dir with
  | nil =>
    refine iff_of_false List.not_mem_nil ?_
    rw [dictionaryGetValue, dictionaryGetElement]
    split_ifs <;> exact (Option.some_ne_none value).symm
  | cons dirElem rest ih =>
    obtain ⟨first, firstValue, hne, rfl⟩ := hentry dirElem List.mem_cons_self
    rw [List.map_cons, List.nodup_cons] at hnodup
    have hrest := ih (fun other hmem ↦ hentry other (List.mem_cons_of_mem _ hmem)) hnodup.2
    by_cases hkey : key = []
    · subst hkey
      refine iff_of_false (fun hmem ↦ ?_) (Option.some_ne_none value).symm
      obtain ⟨other, otherValue, hother, heq⟩ := hentry _ hmem
      rw [DictionaryElement.mk.injEq, Option.some.injEq] at heq
      exact hother heq.1.symm
    · rw [dictionaryGetValue_cons _ _ hkey, List.mem_cons, hrest]
      simp only [DictionaryElement.mk.injEq, Option.some.injEq]
      by_cases hsame : first = key
      · subst hsame
        have hnone : dictionaryGetValue rest (some first) ≠ some value := fun hget ↦
          hnodup.1 (List.mem_map.mpr ⟨_, hrest.mpr hget, rfl⟩)
        rw [if_pos rfl, or_iff_left hnone, Option.some.injEq, and_iff_right rfl, eq_comm]
      · rw [if_neg hsame, or_iff_right fun hboth ↦ hsame hboth.1.symm]

end Mupnp.Util
