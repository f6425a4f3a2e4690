import Mupnp.Http.HttpHeaderList

/-!
# Header lists as maps

A header list is a list that is read by the first entry of a key, the key of a header being its name
without letter case. What the parsers add is offered to the map that the list stands for, and what
is set is written (`headerMap_performEach`).

`performEach_isMap` has what follows for every sequence of operations: a lookup finds the value that
was set last, and setting a header leaves the lookups of all other names and the places of all other
headers as they are, with another entry only for a name that has none.
-/

set_option autoImplicit false
set_option relaxedAutoImplicit false

namespace Mupnp.Http

open Foundation Util

/-! ### Operations -/

/-- What is done to a header list. -/
inductive HeaderOperation where
  | add (header : HttpHeader)
  | set (name value : CString)

namespace HeaderOperation

/-- A parser adds a header behind the others, with `mupnp_http_headerlist_add`; a header is set with
`mupnp_http_headerlist_set`. -/
def perform (headers : HttpHeaderList) : HeaderOperation → HttpHeaderList
  | add header => headers ++ [header]
  | set name value => headerListSet headers name (some value)

/-- The list after a sequence of operations. -/
def performEach (headers : HttpHeaderList) (operations : List HeaderOperation) : HttpHeaderList :=
  operations.foldl perform headers

/-- The value that an operation sets under a name, whatever the letter case. -/
def valueSet (name : CString) : HeaderOperation → Option CString
  | add _ => none
  | set setName value => if strcaseeq setName name then some value else none

end HeaderOperation

open HeaderOperation

/-- The value that is set last under a name, whatever the letter case. -/
def lastValueSet (name : CString) : List HeaderOperation → Option CString
  | [] => none
  | operation :: rest => (lastValueSet name rest).or (operation.valueSet name)

/-- What setting a header may do to a list. -/
structure SetsHeader (before after : HttpHeaderList) (name value : CString) : Prop where
  found : ∀ other, strcaseeq name other = true → headerListGetValue after other = some value
  others : ∀ other, strcaseeq name other = false →
    headerListGet after other = headerListGet before other
  order : after.filter (fun header ↦ !header.hasName name) =
    before.filter fun header ↦ !header.hasName name
  present : (headerListGet before name).isSome = true → ∃ front header back,
    before = front ++ header :: back ∧ headerListGet front name = none ∧
      header.hasName name = true ∧ after = front ++ { header with value := some value } :: back
  absent : headerListGet before name = none → after = before ++ [⟨some name, some value⟩]

/-! ### The list and its map -/

section map

variable {headers : HttpHeaderList} {name value : CString}

/-- The map that a header list stands for: the value of the first header of a name, which may never
have been set. -/
def headerMap (headers : HttpHeaderList) : CString → Option (Option CString) :=
  firstMap HttpHeader.caselessName HttpHeader.value headers

theorem headerListGetValue_eq (headers : HttpHeaderList) (name : CString) :
    headerListGetValue headers name = (headerMap headers (caseless name)).join := by
  rw [headerListGetValue, headerListGet_eq, headerMap, firstMap]
  cases firstEntry HttpHeader.caselessName headers (caseless name) with
  | none => rfl
  | some header => rfl

/-- What an operation does to the map. -/
def HeaderOperation.onMap : HeaderOperation → MapOperation CString (Option CString)
  | add header => .offer header.caselessName header.value
  | set name value => .write (caseless name) (some value)

theorem headerMap_perform (headers : HttpHeaderList) (operation : HeaderOperation) :
    headerMap (operation.perform headers) = operation.onMap.apply (headerMap headers) := by
  cases operation with
  | add header => exact firstMap_append_singleton header
  | set name value =>
    rw [HeaderOperation.perform, headerListSet_eq]
    exact firstMap_setEntry (HttpHeader.caselessName_setValue _) rfl (fun _ ↦ rfl) rfl

/-- A list stands for the map that its operations are done to. -/
theorem headerMap_performEach (headers : HttpHeaderList) (operations : List HeaderOperation) :
    headerMap (performEach headers operations) =
      (operations.map onMap).foldl MapOperation.apply (headerMap headers) := by
  induction operations generalizing headers with
  | nil => rfl
  | cons operation rest ih =>
    rw [List.map_cons, List.foldl_cons, ← headerMap_perform]
    exact ih (operation.perform headers)

theorem written_onMap (name : CString) (operation : HeaderOperation) :
    operation.onMap.written (caseless name) = (operation.valueSet name).map some := by
  cases operation with
  | add header => rfl
  | set setName value =>
    rw [onMap, MapOperation.written, valueSet]
    by_cases hname : strcaseeq setName name = true
    · rw [if_pos hname, if_pos (strcaseeq_iff.mp hname)]
      rfl
    · rw [if_neg hname, if_neg (mt strcaseeq_iff.mpr hname)]
      rfl

theorem lastWritten_onMap (name : CString) (operations : List HeaderOperation) :
    lastWritten (caseless name) (operations.map onMap) =
      (lastValueSet name operations).map some := by
  induction operations with
  | nil => rfl
  | cons operation rest ih =>
    rw [List.map_cons, lastWritten, ih, written_onMap, lastValueSet, Option.map_or]

/-- After any operations a lookup finds the value that was set last under the name. -/
theorem headerListGetValue_performEach {operations : List HeaderOperation}
    (h : lastValueSet name operations = some value) :
    headerListGetValue (performEach headers operations) name = some value := by
  have hlast : lastWritten (caseless name) (operations.map onMap) = some (some value) := by
    rw [lastWritten_onMap, h, Option.map_some]
  rw [headerListGetValue_eq, headerMap_performEach, foldl_apply_of_lastWritten hlast]
  rfl

end map

/-! ### Setting a header -/

theorem setsHeader_headerListSet (headers : HttpHeaderList) (name value : CString) :
    SetsHeader headers (headerListSet headers name (some value)) name value where
  found other hother := by
    have hvalue : lastValueSet other [set name value] = some value := by
      rw [lastValueSet, lastValueSet, valueSet, if_pos hother, Option.none_or]
    exact @headerListGetValue_performEach headers other value [set name value] hvalue
  others other hother := headerListGet_set_of_ne headers hother (some value)
  order := by
    have hfilter : ∀ list : HttpHeaderList, (list.filter fun header ↦ !header.hasName name) =
        list.filter fun header ↦ header.caselessName ≠ some (caseless name) := by
      intro list
      refine List.filter_congr fun header _ ↦ ?_
      rw [hasName_eq_decide, decide_not]
    rw [hfilter, hfilter, headerListSet_eq]
    exact filter_setEntry (HttpHeader.caselessName_setValue _) rfl
  present hsome := by
    obtain ⟨header, hheader⟩ := Option.isSome_iff_exists.mp hsome
    rw [headerListGet_eq] at hheader
    have hkey := key_of_firstEntry hheader
    obtain ⟨front, back, rfl, hfront⟩ := exists_of_firstEntry hheader
    refine ⟨front, header, back, rfl, ?_, HttpHeader.hasName_iff.mpr hkey, ?_⟩
    · rw [headerListGet_eq, hfront]
    · rw [headerListSet_eq, setEntry_append hfront hkey]
      rfl
  absent hnone := by
    rw [headerListGet_eq] at hnone
    rw [headerListSet_eq, setEntry_of_eq_none hnone, stringSetValue_some]

/-- After any sequence of adding and setting headers, a lookup finds the value that was set last
under the name, up to letter case, and setting one more header changes no lookup of another name,
no place of another header, and the number of entries only for a name without one. -/
theorem performEach_isMap (headers : HttpHeaderList) (operations : List HeaderOperation) :
    (∀ name value, lastValueSet name operations = some value →
      headerListGetValue (performEach headers operations) name = some value) ∧
    ∀ name value, SetsHeader (performEach headers operations)
      (performEach headers (operations ++ [set name value])) name value := by
  refine ⟨fun name value h ↦ headerListGetValue_performEach h, fun name value ↦ ?_⟩
  rw [performEach, performEach, List.foldl_append]
  exact setsHeader_headerListSet (operations.foldl HeaderOperation.perform headers) name value

/-- A header that was added, set in another letter case, and added once more. -/
theorem performEach_isMap_host :
    headerListGetValue (performEach [] [add ⟨some "Host".toList, some "a".toList⟩,
      set "HOST".toList "b".toList, add ⟨some "host".toList, some "c".toList⟩]) "hOST".toList =
        some "b".toList :=
  (performEach_isMap [] _).1 "hOST".toList "b".toList (by decide)

end Mupnp.Http
