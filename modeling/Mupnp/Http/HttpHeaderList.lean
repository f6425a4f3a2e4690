import Mupnp.Foundation.FirstEntry
import Mupnp.Util.StringFunction

/-!
# HTTP header lists

`http/http_header.c` and `http/http_header_list.c`: headers are kept in the order in which they
were added, and a name is looked up without regard to letter case. Setting a header changes the
first one of its name, or adds it at the end: a lookup then finds the value
(`headerListGetValue_set_self`), and every other name is looked up as before
(`headerListGetValue_set_of_ne`).
-/

set_option autoImplicit false
set_option relaxedAutoImplicit false

namespace Mupnp.Http

open Foundation Util

/-- An HTTP header; a name or a value that was never set has no buffer. -/
structure HttpHeader where
  name : Option CString
  value : Option CString
  deriving DecidableEq

/-- The headers of a message in list order. -/
abbrev HttpHeaderList := List HttpHeader

/-- A header answers to a name: it has one, and the two are equal up to letter case. -/
def HttpHeader.hasName (header : HttpHeader) (name : CString) : Bool :=
  match header.name with
  | some headerName => strcaseeq headerName name
  | none => false

/-- `mupnp_http_headerlist_get`: the first header of the name. -/
def headerListGet (headers : HttpHeaderList) (name : CString) : Option HttpHeader :=
  headers.find? (·.hasName name)

/-- `mupnp_http_headerlist_getvalue`: the value of the first header of the name. -/
def headerListGetValue (headers : HttpHeaderList) (name : CString) : Option CString :=
  (headerListGet headers name).bind (·.value)

/-- `mupnp_http_headerlist_set`. -/
def headerListSet (headers : HttpHeaderList) (name : CString) (value : Option CString) :
    HttpHeaderList :=
  match headers with
  | [] => [⟨some name, stringSetValue none value⟩]
  | header :: rest =>
    if header.hasName name then { header with value := stringSetValue header.value value } :: rest
    else header :: headerListSet rest name value

/-! ### Names without letter case -/

/-- A name without its letter case. -/
def caseless (name : CString) : CString := name.map Char.toLower

/-- The name that a header is found under. -/
def HttpHeader.caselessName (header : HttpHeader) : Option CString := header.name.map caseless

theorem strcaseeq_iff {first second : CString} :
    strcaseeq first second = true ↔ caseless first = caseless second := by
  rw [strcaseeq, beq_iff_eq]
  rfl

theorem caseless_ne {first second : CString} (h : strcaseeq first second = false) :
    caseless second ≠ caseless first := fun hsame ↦ by
  rw [strcaseeq_iff.mpr hsame.symm] at h
  cases h

theorem HttpHeader.hasName_iff {header : HttpHeader} {name : CString} :
    header.hasName name = true ↔ header.caselessName = some (caseless name) := by
  unfold HttpHeader.hasName HttpHeader.caselessName
  cases header.name with
  | none => simp
  | some headerName => simp [strcaseeq_iff]

theorem hasName_eq_decide (header : HttpHeader) (name : CString) :
    header.hasName name = decide (header.caselessName = some (caseless name)) := by
  rw [Bool.eq_iff_iff, HttpHeader.hasName_iff, decide_eq_true_eq]

/-! ### Lookups after a header is set -/

/-- `mupnp_http_header_setvalue`. -/
def HttpHeader.setValue (value : Option CString) (header : HttpHeader) : HttpHeader :=
  { header with value := stringSetValue header.value value }

theorem HttpHeader.caselessName_setValue (value : Option CString) (header : HttpHeader) :
    (header.setValue value).caselessName = header.caselessName := rfl

theorem headerListGetValue_cons_of_pos {header : HttpHeader} {name : CString}
    (hname : header.hasName name = true) (rest : HttpHeaderList) :
    headerListGetValue (header :: rest) name = header.value := by
  rw [headerListGetValue, headerListGet, List.find?_cons, hname]
  rfl

/-- The key of a header is its name without letter case. -/
theorem headerListGet_eq (headers : HttpHeaderList) (name : CString) :
    headerListGet headers name = firstEntry HttpHeader.caselessName headers (caseless name) := by
  unfold headerListGet firstEntry
  refine congrArg (headers.find? ·) (funext fun header ↦ ?_)
  exact hasName_eq_decide header name

theorem headerListSet_eq (headers : HttpHeaderList) (name : CString) (value : Option CString) :
    headerListSet headers name value =
      setEntry HttpHeader.caselessName (caseless name) (HttpHeader.setValue value)
        ⟨some name, stringSetValue none value⟩ headers := by
  induction headers with
  | nil => rfl
  | cons header rest ih =>
    rw [headerListSet, setEntry, ih]
    by_cases hname : header.hasName name = true
    · rw [if_pos hname, if_pos (HttpHeader.hasName_iff.mp hname)]
      rfl
    · rw [if_neg hname, if_neg (mt HttpHeader.hasName_iff.mpr hname)]

/-- A header that was set is found with its value. -/
theorem headerListGetValue_set_self (headers : HttpHeaderList) (name value : CString) :
    headerListGetValue (headerListSet headers name (some value)) name = some value := by
  rw [headerListGetValue, headerListGet_eq, headerListSet_eq,
    firstEntry_setEntry_self (HttpHeader.caselessName_setValue _) rfl, Option.bind_some]
  cases firstEntry HttpHeader.caselessName headers (caseless name) with
  | none => rfl
  | some header => rfl

/-- Setting a header does not change what is found under a name that differs by more than letter
case. -/
theorem headerListGet_set_of_ne (headers : HttpHeaderList) {name other : CString}
    (hne : strcaseeq name other = false) (value : Option CString) :
    headerListGet (headerListSet headers name value) other = headerListGet headers other := by
  rw [headerListGet_eq, headerListGet_eq, headerListSet_eq]
  exact firstEntry_setEntry_of_ne (HttpHeader.caselessName_setValue value) rfl (caseless_ne hne)

theorem headerListGetValue_set_of_ne (headers : HttpHeaderList) {name other : CString}
    (hne : strcaseeq name other = false) (value : Option CString) :
    headerListGetValue (headerListSet headers name value) other =
      headerListGetValue headers other := by
  rw [headerListGetValue, headerListGet_set_of_ne headers hne, headerListGetValue]

end Mupnp.Http
