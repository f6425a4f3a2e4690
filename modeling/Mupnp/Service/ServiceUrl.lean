import Mupnp.Net.AuthorityScan

/-!
# Service URLs

`mupnp_service_mangleabsoluteurl` from `service.c`: the URL of a service is resolved against the
`URLBase` of the description, or against the location of the description.

The scanner keeps a relative reference as a path whole. Only a query makes it look at what it has
left of the reference behind a user and a host, and then what is left is all that is kept
(`setValue_reference`).
-/

set_option autoImplicit false
set_option relaxedAutoImplicit false

namespace Mupnp.Service

open Foundation Util Net

/-- The location of a description with its path cut to the base path, if it has one. -/
def truncateLocation (absUrl : NetUri) : NetUri :=
  match absUrl.getUpnpBasePath with
  | some basePath => absUrl.setPath (some basePath)
  | none => absUrl

/-- `mupnp_service_mangleabsoluteurl`. -/
def mangleAbsoluteUrl (serviceUrl baseUrl locationUrl : Option CString) : Option NetUri :=
  if strlen serviceUrl ≤ 0 then none
  else
    let serviceStr := serviceUrl.getD []
    let url := NetUri.setValue serviceStr
    if url.isAbsolute then some url
    else if 0 < strlen baseUrl then
      let absUrl := NetUri.setValue (baseUrl.getD [])
      if isAbsolutePath serviceStr then some ((absUrl.setPath url.path).setQuery url.query)
      else some (((absUrl.addPath url.path).setQuery url.query).rebuild)
    else if strlen locationUrl ≤ 0 then some url
    else
      let absUrl := truncateLocation (NetUri.setValue (locationUrl.getD []))
      if isAbsolutePath serviceStr then some ((absUrl.setPath url.path).setQuery url.query)
      else some ((absUrl.addPath url.path).setQuery url.query)

theorem truncateLocation_eq (absUrl : NetUri) :
    truncateLocation absUrl = absUrl.setPath absUrl.getUpnpBasePath := by
  unfold truncateLocation
  cases absUrl.getUpnpBasePath <;> rfl

/-! ### Relative references -/

/-- What the scanner leaves of a relative reference behind a user and a host. -/
def referenceLeft (text : CString) : CString := (readHost false (readUser text).2.2).2

theorem readUser_suffix (text : CString) : (readUser text).2.2 <:+ text := by
  unfold readUser
  simp only
  split_ifs
  · exact List.drop_suffix _ _
  · exact List.drop_suffix _ _
  · exact List.suffix_rfl

theorem readHost_suffix (text : CString) : (readHost false text).2 <:+ text := by
  unfold readHost
  simp only [Bool.false_eq_true, if_false]
  split_ifs
  · exact List.drop_suffix _ _
  · exact List.suffix_rfl

theorem referenceLeft_suffix (text : CString) : referenceLeft text <:+ text :=
  (readHost_suffix _).trans (readUser_suffix text)

theorem setValue_of_no_scheme {text : CString} (h : ¬ "://".toList <:+: text) :
    (NetUri.setValue text).protocol = none ∧
      (NetUri.setValue text).path = relativePath text (referenceLeft text) ∧
      (NetUri.setValue text).query = readQuery (referenceLeft text) := by
  unfold NetUri.setValue
  simp only [readProtocol_of_no_scheme h, Option.isSome_none, Bool.false_eq_true, if_false]
  exact ⟨trivial, rfl, rfl⟩

theorem stringAddValue_some_some (str value : CString) :
    stringAddValue (some str) (some value) = some (str ++ value) := by
  cases value with
  | nil => rw [List.append_nil]; rfl
  | cons c rest => rfl

theorem exists_path_of_not_infix {text : CString} (hne : text ≠ []) (h : ¬ "://".toList <:+: text) :
    ∃ read, (NetUri.setValue text).path = some read := by
  rw [(setValue_of_no_scheme h).2.1]
  unfold relativePath
  split_ifs
  · exact ⟨_, rfl⟩
  · obtain ⟨c, rest, rfl⟩ := List.exists_cons_of_ne_nil hne
    exact ⟨_, rfl⟩

/-- Without a question mark in what the scanner leaves, all of the text is the path. -/
theorem setValue_of_question_not_mem {text : CString} (hne : text ≠ [])
    (hwithin : ¬ "://".toList <:+: text) (hsharp : '#' ∉ referenceLeft text)
    (hquestion : '?' ∉ referenceLeft text) :
    (NetUri.setValue text).path = some text ∧ (NetUri.setValue text).query = none := by
  obtain ⟨-, hread, hreadQuery⟩ := setValue_of_no_scheme hwithin
  have hquestionIdx : strstr (some (referenceLeft text)) (some "?".toList) = -1 :=
    strstr_singleton_of_not_mem hquestion
  have hsharpIdx : strstr (some (referenceLeft text)) (some "#".toList) = -1 :=
    strstr_singleton_of_not_mem hsharp
  rw [hread, hreadQuery]
  unfold relativePath readQuery
  simp only [hquestionIdx, hsharpIdx]
  rw [if_neg (by decide), if_neg (by decide)]
  obtain ⟨c, rest, rfl⟩ := List.exists_cons_of_ne_nil hne
  exact ⟨rfl, rfl⟩

/-- A question mark in what the scanner leaves parts the path from the query. -/
theorem setValue_of_question_mem {text : CString} (hwithin : ¬ "://".toList <:+: text)
    (hsharp : '#' ∉ referenceLeft text) (hquestion : '?' ∈ referenceLeft text) :
    ∃ left query, referenceLeft text = left ++ '?' :: query ∧ '?' ∉ left ∧
      (NetUri.setValue text).path = some left ∧ (NetUri.setValue text).query = some query := by
  obtain ⟨-, hread, hreadQuery⟩ := setValue_of_no_scheme hwithin
  obtain ⟨left, query, hleft, hleftFront, hleftPath, hleftQuery⟩ := exists_query hquestion hsharp
  have hquestionIdx : 0 ≤ strstr (some (referenceLeft text)) (some "?".toList) := by
    refine strstr_nonneg_iff.mpr ⟨left, query, ?_⟩
    rw [hleft, List.append_assoc]
    rfl
  refine ⟨left, query, hleft, hleftFront, ?_, ?_⟩
  · rw [hread, relativePath, if_pos (Or.inr hquestionIdx), hleftPath]
  · rw [hreadQuery, hleftQuery]

/-- What the scanner takes from a reference: all of it without a query, and else what it leaves
behind a user and a host. -/
def referenceRead (path : CString) (query : Option CString) : CString :=
  if query = none then path else referenceLeft (path ++ queryText query)

section reference

variable {path : CString} {query : Option CString} (hne : path ≠ [])
  (hpath : IsUriText "?#[]" path) (hquery : ∀ text ∈ query, IsUriText "#[]" text)
  (hwithin : ¬ "://".toList <:+: path ++ queryText query)
include hne hpath hquery hwithin

/-- The path and the query that the scanner takes from a relative reference, put behind a prefix,
give a path and the query of the reference exactly when the texts agree. -/
theorem setValue_reference {front merged : CString} (hfront : '?' ∉ front) (hmerged : '?' ∉ merged)
    (kept : Option CString) :
    (∃ read, (NetUri.setValue (path ++ queryText query)).path = some read ∧
        front ++ read = merged ++ path ∧
        stringSetValue kept (NetUri.setValue (path ++ queryText query)).query = query) ↔
      (query = none → kept = none) ∧
        front ++ referenceRead path query = merged ++ (path ++ queryText query) := by
  have hsuffix := referenceLeft_suffix (path ++ queryText query)
  have hquestion : '?' ∉ path := hpath.not_mem (by decide)
  have hsharp : '#' ∉ path ++ queryText query :=
    sharp_not_mem_append_queryText (hpath.not_mem (by decide)) fun query hsome ↦
      (hquery query hsome).not_mem (by decide)
  have hsharpLeft : '#' ∉ referenceLeft (path ++ queryText query) :=
    fun hmem ↦ hsharp (hsuffix.subset hmem)
  have hwholeNe : path ++ queryText query ≠ [] := fun hnil ↦
    hne (List.append_eq_nil_iff.mp hnil).1
  have hwhole := setValue_of_question_not_mem hwholeNe hwithin hsharpLeft
  cases query with
  | none =>
    have hnone : path ++ queryText none = path := List.append_nil path
    rw [hnone] at hwhole hsuffix ⊢
    obtain ⟨hpathRead, hqueryRead⟩ := hwhole fun hmem ↦ hquestion (hsuffix.subset hmem)
    rw [hpathRead, hqueryRead, stringSetValue_none, referenceRead, if_pos rfl]
    constructor
    · rintro ⟨read, hsome, happend, hkept⟩
      rw [← Option.some.inj hsome] at happend
      exact ⟨fun _ ↦ hkept, happend⟩
    · rintro ⟨hkept, happend⟩
      exact ⟨path, rfl, happend, hkept rfl⟩
  | some query =>
    have hsome : path ++ queryText (some query) = path ++ '?' :: query := rfl
    have hread' : referenceRead path (some query) =
        referenceLeft (path ++ queryText (some query)) :=
      if_neg (Option.some_ne_none query)
    have hmergedPath : '?' ∉ merged ++ path := by
      rw [List.mem_append, not_or]
      exact ⟨hmerged, hquestion⟩
    rw [hread']
    by_cases hmem : '?' ∈ referenceLeft (path ++ queryText (some query))
    · obtain ⟨left, leftQuery, hleft, hleftFront, hpathRead, hqueryRead⟩ :=
        setValue_of_question_mem hwithin hsharpLeft hmem
      have hfrontLeft : '?' ∉ front ++ left := by
        rw [List.mem_append, not_or]
        exact ⟨hfront, hleftFront⟩
      rw [hpathRead, hqueryRead, hleft, stringSetValue_some, hsome, ← List.append_assoc,
        ← List.append_assoc]
      constructor
      · rintro ⟨read, hsomeRead, happend, hqueryEq⟩
        rw [← Option.some.inj hsomeRead] at happend
        refine ⟨fun hnone ↦ (Option.some_ne_none query hnone).elim, ?_⟩
        rw [happend, Option.some.inj hqueryEq]
      · rintro ⟨-, happend⟩
        obtain ⟨hpathEq, hqueryEq⟩ := append_cons_inj_of_not_mem hfrontLeft hmergedPath happend
        exact ⟨left, rfl, hpathEq, congrArg some hqueryEq⟩
    · obtain ⟨hpathRead, -⟩ := hwhole hmem
      rw [hpathRead]
      constructor
      · rintro ⟨read, hsomeRead, happend, -⟩
        refine absurd ?_ hmergedPath
        rw [← happend, ← Option.some.inj hsomeRead, hsome]
        simp
      · rintro ⟨-, happend⟩
        have hin : '?' ∈ front ++ referenceLeft (path ++ queryText (some query)) := by
          rw [happend, hsome]
          simp
        rw [List.mem_append] at hin
        exact absurd hin (not_or.mpr ⟨hfront, hmem⟩)

end reference

end Mupnp.Service
