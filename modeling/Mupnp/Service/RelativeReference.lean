import Mupnp.Net.UriRecovery
import Mupnp.Service.ServiceUrl

/-!
# Relative references with a query and a fragment

The four texts of a relative reference: the path alone, with a query, with a fragment and with both.
`mupnp_net_uri_setvalue` takes the path from what it has left behind a user and a host, and looks
for them in a reference as well. The path is the same for all four texts exactly when nothing of the
reference is taken for a protocol, a user or a host (`readsReference_texts_iff`).
-/

set_option autoImplicit false
set_option relaxedAutoImplicit false

namespace Mupnp.Service

open Foundation Util Net

/-- Setting a URI gives the path, the query and the fragment of a reference, and the URI is not
absolute. -/
def ReadsReference (url : NetUri) (path : CString) (query fragment : Option CString) : Prop :=
  url.path = some path ∧ url.query = query ∧ url.fragment = fragment ∧ url.isAbsolute = false

/-- The text of a reference. -/
def referenceText (path : CString) (query fragment : Option CString) : CString :=
  path ++ queryText query ++ fragmentText fragment

/-- Nothing of a text is taken for a protocol, a user or a host. -/
def IsLeftWhole (text : CString) : Prop :=
  ¬ "://".toList <:+: text ∧ '@' ∉ text ∧ (text.head? = some '/' ∨ '/' ∉ text)

/-- The condition on the path, the query and the fragment of a reference: there is a path, the query
and the fragment have no delimiter of a protocol or of a user, and no slash stands behind the first
character unless one stands there. -/
def KeepsReference (path query fragment : CString) : Prop :=
  path ≠ [] ∧ (∀ text ∈ [query, fragment], ¬ "://".toList <:+: text ∧ '@' ∉ text) ∧
    (path.head? = some '/' ∨ ∀ text ∈ [path, query, fragment], '/' ∉ text)

/-! ### What is left of a text -/

/-- Everything is left of a text exactly when no user and no host are taken from it. -/
theorem referenceLeft_eq_self_iff {text : CString} (hhead : text.head? ≠ some '@') :
    referenceLeft text = text ↔ '@' ∉ text ∧ (text.head? = some '/' ∨ '/' ∉ text) := by
  by_cases hat : '@' ∈ text
  · refine iff_of_false (fun hself ↦ ?_) fun hboth ↦ hboth.1 hat
    obtain ⟨before, after, rfl, hbefore⟩ := List.eq_append_cons_of_mem hat
    have hne : before ≠ [] := by
      rintro rfl
      exact hhead rfl
    obtain ⟨user, password, hread, -⟩ := readUser_append_at hne hbefore after
    have hlength := (readHost_suffix after).length_le
    unfold referenceLeft at hself
    rw [hread] at hself
    rw [hself, List.length_append, List.length_cons] at hlength
    omega
  · unfold referenceLeft
    rw [readUser_of_not_mem hat]
    by_cases hslash : '/' ∈ text
    · obtain ⟨before, after, rfl, hbefore⟩ := List.eq_append_cons_of_mem hslash
      have hindex : strstr (some (before ++ '/' :: after)) (some "/".toList) = before.length :=
        strstr_singleton_append hbefore after
      unfold readHost
      simp only [hindex]
      by_cases hne : before = []
      · subst hne
        exact iff_of_true rfl ⟨hat, Or.inl rfl⟩
      · have hpos : 0 < before.length := List.length_pos_iff.mpr hne
        rw [if_pos (by omega), Int.toNat_natCast, List.drop_left]
        refine iff_of_false (fun hself ↦ hne (List.self_eq_append_left.mp hself)) ?_
        rintro ⟨-, hslashHead | hnot⟩
        · obtain ⟨c, rest, rfl⟩ := List.exists_cons_of_ne_nil hne
          obtain rfl := Option.some.inj hslashHead
          exact hbefore List.mem_cons_self
        · exact hnot hslash
    · have hindex : strstr (some text) (some "/".toList) = -1 := strstr_singleton_of_not_mem hslash
      unfold readHost
      simp only [hindex]
      exact iff_of_true rfl ⟨hat, Or.inr hslash⟩

theorem fragment_setValue_of_no_scheme {text : CString} (h : ¬ "://".toList <:+: text) :
    (NetUri.setValue text).fragment = readFragment (referenceLeft text) := by
  unfold NetUri.setValue
  simp only [readProtocol_of_no_scheme h, Option.isSome_none]
  rfl

theorem referenceText_none (path : CString) : referenceText path none none = path := by
  rw [referenceText, queryText, fragmentText, Option.elim_none, Option.elim_none, List.append_nil,
    List.append_nil]

/-- The path is read from what is left, or it is the whole text when that is only a path. -/
theorem relativePath_cases {text : CString} (hne : text ≠ []) (left : CString) :
    relativePath text left = some (readPath left) ∨
      relativePath text left = some text ∧ readPath left = left := by
  unfold relativePath
  split_ifs with hcut
  · exact Or.inl rfl
  · rw [not_or] at hcut
    refine Or.inr ⟨stringAddValue_of_ne_nil none hne, ?_⟩
    unfold readPath
    simp only
    rw [if_neg fun hquestion ↦ hcut.2 hquestion.1, if_neg hcut.1]

theorem relativePath_of_not_mem {text left : CString} (hne : text ≠ []) (hquestion : '?' ∉ left)
    (hsharp : '#' ∉ left) : relativePath text left = some text := by
  have hquestionIdx : strstr (some left) (some "?".toList) = -1 :=
    strstr_singleton_of_not_mem hquestion
  have hsharpIdx : strstr (some left) (some "#".toList) = -1 := strstr_singleton_of_not_mem hsharp
  unfold relativePath
  rw [hquestionIdx, hsharpIdx, if_neg (by decide)]
  exact stringAddValue_of_ne_nil none hne

/-- What does not have the delimiters of a query and of a fragment stands in one of the parts. -/
theorem infix_referenceText_iff {needle : CString} (hquestion : '?' ∉ needle)
    (hsharp : '#' ∉ needle) (path : CString) (query fragment : Option CString) :
    needle <:+: referenceText path query fragment ↔
      ∃ text ∈ path :: (query.toList ++ fragment.toList), needle <:+: text := by
  have hpart : ∀ {sign : Char} (hsign : sign ∉ needle) (front : CString) (part : Option CString),
      needle <:+: front ++ part.elim [] (sign :: ·) ↔
        needle <:+: front ∨ ∃ text ∈ part.toList, needle <:+: text := by
    intro sign hsign front part
    cases part with
    | none => simp
    | some text =>
      rw [Option.elim_some, infix_append_cons_iff hsign, Option.toList_some]
      simp
  unfold referenceText queryText fragmentText
  rw [hpart hsharp, hpart hquestion, or_assoc, List.exists_mem_cons_iff]
  simp only [List.mem_append, or_and_right, exists_or]

theorem mem_referenceText_iff {c : Char} (hquestion : c ≠ '?') (hsharp : c ≠ '#') (path : CString)
    (query fragment : Option CString) :
    c ∈ referenceText path query fragment ↔
      ∃ text ∈ path :: (query.toList ++ fragment.toList), c ∈ text := by
  have hinfix := @infix_referenceText_iff [c]
    (fun hmem ↦ hquestion (List.mem_singleton.mp hmem).symm)
    (fun hmem ↦ hsharp (List.mem_singleton.mp hmem).symm) path query fragment
  simpa only [List.singleton_infix_iff] using hinfix

/-! ### One text -/

section reference

variable {path : CString} {query fragment : Option CString}
  (hpath : ∀ c ∈ path, c ∉ "?#:@".toList)
include hpath

theorem not_mem_path {c : Char} (hc : c ∈ "?#:@".toList) : c ∉ path := fun hmem ↦ hpath c hmem hc

theorem head?_referenceText (hne : path ≠ []) (query fragment : Option CString) :
    (referenceText path query fragment).head? = path.head? ∧
      ∀ c ∈ "?#:@".toList, path.head? ≠ some c := by
  obtain ⟨c, rest, rfl⟩ := List.exists_cons_of_ne_nil hne
  refine ⟨rfl, fun delim hdelim hhead ↦ ?_⟩
  obtain rfl := Option.some.inj hhead
  exact hpath c List.mem_cons_self hdelim

/-- Where a scheme stands in the text, it is read as an absolute one. -/
theorem not_readsReference_of_scheme (hne : path ≠ []) {query fragment : Option CString}
    (hwithin : "://".toList <:+: referenceText path query fragment) :
    ¬ ReadsReference (NetUri.setValue (referenceText path query fragment)) path query fragment := by
  obtain ⟨hhead, hdelim⟩ := head?_referenceText hpath hne query fragment
  obtain ⟨before, after, -, hbefore, hprotocol⟩ := exists_protocol_of_infix hwithin (by
    rw [hhead]
    exact hdelim ':' (by decide))
  have hread : (NetUri.setValue (referenceText path query fragment)).protocol = some before :=
    hprotocol
  rintro ⟨-, -, -, habsolute⟩
  unfold NetUri.isAbsolute at habsolute
  rw [hread, decide_eq_false_iff_not] at habsolute
  exact habsolute (List.length_pos_iff.mpr hbefore)

/-- A path alone is read as that path, whatever is taken for a host in it. -/
theorem reads_path (hne : path ≠ []) :
    relativePath path (referenceLeft path) = some path ∧
      readQuery (referenceLeft path) = none ∧ readFragment (referenceLeft path) = none := by
  have hsuffix := referenceLeft_suffix path
  have hquestion : '?' ∉ referenceLeft path := fun hmem ↦
    not_mem_path hpath (by decide) (hsuffix.subset hmem)
  have hsharp : '#' ∉ referenceLeft path := fun hmem ↦
    not_mem_path hpath (by decide) (hsuffix.subset hmem)
  obtain ⟨-, hnoQuery, hnoFragment⟩ := @read_append (referenceLeft path) (fun _ hc ↦
    ⟨ne_of_mem_of_not_mem hc hquestion, ne_of_mem_of_not_mem hc hsharp⟩) none none
      fun _ hnone ↦ by cases hnone
  have hnone : referenceLeft path ++ queryText none ++ fragmentText none = referenceLeft path :=
    referenceText_none _
  rw [hnone] at hnoQuery hnoFragment
  exact ⟨relativePath_of_not_mem hne hquestion hsharp, hnoQuery, hnoFragment⟩

/-- A text that is left whole is read as its parts. -/
theorem reads_whole (htext : referenceText path query fragment ≠ [])
    (hquery : ∀ text ∈ query, '#' ∉ text) :
    relativePath (referenceText path query fragment) (referenceText path query fragment) =
        some path ∧
      readQuery (referenceText path query fragment) = query ∧
      readFragment (referenceText path query fragment) = fragment := by
  obtain ⟨hpathRead, hqueryRead, hfragmentRead⟩ := @read_append path (fun _ hc ↦
    ⟨ne_of_mem_of_not_mem hc (not_mem_path hpath (by decide)),
      ne_of_mem_of_not_mem hc (not_mem_path hpath (by decide))⟩) _ fragment hquery
  refine ⟨?_, hqueryRead, hfragmentRead⟩
  rcases relativePath_cases htext (referenceText path query fragment) with hcut | ⟨hwhole, hnot⟩
  · exact hcut.trans (congrArg some hpathRead)
  · rw [hwhole, ← hnot]
    exact congrArg some hpathRead

omit hpath in
/-- A text that is its path has no other part. -/
theorem parts_eq_none (h : referenceText path query fragment = path) :
    query = none ∧ fragment = none := by
  rw [referenceText, List.append_assoc, List.append_right_eq_self, List.append_eq_nil_iff] at h
  refine ⟨?_, ?_⟩
  · cases query with
    | none => rfl
    | some query => exact absurd h.1 (List.cons_ne_nil _ _)
  · cases fragment with
    | none => rfl
    | some fragment => exact absurd h.2 (List.cons_ne_nil _ _)

/-- A text without a query and a fragment is a path whatever stands in it; another one is read as
the reference exactly when it is left whole. -/
theorem readsReference_iff (hne : path ≠ []) {query fragment : Option CString}
    (hquery : ∀ text ∈ query, '#' ∉ text) :
    ReadsReference (NetUri.setValue (referenceText path query fragment)) path query fragment ↔
      (query = none ∧ fragment = none) ∨ IsLeftWhole (referenceText path query fragment) := by
  by_cases hwithin : "://".toList <:+: referenceText path query fragment
  · refine iff_of_false (not_readsReference_of_scheme hpath hne hwithin) ?_
    rintro (⟨rfl, rfl⟩ | hwhole)
    · have hcolon : ':' ∈ path := by
        rw [← referenceText_none path]
        exact hwithin.subset (by decide)
      exact not_mem_path hpath (by decide) hcolon
    · exact hwhole.1 hwithin
  obtain ⟨hhead, hdelim⟩ := head?_referenceText hpath hne query fragment
  have hat : (referenceText path query fragment).head? ≠ some '@' := by
    rw [hhead]
    exact hdelim '@' (by decide)
  obtain ⟨hprotocol, hpathRead, hqueryRead⟩ := setValue_of_no_scheme hwithin
  have hfragmentRead := fragment_setValue_of_no_scheme hwithin
  have habsolute : (NetUri.setValue (referenceText path query fragment)).isAbsolute = false := by
    unfold NetUri.isAbsolute
    rw [hprotocol]
    rfl
  have hleft : IsLeftWhole (referenceText path query fragment) ↔
      referenceLeft (referenceText path query fragment) = referenceText path query fragment := by
    rw [referenceLeft_eq_self_iff hat, IsLeftWhole, and_iff_right hwithin]
  unfold ReadsReference
  rw [hpathRead, hqueryRead, hfragmentRead, hleft, and_iff_left habsolute]
  have htext : referenceText path query fragment ≠ [] := by
    unfold referenceText
    rw [List.append_assoc]
    exact List.append_ne_nil_of_left_ne_nil hne _
  constructor
  · rintro ⟨hpathEq, hqueryEq, hfragmentEq⟩
    rcases relativePath_cases htext (referenceLeft (referenceText path query fragment)) with
      hcut | ⟨hwhole, -⟩
    · refine Or.inr ?_
      rw [hcut, Option.some.injEq] at hpathEq
      have hagain := (read_parts (referenceLeft (referenceText path query fragment))).2.2
      rw [hpathEq, hqueryEq, hfragmentEq] at hagain
      exact hagain.symm
    · rw [hwhole, Option.some.injEq] at hpathEq
      exact Or.inl (parts_eq_none hpathEq)
  · rintro (⟨rfl, rfl⟩ | hself)
    · rw [referenceText_none]
      exact reads_path hpath hne
    · rw [hself]
      exact reads_whole hpath htext hquery

/-- What a text is left whole for, part by part. -/
theorem isLeftWhole_referenceText_iff (hne : path ≠ []) (query fragment : Option CString) :
    IsLeftWhole (referenceText path query fragment) ↔
      (∀ text ∈ query.toList ++ fragment.toList, ¬ "://".toList <:+: text ∧ '@' ∉ text) ∧
        (path.head? = some '/' ∨
          ∀ text ∈ path :: (query.toList ++ fragment.toList), '/' ∉ text) := by
  have hdelim : ¬ "://".toList <:+: path := fun hwithin ↦
    not_mem_path hpath (by decide : ':' ∈ _) (hwithin.subset (by decide))
  have hat : '@' ∉ path := not_mem_path hpath (by decide)
  rw [IsLeftWhole, (head?_referenceText hpath hne query fragment).1,
    infix_referenceText_iff (by decide) (by decide),
    mem_referenceText_iff (by decide) (by decide), mem_referenceText_iff (by decide) (by decide),
    List.exists_mem_cons_iff, List.exists_mem_cons_iff]
  constructor
  · rintro ⟨hprotocol, huser, hslash⟩
    rw [not_or] at hprotocol huser
    refine ⟨fun text htext ↦ ⟨fun hin ↦ hprotocol.2 ⟨text, htext, hin⟩, fun hin ↦
      huser.2 ⟨text, htext, hin⟩⟩, hslash.imp_right fun hnone text htext hin ↦ ?_⟩
    exact hnone ⟨text, htext, hin⟩
  · rintro ⟨hparts, hslash⟩
    refine ⟨?_, ?_, hslash.imp_right fun hnone hin ↦ ?_⟩
    · rintro (hin | ⟨text, htext, hin⟩)
      · exact hdelim hin
      · exact (hparts text htext).1 hin
    · rintro (hin | ⟨text, htext, hin⟩)
      · exact hat hin
      · exact (hparts text htext).2 hin
    · obtain ⟨text, htext, hmem⟩ := hin
      exact hnone text htext hmem

/-- The path alone, with a query, with a fragment and with both are read as the reference that they
are written from exactly when nothing of it is taken for a protocol, a user or a host. -/
theorem readsReference_texts_iff {query fragment : CString} (hquery : '#' ∉ query) :
    (∀ queryPart ∈ [none, some query], ∀ fragmentPart ∈ [none, some fragment],
        ReadsReference (NetUri.setValue (referenceText path queryPart fragmentPart)) path queryPart
          fragmentPart) ↔
      KeepsReference path query fragment := by
  have hqueryPart : ∀ queryPart ∈ [none, some query], ∀ text ∈ queryPart, '#' ∉ text := by
    intro queryPart hpart text htext
    rw [htext, List.mem_pair, or_iff_right (Option.some_ne_none text), Option.some.injEq] at hpart
    rw [hpart]
    exact hquery
  constructor
  · intro hreads
    obtain ⟨hempty, -⟩ := hreads none List.mem_cons_self none List.mem_cons_self
    have hne : path ≠ [] := by
      rintro rfl
      exact absurd hempty (by decide)
    have hboth := hreads (some query) (by simp) (some fragment) (by simp)
    rw [readsReference_iff hpath hne (hqueryPart (some query) (by simp))] at hboth
    have hwhole := hboth.resolve_left fun hnone ↦ Option.some_ne_none query hnone.1
    exact ⟨hne, (isLeftWhole_referenceText_iff hpath hne _ _).mp hwhole⟩
  · rintro ⟨hne, hdelim, hslash⟩ queryPart hpart fragmentPart hfragment
    have hsub : ∀ text ∈ queryPart.toList ++ fragmentPart.toList, text ∈ [query, fragment] := by
      intro text htext
      rw [List.mem_append, Option.mem_toList, Option.mem_toList] at htext
      rw [List.mem_pair] at hpart hfragment ⊢
      rcases htext with rfl | rfl
      · exact Or.inl (Option.some.inj (hpart.resolve_left (Option.some_ne_none text)))
      · exact Or.inr (Option.some.inj (hfragment.resolve_left (Option.some_ne_none text)))
    rw [readsReference_iff hpath hne (hqueryPart queryPart hpart),
      isLeftWhole_referenceText_iff hpath hne]
    refine Or.inr ⟨fun text htext ↦ hdelim text (hsub text htext),
      hslash.imp_right fun hnone text htext ↦ hnone text ?_⟩
    rcases List.mem_cons.mp htext with rfl | hin
    · exact List.mem_cons_self
    · exact List.mem_cons_of_mem path (hsub text hin)

end reference

/-- An absolute-path reference with a query and a fragment. -/
theorem readsReference_texts_setup :
    (∀ queryPart ∈ [none, some "v=1/2?x".toList], ∀ fragmentPart ∈ [none, some "top".toList],
        ReadsReference
          (NetUri.setValue (referenceText "/docs/setup".toList queryPart fragmentPart))
          "/docs/setup".toList queryPart fragmentPart) ↔
      KeepsReference "/docs/setup".toList "v=1/2?x".toList "top".toList :=
  readsReference_texts_iff (by decide) (by decide)

/-- The path of `docs/setup?v=1` is read as `/setup`: what stands in front of the slash is taken for
a host. -/
theorem not_readsReference_texts :
    ¬ ∀ path query fragment : CString, (∀ c ∈ path, c ∉ "?#:@".toList) → '#' ∉ query →
      ∀ queryPart ∈ [none, some query], ∀ fragmentPart ∈ [none, some fragment],
        ReadsReference (NetUri.setValue (referenceText path queryPart fragmentPart)) path queryPart
          fragmentPart := by
  intro h
  obtain ⟨hpath, -⟩ := h "docs/setup".toList "v=1".toList [] (by decide) (by decide)
    (some "v=1".toList) (by decide) none (by decide)
  have hread : (NetUri.setValue
      (referenceText "docs/setup".toList (some "v=1".toList) none)).path =
        some "/setup".toList := by
    decide +kernel
  rw [hread] at hpath
  exact absurd hpath (by decide)

end Mupnp.Service
