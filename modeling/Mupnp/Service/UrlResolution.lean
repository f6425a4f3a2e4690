import Mupnp.Service.ServiceUrl

/-!
# The resolution of service URLs

A control point resolves the URL of a service against the `URLBase` of a description, or against
the location of the description. `mangleAbsoluteUrl_resolves_iff` says for which bases and
references the result is the resolution of the reference: the scanner has to find the authority, a
query of the base must not be left, and the path of a `URLBase` must be a directory, because only
the file name of a location is dropped.
-/

set_option autoImplicit false
set_option relaxedAutoImplicit false

namespace Mupnp.Service

open Foundation Util Net

/-- A well-formed absolute URI of the scheme `http`, in any spelling of the scheme. -/
structure IsHttpUri (uri : Uri) : Prop where
  wellFormed : uri.IsWellFormed
  authority : uri.authority.isSome = true
  scheme : uri.scheme.map Char.toLower = "http".toList

/-- A reference without dot segments: an absolute URI, an absolute path or a relative path. -/
def IsServiceUrl : UriReference → Prop
  | .uri target => target.IsWellFormed ∧ HasNoDotSegment target.path
  | .relative path query =>
    path ≠ [] ∧ IsUriText "?#[]" path ∧ (∀ text ∈ query, IsUriText "#[]" text) ∧
      HasNoDotSegment path ∧ ¬ ['/', '/'] <+: path ∧
      (path.head? ≠ some '/' → ':' ∉ path.takeWhile (· ≠ '/'))

/-- The base that is taken: the `URLBase` when there is one, and else the location. -/
def chosenBase (urlBase location : Option CString) : Option CString :=
  if 0 < strlen urlBase then urlBase else location

/-! ### When a URL is resolved -/

/-- The path that the scanner reads from a URI. -/
def scannedPath (uri : Uri) : CString := readPath (pathTail uri)

/-- The query that the scanner reads from a URI. -/
def scannedQuery (uri : Uri) : Option CString := readQuery (pathTail uri)

/-- What stands in front of a reference: nothing when it is an absolute path, the path of a
`URLBase`, the directory of a location. -/
def pathPrefix (fromUrlBase : Bool) (base : Uri) (path : CString) : CString :=
  if path.head? = some '/' then []
  else if fromUrlBase = true then scannedPath base
  else directory (scannedPath base)

/-- What has to stand in front of a reference. -/
def mergedPrefix (base : Uri) (path : CString) : CString :=
  if path.head? = some '/' then [] else base.mergePrefix

/-- The condition under which a reference is resolved. An absolute URI needs an authority that the
scanner finds, and no query right behind it. For a path the reference must not look like an absolute
URI, the scanner has to find the authority of the base, no query of the base is left behind a
reference without one, the directory of the base has no dot segments, and what stands in front of
what the scanner takes from the reference is that directory. -/
def ResolvesAsWritten (fromUrlBase : Bool) (base : Uri) : UriReference → Prop
  | .uri target => AuthorityScans target ∧ (target.path = [] → target.query = none)
  | .relative path query =>
    ¬ "://".toList <:+: path ++ queryText query ∧ AuthorityScans base ∧
      (query = none → scannedQuery base = none) ∧ HasNoDotSegment (mergedPrefix base path) ∧
      pathPrefix fromUrlBase base path ++ referenceRead path query =
        mergedPrefix base path ++ (path ++ queryText query)

/-! ### The path of a base -/

section base

variable {uri : Uri} (h : uri.IsWellFormed)
include h

theorem sharp_not_mem_pathTail : '#' ∉ pathTail uri := by
  have htail : '#' ∉ tailText uri :=
    sharp_not_mem_append_queryText (h.path.not_mem (by decide)) fun query hquery ↦
      (h.query query hquery).not_mem (by decide)
  exact fun hmem ↦ htail ((List.dropWhile_sublist _).mem hmem)

theorem scannedPath_eq : scannedPath uri = (pathTail uri).takeWhile (· ≠ '?') :=
  readPath_eq_takeWhile (sharp_not_mem_pathTail h)

theorem question_not_mem_scannedPath : '?' ∉ scannedPath uri := by
  rw [scannedPath_eq h]
  intro hmem
  have hne := List.mem_takeWhile_imp hmem
  exact absurd hne (by decide)

/-- What is read as a path is empty or starts with a slash. -/
theorem scannedPath_cases : scannedPath uri = [] ∨ ∃ rest, scannedPath uri = '/' :: rest := by
  have hhead := List.head?_dropWhile_not (· ≠ '/') (tailText uri)
  rw [scannedPath_eq h]
  unfold pathTail
  cases htail : (tailText uri).dropWhile (· ≠ '/') with
  | nil => exact Or.inl rfl
  | cons c rest =>
    rw [htail] at hhead
    have hslash : c = '/' := by simpa using hhead
    rw [hslash, List.takeWhile_cons, if_pos (by decide)]
    exact Or.inr ⟨_, rfl⟩

/-- A path that is there is read. -/
theorem scanned_of_path_ne_nil (hauthority : uri.authority.isSome = true) (hne : uri.path ≠ []) :
    scannedPath uri = uri.path ∧ scannedQuery uri = uri.query := by
  have hpath : ∀ c ∈ uri.path, c ≠ '?' ∧ c ≠ '#' := fun c hc ↦
    ⟨ne_of_mem_of_not_mem hc (h.path.not_mem (by decide)),
      ne_of_mem_of_not_mem hc (h.path.not_mem (by decide))⟩
  have hquery : ∀ text ∈ uri.query, '#' ∉ text :=
    fun text htext ↦ (h.query text htext).not_mem (by decide)
  have htail : pathTail uri = uri.path ++ queryText uri.query := by
    obtain ⟨rest, hrest⟩ :=
      List.head?_eq_some_iff.mp ((h.path_absolute hauthority).resolve_left hne)
    unfold pathTail tailText
    rw [hrest]
    rfl
  unfold scannedPath scannedQuery
  rw [htail]
  exact ⟨readPath_append hpath hquery, readQuery_append hpath hquery⟩

/-- The path and the query are read as they stand unless a query stands right behind the authority.
-/
theorem scanned_iff (hauthority : uri.authority.isSome = true) :
    scannedPath uri = uri.path ∧ scannedQuery uri = uri.query ↔
      (uri.path = [] → uri.query = none) := by
  by_cases hne : uri.path = []
  · have htail : pathTail uri = (queryText uri.query).dropWhile (· ≠ '/') := by
      rw [pathTail, tailText, hne, List.nil_append]
    constructor
    · rintro ⟨hpath, hquery⟩ -
      have hempty : pathTail uri = [] := by
        rcases scannedPath_cases h with hnil | ⟨rest, hrest⟩
        · have hhead := List.head?_dropWhile_not (· ≠ '/') (tailText uri)
          rw [scannedPath_eq h] at hnil
          rw [pathTail] at hnil ⊢
          cases hdrop : (tailText uri).dropWhile (· ≠ '/') with
          | nil => rfl
          | cons c rest =>
            rw [hdrop] at hhead hnil
            have hslash : c = '/' := by simpa using hhead
            rw [hslash, List.takeWhile_cons, if_pos (by decide)] at hnil
            cases hnil
        · rw [hpath, hne] at hrest
          cases hrest
      rw [← hquery, scannedQuery, hempty]
      rfl
    · intro hnone
      unfold scannedPath scannedQuery
      rw [htail, hnone hne, hne]
      exact ⟨rfl, rfl⟩
  · exact iff_of_true (scanned_of_path_ne_nil h hauthority hne) fun hnil ↦ absurd hnil hne

/-- The path and the query of a scanned URI whose authority is found. -/
theorem setValue_path_query (hscans : AuthorityScans uri) :
    (NetUri.setValue uri.text).path = some (scannedPath uri) ∧
      (NetUri.setValue uri.text).query = scannedQuery uri := by
  unfold AuthorityScans at hscans
  cases hauthority : uri.authority with
  | none =>
    rw [hauthority] at hscans
    exact hscans.elim
  | some authority =>
    rw [hauthority] at hscans
    obtain ⟨user, password, -, hscan⟩ := setValue_text h hauthority hscans.1
    rw [hscan]
    exact ⟨rfl, rfl⟩

/-- Without an authority the scheme is not followed by two slashes. -/
theorem text_ne_of_opaque (hauthority : uri.authority = none) (after : CString) :
    uri.text ≠ uri.scheme ++ ':' :: '/' :: '/' :: after := by
  intro heq
  rw [Uri.text, hauthority] at heq
  have htail : uri.path ++ queryText uri.query = '/' :: '/' :: after :=
    (List.cons.inj (List.append_cancel_left heq)).2
  have hquery : ∀ rest, queryText uri.query ≠ '/' :: rest := by
    intro rest
    cases uri.query with
    | none => exact List.cons_ne_nil _ _ |>.symm
    | some query => exact fun h ↦ by cases h
  refine h.path_opaque hauthority ?_
  rcases List.append_eq_cons_iff.mp htail with ⟨-, hnil⟩ | ⟨rest, hpath, hrest⟩
  · exact absurd hnil (hquery _)
  · rcases List.append_eq_cons_iff.mp hrest.symm with ⟨-, hnil⟩ | ⟨others, hothers, -⟩
    · exact absurd hnil (hquery _)
    · rw [hpath, hothers]
      exact ⟨others, rfl⟩

end base

/-- The base path of a location is its directory. -/
theorem stringSetValue_getUpnpBasePath {url : NetUri} {path : CString}
    (hpath : url.path = some path)
    (hcases : path = [] ∨ ∃ rest, path = '/' :: rest) :
    stringSetValue url.path url.getUpnpBasePath = some (directory path) := by
  unfold NetUri.getUpnpBasePath
  rw [hpath]
  rcases hcases with rfl | ⟨rest, rfl⟩
  · rfl
  · have hslash : '/' ∈ '/' :: rest := List.mem_cons_self
    obtain ⟨front, file, hsplit, hfile⟩ := exists_last_of_mem hslash
    rw [if_neg (not_strlen_some_le_zero (List.cons_ne_nil '/' rest)), Option.map_some,
      stringSetValue_some, hsplit]
    simp only [lastIndexOf_append hfile, directory_append_slash front hfile]
    rw [List.take_length_add_append]
    rfl

/-! ### The result for a relative reference -/

/-- Two scanned URIs have the same protocol and the same authority. -/
def SameAuthority (url other : NetUri) : Prop :=
  url.protocol = other.protocol ∧ url.user = other.user ∧ url.password = other.password ∧
    url.host = other.host ∧ url.port = other.port

theorem SameAuthority.authorityDenotes_iff {url other : NetUri} (h : SameAuthority url other)
    {target base : Uri} (hscheme : target.scheme = base.scheme)
    (hauthority : target.authority = base.authority) :
    AuthorityDenotes url target ↔ AuthorityDenotes other base := by
  obtain ⟨-, huser, hpassword, hhost, hport⟩ := h
  unfold AuthorityDenotes
  rw [hscheme, hauthority, huser, hpassword, hhost, hport]

/-- The path of the base as it stands in front of a reference. -/
def keptPath (fromUrlBase : Bool) (url : NetUri) : Option CString :=
  if fromUrlBase = true then url.path else stringSetValue url.path url.getUpnpBasePath

/-- A text that the scanner takes for an absolute URL is taken as it is scanned. -/
theorem mangleAbsoluteUrl_absolute {text : CString} (hne : text ≠ [])
    (habsolute : (NetUri.setValue text).isAbsolute = true) (urlBase location : Option CString) :
    mangleAbsoluteUrl (some text) urlBase location = some (NetUri.setValue text) := by
  rw [mangleAbsoluteUrl, if_neg (not_strlen_some_le_zero hne)]
  simp only [Option.getD_some, habsolute, if_true]

theorem mangleAbsoluteUrl_relative {text baseText : CString} (hne : text ≠ [])
    (hwithin : ¬ "://".toList <:+: text) {urlBase location : Option CString}
    (hgiven : chosenBase urlBase location = some baseText) (hbaseNe : baseText ≠ []) :
    ∃ url, mangleAbsoluteUrl (some text) urlBase location = some url ∧
      SameAuthority url (NetUri.setValue baseText) ∧
      url.path = (if isAbsolutePath text then
          stringSetValue (keptPath (decide (0 < strlen urlBase)) (NetUri.setValue baseText))
            (NetUri.setValue text).path
        else stringAddValue (keptPath (decide (0 < strlen urlBase)) (NetUri.setValue baseText))
          (NetUri.setValue text).path) ∧
      url.query =
        stringSetValue (NetUri.setValue baseText).query (NetUri.setValue text).query := by
  have hbaseLength : 0 < strlen (some baseText) := List.length_pos_iff.mpr hbaseNe
  have hnot : (NetUri.setValue text).isAbsolute = false := by
    rw [NetUri.isAbsolute, (setValue_of_no_scheme hwithin).1]
    decide
  unfold mangleAbsoluteUrl
  rw [if_neg (not_strlen_some_le_zero hne)]
  simp only [Option.getD_some, hnot, Bool.false_eq_true, if_false, truncateLocation_eq]
  generalize NetUri.setValue text = reference
  unfold chosenBase at hgiven
  by_cases hurlBase : 0 < strlen urlBase
  · rw [if_pos hurlBase] at hgiven ⊢
    rw [hgiven, Option.getD_some]
    generalize NetUri.setValue baseText = baseUrl
    by_cases habsolute : isAbsolutePath text = true
    · rw [if_pos habsolute]
      refine ⟨_, rfl, ⟨rfl, rfl, rfl, rfl, rfl⟩, ?_, rfl⟩
      rw [if_pos habsolute, keptPath, if_pos (by rw [decide_eq_true_eq]; exact hbaseLength)]
      rfl
    · rw [if_neg habsolute]
      refine ⟨_, rfl, ⟨rfl, rfl, rfl, rfl, rfl⟩, ?_, rfl⟩
      rw [if_neg habsolute, keptPath, if_pos (by rw [decide_eq_true_eq]; exact hbaseLength)]
      rfl
  · rw [if_neg hurlBase] at hgiven ⊢
    have hlocation : ¬ strlen location ≤ 0 := by rw [hgiven]; omega
    rw [if_neg hlocation, hgiven, Option.getD_some]
    generalize NetUri.setValue baseText = baseUrl
    by_cases habsolute : isAbsolutePath text = true
    · rw [if_pos habsolute]
      refine ⟨_, rfl, ⟨rfl, rfl, rfl, rfl, rfl⟩, ?_, rfl⟩
      rw [if_pos habsolute, keptPath, if_neg (by rw [decide_eq_true_eq]; exact hurlBase)]
      rfl
    · rw [if_neg habsolute]
      refine ⟨_, rfl, ⟨rfl, rfl, rfl, rfl, rfl⟩, ?_, rfl⟩
      rw [if_neg habsolute, keptPath, if_neg (by rw [decide_eq_true_eq]; exact hurlBase)]
      rfl

theorem resolve_relative (base : Uri) {path : CString} (hne : path ≠ []) (query : Option CString) :
    (UriReference.relative path query).resolve base =
      { base with
        path := removeDotSegments (mergedPrefix base path ++ path)
        query := query } := by
  cases path with
  | nil => exact absurd rfl hne
  | cons c rest =>
    unfold mergedPrefix
    by_cases hslash : c = '/'
    · subst hslash
      rfl
    · have hhead : ¬ (c :: rest).head? = some '/' := fun h ↦ hslash (Option.some.inj h)
      rw [if_neg hhead]
      unfold UriReference.resolve
      split
      next heq => cases heq
      next heq => cases heq
      next heq =>
        cases heq
        exact absurd rfl hslash
      next heq =>
        cases heq
        rfl

/-- A relative path whose first segment has no colon does not start with a scheme. -/
theorem ne_scheme_of_infix {path : CString} {query : Option CString} (hne : path ≠ [])
    (hsegment : path.head? ≠ some '/' → ':' ∉ path.takeWhile (· ≠ '/'))
    (hwithin : "://".toList <:+: path ++ queryText query) {scheme : CString} (hscheme : scheme ≠ [])
    (htext : IsUriText ":/?#[]@" scheme) :
    (NetUri.setValue (path ++ queryText query)).isAbsolute = true ∧
      (NetUri.setValue (path ++ queryText query)).protocol ≠ some scheme := by
  have hprotocol : (NetUri.setValue (path ++ queryText query)).protocol =
      (readProtocol (path ++ queryText query)).1 := rfl
  have hhead : (path ++ queryText query).head? ≠ some ':' := by
    rw [List.head?_append_of_ne_nil _ hne]
    intro hhead
    obtain ⟨rest, rfl⟩ := List.head?_eq_some_iff.mp hhead
    exact hsegment (by simp) (by simp)
  obtain ⟨before, after, hsplit, hbefore, hread⟩ := exists_protocol_of_infix hwithin hhead
  refine ⟨?_, ?_⟩
  · rw [NetUri.isAbsolute, hprotocol, hread, decide_eq_true_eq]
    exact List.length_pos_iff.mpr hbefore
  · rw [hprotocol, hread]
    intro heq
    rw [Option.some.inj heq] at hsplit
    rcases List.append_eq_append_iff.mp hsplit with ⟨front, hfront, hback⟩ | ⟨front, hfront, hback⟩
    · cases query with
      | none =>
        have hnil := List.append_eq_nil_iff.mp hback.symm
        exact absurd hnil.2 (List.cons_ne_nil _ _)
      | some query =>
        cases front with
        | nil => cases hback
        | cons c rest =>
          have hc : c = '?' := (List.cons.inj hback).1.symm
          refine htext.not_mem (by decide : '?' ∈ ":/?#[]@".toList) ?_
          rw [hfront, hc]
          exact List.mem_append_right path List.mem_cons_self
    · cases front with
      | nil => cases query <;> cases hback
      | cons c rest =>
        have hc : ':' = c := (List.cons.inj hback).1
        have hslash : ∀ d ∈ scheme, decide (d ≠ '/') = true := by
          intro d hd
          rw [decide_eq_true_eq]
          exact ne_of_mem_of_not_mem hd (htext.not_mem (by decide))
        have hpathHead : path.head? ≠ some '/' := by
          obtain ⟨d, others, rfl⟩ := List.exists_cons_of_ne_nil hscheme
          rw [hfront]
          intro hslashHead
          have hd := hslash d List.mem_cons_self
          rw [Option.some.inj hslashHead] at hd
          exact absurd hd (by decide)
        refine hsegment hpathHead ?_
        rw [hfront, ← hc, List.takeWhile_append_of_pos hslash]
        simp

/-! ### The two prefixes -/

theorem mergedPrefix_of_path_ne_nil {base : Uri} (hne : base.path ≠ []) {path : CString}
    (hhead : path.head? ≠ some '/') : mergedPrefix base path = directory base.path := by
  unfold mergedPrefix Uri.mergePrefix
  rw [if_neg hhead, if_neg fun h ↦ hne h.2]

theorem mergedPrefix_cases (base : Uri) (path : CString) :
    mergedPrefix base path = [] ∨ ∃ body, mergedPrefix base path = body ++ ['/'] := by
  unfold mergedPrefix
  split_ifs
  · exact Or.inl rfl
  · exact base.mergePrefix_cases

section prefixes

variable {base : Uri} (hbase : IsHttpUri base)
include hbase

theorem question_not_mem_mergedPrefix (path : CString) : '?' ∉ mergedPrefix base path := by
  by_cases hhead : path.head? = some '/'
  · rw [mergedPrefix, if_pos hhead]
    exact List.not_mem_nil
  · by_cases hne : base.path = []
    · unfold mergedPrefix Uri.mergePrefix
      rw [if_neg hhead, if_pos ⟨hbase.authority, hne⟩]
      decide
    · rw [mergedPrefix_of_path_ne_nil hne hhead]
      intro hmem
      obtain ⟨file, hfile, -⟩ := exists_file base.path
      refine hbase.wellFormed.path.not_mem (by decide : '?' ∈ "?#[]".toList) ?_
      rw [hfile]
      exact List.mem_append_left file hmem

theorem question_not_mem_pathPrefix (fromUrlBase : Bool) (path : CString) :
    '?' ∉ pathPrefix fromUrlBase base path := by
  have hscanned := question_not_mem_scannedPath hbase.wellFormed
  unfold pathPrefix
  split_ifs
  · exact List.not_mem_nil
  · exact hscanned
  · intro hmem
    obtain ⟨file, hfile, -⟩ := exists_file (scannedPath base)
    refine hscanned ?_
    rw [hfile]
    exact List.mem_append_left file hmem

/-- Dot segments of the directory of the base stay in what stands in front of a reference. -/
theorem hasNoDotSegment_mergedPrefix {fromUrlBase : Bool} {path read : CString}
    (h : HasNoDotSegment (pathPrefix fromUrlBase base path ++ read)) :
    HasNoDotSegment (mergedPrefix base path) := by
  by_cases hhead : path.head? = some '/'
  · rw [mergedPrefix, if_pos hhead]
    exact hasNoDotSegment_nil
  · by_cases hne : base.path = []
    · unfold mergedPrefix Uri.mergePrefix
      rw [if_neg hhead, if_pos ⟨hbase.authority, hne⟩]
      decide
    · obtain ⟨hscanned, -⟩ := scanned_of_path_ne_nil hbase.wellFormed hbase.authority hne
      have hdirectory := directory_eq_nil_or base.path
      rw [mergedPrefix_of_path_ne_nil hne hhead]
      unfold pathPrefix at h
      rw [if_neg hhead, hscanned] at h
      split_ifs at h
      · obtain ⟨file, hfile, -⟩ := exists_file base.path
        rw [hfile, List.append_assoc] at h
        exact ((hasNoDotSegment_append hdirectory).mp h).1
      · exact ((hasNoDotSegment_append hdirectory).mp h).1

/-! ### The condition is exact -/

theorem text_ne_nil : base.text ≠ [] := by
  unfold Uri.text
  exact List.append_ne_nil_of_left_ne_nil hbase.wellFormed.scheme_ne_nil _

/-- The path of the base that is kept, when the scanner finds the authority of the base. -/
theorem keptPath_setValue (hscans : AuthorityScans base) (fromUrlBase : Bool) :
    keptPath fromUrlBase (NetUri.setValue base.text) =
        some (if fromUrlBase = true then scannedPath base else directory (scannedPath base)) ∧
      (NetUri.setValue base.text).query = scannedQuery base := by
  obtain ⟨hpath, hquery⟩ := setValue_path_query hbase.wellFormed hscans
  refine ⟨?_, hquery⟩
  unfold keptPath
  split_ifs
  · exact hpath
  · exact stringSetValue_getUpnpBasePath hpath (scannedPath_cases hbase.wellFormed)

/-- A URL with the authority that is scanned from the base denotes the base with another path and
query if and only if the scanner finds the authority of the base. -/
theorem denotes_base_iff {url : NetUri} (hsame : SameAuthority url (NetUri.setValue base.text))
    (path : CString) (query : Option CString) :
    Denotes url { base with path := path, query := query } ↔
      AuthorityScans base ∧ url.path = some path ∧ url.query = query := by
  obtain ⟨authority, hauthority⟩ := Option.isSome_iff_exists.mp hbase.authority
  have hwf := hbase.wellFormed
  have hauthorityIff : AuthorityDenotes url { base with path := path, query := query } ↔
      AuthorityScans base :=
    (hsame.authorityDenotes_iff rfl rfl).trans (authorityDenotes_iff hwf hauthority)
  have hprotocol : url.protocol = some base.scheme := by
    rw [hsame.1]
    show (readProtocol base.text).1 = some base.scheme
    rw [readProtocol_text hwf hauthority]
  rw [← hauthorityIff]
  exact and_iff_right hprotocol

theorem resolves_relative_iff {path : CString} {query : Option CString}
    (hreference : IsServiceUrl (.relative path query)) {urlBase location : Option CString}
    (hgiven : chosenBase urlBase location = some base.text) :
    (∃ url, mangleAbsoluteUrl (some (path ++ queryText query)) urlBase location = some url ∧
        Denotes url ((UriReference.relative path query).resolve base)) ↔
      ResolvesAsWritten (decide (0 < strlen urlBase)) base (.relative path query) := by
  obtain ⟨hne, hpath, hquery, hdots, -, hsegment⟩ := hreference
  have hwf := hbase.wellFormed
  have htextNe : path ++ queryText query ≠ [] := List.append_ne_nil_of_left_ne_nil hne _
  have hhead : isAbsolutePath (path ++ queryText query) = true ↔ path.head? = some '/' := by
    rw [isAbsolutePath, beq_iff_eq, List.head?_append_of_ne_nil _ hne]
  rw [resolve_relative base hne]
  unfold ResolvesAsWritten
  by_cases hwithin : "://".toList <:+: path ++ queryText query
  · refine iff_of_false ?_ fun hwritten ↦ hwritten.1 hwithin
    rintro ⟨url, hurl, hprotocol, -⟩
    obtain ⟨habsolute, hscheme⟩ :=
      ne_scheme_of_infix hne hsegment hwithin hwf.scheme_ne_nil hwf.scheme
    rw [mangleAbsoluteUrl_absolute htextNe habsolute, Option.some.injEq] at hurl
    exact hscheme (hurl ▸ hprotocol)
  · obtain ⟨url, hurl, hsame, hurlPath, hurlQuery⟩ :=
      mangleAbsoluteUrl_relative htextNe hwithin hgiven (text_ne_nil hbase)
    rw [hurl]
    simp only [Option.some.injEq, exists_eq_left']
    rw [denotes_base_iff hbase hsame]
    have hread : ∀ read, (NetUri.setValue (path ++ queryText query)).path = some read →
        AuthorityScans base →
          url.path = some (pathPrefix (decide (0 < strlen urlBase)) base path ++ read) ∧
            url.query = stringSetValue (scannedQuery base)
              (NetUri.setValue (path ++ queryText query)).query := by
      intro read hread hscans
      obtain ⟨hkept, hkeptQuery⟩ := keptPath_setValue hbase hscans (decide (0 < strlen urlBase))
      rw [hurlPath, hurlQuery, hread, hkept, hkeptQuery]
      refine ⟨?_, rfl⟩
      unfold pathPrefix
      by_cases habsolute : path.head? = some '/'
      · rw [if_pos (hhead.mpr habsolute), if_pos habsolute]
        rfl
      · rw [if_neg fun h ↦ habsolute (hhead.mp h), if_neg habsolute, stringAddValue_some_some]
    obtain ⟨read, hsomeRead⟩ := exists_path_of_not_infix htextNe hwithin
    have hreference := setValue_reference hne hpath hquery hwithin
      (question_not_mem_pathPrefix hbase (decide (0 < strlen urlBase)) path)
      (question_not_mem_mergedPrefix hbase path) (scannedQuery base)
    refine ⟨fun h ↦ ⟨hwithin, h.1, ?_⟩, fun h ↦ ⟨h.2.1, ?_⟩⟩
    · obtain ⟨hscans, hresultPath, hresultQuery⟩ := h
      obtain ⟨hpathRead, hqueryRead⟩ := hread read hsomeRead hscans
      rw [hpathRead, Option.some.injEq] at hresultPath
      rw [hqueryRead] at hresultQuery
      have hmergedDots : HasNoDotSegment (mergedPrefix base path) := by
        refine @hasNoDotSegment_mergedPrefix base hbase (decide (0 < strlen urlBase)) path read ?_
        rw [hresultPath]
        exact hasNoDotSegment_removeDotSegments _
      rw [removeDotSegments_eq_self ((hasNoDotSegment_append (mergedPrefix_cases base path)).mpr
        ⟨hmergedDots, hdots⟩)] at hresultPath
      obtain ⟨hkept, hjoined⟩ := hreference.mp ⟨read, hsomeRead, hresultPath, hresultQuery⟩
      exact ⟨hkept, hmergedDots, hjoined⟩
    · obtain ⟨-, hscans, hkept, hmergedDots, hjoined⟩ := h
      obtain ⟨other, hother, happend, hresultQuery⟩ := hreference.mpr ⟨hkept, hjoined⟩
      obtain ⟨hpathRead, hqueryRead⟩ := hread other hother hscans
      rw [hpathRead, hqueryRead, happend, removeDotSegments_eq_self
        ((hasNoDotSegment_append (mergedPrefix_cases base path)).mpr ⟨hmergedDots, hdots⟩)]
      exact ⟨rfl, hresultQuery⟩

/-- An absolute URI with an authority is taken as it is scanned. -/
theorem resolves_uri_iff {target : Uri} (htarget : target.IsWellFormed)
    (hdots : HasNoDotSegment target.path) {urlBase location : Option CString}
    (hgiven : chosenBase urlBase location = some base.text) :
    (∃ url, mangleAbsoluteUrl (some target.text) urlBase location = some url ∧
        Denotes url ((UriReference.uri target).resolve base)) ↔
      ResolvesAsWritten (decide (0 < strlen urlBase)) base (.uri target) := by
  have htextNe : target.text ≠ [] := by
    unfold Uri.text
    exact List.append_ne_nil_of_left_ne_nil htarget.scheme_ne_nil _
  have hself : (UriReference.uri target).resolve base = target := by
    show { target with path := removeDotSegments target.path } = target
    rw [removeDotSegments_eq_self hdots]
  rw [hself]
  unfold ResolvesAsWritten
  cases hauthority : target.authority with
  | none =>
    refine iff_of_false ?_ fun hwritten ↦ by
      have hscans := hwritten.1
      unfold AuthorityScans at hscans
      rwa [hauthority] at hscans
    rintro ⟨url, hurl, hprotocol, hdenotes, -⟩
    unfold AuthorityDenotes at hdenotes
    rw [hauthority] at hdenotes
    have hhead : target.text.head? ≠ some ':' := by
      rw [Uri.text, List.head?_append_of_ne_nil _ htarget.scheme_ne_nil]
      exact fun hhead ↦ htarget.scheme.not_mem (by decide) (List.mem_of_mem_head? hhead)
    by_cases hwithin : "://".toList <:+: target.text
    · obtain ⟨before, after, hsplit, hbefore, hread⟩ := exists_protocol_of_infix hwithin hhead
      have habsolute : (NetUri.setValue target.text).isAbsolute = true := by
        show decide (0 < stringLength (readProtocol target.text).1) = true
        rw [hread, decide_eq_true_eq]
        exact List.length_pos_iff.mpr hbefore
      rw [mangleAbsoluteUrl_absolute htextNe habsolute, Option.some.injEq] at hurl
      rw [← hurl] at hprotocol
      have hscheme : (readProtocol target.text).1 = some target.scheme := hprotocol
      rw [hread, Option.some.injEq] at hscheme
      exact text_ne_of_opaque htarget hauthority after (hscheme ▸ hsplit)
    · obtain ⟨other, hother, hsame, -⟩ :=
        mangleAbsoluteUrl_relative htextNe hwithin hgiven (text_ne_nil hbase)
      obtain ⟨authority, hbaseAuthority⟩ := Option.isSome_iff_exists.mp hbase.authority
      have hsome : (NetUri.setValue base.text).host.isSome = true := by
        refine isSome_host_of_isSome_protocol ?_
        rw [readProtocol_text hbase.wellFormed hbaseAuthority]
        rfl
      rw [hother, Option.some.injEq] at hurl
      rw [← hsame.2.2.2.1, hurl, hdenotes] at hsome
      cases hsome
  | some authority =>
    have habsolute : (NetUri.setValue target.text).isAbsolute = true := by
      show decide (0 < stringLength (readProtocol target.text).1) = true
      rw [readProtocol_text htarget hauthority, decide_eq_true_eq]
      exact List.length_pos_iff.mpr htarget.scheme_ne_nil
    have hprotocol : (NetUri.setValue target.text).protocol = some target.scheme := by
      show (readProtocol target.text).1 = some target.scheme
      rw [readProtocol_text htarget hauthority]
    rw [mangleAbsoluteUrl_absolute htextNe habsolute]
    constructor
    · rintro ⟨url, hurl, -, hdenotes, hpath, hquery⟩
      rw [← Option.some.inj hurl] at hdenotes hpath hquery
      have hscans := (authorityDenotes_iff htarget hauthority).mp hdenotes
      obtain ⟨hscannedPath, hscannedQuery⟩ := setValue_path_query htarget hscans
      rw [hscannedPath, Option.some.injEq] at hpath
      rw [hscannedQuery] at hquery
      exact ⟨hscans, (scanned_iff htarget (by rw [hauthority]; rfl)).mp ⟨hpath, hquery⟩⟩
    · rintro ⟨hscans, hwhole⟩
      obtain ⟨hscannedPath, hscannedQuery⟩ := setValue_path_query htarget hscans
      obtain ⟨hpath, hquery⟩ := (scanned_iff htarget (by rw [hauthority]; rfl)).mpr hwhole
      refine ⟨_, rfl, hprotocol, (authorityDenotes_iff htarget hauthority).mpr hscans, ?_, ?_⟩
      · rw [hscannedPath, hpath]
      · rw [hscannedQuery, hquery]

end prefixes

/-- The URL of a service is the resolution of its reference exactly under `ResolvesAsWritten`. -/
theorem mangleAbsoluteUrl_resolves_iff {base : Uri} (hbase : IsHttpUri base)
    {reference : UriReference} (hreference : IsServiceUrl reference)
    {urlBase location : Option CString} (hgiven : chosenBase urlBase location = some base.text) :
    (∃ url, mangleAbsoluteUrl (some reference.text) urlBase location = some url ∧
        Denotes url (reference.resolve base)) ↔
      ResolvesAsWritten (decide (0 < strlen urlBase)) base reference := by
  cases reference with
  | uri target => exact resolves_uri_iff hbase hreference.1 hreference.2 hgiven
  | relative path query => exact resolves_relative_iff hbase hreference hgiven

/-- The description at `http://192.168.0.2:8080/dev/description.xml`. -/
def sampleBase : Uri :=
  ⟨"http".toList, some ⟨none, "192.168.0.2".toList, some "8080".toList⟩,
    "/dev/description.xml".toList, none⟩

theorem isHttpUri_sampleBase : IsHttpUri sampleBase := by
  have hauthority : UriAuthority.IsWellFormed ⟨none, "192.168.0.2".toList, some "8080".toList⟩ := by
    refine ⟨by simp, Or.inl ⟨by decide, by decide⟩, ?_⟩
    intro port hport
    rw [← Option.some.inj hport]
    decide
  refine ⟨⟨by decide, by decide, ?_, by decide, fun _ ↦
    Or.inr (by decide), ?_, by simp [sampleBase]⟩,
    rfl, by decide⟩
  · intro authority hsome
    rw [← Option.some.inj hsome]
    exact hauthority
  · intro hnone
    cases hnone

/-- The relative path `control`. -/
def sampleReference (query : Option CString) : UriReference := .relative "control".toList query

theorem isServiceUrl_sampleReference {query : Option CString}
    (hquery : ∀ text ∈ query, IsUriText "#[]" text) : IsServiceUrl (sampleReference query) :=
  ⟨by decide, by decide, hquery, by decide, by decide, fun _ ↦ by decide⟩

/-- A relative path with a query, behind the directory of a location. -/
theorem mangleAbsoluteUrl_resolves_location :
    ∃ url, mangleAbsoluteUrl (some (sampleReference (some "id=1".toList)).text) none
        (some sampleBase.text) = some url ∧
      Denotes url ((sampleReference (some "id=1".toList)).resolve sampleBase) := by
  have hquery : ∀ text ∈ some "id=1".toList, IsUriText "#[]" text := by
    intro text htext
    rw [← Option.some.inj htext]
    decide
  have hgiven : chosenBase none (some sampleBase.text) = some sampleBase.text := if_neg (by decide)
  have hwritten : ResolvesAsWritten (decide (0 < strlen none)) sampleBase
      (sampleReference (some "id=1".toList)) := by
    unfold sampleReference ResolvesAsWritten
    refine ⟨by decide +kernel, by decide +kernel, ?_, by decide +kernel, by decide +kernel⟩
    exact fun hnone ↦ absurd hnone (Option.some_ne_none _)
  exact (mangleAbsoluteUrl_resolves_iff isHttpUri_sampleBase (isServiceUrl_sampleReference hquery)
    hgiven).mpr hwritten

/-- The same path behind a `URLBase` that names a file. -/
theorem not_mangleAbsoluteUrl_resolves :
    ¬ ∀ (base : Uri) (reference : UriReference) (urlBase location : Option CString),
      IsHttpUri base → IsServiceUrl reference → chosenBase urlBase location = some base.text →
        ∃ url, mangleAbsoluteUrl (some reference.text) urlBase location = some url ∧
          Denotes url (reference.resolve base) := by
  intro h
  have hquery : ∀ text ∈ (none : Option CString), IsUriText "#[]" text :=
    fun text htext ↦ by cases htext
  have hgiven : chosenBase (some sampleBase.text) none = some sampleBase.text := if_pos (by decide)
  obtain ⟨url, hurl, -, -, hpath, -⟩ := h sampleBase (sampleReference none) (some sampleBase.text)
    none isHttpUri_sampleBase (isServiceUrl_sampleReference hquery) hgiven
  have hcomputed : (mangleAbsoluteUrl (some (sampleReference none).text) (some sampleBase.text)
      none).bind NetUri.path = some "/dev/description.xmlcontrol".toList := by decide +kernel
  have hresolved : ((sampleReference none).resolve sampleBase).path = "/dev/control".toList := by
    decide +kernel
  rw [hurl, Option.bind_some, hpath, hresolved] at hcomputed
  exact absurd hcomputed (by decide)

end Mupnp.Service
