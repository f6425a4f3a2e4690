import Mupnp.Event.NotifyDelivery
import Mupnp.Net.AddressScan
import Mupnp.Service.UrlResolution

/-!
# The delivery target of a subscriber

The value of the header `CALLBACK` is a sequence of URLs, each in angle brackets, and a
notification should go to the first of them. The device drops the outer brackets only, reads what
is left as one URL, and posts to its path without a query. So the first URL is the target when it
is the only one and consists of parts that the scanner finds, with a path and without a query; or
when a later URL has an at sign behind which the address and the path of the first URL happen to
stand once more (`posts_addressed_iff`).
-/

set_option autoImplicit false
set_option relaxedAutoImplicit false

namespace Mupnp.Event

open Foundation Http Net Service Util

/-- The value of a header `CALLBACK` with a list of URLs. -/
def callbackText (urls : List Uri) : CString := urls.flatMap fun url ↦ '<' :: (url.text ++ ['>'])

/-- What stands behind the first URL when the outer brackets are dropped. -/
def laterText (others : List Uri) : CString := others.flatMap fun url ↦ '>' :: '<' :: url.text

/-- The path of a URL in a request, without the query. -/
def requestPath (url : Uri) : CString := if url.path = [] then ['/'] else url.path

/-- A posting goes to the host, the port and the request target of a URL. -/
def IsAddressedTo (post : NotifyPost) (url : Uri) : Prop :=
  post.ipaddr = url.authority.map (fun authority ↦ withoutBrackets authority.host) ∧
    post.port = portNumber url.scheme (url.authority.bind UriAuthority.port) ∧
    post.request.uri = some (requestPath url ++ queryText url.query)

/-- The scanner finds the parts of a URL that stands alone: no at sign is taken for the end of a
user, an address in brackets has a port, the port is read, and there is a path. -/
def IsScanned (url : Uri) : Prop :=
  url.path ≠ [] ∧ ∃ authority, url.authority = some authority ∧ UserScans authority url.path ∧
    (authority.port.isSome = true ∨ withoutBrackets authority.host = authority.host) ∧
    PortScans url.scheme authority.port

/-- The first at sign stands in a later URL, and behind it the address and the path of the first URL
stand again. -/
def IsRepeated (first : Uri) (others : List Uri) : Prop :=
  '@' ∉ first.path ∧ ∃ authority, first.authority = some authority ∧ authority.userinfo = none ∧
    ∃ before after, laterText others = before ++ '@' :: after ∧ '@' ∉ before ∧
      ReadsAs first.scheme after (withoutBrackets authority.host)
        (portNumber first.scheme authority.port) (requestPath first)

/-! ### The text that is scanned -/

theorem isUriChar_of_mem_text {url : Uri} (h : url.IsWellFormed) {c : Char} (hc : c ∈ url.text) :
    isUriChar c = true := by
  have hquery : ∀ c ∈ queryText url.query, isUriChar c = true := by
    intro c hc
    cases hurlQuery : url.query with
    | none =>
      rw [hurlQuery] at hc
      cases hc
    | some query =>
      rw [hurlQuery, queryText, Option.elim_some] at hc
      rcases List.mem_cons.mp hc with rfl | hmem
      · decide
      · exact (h.query query hurlQuery c hmem).1
  have hauthority : ∀ authority ∈ url.authority, ∀ c ∈ authority.text, isUriChar c = true := by
    intro authority hurlAuthority c hc
    have hwf := h.authority authority hurlAuthority
    rcases List.mem_append.mp hc with huser | hhostPort
    · cases huserinfo : authority.userinfo with
      | none =>
        rw [huserinfo] at huser
        cases huser
      | some userinfo =>
        rw [huserinfo, userinfoText, Option.elim_some] at huser
        rcases List.mem_append.mp huser with hmem | hat
        · exact (hwf.userinfo userinfo huserinfo c hmem).1
        · rw [List.mem_singleton.mp hat]
          decide
    · rcases List.mem_append.mp hhostPort with hhost | hport
      · rcases hwf.host with ⟨-, htext⟩ | ⟨address, heq, htext⟩
        · exact (htext c hhost).1
        · rw [heq, List.mem_cons, List.mem_append, List.mem_singleton] at hhost
          rcases hhost with rfl | hmem | rfl
          · decide
          · exact (htext c hmem).1
          · decide
      · cases hurlPort : authority.port with
        | none =>
          rw [hurlPort] at hport
          cases hport
        | some digits =>
          rw [hurlPort, portText, Option.elim_some] at hport
          rcases List.mem_cons.mp hport with rfl | hmem
          · decide
          · have hdigit := hwf.port digits hurlPort c hmem
            simp [isUriChar, Char.isAlphanum, hdigit]
  unfold Uri.text at hc
  simp only [List.mem_append, List.mem_cons] at hc
  rcases hc with hscheme | rfl | hslashes | hpath | hmem
  · exact (h.scheme c hscheme).1
  · decide
  · cases hurlAuthority : url.authority with
    | none =>
      rw [hurlAuthority] at hslashes
      cases hslashes
    | some authority =>
      rw [hurlAuthority, Option.elim_some, List.mem_cons, List.mem_cons] at hslashes
      rcases hslashes with rfl | rfl | hmem
      · decide
      · decide
      · exact hauthority authority hurlAuthority c hmem
  · exact (h.path c hpath).1
  · exact hquery c hmem

theorem uriText_ne_nil {url : Uri} (h : url.IsWellFormed) : url.text ≠ [] :=
  List.append_ne_nil_of_left_ne_nil h.scheme_ne_nil _

theorem callbackText_cons (first : Uri) (others : List Uri) :
    callbackText (first :: others) = '<' :: (first.text ++ laterText others ++ ['>']) := by
  induction others generalizing first with
  | nil => simp [callbackText, laterText]
  | cons url rest ih =>
    have hrest := ih url
    have hfirst : callbackText (first :: url :: rest) =
        '<' :: (first.text ++ ['>'] ++ callbackText (url :: rest)) := by simp [callbackText]
    rw [hfirst, hrest]
    simp [laterText]

/-- The last character of a sequence of URLs belongs to a URL. -/
theorem isUriChar_getLast {first : Uri} {others : List Uri} (hfirst : first.IsWellFormed)
    (hothers : ∀ url ∈ others, url.IsWellFormed) {c : Char}
    (hc : (first.text ++ laterText others).getLast? = some c) : isUriChar c = true := by
  induction others generalizing first with
  | nil =>
    rw [laterText, List.flatMap_nil, List.append_nil] at hc
    exact isUriChar_of_mem_text hfirst (List.mem_of_mem_getLast? hc)
  | cons url rest ih =>
    have hurl := hothers url List.mem_cons_self
    have hlater : laterText (url :: rest) = ['>', '<'] ++ (url.text ++ laterText rest) := rfl
    have hne : url.text ++ laterText rest ≠ [] :=
      List.append_ne_nil_of_left_ne_nil (uriText_ne_nil hurl) _
    rw [hlater, ← List.append_assoc, List.getLast?_append_of_ne_nil _ hne] at hc
    exact ih hurl (fun other hother ↦ hothers other (List.mem_cons_of_mem _ hother)) hc

/-- Only the outer brackets of the header are dropped. -/
theorem trimmed_callbackText {first : Uri} {others : List Uri} (hfirst : first.IsWellFormed)
    (hothers : ∀ url ∈ others, url.IsWellFormed) :
    strrtrim (strltrim (callbackText (first :: others)) "<".toList) ">".toList =
      first.text ++ laterText others := by
  have hleft : strltrim (callbackText (first :: others)) "<".toList =
      first.text ++ laterText others ++ ['>'] := by
    obtain ⟨c, rest, htext⟩ := List.exists_cons_of_ne_nil (uriText_ne_nil hfirst)
    have hc : isUriChar c = true :=
      isUriChar_of_mem_text hfirst (by rw [htext]; exact List.mem_cons_self)
    have hopen : c ≠ '<' := by
      rintro rfl
      exact absurd hc (by decide)
    rw [callbackText_cons, strltrim, List.dropWhile_cons_of_pos (by decide), htext]
    exact List.dropWhile_cons_of_neg (by simpa using hopen)
  rw [hleft]
  refine strrtrim_append (by decide) fun c hc ↦ ?_
  have hlast := isUriChar_getLast hfirst hothers hc
  rw [← Bool.not_eq_true]
  intro hclose
  have heq : c = '>' := by simpa using hclose
  rw [heq] at hlast
  exact absurd hlast (by decide)

/-! ### What is read behind the user -/

section Read

variable {first : Uri} (hfirst : first.IsWellFormed) {authority : UriAuthority}
  (hauthority : first.authority = some authority)

include hfirst hauthority

theorem exists_requestPath : ∃ rest, requestPath first = '/' :: rest := by
  unfold requestPath
  split_ifs with hnil
  · exact ⟨[], rfl⟩
  · have habsolute := hfirst.path_absolute (by rw [hauthority]; rfl)
    exact List.head?_eq_some_iff.mp (habsolute.resolve_left hnil)

theorem isUriChar_of_mem_host {c : Char} (hc : c ∈ withoutBrackets authority.host) :
    isUriChar c = true := by
  refine isUriChar_of_mem_text hfirst ?_
  have hhost := mem_of_mem_withoutBrackets hc
  unfold Uri.text UriAuthority.text
  rw [hauthority]
  simp [hhost]

omit hauthority in
theorem isPathChar_of_mem_requestPath : ∀ c ∈ requestPath first, isPathChar c = true := by
  intro c hc
  unfold requestPath at hc
  split_ifs at hc
  · rw [List.mem_singleton.mp hc]
    decide
  · rw [isPathChar, decide_eq_true_eq]
    exact ⟨ne_of_mem_of_not_mem hc (hfirst.path.not_mem (by decide)),
      ne_of_mem_of_not_mem hc (hfirst.path.not_mem (by decide))⟩

variable {others : List Uri} (hothers : ∀ url ∈ others, IsHttpUri url)

omit hfirst hauthority in
include hothers in
/-- A later URL starts with its brackets and its scheme. -/
theorem exists_laterText (hne : others ≠ []) :
    ∃ scheme rest, laterText others = '>' :: '<' :: (scheme ++ ':' :: '/' :: '/' :: rest) ∧
      '/' ∉ scheme := by
  obtain ⟨url, later, rfl⟩ := List.exists_cons_of_ne_nil hne
  have hurl := hothers url List.mem_cons_self
  obtain ⟨urlAuthority, hurlAuthority⟩ := Option.isSome_iff_exists.mp hurl.authority
  refine ⟨url.scheme, urlAuthority.text ++ (url.path ++ queryText url.query) ++ laterText later, ?_,
    hurl.wellFormed.scheme.not_mem (by decide)⟩
  have hlater : laterText (url :: later) = '>' :: '<' :: (url.text ++ laterText later) := rfl
  rw [hlater, Uri.text, hurlAuthority]
  simp

include hothers in
/-- Behind a user that is found, the first URL is read when it is the only one and its parts are
found. -/
theorem readsAs_hostPortText_iff :
    ReadsAs first.scheme (hostPortText authority ++ (first.path ++ laterText others))
        (withoutBrackets authority.host) (portNumber first.scheme authority.port)
        (requestPath first) ↔
      others = [] ∧ first.path ≠ [] ∧
        (authority.port.isSome = true ∨ withoutBrackets authority.host = authority.host) ∧
        PortScans first.scheme authority.port := by
  have hwf := hfirst.authority authority hauthority
  have hslash : '/' ∉ hostPortText authority := hostPortText_not_mem hwf (by decide)
  have hquery : IsQueryFront [] := ⟨fun c hc ↦ (by cases hc), List.not_mem_nil⟩
  obtain ⟨hhostRead, hportRead⟩ :=
    splitPort_hostPortText hwf first.scheme hquery (Or.inl rfl)
  rw [List.append_nil] at hhostRead hportRead
  obtain ⟨hdecode, -⟩ := isHost_withoutBrackets hwf.host
  have hbrackets : decodeZone (splitPort (some first.scheme) (some (hostPortText authority))).1 =
        some (withoutBrackets authority.host) ↔
      authority.port.isSome = true ∨ withoutBrackets authority.host = authority.host := by
    rw [hhostRead]
    split_ifs with hsome
    · exact iff_of_true hdecode (Or.inl hsome)
    · rw [isHost_decodeZone hwf.host, Option.some.injEq, eq_comm, or_iff_right hsome]
  constructor
  · rintro ⟨hostPort, behind, htext, -, hnot, hbehind, hhost, hport⟩
    by_cases hnil : first.path = []
    · have hpath : requestPath first = ['/'] := if_pos hnil
      rw [hnil, hpath, List.nil_append] at htext
      by_cases hlater : others = []
      · rw [hlater, laterText, List.flatMap_nil, List.append_nil] at htext
        rw [htext] at hslash
        exact absurd (List.mem_append_right _ List.mem_cons_self) hslash
      · obtain ⟨scheme, rest, hrest, hscheme⟩ := exists_laterText hothers hlater
        have hfront : '/' ∉ hostPortText authority ++ '>' :: '<' :: (scheme ++ [':']) := by
          simp [hslash, hscheme]
        have heq : (hostPortText authority ++ '>' :: '<' :: (scheme ++ [':'])) ++
            '/' :: '/' :: rest = hostPort ++ '/' :: behind := by
          rw [hrest] at htext
          simpa using htext
        have hsame := (append_cons_inj_of_not_mem hfront hnot heq).2
        have hstop := hbehind '/' (by rw [← hsame]; rfl)
        exact absurd hstop (by decide)
    · have hpath : requestPath first = first.path := if_neg hnil
      obtain ⟨rest, hrest⟩ := exists_requestPath hfirst hauthority
      rw [hpath] at htext hrest
      rw [hrest] at htext
      obtain ⟨rfl, hsame⟩ := append_cons_inj_of_not_mem hslash hnot htext
      have hlaterText := List.append_cancel_left hsame
      have hlater : others = [] := by
        by_contra hlater
        obtain ⟨scheme, later, hlaterEq, -⟩ := exists_laterText hothers hlater
        have hstop := hbehind '>' (by rw [← hlaterText, hlaterEq]; rfl)
        exact absurd hstop (by decide)
      exact ⟨hlater, hnil, hbrackets.mp hhost, hportRead.mp hport⟩
  · rintro ⟨rfl, hne, hhost, hport⟩
    refine ⟨hostPortText authority, [], ?_, hostPortText_ne_nil hwf, hslash,
      fun c hc ↦ (by cases hc), hbrackets.mpr hhost, hportRead.mpr hport⟩
    rw [requestPath, if_neg hne]
    rfl

/-- An at sign in front of everything stays in the host. -/
theorem not_readsAs_at (text : CString) (port : ℤ) (path : CString) :
    ¬ ReadsAs first.scheme ('@' :: text) (withoutBrackets authority.host) port path := by
  rintro ⟨hostPort, behind, htext, hne, -, -, hhost, -⟩
  obtain ⟨c, rest, rfl⟩ := List.exists_cons_of_ne_nil hne
  obtain ⟨rfl, -⟩ := List.cons.inj htext
  have hmem : '@' ∈ withoutBrackets authority.host :=
    @mem_host_of_mem [] rest _ '@' _ (by decide) (Or.inl List.not_mem_nil) hhost
  exact isHost_not_mem (hfirst.authority authority hauthority).host (by decide)
    (mem_of_mem_withoutBrackets hmem)

include hothers in
/-- Behind an at sign of its own path the first URL is not read. -/
theorem not_readsAs_path {before after : CString} (hpath : first.path = before ++ '@' :: after)
    (port : ℤ) :
    ¬ ReadsAs first.scheme (after ++ laterText others) (withoutBrackets authority.host) port
        (requestPath first) := by
  rintro ⟨hostPort, behind, htext, -, hnot, -, hhost, -⟩
  have hne : first.path ≠ [] := by
    rw [hpath]
    exact List.append_ne_nil_of_right_ne_nil _ (List.cons_ne_nil _ _)
  have hrequest : requestPath first = first.path := if_neg hne
  obtain ⟨pathRest, hpathRest⟩ := exists_requestPath hfirst hauthority
  rw [hrequest] at htext hpathRest
  have hlength : after.length < first.path.length := by
    rw [hpath, List.length_append, List.length_cons]
    omega
  have hclose : '>' ∉ first.path := fun hmem ↦
    absurd (hfirst.path '>' hmem).1 (by decide)
  by_cases hlater : others = []
  · rw [hlater, laterText, List.flatMap_nil, List.append_nil] at htext
    have hsum := congrArg List.length htext
    rw [List.length_append, List.length_append] at hsum
    omega
  · obtain ⟨scheme, rest, hlaterEq, hscheme⟩ := exists_laterText hothers hlater
    rcases List.append_eq_append_iff.mp htext with ⟨front, hfront, hback⟩ | ⟨front, hfront, hback⟩
    · have hcolon : '/' ∉ '>' :: '<' :: (scheme ++ [':']) := by simp [hscheme]
      have hfrontNot : '/' ∉ front := fun hmem ↦ hnot (hfront ▸ List.mem_append_right _ hmem)
      have heq : ('>' :: '<' :: (scheme ++ [':'])) ++ '/' :: '/' :: rest =
          front ++ '/' :: (pathRest ++ behind) := by
        rw [hlaterEq, hpathRest] at hback
        simpa using hback
      obtain ⟨rfl, -⟩ := append_cons_inj_of_not_mem hcolon hfrontNot heq
      rw [hfront] at hhost
      have hmem := mem_host_of_mem (by decide) (Or.inr (by simp)) hhost
      exact absurd (isUriChar_of_mem_host hfirst hauthority hmem) (by decide)
    · have hfrontLength := congrArg List.length hfront
      rw [List.length_append] at hfrontLength
      rcases List.append_eq_append_iff.mp hback with ⟨back, hback, -⟩ | ⟨back, hback, hlaterBack⟩
      · have hbackLength := congrArg List.length hback
        rw [List.length_append] at hbackLength
        omega
      · cases back with
        | nil =>
          have hbackLength := congrArg List.length hback
          rw [List.append_nil] at hbackLength
          omega
        | cons c back =>
          rw [hlaterEq] at hlaterBack
          refine hclose ?_
          rw [hback, (List.cons.inj hlaterBack).1]
          exact List.mem_append_right _ List.mem_cons_self

end Read

/-! ### Which URL is the target -/

/-- The condition under which notifications go to the first of the URLs. -/
def ReachesFirst (first : Uri) (others : List Uri) : Prop :=
  first.query = none ∧ (others = [] ∧ IsScanned first ∨ IsRepeated first others)

section Target

variable {first : Uri} {others : List Uri} (hfirst : IsHttpUri first)
  (hothers : ∀ url ∈ others, IsHttpUri url)

include hfirst hothers

/-- An at sign behind an authority without a user is taken for the end of one. -/
theorem readsAs_readUser_at_iff {authority : UriAuthority}
    (hauthority : first.authority = some authority) (hnone : authority.userinfo = none)
    (hat : '@' ∈ first.path ++ laterText others) :
    ReadsAs first.scheme (readUser (authority.text ++ (first.path ++ laterText others))).2.2
        (withoutBrackets authority.host) (portNumber first.scheme authority.port)
        (requestPath first) ↔
      IsRepeated first others := by
  have hurl := hfirst.wellFormed
  have hwf := hurl.authority authority hauthority
  have htext : authority.text = hostPortText authority := by
    rw [UriAuthority.text, hnone]
    rfl
  have hread : ∀ before after, '@' ∉ before →
      (readUser (hostPortText authority ++ (before ++ '@' :: after))).2.2 = after := by
    intro before after hbefore
    have hfront : '@' ∉ hostPortText authority ++ before := by
      rw [List.mem_append, not_or]
      exact ⟨hostPortText_not_mem hwf (by decide), hbefore⟩
    obtain ⟨user, password, huser, -⟩ := readUser_append_at
      (List.append_ne_nil_of_left_ne_nil (hostPortText_ne_nil hwf) before) hfront after
    rw [← List.append_assoc, huser]
  rw [htext]
  by_cases hpath : '@' ∈ first.path
  · obtain ⟨before, after, hsplit, hbefore⟩ := List.eq_append_cons_of_mem hpath
    have hwhole : first.path ++ laterText others =
        before ++ '@' :: (after ++ laterText others) := by
      rw [hsplit]
      simp
    rw [hwhole, hread before _ hbefore]
    exact iff_of_false (not_readsAs_path hurl hauthority hothers hsplit _) fun h ↦ h.1 hpath
  · have hlater := (List.mem_append.mp hat).resolve_left hpath
    obtain ⟨before, after, hsplit, hbefore⟩ := List.eq_append_cons_of_mem hlater
    have hnot : '@' ∉ first.path ++ before := by
      rw [List.mem_append, not_or]
      exact ⟨hpath, hbefore⟩
    rw [hsplit, ← List.append_assoc first.path, hread _ _ hnot]
    constructor
    · intro hreads
      exact ⟨hpath, authority, hauthority, hnone, before, after, hsplit, hbefore, hreads⟩
    · rintro ⟨-, authority', hauthority', -, before', after', hsplit', hbefore', hreads⟩
      obtain rfl : authority = authority' := Option.some.inj (hauthority.symm.trans hauthority')
      rw [hsplit] at hsplit'
      obtain ⟨-, rfl⟩ := append_cons_inj_of_not_mem hbefore hbefore' hsplit'
      exact hreads

theorem readsAs_readUser_iff {authority : UriAuthority}
    (hauthority : first.authority = some authority) :
    ReadsAs first.scheme (readUser (authority.text ++ (first.path ++ laterText others))).2.2
        (withoutBrackets authority.host) (portNumber first.scheme authority.port)
        (requestPath first) ↔
      others = [] ∧ IsScanned first ∨ IsRepeated first others := by
  have hurl := hfirst.wellFormed
  have hwf := hurl.authority authority hauthority
  have hhostPort := readsAs_hostPortText_iff hurl hauthority hothers
  by_cases huser : UserScans authority (first.path ++ laterText others)
  · obtain ⟨user, password, hread, -⟩ := readUser_authority hwf huser
    have hrepeated : ¬ IsRepeated first others := by
      rintro ⟨-, authority', hauthority', hnone, before, after, hlater, -⟩
      obtain rfl : authority = authority' := Option.some.inj (hauthority.symm.trans hauthority')
      rw [UserScans, hnone] at huser
      refine huser (List.mem_append_right _ ?_)
      rw [hlater]
      exact List.mem_append_right _ List.mem_cons_self
    rw [hread, hhostPort, or_iff_left hrepeated]
    constructor
    · rintro ⟨rfl, hpath, hbrackets, hport⟩
      rw [laterText, List.flatMap_nil, List.append_nil] at huser
      exact ⟨rfl, hpath, authority, hauthority, huser, hbrackets, hport⟩
    · rintro ⟨rfl, hpath, authority', hauthority', -, hbrackets, hport⟩
      obtain rfl : authority = authority' := Option.some.inj (hauthority.symm.trans hauthority')
      exact ⟨rfl, hpath, hbrackets, hport⟩
  · cases huserinfo : authority.userinfo with
    | none =>
      rw [UserScans, huserinfo, not_not] at huser
      have hscanned : ¬ (others = [] ∧ IsScanned first) := by
        rintro ⟨rfl, -, authority', hauthority', hscans, -⟩
        obtain rfl : authority = authority' := Option.some.inj (hauthority.symm.trans hauthority')
        rw [UserScans, huserinfo] at hscans
        rw [laterText, List.flatMap_nil, List.append_nil] at huser
        exact hscans huser
      rw [readsAs_readUser_at_iff hfirst hothers hauthority huserinfo huser, or_iff_right hscanned]
    | some userinfo =>
      rw [UserScans, huserinfo, not_not] at huser
      have htext : authority.text = '@' :: hostPortText authority := by
        rw [UriAuthority.text, huserinfo, huser]
        rfl
      rw [htext, List.cons_append, readUser_cons_at]
      refine iff_of_false (not_readsAs_at hurl hauthority _ _ _) ?_
      rintro (⟨-, -, authority', hauthority', hscans, -⟩ | ⟨-, authority', hauthority', hnone, -⟩)
      · obtain rfl : authority = authority' := Option.some.inj (hauthority.symm.trans hauthority')
        rw [UserScans, huserinfo] at hscans
        exact hscans huser
      · obtain rfl : authority = authority' := Option.some.inj (hauthority.symm.trans hauthority')
        rw [huserinfo] at hnone
        cases hnone

/-- Whatever happens to a subscriber, every notification that is sent to it is addressed to the
first URL of its header `CALLBACK`, exactly when the first URL has no query and either stands alone
and is taken apart, or is repeated behind an at sign of a later one. -/
theorem posts_addressed_iff (userAgent server sid : CString) (timeout now : ℤ) :
    (∀ actions, ∀ post ∈ DeliverySubscriber.posts userAgent server
        (DeliverySubscriber.newSubscription (callbackText (first :: others)) sid timeout now)
        actions, IsAddressedTo post first) ↔
      ReachesFirst first others := by
  have hurl := hfirst.wellFormed
  obtain ⟨authority, hauthority⟩ := Option.isSome_iff_exists.mp hfirst.authority
  unfold IsAddressedTo ReachesFirst
  rw [DeliverySubscriber.posts_forall_iff, DeliverySubscriber.newSubscription]
  simp only
  rw [trimmed_callbackText hurl fun url hmem ↦ (hothers url hmem).wellFormed, hauthority]
  have htext : first.text ++ laterText others = first.scheme ++ ':' :: '/' :: '/' ::
      (authority.text ++ (first.path ++ queryText first.query ++ laterText others)) := by
    rw [Uri.text, hauthority]
    simp
  rw [htext, Option.map_some, Option.bind_some]
  have hcolon : ':' ∉ first.scheme := hurl.scheme.not_mem (by decide)
  cases hquery : first.query with
  | none =>
    obtain ⟨rest, hrest⟩ := exists_requestPath hurl hauthority
    rw [queryText, Option.elim_none, List.append_nil, List.append_nil,
      setValue_readsAs_iff hurl.scheme_ne_nil hcolon (by rw [hrest]; rfl)
        (isPathChar_of_mem_requestPath hurl),
      readsAs_readUser_iff hfirst hothers hauthority, eq_self_iff_true, true_and]
  | some query =>
    refine iff_of_false ?_ fun h ↦ (by cases h.1)
    rintro ⟨-, -, hpath⟩
    have hchar := isPathChar_of_mem_path hurl.scheme_ne_nil hcolon hpath
      (List.mem_append_right _ (List.mem_cons_self (a := '?')))
    exact absurd hchar (by decide)

end Target

/-- A URL with a port, a path and perhaps a query. -/
def eventsUrl (query : Option CString) : Uri :=
  ⟨"http".toList, some ⟨none, "192.168.0.5".toList, some "5000".toList⟩, "/events".toList, query⟩

theorem isHttpUri_eventsUrl {query : Option CString}
    (hquery : ∀ text ∈ query, IsUriText "#[]" text) : IsHttpUri (eventsUrl query) := by
  have hauthority : UriAuthority.IsWellFormed ⟨none, "192.168.0.5".toList, some "5000".toList⟩ := by
    refine ⟨by simp, Or.inl ⟨by decide, by decide⟩, ?_⟩
    intro port hport
    rw [← Option.some.inj hport]
    decide
  refine ⟨⟨?_, ?_, ?_, ?_, fun _ ↦ Or.inr rfl, fun hnone ↦ (by cases hnone), hquery⟩, rfl, ?_⟩
  · show "http".toList ≠ []
    decide
  · show IsUriText ":/?#[]@" "http".toList
    decide
  · intro authority hsome
    rw [← Option.some.inj hsome]
    exact hauthority
  · show IsUriText "?#[]" "/events".toList
    decide
  · show "http".toList.map Char.toLower = "http".toList
    decide

theorem posts_addressed_iff_events :
    (∀ actions, ∀ post ∈ DeliverySubscriber.posts [] []
        (DeliverySubscriber.newSubscription (callbackText [eventsUrl none]) [] 300 0)
        actions, IsAddressedTo post (eventsUrl none)) ↔
      ReachesFirst (eventsUrl none) [] :=
  posts_addressed_iff (isHttpUri_eventsUrl fun text htext ↦ by cases htext)
    (fun url hmem ↦ by cases hmem) [] [] [] 300 0

/-- A notification for `http://192.168.0.5:5000/events?id=1` is posted without the query. -/
theorem not_posts_addressed :
    ¬ ∀ (first : Uri) (others : List Uri), IsHttpUri first → (∀ url ∈ others, IsHttpUri url) →
      ∀ (userAgent server sid : CString) (timeout now : ℤ) (actions : List DeliveryAction),
        ∀ post ∈ DeliverySubscriber.posts userAgent server
          (DeliverySubscriber.newSubscription (callbackText (first :: others)) sid timeout now)
          actions, IsAddressedTo post first := by
  intro haddressed
  have hurl : IsHttpUri (eventsUrl (some "id=1".toList)) := isHttpUri_eventsUrl fun text htext ↦ by
    rw [← Option.some.inj htext]
    decide
  obtain ⟨post, hpost⟩ := DeliverySubscriber.exists_mem_step [] []
    (DeliverySubscriber.newSubscription (callbackText [eventsUrl (some "id=1".toList)]) [] 300 0)
  obtain ⟨-, -, htarget⟩ := haddressed (eventsUrl (some "id=1".toList)) [] hurl
    (fun url hmem ↦ by cases hmem) [] [] [] 300 0 [.notify none none 200 200] post
    (List.mem_append_left _ hpost)
  obtain ⟨-, -, hposted⟩ := DeliverySubscriber.address_of_mem_step [] [] hpost
  have hpath : (DeliverySubscriber.newSubscription (callbackText [eventsUrl (some "id=1".toList)])
      [] 300 0).deliveryUrl.path = some "/events".toList := by decide +kernel
  rw [htarget, hpath] at hposted
  exact absurd hposted (by decide)

end Mupnp.Event
