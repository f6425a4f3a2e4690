import Mupnp.Net.AuthorityScan

/-!
# Which URIs are taken apart into their components

The components of an absolute URI, with a fragment and with the user and the password apart, and the
exact condition under which setting a URI from its text gives these components back
(`recovers_iff`). An at sign behind an authority without a user, a query or a fragment right behind
the authority, and an address in brackets without a port are not taken apart.
-/

set_option autoImplicit false
set_option relaxedAutoImplicit false

namespace Mupnp.Net

open Foundation Util

/-- The components of `scheme://[user[:password]@]host[:port][/path][?query][#fragment]`. -/
structure UriComponents where
  scheme : CString
  credentials : Option (CString × Option CString)
  host : CString
  port : Option CString
  path : CString
  query : Option CString
  fragment : Option CString
  deriving DecidableEq

/-- The fragment with its number sign. -/
def fragmentText (fragment : Option CString) : CString := fragment.elim [] ('#' :: ·)

namespace UriComponents

/-- The authority with the user and the password put together. -/
def authority (uri : UriComponents) : UriAuthority :=
  ⟨uri.credentials.map fun credentials ↦ credentials.1 ++ portText credentials.2, uri.host,
    uri.port⟩

/-- What stands behind the authority. -/
def tail (uri : UriComponents) : CString :=
  uri.path ++ queryText uri.query ++ fragmentText uri.fragment

def text (uri : UriComponents) : CString :=
  uri.scheme ++ ':' :: '/' :: '/' :: (uri.authority.text ++ uri.tail)

/-- Each component has only the characters of its grammar. -/
structure IsWellFormed (uri : UriComponents) : Prop where
  scheme_ne_nil : uri.scheme ≠ []
  scheme : IsUriText ":/?#[]@" uri.scheme
  user : ∀ credentials ∈ uri.credentials, IsUriText ":/?#[]@" credentials.1
  password : ∀ credentials ∈ uri.credentials, ∀ password ∈ credentials.2,
    IsUriText "/?#[]@" password
  host : UriAuthority.IsHost uri.host
  port : ∀ port ∈ uri.port, ∀ c ∈ port, c.isDigit = true
  path : IsUriText "?#[]" uri.path
  path_absolute : uri.path = [] ∨ uri.path.head? = some '/'
  query : ∀ query ∈ uri.query, IsUriText "#[]" query
  fragment : ∀ fragment ∈ uri.fragment, IsUriText "#[]" fragment

/-- Setting a URI gives its components: the host without brackets, the default port when none is
given, and an empty path when there is none. -/
def Recovers (url : NetUri) (uri : UriComponents) : Prop :=
  url.protocol = some uri.scheme ∧ url.user = uri.credentials.map Prod.fst ∧
    url.password = uri.credentials.bind Prod.snd ∧ url.host = some (withoutBrackets uri.host) ∧
    url.port = portNumber uri.scheme uri.port ∧ url.path = some uri.path ∧ url.query = uri.query ∧
    url.fragment = uri.fragment

/-- The first at sign ends a user that is not empty, or there is none. -/
def FindsUser (uri : UriComponents) : Prop :=
  match uri.credentials with
  | none => '@' ∉ uri.tail
  | some credentials => credentials.1 ≠ []

/-- The condition under which the components are found: the user is, an address in brackets has a
port, the port is read, and a path stands in front of a query and of a fragment. -/
def IsFound (uri : UriComponents) : Prop :=
  uri.FindsUser ∧ (uri.port.isSome = true ∨ withoutBrackets uri.host = uri.host) ∧
    PortScans uri.scheme uri.port ∧ (uri.path = [] → uri.query = none ∧ uri.fragment = none)

end UriComponents

/-! ### Paths in front of a query and a fragment -/

section fragment

variable {path : CString} (hpath : ∀ c ∈ path, c ≠ '?' ∧ c ≠ '#') {query : Option CString}
  (hquery : ∀ text ∈ query, '#' ∉ text) (fragment : CString)
include hpath hquery

theorem strstr_sharp_fragment :
    strstr (some (path ++ queryText query ++ '#' :: fragment)) (some "#".toList) =
      (path ++ queryText query).length :=
  strstr_singleton_append
    (sharp_not_mem_append_queryText (fun hmem ↦ (hpath _ hmem).2 rfl) hquery) fragment

theorem readFragment_fragment :
    readFragment (path ++ queryText query ++ '#' :: fragment) = some fragment := by
  unfold readFragment
  simp only [strstr_sharp_fragment hpath hquery fragment]
  rw [if_pos (Int.natCast_nonneg _), Int.toNat_natCast, List.drop_length_add_append]
  rfl

/-- The first question mark ends the path, or stands in the fragment. -/
theorem strstr_question_fragment :
    strstr (some (path ++ queryText query ++ '#' :: fragment)) (some "?".toList) = path.length ∧
        query.isSome = true ∨
      ¬ (0 ≤ strstr (some (path ++ queryText query ++ '#' :: fragment)) (some "?".toList) ∧
          strstr (some (path ++ queryText query ++ '#' :: fragment)) (some "?".toList) <
            (path ++ queryText query).length) ∧ query = none := by
  have hquestion : '?' ∉ path := fun hmem ↦ (hpath _ hmem).1 rfl
  cases query with
  | none =>
    refine Or.inr ⟨?_, rfl⟩
    rw [queryText, Option.elim_none, List.append_nil]
    rintro ⟨hnonneg, hlt⟩
    rcases strstr_singleton_append_of_not_mem hquestion ('#' :: fragment) with hnone | hlater
    · have hindex : strstr (some (path ++ '#' :: fragment)) (some "?".toList) = -1 := hnone
      omega
    · have hindex : (path.length : ℤ) ≤
          strstr (some (path ++ '#' :: fragment)) (some "?".toList) := hlater
      omega
  | some text =>
    refine Or.inl ⟨?_, rfl⟩
    rw [queryText, Option.elim_some, List.append_assoc, List.cons_append]
    exact strstr_singleton_append hquestion _

theorem readPath_fragment : readPath (path ++ queryText query ++ '#' :: fragment) = path := by
  have hsharp := strstr_sharp_fragment hpath hquery fragment
  unfold readPath
  simp only [hsharp]
  rcases strstr_question_fragment hpath hquery fragment with ⟨hindex, hsome⟩ | ⟨hnot, hnone⟩
  · obtain ⟨text, rfl⟩ := Option.isSome_iff_exists.mp hsome
    rw [hindex, if_pos]
    · rw [List.append_assoc]
      simp
    · refine ⟨Int.natCast_nonneg _, Or.inr ?_⟩
      rw [queryText, Option.elim_some, List.length_append, List.length_cons]
      omega
  · subst hnone
    rw [if_neg, if_pos (Int.natCast_nonneg _)]
    · rw [queryText, Option.elim_none, List.append_nil]
      simp
    · rintro ⟨hnonneg, hneg | hlt⟩
      · omega
      · exact hnot ⟨hnonneg, hlt⟩

theorem readQuery_fragment : readQuery (path ++ queryText query ++ '#' :: fragment) = query := by
  have hsharp := strstr_sharp_fragment hpath hquery fragment
  unfold readQuery
  simp only [hsharp]
  rcases strstr_question_fragment hpath hquery fragment with ⟨hindex, hsome⟩ | ⟨hnot, hnone⟩
  · obtain ⟨text, rfl⟩ := Option.isSome_iff_exists.mp hsome
    have hlength : (path ++ queryText (some text)).length = path.length + (text.length + 1) := by
      rw [queryText, Option.elim_some, List.length_append, List.length_cons]
    rw [hindex, hlength, if_pos ⟨Int.natCast_nonneg _, Or.inr (by omega)⟩,
      if_pos (Int.natCast_nonneg _)]
    simp only [Int.toNat_natCast]
    rw [show path.length + (text.length + 1) - (path.length + 1) = text.length by omega,
      queryText, Option.elim_some, List.append_assoc]
    simp
  · subst hnone
    refine if_neg ?_
    rintro ⟨hnonneg, hneg | hlt⟩
    · omega
    · exact hnot ⟨hnonneg, hlt⟩

end fragment

/-- A path in front of a query and a fragment is read with them. -/
theorem read_append {path : CString} (hpath : ∀ c ∈ path, c ≠ '?' ∧ c ≠ '#')
    {query fragment : Option CString} (hquery : ∀ text ∈ query, '#' ∉ text) :
    readPath (path ++ queryText query ++ fragmentText fragment) = path ∧
      readQuery (path ++ queryText query ++ fragmentText fragment) = query ∧
      readFragment (path ++ queryText query ++ fragmentText fragment) = fragment := by
  cases fragment with
  | some fragment =>
    exact ⟨readPath_fragment hpath hquery fragment, readQuery_fragment hpath hquery fragment,
      readFragment_fragment hpath hquery fragment⟩
  | none =>
    have hsharp : '#' ∉ path ++ queryText query :=
      sharp_not_mem_append_queryText (fun hmem ↦ (hpath _ hmem).2 rfl) hquery
    have hindex : strstr (some (path ++ queryText query)) (some "#".toList) = -1 :=
      strstr_singleton_of_not_mem hsharp
    rw [fragmentText, Option.elim_none, List.append_nil]
    refine ⟨readPath_append hpath hquery, readQuery_append hpath hquery, ?_⟩
    unfold readFragment
    simp only [hindex]
    rw [if_neg (by decide)]

/-- Every text is put together from the path, the query and the fragment that are read from it. -/
theorem read_parts (text : CString) :
    (∀ c ∈ readPath text, c ≠ '?' ∧ c ≠ '#') ∧ (∀ query ∈ readQuery text, '#' ∉ query) ∧
      readPath text ++ queryText (readQuery text) ++ fragmentText (readFragment text) = text := by
  suffices hparts : ∃ path query fragment,
      text = path ++ queryText query ++ fragmentText fragment ∧
        (∀ c ∈ path, c ≠ '?' ∧ c ≠ '#') ∧ ∀ text ∈ query, '#' ∉ text by
    obtain ⟨path, query, fragment, rfl, hpath, hquery⟩ := hparts
    obtain ⟨hreadPath, hreadQuery, hreadFragment⟩ := @read_append _ hpath _ fragment hquery
    rw [hreadPath, hreadQuery, hreadFragment]
    exact ⟨hpath, hquery, rfl⟩
  obtain ⟨front, fragment, hfront, hsharp⟩ : ∃ front fragment,
      text = front ++ fragmentText fragment ∧ '#' ∉ front := by
    by_cases hmem : '#' ∈ text
    · obtain ⟨front, fragment, hsplit, hsharp⟩ := List.eq_append_cons_of_mem hmem
      exact ⟨front, some fragment, hsplit, hsharp⟩
    · exact ⟨text, none, (List.append_nil text).symm, hmem⟩
  subst hfront
  by_cases hmem : '?' ∈ front
  · obtain ⟨path, query, rfl, hquestion⟩ := List.eq_append_cons_of_mem hmem
    rw [List.mem_append, List.mem_cons, not_or, not_or] at hsharp
    refine ⟨path, some query, fragment, rfl, fun c hc ↦
      ⟨ne_of_mem_of_not_mem hc hquestion, ne_of_mem_of_not_mem hc hsharp.1⟩, fun text htext ↦ ?_⟩
    rw [← Option.some.inj htext]
    exact hsharp.2.2
  · refine ⟨front, none, fragment, ?_, fun c hc ↦
      ⟨ne_of_mem_of_not_mem hc hmem, ne_of_mem_of_not_mem hc hsharp⟩,
      fun text htext ↦ by cases htext⟩
    rw [queryText, Option.elim_none, List.append_nil]

theorem readPath_slash_ne_nil (rest : CString) : readPath ('/' :: rest) ≠ [] := by
  have hindex : ∀ c, c ≠ '/' → strstr (some ('/' :: rest)) (some [c]) = -1 ∨
      1 ≤ strstr (some ('/' :: rest)) (some [c]) := fun c hc ↦
    @strstr_singleton_append_of_not_mem c ['/'] (by simpa using hc) rest
  have hquestion : strstr (some ('/' :: rest)) (some "?".toList) = -1 ∨
      1 ≤ strstr (some ('/' :: rest)) (some "?".toList) := hindex '?' (by decide)
  have hsharp : strstr (some ('/' :: rest)) (some "#".toList) = -1 ∨
      1 ≤ strstr (some ('/' :: rest)) (some "#".toList) := hindex '#' (by decide)
  have htake : ∀ position : ℤ, 1 ≤ position → ('/' :: rest).take position.toNat ≠ [] := by
    intro position hposition
    obtain ⟨count, hcount⟩ : ∃ count, position.toNat = count + 1 := ⟨position.toNat - 1, by omega⟩
    rw [hcount, List.take_succ_cons]
    exact List.cons_ne_nil _ _
  unfold readPath
  simp only
  split_ifs with hfront hfragment
  · exact htake _ (by omega)
  · exact htake _ (by omega)
  · exact List.cons_ne_nil _ _

/-! ### The components that are read -/

namespace UriComponents

section components

variable {uri : UriComponents} (h : uri.IsWellFormed)
include h

theorem IsWellFormed.isWellFormed_authority : uri.authority.IsWellFormed := by
  refine ⟨?_, h.host, h.port⟩
  intro userinfo huserinfo
  obtain ⟨credentials, hcredentials, rfl⟩ := Option.map_eq_some_iff.mp huserinfo
  have hsub : ∀ c ∈ "/?#[]@".toList, c ∈ ":/?#[]@".toList := by decide
  intro c hc
  rcases List.mem_append.mp hc with huser | hpassword
  · obtain ⟨hchar, hdelim⟩ := h.user credentials hcredentials c huser
    exact ⟨hchar, fun hmem ↦ hdelim (hsub c hmem)⟩
  · cases hsnd : credentials.2 with
    | none =>
      rw [hsnd] at hpassword
      cases hpassword
    | some password =>
      rw [hsnd, portText, Option.elim_some] at hpassword
      rcases List.mem_cons.mp hpassword with rfl | hmem
      · exact ⟨by decide, by decide⟩
      · exact h.password credentials hcredentials password hsnd c hmem

theorem IsWellFormed.read_tail :
    readPath uri.tail = uri.path ∧ readQuery uri.tail = uri.query ∧
      readFragment uri.tail = uri.fragment :=
  read_append (fun _ hc ↦ ⟨ne_of_mem_of_not_mem hc (h.path.not_mem (by decide)),
    ne_of_mem_of_not_mem hc (h.path.not_mem (by decide))⟩)
    fun text htext ↦ (h.query text htext).not_mem (by decide)

theorem IsWellFormed.isQueryFront : IsQueryFront (uri.tail.takeWhile (· ≠ '/')) := by
  rcases h.path_absolute with hnil | hhead
  · refine ⟨fun c hc ↦ ?_, fun hmem ↦ ?_⟩
    · unfold tail at hc
      rw [hnil, List.nil_append] at hc
      cases hquery : uri.query with
      | some query =>
        rw [hquery] at hc
        exact Or.inl (Option.some.inj hc).symm
      | none =>
        cases hfragment : uri.fragment with
        | some fragment =>
          rw [hquery, hfragment] at hc
          exact Or.inr (Option.some.inj hc).symm
        | none =>
          rw [hquery, hfragment] at hc
          cases hc
    · have hbracket := (List.takeWhile_sublist _).mem hmem
      unfold tail at hbracket
      rw [hnil, List.nil_append, List.mem_append] at hbracket
      rcases hbracket with hquery | hfragment
      · cases huriQuery : uri.query with
        | none =>
          rw [huriQuery] at hquery
          cases hquery
        | some query =>
          rw [huriQuery, queryText, Option.elim_some] at hquery
          rcases List.mem_cons.mp hquery with heq | hin
          · cases heq
          · exact (h.query query huriQuery).not_mem (by decide) hin
      · cases huriFragment : uri.fragment with
        | none =>
          rw [huriFragment] at hfragment
          cases hfragment
        | some fragment =>
          rw [huriFragment, fragmentText, Option.elim_some] at hfragment
          rcases List.mem_cons.mp hfragment with heq | hin
          · cases heq
          · exact (h.fragment fragment huriFragment).not_mem (by decide) hin
  · obtain ⟨rest, hrest⟩ := List.head?_eq_some_iff.mp hhead
    unfold tail
    rw [hrest]
    exact ⟨fun c hc ↦ (by cases hc), List.not_mem_nil⟩

/-- What the scanner reads the components behind the authority from. -/
theorem IsWellFormed.read_left_iff :
    (readPath (uri.tail.dropWhile (· ≠ '/')) = uri.path ∧
        readQuery (uri.tail.dropWhile (· ≠ '/')) = uri.query ∧
        readFragment (uri.tail.dropWhile (· ≠ '/')) = uri.fragment) ↔
      (uri.path = [] → uri.query = none ∧ uri.fragment = none) := by
  by_cases hne : uri.path = []
  · constructor
    · rintro ⟨hpath, hquery, hfragment⟩ -
      have hhead := List.head?_dropWhile_not (· ≠ '/') uri.tail
      cases hleft : uri.tail.dropWhile (· ≠ '/') with
      | nil =>
        rw [hleft] at hquery hfragment
        exact ⟨hquery.symm, hfragment.symm⟩
      | cons c rest =>
        rw [hleft] at hhead hpath
        have hslash : c = '/' := by simpa using hhead
        rw [hslash, hne] at hpath
        exact absurd hpath (readPath_slash_ne_nil rest)
    · intro hnone
      obtain ⟨hquery, hfragment⟩ := hnone hne
      have htail : uri.tail = [] := by
        unfold tail
        rw [hne, hquery, hfragment]
        rfl
      rw [htail, hne, hquery, hfragment]
      exact ⟨rfl, rfl, rfl⟩
  · refine iff_of_true ?_ fun hnil ↦ absurd hnil hne
    obtain ⟨rest, hrest⟩ := List.head?_eq_some_iff.mp (h.path_absolute.resolve_left hne)
    have hleft : uri.tail.dropWhile (· ≠ '/') = uri.tail := by
      unfold tail
      rw [hrest]
      rfl
    rw [hleft]
    exact h.read_tail

theorem IsWellFormed.readProtocol_text :
    readProtocol uri.text = (some uri.scheme, uri.authority.text ++ uri.tail) :=
  readProtocol_scheme h.scheme_ne_nil (h.scheme.not_mem (by decide)) _

/-- The user and the password are read when they are found. -/
theorem IsWellFormed.readUser_iff :
    (readUser (uri.authority.text ++ uri.tail)).1 = uri.credentials.map Prod.fst ∧
        (readUser (uri.authority.text ++ uri.tail)).2.1 = uri.credentials.bind Prod.snd ↔
      uri.FindsUser := by
  have hwf := h.isWellFormed_authority
  unfold FindsUser
  cases hcredentials : uri.credentials with
  | none =>
    have hnone : uri.authority.userinfo = none := by
      unfold authority
      rw [hcredentials]
      rfl
    have hiff := userText_readUser_iff hwf uri.tail
    unfold UserScans at hiff
    rw [hnone] at hiff
    constructor
    · rintro ⟨huser, -⟩
      refine hiff.mp ?_
      rw [huser]
      rfl
    · intro hat
      have hread : readUser (uri.authority.text ++ uri.tail) =
          (none, none, uri.authority.text ++ uri.tail) := by
        refine readUser_of_not_mem ?_
        rw [UriAuthority.text, hnone, List.mem_append, not_or]
        exact ⟨hostPortText_not_mem hwf (by decide), hat⟩
      rw [hread]
      exact ⟨rfl, rfl⟩
  | some credentials =>
    obtain ⟨user, password⟩ := credentials
    have hat : '@' ∉ user := (h.user _ hcredentials).not_mem (by decide)
    have hcolon : ':' ∉ user := (h.user _ hcredentials).not_mem (by decide)
    have htext : uri.authority.text ++ uri.tail =
        user ++ portText password ++ '@' :: (hostPortText uri.authority ++ uri.tail) := by
      unfold authority UriAuthority.text userinfoText hostPortText
      rw [hcredentials]
      simp
    rw [htext]
    cases password with
    | none =>
      rw [portText, Option.elim_none, List.append_nil]
      by_cases hne : user = []
      · subst hne
        rw [List.nil_append, readUser_cons_at]
        exact iff_of_false (fun hread ↦ by cases hread.1) fun hfound ↦ hfound rfl
      · rw [readUser_user hne hat (Or.inl hcolon)]
        exact iff_of_true ⟨rfl, rfl⟩ hne
    | some password =>
      have hpassword : '@' ∉ password :=
        (h.password _ hcredentials password rfl).not_mem (by decide)
      rw [portText, Option.elim_some]
      by_cases hne : user = []
      · subst hne
        have hpasswordAt : '@' ∉ [] ++ ':' :: password := by
          rw [List.nil_append, List.mem_cons, not_or]
          exact ⟨by decide, hpassword⟩
        have hread : readUser ([] ++ ':' :: password ++
            '@' :: (hostPortText uri.authority ++ uri.tail)) = _ :=
          readUser_user (List.cons_ne_nil _ _) hpasswordAt (Or.inr rfl) _
        rw [hread]
        exact iff_of_false (fun hread ↦ by cases hread.1) fun hfound ↦ hfound rfl
      · rw [readUser_password hne hat hcolon hpassword]
        exact iff_of_true ⟨rfl, rfl⟩ hne

/-- The text behind the user information that is found. -/
theorem IsWellFormed.exists_readUser (huser : uri.FindsUser) :
    ∃ user password, readUser (uri.authority.text ++ uri.tail) =
      (user, password, hostPortText uri.authority ++ uri.tail) := by
  have hscans : UserScans uri.authority uri.tail := by
    unfold FindsUser at huser
    unfold UserScans authority
    cases hcredentials : uri.credentials with
    | none =>
      rw [hcredentials] at huser
      exact huser
    | some credentials =>
      rw [hcredentials] at huser
      exact List.append_ne_nil_of_left_ne_nil huser _
  obtain ⟨user, password, hread, -⟩ := readUser_authority h.isWellFormed_authority hscans
  exact ⟨user, password, hread⟩

/-- What the scanner makes of a URI whose user it finds. -/
theorem IsWellFormed.setValue_of_findsUser (huser : uri.FindsUser) :
    (NetUri.setValue uri.text).host = decodeZone (splitPort (some uri.scheme)
        (some (hostPortText uri.authority ++ uri.tail.takeWhile (· ≠ '/')))).1 ∧
      (NetUri.setValue uri.text).port = (splitPort (some uri.scheme)
        (some (hostPortText uri.authority ++ uri.tail.takeWhile (· ≠ '/')))).2 ∧
      (NetUri.setValue uri.text).path = some (readPath (uri.tail.dropWhile (· ≠ '/'))) ∧
      (NetUri.setValue uri.text).query = readQuery (uri.tail.dropWhile (· ≠ '/')) ∧
      (NetUri.setValue uri.text).fragment = readFragment (uri.tail.dropWhile (· ≠ '/')) := by
  have hwf := h.isWellFormed_authority
  obtain ⟨user, password, hread⟩ := h.exists_readUser huser
  have hslash : ∀ c ∈ hostPortText uri.authority, decide (c ≠ '/') = true := by
    intro c hc
    rw [decide_eq_true_eq]
    exact ne_of_mem_of_not_mem hc (hostPortText_not_mem hwf (by decide))
  have hhost := readHost_absolute (head?_hostPortText_ne hwf uri.tail)
  rw [List.takeWhile_append_of_pos hslash, List.dropWhile_append_of_pos hslash] at hhost
  unfold NetUri.setValue
  simp only [h.readProtocol_text, hread, Option.isSome_some, hhost, if_true]
  exact ⟨trivial, trivial, trivial, trivial, trivial⟩

/-- An address is read without its brackets when it has a port. -/
theorem IsWellFormed.host_iff {behind : CString} (hbehind : IsQueryFront behind)
    (hhost : HostScans uri.authority behind) :
    decodeZone (splitPort (some uri.scheme) (some (hostPortText uri.authority ++ behind))).1 =
        some (withoutBrackets uri.host) ↔
      uri.port.isSome = true ∨ withoutBrackets uri.host = uri.host := by
  have hwf := h.isWellFormed_authority
  obtain ⟨hhostRead, -⟩ := splitPort_hostPortText hwf uri.scheme hbehind hhost
  have hread : (splitPort (some uri.scheme) (some (hostPortText uri.authority ++ behind))).1 =
      some (if uri.port.isSome = true then withoutBrackets uri.host else uri.host) := hhostRead
  rw [hread]
  by_cases hport : uri.port.isSome = true
  · rw [if_pos hport]
    exact iff_of_true (isHost_withoutBrackets h.host).1 (Or.inl hport)
  · rw [if_neg hport]
    have hself : decodeZone (some uri.host) = some uri.host := isHost_decodeZone h.host
    rw [hself, Option.some.injEq]
    exact ⟨fun heq ↦ Or.inr heq.symm, fun hor ↦ (hor.resolve_left hport).symm⟩

/-- The host is found when a path stands in front of a query and of a fragment. -/
theorem IsWellFormed.hostScans (hnone : uri.path = [] → uri.query = none ∧ uri.fragment = none) :
    HostScans uri.authority (uri.tail.takeWhile (· ≠ '/')) := by
  refine Or.inl ?_
  rcases h.path_absolute with hnil | hhead
  · obtain ⟨hqueryNone, hfragmentNone⟩ := hnone hnil
    unfold tail
    rw [hnil, hqueryNone, hfragmentNone]
    rfl
  · obtain ⟨rest, hrest⟩ := List.head?_eq_some_iff.mp hhead
    unfold tail
    rw [hrest]
    rfl

/-- Setting a URI gives its components back exactly when they are found. -/
theorem recovers_iff : Recovers (NetUri.setValue uri.text) uri ↔ uri.IsFound := by
  have hwf := h.isWellFormed_authority
  have hprotocol : (NetUri.setValue uri.text).protocol = some uri.scheme := by
    show (readProtocol uri.text).1 = some uri.scheme
    rw [h.readProtocol_text]
  have huserRead : (NetUri.setValue uri.text).user =
      (readUser (uri.authority.text ++ uri.tail)).1 := by
    unfold NetUri.setValue
    simp only [h.readProtocol_text]
  have hpasswordRead : (NetUri.setValue uri.text).password =
      (readUser (uri.authority.text ++ uri.tail)).2.1 := by
    unfold NetUri.setValue
    simp only [h.readProtocol_text]
  unfold Recovers IsFound
  rw [huserRead, hpasswordRead]
  by_cases huser : uri.FindsUser
  · obtain ⟨hhost, hport, hpath, hquery, hfragment⟩ := h.setValue_of_findsUser huser
    rw [hprotocol, hhost, hport, hpath, hquery, hfragment]
    constructor
    · rintro ⟨-, -, -, hhostRead, hportRead, hpathRead, hleft⟩
      have hnone := h.read_left_iff.mp ⟨Option.some.inj hpathRead, hleft⟩
      obtain ⟨-, hportIff⟩ :=
        splitPort_hostPortText hwf uri.scheme h.isQueryFront (h.hostScans hnone)
      exact ⟨huser, (h.host_iff h.isQueryFront (h.hostScans hnone)).mp hhostRead,
        hportIff.mp hportRead, hnone⟩
    · rintro ⟨-, hbare, hportScans, hnone⟩
      obtain ⟨-, hportIff⟩ :=
        splitPort_hostPortText hwf uri.scheme h.isQueryFront (h.hostScans hnone)
      obtain ⟨hfst, hsnd⟩ := h.readUser_iff.mpr huser
      obtain ⟨hpathRead, hleft⟩ := h.read_left_iff.mpr hnone
      exact ⟨rfl, hfst, hsnd, (h.host_iff h.isQueryFront (h.hostScans hnone)).mpr hbare,
        hportIff.mpr hportScans, congrArg some hpathRead, hleft⟩
  · refine iff_of_false ?_ fun hfound ↦ huser hfound.1
    rintro ⟨-, hfst, hsnd, -⟩
    exact huser (h.readUser_iff.mp ⟨hfst, hsnd⟩)

end components

/-! ### Two URIs -/

/-- A URI with an at sign in its path. -/
def sample (credentials : Option (CString × Option CString)) : UriComponents where
  scheme := "http".toList
  credentials := credentials
  host := "[fe80::1]".toList
  port := some "8080".toList
  path := "/a@b/c:d".toList
  query := some "x=/y@z:".toList
  fragment := some "f?@:/".toList

theorem isWellFormed_sample {credentials : Option (CString × Option CString)}
    (huser : ∀ pair ∈ credentials, IsUriText ":/?#[]@" pair.1)
    (hpassword : ∀ pair ∈ credentials, ∀ password ∈ pair.2, IsUriText "/?#[]@" password) :
    (sample credentials).IsWellFormed where
  scheme_ne_nil := by
    show "http".toList ≠ []
    decide
  scheme := by
    show IsUriText ":/?#[]@" "http".toList
    decide
  user := huser
  password := hpassword
  host := Or.inr ⟨"fe80::1".toList, rfl, by decide⟩
  port := by
    intro port hport
    obtain rfl := Option.some.inj hport
    decide
  path := by
    show IsUriText "?#[]" "/a@b/c:d".toList
    decide
  path_absolute := Or.inr rfl
  query := by
    intro query hquery
    obtain rfl := Option.some.inj hquery
    decide
  fragment := by
    intro fragment hfragment
    obtain rfl := Option.some.inj hfragment
    decide

/-- `http://user:pw@[fe80::1]:8080/a@b/c:d?x=/y@z:#f?@:/` is taken apart. -/
theorem recovers_sample :
    Recovers (NetUri.setValue (sample (some ("user".toList, some "pw".toList))).text)
      (sample (some ("user".toList, some "pw".toList))) := by
  refine (recovers_iff (isWellFormed_sample ?_ ?_)).mpr ?_
  · intro pair hpair
    obtain rfl := Option.some.inj hpair
    decide
  · intro pair hpair password hpassword
    obtain rfl := Option.some.inj hpair
    obtain rfl := Option.some.inj hpassword
    decide
  · have huser : "user".toList ≠ [] := by decide
    have hscans : PortScans "http".toList (some "8080".toList) := by decide
    exact ⟨huser, Or.inl rfl, hscans, fun hnil ↦ absurd hnil (by decide)⟩

/-- Without a user the at sign of the path ends one. -/
theorem not_recovers :
    ¬ ∀ uri : UriComponents, uri.IsWellFormed → Recovers (NetUri.setValue uri.text) uri := by
  intro h
  obtain ⟨-, huser, -⟩ := h (sample none)
    (isWellFormed_sample (fun pair hpair ↦ by cases hpair) fun pair hpair ↦ by cases hpair)
  have hread : (NetUri.setValue (sample none).text).user = some "[fe80".toList := by
    decide +kernel
  rw [hread] at huser
  cases huser

end UriComponents

end Mupnp.Net
