import Mupnp.Net.UriScan

/-!
# What the scanner makes of an authority

The user, the host and the port that the scanner reads from a URI whose authority is well formed.
An at sign behind an authority without user information is mistaken for the end of one
(`userText_readUser_iff`), and a query right behind the authority is taken for a part of the host
(`hostPort_iff`).
-/

set_option autoImplicit false
set_option relaxedAutoImplicit false

namespace Mupnp.Net

open Foundation Util

/-- The host and the port of an authority. -/
def hostPortText (authority : UriAuthority) : CString := authority.host ++ portText authority.port

/-- The scanner finds the user information that stands in front of a host, and none elsewhere. -/
def UserScans (authority : UriAuthority) (tail : CString) : Prop :=
  match authority.userinfo with
  | none => '@' ∉ tail
  | some userinfo => userinfo ≠ []

/-- The scanner finds the host, also in front of a part of a query when the last colon is the one of
the port. -/
def HostScans (authority : UriAuthority) (behind : CString) : Prop :=
  behind = [] ∨ authority.port.isSome = true ∧ ':' ∉ behind

instance (authority : UriAuthority) (tail : CString) : Decidable (UserScans authority tail) := by
  unfold UserScans
  split <;> infer_instance

instance (authority : UriAuthority) (behind : CString) : Decidable (HostScans authority behind) :=
  inferInstanceAs (Decidable (_ ∨ _))

section authority

variable {authority : UriAuthority} (h : authority.IsWellFormed)
include h

theorem hostPortText_not_mem {c : Char} (hc : c ∈ "/?#@".toList) : c ∉ hostPortText authority := by
  have hport : c ∉ portText authority.port := by
    have hne : ∀ c ∈ "/?#@".toList, c ≠ ':' ∧ c.isDigit = false := by decide
    cases hauthority : authority.port with
    | none => exact List.not_mem_nil
    | some digits =>
      rw [portText, Option.elim_some, List.mem_cons, not_or]
      refine ⟨(hne c hc).1, fun hmem ↦ ?_⟩
      have hdigit := h.port digits hauthority c hmem
      rw [(hne c hc).2] at hdigit
      cases hdigit
  rw [hostPortText, List.mem_append, not_or]
  exact ⟨isHost_not_mem h.host hc, hport⟩

theorem hostPortText_ne_nil : hostPortText authority ≠ [] :=
  List.append_ne_nil_of_left_ne_nil (isHost_ne_nil h.host) _

theorem head?_hostPortText_ne (tail : CString) :
    (hostPortText authority ++ tail).head? ≠ some '/' := by
  rw [List.head?_append_of_ne_nil _ (hostPortText_ne_nil h)]
  exact fun hhead ↦ hostPortText_not_mem h (by decide) (List.mem_of_mem_head? hhead)

/-! ### The user -/

theorem readUser_authority {tail : CString} (huser : UserScans authority tail) :
    ∃ user password, readUser (authority.text ++ tail) =
        (user, password, hostPortText authority ++ tail) ∧
      userText user password = authority.userinfo := by
  unfold UserScans at huser
  cases huserinfo : authority.userinfo with
  | none =>
    rw [huserinfo] at huser
    refine ⟨none, none, ?_, rfl⟩
    rw [UriAuthority.text, huserinfo]
    refine readUser_of_not_mem ?_
    rw [List.mem_append, not_or]
    exact ⟨hostPortText_not_mem h (by decide), huser⟩
  | some userinfo =>
    rw [huserinfo] at huser
    have hat : '@' ∉ userinfo := (h.userinfo userinfo huserinfo).not_mem (by decide)
    obtain ⟨user, password, hread, htext⟩ :=
      readUser_append_at huser hat (hostPortText authority ++ tail)
    refine ⟨some user, password, ?_, htext⟩
    rw [← hread, UriAuthority.text, huserinfo]
    simp [userinfoText, hostPortText]

/-- The user information is read as it stands exactly when the first at sign ends it. -/
theorem userText_readUser_iff (tail : CString) :
    userText (readUser (authority.text ++ tail)).1 (readUser (authority.text ++ tail)).2.1 =
      authority.userinfo ↔ UserScans authority tail := by
  constructor
  · intro htext
    unfold UserScans
    cases huserinfo : authority.userinfo with
    | none =>
      intro hat
      rw [huserinfo, UriAuthority.text, huserinfo] at htext
      obtain ⟨before, after, hsplit, hbefore⟩ := List.eq_append_cons_of_mem hat
      have hfront : '@' ∉ hostPortText authority ++ before := by
        rw [List.mem_append, not_or]
        exact ⟨hostPortText_not_mem h (by decide), hbefore⟩
      obtain ⟨user, password, hread, -⟩ := readUser_append_at
        (List.append_ne_nil_of_left_ne_nil (hostPortText_ne_nil h) before) hfront after
      have hwhole : userinfoText none ++ (authority.host ++ portText authority.port) ++ tail =
          hostPortText authority ++ before ++ '@' :: after := by
        rw [hsplit]
        simp [userinfoText, hostPortText]
      rw [hwhole, hread] at htext
      cases htext
    | some userinfo =>
      rintro rfl
      rw [huserinfo, UriAuthority.text, huserinfo] at htext
      have hread := readUser_cons_at (hostPortText authority ++ tail)
      have hwhole : userinfoText (some []) ++ (authority.host ++ portText authority.port) ++ tail =
          '@' :: (hostPortText authority ++ tail) := by
        simp [userinfoText, hostPortText]
      rw [hwhole, hread] at htext
      cases htext
  · intro huser
    obtain ⟨user, password, hread, htext⟩ := readUser_authority h huser
    rw [hread]
    exact htext

/-! ### The host and the port -/

/-- What stands behind a port in the host that the scanner reads: nothing, or the front of a query
or of a fragment. -/
def IsQueryFront (behind : CString) : Prop :=
  (∀ c ∈ behind.head?, c = '?' ∨ c = '#') ∧ ']' ∉ behind

/-- What is read when the host is found; brackets are dropped with a port only. -/
theorem splitPort_hostPortText (scheme : CString) {behind : CString} (hbehind : IsQueryFront behind)
    (hhost : HostScans authority behind) :
    (splitPort (some scheme) (some (hostPortText authority ++ behind))).1 =
        some (if authority.port.isSome = true then withoutBrackets authority.host
          else authority.host) ∧
      ((splitPort (some scheme) (some (hostPortText authority ++ behind))).2 =
        portNumber scheme authority.port ↔ PortScans scheme authority.port) := by
  unfold hostPortText
  cases hauthority : authority.port with
  | none =>
    rw [HostScans, hauthority] at hhost
    have hnil : behind = [] := hhost.resolve_right fun hsome ↦ by cases hsome.1
    rw [hnil, portText, Option.elim_none, List.append_nil, List.append_nil,
      splitPort_of_not_endsWithPort (isHost_not_endsWithPort h.host)]
    exact ⟨rfl, Iff.rfl⟩
  | some digits =>
    have hdigits := h.port digits hauthority
    have hne : ∀ c ∈ digits, c ≠ ':' ∧ c ≠ ']' := by
      intro c hc
      have hdigit := hdigits c hc
      constructor <;> rintro rfl <;> cases hdigit
    have hcolon : ':' ∉ digits ++ behind := by
      rw [List.mem_append, not_or]
      refine ⟨fun hmem ↦ (hne _ hmem).1 rfl, ?_⟩
      rcases hhost with hnil | hsome
      · rw [hnil]
        exact List.not_mem_nil
      · exact hsome.2
    have hbracket : ']' ∉ digits ++ behind := by
      rw [List.mem_append, not_or]
      exact ⟨fun hmem ↦ (hne _ hmem).2 rfl, hbehind.2⟩
    rw [portText, Option.elim_some, List.append_assoc, List.cons_append,
      splitPort_append_port (isHost_ne_nil h.host) hcolon hbracket]
    exact ⟨rfl, atoi_eq_portNumber_iff scheme hdigits hbehind.1⟩

/-- The delimiter of a query or a fragment stays in the host unless it stands behind the last colon.
-/
theorem delimiter_mem_splitPort {behind : CString} (hbehind : IsQueryFront behind)
    (hhost : ¬ HostScans authority behind) (protocol : Option CString) :
    ∃ host c, (splitPort protocol (some (hostPortText authority ++ behind))).1 = some host ∧
      (c = '?' ∨ c = '#') ∧ c ∈ host := by
  rw [HostScans, not_or] at hhost
  obtain ⟨hne, hcolon⟩ := hhost
  obtain ⟨delimiter, hhead⟩ : ∃ c, behind.head? = some c :=
    Option.isSome_iff_exists.mp (List.isSome_head?.mpr (by simpa using hne))
  have hdelimiter := hbehind.1 delimiter hhead
  have hnotColon : delimiter ≠ ':' := by rcases hdelimiter with rfl | rfl <;> decide
  have hnotBrackets : delimiter ≠ '[' ∧ delimiter ≠ ']' := by
    rcases hdelimiter with rfl | rfl <;> decide
  have hquestion : delimiter ∈ hostPortText authority ++ behind :=
    List.mem_append_right _ (List.mem_of_mem_head? hhead)
  by_cases hends : EndsWithPort (hostPortText authority ++ behind)
  · obtain ⟨name, digits, hname, hdigits, hdigitsBracket, hsplit⟩ := hends
    rw [hsplit, splitPort_append_port hname hdigits hdigitsBracket]
    refine ⟨withoutBrackets name, delimiter, rfl, hdelimiter,
      mem_withoutBrackets ?_ hnotBrackets.1 hnotBrackets.2⟩
    rcases List.append_eq_append_iff.mp hsplit with ⟨front, hfront, hback⟩ | ⟨front, hfront, hback⟩
    · rw [hfront]
      refine List.mem_append_right _ ?_
      cases front with
      | nil =>
        rw [hback] at hhead
        exact absurd (Option.some.inj hhead).symm hnotColon
      | cons c rest =>
        rw [hback] at hhead
        rw [Option.some.inj hhead]
        exact List.mem_cons_self
    · cases front with
      | nil =>
        rw [List.nil_append] at hback
        rw [← hback] at hhead
        exact absurd (Option.some.inj hhead).symm hnotColon
      | cons c port =>
        obtain ⟨rfl, hdigitsSplit⟩ := List.cons.inj hback
        rw [hdigitsSplit, List.append_eq, List.mem_append, not_or] at hdigits hdigitsBracket
        have hnone : authority.port = none := by
          by_contra hsome
          exact hcolon ⟨Option.isSome_iff_ne_none.mpr hsome, hdigits.2⟩
        refine absurd ⟨name, port, hname, hdigits.1, hdigitsBracket.1, ?_⟩
          (isHost_not_endsWithPort h.host)
        rw [← hfront, hostPortText, hnone]
        exact (List.append_nil _).symm
  · rw [splitPort_of_not_endsWithPort hends]
    exact ⟨_, delimiter, rfl, hdelimiter, hquestion⟩

/-- It also stays there when a zone index is decoded. -/
theorem delimiter_mem_decodeZone {behind : CString} (hbehind : IsQueryFront behind)
    (hhost : ¬ HostScans authority behind) (protocol : Option CString) :
    ∃ host c, decodeZone (splitPort protocol (some (hostPortText authority ++ behind))).1 =
      some host ∧ (c = '?' ∨ c = '#') ∧ c ∈ host := by
  obtain ⟨host, c, hsplit, hdelimiter, hmem⟩ := delimiter_mem_splitPort h hbehind hhost protocol
  have hne : c ≠ '2' ∧ c ≠ '5' := by rcases hdelimiter with rfl | rfl <;> decide
  obtain ⟨decoded, hdecoded, hdecodedMem⟩ := mem_decodeZone hmem hne.1 hne.2
  rw [hsplit]
  exact ⟨decoded, c, hdecoded, hdelimiter, hdecodedMem⟩

/-- The host and the port are read as they stand, up to the brackets of an address, exactly when
the authority ends where the host that the scanner reads ends, or the last colon is that of a port.
-/
theorem hostPort_iff {scheme behind : CString} (hbehind : IsQueryFront behind) :
    ((decodeZone (splitPort (some scheme) (some (hostPortText authority ++ behind))).1).map
        withoutBrackets = some (withoutBrackets authority.host) ∧
      (splitPort (some scheme) (some (hostPortText authority ++ behind))).2 =
        portNumber scheme authority.port) ↔
      HostScans authority behind ∧ PortScans scheme authority.port := by
  obtain ⟨hdecode, hidem⟩ := isHost_withoutBrackets h.host
  by_cases hhost : HostScans authority behind
  · obtain ⟨hread, hport⟩ := splitPort_hostPortText h scheme hbehind hhost
    have hbare : (decodeZone (splitPort (some scheme)
        (some (hostPortText authority ++ behind))).1).map withoutBrackets =
          some (withoutBrackets authority.host) := by
      rw [hread]
      split_ifs with hsome
      · rw [hdecode, Option.map_some, hidem]
      · rw [isHost_decodeZone h.host, Option.map_some]
    rw [hport]
    exact ⟨fun hscans ↦ ⟨hhost, hscans.2⟩, fun hscans ↦ ⟨hbare, hscans.2⟩⟩
  · refine iff_of_false ?_ fun hscans ↦ hhost hscans.1
    rintro ⟨hread, -⟩
    obtain ⟨decoded, c, hdecoded, hdelimiter, hmem⟩ :=
      delimiter_mem_decodeZone h hbehind hhost (some scheme)
    have hne : (c ≠ '[' ∧ c ≠ ']') ∧ c ∈ "/?#@".toList := by
      rcases hdelimiter with rfl | rfl <;> decide
    rw [hdecoded, Option.map_some, Option.some.injEq] at hread
    have hbare : c ∈ withoutBrackets authority.host := by
      rw [← hread]
      exact mem_withoutBrackets hmem hne.1.1 hne.1.2
    exact isHost_not_mem h.host hne.2 (mem_of_mem_withoutBrackets hbare)

end authority

/-! ### A whole URI -/

/-- What stands behind the authority of a URI. -/
def tailText (uri : Uri) : CString := uri.path ++ queryText uri.query

/-- What the scanner takes for a part of the host: the front of a query without a path. -/
def hostTail (uri : Uri) : CString := (tailText uri).takeWhile (· ≠ '/')

/-- What the scanner reads the path and the query from. -/
def pathTail (uri : Uri) : CString := (tailText uri).dropWhile (· ≠ '/')

/-- A scanned URI has the authority of another one, up to the brackets of an address. -/
def AuthorityDenotes (url : NetUri) (target : Uri) : Prop :=
  match target.authority with
  | none => url.host = none
  | some authority =>
    userText url.user url.password = authority.userinfo ∧
      url.host.map withoutBrackets = some (withoutBrackets authority.host) ∧
      url.port = portNumber target.scheme authority.port

/-- A scanned URI has the components of another one. -/
def Denotes (url : NetUri) (target : Uri) : Prop :=
  url.protocol = some target.scheme ∧ AuthorityDenotes url target ∧
    url.path = some target.path ∧ url.query = target.query

/-- The scanner finds the authority of a URI. -/
def AuthorityScans (uri : Uri) : Prop :=
  match uri.authority with
  | none => False
  | some authority =>
    UserScans authority (tailText uri) ∧ HostScans authority (hostTail uri) ∧
      PortScans uri.scheme authority.port

instance (uri : Uri) : Decidable (AuthorityScans uri) := by
  unfold AuthorityScans
  split <;> infer_instance

theorem isSome_host_of_isSome_protocol {value : CString}
    (h : (readProtocol value).1.isSome = true) : (NetUri.setValue value).host.isSome = true := by
  have hread : ∀ text, (readHost true text).1.isSome = true := by
    intro text
    unfold readHost
    simp only
    split_ifs <;> rfl
  have hsplit : ∀ (protocol host : Option CString), host.isSome = true →
      (splitPort protocol host).1.isSome = true := by
    intro protocol host hhost
    unfold splitPort
    simp only
    split_ifs
    · rfl
    · rfl
    · exact hhost
  have hdecode : ∀ host : Option CString, host.isSome = true →
      (decodeZone host).isSome = true := by
    intro host hhost
    unfold decodeZone
    split_ifs
    · rw [Option.isSome_map]
      exact hhost
    · exact hhost
  unfold NetUri.setValue
  simp only [h]
  exact hdecode _ (hsplit _ _ (hread _))

section uri

variable {uri : Uri} (h : uri.IsWellFormed) {authority : UriAuthority}
  (hauthority : uri.authority = some authority)
include h hauthority

theorem readProtocol_text :
    readProtocol uri.text = (some uri.scheme, authority.text ++ tailText uri) := by
  have hread := readProtocol_scheme h.scheme_ne_nil (h.scheme.not_mem (by decide))
    (authority.text ++ tailText uri)
  rw [← hread, Uri.text, hauthority]
  simp [tailText]

theorem tailText_cases : tailText uri = queryText uri.query ∨ (tailText uri).head? = some '/' := by
  rcases h.path_absolute (by rw [hauthority]; rfl) with hnil | hhead
  · exact Or.inl (by rw [tailText, hnil, List.nil_append])
  · refine Or.inr ?_
    obtain ⟨rest, hrest⟩ := List.head?_eq_some_iff.mp hhead
    rw [tailText, hrest]
    rfl

theorem isQueryFront_hostTail : IsQueryFront (hostTail uri) := by
  unfold IsQueryFront hostTail
  rcases tailText_cases h hauthority with hquery | hhead
  · rw [hquery]
    cases huriQuery : uri.query with
    | none => exact ⟨fun c hc ↦ (by cases hc), List.not_mem_nil⟩
    | some query =>
      refine ⟨fun c hc ↦ Or.inl (Option.some.inj hc).symm, fun hmem ↦ ?_⟩
      have hbracket := (List.takeWhile_sublist _).mem hmem
      rw [queryText, Option.elim_some] at hbracket
      rcases List.mem_cons.mp hbracket with heq | hquery
      · cases heq
      · exact (h.query query huriQuery).not_mem (by decide) hquery
  · obtain ⟨rest, hrest⟩ := List.head?_eq_some_iff.mp hhead
    rw [hrest]
    exact ⟨fun c hc ↦ (by cases hc), List.not_mem_nil⟩

/-- What the scanner makes of a URI whose user information it finds. -/
theorem setValue_text (huser : UserScans authority (tailText uri)) :
    ∃ user password, userText user password = authority.userinfo ∧
      NetUri.setValue uri.text =
        { uri := some uri.text
          protocol := some uri.scheme
          user := user
          password := password
          host := decodeZone (splitPort (some uri.scheme)
            (some (hostPortText authority ++ hostTail uri))).1
          port := (splitPort (some uri.scheme) (some (hostPortText authority ++ hostTail uri))).2
          path := some (readPath (pathTail uri))
          query := readQuery (pathTail uri)
          fragment := readFragment (pathTail uri) } := by
  have hwf := h.authority authority hauthority
  obtain ⟨user, password, hread, htext⟩ := readUser_authority hwf huser
  have hslash : ∀ c ∈ hostPortText authority, decide (c ≠ '/') = true := by
    intro c hc
    rw [decide_eq_true_eq]
    rintro rfl
    exact hostPortText_not_mem hwf (by decide) hc
  have hhost := readHost_absolute (head?_hostPortText_ne hwf (tailText uri))
  rw [List.takeWhile_append_of_pos hslash, List.dropWhile_append_of_pos hslash] at hhost
  refine ⟨user, password, htext, ?_⟩
  unfold NetUri.setValue
  simp only [readProtocol_text h hauthority, hread, Option.isSome_some, hhost]
  rfl

/-- The scanned URI has the authority of the text exactly when the scanner finds it. -/
theorem authorityDenotes_iff : AuthorityDenotes (NetUri.setValue uri.text) uri ↔
    AuthorityScans uri := by
  have hwf := h.authority authority hauthority
  unfold AuthorityDenotes AuthorityScans
  rw [hauthority]
  simp only
  by_cases huser : UserScans authority (tailText uri)
  · obtain ⟨user, password, htext, hscan⟩ := setValue_text h hauthority huser
    have hhost := @hostPort_iff _ hwf uri.scheme _ (isQueryFront_hostTail h hauthority)
    rw [hscan]
    simp only [htext, true_and, huser]
    exact hhost
  · refine iff_of_false ?_ fun hscans ↦ huser hscans.1
    rintro ⟨htext, -⟩
    refine huser ((userText_readUser_iff hwf (tailText uri)).mp ?_)
    rw [← htext]
    unfold NetUri.setValue
    simp only [readProtocol_text h hauthority]

end uri

end Mupnp.Net
