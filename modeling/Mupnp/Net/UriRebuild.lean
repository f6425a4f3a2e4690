import Mupnp.Net.UriRecovery

/-!
# URIs that are put together again

`mupnp_net_uri_getvalue` makes the text of a URI from its parts, each time it is called. The text is
read back as the same protocol, host, port, path and query, and stays the same, exactly when the
parts are kept (`getValue_roundTrips_iff`). Without a protocol the text is put behind the one that
was there before, and grows with each call.
-/

set_option autoImplicit false
set_option relaxedAutoImplicit false

namespace Mupnp.Net

open Foundation Util

/-! ### The calls on a URI -/

/-- `mupnp_net_uri_new`. -/
def NetUri.new : NetUri where
  uri := none
  protocol := none
  user := none
  password := none
  host := none
  port := 0
  path := stringSetValue none (some "/".toList)
  query := none
  fragment := none

/-- A call on a URI. -/
inductive UriCall where
  /-- `mupnp_net_uri_setvalue`. -/
  | setValue (value : CString)
  /-- `mupnp_net_uri_getvalue`; the text that it returns is that of the URI afterwards. -/
  | getValue
  deriving DecidableEq

def NetUri.call (uri : NetUri) : UriCall → NetUri
  | .setValue value => NetUri.setValue value
  | .getValue => uri.rebuild

def NetUri.calls (uri : NetUri) (calls : List UriCall) : NetUri := calls.foldl NetUri.call uri

/-- Two URIs with the same scheme, host, port, path and query. -/
def SameParts (first second : NetUri) : Prop :=
  first.protocol = second.protocol ∧ first.host = second.host ∧ first.port = second.port ∧
    first.path = second.path ∧ first.query = second.query

/-- The text that a URI returns has the parts of the URI, and is returned again by every later call.
-/
def RoundTrips (uri : NetUri) : Prop :=
  (∃ text, (uri.calls [.getValue]).uri = some text ∧ SameParts (NetUri.setValue text) uri) ∧
    ∀ count, (uri.calls (List.replicate (count + 1) .getValue)).uri = (uri.calls [.getValue]).uri

/-- The condition on the parts of a URI: there are a protocol and a host that is not empty, not in
brackets and without a zone index to decode; no part has an at sign, unless the host begins with
one; the query is not empty. -/
def KeepsParts (uri : NetUri) : Prop :=
  uri.protocol.isSome = true ∧ ∃ host, uri.host = some host ∧ host ≠ [] ∧
    ¬ (host.head? = some '[' ∧ host.getLast? = some ']') ∧
    ¬ (isIpv6Address uri.host = true ∧ "%25".toList <:+: host) ∧
    (host.head? = some '@' ∨
      '@' ∉ host ∧ '@' ∉ uri.path.getD [] ∧ '@' ∉ uri.query.getD []) ∧
    uri.query ≠ some []

/-! ### The text -/

/-- The query that is put behind the path: an empty one is dropped. -/
def shownQuery (query : Option CString) : Option CString :=
  if 0 < strlen query then query else none

/-- What stands behind the port. -/
def rebuiltPath (uri : NetUri) : CString :=
  if 0 < strlen uri.path then
    (if (uri.path.getD []).head? = some '/' then [] else ['/']) ++ (uri.path.getD [] ++
      if strstr uri.path (some "?".toList) = -1 then queryText (shownQuery uri.query) else [])
  else []

/-- What stands behind the protocol and its delimiter. -/
def rebuiltText (uri : NetUri) : CString :=
  uri.host.getD [] ++ ':' :: (long2str uri.port ++ rebuiltPath uri)

theorem stringAddValue_some (text : CString) (value : Option CString) :
    stringAddValue (some text) value = some (text ++ value.getD []) := by
  cases value with
  | none => rw [Option.getD_none, List.append_nil]; rfl
  | some value =>
    cases value with
    | nil => rw [Option.getD_some, List.append_nil]; rfl
    | cons c rest => rfl

/-- The text is put behind the protocol, or behind the old text when there is none. -/
theorem rebuild_uri (uri : NetUri) :
    uri.rebuild.uri = some ((stringSetValue uri.uri uri.protocol).getD [] ++
      ("://".toList ++ rebuiltText uri)) := by
  have hdelim : ∀ base : Option CString, stringAddValue base (some "://".toList) =
      some (base.getD [] ++ "://".toList) := fun base ↦ stringAddValue_of_ne_nil base (by decide)
  have hcolon : ":".toList = [':'] := by decide
  have hslash : "/".toList = ['/'] := by decide
  have hquestion : "?".toList = ['?'] := by decide
  unfold NetUri.rebuild rebuiltText rebuiltPath shownQuery
  simp only [hdelim, stringAddValue_some, Option.getD_some, hcolon, hslash, hquestion]
  by_cases hpath : 0 < strlen uri.path
  · rw [if_pos hpath, if_pos hpath]
    have hslashed : ∀ text, (if (uri.path.getD []).head? = some '/' then some text
        else some (text ++ ['/'])) =
        some (text ++ if (uri.path.getD []).head? = some '/' then [] else ['/']) := by
      intro text
      split_ifs
      · rw [List.append_nil]
      · rfl
    rw [hslashed]
    simp only [stringAddValue_some, Option.getD_some]
    by_cases hmark : strstr uri.path (some ['?']) = -1
    · by_cases hquery : 0 < strlen uri.query
      · obtain ⟨query, hsome, -⟩ := eq_some_of_strlen_pos hquery
        rw [hsome] at hquery ⊢
        simp [hmark, hquery, queryText]
      · simp [hmark, hquery, queryText]
    · simp [hmark]
  · rw [if_neg hpath, if_neg hpath]
    simp

/-! ### What the scanner leaves of the parts -/

/-- The first place of a string does not depend on what follows it. -/
theorem indexOf_append_append {needle before after : CString} (hne : needle ≠ [])
    (h : indexOf needle (before ++ (needle ++ after)) = some before.length) (other : CString) :
    indexOf needle (before ++ (needle ++ other)) = some before.length := by
  induction before with
  | nil =>
    obtain ⟨position, hposition, hle⟩ := @indexOf_le_length needle [] other hne
    rw [hposition, Nat.le_zero.mp hle]
    rfl
  | cons c rest ih =>
    have hfront : ∀ behind, needle <+: c :: (rest ++ (needle ++ behind)) ↔
        needle <+: c :: (rest ++ needle) := by
      intro behind
      have hwhole : c :: (rest ++ needle) <+: c :: (rest ++ (needle ++ behind)) :=
        ⟨behind, by rw [List.cons_append, List.append_assoc]⟩
      constructor
      · intro hneedle
        refine List.prefix_of_prefix_length_le hneedle hwhole ?_
        rw [List.length_cons, List.length_append]
        omega
      · exact fun hneedle ↦ hneedle.trans hwhole
    rw [List.cons_append, indexOf] at h ⊢
    simp only [List.isPrefixOf_iff_prefix, hfront] at h ⊢
    split_ifs at h ⊢ with hneedle
    · exact h
    · obtain ⟨position, hposition, hlength⟩ := Option.map_eq_some_iff.mp h
      rw [List.length_cons, Nat.add_right_cancel_iff] at hlength
      rw [ih (hlength ▸ hposition)]
      rfl

theorem atoi_range (text : CString) : -2 ^ 31 ≤ atoi text ∧ atoi text < 2 ^ 31 := by
  unfold atoi
  exact ⟨BitVec.le_toInt _, BitVec.toInt_lt⟩

theorem atoi_long2str {value : ℤ} (hmin : -2 ^ 31 ≤ value) (hmax : value < 2 ^ 31) :
    atoi (long2str value) = value := by
  have hlong : longMax = 2 ^ 63 - 1 := rfl
  have hread : atol (long2str value) = value := by
    by_cases hneg : value < 0
    · exact atol_long2str_of_neg hneg (by omega)
    · exact atol_long2str (by omega) (by omega)
  rw [atoi, hread, BitVec.toInt_ofInt]
  exact Int.bmod_eq_of_le (by omega) (by omega)

theorem long2str_not_mem {value : ℤ} {c : Char} (hc : c.isDigit = false) (hsign : c ≠ '-') :
    c ∉ long2str value := by
  have hdigits : c ∉ Nat.toDigits 10 value.natAbs := fun hmem ↦ by
    rw [isDigit_of_mem_toDigits hmem] at hc
    cases hc
  unfold long2str
  split_ifs
  · rw [List.mem_cons, not_or]
    exact ⟨hsign, hdigits⟩
  · exact hdigits

theorem withoutBrackets_sublist (host : CString) : (withoutBrackets host).Sublist host := by
  unfold withoutBrackets
  split_ifs
  · exact (List.dropLast_sublist _).trans (List.drop_sublist 1 host)
  · exact List.Sublist.refl host

theorem withoutBrackets_eq_self_iff {host : CString} :
    withoutBrackets host = host ↔ ¬ (host.head? = some '[' ∧ host.getLast? = some ']') := by
  unfold withoutBrackets
  split_ifs with hbrackets
  · refine iff_of_false (fun hself ↦ ?_) fun hnot ↦ hnot hbrackets
    obtain ⟨rest, rfl⟩ := List.head?_eq_some_iff.mp hbrackets.1
    have hlength := congrArg List.length hself
    rw [List.length_dropLast, List.length_drop, List.length_cons] at hlength
    omega
  · exact iff_of_true rfl hbrackets

/-- Splitting the port off takes only characters away, and none in front of a slash. -/
theorem splitPort_sublist (protocol : Option CString) (host : CString) :
    ∃ bare port, splitPort protocol (some host) = (some bare, port) ∧ bare.Sublist host ∧
      (host.head? = some '/' → bare.head? = some '/') ∧ -2 ^ 31 ≤ port ∧ port < 2 ^ 31 := by
  by_cases hport : EndsWithPort host
  · obtain ⟨name, digits, hne, hcolon, hbracket, rfl⟩ := hport
    refine ⟨_, _, splitPort_append_port hne hcolon hbracket protocol, ?_, ?_, atoi_range digits⟩
    · exact (withoutBrackets_sublist name).trans (List.sublist_append_left name _)
    · intro hhead
      obtain ⟨c, rest, rfl⟩ := List.exists_cons_of_ne_nil hne
      obtain rfl := Option.some.inj hhead
      rfl
  · refine ⟨_, _, splitPort_of_not_endsWithPort hport protocol, List.Sublist.refl host, id, ?_⟩
    unfold defaultPort
    split_ifs <;> decide

theorem decodeZone_eq_self_iff {host : CString} :
    decodeZone (some host) = some host ↔
      ¬ (isIpv6Address (some host) = true ∧ "%25".toList <:+: host) := by
  unfold decodeZone
  by_cases hipv6 : isIpv6Address (some host) = true
  · rw [if_pos hipv6, Option.map_some, Option.some.injEq, and_iff_right hipv6,
      ← indexOf_eq_none_iff]
    cases hindex : indexOf "%25".toList host with
    | none => exact iff_of_true rfl rfl
    | some zone =>
      obtain ⟨before, after, hhost, hlength⟩ := exists_of_indexOf_eq_some hindex
      refine iff_of_false (fun hself ↦ ?_) (Option.some_ne_none zone)
      have hlengths := congrArg List.length hself
      have hhostLength := congrArg List.length hhost
      have hneedle : "%25".toList.length = 3 := by decide
      simp only [List.length_append, List.length_take, List.length_drop, hneedle]
        at hlengths hhostLength
      omega
  · rw [if_neg hipv6]
    exact iff_of_true rfl fun hboth ↦ hipv6 hboth.1

/-- Decoding a zone index takes only characters behind the first one away. -/
theorem decodeZone_sublist (host : CString) :
    ∃ decoded, decodeZone (some host) = some decoded ∧ decoded.Sublist host ∧
      decoded.head? = host.head? := by
  unfold decodeZone
  split_ifs
  · rw [Option.map_some]
    cases indexOf "%25".toList host with
    | none => exact ⟨host, rfl, List.Sublist.refl host, rfl⟩
    | some zone =>
      refine ⟨_, rfl, ?_, ?_⟩
      · have hsplit := List.take_append_drop (zone + 1) host
        have hbehind : (host.drop (zone + 3)).Sublist (host.drop (zone + 1)) :=
          List.drop_sublist_drop_left host (by omega)
        have hboth := (List.Sublist.refl (host.take (zone + 1))).append hbehind
        rwa [hsplit] at hboth
      · cases host with
        | nil => rfl
        | cons c rest => rfl
  · exact ⟨host, rfl, List.Sublist.refl host, rfl⟩

/-! ### A scanned URI -/

/-- The parts of a URI with a protocol, as the scanner leaves them. -/
structure IsScanned (uri : NetUri) (protocol host path : CString) : Prop where
  protocol_eq : uri.protocol = some protocol
  protocol_ne_nil : protocol ≠ []
  protocol_first : ∀ behind,
    indexOf "://".toList (protocol ++ ("://".toList ++ behind)) = some protocol.length
  host_eq : uri.host = some host
  path_eq : uri.path = some path
  slash : host.head? = some '/' ∧ path = [] ∨ '/' ∉ host
  path_head : path = [] ∧ uri.query = none ∨ path.head? = some '/'
  path_plain : ∀ c ∈ path, c ≠ '?' ∧ c ≠ '#'
  query_plain : ∀ query ∈ uri.query, '#' ∉ query
  port_min : -2 ^ 31 ≤ uri.port
  port_max : uri.port < 2 ^ 31

theorem readProtocol_of_indexOf {protocol behind : CString} (hne : protocol ≠ [])
    (h : indexOf "://".toList (protocol ++ ("://".toList ++ behind)) = some protocol.length) :
    readProtocol (protocol ++ ("://".toList ++ behind)) = (some protocol, behind) := by
  have hpos : 0 < protocol.length := List.length_pos_iff.mpr hne
  have hindex : strstr (some (protocol ++ ("://".toList ++ behind))) (some "://".toList) =
      protocol.length := by
    simp only [strstr, h]
  unfold readProtocol
  simp only [hindex]
  rw [if_pos (by omega), Int.toNat_natCast, List.take_left]
  have hdrop : (protocol ++ ("://".toList ++ behind)).drop (protocol.length + 3) = behind := by
    rw [← List.drop_drop, List.drop_left]
    rfl
  rw [hdrop]

/-- A protocol is what stands in front of its delimiter. -/
theorem exists_of_isSome_protocol {value : CString} (h : (readProtocol value).1.isSome = true) :
    ∃ protocol behind, protocol ≠ [] ∧ readProtocol value = (some protocol, behind) ∧
      ∀ other, indexOf "://".toList (protocol ++ ("://".toList ++ other)) =
        some protocol.length := by
  have hpos : 0 < strstr (some value) (some "://".toList) := by
    unfold readProtocol at h
    simp only at h
    split_ifs at h with hpos
    · exact hpos
    · cases h
  cases hindex : indexOf "://".toList value with
  | none =>
    simp only [strstr, hindex] at hpos
    omega
  | some position =>
    simp only [strstr, hindex] at hpos
    obtain ⟨protocol, behind, rfl, rfl⟩ := exists_of_indexOf_eq_some hindex
    have hne : protocol ≠ [] := List.ne_nil_of_length_pos (by omega)
    rw [List.append_assoc] at hindex ⊢
    exact ⟨protocol, behind, hne, readProtocol_of_indexOf hne hindex,
      indexOf_append_append (by decide) hindex⟩

/-- A host begins with a slash and takes everything, or ends in front of the first slash. -/
theorem readHost_absolute_cases (text : CString) :
    ∃ host left, readHost true text = (some host, left) ∧ text = host ++ left ∧
      (host.head? = some '/' ∧ left = [] ∨
        '/' ∉ host ∧ (left = [] ∨ left.head? = some '/')) := by
  by_cases hhead : text.head? = some '/'
  · obtain ⟨rest, rfl⟩ := List.head?_eq_some_iff.mp hhead
    exact ⟨'/' :: rest, [], readHost_slash rest, (List.append_nil _).symm, Or.inl ⟨rfl, rfl⟩⟩
  · refine ⟨_, _, readHost_absolute hhead, List.takeWhile_append_dropWhile.symm, Or.inr ⟨?_, ?_⟩⟩
    · intro hmem
      have hslash := List.mem_takeWhile_imp hmem
      simp at hslash
    · cases hleft : text.dropWhile (· ≠ '/') with
      | nil => exact Or.inl rfl
      | cons c rest =>
        have hslash := List.head?_dropWhile_not (· ≠ '/') text
        rw [hleft] at hslash
        refine Or.inr ?_
        simpa using hslash

/-- A path begins with the slash that the text begins with. -/
theorem head?_readPath_slash (rest : CString) : (readPath ('/' :: rest)).head? = some '/' := by
  obtain ⟨-, -, htext⟩ := read_parts ('/' :: rest)
  obtain ⟨c, front, hpath⟩ := List.exists_cons_of_ne_nil (readPath_slash_ne_nil rest)
  rw [hpath, List.append_assoc, List.cons_append] at htext
  rw [hpath, (List.cons.inj htext).1]
  rfl

/-- What the scanner makes of a text with a protocol. -/
theorem setValue_of_reads {value protocol behind host left : CString}
    {user password : Option CString} {behindUser : CString}
    (hprotocol : readProtocol value = (some protocol, behind))
    (huser : readUser behind = (user, password, behindUser))
    (hhost : readHost true behindUser = (some host, left)) :
    (NetUri.setValue value).protocol = some protocol ∧
      (NetUri.setValue value).host = decodeZone (splitPort (some protocol) (some host)).1 ∧
      (NetUri.setValue value).port = (splitPort (some protocol) (some host)).2 ∧
      (NetUri.setValue value).path = some (readPath left) ∧
      (NetUri.setValue value).query = readQuery left := by
  unfold NetUri.setValue
  simp only [hprotocol, huser, Option.isSome_some, hhost, if_true]
  exact ⟨trivial, trivial, trivial, trivial, trivial⟩

theorem exists_isScanned {value : CString}
    (h : (NetUri.setValue value).protocol.isSome = true) :
    ∃ protocol host path, IsScanned (NetUri.setValue value) protocol host path := by
  have hsome : (readProtocol value).1.isSome = true := h
  obtain ⟨protocol, behind, hne, hprotocol, hfirst⟩ := exists_of_isSome_protocol hsome
  obtain ⟨hostText, left, hhost, -, hslash⟩ := readHost_absolute_cases (readUser behind).2.2
  obtain ⟨hprotocolEq, hhostEq, hportEq, hpathEq, hqueryEq⟩ := setValue_of_reads hprotocol rfl hhost
  obtain ⟨bare, port, hsplit, hbare, hbareHead, hportMin, hportMax⟩ :=
    splitPort_sublist (some protocol) hostText
  obtain ⟨decoded, hdecode, hdecoded, hdecodedHead⟩ := decodeZone_sublist bare
  rw [hsplit] at hhostEq hportEq
  obtain ⟨hpathPlain, hqueryPlain, -⟩ := read_parts left
  refine ⟨protocol, decoded, readPath left, hprotocolEq, hne, hfirst, hhostEq.trans hdecode,
    hpathEq, ?_, ?_, hpathPlain, hqueryEq ▸ hqueryPlain, hportEq ▸ hportMin, hportEq ▸ hportMax⟩
  · rcases hslash with ⟨hhead, rfl⟩ | ⟨hnot, -⟩
    · exact Or.inl ⟨hdecodedHead.trans (hbareHead hhead), rfl⟩
    · exact Or.inr fun hmem ↦ hnot ((hdecoded.trans hbare).subset hmem)
  · rw [hqueryEq]
    rcases hslash with ⟨-, rfl⟩ | ⟨-, rfl | hhead⟩
    · exact Or.inl ⟨rfl, rfl⟩
    · exact Or.inl ⟨rfl, rfl⟩
    · obtain ⟨rest, rfl⟩ := List.head?_eq_some_iff.mp hhead
      exact Or.inr (head?_readPath_slash rest)

/-! ### The text is read back -/

/-- How many at signs stand in the host, the path and the query. -/
def countAt (uri : NetUri) : ℕ :=
  (uri.host.getD []).count '@' + (uri.path.getD []).count '@' + (uri.query.getD []).count '@'

/-- The at sign behind a user is in no part. -/
theorem countAt_setValue_le {value protocol before after : CString}
    (hprotocol : readProtocol value = (some protocol, before ++ '@' :: after))
    (hne : before ≠ []) (hbefore : '@' ∉ before) :
    countAt (NetUri.setValue value) ≤ after.count '@' := by
  obtain ⟨user, password, huser, -⟩ := readUser_append_at hne hbefore after
  obtain ⟨host, left, hhost, hafter, -⟩ := readHost_absolute_cases after
  obtain ⟨-, hhostEq, -, hpathEq, hqueryEq⟩ := setValue_of_reads hprotocol huser hhost
  obtain ⟨bare, port, hsplit, hbare, -⟩ := splitPort_sublist (some protocol) host
  obtain ⟨decoded, hdecode, hdecoded, -⟩ := decodeZone_sublist bare
  rw [hsplit, hdecode] at hhostEq
  have hhostCount : decoded.count '@' ≤ host.count '@' := (hdecoded.trans hbare).count_le '@'
  have hleft := congrArg (List.count '@') (read_parts left).2.2
  have hquery : ((readQuery left).getD []).count '@' ≤ (queryText (readQuery left)).count '@' := by
    cases readQuery left with
    | none => exact Nat.le_refl _
    | some query => exact (List.sublist_cons_self '?' query).count_le '@'
  rw [List.count_append, List.count_append] at hleft
  unfold countAt
  rw [hhostEq, hpathEq, hqueryEq, Option.getD_some, Option.getD_some, hafter, List.count_append]
  omega

theorem countAt_eq_zero_iff (uri : NetUri) : countAt uri = 0 ↔
    '@' ∉ uri.host.getD [] ∧ '@' ∉ uri.path.getD [] ∧ '@' ∉ uri.query.getD [] := by
  rw [countAt, Nat.add_eq_zero_iff, Nat.add_eq_zero_iff, List.count_eq_zero, List.count_eq_zero,
    List.count_eq_zero, and_assoc]

theorem shownQuery_eq_self_iff (query : Option CString) :
    shownQuery query = query ↔ query ≠ some [] := by
  unfold shownQuery
  split_ifs with hpos
  · refine iff_of_true rfl ?_
    rintro rfl
    exact absurd hpos (by decide)
  · cases query with
    | none => exact iff_of_true rfl (Option.some_ne_none []).symm
    | some query =>
      have hnil : query = [] := List.length_eq_zero_iff.mp (Nat.eq_zero_of_not_pos hpos)
      rw [hnil]
      exact iff_of_false (Option.some_ne_none []).symm fun hne ↦ hne rfl

theorem not_endsWithPort_colon {value : ℤ} : ¬ EndsWithPort (':' :: long2str value) := by
  rintro ⟨name, digits, hne, -, -, hsplit⟩
  obtain ⟨c, rest, rfl⟩ := List.exists_cons_of_ne_nil hne
  have hcolon : ':' ∉ long2str value := long2str_not_mem (by decide) (by decide)
  rw [(List.cons.inj hsplit).2] at hcolon
  exact hcolon (List.mem_append_right rest List.mem_cons_self)

/-- A host is kept when it has neither brackets nor a zone index to decode. -/
theorem decodeZone_withoutBrackets_eq_iff {host : CString} :
    decodeZone (some (withoutBrackets host)) = some host ↔
      ¬ (host.head? = some '[' ∧ host.getLast? = some ']') ∧
        ¬ (isIpv6Address (some host) = true ∧ "%25".toList <:+: host) := by
  rw [← withoutBrackets_eq_self_iff, ← decodeZone_eq_self_iff]
  constructor
  · intro hself
    obtain ⟨decoded, hdecode, hsublist, -⟩ := decodeZone_sublist (withoutBrackets host)
    rw [hself, Option.some.injEq] at hdecode
    have hbare : withoutBrackets host = host :=
      (withoutBrackets_sublist host).antisymm (hdecode ▸ hsublist)
    rw [hbare] at hself
    exact ⟨hbare, hself⟩
  · rintro ⟨hbare, hzone⟩
    rw [hbare, hzone]

section scanned

variable {uri : NetUri} {protocol host path : CString} (h : IsScanned uri protocol host path)
include h

theorem rebuiltPath_eq : rebuiltPath uri = path ++ queryText (shownQuery uri.query) := by
  have hquestion : '?' ∉ path := fun hmem ↦ (h.path_plain _ hmem).1 rfl
  have hindex : strstr (some path) (some "?".toList) = -1 := strstr_singleton_of_not_mem hquestion
  unfold rebuiltPath
  rw [h.path_eq, hindex, if_pos rfl, Option.getD_some]
  rcases h.path_head with ⟨rfl, hquery⟩ | hhead
  · rw [hquery]
    rfl
  · obtain ⟨rest, rfl⟩ := List.head?_eq_some_iff.mp hhead
    have hpos : 0 < strlen (some ('/' :: rest)) := Nat.succ_pos _
    rw [if_pos hpos, if_pos hhead, List.nil_append]

theorem rebuiltText_eq : rebuiltText uri =
    host ++ ':' :: (long2str uri.port ++ (path ++ queryText (shownQuery uri.query))) := by
  rw [rebuiltText, h.host_eq, rebuiltPath_eq h, Option.getD_some]

theorem rebuild_uri_eq : uri.rebuild.uri =
    some (protocol ++ ("://".toList ++ rebuiltText uri)) := by
  rw [rebuild_uri, h.protocol_eq, stringSetValue_some, Option.getD_some]

theorem readProtocol_rebuild :
    readProtocol (protocol ++ ("://".toList ++ rebuiltText uri)) =
      (some protocol, rebuiltText uri) :=
  readProtocol_of_indexOf h.protocol_ne_nil (h.protocol_first _)

theorem count_rebuiltText : (rebuiltText uri).count '@' = countAt uri := by
  have hport : (long2str uri.port).count '@' = 0 :=
    List.count_eq_zero.mpr (long2str_not_mem (by decide) (by decide))
  have hquery : (queryText (shownQuery uri.query)).count '@' = (uri.query.getD []).count '@' := by
    unfold shownQuery
    split_ifs with hpos
    · obtain ⟨query, hsome, -⟩ := eq_some_of_strlen_pos hpos
      rw [hsome, queryText, Option.elim_some, Option.getD_some, List.count_cons_of_ne (by decide)]
    · rw [List.length_eq_zero_iff.mp (Nat.eq_zero_of_not_pos hpos)]
      rfl
  rw [rebuiltText_eq h, countAt, h.host_eq, h.path_eq, Option.getD_some, Option.getD_some,
    List.count_append, List.count_cons_of_ne (by decide), List.count_append, List.count_append,
    hport, hquery]
  omega

/-- Nothing of the text is taken for a user without an at sign behind its first character. -/
theorem readUser_rebuiltText (hat : host.head? = some '@' ∨ countAt uri = 0) :
    readUser (rebuiltText uri) = (none, none, rebuiltText uri) := by
  rcases hat with hhead | hzero
  · obtain ⟨rest, rfl⟩ := List.head?_eq_some_iff.mp hhead
    rw [rebuiltText_eq h]
    exact readUser_cons_at _
  · refine readUser_of_not_mem (List.count_eq_zero.mp ?_)
    rw [count_rebuiltText h, hzero]

theorem readHost_rebuiltText : readHost true (rebuiltText uri) =
    (some (host ++ ':' :: long2str uri.port), path ++ queryText (shownQuery uri.query)) := by
  have htext : rebuiltText uri =
      (host ++ ':' :: long2str uri.port) ++ (path ++ queryText (shownQuery uri.query)) := by
    rw [rebuiltText_eq h, List.append_assoc, List.cons_append]
  rw [htext]
  rcases h.slash with ⟨hhead, hpath⟩ | hslash
  · have hquery : uri.query = none := by
      rcases h.path_head with ⟨-, hnone⟩ | hpathHead
      · exact hnone
      · rw [hpath] at hpathHead
        cases hpathHead
    obtain ⟨rest, rfl⟩ := List.head?_eq_some_iff.mp hhead
    rw [hpath, hquery]
    have hnil : [] ++ queryText (shownQuery none) = [] := rfl
    rw [hnil, List.append_nil]
    exact readHost_slash _
  · have hfront : '/' ∉ host ++ ':' :: long2str uri.port := by
      rw [List.mem_append, List.mem_cons, not_or, not_or]
      exact ⟨hslash, by decide, long2str_not_mem (by decide) (by decide)⟩
    have hbehind : ∀ c ∈ (path ++ queryText (shownQuery uri.query)).head?, c = '/' := by
      intro c hc
      rcases h.path_head with ⟨hpath, hquery⟩ | hpathHead
      · rw [hpath, hquery] at hc
        cases hc
      · obtain ⟨rest, hrest⟩ := List.head?_eq_some_iff.mp hpathHead
        rw [hrest] at hc
        exact (Option.some.inj hc).symm
    have hhead : ((host ++ ':' :: long2str uri.port) ++
        (path ++ queryText (shownQuery uri.query))).head? ≠ some '/' := by
      obtain ⟨c, rest, hrest⟩ := List.exists_cons_of_ne_nil
        (List.append_ne_nil_of_right_ne_nil host (List.cons_ne_nil ':' (long2str uri.port)))
      rw [hrest] at hfront ⊢
      intro hc
      rw [Option.some.inj hc] at hfront
      exact hfront List.mem_cons_self
    have hkeep : ∀ c ∈ host ++ ':' :: long2str uri.port, decide (c ≠ '/') = true :=
      fun c hc ↦ decide_eq_true (ne_of_mem_of_not_mem hc hfront)
    have hstop : ∀ c ∈ (path ++ queryText (shownQuery uri.query)).head?,
        decide (c ≠ '/') = false :=
      fun c hc ↦ decide_eq_false (not_not.mpr (hbehind c hc))
    rw [readHost_absolute hhead, takeWhile_append_of_head hkeep hstop,
      List.dropWhile_append_of_pos hkeep]
    cases hleft : path ++ queryText (shownQuery uri.query) with
    | nil => rfl
    | cons c rest =>
      rw [hleft] at hstop
      rw [List.dropWhile_cons_of_neg (by rw [hstop c rfl]; decide)]

/-- The parts that are read from the text when no user is found in it. -/
theorem sameParts_iff_of_no_user (hat : host.head? = some '@' ∨ countAt uri = 0) :
    SameParts (NetUri.setValue (protocol ++ ("://".toList ++ rebuiltText uri))) uri ↔
      host ≠ [] ∧ ¬ (host.head? = some '[' ∧ host.getLast? = some ']') ∧
        ¬ (isIpv6Address (some host) = true ∧ "%25".toList <:+: host) ∧ uri.query ≠ some [] := by
  obtain ⟨hprotocolEq, hhostEq, hportEq, hpathEq, hqueryEq⟩ :=
    setValue_of_reads (readProtocol_rebuild h) (readUser_rebuiltText h hat) (readHost_rebuiltText h)
  have hshown : ∀ query ∈ shownQuery uri.query, '#' ∉ query := by
    intro query hquery
    unfold shownQuery at hquery
    split_ifs at hquery
    · exact h.query_plain query hquery
    · cases hquery
  unfold SameParts
  rw [hprotocolEq, hhostEq, hportEq, hpathEq, hqueryEq, readPath_append h.path_plain hshown,
    readQuery_append h.path_plain hshown, h.protocol_eq, h.host_eq, h.path_eq,
    shownQuery_eq_self_iff]
  by_cases hne : host = []
  · refine iff_of_false ?_ fun hkeeps ↦ hkeeps.1 hne
    rintro ⟨-, hsame, -⟩
    obtain ⟨decoded, hdecode, -, hhead⟩ := decodeZone_sublist (':' :: long2str uri.port)
    rw [hne, List.nil_append, splitPort_of_not_endsWithPort not_endsWithPort_colon,
      hdecode] at hsame
    rw [Option.some.inj hsame] at hhead
    cases hhead
  · have hcolon : ':' ∉ long2str uri.port := long2str_not_mem (by decide) (by decide)
    have hbracket : ']' ∉ long2str uri.port := long2str_not_mem (by decide) (by decide)
    have hport : atoi (long2str uri.port) = uri.port := atoi_long2str h.port_min h.port_max
    rw [splitPort_append_port hne hcolon hbracket, decodeZone_withoutBrackets_eq_iff, hport]
    simp only [true_and]
    constructor
    · rintro ⟨⟨hbare, hzone⟩, hquery⟩
      exact ⟨hne, hbare, hzone, hquery⟩
    · rintro ⟨-, hbare, hzone, hquery⟩
      exact ⟨⟨hbare, hzone⟩, hquery⟩

/-- The text that is put together is read back as the parts exactly when they are kept. -/
theorem sameParts_iff :
    SameParts (NetUri.setValue (protocol ++ ("://".toList ++ rebuiltText uri))) uri ↔
      KeepsParts uri := by
  have hkeeps : KeepsParts uri ↔ host ≠ [] ∧
      ¬ (host.head? = some '[' ∧ host.getLast? = some ']') ∧
        ¬ (isIpv6Address (some host) = true ∧ "%25".toList <:+: host) ∧
          (host.head? = some '@' ∨ countAt uri = 0) ∧ uri.query ≠ some [] := by
    unfold KeepsParts
    rw [countAt_eq_zero_iff, h.protocol_eq, h.host_eq, Option.getD_some]
    constructor
    · rintro ⟨-, other, hother, hrest⟩
      obtain rfl := Option.some.inj hother
      exact hrest
    · intro hrest
      exact ⟨rfl, host, rfl, hrest⟩
  rw [hkeeps]
  by_cases hat : host.head? = some '@' ∨ countAt uri = 0
  · rw [sameParts_iff_of_no_user h hat]
    simp only [hat, true_and]
  · refine iff_of_false ?_ fun hall ↦ hat hall.2.2.2.1
    rw [not_or] at hat
    have hmem : '@' ∈ rebuiltText uri := by
      rw [← List.count_pos_iff, count_rebuiltText h]
      exact Nat.pos_of_ne_zero hat.2
    obtain ⟨before, after, hsplit, hbefore⟩ := List.eq_append_cons_of_mem hmem
    have hne : before ≠ [] := by
      rintro rfl
      rw [rebuiltText_eq h] at hsplit
      cases host with
      | nil => exact absurd (List.cons.inj hsplit).1 (by decide)
      | cons c rest => exact hat.1 (congrArg some (List.cons.inj hsplit).1)
    have hread := (readProtocol_rebuild h).trans (congrArg (some protocol, ·) hsplit)
    have hle := countAt_setValue_le hread hne hbefore
    have hcount := count_rebuiltText h
    rw [hsplit, List.count_append, List.count_cons_self] at hcount
    rintro ⟨-, hhost, -, hpath, hquery⟩
    rw [countAt, hhost, hpath, hquery] at hle
    rw [countAt] at hcount
    omega

end scanned

/-! ### Any number of calls -/

theorem rebuiltText_rebuild (uri : NetUri) : rebuiltText uri.rebuild = rebuiltText uri := rfl

/-- With a protocol the text does not depend on the one that was there before. -/
theorem rebuild_rebuild {uri : NetUri} (h : uri.protocol.isSome = true) :
    uri.rebuild.rebuild = uri.rebuild := by
  obtain ⟨protocol, hprotocol⟩ := Option.isSome_iff_exists.mp h
  have hagain : uri.rebuild.protocol = some protocol := hprotocol
  have huri : uri.rebuild.rebuild.uri = uri.rebuild.uri := by
    rw [rebuild_uri uri.rebuild, rebuild_uri uri, rebuiltText_rebuild, hprotocol, hagain,
      stringSetValue_some, stringSetValue_some]
  calc uri.rebuild.rebuild = { uri.rebuild with uri := uri.rebuild.rebuild.uri } := rfl
    _ = { uri.rebuild with uri := uri.rebuild.uri } := by rw [huri]
    _ = uri.rebuild := rfl

theorem calls_replicate_getValue {uri : NetUri} (h : uri.protocol.isSome = true) (count : ℕ) :
    uri.calls (List.replicate (count + 1) .getValue) = uri.rebuild := by
  induction count with
  | zero => rfl
  | succ count ih =>
    rw [List.replicate_succ', NetUri.calls, List.foldl_concat]
    exact (congrArg NetUri.rebuild ih).trans (rebuild_rebuild h)

/-- Without a protocol a second call puts the text behind that of the first one. -/
theorem rebuild_rebuild_ne {uri : NetUri} (h : uri.protocol = none) :
    uri.rebuild.rebuild.uri ≠ uri.rebuild.uri := by
  have hagain : uri.rebuild.protocol = none := h
  rw [rebuild_uri uri.rebuild, hagain, stringSetValue_none]
  intro hsame
  cases htext : uri.rebuild.uri with
  | none =>
    rw [htext] at hsame
    cases hsame
  | some text =>
    rw [htext, Option.some.injEq, Option.getD_some, List.append_right_eq_self] at hsame
    exact absurd hsame (List.append_ne_nil_of_left_ne_nil (by decide) _)

/-! ### Kept parts of well-formed texts -/

/-- A reference without a protocol is never kept. -/
theorem not_keepsParts_of_no_scheme {value : CString} (h : ¬ "://".toList <:+: value) :
    ¬ KeepsParts (NetUri.setValue value) := by
  rintro ⟨hprotocol, -⟩
  have hnone : (readProtocol value).1.isSome = true := hprotocol
  rw [readProtocol_of_no_scheme h] at hnone
  cases hnone

/-- A URI without user information, without an at sign behind the authority and with a path in front
of a query and of a fragment is kept when no brackets stay around its host and its query is not
empty. -/
theorem keepsParts_text_iff {uri : UriComponents} (h : uri.IsWellFormed)
    (hcredentials : uri.credentials = none) (hat : '@' ∉ uri.tail)
    (hpath : uri.path = [] → uri.query = none ∧ uri.fragment = none) :
    KeepsParts (NetUri.setValue uri.text) ↔ withoutBrackets uri.host ≠ [] ∧
      (uri.port.isSome = true ∨ withoutBrackets uri.host = uri.host) ∧ uri.query ≠ some [] := by
  have huser : uri.FindsUser := by
    unfold UriComponents.FindsUser
    rw [hcredentials]
    exact hat
  obtain ⟨hhostEq, -, hpathEq, hqueryEq, -⟩ := h.setValue_of_findsUser huser
  obtain ⟨hpathRead, hqueryRead, -⟩ := h.read_left_iff.mpr hpath
  have hprotocolEq : (NetUri.setValue uri.text).protocol = some uri.scheme := by
    show (readProtocol uri.text).1 = some uri.scheme
    rw [h.readProtocol_text]
  obtain ⟨hhostRead, -⟩ := splitPort_hostPortText h.isWellFormed_authority uri.scheme
    h.isQueryFront (h.hostScans hpath)
  have hbare : ∃ bare, (NetUri.setValue uri.text).host = some bare ∧
      decodeZone (some bare) = some bare ∧ '@' ∉ bare ∧
      (bare ≠ [] ∧ ¬ (bare.head? = some '[' ∧ bare.getLast? = some ']') ↔
        withoutBrackets uri.host ≠ [] ∧
          (uri.port.isSome = true ∨ withoutBrackets uri.host = uri.host)) := by
    have hhostAt : '@' ∉ uri.host := isHost_not_mem h.host (by decide)
    rw [hhostEq, hhostRead]
    by_cases hport : uri.port.isSome = true
    · obtain ⟨hzone, hagain⟩ := isHost_withoutBrackets h.host
      have hsome : uri.authority.port.isSome = true := hport
      rw [if_pos hsome]
      refine ⟨withoutBrackets uri.host, hzone, hzone, fun hmem ↦
        hhostAt (mem_of_mem_withoutBrackets hmem), ?_⟩
      rw [and_iff_left (withoutBrackets_eq_self_iff.mp hagain), and_iff_left (Or.inl hport)]
    · have hzone := isHost_decodeZone h.host
      have hnot : ¬ uri.authority.port.isSome = true := hport
      rw [if_neg hnot]
      refine ⟨uri.host, hzone, hzone, hhostAt, ?_⟩
      rw [← withoutBrackets_eq_self_iff, or_iff_right hport]
      refine and_congr_left fun hself ↦ ?_
      rw [hself]
  obtain ⟨bare, hhost, hzone, hbareAt, hbareIff⟩ := hbare
  have hpathAt : '@' ∉ uri.path := fun hmem ↦
    hat (List.mem_append_left _ (List.mem_append_left _ hmem))
  have hqueryAt : '@' ∉ uri.query.getD [] := by
    cases hquery : uri.query with
    | none => exact List.not_mem_nil
    | some query =>
      refine fun hmem ↦ hat (List.mem_append_left _ (List.mem_append_right _ ?_))
      rw [hquery]
      exact List.mem_cons_of_mem _ hmem
  unfold KeepsParts
  rw [hprotocolEq, hhost, hpathEq, hqueryEq, hpathRead, hqueryRead]
  constructor
  · rintro ⟨-, other, hother, hne, hbrackets, -, -, hquery⟩
    obtain rfl := Option.some.inj hother
    obtain ⟨hhostNe, hport⟩ := hbareIff.mp ⟨hne, hbrackets⟩
    exact ⟨hhostNe, hport, hquery⟩
  · rintro ⟨hhostNe, hport, hquery⟩
    obtain ⟨hne, hbrackets⟩ := hbareIff.mpr ⟨hhostNe, hport⟩
    exact ⟨rfl, bare, rfl, hne, hbrackets, decodeZone_eq_self_iff.mp hzone,
      Or.inr ⟨hbareAt, hpathAt, hqueryAt⟩, hquery⟩

/-- The text of a URI is read back as its parts, and is returned again by every later call, exactly
when the parts are kept. -/
theorem getValue_roundTrips_iff (calls : List UriCall) (value : CString) :
    RoundTrips (NetUri.new.calls (calls ++ [.setValue value])) ↔
      KeepsParts (NetUri.new.calls (calls ++ [.setValue value])) := by
  have hset : NetUri.new.calls (calls ++ [.setValue value]) = NetUri.setValue value := by
    rw [NetUri.calls, List.foldl_concat]
    rfl
  rw [hset]
  by_cases hprotocol : (NetUri.setValue value).protocol.isSome = true
  · obtain ⟨protocol, host, path, h⟩ := exists_isScanned hprotocol
    rw [← sameParts_iff h]
    have hcall : ((NetUri.setValue value).calls [.getValue]).uri =
        some (protocol ++ ("://".toList ++ rebuiltText (NetUri.setValue value))) :=
      rebuild_uri_eq h
    constructor
    · rintro ⟨⟨text, htext, hsame⟩, -⟩
      rw [hcall, Option.some.injEq] at htext
      rw [htext]
      exact hsame
    · intro hsame
      refine ⟨⟨_, hcall, hsame⟩, fun count ↦ ?_⟩
      rw [calls_replicate_getValue hprotocol]
      rfl
  · refine iff_of_false ?_ fun hkeeps ↦ hprotocol hkeeps.1
    rintro ⟨-, hstable⟩
    rw [Bool.not_eq_true, Option.isSome_eq_false_iff, Option.isNone_iff_eq_none] at hprotocol
    exact rebuild_rebuild_ne hprotocol (hstable 1)

/-- A URI with an address in brackets and no port. -/
def bracketedUri : UriComponents where
  scheme := "http".toList
  credentials := none
  host := "[fe80::1]".toList
  port := none
  path := "/".toList
  query := none
  fragment := none

theorem isWellFormed_bracketedUri : bracketedUri.IsWellFormed where
  scheme_ne_nil := by
    show "http".toList ≠ []
    decide
  scheme := by
    show IsUriText ":/?#[]@" "http".toList
    decide
  user credentials hnone := by cases hnone
  password credentials hnone := by cases hnone
  host := Or.inr ⟨"fe80::1".toList, rfl, by decide⟩
  port port hnone := by cases hnone
  path := by
    show IsUriText "?#[]" "/".toList
    decide
  path_absolute := Or.inr rfl
  query query hnone := by cases hnone
  fragment fragment hnone := by cases hnone

/-- The host of `http://[fe80::1]/` has brackets around it, and none is read from the text with the
default port. -/
theorem not_getValue_roundTrips :
    ¬ ∀ (calls : List UriCall) (uri : UriComponents), uri.IsWellFormed → uri.credentials = none →
      RoundTrips (NetUri.new.calls (calls ++ [.setValue uri.text])) := by
  intro h
  obtain ⟨⟨text, htext, -, hhost, -⟩, -⟩ := h [] bracketedUri isWellFormed_bracketedUri rfl
  have hread : (NetUri.new.calls [.setValue bracketedUri.text, .getValue]).uri =
      some "http://[fe80::1]:80/".toList := by
    decide +kernel
  obtain rfl : "http://[fe80::1]:80/".toList = text := Option.some.inj (hread.symm.trans htext)
  have hbare : (NetUri.setValue "http://[fe80::1]:80/".toList).host = some "fe80::1".toList := by
    decide +kernel
  have hbrackets : (NetUri.new.calls [.setValue bracketedUri.text]).host =
      some "[fe80::1]".toList := by
    decide +kernel
  exact absurd (hbare.symm.trans (hhost.trans hbrackets)) (by decide)

end Mupnp.Net
