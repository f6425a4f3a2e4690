import Mupnp.Foundation.SliceTrace
import Mupnp.Net.UriScan

/-!
# The indices of the URI scanner

`mupnp_net_uri_setvalue` once more, with the offsets and lengths that it computes. `currIdx` is the
index in the given text behind what has been read, and every part is taken with
`mupnp_string_setnvalue` or searched from an index to the terminator. The offsets and lengths are
integers here: one that lies within its string is the same in the unsigned arithmetic of the source,
and one that does not shows as a slice out of bounds.

`setValueIndexed_inBounds` says that all slices lie within the text they are cut from, and
`setValueIndexed_result` that the parts are those of `NetUri.setValue`.
-/

set_option autoImplicit false
set_option relaxedAutoImplicit false

namespace Mupnp.Net

open Foundation Util

/-! ### The scanner -/

/-- `mupnp_strstr` in a text from an index on. -/
def strstrFrom (value : CString) (currIdx : ℤ) (delim : CString) : Traced Char ℤ := do
  let text ← Traced.read value currIdx (value.length - currIdx)
  pure (strstr (some text) (some delim))

/-- The protocol, and the index behind its delimiter. -/
def scanProtocol (value : CString) : Traced Char (Option CString × ℤ) := do
  let protoIdx ← strstrFrom value 0 "://".toList
  if 0 < protoIdx then do
    let protocol ← Traced.read value 0 protoIdx
    pure (some protocol, 0 + (protoIdx + strlen (some "://".toList)))
  else pure (none, 0)

/-- The user and the password, and the index behind the at sign. -/
def scanUser (value : CString) (currIdx : ℤ) :
    Traced Char (Option CString × Option CString × ℤ) := do
  let atIdx ← strstrFrom value currIdx "@".toList
  if 0 < atIdx then do
    let colonIdx ← strstrFrom value currIdx ":".toList
    if 0 < colonIdx ∧ colonIdx < atIdx then do
      let user ← Traced.read value currIdx colonIdx
      let password ← Traced.read value (currIdx + colonIdx + 1) (atIdx - (colonIdx + 1))
      pure (some user, some password, currIdx + (atIdx + 1))
    else do
      let user ← Traced.read value currIdx atIdx
      pure (some user, none, currIdx + (atIdx + 1))
  else pure (none, none, currIdx)

/-- The host with its port, and the index behind it. -/
def scanHost (isAbsolute : Bool) (value : CString) (currIdx : ℤ) :
    Traced Char (Option CString × ℤ) := do
  let slashIdx ← strstrFrom value currIdx "/".toList
  if 0 < slashIdx then do
    let host ← Traced.read value currIdx slashIdx
    pure (some host, currIdx + slashIdx)
  else if isAbsolute then do
    let host ← Traced.read value currIdx (value.length - currIdx)
    pure (some host, currIdx + (value.length - currIdx))
  else pure (none, currIdx)

/-- The host without brackets around it, for a host in front of a port; `host` is the shortened
value and `hostStr` the copy of the whole one. -/
def scanBrackets (hostStr host : CString) (colonIdx : ℤ) : Traced Char CString := do
  let first ← Traced.read host 0 1
  if first = ['['] then do
    let last ← Traced.read host (colonIdx - 1) 1
    if last = [']'] then Traced.read hostStr 1 (colonIdx - 2) else pure host
  else pure host

/-- The host without its port, and the port. -/
def scanPort (protocol host : Option CString) : Traced Char (Option CString × ℤ) :=
  let colonIdx := strrchr host ':'
  if 0 < colonIdx ∧ strrchr host ']' < colonIdx then do
    let hostStr := host.getD []
    let name ← Traced.read hostStr 0 colonIdx
    let bare ← scanBrackets hostStr name colonIdx
    let portStr ← Traced.read hostStr (colonIdx + 1) (hostStr.length - colonIdx - 1)
    pure (some bare, atoi portStr)
  else pure (host, defaultPort protocol)

/-- The host with its zone index decoded. -/
def scanZone (host : Option CString) : Traced Char (Option CString) :=
  match host with
  | none => pure none
  | some host =>
    if isIpv6Address (some host) then
      match indexOf "%25".toList host with
      | some zone => do
        let decoded ← Traced.read host 0 (zone + 1)
        let behind ← Traced.read host (zone + 3) (host.length - (zone + 3))
        pure (some (decoded ++ behind))
      | none => pure (some host)
    else pure (some host)

/-- The path and the fragment, for a path that the rest of the text has been taken for. -/
def scanFragment (value : CString) (currIdx sharpIdx : ℤ) (path : Option CString) :
    Traced Char (Option CString × Option CString) :=
  if 0 ≤ sharpIdx then do
    let path ← Traced.read value currIdx sharpIdx
    let fragment ← Traced.read value (currIdx + sharpIdx + 1)
      (value.length - (currIdx + sharpIdx + 1))
    pure (some path, some fragment)
  else pure (path, none)

/-- The path and the query, for a path that the text in front of the fragment has been taken for. -/
def scanQuery (value : CString) (currIdx sharpIdx : ℤ) (path : Option CString) :
    Traced Char (Option CString × Option CString) := do
  let questionIdx ← strstrFrom value currIdx "?".toList
  if 0 ≤ questionIdx ∧ (sharpIdx < 0 ∨ questionIdx < sharpIdx) then do
    let path ← Traced.read value currIdx questionIdx
    let queryLen := value.length - (currIdx + questionIdx + 1)
    let queryLen :=
      if 0 ≤ sharpIdx then queryLen - (value.length - (currIdx + sharpIdx)) else queryLen
    let query ← Traced.read value (currIdx + questionIdx + 1) queryLen
    pure (some path, some query)
  else pure (path, none)

/-- The path, the query and the fragment of the text from an index on. -/
def scanPath (isAbsolute : Bool) (value : CString) (currIdx : ℤ) :
    Traced Char (Option CString × Option CString × Option CString) := do
  let whole ← (if isAbsolute = false then pure (stringAddValue none (some value))
    else do
      let rest ← Traced.read value currIdx (value.length - currIdx)
      pure (some rest))
  let sharpIdx ← strstrFrom value currIdx "#".toList
  let cut ← scanFragment value currIdx sharpIdx whole
  let parts ← scanQuery value currIdx sharpIdx cut.1
  pure (parts.1, parts.2, cut.2)

/-- `mupnp_net_uri_setvalue`. -/
def setValueIndexed (value : CString) : Traced Char NetUri := do
  let (protocol, behindProtocol) ← scanProtocol value
  let (user, password, behindUser) ← scanUser value behindProtocol
  let (hostPort, behindHost) ← scanHost protocol.isSome value behindUser
  let (host, port) ← scanPort protocol hostPort
  let host ← scanZone host
  let (path, query, fragment) ← scanPath protocol.isSome value behindHost
  pure { uri := some value, protocol, user, password, host, port, path, query, fragment }

/-! ### What an index stands in front of -/

/-- An index of a text, and what stands behind it. -/
def StandsAt (value : CString) (currIdx : ℤ) (text : CString) : Prop :=
  ∃ front, value = front ++ text ∧ currIdx = front.length

section standing

variable {value text : CString} {currIdx : ℤ}

theorem standsAt_zero (value : CString) : StandsAt value 0 value := ⟨[], rfl, rfl⟩

/-- Behind a part that is read stands the rest. -/
theorem StandsAt.append {part rest : CString} (h : StandsAt value currIdx (part ++ rest))
    {length : ℤ} (hlength : length = part.length) : StandsAt value (currIdx + length) rest := by
  obtain ⟨front, rfl, rfl⟩ := h
  refine ⟨front ++ part, (List.append_assoc front part rest).symm, ?_⟩
  rw [hlength, List.length_append]
  omega

/-- A part behind an index can be read. -/
theorem StandsAt.meets_read {part rest : CString} (h : StandsAt value currIdx (part ++ rest))
    {length : ℤ} (hlength : length = part.length) :
    (Traced.read value currIdx length).Meets fun result ↦ result = part := by
  obtain ⟨front, hvalue, hcurrIdx⟩ := h
  exact Traced.meets_read front part rest hvalue hcurrIdx hlength

/-- What stands behind an index can be read to the end. -/
theorem StandsAt.meets_read_rest (h : StandsAt value currIdx text) {length : ℤ}
    (hlength : length = value.length - currIdx) :
    (Traced.read value currIdx length).Meets fun result ↦ result = text := by
  have hwhole : StandsAt value currIdx (text ++ []) := by rwa [List.append_nil]
  refine hwhole.meets_read ?_
  obtain ⟨front, rfl, rfl⟩ := h
  rw [hlength, List.length_append]
  omega

theorem StandsAt.meets_strstrFrom (h : StandsAt value currIdx text) (delim : CString) :
    (strstrFrom value currIdx delim).Meets fun index ↦
      index = strstr (some text) (some delim) := by
  refine (h.meets_read_rest rfl).bind fun result hresult ↦ ?_
  exact Traced.meets_pure (by rw [hresult])

/-- A delimiter that is found cuts the text. -/
theorem exists_cut {delim : CString} (h : 0 ≤ strstr (some text) (some delim)) :
    ∃ before after, text = before ++ (delim ++ after) ∧
      strstr (some text) (some delim) = before.length ∧
      text.take (strstr (some text) (some delim)).toNat = before ∧
      text.drop ((strstr (some text) (some delim)).toNat + delim.length) = after := by
  obtain ⟨before, after, htext, hindex⟩ := exists_of_strstr_nonneg h
  rw [List.append_assoc] at htext
  refine ⟨before, after, htext, hindex, ?_, ?_⟩
  · rw [hindex, Int.toNat_natCast, htext, List.take_left]
  · rw [hindex, Int.toNat_natCast, htext, ← List.append_assoc, ← List.length_append,
      List.drop_left]

end standing

/-! ### The parts of the text -/

section parts

variable {value text : CString} {currIdx : ℤ}

theorem scanProtocol_meets (value : CString) :
    (scanProtocol value).Meets fun scanned ↦
      ∃ text, readProtocol value = (scanned.1, text) ∧ StandsAt value scanned.2 text := by
  have hstart := standsAt_zero value
  refine (hstart.meets_strstrFrom _).bind fun protoIdx hindex ↦ ?_
  subst hindex
  refine Traced.meets_ite (fun hfound ↦ ?_) fun hnone ↦ ?_
  · obtain ⟨before, after, hvalue, hindex, htake, hdrop⟩ := exists_cut (Int.le_of_lt hfound)
    have hparts : StandsAt value 0 (before ++ ("://".toList ++ after)) := by
      rw [← hvalue]
      exact hstart
    refine (hparts.meets_read hindex).bind fun protocol hprotocol ↦ Traced.meets_pure ?_
    refine ⟨after, ?_, ?_⟩
    · unfold readProtocol
      rw [if_pos hfound, htake, hprotocol]
      exact congrArg _ hdrop
    · rw [← List.append_assoc] at hparts
      refine hparts.append ?_
      rw [List.length_append, hindex]
      rfl
  · refine Traced.meets_pure ⟨value, ?_, hstart⟩
    unfold readProtocol
    rw [if_neg hnone]

theorem scanUser_meets (h : StandsAt value currIdx text) :
    (scanUser value currIdx).Meets fun scanned ↦
      ∃ left, readUser text = (scanned.1, scanned.2.1, left) ∧
        StandsAt value scanned.2.2 left := by
  refine (h.meets_strstrFrom _).bind fun atIdx hindex ↦ ?_
  subst hindex
  refine Traced.meets_ite (fun hfound ↦ ?_) fun hnone ↦ ?_
  · obtain ⟨before, after, htext, hindex, htake, hdrop⟩ := exists_cut (Int.le_of_lt hfound)
    have hdropAt : text.drop ((strstr (some text) (some "@".toList)).toNat + 1) = after := hdrop
    have hleft : StandsAt value (currIdx + (strstr (some text) (some "@".toList) + 1)) after := by
      rw [htext, ← List.append_assoc] at h
      refine h.append ?_
      rw [List.length_append, hindex]
      rfl
    refine (h.meets_strstrFrom _).bind fun colonIdx hcolon ↦ ?_
    subst hcolon
    refine Traced.meets_ite (fun hpassword ↦ ?_) fun huser ↦ ?_
    · obtain ⟨user, behind, htext', hcolon, htake', hdrop'⟩ := exists_cut (Int.le_of_lt hpassword.1)
      have hbefore : StandsAt value currIdx (user ++ (":".toList ++ behind)) := htext' ▸ h
      have hbehind :
          StandsAt value (currIdx + strstr (some text) (some ":".toList) + 1) behind := by
        rw [Int.add_assoc]
        rw [← List.append_assoc] at hbefore
        refine hbefore.append ?_
        rw [List.length_append, hcolon]
        rfl
      have hlength : (strstr (some text) (some "@".toList)).toNat -
          ((strstr (some text) (some ":".toList)).toNat + 1) ≤ behind.length := by
        have hwhole := congrArg List.length htext
        have hparts := congrArg List.length htext'
        rw [List.length_append, List.length_append] at hwhole hparts
        have hdelims : "@".toList.length = 1 ∧ ":".toList.length = 1 := ⟨rfl, rfl⟩
        omega
      have hmiddle := hbehind
      rw [← List.take_append_drop ((strstr (some text) (some "@".toList)).toNat -
          ((strstr (some text) (some ":".toList)).toNat + 1)) behind] at hmiddle
      refine (hbefore.meets_read hcolon).bind fun userText huserText ↦ ?_
      refine (hmiddle.meets_read ?_).bind fun password hpasswordText ↦ Traced.meets_pure ?_
      · rw [List.length_take, Nat.min_eq_left hlength]
        omega
      · refine ⟨after, ?_, hleft⟩
        unfold readUser
        dsimp only
        rw [if_pos hfound, if_pos hpassword, htake', huserText, hpasswordText]
        have hdropColon : text.drop ((strstr (some text) (some ":".toList)).toNat + 1) = behind :=
          hdrop'
        rw [hdropColon, hdropAt]
    · rw [htext] at h
      refine (h.meets_read hindex).bind fun user huserText ↦ Traced.meets_pure ?_
      refine ⟨after, ?_, hleft⟩
      unfold readUser
      dsimp only
      rw [if_pos hfound, if_neg huser, htake, huserText, hdropAt]
  · refine Traced.meets_pure ⟨text, ?_, h⟩
    unfold readUser
    rw [if_neg hnone]

theorem scanHost_meets (isAbsolute : Bool) (h : StandsAt value currIdx text) :
    (scanHost isAbsolute value currIdx).Meets fun scanned ↦
      ∃ left, readHost isAbsolute text = (scanned.1, left) ∧ StandsAt value scanned.2 left := by
  refine (h.meets_strstrFrom _).bind fun slashIdx hindex ↦ ?_
  subst hindex
  refine Traced.meets_ite (fun hfound ↦ ?_) fun hnone ↦ ?_
  · obtain ⟨before, after, htext, hindex, htake, -⟩ := exists_cut (Int.le_of_lt hfound)
    have hparts : StandsAt value currIdx (before ++ ("/".toList ++ after)) := htext ▸ h
    refine (hparts.meets_read hindex).bind fun host hhost ↦ Traced.meets_pure ?_
    refine ⟨"/".toList ++ after, ?_, hparts.append hindex⟩
    have hdrop : text.drop (strstr (some text) (some "/".toList)).toNat = "/".toList ++ after := by
      rw [hindex, Int.toNat_natCast, htext, List.drop_left]
    unfold readHost
    dsimp only
    rw [if_pos hfound, htake, hdrop, hhost]
  · refine Traced.meets_ite (fun habsolute ↦ ?_) fun hrelative ↦ ?_
    · refine (h.meets_read_rest rfl).bind fun host hhost ↦ Traced.meets_pure ⟨[], ?_, ?_⟩
      · unfold readHost
        dsimp only
        rw [if_neg hnone, if_pos habsolute, hhost]
      · have hwhole : StandsAt value currIdx (text ++ []) := by rwa [List.append_nil]
        refine hwhole.append ?_
        obtain ⟨front, rfl, rfl⟩ := h
        rw [List.length_append]
        omega
    · refine Traced.meets_pure ⟨text, ?_, h⟩
      unfold readHost
      dsimp only
      rw [if_neg hnone, if_neg hrelative]

theorem scanFragment_meets (h : StandsAt value currIdx text) {sharpIdx : ℤ}
    (hsharp : sharpIdx = strstr (some text) (some "#".toList)) (path : Option CString) :
    (scanFragment value currIdx sharpIdx path).Meets fun scanned ↦
      scanned = (if 0 ≤ sharpIdx then some (text.take sharpIdx.toNat) else path,
        readFragment text) := by
  subst hsharp
  refine Traced.meets_ite (fun hfound ↦ ?_) fun hnone ↦ ?_
  · obtain ⟨before, after, htext, hindex, htake, hdrop⟩ := exists_cut hfound
    have hparts : StandsAt value currIdx (before ++ ("#".toList ++ after)) := htext ▸ h
    have hafter : StandsAt value (currIdx + strstr (some text) (some "#".toList) + 1) after := by
      rw [Int.add_assoc]
      rw [← List.append_assoc] at hparts
      refine hparts.append ?_
      rw [List.length_append, hindex]
      rfl
    have hdropAt : text.drop ((strstr (some text) (some "#".toList)).toNat + 1) = after := hdrop
    refine (hparts.meets_read hindex).bind fun path hpath ↦ ?_
    refine (hafter.meets_read_rest rfl).bind fun fragment hfragment ↦ Traced.meets_pure ?_
    unfold readFragment
    dsimp only
    rw [if_pos hfound, if_pos hfound, htake, hdropAt, hpath, hfragment]
  · refine Traced.meets_pure ?_
    unfold readFragment
    dsimp only
    rw [if_neg hnone, if_neg hnone]

theorem scanQuery_meets (h : StandsAt value currIdx text) {sharpIdx : ℤ}
    (hsharp : sharpIdx = strstr (some text) (some "#".toList)) (path : Option CString) :
    (scanQuery value currIdx sharpIdx path).Meets fun scanned ↦
      scanned = (if 0 ≤ strstr (some text) (some "?".toList) ∧
          (sharpIdx < 0 ∨ strstr (some text) (some "?".toList) < sharpIdx) then
            some (text.take (strstr (some text) (some "?".toList)).toNat) else path,
        readQuery text) := by
  subst hsharp
  refine (h.meets_strstrFrom _).bind fun questionIdx hindex ↦ ?_
  subst hindex
  refine Traced.meets_ite (fun hfound ↦ ?_) fun hnone ↦ ?_
  · obtain ⟨before, behind, htext, hindex, htake, hdrop⟩ := exists_cut hfound.1
    have hparts : StandsAt value currIdx (before ++ ("?".toList ++ behind)) := htext ▸ h
    have hbehind : StandsAt value (currIdx + strstr (some text) (some "?".toList) + 1) behind := by
      rw [Int.add_assoc]
      rw [← List.append_assoc] at hparts
      refine hparts.append ?_
      rw [List.length_append, hindex]
      rfl
    have hdropAt : text.drop ((strstr (some text) (some "?".toList)).toNat + 1) = behind := hdrop
    refine (hparts.meets_read hindex).bind fun path hpath ↦ ?_
    by_cases hcut : 0 ≤ strstr (some text) (some "#".toList)
    · obtain ⟨front, fragment, htext', hsharp, -, -⟩ := exists_cut hcut
      have hlength : (strstr (some text) (some "#".toList)).toNat -
          ((strstr (some text) (some "?".toList)).toNat + 1) ≤ behind.length := by
        have hwhole := congrArg List.length htext
        have hfront := congrArg List.length htext'
        rw [List.length_append, List.length_append] at hwhole hfront
        have hdelims : "?".toList.length = 1 ∧ "#".toList.length = 1 := ⟨rfl, rfl⟩
        omega
      have hmiddle := hbehind
      rw [← List.take_append_drop ((strstr (some text) (some "#".toList)).toNat -
        ((strstr (some text) (some "?".toList)).toNat + 1)) behind] at hmiddle
      refine (hmiddle.meets_read ?_).bind fun query hquery ↦ Traced.meets_pure ?_
      · rw [List.length_take, Nat.min_eq_left hlength, if_pos hcut]
        omega
      · unfold readQuery
        dsimp only
        rw [if_pos hfound, if_pos hfound, if_pos hcut, hdropAt, htake, hpath, hquery]
    · refine (hbehind.meets_read_rest ?_).bind fun query hquery ↦ Traced.meets_pure ?_
      · rw [if_neg hcut]
      · unfold readQuery
        dsimp only
        rw [if_pos hfound, if_pos hfound, if_neg hcut, hdropAt, htake, hpath, hquery]
  · refine Traced.meets_pure ?_
    unfold readQuery
    dsimp only
    rw [if_neg hnone, if_neg hnone]

theorem scanPath_meets (isAbsolute : Bool) (h : StandsAt value currIdx text) :
    (scanPath isAbsolute value currIdx).Meets fun scanned ↦
      scanned = (if isAbsolute then some (readPath text) else relativePath value text,
        readQuery text, readFragment text) := by
  have hwhole : (if isAbsolute = false then pure (stringAddValue none (some value))
      else do
        let rest ← Traced.read value currIdx (value.length - currIdx)
        pure (some rest) : Traced Char (Option CString)).Meets fun whole ↦
      whole = if isAbsolute = false then stringAddValue none (some value) else some text := by
    refine Traced.meets_ite (fun hrelative ↦ ?_) fun habsolute ↦ ?_
    · exact Traced.meets_pure (if_pos hrelative).symm
    · refine (h.meets_read_rest rfl).bind fun rest hrest ↦ Traced.meets_pure ?_
      rw [if_neg habsolute, hrest]
  refine hwhole.bind fun whole hwhole ↦ ?_
  refine (h.meets_strstrFrom _).bind fun sharpIdx hsharp ↦ ?_
  refine (scanFragment_meets h hsharp whole).bind fun cut hcut ↦ ?_
  refine (scanQuery_meets h hsharp cut.1).bind fun parts hparts ↦ Traced.meets_pure ?_
  subst hsharp hparts hcut hwhole
  refine Prod.ext ?_ rfl
  dsimp only
  cases isAbsolute with
  | true =>
    simp only [Bool.true_eq_false, if_false, if_true]
    unfold readPath
    dsimp only
    split_ifs
    · rfl
    · rfl
    · rfl
  | false =>
    simp only [Bool.false_eq_true, if_false, if_true]
    unfold relativePath readPath
    dsimp only
    split_ifs with hquery hdelim hsharp hdelim
    · rfl
    · omega
    · rfl
    · omega
    · omega
    · rfl

end parts

/-! ### The parts of the host -/

theorem strrchr_lt_length (host : CString) (c : Char) : strrchr (some host) c < host.length := by
  unfold strrchr
  cases hlast : lastIndexOf c host with
  | none =>
    rw [Option.bind_some, hlast]
    dsimp only
    omega
  | some position =>
    rw [Option.bind_some, hlast]
    have hlt := lastIndexOf_lt hlast
    dsimp only
    omega

/-- The brackets are looked for in the shortened host, which has its own length. -/
theorem scanBrackets_meets {hostStr : CString} {colonIdx : ℤ} (hcolon : 0 < colonIdx)
    (hlength : colonIdx ≤ hostStr.length) :
    (scanBrackets hostStr (hostStr.take colonIdx.toNat) colonIdx).Meets fun bare ↦
      bare = if (hostStr.take colonIdx.toNat).head? = some '[' ∧
          (hostStr.take colonIdx.toNat).getLast? = some ']' then
            (hostStr.drop 1).take (colonIdx.toNat - 2)
        else hostStr.take colonIdx.toNat := by
  have hname : (hostStr.take colonIdx.toNat).length = colonIdx.toNat := by
    rw [List.length_take]
    omega
  have hne : hostStr.take colonIdx.toNat ≠ [] := List.ne_nil_of_length_pos (by omega)
  generalize htake : hostStr.take colonIdx.toNat = name at hname hne ⊢
  obtain ⟨first, rest, hfirst⟩ := List.exists_cons_of_ne_nil hne
  obtain ⟨init, last, hlast⟩ : ∃ init last, name = init ++ [last] :=
    ⟨name.dropLast, name.getLast hne, (List.dropLast_append_getLast hne).symm⟩
  have hinit : init.length + 1 = colonIdx.toNat := by
    rw [← hname, hlast, List.length_append, List.length_singleton]
  have hhead : name.head? = some first := by rw [hfirst, List.head?_cons]
  have hgetLast : name.getLast? = some last := by rw [hlast, List.getLast?_concat]
  simp only [hhead, hgetLast, Option.some.injEq]
  refine (Traced.meets_read [] [first] rest hfirst rfl rfl).bind fun front hfront ↦ ?_
  subst hfront
  refine Traced.meets_ite (fun hopen ↦ ?_) fun hopen ↦ ?_
  · have hlastIdx : name = init ++ ([last] ++ []) := by rw [List.append_nil, hlast]
    refine (Traced.meets_read init [last] [] hlastIdx (by omega) rfl).bind fun back hback ↦ ?_
    subst hback
    refine Traced.meets_ite (fun hclose ↦ ?_) fun hclose ↦ ?_
    · obtain rfl := List.singleton_inj.mp hopen
      obtain rfl := List.singleton_inj.mp hclose
      have htwo : 2 ≤ colonIdx.toNat := by
        have hpos : init ≠ [] := by
          rintro rfl
          rw [hlast] at hfirst
          exact absurd (List.cons.inj hfirst).1 (by decide)
        have hlength := List.length_pos_of_ne_nil hpos
        omega
      have hparts : hostStr = hostStr.take 1 ++
          ((hostStr.drop 1).take (colonIdx.toNat - 2) ++
            (hostStr.drop 1).drop (colonIdx.toNat - 2)) := by
        rw [List.take_append_drop, List.take_append_drop]
      rw [if_pos ⟨rfl, rfl⟩]
      refine Traced.meets_read _ _ _ hparts ?_ ?_
      · rw [List.length_take]
        omega
      · rw [List.length_take, List.length_drop]
        omega
    · rw [if_neg fun hboth ↦ hclose (congrArg (fun c ↦ [c]) hboth.2)]
      exact Traced.meets_pure rfl
  · rw [if_neg fun hboth ↦ hopen (congrArg (fun c ↦ [c]) hboth.1)]
    exact Traced.meets_pure rfl

theorem scanPort_meets (protocol host : Option CString) :
    (scanPort protocol host).Meets fun scanned ↦ scanned = splitPort protocol host := by
  unfold scanPort splitPort
  dsimp only
  refine Traced.meets_ite (fun hport ↦ ?_) fun hport ↦ ?_
  · rw [if_pos hport]
    obtain ⟨hostStr, rfl⟩ : ∃ hostStr, host = some hostStr := by
      cases host with
      | none => exact absurd hport.1 (by decide)
      | some hostStr => exact ⟨hostStr, rfl⟩
    rw [Option.getD_some]
    have hlt := strrchr_lt_length hostStr ':'
    have hpos := hport.1
    generalize strrchr (some hostStr) ':' = colonIdx at hlt hpos ⊢
    have hname : hostStr = [] ++ (hostStr.take colonIdx.toNat ++ hostStr.drop colonIdx.toNat) := by
      rw [List.take_append_drop, List.nil_append]
    have hbehind : hostStr =
        hostStr.take (colonIdx.toNat + 1) ++ (hostStr.drop (colonIdx.toNat + 1) ++ []) := by
      rw [List.append_nil, List.take_append_drop]
    refine (Traced.meets_read _ _ _ hname rfl ?_).bind fun name hread ↦ ?_
    · rw [List.length_take]
      omega
    subst hread
    refine (scanBrackets_meets hpos (Int.le_of_lt hlt)).bind fun bare hbare ↦ ?_
    refine (Traced.meets_read _ _ _ hbehind ?_ ?_).bind fun portStr hportStr ↦
      Traced.meets_pure ?_
    · rw [List.length_take]
      omega
    · rw [List.length_drop]
      omega
    · rw [hbare, hportStr]
  · rw [if_neg hport]
    exact Traced.meets_pure rfl

theorem scanZone_meets (host : Option CString) :
    (scanZone host).Meets fun scanned ↦ scanned = decodeZone host := by
  unfold scanZone decodeZone
  cases host with
  | none => exact Traced.meets_pure (by rfl)
  | some host =>
    dsimp only
    refine Traced.meets_ite (fun hipv6 ↦ ?_) fun hipv6 ↦ ?_
    · rw [if_pos hipv6, Option.map_some]
      cases hzone : indexOf "%25".toList host with
      | none => exact Traced.meets_pure rfl
      | some zone =>
        obtain ⟨before, after, hhost, hbefore⟩ := exists_of_indexOf_eq_some hzone
        have hlength : zone + 3 ≤ host.length := by
          rw [hhost, ← hbefore, List.length_append, List.length_append]
          exact Nat.le_add_right _ _
        have hfront : host = [] ++ (host.take (zone + 1) ++ host.drop (zone + 1)) := by
          rw [List.take_append_drop, List.nil_append]
        have hback : host = host.take (zone + 3) ++ (host.drop (zone + 3) ++ []) := by
          rw [List.append_nil, List.take_append_drop]
        refine (Traced.meets_read _ _ _ hfront rfl ?_).bind fun decoded hdecoded ↦ ?_
        · rw [List.length_take]
          omega
        refine (Traced.meets_read _ _ _ hback ?_ ?_).bind fun behind hbehind ↦
          Traced.meets_pure ?_
        · rw [List.length_take]
          omega
        · rw [List.length_drop]
          omega
        · rw [hdecoded, hbehind]
    · rw [if_neg hipv6]
      exact Traced.meets_pure rfl

/-! ### The whole text -/

theorem setValueIndexed_meets (value : CString) :
    (setValueIndexed value).Meets fun scanned ↦ scanned = NetUri.setValue value := by
  refine (scanProtocol_meets value).bind fun protocol hprotocol ↦ ?_
  obtain ⟨behindProtocol, hprotocol, hatProtocol⟩ := hprotocol
  refine (scanUser_meets hatProtocol).bind fun user huser ↦ ?_
  obtain ⟨behindUser, huser, hatUser⟩ := huser
  refine (scanHost_meets protocol.1.isSome hatUser).bind fun hostPort hhost ↦ ?_
  obtain ⟨left, hhost, hatLeft⟩ := hhost
  refine (scanPort_meets protocol.1 hostPort.1).bind fun host hport ↦ ?_
  refine (scanZone_meets host.1).bind fun decoded hdecoded ↦ ?_
  refine (scanPath_meets protocol.1.isSome hatLeft).bind fun parts hparts ↦ Traced.meets_pure ?_
  unfold NetUri.setValue
  simp only [hprotocol, huser, hhost, ← hport, hdecoded, hparts]

/-- The scanner with its indices takes the parts that the scanner takes. -/
theorem setValueIndexed_result (value : CString) :
    (setValueIndexed value).result = NetUri.setValue value :=
  (setValueIndexed_meets value).2

/-- Every slice that the scanner asks for lies within the text or the copy of the host that it is
cut from. -/
theorem setValueIndexed_inBounds (value : CString) :
    ∀ slice ∈ (setValueIndexed value).slices,
      0 ≤ slice.offset ∧ 0 ≤ slice.length ∧ slice.offset + slice.length ≤ slice.source.length :=
  (setValueIndexed_meets value).1

/-- The host of an absolute URI is one of the slices. -/
theorem setValueIndexed_inBounds_host :
    (0 : ℤ) ≤ 7 ∧ (0 : ℤ) ≤ 1 ∧ (7 : ℤ) + 1 ≤ "http://a/b".toList.length :=
  setValueIndexed_inBounds "http://a/b".toList ⟨"http://a/b".toList, 7, 1⟩ (by decide +kernel)

end Mupnp.Net
