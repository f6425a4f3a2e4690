import Mupnp.Http.HttpRoundTrip
import Mupnp.Net.AddressScan
import Mupnp.Service.UrlResolution

/-!
# The target of a request that is read

`mupnp_http_request_read` keeps the target of the request line, and makes it relative when the
scanner takes it for an absolute URI. The scanner looks for `://` and for an at sign anywhere in the
text. A target in origin form therefore stays as it is exactly when it has no `://`, and an absolute
target becomes its path and query exactly when no at sign stands behind an authority without user
information, and no query is there that is empty (`request_target_iff`).

A request line that is so long that nothing of its version fits into the line buffer is refused
(`setFirstLine_of_not_versionFits`).
-/

set_option autoImplicit false
set_option relaxedAutoImplicit false

namespace Mupnp.Http

open Foundation Util Net Service

/-! ### The scanned target -/

/-- What the scanner leaves for the path and the query. -/
def leftOf (value : CString) : CString :=
  (readHost (readProtocol value).1.isSome (readUser (readProtocol value).2).2.2).2

/-- The path and the query that the scanner reads from a text. -/
def requestText (left : CString) : CString :=
  if 0 < strlen (readQuery left) then readPath left ++ '?' :: (readQuery left).getD []
  else readPath left

/-- The target that is stored for the one that was sent. -/
def storedTarget (target : CString) : CString :=
  if (readProtocol target).1.isSome = true then requestText (leftOf target) else target

theorem readProtocol_ne_nil {value protocol : CString}
    (h : (readProtocol value).1 = some protocol) :
    protocol ≠ [] ∧ (readProtocol value).2.length < value.length := by
  unfold readProtocol at h ⊢
  simp only at h ⊢
  split_ifs at h ⊢ with hpos
  · obtain ⟨position, hposition⟩ : ∃ position, indexOf "://".toList value = some position := by
      cases hindex : indexOf "://".toList value with
      | some position => exact ⟨position, rfl⟩
      | none =>
        rw [strstr, hindex] at hpos
        exact absurd hpos (by decide)
    obtain ⟨before, after, rfl, hlength⟩ := exists_of_indexOf_eq_some hposition
    have hstrstr :
        strstr (some (before ++ "://".toList ++ after)) (some "://".toList) = position := by
      simp only [strstr, hposition]
    rw [hstrstr] at hpos h ⊢
    have hthree : "://".toList.length = 3 := by decide
    refine ⟨?_, ?_⟩
    · rintro rfl
      have hempty := congrArg List.length (Option.some.inj h)
      simp only [List.length_take, List.length_append, List.length_nil] at hempty
      omega
    · simp only [List.length_drop, List.length_append]
      omega

/-- The target that is made relative. -/
theorem makeUriRelative_uri {httpReq : HttpRequest} {target : CString}
    (huri : httpReq.uri = some target) :
    httpReq.makeUriRelative.uri = some (storedTarget target) := by
  unfold storedTarget
  cases hprotocol : (readProtocol target).1 with
  | none =>
    rw [makeUriRelative_of_none huri hprotocol]
    exact huri
  | some protocol =>
    unfold HttpRequest.makeUriRelative
    rw [huri, Option.getD_some]
    have hne := (readProtocol_ne_nil hprotocol).1
    have habsolute : (NetUri.setValue target).isAbsolute = true := by
      have hsome : (NetUri.setValue target).protocol = some protocol := hprotocol
      rw [NetUri.isAbsolute, hsome]
      exact decide_eq_true (List.length_pos_iff.mpr hne)
    have hpath : (NetUri.setValue target).path = some (readPath (leftOf target)) := by
      change (if (readProtocol target).1.isSome = true then some (readPath (leftOf target))
        else _) = _
      rw [hprotocol]
      rfl
    have hquery : (NetUri.setValue target).query = readQuery (leftOf target) := rfl
    have hrequest : (NetUri.setValue target).getRequest = some (requestText (leftOf target)) := by
      unfold NetUri.getRequest NetUri.hasQuery requestText
      rw [hpath, hquery, stringLength]
      by_cases hpos : 0 < strlen (readQuery (leftOf target))
      · obtain ⟨query, hsome, hquery⟩ := eq_some_of_strlen_pos hpos
        rw [if_pos hpos, if_neg (by simp [hpos]), hsome]
        obtain ⟨c, rest, rfl⟩ := List.exists_cons_of_ne_nil hquery
        simp [stringAddValue, stringSetValue, show "?".toList = ['?'] from by decide]
      · rw [if_neg hpos, if_pos (by simp [hpos])]
    simp only [habsolute, hrequest, Option.isSome_some, if_true]
    rfl

/-! ### Lengths -/

/-- What is read is not longer than what it is read from. -/
theorem length_requestText_le (left : CString) : (requestText left).length ≤ left.length := by
  have hpath : (readPath left).length ≤ left.length := by
    rw [readPath_eq]
    exact (List.takeWhile_prefix _).length_le
  unfold requestText
  split_ifs with hpos
  · obtain ⟨query, hquery, -⟩ := eq_some_of_strlen_pos hpos
    have hcut : 0 ≤ strstr (some left) (some "?".toList) ∧
        (strstr (some left) (some "#".toList) < 0 ∨
          strstr (some left) (some "?".toList) < strstr (some left) (some "#".toList)) := by
      by_contra hnot
      unfold readQuery at hquery
      simp only at hquery
      rw [if_neg hnot] at hquery
      cases hquery
    have hmem : '?' ∈ left := by
      by_contra hnot
      have hnone : strstr (some left) (some "?".toList) = -1 := strstr_singleton_of_not_mem hnot
      omega
    obtain ⟨front, back, rfl, hfront⟩ := List.eq_append_cons_of_mem hmem
    have hindex : strstr (some (front ++ '?' :: back)) (some "?".toList) = front.length :=
      strstr_singleton_append hfront back
    have hback : query.length ≤ back.length := by
      unfold readQuery at hquery
      simp only at hquery
      rw [if_pos hcut, hindex, Int.toNat_natCast, List.drop_length_add_append,
        List.drop_succ_cons, List.drop_zero] at hquery
      rw [← Option.some.inj hquery]
      split_ifs
      · exact (List.take_prefix _ _).length_le
      · exact Nat.le_refl _
    have hread : readPath (front ++ '?' :: back) = front := by
      unfold readPath
      simp only
      rw [if_pos hcut, hindex, Int.toNat_natCast, List.take_left]
    rw [hread, hquery, Option.getD_some, List.length_append, List.length_append, List.length_cons,
      List.length_cons]
    omega
  · exact hpath

/-- The scanner only goes forward. -/
theorem length_readUser_le (text : CString) : (readUser text).2.2.length ≤ text.length := by
  unfold readUser
  simp only
  split_ifs
  · exact (List.drop_suffix _ _).length_le
  · exact (List.drop_suffix _ _).length_le
  · exact Nat.le_refl _

theorem length_readHost_le (isAbsolute : Bool) (text : CString) :
    (readHost isAbsolute text).2.length ≤ text.length := by
  unfold readHost
  simp only
  split_ifs
  · exact (List.drop_suffix _ _).length_le
  · exact Nat.zero_le _
  · exact Nat.le_refl _

/-! ### Targets in origin form -/

/-- A target that begins with a slash is stored as it is exactly when it has no `://`. -/
theorem storedTarget_origin_iff {target : CString} (hslash : target.head? = some '/') :
    storedTarget target = target ↔ ¬ "://".toList <:+: target := by
  constructor
  · intro hstored hwithin
    obtain ⟨before, -, -, -, hprotocol⟩ := exists_protocol_of_infix hwithin
      (by rw [hslash]; decide)
    have hshorter := (readProtocol_ne_nil hprotocol).2
    unfold storedTarget at hstored
    rw [hprotocol, Option.isSome_some, if_pos rfl] at hstored
    have hlength := length_requestText_le (leftOf target)
    have hleft : (leftOf target).length ≤ (readProtocol target).2.length :=
      (length_readHost_le _ _).trans (length_readUser_le _)
    rw [hstored] at hlength
    omega
  · intro hnot
    unfold storedTarget
    rw [readProtocol_of_no_scheme hnot]
    rfl

/-! ### Absolute targets -/

/-- The path and the query of a URI are read back where the query is not empty. -/
theorem requestText_tailText_iff {uri : Uri} (h : uri.IsWellFormed) :
    requestText (tailText uri) = tailText uri ↔ uri.query ≠ some [] := by
  have hpath : ∀ c ∈ uri.path, c ≠ '?' ∧ c ≠ '#' := by
    intro c hc
    exact ⟨ne_of_mem_of_not_mem hc (h.path.not_mem (by decide)),
      ne_of_mem_of_not_mem hc (h.path.not_mem (by decide))⟩
  have hquery : ∀ text ∈ uri.query, '#' ∉ text :=
    fun text htext ↦ (h.query text htext).not_mem (by decide)
  unfold requestText tailText
  rw [readPath_append hpath hquery, readQuery_append hpath hquery]
  cases uri.query with
  | none => simp [strlen, queryText]
  | some query =>
    cases query with
    | nil => simp [strlen, queryText]
    | cons c query => simp [strlen, queryText]

/-- Where the authority ends when the scanner finds its user. -/
theorem leftOf_eq {uri : Uri} {authority : UriAuthority} (h : uri.IsWellFormed)
    (hauthority : uri.authority = some authority) (hslash : (tailText uri).head? = some '/')
    (huser : authority.userinfo = none → '@' ∉ tailText uri) : leftOf uri.text = tailText uri := by
  have hwell := h.authority authority hauthority
  obtain ⟨rest, htail⟩ := List.head?_eq_some_iff.mp hslash
  have hnot : '/' ∉ hostPortText authority := hostPortText_not_mem hwell (by decide)
  have hread : (readUser (authority.text ++ tailText uri)).2.2 =
        hostPortText authority ++ tailText uri ∨
      (readUser (authority.text ++ tailText uri)).2.2 =
        '@' :: (hostPortText authority ++ tailText uri) := by
    cases huserinfo : authority.userinfo with
    | none =>
      obtain ⟨user, password, hread, -⟩ := @readUser_authority authority hwell (tailText uri) (by
        unfold UserScans
        rw [huserinfo]
        exact huser huserinfo)
      exact Or.inl (by rw [hread])
    | some userinfo =>
      by_cases hne : userinfo = []
      · refine Or.inr ?_
        have hwhole : authority.text ++ tailText uri =
            '@' :: (hostPortText authority ++ tailText uri) := by
          rw [UriAuthority.text, huserinfo, hne]
          simp [userinfoText, hostPortText]
        rw [hwhole, readUser_cons_at]
      · obtain ⟨user, password, hread, -⟩ := @readUser_authority authority hwell (tailText uri) (by
          unfold UserScans
          rw [huserinfo]
          exact hne)
        exact Or.inl (by rw [hread])
  unfold leftOf
  rw [readProtocol_text h hauthority, Option.isSome_some]
  rcases hread with hread | hread
  · rw [hread, readHost_absolute (head?_hostPortText_ne hwell _), htail]
    exact dropWhile_ne_append_cons hnot rest
  · have hfront : '/' ∉ '@' :: hostPortText authority :=
      List.not_mem_cons_of_ne_of_not_mem (by decide) hnot
    rw [hread, readHost_absolute (by simp), htail, ← List.cons_append]
    exact dropWhile_ne_append_cons hfront rest

/-- An absolute target is stored as its path and query exactly when no at sign stands behind an
authority without user information and its query is not empty. -/
theorem storedTarget_absolute_iff {uri : Uri} {authority : UriAuthority} (h : uri.IsWellFormed)
    (hauthority : uri.authority = some authority) (hpath : uri.path ≠ []) :
    storedTarget uri.text = tailText uri ↔
      (authority.userinfo = none → '@' ∉ tailText uri) ∧ uri.query ≠ some [] := by
  have hslash : (tailText uri).head? = some '/' := by
    rw [tailText, List.head?_append_of_ne_nil _ hpath]
    exact (h.path_absolute (by rw [hauthority]; rfl)).resolve_left hpath
  have hstored : storedTarget uri.text = requestText (leftOf uri.text) := by
    unfold storedTarget
    rw [readProtocol_text h hauthority, Option.isSome_some, if_pos rfl]
  rw [hstored]
  by_cases huser : authority.userinfo = none → '@' ∉ tailText uri
  · rw [leftOf_eq h hauthority hslash huser, requestText_tailText_iff h]
    exact ⟨fun hquery ↦ ⟨huser, hquery⟩, fun hboth ↦ hboth.2⟩
  · refine iff_of_false (fun hrequest ↦ ?_) fun hboth ↦ huser hboth.1
    obtain ⟨huserinfo, hat⟩ := Classical.not_imp.mp huser
    rw [not_not] at hat
    obtain ⟨before, after, hsplit, hbefore⟩ := List.eq_append_cons_of_mem hat
    have hwell := h.authority authority hauthority
    have hfront : '@' ∉ hostPortText authority ++ before := by
      rw [List.mem_append, not_or]
      exact ⟨hostPortText_not_mem hwell (by decide), hbefore⟩
    obtain ⟨user, password, hread, -⟩ := readUser_append_at
      (List.append_ne_nil_of_left_ne_nil (hostPortText_ne_nil hwell) before) hfront after
    have hwhole : authority.text ++ tailText uri =
        hostPortText authority ++ before ++ '@' :: after := by
      rw [UriAuthority.text, huserinfo, hsplit]
      simp [userinfoText, hostPortText]
    have hleft : (leftOf uri.text).length ≤ after.length := by
      unfold leftOf
      rw [readProtocol_text h hauthority, hwhole, hread]
      exact length_readHost_le _ _
    have hlength := length_requestText_le (leftOf uri.text)
    rw [hrequest, hsplit, List.length_append, List.length_cons] at hlength
    omega

/-! ### The request line -/

/-- A request line. -/
def requestLine (method target version : CString) : CString :=
  method ++ ' ' :: (target ++ ' ' :: (version ++ ['\r']))

/-- What the line buffer holds of a request line. -/
def takenLine (method target version : CString) : CString :=
  (requestLine method target version ++ ['\n']).take (readlineBufSize - 1)

/-- The line buffer holds the beginning of the version. -/
def VersionFits (method target : CString) : Prop :=
  method.length + target.length + 2 < readlineBufSize - 1

instance (method target : CString) : Decidable (VersionFits method target) :=
  inferInstanceAs (Decidable (_ < _))

/-- A text without a delimiter is one token. -/
theorem lookAhead_end {token : CString} (h : ∀ c ∈ token, statuslineDelim.contains c = false) :
    StringTokenizer.lookAhead statuslineDelim token =
      if token = [] then none else some ⟨token, none, []⟩ := by
  have hnone : token.dropWhile (fun c ↦ !statuslineDelim.contains c) = [] :=
    List.dropWhile_eq_nil_iff.mpr fun c hc ↦ by rw [h c hc]; rfl
  have hall : token.takeWhile (fun c ↦ !statuslineDelim.contains c) = token :=
    List.takeWhile_eq_self_iff.mpr fun c hc ↦ by rw [h c hc]; rfl
  have hstart : token.dropWhile (statuslineDelim.contains ·) = token := by
    cases token with
    | nil => rfl
    | cons c rest => exact List.dropWhile_cons_of_neg (Bool.not_eq_true _ ▸ h c List.mem_cons_self)
  unfold StringTokenizer.lookAhead
  simp only [hstart, hnone, hall, List.head?_nil, List.tail_nil]

section line

variable {method target version : CString} (hmethod : IsToken method) (htarget : IsToken target)
  (hversion : IsToken version)
include hmethod htarget hversion

/-- A line whose version has a beginning in the buffer is complete. -/
theorem setFirstLine_of_versionFits (httpReq : HttpRequest) (hfits : VersionFits method target) :
    (httpReq.setFirstLine (takenLine method target version)).1.uri = some target ∧
      (httpReq.setFirstLine (takenLine method target version)).2 = true := by
  have hblank : statuslineDelim.contains ' ' = true := by decide
  obtain ⟨c, rest, rfl⟩ := List.exists_cons_of_ne_nil hversion.ne_nil
  have hc := hversion.not_contains c List.mem_cons_self
  obtain ⟨behind, htaken⟩ : ∃ behind, takenLine method target (c :: rest) =
      method ++ ' ' :: (target ++ ' ' :: c :: behind) := by
    unfold VersionFits at hfits
    refine ⟨(rest ++ ['\r', '\n']).take
      (readlineBufSize - 1 - (method.length + target.length + 3)), ?_⟩
    have hwhole : requestLine method target (c :: rest) ++ ['\n'] =
        (method ++ ' ' :: (target ++ [' ', c])) ++ (rest ++ ['\r', '\n']) := by
      simp [requestLine]
    have hlength : (method ++ ' ' :: (target ++ [' ', c])).length =
        method.length + target.length + 3 := by
      simp only [List.length_append, List.length_cons, List.length_nil]
      omega
    rw [takenLine, hwhole, List.take_append, List.take_of_length_le (by omega), hlength]
    simp
  unfold HttpRequest.setFirstLine StringTokenizer.new StringTokenizer.nextToken
  rw [htaken, hmethod.lookAhead hblank]
  simp only [Option.map_some, Option.bind_some, htarget.lookAhead hblank, stringSetValue_some,
    Option.isSome_some, Bool.true_and, true_and]
  have hstart : (c :: behind).dropWhile (statuslineDelim.contains ·) = c :: behind :=
    List.dropWhile_cons_of_neg (Bool.not_eq_true _ ▸ hc)
  unfold StringTokenizer.lookAhead
  simp only [hstart, if_neg (List.cons_ne_nil c behind), Option.map_some, Option.isSome_some]

omit hversion in
/-- A line whose version has nothing in the buffer is not complete. -/
theorem setFirstLine_of_not_versionFits (httpReq : HttpRequest)
    (hfits : ¬ VersionFits method target) :
    (httpReq.setFirstLine (takenLine method target version)).2 = false := by
  have hblank : statuslineDelim.contains ' ' = true := by decide
  have hend : StringTokenizer.lookAhead statuslineDelim [] = none := rfl
  have hfront : takenLine method target version =
      (method ++ ' ' :: (target ++ [' '])).take (readlineBufSize - 1) := by
    unfold VersionFits at hfits
    have hwhole : requestLine method target version ++ ['\n'] =
        (method ++ ' ' :: (target ++ [' '])) ++ (version ++ ['\r', '\n']) := by
      simp [requestLine]
    rw [takenLine, hwhole, List.take_append_of_le_length]
    simp only [List.length_append, List.length_cons, List.length_nil]
    omega
  unfold HttpRequest.setFirstLine StringTokenizer.new StringTokenizer.nextToken
  rw [hfront]
  rcases Nat.lt_or_ge method.length (readlineBufSize - 1) with hlong | hshort
  · obtain ⟨room, hroom⟩ : ∃ room, readlineBufSize - 1 = method.length + 1 + room :=
      ⟨readlineBufSize - 1 - (method.length + 1), by omega⟩
    have htake : (method ++ ' ' :: (target ++ [' '])).take (readlineBufSize - 1) =
        method ++ ' ' :: (target ++ [' ']).take room := by
      rw [hroom, List.take_append, List.take_of_length_le (by omega),
        show method.length + 1 + room - method.length = room + 1 by omega, List.take_succ_cons]
    rw [htake, hmethod.lookAhead hblank]
    rcases Nat.lt_or_ge target.length room with hwhole | hcut
    · have htarget' : (target ++ [' ']).take room = target ++ [' '] := by
        rw [List.take_of_length_le]
        simp only [List.length_append, List.length_cons, List.length_nil]
        omega
      simp only [Option.map_some, Option.bind_some, htarget', htarget.lookAhead hblank, hend,
        Option.map_none, Option.isSome_none, Bool.and_false]
    · have htarget' : (target ++ [' ']).take room = target.take room :=
        List.take_append_of_le_length hcut
      have hchars : ∀ c ∈ target.take room, statuslineDelim.contains c = false :=
        fun c hc ↦ htarget.not_contains c (List.mem_of_mem_take hc)
      simp only [Option.map_some, Option.bind_some, htarget', lookAhead_end hchars]
      split_ifs
      · simp only [Option.map_none, Option.bind_none, Option.isSome_none, Bool.and_false]
      · simp only [Option.map_some, Option.bind_some, hend, Option.map_none, Option.isSome_none,
          Bool.and_false]
  · have htake : (method ++ ' ' :: (target ++ [' '])).take (readlineBufSize - 1) =
        method.take (readlineBufSize - 1) := List.take_append_of_le_length hshort
    have hchars : ∀ c ∈ method.take (readlineBufSize - 1), statuslineDelim.contains c = false :=
      fun c hc ↦ hmethod.not_contains c (List.mem_of_mem_take hc)
    rw [htake, lookAhead_end hchars]
    split_ifs
    · simp only [Option.map_none, Option.bind_none, Option.isSome_none, Bool.and_false]
    · simp only [Option.map_some, Option.bind_some, hend, Option.map_none, Option.bind_none,
        Option.isSome_none, Bool.and_false]

/-- The request line at the front of a stream is taken into the line buffer. -/
theorem readFirstLine_requestLine {sock : Socket} {rest : List Char}
    (hsock : sock.content = requestLine method target version ++ '\n' :: rest) (bound : ℕ) :
    ∃ later : Socket, HttpRequest.readFirstLine (bound + 1) sock =
        (some (takenLine method target version), later) ∧
      bufferString (takenLine method target version) = takenLine method target version := by
  have hchars : ∀ c ∈ requestLine method target version, c ≠ '\n' ∧ c ≠ '\x00' := by
    intro c hc
    simp only [requestLine, List.mem_append, List.mem_cons, List.not_mem_nil, or_false] at hc
    rcases hc with hc | rfl | hc | rfl | hc | rfl
    · exact hmethod.lineChars c hc
    · decide
    · exact htarget.lineChars c hc
    · decide
    · exact hversion.lineChars c hc
    · decide
  have hline : '\n' ∉ requestLine method target version := fun hmem ↦ (hchars _ hmem).1 rfl
  obtain ⟨later, hread, -⟩ := readLine_eq_take hline readlineBufSize hsock
  refine ⟨later, ?_, bufferString_eq_self fun c hc ↦ ?_⟩
  · have hlength : 2 < (takenLine method target version).length := by
      have hpos := List.length_pos_iff.mpr hmethod.ne_nil
      have hroom : readlineBufSize = 512 := rfl
      unfold takenLine requestLine
      simp only [List.length_take, List.length_append, List.length_cons, List.length_nil]
      omega
    rw [HttpRequest.readFirstLine, hread]
    exact if_neg fun hshort ↦ by
      have hle := hshort.2
      unfold takenLine at hlength
      omega
  · rcases List.mem_append.mp (List.mem_of_mem_take hc) with hc | hc
    · exact (hchars c hc).2
    · obtain rfl := List.mem_singleton.mp hc
      decide

/-- A request that is read keeps the target of its request line, made relative. -/
theorem read_uri {sock : Socket} {rest : List Char}
    (hsock : sock.content = requestLine method target version ++ '\n' :: rest)
    (httpReq : HttpRequest) (hfits : VersionFits method target) :
    (httpReq.read sock).2.1.uri = some (storedTarget target) := by
  obtain ⟨later, hline, hbuffer⟩ :=
    readFirstLine_requestLine hmethod htarget hversion hsock sock.content.length
  obtain ⟨huri, hcomplete⟩ :=
    setFirstLine_of_versionFits hmethod htarget hversion httpReq.clear hfits
  have hrelative := makeUriRelative_uri huri
  unfold HttpRequest.read
  simp only [hline, hbuffer, hcomplete, Bool.true_eq_false, if_false]
  split_ifs
  · exact hrelative
  · exact hrelative

end line

/-! ### What is stored -/

/-- A request line that is taken as a whole leaves this target in the request. -/
def StoresTarget (httpReq : HttpRequest) (sock : Socket) (target : CString) : Prop :=
  ∀ line later, HttpRequest.readFirstLine (sock.content.length + 1) sock = (some line, later) →
    (httpReq.clear.setFirstLine (bufferString line)).2 = true →
      (httpReq.read sock).2.1.uri = some target

section stored

variable {method target version : CString} (hmethod : IsToken method) (htarget : IsToken target)
  (hversion : IsToken version)
include hmethod htarget hversion

theorem storesTarget_iff {sock : Socket} {rest : List Char}
    (hsock : sock.content = requestLine method target version ++ '\n' :: rest)
    (httpReq : HttpRequest) (expected : CString) :
    StoresTarget httpReq sock expected ↔
      (VersionFits method target → storedTarget target = expected) := by
  obtain ⟨later, hline, hbuffer⟩ :=
    readFirstLine_requestLine hmethod htarget hversion hsock sock.content.length
  constructor
  · intro h hfits
    have hcomplete := (setFirstLine_of_versionFits hmethod htarget hversion httpReq.clear hfits).2
    have huri := h _ later hline (hbuffer.symm ▸ hcomplete)
    exact Option.some.inj ((read_uri hmethod htarget hversion hsock httpReq hfits).symm.trans huri)
  · intro h line other hread hcomplete
    obtain rfl := Option.some.inj (Prod.mk.inj (hline.symm.trans hread)).1
    by_cases hfits : VersionFits method target
    · rw [read_uri hmethod htarget hversion hsock httpReq hfits, h hfits]
    · rw [hbuffer, setFirstLine_of_not_versionFits hmethod htarget _ hfits] at hcomplete
      cases hcomplete

/-- A target in origin form is stored as it was sent exactly when it has no `://`, and an absolute
one as its path and query exactly when no at sign stands behind an authority without user
information and the query is not empty; or the line is refused because nothing of its version is in
the line buffer. -/
theorem request_target_iff {sock : Socket} {rest : List Char}
    (hsock : sock.content = requestLine method target version ++ '\n' :: rest)
    (httpReq : HttpRequest) :
    (target.head? = some '/' →
        (StoresTarget httpReq sock target ↔
          (VersionFits method target → ¬ "://".toList <:+: target))) ∧
      ∀ (uri : Uri) (authority : UriAuthority), IsHttpUri uri → uri.authority = some authority →
        uri.path ≠ [] → target = uri.text →
          (StoresTarget httpReq sock (uri.path ++ queryText uri.query) ↔
            (VersionFits method target →
              (authority.userinfo = none → '@' ∉ uri.path ++ queryText uri.query) ∧
                uri.query ≠ some [])) := by
  constructor
  · intro hslash
    rw [storesTarget_iff hmethod htarget hversion hsock, storedTarget_origin_iff hslash]
  · rintro uri authority h hauthority hpath rfl
    rw [storesTarget_iff hmethod htarget hversion hsock]
    exact imp_congr_right fun _ ↦ storedTarget_absolute_iff h.wellFormed hauthority hpath

end stored

theorem request_target_iff_root :
    StoresTarget (HttpRequest.new []) ⟨["GET /a@b HTTP/1.1\r\n\r\n".toList]⟩ "/a@b".toList :=
  ((@request_target_iff "GET".toList "/a@b".toList "HTTP/1.1".toList ⟨by decide, by decide⟩
    ⟨by decide, by decide⟩ ⟨by decide, by decide⟩ ⟨["GET /a@b HTTP/1.1\r\n\r\n".toList]⟩
    "\r\n".toList (by decide) (HttpRequest.new [])).1 rfl).mpr fun _ ↦ by decide

/-- The query of the target has a URL in it. -/
theorem not_request_target :
    ¬ ∀ (method target version : CString) (sock : Socket) (rest : List Char)
        (httpReq : HttpRequest), IsToken method → IsToken target → IsToken version →
      sock.content = requestLine method target version ++ '\n' :: rest →
        target.head? = some '/' → StoresTarget httpReq sock target := by
  intro h
  have hstores := h "GET".toList "/a?u=http://b/c".toList "HTTP/1.1".toList
    ⟨["GET /a?u=http://b/c HTTP/1.1\r\n\r\n".toList]⟩ "\r\n".toList (HttpRequest.new [])
    ⟨by decide, by decide⟩ ⟨by decide, by decide⟩ ⟨by decide, by decide⟩ (by decide) rfl
  have hstored := (@storesTarget_iff "GET".toList "/a?u=http://b/c".toList "HTTP/1.1".toList
    ⟨by decide, by decide⟩ ⟨by decide, by decide⟩ ⟨by decide, by decide⟩
    ⟨["GET /a?u=http://b/c HTTP/1.1\r\n\r\n".toList]⟩ "\r\n".toList (by decide)
    (HttpRequest.new []) _).mp hstores (by decide)
  exact (storedTarget_origin_iff rfl).mp hstored (by decide)

end Mupnp.Http
