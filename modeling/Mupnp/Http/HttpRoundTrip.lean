import Mupnp.Http.HttpRequest
import Mupnp.Http.HttpResponse

/-!
# HTTP messages that are read as they were written

What the writer of a packet does not protect and the reader takes for syntax: the separators of
the lines, the colon behind a name, and the delimiters that are trimmed around a value. A message
without them in the wrong place is read back whole, however the stream is cut on its way
(`http_round_trip`).
-/

set_option autoImplicit false
set_option relaxedAutoImplicit false

namespace Mupnp.Http

open Foundation Net Util

/-! ### What can be written -/

/-- A word of the first line. -/
structure IsToken (token : CString) : Prop where
  ne_nil : token ≠ []
  chars : ∀ c ∈ token, isspace c = false ∧ c ≠ '\x00'

/-- A text within a line that does not begin or end with a character that is trimmed. -/
structure IsTrimmed (trimmed : CString) (text : CString) : Prop where
  chars : ∀ c ∈ text, c ≠ '\r' ∧ c ≠ '\n' ∧ c ≠ '\x00'
  head : ∀ c, text.head? = some c → c ∉ trimmed
  last : ∀ c, text.getLast? = some c → c ∉ trimmed

/-- A header with a name that is a word without a colon, a trimmed value, and a line that fits the
read buffer. -/
structure IsHeader (name value : CString) : Prop where
  name_token : IsToken name
  name_colon : ':' ∉ name
  value_trimmed : IsTrimmed " :".toList value
  line : (HttpPacket.headerLine ⟨some name, some value⟩).length < readlineBufSize

theorem forall_isHeader_nil : ∀ header ∈ ([] : List HttpHeader), ∃ name value,
    header = ⟨some name, some value⟩ ∧ IsHeader name value := List.forall_mem_nil _

/-- Headers that are written one after the other. -/
theorem forall_isHeader_cons {name value : CString} {headers : List HttpHeader}
    (hfirst : IsHeader name value) (hrest : ∀ header ∈ headers, ∃ name value,
      header = ⟨some name, some value⟩ ∧ IsHeader name value) :
    ∀ header ∈ ⟨some name, some value⟩ :: headers, ∃ name value,
      header = ⟨some name, some value⟩ ∧ IsHeader name value :=
  List.forall_mem_cons.mpr ⟨⟨name, value, rfl, hfirst⟩, hrest⟩

/-- A packet of such headers whose body has the length that `Content-Length` says. With its
terminator the body fits an object in memory. -/
structure IsPacket (httpPkt : HttpPacket) : Prop where
  headers : ∀ header ∈ httpPkt.headers, ∃ name value,
    header = ⟨some name, some value⟩ ∧ IsHeader name value
  length : ∃ digits, httpPkt.getHeaderValue "Content-Length".toList = some digits ∧ digits ≠ [] ∧
    (∀ c ∈ digits, c.isDigit = true) ∧ digitsValue 0 digits = (httpPkt.content.getD []).length
  memory : ((httpPkt.content.getD []).length : ℤ) < longMax

/-! ### Headers -/

theorem bufferString_eq_self {line : List Char} (h : ∀ c ∈ line, c ≠ '\x00') :
    bufferString line = line :=
  bufferString_eq_self_iff.mpr fun hmem ↦ h _ hmem rfl

theorem contains_headerlineDelim {c : Char} :
    headerlineDelim.contains c = true ↔ c = '\r' ∨ c = '\n' ∨ c = ' ' ∨ c = ':' := by
  rw [List.contains_iff_mem]
  exact ⟨fun h ↦ by simpa [headerlineDelim] using h, fun h ↦ by simpa [headerlineDelim] using h⟩

theorem contains_statuslineDelim {c : Char} :
    statuslineDelim.contains c = true ↔ c = '\r' ∨ c = '\n' ∨ c = ' ' := by
  rw [List.contains_iff_mem]
  exact ⟨fun h ↦ by simpa [statuslineDelim] using h, fun h ↦ by simpa [statuslineDelim] using h⟩

/-- A character of a word is no line end and no blank. -/
theorem IsToken.ne {token : CString} (h : IsToken token) {c : Char} (hc : c ∈ token) :
    c ≠ '\r' ∧ c ≠ '\n' ∧ c ≠ ' ' := by
  have hspace := (h.chars c hc).1
  refine ⟨?_, ?_, ?_⟩ <;>
  · rintro rfl
    exact absurd hspace (by decide)

theorem IsToken.lineChars {token : CString} (h : IsToken token) :
    ∀ c ∈ token, c ≠ '\n' ∧ c ≠ '\x00' :=
  fun c hc ↦ ⟨(h.ne hc).2.1, (h.chars c hc).2⟩

/-- A line of words is not ended within itself. -/
theorem lineChars_words {first second third : CString}
    (hfirst : ∀ c ∈ first, c ≠ '\n' ∧ c ≠ '\x00') (hsecond : ∀ c ∈ second, c ≠ '\n' ∧ c ≠ '\x00')
    (hthird : ∀ c ∈ third, c ≠ '\n' ∧ c ≠ '\x00') :
    ∀ c ∈ first ++ " ".toList ++ second ++ " ".toList ++ third, c ≠ '\n' ∧ c ≠ '\x00' := by
  have hblank : ∀ c ∈ " ".toList, c ≠ '\n' ∧ c ≠ '\x00' := by decide
  intro c hc
  simp only [List.mem_append] at hc
  rcases hc with (((hc | hc) | hc) | hc) | hc
  · exact hfirst c hc
  · exact hblank c hc
  · exact hsecond c hc
  · exact hblank c hc
  · exact hthird c hc

/-- A text that does not begin or end with a delimiter is what is left of it between delimiters. -/
theorem strtrim_eq_self {delim skipped value suffix : CString}
    (hskipped : ∀ c ∈ skipped, delim.contains c = true)
    (hsuffix : ∀ c ∈ suffix, delim.contains c = true)
    (hhead : ∀ c, value.head? = some c → delim.contains c = false)
    (hlast : ∀ c, value.getLast? = some c → delim.contains c = false) :
    strtrim (skipped ++ (value ++ suffix)) delim = value := by
  unfold strtrim
  rw [List.dropWhile_append_of_pos hskipped]
  cases value with
  | nil =>
    rw [List.nil_append, List.dropWhile_eq_nil_iff.mpr hsuffix]
    rfl
  | cons c rest =>
    have hc := hhead c rfl
    rw [List.cons_append, List.dropWhile_cons_of_neg (by rw [hc]; decide), ← List.cons_append,
      strrtrim_append hsuffix hlast]

/-- The header in a line with a name and a colon in front. -/
theorem parseHeader_colon {name : CString} (hname : IsToken name) (hcolon : ':' ∉ name)
    (text : CString) :
    HttpPacket.parseHeader (name ++ ':' :: text) =
      some ⟨some name, some (strtrim text headerlineDelim)⟩ := by
  have hchars : ∀ c ∈ name, headerlineDelim.contains c = false := by
    intro c hc
    rw [← Bool.not_eq_true, contains_headerlineDelim]
    obtain ⟨hreturn, hfeed, hblank⟩ := hname.ne hc
    rintro (rfl | rfl | rfl | rfl)
    · exact hreturn rfl
    · exact hfeed rfl
    · exact hblank rfl
    · exact hcolon hc
  have hdelim : headerlineDelim.contains ':' = true := by decide
  have hlength : 0 < strlen (some name) := List.length_pos_iff.mpr hname.ne_nil
  unfold HttpPacket.parseHeader StringTokenizer.new StringTokenizer.nextToken
  rw [StringTokenizer.lookAhead_token hname.ne_nil hchars hdelim text]
  simp only [Option.map_some, Option.bind_some, if_pos hlength,
    StringTokenizer.strrtrim_nextAllToken]

/-- The header in a written line is the header that was written. -/
theorem IsHeader.parseHeader {name value : CString} (h : IsHeader name value) :
    HttpPacket.parseHeader (name ++ ": ".toList ++ value ++ "\r\n".toList) =
      some ⟨some name, some value⟩ := by
  have hline : name ++ ": ".toList ++ value ++ "\r\n".toList =
      name ++ ':' :: (" ".toList ++ (value ++ "\r\n".toList)) := by simp
  have hdelim : ∀ c, c ∈ value → c ∉ " :".toList → headerlineDelim.contains c = false := by
    intro c hmem hc
    rw [← Bool.not_eq_true, contains_headerlineDelim]
    obtain ⟨hreturn, hfeed, -⟩ := h.value_trimmed.chars c hmem
    rintro (rfl | rfl | rfl | rfl)
    · exact hreturn rfl
    · exact hfeed rfl
    · exact hc (by decide)
    · exact hc (by decide)
  have hvalue := @strtrim_eq_self headerlineDelim " ".toList value "\r\n".toList (by decide)
    (by decide) (fun c hc ↦ hdelim c (List.mem_of_head? hc) (h.value_trimmed.head c hc))
    (fun c hc ↦ hdelim c (List.mem_of_getLast? hc) (h.value_trimmed.last c hc))
  rw [hline, parseHeader_colon h.name_token h.name_colon, hvalue]

/-- A line with nothing but its text and a line end is read as it was written. -/
theorem readLine_crlf {text rest : List Char} (h : ∀ c ∈ text, c ≠ '\n' ∧ c ≠ '\x00')
    (hfits : (text ++ "\r\n".toList).length < readlineBufSize) {sock : Socket}
    (hsock : sock.content = text ++ "\r\n".toList ++ rest) :
    ∃ later : Socket, readLine sock readlineBufSize = (some (text ++ "\r\n".toList), later) ∧
      later.content = rest ∧ bufferString (text ++ "\r\n".toList) = text ++ "\r\n".toList := by
  have hwhole : text ++ "\r\n".toList = (text ++ ['\r']) ++ ['\n'] := by simp
  have hfeed : '\n' ∉ text ++ ['\r'] := by
    intro hmem
    rcases List.mem_append.mp hmem with hmem | hmem
    · exact (h '\n' hmem).1 rfl
    · exact absurd hmem (by decide)
  have hcontent : sock.content = (text ++ ['\r']) ++ '\n' :: rest := by
    rw [hsock, hwhole, List.append_assoc, List.singleton_append]
  have hchars : ∀ c ∈ text ++ "\r\n".toList, c ≠ '\x00' := by
    intro c hc
    rcases List.mem_append.mp hc with hc | hc
    · exact (h c hc).2
    · have hend : ∀ c ∈ "\r\n".toList, c ≠ '\x00' := by decide
      exact hend c hc
  rw [hwhole, List.length_append] at hfits
  obtain ⟨later, hline, hrest⟩ := readLine_append hfeed hfits hcontent
  refine ⟨later, ?_, hrest, bufferString_eq_self hchars⟩
  rw [hline, hwhole]

theorem IsHeader.ne_of_mem {name value : CString} (h : IsHeader name value) {c : Char}
    (hc : c ∈ name ++ ": ".toList ++ value) : c ≠ '\n' ∧ c ≠ '\x00' := by
  rcases List.mem_append.mp hc with hc | hc
  · rcases List.mem_append.mp hc with hc | hc
    · exact ⟨(h.name_token.ne hc).2.1, (h.name_token.chars c hc).2⟩
    · have hcolon : ∀ c ∈ ": ".toList, c ≠ '\n' ∧ c ≠ '\x00' := by decide
      exact hcolon c hc
  · exact (h.value_trimmed.chars c hc).2

/-- The loop reads the written lines of headers up to the empty line behind them. -/
theorem readHeadersLoop_append {headers : HttpHeaderList}
    (h : ∀ header ∈ headers, ∃ name value,
      header = ⟨some name, some value⟩ ∧ IsHeader name value)
    {bound : ℕ} (hbound : headers.length < bound) (read : HttpHeaderList) {sock : Socket}
    {rest : List Char}
    (hsock : sock.content = headers.flatMap HttpPacket.headerLine ++ "\r\n".toList ++ rest) :
    ∃ later : Socket, HttpPacket.readHeadersLoop bound read sock = (read ++ headers, later) ∧
      later.content = rest := by
  induction headers generalizing bound read sock with
  | nil =>
    obtain ⟨bound, rfl⟩ := Nat.exists_eq_succ_of_ne_zero (by omega : bound ≠ 0)
    obtain ⟨later, hline, hrest, -⟩ :=
      @readLine_crlf [] rest (by simp) (by decide) sock (by simpa using hsock)
    refine ⟨later, ?_, hrest⟩
    rw [HttpPacket.readHeadersLoop, hline, List.append_nil]
    rfl
  | cons header headers ih =>
    obtain ⟨bound, rfl⟩ := Nat.exists_eq_succ_of_ne_zero (by omega : bound ≠ 0)
    obtain ⟨name, value, rfl, hheader⟩ := h header List.mem_cons_self
    rw [List.length_cons] at hbound
    have hcontent : sock.content = (name ++ ": ".toList ++ value) ++ "\r\n".toList ++
        (headers.flatMap HttpPacket.headerLine ++ "\r\n".toList ++ rest) := by
      rw [hsock, List.flatMap_cons, HttpPacket.headerLine_some]
      simp only [List.append_assoc]
    have hlong : ¬ (name ++ ": ".toList ++ value ++ "\r\n".toList).length ≤ 2 := by
      have hpos := List.length_pos_iff.mpr hheader.name_token.ne_nil
      simp only [List.length_append, String.length_toList, not_le]
      have htwo : "\r\n".length = 2 := by decide
      omega
    obtain ⟨next, hline, hnext, hbuffer⟩ :=
      readLine_crlf (fun c hc ↦ hheader.ne_of_mem hc) hheader.line hcontent
    obtain ⟨later, hloop, hrest⟩ := ih
      (fun other hother ↦ h other (List.mem_cons_of_mem _ hother))
      (by omega : headers.length < bound)
      (read ++ [⟨some name, some value⟩]) hnext
    refine ⟨later, ?_, hrest⟩
    rw [HttpPacket.readHeadersLoop, hline]
    simp only [if_neg hlong, hbuffer, hheader.parseHeader, Option.toList_some, hloop]
    rw [List.append_assoc, List.singleton_append]

/-! ### Bodies -/

/-- The loop goes on until it has as many bytes as it was asked for; the buffer has room for one
more byte at each call. -/
theorem readExactLoop_append {body rest : List Char} {bound bufSize : ℕ} {buf : List Char}
    {sock : Socket} (hbound : body.length < buf.length + bound) (hbuf : buf.length ≤ bufSize)
    (hsize : bufSize ≤ body.length) (hpos : body ≠ [] → 0 < bufSize)
    (hsock : buf ++ sock.content = body ++ rest) :
    ∃ later : Socket, HttpPacket.readExactLoop body.length bound bufSize buf sock =
      (some body, later) ∧ later.content = rest := by
  induction bound generalizing bufSize buf sock with
  | zero => omega
  | succ bound ih =>
    by_cases hmore : buf.length < body.length
    · obtain ⟨room, hroom, hnext, hle, hstep⟩ : ∃ room, buf.length < room ∧ 0 < room ∧
          room ≤ body.length ∧
          (if buf.length = bufSize then
              if bufSize ≤ body.length - bufSize then bufSize * 2 else body.length
            else bufSize) = room := by
        have hne : body ≠ [] := by
          rintro rfl
          exact absurd hmore (Nat.not_lt_zero _)
        have hone := hpos hne
        split_ifs with hfull hdouble
        · exact ⟨_, by omega, by omega, by omega, rfl⟩
        · exact ⟨_, by omega, by omega, by omega, rfl⟩
        · exact ⟨_, by omega, by omega, by omega, rfl⟩
      have hleft : sock.content ≠ [] := by
        intro hempty
        have hlength := congrArg List.length hsock
        rw [hempty, List.append_nil, List.length_append] at hlength
        omega
      obtain ⟨received, later, hread, hne, hlength, hcontent⟩ :=
        socketRead_spec hleft (by omega : 0 < room - buf.length)
      have hsome := List.length_pos_iff.mpr hne
      obtain ⟨final, hloop, hrest⟩ := @ih room (buf ++ received) later
        (by rw [List.length_append]; omega) (by rw [List.length_append]; omega) hle
        (fun _ ↦ hnext) (by rw [List.append_assoc, hcontent, hsock])
      refine ⟨final, ?_, hrest⟩
      rw [HttpPacket.readExactLoop, if_pos hmore]
      simp only [hstep, hread]
      cases received with
      | nil => exact absurd rfl hne
      | cons c received => exact hloop
    · have hfull : buf.length = body.length := by omega
      obtain ⟨rfl, hrest⟩ := List.append_inj hsock hfull
      refine ⟨sock, ?_, hrest⟩
      rw [HttpPacket.readExactLoop, if_neg hmore]

theorem readExact_append {body rest : List Char} {sock : Socket}
    (hsock : sock.content = body ++ rest) :
    ∃ later : Socket, HttpPacket.readExact sock body.length = (some body, later) ∧
      later.content = rest := by
  refine readExactLoop_append ?_ (Nat.zero_le _) (Nat.min_le_left _ _) ?_ hsock
  · rw [List.length_nil]
    omega
  · intro hne
    have hlength := List.length_pos_iff.mpr hne
    omega

/-- The length in a header of digits. -/
theorem parseContentLength_digits {digits : CString} (hne : digits ≠ [])
    (hdigits : ∀ c ∈ digits, c.isDigit = true) (hmax : (digitsValue 0 digits : ℤ) < longMax) :
    HttpPacket.parseContentLength digits = some (digitsValue 0 digits) := by
  obtain ⟨c, rest, rfl⟩ := List.exists_cons_of_ne_nil hne
  have hc := hdigits c List.mem_cons_self
  have hblank : ¬ HttpPacket.isLengthBlank c = true := by
    intro hblank
    simp only [HttpPacket.isLengthBlank, Bool.or_eq_true, decide_eq_true_eq] at hblank
    rcases hblank with rfl | rfl
    · exact absurd hc (by decide)
    · exact absurd hc (by decide)
  have hstart : (c :: rest).dropWhile HttpPacket.isLengthBlank = c :: rest :=
    List.dropWhile_cons_of_neg hblank
  have hbehind : (c :: rest).dropWhile Char.isDigit = [] := List.dropWhile_eq_nil_iff.mpr hdigits
  have hhead : ((c :: rest).head?.map Char.isDigit).getD false = true := hc
  have hfits : ¬ longMax - 1 < (digitsValue 0 (c :: rest) : ℤ) := by omega
  unfold HttpPacket.parseContentLength
  simp only [hstart, hbehind, hhead, List.dropWhile_nil, if_neg hfits]
  rfl

/-- The body of a packet is read when the headers of the packet are. -/
theorem IsPacket.readBody {httpPkt : HttpPacket} (h : IsPacket httpPkt) {rest : List Char}
    {sock : Socket} (hsock : sock.content = httpPkt.content.getD [] ++ rest) :
    ∃ (content : Option (List Char)) (later : Socket),
      HttpPacket.readBody ⟨httpPkt.headers, none⟩ sock = (true, ⟨httpPkt.headers, content⟩, later) ∧
        content.getD [] = httpPkt.content.getD [] ∧ later.content = rest := by
  obtain ⟨digits, hheader, hne, hdigits, hvalue⟩ := h.length
  have hmemory := h.memory
  have hparse := parseContentLength_digits hne hdigits (by rw [hvalue]; exact hmemory)
  have hget : HttpPacket.getHeaderValue ⟨httpPkt.headers, none⟩ "Content-Length".toList =
      some digits := hheader
  rw [hvalue] at hparse
  unfold HttpPacket.readBody
  simp only [hget, hparse]
  cases hbody : httpPkt.content.getD [] with
  | nil =>
    rw [hbody] at hsock
    exact ⟨none, sock, rfl, rfl, hsock⟩
  | cons c body =>
    rw [hbody] at hsock
    obtain ⟨later, hread, hrest⟩ := readExact_append hsock
    refine ⟨some (c :: body), later, ?_, rfl, hrest⟩
    rw [List.length_cons] at hread ⊢
    simp only [hread]

/-! ### Packets -/

/-- A packet is posted whole. -/
theorem IsPacket.post {httpPkt : HttpPacket} (h : IsPacket httpPkt) :
    httpPkt.post = some (httpPkt.headers.flatMap HttpPacket.headerLine ++ "\r\n".toList ++
      httpPkt.content.getD []) := by
  obtain ⟨digits, hheader, hne, hdigits, hvalue⟩ := h.length
  have hmemory := h.memory
  have hlength : httpPkt.getContentLength = (httpPkt.content.getD []).length := by
    rw [HttpPacket.getContentLength, hheader, str2long, Option.map_some, Option.getD_some,
      atol_of_isDigit hne hdigits, hvalue]
    omega
  have hsize : (BitVec.ofInt 64 ((httpPkt.content.getD []).length : ℤ)).toNat =
      (httpPkt.content.getD []).length := by
    have hmax : longMax = 2 ^ 63 - 1 := rfl
    rw [BitVec.ofInt_natCast, BitVec.toNat_ofNat]
    exact Nat.mod_eq_of_lt (by omega)
  have hsent : httpPkt.sentContent = some (httpPkt.content.getD []) := by
    unfold HttpPacket.sentContent
    rw [hlength, hsize]
    cases httpPkt.content with
    | none => rfl
    | some content =>
      simp only [Option.getD_some, le_refl, if_true, List.take_length]
  rw [HttpPacket.post, hsent, Option.map_some]

/-- Each header is written with at least one byte. -/
theorem length_le_flatMap_headerLine {headers : HttpHeaderList}
    (h : ∀ header ∈ headers, ∃ name value,
      header = ⟨some name, some value⟩ ∧ IsHeader name value) :
    headers.length ≤ (headers.flatMap HttpPacket.headerLine).length := by
  induction headers with
  | nil => exact Nat.zero_le _
  | cons header headers ih =>
    obtain ⟨name, value, rfl, hheader⟩ := h header List.mem_cons_self
    have hname := List.length_pos_iff.mpr hheader.name_token.ne_nil
    have hrest := ih fun other hother ↦ h other (List.mem_cons_of_mem _ hother)
    rw [List.flatMap_cons, HttpPacket.headerLine_some]
    simp only [List.length_cons, List.length_append]
    omega

/-- The headers of a posted packet are read as they were posted. -/
theorem IsPacket.readHeaders {httpPkt : HttpPacket} (h : IsPacket httpPkt) {rest : List Char}
    {sock : Socket}
    (hsock : sock.content =
      httpPkt.headers.flatMap HttpPacket.headerLine ++ "\r\n".toList ++ rest) :
    ∃ later : Socket, HttpPacket.empty.readHeaders sock = (⟨httpPkt.headers, none⟩, later) ∧
      later.content = rest := by
  have hbound : httpPkt.headers.length < sock.content.length + 1 := by
    have hlines := length_le_flatMap_headerLine h.headers
    rw [hsock, List.length_append, List.length_append]
    omega
  obtain ⟨later, hloop, hrest⟩ := readHeadersLoop_append h.headers hbound [] hsock
  refine ⟨later, ?_, hrest⟩
  rw [HttpPacket.readHeaders]
  simp only [HttpPacket.empty, hloop, List.nil_append]

/-! ### Requests -/

/-- A request whose first line has three words, with a target that is not absolute. -/
structure IsRequest (httpReq : HttpRequest) (method uri version : CString) : Prop where
  packet : IsPacket httpReq.toHttpPacket
  method_eq : httpReq.method = some method
  uri_eq : httpReq.uri = some uri
  version_eq : httpReq.version = some version
  method_token : IsToken method
  uri_token : IsToken uri
  version_token : IsToken version
  relative : ¬ "://".toList <:+: uri
  line : (method ++ " ".toList ++ uri ++ " ".toList ++ version ++ "\r\n".toList).length <
    readlineBufSize

theorem IsToken.not_contains {token : CString} (h : IsToken token) :
    ∀ c ∈ token, statuslineDelim.contains c = false := by
  intro c hc
  rw [← Bool.not_eq_true, contains_statuslineDelim]
  obtain ⟨hreturn, hfeed, hblank⟩ := h.ne hc
  rintro (rfl | rfl | rfl)
  · exact hreturn rfl
  · exact hfeed rfl
  · exact hblank rfl

/-- The next word of a line. -/
theorem IsToken.lookAhead {token : CString} (h : IsToken token) {d : Char}
    (hd : statuslineDelim.contains d = true) (rest : CString) :
    StringTokenizer.lookAhead statuslineDelim (token ++ d :: rest) = some ⟨token, some d, rest⟩ :=
  StringTokenizer.lookAhead_token h.ne_nil h.not_contains hd rest

/-- The three words of a first line. -/
theorem setFirstLine_tokens (httpReq : HttpRequest) {method uri version : CString}
    (hmethod : IsToken method) (huri : IsToken uri) (hversion : IsToken version) :
    httpReq.setFirstLine (method ++ " ".toList ++ uri ++ " ".toList ++ version ++ "\r\n".toList) =
      ({ httpReq with method := some method, uri := some uri, version := some version }, true) := by
  have hline : method ++ " ".toList ++ uri ++ " ".toList ++ version ++ "\r\n".toList =
      method ++ ' ' :: (uri ++ ' ' :: (version ++ '\r' :: "\n".toList)) := by simp
  unfold HttpRequest.setFirstLine StringTokenizer.new StringTokenizer.nextToken
  have hblank : statuslineDelim.contains ' ' = true := by decide
  have hreturn : statuslineDelim.contains '\r' = true := by decide
  rw [hline, hmethod.lookAhead hblank]
  simp only [Option.map_some, Option.bind_some, huri.lookAhead hblank, hversion.lookAhead hreturn,
    stringSetValue_some]
  rfl

/-- A target without a protocol stays as it is. -/
theorem makeUriRelative_of_none {httpReq : HttpRequest} {uri : CString}
    (huri : httpReq.uri = some uri) (hprotocol : (readProtocol uri).1 = none) :
    httpReq.makeUriRelative = httpReq := by
  have hrelative : (NetUri.setValue uri).isAbsolute = false := by
    have hnone : (NetUri.setValue uri).protocol = none := hprotocol
    rw [NetUri.isAbsolute, hnone]
    rfl
  unfold HttpRequest.makeUriRelative
  rw [huri, Option.getD_some]
  simp only [hrelative]
  rfl

theorem makeUriRelative_eq_self {httpReq : HttpRequest} {uri : CString}
    (huri : httpReq.uri = some uri) (h : ¬ "://".toList <:+: uri) :
    httpReq.makeUriRelative = httpReq := by
  refine makeUriRelative_of_none huri ?_
  rw [readProtocol, if_neg fun hpos ↦ h (strstr_nonneg_iff.mp (Int.le_of_lt hpos))]

/-- The first line of a request is read. -/
theorem IsRequest.readFirstLine {httpReq : HttpRequest} {method uri version : CString}
    (h : IsRequest httpReq method uri version) {sock : Socket} {rest : List Char}
    (hsock : sock.content =
      method ++ " ".toList ++ uri ++ " ".toList ++ version ++ "\r\n".toList ++ rest)
    {bound : ℕ} (hbound : 0 < bound) :
    ∃ later : Socket, HttpRequest.readFirstLine bound sock =
        (some (method ++ " ".toList ++ uri ++ " ".toList ++ version ++ "\r\n".toList), later) ∧
      later.content = rest ∧
      bufferString (method ++ " ".toList ++ uri ++ " ".toList ++ version ++ "\r\n".toList) =
        method ++ " ".toList ++ uri ++ " ".toList ++ version ++ "\r\n".toList := by
  have hchars :=
    lineChars_words h.method_token.lineChars h.uri_token.lineChars h.version_token.lineChars
  obtain ⟨bound, rfl⟩ := Nat.exists_eq_succ_of_ne_zero (by omega : bound ≠ 0)
  obtain ⟨later, hline, hrest, hbuffer⟩ := readLine_crlf hchars h.line hsock
  refine ⟨later, ?_, hrest, hbuffer⟩
  have hlong : ¬ (1 ≤ (method ++ " ".toList ++ uri ++ " ".toList ++ version ++
        "\r\n".toList).length ∧
      (method ++ " ".toList ++ uri ++ " ".toList ++ version ++ "\r\n".toList).length ≤ 2) := by
    have hpos := List.length_pos_iff.mpr h.method_token.ne_nil
    have htwo : "\r\n".toList.length = 2 := by decide
    rw [List.length_append, htwo]
    simp only [List.length_append]
    omega
  rw [HttpRequest.readFirstLine, hline]
  simp only [if_neg hlong]

/-- A request is read as it was written. -/
theorem IsRequest.read {httpReq : HttpRequest} {method uri version : CString}
    (h : IsRequest httpReq method uri version) :
    ∃ message, httpReq.message = some message ∧
      ∀ (fresh : HttpRequest) (sock : Socket) (rest : List Char), sock.content = message ++ rest →
        ∃ (read : HttpRequest) (later : Socket), fresh.read sock = (true, read, later) ∧
          read.method = some method ∧ read.uri = some uri ∧ read.version = some version ∧
          read.headers = httpReq.headers ∧ read.content.getD [] = httpReq.content.getD [] ∧
          later.content = rest := by
  have hmessage : httpReq.message = some (method ++ " ".toList ++ uri ++ " ".toList ++ version ++
      "\r\n".toList ++ (httpReq.headers.flatMap HttpPacket.headerLine ++ "\r\n".toList ++
        httpReq.content.getD [])) := by
    rw [HttpRequest.message, h.method_eq, h.uri_eq, h.version_eq]
    simp only [h.packet.post, Option.map_some]
  refine ⟨_, hmessage, ?_⟩
  intro fresh sock rest hsock
  rw [List.append_assoc] at hsock
  obtain ⟨behindLine, hfirst, hbehindLine, hbuffer⟩ :=
    h.readFirstLine hsock (Nat.succ_pos sock.content.length)
  rw [List.append_assoc] at hbehindLine
  obtain ⟨behindHeaders, hheaders, hbehindHeaders⟩ := h.packet.readHeaders hbehindLine
  obtain ⟨content, later, hbody, hcontent, hrest⟩ := h.packet.readBody hbehindHeaders
  have htokens :=
    setFirstLine_tokens fresh.clear h.method_token h.uri_token h.version_token
  have hrelative := @makeUriRelative_eq_self
    { fresh.clear with method := some method, uri := some uri, version := some version } uri rfl
    h.relative
  have hlength : HttpPacket.hasHeader ⟨httpReq.headers, none⟩ "Content-Length".toList = true := by
    obtain ⟨digits, hheader, -⟩ := h.packet.length
    obtain ⟨header, hget, -⟩ := Option.bind_eq_some_iff.mp hheader
    rw [HttpPacket.hasHeader, hget]
    rfl
  refine ⟨{ fresh.clear with
    toHttpPacket := ⟨httpReq.headers, content⟩
    method := some method
    uri := some uri
    version := some version }, later, ?_, rfl, rfl, rfl, rfl, hcontent, hrest⟩
  rw [HttpRequest.read, hfirst]
  simp only [hbuffer, htokens, hrelative, hheaders, hlength, Bool.true_or, if_true, hbody]
  rfl

/-! ### Responses -/

/-- A response with a version, a status code that is an `int`, and a trimmed reason phrase. -/
structure IsResponse (httpRes : HttpResponse) (version reasonPhrase : CString) : Prop where
  packet : IsPacket httpRes.toHttpPacket
  version_eq : httpRes.version = some version
  reasonPhrase_eq : httpRes.reasonPhrase = some reasonPhrase
  version_token : IsToken version
  statusCode_int : -2 ^ 31 ≤ httpRes.statusCode ∧ httpRes.statusCode < 2 ^ 31
  reasonPhrase_ne_nil : reasonPhrase ≠ []
  reasonPhrase_trimmed : IsTrimmed " ".toList reasonPhrase
  line : (version ++ " ".toList ++ long2str httpRes.statusCode ++ " ".toList ++ reasonPhrase ++
    "\r\n".toList).length < readlineBufSize

/-- A number is written as a word. -/
theorem isToken_long2str (value : ℤ) : IsToken (long2str value) := by
  have hdigit : ∀ c ∈ Nat.toDigits 10 value.natAbs, isspace c = false ∧ c ≠ '\x00' := by
    intro c hc
    have hdigit := isDigit_of_mem_toDigits hc
    refine ⟨(ne_of_isDigit hdigit).1, ?_⟩
    rintro rfl
    exact absurd hdigit (by decide)
  unfold long2str
  split_ifs
  · refine ⟨List.cons_ne_nil _ _, fun c hc ↦ ?_⟩
    rcases List.mem_cons.mp hc with rfl | hc
    · decide
    · exact hdigit c hc
  · exact ⟨Nat.toDigits_ne_nil, hdigit⟩

/-- An `int` is read back from its text. -/
theorem atoi_long2str {value : ℤ} (h : -2 ^ 31 ≤ value ∧ value < 2 ^ 31) :
    atoi (long2str value) = value := by
  obtain ⟨hmin, hmax⟩ := h
  have hlong : longMax = 2 ^ 63 - 1 := rfl
  have hatol : atol (long2str value) = value := by
    by_cases hneg : value < 0
    · exact atol_long2str_of_neg hneg (by omega)
    · exact atol_long2str (by omega) (by omega)
  rw [atoi, hatol, BitVec.toInt_ofInt]
  exact Int.bmod_eq_of_le (by omega) (by omega)

/-- The version, the code and the phrase of a status line. -/
theorem setStatusLine_tokens (httpRes : HttpResponse) {version reasonPhrase : CString} {code : ℤ}
    (hversion : IsToken version) (hcode : -2 ^ 31 ≤ code ∧ code < 2 ^ 31)
    (hne : reasonPhrase ≠ []) (hreason : IsTrimmed " ".toList reasonPhrase) :
    httpRes.setStatusLine (version ++ " ".toList ++ long2str code ++ " ".toList ++ reasonPhrase ++
        "\r\n".toList) =
      { httpRes with
        version := some version
        statusCode := code
        reasonPhrase := some reasonPhrase } := by
  have hline : version ++ " ".toList ++ long2str code ++ " ".toList ++ reasonPhrase ++
      "\r\n".toList =
        version ++ ' ' :: (long2str code ++ ' ' :: (reasonPhrase ++ "\r\n".toList)) := by simp
  have hblank : statuslineDelim.contains ' ' = true := by decide
  have hdelim : ∀ c, c ∈ reasonPhrase → c ∉ " ".toList → statuslineDelim.contains c = false := by
    intro c hmem hc
    rw [← Bool.not_eq_true, contains_statuslineDelim]
    obtain ⟨hreturn, hfeed, -⟩ := hreason.chars c hmem
    rintro (rfl | rfl | rfl)
    · exact hreturn rfl
    · exact hfeed rfl
    · exact hc (by decide)
  have hphrase : (StringTokenizer.nextAllToken ⟨statuslineDelim,
      StringTokenizer.lookAhead statuslineDelim (reasonPhrase ++ "\r\n".toList)⟩).map
        (fun token ↦ strrtrim token statuslineDelim) = some reasonPhrase := by
    have htrim := @strtrim_eq_self statuslineDelim [] reasonPhrase "\r\n".toList (by decide)
      (by decide) (fun c hc ↦ hdelim c (List.mem_of_head? hc) (hreason.head c hc))
      (fun c hc ↦ hdelim c (List.mem_of_getLast? hc) (hreason.last c hc))
    rw [List.nil_append, ← StringTokenizer.strrtrim_nextAllToken] at htrim
    rcases Option.eq_none_or_eq_some ((StringTokenizer.nextAllToken ⟨statuslineDelim,
      StringTokenizer.lookAhead statuslineDelim (reasonPhrase ++ "\r\n".toList)⟩).map
        fun token ↦ strrtrim token statuslineDelim) with hnone | ⟨token, hsome⟩
    · rw [hnone] at htrim
      exact absurd htrim.symm hne
    · rw [hsome] at htrim ⊢
      exact congrArg some htrim
  unfold HttpResponse.setStatusLine StringTokenizer.new StringTokenizer.nextToken
  rw [hline, hversion.lookAhead hblank]
  simp only [Option.map_some, Option.bind_some, (isToken_long2str code).lookAhead hblank, hphrase,
    atoi_long2str hcode, HttpResponse.setStatusCode, stringSetValue_some]

/-- A response is read as it was written. -/
theorem IsResponse.read {httpRes : HttpResponse} {version reasonPhrase : CString}
    (h : IsResponse httpRes version reasonPhrase) :
    ∃ message, httpRes.message = some message ∧
      ∀ (fresh : HttpResponse) (sock : Socket) (rest : List Char), sock.content = message ++ rest →
        ∃ (read : HttpResponse) (later : Socket), fresh.read sock false = (true, read, later) ∧
          read.version = some version ∧ read.statusCode = httpRes.statusCode ∧
          read.reasonPhrase = some reasonPhrase ∧ read.headers = httpRes.headers ∧
          read.content.getD [] = httpRes.content.getD [] ∧ later.content = rest := by
  have hmessage : httpRes.message = some (version ++ " ".toList ++ long2str httpRes.statusCode ++
      " ".toList ++ reasonPhrase ++ "\r\n".toList ++
        (httpRes.headers.flatMap HttpPacket.headerLine ++ "\r\n".toList ++
          httpRes.content.getD [])) := by
    rw [HttpResponse.message, h.version_eq, h.reasonPhrase_eq]
    simp only [h.packet.post, Option.map_some]
  refine ⟨_, hmessage, ?_⟩
  intro fresh sock rest hsock
  have hchars := lineChars_words h.version_token.lineChars
    (isToken_long2str httpRes.statusCode).lineChars
    fun c hc ↦ (h.reasonPhrase_trimmed.chars c hc).2
  rw [List.append_assoc] at hsock
  obtain ⟨behindLine, hline, hbehindLine, hbuffer⟩ := readLine_crlf hchars h.line hsock
  rw [List.append_assoc] at hbehindLine
  obtain ⟨behindHeaders, hheaders, hbehindHeaders⟩ := h.packet.readHeaders hbehindLine
  obtain ⟨content, later, hbody, hcontent, hrest⟩ := h.packet.readBody hbehindHeaders
  have hstatus := setStatusLine_tokens fresh.clear h.version_token h.statusCode_int
    h.reasonPhrase_ne_nil h.reasonPhrase_trimmed
  refine ⟨{ fresh.clear with
    toHttpPacket := ⟨httpRes.headers, content⟩
    version := some version
    statusCode := httpRes.statusCode
    reasonPhrase := some reasonPhrase }, later, ?_, rfl, rfl, rfl, rfl, hcontent, hrest⟩
  rw [HttpResponse.read, hline]
  simp only [HttpPacket.read, hbuffer, hstatus, hheaders, Bool.false_eq_true, if_false, hbody]

/-! ### The round trip -/

/-- **Messages are read as they were written.** What a sender writes for a request and a poster for
a response, with the headers they add, is read back in any cut of the stream: the first line, the
headers in their order, and the body. -/
theorem http_round_trip :
    (∀ (httpReq : HttpRequest) (ipaddr : CString) (port : ℤ) (method uri version : CString),
      IsRequest (httpReq.addressed ipaddr port) method uri version →
        ∃ message, httpReq.post ipaddr port = some message ∧
          ∀ (fresh : HttpRequest) (sock : Socket) (rest : List Char),
            sock.content = message ++ rest →
              ∃ (read : HttpRequest) (later : Socket), fresh.read sock = (true, read, later) ∧
                read.method = some method ∧ read.uri = some uri ∧ read.version = some version ∧
                read.headers = (httpReq.addressed ipaddr port).headers ∧
                read.content.getD [] = httpReq.content.getD [] ∧ later.content = rest) ∧
      ∀ (httpRes : HttpResponse) (httpDate version reasonPhrase : CString),
        IsResponse (httpRes.dated httpDate) version reasonPhrase →
          ∃ message, httpRes.post httpDate = some message ∧
            ∀ (fresh : HttpResponse) (sock : Socket) (rest : List Char),
              sock.content = message ++ rest →
                ∃ (read : HttpResponse) (later : Socket),
                  fresh.read sock false = (true, read, later) ∧
                  read.version = some version ∧ read.statusCode = httpRes.statusCode ∧
                  read.reasonPhrase = some reasonPhrase ∧
                  read.headers = (httpRes.dated httpDate).headers ∧
                  read.content.getD [] = httpRes.content.getD [] ∧ later.content = rest :=
  ⟨fun _ _ _ _ _ _ h ↦ h.read, fun _ _ _ _ h ↦ h.read⟩

/-- A request with a body of two bytes. -/
def exampleRequest : HttpRequest :=
  { headers := [⟨some "Content-Length".toList, some "2".toList⟩]
    content := some "ok".toList
    method := some "POST".toList
    uri := some "/control".toList
    version := some "HTTP/1.1".toList
    userAgent := some "test".toList }

/-- A response with a body of two bytes. -/
def exampleResponse : HttpResponse :=
  { headers := [⟨some "Content-Length".toList, some "2".toList⟩]
    content := some "ok".toList
    version := some "HTTP/1.1".toList
    statusCode := 200
    reasonPhrase := some "OK".toList }

theorem isRequest_exampleRequest :
    IsRequest (exampleRequest.addressed "10.0.0.1".toList 80) "POST".toList "/control".toList
      "HTTP/1.1".toList := by
  have hheaders : (exampleRequest.addressed "10.0.0.1".toList 80).headers =
      [⟨some "Content-Length".toList, some "2".toList⟩,
        ⟨some "HOST".toList, some "10.0.0.1".toList⟩,
        ⟨some "User-Agent".toList, some "test".toList⟩] := by decide +kernel
  have hrelative : ¬ "://".toList <:+: "/control".toList :=
    mt strstr_nonneg_iff.mpr (by decide +kernel)
  refine ⟨⟨?_, ⟨"2".toList, by decide +kernel, by decide, by decide, by decide⟩, by decide⟩, rfl,
    rfl, rfl, ⟨by decide, by decide⟩, ⟨by decide, by decide⟩, ⟨by decide, by decide⟩, hrelative,
    by decide⟩
  rw [hheaders]
  intro header hheader
  simp only [List.mem_cons, List.not_mem_nil, or_false] at hheader
  rcases hheader with rfl | rfl | rfl
  · exact ⟨_, _, rfl, ⟨by decide, by decide⟩, by decide, ⟨by decide, by decide, by decide⟩,
      by decide⟩
  · exact ⟨_, _, rfl, ⟨by decide, by decide⟩, by decide, ⟨by decide, by decide, by decide⟩,
      by decide⟩
  · exact ⟨_, _, rfl, ⟨by decide, by decide⟩, by decide, ⟨by decide, by decide, by decide⟩,
      by decide⟩

theorem isResponse_exampleResponse :
    IsResponse (exampleResponse.dated "now".toList) "HTTP/1.1".toList "OK".toList := by
  have hheaders : (exampleResponse.dated "now".toList).headers =
      [⟨some "Content-Length".toList, some "2".toList⟩,
        ⟨some "Date".toList, some "now".toList⟩] := by decide +kernel
  refine ⟨⟨?_, ⟨"2".toList, by decide +kernel, by decide, by decide, by decide⟩, by decide⟩, rfl,
    rfl, ⟨by decide, by decide⟩, by decide, by decide, ⟨by decide, by decide, by decide⟩,
    by decide +kernel⟩
  rw [hheaders]
  intro header hheader
  simp only [List.mem_cons, List.not_mem_nil, or_false] at hheader
  rcases hheader with rfl | rfl
  · exact ⟨_, _, rfl, ⟨by decide, by decide⟩, by decide, ⟨by decide, by decide, by decide⟩,
      by decide⟩
  · exact ⟨_, _, rfl, ⟨by decide, by decide⟩, by decide, ⟨by decide, by decide, by decide⟩,
      by decide⟩

/-- A request and a response that are read as they were written. -/
theorem http_round_trip_example :
    (∃ message, exampleRequest.post "10.0.0.1".toList 80 = some message ∧
      ∀ (fresh : HttpRequest) (sock : Socket) (rest : List Char), sock.content = message ++ rest →
        ∃ (read : HttpRequest) (later : Socket), fresh.read sock = (true, read, later) ∧
          read.method = some "POST".toList ∧ read.uri = some "/control".toList ∧
          read.version = some "HTTP/1.1".toList ∧
          read.headers = (exampleRequest.addressed "10.0.0.1".toList 80).headers ∧
          read.content.getD [] = exampleRequest.content.getD [] ∧ later.content = rest) ∧
      ∃ message, exampleResponse.post "now".toList = some message ∧
        ∀ (fresh : HttpResponse) (sock : Socket) (rest : List Char),
          sock.content = message ++ rest →
            ∃ (read : HttpResponse) (later : Socket), fresh.read sock false = (true, read, later) ∧
            read.version = some "HTTP/1.1".toList ∧ read.statusCode = exampleResponse.statusCode ∧
            read.reasonPhrase = some "OK".toList ∧
            read.headers = (exampleResponse.dated "now".toList).headers ∧
            read.content.getD [] = exampleResponse.content.getD [] ∧ later.content = rest := by
  exact ⟨http_round_trip.1 exampleRequest "10.0.0.1".toList 80 "POST".toList "/control".toList
      "HTTP/1.1".toList isRequest_exampleRequest,
    http_round_trip.2 exampleResponse "now".toList "HTTP/1.1".toList "OK".toList
      isResponse_exampleResponse⟩

end Mupnp.Http
