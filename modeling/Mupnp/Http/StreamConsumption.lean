import Mupnp.Http.BodyFraming
import Mupnp.Http.MessageReuse

/-!
# What a read leaves of a stream

Every reader of `net/socket.c`, `http/http_packet.c` and `http/http_request.c` leaves an end of the
stream it was given (`HttpRequest.read_suffix`), and a request that was read has taken at least one
byte of it (`HttpRequest.length_read_lt`). A loop that reads requests until one is not read
therefore ends by itself, however the stream is cut.
-/

set_option autoImplicit false
set_option relaxedAutoImplicit false

namespace Mupnp.Http

open Foundation Net Util

/-! ### Lines -/

theorem socketRead_suffix (sock : Socket) (bufferLen : ℕ) :
    (socketRead sock bufferLen).2.content <:+ sock.content :=
  ⟨_, socketRead_content sock bufferLen⟩

theorem readLine_suffix (sock : Socket) (bufferLen : ℕ) :
    (readLine sock bufferLen).2.content <:+ sock.content := by
  rcases readLine_cases sock bufferLen with
    ⟨line, rest, later, -, hcontent, hread, hrest⟩ | ⟨result, later, hread, hrest, -⟩
  · refine ⟨line ++ ['\n'], ?_⟩
    rw [hread, hcontent, hrest, List.append_assoc, List.singleton_append]
  · rw [hread, hrest]
    exact List.nil_suffix

/-- No line is read at the end of a stream. -/
theorem readLine_eq_none {sock : Socket} (hend : sock.content = []) {bufferLen : ℕ}
    (hroom : 1 < bufferLen) : (readLine sock bufferLen).1 = none := by
  obtain ⟨room, hsize⟩ : ∃ room, bufferLen - 1 = room + 1 := ⟨bufferLen - 2, by omega⟩
  have hread : socketRead sock 1 = ([], (sock.receive 1).2) := by
    rw [socketRead, if_neg (by decide), ← (SegmentedStream.receive_eq_nil hend 1).1]
  unfold readLine
  rw [hsize, readLineLoop, hread]

/-- A line that is read takes at least one byte. -/
theorem length_readLine_lt {sock later : Socket} {line : CString}
    (h : readLine sock readlineBufSize = (some line, later)) :
    later.content.length < sock.content.length := by
  have hne : sock.content ≠ [] := by
    intro hend
    have hnone := readLine_eq_none hend (show 1 < readlineBufSize by decide)
    rw [h] at hnone
    cases hnone
  rcases readLine_cases sock readlineBufSize with
    ⟨text, rest, next, -, hcontent, hread, hrest⟩ | ⟨result, next, hread, hrest, -⟩
  · obtain rfl := congrArg Prod.snd (hread.symm.trans h)
    rw [hrest, hcontent, List.length_append, List.length_cons]
    omega
  · obtain rfl := congrArg Prod.snd (hread.symm.trans h)
    rw [hrest]
    exact List.length_pos_iff.mpr hne

namespace HttpPacket

/-! ### Packets -/

theorem readHeadersLoop_suffix (bound : ℕ) (headers : HttpHeaderList) (sock : Socket) :
    (readHeadersLoop bound headers sock).2.content <:+ sock.content := by
  induction bound generalizing headers sock with
  | zero => exact List.suffix_rfl
  | succ bound ih =>
    have hline := readLine_suffix sock readlineBufSize
    rw [readHeadersLoop]
    rcases hcall : readLine sock readlineBufSize with ⟨result, later⟩
    rw [hcall] at hline
    cases result with
    | none => exact hline
    | some line =>
      simp only
      split_ifs
      · exact hline
      · exact (ih _ later).trans hline

theorem readHeaders_suffix (httpPkt : HttpPacket) (sock : Socket) :
    (httpPkt.readHeaders sock).2.content <:+ sock.content :=
  readHeadersLoop_suffix (sock.content.length + 1) httpPkt.headers sock

theorem readExactLoop_suffix (len bound bufSize : ℕ) (buf : List Char) (sock : Socket) :
    (readExactLoop len bound bufSize buf sock).2.content <:+ sock.content := by
  induction bound generalizing bufSize buf sock with
  | zero => exact List.suffix_rfl
  | succ bound ih =>
    rw [readExactLoop]
    by_cases hmore : buf.length < len
    · rw [if_pos hmore]
      generalize (if buf.length = bufSize then
        if bufSize ≤ len - bufSize then bufSize * 2 else len else bufSize) = room
      have hread := socketRead_suffix sock (room - buf.length)
      simp only
      rcases hcall : socketRead sock (room - buf.length) with ⟨received, later⟩
      rw [hcall] at hread
      cases received with
      | nil => exact hread
      | cons c received => exact (ih _ _ later).trans hread
    · rw [if_neg hmore]

theorem readExact_suffix (sock : Socket) (len : ℕ) :
    (readExact sock len).2.content <:+ sock.content :=
  readExactLoop_suffix len (len + 1) _ [] sock

theorem readTrailers_suffix (bound : ℕ) (sock : Socket) :
    (readTrailers bound sock).2.content <:+ sock.content := by
  induction bound generalizing sock with
  | zero => exact List.suffix_rfl
  | succ bound ih =>
    have hline := readLine_suffix sock readlineBufSize
    rw [readTrailers]
    rcases hcall : readLine sock readlineBufSize with ⟨result, later⟩
    rw [hcall] at hline
    cases result with
    | none => exact hline
    | some line =>
      simp only
      split_ifs
      · exact hline
      · exact (ih later).trans hline

theorem readChunk_suffix (httpPkt : HttpPacket) (sock : Socket) :
    (httpPkt.readChunk sock).2.2.content <:+ sock.content := by
  have hline := readLine_suffix sock readlineBufSize
  unfold readChunk
  rcases hcall : readLine sock readlineBufSize with ⟨result, behindLine⟩
  rw [hcall] at hline
  cases result with
  | none => exact hline
  | some line =>
    simp only
    cases chunkLength (bufferString line) with
    | none => exact hline
    | some size =>
      cases size with
      | zero => exact (readTrailers_suffix _ behindLine).trans hline
      | succ size =>
        have hexact := readExact_suffix behindLine (size + 1)
        simp only
        rcases hcall : readExact behindLine (size + 1) with ⟨content, behindContent⟩
        rw [hcall] at hexact
        cases content with
        | none => exact hexact.trans hline
        | some content =>
          have hend := readLine_suffix behindContent readlineBufSize
          simp only
          split_ifs
          · exact hend.trans (hexact.trans hline)
          · exact hend.trans (hexact.trans hline)

theorem readChunks_suffix (bound conLen : ℕ) (httpPkt : HttpPacket) (sock : Socket) :
    (readChunks bound conLen httpPkt sock).2.2.content <:+ sock.content := by
  induction bound generalizing conLen httpPkt sock with
  | zero => exact List.suffix_rfl
  | succ bound ih =>
    have hchunk := readChunk_suffix httpPkt sock
    rw [readChunks]
    rcases hcall : httpPkt.readChunk sock with ⟨size, packet, later⟩
    rw [hcall] at hchunk
    cases size with
    | none => exact hchunk
    | some size =>
      simp only
      split_ifs
      · exact hchunk
      · exact hchunk
      · exact (ih _ _ later).trans hchunk

theorem readToEnd_suffix (bound conLen : ℕ) (httpPkt : HttpPacket) (sock : Socket) :
    (readToEnd bound conLen httpPkt sock).2.2.content <:+ sock.content := by
  induction bound generalizing conLen httpPkt sock with
  | zero => exact List.suffix_rfl
  | succ bound ih =>
    have hread := socketRead_suffix sock 1024
    rw [readToEnd]
    rcases hcall : socketRead sock 1024 with ⟨received, later⟩
    rw [hcall] at hread
    cases received with
    | nil => exact hread
    | cons c received =>
      simp only
      split_ifs
      · exact hread
      · exact (ih _ _ later).trans hread

theorem readBody_suffix (httpPkt : HttpPacket) (sock : Socket) :
    (httpPkt.readBody sock).2.2.content <:+ sock.content := by
  unfold readBody
  cases httpPkt.getHeaderValue "Content-Length".toList with
  | none =>
    simp only
    split_ifs
    · exact readChunks_suffix _ 0 httpPkt sock
    · exact readToEnd_suffix _ 0 httpPkt sock
  | some lengthHeader =>
    simp only
    cases parseContentLength lengthHeader with
    | none => exact List.suffix_rfl
    | some conLen =>
      cases conLen with
      | zero => exact List.suffix_rfl
      | succ conLen =>
        have hexact := readExact_suffix sock (conLen + 1)
        simp only
        rcases hcall : readExact sock (conLen + 1) with ⟨content, later⟩
        rw [hcall] at hexact
        cases content with
        | none => exact hexact
        | some content => exact hexact

end HttpPacket

namespace HttpRequest

/-! ### Requests -/

theorem readFirstLine_suffix (bound : ℕ) (sock : Socket) :
    (readFirstLine bound sock).2.content <:+ sock.content := by
  induction bound generalizing sock with
  | zero => exact List.suffix_rfl
  | succ bound ih =>
    have hline := readLine_suffix sock readlineBufSize
    rw [readFirstLine]
    rcases hcall : readLine sock readlineBufSize with ⟨result, later⟩
    rw [hcall] at hline
    cases result with
    | none => exact hline
    | some line =>
      simp only
      split_ifs
      · exact (ih later).trans hline
      · exact hline

/-- A first line that is found takes at least one byte. -/
theorem length_readFirstLine_lt {bound : ℕ} {sock later : Socket} {line : CString}
    (h : readFirstLine bound sock = (some line, later)) :
    later.content.length < sock.content.length := by
  induction bound generalizing sock with
  | zero => cases h
  | succ bound ih =>
    rw [readFirstLine] at h
    rcases hread : readLine sock readlineBufSize with ⟨result, next⟩
    rw [hread] at h
    cases result with
    | none => cases h
    | some text =>
      have hlt := length_readLine_lt hread
      simp only at h
      split_ifs at h
      · exact (ih h).trans hlt
      · obtain rfl := congrArg Prod.snd h
        exact hlt

/-- A read leaves an end of the stream. -/
theorem read_suffix (httpReq : HttpRequest) (sock : Socket) :
    (httpReq.read sock).2.2.content <:+ sock.content := by
  have hfirst := readFirstLine_suffix (sock.content.length + 1) sock
  unfold HttpRequest.read
  rcases hcall : readFirstLine (sock.content.length + 1) sock with ⟨result, behindLine⟩
  rw [hcall] at hfirst
  cases result with
  | none => exact hfirst
  | some line =>
    simp only
    split_ifs
    · exact hfirst
    · exact (HttpPacket.readBody_suffix _ _).trans
        ((HttpPacket.readHeaders_suffix _ behindLine).trans hfirst)
    · exact (HttpPacket.readHeaders_suffix _ behindLine).trans hfirst

/-- A request that was read has taken at least one byte. -/
theorem length_read_lt {httpReq : HttpRequest} {sock : Socket}
    (h : (httpReq.read sock).1 = true) :
    (httpReq.read sock).2.2.content.length < sock.content.length := by
  unfold HttpRequest.read at h ⊢
  rcases hfirst : readFirstLine (sock.content.length + 1) sock with ⟨result, behindLine⟩
  rw [hfirst] at h
  cases result with
  | none => cases h
  | some line =>
    have hlt := length_readFirstLine_lt hfirst
    have hheaders := HttpPacket.readHeaders_suffix HttpPacket.empty behindLine
    simp only
    split_ifs
    · exact hlt
    · exact ((HttpPacket.readBody_suffix _ _).trans hheaders).length_le.trans_lt hlt
    · exact hheaders.length_le.trans_lt hlt

end HttpRequest

end Mupnp.Http
