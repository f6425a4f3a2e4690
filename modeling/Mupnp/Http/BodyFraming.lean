import Mupnp.Foundation.ChunkedCoding
import Mupnp.Http.ChunkSize

/-!
# The end of a body

What the reader of a body takes off the stream. A body with a `Content-Length` is as many bytes as
its header says; a chunked body is what the chunks are read from (`readChunks_eq_true_iff`). Every
other end of the stream, length or line is a failure. The size lines that are read are those of the
module on chunk sizes, so that a chunked body that is read has the framing it declares exactly when
each of its size lines says a size (`readBody_isExact_iff`).
-/

set_option autoImplicit false
set_option relaxedAutoImplicit false

namespace Mupnp.Http

open Foundation Net Util

/-! ### Lines -/

/-- The line feed, and the line end that closes a chunk. -/
def chunkSigns : ChunkSigns Char := ⟨'\n', "\r\n".toList⟩

/-- A line with nothing but its line end. -/
def IsEmptyLine (line : CString) : Prop := line = [] ∨ line = ['\r']

instance (line : CString) : Decidable (IsEmptyLine line) :=
  inferInstanceAs (Decidable (line = [] ∨ line = ['\r']))

/-- A line is read up to its line feed, or the stream is at its end. -/
theorem readLine_cases (sock : Socket) (bufferLen : ℕ) :
    (∃ (line rest : List Char) (later : Socket), '\n' ∉ line ∧
        sock.content = line ++ '\n' :: rest ∧
        readLine sock bufferLen = (some ((line ++ ['\n']).take (bufferLen - 1)), later) ∧
        later.content = rest) ∨
      ∃ (result : Option CString) (later : Socket), readLine sock bufferLen = (result, later) ∧
        later.content = [] ∧ ∀ line ∈ result, '\n' ∉ line := by
  by_cases hmem : '\n' ∈ sock.content
  · obtain ⟨line, rest, hcontent, hline⟩ := List.eq_append_cons_of_mem hmem
    obtain ⟨later, hread, hrest⟩ := readLine_eq_take hline bufferLen hcontent
    exact Or.inl ⟨line, rest, later, hline, hcontent, hread, hrest⟩
  · obtain ⟨hleft, hstored⟩ := readLine_of_not_mem hmem bufferLen
    exact Or.inr ⟨_, _, rfl, hleft, hstored⟩

/-- The empty line is found in the buffer. -/
theorem bufferString_isEmptyLine_iff {line : CString} (hline : '\n' ∉ line) :
    (bufferString ((line ++ ['\n']).take (readlineBufSize - 1)) = "\r\n".toList ∨
        bufferString ((line ++ ['\n']).take (readlineBufSize - 1)) = "\n".toList) ↔
      IsEmptyLine line := by
  constructor
  · intro h
    have hstart : bufferString ((line ++ ['\n']).take (readlineBufSize - 1)) <+: line ++ ['\n'] :=
      (List.takeWhile_prefix _).trans (List.take_prefix _ _)
    rcases h with h | h
    · rw [h] at hstart
      obtain ⟨later, hlater⟩ := hstart
      have hcons : '\r' :: '\n' :: later = line ++ ['\n'] := hlater
      cases line with
      | nil => cases hcons
      | cons c line =>
        obtain ⟨rfl, htail⟩ := List.cons.inj hcons
        cases line with
        | nil => exact Or.inr rfl
        | cons d line =>
          rw [← (List.cons.inj htail).1] at hline
          exact absurd (by simp) hline
    · rw [h] at hstart
      obtain ⟨later, hlater⟩ := hstart
      cases line with
      | nil => exact Or.inl rfl
      | cons c line =>
        rw [← (List.cons.inj hlater).1] at hline
        exact absurd List.mem_cons_self hline
  · rintro (rfl | rfl)
    · exact Or.inr (by decide)
    · exact Or.inl (by decide)

/-- The size that is read in a line. -/
def HasLineSize (line : CString) (size : ℕ) : Prop := lineSize line = some size

namespace HttpPacket

/-! ### An exact number of bytes -/

theorem readExactLoop_short {len bound bufSize : ℕ} {buf : List Char} {sock : Socket}
    (h : buf.length + sock.content.length < len) :
    (readExactLoop len bound bufSize buf sock).1 = none := by
  induction bound generalizing bufSize buf sock with
  | zero => rfl
  | succ bound ih =>
    rw [readExactLoop, if_pos (by omega)]
    generalize (if buf.length = bufSize then
      if bufSize ≤ len - bufSize then bufSize * 2 else len else bufSize) = room
    have hread := socketRead_content sock (room - buf.length)
    rcases hcall : socketRead sock (room - buf.length) with ⟨received, later⟩
    rw [hcall] at hread
    simp only [hcall]
    cases received with
    | nil => rfl
    | cons c received =>
      refine ih ?_
      have hlength := congrArg List.length hread
      simp only [List.length_append] at hlength ⊢
      omega

/-- As many bytes as asked for are read, or the stream ends before. -/
theorem readExact_cases (sock : Socket) (len : ℕ) :
    (∃ (body rest : List Char) (later : Socket), body.length = len ∧
        sock.content = body ++ rest ∧ readExact sock len = (some body, later) ∧
        later.content = rest) ∨
      sock.content.length < len ∧ ∃ later, readExact sock len = (none, later) := by
  by_cases hlength : len ≤ sock.content.length
  · obtain ⟨later, hread, hrest⟩ :=
      @readExact_append (sock.content.take len) (sock.content.drop len) sock (by simp)
    rw [List.length_take, Nat.min_eq_left hlength] at hread
    exact Or.inl ⟨_, _, later, by rw [List.length_take, Nat.min_eq_left hlength], by simp, hread,
      hrest⟩
  · have hshort : (readExact sock len).1 = none :=
      readExactLoop_short (by rw [List.length_nil]; omega)
    exact Or.inr ⟨by omega, (readExact sock len).2, Prod.ext hshort rfl⟩

/-! ### Trailers -/

theorem exists_trailer_of_readTrailers {bound : ℕ} {sock later : Socket}
    (h : readTrailers bound sock = (true, later)) :
    ∃ trailers emptyLine, IsTrailer chunkSigns IsEmptyLine trailers emptyLine ∧
      sock.content = linesText chunkSigns trailers ++ (emptyLine ++ '\n' :: later.content) := by
  induction bound generalizing sock with
  | zero => cases h
  | succ bound ih =>
    rw [readTrailers] at h
    rcases readLine_cases sock readlineBufSize with
      ⟨line, rest, next, hline, hcontent, hread, hnext⟩ | ⟨result, next, hread, hnext, hstored⟩
    · rw [hread] at h
      simp only [bufferString_isEmptyLine_iff hline] at h
      split_ifs at h with hempty
      · obtain ⟨-, rfl⟩ := Prod.mk.inj h
        refine ⟨[], line, ⟨by simp, by simp, hline, hempty⟩, ?_⟩
        rw [hcontent, hnext]
        rfl
      · obtain ⟨trailers, emptyLine, htrailer, hrest⟩ := ih h
        refine ⟨line :: trailers, emptyLine, ⟨?_, ?_, htrailer.emptyLine_feed, htrailer.emptyLine⟩,
          ?_⟩
        · intro other hother
          rcases List.mem_cons.mp hother with rfl | hmem
          · exact hline
          · exact htrailer.trailer_feed other hmem
        · intro other hother
          rcases List.mem_cons.mp hother with rfl | hmem
          · exact hempty
          · exact htrailer.trailer other hmem
        · rw [hcontent, ← hnext, hrest]
          simp [linesText, chunkSigns]
    · rw [hread] at h
      cases result with
      | none => cases h
      | some line =>
        have hfeed : '\n' ∉ bufferString line :=
          fun hmem ↦ hstored line rfl ((List.takeWhile_sublist _).mem hmem)
        have hempty : ¬ (bufferString line = "\r\n".toList ∨ bufferString line = "\n".toList) := by
          rintro (heq | heq) <;>
          · rw [heq] at hfeed
            exact hfeed (by decide)
        simp only [if_neg hempty] at h
        obtain ⟨trailers, emptyLine, -, hrest⟩ := ih h
        rw [hnext] at hrest
        simp at hrest

theorem readTrailers_append {trailers : List (List Char)} {emptyLine rest : List Char}
    (h : IsTrailer chunkSigns IsEmptyLine trailers emptyLine) {bound : ℕ}
    (hbound : trailers.length < bound) {sock : Socket}
    (hsock : sock.content = linesText chunkSigns trailers ++ (emptyLine ++ '\n' :: rest)) :
    ∃ later, readTrailers bound sock = (true, later) ∧ later.content = rest := by
  induction trailers generalizing bound sock with
  | nil =>
    obtain ⟨bound, rfl⟩ := Nat.exists_eq_succ_of_ne_zero (by omega : bound ≠ 0)
    obtain ⟨later, hread, hrest⟩ := readLine_eq_take h.emptyLine_feed readlineBufSize hsock
    refine ⟨later, ?_, hrest⟩
    rw [readTrailers, hread]
    simp only [if_pos ((bufferString_isEmptyLine_iff h.emptyLine_feed).mpr h.emptyLine)]
  | cons line trailers ih =>
    obtain ⟨bound, rfl⟩ := Nat.exists_eq_succ_of_ne_zero (by omega : bound ≠ 0)
    have hline : '\n' ∉ line := h.trailer_feed line List.mem_cons_self
    have hcontent : sock.content =
        line ++ '\n' :: (linesText chunkSigns trailers ++ (emptyLine ++ '\n' :: rest)) := by
      rw [hsock]
      simp [linesText, chunkSigns]
    obtain ⟨next, hread, hnext⟩ := readLine_eq_take hline readlineBufSize hcontent
    rw [List.length_cons] at hbound
    obtain ⟨later, hloop, hrest⟩ := ih h.tail (by omega : trailers.length < bound) hnext
    refine ⟨later, ?_, hrest⟩
    have hempty := mt (bufferString_isEmptyLine_iff hline).mp (h.trailer line List.mem_cons_self)
    rw [readTrailers, hread]
    simp only [if_neg hempty, hloop]

/-! ### Chunks -/

/-- A line end behind the data is read only where it stands. -/
theorem readLine_eq_crlf {sock later : Socket}
    (h : readLine sock readlineBufSize = (some "\r\n".toList, later)) :
    sock.content = "\r\n".toList ++ later.content := by
  rcases readLine_cases sock readlineBufSize with
    ⟨line, rest, next, hline, hcontent, hread, hnext⟩ | ⟨result, next, hread, hnext, hstored⟩
  · rw [hread] at h
    obtain ⟨hsome, rfl⟩ := Prod.mk.inj h
    have hstored : (line ++ ['\n']).take (readlineBufSize - 1) = "\r\n".toList :=
      Option.some.inj hsome
    have hempty := (bufferString_isEmptyLine_iff hline).mp
      (by rw [hstored]; exact Or.inl (by decide))
    rcases hempty with rfl | rfl
    · exact absurd hstored (by decide)
    · rw [hcontent, hnext]
      rfl
  · rw [hread] at h
    obtain ⟨rfl, -⟩ := Prod.mk.inj h
    exact absurd (hstored _ rfl) (by decide)

/-- What a chunk was read from. -/
theorem exists_of_readChunk {httpPkt httpPkt' : HttpPacket} {sock later : Socket} {size : ℕ}
    (h : httpPkt.readChunk sock = (some size, httpPkt', later)) :
    (size = 0 ∧ httpPkt' = httpPkt ∧ ∃ lastLine trailers emptyLine, '\n' ∉ lastLine ∧
        HasLineSize lastLine 0 ∧ IsTrailer chunkSigns IsEmptyLine trailers emptyLine ∧
        sock.content = lastLine ++ '\n' ::
          (linesText chunkSigns trailers ++ (emptyLine ++ '\n' :: later.content))) ∨
      ∃ chunk, IsChunk chunkSigns HasLineSize chunk ∧ chunk.data.length = size ∧
        httpPkt' = httpPkt.appendContent chunk.data ∧
        sock.content = chunk.line ++ '\n' ::
          (chunk.data ++ ("\r\n".toList ++ later.content)) := by
  unfold readChunk at h
  rcases readLine_cases sock readlineBufSize with
    ⟨line, rest, next, hline, hcontent, hread, hnext⟩ | ⟨result, next, hread, hnext, hstored⟩
  · rw [hread] at h
    simp only at h
    split at h
    · cases h
    next hzero =>
      split_ifs at h with hcomplete
      · obtain ⟨hsize, rfl, rfl⟩ : 0 = size ∧ httpPkt = httpPkt' ∧
            (readTrailers (next.content.length + 1) next).2 = later := by
          simpa using h
        obtain ⟨trailers, emptyLine, htrailer, hrest⟩ :=
          exists_trailer_of_readTrailers (Prod.ext hcomplete rfl)
        refine Or.inl ⟨hsize.symm, rfl, line, trailers, emptyLine, hline, hzero, htrailer, ?_⟩
        rw [hcontent, ← hnext]
        exact congrArg (line ++ '\n' :: ·) hrest
      · simp at h
    next chunkLen hnonzero hchunk =>
      rcases readExact_cases next chunkLen with
        ⟨body, behind, behindContent, hlength, hsplit, hbody, hbehind⟩ | ⟨-, final, hbody⟩
      · rw [hbody] at h
        simp only at h
        split_ifs at h with hclose
        · obtain ⟨hsize, rfl, rfl⟩ : chunkLen = size ∧ httpPkt.appendContent body = httpPkt' ∧
              (readLine behindContent readlineBufSize).2 = later := by
            simpa using h
          have hend := readLine_eq_crlf (Prod.ext hclose rfl)
          refine Or.inr ⟨⟨line, body⟩, ⟨hline, ?_, ?_⟩, hlength.trans hsize, rfl, ?_⟩
          · show lineSize line = some body.length
            rw [hlength]
            exact hchunk
          · rintro rfl
            exact hnonzero hlength.symm
          · rw [hcontent, ← hnext, hsplit, ← hbehind, hend]
        · cases h
      · rw [hbody] at h
        cases h
  · rw [hread] at h
    cases result with
    | none => cases h
    | some line =>
      simp only at h
      split at h
      · cases h
      next hzero =>
        split_ifs at h with hcomplete
        · obtain ⟨trailers, emptyLine, -, hrest⟩ :=
            exists_trailer_of_readTrailers (Prod.ext hcomplete rfl)
          rw [hnext] at hrest
          simp at hrest
        · simp at h
      next chunkLen hnonzero hchunk =>
        rcases readExact_cases next chunkLen with
          ⟨body, behind, behindContent, hlength, hsplit, -, -⟩ | ⟨-, final, hbody⟩
        · rw [hnext] at hsplit
          obtain ⟨rfl, -⟩ := List.append_eq_nil_iff.mp hsplit.symm
          exact absurd hlength.symm hnonzero
        · rw [hbody] at h
          cases h

/-- A chunk at the front of the stream is read. -/
theorem readChunk_chunk (httpPkt : HttpPacket) {chunk : Chunk Char}
    (h : IsChunk chunkSigns HasLineSize chunk) {sock : Socket} {rest : List Char}
    (hsock : sock.content = chunk.line ++ '\n' :: (chunk.data ++ ("\r\n".toList ++ rest))) :
    ∃ later, httpPkt.readChunk sock =
        (some chunk.data.length, httpPkt.appendContent chunk.data, later) ∧
      later.content = rest := by
  obtain ⟨next, hread, hnext⟩ := readLine_eq_take h.feed readlineBufSize hsock
  obtain ⟨behindContent, hbody, hbehind⟩ := readExact_append hnext
  obtain ⟨later, hclose, hrest, -⟩ :=
    @readLine_crlf [] rest (by simp) (by decide) behindContent (by simpa using hbehind)
  refine ⟨later, ?_, hrest⟩
  have hsize : chunkLength (bufferString ((chunk.line ++ ['\n']).take (readlineBufSize - 1))) =
      some chunk.data.length := h.size
  unfold readChunk
  simp only [hread, hsize]
  split
  · rename_i hnone
    cases hnone
  · rename_i hzero
    exact absurd (List.length_eq_zero_iff.mp (Option.some.inj hzero)) h.data
  · rename_i chunkLen hnonzero hsome
    obtain rfl := Option.some.inj hsome
    rw [hbody]
    simp only [hclose, List.nil_append, if_true]

/-- The end of the chunks at the front of the stream is read. -/
theorem readChunk_last (httpPkt : HttpPacket) {lastLine emptyLine rest : List Char}
    {trailers : List (List Char)} (hfeed : '\n' ∉ lastLine) (hsize : HasLineSize lastLine 0)
    (h : IsTrailer chunkSigns IsEmptyLine trailers emptyLine) {sock : Socket}
    (hsock : sock.content = lastLine ++ '\n' ::
      (linesText chunkSigns trailers ++ (emptyLine ++ '\n' :: rest))) :
    ∃ later, httpPkt.readChunk sock = (some 0, httpPkt, later) ∧ later.content = rest := by
  obtain ⟨next, hread, hnext⟩ := readLine_eq_take hfeed readlineBufSize hsock
  have hlines := length_le_linesText chunkSigns trailers
  have hbound : trailers.length < next.content.length + 1 := by
    rw [hnext, List.length_append]
    omega
  obtain ⟨later, hloop, hrest⟩ := readTrailers_append h hbound hnext
  refine ⟨later, ?_, hrest⟩
  have hzero : chunkLength (bufferString ((lastLine ++ ['\n']).take (readlineBufSize - 1))) =
      some 0 := hsize
  unfold readChunk
  simp only [hread, hzero, hloop, if_true]

/-- The packet behind chunks. -/
def appendChunks (httpPkt : HttpPacket) (chunks : List (Chunk Char)) : HttpPacket :=
  chunks.foldl (fun httpPkt chunk ↦ httpPkt.appendContent chunk.data) httpPkt

/-- What the chunks of a body were read from. -/
theorem exists_of_readChunks {bound conLen : ℕ} {httpPkt httpPkt' : HttpPacket}
    {sock later : Socket} (hmax : (conLen : ℤ) ≤ longMax)
    (h : readChunks bound conLen httpPkt sock = (true, httpPkt', later)) :
    ∃ body, IsChunkedBody chunkSigns HasLineSize IsEmptyLine body ∧
      sock.content = body.text chunkSigns ++ later.content ∧
      ((conLen + body.data.length : ℕ) : ℤ) ≤ longMax ∧
      httpPkt' =
        (httpPkt.appendChunks body.chunks).setContentLength (conLen + body.data.length : ℕ) := by
  induction bound generalizing conLen httpPkt sock with
  | zero => cases h
  | succ bound ih =>
    rw [readChunks] at h
    rcases hchunk : httpPkt.readChunk sock with ⟨result, next, behind⟩
    rw [hchunk] at h
    cases result with
    | none => cases h
    | some chunkLen =>
      simp only at h
      split_ifs at h with hover hzero
      · cases h
      · obtain ⟨-, htail⟩ := Prod.mk.inj h
        obtain ⟨hpacket, rfl⟩ := Prod.mk.inj htail
        subst hzero
        rcases exists_of_readChunk hchunk with
          ⟨-, rfl, lastLine, trailers, emptyLine, hfeed, hsize, htrailer, hcontent⟩ |
            ⟨chunk, hwf, hlength, -⟩
        · refine ⟨⟨[], lastLine, trailers, emptyLine⟩, ⟨by simp, hfeed, hsize, htrailer⟩, ?_, hmax,
            hpacket.symm⟩
          rw [ChunkedBody.text_nil]
          exact hcontent
        · exact absurd (List.length_eq_zero_iff.mp hlength) hwf.data
      · rcases exists_of_readChunk hchunk with
          ⟨hnil, -⟩ | ⟨⟨line, data⟩, hwf, rfl, rfl, hcontent⟩
        · exact absurd hnil hzero
        · have hdata : ((conLen + data.length : ℕ) : ℤ) ≤ longMax := by
            simp only at hover
            push_cast
            omega
          obtain ⟨⟨chunks, lastLine, trailers, emptyLine⟩, hbody, hrest, htotal, rfl⟩ := ih hdata h
          have hlength : (ChunkedBody.mk (⟨line, data⟩ :: chunks) lastLine trailers
              emptyLine).data.length = data.length +
                (ChunkedBody.mk chunks lastLine trailers emptyLine).data.length := by
            simp [ChunkedBody.data]
          refine ⟨⟨⟨line, data⟩ :: chunks, lastLine, trailers, emptyLine⟩, ⟨?_, hbody.lastLine_feed,
            hbody.lastLine, hbody.trailer⟩, ?_, ?_, ?_⟩
          · intro chunk hmem
            rcases List.mem_cons.mp hmem with rfl | hmem
            · exact hwf
            · exact hbody.chunk chunk hmem
          · rw [ChunkedBody.text_cons, ← hrest]
            exact hcontent
          · rw [hlength, ← Nat.add_assoc]
            exact htotal
          · rw [hlength, ← Nat.add_assoc]
            rfl

/-- A body of chunks at the front of the stream is read, when its data fits a `long`. -/
theorem readChunks_append {body : ChunkedBody Char}
    (h : IsChunkedBody chunkSigns HasLineSize IsEmptyLine body) {bound conLen : ℕ}
    (hbound : body.chunks.length < bound)
    (hmax : ((conLen + body.data.length : ℕ) : ℤ) ≤ longMax) (httpPkt : HttpPacket)
    {sock : Socket} {rest : List Char} (hsock : sock.content = body.text chunkSigns ++ rest) :
    ∃ later, readChunks bound conLen httpPkt sock =
        (true, (httpPkt.appendChunks body.chunks).setContentLength
          (conLen + body.data.length : ℕ), later) ∧ later.content = rest := by
  obtain ⟨chunks, lastLine, trailers, emptyLine⟩ := body
  obtain ⟨bound, rfl⟩ := Nat.exists_eq_succ_of_ne_zero (by omega : bound ≠ 0)
  induction chunks generalizing bound conLen httpPkt sock with
  | nil =>
    rw [ChunkedBody.text_nil] at hsock
    obtain ⟨later, hread, hrest⟩ :=
      httpPkt.readChunk_last h.lastLine_feed h.lastLine h.trailer hsock
    refine ⟨later, ?_, hrest⟩
    have hover : ¬ longMax - (conLen : ℤ) < ((0 : ℕ) : ℤ) := by
      have hconLen : (conLen : ℤ) ≤ longMax := hmax
      omega
    rw [readChunks, hread]
    simp only [if_neg hover, if_true]
    rfl
  | cons chunk chunks ih =>
    rw [ChunkedBody.text_cons] at hsock
    have hchunk := h.chunk chunk List.mem_cons_self
    have hlength : (ChunkedBody.mk (chunk :: chunks) lastLine trailers emptyLine).data.length =
        chunk.data.length + (ChunkedBody.mk chunks lastLine trailers emptyLine).data.length := by
      simp [ChunkedBody.data]
    rw [hlength, ← Nat.add_assoc] at hmax
    obtain ⟨bound, rfl⟩ := Nat.exists_eq_succ_of_ne_zero
      (by rw [List.length_cons] at hbound; omega : bound ≠ 0)
    obtain ⟨next, hread, hnext⟩ := httpPkt.readChunk_chunk hchunk hsock
    obtain ⟨later, hloop, hrest⟩ := ih (httpPkt.appendContent chunk.data) h.tail hmax hnext bound
      (by rw [List.length_cons] at hbound; simpa using hbound)
    refine ⟨later, ?_, hrest⟩
    have hover : ¬ longMax - (conLen : ℤ) < (chunk.data.length : ℤ) := by
      push_cast at hmax
      omega
    have hnonzero : ¬ chunk.data.length = 0 := fun hzero ↦
      hchunk.data (List.length_eq_zero_iff.mp hzero)
    rw [readChunks, hread]
    simp only [if_neg hover, if_neg hnonzero, hloop]
    rw [hlength, ← Nat.add_assoc]
    rfl

/-- The chunks of a body stand in its text. -/
theorem length_chunks_le {size : CString → ℕ → Prop} {body : ChunkedBody Char}
    (h : IsChunkedBody chunkSigns size IsEmptyLine body) :
    body.chunks.length ≤ (body.text chunkSigns).length := by
  obtain ⟨chunks, lastLine, trailers, emptyLine⟩ := body
  induction chunks with
  | nil => exact Nat.zero_le _
  | cons chunk chunks ih =>
    have htail := ih h.tail
    have htext := congrArg List.length (@ChunkedBody.text_cons Char chunkSigns chunk chunks lastLine
      trailers emptyLine [])
    simp only [List.append_nil, List.length_append, List.length_cons] at htail htext ⊢
    omega

end HttpPacket

/-! ### The framing that the headers declare -/

/-- A value of `Content-Length`: digits, perhaps between blanks, for a length that fits a `long`
with one more byte. -/
def IsContentLength (value : CString) (length : ℕ) : Prop :=
  ∃ front digits behind, value = front ++ (digits ++ behind) ∧
    (∀ c ∈ front, HttpPacket.isLengthBlank c = true) ∧ digits ≠ [] ∧
    (∀ c ∈ digits, c.isDigit = true) ∧ (∀ c ∈ behind, HttpPacket.isLengthBlank c = true) ∧
    digitsValue 0 digits = length ∧ (length : ℤ) ≤ longMax - 1

/-- The text of a body as the headers declare it: as many bytes as `Content-Length` says, or a
chunked body with its trailers. -/
def IsDeclaredBody (size : CString → ℕ → Prop) (httpPkt : HttpPacket) (text : List Char) : Prop :=
  match httpPkt.getHeaderValue "Content-Length".toList with
  | some value => IsContentLength value text.length
  | none => ∃ body, IsChunkedBody chunkSigns size IsEmptyLine body ∧
      text = body.text chunkSigns ∧ (body.data.length : ℤ) ≤ longMax

/-- A reader is exact on a stream: it succeeds only with the bytes of a declared body, and fails
when there is none at the front of the stream. -/
def IsExact (httpPkt : HttpPacket) (sock : Socket) : Prop :=
  (∀ httpPkt' later, httpPkt.readBody sock = (true, httpPkt', later) →
      ∃ text, sock.content = text ++ later.content ∧ IsDeclaredBody IsSizeLine httpPkt text) ∧
    ((¬ ∃ text rest, sock.content = text ++ rest ∧ IsDeclaredBody IsSizeLine httpPkt text) →
      (httpPkt.readBody sock).1 = false)

/-- What stands behind the digits of each size line that is read ends a size. -/
def HasRegularFraming (httpPkt : HttpPacket) (sock : Socket) : Prop :=
  httpPkt.getHeaderValue "Content-Length".toList = none →
    ∀ body rest, IsChunkedBody chunkSigns HasLineSize IsEmptyLine body →
      (body.data.length : ℤ) ≤ longMax → sock.content = body.text chunkSigns ++ rest →
      ∀ line ∈ body.sizeLines, EndsSize (behindDigits line)

theorem isLengthBlank_of_isDigit {c : Char} (hc : c.isDigit = true) :
    HttpPacket.isLengthBlank c = false := by
  rw [Bool.eq_false_iff]
  intro hblank
  simp only [HttpPacket.isLengthBlank, Bool.or_eq_true, decide_eq_true_eq] at hblank
  rcases hblank with rfl | rfl
  · exact absurd hc (by decide)
  · exact absurd hc (by decide)

/-- The lengths that are accepted are those that a value says. -/
theorem parseContentLength_eq_some_iff {value : CString} {length : ℕ} :
    HttpPacket.parseContentLength value = some length ↔ IsContentLength value length := by
  constructor
  · intro h
    unfold HttpPacket.parseContentLength at h
    simp only at h
    split_ifs at h with hmalformed hover
    rw [not_or, Bool.not_eq_false, not_not] at hmalformed
    obtain ⟨hhead, hbehind⟩ := hmalformed
    set start := value.dropWhile HttpPacket.isLengthBlank with hstart
    have hsplit : start.takeWhile Char.isDigit ++ start.dropWhile Char.isDigit = start :=
      List.takeWhile_append_dropWhile
    have hne : start.takeWhile Char.isDigit ≠ [] := by
      cases hcons : start with
      | nil =>
        rw [hcons] at hhead
        cases hhead
      | cons c rest =>
        rw [hcons] at hhead
        have hc : c.isDigit = true := hhead
        rw [List.takeWhile_cons_of_pos hc]
        exact List.cons_ne_nil _ _
    have hdigits : ∀ c ∈ start.takeWhile Char.isDigit, c.isDigit = true :=
      fun c hc ↦ List.mem_takeWhile_imp hc
    have hblanks := List.dropWhile_eq_nil_iff.mp hbehind
    have hvalue : digitsValue 0 start = digitsValue 0 (start.takeWhile Char.isDigit) := by
      conv_lhs => rw [← hsplit]
      refine digitsValue_append hdigits (fun c hc ↦ ?_) 0
      have hstop := List.head?_dropWhile_not Char.isDigit start
      rw [hc] at hstop
      simpa using hstop
    obtain rfl := Option.some.inj h
    refine ⟨value.takeWhile HttpPacket.isLengthBlank, start.takeWhile Char.isDigit,
      start.dropWhile Char.isDigit, ?_, fun c hc ↦ List.mem_takeWhile_imp hc, hne, hdigits,
      hblanks, hvalue.symm, Int.not_lt.mp hover⟩
    rw [hsplit, hstart, List.takeWhile_append_dropWhile]
  · rintro ⟨front, digits, behind, rfl, hfront, hne, hdigits, hbehind, rfl, hfits⟩
    obtain ⟨c, rest, rfl⟩ := List.exists_cons_of_ne_nil hne
    have hc := hdigits c List.mem_cons_self
    have hcBlank : ¬ HttpPacket.isLengthBlank c = true := by
      rw [isLengthBlank_of_isDigit hc]
      decide
    have hhead : ∀ d ∈ behind.head?, d.isDigit = false := by
      intro d hd
      rw [Bool.eq_false_iff]
      intro hdigit
      have hblank := hbehind d (List.mem_of_head? hd)
      rw [isLengthBlank_of_isDigit hdigit] at hblank
      cases hblank
    have hstart : (front ++ ((c :: rest) ++ behind)).dropWhile HttpPacket.isLengthBlank =
        (c :: rest) ++ behind := by
      rw [List.dropWhile_append_of_pos hfront, List.cons_append,
        List.dropWhile_cons_of_neg hcBlank]
    have hleft : ((c :: rest) ++ behind).dropWhile Char.isDigit = behind := by
      have hwhole : ((c :: rest) ++ behind).takeWhile Char.isDigit ++
          ((c :: rest) ++ behind).dropWhile Char.isDigit = (c :: rest) ++ behind :=
        List.takeWhile_append_dropWhile
      rw [takeWhile_append_of_head hdigits hhead] at hwhole
      exact List.append_cancel_left hwhole
    have hblanks : behind.dropWhile HttpPacket.isLengthBlank = [] :=
      List.dropWhile_eq_nil_iff.mpr hbehind
    have hvalue := digitsValue_append hdigits hhead 0
    have hdigit : (((c :: rest) ++ behind).head?.map Char.isDigit).getD false = true := hc
    have hrange : ¬ longMax - 1 < (digitsValue 0 (c :: rest) : ℤ) := Int.not_lt.mpr hfits
    unfold HttpPacket.parseContentLength
    simp only [hstart, hleft, hblanks, hvalue, hdigit, if_neg hrange]
    rfl

/-- Lines that say a size are read as that size in front of a body that was read. -/
theorem isChunkedBody_isSizeLine {body : ChunkedBody Char}
    (h : IsChunkedBody chunkSigns HasLineSize IsEmptyLine body)
    (hlines : ∀ line ∈ body.sizeLines, EndsSize (behindDigits line)) :
    IsChunkedBody chunkSigns IsSizeLine IsEmptyLine body := by
  refine ⟨fun chunk hchunk ↦ ?_, h.lastLine_feed, ?_, h.trailer⟩
  · have hwf := h.chunk chunk hchunk
    have hends := hlines chunk.line
      (List.mem_append_left _ (List.mem_map.mpr ⟨chunk, hchunk, rfl⟩))
    exact ⟨hwf.feed, (isSizeLine_iff_of_lineSize hwf.feed hwf.size).mpr hends, hwf.data⟩
  · have hends := hlines body.lastLine (List.mem_append_right _ (List.mem_singleton.mpr rfl))
    exact (isSizeLine_iff_of_lineSize h.lastLine_feed h.lastLine).mpr hends

/-- A line has one size, whether it is read in it or the line says it. -/
theorem lineSize_or_isSizeLine_unique (line : CString) (size size' : ℕ) (hline : '\n' ∉ line)
    (h : HasLineSize line size ∨ IsSizeLine line size)
    (h' : HasLineSize line size' ∨ IsSizeLine line size') : size = size' := by
  have hmixed : ∀ {read said : ℕ}, HasLineSize line read → IsSizeLine line said → read = said :=
    fun hread hsaid ↦ isSizeLine_unique
      ((isSizeLine_iff_of_lineSize hline hread).mpr (isSizeLine_iff.mp hsaid).2) hsaid
  rcases h with hread | hsaid
  · rcases h' with hread' | hsaid'
    · exact Option.some.inj (hread.symm.trans hread')
    · exact hmixed hread hsaid'
  · rcases h' with hread' | hsaid'
    · exact (hmixed hread' hsaid).symm
    · exact isSizeLine_unique hsaid hsaid'

/-- The size lines of a body that says its sizes end them. -/
theorem endsSize_of_isChunkedBody {body : ChunkedBody Char}
    (h : IsChunkedBody chunkSigns IsSizeLine IsEmptyLine body) :
    ∀ line ∈ body.sizeLines, EndsSize (behindDigits line) := by
  intro line hline
  rcases List.mem_append.mp hline with hmem | hmem
  · obtain ⟨chunk, hchunk, rfl⟩ := List.mem_map.mp hmem
    exact (isSizeLine_iff.mp (h.chunk chunk hchunk).size).2
  · rw [List.mem_singleton.mp hmem]
    exact (isSizeLine_iff.mp h.lastLine).2

namespace HttpPacket

variable {httpPkt : HttpPacket} {sock : Socket}

/-- A body that was read stands at the front of the stream. -/
theorem exists_declaredBody_of_readBody
    (hdeclared : (httpPkt.getHeaderValue "Content-Length".toList).isSome = true ∨
      httpPkt.isChunked = true) {httpPkt' : HttpPacket} {later : Socket}
    (h : httpPkt.readBody sock = (true, httpPkt', later)) :
    ∃ text, sock.content = text ++ later.content ∧ IsDeclaredBody HasLineSize httpPkt text := by
  unfold readBody at h
  unfold IsDeclaredBody
  cases hlength : httpPkt.getHeaderValue "Content-Length".toList with
  | some value =>
    simp only [hlength] at h ⊢
    cases hparse : parseContentLength value with
    | none =>
      rw [hparse] at h
      cases h
    | some conLen =>
      have hvalue := parseContentLength_eq_some_iff.mp hparse
      rw [hparse] at h
      cases conLen with
      | zero =>
        obtain ⟨-, rfl⟩ : httpPkt = httpPkt' ∧ sock = later := by simpa using h
        exact ⟨[], rfl, hvalue⟩
      | succ conLen =>
        rcases readExact_cases sock (conLen + 1) with
          ⟨body, rest, behind, hcount, hsplit, hread, hrest⟩ | ⟨-, behind, hread⟩
        · simp only [hread] at h
          obtain ⟨-, rfl⟩ : { httpPkt with content := some body } = httpPkt' ∧ behind = later := by
            simpa using h
          refine ⟨body, by rw [hsplit, hrest], ?_⟩
          rw [hcount]
          exact hvalue
        · simp only [hread] at h
          cases h
  | none =>
    rw [hlength] at hdeclared
    have hchunked : httpPkt.isChunked = true := hdeclared.resolve_left (by decide)
    simp only [hlength, hchunked, if_true] at h ⊢
    obtain ⟨body, hbody, hcontent, hmax, -⟩ :=
      exists_of_readChunks (show ((0 : ℕ) : ℤ) ≤ longMax by decide) h
    rw [Nat.zero_add] at hmax
    exact ⟨body.text chunkSigns, hcontent, body, hbody, rfl, hmax⟩

/-- A chunked body at the front of the stream is read. -/
theorem readBody_chunked (hlength : httpPkt.getHeaderValue "Content-Length".toList = none)
    (hchunked : httpPkt.isChunked = true) {body : ChunkedBody Char}
    (h : IsChunkedBody chunkSigns HasLineSize IsEmptyLine body)
    (hmax : (body.data.length : ℤ) ≤ longMax) {rest : List Char}
    (hsock : sock.content = body.text chunkSigns ++ rest) :
    ∃ later, httpPkt.readBody sock =
        (true, (httpPkt.appendChunks body.chunks).setContentLength body.data.length, later) ∧
      later.content = rest := by
  have hcount := length_chunks_le h
  have hbound : body.chunks.length < sock.content.length + 1 := by
    rw [hsock, List.length_append]
    omega
  obtain ⟨later, hread, hrest⟩ := readChunks_append h hbound
    (show ((0 + body.data.length : ℕ) : ℤ) ≤ longMax by rwa [Nat.zero_add]) httpPkt hsock
  rw [Nat.zero_add] at hread
  refine ⟨later, ?_, hrest⟩
  unfold readBody
  simp only [hlength, hchunked, hread, if_true]

/-- The reader is exact exactly where the framing is regular. -/
theorem isExact_iff (hdeclared : (httpPkt.getHeaderValue "Content-Length".toList).isSome = true ∨
    httpPkt.isChunked = true) : IsExact httpPkt sock ↔ HasRegularFraming httpPkt sock := by
  constructor
  · rintro ⟨hsuccess, -⟩ hlength body rest hbody hmax hsock
    rw [hlength] at hdeclared
    have hchunked : httpPkt.isChunked = true := hdeclared.resolve_left (by decide)
    obtain ⟨later, hread, hrest⟩ := readBody_chunked hlength hchunked hbody hmax hsock
    obtain ⟨text, hcontent, htext⟩ := hsuccess _ _ hread
    unfold IsDeclaredBody at htext
    rw [hlength] at htext
    obtain ⟨body', hbody', rfl, -⟩ := htext
    have hboth : body'.text chunkSigns ++ later.content = body.text chunkSigns ++ rest := by
      rw [← hcontent, hsock]
    obtain ⟨rfl, -⟩ := IsChunkedBody.eq_of_append lineSize_or_isSizeLine_unique
      (hbody'.mono fun _ _ hsize ↦ Or.inr hsize) (hbody.mono fun _ _ hsize ↦ Or.inl hsize) hboth
    exact endsSize_of_isChunkedBody hbody'
  · intro hregular
    have hsuccess : ∀ httpPkt' later, httpPkt.readBody sock = (true, httpPkt', later) →
        ∃ text, sock.content = text ++ later.content ∧ IsDeclaredBody IsSizeLine httpPkt text := by
      intro httpPkt' later hread
      obtain ⟨text, hcontent, htext⟩ := exists_declaredBody_of_readBody hdeclared hread
      refine ⟨text, hcontent, ?_⟩
      unfold IsDeclaredBody at htext ⊢
      cases hlength : httpPkt.getHeaderValue "Content-Length".toList with
      | some value =>
        rw [hlength] at htext
        exact htext
      | none =>
        rw [hlength] at htext
        obtain ⟨body, hbody, rfl, hmax⟩ := htext
        have hlines := hregular hlength body _ hbody hmax hcontent
        exact ⟨body, isChunkedBody_isSizeLine hbody hlines, rfl, hmax⟩
    refine ⟨hsuccess, fun hnone ↦ ?_⟩
    by_contra htrue
    rw [Bool.not_eq_false] at htrue
    obtain ⟨text, hcontent, htext⟩ := hsuccess _ _ (Prod.ext htrue rfl)
    exact hnone ⟨text, _, hcontent, htext⟩

/-- The size that `mupnp_http_packet_read_chunk` takes from the first line of a chunk. -/
def announcedSize (sock : Socket) : Option ℕ :=
  (readLine sock readlineBufSize).1.bind fun line ↦ chunkLength (bufferString line)

theorem announcedSize_eq {line rest : List Char} (hline : '\n' ∉ line)
    (h : sock.content = line ++ '\n' :: rest) : announcedSize sock = lineSize line := by
  obtain ⟨later, hread, -⟩ := readLine_eq_take hline readlineBufSize h
  unfold announcedSize
  rw [hread]
  rfl

/-- A reader is exact on a stream exactly where the framing of the body is regular, and accepts a
size line if and only if it says that size exactly when the line is regular. -/
theorem readBody_isExact_iff (httpPkt : HttpPacket) (sock : Socket) :
    ((httpPkt.getHeaderValue "Content-Length".toList).isSome = true ∨ httpPkt.isChunked = true →
        (IsExact httpPkt sock ↔ HasRegularFraming httpPkt sock)) ∧
      ∀ line rest : List Char, '\n' ∉ line → sock.content = line ++ '\n' :: rest →
        ((∀ size, announcedSize sock = some size ↔ IsSizeLine line size) ↔
          IsRegularLine line) := by
  refine ⟨isExact_iff, fun line rest hline hsock ↦ ?_⟩
  rw [announcedSize_eq hline hsock]
  exact lineSize_iff_isSizeLine_iff hline

/-- A packet whose body is chunked. -/
def chunkedPacket : HttpPacket := ⟨[⟨some "Transfer-Encoding".toList, some "chunked".toList⟩], none⟩

/-- The line `5;a`, and a body with the length 5. -/
theorem readBody_isExact_five :
    IsExact (empty.setContentLength 5) ⟨["hello".toList]⟩ ∧
      ∀ size, announcedSize ⟨["5;a\r\n".toList]⟩ = some size ↔ IsSizeLine "5;a\r".toList size := by
  refine ⟨((readBody_isExact_iff _ _).1 (Or.inl (by decide +kernel))).mpr ?_,
    ((readBody_isExact_iff empty ⟨["5;a\r\n".toList]⟩).2 "5;a\r".toList [] (by decide) rfl).mpr ?_⟩
  · intro hnone
    exact absurd hnone (by decide +kernel)
  · have hdigits : ∀ {digits behind : CString} {size : ℕ}, "5;a\r".toList = digits ++ behind →
        IsSize digits size → StopsSize behind → digits = ['5'] ∧ behind = ";a\r".toList :=
      fun heq hsize hstops ↦ digits_inj hsize.digit (by decide) hstops.head (by decide) heq.symm
    refine ⟨?_, ?_, ?_⟩
    · rintro front digits behind size (rfl | rfl) heq
      · exact absurd (List.cons.inj heq).1 (by decide)
      · exact absurd (List.cons.inj heq).1 (by decide)
    · intro digits behind size heq hsize hstops _
      rw [(hdigits heq hsize hstops).2]
      decide
    · intro digits behind size heq hsize hends
      rw [(hdigits heq hsize hends.stopsSize).1]
      decide

/-- A size behind `0x` is read. -/
theorem not_readBody_isExact :
    ¬ ((∀ (httpPkt : HttpPacket) (sock : Socket),
      (httpPkt.getHeaderValue "Content-Length".toList).isSome = true ∨ httpPkt.isChunked = true →
        IsExact httpPkt sock) ∧
      ∀ (line rest : List Char) (sock : Socket), '\n' ∉ line →
        sock.content = line ++ '\n' :: rest →
        ∀ size, announcedSize sock = some size ↔ IsSizeLine line size) := by
  rintro ⟨hexact, -⟩
  have hdeclared : chunkedPacket.isChunked = true := by decide +kernel
  have hregular := (isExact_iff (Or.inr hdeclared)).mp
    (hexact chunkedPacket ⟨["0x5\r\nhello\r\n0\r\n\r\n".toList]⟩ (Or.inr hdeclared))
  have hbody : IsChunkedBody chunkSigns HasLineSize IsEmptyLine
      ⟨[⟨"0x5\r".toList, "hello".toList⟩], "0\r".toList, [], "\r".toList⟩ := by
    refine ⟨fun chunk hchunk ↦ ?_, by decide, ?_, by simp, by simp, by decide, by decide⟩
    · rw [List.mem_singleton.mp hchunk]
      refine ⟨by decide, ?_, by decide⟩
      show lineSize "0x5\r".toList = some 5
      decide +kernel
    · show lineSize "0\r".toList = some 0
      decide +kernel
  have hlength : chunkedPacket.getHeaderValue "Content-Length".toList = none := by decide +kernel
  have hends := hregular hlength _ [] hbody (by decide +kernel) (by decide +kernel)
    "0x5\r".toList List.mem_cons_self
  exact absurd hends (by decide)

end HttpPacket

end Mupnp.Http
