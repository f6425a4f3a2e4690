import Mupnp.Http.BodyFraming

/-!
# Chunks that are read as they were posted

`mupnp_http_request_postchunkeddata` and `mupnp_http_request_postlastchunk` in
`http/http_request.c`: a block is posted behind a line with its size in base sixteen, and the last
chunk is the size zero and an empty line. What they post is a chunked body (`isChunkedBody_posted`),
so that the blocks are read back whole when their total length fits a `long`
(`readBody_postChunked`).
-/

set_option autoImplicit false
set_option relaxedAutoImplicit false

namespace Mupnp.Http

open Foundation Net Util

/-- `%x`: the digits of an `unsigned int`. -/
def hexText (value : ℤ) : CString := Nat.toDigits 16 (BitVec.ofInt 32 value).toNat

/-- `mupnp_http_request_postchunkedsize`. -/
def postChunkedSize (dataLen : ℤ) : List Char := hexText dataLen ++ "\r\n".toList

/-- `mupnp_http_request_postchunkeddata`: nothing for an empty block. -/
def postChunkedData (data : List Char) (dataLen : ℤ) : List Char :=
  if dataLen ≤ 0 then []
  else postChunkedSize dataLen ++ data.take dataLen.toNat ++ "\r\n".toList

/-- `mupnp_http_request_postlastchunk`. -/
def postLastChunk : List Char := postChunkedSize 0 ++ "\r\n".toList

/-- The largest `int`. -/
def intMax : ℕ := 2 ^ 31 - 1

/-- What is posted for blocks, one after the other, and behind the last one. -/
def postBlocks (blocks : List (List Char)) : List Char :=
  blocks.flatMap (fun block ↦ postChunkedData block block.length) ++ postLastChunk

/-! ### The size line -/

theorem hexDigit_digitChar {digit : ℕ} (h : digit < 16) :
    HttpPacket.hexDigit digit.digitChar = some digit := by
  have hall : ∀ digit < 16, HttpPacket.hexDigit digit.digitChar = some digit := by decide
  exact hall digit h

/-- The digits in base sixteen are read back as the number. -/
theorem isSize_toDigits (value : ℕ) (h : (value : ℤ) ≤ longMax - 1) :
    IsSize (Nat.toDigits 16 value) value := by
  have hread : ∀ value : ℕ, (∀ c ∈ Nat.toDigits 16 value,
      (HttpPacket.hexDigit c).isSome = true) ∧ hexNumber (Nat.toDigits 16 value) = value := by
    intro value
    induction value using Nat.strongRecOn with
    | ind value ih =>
      by_cases hsmall : value < 16
      · rw [Nat.toDigits_of_lt_base hsmall]
        unfold hexNumber
        refine ⟨fun c hc ↦ ?_, ?_⟩
        · rw [List.mem_singleton.mp hc, hexDigit_digitChar hsmall]
          rfl
        · rw [List.foldl_cons, hexDigit_digitChar hsmall]
          simp
      · have hlast : value % 16 < 16 := Nat.mod_lt _ (by decide)
        obtain ⟨hdigits, hnumber⟩ := ih (value / 16) (by omega)
        rw [Nat.toDigits_of_base_le (by decide) (by omega)]
        refine ⟨fun c hc ↦ ?_, ?_⟩
        · rcases List.mem_append.mp hc with hmem | hmem
          · exact hdigits c hmem
          · rw [List.mem_singleton.mp hmem, hexDigit_digitChar hlast]
            rfl
        · unfold hexNumber at hnumber ⊢
          rw [List.foldl_append, hnumber, List.foldl_cons, hexDigit_digitChar hlast]
          simp only [Option.getD_some, List.foldl_nil]
          omega
  obtain ⟨hdigits, hnumber⟩ := hread value
  exact ⟨Nat.toDigits_ne_nil, hdigits, hnumber, h⟩

/-- The size of a block is written on a line that says it and that fits the read buffer. -/
theorem hasLineSize_hexText {size : ℕ} (h : size ≤ intMax) :
    '\n' ∉ hexText size ++ ['\r'] ∧ HasLineSize (hexText size ++ ['\r']) size := by
  have hmax : size ≤ 2147483647 := h
  have hvalue : (BitVec.ofInt 32 (size : ℤ)).toNat = size := by
    rw [BitVec.ofInt_natCast, BitVec.toNat_ofNat]
    exact Nat.mod_eq_of_lt (by omega)
  have hsize : IsSize (hexText size) size := by
    unfold hexText
    rw [hvalue]
    exact isSize_toDigits size (by unfold longMax; omega)
  have hlength : (hexText size).length ≤ 8 := by
    unfold hexText
    rw [hvalue]
    exact (Nat.length_toDigits_le_iff (by decide) (by decide)).mpr (by omega)
  have hfeed : '\n' ∉ hexText size ++ ['\r'] := by
    rw [List.mem_append, not_or]
    refine ⟨fun hmem ↦ ?_, by decide⟩
    exact absurd (hsize.digit _ hmem) (by decide)
  have hends : EndsSize ['\r'] := Or.inr (Or.inl rfl)
  refine ⟨hfeed, (lineSize_of_isSizeLine hfeed ⟨_, _, rfl, hsize, hends⟩).mpr ?_⟩
  rw [(leadingDigits_append hsize.digit hends.stopsSize.head).1]
  exact Nat.lt_of_le_of_lt hlength (by decide)

/-! ### The body -/

/-- The body that is posted for blocks. -/
def postedBody (blocks : List (List Char)) : ChunkedBody Char where
  chunks := blocks.map fun block ↦ ⟨hexText block.length ++ ['\r'], block⟩
  lastLine := hexText 0 ++ ['\r']
  trailers := []
  emptyLine := ['\r']

section blocks

variable {blocks : List (List Char)}

theorem data_postedBody (blocks : List (List Char)) :
    (postedBody blocks).data = blocks.flatten := by
  unfold postedBody ChunkedBody.data
  rw [List.flatMap_map, List.flatMap_id']

theorem text_postedBody (h : ∀ block ∈ blocks, block ≠ []) :
    (postedBody blocks).text chunkSigns = postBlocks blocks := by
  have hblocks : ∀ blocks : List (List Char), (∀ block ∈ blocks, block ≠ []) →
      (blocks.map fun block ↦ Chunk.mk (hexText block.length ++ ['\r']) block).flatMap
          (Chunk.text chunkSigns) =
        blocks.flatMap fun block ↦ postChunkedData block block.length := by
    intro blocks
    induction blocks with
    | nil => exact fun _ ↦ rfl
    | cons block blocks ih =>
      intro hall
      have hpos : ¬ (block.length : ℤ) ≤ 0 := by
        have hlength := List.length_pos_iff.mpr (hall block List.mem_cons_self)
        omega
      rw [List.map_cons, List.flatMap_cons, List.flatMap_cons,
        ih fun other hother ↦ hall other (List.mem_cons_of_mem _ hother)]
      congr 1
      unfold postChunkedData postChunkedSize Chunk.text
      rw [if_neg hpos, Int.toNat_natCast, List.take_length]
      simp [chunkSigns]
  unfold ChunkedBody.text ChunkedBody.trailerText postBlocks postLastChunk postChunkedSize
  have hchunks : (postedBody blocks).chunks.flatMap (Chunk.text chunkSigns) = _ := hblocks blocks h
  rw [hchunks]
  simp [postedBody, chunkSigns, linesText]

/-- What is posted for blocks is a chunked body. -/
theorem isChunkedBody_posted (h : ∀ block ∈ blocks, block ≠ [] ∧ block.length ≤ intMax) :
    IsChunkedBody chunkSigns HasLineSize IsEmptyLine (postedBody blocks) := by
  obtain ⟨hlastFeed, hlast⟩ := hasLineSize_hexText (Nat.zero_le intMax)
  have hempty : '\n' ∉ ['\r'] := by decide
  refine ⟨fun chunk hchunk ↦ ?_, hlastFeed, hlast, by simp [postedBody], by simp [postedBody],
    hempty, Or.inr rfl⟩
  obtain ⟨block, hblock, rfl⟩ := List.mem_map.mp hchunk
  obtain ⟨hne, hmax⟩ := h block hblock
  obtain ⟨hfeed, hsize⟩ := hasLineSize_hexText hmax
  exact ⟨hfeed, hsize, hne⟩

end blocks

/-! ### The round trip -/

namespace HttpPacket

theorem appendContent_content (httpPkt : HttpPacket) (value : List Char) :
    (httpPkt.appendContent value).content.getD [] = httpPkt.content.getD [] ++ value := by
  cases value with
  | nil => simp [appendContent, stringAddValue]
  | cons c rest => simp [appendContent, stringAddValue]

theorem appendChunks_content (httpPkt : HttpPacket) (chunks : List (Chunk Char)) :
    (httpPkt.appendChunks chunks).content.getD [] =
      httpPkt.content.getD [] ++ chunks.flatMap Chunk.data := by
  induction chunks generalizing httpPkt with
  | nil => simp [appendChunks]
  | cons chunk chunks ih =>
    have hstep : httpPkt.appendChunks (chunk :: chunks) =
        (httpPkt.appendContent chunk.data).appendChunks chunks := rfl
    rw [hstep, ih, appendContent_content, List.flatMap_cons, List.append_assoc]

theorem getContentLength_setContentLength (httpPkt : HttpPacket) {length : ℕ}
    (h : (length : ℤ) ≤ longMax) : (httpPkt.setContentLength length).getContentLength = length := by
  have hvalue : (httpPkt.setContentLength length).getHeaderValue "Content-Length".toList =
      some (long2str length) := headerListGetValue_set_self _ _ _
  unfold getContentLength
  rw [hvalue]
  exact atol_long2str (Int.natCast_nonneg _) h

section posted

variable {blocks : List (List Char)} (h : ∀ block ∈ blocks, block ≠ [] ∧ block.length ≤ intMax)
  {httpPkt : HttpPacket} (hchunked : httpPkt.isChunked = true)
  (hlength : httpPkt.getHeaderValue "Content-Length".toList = none) {sock : Socket}
  {rest : List Char} (hsock : sock.content = postBlocks blocks ++ rest)
include h hchunked hlength hsock

/-- Blocks whose total length fits a `long` are read back from what was posted for them. -/
theorem readBody_postBlocks (htotal : (blocks.flatten.length : ℤ) ≤ longMax) :
    ∃ (httpPkt' : HttpPacket) (later : Socket), httpPkt.readBody sock = (true, httpPkt', later) ∧
      httpPkt'.content.getD [] = httpPkt.content.getD [] ++ blocks.flatten ∧
      httpPkt'.getContentLength = blocks.flatten.length ∧ later.content = rest := by
  have htext := text_postedBody fun block hblock ↦ (h block hblock).1
  have hdata := data_postedBody blocks
  rw [← hdata] at htotal
  obtain ⟨later, hread, hrest⟩ := readBody_chunked hlength hchunked (isChunkedBody_posted h) htotal
    (show sock.content = (postedBody blocks).text chunkSigns ++ rest by rw [htext, hsock])
  refine ⟨_, later, hread, ?_, ?_, hrest⟩
  · rw [← hdata]
    exact appendChunks_content httpPkt _
  · rw [← hdata]
    exact getContentLength_setContentLength _ htotal

/-- Longer blocks are not read. -/
theorem readBody_postBlocks_long (hlong : longMax < (blocks.flatten.length : ℤ)) :
    (httpPkt.readBody sock).1 = false := by
  by_contra htrue
  rw [Bool.not_eq_false] at htrue
  obtain ⟨text, hcontent, htext⟩ :=
    exists_declaredBody_of_readBody (Or.inr hchunked) (Prod.ext htrue rfl)
  unfold IsDeclaredBody at htext
  rw [hlength] at htext
  obtain ⟨body, hbody, rfl, hmax⟩ := htext
  have hposted := text_postedBody fun block hblock ↦ (h block hblock).1
  rw [hsock, ← hposted] at hcontent
  obtain ⟨rfl, -⟩ := IsChunkedBody.eq_of_append
    (fun line count count' _ hcount hcount' ↦ Option.some.inj (hcount.symm.trans hcount'))
    (isChunkedBody_posted h) hbody hcontent
  rw [data_postedBody] at hmax
  omega

end posted

/-- Two blocks, one of them with a line end, into a packet that was only just read. -/
theorem readBody_postBlocks_two :
    ∃ (httpPkt' : HttpPacket) (later : Socket), chunkedPacket.readBody
        ⟨[postBlocks ["a\r\n0\r\n".toList, "b".toList], "GET".toList]⟩ = (true, httpPkt', later) ∧
      httpPkt'.content.getD [] = chunkedPacket.content.getD [] ++
        ["a\r\n0\r\n".toList, "b".toList].flatten ∧
      httpPkt'.getContentLength = (["a\r\n0\r\n".toList, "b".toList].flatten.length : ℤ) ∧
      later.content = "GET".toList :=
  readBody_postBlocks (by decide) (by decide +kernel) (by decide +kernel) (by decide +kernel)
    (by decide)

/-- More blocks of the largest length than a `long` can count. -/
theorem not_readBody_postBlocks :
    ¬ ∀ blocks : List (List Char), (∀ block ∈ blocks, block ≠ [] ∧ block.length ≤ intMax) →
      ∀ (httpPkt : HttpPacket) (sock : Socket) (rest : List Char), httpPkt.isChunked = true →
        httpPkt.getHeaderValue "Content-Length".toList = none →
        sock.content = postBlocks blocks ++ rest →
        ∃ (httpPkt' : HttpPacket) (later : Socket),
          httpPkt.readBody sock = (true, httpPkt', later) ∧
          httpPkt'.content.getD [] = httpPkt.content.getD [] ++ blocks.flatten ∧
          httpPkt'.getContentLength = blocks.flatten.length ∧ later.content = rest := by
  have hchunked : chunkedPacket.isChunked = true := by decide +kernel
  have hnone : chunkedPacket.getHeaderValue "Content-Length".toList = none := by decide +kernel
  intro hall
  have hbounded : ∀ count size : ℕ, size ≤ intMax → 0 < size →
      ¬ longMax < ((count * size : ℕ) : ℤ) := by
    intro count size hsize hpos hlong
    have hblocks : ∀ block ∈ List.replicate count (List.replicate size 'a'),
        block ≠ [] ∧ block.length ≤ intMax := by
      intro block hblock
      rw [List.eq_of_mem_replicate hblock]
      refine ⟨fun hnil ↦ ?_, by rwa [List.length_replicate]⟩
      have hlength := congrArg List.length hnil
      rw [List.length_replicate, List.length_nil] at hlength
      omega
    have hsock : SegmentedStream.content
        ⟨[postBlocks (List.replicate count (List.replicate size 'a'))]⟩ =
          postBlocks (List.replicate count (List.replicate size 'a')) ++ [] := by
      simp [SegmentedStream.content]
    have hfalse := readBody_postBlocks_long hblocks hchunked hnone hsock (by simpa using hlong)
    obtain ⟨httpPkt', later, hread, -⟩ := hall _ hblocks chunkedPacket _ [] hchunked hnone hsock
    rw [hread] at hfalse
    cases hfalse
  exact hbounded (2 ^ 33) intMax (Nat.le_refl _) (by decide) (by decide)

end HttpPacket

end Mupnp.Http
