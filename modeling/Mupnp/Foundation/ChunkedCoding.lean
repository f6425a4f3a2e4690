import Mupnp.Foundation.ListCut

/-!
# Bodies in chunks

A body that is sent in chunks: each chunk is a line that says its size, as many elements, and a
closing mark; a line that says zero ends the chunks, and lines up to an empty one trail behind it.
What a size line looks like is a relation between lines and sizes. When a line has at most one size,
a stream begins with at most one such body (`IsChunkedBody.eq_of_append`), so that a reader that
takes one body off the stream takes the only one.
-/

set_option autoImplicit false
set_option relaxedAutoImplicit false

namespace Mupnp.Foundation

variable {α : Type*}

/-- A chunk: the line that says its size, without its line feed, and its data. -/
structure Chunk (α : Type*) where
  line : List α
  data : List α

/-- The chunks of a body, the line that ends them, the lines behind it and the empty line. -/
structure ChunkedBody (α : Type*) where
  chunks : List (Chunk α)
  lastLine : List α
  trailers : List (List α)
  emptyLine : List α

/-- The signs between the parts: the line feed, and what closes a chunk. -/
structure ChunkSigns (α : Type*) where
  feed : α
  close : List α

section text

variable (signs : ChunkSigns α)

def Chunk.text (chunk : Chunk α) : List α :=
  chunk.line ++ signs.feed :: (chunk.data ++ signs.close)

/-- Lines, each with its line feed. -/
def linesText (lines : List (List α)) : List α := lines.flatMap (· ++ [signs.feed])

/-- Each line takes at least its line feed. -/
theorem length_le_linesText (lines : List (List α)) :
    lines.length ≤ (linesText signs lines).length := by
  induction lines with
  | nil => exact Nat.le_refl _
  | cons line lines ih =>
    unfold linesText at ih ⊢
    simp only [List.flatMap_cons, List.length_append, List.length_cons, List.length_nil]
    omega

namespace ChunkedBody

/-- What follows the line that ends the chunks. -/
def trailerText (body : ChunkedBody α) : List α :=
  linesText signs body.trailers ++ body.emptyLine ++ [signs.feed]

def text (body : ChunkedBody α) : List α :=
  body.chunks.flatMap (Chunk.text signs) ++ body.lastLine ++ signs.feed :: body.trailerText signs

def data (body : ChunkedBody α) : List α := body.chunks.flatMap Chunk.data

/-- The lines that say a size. -/
def sizeLines (body : ChunkedBody α) : List (List α) :=
  body.chunks.map Chunk.line ++ [body.lastLine]

end ChunkedBody

end text

/-- A chunk whose line says the size of its data, which is not empty. -/
structure IsChunk (signs : ChunkSigns α) (size : List α → ℕ → Prop) (chunk : Chunk α) : Prop where
  feed : signs.feed ∉ chunk.line
  size : size chunk.line chunk.data.length
  data : chunk.data ≠ []

/-- Lines before the first empty one, and the empty one. -/
structure IsTrailer (signs : ChunkSigns α) (isEmptyLine : List α → Prop)
    (trailers : List (List α)) (emptyLine : List α) : Prop where
  trailer_feed : ∀ line ∈ trailers, signs.feed ∉ line
  trailer : ∀ line ∈ trailers, ¬ isEmptyLine line
  emptyLine_feed : signs.feed ∉ emptyLine
  emptyLine : isEmptyLine emptyLine

/-- A body of chunks, up to the empty line behind its trailers. -/
structure IsChunkedBody (signs : ChunkSigns α) (size : List α → ℕ → Prop)
    (isEmptyLine : List α → Prop) (body : ChunkedBody α) : Prop where
  chunk : ∀ chunk ∈ body.chunks, IsChunk signs size chunk
  lastLine_feed : signs.feed ∉ body.lastLine
  lastLine : size body.lastLine 0
  trailer : IsTrailer signs isEmptyLine body.trailers body.emptyLine

section unique

variable {signs : ChunkSigns α} {size : List α → ℕ → Prop} {isEmptyLine : List α → Prop}

theorem IsTrailer.tail {line : List α} {trailers : List (List α)} {emptyLine : List α}
    (h : IsTrailer signs isEmptyLine (line :: trailers) emptyLine) :
    IsTrailer signs isEmptyLine trailers emptyLine :=
  ⟨fun other hmem ↦ h.trailer_feed other (List.mem_cons_of_mem _ hmem),
    fun other hmem ↦ h.trailer other (List.mem_cons_of_mem _ hmem), h.emptyLine_feed, h.emptyLine⟩

/-- The text of a body with its first chunk in front. -/
theorem ChunkedBody.text_cons (chunk : Chunk α) (chunks : List (Chunk α)) (lastLine : List α)
    (trailers : List (List α)) (emptyLine rest : List α) :
    (ChunkedBody.mk (chunk :: chunks) lastLine trailers emptyLine).text signs ++ rest =
      chunk.line ++ signs.feed :: (chunk.data ++ (signs.close ++
        ((ChunkedBody.mk chunks lastLine trailers emptyLine).text signs ++ rest))) := by
  unfold ChunkedBody.text ChunkedBody.trailerText Chunk.text
  simp only [List.flatMap_cons, List.append_assoc, List.cons_append]

/-- The text of a body without chunks. -/
theorem ChunkedBody.text_nil (lastLine : List α) (trailers : List (List α))
    (emptyLine rest : List α) :
    (ChunkedBody.mk [] lastLine trailers emptyLine).text signs ++ rest =
      lastLine ++ signs.feed ::
        (linesText signs trailers ++ (emptyLine ++ signs.feed :: rest)) := by
  unfold ChunkedBody.text ChunkedBody.trailerText
  simp only [List.flatMap_nil, List.nil_append, List.append_assoc, List.cons_append]

theorem IsChunkedBody.tail {chunk : Chunk α} {chunks : List (Chunk α)} {lastLine : List α}
    {trailers : List (List α)} {emptyLine : List α}
    (h : IsChunkedBody signs size isEmptyLine ⟨chunk :: chunks, lastLine, trailers, emptyLine⟩) :
    IsChunkedBody signs size isEmptyLine ⟨chunks, lastLine, trailers, emptyLine⟩ :=
  ⟨fun other hother ↦ h.chunk other (List.mem_cons_of_mem _ hother), h.lastLine_feed, h.lastLine,
    h.trailer⟩

/-- A body for one relation between lines and sizes is one for a wider relation. -/
theorem IsChunkedBody.mono {size' : List α → ℕ → Prop}
    (hsize : ∀ line count, size line count → size' line count) {body : ChunkedBody α}
    (h : IsChunkedBody signs size isEmptyLine body) :
    IsChunkedBody signs size' isEmptyLine body :=
  ⟨fun chunk hchunk ↦ ⟨(h.chunk chunk hchunk).feed, hsize _ _ (h.chunk chunk hchunk).size,
    (h.chunk chunk hchunk).data⟩, h.lastLine_feed, hsize _ _ h.lastLine, h.trailer⟩

variable [DecidableEq α]

/-- Of two bodies that begin the same stream, the lines up to the empty one are the same. -/
theorem IsTrailer.eq_of_append {trailers trailers' : List (List α)} {emptyLine emptyLine' : List α}
    (h : IsTrailer signs isEmptyLine trailers emptyLine)
    (h' : IsTrailer signs isEmptyLine trailers' emptyLine') {rest rest' : List α}
    (heq : linesText signs trailers ++ (emptyLine ++ signs.feed :: rest) =
      linesText signs trailers' ++ (emptyLine' ++ signs.feed :: rest')) :
    trailers = trailers' ∧ emptyLine = emptyLine' ∧ rest = rest' := by
  unfold linesText at heq
  induction trailers generalizing trailers' with
  | nil =>
    cases trailers' with
    | nil =>
      obtain ⟨hline, hrest⟩ := append_cons_inj_of_not_mem h.emptyLine_feed h'.emptyLine_feed heq
      exact ⟨rfl, hline, hrest⟩
    | cons line trailers' =>
      rw [List.flatMap_cons, List.append_assoc, List.append_assoc, List.singleton_append] at heq
      obtain ⟨hline, -⟩ := append_cons_inj_of_not_mem h.emptyLine_feed
        (h'.trailer_feed line List.mem_cons_self) heq
      exact absurd (hline ▸ h.emptyLine) (h'.trailer line List.mem_cons_self)
  | cons line trailers ih =>
    rw [List.flatMap_cons, List.append_assoc, List.append_assoc, List.singleton_append] at heq
    cases trailers' with
    | nil =>
      obtain ⟨hline, -⟩ := append_cons_inj_of_not_mem (h.trailer_feed line List.mem_cons_self)
        h'.emptyLine_feed heq
      exact absurd (hline ▸ h'.emptyLine) (h.trailer line List.mem_cons_self)
    | cons line' trailers' =>
      rw [List.flatMap_cons, List.append_assoc, List.append_assoc, List.singleton_append] at heq
      obtain ⟨rfl, hrest⟩ := append_cons_inj_of_not_mem (h.trailer_feed line List.mem_cons_self)
        (h'.trailer_feed line' List.mem_cons_self) heq
      obtain ⟨rfl, hempty⟩ := ih h.tail h'.tail hrest
      exact ⟨rfl, hempty⟩

/-- A stream begins with at most one body when a line has at most one size. -/
theorem IsChunkedBody.eq_of_append
    (hsize : ∀ line count count', signs.feed ∉ line → size line count → size line count' →
      count = count')
    {body body' : ChunkedBody α} (h : IsChunkedBody signs size isEmptyLine body)
    (h' : IsChunkedBody signs size isEmptyLine body') {rest rest' : List α}
    (heq : body.text signs ++ rest = body'.text signs ++ rest') : body = body' ∧ rest = rest' := by
  obtain ⟨chunks, lastLine, trailers, emptyLine⟩ := body
  obtain ⟨chunks', lastLine', trailers', emptyLine'⟩ := body'
  induction chunks generalizing chunks' with
  | nil =>
    rw [ChunkedBody.text_nil] at heq
    cases chunks' with
    | nil =>
      rw [ChunkedBody.text_nil] at heq
      obtain ⟨rfl, hlater⟩ := append_cons_inj_of_not_mem h.lastLine_feed h'.lastLine_feed heq
      obtain ⟨rfl, rfl, hrest⟩ := h.trailer.eq_of_append h'.trailer hlater
      exact ⟨rfl, hrest⟩
    | cons chunk chunks' =>
      rw [ChunkedBody.text_cons] at heq
      have hchunk := h'.chunk chunk List.mem_cons_self
      obtain ⟨rfl, -⟩ := append_cons_inj_of_not_mem h.lastLine_feed hchunk.feed heq
      have hzero := hsize _ _ _ h.lastLine_feed h.lastLine hchunk.size
      exact absurd (List.length_eq_zero_iff.mp hzero.symm) hchunk.data
  | cons chunk chunks ih =>
    rw [ChunkedBody.text_cons] at heq
    have hchunk := h.chunk chunk List.mem_cons_self
    cases chunks' with
    | nil =>
      rw [ChunkedBody.text_nil] at heq
      obtain ⟨hline, -⟩ := append_cons_inj_of_not_mem hchunk.feed h'.lastLine_feed heq
      have hzero := hsize _ _ _ h'.lastLine_feed h'.lastLine (hline ▸ hchunk.size)
      exact absurd (List.length_eq_zero_iff.mp hzero.symm) hchunk.data
    | cons chunk' chunks' =>
      rw [ChunkedBody.text_cons] at heq
      have hchunk' := h'.chunk chunk' List.mem_cons_self
      obtain ⟨hline, hlater⟩ := append_cons_inj_of_not_mem hchunk.feed hchunk'.feed heq
      have hlength := hsize _ _ _ hchunk.feed hchunk.size (hline ▸ hchunk'.size)
      obtain ⟨hdata, hclose⟩ := List.append_inj hlater hlength
      obtain ⟨hbody, hrest⟩ := ih h.tail chunks' h'.tail (List.append_cancel_left hclose)
      obtain ⟨line, data⟩ := chunk
      obtain ⟨line', data'⟩ := chunk'
      obtain rfl : line = line' := hline
      obtain rfl : data = data' := hdata
      obtain ⟨rfl, rfl, rfl, rfl⟩ := ChunkedBody.mk.inj hbody
      exact ⟨rfl, hrest⟩

end unique

end Mupnp.Foundation
