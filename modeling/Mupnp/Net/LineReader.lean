import Mupnp.Foundation.CellArray
import Mupnp.Net.Socket

/-!
# Reading lines into buffers

`mupnp_socket_readline` cell by cell: the loop that fills the buffer, its terminator, and the loop
that skips what does not fit. A stream is what the reads of one byte meet, a byte or a failure of
the socket, up to the end that the peer makes; a line of it goes on to its LF, to a failure or to
the end.

All accesses stay within the buffer and every read leaves the stream behind its line
(`exists_readLineBuffer`). `readLines_iff` says when all reads of a run give the cut lines: the loop
that skips does not report that a line has no LF. `readLineBuffer_eq_readLine` connects the buffer
to the string that `readLine` gives.
-/

set_option autoImplicit false
set_option relaxedAutoImplicit false

namespace Mupnp.Net

open Foundation CellArray Util

/-! ### The reader -/

/-- What a read of one byte meets. -/
inductive StreamEvent
  | byte (c : Char)
  | failure
  deriving DecidableEq, Repr

/-- What the reads of one byte meet one after the other; behind the last event is the end of the
stream. -/
abbrev ByteStream := List StreamEvent

/-- `mupnp_socket_read` of one byte: nothing for a result that is not positive. -/
def socketReadByte : ByteStream → Option Char × ByteStream
  | [] => (none, [])
  | .byte c :: later => (some c, later)
  | .failure :: later => (none, later)

/-- The state of `mupnp_socket_readline` when it returns: its result, nothing for `-1`, the buffer
and the stream that is left. -/
structure LineRead where
  readCnt : Option ℕ
  buffer : List Char
  left : ByteStream
  deriving DecidableEq, Repr

/-- The loop of `mupnp_socket_readline` that fills the buffer, with the number of turns that are
left. -/
def fillLine : ℕ → ByteStream → List Char → ℕ → Option LineRead
  | 0, stream, buffer, readCnt => some ⟨some readCnt, buffer, stream⟩
  | turns + 1, stream, buffer, readCnt =>
    match socketReadByte stream with
    | (none, later) => some ⟨none, buffer, later⟩
    | (some c, later) =>
      (store buffer readCnt c).bind fun stored ↦ (load stored readCnt).bind fun last ↦
        if last = '\n' then some ⟨some (readCnt + 1), stored, later⟩
        else fillLine turns later stored (readCnt + 1)

/-- The loop of `mupnp_socket_readline` that skips what does not fit the buffer. -/
def skipEvents : ByteStream → ByteStream
  | [] => []
  | .failure :: later => later
  | .byte c :: later => if c = '\n' then later else skipEvents later

/-- `mupnp_socket_readline` for a buffer of at least one cell, whose size is handed over with it;
the cell in front of the terminator is read, which is outside the buffer when nothing is stored. -/
def readLineBuffer (stream : ByteStream) (buffer : List Char) : Option LineRead :=
  (fillLine (buffer.length - 1) stream buffer 0).bind fun filled ↦
    match filled.readCnt with
    | none => some filled
    | some readCnt =>
      (store filled.buffer readCnt '\x00').bind fun stored ↦
        (if readCnt = 0 then none else load stored (readCnt - 1)).map fun last ↦
          ⟨some readCnt, stored, if last = '\n' then filled.left else skipEvents filled.left⟩

/-- Successive calls, each with a buffer of its own. -/
def readLines : ByteStream → List (List Char) → Option (List LineRead)
  | _, [] => some []
  | stream, buffer :: buffers =>
    (readLineBuffer stream buffer).bind fun read ↦
      (readLines read.left buffers).map (read :: ·)

/-! ### The lines of a stream -/

/-- A line without its LF, whether the LF was met, and the stream behind the line. -/
structure StreamLine where
  bytes : List Char
  isFinished : Bool
  rest : ByteStream
  deriving DecidableEq, Repr

/-- The first line of a stream. -/
def splitLine : ByteStream → StreamLine
  | [] => ⟨[], false, []⟩
  | .failure :: later => ⟨[], false, later⟩
  | .byte c :: later =>
    if c = '\n' then ⟨[], true, later⟩
    else { splitLine later with bytes := c :: (splitLine later).bytes }

/-- The first lines of a stream. -/
def streamLines : ℕ → ByteStream → List StreamLine
  | 0, _ => []
  | count + 1, stream => splitLine stream :: streamLines count (splitLine stream).rest

/-- The bytes of a finished line that a buffer has room for in front of a terminator. -/
def StreamLine.cut (line : StreamLine) (size : ℕ) : List Char :=
  (line.bytes ++ ['\n']).take (size - 1)

/-- What a read gives for a line: the bytes of the line cut to the buffer and terminated, their
number as the result, `-1` exactly for a line without LF, and the stream behind the line. -/
structure IsCutLine (line : StreamLine) (buffer : List Char) (read : LineRead) : Prop where
  left_eq : read.left = line.rest
  length_eq : read.buffer.length = buffer.length
  finished : line.isFinished = true → read.readCnt = some (line.cut buffer.length).length ∧
    ∃ behind, read.buffer = line.cut buffer.length ++ '\x00' :: behind
  unfinished : line.isFinished = false → read.readCnt = none

/-- A line whose end the reader sees: it has its LF, or it is shorter than the room of the
buffer. -/
def StreamLine.IsSeen (line : StreamLine) (size : ℕ) : Prop :=
  line.isFinished = true ∨ line.bytes.length < size - 1

instance (line : StreamLine) (size : ℕ) : Decidable (line.IsSeen size) :=
  inferInstanceAs (Decidable (_ ∨ _))

/-- All accesses of a run stay within the buffers, and every read gives the line of the stream that
it stands for. -/
def ReadsLines (stream : ByteStream) (buffers : List (List Char)) : Prop :=
  ∃ reads, readLines stream buffers = some reads ∧
    List.Forall₂ (fun asked read ↦ IsCutLine asked.1 asked.2 read)
      ((streamLines buffers.length stream).zip buffers) reads

/-! ### One line -/

section line

variable {stream later : ByteStream} {bytes front middle back buffer : List Char}

/-- A stream is its first line, then the LF or a read that gives nothing. -/
theorem exists_splitLine (stream : ByteStream) :
    ∃ later, '\n' ∉ (splitLine stream).bytes ∧
      stream = (splitLine stream).bytes.map .byte ++ later ∧
      ((splitLine stream).isFinished = true ∧ later = .byte '\n' :: (splitLine stream).rest ∨
        (splitLine stream).isFinished = false ∧
          socketReadByte later = (none, (splitLine stream).rest)) := by
  induction stream with
  | nil => exact ⟨[], List.not_mem_nil, rfl, Or.inr ⟨rfl, rfl⟩⟩
  | cons event stream ih =>
    cases event with
    | failure => exact ⟨.failure :: stream, List.not_mem_nil, rfl, Or.inr ⟨rfl, rfl⟩⟩
    | byte c =>
      by_cases hc : c = '\n'
      · subst hc
        exact ⟨.byte '\n' :: stream, List.not_mem_nil, rfl, Or.inl ⟨rfl, rfl⟩⟩
      · obtain ⟨later, hmem, hstream, hend⟩ := ih
        rw [splitLine, if_neg hc]
        refine ⟨later, ?_, congrArg (StreamEvent.byte c :: ·) hstream, hend⟩
        exact List.not_mem_cons_of_ne_of_not_mem (Ne.symm hc) hmem

theorem skipEvents_append (hbytes : '\n' ∉ bytes) (stream : ByteStream) :
    skipEvents (bytes.map .byte ++ stream) = skipEvents stream := by
  induction bytes with
  | nil => rfl
  | cons c bytes ih =>
    rw [List.mem_cons, not_or] at hbytes
    rw [List.map_cons, List.cons_append, skipEvents, if_neg (Ne.symm hbytes.1)]
    exact ih hbytes.2

theorem skipEvents_of_socketReadByte (h : socketReadByte stream = (none, later)) :
    skipEvents stream = later := by
  cases stream with
  | nil => exact (Prod.mk.inj h).2
  | cons event stream =>
    cases event with
    | failure => exact (Prod.mk.inj h).2
    | byte c => exact absurd (Prod.mk.inj h).1 (Option.some_ne_none c)

/-- The skip loop leaves the stream behind the line, whether the line has its LF or not. -/
theorem skipEvents_eq_rest (stream : ByteStream) : skipEvents stream = (splitLine stream).rest := by
  obtain ⟨later, hmem, hstream, hend⟩ := exists_splitLine stream
  have hskip : skipEvents stream = skipEvents later := by
    conv_lhs => rw [hstream]
    exact skipEvents_append hmem later
  rw [hskip]
  rcases hend with ⟨-, hlater⟩ | ⟨-, hlater⟩
  · rw [hlater, skipEvents, if_pos rfl]
  · exact skipEvents_of_socketReadByte hlater

/-- One turn of the fill loop that meets a byte. -/
theorem fillLine_byte (turns : ℕ) (c old : Char) (stream : ByteStream) (front back : List Char) :
    fillLine (turns + 1) (.byte c :: stream) (front ++ old :: back) front.length =
      if c = '\n' then some ⟨some (front.length + 1), front ++ c :: back, stream⟩
      else fillLine turns stream (front ++ c :: back) (front.length + 1) := by
  have hstore : store (front ++ old :: back) front.length c = some (front ++ c :: back) :=
    store_append rfl
  have hload : load (front ++ c :: back) front.length = some c := load_append rfl
  rw [fillLine]
  simp only [socketReadByte, hstore, Option.bind_some, hload]

/-- The fill loop stores bytes without LF one behind the other. -/
theorem fillLine_append (hbytes : '\n' ∉ bytes) (hlength : middle.length = bytes.length)
    (turns : ℕ) (front : List Char) :
    fillLine (bytes.length + turns) (bytes.map .byte ++ stream) (front ++ (middle ++ back))
        front.length =
      fillLine turns stream (front ++ (bytes ++ back)) (front.length + bytes.length) := by
  induction bytes generalizing front middle with
  | nil =>
    obtain rfl := List.eq_nil_of_length_eq_zero hlength
    rw [List.length_nil, Nat.zero_add, Nat.add_zero]
    rfl
  | cons c bytes ih =>
    rw [List.mem_cons, not_or] at hbytes
    obtain ⟨old, middle, rfl⟩ := List.exists_cons_of_length_eq_add_one hlength
    have hfill := ih hbytes.2 (Nat.succ.inj hlength) (front ++ [c])
    rw [List.length_append, List.length_singleton, List.append_assoc, List.append_assoc] at hfill
    have hturns : (c :: bytes).length + turns = bytes.length + turns + 1 := by
      rw [List.length_cons]
      omega
    rw [hturns, List.map_cons, List.cons_append, List.cons_append, fillLine_byte,
      if_neg (Ne.symm hbytes.1)]
    refine hfill.trans ?_
    rw [List.length_cons, Nat.add_assoc, Nat.add_comm 1]
    rfl

/-- The cells of a buffer, cut behind the first ones. -/
theorem exists_cells {count : ℕ} (h : count ≤ buffer.length) :
    ∃ middle back, buffer = middle ++ back ∧ middle.length = count ∧
      back.length = buffer.length - count :=
  ⟨buffer.take count, buffer.drop count, (List.take_append_drop count buffer).symm,
    List.length_take_of_le h, List.length_drop⟩

/-- The fill loop of a call stores bytes without LF in front, as far as the buffer has room. -/
theorem exists_fillLine (hbytes : '\n' ∉ bytes) {room : ℕ}
    (hroom : bytes.length + room = buffer.length) (hpos : 0 < room) (stream : ByteStream) :
    ∃ back : List Char, back.length = room ∧
      fillLine (buffer.length - 1) (bytes.map .byte ++ stream) buffer 0 =
        fillLine (room - 1) stream (bytes ++ back) bytes.length := by
  obtain ⟨middle, back, hbuffer, hmiddle, hback⟩ := exists_cells (Nat.le.intro hroom)
  have hfill : fillLine (bytes.length + (room - 1)) (bytes.map .byte ++ stream) buffer 0 =
      fillLine (room - 1) stream (bytes ++ back) bytes.length := by
    rw [hbuffer]
    refine (fillLine_append hbytes hmiddle (room - 1) []).trans ?_
    rw [List.length_nil, Nat.zero_add, List.nil_append]
  have hturns : buffer.length - 1 = bytes.length + (room - 1) := by omega
  exact ⟨back, by omega, by rw [hturns, hfill]⟩

/-- What the call does after the fill loop has stored a last byte with a cell behind it. -/
theorem readLineBuffer_of_fillLine {text : List Char} {last old : Char}
    (hfill : fillLine (buffer.length - 1) stream buffer 0 =
      some ⟨some (text.length + 1), text ++ last :: old :: back, later⟩) :
    readLineBuffer stream buffer = some ⟨some (text.length + 1), text ++ last :: '\x00' :: back,
      if last = '\n' then later else skipEvents later⟩ := by
  have hcells (c : Char) : text ++ last :: c :: back = text ++ [last] ++ c :: back := by
    rw [List.append_assoc, List.singleton_append]
  have hstore : store (text ++ last :: old :: back) (text.length + 1) '\x00' =
      some (text ++ last :: '\x00' :: back) := by
    rw [hcells, hcells]
    exact store_append (by rw [List.length_append, List.length_singleton])
  have hload : load (text ++ last :: '\x00' :: back) text.length = some last := load_append rfl
  rw [readLineBuffer, hfill, Option.bind_some]
  simp only [hstore, Option.bind_some, if_neg (Nat.succ_ne_zero _), Nat.add_sub_cancel, hload,
    Option.map_some]

/-- A line that fits the buffer with its LF and a terminator. -/
theorem readLineBuffer_of_lt (hbytes : '\n' ∉ bytes) (hlt : bytes.length + 1 < buffer.length)
    (later : ByteStream) :
    ∃ behind, readLineBuffer (bytes.map .byte ++ .byte '\n' :: later) buffer =
        some ⟨some (bytes.length + 1), bytes ++ '\n' :: '\x00' :: behind, later⟩ ∧
      (bytes ++ '\n' :: '\x00' :: behind).length = buffer.length := by
  obtain ⟨behind, hbehind⟩ := Nat.exists_eq_add_of_lt hlt
  have hroom : bytes.length + (behind + 2) = buffer.length := by omega
  obtain ⟨back, hback, hfill⟩ :=
    exists_fillLine hbytes hroom (Nat.succ_pos _) (.byte '\n' :: later)
  obtain ⟨old, back, rfl⟩ := List.exists_cons_of_length_eq_add_one hback
  obtain ⟨next, back, rfl⟩ := List.exists_cons_of_length_eq_add_one (Nat.succ.inj hback)
  rw [Nat.add_sub_cancel (n := behind + 1) (m := 1), fillLine_byte, if_pos rfl] at hfill
  refine ⟨back, (readLineBuffer_of_fillLine hfill).trans (by rw [if_pos rfl]), ?_⟩
  rw [← hroom, ← hback, List.length_append]
  rfl

/-- Bytes of a line that fill the buffer up to its terminator. -/
theorem readLineBuffer_of_full (hbytes : '\n' ∉ bytes) (hne : bytes ≠ [])
    (hfull : bytes.length + 1 = buffer.length) (stream : ByteStream) :
    readLineBuffer (bytes.map .byte ++ stream) buffer =
      some ⟨some bytes.length, bytes ++ ['\x00'], skipEvents stream⟩ := by
  obtain ⟨text, last, hconcat⟩ := (List.eq_nil_or_concat bytes).resolve_left hne
  rw [List.concat_eq_append] at hconcat
  subst hconcat
  have hlast : last ≠ '\n' := fun h ↦ hbytes (h ▸ List.mem_append_right text List.mem_cons_self)
  obtain ⟨back, hback, hfill⟩ := exists_fillLine hbytes hfull Nat.one_pos stream
  obtain ⟨old, rfl⟩ := List.length_eq_one_iff.mp hback
  rw [Nat.sub_self, fillLine, List.append_assoc, List.singleton_append, List.length_append,
    List.length_singleton] at hfill
  rw [readLineBuffer_of_fillLine hfill, if_neg hlast, List.append_assoc, List.singleton_append,
    List.length_append, List.length_singleton]

/-- A line without LF that leaves room in the buffer. -/
theorem readLineBuffer_of_none (hbytes : '\n' ∉ bytes) (hlt : bytes.length + 1 < buffer.length)
    (h : socketReadByte stream = (none, later)) :
    ∃ after, readLineBuffer (bytes.map .byte ++ stream) buffer = some ⟨none, after, later⟩ ∧
      after.length = buffer.length := by
  obtain ⟨behind, hbehind⟩ := Nat.exists_eq_add_of_lt hlt
  have hroom : bytes.length + (behind + 2) = buffer.length := by omega
  obtain ⟨back, hback, hfill⟩ := exists_fillLine hbytes hroom (Nat.succ_pos _) stream
  have hend : fillLine (behind + 1) stream (bytes ++ back) bytes.length =
      some ⟨none, bytes ++ back, later⟩ := by
    rw [fillLine, h]
  refine ⟨bytes ++ back, ?_, by rw [List.length_append, hback, hroom]⟩
  rw [readLineBuffer, hfill, Nat.add_sub_cancel (n := behind + 1) (m := 1), hend]
  rfl

/-- A line that is longer than the room of the buffer is cut, and what the result is does not depend
on how the line ends. -/
theorem readLineBuffer_of_le (hsize : 2 ≤ buffer.length)
    (hle : buffer.length - 1 ≤ (splitLine stream).bytes.length) :
    readLineBuffer stream buffer = some ⟨some (buffer.length - 1),
      (splitLine stream).bytes.take (buffer.length - 1) ++ ['\x00'], (splitLine stream).rest⟩ := by
  obtain ⟨later, hmem, hstream, -⟩ := exists_splitLine stream
  have htake : ((splitLine stream).bytes.take (buffer.length - 1)).length = buffer.length - 1 :=
    List.length_take_of_le hle
  have hne : (splitLine stream).bytes.take (buffer.length - 1) ≠ [] := by
    intro hnil
    rw [hnil, List.length_nil] at htake
    omega
  have hcut : stream = ((splitLine stream).bytes.take (buffer.length - 1)).map .byte ++
      (((splitLine stream).bytes.drop (buffer.length - 1)).map .byte ++ later) := by
    rw [← List.append_assoc, ← List.map_append, List.take_append_drop]
    exact hstream
  have hfull : ((splitLine stream).bytes.take (buffer.length - 1)).length + 1 = buffer.length := by
    omega
  have hread := readLineBuffer_of_full (fun h ↦ hmem (List.mem_of_mem_take h)) hne hfull
    (((splitLine stream).bytes.drop (buffer.length - 1)).map .byte ++ later)
  have hskip : skipEvents (((splitLine stream).bytes.drop (buffer.length - 1)).map .byte ++ later) =
      (splitLine stream).rest := by
    rw [skipEvents_append fun h ↦ hmem (List.mem_of_mem_drop h), ← skipEvents_eq_rest stream]
    conv_rhs => rw [hstream]
    exact (skipEvents_append hmem later).symm
  rw [← hcut, hskip, htake] at hread
  exact hread

/-- A finished line is read as the line cut to the buffer. -/
theorem exists_readLineBuffer_of_finished (hsize : 2 ≤ buffer.length)
    (h : (splitLine stream).isFinished = true) :
    ∃ read, readLineBuffer stream buffer = some read ∧
      IsCutLine (splitLine stream) buffer read := by
  by_cases hlt : (splitLine stream).bytes.length + 1 < buffer.length
  · obtain ⟨later, hmem, hstream, hend⟩ := exists_splitLine stream
    have hlater : later = .byte '\n' :: (splitLine stream).rest :=
      hend.elim And.right fun hnot ↦ absurd (h.symm.trans hnot.1) (by decide)
    obtain ⟨behind, hread, hlength⟩ := readLineBuffer_of_lt hmem hlt (splitLine stream).rest
    rw [← hlater, ← hstream] at hread
    have hcut : (splitLine stream).cut buffer.length = (splitLine stream).bytes ++ ['\n'] :=
      List.take_of_length_le (by rw [List.length_append, List.length_singleton]; omega)
    refine ⟨_, hread, rfl, hlength, fun _ ↦ ?_, fun hnot ↦ absurd (h.symm.trans hnot) (by decide)⟩
    rw [hcut, List.length_append, List.length_singleton]
    exact ⟨rfl, behind, by rw [List.append_assoc, List.singleton_append]⟩
  · have hle : buffer.length - 1 ≤ (splitLine stream).bytes.length := by omega
    have hcut : (splitLine stream).cut buffer.length =
        (splitLine stream).bytes.take (buffer.length - 1) := List.take_append_of_le_length hle
    have hlength := List.length_take_of_le hle
    refine ⟨_, readLineBuffer_of_le hsize hle, rfl, ?_, fun _ ↦ ?_,
      fun hnot ↦ absurd (h.symm.trans hnot) (by decide)⟩
    · rw [List.length_append, hlength, List.length_singleton]
      omega
    · rw [hcut, hlength]
      exact ⟨rfl, [], rfl⟩

/-- A line without LF is reported exactly when it leaves room in the buffer. -/
theorem exists_readLineBuffer_of_unfinished (hsize : 2 ≤ buffer.length)
    (h : (splitLine stream).isFinished = false) :
    ∃ read, readLineBuffer stream buffer = some read ∧ read.left = (splitLine stream).rest ∧
      read.buffer.length = buffer.length ∧
      (read.readCnt = none ↔ (splitLine stream).bytes.length < buffer.length - 1) := by
  by_cases hlt : (splitLine stream).bytes.length + 1 < buffer.length
  · obtain ⟨later, hmem, hstream, hend⟩ := exists_splitLine stream
    have hlater : socketReadByte later = (none, (splitLine stream).rest) :=
      hend.elim (fun hnot ↦ absurd (h.symm.trans hnot.1) (by decide)) And.right
    obtain ⟨after, hread, hlength⟩ := readLineBuffer_of_none hmem hlt hlater
    rw [← hstream] at hread
    exact ⟨_, hread, rfl, hlength, fun _ ↦ by omega, fun _ ↦ rfl⟩
  · have hle : buffer.length - 1 ≤ (splitLine stream).bytes.length := by omega
    refine ⟨_, readLineBuffer_of_le hsize hle, rfl, ?_, ?_⟩
    · rw [List.length_append, List.length_take_of_le hle, List.length_singleton]
      omega
    · exact iff_of_false (Option.some_ne_none _) (by omega)

/-- One call stays within its buffer and leaves the stream behind its line, and gives the cut line
when the reader sees how the line ends. -/
theorem exists_readLineBuffer (hsize : 2 ≤ buffer.length) (stream : ByteStream) :
    ∃ read, readLineBuffer stream buffer = some read ∧ read.left = (splitLine stream).rest ∧
      (IsCutLine (splitLine stream) buffer read ↔ (splitLine stream).IsSeen buffer.length) := by
  cases h : (splitLine stream).isFinished with
  | true =>
    obtain ⟨read, hread, hcut⟩ := exists_readLineBuffer_of_finished hsize h
    exact ⟨read, hread, hcut.left_eq, iff_of_true hcut (Or.inl h)⟩
  | false =>
    obtain ⟨read, hread, hleft, hlength, hnone⟩ := exists_readLineBuffer_of_unfinished hsize h
    have hnot : (splitLine stream).isFinished ≠ true := fun htrue ↦ by cases h.symm.trans htrue
    refine ⟨read, hread, hleft, fun hcut ↦ Or.inr (hnone.mp (hcut.unfinished h)), fun hseen ↦ ?_⟩
    exact ⟨hleft, hlength, fun htrue ↦ absurd htrue hnot,
      fun _ ↦ hnone.mpr (hseen.resolve_left hnot)⟩

end line

/-! ### Runs -/

/-- In every run all accesses stay within the buffers, and all reads give the cut lines of the
stream exactly when the reader sees the end of each of these lines. -/
theorem readLines_iff (stream : ByteStream) (buffers : List (List Char))
    (hsize : ∀ buffer ∈ buffers, 2 ≤ buffer.length) :
    ReadsLines stream buffers ↔
      ∀ asked ∈ (streamLines buffers.length stream).zip buffers, asked.1.IsSeen asked.2.length := by
  induction buffers generalizing stream with
  | nil =>
    refine iff_of_true ⟨[], rfl, List.Forall₂.nil⟩ fun asked hmem ↦ ?_
    cases hmem
  | cons buffer buffers ih =>
    rw [List.forall_mem_cons] at hsize
    obtain ⟨read, hread, hleft, hcut⟩ := exists_readLineBuffer hsize.1 stream
    have hruns := ih (splitLine stream).rest hsize.2
    rw [List.length_cons, streamLines, List.zip_cons_cons, List.forall_mem_cons, ← hruns, ← hcut]
    have hreads : readLines stream (buffer :: buffers) =
        (readLines (splitLine stream).rest buffers).map (read :: ·) := by
      rw [readLines, hread, Option.bind_some, hleft]
    constructor
    · rintro ⟨reads, hsome, hall⟩
      rw [hreads] at hsome
      obtain ⟨tail, htail, rfl⟩ := Option.map_eq_some_iff.mp hsome
      obtain ⟨hfirst, hrest⟩ := List.forall₂_cons.mp hall
      exact ⟨hfirst, tail, htail, hrest⟩
    · rintro ⟨hfirst, tail, htail, hrest⟩
      exact ⟨read :: tail, by rw [hreads, htail, Option.map_some], List.Forall₂.cons hfirst hrest⟩

/-- A line that fits, one that is cut, an empty one and one without LF that leaves room. -/
theorem readLines_lines :
    ReadsLines ("ab\ncdefg\n\nh".toList.map .byte)
      [List.replicate 8 ' ', List.replicate 3 ' ', List.replicate 2 ' ', List.replicate 4 ' '] :=
  (readLines_iff _ _ (by decide)).mpr (by decide)

/-- A line without LF that is longer than the buffer is given as if it was cut. -/
theorem not_readLines : ¬ ReadsLines ("abcdef".toList.map .byte) [List.replicate 3 ' '] := by
  rintro ⟨reads, hreads, hall⟩
  have hread : readLines ("abcdef".toList.map .byte) [List.replicate 3 ' '] =
      some [⟨some 2, "ab\x00".toList, []⟩] := by decide
  rw [hread] at hreads
  obtain rfl := Option.some.inj hreads
  obtain ⟨hcut, -⟩ := List.forall₂_cons.mp hall
  exact absurd (hcut.unfinished (by decide)) (Option.some_ne_none _)

/-! ### The string that is read -/

section string

variable {sock : Socket} {buffer : List Char}

/-- The loops that fill the buffer and the string meet the same bytes. -/
theorem exists_fillLine_content (room : ℕ) (sock : Socket) (front back : List Char)
    (hroom : room ≤ back.length) :
    ∃ filled, fillLine room (sock.content.map .byte) (front ++ back) front.length = some filled ∧
      filled.left = (readLineLoop room sock).2.content.map .byte ∧
      filled.readCnt = (readLineLoop room sock).1.map (front.length + ·.length) ∧
      ∀ line ∈ (readLineLoop room sock).1, ∃ behind, filled.buffer = front ++ (line ++ behind) ∧
        line.length + behind.length = back.length := by
  induction room generalizing sock front back with
  | zero =>
    refine ⟨_, rfl, rfl, rfl, fun line hline ↦ ⟨back, ?_, ?_⟩⟩
    · rw [← Option.some.inj hline]
      rfl
    · rw [← Option.some.inj hline]
      exact Nat.zero_add _
  | succ room ih =>
    obtain ⟨old, back, rfl⟩ : ∃ old tail, back = old :: tail :=
      List.exists_cons_of_length_pos (Nat.lt_of_lt_of_le (Nat.succ_pos room) hroom)
    cases hcontent : sock.content with
    | nil =>
      obtain ⟨hread, hrest⟩ := SegmentedStream.receive_eq_nil hcontent 1
      have hend : socketRead sock 1 = ([], (sock.receive 1).2) := by
        rw [socketRead, if_neg (by decide), ← hread]
      have hloop : readLineLoop (room + 1) sock = (none, (sock.receive 1).2) := by
        rw [readLineLoop, hend]
      rw [hloop]
      exact ⟨_, rfl, by rw [hrest]; rfl, rfl, fun line hline ↦ by cases hline⟩
    | cons c rest =>
      obtain ⟨later, hread, hrest⟩ := socketRead_one hcontent
      rw [List.map_cons, fillLine_byte]
      by_cases hc : c = '\n'
      · have hloop : readLineLoop (room + 1) sock = (some [c], later) := by
          rw [readLineLoop, hread]
          exact if_pos hc
        rw [hloop, if_pos hc]
        refine ⟨_, rfl, by rw [hrest], rfl, fun line hline ↦ ⟨back, ?_, ?_⟩⟩
        · rw [← Option.some.inj hline]
          rfl
        · rw [← Option.some.inj hline, List.length_singleton, List.length_cons, Nat.add_comm]
      · have hloop : readLineLoop (room + 1) sock =
            ((readLineLoop room later).1.map (c :: ·), (readLineLoop room later).2) := by
          rw [readLineLoop, hread]
          exact if_neg hc
        obtain ⟨filled, hfill, hleft, hcnt, hbuffer⟩ :=
          ih later (front ++ [c]) back (Nat.le_of_succ_le_succ hroom)
        rw [hrest, List.append_assoc, List.singleton_append, List.length_append,
          List.length_singleton] at hfill
        rw [hloop, if_neg hc]
        refine ⟨filled, hfill, hleft, ?_, fun line hline ↦ ?_⟩
        · rw [hcnt, Option.map_map]
          refine congrArg (Option.map · _) (funext fun line ↦ ?_)
          rw [Function.comp_apply, List.length_append, List.length_singleton, List.length_cons]
          omega
        · obtain ⟨tail, htail, rfl⟩ := Option.map_eq_some_iff.mp hline
          obtain ⟨behind, hcells, hlength⟩ := hbuffer tail htail
          refine ⟨behind, by rw [hcells, List.append_assoc]; rfl, ?_⟩
          rw [List.length_cons, List.length_cons, ← hlength]
          omega

theorem skipEvents_content {bound : ℕ} (hbound : sock.content.length ≤ bound) :
    skipEvents (sock.content.map .byte) = (skipLine bound sock).content.map .byte := by
  induction bound generalizing sock with
  | zero =>
    rw [skipLine, List.eq_nil_of_length_eq_zero (Nat.le_zero.mp hbound)]
    rfl
  | succ bound ih =>
    cases hcontent : sock.content with
    | nil =>
      obtain ⟨hread, hrest⟩ := SegmentedStream.receive_eq_nil hcontent 1
      have hend : socketRead sock 1 = ([], (sock.receive 1).2) := by
        rw [socketRead, if_neg (by decide), ← hread]
      rw [skipLine, hend]
      simp only [hrest]
      rfl
    | cons c rest =>
      rw [hcontent, List.length_cons] at hbound
      obtain ⟨later, hread, hrest⟩ := socketRead_one hcontent
      rw [skipLine, hread, List.map_cons, skipEvents]
      by_cases hc : c = '\n'
      · simp only [if_pos hc, hrest]
      · have hlater : later.content.length ≤ bound := by
          rw [hrest]
          omega
        simp only [if_neg hc, ← ih hlater, hrest]

theorem length_readLineLoop_le {room : ℕ} {line : CString}
    (h : (readLineLoop room sock).1 = some line) : line.length ≤ room := by
  induction room generalizing sock line with
  | zero =>
    rw [← Option.some.inj h]
    exact Nat.le_refl 0
  | succ room ih =>
    rw [readLineLoop] at h
    rcases hread : socketRead sock 1 with ⟨_ | ⟨c, read⟩, later⟩
    · rw [hread] at h
      cases h
    · rw [hread] at h
      by_cases hc : c = '\n'
      · simp only [if_pos hc] at h
        rw [← Option.some.inj h, List.length_singleton]
        exact Nat.succ_pos room
      · simp only [if_neg hc] at h
        obtain ⟨tail, htail, rfl⟩ := Option.map_eq_some_iff.mp h
        exact Nat.succ_le_succ (ih htail)

theorem readLineLoop_ne_nil (room : ℕ) (sock : Socket) :
    (readLineLoop (room + 1) sock).1 ≠ some [] := by
  rw [readLineLoop]
  rcases socketRead sock 1 with ⟨_ | ⟨c, read⟩, later⟩
  · exact (Option.some_ne_none _).symm
  · by_cases hc : c = '\n'
    · simp [hc]
    · simp [hc]

/-- The buffer holds the string that `readLine` gives, with its length as the result and its
terminator behind it. -/
theorem readLineBuffer_eq_readLine (hsize : 2 ≤ buffer.length) (sock : Socket) :
    ∃ read, readLineBuffer (sock.content.map .byte) buffer = some read ∧
      read.left = (readLine sock buffer.length).2.content.map .byte ∧
      read.readCnt = (readLine sock buffer.length).1.map List.length ∧
      ∀ line ∈ (readLine sock buffer.length).1,
        ∃ behind, read.buffer = line ++ '\x00' :: behind := by
  obtain ⟨room, hroom⟩ := Nat.exists_eq_add_of_le' hsize
  have hturns : buffer.length - 1 = room + 1 := by omega
  obtain ⟨⟨readCnt, stored, left⟩, hfill, hleft, hcnt, hbuffer⟩ :=
    exists_fillLine_content (buffer.length - 1) sock [] buffer (Nat.sub_le _ _)
  rw [List.nil_append, List.length_nil] at hfill
  have hne := readLineLoop_ne_nil room sock
  rw [← hturns] at hne
  have hshort (line : CString) (h : (readLineLoop (buffer.length - 1) sock).1 = some line) :
      line.length ≤ buffer.length - 1 := length_readLineLoop_le h
  rcases hloop : readLineLoop (buffer.length - 1) sock with ⟨result, later⟩
  rw [hloop] at hleft hcnt hbuffer hshort hne
  cases result with
  | none =>
    have hread : readLine sock buffer.length = (none, later) := by rw [readLine, hloop]
    obtain rfl : readCnt = none := hcnt
    rw [readLineBuffer, hfill, Option.bind_some, hread]
    exact ⟨_, rfl, hleft, rfl, fun line hline ↦ by cases hline⟩
  | some line =>
    obtain ⟨behind, hcells, hlength⟩ := hbuffer line rfl
    have hle := hshort line rfl
    obtain ⟨text, last, hconcat⟩ := (List.eq_nil_or_concat line).resolve_left
      fun hnil ↦ hne (congrArg some hnil)
    rw [List.concat_eq_append] at hconcat
    subst hconcat
    obtain ⟨old, behind, rfl⟩ : ∃ old tail, behind = old :: tail :=
      List.exists_cons_of_length_pos (by omega)
    have hstate : fillLine (buffer.length - 1) (sock.content.map .byte) buffer 0 =
        some ⟨some (text.length + 1), text ++ last :: old :: behind, later.content.map .byte⟩ := by
      obtain rfl : left = later.content.map .byte := hleft
      obtain rfl : stored = text ++ last :: old :: behind := by
        rw [List.nil_append, List.append_assoc] at hcells
        exact hcells
      obtain rfl : readCnt = some (text.length + 1) := by
        rw [Option.map_some, List.length_append, List.length_nil, Nat.zero_add] at hcnt
        exact hcnt
      exact hfill
    have hread : readLine sock buffer.length = (some (text ++ [last]),
        if last = '\n' then later else skipLine later.content.length later) := by
      rw [readLine, hloop]
      simp only [List.getLast?_concat, Option.some.injEq]
      split_ifs <;> rfl
    rw [hread]
    refine ⟨_, readLineBuffer_of_fillLine hstate, ?_, ?_, fun line hsome ↦ ⟨behind, ?_⟩⟩
    · by_cases hline : last = '\n'
      · simp only [if_pos hline]
      · simp only [if_neg hline]
        exact skipEvents_content (Nat.le_refl _)
    · rw [Option.map_some, List.length_append, List.length_singleton]
    · rw [← Option.some.inj hsome, List.append_assoc, List.singleton_append]

end string

end Mupnp.Net
