import Mupnp.Foundation.SegmentedStream
import Mupnp.Util.StringFunction

/-!
# Reading from a socket

The part of `net/socket.c` that reads: `mupnp_socket_read` is `recv`, which returns at least one
byte while the peer has sent something, and nothing at the end; `mupnp_socket_readline` reads a
line byte by byte into a buffer. A byte of the stream is a character, as it is in a C string.

`readLine_append` says that a line that fits the buffer is read whole, however the stream is cut.
-/

set_option autoImplicit false
set_option relaxedAutoImplicit false

namespace Mupnp.Net

open Foundation Util

/-- What a peer has sent and is not read yet. -/
abbrev Socket := SegmentedStream Char

/-- `mupnp_socket_read`. -/
def socketRead (sock : Socket) (bufferLen : ℕ) : List Char × Socket :=
  if bufferLen = 0 then ([], sock) else sock.receive bufferLen

/-- The loop of `mupnp_socket_readline` that fills the buffer: nothing when the stream ends before
the line does. -/
def readLineLoop : ℕ → Socket → Option CString × Socket
  | 0, sock => (some [], sock)
  | room + 1, sock =>
    match socketRead sock 1 with
    | ([], later) => (none, later)
    | (c :: _, later) =>
      if c = '\n' then (some [c], later)
      else ((readLineLoop room later).1.map (c :: ·), (readLineLoop room later).2)

/-- The loop of `mupnp_socket_readline` that skips what does not fit the buffer; `bound` bounds the
number of bytes that are left. -/
def skipLine : ℕ → Socket → Socket
  | 0, sock => sock
  | bound + 1, sock =>
    match socketRead sock 1 with
    | ([], later) => later
    | (c :: _, later) => if c = '\n' then later else skipLine bound later

/-- `mupnp_socket_readline`: the bytes that are stored in a buffer of the given size, or nothing
for the result `-1`. -/
def readLine (sock : Socket) (bufferLen : ℕ) : Option CString × Socket :=
  match readLineLoop (bufferLen - 1) sock with
  | (none, later) => (none, later)
  | (some line, later) =>
    if line.getLast? = some '\n' then (some line, later)
    else (some line, skipLine later.content.length later)

section reading

variable {sock : Socket}

theorem socketRead_one {c : Char} {rest : List Char} (h : sock.content = c :: rest) :
    ∃ later : Socket, socketRead sock 1 = ([c], later) ∧ later.content = rest := by
  obtain ⟨hread, hrest⟩ := SegmentedStream.receive_one h
  refine ⟨(sock.receive 1).2, ?_, hrest⟩
  rw [socketRead, if_neg (by decide), ← hread]

theorem socketRead_spec {bufferLen : ℕ} (h : sock.content ≠ []) (hlen : 0 < bufferLen) :
    ∃ (read : List Char) (later : Socket), socketRead sock bufferLen = (read, later) ∧ read ≠ [] ∧
      read.length ≤ bufferLen ∧ read ++ later.content = sock.content := by
  refine ⟨(sock.receive bufferLen).1, (sock.receive bufferLen).2, ?_,
    SegmentedStream.receive_ne_nil h hlen, SegmentedStream.length_receive_le sock bufferLen,
    SegmentedStream.content_receive sock bufferLen⟩
  rw [socketRead, if_neg (by omega)]

/-- The loop stores as much of a line as the buffer has room for. -/
theorem readLineLoop_eq_take {line rest : List Char} (hline : '\n' ∉ line) (room : ℕ)
    (h : sock.content = line ++ '\n' :: rest) :
    ∃ later : Socket, readLineLoop room sock = (some ((line ++ ['\n']).take room), later) ∧
      later.content = (line ++ ['\n']).drop room ++ rest := by
  induction room generalizing line sock with
  | zero => exact ⟨sock, rfl, by simpa using h⟩
  | succ room ih =>
    cases line with
    | nil =>
      obtain ⟨later, hread, hrest⟩ := socketRead_one h
      refine ⟨later, ?_, by simpa using hrest⟩
      rw [readLineLoop, hread]
      simp
    | cons c line =>
      rw [List.mem_cons, not_or] at hline
      obtain ⟨hc, hline⟩ := hline
      obtain ⟨next, hread, hnext⟩ := socketRead_one h
      obtain ⟨later, hloop, hrest⟩ := ih hline hnext
      refine ⟨later, ?_, hrest⟩
      rw [readLineLoop, hread]
      simp only [if_neg (Ne.symm hc), hloop, Option.map_some, List.cons_append,
        List.take_succ_cons]

theorem skipLine_append {line rest : List Char} (hline : '\n' ∉ line) {bound : ℕ}
    (hbound : line.length < bound) (h : sock.content = line ++ '\n' :: rest) :
    (skipLine bound sock).content = rest := by
  induction line generalizing bound sock with
  | nil =>
    obtain ⟨bound, rfl⟩ := Nat.exists_eq_succ_of_ne_zero (by omega : bound ≠ 0)
    obtain ⟨later, hread, hrest⟩ := socketRead_one h
    rw [skipLine, hread]
    exact hrest
  | cons c line ih =>
    rw [List.mem_cons, not_or] at hline
    obtain ⟨hc, hline⟩ := hline
    rw [List.length_cons] at hbound
    obtain ⟨bound, rfl⟩ := Nat.exists_eq_succ_of_ne_zero (by omega : bound ≠ 0)
    obtain ⟨next, hread, hnext⟩ := socketRead_one h
    rw [skipLine, hread]
    simp only [if_neg (Ne.symm hc)]
    exact ih hline (by omega) hnext

/-- A line is stored up to the size of the buffer, and left behind whole. -/
theorem readLine_eq_take {line rest : List Char} (hline : '\n' ∉ line) (bufferLen : ℕ)
    (h : sock.content = line ++ '\n' :: rest) :
    ∃ later : Socket,
      readLine sock bufferLen = (some ((line ++ ['\n']).take (bufferLen - 1)), later) ∧
        later.content = rest := by
  obtain ⟨later, hloop, hrest⟩ := readLineLoop_eq_take hline (bufferLen - 1) h
  unfold readLine
  simp only [hloop]
  by_cases hfits : line.length < bufferLen - 1
  · have htake : (line ++ ['\n']).take (bufferLen - 1) = line ++ ['\n'] :=
      List.take_of_length_le (by simp; omega)
    have hdrop : (line ++ ['\n']).drop (bufferLen - 1) = [] :=
      List.drop_eq_nil_of_le (by simp; omega)
    have hlast : (line ++ ['\n']).getLast? = some '\n' := by simp
    rw [htake, if_pos hlast]
    exact ⟨later, rfl, by rw [hrest, hdrop, List.nil_append]⟩
  · have htake : (line ++ ['\n']).take (bufferLen - 1) = line.take (bufferLen - 1) :=
      List.take_append_of_le_length (by omega)
    have hdrop : (line ++ ['\n']).drop (bufferLen - 1) = line.drop (bufferLen - 1) ++ ['\n'] :=
      List.drop_append_of_le_length (by omega)
    have hlast : (line.take (bufferLen - 1)).getLast? ≠ some '\n' :=
      fun hlast ↦ hline (List.mem_of_mem_take (List.mem_of_getLast? hlast))
    have hleft : later.content = line.drop (bufferLen - 1) ++ '\n' :: rest := by
      rw [hrest, hdrop, List.append_assoc, List.singleton_append]
    have hskip := skipLine_append (fun hmem ↦ hline (List.mem_of_mem_drop hmem))
      (show (line.drop (bufferLen - 1)).length < later.content.length by
        rw [hleft, List.length_append, List.length_cons]; omega) hleft
    rw [htake, if_neg hlast]
    exact ⟨_, rfl, hskip⟩

/-- A line that fits the buffer with its terminator is read whole, and the rest is left. -/
theorem readLine_append {line rest : List Char} (hline : '\n' ∉ line) {bufferLen : ℕ}
    (hlen : line.length + 1 < bufferLen) (h : sock.content = line ++ '\n' :: rest) :
    ∃ later : Socket, readLine sock bufferLen = (some (line ++ ['\n']), later) ∧
      later.content = rest := by
  have htake : (line ++ ['\n']).take (bufferLen - 1) = line ++ ['\n'] :=
    List.take_of_length_le (by simp; omega)
  rw [← htake]
  exact readLine_eq_take hline bufferLen h

theorem socketRead_content (sock : Socket) (bufferLen : ℕ) :
    (socketRead sock bufferLen).1 ++ (socketRead sock bufferLen).2.content = sock.content := by
  unfold socketRead
  split_ifs
  · rfl
  · exact SegmentedStream.content_receive sock bufferLen

/-! ### A stream without a line end -/

theorem readLineLoop_of_not_mem (h : '\n' ∉ sock.content) (room : ℕ) :
    (readLineLoop room sock).2.content = sock.content.drop room ∧
      ((readLineLoop room sock).1 = none → sock.content.length < room) ∧
      ∀ line ∈ (readLineLoop room sock).1, '\n' ∉ line := by
  induction room generalizing sock with
  | zero =>
    refine ⟨rfl, (fun hnone ↦ by cases hnone), fun line hline ↦ ?_⟩
    obtain rfl := Option.some.inj hline
    exact List.not_mem_nil
  | succ room ih =>
    cases hcontent : sock.content with
    | nil =>
      obtain ⟨hread, hrest⟩ := SegmentedStream.receive_eq_nil hcontent 1
      have hend : socketRead sock 1 = ([], (sock.receive 1).2) := by
        rw [socketRead, if_neg (by decide), ← hread]
      rw [readLineLoop, hend]
      refine ⟨?_, fun _ ↦ Nat.succ_pos room, fun line hline ↦ by cases hline⟩
      rw [List.drop_nil]
      exact hrest
    | cons c rest =>
      rw [hcontent, List.mem_cons, not_or] at h
      obtain ⟨next, hread, hnext⟩ := socketRead_one hcontent
      obtain ⟨hleft, hnone, hstored⟩ := @ih next (by rw [hnext]; exact h.2)
      rw [readLineLoop, hread]
      simp only [if_neg (Ne.symm h.1)]
      refine ⟨by rw [hleft, hnext, List.drop_succ_cons], fun hend ↦ ?_, fun line hline ↦ ?_⟩
      · have hshort := hnone (Option.map_eq_none_iff.mp hend)
        rw [hnext] at hshort
        rw [List.length_cons]
        omega
      obtain ⟨tail, htail, rfl⟩ := Option.map_eq_some_iff.mp hline
      rw [List.mem_cons, not_or]
      exact ⟨h.1, hstored tail htail⟩

theorem skipLine_of_not_mem (h : '\n' ∉ sock.content) {bound : ℕ}
    (hbound : sock.content.length ≤ bound) : (skipLine bound sock).content = [] := by
  induction bound generalizing sock with
  | zero => exact List.length_eq_zero_iff.mp (Nat.le_zero.mp hbound)
  | succ bound ih =>
    cases hcontent : sock.content with
    | nil =>
      obtain ⟨hread, hrest⟩ := SegmentedStream.receive_eq_nil hcontent 1
      have hend : socketRead sock 1 = ([], (sock.receive 1).2) := by
        rw [socketRead, if_neg (by decide), ← hread]
      rw [skipLine, hend]
      exact hrest
    | cons c rest =>
      rw [hcontent, List.mem_cons, not_or] at h
      rw [hcontent, List.length_cons] at hbound
      obtain ⟨next, hread, hnext⟩ := socketRead_one hcontent
      rw [skipLine, hread]
      simp only [if_neg (Ne.symm h.1)]
      exact ih (by rw [hnext]; exact h.2) (by rw [hnext]; omega)

/-- A stream without a line end is read to its end, and what is stored has no line end. -/
theorem readLine_of_not_mem (h : '\n' ∉ sock.content) (bufferLen : ℕ) :
    (readLine sock bufferLen).2.content = [] ∧
      ∀ line ∈ (readLine sock bufferLen).1, '\n' ∉ line := by
  obtain ⟨hleft, hnone, hstored⟩ := readLineLoop_of_not_mem h (bufferLen - 1)
  have hlater : '\n' ∉ (readLineLoop (bufferLen - 1) sock).2.content := by
    rw [hleft]
    exact fun hmem ↦ h (List.mem_of_mem_drop hmem)
  unfold readLine
  rcases hloop : readLineLoop (bufferLen - 1) sock with ⟨result, later⟩
  rw [hloop] at hlater hnone hstored hleft
  cases result with
  | none =>
    refine ⟨?_, hstored⟩
    rw [hleft]
    exact List.drop_eq_nil_of_le (Nat.le_of_lt (hnone rfl))
  | some line =>
    have hlast : line.getLast? ≠ some '\n' :=
      fun hlast ↦ hstored line rfl (List.mem_of_getLast? hlast)
    simp only [if_neg hlast]
    exact ⟨skipLine_of_not_mem hlater (Nat.le_refl _), hstored⟩

end reading

end Mupnp.Net
