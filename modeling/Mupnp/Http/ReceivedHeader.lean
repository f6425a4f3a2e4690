import Mupnp.Http.HttpRoundTrip

/-!
# Header values that arrive

What the reader of headers makes of any value that a peer has written: the line is cut where the
read buffer ends, and the value loses the blanks and colons at its ends (`receivedValue_eq`).
-/

set_option autoImplicit false
set_option relaxedAutoImplicit false

namespace Mupnp.Http

open Foundation Net Util

/-- The value of a header that was written behind a first line. -/
def receivedValue (name value : CString) : Option CString :=
  let line := HttpPacket.headerLine ⟨some name, some value⟩
  (HttpPacket.empty.readHeaders ⟨[line ++ "\r\n".toList]⟩).1.getHeaderValue name

/-- The number of bytes of a line that the buffer has left behind a name and its colon. -/
def valueRoom (name : CString) : ℕ := readlineBufSize - 1 - (name.length + 1)

section received

variable {name value : CString}

/-- The part of the line of a header that fits the buffer. -/
theorem take_headerLine (hname : name.length < readlineBufSize - 1) :
    (name ++ ": ".toList ++ value ++ "\r\n".toList).take (readlineBufSize - 1) =
      name ++ ':' :: (" ".toList ++ value ++ "\r\n".toList).take (valueRoom name) := by
  have hline : name ++ ": ".toList ++ value ++ "\r\n".toList =
      name ++ ':' :: (" ".toList ++ value ++ "\r\n".toList) := by simp
  have hroom : readlineBufSize - 1 = name.length + (valueRoom name + 1) := by
    unfold valueRoom
    omega
  rw [hline, hroom, List.take_length_add_append, List.take_succ_cons]

theorem receivedValue_eq (hname : IsToken name) (hcolon : ':' ∉ name)
    (hroom : name.length < readlineBufSize - 1) (hvalue : ∀ c ∈ value, c ≠ '\n' ∧ c ≠ '\x00') :
    receivedValue name value =
      some (strtrim ((" ".toList ++ value ++ "\r\n".toList).take (valueRoom name))
        headerlineDelim) := by
  have hchars : ∀ c ∈ name ++ ": ".toList ++ value ++ "\r\n".toList, c ≠ '\x00' := by
    intro c hc
    have hseparator : ∀ c ∈ ": ".toList, c ≠ '\x00' := by decide
    have hend : ∀ c ∈ "\r\n".toList, c ≠ '\x00' := by decide
    simp only [List.mem_append] at hc
    rcases hc with ((hc | hc) | hc) | hc
    · exact (hname.chars c hc).2
    · exact hseparator c hc
    · exact (hvalue c hc).2
    · exact hend c hc
  have hfeed : '\n' ∉ name ++ ": ".toList ++ value ++ ['\r'] := by
    intro hmem
    simp only [List.mem_append] at hmem
    rcases hmem with ((hmem | hmem) | hmem) | hmem
    · exact (hname.ne hmem).2.1 rfl
    · exact absurd hmem (by decide)
    · exact (hvalue '\n' hmem).1 rfl
    · exact absurd hmem (by decide)
  have hwhole : name ++ ": ".toList ++ value ++ ['\r'] ++ ['\n'] =
      name ++ ": ".toList ++ value ++ "\r\n".toList := by simp
  have hcontent : (⟨[HttpPacket.headerLine ⟨some name, some value⟩ ++ "\r\n".toList]⟩ :
      Socket).content = (name ++ ": ".toList ++ value ++ ['\r']) ++ '\n' :: "\r\n".toList := by
    rw [SegmentedStream.content, HttpPacket.headerLine_some, ← hwhole]
    simp
  obtain ⟨next, hline, hnext⟩ := readLine_eq_take hfeed readlineBufSize hcontent
  rw [hwhole, take_headerLine hroom] at hline
  obtain ⟨last, hend, -, -⟩ :=
    @readLine_crlf [] [] (by simp) (by decide) next (by simpa using hnext)
  have hlong : ¬ (name ++ ':' :: (" ".toList ++ value ++ "\r\n".toList).take
      (valueRoom name)).length ≤ 2 := by
    have hpos := List.length_pos_iff.mpr hname.ne_nil
    rw [← take_headerLine hroom]
    simp only [List.length_take, List.length_append, not_le]
    have htwo : "\r\n".toList.length = 2 := by decide
    have hbuffer : readlineBufSize = 512 := rfl
    omega
  have hbuffer : bufferString (name ++ ':' :: (" ".toList ++ value ++ "\r\n".toList).take
      (valueRoom name)) =
        name ++ ':' :: (" ".toList ++ value ++ "\r\n".toList).take (valueRoom name) := by
    rw [← take_headerLine hroom]
    exact bufferString_eq_self fun c hc ↦ hchars c (List.mem_of_mem_take hc)
  have hloop : ∀ bound, HttpPacket.readHeadersLoop (bound + 2) []
      ⟨[HttpPacket.headerLine ⟨some name, some value⟩ ++ "\r\n".toList]⟩ =
        ([⟨some name, some (strtrim ((" ".toList ++ value ++ "\r\n".toList).take (valueRoom name))
          headerlineDelim)⟩], last) := by
    intro bound
    rw [HttpPacket.readHeadersLoop, hline]
    simp only [if_neg hlong, hbuffer, parseHeader_colon hname hcolon, Option.toList_some,
      List.nil_append]
    rw [HttpPacket.readHeadersLoop, hend]
    rfl
  have hself : HttpHeader.hasName ⟨some name, some (strtrim
      ((" ".toList ++ value ++ "\r\n".toList).take (valueRoom name)) headerlineDelim)⟩ name =
        true := strcaseeq_self name
  obtain ⟨bound, hbound⟩ : ∃ bound, (⟨[HttpPacket.headerLine ⟨some name, some value⟩ ++
      "\r\n".toList]⟩ : Socket).content.length + 1 = bound + 2 := by
    refine ⟨((name ++ ": ".toList ++ value ++ ['\r']) ++ '\n' :: "\r\n".toList).length - 1, ?_⟩
    rw [hcontent, List.length_append, List.length_cons]
    omega
  unfold receivedValue HttpPacket.readHeaders HttpPacket.getHeaderValue
  simp only [HttpPacket.empty, hbound, hloop, headerListGetValue_cons_of_pos hself]

end received

end Mupnp.Http
