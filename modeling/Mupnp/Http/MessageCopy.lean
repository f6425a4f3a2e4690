import Mupnp.Http.HttpRequest
import Mupnp.Http.HttpResponse

/-!
# Copies of HTTP messages

`mupnp_http_packet_copy` and the copies of requests and responses. Headers are copied one by one,
and the content as a C string, so that a copy ends at the first `NUL` of the content, while its
`Content-Length` still has the length of the original. The copies have the content of their
original exactly when it has no `NUL` (`copy_preserves_iff`).
-/

set_option autoImplicit false
set_option relaxedAutoImplicit false

namespace Mupnp.Http

open Util

/-- A header of a copy. -/
def HttpHeader.copy (srcHeader : HttpHeader) : HttpHeader :=
  ⟨stringSetValue none srcHeader.name, stringSetValue none srcHeader.value⟩

/-- `mupnp_http_packet_copy`: the destination is cleared first. -/
def HttpPacket.copy (_destHttpPkt srcHttpPkt : HttpPacket) : HttpPacket where
  headers := HttpPacket.empty.headers ++ srcHttpPkt.headers.map HttpHeader.copy
  content := stringSetValue HttpPacket.empty.content (srcHttpPkt.content.map bufferString)

/-- `mupnp_http_request_copy`. -/
def HttpRequest.copy (destHttpReq srcHttpReq : HttpRequest) : HttpRequest :=
  { destHttpReq with
    toHttpPacket := destHttpReq.toHttpPacket.copy srcHttpReq.toHttpPacket
    method := stringSetValue destHttpReq.method srcHttpReq.method
    uri := stringSetValue destHttpReq.uri srcHttpReq.uri
    version := stringSetValue destHttpReq.version srcHttpReq.version }

/-- `mupnp_http_response_copy`. -/
def HttpResponse.copy (destHttpRes srcHttpRes : HttpResponse) : HttpResponse :=
  let versioned := { destHttpRes with
    version := stringSetValue destHttpRes.version srcHttpRes.version }
  let coded := versioned.setStatusCode srcHttpRes.statusCode
  { coded with
    toHttpPacket := destHttpRes.toHttpPacket.copy srcHttpRes.toHttpPacket
    reasonPhrase := stringSetValue coded.reasonPhrase srcHttpRes.reasonPhrase }

theorem HttpHeader.copy_eq (header : HttpHeader) : header.copy = header := by
  unfold HttpHeader.copy
  rw [stringSetValue_none_left, stringSetValue_none_left]

namespace HttpPacket

theorem headers_copy (dest src : HttpPacket) : (dest.copy src).headers = src.headers := by
  show [] ++ src.headers.map HttpHeader.copy = src.headers
  rw [List.nil_append, funext HttpHeader.copy_eq]
  exact List.map_id _

theorem content_copy (dest src : HttpPacket) :
    (dest.copy src).content = src.content.map bufferString :=
  stringSetValue_none_left _

theorem getContentLength_copy (dest src : HttpPacket) :
    (dest.copy src).getContentLength = src.getContentLength := by
  unfold getContentLength getHeaderValue
  rw [headers_copy]

/-- A copy has the content and the length of its original, and posting it stays within its
content. -/
structure IsPreserved (src copied : HttpPacket) : Prop where
  content : copied.content = src.content
  length : copied.getContentLength = src.getContentLength
  posted : copied.post ≠ none

/-- A packet is copied whole exactly when its content is a C string. -/
theorem isPreserved_copy_iff (dest : HttpPacket) {src : HttpPacket}
    (hlength : src.getContentLength = (src.content.getD []).length) :
    IsPreserved src (dest.copy src) ↔ '\x00' ∉ src.content.getD [] := by
  rw [← bufferString_eq_self_iff]
  constructor
  · intro h
    have hsame := congrArg (·.getD []) h.content
    rw [content_copy] at hsame
    cases hcontent : src.content with
    | none => rfl
    | some content =>
      rw [hcontent] at hsame
      exact hsame
  · intro hself
    have hcopied : (dest.copy src).content = src.content := by
      rw [content_copy]
      cases hcontent : src.content with
      | none => rfl
      | some content =>
        rw [hcontent] at hself
        exact congrArg some hself
    refine ⟨hcopied, getContentLength_copy dest src, ?_⟩
    unfold post sentContent
    rw [hcopied, getContentLength_copy, hlength]
    cases src.content with
    | none => exact fun hnone ↦ by cases hnone
    | some content =>
      have hfits : (BitVec.ofInt 64 (((some content).getD []).length : ℤ)).toNat ≤
          content.length := by
        rw [BitVec.ofInt_natCast, BitVec.toNat_ofNat]
        exact Nat.mod_le _ _
      simp only [if_pos hfits]
      exact fun hnone ↦ by cases hnone

end HttpPacket

/-- Exactly the contents without `NUL` are preserved by the three copies. -/
theorem copy_preserves_iff (dest src : HttpPacket) (destReq srcReq : HttpRequest)
    (destRes srcRes : HttpResponse) :
    (src.getContentLength = (src.content.getD []).length →
        (HttpPacket.IsPreserved src (dest.copy src) ↔ '\x00' ∉ src.content.getD [])) ∧
      (srcReq.getContentLength = (srcReq.content.getD []).length →
        (HttpPacket.IsPreserved srcReq.toHttpPacket (destReq.copy srcReq).toHttpPacket ↔
          '\x00' ∉ srcReq.content.getD [])) ∧
      (srcRes.getContentLength = (srcRes.content.getD []).length →
        (HttpPacket.IsPreserved srcRes.toHttpPacket (destRes.copy srcRes).toHttpPacket ↔
          '\x00' ∉ srcRes.content.getD [])) :=
  ⟨HttpPacket.isPreserved_copy_iff dest,
    HttpPacket.isPreserved_copy_iff destReq.toHttpPacket,
    HttpPacket.isPreserved_copy_iff destRes.toHttpPacket⟩

/-- A packet with the content `ab`. -/
def textPacket : HttpPacket := HttpPacket.setContentLength ⟨[], some "ab".toList⟩ 2

theorem copy_preserves_text :
    HttpPacket.IsPreserved textPacket (HttpPacket.empty.copy textPacket) :=
  ((copy_preserves_iff HttpPacket.empty textPacket (HttpRequest.new []) (HttpRequest.new [])
    HttpResponse.new HttpResponse.new).1 (by decide +kernel)).mpr
    (by decide : '\x00' ∉ "ab".toList)

/-- A content that begins with `NUL` is lost. -/
theorem not_copy_preserves :
    ¬ ∀ dest src : HttpPacket, src.getContentLength = (src.content.getD []).length →
      HttpPacket.IsPreserved src (dest.copy src) := by
  intro h
  have hpreserved := h HttpPacket.empty (HttpPacket.setContentLength ⟨[], some ['\x00', 'a']⟩ 2)
    (by decide +kernel)
  have hcopied : (HttpPacket.empty.copy
      (HttpPacket.setContentLength ⟨[], some ['\x00', 'a']⟩ 2)).content = some [] := by decide
  have hsame := hpreserved.content
  rw [hcopied] at hsame
  cases hsame

end Mupnp.Http
