import Mupnp.Http.HttpRequest
import Mupnp.Http.HttpResponse

/-!
# Messages that are read into the same object

A request or a response is cleared before it is read into, but setting a string to `NULL` leaves it
as it is. What a first line lacks therefore keeps its value from the message before: what is read
is the same as in a fresh object exactly when the first line of the second message has whatever the
first line of the first message had set (`read_reuse_iff`).
-/

set_option autoImplicit false
set_option relaxedAutoImplicit false

namespace Mupnp.Http

open Net Util

/-- Setting a string to what is read gives the same in two objects when something is read, or when
it was the same before. -/
theorem stringSetValue_eq_iff (str str' value : Option CString) :
    stringSetValue str value = stringSetValue str' value ↔ value.isSome = true ∨ str = str' := by
  cases value with
  | none => simp
  | some value => simp [stringSetValue_some]

/-! ### Requests -/

/-- The tokens of the first line of a request. -/
structure RequestLine where
  method : Option CString
  uri : Option CString
  version : Option CString
  deriving DecidableEq

namespace HttpRequest

/-- The tokens of a line, as they are set one after the other. -/
def requestLine (line : CString) : RequestLine :=
  let strTok := StringTokenizer.new line statuslineDelim
  let (method, strTok) := strTok.nextToken
  let (uri, strTok) := strTok.nextToken
  let (version, _) := strTok.nextToken
  ⟨method, uri, version⟩

/-- The first line of a message that is longer than a line end; nothing when the stream ends before.
-/
def firstLine (sock : Socket) : RequestLine :=
  match (readFirstLine (sock.content.length + 1) sock).1 with
  | some line => requestLine (bufferString line)
  | none => ⟨none, none, none⟩

theorem setFirstLine_fst (httpReq : HttpRequest) (line : CString) :
    (httpReq.setFirstLine line).1 =
      { httpReq with
        method := stringSetValue httpReq.method (requestLine line).method
        uri := stringSetValue httpReq.uri (requestLine line).uri
        version := stringSetValue httpReq.version (requestLine line).version } := rfl

theorem setFirstLine_snd (httpReq : HttpRequest) (line : CString) :
    (httpReq.setFirstLine line).2 = ((requestLine line).method.isSome &&
      (requestLine line).uri.isSome && (requestLine line).version.isSome) := rfl

/-- The fields that a line sets are the same in two objects, or were the same before. -/
theorem setFirstLine_eq_iff (httpReq httpReq' : HttpRequest) (line : CString)
    (hagent : httpReq.userAgent = httpReq'.userAgent) :
    (httpReq.clear.setFirstLine line).1 = (httpReq'.clear.setFirstLine line).1 ↔
      ((requestLine line).method.isSome = true ∨ httpReq.method = httpReq'.method) ∧
        ((requestLine line).uri.isSome = true ∨ httpReq.uri = httpReq'.uri) ∧
        ((requestLine line).version.isSome = true ∨ httpReq.version = httpReq'.version) := by
  rw [setFirstLine_fst, setFirstLine_fst, ← stringSetValue_eq_iff, ← stringSetValue_eq_iff,
    ← stringSetValue_eq_iff]
  simp [clear, hagent]

/-- Reading into two objects gives the same exactly when every field that the first line lacks is
the same. -/
theorem read_eq_iff (httpReq httpReq' : HttpRequest) (sock : Socket)
    (hagent : httpReq.userAgent = httpReq'.userAgent) :
    httpReq.read sock = httpReq'.read sock ↔
      ((firstLine sock).method.isSome = true ∨ httpReq.method = httpReq'.method) ∧
        ((firstLine sock).uri.isSome = true ∨ httpReq.uri = httpReq'.uri) ∧
        ((firstLine sock).version.isSome = true ∨ httpReq.version = httpReq'.version) := by
  unfold HttpRequest.read firstLine
  rcases readFirstLine (sock.content.length + 1) sock with ⟨result, later⟩
  cases result with
  | none =>
    simp [clear, hagent]
  | some line =>
    have hset := setFirstLine_eq_iff httpReq httpReq' (bufferString line) hagent
    have hcomplete := setFirstLine_snd httpReq.clear (bufferString line)
    have hcomplete' := setFirstLine_snd httpReq'.clear (bufferString line)
    simp only
    rw [← hset]
    rcases hfirst : httpReq.clear.setFirstLine (bufferString line) with ⟨request, complete⟩
    rcases hsecond : httpReq'.clear.setFirstLine (bufferString line) with ⟨request', complete'⟩
    rw [hfirst] at hcomplete hset
    rw [hsecond, ← hcomplete] at hcomplete'
    rw [hsecond] at hset
    obtain rfl : complete' = complete := hcomplete'
    cases complete' with
    | false => simp
    | true =>
      have hall : (requestLine (bufferString line)).method.isSome = true ∧
          (requestLine (bufferString line)).uri.isSome = true ∧
          (requestLine (bufferString line)).version.isSome = true := by
        simpa [and_assoc] using hcomplete.symm
      obtain rfl : request = request' :=
        hset.mpr ⟨Or.inl hall.1, Or.inl hall.2.1, Or.inl hall.2.2⟩
      exact iff_of_true rfl rfl

/-- Making the target relative leaves the rest as it is. -/
theorem makeUriRelative_fields (httpReq : HttpRequest) :
    httpReq.makeUriRelative.userAgent = httpReq.userAgent ∧
      httpReq.makeUriRelative.method = httpReq.method ∧
      httpReq.makeUriRelative.version = httpReq.version ∧
      (httpReq.uri ≠ none → httpReq.makeUriRelative.uri ≠ none) := by
  unfold makeUriRelative
  simp only
  split_ifs
  · refine ⟨rfl, rfl, rfl, fun huri hnone ↦ ?_⟩
    cases hrequest : (NetUri.setValue (httpReq.uri.getD [])).getRequest with
    | none =>
      rw [hrequest] at hnone
      exact huri hnone
    | some request =>
      rw [hrequest] at hnone
      cases hnone
  · exact ⟨rfl, rfl, rfl, id⟩

/-- What a message leaves in the fields of the first line. -/
theorem read_fields (httpReq : HttpRequest) (sock : Socket) :
    (httpReq.read sock).2.1.userAgent = httpReq.userAgent ∧
      (httpReq.read sock).2.1.method = stringSetValue httpReq.method (firstLine sock).method ∧
      (httpReq.read sock).2.1.version = stringSetValue httpReq.version (firstLine sock).version ∧
      ((httpReq.read sock).2.1.uri = none ↔
        stringSetValue httpReq.uri (firstLine sock).uri = none) := by
  unfold HttpRequest.read firstLine
  rcases readFirstLine (sock.content.length + 1) sock with ⟨result, later⟩
  cases result with
  | none => exact ⟨rfl, rfl, rfl, Iff.rfl⟩
  | some line =>
    have hfst := setFirstLine_fst httpReq.clear (bufferString line)
    have hsnd := setFirstLine_snd httpReq.clear (bufferString line)
    simp only
    rcases hset : httpReq.clear.setFirstLine (bufferString line) with ⟨request, complete⟩
    rw [hset] at hfst hsnd
    have hagent : request.userAgent = httpReq.userAgent :=
      (congrArg HttpRequest.userAgent hfst).trans rfl
    have hmethod : request.method =
        stringSetValue httpReq.method (requestLine (bufferString line)).method :=
      (congrArg HttpRequest.method hfst).trans rfl
    have hversion : request.version =
        stringSetValue httpReq.version (requestLine (bufferString line)).version :=
      (congrArg HttpRequest.version hfst).trans rfl
    have huri : request.uri = stringSetValue httpReq.uri (requestLine (bufferString line)).uri :=
      (congrArg HttpRequest.uri hfst).trans rfl
    by_cases hcomplete : complete = false
    · simp only [if_pos hcomplete]
      exact ⟨hagent, hmethod, hversion, by rw [huri]⟩
    · obtain ⟨hagent', hmethod', hversion', huri'⟩ := makeUriRelative_fields request
      have hne : request.uri ≠ none := by
        intro hnone
        rw [huri] at hnone
        cases htoken : (requestLine (bufferString line)).uri with
        | none =>
          rw [htoken] at hsnd
          simp at hsnd
          exact hcomplete hsnd
        | some token =>
          rw [htoken] at hnone
          cases hnone
      have hfields : (request.makeUriRelative.uri = none ↔
          stringSetValue httpReq.uri (requestLine (bufferString line)).uri = none) := by
        rw [← huri]
        exact iff_of_false (huri' hne) hne
      simp only [if_neg hcomplete]
      split_ifs
      · exact ⟨hagent'.trans hagent, hmethod'.trans hmethod, hversion'.trans hversion, hfields⟩
      · exact ⟨hagent'.trans hagent, hmethod'.trans hmethod, hversion'.trans hversion, hfields⟩

/-- The second message has each token that the first one had, other than the version that a new
object has. -/
def Covers (first second : RequestLine) : Prop :=
  (second.method.isSome = true ∨ first.method = none) ∧
    (second.uri.isSome = true ∨ first.uri = none) ∧
    (second.version.isSome = true ∨ first.version = none ∨
      first.version = some "HTTP/1.1".toList)

/-- Reading a message after another is reading it into a fresh request exactly when its first line
covers the first line before. -/
theorem read_read_iff (userAgent : CString) (first second : Socket) :
    ((new userAgent).read first).2.1.read second = (new userAgent).clear.read second ↔
      Covers (firstLine first) (firstLine second) := by
  obtain ⟨hagent, hmethod, hversion, huri⟩ := read_fields (new userAgent) first
  rw [read_eq_iff _ (new userAgent).clear second hagent]
  unfold Covers
  have hnone : ∀ value : Option CString, stringSetValue none value = none ↔ value = none := by
    intro value
    rw [stringSetValue_none_left]
  have hmethodIff : ((new userAgent).read first).2.1.method = (new userAgent).clear.method ↔
      (firstLine first).method = none := by
    rw [hmethod]
    exact hnone _
  have huriIff : ((new userAgent).read first).2.1.uri = (new userAgent).clear.uri ↔
      (firstLine first).uri = none := huri.trans (hnone _)
  have hversionIff : ((new userAgent).read first).2.1.version = (new userAgent).clear.version ↔
      (firstLine first).version = none ∨ (firstLine first).version = some "HTTP/1.1".toList := by
    rw [hversion]
    cases (firstLine first).version with
    | none => simp [new, clear]
    | some version =>
      rw [stringSetValue_some]
      simp [new, clear]
  rw [hmethodIff, huriIff, hversionIff]

end HttpRequest

/-! ### Responses -/

namespace HttpResponse

/-- The version in a status line. -/
def statusLineVersion (line : CString) : Option CString :=
  (StringTokenizer.new line statuslineDelim).nextToken.1

/-- The version in the first line of a message; nothing when the stream ends before. -/
def firstVersion (sock : Socket) : Option CString :=
  match (readLine sock readlineBufSize).1 with
  | some line => statusLineVersion (bufferString line)
  | none => none

/-- Only the version depends on what was in the object before. -/
theorem setStatusLine_clear (httpRes httpRes' : HttpResponse) (line : CString) :
    httpRes.clear.setStatusLine line =
      { httpRes'.clear.setStatusLine line with
        version := stringSetValue httpRes.version (statusLineVersion line) } := by
  unfold setStatusLine statusLineVersion
  simp only
  cases (StringTokenizer.new line statuslineDelim).nextToken.2.nextToken.1 with
  | none => rfl
  | some statusCode => rfl

theorem version_setStatusLine (httpRes : HttpResponse) (line : CString) :
    (httpRes.clear.setStatusLine line).version =
      stringSetValue httpRes.version (statusLineVersion line) :=
  congrArg HttpResponse.version (setStatusLine_clear httpRes httpRes line)

theorem version_read (httpRes : HttpResponse) (sock : Socket) (onlyHeader : Bool) :
    (httpRes.read sock onlyHeader).2.1.version =
      stringSetValue httpRes.version (firstVersion sock) := by
  unfold HttpResponse.read firstVersion
  rcases readLine sock readlineBufSize with ⟨result, later⟩
  cases result with
  | none => rfl
  | some line => exact version_setStatusLine httpRes (bufferString line)

/-- Reading into two objects gives the same exactly when the message has a version or the objects
have the same one. -/
theorem read_eq_iff (httpRes httpRes' : HttpResponse) (sock : Socket) (onlyHeader : Bool) :
    httpRes.read sock onlyHeader = httpRes'.read sock onlyHeader ↔
      (firstVersion sock).isSome = true ∨ httpRes.version = httpRes'.version := by
  rw [← stringSetValue_eq_iff, ← version_read httpRes sock onlyHeader,
    ← version_read httpRes' sock onlyHeader]
  refine ⟨fun heq ↦ by rw [heq], ?_⟩
  unfold HttpResponse.read
  rcases readLine sock readlineBufSize with ⟨result, later⟩
  cases result with
  | none =>
    intro hversion
    have hsame : httpRes.version = httpRes'.version := hversion
    have hclear : httpRes.clear = httpRes'.clear := by
      unfold clear
      rw [hsame]
      rfl
    simp only [hclear]
  | some line =>
    intro hversion
    have hsame : (httpRes.clear.setStatusLine (bufferString line)).version =
        (httpRes'.clear.setStatusLine (bufferString line)).version := hversion
    have hset : httpRes.clear.setStatusLine (bufferString line) =
        httpRes'.clear.setStatusLine (bufferString line) := by
      rw [version_setStatusLine, version_setStatusLine] at hsame
      rw [setStatusLine_clear httpRes httpRes', hsame, ← setStatusLine_clear httpRes' httpRes']
    simp only [hset]

/-- The second message has a version, or the first one has none other than that of a new object. -/
def Covers (first second : Option CString) : Prop :=
  second.isSome = true ∨ first = none ∨ first = some "HTTP/1.1".toList

/-- Reading a message after another is reading it into a fresh response exactly when its version
covers the one before. -/
theorem read_read_iff (first second : Socket) (onlyHeader onlyHeader' : Bool) :
    (new.read first onlyHeader).2.1.read second onlyHeader' = new.clear.read second onlyHeader' ↔
      Covers (firstVersion first) (firstVersion second) := by
  rw [read_eq_iff, version_read]
  unfold Covers
  cases firstVersion first with
  | none => simp [new, clear, setStatusCode]
  | some version =>
    rw [stringSetValue_some]
    simp [new, clear, setStatusCode]

end HttpResponse

/-! ### Both -/

/-- A message that is read after another into the same request or response leaves and gives what it
does in one that was only created and cleared, exactly when it has what the first lines before it
had set. -/
theorem read_reuse_iff (userAgent : CString) (first second : Socket)
    (onlyHeader onlyHeader' : Bool) :
    (((HttpRequest.new userAgent).read first).2.1.read second =
          (HttpRequest.new userAgent).clear.read second ↔
        HttpRequest.Covers (HttpRequest.firstLine first) (HttpRequest.firstLine second)) ∧
      ((HttpResponse.new.read first onlyHeader).2.1.read second onlyHeader' =
          HttpResponse.new.clear.read second onlyHeader' ↔
        HttpResponse.Covers (HttpResponse.firstVersion first)
          (HttpResponse.firstVersion second)) :=
  ⟨HttpRequest.read_read_iff userAgent first second,
    HttpResponse.read_read_iff first second onlyHeader onlyHeader'⟩

/-- A request line that is cut short behind its method keeps the target before it. -/
theorem not_read_reuse :
    ¬ ((∀ (userAgent : CString) (first second : Socket),
        ((HttpRequest.new userAgent).read first).2.1.read second =
          (HttpRequest.new userAgent).clear.read second) ∧
      ∀ (first second : Socket) (onlyHeader onlyHeader' : Bool),
        (HttpResponse.new.read first onlyHeader).2.1.read second onlyHeader' =
          HttpResponse.new.clear.read second onlyHeader') := by
  rintro ⟨hrequest, -⟩
  have hcovers := (HttpRequest.read_read_iff [] ⟨["GET / HTTP/1.1\r\n\r\n".toList]⟩
    ⟨["POST\r\n".toList]⟩).mp (hrequest [] _ _)
  have hfirst : (HttpRequest.firstLine ⟨["GET / HTTP/1.1\r\n\r\n".toList]⟩).uri ≠ none := by
    decide +kernel
  have hsecond : (HttpRequest.firstLine ⟨["POST\r\n".toList]⟩).uri.isSome = false := by
    decide +kernel
  rcases hcovers.2.1 with hsome | hnone
  · rw [hsecond] at hsome
    cases hsome
  · exact hfirst hnone

end Mupnp.Http
