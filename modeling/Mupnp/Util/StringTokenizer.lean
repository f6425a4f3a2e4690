import Mupnp.Util.StringFunction

/-!
# String tokenizers

`util/string_tokenizer.c`: the tokens of a string are the longest runs of characters that are no
delimiters. A tokenizer looks one token ahead, and `nextAllToken` takes that token together with
everything behind it.
-/

set_option autoImplicit false
set_option relaxedAutoImplicit false

namespace Mupnp.Util

/-- A token that lies ahead: the token itself, the delimiter that ends it, and the text behind. -/
structure TokenAhead where
  token : CString
  repToken : Option Char
  rest : CString
  deriving DecidableEq

structure StringTokenizer where
  delim : CString
  ahead : Option TokenAhead

namespace StringTokenizer

/-- The loop of `mupnp_string_tokenizer_nexttoken`: the first token of a text. -/
def lookAhead (delim text : CString) : Option TokenAhead :=
  let start := text.dropWhile (delim.contains ·)
  if start = [] then none
  else
    let behind := start.dropWhile fun c ↦ !delim.contains c
    some ⟨start.takeWhile fun c ↦ !delim.contains c, behind.head?, behind.tail⟩

/-- `mupnp_string_tokenizer_new`. -/
def new (value delim : CString) : StringTokenizer := ⟨delim, lookAhead delim value⟩

/-- `mupnp_string_tokenizer_hasmoretoken`. -/
def hasMoreToken (strToken : StringTokenizer) : Bool := strToken.ahead.isSome

/-- `mupnp_string_tokenizer_nexttoken`: the token, and the tokenizer behind it. -/
def nextToken (strToken : StringTokenizer) : Option CString × StringTokenizer :=
  (strToken.ahead.map TokenAhead.token,
    { strToken with ahead := strToken.ahead.bind fun ahead ↦ lookAhead strToken.delim ahead.rest })

/-- `mupnp_string_tokenizer_nextalltoken`, for a tokenizer with a token ahead: the rest of the
text. -/
def nextAllToken (strToken : StringTokenizer) : Option CString :=
  strToken.ahead.map fun ahead ↦ ahead.token ++ ahead.repToken.toList ++ ahead.rest

/-! ### What lies ahead -/

section ahead

variable {delim : CString}

/-- A token that a delimiter ends. -/
theorem lookAhead_token {token : CString} (hne : token ≠ [])
    (h : ∀ c ∈ token, delim.contains c = false) {d : Char} (hd : delim.contains d = true)
    (rest : CString) : lookAhead delim (token ++ d :: rest) = some ⟨token, some d, rest⟩ := by
  have hstart : (token ++ d :: rest).dropWhile (delim.contains ·) = token ++ d :: rest := by
    obtain ⟨c, token, rfl⟩ := List.exists_cons_of_ne_nil hne
    rw [List.cons_append, List.dropWhile_cons_of_neg]
    simpa using h c List.mem_cons_self
  have htoken : ∀ c ∈ token, (!delim.contains c) = true := fun c hc ↦ by rw [h c hc]; rfl
  have htake : (token ++ d :: rest).takeWhile (fun c ↦ !delim.contains c) = token := by
    rw [List.takeWhile_append_of_pos htoken, List.takeWhile_cons, hd]
    exact List.append_nil token
  have hbehind : (token ++ d :: rest).dropWhile (fun c ↦ !delim.contains c) = d :: rest := by
    rw [List.dropWhile_append_of_pos htoken, List.dropWhile_cons, hd]
    rfl
  have hfull : token ++ d :: rest ≠ [] := by simp
  simp only [lookAhead, hstart, htake, hbehind, if_neg hfull, List.head?_cons, List.tail_cons]

/-- Taking everything that lies ahead: the text without the delimiters in front of it. -/
theorem nextAllToken_lookAhead (text : CString) :
    nextAllToken ⟨delim, lookAhead delim text⟩ =
      if text.dropWhile (delim.contains ·) = [] then none
      else some (text.dropWhile (delim.contains ·)) := by
  have hbehind : ∀ behind : CString, behind.head?.toList ++ behind.tail = behind := by
    rintro (- | ⟨d, behind⟩) <;> rfl
  unfold nextAllToken lookAhead
  by_cases hstart : text.dropWhile (delim.contains ·) = []
  · rw [if_pos hstart, if_pos hstart]
    rfl
  · rw [if_neg hstart, if_neg hstart, Option.map_some, List.append_assoc, hbehind,
      List.takeWhile_append_dropWhile]

/-- What lies ahead without the delimiters on its right side either. -/
theorem strrtrim_nextAllToken (text : CString) :
    ((nextAllToken ⟨delim, lookAhead delim text⟩).map fun token ↦ strrtrim token delim).getD [] =
      strtrim text delim := by
  rw [nextAllToken_lookAhead]
  by_cases hstart : text.dropWhile (delim.contains ·) = []
  · rw [if_pos hstart, strtrim, hstart]
    rfl
  · rw [if_neg hstart]
    rfl

end ahead

end StringTokenizer

end Mupnp.Util
