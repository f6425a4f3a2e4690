import Mupnp.Foundation.CellArray
import Mupnp.Foundation.TextRuns
import Mupnp.Util.StringTokenizer

/-!
# String tokenizers in their buffer

`util/string_tokenizer.c` cell by cell: a tokenizer looks one token ahead, writes a terminator over
the delimiter behind that token, and puts the delimiter back when the rest of the text is asked for.
Pointers into the buffer are indices, and an access outside the buffer has no result.

`Shows` says how a buffer stands for the token that lies ahead and the text behind it. The tokens
that are taken are the runs of the text, and the rest that is taken after them is what is left of
the text from the next run on, whatever terminators were written before (`takeTokens_runs`).
-/

set_option autoImplicit false
set_option relaxedAutoImplicit false

namespace Mupnp.Util

open Foundation CellArray

/-! ### The tokenizer -/

/-- `mUpnpStringTokenizer`: the cells of `value` with its terminator, and `currToken` and
`nextToken` as indices of cells. -/
structure TokenizerBuffer where
  value : List Char
  delim : CString
  nextStartPos : ℕ
  lastPos : ℕ
  currToken : Option ℕ
  nextToken : Option ℕ
  repToken : Char
  hasNextTokens : Bool
  deriving DecidableEq

/-- The loop of `mupnp_string_tokenizer_nexttoken` over the delimiters at the index `i`, which stops
early only at a delimiter in front of a token. -/
def matchDelims (i tokenCnt : ℕ) :
    CString → Bool → TokenizerBuffer → Option (Bool × TokenizerBuffer)
  | [], isDelimChar, strToken => some (isDelimChar, strToken)
  | d :: delims, isDelimChar, strToken =>
    (load strToken.value i).bind fun c ↦
      if c = d then
        if tokenCnt = 0 then some (true, { strToken with nextStartPos := i + 1 })
        else
          (store strToken.value i '\x00').bind fun value ↦
            matchDelims i tokenCnt delims true
              { strToken with
                hasNextTokens := true
                repToken := c
                value := value
                nextToken := some strToken.nextStartPos
                nextStartPos := i + 1 }
      else matchDelims i tokenCnt delims isDelimChar strToken

/-- The loop of `mupnp_string_tokenizer_nexttoken` over the characters from the index `i` on, with
the number of turns that are left: the length of the token so far, and the state. -/
def scanToken : ℕ → ℕ → ℕ → TokenizerBuffer → Option (ℕ × TokenizerBuffer)
  | 0, _, tokenCnt, strToken => some (tokenCnt, strToken)
  | turns + 1, i, tokenCnt, strToken =>
    (matchDelims i tokenCnt strToken.delim false strToken).bind fun matched ↦
      if matched.2.hasNextTokens = true then some (tokenCnt, matched.2)
      else scanToken turns (i + 1) (if matched.1 = false then tokenCnt + 1 else tokenCnt) matched.2

/-- The state in which `mupnp_string_tokenizer_nexttoken` begins its loops. -/
def TokenizerBuffer.passOn (strToken : TokenizerBuffer) : TokenizerBuffer :=
  { strToken with
    currToken := strToken.nextToken
    nextToken := none
    hasNextTokens := false
    repToken := '\x00' }

/-- `mupnp_string_tokenizer_nexttoken`; the token that is returned is `currToken`. -/
def stringTokenizerNextToken (strToken : TokenizerBuffer) : Option TokenizerBuffer :=
  (scanToken (strToken.lastPos + 1 - strToken.nextStartPos) strToken.nextStartPos 0
    strToken.passOn).map fun scanned ↦
    if scanned.2.hasNextTokens = false ∧ 0 < scanned.1 then
      { scanned.2 with
        hasNextTokens := true
        nextToken := some scanned.2.nextStartPos
        nextStartPos := scanned.2.lastPos + 1 }
    else scanned.2

/-- `mupnp_string_tokenizer_new`. -/
def stringTokenizerNew (value delim : CString) : Option TokenizerBuffer :=
  let strToken : TokenizerBuffer :=
    { value := value ++ ['\x00']
      delim := delim
      nextStartPos := 0
      lastPos := if value.length = 0 then 0 else value.length - 1
      currToken := none
      nextToken := none
      repToken := '\x00'
      hasNextTokens := false }
  if 0 < value.length then stringTokenizerNextToken strToken else some strToken

/-- `mupnp_string_tokenizer_nextalltoken`; the token that is returned is `currToken`. -/
def stringTokenizerNextAllToken (strToken : TokenizerBuffer) : Option TokenizerBuffer :=
  strToken.nextToken.bind fun nextToken ↦
    (markIndex '\x00' (strToken.value.drop nextToken)).bind fun nextTokenLen ↦
      (store strToken.value (nextToken + nextTokenLen) strToken.repToken).map fun value ↦
        { strToken with
          value := value
          currToken := some nextToken
          nextToken := none
          hasNextTokens := false }

/-- The string that `currToken` points to. -/
def TokenizerBuffer.currText (strToken : TokenizerBuffer) : Option CString :=
  strToken.currToken.bind fun currToken ↦
    (markIndex '\x00' (strToken.value.drop currToken)).map fun length ↦
      (strToken.value.drop currToken).take length

/-- Takes the next token so many times, while `mupnp_string_tokenizer_hasmoretoken` holds. -/
def takeTokens : ℕ → TokenizerBuffer → Option (List CString × TokenizerBuffer)
  | 0, strToken => some ([], strToken)
  | count + 1, strToken =>
    if strToken.hasNextTokens = false then some ([], strToken)
    else
      (stringTokenizerNextToken strToken).bind fun later ↦
        later.currText.bind fun token ↦
          (takeTokens count later).map fun taken ↦ (token :: taken.1, taken.2)

/-! ### One token -/

section token

variable {front back token delim delims text : List Char} {c : Char} {i tokenCnt turns : ℕ}
  {strToken : TokenizerBuffer}

theorem matchDelims_of_not_mem (hload : load strToken.value i = some c) (hc : c ∉ delims)
    (isDelimChar : Bool) :
    matchDelims i tokenCnt delims isDelimChar strToken = some (isDelimChar, strToken) := by
  induction delims with
  | nil => rfl
  | cons d delims ih =>
    rw [List.mem_cons, not_or] at hc
    rw [matchDelims, hload, Option.bind_some, if_neg hc.1]
    exact ih hc.2

/-- A delimiter in front of a token moves the start of the token behind it. -/
theorem matchDelims_skip (hload : load strToken.value i = some c) (hc : c ∈ delims)
    (isDelimChar : Bool) :
    matchDelims i 0 delims isDelimChar strToken =
      some (true, { strToken with nextStartPos := i + 1 }) := by
  induction delims with
  | nil => cases hc
  | cons d delims ih =>
    rw [matchDelims, hload, Option.bind_some]
    by_cases hd : c = d
    · rw [if_pos hd, if_pos rfl]
    · rw [if_neg hd]
      exact ih ((List.mem_cons.mp hc).resolve_left hd)

/-- A delimiter behind a token becomes a terminator, which is no delimiter. -/
theorem matchDelims_end (hvalue : strToken.value = front ++ c :: back) (hi : i = front.length)
    (hc : c ∈ delims) (hnul : '\x00' ∉ delims) (htoken : tokenCnt ≠ 0) (isDelimChar : Bool) :
    matchDelims i tokenCnt delims isDelimChar strToken =
      some (true, { strToken with
        hasNextTokens := true
        repToken := c
        value := front ++ '\x00' :: back
        nextToken := some strToken.nextStartPos
        nextStartPos := i + 1 }) := by
  have hload : load strToken.value i = some c := by
    rw [hvalue]
    exact load_append hi
  have hstore : store strToken.value i '\x00' = some (front ++ '\x00' :: back) := by
    rw [hvalue]
    exact store_append hi
  induction delims with
  | nil => cases hc
  | cons d delims ih =>
    rw [List.mem_cons, not_or] at hnul
    rw [matchDelims, hload, Option.bind_some]
    by_cases hd : c = d
    · rw [if_pos hd, if_neg htoken, hstore, Option.bind_some]
      exact matchDelims_of_not_mem (load_append hi) hnul.2 true
    · rw [if_neg hd]
      exact ih ((List.mem_cons.mp hc).resolve_left hd) hnul.2

/-- Delimiters in front of a token. -/
theorem scanToken_skip {skipped : List Char} (hskipped : ∀ c ∈ skipped, c ∈ strToken.delim)
    (hvalue : strToken.value = front ++ (skipped ++ back)) (hi : i = front.length)
    (hstart : strToken.nextStartPos = i) (hnext : strToken.hasNextTokens = false) :
    scanToken (skipped.length + turns) i 0 strToken =
      scanToken turns (i + skipped.length) 0
        { strToken with nextStartPos := i + skipped.length } := by
  induction skipped generalizing front i strToken with
  | nil =>
    rw [List.length_nil, Nat.zero_add, Nat.add_zero, ← hstart]
  | cons c skipped ih =>
    rw [List.forall_mem_cons] at hskipped
    have hload : load strToken.value i = some c := by
      rw [hvalue]
      exact load_append hi
    have hturns : (c :: skipped).length + turns = skipped.length + turns + 1 := by
      rw [List.length_cons]
      omega
    have hpos : i + (c :: skipped).length = i + 1 + skipped.length := by
      rw [List.length_cons]
      omega
    have hlater := @ih (front ++ [c]) (i + 1) { strToken with nextStartPos := i + 1 } hskipped.2
      (by rw [hvalue, List.append_assoc]; rfl)
      (by rw [List.length_append, List.length_singleton, hi]) rfl hnext
    have hgo : ¬ strToken.hasNextTokens = true := by
      rw [hnext]
      exact Bool.false_ne_true
    rw [hturns, hpos, scanToken, matchDelims_skip hload hskipped.1, Option.bind_some]
    exact (if_neg hgo).trans hlater

/-- The characters of a token. -/
theorem scanToken_run {run : List Char} (hrun : ∀ c ∈ run, c ∉ strToken.delim)
    (hvalue : strToken.value = front ++ (run ++ back)) (hi : i = front.length)
    (hnext : strToken.hasNextTokens = false) :
    scanToken (run.length + turns) i tokenCnt strToken =
      scanToken turns (i + run.length) (tokenCnt + run.length) strToken := by
  induction run generalizing front i tokenCnt with
  | nil => rw [List.length_nil, Nat.zero_add, Nat.add_zero, Nat.add_zero]
  | cons c run ih =>
    rw [List.forall_mem_cons] at hrun
    have hload : load strToken.value i = some c := by
      rw [hvalue]
      exact load_append hi
    have hturns : (c :: run).length + turns = run.length + turns + 1 := by
      rw [List.length_cons]
      omega
    have hlater := @ih (front ++ [c]) (i + 1) (tokenCnt + 1) hrun.2
      (by rw [hvalue, List.append_assoc]; rfl)
      (by rw [List.length_append, List.length_singleton, hi])
    rw [hturns, scanToken, matchDelims_of_not_mem hload hrun.1, Option.bind_some]
    simp only [hnext, Bool.false_eq_true, if_false, if_true]
    rw [hlater, List.length_cons, Nat.add_assoc, Nat.add_assoc, Nat.add_comm 1]

/-- The delimiter behind a token. -/
theorem scanToken_end (hvalue : strToken.value = front ++ c :: back) (hi : i = front.length)
    (hc : c ∈ strToken.delim) (hnul : '\x00' ∉ strToken.delim) (htoken : tokenCnt ≠ 0) :
    scanToken (turns + 1) i tokenCnt strToken =
      some (tokenCnt, { strToken with
        hasNextTokens := true
        repToken := c
        value := front ++ '\x00' :: back
        nextToken := some strToken.nextStartPos
        nextStartPos := i + 1 }) := by
  rw [scanToken, matchDelims_end hvalue hi hc hnul htoken, Option.bind_some, if_pos rfl]

end token

/-! ### What lies ahead -/

/-- The text that lies ahead. -/
def TokenAhead.text (ahead : TokenAhead) : CString :=
  ahead.token ++ ahead.repToken.toList ++ ahead.rest

/-- How a token lies ahead of a text: delimiters are skipped, it is a run, and a delimiter ends it
or the end does. -/
structure IsAhead (delim text skipped : CString) (ahead : TokenAhead) : Prop where
  text_eq : text = skipped ++ ahead.text
  skipped : ∀ c ∈ skipped, c ∈ delim
  token_ne : ahead.token ≠ []
  token : ∀ c ∈ ahead.token, c ∉ delim
  repToken : ∀ d ∈ ahead.repToken, d ∈ delim
  rest : ahead.repToken = none → ahead.rest = []

namespace StringTokenizer

theorem lookAhead_cases (delim text : CString) :
    lookAhead delim text = none ∧ (∀ c ∈ text, c ∈ delim) ∨
      ∃ skipped ahead, lookAhead delim text = some ahead ∧ IsAhead delim text skipped ahead := by
  have hsplit := List.takeWhile_append_dropWhile (p := (delim.contains ·)) (l := text)
  have hskipped : ∀ c ∈ text.takeWhile (delim.contains ·), c ∈ delim := fun c hc ↦
    List.contains_iff_mem.mp (List.mem_takeWhile_imp hc)
  by_cases hstart : text.dropWhile (delim.contains ·) = []
  · refine Or.inl ⟨if_pos hstart, ?_⟩
    rw [hstart, List.append_nil] at hsplit
    rwa [hsplit] at hskipped
  · refine Or.inr ⟨text.takeWhile (delim.contains ·), _, if_neg hstart, ?_⟩
    obtain ⟨c, start, hcons⟩ := List.exists_cons_of_ne_nil hstart
    have hc : delim.contains c = false := by
      have hstop := List.head?_dropWhile_not (delim.contains ·) text
      rwa [hcons] at hstop
    have hbehind := List.head?_dropWhile_not (fun c ↦ !delim.contains c) (c :: start)
    rw [hcons] at hsplit ⊢
    refine ⟨?_, hskipped, ?_, fun d hd ↦ ?_, fun d hd ↦ ?_, fun hnone ↦ ?_⟩
    · have hrest : ∀ behind : CString, behind.head?.toList ++ behind.tail = behind := by
        rintro (- | ⟨d, behind⟩) <;> rfl
      rw [TokenAhead.text, List.append_assoc, hrest, List.takeWhile_append_dropWhile]
      exact hsplit.symm
    · rw [List.takeWhile_cons, hc]
      exact List.cons_ne_nil _ _
    · have hnot := List.mem_takeWhile_imp hd
      rw [Bool.not_eq_true'] at hnot
      exact fun hmem ↦ Bool.false_ne_true (hnot.symm.trans (List.contains_iff_mem.mpr hmem))
    · have hhead : ((c :: start).dropWhile fun c ↦ !delim.contains c).head? = some d := hd
      rw [hhead] at hbehind
      exact List.contains_iff_mem.mp (by simpa using hbehind)
    · rw [List.head?_eq_none_iff.mp hnone, List.tail_nil]

end StringTokenizer

namespace IsAhead

variable {delim text skipped : CString} {ahead : TokenAhead}

theorem rest_head (h : IsAhead delim text skipped ahead) :
    ∀ d ∈ (ahead.repToken.toList ++ ahead.rest).head?, delim.contains d = true := by
  intro d hd
  cases hrep : ahead.repToken with
  | none =>
    rw [hrep, h.rest hrep] at hd
    cases hd
  | some e =>
    rw [hrep] at hd
    obtain rfl := Option.some.inj hd
    exact List.contains_iff_mem.mpr (h.repToken _ hrep)

/-- What lies ahead is left from the first run on, and its token is that run. -/
theorem runSuffixes_eq (h : IsAhead delim text skipped ahead) :
    runSuffixes (delim.contains ·) false text =
        ahead.text :: runSuffixes (delim.contains ·) false ahead.rest ∧
      firstRun (delim.contains ·) ahead.text = ahead.token := by
  have htoken : ∀ c ∈ ahead.token, delim.contains c = false := fun c hc ↦
    Bool.eq_false_iff.mpr fun hmem ↦ h.token c hc (List.contains_iff_mem.mp hmem)
  have htail : (ahead.repToken.toList ++ ahead.rest).tail = ahead.rest := by
    cases hrep : ahead.repToken with
    | none => rw [h.rest hrep]; rfl
    | some d => rfl
  rw [h.text_eq, runSuffixes_append_of_delim fun c hc ↦
    List.contains_iff_mem.mpr (h.skipped c hc), TokenAhead.text, List.append_assoc,
    runSuffixes_of_run h.token_ne htoken h.rest_head, htail]
  exact ⟨rfl, firstRun_append htoken h.rest_head⟩

end IsAhead

/-- How a buffer stands for a token that lies ahead, behind the cells `front`. -/
structure Shows (delim : CString) (strToken : TokenizerBuffer) (front : List Char)
    (ahead : TokenAhead) : Prop where
  delim_eq : strToken.delim = delim
  value_eq : strToken.value = front ++ (ahead.token ++ '\x00' ::
    (if ahead.repToken.isSome = true then ahead.rest ++ ['\x00'] else []))
  nextToken : strToken.nextToken = some front.length
  repToken : strToken.repToken = ahead.repToken.getD '\x00'
  nextStartPos : strToken.nextStartPos + ahead.rest.length = strToken.lastPos + 1
  lastPos : strToken.lastPos + 2 = strToken.value.length
  hasNextTokens : strToken.hasNextTokens = true
  rest : ahead.repToken = none → ahead.rest = []
  nul : '\x00' ∉ ahead.text

/-- The tokenizer has this token ahead, or none. -/
def StandsFor (delim : CString) (strToken : TokenizerBuffer) : Option TokenAhead → Prop
  | none => strToken.hasNextTokens = false
  | some ahead => ∃ front, Shows delim strToken front ahead

/-- A state in which `nexttoken` scans a text behind the cells `front`. -/
structure Scans (delim : CString) (strToken : TokenizerBuffer) (front text : List Char) :
    Prop where
  delim_eq : strToken.delim = delim
  value_eq : ∃ back, strToken.value = front ++ (text ++ back) ∧ (text ≠ [] → back = ['\x00'])
  nextStartPos : text ≠ [] → strToken.nextStartPos = front.length
  turns : strToken.nextStartPos + text.length = strToken.lastPos + 1
  nul : '\x00' ∉ text

section tokens

variable {delim text front : CString} {strToken : TokenizerBuffer}

/-- The loop goes over the delimiters in front of a token and over its characters. -/
theorem IsAhead.scanToken_eq {skipped : CString} {ahead : TokenAhead}
    (h : IsAhead delim text skipped ahead) (hdelim : strToken.delim = delim)
    (hvalue : strToken.value = front ++ (text ++ ['\x00']))
    (hstart : strToken.nextStartPos = front.length) (hnext : strToken.hasNextTokens = false) :
    scanToken text.length front.length 0 strToken =
      scanToken (ahead.repToken.toList ++ ahead.rest).length
        (front ++ skipped ++ ahead.token).length ahead.token.length
        { strToken with nextStartPos := (front ++ skipped).length } := by
  have hlength : text.length = skipped.length +
      (ahead.token.length + (ahead.repToken.toList ++ ahead.rest).length) := by
    rw [h.text_eq, TokenAhead.text, List.append_assoc, List.length_append, List.length_append]
  have hcells : strToken.value = front ++ (skipped ++ (ahead.token ++
      (ahead.repToken.toList ++ ahead.rest ++ ['\x00']))) := by
    rw [hvalue, h.text_eq, TokenAhead.text]
    simp only [List.append_assoc]
  have hskip : ∀ c ∈ skipped, c ∈ strToken.delim := hdelim ▸ h.skipped
  have hrun : ∀ c ∈ ahead.token, c ∉ strToken.delim := hdelim ▸ h.token
  rw [hlength]
  refine (scanToken_skip hskip hcells rfl hstart hnext).trans ?_
  have hpos : front.length + skipped.length = (front ++ skipped).length :=
    List.length_append.symm
  rw [← List.append_assoc] at hcells
  rw [hpos]
  refine (@scanToken_run _ (ahead.repToken.toList ++ ahead.rest ++ ['\x00']) _ _ _ _ _ ?_ ?_ rfl
    ?_).trans ?_
  · exact hrun
  · exact hcells
  · exact hnext
  · rw [Nat.zero_add, ← List.length_append]

/-- The buffer when the text ends behind the token. -/
theorem IsAhead.shows_atEnd {skipped : CString} {ahead : TokenAhead}
    (h : IsAhead delim text skipped ahead) (hrep : ahead.repToken = none)
    (hdelim : strToken.delim = delim)
    (hcells : strToken.value = front ++ skipped ++ (ahead.token ++
      (ahead.repToken.toList ++ ahead.rest ++ ['\x00'])))
    (hlast : strToken.lastPos + 2 = strToken.value.length) (hnul : '\x00' ∉ ahead.text)
    (hnone : strToken.repToken = '\x00') :
    Shows delim { strToken with
      hasNextTokens := true
      nextToken := some (front ++ skipped).length
      nextStartPos := strToken.lastPos + 1 } (front ++ skipped) ahead := by
  rw [hrep, h.rest hrep] at hcells
  exact {
    delim_eq := hdelim
    value_eq := by rw [hrep]; exact hcells
    nextToken := rfl
    repToken := by rw [hrep]; exact hnone
    nextStartPos := by rw [h.rest hrep]; rfl
    lastPos := hlast
    hasNextTokens := rfl
    rest := h.rest
    nul := hnul }

/-- The buffer when a delimiter ends the token. -/
theorem IsAhead.shows_atDelim {skipped : CString} {ahead : TokenAhead} {d : Char}
    (h : IsAhead delim text skipped ahead) (hrep : ahead.repToken = some d)
    (hdelim : strToken.delim = delim)
    (hcells : strToken.value = front ++ skipped ++ ahead.token ++
      d :: (ahead.rest ++ ['\x00']))
    (hlast : strToken.lastPos + 2 = strToken.value.length) (hnul : '\x00' ∉ ahead.text) :
    Shows delim { strToken with
      hasNextTokens := true
      repToken := d
      value := front ++ skipped ++ ahead.token ++ '\x00' :: (ahead.rest ++ ['\x00'])
      nextToken := some (front ++ skipped).length
      nextStartPos := (front ++ skipped ++ ahead.token).length + 1 } (front ++ skipped) ahead := by
  have hsize : strToken.value.length =
      (front ++ skipped ++ ahead.token).length + (ahead.rest.length + 2) := by
    rw [hcells]
    simp only [List.length_append, List.length_cons, List.length_nil]
  exact {
    delim_eq := hdelim
    value_eq := by rw [hrep, Option.isSome_some, if_pos rfl, ← List.append_assoc]
    nextToken := rfl
    repToken := by rw [hrep]; rfl
    nextStartPos := by
      show (front ++ skipped ++ ahead.token).length + 1 + ahead.rest.length = strToken.lastPos + 1
      omega
    lastPos := by
      show strToken.lastPos + 2 = (front ++ skipped ++ ahead.token ++ '\x00' ::
        (ahead.rest ++ ['\x00'])).length
      rw [hlast, hsize]
      simp only [List.length_append, List.length_cons, List.length_nil]
    hasNextTokens := rfl
    rest := h.rest
    nul := hnul }

/-- The scan of a text with a token ahead. -/
theorem Scans.nextToken_of_isAhead (h : Scans delim strToken front text) (hnul : '\x00' ∉ delim)
    (hnil : text ≠ []) (hvalue : strToken.value = front ++ (text ++ ['\x00']))
    {skipped : CString} {ahead : TokenAhead} (ha : IsAhead delim text skipped ahead) :
    ∃ later, stringTokenizerNextToken strToken = some later ∧
      later.currToken = strToken.nextToken ∧ (∃ behind, later.value = front ++ behind) ∧
      StandsFor delim later (some ahead) := by
  have hturns : strToken.lastPos + 1 - strToken.nextStartPos = text.length := by
    rw [← h.turns, Nat.add_sub_cancel_left]
  have hscan := @IsAhead.scanToken_eq delim text front strToken.passOn skipped ahead ha
    h.delim_eq hvalue (h.nextStartPos hnil) rfl
  rw [stringTokenizerNextToken, hturns, h.nextStartPos hnil, hscan]
  have hpos : 0 < ahead.token.length := List.length_pos_iff.mpr ha.token_ne
  have hcells : strToken.value = front ++ skipped ++ (ahead.token ++
      (ahead.repToken.toList ++ ahead.rest ++ ['\x00'])) := by
    rw [hvalue, ha.text_eq, TokenAhead.text]
    simp only [List.append_assoc]
  have hnulText : '\x00' ∉ ahead.text := fun hmem ↦
    h.nul (ha.text_eq ▸ List.mem_append_right _ hmem)
  have hlast : strToken.lastPos + 2 = strToken.value.length := by
    have hturns := h.turns
    rw [h.nextStartPos hnil] at hturns
    rw [hvalue, List.length_append, List.length_append, List.length_singleton]
    omega
  cases hrep : ahead.repToken with
  | none =>
    rw [ha.rest hrep]
    simp only [Option.toList_none, List.append_nil, List.length_nil, scanToken, Option.map_some]
    rw [if_pos ⟨rfl, hpos⟩]
    exact ⟨_, rfl, rfl, ⟨_, hvalue⟩, front ++ skipped,
      @IsAhead.shows_atEnd delim text front strToken.passOn skipped ahead ha hrep h.delim_eq hcells
        hlast hnulText rfl⟩
  | some d =>
    rw [hrep, ← List.append_assoc] at hcells
    have hd : d ∈ strToken.delim := h.delim_eq ▸ ha.repToken d hrep
    have hend := @scanToken_end (front ++ skipped ++ ahead.token) (ahead.rest ++ ['\x00']) d
      (front ++ skipped ++ ahead.token).length ahead.token.length ahead.rest.length
      { strToken.passOn with nextStartPos := (front ++ skipped).length } hcells rfl hd
      (h.delim_eq ▸ hnul) hpos.ne'
    rw [Option.toList_some, List.singleton_append, List.length_cons, hend, Option.map_some,
      if_neg fun hnot ↦ Bool.false_ne_true hnot.1.symm]
    refine ⟨_, rfl, rfl, ⟨skipped ++ (ahead.token ++ '\x00' :: (ahead.rest ++ ['\x00'])), ?_⟩,
      front ++ skipped, @IsAhead.shows_atDelim delim text front strToken.passOn skipped ahead d ha
        hrep h.delim_eq hcells hlast hnulText⟩
    simp only [List.append_assoc]

/-- The next token is looked for in a text. -/
theorem Scans.nextToken (h : Scans delim strToken front text) (hnul : '\x00' ∉ delim) :
    ∃ later, stringTokenizerNextToken strToken = some later ∧
      later.currToken = strToken.nextToken ∧
      (∃ behind, later.value = front ++ behind) ∧
      StandsFor delim later (StringTokenizer.lookAhead delim text) := by
  have hturns : strToken.lastPos + 1 - strToken.nextStartPos = text.length := by
    rw [← h.turns, Nat.add_sub_cancel_left]
  obtain ⟨back, hvalue, hback⟩ := h.value_eq
  by_cases hnil : text = []
  · rw [stringTokenizerNextToken, hturns, hnil]
    exact ⟨_, rfl, rfl, ⟨_, hvalue⟩, rfl⟩
  rw [hback hnil] at hvalue
  rcases StringTokenizer.lookAhead_cases delim text with ⟨hnone, hall⟩ | ⟨skipped, ahead, hsome, ha⟩
  · have hscan : scanToken (text.length + 0) front.length 0 strToken.passOn =
        some (0, { strToken.passOn with nextStartPos := front.length + text.length }) :=
      scanToken_skip (h.delim_eq ▸ hall) hvalue rfl (h.nextStartPos hnil) rfl
    rw [Nat.add_zero] at hscan
    rw [stringTokenizerNextToken, hturns, h.nextStartPos hnil, hscan, hnone]
    exact ⟨_, rfl, rfl, ⟨_, hvalue⟩, rfl⟩
  · rw [hsome]
    exact h.nextToken_of_isAhead hnul hnil hvalue ha

/-- The text behind a token is looked through for the next one, and the token is returned. -/
theorem Shows.scans {ahead : TokenAhead} (h : Shows delim strToken front ahead) :
    Scans delim strToken (front ++ (ahead.token ++ ['\x00'])) ahead.rest := by
  have hlast := h.lastPos
  have hstart := h.nextStartPos
  have hvalue := h.value_eq
  refine ⟨h.delim_eq, ?_, fun hne ↦ ?_, hstart, fun hmem ↦ h.nul (List.mem_append_right _ hmem)⟩
  · cases hrep : ahead.repToken with
    | none =>
      rw [hrep] at hvalue
      refine ⟨[], ?_, fun hne ↦ absurd (h.rest hrep) hne⟩
      rw [h.rest hrep, List.append_nil, List.append_nil]
      exact hvalue
    | some d =>
      rw [hrep, Option.isSome_some, if_pos rfl] at hvalue
      refine ⟨['\x00'], ?_, fun _ ↦ rfl⟩
      rw [hvalue]
      simp only [List.append_assoc, List.singleton_append]
  · have hsome : ahead.repToken.isSome = true :=
      Option.isSome_iff_ne_none.mpr fun hnone ↦ hne (h.rest hnone)
    rw [hvalue, if_pos hsome] at hlast
    simp only [List.length_append, List.length_cons, List.length_nil] at hlast ⊢
    omega

/-- A string with its terminator behind the cells that a pointer skips. -/
theorem currText_append {token rest : List Char} (htoken : '\x00' ∉ token)
    (hvalue : strToken.value = front ++ (token ++ '\x00' :: rest))
    (hcurr : strToken.currToken = some front.length) : strToken.currText = some token := by
  have hdrop : strToken.value.drop front.length = token ++ '\x00' :: rest := by
    rw [hvalue, List.drop_left]
  rw [TokenizerBuffer.currText, hcurr, Option.bind_some, hdrop, markIndex_append htoken,
    Option.map_some, List.take_left]

/-- The whole rest is returned with the delimiter that the terminator was written over. -/
theorem Shows.nextAllToken {ahead : TokenAhead} (h : Shows delim strToken front ahead) :
    ∃ last, stringTokenizerNextAllToken strToken = some last ∧ last.currText = some ahead.text := by
  have hnul := h.nul
  rw [TokenAhead.text, List.append_assoc, List.mem_append, not_or] at hnul
  have hvalue := h.value_eq
  rw [← List.append_assoc] at hvalue
  have hstore : store strToken.value (front.length + ahead.token.length) strToken.repToken =
      some (front ++ ahead.token ++ strToken.repToken ::
        (if ahead.repToken.isSome = true then ahead.rest ++ ['\x00'] else [])) := by
    rw [hvalue]
    exact store_append List.length_append.symm
  have hdrop : strToken.value.drop front.length = ahead.token ++ '\x00' ::
      (if ahead.repToken.isSome = true then ahead.rest ++ ['\x00'] else []) := by
    rw [h.value_eq, List.drop_left]
  rw [stringTokenizerNextAllToken, h.nextToken, Option.bind_some, hdrop, markIndex_append hnul.1,
    Option.bind_some, hstore, Option.map_some]
  have hcells : front ++ ahead.token ++ strToken.repToken ::
      (if ahead.repToken.isSome = true then ahead.rest ++ ['\x00'] else []) =
        front ++ (ahead.text ++ ['\x00']) := by
    rw [h.repToken, TokenAhead.text]
    cases hrep : ahead.repToken with
    | none =>
      rw [h.rest hrep]
      simp
    | some d => simp
  exact ⟨_, rfl, currText_append h.nul hcells rfl⟩

/-- A token is returned while the next one is looked for behind it. -/
theorem Shows.takeToken {ahead : TokenAhead} (h : Shows delim strToken front ahead)
    (hnul : '\x00' ∉ delim) :
    ∃ later, stringTokenizerNextToken strToken = some later ∧
      later.currText = some ahead.token ∧
      StandsFor delim later (StringTokenizer.lookAhead delim ahead.rest) := by
  obtain ⟨later, hlater, hcurr, ⟨behind, hvalue⟩, hahead⟩ := h.scans.nextToken hnul
  have htoken : '\x00' ∉ ahead.token := fun hmem ↦
    h.nul (List.mem_append_left _ (List.mem_append_left _ hmem))
  have hcells : later.value = front ++ (ahead.token ++ '\x00' :: behind) := by
    rw [hvalue]
    simp only [List.append_assoc, List.singleton_append]
  exact ⟨later, hlater, currText_append htoken hcells (hcurr.trans h.nextToken), hahead⟩

end tokens

/-! ### Runs -/

/-- A run of calls that takes so many tokens of a text, and then, when there is a further one, the
rest: the tokens are the runs of the text in their order, and the rest is what is left of the text
from the next run on. -/
def TakesRuns (delim text : CString) (count : ℕ) (started : Option TokenizerBuffer) : Prop :=
  ∃ strToken, started.bind (takeTokens count) =
      some ((textRuns (delim.contains ·) text).take count, strToken) ∧
    (strToken.hasNextTokens = true ↔ count < (textRuns (delim.contains ·) text).length) ∧
    ∀ suffix, (runSuffixes (delim.contains ·) false text)[count]? = some suffix →
      ∃ last, stringTokenizerNextAllToken strToken = some last ∧ last.currText = some suffix

/-- A text of delimiters has no runs. -/
theorem takesRuns_of_delims {delim text : CString} {strToken : TokenizerBuffer}
    (hdelim : ∀ c ∈ text, c ∈ delim) (hnext : strToken.hasNextTokens = false) (count : ℕ) :
    TakesRuns delim text count (some strToken) := by
  have hnone : runSuffixes (delim.contains ·) false text = [] := by
    have hskip := runSuffixes_append_of_delim
      (fun c hc ↦ List.contains_iff_mem.mpr (hdelim c hc)) ([] : CString)
    rwa [List.append_nil] at hskip
  have htake : takeTokens count strToken = some ([], strToken) := by
    cases count with
    | zero => rfl
    | succ count => rw [takeTokens, if_pos hnext]
  rw [TakesRuns, textRuns, hnone]
  refine ⟨strToken, ?_, ?_, fun suffix hsuffix ↦ by cases hsuffix⟩
  · rw [Option.bind_some, htake, List.map_nil, List.take_nil]
  · rw [hnext, List.map_nil]
    exact iff_of_false Bool.false_ne_true (Nat.not_lt_zero count)

theorem StandsFor.takesRuns {delim text : CString} {strToken : TokenizerBuffer}
    (h : StandsFor delim strToken (StringTokenizer.lookAhead delim text)) (hnul : '\x00' ∉ delim)
    (count : ℕ) : TakesRuns delim text count (some strToken) := by
  induction count generalizing text strToken with
  | zero =>
    rcases StringTokenizer.lookAhead_cases delim text with
      ⟨hnone, hall⟩ | ⟨skipped, ahead, hsome, ha⟩
    · rw [hnone] at h
      exact takesRuns_of_delims hall h 0
    · rw [hsome] at h
      obtain ⟨front, hshows⟩ := h
      obtain ⟨hsuffixes, -⟩ := ha.runSuffixes_eq
      rw [TakesRuns, textRuns, hsuffixes]
      refine ⟨strToken, rfl, iff_of_true hshows.hasNextTokens (Nat.succ_pos _),
        fun suffix hsuffix ↦ ?_⟩
      obtain rfl := Option.some.inj hsuffix
      exact hshows.nextAllToken
  | succ count ih =>
    rcases StringTokenizer.lookAhead_cases delim text with
      ⟨hnone, hall⟩ | ⟨skipped, ahead, hsome, ha⟩
    · rw [hnone] at h
      exact takesRuns_of_delims hall h (count + 1)
    · rw [hsome] at h
      obtain ⟨front, hshows⟩ := h
      obtain ⟨hsuffixes, hrun⟩ := ha.runSuffixes_eq
      obtain ⟨later, hlater, htoken, hstands⟩ := hshows.takeToken hnul
      obtain ⟨last, htake, hmore, hrest⟩ := ih hstands
      have hruns : textRuns (delim.contains ·) text =
          ahead.token :: textRuns (delim.contains ·) ahead.rest := by
        rw [textRuns, hsuffixes, List.map_cons, hrun]
        rfl
      have hgo : ¬ strToken.hasNextTokens = false := by
        rw [hshows.hasNextTokens]
        exact Bool.false_ne_true.symm
      rw [Option.bind_some] at htake
      rw [TakesRuns, hruns, hsuffixes]
      refine ⟨last, ?_, ?_, hrest⟩
      · rw [Option.bind_some, takeTokens, if_neg hgo, hlater, Option.bind_some, htoken,
          Option.bind_some, htake]
        rfl
      · rw [hmore, List.length_cons]
        exact Nat.succ_lt_succ_iff.symm

/-- A new tokenizer has the first token ahead. -/
theorem exists_stringTokenizerNew {value delim : CString} (hvalue : '\x00' ∉ value)
    (hdelim : '\x00' ∉ delim) :
    ∃ strToken, stringTokenizerNew value delim = some strToken ∧
      StandsFor delim strToken (StringTokenizer.new value delim).ahead := by
  by_cases hnil : value = []
  · rw [hnil]
    exact ⟨_, rfl, rfl⟩
  · have hpos : 0 < value.length := List.length_pos_iff.mpr hnil
    have hscans : Scans delim
        ⟨value ++ ['\x00'], delim, 0, if value.length = 0 then 0 else value.length - 1, none, none,
          '\x00', false⟩ [] value :=
      { delim_eq := rfl
        value_eq := ⟨['\x00'], rfl, fun _ ↦ rfl⟩
        nextStartPos := fun _ ↦ rfl
        turns := by
          rw [if_neg hpos.ne']
          show 0 + value.length = value.length - 1 + 1
          omega
        nul := hvalue }
    obtain ⟨strToken, hstarted, -, -, hstands⟩ := hscans.nextToken hdelim
    refine ⟨strToken, ?_, hstands⟩
    rw [stringTokenizerNew, if_pos hpos]
    exact hstarted

/-- The tokens that are taken from a string are its runs in their order, and the rest that is taken
after them is what is left of the string from the next run on. No access is outside the buffer. -/
theorem takeTokens_runs {value delim : CString} (hvalue : '\x00' ∉ value)
    (hdelim : '\x00' ∉ delim) (count : ℕ) :
    TakesRuns delim value count (stringTokenizerNew value delim) := by
  obtain ⟨strToken, hnew, hstands⟩ := exists_stringTokenizerNew hvalue hdelim
  rw [hnew]
  exact hstands.takesRuns hdelim count

/-- The method of a request line is taken, and then the rest of the line. -/
theorem takeTokens_runs_requestLine :
    TakesRuns " ".toList "GET /a  HTTP/1.1".toList 1
      (stringTokenizerNew "GET /a  HTTP/1.1".toList " ".toList) :=
  takeTokens_runs (by decide) (by decide) 1

end Mupnp.Util
