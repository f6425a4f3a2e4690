import Mupnp.Ssdp.UsnBuffer

/-!
# Trimming strings in place

`mupnp_strtrimwhite` and `mupnp_strtrim` of `util/string_function.c`, cell by cell. The memory that
they are given is the string and its terminator, so that a run with a result has not left them.

`mupnp_strtrim` trims every string with every set of delimiters (`trims_strtrimBuffer`).
`mupnp_strtrimwhite` takes one character off the length for every whitespace character of the
string, wherever it stands, and moves what is left by the leading ones without making it shorter
(`whiteText`). `trimsStrings_iff` says for which strings that is the trimmed string nevertheless.
-/

set_option autoImplicit false
set_option relaxedAutoImplicit false

namespace Mupnp.Util

open Foundation CellArray Ssdp

/-! ### Trimming whitespace -/

/-- The first loop of `mupnp_strtrimwhite`, down from an index: the length that is left. -/
def whiteLength (str : List Char) : ℕ → ℕ → Option ℕ
  | 0, strLen => some strLen
  | i + 1, strLen =>
    (load str i).bind fun c ↦ whiteLength str i (if isspace c then strLen - 1 else strLen)

/-- `mupnp_strtrimwhite`: the index that is returned, and the string. -/
def strtrimwhite (str : List Char) : Option (ℕ × List Char) :=
  (markIndex '\x00' str).bind fun length ↦
    if length = 0 then some (0, str)
    else
      (whiteLength str length length).bind fun strLen ↦
        (skipWhile isspace str strLen 0).bind fun i ↦
          (if 0 < i then move str 0 i (strLen - i) else some str).bind fun moved ↦
            (store moved strLen '\x00').map fun after ↦ (0, after)

/-- The string that `mupnp_strtrimwhite` leaves: as many characters as the string has that are no
whitespace, from the start of the string, are moved to the front by the leading whitespace. -/
def whiteText (text : CString) : CString :=
  let front := text.take (text.countP (!isspace ·))
  front.dropWhile isspace ++ front.drop (front.dropWhile isspace).length

/-! ### What is asked of a trimming function -/

/-- A trimming function, given a string, stays within it. It returns a pointer to the trimmed
string, and given that one, to the same string again. -/
def TrimsInPlace (p : Char → Bool) (trim : List Char → Option (ℕ × List Char))
    (text : CString) : Prop :=
  ∃ start after, trim (text ++ ['\x00']) = some (start, after) ∧
    after.length = text.length + 1 ∧ '\x00' ∈ after.drop start ∧
    IsTrimmed p text (upToMark '\x00' (after.drop start)) ∧
    ∃ start' after', trim (after.drop start) = some (start', after') ∧
      upToMark '\x00' (after'.drop start') = upToMark '\x00' (after.drop start)

/-- Both functions trim a string, the second one with every set of delimiters. -/
def TrimsStrings (text : CString) : Prop :=
  TrimsInPlace isspace strtrimwhite text ∧
    ∀ delim : CString, TrimsInPlace (delim.contains ·) (strtrimBuffer · delim) text

/-- There is whitespace only at the ends of a string, and the characters between, if there are any,
end twice with the same block, which is as long as the leading whitespace. -/
def TrimsEvenly (text : CString) : Prop :=
  ∃ lead body trail : CString, text = lead ++ (body ++ trail) ∧
    (∀ c ∈ lead, isspace c = true) ∧ (∀ c ∈ trail, isspace c = true) ∧
    (∀ c ∈ body, isspace c = false) ∧
    (body = [] ∨ ∃ front block, block.length = lead.length ∧ body = front ++ (block ++ block))

/-! ### The loops -/

theorem whiteLength_append (front back : List Char) {strLen : ℕ} :
    whiteLength (front ++ back) front.length strLen =
      some (strLen - front.countP isspace) := by
  induction front using List.reverseRecOn generalizing back strLen with
  | nil => rfl
  | append_singleton front c ih =>
    have hcells : front ++ [c] ++ back = front ++ c :: back := by
      rw [List.append_assoc, List.singleton_append]
    have hload : load (front ++ c :: back) front.length = some c := load_append rfl
    rw [List.length_append, List.length_singleton, whiteLength, hcells, hload, Option.bind_some, ih,
      List.countP_append, List.countP_singleton]
    by_cases hc : isspace c = true
    · rw [if_pos hc, if_pos hc, Nat.sub_sub, Nat.add_comm 1]
    · rw [if_neg hc, if_neg hc, Nat.add_zero]

theorem length_sub_countP (text : CString) :
    text.length - text.countP isspace = text.countP (!isspace ·) := by
  have hsum := List.length_eq_countP_add_countP isspace (l := text)
  have hnot : text.countP (fun c ↦ decide ¬ isspace c = true) = text.countP (!isspace ·) := by
    refine List.countP_congr fun c _ ↦ ?_
    simp
  omega

theorem length_whiteText (text : CString) :
    (whiteText text).length = text.countP (!isspace ·) := by
  have hle := List.countP_le_length (p := (!isspace ·)) (l := text)
  have hbody := List.length_dropWhile_le (p := isspace) (text.take (text.countP (!isspace ·)))
  rw [List.length_take_of_le hle] at hbody
  rw [whiteText, List.length_append, List.length_drop, List.length_take_of_le hle]
  omega

theorem mem_of_mem_whiteText {text : CString} {c : Char} (h : c ∈ whiteText text) : c ∈ text := by
  rcases List.mem_append.mp h with hbody | hrest
  · exact List.mem_of_mem_take ((List.dropWhile_suffix _).subset hbody)
  · exact List.mem_of_mem_take (List.mem_of_mem_drop hrest)

/-- Moving the characters behind leading whitespace to the front leaves the last ones where they
were. -/
theorem move_behind_lead (front back : List Char) :
    (if 0 < (front.takeWhile isspace).length then
        move (front ++ back) 0 (front.takeWhile isspace).length
          (front.length - (front.takeWhile isspace).length)
      else some (front ++ back)) =
      some (front.dropWhile isspace ++ front.drop (front.dropWhile isspace).length ++ back) := by
  have hsplit := List.takeWhile_append_dropWhile (p := isspace) (l := front)
  set lead := front.takeWhile isspace
  set body := front.dropWhile isspace
  have hsum : front.length = lead.length + body.length := by rw [← hsplit, List.length_append]
  split_ifs with hpos
  · have hmove := move_to_front lead body back
    rw [← List.append_assoc, hsplit, List.drop_append_of_le_length (by omega),
      ← List.append_assoc] at hmove
    rw [hsum, Nat.add_sub_cancel_left, hmove]
  · have hnil : lead = [] := List.eq_nil_of_length_eq_zero (Nat.eq_zero_of_not_pos hpos)
    rw [hnil, List.nil_append] at hsplit
    rw [hsplit, List.drop_length, List.append_nil]

/-- `mupnp_strtrimwhite` stays within the string, and leaves `whiteText` in it. -/
theorem strtrimwhite_append {text : CString} (htext : '\x00' ∉ text) (behind : List Char) :
    ∃ rest, strtrimwhite (text ++ '\x00' :: behind) = some (0, whiteText text ++ '\x00' :: rest) ∧
      (whiteText text ++ '\x00' :: rest).length = (text ++ '\x00' :: behind).length := by
  by_cases hempty : text = []
  · subst hempty
    exact ⟨behind, rfl, rfl⟩
  have hne : text.length ≠ 0 := mt List.eq_nil_of_length_eq_zero hempty
  have hlength := length_whiteText text
  have hcount := @whiteLength_append text ('\x00' :: behind) text.length
  rw [length_sub_countP] at hcount
  set strLen := text.countP (!isspace ·)
  have hfront : (text.take strLen).length = strLen := List.length_take_of_le List.countP_le_length
  obtain ⟨old, rest, hback⟩ : ∃ old rest, text.drop strLen ++ '\x00' :: behind = old :: rest :=
    List.exists_cons_of_ne_nil (by simp)
  have hcells : text ++ '\x00' :: behind = text.take strLen ++ old :: rest := by
    rw [← hback, ← List.append_assoc, List.take_append_drop]
  have hskip := skipWhile_front isspace (text.take strLen) (old :: rest)
  have hmove := move_behind_lead (text.take strLen) (old :: rest)
  rw [hfront] at hskip hmove
  refine ⟨rest, ?_, ?_⟩
  · rw [strtrimwhite, markIndex_append htext, Option.bind_some, if_neg hne, hcount,
      Option.bind_some, hcells, hskip, Option.bind_some, hmove, Option.bind_some]
    have hstore : store (whiteText text ++ old :: rest) strLen '\x00' =
        some (whiteText text ++ '\x00' :: rest) := store_append hlength.symm
    exact congrArg (Option.map fun after ↦ (0, after)) hstore
  · rw [hcells, List.length_append, List.length_append, hlength, hfront, List.length_cons,
      List.length_cons]

/-! ### Where whitespace is trimmed -/

section whitespace

variable {lead body trail : CString}

/-- Only the characters between the ends count. -/
theorem countP_between (hlead : ∀ c ∈ lead, isspace c = true)
    (htrail : ∀ c ∈ trail, isspace c = true) (body : CString) :
    (lead ++ (body ++ trail)).countP (!isspace ·) = body.countP (!isspace ·) := by
  have hnone : ∀ str : CString, (∀ c ∈ str, isspace c = true) → str.countP (!isspace ·) = 0 :=
    fun str hstr ↦ List.countP_eq_zero.mpr fun c hc ↦ by simp [hstr c hc]
  rw [List.countP_append, List.countP_append, hnone lead hlead, hnone trail htrail, Nat.zero_add,
    Nat.add_zero]

theorem countP_eq_length (hlead : ∀ c ∈ lead, isspace c = true)
    (htrail : ∀ c ∈ trail, isspace c = true) (hbody : ∀ c ∈ body, isspace c = false) :
    (lead ++ (body ++ trail)).countP (!isspace ·) = body.length := by
  rw [countP_between hlead htrail]
  exact List.countP_eq_length.mpr fun c hc ↦ by simp [hbody c hc]

/-- A trimmed string that is as long as the string has characters without whitespace has none. -/
theorem isspace_of_mem_whiteText (hlead : ∀ c ∈ lead, isspace c = true)
    (htrail : ∀ c ∈ trail, isspace c = true)
    (hcut : whiteText (lead ++ (body ++ trail)) = body) : ∀ c ∈ body, isspace c = false := by
  have hlength := length_whiteText (lead ++ (body ++ trail))
  rw [hcut, countP_between hlead htrail] at hlength
  intro c hc
  simpa using List.countP_eq_length.mp hlength.symm c hc

/-- The string is cut in front of the last block of the characters between. -/
theorem whiteText_of_block {front block : CString} (hlead : ∀ c ∈ lead, isspace c = true)
    (htrail : ∀ c ∈ trail, isspace c = true)
    (hbody : ∀ c ∈ front ++ (block ++ block), isspace c = false)
    (hblock : block.length = lead.length) :
    whiteText (lead ++ (front ++ (block ++ block) ++ trail)) = front ++ (block ++ block) := by
  have hcells : lead ++ (front ++ (block ++ block) ++ trail) =
      (lead ++ (front ++ block)) ++ (block ++ trail) := by
    simp only [List.append_assoc]
  have htake : (lead ++ (front ++ (block ++ block) ++ trail)).take
      (front ++ (block ++ block)).length = lead ++ (front ++ block) := by
    rw [hcells]
    refine List.take_left' ?_
    simp only [List.length_append]
    omega
  have hhead : ∀ c ∈ (front ++ block).head?, isspace c = false := by
    intro c hc
    refine hbody c ?_
    rw [← List.append_assoc]
    exact List.mem_append_left _ (List.mem_of_mem_head? hc)
  have hdrop : (lead ++ (front ++ block)).drop (front ++ block).length = block := by
    rw [← List.append_assoc]
    refine List.drop_left' ?_
    rw [List.length_append, List.length_append, hblock, Nat.add_comm]
  rw [whiteText, countP_eq_length hlead htrail hbody]
  rw [htake, dropWhile_append_of_head hlead hhead, hdrop, List.append_assoc]

/-- When the characters between have no whitespace and are what is left, they end with a block
twice. -/
theorem exists_block (hlead : ∀ c ∈ lead, isspace c = true)
    (htrail : ∀ c ∈ trail, isspace c = true) (hbody : ∀ c ∈ body, isspace c = false)
    (hne : body ≠ []) (hcut : whiteText (lead ++ (body ++ trail)) = body) :
    ∃ front block, block.length = lead.length ∧ body = front ++ (block ++ block) := by
  have hnone : ∀ c ∈ body, isspace c ≠ true := fun c hc ↦ by
    rw [hbody c hc]
    decide
  rw [whiteText, countP_eq_length hlead htrail hbody] at hcut
  have hcells : (lead ++ (body ++ trail)).take body.length = (lead ++ body).take body.length := by
    rw [← List.append_assoc, List.take_append_of_le_length]
    rw [List.length_append]
    omega
  rw [hcells, List.take_append] at hcut
  have hlt : lead.length < body.length := by
    by_contra hge
    rw [Nat.not_lt] at hge
    have hwhite : ∀ c ∈ lead.take body.length, isspace c = true :=
      fun c hc ↦ hlead c (List.mem_of_mem_take hc)
    rw [Nat.sub_eq_zero_of_le hge, List.take_zero, List.append_nil,
      List.dropWhile_eq_nil_iff.mpr hwhite, List.length_nil, List.drop_zero,
      List.nil_append] at hcut
    obtain ⟨c, hc⟩ := List.exists_mem_of_ne_nil body hne
    rw [← hcut] at hc
    exact hnone c (hcut ▸ hc) (hwhite c hc)
  set keep := body.length - lead.length with hkeep
  have hhead : ∀ c ∈ (body.take keep).head?, isspace c = false :=
    fun c hc ↦ hbody c (List.mem_of_mem_take (List.mem_of_mem_head? hc))
  have hlength : (body.take keep).length = keep := List.length_take_of_le (by omega)
  rw [List.take_of_length_le (Nat.le_of_lt hlt), dropWhile_append_of_head hlead hhead, hlength,
    List.drop_append] at hcut
  set kept := body.take keep
  set block := kept.drop (keep - lead.length)
  have hnil : lead.drop keep = [] := by
    by_contra hdrop
    obtain ⟨c, hc⟩ := List.exists_mem_of_ne_nil _ hdrop
    have hmem : c ∈ body := by
      rw [← hcut]
      exact List.mem_append_right _ (List.mem_append_left _ hc)
    exact hnone c hmem (hlead c (List.mem_of_mem_drop hc))
  have hle : lead.length ≤ keep := List.drop_eq_nil_iff.mp hnil
  have hsplit : kept.take (keep - lead.length) ++ block = kept := List.take_append_drop _ _
  refine ⟨kept.take (keep - lead.length), block, ?_, ?_⟩
  · rw [List.length_drop, hlength]
    omega
  · rw [← List.append_assoc, hsplit]
    rw [hnil, List.nil_append] at hcut
    exact hcut.symm

/-- What `mupnp_strtrimwhite` leaves is the trimmed string exactly when whitespace stands at the
ends only, and the characters between end evenly. -/
theorem isTrimmed_whiteText_iff (text : CString) :
    IsTrimmed isspace text (whiteText text) ↔ TrimsEvenly text := by
  constructor
  · intro h
    obtain ⟨lead, trail, hlead, htrail, htext⟩ := h.cut
    have hcut : whiteText (lead ++ (whiteText text ++ trail)) = whiteText text := by rw [← htext]
    have hbody := isspace_of_mem_whiteText hlead htrail hcut
    refine ⟨lead, whiteText text, trail, htext, hlead, htrail, hbody, ?_⟩
    by_cases hne : whiteText text = []
    · exact Or.inl hne
    · exact Or.inr (exists_block hlead htrail hbody hne hcut)
  · rintro ⟨lead, body, trail, rfl, hlead, htrail, hbody, hblock⟩
    have hcut : whiteText (lead ++ (body ++ trail)) = body := by
      rcases hblock with rfl | ⟨front, block, hlength, rfl⟩
      · refine List.eq_nil_of_length_eq_zero ?_
        rw [length_whiteText, countP_eq_length hlead htrail hbody, List.length_nil]
      · exact whiteText_of_block hlead htrail hbody hlength
    rw [hcut]
    exact isTrimmed_of_forall hlead htrail hbody

end whitespace

/-! ### Both functions -/

theorem trimsInPlace_strtrimwhite_iff {text : CString} (htext : '\x00' ∉ text) :
    TrimsInPlace isspace strtrimwhite text ↔ TrimsEvenly text := by
  have hresult : '\x00' ∉ whiteText text := fun hmem ↦ htext (mem_of_mem_whiteText hmem)
  obtain ⟨rest, hrun, hlength⟩ := strtrimwhite_append htext []
  rw [← isTrimmed_whiteText_iff]
  constructor
  · rintro ⟨start, after, hafter, -, -, htrimmed, -⟩
    rw [hrun] at hafter
    obtain ⟨rfl, rfl⟩ := Prod.mk.inj (Option.some.inj hafter)
    rwa [List.drop_zero, upToMark_append hresult] at htrimmed
  · intro htrimmed
    obtain ⟨lead, trail, hlead, htrail, hcut⟩ := htrimmed.cut
    have hbody := isspace_of_mem_whiteText hlead htrail (by rw [← hcut])
    have hself : whiteText (whiteText text) = whiteText text := by
      have hall := @whiteText_of_block [] [] (whiteText text) [] (List.forall_mem_nil _)
        (List.forall_mem_nil _) (by simpa using hbody) rfl
      simpa using hall
    obtain ⟨rest', hagain, -⟩ := strtrimwhite_append hresult rest
    rw [hself] at hagain
    refine ⟨0, _, hrun, ?_, ?_, ?_, 0, _, hagain, ?_⟩
    · rw [hlength, List.length_append, List.length_singleton]
    · exact List.mem_append_right _ List.mem_cons_self
    · rwa [List.drop_zero, upToMark_append hresult]
    · rw [List.drop_zero, List.drop_zero, upToMark_append hresult, upToMark_append hresult]

theorem isTrimmed_strtrim (text delim : CString) :
    IsTrimmed (delim.contains ·) text (strtrim text delim) := isTrimmed_trim _ text

/-- `mupnp_strtrim` stays within the string, and returns the trimmed string. -/
theorem strtrimBuffer_eq {text : CString} (htext : '\x00' ∉ text) (delim : CString)
    (behind : List Char) :
    ∃ start after rest, strtrimBuffer (text ++ '\x00' :: behind) delim = some (start, after) ∧
      after.length = (text ++ '\x00' :: behind).length ∧
      after.drop start = strtrim text delim ++ '\x00' :: rest := by
  obtain ⟨rest, htrim, hlength⟩ := @strtrimBuffer_append text delim htext behind
  have hdrop := @List.drop_left _ ((strrtrim text delim).takeWhile (delim.contains ·))
    ((strrtrim text delim).dropWhile (delim.contains ·))
  rw [List.takeWhile_append_dropWhile] at hdrop
  have hle := (List.takeWhile_prefix (delim.contains ·) (l := strrtrim text delim)).length_le
  refine ⟨_, _, rest, htrim, hlength, ?_⟩
  rw [List.drop_append_of_le_length hle, hdrop, (isTrimmed_strtrim text delim).eq_trim]
  rfl

/-- `mupnp_strtrim` trims every string with every set of delimiters. -/
theorem trims_strtrimBuffer {text : CString} (htext : '\x00' ∉ text) (delim : CString) :
    TrimsInPlace (delim.contains ·) (strtrimBuffer · delim) text := by
  have htrimmed := isTrimmed_strtrim text delim
  have hself := htrimmed.isTrimmed_self.unique (isTrimmed_strtrim (strtrim text delim) delim)
  obtain ⟨start, after, rest, hrun, hlength, hdrop⟩ := strtrimBuffer_eq htext delim []
  have hresult : '\x00' ∉ strtrim text delim := fun hmem ↦
    htext ((List.dropWhile_suffix _).subset ((List.rdropWhile_prefix _ _).subset hmem))
  obtain ⟨start', after', rest', hagain, -, hdrop'⟩ := strtrimBuffer_eq hresult delim rest
  rw [← hself] at hdrop'
  refine ⟨start, after, hrun, ?_, ?_, ?_, start', after', ?_, ?_⟩
  · rw [hlength, List.length_append, List.length_singleton]
  · rw [hdrop]
    exact List.mem_append_right _ List.mem_cons_self
  · rwa [hdrop, upToMark_append hresult]
  · rwa [hdrop]
  · rw [hdrop, hdrop', upToMark_append hresult, upToMark_append hresult]

/-- Both functions trim a string exactly when it has whitespace at its ends only, and the characters
between, if there are any, end twice with a block that is as long as the leading whitespace. -/
theorem trimsStrings_iff {text : CString} (htext : '\x00' ∉ text) :
    TrimsStrings text ↔ TrimsEvenly text := by
  rw [TrimsStrings, and_iff_left (trims_strtrimBuffer htext)]
  exact trimsInPlace_strtrimwhite_iff htext

/-- A leading blank, in front of a word that ends with the same character twice. -/
theorem trimsStrings_bee : TrimsStrings " bee\t".toList :=
  (trimsStrings_iff (by decide)).mpr ⟨[' '], "bee".toList, ['\t'], by decide, by decide, by decide,
    by decide, Or.inr ⟨['b'], ['e'], by decide, by decide⟩⟩

/-- A blank between two characters shortens the string. -/
theorem not_trimsStrings : ¬ ∀ text : CString, '\x00' ∉ text → TrimsStrings text := by
  intro h
  obtain ⟨⟨start, after, hrun, -, -, htrimmed, -⟩, -⟩ := h "a b".toList (by decide)
  have hafter : strtrimwhite ("a b".toList ++ ['\x00']) =
      some (0, ['a', ' ', '\x00', '\x00']) := by
    decide +kernel
  rw [hafter] at hrun
  obtain ⟨rfl, rfl⟩ := Prod.mk.inj (Option.some.inj hrun)
  have hlast := htrimmed.last ' ' (by decide)
  exact absurd hlast (by decide)

end Mupnp.Util
