import Mupnp.Foundation.TextReplacement
import Mupnp.Util.StringFunction

/-!
# Replacing strings by a table

`mupnp_string_replace` of `util/string.c`, which escaping in XML rests on. One turn of its loop
tries all entries of the table in order, and goes on behind a string that it found with the
entries after it. `Positioned.stringReplace` counts the position as the source does, in an `int`;
in `stringReplace` the position is the rest of the text, and has no bound. They agree below `2^31`
characters (`Positioned.stringReplace_of_fits`), from which length on the position overflows.

`stringReplace_eq` says what is written, and `replaces_in_one_pass` when this is the result of a
single pass from left to right. A result without characters is not stored, so that the string stays
as it was.
-/

set_option autoImplicit false
set_option relaxedAutoImplicit false

namespace Mupnp.Xml

open Foundation Foundation.TextReplacement Util

/-- How far a replacement has come: what is left of the text, what was written, and whether the
current turn of the outer loop has replaced something. -/
structure Replacement where
  left : CString
  repValue : Option CString
  isReplaced : Bool

/-- The inner loop. A string that is found is replaced at once, and the search goes on behind it
with the next string. -/
def replaceEach : List (CString × CString) → Replacement → Replacement
  | [], state => state
  | (fromStr, toStr) :: rest, state =>
    replaceEach rest
      (if fromStr.isPrefixOf state.left then
        ⟨state.left.drop fromStr.length, stringAddValue state.repValue (some toStr), true⟩
      else state)

/-- The outer loop, for at most `turns` turns. -/
def replaceLoop (strs : List (CString × CString)) : (turns : ℕ) → CString → Option CString →
    Option CString
  | 0, _, repValue => repValue
  | _ + 1, [], repValue => repValue
  | turns + 1, c :: rest, repValue =>
    let state := replaceEach strs ⟨c :: rest, repValue, false⟩
    if state.isReplaced then replaceLoop strs turns state.left state.repValue
    else replaceLoop strs turns rest (stringAddValue repValue (some [c]))

/-- `mupnp_string_replace` with a position that has no bound. Each turn of its loop reads a character
at least, as long as no string to be replaced is empty. -/
def stringReplace (str : Option CString) (strs : List (CString × CString)) : Option CString :=
  stringSetValue str (replaceLoop strs (stringLength str) (str.getD []) none)

/-! ### Turns as a scan -/

section turns

variable (strs : List (CString × CString))

/-- What the turns write for the rest of a text, behind the entry that was replaced right before. -/
def written (last : Option ℕ) (text : CString) : CString :=
  render (strs.map Prod.snd)
    (scan (turnChoice (strs.map Prod.fst)) (size (strs.map Prod.fst)) 0 last text)

/-- The rest of a turn goes to the next entry that matches. -/
theorem replaceEach_drop (bound : ℕ) (state : Replacement) :
    replaceEach (strs.drop bound) state =
      match firstMatch (strs.map Prod.fst) bound state.left with
      | none => state
      | some entry =>
        replaceEach (strs.drop (entry + 1))
          ⟨state.left.drop (size (strs.map Prod.fst) entry),
            stringAddValue state.repValue (some ((strs.map Prod.snd).getD entry [])), true⟩ := by
  induction hcount : strs.length - bound generalizing bound with
  | zero =>
    have hle : strs.length ≤ bound := by omega
    rw [List.drop_of_length_le hle, firstMatch_of_length_le (by rwa [List.length_map])]
    rfl
  | succ count ih =>
    have hbound : bound < strs.length := by omega
    have hmap : bound < (strs.map Prod.fst).length := by rwa [List.length_map]
    have hpattern : (strs.map Prod.fst).getD bound [] = strs[bound].1 := by
      rw [List.getD_eq_getElem _ _ hmap, List.getElem_map]
    have hreplacement : (strs.map Prod.snd).getD bound [] = strs[bound].2 := by
      rw [List.getD_eq_getElem _ _ (by rwa [List.length_map]), List.getElem_map]
    rw [List.drop_eq_getElem_cons hbound, replaceEach]
    by_cases hmatch : strs[bound].1.isPrefixOf state.left = true
    · have hfound : isMatch (strs.map Prod.fst) state.left bound = true := by
        rw [isMatch, hpattern]
        exact hmatch
      have hsize : size (strs.map Prod.fst) bound = strs[bound].1.length :=
        congrArg List.length hpattern
      rw [if_pos hmatch, firstMatch_of_isMatch hmap hfound]
      dsimp only
      rw [hsize, hreplacement]
    · have hmissing : isMatch (strs.map Prod.fst) state.left bound = false := by
        rw [isMatch, hpattern]
        exact Bool.eq_false_iff.mpr hmatch
      rw [if_neg hmatch, ih (bound + 1) (by omega), firstMatch_succ hmissing]

/-- A turn that has replaced something has done so at its end. -/
theorem isReplaced_replaceEach (state : Replacement) (h : state.isReplaced = true) :
    (replaceEach strs state).isReplaced = true := by
  induction strs generalizing state with
  | nil => exact h
  | cons str rest ih =>
    rw [replaceEach]
    apply ih
    split_ifs
    · rfl
    · exact h

/-- The loop writes what the scan writes, from the begin of a turn and from the middle of one. -/
structure TurnsWrite (text : CString) : Prop where
  begin : ∀ turns repValue, text.length ≤ turns →
    replaceLoop strs turns text repValue =
      stringAddValue repValue (some (written strs none text))
  middle : ∀ entry turns repValue, text.length ≤ turns →
    replaceLoop strs turns (replaceEach (strs.drop (entry + 1)) ⟨text, repValue, true⟩).left
        (replaceEach (strs.drop (entry + 1)) ⟨text, repValue, true⟩).repValue =
      stringAddValue repValue (some (written strs (some entry) text))

variable {strs}

theorem written_of_some (hne : ∀ pattern ∈ strs.map Prod.fst, pattern ≠ []) {last : Option ℕ}
    {text : CString} {entry : ℕ} (htext : text ≠ [])
    (h : turnChoice (strs.map Prod.fst) last text = some entry) :
    written strs last text = (strs.map Prod.snd).getD entry [] ++
      written strs (some entry) (text.drop (size (strs.map Prod.fst) entry)) := by
  rw [written, scan_of_some h (size_pos hne (lt_of_turnChoice h)) htext]
  rfl

theorem written_of_none {last : Option ℕ} {c : Char} {rest : CString}
    (h : turnChoice (strs.map Prod.fst) last (c :: rest) = none) :
    written strs last (c :: rest) = c :: written strs none rest := by
  rw [written, scan_of_none h]
  rfl

theorem replaceLoop_nil (turns : ℕ) (repValue : Option CString) :
    replaceLoop strs turns [] repValue = repValue := by
  cases turns with
  | zero => rfl
  | succ turns => rfl

theorem begin_of_shorter (hne : ∀ pattern ∈ strs.map Prod.fst, pattern ≠ []) {text : CString}
    (ih : ∀ rest : CString, rest.length < text.length → TurnsWrite strs rest) (turns : ℕ)
    (repValue : Option CString) (hturns : text.length ≤ turns) :
    replaceLoop strs turns text repValue =
      stringAddValue repValue (some (written strs none text)) := by
  cases text with
  | nil => exact replaceLoop_nil turns repValue
  | cons c rest =>
    obtain ⟨turns, rfl⟩ := Nat.exists_eq_succ_of_ne_zero
      (Nat.ne_of_gt (Nat.lt_of_lt_of_le (Nat.succ_pos rest.length) hturns))
    have hrest : rest.length ≤ turns := Nat.le_of_succ_le_succ hturns
    have hdrop := replaceEach_drop strs 0 ⟨c :: rest, repValue, false⟩
    rw [List.drop_zero] at hdrop
    rw [replaceLoop, hdrop]
    cases hchoice : firstMatch (strs.map Prod.fst) 0 (c :: rest) with
    | none =>
      have hturn : turnChoice (strs.map Prod.fst) none (c :: rest) = none := hchoice
      have hshort : rest.length < (c :: rest).length := Nat.lt_succ_self _
      dsimp only
      rw [if_neg Bool.false_ne_true, (ih rest hshort).begin turns _ hrest, stringAddValue_append,
        written_of_none hturn]
      rfl
    | some entry =>
      have hturn : turnChoice (strs.map Prod.fst) none (c :: rest) = some entry := hchoice
      have hshort := length_drop_size_lt hne hchoice
      have hturns' : ((c :: rest).drop (size (strs.map Prod.fst) entry)).length ≤ turns :=
        Nat.le_trans (Nat.le_of_lt_succ hshort) hrest
      dsimp only
      rw [if_pos (isReplaced_replaceEach _ _ rfl), (ih _ hshort).middle entry turns _ hturns',
        stringAddValue_append, written_of_some hne (List.cons_ne_nil c rest) hturn]

theorem middle_of_shorter (hne : ∀ pattern ∈ strs.map Prod.fst, pattern ≠ []) {text : CString}
    (ih : ∀ rest : CString, rest.length < text.length → TurnsWrite strs rest) (entry turns : ℕ)
    (repValue : Option CString) (hturns : text.length ≤ turns) :
    replaceLoop strs turns (replaceEach (strs.drop (entry + 1)) ⟨text, repValue, true⟩).left
        (replaceEach (strs.drop (entry + 1)) ⟨text, repValue, true⟩).repValue =
      stringAddValue repValue (some (written strs (some entry) text)) := by
  rw [replaceEach_drop]
  cases hchoice : firstMatch (strs.map Prod.fst) (entry + 1) text with
  | none =>
    have hsame : turnChoice (strs.map Prod.fst) (some entry) text =
        turnChoice (strs.map Prod.fst) none text := by
      change (firstMatch _ (entry + 1) text).or (firstMatch _ 0 text) = firstMatch _ 0 text
      rw [hchoice, Option.none_or]
    dsimp only
    rw [begin_of_shorter hne ih turns repValue hturns, written, written, scan_last hsame]
  | some next =>
    have hshort := length_drop_size_lt hne hchoice
    have htext : text ≠ [] :=
      List.ne_nil_of_length_pos (Nat.lt_of_le_of_lt (Nat.zero_le _) hshort)
    have hnext : turnChoice (strs.map Prod.fst) (some entry) text = some next := by
      rw [turnChoice, hchoice, Option.some_or]
    dsimp only
    rw [(ih _ hshort).middle next turns _ (Nat.le_trans (Nat.le_of_lt hshort) hturns),
      stringAddValue_append, written_of_some hne htext hnext]

theorem turnsWrite (hne : ∀ pattern ∈ strs.map Prod.fst, pattern ≠ []) (text : CString) :
    TurnsWrite strs text := by
  induction hlength : text.length using Nat.strongRecOn generalizing text with
  | ind length ih =>
    subst hlength
    have hshorter : ∀ rest : CString, rest.length < text.length → TurnsWrite strs rest :=
      fun rest hrest ↦ ih rest.length hrest rest rfl
    exact ⟨begin_of_shorter hne hshorter, middle_of_shorter hne hshorter⟩

/-- The string that is left: what the turns write, unless that is empty. -/
theorem stringReplace_eq (hne : ∀ pattern ∈ strs.map Prod.fst, pattern ≠ []) (text : CString) :
    stringReplace (some text) strs =
      if written strs none text = [] then some text else some (written strs none text) := by
  have hloop := (turnsWrite hne text).begin text.length none (Nat.le_refl _)
  rw [stringReplace, show stringLength (some text) = text.length from rfl, Option.getD_some, hloop]
  split_ifs with hnil
  · rw [hnil]
    rfl
  · rw [stringAddValue_of_ne_nil none hnil, stringSetValue_some]
    rfl

end turns

/-! ### The position -/

namespace Positioned

/-- How far `mupnp_string_replace` has come: the position, what was written, and whether the current
turn of the outer loop has replaced something. -/
structure Replacement where
  copyPos : ℕ
  repValue : Option CString
  isReplaced : Bool

/-- Moves the position on, which is an `int`: no result when it leaves the range of an `int`. -/
def Replacement.moveOn (state : Replacement) (count : ℕ) : Option Replacement :=
  if state.copyPos + count < 2 ^ 31 then some { state with copyPos := state.copyPos + count }
  else none

/-- The inner loop of `mupnp_string_replace`. -/
def replaceEach (orgValue : CString) : List (CString × CString) → Replacement → Option Replacement
  | [], state => some state
  | (fromStr, toStr) :: rest, state =>
    if fromStr.isPrefixOf (orgValue.drop state.copyPos) then
      (Replacement.moveOn ⟨state.copyPos, stringAddValue state.repValue (some toStr), true⟩
        fromStr.length).bind (replaceEach orgValue rest)
    else replaceEach orgValue rest state

/-- The outer loop of `mupnp_string_replace`, for at most `turns` turns. -/
def replaceLoop (orgValue : CString) (strs : List (CString × CString)) :
    (turns : ℕ) → Replacement → Option Replacement
  | 0, state => some state
  | turns + 1, state =>
    match orgValue.drop state.copyPos with
    | [] => some state
    | c :: _ =>
      (replaceEach orgValue strs { state with isReplaced := false }).bind fun tried ↦
        if tried.isReplaced then replaceLoop orgValue strs turns tried
        else
          (Replacement.moveOn ⟨state.copyPos, stringAddValue state.repValue (some [c]), false⟩
            1).bind (replaceLoop orgValue strs turns)

/-- `mupnp_string_replace`: no result when the position in the text, or the index of the tables,
leaves the range of an `int`. -/
def stringReplace (str : Option CString) (strs : List (CString × CString)) :
    Option (Option CString) :=
  if strs.length < 2 ^ 31 then
    (replaceLoop (str.getD []) strs (stringLength str) ⟨0, none, false⟩).map fun state ↦
      stringSetValue str state.repValue
  else none

section position

variable {orgValue : CString} {strs : List (CString × CString)} {state : Replacement}

/-- In a text of which every position fits an `int`, the inner loop is the one without a bound. -/
theorem exists_replaceEach (hfits : orgValue.length < 2 ^ 31)
    (hle : state.copyPos ≤ orgValue.length) :
    ∃ tried, replaceEach orgValue strs state = some tried ∧ tried.copyPos ≤ orgValue.length ∧
      Xml.replaceEach strs ⟨orgValue.drop state.copyPos, state.repValue, state.isReplaced⟩ =
        ⟨orgValue.drop tried.copyPos, tried.repValue, tried.isReplaced⟩ := by
  induction strs generalizing state with
  | nil => exact ⟨state, rfl, hle, rfl⟩
  | cons entry rest ih =>
    obtain ⟨fromStr, toStr⟩ := entry
    rw [replaceEach, Xml.replaceEach]
    split_ifs with hmatch
    · have hlength := (List.isPrefixOf_iff_prefix.mp hmatch).length_le
      rw [List.length_drop] at hlength
      rw [Replacement.moveOn, if_pos (by dsimp only; omega), Option.bind_some, List.drop_drop]
      exact ih (by dsimp only; omega)
    · exact ih hle

/-- In such a text, the outer loop is the one without a bound. -/
theorem exists_replaceLoop (hfits : orgValue.length < 2 ^ 31) (turns : ℕ)
    (hle : state.copyPos ≤ orgValue.length) :
    ∃ done, replaceLoop orgValue strs turns state = some done ∧
      done.repValue =
        Xml.replaceLoop strs turns (orgValue.drop state.copyPos) state.repValue := by
  induction turns generalizing state with
  | zero => exact ⟨state, rfl, rfl⟩
  | succ turns ih =>
    rw [replaceLoop]
    cases hleft : orgValue.drop state.copyPos with
    | nil => exact ⟨state, rfl, rfl⟩
    | cons c rest =>
      obtain ⟨tried, htried, hposition, heach⟩ := @exists_replaceEach orgValue strs
        { state with isReplaced := false } hfits hle
      dsimp only at heach ⊢
      rw [hleft] at heach
      rw [htried, Option.bind_some, Xml.replaceLoop, heach]
      dsimp only
      split_ifs with hreplaced
      · exact ih hposition
      · have hlt : state.copyPos < orgValue.length := by
          by_contra hge
          rw [List.drop_eq_nil_iff.mpr (by omega)] at hleft
          cases hleft
        have hrest : rest = orgValue.drop (state.copyPos + 1) := by
          rw [← List.drop_drop, hleft, List.drop_one, List.tail_cons]
        rw [Replacement.moveOn, if_pos (by dsimp only; omega), Option.bind_some, hrest]
        exact ih hlt

/-- A text in which every position fits an `int`, and tables with such indices. -/
def Fits (strs : List (CString × CString)) (text : CString) : Prop :=
  text.length < 2 ^ 31 ∧ strs.length < 2 ^ 31

theorem stringReplace_of_fits {text : CString} (h : Fits strs text) :
    stringReplace (some text) strs = some (Xml.stringReplace (some text) strs) := by
  obtain ⟨done, hdone, hvalue⟩ := @exists_replaceLoop text strs ⟨0, none, false⟩ h.1 text.length
    (Nat.zero_le _)
  rw [stringReplace, if_pos h.2, Xml.stringReplace, show stringLength (some text) = text.length
    from rfl, Option.getD_some, hdone, Option.map_some, hvalue]
  rfl

theorem moveOn_lt {count : ℕ} {moved : Replacement} (h : state.moveOn count = some moved) :
    moved.copyPos = state.copyPos + count ∧ moved.copyPos < 2 ^ 31 ∧
      moved.isReplaced = state.isReplaced := by
  unfold Replacement.moveOn at h
  split_ifs at h with hlt
  obtain rfl := Option.some.inj h
  exact ⟨rfl, hlt, rfl⟩

/-- The position stays an `int`, and it moves on with whatever is replaced. -/
theorem replaceEach_lt (hne : ∀ pattern ∈ strs.map Prod.fst, pattern ≠ []) {tried : Replacement}
    (h : replaceEach orgValue strs state = some tried) (hlt : state.copyPos < 2 ^ 31) :
    tried.copyPos < 2 ^ 31 ∧ state.copyPos ≤ tried.copyPos ∧
      (tried.isReplaced = true → state.isReplaced = true ∨ state.copyPos < tried.copyPos) := by
  induction strs generalizing state with
  | nil =>
    obtain rfl := Option.some.inj h
    exact ⟨hlt, Nat.le_refl _, Or.inl⟩
  | cons entry rest ih =>
    obtain ⟨fromStr, toStr⟩ := entry
    rw [List.map_cons, List.forall_mem_cons] at hne
    rw [replaceEach] at h
    split_ifs at h with hmatch
    · obtain ⟨moved, hmoved, hrest⟩ := Option.bind_eq_some_iff.mp h
      obtain ⟨hposition, hint, -⟩ := moveOn_lt hmoved
      obtain ⟨htried, hmore, -⟩ := ih hne.2 hrest hint
      have hlength := List.length_pos_iff.mpr hne.1
      dsimp only at hposition hlength
      exact ⟨htried, by omega, fun _ ↦ Or.inr (by omega)⟩
    · exact ih hne.2 h hlt

/-- A loop that ends has come to the end of the text. -/
theorem length_lt_of_replaceLoop (hne : ∀ pattern ∈ strs.map Prod.fst, pattern ≠ [])
    {turns : ℕ} {done : Replacement} (h : replaceLoop orgValue strs turns state = some done)
    (hlt : state.copyPos < 2 ^ 31) (hturns : orgValue.length ≤ state.copyPos + turns) :
    orgValue.length < 2 ^ 31 := by
  induction turns generalizing state with
  | zero => omega
  | succ turns ih =>
    rw [replaceLoop] at h
    cases hleft : orgValue.drop state.copyPos with
    | nil =>
      have hend := List.drop_eq_nil_iff.mp hleft
      omega
    | cons c rest =>
      rw [hleft] at h
      obtain ⟨tried, htried, hnext⟩ := Option.bind_eq_some_iff.mp h
      obtain ⟨hint, -, hmoves⟩ := replaceEach_lt hne htried hlt
      split_ifs at hnext with hreplaced
      · rcases hmoves hreplaced with hno | hfurther
        · cases hno
        · dsimp only at hfurther
          exact ih hnext hint (by omega)
      · obtain ⟨moved, hmoved, hlater⟩ := Option.bind_eq_some_iff.mp hnext
        obtain ⟨hposition, hint', -⟩ := moveOn_lt hmoved
        dsimp only at hposition
        exact ih hlater hint' (by omega)

/-- A replacement with a result is one in which nothing overflows. -/
theorem fits_of_stringReplace (hne : ∀ pattern ∈ strs.map Prod.fst, pattern ≠ [])
    {text : CString} {result : Option CString}
    (h : stringReplace (some text) strs = some result) : Fits strs text := by
  unfold stringReplace at h
  split_ifs at h with hstrs
  obtain ⟨done, hdone, -⟩ := Option.map_eq_some_iff.mp h
  exact ⟨length_lt_of_replaceLoop hne hdone (by decide) (Nat.le_of_eq (Nat.zero_add _).symm), hstrs⟩

end position

end Positioned

/-! ### A single pass -/

/-- The replacement leaves the result of a single pass. -/
def ReplacesInOnePass (strs : List (CString × CString)) (text : CString) : Prop :=
  Positioned.stringReplace (some text) strs = some (some (replacePass strs text))

section pass

variable {strs : List (CString × CString)} {text : CString}

theorem written_of_noOvertaking (h : NoOvertaking (strs.map Prod.fst) text) :
    written strs none text = replacePass strs text := by
  rw [written, scan_turnChoice_eq h, replacePass_eq_render]

/-- Where no entry is overtaken, a result that is not empty is the one of the pass. -/
theorem stringReplace_of_noOvertaking (hne : ∀ pattern ∈ strs.map Prod.fst, pattern ≠ [])
    (h : NoOvertaking (strs.map Prod.fst) text) (hnil : replacePass strs text = [] → text = []) :
    stringReplace (some text) strs = some (replacePass strs text) := by
  rw [stringReplace_eq hne, written_of_noOvertaking h]
  split_ifs with hempty
  · rw [hempty, hnil hempty]
  · rfl

theorem replacesInOnePass_iff (hne : ∀ pattern ∈ strs.map Prod.fst, pattern ≠ []) :
    ReplacesInOnePass strs text ↔
      Positioned.Fits strs text ∧ stringReplace (some text) strs = some (replacePass strs text) := by
  constructor
  · intro hreplaces
    have hfits := Positioned.fits_of_stringReplace hne hreplaces
    unfold ReplacesInOnePass at hreplaces
    rw [Positioned.stringReplace_of_fits hfits, Option.some.injEq] at hreplaces
    exact ⟨hfits, hreplaces⟩
  · rintro ⟨hfits, hreplaces⟩
    rw [ReplacesInOnePass, Positioned.stringReplace_of_fits hfits, hreplaces]

theorem length_eq_of_map_fst {other : List (CString × CString)}
    (hother : other.map Prod.fst = strs.map Prod.fst) : other.length = strs.length := by
  rw [← List.length_map Prod.fst, hother, List.length_map]

section forall_replacements

variable (hne : ∀ pattern ∈ strs.map Prod.fst, pattern ≠ [])
  (hall : ∀ other : List (CString × CString), other.map Prod.fst = strs.map Prod.fst →
    (replacePass other text = [] → text = []) → ReplacesInOnePass other text)
include hne hall

theorem fits_of_forall_replacesInOnePass : Positioned.Fits strs text := by
  -- The same patterns with replacements that are not empty.
  have hother : (strs.map fun entry ↦ (entry.1, ['a'])).map Prod.fst = strs.map Prod.fst := by
    rw [List.map_map]
    rfl
  have hresult : text ≠ [] →
      replacePass (strs.map fun entry ↦ (entry.1, ['a'])) text ≠ [] := by
    refine replacePass_ne_nil _ fun entry hentry ↦ ?_
    obtain ⟨pattern, hpattern, rfl⟩ := List.mem_map.mp hentry
    exact ⟨hne pattern.1 (List.mem_map_of_mem hpattern), List.cons_ne_nil _ _⟩
  have hreplaces := hall _ hother (not_imp_not.mp hresult)
  rw [replacesInOnePass_iff (by rwa [hother])] at hreplaces
  exact ⟨hreplaces.1.1, length_eq_of_map_fst hother ▸ hreplaces.1.2⟩

theorem noOvertaking_of_forall_replacesInOnePass : NoOvertaking (strs.map Prod.fst) text := by
  by_contra hpass
  obtain ⟨replacements, hlength, hturn, hnil, hdiffer⟩ :=
    exists_of_not_noOvertaking (by decide : 'a' ≠ 'b') hne hpass
  have hfst : ((strs.map Prod.fst).zip replacements).map Prod.fst = strs.map Prod.fst :=
    List.map_fst_zip (Nat.le_of_eq hlength.symm)
  have hsnd : ((strs.map Prod.fst).zip replacements).map Prod.snd = replacements :=
    List.map_snd_zip (Nat.le_of_eq hlength)
  have hresult : replacePass ((strs.map Prod.fst).zip replacements) text ≠ [] := by
    rw [replacePass_eq_render, hfst, hsnd]
    exact hnil
  have hreplaces := hall _ hfst fun hempty ↦ absurd hempty hresult
  rw [replacesInOnePass_iff (by rwa [hfst]), stringReplace_eq (by rwa [hfst]),
    replacePass_eq_render, written, hfst, hsnd, if_neg hturn] at hreplaces
  exact hdiffer (Option.some.inj hreplaces.2)

end forall_replacements

end pass

/-- The replacement is a single pass for all strings that the entries of a table can be replaced
with exactly when every position fits an `int` and no entry is overtaken; a result that becomes
empty is then the only exception. -/
theorem replaces_in_one_pass (strs : List (CString × CString)) (text : CString)
    (hne : ∀ pattern ∈ strs.map Prod.fst, pattern ≠ []) :
    ((∀ other : List (CString × CString), other.map Prod.fst = strs.map Prod.fst →
        (replacePass other text = [] → text = []) → ReplacesInOnePass other text) ↔
      Positioned.Fits strs text ∧ NoOvertaking (strs.map Prod.fst) text) ∧
    (NoOvertaking (strs.map Prod.fst) text →
      (ReplacesInOnePass strs text ↔
        Positioned.Fits strs text ∧ (replacePass strs text = [] → text = []))) := by
  constructor
  · constructor
    · exact fun hall ↦ ⟨fits_of_forall_replacesInOnePass hne hall,
        noOvertaking_of_forall_replacesInOnePass hne hall⟩
    · rintro ⟨hfits, hpass⟩ other hother hnil
      rw [← hother] at hpass hne
      have hfits' : Positioned.Fits other text :=
        ⟨hfits.1, by rw [length_eq_of_map_fst hother]; exact hfits.2⟩
      exact (replacesInOnePass_iff hne).mpr
        ⟨hfits', stringReplace_of_noOvertaking hne hpass hnil⟩
  · intro hpass
    rw [replacesInOnePass_iff hne]
    refine and_congr_right fun hfits ↦ ⟨fun hreplaces hnil ↦ ?_, fun hnil ↦
      stringReplace_of_noOvertaking hne hpass hnil⟩
    rw [stringReplace_eq hne, written_of_noOvertaking hpass, if_pos hnil, hnil] at hreplaces
    exact Option.some.inj hreplaces

/-- A table with an entry that overtakes: on `bbc`, a turn goes on behind the first `b` with `bc`.
-/
def overtaking : List (CString × CString) :=
  [("b".toList, "1".toList), ("bc".toList, "2".toList)]

theorem replaces_in_one_pass_overtaking :
    ((∀ other : List (CString × CString), other.map Prod.fst = overtaking.map Prod.fst →
        (replacePass other "bac".toList = [] → "bac".toList = []) →
        ReplacesInOnePass other "bac".toList) ↔
      Positioned.Fits overtaking "bac".toList ∧
        NoOvertaking (overtaking.map Prod.fst) "bac".toList) ∧
    (NoOvertaking (overtaking.map Prod.fst) "bac".toList →
      (ReplacesInOnePass overtaking "bac".toList ↔
        Positioned.Fits overtaking "bac".toList ∧
          (replacePass overtaking "bac".toList = [] → "bac".toList = []))) :=
  replaces_in_one_pass overtaking "bac".toList (by decide)

/-- An entry can be overtaken, and a result can be empty. -/
theorem not_replaces_in_one_pass :
    (∀ pattern ∈ overtaking.map Prod.fst, pattern ≠ []) ∧
      Positioned.stringReplace (some "bbc".toList) overtaking = some (some "12".toList) ∧
      replacePass overtaking "bbc".toList = "11c".toList ∧
      ¬ ReplacesInOnePass overtaking "bbc".toList ∧
      ¬ ReplacesInOnePass [("a".toList, [])] "a".toList := by
  refine ⟨by decide, by decide, by decide, ?_, ?_⟩
  · unfold ReplacesInOnePass
    decide
  · unfold ReplacesInOnePass
    decide

end Mupnp.Xml
