import Mathlib.Data.List.Basic
import Mathlib.Data.List.GetD
import Mathlib.Tactic.Common

/-!
# Replacing texts by a table

A table has patterns, none of them empty, and a text for each. `replacePass` replaces in a single
pass from left to right: at each position the first entry whose pattern is there is replaced and
passed over, and else a character is copied.

A run in turns goes through the entries in order instead: behind a match it tries the entries after
the one that matched, and only when none of these is there begins again with the first. Both are
scans that choose an entry at each position (`passChoice` and `turnChoice`). They make the same
steps unless an entry is overtaken (`scan_turnChoice_eq`): directly behind a match, an entry after
the one that matched is there, but also that one itself or one before it. If an entry is overtaken,
the scans differ (`exists_of_not_noOvertaking`).
-/

set_option autoImplicit false
set_option relaxedAutoImplicit false

namespace Mupnp.Foundation.TextReplacement

variable {α : Type*}

/-! ### Scans -/

/-- A step of a scan: a character is copied, or an entry is replaced. -/
inductive Step (α : Type*) where
  | copy (a : α)
  | use (entry : ℕ)
  deriving DecidableEq

/-- How an entry is chosen in front of a text, with the entry that was replaced right before. -/
abbrev Choice (α : Type*) := Option ℕ → List α → Option ℕ

/-- The steps of a scan with entries of given sizes. -/
def scan (choice : Choice α) (size : ℕ → ℕ) : (skip : ℕ) → Option ℕ → List α → List (Step α)
  | _, _, [] => []
  | skip + 1, last, _ :: rest => scan choice size skip last rest
  | 0, last, a :: rest =>
    match choice last (a :: rest) with
    | some entry => .use entry :: scan choice size (size entry - 1) (some entry) rest
    | none => .copy a :: scan choice size 0 none rest

/-- A condition on the positions of a scan and the entries replaced right before them. -/
def Along (choice : Choice α) (size : ℕ → ℕ) (P : Option ℕ → List α → Prop) :
    (skip : ℕ) → Option ℕ → List α → Prop
  | _, _, [] => True
  | skip + 1, last, _ :: rest => Along choice size P skip last rest
  | 0, last, a :: rest =>
    P last (a :: rest) ∧
      match choice last (a :: rest) with
      | some entry => Along choice size P (size entry - 1) (some entry) rest
      | none => Along choice size P 0 none rest

/-- What the steps of a scan write. -/
def render (replacements : List (List α)) (steps : List (Step α)) : List α :=
  steps.flatMap fun
    | .copy a => [a]
    | .use entry => replacements.getD entry []

section scans

variable {choice choice' : Choice α} {size : ℕ → ℕ} {P : Option ℕ → List α → Prop}

theorem scan_skip (skip : ℕ) (last : Option ℕ) (text : List α) :
    scan choice size skip last text = scan choice size 0 last (text.drop skip) := by
  induction text generalizing skip with
  | nil =>
    rw [List.drop_nil]
    cases skip <;> rfl
  | cons a rest ih =>
    cases skip with
    | zero => rfl
    | succ skip => exact ih skip

theorem along_skip (skip : ℕ) (last : Option ℕ) (text : List α) :
    Along choice size P skip last text ↔ Along choice size P 0 last (text.drop skip) := by
  induction text generalizing skip with
  | nil =>
    rw [List.drop_nil]
    cases skip <;> exact Iff.rfl
  | cons a rest ih =>
    cases skip with
    | zero => exact Iff.rfl
    | succ skip => exact ih skip

theorem scan_of_none {last : Option ℕ} {a : α} {rest : List α}
    (h : choice last (a :: rest) = none) :
    scan choice size 0 last (a :: rest) = .copy a :: scan choice size 0 none rest := by
  rw [scan, h]

/-- A scan depends on the entry replaced right before only by the next choice. -/
theorem scan_last {last last' : Option ℕ} {text : List α}
    (h : choice last text = choice last' text) :
    scan choice size 0 last text = scan choice size 0 last' text := by
  cases text with
  | nil => rfl
  | cons a rest => rw [scan, scan, h]

/-- An entry that is not empty is passed over. -/
theorem scan_of_some {last : Option ℕ} {text : List α} {entry : ℕ}
    (h : choice last text = some entry) (hsize : 0 < size entry) (hne : text ≠ []) :
    scan choice size 0 last text =
      .use entry :: scan choice size 0 (some entry) (text.drop (size entry)) := by
  obtain ⟨a, rest, rfl⟩ := List.exists_cons_of_ne_nil hne
  obtain ⟨count, hcount⟩ := Nat.exists_eq_succ_of_ne_zero (Nat.ne_of_gt hsize)
  rw [scan, h]
  dsimp only
  rw [scan_skip, hcount]
  rfl

theorem along_of_none {last : Option ℕ} {a : α} {rest : List α}
    (h : choice last (a :: rest) = none) :
    Along choice size P 0 last (a :: rest) ↔
      P last (a :: rest) ∧ Along choice size P 0 none rest := by
  rw [Along, h]

theorem along_of_some {last : Option ℕ} {text : List α} {entry : ℕ}
    (h : choice last text = some entry) (hsize : 0 < size entry) (hne : text ≠ []) :
    Along choice size P 0 last text ↔
      P last text ∧ Along choice size P 0 (some entry) (text.drop (size entry)) := by
  obtain ⟨a, rest, rfl⟩ := List.exists_cons_of_ne_nil hne
  obtain ⟨count, hcount⟩ := Nat.exists_eq_succ_of_ne_zero (Nat.ne_of_gt hsize)
  rw [Along, h]
  dsimp only
  rw [along_skip, hcount]
  exact Iff.rfl

/-- A condition that always holds is met along every scan. -/
theorem along_of_forall (h : ∀ last text, P last text) (skip : ℕ) (last : Option ℕ)
    (text : List α) : Along choice size P skip last text := by
  induction text generalizing skip last with
  | nil => cases skip <;> trivial
  | cons a rest ih =>
    cases skip with
    | succ skip => exact ih skip last
    | zero =>
      refine ⟨h last (a :: rest), ?_⟩
      cases choice last (a :: rest) with
      | none => exact ih 0 none
      | some entry => exact ih (size entry - 1) (some entry)

/-- Scans that choose alike along one of them make the same steps. -/
theorem scan_congr {skip : ℕ} {last : Option ℕ} {text : List α}
    (h : Along choice size (fun last text ↦ choice' last text = choice last text) skip last text) :
    scan choice' size skip last text = scan choice size skip last text := by
  induction text generalizing skip last with
  | nil => cases skip <;> rfl
  | cons a rest ih =>
    cases skip with
    | succ skip => exact ih h
    | zero =>
      rw [Along] at h
      obtain ⟨heq, hrest⟩ := h
      rw [scan, scan, heq]
      cases hchoice : choice last (a :: rest) with
      | none =>
        rw [hchoice] at hrest
        exact congrArg _ (ih hrest)
      | some entry =>
        rw [hchoice] at hrest
        exact congrArg _ (ih hrest)

end scans

variable [DecidableEq α]

/-! ### Passes and turns -/

/-- The pass over a text, after a number of characters that belong to a match. -/
def replaceFrom (table : List (List α × List α)) : (skip : ℕ) → List α → List α
  | _, [] => []
  | skip + 1, _ :: rest => replaceFrom table skip rest
  | 0, a :: rest =>
    match table.find? fun entry ↦ entry.1.isPrefixOf (a :: rest) with
    | some entry => entry.2 ++ replaceFrom table (entry.1.length - 1) rest
    | none => a :: replaceFrom table 0 rest

/-- The text after a single pass from left to right. -/
def replacePass (table : List (List α × List α)) (text : List α) : List α :=
  replaceFrom table 0 text

/-- The pattern of an entry is in front of a text. -/
def isMatch (patterns : List (List α)) (text : List α) (entry : ℕ) : Bool :=
  (patterns.getD entry []).isPrefixOf text

/-- The first entry from a bound on whose pattern is in front of a text. -/
def firstMatch (patterns : List (List α)) (bound : ℕ) (text : List α) : Option ℕ :=
  (List.range patterns.length).find? fun entry ↦
    decide (bound ≤ entry) && isMatch patterns text entry

/-- A pass takes the first entry that is there. -/
def passChoice (patterns : List (List α)) : Choice α := fun _ text ↦ firstMatch patterns 0 text

/-- A run in turns first looks behind the entry that it replaced right before. -/
def turnChoice (patterns : List (List α)) : Choice α
  | none, text => firstMatch patterns 0 text
  | some entry, text => (firstMatch patterns (entry + 1) text).or (firstMatch patterns 0 text)

/-- The size of an entry is the length of its pattern. -/
def size (patterns : List (List α)) (entry : ℕ) : ℕ := (patterns.getD entry []).length

/-- An entry is overtaken: behind the one that was replaced there is another one that matches, but
that one itself or one before it matches as well. -/
def Overtaken (patterns : List (List α)) (last : Option ℕ) (text : List α) : Prop :=
  ∃ entry, last = some entry ∧ (∃ other ≤ entry, isMatch patterns text other = true) ∧
    ∃ other < patterns.length, entry < other ∧ isMatch patterns text other = true

/-- No entry is overtaken along a pass over a text. -/
def NoOvertaking (patterns : List (List α)) (text : List α) : Prop :=
  Along (passChoice patterns) (size patterns) (fun last rest ↦ ¬ Overtaken patterns last rest) 0
    none text

section choices

variable {patterns : List (List α)} {text : List α}

theorem firstMatch_eq_some_iff {bound entry : ℕ} :
    firstMatch patterns bound text = some entry ↔
      entry < patterns.length ∧ bound ≤ entry ∧ isMatch patterns text entry = true ∧
        ∀ other < entry, bound ≤ other → isMatch patterns text other = false := by
  rw [firstMatch, List.find?_range_eq_some, Bool.and_eq_true, decide_eq_true_eq, List.mem_range]
  constructor
  · rintro ⟨⟨hbound, hmatch⟩, hentry, hfirst⟩
    refine ⟨hentry, hbound, hmatch, fun other hother hle ↦ ?_⟩
    have htest := hfirst other hother
    rw [decide_eq_true hle, Bool.true_and, Bool.not_eq_true'] at htest
    exact htest
  · rintro ⟨hentry, hbound, hmatch, hfirst⟩
    refine ⟨⟨hbound, hmatch⟩, hentry, fun other hother ↦ ?_⟩
    by_cases hle : bound ≤ other
    · rw [hfirst other hother hle, Bool.and_false]
      rfl
    · rw [decide_eq_false hle, Bool.false_and]
      rfl

theorem firstMatch_eq_none_iff {bound : ℕ} :
    firstMatch patterns bound text = none ↔
      ∀ entry < patterns.length, bound ≤ entry → isMatch patterns text entry = false := by
  rw [firstMatch, List.find?_range_eq_none]
  refine forall_congr' fun entry ↦ forall_congr' fun _ ↦ ?_
  by_cases hle : bound ≤ entry
  · simp [hle]
  · simp [hle]

/-- A run in turns chooses as a pass does unless an entry is overtaken. -/
theorem turnChoice_eq_passChoice_iff {last : Option ℕ} :
    turnChoice patterns last text = passChoice patterns last text ↔
      ¬ Overtaken patterns last text := by
  cases last with
  | none => exact iff_of_true rfl fun ⟨_, hlast, _⟩ ↦ Option.some_ne_none _ hlast.symm
  | some entry =>
    rw [turnChoice, passChoice]
    cases hbehind : firstMatch patterns (entry + 1) text with
    | none =>
      refine iff_of_true (Option.none_or ..) ?_
      rintro ⟨_, ⟨⟩, -, other, hother, hlt, hmatch⟩
      rw [firstMatch_eq_none_iff.mp hbehind other hother hlt] at hmatch
      exact Bool.false_ne_true hmatch
    | some next =>
      obtain ⟨hnext, hlt, hmatch, hfirst⟩ := firstMatch_eq_some_iff.mp hbehind
      rw [Option.some_or, eq_comm, firstMatch_eq_some_iff]
      constructor
      · rintro ⟨-, -, -, hnone⟩ ⟨_, ⟨⟩, ⟨other, hle, hother⟩, -⟩
        rw [hnone other (by omega) (Nat.zero_le other)] at hother
        exact Bool.false_ne_true hother
      · intro hovertaken
        refine ⟨hnext, Nat.zero_le next, hmatch, fun other hother _ ↦ ?_⟩
        by_cases hle : other ≤ entry
        · by_contra htrue
          exact hovertaken ⟨entry, rfl, ⟨other, hle, Bool.not_eq_false _ ▸ htrue⟩,
            next, hnext, hlt, hmatch⟩
        · exact hfirst other hother (by omega)

/-- A run in turns makes the steps of a pass when no entry is overtaken. -/
theorem scan_turnChoice_eq (h : NoOvertaking patterns text) :
    scan (turnChoice patterns) (size patterns) 0 none text =
      scan (passChoice patterns) (size patterns) 0 none text := by
  refine scan_congr ?_
  unfold NoOvertaking at h
  simp only [← turnChoice_eq_passChoice_iff] at h
  exact h

/-- Where no pattern begins with another one, none is overtaken. -/
theorem noOvertaking_of_pairwise
    (h : patterns.Pairwise fun pattern other ↦ ¬ pattern <+: other ∧ ¬ other <+: pattern)
    (text : List α) : NoOvertaking patterns text := by
  refine along_of_forall (fun last rest ↦ ?_) 0 none text
  rintro ⟨entry, -, ⟨other, hle, hother⟩, next, hnext, hlt, hmatch⟩
  have hotherLt : other < patterns.length := by omega
  rw [isMatch, List.getD_eq_getElem _ _ hotherLt, List.isPrefixOf_iff_prefix] at hother
  rw [isMatch, List.getD_eq_getElem _ _ hnext, List.isPrefixOf_iff_prefix] at hmatch
  have hfree := List.pairwise_iff_getElem.mp h other next hotherLt hnext (by omega)
  rcases List.prefix_or_prefix_of_prefix hother hmatch with hprefix | hprefix
  · exact hfree.1 hprefix
  · exact hfree.2 hprefix

/-- An entry that matches at the bound is the first. -/
theorem firstMatch_of_isMatch {bound : ℕ} (hbound : bound < patterns.length)
    (h : isMatch patterns text bound = true) : firstMatch patterns bound text = some bound :=
  firstMatch_eq_some_iff.mpr ⟨hbound, Nat.le_refl bound, h, fun _ hother hle ↦
    absurd hle (Nat.not_le.mpr hother)⟩

/-- An entry that does not match is not found. -/
theorem firstMatch_succ {bound : ℕ} (h : isMatch patterns text bound = false) :
    firstMatch patterns (bound + 1) text = firstMatch patterns bound text := by
  unfold firstMatch
  congr 1
  funext entry
  by_cases heq : entry = bound
  · rw [heq, h, Bool.and_false, Bool.and_false]
  · have hle : bound + 1 ≤ entry ↔ bound ≤ entry := by omega
    rw [decide_eq_decide.mpr hle]

theorem firstMatch_of_length_le {bound : ℕ} (h : patterns.length ≤ bound) :
    firstMatch patterns bound text = none :=
  firstMatch_eq_none_iff.mpr fun _ hentry hle ↦
    absurd (Nat.le_trans h hle) (Nat.not_le.mpr hentry)

omit [DecidableEq α] in
/-- An entry that matches is not empty. -/
theorem size_pos (hne : ∀ pattern ∈ patterns, pattern ≠ []) {entry : ℕ}
    (hentry : entry < patterns.length) : 0 < size patterns entry := by
  rw [size, List.getD_eq_getElem _ _ hentry]
  exact List.length_pos_of_ne_nil (hne _ (List.getElem_mem hentry))

/-- What is behind an entry that matches is shorter. -/
theorem length_drop_size_lt (hne : ∀ pattern ∈ patterns, pattern ≠ []) {bound entry : ℕ}
    (h : firstMatch patterns bound text = some entry) :
    (text.drop (size patterns entry)).length < text.length := by
  obtain ⟨hentry, -, hmatch, -⟩ := firstMatch_eq_some_iff.mp h
  have hpos := size_pos hne hentry
  have hle := (List.isPrefixOf_iff_prefix.mp hmatch).length_le
  rw [size] at hpos
  rw [List.length_drop, size]
  omega

theorem lt_of_turnChoice {last : Option ℕ} {entry : ℕ}
    (h : turnChoice patterns last text = some entry) : entry < patterns.length := by
  cases last with
  | none => exact (firstMatch_eq_some_iff.mp h).1
  | some before =>
    rcases Option.or_eq_some_iff.mp h with hbehind | ⟨-, hfirst⟩
    · exact (firstMatch_eq_some_iff.mp hbehind).1
    · exact (firstMatch_eq_some_iff.mp hfirst).1

/-- Where an entry is overtaken, a run in turns and a pass both replace, but not the same entry. -/
theorem Overtaken.choices {last : Option ℕ} (h : Overtaken patterns last text) :
    ∃ entry other, turnChoice patterns last text = some entry ∧
      passChoice patterns last text = some other ∧ entry ≠ other := by
  have hdiffer : turnChoice patterns last text ≠ passChoice patterns last text :=
    fun heq ↦ turnChoice_eq_passChoice_iff.mp heq h
  obtain ⟨before, rfl, -, next, hnext, hlt, hmatch⟩ := h
  cases hturn : firstMatch patterns (before + 1) text with
  | none =>
    rw [firstMatch_eq_none_iff.mp hturn next hnext hlt] at hmatch
    exact absurd hmatch Bool.false_ne_true
  | some entry =>
    cases hpass : firstMatch patterns 0 text with
    | none =>
      rw [firstMatch_eq_none_iff.mp hpass next hnext (Nat.zero_le next)] at hmatch
      exact absurd hmatch Bool.false_ne_true
    | some other =>
      have hchoice : turnChoice patterns (some before) text = some entry := by
        rw [turnChoice, hturn, Option.some_or]
      refine ⟨entry, other, hchoice, hpass, fun heq ↦ hdiffer ?_⟩
      rw [hchoice, passChoice, hpass, heq]

/-- Where an entry is overtaken along a pass, a run in turns makes the same steps up to a position
at which it replaces another entry. -/
theorem exists_steps_of_not_along (hne : ∀ pattern ∈ patterns, pattern ≠ []) {last : Option ℕ}
    (h : ¬ Along (passChoice patterns) (size patterns)
      (fun last rest ↦ ¬ Overtaken patterns last rest) 0 last text) :
    ∃ common entry other rest rest', entry < patterns.length ∧ other < patterns.length ∧
      entry ≠ other ∧
      scan (turnChoice patterns) (size patterns) 0 last text = common ++ .use entry :: rest ∧
      scan (passChoice patterns) (size patterns) 0 last text = common ++ .use other :: rest' := by
  induction hlength : text.length using Nat.strongRecOn generalizing text last with
  | ind length ih =>
    cases text with
    | nil => exact absurd trivial h
    | cons a rest =>
      have hcons := List.cons_ne_nil a rest
      by_cases hovertaken : Overtaken patterns last (a :: rest)
      · obtain ⟨entry, other, hturn, hpass, hdiffer⟩ := hovertaken.choices
        have hentry := lt_of_turnChoice hturn
        have hother := (firstMatch_eq_some_iff.mp hpass).1
        exact ⟨[], entry, other, _, _, hentry, hother, hdiffer,
          scan_of_some hturn (size_pos hne hentry) hcons,
          scan_of_some hpass (size_pos hne hother) hcons⟩
      · have hsame := turnChoice_eq_passChoice_iff.mpr hovertaken
        cases hpass : passChoice patterns last (a :: rest) with
        | none =>
          have hrest := fun hrest ↦ h ((along_of_none hpass).mpr ⟨hovertaken, hrest⟩)
          obtain ⟨common, entry, other, tail, tail', hentry, hother, hdiffer, hscan, hscan'⟩ :=
            ih rest.length (by rw [← hlength]; exact Nat.lt_succ_self _) hrest rfl
          refine ⟨.copy a :: common, entry, other, tail, tail', hentry, hother, hdiffer, ?_, ?_⟩
          · rw [scan_of_none (hsame.trans hpass), hscan]
            rfl
          · rw [scan_of_none hpass, hscan']
            rfl
        | some used =>
          have hused := size_pos hne (firstMatch_eq_some_iff.mp hpass).1
          have hrest := fun hrest ↦ h ((along_of_some hpass hused hcons).mpr ⟨hovertaken, hrest⟩)
          have hshort : ((a :: rest).drop (size patterns used)).length < length :=
            hlength ▸ length_drop_size_lt hne hpass
          obtain ⟨common, entry, other, tail, tail', hentry, hother, hdiffer, hscan, hscan'⟩ :=
            ih _ hshort hrest rfl
          refine ⟨.use used :: common, entry, other, tail, tail', hentry, hother, hdiffer, ?_, ?_⟩
          · rw [scan_of_some (hsame.trans hpass) hused hcons, hscan]
            rfl
          · rw [scan_of_some hpass hused hcons, hscan']
            rfl

/-- If an entry is overtaken, some texts for the patterns tell a run in turns from a pass. -/
theorem exists_of_not_noOvertaking {a b : α} (hab : a ≠ b)
    (hne : ∀ pattern ∈ patterns, pattern ≠ []) (h : ¬ NoOvertaking patterns text) :
    ∃ replacements : List (List α), replacements.length = patterns.length ∧
      render replacements (scan (turnChoice patterns) (size patterns) 0 none text) ≠ [] ∧
      render replacements (scan (passChoice patterns) (size patterns) 0 none text) ≠ [] ∧
      render replacements (scan (turnChoice patterns) (size patterns) 0 none text) ≠
        render replacements (scan (passChoice patterns) (size patterns) 0 none text) := by
  obtain ⟨common, entry, other, rest, rest', hentry, hother, hdiffer, hturn, hpass⟩ :=
    exists_steps_of_not_along hne h
  have hget : ∀ k < patterns.length,
      ((List.range patterns.length).map fun k ↦ if k = entry then [a] else [b]).getD k [] =
        if k = entry then [a] else [b] := by
    intro k hk
    simp [List.getD_eq_getElem?_getD, hk]
  refine ⟨(List.range patterns.length).map fun k ↦ if k = entry then [a] else [b], ?_, ?_⟩
  · rw [List.length_map, List.length_range]
  · rw [hturn, hpass]
    simp only [render, List.flatMap_append, List.flatMap_cons, hget entry hentry,
      hget other hother, if_pos, if_neg hdiffer.symm]
    refine ⟨?_, ?_, fun heq ↦ ?_⟩
    · exact List.append_ne_nil_of_right_ne_nil _ (List.cons_ne_nil _ _)
    · exact List.append_ne_nil_of_right_ne_nil _ (List.cons_ne_nil _ _)
    · exact hab (List.cons.inj (List.append_cancel_left heq)).1

end choices

/-! ### The pass as a scan -/

section pass

variable (table : List (List α × List α))

theorem find?_eq_none_of_firstMatch {text : List α}
    (h : firstMatch (table.map Prod.fst) 0 text = none) :
    table.find? (fun entry ↦ entry.1.isPrefixOf text) = none := by
  rw [firstMatch_eq_none_iff, List.length_map] at h
  refine List.find?_eq_none.mpr fun entry hmem ↦ ?_
  obtain ⟨k, hk, rfl⟩ := List.getElem_of_mem hmem
  have hfails := h k hk (Nat.zero_le k)
  rw [isMatch, List.getD_eq_getElem _ _ (by rwa [List.length_map]), List.getElem_map] at hfails
  rw [hfails]
  exact Bool.false_ne_true

theorem find?_eq_some_of_firstMatch {text : List α} {k : ℕ}
    (h : firstMatch (table.map Prod.fst) 0 text = some k) :
    ∃ entry, table.find? (fun entry ↦ entry.1.isPrefixOf text) = some entry ∧
      (table.map Prod.fst).getD k [] = entry.1 ∧ (table.map Prod.snd).getD k [] = entry.2 := by
  rw [firstMatch_eq_some_iff, List.length_map] at h
  obtain ⟨hk, -, hmatch, hfirst⟩ := h
  have hpattern : ∀ j (hj : j < table.length), (table.map Prod.fst).getD j [] = table[j].1 := by
    intro j hj
    rw [List.getD_eq_getElem _ _ (by rwa [List.length_map]), List.getElem_map]
  refine ⟨table[k], List.find?_eq_some_iff_getElem.mpr ⟨?_, k, hk, rfl, fun j hj ↦ ?_⟩,
    hpattern k hk, ?_⟩
  · rw [← hpattern k hk]
    exact hmatch
  · rw [← hpattern j (Nat.lt_trans hj hk), Bool.not_eq_true']
    exact hfirst j hj (Nat.zero_le j)
  · rw [List.getD_eq_getElem _ _ (by rwa [List.length_map]), List.getElem_map]

theorem replaceFrom_eq_render (skip : ℕ) (last : Option ℕ) (text : List α) :
    replaceFrom table skip text = render (table.map Prod.snd)
      (scan (passChoice (table.map Prod.fst)) (size (table.map Prod.fst)) skip last text) := by
  induction text generalizing skip last with
  | nil => cases skip <;> rfl
  | cons a rest ih =>
    cases skip with
    | succ skip => exact ih skip last
    | zero =>
      rw [replaceFrom, scan]
      cases hchoice : passChoice (table.map Prod.fst) last (a :: rest) with
      | none =>
        rw [find?_eq_none_of_firstMatch table hchoice]
        exact congrArg (List.cons a) (ih 0 none)
      | some k =>
        obtain ⟨entry, hfind, hpattern, hreplacement⟩ :=
          find?_eq_some_of_firstMatch table hchoice
        rw [hfind]
        dsimp only
        rw [ih _ (some k), size, hpattern, ← hreplacement]
        rfl

/-- A pass writes what the scan for its entries writes. -/
theorem replacePass_eq_render (text : List α) :
    replacePass table text = render (table.map Prod.snd)
      (scan (passChoice (table.map Prod.fst)) (size (table.map Prod.fst)) 0 none text) :=
  replaceFrom_eq_render table 0 none text

theorem replaceFrom_skip (skip : ℕ) (text : List α) :
    replaceFrom table skip text = replacePass table (text.drop skip) := by
  rw [replaceFrom_eq_render table skip none, scan_skip, replacePass_eq_render]

/-- Where an entry is the first that is there, the pass replaces it. -/
theorem replacePass_of_some {text : List α} {entry : List α × List α}
    (h : table.find? (fun entry ↦ entry.1.isPrefixOf text) = some entry) (hne : entry.1 ≠ []) :
    replacePass table text = entry.2 ++ replacePass table (text.drop entry.1.length) := by
  have hprefix : entry.1 <+: text :=
    List.isPrefixOf_iff_prefix.mp (List.find?_some (p := fun (entry : List α × List α) ↦
      entry.1.isPrefixOf text) h)
  obtain ⟨count, hcount⟩ := Nat.exists_eq_succ_of_ne_zero
    (Nat.ne_of_gt (List.length_pos_of_ne_nil hne))
  cases text with
  | nil => exact absurd (List.prefix_nil.mp hprefix) hne
  | cons a rest =>
    rw [replacePass, replaceFrom, h]
    dsimp only
    rw [replaceFrom_skip, hcount]
    rfl

/-- Where no entry is there, the pass copies a character. -/
theorem replacePass_of_none {a : α} {rest : List α}
    (h : table.find? (fun entry ↦ entry.1.isPrefixOf (a :: rest)) = none) :
    replacePass table (a :: rest) = a :: replacePass table rest := by
  rw [replacePass, replaceFrom, h]
  rfl

/-- A pass that replaces nothing by nothing leaves something of a text. -/
theorem replacePass_ne_nil (hne : ∀ entry ∈ table, entry.1 ≠ [] ∧ entry.2 ≠ []) {text : List α}
    (htext : text ≠ []) : replacePass table text ≠ [] := by
  obtain ⟨a, rest, rfl⟩ := List.exists_cons_of_ne_nil htext
  cases hfind : table.find? fun entry ↦ entry.1.isPrefixOf (a :: rest) with
  | none =>
    rw [replacePass_of_none table hfind]
    exact List.cons_ne_nil _ _
  | some entry =>
    obtain ⟨hpattern, hreplacement⟩ := hne entry (List.mem_of_find?_eq_some hfind)
    rw [replacePass_of_some table hfind hpattern]
    exact List.append_ne_nil_of_left_ne_nil hreplacement _

end pass

end Mupnp.Foundation.TextReplacement
