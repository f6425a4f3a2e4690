import Mupnp.Foundation.ListCut
import Mupnp.Ssdp.SsdpPacket

/-!
# The lease time of an SSDP packet

A `CACHE-CONTROL` header is a list of directives between commas. `mupnp_ssdp_packet_getmaxage`
looks for `max-age` and then for the next `=`, whose distance from `max-age` it takes for its
distance from the start of the header. So it reads the number that stands in the header behind as
many characters as there are from `max-age` to the `=` (`getMaxAge_eq`). This is the number of the
directive when the header begins with `max-age` and the first `=` is that of the directive
(`getMaxAge_of_leads`); otherwise it ends before the directive's number, and does not depend on it
(`getMaxAge_eq_of_not_leads`).
-/

set_option autoImplicit false
set_option relaxedAutoImplicit false

namespace Mupnp.Ssdp

open Foundation Util

/-! ### Directives -/

/-- A directive of a `CACHE-CONTROL` header. -/
structure Directive where
  name : CString
  value : Option CString
  deriving DecidableEq

/-- Blanks that may stand around a comma or an `=`. -/
def IsBlanks (text : CString) : Prop := ∀ c ∈ text, c = ' ' ∨ c = '\t'

instance (text : CString) : Decidable (IsBlanks text) :=
  inferInstanceAs (Decidable (∀ c ∈ text, c = ' ' ∨ c = '\t'))

/-- A directive as it is written. -/
inductive Directive.HasText : Directive → CString → Prop
  | bare (name : CString) : HasText ⟨name, none⟩ name
  | valued (name value : CString) {before after : CString} (hbefore : IsBlanks before)
      (hafter : IsBlanks after) :
      HasText ⟨name, some value⟩ (name ++ before ++ '=' :: (after ++ value))

/-- The directives of a header as they are written. -/
inductive HasListText : List Directive → CString → Prop
  | single {directive : Directive} {text : CString} (hdirective : directive.HasText text) :
      HasListText [directive] text
  | cons {directive : Directive} {text before after behind : CString} {rest : List Directive}
      (hdirective : directive.HasText text) (hbefore : IsBlanks before) (hafter : IsBlanks after)
      (hrest : HasListText rest behind) :
      HasListText (directive :: rest) (text ++ before ++ ',' :: (after ++ behind))

/-- A decimal number. -/
def IsDecimal (text : CString) (n : ℤ) : Prop :=
  ∃ digits : CString, digits ≠ [] ∧ (∀ c ∈ digits, c.isDigit = true) ∧
    (text = digits ∧ n = digitsValue 0 digits ∨
      text = '-' :: digits ∧ n = -(digitsValue 0 digits : ℤ))

/-- The number of characters from the first `max-age` of a header to the next `=`, both included. -/
def maxAgeSpan (text : CString) : ℕ :=
  ((text.drop ((indexOf "max-age".toList text).getD 0)).takeWhile (· ≠ '=')).length + 1

/-- A header with a directive in it, in pieces: what stands in front of the directive, the blanks
around its `=`, and what stands behind its value, in whose place any other value can be written. -/
structure IsWrittenAround (front : List Directive) (name : CString) (back : List Directive)
    (before blanks blanks' behind : CString) : Prop where
  text : ∀ value, HasListText (front ++ ⟨name, some value⟩ :: back)
    (before ++ (name ++ (blanks ++ '=' :: (blanks' ++ (value ++ behind)))))
  blanks : IsBlanks blanks
  blanks' : IsBlanks blanks'
  behind : ∀ c ∈ behind.head?, c = ' ' ∨ c = '\t' ∨ c = ','
  front_nil : front = [] → before = []
  equal : '=' ∉ before ↔ ∀ directive ∈ front, directive.value = none ∧ '=' ∉ directive.name
  head : '=' ∉ before → ∀ directive ∈ front.head?,
    ("max-age".toList <+: before ++ "max-age".toList ↔ "max-age".toList <+: directive.name)

theorem IsBlanks.not_mem {text : CString} (h : IsBlanks text) {c : Char} (hc : c ≠ ' ' ∧ c ≠ '\t') :
    c ∉ text := by
  intro hmem
  rcases h c hmem with rfl | rfl
  · exact hc.1 rfl
  · exact hc.2 rfl

/-- The text of a directive has no `=` when the directive has no value and its name has none. -/
theorem Directive.HasText.equal {directive : Directive} {text : CString}
    (h : directive.HasText text) :
    ('=' ∉ text ↔ directive.value = none ∧ '=' ∉ directive.name) ∧
      ('=' ∉ text → text = directive.name) := by
  cases h with
  | bare name => exact ⟨⟨fun hnot ↦ ⟨rfl, hnot⟩, And.right⟩, fun _ ↦ rfl⟩
  | valued name value hbefore hafter =>
    refine ⟨⟨fun hnot ↦ absurd ?_ hnot, fun hvalue ↦ absurd hvalue.1 (Option.some_ne_none _)⟩,
      fun hnot ↦ absurd ?_ hnot⟩
    · simp
    · simp

/-- What a directive is separated from the next one by is no part of a word. -/
theorem prefix_append_separator_iff {word own between : CString} (hcomma : ',' ∉ word)
    (hblank : ' ' ∉ word) (htab : '\t' ∉ word) (hbetween : IsBlanks between) (later : CString) :
    word <+: own ++ between ++ ',' :: later ↔ word <+: own := by
  constructor
  · intro h
    rw [List.append_assoc] at h
    rcases List.prefix_or_prefix_of_prefix h (List.prefix_append own _) with hown | ⟨rest, rfl⟩
    · exact hown
    · have hrest := (List.prefix_append_right_inj own).mp h
      cases rest with
      | nil => rw [List.append_nil]
      | cons c rest =>
        have hc : c ∈ own ++ c :: rest := List.mem_append_right _ List.mem_cons_self
        cases between with
        | nil =>
          obtain rfl := (List.cons_prefix_cons.mp hrest).1
          exact absurd hc hcomma
        | cons d between =>
          rw [List.cons_append] at hrest
          obtain rfl := (List.cons_prefix_cons.mp hrest).1
          rcases hbetween c List.mem_cons_self with rfl | rfl
          · exact absurd hc hblank
          · exact absurd hc htab
  · intro h
    rw [List.append_assoc]
    exact h.trans (List.prefix_append _ _)

theorem IsBlanks.head_append_comma {between : CString} (h : IsBlanks between) (later : CString) :
    ∀ c ∈ (between ++ ',' :: later).head?, c = ' ' ∨ c = '\t' ∨ c = ',' := by
  intro c hc
  cases between with
  | nil => exact Or.inr (Or.inr (Option.some.inj hc).symm)
  | cons d between =>
    obtain rfl : d = c := Option.some.inj hc
    exact (h d List.mem_cons_self).imp_right Or.inl

/-- The directive is the first one. -/
theorem isWrittenAround_nil {back : List Directive} {name blanks blanks' behind : CString}
    (htext : ∀ value, HasListText (⟨name, some value⟩ :: back)
      (name ++ (blanks ++ '=' :: (blanks' ++ (value ++ behind)))))
    (hblanks : IsBlanks blanks) (hblanks' : IsBlanks blanks')
    (hbehind : ∀ c ∈ behind.head?, c = ' ' ∨ c = '\t' ∨ c = ',') :
    IsWrittenAround [] name back [] blanks blanks' behind where
  text := htext
  blanks := hblanks
  blanks' := hblanks'
  behind := hbehind
  front_nil _ := rfl
  equal := by simp
  head _ _ hmem := by cases hmem

/-- A directive stands in front of the ones in front. -/
theorem IsWrittenAround.cons {front back : List Directive} {directive : Directive}
    {name before blanks blanks' behind own between between' : CString}
    (h : IsWrittenAround front name back before blanks blanks' behind)
    (hdirective : directive.HasText own) (hbetween : IsBlanks between)
    (hbetween' : IsBlanks between') :
    IsWrittenAround (directive :: front) name back (own ++ between ++ ',' :: (between' ++ before))
      blanks blanks' behind := by
  obtain ⟨hequal, hname⟩ := hdirective.equal
  have hmem : '=' ∉ own ++ between ++ ',' :: (between' ++ before) ↔ '=' ∉ own ∧ '=' ∉ before := by
    have hnot := hbetween.not_mem (by decide : '=' ≠ ' ' ∧ '=' ≠ '\t')
    have hnot' := hbetween'.not_mem (by decide : '=' ≠ ' ' ∧ '=' ≠ '\t')
    simp [hnot, hnot']
  refine ⟨fun value ↦ ?_, h.blanks, h.blanks', h.behind,
    fun hnil ↦ absurd hnil (List.cons_ne_nil _ _), ?_, fun hnot d hd ↦ ?_⟩
  · have htext := HasListText.cons hdirective hbetween hbetween' (h.text value)
    simpa using htext
  · rw [hmem, h.equal, hequal, List.forall_mem_cons]
  · obtain rfl : directive = d := Option.some.inj hd
    rw [List.append_assoc, List.cons_append, prefix_append_separator_iff (by decide) (by decide)
      (by decide) hbetween, hname (hmem.mp hnot).1]

/-- Where a directive with a value stands in a header. -/
theorem exists_isWrittenAround {front back : List Directive} {name value text : CString}
    (h : HasListText (front ++ ⟨name, some value⟩ :: back) text) :
    ∃ before blanks blanks' behind,
      IsWrittenAround front name back before blanks blanks' behind ∧
        text = before ++ (name ++ (blanks ++ '=' :: (blanks' ++ (value ++ behind)))) := by
  induction front generalizing text with
  | nil =>
    rw [List.nil_append] at h
    cases h with
    | single hdirective =>
      cases hdirective with
      | @valued _ _ before after hbefore hafter =>
        refine ⟨[], before, after, [], isWrittenAround_nil (fun other ↦ ?_) hbefore hafter
          (fun c hc ↦ by cases hc), by simp⟩
        have htext := HasListText.single (Directive.HasText.valued name other hbefore hafter)
        simpa using htext
    | @cons _ _ between between' later _ hdirective hbetween hbetween' hrest =>
      cases hdirective with
      | @valued _ _ before after hbefore hafter =>
        refine ⟨[], before, after, between ++ ',' :: (between' ++ later),
          isWrittenAround_nil (fun other ↦ ?_) hbefore hafter (hbetween.head_append_comma _),
          by simp⟩
        have htext := HasListText.cons (Directive.HasText.valued name other hbefore hafter)
          hbetween hbetween' hrest
        simpa using htext
  | cons directive front ih =>
    rw [List.cons_append] at h
    cases hlist : front ++ ⟨name, some value⟩ :: back with
    | nil => exact absurd hlist (by simp)
    | cons next others =>
      rw [hlist] at h
      cases h with
      | @cons _ own between between' rest _ hdirective hbetween hbetween' hrest =>
        obtain ⟨before, blanks, blanks', behind, haround, heq⟩ := ih (hlist ▸ hrest)
        refine ⟨_, blanks, blanks', behind, haround.cons hdirective hbetween hbetween', ?_⟩
        rw [heq]
        simp

/-- Directives can be written. -/
theorem exists_hasListText (directive : Directive) (rest : List Directive) :
    ∃ text, HasListText (directive :: rest) text := by
  have hown : ∀ directive : Directive, ∃ text, directive.HasText text := by
    rintro ⟨name, value⟩
    cases value with
    | none => exact ⟨name, .bare name⟩
    | some value =>
      have hnone : IsBlanks [] := fun _ h ↦ absurd h List.not_mem_nil
      exact ⟨_, .valued name value hnone hnone⟩
  obtain ⟨text, htext⟩ := hown directive
  induction rest generalizing directive text with
  | nil => exact ⟨text, .single htext⟩
  | cons next rest ih =>
    obtain ⟨nextText, hnext⟩ := hown next
    obtain ⟨behind, hbehind⟩ := ih next nextText hnext
    have hnone : IsBlanks [] := fun _ h ↦ absurd h List.not_mem_nil
    exact ⟨_, .cons htext hnone hnone hbehind⟩

/-! ### What is read -/

namespace SsdpPacket

variable {ssdpPkt : SsdpPacket} {text : CString}

/-- The lease time is the number at the distance of the first `max-age` from the next `=`. -/
theorem getMaxAge_eq (hheader : ssdpPkt.getCacheControl = some text) {before blanks rest : CString}
    (htext : text = before ++ ("max-age".toList ++ (blanks ++ '=' :: rest))) :
    ssdpPkt.getMaxAge = atol (text.drop (maxAgeSpan text)) := by
  obtain ⟨position, hposition, hle⟩ :=
    @indexOf_le_length "max-age".toList before (blanks ++ '=' :: rest) (by decide)
  rw [← htext] at hposition
  obtain ⟨front, back, hsplit, hfront⟩ := exists_of_indexOf_eq_some hposition
  have hdrop : text.drop position = "max-age".toList ++ back := by
    rw [hsplit, List.append_assoc, ← hfront, List.drop_left]
  have hmem : '=' ∈ text.drop position := by
    rw [htext, List.drop_append_of_le_length hle]
    simp
  obtain ⟨span, behind, hspan, hnot⟩ := List.eq_append_cons_of_mem hmem
  have hpos : 0 < span.length := by
    cases span with
    | nil => exact absurd (List.cons.inj (hdrop.symm.trans hspan)).1 (by decide)
    | cons c span => exact Nat.succ_pos _
  have hstrstr : strstr (some text) (some "max-age".toList) = position := by
    simp only [strstr, hposition]
  have hequal : strstr (some (text.drop position)) (some "=".toList) = span.length := by
    rw [hspan]
    exact strstr_singleton_append hnot behind
  have hlength : maxAgeSpan text = span.length + 1 := by
    unfold maxAgeSpan
    rw [hposition, Option.getD_some, hspan, takeWhile_ne_append_cons hnot]
  unfold getMaxAge
  simp only [hheader, hstrstr, Int.toNat_natCast, hequal, hlength]
  rw [if_neg (by omega), if_neg (by omega)]
  rfl

/-- What stands in front of a `max-age` directive has no `=`, and the header begins with `max-age`. -/
def Leads (before : CString) : Prop :=
  '=' ∉ before ∧ "max-age".toList <+: before ++ "max-age".toList

theorem indexOf_eq_zero_iff {needle str : CString} : indexOf needle str = some 0 ↔ needle <+: str := by
  cases str with
  | nil =>
    rw [indexOf, List.prefix_nil]
    split_ifs with h <;> simp [h]
  | cons c rest =>
    rw [indexOf, ← List.isPrefixOf_iff_prefix]
    split_ifs with h
    · simp [h]
    · simp [h]

/-- The first place of a string, in front of one where it stands, does not depend on what follows. -/
theorem indexOf_append_congr (needle before after other : CString) :
    indexOf needle (before ++ (needle ++ after)) = indexOf needle (before ++ (needle ++ other)) := by
  induction before with
  | nil =>
    rw [List.nil_append, List.nil_append, indexOf_eq_zero_iff.mpr (List.prefix_append _ _),
      indexOf_eq_zero_iff.mpr (List.prefix_append _ _)]
  | cons c rest ih =>
    have hfront : ∀ behind, needle <+: c :: (rest ++ (needle ++ behind)) ↔
        needle <+: c :: (rest ++ needle) := by
      intro behind
      have hwhole : c :: (rest ++ needle) <+: c :: (rest ++ (needle ++ behind)) :=
        ⟨behind, by rw [List.cons_append, List.append_assoc]⟩
      refine ⟨fun hneedle ↦ List.prefix_of_prefix_length_le hneedle hwhole ?_,
        fun hneedle ↦ hneedle.trans hwhole⟩
      rw [List.length_cons, List.length_append]
      omega
    rw [List.cons_append, List.cons_append, indexOf, indexOf, ih]
    simp only [List.isPrefixOf_iff_prefix, hfront]

theorem takeWhile_ne_append (front tail : CString) :
    (front ++ '=' :: tail).takeWhile (· ≠ '=') = front.takeWhile (· ≠ '=') := by
  by_cases h : '=' ∈ front
  · obtain ⟨before, back, rfl, hbefore⟩ := List.eq_append_cons_of_mem h
    rw [List.append_assoc, List.cons_append, takeWhile_ne_append_cons hbefore,
      takeWhile_ne_append_cons hbefore]
  · rw [takeWhile_ne_append_cons h, takeWhile_ne_of_not_mem h]

/-- The first `max-age` and the `=` behind it stand in front of what follows the `=` of the
directive. -/
theorem exists_maxAgeSpan (before blanks : CString) (hnot : ¬ Leads before) :
    ∃ span ≤ (before ++ "max-age".toList ++ blanks).length, ∀ tail : CString,
      maxAgeSpan (before ++ ("max-age".toList ++ (blanks ++ '=' :: tail))) = span := by
  obtain ⟨position, hposition, hle⟩ :=
    @indexOf_le_length "max-age".toList before (blanks ++ '=' :: []) (by decide)
  have hlead : position ≤ (before ++ "max-age".toList ++ blanks).length := by
    rw [List.length_append, List.length_append]
    omega
  have hspan : ∀ tail : CString, maxAgeSpan (before ++ ("max-age".toList ++ (blanks ++ '=' :: tail))) =
      (((before ++ "max-age".toList ++ blanks).drop position).takeWhile (· ≠ '=')).length + 1 := by
    intro tail
    unfold maxAgeSpan
    rw [indexOf_append_congr "max-age".toList before _ (blanks ++ '=' :: []), hposition,
      Option.getD_some, ← List.append_assoc, ← List.append_assoc,
      List.drop_append_of_le_length hlead, takeWhile_ne_append]
  refine ⟨_, ?_, hspan⟩
  have hbound := (List.takeWhile_prefix (p := (· ≠ '='))
    (l := (before ++ "max-age".toList ++ blanks).drop position)).length_le
  rw [List.length_drop] at hbound
  cases position with
  | succ position => omega
  | zero =>
    have hprefix : "max-age".toList <+: before ++ "max-age".toList := by
      refine List.prefix_of_prefix_length_le (indexOf_eq_zero_iff.mp hposition) ?_ ?_
      · rw [← List.append_assoc]
        exact List.prefix_append _ _
      · rw [List.length_append]
        omega
    have hequal : '=' ∈ before := by
      by_contra hequal
      exact hnot ⟨hequal, hprefix⟩
    obtain ⟨front, back, rfl, hfront⟩ := List.eq_append_cons_of_mem hequal
    rw [List.drop_zero, List.append_assoc, List.append_assoc, List.cons_append,
      takeWhile_ne_append_cons hfront, List.length_append, List.length_cons]
    omega

/-- Then the number of the directive is read. -/
theorem getMaxAge_of_leads (hheader : ssdpPkt.getCacheControl = some text)
    {before blanks blanks' value behind : CString} {n : ℤ} (hleads : Leads before)
    (htext : text = before ++ ("max-age".toList ++ (blanks ++ '=' :: (blanks' ++ (value ++ behind)))))
    (hblanks : IsBlanks blanks) (hblanks' : IsBlanks blanks')
    (hbehind : ∀ c ∈ behind.head?, c = ' ' ∨ c = '\t' ∨ c = ',') (hvalue : IsDecimal value n)
    (hlong : IsLong n) : ssdpPkt.getMaxAge = n := by
  have hnot : '=' ∉ before ++ "max-age".toList ++ blanks := by
    rw [List.mem_append, List.mem_append, not_or, not_or]
    exact ⟨⟨hleads.1, by decide⟩, hblanks.not_mem (by decide)⟩
  have hwhole : text =
      before ++ "max-age".toList ++ blanks ++ '=' :: (blanks' ++ (value ++ behind)) := by
    rw [htext]
    simp only [List.append_assoc]
  have hindex : indexOf "max-age".toList text = some 0 := by
    rw [indexOf_eq_zero_iff, htext, ← List.append_assoc]
    exact hleads.2.trans (List.prefix_append _ _)
  have hspan : maxAgeSpan text = (before ++ "max-age".toList ++ blanks ++ ['=']).length := by
    unfold maxAgeSpan
    rw [hindex, Option.getD_some, List.drop_zero, hwhole, takeWhile_ne_append_cons hnot]
    exact (List.length_append.trans (congrArg _ List.length_singleton)).symm
  have hdrop : text.drop (maxAgeSpan text) = blanks' ++ (value ++ behind) := by
    have happend : text =
        before ++ "max-age".toList ++ blanks ++ ['='] ++ (blanks' ++ (value ++ behind)) := by
      rw [hwhole, List.append_assoc _ ['='], List.singleton_append]
    rw [hspan, happend, List.drop_left]
  obtain ⟨digits, hne, hdigits, hsign⟩ := hvalue
  have hdigit : ∀ c ∈ behind.head?, c.isDigit = false := by
    intro c hc
    rcases hbehind c hc with rfl | rfl | rfl <;> decide
  rw [getMaxAge_eq hheader htext, atol_eq_iff]
  refine ⟨blanks', value, behind, n, hdrop, fun c hc ↦ ?_, ⟨digits, hdigits, ?_⟩, hdigit, ?_, ?_⟩
  · rcases hblanks' c hc with rfl | rfl <;> decide
  · rcases hsign with ⟨rfl, rfl⟩ | ⟨rfl, rfl⟩
    · exact Or.inr ⟨Or.inr rfl, rfl⟩
    · exact Or.inl ⟨rfl, rfl⟩
  · rintro rfl
    rcases hsign with ⟨h, -⟩ | ⟨h, -⟩
    · exact absurd h.symm hne
    · exact absurd h.symm (List.cons_ne_nil _ _)
  · unfold IsLong at hlong
    omega

/-- Otherwise what is read does not depend on what stands behind the `=` of the directive. -/
theorem getMaxAge_eq_of_not_leads {other : SsdpPacket} {before blanks tail tail' : CString}
    (hnot : ¬ Leads before)
    (hheader : ssdpPkt.getCacheControl =
      some (before ++ ("max-age".toList ++ (blanks ++ '=' :: tail))))
    (hother : other.getCacheControl =
      some (before ++ ("max-age".toList ++ (blanks ++ '=' :: tail')))) :
    ssdpPkt.getMaxAge = other.getMaxAge := by
  rw [getMaxAge_eq hheader rfl, getMaxAge_eq hother rfl]
  obtain ⟨span, hle, hspan⟩ := exists_maxAgeSpan before blanks hnot
  have hdrop : ∀ tail : CString,
      (before ++ ("max-age".toList ++ (blanks ++ '=' :: tail))).drop span =
        (before ++ "max-age".toList ++ blanks).drop span ++ '=' :: tail := by
    intro tail
    rw [← List.drop_append_of_le_length hle]
    simp only [List.append_assoc]
  rw [hspan, hspan, hdrop, hdrop]
  exact atol_append_cons (by decide) _ _ _

/-! ### The condition on the directives -/

/-- The directives in front of another one have neither values nor `=` in their names, and the name
of the first one begins with `max-age`, if there is one. -/
structure LetsThrough (front : List Directive) : Prop where
  bare : ∀ directive ∈ front, directive.value = none ∧ '=' ∉ directive.name
  head : ∀ directive ∈ front.head?, "max-age".toList <+: directive.name

theorem leads_iff {front back : List Directive} {before blanks blanks' behind : CString}
    (h : IsWrittenAround front "max-age".toList back before blanks blanks' behind) :
    Leads before ↔ LetsThrough front := by
  cases front with
  | nil =>
    rw [h.front_nil rfl]
    exact iff_of_true ⟨List.not_mem_nil, List.prefix_refl _⟩
      ⟨fun _ hmem ↦ absurd hmem List.not_mem_nil, fun _ hmem ↦ by cases hmem⟩
  | cons directive rest =>
    constructor
    · rintro ⟨hequal, hprefix⟩
      refine ⟨h.equal.mp hequal, fun d hd ↦ (h.head hequal d hd).mp hprefix⟩
    · rintro ⟨hbare, hhead⟩
      have hequal := h.equal.mpr hbare
      exact ⟨hequal, (h.head hequal directive rfl).mpr (hhead directive rfl)⟩

/-- The packet has a lease time, and its expiration follows from it. -/
def IsLeasedFor (ssdpPkt : SsdpPacket) (n : ℤ) : Prop :=
  ssdpPkt.getMaxAge = n ∧ (0 < n → ssdpPkt.getExpiration = ssdpPkt.timeStamp + n)

theorem isLeasedFor_iff {n : ℤ} (h : ssdpPkt.getMaxAge = n) :
    ssdpPkt.IsLeasedFor n ↔ (0 < n → IsLong (ssdpPkt.timeStamp + n)) := by
  have hexpiration : 0 < n → ssdpPkt.getExpiration = longAdd ssdpPkt.timeStamp n := by
    intro hpos
    rw [getExpiration, h, if_neg (by omega)]
  constructor
  · rintro ⟨-, hsum⟩ hpos
    exact longAdd_eq_iff.mp ((hexpiration hpos).symm.trans (hsum hpos))
  · exact fun hlong ↦ ⟨h, fun hpos ↦ (hexpiration hpos).trans (longAdd_eq_iff.mpr (hlong hpos))⟩

/-- A packet with the header. -/
def leasePacket (cacheControl : CString) : SsdpPacket :=
  ⟨none, [⟨some "Cache-Control".toList, some cacheControl⟩], 0⟩

theorem getCacheControl_leasePacket (cacheControl : CString) :
    (leasePacket cacheControl).getCacheControl = some cacheControl := rfl

section Directives

variable {front back : List Directive} {value : CString}

/-- Behind directives that let it through, the number of the directive is the lease time. -/
theorem isLeasedFor_iff_of_letsThrough (hfront : LetsThrough front) {n : ℤ}
    (hheader : ssdpPkt.getCacheControl = some text)
    (htext : HasListText (front ++ ⟨"max-age".toList, some value⟩ :: back) text)
    (hvalue : IsDecimal value n) (hlong : IsLong n) :
    ssdpPkt.IsLeasedFor n ↔ (0 < n → IsLong (ssdpPkt.timeStamp + n)) := by
  obtain ⟨before, blanks, blanks', behind, haround, heq⟩ := exists_isWrittenAround htext
  exact isLeasedFor_iff (getMaxAge_of_leads hheader ((leads_iff haround).mpr hfront) heq
    haround.blanks haround.blanks' haround.behind hvalue hlong)

/-- Behind others, the value of the directive can be exchanged without a change. -/
theorem exists_getMaxAge_eq (hfront : ¬ LetsThrough front)
    (hheader : ssdpPkt.getCacheControl = some text)
    (htext : HasListText (front ++ ⟨"max-age".toList, some value⟩ :: back) text) :
    ∃ before behind, text = before ++ (value ++ behind) ∧
      ∀ (other : SsdpPacket) (value' : CString),
        other.getCacheControl = some (before ++ (value' ++ behind)) →
        HasListText (front ++ ⟨"max-age".toList, some value'⟩ :: back)
          (before ++ (value' ++ behind)) ∧ other.getMaxAge = ssdpPkt.getMaxAge := by
  obtain ⟨before, blanks, blanks', behind, haround, rfl⟩ := exists_isWrittenAround htext
  have hsplit : ∀ value : CString,
      before ++ ("max-age".toList ++ (blanks ++ '=' :: (blanks' ++ (value ++ behind)))) =
        (before ++ "max-age".toList ++ blanks ++ '=' :: blanks') ++ (value ++ behind) := by
    intro value
    simp only [List.append_assoc, List.cons_append]
  refine ⟨before ++ "max-age".toList ++ blanks ++ '=' :: blanks', behind, hsplit value,
    fun other value' hother ↦ ?_⟩
  rw [← hsplit] at hother ⊢
  exact ⟨haround.text value',
    getMaxAge_eq_of_not_leads (mt (leads_iff haround).mp hfront) hother hheader⟩

end Directives

/-- **Lease times.** The lease time of a packet is the number of its `max-age` directive, whatever
the number is, exactly when the directives in front of it let it through; its expiration follows
exactly when the sum is a `long`. Behind other directives all numbers give the same lease time. -/
theorem leaseTime_iff (front back : List Directive) :
    ((∀ (ssdpPkt : SsdpPacket) (text value : CString) (n : ℤ),
        ssdpPkt.getCacheControl = some text →
        HasListText (front ++ ⟨"max-age".toList, some value⟩ :: back) text → IsDecimal value n →
        IsLong n → (0 < n → IsLong (ssdpPkt.timeStamp + n)) → ssdpPkt.IsLeasedFor n) ↔
      LetsThrough front) ∧
    (LetsThrough front → ∀ (ssdpPkt : SsdpPacket) (text value : CString) (n : ℤ),
      ssdpPkt.getCacheControl = some text →
      HasListText (front ++ ⟨"max-age".toList, some value⟩ :: back) text → IsDecimal value n →
      IsLong n → (ssdpPkt.IsLeasedFor n ↔ (0 < n → IsLong (ssdpPkt.timeStamp + n)))) ∧
    (¬ LetsThrough front → ∀ (ssdpPkt : SsdpPacket) (text value : CString),
      ssdpPkt.getCacheControl = some text →
      HasListText (front ++ ⟨"max-age".toList, some value⟩ :: back) text →
      ∃ before behind, text = before ++ (value ++ behind) ∧
        ∀ (other : SsdpPacket) (value' : CString),
          other.getCacheControl = some (before ++ (value' ++ behind)) →
          HasListText (front ++ ⟨"max-age".toList, some value'⟩ :: back)
            (before ++ (value' ++ behind)) ∧ other.getMaxAge = ssdpPkt.getMaxAge) := by
  refine ⟨⟨fun hall ↦ ?_, fun hfront _ _ _ _ hheader htext hvalue hlong ↦
    (isLeasedFor_iff_of_letsThrough hfront hheader htext hvalue hlong).mpr⟩,
    fun hfront _ _ _ _ hheader htext hvalue hlong ↦
      isLeasedFor_iff_of_letsThrough hfront hheader htext hvalue hlong,
    fun hfront _ _ _ hheader htext ↦ exists_getMaxAge_eq hfront hheader htext⟩
  by_contra hfront
  obtain ⟨text, htext⟩ : ∃ text,
      HasListText (front ++ ⟨"max-age".toList, some "0".toList⟩ :: back) text := by
    cases front with
    | nil => exact exists_hasListText _ _
    | cons directive rest => exact exists_hasListText _ _
  -- The headers with the numbers zero and one have the same lease time.
  obtain ⟨before, behind, rfl, hsame⟩ :=
    @exists_getMaxAge_eq (leasePacket text) text front back _ hfront rfl htext
  obtain ⟨htext', hmaxAge⟩ := hsame (leasePacket (before ++ ("1".toList ++ behind))) "1".toList rfl
  have hzero := (hall _ _ _ 0 (getCacheControl_leasePacket _) htext
    ⟨"0".toList, by decide, by decide, Or.inl ⟨rfl, by decide⟩⟩ (by decide)
    fun _ ↦ (by decide : IsLong (0 + 0))).1
  have hone := (hall _ _ _ 1 (getCacheControl_leasePacket _) htext'
    ⟨"1".toList, by decide, by decide, Or.inl ⟨rfl, by decide⟩⟩ (by decide)
    fun _ ↦ (by decide : IsLong (0 + 1))).1
  rw [hmaxAge, hzero] at hone
  exact absurd hone (by decide)

/-- The directive is the first, and the lease time is kept. -/
theorem leaseTime_iff_first :
    (leasePacket "max-age = 1800, no-cache".toList).IsLeasedFor 1800 := by
  have htext : HasListText ([] ++ ⟨"max-age".toList, some "1800".toList⟩ ::
      [⟨"no-cache".toList, none⟩]) "max-age = 1800, no-cache".toList :=
    @HasListText.cons _ "max-age = 1800".toList [] " ".toList "no-cache".toList _
      (@Directive.HasText.valued _ "1800".toList " ".toList " ".toList (by decide) (by decide))
      (by decide) (by decide) (.single (.bare _))
  have hvalue : IsDecimal "1800".toList 1800 :=
    ⟨"1800".toList, by decide, by decide, Or.inl ⟨rfl, by decide⟩⟩
  have hfront : LetsThrough [] := ⟨by decide, fun _ hmem ↦ by cases hmem⟩
  exact ((leaseTime_iff [] [⟨"no-cache".toList, none⟩]).2.1 hfront _ _ _ 1800
    (getCacheControl_leasePacket _) htext hvalue (by decide)).mpr (by decide)

/-- The directive is not the first. -/
theorem not_leaseTime :
    ¬ ∀ (ssdpPkt : SsdpPacket) (text : CString) (front back : List Directive) (value : CString)
        (n : ℤ), ssdpPkt.getCacheControl = some text →
      HasListText (front ++ ⟨"max-age".toList, some value⟩ :: back) text → IsDecimal value n →
      IsLong n → ssdpPkt.IsLeasedFor n := by
  intro h
  have htext : HasListText ([⟨"no-cache".toList, none⟩] ++ ⟨"max-age".toList, some "1800".toList⟩ ::
      []) "no-cache, max-age=1800".toList :=
    @HasListText.cons _ "no-cache".toList [] " ".toList "max-age=1800".toList _ (.bare _)
      (by decide) (by decide)
      (.single (@Directive.HasText.valued _ "1800".toList [] [] (by decide) (by decide)))
  have hmaxAge := (h (leasePacket "no-cache, max-age=1800".toList) _ _ _ _ 1800
    (getCacheControl_leasePacket _) htext
    ⟨"1800".toList, by decide, by decide, Or.inl ⟨rfl, by decide⟩⟩ (by decide)).1
  exact absurd hmaxAge (by decide +kernel)

end SsdpPacket

end Mupnp.Ssdp
