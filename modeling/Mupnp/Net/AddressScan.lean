import Mupnp.Net.AuthorityScan

/-!
# Addresses in front of other text

What the scanner takes for the host, the port and the path of a text that need not be a URI, such
as several URIs behind one another: the text behind the first at sign has to start with the host
and the port, the path has to stand behind them, and only a query or a fragment may follow
(`setValue_readsAs_iff`).
-/

set_option autoImplicit false
set_option relaxedAutoImplicit false

namespace Mupnp.Net

open Foundation Util

/-- The characters of a path: the first one that ends it is a question mark or a number sign. -/
def isPathChar (c : Char) : Bool := decide (c ≠ '?' ∧ c ≠ '#')

/-- A text that starts with a host and a port in a spelling that is read as the given ones, and with
a path behind them. -/
def ReadsAs (scheme text host : CString) (port : ℤ) (path : CString) : Prop :=
  ∃ hostPort behind, text = hostPort ++ (path ++ behind) ∧ hostPort ≠ [] ∧ '/' ∉ hostPort ∧
    (∀ c ∈ behind.head?, isPathChar c = false) ∧
    decodeZone (splitPort (some scheme) (some hostPort)).1 = some host ∧
    (splitPort (some scheme) (some hostPort)).2 = port

/-! ### The path -/

theorem isPathChar_eq_false_iff {c : Char} : isPathChar c = false ↔ c = '?' ∨ c = '#' := by
  unfold isPathChar
  rw [decide_eq_false_iff_not, not_and_or, not_not, not_not]

/-- The path ends in front of the first question mark or number sign. -/
theorem readPath_eq (text : CString) : readPath text = text.takeWhile isPathChar := by
  by_cases hsharp : '#' ∈ text
  · obtain ⟨front, fragment, rfl, hfront⟩ := List.eq_append_cons_of_mem hsharp
    have hsharpIdx : strstr (some (front ++ '#' :: fragment)) (some "#".toList) = front.length :=
      strstr_singleton_append hfront fragment
    by_cases hquestion : '?' ∈ front
    · obtain ⟨path, query, rfl, hpath⟩ := List.eq_append_cons_of_mem hquestion
      have hquestionIdx : strstr (some (path ++ '?' :: query ++ '#' :: fragment))
          (some "?".toList) = path.length := by
        rw [List.append_assoc]
        exact strstr_singleton_append hpath _
      have hchars : ∀ c ∈ path, isPathChar c = true := by
        intro c hc
        rw [List.mem_append, not_or] at hfront
        rw [isPathChar, decide_eq_true_eq]
        exact ⟨ne_of_mem_of_not_mem hc hpath, ne_of_mem_of_not_mem hc hfront.1⟩
      rw [List.append_assoc, List.cons_append,
        takeWhile_append_of_head hchars fun c hc ↦ by
          rw [← Option.some.inj hc]
          decide]
      rw [List.append_assoc, List.cons_append] at hquestionIdx hsharpIdx
      unfold readPath
      simp only [hquestionIdx, hsharpIdx]
      rw [List.length_append, List.length_cons, if_pos ⟨by omega, Or.inr (by omega)⟩,
        Int.toNat_natCast, List.take_left]
    · have hchars : ∀ c ∈ front, isPathChar c = true := by
        intro c hc
        rw [isPathChar, decide_eq_true_eq]
        exact ⟨ne_of_mem_of_not_mem hc hquestion, ne_of_mem_of_not_mem hc hfront⟩
      have hbound : ¬ (0 ≤ strstr (some (front ++ '#' :: fragment)) (some "?".toList) ∧
          ((front.length : ℤ) < 0 ∨
            strstr (some (front ++ '#' :: fragment)) (some "?".toList) < front.length)) := by
        have hindex : strstr (some (front ++ '#' :: fragment)) (some "?".toList) = -1 ∨
            (front.length : ℤ) ≤ strstr (some (front ++ '#' :: fragment)) (some "?".toList) :=
          strstr_singleton_append_of_not_mem hquestion ('#' :: fragment)
        omega
      rw [takeWhile_append_of_head hchars fun c hc ↦ by
        rw [← Option.some.inj hc]
        decide]
      unfold readPath
      simp only [hsharpIdx]
      rw [if_neg hbound, if_pos (by omega), Int.toNat_natCast, List.take_left]
  · have hchars : ∀ c ∈ text.takeWhile (· ≠ '?'), isPathChar c = true := by
      intro c hc
      have hquestion : c ≠ '?' := by simpa using List.mem_takeWhile_imp hc
      rw [isPathChar, decide_eq_true_eq]
      exact ⟨hquestion, ne_of_mem_of_not_mem ((List.takeWhile_sublist _).mem hc) hsharp⟩
    have hstop : ∀ c ∈ (text.dropWhile (· ≠ '?')).head?, isPathChar c = false := by
      intro c hc
      have hnot := List.head?_dropWhile_not (· ≠ '?') text
      rw [hc] at hnot
      exact isPathChar_eq_false_iff.mpr (Or.inl (by simpa using hnot))
    have htake := takeWhile_append_of_head hchars hstop
    rw [List.takeWhile_append_dropWhile] at htake
    rw [readPath_eq_takeWhile hsharp, htake]

theorem readPath_eq_iff {text path : CString} (hpath : ∀ c ∈ path, isPathChar c = true) :
    readPath text = path ↔
      ∃ behind, text = path ++ behind ∧ ∀ c ∈ behind.head?, isPathChar c = false := by
  rw [readPath_eq]
  constructor
  · rintro rfl
    refine ⟨text.dropWhile isPathChar, List.takeWhile_append_dropWhile.symm, fun c hc ↦ ?_⟩
    have hstop := List.head?_dropWhile_not isPathChar text
    rw [hc] at hstop
    exact hstop
  · rintro ⟨behind, rfl, hbehind⟩
    exact takeWhile_append_of_head hpath hbehind

/-! ### The whole text -/

/-- The path that is read has neither a query nor a fragment. -/
theorem isPathChar_of_mem_path {scheme text path : CString} (hne : scheme ≠ [])
    (hcolon : ':' ∉ scheme)
    (hpath : (NetUri.setValue (scheme ++ ':' :: '/' :: '/' :: text)).path = some path) {c : Char}
    (hc : c ∈ path) : isPathChar c = true := by
  unfold NetUri.setValue at hpath
  simp only [readProtocol_scheme hne hcolon text, Option.isSome_some, if_true] at hpath
  rw [← Option.some.inj hpath, readPath_eq] at hc
  exact List.mem_takeWhile_imp hc

/-- The host, the port and the path that are read from a text with a scheme. -/
theorem setValue_readsAs_iff {scheme text host path : CString} {port : ℤ} (hne : scheme ≠ [])
    (hcolon : ':' ∉ scheme) (hslash : path.head? = some '/')
    (hpath : ∀ c ∈ path, isPathChar c = true) :
    ((NetUri.setValue (scheme ++ ':' :: '/' :: '/' :: text)).host = some host ∧
      (NetUri.setValue (scheme ++ ':' :: '/' :: '/' :: text)).port = port ∧
      (NetUri.setValue (scheme ++ ':' :: '/' :: '/' :: text)).path = some path) ↔
      ReadsAs scheme (readUser text).2.2 host port path := by
  obtain ⟨pathRest, hpathRest⟩ := List.head?_eq_some_iff.mp hslash
  unfold NetUri.setValue
  simp only [readProtocol_scheme hne hcolon text, Option.isSome_some, if_true]
  generalize (readUser text).2.2 = behindUser
  by_cases hhead : behindUser.head? = some '/'
  · obtain ⟨rest, rfl⟩ := List.head?_eq_some_iff.mp hhead
    rw [readHost_slash]
    refine iff_of_false ?_ ?_
    · rintro ⟨-, -, hread⟩
      have hnil : readPath [] = path := Option.some.inj hread
      rw [hpathRest, readPath_eq] at hnil
      cases hnil
    · rintro ⟨hostPort, behind, htext, hhost, hnot, -⟩
      cases hostPort with
      | nil => exact hhost rfl
      | cons c rest' =>
        obtain ⟨rfl, -⟩ := List.cons.inj htext
        exact hnot List.mem_cons_self
  · rw [readHost_absolute hhead]
    simp only [Option.some.injEq]
    rw [readPath_eq_iff hpath]
    constructor
    · rintro ⟨hhost, hport, behind, hleft, hbehind⟩
      refine ⟨behindUser.takeWhile (· ≠ '/'), behind, ?_, ?_, ?_, hbehind, hhost, hport⟩
      · rw [← hleft, List.takeWhile_append_dropWhile]
      · intro hnil
        have hall : behindUser = path ++ behind := by
          rw [← hleft, ← List.nil_append (behindUser.dropWhile _), ← hnil,
            List.takeWhile_append_dropWhile]
        rw [hall, hpathRest] at hhead
        exact hhead rfl
      · intro hmem
        have hne := List.mem_takeWhile_imp hmem
        simp at hne
    · rintro ⟨hostPort, behind, rfl, -, hnot, hbehind, hhost, hport⟩
      rw [hpathRest, List.cons_append, takeWhile_ne_append_cons hnot,
        dropWhile_ne_append_cons hnot]
      exact ⟨hhost, hport, behind, rfl, hbehind⟩

/-! ### Characters that stay in the host -/

/-- A character that does not stand behind the last colon stays in the host. -/
theorem mem_host_of_mem {before after host : CString} {c : Char} {protocol : Option CString}
    (hc : c ∉ "[]:25".toList) (hkeep : ':' ∉ before ∨ ':' ∈ after)
    (hhost : decodeZone (splitPort protocol (some (before ++ c :: after))).1 = some host) :
    c ∈ host := by
  simp only [show "[]:25".toList = ['[', ']', ':', '2', '5'] by decide, List.mem_cons,
    List.not_mem_nil, or_false, not_or] at hc
  obtain ⟨hopen, hclose, hcolon, htwo, hfive⟩ := hc
  suffices hsplit : ∃ name, (splitPort protocol (some (before ++ c :: after))).1 = some name ∧
      c ∈ name by
    obtain ⟨name, hname, hmem⟩ := hsplit
    obtain ⟨decoded, hdecoded, hdecodedMem⟩ := mem_decodeZone hmem htwo hfive
    rw [hname, hdecoded] at hhost
    rwa [← Option.some.inj hhost]
  by_cases hends : EndsWithPort (before ++ c :: after)
  · obtain ⟨name, digits, hname, hdigits, hbracket, hsplit⟩ := hends
    rw [hsplit, splitPort_append_port hname hdigits hbracket]
    refine ⟨_, rfl, mem_withoutBrackets ?_ hopen hclose⟩
    rcases List.append_eq_append_iff.mp hsplit with ⟨front, hfront, hback⟩ | ⟨front, hfront, hback⟩
    · cases front with
      | nil => exact absurd (List.cons.inj hback).1 hcolon
      | cons d front =>
        rw [(List.cons.inj hback).1, hfront]
        exact List.mem_append_right _ List.mem_cons_self
    · cases front with
      | nil => exact absurd (List.cons.inj hback).1.symm hcolon
      | cons d front =>
        obtain ⟨rfl, hrest⟩ := List.cons.inj hback
        rcases hkeep with hbefore | hafter
        · rw [hfront] at hbefore
          exact absurd (List.mem_append_right _ List.mem_cons_self) hbefore
        · rw [hrest] at hdigits
          exact absurd (List.mem_append_right _ (List.mem_cons_of_mem _ hafter)) hdigits
  · rw [splitPort_of_not_endsWithPort hends]
    exact ⟨_, rfl, List.mem_append_right _ List.mem_cons_self⟩

end Mupnp.Net
