import Mathlib.Data.List.TakeWhile
import Mathlib.Tactic.Common
import Mupnp.Foundation.CharText
import Mupnp.Foundation.ListCut

/-!
# URIs and the resolution of references

URIs in the generic syntax, taken apart into their components, and the resolution of a reference
against a base. References that keep the scheme but give an authority of their own are left out, and
so are fragments.

The removal of dot segments leaves a path without them alone (`removeDotSegments_eq_self`), and
there are none behind it (`hasNoDotSegment_removeDotSegments`).
-/

set_option autoImplicit false
set_option relaxedAutoImplicit false

namespace Mupnp.Foundation

/-! ### Components and their text -/

/-- The characters that a URI is written with. -/
def isUriChar (c : Char) : Bool := c.isAlphanum || "-._~:/?#[]@!$&'()*+,;=%".toList.contains c

/-- A text of URI characters without the given delimiters. -/
def IsUriText (delims : String) (text : List Char) : Prop :=
  ∀ c ∈ text, isUriChar c = true ∧ c ∉ delims.toList

instance (delims : String) (text : List Char) : Decidable (IsUriText delims text) :=
  inferInstanceAs (Decidable (∀ c ∈ text, isUriChar c = true ∧ c ∉ delims.toList))

theorem IsUriText.not_mem {delims : String} {text : List Char} (h : IsUriText delims text)
    {c : Char}
    (hc : c ∈ delims.toList) : c ∉ text := fun hmem ↦ (h c hmem).2 hc

structure UriAuthority where
  userinfo : Option (List Char)
  host : List Char
  port : Option (List Char)
  deriving DecidableEq

structure Uri where
  scheme : List Char
  authority : Option UriAuthority
  path : List Char
  query : Option (List Char)
  deriving DecidableEq

/-- The port with its colon. -/
def portText (port : Option (List Char)) : List Char := port.elim [] (':' :: ·)

/-- The query with its question mark. -/
def queryText (query : Option (List Char)) : List Char := query.elim [] ('?' :: ·)

/-- The user information with its at sign. -/
def userinfoText (userinfo : Option (List Char)) : List Char := userinfo.elim [] (· ++ ['@'])

namespace UriAuthority

def text (authority : UriAuthority) : List Char :=
  userinfoText authority.userinfo ++ (authority.host ++ portText authority.port)

/-- A host is a name, or an address in brackets. -/
def IsHost (host : List Char) : Prop :=
  host ≠ [] ∧ IsUriText ":/?#[]@" host ∨
    ∃ address, host = '[' :: (address ++ [']']) ∧ IsUriText "/?#[]@%" address

structure IsWellFormed (authority : UriAuthority) : Prop where
  userinfo : ∀ userinfo ∈ authority.userinfo, IsUriText "/?#[]@" userinfo
  host : IsHost authority.host
  port : ∀ port ∈ authority.port, ∀ c ∈ port, c.isDigit = true

end UriAuthority

namespace Uri

def text (uri : Uri) : List Char :=
  uri.scheme ++ ':' ::
    (uri.authority.elim [] (fun authority ↦ '/' :: '/' :: authority.text) ++
      (uri.path ++ queryText uri.query))

/-- The path behind an authority is empty or starts with a slash; without an authority it does not
start with two. -/
structure IsWellFormed (uri : Uri) : Prop where
  scheme_ne_nil : uri.scheme ≠ []
  scheme : IsUriText ":/?#[]@" uri.scheme
  authority : ∀ authority ∈ uri.authority, authority.IsWellFormed
  path : IsUriText "?#[]" uri.path
  path_absolute : uri.authority.isSome = true → uri.path = [] ∨ uri.path.head? = some '/'
  path_opaque : uri.authority = none → ¬ ['/', '/'] <+: uri.path
  query : ∀ query ∈ uri.query, IsUriText "#[]" query

end Uri

/-- A reference: an absolute URI, or a path with a query. -/
inductive UriReference where
  | uri (target : Uri)
  | relative (path : List Char) (query : Option (List Char))
  deriving DecidableEq

namespace UriReference

def text : UriReference → List Char
  | uri target => target.text
  | relative path query => path ++ queryText query

end UriReference

/-! ### Resolution -/

/-- A segment that stands for this level or for the level above. -/
def IsDotSegment (segment : List Char) : Prop := segment = ['.'] ∨ segment = ['.', '.']

instance (segment : List Char) : Decidable (IsDotSegment segment) :=
  inferInstanceAs (Decidable (_ ∨ _))

/-- No segment of a path is a dot segment. -/
def HasNoDotSegment (path : List Char) : Prop :=
  ∀ segment ∈ path.splitOn '/', ¬ IsDotSegment segment

instance (path : List Char) : Decidable (HasNoDotSegment path) :=
  inferInstanceAs (Decidable (∀ segment ∈ path.splitOn '/', ¬ IsDotSegment segment))

/-- The segments that follow are moved behind the pieces of a path that are kept; the segment for
the level above takes the last piece away. -/
def moveSegments (kept : List (List Char)) : List (List Char) → List Char
  | [] => kept.flatten
  | segment :: rest =>
    if segment = ['.'] then
      if rest = [] then kept.flatten ++ ['/'] else moveSegments kept rest
    else if segment = ['.', '.'] then
      if rest = [] then kept.dropLast.flatten ++ ['/'] else moveSegments kept.dropLast rest
    else moveSegments (kept ++ ['/' :: segment]) rest

/-- Dot segments in front of a path without a leading slash are dropped. -/
def dropLeadingDots : List (List Char) → List Char
  | [] => []
  | segment :: rest =>
    if IsDotSegment segment then dropLeadingDots rest else moveSegments [segment] rest

/-- The path without its dot segments. -/
def removeDotSegments (path : List Char) : List Char := dropLeadingDots (path.splitOn '/')

/-- The path up to its last slash. -/
def directory (path : List Char) : List Char := (path.reverse.dropWhile (· ≠ '/')).reverse

/-- What a relative path is put behind. -/
def Uri.mergePrefix (base : Uri) : List Char :=
  if base.authority.isSome = true ∧ base.path = [] then ['/'] else directory base.path

/-- The resolution of a reference against a base. -/
def UriReference.resolve (base : Uri) : UriReference → Uri
  | uri target => { target with path := removeDotSegments target.path }
  | relative [] query => { base with query := query.orElse fun _ ↦ base.query }
  | relative ('/' :: rest) query =>
    { base with path := removeDotSegments ('/' :: rest), query := query }
  | relative path query =>
    { base with path := removeDotSegments (base.mergePrefix ++ path), query := query }

/-! ### Dot segments -/

/-- The text of segments that each have a slash in front. -/
def slashed (segments : List (List Char)) : List Char := (segments.map ('/' :: ·)).flatten

@[simp] theorem slashed_nil : slashed [] = [] := rfl

@[simp] theorem slashed_cons (segment : List Char) (rest : List (List Char)) :
    slashed (segment :: rest) = '/' :: (segment ++ slashed rest) := by
  simp [slashed]

theorem intercalate_slash (segment : List Char) (rest : List (List Char)) :
    ['/'].intercalate (segment :: rest) = segment ++ slashed rest := by
  induction rest generalizing segment with
  | nil => simp
  | cons next rest ih => rw [List.intercalate_cons_cons, ih next, slashed_cons]; simp

/-- A path is its first segment with the others behind it. -/
theorem exists_splitOn_slash (path : List Char) :
    ∃ segment rest, path.splitOn '/' = segment :: rest ∧ path = segment ++ slashed rest := by
  obtain ⟨segment, rest, hsplit⟩ := List.exists_cons_of_ne_nil (List.splitOn_ne_nil '/' path)
  refine ⟨segment, rest, hsplit, ?_⟩
  rw [← intercalate_slash, ← hsplit, List.intercalate_splitOn]

theorem hasNoDotSegment_nil : HasNoDotSegment [] := by decide

/-- The segments of two paths with a slash between them. -/
theorem hasNoDotSegment_append_slash {front back : List Char} :
    HasNoDotSegment (front ++ '/' :: back) ↔ HasNoDotSegment front ∧ HasNoDotSegment back := by
  unfold HasNoDotSegment
  rw [List.splitOn_append_cons_self]
  simp only [List.mem_append, or_imp, forall_and]

theorem hasNoDotSegment_of_slash_not_mem {segment : List Char} (hslash : '/' ∉ segment)
    (hdot : ¬ IsDotSegment segment) : HasNoDotSegment segment := by
  unfold HasNoDotSegment
  rw [List.splitOn_eq_singleton hslash]
  intro only honly
  rw [List.mem_singleton.mp honly]
  exact hdot

/-- Without dot segments nothing is taken away. -/
theorem moveSegments_of_forall {segments : List (List Char)}
    (h : ∀ segment ∈ segments, ¬ IsDotSegment segment) (kept : List (List Char)) :
    moveSegments kept segments = kept.flatten ++ slashed segments := by
  induction segments generalizing kept with
  | nil => simp [moveSegments]
  | cons segment rest ih =>
    have hsegment := h segment List.mem_cons_self
    unfold IsDotSegment at hsegment
    push Not at hsegment
    rw [moveSegments, if_neg hsegment.1, if_neg hsegment.2,
      ih fun next hnext ↦ h next (List.mem_cons_of_mem segment hnext)]
    simp

/-- Segments that are moved behind pieces without a dot segment leave none in the result; the pieces
that are kept are those of a front part. -/
theorem hasNoDotSegment_moveSegments {kept segments : List (List Char)}
    (hkept : ∀ count, HasNoDotSegment (kept.take count).flatten)
    (hsegments : ∀ segment ∈ segments, '/' ∉ segment) :
    HasNoDotSegment (moveSegments kept segments) := by
  induction segments generalizing kept with
  | nil => simpa [moveSegments] using hkept kept.length
  | cons segment rest ih =>
    have hrestSegments : ∀ next ∈ rest, '/' ∉ next :=
      fun next hnext ↦ hsegments next (List.mem_cons_of_mem segment hnext)
    have hwhole : HasNoDotSegment kept.flatten := by simpa using hkept kept.length
    have hdropLast : ∀ count, HasNoDotSegment (kept.dropLast.take count).flatten := by
      intro count
      rw [List.dropLast_eq_take, List.take_take]
      exact hkept _
    have hfront : HasNoDotSegment kept.dropLast.flatten := by
      rw [List.dropLast_eq_take]
      exact hkept _
    rw [moveSegments]
    split_ifs with hdot hrest hdots hrest
    · exact hasNoDotSegment_append_slash.mpr ⟨hwhole, hasNoDotSegment_nil⟩
    · exact ih hkept hrestSegments
    · exact hasNoDotSegment_append_slash.mpr ⟨hfront, hasNoDotSegment_nil⟩
    · exact ih hdropLast hrestSegments
    · refine ih (fun count ↦ ?_) hrestSegments
      have hsegment : HasNoDotSegment segment :=
        hasNoDotSegment_of_slash_not_mem (hsegments segment List.mem_cons_self)
          fun h ↦ h.elim hdot hdots
      by_cases hcount : count ≤ kept.length
      · rw [List.take_append_of_le_length hcount]
        exact hkept count
      · rw [List.take_of_length_le (by rw [List.length_append, List.length_singleton]; omega),
          List.flatten_append, List.flatten_singleton]
        exact hasNoDotSegment_append_slash.mpr ⟨hwhole, hsegment⟩

theorem removeDotSegments_eq_self {path : List Char} (h : HasNoDotSegment path) :
    removeDotSegments path = path := by
  obtain ⟨segment, rest, hsplit, hpath⟩ := exists_splitOn_slash path
  unfold HasNoDotSegment at h
  rw [hsplit] at h
  rw [removeDotSegments, hsplit, dropLeadingDots, if_neg (h segment List.mem_cons_self),
    moveSegments_of_forall fun next hnext ↦ h next (List.mem_cons_of_mem segment hnext),
    List.flatten_singleton, ← hpath]

theorem hasNoDotSegment_dropLeadingDots {segments : List (List Char)}
    (hsegments : ∀ segment ∈ segments, '/' ∉ segment) :
    HasNoDotSegment (dropLeadingDots segments) := by
  induction segments with
  | nil => exact hasNoDotSegment_nil
  | cons segment rest ih =>
    have hrest : ∀ next ∈ rest, '/' ∉ next :=
      fun next hnext ↦ hsegments next (List.mem_cons_of_mem segment hnext)
    rw [dropLeadingDots]
    split_ifs with hdot
    · exact ih hrest
    · refine hasNoDotSegment_moveSegments (fun count ↦ ?_) hrest
      have hsegment :=
        hasNoDotSegment_of_slash_not_mem (hsegments segment List.mem_cons_self) hdot
      cases count with
      | zero => exact hasNoDotSegment_nil
      | succ count => simpa using hsegment

/-- Nothing is left to remove behind the removal of dot segments. -/
theorem hasNoDotSegment_removeDotSegments (path : List Char) :
    HasNoDotSegment (removeDotSegments path) :=
  hasNoDotSegment_dropLeadingDots fun _ ↦ not_mem_of_mem_splitOn

/-! ### Directories -/

/-- A path is its directory with a file name behind it. -/
theorem exists_file (path : List Char) : ∃ file, path = directory path ++ file ∧ '/' ∉ file := by
  refine ⟨(path.reverse.takeWhile (· ≠ '/')).reverse, ?_, ?_⟩
  · rw [directory, ← List.reverse_append, List.takeWhile_append_dropWhile, List.reverse_reverse]
  · intro hmem
    have hne := List.mem_takeWhile_imp (List.mem_reverse.mp hmem)
    exact absurd hne (by decide)

/-- A directory is empty or ends with a slash. -/
theorem directory_eq_nil_or (path : List Char) :
    directory path = [] ∨ ∃ front, directory path = front ++ ['/'] := by
  unfold directory
  cases hbehind : path.reverse.dropWhile (· ≠ '/') with
  | nil => exact Or.inl rfl
  | cons c rest =>
    have hc := List.head?_dropWhile_not (· ≠ '/') path.reverse
    rw [hbehind] at hc
    have hslash : c = '/' := by simpa using hc
    exact Or.inr ⟨rest.reverse, by rw [hslash, List.reverse_cons]⟩

theorem directory_append_slash (front : List Char) {file : List Char} (h : '/' ∉ file) :
    directory (front ++ '/' :: file) = front ++ ['/'] := by
  have hfile : ∀ c ∈ file.reverse, decide (c ≠ '/') = true := by
    intro c hc
    rw [decide_eq_true_eq]
    rintro rfl
    exact h (List.mem_reverse.mp hc)
  rw [directory, List.reverse_append, List.reverse_cons, List.append_assoc,
    List.dropWhile_append_of_pos hfile]
  simp

/-- A path behind a directory has the segments of both. -/
theorem hasNoDotSegment_append {front path : List Char}
    (hfront : front = [] ∨ ∃ body, front = body ++ ['/']) :
    HasNoDotSegment (front ++ path) ↔ HasNoDotSegment front ∧ HasNoDotSegment path := by
  rcases hfront with rfl | ⟨body, rfl⟩
  · exact ⟨fun h ↦ ⟨hasNoDotSegment_nil, h⟩, And.right⟩
  · rw [List.append_assoc, List.singleton_append, hasNoDotSegment_append_slash,
      hasNoDotSegment_append_slash, and_assoc]
    exact ⟨fun h ↦ ⟨h.1, hasNoDotSegment_nil, h.2⟩, fun h ↦ ⟨h.1, h.2.2⟩⟩

theorem Uri.mergePrefix_cases (base : Uri) :
    base.mergePrefix = [] ∨ ∃ body, base.mergePrefix = body ++ ['/'] := by
  unfold Uri.mergePrefix
  split_ifs
  · exact Or.inr ⟨[], rfl⟩
  · exact directory_eq_nil_or base.path

end Mupnp.Foundation
