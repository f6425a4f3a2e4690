import Mupnp.Foundation.EntryMap
import Mupnp.Net.UriIndices
import Mupnp.Net.UriRebuild
import Mupnp.Util.Dictionary

/-!
# Queries as dictionaries

`mupnp_net_uri_getquerydictionary` writes the parameters of a query into a dictionary that belongs
to the URI and that no other call clears. The scan stops at the first piece of the query without a
name and a value, and takes everything for one parameter when an empty piece stands there.

`getQueryDictionary_iff` says when the dictionary is the map of the query that was set last. What
the scan asks for lies within the query always (`getQueryDictionary_meets`).
-/

set_option autoImplicit false
set_option relaxedAutoImplicit false

namespace Mupnp.Net

open Foundation Util

/-! ### The scan -/

/-- The end of the parameter at an offset, and whether it is the last one. -/
def paramEnd (query : CString) (queryOffset : ℤ) : Traced Char (ℤ × Bool) := do
  let ampIdx ← strstrFrom query queryOffset "&".toList
  if ampIdx ≤ 0 then do
    let sharpIdx ← strstrFrom query queryOffset "#".toList
    if sharpIdx ≤ 0 then do
      let left ← Traced.read query queryOffset (query.length - queryOffset)
      pure (left.length, true)
    else pure (sharpIdx, false)
  else pure (ampIdx, false)

/-- The loop of `mupnp_net_uri_getquerydictionary`. Each turn leaves at least two characters behind,
so that as many turns as there are characters are enough. -/
def readParams (query : CString) : ℕ → Dictionary → ℤ → Traced Char Dictionary
  | 0, dictionary, _ => pure dictionary
  | turns + 1, dictionary, queryOffset => do
    let eqIdx ← strstrFrom query queryOffset "=".toList
    if 0 < eqIdx then do
      let (ampIdx, isLastParam) ← paramEnd query queryOffset
      if ampIdx ≤ eqIdx then pure dictionary
      else do
        let paramName ← Traced.read query queryOffset eqIdx
        let paramValue ← Traced.read query (queryOffset + eqIdx + 1) (ampIdx - eqIdx - 1)
        let written := dictionarySetValue dictionary (some paramName) (some paramValue)
        if isLastParam then pure written
        else readParams query turns written (queryOffset + (ampIdx + 1))
    else pure dictionary

/-- A URI with the dictionary that its query was read into. -/
structure QueryUri where
  uri : NetUri
  queryDictionary : Option Dictionary
  deriving DecidableEq

namespace QueryUri

/-- `mupnp_net_uri_new`. -/
def new : QueryUri := ⟨NetUri.new, none⟩

/-- `mupnp_net_uri_getquerydictionary`. -/
def getQueryDictionary (uri : QueryUri) : Traced Char QueryUri := do
  let dictionary := uri.queryDictionary.getD []
  match uri.uri.query with
  | none => pure { uri with queryDictionary := some dictionary }
  | some query =>
    let written ← readParams query (query.length + 1) dictionary 0
    pure { uri with queryDictionary := some written }

end QueryUri

/-- A call on a URI. -/
inductive QueryCall where
  /-- `mupnp_net_uri_setvalue`, which leaves the dictionary as it is. -/
  | setValue (value : CString)
  | getQueryDictionary
  deriving DecidableEq

def QueryUri.call (uri : QueryUri) : QueryCall → QueryUri
  | .setValue value => { uri with uri := NetUri.setValue value }
  | .getQueryDictionary => uri.getQueryDictionary.result

def QueryUri.calls (uri : QueryUri) (calls : List QueryCall) : QueryUri :=
  calls.foldl QueryUri.call uri

/-! ### The map of a query -/

/-- The name and the value of a piece, up to the first equals sign and behind it. -/
def pieceEntry (piece : CString) : CString × CString :=
  (piece.takeWhile (· ≠ '='), (piece.dropWhile (· ≠ '=')).drop 1)

/-- The entries of the pieces that are not empty. -/
def piecesEntries (pieces : List CString) : List (CString × CString) :=
  (pieces.filter (· ≠ [])).map pieceEntry

/-- The map of a query that is split at the ampersands. -/
def queryMap (query : CString) : CString → Option CString :=
  entryMap (piecesEntries (query.splitOn '&'))

/-- The elements of a dictionary are those of a map, each once. -/
def IsMapOf (dictionary : Dictionary) (map : CString → Option CString) : Prop :=
  (dictionary.map DictionaryElement.key).Nodup ∧ ∀ dirElem, dirElem ∈ dictionary ↔
    ∃ key value, dirElem = ⟨some key, some value⟩ ∧ map key = some value

/-- A piece with a name and a value. -/
def IsParameter (piece : CString) : Prop := '=' ∈ piece ∧ piece.head? ≠ some '='

instance (piece : CString) : Decidable (IsParameter piece) := by
  unfold IsParameter
  infer_instance

/-- The pieces in front of the first one without a name and a value. -/
def readPieces (pieces : List CString) : List CString := pieces.takeWhile (IsParameter ·)

/-- The pieces from the first one without a name and a value on. -/
def skippedPieces (pieces : List CString) : List CString := pieces.dropWhile (IsParameter ·)

/-- The scan comes to an empty piece with an equals sign somewhere behind it. -/
def RunsOver (pieces : List CString) : Prop :=
  (skippedPieces pieces).head? = some [] ∧ ∃ piece ∈ skippedPieces pieces, '=' ∈ piece

/-- The condition on a query and on the dictionary before it is read: the scan does not run over an
empty piece, every name of the dictionary is one of the query, and what the skipped pieces say about
a name is there without them. -/
structure KeepsQuery (before : Dictionary) (query : CString) : Prop where
  ends : ¬ RunsOver (query.splitOn '&')
  earlier : ∀ dirElem ∈ before, ∃ name ∈ (piecesEntries (query.splitOn '&')).map Prod.fst,
    dirElem.key = some name
  skipped : ∀ name ∈ (piecesEntries (skippedPieces (query.splitOn '&'))).map Prod.fst,
    entryMap (piecesEntries (skippedPieces (query.splitOn '&'))) name =
      (entryMap (piecesEntries (readPieces (query.splitOn '&'))) name).or
        (dictionaryGetValue before (some name))

/-! ### Pieces of a text -/

theorem pieceEntry_append {name value : CString} (hname : '=' ∉ name) :
    pieceEntry (name ++ '=' :: value) = (name, value) := by
  rw [pieceEntry, takeWhile_ne_append_cons hname, dropWhile_ne_append_cons hname]
  rfl

theorem isParameter_append_iff {name : CString} (hname : '=' ∉ name) (value : CString) :
    IsParameter (name ++ '=' :: value) ↔ name ≠ [] := by
  unfold IsParameter
  rw [and_iff_right (List.mem_append_right name List.mem_cons_self)]
  cases name with
  | nil => exact iff_of_false (fun hhead ↦ hhead rfl) fun hne ↦ hne rfl
  | cons c front =>
    refine iff_of_true (fun hhead ↦ ?_) (List.cons_ne_nil c front)
    rw [List.cons_append, List.head?_cons, Option.some.injEq] at hhead
    exact hname (hhead ▸ List.mem_cons_self)

/-- The name of a parameter is not empty. -/
theorem pieceEntry_fst_ne_nil {piece : CString} (h : IsParameter piece) :
    (pieceEntry piece).1 ≠ [] := by
  obtain ⟨name, value, rfl, hname⟩ := List.eq_append_cons_of_mem h.1
  rw [pieceEntry_append hname]
  exact (isParameter_append_iff hname value).mp h

/-! ### The turns of the scan -/

/-- One entry is written into a dictionary. -/
def writePiece (dictionary : Dictionary) (piece : CString) : Dictionary :=
  dictionarySetValue dictionary (some (pieceEntry piece).1) (some (pieceEntry piece).2)

/-- What a scan of pieces leaves: the parameters in front are written, and behind them one key with
an ampersand when the scan runs over an empty piece. -/
def ReadsPieces (pieces : List CString) (dictionary written : Dictionary) : Prop :=
  (¬ RunsOver pieces → written = (readPieces pieces).foldl writePiece dictionary) ∧
    (RunsOver pieces → ∃ key value, '&' ∈ key ∧
      written = dictionarySetValue ((readPieces pieces).foldl writePiece dictionary) (some key)
        (some value))

/-- The scan goes on behind a parameter. -/
theorem ReadsPieces.cons {piece : CString} {pieces : List CString} {dictionary written : Dictionary}
    (hpiece : IsParameter piece) (h : ReadsPieces pieces (writePiece dictionary piece) written) :
    ReadsPieces (piece :: pieces) dictionary written := by
  have hread : readPieces (piece :: pieces) = piece :: readPieces pieces :=
    List.takeWhile_cons_of_pos (decide_eq_true hpiece)
  have hskipped : skippedPieces (piece :: pieces) = skippedPieces pieces :=
    List.dropWhile_cons_of_pos (decide_eq_true hpiece)
  unfold ReadsPieces RunsOver
  rw [hread, hskipped]
  exact h

/-- The scan stops in front of a piece without a name and a value. -/
theorem readsPieces_stop {piece : CString} {pieces : List CString} (hpiece : ¬ IsParameter piece)
    (hruns : piece ≠ [] ∨ ∀ other ∈ piece :: pieces, '=' ∉ other) (dictionary : Dictionary) :
    ReadsPieces (piece :: pieces) dictionary dictionary := by
  have hread : readPieces (piece :: pieces) = [] :=
    List.takeWhile_cons_of_neg (by rwa [decide_eq_true_eq])
  have hskipped : skippedPieces (piece :: pieces) = piece :: pieces :=
    List.dropWhile_cons_of_neg (by rwa [decide_eq_true_eq])
  have hends : ¬ RunsOver (piece :: pieces) := by
    unfold RunsOver
    rw [hskipped]
    rintro ⟨hhead, other, hother, hmem⟩
    rcases hruns with hne | hnone
    · exact hne (Option.some.inj hhead)
    · exact hnone other hother hmem
  refine ⟨fun _ ↦ ?_, fun hrunsOver ↦ absurd hrunsOver hends⟩
  rw [hread]
  rfl

/-- The scan runs over an empty piece. -/
theorem readsPieces_empty {pieces : List CString} (hmem : ∃ piece ∈ pieces, '=' ∈ piece)
    {key : CString} (hkey : '&' ∈ key) (value : CString) (dictionary : Dictionary) :
    ReadsPieces ([] :: pieces) dictionary
      (dictionarySetValue dictionary (some key) (some value)) := by
  have hempty : ¬ IsParameter [] := fun hparameter ↦ List.not_mem_nil hparameter.1
  have hread : readPieces ([] :: pieces) = [] :=
    List.takeWhile_cons_of_neg (by rwa [decide_eq_true_eq])
  have hskipped : skippedPieces ([] :: pieces) = [] :: pieces :=
    List.dropWhile_cons_of_neg (by rwa [decide_eq_true_eq])
  have hruns : RunsOver ([] :: pieces) := by
    unfold RunsOver
    rw [hskipped]
    obtain ⟨piece, hpiece, hin⟩ := hmem
    exact ⟨rfl, piece, List.mem_cons_of_mem [] hpiece, hin⟩
  refine ⟨fun hends ↦ absurd hruns hends, fun _ ↦ ⟨key, value, hkey, ?_⟩⟩
  rw [hread]
  rfl

section turns

variable {query rest : CString} {queryOffset : ℤ}

theorem paramEnd_meets (h : StandsAt query queryOffset rest) (hsharp : '#' ∉ rest) :
    (paramEnd query queryOffset).Meets fun result ↦
      result = if strstr (some rest) (some "&".toList) ≤ 0 then ((rest.length : ℤ), true)
        else (strstr (some rest) (some "&".toList), false) := by
  refine (h.meets_strstrFrom _).bind fun ampIdx hindex ↦ ?_
  subst hindex
  refine Traced.meets_ite (fun hfront ↦ ?_) fun hbehind ↦ ?_
  · have hsharpIdx : strstr (some rest) (some "#".toList) = -1 := strstr_singleton_of_not_mem hsharp
    refine (h.meets_strstrFrom _).bind fun sharpIdx hindex ↦ ?_
    rw [hindex, hsharpIdx]
    refine Traced.meets_ite (fun _ ↦ ?_) fun hnot ↦ absurd (by decide) hnot
    refine (h.meets_read_rest rfl).bind fun left hleft ↦ Traced.meets_pure ?_
    rw [hleft, if_pos hfront]
  · exact Traced.meets_pure (if_neg hbehind).symm

/-- Without a name in front of an equals sign nothing is written. -/
theorem readsPieces_of_strstr_le (heq : strstr (some rest) (some "=".toList) ≤ 0)
    (dictionary : Dictionary) : ReadsPieces (rest.splitOn '&') dictionary dictionary := by
  obtain ⟨piece, pieces, hsplit⟩ := List.exists_cons_of_ne_nil (List.splitOn_ne_nil '&' rest)
  have hmem : ∀ other ∈ rest.splitOn '&', '=' ∈ other → '=' ∈ rest := fun other hother hin ↦
    (mem_iff_exists_mem_splitOn (by decide) rest).mpr ⟨other, hother, hin⟩
  by_cases hin : '=' ∈ rest
  · obtain ⟨front, behind, hrest, hfront⟩ := List.eq_append_cons_of_mem hin
    have hindex : strstr (some (front ++ '=' :: behind)) (some "=".toList) = front.length :=
      strstr_singleton_append hfront behind
    rw [hrest, hindex] at heq
    have hnil : front = [] := List.length_eq_zero_iff.mp (by omega)
    rw [hrest, hnil, List.nil_append] at hsplit ⊢
    have hamp : ¬ ('=' == '&') = true := by decide
    rw [List.splitOn_cons_eq_if_modifyHead, if_neg hamp] at hsplit ⊢
    obtain ⟨first, others, hothers⟩ := List.exists_cons_of_ne_nil (List.splitOn_ne_nil '&' behind)
    rw [hothers]
    exact readsPieces_stop (fun hparameter ↦ hparameter.2 rfl) (Or.inl (List.cons_ne_nil _ _)) _
  · rw [hsplit] at hmem ⊢
    exact readsPieces_stop (fun hparameter ↦ hin (hmem piece List.mem_cons_self hparameter.1))
      (Or.inr fun other hother hequals ↦ hin (hmem other hother hequals)) _

/-- Without an ampersand behind the first character everything is one parameter. -/
theorem readsPieces_last {name value : CString} (hname : '=' ∉ name) (hne : name ≠ [])
    (hamp : strstr (some (name ++ '=' :: value)) (some "&".toList) ≤ 0) (dictionary : Dictionary) :
    ReadsPieces ((name ++ '=' :: value).splitOn '&') dictionary
      (dictionarySetValue dictionary (some name) (some value)) := by
  have hparameter : IsParameter (name ++ '=' :: value) :=
    (isParameter_append_iff hname value).mpr hne
  by_cases hin : '&' ∈ name ++ '=' :: value
  · obtain ⟨front, behind, hrest, hfront⟩ := List.eq_append_cons_of_mem hin
    have hindex : strstr (some (front ++ '&' :: behind)) (some "&".toList) = front.length :=
      strstr_singleton_append hfront behind
    rw [hrest, hindex] at hamp
    have hnil : front = [] := List.length_eq_zero_iff.mp (by omega)
    rw [hnil, List.nil_append] at hrest
    obtain ⟨c, key, rfl⟩ := List.exists_cons_of_ne_nil hne
    obtain ⟨rfl, hbehind⟩ := List.cons.inj hrest
    have hequals : '=' ∈ key ++ '=' :: value := List.mem_append_right key List.mem_cons_self
    have hsplit : ('&' :: key ++ '=' :: value).splitOn '&' =
        [] :: (key ++ '=' :: value).splitOn '&' := by
      rw [List.cons_append, List.splitOn_cons_eq_if_modifyHead, if_pos (by decide)]
    rw [hsplit]
    exact readsPieces_empty ((mem_iff_exists_mem_splitOn (by decide) _).mp hequals)
      List.mem_cons_self value dictionary
  · rw [List.splitOn_eq_singleton hin]
    refine ReadsPieces.cons hparameter ⟨fun _ ↦ ?_, fun hruns ↦ ?_⟩
    · rw [writePiece, pieceEntry_append hname]
      rfl
    · cases hruns.1

/-- The rest of a turn, behind the search for the equals sign and for the end. -/
def paramTurn (query : CString) (queryOffset eqIdx : ℤ) (dictionary : Dictionary)
    (next : Dictionary → ℤ → Traced Char Dictionary) (ending : ℤ × Bool) :
    Traced Char Dictionary :=
  if ending.1 ≤ eqIdx then pure dictionary
  else do
    let paramName ← Traced.read query queryOffset eqIdx
    let paramValue ← Traced.read query (queryOffset + eqIdx + 1) (ending.1 - eqIdx - 1)
    let written := dictionarySetValue dictionary (some paramName) (some paramValue)
    if ending.2 then pure written else next written (queryOffset + (ending.1 + 1))

theorem readParams_succ (turns : ℕ) (dictionary : Dictionary) :
    readParams query (turns + 1) dictionary queryOffset = (do
      let eqIdx ← strstrFrom query queryOffset "=".toList
      if 0 < eqIdx then do
        let ending ← paramEnd query queryOffset
        paramTurn query queryOffset eqIdx dictionary (readParams query turns) ending
      else pure dictionary) := rfl

/-- What stands behind the equals sign of a parameter. -/
theorem StandsAt.behind_name {name after : CString}
    (h : StandsAt query queryOffset (name ++ '=' :: after)) :
    StandsAt query (queryOffset + name.length + 1) after := by
  have hparts : StandsAt query queryOffset ((name ++ ['=']) ++ after) := by
    rwa [List.append_assoc, List.singleton_append]
  rw [Int.add_assoc]
  refine hparts.append ?_
  rw [List.length_append]
  rfl

/-- The turn at a last parameter writes it. -/
theorem paramTurn_last {name value : CString}
    (h : StandsAt query queryOffset (name ++ '=' :: value)) (hname : '=' ∉ name) (hne : name ≠ [])
    (hamp : strstr (some (name ++ '=' :: value)) (some "&".toList) ≤ 0) (dictionary : Dictionary)
    (next : Dictionary → ℤ → Traced Char Dictionary) :
    (paramTurn query queryOffset name.length dictionary next
      (((name ++ '=' :: value).length : ℤ), true)).Meets fun written ↦
        ReadsPieces ((name ++ '=' :: value).splitOn '&') dictionary written := by
  have hlength : ¬ ((name ++ '=' :: value).length : ℤ) ≤ name.length := by
    rw [List.length_append, List.length_cons]
    omega
  have hvalue : StandsAt query (queryOffset + name.length + 1) (value ++ []) := by
    rw [List.append_nil]
    exact h.behind_name
  unfold paramTurn
  rw [if_neg hlength]
  refine (h.meets_read rfl).bind fun paramName hparamName ↦ ?_
  refine (hvalue.meets_read ?_).bind fun paramValue hparamValue ↦ Traced.meets_pure ?_
  · rw [List.length_append, List.length_cons]
    omega
  · rw [hparamName, hparamValue]
    exact readsPieces_last hname hne hamp dictionary

/-- The turn at a parameter in front of an ampersand writes it and goes on behind. -/
theorem paramTurn_more {name value behind : CString}
    (h : StandsAt query queryOffset (name ++ '=' :: (value ++ '&' :: behind)))
    (dictionary : Dictionary) {next : Dictionary → ℤ → Traced Char Dictionary}
    {post : Dictionary → Prop}
    (hnext : StandsAt query (queryOffset + ((name ++ '=' :: value).length + 1)) behind →
      (next (dictionarySetValue dictionary (some name) (some value))
        (queryOffset + ((name ++ '=' :: value).length + 1))).Meets post) :
    (paramTurn query queryOffset name.length dictionary next
      (((name ++ '=' :: value).length : ℤ), false)).Meets post := by
  have hlength : (name ++ '=' :: value).length = name.length + (value.length + 1) := by
    rw [List.length_append, List.length_cons]
  have hbehind : StandsAt query (queryOffset + ((name ++ '=' :: value).length + 1)) behind := by
    have hparts : StandsAt query queryOffset (((name ++ '=' :: value) ++ ['&']) ++ behind) := by
      rwa [List.append_assoc, List.singleton_append, List.append_assoc, List.cons_append]
    refine hparts.append ?_
    simp only [List.length_append, List.length_singleton]
    omega
  unfold paramTurn
  rw [if_neg (by omega)]
  refine (h.meets_read rfl).bind fun paramName hparamName ↦ ?_
  refine (h.behind_name.meets_read (by omega)).bind fun paramValue hparamValue ↦ ?_
  refine Traced.meets_ite (fun hlast ↦ absurd hlast Bool.false_ne_true) fun _ ↦ ?_
  rw [hparamName, hparamValue]
  exact hnext hbehind

/-- The turns of the scan write what is read from the pieces. -/
theorem readParams_meets {turns : ℕ} (h : StandsAt query queryOffset rest) (hsharp : '#' ∉ rest)
    (hturns : rest.length < turns) (dictionary : Dictionary) :
    (readParams query turns dictionary queryOffset).Meets fun written ↦
      ReadsPieces (rest.splitOn '&') dictionary written := by
  induction turns generalizing rest queryOffset dictionary with
  | zero => exact absurd hturns (Nat.not_lt_zero _)
  | succ turns ih =>
    rw [readParams_succ]
    refine (h.meets_strstrFrom _).bind fun eqIdx hindex ↦ ?_
    subst hindex
    refine Traced.meets_ite (fun hfound ↦ ?_) fun hnone ↦
      Traced.meets_pure (readsPieces_of_strstr_le (by omega) dictionary)
    have hequals : '=' ∈ rest := (strstr_nonneg_iff.mp (Int.le_of_lt hfound)).subset (by decide)
    obtain ⟨name, after, rfl, hname⟩ := List.eq_append_cons_of_mem hequals
    have heqIdx : strstr (some (name ++ '=' :: after)) (some "=".toList) = name.length :=
      strstr_singleton_append hname after
    rw [heqIdx] at hfound ⊢
    have hne : name ≠ [] := List.ne_nil_of_length_pos (by omega)
    refine (paramEnd_meets h hsharp).bind fun ending hending ↦ ?_
    subst hending
    by_cases hamp : strstr (some (name ++ '=' :: after)) (some "&".toList) ≤ 0
    · rw [if_pos hamp]
      exact paramTurn_last h hname hne hamp dictionary _
    · rw [if_neg hamp]
      have hnonneg : 0 ≤ strstr (some (name ++ '=' :: after)) (some "&".toList) := by omega
      have hampersand : '&' ∈ name ++ '=' :: after :=
        (strstr_nonneg_iff.mp hnonneg).subset (by decide)
      obtain ⟨piece, behind, hrest, hpiece⟩ := List.eq_append_cons_of_mem hampersand
      have hampIdx : strstr (some (name ++ '=' :: after)) (some "&".toList) = piece.length := by
        rw [hrest]
        exact strstr_singleton_append hpiece behind
      have hsplit : (name ++ '=' :: after).splitOn '&' = piece :: behind.splitOn '&' := by
        rw [hrest, List.splitOn_append_cons_self, List.splitOn_eq_singleton hpiece,
          List.singleton_append]
      rw [hampIdx] at hamp ⊢
      rw [hsplit]
      by_cases hin : '=' ∈ piece
      · obtain ⟨front, value, rfl, hfront⟩ := List.eq_append_cons_of_mem hin
        rw [List.append_assoc, List.cons_append] at hrest
        obtain ⟨rfl, rfl⟩ := append_cons_inj_of_not_mem hname hfront hrest
        have hparameter : IsParameter (name ++ '=' :: value) :=
          (isParameter_append_iff hname value).mpr hne
        have hleft : '#' ∉ behind ∧ behind.length < turns := by
          rw [List.length_append, List.length_cons, List.length_append, List.length_cons] at hturns
          simp only [List.mem_append, List.mem_cons, not_or] at hsharp
          exact ⟨hsharp.2.2.2.2, by omega⟩
        refine paramTurn_more h dictionary fun hbehind ↦ ?_
        refine (ih hbehind hleft.1 hleft.2 _).mono fun written hwritten ↦
          ReadsPieces.cons hparameter ?_
        rw [writePiece, pieceEntry_append hname]
        exact hwritten
      · have hlater : (piece.length : ℤ) ≤ name.length := by
          have hindex := strstr_singleton_append_of_not_mem hin ('&' :: behind)
          have heqIdx' : strstr (some (piece ++ '&' :: behind)) (some ['=']) = name.length := by
            rw [← hrest]
            exact heqIdx
          omega
        unfold paramTurn
        rw [if_pos hlater]
        refine Traced.meets_pure (readsPieces_stop (fun hparameter ↦ hin hparameter.1)
          (Or.inl ?_) dictionary)
        rintro rfl
        exact hamp (by decide)

end turns

/-! ### Dictionaries and maps -/

theorem piecesEntries_append (first second : List CString) :
    piecesEntries (first ++ second) = piecesEntries first ++ piecesEntries second := by
  rw [piecesEntries, List.filter_append, List.map_append]
  rfl

theorem readPieces_append_skippedPieces (pieces : List CString) :
    readPieces pieces ++ skippedPieces pieces = pieces :=
  List.takeWhile_append_dropWhile

theorem isParameter_of_mem_readPieces {pieces : List CString} {piece : CString}
    (hpiece : piece ∈ readPieces pieces) : IsParameter piece := by
  have hkeep := List.mem_takeWhile_imp hpiece
  rwa [decide_eq_true_eq] at hkeep

/-- Writing parameters keeps the keys apart, and writes their entries over the map. -/
theorem foldl_writePiece {dictionary : Dictionary} (h : IsKeyed dictionary)
    {pieces : List CString} (hpieces : ∀ piece ∈ pieces, IsParameter piece) :
    IsKeyed (pieces.foldl writePiece dictionary) ∧ ∀ key,
      dictionaryGetValue (pieces.foldl writePiece dictionary) (some key) =
        (entryMap (piecesEntries pieces) key).or (dictionaryGetValue dictionary (some key)) := by
  induction pieces generalizing dictionary with
  | nil => exact ⟨h, fun key ↦ rfl⟩
  | cons piece rest ih =>
    have hparameter := hpieces piece List.mem_cons_self
    have hne := pieceEntry_fst_ne_nil hparameter
    obtain ⟨hkeyed, hvalues⟩ := ih (h.setValue hne (pieceEntry piece).2)
      fun other hother ↦ hpieces other (List.mem_cons_of_mem piece hother)
    refine ⟨hkeyed, fun key ↦ ?_⟩
    have hpiece : piece ≠ [] := by
      rintro rfl
      exact List.not_mem_nil hparameter.1
    have hcons : piecesEntries (piece :: rest) = [pieceEntry piece] ++ piecesEntries rest := by
      rw [piecesEntries, List.filter_cons, if_pos (decide_eq_true hpiece), List.map_cons]
      rfl
    rw [List.foldl_cons, hcons, entryMap_append, Option.or_assoc]
    refine (hvalues key).trans (congrArg _ ?_)
    rw [dictionaryGetValue_setValue dictionary hne, entryMap, List.foldl_cons, List.foldl_nil,
      writeEntry]
    by_cases hkey : key = (pieceEntry piece).1
    · rw [if_pos hkey, hkey, Function.update_self, Option.some_or]
    · rw [if_neg hkey, Function.update_of_ne hkey, Option.none_or]

/-- A dictionary with its keys apart is the map that it gives values for. -/
theorem IsKeyed.isMapOf_iff {dictionary : Dictionary} (h : IsKeyed dictionary)
    (map : CString → Option CString) :
    IsMapOf dictionary map ↔ ∀ key, dictionaryGetValue dictionary (some key) = map key := by
  rw [IsMapOf, and_iff_right h.nodup]
  constructor
  · intro hmem key
    refine Option.ext fun value ↦ ?_
    rw [← h.mem_iff, hmem]
    constructor
    · rintro ⟨other, otherValue, heq, hmap⟩
      rw [DictionaryElement.mk.injEq, Option.some.injEq, Option.some.injEq] at heq
      rw [heq.1, heq.2]
      exact hmap
    · exact fun hmap ↦ ⟨key, value, rfl, hmap⟩
  · intro hvalues dirElem
    constructor
    · intro hmem
      obtain ⟨key, value, -, rfl⟩ := h.entry dirElem hmem
      exact ⟨key, value, rfl, (hvalues key).symm.trans ((h.mem_iff key value).mp hmem)⟩
    · rintro ⟨key, value, rfl, hmap⟩
      exact (h.mem_iff key value).mpr ((hvalues key).trans hmap)

/-- The names of a query have no ampersand. -/
theorem ampersand_not_mem_of_mem_names {query name : CString}
    (hname : name ∈ (piecesEntries (query.splitOn '&')).map Prod.fst) : '&' ∉ name := by
  obtain ⟨entry, hentry, rfl⟩ := List.mem_map.mp hname
  obtain ⟨piece, hpiece, rfl⟩ := List.mem_map.mp hentry
  exact fun hmem ↦ not_mem_of_mem_splitOn (List.mem_of_mem_filter hpiece)
    ((List.takeWhile_sublist _).mem hmem)

/-- What is read from the pieces of a query is its map exactly when the query is kept. -/
theorem ReadsPieces.isMapOf_iff {dictionary written : Dictionary} (h : IsKeyed dictionary)
    {query : CString} (hreads : ReadsPieces (query.splitOn '&') dictionary written) :
    IsMapOf written (queryMap query) ↔ KeepsQuery dictionary query := by
  obtain ⟨hkeyed, hvalues⟩ := foldl_writePiece h
    fun piece hpiece ↦ @isParameter_of_mem_readPieces (query.splitOn '&') piece hpiece
  by_cases hruns : RunsOver (query.splitOn '&')
  · refine iff_of_false ?_ fun hkeeps ↦ hkeeps.ends hruns
    obtain ⟨key, value, hampersand, rfl⟩ := hreads.2 hruns
    have hne : key ≠ [] := List.ne_nil_of_mem hampersand
    rw [IsKeyed.isMapOf_iff (hkeyed.setValue hne value)]
    intro hmap
    have hget := hmap key
    rw [dictionaryGetValue_setValue _ hne, if_pos rfl] at hget
    refine @ampersand_not_mem_of_mem_names query key ?_ hampersand
    by_contra hnot
    rw [queryMap, (entryMap_eq_none_iff _ key).mpr hnot] at hget
    cases hget
  · rw [hreads.1 hruns, IsKeyed.isMapOf_iff hkeyed]
    have hsplit : ∀ key, queryMap query key =
        (entryMap (piecesEntries (skippedPieces (query.splitOn '&'))) key).or
          (entryMap (piecesEntries (readPieces (query.splitOn '&'))) key) := by
      intro key
      rw [queryMap, ← entryMap_append, ← piecesEntries_append, readPieces_append_skippedPieces]
    constructor
    · intro hmap
      refine ⟨hruns, fun dirElem hmem ↦ ?_, fun name hname ↦ ?_⟩
      · obtain ⟨key, value, -, rfl⟩ := h.entry dirElem hmem
        refine ⟨key, ?_, rfl⟩
        by_contra hnot
        have hnone := (entryMap_eq_none_iff _ key).mpr hnot
        have hget := (hvalues key).symm.trans (hmap key)
        rw [queryMap, hnone, Option.or_eq_none_iff, (h.mem_iff key value).mp hmem] at hget
        cases hget.2
      · cases hskipped : entryMap (piecesEntries (skippedPieces (query.splitOn '&'))) name with
        | none => exact absurd hname ((entryMap_eq_none_iff _ name).mp hskipped)
        | some value =>
          rw [← hvalues name, hmap name, hsplit, hskipped, Option.some_or]
    · rintro ⟨-, hearlier, hskippedNames⟩ key
      rw [hvalues key, hsplit key]
      by_cases hname : key ∈ (piecesEntries (skippedPieces (query.splitOn '&'))).map Prod.fst
      · cases hskipped : entryMap (piecesEntries (skippedPieces (query.splitOn '&'))) key with
        | none => exact absurd hname ((entryMap_eq_none_iff _ key).mp hskipped)
        | some value =>
          rw [← hskippedNames key hname, hskipped, Option.some_or]
      · have hnone := (entryMap_eq_none_iff _ key).mpr hname
        rw [hnone, Option.none_or]
        cases hread : entryMap (piecesEntries (readPieces (query.splitOn '&'))) key with
        | some value => rw [Option.some_or]
        | none =>
          rw [Option.none_or]
          by_contra hsome
          obtain ⟨value, hget⟩ := Option.ne_none_iff_exists'.mp hsome
          obtain ⟨name, hin, heq⟩ := hearlier _ ((h.mem_iff key value).mpr hget)
          obtain rfl := Option.some.inj heq
          have hmap : queryMap query key = none := by rw [hsplit, hnone, hread, Option.none_or]
          exact (entryMap_eq_none_iff _ key).mp hmap hin

/-! ### Any calls -/

/-- What holds of a URI after any calls: the keys of its dictionary are kept apart, and its query
has no number sign. -/
structure QueryUri.IsSound (uri : QueryUri) : Prop where
  keyed : IsKeyed (uri.queryDictionary.getD [])
  plain : ∀ query ∈ uri.uri.query, '#' ∉ query

theorem setValue_query_plain (value : CString) :
    ∀ query ∈ (NetUri.setValue value).query, '#' ∉ query :=
  (read_parts _).2.1

/-- Reading the query stays within it, and writes what is read from its pieces. -/
theorem QueryUri.getQueryDictionary_meets {uri : QueryUri} (h : uri.IsSound) :
    uri.getQueryDictionary.Meets fun after ↦ after.uri = uri.uri ∧
      ∃ written, after.queryDictionary = some written ∧
        ReadsPieces ((uri.uri.query.getD []).splitOn '&') (uri.queryDictionary.getD [])
          written := by
  unfold getQueryDictionary
  cases hquery : uri.uri.query with
  | none =>
    refine Traced.meets_pure ⟨rfl, _, rfl, ?_⟩
    exact readsPieces_of_strstr_le (by decide) _
  | some query =>
    refine (readParams_meets (standsAt_zero query) (h.plain query hquery)
      (Nat.lt_succ_self _) _).bind fun written hwritten ↦ Traced.meets_pure ⟨rfl, written, rfl, hwritten⟩

theorem ReadsPieces.isKeyed {pieces : List CString} {dictionary written : Dictionary}
    (h : IsKeyed dictionary) (hreads : ReadsPieces pieces dictionary written) :
    IsKeyed written := by
  obtain ⟨hkeyed, -⟩ := foldl_writePiece h
    fun piece hpiece ↦ @isParameter_of_mem_readPieces pieces piece hpiece
  by_cases hruns : RunsOver pieces
  · obtain ⟨key, value, hampersand, rfl⟩ := hreads.2 hruns
    exact hkeyed.setValue (List.ne_nil_of_mem hampersand) value
  · rw [hreads.1 hruns]
    exact hkeyed

theorem QueryUri.IsSound.call {uri : QueryUri} (h : uri.IsSound) (call : QueryCall) :
    (uri.call call).IsSound := by
  cases call with
  | setValue value => exact ⟨h.keyed, setValue_query_plain value⟩
  | getQueryDictionary =>
    obtain ⟨-, huri, written, hwritten, hreads⟩ := getQueryDictionary_meets h
    refine ⟨?_, ?_⟩
    · show IsKeyed (uri.getQueryDictionary.result.queryDictionary.getD [])
      rw [hwritten]
      exact hreads.isKeyed h.keyed
    · show ∀ query ∈ uri.getQueryDictionary.result.uri.query, '#' ∉ query
      rw [huri]
      exact h.plain

theorem QueryUri.isSound_calls (calls : List QueryCall) : (QueryUri.new.calls calls).IsSound := by
  induction calls using List.reverseRecOn with
  | nil => exact ⟨isKeyed_nil, fun query hquery ↦ by cases hquery⟩
  | append_singleton calls call ih =>
    rw [QueryUri.calls, List.foldl_concat]
    exact ih.call call

/-- After any calls the dictionary is read within the query, and it is the map of the query that was
set last, exactly when that query is kept. -/
theorem getQueryDictionary_iff (calls : List QueryCall) :
    ((∀ slice ∈ (QueryUri.new.calls calls).getQueryDictionary.slices, slice.InBounds) ∧
        ∃ written, (QueryUri.new.calls (calls ++ [.getQueryDictionary])).queryDictionary =
            some written ∧
          IsMapOf written (queryMap ((QueryUri.new.calls calls).uri.query.getD []))) ↔
      KeepsQuery ((QueryUri.new.calls calls).queryDictionary.getD [])
        ((QueryUri.new.calls calls).uri.query.getD []) := by
  have hsound := QueryUri.isSound_calls calls
  obtain ⟨hslices, -, written, hwritten, hreads⟩ := QueryUri.getQueryDictionary_meets hsound
  have hcall : (QueryUri.new.calls (calls ++ [.getQueryDictionary])).queryDictionary =
      some written := by
    rw [QueryUri.calls, List.foldl_concat]
    exact hwritten
  rw [and_iff_right hslices, hcall, ← hreads.isMapOf_iff hsound.keyed]
  constructor
  · rintro ⟨other, hother, hmap⟩
    obtain rfl := Option.some.inj hother
    exact hmap
  · exact fun hmap ↦ ⟨written, rfl, hmap⟩

/-- The parameter of a first URI is in the dictionary of a second one. -/
theorem not_getQueryDictionary :
    ¬ ∀ calls : List QueryCall,
      (∀ slice ∈ (QueryUri.new.calls calls).getQueryDictionary.slices, slice.InBounds) ∧
        ∃ written, (QueryUri.new.calls (calls ++ [.getQueryDictionary])).queryDictionary =
            some written ∧
          IsMapOf written (queryMap ((QueryUri.new.calls calls).uri.query.getD [])) := by
  intro h
  obtain ⟨-, written, hwritten, -, hmap⟩ := h [.setValue "http://h/?a=1".toList,
    .getQueryDictionary, .setValue "http://h/?b=2".toList]
  have hread : (QueryUri.new.calls [.setValue "http://h/?a=1".toList, .getQueryDictionary,
      .setValue "http://h/?b=2".toList, .getQueryDictionary]).queryDictionary =
      some [⟨some "a".toList, some "1".toList⟩, ⟨some "b".toList, some "2".toList⟩] := by
    decide +kernel
  obtain rfl := Option.some.inj (hread.symm.trans hwritten)
  obtain ⟨key, value, heq, hkey⟩ := (hmap _).mp List.mem_cons_self
  obtain ⟨rfl, rfl⟩ : "a".toList = key ∧ "1".toList = value := by
    rw [DictionaryElement.mk.injEq] at heq
    exact ⟨Option.some.inj heq.1, Option.some.inj heq.2⟩
  have hnone : queryMap ((QueryUri.new.calls [.setValue "http://h/?a=1".toList,
      .getQueryDictionary, .setValue "http://h/?b=2".toList]).uri.query.getD []) "a".toList =
        none := by
    decide +kernel
  rw [hnone] at hkey
  cases hkey

end Mupnp.Net
