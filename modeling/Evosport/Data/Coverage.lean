/-
Which recorded files cover a window (`services/marketdata/coverage.py`).

`resolve_coverage` selects rows of the dataset catalog, collects for every requested token the
files and the time spans of the rows that list it, and, when the datasets are selected by their
identifiers, sweeps the sorted spans of each token to see whether they cover the window.
`coverage_exact` says what the sweep decides: whether every instant of the window lies in one of the
spans.  Datasets and windows carry their times as microseconds since the epoch, which the sweep sees
through a conversion in double precision; `micros_exact` says where the conversion is exact.

The rows of the catalog carry naive datetimes, which the code reads as UTC.  The ends of a window
carry their time zones here; the branch for a window without them, which `timestamp` reads in the
local time of the host, is left out.
-/
import Evosport.Lib.Cover
import Evosport.Lib.Dict
import Evosport.Lib.Double
import Evosport.Lib.Sha256
import Mathlib.Data.List.Sort
import Mathlib.Data.String.Basic
import Mathlib.Algebra.Order.Archimedean.Basic

namespace Evosport.Data.Coverage

open Lib

/-! ## Paths -/

/-- A path by its parts. -/
structure Path where
  absolute : Bool
  parts : List String
deriving DecidableEq

namespace Path

/-- `Path(s)` drops empty parts and the part `.`. -/
def ofChars (s : List Char) : Path where
  absolute := s.head? = some '/'
  parts := ((s.splitOn '/').map String.ofList).filter fun part => part ≠ "" ∧ part ≠ "."

/-- `p / name` for a name that does not start with a slash. -/
def join (p : Path) (name : String) : Path :=
  { p with parts := p.parts ++ (ofChars name.toList).parts }

/-- `str(p)` -/
def str (p : Path) : String :=
  match p.absolute, p.parts with
  | false, [] => "."
  | absolute, parts => (if absolute then "/" else "") ++ String.intercalate "/" parts

end Path

/-- What the code asks its host: the path of a URL (`urlparse(uri).path`, none where it raises), the
decoding of percent escapes, whether a character is a letter or a digit, and whether a file
exists. -/
structure Host where
  urlPath : String → Option String
  unquote : String → String
  isAlnum : Char → Bool
  fileExists : Path → Bool

variable (host : Host)

/-- `_uri_to_path`; none where it raises. -/
def uriToPath (uri : String) : Option Path :=
  (host.urlPath uri).map fun p =>
    match (host.unquote p).toList with
    | '/' :: drive :: ':' :: rest => Path.ofChars (drive :: ':' :: rest)
    | path => Path.ofChars path

/-- `_safe_segment` -/
def safeSegment (value : String) : String :=
  let cleaned := value.toList.filter fun c => host.isAlnum c || c == '-' || c == '_'
  if cleaned.length ≤ 78 then String.ofList cleaned
  else
    let middleHash := (sha256 (String.ofList cleaned).toUTF8).toList.take 6
    String.ofList (cleaned.take 16 ++ '_' :: middleHash ++
      '_' :: cleaned.drop (cleaned.length - 8))

/-- The file of a token in a window directory: the bundle when there is one, else the token's own
file under one of its two names. -/
def resolvedFile (windowDir : Path) (tok : String) : Option Path :=
  let bundle := windowDir.join "snapshots.parquet"
  let candidates :=
    if host.fileExists bundle then [bundle]
    else [windowDir.join ("snapshots__" ++ safeSegment host tok ++ ".parquet"),
      windowDir.join ("snapshots__" ++ tok ++ ".parquet")]
  candidates.find? host.fileExists

/-! ## The catalog -/

/-- `ProviderDataset`: what the resolver reads of a row of the catalog.  The times are microseconds
since the epoch, and may be missing. -/
structure ProviderDataset where
  id : String
  provider : String
  tokenIds : List String
  startTs : Option ℤ
  endTs : Option ℤ
  storageType : String := "parquet"
  storageUri : Option String

/-- The window directory of a row that is stored in a local file. -/
def ProviderDataset.windowDir (d : ProviderDataset) : Option Path :=
  d.storageUri.bind fun uri =>
    if "file://".toList.isPrefixOf uri.toList then uriToPath host uri else none

/-- The row lies in time where the window does, edges included. -/
def ProviderDataset.overlaps (d : ProviderDataset) (start end_ : ℤ) : Bool :=
  match d.startTs, d.endTs with
  | some s, some e => s ≤ end_ && e ≥ start
  | _, _ => false

/-- `int(t.timestamp() * 1_000_000)` for the time `t` in microseconds since the epoch; the quotient
and the product are doubles. -/
def micros (t : ℤ) : ℤ :=
  let x := toDouble (toDouble (t / 10 ^ 6) * 10 ^ 6)
  if 0 ≤ x then ⌊x⌋ else ⌈x⌉

/-- The errors that `resolve_coverage` raises: `dataset_ids cannot be empty when explicit selection
is requested`, `unknown provider dataset IDs: ...`, `selected dataset token mismatch: requested=...
selected=...` and `selected datasets do not fully cover requested window for tokens: ...`. -/
inductive CoverageError where
  | emptySelection
  | unknownDatasets (ids : List String)
  | tokenMismatch (requested selected : List String)
  | insufficient (tokens : List String)
deriving DecidableEq

/-- `sorted(set(xs))` -/
def sortedSet (xs : List String) : List String := xs.dedup.insertionSort (· ≤ ·)

/-- `tuple(dict.fromkeys(str(value) for value in dataset_ids if value))` -/
def explicitIds (datasetIds : List String) : List String :=
  (datasetIds.filter (· ≠ "")).reverse.dedup.reverse

/-- The rows of a selection by identifiers, which must all be known and list every requested
token. -/
def selectByIds (catalog : List ProviderDataset) (requested : List String) (start end_ : ℤ)
    (providers : Option (List String)) (datasetIds : List String) :
    Except CoverageError (List ProviderDataset) :=
  let ids := explicitIds datasetIds
  if ids = [] then .error .emptySelection
  else
    let rows := catalog.filter fun d => d.id ∈ ids ∧ providers.all (d.provider ∈ ·)
    let missing := ids.filter fun i => i ∉ rows.map ProviderDataset.id
    if missing ≠ [] then .error (.unknownDatasets (sortedSet missing))
    else
      let selected := rows.flatMap ProviderDataset.tokenIds
      if ¬ requested ⊆ selected then
        .error (.tokenMismatch (sortedSet requested) (sortedSet selected))
      else .ok (rows.filter fun d => d.storageType = "parquet" ∧ d.overlaps start end_)

/-- The rows without an explicit selection. -/
def selectAll (catalog : List ProviderDataset) (start end_ : ℤ) (providers : Option (List String)) :
    List ProviderDataset :=
  catalog.filter fun d =>
    d.storageType = "parquet" ∧ d.overlaps start end_ ∧ providers.all (d.provider ∈ ·)

/-! ## Files and spans of each token -/

/-- The dictionaries that the loop over the rows fills. -/
structure Accum where
  files : Dict String (List String)
  datasets : Dict String (List String)
  byPath : Dict String (List String)
  span : Dict String (Option ℤ × Option ℤ)
  intervals : Dict String (List (ℤ × ℤ))

/-- Before the first row. -/
def Accum.empty : Accum := ⟨Dict.empty, Dict.empty, Dict.empty, Dict.empty, Dict.empty⟩

/-- One end of a token's span: the outer one of two known ends, else `cur or new`. -/
def widen (outer : ℤ → ℤ → ℤ) (cur new : Option ℤ) : Option ℤ :=
  match cur, new with
  | some x, some y => some (outer x y)
  | some 0, none => none
  | some x, none => some x
  | none, y => y

/-- The pass of the inner loop for the token `tok`: a token whose file is found gets the file, the
data set, its span and, where both ends are known, its interval. -/
def addToken (windowDir : Path) (d : ProviderDataset) (acc : Accum) (tok : String) : Accum :=
  match resolvedFile host windowDir tok with
  | none => acc
  | some file =>
    let resolved := file.str
    let lo := d.startTs.map micros
    let hi := d.endTs.map micros
    let files := acc.files.getD tok []
    { files := acc.files.set tok (if resolved ∈ files then files else files ++ [resolved])
      datasets := acc.datasets.set tok (acc.datasets.getD tok [] ++ [d.id])
      byPath := acc.byPath.set resolved (acc.byPath.getD resolved [] ++ [d.id])
      span := acc.span.set tok (match acc.span.get? tok with
        | none => (lo, hi)
        | some cur => (widen min cur.1 lo, widen max cur.2 hi))
      intervals := match lo, hi with
        | some s, some e => acc.intervals.set tok (acc.intervals.getD tok [] ++ [(s, e)])
        | _, _ => acc.intervals }

/-- The pass of the loop for the row `d`. -/
def addRow (requested : List String) (acc : Accum) (d : ProviderDataset) : Accum :=
  match d.windowDir host with
  | none => acc
  | some windowDir =>
    (requested.dedup.filter (· ∈ d.tokenIds)).foldl (addToken host windowDir d) acc

/-! ## The sweep -/

/-- How far the sorted spans cover without a gap, looking no further than `endUs`. -/
def sweep (endUs : ℤ) : ℤ → List (ℤ × ℤ) → ℤ
  | cursor, [] => cursor
  | cursor, (intervalStart, intervalEnd) :: rest =>
    if intervalEnd < cursor then sweep endUs cursor rest
    else if intervalStart > cursor then cursor
    else
      let cursor := max cursor intervalEnd
      if cursor ≥ endUs then cursor else sweep endUs cursor rest

/-- The order of pairs. -/
def Before (x y : ℤ × ℤ) : Prop := x.1 < y.1 ∨ x.1 = y.1 ∧ x.2 ≤ y.2

instance : DecidableRel Before := fun _ _ => inferInstanceAs (Decidable (_ ∨ _))

instance : Std.Total Before := ⟨fun x y => by simp only [Before]; omega⟩

instance : IsTrans (ℤ × ℤ) Before := ⟨fun x y z => by simp only [Before]; omega⟩

/-- The requested tokens whose spans do not reach from `startUs` to `endUs`. -/
def insufficient (acc : Accum) (requested : List String) (startUs endUs : ℤ) : List String :=
  requested.filter fun tok =>
    sweep endUs startUs ((acc.intervals.getD tok []).insertionSort Before) < endUs

/-! ## The result -/

/-- `TokenCoverage`: the files and the datasets of one token, and the span that they reach over. -/
structure TokenCoverage where
  tokenId : String
  files : List String
  datasetIds : List String
  startUs : Option ℤ
  endUs : Option ℤ

/-- `CoverageMap`: the tokens that were asked for, the window, and the datasets by the path of their
files. -/
structure CoverageMap where
  byToken : Dict String TokenCoverage
  requested : List String
  windowStartUs : ℤ
  windowEndUs : ℤ
  datasetIdsByPath : Dict String (List String)

/-- What the resolver returns: the files of every token sorted, its datasets in the order of their
rows, and the datasets behind every path. -/
def coverageMap (acc : Accum) (requested : List String) (startUs endUs : ℤ) : CoverageMap where
  byToken := requested.foldl (fun m tok => m.set tok
    { tokenId := tok
      files := (acc.files.getD tok []).insertionSort (· ≤ ·)
      datasetIds := (acc.datasets.getD tok []).reverse.dedup.reverse
      startUs := (acc.span.getD tok (none, none)).1
      endUs := (acc.span.getD tok (none, none)).2 }) Dict.empty
  requested := requested
  windowStartUs := startUs
  windowEndUs := endUs
  datasetIdsByPath := (acc.byPath.keys.insertionSort (· ≤ ·)).foldl
    (fun m path => m.set path (sortedSet (acc.byPath.getD path []))) Dict.empty

/-- `resolve_coverage`, after the scan for new files; `datasetIds` is none without an explicit
selection. -/
def resolveCoverage (catalog : List ProviderDataset) (tokenIds : List String) (start end_ : ℤ)
    (providers datasetIds : Option (List String)) : Except CoverageError CoverageMap :=
  let requested := tokenIds.filter (· ≠ "")
  let startUs := micros start
  let endUs := micros end_
  if requested = [] then .ok ⟨Dict.empty, [], startUs, endUs, Dict.empty⟩
  else
    match datasetIds with
    | none =>
      let rows := selectAll catalog start end_ providers
      .ok (coverageMap (rows.foldl (addRow host requested) .empty) requested startUs endUs)
    | some datasetIds =>
      match selectByIds catalog requested start end_ providers datasetIds with
      | .error err => .error err
      | .ok rows =>
        let acc := rows.foldl (addRow host requested) .empty
        let short := insufficient acc requested startUs endUs
        if short ≠ [] then .error (.insufficient short)
        else .ok (coverageMap acc requested startUs endUs)

/-! ## The conversion -/

lemma micros_mono : Monotone micros := by
  intro s t hst
  have hx : toDouble (toDouble ((s : ℚ) / 10 ^ 6) * 10 ^ 6) ≤
      toDouble (toDouble ((t : ℚ) / 10 ^ 6) * 10 ^ 6) := by
    refine toDouble_mono (mul_le_mul_of_nonneg_right (toDouble_mono ?_) (by norm_num))
    exact div_le_div_of_nonneg_right (by exact_mod_cast hst) (by norm_num)
  simp only [micros]
  split_ifs with hs ht ht
  · exact Int.floor_mono hx
  · exact absurd (hs.trans hx) ht
  · exact (Int.ceil_le.2 (by exact_mod_cast (not_le.1 hs).le)).trans (Int.floor_nonneg.2 ht)
  · exact Int.ceil_mono hx

/-- From 5 September 2005 to 19 January 2038 the conversion is exact: the quotient is so close to
the time that the product is rounded back to it. -/
theorem micros_exact {t : ℤ} (hlow : 2 ^ 50 < t) (hhigh : t < 2 ^ 31 * 10 ^ 6) : micros t = t := by
  have hlowQ : (2 ^ 50 : ℚ) + 1 ≤ t := by exact_mod_cast hlow
  have hhighQ : (t : ℚ) < 2 ^ 31 * 10 ^ 6 := by exact_mod_cast hhigh
  -- the seconds are doubles with 22 binary places
  have hulp : ulp ((t : ℚ) / 10 ^ 6) = 2 ^ (30 - 52 : ℤ) := by
    refine ulp_eq ?_ ?_
    · rw [le_div_iff₀ (by norm_num)]
      norm_num
      linarith
    · rw [div_lt_iff₀ (by norm_num)]
      norm_num at hhighQ ⊢
      exact hhighQ
  obtain ⟨hdown, hup⟩ := abs_le.1 (abs_toDouble_sub_le ((t : ℚ) / 10 ^ 6))
  rw [hulp] at hdown hup
  generalize hq : toDouble ((t : ℚ) / 10 ^ 6) = q at hdown hup
  norm_num at hdown hup
  have hnearLow : (t : ℚ) - 1 / 8 < q * 10 ^ 6 := by linarith
  have hnearHigh : q * 10 ^ 6 < (t : ℚ) + 1 / 8 := by linarith
  -- the microseconds are doubles with 2 binary places
  have hulp' : ulp (q * 10 ^ 6) = 2 ^ (50 - 52 : ℤ) := by
    refine ulp_eq ?_ ?_
    · norm_num
      linarith
    · norm_num
      linarith
  have hround : nearestEven (q * 10 ^ 6 / ulp (q * 10 ^ 6)) = 4 * t := by
    rw [hulp']
    refine nearestEven_eq ?_ ?_ <;> norm_num <;> linarith
  have hback : toDouble (q * 10 ^ 6) = t := by
    rw [toDouble, hround, hulp']
    norm_num
    ring
  have hnonneg : (0 : ℚ) ≤ t := by linarith
  simp only [micros, hq, hback, if_pos hnonneg, Int.floor_intCast]

/-- Times in that range are different to the sweep when they are different. -/
lemma micros_injOn {ts : Set ℤ} (h : ∀ t ∈ ts, 2 ^ 50 < t ∧ t < 2 ^ 31 * 10 ^ 6) :
    Set.InjOn micros ts := by
  intro s hs t ht heq
  rwa [micros_exact (h s hs).1 (h s hs).2, micros_exact (h t ht).1 (h t ht).2] at heq

/-! ## The sweep -/

/-- On spans that are sorted by their starts the sweep finds out whether they are free of gaps. -/
lemma le_sweep_iff {endUs cursor : ℤ} {xs : List (ℤ × ℤ)}
    (hsorted : xs.Pairwise fun I J => I.1 ≤ J.1) :
    endUs ≤ sweep endUs cursor xs ↔ GapFree xs cursor endUs := by
  induction xs generalizing cursor with
  | nil =>
    simp only [sweep, GapFree, List.not_mem_nil, false_and, exists_false]
    exact ⟨fun h c hc hlt => absurd h (by omega), fun h => by_contra fun hlt =>
      h cursor le_rfl (by omega)⟩
  | cons I rest ih =>
    obtain ⟨intervalStart, intervalEnd⟩ := I
    obtain ⟨hfirst, hrest⟩ := List.pairwise_cons.1 hsorted
    simp only [sweep]
    split_ifs with hpast hgap hreached
    · -- the span ends before the cursor
      rw [ih hrest]
      refine forall_congr' fun c => imp_congr_right fun hc => imp_congr_right fun _ => ?_
      rw [List.exists_mem_cons_iff]
      exact ⟨Or.inr, fun h => h.resolve_left (by omega)⟩
    · -- no span that is left has begun at the cursor
      refine ⟨fun h c hc hlt => absurd h (by omega), fun h => by_contra fun hlt => ?_⟩
      obtain ⟨J, hJ, hstart, -⟩ := h cursor le_rfl (by omega)
      rcases List.mem_cons.1 hJ with rfl | hJ
      · exact absurd hgap (not_lt.2 hstart)
      · exact absurd ((hfirst J hJ).trans hstart) (not_le.2 hgap)
    · refine iff_of_true hreached fun c hc hlt => ?_
      exact ⟨_, List.mem_cons_self, by dsimp only; omega, by dsimp only; omega⟩
    · -- the cursor moves to the end of the span
      have hmax : max cursor intervalEnd = intervalEnd := by omega
      rw [hmax] at hreached ⊢
      rw [ih hrest]
      constructor
      · intro h c hc hlt
        rcases lt_or_ge c intervalEnd with hin | hout
        · exact ⟨_, List.mem_cons_self, by dsimp only; omega, hin⟩
        · obtain ⟨J, hJ, hcover⟩ := h c hout hlt
          exact ⟨J, List.mem_cons_of_mem _ hJ, hcover⟩
      · intro h c hc hlt
        obtain ⟨J, hJ, hstart, hend⟩ := h c (by omega) hlt
        rcases List.mem_cons.1 hJ with rfl | hJ
        · exact absurd hend (not_lt.2 hc)
        · exact ⟨J, hJ, hstart, hend⟩

/-! ## The spans of a token -/

namespace ProviderDataset

variable (d : ProviderDataset)

/-- The time from the first to the last instant of the row. -/
def span : Option (ℤ × ℤ) := d.startTs.bind fun s => d.endTs.map fun e => (s, e)

/-- There is a file of the token for the row. -/
def hasFile (tok : String) : Bool :=
  (d.windowDir host).any fun windowDir => (resolvedFile host windowDir tok).isSome

lemma span_eq_some {I : ℤ × ℤ} : d.span = some I ↔ d.startTs = some I.1 ∧ d.endTs = some I.2 := by
  cases hs : d.startTs <;> cases he : d.endTs <;> simp [span, hs, he, Prod.ext_iff]

end ProviderDataset

/-- The spans of the rows that list the token and have a file for it. -/
def spans (rows : List ProviderDataset) (tok : String) : List (ℤ × ℤ) :=
  rows.filterMap fun d => if tok ∈ d.tokenIds ∧ d.hasFile host tok then d.span else none

/-- The span as the sweep sees it. -/
def inMicros (I : ℤ × ℤ) : ℤ × ℤ := (micros I.1, micros I.2)

section
variable {host} {requested : List String} {d : ProviderDataset} {acc : Accum} {tok : String}

lemma intervals_addToken (windowDir : Path) (t : String) :
    (addToken host windowDir d acc t).intervals.getD tok [] = acc.intervals.getD tok [] ++
      if t = tok ∧ (resolvedFile host windowDir tok).isSome then (d.span.map inMicros).toList
      else [] := by
  by_cases ht : t = tok
  · subst ht
    simp only [addToken, ProviderDataset.span]
    cases hfile : resolvedFile host windowDir t with
    | none => simp
    | some file =>
      cases d.startTs <;> cases d.endTs <;> simp [inMicros, Dict.getD_set]
  · simp only [addToken]
    cases hfile : resolvedFile host windowDir t with
    | none => simp [ht]
    | some file =>
      cases d.startTs <;> cases d.endTs <;> simp [Dict.getD_set, ht]

lemma intervals_addTokens (windowDir : Path) {toks : List String} (hnodup : toks.Nodup) :
    (toks.foldl (addToken host windowDir d) acc).intervals.getD tok [] =
      acc.intervals.getD tok [] ++
        if tok ∈ toks ∧ (resolvedFile host windowDir tok).isSome then (d.span.map inMicros).toList
        else [] := by
  induction toks generalizing acc with
  | nil => simp
  | cons t toks ih =>
    obtain ⟨hnew, hrest⟩ := List.nodup_cons.1 hnodup
    rw [List.foldl_cons, ih hrest, intervals_addToken, List.append_assoc]
    congr 1
    by_cases ht : t = tok
    · subst ht
      simp [hnew]
    · simp [ht, Ne.symm ht]

lemma intervals_addRow (htok : tok ∈ requested) :
    (addRow host requested acc d).intervals.getD tok [] = acc.intervals.getD tok [] ++
      if tok ∈ d.tokenIds ∧ d.hasFile host tok then (d.span.map inMicros).toList else [] := by
  rcases hdir : d.windowDir host with _ | windowDir
  · have hnone : d.hasFile host tok = false := by simp [ProviderDataset.hasFile, hdir]
    simp [addRow, hdir, hnone]
  · have hsome : d.hasFile host tok = (resolvedFile host windowDir tok).isSome := by
      simp [ProviderDataset.hasFile, hdir]
    have hnodup : (requested.dedup.filter (· ∈ d.tokenIds)).Nodup :=
      (List.nodup_dedup requested).filter _
    simp [addRow, hdir, hsome, intervals_addTokens windowDir hnodup, htok]

/-- The loop over the rows collects the spans of a requested token. -/
lemma intervals_addRows (htok : tok ∈ requested) (rows : List ProviderDataset) :
    (rows.foldl (addRow host requested) acc).intervals.getD tok [] =
      acc.intervals.getD tok [] ++ (spans host rows tok).map inMicros := by
  induction rows generalizing acc with
  | nil => simp [spans]
  | cons d rows ih =>
    rw [List.foldl_cons, ih, intervals_addRow htok, List.append_assoc]
    congr 1
    simp only [spans, List.filterMap_cons]
    split_ifs with hd
    · cases d.span <;> rfl
    · rfl

end

/-! ## What the sweep decides -/

/-- `tuple(str(t) for t in token_ids if t)` -/
def requestedTokens (tokenIds : List String) : List String := tokenIds.filter (· ≠ "")

/-- The rows that a list of identifiers selects. -/
def selectedRows (catalog : List ProviderDataset) (providers : Option (List String))
    (datasetIds : List String) : List ProviderDataset :=
  catalog.filter fun d => d.id ∈ explicitIds datasetIds ∧ providers.all (d.provider ∈ ·)

/-- The selection is a selection: it is not empty, its identifiers are known, and its datasets list
every requested token. -/
structure Selectable (catalog : List ProviderDataset) (requested : List String)
    (providers : Option (List String)) (datasetIds : List String) : Prop where
  nonempty : explicitIds datasetIds ≠ []
  known : ∀ i ∈ explicitIds datasetIds, ∃ d ∈ selectedRows catalog providers datasetIds, d.id = i
  listed : ∀ tok ∈ requested, ∃ d ∈ selectedRows catalog providers datasetIds, tok ∈ d.tokenIds

/-- Every instant of the window lies in the span of a parquet dataset that lists the token and has a
file for it. -/
def Covered (rows : List ProviderDataset) (tok : String) (start end_ : ℤ) : Prop :=
  ∀ t : ℚ, t ∈ Set.Icc (start : ℚ) end_ → ∃ d ∈ rows, d.storageType = "parquet" ∧
    tok ∈ d.tokenIds ∧ d.hasFile host tok ∧ ∃ s e, d.startTs = some s ∧ d.endTs = some e ∧
      t ∈ Set.Icc (s : ℚ) e

/-- The times of the window and of the datasets. -/
def times (rows : List ProviderDataset) (start end_ : ℤ) : Set ℤ :=
  {t | t = start ∨ t = end_ ∨ ∃ d ∈ rows, d.startTs = some t ∨ d.endTs = some t}

section
variable {host} {rows : List ProviderDataset} {requested : List String} {tok : String}
  {start end_ : ℤ}

/-- The rows that the loop sees: those of the selection that matter in the window. -/
def relevant (rows : List ProviderDataset) (start end_ : ℤ) : List ProviderDataset :=
  rows.filter fun d => d.storageType = "parquet" ∧ d.overlaps start end_

lemma mem_spans {I : ℤ × ℤ} : I ∈ spans host rows tok ↔
    ∃ d ∈ rows, tok ∈ d.tokenIds ∧ d.hasFile host tok ∧ d.startTs = some I.1 ∧
      d.endTs = some I.2 := by
  simp only [spans, List.mem_filterMap]
  refine exists_congr fun d => and_congr_right fun _ => ?_
  split_ifs with hd
  · rw [d.span_eq_some, ← and_assoc, ← and_assoc, and_assoc (c := _ = _)]
    exact ⟨fun h => ⟨hd, h⟩, fun h => h.2⟩
  · exact ⟨fun h => (by cases h), fun h => absurd ⟨h.1, h.2.1⟩ hd⟩

/-- The spans of the relevant rows contain the instants that are covered. -/
lemma covered_iff : Covered host rows tok start end_ ↔
    ∀ t ∈ Set.Icc (start : ℚ) end_,
      ∃ I ∈ (spans host (relevant rows start end_) tok).map fun I => ((I.1 : ℚ), (I.2 : ℚ)),
        t ∈ Set.Icc I.1 I.2 := by
  refine forall_congr' fun t => imp_congr_right fun ht => ?_
  simp only [List.mem_map, exists_exists_and_eq_and, mem_spans, relevant, List.mem_filter,
    decide_eq_true_eq]
  constructor
  · rintro ⟨d, hd, hparquet, htok, hfile, s, e, hs, he, hin⟩
    have hbefore : s ≤ end_ := by exact_mod_cast hin.1.trans ht.2
    have hafter : start ≤ e := by exact_mod_cast ht.1.trans hin.2
    have hoverlaps : d.overlaps start end_ = true := by
      simp [ProviderDataset.overlaps, hs, he, hbefore, hafter]
    exact ⟨(s, e), ⟨d, ⟨hd, hparquet, hoverlaps⟩, htok, hfile, hs, he⟩, hin⟩
  · rintro ⟨I, ⟨d, ⟨hd, hparquet, -⟩, htok, hfile, hs, he⟩, hin⟩
    exact ⟨d, hd, hparquet, htok, hfile, I.1, I.2, hs, he, hin⟩

/-- The sweep reaches the end of the window if and only if the token is covered. -/
lemma sweep_spans (hwindow : start < end_) (hmicros : Set.InjOn micros (times rows start end_)) :
    micros end_ ≤ sweep (micros end_) (micros start)
        (((spans host (relevant rows start end_) tok).map inMicros).insertionSort Before) ↔
      Covered host rows tok start end_ := by
  let xs := spans host (relevant rows start end_) tok
  have hsorted : ((xs.map inMicros).insertionSort Before).Pairwise fun I J => I.1 ≤ J.1 :=
    (List.pairwise_insertionSort Before _).imp fun h => by
      simp only [Before] at h
      omega
  have hends : ∀ x ∈ endPoints xs start end_, x ∈ times rows start end_ := by
    intro x hx
    rcases mem_endPoints.1 hx with rfl | rfl | ⟨I, hI, hxI⟩
    · exact Or.inl rfl
    · exact Or.inr (Or.inl rfl)
    · obtain ⟨d, hd, -, -, hs, he⟩ := mem_spans.1 hI
      refine Or.inr (Or.inr ⟨d, (List.mem_filter.1 hd).1, ?_⟩)
      rcases hxI with rfl | rfl
      · exact Or.inl hs
      · exact Or.inr he
  -- different end points are different and in the same order as the sweep sees them
  have horder : ∀ x ∈ endPoints xs start end_, ∀ y ∈ endPoints xs start end_,
      micros x ≤ micros y ↔ x ≤ y := fun x hx y hy =>
    (micros_mono.monotoneOn _).strictMonoOn_of_injOn hmicros |>.le_iff_le (hends x hx) (hends y hy)
  calc micros end_ ≤ sweep (micros end_) (micros start)
        ((xs.map inMicros).insertionSort Before)
      ↔ GapFree ((xs.map inMicros).insertionSort Before) (micros start) (micros end_) :=
        le_sweep_iff hsorted
    _ ↔ GapFree (xs.map inMicros) (micros start) (micros end_) :=
        gapFree_congr fun I => List.mem_insertionSort Before
    _ ↔ GapFree xs start end_ := gapFree_map horder
    _ ↔ GapFree (xs.map fun I => ((I.1 : ℚ), (I.2 : ℚ))) start end_ :=
        (gapFree_map fun x _ y _ => Int.cast_le).symm
    _ ↔ _ := (covers_iff_gapFree (by exact_mod_cast hwindow)).symm
    _ ↔ Covered host rows tok start end_ := covered_iff.symm

/-- The tokens that the call complains about. -/
lemma mem_insufficient (hwindow : start < end_)
    (hmicros : Set.InjOn micros (times rows start end_)) :
    tok ∈ insufficient (((relevant rows start end_).foldl (addRow host requested) .empty))
        requested (micros start) (micros end_) ↔
      tok ∈ requested ∧ ¬ Covered host rows tok start end_ := by
  rw [insufficient, List.mem_filter]
  refine and_congr_right fun htok => ?_
  have hempty : Accum.empty.intervals.getD tok [] = [] := rfl
  rw [decide_eq_true_eq, intervals_addRows htok, hempty, List.nil_append, ← not_le,
    sweep_spans hwindow hmicros]

end

/-- What the selection by identifiers does. -/
lemma selectByIds_cases (catalog : List ProviderDataset) (requested : List String) (start end_ : ℤ)
    (providers : Option (List String)) (datasetIds : List String) :
    (selectByIds catalog requested start end_ providers datasetIds =
        .ok (relevant (selectedRows catalog providers datasetIds) start end_) ∧
      Selectable catalog requested providers datasetIds) ∨
    ∃ err, selectByIds catalog requested start end_ providers datasetIds = .error err ∧
      (∀ toks, err ≠ .insufficient toks) ∧ ¬ Selectable catalog requested providers datasetIds := by
  have hrows : selectByIds catalog requested start end_ providers datasetIds =
      let ids := explicitIds datasetIds
      let rows := selectedRows catalog providers datasetIds
      let missing := ids.filter fun i => i ∉ rows.map ProviderDataset.id
      let selected := rows.flatMap ProviderDataset.tokenIds
      if ids = [] then .error .emptySelection
      else if missing ≠ [] then .error (.unknownDatasets (sortedSet missing))
      else if ¬ requested ⊆ selected then
        .error (.tokenMismatch (sortedSet requested) (sortedSet selected))
      else .ok (relevant rows start end_) := rfl
  rw [hrows]
  dsimp only
  split_ifs with hids hmissing hlisted
  · exact Or.inr ⟨_, rfl, fun toks => nofun, fun h => h.nonempty hids⟩
  · refine Or.inr ⟨_, rfl, fun toks => nofun, fun h => hmissing (List.filter_eq_nil_iff.2 ?_)⟩
    intro i hi
    obtain ⟨d, hd, rfl⟩ := h.known i hi
    simpa using ⟨d, hd, rfl⟩
  · refine Or.inl ⟨rfl, hids, fun i hi => ?_, fun tok htok => ?_⟩
    · have hknown := List.filter_eq_nil_iff.1 (not_not.1 hmissing) i hi
      simpa using hknown
    · exact List.mem_flatMap.1 (hlisted htok)
  · refine Or.inr ⟨_, rfl, fun toks => nofun, fun h => hlisted fun tok htok => ?_⟩
    obtain ⟨d, hd, hin⟩ := h.listed tok htok
    exact List.mem_flatMap.2 ⟨d, hd, hin⟩

/-- On a window whose end points and the datasets' are different to the sweep when they are
different, a selection by identifiers is refused for its coverage if and only if it is a selection
and some instant of the window is not covered for some requested token, and it is accepted if and
only if it is a selection and every instant is covered for every token. -/
theorem coverage_exact (host : Host) (catalog : List ProviderDataset) (tokenIds : List String)
    (start end_ : ℤ) (providers : Option (List String)) (datasetIds : List String)
    (hwindow : start < end_)
    (hmicros : Set.InjOn micros (times (selectedRows catalog providers datasetIds) start end_)) :
    let result := resolveCoverage host catalog tokenIds start end_ providers (some datasetIds)
    let requested := requestedTokens tokenIds
    let covered := ∀ tok ∈ requested,
      Covered host (selectedRows catalog providers datasetIds) tok start end_
    ((∃ toks, result = .error (.insufficient toks)) ↔
      Selectable catalog requested providers datasetIds ∧ ¬ covered) ∧
    ((∃ m, result = .ok m) ↔
      requested = [] ∨ Selectable catalog requested providers datasetIds ∧ covered) := by
  intro result requested covered
  have hresult : result =
      if requested = [] then .ok ⟨Dict.empty, [], micros start, micros end_, Dict.empty⟩
      else
        match selectByIds catalog requested start end_ providers datasetIds with
        | .error err => .error err
        | .ok rows =>
          let acc := rows.foldl (addRow host requested) .empty
          let short := insufficient acc requested (micros start) (micros end_)
          if short ≠ [] then .error (.insufficient short)
          else .ok (coverageMap acc requested (micros start) (micros end_)) := rfl
  rw [hresult]
  by_cases hnone : requested = []
  · have hcovered : covered := by simp [covered, hnone]
    rw [if_pos hnone]
    exact ⟨⟨fun h => absurd h (by simp), fun h => absurd hcovered h.2⟩, by simp [hnone]⟩
  · rw [if_neg hnone]
    rcases selectByIds_cases catalog requested start end_ providers datasetIds with
      ⟨hselect, hselectable⟩ | ⟨err, hselect, herr, hnot⟩
    · simp only [hselect]
      have hshort : insufficient ((relevant (selectedRows catalog providers datasetIds) start
          end_).foldl (addRow host requested) .empty) requested (micros start) (micros end_) = [] ↔
          covered := by
        simp only [List.eq_nil_iff_forall_not_mem, mem_insufficient hwindow hmicros, covered,
          not_and, not_not]
      split_ifs with hempty
      · exact ⟨by simpa [hselectable] using fun h => hempty (hshort.2 h),
          by simpa [hnone, hselectable] using fun h => hempty (hshort.2 h)⟩
      · have hcovered := hshort.1 (not_not.1 hempty)
        exact ⟨by simp [hcovered], by simp [hselectable, hcovered]⟩
    · simp only [hselect]
      exact ⟨by simp [hnot, herr], by simp [hnone, hnot]⟩

/-- A host with one file, `/data/snapshots.parquet`, and plain local URLs. -/
def oneFileHost : Host where
  urlPath uri := some (String.ofList (uri.toList.drop 7))
  unquote := id
  isAlnum := Char.isAlphanum
  fileExists p := p = ⟨true, ["data", "snapshots.parquet"]⟩

/-- A row with the file for the token `YES`. -/
def yesRow (id : String) (start end_ : ℤ) : ProviderDataset where
  id := id
  provider := "evosport"
  tokenIds := ["YES"]
  startTs := some start
  endTs := some end_
  storageUri := some "file:///data"

/-- Two datasets that touch cover what they reach over together. -/
theorem touching_exact :
    let catalog := [yesRow "late" 1700000600000000 1700001200000000,
      yesRow "early" 1700000000000000 1700000600000000]
    let result := resolveCoverage oneFileHost catalog ["YES"] 1700000000000000 1700001000000000
      none (some ["late", "early"])
    let requested := requestedTokens ["YES"]
    let rows := selectedRows catalog none ["late", "early"]
    let covered := ∀ tok ∈ requested,
      Covered oneFileHost rows tok 1700000000000000 1700001000000000
    ((∃ toks, result = .error (.insufficient toks)) ↔
      Selectable catalog requested none ["late", "early"] ∧ ¬ covered) ∧
    ((∃ m, result = .ok m) ↔
      requested = [] ∨ Selectable catalog requested none ["late", "early"] ∧ covered) := by
  refine coverage_exact oneFileHost _ ["YES"] 1700000000000000 1700001000000000 none
    ["late", "early"] (by decide) (micros_injOn ?_)
  rintro t (rfl | rfl | ⟨d, hd, ht⟩)
  · decide
  · decide
  · have hrow := (List.mem_filter.1 hd).1
    simp only [List.mem_cons, List.not_mem_nil, or_false] at hrow
    rcases hrow with rfl | rfl <;> rcases ht with ht | ht <;> cases ht <;> decide

/-- The call is refused for its coverage. -/
def refusesCoverage : Except CoverageError CoverageMap → Bool
  | .error (.insufficient _) => true
  | _ => false

/-- A token that no dataset of the selection lists is refused before its coverage is looked at.  And
in March 2004 two datasets that end and begin one microsecond apart look as if they touched. -/
theorem unlisted_and_collapsed :
    (refusesCoverage (resolveCoverage oneFileHost [yesRow "d" 1700000000000000 1700000600000000]
        ["NO"] 1700000000000000 1700000600000000 none (some ["d"])) = false ∧
      ¬ Covered oneFileHost [yesRow "d" 1700000000000000 1700000600000000] "NO" 1700000000000000
        1700000600000000) ∧
    (refusesCoverage (resolveCoverage oneFileHost
        [yesRow "d" 1080000000000000 1080000000000001, yesRow "e" 1080000000000002 1080000000000005]
        ["YES"] 1080000000000000 1080000000000005 none (some ["d", "e"])) = false ∧
      ¬ Covered oneFileHost
        [yesRow "d" 1080000000000000 1080000000000001, yesRow "e" 1080000000000002 1080000000000005]
        "YES" 1080000000000000 1080000000000005) := by
  refine ⟨⟨by decide +kernel, fun h => ?_⟩, ⟨by decide +kernel, fun h => ?_⟩⟩
  · obtain ⟨d, hd, -, hlists, -⟩ := h 1700000000000000 (by norm_num)
    rw [List.mem_singleton.1 hd] at hlists
    revert hlists
    decide
  · -- half a microsecond after the first dataset ends
    obtain ⟨d, hd, -, -, -, s, e, hs, he, hin⟩ := h (1080000000000001 + 1 / 2) (by norm_num)
    simp only [List.mem_cons, List.not_mem_nil, or_false] at hd
    rcases hd with rfl | rfl <;> cases hs <;> cases he <;> norm_num at hin

end Evosport.Data.Coverage
