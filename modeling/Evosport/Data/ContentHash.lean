/-
The two content hashes of a dataset.

A market data view pins the files it reads as snapshot entries, and a dataset manifest lists the
same files.  Both are hashed over one line a file, `path|sha256|size`, with the separators of the
path normalised.  The view sorts the lines (`services/marketdata/manifest.py`), the experiment
runner lists the files by path (`evosport/experiments/runner.py`), so the hashes agree where listing
the files by path lists their lines in order (`agrees_iff`).  A hash determines the lines, and a
line its path up to separators, as long as no path has a line break.
-/
import Evosport.Lib.Sha256
import Evosport.Lib.StableSort
import Mathlib.Data.String.Basic

namespace Evosport.Data

open Lib

/-! ## Entries and manifests -/

/-- A snapshot entry, as far as its fingerprint goes: the path, the size, the time of its last
change and the digest of a file, and the number of its rows. -/
structure SnapshotEntry where
  path : String
  sizeBytes : ℕ
  mtimeUs : ℤ
  sha256 : String
  rows : ℤ
  deriving DecidableEq, Repr

/-- `path.replace("\\", "/")` -/
def normalizePath (path : String) : String := path.map fun c => if c = '\\' then '/' else c

/-- The line of a file with a digest. -/
def hashLine (path sha256 : String) (sizeBytes : ℕ) : String :=
  normalizePath path ++ "|" ++ sha256 ++ "|" ++ toString sizeBytes

/-- `SnapshotEntry.fingerprint` -/
def SnapshotEntry.fingerprint (e : SnapshotEntry) : String :=
  if e.sha256 ≠ "" then hashLine e.path e.sha256 e.sizeBytes
  else normalizePath e.path ++ "|" ++ toString e.sizeBytes ++ "|" ++ toString e.mtimeUs ++ "|" ++
    toString e.rows

/-- The text of some lines, each with a line break behind it. -/
def joinLines (lines : List String) : List Char := lines.flatMap fun l => l.toList ++ ['\n']

/-- The bytes that are digested for some lines. -/
def lineBytes (lines : List String) : ByteArray := (String.ofList (joinLines lines)).toUTF8

/-- The digest of some lines. -/
def hashLines (lines : List String) : String := "sha256:" ++ Lib.sha256 (lineBytes lines)

/-- The lines that `compute_content_hash` digests. -/
def contentLines (entries : List SnapshotEntry) : List String :=
  sortByKey id (entries.map SnapshotEntry.fingerprint)

/-- `compute_content_hash` -/
def computeContentHash (entries : List SnapshotEntry) : String := hashLines (contentLines entries)

/-- `SHA256_PATTERN` -/
def isSha256 (s : String) : Bool :=
  s.toList.length == 64 && s.toList.all fun c => c.isDigit || ('a' ≤ c && c ≤ 'f')

/-- A digest is one that the pattern takes. -/
lemma isSha256_sha256 (message : ByteArray) : isSha256 (sha256 message) = true := by
  have hdigit : ∀ n, ((Sha256.hexDigit n).isDigit ||
      ('a' ≤ Sha256.hexDigit n && Sha256.hexDigit n ≤ 'f')) = true := by
    intro n
    have hall : ∀ c ∈ "0123456789abcdef".toList,
        (c.isDigit || ('a' ≤ c && c ≤ 'f')) = true := by simp
    rw [Sha256.hexDigit, List.getD_eq_getElem?_getD]
    cases hc : "0123456789abcdef".toList[n]? with
    | none => decide
    | some c => exact hall c (List.mem_of_getElem? hc)
  simp [isSha256, sha256, Sha256.hexWord, hdigit]

/-- A file of a manifest; that its path is absolute and its digest has 64 digits is checked when it
is built. -/
structure DatasetFile where
  path : String
  sha256 : String
  sizeBytes : ℕ
  absolute : path.toList.head? = some '/'
  digest : isSha256 sha256 = true

/-- A manifest, as far as its files go; there is at least one, and their paths are sorted and
different. -/
structure DatasetManifest where
  files : List DatasetFile
  nonempty : files ≠ []
  pathsSorted : (files.map DatasetFile.path).Pairwise (· < ·)

/-- The line of a file. -/
def DatasetFile.line (f : DatasetFile) : String := hashLine f.path f.sha256 f.sizeBytes

namespace DatasetManifest

/-- The lines that `_manifest_effective_content_hash` digests. -/
def effectiveLines (m : DatasetManifest) : List String :=
  (sortByKey DatasetFile.path m.files).map DatasetFile.line

/-- `_manifest_effective_content_hash` -/
def effectiveContentHash (m : DatasetManifest) : String := hashLines m.effectiveLines

/-- Listing the files by path lists their lines in order. -/
def LinesInPathOrder (m : DatasetManifest) : Prop := m.effectiveLines.Pairwise (· ≤ ·)

instance (m : DatasetManifest) : Decidable m.LinesInPathOrder :=
  inferInstanceAs (Decidable (m.effectiveLines.Pairwise (· ≤ ·)))

end DatasetManifest

/-- What the hash is taken of: the path as it is written, the digest and the size. -/
def SnapshotEntry.triple (e : SnapshotEntry) : String × String × ℕ :=
  (e.path, e.sha256, e.sizeBytes)

/-- The triple with the separators of the path normalised. -/
def SnapshotEntry.normalTriple (e : SnapshotEntry) : String × String × ℕ :=
  (normalizePath e.path, e.sha256, e.sizeBytes)

/-- The same three data of a file in a manifest. -/
def DatasetFile.triple (f : DatasetFile) : String × String × ℕ := (f.path, f.sha256, f.sizeBytes)

/-- The entry carries a digest, and its path has no line break. -/
structure SnapshotEntry.Unbroken (e : SnapshotEntry) : Prop where
  digest : isSha256 e.sha256 = true
  path : '\n' ∉ e.path.toList

instance (e : SnapshotEntry) : Decidable e.Unbroken :=
  decidable_of_iff (isSha256 e.sha256 = true ∧ '\n' ∉ e.path.toList)
    ⟨fun h => ⟨h.1, h.2⟩, fun h => ⟨h.1, h.2⟩⟩

/-! ## Lines -/

private lemma ne_of_isSha256 {s : String} (h : isSha256 s = true) {c d : Char} (hc : c ∈ s.toList)
    (hd : d.isDigit = false) (hd' : (decide ('a' ≤ d) && decide (d ≤ 'f')) = false) : c ≠ d := by
  rintro rfl
  simp only [isSha256, Bool.and_eq_true, List.all_eq_true] at h
  have hhex := h.2 c hc
  rw [hd, hd'] at hhex
  cases hhex

private lemma ne_of_mem_toString {n : ℕ} {c d : Char} (hc : c ∈ (toString n).toList)
    (hd : d.isDigit = false) : c ≠ d := by
  rintro rfl
  have hdigit : c.isDigit = true := Nat.isDigit_of_mem_toDigits (b := 10) (by omega) (by omega)
    (by simpa using hc)
  rw [hd] at hdigit
  cases hdigit

/-- A text is cut at its last separator in one way. -/
private lemma append_cons_inj {c : Char} {a a' b b' : List Char} (hb : c ∉ b) (hb' : c ∉ b')
    (h : a ++ c :: b = a' ++ c :: b') : a = a' ∧ b = b' := by
  have hsplit := congrArg (List.splitOn c) h
  rw [List.splitOn_append_cons_self, List.splitOn_append_cons_self, List.splitOn_eq_singleton hb,
    List.splitOn_eq_singleton hb'] at hsplit
  obtain ⟨hinit, hlast⟩ := List.append_inj' hsplit rfl
  refine ⟨?_, (List.cons.inj hlast).1⟩
  have hjoin := congrArg (List.intercalate [c]) hinit
  rwa [List.intercalate_splitOn, List.intercalate_splitOn] at hjoin

private lemma toString_inj {n n' : ℕ} (h : (toString n).toList = (toString n').toList) :
    n = n' := by
  have hread := congrArg (fun cs => Nat.ofDigitChars 10 cs 0) h
  simpa [Nat.ofDigitChars_ten_toDigits] using hread

private lemma toList_hashLine (path sha256 : String) (n : ℕ) :
    (hashLine path sha256 n).toList =
      (normalizePath path).toList ++ '|' :: sha256.toList ++ '|' :: (toString n).toList := by
  simp [hashLine]

/-- A line determines its file up to separators. -/
lemma hashLine_inj {p p' s s' : String} {n n' : ℕ} (hs : isSha256 s = true)
    (hs' : isSha256 s' = true) (h : hashLine p s n = hashLine p' s' n') :
    normalizePath p = normalizePath p' ∧ s = s' ∧ n = n' := by
  have hdigits : ∀ k : ℕ, '|' ∉ (toString k).toList := fun k hmem =>
    ne_of_mem_toString hmem (by decide) rfl
  have hhex : ∀ t : String, isSha256 t = true → '|' ∉ t.toList := fun t ht hmem =>
    ne_of_isSha256 ht hmem (by decide) (by decide) rfl
  have hlists := congrArg String.toList h
  rw [toList_hashLine, toList_hashLine] at hlists
  obtain ⟨hfront, hsize⟩ := append_cons_inj (hdigits n) (hdigits n') hlists
  obtain ⟨hpath, hsha⟩ := append_cons_inj (hhex s hs) (hhex s' hs') hfront
  exact ⟨String.toList_inj.1 hpath, String.toList_inj.1 hsha, toString_inj hsize⟩

lemma newline_notMem_hashLine {p s : String} (hp : '\n' ∉ p.toList) (hs : isSha256 s = true)
    (n : ℕ) : '\n' ∉ (hashLine p s n).toList := by
  rw [toList_hashLine]
  simp only [normalizePath, String.toList_map, List.mem_append, List.mem_map, List.mem_cons,
    not_or, not_exists, not_and]
  refine ⟨⟨fun c hc => ?_, by decide, fun hmem => ?_⟩, by decide, fun hmem => ?_⟩
  · split
    · decide
    · rintro rfl
      exact hp hc
  · exact ne_of_isSha256 hs hmem (by decide) (by decide) rfl
  · exact ne_of_mem_toString hmem (by decide) rfl

/-- The lines of a text are found again. -/
private lemma splitOn_joinLines {lines : List String} (h : ∀ l ∈ lines, '\n' ∉ l.toList) :
    (joinLines lines).splitOn '\n' = lines.map String.toList ++ [[]] := by
  induction lines with
  | nil => rfl
  | cons l lines ih =>
    obtain ⟨hl, hlines⟩ := List.forall_mem_cons.1 h
    have hcons : joinLines (l :: lines) = l.toList ++ '\n' :: joinLines lines := by
      simp [joinLines]
    rw [hcons, List.splitOn_append_cons_self, List.splitOn_eq_singleton hl, ih hlines]
    rfl

lemma joinLines_inj {lines lines' : List String} (h : ∀ l ∈ lines, '\n' ∉ l.toList)
    (h' : ∀ l ∈ lines', '\n' ∉ l.toList) (heq : joinLines lines = joinLines lines') :
    lines = lines' := by
  have hsplit := splitOn_joinLines h
  rw [heq, splitOn_joinLines h'] at hsplit
  have hmap := List.append_cancel_right hsplit
  exact (List.map_injective_iff.2 fun _ _ => String.toList_inj.1) hmap.symm

lemma lineBytes_inj {lines lines' : List String} :
    lineBytes lines = lineBytes lines' ↔ joinLines lines = joinLines lines' := by
  rw [lineBytes, lineBytes]
  constructor
  · intro h
    exact String.ofList_injective (String.toByteArray_inj.1 h)
  · intro h
    rw [h]

lemma hashLines_inj {lines lines' : List String}
    (hsha : NoCollision (lineBytes lines) (lineBytes lines'))
    (h : hashLines lines = hashLines lines') : joinLines lines = joinLines lines' := by
  refine lineBytes_inj.1 (hsha ?_)
  have hlists := congrArg String.toList h
  simp only [hashLines, String.toList_append] at hlists
  exact String.toList_inj.1 (List.append_cancel_left hlists)

/-! ## The two hashes -/

lemma computeContentHash_congr {es es' : List SnapshotEntry}
    (h : contentLines es = contentLines es') : computeContentHash es = computeContentHash es' :=
  congrArg hashLines h

/-- The lines of entries do not depend on their order. -/
lemma contentLines_perm {es es' : List SnapshotEntry} (h : es.Perm es') :
    contentLines es = contentLines es' := by
  refine List.Perm.eq_of_pairwise (fun _ _ _ _ => le_antisymm) (pairwise_sortByKey _)
    (pairwise_sortByKey _) ?_
  exact (perm_sortByKey id _).trans ((h.map _).trans (perm_sortByKey id _).symm)

lemma ne_empty_of_isSha256 {s : String} (h : isSha256 s = true) : s ≠ "" := by
  rintro rfl
  exact absurd h (by decide)

lemma fingerprint_eq {e : SnapshotEntry} (h : isSha256 e.sha256 = true) :
    e.fingerprint = hashLine e.path e.sha256 e.sizeBytes := by
  rw [SnapshotEntry.fingerprint, if_pos (ne_empty_of_isSha256 h)]

section Agreement

variable {m : DatasetManifest} {es : List SnapshotEntry}

/-- Entries with the triples of a manifest have its lines. -/
private lemma contentLines_perm_effectiveLines
    (h : (es.map SnapshotEntry.triple).Perm (m.files.map DatasetFile.triple)) :
    (contentLines es).Perm m.effectiveLines := by
  have hfingerprints : es.map SnapshotEntry.fingerprint =
      (es.map SnapshotEntry.triple).map fun t => hashLine t.1 t.2.1 t.2.2 := by
    rw [List.map_map]
    refine List.map_congr_left fun e he => ?_
    obtain ⟨f, -, hf⟩ := List.mem_map.1 (h.subset (List.mem_map_of_mem he))
    have hsha : f.sha256 = e.sha256 := congrArg (fun t => t.2.1) hf
    exact fingerprint_eq (hsha ▸ f.digest)
  have hlines : m.files.map DatasetFile.line =
      (m.files.map DatasetFile.triple).map fun t => hashLine t.1 t.2.1 t.2.2 := by
    rw [List.map_map]
    rfl
  have hsorted : m.effectiveLines.Perm (m.files.map DatasetFile.line) :=
    (perm_sortByKey DatasetFile.path m.files).map _
  refine (perm_sortByKey id _).trans (?_ : List.Perm _ _)
  rw [hfingerprints]
  exact (h.map _).trans (hlines ▸ hsorted.symm)

lemma contentLines_eq_of_linesInPathOrder
    (h : (es.map SnapshotEntry.triple).Perm (m.files.map DatasetFile.triple))
    (horder : m.LinesInPathOrder) : contentLines es = m.effectiveLines :=
  List.Perm.eq_of_pairwise (fun _ _ _ _ => le_antisymm) (pairwise_sortByKey _) horder
    (contentLines_perm_effectiveLines h)

/-- Without line breaks in the paths the two hashes agree exactly where the files listed by path
have their lines in order. -/
theorem agrees_iff (h : (es.map SnapshotEntry.triple).Perm (m.files.map DatasetFile.triple))
    (hpaths : ∀ f ∈ m.files, '\n' ∉ f.path.toList)
    (hsha : NoCollision (lineBytes m.effectiveLines) (lineBytes (contentLines es))) :
    m.effectiveContentHash = computeContentHash es ↔ m.LinesInPathOrder := by
  constructor
  · intro heq
    have hbreaks : ∀ l ∈ m.effectiveLines, '\n' ∉ l.toList := by
      intro l hl
      obtain ⟨f, hf, rfl⟩ := List.mem_map.1 hl
      exact newline_notMem_hashLine (hpaths f (mem_sortByKey.1 hf)) f.digest _
    have hbreaks' : ∀ l ∈ contentLines es, '\n' ∉ l.toList := fun l hl =>
      hbreaks l ((contentLines_perm_effectiveLines h).subset hl)
    have hlines := joinLines_inj hbreaks hbreaks' (hashLines_inj hsha heq)
    rw [DatasetManifest.LinesInPathOrder, hlines]
    exact pairwise_sortByKey _
  · intro horder
    rw [DatasetManifest.effectiveContentHash, computeContentHash,
      contentLines_eq_of_linesInPathOrder h horder]

end Agreement

/-- Entries with the same hash are the same files up to separators. -/
lemma normalTriple_of_hash_eq {es es' : List SnapshotEntry} (h : ∀ e ∈ es, e.Unbroken)
    (h' : ∀ e ∈ es', e.Unbroken)
    (hsha : NoCollision (lineBytes (contentLines es)) (lineBytes (contentLines es')))
    (heq : computeContentHash es = computeContentHash es') :
    ∀ t ∈ es.map SnapshotEntry.normalTriple, t ∈ es'.map SnapshotEntry.normalTriple := by
  have hbreaks : ∀ es : List SnapshotEntry, (∀ e ∈ es, e.Unbroken) →
      ∀ l ∈ contentLines es, '\n' ∉ l.toList := by
    intro es hes l hl
    obtain ⟨e, he, rfl⟩ := List.mem_map.1 (mem_sortByKey.1 hl)
    rw [fingerprint_eq (hes e he).digest]
    exact newline_notMem_hashLine (hes e he).path (hes e he).digest _
  have hlines := joinLines_inj (hbreaks es h) (hbreaks es' h') (hashLines_inj hsha heq)
  intro t ht
  obtain ⟨e, he, rfl⟩ := List.mem_map.1 ht
  have hmem : e.fingerprint ∈ contentLines es' := by
    rw [← hlines]
    exact mem_sortByKey.2 (List.mem_map_of_mem he)
  obtain ⟨e', he', hline⟩ := List.mem_map.1 (mem_sortByKey.1 hmem)
  rw [fingerprint_eq (h e he).digest, fingerprint_eq (h' e' he').digest] at hline
  obtain ⟨hpath, hsha, hsize⟩ := hashLine_inj (h' e' he').digest (h e he).digest hline
  refine List.mem_map.2 ⟨e', he', ?_⟩
  rw [SnapshotEntry.normalTriple, hpath, hsha, hsize]
  rfl

/-- The content hash of entries does not depend on their order; the hash of a manifest is the
content hash of entries with its triples where the files listed by path have their lines in order;
and entries without line breaks in their paths that have the same hash have the same triples up to
the separators of the paths. -/
theorem contentHash_spec :
    (∀ es es' : List SnapshotEntry, es.Perm es' → computeContentHash es = computeContentHash es') ∧
    (∀ (m : DatasetManifest) (es : List SnapshotEntry),
      (es.map SnapshotEntry.triple).Perm (m.files.map DatasetFile.triple) → m.LinesInPathOrder →
        m.effectiveContentHash = computeContentHash es) ∧
    ∀ es es' : List SnapshotEntry, (∀ e ∈ es, e.Unbroken) → (∀ e ∈ es', e.Unbroken) →
      NoCollision (lineBytes (contentLines es)) (lineBytes (contentLines es')) →
      computeContentHash es = computeContentHash es' →
      ∀ t, t ∈ es.map SnapshotEntry.normalTriple ↔ t ∈ es'.map SnapshotEntry.normalTriple := by
  refine ⟨fun es es' h => ?_, fun m es h horder => ?_, fun es es' h h' hsha heq t => ?_⟩
  · exact computeContentHash_congr (contentLines_perm h)
  · rw [DatasetManifest.effectiveContentHash, computeContentHash,
      contentLines_eq_of_linesInPathOrder h horder]
  · exact ⟨normalTriple_of_hash_eq h h' hsha heq t,
      normalTriple_of_hash_eq h' h (fun hcollide => (hsha hcollide.symm).symm) heq.symm t⟩

section Examples

/-- A digest of the right shape, for the examples below. -/
def zeroDigest : String := "0000000000000000000000000000000000000000000000000000000000000000"

/-- An entry at a path, seven bytes long. -/
def entryAt (path : String) : SnapshotEntry := ⟨path, 7, 0, zeroDigest, 0⟩

/-- The same as a file of a manifest, whose paths are absolute. -/
def fileAt (path : String) (h : path.toList.head? = some '/') : DatasetFile :=
  ⟨path, zeroDigest, 7, h, by decide⟩

/-- Two files of one directory. -/
def twoFiles : DatasetManifest where
  files := [fileAt "/d/a.parquet" (by decide), fileAt "/d/b.parquet" (by decide)]
  nonempty := by simp
  pathsSorted := by decide

/-- A file, and one whose path goes on behind it. -/
def prefixFiles : DatasetManifest where
  files := [fileAt "/d/a" (by decide), fileAt "/d/a.parquet" (by decide)]
  nonempty := by simp
  pathsSorted := by decide

/-- Entries whose paths differ in their separators have the same line. -/
lemma fingerprint_entryAt {path path' : String} (h : normalizePath path = normalizePath path') :
    (entryAt path).fingerprint = (entryAt path').fingerprint := by
  have hdigest : isSha256 zeroDigest = true := by decide
  rw [fingerprint_eq (e := entryAt path) hdigest, fingerprint_eq (e := entryAt path') hdigest]
  exact congrArg (fun p => p ++ "|" ++ zeroDigest ++ "|" ++ toString 7) h

/-- Both orders of the two files, and the second one with a separator of the other kind. -/
theorem contentHash_of_twoFiles :
    computeContentHash [entryAt "/d/a.parquet", entryAt "/d/b.parquet"] =
      computeContentHash [entryAt "/d/b.parquet", entryAt "/d/a.parquet"] ∧
    twoFiles.effectiveContentHash =
      computeContentHash [entryAt "/d/b.parquet", entryAt "/d/a.parquet"] ∧
    ∀ t, t ∈ [entryAt "/d/a.parquet", entryAt "/d/b.parquet"].map SnapshotEntry.normalTriple ↔
      t ∈ [entryAt "/d\\b.parquet", entryAt "/d/a.parquet"].map SnapshotEntry.normalTriple := by
  have hpath : normalizePath "/d\\b.parquet" = normalizePath "/d/b.parquet" := by
    rw [← String.toList_inj]
    simp [normalizePath]
  have hswap : contentLines [entryAt "/d/b.parquet", entryAt "/d/a.parquet"] =
      contentLines [entryAt "/d/a.parquet", entryAt "/d/b.parquet"] :=
    contentLines_perm (List.Perm.swap _ _ _)
  have hlines : contentLines [entryAt "/d\\b.parquet", entryAt "/d/a.parquet"] =
      contentLines [entryAt "/d/a.parquet", entryAt "/d/b.parquet"] :=
    (congrArg (fun l => sortByKey id [l, (entryAt "/d/a.parquet").fingerprint])
      (fingerprint_entryAt hpath)).trans hswap
  exact ⟨contentHash_spec.1 _ _ (List.Perm.swap _ _ _),
    contentHash_spec.2.1 twoFiles _ (by decide) (by decide +kernel),
    contentHash_spec.2.2 _ _ (by decide) (by decide) (fun _ => by rw [hlines])
      (computeContentHash_congr hlines.symm)⟩

/-- Two different files with one hash. -/
theorem separators_collide :
    computeContentHash [entryAt "/d/a\\b"] = computeContentHash [entryAt "/d/a/b"] ∧
      ¬ ∀ t, t ∈ [entryAt "/d/a\\b"].map SnapshotEntry.triple ↔
        t ∈ [entryAt "/d/a/b"].map SnapshotEntry.triple := by
  have hpath : normalizePath "/d/a\\b" = normalizePath "/d/a/b" := by
    rw [← String.toList_inj]
    simp [normalizePath]
  refine ⟨computeContentHash_congr
    (congrArg (fun l => sortByKey id [l]) (fingerprint_entryAt hpath)), fun h => ?_⟩
  have hmem := (h ("/d/a\\b", zeroDigest, 7)).1 List.mem_cons_self
  have hsame := congrArg Prod.fst (List.mem_singleton.1 hmem)
  exact absurd hsame (by decide)

/-- A path that goes on behind another one comes after it, and its line before. -/
example : ¬ prefixFiles.LinesInPathOrder := by decide +kernel

end Examples

end Evosport.Data
