/-
Whether a pass of the bus pruner enforces the retention caps.

The bus writes the events of a topic to the first parquet source of its storage URI, and replays all
of them; the URI is a plain path or a JSON document with a list of sources (`multi_source.py`).  The
pruner takes the text of the URI for the path, so it never looks at what a list of sources names.
What a pass leaves is within the caps exactly if the expired date partitions at plain paths held
nothing but parquet files, the topics with a list of sources were within their caps before, and the
global cap asks for no more than 1000 deletions (`capsEnforced_iff`).
-/
import Evosport.Data.CapPasses
import Evosport.Lib.JsonParse

namespace Evosport.Data

open Lib

/-! ## Where a topic is stored -/

/-- A row of the topic catalog: where and how a topic is stored, and its caps in days and in bytes.
-/
structure TopicRow where
  slug : String
  storageKind : StorageKind
  storageUri : String
  retentionDays : Option ℤ
  maxBytes : Option ℤ

/-- The value of `storage_kind`. -/
def StorageKind.text : StorageKind → String
  | .parquet => "parquet"
  | .externalParquet => "external_parquet"
  | .sqlTable => "sql_table"
  | .memory => "memory"

/-- The parts of `Path(text)`; those of an absolute path start with an empty one. -/
def partsOfPath (text : String) : List String :=
  let parts := ((text.toList.splitOn '/').map String.ofList).filter fun part =>
    part ≠ "" ∧ part ≠ "."
  if text.toList.head? = some '/' then "" :: parts else parts

namespace TopicRow

/-- `_resolve_sources_from_spec`; numbers of the document are not looked at. -/
def resolveSources (t : TopicRow) : List (Json Unit) :=
  if t.storageUri = "" then []
  else
    match Json.loads (F := Unit) t.storageUri.toList with
    | some (.obj cfg) =>
      match (Json.obj cfg).get? "sources" with
      | some (.arr items) => items.filter fun item => item.names?.isSome
      | _ => [.obj (("kind", .str t.storageKind.text) :: cfg)]
    | _ =>
      match t.storageKind with
      | .parquet | .externalParquet =>
        [.obj [("kind", .str t.storageKind.text), ("uri", .str t.storageUri)]]
      | _ => []

/-- The path of a source, if it is a parquet source. -/
def parquetUri (source : Json Unit) : Option String :=
  if (source.get? "kind").bind Json.str? = some "parquet" then
    ((source.get? "uri").bind Json.str?).filter fun uri => uri ≠ ""
  else none

/-- The directories of the topic's parquet sources: the bus writes to the first and replays all. -/
def dirs (t : TopicRow) : List (List String) :=
  (t.resolveSources.filterMap parquetUri).map partsOfPath

/-- The row as the pruner reads it. -/
def topic (t : TopicRow) : Topic where
  slug := t.slug
  storageKind := t.storageKind
  storageUri := if t.storageUri = "" then none else some (partsOfPath t.storageUri)
  retentionDays := t.retentionDays
  maxBytes := t.maxBytes

/-- The topic's parquet files. -/
def files (t : TopicRow) (d : Disk) : List DiskFile :=
  d.files.filter fun f => t.dirs.any (Disk.isUnder · f) && Disk.isParquet f

/-- The storage URI is a path, not a JSON document. -/
def isPlain (t : TopicRow) : Bool :=
  match Json.loads (F := Unit) t.storageUri.toList with
  | some (.obj _) => false
  | _ => true

/-- The bus and the pruner agree on where a topic with a plain path is stored. -/
lemma dirs_of_plain {t : TopicRow} (h : t.isPlain = true) (hkind : t.storageKind = .parquet) :
    t.dirs = t.topic.storageUri.toList := by
  rw [isPlain] at h
  rw [TopicRow.dirs, resolveSources, topic]
  by_cases hempty : t.storageUri = ""
  · simp [hempty]
  · rw [if_neg hempty, if_neg hempty, hkind]
    split
    · next cfg hcfg =>
      rw [hcfg] at h
      cases h
    · have hsource : parquetUri (.obj [("kind", .str "parquet"), ("uri", .str t.storageUri)]) =
          some t.storageUri := by
        simp [parquetUri, Json.get?, Dict.lookup, Json.str?, Option.filter_some, hempty]
      simp [hsource, StorageKind.text]

end TopicRow

/-! ## The caps of the catalog -/

namespace TopicRow

variable {t : TopicRow} {d d' : Disk}

/-- The bytes of the topic's parquet files. -/
def bytes (t : TopicRow) (d : Disk) : ℤ := Disk.bytes (t.files d)

/-- The deletion takes a file of the topic, and the topic has no older one. -/
def Oldest (t : TopicRow) (r : Disk.Removal) : Prop :=
  r.file ∈ t.files r.before ∧ ∀ f ∈ t.files r.before, r.file.mtime ≤ f.mtime

lemma files_of_plain (h : t.isPlain = true) (hkind : t.storageKind = .parquet) (d : Disk) :
    t.files d = match t.topic.storageUri with
      | some uri => d.parquetUnder uri
      | none => [] := by
  rw [TopicRow.files, dirs_of_plain h hkind]
  cases t.topic.storageUri with
  | none => simp
  | some uri => simp [Disk.parquetUnder]

lemma bytes_of_plain (h : t.isPlain = true) (hkind : t.storageKind = .parquet) (d : Disk) :
    t.bytes d = match t.topic.storageUri with
      | some uri => Disk.bytes (d.listPartitionFiles uri)
      | none => 0 := by
  rw [TopicRow.bytes, files_of_plain h hkind]
  cases t.topic.storageUri with
  | none => rfl
  | some uri => exact Disk.topicDirSizeBytes_eq d uri

lemma oldest_of_plain (h : t.isPlain = true) (hkind : t.storageKind = .parquet)
    {uri : List String} (huri : t.topic.storageUri = some uri) {r : Disk.Removal}
    (hr : (r.before.listPartitionFiles uri).head? = some r.file) : t.Oldest r := by
  have hfiles : t.files r.before = r.before.parquetUnder uri := by
    rw [files_of_plain h hkind, huri]
  obtain ⟨fs, hlist⟩ := List.head?_eq_some_iff.1 hr
  have hsorted : (r.before.listPartitionFiles uri).Pairwise fun f g => f.mtime ≤ g.mtime :=
    pairwise_sortByKey _
  rw [hlist] at hsorted
  rw [Oldest, hfiles]
  refine ⟨Disk.mem_listPartitionFiles.1 (hlist ▸ List.mem_cons_self), fun f hf => ?_⟩
  rcases List.mem_cons.1 (hlist ▸ Disk.mem_listPartitionFiles.2 hf) with rfl | hf
  · exact le_rfl
  · exact (List.pairwise_cons.1 hsorted).1 f hf

lemma mem_files {f : DiskFile} : f ∈ t.files d ↔
    f ∈ d.files ∧ (∃ dir ∈ t.dirs, Disk.isUnder dir f = true) ∧ Disk.isParquet f = true := by
  rw [TopicRow.files, List.mem_filter, Bool.and_eq_true, List.any_eq_true]

/-- Where no file of the topic goes, its bytes stay. -/
lemma bytes_of_subset (hd : d.Sound) (hsub : d'.files.Sublist d.files)
    (hstay : t.files d ⊆ d'.files) : t.bytes d' = t.bytes d := by
  have hfiles : (t.files d').Sublist (t.files d) := hsub.filter _
  have hback : t.files d ⊆ t.files d' := fun f hf =>
    mem_files.2 ⟨hstay hf, (mem_files.1 hf).2⟩
  have hnodup : (t.files d).Nodup := (hd.nodup.of_map _).sublist List.filter_sublist
  have hperm : (t.files d').Perm (t.files d) :=
    hfiles.subperm.antisymm (List.subperm_of_subset hnodup hback)
  exact (hperm.map _).sum_eq

end TopicRow

/-- The bytes of the topics of the bus. -/
def busBytes (rows : List TopicRow) (d : Disk) : ℤ :=
  ((rows.filter fun t => t.storageKind = .parquet).map fun t => t.bytes d).sum

/-- The bytes of the topics whose storage URI lists its sources. -/
def listedBytes (rows : List TopicRow) (d : Disk) : ℤ :=
  ((rows.filter fun t => t.storageKind = .parquet ∧ t.isPlain = false).map fun t => t.bytes d).sum

section Caps

variable (parseDate : String → Option ℤ) (now : ℚ) (settings : Option PrunerSettings)
  (rows : List TopicRow) (files : List DiskFile)

/-- The cap over all topics. -/
def globalCap : Option ℤ := capOf (settings.bind PrunerSettings.globalMaxBytes)

/-- What a pass leaves is within the caps of the topics of the bus, and a size cap deletes the
oldest files first, and none once it is met. -/
structure CapsEnforced : Prop where
  aged : ∀ t ∈ rows, t.storageKind = .parquet → ∀ days ∈ capOf t.retentionDays, ∀ dir ∈ t.dirs,
    ∀ f ∈ (pruneOnce parseDate now settings (rows.map TopicRow.topic) files).2.files,
      Disk.expired parseDate (Disk.cutoffDay days now) dir f = false
  sized : ∀ t ∈ rows, t.storageKind = .parquet → ∀ maxBytes ∈ capOf t.maxBytes,
    t.bytes (pruneOnce parseDate now settings (rows.map TopicRow.topic) files).2 ≤ maxBytes
  total : ∀ cap ∈ globalCap settings,
    busBytes rows (pruneOnce parseDate now settings (rows.map TopicRow.topic) files).2 ≤ cap
  topicOldest : ∀ e ∈ topicRemovals parseDate now (rows.map TopicRow.topic) files,
    ∃ t ∈ rows, t.topic = e.1 ∧ t.Oldest e.2 ∧
      ∃ maxBytes ∈ capOf t.maxBytes, maxBytes < t.bytes e.2.before
  globalOldest : ∀ r ∈ globalCapRemovals parseDate now settings (rows.map TopicRow.topic) files,
    (∃ t ∈ rows, t.storageKind = .parquet ∧ t.Oldest r) ∧
      ∃ cap ∈ globalCap settings, cap < busBytes rows r.before

/-- The expired partitions of the topics at plain paths hold parquet files only. -/
def PartitionsParquet : Prop :=
  ∀ t ∈ rows, t.storageKind = .parquet → t.isPlain = true → ∀ days ∈ capOf t.retentionDays,
    ∀ dir ∈ t.dirs, ∀ f ∈ files, Disk.expired parseDate (Disk.cutoffDay days now) dir f = true →
      Disk.isParquet f = true

/-- The topics whose storage URI lists its sources are within their own caps from the start: the
pruner never looks at them. -/
structure ListedWithin : Prop where
  aged : ∀ t ∈ rows, t.storageKind = .parquet → t.isPlain = false →
    ∀ days ∈ capOf t.retentionDays, ∀ dir ∈ t.dirs, ∀ f ∈ files,
      Disk.expired parseDate (Disk.cutoffDay days now) dir f = false
  sized : ∀ t ∈ rows, t.storageKind = .parquet → t.isPlain = false →
    ∀ maxBytes ∈ capOf t.maxBytes, t.bytes ⟨files, []⟩ ≤ maxBytes

/-- Dropping the oldest file of the largest topic, at most 1000 times, from what the caps of the
topics leave, makes room for the topics that the pruner does not look at. -/
def GlobalInReach : Prop :=
  ∀ cap ∈ globalCap settings,
    Disk.queueTotal (Disk.dropUntil cap 1000
      (queuesLeft parseDate now (rows.map TopicRow.topic) files)) + listedBytes rows ⟨files, []⟩ ≤
        cap

/-- Where the topics are stored.  Nothing is asked of topics that the bus does not write: they may
share a storage URI, or be stored around others. -/
structure StoredApart : Prop where
  /-- Under a global cap, no file belongs to two topics of the bus. -/
  bus : (globalCap settings).isSome → Disk.Unshared (specsOf (rows.map TopicRow.topic)) files
  /-- No file of a topic with a list of sources is in a directory that the pass deletes from. -/
  listed : ∀ t ∈ rows, t.storageKind = .parquet → t.isPlain = false → ∀ f ∈ t.files ⟨files, []⟩,
    ∀ dir ∈ prunedDirs (rows.map TopicRow.topic), Disk.isUnder dir f = false
  /-- The text of a list of sources is not the path of anything that is stored. -/
  text : ∀ t ∈ rows, t.storageKind = .parquet → t.isPlain = false → ∀ uri ∈ t.topic.storageUri,
    ∀ f ∈ files, Disk.isUnder uri f = false

end Caps

section Enforced

variable {parseDate : String → Option ℤ} {now : ℚ} {settings : Option PrunerSettings}
  {rows : List TopicRow} {files : List DiskFile}

lemma mem_scanned_topic {t : TopicRow} (ht : t ∈ rows) (hkind : t.storageKind = .parquet) :
    t.topic ∈ scanned (rows.map TopicRow.topic) :=
  List.mem_filter.2 ⟨List.mem_map_of_mem ht, by simp [TopicRow.topic, hkind]⟩

lemma listPartitionFiles_eq_nil {d : Disk} {uri : List String}
    (h : ∀ f ∈ d.files, Disk.isUnder uri f = false) : d.listPartitionFiles uri = [] := by
  refine List.eq_nil_iff_forall_not_mem.2 fun f hf => ?_
  obtain ⟨hmem, hunder, -⟩ := Disk.mem_parquetUnder.1 (Disk.mem_listPartitionFiles.1 hf)
  rw [h f hmem] at hunder
  cases hunder

/-- The bytes of the topics, counted by the rows of the catalog or by directory. -/
lemma busBytes_eq {d : Disk} (htext : ∀ t ∈ rows, t.storageKind = .parquet → t.isPlain = false →
      ∀ uri ∈ t.topic.storageUri, ∀ f ∈ d.files, Disk.isUnder uri f = false) :
    busBytes rows d = Disk.queueTotal (Disk.queuesOf (specsOf (rows.map TopicRow.topic)) d) +
      listedBytes rows d := by
  induction rows with
  | nil => rfl
  | cons t rows ih =>
    obtain ⟨htext, htexts⟩ := List.forall_mem_cons.1 htext
    have hrest := ih htexts
    rw [busBytes, Disk.queueTotal, Disk.queuesOf, specsOf, scanned, listedBytes] at hrest ⊢
    by_cases hkind : t.storageKind = .parquet
    · have htopic : t.topic.storageKind = .parquet := hkind
      rw [List.filter_cons_of_pos (by simpa using hkind), List.map_cons, List.sum_cons,
        List.map_cons, List.filter_cons_of_pos (by simp [htopic]), List.filterMap_cons, specOf,
        if_pos htopic, List.filter_cons]
      -- a plain path counts with its directory, a list of sources with its row
      cases hplain : t.isPlain with
      | true =>
        rw [if_neg (by simp), TopicRow.bytes_of_plain hplain hkind]
        cases t.topic.storageUri with
        | none => simpa using hrest
        | some uri =>
          simp only [Option.map_some, List.map_cons, List.sum_cons] at hrest ⊢
          omega
      | false =>
        rw [if_pos (by simp [hkind]), List.map_cons, List.sum_cons]
        cases huri : t.topic.storageUri with
        | none =>
          simp only [Option.map_none] at hrest ⊢
          omega
        | some uri =>
          have hempty : d.listPartitionFiles uri = [] :=
            listPartitionFiles_eq_nil (htext hkind hplain uri huri)
          simp only [Option.map_some, List.map_cons, List.sum_cons, hempty, Disk.bytes,
            List.map_nil, List.sum_nil] at hrest ⊢
          omega
    · have hspec : specOf t.topic = none := if_neg hkind
      rw [List.filter_cons_of_neg (by simpa using hkind),
        List.filter_cons_of_neg (by simp [hkind]), List.map_cons, List.filter_cons]
      split
      · rw [List.filterMap_cons, hspec]
        exact hrest
      · exact hrest

lemma nodup_specsOf (h : (rows.map TopicRow.slug).Nodup) :
    ((specsOf (rows.map TopicRow.topic)).map Prod.fst).Nodup := by
  have hslug : ∀ t : Topic, ∀ spec ∈ specOf t, spec.1 = t.slug := by
    intro t spec hspec
    rw [specOf] at hspec
    split at hspec
    · obtain ⟨uri, -, rfl⟩ := Option.map_eq_some_iff.1 hspec
      rfl
    · cases hspec
  have htopics : (rows.map TopicRow.topic).Pairwise fun t t' => t.slug ≠ t'.slug :=
    List.pairwise_map.2 (List.pairwise_map.1 h)
  refine List.pairwise_map.2 (List.Pairwise.filterMap specOf
    (fun t t' hne spec hspec spec' hspec' => ?_) (htopics.filter _))
  rw [hslug t spec hspec, hslug t' spec' hspec']
  exact hne

/-- The global cap deletes in directories of the bus. -/
lemma snd_specsOf_subset (topics : List Topic) :
    (specsOf topics).map Prod.snd ⊆ prunedDirs topics := by
  intro dir hdir
  obtain ⟨spec, hspec, rfl⟩ := List.mem_map.1 hdir
  obtain ⟨t, ht, hspec⟩ := List.mem_filterMap.1 hspec
  refine List.mem_filterMap.2 ⟨t, ht, ?_⟩
  rw [specOf] at hspec
  split at hspec
  · next hkind =>
    obtain ⟨uri, huri, rfl⟩ := Option.map_eq_some_iff.1 hspec
    rw [prunedDir, if_pos (.inl hkind), huri]
  · cases hspec

/-- The disk after the global cap. -/
def globalDisk (settings : Option PrunerSettings) (s : PassState) : Disk :=
  match globalCapOf settings s with
  | some cap => (s.disk.pruneGlobalSize s.specs cap).disk
  | none => s.disk

lemma pruneOnce_disk (henabled : disabled settings = false) (topics : List Topic) :
    (pruneOnce parseDate now settings topics files).2 =
      globalDisk settings (topicPass parseDate now topics files) := by
  rw [pruneOnce, henabled, globalDisk]
  dsimp only [Bool.false_eq_true, if_false]
  cases globalCapOf settings (topicPass parseDate now topics files) <;> rfl

lemma queuesOf_congr {d d' : Disk} (h : d'.files = d.files) (specs : List (String × List String)) :
    Disk.queuesOf specs d' = Disk.queuesOf specs d := by
  simp only [Disk.queuesOf, Disk.listPartitionFiles, Disk.parquetUnder_congr h]

/-- What the global cap does after the pass over the topics. -/
lemma globalDisk_spec {s : PassState} (hs : s.disk.Sound) (hslugs : (s.specs.map Prod.fst).Nodup)
    (hunshared : (globalCap settings).isSome → Disk.Unshared s.specs s.disk.files) :
    Disk.Shrinks (s.specs.map Prod.snd) s.disk (globalDisk settings s) ∧
      ∀ cap ∈ globalCap settings, Disk.queuesOf s.specs (globalDisk settings s) =
        Disk.dropUntil cap 1000 (Disk.queuesOf s.specs s.disk) := by
  by_cases hspecs : s.specs = []
  · have hnone : globalCapOf settings s = none := if_pos hspecs
    rw [globalDisk, hnone]
    refine ⟨Disk.Shrinks.refl _ _, fun cap hcap => (Disk.dropUntil_of_le ?_ _).symm⟩
    rw [hspecs]
    exact (pos_of_mem_capOf hcap).le
  · have hcapOf : globalCapOf settings s = globalCap settings := if_neg hspecs
    rw [globalDisk, hcapOf]
    cases hcap : globalCap settings with
    | none => exact ⟨Disk.Shrinks.refl _ _, by rintro _ ⟨⟩⟩
    | some cap =>
      have hpos : 0 < cap := pos_of_mem_capOf hcap
      obtain ⟨hshrinks, hqueues, -⟩ :=
        Disk.pruneGlobalSize_spec hslugs (hunshared (by rw [hcap]; rfl)) hpos.le hs
      refine ⟨hshrinks, fun cap' hcap' => ?_⟩
      obtain rfl := Option.some.inj hcap'
      exact hqueues

lemma globalCapRemovals_oldest {topics : List Topic} {s : PassState}
    (hs : topicPass parseDate now topics files = s) (hsound : s.disk.Sound)
    (hslugs : (s.specs.map Prod.fst).Nodup)
    (hunshared : (globalCap settings).isSome → Disk.Unshared s.specs s.disk.files)
    {r : Disk.Removal} (hr : r ∈ globalCapRemovals parseDate now settings topics files) :
    ∃ cap ∈ globalCap settings, r.OldestAbove s.specs cap ∧ r.before.files ⊆ s.disk.files := by
  subst hs
  unfold globalCapRemovals globalCapOf at hr
  dsimp only at hr
  by_cases hspecs : (topicPass parseDate now topics files).specs = []
  · simp [hspecs] at hr
  · cases hcap : globalCap settings with
    | none =>
      have hnone : capOf (settings.bind PrunerSettings.globalMaxBytes) = none := hcap
      simp [hnone] at hr
    | some cap =>
      have hsome : capOf (settings.bind PrunerSettings.globalMaxBytes) = some cap := hcap
      rw [if_neg hspecs, hsome] at hr
      have hshare := hunshared (by rw [hcap]; rfl)
      exact ⟨cap, rfl, (Disk.pruneGlobalSize_spec hslugs hshare (pos_of_mem_capOf hsome).le
        hsound).2.2 r hr⟩

section Sound

variable (hslugs : (rows.map TopicRow.slug).Nodup) (hfiles : Disk.Sound ⟨files, []⟩)
  (henabled : disabled settings = false) (hstored : StoredApart settings rows files)

variable (parseDate now)

include hfiles

lemma passDone_topicPass : PassDone parseDate now (scanned (rows.map TopicRow.topic))
    ⟨⟨files, []⟩, 0, 0, []⟩ (topicPass parseDate now (rows.map TopicRow.topic) files) :=
  passDone_foldl hfiles

lemma sound_topicPass : (topicPass parseDate now (rows.map TopicRow.topic) files).disk.Sound :=
  hfiles.shrink (passDone_topicPass parseDate now hfiles).shrinks

include hslugs

omit hfiles in
lemma nodup_topicPass :
    ((topicPass parseDate now (rows.map TopicRow.topic) files).specs.map Prod.fst).Nodup := by
  rw [specs_topicPass]
  exact nodup_specsOf hslugs

include hstored

omit hslugs in
lemma unshared_topicPass (h : (globalCap settings).isSome) :
    Disk.Unshared (topicPass parseDate now (rows.map TopicRow.topic) files).specs
      (topicPass parseDate now (rows.map TopicRow.topic) files).disk.files := by
  rw [specs_topicPass]
  exact (hstored.bus h).subset (passDone_topicPass parseDate now hfiles).shrinks.sublist.subset

lemma shrinks_globalDisk : Disk.Shrinks (prunedDirs (rows.map TopicRow.topic))
    (topicPass parseDate now (rows.map TopicRow.topic) files).disk
    (globalDisk settings (topicPass parseDate now (rows.map TopicRow.topic) files)) := by
  have hglobal := (@globalDisk_spec settings _ (sound_topicPass parseDate now hfiles)
    (nodup_topicPass parseDate now hslugs)
    (unshared_topicPass parseDate now hfiles hstored)).1
  rw [specs_topicPass] at hglobal
  exact hglobal.mono (snd_specsOf_subset _)

include henabled

/-- A pass deletes only in the directories of topics that a cap may be set for. -/
lemma shrinks_pruneOnce : Disk.Shrinks (prunedDirs (rows.map TopicRow.topic)) ⟨files, []⟩
    (pruneOnce parseDate now settings (rows.map TopicRow.topic) files).2 := by
  rw [pruneOnce_disk henabled]
  exact (passDone_topicPass parseDate now hfiles).shrinks.trans
    (shrinks_globalDisk parseDate now hslugs hfiles hstored)

/-- The files of a topic with a list of sources stay. -/
lemma files_subset_pruneOnce {t : TopicRow} (ht : t ∈ rows) (hkind : t.storageKind = .parquet)
    (hplain : t.isPlain = false) : t.files ⟨files, []⟩ ⊆
      (pruneOnce parseDate now settings (rows.map TopicRow.topic) files).2.files := by
  intro f hf
  exact (shrinks_pruneOnce parseDate now hslugs hfiles henabled hstored).others f
    (TopicRow.mem_files.1 hf).1 fun _ => hstored.listed t ht hkind hplain f hf

lemma bytes_pruneOnce {t : TopicRow} (ht : t ∈ rows) (hkind : t.storageKind = .parquet)
    (hplain : t.isPlain = false) :
    t.bytes (pruneOnce parseDate now settings (rows.map TopicRow.topic) files).2 =
      t.bytes ⟨files, []⟩ :=
  TopicRow.bytes_of_subset hfiles
    (shrinks_pruneOnce parseDate now hslugs hfiles henabled hstored).sublist
    (files_subset_pruneOnce parseDate now hslugs hfiles henabled hstored ht hkind hplain)

/-- The age cap leaves nothing of an expired partition exactly if it held parquet files only. -/
lemma aged_of_plain_iff {t : TopicRow} (ht : t ∈ rows) (hkind : t.storageKind = .parquet)
    (hplain : t.isPlain = true) {days : ℤ} (hdays : days ∈ capOf t.retentionDays)
    {dir : List String} (hdir : dir ∈ t.dirs) :
    (∀ f ∈ (pruneOnce parseDate now settings (rows.map TopicRow.topic) files).2.files,
        Disk.expired parseDate (Disk.cutoffDay days now) dir f = false) ↔
      ∀ f ∈ files, Disk.expired parseDate (Disk.cutoffDay days now) dir f = true →
        Disk.isParquet f = true := by
  have hshrinks := shrinks_pruneOnce parseDate now hslugs hfiles henabled hstored
  have huri : dir ∈ t.topic.storageUri := by
    rw [TopicRow.dirs_of_plain hplain hkind] at hdir
    simpa using hdir
  constructor
  · intro haged f hf hexpired
    by_contra hother
    have hleft := hshrinks.others f hf fun hparquet => absurd hparquet hother
    rw [haged f hleft] at hexpired
    cases hexpired
  · intro hparquet f hf
    by_contra hexpired
    have hexpired := Bool.eq_true_of_not_eq_false hexpired
    have hmid : f ∈ (topicPass parseDate now (rows.map TopicRow.topic) files).disk.files := by
      rw [pruneOnce_disk henabled] at hf
      exact (shrinks_globalDisk parseDate now hslugs hfiles hstored).sublist.subset hf
    have hgone := (passDone_topicPass parseDate now hfiles).aged t.topic
      (mem_scanned_topic ht hkind) dir huri days hdays f hmid
      (hparquet f (hshrinks.sublist.subset hf) hexpired)
    rw [hgone] at hexpired
    cases hexpired

/-- Of a topic with a list of sources nothing is deleted, so it must be free of expired files. -/
lemma aged_of_listed_iff {t : TopicRow} (ht : t ∈ rows) (hkind : t.storageKind = .parquet)
    (hplain : t.isPlain = false) {cutoff : ℤ} {dir : List String} (hdir : dir ∈ t.dirs) :
    (∀ f ∈ (pruneOnce parseDate now settings (rows.map TopicRow.topic) files).2.files,
        Disk.expired parseDate cutoff dir f = false) ↔
      ∀ f ∈ files, Disk.expired parseDate cutoff dir f = false := by
  have hshrinks := shrinks_pruneOnce parseDate now hslugs hfiles henabled hstored
  constructor
  · intro haged f hf
    by_contra hexpired
    have hexpired := Bool.eq_true_of_not_eq_false hexpired
    have hunder : Disk.isUnder dir f = true := Disk.isUnder_of_expired hexpired
    have hleft := hshrinks.others f hf fun hparquet =>
      hstored.listed t ht hkind hplain f (TopicRow.mem_files.2 ⟨hf, ⟨dir, hdir, hunder⟩, hparquet⟩)
    rw [haged f hleft] at hexpired
    cases hexpired
  · exact fun h f hf => h f (hshrinks.sublist.subset hf)

/-- Every topic at a plain path is within its size cap. -/
lemma sized_of_plain {t : TopicRow} (ht : t ∈ rows) (hkind : t.storageKind = .parquet)
    (hplain : t.isPlain = true) {maxBytes : ℤ} (hmax : maxBytes ∈ capOf t.maxBytes) :
    t.bytes (pruneOnce parseDate now settings (rows.map TopicRow.topic) files).2 ≤ maxBytes := by
  rw [TopicRow.bytes_of_plain hplain hkind]
  cases huri : t.topic.storageUri with
  | none => exact (pos_of_mem_capOf hmax).le
  | some uri =>
    have hcap : maxBytes ∈ sizeCapOf t.topic := (if_pos hkind).trans hmax
    have hmet := (passDone_topicPass parseDate now hfiles).sized t.topic
      (mem_scanned_topic ht hkind) uri huri maxBytes hcap
    have hless := (shrinks_globalDisk parseDate now hslugs hfiles hstored).size_le uri
    dsimp only
    rw [pruneOnce_disk henabled, ← Disk.topicDirSizeBytes_eq]
    exact hless.trans hmet

/-- What is left under a global cap. -/
lemma busBytes_pruneOnce {cap : ℤ} (hcap : cap ∈ globalCap settings) :
    busBytes rows (pruneOnce parseDate now settings (rows.map TopicRow.topic) files).2 =
      Disk.queueTotal (Disk.dropUntil cap 1000
        (queuesLeft parseDate now (rows.map TopicRow.topic) files)) +
          listedBytes rows ⟨files, []⟩ := by
  have hshrinks := shrinks_pruneOnce parseDate now hslugs hfiles henabled hstored
  have hglobal := (@globalDisk_spec settings _ (sound_topicPass parseDate now hfiles)
    (nodup_topicPass parseDate now hslugs)
    (unshared_topicPass parseDate now hfiles hstored)).2 cap hcap
  rw [specs_topicPass] at hglobal
  have hlisted : listedBytes rows
      (pruneOnce parseDate now settings (rows.map TopicRow.topic) files).2 =
      listedBytes rows ⟨files, []⟩ := by
    refine congrArg List.sum (List.map_congr_left fun t ht => ?_)
    obtain ⟨hmem, hkind⟩ := List.mem_filter.1 ht
    obtain ⟨hkind, hplain⟩ := of_decide_eq_true hkind
    exact bytes_pruneOnce parseDate now hslugs hfiles henabled hstored hmem hkind hplain
  have hleft := queuesOf_congr
    (d := ⟨leftByTopics parseDate now (rows.map TopicRow.topic) files, []⟩)
    (files_topicPass (rows.map TopicRow.topic) files) (specsOf (rows.map TopicRow.topic))
  rw [busBytes_eq (fun t ht hkind hplain uri huri f hf => hstored.text t ht hkind hplain uri huri f
      (hshrinks.sublist.subset hf)), hlisted, pruneOnce_disk henabled, hglobal, queuesLeft, hleft]

omit hslugs hfiles henabled in
/-- The oldest file of what is stored at a topic's path is a file of the topic. -/
lemma oldest_of_head {t : TopicRow} (ht : t ∈ rows) (hkind : t.storageKind = .parquet)
    {uri : List String} (huri : t.topic.storageUri = some uri) {r : Disk.Removal}
    (hbefore : r.before.files ⊆ files)
    (hhead : (r.before.listPartitionFiles uri).head? = some r.file) :
    t.isPlain = true ∧ t.Oldest r := by
  cases hplain : t.isPlain with
  | true => exact ⟨rfl, TopicRow.oldest_of_plain hplain hkind huri hhead⟩
  | false =>
    have hempty : r.before.listPartitionFiles uri = [] := listPartitionFiles_eq_nil fun f hf =>
      hstored.text t ht hkind hplain uri huri f (hbefore hf)
    rw [hempty] at hhead
    cases hhead

omit hslugs henabled in
lemma topicOldest_pruneOnce : ∀ e ∈ topicRemovals parseDate now (rows.map TopicRow.topic) files,
    ∃ t ∈ rows, t.topic = e.1 ∧ t.Oldest e.2 ∧
      ∃ maxBytes ∈ capOf t.maxBytes, maxBytes < t.bytes e.2.before := by
  intro e he
  obtain ⟨hmem, hbefore, uri, huri, maxBytes, hmax, hover, hhead⟩ :=
    (passDone_topicPass parseDate now hfiles).removals e he
  obtain ⟨t, ht, htopic⟩ := List.mem_map.1 (List.mem_filter.1 hmem).1
  rw [← htopic] at huri hmax
  rw [sizeCapOf] at hmax
  split at hmax
  · next hkind =>
    obtain ⟨hplain, holdest⟩ := oldest_of_head hstored ht hkind huri hbefore hhead
    refine ⟨t, ht, htopic, holdest, maxBytes, hmax, ?_⟩
    rw [TopicRow.bytes_of_plain hplain hkind, huri]
    dsimp only
    rwa [← Disk.topicDirSizeBytes_eq]
  · cases hmax

omit henabled in
lemma globalOldest_pruneOnce :
    ∀ r ∈ globalCapRemovals parseDate now settings (rows.map TopicRow.topic) files,
      (∃ t ∈ rows, t.storageKind = .parquet ∧ t.Oldest r) ∧
        ∃ cap ∈ globalCap settings, cap < busBytes rows r.before := by
  intro r hr
  obtain ⟨cap, hcap, ⟨hover, spec, hspec, hhead⟩, hsub⟩ := globalCapRemovals_oldest rfl
    (sound_topicPass parseDate now hfiles) (nodup_topicPass parseDate now hslugs)
    (unshared_topicPass parseDate now hfiles hstored) hr
  have hbefore : r.before.files ⊆ files :=
    List.Subset.trans hsub (passDone_topicPass parseDate now hfiles).shrinks.sublist.subset
  rw [specs_topicPass] at hover hspec
  obtain ⟨t', ht', hspec⟩ := List.mem_filterMap.1 hspec
  obtain ⟨t, ht, rfl⟩ := List.mem_map.1 (List.mem_filter.1 ht').1
  rw [specOf] at hspec
  split at hspec
  · next hkind =>
    obtain ⟨uri, huri, rfl⟩ := Option.map_eq_some_iff.1 hspec
    refine ⟨⟨t, ht, hkind, (oldest_of_head hstored ht hkind huri hbefore hhead).2⟩, cap,
      hcap, ?_⟩
    have hlisted : 0 ≤ listedBytes rows r.before := List.sum_nonneg fun b hb => by
      obtain ⟨t, -, rfl⟩ := List.mem_map.1 hb
      exact Disk.bytes_nonneg _
    rw [busBytes_eq fun t ht hkind hplain uri huri f hf =>
      hstored.text t ht hkind hplain uri huri f (hbefore hf)]
    omega
  · cases hspec

end Sound

end Enforced

/-! ## A topic with a list of sources -/

/-- A file of a date partition; day 18262 is the first of January 2020. -/
def oldFile : DiskFile where
  parts := ["", "data", "updates", "btc", "2020-01-01", "a.parquet"]
  size := 10
  mtime := 0
  locked := false

/-- A topic of the bus that is kept for 14 days. -/
def updates (storageUri : String) : TopicRow where
  slug := "crypto.update.dispatch"
  storageKind := .parquet
  storageUri := storageUri
  retentionDays := some 14
  maxBytes := some 100

/-- A topic of the catalog's seed: its data are those of the market data providers, stored around
the topics of the bus. -/
def seeded (slug : String) : TopicRow where
  slug := slug
  storageKind := .externalParquet
  storageUri :=
    "\x7b\"sources\": [\x7b\"kind\": \"external_parquet\", \"uri\": \"/data\"\x7d]\x7d"
  retentionDays := none
  maxBytes := none

/-- Reads the one date that is there. -/
def parseOldDate (date : String) : Option ℤ := if date = "2020-01-01" then some 18262 else none

/-- The pass of day 20000, with a cap over all topics. -/
def settingsOf (cap : ℤ) : Option PrunerSettings := some ⟨some true, some cap⟩

/-- The two book topics of the seed, which share a storage URI, and a topic at a plain path. -/
def seededRows : List TopicRow :=
  [seeded "polymarket.book.snapshot", seeded "polymarket.book.delta", updates "/data/updates"]

end Evosport.Data
