/-
Pruning of recorded data.

Two pruners delete recorded files on their own schedules: the pruner of the recorded event bus
(`services/recorded_event_bus/pruner.py`), which enforces an age cap and a size cap for each topic
and a size cap over all topics, and `BookParquetSink._prune`
(`services/external_data/book_parquet_sink.py`), which removes whole window directories by age, by
size, and, when the disk runs low, until enough of it is free.

Every loop is the fold of a step that may delete the candidate it comes to, and every file deleted
is noted with the directory that was removed with it.
-/
import Evosport.Data.Pins

namespace Evosport.Data

open Lib

/-- A file that a pruner deleted, and the directory that it removed as a whole with it. -/
structure Deletion where
  path : String
  dir : Option String
  deriving DecidableEq, Repr

/-! ## The pruner of the recorded event bus -/

/-- A file on disk, its path by components, with its size and its time of change; a locked file
cannot be deleted. -/
structure DiskFile where
  parts : List String
  size : ℕ
  mtime : ℚ
  /-- `unlink` raises. -/
  locked : Bool
  deriving DecidableEq, Repr

/-- The path that the parts of it spell. -/
def pathOf (parts : List String) : String := "/".intercalate parts

/-- The files on disk and what was deleted of them; each deletion names the directory that was
removed with it, if one was. -/
structure Disk where
  files : List DiskFile
  deleted : List Deletion
  deriving DecidableEq, Repr

/-- The disk after a part of a pass, and the bytes it reports as freed. -/
structure Pruned where
  disk : Disk
  freed : ℤ
  deriving DecidableEq, Repr

namespace Disk

/-- The file lies under the directory. -/
def isUnder (dir : List String) (f : DiskFile) : Bool :=
  dir.isPrefixOf f.parts && decide (dir.length < f.parts.length)

/-- The last component matches `*.parquet`. -/
def isParquet (f : DiskFile) : Bool :=
  (f.parts.getLast?.map fun name => ".parquet".toList.isSuffixOf name.toList).getD false

/-- `rglob("*.parquet")` -/
def parquetUnder (d : Disk) (dir : List String) : List DiskFile :=
  d.files.filter fun f => isUnder dir f && isParquet f

/-- `unlink` of a file that can be deleted -/
def unlink (d : Disk) (f : DiskFile) (dir : Option String) : Disk where
  files := d.files.filter fun g => g.parts ≠ f.parts
  deleted := d.deleted ++ [⟨pathOf f.parts, dir⟩]

/-- The bytes of files. -/
def bytes (files : List DiskFile) : ℤ := (files.map fun f => (f.size : ℤ)).sum

/-- `_topic_dir_size_bytes` -/
def topicDirSizeBytes (d : Disk) (uri : List String) : ℤ := bytes (d.parquetUnder uri)

/-- `_list_partition_files` -/
def listPartitionFiles (d : Disk) (uri : List String) : List DiskFile :=
  sortByKey DiskFile.mtime (d.parquetUnder uri)

/-- The directory `{uri}/{entity}/{date}` that a file lies under, and its last component. -/
def dateDirOf (uri : List String) (f : DiskFile) : Option (List String × String) :=
  if isUnder uri f then
    match f.parts.drop uri.length with
    | entity :: date :: _ :: _ => some (uri ++ [entity, date], date)
    | _ => none
  else none

section Age

variable (parseDate : String → Option ℤ)

/-- `_list_partition_dirs_older_than`; `parseDate` is `strptime` with `%Y-%m-%d`, as a day number -/
def listPartitionDirsOlderThan (d : Disk) (uri : List String) (cutoffDay : ℤ) :
    List (List String) :=
  (((d.files.filterMap (dateDirOf uri)).filter fun e =>
    match parseDate e.2 with
    | some day => decide (day < cutoffDay)
    | none => false).map Prod.fst).dedup

/-- One file of `_delete_dir_safely`: it counts as freed also where `unlink` raises. -/
def deleteFile (dir : List String) (p : Pruned) (f : DiskFile) : Pruned where
  disk := if f.locked then p.disk else p.disk.unlink f (some (pathOf dir))
  freed := p.freed + f.size

/-- `_delete_dir_safely` -/
def deleteDirSafely (p : Pruned) (dir : List String) : Pruned :=
  (p.disk.parquetUnder dir).foldl (deleteFile dir) p

/-- The first day that the age cap keeps. -/
def cutoffDay (retentionDays : ℤ) (now : ℚ) : ℤ := ⌊now / 86400⌋ - retentionDays

/-- `_prune_topic_age` -/
def pruneTopicAge (d : Disk) (uri : List String) (retentionDays : ℤ) (now : ℚ) : Pruned :=
  (d.listPartitionDirsOlderThan parseDate uri (cutoffDay retentionDays now)).foldl deleteDirSafely
    ⟨d, 0⟩

end Age

/-- One file of the size cap: nothing is deleted any more once the topic is under its cap. -/
def sizeStep (maxBytes total : ℤ) (p : Pruned) (f : DiskFile) : Pruned :=
  if total - p.freed ≤ maxBytes then p
  else if f.locked then p
  else ⟨p.disk.unlink f none, p.freed + f.size⟩

/-- `_prune_topic_size` -/
def pruneTopicSize (d : Disk) (uri : List String) (maxBytes : ℤ) : Pruned :=
  let files := d.listPartitionFiles uri
  let total := bytes files
  if total ≤ maxBytes then ⟨d, 0⟩ else files.foldl (sizeStep maxBytes total) ⟨d, 0⟩

/-- The state of the global size cap. -/
structure GlobalState where
  pruned : Pruned
  sizes : Dict String ℤ

/-- The first entry with the largest value. -/
def largest (sizes : Dict String ℤ) : Option (String × ℤ) :=
  sizes.entries.foldl (fun best e =>
    match best with
    | none => some e
    | some b => if b.2 < e.2 then some e else some b) none

/-- The file that the next iteration of the global cap tries to delete, with its topic. -/
def globalCandidate (uriBySlug : Dict String (List String)) (total cap : ℤ) (s : GlobalState) :
    Option (String × Option DiskFile) :=
  if total - s.pruned.freed ≤ cap then none
  else
    match largest s.sizes with
    | none => none
    | some (slug, size) =>
      if size ≤ 0 then none
      else some (slug, (s.pruned.disk.listPartitionFiles (uriBySlug.getD slug [])).head?)

/-- One iteration of the global size cap; an iteration after its end changes nothing. -/
def globalStep (uriBySlug : Dict String (List String)) (total cap : ℤ) (s : GlobalState) :
    GlobalState :=
  match globalCandidate uriBySlug total cap s with
  | none => s
  | some (slug, none) => { s with sizes := s.sizes.set slug 0 }
  | some (slug, some f) =>
    { pruned := if f.locked then s.pruned
        else ⟨s.pruned.disk.unlink f none, s.pruned.freed + f.size⟩
      sizes := s.sizes.set slug (s.sizes.getD slug 0 - f.size) }

/-- A dictionary of key and value pairs. -/
def dictOf {ν : Type} (entries : List (String × ν)) : Dict String ν :=
  entries.foldl (fun m e => m.set e.1 e.2) .empty

/-- The state in which the global size cap starts. -/
def globalStart (d : Disk) (specs : List (String × List String)) : GlobalState where
  pruned := ⟨d, 0⟩
  sizes := dictOf (specs.map fun spec => (spec.1, d.topicDirSizeBytes spec.2))

/-- The bytes of all topics when the global size cap starts. -/
def globalTotal (d : Disk) (specs : List (String × List String)) : ℤ :=
  (d.globalStart specs).sizes.values.sum

/-- `_prune_global_size`, with at most 1000 iterations -/
def pruneGlobalSize (d : Disk) (specs : List (String × List String)) (cap : ℤ) : Pruned :=
  let total := d.globalTotal specs
  if total ≤ cap then ⟨d, 0⟩
  else
    ((List.replicate 1000 ()).foldl (fun s _ => globalStep (dictOf specs) total cap s)
      (d.globalStart specs)).pruned

end Disk

/-- Where a topic keeps its events.  Only what is kept in parquet files is pruned. -/
inductive StorageKind where
  | parquet
  | externalParquet
  | sqlTable
  | memory
  deriving DecidableEq, Repr

/-- What the pruner reads of a row of the topic catalog; an empty URI counts as none. -/
structure Topic where
  slug : String
  storageKind : StorageKind
  storageUri : Option (List String)
  retentionDays : Option ℤ
  maxBytes : Option ℤ
  deriving DecidableEq, Repr

/-- What the pruner reads of the application settings. -/
structure PrunerSettings where
  prunerEnabled : Option Bool
  globalMaxBytes : Option ℤ

/-- What a pass reports: the topics it scanned, the bytes that each of the three caps freed, and the
global cap. -/
structure PruneReport where
  scannedTopics : ℕ
  freedBytesAge : ℤ
  freedBytesPerTopic : ℤ
  freedBytesGlobal : ℤ
  globalCap : Option ℤ

/-- A pass between two topics: the disk, the bytes it has freed, and the topics of the bus that the
global cap will see. -/
structure PassState where
  disk : Disk
  freedBytesAge : ℤ
  freedBytesPerTopic : ℤ
  specs : List (String × List String)

/-- A cap that is set. -/
def capOf (cap : Option ℤ) : Option ℤ := cap.filter fun c => 0 < c

section PruneOnce

variable (parseDate : String → Option ℤ) (now : ℚ)

/-- The age cap of a topic. -/
def ageCap (t : Topic) (uri : List String) (d : Disk) : Pruned :=
  match capOf t.retentionDays with
  | some days => d.pruneTopicAge parseDate uri days now
  | none => ⟨d, 0⟩

/-- The size cap of a topic, for topics of the bus only. -/
def sizeCap (t : Topic) (uri : List String) (d : Disk) : Pruned :=
  match t.storageKind, capOf t.maxBytes with
  | .parquet, some maxBytes => d.pruneTopicSize uri maxBytes
  | _, _ => ⟨d, 0⟩

/-- One topic of the pass. -/
def topicStep (s : PassState) (t : Topic) : PassState :=
  match t.storageUri with
  | none => s
  | some uri =>
    let aged := ageCap parseDate now t uri s.disk
    let sized := sizeCap t uri aged.disk
    { disk := sized.disk
      freedBytesAge := s.freedBytesAge + aged.freed
      freedBytesPerTopic := s.freedBytesPerTopic + sized.freed
      specs := if t.storageKind = .parquet then s.specs ++ [(t.slug, uri)] else s.specs }

/-- The topics that a pass looks at. -/
def scanned (topics : List Topic) : List Topic :=
  topics.filter fun t => t.storageKind = .parquet || t.storageKind = .externalParquet

/-- The pass over the topics. -/
def topicPass (topics : List Topic) (files : List DiskFile) : PassState :=
  (scanned topics).foldl (topicStep parseDate now) ⟨⟨files, []⟩, 0, 0, []⟩

/-- The global cap that applies after the pass over the topics. -/
def globalCapOf (settings : Option PrunerSettings) (s : PassState) : Option ℤ :=
  if s.specs = [] then none else capOf (settings.bind PrunerSettings.globalMaxBytes)

/-- The pruner is switched off. -/
def disabled (settings : Option PrunerSettings) : Bool :=
  settings.bind PrunerSettings.prunerEnabled == some false

/-- `prune_once`: the report, unless the pruner is disabled, and the disk after the pass -/
def pruneOnce (settings : Option PrunerSettings) (topics : List Topic) (files : List DiskFile) :
    Option PruneReport × Disk :=
  if disabled settings then (none, ⟨files, []⟩)
  else
    let s := topicPass parseDate now topics files
    let global := match globalCapOf settings s with
      | some cap => s.disk.pruneGlobalSize s.specs cap
      | none => ⟨s.disk, 0⟩
    (some
      { scannedTopics := (scanned topics).length
        freedBytesAge := s.freedBytesAge
        freedBytesPerTopic := s.freedBytesPerTopic
        freedBytesGlobal := global.freed
        globalCap := settings.bind PrunerSettings.globalMaxBytes }, global.disk)

end PruneOnce

/-! ## The pruner of the book recordings -/

/-- A file in a window directory; a locked one cannot be deleted. -/
structure BookFile where
  path : String
  size : ℕ
  parquet : Bool
  /-- `rmtree` cannot delete it. -/
  locked : Bool
  deriving DecidableEq, Repr

/-- A directory of the recordings, with the end of its window where its name is one of a window. -/
structure WindowDir where
  dir : String
  endAt : Option ℚ
  files : List BookFile
  under : ∀ f ∈ files, (norm dir ++ "/").toList <+: (norm f.path).toList

namespace WindowDir

/-- The bytes of its parquet files. -/
def bytes (w : WindowDir) : ℤ := ((w.files.filter BookFile.parquet).map fun f => (f.size : ℤ)).sum

/-- What `rmtree` deletes. -/
def contents (w : WindowDir) : List Deletion :=
  (w.files.filter fun f => !f.locked).map fun f => ⟨f.path, some w.dir⟩

end WindowDir

/-- The directories that `_prune` lists, each of them once. -/
structure Recordings where
  windows : List WindowDir
  distinct : (windows.map WindowDir.dir).Nodup

/-- The recording configuration that `_prune` reads; `none` where it is unset. -/
structure BookConfig where
  bookRetentionDays : Option ℚ
  bookMaxBytes : Option ℚ

/-- A configured limit, or the default of the sink. -/
def limitOf (default : ℤ) (configured : Option ℚ) : ℤ :=
  match configured with
  | some v => if 0 < v then ⌊v⌋ else default
  | none => default

/-- The state of a pass: the windows it keeps, those it removed, the files it deleted, the bytes
that are left, and the free space with the number of times it was measured. -/
structure Sweep where
  kept : List (ℚ × WindowDir)
  /-- The directories that `rmtree` was called on. -/
  removed : List String
  deleted : List Deletion
  total : ℤ
  /-- The free disk space that was measured last, in GiB. -/
  free : ℚ
  /-- How often it was measured. -/
  reads : ℕ

namespace Sweep

section

variable (pinned : List String)

/-- `rmtree`; what it leaves of a directory it cannot delete the second time either -/
def rmtree (s : Sweep) (w : WindowDir) : Sweep :=
  if w.dir ∈ s.removed then s
  else { s with removed := s.removed ++ [w.dir], deleted := s.deleted ++ w.contents }

/-- One window of the retention loop. -/
def retentionStep (retentionDays : ℤ) (now : ℚ) (s : Sweep) (e : ℚ × WindowDir) : Sweep :=
  if retentionDays * 86400 < now - e.1 ∧ isPathPinned e.2.dir pinned = false then s.rmtree e.2
  else { s with kept := s.kept ++ [e] }

/-- One window of the size loop. -/
def trimStep (maxBytes : ℤ) (s : Sweep) (e : ℚ × WindowDir) : Sweep :=
  if s.total ≤ maxBytes then s
  else if isPathPinned e.2.dir pinned then s
  else { s.rmtree e.2 with total := s.total - e.2.bytes }

/-- `d.exists()` -/
def exists? (s : Sweep) (w : WindowDir) : Bool :=
  decide (w.dir ∉ s.removed) || w.files.any BookFile.locked

/-- One window of the emergency loop; `measure` is what the calls of `disk_usage` return, in GiB,
`none` where one raises. -/
def emergencyStep (measure : ℕ → Option ℚ) (target : ℚ) (s : Sweep) (e : ℚ × WindowDir) : Sweep :=
  if target ≤ s.free then s
  else if !s.exists? e.2 || isPathPinned e.2.dir pinned then s
  else
    { s.rmtree e.2 with
      free := (measure s.reads).getD (s.free + e.2.bytes / 1073741824)
      reads := s.reads + 1 }

/-- The windows of the retention loop. -/
def retention (retentionDays : ℤ) (now : ℚ) (windows : List WindowDir) : Sweep :=
  (windows.filterMap fun w => w.endAt.map fun e => (e, w)).foldl
    (retentionStep pinned retentionDays now) ⟨[], [], [], 0, 0, 0⟩

/-- The windows that the later loops go over, oldest first. -/
def oldestFirst (s : Sweep) : List (ℚ × WindowDir) := sortByKey Prod.fst s.kept

/-- The size loop, with the total it starts from. -/
def trim (maxBytes : ℤ) (s : Sweep) : Sweep :=
  s.oldestFirst.foldl (trimStep pinned maxBytes)
    { s with total := (s.kept.map fun e => e.2.bytes).sum }

/-- The emergency loop, if a target is set; where the disk cannot be measured the target counts as
reached. -/
def emergency (measure : ℕ → Option ℚ) (target : Option ℚ) (s : Sweep) : Sweep :=
  match target.filter fun t => 0 < t with
  | some t =>
    s.oldestFirst.foldl (emergencyStep pinned measure t)
      { s with free := (measure 0).getD t, reads := 1 }
  | none => s

end

end Sweep

/-- `BookParquetSink._prune` of a sink with its two defaults -/
def bookPrune (retentionDays maxBytes : ℤ) (cfg : BookConfig) (pinned : List String) (now : ℚ)
    (measure : ℕ → Option ℚ) (emergencyTargetFreeGb : Option ℚ) (recordings : Recordings) : Sweep :=
  ((Sweep.retention pinned (limitOf retentionDays cfg.bookRetentionDays) now
    recordings.windows).trim pinned
    (limitOf maxBytes cfg.bookMaxBytes)).emergency pinned measure emergencyTargetFreeGb

end Evosport.Data
