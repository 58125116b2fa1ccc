/-
The parquet backend of the recorded-event bus.

`publish` puts an event into a write ring, in the bucket of its topic, its entity and the date on
which it was observed; beyond its cap the ring drops the oldest event of its largest bucket.  A
flush takes buckets out of the ring and writes each as one file of its own, in the directory
`{storage_uri}/{entity}/{date}`.  `parquet_replayer` goes the other way: it lists the dates that the
window touches, padded by a day at each side, reads the files of an entity by date and name, sorts
the rows of each file and merges the entities with a heap.
-/
import Evosport.Lib.Double
import Evosport.Lib.HeapMerge
import Evosport.Lib.IsoDate
import Evosport.Lib.Sha1
import Evosport.RecordedBus.Envelope
import Mathlib.Data.List.Lex
import Mathlib.Logic.Function.Iterate

namespace Evosport.RecordedBus

open Lib

variable {F : Type}

/-! ## Dates and directories -/

/-- The seconds of a timestamp without their fraction, `math.modf`. -/
def wholeSeconds (x : ℚ) : ℤ := if 0 ≤ x then ⌊x⌋ else ⌈x⌉

/-- The timestamp `x` in seconds as microseconds since the epoch, the fraction being rounded. -/
def timestampMicros (x : ℚ) : ℤ :=
  wholeSeconds x * 1000000 + nearestEven (toDouble ((x - wholeSeconds x) * 1000000))

/-- `datetime.fromtimestamp(us / 1e6, tz=utc)` as microseconds since the epoch; the quotient is a
double. -/
def fromTimestamp (us : ℤ) : ℤ := timestampMicros (toDouble (toDouble us / 1000000))

/-- The days of the years 1 and 9999 that a `date` reaches to. -/
def minDay : ℤ := -719162

/-- The day of the last date that Python can express. -/
def maxDay : ℤ := 2932896

/-- The UTC date of a timestamp; none where `fromtimestamp` raises. -/
def dayOf (us : ℤ) : Option ℤ :=
  let day := fromTimestamp us / 86400000000
  if minDay ≤ day ∧ day ≤ maxDay then some day else none

/-- A directory by the parts of its path. -/
abbrev Dir := List String

/-- The characters that `_safe_segment` keeps. -/
def isSegmentChar (c : Char) : Bool := c.isAlphanum || c == '.' || c == '_' || c == '-'

/-- `_safe_segment`, with `max_len` at its default. -/
def safeSegment (value : String) : String :=
  let cleaned := value.toList.map fun c => if isSegmentChar c then c else '-'
  if cleaned.length ≤ 64 then String.ofList cleaned
  else String.ofList (cleaned.take 55 ++ '-' :: (sha1 value.toUTF8).toList.take 8)

/-- `Path(base) / segment`: a path drops the part `.`. -/
def joinSegment (base : Dir) (segment : String) : Dir :=
  if segment = "." then base else base ++ [segment]

/-- The directory of an entity below the storage uri. -/
def entityDir (uri : Dir) (entityId : String) : Dir := joinSegment uri (safeSegment entityId)

/-! ## The write ring -/

/-- `_FLUSH_BATCH_SIZE`. -/
def flushBatchSize : ℕ := 500

/-- `_MAX_RING_SIZE`. -/
def maxRingSize : ℕ := 5000

/-- Topic, entity and date of a bucket. -/
structure BucketKey where
  topic : String
  entityId : String
  dateStr : String
deriving DecidableEq

/-- `_WriteRing`: the buckets with the events that wait in them, the number of all of them, and the
storage of each topic that was offered. -/
structure WriteRing (F : Type) where
  buckets : Dict BucketKey (List (RecordedEvent F))
  total : ℕ
  uriCache : Dict String Dir

/-- A bucket that a flush took out of the ring, with its topic's storage uri. -/
structure Batch (F : Type) where
  key : BucketKey
  events : List (RecordedEvent F)
  storageUri : Dir

namespace WriteRing

/-- A ring that holds nothing. -/
def empty : WriteRing F := ⟨Dict.empty, 0, Dict.empty⟩

/-- The bucket with the most events, the first one of several. -/
def largest (buckets : List (BucketKey × List (RecordedEvent F))) :
    Option (BucketKey × List (RecordedEvent F)) :=
  buckets.foldl (fun best b => match best with
    | none => some b
    | some m => if m.2.length < b.2.length then some b else some m) none

/-- `_drop_one_oldest`. -/
def dropOneOldest (ring : WriteRing F) : WriteRing F :=
  match largest ring.buckets.entries with
  | none => ring
  | some (_, []) => ring
  | some (key, [_]) =>
    { ring with buckets := ring.buckets.erase key, total := ring.total - 1 }
  | some (key, _ :: bucket) =>
    { ring with buckets := ring.buckets.set key bucket, total := ring.total - 1 }

/-- The ring with the event in its bucket, before the cap is looked at. -/
def enqueue (ring : WriteRing F) (key : BucketKey) (e : RecordedEvent F) (uri : Dir) :
    WriteRing F where
  buckets := ring.buckets.set key (ring.buckets.getD key [] ++ [e])
  total := ring.total + 1
  uriCache := if ring.uriCache.contains e.topic then ring.uriCache else ring.uriCache.set e.topic uri

/-- `offer`.  It raises for an event whose time is no date, and the event is not recorded.  Each
turn of the loop that keeps the cap drops one event. -/
def offer (ring : WriteRing F) (e : RecordedEvent F) (uri : Dir) : WriteRing F :=
  match dayOf e.observedAtUs with
  | none => ring
  | some day =>
    let ring := ring.enqueue ⟨e.topic, e.entityId, isoDate day⟩ e uri
    dropOneOldest^[ring.total - maxRingSize] ring

/-- A bucket as a batch. -/
def batchOf (ring : WriteRing F) (b : BucketKey × List (RecordedEvent F)) : Batch F :=
  ⟨b.1, b.2, ring.uriCache.getD b.1.topic []⟩

/-- The buckets that `drain_full_batches` takes out. -/
def fullBuckets (ring : WriteRing F) : List (BucketKey × List (RecordedEvent F)) :=
  ring.buckets.entries.filter fun b => decide (flushBatchSize ≤ b.2.length)

/-- The ring behind `drain_full_batches`. -/
def withoutFull (ring : WriteRing F) : WriteRing F :=
  { ring with
    buckets := ring.fullBuckets.foldl (fun m b => m.erase b.1) ring.buckets
    total := ring.total - (ring.fullBuckets.map fun b => b.2.length).sum }

/-- The batches that `drain_full_batches` or `drain_all` return. -/
def drained (ring : WriteRing F) (drainAll : Bool) : List (Batch F) :=
  if drainAll then
    (ring.buckets.entries.filter fun b => decide (b.2 ≠ [])).map ring.batchOf
  else ring.fullBuckets.map ring.batchOf

/-- The ring behind a drain. -/
def afterDrain (ring : WriteRing F) (drainAll : Bool) : WriteRing F :=
  if drainAll then { ring with buckets := Dict.empty, total := 0 } else ring.withoutFull

end WriteRing

/-! ## The files -/

/-- The directories that were made and the rows of every file. -/
structure Store where
  dirs : List Dir
  files : Dict (Dir × String) (List Row)

/-- A batch on its way to the disk, with the millisecond and the uuid of its file's name. -/
structure Write (F : Type) where
  batch : Batch F
  millis : ℕ
  uuid : String

namespace Write

/-- The partition directory of the batch. -/
def dir (w : Write F) : Dir :=
  entityDir w.batch.storageUri w.batch.key.entityId ++ [w.batch.key.dateStr]

/-- `events__{millis:013d}_{uuid}.parquet`. -/
def name (w : Write F) : String :=
  let digits := Nat.toDigits 10 w.millis
  "events__" ++ String.ofList (List.replicate (13 - digits.length) '0' ++ digits) ++ "_" ++ w.uuid ++
    ".parquet"

/-- The file that the batch becomes. -/
def file (w : Write F) : Dir × String := (w.dir, w.name)

variable [PyFloat F]

/-- The rows of the batch. -/
def rows (w : Write F) : List Row := w.batch.events.map RecordedEvent.toRow

/-- The batch can be written: its numbers fit into the columns. -/
def Fits (w : Write F) : Prop := ∀ r ∈ w.rows, r.Fits

instance (w : Write F) : Decidable w.Fits := List.decidableBAll _ _

end Write

/-- `_write_parquet_batch`; a batch that does not fit is lost, with its directory made. -/
def Store.write [PyFloat F] (store : Store) (w : Write F) : Store where
  dirs := w.dir :: store.dirs
  files := if w.Fits then store.files.set w.file w.rows else store.files

/-- The process that publishes: its ring, and the files. -/
structure Writer (F : Type) where
  ring : WriteRing F
  store : Store

namespace Writer

/-- Nothing published, nothing stored. -/
def empty : Writer F := ⟨WriteRing.empty, [], Dict.empty⟩

/-- What the process does: an event is published to a topic that is stored at `uri`, or the ring is
flushed, each file being named by the clock and a random number. -/
inductive Action (F : Type) where
  | publish (e : RecordedEvent F) (uri : Dir)
  | flush (drainAll : Bool) (stamps : ℕ → ℕ × String)

/-- The batches that an action writes, in order. -/
def writes (s : Writer F) : Action F → List (Write F)
  | .publish _ _ => []
  | .flush drainAll stamps =>
    (s.ring.drained drainAll).zipIdx.map fun b => ⟨b.1, (stamps b.2).1, (stamps b.2).2⟩

variable [PyFloat F]

/-- One action of the writer.  A flush writes what it takes out of the ring. -/
def step (s : Writer F) (a : Action F) : Writer F :=
  match a with
  | .publish e uri => { s with ring := s.ring.offer e uri }
  | .flush drainAll _ =>
    { ring := s.ring.afterDrain drainAll, store := (s.writes a).foldl Store.write s.store }

/-- The process after a run of actions. -/
def run (actions : List (Action F)) : Writer F := actions.foldl step empty

end Writer

/-! ## Reading -/

/-- `ReplayWindow`: the half-open range, the topics, the entities and the clock that orders the
events; its two checks are fields. -/
structure ReplayWindow where
  startUs : ℤ
  endUs : ℤ
  topics : List String
  /-- The entities to replay, for the topics that are restricted. -/
  entityFilter : Option (Dict String (List String))
  timeField : TimeField
  start_lt_end : startUs < endUs
  topics_ne_nil : topics ≠ []

/-- The half-open window of times. -/
def ReplayWindow.Contains (w : ReplayWindow) (t : ℤ) : Prop := w.startUs ≤ t ∧ t < w.endUs

instance (w : ReplayWindow) (t : ℤ) : Decidable (w.Contains t) := inferInstanceAs (Decidable (_ ∧ _))

/-- A topic with what the catalogue says of it. -/
structure TopicSpec where
  slug : String
  storageUri : Option Dir
  enabled : Bool
  isReplayable : Bool

/-- The integers from `lo` to `hi`. -/
def daysBetween (lo hi : ℤ) : List ℤ := (List.range (hi - lo + 1).toNat).map fun i : ℕ => lo + i

/-- The dates that the window touches, with a day of padding at both ends.  It raises where the
padding, or the loop's step behind it, leaves the calendar. -/
def replayDays (w : ReplayWindow) : Option (List ℤ) := do
  let startDay ← dayOf w.startUs
  let endDay ← dayOf w.endUs
  if startDay - 1 < minDay ∨ maxDay < endDay + 2 then none
  else some (daysBetween (startDay - 1) (endDay + 1))

/-- The least value of a column. -/
def columnMin : List ℤ → Option ℤ
  | [] => none
  | t :: ts => some (ts.foldl (fun lo t => if t < lo then t else lo) t)

/-- The greatest value of a column. -/
def columnMax : List ℤ → Option ℤ
  | [] => none
  | t :: ts => some (ts.foldl (fun hi t => if hi < t then t else hi) t)

/-- `_prune_files_to_window` keeps the file. -/
def keepsFile (w : ReplayWindow) (rows : List Row) : Bool :=
  match columnMin (rows.map (Row.time w.timeField)), columnMax (rows.map (Row.time w.timeField)) with
  | some lo, some hi => !(decide (hi < w.startUs) || decide (w.endUs ≤ lo))
  | _, _ => true

namespace Store

/-- The directory exists: one that was made is below it. -/
def hasDir (store : Store) (dir : Dir) : Bool := store.dirs.any fun d => decide (dir <+: d)

/-- The directories in a directory, `iterdir` with `is_dir`; the parent is not listed. -/
def children (store : Store) (base : Dir) : List String :=
  (store.dirs.filterMap fun d => if base <+: d then d[base.length]? else none).dedup.filter
    fun name => decide (name ≠ "..")

/-- The files of a directory, sorted by name. -/
def dayFiles (store : Store) (dir : Dir) : List (String × List Row) :=
  sortByKey Prod.fst
    ((store.files.entries.filter fun f => decide (f.1.1 = dir)).map fun f => (f.1.2, f.2))

end Store

/-- The directories of the entities to replay. -/
def entityDirs (store : Store) (w : ReplayWindow) (spec : TopicSpec) (base : Dir) : List Dir :=
  match w.entityFilter.bind fun filter => filter.get? spec.slug with
  | some entities => (entities.map (entityDir base)).filter store.hasDir
  | none => (sortByKey id (store.children base)).map fun name => base ++ [name]

variable [PyFloat F]

/-- The events of a file that lie in the window, in the order of its rows. -/
def windowEvents (w : ReplayWindow) (rows : List Row) : List (RecordedEvent F) :=
  (rows.filter fun r => decide (w.Contains (r.time w.timeField))).filterMap Row.event?

/-- `_read_file_rows`. -/
def readFileRows (w : ReplayWindow) (rows : List Row) : List (RecordedEvent F) :=
  sortByKey (RecordedEvent.timeSeq w.timeField) (windowEvents w rows)

/-- `_entity_stream`: the dates in order, and of a date the files by name. -/
def entityStream (store : Store) (w : ReplayWindow) (days : List ℤ) (dir : Dir) :
    List (RecordedEvent F) :=
  days.flatMap fun day =>
    ((store.dayFiles (dir ++ [isoDate day])).filter fun f => keepsFile w f.2).flatMap
      fun f => readFileRows w f.2

/-- The order of the heap of entities; the directory breaks ties. -/
def entityOrder (field : TimeField) (dir : Dir) (e : RecordedEvent F) :
    ((ℤ ×ₗ ℤ) ×ₗ (String ×ₗ String)) ×ₗ Dir :=
  toLex (e.orderKey field, dir)

/-- `parquet_replayer`; none where it raises, which it does before its first event. -/
def parquetReplayer (store : Store) (spec : TopicSpec) (w : ReplayWindow) :
    Option (List (RecordedEvent F)) :=
  match spec.storageUri with
  | none => some []
  | some base =>
    if store.hasDir base then
      (replayDays w).map fun days =>
        HeapMerge.merge (entityOrder w.timeField)
          ((entityDirs store w spec base).dedup.map fun dir => (dir, entityStream store w days dir))
    else some []

end Evosport.RecordedBus
