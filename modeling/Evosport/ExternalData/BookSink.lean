/-
The recording sink of the market-data ingestor (`services/external_data/book_parquet_sink.py`).

`BookParquetSink.write` files rows in memory by part kind and 15-minute window; `_flush` drains
one key after the other into a new part file of its window.  The part is written in a thread, so
between two steps of `_flush` other coroutines run: `write` with its `_drop_oldest` above all, and
`stop`, which cancels the flush while the thread goes on.

An event is what happens between two such points.  At most one flush is running: the loop awaits
its own, and `stop` waits for the cancelled loop before it flushes once more.  The part files are
a map from names to rows; `replaced` and the two counters beside it record what happened to files
and rows, and no step reads them.
-/
import Evosport.Lib.Dict
import Evosport.Lib.Run
import Evosport.Lib.StableSort
import Evosport.Data.Compactor
import Mathlib.Data.Prod.Lex
import Mathlib.Data.String.Basic

namespace Evosport.ExternalData

open Lib
open Evosport.Data (Kind)

/-- `_WINDOW_SECONDS` -/
def windowSeconds : ℤ := 900

/-- `_MAX_BUFFERED_ROWS` -/
def maxBufferedRows : ℤ := 200000

/-- The start of the window of an instant in microseconds, in seconds. -/
def bucketOf (us : ℤ) : ℤ := us / 1000000 / windowSeconds * windowSeconds

/-! ## Rows -/

/-- What the ingestor hands over.  The columns that no step of the sink reads are `ρ`. -/
structure RawRow (ρ : Type) where
  tokenId : String
  observedAtUs : Option ℤ
  columns : ρ

/-- A buffered row: its token, when it was observed, and its columns, which the sink does not read.
-/
structure Row (ρ : Type) where
  tokenId : String
  observedAtUs : ℤ
  columns : ρ

variable {ρ : Type}

/-- `_snapshot_row` and `_delta_row`, which refuse the same rows. -/
def convertRow (r : RawRow ρ) : Option (Row ρ) :=
  if r.tokenId = "" then none
  else r.observedAtUs.map fun us => ⟨r.tokenId, us, r.columns⟩

/-- The order of the rows of a part. -/
def sortRows (rows : List (Row ρ)) : List (Row ρ) :=
  sortByKey (fun r => toLex (r.tokenId, r.observedAtUs)) rows

/-! ## The sink -/

/-- A key of `_buf`: the part kind and the bucket. -/
abbrev BufKey := Kind × ℤ

/-- `BookParquetSink`: the buffered rows and the numbers of the next parts, with the counters that
the sink reports. -/
structure BookSink (ρ : Type) where
  /-- `_buf` -/
  buf : Dict BufKey (List (Row ρ))
  /-- `_part_seq` -/
  partSeq : Dict BufKey ℕ
  bufferedRows : ℤ
  dropped : ℤ
  written : ℤ

namespace BookSink

/-- The sink before the first row. -/
def empty : BookSink ρ := ⟨.empty, .empty, 0, 0, 0⟩

/-- One row of `write`. -/
def buffer (kind : Kind) (s : BookSink ρ) (row : Row ρ) : BookSink ρ :=
  let key := (kind, bucketOf row.observedAtUs)
  { s with
    buf := s.buf.set key (s.buf.getD key [] ++ [row])
    bufferedRows := s.bufferedRows + 1 }

/-- The first of the keys with the least bucket. -/
def oldestKey : List BufKey → Option BufKey
  | [] => none
  | key :: keys =>
    match oldestKey keys with
    | none => some key
    | some oldest => if oldest.2 < key.2 then some oldest else some key

/-- `_drop_oldest` -/
def dropOldest (s : BookSink ρ) : BookSink ρ :=
  match oldestKey s.buf.keys with
  | none => s
  | some oldest =>
    let n : ℤ := (s.buf.getD oldest []).length
    { s with
      buf := s.buf.erase oldest
      bufferedRows := s.bufferedRows - n
      dropped := s.dropped + n }

/-- `write` -/
def write (s : BookSink ρ) (rows : List (RawRow ρ)) (kind : String) : BookSink ρ :=
  let pkind := if kind = "delta" then Kind.deltas else Kind.snapshots
  let s := (rows.filterMap convertRow).foldl (buffer pkind) s
  if s.bufferedRows > maxBufferedRows then s.dropOldest else s

/-- The disk guard has tripped: the batch in memory is dropped. -/
def dropBatch (s : BookSink ρ) : BookSink ρ :=
  { s with
    buf := .empty
    partSeq := .empty
    bufferedRows := 0
    dropped := s.dropped + s.bufferedRows }

/-- A key goes from both maps. -/
def forget (s : BookSink ρ) (key : BufKey) : BookSink ρ :=
  { s with buf := s.buf.erase key, partSeq := s.partSeq.erase key }

end BookSink

/-! ## Part files -/

/-- `{kind}__part-{seq}.parquet` in the folder of parts of a window. -/
structure PartName where
  key : BufKey
  seq : ℕ
  deriving DecidableEq

/-- The part files on disk with their rows. -/
abbrev PartFiles (ρ : Type) := Dict PartName (List (Row ρ))

/-- `_next_part_sequence`, over the names that the folder lists. -/
def nextPartSequence (names : List PartName) (key : BufKey) : ℕ :=
  names.foldl (fun next name => if name.key = key then max next (name.seq + 1) else next) 0

/-- How far a call of `_write_part` is: before and after it has settled its number, and whether the
file is there or the call has failed. -/
inductive Stage where
  | started
  /-- The number of the part is chosen. -/
  | numbered (seq : ℕ)
  | done (nextSeq : ℕ)
  | failed
  deriving DecidableEq

/-- A call of `_write_part` in its thread: the rows it writes, the number it was given, and how far
it has come. -/
structure PartWrite (ρ : Type) where
  key : BufKey
  seq : ℕ
  rows : List (Row ρ)
  stage : Stage

namespace PartWrite

/-- The thread has not returned. -/
def running (p : PartWrite ρ) : Bool :=
  match p.stage with
  | .started | .numbered _ => true
  | .done _ | .failed => false

/-- The number of the part is chosen; a folder that cannot be listed counts as empty. -/
def number (p : PartWrite ρ) (names : List PartName) (listed : Bool) : PartWrite ρ :=
  match p.stage with
  | .started =>
    let found := if listed then nextPartSequence names p.key else 0
    { p with stage := .numbered (if p.seq = 0 then found else p.seq) }
  | _ => p

/-- The rest of the call.  The file is replaced as a whole, in the last step of a call that
returns. -/
def finish (p : PartWrite ρ) (files : PartFiles ρ) (ok : Bool) : PartWrite ρ × PartFiles ρ :=
  match p.stage, ok with
  | .numbered seq, true =>
    ({ p with stage := .done (seq + 1) }, files.set ⟨p.key, seq⟩ (sortRows p.rows))
  | .numbered _, false | .started, false => ({ p with stage := .failed }, files)
  | _, _ => (p, files)

/-- The part that the rest of the call replaces. -/
def replaces (p : PartWrite ρ) (files : PartFiles ρ) (ok : Bool) : List PartName :=
  match p.stage, ok with
  | .numbered seq, true => if files.contains ⟨p.key, seq⟩ then [⟨p.key, seq⟩] else []
  | _, _ => []

end PartWrite

/-! ## The flush -/

/-- Where a flush waits: before the guard, in the prune, or for the thread that writes a part, with
the keys it has still to write. -/
inductive Flush (ρ : Type) where
  /-- for the disk guard -/
  | guarding
  /-- for the forced `_prune` -/
  | pruning
  /-- for a part, with the keys that come after it -/
  | writing (part : PartWrite ρ) (rest : List BufKey)

/-- The part that a flush is waiting for. -/
def Flush.part : Flush ρ → Option (PartWrite ρ)
  | .writing part _ => some part
  | _ => none

namespace BookSink

/-- The loop of `_flush` over `keys`, up to its next part. -/
def drain (s : BookSink ρ) : List BufKey → BookSink ρ × Option (Flush ρ)
  | [] => ({ s with bufferedRows := max s.bufferedRows 0 }, none)
  | key :: rest =>
    match s.buf.getD key [] with
    | [] => drain (s.forget key) rest
    | row :: rows =>
      ({ s with buf := s.buf.set key [] },
        some (.writing ⟨key, s.partSeq.getD key 0, row :: rows, .started⟩ rest))

/-- The counters after a part was written. -/
def settle (s : BookSink ρ) (part : PartWrite ρ) (nextSeq : ℕ) : BookSink ρ :=
  { s with
    partSeq := s.partSeq.set part.key nextSeq
    written := s.written + part.rows.length
    bufferedRows := s.bufferedRows - part.rows.length }

/-- A drained key of a closed window goes. -/
def closeWindow (s : BookSink ρ) (key : BufKey) (now : ℤ) : BookSink ρ :=
  if key.2 < bucketOf now ∧ (s.buf.getD key []).isEmpty then s.forget key else s

/-- `_flush` after the thread has returned.  A failed part puts its rows back in front of the
list of its key; without such a list the lookup raises and the flush is over. -/
def afterPart (s : BookSink ρ) (part : PartWrite ρ) (rest : List BufKey) (now : ℤ) :
    BookSink ρ × Option (Flush ρ) :=
  match part.stage with
  | .done nextSeq => ((s.settle part nextSeq).closeWindow part.key now).drain rest
  | .failed =>
    match s.buf.get? part.key with
    | some later => ({ s with buf := s.buf.set part.key (part.rows ++ later) }).drain rest
    | none => (s, none)
  | _ => (s, some (.writing part rest))

end BookSink

/-! ## Runs -/

/-- The sink, its flush and the disk, with the accounts that its counters are compared with. -/
structure World (ρ : Type) where
  sink : BookSink ρ
  flush : Option (Flush ρ)
  /-- The threads of cancelled flushes. -/
  orphans : List (PartWrite ρ)
  files : PartFiles ρ
  /-- The rows that `write` took. -/
  accepted : ℤ
  /-- The rows of parts that pruning or the compactor took away. -/
  removed : ℤ
  /-- The parts that another part was written over. -/
  replaced : List PartName

/-- What may happen between two awaits: rows come in, the flush takes its next step or is cancelled,
a thread that a cancelled flush has left goes on, or another process takes a part away. -/
inductive Event (ρ : Type) where
  | write (rows : List (RawRow ρ)) (kind : String)
  | beginFlush
  | guard (blocked : Bool)
  | pruned
  | number (listed : Bool)
  | finish (ok : Bool)
  | resume (now : ℤ)
  | cancel
  | orphanNumber (i : ℕ) (listed : Bool)
  | orphanFinish (i : ℕ) (ok : Bool)
  | removePart (name : PartName)

namespace World

/-- Before the first write, with the parts of earlier runs. -/
def init (files : PartFiles ρ) : World ρ := ⟨.empty, none, [], files, 0, 0, []⟩

/-- The part that the flush is waiting for. -/
def inFlight (w : World ρ) : Option (PartWrite ρ) := w.flush.bind Flush.part

/-- The sink and the flush go on as `_flush` has computed. -/
def proceed (w : World ρ) (next : BookSink ρ × Option (Flush ρ)) : World ρ :=
  { w with sink := next.1, flush := next.2 }

/-- The rest of a call of `_write_part`, whose file and what it replaces are recorded. -/
def finishPart (w : World ρ) (p : PartWrite ρ) (ok : Bool) : World ρ :=
  { w with files := (p.finish w.files ok).2, replaced := w.replaced ++ p.replaces w.files ok }

/-- One event; one that does not fit the phase of the flush changes nothing. -/
def step (w : World ρ) : Event ρ → World ρ
  | .write rows kind =>
    { w with
      sink := w.sink.write rows kind
      accepted := w.accepted + (rows.filterMap convertRow).length }
  | .beginFlush => if w.flush.isNone then { w with flush := some .guarding } else w
  | .guard blocked =>
    match w.flush with
    | some .guarding =>
      if blocked then { w with sink := w.sink.dropBatch, flush := some .pruning }
      else w.proceed (w.sink.drain w.sink.buf.keys)
    | _ => w
  | .pruned =>
    match w.flush with
    | some .pruning => { w with flush := none }
    | _ => w
  | .number listed =>
    match w.flush with
    | some (.writing part rest) =>
      { w with flush := some (.writing (part.number w.files.keys listed) rest) }
    | _ => w
  | .finish ok =>
    match w.flush with
    | some (.writing part rest) =>
      { w.finishPart part ok with flush := some (.writing (part.finish w.files ok).1 rest) }
    | _ => w
  | .resume now =>
    match w.flush with
    | some (.writing part rest) => w.proceed (w.sink.afterPart part rest now)
    | _ => w
  -- The cancelled flush is not told what becomes of its part.
  | .cancel => { w with flush := none, orphans := w.orphans ++ w.inFlight.toList }
  | .orphanNumber i listed =>
    { w with orphans := w.orphans.modify i (·.number w.files.keys listed) }
  | .orphanFinish i ok =>
    match w.orphans[i]? with
    | some p => { w.finishPart p ok with orphans := w.orphans.set i (p.finish w.files ok).1 }
    | none => w
  | .removePart name =>
    { w with
      files := w.files.erase name
      removed := w.removed + (w.files.getD name []).length }

/-- No flush and no part write is in progress. -/
def Quiet (w : World ρ) : Prop := w.flush = none ∧ ∀ p ∈ w.orphans, p.running = false

end World

end Evosport.ExternalData
