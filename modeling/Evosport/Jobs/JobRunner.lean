/-
The job queue of the backtest workers (`services/backtest/job_runner.py`).

A run is a row of the table of runs.  Workers claim queued rows, run the engine on them and write
the outcome; an operator cancels runs; a starting worker requeues runs that look orphaned; and the
unified runner (`services/backtest/unified_runner.py`) schedules a write of its own for every result
that it returns.  A statement of the database is atomic.  A session that reads a row and commits it
later is two steps, and of the row it writes the columns that it has changed.

Sessions are of any number, and each has its own place in the code.  Beside the table the model
keeps the claim that each run is under, and a log of who wrote final statuses.
-/
import Evosport.Lib.Dict
import Mathlib.Data.List.MinMax
import Mathlib.Logic.Function.Basic

namespace Evosport.Jobs

open Lib

/-! ## Rows -/

/-- The statuses of a run.  `ok` is written by the unified runner for a run that it has completed.
-/
inductive RunStatus where
  | queued
  | running
  | completed
  | ok
  | failed
  | cancelled
  deriving DecidableEq, Repr

/-- The statuses that a run ends with. -/
def RunStatus.isTerminal : RunStatus → Bool
  | .queued | .running => false
  | _ => true

/-- `_WORKER_ID` -/
structure Worker where
  host : String
  pid : ℕ
  deriving DecidableEq, Repr

/-- What the runner returns for a run: whether it succeeded, and the rest of the payload, which the
queue only stores. -/
structure RunBlob (β : Type*) where
  /-- `execution.success` -/
  success : Bool
  body : β
  deriving DecidableEq, Repr

/-- `result_json` -/
inductive ResultJson (β : Type*) where
  | empty
  | blob (blob : RunBlob β)
  | runtimeTraceback (traceback : String)
  deriving DecidableEq, Repr

/-- `BacktestRun`, as far as the queue goes; times are in microseconds. -/
structure BacktestRun (β : Type*) where
  status : RunStatus
  createdAt : ℤ
  workerId : Option Worker
  claimedAt : Option ℤ
  cancelRequested : Bool
  error : Option String
  result : ResultJson β
  deriving DecidableEq, Repr

/-- A session writes a column back when it has changed it. -/
def writeBack {α : Type*} [DecidableEq α] (read new current : α) : α :=
  if new = read then current else new

/-- The table of runs, by their ids. -/
abbrev RunTable (β : Type*) := Dict String (BacktestRun β)

variable {β : Type*}

/-- `enqueue_run`, of a fresh id -/
def enqueueRun (table : RunTable β) (runId : String) (now : ℤ) : RunTable β :=
  match table.get? runId with
  | some _ => table
  | none => table.set runId ⟨.queued, now, none, none, false, none, .empty⟩

/-- The oldest queued row that is not locked. -/
def nextQueued (table : RunTable β) (locked : List String) : Option (String × BacktestRun β) :=
  @List.argmin _ ℤ Int.instLinearOrder.toPreorder Int.decLt (fun e => e.2.createdAt)
    (table.entries.filter fun e => e.2.status == .queued && !locked.contains e.1)

/-! ## Orphans -/

/-- `_ORPHAN_MAX_RUNNING_SECONDS`, in microseconds -/
def orphanMaxRunning : ℤ := 24 * 3600 * 1000000

/-- Whether `requeue_orphaned_runs` takes a row, on the host and with the process id of `me`. -/
def isOrphan (me : Worker) (pidAlive : ℕ → Bool) (now : ℤ) (row : BacktestRun β) : Bool :=
  let sameHostDead :=
    match row.workerId with
    | some worker => worker.host == me.host && worker.pid != me.pid && !pidAlive worker.pid
    | none => false
  let stale :=
    match row.claimedAt with
    | some claimedAt => orphanMaxRunning < now - claimedAt
    | none => false
  sameHostDead || stale

/-- The rows that `requeue_orphaned_runs` takes. -/
def orphans (table : RunTable β) (me : Worker) (pidAlive : ℕ → Bool) (now : ℤ) :
    List (String × BacktestRun β) :=
  table.entries.filter fun e => e.2.status == .running && isOrphan me pidAlive now e.2

/-- A requeued row; it was read as running. -/
def requeued (read row : BacktestRun β) : BacktestRun β :=
  { row with
    status := .queued
    workerId := writeBack read.workerId none row.workerId
    claimedAt := writeBack read.claimedAt none row.claimedAt }

/-! ## Outcomes -/

/-- How the engine ends: it returns a payload, is cancelled by its callback, or raises an error with
its traceback. -/
inductive EngineOutcome (β : Type*) where
  | returned (blob : RunBlob β)
  | cancelled
  | raised (error traceback : String)
  deriving DecidableEq, Repr

namespace EngineOutcome

/-- `final_status` -/
def finalStatus : EngineOutcome β → RunStatus
  | returned _ => .completed
  | cancelled => .cancelled
  | raised _ _ => .failed

/-- The text that the row of the run gets. -/
def error : EngineOutcome β → Option String
  | returned _ => none
  | cancelled => some "Cancelled by operator"
  | raised error _ => some error

/-- The result that is written over `result`. -/
def result (outcome : EngineOutcome β) (result : ResultJson β) : ResultJson β :=
  match outcome with
  | returned blob => .blob blob
  | cancelled => result
  | raised _ traceback => if traceback = "" then result else .runtimeTraceback traceback

end EngineOutcome

section FinalRow

variable [DecidableEq β]

/-- The final write of `run_job`, by a session that has read `read`. -/
def finalRow (outcome : EngineOutcome β) (read row : BacktestRun β) : BacktestRun β :=
  { row with
    status := writeBack read.status outcome.finalStatus row.status
    error := writeBack read.error outcome.error row.error
    result := writeBack read.result (outcome.result read.result) row.result }

end FinalRow

/-- The status that `_persist_run_to_db` writes. -/
def RunBlob.status (blob : RunBlob β) : RunStatus := if blob.success then .ok else .failed

/-- What `_persist_run_to_db` makes of a row that is there. -/
def persistedRow (blob : RunBlob β) (row : BacktestRun β) : BacktestRun β :=
  { row with status := blob.status, result := .blob blob }

/-- `_persist_run_to_db`, which inserts a row or updates the one that is there -/
def persistRun (table : RunTable β) (runId : String) (blob : RunBlob β) (now : ℤ) : RunTable β :=
  table.set runId (persistedRow blob
    ((table.get? runId).getD ⟨.ok, now, none, none, false, none, .empty⟩))

/-- `request_cancel`, of a row that was read before it had ended -/
def cancelledRow (read row : BacktestRun β) : BacktestRun β :=
  { row with
    cancelRequested := writeBack read.cancelRequested true row.cancelRequested
    status := if read.status = .queued then .cancelled else row.status }

/-! ## Sessions -/

/-- Where a session is.  A worker that has claimed a run carries the number of its claim. -/
inductive Session (β : Type*) where
  | idle
  /-- The claim without `SKIP LOCKED` has read a queued row. -/
  | claiming (worker : Worker) (runId : String) (read : BacktestRun β)
  | claimed (runId : String) (claim : ℕ)
  | running (runId : String) (claim : ℕ)
  | ended (runId : String) (claim : ℕ) (outcome : EngineOutcome β)
  | finishing (runId : String) (claim : ℕ) (outcome : EngineOutcome β) (read : BacktestRun β)
  | cancelling (runId : String) (read : BacktestRun β)
  | requeueing (reads : List (String × BacktestRun β))
  deriving DecidableEq, Repr

/-- A scheduled `_persist_run_to_db`: the session that scheduled it, the run and the claim it works
for, and the payload it will write. -/
structure PersistTask (ι β : Type*) where
  owner : ι
  runId : String
  claim : ℕ
  blob : RunBlob β

/-- Who wrote a final status, and who held the run then; writes without a claim are cancellations of
queued runs. -/
structure FinalWrite where
  runId : String
  writer : Option ℕ
  holder : Option ℕ
  deriving DecidableEq, Repr

/-- The table, the sessions and the scheduled writes, with the claims and the log beside them. -/
structure JobQueue (ι β : Type*) where
  table : RunTable β
  sessions : ι → Session β
  tasks : List (PersistTask ι β)
  nextClaim : ℕ
  holder : String → Option ℕ
  log : List FinalWrite

/-- What happens next. -/
inductive Event (ι β : Type*) where
  | enqueue (runId : String) (now : ℤ)
  | claim (i : ι) (worker : Worker) (now : ℤ) (locked : List String)
  | claimRead (i : ι) (worker : Worker)
  | claimCommit (i : ι) (now : ℤ)
  | start (i : ι)
  | progress (i : ι)
  | engine (i : ι) (outcome : EngineOutcome β)
  | finalRead (i : ι)
  | finalCommit (i : ι)
  | cancelRead (i : ι) (runId : String)
  | cancelCommit (i : ι)
  | requeueRead (i : ι) (me : Worker) (pidAlive : ℕ → Bool) (now : ℤ)
  | requeueCommit (i : ι)
  | persist (n : ℕ) (now : ℤ)
  | persistFails (n : ℕ)
  | abort (i : ι)
  | crash (i : ι)

namespace JobQueue

variable {ι : Type*} [DecidableEq ι]

/-- The session `i` goes on to its next phase. -/
def goto (w : JobQueue ι β) (i : ι) (s : Session β) : JobQueue ι β :=
  { w with sessions := Function.update w.sessions i s }

/-- Change a row that is there. -/
def modifyRow (w : JobQueue ι β) (runId : String) (f : BacktestRun β → BacktestRun β) :
    JobQueue ι β :=
  match w.table.get? runId with
  | some row => { w with table := w.table.set runId (f row) }
  | none => w

/-- Put a run under a new claim, or under none. -/
def hold (w : JobQueue ι β) (runId : String) (claim : Option ℕ) : JobQueue ι β :=
  { w with holder := Function.update w.holder runId claim, nextClaim := w.nextClaim + 1 }

/-- Note that `writer` writes a final status. -/
def note (w : JobQueue ι β) (runId : String) (writer : Option ℕ) : JobQueue ι β :=
  { w with log := w.log ++ [⟨runId, writer, w.holder runId⟩] }

/-- A claimed row; it was read as queued. -/
def claimedRow (worker : Worker) (now : ℤ) (read row : BacktestRun β) : BacktestRun β :=
  { row with
    status := .running
    workerId := writeBack read.workerId (some worker) row.workerId
    claimedAt := writeBack read.claimedAt (some now) row.claimedAt }

/-- `claim_next_queued_run`, in one statement -/
def claimNext (w : JobQueue ι β) (i : ι) (worker : Worker) (now : ℤ) (locked : List String) :
    JobQueue ι β :=
  match nextQueued w.table locked with
  | none => w
  | some (runId, _) =>
    ((w.modifyRow runId fun row =>
      { row with status := .running, claimedAt := some now, workerId := some worker }).hold runId
        (some w.nextClaim)).goto i (.claimed runId w.nextClaim)

/-- The commit of `claim_next_queued_run` where it has read the row before. -/
def claimCommit (w : JobQueue ι β) (i : ι) (worker : Worker) (now : ℤ) (runId : String)
    (read : BacktestRun β) : JobQueue ι β :=
  match w.table.get? runId with
  | none => w.goto i .idle
  | some _ =>
    ((w.modifyRow runId (claimedRow worker now read)).hold runId (some w.nextClaim)).goto i
      (.claimed runId w.nextClaim)

/-- The engine has ended.  When it returns, the runner has scheduled a write of its own. -/
def engineEnds (w : JobQueue ι β) (i : ι) (runId : String) (claim : ℕ)
    (outcome : EngineOutcome β) : JobQueue ι β :=
  match outcome with
  | .returned blob =>
    ({ w with tasks := w.tasks ++ [⟨i, runId, claim, blob⟩] } : JobQueue ι β).goto i
      (.ended runId claim outcome)
  | _ => w.goto i (.ended runId claim outcome)

/-- The commit of `request_cancel`. -/
def cancelCommit (w : JobQueue ι β) (i : ι) (runId : String) (read : BacktestRun β) :
    JobQueue ι β :=
  if read.status = .queued then
    ((w.modifyRow runId (cancelledRow read)).note runId none).goto i .idle
  else (w.modifyRow runId (cancelledRow read)).goto i .idle

/-- The commit of `requeue_orphaned_runs`. -/
def requeueAll (w : JobQueue ι β) (reads : List (String × BacktestRun β)) : JobQueue ι β :=
  reads.foldl (fun w e => (w.modifyRow e.1 (requeued e.2)).hold e.1 none) w

variable [DecidableEq β]

/-- One event of a run; an event that no session is ready for changes nothing. -/
def step (w : JobQueue ι β) : Event ι β → JobQueue ι β
  | .enqueue runId now => { w with table := enqueueRun w.table runId now }
  | .claim i worker now locked =>
    match w.sessions i with
    | .idle => w.claimNext i worker now locked
    | _ => w
  | .claimRead i worker =>
    match w.sessions i, nextQueued w.table [] with
    | .idle, some (runId, row) => w.goto i (.claiming worker runId row)
    | _, _ => w
  | .claimCommit i now =>
    match w.sessions i with
    | .claiming worker runId read => w.claimCommit i worker now runId read
    | _ => w
  | .start i =>
    match w.sessions i with
    | .claimed runId claim =>
      match w.table.get? runId with
      | some row =>
        if row.status = .running then w.goto i (.running runId claim) else w.goto i .idle
      | none => w.goto i .idle
    | _ => w
  | .progress i =>
    match w.sessions i with
    | .running runId claim =>
      match w.table.get? runId with
      | some row => if row.cancelRequested then w.engineEnds i runId claim .cancelled else w
      | none => w
    | _ => w
  | .engine i outcome =>
    match w.sessions i with
    | .running runId claim => if outcome = .cancelled then w else w.engineEnds i runId claim outcome
    | _ => w
  | .finalRead i =>
    match w.sessions i with
    | .ended runId claim outcome =>
      match w.table.get? runId with
      | some row => w.goto i (.finishing runId claim outcome row)
      | none => w.goto i .idle
    | _ => w
  | .finalCommit i =>
    match w.sessions i with
    | .finishing runId claim outcome read =>
      ((w.modifyRow runId (finalRow outcome read)).note runId (some claim)).goto i .idle
    | _ => w
  | .cancelRead i runId =>
    match w.sessions i, w.table.get? runId with
    | .idle, some row => if row.status.isTerminal then w else w.goto i (.cancelling runId row)
    | _, _ => w
  | .cancelCommit i =>
    match w.sessions i with
    | .cancelling runId read => w.cancelCommit i runId read
    | _ => w
  | .requeueRead i me pidAlive now =>
    match w.sessions i with
    | .idle => w.goto i (.requeueing (orphans w.table me pidAlive now))
    | _ => w
  | .requeueCommit i =>
    match w.sessions i with
    | .requeueing reads => (w.requeueAll reads).goto i .idle
    | _ => w
  | .persist n now =>
    match w.tasks[n]? with
    | some task =>
      ({ w with
        table := persistRun w.table task.runId task.blob now
        tasks := w.tasks.eraseIdx n } : JobQueue ι β).note task.runId (some task.claim)
    | none => w
  | .persistFails n => { w with tasks := w.tasks.eraseIdx n }
  -- a statement or a commit of the session fails
  | .abort i => w.goto i .idle
  | .crash i =>
    ({ w with tasks := w.tasks.filter fun task => task.owner ≠ i } : JobQueue ι β).goto i .idle

end JobQueue

end Evosport.Jobs
