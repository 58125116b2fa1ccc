/-
The local intent journal of the fast order path.

The journal is an append-only log of JSON records, one a line, with an index in memory.  An
`intent` record is appended and synced before the venue is called, a `result` record is appended
without a sync after it.  `load` rebuilds the index from the log and passes over lines that do not
parse; compaction rewrites the log from the intents that are still open.

The log on disk is kept in two parts: what is certain to survive a crash and what may still be
cut off.  A crash keeps any part of the latter that can be cut off at its end, and ends the process.
The log is pure ASCII, so that its characters are its bytes.
-/
import Evosport.Lib.JsonParse
import Evosport.Lib.LineLog
import Evosport.Lib.Text

namespace Evosport.Orchestrator

open Lib

/-- A trader and a signal. -/
abbrev Pair := String × String

/-- The states of the index. -/
inductive IntentState where
  | opened
  | done
  deriving DecidableEq, Repr

/-- `_TERMINAL_RESULT_STATUSES` -/
def terminalResultStatuses : List String :=
  ["executed", "failed", "cancelled", "skipped", "recovered"]

/-- `_COMPACT_THRESHOLD_BYTES` -/
def compactThresholdBytes : ℕ := 4 * 1024 * 1024

/-- The process side of the journal: the index, the intent records that are open, and the size of
the log. -/
structure IntentJournal (F : Type) where
  index : Dict Pair IntentState
  openRecords : Dict Pair (Json F)
  bytesWritten : ℕ

namespace IntentJournal

variable {F : Type}

/-- The journal of a process that has read nothing yet. -/
def empty : IntentJournal F := ⟨.empty, .empty, 0⟩

/-- `has_intent` -/
def hasIntent (j : IntentJournal F) (traderId signalId : String) : Bool :=
  j.index.contains (traderId, signalId)

/-- `is_open` -/
def isOpen (j : IntentJournal F) (traderId signalId : String) : Bool :=
  j.index.get? (traderId, signalId) == some .opened

/-- `open_intents` -/
def openIntents (j : IntentJournal F) : List (Json F) := j.openRecords.values

end IntentJournal

/-! ## Records -/

section Records

variable {F : Type}

/-- A text or `None`, as a member of a record. -/
def strOrNull : Option String → Json F
  | some s => .str s
  | none => .null

/-- The arguments of `record_intent`, and the time of the call. -/
structure IntentArgs (F : Type) where
  traderId : String
  signalId : String
  key : String
  tokenId : Option String
  side : Option String
  sizeUsd : Option F
  marketId : Option String
  mode : Option String
  ts : F

/-- The arguments of `record_result`, and the time of the call. -/
structure ResultArgs (F : Type) where
  traderId : String
  signalId : String
  status : String
  providerClobOrderId : Option String
  providerOrderId : Option String
  ts : F

section Case

variable (lower : String → String)

/-- `str(status or "").strip().lower()`, with the case tables of the Unicode standard for
`lower`. -/
def normalizeStatus (status : String) : String := lower (strip status)

/-- The record of `record_intent`. -/
def IntentArgs.record (a : IntentArgs F) : Json F :=
  .obj [("k", .str "intent"), ("tr", .str a.traderId), ("sig", .str a.signalId),
    ("key", .str a.key), ("tok", strOrNull a.tokenId), ("sd", strOrNull a.side),
    ("usd", match a.sizeUsd with | some x => .float x | none => .null),
    ("mkt", strOrNull a.marketId), ("md", strOrNull a.mode), ("ts", .float a.ts)]

/-- The record of `record_result`. -/
def ResultArgs.record (a : ResultArgs F) : Json F :=
  .obj [("k", .str "result"), ("tr", .str a.traderId), ("sig", .str a.signalId),
    ("st", .str (normalizeStatus lower a.status)), ("clob", strOrNull a.providerClobOrderId),
    ("poid", strOrNull a.providerOrderId), ("ts", .float a.ts)]

/-- An id of a record.  Ids are written as texts, and an empty id counts as missing. -/
def idOf (rec : Json F) (name : String) : Option String :=
  match rec.get? name with
  | some (.str s) => if s = "" then none else some s
  | _ => none

/-- The trader and the signal of a record. -/
def pairOf (rec : Json F) : Option Pair :=
  (idOf rec "tr").bind fun traderId => (idOf rec "sig").map fun signalId => (traderId, signalId)

/-- The record is one of an intent. -/
def isIntent (rec : Json F) : Bool :=
  match rec.get? "k" with
  | some (.str kind) => kind == "intent"
  | _ => false

/-- The record is one of a result. -/
def isResult (rec : Json F) : Bool :=
  match rec.get? "k" with
  | some (.str kind) => kind == "result"
  | _ => false

/-- The status of a record is terminal. -/
def isTerminal (rec : Json F) : Bool :=
  match rec.get? "st" with
  | some (.str status) => normalizeStatus lower status ∈ terminalResultStatuses
  | _ => normalizeStatus lower "" ∈ terminalResultStatuses

/-- `_apply_record_locked`: an intent opens its pair, a terminal result closes it; a record that is
neither, or names no pair, changes nothing. -/
def IntentJournal.applyRecord (j : IntentJournal F) (rec : Json F) : IntentJournal F :=
  match pairOf rec with
  | none => j
  | some pair =>
    if isIntent rec then
      { j with index := j.index.set pair .opened, openRecords := j.openRecords.set pair rec }
    else if isResult rec then
      if isTerminal lower rec then
        { j with index := j.index.set pair .done, openRecords := j.openRecords.erase pair }
      else
        -- a status that is not terminal leaves the intent open
        { j with index := if j.index.contains pair then j.index else j.index.set pair .opened }
    else j

end Case

end Records

/-! ## The log -/

section Log

variable {F : Type} [PyFloat F]

/-- The bytes that a line of the log is blank for. -/
def isBlankByte (c : Char) : Bool := (9 ≤ c.toNat && c.toNat ≤ 13) || c.toNat == 32

/-- The value on a line; a blank line and a line that does not parse are passed over. -/
def readLine (cs : List Char) : Option (Json F) :=
  if cs.all isBlankByte then none else Json.loads cs

/-- The text of a record, in ASCII. -/
def dumpsRecord (rec : Json F) : List Char := Json.text Json.escapeAscii rec

/-- The value is an object. -/
def isObject : Json F → Bool
  | .obj _ => true
  | _ => false

private lemma not_blank_object (members : List (String × Json F)) :
    (dumpsRecord (.obj members)).all isBlankByte = false := by
  simp [dumpsRecord, Json.text, isBlankByte]

/-- The log format: objects, one a line.  No proper prefix of a line is read as a record, which is
what makes a torn tail harmless. -/
def journalFormat : LineFormat (Json F) where
  enc := dumpsRecord
  dec := readLine
  valid rec := isObject rec = true
  dec_enc := by
    intro rec hrec
    cases rec with
    | obj members =>
      have hloads : Json.loads (dumpsRecord (.obj members) ++ []) = some (.obj members) :=
        Json.loads_text Json.escapes_escapeAscii _ (by simp)
      rw [List.append_nil] at hloads
      simp [readLine, not_blank_object, hloads]
    | _ => cases hrec
  newline_enc := by
    intro rec _ hmem
    exact absurd (Json.printable_text rec _ hmem) (by decide)
  dec_prefix := by
    intro rec hrec cs hcs hne
    cases rec with
    | obj members =>
      rw [readLine]
      split
      · rfl
      · exact Json.loads_prefix Json.escapes_escapeAscii members hcs hne
    | _ => cases hrec
  dec_nil := rfl

variable (lower : String → String)

/-- One record of the log, unless it is no record at all. -/
def loadRecord (j : IntentJournal F) (rec : Json F) : Option (IntentJournal F) :=
  if isObject rec then some (j.applyRecord lower rec) else none

/-- `load`: the index of the records of the log. -/
def load (log : List Char) : Option (IntentJournal F) :=
  ((journalFormat.read log).foldlM (loadRecord lower) IntentJournal.empty).map
    fun j => { j with bytesWritten := log.length }

/-- The log on disk and the journal of the running process: what is safe after a crash, what may be
lost in one, and the index in memory. -/
structure World (F : Type) where
  /-- What survives a crash. -/
  synced : List Char
  /-- What was written since the last sync; a crash may cut it off anywhere. -/
  unsynced : List Char
  /-- Nothing between a crash and the next start. -/
  journal : Option (IntentJournal F)

namespace World

/-- No log and no process. -/
def fresh : World F := ⟨[], [], none⟩

/-- The log as the running system sees it. -/
def log (w : World F) : List Char := w.synced ++ w.unsynced

/-- `os.write`, `os.fsync` and the update of the index in `_append`. -/
def write (w : World F) (j : IntentJournal F) (rec : Json F) (fsync : Bool) : World F :=
  let line := journalFormat.line rec
  { synced := if fsync then w.log ++ line else w.synced
    unsynced := if fsync then [] else w.unsynced ++ line
    journal := some { j.applyRecord lower rec with
      bytesWritten := j.bytesWritten + line.length } }

/-- `_compact`: the log is replaced by the open intents. -/
def compact (w : World F) : World F :=
  match w.journal with
  | none => w
  | some j =>
    let buf := journalFormat.write j.openIntents
    { synced := buf, unsynced := [], journal := some { j with bytesWritten := buf.length } }

/-- The log has reached the size at which it is compacted. -/
def compactionDue (w : World F) : Bool :=
  match w.journal with
  | none => false
  | some j => compactThresholdBytes ≤ j.bytesWritten

/-- `_append` -/
def append (w : World F) (rec : Json F) (fsync : Bool) : World F :=
  match w.journal with
  | none => w
  | some j =>
    let w' := w.write lower j rec fsync
    if w'.compactionDue then w'.compact else w'

/-- `open` and `load` -/
def reload (w : World F) : World F := { w with journal := load lower w.log }

/-- The process ends; of what was written since the last sync the first `kept` characters stay. -/
def crash (w : World F) (kept : ℕ) : World F :=
  ⟨w.synced ++ w.unsynced.take kept, [], none⟩

/-- The process ends while it writes a record. -/
def crashInAppend (w : World F) (rec : Json F) (kept : ℕ) : World F :=
  match w.journal with
  | none => w
  | some _ => crash { w with unsynced := w.unsynced ++ journalFormat.line rec } kept

end World

/-- What happens to a journal: a call of one of its operations, a restart, or a crash, which may
tear the line that is written. -/
inductive Event (F : Type) where
  | recordIntent (args : IntentArgs F)
  | recordResult (args : ResultArgs F)
  | compact
  | reload
  | crash (kept : ℕ)
  | crashInIntent (args : IntentArgs F) (kept : ℕ)
  | crashInResult (args : ResultArgs F) (kept : ℕ)

/-- One event. -/
def World.step (w : World F) : Event F → World F
  | .recordIntent args => w.append lower args.record true
  | .recordResult args => w.append lower (args.record lower) false
  | .compact => w.compact
  | .reload => w.reload lower
  | .crash kept => w.crash kept
  | .crashInIntent args kept => w.crashInAppend args.record kept
  | .crashInResult args kept => w.crashInAppend (args.record lower) kept

end Log

end Evosport.Orchestrator
