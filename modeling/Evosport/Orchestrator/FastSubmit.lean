/-
The fast order path (`services/trader_orchestrator/fast_submit.py`).

`execute_fast_signal` runs in steps between which other calls may run: the critical section that
checks the journal and the cap and records the intent, the call of `submit_execution_leg`, the
commit of the order row, and the hand-over that closes the intent.  `recover_open_intents` walks
over the open intents of the journal: for each of them it looks for a row, adds one where there is
none, and closes the intent; at the end it commits.  The process may die at every step.

The journal is that of `IntentJournal`, with its ledger.  The calls keep a note of what the venue
has of their orders; nothing in the code reads it.
-/
import Evosport.Execution.LiveOrder
import Evosport.Lib.Sha256
import Evosport.Orchestrator.Durability

namespace Evosport.Orchestrator

open Lib Execution

/-! ## Idempotency keys -/

/-- A hexadecimal digit of either case. -/
def isHexDigit (c : Char) : Bool :=
  c.isDigit || ('a' ≤ c && c ≤ 'f') || ('A' ≤ c && c ≤ 'F')

/-- The sign in front of a number. -/
def dropSign : List Char → List Char
  | '+' :: rest => rest
  | '-' :: rest => rest
  | cs => cs

/-- The prefix of the base, after which an underscore may stand. -/
def dropBase : List Char → List Char
  | '0' :: 'x' :: '_' :: rest => rest
  | '0' :: 'X' :: '_' :: rest => rest
  | '0' :: 'x' :: rest => rest
  | '0' :: 'X' :: rest => rest
  | cs => cs

/-- `int(text, 16)` reads the text: an optional sign, an optional prefix, and digits with single
underscores between them.  The digits of other scripts, which `int` reads as well, are left out. -/
def isHexInt (text : String) : Bool :=
  ((dropBase (dropSign (strip text).toList)).splitOn '_').all fun group =>
    group ≠ [] && group.all isHexDigit

/-- `is_fast_idempotency_key`: what comes behind `0x` only has to be something that `int` reads, so
that a sign and underscores are let through. -/
def isFastIdempotencyKey (value : String) : Bool :=
  let text := (strip value).toList
  let body := text.drop 2
  text.take 2 == ['0', 'x'] && body.length == 64 && !body.all (· == '0') &&
    isHexInt (String.ofList body)

/-- What the fast path is given: the case tables, and `max_open_orders` of every trader. -/
structure FastConfig where
  lower : String → String
  lower_live : lower "live" = "live"
  maxOpenOrders : String → Option ℤ

/-- `derive_fast_idempotency_key` -/
def FastConfig.deriveFastIdempotencyKey (cfg : FastConfig) (traderId signalId : String) : String :=
  let traderNorm := cfg.lower (strip traderId)
  let signalNorm := cfg.lower (strip signalId)
  if traderNorm = "" ∨ signalNorm = "" then "0x" ++ String.ofList (List.replicate 64 '0')
  else
    "0x" ++ sha256 ("homerun:fast-idempotency:v1|" ++ traderNorm ++ "|" ++ signalNorm).toUTF8

/-! ## The state -/

/-- The statuses of order rows that the fast path writes. -/
inductive RowStatus where
  | executed
  | failed
  | cancelled
  | placing
deriving DecidableEq, Repr

/-- The status of the row for the status of the leg. -/
def orderStatus : LegStatus → RowStatus
  | .executed => .executed
  | .failed => .failed
  | .opened => .failed
  | .submitted => .failed
  | .skipped => .failed

/-- The status as it stands in the row. -/
def RowStatus.text : RowStatus → String
  | .executed => "executed"
  | .failed => "failed"
  | .cancelled => "cancelled"
  | .placing => "placing"

/-- `_is_active_order_status` in live mode -/
def isActiveOrderStatus : RowStatus → Bool
  | .executed => true
  | _ => false

/-- The status is one of `_HOT_UNFILLED_ORDER_STATUSES`. -/
def isHotUnfilled : RowStatus → Bool
  | .placing => true
  | _ => false

/-- A committed `TraderOrder`. -/
structure Row where
  pair : Pair
  status : RowStatus
  clobOrderId : Option String
deriving DecidableEq, Repr

/-- A signal that is submitted for a trader, with the leg as the journal records it.  The id of the
signal has been stripped. -/
structure FastSignal (F : Type) where
  traderId : String
  signalId : String
  stripped : strip signalId = signalId
  tokenId : Option String
  side : Option String
  marketId : Option String
  sizeUsd : F
  ts : F

/-- What `submit_execution_leg` returned. -/
structure LegAnswer where
  status : LegStatus
  clobOrderId : Option String
  orderId : Option String
deriving DecidableEq, Repr

/-- How far a call has come: its intent is recorded, its order is at the venue, its row is about to
be written or committed, or it has ended. -/
inductive Phase where
  | intended
  | submitting
  | persisting (answer : LegAnswer)
  | persisted (answer : LegAnswer)
  | ended
deriving DecidableEq, Repr

/-- A call of `execute_fast_signal` that has left the critical section, with notes on its order: how
often `submit_execution_leg` was called, whether the venue may hold or have filled the order, and
whether the order is in flight, resting or unresolved. -/
structure Call (F : Type) where
  signal : FastSignal F
  phase : Phase := .intended
  submissions : ℕ := 0
  held : Bool := false
  live : Bool := false

/-- A pass of `recover_open_intents`: the intents still to come, what the query found for the first
of them, and the rows that are not committed yet. -/
structure Pass (F : Type) where
  todo : List (Json F)
  found : Option (Option Row) := none
  pending : List Row := []

/-- An order that the hot state tracks. -/
structure TrackedOrder where
  traderId : String
  orderId : ℕ
  isUnfilled : Bool
deriving DecidableEq, Repr

/-- The journal with its ledger, the committed rows, the calls, the passes, and the hot state. -/
structure FastWorld (F : Type) where
  journal : Run F
  rows : List Row
  calls : List (Call F)
  passes : List (Pass F)
  hot : List TrackedOrder

variable {F : Type}

/-- The trader and the signal, by which the journal knows an intent. -/
def FastSignal.pair (signal : FastSignal F) : Pair := (signal.traderId, signal.signalId)

/-- The trader and the signal of a call. -/
def Call.pair (c : Call F) : Pair := c.signal.pair

/-- The call has steps left to take. -/
def Call.Running (c : Call F) : Prop := c.phase ≠ .ended

instance (c : Call F) : Decidable c.Running := inferInstanceAs (Decidable (_ ≠ _))

/-! ## The steps of a call -/

/-- How a call of `submit_execution_leg` ends: it returns, or it times out, is cancelled or raises,
and then the venue may hold the order or not. -/
inductive Outcome where
  | returned (answer : LegAnswer)
  | ambiguous (held : Bool)
deriving DecidableEq, Repr

/-- How a commit ends: it succeeds, it fails, or it fails after the row has become durable. -/
inductive CommitOutcome where
  | committed
  | failed
  | lost
deriving DecidableEq, Repr

/-- The row has become durable. -/
def CommitOutcome.isDurable : CommitOutcome → Bool
  | .failed => false
  | _ => true

namespace Call

/-- An exception before `submit_execution_leg` is called. -/
def abandon (c : Call F) : Call F := if c.phase = .intended then { c with phase := .ended } else c

/-- The order goes to the venue, which may hold it from now on. -/
def submit (c : Call F) : Call F :=
  if c.phase = .intended then
    { c with phase := .submitting, submissions := c.submissions + 1, held := true, live := true }
  else c

/-- What `submit_execution_leg` returned decides whether a row is written; where it raised, the call
ends, and nobody knows whether the venue holds the order. -/
def answer (outcome : Outcome) (c : Call F) : Call F :=
  if c.phase = .submitting then
    match outcome with
    | .ambiguous held => { c with phase := .ended, held := held }
    | .returned a =>
      match a.status with
      | .skipped => { c with phase := .ended, held := false, live := false }
      | .failed => { c with phase := .persisting a, held := false, live := false }
      | .executed => { c with phase := .persisting a, live := false }
      | .opened => { c with phase := .persisting a }
      | .submitted => { c with phase := .persisting a }
  else c

/-- The row is committed, or the commit failed and the call ends. -/
def commit (outcome : CommitOutcome) (c : Call F) : Call F :=
  match c.phase with
  | .persisting a => { c with phase := if outcome = .committed then .persisted a else .ended }
  | _ => c

/-- The call has closed its intent. -/
def close (c : Call F) : Call F :=
  match c.phase with
  | .persisted _ => { c with phase := .ended }
  | _ => c

/-- The order is resolved: filled, cancelled, or found to be nowhere. -/
def resolve (c : Call F) : Call F :=
  if c.phase = .submitting then c else { c with live := false }

/-- The process of the call has died. -/
def die (c : Call F) : Call F := { c with phase := .ended }

/-- The row that a commit makes durable. -/
def row (c : Call F) : Option Row :=
  match c.phase with
  | .persisting a => some ⟨c.pair, orderStatus a.status, a.clobOrderId⟩
  | _ => none

end Call

/-! ## The steps of a pass -/

/-- The trader and the signal of an open intent; a pass leaves an intent without them alone. -/
def recoverPair (rec : Json F) : Option Pair :=
  (pairOf rec).bind fun pair =>
    if strip pair.1 = "" ∨ strip pair.2 = "" then none else some (strip pair.1, strip pair.2)

/-- The entry of a record, as a text. -/
def textOf (rec : Json F) (name : String) : String :=
  match rec.get? name with
  | some (.str s) => s
  | _ => ""

/-- The intent is that of a live order with a key. -/
def isLiveKeyed (lower : String → String) (rec : Json F) : Bool :=
  lower (strip (textOf rec "md")) == "live" && isFastIdempotencyKey (textOf rec "key")

/-- The row that a pass adds for an intent without one. -/
def recoveryRow (pair : Pair) : Row := ⟨pair, .placing, none⟩

namespace Pass

/-- The query for the row of the first intent; the session sees its own rows too.  An intent that is
not that of a live order with a key is closed without one. -/
def look (lower : String → String) (rows : List Row) (p : Pass F) : Pass F :=
  match p.todo, p.found with
  | rec :: todo, none =>
    match recoverPair rec with
    | none => { p with todo := todo }
    | some pair =>
      if isLiveKeyed lower rec then
        { p with found := some ((rows ++ p.pending).find? fun row => row.pair = pair) }
      else { p with todo := todo }
  | _, _ => p

/-- The row is added, if the query found none. -/
def hand (p : Pass F) : Pass F :=
  match p.todo, p.found with
  | rec :: todo, some found =>
    { todo := todo, found := none
      pending := p.pending ++ match found, recoverPair rec with
        | none, some pair => [recoveryRow pair]
        | _, _ => [] }
  | _, _ => p

/-- The pass is through with its intents. -/
def isDone (p : Pass F) : Bool := p.todo.isEmpty

end Pass

/-! ## The system -/

/-- What a running process can do next: a step of a call, or a step of the recovery of the intents
that are open. -/
inductive Move (F : Type) where
  | enter (signal : FastSignal F)
  | abandon (i : ℕ)
  | submit (i : ℕ)
  | answer (i : ℕ) (outcome : Outcome) (ts : F)
  | commit (i : ℕ) (outcome : CommitOutcome)
  | close (i : ℕ) (ts : F)
  | resolve (i : ℕ)
  | recoverStart
  | recoverLook (k : ℕ) (ts : F)
  | recoverHand (k : ℕ) (ts : F)
  | recoverCommit (k : ℕ) (outcome : CommitOutcome)
  | recoverAbort (k : ℕ)

/-- What can happen: a move, the end of the process, its end in the middle of what a move writes to
the journal, and a start. -/
inductive FastStep (F : Type) where
  | move (m : Move F)
  | crash (kept : ℕ)
  | crashDuring (m : Move F) (kept : ℕ)
  | start

/-- `open_intent_count` -/
def IntentJournal.openIntentCount (j : IntentJournal F) (traderId : String) : ℕ :=
  j.openRecords.keys.countP fun pair => pair.1 = traderId

namespace FastWorld

variable (cfg : FastConfig) (s : FastWorld F)

/-- The journal of the running process. -/
def process : Option (IntentJournal F) := s.journal.world.journal

/-- `get_open_order_count` -/
def getOpenOrderCount (traderId : String) : ℕ :=
  s.hot.countP fun o => o.traderId = traderId ∧ o.isUnfilled

/-- The critical section turns the signal away: it is known, or the trader is at the cap. -/
def refuses (j : IntentJournal F) (signal : FastSignal F) : Prop :=
  (signal.signalId ≠ "" ∧ j.hasIntent signal.traderId signal.signalId) ∨
    ∃ n ∈ cfg.maxOpenOrders signal.traderId, 0 < n ∧
      n ≤ s.getOpenOrderCount signal.traderId + j.openIntentCount signal.traderId

instance (j : IntentJournal F) (signal : FastSignal F) : Decidable (s.refuses cfg j signal) :=
  inferInstanceAs (Decidable ((_ ∧ _) ∨ _))

/-- The intent that the critical section records. -/
def intentArgs (signal : FastSignal F) : IntentArgs F where
  traderId := signal.traderId
  signalId := signal.signalId
  key := cfg.deriveFastIdempotencyKey signal.traderId signal.signalId
  tokenId := signal.tokenId
  side := signal.side
  sizeUsd := some signal.sizeUsd
  marketId := signal.marketId
  mode := some "live"
  ts := signal.ts

/-- What a move writes to the journal: an intent before it is submitted, and its result when it was
skipped, was closed or was recovered.  A signal without an identifier is never written. -/
def eventOf : Move F → Option (Event F)
  | .enter signal =>
    s.process.bind fun j =>
      if s.refuses cfg j signal ∨ signal.signalId = "" then none
      else some (.recordIntent (intentArgs cfg signal))
  | .answer i (.returned a) ts =>
    s.calls[i]?.bind fun c =>
      if c.phase = .submitting ∧ a.status = .skipped ∧ c.signal.signalId ≠ "" then
        some (.recordResult ⟨c.signal.traderId, c.signal.signalId, "skipped", none, none, ts⟩)
      else none
  | .close i ts =>
    s.calls[i]?.bind fun c =>
      match c.phase with
      | .persisted a =>
        if c.signal.signalId = "" then none
        else some (.recordResult ⟨c.signal.traderId, c.signal.signalId, (orderStatus a.status).text,
          a.clobOrderId, a.orderId, ts⟩)
      | _ => none
  | .recoverLook k ts =>
    s.passes[k]?.bind fun p =>
      match p.todo, p.found with
      | rec :: _, none =>
        (recoverPair rec).bind fun pair =>
          if isLiveKeyed cfg.lower rec then none
          else some (.recordResult ⟨pair.1, pair.2, "recovered", none, none, ts⟩)
      | _, _ => none
  | .recoverHand k ts =>
    s.passes[k]?.bind fun p =>
      match p.todo, p.found with
      | rec :: _, some found =>
        (recoverPair rec).map fun pair =>
          .recordResult ⟨pair.1, pair.2, "recovered", found.bind Row.clobOrderId, none, ts⟩
      | _, _ => none
  | _ => none

/-- What a move does beside the journal: to the calls, to the rows of the database, to the hot state
and to the passes of the recovery. -/
def moved : Move F → FastWorld F
  | .enter signal =>
    match s.process with
    | none => s
    | some j => if s.refuses cfg j signal then s else { s with calls := s.calls ++ [{ signal }] }
  | .abandon i => { s with calls := s.calls.modify i Call.abandon }
  | .submit i => { s with calls := s.calls.modify i Call.submit }
  | .answer i outcome _ => { s with calls := s.calls.modify i (Call.answer outcome) }
  | .commit i outcome =>
    { s with
      rows := s.rows ++ if outcome.isDurable then (s.calls[i]?.bind Call.row).toList else []
      calls := s.calls.modify i (Call.commit outcome) }
  | .close i _ =>
    { s with
      -- the hot state takes the order before its intent is closed
      hot := match s.calls[i]? with
        | some { signal, phase := .persisted a, .. } =>
          if isActiveOrderStatus (orderStatus a.status) then
            s.hot.filter (·.orderId ≠ i) ++
              [⟨signal.traderId, i, isHotUnfilled (orderStatus a.status)⟩]
          else s.hot
        | _ => s.hot
      calls := s.calls.modify i Call.close }
  | .resolve i =>
    { s with hot := s.hot.filter (·.orderId ≠ i), calls := s.calls.modify i Call.resolve }
  | .recoverStart =>
    match s.process with
    | none => s
    | some j => { s with passes := s.passes ++ [{ todo := j.openIntents }] }
  | .recoverLook k _ => { s with passes := s.passes.modify k (Pass.look cfg.lower s.rows) }
  | .recoverHand k _ => { s with passes := s.passes.modify k Pass.hand }
  | .recoverCommit k outcome =>
    match s.passes[k]? with
    | some p =>
      if p.isDone then
        { s with
          -- a row that another pass has committed in the meantime makes the commit fail
          rows := s.rows ++
            if outcome.isDurable ∧ ∀ row ∈ p.pending, row ∉ s.rows then p.pending else []
          passes := s.passes.eraseIdx k }
      else s
    | none => s
  | .recoverAbort k => { s with passes := s.passes.eraseIdx k }

/-- The process has died: what it had in memory is gone. -/
def dead : FastWorld F := { s with calls := s.calls.map Call.die, passes := [], hot := [] }

end FastWorld

namespace FastWorld

variable [PyFloat F] (cfg : FastConfig) (s : FastWorld F)

/-- The journal after an event. -/
def after (e : Event F) : FastWorld F := { s with journal := s.journal.step cfg.lower e }

/-- What has happened before a move writes to the journal: a signal is only then on the books, an
answer of the venue has come. -/
def movedBeforeWrite : Move F → FastWorld F
  | .enter _ => s
  | m => s.moved cfg m

/-- What is left in the journal when the process dies while it records the event. -/
def crashIn (kept : ℕ) : Event F → Event F
  | .recordIntent args => .crashInIntent args kept
  | .recordResult args => .crashInResult args kept
  | _ => .crash kept

/-- The event that ends a process during a move. -/
def crashEvent (m : Move F) (kept : ℕ) : Event F := (s.eventOf cfg m).elim (.crash kept) (crashIn kept)

/-- One step: a move, with what it appends to the journal, the death of the process, also in the
middle of an append, or the next start. -/
def step : FastStep F → FastWorld F
  | .move m =>
    match s.eventOf cfg m with
    | some e => (s.moved cfg m).after cfg e
    | none => s.moved cfg m
  | .crash kept => s.dead.after cfg (.crash kept)
  | .crashDuring m kept => (s.movedBeforeWrite cfg m).dead.after cfg (s.crashEvent cfg m kept)
  | .start => if s.process.isSome then s else s.after cfg .reload

end FastWorld

/-- No log, no rows, and no process. -/
def FastWorld.fresh : FastWorld F := ⟨.fresh, [], [], [], []⟩

end Evosport.Orchestrator
