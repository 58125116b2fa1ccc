/-
How far a cancel request travels (`services/backtest/job_runner.py`,
`services/backtest/unified_runner.py`, `services/strategy_backtester.py`).

`run_job` hands the engine a progress callback that raises `BacktestCancelled` when it finds that
the row of its run asks for that.  On its way back the exception meets three handlers that take any
exception: the one of the snapshot loop around the callback, and the two of `run_execution_backtest`
around its data phase and around the engine.  Each of the three stops it.

What the phases do beside calling the callback is input: what they raise, and the snapshots and the
intents that they come up with.
-/
import Evosport.Backtest.Progress
import Evosport.Jobs.JobRunner

namespace Evosport.Jobs

open Lib Backtest BacktestEngine

/-! ## The callback of `run_job` -/

/-- What a probe finds when it reads the row of its run: the read fails, there is no such row, or
the flag that asks for a cancellation. -/
inductive RowRead where
  | failed (text : String)
  | missing
  | found (cancelRequested : Bool)
  deriving DecidableEq, Repr

/-- What one call of `_on_progress` meets: the clock, in seconds, and the database. -/
structure ProbeRead where
  now : ℚ
  row : RowRead
  deriving DecidableEq, Repr

/-- The state of `_on_progress`, with the number of its calls. -/
structure ProbeState where
  calls : ℕ := 0
  lastWriteTs : ℚ := 0
  deriving DecidableEq, Repr

/-- `_PROGRESS_DB_DEBOUNCE_SECONDS` -/
def progressDbDebounceSeconds : ℚ := 1

/-- `_on_progress`: the `n`th call meets `reads n`. -/
def onProgress (reads : ℕ → ProbeRead) (s : ProbeState) : ProbeState × Option Raised :=
  let read := reads s.calls
  if read.now - s.lastWriteTs < progressDbDebounceSeconds then
    ({ s with calls := s.calls + 1 }, none)
  else
    ({ calls := s.calls + 1, lastWriteTs := read.now },
      match read.row with
      | .found true => some .backtestCancelled
      -- the progress is written to the row; an error of the database is logged
      | .found false | .missing | .failed _ => none)

/-! ## `run_execution_backtest`, in the standard mode -/

/-- `str(exc)` -/
def Raised.text : Raised → String
  | .backtestCancelled => ""
  | .other text => text

/-- The discovery replay: what it raises before its ticks, and what each tick raises. -/
structure Discovery where
  before : Option String := none
  ticks : List (Option String)

/-- What a run is made of. -/
structure JobInputs (σ : Type) where
  /-- What `run_unified_backtest` raises before the core. -/
  scopeRaises : Option String := none
  /-- The validation or the loading of the strategy ends the run, with this runtime error. -/
  rejected : Option (Option String) := none
  selectedDatasets : Bool := false
  discovery : Option Discovery := none
  /-- What the rest of the data phase raises. -/
  dataRaises : Option String := none
  settlementRaises : Option String := none
  /-- What opening the market data view raises. -/
  viewRaises : Option String := none
  cfg : BacktestConfig
  strat : Option (Strategy σ) := none
  strategyState : σ
  tradeIntents : List TradeIntent
  snapshots : List BookSnapshot
  progressEvery : ℤ := 1000
  /-- `str(exc)` of an error of the engine. -/
  errorText : EngineError → String
  bytesChanged : Bool := false
  /-- What `run_unified_backtest` raises after the core. -/
  tailRaises : Option String := none
  traceback : String := "Traceback (most recent call last)"
  /-- What the calls of the progress callback meet. -/
  reads : ℕ → ProbeRead

/-- `ExecutionBacktestResult` -/
structure ExecutionResult where
  success : Bool
  runtimeError : Option String
  result : Option BacktestResult
  deriving DecidableEq, Repr

/-- How a call ends, with the beats of its snapshot loop. -/
structure Ending (α : Type) where
  outcome : Except Raised α
  beats : List Beat := []

/-- `_cancel_probe_every` -/
def cancelProbeEvery (nTicks : ℕ) : ℕ := max 1 (min 50 (nTicks / 40))

/-- The tick loop of `_replay_discover_opportunities`. -/
def discoverLoop (every : ℕ) (next : ProbeState → ProbeState × Option Raised) :
    ℕ → List (Option String) → ProbeState → ProbeState × Option Raised
  | _, [], s => (s, none)
  | i, tick :: ticks, s =>
    let (s, raised) := if i % every = 0 then next s else (s, none)
    match raised, tick with
    | some exc, _ => (s, some exc)
    | none, some text => (s, some (.other text))
    | none, none => discoverLoop every next (i + 1) ticks s

/-- `_replay_discover_opportunities` -/
def replayDiscover (d : Discovery) (next : ProbeState → ProbeState × Option Raised)
    (s : ProbeState) : ProbeState × Option Raised :=
  match d.before with
  | some text => (s, some (.other text))
  | none => discoverLoop (cancelProbeEvery d.ticks.length) next 0 d.ticks s

namespace JobInputs

variable {σ : Type} (job : JobInputs σ)

/-- The callback of the job. -/
def next : ProbeState → ProbeState × Option Raised := onProgress job.reads

/-- The data phase, up to the handler around it. -/
def dataPhase : ProbeState × Option Raised :=
  let rest := job.dataRaises.map Raised.other
  match job.discovery with
  | none => ({}, rest)
  | some d =>
    let (s, raised) := replayDiscover d job.next {}
    match raised with
    | none => (s, rest)
    | some .backtestCancelled => (s, some .backtestCancelled)
    | some (.other text) => if job.selectedDatasets then (s, some (.other text)) else (s, rest)

/-- The handler around the engine. -/
def engineFailed (text : String) (beats : List Beat) : Ending ExecutionResult where
  outcome :=
    if job.selectedDatasets then .error (.other text)
    else .ok ⟨false, some ("Backtest engine error: " ++ text), none⟩
  beats := beats

/-- `engine.run`, with the callback in the state `s`. -/
def engineRun (s : ProbeState) : ProgressRun ProbeState :=
  runWithProgress job.cfg job.strat job.strategyState job.tradeIntents job.snapshots
    (some (blind job.next)) job.progressEvery s

/-- The part of `run_execution_backtest` around the engine. -/
def enginePhase (s : ProbeState) : Ending ExecutionResult :=
  let run := job.engineRun s
  match run.outcome with
  | .error err => job.engineFailed (job.errorText err) run.beats
  | .ok result =>
    if job.bytesChanged then
      job.engineFailed "canonical parquet bytes changed during backtest execution" run.beats
    else { outcome := .ok ⟨true, none, some result⟩, beats := run.beats }

/-- The snapshot loop is reached, with the callback in this state. -/
def snapshotPhase : Option ProbeState :=
  if job.scopeRaises = none ∧ job.rejected = none ∧ job.dataPhase.2 = none ∧
      ¬ (job.selectedDatasets = true ∧ job.settlementRaises ≠ none) ∧ job.viewRaises = none then
    some job.dataPhase.1
  else none

/-- `run_execution_backtest`: an exception of the data phase ends in a failed result, and so does
one of the engine, unless datasets were selected; then it is raised, as is one of their settlement.
-/
def runExecutionBacktest : Ending ExecutionResult :=
  match job.rejected with
  | some runtimeError => { outcome := .ok ⟨false, runtimeError, none⟩ }
  | none =>
    match job.dataPhase with
    | (_, some exc) =>
      { outcome := .ok ⟨false, some ("Failed to fetch data: " ++ Raised.text exc), none⟩ }
    | (s, none) =>
      match job.settlementRaises, job.selectedDatasets with
      | some text, true => { outcome := .error (.other text) }
      | _, _ =>
        match job.viewRaises with
        | some text => job.engineFailed text []
        | none => job.enginePhase s

/-- `run_unified_backtest` -/
def runUnifiedBacktest : Ending (RunBlob ExecutionResult) :=
  match job.scopeRaises with
  | some text => { outcome := .error (.other text) }
  | none =>
    let core := job.runExecutionBacktest
    match core.outcome, job.tailRaises with
    | .error exc, _ => { outcome := .error exc, beats := core.beats }
    | .ok _, some text => { outcome := .error (.other text), beats := core.beats }
    | .ok result, none => { outcome := .ok ⟨result.success, result⟩, beats := core.beats }

/-- How `run_job` sees the run end. -/
def runJob : EngineOutcome ExecutionResult :=
  match job.runUnifiedBacktest.outcome with
  | .ok blob => .returned blob
  | .error .backtestCancelled => .cancelled
  | .error (.other text) => .raised text job.traceback

/-! ## A cancelled run goes on -/

/-- Once the callback has raised in the snapshot loop, no snapshot is taken up, and the final write
over `row` cancels the run and writes no result. -/
def CancelStops (row : BacktestRun ExecutionResult) : Prop :=
  ∀ before after,
    job.runUnifiedBacktest.beats = before ++ .probe (some .backtestCancelled) :: after →
      .snapshot ∉ after ∧ job.runJob.finalStatus = .cancelled ∧
        (finalRow job.runJob row row).status = .cancelled ∧
        (finalRow job.runJob row row).result = row.result

/-- Some probe of the snapshot loop finds, past the debounce, that the row asks to cancel. -/
def CancelSeen : Prop :=
  ∃ s ∈ job.snapshotPhase, ∃ k,
    (k + 1) * cadence job.progressEvery ≤
        handled job.cfg job.strat job.snapshots
          (start job.cfg job.strategyState job.tradeIntents) ∧
      (job.next (stateAfter job.next s k)).2 = some .backtestCancelled

variable {job}

/-- No exception that leaves the core is a cancellation. -/
lemma runExecutionBacktest_ne_cancelled :
    job.runExecutionBacktest.outcome ≠ .error .backtestCancelled := by
  have hfailed : ∀ text beats,
      (job.engineFailed text beats).outcome ≠ .error .backtestCancelled := by
    intro text beats
    simp only [engineFailed]
    split <;> simp
  unfold runExecutionBacktest
  split
  · simp
  · split
    · simp
    · split
      · simp
      · split
        · exact hfailed _ _
        · simp only [enginePhase]
          split
          · exact hfailed _ _
          · split
            · exact hfailed _ _
            · simp

/-- `run_job` ends no run as cancelled, whatever its callback raises and wherever it does. -/
theorem runJob_ne_cancelled : job.runJob.finalStatus ≠ .cancelled := by
  have hunified : job.runUnifiedBacktest.outcome ≠ .error .backtestCancelled := by
    unfold runUnifiedBacktest
    split
    · simp
    · dsimp only
      split
      · rename_i exc hcore
        intro (h : Except.error exc = Except.error Raised.backtestCancelled)
        exact runExecutionBacktest_ne_cancelled (hcore.trans (by cases h; rfl))
      · simp
      · simp
  unfold runJob
  split
  · simp [EngineOutcome.finalStatus]
  · rename_i hcancelled
    exact absurd hcancelled hunified
  · simp [EngineOutcome.finalStatus]

/-- The beats of a run are those of its snapshot loop. -/
lemma beats_eq : job.runUnifiedBacktest.beats =
    match job.snapshotPhase with
    | some s => (job.engineRun s).beats
    | none => [] := by
  have hfailed : ∀ text beats, (job.engineFailed text beats).beats = beats := fun _ _ => rfl
  have hengine : ∀ s, (job.enginePhase s).beats = (job.engineRun s).beats := by
    intro s
    simp only [enginePhase]
    split
    · rfl
    · split <;> rfl
  have hunified : job.runUnifiedBacktest.beats =
      if job.scopeRaises = none then job.runExecutionBacktest.beats else [] := by
    unfold runUnifiedBacktest
    cases job.scopeRaises with
    | some text => rfl
    | none =>
      dsimp only
      rw [if_pos rfl]
      split <;> rfl
  rw [hunified, snapshotPhase]
  by_cases hscope : job.scopeRaises = none
  · rw [if_pos hscope]
    unfold runExecutionBacktest
    cases hrejected : job.rejected with
    | some text => simp
    | none =>
      cases hdata : job.dataPhase with | mk s raised =>
      cases raised with
      | some exc => simp
      | none =>
        cases hview : job.viewRaises with
        | some text => cases job.settlementRaises <;> cases job.selectedDatasets <;> simp [hfailed]
        | none =>
          cases job.settlementRaises <;> cases job.selectedDatasets <;> simp [hscope, hengine]
  · rw [if_neg hscope, if_neg fun h => hscope h.1]

/-- A run whose engine succeeds is completed with its result, whatever the callback has raised. -/
theorem runJob_of_run_ok {s : ProbeState} {result : BacktestResult}
    (hphase : job.snapshotPhase = some s)
    (hrun : run job.cfg job.strat job.strategyState job.tradeIntents job.snapshots = .ok result)
    (hbytes : job.bytesChanged = false) (htail : job.tailRaises = none) :
    job.runJob = .returned ⟨true, ⟨true, none, some result⟩⟩ := by
  have hengine : (job.enginePhase s).outcome = .ok ⟨true, none, some result⟩ := by
    simp only [enginePhase, engineRun, runWithProgress_outcome, hrun, hbytes]
    rfl
  have hcore : job.runExecutionBacktest.outcome = .ok ⟨true, none, some result⟩ := by
    rw [snapshotPhase] at hphase
    split at hphase
    case isFalse => cases hphase
    case isTrue h =>
      obtain ⟨-, hrejected, hdata, hsettle, hview⟩ := h
      obtain rfl := Option.some.inj hphase
      unfold runExecutionBacktest
      rw [hrejected]
      cases hphase : job.dataPhase with | mk s raised =>
      rw [hphase] at hdata hengine
      obtain rfl : raised = none := hdata
      rw [hview]
      cases hs : job.settlementRaises <;> cases hd : job.selectedDatasets <;>
        simp_all
  have hscope : job.scopeRaises = none := by
    by_contra h
    rw [snapshotPhase, if_neg fun h' => h h'.1] at hphase
    cases hphase
  simp only [runJob, runUnifiedBacktest, hscope, hcore, htail]

/-- A cancellation that the discovery replay meets ends the run as completed, with an error text. -/
theorem runJob_of_discovery_cancelled (hscope : job.scopeRaises = none)
    (hrejected : job.rejected = none) (hcancel : job.dataPhase.2 = some .backtestCancelled)
    (htail : job.tailRaises = none) :
    job.runJob.finalStatus = .completed ∧
      job.runJob = .returned ⟨false, ⟨false, some "Failed to fetch data: ", none⟩⟩ := by
  have hcore : job.runExecutionBacktest.outcome =
      .ok ⟨false, some "Failed to fetch data: ", none⟩ := by
    unfold runExecutionBacktest
    rw [hrejected]
    cases hdata : job.dataPhase with | mk s raised =>
    rw [hdata] at hcancel
    obtain rfl : raised = some .backtestCancelled := hcancel
    rfl
  have hjob : job.runJob = .returned ⟨false, ⟨false, some "Failed to fetch data: ", none⟩⟩ := by
    simp only [runJob, runUnifiedBacktest, hscope, hcore, htail]
  exact ⟨by rw [hjob]; rfl, hjob⟩

/-- The claim of a job fails exactly when its callback finds the request to cancel. -/
theorem cancelStops_iff (row : BacktestRun ExecutionResult) :
    job.CancelStops row ↔ ¬ job.CancelSeen := by
  have hbeats : .probe (some .backtestCancelled) ∈ job.runUnifiedBacktest.beats ↔
      job.CancelSeen := by
    rw [beats_eq, CancelSeen]
    cases hphase : job.snapshotPhase with
    | none => simp
    | some s =>
      have hmem := @mem_beats_progressLoop σ ProbeState job.cfg job.strat
        (cadence job.progressEvery) (cadence_pos _) job.next s job.snapshots
        { engine := start job.cfg job.strategyState job.tradeIntents, callback := s } 0 rfl
        (by simp [stateAfter]) (some .backtestCancelled)
      simp only [Nat.zero_div, Nat.zero_le, true_and, Nat.zero_add, List.not_mem_nil,
        false_or] at hmem
      show _ ∈ (engineRun job s).beats ↔ _
      simp only [engineRun, runWithProgress, hmem, Option.mem_some_iff, exists_eq_left']
      exact exists_congr fun k => and_congr_right fun _ => eq_comm
  constructor
  · intro hstops hseen
    obtain ⟨before, after, hsplit⟩ := List.mem_iff_append.1 (hbeats.2 hseen)
    exact runJob_ne_cancelled (hstops before after hsplit).2.1
  · intro hunseen before after hsplit
    refine absurd (hbeats.1 ?_) hunseen
    rw [hsplit]
    simp

end JobInputs

/-! ## A request that is found and lost -/

private lemma empty_desc : ([] : List PriceLevel).Pairwise fun a b => b.price ≤ a.price :=
  List.Pairwise.nil

private lemma empty_asc : ([] : List PriceLevel).Pairwise fun a b => a.price ≤ b.price :=
  List.Pairwise.nil

/-- A book without levels. -/
def emptyBook (observedAt : Time) : BookSnapshot where
  tokenId := "t"
  observedAt := observedAt
  bids := []
  asks := []
  bids_desc := empty_desc
  asks_asc := empty_asc

/-- Two snapshots, and a row that asks to cancel from the first probe on. -/
def cancelledJob : JobInputs Unit where
  cfg := .plain 1 {}
  strategyState := ()
  tradeIntents := []
  snapshots := [emptyBook 1000, emptyBook 2000]
  progressEvery := 1
  errorText := fun _ => ""
  reads := fun _ => ⟨10, .found true⟩

/-- A run at work whose cancellation was asked for. -/
def runningRow : BacktestRun ExecutionResult :=
  ⟨.running, 0, some ⟨"host", 1⟩, some 0, true, none, .empty⟩

/-- The second snapshot is processed after the callback has raised. -/
theorem cancelledJob_goes_on :
    cancelledJob.runUnifiedBacktest.beats =
        [.snapshot, .probe (some .backtestCancelled), .snapshot, .probe none] ∧
      cancelledJob.runJob.finalStatus = .completed ∧ ¬ cancelledJob.CancelStops runningRow := by
  have hbeats : cancelledJob.runUnifiedBacktest.beats =
      [.snapshot] ++ .probe (some .backtestCancelled) :: [.snapshot, .probe none] := by
    decide +kernel
  refine ⟨hbeats, by decide +kernel, fun hstops => ?_⟩
  exact (hstops _ _ hbeats).1 (by decide)

end Evosport.Jobs
