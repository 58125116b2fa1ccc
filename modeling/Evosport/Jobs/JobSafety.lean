/-
The safety of the job queue.

A run that has ended keeps its status, and a final status and result are written by the claim that
holds the run (`Safe`).  So it is in every run in order (`safe_of_orderly`).  The code lets both
final writes of a claim land, the one of `run_job` and the one that the unified runner has
scheduled, and the later one changes the status of a run that has ended (`persisted_late`).
-/
import Evosport.Jobs.JobOrder

namespace Evosport.Jobs

open Lib

namespace JobQueue

variable {ι β : Type*} [DecidableEq ι] [DecidableEq β]

/-- No run ends and no result changes. -/
def Untouched (table table' : RunTable β) : Prop :=
  ∀ runId row', table'.get? runId = some row' →
    (∃ row, table.get? runId = some row ∧ row'.result = row.result ∧
      (row'.status.isTerminal = true → row'.status = row.status)) ∨
    (table.get? runId = none ∧ row'.result = .empty ∧ row'.status.isTerminal = false)

/-- A step writes a final status, and to one run alone: the log gains one entry, which notes the
holder of the run, and the rows of the other runs stay. -/
structure Writes (w w' : JobQueue ι β) (write : FinalWrite) : Prop where
  log : w'.log = w.log ++ [write]
  holder : write.holder = w.holder write.runId
  others : ∀ runId, write.runId ≠ runId → w'.table.get? runId = w.table.get? runId

/-- A run that has ended keeps its status, and a final status and result are written by the claim
that holds the run, or where none does by no claim. -/
structure Safe (w : JobQueue ι β) (es : List (Event ι β)) : Prop where
  ended : ∀ before after runId row, es = before ++ after →
    (before.foldl step w).table.get? runId = some row → row.status.isTerminal = true →
      ∃ row', (es.foldl step w).table.get? runId = some row' ∧ row'.status = row.status
  written : ∀ before e after, es = before ++ e :: after →
    Untouched (before.foldl step w).table ((before.foldl step w).step e).table ∨
      ∃ write, Writes (before.foldl step w) ((before.foldl step w).step e) write ∧
        write.writer = write.holder

variable {w : JobQueue ι β} {runId : String}

/-! ## What is noted -/

omit [DecidableEq ι] [DecidableEq β] in
lemma Untouched.refl (table : RunTable β) : Untouched table table :=
  fun _ row hrow => .inl ⟨row, hrow, rfl, fun _ => rfl⟩

omit [DecidableEq ι] [DecidableEq β] in
/-- A row is changed, but neither ended nor given a result. -/
lemma untouched_modifyRow {f : BacktestRun β → BacktestRun β}
    (hresult : ∀ row, (f row).result = row.result)
    (hstatus : ∀ row, (f row).status.isTerminal = true → (f row).status = row.status)
    {table : RunTable β} (h : Untouched table w.table) :
    Untouched table (w.modifyRow runId f).table := by
  intro runId' row' hrow'
  rw [get?_modifyRow] at hrow'
  split at hrow'
  · obtain ⟨row, hrow, rfl⟩ := Option.map_eq_some_iff.1 hrow'
    rcases h runId' row hrow with ⟨row₀, hrow₀, hsame, hended⟩ | ⟨hnone, hempty, hopen⟩
    · refine .inl ⟨row₀, hrow₀, (hresult row).trans hsame, fun hterminal => ?_⟩
      have hrow := hstatus row hterminal
      rw [hrow] at hterminal ⊢
      exact hended hterminal
    · refine .inr ⟨hnone, (hresult row).trans hempty, ?_⟩
      by_contra hterminal
      have hterminal := Bool.eq_true_of_not_eq_false hterminal
      rw [hstatus row hterminal, hopen] at hterminal
      cases hterminal
  · exact h runId' row' hrow'

omit [DecidableEq ι] [DecidableEq β] in
private lemma requeueAll_untouched {table : RunTable β} (h : Untouched table w.table)
    (reads : List (String × BacktestRun β)) : Untouched table (w.requeueAll reads).table := by
  induction reads generalizing w with
  | nil => exact h
  | cons e reads ih =>
    refine ih (w := (w.modifyRow e.1 (requeued e.2)).hold e.1 none) ?_
    dsimp only [JobQueue.hold]
    refine untouched_modifyRow (fun row => ?_) (fun row hended => ?_) h
    · rfl
    · simp [requeued, RunStatus.isTerminal] at hended

omit [DecidableEq ι] [DecidableEq β] in
private lemma enqueue_untouched (table : RunTable β) (now : ℤ) :
    Untouched table (enqueueRun table runId now) := by
  rw [enqueueRun]
  split
  · exact Untouched.refl table
  · next hnone =>
    intro runId' row' hrow'
    by_cases hid : runId = runId'
    · subst hid
      rw [Dict.get?_set_self] at hrow'
      cases hrow'
      exact .inr ⟨hnone, rfl, rfl⟩
    · rw [Dict.get?_set_of_ne _ _ hid] at hrow'
      exact .inl ⟨row', hrow', rfl, fun _ => rfl⟩

omit [DecidableEq ι] [DecidableEq β] in
private lemma writes_modifyRow (f : BacktestRun β → BacktestRun β) (writer : Option ℕ) :
    Writes w ((w.modifyRow runId f).note runId writer) ⟨runId, writer, w.holder runId⟩ := by
  have hsame := modifyRow_eq w runId f
  refine ⟨?_, rfl, fun runId' hid => ?_⟩
  · rw [hsame]
    rfl
  · exact (get?_modifyRow f runId').trans (if_neg hid)

omit [DecidableEq β] in
private lemma claimNext_untouched (w : JobQueue ι β) (i : ι) (worker : Worker) (now : ℤ)
    (locked : List String) : Untouched w.table (w.claimNext i worker now locked).table := by
  rw [claimNext]
  split
  · exact Untouched.refl w.table
  · next runId row h =>
    dsimp only [JobQueue.hold, JobQueue.goto]
    refine untouched_modifyRow (fun row => ?_) (fun row hended => ?_) (Untouched.refl w.table)
    · rfl
    · simp [RunStatus.isTerminal] at hended

omit [DecidableEq β] in
private lemma claimCommit_untouched (w : JobQueue ι β) (i : ι) (worker : Worker) (now : ℤ)
    (read : BacktestRun β) : Untouched w.table (w.claimCommit i worker now runId read).table := by
  rw [claimCommit]
  split
  · exact Untouched.refl w.table
  · dsimp only [JobQueue.hold, JobQueue.goto]
    refine untouched_modifyRow (fun row => ?_) (fun row hended => ?_) (Untouched.refl w.table)
    · rfl
    · simp [claimedRow, RunStatus.isTerminal] at hended

omit [DecidableEq β] in
private lemma engineEnds_table (w : JobQueue ι β) (i : ι) (claim : ℕ)
    (outcome : EngineOutcome β) : (w.engineEnds i runId claim outcome).table = w.table := by
  unfold engineEnds
  split <;> rfl

/-- A step that ends a run or changes its result is noted. -/
lemma step_noted (w : JobQueue ι β) (e : Event ι β) :
    Untouched w.table (w.step e).table ∨ ∃ write, Writes w (w.step e) write := by
  have hrefl := Untouched.refl w.table
  cases e with
  | enqueue runId now => exact .inl (enqueue_untouched w.table now)
  | claim i worker now locked =>
    dsimp only [step]
    split
    · exact .inl (claimNext_untouched w i worker now locked)
    · exact .inl hrefl
  | claimRead i worker =>
    dsimp only [step]
    split <;> exact .inl hrefl
  | claimCommit i now =>
    dsimp only [step]
    split
    · exact .inl (claimCommit_untouched w i _ now _)
    · exact .inl hrefl
  | start i =>
    dsimp only [step]
    split
    · split
      · split <;> exact .inl hrefl
      · exact .inl hrefl
    · exact .inl hrefl
  | progress i =>
    dsimp only [step]
    split
    · split
      · split
        · exact .inl ((engineEnds_table w i _ _).symm ▸ hrefl)
        · exact .inl hrefl
      · exact .inl hrefl
    · exact .inl hrefl
  | engine i outcome =>
    dsimp only [step]
    split
    · split
      · exact .inl hrefl
      · exact .inl ((engineEnds_table w i _ _).symm ▸ hrefl)
    · exact .inl hrefl
  | finalRead i =>
    dsimp only [step]
    split
    · split <;> exact .inl hrefl
    · exact .inl hrefl
  | finalCommit i =>
    dsimp only [step]
    split
    · next runId claim outcome read hs =>
      obtain ⟨hlog, hholder, hothers⟩ :=
        writes_modifyRow (finalRow outcome read) (some claim)
      exact .inr ⟨_, hlog, hholder, hothers⟩
    · exact .inl hrefl
  | cancelRead i runId =>
    dsimp only [step]
    split
    · split <;> exact .inl hrefl
    · exact .inl hrefl
  | cancelCommit i =>
    dsimp only [step]
    split
    · next runId read hs =>
      dsimp only [JobQueue.cancelCommit]
      split
      · obtain ⟨hlog, hholder, hothers⟩ :=
          writes_modifyRow (cancelledRow read) none
        exact .inr ⟨_, hlog, hholder, hothers⟩
      · next hread =>
        dsimp only [JobQueue.goto]
        refine .inl (untouched_modifyRow (fun row => ?_) (fun row _ => ?_) hrefl)
        · rfl
        · simp [cancelledRow, hread]
    · exact .inl hrefl
  | requeueRead i me pidAlive now =>
    dsimp only [step]
    split <;> exact .inl hrefl
  | requeueCommit i =>
    dsimp only [step]
    split
    · exact .inl (requeueAll_untouched hrefl _)
    · exact .inl hrefl
  | persist n now =>
    dsimp only [step]
    split
    · next task ht =>
      refine .inr ⟨⟨task.runId, some task.claim, w.holder task.runId⟩, rfl, rfl, fun runId hid => ?_⟩
      exact Dict.get?_set_of_ne _ _ hid
    · exact .inl hrefl
  | persistFails n => exact .inl hrefl
  | abort i => exact .inl hrefl
  | crash i => exact .inl hrefl

/-! ## Runs -/

/-- When requeues take the runs of dead workers, claims and cancels do not cross, and one of the two
final writes of a claim lands, a run that has ended keeps its status, and final statuses are written
by the claims that hold their runs. -/
theorem safe_of_orderly (hstart : w.Starts) {es : List (Event ι β)}
    (h : EveryStep step Orderly w es) : w.Safe es := by
  refine ⟨fun before after runId row hes hrow hended => ?_, fun before e after hes => ?_⟩
  · subst hes
    obtain ⟨hbefore, hafter⟩ := EveryStep.append.1 h
    have hguarded := (run_advances hstart.guarded hbefore).guarded
    have hstatus : (before.foldl step w).statusOf runId = some row.status := by
      rw [statusOf, hrow]
      rfl
    rw [List.foldl_append]
    exact statusOf_eq_some ((run_advances hguarded hafter).keeps runId row.status hstatus hended)
  · rcases step_noted (before.foldl step w) e with huntouched | ⟨write, hwrite⟩
    · exact .inl huntouched
    · refine .inr ⟨write, hwrite, ?_⟩
      subst hes
      have hfirst : EveryStep step Orderly w (before ++ [e]) := h.of_prefix ⟨after, by simp⟩
      have hmem : write ∈ ((before ++ [e]).foldl step w).log := by
        rw [List.foldl_append, List.foldl_cons, List.foldl_nil, hwrite.log]
        simp
      rcases (run_advances hstart.guarded hfirst).log write hmem with hold | hlegit
      · rw [hstart.log] at hold
        cases hold
      · exact hlegit

section Examples

/-- No run yet, and two sessions. -/
def noRuns : JobQueue (Fin 2) Unit := ⟨Dict.empty, fun _ => .idle, [], 0, fun _ => none, []⟩

/-- A worker dies at work on a backtest, and the next one requeues it, runs it and ends it; a second
backtest is cancelled while it is queued. -/
def twoWorkers : List (Event (Fin 2) Unit) :=
  [.enqueue "r" 0, .enqueue "s" 1, .claim 0 ⟨"h", 1⟩ 2 [], .start 0, .crash 0,
    .requeueRead 1 ⟨"h", 2⟩ (fun _ => false) 3, .requeueCommit 1, .cancelRead 0 "s",
    .cancelCommit 0, .claim 1 ⟨"h", 2⟩ 4 [], .start 1, .engine 1 (.returned ⟨true, ()⟩),
    .finalRead 1, .finalCommit 1]

theorem noRuns_starts : noRuns.Starts := ⟨fun _ => rfl, rfl, fun _ => rfl, rfl⟩

/-- The write of the unified runner fails. -/
theorem twoWorkers_safe : noRuns.Safe (twoWorkers ++ [.persistFails 0]) :=
  safe_of_orderly noRuns_starts (by decide +kernel)

/-- A worker runs a backtest that does not succeed. -/
def oneJob : List (Event (Fin 2) Unit) :=
  [.enqueue "r" 0, .claim 0 ⟨"h", 1⟩ 1 [], .start 0, .engine 0 (.returned ⟨false, ()⟩),
    .finalRead 0, .finalCommit 0]

/-- The write of the unified runner lands after the final write. -/
theorem persisted_late : ¬ noRuns.Safe (oneJob ++ [.persist 0 9]) := by
  intro h
  have hbefore : ((oneJob.foldl step noRuns).table.get? "r").map BacktestRun.status =
      some .completed := by decide +kernel
  have hafter : (((oneJob ++ [Event.persist 0 9]).foldl step noRuns).table.get? "r").map
      BacktestRun.status = some .failed := by decide +kernel
  obtain ⟨row, hrow, hstatus⟩ := Option.map_eq_some_iff.1 hbefore
  obtain ⟨row', hrow', hsame⟩ := h.ended oneJob [.persist 0 9] "r" row rfl hrow (by rw [hstatus]; rfl)
  rw [hrow', Option.map_some, hsame, hstatus] at hafter
  cases hafter

end Examples

end JobQueue

end Evosport.Jobs
