/-
The progress callback of the engine (`services/backtest/engine.py`).

`runWithProgress` is `run` with its callback: after every `progress_every` snapshots the callback is
called, and whatever it raises is caught and logged.  Beside the outcome it records the beats of the
run, the snapshots taken up and the probes with what they raised.  The callback has no influence on
the outcome (`runWithProgress_outcome`), not even when it raises.
-/
import Evosport.Backtest.Engine
import Mathlib.Algebra.Order.Group.Nat

namespace Evosport.Backtest

/-- An exception of the worker; `BacktestCancelled` has a class of its own. -/
inductive Raised where
  | backtestCancelled
  | other (text : String)
  deriving DecidableEq, Repr

/-- A progress callback with states `γ`: snapshots processed, equity, open positions. -/
abbrev ProgressCallback (γ : Type) := γ → ℕ → ℚ → ℕ → γ × Option Raised

/-- What happens in the snapshot loop: a snapshot is fed to the engine, or the callback is asked for
the progress. -/
inductive Beat where
  /-- A snapshot is taken up. -/
  | snapshot
  /-- The callback is called. -/
  | probe (raised : Option Raised)
  deriving DecidableEq, Repr

/-- `open_position_count` -/
def Portfolio.openPositionCount (p : Portfolio) : ℕ := p.positions.entries.length

namespace BacktestEngine

variable {σ γ : Type} (cfg : BacktestConfig)

/-- The engine in its loop, with the number of snapshots processed, the callback and the beats so
far. -/
structure Progress (σ γ : Type) where
  engine : BacktestEngine σ
  processed : ℕ := 0
  callback : γ
  beats : List Beat := []

/-- `max(1, int(progress_every))` -/
def cadence (progressEvery : ℤ) : ℕ := (max 1 progressEvery).toNat

lemma cadence_pos (progressEvery : ℤ) : 0 < cadence progressEvery := by
  simp only [cadence]
  omega

/-- The probe behind a snapshot, when one is due. -/
def probe (every : ℕ) (callback : Option (ProgressCallback γ)) (p : Progress σ γ) : Progress σ γ :=
  if p.processed % every = 0 then
    match callback with
    | none => p
    | some callback =>
      let (state, raised) := callback p.callback p.processed
        p.engine.portfolio.equityUsd p.engine.portfolio.openPositionCount
      -- `except Exception`: what the callback raises is logged
      { p with callback := state, beats := p.beats ++ [.probe raised] }
  else p

/-- The loop of `run` over the snapshots, with the error that ends it. -/
def progressLoop (strat : Option (Strategy σ)) (every : ℕ)
    (callback : Option (ProgressCallback γ)) :
    List BookSnapshot → Progress σ γ → Progress σ γ × Option EngineError
  | [], p => (p, none)
  | snap :: snapshots, p =>
    let p := { p with beats := p.beats ++ [.snapshot] }
    match feedOne (onSnapshot cfg strat) p.engine snap with
    | .error err => (p, some err)
    | .ok e =>
      progressLoop strat every callback snapshots
        (probe every callback { p with engine := e, processed := p.processed + 1 })

/-- What `run` leaves behind: how it ended, the state of the callback, and the beats of the loop in
their order. -/
structure ProgressRun (γ : Type) where
  outcome : Except EngineError BacktestResult
  callback : γ
  beats : List Beat

/-- `run`, with its progress callback, which is asked at the cadence that `progress_every` gives. -/
def runWithProgress (strat : Option (Strategy σ)) (strategyState : σ)
    (tradeIntents : List TradeIntent) (snapshots : List BookSnapshot)
    (callback : Option (ProgressCallback γ)) (progressEvery : ℤ) (callbackState : γ) :
    ProgressRun γ :=
  let (p, err) := progressLoop cfg strat (cadence progressEvery) callback snapshots
    { engine := start cfg strategyState tradeIntents, callback := callbackState }
  { outcome :=
      match err with
      | some err => .error err
      | none => .ok (buildResult cfg (finish cfg p.engine))
    callback := p.callback
    beats := p.beats }

/-! ## The callback has no influence -/

@[simp] lemma probe_engine (every : ℕ) (callback : Option (ProgressCallback γ))
    (p : Progress σ γ) : (probe every callback p).engine = p.engine := by
  unfold probe
  split
  · cases callback <;> rfl
  · rfl

/-- The loop does to the engine what the loop without a callback does. -/
lemma progressLoop_engine (strat : Option (Strategy σ)) (every : ℕ)
    (callback : Option (ProgressCallback γ)) (snapshots : List BookSnapshot)
    (p : Progress σ γ) :
    (match (progressLoop cfg strat every callback snapshots p).2 with
      | some err => .error err
      | none => .ok (progressLoop cfg strat every callback snapshots p).1.engine) =
      feed cfg strat snapshots p.engine := by
  induction snapshots generalizing p with
  | nil => rfl
  | cons snap snapshots ih =>
    rw [feed, List.foldlM_cons]
    cases hone : feedOne (onSnapshot cfg strat) p.engine snap with
    | error err => simp only [progressLoop, hone]; rfl
    | ok e =>
      simp only [progressLoop, hone]
      rw [ih, probe_engine]
      rfl

/-- The outcome of a run is that of the run without a callback. -/
theorem runWithProgress_outcome (strat : Option (Strategy σ)) (strategyState : σ)
    (tradeIntents : List TradeIntent) (snapshots : List BookSnapshot)
    (callback : Option (ProgressCallback γ)) (progressEvery : ℤ) (callbackState : γ) :
    (runWithProgress cfg strat strategyState tradeIntents snapshots callback progressEvery
      callbackState).outcome = run cfg strat strategyState tradeIntents snapshots := by
  have hloop := progressLoop_engine cfg strat (cadence progressEvery) callback snapshots
    ({ engine := start cfg strategyState tradeIntents, callback := callbackState } : Progress σ γ)
  rw [run, ← hloop, runWithProgress]
  dsimp only
  split <;> rfl

/-! ## The probes that a run makes -/

/-- The snapshots that the engine gets through before an error ends its loop. -/
def handled (strat : Option (Strategy σ)) : List BookSnapshot → BacktestEngine σ → ℕ
  | [], _ => 0
  | snap :: snapshots, e =>
    match feedOne (onSnapshot cfg strat) e snap with
    | .error _ => 0
    | .ok e => handled strat snapshots e + 1

/-- A callback that looks at its own state alone. -/
def blind (next : γ → γ × Option Raised) : ProgressCallback γ := fun s _ _ _ => next s

/-- The state of a blind callback after `k` calls. -/
def stateAfter (next : γ → γ × Option Raised) (s : γ) (k : ℕ) : γ := (fun s => (next s).1)^[k] s

/-- The probes made after `n` snapshots. -/
lemma succ_div_cadence (n every : ℕ) :
    (n + 1) / every = n / every + if (n + 1) % every = 0 then 1 else 0 := by
  rw [Nat.succ_div]
  simp only [Nat.dvd_iff_mod_eq_zero]

/-- No probe that is still to come is due within the first `n` snapshots. -/
lemma not_due {n every k : ℕ} (hevery : 0 < every) (hk : n / every ≤ k) : n < (k + 1) * every := by
  calc n < every * (n / every + 1) := Nat.lt_mul_div_succ n hevery
    _ ≤ every * (k + 1) := Nat.mul_le_mul_left every (Nat.succ_le_succ hk)
    _ = (k + 1) * every := Nat.mul_comm _ _

/-- The probe behind the snapshot that is the `n + 1`st: what it raises, and the state it leaves. -/
lemma probe_blind {every : ℕ} {next : γ → γ × Option Raised} {s : γ} {p : Progress σ γ} {n : ℕ}
    (hn : p.processed = n + 1) (hs : p.callback = stateAfter next s (n / every)) :
    (probe every (some (blind next)) p).callback = stateAfter next s ((n + 1) / every) ∧
      (probe every (some (blind next)) p).processed = n + 1 ∧
      ∀ r, .probe r ∈ (probe every (some (blind next)) p).beats ↔
        .probe r ∈ p.beats ∨
          (n + 1) % every = 0 ∧ r = (next (stateAfter next s (n / every))).2 := by
  unfold probe
  rw [hn, succ_div_cadence]
  split
  case isTrue hdue =>
    refine ⟨?_, rfl, fun r => ?_⟩
    · simp only [blind, hs, stateAfter, Function.iterate_succ_apply']
    · simp [blind, hs, hdue]
  case isFalse hdue =>
    refine ⟨by simpa using hs, hn, fun r => ?_⟩
    simp [hdue]

/-- The probes of a loop are the ones behind the multiples of its cadence. -/
lemma mem_beats_progressLoop {strat : Option (Strategy σ)} {every : ℕ} (hevery : 0 < every)
    {next : γ → γ × Option Raised} {s : γ} {snapshots : List BookSnapshot} {p : Progress σ γ}
    {n : ℕ} (hn : p.processed = n) (hs : p.callback = stateAfter next s (n / every))
    (r : Option Raised) :
    .probe r ∈ (progressLoop cfg strat every (some (blind next)) snapshots p).1.beats ↔
      .probe r ∈ p.beats ∨
        ∃ k, n / every ≤ k ∧ (k + 1) * every ≤ n + handled cfg strat snapshots p.engine ∧
          r = (next (stateAfter next s k)).2 := by
  induction snapshots generalizing p n with
  | nil =>
    simp only [progressLoop, handled, Nat.add_zero]
    refine ⟨Or.inl, ?_⟩
    rintro (h | ⟨k, hk, hle, -⟩)
    · exact h
    · exact absurd hle (not_le.2 (not_due hevery hk))
  | cons snap snapshots ih =>
    cases hone : feedOne (onSnapshot cfg strat) p.engine snap with
    | error err =>
      simp only [progressLoop, handled, hone, Nat.add_zero]
      constructor
      · intro h
        exact .inl (by simpa using h)
      · rintro (h | ⟨k, hk, hle, -⟩)
        · simpa using h
        · exact absurd hle (not_le.2 (not_due hevery hk))
    | ok e =>
      simp only [progressLoop, handled, hone]
      have hprobe := @probe_blind σ γ every next s
        { p with engine := e, processed := p.processed + 1, beats := p.beats ++ [.snapshot] } n
        (by rw [hn]) hs
      rw [ih hprobe.2.1 hprobe.1, hprobe.2.2 r, probe_engine]
      simp only [List.mem_append, List.mem_singleton, reduceCtorEq, or_false]
      rw [or_assoc]
      refine or_congr_right ?_
      -- the probe behind this snapshot, or one behind a later snapshot
      rw [succ_div_cadence]
      constructor
      · rintro (⟨hdue, rfl⟩ | ⟨k, hk, hle, rfl⟩)
        · refine ⟨n / every, le_rfl, ?_, rfl⟩
          have hmul : (n + 1) / every * every = n + 1 :=
            Nat.div_mul_cancel (Nat.dvd_of_mod_eq_zero hdue)
          rw [succ_div_cadence, if_pos hdue] at hmul
          omega
        · exact ⟨k, by omega, by omega, rfl⟩
      · rintro ⟨k, hk, hle, rfl⟩
        by_cases hthis : (n + 1) % every = 0 ∧ k = n / every
        · exact .inl ⟨hthis.1, by rw [hthis.2]⟩
        · refine .inr ⟨k, ?_, by omega, rfl⟩
          split
          · omega
          · omega

end BacktestEngine

end Evosport.Backtest
