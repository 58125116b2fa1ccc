/-
The pipeline of gates (`services/trader_orchestrator/gate_pipeline.py`).

Gates are registered one by one, each behind the gates of its cost class and before the dearer ones,
and may be switched off and on.  Two runners go through them, one of which awaits what a predicate
returns: both record the result of every gate they come to and stop at the first that does not pass.

The predicates read and change a state of which nothing is assumed, and the clock shows any times.
What the loops decide is compared with `conclude`, which reads it off the turns of the gates.  The
samples for the metrics and the log line, on which nothing depends, are left out.
-/
import Evosport.Backtest.Book
import Evosport.Lib.StableSort
import Mathlib.Data.List.Induction

namespace Evosport.Orchestrator

open Lib Backtest

namespace GatePipeline

/-! ## Gates -/

/-- `CostClass`: what a gate may cost, in the order in which gates run. -/
inductive CostClass
  | l0Memory | l1Cached | l2Io | l3Commit
deriving DecidableEq, Repr

/-- `int(cost_class)` -/
def CostClass.toNat : CostClass → ℕ
  | .l0Memory => 0
  | .l1Cached => 1
  | .l2Io => 2
  | .l3Commit => 3

/-- `GateResult`: what a gate says. -/
structure GateResult (V : Type) where
  passed : Bool
  reason : String := ""
  errorMessage : String := ""
  detail : List (String × V) := []
  latencyMs : ℚ := 0
deriving DecidableEq, Repr

/-- An exception; `isException` says that `except Exception` catches it. -/
structure PyException where
  typeName : String
  text : String
  isException : Bool := true
deriving DecidableEq, Repr

/-- An object that is not awaitable. -/
inductive Returned (V : Type)
  | gateResult (result : GateResult V)
  | other (typeName : String)

/-- What the call of a predicate returns. -/
inductive Answer (V σ : Type)
  | plain (value : Returned V)
  | awaitable (typeName : String) (await : σ → Except PyException (Returned V) × σ)

/-- A gate, but for its switch. -/
structure Gate (C V σ : Type) where
  name : String
  costClass : CostClass
  predicate : C → σ → Except PyException (Answer V σ) × σ

variable {C V σ : Type}

/-- The predicate never returns an awaitable. -/
def Gate.Synchronous (gate : Gate C V σ) (ctx : C) : Prop :=
  ∀ s answer s', gate.predicate ctx s = (.ok answer, s') → ∃ value, answer = .plain value

/-- What `except Exception` makes of an exception. -/
def raised (e : PyException) : Except PyException (GateResult V) :=
  if e.isException then
    .ok { passed := false, reason := "gate_predicate_raised",
          errorMessage := e.typeName ++ ": " ++ e.text }
  else .error e

/-- `type(value).__name__` -/
def Returned.typeName : Returned V → String
  | .gateResult _ => "GateResult"
  | .other typeName => typeName

/-- The check that a predicate has come to a result. -/
def checkResult (pyRepr : String → String) (name rawType : String) : Returned V → GateResult V
  | .gateResult result => result
  | .other _ =>
    { passed := false, reason := "gate_predicate_returned_invalid_type",
      errorMessage := "Gate " ++ pyRepr name ++ " predicate returned " ++ pyRepr rawType ++
        ", expected GateResult" }

section Judges

variable (pyRepr : String → String) (gate : Gate C V σ) (ctx : C)

/-- The `try` block of `run`. -/
def judge (s : σ) : Except PyException (GateResult V) × σ :=
  match gate.predicate ctx s with
  | (.error e, s) => (raised e, s)
  | (.ok (.plain value), s) => (.ok (checkResult pyRepr gate.name value.typeName value), s)
  | (.ok (.awaitable rawType await), s) =>
    match await s with
    | (.error e, s) => (raised e, s)
    | (.ok value, s) => (.ok (checkResult pyRepr gate.name rawType value), s)

/-- The `try` block of `run_sync`. -/
def judgeSync (s : σ) : Except PyException (GateResult V) × σ :=
  match gate.predicate ctx s with
  | (.error e, s) => (raised e, s)
  | (.ok (.awaitable _ _), s) =>
    (raised ⟨"RuntimeError", "Gate " ++ pyRepr gate.name ++ " predicate returned an awaitable; " ++
      "use pipeline.run() (async) for async predicates", true⟩, s)
  | (.ok (.plain value), s) => (.ok (checkResult pyRepr gate.name value.typeName value), s)

lemma judge_eq_judgeSync {gate : Gate C V σ} (h : gate.Synchronous ctx) (s : σ) :
    judge pyRepr gate ctx s = judgeSync pyRepr gate ctx s := by
  rw [judge, judgeSync]
  rcases hcall : gate.predicate ctx s with ⟨e | answer, s'⟩
  · rfl
  · obtain ⟨value, rfl⟩ := h s answer s' hcall
    rfl

end Judges

/-! ## The pipeline -/

/-- `_RegisteredGate` -/
structure RegisteredGate (ι : Type) where
  gate : ι
  registrationIndex : ℕ
deriving DecidableEq, Repr

end GatePipeline

open GatePipeline in
/-- The registered gates and the number of the next one. -/
structure GatePipeline (ι : Type) where
  gates : List (RegisteredGate ι) := []
  nextIndex : ℕ := 0

namespace GatePipeline

/-- A registration, or an assignment to the switch of a gate. -/
inductive Op (ι : Type)
  | register (gate : ι)
  | enable (gate : ι) (on : Bool)

/-- `PipelineRun`: what a run of the pipeline reports, its verdict with the reason, the gate that
ended it, and what each gate said. -/
structure PipelineRun (V : Type) where
  passed : Bool
  finalReason : String := ""
  finalError : String := ""
  shortCircuitedAt : String := ""
  perGate : List (String × GateResult V) := []
  totalLatencyMs : ℚ := 0
deriving DecidableEq, Repr

section Pipeline

variable {C V σ ι : Type} (gateOf : ι → Gate C V σ)

/-- The cost of a registered gate. -/
def cost (record : RegisteredGate ι) : ℕ := (gateOf record.gate).costClass.toNat

/-- `register` -/
def register (pipeline : GatePipeline ι) (gate : ι) : GatePipeline ι :=
  let record : RegisteredGate ι := ⟨gate, pipeline.nextIndex⟩
  let newKey := (gateOf gate).costClass.toNat
  let insertAt := pipeline.gates.findIdx fun existing => newKey < cost gateOf existing
  ⟨pipeline.gates.insertIdx insertAt record, pipeline.nextIndex + 1⟩

/-- One operation on the pipeline and the switches. -/
def step [DecidableEq ι] : GatePipeline ι × (ι → Bool) → Op ι → GatePipeline ι × (ι → Bool)
  | (pipeline, enabled), .register gate => (register gateOf pipeline gate, enabled)
  | (pipeline, enabled), .enable gate on => (pipeline, Function.update enabled gate on)

/-- The pipeline and the switches after a sequence of operations. -/
def build [DecidableEq ι] (enabled : ι → Bool) (ops : List (Op ι)) : GatePipeline ι × (ι → Bool) :=
  ops.foldl (step gateOf) ({}, enabled)

/-- `round(max(0.0, (stop - start) * 1000.0), 3)` -/
def elapsedMs (start stop : ℚ) : ℚ :=
  (roundHalfEven (max 0 ((stop - start) * 1000) * 1000) : ℚ) / 1000

variable (pyRepr : String → String) (enabled : ι → Bool) (clock : ℕ → ℚ) (ctx : C)

/-- The loop of `run` over the records that are left, after `n` readings of the clock. -/
def runLoop : List (RegisteredGate ι) → ℕ → List (String × GateResult V) → σ →
    Except PyException (PipelineRun V) × σ
  | [], n, perGate, s =>
    (.ok { passed := true, perGate, totalLatencyMs := elapsedMs (clock 0) (clock n) }, s)
  | record :: records, n, perGate, s =>
    let gate := gateOf record.gate
    if ¬ enabled record.gate then runLoop records n perGate s
    else
      match judge pyRepr gate ctx s with
      | (.error e, s) => (.error e, s)
      | (.ok result, s) =>
        let result := { result with latencyMs := elapsedMs (clock n) (clock (n + 1)) }
        let perGate := perGate ++ [(gate.name, result)]
        if ¬ result.passed then
          (.ok { passed := false, finalReason := result.reason, finalError := result.errorMessage,
                 shortCircuitedAt := gate.name, perGate,
                 totalLatencyMs := elapsedMs (clock 0) (clock (n + 2)) }, s)
        else runLoop records (n + 2) perGate s

/-- `run` -/
def run (pipeline : GatePipeline ι) (s : σ) : Except PyException (PipelineRun V) × σ :=
  runLoop gateOf pyRepr enabled clock ctx pipeline.gates 1 [] s

/-- The loop of `run_sync`: gates that are turned off are passed over, and the first one that does
not pass ends the run with its reason. -/
def runSyncLoop : List (RegisteredGate ι) → ℕ → List (String × GateResult V) → σ →
    Except PyException (PipelineRun V) × σ
  | [], n, perGate, s =>
    (.ok { passed := true, perGate, totalLatencyMs := elapsedMs (clock 0) (clock n) }, s)
  | record :: records, n, perGate, s =>
    let gate := gateOf record.gate
    if ¬ enabled record.gate then runSyncLoop records n perGate s
    else
      match judgeSync pyRepr gate ctx s with
      | (.error e, s) => (.error e, s)
      | (.ok result, s) =>
        let result := { result with latencyMs := elapsedMs (clock n) (clock (n + 1)) }
        let perGate := perGate ++ [(gate.name, result)]
        if ¬ result.passed then
          (.ok { passed := false, finalReason := result.reason, finalError := result.errorMessage,
                 shortCircuitedAt := gate.name, perGate,
                 totalLatencyMs := elapsedMs (clock 0) (clock (n + 2)) }, s)
        else runSyncLoop records (n + 2) perGate s

/-- `run_sync` -/
def runSync (pipeline : GatePipeline ι) (s : σ) : Except PyException (PipelineRun V) × σ :=
  runSyncLoop gateOf pyRepr enabled clock ctx pipeline.gates 1 [] s

end Pipeline

/-! ## The order -/

section Order

variable {C V σ ι : Type} (gateOf : ι → Gate C V σ)

/-- The gates that the operations register, one after the other. -/
def registered (ops : List (Op ι)) : List ι :=
  ops.filterMap fun
    | .register gate => some gate
    | .enable _ _ => none

/-- The gates in the order of their cost classes, within a class as they were registered. -/
def executionOrder (ops : List (Op ι)) : List ι :=
  sortByKey (fun gate => (gateOf gate).costClass.toNat) (registered ops)

/-- Registering a gate sorts one more record. -/
lemma gates_register {pipeline : GatePipeline ι} {records : List (RegisteredGate ι)}
    (h : pipeline.gates = sortByKey (cost gateOf) records) (gate : ι) :
    (register gateOf pipeline gate).gates =
      sortByKey (cost gateOf) (records ++ [⟨gate, pipeline.nextIndex⟩]) := by
  rw [sortByKey_concat, ← h]
  rfl

lemma gates_build [DecidableEq ι] (enabled : ι → Bool) (ops : List (Op ι)) :
    ∃ records : List (RegisteredGate ι), records.map RegisteredGate.gate = registered ops ∧
      (build gateOf enabled ops).1.gates = sortByKey (cost gateOf) records := by
  induction ops using List.reverseRecOn with
  | nil => exact ⟨[], rfl, rfl⟩
  | append_singleton ops op ih =>
    obtain ⟨records, hrecords, hgates⟩ := ih
    rw [build, List.foldl_append, ← build, registered, List.filterMap_append, ← registered]
    cases op with
    | register gate =>
      refine ⟨_, ?_, gates_register gateOf hgates gate⟩
      rw [List.map_append, hrecords]
      rfl
    | enable gate on =>
      refine ⟨records, ?_, hgates⟩
      rw [hrecords]
      exact (List.append_nil _).symm

/-- `gates()` is the stable sort of what was registered. -/
lemma map_gate_build [DecidableEq ι] (enabled : ι → Bool) (ops : List (Op ι)) :
    (build gateOf enabled ops).1.gates.map RegisteredGate.gate = executionOrder gateOf ops := by
  obtain ⟨records, hrecords, hgates⟩ := gates_build gateOf enabled ops
  rw [hgates, executionOrder, ← hrecords]
  exact map_sortByKey (cost gateOf) (fun gate => (gateOf gate).costClass.toNat)
    RegisteredGate.gate (fun _ => rfl) records

end Order

/-! ## Turns -/

/-- A gate that has had its turn: what came out, and the state it left. -/
structure Turn (V σ : Type) where
  name : String
  outcome : Except PyException (GateResult V)
  after : σ

namespace Turn

variable {V σ : Type} (t : Turn V σ)

/-- The gate has passed. -/
def passes : Bool :=
  match t.outcome with
  | .ok result => result.passed
  | .error _ => false

/-- The gate has failed. -/
def fails : Bool :=
  match t.outcome with
  | .ok result => !result.passed
  | .error _ => false

end Turn

section Turns

variable {C V σ : Type}

/-- The turns of the gates, if each had one. -/
def turns (judged : Gate C V σ → σ → Except PyException (GateResult V) × σ) :
    List (Gate C V σ) → σ → List (Turn V σ)
  | [], _ => []
  | gate :: gates, s =>
    ⟨gate.name, (judged gate s).1, (judged gate s).2⟩ :: turns judged gates (judged gate s).2

/-- The turns that are taken when the run stops at the first gate that does not pass. -/
def taken (ts : List (Turn V σ)) : List (Turn V σ) :=
  ts.takeWhile Turn.passes ++ (ts.dropWhile Turn.passes).head?.toList

/-- What the turns come to, starting in `s`: the entries of those that pass, up to the first that
does not or that raises. -/
def conclude (s : σ) : List (Turn V σ) → Except PyException (PipelineRun V) × σ
  | [] => (.ok { passed := true }, s)
  | t :: ts =>
    match t.outcome with
    | .error e => (.error e, t.after)
    | .ok result =>
      let entry := (t.name, { result with latencyMs := 0 })
      if result.passed then
        Prod.map (Except.map fun v => { v with perGate := entry :: v.perGate }) id
          (conclude t.after ts)
      else
        (.ok { passed := false, finalReason := result.reason, finalError := result.errorMessage,
               shortCircuitedAt := t.name, perGate := [entry] }, t.after)

/-- Stopping at the first gate that does not pass rejects where some gate fails, names the first one
that does, and lets no gate after it have its turn. -/
def Decides (s : σ) (ts : List (Turn V σ)) : Except PyException (PipelineRun V) × σ → Prop
  | (.ok v, s') =>
    (v.passed = false ↔ ∃ t ∈ ts, t.fails) ∧
      v.shortCircuitedAt = ((ts.find? Turn.fails).map Turn.name).getD "" ∧
      v.perGate.map Prod.fst = (taken ts).map Turn.name ∧
      s' = ((taken ts).getLast?.map Turn.after).getD s
  | (.error e, s') => ∃ t ∈ ts, t.outcome = .error e ∧ s' = t.after

lemma decides_conclude (s : σ) (ts : List (Turn V σ)) : Decides s ts (conclude s ts) := by
  induction ts generalizing s with
  | nil => simp [conclude, Decides, taken]
  | cons t ts ih =>
    obtain ⟨name, outcome, after⟩ := t
    cases outcome with
    | error e => exact ⟨_, List.mem_cons_self, rfl, rfl⟩
    | ok result =>
      rw [conclude]
      by_cases hpassed : result.passed
      · -- the gate passes, and the turns behind it decide
        have hpasses : Turn.passes ⟨name, Except.ok result, after⟩ = true := hpassed
        have hfails : Turn.fails ⟨name, Except.ok result, after⟩ = false := by
          simp [Turn.fails, hpassed]
        have htaken : taken (⟨name, Except.ok result, after⟩ :: ts) =
            ⟨name, Except.ok result, after⟩ :: taken ts := by
          simp [taken, hpasses]
        simp only [hpassed, if_true]
        have ih := ih after
        rcases hrest : conclude after ts with ⟨e | v, s'⟩
        · rw [hrest] at ih
          obtain ⟨t, ht, houtcome, hs'⟩ := ih
          exact ⟨t, List.mem_cons_of_mem _ ht, houtcome, hs'⟩
        · rw [hrest] at ih
          obtain ⟨hreject, hname, hentries, hs'⟩ := ih
          refine ⟨?_, ?_, ?_, ?_⟩
          · simpa [hfails] using hreject
          · simpa [List.find?_cons, hfails] using hname
          · simpa [htaken] using hentries
          · rw [htaken, id, hs', List.getLast?_cons]
            cases (taken ts).getLast? <;> rfl
      · have hpasses : Turn.passes ⟨name, Except.ok result, after⟩ = false := by
          simpa [Turn.passes] using hpassed
        have hfails : Turn.fails ⟨name, Except.ok result, after⟩ = true := by
          simpa [Turn.fails] using hpassed
        have htaken : taken (⟨name, Except.ok result, after⟩ :: ts) =
            [⟨name, Except.ok result, after⟩] := by
          simp [taken, hpasses]
        simp only [if_neg hpassed]
        refine ⟨?_, ?_, ?_, ?_⟩
        · simp [hfails]
        · simp [hfails]
        · simp [htaken]
        · simp [htaken]

end Turns

/-! ## The runners -/

/-- What a run returns, but for the times. -/
def PipelineRun.verdict {V : Type} (v : PipelineRun V) : PipelineRun V :=
  { v with
    perGate := v.perGate.map fun entry => (entry.1, { entry.2 with latencyMs := 0 })
    totalLatencyMs := 0 }

section Runners

variable {C V σ ι : Type} {gateOf : ι → Gate C V σ} {enabled : ι → Bool}

/-- The verdict on the outcome of a run. -/
def verdictOf (out : Except PyException (PipelineRun V) × σ) :
    Except PyException (PipelineRun V) × σ :=
  Prod.map (Except.map PipelineRun.verdict) id out

/-- A loop over the records that has every enabled gate judged, and stops at the first one that does
not pass. -/
structure IsRunner (gateOf : ι → Gate C V σ) (enabled : ι → Bool)
    (judged : Gate C V σ → σ → Except PyException (GateResult V) × σ)
    (loop : List (RegisteredGate ι) → ℕ → List (String × GateResult V) → σ →
      Except PyException (PipelineRun V) × σ) : Prop where
  nil : ∀ n perGate s, ∃ total,
    loop [] n perGate s = (.ok { passed := true, perGate, totalLatencyMs := total }, s)
  skip : ∀ record records n perGate s, enabled record.gate = false →
    loop (record :: records) n perGate s = loop records n perGate s
  abort : ∀ record records n perGate s e s', enabled record.gate = true →
    judged (gateOf record.gate) s = (.error e, s') →
    loop (record :: records) n perGate s = (.error e, s')
  pass : ∀ record records n perGate s result s', enabled record.gate = true →
    judged (gateOf record.gate) s = (.ok result, s') → result.passed = true →
    ∃ n' latencyMs, loop (record :: records) n perGate s =
      loop records n' (perGate ++ [((gateOf record.gate).name, { result with latencyMs })]) s'
  reject : ∀ record records n perGate s result s', enabled record.gate = true →
    judged (gateOf record.gate) s = (.ok result, s') → result.passed = false →
    ∃ latencyMs total, loop (record :: records) n perGate s =
      (.ok { passed := false, finalReason := result.reason, finalError := result.errorMessage,
             shortCircuitedAt := (gateOf record.gate).name,
             perGate := perGate ++ [((gateOf record.gate).name, { result with latencyMs })],
             totalLatencyMs := total }, s')

lemma isRunner_runLoop (pyRepr : String → String) (clock : ℕ → ℚ) (ctx : C) :
    IsRunner gateOf enabled (judge pyRepr · ctx) (runLoop gateOf pyRepr enabled clock ctx) where
  nil _ _ _ := ⟨_, rfl⟩
  skip _ _ _ _ _ hoff := by simp [runLoop, hoff]
  abort _ _ _ _ _ _ _ hon hjudge := by simp [runLoop, hon, hjudge]
  pass _ _ n _ _ _ _ hon hjudge hpassed := ⟨n + 2, elapsedMs (clock n) (clock (n + 1)), by
    simp [runLoop, hon, hjudge, hpassed]⟩
  reject _ _ n _ _ _ _ hon hjudge hpassed := ⟨elapsedMs (clock n) (clock (n + 1)), _, by
    simp only [runLoop, hon, hjudge, hpassed]
    rfl⟩

lemma isRunner_runSyncLoop (pyRepr : String → String) (clock : ℕ → ℚ) (ctx : C) :
    IsRunner gateOf enabled (judgeSync pyRepr · ctx)
      (runSyncLoop gateOf pyRepr enabled clock ctx) where
  nil _ _ _ := ⟨_, rfl⟩
  skip _ _ _ _ _ hoff := by simp [runSyncLoop, hoff]
  abort _ _ _ _ _ _ _ hon hjudge := by simp [runSyncLoop, hon, hjudge]
  pass _ _ n _ _ _ _ hon hjudge hpassed := ⟨n + 2, elapsedMs (clock n) (clock (n + 1)), by
    simp [runSyncLoop, hon, hjudge, hpassed]⟩
  reject _ _ n _ _ _ _ hon hjudge hpassed := ⟨elapsedMs (clock n) (clock (n + 1)), _, by
    simp only [runSyncLoop, hon, hjudge, hpassed]
    rfl⟩

/-- The gates of the records that are switched on. -/
def enabledGates (gateOf : ι → Gate C V σ) (enabled : ι → Bool) (gates : List ι) :
    List (Gate C V σ) :=
  (gates.filter enabled).map gateOf

/-- The verdict of a runner is read off the turns of the enabled gates. -/
lemma IsRunner.verdict_eq {judged : Gate C V σ → σ → Except PyException (GateResult V) × σ}
    {loop : List (RegisteredGate ι) → ℕ → List (String × GateResult V) → σ →
      Except PyException (PipelineRun V) × σ} (h : IsRunner gateOf enabled judged loop)
    (records : List (RegisteredGate ι)) (n : ℕ) (perGate : List (String × GateResult V)) (s : σ) :
    verdictOf (loop records n perGate s) =
      Prod.map (Except.map fun v => { v with
        perGate := perGate.map (fun entry => (entry.1, { entry.2 with latencyMs := 0 })) ++
          v.perGate }) id
        (conclude s (turns judged
          (enabledGates gateOf enabled (records.map RegisteredGate.gate)) s)) := by
  induction records generalizing n perGate s with
  | nil =>
    obtain ⟨total, hloop⟩ := h.nil n perGate s
    simp [hloop, verdictOf, PipelineRun.verdict, enabledGates, turns, conclude, Except.map]
  | cons record records ih =>
    cases hon : enabled record.gate with
    | false =>
      rw [h.skip _ _ _ _ _ hon, ih, List.map_cons, enabledGates, enabledGates,
        List.filter_cons_of_neg (by simp [hon])]
    | true =>
      have hgates : enabledGates gateOf enabled ((record :: records).map RegisteredGate.gate) =
          gateOf record.gate ::
            enabledGates gateOf enabled (records.map RegisteredGate.gate) := by
        rw [enabledGates, List.map_cons, List.filter_cons_of_pos hon]
        rfl
      rw [hgates, turns]
      rcases hjudge : judged (gateOf record.gate) s with ⟨e | result, s'⟩
      · rw [h.abort _ _ _ _ _ _ _ hon hjudge]
        rfl
      · cases hpassed : result.passed with
        | true =>
          obtain ⟨n', latencyMs, hloop⟩ := h.pass _ records n perGate _ _ _ hon hjudge hpassed
          rw [hloop, ih, conclude]
          simp only [hpassed, if_true]
          rcases conclude s' _ with ⟨e | v, s''⟩
          · rfl
          · simp [Except.map]
        | false =>
          obtain ⟨latencyMs, total, hloop⟩ :=
            h.reject _ records n perGate _ _ _ hon hjudge hpassed
          rw [hloop, conclude]
          simp [hpassed, verdictOf, PipelineRun.verdict, Except.map]

/-- Judges that agree on the gates give the same turns. -/
lemma turns_congr {judged judged' : Gate C V σ → σ → Except PyException (GateResult V) × σ}
    {gates : List (Gate C V σ)} (h : ∀ gate ∈ gates, ∀ s, judged gate s = judged' gate s) (s : σ) :
    turns judged gates s = turns judged' gates s := by
  induction gates generalizing s with
  | nil => rfl
  | cons gate gates ih =>
    obtain ⟨hgate, hgates⟩ := List.forall_mem_cons.1 h
    rw [turns, turns, hgate, ih hgates]

section Agreement

variable (pyRepr : String → String) (clock : ℕ → ℚ) (ctx : C)

lemma verdictOf_run (pipeline : GatePipeline ι) (s : σ) :
    verdictOf (run gateOf pyRepr enabled clock ctx pipeline s) =
      conclude s (turns (judge pyRepr · ctx)
        (enabledGates gateOf enabled (pipeline.gates.map RegisteredGate.gate)) s) := by
  rw [run, (isRunner_runLoop pyRepr clock ctx).verdict_eq]
  rcases conclude s _ with ⟨e | v, s'⟩ <;> rfl

lemma verdictOf_runSync (pipeline : GatePipeline ι) (s : σ) :
    verdictOf (runSync gateOf pyRepr enabled clock ctx pipeline s) =
      conclude s (turns (judgeSync pyRepr · ctx)
        (enabledGates gateOf enabled (pipeline.gates.map RegisteredGate.gate)) s) := by
  rw [runSync, (isRunner_runSyncLoop pyRepr clock ctx).verdict_eq]
  rcases conclude s _ with ⟨e | v, s'⟩ <;> rfl

end Agreement

/-- However a pipeline is built, its gates stand in the order of their cost classes; the two runners
come to one verdict when the enabled gates are synchronous; and the verdict is that of the first
enabled gate to fail. -/
theorem runners_agree [DecidableEq ι] (gateOf : ι → Gate C V σ) (pyRepr : String → String)
    (switches : ι → Bool) (ops : List (Op ι)) (ctx : C) (clock clock' : ℕ → ℚ) (s : σ) :
    let pipeline := (build gateOf switches ops).1
    let enabled := (build gateOf switches ops).2
    let order := executionOrder gateOf ops
    let gates := enabledGates gateOf enabled order
    let out := verdictOf (run gateOf pyRepr enabled clock ctx pipeline s)
    let outSync := verdictOf (runSync gateOf pyRepr enabled clock' ctx pipeline s)
    pipeline.gates.map RegisteredGate.gate = order ∧
      ((∀ gate ∈ gates, gate.Synchronous ctx) → out = outSync) ∧
      Decides s (turns (judge pyRepr · ctx) gates s) out ∧
      Decides s (turns (judgeSync pyRepr · ctx) gates s) outSync := by
  have horder := map_gate_build gateOf switches ops
  dsimp only
  rw [verdictOf_run, verdictOf_runSync, horder]
  refine ⟨rfl, fun hsync => ?_, decides_conclude _ _, decides_conclude _ _⟩
  rw [turns_congr fun gate hgate => judge_eq_judgeSync pyRepr ctx (hsync gate hgate)]

end Runners


section Examples

/-- A gate in memory that fails for a context above one, and a cached one that raises. -/
def twoGates (cached : Bool) : Gate ℕ Unit Unit where
  name := if cached then "collateral" else "size_cap"
  costClass := if cached then .l1Cached else .l0Memory
  predicate ctx s :=
    if cached then (.error ⟨"TimeoutError", "", true⟩, s)
    else (.ok (.plain (.gateResult { passed := decide (ctx ≤ 1), reason := "size" })), s)

lemma twoGates_synchronous (cached : Bool) (ctx : ℕ) : (twoGates cached).Synchronous ctx := by
  intro s answer s' hcall
  cases cached with
  | false => exact ⟨_, (Except.ok.inj (congrArg Prod.fst hcall)).symm⟩
  | true => cases congrArg Prod.fst hcall

/-- The cached gate is registered first and runs second, unless it is switched off. -/
theorem two_gates_agree :
    verdictOf (run twoGates id (fun _ => true) (fun n => n) 2
        (build twoGates (fun _ => true) [.register true, .register false]).1 ()) =
      verdictOf (runSync twoGates id (fun _ => true) (fun _ => 0) 2
        (build twoGates (fun _ => true) [.register true, .register false]).1 ()) := by
  refine (runners_agree twoGates id (fun _ => true) [.register true, .register false] 2
    (fun n => n) (fun _ => 0) ()).2.1 fun gate hgate => ?_
  obtain ⟨cached, -, rfl⟩ := List.mem_map.1 hgate
  exact twoGates_synchronous cached 2

end Examples

end GatePipeline

end Evosport.Orchestrator
