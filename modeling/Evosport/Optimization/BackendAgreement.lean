/-
Whether the back ends of the arbitrage solver agree.

`ConstraintSolver` passes the equality flags of the rows to CVXPY only; SciPy and the enumeration
minimise over the rows with every equality weakened to `≥` (`services/optimization/
constraint_solver.py`).  Dropping the flags can make the optimum cheaper, never dearer, so that the
back ends agree exactly if the weakened rows admit nothing below a dollar that is cheaper than what
the equalities admit (`backendsAgree_iff`).
-/
import Evosport.Optimization.ConstraintSolver

namespace Evosport.Optimization

open Lib.BinaryProgram

variable {n : ℕ}

/-- Whether an arbitrage was found, and its profit. -/
def ArbitrageResult.verdict (r : ArbitrageResult n) : Bool × ℚ := (r.arbitrageFound, r.profit)

/-- The verdict on an optimal cost. -/
def verdictOf (c : ℚ) : Bool × ℚ := if c < 1 - 1 / 1000000 then (true, 1 - c) else (false, 0)

/-- The rows over which a back end minimises. -/
def Backend.rows (b : Backend) (rows : List (Row n)) : List (Row n) :=
  match b with
  | .cvxpy => rows
  | .scipy | .fallback => rows.map Row.relax

/-- Any two back ends with exact solvers reach the same verdict. -/
def BackendsAgree (prices : Fin n → ℚ) (rows : List (Row n)) : Prop :=
  ∀ (cs cs' : ConstraintSolver) (solve solve' : Solver n), Exact solve → Exact solve' →
    (cs.detectArbitrage solve prices rows).verdict =
      (cs'.detectArbitrage solve' prices rows).verdict

variable {prices : Fin n → ℚ} {rows : List (Row n)} {solve : Solver n}

lemma verdictOf_of_le {c : ℚ} (h : ¬ c < 1 - 1 / 1000000) : verdictOf c = (false, 0) := if_neg h

lemma verdict_reportOptimum (prices : Fin n → ℚ) (z : Selection n) (status otherwise : String) :
    (reportOptimum prices z status otherwise).verdict = verdictOf (cost prices z) := by
  rw [reportOptimum, verdictOf]
  split
  · rfl
  · rfl

lemma verdict_solveFallback (prices : Fin n → ℚ) (hn : n ≤ 20) (h : ∃ z, Admissible rows z) :
    ∃ z, Cheapest prices (rows.map Row.relax) z ∧
      (solveFallback prices rows).verdict = verdictOf (cost prices z) := by
  obtain ⟨z, hz⟩ := h
  have hsome : ∃ z, enumerate prices (rows.map Row.relax) = some z := by
    rw [← Option.isSome_iff_exists]
    by_contra hnone
    rw [Option.not_isSome_iff_eq_none] at hnone
    obtain ⟨z', status, henumerated⟩ := exact_enumerated.complete prices _ ⟨z, hz.relax⟩
    rw [enumerated, hnone] at henumerated
    cases henumerated
  obtain ⟨z, hz⟩ := hsome
  obtain ⟨-, -, -, hcheap, -⟩ := enumerate_eq_some.1 hz
  refine ⟨z, hcheap, ?_⟩
  rw [solveFallback, if_neg (by omega), hz]
  exact verdict_reportOptimum prices z _ _

/-- Each back end judges the cheapest selection that its rows admit. -/
lemma verdict_detectArbitrage (cs : ConstraintSolver) (prices : Fin n → ℚ) (hsolve : Exact solve)
    (hn : n ≤ 20) (h : ∃ z, Admissible rows z) :
    ∃ z, Cheapest prices (cs.backend.rows rows) z ∧
      (cs.detectArbitrage solve prices rows).verdict = verdictOf (cost prices z) := by
  have hrelaxed : ∃ z, Admissible (rows.map Row.relax) z := h.imp fun z hz => hz.relax
  unfold ConstraintSolver.detectArbitrage
  cases cs.backend with
  | cvxpy =>
    obtain ⟨z, status, hz⟩ := hsolve.complete prices rows h
    refine ⟨z, hsolve.sound prices rows z status hz, ?_⟩
    simp only [solveCvxpy, hz]
    exact verdict_reportOptimum prices z _ _
  | scipy =>
    obtain ⟨z, message, hz⟩ := hsolve.complete prices _ hrelaxed
    refine ⟨z, hsolve.sound prices _ z message hz, ?_⟩
    simp only [solveScipy, hz]
    exact verdict_reportOptimum prices z _ _
  | fallback => exact verdict_solveFallback prices hn h

/-- Below a dollar, weakening the equalities makes nothing cheaper. -/
def EqualitiesTight (prices : Fin n → ℚ) (rows : List (Row n)) : Prop :=
  ∀ z, Admissible (rows.map Row.relax) z → cost prices z < 1 - 1 / 1000000 →
    ∃ z', Admissible rows z' ∧ cost prices z' ≤ cost prices z

/-- With tight equalities both systems of rows lead to the same verdict. -/
lemma EqualitiesTight.verdict_eq (h : EqualitiesTight prices rows) {z zr : Selection n}
    (hz : Cheapest prices rows z) (hzr : Cheapest prices (rows.map Row.relax) zr) :
    verdictOf (cost prices z) = verdictOf (cost prices zr) := by
  have hle : cost prices zr ≤ cost prices z := hzr.2 z hz.1.relax
  by_cases hbelow : cost prices zr < 1 - 1 / 1000000
  · obtain ⟨z', hz', hcost⟩ := h zr hzr.1 hbelow
    rw [le_antisymm ((hz.2 z' hz').trans hcost) hle]
  · rw [verdictOf_of_le hbelow, verdictOf_of_le fun hlt => hbelow (hle.trans_lt hlt)]

/-- The verdict of any back end is that on the cheapest selection of the rows as they are. -/
lemma EqualitiesTight.verdict_backend (h : EqualitiesTight prices rows) {z z' : Selection n}
    (hz : Cheapest prices rows z) (b : Backend) (hz' : Cheapest prices (b.rows rows) z') :
    verdictOf (cost prices z') = verdictOf (cost prices z) := by
  cases b with
  | cvxpy => rw [hz'.cost_eq hz]
  | scipy => exact (h.verdict_eq hz hz').symm
  | fallback => exact (h.verdict_eq hz hz').symm

/-- For a feasible system of at most 20 variables the back ends agree exactly if weakening the
equalities admits nothing cheaper below a dollar. -/
theorem backendsAgree_iff (hn : n ≤ 20) (hfeasible : ∃ z, Admissible rows z) :
    BackendsAgree prices rows ↔ EqualitiesTight prices rows := by
  constructor
  · intro hagree zr hzr hbelow
    -- the two ends of the dispatch: the equalities kept, and dropped
    have hsame := hagree (ConstraintSolver.init "cvxpy" true true)
      (ConstraintSolver.init "fallback" true true) enumerated enumerated exact_enumerated
      exact_enumerated
    obtain ⟨z, hz, hverdict⟩ := verdict_detectArbitrage
      (ConstraintSolver.init "cvxpy" true true) prices exact_enumerated hn hfeasible
    obtain ⟨z', hz', hverdict'⟩ := verdict_detectArbitrage
      (ConstraintSolver.init "fallback" true true) prices exact_enumerated hn hfeasible
    rw [hverdict, hverdict'] at hsame
    have hle : cost prices z' ≤ cost prices zr := hz'.2 zr hzr
    refine ⟨z, hz.1, le_of_eq_of_le ?_ hle⟩
    rw [verdictOf, verdictOf, if_pos (hle.trans_lt hbelow)] at hsame
    split at hsame
    · have hprofit := congrArg Prod.snd hsame
      simpa using hprofit
    · cases congrArg Prod.fst hsame
  · intro htight cs cs' solve solve' hsolve hsolve'
    obtain ⟨z, hz⟩ := exists_cheapest prices hfeasible
    obtain ⟨z₁, hz₁, hverdict₁⟩ := verdict_detectArbitrage cs prices hsolve hn hfeasible
    obtain ⟨z₂, hz₂, hverdict₂⟩ := verdict_detectArbitrage cs' prices hsolve' hn hfeasible
    rw [hverdict₁, hverdict₂, htight.verdict_backend hz _ hz₁, htight.verdict_backend hz _ hz₂]

/-- Every price is positive and outcome 0 of A makes both outcomes of B true: the equalities leave
the second outcome of A only, the weakened rows also admit the first with both outcomes of B. -/
theorem cumulative_pair_disagrees :
    ¬ BackendsAgree (Fin.append ![1 / 10, 4 / 5] ![1 / 10, 1 / 10])
      (buildConstraintsFromDependencies 2 2 [⟨0, 0, .cumulative⟩, ⟨0, 1, .cumulative⟩]) := by
  intro h
  have hsame := h (ConstraintSolver.init "cvxpy" true true)
    (ConstraintSolver.init "fallback" true true) enumerated enumerated exact_enumerated
    exact_enumerated
  revert hsame
  decide +kernel

/-- Without a dependency the equalities are tight at positive prices. -/
theorem independent_pair_agrees :
    BackendsAgree (Fin.append ![1 / 5] ![3 / 10]) (buildConstraintsFromDependencies 1 1 []) := by
  refine (backendsAgree_iff (by decide) ⟨fun _ => true, by decide +kernel⟩).2 ?_
  intro z hz _
  exact ⟨z, by revert z; decide +kernel, le_rfl⟩

end Evosport.Optimization
