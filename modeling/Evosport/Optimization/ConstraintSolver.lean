/-
# Arbitrage across two dependent markets

`services/optimization/constraint_solver.py`.  The joint outcomes of two markets are described by
linear rows over one 0/1 variable for each outcome: exactly one outcome of each market is true, and
each dependency adds a row.  The solver minimises the price of the selected outcomes, and a minimum
below one dollar is reported as an arbitrage whose positions are the selected outcomes.

The selected outcomes are one joint outcome.  What they cost bounds nothing that is paid when
another joint outcome comes true, and `detect_pays_iff` says when they pay in all of them.
-/
import Mathlib.Data.Fin.Tuple.Basic
import Mathlib.Data.Fin.VecNotation
import Mathlib.Algebra.Order.BigOperators.Group.List
import Mathlib.Tactic.NormNum
import Mathlib.Tactic.Ring
import Evosport.Lib.BinaryProgram

namespace Evosport.Optimization

open Lib.BinaryProgram

/-! ## Dependencies -/

/-- `DependencyType`: how an outcome of one market bears on an outcome of another. -/
inductive DependencyType where
  | implies
  | excludes
  | cumulative
  deriving DecidableEq, Repr

/-- A dependency of an outcome of market B on an outcome of market A. -/
structure Dependency (nA nB : ℕ) where
  outcomeAIdx : Fin nA
  outcomeBIdx : Fin nB
  depType : DependencyType

variable {n nA nB : ℕ}

/-- What a dependency says of the joint outcome `i`, `j`. -/
def Dependency.Holds (d : Dependency nA nB) (i : Fin nA) (j : Fin nB) : Prop :=
  match d.depType with
  | .implies | .cumulative => i = d.outcomeAIdx → j = d.outcomeBIdx
  | .excludes => ¬ (i = d.outcomeAIdx ∧ j = d.outcomeBIdx)

/-- The joint outcome satisfies all dependencies. -/
def Satisfies (deps : List (Dependency nA nB)) (i : Fin nA) (j : Fin nB) : Prop :=
  ∀ d ∈ deps, d.Holds i j

/-- A selection does not speak against a dependency. -/
def Dependency.Allows (d : Dependency nA nB) (z : Selection (nA + nB)) : Prop :=
  match d.depType with
  | .implies | .cumulative =>
    z (Fin.castAdd nB d.outcomeAIdx) = true → z (Fin.natAdd nA d.outcomeBIdx) = true
  | .excludes =>
    ¬ (z (Fin.castAdd nB d.outcomeAIdx) = true ∧ z (Fin.natAdd nA d.outcomeBIdx) = true)

/-- The selection that is one at the two true outcomes of a joint outcome. -/
def jointOutcome (i : Fin nA) (j : Fin nB) : Selection (nA + nB) :=
  Fin.append (fun i' => decide (i' = i)) (fun j' => decide (j' = j))

/-! ## Detection -/

/-- One position of a report: the outcome to buy, and its price. -/
structure Position (n : ℕ) where
  index : Fin n
  action : String
  price : ℚ
  deriving DecidableEq

/-- `ArbitrageResult`: what a detection reports, the profit, the selection that was found with its
cost, and the positions to buy for it. -/
structure ArbitrageResult (n : ℕ) where
  arbitrageFound : Bool
  profit : ℚ
  optimalOutcome : Option (Selection n)
  totalCost : ℚ
  positions : List (Position n)
  solverStatus : String

/-- `_build_positions` -/
def buildPositions (z : Selection n) (prices : Fin n → ℚ) : List (Position n) :=
  (List.finRange n).filterMap fun i => if z i then some ⟨i, "BUY", prices i⟩ else none

/-- The result where nothing is found. -/
def notFound (prices : Fin n → ℚ) (status : String) : ArbitrageResult n where
  arbitrageFound := false
  profit := 0
  optimalOutcome := none
  totalCost := ∑ i, prices i
  positions := []
  solverStatus := status

/-- The result for an optimal selection: found when it costs less than a dollar, up to the
tolerance. -/
def reportOptimum (prices : Fin n → ℚ) (z : Selection n) (status otherwise : String) :
    ArbitrageResult n :=
  if cost prices z < 1 - 1 / 1000000 then
    { arbitrageFound := true
      profit := 1 - cost prices z
      optimalOutcome := some z
      totalCost := cost prices z
      positions := buildPositions z prices
      solverStatus := status }
  else notFound prices otherwise

/-- `_solve_cvxpy` -/
def solveCvxpy (solve : Solver n) (prices : Fin n → ℚ) (rows : List (Row n)) :
    ArbitrageResult n :=
  match solve prices rows with
  | .optimal z status => reportOptimum prices z status status
  | .noOptimum status => notFound prices status
  | .raised text => notFound prices ("error: " ++ text)

/-- `_solve_fallback`, which does not look at the equality flags -/
def solveFallback (prices : Fin n → ℚ) (rows : List (Row n)) : ArbitrageResult n :=
  if 20 < n then notFound prices "fallback: problem too large"
  else
    match enumerate prices (rows.map Row.relax) with
    | some z => reportOptimum prices z "fallback: enumeration" "fallback: no arbitrage found"
    | none => notFound prices "fallback: no arbitrage found"

/-- `_solve_scipy`, which does not look at the equality flags -/
def solveScipy (solve : Solver n) (prices : Fin n → ℚ) (rows : List (Row n)) :
    ArbitrageResult n :=
  match solve prices (rows.map Row.relax) with
  | .optimal z message => reportOptimum prices z "optimal" message
  | .noOptimum message => notFound prices message
  | .raised _ => solveFallback prices rows

/-- The three ways to solve: by cvxpy, by scipy, and by the fallback of the code where neither is
installed. -/
inductive Backend where
  | cvxpy
  | scipy
  | fallback
  deriving DecidableEq, Repr

/-- `ConstraintSolver`, with the libraries that are installed and the solver that cvxpy calls. -/
structure ConstraintSolver where
  solver : String
  cvxpyAvailable : Bool
  scipyAvailable : Bool

namespace ConstraintSolver

/-- `__init__` -/
def init (solver : String) (cvxpyAvailable scipyAvailable : Bool) : ConstraintSolver where
  solver :=
    if solver = "auto" then
      if cvxpyAvailable then "cvxpy" else if scipyAvailable then "scipy" else "fallback"
    else solver
  cvxpyAvailable := cvxpyAvailable
  scipyAvailable := scipyAvailable

/-- The branch that `detect_arbitrage` takes. -/
def backend (cs : ConstraintSolver) : Backend :=
  if cs.solver = "cvxpy" ∧ cs.cvxpyAvailable then .cvxpy
  else if cs.solver = "scipy" ∧ cs.scipyAvailable then .scipy
  else .fallback

/-- `detect_arbitrage` -/
def detectArbitrage (cs : ConstraintSolver) (solve : Solver n) (prices : Fin n → ℚ)
    (rows : List (Row n)) : ArbitrageResult n :=
  match cs.backend with
  | .cvxpy => solveCvxpy solve prices rows
  | .scipy => solveScipy solve prices rows
  | .fallback => solveFallback prices rows

end ConstraintSolver

/-- The row of a dependency. -/
def dependencyRow (d : Dependency nA nB) : Row (nA + nB) :=
  let idxA := Fin.castAdd nB d.outcomeAIdx
  let idxB := Fin.natAdd nA d.outcomeBIdx
  match d.depType with
  | .implies => ⟨Function.update (Function.update 0 idxA (-1)) idxB 1, 0, false⟩
  | .excludes => ⟨Function.update (Function.update 0 idxA (-1)) idxB (-1), -1, false⟩
  | .cumulative => ⟨Function.update (Function.update 0 idxA (-1)) idxB 1, 0, false⟩

/-- `build_constraints_from_dependencies` -/
def buildConstraintsFromDependencies (nA nB : ℕ) (deps : List (Dependency nA nB)) :
    List (Row (nA + nB)) :=
  ⟨fun i => if i.val < nA then 1 else 0, 1, true⟩ ::
    ⟨fun i => if nA ≤ i.val then 1 else 0, 1, true⟩ :: deps.map dependencyRow

/-- `detect_cross_market_arbitrage` -/
def ConstraintSolver.detectCrossMarketArbitrage (cs : ConstraintSolver) (solve : Solver (nA + nB))
    (pricesA : Fin nA → ℚ) (pricesB : Fin nB → ℚ) (deps : List (Dependency nA nB)) :
    ArbitrageResult (nA + nB) :=
  cs.detectArbitrage solve (Fin.append pricesA pricesB)
    (buildConstraintsFromDependencies nA nB deps)

/-! ## The rows describe the joint outcomes -/

section Rows

variable {deps : List (Dependency nA nB)}

@[simp] lemma jointOutcome_castAdd (i i' : Fin nA) (j : Fin nB) :
    jointOutcome i j (Fin.castAdd nB i') = decide (i' = i) := by
  simp [jointOutcome]

@[simp] lemma jointOutcome_natAdd (i : Fin nA) (j j' : Fin nB) :
    jointOutcome i j (Fin.natAdd nA j') = decide (j' = j) := by
  simp [jointOutcome]

/-- A row with two coefficients. -/
lemma lhs_update {a b : Fin n} (hab : a ≠ b) (x y bound : ℚ) (isEquality : Bool)
    (z : Selection n) :
    (Row.mk (Function.update (Function.update 0 a x) b y) bound isEquality).lhs z =
      (if z a then x else 0) + if z b then y else 0 := by
  have hcoeff : ∀ i : Fin n,
      (if z i then Function.update (Function.update (0 : Fin n → ℚ) a x) b y i else 0) =
      (if i = a then (if z a then x else 0) else 0) +
        if i = b then (if z b then y else 0) else 0 := by
    intro i
    by_cases hb : i = b
    · subst hb
      simp [hab.symm]
    · by_cases ha : i = a
      · subst ha
        simp [hb]
      · simp [ha, hb]
  simp only [Row.lhs, hcoeff, Finset.sum_add_distrib, Finset.sum_ite_eq', Finset.mem_univ, if_true]

/-- The row of a dependency admits a selection exactly when its two outcomes do not contradict the
dependency. -/
lemma admits_dependencyRow (d : Dependency nA nB) (z : Selection (nA + nB)) :
    (dependencyRow d).Admits z ↔ d.Allows z := by
  have hne : Fin.castAdd nB d.outcomeAIdx ≠ Fin.natAdd nA d.outcomeBIdx := by
    intro h
    have hval := congrArg Fin.val h
    have hlt := d.outcomeAIdx.isLt
    simp only [Fin.val_castAdd, Fin.val_natAdd] at hval
    omega
  rw [dependencyRow, Dependency.Allows]
  cases d.depType <;>
    simp only [Row.Admits, lhs_update hne, Bool.false_eq_true, if_false] <;>
    cases z (Fin.castAdd nB d.outcomeAIdx) <;> cases z (Fin.natAdd nA d.outcomeBIdx) <;> simp

/-- The row of market A counts its selected outcomes. -/
lemma lhs_rowA (z : Selection (nA + nB)) (bound : ℚ) (isEquality : Bool) :
    (Row.mk (fun i : Fin (nA + nB) => if i.val < nA then 1 else 0) bound isEquality).lhs z =
      ∑ i, if z (Fin.castAdd nB i) then 1 else 0 := by
  have hge : ∀ i : Fin nB, ¬ nA + (i : ℕ) < nA := fun i => by omega
  simp [Row.lhs, Fin.sum_univ_add, hge]

/-- The row of market B counts its selected outcomes. -/
lemma lhs_rowB (z : Selection (nA + nB)) (bound : ℚ) (isEquality : Bool) :
    (Row.mk (fun i : Fin (nA + nB) => if nA ≤ i.val then 1 else 0) bound isEquality).lhs z =
      ∑ j, if z (Fin.natAdd nA j) then 1 else 0 := by
  have hlt : ∀ i : Fin nA, ¬ nA ≤ (i : ℕ) := fun i => by omega
  simp [Row.lhs, Fin.sum_univ_add, hlt]

/-- One selected outcome in all is a true outcome. -/
lemma sum_eq_one_iff {k : ℕ} (s : Fin k → Bool) :
    (∑ i, if s i then (1 : ℚ) else 0) = 1 ↔ ∃ i, ∀ i', s i' = decide (i' = i) := by
  rw [Finset.sum_boole]
  constructor
  · intro h
    obtain ⟨i, hi⟩ := Finset.card_eq_one.1 (by exact_mod_cast h)
    refine ⟨i, fun i' => ?_⟩
    have hmem : s i' = true ↔ i' = i := by
      simpa using congrArg (i' ∈ ·) hi
    rw [Bool.eq_iff_iff, hmem, decide_eq_true_iff]
  · rintro ⟨i, hi⟩
    have hset : (Finset.univ.filter fun i' => s i' = true) = {i} := by
      ext i'
      simp [hi]
    rw [hset, Finset.card_singleton, Nat.cast_one]

/-- The admissible selections are the joint outcomes that satisfy the dependencies. -/
theorem admissible_iff_joint (z : Selection (nA + nB)) :
    Admissible (buildConstraintsFromDependencies nA nB deps) z ↔
      ∃ i j, Satisfies deps i j ∧ z = jointOutcome i j := by
  have hrows : Admissible (buildConstraintsFromDependencies nA nB deps) z ↔
      (∑ i, if z (Fin.castAdd nB i) then (1 : ℚ) else 0) = 1 ∧
      (∑ j, if z (Fin.natAdd nA j) then (1 : ℚ) else 0) = 1 ∧
      ∀ d ∈ deps, (dependencyRow d).Admits z := by
    simp [Admissible, buildConstraintsFromDependencies, Row.Admits, lhs_rowA, lhs_rowB]
  have hjoint : ∀ (i : Fin nA) (j : Fin nB) (d : Dependency nA nB),
      (dependencyRow d).Admits (jointOutcome i j) ↔ d.Holds i j := by
    intro i j d
    rw [admits_dependencyRow, Dependency.Holds, Dependency.Allows]
    cases d.depType <;> simp [eq_comm]
  rw [hrows, sum_eq_one_iff, sum_eq_one_iff]
  constructor
  · rintro ⟨⟨i, hi⟩, ⟨j, hj⟩, hdeps⟩
    have hz : z = jointOutcome i j := by
      funext k
      refine Fin.addCases (fun i' => ?_) (fun j' => ?_) k
      · rw [hi, jointOutcome_castAdd]
      · rw [hj, jointOutcome_natAdd]
    refine ⟨i, j, fun d hd => ?_, hz⟩
    exact (hjoint i j d).1 (hz ▸ hdeps d hd)
  · rintro ⟨i, j, hsat, rfl⟩
    exact ⟨⟨i, fun i' => jointOutcome_castAdd i i' j⟩, ⟨j, fun j' => jointOutcome_natAdd i j j'⟩,
      fun d hd => (hjoint i j d).2 (hsat d hd)⟩

/-- Some outcome counts towards the row of its market. -/
lemma one_le_sum_iff {k : ℕ} (s : Fin k → Bool) :
    1 ≤ (∑ i, if s i then (1 : ℚ) else 0) ↔ ∃ i, s i = true := by
  rw [Finset.sum_boole, Nat.one_le_cast, Nat.one_le_iff_ne_zero, ← Nat.pos_iff_ne_zero,
    Finset.card_pos]
  simp [Finset.filter_nonempty_iff]

/-- At least one outcome of each market is selected, and the selection speaks against no
dependency. -/
def Allowed (deps : List (Dependency nA nB)) (z : Selection (nA + nB)) : Prop :=
  (∃ i, z (Fin.castAdd nB i) = true) ∧ (∃ j, z (Fin.natAdd nA j) = true) ∧ ∀ d ∈ deps, d.Allows z

/-- Without equalities the admissible selections may have several outcomes of a market. -/
lemma admissible_relax_iff_allowed (z : Selection (nA + nB)) :
    Admissible ((buildConstraintsFromDependencies nA nB deps).map Row.relax) z ↔
      Allowed deps z := by
  have hrelax : ∀ d : Dependency nA nB, (dependencyRow d).relax = dependencyRow d := by
    intro d
    rw [dependencyRow]
    cases d.depType <;> rfl
  have hrows : Admissible ((buildConstraintsFromDependencies nA nB deps).map Row.relax) z ↔
      (1 ≤ ∑ i, if z (Fin.castAdd nB i) then (1 : ℚ) else 0) ∧
      (1 ≤ ∑ j, if z (Fin.natAdd nA j) then (1 : ℚ) else 0) ∧
      ∀ d ∈ deps, (dependencyRow d).Admits z := by
    rw [← lhs_rowA z 1 false, ← lhs_rowB z 1 false]
    simp only [buildConstraintsFromDependencies, List.map_cons, List.map_map, Admissible,
      List.forall_mem_cons, List.forall_mem_map, Function.comp_apply, hrelax]
    exact Iff.rfl
  rw [hrows, one_le_sum_iff, one_le_sum_iff, Allowed]
  simp only [admits_dependencyRow]

end Rows

/-! ## What the positions pay -/

/-- What one share of each position pays in an outcome. -/
def payoff (positions : List (Position n)) (outcome : Selection n) : ℚ :=
  (positions.map fun p => if outcome p.index then 1 else 0).sum

/-- The positions of a selection pay at least a dollar exactly when they share an outcome with the
one that comes true. -/
lemma one_le_payoff_iff (z outcome : Selection n) (prices : Fin n → ℚ) :
    1 ≤ payoff (buildPositions z prices) outcome ↔ ∃ i, z i = true ∧ outcome i = true := by
  have hnonneg : ∀ x ∈ (buildPositions z prices).map
      (fun p => if outcome p.index then (1 : ℚ) else 0), 0 ≤ x := by
    intro x hx
    obtain ⟨p, -, rfl⟩ := List.mem_map.1 hx
    split <;> simp
  constructor
  · intro hpay
    by_contra hnone
    push Not at hnone
    -- every position loses
    have hzero : ∀ x ∈ (buildPositions z prices).map
        (fun p => if outcome p.index then (1 : ℚ) else 0), x = 0 := by
      intro x hx
      obtain ⟨p, hp, rfl⟩ := List.mem_map.1 hx
      obtain ⟨i, -, hi⟩ := List.mem_filterMap.1 hp
      split at hi
      · next hzi =>
        obtain rfl := Option.some.inj hi
        simp [hnone i hzi]
      · cases hi
    rw [payoff, List.sum_eq_zero hzero] at hpay
    norm_num at hpay
  · rintro ⟨i, hz, hout⟩
    refine List.single_le_sum hnonneg 1 (List.mem_map.2 ⟨⟨i, "BUY", prices i⟩, ?_, by simp [hout]⟩)
    exact List.mem_filterMap.2 ⟨i, List.mem_finRange i, by simp [hz]⟩

/-- In every joint outcome that satisfies the dependencies, a reported arbitrage pays its cost and
its profit. -/
def Pays (r : ArbitrageResult (nA + nB)) (deps : List (Dependency nA nB)) : Prop :=
  r.arbitrageFound = true → ∀ i j, Satisfies deps i j →
    r.totalCost + r.profit ≤ payoff r.positions (jointOutcome i j)

/-- In every joint outcome that satisfies the dependencies, a selected outcome comes true. -/
def Covers (z : Selection (nA + nB)) (deps : List (Dependency nA nB)) : Prop :=
  ∀ i j, Satisfies deps i j → z (Fin.castAdd nB i) = true ∨ z (Fin.natAdd nA j) = true

lemma pays_notFound (prices : Fin (nA + nB) → ℚ) (status : String)
    (deps : List (Dependency nA nB)) : Pays (notFound prices status) deps := by
  intro h
  cases h

/-- A reported optimum pays exactly when its selection covers every joint outcome. -/
lemma pays_reportOptimum (prices : Fin (nA + nB) → ℚ) (z : Selection (nA + nB))
    (status otherwise : String) (deps : List (Dependency nA nB)) :
    Pays (reportOptimum prices z status otherwise) deps ↔
      (cost prices z < 1 - 1 / 1000000 → Covers z deps) := by
  rw [reportOptimum]
  split
  · next hcheap =>
    have hone : cost prices z + (1 - cost prices z) = 1 := by ring
    simp only [Pays, Covers, hone, one_le_payoff_iff, hcheap, true_implies]
    refine forall₃_congr fun i j _ => ⟨?_, ?_⟩
    · rintro ⟨k, hz, hk⟩
      induction k using Fin.addCases with
      | left i' =>
        rw [jointOutcome_castAdd, decide_eq_true_iff] at hk
        exact .inl (hk ▸ hz)
      | right j' =>
        rw [jointOutcome_natAdd, decide_eq_true_iff] at hk
        exact .inr (hk ▸ hz)
    · rintro (hz | hz)
      · exact ⟨_, hz, by simp⟩
      · exact ⟨_, hz, by simp⟩
  · next hcheap => exact iff_of_true (pays_notFound _ _ _) fun h => absurd h hcheap

/-! ## When a report is an arbitrage -/

/-- The selections that a backend may report with an exact solver: only `cvxpy` is given the
equalities, and the enumeration keeps the first of equally cheap selections. -/
def MayReport (prices : Fin n → ℚ) (rows : List (Row n)) (z : Selection n) : Backend → Prop
  | .cvxpy => Cheapest prices rows z
  | .scipy => Cheapest prices (rows.map Row.relax) z
  | .fallback => n ≤ 20 ∧ FirstCheapest prices (rows.map Row.relax) z

/-- With equalities the reported selection is a cheapest joint outcome. -/
lemma cheapest_iff_joint (prices : Fin (nA + nB) → ℚ) (deps : List (Dependency nA nB))
    (z : Selection (nA + nB)) :
    Cheapest prices (buildConstraintsFromDependencies nA nB deps) z ↔
      ∃ i j, Satisfies deps i j ∧ z = jointOutcome i j ∧
        ∀ i' j', Satisfies deps i' j' →
          cost prices (jointOutcome i j) ≤ cost prices (jointOutcome i' j') := by
  rw [Cheapest]
  simp only [admissible_iff_joint]
  constructor
  · rintro ⟨⟨i, j, hsat, rfl⟩, hmin⟩
    exact ⟨i, j, hsat, rfl, fun i' j' h => hmin _ ⟨i', j', h, rfl⟩⟩
  · rintro ⟨i, j, hsat, rfl, hmin⟩
    refine ⟨⟨i, j, hsat, rfl⟩, ?_⟩
    rintro _ ⟨i', j', h, rfl⟩
    exact hmin i' j' h

section Detection

variable {solve : Solver (nA + nB)} {prices : Fin (nA + nB) → ℚ} {rows : List (Row (nA + nB))}
  {deps : List (Dependency nA nB)}

lemma pays_solveFallback :
    Pays (solveFallback prices rows) deps ↔
      ∀ z, MayReport prices rows z .fallback → cost prices z < 1 - 1 / 1000000 →
        Covers z deps := by
  rw [solveFallback]
  split
  · next hlarge =>
    exact iff_of_true (pays_notFound _ _ _) fun z hz => absurd hz.1 (by omega)
  · next hsmall =>
    cases hz : enumerate prices (rows.map Row.relax) with
    | none =>
      refine iff_of_true (pays_notFound _ _ _) fun z hmay => ?_
      rw [enumerate_eq_some.2 hmay.2] at hz
      cases hz
    | some z =>
      have hfirst := enumerate_eq_some.1 hz
      refine (pays_reportOptimum prices z _ _ deps).trans ⟨fun h z' hmay => ?_, fun h => ?_⟩
      · rwa [hmay.2.unique hfirst]
      · exact h z ⟨by omega, hfirst⟩

/-- With an exact solver the mixed-integer backends report a cheapest selection or nothing. -/
lemma pays_of_exact (hsolve : Exact solve) (cs : ConstraintSolver)
    (h : ∀ z, MayReport prices rows z cs.backend → cost prices z < 1 - 1 / 1000000 →
      Covers z deps) : Pays (cs.detectArbitrage solve prices rows) deps := by
  rw [ConstraintSolver.detectArbitrage]
  cases hbackend : cs.backend with
  | cvxpy =>
    rw [hbackend] at h
    simp only [solveCvxpy]
    split
    · next z status hopt =>
      exact (pays_reportOptimum prices z _ _ deps).2 (h z (hsolve.sound _ _ z status hopt))
    · exact pays_notFound _ _ _
    · exact pays_notFound _ _ _
  | scipy =>
    rw [hbackend] at h
    simp only [solveScipy]
    split
    · next z status hopt =>
      exact (pays_reportOptimum prices z _ _ deps).2 (h z (hsolve.sound _ _ z status hopt))
    · exact pays_notFound _ _ _
    · next text hraised =>
      -- a solver that raised had nothing to find
      refine pays_solveFallback.2 fun z hz => ?_
      obtain ⟨-, -, -, hcheap, -⟩ := hz.2
      obtain ⟨z', status, hopt⟩ := hsolve.complete prices _ ⟨z, hcheap.1⟩
      rw [hraised] at hopt
      cases hopt
  | fallback =>
    rw [hbackend] at h
    exact pays_solveFallback.2 h

/-- A selection that the backend may report is reported with some exact solver. -/
lemma covers_of_pays (cs : ConstraintSolver)
    (h : ∀ solve, Exact solve → Pays (cs.detectArbitrage solve prices rows) deps)
    {z : Selection (nA + nB)} (hz : MayReport prices rows z cs.backend)
    (hcost : cost prices z < 1 - 1 / 1000000) : Covers z deps := by
  unfold ConstraintSolver.detectArbitrage at h
  cases hbackend : cs.backend with
  | cvxpy =>
    rw [hbackend] at h hz
    obtain ⟨solve, hexact, hopt⟩ := Cheapest.exists_exact hz "optimal"
    have hpays := h solve hexact
    simp only [solveCvxpy, hopt] at hpays
    exact (pays_reportOptimum prices z _ _ deps).1 hpays hcost
  | scipy =>
    rw [hbackend] at h hz
    obtain ⟨solve, hexact, hopt⟩ := Cheapest.exists_exact hz "optimal"
    have hpays := h solve hexact
    simp only [solveScipy, hopt] at hpays
    exact (pays_reportOptimum prices z _ _ deps).1 hpays hcost
  | fallback =>
    rw [hbackend] at h hz
    exact pays_solveFallback.1 (h enumerated exact_enumerated) z hz hcost

end Detection

/-! ## The condition on the outcomes -/

section Outcomes

variable (pricesA : Fin nA → ℚ) (pricesB : Fin nB → ℚ) (deps : List (Dependency nA nB))

/-- A cheapest one of the joint outcomes that satisfy the dependencies. -/
def CheapestJoint (i : Fin nA) (j : Fin nB) : Prop :=
  Satisfies deps i j ∧
    ∀ i' j', Satisfies deps i' j' → pricesA i + pricesB j ≤ pricesA i' + pricesB j'

/-- A cheapest one of the selections that are allowed without the equalities. -/
def CheapestAllowed (z : Selection (nA + nB)) : Prop :=
  Allowed deps z ∧ ∀ z', Allowed deps z' →
    cost (Fin.append pricesA pricesB) z ≤ cost (Fin.append pricesA pricesB) z'

/-- Where what the back end buys costs less than a dollar, it covers every joint outcome.  With
`cvxpy` it buys the two outcomes of a cheapest joint outcome, and each other one has to share an
outcome with it.  Without the equalities it buys a cheapest allowed selection, and the enumeration
of at most twenty variables the first of these. -/
def BoughtCovers : Backend → Prop
  | .cvxpy => ∀ i j, CheapestJoint pricesA pricesB deps i j →
      pricesA i + pricesB j < 1 - 1 / 1000000 → ∀ i' j', Satisfies deps i' j' → i = i' ∨ j = j'
  | .scipy => ∀ z, CheapestAllowed pricesA pricesB deps z →
      cost (Fin.append pricesA pricesB) z < 1 - 1 / 1000000 → Covers z deps
  | .fallback => nA + nB ≤ 20 → ∀ first < 2 ^ (nA + nB),
      CheapestAllowed pricesA pricesB deps (bits (nA + nB) first) →
      (∀ code < first, ¬ CheapestAllowed pricesA pricesB deps (bits (nA + nB) code)) →
      cost (Fin.append pricesA pricesB) (bits (nA + nB) first) < 1 - 1 / 1000000 →
        Covers (bits (nA + nB) first) deps

lemma cost_jointOutcome (i : Fin nA) (j : Fin nB) :
    cost (Fin.append pricesA pricesB) (jointOutcome i j) = pricesA i + pricesB j := by
  simp [cost, Fin.sum_univ_add]

lemma cheapest_relax_iff (z : Selection (nA + nB)) :
    Cheapest (Fin.append pricesA pricesB)
        ((buildConstraintsFromDependencies nA nB deps).map Row.relax) z ↔
      CheapestAllowed pricesA pricesB deps z := by
  simp only [Cheapest, CheapestAllowed, admissible_relax_iff_allowed]

lemma covers_jointOutcome (i : Fin nA) (j : Fin nB) :
    Covers (jointOutcome i j) deps ↔ ∀ i' j', Satisfies deps i' j' → i = i' ∨ j = j' := by
  simp only [Covers, jointOutcome_castAdd, jointOutcome_natAdd, decide_eq_true_iff]
  exact forall₃_congr fun i' j' _ => or_congr eq_comm eq_comm

/-- What a back end may report covers every joint outcome, said of the outcomes. -/
lemma boughtCovers_iff (b : Backend) :
    BoughtCovers pricesA pricesB deps b ↔
      ∀ z, MayReport (Fin.append pricesA pricesB) (buildConstraintsFromDependencies nA nB deps) z
          b →
        cost (Fin.append pricesA pricesB) z < 1 - 1 / 1000000 → Covers z deps := by
  cases b with
  | cvxpy =>
    simp only [MayReport, cheapest_iff_joint, cost_jointOutcome]
    constructor
    · rintro h _ ⟨i, j, hsat, rfl, hmin⟩ hcost
      rw [cost_jointOutcome] at hcost
      exact (covers_jointOutcome deps i j).2 (h i j ⟨hsat, hmin⟩ hcost)
    · intro h i j hcheapest hcost
      refine (covers_jointOutcome deps i j).1
        (h _ ⟨i, j, hcheapest.1, rfl, hcheapest.2⟩ ?_)
      rwa [cost_jointOutcome]
  | scipy => simp only [MayReport, cheapest_relax_iff, BoughtCovers]
  | fallback =>
    simp only [MayReport, FirstCheapest, cheapest_relax_iff, BoughtCovers]
    constructor
    · rintro h _ ⟨hsmall, first, hfirst, rfl, hcheapest, hnone⟩ hcost
      exact h hsmall first hfirst hcheapest hnone hcost
    · intro h hsmall first hfirst hcheapest hnone hcost
      exact h _ ⟨hsmall, first, hfirst, rfl, hcheapest, hnone⟩ hcost

end Outcomes

/-- With every exact solver a reported arbitrage pays its cost and its profit in every joint
outcome that satisfies the dependencies, exactly when what the back end buys below a dollar covers
these joint outcomes. -/
theorem detect_pays_iff (cs : ConstraintSolver) (pricesA : Fin nA → ℚ) (pricesB : Fin nB → ℚ)
    (deps : List (Dependency nA nB)) :
    (∀ solve, Exact solve →
      Pays (cs.detectCrossMarketArbitrage solve pricesA pricesB deps) deps) ↔
      BoughtCovers pricesA pricesB deps cs.backend := by
  rw [boughtCovers_iff]
  exact ⟨fun h _ hz hcost => covers_of_pays cs h hz hcost,
    fun h _ hsolve => pays_of_exact hsolve cs h⟩

/-- The first outcome of A implies the first of B, and the second outcomes are the cheapest joint
outcome: when both first outcomes come true, the reported positions pay nothing. -/
theorem detect_reports_loss :
    ¬ ∀ solve, Exact solve →
      Pays ((ConstraintSolver.init "auto" true true).detectCrossMarketArbitrage solve
        ![2 / 5, 3 / 10] ![1 / 2, 1 / 5] [⟨0, 0, .implies⟩]) [⟨0, 0, .implies⟩] := by
  intro h
  have hpays := h enumerated exact_enumerated (by decide +kernel) 0 0
    (by simp [Satisfies, Dependency.Holds])
  revert hpays
  decide +kernel

end Evosport.Optimization
