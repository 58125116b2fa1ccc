/-
The integer programming oracle of the Frank-Wolfe solver, and the logic of its rows.

`services/optimization/frank_wolfe.py` encodes dependent markets a second time, on its own: the
oracle for two markets is built from tuples with the type of a relation as a text.  Both encodings
admit the selections that the logic allows, which say exactly one true outcome of each market and
respect every relation (`encodings_mean_logic`).
-/
import Evosport.Optimization.ConstraintSolver

namespace Evosport.Optimization

open Lib.BinaryProgram

variable {n nA nB : ℕ}

/-- `IPOracle`: the rows of the constraints, the solver that it asks for, and whether cvxpy is
installed. -/
structure IPOracle (n : ℕ) where
  rows : List (Row n)
  solver : String
  cvxpyAvailable : Bool

/-- `IPOracle.__init__` -/
def IPOracle.init (rows : List (Row n)) (solver : String) (cvxpyAvailable : Bool) :
    IPOracle n where
  rows := rows
  solver := if solver = "auto" then if cvxpyAvailable then "cvxpy" else "scipy" else solver
  cvxpyAvailable := cvxpyAvailable

/-- An entry of the dependencies of `create_cross_market_oracle`. -/
structure OracleDependency (nA nB : ℕ) where
  idxA : Fin nA
  idxB : Fin nB
  depType : String

/-- The row that `create_cross_market_oracle` adds for an entry; every type that is not `implies`
counts as `excludes`. -/
def OracleDependency.row (d : OracleDependency nA nB) : Row (nA + nB) :=
  let a := Fin.castAdd nB d.idxA
  let b := Fin.natAdd nA d.idxB
  if d.depType = "implies" then ⟨Function.update (Function.update 0 a (-1)) b 1, 0, false⟩
  else ⟨Function.update (Function.update 0 a (-1)) b (-1), -1, false⟩

/-- `create_cross_market_oracle` -/
def createCrossMarketOracle (nA nB : ℕ) (dependencies : List (OracleDependency nA nB))
    (cvxpyAvailable : Bool) : IPOracle (nA + nB) :=
  IPOracle.init
    (⟨fun i => if i.val < nA then 1 else 0, 1, true⟩ ::
      ⟨fun i => if nA ≤ i.val then 1 else 0, 1, true⟩ ::
        dependencies.map OracleDependency.row) "auto" cvxpyAvailable

/-- The tuple of a dependency. -/
def Dependency.tuple (d : Dependency nA nB) : OracleDependency nA nB where
  idxA := d.outcomeAIdx
  idxB := d.outcomeBIdx
  depType :=
    match d.depType with
    | .implies | .cumulative => "implies"
    | .excludes => "excludes"

/-- What dependent markets say of a selection of their outcomes: one outcome of each market, the
implied outcome with the one that implies it, and no two that exclude each other. -/
structure Logical (deps : List (Dependency nA nB)) (z : Selection (nA + nB)) : Prop where
  oneOfA : ∃! i : Fin nA, z (Fin.castAdd nB i) = true
  oneOfB : ∃! j : Fin nB, z (Fin.natAdd nA j) = true
  implied : ∀ d ∈ deps, d.depType = .implies ∨ d.depType = .cumulative →
    z (Fin.castAdd nB d.outcomeAIdx) = false ∨ z (Fin.natAdd nA d.outcomeBIdx) = true
  excluded : ∀ d ∈ deps, d.depType = .excludes →
    ¬ (z (Fin.castAdd nB d.outcomeAIdx) = true ∧ z (Fin.natAdd nA d.outcomeBIdx) = true)

section Encodings

variable {deps : List (Dependency nA nB)} {z : Selection (nA + nB)}

/-- A market's row asks for exactly one true outcome. -/
lemma sum_eq_one_iff_existsUnique {k : ℕ} (s : Fin k → Bool) :
    (∑ i, if s i then (1 : ℚ) else 0) = 1 ↔ ∃! i, s i = true := by
  rw [sum_eq_one_iff]
  constructor
  · rintro ⟨i, hi⟩
    refine ⟨i, (hi i).trans (decide_eq_true rfl), ?_⟩
    intro i' hi'
    exact of_decide_eq_true ((hi i').symm.trans hi')
  · rintro ⟨i, hi, huniq⟩
    refine ⟨i, ?_⟩
    intro i'
    rw [Bool.eq_iff_iff, decide_eq_true_iff]
    constructor
    · intro hi'
      exact huniq i' hi'
    · rintro rfl
      exact hi

/-- The row of a dependency is what the relation says of its pair. -/
lemma admits_dependencyRow_iff (d : Dependency nA nB) : (dependencyRow d).Admits z ↔
    (d.depType = .implies ∨ d.depType = .cumulative →
      z (Fin.castAdd nB d.outcomeAIdx) = false ∨ z (Fin.natAdd nA d.outcomeBIdx) = true) ∧
    (d.depType = .excludes →
      ¬ (z (Fin.castAdd nB d.outcomeAIdx) = true ∧ z (Fin.natAdd nA d.outcomeBIdx) = true)) := by
  rw [admits_dependencyRow, Dependency.Allows]
  cases d.depType with
  | implies => cases z (Fin.castAdd nB d.outcomeAIdx) <;> simp
  | cumulative => cases z (Fin.castAdd nB d.outcomeAIdx) <;> simp
  | excludes => simp

/-- The rows of `build_constraints_from_dependencies` are the logic of the markets. -/
lemma admissible_iff_logical :
    Admissible (buildConstraintsFromDependencies nA nB deps) z ↔ Logical deps z := by
  have hrows : Admissible (buildConstraintsFromDependencies nA nB deps) z ↔
      (∃! i : Fin nA, z (Fin.castAdd nB i) = true) ∧
      (∃! j : Fin nB, z (Fin.natAdd nA j) = true) ∧
      ∀ d ∈ deps, (dependencyRow d).Admits z := by
    rw [← sum_eq_one_iff_existsUnique, ← sum_eq_one_iff_existsUnique]
    simp [Admissible, buildConstraintsFromDependencies, Row.Admits, lhs_rowA, lhs_rowB]
  rw [hrows]
  constructor
  · rintro ⟨hA, hB, hdeps⟩
    exact ⟨hA, hB, fun d hd => ((admits_dependencyRow_iff d).1 (hdeps d hd)).1,
      fun d hd => ((admits_dependencyRow_iff d).1 (hdeps d hd)).2⟩
  · intro h
    refine ⟨h.oneOfA, h.oneOfB, ?_⟩
    intro d hd
    exact (admits_dependencyRow_iff d).2 ⟨h.implied d hd, h.excluded d hd⟩

/-- The tuple of a dependency gives the same row. -/
lemma row_tuple (d : Dependency nA nB) : d.tuple.row = dependencyRow d := by
  unfold Dependency.tuple OracleDependency.row dependencyRow
  cases d.depType with
  | implies => exact if_pos rfl
  | cumulative => exact if_pos rfl
  | excludes =>
    have hother : "excludes" ≠ "implies" := by decide
    exact if_neg hother

/-- The two encoders agree row by row. -/
lemma rows_createCrossMarketOracle (cvxpyAvailable : Bool) :
    (createCrossMarketOracle nA nB (deps.map Dependency.tuple) cvxpyAvailable).rows =
      buildConstraintsFromDependencies nA nB deps := by
  have htuples : (deps.map Dependency.tuple).map OracleDependency.row =
      deps.map dependencyRow := by
    rw [List.map_map]
    exact List.map_congr_left fun d _ => row_tuple d
  rw [createCrossMarketOracle, htuples]
  rfl

end Encodings

/-- Both encodings of dependent markets admit exactly the selections with one true outcome of each
market that respect every dependency. -/
theorem encodings_mean_logic (deps : List (Dependency nA nB)) (cvxpyAvailable : Bool)
    (z : Selection (nA + nB)) :
    (Admissible (buildConstraintsFromDependencies nA nB deps) z ↔ Logical deps z) ∧
      (Admissible (createCrossMarketOracle nA nB (deps.map Dependency.tuple) cvxpyAvailable).rows z ↔
        Logical deps z) := by
  refine ⟨admissible_iff_logical, ?_⟩
  rw [rows_createCrossMarketOracle]
  exact admissible_iff_logical

end Evosport.Optimization
