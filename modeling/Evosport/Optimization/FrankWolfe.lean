/-
The Frank-Wolfe solver (`services/optimization/frank_wolfe.py`, `FrankWolfeSolver.solve`).

From the vertices that `init_fw` finds, or from a first answer of the oracle, the solver looks for
the prices closest to the market's among the mixtures of valid outcomes.  Each iteration moves the
iterate a little towards an interior point, asks the oracle for the vertex that lies in the
direction of descent, notes what the iterate guarantees, and solves the problem again over the
vertices it has.  There are three ways to stop early, and two that break off.

What the solver returns does not depend on the logarithm, the oracle or the solver of the
subproblem being any good: the prices are a mixture of vertices (`optimalPrices_mem`), and the
guarantee is never negative and, when the solver was interrupted, the best one that it has seen
(`solve_certified`).  The logarithm, the oracle, SciPy's minimiser and the readings of the clock
are parameters.
-/
import Evosport.Optimization.OracleFallback
import Mathlib.Algebra.BigOperators.Field
import Mathlib.Algebra.Order.Field.Basic
import Mathlib.Analysis.Convex.Combination
import Mathlib.Analysis.Convex.Hull
import Mathlib.Tactic.FieldSimp
import Mathlib.Tactic.Linarith
import Mathlib.Tactic.Positivity

namespace Evosport.Optimization

open Lib Lib.BinaryProgram

namespace FrankWolfe

/-- `FrankWolfeSolver`: the limit on its iterations, the threshold of convergence, the start of the
barrier, the share of the profit that it wants guaranteed, and the least profit. -/
structure FrankWolfeSolver where
  maxIterations : ℕ := 200
  convergenceThreshold : ℚ := 1 / 1000000
  epsilon : ℚ := 1 / 10
  alpha : ℚ := 9 / 10
  minProfitThreshold : ℚ := 1 / 20
deriving DecidableEq, Repr

variable {n : ℕ}

/-- `FrankWolfeResult`: the prices that the solver found, what they earn, and how it got there. -/
structure FrankWolfeResult (n : ℕ) where
  optimalPrices : Fin n → ℚ
  arbitrageProfit : ℚ
  guaranteedProfit : ℚ
  iterations : ℕ
  converged : Bool
  activeVertices : ℕ
  gapHistory : List ℚ
  profitHistory : List ℚ
  epsilonHistory : List ℚ
  bestIterateIdx : ℕ
  alphaExtractionMet : Bool
  settledSecurities : Dict (Fin n) Bool

/-- What the solver starts from: the vertices that are known, the point it contracts towards, and
the securities that are settled. -/
structure Start (n : ℕ) where
  activeSet : List (Fin n → ℚ)
  interiorPoint : Fin n → ℚ
  settledSecurities : Dict (Fin n) Bool

/-- A 0/1 vector -/
def vector (z : Selection n) : Fin n → ℚ := fun i => if z i then 1 else 0

/-- The start with an `IPOracle` -/
def Start.ofInit (r : InitFWResult n) : Start n where
  activeSet := r.activeVertices.map vector
  interiorPoint := r.interiorPoint
  settledSecurities := r.settledSecurities

/-- The start with a plain function for an oracle -/
def Start.ofCallable (oracle : (Fin n → ℚ) → Option (Fin n → ℚ))
    (settled : Dict (Fin n) Bool) : Start n where
  activeSet := [(oracle 0).getD fun _ => 1 / n]
  interiorPoint := fun _ => 1 / n
  settledSecurities := settled

/-- `np.clip` -/
def clip (lo hi x : ℚ) : ℚ := min (max x lo) hi

/-- The inner product of a gradient and a direction. -/
def dot (c v : Fin n → ℚ) : ℚ := ∑ i, c i * v i

/-- `np.allclose(z, w, atol=1e-8)` -/
def AllClose (z w : Fin n → ℚ) : Prop :=
  ∀ i, |z i - w i| ≤ 1 / 10 ^ 8 + 1 / 10 ^ 5 * |w i|

instance (z w : Fin n → ℚ) : Decidable (AllClose z w) :=
  inferInstanceAs (Decidable (∀ i, |z i - w i| ≤ 1 / 10 ^ 8 + 1 / 10 ^ 5 * |w i|))

/-- `Z.T @ lam` -/
def combination (Z : List (Fin n → ℚ)) (lam : Fin Z.length → ℚ) : Fin n → ℚ :=
  ∑ j, lam j • Z.get j

/-- The mean of some vertices -/
def mean (Z : List (Fin n → ℚ)) : Fin n → ℚ := combination Z fun _ => 1 / Z.length

section Solver

variable (log : ℚ → ℚ) (theta : Fin n → ℚ) (epsilon : ℚ)

/-- `objective` -/
def objective (mu : Fin n → ℚ) : ℚ :=
  ∑ i, clip epsilon (1 - epsilon) (mu i) * log (clip epsilon (1 - epsilon) (mu i) / theta i)

/-- `gradient` -/
def gradient (mu : Fin n → ℚ) : Fin n → ℚ := fun i =>
  log (clip epsilon (1 - epsilon) (mu i) / theta i) + 1

/-- The weights that `_solve_subproblem` makes of what the minimiser returns -/
def weights (Z : List (Fin n → ℚ)) (x : Fin Z.length → ℚ) : Fin Z.length → ℚ :=
  fun j => max (x j) epsilon / ∑ k, max (x k) epsilon

/-- `_solve_subproblem`; `minimize` is what SciPy finds, if it succeeds. -/
def solveSubproblem (minimize : (Z : List (Fin n → ℚ)) → Option (Fin Z.length → ℚ))
    (activeSet : List (Fin n → ℚ)) : Fin n → ℚ :=
  match activeSet with
  | [z] => z
  | Z => match minimize Z with
    | some x => combination Z (weights epsilon Z x)
    | none => mean Z

/-- The variables of the loop.  No profit stands for one of minus infinity. -/
structure State (n : ℕ) where
  activeSet : List (Fin n → ℚ)
  mu : Fin n → ℚ
  bestMu : Fin n → ℚ
  barrierEpsilon : ℚ
  gapHistory : List ℚ := []
  profitHistory : List ℚ := []
  epsilonHistory : List ℚ := []
  bestIterateIdx : ℕ := 0
  bestGuaranteedProfit : Option ℚ := none

/-- The histories and the best iterate, after the oracle has answered -/
def State.record (s : State n) (t : ℕ) (gap profit : ℚ) : State n :=
  let s := { s with
    gapHistory := s.gapHistory ++ [gap]
    epsilonHistory := s.epsilonHistory ++ [s.barrierEpsilon]
    profitHistory := s.profitHistory ++ [profit] }
  if s.bestGuaranteedProfit.all (· < profit) then
    { s with bestGuaranteedProfit := some profit, bestIterateIdx := t, bestMu := s.mu }
  else s

/-- The result of an iteration that stops, at the current prices; the histories are those of the
iterations so far. -/
def State.result (s : State n) (start : Start n) (t : ℕ) (divergence guaranteed : ℚ)
    (alphaExtractionMet : Bool) : FrankWolfeResult n where
  optimalPrices := s.mu
  arbitrageProfit := divergence
  guaranteedProfit := guaranteed
  iterations := t + 1
  converged := true
  activeVertices := s.activeSet.length
  gapHistory := s.gapHistory
  profitHistory := s.profitHistory
  epsilonHistory := s.epsilonHistory
  bestIterateIdx := s.bestIterateIdx
  alphaExtractionMet := alphaExtractionMet
  settledSecurities := start.settledSecurities

/-- The iterate, moved towards the interior point -/
def contracted (start : Start n) (s : State n) : Fin n → ℚ := fun i =>
  (1 - s.barrierEpsilon) * s.mu i + s.barrierEpsilon * start.interiorPoint i

/-- The adaptive reduction of the barrier -/
def reduceBarrier (barrierEpsilon gap gU : ℚ) : ℚ :=
  if gU < 0 then
    let ratio := gap / (-4 * gU)
    if ratio < barrierEpsilon then min ratio (barrierEpsilon / 2) else barrierEpsilon
  else barrierEpsilon

/-- What an iteration comes to: the loop stops with a result, the clock interrupts it, or it goes on
with a new state. -/
inductive Iteration (n : ℕ) where
  | stop (r : FrankWolfeResult n)
  | interrupt
  | next (s : State n)

variable (cfg : FrankWolfeSolver) (start : Start n)
  (oracle : (Fin n → ℚ) → Option (Fin n → ℚ))
  (minimize : (Z : List (Fin n → ℚ)) → Option (Fin Z.length → ℚ)) (late : ℕ → Bool)

/-- The body of the loop; `late` tells whether the time limit has passed. -/
def iterate (t : ℕ) (s : State n) : Iteration n :=
  if late t then .interrupt
  else
    let grad := gradient log theta epsilon (contracted start s)
    match oracle grad with
    | none => .interrupt
    | some zNew =>
      let gap := dot grad (s.mu - zNew)
      let divergence := objective log theta epsilon s.mu
      let guaranteedProfit := divergence - gap
      let s := s.record t gap guaranteedProfit
      if divergence > epsilon ∧ gap ≤ (1 - cfg.alpha) * divergence then
        .stop (s.result start t divergence guaranteedProfit true)
      else if divergence ≤ cfg.minProfitThreshold then
        .stop (s.result start t divergence (max 0 guaranteedProfit) false)
      else if gap < cfg.convergenceThreshold then
        .stop (s.result start t divergence (max 0 guaranteedProfit) false)
      else
        let activeSet :=
          if ∃ z ∈ s.activeSet, AllClose z zNew then s.activeSet else s.activeSet ++ [zNew]
        let gU := dot (gradient log theta epsilon start.interiorPoint)
          (start.interiorPoint - zNew)
        .next { s with
          activeSet := activeSet
          mu := solveSubproblem epsilon minimize activeSet
          barrierEpsilon := reduceBarrier s.barrierEpsilon gap gU }

/-- The end of `solve`, when no iteration has stopped: the best iterate where its guaranteed profit
is above the last one's, else the last. -/
def forcedResult (s : State n) : FrankWolfeResult n :=
  let finalDivergence := objective log theta epsilon s.mu
  let finalProfit := finalDivergence - s.gapHistory.getLast?.getD 0
  let best := (s.bestGuaranteedProfit.filter (finalProfit < ·)).map fun best => (s.bestMu, best)
  let (mu, profit) := best.getD (s.mu, finalProfit)
  { optimalPrices := mu
    arbitrageProfit := objective log theta epsilon mu
    guaranteedProfit := max 0 profit
    iterations := cfg.maxIterations
    converged := false
    activeVertices := s.activeSet.length
    gapHistory := s.gapHistory
    profitHistory := s.profitHistory
    epsilonHistory := s.epsilonHistory
    bestIterateIdx := s.bestIterateIdx
    alphaExtractionMet := false
    settledSecurities := start.settledSecurities }

/-- The loop, with the number of iterations that are left -/
def loop : ℕ → ℕ → State n → FrankWolfeResult n
  | 0, _, s => forcedResult log theta epsilon cfg start s
  | fuel + 1, t, s =>
    match iterate log theta epsilon cfg start oracle minimize late t s with
    | .stop r => r
    | .interrupt => forcedResult log theta epsilon cfg start s
    | .next s => loop fuel (t + 1) s

/-- The state before the first iteration, at the mean of the vertices that it starts with. -/
def initial : State n :=
  let mu := match start.activeSet with
    | [z] => z
    | Z => mean Z
  { activeSet := start.activeSet, mu := mu, bestMu := mu, barrierEpsilon := cfg.epsilon }

end Solver

section Solve

variable (log : ℚ → ℚ) (epsilon : ℚ) (cfg : FrankWolfeSolver) (start : Start n)
  (oracle : (Fin n → ℚ) → Option (Fin n → ℚ))
  (minimize : (Z : List (Fin n → ℚ)) → Option (Fin Z.length → ℚ)) (late : ℕ → Bool)

/-- `solve`, from the start on: without any vertex the clipped prices are returned as they are, else
the iterations run from the initial state. -/
def solve (prices : Fin n → ℚ) : FrankWolfeResult n :=
  let theta := fun i => clip epsilon (1 - epsilon) (prices i)
  if start.activeSet = [] then {
    optimalPrices := theta
    arbitrageProfit := 0
    guaranteedProfit := 0
    iterations := 0
    converged := true
    activeVertices := 0
    gapHistory := []
    profitHistory := []
    epsilonHistory := []
    bestIterateIdx := 0
    alphaExtractionMet := false
    settledSecurities := start.settledSecurities }
  else loop log theta epsilon cfg start oracle minimize late cfg.maxIterations 0
    (initial cfg start)

end Solve

/-! ## Mixtures of vertices -/

/-- The vertices that the solver has met or may meet -/
def vertices (start : Start n) (oracle : (Fin n → ℚ) → Option (Fin n → ℚ)) : Set (Fin n → ℚ) :=
  {z | z ∈ start.activeSet ∨ ∃ c, oracle c = some z}

lemma combination_mem {S : Set (Fin n → ℚ)} {Z : List (Fin n → ℚ)} (hZ : ∀ z ∈ Z, z ∈ S)
    {lam : Fin Z.length → ℚ} (hnonneg : ∀ j, 0 ≤ lam j) (hsum : ∑ j, lam j = 1) :
    combination Z lam ∈ convexHull ℚ S :=
  (convex_convexHull ℚ S).sum_mem (fun j _ => hnonneg j) hsum
    fun j _ => subset_convexHull ℚ S (hZ _ (List.get_mem Z j))

lemma mean_mem {S : Set (Fin n → ℚ)} {Z : List (Fin n → ℚ)} (hZ : ∀ z ∈ Z, z ∈ S)
    (hne : Z ≠ []) : mean Z ∈ convexHull ℚ S := by
  have hlength : (Z.length : ℚ) ≠ 0 := by
    rw [Nat.cast_ne_zero]
    exact fun h => hne (List.eq_nil_of_length_eq_zero h)
  refine combination_mem hZ (fun _ => by positivity) ?_
  rw [Finset.sum_const, Finset.card_univ, Fintype.card_fin, nsmul_eq_mul]
  field_simp

/-- The weights are those of a mixture, whatever the minimiser returns. -/
lemma weights_spec {epsilon : ℚ} (hepsilon : 0 < epsilon) {Z : List (Fin n → ℚ)} (hne : Z ≠ [])
    (x : Fin Z.length → ℚ) :
    (∀ j, 0 ≤ weights epsilon Z x j) ∧ ∑ j, weights epsilon Z x j = 1 := by
  have hpos : ∀ j, 0 < max (x j) epsilon := fun j => hepsilon.trans_le (le_max_right _ _)
  have hnonempty : (Finset.univ : Finset (Fin Z.length)).Nonempty :=
    ⟨⟨0, List.length_pos_of_ne_nil hne⟩, Finset.mem_univ _⟩
  have htotal : 0 < ∑ k, max (x k) epsilon := Finset.sum_pos (fun j _ => hpos j) hnonempty
  constructor
  · intro j
    exact div_nonneg (hpos j).le htotal.le
  · simp only [weights]
    rw [← Finset.sum_div, div_self htotal.ne']

lemma solveSubproblem_mem {S : Set (Fin n → ℚ)} {epsilon : ℚ} (hepsilon : 0 < epsilon)
    (minimize : (Z : List (Fin n → ℚ)) → Option (Fin Z.length → ℚ)) {Z : List (Fin n → ℚ)}
    (hZ : ∀ z ∈ Z, z ∈ S) (hne : Z ≠ []) :
    solveSubproblem epsilon minimize Z ∈ convexHull ℚ S := by
  unfold solveSubproblem
  split
  case h_1 z => exact subset_convexHull ℚ S (hZ z (List.mem_singleton_self z))
  case h_2 =>
    cases minimize Z with
    | none => exact mean_mem hZ hne
    | some x =>
      -- The weights are clamped and normalised, so `x` need not be a solution.
      obtain ⟨hnonneg, hsum⟩ := weights_spec hepsilon hne x
      exact combination_mem hZ hnonneg hsum

/-! ## The barrier -/

/-- The barrier stays, or falls at least by half, and never to nothing. -/
lemma reduceBarrier_spec {barrier gap : ℚ} (gU : ℚ) (hbarrier : 0 < barrier) (hgap : 0 < gap) :
    0 < reduceBarrier barrier gap gU ∧
      (reduceBarrier barrier gap gU = barrier ∨ reduceBarrier barrier gap gU ≤ barrier / 2) := by
  unfold reduceBarrier
  by_cases hgU : gU < 0
  · have hratio : 0 < gap / (-4 * gU) := div_pos hgap (by linarith)
    simp only [if_pos hgU]
    split_ifs
    · exact ⟨lt_min hratio (half_pos hbarrier), .inr (min_le_right _ _)⟩
    · exact ⟨hbarrier, .inl rfl⟩
  · rw [if_neg hgU]
    exact ⟨hbarrier, .inl rfl⟩

/-! ## The loop -/

/-- What the solver's settings have to be -/
structure Sensible (cfg : FrankWolfeSolver) (epsilon : ℚ) : Prop where
  epsilon_pos : 0 < epsilon
  barrier_pos : 0 < cfg.epsilon
  barrier_le : cfg.epsilon ≤ 1
  threshold_pos : 0 < cfg.convergenceThreshold
  alpha_nonneg : 0 ≤ cfg.alpha

/-- The histories of an iteration count, and the best iterate of them -/
structure Histories (t : ℕ) (gaps profits epsilons : List ℚ) (bestIdx : ℕ) (best : Option ℚ) :
    Prop where
  gaps_length : gaps.length = t
  profits_length : profits.length = t
  epsilons_length : epsilons.length = t
  of_none : best = none → t = 0
  of_some : ∀ b, best = some b → profits[bestIdx]? = some b ∧ ∀ p ∈ profits, p ≤ b

lemma histories_record {t : ℕ} {s : State n} (h : Histories t s.gapHistory s.profitHistory
    s.epsilonHistory s.bestIterateIdx s.bestGuaranteedProfit) (gap profit : ℚ) :
    Histories (t + 1) (s.record t gap profit).gapHistory (s.record t gap profit).profitHistory
      (s.record t gap profit).epsilonHistory (s.record t gap profit).bestIterateIdx
      (s.record t gap profit).bestGuaranteedProfit ∧
    (s.record t gap profit).bestGuaranteedProfit ≠ none := by
  have hlast : (s.profitHistory ++ [profit])[t]? = some profit := by
    rw [← h.profits_length]
    simp
  by_cases hbetter : s.bestGuaranteedProfit.all (· < profit) = true
  · -- The new iterate is the best one, so all the earlier profits are below its own.
    have hbelow : ∀ p ∈ s.profitHistory ++ [profit], p ≤ profit := by
      intro p hp
      rcases List.mem_append.1 hp with hp | hp
      · cases hbest : s.bestGuaranteedProfit with
        | none =>
          have hnil : s.profitHistory = [] :=
            List.eq_nil_of_length_eq_zero (h.profits_length.trans (h.of_none hbest))
          rw [hnil] at hp
          exact absurd hp List.not_mem_nil
        | some b =>
          have hlt : b < profit := by simpa [hbest] using hbetter
          exact ((h.of_some b hbest).2 p hp).trans hlt.le
      · rw [List.mem_singleton.1 hp]
    simp only [State.record, hbetter, if_true]
    refine ⟨⟨by simp [h.gaps_length], by simp [h.profits_length], by simp [h.epsilons_length],
      fun h => (nomatch h), fun b hb => ?_⟩, by simp⟩
    obtain rfl := Option.some.inj hb
    exact ⟨hlast, hbelow⟩
  · obtain ⟨b, hbest, hle⟩ : ∃ b, s.bestGuaranteedProfit = some b ∧ profit ≤ b := by
      cases hbest : s.bestGuaranteedProfit with
      | none => simp [hbest] at hbetter
      | some b => exact ⟨b, rfl, by simpa [hbest] using hbetter⟩
    obtain ⟨hget, hall⟩ := h.of_some b hbest
    simp only [State.record, hbetter, if_false, Bool.false_eq_true]
    refine ⟨⟨by simp [h.gaps_length], by simp [h.profits_length], by simp [h.epsilons_length],
      fun h => absurd (hbest.symm.trans h) (by simp), fun b' hb' => ?_⟩, by simp [hbest]⟩
    obtain rfl := Option.some.inj (hbest.symm.trans hb')
    constructor
    · have hlt := (List.getElem?_eq_some_iff.1 hget).1
      rw [List.getElem?_append_left hlt, hget]
    · intro p hp
      rcases List.mem_append.1 hp with hp | hp
      · exact hall p hp
      · rw [List.mem_singleton.1 hp]
        exact hle

/-- What holds whenever an iteration begins -/
structure Inv (cfg : FrankWolfeSolver) (start : Start n)
    (oracle : (Fin n → ℚ) → Option (Fin n → ℚ)) (t : ℕ) (s : State n) : Prop where
  active : ∀ z ∈ s.activeSet, z ∈ vertices start oracle
  active_ne : s.activeSet ≠ []
  active_length : s.activeSet.length ≤ start.activeSet.length + t
  mu_mem : s.mu ∈ convexHull ℚ (vertices start oracle)
  bestMu_mem : s.bestMu ∈ convexHull ℚ (vertices start oracle)
  histories : Histories t s.gapHistory s.profitHistory s.epsilonHistory s.bestIterateIdx
    s.bestGuaranteedProfit
  barrier : ∀ e ∈ s.epsilonHistory ++ [s.barrierEpsilon], 0 < e ∧ e ≤ cfg.epsilon
  falling : (s.epsilonHistory ++ [s.barrierEpsilon]).Pairwise fun e e' => e' = e ∨ e' ≤ e / 2

/-- What the solver promises of its result: the guaranteed profit is not negative, an extraction
that is reported as met is met, a forced end returns the best iterate, and the histories and the
barrier are those of the iterations. -/
structure Certified (cfg : FrankWolfeSolver) (start : Start n) (r : FrankWolfeResult n) :
    Prop where
  guaranteed_nonneg : 0 ≤ r.guaranteedProfit
  captured : r.alphaExtractionMet = true → cfg.alpha * r.arbitrageProfit ≤ r.guaranteedProfit
  forced : r.converged = false → ∀ p ∈ r.profitHistory, p ≤ r.guaranteedProfit
  best : ∀ p ∈ r.profitHistory, ∃ b, r.profitHistory[r.bestIterateIdx]? = some b ∧ p ≤ b
  iterations_le : r.iterations ≤ cfg.maxIterations
  histories : r.gapHistory.length ≤ r.iterations ∧
    r.profitHistory.length = r.gapHistory.length ∧ r.epsilonHistory.length = r.gapHistory.length
  activeVertices_le : r.activeVertices ≤ start.activeSet.length + r.iterations
  barrier : ∀ e ∈ r.epsilonHistory, 0 < e ∧ e ≤ cfg.epsilon
  falling : r.epsilonHistory.Pairwise fun e e' => e' = e ∨ e' ≤ e / 2

section Solver

variable {log : ℚ → ℚ} {theta : Fin n → ℚ} {epsilon : ℚ} {cfg : FrankWolfeSolver}
  {start : Start n} {oracle : (Fin n → ℚ) → Option (Fin n → ℚ)}
  {minimize : (Z : List (Fin n → ℚ)) → Option (Fin Z.length → ℚ)} {late : ℕ → Bool}
  {s s' : State n} {t : ℕ}

@[simp] lemma activeSet_record (gap profit : ℚ) :
    (s.record t gap profit).activeSet = s.activeSet := by
  unfold State.record
  simp only
  split_ifs <;> rfl

@[simp] lemma mu_record (gap profit : ℚ) : (s.record t gap profit).mu = s.mu := by
  unfold State.record
  simp only
  split_ifs <;> rfl

@[simp] lemma barrierEpsilon_record (gap profit : ℚ) :
    (s.record t gap profit).barrierEpsilon = s.barrierEpsilon := by
  unfold State.record
  simp only
  split_ifs <;> rfl

@[simp] lemma epsilonHistory_record (gap profit : ℚ) :
    (s.record t gap profit).epsilonHistory = s.epsilonHistory ++ [s.barrierEpsilon] := by
  unfold State.record
  simp only
  split_ifs <;> rfl

lemma bestMu_record (gap profit : ℚ) :
    (s.record t gap profit).bestMu = s.bestMu ∨ (s.record t gap profit).bestMu = s.mu := by
  unfold State.record
  simp only
  split_ifs
  · exact .inr rfl
  · exact .inl rfl

/-- What an iteration comes to, when the oracle has answered -/
lemma iterate_cases (log : ℚ → ℚ) (theta : Fin n → ℚ) (epsilon : ℚ) (cfg : FrankWolfeSolver)
    (start : Start n) (oracle : (Fin n → ℚ) → Option (Fin n → ℚ))
    (minimize : (Z : List (Fin n → ℚ)) → Option (Fin Z.length → ℚ)) (late : ℕ → Bool) (t : ℕ)
    (s : State n) :
    iterate log theta epsilon cfg start oracle minimize late t s = .interrupt ∨
      ∃ c zNew gap profit divergence, oracle c = some zNew ∧ profit = divergence - gap ∧
        ((∃ guaranteed met, iterate log theta epsilon cfg start oracle minimize late t s =
            .stop ((s.record t gap profit).result start t divergence guaranteed met) ∧
            ((met = true ∧ guaranteed = profit ∧ epsilon < divergence ∧
                gap ≤ (1 - cfg.alpha) * divergence) ∨
              met = false ∧ guaranteed = max 0 profit)) ∨
          ∃ activeSet gU, iterate log theta epsilon cfg start oracle minimize late t s =
            .next { s.record t gap profit with
              activeSet := activeSet
              mu := solveSubproblem epsilon minimize activeSet
              barrierEpsilon := reduceBarrier s.barrierEpsilon gap gU } ∧
            cfg.convergenceThreshold ≤ gap ∧
            (activeSet = s.activeSet ∨ activeSet = s.activeSet ++ [zNew])) := by
  unfold iterate
  by_cases hlate : late t = true
  · exact .inl (if_pos hlate)
  · rw [if_neg hlate]
    cases hanswer : oracle (gradient log theta epsilon (contracted start s)) with
    | none => exact .inl (by simp only [hanswer])
    | some zNew =>
      right
      refine ⟨gradient log theta epsilon (contracted start s), zNew,
        dot (gradient log theta epsilon (contracted start s)) (s.mu - zNew),
        objective log theta epsilon s.mu -
          dot (gradient log theta epsilon (contracted start s)) (s.mu - zNew),
        objective log theta epsilon s.mu, hanswer, rfl, ?_⟩
      simp only [hanswer]
      split_ifs with hmet hsmall hgap hthere
      · exact .inl ⟨_, true, rfl, .inl ⟨rfl, rfl, hmet⟩⟩
      · exact .inl ⟨_, false, rfl, .inr ⟨rfl, rfl⟩⟩
      · exact .inl ⟨_, false, rfl, .inr ⟨rfl, rfl⟩⟩
      · exact .inr ⟨_, _, by simp only [barrierEpsilon_record]; rfl, not_lt.1 hgap,
          .inl (activeSet_record _ _)⟩
      · exact .inr ⟨_, _, by simp only [barrierEpsilon_record]; rfl, not_lt.1 hgap,
          .inr (by rw [activeSet_record])⟩

/-- The best iterate is one of those that were recorded. -/
lemma Histories.best_le {gaps profits epsilons : List ℚ} {bestIdx : ℕ} {best : Option ℚ}
    (h : Histories t gaps profits epsilons bestIdx best) {p : ℚ} (hp : p ∈ profits) :
    ∃ b, best = some b ∧ profits[bestIdx]? = some b ∧ p ≤ b := by
  cases hbest : best with
  | none =>
    have hnil := List.eq_nil_of_length_eq_zero (h.profits_length.trans (h.of_none hbest))
    rw [hnil] at hp
    exact absurd hp List.not_mem_nil
  | some b => exact ⟨b, rfl, (h.of_some b hbest).1, (h.of_some b hbest).2 p hp⟩

namespace Inv

lemma init (hcfg : Sensible cfg epsilon) (hne : start.activeSet ≠ []) :
    Inv cfg start oracle 0 (initial cfg start) := by
  have hactive : ∀ z ∈ start.activeSet, z ∈ vertices start oracle := fun z hz => .inl hz
  have hmu : (initial cfg start).mu ∈ convexHull ℚ (vertices start oracle) := by
    simp only [initial]
    split
    case h_1 z heq =>
      exact subset_convexHull ℚ _ (hactive z (by rw [heq]; exact List.mem_singleton_self z))
    case h_2 => exact mean_mem hactive hne
  constructor
  case active => exact hactive
  case active_ne => exact hne
  case active_length => exact le_rfl
  case mu_mem => exact hmu
  case bestMu_mem => exact hmu
  case histories =>
    exact ⟨rfl, rfl, rfl, fun _ => rfl, fun _ h => (nomatch h)⟩
  case barrier =>
    intro e he
    obtain rfl := List.mem_singleton.1 he
    exact ⟨hcfg.barrier_pos, le_rfl⟩
  case falling => exact List.pairwise_singleton _ _

/-- An iteration that goes on keeps the invariant. -/
lemma next (hcfg : Sensible cfg epsilon) (h : Inv cfg start oracle t s)
    (hstep : iterate log theta epsilon cfg start oracle minimize late t s = .next s') :
    Inv cfg start oracle (t + 1) s' := by
  rcases iterate_cases log theta epsilon cfg start oracle minimize late t s with
    heq | ⟨c, zNew, gap, profit, divergence, hanswer, -, ⟨_, _, heq, -⟩ |
      ⟨activeSet, gU, heq, hgap, hactive⟩⟩
  · rw [heq] at hstep
    cases hstep
  · rw [heq] at hstep
    cases hstep
  · rw [heq] at hstep
    obtain rfl := Iteration.next.inj hstep
    obtain ⟨hbarrier, hle⟩ := h.barrier s.barrierEpsilon (by simp)
    -- An iteration that goes on has a gap above the threshold, so the barrier stays above zero.
    obtain ⟨hpos, hfall⟩ := reduceBarrier_spec gU hbarrier (hcfg.threshold_pos.trans_le hgap)
    have hmem : ∀ z ∈ activeSet, z ∈ vertices start oracle := by
      intro z hz
      rcases hactive with rfl | rfl
      · exact h.active z hz
      · rcases List.mem_append.1 hz with hz | hz
        · exact h.active z hz
        · exact .inr ⟨c, by rw [List.mem_singleton.1 hz, hanswer]⟩
    have hne : activeSet ≠ [] := by
      rcases hactive with rfl | rfl
      · exact h.active_ne
      · simp
    constructor
    case active => exact hmem
    case active_ne => exact hne
    case active_length =>
      have hlength := h.active_length
      rcases hactive with rfl | rfl
      · exact hlength.trans (Nat.le_succ _)
      · simp only [List.length_append, List.length_singleton]
        omega
    case mu_mem => exact solveSubproblem_mem hcfg.epsilon_pos minimize hmem hne
    case bestMu_mem =>
      rcases bestMu_record (s := s) (t := t) gap profit with hbest | hbest
      · exact hbest ▸ h.bestMu_mem
      · exact hbest ▸ h.mu_mem
    case histories => exact (histories_record h.histories gap profit).1
    case barrier =>
      intro e he
      simp only [epsilonHistory_record] at he
      rcases List.mem_append.1 he with he | he
      · exact h.barrier e he
      · obtain rfl := List.mem_singleton.1 he
        refine ⟨hpos, ?_⟩
        rcases hfall with hsame | hhalf
        · rw [hsame]
          exact hle
        · exact hhalf.trans ((half_le_self hbarrier.le).trans hle)
    case falling =>
      simp only [epsilonHistory_record]
      refine List.pairwise_append.2 ⟨h.falling, List.pairwise_singleton _ _, fun e he e' he' => ?_⟩
      obtain rfl := List.mem_singleton.1 he'
      -- The new barrier is compared with the last one, and through it with all the earlier ones.
      have hbefore : s.barrierEpsilon = e ∨ s.barrierEpsilon ≤ e / 2 := by
        rcases List.mem_append.1 he with hold | hlast
        · exact (List.pairwise_append.1 h.falling).2.2 e hold _ (List.mem_singleton_self _)
        · exact .inl (List.mem_singleton.1 hlast).symm
      rcases hfall with hsame | hhalf
      · rw [hsame]
        exact hbefore
      · right
        rcases hbefore with heq | hle'
        · rw [← heq]
          exact hhalf
        · have he0 := (h.barrier e he).1
          linarith

/-- The end of the loop keeps the promises. -/
lemma forced (h : Inv cfg start oracle t s) (ht : t ≤ cfg.maxIterations) :
    Certified cfg start (forcedResult log theta epsilon cfg start s) ∧
      (forcedResult log theta epsilon cfg start s).optimalPrices ∈
        convexHull ℚ (vertices start oracle) := by
  obtain ⟨hgaps, hprofits, hepsilons, -, -⟩ := h.histories
  set finalProfit := objective log theta epsilon s.mu - s.gapHistory.getLast?.getD 0 with hfinal
  have hforced : ∀ p ∈ s.profitHistory,
      p ≤ (forcedResult log theta epsilon cfg start s).guaranteedProfit := by
    intro p hp
    obtain ⟨b, hbest, -, hle⟩ := h.histories.best_le hp
    simp only [forcedResult, hbest, ← hfinal]
    by_cases hbetter : finalProfit < b
    · simp only [Option.filter_some, hbetter, decide_true, if_true, Option.map_some,
        Option.getD_some]
      exact hle.trans (le_max_right _ _)
    · simp only [Option.filter_some, hbetter, decide_false, Bool.false_eq_true, if_false,
        Option.map_none, Option.getD_none]
      exact (hle.trans (not_lt.1 hbetter)).trans (le_max_right _ _)
  refine ⟨?_, ?_⟩
  · constructor
    case guaranteed_nonneg => exact le_max_left _ _
    case captured => exact fun h => (nomatch h)
    case forced => exact fun _ => hforced
    case best =>
      intro p hp
      obtain ⟨b, -, hget, hle⟩ := h.histories.best_le hp
      exact ⟨b, hget, hle⟩
    case iterations_le => exact le_rfl
    case histories =>
      exact ⟨hgaps.le.trans ht, hprofits.trans hgaps.symm, hepsilons.trans hgaps.symm⟩
    case activeVertices_le =>
      have hlength := h.active_length
      show s.activeSet.length ≤ start.activeSet.length + cfg.maxIterations
      omega
    case barrier => exact fun e he => h.barrier e (List.mem_append_left _ he)
    case falling => exact (List.pairwise_append.1 h.falling).1
  · simp only [forcedResult]
    cases s.bestGuaranteedProfit.filter _ with
    | none => exact h.mu_mem
    | some best => exact h.bestMu_mem

/-- An iteration that stops keeps the promises. -/
lemma stop (hcfg : Sensible cfg epsilon) (h : Inv cfg start oracle t s)
    (ht : t < cfg.maxIterations) {r : FrankWolfeResult n}
    (hstep : iterate log theta epsilon cfg start oracle minimize late t s = .stop r) :
    Certified cfg start r ∧ r.optimalPrices ∈ convexHull ℚ (vertices start oracle) := by
  rcases iterate_cases log theta epsilon cfg start oracle minimize late t s with
    heq | ⟨c, zNew, gap, profit, divergence, -, hprofit, ⟨guaranteed, met, heq, hcase⟩ |
      ⟨_, _, heq, -⟩⟩
  · rw [heq] at hstep
    cases hstep
  · rw [heq] at hstep
    obtain rfl := Iteration.stop.inj hstep
    obtain ⟨hrecorded, -⟩ := histories_record h.histories gap profit
    -- Only the first of the three ways to stop does not cut the guarantee off at zero.
    have hextracted : met = true → cfg.alpha * divergence ≤ guaranteed ∧ 0 ≤ guaranteed := by
      rintro rfl
      rcases hcase with ⟨-, rfl, hpos, hgap⟩ | ⟨hfalse, -⟩
      · have hdivergence : 0 ≤ cfg.alpha * divergence :=
          mul_nonneg hcfg.alpha_nonneg (hcfg.epsilon_pos.le.trans hpos.le)
        rw [hprofit]
        constructor <;> linarith
      · cases hfalse
    constructor
    · constructor
      case guaranteed_nonneg =>
        rcases hcase with ⟨hmet, -, -, -⟩ | ⟨-, hmax⟩
        · exact (hextracted hmet).2
        · show 0 ≤ guaranteed
          rw [hmax]
          exact le_max_left _ _
      case captured => exact fun hmet => (hextracted hmet).1
      case forced => exact fun h => (nomatch h)
      case best =>
        intro p hp
        obtain ⟨b, -, hget, hle⟩ := hrecorded.best_le hp
        exact ⟨b, hget, hle⟩
      case iterations_le => exact ht
      case histories =>
        exact ⟨hrecorded.gaps_length.le, hrecorded.profits_length.trans hrecorded.gaps_length.symm,
          hrecorded.epsilons_length.trans hrecorded.gaps_length.symm⟩
      case activeVertices_le =>
        have hlength := h.active_length
        show (s.record t gap profit).activeSet.length ≤ start.activeSet.length + (t + 1)
        rw [activeSet_record]
        omega
      case barrier =>
        show ∀ e ∈ (s.record t gap profit).epsilonHistory, _
        rw [epsilonHistory_record]
        exact h.barrier
      case falling =>
        show (s.record t gap profit).epsilonHistory.Pairwise _
        rw [epsilonHistory_record]
        exact h.falling
    · show (s.record t gap profit).mu ∈ _
      rw [mu_record]
      exact h.mu_mem
  · rw [heq] at hstep
    cases hstep

end Inv

lemma loop_spec (hcfg : Sensible cfg epsilon) (fuel : ℕ) (h : Inv cfg start oracle t s)
    (ht : t + fuel = cfg.maxIterations) :
    Certified cfg start (loop log theta epsilon cfg start oracle minimize late fuel t s) ∧
      (loop log theta epsilon cfg start oracle minimize late fuel t s).optimalPrices ∈
        convexHull ℚ (vertices start oracle) := by
  induction fuel generalizing t s with
  | zero => exact h.forced (by omega)
  | succ fuel ih =>
    rw [loop]
    cases hstep : iterate log theta epsilon cfg start oracle minimize late t s with
    | stop r => exact h.stop hcfg (by omega) hstep
    | interrupt => exact h.forced (by omega)
    | next s' => exact ih (h.next hcfg hstep) (by omega)

/-- Whatever the logarithm, the oracle, the minimiser and the clock answer, and however the run
ends, the prices that the solver returns are a mixture of the vertices that it started from and
those that the oracle can answer. -/
lemma optimalPrices_mem (hcfg : Sensible cfg epsilon) (log : ℚ → ℚ)
    (oracle : (Fin n → ℚ) → Option (Fin n → ℚ))
    (minimize : (Z : List (Fin n → ℚ)) → Option (Fin Z.length → ℚ)) (late : ℕ → Bool)
    (prices : Fin n → ℚ) (hne : start.activeSet ≠ []) :
    (solve log epsilon cfg start oracle minimize late prices).optimalPrices ∈
      convexHull ℚ (vertices start oracle) := by
  rw [solve, if_neg hne]
  exact (loop_spec hcfg cfg.maxIterations (.init hcfg hne) (Nat.zero_add _)).2

/-- However the run ends, the guarantee is not negative; it is at least the share of the profit
that the solver is set to capture, when it stops for that; and it is at least that of every
iterate, when the solver is interrupted.  The best iterate is the best of those recorded, the
histories go together, a vertex at most is added with each iteration, and the barrier only falls,
each time at least by half, and never to nothing. -/
theorem solve_certified (hcfg : Sensible cfg epsilon) (start : Start n) (log : ℚ → ℚ)
    (oracle : (Fin n → ℚ) → Option (Fin n → ℚ))
    (minimize : (Z : List (Fin n → ℚ)) → Option (Fin Z.length → ℚ)) (late : ℕ → Bool)
    (prices : Fin n → ℚ) :
    Certified cfg start (solve log epsilon cfg start oracle minimize late prices) := by
  by_cases hne : start.activeSet = []
  · rw [solve, if_pos hne]
    constructor
    case captured => exact fun h => (nomatch h)
    case forced => exact fun h => (nomatch h)
    case best => exact fun p hp => absurd hp List.not_mem_nil
    case barrier => exact fun e he => absurd he List.not_mem_nil
    case falling => exact List.Pairwise.nil
    case histories => exact ⟨le_rfl, rfl, rfl⟩
    all_goals simp
  · rw [solve, if_neg hne]
    exact (loop_spec hcfg cfg.maxIterations (.init hcfg hne) (Nat.zero_add _)).1

/-! ## Where the gradient is taken -/

/-- The states in which an iteration begins -/
def visited (log : ℚ → ℚ) (theta : Fin n → ℚ) (epsilon : ℚ) (cfg : FrankWolfeSolver)
    (start : Start n) (oracle : (Fin n → ℚ) → Option (Fin n → ℚ))
    (minimize : (Z : List (Fin n → ℚ)) → Option (Fin Z.length → ℚ)) (late : ℕ → Bool) :
    ℕ → ℕ → State n → List (State n)
  | 0, _, _ => []
  | fuel + 1, t, s =>
    s :: match iterate log theta epsilon cfg start oracle minimize late t s with
      | .next s' => visited log theta epsilon cfg start oracle minimize late fuel (t + 1) s'
      | _ => []

lemma inv_of_visited (hcfg : Sensible cfg epsilon) (fuel : ℕ) (h : Inv cfg start oracle t s)
    (hs : s' ∈ visited log theta epsilon cfg start oracle minimize late fuel t s) :
    ∃ t', Inv cfg start oracle t' s' := by
  induction fuel generalizing t s with
  | zero => exact absurd hs List.not_mem_nil
  | succ fuel ih =>
    rw [visited] at hs
    rcases List.mem_cons.1 hs with rfl | hs
    · exact ⟨t, h⟩
    · cases hstep : iterate log theta epsilon cfg start oracle minimize late t s with
      | stop r => simp [hstep] at hs
      | interrupt => simp [hstep] at hs
      | next s'' =>
        rw [hstep] at hs
        exact ih (h.next hcfg hstep) hs

/-- A mixture of 0/1 vectors lies in the unit cube. -/
lemma mem_cube {S : Set (Fin n → ℚ)} (hS : ∀ z ∈ S, ∃ selection, z = vector selection)
    {mu : Fin n → ℚ} (hmu : mu ∈ convexHull ℚ S) (i : Fin n) : 0 ≤ mu i ∧ mu i ≤ 1 := by
  have hconvex : Convex ℚ {m : Fin n → ℚ | 0 ≤ m i ∧ m i ≤ 1} := by
    intro x hx y hy a b ha hb hab
    constructor
    · exact add_nonneg (mul_nonneg ha hx.1) (mul_nonneg hb hy.1)
    · show a * x i + b * y i ≤ 1
      have hax : a * x i ≤ a := mul_le_of_le_one_right ha hx.2
      have hby : b * y i ≤ b := mul_le_of_le_one_right hb hy.2
      linarith
  refine convexHull_min ?_ hconvex hmu
  intro z hz
  obtain ⟨selection, rfl⟩ := hS z hz
  show 0 ≤ vector selection i ∧ vector selection i ≤ 1
  unfold vector
  split_ifs <;> norm_num

/-- With an oracle that answers outcomes, every gradient is taken strictly inside the unit cube, in
each coordinate in which the interior point is: the logarithm is never asked about a price that
`np.clip` would have to bring back from zero or one. -/
theorem contracted_interior (hcfg : Sensible cfg epsilon) (log : ℚ → ℚ)
    (minimize : (Z : List (Fin n → ℚ)) → Option (Fin Z.length → ℚ)) (late : ℕ → Bool)
    (theta : Fin n → ℚ) (hne : start.activeSet ≠ [])
    (hvertices : ∀ z ∈ vertices start oracle, ∃ selection, z = vector selection)
    (hs : s ∈ visited log theta epsilon cfg start oracle minimize late cfg.maxIterations 0
      (initial cfg start)) {i : Fin n} (hi : 0 < start.interiorPoint i)
    (hi' : start.interiorPoint i < 1) :
    0 < contracted start s i ∧ contracted start s i < 1 := by
  obtain ⟨t', hinv⟩ := inv_of_visited hcfg cfg.maxIterations (.init hcfg hne) hs
  obtain ⟨hbarrier, hle⟩ := hinv.barrier s.barrierEpsilon (by simp)
  obtain ⟨hmu, hmu'⟩ := mem_cube hvertices hinv.mu_mem i
  have hrest : 0 ≤ 1 - s.barrierEpsilon := by linarith [hcfg.barrier_le]
  have hinner : 0 < s.barrierEpsilon * start.interiorPoint i := mul_pos hbarrier hi
  have hinner' : s.barrierEpsilon * start.interiorPoint i < s.barrierEpsilon :=
    mul_lt_of_lt_one_right hbarrier hi'
  have houter : 0 ≤ (1 - s.barrierEpsilon) * s.mu i := mul_nonneg hrest hmu
  have houter' : (1 - s.barrierEpsilon) * s.mu i ≤ 1 - s.barrierEpsilon :=
    mul_le_of_le_one_right hrest hmu'
  unfold contracted
  constructor <;> linarith

end Solver

/-! ## With the oracle -/

/-- `IPOracle.__call__` without CVXPY -/
def callFallback (o : IPOracle n) (argsort : Argsort n) (c : Fin n → ℚ) : Option (Fin n → ℚ) :=
  (o.solveFallback argsort c).map vector

/-- The vertices of `init_fw` are answers of its checks. -/
lemma mem_activeVertices {check : Fin n → Bool → Option (Selection n)}
    {settled : Dict (Fin n) Bool} {epsilon : ℚ} {v : Selection n}
    (h : v ∈ (initFw check settled epsilon).activeVertices) :
    ∃ i value, check i value = some v := by
  have hunique : ∀ (l unique : List (Selection n)),
      v ∈ l.foldl (fun unique v => if v ∈ unique then unique else unique ++ [v]) unique →
        v ∈ unique ∨ v ∈ l := by
    intro l
    induction l with
    | nil => exact fun unique h => .inl h
    | cons w l ih =>
      intro unique h
      rcases ih _ h with h | h
      · simp only at h
        split_ifs at h
        · exact .inl h
        · rcases List.mem_append.1 h with h | h
          · exact .inl h
          · exact .inr (by rw [List.mem_singleton.1 h]; exact List.mem_cons_self)
      · exact .inr (List.mem_cons_of_mem _ h)
  have hstep : ∀ (s : InitState n) (i : Fin n),
      (v ∈ s.activeVertices → ∃ i value, check i value = some v) →
      v ∈ (initStep check s i).activeVertices → ∃ i value, check i value = some v := by
    intro s i hs h
    unfold initStep at h
    split at h
    · next one zero hone hzero =>
      rcases List.mem_append.1 h with h | h
      · exact hs h
      · rcases List.mem_cons.1 h with rfl | h
        · exact ⟨i, true, hone⟩
        · exact ⟨i, false, List.mem_singleton.1 h ▸ hzero⟩
    · next one hone hzero =>
      rcases List.mem_append.1 h with h | h
      · exact hs h
      · exact ⟨i, true, List.mem_singleton.1 h ▸ hone⟩
    · next zero hone hzero =>
      rcases List.mem_append.1 h with h | h
      · exact hs h
      · exact ⟨i, false, List.mem_singleton.1 h ▸ hzero⟩
    · exact hs h
  have hfound := (hunique _ [] h).resolve_left List.not_mem_nil
  exact foldl_invariant
    (I := fun s : InitState n => v ∈ s.activeVertices → ∃ i value, check i value = some v)
    hstep (fun h => absurd h List.not_mem_nil) _ hfound

/-- Dropping repeated vertices leaves some. -/
lemma uniqueVertices_ne_nil {vertices : List (Selection n)} (h : vertices ≠ []) :
    uniqueVertices vertices ≠ [] := by
  have hkeep : ∀ (l unique : List (Selection n)), unique ≠ [] →
      l.foldl (fun unique v => if v ∈ unique then unique else unique ++ [v]) unique ≠ [] := by
    intro l
    induction l with
    | nil => exact fun unique hne => hne
    | cons v l ih =>
      intro unique hne
      refine ih _ ?_
      dsimp only
      split
      · exact hne
      · simp
  cases vertices with
  | nil => exact absurd rfl h
  | cons v l => exact hkeep l [v] (by simp)

/-- A check of a security that is not settled which finds something leaves a vertex. -/
lemma activeVertices_ne_nil {check : Fin n → Bool → Option (Selection n)}
    {settled : Dict (Fin n) Bool} {epsilon : ℚ} {i : Fin n} {value : Bool}
    (hopen : settled.get? i = none) (hcheck : (check i value).isSome) :
    (initFw check settled epsilon).activeVertices ≠ [] := by
  have hstep : ∀ (l : List (Fin n)) (s : InitState n), i ∈ l ∨ s.activeVertices ≠ [] →
      (l.foldl (initStep check) s).activeVertices ≠ [] := by
    intro l
    induction l with
    | nil => exact fun s h => h.resolve_left List.not_mem_nil
    | cons j l ih =>
      intro s h
      refine ih _ ?_
      rw [initStep]
      -- a vertex is added whenever one of the two checks finds something
      split
      · exact .inr (by simp)
      · exact .inr (by simp)
      · exact .inr (by simp)
      · next hone hzero =>
        refine h.imp (fun hmem => (List.mem_cons.1 hmem).resolve_left ?_) id
        rintro rfl
        cases value with
        | true => simp [hone] at hcheck
        | false => simp [hzero] at hcheck
  refine uniqueVertices_ne_nil (hstep _ _ (.inl ?_))
  simp [unsettled, hopen]

/-- For up to 15 securities and without CVXPY: from the constraints of the market to the prices that
the solver returns, these are a mixture of outcomes that the constraints allow, where there is such
an outcome and not every security is settled from the start. -/
theorem solve_feasible {o : IPOracle n} (hn : n ≤ 15) (ho : o.OnFallback)
    {cfg : FrankWolfeSolver} {epsilon : ℚ} (hcfg : Sensible cfg epsilon) (argsort : Argsort n)
    (cvxpy : Fin n → Bool → Option (Selection n)) (settled : Dict (Fin n) Bool) (log : ℚ → ℚ)
    (minimize : (Z : List (Fin n → ℚ)) → Option (Fin Z.length → ℚ)) (late : ℕ → Bool)
    (prices : Fin n → ℚ) (hfeasible : ∃ z, Feasible o.rows z) (hopen : ∃ i, settled.get? i = none) :
    (solve log epsilon cfg (Start.ofInit (initFw (o.checkFeasibility cvxpy) settled epsilon))
        (callFallback o argsort) minimize late prices).optimalPrices ∈
      convexHull ℚ (vector '' {z | Feasible o.rows z}) := by
  obtain ⟨z, hz⟩ := hfeasible
  obtain ⟨i, hopen⟩ := hopen
  have hcheck : (o.checkFeasibility cvxpy i (z i)).isSome := by
    obtain ⟨v, hv, -⟩ := checkFeasibilityFallback_of_le (o := o) hn ⟨z, hz, rfl⟩
    rw [IPOracle.checkFeasibility, if_pos ho, hv]
    rfl
  have hstart : (Start.ofInit
      (initFw (o.checkFeasibility cvxpy) settled epsilon)).activeSet ≠ [] :=
    fun hnil => activeVertices_ne_nil hopen hcheck (List.map_eq_nil_iff.1 hnil)
  refine convexHull_mono ?_
    (optimalPrices_mem hcfg log (callFallback o argsort) minimize late prices hstart)
  rintro z (hz | ⟨c, hc⟩)
  · obtain ⟨v, hv, rfl⟩ := List.mem_map.1 hz
    obtain ⟨i, value, hcheck⟩ := mem_activeVertices hv
    rw [IPOracle.checkFeasibility, if_pos ho, IPOracle.checkFeasibilityFallback,
      if_pos hn] at hcheck
    have hfound := List.find?_some hcheck
    simp only [Bool.and_eq_true, decide_eq_true_iff] at hfound
    exact ⟨v, hfound.2, rfl⟩
  · obtain ⟨v, hv, rfl⟩ := Option.map_eq_some_iff.1 hc
    exact ⟨v, feasible_of_solveFallback hn hv, rfl⟩

/-! ## A market of two outcomes -/

lemma sensible_default : Sensible {} (1 / 10 ^ 10) := by
  constructor <;> norm_num

/-- `create_binary_market_oracle(2)` -/
def binaryOracle : IPOracle 2 where
  rows := [⟨fun _ => 1, 1, true⟩]
  solver := "scipy"
  cvxpyAvailable := false

/-- The start that the code makes of a market with two outcomes. -/
def binaryStart : Start 2 :=
  Start.ofInit (initFw (binaryOracle.checkFeasibility fun _ _ => none) .empty (1 / 10 ^ 10))

/-- At even prices the logarithm is asked about one only. -/
theorem solve_feasible_even :
    (solve (fun x => x - 1) (1 / 10 ^ 10) {}
        (Start.ofInit (initFw (binaryOracle.checkFeasibility fun _ _ => none) .empty (1 / 10 ^ 10)))
        (callFallback binaryOracle (stableArgsort 2)) (fun _ => none) (fun _ => false)
        fun _ => 1 / 2).optimalPrices ∈
      convexHull ℚ (vector '' {z | Feasible binaryOracle.rows z}) :=
  solve_feasible (by decide) (by decide) sensible_default _ _ _ _ _ _ _
    ⟨fun i => decide (i = 0), by decide +kernel⟩ ⟨0, rfl⟩

theorem solve_certified_even :
    Certified {} binaryStart (solve (fun x => x - 1) (1 / 10 ^ 10) {} binaryStart
      (callFallback binaryOracle (stableArgsort 2)) (fun _ => none) (fun _ => false)
      fun _ => 1 / 2) :=
  solve_certified sensible_default _ _ _ _ _ _

theorem contracted_interior_even :
    0 < contracted binaryStart (initial {} binaryStart) 0 ∧
      contracted binaryStart (initial {} binaryStart) 0 < 1 := by
  have hvertices : ∀ z ∈ vertices binaryStart (callFallback binaryOracle (stableArgsort 2)),
      ∃ selection, z = vector selection := by
    rintro z (hz | ⟨c, hc⟩)
    · obtain ⟨v, -, rfl⟩ := List.mem_map.1 hz
      exact ⟨v, rfl⟩
    · obtain ⟨v, -, rfl⟩ := Option.map_eq_some_iff.1 hc
      exact ⟨v, rfl⟩
  exact contracted_interior sensible_default (fun x => x - 1) (fun _ => none) (fun _ => false)
    (fun _ => 1 / 2) (by decide +kernel) hvertices List.mem_cons_self (by decide +kernel)
    (by decide +kernel)

end FrankWolfe

end Evosport.Optimization
