/-
The fallback of the oracle, and what `init_fw` makes of its answers.

Without CVXPY the oracle of `services/optimization/frank_wolfe.py` enumerates the selections of up
to 15 securities.  For more, `_solve_fallback` and `_check_feasibility_fallback` switch securities
on one after the other as long as no equality exceeds its bound, and never look at the inequalities
on the way.  `init_fw` takes a check that finds nothing as a proof that the security is settled, so
that it settles nothing wrongly if the checks find whatever there is (`settled_of_checked`).
-/
import Evosport.Lib.Dict
import Evosport.Lib.Greedy
import Evosport.Lib.Run
import Evosport.Lib.StableSort
import Evosport.Optimization.IpOracle

namespace Evosport.Optimization

open Lib Lib.BinaryProgram

variable {n : ℕ}

/-- The tolerance of the fallback's checks. -/
def tolerance : ℚ := 1 / 1000000

/-- The selection meets the row up to the tolerance. -/
def Within (r : Row n) (z : Selection n) : Prop :=
  if r.isEquality then |r.lhs z - r.bound| ≤ tolerance else r.bound - tolerance ≤ r.lhs z

instance (r : Row n) (z : Selection n) : Decidable (Within r z) :=
  inferInstanceAs (Decidable
    (if r.isEquality then |r.lhs z - r.bound| ≤ tolerance else r.bound - tolerance ≤ r.lhs z))

/-- The selection meets every row up to the tolerance. -/
def Feasible (rows : List (Row n)) (z : Selection n) : Prop := ∀ r ∈ rows, Within r z

instance (rows : List (Row n)) (z : Selection n) : Decidable (Feasible rows z) :=
  inferInstanceAs (Decidable (∀ r ∈ rows, Within r z))

/-- No equality exceeds its bound by more than `tol`; inequalities are not looked at. -/
def NoEqualityAbove (tol : ℚ) (rows : List (Row n)) (z : Selection n) : Prop :=
  ∀ r ∈ rows, r.isEquality = true → r.lhs z ≤ r.bound + tol

instance (tol : ℚ) (rows : List (Row n)) (z : Selection n) :
    Decidable (NoEqualityAbove tol rows z) :=
  inferInstanceAs (Decidable (∀ r ∈ rows, r.isEquality = true → r.lhs z ≤ r.bound + tol))

/-- `np.argsort`: a permutation that sorts the costs; in which order equal costs come is left open,
as by the default kind of the library. -/
structure Argsort (n : ℕ) where
  order : (Fin n → ℚ) → List (Fin n)
  perm : ∀ c, (order c).Perm (List.finRange n)
  sorted : ∀ c, (order c).Pairwise fun i j => c i ≤ c j

/-- Equal costs in the order of their securities. -/
def stableArgsort (n : ℕ) : Argsort n where
  order c := sortByKey c (List.finRange n)
  perm c := perm_sortByKey c (List.finRange n)
  sorted _ := pairwise_sortByKey (List.finRange n)

/-- No security is selected. -/
def noneSelected : Selection n := fun _ => false

namespace IPOracle

variable (o : IPOracle n)

/-- One selection of the enumeration of `_solve_fallback`. -/
def improveFallback (c : Fin n → ℚ) (best : Option (Selection n)) (z : Selection n) :
    Option (Selection n) :=
  if Feasible o.rows z then
    match best with
    | none => some z
    | some b => if cost c z < cost c b then some z else some b
  else best

/-- `_solve_fallback` -/
def solveFallback (argsort : Argsort n) (c : Fin n → ℚ) : Option (Selection n) :=
  if n ≤ 15 then ((List.range (2 ^ n)).map (bits n)).foldl (o.improveFallback c) none
  else some ((argsort.order c).foldl (decideOn (NoEqualityAbove 0 o.rows)) noneSelected)

/-- The greedy pass of `_check_feasibility_fallback`. -/
def fillAround (index : Fin n) (value : Bool) : Selection n :=
  (List.finRange n).foldl
    (fun z j => if j = index then z else decideOn (NoEqualityAbove tolerance o.rows) z j)
    (Function.update noneSelected index value)

/-- `_check_feasibility_fallback` -/
def checkFeasibilityFallback (index : Fin n) (value : Bool) : Option (Selection n) :=
  if n ≤ 15 then
    ((List.range (2 ^ n)).map (bits n)).find? fun z =>
      decide (z index = value) && decide (Feasible o.rows z)
  else
    let z := o.fillAround index value
    if Feasible o.rows z then some z else none

/-- The oracle does not ask CVXPY. -/
def OnFallback : Prop := ¬ (o.solver = "cvxpy" ∧ o.cvxpyAvailable = true)

instance : Decidable o.OnFallback :=
  inferInstanceAs (Decidable (¬ (o.solver = "cvxpy" ∧ o.cvxpyAvailable = true)))

/-- `check_feasibility`; `cvxpy` is what the solver finds, if it finds anything. -/
def checkFeasibility (cvxpy : Fin n → Bool → Option (Selection n)) (index : Fin n)
    (value : Bool) : Option (Selection n) :=
  if o.OnFallback then o.checkFeasibilityFallback index value
  else (cvxpy index value).orElse fun _ => o.checkFeasibilityFallback index value

end IPOracle

/-! ## `init_fw` -/

/-- `InitFWResult`: the vertices and the interior point that the solver starts with, and what is
settled before it starts. -/
structure InitFWResult (n : ℕ) where
  activeVertices : List (Selection n)
  interiorPoint : Fin n → ℚ
  settledSecurities : Dict (Fin n) Bool
  unsettledIndices : List (Fin n)

/-- What the loop over the securities has found. -/
structure InitState (n : ℕ) where
  extendedSettled : Dict (Fin n) Bool
  activeVertices : List (Selection n)

/-- One unsettled security. -/
def initStep (check : Fin n → Bool → Option (Selection n)) (s : InitState n) (i : Fin n) :
    InitState n :=
  match check i true, check i false with
  | some one, some zero => { s with activeVertices := s.activeVertices ++ [one, zero] }
  | some one, none => ⟨s.extendedSettled.set i true, s.activeVertices ++ [one]⟩
  | none, some zero => ⟨s.extendedSettled.set i false, s.activeVertices ++ [zero]⟩
  | none, none => s

/-- Securities that are not settled. -/
def unsettled (settled : Dict (Fin n) Bool) : List (Fin n) :=
  (List.finRange n).filter fun i => (settled.get? i).isNone

/-- The average of the vertices, or a half of each security that is not settled. -/
def average (vertices : List (Selection n)) (settled : Dict (Fin n) Bool) (i : Fin n) : ℚ :=
  if vertices = [] then
    match settled.get? i with
    | some value => if value then 1 else 0
    | none => 1 / 2
  else (vertices.map fun v => if v i then (1 : ℚ) else 0).sum / vertices.length

/-- Drop repeated vertices; two 0/1 vectors are close exactly if they are equal. -/
def uniqueVertices (vertices : List (Selection n)) : List (Selection n) :=
  vertices.foldl (fun unique v => if v ∈ unique then unique else unique ++ [v]) []

/-- `init_fw` -/
def initFw (check : Fin n → Bool → Option (Selection n)) (settled : Dict (Fin n) Bool)
    (epsilon : ℚ) : InitFWResult n :=
  let s := (unsettled settled).foldl (initStep check) ⟨settled, []⟩
  let vertices := uniqueVertices s.activeVertices
  let interior := average vertices s.extendedSettled
  { activeVertices := vertices
    interiorPoint := fun i =>
      if (s.extendedSettled.get? i).isNone ∧ (interior i ≤ epsilon ∨ 1 - epsilon ≤ interior i)
      then 1 / 2 else interior i
    settledSecurities := s.extendedSettled
    unsettledIndices := unsettled s.extendedSettled }

/-! ## Soundness -/

/-- What the fallback promises for a system and a cost vector: it returns a feasible selection, its
checks find what is possible, and the securities it settles have only one value. -/
structure FallbackSound (o : IPOracle n) (argsort : Argsort n) (c : Fin n → ℚ) : Prop where
  solved : ∀ z, o.solveFallback argsort c = some z → Feasible o.rows z
  checked : ∀ index value, (∃ z, Feasible o.rows z ∧ z index = value) →
    ∃ z, o.checkFeasibilityFallback index value = some z ∧ Feasible o.rows z ∧ z index = value
  settled : ∀ cvxpy given epsilon i value, o.OnFallback → given.get? i = none →
    (initFw (o.checkFeasibility cvxpy) given epsilon).settledSecurities.get? i = some value →
    ∀ z, Feasible o.rows z → z i = value

/-- The securities other than one, in their order. -/
def others (index : Fin n) : List (Fin n) := (List.finRange n).filter fun j => j ≠ index

section Sound

variable {o : IPOracle n} {argsort : Argsort n} {c : Fin n → ℚ} {index i : Fin n} {value : Bool}
  {z : Selection n}

lemma nodup_others (index : Fin n) : (others index).Nodup := (List.nodup_finRange n).filter _

lemma notMem_others (index : Fin n) : index ∉ others index := by
  simp [others]

lemma fillAround_eq_greedy : o.fillAround index value =
    greedy (NoEqualityAbove tolerance o.rows) (others index)
      (Function.update noneSelected index value) := by
  rw [greedy, others, List.foldl_filter, IPOracle.fillAround]
  congr
  funext z j
  by_cases hj : j = index
  · simp [hj]
  · simp [hj]

lemma fillAround_self : o.fillAround index value index = value := by
  rw [fillAround_eq_greedy, greedy_of_notMem (notMem_others index), Function.update_self]

/-- The enumeration keeps feasible selections only. -/
lemma feasible_of_solveFallback (hn : n ≤ 15) (h : o.solveFallback argsort c = some z) :
    Feasible o.rows z := by
  have hstep : ∀ best z', (∀ b, best = some b → Feasible o.rows b) →
      ∀ b, o.improveFallback c best z' = some b → Feasible o.rows b := by
    intro best z' hbest b hb
    unfold IPOracle.improveFallback at hb
    split at hb
    · next hfeasible =>
      split at hb
      · exact Option.some.inj hb ▸ hfeasible
      · split at hb
        · exact Option.some.inj hb ▸ hfeasible
        · exact hbest b hb
    · exact hbest b hb
  rw [IPOracle.solveFallback, if_pos hn] at h
  exact foldl_invariant (I := fun best => ∀ b, best = some b → Feasible o.rows b) hstep
    (by rintro b ⟨⟩) _ z h

/-- The enumeration finds a selection with the value, if there is one. -/
lemma checkFeasibilityFallback_of_le (hn : n ≤ 15) (h : ∃ z, Feasible o.rows z ∧ z index = value) :
    ∃ z, o.checkFeasibilityFallback index value = some z ∧ Feasible o.rows z ∧ z index = value := by
  obtain ⟨z, hz, hvalue⟩ := h
  obtain ⟨code, hcode, rfl⟩ := exists_bits z
  rw [IPOracle.checkFeasibilityFallback, if_pos hn]
  cases hfind : ((List.range (2 ^ n)).map (bits n)).find? fun z =>
      decide (z index = value) && decide (Feasible o.rows z) with
  | none =>
    have hnone := List.find?_eq_none.1 hfind (bits n code)
      (List.mem_map_of_mem (List.mem_range.2 hcode))
    simp [hvalue, hz] at hnone
  | some z =>
    have hfound := List.find?_some hfind
    simp only [Bool.and_eq_true, decide_eq_true_iff] at hfound
    exact ⟨z, rfl, hfound.2, hfound.1⟩

/-- A security is only settled on a value that it can have, and if it cannot have the other. -/
lemma settled_initFw (check : Fin n → Bool → Option (Selection n)) (given : Dict (Fin n) Bool)
    (epsilon : ℚ) (i : Fin n) (value : Bool)
    (h : (initFw check given epsilon).settledSecurities.get? i = some value) :
    given.get? i = some value ∨ check i (!value) = none := by
  have hstep : ∀ (s : InitState n) (j : Fin n), (s.extendedSettled.get? i = some value →
      given.get? i = some value ∨ check i (!value) = none) →
      (initStep check s j).extendedSettled.get? i = some value →
        given.get? i = some value ∨ check i (!value) = none := by
    intro s j hs h
    rw [initStep] at h
    split at h
    · exact hs h
    · next one hone hzero =>
      rw [Dict.get?_set] at h
      split at h
      · next hji =>
        obtain rfl := Option.some.inj h
        exact .inr (hji ▸ hzero)
      · exact hs h
    · next zero hone hzero =>
      rw [Dict.get?_set] at h
      split at h
      · next hji =>
        obtain rfl := Option.some.inj h
        exact .inr (hji ▸ hone)
      · exact hs h
    · exact hs h
  exact foldl_invariant (I := fun s : InitState n => s.extendedSettled.get? i = some value →
    given.get? i = some value ∨ check i (!value) = none) hstep (fun h => .inl h) _ h

/-- A security that is found with one value only is settled on it. -/
lemma initFw_settles (check : Fin n → Bool → Option (Selection n)) (given : Dict (Fin n) Bool)
    (epsilon : ℚ) {one : Selection n} (hgiven : given.get? i = none) (hone : check i true = some one)
    (hzero : check i false = none) :
    (initFw check given epsilon).settledSecurities.get? i = some true := by
  have hstep : ∀ (l : List (Fin n)) (s : InitState n),
      i ∈ l ∨ s.extendedSettled.get? i = some true →
      (l.foldl (initStep check) s).extendedSettled.get? i = some true := by
    intro l
    induction l with
    | nil => exact fun s h => h.resolve_left List.not_mem_nil
    | cons j l ih =>
      intro s h
      refine ih _ ?_
      by_cases hji : j = i
      · subst hji
        refine .inr ?_
        simp [initStep, hone, hzero]
      · refine h.imp (fun hmem => (List.mem_cons.1 hmem).resolve_left (Ne.symm hji)) fun hs => ?_
        rw [initStep]
        split
        · exact hs
        · exact (Dict.get?_set_of_ne _ _ hji).trans hs
        · exact (Dict.get?_set_of_ne _ _ hji).trans hs
        · exact hs
  refine hstep _ _ (.inl ?_)
  simp [unsettled, hgiven]

/-- Checks that find what there is settle nothing wrongly. -/
lemma settled_of_checked (hchecked : ∀ index value, (∃ z, Feasible o.rows z ∧ z index = value) →
      ∃ z, o.checkFeasibilityFallback index value = some z ∧ Feasible o.rows z ∧ z index = value)
    (cvxpy : Fin n → Bool → Option (Selection n)) (given : Dict (Fin n) Bool) (epsilon : ℚ)
    (hfallback : o.OnFallback) (hgiven : given.get? i = none)
    (h : (initFw (o.checkFeasibility cvxpy) given epsilon).settledSecurities.get? i = some value)
    (hz : Feasible o.rows z) : z i = value := by
  rcases settled_initFw _ given epsilon i value h with hsettled | hnone
  · rw [hgiven] at hsettled
    cases hsettled
  · rw [IPOracle.checkFeasibility, if_pos hfallback] at hnone
    by_contra hne
    have hother : z i = !value := by
      cases hzi : z i <;> cases value <;> simp_all
    obtain ⟨z', hz', -⟩ := hchecked i (!value) ⟨z, hz, hother⟩
    rw [hnone] at hz'
    cases hz'

/-- Beyond 15 securities the fallback is sound exactly if the two greedy passes arrive at feasible
selections, the second one wherever there is any. -/
lemma fallbackSound_iff_greedy (hn : 15 < n) : FallbackSound o argsort c ↔
    Feasible o.rows (greedy (NoEqualityAbove 0 o.rows) (argsort.order c) noneSelected) ∧
      ∀ index value, (∃ z, Feasible o.rows z ∧ z index = value) →
        Feasible o.rows (o.fillAround index value) := by
  have hmany : ¬ n ≤ 15 := not_le.2 hn
  constructor
  · intro h
    refine ⟨h.solved _ (if_neg hmany), fun index value hexists => ?_⟩
    obtain ⟨z, hz, -⟩ := h.checked index value hexists
    rw [IPOracle.checkFeasibilityFallback, if_neg hmany] at hz
    dsimp only at hz
    split at hz
    · next hfill => exact hfill
    · cases hz
  · rintro ⟨hsolves, hchecks⟩
    have hchecked : ∀ index value, (∃ z, Feasible o.rows z ∧ z index = value) →
        ∃ z, o.checkFeasibilityFallback index value = some z ∧ Feasible o.rows z ∧
          z index = value := by
      intro index value hexists
      have hfill := hchecks index value hexists
      refine ⟨o.fillAround index value, ?_, hfill, fillAround_self⟩
      rw [IPOracle.checkFeasibilityFallback, if_neg hmany]
      exact if_pos hfill
    refine ⟨fun z hz => ?_, hchecked, ?_⟩
    · rw [IPOracle.solveFallback, if_neg hmany] at hz
      obtain rfl := Option.some.inj hz
      exact hsolves
    · intro cvxpy given epsilon i value hfallback hgiven hsettled z hz
      exact settled_of_checked hchecked cvxpy given epsilon hfallback hgiven hsettled hz

/-- The enumeration of up to 15 securities is sound. -/
lemma fallbackSound_of_le (hn : n ≤ 15) : FallbackSound o argsort c := by
  refine ⟨fun z hz => feasible_of_solveFallback hn hz,
    fun index value hexists => checkFeasibilityFallback_of_le hn hexists, ?_⟩
  intro cvxpy given epsilon i value hfallback hgiven hsettled z hz
  exact settled_of_checked (fun index value hexists => checkFeasibilityFallback_of_le hn hexists)
    cvxpy given epsilon hfallback hgiven hsettled hz

end Sound

end Evosport.Optimization
