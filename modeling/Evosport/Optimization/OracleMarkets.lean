/-
Whether the oracle's fallback is sound.

The systems that `create_cross_market_oracle` builds have one equality for each market: it asks for
one of the market's securities, and no security is in two markets.  For such equalities the greedy
passes of the fallback need not be run to know what they select: of each market the first securities
in the order of the pass, as many as the market asks for (`greedy_eq_leaders`).  That meets every
equality, but the passes ignore the inequalities, so beyond 15 securities the fallback is sound if
and only if the inequalities hold of the first securities (`fallbackSound_of_leaders`).
-/
import Evosport.Optimization.OracleFallback
import Mathlib.Algebra.Order.BigOperators.Group.Finset

namespace Evosport.Optimization

open Lib Lib.BinaryProgram

variable {n : ℕ}

/-! ## Markets -/

/-- The equalities are markets: each asks for a number of its securities, and no security is in two
of them. -/
structure Markets (rows : List (Row n)) : Prop where
  unit : ∀ r ∈ rows, r.isEquality = true → ∀ i, r.coeff i = 0 ∨ r.coeff i = 1
  whole : ∀ r ∈ rows, r.isEquality = true → ∃ k : ℤ, r.bound = k
  disjoint : ∀ r ∈ rows, ∀ r' ∈ rows, r.isEquality = true → r'.isEquality = true →
    ∀ i, r.coeff i = 1 → r'.coeff i = 1 → r = r'

/-- How many securities of a market come before one in an order. -/
def before (r : Row n) (order : List (Fin n)) (j : Fin n) : ℕ :=
  (order.takeWhile fun i => i ≠ j).countP fun i => r.coeff i = 1

/-- Of each market the first securities in the order, as many as it asks for beyond those that are
selected at the start, and each security in no market. -/
def leaders (rows : List (Row n)) (order : List (Fin n)) (start : Selection n) : Selection n :=
  fun j =>
    if j ∈ order then
      decide (∀ r ∈ rows, r.isEquality = true → r.coeff j = 1 →
        r.lhs start + before r order j + 1 ≤ r.bound)
    else start j

/-- The inequalities hold of the selection, up to the tolerance. -/
def InequalitiesHold (rows : List (Row n)) (z : Selection n) : Prop :=
  ∀ r ∈ rows, r.isEquality = false → r.bound - tolerance ≤ r.lhs z

instance (rows : List (Row n)) (z : Selection n) : Decidable (InequalitiesHold rows z) :=
  inferInstanceAs (Decidable (∀ r ∈ rows, r.isEquality = false → r.bound - tolerance ≤ r.lhs z))

/-- The inequalities hold of the first securities of each market, in the order of the costs, and
also around every value that a security can have, in the order of the securities. -/
structure LeadersMeet (rows : List (Row n)) (order : List (Fin n)) : Prop where
  solves : InequalitiesHold rows (leaders rows order noneSelected)
  checks : ∀ index value, (∃ z, Feasible rows z ∧ z index = value) →
    InequalitiesHold rows
      (leaders rows (others index) (Function.update noneSelected index value))

section Rows

variable {r : Row n} {z z' : Selection n} {j : Fin n}

lemma lhs_update_true (hj : z j = false) :
    r.lhs (Function.update z j true) = r.lhs z + r.coeff j := by
  have hothers : ∀ i ∈ Finset.univ.erase j,
      (if Function.update z j true i then r.coeff i else 0) = if z i then r.coeff i else 0 := by
    intro i hi
    rw [Function.update_of_ne (Finset.ne_of_mem_erase hi)]
  rw [Row.lhs, Row.lhs, ← Finset.add_sum_erase _ _ (Finset.mem_univ j),
    ← Finset.add_sum_erase _ (fun i => if z i then r.coeff i else 0) (Finset.mem_univ j),
    Finset.sum_congr rfl hothers, Function.update_self, hj]
  simp only [if_true, Bool.false_eq_true, if_false]
  ring

/-- With units for weights, the left-hand side counts. -/
lemma exists_lhs_eq (hunit : ∀ i, r.coeff i = 0 ∨ r.coeff i = 1) (z : Selection n) :
    ∃ k : ℤ, r.lhs z = k := by
  refine ⟨∑ i, if z i ∧ r.coeff i = 1 then 1 else 0, ?_⟩
  rw [Row.lhs, Int.cast_sum]
  refine Finset.sum_congr rfl fun i _ => ?_
  rcases hunit i with h | h <;> cases z i <;> simp [h]

/-- With units for weights, selecting more of them raises the left-hand side. -/
lemma lhs_mono (hunit : ∀ i, r.coeff i = 0 ∨ r.coeff i = 1)
    (h : ∀ i, r.coeff i = 1 → z i = true → z' i = true) : r.lhs z ≤ r.lhs z' := by
  refine Finset.sum_le_sum fun i _ => ?_
  rcases hunit i with hi | hi
  · simp [hi]
  · cases hz : z i with
    | false =>
      simp only [hi, Bool.false_eq_true, if_false]
      split <;> norm_num
    | true => simp [h i hi hz]

end Rows

section Leaders

variable {rows : List (Row n)} {r : Row n} {order : List (Fin n)} {start z : Selection n}
  {j index : Fin n} {value : Bool} {tol : ℚ}

/-- The markets as disjoint quotas. -/
def Markets.quotas (h : Markets rows) :
    Quotas (Fin n) {r : Row n // r ∈ rows ∧ r.isEquality = true} ℚ where
  member r i := decide (r.1.coeff i = 1)
  load r z := r.1.lhs z
  quota r := r.1.bound
  load_update r z j hj := by
    rw [lhs_update_true hj]
    rcases h.unit r.1 r.2.1 r.2.2 j with hcoeff | hcoeff <;> simp [hcoeff]
  disjoint r r' i hi hi' := Subtype.ext (h.disjoint r.1 r.2.1 r'.1 r'.2.1 r.2.2 r'.2.2 i
    (of_decide_eq_true hi) (of_decide_eq_true hi'))

/-- A tolerance below one makes no difference to a count. -/
lemma Markets.le_add_iff (h : Markets rows) (hr : r ∈ rows) (heq : r.isEquality = true)
    (htol : 0 ≤ tol) (htol' : tol < 1) : r.lhs z ≤ r.bound + tol ↔ r.lhs z ≤ r.bound := by
  obtain ⟨k, hk⟩ := exists_lhs_eq (h.unit r hr heq) z
  obtain ⟨b, hb⟩ := h.whole r hr heq
  rw [hk, hb]
  constructor
  · intro hle
    have hlt : (k : ℚ) < (b + 1 : ℤ) := by
      push_cast
      linarith
    exact_mod_cast Int.lt_add_one_iff.1 (by exact_mod_cast hlt)
  · intro hle
    linarith

lemma Markets.ok_iff (h : Markets rows) (htol : 0 ≤ tol) (htol' : tol < 1) (z : Selection n) :
    NoEqualityAbove tol rows z ↔ h.quotas.Ok z := by
  constructor
  · intro hz g
    exact (h.le_add_iff g.2.1 g.2.2 htol htol').1 (hz g.1 g.2.1 g.2.2)
  · intro hz r hr heq
    exact (h.le_add_iff hr heq htol htol').2 (hz ⟨r, hr, heq⟩)

/-- A market that is met up to the tolerance is met. -/
lemma Markets.lhs_eq (h : Markets rows) (hz : Feasible rows z) (hr : r ∈ rows)
    (heq : r.isEquality = true) : r.lhs z = r.bound := by
  have hwithin := hz r hr
  rw [Within, if_pos heq, abs_le] at hwithin
  -- both sides are whole numbers, and the tolerance is less than one
  obtain ⟨k, hk⟩ := exists_lhs_eq (h.unit r hr heq) z
  obtain ⟨b, hb⟩ := h.whole r hr heq
  rw [hk, hb, tolerance] at hwithin
  have hle : k < b + 1 := by
    have : (k : ℚ) < (b + 1 : ℤ) := by
      push_cast
      linarith [hwithin.2]
    exact_mod_cast this
  have hge : b < k + 1 := by
    have : (b : ℚ) < (k + 1 : ℤ) := by
      push_cast
      linarith [hwithin.1]
    exact_mod_cast this
  rw [hk, hb, show k = b by omega]

/-- A start that a feasible selection extends exceeds no market. -/
lemma Markets.noEqualityAbove_start (h : Markets rows) (hz : Feasible rows z) (htol : 0 ≤ tol)
    (hstart : ∀ i, start i = true → z i = true) : NoEqualityAbove tol rows start := by
  intro r hr heq
  have hle : r.lhs start ≤ r.lhs z := lhs_mono (h.unit r hr heq) fun i _ hi => hstart i hi
  rw [h.lhs_eq hz hr heq] at hle
  linarith

/-- The greedy pass selects the first securities of each market. -/
lemma greedy_eq_leaders (h : Markets rows) (htol : 0 ≤ tol) (htol' : tol < 1)
    (hnodup : order.Nodup) (hoff : ∀ j ∈ order, start j = false)
    (hstart : NoEqualityAbove tol rows start) :
    greedy (NoEqualityAbove tol rows) order start = leaders rows order start := by
  funext j
  rw [leaders]
  split
  · next hj =>
    have hkept := Quotas.greedy_iff (h.ok_iff htol htol') hnodup hoff hstart hj
    rw [Bool.eq_iff_iff, hkept, decide_eq_true_iff]
    constructor
    · intro hroom r hr heq hcoeff
      exact hroom ⟨r, hr, heq⟩ (decide_eq_true hcoeff)
    · intro hroom g hg
      exact hroom g.1 g.2.1 g.2.2 (of_decide_eq_true hg)
  · next hj => exact greedy_of_notMem hj

/-- The pass meets every market that a feasible selection with the same start meets. -/
lemma lhs_greedy (h : Markets rows) (htol : 0 ≤ tol) (htol' : tol < 1) (hnodup : order.Nodup)
    (hoff : ∀ j ∈ order, start j = false) (hz : Feasible rows z)
    (hstart : ∀ i, start i = true → z i = true) (hout : ∀ i ∉ order, z i = start i) (hr : r ∈ rows)
    (heq : r.isEquality = true) :
    r.lhs (greedy (NoEqualityAbove tol rows) order start) = r.bound := by
  have hok := h.noEqualityAbove_start hz htol hstart
  have hbelow := (h.le_add_iff hr heq htol htol').1
    (Quotas.ok_greedy hnodup hoff hok r hr heq)
  refine le_antisymm hbelow ?_
  by_contra hshort
  -- a market with room left has every security selected, and so no less than the feasible selection
  have hall : ∀ i, r.coeff i = 1 → z i = true →
      greedy (NoEqualityAbove tol rows) order start i = true := by
    intro i hi hzi
    by_cases hmem : i ∈ order
    · by_contra hleft
      -- what was left out was left out by a market that is full; the markets are disjoint, so by this one
      obtain ⟨g, hg, hfull⟩ := Quotas.full_of_left (h.ok_iff htol htol') hnodup hoff hok hmem
        (Bool.eq_false_iff.2 hleft)
      obtain rfl : g.1 = r :=
        h.disjoint g.1 g.2.1 r hr g.2.2 heq i (of_decide_eq_true hg) hi
      obtain ⟨k, hk⟩ := exists_lhs_eq (h.unit g.1 hr heq)
        (greedy (NoEqualityAbove tol rows) order start)
      obtain ⟨b, hb⟩ := h.whole g.1 hr heq
      replace hfull : g.1.bound < g.1.lhs (greedy (NoEqualityAbove tol rows) order start) + 1 :=
        hfull
      rw [hk, hb] at hshort hfull
      have hlt : b < k + 1 := by exact_mod_cast hfull
      have hlt' : k < b := by exact_mod_cast not_le.1 hshort
      omega
    · rw [greedy_of_notMem hmem, ← hout i hmem]
      exact hzi
  have hle := lhs_mono (h.unit r hr heq) hall
  rw [h.lhs_eq hz hr heq] at hle
  exact hshort hle

/-- The pass arrives at a feasible selection exactly if the inequalities hold of the first
securities. -/
lemma feasible_greedy_iff (h : Markets rows) (htol : 0 ≤ tol) (htol' : tol < 1)
    (hnodup : order.Nodup) (hoff : ∀ j ∈ order, start j = false) (hz : Feasible rows z)
    (hstart : ∀ i, start i = true → z i = true) (hout : ∀ i ∉ order, z i = start i) :
    Feasible rows (greedy (NoEqualityAbove tol rows) order start) ↔
      InequalitiesHold rows (leaders rows order start) := by
  rw [← greedy_eq_leaders h htol htol' hnodup hoff (h.noEqualityAbove_start hz htol hstart)]
  constructor
  · intro hfeasible r hr hne
    have hwithin := hfeasible r hr
    rwa [Within, if_neg (by simp [hne])] at hwithin
  · intro hholds r hr
    rw [Within]
    split
    · next heq =>
      rw [lhs_greedy h htol htol' hnodup hoff hz hstart hout hr heq, sub_self, abs_zero, tolerance]
      norm_num
    · next hne => exact hholds r hr (Bool.eq_false_iff.2 hne)

end Leaders

section Sound

variable {rows : List (Row n)} {index : Fin n} {value : Bool}

/-- The pass around a value arrives at a feasible selection, where there is one with the value,
exactly if the inequalities hold of the first securities. -/
lemma feasible_fillAround_iff {o : IPOracle n} (h : Markets o.rows)
    (hexists : ∃ z, Feasible o.rows z ∧ z index = value) :
    Feasible o.rows (o.fillAround index value) ↔ InequalitiesHold o.rows
      (leaders o.rows (others index) (Function.update noneSelected index value)) := by
  obtain ⟨z, hz, hvalue⟩ := hexists
  rw [fillAround_eq_greedy]
  refine feasible_greedy_iff h (by norm_num [tolerance]) (by norm_num [tolerance])
    (nodup_others index) (fun j hj => ?_) hz (fun i hi => ?_) (fun i hi => ?_)
  · rw [Function.update_of_ne (by rintro rfl; exact notMem_others j hj)]
    rfl
  · by_cases hii : i = index
    · subst hii
      rw [Function.update_self] at hi
      rw [hvalue, hi]
    · rw [Function.update_of_ne hii] at hi
      cases hi
  · have hii : i = index := by simpa [others] using hi
    rw [hii, Function.update_self, hvalue]

/-- Beyond 15 securities, on markets, the fallback is sound exactly if the inequalities hold of the
first securities. -/
lemma fallbackSound_iff_of_markets {o : IPOracle n} {argsort : Argsort n} {c : Fin n → ℚ}
    (hn : 15 < n) (hsolution : ∃ z, Admissible o.rows z) (h : Markets o.rows) :
    FallbackSound o argsort c ↔ LeadersMeet o.rows (argsort.order c) := by
  obtain ⟨z, hz⟩ := hsolution
  have hfeasible : Feasible o.rows z := by
    intro r hr
    have hadmits := hz r hr
    rw [Row.Admits] at hadmits
    rw [Within]
    split
    · next heq =>
      rw [if_pos heq] at hadmits
      rw [hadmits, sub_self, abs_zero, tolerance]
      norm_num
    · next hne =>
      rw [if_neg hne] at hadmits
      rw [tolerance]
      linarith
  have hnodup : (argsort.order c).Nodup := (argsort.perm c).nodup_iff.2 (List.nodup_finRange n)
  have hall : ∀ i, i ∈ argsort.order c := fun i => (argsort.perm c).mem_iff.2 (List.mem_finRange i)
  have hsolves := feasible_greedy_iff h le_rfl one_pos hnodup
    (fun j _ => (rfl : noneSelected j = false)) hfeasible (by simp [noneSelected])
    (fun i hi => absurd (hall i) hi)
  rw [fallbackSound_iff_greedy hn, hsolves]
  constructor
  · rintro ⟨hfirst, hchecks⟩
    exact ⟨hfirst, fun index value hexists =>
      (feasible_fillAround_iff h hexists).1 (hchecks index value hexists)⟩
  · intro hleaders
    exact ⟨hleaders.solves, fun index value hexists =>
      (feasible_fillAround_iff h hexists).2 (hleaders.checks index value hexists)⟩

/-- The fallback is sound for a system and a cost vector if there are at most 15 securities, or its
equalities are markets and the inequalities hold of their first securities; and among the systems of
markets with more securities only if they do. -/
theorem fallbackSound_of_leaders (o : IPOracle n) (argsort : Argsort n) (c : Fin n → ℚ)
    (hsolution : ∃ z, Admissible o.rows z) :
    ((15 < n → Markets o.rows ∧ LeadersMeet o.rows (argsort.order c)) →
        FallbackSound o argsort c) ∧
      (Markets o.rows → FallbackSound o argsort c →
        15 < n → LeadersMeet o.rows (argsort.order c)) := by
  refine ⟨fun hcondition => ?_, fun h hsound hn => ?_⟩
  · by_cases hn : n ≤ 15
    · exact fallbackSound_of_le hn
    · obtain ⟨h, hleaders⟩ := hcondition (not_le.1 hn)
      exact (fallbackSound_iff_of_markets (not_le.1 hn) hsolution h).2 hleaders
  · exact (fallbackSound_iff_of_markets hn hsolution h).1 hsound

end Sound

/-! ## The systems of the code -/

/-- What `create_cross_market_oracle` builds are markets. -/
lemma markets_createCrossMarketOracle (nA nB : ℕ) (dependencies : List (OracleDependency nA nB))
    (cvxpyAvailable : Bool) :
    Markets (createCrossMarketOracle nA nB dependencies cvxpyAvailable).rows := by
  have hcases : ∀ r ∈ (createCrossMarketOracle nA nB dependencies cvxpyAvailable).rows,
      r.isEquality = true → r = ⟨fun i => if i.val < nA then 1 else 0, 1, true⟩ ∨
        r = ⟨fun i => if nA ≤ i.val then 1 else 0, 1, true⟩ := by
    intro r hr heq
    rcases List.mem_cons.1 hr with hA | hr
    · exact .inl hA
    rcases List.mem_cons.1 hr with hB | hr
    · exact .inr hB
    -- the row of a dependency is never an equality
    obtain ⟨d, -, rfl⟩ := List.mem_map.1 hr
    unfold OracleDependency.row at heq
    dsimp only at heq
    split at heq <;> cases heq
  refine ⟨fun r hr heq i => ?_, fun r hr heq => ⟨1, ?_⟩, fun r hr r' hr' heq heq' i hi hi' => ?_⟩
  · rcases hcases r hr heq with rfl | rfl
    · exact (em (i.val < nA)).symm.imp (fun h => if_neg h) fun h => if_pos h
    · exact (em (nA ≤ i.val)).symm.imp (fun h => if_neg h) fun h => if_pos h
  · rcases hcases r hr heq with rfl | rfl <;> simp
  · rcases hcases r hr heq with rfl | rfl <;> rcases hcases r' hr' heq' with rfl | rfl
    · rfl
    · simp only [ite_eq_left_iff, zero_ne_one, imp_false, not_not] at hi hi'
      omega
    · simp only [ite_eq_left_iff, zero_ne_one, imp_false, not_not] at hi hi'
      omega
    · rfl

/-- Two markets of eight outcomes, where an outcome of A implies the first of B. -/
def impliesFirst (premise : Fin 8) : IPOracle (8 + 8) :=
  createCrossMarketOracle 8 8 [⟨premise, 0, "implies"⟩] false

/-- Where the premise is the second outcome, the passes never come across the implication. -/
theorem impliesFirst_sound :
    FallbackSound (impliesFirst 1) (stableArgsort (8 + 8)) fun _ => 0 := by
  refine (fallbackSound_of_leaders _ _ _ ⟨jointOutcome 1 0, by decide +kernel⟩).1 fun _ => ?_
  refine ⟨markets_createCrossMarketOracle 8 8 _ false, by decide +kernel, ?_⟩
  have hchecks : ∀ (index : Fin (8 + 8)) (value : Bool),
      InequalitiesHold (impliesFirst 1).rows (leaders (impliesFirst 1).rows (others index)
        (Function.update noneSelected index value)) := by
    decide +kernel
  exact fun index value _ => hchecks index value

/-- The second outcomes may come true, and yet the first outcome of B is settled as true. -/
theorem impliesFirst_settled_wrongly :
    ¬ FallbackSound (impliesFirst 0) (stableArgsort (8 + 8)) fun _ => 0 := by
  intro h
  obtain ⟨one, hone⟩ :
      ∃ one, (impliesFirst 0).checkFeasibility (fun _ _ => none) 8 true = some one :=
    Option.isSome_iff_exists.1 (by decide +kernel)
  have hzero : (impliesFirst 0).checkFeasibility (fun _ _ => none) 8 false = none :=
    Option.isNone_iff_eq_none.1 (by decide +kernel)
  have hsettled := initFw_settles ((impliesFirst 0).checkFeasibility fun _ _ => none) Dict.empty 0
    rfl hone hzero
  have hwrong := h.settled (fun _ _ => none) Dict.empty 0 8 true (by decide) rfl hsettled
    (jointOutcome 1 1) (by decide +kernel)
  revert hwrong
  decide

end Evosport.Optimization
