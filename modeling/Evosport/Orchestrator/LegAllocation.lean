/-
The notionals of a bundle (`services/trader_orchestrator/execution_policies.py`).

`allocate_leg_notionals` shares a total out over the legs by their weights and puts what the
divisions leave over on the last leg.  `bundle_minimum_executable_notional_usd` derives from the
same weights, and from the floors of the venue, the smallest total whose shares all clear them.  The
second is the lower adjoint of the first: a total reaches the minimum exactly where every share
reaches its floor.
-/
import Mathlib.Algebra.BigOperators.Ring.List
import Mathlib.Algebra.Order.BigOperators.Group.List
import Mathlib.Algebra.Order.Field.Basic
import Mathlib.Tactic.FieldSimp
import Mathlib.Tactic.Linarith
import Mathlib.Tactic.Positivity
import Mathlib.Tactic.Ring

namespace Evosport.Orchestrator

/-! ## Shares -/

section Shares

variable {K : Type*} [Field K] [LinearOrder K] [IsStrictOrderedRing K]

/-- The shares of a total by given weights. -/
def sharesOf (weights : List K) (total : K) : List K :=
  weights.map fun weight => weight / weights.sum * total

lemma sum_sharesOf {weights : List K} (hsum : weights.sum ≠ 0) (total : K) :
    (sharesOf weights total).sum = total := by
  have hshare : sharesOf weights total = weights.map fun weight => weight * (total / weights.sum) :=
    List.map_congr_left fun weight _ => by ring
  rw [hshare, List.sum_map_mul_right, List.map_id', mul_div_cancel₀ _ hsum]

lemma sharesOf_nonneg {weights : List K} (hpos : ∀ weight ∈ weights, 0 < weight) {total : K}
    (htotal : 0 ≤ total) : ∀ share ∈ sharesOf weights total, 0 ≤ share := by
  intro share hshare
  obtain ⟨weight, hmem, rfl⟩ := List.mem_map.1 hshare
  have hsum : 0 ≤ weights.sum := List.sum_nonneg fun w hw => (hpos w hw).le
  exact mul_nonneg (div_nonneg (hpos weight hmem).le hsum) htotal

/-- A share reaches a floor where the total reaches the floor scaled up. -/
lemma le_share_iff {weight sum floor total : K} (hweight : 0 < weight) (hsum : 0 < sum) :
    floor * sum / weight ≤ total ↔ floor ≤ weight / sum * total := by
  rw [div_le_iff₀ hweight, div_mul_eq_mul_div, le_div_iff₀ hsum, mul_comm weight]

end Shares

/-! ## Legs -/

/-- What is read of a leg, its numbers as `safe_float` reads them. -/
structure BundleLeg where
  notionalWeight : Option ℚ := none
  limitPrice : Option ℚ := none
deriving DecidableEq, Repr

namespace BundleLeg

/-- `max(0.0001, safe_float(leg.get("notional_weight"), 1.0))` -/
def weight (leg : BundleLeg) : ℚ := max (1 / 10000) (leg.notionalWeight.getD 1)

/-- `safe_float(leg.get("limit_price"), 0.0)` -/
def price (leg : BundleLeg) : ℚ := leg.limitPrice.getD 0

lemma weight_pos (leg : BundleLeg) : 0 < leg.weight :=
  lt_of_lt_of_le (by norm_num) (le_max_left _ _)

end BundleLeg

/-- `MIN_BUNDLE_EXECUTION_SHARES` -/
def minBundleExecutionShares : ℚ := 5

/-- `allocate_leg_notionals` -/
def allocateLegNotionals (totalNotionalUsd : ℚ) (legs : List BundleLeg) : List ℚ :=
  let notional := max 0 totalNotionalUsd
  if legs = [] then []
  else
    let weights := legs.map BundleLeg.weight
    let totalWeight := weights.sum
    if totalWeight ≤ 0 then legs.map fun _ => notional / legs.length
    else
      let notionals := weights.map fun weight => weight / totalWeight * notional
      let drift := notional - notionals.sum
      notionals.modify (notionals.length - 1) (· + drift)

/-- The loop of `bundle_minimum_executable_notional_usd` over the legs that are left. -/
def minimumTotal (minOrder floorShares totalWeight : ℚ) : ℚ → List BundleLeg → Option ℚ
  | minimum, [] => if 0 < minimum then some minimum else none
  | minimum, leg :: legs =>
    if leg.price ≤ 0 then none
    else
      let minimum :=
        if 0 < minOrder then max minimum (minOrder * totalWeight / leg.weight) else minimum
      let minimum :=
        if 0 < floorShares then
          max minimum (floorShares * leg.price * totalWeight / leg.weight)
        else minimum
      minimumTotal minOrder floorShares totalWeight minimum legs

/-- `bundle_minimum_executable_notional_usd` -/
def bundleMinimumExecutableNotionalUsd (legs : List BundleLeg) (minOrderSizeUsd : ℚ)
    (minShares : ℚ := minBundleExecutionShares) : Option ℚ :=
  if legs = [] then none
  else
    let totalWeight := (legs.map BundleLeg.weight).sum
    if totalWeight ≤ 0 then none
    else minimumTotal (max 0 minOrderSizeUsd) (max 0 minShares) totalWeight 0 legs

/-! ## The allocation -/

section Allocation

variable {legs : List BundleLeg}

lemma weights_pos (legs : List BundleLeg) : ∀ weight ∈ legs.map BundleLeg.weight, 0 < weight := by
  intro weight hmem
  obtain ⟨leg, -, rfl⟩ := List.mem_map.1 hmem
  exact leg.weight_pos

lemma totalWeight_pos (hne : legs ≠ []) : 0 < (legs.map BundleLeg.weight).sum :=
  List.sum_pos _ (weights_pos legs) (by simpa using hne)

/-- In exact arithmetic nothing is left over: the allocation is the shares. -/
lemma allocateLegNotionals_eq (hne : legs ≠ []) {total : ℚ} (htotal : 0 ≤ total) :
    allocateLegNotionals total legs = sharesOf (legs.map BundleLeg.weight) total := by
  have hsum := totalWeight_pos hne
  have hdrift := sum_sharesOf hsum.ne' total
  rw [sharesOf] at hdrift
  simp only [allocateLegNotionals, max_eq_right htotal, if_neg hne, if_neg (not_le.2 hsum), hdrift,
    sub_self, add_zero]
  exact List.modify_id _ _

/-- The legs beside their notionals. -/
lemma zip_allocateLegNotionals (hne : legs ≠ []) {total : ℚ} (htotal : 0 ≤ total) :
    legs.zip (allocateLegNotionals total legs) = legs.map fun leg =>
      (leg, leg.weight / (legs.map BundleLeg.weight).sum * total) := by
  rw [allocateLegNotionals_eq hne htotal, sharesOf, List.map_map]
  exact List.map_prod_left_eq_zip.symm

/-- One notional for each leg, none negative, and the total together. -/
structure IsAllocation (total : ℚ) (legs : List BundleLeg) (notionals : List ℚ) : Prop where
  length : notionals.length = legs.length
  nonneg : ∀ notional ∈ notionals, 0 ≤ notional
  sum : notionals.sum = total

lemma isAllocation (hne : legs ≠ []) {total : ℚ} (htotal : 0 ≤ total) :
    IsAllocation total legs (allocateLegNotionals total legs) := by
  rw [allocateLegNotionals_eq hne htotal]
  constructor
  · rw [sharesOf, List.length_map, List.length_map]
  · exact sharesOf_nonneg (weights_pos legs) htotal
  · exact sum_sharesOf (totalWeight_pos hne).ne' total

end Allocation

/-! ## The minimum -/

/-- The notional clears both floors of its leg. -/
def Clears (minOrder minShares : ℚ) (leg : BundleLeg) (notional : ℚ) : Prop :=
  minOrder ≤ notional ∧ minShares * leg.price ≤ notional

/-- A total is at least what the loop has found where it is at least what the loop started from and
gives every leg that is left its floors. -/
lemma minimumTotal_spec {minOrder floorShares totalWeight : ℚ} (horder : 0 ≤ minOrder)
    (hshares : 0 ≤ floorShares) (hfloor : 0 < minOrder ∨ 0 < floorShares)
    (hweight : 0 < totalWeight) {legs : List BundleLeg} (hprices : ∀ leg ∈ legs, 0 < leg.price)
    {minimum : ℚ} (hminimum : 0 ≤ minimum) (hstart : 0 < minimum ∨ legs ≠ []) :
    ∃ s, minimumTotal minOrder floorShares totalWeight minimum legs = some s ∧
      ∀ total, 0 ≤ total → (s ≤ total ↔ minimum ≤ total ∧ ∀ leg ∈ legs,
        Clears minOrder floorShares leg (leg.weight / totalWeight * total)) := by
  induction legs generalizing minimum with
  | nil =>
    have hpos : 0 < minimum := hstart.resolve_right fun h => h rfl
    exact ⟨minimum, if_pos hpos, fun total _ => by simp⟩
  | cons leg legs ih =>
    obtain ⟨hprice, hprices⟩ := List.forall_mem_cons.1 hprices
    have hscaled : ∀ {floor : ℚ}, 0 < floor → 0 < floor * totalWeight / leg.weight := fun hpos =>
      div_pos (mul_pos hpos hweight) leg.weight_pos
    -- A floor of zero is left out of the maximum, and every share clears it.
    have hraise : ∀ {m floor : ℚ}, 0 ≤ m → 0 ≤ floor →
        let raised := if 0 < floor then max m (floor * totalWeight / leg.weight) else m
        (0 ≤ raised ∧ (0 < m ∨ 0 < floor → 0 < raised)) ∧ ∀ total, 0 ≤ total →
          (raised ≤ total ↔ m ≤ total ∧ floor ≤ leg.weight / totalWeight * total) := by
      intro m floor hm hfloor
      dsimp only
      split
      case isTrue hpos =>
        refine ⟨⟨le_max_of_le_left hm, fun _ => lt_max_of_lt_right (hscaled hpos)⟩, ?_⟩
        intro total _
        rw [max_le_iff, le_share_iff leg.weight_pos hweight]
      case isFalse hzero =>
        refine ⟨⟨hm, fun h => h.resolve_right hzero⟩, fun total htotal => ?_⟩
        have hshare : 0 ≤ leg.weight / totalWeight * total :=
          mul_nonneg (div_pos leg.weight_pos hweight).le htotal
        rw [and_iff_left (le_trans (not_lt.1 hzero) hshare)]
    obtain ⟨⟨hfirst, hfirst'⟩, hiff⟩ := hraise hminimum horder
    obtain ⟨⟨hsecond, hsecond'⟩, hiff'⟩ := hraise hfirst (mul_nonneg hshares hprice.le)
    simp only [mul_pos_iff_of_pos_right hprice] at hsecond hsecond' hiff'
    obtain ⟨s, hs, hspec⟩ := ih hprices hsecond
      (.inl (hsecond' (hfloor.imp_left fun h => hfirst' (.inr h))))
    refine ⟨s, ?_, fun total htotal => ?_⟩
    · rw [minimumTotal, if_neg (not_le.2 hprice)]
      exact hs
    · rw [hspec total htotal, hiff' total htotal, hiff total htotal, List.forall_mem_cons, Clears]
      tauto

/-- A floor below zero asks no more of a share than none. -/
lemma clears_max_iff {minOrder minShares notional : ℚ} {leg : BundleLeg} (hprice : 0 < leg.price)
    (hnotional : 0 ≤ notional) :
    Clears (max 0 minOrder) (max 0 minShares) leg notional ↔
      Clears minOrder minShares leg notional := by
  rw [Clears, Clears, max_le_iff, and_iff_right hnotional, max_mul_of_nonneg _ _ hprice.le, zero_mul,
    max_le_iff, and_iff_right hnotional]

/-- The allocation is exact, and the minimum is the least total whose notionals all clear the
floors. -/
theorem allocation_exact {legs : List BundleLeg} (hne : legs ≠ []) :
    (∀ total, 0 ≤ total → IsAllocation total legs (allocateLegNotionals total legs)) ∧
      ∀ minOrder minShares : ℚ, (∀ leg ∈ legs, 0 < leg.price) → 0 < minOrder ∨ 0 < minShares →
        ∃ s, bundleMinimumExecutableNotionalUsd legs minOrder minShares = some s ∧
          ∀ total, 0 ≤ total → (s ≤ total ↔
            ∀ p ∈ legs.zip (allocateLegNotionals total legs),
              Clears minOrder minShares p.1 p.2) := by
  refine ⟨fun total htotal => isAllocation hne htotal, fun minOrder minShares hprices hfloor => ?_⟩
  have hweight := totalWeight_pos hne
  have hfloor : 0 < max 0 minOrder ∨ 0 < max 0 minShares := by
    simpa only [lt_max_iff, lt_irrefl, false_or] using hfloor
  obtain ⟨s, hs, hspec⟩ := minimumTotal_spec (le_max_left _ _) (le_max_left _ _) hfloor hweight
    hprices le_rfl (.inr hne)
  refine ⟨s, ?_, fun total htotal => ?_⟩
  · rw [bundleMinimumExecutableNotionalUsd, if_neg hne, if_neg (not_le.2 hweight), hs]
  · rw [hspec total htotal, and_iff_right htotal, zip_allocateLegNotionals hne htotal,
      List.forall_mem_map]
    refine forall₂_congr fun leg hleg => clears_max_iff (hprices leg hleg) ?_
    exact mul_nonneg (div_pos leg.weight_pos hweight).le htotal

/-- Two legs, one of them with a weight below zero. -/
def twoLegs : List BundleLeg := [⟨none, some (1 / 2)⟩, ⟨some (-3), some (1 / 4)⟩]

theorem two_legs_exact :
    IsAllocation 12 twoLegs (allocateLegNotionals 12 twoLegs) ∧
      ∃ s, bundleMinimumExecutableNotionalUsd twoLegs 1 5 = some s ∧
        ∀ total, 0 ≤ total → (s ≤ total ↔
          ∀ p ∈ twoLegs.zip (allocateLegNotionals total twoLegs), Clears 1 5 p.1 p.2) := by
  have h := allocation_exact (show twoLegs ≠ [] from List.cons_ne_nil _ _)
  refine ⟨h.1 12 (by norm_num), h.2 1 5 ?_ (.inl one_pos)⟩
  simp [twoLegs, BundleLeg.price]

example : bundleMinimumExecutableNotionalUsd twoLegs 1 5 = some 12501.25 := by decide +kernel

end Evosport.Orchestrator
