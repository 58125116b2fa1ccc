/-
One order for one leg.

The three layers of retries (after an exception, after a missing book, after a post-only order that
would cross) resubmit whenever the call before them seems to have failed.  A call seems to have
failed when it raises, and when its order comes back cancelled, expired or failed; in neither case
does the code find out what the venue kept of it.
-/
import Evosport.Execution.LegSubmit
import Mathlib.Algebra.Order.BigOperators.Group.List

namespace Evosport.Execution

open Lib Backtest

/-! ## What the venue keeps -/

/-- The venue holds the order, or has filled some of it. -/
def Placed.Kept (c : Placed) : Prop := c.reply.kept.isSome

instance (c : Placed) : Decidable c.Kept := inferInstanceAs (Decidable (_ = _))

lemma Placed.Active.kept {c : Placed} (h : c.Active) : c.Kept := by
  unfold Placed.Active at h
  split at h
  · next order horder => exact c.reply.kept_of_active order horder h
  · exact h.elim

/-- The shares filled for the call. -/
def Placed.filled (c : Placed) : ℚ := c.reply.kept.getD 0

lemma Placed.filled_of_not_kept {c : Placed} (h : ¬c.Kept) : c.filled = 0 := by
  unfold Placed.Kept at h
  rw [Placed.filled, Option.not_isSome_iff_eq_none.1 h]
  rfl

lemma Placed.filled_le (c : Placed) : c.filled ≤ max 0 c.call.size := by
  unfold Placed.filled
  cases hkept : c.reply.kept with
  | none => exact le_max_left _ _
  | some f => exact (c.reply.kept_bounds f hkept).2

/-- The calls whose orders the venue keeps. -/
def kept (calls : List Placed) : List Placed := calls.filter fun c => decide c.Kept

/-- The shares filled for the calls. -/
def filled (calls : List Placed) : ℚ := (calls.map Placed.filled).sum

lemma kept_eq_nil_iff {calls : List Placed} : kept calls = [] ↔ ∀ c ∈ calls, ¬c.Kept := by
  simp [kept]

lemma filled_eq_zero {calls : List Placed} (h : ∀ c ∈ calls, ¬c.Kept) : filled calls = 0 :=
  List.sum_eq_zero fun f hf => by
    obtain ⟨c, hc, rfl⟩ := List.mem_map.1 hf
    exact Placed.filled_of_not_kept (h c hc)

/-- Every order that the venue keeps came back with an active status. -/
def KeptAreActive (calls : List Placed) : Prop := ∀ c ∈ calls, c.Kept → c.Active

namespace Reports

variable {status : LegStatus} {calls : List Placed}

/-- The venue keeps one order at most, and none when the status is `failed`, exactly when each order
that it keeps came back active. -/
lemma one_kept_iff (h : Reports status calls) :
    (kept calls).length ≤ 1 ∧ (status = .failed → kept calls = []) ↔ KeptAreActive calls := by
  cases h with
  | failed hcalls =>
    constructor
    · rintro ⟨-, hnone⟩ c hc hkept
      exact absurd hkept (kept_eq_nil_iff.1 (hnone rfl) c hc)
    · intro hactive
      have hnone : kept calls = [] :=
        kept_eq_nil_iff.2 fun c hc hkept => hcalls c hc (hactive c hc hkept)
      exact ⟨by simp [hnone], fun _ => hnone⟩
  | @active _ before last hstatus hlast hbefore =>
    have hlength : (kept (before ++ [last])).length = (kept before).length + 1 := by
      simp [kept, hlast.kept]
    constructor
    · rintro ⟨hone, -⟩ c hc hkept
      rcases List.mem_append.1 hc with hc | hc
      · have hnone : kept before = [] := List.eq_nil_of_length_eq_zero (by omega)
        exact absurd hkept (kept_eq_nil_iff.1 hnone c hc)
      · rw [List.mem_singleton.1 hc]
        exact hlast
    · intro hactive
      have hnone : kept before = [] := kept_eq_nil_iff.2 fun c hc hkept =>
        hbefore c hc (hactive c (List.mem_append_left _ hc) hkept)
      refine ⟨?_, fun hfailed => absurd hfailed hstatus⟩
      rw [hlength, hnone, List.length_nil]

/-- Where each order that the venue keeps came back active, one order is filled at most. -/
lemma filled_le (h : Reports status calls) (hactive : KeptAreActive calls) {size : ℚ}
    (hsize : 0 ≤ size) (hcalls : ∀ c ∈ calls, c.call.size = size) : filled calls ≤ size := by
  cases h with
  | failed hfailed =>
    exact (filled_eq_zero fun c hc hkept => hfailed c hc (hactive c hc hkept)).trans_le hsize
  | @active _ before last _ hlast hbefore =>
    have hnone : filled before = 0 := filled_eq_zero fun c hc hkept =>
      hbefore c hc (hactive c (List.mem_append_left _ hc) hkept)
    have hlastSize : last.call.size = size := hcalls last (List.mem_append_right _ (by simp))
    calc filled (before ++ [last]) = filled before + last.filled := by simp [filled]
      _ = last.filled := by rw [hnone, zero_add]
      _ ≤ max 0 size := hlastSize ▸ last.filled_le
      _ = size := max_eq_right hsize

end Reports

/-! ## The orders of a leg -/

section Orders

variable (env : Surroundings) (ctx : LegContext) (leg : Leg) (params : StrategyParams)
  (limits : RiskLimits) (notionalUsd : ℚ)

/-- When the leg is submitted, the venue keeps at most one order for it, of which it fills no more
than the larger of the requested shares and the minimum, and none when the leg is reported to have
failed. -/
def LeavesOneOrder : Prop :=
  let out := submitExecutionLeg env ctx leg params limits notionalUsd
  ((kept out.2.placed).length ≤ 1 ∧ (out.1.status = .failed → kept out.2.placed = [])) ∧
    ∀ price, resolveLegPrice ctx leg = some price →
      filled out.2.placed ≤ max minLiveShares (max 0 notionalUsd / price)

/-- A leg leaves one order at most exactly when each call that left an order with the venue came
back with an order of an active status. -/
theorem leavesOneOrder_iff_keptAreActive :
    LeavesOneOrder env ctx leg params limits notionalUsd ↔
      KeptAreActive (submitExecutionLeg env ctx leg params limits notionalUsd).2.placed := by
  unfold LeavesOneOrder submitExecutionLeg
  cases hgates : passGates ctx leg limits notionalUsd with
  | error refused =>
    simp [KeptAreActive, kept, filled, minLiveShares]
  | ok o =>
    obtain ⟨hprice, -, -, hnotional, hshares⟩ := passGates_ok hgates
    obtain ⟨calls, hplaced, hmakes, hreports⟩ :=
      executeLeg_runs env ctx leg limits (liveOrderRequest ctx leg params limits o) {}
    rw [List.nil_append] at hplaced
    have hmin : 0 ≤ o.shares := by
      rw [hshares]
      exact le_max_of_le_left (by norm_num [minLiveShares])
    have hsize (c : Placed) (hc : c ∈ calls) : c.call.size = o.shares := by
      obtain ⟨_, _, -, r, -, hcall | ⟨-, hcall⟩⟩ := hmakes c hc <;> rw [hcall] <;>
        exact max_eq_right hmin
    simp only [hplaced, hprice, Option.some.injEq, forall_eq']
    refine Iff.trans ?_ hreports.one_kept_iff
    refine ⟨And.left, fun hone => ⟨hone, ?_⟩⟩
    rw [← hnotional, ← hshares]
    exact hreports.filled_le (hreports.one_kept_iff.1 hone) hmin hsize

end Orders

/-! ### A retry after an order was taken -/

/-- A market where the first call raises after the venue took its order. -/
def lateExceptionMarket : Surroundings where
  view := fun _ => ⟨none, true, none, none, none⟩
  venue := fun placed _ =>
    if placed.length = 0 then .raisedAfter "read timed out"
    else .accepted ⟨"o", "c", .opened, none, 0, none⟩

/-- A purchase at half a dollar. -/
def plainLeg : Leg where
  limitPrice := some (1 / 2)

/-- With one retry, two orders for the leg rest at the venue. -/
theorem retriedLeg_leaves_two_orders :
    ¬LeavesOneOrder lateExceptionMarket plainContext plainLeg {}
      { retryLimit := some 1 } 10 := by
  rintro ⟨⟨hone, -⟩, -⟩
  revert hone
  decide +kernel

end Evosport.Execution
