/-
Ladders of offers.

A ladder is a list of levels, a price and a size each, that are taken in turn.  `sharesFor` is how
much a budget buys, `costOf` what an amount costs as far as the ladder reaches, and `spend` what of
a budget can be spent.  The two are inverse to each other: an amount costs less than the budget can
spend exactly where it is less than what the budget buys (`costOf_lt_spend_iff`).

`Takes` are amounts taken from the levels in whatever way; on a ladder that rises, taking the levels
in turn costs the least for the amount (`costOf_le_paid`) and gets the most for the budget
(`sum_le_sharesFor`), and on a ladder that falls it brings in the most (`paid_le_costOf`).
-/
import Mathlib.Algebra.Order.Field.Basic
import Mathlib.Algebra.Order.BigOperators.Group.List
import Mathlib.Tactic.Linarith

namespace Lib

variable {K : Type*} [Field K]

/-- What the whole ladder costs. -/
def ladderNotional (levels : List (K × K)) : K := (levels.map fun l => l.1 * l.2).sum

lemma ladderNotional_cons (price size : K) (levels : List (K × K)) :
    ladderNotional ((price, size) :: levels) = price * size + ladderNotional levels := by
  rw [ladderNotional, List.map_cons, List.sum_cons, ← ladderNotional]

variable [LinearOrder K]

/-- Every price and every size is positive. -/
def IsLadder (levels : List (K × K)) : Prop := ∀ l ∈ levels, 0 < l.1 ∧ 0 < l.2

/-- No size is negative. -/
def SizesNonneg (levels : List (K × K)) : Prop := ∀ l ∈ levels, 0 ≤ l.2

namespace SizesNonneg

variable {levels : List (K × K)} {price size : K}

lemma head (h : SizesNonneg ((price, size) :: levels)) : 0 ≤ size := (List.forall_mem_cons.1 h).1

lemma tail (h : SizesNonneg ((price, size) :: levels)) : SizesNonneg levels :=
  (List.forall_mem_cons.1 h).2

end SizesNonneg

/-- What an amount costs; beyond the end of the ladder nothing is bought. -/
def costOf : List (K × K) → K → K
  | [], _ => 0
  | (price, size) :: levels, amount =>
    price * min size (max 0 amount) + costOf levels (amount - size)

/-- How much a budget buys. -/
def sharesFor : List (K × K) → K → K
  | [], _ => 0
  | (price, size) :: levels, budget =>
    min size (max 0 budget / price) + sharesFor levels (budget - price * size)

/-- What of a budget can be spent. -/
def spend (levels : List (K × K)) (budget : K) : K := max 0 (min budget (ladderNotional levels))

lemma spend_nonneg (levels : List (K × K)) (budget : K) : 0 ≤ spend levels budget := le_max_left _ _

lemma spend_of_nonpos {levels : List (K × K)} {budget : K} (h : budget ≤ 0) :
    spend levels budget = 0 := max_eq_left ((min_le_left _ _).trans h)

namespace IsLadder

variable {levels : List (K × K)} {price size : K}

lemma head (h : IsLadder ((price, size) :: levels)) : 0 < price ∧ 0 < size :=
  (List.forall_mem_cons.1 h).1

lemma tail (h : IsLadder ((price, size) :: levels)) : IsLadder levels :=
  (List.forall_mem_cons.1 h).2

lemma sizes (h : IsLadder levels) : SizesNonneg levels := fun l hl => (h l hl).2.le

variable [IsStrictOrderedRing K]

lemma notional_nonneg (h : IsLadder levels) : 0 ≤ ladderNotional levels := by
  refine List.sum_nonneg fun x hx => ?_
  obtain ⟨l, hl, rfl⟩ := List.mem_map.1 hx
  exact (mul_pos (h l hl).1 (h l hl).2).le

lemma notional_pos (h : IsLadder levels) (hne : levels ≠ []) : 0 < ladderNotional levels := by
  refine List.sum_pos _ (fun x hx => ?_) (by simpa using hne)
  obtain ⟨l, hl, rfl⟩ := List.mem_map.1 hx
  exact mul_pos (h l hl).1 (h l hl).2

end IsLadder

/-- Nothing is spent where nothing is offered. -/
lemma spend_nil (budget : K) : spend ([] : List (K × K)) budget = 0 := by
  rw [spend, show ladderNotional ([] : List (K × K)) = 0 from rfl,
    max_eq_left (min_le_right budget 0)]

variable [IsStrictOrderedRing K]

lemma spend_pos {levels : List (K × K)} (h : IsLadder levels) (hne : levels ≠ []) {budget : K}
    (hbudget : 0 < budget) : 0 < spend levels budget :=
  lt_max_of_lt_right (lt_min hbudget (h.notional_pos hne))

/-- A budget that the first level takes up is spent there. -/
lemma spend_of_le {price size budget : K} {levels : List (K × K)}
    (h : IsLadder ((price, size) :: levels)) (hbudget : 0 ≤ budget) (hle : budget ≤ price * size) :
    spend ((price, size) :: levels) budget = budget := by
  rw [spend, ladderNotional_cons, min_eq_left (le_add_of_le_of_nonneg hle h.tail.notional_nonneg),
    max_eq_right hbudget]

/-- A budget that the first level does not take up spends the level and goes on. -/
lemma spend_of_ge {price size budget : K} {levels : List (K × K)}
    (h : IsLadder ((price, size) :: levels)) (hge : price * size ≤ budget) :
    spend ((price, size) :: levels) budget =
      price * size + spend levels (budget - price * size) := by
  have hlevel := (mul_pos h.head.1 h.head.2).le
  have hrest := h.tail.notional_nonneg
  have hleft : 0 ≤ min (budget - price * size) (ladderNotional levels) :=
    le_min (sub_nonneg.2 hge) hrest
  have hmin : min budget (price * size + ladderNotional levels) =
      price * size + min (budget - price * size) (ladderNotional levels) := by
    rw [← min_add_add_left, add_sub_cancel]
  rw [spend, spend, ladderNotional_cons, hmin, max_eq_right hleft,
    max_eq_right (add_nonneg hlevel hleft)]

section Amounts

variable {levels : List (K × K)}

lemma costOf_of_nonpos (h : SizesNonneg levels) {amount : K} (hamount : amount ≤ 0) :
    costOf levels amount = 0 := by
  induction levels generalizing amount with
  | nil => rfl
  | cons l levels ih =>
    obtain ⟨price, size⟩ := l
    have hsize := h.head
    rw [costOf, max_eq_left hamount, min_eq_right hsize, mul_zero, zero_add]
    exact ih h.tail (by linarith)

lemma costOf_nonneg (h : IsLadder levels) (amount : K) : 0 ≤ costOf levels amount := by
  induction levels generalizing amount with
  | nil => exact le_rfl
  | cons l levels ih =>
    obtain ⟨price, size⟩ := l
    exact add_nonneg (mul_nonneg h.head.1.le (le_min h.head.2.le (le_max_left _ _))) (ih h.tail _)

lemma sharesFor_of_nonpos (h : IsLadder levels) {budget : K} (hbudget : budget ≤ 0) :
    sharesFor levels budget = 0 := by
  induction levels generalizing budget with
  | nil => rfl
  | cons l levels ih =>
    obtain ⟨price, size⟩ := l
    have hlevel := (mul_pos h.head.1 h.head.2).le
    rw [sharesFor, max_eq_left hbudget, zero_div, min_eq_right h.head.2.le, zero_add]
    exact ih h.tail (by linarith)

lemma sharesFor_nonneg (h : IsLadder levels) (budget : K) : 0 ≤ sharesFor levels budget := by
  induction levels generalizing budget with
  | nil => exact le_rfl
  | cons l levels ih =>
    obtain ⟨price, size⟩ := l
    exact add_nonneg (le_min h.head.2.le (div_nonneg (le_max_left _ _) h.head.1.le)) (ih h.tail _)

/-- A budget that the first level takes up buys there only. -/
lemma sharesFor_of_le {price size budget : K} (h : IsLadder ((price, size) :: levels))
    (hbudget : 0 ≤ budget) (hle : budget ≤ price * size) :
    sharesFor ((price, size) :: levels) budget = budget / price := by
  have hfits : budget / price ≤ size := (div_le_iff₀' h.head.1).2 hle
  rw [sharesFor, max_eq_right hbudget, min_eq_right hfits,
    sharesFor_of_nonpos h.tail (sub_nonpos.2 hle), add_zero]

/-- A budget that the first level does not take up buys the level and goes on. -/
lemma sharesFor_of_ge {price size budget : K} (h : IsLadder ((price, size) :: levels))
    (hge : price * size ≤ budget) :
    sharesFor ((price, size) :: levels) budget =
      size + sharesFor levels (budget - price * size) := by
  have hlevel := (mul_pos h.head.1 h.head.2).le
  have hfits : size ≤ budget / price := (le_div_iff₀' h.head.1).2 hge
  rw [sharesFor, max_eq_right (hlevel.trans hge), min_eq_left hfits]

/-- What an amount costs is less than what a budget can spend exactly where the amount is less than
what the budget buys. -/
theorem costOf_lt_spend_iff (h : IsLadder levels) {amount : K} (hamount : 0 ≤ amount) (budget : K) :
    costOf levels amount < spend levels budget ↔ amount < sharesFor levels budget := by
  by_cases hbudget : budget ≤ 0
  · rw [spend_of_nonpos hbudget, sharesFor_of_nonpos h hbudget]
    exact ⟨fun hlt => absurd hlt (not_lt.2 (costOf_nonneg h amount)),
      fun hlt => absurd hlt (not_lt.2 hamount)⟩
  push Not at hbudget
  induction levels generalizing amount budget with
  | nil =>
    rw [spend_nil]
    exact ⟨fun hlt => absurd hlt (lt_irrefl _), fun hlt => absurd hlt (not_lt.2 hamount)⟩
  | cons l levels ih =>
    obtain ⟨price, size⟩ := l
    obtain ⟨hprice, hsize⟩ := h.head
    rcases lt_or_ge amount size with hshort | hlong
    · -- the amount is bought at the first level
      have hcost : costOf ((price, size) :: levels) amount = price * amount := by
        rw [costOf, max_eq_right hamount, min_eq_right hshort.le,
          costOf_of_nonpos h.tail.sizes (sub_nonpos.2 hshort.le), add_zero]
      rcases le_total budget (price * size) with hle | hge
      · rw [hcost, spend_of_le h hbudget.le hle, sharesFor_of_le h hbudget.le hle,
          lt_div_iff₀' hprice]
      · rw [hcost, spend_of_ge h hge, sharesFor_of_ge h hge]
        have hless := mul_lt_mul_of_pos_left hshort hprice
        have hspend := spend_nonneg levels (budget - price * size)
        have hshares := sharesFor_nonneg h.tail (budget - price * size)
        exact ⟨fun _ => by linarith, fun _ => by linarith⟩
    · have hcost : costOf ((price, size) :: levels) amount =
          price * size + costOf levels (amount - size) := by
        rw [costOf, max_eq_right hamount, min_eq_left hlong]
      rcases le_or_gt budget (price * size) with hle | hgt
      · -- the budget ends at the first level
        rw [hcost, spend_of_le h hbudget.le hle, sharesFor_of_le h hbudget.le hle,
          lt_div_iff₀' hprice]
        have hmore := mul_le_mul_of_nonneg_left hlong hprice.le
        have hrest := costOf_nonneg h.tail (amount - size)
        exact ⟨fun hlt => absurd hlt (by linarith), fun hlt => absurd hlt (by linarith)⟩
      · rw [hcost, spend_of_ge h hgt.le, sharesFor_of_ge h hgt.le, add_lt_add_iff_left,
          ih h.tail (sub_nonneg.2 hlong) _ (sub_pos.2 hgt), sub_lt_iff_lt_add']

/-- All that the ladder offers. -/
def ladderSize (levels : List (K × K)) : K := (levels.map Prod.snd).sum

omit [LinearOrder K] [IsStrictOrderedRing K] in
lemma ladderSize_cons (price size : K) (levels : List (K × K)) :
    ladderSize ((price, size) :: levels) = size + ladderSize levels := by
  rw [ladderSize, List.map_cons, List.sum_cons, ← ladderSize]

lemma SizesNonneg.ladderSize_nonneg (h : SizesNonneg levels) : 0 ≤ ladderSize levels := by
  refine List.sum_nonneg fun x hx => ?_
  obtain ⟨l, hl, rfl⟩ := List.mem_map.1 hx
  exact h l hl

/-- An amount that the first level offers is taken there. -/
lemma costOf_of_le {price size amount : K} (h : SizesNonneg ((price, size) :: levels))
    (hamount : 0 ≤ amount) (hle : amount ≤ size) :
    costOf ((price, size) :: levels) amount = price * amount := by
  rw [costOf, max_eq_right hamount, min_eq_right hle,
    costOf_of_nonpos h.tail (sub_nonpos.2 hle), add_zero]

omit [IsStrictOrderedRing K] in
/-- A larger amount takes the level and goes on. -/
lemma costOf_of_ge {price size amount : K} (h : SizesNonneg ((price, size) :: levels))
    (hge : size ≤ amount) : costOf ((price, size) :: levels) amount =
      price * size + costOf levels (amount - size) := by
  rw [costOf, max_eq_right (h.head.trans hge), min_eq_left hge]

/-- Beyond the end of the ladder nothing more is taken. -/
lemma costOf_min_ladderSize (h : SizesNonneg levels) (amount : K) :
    costOf levels (min amount (ladderSize levels)) = costOf levels amount := by
  induction levels generalizing amount with
  | nil => rfl
  | cons l levels ih =>
    obtain ⟨price, size⟩ := l
    have hsize := h.tail.ladderSize_nonneg
    rw [ladderSize_cons]
    rcases le_total amount size with hle | hge
    · rw [min_eq_left (hle.trans (le_add_of_nonneg_right hsize))]
    · have hmin : min amount (size + ladderSize levels) =
          size + min (amount - size) (ladderSize levels) := by
        rw [← min_add_add_left, add_sub_cancel]
      have hle : size ≤ min amount (size + ladderSize levels) :=
        le_min hge (le_add_of_nonneg_right hsize)
      rw [costOf_of_ge h hle, costOf_of_ge h hge, hmin, add_sub_cancel_left, ih h.tail]

/-- What a budget buys is on the ladder. -/
lemma sharesFor_le_ladderSize (levels : List (K × K)) (budget : K) :
    sharesFor levels budget ≤ ladderSize levels := by
  induction levels generalizing budget with
  | nil => exact le_rfl
  | cons l levels ih =>
    obtain ⟨price, size⟩ := l
    rw [ladderSize_cons]
    exact add_le_add (min_le_left _ _) (ih _)

/-- What a budget buys costs what of the budget can be spent. -/
lemma costOf_sharesFor (h : IsLadder levels) {budget : K} (hbudget : 0 ≤ budget) :
    costOf levels (sharesFor levels budget) = spend levels budget := by
  induction levels generalizing budget with
  | nil => rw [spend_nil, costOf]
  | cons l levels ih =>
    obtain ⟨price, size⟩ := l
    obtain ⟨hprice, hsize⟩ := h.head
    rcases le_total budget (price * size) with hle | hge
    · have hfits : budget / price ≤ size := (div_le_iff₀' hprice).2 hle
      rw [sharesFor_of_le h hbudget hle, spend_of_le h hbudget hle,
        costOf_of_le h.sizes (div_nonneg hbudget hprice.le) hfits, mul_div_cancel₀ _ hprice.ne']
    · have hrest := sharesFor_nonneg h.tail (budget - price * size)
      rw [sharesFor_of_ge h hge, spend_of_ge h hge, costOf_of_ge h.sizes (le_add_of_nonneg_right hrest),
        add_sub_cancel_left, ih h.tail (sub_nonneg.2 hge)]

/-- An amount that a budget limits costs what the amount costs, limited by what the budget spends. -/
lemma costOf_min_sharesFor (h : IsLadder levels) {amount budget : K} (hamount : 0 ≤ amount)
    (hbudget : 0 ≤ budget) : costOf levels (min amount (sharesFor levels budget)) =
      min (costOf levels amount) (spend levels budget) := by
  rcases lt_or_ge amount (sharesFor levels budget) with hless | hmore
  · have hcost := (costOf_lt_spend_iff h hamount budget).2 hless
    rw [min_eq_left hless.le, min_eq_left hcost.le]
  · have hcost : spend levels budget ≤ costOf levels amount :=
      not_lt.1 fun hlt => not_lt.2 hmore ((costOf_lt_spend_iff h hamount budget).1 hlt)
    rw [min_eq_right hmore, min_eq_right hcost, costOf_sharesFor h hbudget]

end Amounts

/-! ## Amounts taken in any way -/

/-- An amount from each level, at most what it offers. -/
def Takes (levels : List (K × K)) (takes : List K) : Prop :=
  List.Forall₂ (fun l take => 0 ≤ take ∧ take ≤ l.2) levels takes

/-- What the amounts cost. -/
def paid (levels : List (K × K)) (takes : List K) : K :=
  (List.zipWith (fun l take => l.1 * take) levels takes).sum

/-- The amounts that taking the levels in turn comes to. -/
def inTurn : List (K × K) → K → List K
  | [], _ => []
  | (_, size) :: levels, amount => min size (max 0 amount) :: inTurn levels (amount - size)

section Takes

variable {levels : List (K × K)} {takes : List K}

omit [LinearOrder K] [IsStrictOrderedRing K] in
lemma paid_cons (l : K × K) (levels : List (K × K)) (take : K) (takes : List K) :
    paid (l :: levels) (take :: takes) = l.1 * take + paid levels takes := by
  rw [paid, List.zipWith_cons_cons, List.sum_cons, ← paid]

lemma Takes.sum_nonneg (h : Takes levels takes) : 0 ≤ takes.sum := by
  induction h with
  | nil => exact le_rfl
  | cons hhead _ ih =>
    rw [List.sum_cons]
    exact add_nonneg hhead.1 ih

lemma Takes.sum_le (h : Takes levels takes) : takes.sum ≤ ladderSize levels := by
  induction h with
  | nil => exact le_rfl
  | @cons l take levels takes hhead _ ih =>
    obtain ⟨price, size⟩ := l
    rw [List.sum_cons, ladderSize_cons]
    exact add_le_add hhead.2 ih

omit [IsStrictOrderedRing K] in
lemma takes_inTurn (h : SizesNonneg levels) (amount : K) :
    Takes levels (inTurn levels amount) := by
  induction levels generalizing amount with
  | nil => exact .nil
  | cons l levels ih =>
    obtain ⟨price, size⟩ := l
    exact .cons ⟨le_min h.head (le_max_left _ _), min_le_left _ _⟩ (ih h.tail _)

omit [IsStrictOrderedRing K] in
lemma paid_inTurn (levels : List (K × K)) (amount : K) :
    paid levels (inTurn levels amount) = costOf levels amount := by
  induction levels generalizing amount with
  | nil => rfl
  | cons l levels ih =>
    obtain ⟨price, size⟩ := l
    rw [inTurn, paid_cons, costOf, ih]

lemma sum_inTurn_of_nonpos (h : SizesNonneg levels) {amount : K} (hamount : amount ≤ 0) :
    (inTurn levels amount).sum = 0 := by
  induction levels generalizing amount with
  | nil => rfl
  | cons l levels ih =>
    obtain ⟨price, size⟩ := l
    have hsize := h.head
    rw [inTurn, List.sum_cons, max_eq_left hamount, min_eq_right hsize, zero_add]
    exact ih h.tail (by linarith)

lemma sum_inTurn (h : SizesNonneg levels) {amount : K} (hamount : 0 ≤ amount)
    (hle : amount ≤ ladderSize levels) : (inTurn levels amount).sum = amount := by
  induction levels generalizing amount with
  | nil => exact (le_antisymm hle hamount).symm
  | cons l levels ih =>
    obtain ⟨price, size⟩ := l
    rw [ladderSize_cons] at hle
    rw [inTurn, List.sum_cons, max_eq_right hamount]
    rcases le_total amount size with hshort | hlong
    · rw [min_eq_right hshort, sum_inTurn_of_nonpos h.tail (sub_nonpos.2 hshort), add_zero]
    · rw [min_eq_left hlong, ih h.tail (sub_nonneg.2 hlong) (sub_le_iff_le_add'.2 hle),
        add_sub_cancel]

/-- On a ladder where no price is below a bound, more costs at least the bound for each share. -/
lemma mul_sub_le_costOf_sub (h : SizesNonneg levels) {bound a b : K}
    (hbound : ∀ l ∈ levels, bound ≤ l.1) (ha : 0 ≤ a) (hab : a ≤ b) (hb : b ≤ ladderSize levels) :
    bound * (b - a) ≤ costOf levels b - costOf levels a := by
  induction levels generalizing a b with
  | nil =>
    have hzero : b = a := le_antisymm (hb.trans ha) hab
    rw [hzero, sub_self, sub_self, mul_zero]
  | cons l levels ih =>
    obtain ⟨price, size⟩ := l
    obtain ⟨hprice, hrest⟩ := List.forall_mem_cons.1 hbound
    rw [ladderSize_cons] at hb
    rcases le_total b size with hshort | hlong
    · -- both end at the first level
      rw [costOf_of_le h (ha.trans hab) hshort, costOf_of_le h ha (hab.trans hshort), ← mul_sub]
      exact mul_le_mul_of_nonneg_right hprice (sub_nonneg.2 hab)
    · rcases le_total a size with hfirst | hsecond
      · have hbehind := ih h.tail hrest le_rfl (sub_nonneg.2 hlong) (sub_le_iff_le_add'.2 hb)
        have hhere := mul_le_mul_of_nonneg_right hprice (sub_nonneg.2 hfirst)
        rw [costOf_of_nonpos h.tail le_rfl] at hbehind
        rw [costOf_of_ge h hlong, costOf_of_le h ha hfirst]
        linarith
      · have hbehind := ih h.tail hrest (sub_nonneg.2 hsecond)
          (sub_le_sub_right hab size) (sub_le_iff_le_add'.2 hb)
        rw [costOf_of_ge h hlong, costOf_of_ge h hsecond]
        linarith

/-- On a rising ladder, taking the levels in turn costs the least for the amount. -/
theorem costOf_le_paid (h : SizesNonneg levels) (hsorted : levels.Pairwise fun a b => a.1 ≤ b.1)
    (htakes : Takes levels takes) : costOf levels takes.sum ≤ paid levels takes := by
  induction htakes with
  | nil => exact le_rfl
  | @cons l take levels takes hhead htakes ih =>
    obtain ⟨price, size⟩ := l
    obtain ⟨hfirst, hsorted⟩ := List.pairwise_cons.1 hsorted
    obtain ⟨hpos, hle⟩ := hhead
    have hrest := ih h.tail hsorted
    have hnonneg := Takes.sum_nonneg htakes
    have hmost := Takes.sum_le htakes
    rw [List.sum_cons, paid_cons]
    rcases le_total (take + takes.sum) size with hshort | hlong
    · -- what is taken behind costs no less than at the first level
      have hbehind := mul_sub_le_costOf_sub h.tail hfirst le_rfl hnonneg hmost
      rw [costOf_of_nonpos h.tail le_rfl, sub_zero, sub_zero] at hbehind
      rw [costOf_of_le h (add_nonneg hpos hnonneg) hshort]
      linarith [mul_add price take takes.sum]
    · have hless : take + takes.sum - size ≤ takes.sum := by linarith
      have hbehind := mul_sub_le_costOf_sub h.tail hfirst (sub_nonneg.2 hlong) hless hmost
      rw [costOf_of_ge h hlong]
      dsimp only at hbehind ⊢
      linarith [mul_sub price size take]

/-- The levels at the negatives of their prices. -/
def negated (levels : List (K × K)) : List (K × K) := levels.map fun l => (-l.1, l.2)

omit [IsStrictOrderedRing K] in
lemma costOf_negated (levels : List (K × K)) (amount : K) :
    costOf (negated levels) amount = -costOf levels amount := by
  induction levels generalizing amount with
  | nil => exact neg_zero.symm
  | cons l levels ih =>
    obtain ⟨price, size⟩ := l
    have htail := ih (amount - size)
    rw [negated] at htail
    rw [negated, List.map_cons, costOf, costOf, htail, neg_mul, neg_add]

omit [LinearOrder K] [IsStrictOrderedRing K] in
lemma paid_negated (levels : List (K × K)) (takes : List K) :
    paid (negated levels) takes = -paid levels takes := by
  induction levels generalizing takes with
  | nil => simp [negated, paid]
  | cons l levels ih =>
    cases takes with
    | nil => simp [negated, paid]
    | cons take takes =>
      have htail := ih takes
      rw [negated] at htail
      rw [negated, List.map_cons, paid_cons, paid_cons, htail, neg_mul, neg_add]

/-- On a falling ladder, taking the levels in turn brings in the most for the amount. -/
theorem paid_le_costOf (h : SizesNonneg levels) (hsorted : levels.Pairwise fun a b => b.1 ≤ a.1)
    (htakes : Takes levels takes) : paid levels takes ≤ costOf levels takes.sum := by
  have hsizes : SizesNonneg (negated levels) := by
    intro l hl
    obtain ⟨l', hl', rfl⟩ := List.mem_map.1 hl
    exact h l' hl'
  have hrising : (negated levels).Pairwise fun a b => a.1 ≤ b.1 := by
    rw [negated, List.pairwise_map]
    exact hsorted.imp fun hle => neg_le_neg hle
  have htakes' : Takes (negated levels) takes := by
    rw [Takes, negated, List.forall₂_map_left_iff]
    exact htakes
  have hcost := costOf_le_paid hsizes hrising htakes'
  rw [costOf_negated, paid_negated] at hcost
  exact neg_le_neg_iff.1 hcost

/-- A larger amount costs more, as far as the ladder reaches. -/
lemma costOf_lt_costOf (h : IsLadder levels) (hsorted : levels.Pairwise fun a b => a.1 ≤ b.1)
    {a b : K} (ha : 0 ≤ a) (hab : a < b) (hb : b ≤ ladderSize levels) :
    costOf levels a < costOf levels b := by
  cases levels with
  | nil => exact absurd (ha.trans_lt hab) (not_lt.2 hb)
  | cons l levels =>
    obtain ⟨price, size⟩ := l
    have hbound : ∀ l ∈ (price, size) :: levels, price ≤ l.1 :=
      List.forall_mem_cons.2 ⟨le_rfl, (List.pairwise_cons.1 hsorted).1⟩
    have hmore := mul_sub_le_costOf_sub h.sizes hbound ha hab.le hb
    have hpos := mul_pos h.head.1 (sub_pos.2 hab)
    linarith

lemma costOf_le_ladderNotional (h : IsLadder levels) (amount : K) :
    costOf levels amount ≤ ladderNotional levels := by
  induction levels generalizing amount with
  | nil => exact le_rfl
  | cons l levels ih =>
    obtain ⟨price, size⟩ := l
    rw [costOf, ladderNotional_cons]
    exact add_le_add (mul_le_mul_of_nonneg_left (min_le_left _ _) h.head.1.le) (ih h.tail _)

/-- On a rising ladder, no way of taking gets more for a budget than taking the levels in turn. -/
theorem sum_le_sharesFor (h : IsLadder levels) (hsorted : levels.Pairwise fun a b => a.1 ≤ b.1)
    {budget : K} (hbudget : 0 ≤ budget) (htakes : Takes levels takes)
    (hpaid : paid levels takes ≤ budget) : takes.sum ≤ sharesFor levels budget := by
  by_contra hmore
  have hcost := costOf_lt_costOf h hsorted (sharesFor_nonneg h budget) (not_le.1 hmore)
    (Takes.sum_le htakes)
  have hleast := costOf_le_paid h.sizes hsorted htakes
  have hspend : costOf levels takes.sum ≤ spend levels budget :=
    le_max_of_le_right (le_min (hleast.trans hpaid) (costOf_le_ladderNotional h _))
  rw [costOf_sharesFor h hbudget] at hcost
  exact absurd hspend (not_le.2 hcost)

end Takes

end Lib
