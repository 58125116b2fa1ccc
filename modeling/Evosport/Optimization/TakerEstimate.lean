/-
What the estimate of a taker says (`services/optimization/execution_estimator.py`).

The walk over the opposite levels is the greedy optimum of the offers within the limit: no way of
taking them gets more for the shares and the budget, and none has a better price for the amount.
The label is right where the one ratio that it is computed from moves with what has stopped the
walk: a sum of dollars is bought in shares at the limit as well, which can be used up first.
-/
import Evosport.Optimization.ExecutionEstimator

namespace Evosport.Optimization

open Lib Backtest

/-! ## The path -/

/-- `_is_marketable` -/
def isMarketable (side : Side) (limitPrice : Option ℚ) (bestBid bestAsk : ℚ) : Bool :=
  match limitPrice, side with
  | none, _ => true
  | some limit, .buy => bestAsk > 0 ∧ bestAsk ≤ limit
  | some limit, .sell => bestBid > 0 ∧ bestBid ≥ limit

/-- The limit or the type of the order sends it to the opposite side at once. -/
def TakerPath (orderTypeKey : String) (book : OrderBook) (side : Side)
    (limitPrice : Option ℚ) : Prop :=
  isMarketable side (normalizePrice limitPrice) (bestOf (bidLevels book))
      (bestOf (askLevels book)) = true ∨
    orderTypeKey ∈ ["market", "taker", "taker_limit"]

instance (orderTypeKey : String) (book : OrderBook) (side : Side) (limitPrice : Option ℚ) :
    Decidable (TakerPath orderTypeKey book side limitPrice) :=
  inferInstanceAs (Decidable (_ ∨ _))

/-- `estimate_order`, with the maker path, which rests at the limit, as a parameter. -/
def estimateOrderOfType (estimateMaker : ℚ → ℚ → Option ℚ → ExecutionEstimate)
    (orderTypeKey : String) (book : OrderBook) (side : Side)
    (sizeUsd sizeShares limitPrice : Option ℚ) (trades : List RecentTrade) (bookAgeMs : Option ℚ)
    (cfg : EstimatorConfig) : ExecutionEstimate :=
  let limit := normalizePrice limitPrice
  let reference := referencePrice side limit book
  let requestedShares := requestedSharesOf sizeUsd sizeShares reference
  let explicitSizeUsd := sizeUsd.getD 0
  let requestedNotional :=
    if explicitSizeUsd > 0 then explicitSizeUsd
    else if reference > 0 then requestedShares * reference else 0
  if requestedShares ≤ 0 ∨ reference ≤ 0 then
    emptyEstimate .invalidSizeOrPrice (max 0 requestedShares) (max 0 requestedNotional)
  else if TakerPath orderTypeKey book side limitPrice then
    estimateTaker book side requestedShares requestedNotional
      (if explicitSizeUsd > 0 then some explicitSizeUsd else none) limit trades bookAgeMs cfg
  else estimateMaker requestedShares requestedNotional limit

/-! ## What the estimate should say -/

/-- Up to one part in a million. -/
def nearly : ℚ := 999999 / 1000000

/-- The amount and its notional are the best that can be had of the offers. -/
structure GreedyOptimum (side : Side) (offered : List (ℚ × ℚ)) (shares : ℚ) (budget : Option ℚ)
    (filled notional : ℚ) : Prop where
  reached : ∃ takes, Takes offered takes ∧ takes.sum = filled ∧ paid offered takes = notional
  within : filled ≤ shares ∧ ∀ b ∈ budget, notional ≤ b
  largest : ∀ takes, Takes offered takes → takes.sum ≤ shares →
    (∀ b ∈ budget, paid offered takes ≤ b) → takes.sum ≤ filled
  bestPriced : ∀ takes, Takes offered takes → takes.sum = filled →
    match side with
    | .buy => notional ≤ paid offered takes
    | .sell => paid offered takes ≤ notional

/-- The shares or the budget are used up. -/
def UsedUp (shares : ℚ) (budget : Option ℚ) (filled notional : ℚ) : Prop :=
  nearly * shares ≤ filled ∨ ∃ b ∈ budget, nearly * b ≤ notional

/-- The estimate is labelled as filled exactly if the shares or the budget are used up. -/
def LabelledRight (shares : ℚ) (budget : Option ℚ) (estimate : ExecutionEstimate) : Prop :=
  (estimate.status = .filled ↔
    UsedUp shares budget estimate.filledShares estimate.filledNotionalUsd) ∧
  (estimate.status = .filled ↔ nearly ≤ estimate.fillProbability)

/-- Dollars limit a purchase only. -/
def budgetOf (side : Side) (dollars : Option ℚ) : Option ℚ :=
  match side with
  | .buy => dollars
  | .sell => none

/-- A purchase whose dollars buy the shares spends the dollars on them; a sale brings the dollars in
exactly if the shares can be sold. -/
def UsedUpTogether (side : Side) (offered : List (ℚ × ℚ)) (shares dollars : ℚ) : Prop :=
  match side with
  | .buy => nearly * shares ≤ sharesFor offered dollars → nearly * dollars ≤ costOf offered shares
  | .sell => nearly * dollars ≤ costOf offered shares ↔ nearly * shares ≤ ladderSize offered

instance (side : Side) (offered : List (ℚ × ℚ)) (shares dollars : ℚ) :
    Decidable (UsedUpTogether side offered shares dollars) :=
  match side with
  | .buy => inferInstanceAs (Decidable (_ → _))
  | .sell => inferInstanceAs (Decidable (_ ↔ _))

section Request

variable (book : OrderBook) (side : Side) (sizeUsd sizeShares limitPrice : Option ℚ)
  (bookAgeMs : Option ℚ) (cfg : EstimatorConfig)

/-- What the book offers within the limit. -/
def offeredOf : List (ℚ × ℚ) :=
  offers side (normalizePrice limitPrice) (bookDepthFactor bookAgeMs cfg) (oppositeLevels book side)

/-- The shares that the request comes to. -/
def sharesOf : ℚ :=
  requestedSharesOf sizeUsd sizeShares (referencePrice side (normalizePrice limitPrice) book)

/-- The dollars of a request that is sized in dollars. -/
def dollarsOf : Option ℚ := if sizeUsd.getD 0 > 0 then some (sizeUsd.getD 0) else none

/-- Shares and dollars are used up together, as far as the label goes. -/
def SizesAgree : Prop :=
  ∀ dollars ∈ dollarsOf sizeUsd,
    UsedUpTogether side (offeredOf book side limitPrice bookAgeMs cfg)
      (sharesOf book side sizeUsd sizeShares limitPrice) dollars

instance : Decidable (SizesAgree book side sizeUsd sizeShares limitPrice bookAgeMs cfg) :=
  inferInstanceAs (Decidable (∀ dollars ∈ dollarsOf sizeUsd, _))

/-- The estimate is the greedy optimum and is labelled right. -/
def EstimatedRight (estimate : ExecutionEstimate) : Prop :=
  GreedyOptimum side (offeredOf book side limitPrice bookAgeMs cfg)
      (sharesOf book side sizeUsd sizeShares limitPrice) (budgetOf side (dollarsOf sizeUsd))
      estimate.filledShares estimate.filledNotionalUsd ∧
    LabelledRight (sharesOf book side sizeUsd sizeShares limitPrice)
      (budgetOf side (dollarsOf sizeUsd)) estimate

end Request

/-! ## The walk is the optimum -/

section Optimum

variable {side : Side} {offered levels : List (ℚ × ℚ)} {shares : ℚ} {budget : Option ℚ}

lemma BestFirst.offers (h : BestFirst side levels) (worst : Option ℚ) (depthFactor : ℚ) :
    BestFirst side (offers side worst depthFactor levels) := by
  cases side with
  | buy => exact List.pairwise_map.2 (h.sublist List.filter_sublist)
  | sell => exact List.pairwise_map.2 (h.sublist List.filter_sublist)

lemma amountTaken_le_ladderSize (offered : List (ℚ × ℚ)) (shares : ℚ) (budget : Option ℚ) :
    amountTaken offered shares budget ≤ ladderSize offered := by
  cases budget with
  | none => exact min_le_right _ _
  | some b => exact (min_le_right _ _).trans (sharesFor_le_ladderSize _ _)

/-- What the amount costs is within the budget. -/
lemma costOf_amountTaken_le (h : IsLadder offered) (hshares : 0 ≤ shares) {b : ℚ} (hb : 0 ≤ b) :
    costOf offered (amountTaken offered shares (some b)) ≤ b := by
  rw [amountTaken, costOf_min_sharesFor h hshares hb]
  exact (min_le_right _ _).trans (max_le hb (min_le_left _ _))

/-- Taking the offers in turn is the optimum; a budget is one of a purchase. -/
theorem greedyOptimum_amountTaken (h : IsLadder offered) (hbest : BestFirst side offered)
    (hleft : ¬ Spent shares budget) (hbudget : side = .sell → budget = none) :
    GreedyOptimum side offered shares budget (amountTaken offered shares budget)
      (costOf offered (amountTaken offered shares budget)) := by
  obtain ⟨hshares, hpos⟩ := not_spent.1 hleft
  refine ⟨?_, ⟨amountTaken_le _ _ _, ?_⟩, ?_, ?_⟩
  · exact ⟨inTurn offered (amountTaken offered shares budget), takes_inTurn h.sizes _,
      sum_inTurn h.sizes (amountTaken_nonneg h hshares.le) (amountTaken_le_ladderSize _ _ _),
      paid_inTurn _ _⟩
  · intro b hb
    obtain rfl := Option.mem_def.1 hb
    exact costOf_amountTaken_le h hshares.le (hpos b rfl).le
  · intro takes htakes hsum hpaid
    cases budget with
    | none => exact le_min hsum htakes.sum_le
    | some b =>
      cases side with
      | sell => cases hbudget rfl
      | buy => exact le_min hsum (sum_le_sharesFor h hbest (hpos b rfl).le htakes (hpaid b rfl))
  · intro takes htakes hsum
    cases side with
    | buy =>
      have hleast := costOf_le_paid h.sizes hbest htakes
      rwa [hsum] at hleast
    | sell =>
      have hmost := paid_le_costOf h.sizes hbest htakes
      rwa [hsum] at hmost

end Optimum

/-! ## The estimate -/

/-- The whole of which the label takes the ratio, and the part that has been had of it. -/
def labelled (shares : ℚ) (dollars : Option ℚ) (filled notional : ℚ) : ℚ × ℚ :=
  match dollars with
  | some dollars => (dollars, notional)
  | none => (shares, filled)

section Estimate

variable {book : OrderBook} {side : Side} {limit : Option ℚ} {bookAgeMs dollars : Option ℚ}
  {cfg : EstimatorConfig} {shares requestedNotional : ℚ} {trades : List RecentTrade}

lemma not_spent_budgetOf (side : Side) (hshares : 0 < shares) (hdollars : ∀ d ∈ dollars, 0 < d) :
    ¬ Spent shares (budgetOf side dollars) := by
  refine not_spent.2 ⟨hshares, ?_⟩
  cases side with
  | buy => exact hdollars
  | sell => exact fun b hb => absurd hb (Option.not_mem_none b)

/-- Where nothing of the displayed depth counts, nothing is filled. -/
lemma filled_walkLevels_of_nonpos {depthFactor : ℚ} (hdepth : depthFactor ≤ 0)
    {levels : List (ℚ × ℚ)} (h : IsLadder levels) (worst : Option ℚ) (w : TakerWalk) :
    (walkLevels side worst depthFactor levels w).filled = w.filled := by
  induction levels with
  | nil => rfl
  | cons l levels ih =>
    obtain ⟨price, size⟩ := l
    have hnone : max 0 (size * depthFactor) ≤ 0 :=
      max_le le_rfl (mul_nonpos_of_nonneg_of_nonpos h.head.2.le hdepth)
    rw [walkLevels]
    simp only [if_pos hnone]
    split
    · rfl
    · exact ih h.tail

variable (book side shares dollars limit bookAgeMs cfg) in
/-- The walk of an estimate. -/
def takerWalk : TakerWalk :=
  walkLevels side limit (bookDepthFactor bookAgeMs cfg) (oppositeLevels book side)
    { remaining := shares, remainingBudget := budgetOf side dollars }

/-- If the walk fills nothing, neither does the estimate. -/
lemma estimateTaker_of_empty (h : oppositeLevels book side = [] ∨
    (takerWalk book side limit bookAgeMs dollars cfg shares).filled ≤ 0) :
    (estimateTaker book side shares requestedNotional dollars limit trades bookAgeMs
      cfg).filledShares = 0 := by
  by_cases hnone : oppositeLevels book side = []
  · cases side
    all_goals rw [estimateTaker, if_pos hnone, emptyEstimate]
  · have hfilled := h.resolve_left hnone
    cases side
    all_goals
      rw [estimateTaker, if_neg hnone]
      exact congrArg ExecutionEstimate.filledShares (if_pos hfilled)

/-- Otherwise the estimate reports the walk, and labels it by the one ratio. -/
lemma estimateTaker_of_filled (hshares : 0 < shares) (hdollars : ∀ d ∈ dollars, 0 < d)
    (hne : oppositeLevels book side ≠ [])
    (hfilled : 0 < (takerWalk book side limit bookAgeMs dollars cfg shares).filled) :
    let estimate := estimateTaker book side shares requestedNotional dollars limit trades bookAgeMs
      cfg
    let w := takerWalk book side limit bookAgeMs dollars cfg shares
    let whole := labelled shares dollars w.filled w.notional
    estimate.filledShares = w.filled ∧ estimate.filledNotionalUsd = w.notional ∧
      estimate.status = (if isFilled (whole.2 / whole.1) then .filled else .partlyFilled) ∧
      estimate.fillProbability = min 1 (max 0 (whole.2 / whole.1)) := by
  -- the ratio is taken of positive numbers, so no guard of it applies
  cases side
  all_goals
    rw [estimateTaker, if_neg hne]
    simp only [takerWalk, budgetOf] at hfilled
    cases dollars with
    | none =>
      simp only [if_neg (not_le.2 hfilled), if_pos hshares, gt_iff_lt]
      exact ⟨rfl, rfl, rfl, rfl⟩
    | some usd =>
      simp only [if_neg (not_le.2 hfilled), if_pos (hdollars usd rfl), gt_iff_lt]
      exact ⟨rfl, rfl, rfl, rfl⟩

lemma nearly_le_iff {whole part : ℚ} (hwhole : 0 < whole) :
    isFilled (part / whole) = true ↔ nearly * whole ≤ part := by
  rw [isFilled, decide_eq_true_eq, ge_iff_le, ← nearly, le_div_iff₀ hwhole]

lemma nearly_le_clamp_iff {whole part : ℚ} (hwhole : 0 < whole) :
    nearly ≤ min 1 (max 0 (part / whole)) ↔ nearly * whole ≤ part := by
  have hone : nearly ≤ 1 := by norm_num [nearly]
  have hpos : ¬ nearly ≤ 0 := by norm_num [nearly]
  rw [le_min_iff, le_max_iff, and_iff_right hone, or_iff_right hpos, le_div_iff₀ hwhole]

/-- What an estimate that fills something says. -/
lemma estimateTaker_spec (hshares : 0 < shares) (hdollars : ∀ d ∈ dollars, 0 < d)
    (hfilled : 0 < (estimateTaker book side shares requestedNotional dollars limit trades bookAgeMs
      cfg).filledShares) :
    let estimate := estimateTaker book side shares requestedNotional dollars limit trades bookAgeMs
      cfg
    let offered := offers side limit (bookDepthFactor bookAgeMs cfg) (oppositeLevels book side)
    let whole := labelled shares dollars estimate.filledShares estimate.filledNotionalUsd
    0 < bookDepthFactor bookAgeMs cfg ∧
      estimate.filledShares = amountTaken offered shares (budgetOf side dollars) ∧
      estimate.filledNotionalUsd = costOf offered estimate.filledShares ∧
      (estimate.status = .filled ↔ nearly * whole.1 ≤ whole.2) ∧
      (estimate.status = .filled ↔ nearly ≤ estimate.fillProbability) := by
  have hladder := isLadder_oppositeLevels book side
  have hleft := not_spent_budgetOf side hshares hdollars
  have hne : oppositeLevels book side ≠ [] := fun hnone =>
    hfilled.ne' (estimateTaker_of_empty (.inl hnone))
  have hwalked : 0 < (takerWalk book side limit bookAgeMs dollars cfg shares).filled :=
    not_le.1 fun hnone => hfilled.ne' (estimateTaker_of_empty (.inr hnone))
  have hdepth : 0 < bookDepthFactor bookAgeMs cfg := by
    by_contra hnot
    rw [takerWalk, filled_walkLevels_of_nonpos (not_lt.1 hnot) hladder] at hwalked
    exact absurd hwalked (lt_irrefl 0)
  have hwalk := @walkLevels_spec side limit (bookDepthFactor bookAgeMs cfg) _ hladder hdepth
    (bestFirst_oppositeLevels book side) ⟨shares, budgetOf side dollars, 0, 0, 0⟩ hleft
  dsimp only at hwalk
  rw [zero_add, zero_add] at hwalk
  obtain ⟨hamount, hcost⟩ := hwalk
  obtain ⟨hfilled', hnotional, hstatus, hprobability⟩ :=
    @estimateTaker_of_filled book side limit bookAgeMs dollars cfg shares requestedNotional trades
      hshares hdollars hne hwalked
  have hwhole : 0 < (labelled shares dollars
      (takerWalk book side limit bookAgeMs dollars cfg shares).filled
      (takerWalk book side limit bookAgeMs dollars cfg shares).notional).1 := by
    cases dollars with
    | none => exact hshares
    | some usd => exact hdollars usd rfl
  have hlabel : ∀ b : Bool, (if b then EstimateStatus.filled else .partlyFilled) = .filled ↔
      b = true := by
    intro b
    cases b <;> decide
  dsimp only at hstatus hprobability ⊢
  rw [hstatus, hprobability, hfilled', hnotional, hlabel, nearly_le_iff hwhole,
    nearly_le_clamp_iff hwhole]
  exact ⟨hdepth, hamount, by rw [takerWalk, hcost, hamount], Iff.rfl, Iff.rfl⟩

end Estimate

/-! ## The request -/

section Request

variable {estimateMaker : ℚ → ℚ → Option ℚ → ExecutionEstimate} {orderTypeKey : String}
  {book : OrderBook} {side : Side} {sizeUsd sizeShares limitPrice : Option ℚ}
  {trades : List RecentTrade} {bookAgeMs : Option ℚ} {cfg : EstimatorConfig}

lemma dollarsOf_pos : ∀ d ∈ dollarsOf sizeUsd, 0 < d := by
  intro d hd
  rw [dollarsOf] at hd
  split at hd
  · next hpos => exact Option.some.inj hd ▸ hpos
  · cases hd

lemma nearly_mul_le {a : ℚ} (h : 0 ≤ a) : nearly * a ≤ a :=
  mul_le_of_le_one_left h (by norm_num [nearly])

/-- The shares are used up exactly if nearly all of them can be had. -/
lemma nearly_le_min_iff {shares most : ℚ} (hshares : 0 ≤ shares) :
    nearly * shares ≤ min shares most ↔ nearly * shares ≤ most := by
  rw [le_min_iff, and_iff_right (nearly_mul_le hshares)]

/-- The budget is used up exactly if the shares cost nearly all of it. -/
lemma nearly_le_costOf_iff {offered : List (ℚ × ℚ)} (h : IsLadder offered) {shares d : ℚ}
    (hshares : 0 ≤ shares) (hd : 0 ≤ d) :
    nearly * d ≤ costOf offered (min shares (sharesFor offered d)) ↔
      nearly * d ≤ costOf offered shares := by
  rw [costOf_min_sharesFor h hshares hd, le_min_iff]
  refine ⟨And.left, fun hcost => ⟨hcost, ?_⟩⟩
  exact le_max_of_le_right
    (le_min (nearly_mul_le hd) (hcost.trans (costOf_le_ladderNotional h shares)))

/-- The label is right exactly if shares and dollars are used up together. -/
lemma usedUp_iff {offered : List (ℚ × ℚ)} {shares : ℚ} {dollars : Option ℚ}
    (h : IsLadder offered) (hshares : 0 < shares) (hdollars : ∀ d ∈ dollars, 0 < d)
    {filled notional : ℚ} (hfilled : filled = amountTaken offered shares (budgetOf side dollars))
    (hnotional : notional = costOf offered filled) :
    let whole := labelled shares dollars filled notional
    (nearly * whole.1 ≤ whole.2 ↔ UsedUp shares (budgetOf side dollars) filled notional) ↔
      ∀ d ∈ dollars, UsedUpTogether side offered shares d := by
  cases dollars with
  | none =>
    -- the label is taken of the shares, and nothing else limits the walk
    have hbudget : budgetOf side none = none := by cases side <;> rfl
    rw [hbudget]
    simp [labelled, UsedUp]
  | some d =>
    have hd : 0 < d := hdollars d rfl
    simp only [labelled, Option.mem_def, Option.some.injEq, forall_eq', UsedUpTogether]
    cases side with
    | buy =>
      have hused : nearly * shares ≤ filled ↔ nearly * shares ≤ sharesFor offered d := by
        rw [hfilled]
        exact nearly_le_min_iff hshares.le
      have hspent : nearly * d ≤ notional ↔ nearly * d ≤ costOf offered shares := by
        rw [hnotional, hfilled]
        exact nearly_le_costOf_iff h hshares.le hd.le
      simp only [UsedUp, budgetOf, Option.mem_def, Option.some.injEq, exists_eq_left', hused, hspent]
      exact ⟨fun hlabel hall => hlabel.2 (.inl hall),
        fun himp => ⟨.inr, fun hor => hor.elim himp id⟩⟩
    | sell =>
      have hused : nearly * shares ≤ filled ↔ nearly * shares ≤ ladderSize offered := by
        rw [hfilled]
        exact nearly_le_min_iff hshares.le
      have hbrought : notional = costOf offered shares := by
        rw [hnotional, hfilled]
        exact costOf_min_ladderSize h.sizes shares
      simp [UsedUp, budgetOf, hused, hbrought]

/-- On the taker path the order is estimated as a taker. -/
lemma estimateOrderOfType_eq (htaker : TakerPath orderTypeKey book side limitPrice)
    (hfilled : 0 < (estimateOrderOfType estimateMaker orderTypeKey book side sizeUsd sizeShares
      limitPrice trades bookAgeMs cfg).filledShares) :
    0 < sharesOf book side sizeUsd sizeShares limitPrice ∧
      ∃ requestedNotional,
        estimateOrderOfType estimateMaker orderTypeKey book side sizeUsd sizeShares limitPrice trades
            bookAgeMs cfg =
          estimateTaker book side (sharesOf book side sizeUsd sizeShares limitPrice)
            requestedNotional (dollarsOf sizeUsd) (normalizePrice limitPrice) trades bookAgeMs
            cfg := by
  rw [estimateOrderOfType] at hfilled ⊢
  split at hfilled
  · exact absurd hfilled (lt_irrefl 0)
  · next hvalid =>
    rw [if_neg hvalid, if_pos htaker]
    exact ⟨not_le.1 (not_or.1 hvalid).1, _, rfl⟩

/-- On the taker path, an estimate that fills something is the greedy optimum and labelled right
exactly if shares and dollars are used up together. -/
theorem estimatedRight_iff (htaker : TakerPath orderTypeKey book side limitPrice)
    (hfilled : 0 < (estimateOrderOfType estimateMaker orderTypeKey book side sizeUsd sizeShares
      limitPrice trades bookAgeMs cfg).filledShares) :
    EstimatedRight book side sizeUsd sizeShares limitPrice bookAgeMs cfg
        (estimateOrderOfType estimateMaker orderTypeKey book side sizeUsd sizeShares limitPrice
          trades bookAgeMs cfg) ↔
      SizesAgree book side sizeUsd sizeShares limitPrice bookAgeMs cfg := by
  obtain ⟨hshares, requestedNotional, heq⟩ := estimateOrderOfType_eq htaker hfilled
  rw [heq] at hfilled ⊢
  obtain ⟨hdepth, hamount, hcost, hstatus, hprobability⟩ :=
    estimateTaker_spec hshares dollarsOf_pos hfilled
  have hladder := isLadder_offers (isLadder_oppositeLevels book side) hdepth side
    (normalizePrice limitPrice)
  have hbest := (bestFirst_oppositeLevels book side).offers (normalizePrice limitPrice)
    (bookDepthFactor bookAgeMs cfg)
  have hleft : ¬ Spent (sharesOf book side sizeUsd sizeShares limitPrice)
      (budgetOf side (dollarsOf sizeUsd)) :=
    not_spent_budgetOf side hshares dollarsOf_pos
  have hbudget : side = .sell → budgetOf side (dollarsOf sizeUsd) = none := by
    rintro rfl
    rfl
  have hoptimum := greedyOptimum_amountTaken hladder hbest hleft hbudget
  have hlabel := usedUp_iff hladder hshares dollarsOf_pos hamount hcost
  rw [← hamount, ← hcost] at hoptimum
  rw [EstimatedRight, offeredOf, and_iff_right hoptimum, LabelledRight, and_iff_left hprobability,
    hstatus, SizesAgree, offeredOf]
  exact hlabel

end Request

section Examples

/-- An order whose maker path is not taken. -/
def takerOnly (orderTypeKey : String) (book : OrderBook) (side : Side)
    (sizeUsd sizeShares limitPrice : Option ℚ) : ExecutionEstimate :=
  estimateOrderOfType (fun shares notional _ => emptyEstimate .limitPriceNotExecutable shares notional)
    orderTypeKey book side sizeUsd sizeShares limitPrice [] none {}

/-- Thirty dollars at the ask. -/
theorem purchase_at_ask_estimated_right :
    EstimatedRight { asks := [⟨2 / 5, 100⟩] } .buy (some 30) none none none {}
      (takerOnly "limit" { asks := [⟨2 / 5, 100⟩] } .buy (some 30) none none) :=
  (estimatedRight_iff (by decide +kernel) (by decide +kernel)).2 (by decide +kernel)

/-- Fifty dollars at a limit of fifty cents are a hundred shares; all of them are bought at forty
cents, and the order is said to be filled in part. -/
theorem purchase_below_limit_labelled_partly :
    TakerPath "limit" { asks := [⟨2 / 5, 1000⟩] } .buy (some (1 / 2)) ∧
      0 < (takerOnly "limit" { asks := [⟨2 / 5, 1000⟩] } .buy (some 50) none
        (some (1 / 2))).filledShares ∧
      ¬ EstimatedRight { asks := [⟨2 / 5, 1000⟩] } .buy (some 50) none (some (1 / 2)) none {}
        (takerOnly "limit" { asks := [⟨2 / 5, 1000⟩] } .buy (some 50) none (some (1 / 2))) := by
  refine ⟨by decide +kernel, by decide +kernel, ?_⟩
  rintro ⟨_, hlabel, _⟩
  exact absurd (hlabel.2 (.inl (by decide +kernel))) (by decide +kernel)

/-- Half of the shares of a sale can bring in its dollars. -/
example : ¬ SizesAgree { bids := [⟨4 / 5, 75⟩] } .sell (some 50) none (some (2 / 5)) none {} := by
  decide +kernel

end Examples

end Evosport.Optimization
