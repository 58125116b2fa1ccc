/-
Arbitrage by volume-weighted prices (`services/optimization/vwap.py`).

Half the capital goes to each of the two outcomes.  Each half walks the asks of its book as the
taker path of the estimator does, and the sum of the two average prices decides whether the pair is
flagged.  `calculateBuyVwap_spec` says what a leg comes to: the spend and the shares of the ladder
of asks.
-/
import Evosport.Optimization.ExecutionEstimator

namespace Evosport.Optimization

open Lib Backtest

/-! ## The calculator -/

/-- `VwapResult`: the average price of walking a book for an amount of dollars. -/
structure VwapResult where
  vwap : ℚ
  totalAvailable : ℚ
  slippageBps : ℚ
  levelsConsumed : ℕ
  fillProbability : ℚ
deriving DecidableEq, Repr

/-- `_static_vwap_config` -/
def staticVwapConfig : EstimatorConfig :=
  { latencyMs := 0, displayedDepthFactor := 1, minDepthFactor := 1, staleDepthDecay := 0,
    adverseSelectionMultiplier := 0 }

/-- The price of the first ask as the book lists it. -/
def firstAsk (book : OrderBook) : ℚ := (book.asks.head?.map OrderBookLevel.price).getD 0

/-- `calculate_buy_vwap` -/
def calculateBuyVwap (book : OrderBook) (sizeUsd : ℚ) : VwapResult :=
  if sizeUsd ≤ 0 then ⟨firstAsk book, 0, 0, 0, 1⟩
  else if book.asks = [] then ⟨0, 0, 0, 0, 0⟩
  else
    let estimate := estimateOrder book .buy (some sizeUsd) none none [] none staticVwapConfig
    if estimate.filledShares = 0 then ⟨firstAsk book, 0, 0, 0, 0⟩
    else
      ⟨estimate.averagePrice.getD 0, estimate.filledNotionalUsd, estimate.slippageBps,
        estimate.levelsConsumed, estimate.fillProbability⟩

/-- `ArbitrageEstimate`: what buying both outcomes would cost and earn, the two averages with their
slippages, and the size that is recommended. -/
structure ArbitrageEstimate where
  yesVwap : ℚ
  noVwap : ℚ
  totalVwapCost : ℚ
  yesSlippageBps : ℚ
  noSlippageBps : ℚ
  fillProbability : ℚ
  orphanLegRiskUsd : ℚ
  maxExecutableUsd : ℚ
  recommendedSizeUsd : ℚ
  grossProfit : ℚ
  netProfit : ℚ
  expectedProfit : ℚ
  roiPercent : ℚ
  isProfitable : Bool
  yesLevelsConsumed : ℕ
  noLevelsConsumed : ℕ
deriving DecidableEq, Repr

/-- `estimate_arbitrage_profit`, with the threshold of the calculator -/
def estimateArbitrageProfit (minProfitThreshold : ℚ) (yesBook noBook : OrderBook) (sizeUsd : ℚ)
    (feeRate : ℚ := 2 / 100) : ArbitrageEstimate :=
  let halfSize := sizeUsd / 2
  let yes := calculateBuyVwap yesBook halfSize
  let no := calculateBuyVwap noBook halfSize
  let totalVwapCost := yes.vwap + no.vwap
  let achievableUsd := min yes.totalAvailable no.totalAvailable
  let fillProbability := yes.fillProbability * no.fillProbability
  let orphanLegRiskUsd := halfSize * (yes.fillProbability * (1 - no.fillProbability) +
    no.fillProbability * (1 - yes.fillProbability))
  let counted : Bool := totalVwapCost < 1 ∧ achievableUsd > 0
  let grossPerDollar := 1 - totalVwapCost
  let netPerDollar := grossPerDollar - 1 * feeRate
  let positionSize := if counted then min achievableUsd sizeUsd else 0
  let grossProfit := if counted then grossPerDollar * positionSize else 0
  let netProfit := if counted then netPerDollar * positionSize else 0
  { yesVwap := yes.vwap
    noVwap := no.vwap
    totalVwapCost
    yesSlippageBps := yes.slippageBps
    noSlippageBps := no.slippageBps
    fillProbability
    orphanLegRiskUsd
    maxExecutableUsd := achievableUsd
    recommendedSizeUsd := positionSize
    grossProfit
    netProfit
    expectedProfit := if counted then netProfit * fillProbability else 0
    roiPercent := if counted then netPerDollar / totalVwapCost * 100 else 0
    isProfitable :=
      netProfit > minProfitThreshold ∧ fillProbability > 1 / 2 ∧ totalVwapCost < 95 / 100
    yesLevelsConsumed := yes.levelsConsumed
    noLevelsConsumed := no.levelsConsumed }

/-! ## A leg -/

section Leg

variable {book : OrderBook}

lemma isLadder_askLevels (book : OrderBook) : IsLadder (askLevels book) :=
  isLadder_oppositeLevels book .buy

/-- Without any ask to take, the estimate is empty. -/
lemma filledShares_of_nil (h : askLevels book = []) (sizeUsd : ℚ) :
    (estimateOrder book .buy (some sizeUsd) none none [] none staticVwapConfig).filledShares = 0 := by
  rw [estimateOrder]
  split
  · rfl
  · rw [estimateTaker, oppositeLevels, if_pos h]
    rfl

/-- The estimate of a purchase: the shares and the spend of the ladder of asks. -/
lemma estimateOrder_spec (hne : askLevels book ≠ []) {sizeUsd : ℚ} (hpos : 0 < sizeUsd) :
    let estimate := estimateOrder book .buy (some sizeUsd) none none [] none staticVwapConfig
    0 < sharesFor (askLevels book) sizeUsd ∧
      estimate.filledShares = sharesFor (askLevels book) sizeUsd ∧
      estimate.filledNotionalUsd = spend (askLevels book) sizeUsd ∧
      estimate.averagePrice =
        some (spend (askLevels book) sizeUsd / sharesFor (askLevels book) sizeUsd) := by
  have h := isLadder_askLevels book
  have hspend := spend_pos h hne hpos
  have hshares : 0 < sharesFor (askLevels book) sizeUsd := by
    rw [← costOf_lt_spend_iff h le_rfl, costOf_of_nonpos h.sizes le_rfl]
    exact hspend
  obtain ⟨⟨price, size⟩, levels, hlevels⟩ := List.exists_cons_of_ne_nil hne
  have hprice : 0 < price := (h (price, size) (by rw [hlevels]; exact List.mem_cons_self)).1
  have hfirst : bestOf (askLevels book) = price := by
    rw [bestOf, hlevels]
    rfl
  have hsorted : (askLevels book).Pairwise fun a b => a.1 ≤ b.1 := pairwise_sortByKey _
  have hcheapest : ∀ l ∈ askLevels book, price ≤ l.1 := by
    intro l hl
    rw [hlevels] at hl hsorted
    rcases List.mem_cons.1 hl with rfl | hl
    · exact le_rfl
    · exact (List.pairwise_cons.1 hsorted).1 l hl
  have hdepth : bookDepthFactor none staticVwapConfig = 1 := by decide +kernel
  have hrequested : 0 < sizeUsd / price := div_pos hpos hprice
  have hreference : referencePrice .buy (normalizePrice none) book = price := by
    rw [referencePrice, normalizePrice, Option.bind_none, Option.filter_none, oppositeLevels, hfirst,
      if_pos hprice]
  have hasked : requestedSharesOf (some sizeUsd) none price = sizeUsd / price := by
    rw [requestedSharesOf]
    simp only [Option.getD_none, Option.getD_some, gt_iff_lt, lt_irrefl, if_false]
    exact if_neg (not_or.2 ⟨not_le.2 hpos, not_le.2 hprice⟩)
  have hoffers : offers .buy none 1 (askLevels book) = askLevels book := by
    have hall : (askLevels book).filter (fun l => !beyondWorst .buy none l.1) = askLevels book :=
      List.filter_eq_self.2 fun l _ => rfl
    rw [offers, hall]
    simp
  have hamount : amountTaken (askLevels book) (sizeUsd / price) (some sizeUsd) =
      sharesFor (askLevels book) sizeUsd := by
    refine min_eq_right ?_
    by_contra hmore
    have hcost := costOf_lt_costOf h hsorted hrequested.le (not_le.1 hmore)
      (sharesFor_le_ladderSize _ _)
    have hslope := mul_sub_le_costOf_sub h.sizes hcheapest le_rfl hrequested.le
      ((not_le.1 hmore).le.trans (sharesFor_le_ladderSize _ _))
    rw [costOf_of_nonpos h.sizes le_rfl, sub_zero, sub_zero, mul_div_cancel₀ _ hprice.ne'] at hslope
    rw [costOf_sharesFor h hpos.le] at hcost
    exact absurd (max_le hpos.le (min_le_left _ _)) (not_le.2 (hslope.trans_lt hcost))
  have hleft : ¬ Spent (sizeUsd / price) (some sizeUsd) :=
    not_spent.2 ⟨hrequested, fun b hb => Option.some.inj hb ▸ hpos⟩
  have hbest : BestFirst .buy (askLevels book) := hsorted
  have hwalk := @walkLevels_spec .buy none 1 _ h one_pos hbest ⟨sizeUsd / price, some sizeUsd, 0, 0, 0⟩
    hleft
  simp only [hoffers, hamount, zero_add, costOf_sharesFor h hpos.le] at hwalk
  obtain ⟨hfilled, hnotional⟩ := hwalk
  rw [estimateOrder]
  simp only [hreference, hasked, Option.getD_some, gt_iff_lt, if_pos hpos,
    if_neg (not_or.2 ⟨not_le.2 hrequested, not_le.2 hprice⟩)]
  rw [estimateTaker, oppositeLevels, if_neg hne]
  simp only [normalizePrice, Option.bind_none, hdepth, hfilled, hnotional,
    if_neg (not_le.2 hshares)]
  exact ⟨hshares, trivial, trivial, trivial⟩

/-- The shares of a leg that is filled at its average price. -/
def VwapResult.shares (leg : VwapResult) : ℚ := leg.totalAvailable / leg.vwap

/-- What a leg comes to. -/
lemma calculateBuyVwap_spec (book : OrderBook) (sizeUsd : ℚ) :
    (calculateBuyVwap book sizeUsd).totalAvailable = spend (askLevels book) sizeUsd ∧
      (calculateBuyVwap book sizeUsd).shares = sharesFor (askLevels book) sizeUsd := by
  have h := isLadder_askLevels book
  have hunfilled : ∀ {leg : VwapResult}, leg.totalAvailable = 0 → leg.shares = 0 := by
    intro leg hleg
    rw [VwapResult.shares, hleg, zero_div]
  rw [calculateBuyVwap]
  split
  case isTrue hnone =>
    rw [spend_of_nonpos hnone, sharesFor_of_nonpos h hnone]
    exact ⟨rfl, hunfilled rfl⟩
  case isFalse hpos =>
    have hpos : 0 < sizeUsd := not_le.1 hpos
    by_cases hlevels : askLevels book = []
    · rw [hlevels, spend_nil, sharesFor]
      split
      · exact ⟨rfl, hunfilled rfl⟩
      · simp only [filledShares_of_nil hlevels, if_true]
        exact ⟨trivial, hunfilled rfl⟩
    · have hasks : book.asks ≠ [] := by
        intro hasks
        rw [askLevels, rows, hasks] at hlevels
        exact hlevels rfl
      obtain ⟨hshares, hfilled, hnotional, haverage⟩ := estimateOrder_spec hlevels hpos
      rw [if_neg hasks]
      simp only [hfilled, if_neg hshares.ne', hnotional, haverage, Option.getD_some]
      refine ⟨trivial, ?_⟩
      rw [VwapResult.shares, div_div_cancel₀ (spend_pos h hlevels hpos).ne']

end Leg

/-! ## A flagged pair -/

section Pair

variable (minProfitThreshold : ℚ) (yesBook noBook : OrderBook) (sizeUsd feeRate : ℚ)

/-- One dollar for each pair of shares that is filled. -/
def guaranteedPayout : ℚ :=
  1 * min (calculateBuyVwap yesBook (sizeUsd / 2)).shares (calculateBuyVwap noBook (sizeUsd / 2)).shares

/-- What the two legs cost, with the fee on the payout. -/
def totalCost : ℚ :=
  (calculateBuyVwap yesBook (sizeUsd / 2)).totalAvailable +
    (calculateBuyVwap noBook (sizeUsd / 2)).totalAvailable +
    feeRate * guaranteedPayout yesBook noBook sizeUsd

/-- If the pair is flagged, the payout exceeds the cost. -/
def PaysIfFlagged : Prop :=
  (estimateArbitrageProfit minProfitThreshold yesBook noBook sizeUsd feeRate).isProfitable = true →
    totalCost yesBook noBook sizeUsd feeRate < guaranteedPayout yesBook noBook sizeUsd

/-- What the books let the two halves of the capital spend. -/
def totalSpend : ℚ :=
  spend (askLevels yesBook) (sizeUsd / 2) + spend (askLevels noBook) (sizeUsd / 2)

/-- The shares whose payout, less the fee, is the whole spend cost less in either book than the book
lets its half spend. -/
def EachBookCovers : Prop :=
  let shares := totalSpend yesBook noBook sizeUsd / (1 - feeRate)
  feeRate < 1 ∧
    costOf (askLevels yesBook) shares < spend (askLevels yesBook) (sizeUsd / 2) ∧
    costOf (askLevels noBook) shares < spend (askLevels noBook) (sizeUsd / 2)

instance : Decidable (EachBookCovers yesBook noBook sizeUsd feeRate) :=
  inferInstanceAs (Decidable (_ ∧ _ ∧ _))

variable {yesBook noBook sizeUsd feeRate}

/-- The payout exceeds the cost exactly where each book sells the shares that make up for the whole
spend for less than its part of it. -/
lemma totalCost_lt_iff :
    totalCost yesBook noBook sizeUsd feeRate < guaranteedPayout yesBook noBook sizeUsd ↔
      EachBookCovers yesBook noBook sizeUsd feeRate := by
  obtain ⟨hyes, hyesShares⟩ := calculateBuyVwap_spec yesBook (sizeUsd / 2)
  obtain ⟨hno, hnoShares⟩ := calculateBuyVwap_spec noBook (sizeUsd / 2)
  have hladder := isLadder_askLevels yesBook
  have hladder' := isLadder_askLevels noBook
  have hspend : 0 ≤ totalSpend yesBook noBook sizeUsd :=
    add_nonneg (spend_nonneg _ _) (spend_nonneg _ _)
  rw [totalCost, guaranteedPayout, hyes, hno, hyesShares, hnoShares, ← totalSpend, one_mul,
    EachBookCovers]
  have hpayout : 0 ≤ min (sharesFor (askLevels yesBook) (sizeUsd / 2))
      (sharesFor (askLevels noBook) (sizeUsd / 2)) :=
    le_min (sharesFor_nonneg hladder _) (sharesFor_nonneg hladder' _)
  rcases lt_or_ge feeRate 1 with hfee | hfee
  · have hnet : 0 < 1 - feeRate := sub_pos.2 hfee
    have hamount : 0 ≤ totalSpend yesBook noBook sizeUsd / (1 - feeRate) := div_nonneg hspend hnet.le
    rw [costOf_lt_spend_iff hladder hamount, costOf_lt_spend_iff hladder' hamount, ← lt_min_iff,
      and_iff_right hfee, div_lt_iff₀ hnet, mul_sub, mul_one, lt_sub_iff_add_lt, mul_comm feeRate]
  · refine ⟨fun hlt => ?_, fun h => absurd h.1 (not_lt.2 hfee)⟩
    have hfees : 0 ≤ (feeRate - 1) * min (sharesFor (askLevels yesBook) (sizeUsd / 2))
        (sharesFor (askLevels noBook) (sizeUsd / 2)) := mul_nonneg (sub_nonneg.2 hfee) hpayout
    linarith

/-- A flagged pair is an arbitrage exactly where each book covers the whole spend. -/
theorem paysIfFlagged_iff
    (hflag : (estimateArbitrageProfit minProfitThreshold yesBook noBook sizeUsd
      feeRate).isProfitable = true) :
    PaysIfFlagged minProfitThreshold yesBook noBook sizeUsd feeRate ↔
      EachBookCovers yesBook noBook sizeUsd feeRate := by
  rw [PaysIfFlagged, totalCost_lt_iff]
  exact ⟨fun h => h hflag, fun h _ => h⟩

end Pair

section Examples

/-- A book of asks at one price. -/
def asksAt (price size : ℚ) : OrderBook := { asks := [⟨price, size⟩] }

theorem near_prices_pay :
    PaysIfFlagged (5 / 100) (asksAt (2 / 5) 200) (asksAt (9 / 20) 200) 100 (2 / 100) :=
  (paysIfFlagged_iff _ (by decide +kernel)).2 (by decide +kernel)

/-- Ten and eighty cents: half the capital buys 500 shares of one outcome and 62.5 of the other. -/
theorem cheap_and_dear_flagged :
    ¬ PaysIfFlagged (5 / 100) (asksAt (1 / 10) 1000) (asksAt (8 / 10) 1000) 100 (2 / 100) := by
  intro h
  exact absurd (h (by decide +kernel)) (by decide +kernel)

end Examples

end Evosport.Optimization
