/-
The taker path of the execution estimator (`services/optimization/execution_estimator.py`).

An order walks the levels of the opposite side, best price first, as far as its limit, its shares,
its budget and the executable part of the displayed depth allow.  `walkLevels_spec` says what the
walk comes to: the amount that the shares and the budget take of the offers within the limit, and
what this amount costs when the offers are taken in turn.

Numbers are exact.  Of the estimator the market orders are modelled, without the fields that repeat
an argument or serve diagnosis.
-/
import Evosport.Backtest.Book
import Evosport.Lib.Ladder
import Evosport.Lib.StableSort

namespace Evosport.Optimization

open Lib Backtest

/-! ## Books -/

/-- `_MIN_PRICE` -/
def minPrice : ℚ := 1 / 10000

/-- `_MAX_PRICE` -/
def maxPrice : ℚ := 9999 / 10000

/-- `OrderBookLevel`: a price and what is offered or asked for at it. -/
structure OrderBookLevel where
  price : ℚ
  size : ℚ
deriving DecidableEq, Repr

/-- `OrderBook`: the two sides, in the order in which they came. -/
structure OrderBook where
  bids : List OrderBookLevel := []
  asks : List OrderBookLevel := []
deriving DecidableEq, Repr

/-- The rows that `_levels` keeps of one side, their prices bounded. -/
def rows (raw : List OrderBookLevel) : List (ℚ × ℚ) :=
  (raw.filter fun level => 0 < level.price ∧ 0 < level.size).map fun level =>
    (max minPrice (min maxPrice level.price), level.size)

/-- `_levels(order_book, "asks")` -/
def askLevels (book : OrderBook) : List (ℚ × ℚ) := sortByKey Prod.fst (rows book.asks)

/-- `_levels(order_book, "bids")` -/
def bidLevels (book : OrderBook) : List (ℚ × ℚ) := sortByKey (fun row => -row.1) (rows book.bids)

/-- The levels that an order of the side takes. -/
def oppositeLevels (book : OrderBook) : Side → List (ℚ × ℚ)
  | .buy => askLevels book
  | .sell => bidLevels book

/-- The price of the first level, zero if there is none. -/
def bestOf (levels : List (ℚ × ℚ)) : ℚ := (levels.head?.map Prod.fst).getD 0

/-- `_mid_price` -/
def midPrice (book : OrderBook) : ℚ :=
  let bestBid := bestOf (bidLevels book)
  let bestAsk := bestOf (askLevels book)
  if bestBid > 0 ∧ bestAsk > 0 then (bestBid + bestAsk) / 2
  else if bestBid ≠ 0 then bestBid else bestAsk

/-- `_spread_bps` -/
def spreadBps (book : OrderBook) : ℚ :=
  let bid := bestOf (bidLevels book)
  let ask := bestOf (askLevels book)
  if bid ≤ 0 ∨ ask ≤ 0 then 0
  else
    let mid := (bid + ask) / 2
    if mid ≤ 0 then 0 else max 0 ((ask - bid) / mid * 10000)

/-! ## The estimator -/

/-- `ExecutionEstimatorConfig`, what the taker path reads of it: the fee, the latency, how much of
the displayed depth counts and how it decays with age, and how recent a trade has to be. -/
structure EstimatorConfig where
  feeBps : ℚ := 0
  latencyMs : ℚ := 350
  displayedDepthFactor : ℚ := 88 / 100
  minDepthFactor : ℚ := 20 / 100
  maxBookAgeMs : ℚ := 10000
  staleDepthDecay : ℚ := 55 / 100
  adverseSelectionMultiplier : ℚ := 70 / 100
  recentTradeLookbackSeconds : ℚ := 30
deriving DecidableEq, Repr

/-- `RecentTrade`: a trade that was seen shortly before. -/
structure RecentTrade where
  timestamp : ℚ
  price : ℚ
  size : ℚ
  side : Side
deriving DecidableEq, Repr

/-- The imbalance and the number of trades in `_trade_stats`.  Trades that are older than the
lookback, counted from the latest one, are left out. -/
def tradeStats (trades : List RecentTrade) (lookbackSeconds : ℚ) : ℚ × ℕ :=
  match trades.map RecentTrade.timestamp with
  | [] => (0, 0)
  | first :: rest =>
    let latest := rest.foldl max first
    let counted := trades.filter fun trade =>
      ¬ (0 < latest ∧ trade.timestamp ≠ 0 ∧
        trade.timestamp < latest - max 1 lookbackSeconds) ∧ 0 < trade.price ∧ 0 < trade.size
    let notional (side : Side) : ℚ :=
      ((counted.filter fun trade => trade.side = side).map fun trade =>
        trade.size * trade.price).sum
    let total := notional .buy + notional .sell
    (if total > 0 then (notional .buy - notional .sell) / total else 0, counted.length)

/-- `_adverse_selection_bps` for a taker -/
def adverseSelectionBps (side : Side) (book : OrderBook) (trades : List RecentTrade)
    (cfg : EstimatorConfig) : ℚ :=
  let (imbalance, tradeCount) := tradeStats trades cfg.recentTradeLookbackSeconds
  let pressure := match side with
    | .buy => imbalance
    | .sell => -imbalance
  let tradeCountComponent := min 1 ((tradeCount : ℚ) / 20)
  max 0 (max 0 pressure * max 10 (spreadBps book) * cfg.adverseSelectionMultiplier *
    (65 / 100 + 35 / 100 * tradeCountComponent))

/-- `_slippage_bps` -/
def slippageBps (side : Side) (averagePrice referencePrice : ℚ) : ℚ :=
  if referencePrice ≤ 0 ∨ averagePrice ≤ 0 then 0
  else match side with
    | .buy => (averagePrice - referencePrice) / referencePrice * 10000
    | .sell => (referencePrice - averagePrice) / referencePrice * 10000

/-- `_apply_adverse_price` -/
def applyAdversePrice (side : Side) (averagePrice adverseBps : ℚ) : ℚ :=
  let adjustment := averagePrice * max 0 adverseBps / 10000
  match side with
  | .buy => max minPrice (min maxPrice (averagePrice + adjustment))
  | .sell => max minPrice (min maxPrice (averagePrice - adjustment))

/-- `_book_depth_factor` -/
def bookDepthFactor (bookAgeMs : Option ℚ) (cfg : EstimatorConfig) : ℚ :=
  let base := max 0 (min 1 cfg.displayedDepthFactor)
  match bookAgeMs with
  | none => max cfg.minDepthFactor base
  | some age =>
    if cfg.maxBookAgeMs ≤ 0 ∨ cfg.staleDepthDecay ≤ 0 then max cfg.minDepthFactor base
    else
      let ageRatio := max 0 age / cfg.maxBookAgeMs
      let staleMultiplier := max cfg.minDepthFactor (1 - min 1 ageRatio * cfg.staleDepthDecay)
      max cfg.minDepthFactor (min 1 (base * staleMultiplier))

/-- How much of the order the estimate fills. -/
inductive EstimateStatus
  | filled | partlyFilled | unfilled
deriving DecidableEq, Repr

/-- Why the estimate fills no more. -/
inductive EstimateReason
  | invalidSizeOrPrice | emptyOppositeBook | limitPriceNotExecutable
  | oppositeBookConsumed | insufficientExecutableDepth
deriving DecidableEq, Repr

/-- `ExecutionEstimate`: what the order would have met with, its costs included. -/
structure ExecutionEstimate where
  status : EstimateStatus := .unfilled
  reason : EstimateReason
  requestedShares : ℚ
  filledShares : ℚ := 0
  remainingShares : ℚ
  requestedNotionalUsd : ℚ
  filledNotionalUsd : ℚ := 0
  averagePrice : Option ℚ := none
  economicPrice : Option ℚ := none
  feesUsd : ℚ := 0
  slippageBps : ℚ := 0
  priceImpactBps : ℚ := 0
  adverseSelectionBps : ℚ := 0
  adverseSelectionCostUsd : ℚ := 0
  fillProbability : ℚ := 0
  levelsConsumed : ℕ := 0
deriving DecidableEq, Repr

/-- `_empty_estimate` -/
def emptyEstimate (reason : EstimateReason) (requestedShares requestedNotional : ℚ) :
    ExecutionEstimate :=
  { reason, requestedShares, remainingShares := requestedShares,
    requestedNotionalUsd := requestedNotional }

/-- What the walk over the levels keeps: the shares and the budget that remain, what was taken and
paid, and the number of levels it used. -/
structure TakerWalk where
  remaining : ℚ
  remainingBudget : Option ℚ
  filled : ℚ := 0
  notional : ℚ := 0
  levelsConsumed : ℕ := 0
deriving DecidableEq, Repr

/-- The price is beyond the limit. -/
def beyondWorst (side : Side) (worst : Option ℚ) (price : ℚ) : Bool :=
  match side, worst with
  | _, none => false
  | .buy, some worst => price > worst
  | .sell, some worst => price < worst

/-- The loop of `_estimate_taker`: it takes from each level what its haircut leaves, until the
shares or the budget are used up or a level is beyond the limit. -/
def walkLevels (side : Side) (worst : Option ℚ) (depthFactor : ℚ) :
    List (ℚ × ℚ) → TakerWalk → TakerWalk
  | [], w => w
  | (price, displayedSize) :: levels, w =>
    if beyondWorst side worst price then w
    else
      let executableSize := max 0 (displayedSize * depthFactor)
      if executableSize ≤ 0 then walkLevels side worst depthFactor levels w
      else if ∃ budget ∈ w.remainingBudget, budget ≤ 0 then w
      else
        let take := match w.remainingBudget with
          | some budget => min (min w.remaining executableSize) (budget / price)
          | none => min w.remaining executableSize
        if take ≤ 0 then w
        else
          let w : TakerWalk :=
            { remaining := w.remaining - take
              remainingBudget := w.remainingBudget.map (· - take * price)
              filled := w.filled + take
              notional := w.notional + take * price
              levelsConsumed := w.levelsConsumed + 1 }
          if w.remaining ≤ 0 ∨ ∃ budget ∈ w.remainingBudget, budget ≤ 0 then w
          else walkLevels side worst depthFactor levels w

/-- Whether an order is filled but for a rounding. -/
def isFilled (fillRatio : ℚ) : Bool := fillRatio ≥ 999999 / 1000000

/-- `_estimate_taker`: the walk over the opposite side of the book, and the prices, costs and labels
that it comes to.  The fill ratio is of the budget where there is one, else of the shares. -/
def estimateTaker (book : OrderBook) (side : Side) (requestedShares requestedNotional : ℚ)
    (spendBudgetUsd limitPrice : Option ℚ) (trades : List RecentTrade) (bookAgeMs : Option ℚ)
    (cfg : EstimatorConfig) : ExecutionEstimate :=
  let levels := oppositeLevels book side
  if levels = [] then emptyEstimate .emptyOppositeBook requestedShares requestedNotional
  else
    let w := walkLevels side limitPrice (bookDepthFactor bookAgeMs cfg) levels
      { remaining := requestedShares
        remainingBudget := match side with
          | .buy => spendBudgetUsd
          | .sell => none }
    if w.filled ≤ 0 then
      emptyEstimate .limitPriceNotExecutable requestedShares requestedNotional
    else
      let averagePrice := w.notional / w.filled
      let mid := if midPrice book ≠ 0 then midPrice book else averagePrice
      let adverseBps := adverseSelectionBps side book trades cfg
      let fillRatio := match spendBudgetUsd with
        | some budget =>
          if budget > 0 then w.notional / budget
          else if requestedShares > 0 then w.filled / requestedShares else 0
        | none => if requestedShares > 0 then w.filled / requestedShares else 0
      { status := if isFilled fillRatio then .filled else .partlyFilled
        reason := if isFilled fillRatio then .oppositeBookConsumed else .insufficientExecutableDepth
        requestedShares
        filledShares := w.filled
        remainingShares := max 0 (requestedShares - w.filled)
        requestedNotionalUsd := requestedNotional
        filledNotionalUsd := w.notional
        averagePrice := some averagePrice
        economicPrice := some (applyAdversePrice side averagePrice adverseBps)
        feesUsd := w.notional * max 0 cfg.feeBps / 10000
        slippageBps := slippageBps side averagePrice mid
        priceImpactBps := slippageBps side averagePrice (bestOf levels)
        adverseSelectionBps := adverseBps
        adverseSelectionCostUsd := w.filled * averagePrice * adverseBps / 10000
        fillProbability := min 1 (max 0 fillRatio)
        levelsConsumed := w.levelsConsumed }

/-- `_normalize_price` -/
def normalizePrice (value : Option ℚ) : Option ℚ :=
  value.bind fun parsed =>
    if parsed ≤ 0 ∨ parsed > 1 then none else some (max minPrice (min maxPrice parsed))

/-- `_reference_price` -/
def referencePrice (side : Side) (limitPrice : Option ℚ) (book : OrderBook) : ℚ :=
  match limitPrice.filter (0 < ·) with
  | some limit => limit
  | none =>
    let best := bestOf (oppositeLevels book side)
    if best > 0 then best else midPrice book

/-- `_requested_shares` -/
def requestedSharesOf (sizeUsd sizeShares : Option ℚ) (referencePrice : ℚ) : ℚ :=
  let shares := sizeShares.getD 0
  if shares > 0 then shares
  else
    let usd := sizeUsd.getD 0
    if usd ≤ 0 ∨ referencePrice ≤ 0 then 0 else usd / referencePrice

/-- `estimate_order` with `order_type="market"`: the shares that are asked for come from the size in
dollars or in shares, by the reference price. -/
def estimateOrder (book : OrderBook) (side : Side) (sizeUsd sizeShares limitPrice : Option ℚ)
    (trades : List RecentTrade) (bookAgeMs : Option ℚ) (cfg : EstimatorConfig) :
    ExecutionEstimate :=
  let limit := normalizePrice limitPrice
  let reference := referencePrice side limit book
  let requestedShares := requestedSharesOf sizeUsd sizeShares reference
  let explicitSizeUsd := sizeUsd.getD 0
  let requestedNotional :=
    if explicitSizeUsd > 0 then explicitSizeUsd
    else if reference > 0 then requestedShares * reference else 0
  if requestedShares ≤ 0 ∨ reference ≤ 0 then
    emptyEstimate .invalidSizeOrPrice (max 0 requestedShares) (max 0 requestedNotional)
  else
    estimateTaker book side requestedShares requestedNotional
      (if explicitSizeUsd > 0 then some explicitSizeUsd else none) limit trades bookAgeMs cfg

/-! ## The walk -/

/-- The levels within the limit, each with what of it can be executed. -/
def offers (side : Side) (worst : Option ℚ) (depthFactor : ℚ) (levels : List (ℚ × ℚ)) :
    List (ℚ × ℚ) :=
  (levels.filter fun l => !beyondWorst side worst l.1).map fun l => (l.1, l.2 * depthFactor)

/-- The best price comes first. -/
def BestFirst (side : Side) (levels : List (ℚ × ℚ)) : Prop :=
  match side with
  | .buy => levels.Pairwise fun a b => a.1 ≤ b.1
  | .sell => levels.Pairwise fun a b => b.1 ≤ a.1

lemma isLadder_rows (raw : List OrderBookLevel) : IsLadder (rows raw) := by
  intro l hl
  obtain ⟨level, hlevel, rfl⟩ := List.mem_map.1 hl
  have hkept : 0 < level.price ∧ 0 < level.size := by simpa using (List.mem_filter.1 hlevel).2
  exact ⟨lt_max_of_lt_left (by norm_num [minPrice]), hkept.2⟩

lemma isLadder_oppositeLevels (book : OrderBook) (side : Side) :
    IsLadder (oppositeLevels book side) := by
  cases side with
  | buy => exact fun l hl => isLadder_rows _ l (mem_sortByKey.1 hl)
  | sell => exact fun l hl => isLadder_rows _ l (mem_sortByKey.1 hl)

lemma bestFirst_oppositeLevels (book : OrderBook) (side : Side) :
    BestFirst side (oppositeLevels book side) := by
  cases side with
  | buy => exact pairwise_sortByKey _
  | sell => exact (pairwise_sortByKey _).imp fun hle => neg_le_neg_iff.1 hle

/-- What shares and a budget take of the levels in turn. -/
def amountTaken (levels : List (ℚ × ℚ)) (shares : ℚ) (budget : Option ℚ) : ℚ :=
  match budget with
  | some budget => min shares (sharesFor levels budget)
  | none => min shares (ladderSize levels)

/-- What is taken of a level. -/
def takeOf (shares : ℚ) (budget : Option ℚ) (price size : ℚ) : ℚ :=
  match budget with
  | some budget => min (min shares size) (budget / price)
  | none => min shares size

/-- The shares or the budget are used up. -/
def Spent (shares : ℚ) (budget : Option ℚ) : Prop := shares ≤ 0 ∨ ∃ b ∈ budget, b ≤ 0

instance (shares : ℚ) (budget : Option ℚ) : Decidable (Spent shares budget) :=
  inferInstanceAs (Decidable (shares ≤ 0 ∨ ∃ b ∈ budget, b ≤ 0))

section Walk

variable {side : Side} {worst budget : Option ℚ} {depthFactor price size shares : ℚ}
  {levels : List (ℚ × ℚ)}

lemma not_spent : ¬ Spent shares budget ↔ 0 < shares ∧ ∀ b ∈ budget, 0 < b := by
  simp [Spent, not_or]

lemma takeOf_pos (h : ¬ Spent shares budget) (hprice : 0 < price) (hsize : 0 < size) :
    0 < takeOf shares budget price size := by
  obtain ⟨hshares, hbudget⟩ := not_spent.1 h
  cases budget with
  | none => exact lt_min hshares hsize
  | some b => exact lt_min (lt_min hshares hsize) (div_pos (hbudget b rfl) hprice)

lemma takeOf_le (shares : ℚ) (budget : Option ℚ) (price size : ℚ) :
    takeOf shares budget price size ≤ size := by
  cases budget with
  | none => exact min_le_right _ _
  | some b => exact (min_le_left _ _).trans (min_le_right _ _)

lemma amountTaken_nonneg (h : IsLadder levels) (hshares : 0 ≤ shares) :
    0 ≤ amountTaken levels shares budget := by
  cases budget with
  | none => exact le_min hshares h.sizes.ladderSize_nonneg
  | some b => exact le_min hshares (sharesFor_nonneg h b)

lemma amountTaken_le (levels : List (ℚ × ℚ)) (shares : ℚ) (budget : Option ℚ) :
    amountTaken levels shares budget ≤ shares := by
  cases budget with
  | none => exact min_le_left _ _
  | some b => exact min_le_left _ _

lemma amountTaken_nil (h : ¬ Spent shares budget) : amountTaken [] shares budget = 0 := by
  have hshares := (not_spent.1 h).1
  cases budget with
  | none => exact min_eq_right hshares.le
  | some b => exact min_eq_right hshares.le

/-- If the first level uses up the shares or the budget, nothing is taken behind it. -/
lemma amountTaken_of_spent (h : IsLadder ((price, size) :: levels)) (hleft : ¬ Spent shares budget)
    (hspent : Spent (shares - takeOf shares budget price size)
      (budget.map (· - takeOf shares budget price size * price))) :
    amountTaken ((price, size) :: levels) shares budget = takeOf shares budget price size := by
  obtain ⟨hprice, hsize⟩ := h.head
  obtain ⟨hshares, hbudget⟩ := not_spent.1 hleft
  cases budget with
  | none =>
    have hused : shares - min shares size ≤ 0 := by simpa [Spent, takeOf] using hspent
    have hshort : shares ≤ size := (sub_nonpos.1 hused).trans (min_le_right _ _)
    have hsizes := h.tail.sizes.ladderSize_nonneg
    rw [amountTaken, takeOf, ladderSize_cons, min_eq_left hshort,
      min_eq_left (hshort.trans (le_add_of_nonneg_right hsizes))]
  | some b =>
    have hb : 0 < b := hbudget b rfl
    have hused : shares ≤ min (min shares size) (b / price) ∨
        b ≤ min (min shares size) (b / price) * price := by
      simpa [Spent, takeOf] using hspent
    rw [amountTaken, takeOf]
    rcases hused with hused | hused
    · -- the shares end here
      have hfit : shares ≤ size := (hused.trans (min_le_left _ _)).trans (min_le_right _ _)
      have hafford : shares ≤ b / price := hused.trans (min_le_right _ _)
      have hbought : shares ≤ sharesFor ((price, size) :: levels) b := by
        have hrest := sharesFor_nonneg h.tail (b - price * size)
        rw [sharesFor, max_eq_right hb.le]
        exact (le_min hfit hafford).trans (le_add_of_nonneg_right hrest)
      rw [min_eq_left hbought, min_eq_left hfit, min_eq_left hafford]
    · -- the budget ends here
      have hlast : b / price ≤ min shares size :=
        ((div_le_iff₀ hprice).2 hused).trans (min_le_left _ _)
      have hshort : b ≤ price * size :=
        (div_le_iff₀' hprice).1 (hlast.trans (min_le_right _ _))
      rw [sharesFor_of_le h hb.le hshort, min_eq_right hlast,
        min_eq_right (hlast.trans (min_le_left _ _))]

/-- Otherwise the first level is taken whole, and the rest behind it. -/
lemma amountTaken_of_left (h : IsLadder ((price, size) :: levels)) (hleft : ¬ Spent shares budget)
    (hmore : ¬ Spent (shares - takeOf shares budget price size)
      (budget.map (· - takeOf shares budget price size * price))) :
    takeOf shares budget price size = size ∧
      amountTaken ((price, size) :: levels) shares budget =
        size + amountTaken levels (shares - size) (budget.map (· - size * price)) := by
  obtain ⟨hprice, hsize⟩ := h.head
  obtain ⟨hshares, hbudget⟩ := not_spent.1 hmore
  cases budget with
  | none =>
    have htake : min shares size = size := by
      rcases min_choice shares size with heq | heq
      · rw [takeOf, heq, sub_self] at hshares
        exact absurd hshares (lt_irrefl _)
      · exact heq
    refine ⟨htake, ?_⟩
    rw [amountTaken, Option.map_none, amountTaken, ladderSize_cons, ← min_add_add_left,
      add_sub_cancel]
  | some b =>
    have hrest : 0 < b - takeOf shares (some b) price size * price := hbudget _ rfl
    have htake : takeOf shares (some b) price size = size := by
      rw [takeOf] at hshares hrest ⊢
      rcases min_choice (min shares size) (b / price) with heq | heq
      · rw [heq] at hshares ⊢
        rcases min_choice shares size with heq' | heq'
        · rw [heq', sub_self] at hshares
          exact absurd hshares (lt_irrefl _)
        · exact heq'
      · rw [heq, div_mul_cancel₀ _ hprice.ne', sub_self] at hrest
        exact absurd hrest (lt_irrefl _)
    refine ⟨htake, ?_⟩
    rw [htake] at hrest
    have hgoes : price * size ≤ b := by linarith [mul_comm price size]
    rw [amountTaken, Option.map_some, amountTaken, sharesFor_of_ge h hgoes, ← min_add_add_left,
      add_sub_cancel, mul_comm size price]

lemma isLadder_offers (h : IsLadder levels) (hdepth : 0 < depthFactor) (side : Side)
    (worst : Option ℚ) : IsLadder (offers side worst depthFactor levels) := by
  intro l hl
  obtain ⟨l', hl', rfl⟩ := List.mem_map.1 hl
  obtain ⟨hprice, hsize⟩ := h l' (List.mem_filter.1 hl').1
  exact ⟨hprice, mul_pos hsize hdepth⟩

lemma BestFirst.tail {l : ℚ × ℚ} (h : BestFirst side (l :: levels)) : BestFirst side levels := by
  cases side with
  | buy => exact (List.pairwise_cons.1 h).2
  | sell => exact (List.pairwise_cons.1 h).2

/-- Behind a level beyond the limit there is nothing within it. -/
lemma offers_of_beyond {l : ℚ × ℚ} (h : BestFirst side (l :: levels))
    (hbeyond : beyondWorst side worst l.1 = true) :
    offers side worst depthFactor (l :: levels) = [] := by
  have hall : ∀ l' ∈ l :: levels, beyondWorst side worst l'.1 = true := by
    refine List.forall_mem_cons.2 ⟨hbeyond, ?_⟩
    intro l' hl'
    cases worst with
    | none => cases side <;> cases hbeyond
    | some limit =>
      cases side with
      | buy =>
        have hle := (List.pairwise_cons.1 h).1 l' hl'
        have hgt : limit < l.1 := of_decide_eq_true hbeyond
        exact decide_eq_true (hgt.trans_le hle)
      | sell =>
        have hle := (List.pairwise_cons.1 h).1 l' hl'
        have hlt : l.1 < limit := of_decide_eq_true hbeyond
        exact decide_eq_true (hle.trans_lt hlt)
  rw [offers, List.map_eq_nil_iff, List.filter_eq_nil_iff]
  intro l' hl'
  rw [hall l' hl']
  decide

lemma offers_of_within {l : ℚ × ℚ} (hwithin : beyondWorst side worst l.1 = false) :
    offers side worst depthFactor (l :: levels) =
      (l.1, l.2 * depthFactor) :: offers side worst depthFactor levels := by
  rw [offers, List.filter_cons_of_pos (by rw [hwithin]; rfl), List.map_cons]
  rfl

/-- One level of the walk. -/
lemma walkLevels_cons {l : ℚ × ℚ} {w : TakerWalk} (hsize : 0 < l.2 * depthFactor)
    (hprice : 0 < l.1) (hleft : ¬ Spent w.remaining w.remainingBudget)
    (hwithin : beyondWorst side worst l.1 = false) :
    let take := takeOf w.remaining w.remainingBudget l.1 (l.2 * depthFactor)
    let w' : TakerWalk :=
      ⟨w.remaining - take, w.remainingBudget.map (· - take * l.1), w.filled + take,
        w.notional + take * l.1, w.levelsConsumed + 1⟩
    walkLevels side worst depthFactor (l :: levels) w =
      if Spent w'.remaining w'.remainingBudget then w'
      else walkLevels side worst depthFactor levels w' := by
  obtain ⟨price, size⟩ := l
  obtain ⟨remaining, remainingBudget, filled, notional, levelsConsumed⟩ := w
  have htake := takeOf_pos hleft hprice hsize
  have hbudget : ¬ ∃ b ∈ remainingBudget, b ≤ 0 := fun h => hleft (.inr h)
  rw [walkLevels, if_neg (by rw [hwithin]; decide)]
  simp only [max_eq_right hsize.le, if_neg (not_le.2 hsize), if_neg hbudget]
  cases remainingBudget with
  | none =>
    have htake : ¬ min remaining (size * depthFactor) ≤ 0 := not_le.2 htake
    simp only [if_neg htake]
    rfl
  | some b =>
    have htake : ¬ min (min remaining (size * depthFactor)) (b / price) ≤ 0 := not_le.2 htake
    simp only [if_neg htake]
    rfl

/-- The walk takes of the levels within the limit what the shares and the budget allow, at what it
costs in turn. -/
lemma walkLevels_spec (h : IsLadder levels) (hdepth : 0 < depthFactor)
    (hbest : BestFirst side levels) {w : TakerWalk}
    (hleft : ¬ Spent w.remaining w.remainingBudget) :
    let amount := amountTaken (offers side worst depthFactor levels) w.remaining w.remainingBudget
    (walkLevels side worst depthFactor levels w).filled = w.filled + amount ∧
      (walkLevels side worst depthFactor levels w).notional =
        w.notional + costOf (offers side worst depthFactor levels) amount := by
  induction levels generalizing w with
  | nil =>
    dsimp only
    rw [show offers side worst depthFactor [] = [] from rfl, amountTaken_nil hleft, costOf,
      add_zero, add_zero]
    exact ⟨rfl, rfl⟩
  | cons l levels ih =>
    have hprice : 0 < l.1 := (h l List.mem_cons_self).1
    have hsize : 0 < l.2 * depthFactor := mul_pos (h l List.mem_cons_self).2 hdepth
    have htail : IsLadder levels := fun l' hl' => h l' (List.mem_cons_of_mem l hl')
    cases hwithin : beyondWorst side worst l.1 with
    | true =>
      have hstop : walkLevels side worst depthFactor (l :: levels) w = w := by
        unfold walkLevels
        exact if_pos hwithin
      dsimp only
      rw [hstop, offers_of_beyond hbest hwithin, amountTaken_nil hleft, costOf, add_zero, add_zero]
      exact ⟨rfl, rfl⟩
    | false =>
      have hcons := @walkLevels_cons side worst depthFactor levels l w hsize hprice hleft hwithin
      have hladder : IsLadder ((l.1, l.2 * depthFactor) :: offers side worst depthFactor levels) :=
        List.forall_mem_cons.2 ⟨⟨hprice, hsize⟩, isLadder_offers htail hdepth side worst⟩
      have htake := takeOf_pos hleft hprice hsize
      have hmost := takeOf_le w.remaining w.remainingBudget l.1 (l.2 * depthFactor)
      dsimp only at hcons ⊢
      rw [hcons, offers_of_within hwithin]
      split
      · next hspent =>
        rw [amountTaken_of_spent hladder hleft hspent, costOf_of_le hladder.sizes htake.le hmost,
          mul_comm l.1]
        exact ⟨rfl, rfl⟩
      · next hmore =>
        obtain ⟨hwhole, hamount⟩ := amountTaken_of_left hladder hleft hmore
        rw [hwhole] at hmore ⊢
        have hrest := (not_spent.1 hmore).1
        obtain ⟨hfilled, hnotional⟩ := ih htail hbest.tail (w := ⟨w.remaining - l.2 * depthFactor,
          w.remainingBudget.map (· - l.2 * depthFactor * l.1), w.filled + l.2 * depthFactor,
          w.notional + l.2 * depthFactor * l.1, w.levelsConsumed + 1⟩) hmore
        have hnonneg : 0 ≤ amountTaken (offers side worst depthFactor levels)
            (w.remaining - l.2 * depthFactor)
            (w.remainingBudget.map (· - l.2 * depthFactor * l.1)) :=
          amountTaken_nonneg hladder.tail hrest.le
        rw [hamount, costOf_of_ge hladder.sizes (le_add_of_nonneg_right hnonneg),
          add_sub_cancel_left, hfilled, hnotional, mul_comm l.1]
        exact ⟨add_assoc _ _ _, add_assoc _ _ _⟩

end Walk

end Evosport.Optimization
