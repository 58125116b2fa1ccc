/-
Orders, fills, fees and market impact (`services/backtest/matching_engine.py`), and the
canonical queue formula they share with live trading
(`services/optimization/queue_ahead.py`).
-/
import Evosport.Lib.Dict
import Evosport.Backtest.Venue

namespace Evosport.Backtest

open Lib

/-- The lifecycle states of an order; the last three are terminal. -/
inductive OrderState where
  | pending
  | working
  | partiallyFilled
  | filled
  | cancelled
  | rejected
deriving DecidableEq, Repr

/-- The terminal states. -/
def OrderState.isTerminal : OrderState → Bool
  | .filled | .cancelled | .rejected => true
  | _ => false

/-- A single match event: the order and what it traded, at which price, for which fee and when; the
index counts the fills of the order. -/
structure Fill where
  orderId : OrderId
  tokenId : TokenId
  side : Side
  price : ℚ
  size : ℚ
  feeUsd : ℚ
  occurredAt : Time
  fillIndex : ℕ
  venueSequence : Option ℤ := none
deriving DecidableEq, Repr

/-- `Fill.notional_usd`. -/
def Fill.notionalUsd (f : Fill) : ℚ := f.price * f.size

/-- The covariates of the survival model, as a flat record of numbers. -/
abbrev Covariates := Dict String ℚ

/-- A simulated order living in the matching engine.  The list `fills` is also the
engine's `_fills_by_order[order_id]`: the source appends to both at the same places. -/
structure BacktestOrder where
  orderId : OrderId
  tokenId : TokenId
  side : Side
  price : ℚ
  size : ℚ
  tif : Tif
  postOnly : Bool
  submittedAt : Time
  traderId : Option String := none
  strategySlug : Option Slug := none
  metadata : Dict String String := .empty
  state : OrderState := .pending
  venueReceivedAt : Option Time := none
  filledSize : ℚ := 0
  avgFillPrice : ℚ := 0
  cancelPendingAt : Option Time := none
  cancelledAt : Option Time := none
  rejectReason : Option RejectReason := none
  fills : List Fill := []
  queueAheadShares : Option ℚ := none
  survivalCovariates : Option Covariates := none
  fillProbabilityCumulative : ℚ := 0
deriving DecidableEq

namespace BacktestOrder

/-- `remaining_size`. -/
def remainingSize (o : BacktestOrder) : ℚ := max 0 (o.size - o.filledSize)

/-- `is_terminal`. -/
def isTerminal (o : BacktestOrder) : Bool := o.state.isTerminal

/-- The bookkeeping that every fill does on its order: the fill is appended and the
filled size and the size-weighted average price are updated. -/
def recordFill (o : BacktestOrder) (fill : Fill) : BacktestOrder :=
  let newFilled := o.filledSize + fill.size
  { o with
    fills := o.fills ++ [fill]
    avgFillPrice :=
      if newFilled > 0 then
        (o.avgFillPrice * o.filledSize + fill.price * fill.size) / newFilled
      else fill.price
    filledSize := newFilled }

end BacktestOrder

/-- A new order that is good till cancelled. -/
def BacktestOrder.limit (orderId : OrderId) (tokenId : TokenId) (side : Side) (price size : ℚ)
    (submittedAt : Time) : BacktestOrder where
  orderId := orderId
  tokenId := tokenId
  side := side
  price := price
  size := size
  tif := .gtc
  postOnly := false
  submittedAt := submittedAt

/-! ## Fees -/

/-- The taker fee of the venue for one share at price `p` (`utils/kelly.py`). -/
def polymarketTakerFee (p : ℚ) : ℚ :=
  let pClamped := max 0 (min 1 p)
  pClamped * (1 / 4) * (pClamped * (1 - pClamped)) ^ 2

/-- The bundled fee model: rates for takers and makers, gas for each fill, the fee on a redemption,
and the curve of the venue's taker fee with its factor for crypto markets. -/
structure FeeModel where
  takerBps : ℚ := 0
  makerBps : ℚ := 0
  perFillGasUsd : ℚ := 5 / 1000
  resolutionFeeRate : ℚ := 0
  negriskConversionGasUsd : ℚ := 1 / 100
  makerRebateBps : ℚ := 0
  makerRebateMaxSpreadBps : ℚ := 50
  useTakerFeeCurve : Bool := true
  cryptoFeeMultiplier : ℚ := 1
deriving DecidableEq, Repr

namespace FeeModel

/-- The fee of one fill, with the gas of the venue.  A maker pays its rate and is credited a rebate
inside the band around the mid; a taker pays the curve of the venue or a flat rate. -/
def fillFee (m : FeeModel) (price size : ℚ) (isMaker : Bool) (midPrice : Option ℚ)
    (isNegrisk : Bool := false) : ℚ :=
  let gas := max 0 m.perFillGasUsd + if isNegrisk then max 0 m.negriskConversionGasUsd else 0
  if isMaker then
    let makerFee := if m.makerBps > 0 then price * size * (m.makerBps / 10000) else 0
    let rebateCredit :=
      if m.makerRebateBps > 0 then
        let insideBand := match midPrice with
          | some mid =>
            if mid > 0 then decide (|price - mid| / mid * 10000 ≤ m.makerRebateMaxSpreadBps)
            else true
          | none => true
        if insideBand then price * size * (m.makerRebateBps / 10000) else 0
      else 0
    makerFee + gas - rebateCredit
  else
    let takerFee :=
      if m.useTakerFeeCurve then polymarketTakerFee price * size * max 0 m.cryptoFeeMultiplier
      else price * size * (m.takerBps / 10000)
    takerFee + gas

/-- The fee charged at settlement on a realized gain. -/
def resolutionFee (m : FeeModel) (grossWinningsUsd : ℚ) : ℚ :=
  if grossWinningsUsd ≤ 0 then 0 else grossWinningsUsd * max 0 m.resolutionFeeRate

end FeeModel

/-! ## Impact -/

/-- The adverse price impact of a taker.  `sqrt` and `pow` stand for `math.sqrt` and for
the power of floats. -/
structure ImpactModel where
  strengthBps : ℚ := 0
  capBps : ℚ := 200
  capacityThreshold : ℚ := 1 / 2
  capacityExponent : ℚ := 3 / 2
  sqrt : ℚ → ℚ
  pow : ℚ → ℚ → ℚ

/-- `ImpactModel.adverse_bps`: by the square root of the share of the visible depth up to the
capacity, by a power of the excess beyond it, and never above the cap. -/
def ImpactModel.adverseBps (m : ImpactModel) (yourSizeShares sideVisibleDepthShares : ℚ) : ℚ :=
  if m.strengthBps ≤ 0 then 0
  else if yourSizeShares ≤ 0 ∨ sideVisibleDepthShares ≤ 0 then 0
  else
    let ratio := max 0 (yourSizeShares / sideVisibleDepthShares)
    let threshold := max (1 / 10 ^ 6) m.capacityThreshold
    let bps :=
      if ratio ≤ threshold then m.strengthBps * m.sqrt ratio
      else
        let baseBps := m.strengthBps * m.sqrt threshold
        let excess := ratio - threshold
        let penaltyBps := m.strengthBps * m.pow excess m.capacityExponent
        baseBps + penaltyBps
    min bps (max 0 m.capBps)

/-! ## Queue position -/

/-- `compute_queue_ahead_shares`: the size ahead of a new maker order on its own side.
Levels with a non-positive price or size are skipped. -/
def computeQueueAheadShares (snap : BookSnapshot) (side : Side) (limitPrice : ℚ)
    (makerQueueAheadFraction : ℚ := 65 / 100) (depthFactor : ℚ := 1) : ℚ :=
  let levels := (snap.ownLadder side).filter fun l => decide (l.price > 0 ∧ l.size > 0)
  let isBetter (l : PriceLevel) : Bool := match side with
    | .buy => decide (l.price > limitPrice + e12)
    | .sell => decide (l.price < limitPrice - e12)
  let betterQueue := ((levels.filter isBetter).map PriceLevel.size).sum
  let sameLevelSize :=
    ((levels.filter fun l => !isBetter l && decide (|l.price - limitPrice| ≤ e9)).map
      PriceLevel.size).sum
  (betterQueue + sameLevelSize * makerQueueAheadFraction) * depthFactor

end Evosport.Backtest
