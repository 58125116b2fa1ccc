/-
The portfolio (`services/backtest/portfolio.py`).

Positions are keyed by token, side and strategy; a position is opened by the first fill
of its side and deleted when a closing fill leaves at most `1e-12` shares of it.  The
rolling return series of the source feed only the correlation report and are left out.
-/
import Evosport.Backtest.Order

namespace Evosport.Backtest

open Lib

/-- The configuration of a portfolio: the capital it starts with, the caps on its exposure as a
whole, by market and by strategy, the number of its positions, and the fee model. -/
structure PortfolioConfig where
  initialCapitalUsd : ℚ := 10000
  maxGrossExposureUsd : Option ℚ := none
  maxPerMarketNotionalUsd : Option ℚ := none
  maxPerStrategyNotionalUsd : Option ℚ := none
  maxOpenPositions : Option ℕ := none
  feeModel : Option FeeModel := none
deriving DecidableEq, Repr

/-- One logical position.  `side` is the side of the opening fill; the size and the cost basis go
down with the closing fills, the realized profit and the fees add up. -/
structure Position where
  tokenId : TokenId
  side : Side
  strategySlug : Option Slug
  entryPrice : ℚ := 0
  size : ℚ := 0
  costBasisUsd : ℚ := 0
  realizedPnlUsd : ℚ := 0
  feesPaidUsd : ℚ := 0
  lastMarkPrice : Option ℚ := none
  lastMarkAt : Option Time := none
  openedAt : Option Time := none
  closedAt : Option Time := none
  fillCount : ℕ := 0
deriving DecidableEq, Repr

namespace Position

/-- `apply_open_fill`: the position grows.  The fee is remembered but is no part of the
cost basis nor of the realized profit. -/
def applyOpenFill (p : Position) (fill : Fill) : Position :=
  let newSize := p.size + fill.size
  { p with
    entryPrice :=
      if newSize > 0 then (p.entryPrice * p.size + fill.price * fill.size) / newSize
      else fill.price
    size := newSize
    costBasisUsd := p.costBasisUsd + fill.notionalUsd
    feesPaidUsd := p.feesPaidUsd + fill.feeUsd
    fillCount := p.fillCount + 1
    openedAt := some (p.openedAt.getD fill.occurredAt) }

/-- `apply_close_fill`: at most the whole position is taken, with its share of the cost basis.  The
fee is charged for the whole fill. -/
def applyCloseFill (p : Position) (fill : Fill) : Position :=
  if p.size ≤ 0 then p
  else
    let take := min fill.size p.size
    let proportion := take / p.size
    let costChunk := p.costBasisUsd * proportion
    let proceeds := fill.price * take
    let pnl := (match p.side with
      | .buy => proceeds - costChunk
      | .sell => costChunk - proceeds) - fill.feeUsd
    { p with
      realizedPnlUsd := p.realizedPnlUsd + pnl
      feesPaidUsd := p.feesPaidUsd + fill.feeUsd
      size := p.size - take
      costBasisUsd := p.costBasisUsd - costChunk
      fillCount := p.fillCount + 1
      closedAt := if p.size - take ≤ e12 then some fill.occurredAt else p.closedAt }

/-- `Position.mark`. -/
def mark (p : Position) (price : ℚ) (at_ : Time) : Position :=
  { p with lastMarkPrice := some price, lastMarkAt := some at_ }

/-- The price that values a position in the exposure caps: `last_mark_price or
entry_price`, where a mark of zero counts as no mark. -/
def capPrice (p : Position) : ℚ :=
  match p.lastMarkPrice with
  | some m => if m = 0 then p.entryPrice else m
  | none => p.entryPrice

end Position

/-- The key of a position. -/
abbrev PositionKey := TokenId × Side × Option Slug

/-- Why the pre-trade gate refuses an intent; the gate checks in this order and names the first
check that fails. -/
inductive GateReason where
  | insufficientCash (cash notional : ℚ)
  | grossExposureCap (exposure cap : ℚ)
  | perMarketCap (exposure cap : ℚ)
  | perStrategyCap (exposure cap : ℚ)
  | maxOpenPositions
deriving DecidableEq, Repr

/-- The multi-position state machine: the cash, the positions by token, side and strategy, those
that were closed, and the histories of the equity and of the cash. -/
structure Portfolio where
  config : PortfolioConfig
  cashUsd : ℚ
  peakEquityUsd : ℚ
  positions : Dict PositionKey Position := .empty
  closedPositions : List Position := []
  equityHistory : List (Time × ℚ) := []
  cashHistory : List (Time × ℚ) := []
  resolutionFeesPaidUsd : ℚ := 0
deriving DecidableEq

namespace Portfolio

/-- `Portfolio.__init__`. -/
def init (config : PortfolioConfig) : Portfolio where
  config := config
  cashUsd := config.initialCapitalUsd
  peakEquityUsd := config.initialCapitalUsd

/-! ## The pre-trade gate -/

/-- `gross_exposure_usd`. -/
def grossExposureUsd (p : Portfolio) : ℚ :=
  (p.positions.values.map fun pos => pos.size * pos.capPrice).sum

/-- `can_submit`: `none` when the intent may be submitted, else the first check that fails.  Only
buys are checked against the cash, and each cap only where it is set. -/
def canSubmit (p : Portfolio) (tokenId : TokenId) (side : Side) (price size : ℚ)
    (strategySlug : Option Slug) : Option GateReason :=
  let notional := max 0 (price * size)
  let exposure (ps : List (PositionKey × Position)) : ℚ :=
    (ps.map fun e => e.2.size * e.2.capPrice).sum
  let market := exposure (p.positions.entries.filter fun e => e.1.1 = tokenId)
  let strategy := exposure (p.positions.entries.filter fun e => e.2.strategySlug = strategySlug)
  if side = .buy ∧ p.cashUsd + e9 < notional then
    some (.insufficientCash p.cashUsd notional)
  else if p.config.maxGrossExposureUsd.elim false
      fun cap => decide (p.grossExposureUsd + notional > cap + e9) then
    some (.grossExposureCap (p.grossExposureUsd + notional)
      (p.config.maxGrossExposureUsd.getD 0))
  else if p.config.maxPerMarketNotionalUsd.elim false
      fun cap => decide (market + notional > cap + e9) then
    some (.perMarketCap (market + notional) (p.config.maxPerMarketNotionalUsd.getD 0))
  else if p.config.maxPerStrategyNotionalUsd.elim false
      fun cap => strategySlug.elim false (fun s => decide (s ≠ "")) &&
        decide (strategy + notional > cap + e9) then
    some (.perStrategyCap (strategy + notional) (p.config.maxPerStrategyNotionalUsd.getD 0))
  else if p.config.maxOpenPositions.elim false
      fun cap => decide (p.positions.entries.length ≥ cap) &&
        !p.positions.contains (tokenId, side, strategySlug) then
    some .maxOpenPositions
  else none

/-! ## Fills -/

/-- `_on_cash_change_from_close`: the cash effect of a closing fill, for the whole size of
the fill. -/
def onCashChangeFromClose (p : Portfolio) (pos : Position) (fill : Fill) : Portfolio :=
  match pos.side with
  | .buy => { p with cashUsd := p.cashUsd + (fill.notionalUsd - fill.feeUsd) }
  | .sell => { p with cashUsd := p.cashUsd - (fill.notionalUsd + fill.feeUsd) }

/-- The resolution fee on the gain that a close added to a position. -/
def incrementalResolutionFee (p : Portfolio) (gained : ℚ) : ℚ :=
  match p.config.feeModel with
  | none => 0
  | some m =>
    if gained > 0 then
      let resFee := m.resolutionFee gained
      if resFee > 0 then resFee else 0
    else 0

/-- The close that `apply_fill` and `_close_position_at` share: the position takes the
fill, the cash moves, and the resolution fee on the incremental gain is charged. -/
def closeWith (p : Portfolio) (pos : Position) (fill : Fill) : Portfolio × Position :=
  let pos' := pos.applyCloseFill fill
  let p' := p.onCashChangeFromClose pos' fill
  let resFee := p.incrementalResolutionFee (pos'.realizedPnlUsd - pos.realizedPnlUsd)
  ({ p' with
      cashUsd := p'.cashUsd - resFee
      resolutionFeesPaidUsd := p'.resolutionFeesPaidUsd + resFee },
   { pos' with
      feesPaidUsd := pos'.feesPaidUsd + resFee
      realizedPnlUsd := pos'.realizedPnlUsd - resFee })

/-- `apply_fill`: close the opposing position when there is one, else open or scale. -/
def applyFill (p : Portfolio) (fill : Fill) (strategySlug : Option Slug) : Portfolio :=
  let oppKey : PositionKey := (fill.tokenId, fill.side.opposite, strategySlug)
  match p.positions.get? oppKey with
  | some pos =>
    let (p', pos') := p.closeWith pos fill
    if pos'.size ≤ e12 then
      { p' with
        closedPositions := p'.closedPositions ++ [pos']
        positions := p'.positions.erase oppKey }
    else { p' with positions := p'.positions.set oppKey pos' }
  | none =>
    let key : PositionKey := (fill.tokenId, fill.side, strategySlug)
    let pos := (p.positions.get? key).getD
      { tokenId := fill.tokenId, side := fill.side, strategySlug := strategySlug }
    { p with
      positions := p.positions.set key (pos.applyOpenFill fill)
      cashUsd := match fill.side with
        | .buy => p.cashUsd - (fill.notionalUsd + fill.feeUsd)
        | .sell => p.cashUsd + (fill.notionalUsd - fill.feeUsd) }

/-- The synthetic fill of `_close_position_at` (`services/backtest/engine.py`). -/
def syntheticFill (key : PositionKey) (pos : Position) (price : ℚ) (at_ : Time)
    (isSettlement : Bool) : Fill where
  orderId := (if isSettlement then "settle_" else "final_mtm_") ++ key.1
  tokenId := pos.tokenId
  side := pos.side.opposite
  price := price
  size := pos.size
  feeUsd := 0
  occurredAt := at_
  fillIndex := 0

/-- `BacktestEngine._close_position_at`: close a position with a synthetic fill of its
whole size.  The engine only calls it on a key it has just read. -/
def closePositionAt (p : Portfolio) (key : PositionKey) (price : ℚ) (at_ : Time)
    (isSettlement : Bool) : Portfolio :=
  match p.positions.get? key with
  | none => p
  | some pos =>
    let (p', pos') := p.closeWith pos (syntheticFill key pos price at_ isSettlement)
    { p' with
      closedPositions := p'.closedPositions ++ [pos']
      positions := p'.positions.erase key }

/-! ## Marks and reports -/

/-- `equity_usd`: cash plus the marked value of the open positions. -/
def equityUsd (p : Portfolio) : ℚ :=
  p.cashUsd + (p.positions.values.map fun pos =>
    if pos.size ≤ 0 then 0
    else
      let value := pos.size * pos.lastMarkPrice.getD pos.entryPrice
      match pos.side with
      | .buy => value
      | .sell => -value).sum

/-- `Portfolio.mark`. -/
def mark (p : Portfolio) (tokenId : TokenId) (price : ℚ) (at_ : Time) : Portfolio :=
  let marked : Portfolio :=
    { p with
      positions := p.positions.mapVal fun key pos =>
        if key.1 = tokenId then pos.mark price at_ else pos }
  { marked with
    peakEquityUsd := max p.peakEquityUsd marked.equityUsd
    equityHistory := p.equityHistory ++ [(at_, marked.equityUsd)]
    cashHistory := p.cashHistory ++ [(at_, p.cashUsd)] }

end Portfolio

end Evosport.Backtest
