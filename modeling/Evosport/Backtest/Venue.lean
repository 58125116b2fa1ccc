/-
Order semantics of the venue (`services/backtest/venue_model.py`).

The matching engine only sees the interface `Venue`; `polymarketVenue` is the one
implementation of the source.  Sides and times in force are enumerations here, so the
rejections `invalid_side` and `invalid_tif` of `validate_submit` cannot occur.
-/
import Evosport.Backtest.Book

namespace Evosport.Backtest

/-- Time in force. -/
inductive Tif where
  | gtc
  | ioc
  | fak
  | fok
  | gtd
deriving DecidableEq, Repr

/-- The times in force whose remainder is cancelled at once. -/
def Tif.isImmediate : Tif → Bool
  | .ioc | .fak => true
  | _ => false

/-- The times in force that take liquidity only. -/
def Tif.isTaker : Tif → Bool
  | .ioc | .fak | .fok => true
  | _ => false

/-- Why an order was turned down, by the venue or by the matcher. -/
inductive RejectReason where
  | postOnlyWithTakerTif (tif : Tif)
  | nonPositiveSize
  | nonPositivePrice
  | belowMinNotional (notional minNotional : ℚ)
  | postOnlyCrossesBook
  | fokInsufficientLiquidity
  | other (text : String)
deriving DecidableEq, Repr

/-- The outcome of `Venue.validate_submit`: accepted with the price and the size that the venue
makes of the order, or turned down with a reason. -/
structure SubmitDecision where
  ok : Bool
  adjustedPrice : Option ℚ := none
  adjustedSize : Option ℚ := none
  rejectReason : Option RejectReason := none
deriving DecidableEq, Repr

/-- The venue interface of the matching engine: what it makes of a submission, and when an order
crosses the book or can trade at once. -/
structure Venue where
  validateSubmit : Side → ℚ → ℚ → Tif → Bool → SubmitDecision
  crossesBook : Side → ℚ → Option ℚ → Option ℚ → Bool
  isMarketable : Side → ℚ → Option ℚ → Option ℚ → Bool

/-- The rules of a venue that the submit path consults: its tick, its least notional, and the range
of its prices. -/
structure OrderRule where
  tickSize : ℚ
  minNotionalUsd : ℚ
  maxPrice : ℚ
  minPrice : ℚ
deriving DecidableEq, Repr

/-- `_clamp`. -/
def clamp (value lo hi : ℚ) : ℚ := max lo (min hi value)

namespace PolymarketVenue

/-- The constants of the Polymarket CLOB. -/
def rules : OrderRule where
  tickSize := 1 / 100
  minNotionalUsd := 1
  maxPrice := 99 / 100
  minPrice := 1 / 100

/-- Round to the tick: a BUY up and a SELL down, then clamp. -/
def roundPrice (price : ℚ) (side : Side) : ℚ :=
  let tick := rules.tickSize
  if tick ≤ 0 then price
  else
    let steps := price / tick
    let rounded := match side with
      | .buy => (⌈steps - e9⌉ : ℚ) * tick
      | .sell => (⌊steps + e9⌋ : ℚ) * tick
    clamp rounded rules.minPrice rules.maxPrice

/-- The static checks made before an order enters the matcher: the flags, the signs of size and
price, and the notional at the price that the venue rounds to. -/
def validateSubmit (side : Side) (price size : ℚ) (tif : Tif) (postOnly : Bool) :
    SubmitDecision :=
  if postOnly && tif.isTaker then
    { ok := false, rejectReason := some (.postOnlyWithTakerTif tif) }
  else if size ≤ 0 then
    { ok := false, rejectReason := some .nonPositiveSize }
  else if price ≤ 0 then
    { ok := false, rejectReason := some .nonPositivePrice }
  else
    let roundedPrice := roundPrice price side
    let notional := roundedPrice * size
    if notional + e9 < rules.minNotionalUsd then
      { ok := false, rejectReason := some (.belowMinNotional notional rules.minNotionalUsd) }
    else
      { ok := true
        adjustedPrice := if |roundedPrice - price| > e12 then some roundedPrice else none }

/-- Whether an order would cross the displayed book. -/
def crossesBook (side : Side) (price : ℚ) (bestBid bestAsk : Option ℚ) : Bool :=
  match side with
  | .buy => bestAsk.elim false fun a => decide (price + e12 ≥ a)
  | .sell => bestBid.elim false fun b => decide (price - e12 ≤ b)

/-- Whether an order would match at once: the same test as `crossesBook`. -/
def isMarketable (side : Side) (price : ℚ) (bestBid bestAsk : Option ℚ) : Bool :=
  match side with
  | .buy => bestAsk.elim false fun a => decide (price + e12 ≥ a)
  | .sell => bestBid.elim false fun b => decide (price - e12 ≤ b)

end PolymarketVenue

/-- The Polymarket CLOB as a venue. -/
def polymarketVenue : Venue where
  validateSubmit := PolymarketVenue.validateSubmit
  crossesBook := PolymarketVenue.crossesBook
  isMarketable := PolymarketVenue.isMarketable

end Evosport.Backtest
