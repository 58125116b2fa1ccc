/-
The matching engine (`services/backtest/matching_engine.py`).

`MatchingEngine` is the mutable state of the class and `MatchingConfig` what its
constructor fixes.  `submit`, `cancel` and `advanceTo` are the public operations; each of
the four steps of `advanceTo` is a definition of its own.  A walk over the levels of a
book (`consumeLoop` for takers, `restLoop` for resting orders) threads the order and the
residual book and returns the fills it makes.
-/
import Evosport.Backtest.Order
import Evosport.Backtest.Latency

namespace Evosport.Backtest

open Lib

/-- What makes an engine raise: an order id that is taken, a clock that would go back, and an
exception of the strategy. -/
inductive EngineError where
  | duplicateOrderId (id : OrderId)
  | nonMonotonicAdvance (now before : Time)
  | strategyError (text : String)
deriving DecidableEq, Repr

/-- A loaded fill-probability model: `build_survival_features` on the book and the order
at admission, and `evaluate_fill_probability` on the covariates, the horizon in seconds
and the fallback. -/
structure FillModel where
  features : BookSnapshot → BacktestOrder → Covariates
  evaluate : Covariates → ℚ → ℚ → ℚ

/-- What the constructor of `MatchingEngine` fixes: the venue, the models of latency, fees, impact
and fills, and the two fractions that the matcher reads. -/
structure MatchingConfig where
  venue : Venue
  latency : LatencyModel
  fees : FeeModel
  impact : ImpactModel
  fillModel : Option FillModel := none
  fillProbabilityFallback : ℚ := 1
  queueProgressTradeFraction : ℚ := 1

/-- The clamped `queue_progress_trade_fraction`. -/
def MatchingConfig.progressFraction (cfg : MatchingConfig) : ℚ :=
  max 0 (min 1 cfg.queueProgressTradeFraction)

/-- The Polymarket venue without cancel latency, market impact and fill model: every order
takes `submitMs` milliseconds to arrive. -/
def MatchingConfig.plain (submitMs : ℚ) : MatchingConfig where
  venue := polymarketVenue
  latency := .deterministic submitMs 1
  fees := {}
  impact := { sqrt := id, pow := fun x _ => x }

/-! ## The residual book -/

/-- A snapshot with the liquidity consumed in its interval, by price, on each side.  What a price
still offers is its size in the snapshot less what was consumed. -/
structure ResidualBook where
  snapshot : BookSnapshot
  consumedBids : Dict ℚ ℚ := .empty
  consumedAsks : Dict ℚ ℚ := .empty

namespace ResidualBook

/-- What takers on `side` have consumed. -/
def consumedBy (b : ResidualBook) : Side → Dict ℚ ℚ
  | .sell => b.consumedBids
  | .buy => b.consumedAsks

/-- The consumed quantity recorded at one price. -/
def consumedAt (b : ResidualBook) (side : Side) (price : ℚ) : ℚ :=
  (b.consumedBy side).getD price 0

/-- `remaining_bids` (hit by a SELL) and `remaining_asks` (hit by a BUY). -/
def remaining (b : ResidualBook) (side : Side) : List (ℚ × ℚ) :=
  (b.snapshot.ladder side).map fun l => (l.price, max 0 (l.size - b.consumedAt side l.price))

/-- `consume`: a taker on `side` took `size` at `price`. -/
def consume (b : ResidualBook) (side : Side) (price size : ℚ) : ResidualBook :=
  let c := (b.consumedBy side).set price (b.consumedAt side price + size)
  match side with
  | .sell => { b with consumedBids := c }
  | .buy => { b with consumedAsks := c }

end ResidualBook

/-! ## Walking the levels -/

/-- The order, the book and the fills after a walk over levels; the fills are the new ones, in the
order in which they were made. -/
structure MatchResult where
  order : BacktestOrder
  book : ResidualBook
  fills : List Fill

/-- The fill of a taker for `take` shares of the level at `price`. -/
def takerFill (cfg : MatchingConfig) (snap : BookSnapshot) (impactFactor : ℚ)
    (occurredAt : Time) (o : BacktestOrder) (price take : ℚ) : Fill :=
  let adjustedPrice :=
    if impactFactor > 0 then
      match o.side with
      | .buy => min (9999 / 10000) (price * (1 + impactFactor))
      | .sell => max (1 / 10000) (price * (1 - impactFactor))
    else price
  { orderId := o.orderId
    tokenId := o.tokenId
    side := o.side
    price := adjustedPrice
    size := take
    feeUsd := cfg.fees.fillFee adjustedPrice take false snap.mid
    occurredAt := occurredAt
    fillIndex := o.fills.length
    venueSequence := snap.sequence }

/-- The loop of `_consume_levels`.  Consumption is recorded at the ladder price. -/
def consumeLoop (cfg : MatchingConfig) (impactFactor : ℚ) (occurredAt : Time) :
    List (ℚ × ℚ) → BacktestOrder → ResidualBook → ℚ → MatchResult
  | [], o, book, _ => ⟨o, book, []⟩
  | (price, qty) :: rest, o, book, remaining =>
    if remaining ≤ 0 then ⟨o, book, []⟩
    else if qty ≤ 0 then consumeLoop cfg impactFactor occurredAt rest o book remaining
    else if beyondLimit o.side o.price price then ⟨o, book, []⟩
    else
      let take := min qty remaining
      let fill := takerFill cfg book.snapshot impactFactor occurredAt o price take
      let r := consumeLoop cfg impactFactor occurredAt rest (o.recordFill fill)
        (book.consume o.side price take) (remaining - take)
      { r with fills := fill :: r.fills }

/-- The reachable part of `levels`. -/
def visibleDepth (side : Side) (limit : ℚ) (levels : List (ℚ × ℚ)) : ℚ :=
  ((levels.filter fun l => decide (0 < l.2) && !beyondLimit side limit l.1).map Prod.snd).sum

/-- `_consume_levels`: walk the residual book as a taker. -/
def consumeLevels (cfg : MatchingConfig) (now : Option Time) (o : BacktestOrder)
    (book : ResidualBook) : MatchResult :=
  let levels := book.remaining o.side
  if o.remainingSize ≤ 0 then ⟨o, book, []⟩
  else
    let impactBps := cfg.impact.adverseBps o.remainingSize (visibleDepth o.side o.price levels)
    let occurredAt := o.venueReceivedAt.getD (now.getD o.submittedAt)
    consumeLoop cfg (impactBps / 10000) occurredAt levels o book o.remainingSize

/-- `_available_for_taker`. -/
def availableForTaker (book : ResidualBook) (side : Side) (price : ℚ) : ℚ :=
  let reachable (p : ℚ) : Bool := match side with
    | .sell => decide (p ≥ price - e12)
    | .buy => decide (p ≤ price + e12)
  (((book.remaining side).filter fun l => reachable l.1).map Prod.snd).sum

/-- `_fill_probability_capped_take`: the take a loaded fill model allows, and the order
with its cumulative probability. -/
def fillProbabilityCappedTake (cfg : MatchingConfig) (o : BacktestOrder) (snap : BookSnapshot)
    (candidateSize : ℚ) : ℚ × BacktestOrder :=
  match cfg.fillModel, o.survivalCovariates with
  | some model, some covariates =>
    if covariates.entries = [] ∨ candidateSize ≤ 0 then (candidateSize, o)
    else
      let admittedAt := o.venueReceivedAt.getD o.submittedAt
      let horizonSeconds : ℚ := max 0 (((snap.observedAt - admittedAt : ℤ) : ℚ) / 10 ^ 6)
      let evaluated := model.evaluate covariates horizonSeconds cfg.fillProbabilityFallback
      let probability := max 0 (min 1 (max o.fillProbabilityCumulative evaluated))
      let fillableByModel := max 0 (o.size * probability - o.filledSize)
      (min candidateSize fillableByModel, { o with fillProbabilityCumulative := probability })
  | _, _ => (candidateSize, o)

/-- The fill of a resting order: at its own limit, at the time of the snapshot. -/
def restingFill (cfg : MatchingConfig) (snap : BookSnapshot) (o : BacktestOrder) (size : ℚ) :
    Fill where
  orderId := o.orderId
  tokenId := o.tokenId
  side := o.side
  price := o.price
  size := size
  feeUsd := cfg.fees.fillFee o.price size true snap.mid
  occurredAt := snap.observedAt
  fillIndex := o.fills.length
  venueSequence := snap.sequence

/-- The loop of `_try_match_resting`.  Consumption is recorded at the order's own price,
not at the price of the level that provided the size. -/
def restLoop (cfg : MatchingConfig) (snap : BookSnapshot) :
    List (ℚ × ℚ) → BacktestOrder → ResidualBook → ℚ → MatchResult
  | [], o, book, _ => ⟨o, book, []⟩
  | (price, qty) :: rest, o, book, remaining =>
    if remaining ≤ 0 then ⟨o, book, []⟩
    else if beyondLimit o.side o.price price then ⟨o, book, []⟩
    else
      let capped := fillProbabilityCappedTake cfg o snap (min qty remaining)
      if capped.1 ≤ 0 then restLoop cfg snap rest capped.2 book remaining
      else
        let fill := restingFill cfg snap capped.2 capped.1
        let r := restLoop cfg snap rest (capped.2.recordFill fill)
          (book.consume o.side o.price capped.1) (remaining - capped.1)
        { r with fills := fill :: r.fills }

/-! ## The state of the engine -/

/-- The mutable state of the engine: the orders by their ids, the indexes of the working ones by
token, the cancels that wait, the books of the interval, the clock, and the fills of all orders. -/
structure MatchingEngine where
  orders : Dict OrderId BacktestOrder := .empty
  workingByToken : Dict TokenId (List OrderId) := .empty
  activeCountByToken : Dict TokenId ℕ := .empty
  pendingCancels : Dict OrderId Time := .empty
  books : Dict TokenId ResidualBook := .empty
  now : Option Time := none
  allFills : List Fill := []
  latency : LatencyState := {}

namespace MatchingEngine

/-- Write an order back. -/
def putOrder (e : MatchingEngine) (o : BacktestOrder) : MatchingEngine :=
  { e with orders := e.orders.set o.orderId o }

/-- The orders admitted on a token and still live, oldest first. -/
def workingIds (e : MatchingEngine) (token : TokenId) : List OrderId :=
  e.workingByToken.getD token []

/-- `_decrement_active`. -/
def decrementActive (e : MatchingEngine) (token : TokenId) : MatchingEngine :=
  let n := e.activeCountByToken.getD token 0 - 1
  { e with
    activeCountByToken :=
      if n ≤ 0 then e.activeCountByToken.erase token else e.activeCountByToken.set token n }

/-- `_terminate`, with the other changes the caller made to the order. -/
def terminate (e : MatchingEngine) (o : BacktestOrder) (newState : OrderState) :
    MatchingEngine :=
  if o.isTerminal then e.putOrder o
  else (e.putOrder { o with state := newState }).decrementActive o.tokenId

/-- `has_active_orders_for_token`. -/
def hasActiveOrdersForToken (e : MatchingEngine) (token : TokenId) : Bool :=
  decide (0 < e.activeCountByToken.getD token 0)

/-- `_remove_from_working`. -/
def removeFromWorking (e : MatchingEngine) (o : BacktestOrder) : MatchingEngine :=
  if o.orderId ∈ e.workingIds o.tokenId then
    { e with
      workingByToken := e.workingByToken.set o.tokenId
        ((e.workingIds o.tokenId).erase o.orderId) }
  else e

/-- `_add_to_working`. -/
def addToWorking (e : MatchingEngine) (o : BacktestOrder) : MatchingEngine :=
  let ids := e.workingIds o.tokenId
  { e with
    workingByToken := e.workingByToken.set o.tokenId
      (if o.orderId ∈ ids then ids else ids ++ [o.orderId]) }

/-! ## Submitting and cancelling -/

/-- `submit`: validate, sample the latency, hold the order as pending. -/
def submit (cfg : MatchingConfig) (e : MatchingEngine) (order : BacktestOrder) :
    Except EngineError MatchingEngine :=
  if e.orders.contains order.orderId then .error (.duplicateOrderId order.orderId)
  else
    let decision :=
      cfg.venue.validateSubmit order.side order.price order.size order.tif order.postOnly
    if !decision.ok then
      .ok (e.putOrder { order with state := .rejected, rejectReason := decision.rejectReason })
    else
      let latency := cfg.latency.sampleSubmitMs order.submittedAt e.latency
      let accepted : BacktestOrder :=
        { order with
          price := decision.adjustedPrice.getD order.price
          size := decision.adjustedSize.getD order.size
          venueReceivedAt := some (order.submittedAt + timedeltaMs latency.1)
          state := .pending }
      .ok { e.putOrder accepted with
        activeCountByToken := e.activeCountByToken.set order.tokenId
          (e.activeCountByToken.getD order.tokenId 0 + 1)
        latency := latency.2 }

/-- `cancel`: a live order is to be cancelled when the latency has passed; until then it can be
filled.  The second component says whether there was an order to cancel. -/
def cancel (cfg : MatchingConfig) (e : MatchingEngine) (orderId : OrderId)
    (requestedAt : Time) : MatchingEngine × Bool :=
  match e.orders.get? orderId with
  | none => (e, false)
  | some order =>
    if order.isTerminal then (e, false)
    else if e.pendingCancels.contains orderId then (e, true)
    else
      let latency := cfg.latency.sampleCancelMs requestedAt e.latency
      let effective := requestedAt + timedeltaMs latency.1
      ({ e.putOrder { order with cancelPendingAt := some effective } with
          pendingCancels := e.pendingCancels.set orderId effective
          latency := latency.2 }, true)

/-! ## Step 1: due cancels -/

/-- `_apply_cancel`. -/
def applyCancel (e : MatchingEngine) (orderId : OrderId) (effectiveAt : Time) :
    MatchingEngine :=
  match e.orders.get? orderId with
  | none => e
  | some order =>
    if order.isTerminal then e
    else
      let e' := e.terminate { order with cancelledAt := some effectiveAt } .cancelled
      match order.state with
      | .partiallyFilled | .working => e'.removeFromWorking order
      | _ => e'

/-- The cancels whose latency window has elapsed. -/
def applyDueCancels (now : Time) : List (OrderId × Time) → MatchingEngine → MatchingEngine
  | [], e => e
  | (orderId, effectiveAt) :: rest, e =>
    if effectiveAt ≤ now then
      let e' := e.applyCancel orderId effectiveAt
      applyDueCancels now rest { e' with pendingCancels := e'.pendingCancels.erase orderId }
    else applyDueCancels now rest e

/-! ## Step 2: the new book, and the queue ahead of the resting orders -/

/-- The displayed size at or better than the limit of an order, on its own side. -/
def eligibleDepth (side : Side) (limit : ℚ) (levels : List PriceLevel) : ℚ :=
  ((levels.filter fun l => !beyondLimit side.opposite limit l.price).map
    fun l => max 0 l.size).sum

/-- The part of the depth that this engine's own takers consumed. -/
def ownConsumed (side : Side) (limit : ℚ) (consumed : Dict ℚ ℚ) : ℚ :=
  ((consumed.entries.filter fun c => !beyondLimit side.opposite limit c.1).map
    fun c => max 0 c.2).sum

/-- The queue decay of one resting order between two books of its token. -/
def decayQueue (cfg : MatchingConfig) (oldBook : ResidualBook) (newSnap : BookSnapshot)
    (o : BacktestOrder) : BacktestOrder :=
  match o.queueAheadShares with
  | none => o
  | some queue =>
    if o.isTerminal ∨ queue ≤ 0 then o
    else
      let oldDepth := eligibleDepth o.side o.price (oldBook.snapshot.ownLadder o.side)
      let newDepth := eligibleDepth o.side o.price (newSnap.ownLadder o.side)
      let own := ownConsumed o.side o.price (oldBook.consumedBy o.side.opposite)
      let external := max 0 (oldDepth - newDepth - own) * cfg.progressFraction
      { o with queueAheadShares := some (max 0 (queue - external)) }

/-- The queue decay of the resting orders of a token. -/
def decayQueues (cfg : MatchingConfig) (oldBook : ResidualBook) (newSnap : BookSnapshot) :
    List OrderId → MatchingEngine → MatchingEngine
  | [], e => e
  | orderId :: rest, e =>
    match e.orders.get? orderId with
    | none => decayQueues cfg oldBook newSnap rest e
    | some o =>
      decayQueues cfg oldBook newSnap rest (e.putOrder (decayQueue cfg oldBook newSnap o))

/-- Replace the book of the token by the snapshot. -/
def refreshBook (cfg : MatchingConfig) (snap : BookSnapshot) (e : MatchingEngine) :
    MatchingEngine :=
  let e' := { e with books := e.books.set snap.tokenId { snapshot := snap } }
  match e.books.get? snap.tokenId with
  | none => e'
  | some oldBook => decayQueues cfg oldBook snap (e'.workingIds snap.tokenId) e'

/-! ## Step 3: orders arriving at the venue -/

/-- `_snapshot_queue_position`. -/
def snapshotQueuePosition (cfg : MatchingConfig) (book : ResidualBook) (o : BacktestOrder) :
    BacktestOrder :=
  let queue := computeQueueAheadShares book.snapshot o.side o.price
  let o := { o with queueAheadShares := some queue, fillProbabilityCumulative := 0 }
  match cfg.fillModel with
  | none => { o with survivalCovariates := none }
  | some model =>
    { o with
      survivalCovariates :=
        some ((model.features book.snapshot o).set "queue_ahead_shares" queue) }

/-- Rest an order on the book with the given label. -/
def rest (cfg : MatchingConfig) (e : MatchingEngine) (book : ResidualBook)
    (o : BacktestOrder) (label : OrderState) : MatchingEngine :=
  let o := snapshotQueuePosition cfg book { o with state := label }
  (e.putOrder o).addToWorking o

/-- Walk the book as a taker and write the order and the book back. -/
def take (cfg : MatchingConfig) (e : MatchingEngine) (book : ResidualBook)
    (o : BacktestOrder) : MatchingEngine × MatchResult :=
  let r := consumeLevels cfg e.now o book
  ({ e.putOrder r.order with books := e.books.set o.tokenId r.book }, r)

/-- `_handle_admit`: reject a crossing post-only order; fill a FOK order in full or reject
it; match what an IOC, FAK, GTC or GTD order can take and cancel or rest the remainder. -/
def handleAdmit (cfg : MatchingConfig) (e : MatchingEngine) (o : BacktestOrder) :
    MatchingEngine × List Fill :=
  match e.books.get? o.tokenId with
  | none => (e, [])
  | some book =>
    let snap := book.snapshot
    if o.postOnly && cfg.venue.crossesBook o.side o.price snap.bestBid snap.bestAsk then
      (e.terminate { o with rejectReason := some .postOnlyCrossesBook } .rejected, [])
    else if o.tif = .fok then
      if availableForTaker book o.side o.price + e12 < o.size then
        (e.terminate { o with rejectReason := some .fokInsufficientLiquidity } .rejected, [])
      else
        let (e', r) := e.take cfg book o
        (e'.terminate r.order .filled, r.fills)
    else if cfg.venue.isMarketable o.side o.price snap.bestBid snap.bestAsk then
      let (e', r) := e.take cfg book o
      if r.order.remainingSize > 0 then
        if o.tif.isImmediate then
          (e'.terminate { r.order with cancelledAt := r.order.venueReceivedAt } .cancelled,
            r.fills)
        else (e'.rest cfg r.book r.order .partiallyFilled, r.fills)
      else (e'.terminate r.order .filled, r.fills)
    else if o.tif.isImmediate then
      (e.terminate { o with cancelledAt := o.venueReceivedAt } .cancelled, [])
    else (e.rest cfg book o .working, [])

/-- Whether an order is to be admitted at time `now` on the book of `token`. -/
def isDue (token : TokenId) (now : Time) (o : BacktestOrder) : Bool :=
  decide (o.tokenId = token) && decide (o.state = .pending) &&
    o.venueReceivedAt.elim false fun t => decide (t ≤ now)

/-- Step 3, for one order. -/
def admitOne (cfg : MatchingConfig) (snap : BookSnapshot) (orderId : OrderId)
    (e : MatchingEngine) : MatchingEngine × List Fill :=
  match e.orders.get? orderId with
  | none => (e, [])
  | some o => if isDue snap.tokenId snap.observedAt o then e.handleAdmit cfg o else (e, [])

/-! ## Step 4: resting orders -/

/-- Whether the queue gate blocks a resting order. -/
def queueBlocked (o : BacktestOrder) : Bool :=
  o.queueAheadShares.elim false fun q => decide (q > e9)

/-- `_try_match_resting`: a resting order walks what is left of the book once the queue before it
has traded, and leaves the working orders when it is filled. -/
def tryMatchResting (cfg : MatchingConfig) (e : MatchingEngine) (o : BacktestOrder) :
    MatchingEngine × List Fill :=
  match e.books.get? o.tokenId with
  | none => (e, [])
  | some book =>
    if queueBlocked o then (e, [])
    else if o.remainingSize ≤ 0 then (e, [])
    else
      let r := restLoop cfg book.snapshot (book.remaining o.side) o book o.remainingSize
      let e' := { e.putOrder r.order with books := e.books.set o.tokenId r.book }
      if r.order.remainingSize ≤ e12 ∧ r.order.state ≠ .filled then
        ((e'.terminate r.order .filled).removeFromWorking r.order, r.fills)
      else (e', r.fills)

/-- Step 4, for one order. -/
def matchOne (cfg : MatchingConfig) (orderId : OrderId) (e : MatchingEngine) :
    MatchingEngine × List Fill :=
  match e.orders.get? orderId with
  | none => (e, [])
  | some o => if o.isTerminal then (e, []) else e.tryMatchResting cfg o

/-! ## The driver -/

/-- Run `f` for each order in turn and collect the fills. -/
def forOrders (f : OrderId → MatchingEngine → MatchingEngine × List Fill) :
    List OrderId → MatchingEngine → MatchingEngine × List Fill
  | [], e => (e, [])
  | orderId :: rest, e =>
    let r := f orderId e
    let r' := forOrders f rest r.1
    (r'.1, r.2 ++ r'.2)

/-- Steps 1 and 2 of `advance_to`. -/
def openInterval (cfg : MatchingConfig) (snap : BookSnapshot) (e : MatchingEngine) :
    MatchingEngine :=
  let e := { e with now := some snap.observedAt }
  (applyDueCancels snap.observedAt e.pendingCancels.entries e).refreshBook cfg snap

/-- Step 3 of `advance_to`. -/
def admitAll (cfg : MatchingConfig) (snap : BookSnapshot) (e : MatchingEngine) :
    MatchingEngine × List Fill :=
  forOrders (admitOne cfg snap) e.orders.keys e

/-- Step 4 of `advance_to`. -/
def matchAll (cfg : MatchingConfig) (snap : BookSnapshot) (e : MatchingEngine) :
    MatchingEngine × List Fill :=
  forOrders (matchOne cfg) (e.workingIds snap.tokenId) e

/-- The four steps of `advance_to`: the engine afterwards and the fills produced. -/
def advance (cfg : MatchingConfig) (snap : BookSnapshot) (e : MatchingEngine) :
    MatchingEngine × List Fill :=
  let a := admitAll cfg snap (openInterval cfg snap e)
  let m := matchAll cfg snap a.1
  ({ m.1 with allFills := m.1.allFills ++ (a.2 ++ m.2) }, a.2 ++ m.2)

/-- `advance_to`: time may not run backwards. -/
def advanceTo (cfg : MatchingConfig) (e : MatchingEngine) (snap : BookSnapshot) :
    Except EngineError (MatchingEngine × List Fill) :=
  match e.now with
  | some before =>
    if snap.observedAt < before then .error (.nonMonotonicAdvance snap.observedAt before)
    else .ok (advance cfg snap e)
  | none => .ok (advance cfg snap e)

/-- `all_orders`. -/
def allOrders (e : MatchingEngine) : List BacktestOrder := e.orders.values

end MatchingEngine

end Evosport.Backtest
