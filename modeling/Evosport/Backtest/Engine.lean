/-
The backtest engine (`services/backtest/engine.py`).

`BacktestEngine` is the mutable state of the class, `BacktestConfig` what its constructor
fixes and `Strategy` the hooks it calls.  A hook that raises may have changed the strategy
before, so each hook returns the new state of the strategy beside its result; whether the
exception reaches the caller depends on `fail_on_strategy_error`.  A method that can raise
returns an `Except`.

`_latest_book`, the progress callback, the metrics and the correlation report are kept out
of the decisions of the source; of these the first is modelled here and the callback with the loop
of `run` that calls it.
-/
import Evosport.Lib.StableSort
import Evosport.Backtest.Matching
import Evosport.Backtest.Portfolio
import Evosport.Backtest.ExitPlan

namespace Evosport.Backtest

open Lib

/-! ## Inputs and outputs -/

/-- An entry signal: what the strategy wants to buy or to sell, how much of it and at which limit,
and when it said so.  The metadata go into the order as they are. -/
structure TradeIntent where
  intentId : OrderId
  emittedAt : Time
  tokenId : TokenId
  side : Side
  size : ℚ
  limitPrice : ℚ
  tif : Tif := .gtc
  postOnly : Bool := false
  strategySlug : Option Slug := none
  traderId : Option String := none
  metadata : Dict String String := .empty
deriving DecidableEq

/-- The resolved outcome of one token (`services/backtest/settlement.py`). -/
structure TokenSettlement where
  tokenId : TokenId
  settlePrice : Option ℚ := none
  resolutionTime : Option Time := none
  winningOutcome : Option String := none
deriving DecidableEq, Repr

/-- The configuration of a run.  `makeOrderId n` is the identifier that the `n`-th call of
`make_order_id` returns and `wallClock` what `datetime.now` does. -/
structure BacktestConfig where
  portfolio : PortfolioConfig := {}
  matching : MatchingConfig
  finalCloseAtLastMid : Bool := true
  failOnStrategyError : Bool := false
  settlements : Dict TokenId TokenSettlement := .empty
  makeOrderId : ℕ → OrderId
  wallClock : Time := 0

/-- A run on the plain venue with the given fees. -/
def BacktestConfig.plain (submitMs : ℚ) (fees : FeeModel) : BacktestConfig where
  matching := { MatchingConfig.plain submitMs with fees := fees }
  makeOrderId := fun n => "order" ++ toString n

/-- The actions of an exit decision; anything else is ignored. -/
inductive ExitAction where
  | hold
  | reduce
  | close
  | other
deriving DecidableEq, Repr

/-- What `should_exit` returns: the action, its reason, and for the actions that need them the price
to close at, the fraction to reduce by and the policy of a ladder. -/
structure ExitDecision where
  action : ExitAction
  reason : String
  closePrice : Option ℚ := none
  reduceFraction : Option ℚ := none
  exitPolicy : Option ExitPolicy := none
deriving DecidableEq, Repr

/-- The position view passed to `should_exit`: the prices seen since the position was opened, its
age, and its size and profit at the current mark. -/
structure PosView where
  entryPrice : ℚ
  currentPrice : ℚ
  highestPrice : ℚ
  lowestPrice : ℚ
  ageMinutes : ℚ
  pnlPercent : ℚ
  filledSize : ℚ
  notionalUsd : ℚ
deriving DecidableEq, Repr

/-- The market state passed to `should_exit`: the current price of the token, whether its market
still trades, and how it was resolved. -/
structure MarketState where
  currentPrice : ℚ
  marketTradable : Bool
  isResolved : Bool
  winningOutcome : Option String
  tokenId : TokenId
deriving DecidableEq, Repr

/-- The hooks of a strategy with states `σ`; `none` is a hook the strategy lacks, and
`some text` in the second component an exception. -/
structure Strategy (σ : Type) where
  shouldExit : Option (σ → PosView → MarketState → σ × Except String (Option ExitDecision)) :=
    none
  /-- Order, filled shares, average price, notional. -/
  onFill : Option (σ → BacktestOrder → ℚ → ℚ → ℚ → σ × Option String) := none
  /-- Order, filled shares, remaining shares, average price. -/
  onPartialFill : Option (σ → BacktestOrder → ℚ → ℚ → ℚ → σ × Option String) := none
  /-- Order, reason, unfilled shares. -/
  onCancel : Option (σ → BacktestOrder → String → ℚ → σ × Option String) := none
  resolveExitPolicy :
    Option (σ → ExitDecision → String → σ × Except String (Option ExitPolicy)) := none

/-- One closed trade: its profit in dollars and as a return, how long it was held, and whether it
won. -/
structure TradeOutcome where
  pnlUsd : ℚ
  returnPct : ℚ
  holdingSeconds : ℚ
  won : Bool
deriving DecidableEq, Repr

/-- The outcome of a run: the final equity, the counts of positions, fills and orders, the history
of the equity, the fills of the ledger and the trades that were closed. -/
structure BacktestResult where
  finalEquityUsd : ℚ
  initialCapitalUsd : ℚ
  closedPositionCount : ℕ
  openPositionCount : ℕ
  totalFills : ℕ
  rejectedOrders : ℕ
  cancelledOrders : ℕ
  equityHistory : List (Time × ℚ)
  fills : List Fill
  tradeOutcomes : List TradeOutcome
  feesPerFillUsd : ℚ
  feesResolutionUsd : ℚ
  settledPositions : ℕ
  markedToMidPositions : ℕ
deriving DecidableEq, Repr

/-- The mutable state of the engine, with the state of the strategy: the portfolio, the matching
engine, the books seen last, the intents that wait, and how far the schedule of resolutions has been
settled. -/
structure BacktestEngine (σ : Type) where
  portfolio : Portfolio
  matching : MatchingEngine := {}
  latestBook : Dict TokenId BookSnapshot := .empty
  cancelledNotified : List OrderId := []
  pendingIntents : List TradeIntent := []
  intentsDrained : ℕ := 0
  snapshotsProcessed : ℕ := 0
  resolutionSchedule : List (Time × TokenId) := []
  resolutionPtr : ℕ := 0
  settledPositionCount : ℕ := 0
  markedToMidCount : ℕ := 0
  strategy : σ
  orderIdsMade : ℕ := 0

/-- `x or d` on an optional number, where zero counts as missing. -/
def truthyOr (x : Option ℚ) (d : ℚ) : ℚ :=
  match x with
  | some v => if v = 0 then d else v
  | none => d

namespace BacktestEngine

variable {σ : Type} (cfg : BacktestConfig)

/-- The configuration of the portfolio: the fee model of the run unless it has its own. -/
def portfolioConfig : PortfolioConfig :=
  match cfg.portfolio.feeModel with
  | some _ => cfg.portfolio
  | none => { cfg.portfolio with feeModel := some cfg.matching.fees }

/-- Go on after a hook, or raise what it raised. -/
def afterHook (raised : Option String) (e : BacktestEngine σ) :
    Except EngineError (BacktestEngine σ) :=
  match raised with
  | some text => if cfg.failOnStrategyError then .error (.strategyError text) else .ok e
  | none => .ok e

/-! ## The settlement sweep -/

/-- The positions of some token, or of all of them, that are more than dust. -/
def heldKeys (p : Portfolio) (onToken : TokenId → Bool) : List PositionKey :=
  (p.positions.entries.filter fun e => onToken e.1.1 && decide (e12 < e.2.size)).map Prod.fst

/-- Redeem the positions of one token whose market has resolved. -/
def settleToken (now : Time) (token : TokenId) (e : BacktestEngine σ) : BacktestEngine σ :=
  match cfg.settlements.get? token with
  | none => e
  | some settlement =>
    match settlement.settlePrice with
    | none => e
    | some price =>
      let keys := heldKeys e.portfolio fun t => decide (t = token)
      { e with
        portfolio := keys.foldl
          (fun p key => p.closePositionAt key price (settlement.resolutionTime.getD now) true)
          e.portfolio
        settledPositionCount := e.settledPositionCount + keys.length }

/-- The loop of `_settle_due` over what is left of the schedule. -/
def settleLoop (now : Time) : List (Time × TokenId) → BacktestEngine σ → BacktestEngine σ
  | [], e => e
  | (at_, token) :: rest, e =>
    if at_ ≤ now then
      settleLoop now rest (settleToken cfg now token { e with resolutionPtr := e.resolutionPtr + 1 })
    else e

/-- `_settle_due`. -/
def settleDue (now : Time) (e : BacktestEngine σ) : BacktestEngine σ :=
  settleLoop cfg now (e.resolutionSchedule.drop e.resolutionPtr) e

/-! ## Step 1: entries -/

/-- `_submit_entry`: an intent that the gate lets pass becomes an order and is handed to the
matching engine; one that the gate refuses is dropped.  An intent without an identifier takes the
next one that is made. -/
def submitEntry (intent : TradeIntent) (e : BacktestEngine σ) :
    Except EngineError (BacktestEngine σ) :=
  match e.portfolio.canSubmit intent.tokenId intent.side intent.limitPrice intent.size
      intent.strategySlug with
  | some _ => .ok e
  | none =>
    let unnamed := intent.intentId = ""
    let order : BacktestOrder :=
      { orderId := if unnamed then cfg.makeOrderId e.orderIdsMade else intent.intentId
        tokenId := intent.tokenId
        side := intent.side
        price := intent.limitPrice
        size := intent.size
        tif := intent.tif
        postOnly := intent.postOnly
        submittedAt := intent.emittedAt
        traderId := intent.traderId
        strategySlug := intent.strategySlug
        metadata := (Dict.empty.set "role" "entry").update intent.metadata }
    match e.matching.submit cfg.matching order with
    | .error err => .error err
    | .ok m =>
      .ok { e with
        matching := m
        orderIdsMade := if unnamed then e.orderIdsMade + 1 else e.orderIdsMade }

/-- The loop that drains the pending intents whose emit time has passed. -/
def drainLoop (now : Time) :
    List TradeIntent → BacktestEngine σ → Except EngineError (BacktestEngine σ)
  | [], e => .ok e
  | intent :: rest, e =>
    if intent.emittedAt ≤ now then
      submitEntry cfg intent { e with intentsDrained := e.intentsDrained + 1 } >>=
        drainLoop now rest
    else .ok e

/-- Step 1 of `_on_snapshot`. -/
def drainIntents (now : Time) (e : BacktestEngine σ) : Except EngineError (BacktestEngine σ) :=
  drainLoop cfg now (e.pendingIntents.drop e.intentsDrained) e

/-! ## Step 3: fills -/

/-- The notification of the strategy about a fill. -/
def notifyFill (s : Strategy σ) (o : BacktestOrder) (fill : Fill) (e : BacktestEngine σ) :
    Except EngineError (BacktestEngine σ) :=
  match s.onPartialFill, s.onFill, decide (o.remainingSize > e12) with
  | some hook, _, true =>
    let r := hook e.strategy o fill.size o.remainingSize fill.price
    afterHook cfg r.2 { e with strategy := r.1 }
  | _, some hook, _ =>
    let r := hook e.strategy o fill.size fill.price (fill.size * fill.price)
    afterHook cfg r.2 { e with strategy := r.1 }
  | _, none, _ => .ok e

/-- Step 3 for one fill: the portfolio, then the strategy. -/
def applyOne (strat : Option (Strategy σ)) (e : BacktestEngine σ) (fill : Fill) :
    Except EngineError (BacktestEngine σ) :=
  match e.matching.orders.get? fill.orderId with
  | none => .ok e
  | some o =>
    let e := { e with portfolio := e.portfolio.applyFill fill o.strategySlug }
    match strat with
    | none => .ok e
    | some s => notifyFill cfg s o fill e

/-! ## Step 4: marks -/

/-- Step 4: the latest book, and a mark at its mid when it has one. -/
def markBook (snap : BookSnapshot) (e : BacktestEngine σ) : BacktestEngine σ :=
  { e with
    latestBook := e.latestBook.set snap.tokenId snap
    portfolio := match snap.mid with
      | some mid => e.portfolio.mark snap.tokenId mid snap.observedAt
      | none => e.portfolio }

/-! ## Step 5: exits -/

/-- The view of a position that `should_exit` sees.  The highest and the lowest price are those of
the entry and of this snapshot only, since nothing is kept between two views. -/
def posView (pos : Position) (snap : BookSnapshot) : PosView :=
  let current := snap.mid.getD pos.entryPrice
  { entryPrice := pos.entryPrice
    currentPrice := current
    highestPrice := max pos.entryPrice (truthyOr snap.mid pos.entryPrice)
    lowestPrice := min pos.entryPrice (truthyOr snap.mid pos.entryPrice)
    ageMinutes := pos.openedAt.elim 0 fun opened =>
      max 0 (((snap.observedAt - opened : ℤ) : ℚ) / 10 ^ 6 / 60)
    pnlPercent :=
      if pos.entryPrice > 0 then (current - pos.entryPrice) / pos.entryPrice * 100 else 0
    filledSize := pos.size
    notionalUsd := pos.size * pos.entryPrice }

/-- The market state that `should_exit` sees: the winner is only shown once the market has
resolved. -/
def marketState (pos : Position) (snap : BookSnapshot) : MarketState :=
  let settlement := cfg.settlements.get? pos.tokenId
  let resolved := (settlement.bind TokenSettlement.resolutionTime).elim false
    fun r => decide (r ≤ snap.observedAt)
  { currentPrice := snap.mid.getD pos.entryPrice
    marketTradable := !resolved
    isResolved := resolved
    winningOutcome := if resolved then settlement.bind TokenSettlement.winningOutcome else none
    tokenId := pos.tokenId }

/-- `_call_should_exit`. -/
def callShouldExit (s : Strategy σ) (pos : Position) (snap : BookSnapshot)
    (e : BacktestEngine σ) : Except EngineError (BacktestEngine σ × Option ExitDecision) :=
  match s.shouldExit with
  | none => .ok (e, none)
  | some hook =>
    let r := hook e.strategy (posView pos snap) (marketState cfg pos snap)
    match r.2 with
    | .ok decision => .ok ({ e with strategy := r.1 }, decision)
    | .error text =>
      (afterHook cfg (some text) { e with strategy := r.1 }).map fun e => (e, none)

/-- `_resolve_exit_policy`: the hook of the strategy when it has one, else the field of the
decision. -/
def resolveExitPolicy (s : Strategy σ) (decision : ExitDecision) (closeTrigger : String)
    (e : BacktestEngine σ) : Except EngineError (BacktestEngine σ × Option ExitPolicy) :=
  match s.resolveExitPolicy with
  | none => .ok (e, decision.exitPolicy)
  | some hook =>
    let r := hook e.strategy decision closeTrigger
    match r.2 with
    | .ok policy => .ok ({ e with strategy := r.1 }, policy)
    | .error text =>
      (afterHook cfg (some text) { e with strategy := r.1 }).map fun e => (e, none)

/-- The entries of an exit order's `meta`. -/
def exitMeta (pos : Position) (role : String) (child : Option ChildPlan) : Dict String String :=
  let base := (Dict.empty.set "role" role).set "exit_for_position"
    (match pos.side with | .buy => "BUY" | .sell => "SELL")
  match child with
  | none => base
  | some plan =>
    (base.set "child_index" (toString plan.index)).set "bucket" plan.distributionBucket

/-- `_submit_single_exit`: one order on the other side of the position, under the next identifier
that is made. -/
def submitSingleExit (pos : Position) (snap : BookSnapshot) (size price : ℚ) (tif : Tif)
    (postOnly : Bool) (orderMeta : Dict String String) (e : BacktestEngine σ) :
    Except EngineError (BacktestEngine σ) :=
  let order : BacktestOrder :=
    { orderId := cfg.makeOrderId e.orderIdsMade
      tokenId := pos.tokenId
      side := pos.side.opposite
      price := price
      size := size
      tif := tif
      postOnly := postOnly
      submittedAt := snap.observedAt
      strategySlug := pos.strategySlug
      metadata := orderMeta }
  match e.matching.submit cfg.matching order with
  | .error err => .error err
  | .ok m => .ok { e with matching := m, orderIdsMade := e.orderIdsMade + 1 }

/-- The children of a laddered exit, or the single order that replaces an empty plan. -/
def submitPlans (pos : Position) (snap : BookSnapshot) (targetSize closePrice : ℚ)
    (plans : List ChildPlan) (e : BacktestEngine σ) : Except EngineError (BacktestEngine σ) :=
  match plans with
  | [] =>
    submitSingleExit cfg pos snap targetSize closePrice .ioc false
      (exitMeta pos "exit_fallback" none) e
  | plans => plans.foldlM (fun e plan =>
      submitSingleExit cfg pos snap plan.size plan.price plan.tif plan.postOnly
        (exitMeta pos "exit_child" (some plan)) e) e

/-- `_submit_exit_for`: the fraction of the position is closed by a single order, or by the ladder
of the policy where one is resolved.  The time in force of the children defaults to IOC for a stop
loss, to GTC otherwise. -/
def submitExitFor (s : Strategy σ) (pos : Position) (decision : ExitDecision) (fraction : ℚ)
    (snap : BookSnapshot) (e : BacktestEngine σ) : Except EngineError (BacktestEngine σ) :=
  let targetSize := pos.size * fraction
  if targetSize ≤ 0 then .ok e
  else
    let closePrice := truthyOr decision.closePrice (truthyOr snap.mid pos.entryPrice)
    let closeTrigger := if decision.reason = "" then "exit" else decision.reason
    resolveExitPolicy cfg s decision closeTrigger e >>= fun r =>
      match r.2 with
      | none =>
        submitSingleExit cfg pos snap targetSize closePrice .ioc false
          (exitMeta pos "exit" none) r.1
      | some policy =>
        submitPlans cfg pos snap targetSize closePrice
          (planChildren targetSize closePrice pos.side.opposite policy ExitPlan.defaultTickSize
            (if closeTrigger = "stop_loss" then .ioc else .gtc) false) r.1

/-- Route an exit decision to the execution path. -/
def routeDecision (s : Strategy σ) (pos : Position) (snap : BookSnapshot)
    (decision : ExitDecision) (e : BacktestEngine σ) : Except EngineError (BacktestEngine σ) :=
  match decision.action with
  | .hold | .other => .ok e
  | .reduce =>
    let fraction := truthyOr decision.reduceFraction 0
    if fraction ≤ 0 then .ok e else submitExitFor cfg s pos decision (min 1 fraction) snap e
  | .close => submitExitFor cfg s pos decision 1 snap e

/-- Step 5 for one position. -/
def evaluateExit (s : Strategy σ) (snap : BookSnapshot) (e : BacktestEngine σ)
    (pos : Position) : Except EngineError (BacktestEngine σ) :=
  callShouldExit cfg s pos snap e >>= fun r =>
    match r.2 with
    | none => .ok r.1
    | some decision => routeDecision cfg s pos snap decision r.1

/-- The positions of the token of a snapshot that are more than dust. -/
def exitTargets (p : Portfolio) (token : TokenId) : List Position :=
  (p.positions.entries.filter fun e => decide (e.1.1 = token) && decide (e12 < e.2.size)).map
    Prod.snd

/-- `_evaluate_exits_for_token`. -/
def evaluateExits (strat : Option (Strategy σ)) (snap : BookSnapshot) (e : BacktestEngine σ) :
    Except EngineError (BacktestEngine σ) :=
  match strat with
  | none => .ok e
  | some s => (exitTargets e.portfolio snap.tokenId).foldlM (evaluateExit cfg s snap) e

/-! ## Step 6: cancellations -/

/-- Step 6 for one order. -/
def notifyCancel (hook : σ → BacktestOrder → String → ℚ → σ × Option String)
    (e : BacktestEngine σ) (o : BacktestOrder) : Except EngineError (BacktestEngine σ) :=
  if o.state ≠ .cancelled ∨ o.orderId ∈ e.cancelledNotified then .ok e
  else
    let reason := if o.tif.isImmediate then "expired" else "user_cancel"
    let r := hook e.strategy o reason o.remainingSize
    afterHook cfg r.2
      { e with strategy := r.1, cancelledNotified := e.cancelledNotified ++ [o.orderId] }

/-- Step 6: `on_cancel` for every order cancelled since the last scan. -/
def notifyCancels (strat : Option (Strategy σ)) (e : BacktestEngine σ) :
    Except EngineError (BacktestEngine σ) :=
  match strat.bind Strategy.onCancel with
  | none => .ok e
  | some hook => e.matching.allOrders.foldlM (notifyCancel cfg hook) e

/-! ## One snapshot -/

/-- Steps 1 to 6 of `_on_snapshot`. -/
def processSnapshot (strat : Option (Strategy σ)) (snap : BookSnapshot)
    (e : BacktestEngine σ) : Except EngineError (BacktestEngine σ) := do
  let drained ← drainIntents cfg snap.observedAt e
  let advanced ← drained.matching.advanceTo cfg.matching snap
  let filled ← advanced.2.foldlM (applyOne cfg strat) { drained with matching := advanced.1 }
  let exited ← evaluateExits cfg strat snap (markBook snap filled)
  notifyCancels cfg strat exited

/-- Whether an intent is ready to drain. -/
def intentsReadyToDrain (now : Time) (e : BacktestEngine σ) : Bool :=
  (e.pendingIntents[e.intentsDrained]?).elim false fun i => decide (i.emittedAt ≤ now)

/-- Whether a position is keyed by the token. -/
def hasPositionForToken (token : TokenId) (e : BacktestEngine σ) : Bool :=
  e.portfolio.positions.keys.any fun key => decide (key.1 = token)

/-- The negation of the condition of the early return: the token of the snapshot is
involved. -/
def involved (snap : BookSnapshot) (e : BacktestEngine σ) : Bool :=
  e.intentsReadyToDrain snap.observedAt || e.matching.hasActiveOrdersForToken snap.tokenId ||
    e.hasPositionForToken snap.tokenId

/-- `_on_snapshot`. -/
def onSnapshot (strat : Option (Strategy σ)) (e : BacktestEngine σ) (snap : BookSnapshot) :
    Except EngineError (BacktestEngine σ) :=
  let e := settleDue cfg snap.observedAt e
  if e.involved snap then processSnapshot cfg strat snap e
  else .ok { e with latestBook := e.latestBook.set snap.tokenId snap }

/-! ## The run -/

/-- The position settles: its market resolved within the run with a known winner. -/
def resolvedInWindow (runEnd : Option Time) (pos : Position) : Option (ℚ × Time) :=
  (cfg.settlements.get? pos.tokenId).bind fun settlement =>
    match settlement.settlePrice, settlement.resolutionTime, runEnd with
    | some price, some at_, some now => if at_ ≤ now then some (price, at_) else none
    | _, _, _ => none

/-- One position of `_final_mark_to_market`: at the price of its resolution where that lies in the
window of the run, else at its last mark. -/
def finalClose (runEnd : Option Time) (e : BacktestEngine σ) (key : PositionKey) :
    BacktestEngine σ :=
  match e.portfolio.positions.get? key with
  | none => e
  | some pos =>
    match resolvedInWindow cfg runEnd pos with
    | some (price, at_) =>
      { e with
        portfolio := e.portfolio.closePositionAt key price at_ true
        settledPositionCount := e.settledPositionCount + 1 }
    | none =>
      let closeAt := ((pos.lastMarkAt.or pos.openedAt).or runEnd).getD cfg.wallClock
      { e with
        portfolio := e.portfolio.closePositionAt key (truthyOr pos.lastMarkPrice pos.entryPrice)
          closeAt false
        markedToMidCount := e.markedToMidCount + 1 }

/-- The time of the anchor of the equity curve: the last mark, or the last close when that
is later. -/
def anchorAt (p : Portfolio) : Time :=
  let lastMark := p.equityHistory.getLast?.map Prod.fst
  let lastClose := p.closedPositions.reverse.findSome? Position.closedAt
  match lastMark, lastClose with
  | some m, some c => if m ≤ c then c else m
  | some m, none => m
  | none, some c => c
  | none, none => cfg.wallClock

/-- `_final_mark_to_market`. -/
def finalMarkToMarket (e : BacktestEngine σ) : BacktestEngine σ :=
  let closed := (heldKeys e.portfolio fun _ => true).foldl (finalClose cfg e.matching.now) e
  let p := closed.portfolio
  { closed with
    portfolio :=
      { p with
        equityHistory := p.equityHistory ++ [(anchorAt cfg p, p.equityUsd)]
        cashHistory := p.cashHistory ++ [(anchorAt cfg p, p.cashUsd)] } }

/-- The trade outcome of a closed position. -/
def tradeOutcome (pos : Position) : TradeOutcome :=
  let entryNotional :=
    max 0 (pos.entryPrice * (pos.size + pos.realizedPnlUsd / max (1 / 10000) pos.entryPrice))
  let denom :=
    if pos.costBasisUsd > 0 then pos.costBasisUsd + pos.realizedPnlUsd else max e9 entryNotional
  { pnlUsd := pos.realizedPnlUsd
    returnPct := if denom > 0 then pos.realizedPnlUsd / denom * 100 else 0
    holdingSeconds := match pos.openedAt, pos.closedAt with
      | some o, some c => max 0 (((c - o : ℤ) : ℚ) / 10 ^ 6)
      | _, _ => 0
    won := decide (pos.realizedPnlUsd > 0) }

/-- `_build_result`: the statistics of the run, read off the portfolio and the orders.  The fees are
those of the closed and of the open positions, the fees on redemptions apart. -/
def buildResult (e : BacktestEngine σ) : BacktestResult :=
  let p := e.portfolio
  let orders := e.matching.allOrders
  let feesPaid := (p.closedPositions.map Position.feesPaidUsd).sum +
    (p.positions.values.map Position.feesPaidUsd).sum
  { finalEquityUsd := p.equityUsd
    initialCapitalUsd := cfg.portfolio.initialCapitalUsd
    closedPositionCount := p.closedPositions.length
    openPositionCount := p.positions.entries.length
    totalFills := e.matching.allFills.length
    rejectedOrders := (orders.filter fun o => o.state = .rejected).length
    cancelledOrders := (orders.filter fun o => o.state = .cancelled).length
    equityHistory := p.equityHistory
    fills := e.matching.allFills
    tradeOutcomes := p.closedPositions.map tradeOutcome
    feesPerFillUsd := max 0 (feesPaid - p.resolutionFeesPaidUsd)
    feesResolutionUsd := p.resolutionFeesPaidUsd
    settledPositions := e.settledPositionCount
    markedToMidPositions := e.markedToMidCount }

/-- The settlements that drive the sweep: the markets with a known winner, in the order of
their resolution. -/
def resolutionScheduleOf : List (Time × TokenId) :=
  sortByKey Prod.fst (cfg.settlements.entries.filterMap fun s =>
    match s.2.resolutionTime, s.2.settlePrice with
    | some at_, some _ => some (at_, s.1)
    | _, _ => none)

/-- The engine at the start of `run`. -/
def start (strategyState : σ) (tradeIntents : List TradeIntent) : BacktestEngine σ where
  portfolio := Portfolio.init (portfolioConfig cfg)
  pendingIntents := sortByKey TradeIntent.emittedAt tradeIntents
  resolutionSchedule := resolutionScheduleOf cfg
  strategy := strategyState

/-- Feed one snapshot through `handler` and count it. -/
def feedOne (handler : BacktestEngine σ → BookSnapshot → Except EngineError (BacktestEngine σ))
    (e : BacktestEngine σ) (snap : BookSnapshot) : Except EngineError (BacktestEngine σ) :=
  (handler e snap).map fun e => { e with snapshotsProcessed := e.snapshotsProcessed + 1 }

/-- The loop of `run` over the snapshots. -/
def feed (strat : Option (Strategy σ)) (snapshots : List BookSnapshot) (e : BacktestEngine σ) :
    Except EngineError (BacktestEngine σ) :=
  snapshots.foldlM (feedOne (onSnapshot cfg strat)) e

/-- The close-out at the end of `run`. -/
def finish (e : BacktestEngine σ) : BacktestEngine σ :=
  if cfg.finalCloseAtLastMid then finalMarkToMarket cfg e else e

/-- `run`. -/
def run (strat : Option (Strategy σ)) (strategyState : σ) (tradeIntents : List TradeIntent)
    (snapshots : List BookSnapshot) : Except EngineError BacktestResult :=
  (feed cfg strat snapshots (start cfg strategyState tradeIntents)).map fun e =>
    buildResult cfg (finish cfg e)

end BacktestEngine

end Evosport.Backtest
