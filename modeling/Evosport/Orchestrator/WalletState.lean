/-
The wallet's positions, orders and fills in memory (`services/wallet_state_cache.py`).

The exchange's user channel reports the wallet's trades and orders, each of them possibly more than
once; a trade is reported again with every stage it reaches, and is taken back when it fails.  Every
so often a snapshot of the positions replaces what was derived from the trades.  The readers on the
hot path see nothing but this state.

A report comes with its texts as the channel sends them, the empty text for a missing one, and with
its numbers as the code reads them (`_safe_float`, `_parse_event_timestamp`), exact.  A row of a
snapshot comes with the first of its alternative fields that is there.  The readings of the clocks
come with the event.  A cache is only changed under its lock, so its operations follow each other.
-/
import Evosport.Lib.FirstSeen
import Evosport.Lib.Run
import Evosport.Lib.Text
import Mathlib.Algebra.Order.Field.Rat
import Mathlib.Algebra.Order.Field.Basic
import Mathlib.Tactic.FieldSimp
import Mathlib.Tactic.Linarith
import Mathlib.Tactic.NormNum

namespace Evosport.Orchestrator.WalletState

open Lib

/-! ## Positions, orders and fills -/

/-- The side of an order of the wallet. -/
inductive Side where
  | buy
  | sell
deriving DecidableEq, Repr

/-- `WalletPosition`: what the wallet holds of a token. -/
structure WalletPosition where
  tokenId : String
  conditionId : String
  outcomeIndex : ℤ := 0
  size : ℚ := 0
  costBasisUsd : ℚ := 0
  lastFillAt : Option ℚ := none
  isResolved : Bool := false
  settlementPrice : Option ℚ := none
  redeemable : Bool := false
  lastRestMarkPrice : Option ℚ := none
deriving DecidableEq, Repr

/-- `avg_entry_price` -/
def WalletPosition.avgEntryPrice (pos : WalletPosition) : ℚ :=
  if pos.size ≤ 0 then 0 else pos.costBasisUsd / pos.size

/-- `WalletOrder`: an order of the wallet, as the feed reports it. -/
structure WalletOrder where
  orderId : String
  tokenId : String
  conditionId : String
  side : Side
  price : ℚ
  originalSize : ℚ
  sizeMatched : ℚ
  status : String
  placedAt : Option ℚ
  lastUpdate : ℚ
deriving DecidableEq, Repr

/-- `is_terminal` -/
def WalletOrder.isTerminal (order : WalletOrder) : Bool :=
  decide (order.status ∈ ["CONFIRMED", "CANCELLATION", "FAILED"])

/-- `WalletFill`: a trade of the wallet, as the feed reports it. -/
structure WalletFill where
  tradeId : String
  orderId : String
  tokenId : String
  conditionId : String
  side : Side
  price : ℚ
  size : ℚ
  status : String
  matchedAt : ℚ
  confirmedAt : Option ℚ := none
deriving DecidableEq, Repr

/-- `_MAX_TRACKED_ORDERS` -/
def maxTrackedOrders : ℕ := 5000

/-- `_MAX_RECENT_FILLS` -/
def maxRecentFills : ℕ := 1000

/-- The cache.  The sets are lists without repetitions, the two deques have their newest element
at the end. -/
structure WalletStateCache where
  positions : Dict String WalletPosition := .empty
  conditionToTokenIds : Dict String (List String) := .empty
  orders : Dict String WalletOrder := .empty
  recentFills : List WalletFill := []
  appliedTradeIds : List String := []
  appliedTradeIdSet : List String := []
  walletAddress : Option String := none
  wsConnected : Bool := false
  wsConnectedSince : Option ℚ := none
  lastWsEvent : Option ℚ := none
  lastRestSeed : Option ℚ := none
  lastRestSeedSucceeded : Bool := false
  restSeedCount : ℕ := 0
  tradesApplied : ℕ := 0
  ordersApplied : ℕ := 0

/-- A report of a trade. -/
structure TradeEvent where
  id : String
  owner : String := ""
  tradeOwner : String := ""
  assetId : String
  market : String := ""
  takerOrderId : String := ""
  side : String
  status : String := ""
  price : ℚ
  size : ℚ
  matchedAt : ℚ
  utcnow : ℚ
deriving DecidableEq, Repr

/-- A report of an order. -/
structure OrderEvent where
  id : String
  owner : String := ""
  orderOwner : String := ""
  assetId : String
  market : String := ""
  side : String
  orderType : String := ""
  price : ℚ
  originalSize : ℚ
  sizeMatched : ℚ
  timestamp : ℚ
deriving DecidableEq, Repr

/-- A row of the open positions in a snapshot of the venue, with its size, what it cost, and its
current price. -/
structure OpenRow where
  tokenId : String
  conditionId : String := ""
  outcomeIndex : ℤ := 0
  size : ℚ
  initialValue : ℚ := 0
  avgPrice : ℚ := 0
  curPrice : ℚ := 0
  redeemable : Bool := false
deriving DecidableEq, Repr

/-- A row of the closed positions in a snapshot of the venue; it has no size, only the price it was
settled at. -/
structure ClosedRow where
  tokenId : String
  conditionId : String := ""
  outcomeIndex : ℤ := 0
  curPrice : ℚ := 0
  redeemable : Bool := true
deriving DecidableEq, Repr

/-- The counters that `seed_from_rest` returns. -/
structure SeedResult where
  openSeeded : ℕ := 0
  closedSeeded : ℕ := 0
  removedStale : ℕ := 0
deriving DecidableEq, Repr

/-- What `_emit_change` tells the subscribers. -/
inductive Change where
  | trade (tradeId tokenId conditionId : String) (side : Side) (size price : ℚ) (status : String)
  | order (orderId tokenId conditionId : String) (side : Side) (status : String) (sizeMatched : ℚ)
  | seed (succeeded : Bool) (result : SeedResult)
  | wsState (connected : Bool)
deriving DecidableEq, Repr

/-! ## Positions and their conditions -/

/-- `_condition_to_token_ids.setdefault(condition_id, set()).add(token_id)` -/
def WalletStateCache.track (s : WalletStateCache) (conditionId tokenId : String) :
    WalletStateCache :=
  if conditionId = "" then s
  else
    let tokenIds := addNew (s.conditionToTokenIds.getD conditionId []) tokenId
    { s with conditionToTokenIds := s.conditionToTokenIds.set conditionId tokenIds }

/-- Store the position of a token. -/
def WalletStateCache.put (s : WalletStateCache) (tokenId : String) (pos : WalletPosition) :
    WalletStateCache :=
  { s with positions := s.positions.set tokenId pos }

/-- `_remove_position_locked`: the position goes, and its token leaves the set of its condition,
which goes with its last token. -/
def removePosition (tokenId : String) (s : WalletStateCache) : WalletStateCache :=
  match s.positions.get? tokenId with
  | none => s
  | some pos =>
    let s := { s with positions := s.positions.erase tokenId }
    if pos.conditionId = "" then s
    else match s.conditionToTokenIds.get? pos.conditionId with
      | none => s
      | some tokenIds =>
        let tokenIds := tokenIds.erase tokenId
        if tokenIds.isEmpty then
          { s with conditionToTokenIds := s.conditionToTokenIds.erase pos.conditionId }
        else { s with conditionToTokenIds := s.conditionToTokenIds.set pos.conditionId tokenIds }

/-- A position that holds nothing is removed, unless it is resolved. -/
def dropExited (tokenId : String) (pos : WalletPosition) (s : WalletStateCache) :
    WalletStateCache :=
  if pos.size ≤ 0 ∧ pos.isResolved = false then removePosition tokenId s else s

/-! ## Trades -/

/-- A trade as `apply_trade` reads it off its report -/
structure Trade where
  tradeId : String
  orderId : String
  tokenId : String
  conditionId : String
  side : Side
  price : ℚ
  size : ℚ
  status : String
  matchedAt : ℚ
deriving DecidableEq, Repr

/-- The statuses a trade is applied at. -/
def appliedStatuses : List String := ["MATCHED", "MINED", "CONFIRMED"]

/-- `deque.append` -/
def push {α : Type} (cap : ℕ) (l : List α) (x : α) : List α := (l ++ [x]).drop (l.length + 1 - cap)

/-- The loop behind an applied trade: ids that have rolled out are forgotten. -/
def trimApplied : List String → List String → List String × List String
  | [], ids => ([], ids)
  | old :: rest, ids =>
    if ids.length > maxRecentFills * 2 then trimApplied rest (ids.erase old)
    else (old :: rest, ids)

/-- What a trade does to a position: a buy adds its size and cost, a sale takes its share of the
cost at the average price, and at most what is there. -/
def WalletPosition.fill (pos : WalletPosition) (side : Side) (price size : ℚ) : WalletPosition :=
  match side with
  | .buy => { pos with size := pos.size + size, costBasisUsd := pos.costBasisUsd + price * size }
  | .sell =>
    if pos.size > 0 then
      let avg := pos.costBasisUsd / pos.size
      let reduction := min size pos.size
      let pos := { pos with
        size := pos.size - reduction
        costBasisUsd := pos.costBasisUsd - avg * reduction }
      if pos.size ≤ 0 then { pos with size := 0, costBasisUsd := 0 } else pos
    else pos

/-- The fill that a trade leaves behind -/
def Trade.toFill (trade : Trade) : WalletFill where
  tradeId := trade.tradeId
  orderId := trade.orderId
  tokenId := trade.tokenId
  conditionId := trade.conditionId
  side := trade.side
  price := trade.price
  size := trade.size
  status := trade.status
  matchedAt := trade.matchedAt

/-- The position that a trade is applied to, which is opened when there is none -/
def held (trade : Trade) (s : WalletStateCache) : WalletPosition :=
  (s.positions.get? trade.tokenId).getD
    { tokenId := trade.tokenId, conditionId := trade.conditionId }

/-- The position after a trade -/
def filled (trade : Trade) (s : WalletStateCache) : WalletPosition :=
  let pos := held trade s
  let pos := { pos with
    conditionId := if trade.conditionId = "" then pos.conditionId else trade.conditionId }
  { pos.fill trade.side trade.price trade.size with lastFillAt := some trade.matchedAt }

/-- The token is listed under the condition of a trade, unless its position has it already. -/
def noted (trade : Trade) (s : WalletStateCache) : WalletStateCache :=
  match s.positions.get? trade.tokenId with
  | none => s.track trade.conditionId trade.tokenId
  | some pos =>
    if pos.conditionId = trade.conditionId then s
    else s.track trade.conditionId trade.tokenId

/-- `_apply_fill_locked`, up to the removal of a position that holds nothing -/
def settled (trade : Trade) (s : WalletStateCache) : WalletStateCache :=
  let applied := trimApplied (push (maxRecentFills * 2) s.appliedTradeIds trade.tradeId)
    (addNew s.appliedTradeIdSet trade.tradeId)
  { (noted trade s).put trade.tokenId (filled trade s) with
    recentFills := push maxRecentFills s.recentFills trade.toFill
    appliedTradeIds := applied.1
    appliedTradeIdSet := applied.2 }

/-- `_apply_fill_locked` -/
def applyFill (trade : Trade) (s : WalletStateCache) : WalletStateCache :=
  dropExited trade.tokenId (filled trade s) (settled trade s)

/-- `_find_recent_fill_by_trade_id` -/
def findFill (tradeId : String) (fills : List WalletFill) : Option WalletFill :=
  fills.find? fun fill => fill.tradeId = tradeId

/-- The fill that `_find_recent_fill_by_trade_id` returns is written to. -/
def updateFill (tradeId : String) (f : WalletFill → WalletFill) : List WalletFill → List WalletFill
  | [] => []
  | fill :: fills =>
    if fill.tradeId = tradeId then f fill :: fills else fill :: updateFill tradeId f fills

/-- What taking a trade back does to a position -/
def WalletPosition.unfill (pos : WalletPosition) (fill : WalletFill) : WalletPosition :=
  let pos := match fill.side with
    | .buy =>
      let reduction := min fill.size pos.size
      let avg := if pos.size > 0 then pos.costBasisUsd / pos.size else fill.price
      { pos with size := pos.size - reduction, costBasisUsd := pos.costBasisUsd - avg * reduction }
    | .sell => { pos with
        size := pos.size + fill.size
        costBasisUsd := pos.costBasisUsd + fill.price * fill.size }
  if pos.size ≤ 0 then { pos with size := 0, costBasisUsd := 0 } else pos

/-- `_reverse_fill_locked`, up to the removal of a position that holds nothing -/
def unsettled (fill : WalletFill) (pos : WalletPosition) (s : WalletStateCache) :
    WalletStateCache :=
  { s.put fill.tokenId (pos.unfill fill) with
    appliedTradeIdSet := s.appliedTradeIdSet.erase fill.tradeId
    recentFills := updateFill fill.tradeId ({ · with status := "FAILED" }) s.recentFills }

/-- `_reverse_fill_locked` -/
def reverseFill (tradeId : String) (s : WalletStateCache) : WalletStateCache :=
  if tradeId ∉ s.appliedTradeIdSet then s
  else match findFill tradeId s.recentFills with
    | none => s
    | some fill => match s.positions.get? fill.tokenId with
      | none => s
      | some pos => dropExited fill.tokenId (pos.unfill fill) (unsettled fill pos s)

section Events

variable (lower upper : String → String)

/-- The side that a report names -/
def parseSide (side : String) : Option Side :=
  let side := upper (strip side)
  if side = "BUY" then some .buy else if side = "SELL" then some .sell else none

/-- Whether a report is of another wallet than the one the cache is for. -/
def isForeign (wallet : Option String) (owner otherOwner : String) : Bool :=
  let owner := lower (strip (if owner = "" then otherOwner else owner))
  match wallet with
  | some wallet => wallet ≠ "" && owner ≠ "" && owner ≠ wallet
  | none => false

/-- The head of `apply_trade`: a report that fails one of the checks is dropped without a trace. -/
def parseTrade (wallet : Option String) (event : TradeEvent) : Option Trade :=
  match parseSide upper event.side with
  | none => none
  | some side =>
    if strip event.id = "" ∨ isForeign lower wallet event.owner event.tradeOwner ∨
        strip event.assetId = "" ∨ event.price ≤ 0 ∨ event.size ≤ 0 then none
    else some {
      tradeId := strip event.id
      orderId := strip event.takerOrderId
      tokenId := strip event.assetId
      conditionId := strip event.market
      side := side
      price := event.price
      size := event.size
      status := upper (strip (if event.status = "" then "MATCHED" else event.status))
      matchedAt := event.matchedAt }

/-- The last part of `apply_trade`: the fill is told the stage of its trade. -/
def WalletFill.reach (status : String) (now : ℚ) (fill : WalletFill) : WalletFill :=
  { fill with
    status := status
    confirmedAt := if status = "CONFIRMED" then some now else fill.confirmedAt }

/-- The body of `apply_trade`, for a trade that passes its checks; and whether a position changed -/
def settleTrade (trade : Trade) (s : WalletStateCache) : WalletStateCache × Bool :=
  if trade.status = "FAILED" then (reverseFill trade.tradeId s, true)
  else if trade.tradeId ∉ s.appliedTradeIdSet ∧ trade.status ∈ appliedStatuses then
    (applyFill trade s, true)
  else (s, false)

/-- `apply_trade`: a report that can be read is settled and noted among the recent fills; a change
is emitted only where the position has changed. -/
def applyTrade (now : ℚ) (event : TradeEvent) (s : WalletStateCache) :
    WalletStateCache × Option Change :=
  match parseTrade lower upper s.walletAddress event with
  | none => (s, none)
  | some trade =>
    let (s, positionChanged) := settleTrade trade { s with lastWsEvent := some now }
    ({ s with
        recentFills := updateFill trade.tradeId (WalletFill.reach trade.status event.utcnow)
          s.recentFills
        tradesApplied := s.tradesApplied + 1 },
      if positionChanged then
        some (.trade trade.tradeId trade.tokenId trade.conditionId trade.side trade.size
          trade.price trade.status)
      else none)

/-! ## Orders -/

/-- `_evict_terminal_order_locked` -/
def evictTerminalOrder (orders : Dict String WalletOrder) : Dict String WalletOrder :=
  match orders.entries.find? fun e => e.2.isTerminal with
  | some e => orders.erase e.1
  | none => match orders.entries with
    | [] => orders
    | e :: _ => orders.erase e.1

/-- An order as `apply_order` reads it off its report -/
structure OrderReport where
  orderId : String
  tokenId : String
  conditionId : String
  side : Side
  price : ℚ
  originalSize : ℚ
  sizeMatched : ℚ
  orderType : String
  timestamp : ℚ
deriving DecidableEq, Repr

/-- The head of `apply_order`, as for trades: `none` for a report without a side, an id or a token,
and for one of another wallet. -/
def parseOrder (wallet : Option String) (event : OrderEvent) : Option OrderReport :=
  match parseSide upper event.side with
  | none => none
  | some side =>
    if strip event.id = "" ∨ isForeign lower wallet event.owner event.orderOwner ∨
        strip event.assetId = "" then none
    else some {
      orderId := strip event.id
      tokenId := strip event.assetId
      conditionId := strip event.market
      side := side
      price := event.price
      originalSize := event.originalSize
      sizeMatched := event.sizeMatched
      orderType := upper (strip (if event.orderType = "" then "PLACEMENT" else event.orderType))
      timestamp := event.timestamp }

/-- An order that is reported for the first time -/
def OrderReport.placed (report : OrderReport) : WalletOrder where
  orderId := report.orderId
  tokenId := report.tokenId
  conditionId := report.conditionId
  side := report.side
  price := report.price
  originalSize := report.originalSize
  sizeMatched := report.sizeMatched
  status := report.orderType
  placedAt := if report.orderType = "PLACEMENT" then some report.timestamp else none
  lastUpdate := report.timestamp

/-- An order that is reported again -/
def OrderReport.update (report : OrderReport) (existing : WalletOrder) : WalletOrder :=
  { existing with
    sizeMatched := max existing.sizeMatched report.sizeMatched
    status := report.orderType
    lastUpdate := report.timestamp
    placedAt :=
      if report.orderType = "PLACEMENT" ∧ existing.placedAt = none then some report.timestamp
      else existing.placedAt }

/-- The orders after a report -/
def recordOrder (report : OrderReport) (orders : Dict String WalletOrder) :
    Dict String WalletOrder :=
  match orders.get? report.orderId with
  | some existing => orders.set report.orderId (report.update existing)
  | none =>
    let orders :=
      if orders.entries.length ≥ maxTrackedOrders then evictTerminalOrder orders else orders
    orders.set report.orderId report.placed

/-- `apply_order` -/
def applyOrder (now : ℚ) (event : OrderEvent) (s : WalletStateCache) :
    WalletStateCache × Option Change :=
  match parseOrder lower upper s.walletAddress event with
  | none => (s, none)
  | some report =>
    ({ s with
        orders := recordOrder report s.orders
        lastWsEvent := some now
        ordersApplied := s.ordersApplied + 1 },
      some (.order report.orderId report.tokenId report.conditionId report.side report.orderType
        report.sizeMatched))

/-! ## Snapshots -/

/-- `configure_wallet`: the first wallet stays. -/
def configureWallet (walletAddress : String) (s : WalletStateCache) : WalletStateCache :=
  let normalized := lower (strip walletAddress)
  { s with walletAddress :=
      s.walletAddress.or (if normalized = "" then none else some normalized) }

/-- What a row says the position cost -/
def OpenRow.cost (row : OpenRow) : ℚ :=
  if row.initialValue ≠ 0 then row.initialValue else row.avgPrice * row.size

/-- A row of the open positions replaces what was derived from the trades. -/
def OpenRow.write (row : OpenRow) (pos : WalletPosition) : WalletPosition :=
  { pos with
    conditionId := if strip row.conditionId = "" then pos.conditionId else strip row.conditionId
    outcomeIndex := row.outcomeIndex
    size := row.size
    costBasisUsd := row.cost
    lastRestMarkPrice := if row.curPrice = 0 then none else some row.curPrice
    redeemable := row.redeemable }

/-- A row of the closed positions settles the position. -/
def ClosedRow.write (row : ClosedRow) (pos : WalletPosition) : WalletPosition :=
  { pos with
    isResolved := true
    redeemable := row.redeemable
    settlementPrice := if row.curPrice ≥ 0 then some row.curPrice else none
    lastRestMarkPrice := if row.curPrice = 0 then pos.lastRestMarkPrice else some row.curPrice }

/-- The loop of `seed_from_rest` over the open positions -/
def seedOpen (s : WalletStateCache) (row : OpenRow) : WalletStateCache :=
  let tokenId := strip row.tokenId
  let conditionId := strip row.conditionId
  if tokenId = "" then s
  else
    let pos := (s.positions.get? tokenId).getD { tokenId := tokenId, conditionId := conditionId }
    (s.put tokenId (row.write pos)).track conditionId tokenId

/-- The loop of `seed_from_rest` over the closed positions -/
def seedClosed (s : WalletStateCache) (row : ClosedRow) : WalletStateCache :=
  let tokenId := strip row.tokenId
  let conditionId := strip row.conditionId
  if tokenId = "" then s
  else match s.positions.get? tokenId with
    | some pos => s.put tokenId (row.write pos)
    | none => (s.track conditionId tokenId).put tokenId (row.write {
        tokenId := tokenId, conditionId := conditionId, outcomeIndex := row.outcomeIndex })

/-- The positions that a snapshot no longer has -/
def staleTokens (seen : List String) (s : WalletStateCache) : List String :=
  (s.positions.entries.filter fun e =>
    decide (e.1 ∉ seen ∧ e.2.isResolved = false ∧ e.2.size > 0)).map Prod.fst

/-- The tokens that the rows of a snapshot name -/
def namedTokens (tokenIds : List String) : List String := (tokenIds.map strip).filter (· ≠ "")

/-- What a snapshot does to the positions -/
def applySnapshot (open_ : List OpenRow) (closed : List ClosedRow) (s : WalletStateCache) :
    WalletStateCache :=
  let s := open_.foldl seedOpen s
  let s := (staleTokens (namedTokens (open_.map OpenRow.tokenId)) s).foldl
    (fun s tokenId => removePosition tokenId s) s
  closed.foldl seedClosed s

/-- `seed_from_rest` notes that it was called. -/
def noteSeed (now : ℚ) (walletAddress : String) (succeeded : Bool) (s : WalletStateCache) :
    WalletStateCache :=
  { configureWallet lower walletAddress s with
    lastRestSeed := some now
    lastRestSeedSucceeded := succeeded
    restSeedCount := s.restSeedCount + 1 }

/-- `seed_from_rest`: a snapshot that has succeeded replaces the positions and says what it did; one
that has failed is only noted. -/
def seedFromRest (now : ℚ) (walletAddress : String) (open_ : List OpenRow)
    (closed : List ClosedRow) (succeeded : Bool) (s : WalletStateCache) :
    WalletStateCache × SeedResult × Option Change :=
  let s := noteSeed lower now walletAddress succeeded s
  if succeeded then
    let seen := namedTokens (open_.map OpenRow.tokenId)
    let result : SeedResult := {
      openSeeded := seen.length
      closedSeeded := (namedTokens (closed.map ClosedRow.tokenId)).length
      removedStale := (staleTokens seen (open_.foldl seedOpen s)).length }
    (applySnapshot open_ closed s, result, some (.seed succeeded result))
  else (s, {}, none)

/-- `mark_ws_state` -/
def markWsState (now : ℚ) (connected : Bool) (s : WalletStateCache) :
    WalletStateCache × Option Change :=
  ({ s with
      wsConnected := connected
      wsConnectedSince := if connected then some now else none },
    if connected ≠ s.wsConnected then some (.wsState connected) else none)

/-! ## Runs -/

/-- What reaches the cache: a trade or an order of the feed, a snapshot of the venue, the state of
the socket, or the address of the wallet. -/
inductive Event where
  | trade (now : ℚ) (event : TradeEvent)
  | order (now : ℚ) (event : OrderEvent)
  | seed (now : ℚ) (walletAddress : String) (open_ : List OpenRow) (closed : List ClosedRow)
      (succeeded : Bool)
  | wsState (now : ℚ) (connected : Bool)
  | configure (walletAddress : String)
deriving DecidableEq, Repr

/-- What an event does, and what it tells the subscribers -/
def perform (s : WalletStateCache) : Event → WalletStateCache × Option Change
  | .trade now event => applyTrade lower upper now event s
  | .order now event => applyOrder lower upper now event s
  | .seed now walletAddress open_ closed succeeded =>
    let (s, _, change) := seedFromRest lower now walletAddress open_ closed succeeded s
    (s, change)
  | .wsState now connected => markWsState now connected s
  | .configure walletAddress => (configureWallet lower walletAddress s, none)

/-- The state after an event, without what it tells its watchers. -/
def step (s : WalletStateCache) (event : Event) : WalletStateCache := (perform lower upper s event).1

/-- The cache after these events, from the start of the process. -/
def run (events : List Event) : WalletStateCache := events.foldl (step lower upper) {}

end Events

/-! ## What the readers see -/

/-- `get_position_size` -/
def getPositionSize (tokenId : String) (s : WalletStateCache) : ℚ :=
  ((s.positions.get? tokenId).map WalletPosition.size).getD 0

/-- `get_open_orders` -/
def getOpenOrders (s : WalletStateCache) : List WalletOrder :=
  s.orders.values.filter fun order => !order.isTerminal

/-- `iter_tracked_condition_ids` -/
def trackedConditionIds (s : WalletStateCache) : List String :=
  s.conditionToTokenIds.keys.mergeSort (· ≤ ·)

/-! ## What the operations do to the positions -/

variable {s : WalletStateCache} {trade : Trade} {tokenId tradeId : String}

/-- Listing a token leaves everything but the conditions. -/
lemma track_eq (s : WalletStateCache) (conditionId tokenId : String) :
    ∃ conditionToTokenIds, s.track conditionId tokenId =
      { s with conditionToTokenIds := conditionToTokenIds } := by
  rw [WalletStateCache.track]
  split_ifs
  · exact ⟨s.conditionToTokenIds, rfl⟩
  · exact ⟨_, rfl⟩

@[simp] lemma positions_track (s : WalletStateCache) (conditionId tokenId : String) :
    (s.track conditionId tokenId).positions = s.positions := by
  obtain ⟨_, h⟩ := track_eq s conditionId tokenId
  rw [h]

@[simp] lemma positions_put (s : WalletStateCache) (tokenId : String) (pos : WalletPosition) :
    (s.put tokenId pos).positions = s.positions.set tokenId pos := rfl

lemma get?_removePosition (tokenId t : String) (s : WalletStateCache) :
    (removePosition tokenId s).positions.get? t =
      if tokenId = t then none else s.positions.get? t := by
  cases hpos : s.positions.get? tokenId with
  | none =>
    by_cases ht : tokenId = t
    · subst ht; simp [removePosition, hpos]
    · simp [removePosition, hpos, ht]
  | some pos =>
    have hpositions : (removePosition tokenId s).positions = s.positions.erase tokenId := by
      simp only [removePosition, hpos]
      split_ifs
      · rfl
      · split
        · rfl
        · split_ifs <;> rfl
    rw [hpositions, Dict.get?_erase]

lemma get?_dropExited (tokenId t : String) (pos : WalletPosition) (s : WalletStateCache) :
    (dropExited tokenId pos s).positions.get? t =
      if tokenId = t ∧ pos.size ≤ 0 ∧ pos.isResolved = false then none
      else s.positions.get? t := by
  unfold dropExited
  by_cases hexit : pos.size ≤ 0 ∧ pos.isResolved = false
  · rw [if_pos hexit, get?_removePosition]
    simp [hexit]
  · rw [if_neg hexit, if_neg fun h => hexit h.2]

lemma noted_eq (trade : Trade) (s : WalletStateCache) :
    ∃ conditionToTokenIds,
      noted trade s = { s with conditionToTokenIds := conditionToTokenIds } := by
  rw [noted]
  split
  · exact track_eq s _ _
  · split_ifs
    · exact ⟨s.conditionToTokenIds, rfl⟩
    · exact track_eq s _ _

lemma positions_noted (trade : Trade) (s : WalletStateCache) :
    (noted trade s).positions = s.positions := by
  obtain ⟨_, h⟩ := noted_eq trade s
  rw [h]

/-- A trade changes the position of its token and no other. -/
lemma get?_applyFill (trade : Trade) (s : WalletStateCache) (t : String) :
    (applyFill trade s).positions.get? t =
      if trade.tokenId = t then
        if (filled trade s).size ≤ 0 ∧ (filled trade s).isResolved = false then none
        else some (filled trade s)
      else s.positions.get? t := by
  have hsettled : (settled trade s).positions.get? t =
      if trade.tokenId = t then some (filled trade s) else s.positions.get? t := by
    show ((noted trade s).positions.set _ _).get? t = _
    rw [positions_noted, Dict.get?_set]
  rw [applyFill, get?_dropExited, hsettled]
  by_cases ht : trade.tokenId = t
  · simp [ht]
  · simp [ht]

lemma tradeId_of_findFill {fills : List WalletFill} {fill : WalletFill}
    (h : findFill tradeId fills = some fill) : fill.tradeId = tradeId := by
  simpa using List.find?_some h

/-- Taking a trade back changes nothing, or the position of the trade's token. -/
lemma reverseFill_cases (tradeId : String) (s : WalletStateCache) :
    reverseFill tradeId s = s ∨
      ∃ fill pos, tradeId ∈ s.appliedTradeIdSet ∧ findFill tradeId s.recentFills = some fill ∧
        s.positions.get? fill.tokenId = some pos ∧
        reverseFill tradeId s =
          dropExited fill.tokenId (pos.unfill fill) (unsettled fill pos s) := by
  by_cases hmem : tradeId ∈ s.appliedTradeIdSet
  · cases hfill : findFill tradeId s.recentFills with
    | none => exact .inl (by simp [reverseFill, hmem, hfill])
    | some fill =>
      cases hpos : s.positions.get? fill.tokenId with
      | none => exact .inl (by simp [reverseFill, hmem, hfill, hpos])
      | some pos => exact .inr ⟨fill, pos, hmem, rfl, hpos, by simp [reverseFill, hmem, hfill, hpos]⟩
  · exact .inl (by simp [reverseFill, hmem])

section Frame

variable (pos : WalletPosition)

/-- Removing a position leaves everything but the positions and their conditions. -/
lemma removePosition_eq (tokenId : String) (s : WalletStateCache) :
    ∃ positions conditionToTokenIds, removePosition tokenId s =
      { s with positions := positions, conditionToTokenIds := conditionToTokenIds } := by
  cases hpos : s.positions.get? tokenId with
  | none => exact ⟨s.positions, s.conditionToTokenIds, by simp [removePosition, hpos]⟩
  | some pos =>
    simp only [removePosition, hpos]
    split_ifs
    · exact ⟨_, s.conditionToTokenIds, rfl⟩
    · split
      · exact ⟨_, s.conditionToTokenIds, rfl⟩
      · split_ifs <;> exact ⟨_, _, rfl⟩

lemma dropExited_eq (tokenId : String) (pos : WalletPosition) (s : WalletStateCache) :
    ∃ positions conditionToTokenIds, dropExited tokenId pos s =
      { s with positions := positions, conditionToTokenIds := conditionToTokenIds } := by
  unfold dropExited
  split_ifs
  · exact removePosition_eq tokenId s
  · exact ⟨s.positions, s.conditionToTokenIds, rfl⟩

@[simp] lemma recentFills_dropExited :
    (dropExited tokenId pos s).recentFills = s.recentFills := by
  obtain ⟨_, _, h⟩ := dropExited_eq tokenId pos s
  rw [h]

@[simp] lemma appliedTradeIds_dropExited :
    (dropExited tokenId pos s).appliedTradeIds = s.appliedTradeIds := by
  obtain ⟨_, _, h⟩ := dropExited_eq tokenId pos s
  rw [h]

@[simp] lemma appliedTradeIdSet_dropExited :
    (dropExited tokenId pos s).appliedTradeIdSet = s.appliedTradeIdSet := by
  obtain ⟨_, _, h⟩ := dropExited_eq tokenId pos s
  rw [h]

@[simp] lemma orders_dropExited : (dropExited tokenId pos s).orders = s.orders := by
  obtain ⟨_, _, h⟩ := dropExited_eq tokenId pos s
  rw [h]

end Frame

/-- What a trade leaves behind besides its position -/
lemma applyFill_ledger (trade : Trade) (s : WalletStateCache) :
    (applyFill trade s).recentFills = push maxRecentFills s.recentFills trade.toFill ∧
      ((applyFill trade s).appliedTradeIds, (applyFill trade s).appliedTradeIdSet) =
        trimApplied (push (maxRecentFills * 2) s.appliedTradeIds trade.tradeId)
          (addNew s.appliedTradeIdSet trade.tradeId) ∧
      (applyFill trade s).orders = s.orders := by
  have horders : (noted trade s).orders = s.orders := by
    obtain ⟨_, h⟩ := noted_eq trade s
    rw [h]
  rw [applyFill, recentFills_dropExited, appliedTradeIds_dropExited,
    appliedTradeIdSet_dropExited, orders_dropExited]
  simp only [settled, Prod.mk.eta, true_and]
  exact horders

/-- A trade is taken back, applied, or makes no difference. -/
lemma settleTrade_cases (trade : Trade) (s : WalletStateCache) :
    (trade.status = "FAILED" ∧ settleTrade trade s = (reverseFill trade.tradeId s, true)) ∨
      (trade.status ≠ "FAILED" ∧ trade.tradeId ∉ s.appliedTradeIdSet ∧
        trade.status ∈ appliedStatuses ∧ settleTrade trade s = (applyFill trade s, true)) ∨
      (trade.status ≠ "FAILED" ∧
        (trade.tradeId ∈ s.appliedTradeIdSet ∨ trade.status ∉ appliedStatuses) ∧
        settleTrade trade s = (s, false)) := by
  by_cases hfailed : trade.status = "FAILED"
  · exact .inl ⟨hfailed, if_pos hfailed⟩
  · by_cases happly : trade.tradeId ∉ s.appliedTradeIdSet ∧ trade.status ∈ appliedStatuses
    · refine .inr (.inl ⟨hfailed, happly.1, happly.2, ?_⟩)
      rw [settleTrade, if_neg hfailed, if_pos happly]
    · refine .inr (.inr ⟨hfailed, ?_, ?_⟩)
      · rcases not_and_or.1 happly with h | h
        · exact .inl (not_not.1 h)
        · exact .inr h
      · rw [settleTrade, if_neg hfailed, if_neg happly]

/-! ## What positions cost -/

/-- The cost of a position lies between what its size costs at two prices. -/
structure PricedWithin (lo hi : ℚ) (pos : WalletPosition) : Prop where
  nonneg : 0 ≤ pos.size
  lower : lo * pos.size ≤ pos.costBasisUsd
  upper : pos.costBasisUsd ≤ hi * pos.size

namespace PricedWithin

variable {lo hi : ℚ} {pos pos' : WalletPosition}

/-- Only the size and the cost count. -/
lemma congr (h : PricedWithin lo hi pos) (hsize : pos'.size = pos.size)
    (hcost : pos'.costBasisUsd = pos.costBasisUsd) : PricedWithin lo hi pos' := by
  obtain ⟨h0, hlo, hhi⟩ := h
  rw [← hsize] at h0 hlo hhi
  rw [← hcost] at hlo hhi
  exact ⟨h0, hlo, hhi⟩

lemma zero (hsize : pos.size = 0) (hcost : pos.costBasisUsd = 0) : PricedWithin lo hi pos := by
  constructor <;> simp [hsize, hcost]

/-- More is added at a price between the two. -/
lemma add (h : PricedWithin lo hi pos) {price size : ℚ} (hlo : lo ≤ price) (hhi : price ≤ hi)
    (hsize : 0 ≤ size) (hs : pos'.size = pos.size + size)
    (hc : pos'.costBasisUsd = pos.costBasisUsd + price * size) : PricedWithin lo hi pos' := by
  have hbelow : lo * size ≤ price * size := mul_le_mul_of_nonneg_right hlo hsize
  have habove : price * size ≤ hi * size := mul_le_mul_of_nonneg_right hhi hsize
  constructor
  case nonneg => rw [hs]; linarith [h.nonneg]
  case lower => rw [hs, hc]; linarith [h.lower]
  case upper => rw [hs, hc]; linarith [h.upper]

/-- A part is taken away at the average price. -/
lemma reduce (h : PricedWithin lo hi pos) {r : ℚ} (hpos : 0 < pos.size) (hr : r ≤ pos.size)
    (hs : pos'.size = pos.size - r)
    (hc : pos'.costBasisUsd = pos.costBasisUsd - pos.costBasisUsd / pos.size * r) :
    PricedWithin lo hi pos' := by
  have havg : pos'.costBasisUsd = pos.costBasisUsd / pos.size * pos'.size := by
    rw [hc, hs]
    field_simp
  have hlo : lo ≤ pos.costBasisUsd / pos.size := (le_div_iff₀ hpos).2 h.lower
  have hhi : pos.costBasisUsd / pos.size ≤ hi := (div_le_iff₀ hpos).2 h.upper
  have hnonneg : 0 ≤ pos'.size := by rw [hs]; linarith
  constructor
  case nonneg => exact hnonneg
  case lower => rw [havg]; exact mul_le_mul_of_nonneg_right hlo hnonneg
  case upper => rw [havg]; exact mul_le_mul_of_nonneg_right hhi hnonneg

lemma fill (h : PricedWithin lo hi pos) (side : Side) {price size : ℚ} (hlo : lo ≤ price)
    (hhi : price ≤ hi) (hsize : 0 < size) : PricedWithin lo hi (pos.fill side price size) := by
  cases side with
  | buy => exact h.add hlo hhi hsize.le rfl rfl
  | sell =>
    -- A sale takes away at most what is held; when nothing is held it does nothing.
    simp only [WalletPosition.fill]
    split_ifs with hpos hexit
    · exact .zero rfl rfl
    · exact h.reduce hpos (min_le_right _ _) rfl rfl
    · exact h

lemma unfill (h : PricedWithin lo hi pos) {f : WalletFill} (hlo : lo ≤ f.price)
    (hhi : f.price ≤ hi) (hsize : 0 < f.size) : PricedWithin lo hi (pos.unfill f) := by
  cases hside : f.side with
  | sell =>
    have hadd : PricedWithin lo hi { pos with
        size := pos.size + f.size
        costBasisUsd := pos.costBasisUsd + f.price * f.size } :=
      h.add hlo hhi hsize.le rfl rfl
    simp only [WalletPosition.unfill, hside]
    split_ifs
    · exact .zero rfl rfl
    · exact hadd
  | buy =>
    simp only [WalletPosition.unfill, hside]
    rcases h.nonneg.eq_or_lt with hzero | hpos
    · -- Nothing is held that could be given back.
      have hexit : pos.size - min f.size pos.size ≤ 0 := by rw [← hzero, min_eq_right hsize.le]; simp
      rw [if_pos hexit]
      exact .zero rfl rfl
    · rw [if_pos hpos]
      split_ifs
      · exact .zero rfl rfl
      · exact h.reduce hpos (min_le_right _ _) rfl rfl

end PricedWithin

lemma mem_push {α : Type} {cap : ℕ} {l : List α} {x y : α} (h : y ∈ push cap l x) :
    y ∈ l ∨ y = x := by
  have hmem := List.mem_of_mem_drop h
  simpa using hmem

lemma mem_updateFill {f : WalletFill → WalletFill} {fills : List WalletFill} {fill : WalletFill}
    (h : fill ∈ updateFill tradeId f fills) : fill ∈ fills ∨ ∃ old ∈ fills, fill = f old := by
  induction fills with
  | nil => exact .inl h
  | cons old fills ih =>
    by_cases hid : old.tradeId = tradeId
    · rw [updateFill, if_pos hid] at h
      rcases List.mem_cons.1 h with rfl | h
      · exact .inr ⟨old, List.mem_cons_self, rfl⟩
      · exact .inl (List.mem_cons_of_mem _ h)
    · rw [updateFill, if_neg hid] at h
      rcases List.mem_cons.1 h with rfl | h
      · exact .inl List.mem_cons_self
      · rcases ih h with h | ⟨old', hold', rfl⟩
        · exact .inl (List.mem_cons_of_mem _ h)
        · exact .inr ⟨old', List.mem_cons_of_mem _ hold', rfl⟩

/-- The positions of the cache and the fills it could still take back -/
structure Priced (lo hi : ℚ) (s : WalletStateCache) : Prop where
  positions : ∀ t pos, s.positions.get? t = some pos → PricedWithin lo hi pos
  fills : ∀ f ∈ s.recentFills, lo ≤ f.price ∧ f.price ≤ hi ∧ 0 < f.size

namespace Priced

variable {lo hi : ℚ} {s' : WalletStateCache}

lemma init : Priced lo hi {} := ⟨fun _ _ h => (nomatch h), fun _ hf => (nomatch hf)⟩

/-- Positions may go, fills may be marked. -/
lemma mono (h : Priced lo hi s)
    (hpositions : ∀ t pos, s'.positions.get? t = some pos → s.positions.get? t = some pos)
    (hfills : s'.recentFills = s.recentFills) : Priced lo hi s' :=
  ⟨fun t pos hpos => h.positions t pos (hpositions t pos hpos), hfills ▸ h.fills⟩

lemma put (h : Priced lo hi s) {pos : WalletPosition} (hpos : PricedWithin lo hi pos)
    (tokenId : String) : Priced lo hi (s.put tokenId pos) := by
  refine ⟨fun t pos' hget => ?_, h.fills⟩
  rw [positions_put, Dict.get?_set] at hget
  split_ifs at hget with ht
  · exact Option.some.inj hget ▸ hpos
  · exact h.positions t pos' hget

lemma track (h : Priced lo hi s) (conditionId tokenId : String) :
    Priced lo hi (s.track conditionId tokenId) :=
  h.mono (fun t pos hpos => by rwa [positions_track] at hpos) (by
    obtain ⟨_, heq⟩ := track_eq s conditionId tokenId
    rw [heq])

lemma removePosition (h : Priced lo hi s) (tokenId : String) :
    Priced lo hi (removePosition tokenId s) := by
  refine h.mono (fun t pos hpos => ?_) ?_
  · rw [get?_removePosition] at hpos
    split_ifs at hpos
    exact hpos
  · obtain ⟨_, _, heq⟩ := removePosition_eq tokenId s
    rw [heq]

lemma dropExited (h : Priced lo hi s) (tokenId : String) (pos : WalletPosition) :
    Priced lo hi (dropExited tokenId pos s) := by
  unfold WalletState.dropExited
  split_ifs
  · exact h.removePosition tokenId
  · exact h

lemma held (h : Priced lo hi s) (trade : Trade) : PricedWithin lo hi (held trade s) := by
  cases hpos : s.positions.get? trade.tokenId with
  | none => rw [WalletState.held, hpos]; exact .zero rfl rfl
  | some pos => rw [WalletState.held, hpos]; exact h.positions _ pos hpos

lemma applyFill (h : Priced lo hi s) (hlo : lo ≤ trade.price) (hhi : trade.price ≤ hi)
    (hsize : 0 < trade.size) : Priced lo hi (applyFill trade s) := by
  have hheld : PricedWithin lo hi { WalletState.held trade s with
      conditionId :=
        if trade.conditionId = "" then (WalletState.held trade s).conditionId
        else trade.conditionId } := (h.held trade).congr rfl rfl
  have hfilled : PricedWithin lo hi (filled trade s) :=
    (hheld.fill trade.side hlo hhi hsize).congr rfl rfl
  constructor
  case positions =>
    intro t pos hpos
    rw [get?_applyFill] at hpos
    split_ifs at hpos with ht hexit
    · exact Option.some.inj hpos ▸ hfilled
    · exact h.positions t pos hpos
  case fills =>
    intro f hf
    rw [(applyFill_ledger trade s).1] at hf
    rcases mem_push hf with hf | rfl
    · exact h.fills f hf
    · exact ⟨hlo, hhi, hsize⟩

lemma updateFill (h : Priced lo hi s) (tradeId : String) {f : WalletFill → WalletFill}
    (hf : ∀ fill, (f fill).price = fill.price ∧ (f fill).size = fill.size) :
    Priced lo hi { s with recentFills := updateFill tradeId f s.recentFills } := by
  refine ⟨h.positions, fun fill hfill => ?_⟩
  rcases mem_updateFill hfill with hmem | ⟨old, hold, rfl⟩
  · exact h.fills fill hmem
  · rw [(hf old).1, (hf old).2]
    exact h.fills old hold

lemma reverseFill (h : Priced lo hi s) (tradeId : String) :
    Priced lo hi (reverseFill tradeId s) := by
  rcases reverseFill_cases tradeId s with heq | ⟨fill, pos, -, hfill, hpos, heq⟩
  · rwa [heq]
  · obtain ⟨hlo, hhi, hsize⟩ := h.fills fill (List.mem_of_find?_eq_some hfill)
    have hput := h.put ((h.positions _ pos hpos).unfill hlo hhi hsize) fill.tokenId
    have hmarked : Priced lo hi { s.put fill.tokenId (pos.unfill fill) with
        recentFills := WalletState.updateFill fill.tradeId ({ · with status := "FAILED" })
          s.recentFills } :=
      hput.updateFill fill.tradeId fun fill => ⟨rfl, rfl⟩
    have hunsettled : Priced lo hi (unsettled fill pos s) := ⟨hmarked.positions, hmarked.fills⟩
    rw [heq]
    exact hunsettled.dropExited fill.tokenId _

lemma foldl {α : Type} {f : WalletStateCache → α → WalletStateCache} {l : List α}
    (hf : ∀ s, ∀ a ∈ l, Priced lo hi s → Priced lo hi (f s a)) (h : Priced lo hi s) :
    Priced lo hi (l.foldl f s) := by
  induction l generalizing s with
  | nil => exact h
  | cons a l ih =>
    exact ih (fun s b hb => hf s b (List.mem_cons_of_mem _ hb)) (hf s a List.mem_cons_self h)

end Priced

/-- An event whose prices lie between two prices -/
def Event.Between (lo hi : ℚ) : Event → Prop
  | .trade _ event => lo ≤ event.price ∧ event.price ≤ hi
  | .seed _ _ open_ _ _ =>
    ∀ row ∈ open_, 0 ≤ row.size ∧ lo * row.size ≤ row.cost ∧ row.cost ≤ hi * row.size
  | _ => True

section Events

variable (lower upper : String → String)

/-- The checks of `apply_trade` let a report through as it is. -/
lemma parseTrade_eq_some {wallet : Option String} {event : TradeEvent}
    (h : parseTrade lower upper wallet event = some trade) :
    ∃ side, trade = {
        tradeId := strip event.id
        orderId := strip event.takerOrderId
        tokenId := strip event.assetId
        conditionId := strip event.market
        side := side
        price := event.price
        size := event.size
        status := upper (strip (if event.status = "" then "MATCHED" else event.status))
        matchedAt := event.matchedAt } ∧
      0 < event.price ∧ 0 < event.size := by
  cases hside : parseSide upper event.side with
  | none => simp [parseTrade, hside] at h
  | some side =>
    by_cases hbad : strip event.id = "" ∨ isForeign lower wallet event.owner event.tradeOwner ∨
        strip event.assetId = "" ∨ event.price ≤ 0 ∨ event.size ≤ 0
    · simp [parseTrade, hside, hbad] at h
    · simp only [parseTrade, hside, if_neg hbad] at h
      simp only [not_or, not_le] at hbad
      exact ⟨side, (Option.some.inj h).symm, hbad.2.2.2.1, hbad.2.2.2.2⟩

lemma of_parseTrade {wallet : Option String} {event : TradeEvent}
    (h : parseTrade lower upper wallet event = some trade) :
    trade.tradeId = strip event.id ∧ trade.price = event.price ∧ trade.size = event.size ∧
      0 < event.price ∧ 0 < event.size ∧
      trade.status = upper (strip (if event.status = "" then "MATCHED" else event.status)) := by
  obtain ⟨side, rfl, hprice, hsize⟩ := parseTrade_eq_some lower upper h
  exact ⟨rfl, rfl, rfl, hprice, hsize, rfl⟩

lemma Priced.seedOpen {lo hi : ℚ} (h : Priced lo hi s) {row : OpenRow} (hsize : 0 ≤ row.size)
    (hlo : lo * row.size ≤ row.cost) (hhi : row.cost ≤ hi * row.size) :
    Priced lo hi (seedOpen s row) := by
  unfold WalletState.seedOpen
  by_cases htoken : strip row.tokenId = ""
  · simpa only [if_pos htoken] using h
  · have hwritten : ∀ pos, PricedWithin lo hi (row.write pos) := fun pos => ⟨hsize, hlo, hhi⟩
    simp only [if_neg htoken]
    exact (h.put (hwritten _) _).track _ _

lemma Priced.seedClosed {lo hi : ℚ} (h : Priced lo hi s) (row : ClosedRow) :
    Priced lo hi (seedClosed s row) := by
  unfold WalletState.seedClosed
  by_cases htoken : strip row.tokenId = ""
  · simpa only [if_pos htoken] using h
  · simp only [if_neg htoken]
    cases hpos : s.positions.get? (strip row.tokenId) with
    | some pos =>
      have hwritten : PricedWithin lo hi (row.write pos) := (h.positions _ pos hpos).congr rfl rfl
      exact h.put hwritten _
    | none =>
      have hwritten : PricedWithin lo hi (row.write {
          tokenId := strip row.tokenId
          conditionId := strip row.conditionId
          outcomeIndex := row.outcomeIndex }) := .zero rfl rfl
      exact (h.track _ _).put hwritten _

lemma Priced.applySnapshot {lo hi : ℚ} (h : Priced lo hi s) {open_ : List OpenRow}
    (closed : List ClosedRow)
    (hopen : ∀ row ∈ open_, 0 ≤ row.size ∧ lo * row.size ≤ row.cost ∧ row.cost ≤ hi * row.size) :
    Priced lo hi (applySnapshot open_ closed s) := by
  have hseeded : Priced lo hi (open_.foldl WalletState.seedOpen s) :=
    h.foldl fun s row hrow hs =>
      hs.seedOpen (hopen row hrow).1 (hopen row hrow).2.1 (hopen row hrow).2.2
  have hpruned : ∀ stale : List String, Priced lo hi
      (stale.foldl (fun s tokenId => WalletState.removePosition tokenId s)
        (open_.foldl WalletState.seedOpen s)) :=
    fun stale => hseeded.foldl fun s tokenId _ hs => hs.removePosition tokenId
  exact (hpruned _).foldl fun s row _ hs => hs.seedClosed row

lemma Priced.configureWallet {lo hi : ℚ} (h : Priced lo hi s) (walletAddress : String) :
    Priced lo hi (configureWallet lower walletAddress s) := ⟨h.positions, h.fills⟩

lemma Priced.step {lo hi : ℚ} (h : Priced lo hi s) {event : Event} (hevent : event.Between lo hi) :
    Priced lo hi (step lower upper s event) := by
  cases event with
  | trade now event =>
    cases hparse : parseTrade lower upper s.walletAddress event with
    | none => simpa [WalletState.step, perform, applyTrade, hparse] using h
    | some trade =>
      obtain ⟨-, hprice, hsize, -, hpos, -⟩ := of_parseTrade lower upper hparse
      have hseen : Priced lo hi { s with lastWsEvent := some now } := ⟨h.positions, h.fills⟩
      have hlo : lo ≤ trade.price := by rw [hprice]; exact hevent.1
      have hhi : trade.price ≤ hi := by rw [hprice]; exact hevent.2
      have hquantity : 0 < trade.size := by rw [hsize]; exact hpos
      have hsettled : Priced lo hi (settleTrade trade { s with lastWsEvent := some now }).1 := by
        rcases settleTrade_cases trade { s with lastWsEvent := some now } with
          ⟨-, heq⟩ | ⟨-, -, -, heq⟩ | ⟨-, -, heq⟩
        · simpa only [heq] using hseen.reverseFill trade.tradeId
        · simpa only [heq] using hseen.applyFill hlo hhi hquantity
        · simpa only [heq] using hseen
      have hreach : ∀ fill : WalletFill,
          (fill.reach trade.status event.utcnow).price = fill.price ∧
            (fill.reach trade.status event.utcnow).size = fill.size := fun fill => ⟨rfl, rfl⟩
      have hreached := hsettled.updateFill trade.tradeId hreach
      simp only [WalletState.step, perform, applyTrade, hparse]
      exact ⟨hreached.positions, hreached.fills⟩
  | order now event =>
    cases hparse : parseOrder lower upper s.walletAddress event with
    | none => simpa [WalletState.step, perform, applyOrder, hparse] using h
    | some report =>
      simp only [WalletState.step, perform, applyOrder, hparse]
      exact ⟨h.positions, h.fills⟩
  | seed now walletAddress open_ closed succeeded =>
    have hnoted : Priced lo hi (noteSeed lower now walletAddress succeeded s) :=
      ⟨h.positions, h.fills⟩
    cases succeeded with
    | false => exact hnoted
    | true => exact hnoted.applySnapshot closed hevent
  | wsState now connected => exact ⟨h.positions, h.fills⟩
  | configure walletAddress => exact h.configureWallet lower walletAddress

lemma priced_run {lo hi : ℚ} {events : List Event} (h : ∀ event ∈ events, event.Between lo hi) :
    Priced lo hi (run lower upper events) :=
  Priced.foldl (fun _ event hevent hs => hs.step lower upper (h event hevent)) .init

/-- In every run, no position is ever negative, and the average entry price of a position that is
held lies between any two prices between which all the trades and all the snapshots lie: what is
sold, taken back or reported again never moves it out of the range of what was paid. -/
theorem avgEntryPrice_between {lo hi : ℚ} {events : List Event}
    (h : ∀ event ∈ events, event.Between lo hi) {tokenId : String} {pos : WalletPosition}
    (hpos : (run lower upper events).positions.get? tokenId = some pos) :
    0 ≤ pos.size ∧ (0 < pos.size → lo ≤ pos.avgEntryPrice ∧ pos.avgEntryPrice ≤ hi) ∧
      (pos.size = 0 → pos.costBasisUsd = 0) := by
  obtain ⟨hnonneg, hlo, hhi⟩ := (priced_run lower upper h).positions tokenId pos hpos
  refine ⟨hnonneg, fun hsize => ?_, fun hzero => ?_⟩
  · rw [WalletPosition.avgEntryPrice, if_neg (not_le.2 hsize)]
    exact ⟨(le_div_iff₀ hsize).2 hlo, (div_le_iff₀ hsize).2 hhi⟩
  · rw [hzero, mul_zero] at hlo hhi
    exact le_antisymm hhi hlo

end Events

/-- A purchase, a second one at another price, and a sale of a part. -/
def threeTrades : List Event :=
  [.trade 1 { id := "t1", assetId := "yes", side := "buy", price := 2 / 5, size := 10
              matchedAt := 1, utcnow := 1 },
    .trade 2 { id := "t2", assetId := "yes", side := "BUY", price := 3 / 5, size := 30
               matchedAt := 2, utcnow := 2 },
    .trade 3 { id := "t3", assetId := "yes", side := "SELL", price := 1 / 2, size := 20
               matchedAt := 3, utcnow := 3 }]

theorem avgEntryPrice_between_threeTrades :
    let pos := ((run String.toLower String.toUpper threeTrades).positions.get? "yes").get
      (by decide +kernel)
    0 ≤ pos.size ∧ (0 < pos.size → 2 / 5 ≤ pos.avgEntryPrice ∧ pos.avgEntryPrice ≤ 3 / 5) ∧
      (pos.size = 0 → pos.costBasisUsd = 0) := by
  have hbetween : ∀ event ∈ threeTrades, event.Between (2 / 5) (3 / 5) := by
    simp only [threeTrades, List.mem_cons, List.not_mem_nil, or_false]
    rintro event (rfl | rfl | rfl) <;> norm_num [Event.Between]
  exact avgEntryPrice_between String.toLower String.toUpper hbetween (Option.some_get _).symm

end Evosport.Orchestrator.WalletState
