/-
The hot state of the trader orchestrator.

For each trader and mode a snapshot holds the active orders with the exposures that follow from
them, and the realized profit and the loss streak of the day.  Orders that are created, resolved or
cancelled change the snapshots in place.  `seed` reads five tables one after the other and builds
new snapshots from them; only then, without another `await`, are the old snapshots merged in and
replaced.

Texts are taken as the code normalizes them (without blanks around them and, where the code says
so, in lower case), amounts are exact, and `OrderPayload` holds what the code extracts from an
order's payload.
-/
import Evosport.Lib.Dict
import Evosport.Lib.StableSort
import Mathlib.Algebra.Order.BigOperators.Group.List
import Mathlib.Algebra.Order.Field.Rat
import Mathlib.Data.Finset.Card
import Mathlib.Data.Prod.Lex
import Mathlib.Data.String.Basic

namespace Evosport.Orchestrator.HotState

open Lib

/-! ## Orders -/

/-- Trader and mode. -/
abbrev Key := String × String

/-- `OPEN_ORDER_STATUSES`, and those that are active in shadow and in live mode. -/
def openOrderStatuses : List String := ["submitted", "executed", "completed", "open"]

/-- `_HOT_UNFILLED_ORDER_STATUSES`. -/
def unfilledOrderStatuses : List String :=
  ["pending", "placing", "submitted", "open", "working", "partial", "hedging", "partially_filled"]

/-- `REALIZED_WIN_ORDER_STATUSES`. -/
def realizedWinStatuses : List String := ["resolved_win", "closed_win", "win"]

/-- `REALIZED_LOSS_ORDER_STATUSES`. -/
def realizedLossStatuses : List String := ["resolved_loss", "closed_loss", "loss"]

/-- `REALIZED_ORDER_STATUSES`. -/
def realizedStatuses : List String := realizedWinStatuses ++ realizedLossStatuses

/-- `_normalize_mode_key`. -/
def normalizeModeKey (mode : String) : String := if mode ∈ ["shadow", "live"] then mode else "other"

/-- `_active_statuses_for_mode`: the three sets have the same elements. -/
def activeStatusesForMode (mode : String) : List String :=
  if normalizeModeKey mode = "shadow" then ["submitted", "executed", "completed", "open"]
  else if normalizeModeKey mode = "live" then ["submitted", "executed", "completed", "open"]
  else openOrderStatuses

/-- `_is_active_order_status`. -/
def isActiveOrderStatus (mode status : String) : Bool :=
  decide (status ∈ activeStatusesForMode mode)

/-- What is read from the payload of an order. -/
structure OrderPayload where
  /-- The results of `_extract_live_fill_metrics`. -/
  filledNotionalUsd : ℚ
  filledShares : ℚ
  averageFillPrice : Option ℚ
  /-- `token_id`, else `selected_token_id`. -/
  tokenId : String
  /-- `source_wallet`, else `copy_source_wallet`. -/
  sourceWallet : String
  /-- `position_close.close_trigger` and `pending_live_exit.close_trigger`. -/
  positionCloseTrigger : String
  pendingExitTrigger : String
  /-- `position_close.price_source`. -/
  priceSource : String
  /-- `position_close.wallet_activity_type`. -/
  walletActivityType : String
deriving DecidableEq

/-- `THESIS_LOSS_CLOSE_TRIGGERS`. -/
def thesisLossCloseTriggers : List String :=
  ["resolution", "resolution_extreme_mark", "resolution_inferred", "wallet_absent_resolution"]

/-- `THESIS_LOSS_WALLET_ACTIVITY_TYPES`. -/
def thesisLossWalletActivityTypes : List String := ["redeem", "redemption", "redeemed"]

/-- `order_loss_counts_for_consecutive_halt`. -/
def lossCounts (status : String) (payload : OrderPayload) : Bool :=
  if status ∈ ["resolved_loss", "loss"] then true
  else if status ≠ "closed_loss" then false
  else
    let trigger := if payload.positionCloseTrigger = "" then payload.pendingExitTrigger
      else payload.positionCloseTrigger
    decide (trigger ∈ thesisLossCloseTriggers) ||
      decide ("resolution".toList <+: trigger.toList) ||
      decide ("resolution".toList <:+: payload.priceSource.toList) ||
      decide ("redeem".toList <:+: payload.priceSource.toList) ||
      decide (payload.walletActivityType ∈ thesisLossWalletActivityTypes)

/-- `_live_active_notional`, without a time of execution. -/
def liveActiveNotional (mode status : String) (rowNotional : ℚ) (payload : OrderPayload) : ℚ :=
  if normalizeModeKey mode ∉ ["live", "shadow"] then |rowNotional|
  else if status ∈ ["executed", "completed"] then
    if 0 < payload.filledNotionalUsd then payload.filledNotionalUsd else |rowNotional|
  else if status ∈ ["open", "submitted"] then
    if 0 < payload.filledNotionalUsd then payload.filledNotionalUsd else 0
  else 0

/-- `_position_cap_scope_key` of the scope `market_direction`. -/
def positionCapScopeKey (mode marketId direction : String) : Option (String × String × String) :=
  if marketId = "" then none
  else some (normalizeModeKey mode, marketId, if direction = "" then "__unknown__" else direction)

/-- `_ActiveLeg`: the position behind an active order, from which its unrealized profit would be
computed. -/
structure ActiveLeg where
  tokenId : String
  entryPrice : ℚ
  quantity : ℚ
  direction : String
  notional : ℚ

/-- `_TrackedOrder`; its notional is never negative. -/
structure TrackedOrder where
  marketId : String
  sourceKey : String
  copyWallet : String
  notional : ℚ
  positionKey : Option (String × String × String)
  isUnfilled : Bool
  leg : Option ActiveLeg
  notional_nonneg : 0 ≤ notional

/-- A leg that can be marked to market. -/
def legOf (tokenId : String) (entryPrice quantity : ℚ) (direction : String) (notional : ℚ) :
    Option ActiveLeg :=
  if tokenId ≠ "" ∧ 0 < entryPrice ∧ 0 < quantity then
    some ⟨tokenId, entryPrice, quantity, direction, notional⟩
  else none

/-! ## Snapshots -/

/-- `_TraderSnapshot`; a date is the number of its day, and the empty date is none. -/
structure Snapshot where
  openPositionKeys : Finset (String × String × String)
  openPositionMarketIds : Finset String
  openOrderKeys : Finset (String × String × String)
  openOrderIds : Finset String
  openOrderCount : ℕ
  occupiedMarketIds : Finset String
  grossNotional : ℚ
  marketNotional : Dict String ℚ
  sourceNotional : Dict String ℚ
  copyLeaderNotional : Dict String ℚ
  dailyRealizedPnl : ℚ
  dailyPnlDate : Option ℤ
  dailyRealizedOrderPnl : Dict String ℚ
  resolvedOrderStatuses : Dict String String
  resolvedOrderThesisLosses : Dict String Bool
  consecutiveLosses : ℕ
  lastLossAt : Option ℤ
  cursorCreatedAt : Option ℤ
  cursorSignalId : Option String
  cursorRuntimeSequence : Option ℤ
  activeOrderLegs : Dict String ActiveLeg
  activeOrders : Dict String TrackedOrder

namespace Snapshot

/-- The snapshot of a trader and a mode of which nothing is known. -/
def empty : Snapshot where
  openPositionKeys := ∅
  openPositionMarketIds := ∅
  openOrderKeys := ∅
  openOrderIds := ∅
  openOrderCount := 0
  occupiedMarketIds := ∅
  grossNotional := 0
  marketNotional := Dict.empty
  sourceNotional := Dict.empty
  copyLeaderNotional := Dict.empty
  dailyRealizedPnl := 0
  dailyPnlDate := none
  dailyRealizedOrderPnl := Dict.empty
  resolvedOrderStatuses := Dict.empty
  resolvedOrderThesisLosses := Dict.empty
  consecutiveLosses := 0
  lastLossAt := none
  cursorCreatedAt := none
  cursorSignalId := none
  cursorRuntimeSequence := none
  activeOrderLegs := Dict.empty
  activeOrders := Dict.empty

/-- Add a notional under a name, unless the name is empty. -/
def addNotional (m : Dict String ℚ) (name : String) (notional : ℚ) : Dict String ℚ :=
  if name = "" then m else m.set name (m.getD name 0 + notional)

/-- The exposure by the names that `name` gives to the orders. -/
def notionalBy (name : TrackedOrder → String) (orders : List (String × TrackedOrder)) :
    Dict String ℚ :=
  orders.foldl (fun m o => if 0 < o.2.notional then addNotional m (name o.2) o.2.notional else m)
    Dict.empty

/-- `_rebuild_snapshot_order_views`: all that is derived from the active orders is computed anew,
the exposures by market, source and leader among it. -/
def rebuild (snap : Snapshot) : Snapshot :=
  let orders := snap.activeOrders.entries
  let unfilled := (orders.filter fun o => o.2.isUnfilled).map Prod.fst
  { snap with
    openOrderKeys := (orders.filterMap fun o => o.2.positionKey).toFinset
    openOrderIds := unfilled.toFinset
    openOrderCount := unfilled.toFinset.card
    occupiedMarketIds := snap.openPositionMarketIds ∪
      ((orders.map fun o => o.2.marketId).filter fun m => decide (m ≠ "")).toFinset
    grossNotional := (orders.map fun o => if 0 < o.2.notional then o.2.notional else 0).sum
    marketNotional := notionalBy TrackedOrder.marketId orders
    sourceNotional := notionalBy TrackedOrder.sourceKey orders
    copyLeaderNotional := notionalBy TrackedOrder.copyWallet orders
    activeOrderLegs := orders.foldl (fun legs o => match o.2.leg with
      | some leg => legs.set o.1 leg
      | none => legs) Dict.empty }

end Snapshot

/-- The module's globals: the snapshots by trader and mode, and by mode the gross exposure, the
profit of the day and its date. -/
structure Globals where
  snapshots : Dict Key Snapshot
  globalGross : Dict String ℚ
  globalDailyPnl : Dict String ℚ
  globalDailyPnlDate : Dict String ℤ

namespace Globals

/-- The globals of a process that has just started. -/
def empty : Globals := ⟨Dict.empty, Dict.empty, Dict.empty, Dict.empty⟩

/-- The snapshot of a trader and a mode, an empty one where there is none. -/
def snapshot (s : Globals) (k : Key) : Snapshot := s.snapshots.getD k Snapshot.empty

/-- The sum over the snapshots of a mode. -/
def sumOfMode (f : Snapshot → ℚ) (snapshots : Dict Key Snapshot) (mode : String) : ℚ :=
  ((snapshots.entries.filter fun e => decide (e.1.2 = mode)).map fun e => f e.2).sum

/-! ## Reads -/

/-- `get_gross_exposure`. -/
def getGrossExposure (s : Globals) (mode : String) : ℚ :=
  s.globalGross.getD (normalizeModeKey mode) 0

/-- `get_trader_gross_exposure`. -/
def getTraderGrossExposure (s : Globals) (traderId mode : String) : ℚ :=
  (s.snapshot (traderId, normalizeModeKey mode)).grossNotional

/-- `get_market_exposure`. -/
def getMarketExposure (s : Globals) (marketId mode : String) : ℚ :=
  sumOfMode (fun snap => snap.marketNotional.getD marketId 0) s.snapshots (normalizeModeKey mode)

/-- `get_trader_source_exposure`. -/
def getTraderSourceExposure (s : Globals) (traderId source mode : String) : ℚ :=
  (s.snapshot (traderId, normalizeModeKey mode)).sourceNotional.getD source 0

/-- `get_copy_leader_exposure`. -/
def getCopyLeaderExposure (s : Globals) (traderId sourceWallet mode : String) : ℚ :=
  (s.snapshot (traderId, normalizeModeKey mode)).copyLeaderNotional.getD sourceWallet 0

/-- `get_daily_realized_pnl`, on the day `today`; of all traders where none is named. -/
def getDailyRealizedPnl (s : Globals) (today : ℤ) (traderId : Option String) (mode : String) : ℚ :=
  let modeKey := normalizeModeKey mode
  match traderId with
  | none =>
    if s.globalDailyPnlDate.get? modeKey = some today then s.globalDailyPnl.getD modeKey 0 else 0
  | some traderId =>
    let snap := s.snapshot (traderId, modeKey)
    if snap.dailyPnlDate = some today then snap.dailyRealizedPnl else 0

/-- `get_consecutive_loss_count`. -/
def getConsecutiveLossCount (s : Globals) (traderId mode : String) : ℕ :=
  (s.snapshot (traderId, normalizeModeKey mode)).consecutiveLosses

/-! ## Mutations -/

/-- `_global_gross[mode] = sum(...)`. -/
def sumGross (s : Globals) (mode : String) : Globals :=
  { s with globalGross :=
      s.globalGross.set mode (sumOfMode Snapshot.grossNotional s.snapshots mode) }

/-- The arguments of `upsert_active_order`. -/
structure Upsert where
  traderId : String
  mode : String
  orderId : String
  status : String
  marketId : String
  direction : String
  source : String
  notionalUsd : ℚ
  entryPrice : ℚ
  tokenId : String
  filledShares : ℚ
  payload : OrderPayload
  copySourceWallet : String

/-- The order that `upsert_active_order` tracks.  Where nothing of the order is live its whole
notional counts, unlike in the seed from the database. -/
def Upsert.tracked (u : Upsert) : TrackedOrder :=
  let modeKey := normalizeModeKey u.mode
  let live := liveActiveNotional modeKey u.status u.notionalUsd u.payload
  let activeNotional := if live ≤ 0 then |u.notionalUsd| else live
  let quantity := if 0 < u.filledShares then u.filledShares
    else if 0 < u.entryPrice then u.notionalUsd / u.entryPrice else 0
  { marketId := u.marketId
    sourceKey := u.source
    copyWallet := if u.copySourceWallet = "" then u.payload.sourceWallet else u.copySourceWallet
    notional := max 0 activeNotional
    positionKey := positionCapScopeKey modeKey u.marketId u.direction
    isUnfilled := decide (u.status ∈ unfilledOrderStatuses)
    leg := legOf u.tokenId u.entryPrice quantity u.direction activeNotional
    notional_nonneg := le_max_left 0 _ }

/-- `upsert_active_order`. -/
def upsertActiveOrder (s : Globals) (u : Upsert) : Globals :=
  let modeKey := normalizeModeKey u.mode
  let key := (u.traderId, modeKey)
  let snap := s.snapshot key
  if u.orderId = "" then { s with snapshots := s.snapshots.set key snap }
  else
    let snap := { snap with activeOrders := snap.activeOrders.set u.orderId u.tracked }
    sumGross { s with snapshots := s.snapshots.set key snap.rebuild } modeKey

/-- The arguments of `record_order_resolved` that are read, and the time of the call.  Times are
microseconds since the epoch. -/
structure Resolved where
  traderId : String
  mode : String
  orderId : String
  status : String
  actualProfit : ℚ
  payload : OrderPayload
  updatedAt : Option ℤ
  now : ℤ

/-- The UTC day of a time. -/
def dayOfTime (t : ℤ) : ℤ := t / 86400000000

/-- The snapshot on a new day. -/
def startDay (today : ℤ) (snap : Snapshot) : Snapshot :=
  if snap.dailyPnlDate = some today then snap
  else
    { snap with
      dailyRealizedPnl := 0
      dailyPnlDate := some today
      dailyRealizedOrderPnl := Dict.empty
      resolvedOrderStatuses := Dict.empty
      resolvedOrderThesisLosses := Dict.empty }

/-- The profit of the order and what it adds to the day. -/
def pnlDelta (snap : Snapshot) (r : Resolved) : ℚ :=
  match snap.dailyRealizedOrderPnl.get? r.orderId with
  | some previous => r.actualProfit - previous
  | none => r.actualProfit

/-- Book the profit of the order. -/
def bookPnl (snap : Snapshot) (r : Resolved) : Snapshot :=
  { snap with
    dailyRealizedPnl := snap.dailyRealizedPnl + pnlDelta snap r
    dailyRealizedOrderPnl := if r.orderId = "" then snap.dailyRealizedOrderPnl
      else snap.dailyRealizedOrderPnl.set r.orderId r.actualProfit }

/-- Book the outcome of the order in the loss streak.  The same outcome again counts once; a loss
lengthens the streak, and a win ends it unless the order had been noted as won before. -/
def bookOutcome (snap : Snapshot) (r : Resolved) : Snapshot :=
  let previousStatus := snap.resolvedOrderStatuses.get? r.orderId
  let previousThesisLoss := snap.resolvedOrderThesisLosses.getD r.orderId false
  let counts := lossCounts r.status r.payload
  let noted := if r.orderId = "" then snap
    else
      { snap with
        resolvedOrderStatuses := snap.resolvedOrderStatuses.set r.orderId r.status
        resolvedOrderThesisLosses := snap.resolvedOrderThesisLosses.set r.orderId counts }
  if previousStatus = some r.status ∧ previousThesisLoss = counts then noted
  else if counts = true ∧ previousThesisLoss = false then
    { noted with consecutiveLosses := noted.consecutiveLosses + 1, lastLossAt := some r.now }
  else if r.status ∈ realizedWinStatuses ∧ ∀ st ∈ previousStatus, st ∉ realizedWinStatuses then
    { noted with consecutiveLosses := 0 }
  else noted

/-- Add to the day's profit of a mode. -/
def addDailyPnl (s : Globals) (mode : String) (today : ℤ) (delta : ℚ) : Globals :=
  let before := if s.globalDailyPnlDate.get? mode = some today then s.globalDailyPnl.getD mode 0
    else 0
  { s with
    globalDailyPnl := s.globalDailyPnl.set mode (before + delta)
    globalDailyPnlDate := s.globalDailyPnlDate.set mode today }

/-- The order is taken out of the active ones. -/
def dropActive (s : Globals) (key : Key) (orderId : String) : Globals :=
  let snap := s.snapshot key
  let snap := { snap with activeOrders := snap.activeOrders.erase orderId }
  sumGross { s with snapshots := s.snapshots.set key snap.rebuild } key.2

/-- `record_order_resolved`: the order is no longer active, and a realized outcome of the current
day is booked in the profits of the day and in the loss streak. -/
def recordOrderResolved (s : Globals) (r : Resolved) : Globals :=
  let modeKey := normalizeModeKey r.mode
  let key := (r.traderId, modeKey)
  let s := s.dropActive key r.orderId
  if r.status ∈ realizedStatuses then
    let today := dayOfTime r.now
    if dayOfTime (r.updatedAt.getD r.now) ≠ today then s
    else
      let snap := startDay today (s.snapshot key)
      let s' := s.addDailyPnl modeKey today (pnlDelta snap r)
      { s' with snapshots := s'.snapshots.set key (bookOutcome (bookPnl snap r) r) }
  else s

/-- `record_order_cancelled`. -/
def recordOrderCancelled (s : Globals) (traderId mode orderId : String) : Globals :=
  let key := (traderId, normalizeModeKey mode)
  match s.snapshots.get? key with
  | none => s
  | some _ => s.dropActive key orderId

/-- `update_signal_cursor`. -/
def updateSignalCursor (s : Globals) (traderId mode : String) (createdAt : Option ℤ)
    (signalId : String) (runtimeSequence : Option ℤ) : Globals :=
  let key := (traderId, normalizeModeKey mode)
  let snap := s.snapshot key
  let snap := { snap with
    cursorCreatedAt := createdAt
    cursorSignalId := if signalId = "" then none else some signalId
    cursorRuntimeSequence := runtimeSequence.or snap.cursorRuntimeSequence }
  { s with snapshots := s.snapshots.set key snap }

end Globals

/-! ## The tables -/

/-- A row of `trader_orders`, without its id; what a seed reads to tell whether the order is active,
what it is worth and what it earned. -/
structure OrderRow where
  traderId : String
  mode : String
  payload : OrderPayload
  status : String
  notionalUsd : ℚ
  marketId : String
  direction : String
  source : String
  effectivePrice : ℚ
  entryPrice : ℚ
  updatedAt : ℤ
  actualProfit : ℚ

/-- Trader and mode of the row. -/
def OrderRow.key (r : OrderRow) : Key := (r.traderId, normalizeModeKey r.mode)

/-- The committed status is active. -/
def OrderRow.active (r : OrderRow) : Bool := isActiveOrderStatus (normalizeModeKey r.mode) r.status

/-- A row of `trader_positions`. -/
structure PositionRow where
  traderId : String
  mode : String
  marketId : String
  direction : String
  status : String

/-- A row of `live_trading_positions`. -/
structure WalletPosition where
  size : ℚ
  averageCost : ℚ
  currentPrice : ℚ

/-- A row of `trader_signal_cursors`. -/
structure CursorRow where
  lastSignalCreatedAt : Option ℤ
  lastSignalId : String
  lastRuntimeSequence : Option ℤ

/-- What is committed: the orders by their ids, the cursors by their traders. -/
structure Database where
  orders : Dict String OrderRow
  positions : List PositionRow
  wallet : List WalletPosition
  cursors : Dict String CursorRow

/-- Nothing is committed. -/
def Database.empty : Database := ⟨Dict.empty, [], [], Dict.empty⟩

/-! ## Seeding -/

/-- The order query: active orders, and those realized today. -/
def orderQuery (todayStart : ℤ) (db : Database) : List (String × OrderRow) :=
  db.orders.entries.filter fun o =>
    decide (o.2.status ∈ openOrderStatuses) ||
      (decide (o.2.status ∈ realizedStatuses) && decide (todayStart ≤ o.2.updatedAt))

/-- The tracked order of a row, as the seed makes it: the price is that of the fill where there is
one, else the effective one, else that of the entry. -/
def OrderRow.tracked (r : OrderRow) : TrackedOrder :=
  let modeKey := normalizeModeKey r.mode
  let activeNotional := liveActiveNotional modeKey r.status r.notionalUsd r.payload
  let entryPrice := match r.payload.averageFillPrice with
    | some price =>
      if 0 < price then price else if r.effectivePrice ≠ 0 then r.effectivePrice else r.entryPrice
    | none => if r.effectivePrice ≠ 0 then r.effectivePrice else r.entryPrice
  let quantity := if modeKey ∈ ["live", "shadow"] ∧ 0 < r.payload.filledShares then
      r.payload.filledShares
    else if 0 < entryPrice then r.notionalUsd / entryPrice else 0
  { marketId := r.marketId
    sourceKey := r.source
    copyWallet := r.payload.sourceWallet
    notional := max 0 activeNotional
    positionKey := positionCapScopeKey modeKey r.marketId r.direction
    isUnfilled := decide (r.status ∈ unfilledOrderStatuses)
    leg := legOf r.payload.tokenId entryPrice quantity r.direction activeNotional
    notional_nonneg := le_max_left 0 _ }

/-- The active order of a row in its snapshot. -/
def seedActive (id : String) (r : OrderRow) (snap : Snapshot) : Snapshot :=
  if r.active ∧ id ≠ "" then { snap with activeOrders := snap.activeOrders.set id r.tracked }
  else snap

/-- The realized profit of a row in its snapshot. -/
def seedRealized (today todayStart : ℤ) (id : String) (r : OrderRow) (snap : Snapshot) : Snapshot :=
  if r.status ∈ realizedStatuses ∧ todayStart ≤ r.updatedAt then
    { snap with
      dailyRealizedPnl := snap.dailyRealizedPnl + r.actualProfit
      dailyPnlDate := some today
      dailyRealizedOrderPnl := if id = "" then snap.dailyRealizedOrderPnl
        else snap.dailyRealizedOrderPnl.set id r.actualProfit
      resolvedOrderStatuses := if id = "" then snap.resolvedOrderStatuses
        else snap.resolvedOrderStatuses.set id r.status }
  else snap

/-- One row of the order query. -/
def seedOrder (today todayStart : ℤ) (shadow : Dict Key Snapshot) (o : String × OrderRow) :
    Dict Key Snapshot :=
  let snap := shadow.getD o.2.key Snapshot.empty
  shadow.set o.2.key (seedRealized today todayStart o.1 o.2 (seedActive o.1 o.2 snap))

/-- One row of the position query. -/
def seedPosition (shadow : Dict Key Snapshot) (p : PositionRow) : Dict Key Snapshot :=
  let key := (p.traderId, normalizeModeKey p.mode)
  let snap := shadow.getD key Snapshot.empty
  let keys := match positionCapScopeKey p.mode p.marketId p.direction with
    | some k => insert k snap.openPositionKeys
    | none => snap.openPositionKeys
  let markets := if p.marketId = "" then snap.openPositionMarketIds
    else insert p.marketId snap.openPositionMarketIds
  shadow.set key { snap with openPositionKeys := keys, openPositionMarketIds := markets }

/-- The gross value of the wallet's live positions. -/
def walletLiveGross (db : Database) : ℚ :=
  ((db.wallet.filter fun p => decide (0 < p.size)).map fun p =>
    let price := if 0 < p.averageCost then p.averageCost else p.currentPrice
    if 0 < price then p.size * price else 0).sum

/-- Newest first, by the time of the update and the id. -/
def newestFirst (orders : List (String × OrderRow)) : List (String × OrderRow) :=
  (sortByKey (fun o => toLex (o.2.updatedAt, o.1)) orders).reverse

/-- The rank query: the newest hundred realized orders of each of the traders. -/
def rankedRealized (traderIds : List String) (db : Database) : List (String × OrderRow) :=
  (sortByKey id traderIds.dedup).flatMap fun t =>
    (newestFirst (db.orders.entries.filter fun o =>
      decide (o.2.traderId = t) && decide (o.2.status ∈ realizedStatuses))).take 100

/-- The loop over the ranked orders: the trader it is at, the losses counted so far, the time of the
last one, and whether a win was met. -/
structure LossScan where
  byTrader : Dict String (ℕ × Option ℤ)
  current : Option String
  losses : ℕ
  lastLoss : Option ℤ
  locked : Bool

namespace LossScan

/-- Before the first ranked order. -/
def start : LossScan := ⟨Dict.empty, none, 0, none, false⟩

/-- The losses of the trader that the loop is at are noted. -/
def flush (scan : LossScan) : Dict String (ℕ × Option ℤ) :=
  match scan.current with
  | some t => scan.byTrader.set t (scan.losses, scan.lastLoss)
  | none => scan.byTrader

/-- One ranked order: losses of a trader are counted from the newest on, and its first win ends the
count. -/
def visit (scan : LossScan) (o : String × OrderRow) : LossScan :=
  if o.2.traderId = "" then scan
  else
    let scan := if scan.current = some o.2.traderId then scan
      else ⟨scan.flush, some o.2.traderId, 0, none, false⟩
    if scan.locked then scan
    else if lossCounts o.2.status o.2.payload then
      { scan with
        losses := scan.losses + 1
        lastLoss := scan.lastLoss.or (some o.2.updatedAt) }
    else if o.2.status ∈ realizedWinStatuses then { scan with locked := true }
    else scan

end LossScan

/-- The losses and the time of the last one, by trader. -/
def lossesByTrader (ranked : List (String × OrderRow)) : Dict String (ℕ × Option ℤ) :=
  (ranked.foldl LossScan.visit LossScan.start).flush

/-- What the queries of a seed read: each table as it was committed when its query ran. -/
structure Reads where
  orders : Database
  positions : Database
  wallet : Database
  losses : Database
  cursors : Database

/-- The snapshots that a seed builds, before the old ones are merged in. -/
def shadowSnapshots (today todayStart : ℤ) (reads : Reads) : Dict Key Snapshot :=
  let shadow := (orderQuery todayStart reads.orders).foldl (seedOrder today todayStart) Dict.empty
  let shadow := (reads.positions.positions.filter fun p => decide (p.status = "open")).foldl
    seedPosition shadow
  let shadow := shadow.mapVal fun _ snap => snap.rebuild
  let losses := lossesByTrader (rankedRealized (shadow.keys.map Prod.fst) reads.losses)
  let shadow := shadow.mapVal fun k snap =>
    let (count, last) := losses.getD k.1 (0, none)
    { snap with consecutiveLosses := count, lastLossAt := last }
  shadow.mapVal fun k snap =>
    match reads.cursors.cursors.get? k.1 with
    | none => snap
    | some c =>
      { snap with
        cursorCreatedAt := c.lastSignalCreatedAt
        cursorSignalId := if c.lastSignalId = "" then none else some c.lastSignalId
        cursorRuntimeSequence := c.lastRuntimeSequence }

/-- Entries of the old map under keys that the new one lacks. -/
def setDefaults {ν : Type} (m old : Dict String ν) : Dict String ν :=
  old.entries.foldl (fun m e => if m.contains e.1 then m else m.set e.1 e.2) m

/-- The realized profits that only the old snapshot knows. -/
def mergePnl (old snap : Snapshot) : Snapshot :=
  old.dailyRealizedOrderPnl.entries.foldl (fun snap e =>
    if snap.dailyRealizedOrderPnl.contains e.1 then snap
    else
      { snap with
        dailyRealizedOrderPnl := snap.dailyRealizedOrderPnl.set e.1 e.2
        dailyRealizedPnl := snap.dailyRealizedPnl + e.2 }) snap

/-- The shadow snapshot with what the old one has beyond it: its active orders, and the profits and
outcomes of the day where the old one is of today. -/
def mergeSnapshot (today : ℤ) (old snap : Snapshot) : Snapshot :=
  let snap := { snap with activeOrders := setDefaults snap.activeOrders old.activeOrders }
  let snap := if old.dailyPnlDate = some today then
      let snap := if snap.dailyPnlDate = some today then snap
        else
          { snap with
            dailyPnlDate := some today
            dailyRealizedPnl := 0
            dailyRealizedOrderPnl := Dict.empty }
      let snap := mergePnl old snap
      { snap with
        resolvedOrderStatuses := setDefaults snap.resolvedOrderStatuses old.resolvedOrderStatuses }
    else snap
  snap.rebuild

/-- An old snapshot whose trader and mode the queries did not meet. -/
def preserved (old : Snapshot) : Snapshot :=
  { Snapshot.empty with
    dailyRealizedPnl := old.dailyRealizedPnl
    dailyPnlDate := old.dailyPnlDate
    dailyRealizedOrderPnl := old.dailyRealizedOrderPnl
    resolvedOrderStatuses := old.resolvedOrderStatuses
    consecutiveLosses := old.consecutiveLosses
    lastLossAt := old.lastLossAt
    cursorCreatedAt := old.cursorCreatedAt
    cursorSignalId := old.cursorSignalId
    cursorRuntimeSequence := old.cursorRuntimeSequence
    activeOrders := old.activeOrders }.rebuild

/-- Merge one old snapshot into the shadow. -/
def mergeOld (today : ℤ) (shadow : Dict Key Snapshot) (e : Key × Snapshot) : Dict Key Snapshot :=
  match shadow.get? e.1 with
  | some snap => shadow.set e.1 (mergeSnapshot today e.2 snap)
  | none =>
    if e.2.activeOrders.entries ≠ [] ∨
        (e.2.dailyPnlDate = some today ∧ e.2.dailyRealizedOrderPnl.entries ≠ []) then
      shadow.set e.1 (preserved e.2)
    else shadow

/-- The gross exposure of each mode.  The larger wallet value, which the seed works out for the
live mode before the merge, is not part of it. -/
def grossByMode (snapshots : Dict Key Snapshot) : Dict String ℚ :=
  snapshots.entries.foldl (fun m e =>
    if 0 < e.2.grossNotional then m.set e.1.2 (m.getD e.1.2 0 + e.2.grossNotional) else m)
    Dict.empty

/-- The realized profit of each mode today. -/
def pnlByMode (today : ℤ) (snapshots : Dict Key Snapshot) : Dict String ℚ :=
  snapshots.entries.foldl (fun m e =>
    if e.2.dailyPnlDate = some today then m.set e.1.2 (m.getD e.1.2 0 + e.2.dailyRealizedPnl)
    else m) Dict.empty

/-- The modes with a snapshot of today. -/
def pnlDateByMode (today : ℤ) (snapshots : Dict Key Snapshot) : Dict String ℤ :=
  snapshots.entries.foldl (fun m e =>
    if e.2.dailyPnlDate = some today then m.set e.1.2 today else m) Dict.empty

/-- The end of `_seed_from_db`, which runs without an `await`: merge and swap. -/
def seedFromDb (today todayStart : ℤ) (reads : Reads) (old : Globals) : Globals :=
  let snapshots := old.snapshots.entries.foldl (mergeOld today)
    (shadowSnapshots today todayStart reads)
  { snapshots := snapshots
    globalGross := grossByMode snapshots
    globalDailyPnl := pnlByMode today snapshots
    globalDailyPnlDate := pnlDateByMode today snapshots }

/-! ## The process among the others -/

/-- A seed under way: the day on which it began, what its queries have read, and whether no order
was changed since. -/
structure Seeding where
  today : ℤ
  todayStart : ℤ
  reads : List Database
  quiet : Bool

/-- The database, the globals, and the seed under way; a lock lets one seed run at a time. -/
structure World where
  db : Database
  hot : Globals
  seeding : Option Seeding

/-- What may happen between two awaits: this process or another one commits an order or another
table, this process calls a mutation, and a seed begins, runs its next query, or ends. -/
inductive Action where
  | commitOrder (orderId : String) (row : OrderRow)
  | commitTables (positions : List PositionRow) (wallet : List WalletPosition)
      (cursors : Dict String CursorRow)
  | upsert (u : Globals.Upsert)
  | resolved (r : Globals.Resolved)
  | cancelled (traderId mode orderId : String)
  | cursor (traderId mode : String) (createdAt : Option ℤ) (signalId : String)
      (runtimeSequence : Option ℤ)
  | beginSeed (now : ℤ)
  | query
  | endSeed

/-- What the queries of a seed have read, once all of them have. -/
def Seeding.done (seeding : Seeding) : Option Reads :=
  match seeding.reads with
  | [orders, positions, wallet, losses, cursors] => some ⟨orders, positions, wallet, losses, cursors⟩
  | _ => none

namespace World

/-- An order is changed while a seed may be under way. -/
def disturb (s : World) : World :=
  { s with seeding := s.seeding.map fun seeding => { seeding with quiet := false } }

/-- One action.  A commit and a mutation of an order disturb the seed that is under way; a seed
reads one table after the other and ends once it has read them all. -/
def step (s : World) : Action → World
  | .commitOrder orderId row =>
    { s with db := { s.db with orders := s.db.orders.set orderId row } }.disturb
  | .commitTables positions wallet cursors =>
    { s with db := { s.db with positions := positions, wallet := wallet, cursors := cursors } }
  | .upsert u => { s with hot := s.hot.upsertActiveOrder u }.disturb
  | .resolved r => { s with hot := s.hot.recordOrderResolved r }.disturb
  | .cancelled traderId mode orderId =>
    { s with hot := s.hot.recordOrderCancelled traderId mode orderId }.disturb
  | .cursor traderId mode createdAt signalId runtimeSequence =>
    { s with hot := s.hot.updateSignalCursor traderId mode createdAt signalId runtimeSequence }
  | .beginSeed now =>
    match s.seeding with
    | some _ => s
    | none =>
      let today := Globals.dayOfTime now
      { s with seeding := some ⟨today, today * 86400000000, [], true⟩ }
  | .query =>
    { s with seeding := s.seeding.map fun seeding =>
        if seeding.reads.length < 5 then { seeding with reads := seeding.reads ++ [s.db] }
        else seeding }
  | .endSeed =>
    match s.seeding with
    | none => s
    | some seeding =>
      match seeding.done with
      | none => s
      | some reads =>
        { s with
          hot := seedFromDb seeding.today seeding.todayStart reads s.hot
          seeding := none }

end World

end Evosport.Orchestrator.HotState
