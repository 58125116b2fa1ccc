/-
The live path of `submit_execution_leg` (`services/trader_orchestrator/order_manager.py`).

A leg passes a row of gates, its size is raised to the minimum of the venue, its prices are bounded,
and `execute_live_order` is called for it: again as often as `retry_limit` allows while the call
ends in an exception, and once more with another token when the venue has no book for the first one.

What other services answer (the live price, the token, the safety registry, the check of the
balance, the spread of the book) is input.  A leg comes from `normalize_position_side`, so that its
side is one of the two.
-/
import Evosport.Execution.LiveOrder
import Evosport.Lib.Fallible

namespace Evosport.Execution

open Lib Backtest

/-! ## Legs -/

/-- `leg["metadata"]`, the entries that `submit_execution_leg` reads; each may be missing. -/
structure LegMetadata where
  maxExecutionPrice : Option ℚ := none
  minExecutionPrice : Option ℚ := none
  allowTakerLimitBuyAboveSignal : Option Bool := none
  aggressiveLimitBuySubmitAsGtc : Option Bool := none
deriving DecidableEq, Repr

/-- A leg, its numbers as `safe_float` reads them and its flags as `_coerce_optional_bool` does. -/
structure Leg where
  legId : String := "leg"
  side : Side := .buy
  /-- `price_policy` is `taker_limit`. -/
  takerLimit : Bool := false
  timeInForce : OrderType := .gtc
  postOnly : Bool := false
  limitPrice : Option ℚ := none
  maxExecutionPrice : Option ℚ := none
  minExecutionPrice : Option ℚ := none
  allowTakerLimitBuyAboveSignal : Option Bool := none
  aggressiveLimitBuySubmitAsGtc : Option Bool := none
  metadata : LegMetadata := {}
  marketId : String := ""
  outcome : String := ""
  marketQuestion : String := ""
  /-- `_clob_metadata_from_leg` -/
  clobMetadata : Option String := none
deriving DecidableEq, Repr

/-- The parameters of the strategy that are read: bounds on prices under their several names, and
two switches. -/
structure StrategyParams where
  maxExecutionPrice : Option ℚ := none
  maxEntryPrice : Option ℚ := none
  minExecutionPrice : Option ℚ := none
  minExitPrice : Option ℚ := none
  minSellPrice : Option ℚ := none
  /-- The flags, where the parameters have one of their aliases. -/
  allowTakerLimitBuyAboveSignal : Option Bool := none
  aggressiveLimitBuySubmitAsGtc : Option Bool := none
deriving DecidableEq, Repr

/-- The limits of the trader that are read: on the slippage, the spread and the spend of a day, the
number of retries, and two switches. -/
structure RiskLimits where
  slippageBps : Option ℚ := none
  maxDailySpendUsd : Option ℚ := none
  maxSpreadBps : Option ℚ := none
  retryLimit : Option ℤ := none
  allowTakerLimitBuyAboveSignal : Bool := false
  aggressiveLimitBuySubmitAsGtc : Bool := false
deriving DecidableEq, Repr

/-- What a leg meets in other services: prices, the spend of the day, the token, and what the gates
outside of the modelled code answer. -/
structure LegContext where
  /-- `_resolve_live_price_for_leg` -/
  livePrice : Option ℚ
  /-- `signal.entry_price` -/
  entryPrice : Option ℚ
  signalId : String
  traderId : String
  /-- The counter of the day, when it can be read. -/
  dailySpend : Option ℚ
  /-- The token of the leg, found in the signal or fetched from the market. -/
  tokenId : Option String
  /-- Why the safety registry refuses a purchase. -/
  safetyRefusal : Option String
  /-- Why the check of the balance refuses a purchase. -/
  buyGateRefusal : Option String
  /-- `_compute_book_spread_bps` -/
  spreadBps : Option ℚ
  /-- The token of the market, fetched again. -/
  fetchedTokenId : Option String
deriving DecidableEq, Repr

/-- A signal for a token, in a world where nothing stops a leg. -/
def plainContext : LegContext where
  livePrice := none
  entryPrice := none
  signalId := "s"
  traderId := "t"
  dailySpend := some 0
  tokenId := some "1"
  safetyRefusal := none
  buyGateRefusal := none
  spreadBps := none
  fetchedTokenId := none

/-- `LegSubmitResult`, with the entries of its payload that are read. -/
structure LegSubmitResult where
  status : LegStatus
  effectivePrice : Option ℚ
  errorMessage : Option String
  submission : Option Submission := none
  reason : Option String := none
  orderId : Option String := none
  clobOrderId : Option String := none
  shares : Option ℚ
  notionalUsd : ℚ
  filledSize : ℚ := 0
deriving DecidableEq, Repr

/-! ## Prices and their bounds -/

/-- `_MIN_EXECUTION_PRICE` -/
def minExecutionPrice : ℚ := 1 / 1000

/-- `_MIN_LIVE_SHARES` -/
def minLiveShares : ℚ := 5

/-- `_resolve_leg_price` -/
def resolveLegPrice (ctx : LegContext) (leg : Leg) : Option ℚ :=
  positive ctx.livePrice <|> positive leg.limitPrice <|> positive ctx.entryPrice

/-- `_valid_execution_bound` -/
def validExecutionBound (value : Option ℚ) : Option ℚ :=
  value.filter fun bound => decide (0 < bound ∧ bound ≤ 1)

/-- `_chase_up_execution_caps` -/
def chaseUpExecutionCaps (leg : Leg) (params : StrategyParams) : List ℚ :=
  [leg.maxExecutionPrice, leg.metadata.maxExecutionPrice, params.maxExecutionPrice,
    params.maxEntryPrice].filterMap validExecutionBound

/-- The floors of a sale, from the leg, its metadata and the parameters. -/
def executionFloors (leg : Leg) (params : StrategyParams) : List ℚ :=
  [leg.minExecutionPrice, leg.metadata.minExecutionPrice, params.minExecutionPrice,
    params.minExitPrice, params.minSellPrice].filterMap validExecutionBound

/-- `_resolve_leg_execution_bool` -/
def resolveLegExecutionBool (legValue metadataValue : Option Bool) (strategyDefault : Bool) : Bool :=
  (legValue <|> metadataValue).getD strategyDefault

/-- `_allow_taker_limit_buy_above_signal`, with what the leg says of it -/
def allowTakerLimitBuyAboveSignal (leg : Leg) (params : StrategyParams) (limits : RiskLimits) : Bool :=
  resolveLegExecutionBool leg.allowTakerLimitBuyAboveSignal
    leg.metadata.allowTakerLimitBuyAboveSignal
    (params.allowTakerLimitBuyAboveSignal.getD limits.allowTakerLimitBuyAboveSignal)

/-- `_aggressive_limit_buy_submit_as_gtc`, with what the leg says of it -/
def aggressiveLimitBuySubmitAsGtc (leg : Leg) (params : StrategyParams) (limits : RiskLimits) : Bool :=
  resolveLegExecutionBool leg.aggressiveLimitBuySubmitAsGtc
    leg.metadata.aggressiveLimitBuySubmitAsGtc
    (params.aggressiveLimitBuySubmitAsGtc.getD limits.aggressiveLimitBuySubmitAsGtc)

/-- `_resolve_execution_price_bounds` -/
def resolveExecutionPriceBounds (leg : Leg) (params : StrategyParams) (fallbackPrice : ℚ)
    (allowAboveSignal : Bool) : Option ℚ × Option ℚ :=
  let fallbackBound :=
    if leg.takerLimit then (validExecutionBound (some fallbackPrice)).toList else []
  match leg.side with
  | .buy =>
    let caps := chaseUpExecutionCaps leg params
    let candidates :=
      if allowAboveSignal ∧ caps ≠ [] then caps else caps ++ fallbackBound
    (candidates.min?, none)
  | .sell => (none, (executionFloors leg params ++ fallbackBound).max?)

/-! ## The gates before the submission -/

/-- `_check_slippage_bps`: the drift and the cap of a leg that drifted too far. -/
def checkSlippageBps (signalPrice : Option ℚ) (intendedPrice : ℚ) (slippageBps : Option ℚ)
    (side : Side) : Option (ℚ × ℚ) :=
  match positive slippageBps, positive signalPrice with
  | some cap, some reference =>
    let adverse := match side with
      | .sell => reference - intendedPrice
      | .buy => intendedPrice - reference
    let drift := max 0 adverse / reference * 10000
    if cap < drift then some (drift, cap) else none
  | _, _ => none

/-- `_check_max_spread_bps`: the spread and the cap of a book that is too wide. -/
def checkMaxSpreadBps (spreadBps maxSpreadBps : Option ℚ) : Option (ℚ × ℚ) :=
  match positive maxSpreadBps, spreadBps with
  | some cap, some spread => if cap < spread then some (spread, cap) else none
  | _, _ => none

/-- The answer of `check_daily_spend_cap`: whether the leg may go on, the spend so far and with the
leg, and whether the counter could not be read. -/
structure DailySpendStatus where
  allowed : Bool := true
  currentSpendUsd : ℚ := 0
  projectedSpendUsd : ℚ := 0
  capUsd : Option ℚ := none
  softFail : Bool := false
deriving DecidableEq, Repr

/-- `check_daily_spend_cap`, with the counter of the day when it can be read -/
def checkDailySpendCap (counter : Option ℚ) (proposedNotionalUsd capUsd : ℚ) : DailySpendStatus :=
  if capUsd ≤ 0 then {}
  else
    let proposed := max 0 proposedNotionalUsd
    match counter with
    | none => { capUsd := some capUsd, softFail := true, projectedSpendUsd := proposed }
    | some current =>
      { capUsd := some capUsd, currentSpendUsd := current, projectedSpendUsd := current + proposed,
        allowed := decide (current + proposed ≤ capUsd) }

/-- A leg that is ready for the venue: its price, its shares, their notional, and the token. -/
structure SizedLeg where
  price : ℚ
  shares : ℚ
  notional : ℚ
  tokenId : String
deriving DecidableEq, Repr

namespace SizedLeg

/-- The notional of a sized leg: its shares at its price. -/
def effectiveNotional (o : SizedLeg) : ℚ := o.shares * o.price

end SizedLeg

/-- The reference price of the slippage gate. -/
def slipReferencePrice (ctx : LegContext) (leg : Leg) : Option ℚ :=
  positive leg.limitPrice <|> ctx.entryPrice

/-- The price of the leg, checked: there is one, it is at most 1, and at least the smallest price
that is allowed. -/
def checkedPrice (ctx : LegContext) (leg : Leg) (notional : ℚ) : Except LegSubmitResult ℚ :=
  match resolveLegPrice ctx leg with
  | none => .error
    { status := .failed, effectivePrice := none
      errorMessage := some "No valid price resolved for execution leg."
      reason := some "missing_price", shares := none, notionalUsd := notional }
  | some price =>
    if 1 < price then .error
      { status := .failed, effectivePrice := some price
        errorMessage := some "Execution price must be <= 1.0 for binary contracts."
        reason := some "invalid_price_range", shares := none, notionalUsd := notional }
    else if price < minExecutionPrice then .error
      { status := .failed, effectivePrice := some price
        errorMessage := some ("Execution price below minimum allowed (" ++
          fixedPoint 4 minExecutionPrice ++ ").")
        reason := some "invalid_price_too_small", shares := none, notionalUsd := notional }
    else .ok price

/-- The slippage gate. -/
def slippageGate (ctx : LegContext) (leg : Leg) (limits : RiskLimits) (price : ℚ) :
    Except LegSubmitResult Unit :=
  match checkSlippageBps (slipReferencePrice ctx leg) price limits.slippageBps leg.side with
  | some (drift, cap) => .error
    { status := .failed, effectivePrice := some price
      errorMessage := some ("Intended price " ++ fixedPoint 4 price ++ " drifted " ++
        fixedPoint 1 drift ++ " bps from leg reference " ++
        fixedPoint 4 ((slipReferencePrice ctx leg).getD 0) ++ " (cap " ++ fixedPoint 1 cap ++ " bps).")
      submission := some .rejected, reason := some "slippage_bps_exceeded", shares := none
      notionalUsd := 0 }
  | none => .ok ()

/-- The gate of the daily spend; without a cap or a trader every leg passes. -/
def dailySpendGate (ctx : LegContext) (limits : RiskLimits) (price notional : ℚ) :
    Except LegSubmitResult Unit :=
  match limits.maxDailySpendUsd with
  | none => .ok ()
  | some cap =>
    let status := checkDailySpendCap ctx.dailySpend notional cap
    if ctx.traderId = "" ∨ status.allowed then .ok ()
    else .error
      { status := .failed, effectivePrice := some price
        errorMessage := some ("Daily spend cap " ++ fixedPoint 2 (status.capUsd.getD 0) ++
          " USD would be exceeded (current " ++ fixedPoint 2 status.currentSpendUsd ++
          ", projected " ++ fixedPoint 2 status.projectedSpendUsd ++ ").")
        submission := some .rejected, reason := some "max_daily_spend_usd_exceeded", shares := none
        notionalUsd := 0 }

/-- The size of the leg, raised to the minimum of the venue, together with its token. -/
def sizedLeg (ctx : LegContext) (price notional : ℚ) : Except LegSubmitResult SizedLeg :=
  let requestedShares := notional / price
  if requestedShares ≤ 0 then .error
    { status := .failed, effectivePrice := some price
      errorMessage := some "Computed leg size is zero."
      reason := some "invalid_size", shares := some requestedShares, notionalUsd := notional }
  else
    let shares := if requestedShares < minLiveShares then minLiveShares else requestedShares
    match ctx.tokenId with
    | none => .error
      { status := .failed, effectivePrice := some price
        errorMessage := some "No executable token_id resolved for execution leg."
        submission := some .rejected, reason := some "missing_token_id", shares := some shares
        notionalUsd := notional }
    | some tokenId => .ok ⟨price, shares, notional, tokenId⟩

/-- The two gates of a purchase: the safety registry and the balance. -/
def buyGates (ctx : LegContext) (leg : Leg) (o : SizedLeg) : Except LegSubmitResult Unit :=
  match leg.side, ctx.safetyRefusal, ctx.buyGateRefusal with
  | .sell, _, _ => .ok ()
  | .buy, some message, _ => .error
    { status := .skipped, effectivePrice := some o.price, errorMessage := some message
      submission := some .skipped, reason := some "execution_safety_floor", shares := some o.shares
      notionalUsd := o.effectiveNotional }
  | .buy, none, some message => .error
    { status := .skipped, effectivePrice := some o.price
      errorMessage := some (if message = "" then "BUY pre-submit gate failed." else message)
      submission := some .skipped, reason := some "buy_pre_submit_gate", shares := some o.shares
      notionalUsd := o.effectiveNotional }
  | .buy, none, none => .ok ()

/-- The gate of the spread. -/
def spreadGate (ctx : LegContext) (limits : RiskLimits) (o : SizedLeg) : Except LegSubmitResult Unit :=
  match checkMaxSpreadBps ctx.spreadBps limits.maxSpreadBps with
  | some (spread, cap) => .error
    { status := .skipped, effectivePrice := some o.price
      errorMessage := some ("Book spread " ++ fixedPoint 1 spread ++ " bps exceeds max_spread_bps " ++
        fixedPoint 1 cap ++ ".")
      submission := some .rejected, reason := some "max_spread_bps_exceeded"
      shares := some o.shares, notionalUsd := 0 }
  | none => .ok ()

/-- The gates of `submit_execution_leg`, in their order. -/
def passGates (ctx : LegContext) (leg : Leg) (limits : RiskLimits) (notionalUsd : ℚ) :
    Except LegSubmitResult SizedLeg := do
  let notional := max 0 notionalUsd
  let price ← checkedPrice ctx leg notional
  slippageGate ctx leg limits price
  dailySpendGate ctx limits price notional
  let o ← sizedLeg ctx price notional
  buyGates ctx leg o
  spreadGate ctx limits o
  pure o

/-! ## The submission -/

/-- The arguments with which a leg calls `execute_live_order`.  The bounds on the price come from
the leg and the strategy, and a buy skips the gate that `execute_live_order` would ask, since it has
been asked already. -/
def liveOrderRequest (ctx : LegContext) (leg : Leg) (params : StrategyParams) (limits : RiskLimits)
    (o : SizedLeg) : LiveOrderRequest :=
  let allowAboveSignal := allowTakerLimitBuyAboveSignal leg params limits
  let bounds := resolveExecutionPriceBounds leg params o.price allowAboveSignal
  { tokenId := o.tokenId
    side := leg.side
    size := o.shares
    fallbackPrice := some o.price
    marketQuestion := leg.marketQuestion
    opportunityId := ctx.signalId
    timeInForce := leg.timeInForce
    postOnly := leg.postOnly
    quoteAggressively := some leg.takerLimit
    enforceFallbackBound := !leg.takerLimit
    maxExecutionPrice := bounds.1
    minExecutionPrice := bounds.2
    allowTakerLimitBuyAboveSignal := allowAboveSignal
    aggressiveLimitBuySubmitAsGtc := aggressiveLimitBuySubmitAsGtc leg params limits
    skipBuyPreSubmitGate := leg.side = .buy
    metadata := leg.clobMetadata }

/-- The retries after an exception, with so many of them left. -/
def retryTransient (env : Surroundings) (req : LiveOrderRequest) :
    ℕ → LiveOrderExecution × Session → LiveOrderExecution × Session
  | 0, out => out
  | left + 1, out =>
    if out.1.status = .failed ∧ out.1.submission = .exception then
      retryTransient env req left (executeLiveOrder env req out.2)
    else out

/-- `retry_limit`, within its bounds. -/
def retryLimit (limits : RiskLimits) : ℕ :=
  (limits.retryLimit.elim 0 fun n => max 0 (min 50 n)).toNat

/-- The error says that the venue has no book for the token. -/
def isMissingOrderbook (out : LiveOrderExecution) : Bool :=
  let text := (out.errorMessage.getD "").toList.map Char.toLower
  out.status == .failed && mentions text "orderbook" && mentions text "does not exist"

/-- The token to try when the venue has no book for the first one. -/
def otherToken (ctx : LegContext) (leg : Leg) (tokenId : String) : Option String :=
  if strip leg.marketId = "" ∨ strip leg.outcome = "" then none
  else ctx.fetchedTokenId.filter fun token => decide (token ≠ "" ∧ token ≠ tokenId)

/-- The request, for the token and with the metadata. -/
def LiveOrderRequest.withToken (req : LiveOrderRequest) (tokenId : String)
    (metadata : Option String) : LiveOrderRequest :=
  { req with tokenId := tokenId, metadata := metadata }

/-- The calls of `execute_live_order` for a leg: with retries for transient errors, and once more
with the other token of the leg when the order book of the first one is missing. -/
def executeLeg (env : Surroundings) (ctx : LegContext) (leg : Leg) (limits : RiskLimits)
    (req : LiveOrderRequest) (s : Session) : LiveOrderExecution × Session :=
  let out := retryTransient env req (retryLimit limits) (executeLiveOrder env req s)
  match if isMissingOrderbook out.1 then otherToken ctx leg req.tokenId else none with
  | none => out
  | some token =>
    let retried := executeLiveOrder env (req.withToken token none) out.2
    if retried.1.status ≠ .failed then retried
    else
      let text := retried.1.errorMessage.getD ""
      ({ retried.1 with errorMessage := some (stripBars (text ++ " | retry_token=" ++ token ++
          " failed: " ++ text)) }, retried.2)

/-- The result of a leg that was submitted. -/
def LiveOrderExecution.legResult (out : LiveOrderExecution) (o : SizedLeg) : LegSubmitResult where
  status := out.status
  effectivePrice := out.effectivePrice
  errorMessage := out.errorMessage
  submission := some out.submission
  orderId := out.orderId
  clobOrderId := (out.clobOrderId.map strip).bind textOrNone
  shares := some o.shares
  notionalUsd := o.effectiveNotional
  filledSize := out.filledSize

/-- `submit_execution_leg` in live mode -/
def submitExecutionLeg (env : Surroundings) (ctx : LegContext) (leg : Leg) (params : StrategyParams)
    (limits : RiskLimits) (notionalUsd : ℚ) : LegSubmitResult × Session :=
  match passGates ctx leg limits notionalUsd with
  | .error refused => (refused, {})
  | .ok o =>
    let out := executeLeg env ctx leg limits (liveOrderRequest ctx leg params limits o) {}
    (out.1.legResult o, out.2)

/-! ## The calls made for a leg -/

/-- What executions of the request, all but the last of them failed, add to the calls of `s`; the
token and the metadata may change from one to the next. -/
def Runs (req : LiveOrderRequest) (s : Session) (out : LiveOrderExecution × Session) : Prop :=
  ∃ calls, out.2.placed = s.placed ++ calls ∧
    (∀ c ∈ calls, ∃ tokenId metadata, (req.withToken tokenId metadata).Makes c.view c) ∧
    Reports out.1.status calls

namespace Runs

variable {req : LiveOrderRequest} {s : Session} {out out' : LiveOrderExecution × Session}

/-- The text of the error does not matter. -/
lemma withError (h : Runs req s out) (message : Option String) :
    Runs req s ({ out.1 with errorMessage := message }, out.2) := h

/-- Another execution, after those before it failed. -/
lemma next (h : Runs req s out) (hfailed : out.1.status = .failed) (h' : Runs req out.2 out') :
    Runs req s out' := by
  obtain ⟨calls, hplaced, hmakes, hreports⟩ := h
  obtain ⟨calls', hplaced', hmakes', hreports'⟩ := h'
  refine ⟨calls ++ calls', by rw [hplaced', hplaced, List.append_assoc], fun c hc => ?_, ?_⟩
  · rcases List.mem_append.1 hc with hc | hc
    · exact hmakes c hc
    · exact hmakes' c hc
  · rw [hfailed] at hreports
    exact hreports'.append hreports.inactive

end Runs

lemma executeLiveOrder_runs (env : Surroundings) (req : LiveOrderRequest) (tokenId : String)
    (metadata : Option String) (s : Session) :
    Runs req s (executeLiveOrder env (req.withToken tokenId metadata) s) := by
  obtain ⟨-, calls, hplaced, hmakes, hreports⟩ :=
    executeLiveOrder_executed env (req.withToken tokenId metadata) s
  refine ⟨calls, hplaced, fun c hc => ⟨tokenId, metadata, ?_⟩, hreports⟩
  obtain ⟨hview, hprice⟩ := hmakes c hc
  rw [hview]
  exact ⟨hview, hprice⟩

lemma executeLiveOrder_runs_self (env : Surroundings) (req : LiveOrderRequest) (s : Session) :
    Runs req s (executeLiveOrder env req s) := by
  have hself : req.withToken req.tokenId req.metadata = req := rfl
  have h := executeLiveOrder_runs env req req.tokenId req.metadata s
  rwa [hself] at h

lemma retryTransient_runs (env : Surroundings) (req : LiveOrderRequest) {s : Session} (left : ℕ)
    {out : LiveOrderExecution × Session} (h : Runs req s out) :
    Runs req s (retryTransient env req left out) := by
  induction left generalizing out with
  | zero => exact h
  | succ left ih =>
    rw [retryTransient]
    split_ifs with hagain
    · exact ih (h.next hagain.1 (executeLiveOrder_runs_self env req out.2))
    · exact h

/-- The calls made for a leg, and what its status says of them. -/
theorem executeLeg_runs (env : Surroundings) (ctx : LegContext) (leg : Leg) (limits : RiskLimits)
    (req : LiveOrderRequest) (s : Session) : Runs req s (executeLeg env ctx leg limits req s) := by
  have hfirst : Runs req s (retryTransient env req (retryLimit limits) (executeLiveOrder env req s)) :=
    retryTransient_runs env req _ (executeLiveOrder_runs_self env req s)
  unfold executeLeg
  dsimp only
  split
  · exact hfirst
  · next token htoken =>
    have hmissing : isMissingOrderbook
        (retryTransient env req (retryLimit limits) (executeLiveOrder env req s)).1 := by
      by_contra hnot
      simp [hnot] at htoken
    have hfailed : (retryTransient env req (retryLimit limits)
        (executeLiveOrder env req s)).1.status = .failed := by
      simp only [isMissingOrderbook, Bool.and_eq_true, beq_iff_eq] at hmissing
      exact hmissing.1.1
    have hretried := hfirst.next hfailed (executeLiveOrder_runs env req token none _)
    split_ifs with hstatus
    · exact hretried
    · exact hretried.withError _

lemma checkedPrice_ok {ctx : LegContext} {leg : Leg} {notional price : ℚ}
    (h : checkedPrice ctx leg notional = .ok price) :
    resolveLegPrice ctx leg = some price ∧ minExecutionPrice ≤ price ∧ price ≤ 1 := by
  unfold checkedPrice at h
  split at h
  · cases h
  · next resolved hresolved =>
    split_ifs at h with hhigh hlow
    cases h
    exact ⟨hresolved, not_lt.1 hlow, not_lt.1 hhigh⟩

lemma sizedLeg_ok {ctx : LegContext} {price notional : ℚ} {o : SizedLeg}
    (h : sizedLeg ctx price notional = .ok o) :
    o.price = price ∧ o.notional = notional ∧ o.shares = max minLiveShares (notional / price) := by
  unfold sizedLeg at h
  dsimp only at h
  split at h
  · cases h
  · split at h
    · cases h
    · cases h
      refine ⟨rfl, rfl, ?_⟩
      dsimp only
      split_ifs with hsmall
      · exact (max_eq_left hsmall.le).symm
      · exact (max_eq_right (not_lt.1 hsmall)).symm

/-- What passed the gates. -/
lemma passGates_ok {ctx : LegContext} {leg : Leg} {limits : RiskLimits} {notionalUsd : ℚ}
    {o : SizedLeg} (h : passGates ctx leg limits notionalUsd = .ok o) :
    resolveLegPrice ctx leg = some o.price ∧ minExecutionPrice ≤ o.price ∧ o.price ≤ 1 ∧
      o.notional = max 0 notionalUsd ∧ o.shares = max minLiveShares (o.notional / o.price) := by
  unfold passGates at h
  obtain ⟨price, hprice, h⟩ := except_bind_eq_ok.1 h
  obtain ⟨-, -, h⟩ := except_bind_eq_ok.1 h
  obtain ⟨-, -, h⟩ := except_bind_eq_ok.1 h
  obtain ⟨o', ho', h⟩ := except_bind_eq_ok.1 h
  obtain ⟨-, -, h⟩ := except_bind_eq_ok.1 h
  obtain ⟨-, -, h⟩ := except_bind_eq_ok.1 h
  cases h
  obtain ⟨rfl, hnotional, hshares⟩ := sizedLeg_ok ho'
  obtain ⟨hresolved, hlow, hhigh⟩ := checkedPrice_ok hprice
  exact ⟨hresolved, hlow, hhigh, hnotional, by rw [hshares, hnotional]⟩

/-- What passed the gates passed the one of the daily spend. -/
lemma passGates_dailySpend {ctx : LegContext} {leg : Leg} {limits : RiskLimits} {notionalUsd : ℚ}
    {o : SizedLeg} (h : passGates ctx leg limits notionalUsd = .ok o) :
    dailySpendGate ctx limits o.price o.notional = .ok () := by
  unfold passGates at h
  obtain ⟨price, -, h⟩ := except_bind_eq_ok.1 h
  obtain ⟨-, -, h⟩ := except_bind_eq_ok.1 h
  obtain ⟨⟨⟩, hspend, h⟩ := except_bind_eq_ok.1 h
  obtain ⟨o', ho', h⟩ := except_bind_eq_ok.1 h
  obtain ⟨-, -, h⟩ := except_bind_eq_ok.1 h
  obtain ⟨-, -, h⟩ := except_bind_eq_ok.1 h
  cases h
  obtain ⟨rfl, hnotional, -⟩ := sizedLeg_ok ho'
  rw [hnotional]
  exact hspend

/-- With a cap, a name and a counter, the gate lets nothing pass that the cap has no room for. -/
lemma dailySpendGate_ok {ctx : LegContext} {limits : RiskLimits} {price notional cap counter : ℚ}
    (hcap : limits.maxDailySpendUsd = some cap) (hpos : 0 < cap) (hname : ctx.traderId ≠ "")
    (hcounter : ctx.dailySpend = some counter)
    (h : dailySpendGate ctx limits price notional = .ok ()) : counter + max 0 notional ≤ cap := by
  rw [dailySpendGate, hcap] at h
  dsimp only at h
  split_ifs at h with hallowed
  have hallowed := hallowed.resolve_left hname
  rw [checkDailySpendCap, if_neg (not_le.2 hpos), hcounter] at hallowed
  exact of_decide_eq_true hallowed

end Evosport.Execution
