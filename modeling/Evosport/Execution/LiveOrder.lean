/-
Live orders (`services/live_execution_adapter.py`).

`execute_live_order` resolves a price from its request and from the quotes, and calls `place_order`
at most twice: once at the price it resolved and, for a post-only order that the venue turns down
because it would cross the book, once more a tick further away.  Quotes, the state of the service
and what becomes of a call of `place_order` are input.
-/
import Evosport.Backtest.Book
import Evosport.Lib.Text
import Mathlib.Data.List.Infix
import Mathlib.Data.Option.Basic

namespace Evosport.Execution

open Lib Backtest

/-! ## The service for live orders -/

/-- `OrderType` -/
inductive OrderType where
  | gtc
  | fok
  | gtd
  | fak
  | ioc
deriving DecidableEq, Repr

/-- `OrderStatus` -/
inductive OrderStatus where
  | pending
  | opened
  | filled
  | partiallyFilled
  | cancelled
  | expired
  | failed
deriving DecidableEq, Repr

/-- An order as `place_order` returns it: its two ids, its status, and what was filled at which
average price. -/
structure Order where
  id : String
  clobOrderId : String
  status : OrderStatus
  errorMessage : Option String
  filledSize : ℚ
  averageFillPrice : Option ℚ
deriving DecidableEq, Repr

/-- The arguments of `place_order`, each as `execute_live_order` passes it. -/
structure PlaceOrder where
  tokenId : String
  side : Side
  price : ℚ
  size : ℚ
  orderType : OrderType
  postOnly : Bool
  minOrderSizeUsd : ℚ
  marketQuestion : String
  opportunityId : String
  skipBuyPreSubmitGate : Bool
  metadata : Option String
deriving DecidableEq, Repr

/-- The statuses of the orchestrator. -/
inductive LegStatus where
  | executed
  | opened
  | submitted
  | failed
  | skipped
deriving DecidableEq, Repr

/-- `_map_trading_status` -/
def mapTradingStatus : OrderStatus → LegStatus
  | .filled => .executed
  | .opened => .opened
  | .partiallyFilled => .opened
  | .pending => .submitted
  | .cancelled => .failed
  | .expired => .failed
  | .failed => .failed

/-- What becomes of a call of `place_order` for an order of the given size: what the caller gets
back, and what the venue keeps of it.  A call keeps `some f` when the venue holds the order or has
filled it, `f` shares of it so far.  This is the state in the end, after whatever the caller asks
the venue to cancel: a cancellation that the venue obeys before anything is filled shows as an
order that is not kept. -/
structure Reply (size : ℚ) where
  answer : Except String Order
  kept : Option ℚ
  /-- An order that is returned with an active status is one the venue took. -/
  kept_of_active : ∀ order, answer = .ok order → mapTradingStatus order.status ≠ .failed →
    kept.isSome
  /-- The venue fills no more than it was asked for. -/
  kept_bounds : ∀ f, kept = some f → 0 ≤ f ∧ f ≤ max 0 size

namespace Reply

variable {size : ℚ}

/-- The venue takes the order and fills nothing of it yet. -/
def accepted (order : Order) : Reply size where
  answer := .ok order
  kept := some 0
  kept_of_active := fun _ _ _ => rfl
  kept_bounds := fun f hf => by cases hf; simp

/-- The venue turns the order down. -/
def rejected (order : Order) (h : mapTradingStatus order.status = .failed) : Reply size where
  answer := .ok order
  kept := none
  kept_of_active := fun order' horder hactive => by cases horder; exact absurd h hactive
  kept_bounds := fun f hf => by cases hf

/-- The call raises after the venue took the order. -/
def raisedAfter (message : String) : Reply size where
  answer := .error message
  kept := some 0
  kept_of_active := fun order horder => by cases horder
  kept_bounds := fun f hf => by cases hf; simp

/-- The call raises before the venue took the order. -/
def raisedBefore (message : String) : Reply size where
  answer := .error message
  kept := none
  kept_of_active := fun order horder => by cases horder
  kept_bounds := fun f hf => by cases hf

end Reply

/-! ## Texts of errors -/

/-- `str(error_message or "").strip().lower()`; the markers looked for are ASCII. -/
def errorText (message : Option String) : List Char :=
  (strip (message.getD "")).toList.map Char.toLower

/-- Whether a text contains a marker. -/
def mentions (text : List Char) (marker : String) : Bool := decide (marker.toList <:+: text)

/-- `_is_post_only_cross_reject` -/
def isPostOnlyCrossReject (message : Option String) : Bool :=
  let text := errorText message
  mentions text "post-only" && mentions text "crosses book"

/-- `_AUTH_FAILURE_MARKERS` -/
def authFailureMarkers : List String :=
  ["invalid username/password", "unauthorized", "forbidden", "invalid api key",
    "invalid api secret", "invalid api credentials", "invalid credentials"]

/-- `is_auth_failure_message` -/
def isAuthFailureMessage (message : String) : Bool :=
  authFailureMarkers.any (mentions (errorText (some message)))

/-! ## Prices -/

/-- `_POST_ONLY_REPRICE_TICK` -/
def postOnlyRepriceTick : ℚ := 1 / 100

/-- `_clamp_binary_price` -/
def clampBinaryPrice (value : ℚ) : ℚ := max postOnlyRepriceTick (min (99 / 100) value)

/-- The number, when it is there and positive. -/
def positive (x : Option ℚ) : Option ℚ := x.filter fun q => decide (0 < q)

/-- The better of two prices for an order of the side. -/
def tighter : Side → ℚ → ℚ → ℚ
  | .buy => min
  | .sell => max

/-- The price within the bound, if there is one. -/
def boundedBy (side : Side) (bound : Option ℚ) (price : ℚ) : ℚ :=
  match bound with
  | some b => tighter side price b
  | none => price

/-- A book of the cache that is still fresh. -/
structure CachedBook where
  bidAsk : Option (ℚ × ℚ)
  midPrice : Option ℚ
deriving DecidableEq, Repr

/-- What a call of `execute_live_order` meets outside: the circuit breaker with its reason, whether
the service is initialized, the fresh book of the cache if there is one, and the quotes of the two
sides. -/
structure MarketView where
  authCircuit : Option String
  initialized : Bool
  cache : Option CachedBook
  quoteBuy : Option ℚ
  quoteSell : Option ℚ
deriving DecidableEq, Repr

/-- The arguments of `execute_live_order`: the order itself, its bounds, and the switches that say
where its price comes from. -/
structure LiveOrderRequest where
  tokenId : String
  side : Side
  size : ℚ
  fallbackPrice : Option ℚ
  minOrderSizeUsd : Option ℚ := none
  marketQuestion : String := ""
  opportunityId : String := ""
  timeInForce : OrderType := .gtc
  postOnly : Bool := false
  resolveLivePrice : Bool := true
  preferCachedPrice : Bool := true
  quoteAggressively : Option Bool := none
  enforceFallbackBound : Bool := false
  maxExecutionPrice : Option ℚ := none
  minExecutionPrice : Option ℚ := none
  allowTakerLimitBuyAboveSignal : Bool := false
  aggressiveLimitBuySubmitAsGtc : Bool := false
  skipBuyPreSubmitGate : Bool := false
  metadata : Option String := none
deriving DecidableEq, Repr

/-- `StrategySDK.resolve_min_order_size_usd` with the fallback 1 -/
def resolveMinOrderSizeUsd (minOrderSizeUsd : Option ℚ) : ℚ :=
  max (1 / 100) (min 10000000 (minOrderSizeUsd.getD 1))

namespace LiveOrderRequest

variable (req : LiveOrderRequest)

/-- The smallest order in dollars, as the request or the settings have it. -/
def minOrderSize : ℚ := resolveMinOrderSizeUsd req.minOrderSizeUsd

/-- The size that is asked for; a negative one counts as none. -/
def requestedSize : ℚ := max 0 req.size

/-- The bound of the side of the order. -/
def bound : Option ℚ :=
  match req.side with
  | .buy => positive req.maxExecutionPrice
  | .sell => positive req.minExecutionPrice

/-- The fallback price, which is the bound itself when there is no other. -/
def fallback : Option ℚ :=
  match req.bound with
  | none => req.fallbackPrice
  | some b => some ((positive req.fallbackPrice).elim b fun price => tighter req.side price b)

/-- Whether the order is quoted at the touch.  Where the request leaves it open, it is, unless the
order is bounded by its fallback or has to rest. -/
def aggressiveQuote : Bool :=
  req.quoteAggressively.getD (!req.enforceFallbackBound && !req.postOnly)

/-- The quote of the cache: the other side's best price for a taker, the mid price otherwise, as
long as an order at it is large enough. -/
def cachedQuote (view : MarketView) : Option ℚ :=
  if req.preferCachedPrice then
    match view.cache with
    | none => none
    | some book =>
      let cached :=
        if req.aggressiveQuote && !req.postOnly then
          match req.side with
          | .buy => book.bidAsk.map Prod.snd
          | .sell => book.bidAsk.map Prod.fst
        else book.midPrice
      (positive cached).filter fun q =>
        decide (req.minOrderSize ≤ q * req.requestedSize + e9)
  else none

/-- The quote that is fetched. -/
def fetchedQuote (view : MarketView) : Option ℚ :=
  let buy := positive view.quoteBuy
  let sell := positive view.quoteSell
  if req.postOnly then
    match req.side with
    | .buy => buy <|> sell.map fun q => clampBinaryPrice (q - postOnlyRepriceTick)
    | .sell => sell <|> buy.map fun q => clampBinaryPrice (q + postOnlyRepriceTick)
  else
    match req.side with
    | .buy => Option.merge max buy sell
    | .sell => Option.merge min buy sell

/-- A taker's purchase that may pay more than the signal did. -/
def skipsFallbackBound : Bool :=
  req.side == .buy && req.allowTakerLimitBuyAboveSignal && req.aggressiveQuote && !req.postOnly

/-- The quote within the bound of the side and, where that applies, the fallback price. -/
def boundedQuote (quote : ℚ) : ℚ :=
  let bounded := boundedBy req.side req.bound quote
  if (req.postOnly || req.enforceFallbackBound) && !req.skipsFallbackBound then
    match positive req.fallback with
    | some f => clampBinaryPrice (tighter req.side bounded f)
    | none => bounded
  else bounded

/-- The price of the order before the last clamp: the bounded quote, or the fallback price where no
quote is to be had and where only the fallback price makes the order large enough. -/
def resolvedPrice (view : MarketView) : Option ℚ :=
  if req.resolveLivePrice then
    match positive (req.cachedQuote view <|> req.fetchedQuote view) with
    | none => req.fallback
    | some quote =>
      let live := req.boundedQuote quote
      match positive req.fallback with
      | some f =>
        if live * req.requestedSize + e9 < req.minOrderSize ∧
            req.minOrderSize ≤ f * req.requestedSize + e9 then some f
        else some live
      | none => some live
  else req.fallback

/-- The last clamp, which leaves a price alone that it would move by less than `1e-9`. -/
def submittedPrice (resolved : ℚ) : ℚ :=
  if e9 ≤ |clampBinaryPrice resolved - resolved| then clampBinaryPrice resolved else resolved

/-- The price of the second try of a post-only order. -/
def repricedOneTick (price : ℚ) : ℚ :=
  match req.side with
  | .buy => clampBinaryPrice (price - postOnlyRepriceTick)
  | .sell => clampBinaryPrice (price + postOnlyRepriceTick)

/-- The order type that goes to the venue: an aggressive purchase may be turned from an immediate
order into one that rests. -/
def submittedOrderType : OrderType :=
  if req.side = .buy ∧ req.aggressiveQuote ∧ req.aggressiveLimitBuySubmitAsGtc ∧ !req.postOnly ∧
      req.timeInForce ∈ [OrderType.ioc, .fak, .fok] then .gtc
  else req.timeInForce

/-- The call of `place_order` at the price; everything else is taken over from the request. -/
def placeOrderAt (price : ℚ) : PlaceOrder where
  tokenId := strip req.tokenId
  side := req.side
  price := price
  size := req.requestedSize
  orderType := req.submittedOrderType
  postOnly := req.postOnly
  minOrderSizeUsd := req.minOrderSize
  marketQuestion := req.marketQuestion
  opportunityId := req.opportunityId
  skipBuyPreSubmitGate := req.skipBuyPreSubmitGate
  metadata := req.metadata

end LiveOrderRequest

/-! ## The calls of `place_order` -/

/-- A call of `place_order` that was made: what its caller saw of the market, and what became of
it. -/
structure Placed where
  view : MarketView
  call : PlaceOrder
  reply : Reply call.size

/-- The call came back with an order of an active status. -/
def Placed.Active (c : Placed) : Prop :=
  match c.reply.answer with
  | .ok order => mapTradingStatus order.status ≠ .failed
  | .error _ => False

instance (c : Placed) : Decidable c.Active := by
  unfold Placed.Active
  split <;> infer_instance

/-- What the calls of `execute_live_order` have done: the calls of `place_order` in their order, the
orders they asked the venue to cancel, and how often `execute_live_order` itself was called.  A
request to cancel is only noted here; what it achieves is part of what the venue keeps of the
order. -/
structure Session where
  placed : List Placed := []
  cancelled : List String := []
  attempts : ℕ := 0

/-- The world outside: what each call of `execute_live_order` sees of the market, and what becomes
of each call of `place_order`, given the calls before it. -/
structure Surroundings where
  view : ℕ → MarketView
  venue : List Placed → (call : PlaceOrder) → Reply call.size

/-- `place_order` -/
def Surroundings.place (env : Surroundings) (view : MarketView) (call : PlaceOrder) (s : Session) :
    Except String Order × Session :=
  let reply := env.venue s.placed call
  (reply.answer, { s with placed := s.placed ++ [⟨view, call, reply⟩] })

/-! ## `execute_live_order` -/

/-- How an order was submitted, as the payload of the result names it. -/
inductive Submission where
  | rejected
  | authUnavailable
  | notReady
  | exception
  | live
  | skipped
deriving DecidableEq, Repr

/-- `LiveOrderExecution`, with the entries of its payload that are read. -/
structure LiveOrderExecution where
  status : LegStatus
  effectivePrice : Option ℚ
  errorMessage : Option String
  submission : Submission
  orderId : Option String := none
  clobOrderId : Option String := none
  filledSize : ℚ := 0
deriving DecidableEq, Repr

/-- A number that is not negative, with so many decimals. -/
def fixedPoint (decimals : ℕ) (x : ℚ) : String :=
  let n := (roundHalfEven (x * 10 ^ decimals)).toNat
  let digits := toString (n % 10 ^ decimals)
  toString (n / 10 ^ decimals) ++ "." ++
    String.ofList (List.replicate (decimals - digits.length) '0') ++ digits

/-- `text.strip(" |")` -/
def stripBars (text : String) : String :=
  let isBar := fun c : Char => c == ' ' || c == '|'
  String.ofList ((text.toList.dropWhile isBar).reverse.dropWhile isBar).reverse

/-- `str(x or "") or None` -/
def textOrNone (s : String) : Option String := if s = "" then none else some s

namespace LiveOrderRequest

variable (req : LiveOrderRequest)

/-- What `execute_live_order` refuses before it looks for a price. -/
def refusal (view : MarketView) : Option LiveOrderExecution :=
  if strip req.tokenId = "" then
    some ⟨.failed, none, some "Missing token_id for live order.", .rejected, none, none, 0⟩
  else if req.requestedSize ≤ 0 then
    some ⟨.failed, none, some "Order size must be greater than zero.", .rejected, none, none, 0⟩
  else match view.authCircuit with
    | some reason => some ⟨.failed, none, some reason, .authUnavailable, none, none, 0⟩
    | none =>
      if view.initialized then none
      else some ⟨.failed, none, some "Trading service is not initialized.", .notReady, none, none, 0⟩

/-- What the caller gets for the order. -/
def report (order : Order) (price : ℚ) : LiveOrderExecution where
  status := mapTradingStatus order.status
  effectivePrice := some ((positive order.averageFillPrice).getD price)
  errorMessage := if mapTradingStatus order.status = .failed then order.errorMessage else none
  submission := .live
  orderId := textOrNone order.id
  clobOrderId := textOrNone order.clobOrderId
  filledSize := order.filledSize

/-- What the caller gets for an exception of `place_order`. -/
def raised (message : String) (price : ℚ) : LiveOrderExecution where
  status := .failed
  effectivePrice := some price
  errorMessage := some message
  submission := if isAuthFailureMessage message then .authUnavailable else .exception

/-- The second try of a post-only order, one tick away.  The first order is cancelled before, and it
is the one that is reported when the second try fails too. -/
def retryPostOnly (env : Surroundings) (view : MarketView) (order : Order) (price : ℚ)
    (s : Session) : LiveOrderExecution × Session :=
  let retryPrice := req.repricedOneTick price
  let cancelled := (textOrNone (strip order.clobOrderId)).toList
  let (answer, s) := env.place view (req.placeOrderAt retryPrice)
    { s with cancelled := s.cancelled ++ cancelled }
  match answer with
  | .error message => (raised message price, s)
  | .ok retryOrder =>
    if mapTradingStatus retryOrder.status ≠ .failed then (report retryOrder retryPrice, s)
    else
      -- the order of the first try, with the error of the second one added to its own
      let message := match retryOrder.errorMessage.bind textOrNone with
        | some text => some (stripBars (order.errorMessage.getD "" ++ " | post_only_retry_price=" ++
            fixedPoint 4 retryPrice ++ " failed: " ++ text))
        | none => order.errorMessage
      (report { order with errorMessage := message } price, s)

/-- The submission of the order at its price. -/
def submitAt (env : Surroundings) (view : MarketView) (price : ℚ) (s : Session) :
    LiveOrderExecution × Session :=
  let (answer, s) := env.place view (req.placeOrderAt price) s
  match answer with
  | .error message => (raised message price, s)
  | .ok order =>
    if req.postOnly ∧ mapTradingStatus order.status = .failed ∧
        isPostOnlyCrossReject order.errorMessage ∧ e9 ≤ |req.repricedOneTick price - price| then
      req.retryPostOnly env view order price s
    else (report order price, s)

end LiveOrderRequest

/-- `execute_live_order` -/
def executeLiveOrder (env : Surroundings) (req : LiveOrderRequest) (s : Session) :
    LiveOrderExecution × Session :=
  let view := env.view s.attempts
  let s := { s with attempts := s.attempts + 1 }
  match req.refusal view with
  | some refused => (refused, s)
  | none =>
    match positive (req.resolvedPrice view) with
    | none =>
      (⟨.failed, none, some "Could not resolve a valid live price.", .rejected, none, none, 0⟩, s)
    | some resolved => req.submitAt env view (LiveOrderRequest.submittedPrice resolved) s

/-! ## What an execution did -/

/-- The reported status tells whether the last of the calls came back with an active order; none of
the calls before it did. -/
inductive Reports : LegStatus → List Placed → Prop
  | failed {calls : List Placed} (hcalls : ∀ c ∈ calls, ¬c.Active) : Reports .failed calls
  | active {status : LegStatus} {before : List Placed} {last : Placed} (hstatus : status ≠ .failed)
      (hlast : last.Active) (hbefore : ∀ c ∈ before, ¬c.Active) : Reports status (before ++ [last])

lemma Reports.inactive {calls : List Placed} (h : Reports .failed calls) : ∀ c ∈ calls, ¬c.Active := by
  cases h with
  | failed hcalls => exact hcalls
  | active hstatus => exact absurd rfl hstatus

lemma Reports.append {status : LegStatus} {calls calls' : List Placed}
    (hcalls : ∀ c ∈ calls, ¬c.Active) (h : Reports status calls') :
    Reports status (calls ++ calls') := by
  cases h with
  | failed hcalls' =>
    refine .failed fun c hc => ?_
    rcases List.mem_append.1 hc with hc | hc
    · exact hcalls c hc
    · exact hcalls' c hc
  | active hstatus hlast hbefore =>
    rw [← List.append_assoc]
    refine .active hstatus hlast fun c hc => ?_
    rcases List.mem_append.1 hc with hc | hc
    · exact hcalls c hc
    · exact hbefore c hc

namespace LiveOrderRequest

variable {req : LiveOrderRequest} {env : Surroundings} {view : MarketView} {s : Session}

/-- The calls that an execution of the request makes when it sees `view`: at the price it resolves,
or one tick away from it for a post-only order. -/
def Makes (req : LiveOrderRequest) (view : MarketView) (c : Placed) : Prop :=
  c.view = view ∧ ∃ r, positive (req.resolvedPrice view) = some r ∧
    (c.call = req.placeOrderAt (submittedPrice r) ∨
      e9 ≤ |req.repricedOneTick (submittedPrice r) - submittedPrice r| ∧
        c.call = req.placeOrderAt (req.repricedOneTick (submittedPrice r)))

/-- What an execution of the request adds to the calls of `s`. -/
structure Executed (req : LiveOrderRequest) (view : MarketView) (s : Session)
    (out : LiveOrderExecution × Session) : Prop where
  attempts : out.2.attempts = s.attempts
  placed : ∃ calls, out.2.placed = s.placed ++ calls ∧ (∀ c ∈ calls, req.Makes view c) ∧
    Reports out.1.status calls

lemma refusal_failed (req : LiveOrderRequest) {out : LiveOrderExecution}
    (h : req.refusal view = some out) : out.status = .failed := by
  unfold refusal at h
  split at h
  · cases h; rfl
  · split at h
    · cases h; rfl
    · cases hcircuit : view.authCircuit <;> simp only [hcircuit] at h
      · split_ifs at h
        cases h
        rfl
      · cases h
        rfl

/-- An execution that calls nobody failed. -/
lemma Executed.refused {out : LiveOrderExecution} (hout : out.status = .failed) :
    req.Executed view s (out, s) :=
  ⟨rfl, [], by simp, by simp, hout ▸ .failed (by simp)⟩

/-- The call of `place_order` as an entry of the session. -/
def placed (req : LiveOrderRequest) (env : Surroundings) (view : MarketView) (price : ℚ)
    (s : Session) : Placed :=
  ⟨view, req.placeOrderAt price, env.venue s.placed (req.placeOrderAt price)⟩

lemma reports_returned {c : Placed} {order : Order} (hanswer : c.reply.answer = .ok order) :
    Reports (mapTradingStatus order.status) [c] := by
  have hactive : c.Active ↔ mapTradingStatus order.status ≠ .failed := by
    simp [Placed.Active, hanswer]
  by_cases hstatus : mapTradingStatus order.status = .failed
  · rw [hstatus]
    exact .failed (by simp [hactive, hstatus])
  · exact @Reports.active _ [] c hstatus (hactive.2 hstatus) (by simp)

lemma reports_raised {c : Placed} {message : String} (hanswer : c.reply.answer = .error message) :
    Reports .failed [c] :=
  .failed (by simp [Placed.Active, hanswer])

lemma attempts_retryPostOnly (order : Order) (price : ℚ) :
    (req.retryPostOnly env view order price s).2.attempts = s.attempts := by
  unfold retryPostOnly
  dsimp only [Surroundings.place]
  split
  · rfl
  · split_ifs <;> rfl

variable (req env view) in
lemma retryPostOnly_reports {order : Order} (price : ℚ) (s : Session)
    (horder : mapTradingStatus order.status = .failed) :
    ∃ c : Placed, c.view = view ∧ c.call = req.placeOrderAt (req.repricedOneTick price) ∧
      (req.retryPostOnly env view order price s).2.placed = s.placed ++ [c] ∧
      Reports (req.retryPostOnly env view order price s).1.status [c] := by
  refine ⟨req.placed env view (req.repricedOneTick price) s, rfl, rfl, ?_⟩
  have hreply : (req.placed env view (req.repricedOneTick price) s).reply.answer =
    (env.venue s.placed (req.placeOrderAt (req.repricedOneTick price))).answer := rfl
  rw [retryPostOnly]
  dsimp only [Surroundings.place]
  cases hanswer : (env.venue s.placed (req.placeOrderAt (req.repricedOneTick price))).answer with
  | error message => exact ⟨rfl, reports_raised (hreply.trans hanswer)⟩
  | ok retryOrder =>
    dsimp only
    split_ifs with hretry
    · exact ⟨rfl, reports_returned (hreply.trans hanswer)⟩
    · -- neither order was taken, and the first one is reported
      have hstatus : mapTradingStatus retryOrder.status = mapTradingStatus order.status := by
        rw [horder]
        simpa using hretry
      refine ⟨rfl, ?_⟩
      show Reports (mapTradingStatus order.status) _
      rw [← hstatus]
      exact reports_returned (hreply.trans hanswer)

lemma submitAt_executed {r : ℚ} (hr : positive (req.resolvedPrice view) = some r) :
    req.Executed view s (req.submitAt env view (submittedPrice r) s) := by
  have hfirst : req.Makes view (req.placed env view (submittedPrice r) s) := ⟨rfl, r, hr, .inl rfl⟩
  have hreply : (req.placed env view (submittedPrice r) s).reply.answer =
    (env.venue s.placed (req.placeOrderAt (submittedPrice r))).answer := rfl
  rw [submitAt]
  dsimp only [Surroundings.place]
  cases hanswer : (env.venue s.placed (req.placeOrderAt (submittedPrice r))).answer with
  | error message =>
    exact ⟨rfl, [_], rfl, List.forall_mem_singleton.2 hfirst,
      reports_raised (hreply.trans hanswer)⟩
  | ok order =>
    dsimp only
    split_ifs with hretry
    · obtain ⟨-, horder, -, hmoved⟩ := hretry
      let first := req.placed env view (submittedPrice r) s
      obtain ⟨c, hview, hcall, hplaced, hreports⟩ := req.retryPostOnly_reports env view
        (submittedPrice r) { s with placed := s.placed ++ [first] } horder
      have hinactive : ¬first.Active := by
        simp [first, Placed.Active, hreply.trans hanswer, horder]
      refine ⟨attempts_retryPostOnly _ _, [first, c], ?_, ?_, ?_⟩
      · exact hplaced.trans (List.append_assoc ..)
      · refine List.forall_mem_cons.2 ⟨hfirst, List.forall_mem_singleton.2 ?_⟩
        exact ⟨hview, r, hr, .inr ⟨hmoved, hcall⟩⟩
      · exact hreports.append (List.forall_mem_singleton.2 hinactive)
    · exact ⟨rfl, [_], rfl, List.forall_mem_singleton.2 hfirst,
        reports_returned (hreply.trans hanswer)⟩

end LiveOrderRequest

/-- What a call of `execute_live_order` does: it sees the next view of the market. -/
theorem executeLiveOrder_executed (env : Surroundings) (req : LiveOrderRequest) (s : Session) :
    req.Executed (env.view s.attempts) { s with attempts := s.attempts + 1 }
      (executeLiveOrder env req s) := by
  unfold executeLiveOrder
  dsimp only
  cases hrefusal : req.refusal (env.view s.attempts) with
  | some refused => exact .refused (req.refusal_failed hrefusal)
  | none =>
    cases hr : positive (req.resolvedPrice (env.view s.attempts)) with
    | none => exact .refused rfl
    | some r => exact LiveOrderRequest.submitAt_executed hr

end Evosport.Execution
