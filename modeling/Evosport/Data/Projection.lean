/-
Events projected from the book plane (`services/marketdata/projection.py`).

At every tick of the cadence the projection looks up the books of the markets that are alive,
derives their prices and emits one event that carries the priced markets.  The two projections
differ in the shape of a market and of an event alone, so that both run through `projectEvents`.

The clock is exact: a tick is a whole number of microseconds, and the datetimes made of it lose
nothing.
-/
import Evosport.Data.AsOf
import Evosport.Lib.Dict
import Evosport.Lib.Text

namespace Evosport.Data

open Lib Backtest

/-! ## Values of the events -/

/-- The values that an event carries. -/
inductive PyValue where
  | null
  | bool (b : Bool)
  | int (z : ℤ)
  | float (x : ℚ)
  | str (s : String)
  | list (xs : List PyValue)
  | dict (members : List (String × PyValue))

/-- A dict written out, its keys distinct. -/
abbrev PyDict := List (String × PyValue)

namespace PyValue

/-- A column of texts, which may be null. -/
def ofStr : Option String → PyValue
  | some s => .str s
  | none => .null

/-- A column of numbers, which may be null. -/
def ofFloat : Option ℚ → PyValue
  | some x => .float x
  | none => .null

/-- A column of integers, which may be null. -/
def ofInt : Option ℤ → PyValue
  | some z => .int z
  | none => .null

end PyValue

/-- `a or b` of two texts: an empty text counts as absent. -/
def orText (a b : Option String) : Option String :=
  match a with
  | some s => if s = "" then b else some s
  | none => b

/-! ## Instants as texts -/

/-- The first and the last instant that a datetime can hold: the years 1 to 9999. -/
def minUs : Time := -62135596800000000

/-- The last microsecond that a `datetime` can express. -/
def maxUs : Time := 253402300799999999

/-- Year, month and day of a day counted from 1970-01-01. -/
def civilFromDays (days : ℤ) : ℤ × ℤ × ℤ :=
  -- years are counted from 1 March, in eras of 400 years
  let z := days + 719468
  let era := z / 146097
  let doe := z % 146097
  let yoe := (doe - doe / 1460 + doe / 36524 - doe / 146096) / 365
  let doy := doe - (365 * yoe + yoe / 4 - yoe / 100)
  let mp := (5 * doy + 2) / 153
  let d := doy - (153 * mp + 2) / 5 + 1
  let m := if mp < 10 then mp + 3 else mp - 9
  (yoe + era * 400 + (if m ≤ 2 then 1 else 0), m, d)

/-- A number padded with zeros to `width` digits. -/
def padded (width : ℕ) (n : ℤ) : String :=
  let digits := toString n.toNat
  String.ofList (List.replicate (width - digits.length) '0') ++ digits

/-- `isoformat()` of a UTC instant, with `Z` for the offset. -/
def isoText (us : Time) : String :=
  let (y, m, d) := civilFromDays (us / 86400000000)
  let second := us % 86400000000 / 1000000
  let fraction := us % 1000000
  padded 4 y ++ "-" ++ padded 2 m ++ "-" ++ padded 2 d ++ "T" ++ padded 2 (second / 3600) ++ ":" ++
    padded 2 (second / 60 % 60) ++ ":" ++ padded 2 (second % 60) ++
    (if fraction = 0 then "" else "." ++ padded 6 fraction) ++ "Z"

example : isoText 1709210096500000 = "2024-02-29T12:34:56.500000Z" := by decide +kernel

/-- `_iso_us` -/
def isoUs (us : Option Time) : PyValue := PyValue.ofStr (us.map isoText)

/-! ## Markets -/

/-- `ProjectedMarket`.  Its times were datetimes, which the two ranges say; so they have a text. -/
structure ProjectedMarket where
  marketId : Option String
  conditionId : Option String := none
  slug : Option String := none
  title : Option String := none
  coin : Option String := none
  timeframe : Option String := none
  startUs : Option Time := none
  endUs : Option Time := none
  upToken : Option TokenId := none
  downToken : Option TokenId := none
  priceToBeat : Option ℚ := none
  startUs_range : ∀ us ∈ startUs, minUs ≤ us ∧ us ≤ maxUs := by decide
  endUs_range : ∀ us ∈ endUs, minUs ≤ us ∧ us ≤ maxUs := by decide

namespace ProjectedMarket

/-- `market_key` -/
def marketKey (m : ProjectedMarket) : String :=
  (orText m.conditionId (orText m.marketId m.slug)).getD ""

/-- `alive_at` -/
def aliveAt (m : ProjectedMarket) (tsUs : Time) : Bool :=
  if m.startUs.any fun start => tsUs < start then false
  else if m.endUs.any fun stop => stop ≤ tsUs then false
  else true

/-- `tokens` -/
def tokens (m : ProjectedMarket) : List TokenId :=
  [m.upToken, m.downToken].filterMap fun t => orText t none

end ProjectedMarket

/-! ## Prices -/

/-- The top of the two books of a market. -/
structure Quotes where
  upBid : Option ℚ
  upAsk : Option ℚ
  downBid : Option ℚ
  downAsk : Option ℚ
  deriving DecidableEq, Repr

/-- What `_derive_projected_prices` returns: the mid prices of both tokens, the seconds left, and
the spread. -/
structure DerivedPrices extends Quotes where
  upMid : Option ℚ
  downMid : Option ℚ
  secondsLeft : Option ℤ
  spread : Option ℚ
  deriving DecidableEq, Repr

/-- `_clamp01` -/
def clamp01 (p : Option ℚ) : Option ℚ := p.filter fun p => 0 < p ∧ p < 1

/-- `1.0 - p`, kept when it is a price. -/
def complement (p : Option ℚ) : Option ℚ := clamp01 (p.map (1 - ·))

/-- `round(x, 6)` -/
def round6 (x : ℚ) : ℚ := roundHalfEven (x * 1000000) / 1000000

/-- `_mid` -/
def midOf : Option ℚ → Option ℚ → Option ℚ
  | some b, some a => some (round6 ((b + a) / 2))
  | some b, none => some b
  | none, a => a

namespace Quotes

/-- A side without a quote is filled from the other one. -/
def filled (q : Quotes) : Quotes :=
  let q :=
    if q.upBid = none ∧ q.upAsk = none ∧ (q.downBid ≠ none ∨ q.downAsk ≠ none) then
      { q with upBid := complement q.downAsk, upAsk := complement q.downBid }
    else q
  if q.downBid = none ∧ q.downAsk = none ∧ (q.upBid ≠ none ∨ q.upAsk ≠ none) then
    { q with downBid := complement q.upAsk, downAsk := complement q.upBid }
  else q

end Quotes

/-- `_derive_projected_prices`: `none` where neither token has a mid price. -/
def deriveProjectedPrices (m : ProjectedMarket) (tick : Time) (quotes : Quotes) :
    Option DerivedPrices :=
  let q := quotes.filled
  let upMid := midOf q.upBid q.upAsk
  let downMid := midOf q.downBid q.downAsk
  if upMid = none ∧ downMid = none then none
  else
    some { q with
      upMid, downMid,
      secondsLeft := m.endUs.map fun stop => max 0 (toInt ((stop - tick : ℤ) / 1000000)),
      spread :=
        match q.upBid, q.upAsk with
        | some b, some a => some (round6 (a - b))
        | _, _ => none }

/-! ## The two shapes of a market -/

section Shapes

-- `str.upper`, which follows the case tables of Unicode
variable (upper : String → String)

/-- `_market_dict`: the dictionary of a market at a tick, under the keys and in the order of the
source; `none` where it has no price. -/
def marketDict (m : ProjectedMarket) (tick : Time) (quotes : Quotes) : Option PyDict :=
  (deriveProjectedPrices m tick quotes).map fun d =>
    [("id", .str ((orText m.marketId none).getD "")),
     ("condition_id", .ofStr m.conditionId),
     ("slug", .ofStr m.slug),
     ("question", .ofStr (orText m.title m.slug)),
     ("asset", .str (upper (m.coin.getD ""))),
     ("timeframe", .ofStr m.timeframe),
     ("start_time", isoUs m.startUs),
     ("end_time", isoUs m.endUs),
     ("seconds_left", .ofInt d.secondsLeft),
     ("is_live", .bool (m.startUs.all (fun start => start ≤ tick) &&
       m.endUs.all (fun stop => tick < stop))),
     ("is_current", .bool true),
     ("up_price", .ofFloat d.upMid),
     ("down_price", .ofFloat d.downMid),
     ("best_bid", .ofFloat d.upBid),
     ("best_ask", .ofFloat d.upAsk),
     ("spread", .ofFloat d.spread),
     ("clob_token_ids", .list [.str (m.upToken.getD ""), .str (m.downToken.getD "")]),
     ("up_token_index", .int 0),
     ("down_token_index", .int 1),
     ("price_to_beat", .ofFloat m.priceToBeat),
     ("fees_enabled", .bool true),
     ("event_slug", .ofStr m.slug),
     ("event_title", .ofStr m.title),
     ("liquidity", .float 0),
     ("volume", .float 0),
     ("_synthetic_source", .str "marketdata.projection")]

/-- `DEFAULT_PROJECTED_LIQUIDITY` -/
def defaultProjectedLiquidity : ℚ := 100000

/-- `_classify_projected_category` -/
def classifyProjectedCategory (m : ProjectedMarket) : Option String :=
  let coin := strip (m.coin.getD "")
  let timeframe := (strip (m.timeframe.getD "")).toLower
  if coin ≠ "" then some "crypto"
  else if timeframe ∈ ["up_down", "updown", "crypto", "btc", "eth"] then some "crypto"
  else none

/-- `_catalog_market_dict`: the same market in the shape of the catalog, in which most values stand
under two spellings of their key. -/
def catalogMarketDict (m : ProjectedMarket) (tick : Time) (quotes : Quotes) : Option PyDict :=
  (deriveProjectedPrices m tick quotes).map fun d =>
    let endIso := isoUs m.endUs
    let startIso := isoUs m.startUs
    let tokenIds : PyValue := .list [.str (m.upToken.getD ""), .str (m.downToken.getD "")]
    [("id", .str ((orText m.marketId (orText m.conditionId (orText m.slug none))).getD "")),
     ("condition_id", .str (m.conditionId.getD "")),
     ("conditionId", .str (m.conditionId.getD "")),
     ("slug", .str (m.slug.getD "")),
     ("question", .str ((orText m.title (orText m.slug none)).getD "")),
     ("groupItemTitle", .str ""),
     ("event_slug", .str (m.slug.getD "")),
     ("closed", .bool false),
     ("active", .bool true),
     ("archived", .bool false),
     ("resolved", .bool false),
     ("acceptingOrders", .bool true),
     ("enableOrderBook", .bool true),
     ("clobTokenIds", tokenIds),
     ("clob_token_ids", tokenIds),
     ("up_token_index", .int 0),
     ("down_token_index", .int 1),
     ("endDate", endIso),
     ("end_date", endIso),
     ("end_time", endIso),
     ("start_time", startIso),
     ("seconds_left", .ofInt d.secondsLeft),
     ("bestBid", .ofFloat d.upBid),
     ("bestAsk", .ofFloat d.upAsk),
     ("best_bid", .ofFloat d.upBid),
     ("best_ask", .ofFloat d.upAsk),
     ("spread", .ofFloat d.spread),
     ("up_price", .ofFloat d.upMid),
     ("down_price", .ofFloat d.downMid),
     ("liquidity", .float defaultProjectedLiquidity),
     ("liquidityNum", .float defaultProjectedLiquidity),
     ("volume", .float 0),
     ("asset", .str (upper (m.coin.getD ""))),
     ("coin", .ofStr m.coin),
     ("category", .ofStr (classifyProjectedCategory m)),
     ("timeframe", .ofStr m.timeframe),
     ("price_to_beat", .ofFloat m.priceToBeat),
     ("fees_enabled", .bool true),
     ("_synthetic_source", .str "marketdata.projection.market_data_refresh")]

end Shapes

/-! ## Events -/

/-- The types of the events that the projection writes. -/
inductive EventType where
  | cryptoUpdate
  | marketDataRefresh
  deriving DecidableEq, Repr

/-- `DataEvent`, with the fields that a projection sets. -/
structure DataEvent where
  eventType : EventType
  source : String
  timestamp : Time
  payload : PyDict
  markets : Option (List PyDict) := none
  prices : Option PyDict := none

/-- A market that is priced at a tick: its quotes, and the dictionary that the event carries for it.
-/
structure PricedMarket where
  market : ProjectedMarket
  quotes : Quotes
  dict : PyDict

/-- `build_crypto_update_inputs` as the projection calls it. -/
def cryptoUpdateEvent (tick : Time) (priced : List PricedMarket) : DataEvent where
  eventType := .cryptoUpdate
  source := "marketdata.projection"
  timestamp := tick
  payload :=
    [("markets", .list (priced.map fun p => .dict p.dict)),
     ("trigger", .str "marketdata.projection"),
     ("event_source", .str "imported_parquet")]

/-- One token of the prices map, when its book shows a quote. -/
def putQuote (prices : Dict String PyDict) (token : Option TokenId) (bid ask : Option ℚ) :
    Dict String PyDict :=
  match orText token none with
  | some token =>
    if bid ≠ none ∨ ask ≠ none then
      prices.set token [("bid", .ofFloat bid), ("ask", .ofFloat ask),
        ("best_bid", .ofFloat bid), ("best_ask", .ofFloat ask)]
    else prices
  | none => prices

/-- `prices_map` of a tick -/
def pricesMap (priced : List PricedMarket) : Dict String PyDict :=
  priced.foldl (fun prices p =>
    putQuote (putQuote prices p.market.upToken p.quotes.upBid p.quotes.upAsk)
      p.market.downToken p.quotes.downBid p.quotes.downAsk) Dict.empty

/-- `build_market_data_refresh_inputs` as the projection calls it. -/
def marketDataRefreshEvent (tick : Time) (priced : List PricedMarket) : DataEvent :=
  let prices : PyDict := (pricesMap priced).entries.map fun (token, quote) => (token, .dict quote)
  { eventType := .marketDataRefresh
    source := "marketdata.projection"
    timestamp := tick
    payload :=
      [("markets", .list (priced.map fun p => .dict p.dict)),
       ("prices", .dict prices),
       ("updated_at", .str (isoText tick)),
       ("trigger", .str "marketdata.projection"),
       ("event_source", .str "imported_parquet")]
    markets := some (priced.map PricedMarket.dict)
    prices := some prices }

/-! ## The projections -/

/-- What both projections are asked for: the range and the cadence of the ticks, the markets to
leave out, and how old a book may be. -/
structure ProjectionRequest where
  startUs : Time
  endUs : Time
  cadenceSeconds : ℚ
  excludeMarketKeys : List String := []
  maxStalenessSeconds : ℚ := 30

namespace ProjectionRequest

/-- `cadence_us` -/
def cadenceUs (req : ProjectionRequest) : ℤ := max 1 (toInt (req.cadenceSeconds * 1000000))

lemma cadenceUs_pos (req : ProjectionRequest) : 0 < req.cadenceUs :=
  lt_max_of_lt_left one_pos

end ProjectionRequest

/-- The book of a token that the market has. -/
def bookOf (view : MarketDataView) (token : Option TokenId) (tick : Time) (stale : ℚ) :
    Option BookSnapshot :=
  (orText token none).bind fun token => view.bookAt token tick (some stale)

/-- The tops of the two books of a market. -/
def quotesAt (view : MarketDataView) (m : ProjectedMarket) (tick : Time) (stale : ℚ) : Quotes :=
  let upSnap := bookOf view m.upToken tick stale
  let downSnap := bookOf view m.downToken tick stale
  { upBid := upSnap.bind BookSnapshot.bestBid
    upAsk := upSnap.bind BookSnapshot.bestAsk
    downBid := downSnap.bind BookSnapshot.bestBid
    downAsk := downSnap.bind BookSnapshot.bestAsk }

/-- The shape that a projection gives to a market. -/
abbrev MarketShape := ProjectedMarket → Time → Quotes → Option PyDict

/-- The markets that are alive and priced at a tick. -/
def pricedAt (shape : MarketShape) (view : MarketDataView) (stale : ℚ)
    (active : List ProjectedMarket) (tick : Time) : List PricedMarket :=
  active.filterMap fun m =>
    if m.aliveAt tick then
      let quotes := quotesAt view m tick stale
      (shape m tick quotes).map fun dict => ⟨m, quotes, dict⟩
    else none

/-- The tick loop: the markets of every tick at which some market is priced. -/
def tickLoop (endUs cadenceUs : ℤ) (hcadence : 0 < cadenceUs)
    (priced : Time → List PricedMarket) (tickUs : ℤ) : List (Time × List PricedMarket) :=
  if _h : tickUs ≤ endUs then
    (if priced tickUs = [] then [] else [(tickUs, priced tickUs)]) ++
      tickLoop endUs cadenceUs hcadence priced (tickUs + cadenceUs)
  else []
termination_by (endUs + 1 - tickUs).toNat
decreasing_by omega

/-- Both projections: the events with the statistics.  Markets that are excluded or have no token
are left out; `shape` and `event` are what the two projections differ in. -/
def projectEvents (shape : MarketShape) (event : Time → List PricedMarket → DataEvent)
    (view : MarketDataView) (markets : List ProjectedMarket) (req : ProjectionRequest) :
    List DataEvent × PyDict :=
  let active := markets.filter fun m => m.marketKey ∉ req.excludeMarketKeys ∧ m.tokens ≠ []
  if active = [] then
    ([], [("markets_loaded", .int markets.length), ("markets_active", .int 0), ("events", .int 0)])
  else
    let ticks := tickLoop req.endUs req.cadenceUs req.cadenceUs_pos
      (pricedAt shape view req.maxStalenessSeconds active) req.startUs
    let events := ticks.map fun (tick, priced) => event tick priced
    (events,
      [("markets_loaded", .int markets.length),
       ("markets_active", .int active.length),
       ("events", .int events.length),
       ("market_dicts", .int (ticks.map fun (_, priced) => priced.length).sum),
       ("cadence_seconds", .float req.cadenceSeconds)])

/-- `project_crypto_update_events` -/
def projectCryptoUpdateEvents (upper : String → String) :=
  projectEvents (marketDict upper) cryptoUpdateEvent

/-- `project_market_data_refresh_events` -/
def projectMarketDataRefreshEvents (upper : String → String) :=
  projectEvents (catalogMarketDict upper) marketDataRefreshEvent

/-! ## No event looks ahead -/

/-- The part of a run up to `τ`. -/
def eventsUpTo (τ : Time) (events : List DataEvent) : List DataEvent :=
  events.filter fun e => e.timestamp ≤ τ

/-- Loops whose ticks up to `τ` price the same markets agree up to `τ`. -/
lemma tickLoop_agree {endUs cadenceUs : ℤ} (hcadence : 0 < cadenceUs) {τ : Time}
    {priced priced' : Time → List PricedMarket} (h : ∀ tick ≤ τ, priced tick = priced' tick)
    (tickUs : ℤ) :
    AgreeOn (fun e => e.1 ≤ τ) (tickLoop endUs cadenceUs hcadence priced tickUs)
      (tickLoop endUs cadenceUs hcadence priced' tickUs) := by
  induction tickUs using tickLoop.induct endUs cadenceUs hcadence with
  | case1 tickUs hle ih =>
    rw [AgreeOn, tickLoop, tickLoop.eq_def _ _ _ priced', dif_pos hle, dif_pos hle,
      List.filter_append, List.filter_append, ih]
    congr 1
    by_cases hτ : tickUs ≤ τ
    · rw [h tickUs hτ]
    · -- whatever this tick emits is stamped after `τ`
      have hlate : ∀ l : List PricedMarket,
          (if l = [] then [] else [(tickUs, l)]).filter (fun e => e.1 ≤ τ) = [] := by
        intro l
        split <;> simp [hτ]
      rw [hlate, hlate]
  | case2 tickUs hgt =>
    rw [AgreeOn, tickLoop, tickLoop.eq_def _ _ _ priced', dif_neg hgt, dif_neg hgt]

section TwoRuns

variable {plane plane' : BookPlane} {τ : Time}
  (h : ∀ token, AgreeOn (MarketDataView.observedBy τ) (plane.rowsOf token) (plane'.rowsOf token))
  (startUs endUs : Time)

include h in
lemma quotesAt_congr (m : ProjectedMarket) {tick : Time} (ht : tick ≤ τ) (stale : ℚ) :
    quotesAt ⟨plane, startUs, endUs⟩ m tick stale =
      quotesAt ⟨plane', startUs, endUs⟩ m tick stale := by
  have hbook : ∀ token, bookOf ⟨plane, startUs, endUs⟩ token tick stale =
      bookOf ⟨plane', startUs, endUs⟩ token tick stale := by
    intro token
    rw [bookOf, bookOf]
    refine Option.bind_congr fun t _ => ?_
    exact MarketDataView.bookAt_congr (h t) startUs endUs ht _
  rw [quotesAt, quotesAt, hbook, hbook]

include h in
lemma pricedAt_congr (shape : MarketShape) (stale : ℚ) (active : List ProjectedMarket)
    {tick : Time} (ht : tick ≤ τ) :
    pricedAt shape ⟨plane, startUs, endUs⟩ stale active tick =
      pricedAt shape ⟨plane', startUs, endUs⟩ stale active tick := by
  unfold pricedAt
  refine List.filterMap_congr fun m _ => ?_
  rw [quotesAt_congr h startUs endUs m ht]

include h in
/-- Whatever the shape of the markets and of the events is: planes that hold the same rows observed
at or before `τ` give the same events up to `τ`. -/
lemma projectEvents_congr (shape : MarketShape) {event : Time → List PricedMarket → DataEvent}
    (hstamp : ∀ tick priced, (event tick priced).timestamp = tick)
    (markets : List ProjectedMarket) (req : ProjectionRequest) :
    eventsUpTo τ (projectEvents shape event ⟨plane, startUs, endUs⟩ markets req).1 =
      eventsUpTo τ (projectEvents shape event ⟨plane', startUs, endUs⟩ markets req).1 := by
  unfold projectEvents
  dsimp only
  split
  · rfl
  · have hticks := @tickLoop_agree req.endUs req.cadenceUs req.cadenceUs_pos τ _ _
      (fun tick ht => pricedAt_congr h startUs endUs shape req.maxStalenessSeconds
        (markets.filter fun m => m.marketKey ∉ req.excludeMarketKeys ∧ m.tokens ≠ []) ht)
      req.startUs
    have hmap : ∀ ticks : List (Time × List PricedMarket),
        eventsUpTo τ (ticks.map fun e => event e.1 e.2) =
          (ticks.filter fun e => e.1 ≤ τ).map fun e => event e.1 e.2 := by
      intro ticks
      rw [eventsUpTo, List.filter_map]
      simp [Function.comp_def, hstamp]
    rw [AgreeOn] at hticks
    exact (hmap _).trans ((congrArg _ hticks).trans (hmap _).symm)

end TwoRuns

/-- Projected events never look ahead: whatever the planes hold after `τ`, the events up to `τ` are
those of the rows observed at or before `τ`. -/
theorem projected_events_never_look_ahead (upper : String → String) (plane plane' : BookPlane)
    (startUs endUs τ : Time) (markets : List ProjectedMarket) (req : ProjectionRequest)
    (h : ∀ token,
      AgreeOn (MarketDataView.observedBy τ) (plane.rowsOf token) (plane'.rowsOf token)) :
    eventsUpTo τ (projectCryptoUpdateEvents upper ⟨plane, startUs, endUs⟩ markets req).1 =
        eventsUpTo τ (projectCryptoUpdateEvents upper ⟨plane', startUs, endUs⟩ markets req).1 ∧
      eventsUpTo τ (projectMarketDataRefreshEvents upper ⟨plane, startUs, endUs⟩ markets req).1 =
        eventsUpTo τ
          (projectMarketDataRefreshEvents upper ⟨plane', startUs, endUs⟩ markets req).1 := by
  constructor
  · exact projectEvents_congr h startUs endUs _ (fun _ _ => rfl) markets req
  · exact projectEvents_congr h startUs endUs _ (fun _ _ => rfl) markets req

/-- A row with one bid and one ask. -/
def topRow (observedAtUs : Time) (bid ask : ℚ) : BookRow where
  tokenId := some "up"
  observedAtUs := some observedAtUs
  bidsPrice := some [some bid]
  bidsSize := some [some 10]
  asksPrice := some [some ask]
  asksSize := some [some 10]

/-- A plane with a single file. -/
def oneFile (rows : List BookRow) : BookPlane := ⟨fun _ => ["book.parquet"], fun _ => some rows⟩

/-- A later row, put in front of the file, leaves the earlier events as they are. -/
theorem laterRow_unseen :
    let rows := [topRow 1000000 (2 / 5) (1 / 2)]
    let markets : List ProjectedMarket := [{ marketId := some "m", upToken := some "up" }]
    let req : ProjectionRequest := { startUs := 0, endUs := 5000000, cadenceSeconds := 1 }
    (pricedAt (marketDict id) ⟨oneFile rows, 0, 5000000⟩ 30 markets 2000000).map
        PricedMarket.quotes = [⟨some (2 / 5), some (1 / 2), none, none⟩] ∧
    (eventsUpTo 2000000
        (projectCryptoUpdateEvents id ⟨oneFile rows, 0, 5000000⟩ markets req).1 =
      eventsUpTo 2000000
        (projectCryptoUpdateEvents id
          ⟨oneFile (topRow 3000000 (4 / 5) (9 / 10) :: rows), 0, 5000000⟩ markets req).1 ∧
      eventsUpTo 2000000
        (projectMarketDataRefreshEvents id ⟨oneFile rows, 0, 5000000⟩ markets req).1 =
      eventsUpTo 2000000
        (projectMarketDataRefreshEvents id
          ⟨oneFile (topRow 3000000 (4 / 5) (9 / 10) :: rows), 0, 5000000⟩ markets req).1) := by
  refine ⟨by decide +kernel, ?_⟩
  refine projected_events_never_look_ahead id (oneFile _) (oneFile _) 0 5000000 2000000 _ _ ?_
  intro token
  by_cases htoken : token = "up"
  · subst htoken
    rw [AgreeOn]
    decide +kernel
  · simp [AgreeOn, BookPlane.rowsOf, oneFile, topRow, Ne.symm htoken]

end Evosport.Data
