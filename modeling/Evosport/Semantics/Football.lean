/-
Football totals and their settlement (`evosport/semantics/football_totals.py`,
`evosport/semantics/football_binding.py`, `services/backtest/settlement_store.py`).

A binding ties the canonical contract of a match to its result.  The outcome of the contract becomes
a settlement record of the market, and the record becomes a price for each token of the market.
Times are microseconds since the epoch.
-/
import Evosport.Backtest.Engine
import Evosport.Lib.Text

namespace Evosport.Semantics

open Lib Backtest

/-! ## The domain (`evosport/domain/sports.py`, `evosport/domain/time.py`) -/

/-- `EventStatus`: what became of the match. -/
inductive EventStatus where
  | scheduled
  | finished
  | postponed
  | cancelled
  | abandoned
  deriving DecidableEq, Repr

/-- `MarketType`; the totals of goals are the only one that is settled. -/
inductive MarketType where
  | totalGoalsOverUnder
  deriving DecidableEq, Repr

/-- `PostponedAction`: what a market does when the match does not take place. -/
inductive PostponedAction where
  | void
  | waitForReschedule
  deriving DecidableEq, Repr

/-- `SettlementOutcome`: how a market is settled. -/
inductive SettlementOutcome where
  | yes
  | no
  | void
  | unresolved
  deriving DecidableEq, Repr

/-- `outcome.value.upper()` -/
def SettlementOutcome.label : SettlementOutcome → String
  | yes => "YES"
  | no => "NO"
  | void => "VOID"
  | unresolved => "UNRESOLVED"

/-- `SettlementPolicy` with its defaults: whether extra time counts, and what becomes of a market
whose match was not played to its end. -/
structure SettlementPolicy where
  includesExtraTime : Bool := false
  postponedAction : PostponedAction := .void
  cancelledAction : PostponedAction := .void
  abandonedAction : PostponedAction := .void
  deriving DecidableEq, Repr

/-- The part of `CanonicalSportsEvent` that a binding reads. -/
structure CanonicalSportsEvent where
  eventId : String
  sport : String := "football"
  scheduledStart : Time
  actualStart : Option Time := none
  status : EventStatus := .scheduled
  deriving DecidableEq, Repr

/-- The part of `CanonicalSportsContract` that a binding reads, with what its own validation has
found. -/
structure CanonicalSportsContract where
  eventId : String
  venueMarketId : String
  yesTokenId : String
  noTokenId : String
  marketType : MarketType
  threshold : ℚ
  side : String
  opensAt : Time
  closesAt : Time
  ruleVersion : String
  settlement : SettlementPolicy
  opensAt_lt : opensAt < closesAt
  side_mem : side = "over" ∨ side = "under"
  threshold_pos : 0 < threshold

/-- The part of `TemporalEnvelope` that a binding reads. -/
structure TemporalEnvelope where
  eventTime : Time
  observedAt : Time
  ingestedAt : Time
  observedAt_le : observedAt ≤ ingestedAt

/-- `FootballMatchResult`: the goals of the regulation and of the extra time. -/
structure FootballMatchResult where
  regulationHome : ℕ
  regulationAway : ℕ
  extraTimeHome : ℕ := 0
  extraTimeAway : ℕ := 0
  status : EventStatus
  deriving DecidableEq, Repr

/-! ## The outcome -/

/-- `total`, the goals that count -/
def countedGoals (contract : CanonicalSportsContract) (result : FootballMatchResult) : ℕ :=
  let total := result.regulationHome + result.regulationAway
  if contract.settlement.includesExtraTime then
    total + (result.extraTimeHome + result.extraTimeAway)
  else total

/-- What becomes of a match that was not played to its end. -/
def PostponedAction.outcome : PostponedAction → SettlementOutcome
  | void => .void
  | waitForReschedule => .unresolved

/-- `settle_total_goals`: a finished match settles by its counted goals, a scheduled one is
unresolved, and any other one takes the action that the contract names for its status. -/
def settleTotalGoals (contract : CanonicalSportsContract) (result : FootballMatchResult) :
    SettlementOutcome :=
  match result.status with
  | .scheduled => .unresolved
  | .postponed => contract.settlement.postponedAction.outcome
  | .cancelled => contract.settlement.cancelledAction.outcome
  | .abandoned => contract.settlement.abandonedAction.outcome
  | .finished =>
    let total : ℚ := countedGoals contract result
    let isYes : Bool :=
      if contract.side = "over" then total > contract.threshold else total < contract.threshold
    if isYes then .yes else .no

/-! ## The binding -/

/-- `match_start` -/
def CanonicalSportsEvent.start (event : CanonicalSportsEvent) : Time :=
  event.actualStart.getD event.scheduledStart

/-- `validate_binding`: what an event, a contract, a result and its times must have in common before
they are settled; the first check that fails is reported. -/
def validateBinding (event : CanonicalSportsEvent) (contract : CanonicalSportsContract)
    (result : FootballMatchResult) (resultTime : TemporalEnvelope) : Except String Unit :=
  if event.sport ≠ "football" then .error "event sport must be football"
  else if contract.eventId ≠ event.eventId then .error "contract event_id must match event"
  else if contract.marketType ≠ .totalGoalsOverUnder then
    .error "contract must be total goals over/under"
  else if contract.threshold ≠ 5 / 2 then .error "contract threshold must be exactly 2.5"
  else if contract.side ≠ "over" then
    .error "the football slice requires YES to mean over 2.5"
  else if event.start < contract.closesAt then
    .error "contract must close before or at match start"
  else if result.status ≠ event.status then .error "result status must match event status"
  else if resultTime.eventTime < contract.closesAt then
    .error "result event_time must not precede market close"
  else if resultTime.eventTime < event.start then
    .error "result event_time must not precede match start"
  else if resultTime.observedAt < resultTime.eventTime then
    .error "result event_time cannot be after observed_at"
  else if event.status = .scheduled ∧ resultTime.eventTime ≤ event.start then
    .error "an unresolved scheduled event cannot carry an early final result"
  else .ok ()

/-- `FootballDatasetBinding`: only what passes its validation is one, so the settlement never meets
an event, a contract and a result that do not belong together. -/
structure FootballDatasetBinding where
  event : CanonicalSportsEvent
  contract : CanonicalSportsContract
  result : FootballMatchResult
  resultTime : TemporalEnvelope
  validated : validateBinding event contract result resultTime = .ok ()

/-! ## Records -/

/-- `SettlementRecord`, a row of the market settlements -/
structure SettlementRecord where
  conditionId : String
  slug : Option String
  winningTokenId : Option String
  winningOutcome : Option String
  tokenIds : List String
  resolutionTime : Option Time
  coinPriceStart : Option ℚ
  coinPriceEnd : Option ℚ
  resolved : Bool
  source : String
  deriving DecidableEq, Repr

namespace FootballDatasetBinding

variable (b : FootballDatasetBinding)

/-- The outcome of the contract, by the result of its match. -/
def outcome : SettlementOutcome := settleTotalGoals b.contract b.result

/-- `winning_token_id` -/
def winningTokenId : Option String :=
  match b.outcome with
  | .yes => some b.contract.yesTokenId
  | .no => some b.contract.noTokenId
  | _ => none

/-- `expected_football_settlement` -/
def expectedFootballSettlement : SettlementRecord where
  conditionId := b.contract.venueMarketId
  slug := none
  winningTokenId := b.winningTokenId
  winningOutcome := some b.outcome.label
  tokenIds := [b.contract.yesTokenId, b.contract.noTokenId]
  resolutionTime := some b.resultTime.observedAt
  coinPriceStart := none
  coinPriceEnd := none
  resolved := b.outcome ≠ .unresolved
  source := "evosport:football:" ++ b.contract.ruleVersion

end FootballDatasetBinding

/-! ## Prices -/

/-- `TokenMarketMeta`, as far as prices go -/
structure TokenMarketMeta where
  tokenId : String
  conditionId : Option String
  resolutionTime : Option Time := none
  deriving DecidableEq, Repr

/-- `TokenSettlement`, with the provenance that the engine does not read -/
structure TokenSettlement extends Backtest.TokenSettlement where
  conditionId : Option String := none
  source : String := ""
  deriving DecidableEq, Repr

/-- The capital of a letter, as far as the letters of "VOID" go: the dotless i is the only other
character with one of them as its capital. -/
def capital (c : Char) : Char := if c = 'ı' then 'I' else c.toUpper

/-- `(winning_outcome or "").strip().upper() == "VOID"` -/
def isVoid (winningOutcome : Option String) : Bool :=
  (strip (winningOutcome.getD "")).toList.map capital = "VOID".toList

/-- A text that is there and not empty. -/
def truthy : Option String → Option String
  | some s => if s = "" then none else some s
  | none => none

/-- The market of a token: `(meta.condition_id or "").strip()`. -/
def TokenMarketMeta.cond (m : TokenMarketMeta) : String := strip (m.conditionId.getD "")

/-- `settle_price` of a token, or nothing where the token is foreign to the market. -/
def settlePrice (rec : SettlementRecord) (tokenId : String) : Option (Option ℚ) :=
  let foreign := rec.tokenIds ≠ [] ∧ tokenId ∉ rec.tokenIds
  if rec.resolved ∧ isVoid rec.winningOutcome then
    if foreign then none else some (some (1 / 2))
  else
    match rec.resolved, truthy rec.winningTokenId with
    | true, some winner =>
      if foreign then none else some (some (if tokenId = winner then 1 else 0))
    -- known to resolve, winner not sourced
    | _, _ => some none

/-- What one metadata entry contributes. -/
def tokenSettlement (records : Dict String SettlementRecord) (m : TokenMarketMeta) :
    Option TokenSettlement :=
  (if m.cond = "" then none else records.get? m.cond).bind fun rec =>
    (settlePrice rec m.tokenId).bind fun price =>
      let resTime := rec.resolutionTime.or m.resolutionTime
      if price = none ∧ resTime = none then none
      else some
        { tokenId := m.tokenId, settlePrice := price, resolutionTime := resTime
          winningOutcome := rec.winningOutcome, conditionId := some m.cond, source := rec.source }

/-- One round of the loop of `build_token_settlements`. -/
def settleToken (records : Dict String SettlementRecord) (out : Dict String TokenSettlement)
    (m : TokenMarketMeta) : Dict String TokenSettlement :=
  match tokenSettlement records m with
  | some settlement => out.set m.tokenId settlement
  | none => out

/-- `build_token_settlements` -/
def buildTokenSettlements (tokenMeta : List TokenMarketMeta)
    (records : Dict String SettlementRecord) : Dict String TokenSettlement :=
  tokenMeta.foldl (settleToken records) .empty

end Evosport.Semantics
