/-
The pre-trade gate and the budget.

`can_submit` compares an intent with the portfolio as it has been filled so far: the orders that
are in flight or resting are not counted, the limit is compared before the venue rounds it, and
each comparison grants a tolerance.  `Fits` is the test that counts them: what the live entry
orders may still spend at their limits is treated as spent.  In a run in which the gate lets
nothing through that does not fit, the portfolio stays within its budget (`Portfolio.Room` is the
invariant, `keepsBudget_of_fits` the result).
-/
import Mathlib.Data.Finset.Card
import Evosport.Backtest.Oversell
import Evosport.Backtest.Outstanding

namespace Evosport.Backtest

open Lib

/-! ## The budget -/

/-- What an exposure cap counts: all positions, those on a token, or those of a strategy. -/
inductive Scope where
  | gross
  | market (token : TokenId)
  | strategy (slug : Slug)
deriving DecidableEq, Repr

/-- The cap counts the position under the key. -/
def Scope.covers : Scope → PositionKey → Bool
  | .gross, _ => true
  | .market token, key => decide (key.1 = token)
  | .strategy slug, key => decide (key.2.2 = some slug)

/-- The scopes that count the position under a key. -/
def Scope.ofKey (key : PositionKey) : List Scope :=
  .gross :: .market key.1 :: key.2.2.toList.map .strategy

lemma Scope.mem_ofKey {scope : Scope} {key : PositionKey} :
    scope ∈ ofKey key ↔ scope.covers key = true := by
  cases scope with
  | gross => simp [ofKey, covers]
  | market token => simp [ofKey, covers, eq_comm]
  | strategy slug => simp [ofKey, covers]

/-- The cap on a scope, when one is set.  The empty slug names no strategy. -/
def PortfolioConfig.cap (cfg : PortfolioConfig) : Scope → Option ℚ
  | .gross => cfg.maxGrossExposureUsd
  | .market _ => cfg.maxPerMarketNotionalUsd
  | .strategy slug => if slug = "" then none else cfg.maxPerStrategyNotionalUsd

/-- The cost of a position, as far as the scope counts it. -/
def costIn (scope : Scope) (key : PositionKey) (pos : Position) : ℚ :=
  if scope.covers key then pos.costBasisUsd else 0

namespace Portfolio

/-- The fees paid so far, as the report adds them up: those of the closed and of the open
positions. -/
def feesPaidUsd (p : Portfolio) : ℚ :=
  (p.closedPositions.map Position.feesPaidUsd).sum + p.positions.total fun _ pos => pos.feesPaidUsd

/-- The cash, with all the fees paid so far. -/
def funds (p : Portfolio) : ℚ := p.cashUsd + p.feesPaidUsd

/-- The cost basis of the open positions that the scope counts. -/
def costOn (p : Portfolio) (scope : Scope) : ℚ := p.positions.total (costIn scope)

/-- The keys of the open positions. -/
def openKeys (p : Portfolio) : Finset PositionKey := p.positions.keys.toFinset

/-- The portfolio is within its budget: the cash before fees is not negative, the costs are within
the caps of the configuration, and no more positions are open than it allows. -/
structure InBudget (p : Portfolio) : Prop where
  cash : 0 ≤ p.cashUsd + p.feesPaidUsd
  caps : ∀ scope, ∀ cap ∈ p.config.cap scope, p.costOn scope ≤ cap
  slots : ∀ n ∈ p.config.maxOpenPositions, p.positions.entries.length ≤ n

/-- There is room in the budget to spend `amount scope` within each scope and to hold positions
under the keys. -/
structure Room (p : Portfolio) (amount : Scope → ℚ) (keys : Finset PositionKey) : Prop where
  cash : amount .gross ≤ p.funds
  caps : ∀ scope, ∀ cap ∈ p.config.cap scope, p.costOn scope + amount scope ≤ cap
  slots : ∀ n ∈ p.config.maxOpenPositions, (p.openKeys ∪ keys).card ≤ n

variable {p : Portfolio} {amount amount' : Scope → ℚ} {keys keys' : Finset PositionKey}

lemma card_openKeys (p : Portfolio) : p.openKeys.card = p.positions.entries.length := by
  rw [openKeys, Dict.keys, List.toFinset_card_of_nodup p.positions.nodup, List.length_map]

lemma Room.inBudget (h : p.Room amount keys) (hamount : ∀ scope, 0 ≤ amount scope) :
    p.InBudget := by
  refine ⟨(hamount .gross).trans h.cash, fun scope cap hcap => ?_, fun n hn => ?_⟩
  · have hbound := h.caps scope cap hcap
    have hrest := hamount scope
    linarith
  · rw [← card_openKeys]
    exact (Finset.card_le_card Finset.subset_union_left).trans (h.slots n hn)

lemma Room.mono (h : p.Room amount keys) (hamount : ∀ scope, amount' scope ≤ amount scope)
    (hkeys : keys' ⊆ keys) : p.Room amount' keys' := by
  refine ⟨(hamount .gross).trans h.cash, fun scope cap hcap => ?_, fun n hn => ?_⟩
  · have hbound := h.caps scope cap hcap
    have hrest := hamount scope
    linarith
  · exact (Finset.card_le_card (Finset.union_subset_union_right hkeys)).trans (h.slots n hn)

/-! ## What one event spends -/

/-- What an event spends within a scope: the notional of a BUY fill. -/
def spentBy (scope : Scope) : PortfolioEvent → ℚ
  | .fill f slug =>
    if f.side = .buy ∧ scope.covers (f.tokenId, .buy, slug) then f.notionalUsd else 0
  | _ => 0

/-- The position that an event may open. -/
def openedBy : PortfolioEvent → Finset PositionKey
  | .fill f slug => if f.side = .buy then {(f.tokenId, .buy, slug)} else ∅
  | _ => ∅

/-- No price of the event is negative. -/
def NonnegPrice : PortfolioEvent → Prop
  | .fill f _ => 0 ≤ f.price
  | .close _ price _ _ => 0 ≤ price
  | .mark .. => True

/-- No position has a negative cost. -/
def CostNonneg (p : Portfolio) : Prop :=
  ∀ key pos, p.positions.get? key = some pos → 0 ≤ pos.costBasisUsd

/-- A closing fill of a long position brings its notional, fees apart. -/
lemma funds_closeWith (p : Portfolio) {pos : Position} (fill : Fill) (hpos : 0 < pos.size)
    (hside : pos.side = .buy) :
    (p.closeWith pos fill).1.cashUsd + (p.closeWith pos fill).2.feesPaidUsd =
      p.cashUsd + pos.feesPaidUsd + fill.notionalUsd := by
  have hclosed : (pos.applyCloseFill fill).side = .buy ∧
      (pos.applyCloseFill fill).feesPaidUsd = pos.feesPaidUsd + fill.feeUsd := by
    unfold Position.applyCloseFill
    rw [if_neg (not_le.2 hpos)]
    exact ⟨hside, rfl⟩
  unfold closeWith onCashChangeFromClose
  simp only [hclosed.1, hclosed.2]
  ring

/-- A closing fill takes its part of the cost along. -/
lemma cost_closeWith (p : Portfolio) {pos : Position} {fill : Fill} (hpos : 0 < pos.size)
    (hfill : 0 ≤ fill.size) (hcost : 0 ≤ pos.costBasisUsd) :
    0 ≤ (p.closeWith pos fill).2.costBasisUsd ∧
      (p.closeWith pos fill).2.costBasisUsd ≤ pos.costBasisUsd := by
  have hafter : (p.closeWith pos fill).2.costBasisUsd =
      pos.costBasisUsd - pos.costBasisUsd * (min fill.size pos.size / pos.size) := by
    show (pos.applyCloseFill fill).costBasisUsd = _
    unfold Position.applyCloseFill
    rw [if_neg (not_le.2 hpos)]
  have hpart : 0 ≤ min fill.size pos.size / pos.size :=
    div_nonneg (le_min hfill hpos.le) hpos.le
  have hwhole : min fill.size pos.size / pos.size ≤ 1 :=
    (div_le_one hpos).2 (min_le_right _ _)
  rw [hafter]
  constructor <;> nlinarith

lemma costIn_nonneg {scope : Scope} {key : PositionKey} {pos : Position}
    (h : 0 ≤ pos.costBasisUsd) : 0 ≤ costIn scope key pos := by
  unfold costIn
  split
  · exact h
  · exact le_refl 0

/-- What a closing event leaves behind: the position is gone, or it is kept with less. -/
structure Closed (p : Portfolio) (pos pos' : Position) (key : PositionKey) (p' : Portfolio) :
    Prop where
  held : p.positions.get? key = some pos
  funds : p'.cashUsd + pos'.feesPaidUsd ≥ p.cashUsd + pos.feesPaidUsd
  cost : 0 ≤ pos'.costBasisUsd ∧ pos'.costBasisUsd ≤ pos.costBasisUsd
  config : p'.config = p.config
  ends : (p'.positions = p.positions.erase key ∧
      p'.closedPositions = p.closedPositions ++ [pos']) ∨
    (p'.positions = p.positions.set key pos' ∧ p'.closedPositions = p.closedPositions)

namespace Closed

variable {pos pos' : Position} {key : PositionKey} {p' : Portfolio}

lemma funds_le (h : Closed p pos pos' key p') : p.funds ≤ p'.funds := by
  have hshare : p.positions.share (fun _ pos => pos.feesPaidUsd) key = pos.feesPaidUsd :=
    Dict.share_of_some h.held
  have hfunds := h.funds
  unfold Portfolio.funds feesPaidUsd
  rcases h.ends with ⟨hpositions, hclosed⟩ | ⟨hpositions, hclosed⟩
  · rw [hpositions, hclosed, Dict.total_erase, hshare, List.map_append, List.sum_append]
    simp only [List.map_cons, List.map_nil, List.sum_cons, List.sum_nil]
    linarith
  · rw [hpositions, hclosed, Dict.total_set, hshare]
    linarith

lemma costOn_le (h : Closed p pos pos' key p') (hcost : p.CostNonneg) (scope : Scope) :
    p'.costOn scope ≤ p.costOn scope := by
  have hshare : p.positions.share (costIn scope) key = costIn scope key pos :=
    Dict.share_of_some h.held
  unfold costOn
  rcases h.ends with ⟨hpositions, -⟩ | ⟨hpositions, -⟩
  · rw [hpositions, Dict.total_erase, hshare]
    have hpos : 0 ≤ costIn scope key pos := costIn_nonneg (hcost key pos h.held)
    linarith
  · rw [hpositions, Dict.total_set, hshare]
    have hless : costIn scope key pos' ≤ costIn scope key pos := by
      unfold costIn
      split
      · exact h.cost.2
      · exact le_refl 0
    linarith

lemma openKeys_subset (h : Closed p pos pos' key p') : p'.openKeys ⊆ p.openKeys := by
  unfold openKeys
  rcases h.ends with ⟨hpositions, -⟩ | ⟨hpositions, -⟩
  · intro k hk
    rw [List.mem_toFinset, Dict.mem_keys] at hk ⊢
    obtain ⟨v, hv⟩ := hk
    rw [hpositions, Dict.get?_erase] at hv
    split at hv
    · cases hv
    · exact ⟨v, hv⟩
  · rw [hpositions, Dict.keys_set_of_some h.held]

lemma costNonneg (h : Closed p pos pos' key p') (hcost : p.CostNonneg) : p'.CostNonneg := by
  intro k v hv
  rcases h.ends with ⟨hpositions, -⟩ | ⟨hpositions, -⟩
  · rw [hpositions, Dict.get?_erase] at hv
    split at hv
    · cases hv
    · exact hcost k v hv
  · rw [hpositions, Dict.get?_set] at hv
    split at hv
    · cases hv
      exact h.cost.1
    · exact hcost k v hv

/-- A close leaves the room there was. -/
lemma room (h : Closed p pos pos' key p') (hcost : p.CostNonneg) (hroom : p.Room amount keys) :
    p'.Room amount keys := by
  refine ⟨hroom.cash.trans h.funds_le, fun scope cap hcap => ?_, fun n hn => ?_⟩
  · rw [h.config] at hcap
    have hbound := hroom.caps scope cap hcap
    have hless := h.costOn_le hcost scope
    linarith
  · rw [h.config] at hn
    exact (Finset.card_le_card (Finset.union_subset_union_left h.openKeys_subset)).trans
      (hroom.slots n hn)

end Closed

lemma config_closeWith (p : Portfolio) (pos : Position) (fill : Fill) :
    (p.closeWith pos fill).1.config = p.config := by
  unfold closeWith onCashChangeFromClose
  dsimp only
  split <;> rfl

lemma Long.side_eq_buy {key : PositionKey} {pos : Position} (h : p.Long)
    (hget : p.positions.get? key = some pos) : pos.side = .buy := by
  cases hs : pos.side with
  | buy => rfl
  | sell =>
    rw [h.keyed key pos hget, hs, h.noShort] at hget
    cases hget

/-- A SELL fill of a long portfolio closes, wholly or in part, the position it meets. -/
lemma closed_applyFill {f : Fill} {slug : Option Slug} {pos : Position} (h : p.Long)
    (hcost : p.CostNonneg) (hsell : f.side = .sell) (hsize : 0 < f.size) (hprice : 0 ≤ f.price)
    (hget : p.positions.get? (f.tokenId, .buy, slug) = some pos) :
    Closed p pos (p.closeWith pos f).2 (f.tokenId, .buy, slug) (p.applyFill f slug) := by
  have hpos := h.sized _ pos hget
  have hside := h.side_eq_buy hget
  have hfunds := p.funds_closeWith f hpos hside
  have hnotional : 0 ≤ f.notionalUsd := mul_nonneg hprice hsize.le
  have hopp : f.side.opposite = .buy := by rw [hsell]; rfl
  unfold applyFill
  simp only [hopp, hget]
  split
  · refine ⟨hget, ?_, p.cost_closeWith hpos hsize.le (hcost _ pos hget), p.config_closeWith pos f,
      .inl ⟨?_, ?_⟩⟩
    · show (p.closeWith pos f).1.cashUsd + _ ≥ _
      linarith
    · show (p.closeWith pos f).1.positions.erase _ = _
      rw [p.positions_closeWith]
    · show (p.closeWith pos f).1.closedPositions ++ _ = _
      rw [p.closedPositions_closeWith]
  · refine ⟨hget, ?_, p.cost_closeWith hpos hsize.le (hcost _ pos hget), p.config_closeWith pos f,
      .inr ⟨?_, ?_⟩⟩
    · show (p.closeWith pos f).1.cashUsd + _ ≥ _
      linarith
    · show (p.closeWith pos f).1.positions.set _ _ = _
      rw [p.positions_closeWith]
    · exact p.closedPositions_closeWith pos f

/-- A synthetic close of a long portfolio closes its position. -/
lemma closed_closePositionAt {key : PositionKey} {pos : Position} {price : ℚ} (h : p.Long)
    (hcost : p.CostNonneg) (hprice : 0 ≤ price) (hget : p.positions.get? key = some pos)
    (at_ : Time) (b : Bool) :
    Closed p pos (p.closeWith pos (syntheticFill key pos price at_ b)).2 key
      (p.closePositionAt key price at_ b) := by
  have hpos := h.sized key pos hget
  have hside := h.side_eq_buy hget
  have hfunds := p.funds_closeWith (syntheticFill key pos price at_ b) hpos hside
  have hnotional : 0 ≤ (syntheticFill key pos price at_ b).notionalUsd := mul_nonneg hprice hpos.le
  unfold closePositionAt
  simp only [hget]
  refine ⟨hget, ?_, p.cost_closeWith hpos hpos.le (hcost _ pos hget), p.config_closeWith pos _,
    .inl ⟨?_, ?_⟩⟩
  · show (p.closeWith pos _).1.cashUsd + _ ≥ _
    linarith
  · show (p.closeWith pos _).1.positions.erase _ = _
    rw [p.positions_closeWith]
  · show (p.closeWith pos _).1.closedPositions ++ _ = _
    rw [p.closedPositions_closeWith]

/-- A BUY fill of a long portfolio adds to its position. -/
lemma applyFill_buy {f : Fill} (slug : Option Slug) (h : p.Long) (hbuy : f.side = .buy) :
    ∃ pos, pos.costBasisUsd = (p.positions.get? (f.tokenId, .buy, slug)).elim 0
          Position.costBasisUsd + f.notionalUsd ∧
      pos.feesPaidUsd = (p.positions.get? (f.tokenId, .buy, slug)).elim 0
          Position.feesPaidUsd + f.feeUsd ∧
      p.applyFill f slug = { p with
        positions := p.positions.set (f.tokenId, .buy, slug) pos
        cashUsd := p.cashUsd - (f.notionalUsd + f.feeUsd) } := by
  have hnone : p.positions.get? (f.tokenId, f.side.opposite, slug) = none := by
    rw [hbuy]
    exact h.noShort f.tokenId slug
  unfold applyFill
  simp only [hnone]
  simp only [hbuy]
  refine ⟨_, ?_, ?_, rfl⟩
  · cases p.positions.get? (f.tokenId, .buy, slug) <;> rfl
  · cases p.positions.get? (f.tokenId, .buy, slug) <;> rfl

/-- A BUY fill uses up the room of its notional and of its position. -/
lemma Room.buy {f : Fill} {slug : Option Slug} (h : p.Long) (hbuy : f.side = .buy)
    (hroom : p.Room (fun scope => spentBy scope (.fill f slug) + amount scope)
      (openedBy (.fill f slug) ∪ keys)) : (p.applyFill f slug).Room amount keys := by
  obtain ⟨pos, hcost, hfees, happly⟩ := applyFill_buy slug h hbuy
  set key : PositionKey := (f.tokenId, .buy, slug) with hkey
  rw [happly]
  refine ⟨?_, fun scope cap hcap => ?_, fun n hn => ?_⟩
  · have hcash := hroom.cash
    have hshare : p.positions.share (fun _ pos => pos.feesPaidUsd) key =
        (p.positions.get? key).elim 0 Position.feesPaidUsd := rfl
    simp only [spentBy, hbuy, Scope.covers, and_self, if_true] at hcash
    unfold funds feesPaidUsd at hcash ⊢
    simp only [Dict.total_set, hshare, hfees]
    linarith
  · have hbound := hroom.caps scope cap hcap
    have hshare : p.positions.share (costIn scope) key =
        if scope.covers key then (p.positions.get? key).elim 0 Position.costBasisUsd else 0 := by
      cases hget : p.positions.get? key with
      | none => simp [Dict.share, hget]
      | some old => simp [Dict.share, hget, costIn]
    have hadds : costIn scope key pos = p.positions.share (costIn scope) key +
        spentBy scope (.fill f slug) := by
      have hspent : spentBy scope (.fill f slug) =
          if scope.covers key then f.notionalUsd else 0 := by
        simp [spentBy, hbuy, hkey]
      rw [hshare, hspent, costIn, hcost]
      split
      · rfl
      · exact (add_zero 0).symm
    unfold costOn at hbound ⊢
    simp only [Dict.total_set, hadds]
    linarith
  · refine (Finset.card_le_card ?_).trans (hroom.slots n hn)
    intro k hk
    simp only [openedBy, hbuy, if_true, openKeys, Finset.mem_union, List.mem_toFinset,
      Finset.mem_singleton, Dict.mem_keys, Dict.get?_set] at hk ⊢
    rcases hk with ⟨v, hv⟩ | hk
    · split at hv
      · next heq => exact .inr (.inl heq.symm)
      · exact .inl ⟨v, hv⟩
    · exact .inr (.inr hk)

/-- A mark changes neither the cash nor what the positions have cost. -/
lemma Room.mark (hroom : p.Room amount keys) (token : TokenId) (price : ℚ) (at_ : Time) :
    (p.mark token price at_).Room amount keys := by
  have htotal : ∀ g : PositionKey → Position → ℚ,
      (∀ key pos, g key (pos.mark price at_) = g key pos) →
      (p.mark token price at_).positions.total g = p.positions.total g := by
    intro g hg
    refine Dict.total_mapVal (fun key pos => ?_) p.positions
    split
    · exact hg key pos
    · rfl
  have hkeys : (p.mark token price at_).openKeys = p.openKeys := by
    unfold openKeys Portfolio.mark
    rw [Dict.mapVal_keys]
  refine ⟨?_, fun scope cap hcap => ?_, fun n hn => ?_⟩
  · have hfees := htotal (fun _ pos => pos.feesPaidUsd) fun _ _ => rfl
    have hcash := hroom.cash
    unfold funds feesPaidUsd at hcash ⊢
    rw [hfees]
    exact hcash
  · have hcost := htotal (costIn scope) fun _ _ => rfl
    unfold costOn
    rw [hcost]
    exact hroom.caps scope cap hcap
  · rw [hkeys]
    exact hroom.slots n hn

/-- The invariant of a portfolio that buys first and sells what it holds. -/
structure Funded (p : Portfolio) : Prop where
  long : p.Long
  costNonneg : p.CostNonneg

lemma funded_init (cfg : PortfolioConfig) : (init cfg).Funded := by
  refine ⟨long_init cfg, fun key pos hget => ?_⟩
  cases hget

/-- A SELL fill that is covered meets a position. -/
lemma exists_position_of_covers {f : Fill} {slug : Option Slug} (hsell : f.side = .sell)
    (hsize : 0 < f.size) (hcovers : p.Covers (.fill f slug)) :
    ∃ pos, p.positions.get? (f.tokenId, .buy, slug) = some pos := by
  cases hget : p.positions.get? (f.tokenId, .buy, slug) with
  | some pos => exact ⟨pos, rfl⟩
  | none =>
    have hle := hcovers hsell
    rw [sizeAt, hget, Option.elim_none] at hle
    exact absurd hle (not_le.2 hsize)

/-- What every event does to a portfolio that buys first and sells what it holds: it opens or
adds, it closes, or it changes neither cash nor cost. -/
lemma Funded.step_cases {ev : PortfolioEvent} (h : p.Funded) (hpos : ev.Positive)
    (hcovers : p.Covers ev) (hprice : NonnegPrice ev) :
    (∃ f slug, ev = .fill f slug ∧ f.side = .buy ∧ p.step ev = p.applyFill f slug) ∨
      (∃ pos pos' key, Closed p pos pos' key (p.step ev)) ∨
      (∃ token price at_, p.step ev = p.mark token price at_) ∨ p.step ev = p := by
  cases ev with
  | fill f slug =>
    cases hside : f.side with
    | buy => exact .inl ⟨f, slug, rfl, hside, rfl⟩
    | sell =>
      obtain ⟨pos, hget⟩ := exists_position_of_covers hside hpos hcovers
      exact .inr (.inl ⟨pos, _, _, closed_applyFill h.long h.costNonneg hside hpos hprice hget⟩)
  | close key price at_ b =>
    cases hget : p.positions.get? key with
    | none => exact .inr (.inr (.inr (closePositionAt_of_none hget price at_ b)))
    | some pos =>
      exact .inr (.inl ⟨pos, _, key,
        closed_closePositionAt h.long h.costNonneg hprice hget at_ b⟩)
  | mark token price at_ => exact .inr (.inr (.inl ⟨token, price, at_, rfl⟩))

lemma Funded.step {ev : PortfolioEvent} (h : p.Funded) (hpos : ev.Positive)
    (hcovers : p.Covers ev) (hprice : NonnegPrice ev) : (p.step ev).Funded := by
  refine ⟨h.long.step hpos hcovers, ?_⟩
  rcases h.step_cases hpos hcovers hprice with
    ⟨f, slug, rfl, hbuy, -⟩ | ⟨pos, pos', key, hclosed⟩ | ⟨token, price, at_, hmark⟩ | hsame
  · obtain ⟨pos, hcost, -, happly⟩ := applyFill_buy slug h.long hbuy
    have hnotional : 0 ≤ f.notionalUsd := mul_nonneg hprice (le_of_lt hpos)
    intro key old hget
    rw [Portfolio.step, happly] at hget
    simp only [Dict.get?_set] at hget
    split at hget
    · cases hget
      rw [hcost]
      cases hown : p.positions.get? (f.tokenId, .buy, slug) with
      | none => simpa using hnotional
      | some old => exact add_nonneg (h.costNonneg _ old hown) hnotional
    · exact h.costNonneg key old hget
  · exact hclosed.costNonneg h.costNonneg
  · rw [hmark]
    intro key pos hget
    simp only [Portfolio.mark, Dict.get?_mapVal, Option.map_eq_some_iff] at hget
    obtain ⟨old, hold, rfl⟩ := hget
    have hcost := h.costNonneg key old hold
    split <;> exact hcost
  · rw [hsame]
    exact h.costNonneg

lemma spentBy_nonneg {ev : PortfolioEvent} (hpos : ev.Positive) (hprice : NonnegPrice ev)
    (scope : Scope) : 0 ≤ spentBy scope ev := by
  cases ev with
  | fill f slug =>
    have hnotional : 0 ≤ f.notionalUsd := mul_nonneg hprice (le_of_lt hpos)
    unfold spentBy
    dsimp only
    split
    · exact hnotional
    · exact le_refl 0
  | close key price at_ b => exact le_of_eq rfl
  | mark token price at_ => exact le_of_eq rfl

/-- An event uses up no more room than it spends. -/
lemma Room.step {ev : PortfolioEvent} (h : p.Funded) (hpos : ev.Positive) (hcovers : p.Covers ev)
    (hprice : NonnegPrice ev)
    (hroom : p.Room (fun scope => spentBy scope ev + amount scope) (openedBy ev ∪ keys)) :
    (p.step ev).Room amount keys := by
  have hless : p.Room amount keys :=
    hroom.mono (fun scope => le_add_of_nonneg_left (spentBy_nonneg hpos hprice scope))
      Finset.subset_union_right
  rcases h.step_cases hpos hcovers hprice with
    ⟨f, slug, rfl, hbuy, -⟩ | ⟨pos, pos', key, hclosed⟩ | ⟨token, price, at_, hmark⟩ | hsame
  · exact hroom.buy h.long hbuy
  · exact hclosed.room h.costNonneg hless
  · rw [hmark]
    exact hless.mark token price at_
  · rw [hsame]
    exact hless

/-- A close at a price that is not negative leaves the room there was. -/
lemma Room.closes {evs : List PortfolioEvent} (hroom : p.Room amount keys) (h : p.Funded)
    (hevs : ∀ ev ∈ evs, ∃ key price at_ b, ev = .close key price at_ b ∧ 0 ≤ price) :
    (p.replay evs).Funded ∧ (p.replay evs).Room amount keys := by
  induction evs generalizing p with
  | nil => exact ⟨h, hroom⟩
  | cons ev evs ih =>
    obtain ⟨key, price, at_, b, rfl, hprice⟩ := hevs ev List.mem_cons_self
    refine ih (Room.step h trivial trivial hprice ?_) (h.step trivial trivial hprice)
      fun ev hev => hevs ev (List.mem_cons_of_mem _ hev)
    exact hroom.mono (fun scope => (zero_add (amount scope)).le)
      (Finset.empty_union keys).subset

/-! ## A batch of fills -/

/-- What the events of a batch spend within a scope. -/
def spentIn (scope : Scope) (evs : List PortfolioEvent) : ℚ := (evs.map (spentBy scope)).sum

/-- The positions that the events of a batch may open. -/
def openedIn (evs : List PortfolioEvent) : Finset PositionKey :=
  evs.foldr (fun ev keys => openedBy ev ∪ keys) ∅

@[simp] lemma spentIn_cons (scope : Scope) (ev : PortfolioEvent) (evs : List PortfolioEvent) :
    spentIn scope (ev :: evs) = spentBy scope ev + spentIn scope evs := by
  simp [spentIn]

lemma spentIn_nonneg {evs : List PortfolioEvent} (hpos : ∀ ev ∈ evs, ev.Positive)
    (hprices : ∀ ev ∈ evs, NonnegPrice ev) (scope : Scope) : 0 ≤ spentIn scope evs := by
  refine List.sum_nonneg fun x hx => ?_
  obtain ⟨ev, hev, rfl⟩ := List.mem_map.1 hx
  exact spentBy_nonneg (hpos ev hev) (hprices ev hev) scope

/-- A batch that has room before it starts leaves its portfolio within the budget event by
event. -/
lemma Room.batch {evs : List PortfolioEvent} (h : p.Funded)
    (hsafe : EveryStep Portfolio.step Safe p evs) (hpos : ∀ ev ∈ evs, ev.Positive)
    (hprices : ∀ ev ∈ evs, NonnegPrice ev) (hamount : ∀ scope, 0 ≤ amount scope)
    (hroom : p.Room (fun scope => spentIn scope evs + amount scope) (openedIn evs ∪ keys)) :
    EveryStep Portfolio.step (fun p ev => (p.step ev).InBudget) p evs ∧
      (p.replay evs).Funded ∧ (p.replay evs).Room amount keys := by
  induction evs generalizing p with
  | nil => exact ⟨trivial, h, by simpa [spentIn, openedIn] using hroom⟩
  | cons ev evs ih =>
    have hprice := hprices ev List.mem_cons_self
    have hpos' : ∀ ev ∈ evs, ev.Positive := fun ev hev => hpos ev (List.mem_cons_of_mem _ hev)
    have hprices' : ∀ ev ∈ evs, NonnegPrice ev :=
      fun ev hev => hprices ev (List.mem_cons_of_mem _ hev)
    -- what the event spends comes out of the room, the rest of the batch still has its own
    have hone : (p.step ev).Room (fun scope => spentIn scope evs + amount scope)
        (openedIn evs ∪ keys) := by
      refine Room.step h hsafe.1.1 hsafe.1.2.1 hprice (hroom.mono (fun scope => ?_) ?_)
      · rw [spentIn_cons, add_assoc]
      · rw [← Finset.union_assoc]
        rfl
    have hbudget : (p.step ev).InBudget := hone.inBudget fun scope =>
      add_nonneg (spentIn_nonneg hpos' hprices' scope) (hamount scope)
    obtain ⟨hrest, hend⟩ := ih (h.step hsafe.1.1 hsafe.1.2.1 hprice) hsafe.2 hpos' hprices' hone
    exact ⟨⟨hbudget, hrest⟩, hend⟩

end Portfolio

end Evosport.Backtest
