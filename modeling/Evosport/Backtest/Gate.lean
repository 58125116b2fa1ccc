/-
The pre-trade gate keeps the budget, as long as what it lets through fits.

`can_submit` compares an intent with the portfolio as it has been filled so far: the orders that
are in flight or resting are not counted, the limit is compared before the venue rounds it, and
every comparison grants a tolerance.  `Fits` is the test without these gaps: what the live entry
orders may still spend at their limits counts as spent.  A run in which the gate lets nothing
through that does not fit stays within its budget (`keepsBudget_of_fits`); two intents that are
in flight together need not (`twoInFlight_exceed`).
-/
import Evosport.Backtest.Budget

namespace Evosport.Backtest

open Lib

/-- The key of the position that an order adds to. -/
def entryKey (o : BacktestOrder) : PositionKey := (o.tokenId, .buy, o.strategySlug)

namespace MatchingEngine

variable {cfg : MatchingConfig} {e e' : MatchingEngine} {o o' : BacktestOrder} {scope : Scope}

/-! ## What the live entry orders may still spend -/

/-- What one share of an order may cost within a scope: the limit of a BUY order. -/
def shareCost (scope : Scope) (o : BacktestOrder) : ℚ :=
  if o.side = .buy ∧ scope.covers (entryKey o) then max 0 o.price else 0

/-- What the live BUY orders may still spend within a scope, at their limits. -/
def committed (e : MatchingEngine) (scope : Scope) : ℚ := outstanding (shareCost scope) e

/-- The order is a live BUY order. -/
def IsLiveEntry (o : BacktestOrder) : Prop := o.side = .buy ∧ o.isTerminal = false

instance (o : BacktestOrder) : Decidable (IsLiveEntry o) := inferInstanceAs (Decidable (_ ∧ _))

/-- The positions that the live BUY orders may open. -/
def entryKeys (e : MatchingEngine) : Finset PositionKey :=
  ((e.allOrders.filter fun o => IsLiveEntry o).map entryKey).toFinset

lemma kept_shareCost (scope : Scope) : Kept (shareCost scope) :=
  kept_of_terms fun t =>
    if t.1 = .buy ∧ scope.covers (t.2.1, .buy, t.2.2.1) then max 0 t.2.2.2 else 0

lemma shareCost_nonneg (scope : Scope) (o : BacktestOrder) : 0 ≤ shareCost scope o := by
  unfold shareCost
  split
  · exact le_max_left _ _
  · exact le_refl 0

lemma committed_nonneg (e : MatchingEngine) (scope : Scope) : 0 ≤ e.committed scope :=
  outstanding_nonneg (shareCost_nonneg scope) e

lemma mem_entryKeys {key : PositionKey} :
    key ∈ e.entryKeys ↔ ∃ id o, e.orders.get? id = some o ∧ IsLiveEntry o ∧ entryKey o = key := by
  simp only [entryKeys, List.mem_toFinset, List.mem_map, List.mem_filter, decide_eq_true_eq,
    allOrders, Dict.mem_values]
  constructor
  · rintro ⟨o, ⟨⟨id, hget⟩, hlive⟩, hkey⟩
    exact ⟨id, o, hget, hlive, hkey⟩
  · rintro ⟨id, o, hget, hlive, hkey⟩
    exact ⟨o, ⟨⟨id, hget⟩, hlive⟩, hkey⟩

/-- The live entries of a later state are live entries of an earlier one. -/
lemma LiveFrom.entryKeys_subset {e₀ : MatchingEngine} (h : LiveFrom e₀ e) :
    e.entryKeys ⊆ e₀.entryKeys := by
  intro key hkey
  obtain ⟨id, o, hget, ⟨hbuy, hlive⟩, rfl⟩ := mem_entryKeys.1 hkey
  obtain ⟨o₀, hget₀, hlive₀, hterms⟩ := h id o hget hlive
  have hside : o.side = o₀.side := congrArg Prod.fst hterms
  refine mem_entryKeys.2 ⟨id, o₀, hget₀, ⟨hside ▸ hbuy, hlive₀⟩, ?_⟩
  have hsame : entryKey o = entryKey o₀ :=
    congrArg (fun t => ((t.2.1, .buy, t.2.2.1) : PositionKey)) hterms
  exact hsame.symm

/-- A new order adds at most its own key. -/
lemma Submitted.entryKeys_subset {order : BacktestOrder} (hs : Submitted cfg e order o' e') :
    e'.entryKeys ⊆ if IsLiveEntry o' then insert (entryKey o') e.entryKeys else e.entryKeys := by
  intro key hkey
  obtain ⟨id, o, hget, hlive, rfl⟩ := mem_entryKeys.1 hkey
  rw [hs.orders, Dict.get?_set] at hget
  split at hget
  · cases hget
    rw [if_pos hlive]
    exact Finset.mem_insert_self _ _
  · have hmem := mem_entryKeys.2 ⟨id, o, hget, hlive, rfl⟩
    split
    · exact Finset.mem_insert_of_mem hmem
    · exact hmem

/-- A new order that is no live entry commits nothing. -/
lemma openWeight_shareCost_of_not (h : ¬ IsLiveEntry o) (scope : Scope) :
    openWeight (shareCost scope) o = 0 := by
  unfold openWeight
  by_cases hbuy : o.side = .buy
  · have hterm : o.isTerminal = true := by
      by_contra hlive
      exact h ⟨hbuy, by simpa using hlive⟩
    rw [if_pos hterm]
  · have hfree : shareCost scope o = 0 := if_neg fun hb => hbuy hb.1
    rw [hfree, mul_zero]
    split <;> rfl

/-- An order that is not turned down is kept at the price of the venue's decision. -/
lemma submit_price {order : BacktestOrder} (h : e.submit cfg order = .ok e')
    (hs : Submitted cfg e order o' e') (hlive : o'.isTerminal = false) :
    (cfg.venue.validateSubmit order.side order.price order.size order.tif order.postOnly).ok =
        true ∧
      o'.price = (cfg.venue.validateSubmit order.side order.price order.size order.tif
        order.postOnly).adjustedPrice.getD order.price := by
  have hget : e'.orders.get? order.orderId = some o' := by
    rw [hs.orders, ← hs.orderId, Dict.get?_set_self]
  unfold submit at h
  split at h
  · cases h
  simp only at h
  split at h
  · cases h
    simp only [putOrder, Dict.get?_set_self, Option.some.injEq] at hget
    rw [← hget] at hlive
    cases hlive
  · next hok =>
    cases h
    simp only [putOrder, Dict.get?_set_self, Option.some.injEq] at hget
    refine ⟨by simpa using hok, ?_⟩
    rw [← hget]

end MatchingEngine

namespace TradeIntent

/-- What the venue decides about the order of an intent. -/
def decision (cfg : MatchingConfig) (intent : TradeIntent) : SubmitDecision :=
  cfg.venue.validateSubmit intent.side intent.limitPrice intent.size intent.tif intent.postOnly

/-- What the order of an intent may spend, at the size and the limit that the venue keeps. -/
def notional (cfg : MatchingConfig) (intent : TradeIntent) : ℚ :=
  max 0 ((intent.decision cfg).adjustedSize.getD intent.size) *
    max 0 ((intent.decision cfg).adjustedPrice.getD intent.limitPrice)

/-- The key of the position that an intent adds to. -/
def key (intent : TradeIntent) : PositionKey := (intent.tokenId, .buy, intent.strategySlug)

end TradeIntent

namespace BacktestEngine

variable {σ : Type} {cfg : BacktestConfig} {strat : Option (Strategy σ)} {st : σ}
  {intents : List TradeIntent} {snapshots : List BookSnapshot} {e e' : BacktestEngine σ}
  {intent : TradeIntent} {snap : BookSnapshot}

/-! ## The condition on the gate -/

/-- The order of an intent fits into the budget: its notional, on top of what has been spent and
of what the live entry orders may still spend, and its position, on top of the open ones and of
those that the live entry orders may open. -/
structure Fits (cfg : BacktestConfig) (e : BacktestEngine σ) (intent : TradeIntent) : Prop where
  cash : e.matching.committed .gross + intent.notional cfg.matching ≤ e.portfolio.funds
  caps : ∀ scope ∈ Scope.ofKey intent.key, ∀ cap ∈ e.portfolio.config.cap scope,
    e.portfolio.costOn scope + e.matching.committed scope + intent.notional cfg.matching ≤ cap
  slots : ∀ n ∈ e.portfolio.config.maxOpenPositions,
    (e.portfolio.openKeys ∪ insert intent.key e.matching.entryKeys).card ≤ n

/-- What the gate lets through and the venue accepts fits. -/
def GateFits (cfg : BacktestConfig) (e : BacktestEngine σ) (intent : TradeIntent) : Prop :=
  e.portfolio.canSubmit intent.tokenId intent.side intent.limitPrice intent.size
      intent.strategySlug = none →
    (intent.decision cfg.matching).ok = true → Fits cfg e intent

/-- Every intent that a drain submits meets `C`, in the state before it. -/
def EveryEntry (cfg : BacktestConfig) (C : BacktestEngine σ → TradeIntent → Prop) (now : Time) :
    List TradeIntent → BacktestEngine σ → Prop
  | [], _ => True
  | intent :: rest, e =>
    if intent.emittedAt ≤ now then
      let counted := { e with intentsDrained := e.intentsDrained + 1 }
      C counted intent ∧
        match submitEntry cfg intent counted with
        | .ok e' => EveryEntry cfg C now rest e'
        | .error _ => True
    else True

/-- The advance of a snapshot meets no negative price, and its takers reach nothing beyond their
limits. -/
structure FairAdvance (cfg : MatchingConfig) (m : MatchingEngine) (snap : BookSnapshot) : Prop where
  levels : ∀ l ∈ snap.bids ++ snap.asks, 0 ≤ l.price
  limits : ∀ o ∈ m.allOrders, o.isTerminal = false → 0 ≤ o.price
  reach : MatchingEngine.EveryAdmission cfg snap (MatchingEngine.AdmitExact cfg snap)
    (MatchingEngine.openInterval cfg snap m)

/-- A processed snapshot whose entries fit and whose advance is fair. -/
def FitsOn (cfg : BacktestConfig) (e : BacktestEngine σ) (snap : BookSnapshot) : Prop :=
  let settled := settleDue cfg snap.observedAt e
  settled.involved snap = true →
    EveryEntry cfg (GateFits cfg) snap.observedAt
        (settled.pendingIntents.drop settled.intentsDrained) settled ∧
      match drainIntents cfg snap.observedAt settled with
      | .ok drained => FairAdvance cfg.matching drained.matching snap
      | .error _ => True

/-- The entries of the snapshot fit, its advance is fair, and its exits are covered. -/
structure Budgeted (cfg : BacktestConfig) (e : BacktestEngine σ) (snap : BookSnapshot) : Prop where
  fits : FitsOn cfg e snap
  safe : SafeSnapshot cfg e snap

/-- The capital, the caps and the redemption prices are not negative, which the code takes for
granted of its configuration. -/
structure NonnegConfig (cfg : BacktestConfig) : Prop where
  capital : 0 ≤ cfg.portfolio.initialCapitalUsd
  caps : ∀ scope, ∀ cap ∈ cfg.portfolio.cap scope, 0 ≤ cap
  redemptions : ∀ token s, cfg.settlements.get? token = some s → ∀ price ∈ s.settlePrice, 0 ≤ price

instance (cfg : BacktestConfig) (e : BacktestEngine σ) (intent : TradeIntent) :
    Decidable (Fits cfg e intent) :=
  decidable_of_iff
    ((e.matching.committed .gross + intent.notional cfg.matching ≤ e.portfolio.funds ∧
      ∀ scope ∈ Scope.ofKey intent.key, ∀ cap ∈ e.portfolio.config.cap scope,
        e.portfolio.costOn scope + e.matching.committed scope +
          intent.notional cfg.matching ≤ cap) ∧
      ∀ n ∈ e.portfolio.config.maxOpenPositions,
        (e.portfolio.openKeys ∪ insert intent.key e.matching.entryKeys).card ≤ n)
    ⟨fun h => ⟨h.1.1, h.1.2, h.2⟩, fun h => ⟨⟨h.cash, h.caps⟩, h.slots⟩⟩

instance (cfg : BacktestConfig) (e : BacktestEngine σ) (intent : TradeIntent) :
    Decidable (GateFits cfg e intent) :=
  inferInstanceAs (Decidable (_ → _ → _))

instance EveryEntry.instDecidable (cfg : BacktestConfig)
    {C : BacktestEngine σ → TradeIntent → Prop} [∀ e intent, Decidable (C e intent)] (now : Time) :
    ∀ (intents : List TradeIntent) (e : BacktestEngine σ),
      Decidable (EveryEntry cfg C now intents e)
  | [], _ => isTrue trivial
  | intent :: rest, e =>
    let counted := { e with intentsDrained := e.intentsDrained + 1 }
    have : Decidable (match submitEntry cfg intent counted with
        | .ok e' => EveryEntry cfg C now rest e'
        | .error _ => True) :=
      match submitEntry cfg intent counted with
      | .ok e' => EveryEntry.instDecidable cfg now rest e'
      | .error _ => isTrue trivial
    if hdue : intent.emittedAt ≤ now then
      decidable_of_iff (C counted intent ∧ match submitEntry cfg intent counted with
        | .ok e' => EveryEntry cfg C now rest e'
        | .error _ => True) (by rw [EveryEntry, if_pos hdue])
    else isTrue (by rw [EveryEntry, if_neg hdue]; trivial)

instance (cfg : MatchingConfig) (m : MatchingEngine) (snap : BookSnapshot) :
    Decidable (FairAdvance cfg m snap) :=
  have : Decidable (MatchingEngine.EveryAdmission cfg snap (MatchingEngine.AdmitExact cfg snap)
      (MatchingEngine.openInterval cfg snap m)) :=
    inferInstanceAs (Decidable (EveryStep _ _ _ _))
  decidable_of_iff ((∀ l ∈ snap.bids ++ snap.asks, 0 ≤ l.price) ∧
      (∀ o ∈ m.allOrders, o.isTerminal = false → 0 ≤ o.price) ∧
      MatchingEngine.EveryAdmission cfg snap (MatchingEngine.AdmitExact cfg snap)
        (MatchingEngine.openInterval cfg snap m))
    ⟨fun h => ⟨h.1, h.2.1, h.2.2⟩, fun h => ⟨h.levels, h.limits, h.reach⟩⟩

instance (cfg : BacktestConfig) (e : BacktestEngine σ) (snap : BookSnapshot) :
    Decidable (FitsOn cfg e snap) :=
  let settled := settleDue cfg snap.observedAt e
  have : Decidable (match drainIntents cfg snap.observedAt settled with
      | .ok drained => FairAdvance cfg.matching drained.matching snap
      | .error _ => True) :=
    match drainIntents cfg snap.observedAt settled with
    | .ok drained => inferInstanceAs (Decidable (FairAdvance cfg.matching drained.matching snap))
    | .error _ => isTrue trivial
  inferInstanceAs (Decidable (_ → _ ∧ _))

instance (cfg : BacktestConfig) (e : BacktestEngine σ) (snap : BookSnapshot) :
    Decidable (Budgeted cfg e snap) :=
  decidable_of_iff (FitsOn cfg e snap ∧ SafeSnapshot cfg e snap)
    ⟨fun h => ⟨h.1, h.2⟩, fun h => ⟨h.fits, h.safe⟩⟩

/-! ## The gate keeps the room -/

/-- There is room for all that the live entry orders may still spend. -/
def HasRoom (e : BacktestEngine σ) : Prop :=
  e.portfolio.Room e.matching.committed e.matching.entryKeys

/-- The order of an intent commits its notional. -/
lemma openWeight_entry {o : BacktestOrder} (hlive : MatchingEngine.IsLiveEntry o)
    (hfresh : o.filledSize = 0)
    (hsize : o.size = (intent.decision cfg.matching).adjustedSize.getD intent.size)
    (hprice : o.price = (intent.decision cfg.matching).adjustedPrice.getD intent.limitPrice)
    (hkey : entryKey o = intent.key) (scope : Scope) :
    MatchingEngine.openWeight (MatchingEngine.shareCost scope) o =
      if scope.covers intent.key then intent.notional cfg.matching else 0 := by
  rw [MatchingEngine.openWeight, hlive.2, MatchingEngine.shareCost, hkey,
    BacktestOrder.remainingSize, hfresh, sub_zero, hsize, hprice]
  by_cases hcovers : scope.covers intent.key = true
  · simp only [hlive.1, hcovers, and_self, if_true]
    rfl
  · simp [hcovers]

/-- A new order that is no live entry leaves the room there was. -/
lemma room_of_not_entry {p : Portfolio} {m m' : MatchingEngine} {o o' : BacktestOrder}
    (hs : MatchingEngine.Submitted cfg.matching m o o' m') (hno : ¬ MatchingEngine.IsLiveEntry o')
    (hroom : p.Room m.committed m.entryKeys) : p.Room m'.committed m'.entryKeys := by
  have hkeys := hs.entryKeys_subset
  rw [if_neg hno] at hkeys
  refine hroom.mono (fun scope => ?_) hkeys
  rw [MatchingEngine.committed, hs.outstanding_eq,
    MatchingEngine.openWeight_shareCost_of_not hno, add_zero]
  rfl

/-- An intent that fits leaves room for its order. -/
lemma HasRoom.submitEntry (hroom : HasRoom e) (hfits : GateFits cfg e intent)
    (h : submitEntry cfg intent e = .ok e') : HasRoom e' := by
  unfold BacktestEngine.submitEntry at h
  split at h
  · cases h
    exact hroom
  · next hgate =>
    simp only at h
    split at h
    · cases h
    · next m hm =>
      cases h
      obtain ⟨o', hs⟩ := MatchingEngine.submit_cases ⟨rfl, rfl⟩ hm
      have hkey : entryKey o' = intent.key := by
        rw [entryKey, hs.tokenId, hs.strategySlug]
        rfl
      by_cases hlive : MatchingEngine.IsLiveEntry o'
      · obtain ⟨hok, hprice⟩ := MatchingEngine.submit_price hm hs hlive.2
        have hfit : Fits cfg e intent := hfits hgate hok
        have hspend : ∀ scope, m.committed scope = e.matching.committed scope +
            if scope.covers intent.key then intent.notional cfg.matching else 0 := by
          intro scope
          have hsize : o'.size = (intent.decision cfg.matching).adjustedSize.getD intent.size :=
            hs.size.trans (if_pos hok)
          have hadds := openWeight_entry hlive hs.fresh.filledSize hsize hprice hkey scope
          rw [MatchingEngine.committed, hs.outstanding_eq, hadds]
          rfl
        have hkeys := hs.entryKeys_subset
        rw [if_pos hlive, hkey] at hkeys
        show e.portfolio.Room m.committed m.entryKeys
        refine ⟨?_, fun scope cap hcap => ?_, fun n hn => ?_⟩
        · have hcash := hfit.cash
          rw [hspend]
          exact hcash
        · rw [hspend]
          by_cases hcovers : scope.covers intent.key = true
          · have hcap' := hfit.caps scope (Scope.mem_ofKey.2 hcovers) cap hcap
            rw [if_pos hcovers, ← add_assoc]
            exact hcap'
          · rw [if_neg hcovers, add_zero]
            exact hroom.caps scope cap hcap
        · exact (Finset.card_le_card (Finset.union_subset_union_right hkeys)).trans
            (hfit.slots n hn)
      · -- an order that is turned down commits nothing
        exact room_of_not_entry hs hlive hroom

/-- Draining intents that fit leaves room for their orders. -/
lemma HasRoom.drainLoop {now : Time} {intents : List TradeIntent} (hroom : HasRoom e)
    (hfits : EveryEntry cfg (GateFits cfg) now intents e)
    (h : drainLoop cfg now intents e = .ok e') : HasRoom e' := by
  induction intents generalizing e with
  | nil =>
    cases h
    exact hroom
  | cons intent rest ih =>
    unfold BacktestEngine.drainLoop at h
    unfold EveryEntry at hfits
    split at h
    · next hdue =>
      rw [if_pos hdue] at hfits
      rw [except_bind_eq_ok] at h
      obtain ⟨e₁, he₁, h⟩ := h
      simp only [he₁] at hfits
      -- counting the intent as drained touches neither the portfolio nor the orders
      have hcounted : HasRoom { e with intentsDrained := e.intentsDrained + 1 } := hroom
      exact ih (hcounted.submitEntry hfits.1 he₁) hfits.2 h
    · cases h
      exact hroom

/-! ## The fills keep the budget -/

variable {m m' : MatchingEngine} {fills : List Fill}

/-- A fill of an advance with its order, before and after. -/
lemma fillOf_records {f : Fill} (hterms : MatchingEngine.recordOf MatchingEngine.terms m' =
      MatchingEngine.recordOf MatchingEngine.terms m) (hfill : MatchingEngine.FillOf m f) :
    ∃ o o', m.orders.get? f.orderId = some o ∧ o.isTerminal = false ∧ o.side = f.side ∧
      m'.orders.get? f.orderId = some o' ∧ entryKey o = (f.tokenId, .buy, o'.strategySlug) := by
  obtain ⟨o, hget, hlive, hside, htoken⟩ := hfill
  have hrecord := congrFun hterms f.orderId
  rw [MatchingEngine.recordOf, MatchingEngine.recordOf, hget, Option.map_some,
    Option.map_eq_some_iff] at hrecord
  obtain ⟨o', hget', hsame⟩ := hrecord
  have hslug : o'.strategySlug = o.strategySlug := congrArg (fun t => t.2.2.1) hsame
  exact ⟨o, o', hget, hlive, hside, hget', by rw [entryKey, htoken, hslug]⟩

lemma fillEvents_cons {f : Fill} {o : BacktestOrder} (hget : m.orders.get? f.orderId = some o)
    (fills : List Fill) :
    fillEvents m (f :: fills) = .fill f o.strategySlug :: fillEvents m fills := by
  unfold fillEvents
  rw [List.filterMap_cons_some]
  rw [hget, Option.map_some]

/-- What the fills of an advance spend is at most what their orders had committed. -/
lemma spentIn_fillEvents (hterms : MatchingEngine.recordOf MatchingEngine.terms m' =
      MatchingEngine.recordOf MatchingEngine.terms m)
    (hfills : ∀ f ∈ fills, 0 < f.size ∧ MatchingEngine.FillOf m f ∧ MatchingEngine.PricedWithin m f)
    (scope : Scope) :
    Portfolio.spentIn scope (fillEvents m' fills) ≤
      MatchingEngine.filledWeight (MatchingEngine.shareCost scope) m fills := by
  induction fills with
  | nil => exact le_of_eq rfl
  | cons f fills ih =>
    obtain ⟨hpos, hfill, ⟨o₁, hget₁, hwithin, -⟩⟩ := hfills f List.mem_cons_self
    obtain ⟨o, o', hget, -, hside, hget', hkey⟩ := fillOf_records hterms hfill
    obtain rfl : o₁ = o := Option.some.inj (hget₁.symm.trans hget)
    have hrest := ih fun g hg => hfills g (List.mem_cons_of_mem _ hg)
    have hweight : MatchingEngine.filledWeight (MatchingEngine.shareCost scope) m (f :: fills) =
        f.size * MatchingEngine.shareCost scope o₁ +
          MatchingEngine.filledWeight (MatchingEngine.shareCost scope) m fills := by
      simp [MatchingEngine.filledWeight, MatchingEngine.recordOf, hget]
    have hone : Portfolio.spentBy scope (.fill f o'.strategySlug) ≤
        f.size * MatchingEngine.shareCost scope o₁ := by
      unfold Portfolio.spentBy MatchingEngine.shareCost
      rw [hkey, hside]
      by_cases hbuy : f.side = .buy ∧ scope.covers (f.tokenId, .buy, o'.strategySlug) = true
      · have hprice : f.price ≤ max 0 o₁.price := by
          rw [hside, hbuy.1] at hwithin
          exact le_max_of_le_right hwithin
        simp only [if_pos hbuy, Fill.notionalUsd]
        rw [mul_comm]
        exact mul_le_mul_of_nonneg_left hprice hpos.le
      · simp only [if_neg hbuy, mul_zero, le_refl]
    rw [fillEvents_cons hget', Portfolio.spentIn_cons, hweight]
    exact add_le_add hone hrest

/-- The fills of an advance open positions of live entries only. -/
lemma openedIn_fillEvents (hterms : MatchingEngine.recordOf MatchingEngine.terms m' =
      MatchingEngine.recordOf MatchingEngine.terms m)
    (hfills : ∀ f ∈ fills, MatchingEngine.FillOf m f) :
    Portfolio.openedIn (fillEvents m' fills) ⊆ m.entryKeys := by
  induction fills with
  | nil => exact Finset.empty_subset _
  | cons f fills ih =>
    obtain ⟨o, o', hget, hlive, hside, hget', hkey⟩ :=
      fillOf_records hterms (hfills f List.mem_cons_self)
    rw [fillEvents_cons hget']
    have hrest := ih fun g hg => hfills g (List.mem_cons_of_mem _ hg)
    refine Finset.union_subset (fun k hk => ?_) hrest
    rw [Portfolio.openedBy] at hk
    split at hk
    · next hbuy =>
      rw [Finset.mem_singleton] at hk
      exact MatchingEngine.mem_entryKeys.2 ⟨f.orderId, o, hget, ⟨hside.trans hbuy, hlive⟩,
        hkey.trans hk.symm⟩
    · exact absurd hk (Finset.notMem_empty k)

/-- An advance without impact that is fair leaves the portfolio within the budget fill by fill,
and room for what is still committed. -/
lemma room_advance {p : Portfolio} (hwf : MatchingEngine.WellFormed m)
    (himpact : cfg.matching.impact.strengthBps ≤ 0) (hfair : FairAdvance cfg.matching m snap)
    (hadvance : MatchingEngine.advance cfg.matching snap m = (m', fills)) (hfunded : p.Funded)
    (hsafe : EveryStep Portfolio.step Portfolio.Safe p (fillEvents m' fills))
    (hroom : p.Room m.committed m.entryKeys) :
    EveryStep Portfolio.step (fun p ev => (p.step ev).InBudget) p (fillEvents m' fills) ∧
      (p.replay (fillEvents m' fills)).Funded ∧
      (p.replay (fillEvents m' fills)).Room m'.committed m'.entryKeys := by
  have hlimits : ∀ id o, m.orders.get? id = some o → o.isTerminal = false → 0 ≤ o.price :=
    fun id o hget => hfair.limits o (Dict.mem_values.2 ⟨id, hget⟩)
  have hsizes := MatchingEngine.advance_fills cfg.matching hwf snap
  have hterms : MatchingEngine.recordOf MatchingEngine.terms
      (MatchingEngine.advance cfg.matching snap m).1 =
      MatchingEngine.recordOf MatchingEngine.terms m := MatchingEngine.kept_terms.advance hwf snap
  have hpriced := MatchingEngine.advance_priced hwf himpact hfair.reach hfair.levels hlimits
  obtain ⟨hfrom, hof⟩ := MatchingEngine.advance_liveFrom cfg.matching hwf snap
  have htaken := fun scope => MatchingEngine.filledWeight_advance cfg.matching
    (MatchingEngine.kept_shareCost scope) (MatchingEngine.shareCost_nonneg scope) hwf snap
  rw [hadvance] at hsizes hterms hpriced hfrom hof
  have hevents : ∀ ev ∈ fillEvents m' fills, ∃ f ∈ fills, ∃ slug, ev = .fill f slug := by
    intro ev hev
    obtain ⟨f, hf, hev⟩ := List.mem_filterMap.1 hev
    obtain ⟨o, -, rfl⟩ := Option.map_eq_some_iff.1 hev
    exact ⟨f, hf, o.strategySlug, rfl⟩
  refine Portfolio.Room.batch hfunded hsafe (fun ev hev => ?_) (fun ev hev => ?_)
    (MatchingEngine.committed_nonneg m') (hroom.mono (fun scope => ?_) ?_)
  · obtain ⟨f, hf, slug, rfl⟩ := hevents ev hev
    exact (hsizes f hf).2
  · obtain ⟨f, hf, slug, rfl⟩ := hevents ev hev
    obtain ⟨o, -, -, hnonneg⟩ := hpriced f hf
    exact hnonneg
  · have hspent := spentIn_fillEvents hterms
      (fun f hf => ⟨(hsizes f hf).2, hof f hf, hpriced f hf⟩) scope
    have hrest := htaken scope
    rw [hadvance] at hrest
    exact (add_le_add_left hspent _).trans hrest
  · exact Finset.union_subset (openedIn_fillEvents hterms hof) hfrom.entryKeys_subset

/-- SELL orders leave the room there was. -/
lemma room_submits {p : Portfolio}
    (h : Submits cfg (fun o => o.side = .sell) m m') (hroom : p.Room m.committed m.entryKeys) :
    p.Room m'.committed m'.entryKeys := by
  refine h.invariant (I := fun m => p.Room m.committed m.entryKeys) hroom ?_
  intro m op hop hI
  cases op with
  | submit order hf =>
    cases hs : m.submit cfg.matching order with
    | error err =>
      have hsame : MatchingEngine.step cfg.matching m (.submit order hf) = m := by
        simp [MatchingEngine.step, hs, Except.toOption]
      rw [hsame]
      exact hI
    | ok m₁ =>
      have hstep : MatchingEngine.step cfg.matching m (.submit order hf) = m₁ := by
        simp [MatchingEngine.step, hs, Except.toOption]
      obtain ⟨o', hs'⟩ := MatchingEngine.submit_cases hf hs
      have hno : ¬ MatchingEngine.IsLiveEntry o' := by
        rintro ⟨hbuy, -⟩
        have hsell : order.side = .sell := hop
        rw [hs'.side, hsell] at hbuy
        cases hbuy
      rw [hstep]
      exact room_of_not_entry hs' hno hI
  | cancel id at_ => exact hop.elim
  | advanceTo snap => exact hop.elim

/-- The exits of a long portfolio are SELL orders. -/
lemma exitTargets_long {p : Portfolio} (h : p.Long) {token : TokenId} {pos : Position}
    (hpos : pos ∈ exitTargets p token) : pos.side = .buy := by
  obtain ⟨entry, hmem, rfl⟩ := List.mem_map.1 hpos
  exact h.side_eq_buy (Dict.mem_entries.1 (List.mem_filter.1 hmem).1)

/-! ## Runs -/

/-- The invariant of a run of BUY intents that fit: what has been bought and what is still on order
fits the cash and the caps together. -/
structure Solvent (e : BacktestEngine σ) : Prop where
  room : HasRoom e
  funded : e.portfolio.Funded
  buys : ∀ intent ∈ e.pendingIntents, intent.side = .buy

/-- The settlement sweep only closes positions. -/
lemma Solvent.settleDue (hcfg : NonnegConfig cfg) (h : Solvent e) (now : Time) :
    Solvent (settleDue cfg now e) := by
  have hsettled := settleDue_settled cfg now e
  have hevents : ∀ ev ∈ settleEvents cfg now e, ∃ key price at_ b,
      ev = .close key price at_ b ∧ 0 ≤ price := by
    intro ev hev
    obtain ⟨key, price, at_, rfl, token, s, hs, hprice⟩ := settleEvents_redeem cfg hev
    exact ⟨key, price, at_, true, rfl, hcfg.redemptions token s hs price hprice⟩
  have hcloses := h.room.closes h.funded hevents
  rw [← hsettled.portfolio] at hcloses
  obtain ⟨n, k, hrest⟩ := hsettled.rest
  refine ⟨?_, hcloses.1, ?_⟩
  · rw [HasRoom, matching_settleDue]
    exact hcloses.2
  · rw [hrest]
    exact h.buys

/-- The fills of a budgeted snapshot stay within the budget. -/
lemma Solvent.advance (hcfg : NonnegConfig cfg) (himpact : cfg.matching.impact.strengthBps ≤ 0)
    (hwf : MatchingEngine.WellFormed e.matching) (h : Solvent e) (hb : Budgeted cfg e snap)
    {drained : BacktestEngine σ}
    (hinv : (BacktestEngine.settleDue cfg snap.observedAt e).involved snap = true)
    (hdrain : drainIntents cfg snap.observedAt (BacktestEngine.settleDue cfg snap.observedAt e) =
      .ok drained)
    (hadvance : drained.matching.advanceTo cfg.matching snap = .ok (m', fills)) :
    let p := (BacktestEngine.settleDue cfg snap.observedAt e).portfolio
    EveryStep Portfolio.step (fun p ev => (p.step ev).InBudget) p (fillEvents m' fills) ∧
      (p.replay (fillEvents m' fills)).Funded ∧
      (p.replay (fillEvents m' fills)).Room m'.committed m'.entryKeys := by
  have hsettled := h.settleDue hcfg snap.observedAt
  obtain ⟨hentries, hfair⟩ := hb.fits hinv
  rw [hdrain] at hfair
  have hroom : HasRoom drained := hsettled.room.drainLoop hentries hdrain
  have hsame : drained.portfolio = (BacktestEngine.settleDue cfg snap.observedAt e).portfolio := by
    obtain ⟨m, n, k, hdrained, -⟩ :=
      drainLoop_ok cfg snap.observedAt (P := fun _ => True) (fun _ _ _ _ => trivial) hdrain
    rw [hdrained]
  rw [HasRoom, hsame] at hroom
  have hsafe := everyStep_fillEvents (hb.safe.safe hwf h.funded.long h.buys) hinv hdrain hadvance
  exact room_advance (wellFormed_drained hwf hdrain) himpact hfair (advanceTo_ok hadvance)
    hsettled.funded hsafe hroom

/-- A budgeted snapshot keeps the invariant. -/
lemma Solvent.onSnapshot (hcfg : NonnegConfig cfg) (himpact : cfg.matching.impact.strengthBps ≤ 0)
    (hwf : MatchingEngine.WellFormed e.matching) (h : Solvent e) (hb : Budgeted cfg e snap)
    (hrun : onSnapshot cfg strat e snap = .ok e') : Solvent e' := by
  have hsettled := h.settleDue hcfg snap.observedAt
  rcases onSnapshot_cases hrun with ⟨-, rfl⟩ | ⟨hinv, ⟨hp⟩⟩
  · exact ⟨hsettled.room, hsettled.funded, hsettled.buys⟩
  obtain ⟨-, hfunded, hroom⟩ := h.advance hcfg himpact hwf hb hinv hp.drain hp.advance
  rw [← hp.portfolio_filled] at hfunded hroom
  -- the mark moves neither the cash nor the cost
  have hmarked : (markBook snap hp.filled).portfolio.Funded ∧
      (markBook snap hp.filled).portfolio.Room hp.advanced.committed hp.advanced.entryKeys := by
    rw [portfolio_markBook]
    unfold markEvents
    cases snap.mid with
    | none => exact ⟨hfunded, hroom⟩
    | some mid =>
      have hmark : (hp.filled.portfolio.step (.mark snap.tokenId mid snap.observedAt)).Funded :=
        hfunded.step trivial trivial trivial
      exact ⟨hmark, hroom.mark snap.tokenId mid snap.observedAt⟩
  have hexits : Submits cfg (fun o => o.side = .sell) hp.advanced e'.matching :=
    hp.submits_exits fun pos hpos o ho => by
      rw [ho, exitTargets_long hmarked.1.long hpos]
      rfl
  have hend : e'.portfolio = (markBook snap hp.filled).portfolio := by
    rw [hp.portfolio, Portfolio.replay_append, ← hp.portfolio_filled, portfolio_markBook]
  refine ⟨?_, ?_, ?_⟩
  · rw [HasRoom, hend]
    exact room_submits hexits hmarked.2
  · rw [hend]
    exact hmarked.1
  · rw [hp.frame.1]
    exact hsettled.buys

/-- An event that fills an entry order. -/
def IsEntryFill : PortfolioEvent → Prop
  | .fill f _ => f.side = .buy
  | _ => False

/-- **The gate keeps the budget.**  In a run of BUY intents without impact, in which the gate lets
nothing through that does not fit and the exits are covered, the portfolio is within its budget
after every entry fill. -/
theorem keepsBudget_of_fits (hcfg : NonnegConfig cfg)
    (himpact : cfg.matching.impact.strengthBps ≤ 0) (hbuy : ∀ intent ∈ intents, intent.side = .buy)
    (hbudget : EveryAttempt (feedOne (onSnapshot cfg strat)) (Budgeted cfg) (start cfg st intents)
      snapshots) {pre : List PortfolioEvent} {ev : PortfolioEvent}
    (hpre : pre ++ [ev] <+: runEvents cfg strat st intents snapshots) (hentry : IsEntryFill ev) :
    ((Portfolio.init (portfolioConfig cfg)).replay (pre ++ [ev])).InBudget := by
  have hstart : Solvent (start cfg st intents) := by
    have hcap : ∀ scope, (portfolioConfig cfg).cap scope = cfg.portfolio.cap scope := by
      intro scope
      unfold portfolioConfig
      split
      · rfl
      · cases scope <;> rfl
    refine ⟨⟨?_, fun scope cap hmem => ?_, fun n _ => Nat.zero_le n⟩, Portfolio.funded_init _, ?_⟩
    · have hcapital := hcfg.capital
      have hsame : (portfolioConfig cfg).initialCapitalUsd = cfg.portfolio.initialCapitalUsd := by
        unfold portfolioConfig
        split <;> rfl
      show (0 : ℚ) ≤ (portfolioConfig cfg).initialCapitalUsd + (0 + 0)
      linarith
    · have hnonneg := hcfg.caps scope cap ((hcap scope).symm.trans hmem)
      show (0 : ℚ) + 0 ≤ cap
      linarith
    · exact fun intent hintent => hbuy intent (mem_sortByKey.1 hintent)
  have hrun : EveryStep Portfolio.step (fun p ev => IsEntryFill ev → (p.step ev).InBudget)
      (Portfolio.init (portfolioConfig cfg)) (runEvents cfg strat st intents snapshots) := by
    refine everyStep_runEvents (I := Solvent) hbudget hstart
      (fun e snap e' hI hwf hC h => ?_) (fun _ _ _ _ _ h => h.elim) fun e snap hI hwf hC => ?_
    · have hsnap := hI.onSnapshot hcfg himpact hwf hC h
      exact ⟨hsnap.room, hsnap.funded, hsnap.buys⟩
    · refine everyStep_snapshotEvents (fun _ _ _ _ _ h => h.elim) (fun _ _ _ _ h => h.elim) ?_
      intro drained m fills hinv hdrain hadvance
      exact (hI.advance hcfg himpact hwf hC hinv hdrain hadvance).1.imp_of_invariant
        (I := fun _ => True) trivial (fun _ _ _ _ => trivial) fun _ _ _ hbudget _ => hbudget
  have hlast := EveryStep.snoc.1 (hrun.of_prefix hpre)
  rw [Portfolio.replay_append]
  exact hlast.2 hentry

/-- An intent to buy ten shares of a token at one half. -/
def buyTen (id : OrderId) (token : TokenId) : TradeIntent where
  intentId := id
  emittedAt := 0
  tokenId := token
  side := .buy
  size := 10
  limitPrice := 1 / 2
  strategySlug := some "s"

/-- A capital of eight dollars, with every cap set. -/
def eightDollars : BacktestConfig :=
  { BacktestConfig.plain 1 {} with
    portfolio :=
      { initialCapitalUsd := 8
        maxGrossExposureUsd := some 8
        maxPerMarketNotionalUsd := some 5
        maxPerStrategyNotionalUsd := some 8
        maxOpenPositions := some 1 } }

/-- A book at one half, with twenty shares on each side. -/
def offerAtHalf (token : TokenId) (observedAt : Time) : BookSnapshot where
  tokenId := token
  observedAt := observedAt
  bids := [⟨49 / 100, 20⟩]
  asks := [⟨1 / 2, 20⟩]
  bids_desc := List.pairwise_singleton _ _
  asks_asc := List.pairwise_singleton _ _

/-- The events of a run of these intents without a strategy. -/
def buyingRun (intents : List TradeIntent) (snapshots : List BookSnapshot) :
    List PortfolioEvent :=
  runEvents eightDollars (none : Option (Strategy Unit)) () intents snapshots

lemma nonnegConfig_eightDollars : NonnegConfig eightDollars := by
  refine ⟨by decide +kernel, fun scope cap hcap => ?_, fun token s hs => ?_⟩
  · have hcaps : ∀ scope, ∀ cap ∈ eightDollars.portfolio.cap scope, cap = 8 ∨ cap = 5 := by
      intro scope cap hcap
      cases scope with
      | gross => exact .inl (Option.some.inj hcap).symm
      | market token => exact .inr (Option.some.inj hcap).symm
      | strategy slug =>
        unfold PortfolioConfig.cap at hcap
        dsimp only at hcap
        split at hcap
        · cases hcap
        · exact .inl (Option.some.inj hcap).symm
    rcases hcaps scope cap hcap with rfl | rfl <;> norm_num
  · cases hs

/-- The fill of an intent to buy ten shares. -/
def tenFilled (id : OrderId) : PortfolioEvent :=
  .fill { orderId := id, tokenId := "t", side := .buy, price := 1 / 2, size := 10,
          feeUsd := 133 / 1600, occurredAt := 1000, fillIndex := 0 } (some "s")

/-- One intent for five dollars fits into the budget of eight and keeps it. -/
theorem oneIntent_keepsBudget :
    ((Portfolio.init (portfolioConfig eightDollars)).replay ([] ++ [tenFilled "a"])).InBudget := by
  have hfirst : [] ++ [tenFilled "a"] <+: buyingRun [buyTen "a" "t"] [offerAtHalf "t" 2000] := by
    decide +kernel
  have hbudget : EveryAttempt (feedOne (onSnapshot eightDollars (none : Option (Strategy Unit))))
      (Budgeted eightDollars) (start eightDollars () [buyTen "a" "t"]) [offerAtHalf "t" 2000] := by
    decide +kernel
  exact keepsBudget_of_fits nonnegConfig_eightDollars (by decide +kernel) (by decide) hbudget hfirst
    rfl

/-- Two intents in flight together pass the gate, each for itself: their fills cost ten dollars,
more than the capital and the caps allow. -/
theorem twoInFlight_exceed :
    ¬ ∀ pre ev, pre ++ [ev] <+: buyingRun [buyTen "a" "t", buyTen "b" "t"] [offerAtHalf "t" 2000] →
      IsEntryFill ev →
      ((Portfolio.init (portfolioConfig eightDollars)).replay (pre ++ [ev])).InBudget := by
  intro h
  have hsecond : [tenFilled "a"] ++ [tenFilled "b"] <+:
      buyingRun [buyTen "a" "t", buyTen "b" "t"] [offerAtHalf "t" 2000] := by
    decide +kernel
  have hcash := (h _ _ hsecond rfl).cash
  exact absurd hcash (by decide +kernel)

end BacktestEngine

end Evosport.Backtest
