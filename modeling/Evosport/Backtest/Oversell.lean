/-
The engine does not sell what it does not hold, as long as its exits are covered.

An exit order is in flight for a latency window while the strategy is asked again, and the
settlement sweep may close the position under it.  The condition that keeps a run of BUY
entries from selling short is that, before each advance, the live SELL orders of a token and
a strategy ask for no more than the position holds (`Covered`).  The advance then fills at
most what they ask for (`soldFor_advance`), and a portfolio whose sells are covered never
opens a short position (`Portfolio.NoShort.step`).
-/
import Evosport.Backtest.Attribution

namespace Evosport.Backtest

open Lib

namespace Portfolio

/-! ## A portfolio of long positions -/

/-- No position is short. -/
def NoShort (p : Portfolio) : Prop :=
  ∀ token slug, p.positions.get? (token, .sell, slug) = none

/-- A SELL fill is no larger than the long position it meets. -/
def Covers (p : Portfolio) : PortfolioEvent → Prop
  | .fill f slug => f.side = .sell → f.size ≤ p.sizeAt (f.tokenId, .buy, slug)
  | _ => True

/-- A closing fill takes the whole of its position or leaves more than `1e-12` shares. -/
def NoDust (p : Portfolio) : PortfolioEvent → Prop
  | .fill f slug =>
    (p.positions.get? (f.tokenId, f.side.opposite, slug)).elim True
      fun pos => pos.size ≤ f.size ∨ f.size + e12 < pos.size
  | _ => True

instance (p : Portfolio) : ∀ ev, Decidable (p.NoDust ev)
  | .fill f slug =>
    match h : p.positions.get? (f.tokenId, f.side.opposite, slug) with
    | none => isTrue (by simp only [NoDust, h, Option.elim_none])
    | some pos => decidable_of_iff (pos.size ≤ f.size ∨ f.size + e12 < pos.size)
        (by simp only [NoDust, h, Option.elim_some])
  | .close .. => isTrue trivial
  | .mark .. => isTrue trivial

variable {p : Portfolio}

lemma sizeAt_nonneg (h : p.Sized) (key : PositionKey) : 0 ≤ p.sizeAt key := by
  unfold sizeAt
  cases hget : p.positions.get? key with
  | none => exact le_refl 0
  | some pos => exact (h key pos hget).le

lemma NoShort.held_eq (h : p.NoShort) (token : TokenId) (slug : Option Slug) :
    p.held token slug = p.sizeAt (token, .buy, slug) := by
  have hshort : p.sizeAt (token, .sell, slug) = 0 := by simp [sizeAt, h token slug]
  rw [held, hshort, sub_zero]

/-- A covered sell closes exactly. -/
lemma NoShort.closesExactly (h : p.NoShort) (hsized : p.Sized) {ev : PortfolioEvent}
    (hcovers : p.Covers ev) (hdust : p.NoDust ev) : p.ClosesExactly ev := by
  cases ev with
  | fill f slug =>
    cases hget : p.positions.get? (f.tokenId, f.side.opposite, slug) with
    | none => simp only [ClosesExactly, hget, Option.elim_none]
    | some pos =>
      simp only [NoDust, hget, Option.elim_some] at hdust
      simp only [ClosesExactly, hget, Option.elim_some]
      cases hs : f.side with
      | buy =>
        rw [hs, Side.opposite, h f.tokenId slug] at hget
        cases hget
      | sell =>
        have hle := hcovers hs
        rw [hs] at hget
        simp only [sizeAt, Side.opposite] at hle hget
        rw [hget, Option.elim_some] at hle
        rcases hdust with hfull | hpart
        · exact .inl (le_antisymm hle hfull)
        · exact .inr ⟨hsized _ pos hget, hpart⟩
  | close key price at_ b => trivial
  | mark token price at_ => trivial

/-- A covered event opens no short position. -/
lemma NoShort.step (h : p.NoShort) {ev : PortfolioEvent} (hpos : ev.Positive)
    (hcovers : p.Covers ev) : (p.step ev).NoShort := by
  intro token slug'
  cases ev with
  | fill f slug =>
    cases hget : p.positions.get? (f.tokenId, f.side.opposite, slug) with
    | some pos =>
      have hbuy : f.side.opposite = .buy := by
        cases hs : f.side.opposite with
        | buy => rfl
        | sell =>
          rw [hs, h] at hget
          cases hget
      have hne : (f.tokenId, f.side.opposite, slug) ≠ (token, Side.sell, slug') := by
        rw [hbuy]
        intro heq
        cases congrArg (fun k : PositionKey => k.2.1) heq
      simp only [Portfolio.step, positions_applyFill_of_some hget]
      split
      · rw [Dict.get?_erase_of_ne _ hne]
        exact h token slug'
      · rw [Dict.get?_set_of_ne _ _ hne]
        exact h token slug'
    | none =>
      have hbuy : f.side = .buy := by
        cases hs : f.side with
        | buy => rfl
        | sell =>
          -- with nothing to close, a covered sell would have no size
          have hle := hcovers hs
          rw [hs, Side.opposite] at hget
          rw [sizeAt, hget, Option.elim_none] at hle
          exact absurd hle (not_le.2 hpos)
      have hne : (f.tokenId, f.side, slug) ≠ (token, Side.sell, slug') := by
        rw [hbuy]
        intro heq
        cases congrArg (fun k : PositionKey => k.2.1) heq
      simp only [Portfolio.step, positions_applyFill_of_none hget, Dict.get?_set_of_ne _ _ hne]
      exact h token slug'
  | close key price at_ b =>
    cases hget : p.positions.get? key with
    | none =>
      rw [Portfolio.step, closePositionAt_of_none hget]
      exact h token slug'
    | some old =>
      have hpositions : (p.step (.close key price at_ b)).positions = p.positions.erase key := by
        simp [Portfolio.step, closePositionAt, hget, positions_closeWith]
      rw [hpositions, Dict.get?_erase]
      split
      · rfl
      · exact h token slug'
  | mark t price at_ =>
    have hmark : (p.step (.mark t price at_)).positions.get? (token, .sell, slug') =
        (p.positions.get? (token, .sell, slug')).map fun pos =>
          if token = t then pos.mark price at_ else pos := by
      simp [Portfolio.step, mark, Dict.get?_mapVal]
    rw [hmark, h token slug']
    rfl

/-- The invariant of a portfolio whose sells are covered: each position is filed under its own key,
has a size that is not negative, and none was opened by a sell. -/
structure Long (p : Portfolio) : Prop where
  keyed : p.WellKeyed
  sized : p.Sized
  noShort : p.NoShort

lemma long_init (cfg : PortfolioConfig) : (init cfg).Long := by
  refine ⟨wellKeyed_init cfg, fun key pos hget => ?_, fun token slug => rfl⟩
  cases hget

lemma Long.step (h : p.Long) {ev : PortfolioEvent} (hpos : ev.Positive) (hcovers : p.Covers ev) :
    (p.step ev).Long :=
  ⟨wellKeyed_step h.keyed ev, h.sized.step hpos, h.noShort.step hpos hcovers⟩

/-- A positive event that is covered and leaves no dust. -/
def Safe (p : Portfolio) (ev : PortfolioEvent) : Prop :=
  ev.Positive ∧ p.Covers ev ∧ p.NoDust ev

lemma Long.replay {events : List PortfolioEvent} (h : p.Long)
    (hsafe : EveryStep Portfolio.step Safe p events) : (p.replay events).Long :=
  hsafe.invariant (I := Long) h fun _ _ hlong hev => hlong.step hev.1 hev.2.1

/-- After a run of safe events no position is short, and no token has been sold beyond what
was bought of it. -/
lemma sold_le_bought {cfg : PortfolioConfig} {events : List PortfolioEvent}
    (hsafe : EveryStep Portfolio.step Safe (init cfg) events) (token : TokenId)
    (slug : Option Slug) :
    sharesOn ((init cfg).appliedFills events) .sell token slug ≤
        sharesOn ((init cfg).appliedFills events) .buy token slug ∧
      ((init cfg).replay events).positions.get? (token, .sell, slug) = none := by
  have hlong := (long_init cfg).replay hsafe
  have hexact : EveryStep Portfolio.step ClosesExactly (init cfg) events :=
    hsafe.imp_of_invariant (I := Long) (long_init cfg)
      (fun _ _ hlong hev => hlong.step hev.1 hev.2.1)
      fun _ _ hlong hev => hlong.noShort.closesExactly hlong.sized hev.2.1 hev.2.2
  have hbalanced := sharesBalanced_of_closesExactly hexact token slug
  rw [← sharesOn_buy_sub_sell, hlong.noShort.held_eq] at hbalanced
  have hsize := sizeAt_nonneg hlong.sized (token, .buy, slug)
  exact ⟨by linarith, hlong.noShort token slug⟩

/-! ## A batch of fills -/

/-- The shares that the fills among the events sell for a token and a strategy. -/
def sellsIn : List PortfolioEvent → TokenId → Option Slug → ℚ
  | [], _, _ => 0
  | .fill f slug :: evs, token, slug' =>
    (if f.side = .sell ∧ f.tokenId = token ∧ slug = slug' then f.size else 0) +
      sellsIn evs token slug'
  | _ :: evs, token, slug' => sellsIn evs token slug'

lemma sellsIn_nonneg {evs : List PortfolioEvent} (hpos : ∀ ev ∈ evs, ev.Positive)
    (token : TokenId) (slug : Option Slug) : 0 ≤ sellsIn evs token slug := by
  induction evs with
  | nil => exact le_refl 0
  | cons ev evs ih =>
    have hrest := ih fun ev hev => hpos ev (List.mem_cons_of_mem _ hev)
    cases ev with
    | fill f slug' =>
      have hsize : 0 < f.size := hpos _ List.mem_cons_self
      unfold sellsIn
      split <;> linarith
    | close key price at_ b => exact hrest
    | mark t price at_ => exact hrest

/-- A batch of fills that together sell no more than is held is covered fill by fill. -/
lemma Long.safe_of_sellsIn (h : p.Long) {evs : List PortfolioEvent}
    (hfills : ∀ ev ∈ evs, ∃ f slug, ev = .fill f slug ∧ 0 < f.size)
    (hdust : EveryStep Portfolio.step NoDust p evs)
    (hle : ∀ token slug, sellsIn evs token slug ≤ p.sizeAt (token, .buy, slug)) :
    EveryStep Portfolio.step Safe p evs := by
  induction evs generalizing p with
  | nil => trivial
  | cons ev evs ih =>
    obtain ⟨f, slug, rfl, hpos⟩ := hfills ev List.mem_cons_self
    have hrest : ∀ ev ∈ evs, ∃ f slug, ev = .fill f slug ∧ 0 < f.size :=
      fun ev hev => hfills ev (List.mem_cons_of_mem _ hev)
    have hnonneg : ∀ token slug, 0 ≤ sellsIn evs token slug := sellsIn_nonneg fun ev hev => by
      obtain ⟨g, s, rfl, hg⟩ := hrest ev hev
      exact hg
    have hcovers : p.Covers (.fill f slug) := by
      intro hs
      have hbound := hle f.tokenId slug
      rw [sellsIn, if_pos ⟨hs, rfl, rfl⟩] at hbound
      have htail := hnonneg f.tokenId slug
      linarith
    have hsafe : p.Safe (.fill f slug) := ⟨hpos, hcovers, hdust.1⟩
    have hlong := h.step hsafe.1 hcovers
    refine ⟨hsafe, ih hlong hrest hdust.2 fun token slug' => ?_⟩
    -- the step moves the position by the fill, as the sum over the batch does
    have hmoved := (held_step_iff h.keyed (.fill f slug)).2
      (h.noShort.closesExactly h.sized hcovers hdust.1) token slug'
    rw [hlong.noShort.held_eq, h.noShort.held_eq] at hmoved
    have hbound := hle token slug'
    simp only [applied, List.map_cons, List.map_nil, List.sum_cons, List.sum_nil, shareFlow] at hmoved
    rw [sellsIn] at hbound
    rw [hmoved]
    by_cases hkey : f.tokenId = token ∧ slug = slug'
    · rw [if_pos hkey]
      cases hs : f.side with
      | buy =>
        rw [if_neg (by rw [hs]; simp)] at hbound
        simp only
        linarith
      | sell =>
        rw [if_pos ⟨hs, hkey⟩] at hbound
        simp only
        linarith
    · rw [if_neg fun hk => hkey hk.2] at hbound
      rw [if_neg hkey]
      linarith

end Portfolio

/-! ## What an advance can sell -/

namespace MatchingEngine

variable {cfg : MatchingConfig} {e e' : MatchingEngine} {o o' : BacktestOrder} {fs : List Fill}

/-- The shares that an order may still sell of a token for a strategy. -/
def liveSell (token : TokenId) (slug : Option Slug) (o : BacktestOrder) : ℚ :=
  if o.side = .sell ∧ o.tokenId = token ∧ o.strategySlug = slug ∧ o.isTerminal = false then
    o.remainingSize
  else 0

/-- The shares that the live SELL orders of a token and a strategy still ask for. -/
def liveSells (e : MatchingEngine) (token : TokenId) (slug : Option Slug) : ℚ :=
  e.orders.total fun _ o => liveSell token slug o

/-- The strategy of an order on record. -/
def strategyOf (e : MatchingEngine) (id : OrderId) : Option (Option Slug) :=
  (e.orders.get? id).map BacktestOrder.strategySlug

/-- The shares that the fills sell of a token for a strategy. -/
def soldFor (e : MatchingEngine) (token : TokenId) (slug : Option Slug) (fs : List Fill) : ℚ :=
  ((fs.filter fun f => f.side = .sell ∧ f.tokenId = token ∧ e.strategyOf f.orderId = some slug).map
    Fill.size).sum

lemma soldFor_append (e : MatchingEngine) (token : TokenId) (slug : Option Slug)
    (fs gs : List Fill) :
    e.soldFor token slug (fs ++ gs) = e.soldFor token slug fs + e.soldFor token slug gs := by
  simp [soldFor]

lemma remainingSize_nonneg (o : BacktestOrder) : 0 ≤ o.remainingSize := le_max_left _ _

lemma liveSell_nonneg (token : TokenId) (slug : Option Slug) (o : BacktestOrder) :
    0 ≤ liveSell token slug o := by
  unfold liveSell
  split
  · exact remainingSize_nonneg o
  · exact le_refl 0

/-- What an order sells is no longer asked for. -/
lemma liveSell_effect (hbooked : o.Booked) (hlive : o.isTerminal = false)
    (hstrategy : e.strategyOf o.orderId = some o.strategySlug) (hwalk : ∃ o₁, Walk o fs o₁ ∧
      o₁.Relabel o') (token : TokenId) (slug : Option Slug) :
    e.soldFor token slug fs + liveSell token slug o' ≤ liveSell token slug o := by
  obtain ⟨o₁, hw, hr⟩ := hwalk
  have hown := fun f (hf : f ∈ fs) => hw.own hf
  by_cases hkey : o.side = .sell ∧ o.tokenId = token ∧ o.strategySlug = slug
  · obtain ⟨hside, htok, hslug⟩ := hkey
    have hsold : e.soldFor token slug fs = totalSize fs := by
      unfold soldFor totalSize
      rw [List.filter_eq_self.2]
      intro f hf
      obtain ⟨hid, ht, hs, -⟩ := hown f hf
      simp [hid, ht, hs, hside, htok, hstrategy, hslug]
    have hremaining : o'.remainingSize = o.remainingSize - totalSize fs := by
      rw [BacktestOrder.remainingSize_relabel hr, (hw.booked hbooked).remainingSize_eq,
        hbooked.remainingSize_eq, hw.size_eq, hw.filledSize_eq]
      ring
    have hbefore : liveSell token slug o = o.remainingSize := by
      unfold liveSell
      rw [if_pos ⟨hside, htok, hslug, hlive⟩]
    have hafter : liveSell token slug o' ≤ o'.remainingSize := by
      unfold liveSell
      split
      · exact le_refl _
      · exact remainingSize_nonneg o'
    rw [hsold, hbefore]
    linarith
  · have hsold : e.soldFor token slug fs = 0 := by
      unfold soldFor
      rw [List.filter_eq_nil_iff.2]
      · rfl
      intro f hf
      obtain ⟨hid, ht, hs, -⟩ := hown f hf
      simp only [hid, ht, hs, hstrategy, decide_eq_true_eq]
      rintro ⟨h₁, h₂, h₃⟩
      exact hkey ⟨h₁, h₂, Option.some.inj h₃⟩
    have hafter : liveSell token slug o' = 0 := by
      obtain ⟨avg, p, hframe⟩ := hw.frame
      have hsame : o'.side = o.side ∧ o'.tokenId = o.tokenId ∧ o'.strategySlug = o.strategySlug := by
        rw [hr.side, hr.tokenId, hr.strategySlug, hframe]
        exact ⟨rfl, rfl, rfl⟩
      unfold liveSell
      rw [if_neg]
      rintro ⟨h₁, h₂, h₃, -⟩
      exact hkey ⟨hsame.1 ▸ h₁, hsame.2.1 ▸ h₂, hsame.2.2 ▸ h₃⟩
    rw [hsold, hafter, zero_add]
    exact liveSell_nonneg token slug o

lemma liveSells_set {o o' : BacktestOrder} (hget : e.orders.get? o.orderId = some o)
    (horders : e'.orders = e.orders.set o.orderId o') (token : TokenId) (slug : Option Slug) :
    e'.liveSells token slug =
      e.liveSells token slug - liveSell token slug o + liveSell token slug o' := by
  unfold liveSells
  rw [horders, Dict.total_set, Dict.share_of_some hget]

/-- A strategy without orders asks for nothing. -/
lemma liveSells_of_unused {token : TokenId} {slug : Option Slug}
    (h : ∀ o ∈ e.allOrders, o.strategySlug ≠ slug) : e.liveSells token slug = 0 := by
  refine List.sum_eq_zero fun x hx => ?_
  obtain ⟨entry, hentry, rfl⟩ := List.mem_map.1 hx
  refine if_neg ?_
  rintro ⟨-, -, hs, -⟩
  exact h entry.2 (List.mem_map_of_mem hentry) hs

/-- An order on record keeps its strategy when it is rewritten. -/
lemma strategyOf_set (hget : e.orders.get? o.orderId = some o)
    (horders : e'.orders = e.orders.set o.orderId o') (hslug : o'.strategySlug = o.strategySlug) :
    e'.strategyOf = e.strategyOf := by
  funext id
  unfold strategyOf
  rw [horders, Dict.get?_set]
  split
  · next hid => rw [← hid, hget, Option.map_some, Option.map_some, hslug]
  · rfl

lemma strategySlug_effect (hwalk : ∃ o₁, Walk o fs o₁ ∧ o₁.Relabel o') :
    o'.strategySlug = o.strategySlug := by
  obtain ⟨o₁, hw, hr⟩ := hwalk
  obtain ⟨avg, p, hframe⟩ := hw.frame
  rw [hr.strategySlug, hframe]

/-- Of the sells that were asked for in `e₀`, the fills made so far and those still asked for
are a part. -/
structure SellsWithin (e₀ : MatchingEngine) (token : TokenId) (slug : Option Slug)
    (e : MatchingEngine) (fs : List Fill) : Prop where
  strategies : e.strategyOf = e₀.strategyOf
  within : e₀.soldFor token slug fs + e.liveSells token slug ≤ e₀.liveSells token slug

variable {e₀ : MatchingEngine} {token : TokenId} {slug : Option Slug}

lemma SellsWithin.effect {fs' : List Fill} (hwf : WellFormed e) (h : SellsWithin e₀ token slug e fs)
    (hget : e.orders.get? o.orderId = some o) (hlive : o.isTerminal = false)
    (heff : Effect e o fs' o' e') : SellsWithin e₀ token slug e' (fs ++ fs') := by
  have hstrategy : e₀.strategyOf o.orderId = some o.strategySlug := by
    rw [← h.strategies, strategyOf, hget, Option.map_some]
  have hsell := liveSell_effect (hwf.booked hget) hlive hstrategy heff.walk token slug
  refine ⟨(strategyOf_set hget heff.orders (strategySlug_effect heff.walk)).trans h.strategies, ?_⟩
  rw [soldFor_append, liveSells_set hget heff.orders]
  have hwithin := h.within
  linarith

/-- Before the first fill of an interval, cancels only lower what is asked for. -/
lemma SellsWithin.interim (e₀ : MatchingEngine) (token : TokenId) (slug : Option Slug) :
    Interim fun e => SellsWithin e₀ token slug e [] where
  sameOrders h hs := by
    refine ⟨?_, ?_⟩
    · rw [← h.strategies]
      funext id
      rw [strategyOf, strategyOf, hs.orders]
    · rw [liveSells, hs.orders]
      exact h.within
  cancelled hwf h hget hlive heff _ := h.effect hwf hget hlive heff
  touched {e o o' e'} hwf h hget hlive ht := by
    refine ⟨(strategyOf_set hget ht.orders ht.relabel.strategySlug).trans h.strategies, ?_⟩
    have hsame := liveSell_effect (hwf.booked hget) hlive (e := e₀)
      (by rw [← h.strategies, strategyOf, hget, Option.map_some])
      ⟨o, Walk.done o, ht.relabel⟩ token slug
    have hwithin := h.within
    rw [liveSells_set hget ht.orders]
    simp only [soldFor, List.filter_nil, List.map_nil, List.sum_nil] at hsame hwithin ⊢
    linarith

variable (cfg) in
/-- An advance sells at most what the live SELL orders asked for. -/
lemma soldFor_advance (hwf : WellFormed e) (snap : BookSnapshot) (token : TokenId)
    (slug : Option Slug) :
    (advance cfg snap e).1.strategyOf = e.strategyOf ∧
      e.soldFor token slug (advance cfg snap e).2 ≤ e.liveSells token slug := by
  have hstart : SellsWithin e token slug e [] := by
    refine ⟨rfl, ?_⟩
    simp [soldFor]
  obtain ⟨e₁, -, h, heq⟩ := advance_effects cfg (J := SellsWithin e token slug) hwf snap
    (openInterval_induct cfg (SellsWithin.interim e token slug) snap hwf hstart).2
    (fun hi hJ hget _ hlive heff => hJ.effect hi.wellFormed hget hlive heff)
  refine ⟨?_, ?_⟩
  · rw [← h.strategies, heq]
    rfl
  · have hwithin := h.within
    have hrest : 0 ≤ e₁.liveSells token slug :=
      Dict.total_nonneg fun _ o => liveSell_nonneg token slug o
    linarith

/-- Submitting a BUY order adds nothing to what is asked for. -/
lemma liveSells_submitBuy {order : BacktestOrder} (hf : Fresh order) (hside : order.side = .buy)
    (token : TokenId) (slug : Option Slug) :
    (step cfg e (.submit order hf)).liveSells token slug = e.liveSells token slug := by
  cases hs : e.submit cfg order with
  | error err => simp [step, hs, Except.toOption]
  | ok e' =>
    have hstep : step cfg e (.submit order hf) = e' := by simp [step, hs, Except.toOption]
    obtain ⟨o', ho'⟩ := submit_cases hf hs
    have hzero : liveSell token slug o' = 0 := by
      unfold liveSell
      rw [if_neg]
      rintro ⟨hsell, -⟩
      rw [ho'.side, hside] at hsell
      cases hsell
    rw [hstep]
    unfold liveSells
    rw [ho'.orders, Dict.total_set, Dict.share_of_none ho'.new, hzero]
    ring

end MatchingEngine

/-! ## Runs of the engine -/

namespace BacktestEngine

variable {σ : Type} {cfg : BacktestConfig} {strat : Option (Strategy σ)} {st : σ}
  {intents : List TradeIntent} {snapshots : List BookSnapshot}

/-- When the settlement sweep of a snapshot has run, the live SELL orders on its token ask for
no more, strategy by strategy, than the long position holds. -/
def Covered (cfg : BacktestConfig) (e : BacktestEngine σ) (snap : BookSnapshot) : Prop :=
  let settled := settleDue cfg snap.observedAt e
  settled.involved snap = true → ∀ o ∈ settled.matching.allOrders,
    settled.matching.liveSells snap.tokenId o.strategySlug ≤
      settled.portfolio.sizeAt (snap.tokenId, .buy, o.strategySlug)

/-- A snapshot whose exits are covered and whose fills leave no dust. -/
structure SafeSnapshot (cfg : BacktestConfig) (e : BacktestEngine σ) (snap : BookSnapshot) :
    Prop where
  covered : Covered cfg e snap
  noDust : EveryStep Portfolio.step Portfolio.NoDust e.portfolio (snapshotEvents cfg e snap)

instance (cfg : BacktestConfig) (e : BacktestEngine σ) (snap : BookSnapshot) :
    Decidable (Covered cfg e snap) :=
  inferInstanceAs (Decidable (_ → _))

instance (cfg : BacktestConfig) (e : BacktestEngine σ) (snap : BookSnapshot) :
    Decidable (SafeSnapshot cfg e snap) :=
  decidable_of_iff (Covered cfg e snap ∧
    EveryStep Portfolio.step Portfolio.NoDust e.portfolio (snapshotEvents cfg e snap))
    ⟨fun h => ⟨h.1, h.2⟩, fun h => ⟨h.covered, h.noDust⟩⟩

/-- The fills of an advance sell what their orders sell. -/
lemma sellsIn_fillEvents {m m₀ : MatchingEngine} (hstrategy : m.strategyOf = m₀.strategyOf)
    (fills : List Fill) (token : TokenId) (slug : Option Slug) :
    Portfolio.sellsIn (fillEvents m fills) token slug = m₀.soldFor token slug fills := by
  induction fills with
  | nil => rfl
  | cons f fills ih =>
    have hof : m₀.strategyOf f.orderId = (m.orders.get? f.orderId).map BacktestOrder.strategySlug := by
      rw [← hstrategy]
      rfl
    unfold fillEvents at ih ⊢
    unfold MatchingEngine.soldFor at ih ⊢
    cases ho : m.orders.get? f.orderId with
    | none =>
      rw [ho, Option.map_none] at hof
      rw [List.filterMap_cons_none (by rw [ho, Option.map_none]), ih]
      simp [hof]
    | some o =>
      rw [ho, Option.map_some] at hof
      rw [List.filterMap_cons_some (by rw [ho, Option.map_some]), Portfolio.sellsIn, ih]
      by_cases hkey : f.side = .sell ∧ f.tokenId = token ∧ o.strategySlug = slug
      · simp [hkey, hof]
      · rw [if_neg hkey, zero_add, List.filter_cons_of_neg]
        simpa [hof] using hkey

/-- What the orders on a token ask for is the same once the entries have been drained. -/
lemma liveSells_drained {e drained : BacktestEngine σ} {now : Time}
    (hbuy : ∀ intent ∈ e.pendingIntents, intent.side = .buy)
    (h : drainIntents cfg now e = .ok drained) (token : TokenId) (slug : Option Slug) :
    drained.matching.liveSells token slug = e.matching.liveSells token slug := by
  obtain ⟨m, n, k, rfl, hm⟩ := drainLoop_ok cfg now (P := fun o => o.side = .buy)
    (fun intent hintent o ho => ho.trans (hbuy intent (List.mem_of_mem_drop hintent))) h
  refine hm.invariant (I := fun m => m.liveSells token slug = e.matching.liveSells token slug) rfl ?_
  intro m op hop hI
  cases op with
  | submit order hf => exact (MatchingEngine.liveSells_submitBuy hf hop token slug).trans hI
  | cancel id at_ => exact hop.elim
  | advanceTo snap => exact hop.elim

/-- In a safe snapshot the fills of the advance are safe. -/
lemma safe_fillEvents {e drained : BacktestEngine σ} {snap : BookSnapshot} {m : MatchingEngine}
    {fills : List Fill} (hwf : MatchingEngine.WellFormed e.matching)
    (hlong : (settleDue cfg snap.observedAt e).portfolio.Long)
    (hbuy : ∀ intent ∈ e.pendingIntents, intent.side = .buy) (hcovered : Covered cfg e snap)
    (hinv : (settleDue cfg snap.observedAt e).involved snap = true)
    (hdrain : drainIntents cfg snap.observedAt (settleDue cfg snap.observedAt e) = .ok drained)
    (hadvance : drained.matching.advanceTo cfg.matching snap = .ok (m, fills))
    (hdust : EveryStep Portfolio.step Portfolio.NoDust (settleDue cfg snap.observedAt e).portfolio
      (fillEvents m fills)) :
    EveryStep Portfolio.step Portfolio.Safe (settleDue cfg snap.observedAt e).portfolio
      (fillEvents m fills) := by
  set settled := settleDue cfg snap.observedAt e with hsettled
  have hwf' := wellFormed_drained hwf hdrain
  have hadv := advanceTo_ok hadvance
  have hfills := MatchingEngine.advance_fills cfg.matching hwf' snap
  rw [hadv] at hfills
  have hbuy' : ∀ intent ∈ settled.pendingIntents, intent.side = .buy := by
    obtain ⟨n, k, hrest⟩ := (settleDue_settled cfg snap.observedAt e).rest
    rw [hsettled, hrest]
    exact hbuy
  refine hlong.safe_of_sellsIn ?_ hdust fun token slug => ?_
  · intro ev hev
    obtain ⟨f, hf, hev⟩ := List.mem_filterMap.1 hev
    obtain ⟨o, -, rfl⟩ := Option.map_eq_some_iff.1 hev
    exact ⟨f, o.strategySlug, rfl, (hfills f hf).2⟩
  obtain ⟨hstrategy, hsold⟩ :=
    MatchingEngine.soldFor_advance cfg.matching hwf' snap token slug
  rw [hadv] at hstrategy hsold
  rw [sellsIn_fillEvents hstrategy]
  by_cases htoken : token = snap.tokenId
  · subst htoken
    refine hsold.trans ?_
    rw [liveSells_drained hbuy' hdrain]
    by_cases hslug : ∃ o ∈ settled.matching.allOrders, o.strategySlug = slug
    · obtain ⟨o, ho, rfl⟩ := hslug
      exact hcovered hinv o ho
    · -- no order of the strategy is on record
      rw [MatchingEngine.liveSells_of_unused fun o ho hs => hslug ⟨o, ho, hs⟩]
      exact Portfolio.sizeAt_nonneg hlong.sized _
  · -- the advance fills orders on the token of the snapshot only
    have hzero : drained.matching.soldFor token slug fills = 0 := by
      unfold MatchingEngine.soldFor
      rw [List.filter_eq_nil_iff.2]
      · rfl
      intro f hf
      simp only [decide_eq_true_eq]
      rintro ⟨-, ht, -⟩
      exact htoken (ht.symm.trans (hfills f hf).1)
    rw [hzero]
    exact Portfolio.sizeAt_nonneg hlong.sized _

/-- The events of a safe snapshot are safe. -/
lemma SafeSnapshot.safe {e : BacktestEngine σ} {snap : BookSnapshot} (h : SafeSnapshot cfg e snap)
    (hwf : MatchingEngine.WellFormed e.matching) (hlong : e.portfolio.Long)
    (hbuy : ∀ intent ∈ e.pendingIntents, intent.side = .buy) :
    EveryStep Portfolio.step Portfolio.Safe e.portfolio (snapshotEvents cfg e snap) := by
  have hsettle : EveryStep Portfolio.step Portfolio.Safe e.portfolio
      (settleEvents cfg snap.observedAt e) := by
    refine EveryStep.of_forall_mem fun ev hev p => ?_
    obtain ⟨key, price, at_, rfl⟩ := mem_settleEvents cfg hev
    exact ⟨trivial, trivial, trivial⟩
  have hlong' : (settleDue cfg snap.observedAt e).portfolio.Long := by
    rw [(settleDue_settled cfg snap.observedAt e).portfolio]
    exact hlong.replay hsettle
  refine everyStep_snapshotEvents (fun _ _ _ _ _ => ⟨trivial, trivial, trivial⟩)
    (fun _ _ _ _ => ⟨trivial, trivial, trivial⟩) ?_
  intro drained m fills hinv hdrain hadvance
  exact safe_fillEvents hwf hlong' hbuy h.covered hinv hdrain hadvance
    (everyStep_fillEvents h.noDust hinv hdrain hadvance)

/-- **The engine sells only what it holds.**  In a run of BUY intents all of whose snapshots
are covered and leave no dust, at every point of the run the sells of a token and a strategy
are at most its buys, and there is no short position. -/
theorem neverOversells_of_covered (hbuy : ∀ intent ∈ intents, intent.side = .buy)
    (hsafe : EveryAttempt (feedOne (onSnapshot cfg strat)) (SafeSnapshot cfg)
      (start cfg st intents) snapshots)
    {pre : List PortfolioEvent} (hpre : pre <+: runEvents cfg strat st intents snapshots)
    (token : TokenId) (slug : Option Slug) :
    sharesOn ((Portfolio.init (portfolioConfig cfg)).appliedFills pre) .sell token slug ≤
        sharesOn ((Portfolio.init (portfolioConfig cfg)).appliedFills pre) .buy token slug ∧
      ((Portfolio.init (portfolioConfig cfg)).replay pre).positions.get? (token, .sell, slug) =
        none := by
  have hrun : EveryStep Portfolio.step Portfolio.Safe (Portfolio.init (portfolioConfig cfg))
      (runEvents cfg strat st intents snapshots) := by
    refine everyStep_runEvents
      (I := fun e => e.portfolio.Long ∧ ∀ intent ∈ e.pendingIntents, intent.side = .buy) hsafe
      ⟨Portfolio.long_init _, fun intent hintent => ?_⟩ ?_
      (fun _ _ _ _ _ => ⟨trivial, trivial, trivial⟩)
      fun e snap hI hwf hC => hC.safe hwf hI.1 hI.2
    · exact hbuy intent (mem_sortByKey.1 hintent)
    · rintro e snap e' ⟨hlong, hpending⟩ hwf hC h
      refine ⟨?_, ?_⟩
      · show e'.portfolio.Long
        rw [portfolio_onSnapshot h]
        exact hlong.replay (hC.safe hwf hlong hpending)
      · show ∀ intent ∈ e'.pendingIntents, intent.side = .buy
        rw [pendingIntents_onSnapshot h]
        exact hpending
  exact Portfolio.sold_le_bought (hrun.of_prefix hpre) token slug

/-- A strategy that answers every question with a full close. -/
def alwaysClose : Strategy Unit where
  shouldExit := some fun s _ _ => (s, .ok (some { action := .close, reason := "exit" }))

/-- A book with twenty shares on each side, bid at `bid` and offered a cent higher. -/
def deepBook (observedAt : Time) (bid : ℚ) : BookSnapshot where
  tokenId := "t"
  observedAt := observedAt
  bids := [⟨bid, 20⟩]
  asks := [⟨bid + 1 / 100, 20⟩]
  bids_desc := List.pairwise_singleton _ _
  asks_asc := List.pairwise_singleton _ _

/-- The events of a run of one entry that is always closed. -/
def closingRun (books : List BookSnapshot) : List PortfolioEvent :=
  runEvents (.plain 1 {}) (some alwaysClose) () oneEntry books

/-- With no snapshot while the exit is in flight, the ten shares are sold once. -/
theorem oneExit_neverOversells :
    sharesOn ((Portfolio.init (portfolioConfig (.plain 1 {}))).appliedFills
        (closingRun [deepBook 1000 (49 / 100), deepBook 3000 (1 / 2)])) .sell "t" none ≤
      sharesOn ((Portfolio.init (portfolioConfig (.plain 1 {}))).appliedFills
        (closingRun [deepBook 1000 (49 / 100), deepBook 3000 (1 / 2)])) .buy "t" none ∧
    ((Portfolio.init (portfolioConfig (.plain 1 {}))).replay
      (closingRun [deepBook 1000 (49 / 100), deepBook 3000 (1 / 2)])).positions.get?
        ("t", .sell, none) = none :=
  neverOversells_of_covered (by decide) (by decide +kernel) (List.prefix_refl _) "t" none

/-- A snapshot while the exit is in flight makes the engine ask again and send a second exit:
when both have filled, ten shares are bought and twenty sold. -/
theorem twoExits_oversell :
    ¬ ∀ pre, pre <+: closingRun [deepBook 1000 (49 / 100), deepBook 1500 (49 / 100),
        deepBook 3000 (1 / 2)] →
      sharesOn ((Portfolio.init (portfolioConfig (.plain 1 {}))).appliedFills pre) .sell "t" none ≤
        sharesOn ((Portfolio.init (portfolioConfig (.plain 1 {}))).appliedFills pre) .buy "t"
          none := by
  intro h
  -- the entry, two marks and the two exits
  have hle := h _ (List.take_prefix 5 _)
  exact absurd hle (by decide +kernel)

end BacktestEngine

end Evosport.Backtest
