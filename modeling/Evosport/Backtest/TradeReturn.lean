/-
The return of a closed trade (`BacktestEngine._build_result`).

The outcome of a trade is computed from its closed position, whose size and cost basis the closing
fills have taken down to zero.  What the source divides the profit by is then the profit itself:
the return is that of the cost exactly when the two coincide (`returnOnCost_iff`); every other
winner shows a return of one hundred per cent, whatever it cost.

The cost of the opening fills of each position is kept beside the portfolio (`Costs`).
-/
import Evosport.Backtest.Attribution

namespace Evosport.Backtest

open Lib

/-- A fill of positive size, at a price that is not negative. -/
def PortfolioEvent.Proper : PortfolioEvent → Prop
  | .fill f _ => 0 < f.size ∧ 0 ≤ f.price
  | _ => True

instance : ∀ ev : PortfolioEvent, Decidable ev.Proper
  | .fill .. => inferInstanceAs (Decidable (_ ∧ _))
  | .close .. => isTrue trivial
  | .mark .. => isTrue trivial

lemma PortfolioEvent.Proper.positive {ev : PortfolioEvent} (h : ev.Proper) : ev.Positive := by
  cases ev with
  | fill f slug => exact h.1
  | close key price at_ b => trivial
  | mark token price at_ => trivial

/-- The key that a position is stored under. -/
def Position.key (pos : Position) : PositionKey := (pos.tokenId, pos.side, pos.strategySlug)

/-! ## The cost of the opening fills -/

/-- What the opening fills of the open positions cost, and the closed trades with what theirs
cost. -/
structure Costs where
  paid : Dict PositionKey ℚ := .empty
  trades : List (Position × ℚ) := []

namespace Portfolio

/-- The position that an event opens or scales, and what that costs. -/
def opened (p : Portfolio) : PortfolioEvent → Option (PositionKey × ℚ)
  | .fill f slug =>
    if p.positions.contains (f.tokenId, f.side.opposite, slug) then none
    else some ((f.tokenId, f.side, slug), f.notionalUsd)
  | _ => none

/-- The positions that an event closes. -/
def newlyClosed (p : Portfolio) (ev : PortfolioEvent) : List Position :=
  (p.step ev).closedPositions.drop p.closedPositions.length

end Portfolio

namespace Costs

/-- The cost of an opening fill is added. -/
def pay (c : Costs) : Option (PositionKey × ℚ) → Costs
  | some (key, cost) => { c with paid := c.paid.set key (c.paid.getD key 0 + cost) }
  | none => c

/-- A closed position becomes a trade. -/
def settle (c : Costs) (pos : Position) : Costs :=
  { paid := c.paid.erase pos.key
    trades := c.trades ++ [(pos, c.paid.getD pos.key 0)] }

/-- One event. -/
def step (p : Portfolio) (c : Costs) (ev : PortfolioEvent) : Costs :=
  (p.newlyClosed ev).foldl settle (c.pay (p.opened ev))

end Costs

/-- A portfolio and its costs. -/
def costedStep (s : Portfolio × Costs) (ev : PortfolioEvent) : Portfolio × Costs :=
  (s.1.step ev, s.2.step s.1 ev)

/-- The closed trades of a run with what their opening fills cost. -/
def trades (cfg : PortfolioConfig) (events : List PortfolioEvent) : List (Position × ℚ) :=
  (events.foldl costedStep (Portfolio.init cfg, {})).2.trades

/-! ## What a position keeps -/

/-- What holds of a position whose opening fills cost `cost`: size, entry price and cost are not
negative, the cost basis is the size at the entry price, and what was free to enter cost nothing. -/
structure Basis (pos : Position) (cost : ℚ) : Prop where
  size_nonneg : 0 ≤ pos.size
  entryPrice_nonneg : 0 ≤ pos.entryPrice
  costBasisUsd : pos.costBasisUsd = pos.entryPrice * pos.size
  cost_nonneg : 0 ≤ cost
  free : pos.entryPrice = 0 → cost = 0

namespace Basis

variable {pos : Position} {cost : ℚ} {f : Fill}

/-- A new or scaled position. -/
lemma applyOpenFill (h : Basis pos cost) (hsize : pos.size = 0 → cost = 0) (hf : 0 < f.size)
    (hprice : 0 ≤ f.price) :
    Basis (pos.applyOpenFill f) (cost + f.notionalUsd) ∧ 0 < (pos.applyOpenFill f).size := by
  have hnew : 0 < pos.size + f.size := by linarith [h.size_nonneg]
  have hold := mul_nonneg h.entryPrice_nonneg h.size_nonneg
  have hadded := mul_nonneg hprice hf.le
  have hentry : (pos.applyOpenFill f).entryPrice =
      (pos.entryPrice * pos.size + f.price * f.size) / (pos.size + f.size) := by
    simp only [Position.applyOpenFill, if_pos hnew]
  refine ⟨⟨hnew.le, ?_, ?_, add_nonneg h.cost_nonneg hadded, fun hzero => ?_⟩, hnew⟩
  · rw [hentry]
    exact div_nonneg (add_nonneg hold hadded) hnew.le
  · show pos.costBasisUsd + f.price * f.size = _ * (pos.size + f.size)
    rw [hentry, div_mul_cancel₀ _ hnew.ne', h.costBasisUsd]
  · -- every fill so far was for free
    rw [hentry, div_eq_zero_iff] at hzero
    have hsum : pos.entryPrice * pos.size + f.price * f.size = 0 :=
      hzero.resolve_right hnew.ne'
    have hcost : cost = 0 := by
      rcases mul_eq_zero.1 (show pos.entryPrice * pos.size = 0 by linarith) with hz | hz
      · exact h.free hz
      · exact hsize hz
    show cost + f.price * f.size = 0
    linarith

/-- A closing fill takes the same part of the size and of the cost basis. -/
lemma applyCloseFill (h : Basis pos cost) (hpos : 0 < pos.size) (f : Fill) :
    Basis (pos.applyCloseFill f) cost := by
  have hentry : (pos.applyCloseFill f).entryPrice = pos.entryPrice := by
    unfold Position.applyCloseFill
    split <;> rfl
  have hsize : (pos.applyCloseFill f).size = pos.size - min f.size pos.size := by
    rw [Position.size_applyCloseFill, if_neg (not_le.2 hpos)]
  have hbasis : (pos.applyCloseFill f).costBasisUsd =
      pos.costBasisUsd - pos.costBasisUsd * (min f.size pos.size / pos.size) := by
    simp only [Position.applyCloseFill, if_neg (not_le.2 hpos)]
  refine ⟨?_, hentry ▸ h.entryPrice_nonneg, ?_, h.cost_nonneg, fun hz => h.free (hentry ▸ hz)⟩
  · rw [hsize]
    linarith [min_le_right f.size pos.size]
  · rw [hbasis, hentry, hsize, h.costBasisUsd]
    field_simp

lemma closeWith (p : Portfolio) (h : Basis pos cost) (hpos : 0 < pos.size) (f : Fill) :
    Basis (p.closeWith pos f).2 cost := by
  have hclosed := h.applyCloseFill hpos f
  exact ⟨hclosed.size_nonneg, hclosed.entryPrice_nonneg, hclosed.costBasisUsd, hclosed.cost_nonneg,
    hclosed.free⟩

/-- A mark is no part of it. -/
lemma mark (h : Basis pos cost) (price : ℚ) (at_ : Time) : Basis (pos.mark price at_) cost :=
  ⟨h.size_nonneg, h.entryPrice_nonneg, h.costBasisUsd, h.cost_nonneg, h.free⟩

end Basis

/-! ## Runs -/

/-- The costs belong to the portfolio: every open position has its cost beside it, a key without a
position has none, and the closed positions are listed with the costs they were closed with. -/
structure Booked (p : Portfolio) (c : Costs) : Prop where
  wellKeyed : p.WellKeyed
  sized : p.Sized
  held : ∀ key pos, p.positions.get? key = some pos → Basis pos (c.paid.getD key 0)
  unpaid : ∀ key, p.positions.get? key = none → c.paid.getD key 0 = 0
  trades : ∀ t ∈ c.trades, Basis t.1 t.2
  closed : c.trades.map Prod.fst = p.closedPositions

namespace Booked

variable {p p' : Portfolio} {c : Costs} {key : PositionKey} {pos : Position}

lemma init (cfg : PortfolioConfig) : Booked (Portfolio.init cfg) {} :=
  ⟨Portfolio.wellKeyed_init cfg, fun _ _ hget => (nomatch hget), fun _ _ hget => (nomatch hget),
    fun _ _ => rfl, fun _ ht => absurd ht List.not_mem_nil, rfl⟩

/-- Events that neither open nor close leave the costs. -/
lemma rewrite (h : Booked p c) (hkeyed : p'.WellKeyed) (hsized : p'.Sized)
    (hheld : ∀ key pos', p'.positions.get? key = some pos' →
      ∃ pos, p.positions.get? key = some pos ∧ ∀ cost, Basis pos cost → Basis pos' cost)
    (hnone : ∀ key, p'.positions.get? key = none → p.positions.get? key = none)
    (hclosed : p'.closedPositions = p.closedPositions) : Booked p' c := by
  refine ⟨hkeyed, hsized, fun key pos' hget' => ?_, fun key hget' => h.unpaid key (hnone key hget'),
    h.trades, h.closed.trans hclosed.symm⟩
  obtain ⟨pos, hget, hbasis⟩ := hheld key pos' hget'
  exact hbasis _ (h.held key pos hget)

/-- The positions of a portfolio after one of them has become a trade. -/
lemma settle (h : Booked p c) (hget : p.positions.get? key = some pos) (f : Fill)
    (hkeyed : p'.WellKeyed) (hsized : p'.Sized) (hpositions : p'.positions = p.positions.erase key)
    (hclosed : p'.closedPositions = p.closedPositions ++ [(p.closeWith pos f).2]) :
    Booked p' (c.settle (p.closeWith pos f).2) := by
  have hkey : (p.closeWith pos f).2.key = key := by
    rw [h.wellKeyed key pos hget]
    unfold Portfolio.closeWith Position.applyCloseFill
    split <;> rfl
  have hpos := h.sized key pos hget
  refine ⟨hkeyed, hsized, fun key' pos' hget' => ?_, fun key' hget' => ?_, fun t ht => ?_, ?_⟩
  · rw [hpositions, Dict.get?_erase] at hget'
    split at hget'
    · cases hget'
    · next hne =>
      rw [Costs.settle, hkey, Dict.getD, Dict.get?_erase, if_neg hne]
      exact h.held key' pos' hget'
  · rw [hpositions, Dict.get?_erase] at hget'
    rw [Costs.settle, hkey, Dict.getD, Dict.get?_erase]
    split at hget'
    · next heq => rw [if_pos heq]; rfl
    · next hne =>
      rw [if_neg hne]
      exact h.unpaid key' hget'
  · rcases List.mem_append.1 ht with ht | ht
    · exact h.trades t ht
    · rw [List.mem_singleton.1 ht, hkey]
      exact (h.held key pos hget).closeWith p hpos f
  · rw [Costs.settle, List.map_append, h.closed, hclosed]
    rfl

/-- An opening fill is paid. -/
lemma pay (h : Booked p c) {f : Fill} {slug : Option Slug} (hf : 0 < f.size) (hprice : 0 ≤ f.price)
    (hopp : p.positions.get? (f.tokenId, f.side.opposite, slug) = none)
    (hkeyed : (p.applyFill f slug).WellKeyed) (hsized : (p.applyFill f slug).Sized) :
    Booked (p.applyFill f slug) (c.pay (some ((f.tokenId, f.side, slug), f.notionalUsd))) := by
  have hpositions := Portfolio.positions_applyFill_of_none hopp
  refine ⟨hkeyed, hsized, fun key pos hget => ?_, fun key hget => ?_, h.trades, ?_⟩
  · rw [hpositions, Dict.get?_set] at hget
    rw [Costs.pay, Dict.getD_set]
    split at hget
    · next hkey =>
      subst hkey
      cases hget
      rw [if_pos rfl]
      cases hown : p.positions.get? (f.tokenId, f.side, slug) with
      | some old =>
        refine (Basis.applyOpenFill (h.held _ old hown) (fun hzero => ?_) hf hprice).1
        exact absurd hzero (h.sized _ old hown).ne'
      | none =>
        rw [h.unpaid _ hown]
        have hnew : Basis { tokenId := f.tokenId, side := f.side, strategySlug := slug } 0 :=
          ⟨le_refl _, le_refl _, (zero_mul 0).symm, le_refl _, fun _ => rfl⟩
        exact (hnew.applyOpenFill (fun _ => rfl) hf hprice).1
    · next hkey =>
      rw [if_neg hkey]
      exact h.held key pos hget
  · rw [hpositions, Dict.get?_set] at hget
    rw [Costs.pay, Dict.getD_set]
    split at hget
    · cases hget
    · next hkey =>
      rw [if_neg hkey]
      exact h.unpaid key hget
  · rw [Costs.pay, h.closed]
    simp [Portfolio.applyFill, hopp]

/-- One event. -/
lemma step (h : Booked p c) {ev : PortfolioEvent} (hev : ev.Proper) :
    Booked (p.step ev) (c.step p ev) := by
  have hkeyed := Portfolio.wellKeyed_step h.wellKeyed ev
  have hsized := h.sized.step hev.positive
  have hcosts : ∀ new, (p.step ev).closedPositions = p.closedPositions ++ new →
      c.step p ev = new.foldl Costs.settle (c.pay (p.opened ev)) := by
    intro new hnew
    rw [Costs.step, Portfolio.newlyClosed, hnew, List.drop_left]
  cases ev with
  | fill f slug =>
    cases hopp : p.positions.get? (f.tokenId, f.side.opposite, slug) with
    | some pos =>
      have hopened : p.opened (.fill f slug) = none := by
        simp [Portfolio.opened, Dict.contains, hopp]
      have hpositions := Portfolio.positions_applyFill_of_some hopp
      rw [hopened] at hcosts
      by_cases hdust : (pos.applyCloseFill f).size ≤ e12
      · have hclosed : (p.step (.fill f slug)).closedPositions =
            p.closedPositions ++ [(p.closeWith pos f).2] := by
          simp only [Portfolio.step, Portfolio.applyFill, hopp, Portfolio.size_closeWith,
            if_pos hdust, Portfolio.closedPositions_closeWith]
        rw [if_pos hdust] at hpositions
        rw [hcosts _ hclosed]
        exact h.settle hopp f hkeyed hsized hpositions hclosed
      · have hclosed : (p.step (.fill f slug)).closedPositions = p.closedPositions := by
          simp only [Portfolio.step, Portfolio.applyFill, hopp, Portfolio.size_closeWith,
            if_neg hdust, Portfolio.closedPositions_closeWith]
        rw [if_neg hdust] at hpositions
        rw [hcosts [] (by rw [hclosed, List.append_nil])]
        refine h.rewrite hkeyed hsized (fun key pos' hget => ?_) (fun key hget => ?_) hclosed
        · rw [Portfolio.step, hpositions, Dict.get?_set] at hget
          split at hget
          · next hkey =>
            cases hget
            exact ⟨pos, hkey ▸ hopp, fun cost hb => hb.closeWith p (h.sized _ pos hopp) f⟩
          · exact ⟨pos', hget, fun cost hb => hb⟩
        · rw [Portfolio.step, hpositions, Dict.get?_set] at hget
          split at hget
          · cases hget
          · exact hget
    | none =>
      have hopened : p.opened (.fill f slug) = some ((f.tokenId, f.side, slug), f.notionalUsd) := by
        simp [Portfolio.opened, Dict.contains, hopp]
      rw [hcosts [] (by simp [Portfolio.step, Portfolio.applyFill, hopp]), hopened]
      exact h.pay hev.1 hev.2 hopp hkeyed hsized
  | close key price at_ b =>
    cases hget : p.positions.get? key with
    | some pos =>
      have hclosed : (p.step (.close key price at_ b)).closedPositions =
          p.closedPositions ++
            [(p.closeWith pos (Portfolio.syntheticFill key pos price at_ b)).2] := by
        simp [Portfolio.step, Portfolio.closePositionAt, hget, Portfolio.closedPositions_closeWith]
      have hpositions : (p.step (.close key price at_ b)).positions = p.positions.erase key := by
        simp [Portfolio.step, Portfolio.closePositionAt, hget, Portfolio.positions_closeWith]
      rw [hcosts _ hclosed]
      exact h.settle hget _ hkeyed hsized hpositions hclosed
    | none =>
      have hsame : p.step (.close key price at_ b) = p :=
        Portfolio.closePositionAt_of_none hget _ _ _
      rw [hcosts [] (by rw [hsame, List.append_nil]), hsame]
      exact h
  | mark token price at_ =>
    rw [hcosts [] (List.append_nil _).symm]
    refine h.rewrite hkeyed hsized (fun key pos' hget => ?_) (fun key hget => ?_) rfl
    · simp only [Portfolio.step, Portfolio.mark, Dict.get?_mapVal, Option.map_eq_some_iff] at hget
      obtain ⟨pos, hget, rfl⟩ := hget
      refine ⟨pos, hget, fun cost hb => ?_⟩
      split
      · exact hb.mark price at_
      · exact hb
    · simpa [Portfolio.step, Portfolio.mark, Dict.get?_mapVal] using hget

/-- A run. -/
lemma run (cfg : PortfolioConfig) {events : List PortfolioEvent} (hev : ∀ ev ∈ events, ev.Proper) :
    Booked ((Portfolio.init cfg).replay events)
        (events.foldl costedStep (Portfolio.init cfg, {})).2 ∧
      (events.foldl costedStep (Portfolio.init cfg, {})).1 =
        (Portfolio.init cfg).replay events := by
  induction events using List.reverseRecOn with
  | nil => exact ⟨init cfg, rfl⟩
  | append_singleton events ev ih =>
    obtain ⟨hbooked, hsame⟩ := ih fun ev' hmem => hev ev' (List.mem_append_left _ hmem)
    rw [List.foldl_append, Portfolio.replay_append]
    show Booked (((Portfolio.init cfg).replay events).step ev) (Costs.step _ _ ev) ∧ _ = _
    rw [hsame]
    exact ⟨hbooked.step (hev ev (by simp)), by simp [costedStep, hsame, Portfolio.replay]⟩

end Booked

/-! ## The return -/

/-- A closed trade whose return is that of its cost: it made nothing, or what the source divides
by happens to be the cost.  Of a position that was closed in full that is its profit, cut where the
entry price is below `0.0001` and never less than `1e-9`; of one that was closed but for dust it is
the profit and what the dust cost. -/
def ProfitIsCost (pos : Position) (cost : ℚ) : Prop :=
  pos.realizedPnlUsd = 0 ∨
    if pos.size = 0 then cost = max e9 (pos.realizedPnlUsd * min 1 (10000 * pos.entryPrice))
    else cost = pos.entryPrice * pos.size + pos.realizedPnlUsd

instance (pos : Position) (cost : ℚ) : Decidable (ProfitIsCost pos cost) :=
  inferInstanceAs (Decidable (_ ∨ _))

namespace BacktestEngine

variable {pos : Position} {cost : ℚ}

/-- What the source divides the profit by. -/
lemma returnPct_eq (h : Basis pos cost) (hcost : cost ≠ 0) :
    (tradeOutcome pos).returnPct =
      if pos.size = 0 then
        pos.realizedPnlUsd / max e9 (pos.realizedPnlUsd * min 1 (10000 * pos.entryPrice)) * 100
      else if pos.entryPrice * pos.size + pos.realizedPnlUsd > 0 then
        pos.realizedPnlUsd / (pos.entryPrice * pos.size + pos.realizedPnlUsd) * 100
      else 0 := by
  have hentry : 0 < pos.entryPrice :=
    h.entryPrice_nonneg.lt_of_ne fun hzero => hcost (h.free hzero.symm)
  have he := e9_pos
  unfold tradeOutcome
  simp only [h.costBasisUsd]
  by_cases hsize : pos.size = 0
  · rw [if_pos hsize, hsize, mul_zero, if_neg (lt_irrefl 0), zero_add]
    have hscaled : pos.entryPrice * (pos.realizedPnlUsd / max (1 / 10000) pos.entryPrice) =
        pos.realizedPnlUsd * min 1 (10000 * pos.entryPrice) := by
      rcases le_total (1 / 10000) pos.entryPrice with hle | hle
      · rw [max_eq_right hle, min_eq_left (by linarith), mul_div_cancel₀ _ hentry.ne', mul_one]
      · rw [max_eq_left hle, min_eq_right (by linarith)]
        ring
    have hfloor : max e9 (max 0 (pos.realizedPnlUsd * min 1 (10000 * pos.entryPrice))) =
        max e9 (pos.realizedPnlUsd * min 1 (10000 * pos.entryPrice)) := by
      rw [← max_assoc, max_eq_left he.le]
    rw [hscaled, hfloor, if_pos (lt_max_of_lt_left he)]
  · have hpos : 0 < pos.entryPrice * pos.size :=
      mul_pos hentry (h.size_nonneg.lt_of_ne (Ne.symm hsize))
    rw [if_neg hsize, if_pos hpos]

lemma returnPct_iff (h : Basis pos cost) (hcost : cost ≠ 0) :
    (tradeOutcome pos).returnPct = 100 * ((tradeOutcome pos).pnlUsd / cost) ↔
      ProfitIsCost pos cost := by
  have hpos : 0 < cost := h.cost_nonneg.lt_of_ne (Ne.symm hcost)
  have hdiv : ∀ d : ℚ, 0 < d → (pos.realizedPnlUsd / d * 100 = 100 * (pos.realizedPnlUsd / cost) ↔
      pos.realizedPnlUsd = 0 ∨ cost = d) := by
    intro d hd
    have hd' := hd.ne'
    constructor
    · intro heq
      have hequal : pos.realizedPnlUsd / d = pos.realizedPnlUsd / cost := by linarith
      rw [div_eq_div_iff hd' hcost, mul_eq_mul_left_iff] at hequal
      exact hequal.symm
    · rintro (hzero | rfl)
      · simp [hzero]
      · ring
  rw [returnPct_eq h hcost]
  show _ = 100 * (pos.realizedPnlUsd / cost) ↔ _
  unfold ProfitIsCost
  split
  · exact hdiv _ (lt_max_of_lt_left e9_pos)
  split
  · next hd => exact hdiv _ hd
  · next hd =>
    constructor
    · intro heq
      refine .inl ?_
      have hzero : pos.realizedPnlUsd / cost = 0 := by linarith
      exact (div_eq_zero_iff.1 hzero).resolve_right hcost
    · rintro (hzero | heq)
      · rw [hzero, zero_div, mul_zero]
      · exact absurd (heq ▸ hpos) hd

/-- **The return of a trade.**  In every run the closed positions are the trades, and the return of
a trade whose opening fills cost something is its profit over that cost exactly when the profit is
zero or happens to be what the cost is. -/
theorem returnOnCost_iff (cfg : PortfolioConfig) (events : List PortfolioEvent)
    (hev : ∀ ev ∈ events, ev.Proper) :
    (trades cfg events).map Prod.fst = ((Portfolio.init cfg).replay events).closedPositions ∧
      ∀ t ∈ trades cfg events, t.2 ≠ 0 →
        ((tradeOutcome t.1).returnPct = 100 * ((tradeOutcome t.1).pnlUsd / t.2) ↔
          ProfitIsCost t.1 t.2) := by
  obtain ⟨hbooked, -⟩ := Booked.run cfg hev
  exact ⟨hbooked.closed, fun t ht hcost => returnPct_iff (hbooked.trades t ht) hcost⟩

/-- Ten shares are bought at two fifths and sold. -/
def boughtAndSold (price : ℚ) : List PortfolioEvent :=
  [.fill ⟨"entry", "t", .buy, 2 / 5, 10, 0, 0, 0, none⟩ none,
    .fill ⟨"exit", "t", .sell, price, 10, 0, 1, 0, none⟩ none]

/-- Sold at twice the price, the return is one hundred per cent. -/
theorem soldAtTwice_onCost :
    (trades {} (boughtAndSold (4 / 5))).map Prod.snd = [4] ∧
      ∀ t ∈ trades {} (boughtAndSold (4 / 5)), t.2 ≠ 0 →
        (tradeOutcome t.1).returnPct = 100 * ((tradeOutcome t.1).pnlUsd / t.2) := by
  refine ⟨by decide +kernel, fun t ht hcost => ?_⟩
  have h := (returnOnCost_iff {} (boughtAndSold (4 / 5)) (by decide +kernel)).2 t ht hcost
  have hall : ∀ t ∈ trades {} (boughtAndSold (4 / 5)), ProfitIsCost t.1 t.2 := by decide +kernel
  exact h.2 (hall t ht)

/-- Sold at one half the trade makes a quarter of its cost, and the same hundred per cent are
shown. -/
theorem soldAtHalf_notOnCost :
    (trades {} (boughtAndSold (1 / 2))).map (fun t =>
        ((tradeOutcome t.1).returnPct, 100 * ((tradeOutcome t.1).pnlUsd / t.2))) = [(100, 25)] := by
  decide +kernel

end BacktestEngine

end Evosport.Backtest
