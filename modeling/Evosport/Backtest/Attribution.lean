/-
Attribution of profit to trades.

The trade ledger of a run lists the realized profit of every closed position, the equity
curve follows the cash.  `Portfolio.worth` is the quantity that ties the two together: the
cash, plus the cost of what is open, minus the profit booked so far.  An event moves it only
by the fee of an opening fill (`worth_step`), which the cash pays and no position books.  So
in a run that ends flat and whose closes are exact, the profits of the trades add up to the
gain of the account if and only if the opening fills were free
(`attributed_iff_noOpeningFees`).
-/
import Evosport.Backtest.Trace

namespace Evosport.Backtest

open Lib

/-- What an open position contributes: the cost paid for a long or received for a short, less
the profit already booked. -/
def Position.openValue (pos : Position) : ℚ :=
  (match pos.side with
    | .buy => pos.costBasisUsd
    | .sell => -pos.costBasisUsd) - pos.realizedPnlUsd

/-- A fill of positive size, or no fill at all. -/
def PortfolioEvent.Positive : PortfolioEvent → Prop
  | .fill f _ => 0 < f.size
  | _ => True

namespace Portfolio

/-- Cash, plus the cost of the open positions, minus the profit booked so far. -/
def worth (p : Portfolio) : ℚ :=
  p.cashUsd + p.positions.total (fun _ pos => pos.openValue) -
    (p.closedPositions.map Position.realizedPnlUsd).sum

/-- The fee that an event pays to open or to scale a position. -/
def openingFee (p : Portfolio) : PortfolioEvent → ℚ
  | .fill f slug =>
    if p.positions.contains (f.tokenId, f.side.opposite, slug) then 0 else f.feeUsd
  | _ => 0

/-- The fees that the events of a run pay to open or to scale positions. -/
def openingFees (p : Portfolio) : List PortfolioEvent → ℚ
  | [] => 0
  | ev :: evs => p.openingFee ev + (p.step ev).openingFees evs

/-- Every position is of positive size. -/
def Sized (p : Portfolio) : Prop := ∀ key pos, p.positions.get? key = some pos → 0 < pos.size

/-! ## One close -/

lemma openValue_applyCloseFill {pos : Position} {fill : Fill} (hpos : 0 < pos.size)
    (hle : fill.size ≤ pos.size) :
    (pos.applyCloseFill fill).openValue =
      pos.openValue + fill.feeUsd - match pos.side with
        | .buy => fill.notionalUsd
        | .sell => -fill.notionalUsd := by
  unfold Position.applyCloseFill Position.openValue Fill.notionalUsd
  rw [if_neg (not_le.2 hpos), min_eq_left hle]
  cases pos.side <;> simp only <;> ring

/-- A close that takes no more than the position moves no worth. -/
lemma worth_closeWith (p : Portfolio) {pos : Position} {fill : Fill} (hpos : 0 < pos.size)
    (hle : fill.size ≤ pos.size) :
    (p.closeWith pos fill).1.cashUsd + (p.closeWith pos fill).2.openValue =
      p.cashUsd + pos.openValue := by
  have hside : (pos.applyCloseFill fill).side = pos.side := by
    unfold Position.applyCloseFill
    split <;> rfl
  have hvalue := openValue_applyCloseFill hpos hle
  set pos' := pos.applyCloseFill fill with hpos'
  set fee := p.incrementalResolutionFee (pos'.realizedPnlUsd - pos.realizedPnlUsd)
  have hafter : (p.closeWith pos fill).2.openValue = pos'.openValue + fee := by
    show ({ pos' with
      feesPaidUsd := pos'.feesPaidUsd + fee
      realizedPnlUsd := pos'.realizedPnlUsd - fee } : Position).openValue = _
    unfold Position.openValue
    ring
  have hcash : (p.closeWith pos fill).1.cashUsd =
      (p.onCashChangeFromClose pos' fill).cashUsd - fee := rfl
  rw [hafter, hcash, hvalue]
  unfold onCashChangeFromClose
  rw [hside]
  cases pos.side <;> simp only <;> ring

/-- A position that is closed in full carries no cost. -/
lemma openValue_closeWith_full (p : Portfolio) {pos : Position} {fill : Fill}
    (hpos : 0 < pos.size) (hfull : fill.size = pos.size) :
    (p.closeWith pos fill).2.openValue = -(p.closeWith pos fill).2.realizedPnlUsd := by
  have hcost : (p.closeWith pos fill).2.costBasisUsd = 0 := by
    show (pos.applyCloseFill fill).costBasisUsd = 0
    unfold Position.applyCloseFill
    rw [if_neg (not_le.2 hpos), hfull, min_self]
    simp only [div_self hpos.ne', mul_one, sub_self]
  unfold Position.openValue
  rw [hcost]
  split <;> ring

lemma closedPositions_closeWith (p : Portfolio) (pos : Position) (fill : Fill) :
    (p.closeWith pos fill).1.closedPositions = p.closedPositions := by
  unfold closeWith onCashChangeFromClose
  dsimp only
  split <;> rfl

/-! ## One event -/

/-- A fill that closes its position exactly moves no worth. -/
lemma worth_applyFill_of_some {p : Portfolio} {f : Fill} {slug : Option Slug} {pos : Position}
    (hget : p.positions.get? (f.tokenId, f.side.opposite, slug) = some pos)
    (hpos : 0 < pos.size) (hclose : pos.ClosedExactlyBy f.size) :
    (p.applyFill f slug).worth = p.worth := by
  have he := e12_pos
  have hle : f.size ≤ pos.size := by
    rcases hclose with h | ⟨-, h⟩
    · exact h.le
    · linarith
  have hworth := p.worth_closeWith hpos hle
  have hpositions := p.positions_closeWith pos f
  have hclosed := p.closedPositions_closeWith pos f
  have hsize : (p.closeWith pos f).2.size = pos.size - f.size := by
    rw [size_closeWith, Position.size_applyCloseFill, if_neg (not_le.2 hpos), min_eq_left hle]
  have hshare : p.positions.share (fun _ pos => pos.openValue) (f.tokenId, f.side.opposite, slug) =
      pos.openValue := Dict.share_of_some hget
  unfold applyFill
  simp only [hget]
  rcases hclose with hfull | ⟨-, hpart⟩
  · -- the whole position goes, and with it its whole cost
    have hvalue := p.openValue_closeWith_full hpos hfull
    rw [if_pos (by rw [hsize, hfull]; linarith)]
    unfold worth
    simp only [hpositions, hclosed, Dict.total_erase, hshare, List.map_append, List.map_cons,
      List.map_nil, List.sum_append, List.sum_cons, List.sum_nil]
    linarith
  · rw [if_neg (by rw [hsize]; linarith)]
    unfold worth
    simp only [hpositions, hclosed, Dict.total_set, hshare]
    linarith

/-- An opening fill costs its fee. -/
lemma worth_applyFill_of_none {p : Portfolio} {f : Fill} {slug : Option Slug}
    (hkeyed : p.WellKeyed) (hget : p.positions.get? (f.tokenId, f.side.opposite, slug) = none) :
    (p.applyFill f slug).worth = p.worth - f.feeUsd := by
  set key : PositionKey := (f.tokenId, f.side, slug) with hkey
  set pos := (p.positions.get? key).getD
    { tokenId := f.tokenId, side := f.side, strategySlug := slug } with hpos
  have hside : pos.side = f.side := by
    cases hown : p.positions.get? key with
    | none => rw [hpos, hown]; rfl
    | some old =>
      rw [hpos, hown]
      exact (congrArg (fun k : PositionKey => k.2.1) (hkeyed key old hown)).symm
  have hshare : p.positions.share (fun _ pos => pos.openValue) key = pos.openValue := by
    cases hown : p.positions.get? key with
    | none =>
      rw [Dict.share_of_none hown, hpos, hown]
      unfold Position.openValue
      cases f.side <;> simp
    | some old => rw [Dict.share_of_some hown, hpos, hown]; rfl
  have hvalue : (pos.applyOpenFill f).openValue = pos.openValue + match f.side with
      | .buy => f.notionalUsd
      | .sell => -f.notionalUsd := by
    unfold Position.applyOpenFill Position.openValue
    rw [← hside]
    cases pos.side <;> simp only <;> ring
  unfold applyFill
  simp only [hget]
  unfold worth
  simp only [← hkey, ← hpos, Dict.total_set, hshare, hvalue]
  cases f.side <;> simp only <;> ring

lemma worth_closePositionAt {p : Portfolio} (hsized : p.Sized) (key : PositionKey) (price : ℚ)
    (at_ : Time) (b : Bool) : (p.closePositionAt key price at_ b).worth = p.worth := by
  cases hget : p.positions.get? key with
  | none => rw [closePositionAt_of_none hget]
  | some pos =>
    have hpos := hsized key pos hget
    set fill := syntheticFill key pos price at_ b with hfill
    have hfull : fill.size = pos.size := rfl
    have hworth := p.worth_closeWith hpos hfull.le
    have hvalue := p.openValue_closeWith_full hpos hfull
    have hshare : p.positions.share (fun _ pos => pos.openValue) key = pos.openValue :=
      Dict.share_of_some hget
    unfold closePositionAt
    simp only [hget, ← hfill]
    unfold worth
    simp only [p.positions_closeWith pos fill, p.closedPositions_closeWith pos fill,
      Dict.total_erase, hshare, List.map_append, List.map_cons, List.map_nil, List.sum_append,
      List.sum_cons, List.sum_nil]
    linarith

lemma worth_mark (p : Portfolio) (token : TokenId) (price : ℚ) (at_ : Time) :
    (p.mark token price at_).worth = p.worth := by
  have htotal : (p.positions.mapVal fun key pos =>
      if key.1 = token then pos.mark price at_ else pos).total (fun _ pos => pos.openValue) =
      p.positions.total fun _ pos => pos.openValue := by
    refine Dict.total_mapVal (fun key pos => ?_) p.positions
    split <;> rfl
  unfold worth mark
  simp only [htotal]

/-- An event whose close is exact moves the worth by its opening fee and by nothing else. -/
lemma worth_step {p : Portfolio} (hkeyed : p.WellKeyed) (hsized : p.Sized) {ev : PortfolioEvent}
    (hclose : p.ClosesExactly ev) : (p.step ev).worth = p.worth - p.openingFee ev := by
  cases ev with
  | fill f slug =>
    cases hget : p.positions.get? (f.tokenId, f.side.opposite, slug) with
    | none => simpa [step, openingFee, Dict.contains, hget] using worth_applyFill_of_none hkeyed hget
    | some pos =>
      simp only [ClosesExactly, hget, Option.elim_some] at hclose
      simpa [step, openingFee, Dict.contains, hget] using
        worth_applyFill_of_some hget (hsized _ pos hget) hclose
  | close key price at_ b => simpa [step, openingFee] using worth_closePositionAt hsized key price at_ b
  | mark token price at_ => simpa [step, openingFee] using worth_mark p token price at_

/-- Positive fills keep the positions of positive size. -/
lemma Sized.step {p : Portfolio} (h : p.Sized) {ev : PortfolioEvent} (hev : ev.Positive) :
    (p.step ev).Sized := by
  have he := e12_pos
  cases ev with
  | fill f slug =>
    intro key pos hget
    cases hopp : p.positions.get? (f.tokenId, f.side.opposite, slug) with
    | some old =>
      simp only [Portfolio.step, positions_applyFill_of_some hopp] at hget
      split at hget
      · rw [Dict.get?_erase] at hget
        split at hget
        · cases hget
        · exact h key pos hget
      · next hleft =>
        rw [Dict.get?_set] at hget
        split at hget
        · cases hget
          rw [size_closeWith]
          linarith
        · exact h key pos hget
    | none =>
      simp only [Portfolio.step, positions_applyFill_of_none hopp, Dict.get?_set] at hget
      split at hget
      · cases hget
        show 0 < ((p.positions.get? _).getD _).size + f.size
        cases hown : p.positions.get? (f.tokenId, f.side, slug) with
        | none =>
          have hsize : 0 < f.size := hev
          simpa using hsize
        | some old => exact add_pos (h _ old hown) hev
      · exact h key pos hget
  | close key price at_ b =>
    intro key' pos hget
    cases hown : p.positions.get? key with
    | none =>
      rw [Portfolio.step, closePositionAt_of_none hown] at hget
      exact h key' pos hget
    | some old =>
      have hpositions : (p.step (.close key price at_ b)).positions = p.positions.erase key := by
        simp [Portfolio.step, closePositionAt, hown, positions_closeWith]
      rw [hpositions, Dict.get?_erase] at hget
      split at hget
      · cases hget
      · exact h key' pos hget
  | mark token price at_ =>
    intro key pos hget
    simp only [Portfolio.step, mark, Dict.get?_mapVal, Option.map_eq_some_iff] at hget
    obtain ⟨old, hold, rfl⟩ := hget
    have hsize := h key old hold
    split <;> exact hsize

/-- Over a run of exact closes, the worth falls by the opening fees. -/
lemma worth_replay {p : Portfolio} (hkeyed : p.WellKeyed) (hsized : p.Sized)
    {events : List PortfolioEvent} (hpos : ∀ ev ∈ events, ev.Positive)
    (h : EveryStep step ClosesExactly p events) :
    (p.replay events).worth = p.worth - p.openingFees events := by
  induction events generalizing p with
  | nil => simp [openingFees]
  | cons ev events ih =>
    have hstep := worth_step hkeyed hsized h.1
    have hrest := ih (wellKeyed_step hkeyed ev) (hsized.step (hpos ev List.mem_cons_self))
      (fun ev hev => hpos ev (List.mem_cons_of_mem _ hev)) h.2
    show ((p.step ev).replay events).worth = _
    rw [hrest, hstep, openingFees]
    ring

end Portfolio

/-! ## Runs of the engine -/

namespace BacktestEngine

variable {σ : Type} {cfg : BacktestConfig} {strat : Option (Strategy σ)} {st : σ}
  {intents : List TradeIntent} {snapshots : List BookSnapshot}

lemma advanceTo_ok {m m' : MatchingEngine} {snap : BookSnapshot} {fills : List Fill}
    (h : m.advanceTo cfg.matching snap = .ok (m', fills)) :
    MatchingEngine.advance cfg.matching snap m = (m', fills) := by
  rcases MatchingEngine.advanceTo_cases cfg.matching m snap with ⟨-, err, heq⟩ | ⟨-, heq⟩ <;>
    rw [heq] at h <;> cases h
  rfl

lemma wellFormed_submits {P : BacktestOrder → Prop} {m m' : MatchingEngine}
    (h : Submits cfg P m m') (hwf : MatchingEngine.WellFormed m) : MatchingEngine.WellFormed m' :=
  h.invariant (I := MatchingEngine.WellFormed) hwf fun _ op _ hm => MatchingEngine.wellFormed_step hm op

lemma wellFormed_drained {now : Time} {e drained : BacktestEngine σ}
    (hwf : MatchingEngine.WellFormed e.matching)
    (h : drainIntents cfg now (settleDue cfg now e) = .ok drained) :
    MatchingEngine.WellFormed drained.matching := by
  obtain ⟨m, n, k, rfl, hm⟩ :=
    drainLoop_ok cfg now (P := fun _ => True) (fun _ _ _ _ => trivial) h
  rw [matching_settleDue] at hm
  exact wellFormed_submits hm hwf

/-- The fills of a run are of positive size. -/
lemma positive_runEvents (strat : Option (Strategy σ)) (st : σ) (intents : List TradeIntent)
    (snapshots : List BookSnapshot) :
    ∀ ev ∈ runEvents cfg strat st intents snapshots, ev.Positive := by
  have hrun : EveryStep Portfolio.step (fun _ ev => ev.Positive)
      (Portfolio.init (portfolioConfig cfg)) (runEvents cfg strat st intents snapshots) := by
    refine everyStep_runEvents (I := fun _ => True) (C := fun _ _ => True)
      (EveryAttempt.of_forall fun _ _ => trivial) trivial (fun _ _ _ _ _ _ _ => trivial)
      (fun _ _ _ _ _ => trivial) fun e snap _ hwf _ => ?_
    refine everyStep_snapshotEvents (fun _ _ _ _ _ => trivial) (fun _ _ _ _ => trivial) ?_
    intro drained m fills _ hdrain hadvance
    refine EveryStep.of_forall_mem fun ev hev _ => ?_
    obtain ⟨f, hf, hev⟩ := List.mem_filterMap.1 hev
    obtain ⟨o, -, rfl⟩ := Option.map_eq_some_iff.1 hev
    have hfills := MatchingEngine.advance_fills cfg.matching (wellFormed_drained hwf hdrain) snap
    rw [advanceTo_ok hadvance] at hfills
    exact (hfills f hf).2
  exact fun ev hev => hrun.of_mem ev hev

/-- **Attribution of profit.**  In a run that ends without an open position and whose closes
are exact, the profits of the trade outcomes add up to the gain of the account if and only
if the opening fills were free of fees. -/
theorem attributed_iff_noOpeningFees {r : BacktestResult}
    (hrun : run cfg strat st intents snapshots = .ok r) (hflat : r.openPositionCount = 0)
    (hclose : EveryStep Portfolio.step Portfolio.ClosesExactly
      (Portfolio.init (portfolioConfig cfg)) (runEvents cfg strat st intents snapshots)) :
    (r.tradeOutcomes.map TradeOutcome.pnlUsd).sum = r.finalEquityUsd - r.initialCapitalUsd ↔
      (Portfolio.init (portfolioConfig cfg)).openingFees
        (runEvents cfg strat st intents snapshots) = 0 := by
  obtain ⟨e, hfeed, rfl⟩ := except_map_eq_ok.1 hrun
  obtain ⟨equity, cash, hportfolio⟩ := portfolio_run hfeed
  set p := (Portfolio.init (portfolioConfig cfg)).replay (runEvents cfg strat st intents snapshots)
    with hp
  have hempty : p.positions.entries = [] := by
    have hlen : (finish cfg e).portfolio.positions.entries.length = 0 := hflat
    rw [hportfolio] at hlen
    exact List.length_eq_zero_iff.1 hlen
  have hworth := Portfolio.worth_replay (Portfolio.wellKeyed_init (portfolioConfig cfg))
    (fun key pos hget => by cases hget) (positive_runEvents strat st intents snapshots) hclose
  have hinitial : (Portfolio.init (portfolioConfig cfg)).worth = cfg.portfolio.initialCapitalUsd := by
    have hcapital : (portfolioConfig cfg).initialCapitalUsd = cfg.portfolio.initialCapitalUsd := by
      unfold portfolioConfig
      split <;> rfl
    simp [Portfolio.worth, Portfolio.init, hcapital]
  -- with no position open, the worth is the equity less the profits of the trades
  have hfinal : p.worth = (finish cfg e).portfolio.equityUsd -
      ((finish cfg e).portfolio.closedPositions.map Position.realizedPnlUsd).sum := by
    rw [hportfolio]
    simp [Portfolio.worth, Portfolio.equityUsd, Dict.total, Dict.values, hempty]
  have houtcomes : ((buildResult cfg (finish cfg e)).tradeOutcomes.map TradeOutcome.pnlUsd) =
      (finish cfg e).portfolio.closedPositions.map Position.realizedPnlUsd := by
    simp [buildResult, tradeOutcome]
  rw [houtcomes]
  show _ = (finish cfg e).portfolio.equityUsd - cfg.portfolio.initialCapitalUsd ↔ _
  rw [hinitial, ← hp, hfinal] at hworth
  constructor
  · intro h
    linarith
  · intro h
    linarith

/-- An entry of ten shares, and the one book of the run. -/
def oneEntry : List TradeIntent :=
  [{ intentId := "entry", emittedAt := 0, tokenId := "t", side := .buy, size := 10,
     limitPrice := 1 / 2 }]

/-- A bid at two fifths and an offer at one half, each for ten shares. -/
def oneBook : List BookSnapshot :=
  [{ tokenId := "t", observedAt := 1000, bids := [⟨2 / 5, 10⟩], asks := [⟨1 / 2, 10⟩]
     bids_desc := List.pairwise_singleton _ _
     asks_asc := List.pairwise_singleton _ _ }]

/-- Without fees the loss of the trade is the loss of the account. -/
theorem oneEntry_attributed : ∃ r,
    run (.plain 1 { perFillGasUsd := 0, useTakerFeeCurve := false }) none () oneEntry oneBook =
      .ok r ∧
    (r.tradeOutcomes.map TradeOutcome.pnlUsd).sum = r.finalEquityUsd - r.initialCapitalUsd := by
  have hrun : ∃ r,
      run (.plain 1 { perFillGasUsd := 0, useTakerFeeCurve := false }) none () oneEntry oneBook =
        .ok r ∧ r.openPositionCount = 0 := by
    refine ⟨((run (.plain 1 { perFillGasUsd := 0, useTakerFeeCurve := false }) none () oneEntry
      oneBook).toOption).getD ⟨0, 0, 0, 0, 0, 0, 0, [], [], [], 0, 0, 0, 0⟩, ?_, ?_⟩ <;>
      decide +kernel
  obtain ⟨r, hr, hflat⟩ := hrun
  exact ⟨r, hr, (attributed_iff_noOpeningFees hr hflat (by decide +kernel)).2 (by decide +kernel)⟩

/-- With the default fees the account loses the fee of the entry beside the loss of the
trade. -/
theorem oneEntry_unattributed :
    ¬ ∀ r, run (.plain 1 {}) none () oneEntry oneBook = .ok r → r.openPositionCount = 0 →
      (r.tradeOutcomes.map TradeOutcome.pnlUsd).sum = r.finalEquityUsd - r.initialCapitalUsd := by
  intro h
  have hall : ∀ r ∈ (run (.plain 1 {}) none () oneEntry oneBook).toOption,
      r.openPositionCount = 0 ∧
        (r.tradeOutcomes.map TradeOutcome.pnlUsd).sum ≠ r.finalEquityUsd - r.initialCapitalUsd := by
    decide +kernel
  cases hrun : run (.plain 1 {}) none () oneEntry oneBook with
  | error err =>
    have hok : (run (.plain 1 {}) none () oneEntry oneBook).toOption.isSome = true := by
      decide +kernel
    rw [hrun] at hok
    cases hok
  | ok r =>
    rw [hrun] at hall
    obtain ⟨hflat, hne⟩ := hall r rfl
    exact hne (h r hrun hflat)

end BacktestEngine

end Evosport.Backtest
