/-
The portfolio as a ledger of events.

Everything that happens to a portfolio in a run is an event: a fill from the matching
engine, a synthetic close, or a mark.  `Portfolio.replay` folds the events.  The main
result is double-entry conservation: in every state of a run the signed shares held are
the shares bought minus the shares sold, and the cash is accounted for by the notionals
and the fees, *if and only if* every closing fill either closes its position exactly or
leaves more than `1e-12` shares of it (`conserved_iff_closesExactly`).  A fill larger than
the position it closes moves cash for its whole size while only the size of the position
is taken.
-/
import Evosport.Lib.Run
import Evosport.Backtest.Portfolio

namespace Evosport.Backtest

open Lib

/-- What can happen to a portfolio: a fill of an order, the closing of a position at a price of its
own, and a mark. -/
inductive PortfolioEvent where
  | fill (fill : Fill) (strategySlug : Option Slug)
  | close (key : PositionKey) (price : ℚ) (at_ : Time) (isSettlement : Bool)
  | mark (tokenId : TokenId) (price : ℚ) (at_ : Time)
deriving DecidableEq, Repr

/-- A fill together with the strategy it was made for. -/
abbrev AppliedFill := Fill × Option Slug

namespace Portfolio

/-- One event. -/
def step (p : Portfolio) : PortfolioEvent → Portfolio
  | .fill f slug => p.applyFill f slug
  | .close key price at_ isSettlement => p.closePositionAt key price at_ isSettlement
  | .mark tokenId price at_ => p.mark tokenId price at_

/-- A run over a list of events. -/
def replay (p : Portfolio) (events : List PortfolioEvent) : Portfolio := events.foldl step p

@[simp] lemma replay_nil (p : Portfolio) : p.replay [] = p := rfl

lemma replay_append (p : Portfolio) (xs ys : List PortfolioEvent) :
    p.replay (xs ++ ys) = (p.replay xs).replay ys := List.foldl_append

/-- The fill that an event applies: for a synthetic close, the synthetic fill. -/
def applied (p : Portfolio) : PortfolioEvent → List AppliedFill
  | .fill f slug => [(f, slug)]
  | .close key price at_ isSettlement =>
    (p.positions.get? key).elim [] fun pos =>
      [(syntheticFill key pos price at_ isSettlement, pos.strategySlug)]
  | .mark .. => []

/-- The fills applied in a run, in order. -/
def appliedFills (p : Portfolio) : List PortfolioEvent → List AppliedFill
  | [] => []
  | ev :: evs => p.applied ev ++ (p.step ev).appliedFills evs

lemma appliedFills_append (p : Portfolio) (xs ys : List PortfolioEvent) :
    p.appliedFills (xs ++ ys) = p.appliedFills xs ++ (p.replay xs).appliedFills ys := by
  induction xs generalizing p with
  | nil => rfl
  | cons x xs ih => simp [appliedFills, ih, replay]

/-- The size of the position under a key. -/
def sizeAt (p : Portfolio) (key : PositionKey) : ℚ :=
  (p.positions.get? key).elim 0 Position.size

/-- The signed shares held for a token and a strategy. -/
def held (p : Portfolio) (token : TokenId) (slug : Option Slug) : ℚ :=
  p.sizeAt (token, .buy, slug) - p.sizeAt (token, .sell, slug)

end Portfolio

/-- The shares that the fills of one side moved for a token and a strategy. -/
def sharesOn (fs : List AppliedFill) (side : Side) (token : TokenId) (slug : Option Slug) : ℚ :=
  ((fs.filter fun a => a.1.side = side ∧ a.1.tokenId = token ∧ a.2 = slug).map
    fun a => a.1.size).sum

/-- The notional of the fills of one side. -/
def notionalOn (fs : List AppliedFill) (side : Side) : ℚ :=
  ((fs.filter fun a => a.1.side = side).map fun a => a.1.notionalUsd).sum

/-- The fees of the fills. -/
def fillFees (fs : List AppliedFill) : ℚ := (fs.map fun a => a.1.feeUsd).sum

/-- Double-entry conservation after a run from the initial portfolio. -/
structure Conserved (cfg : PortfolioConfig) (events : List PortfolioEvent) : Prop where
  shares : ∀ token slug,
    ((Portfolio.init cfg).replay events).held token slug =
      sharesOn ((Portfolio.init cfg).appliedFills events) .buy token slug -
        sharesOn ((Portfolio.init cfg).appliedFills events) .sell token slug
  cash : ((Portfolio.init cfg).replay events).cashUsd =
    cfg.initialCapitalUsd + notionalOn ((Portfolio.init cfg).appliedFills events) .sell -
      notionalOn ((Portfolio.init cfg).appliedFills events) .buy -
      fillFees ((Portfolio.init cfg).appliedFills events) -
      ((Portfolio.init cfg).replay events).resolutionFeesPaidUsd

namespace Position

/-- A closing fill closes the position exactly or leaves more than `1e-12` shares of it. -/
def ClosedExactlyBy (pos : Position) (size : ℚ) : Prop :=
  size = pos.size ∨ (0 < pos.size ∧ size + e12 < pos.size)

instance (pos : Position) (size : ℚ) : Decidable (pos.ClosedExactlyBy size) :=
  inferInstanceAs (Decidable (_ ∨ _))

/-- The shares that remain booked after a closing fill, dust being dropped. -/
def residual (pos : Position) (fill : Fill) : ℚ :=
  if (pos.applyCloseFill fill).size ≤ e12 then 0 else (pos.applyCloseFill fill).size

lemma size_applyCloseFill (pos : Position) (fill : Fill) :
    (pos.applyCloseFill fill).size =
      if pos.size ≤ 0 then pos.size else pos.size - min fill.size pos.size := by
  unfold applyCloseFill
  split <;> rfl

/-- The books stay balanced exactly when the position is closed exactly. -/
lemma residual_eq_sub_iff (pos : Position) (fill : Fill) :
    pos.residual fill = pos.size - fill.size ↔ pos.ClosedExactlyBy fill.size := by
  have he := e12_pos
  unfold residual ClosedExactlyBy
  rw [size_applyCloseFill]
  by_cases hpos : pos.size ≤ 0
  · rw [if_pos hpos, if_pos (by linarith)]
    constructor
    · intro h
      exact Or.inl (by linarith)
    · rintro (h | ⟨h, -⟩)
      · linarith
      · exact absurd hpos (not_le.2 h)
  · rw [if_neg hpos]
    push Not at hpos
    rcases le_or_gt fill.size pos.size with hle | hgt
    · rw [min_eq_left hle]
      split
      · constructor
        · intro h
          exact Or.inl (by linarith)
        · rintro (h | ⟨-, h⟩) <;> linarith
      · exact ⟨fun _ => Or.inr ⟨hpos, by linarith⟩, fun _ => rfl⟩
    · rw [min_eq_right hgt.le, sub_self, if_pos he.le]
      constructor
      · intro h
        linarith
      · rintro (h | ⟨-, h⟩) <;> linarith

end Position

namespace Portfolio

/-- Every position is stored under its own token, side and strategy. -/
def WellKeyed (p : Portfolio) : Prop :=
  ∀ key pos, p.positions.get? key = some pos →
    key = (pos.tokenId, pos.side, pos.strategySlug)

/-- The condition on one event: a closing fill closes its position exactly or leaves more
than `1e-12` shares of it. -/
def ClosesExactly (p : Portfolio) : PortfolioEvent → Prop
  | .fill f slug =>
    (p.positions.get? (f.tokenId, f.side.opposite, slug)).elim True
      fun pos => pos.ClosedExactlyBy f.size
  | _ => True

instance (p : Portfolio) : ∀ ev, Decidable (p.ClosesExactly ev)
  | .fill f slug =>
    match h : p.positions.get? (f.tokenId, f.side.opposite, slug) with
    | none => isTrue (by simp only [ClosesExactly, h, Option.elim_none])
    | some pos => decidable_of_iff (pos.ClosedExactlyBy f.size)
        (by simp only [ClosesExactly, h, Option.elim_some])
  | .close .. => isTrue trivial
  | .mark .. => isTrue trivial

/-! ### What one event does -/

lemma size_closeWith (p : Portfolio) (pos : Position) (fill : Fill) :
    (p.closeWith pos fill).2.size = (pos.applyCloseFill fill).size := rfl

lemma positions_closeWith (p : Portfolio) (pos : Position) (fill : Fill) :
    (p.closeWith pos fill).1.positions = p.positions := by
  simp only [closeWith, onCashChangeFromClose]
  split <;> rfl

lemma positions_applyFill_of_some {p : Portfolio} {f : Fill} {slug : Option Slug}
    {pos : Position} (h : p.positions.get? (f.tokenId, f.side.opposite, slug) = some pos) :
    (p.applyFill f slug).positions =
      if (pos.applyCloseFill f).size ≤ e12 then
        p.positions.erase (f.tokenId, f.side.opposite, slug)
      else
        p.positions.set (f.tokenId, f.side.opposite, slug) (p.closeWith pos f).2 := by
  simp only [applyFill, h, size_closeWith]
  by_cases hd : (pos.applyCloseFill f).size ≤ e12
  · simp only [if_pos hd, positions_closeWith]
  · simp only [if_neg hd, positions_closeWith]

lemma positions_applyFill_of_none {p : Portfolio} {f : Fill} {slug : Option Slug}
    (h : p.positions.get? (f.tokenId, f.side.opposite, slug) = none) :
    (p.applyFill f slug).positions =
      p.positions.set (f.tokenId, f.side, slug)
        (((p.positions.get? (f.tokenId, f.side, slug)).getD
          { tokenId := f.tokenId, side := f.side, strategySlug := slug }).applyOpenFill f) := by
  simp only [applyFill, h]

/-- A closing fill replaces the size of the opposing position by its residual. -/
lemma sizeAt_applyFill_of_some {p : Portfolio} {f : Fill} {slug : Option Slug}
    {pos : Position} (h : p.positions.get? (f.tokenId, f.side.opposite, slug) = some pos)
    (key : PositionKey) :
    (p.applyFill f slug).sizeAt key =
      if (f.tokenId, f.side.opposite, slug) = key then pos.residual f else p.sizeAt key := by
  unfold sizeAt Position.residual
  rw [positions_applyFill_of_some h]
  by_cases hd : (pos.applyCloseFill f).size ≤ e12
  · rw [if_pos hd, if_pos hd, Dict.get?_erase]
    split <;> rfl
  · rw [if_neg hd, if_neg hd, Dict.get?_set]
    split
    · rfl
    · rfl

/-- A fill without an opposing position adds to the size on its own side. -/
lemma sizeAt_applyFill_of_none {p : Portfolio} {f : Fill} {slug : Option Slug}
    (h : p.positions.get? (f.tokenId, f.side.opposite, slug) = none) (key : PositionKey) :
    (p.applyFill f slug).sizeAt key =
      if (f.tokenId, f.side, slug) = key then p.sizeAt (f.tokenId, f.side, slug) + f.size
      else p.sizeAt key := by
  unfold sizeAt
  rw [positions_applyFill_of_none h, Dict.get?_set]
  split
  · cases p.positions.get? (f.tokenId, f.side, slug) <;> simp [Position.applyOpenFill]
  · rfl

/-- A synthetic close removes the position. -/
lemma sizeAt_closePositionAt {p : Portfolio} {key : PositionKey} {pos : Position}
    (h : p.positions.get? key = some pos) (price : ℚ) (at_ : Time) (b : Bool)
    (key' : PositionKey) :
    (p.closePositionAt key price at_ b).sizeAt key' =
      if key = key' then 0 else p.sizeAt key' := by
  have hp : (p.closePositionAt key price at_ b).positions = p.positions.erase key := by
    unfold closePositionAt
    rw [h]
    simp [positions_closeWith]
  unfold sizeAt
  rw [hp, Dict.get?_erase]
  split <;> rfl

lemma closePositionAt_of_none {p : Portfolio} {key : PositionKey}
    (h : p.positions.get? key = none) (price : ℚ) (at_ : Time) (b : Bool) :
    p.closePositionAt key price at_ b = p := by
  unfold closePositionAt
  rw [h]

lemma sizeAt_mark (p : Portfolio) (token : TokenId) (price : ℚ) (at_ : Time)
    (key : PositionKey) : (p.mark token price at_).sizeAt key = p.sizeAt key := by
  unfold sizeAt mark
  simp only [Dict.get?_mapVal]
  cases p.positions.get? key with
  | none => rfl
  | some pos =>
    simp only [Option.map_some, Option.elim_some]
    split <;> rfl

/-! ### Keys -/

lemma wellKeyed_init (cfg : PortfolioConfig) : (init cfg).WellKeyed := by
  intro key pos h
  simp [init] at h

lemma wellKeyed_applyFill {p : Portfolio} (h : p.WellKeyed) (f : Fill) (slug : Option Slug) :
    (p.applyFill f slug).WellKeyed := by
  intro key pos hget
  cases hopp : p.positions.get? (f.tokenId, f.side.opposite, slug) with
  | some old =>
    rw [positions_applyFill_of_some hopp] at hget
    split at hget
    · rw [Dict.get?_erase] at hget
      split at hget
      · cases hget
      · exact h key pos hget
    · rw [Dict.get?_set] at hget
      split at hget
      · next hk =>
        cases hget
        have hold := h _ old hopp
        rw [← hk, hold]
        unfold closeWith Position.applyCloseFill
        split <;> rfl
      · exact h key pos hget
  | none =>
    rw [positions_applyFill_of_none hopp, Dict.get?_set] at hget
    split at hget
    · next hk =>
      cases hget
      cases hown : p.positions.get? (f.tokenId, f.side, slug) with
      | none => exact hk.symm
      | some old => exact hk.symm.trans (h _ old hown)
    · exact h key pos hget

lemma wellKeyed_closePositionAt {p : Portfolio} (h : p.WellKeyed) (key : PositionKey)
    (price : ℚ) (at_ : Time) (b : Bool) : (p.closePositionAt key price at_ b).WellKeyed := by
  cases hget : p.positions.get? key with
  | none => rw [closePositionAt_of_none hget]; exact h
  | some old =>
    intro key' pos hpos
    have hp : (p.closePositionAt key price at_ b).positions = p.positions.erase key := by
      unfold closePositionAt
      rw [hget]
      simp [positions_closeWith]
    rw [hp, Dict.get?_erase] at hpos
    split at hpos
    · cases hpos
    · exact h key' pos hpos

lemma wellKeyed_mark {p : Portfolio} (h : p.WellKeyed) (token : TokenId) (price : ℚ)
    (at_ : Time) : (p.mark token price at_).WellKeyed := by
  intro key pos hget
  simp only [mark, Dict.get?_mapVal, Option.map_eq_some_iff] at hget
  obtain ⟨old, hold, rfl⟩ := hget
  rw [h key old hold]
  split <;> rfl

lemma wellKeyed_step {p : Portfolio} (h : p.WellKeyed) (ev : PortfolioEvent) :
    (p.step ev).WellKeyed := by
  cases ev with
  | fill f slug => exact wellKeyed_applyFill h f slug
  | close key price at_ b => exact wellKeyed_closePositionAt h key price at_ b
  | mark token price at_ => exact wellKeyed_mark h token price at_

lemma wellKeyed_replay {p : Portfolio} (h : p.WellKeyed) (evs : List PortfolioEvent) :
    (p.replay evs).WellKeyed :=
  foldl_invariant (I := WellKeyed) (fun _ ev hp => wellKeyed_step hp ev) h evs

/-! ### Shares and cash -/

/-- Cash together with the resolution fees already taken from it: the part of the books
that only the fills move. -/
def grossCash (p : Portfolio) : ℚ := p.cashUsd + p.resolutionFeesPaidUsd

/-- The cash that a fill moves, fee included. -/
def cashFlow (f : Fill) : ℚ :=
  match f.side with
  | .buy => -(f.notionalUsd + f.feeUsd)
  | .sell => f.notionalUsd - f.feeUsd

lemma grossCash_closeWith (p : Portfolio) {pos : Position} {fill : Fill}
    (hside : pos.side = fill.side.opposite) :
    (p.closeWith pos fill).1.grossCash = p.grossCash + cashFlow fill := by
  have hs : (pos.applyCloseFill fill).side = fill.side.opposite := by
    rw [← hside]
    unfold Position.applyCloseFill
    split <;> rfl
  cases hf : fill.side <;>
    simp only [hf, Side.opposite] at hs <;>
    simp only [closeWith, onCashChangeFromClose, hs, grossCash, cashFlow, hf] <;>
    ring

lemma grossCash_applyFill {p : Portfolio} (hp : p.WellKeyed) (f : Fill) (slug : Option Slug) :
    (p.applyFill f slug).grossCash = p.grossCash + cashFlow f := by
  cases hopp : p.positions.get? (f.tokenId, f.side.opposite, slug) with
  | some pos =>
    have hside : pos.side = f.side.opposite :=
      (congrArg (fun k : PositionKey => k.2.1) (hp _ pos hopp)).symm
    rw [← grossCash_closeWith p hside]
    simp only [applyFill, hopp]
    split <;> rfl
  | none =>
    cases hf : f.side <;> simp only [hf] at hopp <;>
      simp only [applyFill, hf, hopp, grossCash, cashFlow] <;> ring

lemma grossCash_closePositionAt {p : Portfolio} {key : PositionKey} {pos : Position}
    (h : p.positions.get? key = some pos) (price : ℚ) (at_ : Time) (b : Bool) :
    (p.closePositionAt key price at_ b).grossCash =
      p.grossCash + cashFlow (syntheticFill key pos price at_ b) := by
  have hside : pos.side = (syntheticFill key pos price at_ b).side.opposite := by
    simp [syntheticFill]
  rw [← grossCash_closeWith p hside]
  simp only [closePositionAt, h]
  rfl

/-- The cash is moved by the applied fills and by nothing else. -/
lemma grossCash_step {p : Portfolio} (hp : p.WellKeyed) (ev : PortfolioEvent) :
    (p.step ev).grossCash = p.grossCash + ((p.applied ev).map fun a => cashFlow a.1).sum := by
  cases ev with
  | fill f slug =>
    simpa [step, applied] using grossCash_applyFill hp f slug
  | close key price at_ b =>
    cases h : p.positions.get? key with
    | none => simp [step, applied, h, closePositionAt_of_none h]
    | some pos => simpa [step, applied, h] using grossCash_closePositionAt h price at_ b
  | mark token price at_ => simp [step, applied, mark, grossCash]

/-- The signed shares that a fill moves for a token and a strategy. -/
def shareFlow (a : AppliedFill) (token : TokenId) (slug : Option Slug) : ℚ :=
  if a.1.tokenId = token ∧ a.2 = slug then
    match a.1.side with
    | .buy => a.1.size
    | .sell => -a.1.size
  else 0

/-- A synthetic close moves exactly the shares of its synthetic fill. -/
lemma held_closePositionAt {p : Portfolio} (hp : p.WellKeyed) {key : PositionKey}
    {pos : Position} (h : p.positions.get? key = some pos) (price : ℚ) (at_ : Time) (b : Bool)
    (token : TokenId) (slug : Option Slug) :
    (p.closePositionAt key price at_ b).held token slug =
      p.held token slug + shareFlow (syntheticFill key pos price at_ b, pos.strategySlug)
        token slug := by
  have hkey := hp key pos h
  have hsize : p.sizeAt key = pos.size := by simp [sizeAt, h]
  unfold held
  rw [sizeAt_closePositionAt h, sizeAt_closePositionAt h]
  subst hkey
  by_cases hm : pos.tokenId = token ∧ pos.strategySlug = slug
  · obtain ⟨rfl, rfl⟩ := hm
    cases hs : pos.side <;> rw [hs] at hsize
    · simp [shareFlow, syntheticFill, hs, Side.opposite, hsize]
      ring
    · simp [shareFlow, syntheticFill, hs, Side.opposite, hsize]
  · have hne : ∀ side : Side, (pos.tokenId, pos.side, pos.strategySlug) ≠ (token, side, slug) :=
      fun side heq => hm ⟨congrArg Prod.fst heq, congrArg (fun k => k.2.2) heq⟩
    simp [shareFlow, syntheticFill, hne, hm]

/-- An opening or scaling fill moves exactly its own shares. -/
lemma held_applyFill_of_none {p : Portfolio} {f : Fill} {slug : Option Slug}
    (h : p.positions.get? (f.tokenId, f.side.opposite, slug) = none)
    (token : TokenId) (slug' : Option Slug) :
    (p.applyFill f slug).held token slug' =
      p.held token slug' + shareFlow (f, slug) token slug' := by
  unfold held
  rw [sizeAt_applyFill_of_none h, sizeAt_applyFill_of_none h]
  by_cases hm : f.tokenId = token ∧ slug = slug'
  · obtain ⟨rfl, rfl⟩ := hm
    cases hs : f.side
    · simp [shareFlow, hs]
      ring
    · simp [shareFlow, hs]
      ring
  · have hne : ∀ side : Side, (f.tokenId, f.side, slug) ≠ (token, side, slug') :=
      fun side heq => hm ⟨congrArg Prod.fst heq, congrArg (fun k => k.2.2) heq⟩
    simp [shareFlow, hne, hm]

/-- A closing fill replaces the held shares of its position by the residual. -/
lemma held_applyFill_of_some {p : Portfolio} {f : Fill} {slug : Option Slug} {pos : Position}
    (h : p.positions.get? (f.tokenId, f.side.opposite, slug) = some pos)
    (token : TokenId) (slug' : Option Slug) :
    (p.applyFill f slug).held token slug' =
      p.held token slug' + shareFlow ({ f with size := pos.size - pos.residual f }, slug)
        token slug' := by
  have hsize : p.sizeAt (f.tokenId, f.side.opposite, slug) = pos.size := by simp [sizeAt, h]
  unfold held
  rw [sizeAt_applyFill_of_some h, sizeAt_applyFill_of_some h]
  by_cases hm : f.tokenId = token ∧ slug = slug'
  · obtain ⟨rfl, rfl⟩ := hm
    cases hs : f.side <;> simp only [hs, Side.opposite] at hsize
    · simp [shareFlow, Side.opposite, hsize]
    · simp [shareFlow, Side.opposite, hsize]
  · have hne : ∀ side : Side,
        (f.tokenId, f.side.opposite, slug) ≠ (token, side, slug') :=
      fun side heq => hm ⟨congrArg Prod.fst heq, congrArg (fun k => k.2.2) heq⟩
    simp [shareFlow, hne, hm]

/-- The shares held are moved by the applied fills and by nothing else, exactly when a
closing fill closes its position exactly. -/
lemma held_step_iff {p : Portfolio} (hp : p.WellKeyed) (ev : PortfolioEvent) :
    (∀ token slug, (p.step ev).held token slug =
        p.held token slug + ((p.applied ev).map fun a => shareFlow a token slug).sum) ↔
      p.ClosesExactly ev := by
  cases ev with
  | fill f slug =>
    cases h : p.positions.get? (f.tokenId, f.side.opposite, slug) with
    | none =>
      simp only [ClosesExactly, h, Option.elim_none, iff_true]
      intro token slug'
      simpa [step, applied] using held_applyFill_of_none h token slug'
    | some pos =>
      simp only [ClosesExactly, h, Option.elim_some, step, applied,
        List.map_cons, List.map_nil, List.sum_cons, List.sum_nil, add_zero]
      rw [← pos.residual_eq_sub_iff f]
      constructor
      · intro hall
        have hself := (held_applyFill_of_some h f.tokenId slug).symm.trans
          (hall f.tokenId slug)
        cases hs : f.side <;> simp [shareFlow, hs] at hself <;> linarith
      · intro hres token slug'
        rw [held_applyFill_of_some h, hres]
        simp [shareFlow]
  | close key price at_ b =>
    simp only [ClosesExactly, iff_true]
    intro token slug
    cases h : p.positions.get? key with
    | none => simp [step, applied, h, closePositionAt_of_none h]
    | some pos => simpa [step, applied, h] using held_closePositionAt hp h price at_ b token slug
  | mark token price at_ =>
    simp [ClosesExactly, step, applied, held, sizeAt_mark]

end Portfolio

/-! ## Conservation over a run -/

lemma sharesOn_buy_sub_sell (fs : List AppliedFill) (token : TokenId) (slug : Option Slug) :
    sharesOn fs .buy token slug - sharesOn fs .sell token slug =
      (fs.map fun a => Portfolio.shareFlow a token slug).sum := by
  induction fs with
  | nil => simp [sharesOn]
  | cons a fs ih =>
    rw [List.map_cons, List.sum_cons, ← ih]
    by_cases hm : a.1.tokenId = token ∧ a.2 = slug
    · cases hs : a.1.side
      · simp [sharesOn, Portfolio.shareFlow, hs, hm]
        ring
      · simp [sharesOn, Portfolio.shareFlow, hs, hm]
        ring
    · simp [sharesOn, Portfolio.shareFlow, hm]

lemma notionalOn_sub_fees (fs : List AppliedFill) :
    notionalOn fs .sell - notionalOn fs .buy - fillFees fs =
      (fs.map fun a => Portfolio.cashFlow a.1).sum := by
  induction fs with
  | nil => simp [notionalOn, fillFees]
  | cons a fs ih =>
    rw [List.map_cons, List.sum_cons, ← ih]
    cases hs : a.1.side
    · simp [notionalOn, fillFees, Portfolio.cashFlow, hs]
      ring
    · simp [notionalOn, fillFees, Portfolio.cashFlow, hs]
      ring

variable {cfg : PortfolioConfig}

/-- The cash side of the books is balanced in every run. -/
lemma cash_replay (events : List PortfolioEvent) :
    ((Portfolio.init cfg).replay events).grossCash =
      cfg.initialCapitalUsd +
        (((Portfolio.init cfg).appliedFills events).map fun a => Portfolio.cashFlow a.1).sum := by
  induction events using List.reverseRecOn with
  | nil => simp [Portfolio.replay, Portfolio.appliedFills, Portfolio.init, Portfolio.grossCash]
  | append_singleton events ev ih =>
    have hp := Portfolio.wellKeyed_replay (Portfolio.wellKeyed_init cfg) events
    have hrun : (Portfolio.init cfg).replay (events ++ [ev]) =
        ((Portfolio.init cfg).replay events).step ev := by simp [Portfolio.replay]
    rw [hrun, Portfolio.grossCash_step hp ev, ih, Portfolio.appliedFills_append]
    simp [Portfolio.appliedFills]
    ring

/-- The state of the share side of the books. -/
def SharesBalanced (cfg : PortfolioConfig) (events : List PortfolioEvent) : Prop :=
  ∀ token slug, ((Portfolio.init cfg).replay events).held token slug =
    (((Portfolio.init cfg).appliedFills events).map
      fun a => Portfolio.shareFlow a token slug).sum

lemma conserved_iff_sharesBalanced (events : List PortfolioEvent) :
    Conserved cfg events ↔ SharesBalanced cfg events := by
  have hcash := @cash_replay cfg events
  rw [← notionalOn_sub_fees] at hcash
  unfold Portfolio.grossCash at hcash
  constructor
  · intro h token slug
    rw [h.shares token slug, sharesOn_buy_sub_sell]
  · intro h
    exact ⟨fun token slug => by rw [h token slug, sharesOn_buy_sub_sell], by linarith⟩

/-- One more event keeps the shares balanced exactly when it closes exactly. -/
lemma sharesBalanced_snoc_iff {events : List PortfolioEvent} (h : SharesBalanced cfg events)
    (ev : PortfolioEvent) :
    SharesBalanced cfg (events ++ [ev]) ↔
      ((Portfolio.init cfg).replay events).ClosesExactly ev := by
  have hp := Portfolio.wellKeyed_replay (Portfolio.wellKeyed_init cfg) events
  rw [← Portfolio.held_step_iff hp ev]
  have hrun : (Portfolio.init cfg).replay (events ++ [ev]) =
      ((Portfolio.init cfg).replay events).step ev := by simp [Portfolio.replay]
  unfold SharesBalanced
  rw [hrun, Portfolio.appliedFills_append]
  simp only [List.map_append, List.sum_append, Portfolio.appliedFills, List.append_nil]
  refine forall_congr' fun token => forall_congr' fun slug => ?_
  rw [h token slug]

/-- The shares stay balanced as long as every close is exact. -/
lemma sharesBalanced_of_closesExactly {events : List PortfolioEvent}
    (h : EveryStep Portfolio.step Portfolio.ClosesExactly (Portfolio.init cfg) events) :
    SharesBalanced cfg events := by
  have hnil : SharesBalanced cfg [] := by
    intro token slug
    simp [Portfolio.replay, Portfolio.appliedFills, Portfolio.held, Portfolio.sizeAt,
      Portfolio.init]
  exact h.history (I := fun events _ => SharesBalanced cfg events) hnil
    fun events ev hbal hev => (sharesBalanced_snoc_iff hbal ev).2 hev

/-- **Double-entry conservation.**  In every state of a run from the initial portfolio the
books are balanced, if and only if every closing fill closes its position exactly or
leaves more than `1e-12` shares of it. -/
theorem conserved_iff_closesExactly (cfg : PortfolioConfig) (events : List PortfolioEvent) :
    (∀ pre, pre <+: events → Conserved cfg pre) ↔
      EveryStep Portfolio.step Portfolio.ClosesExactly (Portfolio.init cfg) events := by
  constructor
  · intro h
    refine EveryStep.of_forall_prefix fun pre ev hpre => ?_
    have hbefore := (conserved_iff_sharesBalanced pre).1
      (h pre ((List.prefix_append pre [ev]).trans hpre))
    have hafter := (conserved_iff_sharesBalanced (pre ++ [ev])).1 (h _ hpre)
    exact (sharesBalanced_snoc_iff hbefore ev).1 hafter
  · intro h pre hpre
    exact (conserved_iff_sharesBalanced pre).2 (sharesBalanced_of_closesExactly (h.of_prefix hpre))

/-- A SELL of ten shares against a long position of five. -/
def overClose : List PortfolioEvent :=
  [.fill { orderId := "entry", tokenId := "t", side := .buy, price := 1 / 2, size := 5,
           feeUsd := 0, occurredAt := 0, fillIndex := 0 } none,
   .fill { orderId := "exit", tokenId := "t", side := .sell, price := 1 / 2, size := 10,
           feeUsd := 0, occurredAt := 1, fillIndex := 0 } none]

/-- The cash of the over-close is credited for ten shares, but no short position of five
is booked. -/
theorem overClose_not_conserved : ¬ Conserved {} overClose := by
  intro h
  exact absurd (h.shares "t" none) (by decide +kernel)

end Evosport.Backtest
