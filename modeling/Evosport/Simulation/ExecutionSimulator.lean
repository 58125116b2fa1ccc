/-
The execution simulator (`services/simulation/execution_simulator.py`).

An emission of a signal is replayed against the price points of its market: the point for its time is
looked up, a live context with a summary of the history is built from it, a leg is submitted, and
what is filled becomes a position.  At the end every position is marked to the last point.

The lookup starts from the first point, whether or not it lies before the emission, and a leg always
buys, whatever the direction; `noLookahead_iff` and `rightSign_iff` say what comes of it.

Times are milliseconds and prices are exact, `none` where `_to_float` fails.  What the strategy
decides, the token and the answer to the submission are input.
-/
import Evosport.Backtest.Book
import Evosport.Lib.StableSort
import Evosport.Lib.Text
import Mathlib.Tactic.Positivity

namespace Evosport.Simulation

open Lib Backtest

/-! ## Directions -/

/-- What a signal says to do. -/
inductive Direction
  | buyYes | buyNo | sellYes | sellNo
deriving DecidableEq, Repr

/-- The two outcomes of a market. -/
inductive Outcome
  | yes | no
deriving DecidableEq, Repr

/-- `_normalize_direction` -/
def normalizeDirection (lower : String → String) (value : String) : Direction :=
  let normalized := lower (strip value)
  if normalized = "buy_no" ∨ normalized = "no" then .buyNo
  else if normalized = "sell_yes" ∨ normalized = "short_yes" then .sellYes
  else if normalized = "sell_no" ∨ normalized = "short_no" then .sellNo
  else .buyYes

/-- `_direction_to_outcome` -/
def directionToOutcome : Direction → Outcome
  | .buyYes => .yes
  | .buyNo => .no
  | .sellYes => .yes
  | .sellNo => .no

/-- The direction buys its outcome. -/
def Direction.IsBuy (d : Direction) : Prop := d = .buyYes ∨ d = .buyNo

instance (d : Direction) : Decidable d.IsBuy := inferInstanceAs (Decidable (_ ∨ _))

/-! ## Points -/

/-- A point of a price series. -/
structure Point where
  t : ℤ
  p : Option ℚ
deriving DecidableEq, Repr

/-- `max(0.0001, min(0.9999, x))` -/
def clampPrice (x : ℚ) : ℚ := max (1 / 10000) (min (9999 / 10000) x)

/-- The loop of `_find_point_for_ts` over the points that are left. -/
def findPointLoop (tsMs : ℤ) : List Point → ℕ → ℕ → ℕ
  | [], _, candidateIdx => candidateIdx
  | point :: points, idx, candidateIdx =>
    if point.t ≤ tsMs then findPointLoop tsMs points (idx + 1) idx else candidateIdx

/-- `_find_point_for_ts` -/
def findPointForTs (points : List Point) (tsMs : Option ℤ) : Option (ℕ × Point) :=
  match tsMs with
  | none => points.getLast?.map fun point => (points.length - 1, point)
  | some tsMs =>
    let candidateIdx := findPointLoop tsMs points 0 0
    points[candidateIdx]?.map fun point => (candidateIdx, point)

/-- The walk of `_move_percent` backwards over the points. -/
def walkBack (cutoffTs : ℤ) : List Point → ℚ → ℚ
  | [], baseline => baseline
  | point :: points, baseline =>
    let baseline := clampPrice (point.p.getD baseline)
    if point.t ≤ cutoffTs then baseline else walkBack cutoffTs points baseline

/-- The moves of the price over five minutes, half an hour and two hours, in percent. -/
structure HistorySummary where
  move5m : ℚ
  move30m : ℚ
  move2h : ℚ
deriving DecidableEq, Repr

/-- `_history_summary_for_point` -/
def historySummaryForPoint (points : List Point) (anchorIndex : ℕ) : Option HistorySummary :=
  let anchorIndex := min anchorIndex (points.length - 1)
  points[anchorIndex]?.map fun anchor =>
    let anchorPrice := clampPrice (anchor.p.getD (1 / 2))
    let movePercent (windowMinutes : ℤ) : ℚ :=
      let cutoffTs := anchor.t - windowMinutes * 60000
      let baseline := walkBack cutoffTs (points.take (anchorIndex + 1)).reverse anchorPrice
      if baseline > 0 then (anchorPrice - baseline) / baseline * 100 else 0
    ⟨movePercent 5, movePercent 30, movePercent 120⟩

/-! ## Emissions -/

/-- An emission, with what the strategy decides on it and the token that is resolved for it. -/
structure Emission where
  /-- The status is one of those that are replayed. -/
  replayed : Bool := true
  createdAtMs : Option ℤ
  direction : Option String := none
  payloadDirection : Option String := none
  entryPrice : Option ℚ := none
  liquidity : Option ℚ := none
  payloadLiquidity : Option ℚ := none
  tokenId : Option String := none
  marketRef : String
  selected : Bool := true
  sizeUsd : Option ℚ := none

/-- `live_market`: what the simulator puts in the place of the market's live data, from the replayed
prices. -/
structure LiveContext where
  liveSelectedPrice : ℚ
  entryPriceDeltaPct : ℚ
  historySummary : Option HistorySummary
  liquidity : ℚ
  selectedTokenId : Option String
  yesTokenId : Option String
  noTokenId : Option String
deriving DecidableEq, Repr

/-- What the replay builds from the points: the point that stands for the moment of the decision,
its price, the target price, and the context that the strategy is shown. -/
structure ReplayContext where
  replayPoint : Point
  replayPrice : ℚ
  targetPrice : ℚ
  liveContext : LiveContext
deriving DecidableEq, Repr

section Replay

variable (lower : String → String)

/-- `emission.direction or signal_payload.get("direction") or "buy_yes"`, normalised -/
def Emission.directionOf (e : Emission) : Direction :=
  normalizeDirection lower
    (((e.direction.filter (· ≠ "")).or (e.payloadDirection.filter (· ≠ ""))).getD "buy_yes")

/-- The replay of an emission up to the live context, without the context of a provider; `none` where
it is skipped. -/
def replayContext (e : Emission) (points : List Point) : Option ReplayContext :=
  (findPointForTs points e.createdAtMs).map fun (pointIdx, replayPoint) =>
    let outcome := directionToOutcome (e.directionOf lower)
    let replayPrice := clampPrice (replayPoint.p.getD (1 / 2))
    let targetPrice := clampPrice (e.entryPrice.getD replayPrice)
    { replayPoint
      replayPrice
      targetPrice
      liveContext :=
        { liveSelectedPrice := replayPrice
          entryPriceDeltaPct :=
            if targetPrice > 0 then (replayPrice - targetPrice) / targetPrice * 100 else 0
          historySummary := historySummaryForPoint points pointIdx
          liquidity := e.payloadLiquidity.getD (e.liquidity.getD 0)
          selectedTokenId := e.tokenId
          yesTokenId := if outcome = .yes then e.tokenId else none
          noTokenId := if outcome = .no then e.tokenId else none } }

/-! ## Positions -/

/-- What is read of the leg that is submitted. -/
structure Leg where
  marketId : String
  side : Side
  outcome : Outcome
  limitPrice : ℚ
  tokenId : Option String
deriving DecidableEq, Repr

/-- The signal that is submitted with the leg. -/
structure ExecutionSignal where
  direction : Direction
  entryPrice : ℚ
  liveContext : LiveContext
deriving DecidableEq, Repr

/-- The answer of `submit_execution_leg`: whether it was accepted, and at which price, notional and
shares. -/
structure Submission where
  /-- The status is `executed`, `open` or `submitted`. -/
  accepted : Bool
  effectivePrice : Option ℚ
  notionalUsd : Option ℚ
  shares : Option ℚ
deriving DecidableEq, Repr

/-- A simulated position. -/
structure Position where
  marketRef : String
  direction : Direction
  outcome : Outcome
  entryPrice : ℚ
  quantity : ℚ
  entryNotionalUsd : ℚ
  openedAtMs : ℤ
deriving DecidableEq, Repr

/-- What becomes of an emission: it is not among those replayed, the strategy does not select it or
the prices do not tell what to do with it, nothing is filled, or a position is opened. -/
inductive Simulated
  | passedOver
  | skipped
  | unfilled
  | filled (position : Position)
deriving DecidableEq, Repr

variable (defaultNotional : ℚ) (submit : ExecutionSignal → Leg → ℚ → Submission)

/-- What the emission asks to spend. -/
def Emission.notionalUsd (e : Emission) : ℚ := max 1 (e.sizeUsd.getD defaultNotional)

/-- What is submitted for a context, and what is answered. -/
def submission (e : Emission) (c : ReplayContext) : Submission :=
  let direction := e.directionOf lower
  submit ⟨direction, c.targetPrice, c.liveContext⟩
    { marketId := e.marketRef, side := .buy, outcome := directionToOutcome direction,
      limitPrice := c.targetPrice, tokenId := e.tokenId }
    (e.notionalUsd defaultNotional)

/-- The shares that the answer gives, or those of its notional at the fill price. -/
def sharesOf (e : Emission) (c : ReplayContext) : ℚ :=
  let answer := submission lower defaultNotional submit e c
  let fillPrice := clampPrice (answer.effectivePrice.getD c.targetPrice)
  let filledNotional := max 0 (answer.notionalUsd.getD (e.notionalUsd defaultNotional))
  answer.shares.getD (if fillPrice > 0 then filledNotional / fillPrice else 0)

/-- The body of the loop over the emissions, without the context of a provider. -/
def simulateEmission (points : List Point) (e : Emission) : Simulated :=
  if ¬ e.replayed then .passedOver
  else if ¬ e.selected then .skipped
  else if e.marketRef = "" then .skipped
  else
    match replayContext lower e points with
    | none => .skipped
    | some c =>
      let answer := submission lower defaultNotional submit e c
      if ¬ answer.accepted then .unfilled
      else
        let direction := e.directionOf lower
        .filled
          { marketRef := e.marketRef
            direction
            outcome := directionToOutcome direction
            entryPrice := clampPrice (answer.effectivePrice.getD c.targetPrice)
            quantity := max 0 (sharesOf lower defaultNotional submit e c)
            entryNotionalUsd := max 0 (answer.notionalUsd.getD (e.notionalUsd defaultNotional))
            openedAtMs := c.replayPoint.t }

end Replay

/-- The end of a simulated position, with what it earned. -/
structure Close where
  entryPrice : ℚ
  exitPrice : ℚ
  quantity : ℚ
  feesUsd : ℚ
  notionalUsd : ℚ
  realizedPnlUsd : ℚ
deriving DecidableEq, Repr

/-- `_mark_to_market_close`: the position is closed at the mark, both prices clamped, and the fee is
of the notional at the mark. -/
def markToMarketClose (entryPrice quantity markPrice feeBps : ℚ) : Close :=
  let qty := max 0 quantity
  let entry := clampPrice entryPrice
  let mark := clampPrice markPrice
  let notional := qty * mark
  let fees := notional * (max 0 feeBps / 10000)
  { entryPrice := entry
    exitPrice := mark
    quantity := qty
    feesUsd := fees
    notionalUsd := notional
    realizedPnlUsd := (mark - entry) * qty - fees }

/-- The body of the closing loop: the position is marked to the last point of its series. -/
def closePosition (feeBps : ℚ) (position : Position) (points : List Point) : Option Close :=
  points.getLast?.map fun finalPoint =>
    markToMarketClose position.entryPrice position.quantity
      (finalPoint.p.getD position.entryPrice) feeBps

/-! ## Looking ahead -/

section Lookahead

variable {lower : String → String} {e : Emission} {t : ℤ} {points points' : List Point}

/-- The points at or before a time. -/
def upTo (t : ℤ) (points : List Point) : List Point := points.filter fun point => point.t ≤ t

/-- The points are in ascending time. -/
def Ascending (points : List Point) : Prop := points.Pairwise fun a b => a.t ≤ b.t

instance (points : List Point) : Decidable (Ascending points) :=
  inferInstanceAs (Decidable (points.Pairwise _))

/-- The loop ends on the last point at or before the time, if there is one. -/
lemma findPointLoop_append {known later : List Point} (hknown : ∀ point ∈ known, point.t ≤ t)
    (hlater : ∀ point ∈ later, t < point.t) (idx candidateIdx : ℕ) :
    findPointLoop t (known ++ later) idx candidateIdx =
      if known = [] then candidateIdx else idx + known.length - 1 := by
  induction known generalizing idx candidateIdx with
  | nil =>
    cases later with
    | nil => rfl
    | cons point later =>
      exact if_neg (not_le.2 (hlater point List.mem_cons_self))
  | cons point known ih =>
    obtain ⟨hpoint, hknown⟩ := List.forall_mem_cons.1 hknown
    rw [List.cons_append, findPointLoop, if_pos hpoint, ih hknown, if_neg (List.cons_ne_nil _ _),
      List.length_cons]
    split
    case isTrue hnil =>
      subst hnil
      rfl
    case isFalse => omega

/-- A series in ascending time is what is known at a time, and what comes later. -/
lemma upTo_append (t : ℤ) (h : Ascending points) :
    ∃ later, points = upTo t points ++ later ∧ (∀ point ∈ upTo t points, point.t ≤ t) ∧
      ∀ point ∈ later, t < point.t := by
  refine ⟨_, split_of_pairwise t h, fun point hpoint => ?_, fun point hpoint => ?_⟩
  · simpa using (List.mem_filter.1 hpoint).2
  · simpa using (List.mem_filter.1 hpoint).2

/-- The context depends on what is known at the time of the emission, if that is anything. -/
lemma replayContext_upTo (ht : e.createdAtMs = some t) (h : Ascending points)
    (hne : upTo t points ≠ []) :
    replayContext lower e points = replayContext lower e (upTo t points) := by
  obtain ⟨later, hsplit, hknown, hlater⟩ := upTo_append t h
  generalize upTo t points = known at hsplit hknown hne ⊢
  subst hsplit
  have hpos : 0 < known.length := List.length_pos_iff.2 hne
  have hidx : findPointLoop t (known ++ later) 0 0 = known.length - 1 := by
    rw [findPointLoop_append hknown hlater, if_neg hne, zero_add]
  have hidx' : findPointLoop t known 0 0 = known.length - 1 := by
    have hnone : findPointLoop t (known ++ []) 0 0 = _ :=
      findPointLoop_append hknown (by simp) 0 0
    rwa [List.append_nil, if_neg hne, zero_add] at hnone
  have hget : (known ++ later)[known.length - 1]? = known[known.length - 1]? :=
    List.getElem?_append_left (by omega)
  have hhistory : historySummaryForPoint (known ++ later) (known.length - 1) =
      historySummaryForPoint known (known.length - 1) := by
    have hanchor : min (known.length - 1) ((known ++ later).length - 1) = known.length - 1 := by
      rw [List.length_append]
      omega
    have htake : (known ++ later).take (known.length - 1 + 1) =
        known.take (known.length - 1 + 1) := List.take_append_of_le_length (by omega)
    simp only [historySummaryForPoint, hanchor, min_self, hget, htake]
  simp only [replayContext, findPointForTs, ht, hidx, hidx', hget]
  cases known[known.length - 1]? with
  | none => rfl
  | some point => simp only [Option.map_some, hhistory]

/-- Without any point the emission is skipped, and only then. -/
lemma replayContext_eq_none (ht : e.createdAtMs = some t) (h : Ascending points) :
    replayContext lower e points = none ↔ points = [] := by
  simp only [replayContext, findPointForTs, ht, Option.map_eq_none_iff,
    List.getElem?_eq_none_iff]
  constructor
  · intro hlength
    obtain ⟨later, hsplit, hknown, hlater⟩ := upTo_append t h
    have hidx := findPointLoop_append hknown hlater 0 0
    rw [← hsplit] at hidx
    rw [hidx] at hlength
    have hle : (upTo t points).length ≤ points.length := List.length_filter_le _ _
    split at hlength
    · exact List.length_eq_zero_iff.1 (Nat.le_zero.1 hlength)
    · next hne =>
      have := List.length_pos_iff.2 hne
      omega
  · rintro rfl
    exact Nat.zero_le _

/-- The two series give the same context, and the emission is skipped for both where no point is at
or before its time. -/
structure NoLookahead (lower : String → String) (e : Emission) (t : ℤ) (points points' : List Point) :
    Prop where
  same : replayContext lower e points = replayContext lower e points'
  skips : upTo t points = [] →
    replayContext lower e points = none ∧ replayContext lower e points' = none

/-- Two series that agree up to an emission are replayed alike exactly where there is a point at or
before it, or no point at all. -/
theorem noLookahead_iff (ht : e.createdAtMs = some t) (h : Ascending points)
    (h' : Ascending points') (hagree : upTo t points = upTo t points') :
    NoLookahead lower e t points points' ↔
      (∃ point ∈ points, point.t ≤ t) ∨ points = [] ∧ points' = [] := by
  have hknown : upTo t points ≠ [] ↔ ∃ point ∈ points, point.t ≤ t := by
    rw [upTo, ne_eq, List.filter_eq_nil_iff]
    push Not
    simp
  rw [← hknown]
  constructor
  · rintro ⟨-, hskips⟩
    by_cases hne : upTo t points = []
    · obtain ⟨hnone, hnone'⟩ := hskips hne
      exact .inr ⟨(replayContext_eq_none ht h).1 hnone, (replayContext_eq_none ht h').1 hnone'⟩
    · exact .inl hne
  · rintro (hne | ⟨rfl, rfl⟩)
    · refine ⟨?_, fun hnil => absurd hnil hne⟩
      rw [replayContext_upTo ht h hne, hagree, ← replayContext_upTo ht h' (hagree ▸ hne)]
    · exact ⟨rfl, fun _ => ⟨(replayContext_eq_none ht h).2 rfl, (replayContext_eq_none ht h').2 rfl⟩⟩

end Lookahead

/-! ## The sign of the profit -/

section Sign

/-- The profit of a position whose series ends, free of fees. -/
def pnl (position : Position) (points : List Point) : Option ℚ :=
  (closePosition 0 position points).map Close.realizedPnlUsd

/-- The price that a series ends with. -/
def exitPrice (points : List Point) : Option ℚ := points.getLast?.bind Point.p

/-- Of two exit prices, the higher one is no worse for a purchase and no better for a sale. -/
def RightSign (position : Position) : Prop :=
  ∀ path path' : List Point, ∀ x y profit profit' : ℚ,
    exitPrice path = some x → exitPrice path' = some y → x ≤ y →
    pnl position path = some profit → pnl position path' = some profit' →
    if position.direction.IsBuy then profit ≤ profit' else profit' ≤ profit

/-- The profit at an exit price. -/
lemma pnl_eq {position : Position} {path : List Point} {x : ℚ} (h : exitPrice path = some x) :
    pnl position path =
      some ((clampPrice x - clampPrice position.entryPrice) * max 0 position.quantity) := by
  obtain ⟨point, hpoint, hp⟩ := Option.bind_eq_some_iff.1 h
  simp [pnl, closePosition, hpoint, hp, markToMarketClose]

lemma clampPrice_mono {x y : ℚ} (h : x ≤ y) : clampPrice x ≤ clampPrice y :=
  max_le_max le_rfl (min_le_min le_rfl h)

/-- The profit has the right sign exactly where the position buys or holds nothing. -/
lemma rightSign_iff_quantity (position : Position) :
    RightSign position ↔ position.direction.IsBuy ∨ position.quantity ≤ 0 := by
  constructor
  · intro h
    by_contra hnot
    obtain ⟨hsell, hquantity⟩ := not_or.1 hnot
    have hlow : exitPrice [⟨0, some 0⟩] = some 0 := rfl
    have hhigh : exitPrice [⟨0, some 1⟩] = some 1 := rfl
    have hle := h _ _ 0 1 _ _ hlow hhigh zero_le_one (pnl_eq hlow) (pnl_eq hhigh)
    have hclamp : clampPrice 0 < clampPrice 1 := by decide +kernel
    rw [if_neg hsell, max_eq_right (not_le.1 hquantity).le] at hle
    have hlt := mul_lt_mul_of_pos_right (sub_lt_sub_right hclamp (clampPrice position.entryPrice))
      (not_le.1 hquantity)
    exact absurd hle (not_le.2 hlt)
  · intro h path path' x y profit profit' hx hy hxy hprofit hprofit'
    rw [pnl_eq hx] at hprofit
    rw [pnl_eq hy] at hprofit'
    obtain rfl := Option.some.inj hprofit
    obtain rfl := Option.some.inj hprofit'
    split
    case isTrue =>
      exact mul_le_mul_of_nonneg_right (sub_le_sub_right (clampPrice_mono hxy) _) (le_max_left _ _)
    case isFalse hsell =>
      rw [max_eq_left (h.resolve_left hsell), mul_zero, mul_zero]

/-- The profit of the position that an emission opens has the right sign exactly where the emission
buys, or where the submission gives no shares. -/
theorem rightSign_iff (lower : String → String) (defaultNotional : ℚ)
    (submit : ExecutionSignal → Leg → ℚ → Submission) (points : List Point) (e : Emission)
    {c : ReplayContext} {position : Position} (hcontext : replayContext lower e points = some c)
    (hfilled : simulateEmission lower defaultNotional submit points e = .filled position) :
    RightSign position ↔
      (e.directionOf lower).IsBuy ∨ sharesOf lower defaultNotional submit e c ≤ 0 := by
  have hfields : position.direction = e.directionOf lower ∧
      position.quantity = max 0 (sharesOf lower defaultNotional submit e c) := by
    simp only [simulateEmission, hcontext] at hfilled
    split_ifs at hfilled
    obtain rfl := Simulated.filled.inj hfilled
    exact ⟨rfl, rfl⟩
  rw [rightSign_iff_quantity, hfields.1, hfields.2, max_le_iff, and_iff_right le_rfl]

end Sign

section Examples

/-- An emission at 5 ms, without a price of its own. -/
def emissionAt5 (direction : String) : Emission :=
  { createdAtMs := some 5, direction := some direction, marketRef := "market" }

theorem point_before_no_lookahead :
    NoLookahead id (emissionAt5 "buy_yes") 5 [⟨0, some (1 / 2)⟩]
      [⟨0, some (1 / 2)⟩, ⟨10, some (9 / 10)⟩] := by
  rw [noLookahead_iff]
  · exact .inl ⟨_, List.mem_cons_self, by decide⟩
  · rfl
  · decide
  · decide
  · rfl

/-- The first point comes after the emission, and prices it. -/
theorem first_point_later_looks_ahead :
    upTo 5 [⟨10, some (3 / 10)⟩] = upTo 5 [⟨10, some (8 / 10)⟩] ∧
      ¬ NoLookahead id (emissionAt5 "buy_yes") 5 [⟨10, some (3 / 10)⟩] [⟨10, some (8 / 10)⟩] :=
  ⟨rfl, fun h => absurd h.same (by decide +kernel)⟩

/-- A broker that fills ten shares at the limit. -/
def fillsTen (_ : ExecutionSignal) (leg : Leg) (_ : ℚ) : Submission :=
  ⟨true, some leg.limitPrice, some (10 * leg.limitPrice), some 10⟩

/-- Ten shares bought at one half. -/
def tenAtHalf (direction : Direction) (outcome : Outcome) : Position :=
  ⟨"market", direction, outcome, 1 / 2, 10, 5, 0⟩

theorem purchase_right_sign : RightSign (tenAtHalf .buyNo .no) :=
  (rightSign_iff id 50 fillsTen [⟨0, some (1 / 2)⟩] (emissionAt5 "buy_no")
    (c := ⟨⟨0, some (1 / 2)⟩, 1 / 2, 1 / 2, ⟨1 / 2, 0, some ⟨0, 0, 0⟩, 0, none, none, none⟩⟩)
    (by decide +kernel) (by decide +kernel)).2 (.inl (by decide +kernel))

/-- An emission that sells is booked as a purchase. -/
theorem sale_wrong_sign :
    simulateEmission id 50 fillsTen [⟨0, some (1 / 2)⟩] (emissionAt5 "sell_yes") =
        .filled (tenAtHalf .sellYes .yes) ∧
      ¬ RightSign (tenAtHalf .sellYes .yes) := by
  refine ⟨by decide +kernel, fun h => ?_⟩
  have hlow : exitPrice [⟨0, some (1 / 4)⟩] = some (1 / 4) := rfl
  have hhigh : exitPrice [⟨0, some (3 / 4)⟩] = some (3 / 4) := rfl
  have hle := h _ _ _ _ _ _ hlow hhigh (by norm_num) (pnl_eq hlow) (pnl_eq hhigh)
  exact absurd hle (by decide +kernel)

end Examples

end Evosport.Simulation
