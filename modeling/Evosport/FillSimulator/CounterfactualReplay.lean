/-
The counterfactual replay of a maker order (`services/fill_simulator/counterfactual_replay.py`).

A hypothetical order joins the queue at its price, and the recorded tape is streamed past it: trades
first clear the queue and then fill the order, cancels shorten the queue.  Only events at the level
of the order count, and not those at better prices, so that the order fills what is traded at its
level beyond the queue, up to its size (`filledShares_replayEvents`).

Whether two prices are of one level is a comparison of doubles with 1e-4.  Prices are the values of
their doubles, and differences and roundings of prices are rounded to doubles: the difference of
neighbouring ticks often comes out below 1e-4, and then the level next to the order's counts as its
own.  Sizes are exact, times are microseconds.  Sides and types of events are what their names say
in lower case, and the text of `notes` is left as the numbers in it.
-/
import Evosport.Backtest.Book
import Evosport.Lib.Double
import Evosport.Lib.StableSort
import Mathlib.Algebra.BigOperators.Group.List.Basic
import Mathlib.Algebra.Order.BigOperators.Group.List

namespace Evosport.FillSimulator

open Lib Backtest

/-! ## Snapshots and deltas -/

/-- `_MIN_DELTA_SIZE` -/
def minDeltaSize : ℚ := 1 / 100

/-- The nearest decimal with four places, ties to the even one. -/
def round4 (x : ℚ) : ℚ := (roundHalfEven (x * 10 ^ 4) : ℚ) / 10 ^ 4

/-- `round(x, 4)`: the double next to the decimal -/
def roundPrice (x : ℚ) : ℚ := toDouble (round4 x)

/-- `abs(x - y)` -/
def gap (x y : ℚ) : ℚ := |toDouble (x - y)|

/-- `1e-4` -/
def tick : ℚ := toDouble (1 / 10 ^ 4)

/-- `_BookLevel` -/
structure ReplayLevel where
  price : ℚ
  size : ℚ
deriving DecidableEq, Repr

/-- `_Snapshot` -/
structure ReplaySnapshot where
  bids : List ReplayLevel := []
  asks : List ReplayLevel := []
deriving DecidableEq, Repr

/-- The levels that an order of the side queues up in. -/
def ReplaySnapshot.ownLevels (snapshot : ReplaySnapshot) : Side → List ReplayLevel
  | .buy => snapshot.bids
  | .sell => snapshot.asks

/-- The side of the book that an event of the tape is on. -/
inductive TapeSide
  | bid | ask | other
deriving DecidableEq, Repr

/-- The side of the tape that an order queues up on. -/
def sideKey : Side → TapeSide
  | .buy => .bid
  | .sell => .ask

/-- The types of events that the replay tells apart. -/
inductive EventType
  | trade | cancel | other
deriving DecidableEq, Repr

/-- `_Delta`: an event of the recorded stream, with its price and side, its type, the size that was
traded or cancelled, and its time. -/
structure Delta where
  price : Option ℚ
  side : TapeSide
  eventType : EventType
  tradeSize : Option ℚ := none
  cancelSize : Option ℚ := none
  observedAt : ℤ
deriving DecidableEq, Repr

/-- `CounterfactualOrder`: the order that is thought of as resting in the book. -/
structure CounterfactualOrder where
  side : Side
  price : ℚ
  sizeShares : ℚ
  placedAt : ℤ
  timeInForceSeconds : ℚ := 60
deriving DecidableEq, Repr

/-- What `notes` tells. -/
inductive Notes
  | noBookSnapshotAtPlacement
  | replayed (queueInit tradesAtPrice cancelsAtPrice : ℚ)
deriving DecidableEq, Repr

/-- `CounterfactualResult`: what would have become of it, with what the replay has seen ahead of it.
-/
structure CounterfactualResult where
  filledShares : ℚ
  averageFillPrice : Option ℚ
  timeToFillSeconds : Option ℚ
  finalQueueAhead : ℚ
  cancelsAheadObserved : ℚ
  tradesAheadObserved : ℚ
  eventsProcessed : ℕ
  expired : Bool
  notes : Notes
deriving DecidableEq, Repr

/-! ## The replay -/

/-- `_initial_queue_ahead`; a level of the neighbouring tick counts where the gap comes out small -/
def initialQueueAhead (snapshot : ReplaySnapshot) (side : Side) (price : ℚ) : ℚ :=
  (snapshot.ownLevels side).foldl
    (fun total level =>
      if gap level.price (roundPrice price) < tick then total + max 0 level.size else total) 0

/-- `_stream_delta_events`, over the deltas that are recorded for the token -/
def streamDeltaEvents (deltas : List Delta) (startAt endAt : ℤ) : List Delta :=
  sortByKey Delta.observedAt
    (deltas.filter fun ev => startAt < ev.observedAt ∧ ev.observedAt ≤ endAt)

/-- What the loop over the events keeps: the queue ahead, the shares that were filled, the two
counters, and the time of the first fill. -/
structure Progress where
  queueAhead : ℚ
  filledShares : ℚ := 0
  cancelsObserved : ℚ := 0
  tradesObserved : ℚ := 0
  firstFillAt : Option ℤ := none
deriving DecidableEq, Repr

section Replay

variable (order : CounterfactualOrder)

/-- A trade of the given size at the level of the order: the queue ahead is served first, and what
remains of the trade fills the order. -/
def onTrade (size : ℚ) (observedAt : ℤ) (p : Progress) : Progress :=
  if size < minDeltaSize then p
  else
    let consumed := min size p.queueAhead
    let remaining := size - consumed
    let p := { p with
      tradesObserved := p.tradesObserved + size
      queueAhead := p.queueAhead - consumed }
    if remaining > 0 then
      { p with
        filledShares := p.filledShares + min remaining (order.sizeShares - p.filledShares)
        firstFillAt := if p.firstFillAt = none then some observedAt else p.firstFillAt }
    else p

/-- A cancel of the given size at the level of the order. -/
def onCancel (size : ℚ) (p : Progress) : Progress :=
  if size < minDeltaSize then p
  else { p with
    cancelsObserved := p.cancelsObserved + size
    queueAhead := max 0 (p.queueAhead - size) }

/-- The event is at the level of the order and on its side. -/
def AtLevel (ev : Delta) : Prop :=
  ev.side = sideKey order.side ∧
    ¬ gap (roundPrice (ev.price.getD 0)) (roundPrice order.price) > tick

instance (ev : Delta) : Decidable (AtLevel order ev) := inferInstanceAs (Decidable (_ ∧ _))

/-- The loop over the events. -/
def replayEvents : List Delta → Progress → Progress
  | [], p => p
  | ev :: events, p =>
    if p.filledShares ≥ order.sizeShares then p
    else if ¬ AtLevel order ev then replayEvents events p
    else
      match ev.eventType with
      | .trade => replayEvents events (onTrade order (ev.tradeSize.getD 0) ev.observedAt p)
      | .cancel => replayEvents events (onCancel (ev.cancelSize.getD 0) p)
      | .other => replayEvents events p

/-- The moment up to which the order is in force. -/
def endAt : ℤ := order.placedAt + roundHalfEven (max 0 order.timeInForceSeconds * 10 ^ 6)

/-- `replay_counterfactual_order`, given what the archive holds for the token -/
def replayCounterfactualOrder (snapshot : Option ReplaySnapshot) (deltas : List Delta) :
    CounterfactualResult :=
  match snapshot with
  | none =>
    { filledShares := 0, averageFillPrice := none, timeToFillSeconds := none,
      finalQueueAhead := 0, cancelsAheadObserved := 0, tradesAheadObserved := 0,
      eventsProcessed := 0, expired := true, notes := .noBookSnapshotAtPlacement }
  | some snapshot =>
    let queueAhead := initialQueueAhead snapshot order.side order.price
    let events := streamDeltaEvents deltas order.placedAt (endAt order)
    let p := replayEvents order events { queueAhead }
    { filledShares := p.filledShares
      averageFillPrice := if p.filledShares > 0 then some order.price else none
      timeToFillSeconds := p.firstFillAt.map fun t => max 0 (((t - order.placedAt : ℤ) : ℚ) / 10 ^ 6)
      finalQueueAhead := p.queueAhead
      cancelsAheadObserved := p.cancelsObserved
      tradesAheadObserved := p.tradesObserved
      eventsProcessed := events.length
      expired := decide (p.filledShares < order.sizeShares)
      notes := .replayed queueAhead p.tradesObserved p.cancelsObserved }

end Replay

/-! ## The volume at a level -/

section Volume

variable (order : CounterfactualOrder)

/-- What an event trades at the level of the order; trades below the least size do not count. -/
def tradedAt (ev : Delta) : ℚ :=
  if AtLevel order ev ∧ ev.eventType = .trade ∧ minDeltaSize ≤ ev.tradeSize.getD 0
  then ev.tradeSize.getD 0 else 0

/-- What an event cancels at the level of the order; cancels below the least size do not count. -/
def cancelledAt (ev : Delta) : ℚ :=
  if AtLevel order ev ∧ ev.eventType = .cancel ∧ minDeltaSize ≤ ev.cancelSize.getD 0
  then ev.cancelSize.getD 0 else 0

/-- What is traded at the level of the order beyond a queue, which trades and cancels take first. -/
def tradedBeyond : ℚ → List Delta → ℚ
  | _, [] => 0
  | queue, ev :: events =>
    max 0 (tradedAt order ev - queue) +
      tradedBeyond (max 0 (queue - tradedAt order ev - cancelledAt order ev)) events

/-- An event trades or cancels at the level of the order, or does neither. -/
lemma level_cases (ev : Delta) :
    (AtLevel order ev ∧ ev.eventType = .trade ∧ minDeltaSize ≤ ev.tradeSize.getD 0 ∧
      tradedAt order ev = ev.tradeSize.getD 0 ∧ cancelledAt order ev = 0) ∨
    (AtLevel order ev ∧ ev.eventType = .cancel ∧ minDeltaSize ≤ ev.cancelSize.getD 0 ∧
      tradedAt order ev = 0 ∧ cancelledAt order ev = ev.cancelSize.getD 0) ∨
    ((AtLevel order ev → (ev.eventType = .trade → ev.tradeSize.getD 0 < minDeltaSize) ∧
      (ev.eventType = .cancel → ev.cancelSize.getD 0 < minDeltaSize)) ∧
      tradedAt order ev = 0 ∧ cancelledAt order ev = 0) := by
  rw [tradedAt, cancelledAt]
  by_cases hlevel : AtLevel order ev
  · cases htype : ev.eventType with
    | trade =>
      by_cases hsize : minDeltaSize ≤ ev.tradeSize.getD 0
      · exact .inl (by simp [hlevel, hsize])
      · exact .inr (.inr (by simp [hsize, not_le.1 hsize]))
    | cancel =>
      by_cases hsize : minDeltaSize ≤ ev.cancelSize.getD 0
      · exact .inr (.inl (by simp [hlevel, hsize]))
      · exact .inr (.inr (by simp [hsize, not_le.1 hsize]))
    | other => exact .inr (.inr (by simp))
  · exact .inr (.inr (by simp [hlevel]))

lemma tradedBeyond_nonneg (queue : ℚ) (events : List Delta) :
    0 ≤ tradedBeyond order queue events := by
  induction events generalizing queue with
  | nil => exact le_rfl
  | cons ev events ih => exact add_nonneg (le_max_left _ _) (ih _)

/-- With no queue everything that is traded at the level counts. -/
lemma tradedBeyond_zero (events : List Delta) :
    tradedBeyond order 0 events = (events.map (tradedAt order)).sum := by
  have hmin : 0 ≤ minDeltaSize := by norm_num [minDeltaSize]
  induction events with
  | nil => rfl
  | cons ev events ih =>
    have htraded : 0 ≤ tradedAt order ev := by
      rcases level_cases order ev with ⟨-, -, hsize, heq, -⟩ | ⟨-, -, -, heq, -⟩ | ⟨-, heq, -⟩
      · exact (hmin.trans hsize).trans_eq heq.symm
      · exact heq.ge
      · exact heq.ge
    have hcancelled : 0 ≤ cancelledAt order ev := by
      rcases level_cases order ev with ⟨-, -, -, -, heq⟩ | ⟨-, -, hsize, -, heq⟩ | ⟨-, -, heq⟩
      · exact heq.ge
      · exact (hmin.trans hsize).trans_eq heq.symm
      · exact heq.ge
    have hgone : max 0 (0 - tradedAt order ev - cancelledAt order ev) = 0 :=
      max_eq_left (by linarith)
    rw [tradedBeyond, hgone, ih, sub_zero, max_eq_right htraded, List.map_cons, List.sum_cons]

variable {order} {p : Progress}

/-- A trade takes the queue first, and what is left of it goes to the order as far as it fits. -/
lemma onTrade_spec {size : ℚ} (hfilled : p.filledShares ≤ order.sizeShares)
    (hsize : minDeltaSize ≤ size) (observedAt : ℤ) :
    (onTrade order size observedAt p).queueAhead = max 0 (p.queueAhead - size) ∧
      (onTrade order size observedAt p).filledShares =
        min order.sizeShares (p.filledShares + max 0 (size - p.queueAhead)) := by
  rw [onTrade, if_neg (not_lt.2 hsize)]
  dsimp only
  rcases le_or_gt size p.queueAhead with hle | hgt
  · have hnone : ¬ size - min size p.queueAhead > 0 := by simp [hle]
    rw [if_neg hnone, min_eq_left hle, max_eq_right (sub_nonneg.2 hle),
      max_eq_left (sub_nonpos.2 hle), add_zero, min_eq_right hfilled]
    exact ⟨rfl, rfl⟩
  · have hsome : size - min size p.queueAhead > 0 := by
      rw [min_eq_right hgt.le]
      exact sub_pos.2 hgt
    rw [if_pos hsome, min_eq_right hgt.le, sub_self, max_eq_left (sub_nonpos.2 hgt.le),
      max_eq_right (sub_nonneg.2 hgt.le)]
    refine ⟨rfl, ?_⟩
    dsimp only
    rw [← min_add_add_left, add_sub_cancel, min_comm]

/-- A cancel shortens the queue. -/
lemma onCancel_spec {size : ℚ} (hsize : minDeltaSize ≤ size) :
    (onCancel size p).queueAhead = max 0 (p.queueAhead - size) ∧
      (onCancel size p).filledShares = p.filledShares := by
  rw [onCancel, if_neg (not_lt.2 hsize)]
  exact ⟨rfl, rfl⟩

/-- One turn of the loop, before the order is full. -/
lemma replayEvents_cons (hqueue : 0 ≤ p.queueAhead) (hopen : p.filledShares < order.sizeShares)
    (ev : Delta) (events : List Delta) :
    ∃ p' : Progress, replayEvents order (ev :: events) p = replayEvents order events p' ∧
      p'.queueAhead = max 0 (p.queueAhead - tradedAt order ev - cancelledAt order ev) ∧
      p'.filledShares =
        min order.sizeShares (p.filledShares + max 0 (tradedAt order ev - p.queueAhead)) := by
  rw [replayEvents, if_neg (not_le.2 hopen)]
  rcases level_cases order ev with ⟨hlevel, htype, hsize, htraded, hcancelled⟩ |
    ⟨hlevel, htype, hsize, htraded, hcancelled⟩ | ⟨hnothing, htraded, hcancelled⟩
  · obtain ⟨hqueue', hfilled'⟩ := onTrade_spec hopen.le hsize ev.observedAt
    rw [if_neg (not_not.2 hlevel), htype, htraded, hcancelled, sub_zero]
    exact ⟨_, rfl, hqueue', hfilled'⟩
  · obtain ⟨hqueue', hfilled'⟩ := @onCancel_spec p _ hsize
    rw [if_neg (not_not.2 hlevel), htype, htraded, hcancelled, sub_zero, zero_sub,
      max_eq_left (neg_nonpos.2 hqueue), add_zero, min_eq_right hopen.le]
    exact ⟨_, rfl, hqueue', hfilled'⟩
  · -- not at the level, too small, or of another type: the loop goes on with what it has
    have hsame : p.queueAhead = max 0 p.queueAhead := (max_eq_right hqueue).symm
    rw [htraded, hcancelled, sub_zero, sub_zero, zero_sub, max_eq_left (neg_nonpos.2 hqueue),
      add_zero, min_eq_right hopen.le]
    refine ⟨p, ?_, hsame, rfl⟩
    split
    case isTrue => rfl
    case isFalse hlevel =>
      obtain ⟨htrade, hcancel⟩ := hnothing (not_not.1 hlevel)
      cases htype : ev.eventType with
      | trade => simp only [onTrade, if_pos (htrade htype)]
      | cancel => simp only [onCancel, if_pos (hcancel htype)]
      | other => rfl

/-- The order fills what is traded at its level beyond the queue, up to its size. -/
lemma filledShares_replayEvents (hqueue : 0 ≤ p.queueAhead)
    (hfilled : p.filledShares ≤ order.sizeShares) (events : List Delta) :
    (replayEvents order events p).filledShares =
      min order.sizeShares (p.filledShares + tradedBeyond order p.queueAhead events) := by
  induction events generalizing p with
  | nil => simp [replayEvents, tradedBeyond, hfilled]
  | cons ev events ih =>
    rcases hfilled.lt_or_eq with hopen | hfull
    · obtain ⟨p', hturn, hqueue', hfilled'⟩ := replayEvents_cons hqueue hopen ev events
      have hrest := tradedBeyond_nonneg order p'.queueAhead events
      rw [hturn, ih (hqueue' ▸ le_max_left _ _) (hfilled' ▸ min_le_left _ _), hfilled',
        tradedBeyond, ← hqueue', ← min_add_add_right, ← min_assoc, ← add_assoc,
        min_eq_left (le_add_of_nonneg_right hrest)]
    · have hrest := tradedBeyond_nonneg order p.queueAhead (ev :: events)
      rw [replayEvents, if_pos hfull.ge, hfull, min_eq_left (le_add_of_nonneg_right hrest)]

end Volume

/-! ## A more aggressive price -/

/-- The price has four decimals. -/
def FourDecimals (price : ℚ) : Prop := ∃ k : ℤ, price = k / 10 ^ 4

lemma round4_of_fourDecimals {price : ℚ} (h : FourDecimals price) : round4 price = price := by
  obtain ⟨k, rfl⟩ := h
  have hround : roundHalfEven (k : ℚ) = k := by simp [roundHalfEven]
  rw [round4, div_mul_cancel₀ _ (by norm_num), hround]

/-- No level of the side shows a size at the price. -/
def NoDepth (snapshot : ReplaySnapshot) (side : Side) (price : ℚ) : Prop :=
  ∀ level ∈ snapshot.ownLevels side, level.price = price → level.size ≤ 0

instance (snapshot : ReplaySnapshot) (side : Side) (price : ℚ) :
    Decidable (NoDepth snapshot side price) :=
  inferInstanceAs (Decidable (∀ level ∈ snapshot.ownLevels side, _ → _))

/-- The depth of the levels that count as the order's own: those whose gap to its price comes out
below `1e-4`. -/
def depthNear (snapshot : ReplaySnapshot) (side : Side) (price : ℚ) : ℚ :=
  (((snapshot.ownLevels side).filter fun level =>
    gap level.price (roundPrice price) < tick).map fun level => max 0 level.size).sum

lemma initialQueueAhead_eq (snapshot : ReplaySnapshot) (side : Side) (price : ℚ) :
    initialQueueAhead snapshot side price = depthNear snapshot side price := by
  have hfold : ∀ (levels : List ReplayLevel) (total : ℚ), levels.foldl
      (fun total level => if gap level.price (roundPrice price) < tick
        then total + max 0 level.size else total) total =
      total + ((levels.filter fun level => gap level.price (roundPrice price) < tick).map
        fun level => max 0 level.size).sum := by
    intro levels
    induction levels with
    | nil => simp
    | cons level levels ih =>
      intro total
      rw [List.foldl_cons, ih, List.filter_cons]
      by_cases hnear : gap level.price (roundPrice price) < tick
      · simp [hnear, add_assoc]
      · simp [hnear]
  exact (hfold _ 0).trans (zero_add _)

lemma depthNear_nonneg (snapshot : ReplaySnapshot) (side : Side) (price : ℚ) :
    0 ≤ depthNear snapshot side price := by
  refine List.sum_nonneg fun x hx => ?_
  obtain ⟨level, -, rfl⟩ := List.mem_map.1 hx
  exact le_max_left _ _

/-- The second price is at least as aggressive as the first. -/
def AsAggressive : Side → ℚ → ℚ → Prop
  | .buy, passive, aggressive => passive ≤ aggressive
  | .sell, passive, aggressive => aggressive ≤ passive

/-- Two limit prices with four decimals, the second at least as aggressive as the first. -/
structure LimitPair (side : Side) where
  passive : ℚ
  aggressive : ℚ
  fourDecimals : FourDecimals passive
  fourDecimals' : FourDecimals aggressive
  asAggressive : AsAggressive side passive aggressive

/-- What the replay fills of an order with a limit price, which is the double next to the
decimal. -/
def filledAt (snapshot : ReplaySnapshot) (deltas : List Delta) (order : CounterfactualOrder)
    (price : ℚ) : ℚ :=
  (replayCounterfactualOrder { order with price := toDouble price } (some snapshot)
    deltas).filledShares

/-- What the recording trades at the level of a limit price, while the order is in force, beyond the
depth that counts as being ahead of it. -/
def volumeAt (snapshot : ReplaySnapshot) (deltas : List Delta) (order : CounterfactualOrder)
    (price : ℚ) : ℚ :=
  tradedBeyond { order with price := toDouble price }
    (depthNear snapshot order.side (toDouble price))
    (streamDeltaEvents deltas order.placedAt (endAt order))

section FillsNoLess

variable {snapshot : ReplaySnapshot} {deltas : List Delta} {order : CounterfactualOrder}

/-- The order fills the volume at its level, up to its size. -/
lemma filledAt_eq (price : ℚ) (hsize : 0 ≤ order.sizeShares) :
    filledAt snapshot deltas order price =
      min order.sizeShares (volumeAt snapshot deltas order price) := by
  rw [filledAt, replayCounterfactualOrder]
  simp only [initialQueueAhead_eq]
  rw [filledShares_replayEvents (depthNear_nonneg ..) (by exact hsize), zero_add]
  rfl

/-- An order with a size below zero fills nothing. -/
lemma filledAt_of_neg (price : ℚ) (hsize : order.sizeShares < 0) :
    filledAt snapshot deltas order price = 0 := by
  rw [filledAt, replayCounterfactualOrder]
  dsimp only
  cases streamDeltaEvents deltas order.placedAt (endAt { order with price := toDouble price }) with
  | nil => rfl
  | cons ev events =>
    rw [replayEvents, if_pos (by exact hsize.le)]

/-- With no depth near the price, the volume at the level is all that is traded there, whatever is
cancelled. -/
lemma volumeAt_of_clear {price : ℚ}
    (hclear : depthNear snapshot order.side (toDouble price) = 0) :
    volumeAt snapshot deltas order price =
      ((streamDeltaEvents deltas order.placedAt (endAt order)).map
        (tradedAt { order with price := toDouble price })).sum := by
  rw [volumeAt, hclear, tradedBeyond_zero]

/-- The more aggressive price fills at least as much, and neither fills more than the size. -/
def FillsNoLess (snapshot : ReplaySnapshot) (deltas : List Delta) (order : CounterfactualOrder)
    (pair : LimitPair order.side) : Prop :=
  filledAt snapshot deltas order pair.passive ≤ filledAt snapshot deltas order pair.aggressive ∧
    filledAt snapshot deltas order pair.passive ≤ order.sizeShares ∧
    filledAt snapshot deltas order pair.aggressive ≤ order.sizeShares

end FillsNoLess

section Examples

/-- A purchase of ten shares. -/
def tenShares : CounterfactualOrder := ⟨.buy, 0, 10, 0, 60⟩

/-- The prices 0.50 and 0.60. -/
def fiftyAndSixty : LimitPair tenShares.side :=
  ⟨1 / 2, 3 / 5, ⟨5000, by norm_num⟩, ⟨6000, by norm_num⟩, show (1 / 2 : ℚ) ≤ 3 / 5 by norm_num⟩

/-- A book with a hundred shares bid at a price. -/
def bidsAt (price : ℚ) : ReplaySnapshot := { bids := [⟨toDouble price, 100⟩] }

/-- Ten shares traded at a price. -/
def tenTraded (price : ℚ) (observedAt : ℤ) : Delta :=
  ⟨some (toDouble price), .bid, .trade, some 10, none, observedAt⟩

-- the tick above 0.60 counts as its level: the order waits for its depth, and fills nothing
example : gap (toDouble (6001 / 10 ^ 4)) (roundPrice (toDouble (3 / 5))) < tick := by
  decide +kernel

example : filledAt (bidsAt (6001 / 10 ^ 4)) [tenTraded (1 / 2) 1, tenTraded (3 / 5) 2] tenShares
    (3 / 5) = 0 := by
  decide +kernel

end Examples

end Evosport.FillSimulator
