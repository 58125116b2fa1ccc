/-
Order-book snapshots (`services/backtest/book_replay.py`).

Prices, sizes and amounts of money are rationals: the development is about the
arithmetic the code means, not about rounding.  Instants are whole microseconds, the
resolution of the datetimes of the source.
-/
import Mathlib.Data.Rat.Defs
import Mathlib.Algebra.Order.Ring.Rat
import Mathlib.Data.Rat.Floor
import Mathlib.Algebra.Order.BigOperators.Group.List
import Mathlib.Tactic.Linarith

namespace Evosport.Backtest

/-- An instant, in microseconds since the epoch. -/
abbrev Time := ℤ

/-- The identifier of an outcome token. -/
abbrev TokenId := String

/-- The identifier of an order. -/
abbrev OrderId := String

/-- The slug of a strategy. -/
abbrev Slug := String

/-- The tolerance `1e-12` of the price and size comparisons. -/
def e12 : ℚ := 1 / 10 ^ 12

/-- The tolerance `1e-9` of the budget comparisons and of the queue gate. -/
def e9 : ℚ := 1 / 10 ^ 9

lemma e12_pos : 0 < e12 := by norm_num [e12]

lemma e9_pos : 0 < e9 := by norm_num [e9]

/-- Round to the nearest integer, ties to the even one, as `round` and `timedelta` do. -/
def roundHalfEven (x : ℚ) : ℤ :=
  let f := ⌊x⌋
  let r := x - f
  if r < 1 / 2 then f
  else if r > 1 / 2 then f + 1
  else if f % 2 = 0 then f else f + 1

/-- The side of an order, a fill or a position. -/
inductive Side where
  | buy
  | sell
deriving DecidableEq, Repr

/-- The other side. -/
def Side.opposite : Side → Side
  | .buy => .sell
  | .sell => .buy

@[simp] lemma Side.opposite_opposite (s : Side) : s.opposite.opposite = s := by cases s <;> rfl

/-- One level of one side of a book. -/
structure PriceLevel where
  price : ℚ
  size : ℚ
deriving DecidableEq, Repr

/-- An L2 snapshot.  As the class promises, the bids descend and the asks ascend. -/
structure BookSnapshot where
  tokenId : TokenId
  observedAt : Time
  bids : List PriceLevel
  asks : List PriceLevel
  sequence : Option ℤ := none
  bids_desc : bids.Pairwise (fun a b => b.price ≤ a.price) := by decide +kernel
  asks_asc : asks.Pairwise (fun a b => a.price ≤ b.price) := by decide +kernel

namespace BookSnapshot

/-- A book with one ask. -/
def offer (tokenId : TokenId) (observedAt : Time) (ask : PriceLevel) : BookSnapshot where
  tokenId := tokenId
  observedAt := observedAt
  bids := []
  asks := [ask]
  bids_desc := List.Pairwise.nil
  asks_asc := List.pairwise_singleton _ _

/-- The first bid. -/
def bestBid (s : BookSnapshot) : Option ℚ := s.bids.head?.map PriceLevel.price

/-- The first ask. -/
def bestAsk (s : BookSnapshot) : Option ℚ := s.asks.head?.map PriceLevel.price

/-- The mid price, when both sides are displayed. -/
def mid (s : BookSnapshot) : Option ℚ :=
  match s.bestBid, s.bestAsk with
  | some bb, some ba => some ((bb + ba) / 2)
  | _, _ => none

/-- The ladder that a taker on `side` hits: bids for a SELL, asks for a BUY. -/
def ladder (s : BookSnapshot) : Side → List PriceLevel
  | .sell => s.bids
  | .buy => s.asks

/-- The ladder on which an order on `side` rests: bids for a BUY, asks for a SELL. -/
def ownLadder (s : BookSnapshot) (side : Side) : List PriceLevel := s.ladder side.opposite

end BookSnapshot

/-- `price` is out of the reach of a taker on `side` with the limit `limit`, beyond the
matcher's tolerance. -/
def beyondLimit (side : Side) (limit price : ℚ) : Bool :=
  match side with
  | .sell => price + e12 < limit
  | .buy => price - e12 > limit

/-- On a sorted ladder everything behind a level out of reach is out of reach. -/
lemma ladder_pairwise (s : BookSnapshot) (side : Side) :
    (s.ladder side).Pairwise fun a b =>
      ∀ limit, beyondLimit side limit a.price = true → beyondLimit side limit b.price = true := by
  cases side with
  | sell =>
    refine s.bids_desc.imp fun {a b} hab limit h => ?_
    simp only [beyondLimit, decide_eq_true_eq] at h ⊢
    linarith
  | buy =>
    refine s.asks_asc.imp fun {a b} hab limit h => ?_
    simp only [beyondLimit, decide_eq_true_eq] at h ⊢
    linarith

end Evosport.Backtest
