/-
Realised profit, first in, first out (`utils/fifo_pnl.py`).

The trades of a market are sorted by time; purchases queue up, and every sale is matched against the
oldest lots.  A lot with less than `1e-12` left is dropped, and what is left of a sale below that is
not matched any more.

`Keeps` lays out what the loop has done: a row for each purchase with the closings of its lot, the
rows in front exhausted and the rows behind the first lot of the queue untouched.

Timestamps are microseconds, where `_parse_ts` makes anything of them, and numbers are exact.
-/
import Evosport.Backtest.Book
import Evosport.Lib.StableSort
import Mathlib.Algebra.BigOperators.Group.List.Basic
import Mathlib.Algebra.Order.BigOperators.Group.List
import Mathlib.Data.List.Flatten
import Mathlib.Data.List.Induction
import Mathlib.Data.List.Infix
import Mathlib.Tactic.Ring

namespace Evosport.Utils

open Lib Backtest

/-! ## Trades -/

/-- A number, or a text that `float` reads. -/
inductive PyNum
  | number (x : ℚ)
  | text (x : ℚ)
deriving DecidableEq, Repr

namespace PyNum

/-- The number that is meant. -/
def value : PyNum → ℚ
  | .number x => x
  | .text x => x

/-- Whether Python takes it as true: a text always, a number unless it is zero. -/
def truthy : PyNum → Bool
  | .number x => x ≠ 0
  | .text _ => true

end PyNum

/-- A trade as it comes in. -/
structure RawTrade where
  /-- What `_parse_ts` makes of `timestamp` or `created_at`. -/
  ts : Option ℤ
  price : Option PyNum := none
  size : Option PyNum := none
  amount : Option PyNum := none
  /-- The side in upper case, if it is one of the two. -/
  side : Option Side := none

/-- A trade that counts: one with a time and a side, and with a size above zero. -/
structure ParsedTrade where
  ts : ℤ
  price : ℚ
  size : ℚ
  side : Side
deriving DecidableEq, Repr

/-- The body of the first loop of `compute_fifo_pnl`. -/
def parseTrade (t : RawTrade) : Option ParsedTrade :=
  t.ts.bind fun ts =>
    let price := ((t.price.filter PyNum.truthy).map PyNum.value).getD 0
    let size := (((t.size.filter PyNum.truthy).or (t.amount.filter PyNum.truthy)).map
      PyNum.value).getD 0
    t.side.bind fun side => if size ≤ 0 then none else some ⟨ts, price, size, side⟩

/-- The trades that count, in time order. -/
def parsedTrades (trades : List RawTrade) : List ParsedTrade :=
  sortByKey ParsedTrade.ts (trades.filterMap parseTrade)

/-! ## Lots -/

/-- `TradeLot`: shares that were bought together, and how they were sold. -/
structure TradeLot where
  openTs : ℤ
  closeTs : Option ℤ
  entryPrice : ℚ
  exitPrice : Option ℚ
  size : ℚ
  side : Side
  marketId : String
  realizedPnl : Option ℚ
deriving DecidableEq, Repr

/-- `_OpenLot`: shares that were bought at one price and are not all sold yet -/
structure OpenLot where
  ts : ℤ
  price : ℚ
  remaining : ℚ
deriving DecidableEq, Repr

/-- `FIFOResult`: all lots of a wallet and the figures that are computed from them. -/
structure FifoResult where
  closedLots : List TradeLot := []
  openLots : List TradeLot := []
  totalRealizedPnl : ℚ := 0
  totalTrades : ℕ := 0
  winningLots : ℕ := 0
  losingLots : ℕ := 0
  avgHoldSeconds : ℚ := 0
  accuracy : ℚ := 0
deriving DecidableEq, Repr

/-- What the loop over the trades keeps: the lots that are open, the oldest first, those that were
closed, and the profit of them. -/
structure FifoState where
  buyQueue : List OpenLot := []
  closedLots : List TradeLot := []
  totalRealized : ℚ := 0
deriving DecidableEq, Repr

section Compute

variable (marketId : String)

/-- What closes of a lot when a sale takes an amount of it. -/
def closing (t : ParsedTrade) (oldest : OpenLot) (matched : ℚ) : TradeLot :=
  { openTs := oldest.ts, closeTs := some t.ts, entryPrice := oldest.price, exitPrice := some t.price,
    size := matched, side := .buy, marketId,
    realizedPnl := some ((t.price - oldest.price) * matched) }

/-- The loop that matches a sale: it takes from the oldest lot, which leaves the queue when less
than the tolerance is left of it.  What no lot covers of the sale is dropped. -/
def sellLoop (t : ParsedTrade) (queue : List OpenLot) (sellRemaining : ℚ)
    (closedLots : List TradeLot) (totalRealized : ℚ) : FifoState :=
  match queue with
  | [] => ⟨[], closedLots, totalRealized⟩
  | oldest :: behind =>
    if sellRemaining > e12 then
      let matched := min sellRemaining oldest.remaining
      let pnl := (t.price - oldest.price) * matched
      let remaining := oldest.remaining - matched
      sellLoop t (if remaining < e12 then behind else { oldest with remaining } :: behind)
        (sellRemaining - matched) (closedLots ++ [closing marketId t oldest matched])
        (totalRealized + pnl)
    else ⟨oldest :: behind, closedLots, totalRealized⟩
termination_by (queue.length, if sellRemaining > e12 then 1 else 0)
decreasing_by
  split
  · exact Prod.Lex.left _ _ (Nat.lt_succ_self _)
  · -- the lot is not used up, so that nothing is left of the sale
    rename_i hsell hleft
    have hpos := e12_pos
    have hless : sellRemaining ≤ oldest.remaining := by
      by_contra hmore
      rw [min_eq_right (not_le.1 hmore).le, sub_self] at hleft
      exact hleft hpos
    rw [min_eq_left hless, sub_self, if_neg (not_lt.2 hpos.le)]
    exact Prod.Lex.right _ Nat.one_pos

/-- The body of the loop over the trades. -/
def step (s : FifoState) (t : ParsedTrade) : FifoState :=
  match t.side with
  | .buy => { s with buyQueue := s.buyQueue ++ [⟨t.ts, t.price, t.size⟩] }
  | .sell => sellLoop marketId t s.buyQueue t.size s.closedLots s.totalRealized

/-- The loop over the trades. -/
def process (parsed : List ParsedTrade) : FifoState := parsed.foldl (step marketId) {}

/-- The lots that are still open at the end. -/
def openLotsOf (queue : List OpenLot) : List TradeLot :=
  (queue.filter fun lot => lot.remaining > e12).map fun lot =>
    { openTs := lot.ts, closeTs := none, entryPrice := lot.price, exitPrice := none,
      size := lot.remaining, side := .buy, marketId, realizedPnl := none }

/-- How long a closed lot was held. -/
def holdSeconds (lot : TradeLot) : Option ℚ :=
  lot.closeTs.map fun closeTs => ((closeTs - lot.openTs : ℤ) : ℚ) / 10 ^ 6

/-- `compute_fifo_pnl`: the trades are parsed and matched in the order of time, and the statistics
are read off the lots that were closed. -/
def computeFifoPnl (trades : List RawTrade) : FifoResult :=
  if trades = [] then {}
  else
    let parsed := parsedTrades trades
    let s := process marketId parsed
    let winning := s.closedLots.countP fun c => 0 < c.realizedPnl.getD 0
    let losing := s.closedLots.countP fun c => c.realizedPnl.getD 0 < 0
    let holds := s.closedLots.filterMap holdSeconds
    { closedLots := s.closedLots
      openLots := openLotsOf marketId s.buyQueue
      totalRealizedPnl := s.totalRealized
      totalTrades := parsed.length
      winningLots := winning
      losingLots := losing
      avgHoldSeconds := if holds = [] then 0 else holds.sum / holds.length
      accuracy := if s.closedLots.length > 0 then (winning : ℚ) / s.closedLots.length else 0 }

end Compute

/-! ## Rows -/

/-- The shares of a list of lots. -/
def lotShares (lots : List TradeLot) : ℚ := (lots.map TradeLot.size).sum

lemma lotShares_append (lots lots' : List TradeLot) :
    lotShares (lots ++ lots') = lotShares lots + lotShares lots' := by
  rw [lotShares, List.map_append, List.sum_append, ← lotShares, ← lotShares]

/-- What a closed lot earns. -/
def profit (lot : TradeLot) : ℚ := lot.size * (lot.exitPrice.getD 0 - lot.entryPrice)

/-- The purchases among the trades. -/
def purchases (parsed : List ParsedTrade) : List ParsedTrade :=
  parsed.filter fun t => t.side = .buy

/-- The shares that the trades buy. -/
def bought (parsed : List ParsedTrade) : ℚ := ((purchases parsed).map ParsedTrade.size).sum

/-- The lot closes something of the purchase, no earlier than it was opened. -/
structure Closes (b : ParsedTrade) (lot : TradeLot) : Prop where
  openTs : lot.openTs = b.ts
  entryPrice : lot.entryPrice = b.price
  closeTs : ∃ t ∈ lot.closeTs, b.ts ≤ t

/-- A purchase and the closings of its lot. -/
structure Row where
  buy : ParsedTrade
  lots : List TradeLot := []

/-- What is left of the lot. -/
def Row.left (r : Row) : OpenLot := ⟨r.buy.ts, r.buy.price, r.buy.size - lotShares r.lots⟩

/-- The shares that the rows have left. -/
def leftShares (rows : List Row) : ℚ := (rows.map fun r => r.left.remaining).sum

lemma leftShares_append (rows rows' : List Row) :
    leftShares (rows ++ rows') = leftShares rows + leftShares rows' := by
  rw [leftShares, List.map_append, List.sum_append, ← leftShares, ← leftShares]

lemma leftShares_nonneg {rows : List Row} (h : ∀ r ∈ rows, 0 ≤ r.left.remaining) :
    0 ≤ leftShares rows := by
  refine List.sum_nonneg fun x hx => ?_
  obtain ⟨r, hr, rfl⟩ := List.mem_map.1 hx
  exact h r hr

lemma leftShares_le {rows : List Row} (h : ∀ r ∈ rows, r.left.remaining ≤ e12) :
    leftShares rows ≤ rows.length * e12 := by
  have hle := List.sum_le_card_nsmul (rows.map fun r => r.left.remaining) e12 fun x hx => by
    obtain ⟨r, hr, rfl⟩ := List.mem_map.1 hx
    exact h r hr
  rwa [List.length_map, nsmul_eq_mul] at hle

/-- What the rows have left is what they bought less what they closed. -/
lemma leftShares_eq (rows : List Row) :
    leftShares rows = ((rows.map Row.buy).map ParsedTrade.size).sum -
      lotShares (rows.map Row.lots).flatten := by
  induction rows with
  | nil => simp [leftShares, lotShares]
  | cons r rows ih =>
    rw [leftShares, List.map_cons, List.sum_cons, ← leftShares, ih, List.map_cons, List.map_cons,
      List.map_cons, List.sum_cons, List.flatten_cons, lotShares_append, Row.left]
    ring

/-- The state of the loop, laid out by purchases: the rows `done` are exhausted, and of the rows
`rest` only the first has closings. -/
structure Keeps (done rest : List Row) (buys : List ParsedTrade) (s : FifoState) : Prop where
  buys : (done ++ rest).map Row.buy = buys
  queue : s.buyQueue = rest.map Row.left
  closed : s.closedLots = ((done ++ rest).map Row.lots).flatten
  closes : ∀ r ∈ done ++ rest, ∀ lot ∈ r.lots, Closes r.buy lot
  done_left : ∀ r ∈ done, 0 ≤ r.left.remaining ∧ r.left.remaining < e12
  rest_left : ∀ r ∈ rest, 0 < r.left.remaining
  fresh : ∀ r ∈ rest.tail, r.lots = []
  total : s.totalRealized = (s.closedLots.map profit).sum

namespace Keeps

variable {marketId : String} {done rest : List Row} {buys : List ParsedTrade} {s : FifoState}

lemma left_nonneg (h : Keeps done rest buys s) : ∀ r ∈ done ++ rest, 0 ≤ r.left.remaining := by
  intro r hr
  rcases List.mem_append.1 hr with hr | hr
  · exact (h.done_left r hr).1
  · exact (h.rest_left r hr).le

/-- What is held is what the rows have left. -/
lemma held_eq (h : Keeps done rest buys s) :
    (buys.map ParsedTrade.size).sum - lotShares s.closedLots = leftShares (done ++ rest) := by
  rw [leftShares_eq, h.buys, h.closed]

/-- No more is closed than was bought. -/
lemma lotShares_le (h : Keeps done rest buys s) :
    lotShares s.closedLots ≤ (buys.map ParsedTrade.size).sum := by
  have hleft := leftShares_nonneg h.left_nonneg
  rw [← h.held_eq] at hleft
  exact sub_nonneg.1 hleft

/-- The dust of the exhausted rows. -/
lemma leftShares_done_le (h : Keeps done rest buys s) : leftShares done ≤ done.length * e12 :=
  leftShares_le fun r hr => (h.done_left r hr).2.le

lemma length_buys (h : Keeps done rest buys s) : buys.length = done.length + rest.length := by
  rw [← h.buys, List.length_map, List.length_append]

/-- A purchase adds a row. -/
lemma buy (h : Keeps done rest buys s) {t : ParsedTrade} (hside : t.side = .buy)
    (hsize : 0 < t.size) : Keeps done (rest ++ [⟨t, []⟩]) (buys ++ [t]) (step marketId s t) := by
  have hstep : step marketId s t = { s with buyQueue := s.buyQueue ++ [⟨t.ts, t.price, t.size⟩] } := by
    rw [step, hside]
  have hleft : (⟨t, []⟩ : Row).left = ⟨t.ts, t.price, t.size⟩ := by simp [Row.left, lotShares]
  rw [hstep]
  constructor
  case buys => rw [← List.append_assoc, List.map_append, h.buys, List.map_singleton]
  case queue => rw [List.map_append, List.map_singleton, hleft, h.queue]
  case closed =>
    rw [← List.append_assoc, List.map_append, List.flatten_append, ← h.closed]
    exact (List.append_nil _).symm
  case closes =>
    intro r hr lot hlot
    rw [← List.append_assoc] at hr
    rcases List.mem_append.1 hr with hr | hr
    · exact h.closes r hr lot hlot
    · obtain rfl := List.mem_singleton.1 hr
      cases hlot
  case done_left => exact h.done_left
  case rest_left =>
    intro r hr
    rcases List.mem_append.1 hr with hr | hr
    · exact h.rest_left r hr
    · obtain rfl := List.mem_singleton.1 hr
      rw [hleft]
      exact hsize
  case fresh =>
    intro r hr
    cases rest with
    | nil => cases hr
    | cons r' rest =>
      rcases List.mem_append.1 hr with hr | hr
      · exact h.fresh r hr
      · obtain rfl := List.mem_singleton.1 hr
        rfl
  case total => exact h.total

/-- A closing of the oldest lot: the row is exhausted, or stays at the head of the queue. -/
lemma close {r : Row} (h : Keeps done (r :: rest) buys s) {lot : TradeLot}
    (hlot : Closes r.buy lot) (hle : lot.size ≤ r.left.remaining) :
    let r' : Row := { r with lots := r.lots ++ [lot] }
    let closedLots := s.closedLots ++ [lot]
    let totalRealized := s.totalRealized + profit lot
    r'.left.remaining = r.left.remaining - lot.size ∧
      (r'.left.remaining < e12 →
        Keeps (done ++ [r']) rest buys ⟨rest.map Row.left, closedLots, totalRealized⟩) ∧
      (¬ r'.left.remaining < e12 →
        Keeps done (r' :: rest) buys ⟨r'.left :: rest.map Row.left, closedLots, totalRealized⟩) := by
  intro r' closedLots totalRealized
  have hleft : r'.left.remaining = r.left.remaining - lot.size := by
    simp only [Row.left, r', lotShares_append]
    simp only [lotShares, List.map_singleton, List.sum_singleton]
    ring
  have hbuys : (done ++ r' :: rest).map Row.buy = buys := by
    rw [← h.buys, List.map_append, List.map_append, List.map_cons, List.map_cons]
  have hclosed : closedLots = ((done ++ r' :: rest).map Row.lots).flatten := by
    have hnil : (rest.map Row.lots).flatten = [] := by
      refine List.flatten_eq_nil_iff.2 fun lots hlots => ?_
      obtain ⟨r₀, hr₀, rfl⟩ := List.mem_map.1 hlots
      exact h.fresh r₀ hr₀
    have hbefore := h.closed
    simp only [List.map_append, List.map_cons, List.flatten_append, List.flatten_cons, hnil,
      List.append_nil] at hbefore ⊢
    simp only [closedLots, hbefore, r', List.append_assoc]
  have hcloses : ∀ r₀ ∈ done ++ r' :: rest, ∀ lot₀ ∈ r₀.lots, Closes r₀.buy lot₀ := by
    intro r₀ hr₀ lot₀ hlot₀
    rcases List.mem_append.1 hr₀ with hr₀ | hr₀
    · exact h.closes r₀ (List.mem_append_left _ hr₀) lot₀ hlot₀
    rcases List.mem_cons.1 hr₀ with rfl | hr₀
    · rcases List.mem_append.1 hlot₀ with hlot₀ | hlot₀
      · exact h.closes r (List.mem_append_right _ List.mem_cons_self) lot₀ hlot₀
      · obtain rfl := List.mem_singleton.1 hlot₀
        exact hlot
    · exact h.closes r₀ (List.mem_append_right _ (List.mem_cons_of_mem _ hr₀)) lot₀ hlot₀
  have htotal : totalRealized = (closedLots.map profit).sum := by
    simp only [totalRealized, closedLots, h.total, List.map_append, List.map_singleton,
      List.sum_append, List.sum_singleton]
  have hrest := fun r₀ hr₀ => h.rest_left r₀ (List.mem_cons_of_mem r hr₀)
  refine ⟨hleft, fun hdust => ?_, fun hmore => ?_⟩
  · constructor
    case buys => rw [List.append_assoc]; exact hbuys
    case queue => rfl
    case closed => rw [List.append_assoc]; exact hclosed
    case closes => rw [List.append_assoc]; exact hcloses
    case done_left =>
      intro r₀ hr₀
      rcases List.mem_append.1 hr₀ with hr₀ | hr₀
      · exact h.done_left r₀ hr₀
      · obtain rfl := List.mem_singleton.1 hr₀
        exact ⟨by rw [hleft]; exact sub_nonneg.2 hle, hdust⟩
    case rest_left => exact hrest
    case fresh => exact fun r₀ hr₀ => h.fresh r₀ (List.mem_of_mem_tail hr₀)
    case total => exact htotal
  · constructor
    case buys => exact hbuys
    case queue => rfl
    case closed => exact hclosed
    case closes => exact hcloses
    case done_left => exact h.done_left
    case rest_left =>
      intro r₀ hr₀
      rcases List.mem_cons.1 hr₀ with rfl | hr₀
      · exact e12_pos.trans_le (not_lt.1 hmore)
      · exact hrest r₀ hr₀
    case fresh => exact h.fresh
    case total => exact htotal

end Keeps

/-! ## A sale -/

section Sale

variable (marketId : String) {t : ParsedTrade}

/-- The closings of a sale come behind those that are there. -/
lemma closedLots_prefix_sellLoop (queue : List OpenLot) (sellRemaining : ℚ)
    (closedLots : List TradeLot) (totalRealized : ℚ) :
    closedLots <+: (sellLoop marketId t queue sellRemaining closedLots totalRealized).closedLots := by
  fun_induction sellLoop marketId t queue sellRemaining closedLots totalRealized with
  | case1 => exact List.prefix_refl _
  | case2 _ _ _ _ _ _ _ _ _ ih => exact (List.prefix_append _ _).trans ih
  | case3 => exact List.prefix_refl _

/-- A sale goes through the rows.  It closes no more than its size, and stops where less than the
dust is left of it or the queue is empty. -/
lemma sellLoop_keeps {buys : List ParsedTrade} (hbuys : ∀ b ∈ buys, b.ts ≤ t.ts)
    (queue : List OpenLot) (sellRemaining : ℚ) (closedLots : List TradeLot) (totalRealized : ℚ)
    {done rest : List Row} (h : Keeps done rest buys ⟨queue, closedLots, totalRealized⟩)
    (hsell : 0 ≤ sellRemaining) :
    ∃ done' rest', Keeps done' rest' buys
        (sellLoop marketId t queue sellRemaining closedLots totalRealized) ∧
      let taken := lotShares
        (sellLoop marketId t queue sellRemaining closedLots totalRealized).closedLots -
          lotShares closedLots
      taken ≤ sellRemaining ∧ (sellRemaining - e12 ≤ taken ∨ rest' = []) := by
  fun_induction sellLoop marketId t queue sellRemaining closedLots totalRealized
    generalizing done rest with
  | case1 =>
    have hrest : rest = [] := List.map_eq_nil_iff.1 h.queue.symm
    exact ⟨done, rest, h, by rw [sub_self]; exact hsell, .inr hrest⟩
  | case3 _ sellRemaining _ _ _ hstop =>
    refine ⟨done, rest, h, by rw [sub_self]; exact hsell, .inl ?_⟩
    rw [sub_self]
    exact sub_nonpos.2 (not_lt.1 hstop)
  | case2 sellRemaining closedLots totalRealized oldest behind hmore matched pnl =>
    rename_i remaining ih
    simp only [dite_eq_ite] at ih
    cases rest with
    | nil => cases h.queue
    | cons r rest =>
      obtain ⟨rfl, rfl⟩ := List.cons.inj h.queue
      have hmem : r ∈ done ++ r :: rest := List.mem_append_right _ List.mem_cons_self
      have hts : r.buy.ts ≤ t.ts := hbuys _ (by
        rw [← h.buys]
        exact List.mem_map_of_mem hmem)
      have hmatched : 0 ≤ matched := le_min hsell (h.rest_left r List.mem_cons_self).le
      have hcloses : Closes r.buy (closing marketId t r.left matched) :=
        ⟨rfl, rfl, t.ts, rfl, hts⟩
      have hprofit : profit (closing marketId t r.left matched) = pnl := by
        rw [profit, mul_comm]
        rfl
      have hsize : lotShares (closedLots ++ [closing marketId t r.left matched]) =
          lotShares closedLots + matched := by
        rw [lotShares_append]
        exact congrArg _ (add_zero matched)
      obtain ⟨hleft, hdust, hstays⟩ := h.close hcloses (min_le_right _ _)
      rw [hprofit] at hdust hstays
      have hnext : ∃ done' rest', Keeps done' rest' buys
          ⟨if remaining < e12 then rest.map Row.left
            else { r.left with remaining := remaining } :: rest.map Row.left,
            closedLots ++ [closing marketId t r.left matched], totalRealized + pnl⟩ := by
        split
        case isTrue hlt => exact ⟨_, _, hdust (by rw [hleft]; exact hlt)⟩
        case isFalse hge =>
          have hkept := hstays (by rw [hleft]; exact hge)
          have hhead : ({ r.left with remaining := remaining } : OpenLot) =
              (⟨r.buy, r.lots ++ [closing marketId t r.left matched]⟩ : Row).left := by
            have heq : remaining =
                (⟨r.buy, r.lots ++ [closing marketId t r.left matched]⟩ : Row).left.remaining :=
              hleft.symm
            rw [heq]
            rfl
          rw [hhead]
          exact ⟨_, _, hkept⟩
      obtain ⟨done₁, rest₁, hkeeps⟩ := hnext
      obtain ⟨done', rest', hkeeps', htaken, hends⟩ :=
        ih hkeeps (sub_nonneg.2 (min_le_left _ _))
      rw [hsize] at htaken hends
      refine ⟨done', rest', hkeeps', by linarith, hends.imp_left fun hle => by linarith⟩

end Sale

/-! ## The whole run -/

section Run

variable (marketId : String)

lemma process_concat (parsed : List ParsedTrade) (t : ParsedTrade) :
    process marketId (parsed ++ [t]) = step marketId (process marketId parsed) t := by
  rw [process, List.foldl_append, ← process]
  rfl

lemma purchases_append (parsed parsed' : List ParsedTrade) :
    purchases (parsed ++ parsed') = purchases parsed ++ purchases parsed' :=
  List.filter_append _ _

/-- A trade leaves the closings that are there in front. -/
lemma closedLots_prefix_step (s : FifoState) (t : ParsedTrade) :
    s.closedLots <+: (step marketId s t).closedLots := by
  cases hside : t.side with
  | buy =>
    rw [step, hside]
  | sell =>
    rw [step, hside]
    exact closedLots_prefix_sellLoop _ _ _ _ _

lemma closedLots_prefix_process (before after : List ParsedTrade) :
    (process marketId before).closedLots <+: (process marketId (before ++ after)).closedLots := by
  induction after using List.reverseRecOn with
  | nil => rw [List.append_nil]
  | append_singleton after t ih =>
    rw [← List.append_assoc, process_concat]
    exact ih.trans (closedLots_prefix_step marketId _ t)

/-- The trades are in time order and have sizes. -/
structure InOrder (parsed : List ParsedTrade) : Prop where
  sorted : parsed.Pairwise fun a b => a.ts ≤ b.ts
  size_pos : ∀ t ∈ parsed, 0 < t.size

lemma inOrder_parsedTrades (trades : List RawTrade) : InOrder (parsedTrades trades) := by
  constructor
  case sorted => exact pairwise_sortByKey _
  case size_pos =>
    intro t ht
    obtain ⟨raw, -, hraw⟩ := List.mem_filterMap.1 (mem_sortByKey.1 ht)
    obtain ⟨ts, -, hraw⟩ := Option.bind_eq_some_iff.1 hraw
    obtain ⟨side, -, hraw⟩ := Option.bind_eq_some_iff.1 hraw
    split at hraw
    · cases hraw
    · next hsize =>
      obtain rfl := Option.some.inj hraw
      exact not_le.1 hsize

variable {parsed : List ParsedTrade}

namespace InOrder

lemma of_append {after : List ParsedTrade} (h : InOrder (parsed ++ after)) : InOrder parsed :=
  ⟨(List.pairwise_append.1 h.sorted).1, fun t ht => h.size_pos t (List.mem_append_left _ ht)⟩

/-- The purchases that precede a trade are no later. -/
lemma purchases_le {t : ParsedTrade} (h : InOrder (parsed ++ [t])) :
    ∀ b ∈ purchases parsed, b.ts ≤ t.ts := fun b hb =>
  (List.pairwise_append.1 h.sorted).2.2 b (List.mem_filter.1 hb).1 t (List.mem_singleton.2 rfl)

end InOrder

lemma bought_eq : bought parsed = ((purchases parsed).map ParsedTrade.size).sum := rfl

/-- After any number of trades the state is laid out by purchases. -/
lemma process_keeps (h : InOrder parsed) :
    ∃ done rest, Keeps done rest (purchases parsed) (process marketId parsed) := by
  induction parsed using List.reverseRecOn with
  | nil =>
    refine ⟨[], [], ?_⟩
    constructor <;> simp [purchases, process]
  | append_singleton parsed t ih =>
    obtain ⟨done, rest, hkeeps⟩ := ih h.of_append
    have hsize : 0 < t.size := h.size_pos t (by simp)
    rw [process_concat, purchases_append]
    cases hside : t.side with
    | buy =>
      have hone : purchases [t] = [t] := by simp [purchases, hside]
      rw [hone]
      exact ⟨_, _, hkeeps.buy hside hsize⟩
    | sell =>
      have hnone : purchases [t] = [] := by simp [purchases, hside]
      obtain ⟨done', rest', hkeeps', -⟩ :=
        sellLoop_keeps marketId h.purchases_le _ t.size _ _ hkeeps hsize.le
      rw [hnone, List.append_nil, step, hside]
      exact ⟨done', rest', hkeeps'⟩

/-- A sale closes the smaller of its size and of what is held, but for dust. -/
lemma process_sell {t : ParsedTrade} (h : InOrder (parsed ++ [t])) (hside : t.side = .sell) :
    let prev := lotShares (process marketId parsed).closedLots
    let next := lotShares (process marketId (parsed ++ [t])).closedLots
    let held := bought parsed - prev
    min (t.size - e12) (held - (purchases parsed).length * e12) ≤ next - prev ∧
      next - prev ≤ min t.size held := by
  obtain ⟨done, rest, hkeeps⟩ := process_keeps marketId h.of_append
  have hsize : 0 < t.size := h.size_pos t (by simp)
  obtain ⟨done', rest', hkeeps', htaken, hends⟩ :=
    sellLoop_keeps marketId h.purchases_le (process marketId parsed).buyQueue t.size
      (process marketId parsed).closedLots (process marketId parsed).totalRealized hkeeps hsize.le
  have hnext : process marketId (parsed ++ [t]) =
      sellLoop marketId t (process marketId parsed).buyQueue t.size
        (process marketId parsed).closedLots (process marketId parsed).totalRealized := by
    rw [process_concat, step, hside]
  rw [← hnext] at hkeeps' htaken hends
  have hle := hkeeps'.lotShares_le
  refine ⟨?_, le_min htaken (by rw [bought_eq]; linarith)⟩
  rcases hends with hspent | hempty
  · exact (min_le_left _ _).trans hspent
  · subst hempty
    have hheld := hkeeps'.held_eq
    have hdust := hkeeps'.leftShares_done_le
    have hlength := hkeeps'.length_buys
    rw [List.append_nil] at hheld
    rw [List.length_nil, add_zero] at hlength
    rw [← hlength] at hdust
    refine (min_le_right _ _).trans ?_
    rw [bought_eq]
    linarith

/-- What the open lots hold is what the rows have left, but for dust. -/
lemma lotShares_openLotsOf {rows : List Row} (h : ∀ r ∈ rows, 0 ≤ r.left.remaining) :
    leftShares rows - rows.length * e12 ≤ lotShares (openLotsOf marketId (rows.map Row.left)) ∧
      lotShares (openLotsOf marketId (rows.map Row.left)) ≤ leftShares rows := by
  induction rows with
  | nil => simp [leftShares, openLotsOf, lotShares]
  | cons r rows ih =>
    obtain ⟨hr, hrows⟩ := List.forall_mem_cons.1 h
    obtain ⟨hlow, hhigh⟩ := ih hrows
    have hsum : leftShares (r :: rows) = r.left.remaining + leftShares rows := rfl
    have hlength : (((r :: rows).length : ℕ) : ℚ) * e12 = rows.length * e12 + e12 := by
      rw [List.length_cons]
      push_cast
      ring
    rw [hsum, hlength]
    by_cases hopen : r.left.remaining > e12
    · have hcons : lotShares (openLotsOf marketId ((r :: rows).map Row.left)) =
          r.left.remaining + lotShares (openLotsOf marketId (rows.map Row.left)) := by
        simp [openLotsOf, lotShares, List.filter_cons_of_pos, hopen]
      have := e12_pos
      rw [hcons]
      exact ⟨by linarith, by linarith⟩
    · have hskip : lotShares (openLotsOf marketId ((r :: rows).map Row.left)) =
          lotShares (openLotsOf marketId (rows.map Row.left)) := by
        simp [openLotsOf, lotShares, List.filter_cons_of_neg, hopen]
      have hdust := not_lt.1 hopen
      rw [hskip]
      exact ⟨by linarith, by linarith⟩

/-- What comes out for the trades of one market: nothing is lost but dust, a sale closes what it can,
lots are closed in the order in which they were opened, and the profit is that of the closed
lots. -/
structure FifoExact (marketId : String) (parsed : List ParsedTrade) (result : FifoResult) :
    Prop where
  conserves :
    lotShares result.closedLots + lotShares result.openLots ≤ bought parsed ∧
      bought parsed ≤ lotShares result.closedLots + lotShares result.openLots +
        (purchases parsed).length * e12
  sells : ∀ before t after, parsed = before ++ t :: after → t.side = .sell →
    let prev := lotShares (process marketId before).closedLots
    let next := lotShares (process marketId (before ++ [t])).closedLots
    let held := bought before - prev
    min (t.size - e12) (held - (purchases before).length * e12) ≤ next - prev ∧
      next - prev ≤ min t.size held
  grows : ∀ before after, parsed = before ++ after →
    (process marketId before).closedLots <+: result.closedLots
  fifo : ∃ rows : List Row, rows.map Row.buy = purchases parsed ∧
    (rows.map Row.lots).flatten = result.closedLots ∧
    (∀ r ∈ rows, lotShares r.lots ≤ r.buy.size ∧ ∀ lot ∈ r.lots, Closes r.buy lot) ∧
    rows.Pairwise fun r r' => r'.lots ≠ [] → r.buy.size - lotShares r.lots < e12
  total : result.totalRealizedPnl = (result.closedLots.map profit).sum

namespace Keeps

variable {done rest : List Row} {buys : List ParsedTrade} {s : FifoState}

/-- A lot is closed after the ones before it are exhausted. -/
lemma pairwise (h : Keeps done rest buys s) :
    (done ++ rest).Pairwise fun r r' => r'.lots ≠ [] → r.buy.size - lotShares r.lots < e12 := by
  refine List.pairwise_append.2 ⟨?_, ?_, ?_⟩
  · exact List.pairwise_of_forall_mem_list fun r hr _ _ _ => (h.done_left r hr).2
  · cases rest with
    | nil => exact List.Pairwise.nil
    | cons r rest =>
      refine List.pairwise_cons.2 ⟨fun r' hr' hne => absurd (h.fresh r' hr') hne, ?_⟩
      exact List.pairwise_of_forall_mem_list fun _ _ r' hr' hne => absurd (h.fresh r' hr') hne
  · exact fun r hr _ _ _ => (h.done_left r hr).2

end Keeps

lemma computeFifoPnl_lots (trades : List RawTrade) :
    (computeFifoPnl marketId trades).closedLots = (process marketId (parsedTrades trades)).closedLots ∧
      (computeFifoPnl marketId trades).openLots =
        openLotsOf marketId (process marketId (parsedTrades trades)).buyQueue ∧
      (computeFifoPnl marketId trades).totalRealizedPnl =
        (process marketId (parsedTrades trades)).totalRealized := by
  unfold computeFifoPnl
  split
  case isTrue h =>
    subst h
    exact ⟨rfl, rfl, rfl⟩
  case isFalse => exact ⟨rfl, rfl, rfl⟩

end Run

/-- `compute_fifo_pnl` is exact, up to the dust, for every list of trades. -/
theorem computeFifoPnl_exact (marketId : String) (trades : List RawTrade) :
    FifoExact marketId (parsedTrades trades) (computeFifoPnl marketId trades) := by
  have horder := inOrder_parsedTrades trades
  obtain ⟨done, rest, h⟩ := process_keeps marketId horder
  obtain ⟨hclosed, hopen, htotal⟩ := computeFifoPnl_lots marketId trades
  constructor
  case conserves =>
    have hheld := h.held_eq
    obtain ⟨hlow, hhigh⟩ := lotShares_openLotsOf marketId fun r hr =>
      (h.rest_left r hr).le
    have hdone := h.leftShares_done_le
    have hdone' := leftShares_nonneg fun r hr => (h.done_left r hr).1
    rw [leftShares_append, ← bought_eq] at hheld
    rw [hclosed, hopen, h.queue, h.length_buys]
    push_cast
    exact ⟨by linarith, by linarith⟩
  case sells =>
    intro before t after hparsed hside
    have hbefore : InOrder ((before ++ [t]) ++ after) := by
      rwa [List.append_assoc, List.singleton_append, ← hparsed]
    exact process_sell marketId hbefore.of_append hside
  case grows =>
    intro before after hparsed
    rw [hclosed, hparsed]
    exact closedLots_prefix_process marketId before after
  case fifo =>
    refine ⟨done ++ rest, h.buys, by rw [hclosed, h.closed], fun r hr => ?_, h.pairwise⟩
    exact ⟨sub_nonneg.1 (h.left_nonneg r hr), h.closes r hr⟩
  case total => rw [htotal, hclosed, h.total]

end Evosport.Utils
