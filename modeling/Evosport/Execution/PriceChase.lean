/-
Chasing the price of an order (`services/price_chaser.py`).

An order that is not filled is placed again, for what is left of it, at a price that gives in a
little more each time; the last attempt asks for another type of order.  What the venue makes of an
attempt is input: it may fill all, some or nothing, say what it likes, or raise.

Whatever it does, the prices only ever give in, and never by more than the caps allow up to the
rounding to four decimals (`prices_execute`).  A venue that fills no more than it is asked for never
fills more than the order in total, and success is reported exactly when something was filled and no
more than a hundredth of a share is missing (`fills_execute`).
-/
import Evosport.Data.Projection
import Evosport.Execution.LiveOrder
import Evosport.FillSimulator.CounterfactualReplay
import Mathlib.Algebra.Order.Group.MinMax

namespace Evosport.Execution.PriceChase

open Backtest
open Evosport.Data (round6)
open Evosport.FillSimulator (round4 FourDecimals round4_of_fourDecimals)

/-- `PriceChaseConfig` with its defaults: how often to retry, how far to move at each retry and in
all, the type of the last order, and the slippage that is allowed. -/
structure PriceChaseConfig where
  maxRetries : ℕ := 5
  priceIncrementPerRetry : ℚ := 5 / 1000
  maxTotalChase : ℚ := 2 / 100
  finalRetryOrderType : OrderType := .gtd
  finalRetryGtdSeconds : ℕ := 61
  maxSlippagePercent : ℚ := 2
  chaseOnFirstRetry : Bool := true

/-! ## The price of an attempt -/

/-- The range of valid prices -/
def clampPrice (price : ℚ) : ℚ := max (1 / 100) (min (99 / 100) price)

namespace PriceChaseConfig

variable (cfg : PriceChaseConfig)

/-- The final attempt switches the type. -/
def orderType (attempt : ℕ) : OrderType :=
  if cfg.maxRetries ≤ attempt then cfg.finalRetryOrderType else .gtc

/-- How many increments an attempt applies -/
def chaseSteps (attempt : ℕ) : ℕ := if cfg.chaseOnFirstRetry then attempt else attempt - 1

/-- How far the price may be moved at an attempt: by the steps of the chase, by the total allowance
and by the slippage in percent, whichever is the least. -/
def adjustment (originalPrice : ℚ) (attempt : ℕ) : ℚ :=
  min (min (cfg.chaseSteps attempt * cfg.priceIncrementPerRetry) cfg.maxTotalChase)
    (originalPrice * (cfg.maxSlippagePercent / 100))

/-- The adjustment in the right direction -/
def target (originalPrice : ℚ) (side : Side) (attempt : ℕ) : ℚ :=
  match side with
  | .buy => originalPrice + cfg.adjustment originalPrice attempt
  | .sell => originalPrice - cfg.adjustment originalPrice attempt

/-- `calculate_chase_price`; the first attempt is not rounded. -/
def calculateChasePrice (originalPrice : ℚ) (side : Side) (attempt : ℕ) : ℚ × OrderType :=
  if attempt = 0 then (clampPrice originalPrice, cfg.orderType attempt)
  else (round4 (clampPrice (cfg.target originalPrice side attempt)), cfg.orderType attempt)

end PriceChaseConfig

/-! ## The attempts -/

/-- What `place_order_fn` is called with -/
structure Request where
  price : ℚ
  size : ℚ
  orderType : OrderType
  gtdSeconds : Option ℕ
  deriving DecidableEq

/-- What it returns, key by key; an order's id may be given as none. -/
structure Reply where
  status : Option String
  filledSize : Option ℚ
  orderId : Option (Option String)
  deriving DecidableEq

/-- How an attempt ended. -/
inductive Outcome where
  | filled
  | partlyFilled
  | timeout
  | failed
  deriving DecidableEq

/-- `RetryAttempt`: what is kept of one attempt, its price before and after the adjustment, how it
ended, and what was filled. -/
structure RetryAttempt where
  attemptNumber : ℕ
  originalPrice : ℚ
  adjustedPrice : ℚ
  priceAdjustment : ℚ
  orderType : OrderType
  result : Outcome
  fillSize : ℚ
  deriving DecidableEq

/-- The state of the loop, with the request of each attempt beside its record -/
structure Chase where
  remainingSize : ℚ
  totalFilled : ℚ := 0
  attempts : List (Request × RetryAttempt) := []
  lastOrderId : Option String := none
  deriving DecidableEq

/-- What `execute_with_chase` returns, and what it writes to the log besides -/
structure ChaseResult where
  success : Bool
  finalPrice : ℚ
  totalFilled : ℚ
  attempts : List (Request × RetryAttempt)
  totalPriceAdjustment : ℚ
  orderId : Option String
  deriving DecidableEq

/-- `DUST_THRESHOLD` -/
def dustThreshold : ℚ := 1 / 100

/-- How an attempt is classified -/
def outcomeOf (status : String) (fillSize remainingSize : ℚ) : Outcome :=
  if status = "filled" ∨ 0 < fillSize ∧ remainingSize ≤ fillSize then .filled
  else if 0 < fillSize then .partlyFilled
  else if status = "timeout" ∨ status = "expired" then .timeout
  else .failed

section Execute

variable (cfg : PriceChaseConfig) (venue : ℕ → Request → Option Reply) (side : Side) (price : ℚ)

/-- The request of an attempt -/
def Chase.request (c : Chase) (attempt : ℕ) : Request :=
  let chased := cfg.calculateChasePrice price side attempt
  { price := chased.1
    size := c.remainingSize
    orderType := chased.2
    gtdSeconds := if chased.2 = .gtd then some cfg.finalRetryGtdSeconds else none }

/-- What the venue fills of an attempt; a call that raises fills nothing. -/
def fillOf (attempt : ℕ) (request : Request) : ℚ :=
  ((venue attempt request).bind Reply.filledSize).getD 0

/-- One attempt, and whether it is the last: what is left may be dust, or the venue may say that
the order is filled. -/
def Chase.attempt (c : Chase) (attempt : ℕ) : Chase × Bool :=
  let request := c.request cfg side price attempt
  let reply := venue attempt request
  let fillSize := fillOf venue attempt request
  let outcome := outcomeOf ((reply.bind Reply.status).getD "failed") fillSize c.remainingSize
  let remaining := max (c.remainingSize - fillSize) 0
  let record : RetryAttempt :=
    { attemptNumber := attempt
      originalPrice := price
      adjustedPrice := request.price
      priceAdjustment := round6 (request.price - price)
      orderType := request.orderType
      result := outcome
      fillSize := fillSize }
  ({ remainingSize := if remaining ≤ dustThreshold then 0 else remaining
     totalFilled := c.totalFilled + fillSize
     attempts := c.attempts ++ [(request, record)]
     lastOrderId := (reply.bind Reply.orderId).getD c.lastOrderId },
    remaining ≤ dustThreshold ∨ outcome = .filled ∨ cfg.maxRetries ≤ attempt)

/-- The attempts that are left, from a number on -/
def Chase.loop : ℕ → ℕ → Chase → Chase
  | 0, _, c => c
  | left + 1, attempt, c =>
    let next := c.attempt cfg venue side price attempt
    if next.2 then next.1 else Chase.loop left (attempt + 1) next.1

/-- `execute_with_chase` -/
def execute (size : ℚ) : ChaseResult :=
  let c := Chase.loop cfg venue side price (cfg.maxRetries + 1) 0 { remainingSize := size }
  let finalPrice := (c.attempts.getLast?.map fun a => a.2.adjustedPrice).getD price
  { success := 0 < c.totalFilled ∧ c.remainingSize ≤ 0
    finalPrice := finalPrice
    totalFilled := c.totalFilled
    attempts := c.attempts
    totalPriceAdjustment := round6 (finalPrice - price)
    orderId := c.lastOrderId }

end Execute

/-! ## Rounding -/

lemma roundHalfEven_mono {x y : ℚ} (h : x ≤ y) : roundHalfEven x ≤ roundHalfEven y := by
  have hfloor : ⌊x⌋ ≤ ⌊y⌋ := Int.floor_le_floor h
  rcases hfloor.eq_or_lt with heq | hlt
  · -- With the same floor, the one that is further from it is rounded up first.
    unfold roundHalfEven
    simp only [heq]
    split_ifs <;> first | omega | linarith
  · -- a higher floor makes up for the rounding
    have hx : roundHalfEven x ≤ ⌊x⌋ + 1 := by
      unfold roundHalfEven
      simp only
      split_ifs <;> omega
    have hy : ⌊y⌋ ≤ roundHalfEven y := by
      unfold roundHalfEven
      simp only
      split_ifs <;> omega
    omega

lemma abs_roundHalfEven_sub_le (x : ℚ) : |(roundHalfEven x : ℚ) - x| ≤ 1 / 2 := by
  have hlow := Int.floor_le x
  have hhigh := Int.lt_floor_add_one x
  rw [abs_le]
  unfold roundHalfEven
  simp only
  split_ifs <;> push_cast <;> constructor <;> linarith

lemma round4_mono {x y : ℚ} (h : x ≤ y) : round4 x ≤ round4 y := by
  have hround := roundHalfEven_mono (mul_le_mul_of_nonneg_right h (by norm_num : (0 : ℚ) ≤ 10 ^ 4))
  exact div_le_div_of_nonneg_right (by exact_mod_cast hround) (by norm_num)

lemma abs_round4_sub_le (x : ℚ) : |round4 x - x| ≤ 1 / 20000 := by
  have hround := abs_roundHalfEven_sub_le (x * 10 ^ 4)
  have hx : round4 x - x = ((roundHalfEven (x * 10 ^ 4) : ℚ) - x * 10 ^ 4) / 10 ^ 4 := by
    rw [round4]
    ring
  rw [hx, abs_div, abs_of_pos (by norm_num : (0 : ℚ) < 10 ^ 4), div_le_iff₀ (by norm_num)]
  linarith

/-! ## The prices give in, within the caps -/

/-- From one price to another the order gives in, or stays. -/
def Concedes (side : Side) (p q : ℚ) : Prop :=
  match side with
  | .buy => p ≤ q
  | .sell => q ≤ p

/-- The caps and increments are no negative numbers. -/
structure PriceChaseConfig.Sound (cfg : PriceChaseConfig) : Prop where
  increment : 0 ≤ cfg.priceIncrementPerRetry
  total : 0 ≤ cfg.maxTotalChase
  slippage : 0 ≤ cfg.maxSlippagePercent

/-- The most that a chase may give in, by the caps -/
def PriceChaseConfig.cap (cfg : PriceChaseConfig) (price : ℚ) : ℚ :=
  min cfg.maxTotalChase (price * (cfg.maxSlippagePercent / 100))

lemma clampPrice_mono {p q : ℚ} (h : p ≤ q) : clampPrice p ≤ clampPrice q :=
  max_le_max le_rfl (min_le_min le_rfl h)

lemma le_clampPrice (p : ℚ) : 1 / 100 ≤ clampPrice p := le_max_left _ _

lemma clampPrice_le (p : ℚ) : clampPrice p ≤ 99 / 100 := max_le (by norm_num) (min_le_left _ _)

/-- Clamping brings prices no further apart. -/
lemma abs_clampPrice_sub_le (p q : ℚ) : |clampPrice p - clampPrice q| ≤ |p - q| := by
  have hmin : |min (99 / 100) p - min (99 / 100) q| ≤ |p - q| := by
    have hle := abs_min_sub_min_le_max (99 / 100) p (99 / 100) q
    rwa [sub_self, abs_zero, max_eq_right (abs_nonneg (p - q))] at hle
  have hmax := abs_max_sub_max_le_max (1 / 100) (min (99 / 100) p) (1 / 100) (min (99 / 100) q)
  rw [sub_self, abs_zero,
    max_eq_right (abs_nonneg (min (99 / 100) p - min (99 / 100) q))] at hmax
  exact hmax.trans hmin

lemma fourDecimals_clampPrice {p : ℚ} (h : FourDecimals p) : FourDecimals (clampPrice p) := by
  unfold clampPrice
  rcases max_choice (1 / 100) (min (99 / 100) p) with hmax | hmax <;> rw [hmax]
  · exact ⟨100, by norm_num⟩
  · rcases min_choice (99 / 100) p with hmin | hmin <;> rw [hmin]
    · exact ⟨9900, by norm_num⟩
    · exact h

section Prices

variable {cfg : PriceChaseConfig} {price : ℚ} {side : Side}

lemma adjustment_nonneg (hcfg : cfg.Sound) (hprice : 0 ≤ price) (attempt : ℕ) :
    0 ≤ cfg.adjustment price attempt := by
  have hsteps : 0 ≤ (cfg.chaseSteps attempt : ℚ) * cfg.priceIncrementPerRetry :=
    mul_nonneg (Nat.cast_nonneg _) hcfg.increment
  exact le_min (le_min hsteps hcfg.total)
    (mul_nonneg hprice (div_nonneg hcfg.slippage (by norm_num)))

lemma adjustment_le_cap (price : ℚ) (attempt : ℕ) :
    cfg.adjustment price attempt ≤ cfg.cap price :=
  min_le_min (min_le_right _ _) le_rfl

lemma adjustment_mono (hcfg : cfg.Sound) (price : ℚ) {k l : ℕ} (h : k ≤ l) :
    cfg.adjustment price k ≤ cfg.adjustment price l := by
  have hsteps : cfg.chaseSteps k ≤ cfg.chaseSteps l := by
    unfold PriceChaseConfig.chaseSteps
    split_ifs <;> omega
  refine min_le_min (min_le_min ?_ le_rfl) le_rfl
  exact mul_le_mul_of_nonneg_right (by exact_mod_cast hsteps) hcfg.increment

/-- The chase starts at the original price. -/
lemma target_zero (hcfg : cfg.Sound) (hprice : 0 ≤ price) (side : Side) :
    cfg.target price side 0 = price := by
  have hsteps : cfg.chaseSteps 0 = 0 := by simp [PriceChaseConfig.chaseSteps]
  have hzero : cfg.adjustment price 0 = 0 := by
    refine le_antisymm ?_ (adjustment_nonneg hcfg hprice 0)
    exact (min_le_left _ _).trans ((min_le_left _ _).trans (by simp [hsteps]))
  cases side <;> simp [PriceChaseConfig.target, hzero]

lemma target_concedes (hcfg : cfg.Sound) (price : ℚ) (side : Side) {k l : ℕ} (h : k ≤ l) :
    Concedes side (clampPrice (cfg.target price side k))
      (clampPrice (cfg.target price side l)) := by
  have hadjustment := adjustment_mono hcfg price h
  cases side with
  | buy => exact clampPrice_mono (add_le_add_right hadjustment _)
  | sell => exact clampPrice_mono (sub_le_sub_left hadjustment _)

lemma abs_target_sub_le (hcfg : cfg.Sound) (hprice : 0 ≤ price) (side : Side) (attempt : ℕ) :
    |cfg.target price side attempt - price| ≤ cfg.cap price := by
  have hadjustment := adjustment_nonneg hcfg hprice attempt
  have hcap := @adjustment_le_cap cfg price attempt
  cases side with
  | buy =>
    rw [PriceChaseConfig.target, add_sub_cancel_left, abs_of_nonneg hadjustment]
    exact hcap
  | sell =>
    rw [PriceChaseConfig.target, sub_sub_cancel_left, abs_neg, abs_of_nonneg hadjustment]
    exact hcap

/-- After the first attempt, the price is the clamped target, rounded. -/
lemma calculateChasePrice_of_pos (price : ℚ) (side : Side) {attempt : ℕ} (h : 0 < attempt) :
    (cfg.calculateChasePrice price side attempt).1 =
      round4 (clampPrice (cfg.target price side attempt)) := by
  rw [PriceChaseConfig.calculateChasePrice, if_neg (Nat.pos_iff_ne_zero.1 h)]

/-- The first attempt is not rounded. -/
lemma calculateChasePrice_zero (price : ℚ) (side : Side) :
    (cfg.calculateChasePrice price side 0).1 = clampPrice price := by
  rw [PriceChaseConfig.calculateChasePrice, if_pos rfl]

lemma abs_calculateChasePrice_sub_target_le (hcfg : cfg.Sound) (hprice : 0 ≤ price) (side : Side)
    (attempt : ℕ) :
    |(cfg.calculateChasePrice price side attempt).1 -
        clampPrice (cfg.target price side attempt)| ≤ 1 / 20000 := by
  rcases Nat.eq_zero_or_pos attempt with rfl | hpos
  · rw [calculateChasePrice_zero, target_zero hcfg hprice, sub_self, abs_zero]
    norm_num
  · rw [calculateChasePrice_of_pos price side hpos]
    exact abs_round4_sub_le _

lemma round4_concedes {p q : ℚ} (h : Concedes side p q) : Concedes side (round4 p) (round4 q) := by
  cases side with
  | buy => exact round4_mono h
  | sell => exact round4_mono h

/-- Clamping and rounding keep the direction. -/
lemma calculateChasePrice_concedes (hcfg : cfg.Sound) (price : ℚ) (side : Side) {k l : ℕ}
    (hk : 0 < k) (h : k ≤ l) :
    Concedes side (cfg.calculateChasePrice price side k).1
      (cfg.calculateChasePrice price side l).1 := by
  rw [calculateChasePrice_of_pos price side hk,
    calculateChasePrice_of_pos price side (lt_of_lt_of_le hk h)]
  exact round4_concedes (target_concedes hcfg price side h)

/-- A price with four decimals is rounded to itself, and then the first attempt fits in. -/
lemma calculateChasePrice_concedes_first (hcfg : cfg.Sound) (hprice : 0 ≤ price)
    (hdecimals : FourDecimals price) (side : Side) {l : ℕ} (h : 0 < l) :
    Concedes side (clampPrice price) (cfg.calculateChasePrice price side l).1 := by
  have hconcedes := round4_concedes (target_concedes hcfg price side (Nat.zero_le l))
  rw [target_zero hcfg hprice, round4_of_fourDecimals (fourDecimals_clampPrice hdecimals)]
    at hconcedes
  rw [calculateChasePrice_of_pos price side h]
  exact hconcedes

/-- No attempt is further away from the original price than the caps allow, up to rounding. -/
lemma abs_calculateChasePrice_sub_le (hcfg : cfg.Sound) (hprice : 0 ≤ price) (side : Side)
    (attempt : ℕ) :
    |(cfg.calculateChasePrice price side attempt).1 - clampPrice price| ≤
      cfg.cap price + 1 / 20000 := by
  have hround := abs_calculateChasePrice_sub_target_le hcfg hprice side attempt
  have hclamp := (abs_clampPrice_sub_le (cfg.target price side attempt) price).trans
    (abs_target_sub_le hcfg hprice side attempt)
  calc |(cfg.calculateChasePrice price side attempt).1 - clampPrice price|
      ≤ |(cfg.calculateChasePrice price side attempt).1 -
            clampPrice (cfg.target price side attempt)| +
          |clampPrice (cfg.target price side attempt) - clampPrice price| := abs_sub_le _ _ _
    _ ≤ cfg.cap price + 1 / 20000 := by linarith

/-- Up to rounding, no attempt takes back what the order has offered at first. -/
lemma calculateChasePrice_gives_in (hcfg : cfg.Sound) (hprice : 0 ≤ price) (side : Side)
    (attempt : ℕ) :
    match side with
    | .buy => clampPrice price - 1 / 20000 ≤ (cfg.calculateChasePrice price side attempt).1
    | .sell => (cfg.calculateChasePrice price side attempt).1 ≤ clampPrice price + 1 / 20000 := by
  have hround := abs_le.1 (abs_calculateChasePrice_sub_target_le hcfg hprice side attempt)
  have hconcedes := target_concedes hcfg price side (Nat.zero_le attempt)
  rw [target_zero hcfg hprice] at hconcedes
  cases side with
  | buy =>
    have hconcedes : clampPrice price ≤ clampPrice (cfg.target price .buy attempt) := hconcedes
    show clampPrice price - 1 / 20000 ≤ _
    linarith [hround.1]
  | sell =>
    have hconcedes : clampPrice (cfg.target price .sell attempt) ≤ clampPrice price := hconcedes
    show _ ≤ clampPrice price + 1 / 20000
    linarith [hround.2]

lemma calculateChasePrice_valid (price : ℚ) (side : Side) (attempt : ℕ) :
    1 / 100 ≤ (cfg.calculateChasePrice price side attempt).1 ∧
      (cfg.calculateChasePrice price side attempt).1 ≤ 99 / 100 := by
  have hlow : round4 (1 / 100) = 1 / 100 := round4_of_fourDecimals ⟨100, by norm_num⟩
  have hhigh : round4 (99 / 100) = 99 / 100 := round4_of_fourDecimals ⟨9900, by norm_num⟩
  rcases Nat.eq_zero_or_pos attempt with rfl | hpos
  · rw [calculateChasePrice_zero]
    exact ⟨le_clampPrice price, clampPrice_le price⟩
  · rw [calculateChasePrice_of_pos price side hpos]
    exact ⟨hlow.symm.le.trans (round4_mono (le_clampPrice _)),
      (round4_mono (clampPrice_le _)).trans hhigh.le⟩

/-! ## The run of the attempts -/

variable {venue : ℕ → Request → Option Reply}

/-- What the loop has done after so many attempts: each asked for its price, and for what was left
of the order by then. -/
structure Tried (cfg : PriceChaseConfig) (side : Side) (price : ℚ) (count : ℕ) (c : Chase) :
    Prop where
  numbers : c.attempts.map (fun a => a.2.attemptNumber) = List.range count
  prices : ∀ a ∈ c.attempts,
    a.1.price = (cfg.calculateChasePrice price side a.2.attemptNumber).1
  filled : c.totalFilled = (c.attempts.map fun a => a.2.fillSize).sum

variable (cfg price side) in
lemma tried_start (size : ℚ) : Tried cfg side price 0 { remainingSize := size } :=
  ⟨rfl, fun _ h => absurd h List.not_mem_nil, rfl⟩

lemma Tried.attempt {count : ℕ} {c : Chase} (h : Tried cfg side price count c) :
    Tried cfg side price (count + 1) (c.attempt cfg venue side price count).1 := by
  constructor
  case numbers =>
    show (c.attempts ++ [_]).map _ = _
    rw [List.map_append, h.numbers, List.range_succ]
    rfl
  case prices =>
    intro a ha
    rcases List.mem_append.1 ha with ha | ha
    · exact h.prices a ha
    · rw [List.mem_singleton.1 ha]
      rfl
  case filled =>
    show c.totalFilled + _ = ((c.attempts ++ [_]).map _).sum
    rw [h.filled, List.map_append, List.sum_append]
    simp

/-- The loop stops after some attempt, at the latest when none is left. -/
lemma tried_loop (venue : ℕ → Request → Option Reply) (left : ℕ) {k : ℕ} {c : Chase}
    (h : Tried cfg side price k c) :
    ∃ n, n ≤ k + left ∧ Tried cfg side price n (Chase.loop cfg venue side price left k c) := by
  induction left generalizing k c with
  | zero => exact ⟨k, le_rfl, h⟩
  | succ left ih =>
    have hnext : Tried cfg side price (k + 1) (c.attempt cfg venue side price k).1 := h.attempt
    rw [Chase.loop]
    split_ifs
    · exact ⟨k + 1, by omega, hnext⟩
    · obtain ⟨n, hn, htried⟩ := ih hnext
      exact ⟨n, by omega, htried⟩

lemma Tried.prices_eq {count : ℕ} {c : Chase} (h : Tried cfg side price count c) :
    c.attempts.map (fun a => a.1.price) =
      (List.range count).map fun k => (cfg.calculateChasePrice price side k).1 := by
  rw [← h.numbers, List.map_map]
  exact List.map_congr_left h.prices

lemma range_map_succ (f : ℕ → ℚ) (n : ℕ) :
    (List.range (n + 1)).map f = f 0 :: (List.range n).map fun k => f (k + 1) := by
  rw [List.range_succ_eq_map, List.map_cons, List.map_map]
  rfl

lemma laterPrices_concede (hcfg : cfg.Sound) (price : ℚ) (side : Side) (n : ℕ) :
    ((List.range n).map fun k => (cfg.calculateChasePrice price side (k + 1)).1).Pairwise
      (Concedes side) := by
  rw [List.pairwise_map]
  refine List.pairwise_lt_range.imp fun {k l} hlt => ?_
  exact calculateChasePrice_concedes hcfg price side (Nat.succ_pos k) (by omega)

/-- Whatever the venue answers, there are at most as many attempts after the first as the
configuration allows.  Every price is a valid one, is never further away from the original price
than both caps allow, and gives in against it, both up to half a unit of the fourth decimal; from
the second attempt on the prices only ever give in further, and from the first one if the original
price has four decimals. -/
theorem prices_execute (hcfg : cfg.Sound) (hprice : 0 ≤ price) (side : Side)
    (venue : ℕ → Request → Option Reply) (size : ℚ) :
    let prices := (execute cfg venue side price size).attempts.map fun a => a.1.price
    prices.length ≤ cfg.maxRetries + 1 ∧ prices.tail.Pairwise (Concedes side) ∧
      (FourDecimals price → prices.Pairwise (Concedes side)) ∧
      ∀ p ∈ prices, 1 / 100 ≤ p ∧ p ≤ 99 / 100 ∧
        |p - clampPrice price| ≤ cfg.cap price + 1 / 20000 ∧
        match side with
        | .buy => clampPrice price - 1 / 20000 ≤ p
        | .sell => p ≤ clampPrice price + 1 / 20000 := by
  intro prices
  obtain ⟨n, hn, htried⟩ := tried_loop venue (cfg.maxRetries + 1) (tried_start cfg price side size)
  have hprices : prices =
      (List.range n).map fun k => (cfg.calculateChasePrice price side k).1 := htried.prices_eq
  rw [hprices]
  refine ⟨?_, ?_, fun hdecimals => ?_, ?_⟩
  · rw [List.length_map, List.length_range]
    omega
  · cases n with
    | zero => exact List.Pairwise.nil
    | succ n =>
      rw [range_map_succ, List.tail_cons]
      exact laterPrices_concede hcfg price side n
  · cases n with
    | zero => exact List.Pairwise.nil
    | succ n =>
      -- The first price is not rounded, which makes no difference to one with four decimals.
      rw [range_map_succ]
      refine List.pairwise_cons.2 ⟨fun p hp => ?_, laterPrices_concede hcfg price side n⟩
      obtain ⟨k, -, rfl⟩ := List.mem_map.1 hp
      rw [calculateChasePrice_zero]
      exact calculateChasePrice_concedes_first hcfg hprice hdecimals side (Nat.succ_pos k)
  · intro p hp
    obtain ⟨k, -, rfl⟩ := List.mem_map.1 hp
    obtain ⟨hlow, hhigh⟩ := @calculateChasePrice_valid cfg price side k
    exact ⟨hlow, hhigh, abs_calculateChasePrice_sub_le hcfg hprice side k,
      calculateChasePrice_gives_in hcfg hprice side k⟩

end Prices

/-! ## What is filled -/

section Fills

variable {cfg : PriceChaseConfig} {price : ℚ} {side : Side} {venue : ℕ → Request → Option Reply}
  {size : ℚ} {c : Chase}

/-- The venue fills no more than it is asked for. -/
def Honest (venue : ℕ → Request → Option Reply) : Prop :=
  ∀ attempt request, 0 ≤ request.size →
    0 ≤ fillOf venue attempt request ∧ fillOf venue attempt request ≤ request.size

/-- The account of the attempts: each asked for what the earlier ones had left. -/
structure Account (size : ℚ) (c : Chase) : Prop where
  filled : c.totalFilled = (c.attempts.map fun a => a.2.fillSize).sum
  nonneg : 0 ≤ c.totalFilled
  le : c.totalFilled ≤ size
  asked : ∀ pre a post, c.attempts = pre ++ a :: post →
    (pre.map fun b => b.2.fillSize).sum + a.1.size = size

/-- What is left when another attempt may follow -/
def Open (size : ℚ) (c : Chase) : Prop := c.remainingSize = size - c.totalFilled

/-- What is left when none follows: dust counts as nothing. -/
def Closed (size : ℚ) (c : Chase) : Prop :=
  c.remainingSize =
    if size - c.totalFilled ≤ dustThreshold then 0 else size - c.totalFilled

variable (cfg price side) in
/-- An attempt is answered. -/
lemma attempt_spec (hvenue : Honest venue) (h : Account size c) (hopen : Open size c) (k : ℕ) :
    Account size (c.attempt cfg venue side price k).1 ∧
      Closed size (c.attempt cfg venue side price k).1 ∧
      ((c.attempt cfg venue side price k).2 = false →
        Open size (c.attempt cfg venue side price k).1) := by
  have hrequest : (c.request cfg side price k).size = size - c.totalFilled := hopen
  obtain ⟨hpos, hle⟩ := hvenue k (c.request cfg side price k) (by
    rw [hrequest]; linarith [h.le])
  rw [hrequest] at hle
  set fill := fillOf venue k (c.request cfg side price k) with hfill
  have hremaining : max (c.remainingSize - fill) 0 = size - (c.totalFilled + fill) := by
    rw [hopen, max_eq_left (by linarith)]
    ring
  obtain ⟨record, hlog, hrecord⟩ : ∃ record : RetryAttempt,
      (c.attempt cfg venue side price k).1.attempts =
        c.attempts ++ [(c.request cfg side price k, record)] ∧ record.fillSize = fill :=
    ⟨_, rfl, rfl⟩
  refine ⟨?_, ?_, ?_⟩
  · -- The attempt asks for what is left, and what it fills comes on top.
    constructor
    case filled =>
      rw [hlog, List.map_append, List.sum_append, ← h.filled]
      simp [hrecord, hfill, Chase.attempt]
    case nonneg => exact add_nonneg h.nonneg hpos
    case le =>
      show c.totalFilled + fill ≤ size
      linarith
    case asked =>
      intro pre a post hsplit
      rw [hlog] at hsplit
      rcases List.eq_nil_or_concat post with rfl | ⟨post', last, rfl⟩
      · -- the attempt itself
        obtain ⟨rfl, hlast⟩ := List.append_inj' hsplit rfl
        obtain rfl := (List.cons.inj hlast).1
        show _ + (c.request cfg side price k).size = size
        rw [← h.filled, hrequest]
        ring
      · -- an earlier one
        rw [List.concat_eq_append, ← List.cons_append, ← List.append_assoc] at hsplit
        exact h.asked pre a post' (List.append_inj' hsplit rfl).1
  · show (if max (c.remainingSize - fill) 0 ≤ dustThreshold then 0
      else max (c.remainingSize - fill) 0) = _
    rw [hremaining]
    rfl
  · intro hlast
    -- Dust would have ended the loop.
    have hdust : ¬max (c.remainingSize - fill) 0 ≤ dustThreshold := by
      intro hle
      have hstop : (c.attempt cfg venue side price k).2 = true := decide_eq_true (.inl hle)
      rw [hlast] at hstop
      cases hstop
    show (if max (c.remainingSize - fill) 0 ≤ dustThreshold then 0
      else max (c.remainingSize - fill) 0) = size - (c.totalFilled + fill)
    rw [if_neg hdust, hremaining]

lemma account_loop (hvenue : Honest venue) (left : ℕ) {k : ℕ} (h : Account size c)
    (hclosed : Closed size c) (hopen : Open size c) :
    Account size (Chase.loop cfg venue side price left k c) ∧
      Closed size (Chase.loop cfg venue side price left k c) := by
  induction left generalizing k c with
  | zero => exact ⟨h, hclosed⟩
  | succ left ih =>
    obtain ⟨hnext, hclosed', hopen'⟩ :=
      attempt_spec cfg price side hvenue h hopen k
    rw [Chase.loop]
    split_ifs with hlast
    · exact ⟨hnext, hclosed'⟩
    · exact ih hnext hclosed' (hopen' (by simpa using hlast))

/-- With a venue that fills no more than it is asked for, every attempt asks for exactly what the
earlier ones have left, no more than the order is ever filled in total, and success is reported
exactly when something was filled and no more than a hundredth of a share is missing. -/
theorem fills_execute (hvenue : Honest venue) (hsize : 0 ≤ size) :
    let result := execute cfg venue side price size
    result.totalFilled = (result.attempts.map fun a => a.2.fillSize).sum ∧
      0 ≤ result.totalFilled ∧ result.totalFilled ≤ size ∧
      (∀ pre a post, result.attempts = pre ++ a :: post →
        (pre.map fun b => b.2.fillSize).sum + a.1.size = size) ∧
      (result.success = true ↔
        0 < result.totalFilled ∧ size - result.totalFilled ≤ dustThreshold) := by
  intro result
  have hstart : Account size { remainingSize := size } :=
    ⟨rfl, le_rfl, hsize, fun pre a post h => by simp at h⟩
  have hopen : Open size { remainingSize := size } := (sub_zero size).symm
  obtain ⟨hfirst, hclosed, hmore⟩ :=
    attempt_spec cfg price side hvenue hstart hopen 0
  obtain ⟨haccount, hclosed⟩ : Account size
      (Chase.loop cfg venue side price (cfg.maxRetries + 1) 0 { remainingSize := size }) ∧
      Closed size
        (Chase.loop cfg venue side price (cfg.maxRetries + 1) 0 { remainingSize := size }) := by
    rw [Chase.loop]
    -- The first attempt is made even for an order of dust; behind it more may follow.
    split_ifs with hlast
    · exact ⟨hfirst, hclosed⟩
    · exact account_loop hvenue _ hfirst hclosed (hmore (by simpa using hlast))
  refine ⟨haccount.filled, haccount.nonneg, haccount.le, haccount.asked, ?_⟩
  show decide _ = true ↔ _
  rw [decide_eq_true_iff]
  refine and_congr_right fun _ => ?_
  rw [hclosed]
  split_ifs with hdust
  · exact iff_of_true le_rfl hdust
  · refine iff_of_false ?_ hdust
    rw [not_le] at hdust ⊢
    exact lt_trans (by norm_num [dustThreshold]) hdust

end Fills

/-! ## A purchase that is filled in parts -/

/-- The venue fills four shares at first, then it raises, then it fills what is asked for. -/
def slowVenue (attempt : ℕ) (request : Request) : Option Reply :=
  match attempt with
  | 0 => some ⟨some "open", some (min 4 request.size), some (some "order-0")⟩
  | 1 => none
  | _ => some ⟨some "filled", some request.size, some (some "order-2")⟩

theorem prices_execute_slowVenue :
    let prices := (execute {} slowVenue .buy (2 / 5) 10).attempts.map fun a => a.1.price
    prices.length ≤ 6 ∧ prices.tail.Pairwise (Concedes .buy) ∧
      (FourDecimals (2 / 5) → prices.Pairwise (Concedes .buy)) ∧
      ∀ p ∈ prices, 1 / 100 ≤ p ∧ p ≤ 99 / 100 ∧
        |p - clampPrice (2 / 5)| ≤ PriceChaseConfig.cap {} (2 / 5) + 1 / 20000 ∧
        clampPrice (2 / 5) - 1 / 20000 ≤ p :=
  prices_execute ⟨by norm_num, by norm_num, by norm_num⟩ (by norm_num) .buy slowVenue 10

theorem fills_execute_slowVenue :
    let result := execute {} slowVenue .buy (2 / 5) 10
    result.totalFilled = (result.attempts.map fun a => a.2.fillSize).sum ∧
      0 ≤ result.totalFilled ∧ result.totalFilled ≤ 10 ∧
      (∀ pre a post, result.attempts = pre ++ a :: post →
        (pre.map fun b => b.2.fillSize).sum + a.1.size = 10) ∧
      (result.success = true ↔
        0 < result.totalFilled ∧ 10 - result.totalFilled ≤ dustThreshold) := by
  refine fills_execute (fun attempt request hsize => ?_) (by norm_num)
  match attempt with
  | 0 => exact ⟨le_min (by norm_num) hsize, min_le_right _ _⟩
  | 1 => exact ⟨le_rfl, hsize⟩
  | _ + 2 => exact ⟨hsize, le_rfl⟩

/-- The third attempt, at the cap of two percent, completes the order. -/
example :
    (execute {} slowVenue .buy (2 / 5) 10).attempts.map (fun a => (a.1.price, a.1.size)) =
      [(2 / 5, 10), (81 / 200, 6), (51 / 125, 6)] := by
  decide +kernel

end Evosport.Execution.PriceChase
