/-
The parallel executor of the legs of a trade (`services/optimization/parallel_executor.py`).

All legs are placed at once, each has a reply of its own, and a reply comes in one of several
shapes.  A leg counts as filled by the status of its order; a size or a price that its reply leaves
out is put in from the request.  If some legs count as filled and some do not, those that do are
closed again.

The cost, the exposure and the closing orders are those of the fills that the replies report if what
is put in makes up for what is passed over (`reportedExactly_iff_accounted`).

Latencies, identifiers for tracking and the time limit are left out.
-/
import Evosport.Backtest.Book
import Evosport.Lib.Fallible

namespace Evosport.Optimization

open Lib Backtest

/-! ## Legs and replies -/

/-- `ExecutionLeg`: one leg of the arbitrage, as it is asked for, with its token and side, its
limit, and its size in dollars. -/
structure ExecutionLeg where
  tokenId : String
  side : Side
  price : ℚ
  sizeUsd : ℚ
  marketQuestion : Option String := none
deriving DecidableEq, Repr

/-- The shares that the dollars of a leg are at its price. -/
def ExecutionLeg.shares (leg : ExecutionLeg) : ℚ := leg.sizeUsd / leg.price

/-- What `_execute_single_leg` reads of an order object. -/
structure OrderObject where
  status : String
  id : Option String := none
  clobOrderId : Option String := none
  filledSize : Option ℚ := none
  averageFillPrice : Option ℚ := none
  errorMessage : Option String := none
deriving DecidableEq, Repr

/-- What it reads of a dictionary; the sizes and prices that are there can be `None`. -/
structure OrderDict where
  success : Option Bool := none
  status : Option String := none
  orderId : Option String := none
  orderID : Option String := none
  fillPrice : Option (Option ℚ) := none
  fillSize : Option (Option ℚ) := none
  error : Option String := none
deriving DecidableEq, Repr

/-- What comes of placing an order: an object with attributes, a dictionary, a value of another
kind, or an exception. -/
inductive Reply where
  | object (order : OrderObject)
  | dict (order : OrderDict)
  | other
  | raised (message : String)
deriving DecidableEq, Repr

/-- The errors of a leg; the last kind is a text that came from outside. -/
inductive LegError where
  | missingTokenId
  | invalidPrice (price : ℚ)
  | priceAboveOne (price : ℚ)
  | invalidSize (sizeUsd : ℚ)
  | text (message : String)
deriving DecidableEq, Repr

/-- `LegResult`: what is recorded of one leg, the price and the size it was filled at where it
succeeded, and its error where it did not. -/
structure LegResult where
  leg : ExecutionLeg
  success : Bool
  orderId : Option String := none
  fillPrice : Option ℚ := none
  fillSize : Option ℚ := none
  error : Option LegError := none
deriving DecidableEq, Repr

/-- `ExecutionStatus`: whether all legs went through, some of them or none. -/
inductive ExecutionStatus where
  | success | partly | failed
deriving DecidableEq, Repr

/-- `ParallelExecutionResult`: what the executor reports of all legs. -/
structure ParallelExecutionResult where
  status : ExecutionStatus
  legs : List LegResult
  successfulLegs : ℕ
  failedLegs : ℕ
  totalCost : ℚ
  exposureRisk : Bool
deriving DecidableEq, Repr

/-- The arithmetic has met a `None`. -/
inductive TypeError where
  | unsupportedOperand
deriving DecidableEq, Repr

/-! ## The executor -/

/-- `value or default`, for numbers -/
def truthyOr (value : Option ℚ) (default : ℚ) : ℚ := (value.filter (· ≠ 0)).getD default

/-- `first or second`, for strings -/
def firstTruthy (first second : Option String) : Option String :=
  (first.filter (· ≠ "")).or second

/-- `_validate_legs`, for one leg -/
def validateLeg (leg : ExecutionLeg) : Option LegError :=
  if leg.tokenId = "" then some .missingTokenId
  else if leg.price ≤ 0 then some (.invalidPrice leg.price)
  else if leg.price > 1 then some (.priceAboveOne leg.price)
  else if leg.sizeUsd ≤ 0 then some (.invalidSize leg.sizeUsd)
  else none

/-- The order counts as filled. -/
def accepted : Reply → Bool
  | .object order => order.status ∈ ["open", "filled", "OPEN", "FILLED"]
  | .dict order => order.success.getD (order.status.any fun s => s ∈ ["open", "filled"])
  | .other => true
  | .raised _ => false

/-- `_execute_single_leg`: the result of a leg by the reply to its order.  A price or a size that
the reply leaves out is taken from the leg, whether or not it was accepted. -/
def executeSingleLeg (leg : ExecutionLeg) (reply : Reply) : LegResult :=
  let success := accepted reply
  match reply with
  | .object order =>
    { leg, success
      orderId := firstTruthy order.id order.clobOrderId
      fillPrice := some (truthyOr order.averageFillPrice leg.price)
      fillSize := some (truthyOr order.filledSize leg.shares)
      error := if success then none else order.errorMessage.map .text }
  | .dict order =>
    { leg, success
      orderId := firstTruthy order.orderId order.orderID
      fillPrice := order.fillPrice.getD (some leg.price)
      fillSize := order.fillSize.getD (some leg.shares)
      error := if success then none else order.error.map .text }
  | .other => { leg, success, fillPrice := some leg.price, fillSize := some leg.shares }
  | .raised message => { leg, success, error := some (.text message) }

/-- `result.fill_price * result.fill_size if result.fill_price else legs[i].size_usd` -/
def legCost (result : LegResult) : Except TypeError ℚ :=
  match result.fillPrice.filter (· ≠ 0), result.fillSize with
  | none, _ => .ok result.leg.sizeUsd
  | some price, some size => .ok (price * size)
  | some _, none => .error .unsupportedOperand

/-- What the loop of `execute` counts: the legs that succeeded and failed, and the cost of the
former. -/
structure Tally where
  successful : ℕ := 0
  failed : ℕ := 0
  totalCost : ℚ := 0
deriving DecidableEq, Repr

/-- The loop of `execute`, for one result -/
def countResult (tally : Tally) (result : LegResult) : Except TypeError Tally := do
  if result.success then
    let cost ← legCost result
    return { tally with successful := tally.successful + 1, totalCost := tally.totalCost + cost }
  else return { tally with failed := tally.failed + 1 }

/-- The legs that reach the placer. -/
def placedLegs (legs : List ExecutionLeg) : List ExecutionLeg :=
  if ∃ leg ∈ legs, validateLeg leg ≠ none then [] else legs

/-- The legs, each with the reply that the placer gives to its call. -/
def answered (placer : ℕ → ExecutionLeg → Reply) (legs : List ExecutionLeg) :
    List (ExecutionLeg × Reply) :=
  legs.mapIdx fun i leg => (leg, placer i leg)

/-- `execute`: the legs are placed at once when all of them are valid, and counted in their order. 
A successful leg without a price or a size makes the count raise. -/
def execute (placer : ℕ → ExecutionLeg → Reply) (legs : List ExecutionLeg) :
    Except TypeError ParallelExecutionResult :=
  if legs = [] then .ok ⟨.failed, [], 0, 0, 0, false⟩
  else if ∃ leg ∈ legs, validateLeg leg ≠ none then
    .ok ⟨.failed, legs.map fun leg => { leg, success := false, error := validateLeg leg }, 0,
      legs.length, 0, false⟩
  else do
    let results := (answered placer legs).map fun call => executeSingleLeg call.1 call.2
    let tally ← results.foldlM countResult {}
    let status :=
      if tally.successful = legs.length then .success
      else if tally.successful = 0 then .failed
      else .partly
    return ⟨status, results, tally.successful, tally.failed, tally.totalCost,
      0 < tally.successful ∧ tally.successful < legs.length⟩

/-- The opposite trade of a leg that counts as filled. -/
def hedgeLeg (filled : LegResult) : Except TypeError ExecutionLeg :=
  match filled.fillSize with
  | none => .error .unsupportedOperand
  | some size =>
    let price := truthyOr filled.fillPrice filled.leg.price
    .ok { tokenId := filled.leg.tokenId, side := filled.leg.side.opposite, price,
          sizeUsd := size * price, marketQuestion := filled.leg.marketQuestion }

/-- What `execute_with_hedge` comes to: the closing orders that reach the placer, and the result. -/
structure HedgedExecution where
  hedgeOrders : List ExecutionLeg := []
  outcome : Except TypeError ParallelExecutionResult

/-- `execute_with_hedge`: where some legs have succeeded and others have not, those that did are
hedged, if that is asked for.  The result is that of the first execution. -/
def executeWithHedge (placer hedgePlacer : ℕ → ExecutionLeg → Reply) (legs : List ExecutionLeg)
    (hedgeOnPartial : Bool) : HedgedExecution :=
  match execute placer legs with
  | .error err => { outcome := .error err }
  | .ok result =>
    if result.exposureRisk ∧ hedgeOnPartial then
      match (result.legs.filter LegResult.success).mapM hedgeLeg with
      | .error err => { outcome := .error err }
      | .ok hedgeLegs =>
        { hedgeOrders := placedLegs hedgeLegs
          outcome := (execute hedgePlacer hedgeLegs).map fun _ => result }
    else { outcome := .ok result }

/-! ## What the replies report -/

/-- The shares that a reply reports as filled. -/
def reportedSize : Reply → ℚ
  | .object order => order.filledSize.getD 0
  | .dict order => (order.fillSize.getD none).getD 0
  | .other => 0
  | .raised _ => 0

/-- The average price that a reply reports. -/
def reportedPrice : Reply → ℚ
  | .object order => order.averageFillPrice.getD 0
  | .dict order => (order.fillPrice.getD none).getD 0
  | .other => 0
  | .raised _ => 0

/-- A leg is filled, at least in part, and another is not filled completely. -/
def Exposed (calls : List (ExecutionLeg × Reply)) : Prop :=
  ∃ i j : Fin calls.length, i ≠ j ∧ 0 < reportedSize calls[i].2 ∧
    reportedSize calls[j].2 < calls[j].1.shares

instance (calls : List (ExecutionLeg × Reply)) : Decidable (Exposed calls) :=
  inferInstanceAs (Decidable (∃ _ _, _))

/-- The legs that are reported as filled, at least in part. -/
def filledCalls (calls : List (ExecutionLeg × Reply)) : List (ExecutionLeg × Reply) :=
  calls.filter fun call => 0 < reportedSize call.2

/-- What an order trades: its token, its side and its shares. -/
def ExecutionLeg.trade (leg : ExecutionLeg) : String × Side × ℚ := (leg.tokenId, leg.side, leg.shares)

/-- The trade that closes what is reported of a leg. -/
def closing (call : ExecutionLeg × Reply) : String × Side × ℚ :=
  (call.1.tokenId, call.1.side.opposite, reportedSize call.2)

/-- The cost, the exposure and the closing orders are those of the reported fills. -/
def ReportedExactly (placer hedgePlacer : ℕ → ExecutionLeg → Reply) (legs : List ExecutionLeg)
    (hedgeOnPartial : Bool) : Prop :=
  let calls := answered placer legs
  (∃ result, execute placer legs = .ok result ∧
    result.totalCost = (calls.map fun call => reportedSize call.2 * reportedPrice call.2).sum ∧
    (result.exposureRisk = true ↔ Exposed calls)) ∧
  ((executeWithHedge placer hedgePlacer legs hedgeOnPartial).hedgeOrders.map ExecutionLeg.trade =
    if Exposed calls ∧ hedgeOnPartial then (filledCalls calls).map closing else [])

/-! ## When the fills are accounted for -/

/-- A dictionary gives `None` for the size beside a price to multiply it with. -/
def sizeUnreadable : Reply → Bool
  | .dict order => order.fillSize = some none ∧ order.fillPrice ∉ [some none, some (some 0)]
  | _ => false

/-- The dollars that stand in for what the reply of an accepted leg leaves out: of an object the
numbers that are zero, of a dictionary those that are not there, and all if its price is zero. -/
def putIn (leg : ExecutionLeg) : Reply → ℚ
  | .object order =>
    let size := order.filledSize.getD 0
    let price := order.averageFillPrice.getD 0
    if size = 0 ∧ price = 0 then leg.sizeUsd
    else if size = 0 then leg.shares * price
    else if price = 0 then size * leg.price
    else 0
  | .dict order =>
    match order.fillPrice, order.fillSize with
    | none, none => leg.sizeUsd
    | none, some size => size.getD 0 * leg.price
    | some price, size =>
      if price.getD 0 = 0 then leg.sizeUsd
      else if size = none then leg.shares * price.getD 0
      else 0
  | .other => leg.sizeUsd
  | .raised _ => 0

/-- The size that an accepted leg is closed with: the one it reports, else the one requested. -/
def sizeTaken (leg : ExecutionLeg) : Reply → Option ℚ
  | .dict order => order.fillSize.getD (some leg.shares)
  | reply => some (if reportedSize reply = 0 then leg.shares else reportedSize reply)

/-- The price that an accepted leg is closed at. -/
def priceTaken (leg : ExecutionLeg) (reply : Reply) : ℚ :=
  if reportedPrice reply = 0 then leg.price else reportedPrice reply

section Condition

variable (calls : List (ExecutionLeg × Reply))

/-- The calls whose orders count as filled. -/
def acceptedCalls : List (ExecutionLeg × Reply) := calls.filter fun call => accepted call.2

/-- The calls whose orders do not. -/
def refusedCalls : List (ExecutionLeg × Reply) := calls.filter fun call => !accepted call.2

/-- Some orders count as filled and some do not. -/
def Mixed : Prop := acceptedCalls calls ≠ [] ∧ refusedCalls calls ≠ []

instance : Decidable (Mixed calls) := inferInstanceAs (Decidable (_ ∧ _))

/-- The status of the orders and the fills that are reported agree: what is put in on the accepted
legs makes up for what the refused ones report, the one sees an exposure where the other does, and
the legs to be closed are those with a fill, at prices that an order can have. -/
structure FillsAccounted (hedgeOnPartial : Bool) : Prop where
  readable : ∀ call ∈ acceptedCalls calls, ¬ sizeUnreadable call.2
  balanced : ((acceptedCalls calls).map fun call => putIn call.1 call.2).sum =
    ((refusedCalls calls).map fun call => reportedSize call.2 * reportedPrice call.2).sum
  exposed : Mixed calls ↔ Exposed calls
  closed : Mixed calls ∧ hedgeOnPartial →
    ((acceptedCalls calls).map fun call =>
        (call.1.tokenId, call.1.side.opposite, sizeTaken call.1 call.2)) =
      ((filledCalls calls).map fun call =>
        (call.1.tokenId, call.1.side.opposite, some (reportedSize call.2))) ∧
    ∀ call ∈ acceptedCalls calls, 0 < priceTaken call.1 call.2 ∧ priceTaken call.1 call.2 ≤ 1

end Condition

/-! ## The count -/

section Count

variable {calls : List (ExecutionLeg × Reply)} {leg : ExecutionLeg} {reply : Reply}

lemma truthyOr_eq (value : Option ℚ) (default : ℚ) :
    truthyOr value default = if value.getD 0 = 0 then default else value.getD 0 := by
  cases value with
  | none => rfl
  | some x =>
    by_cases hx : x = 0
    · rw [truthyOr, Option.filter_some, if_neg (by simpa using hx), Option.getD_some, if_pos hx]
      rfl
    · rw [truthyOr, Option.filter_some, if_pos (by simpa using hx)]
      exact (if_neg hx).symm

lemma truthyOr_ne_zero (value : Option ℚ) {default : ℚ} (h : default ≠ 0) :
    truthyOr value default ≠ 0 := by
  rw [truthyOr_eq]
  split
  · exact h
  · assumption

/-- A leg with a price and a size is counted for their product. -/
lemma legCost_of_some {result : LegResult} {price size : ℚ} (hprice : price ≠ 0)
    (h : result.fillPrice = some price) (h' : result.fillSize = some size) :
    legCost result = .ok (price * size) := by
  rw [legCost, h, h', Option.filter_some, if_pos (decide_eq_true hprice)]

/-- A leg without a price is counted for the dollars requested. -/
lemma legCost_of_falsy {result : LegResult} (h : result.fillPrice.getD 0 = 0) :
    legCost result = .ok result.leg.sizeUsd := by
  have hnone : result.fillPrice.filter (· ≠ 0) = none := by
    cases hprice : result.fillPrice with
    | none => rfl
    | some price =>
      rw [hprice] at h
      simpa using h
  rw [legCost, hnone]

@[simp] lemma success_executeSingleLeg (leg : ExecutionLeg) (reply : Reply) :
    (executeSingleLeg leg reply).success = accepted reply := by
  cases reply <;> rfl

@[simp] lemma leg_executeSingleLeg (leg : ExecutionLeg) (reply : Reply) :
    (executeSingleLeg leg reply).leg = leg := by
  cases reply <;> rfl

/-- Beside a size that is `None`, a price stops the count. -/
lemma legCost_of_unreadable (hprice : 0 < leg.price) (h : sizeUnreadable reply = true) :
    legCost (executeSingleLeg leg reply) = .error .unsupportedOperand := by
  cases reply with
  | dict order =>
    obtain ⟨success, status, orderId, orderID, fillPrice, fillSize, error⟩ := order
    obtain ⟨rfl, hgiven⟩ : fillSize = some none ∧ fillPrice ∉ [some none, some (some 0)] :=
      of_decide_eq_true h
    have hsome : ∃ price ≠ 0, fillPrice.getD (some leg.price) = some price := by
      rcases fillPrice with _ | _ | price
      · exact ⟨leg.price, hprice.ne', rfl⟩
      · exact absurd List.mem_cons_self hgiven
      · exact ⟨price, by rintro rfl; exact hgiven (by simp), rfl⟩
    obtain ⟨price, hne, hfound⟩ := hsome
    rw [legCost, executeSingleLeg, hfound, Option.filter_some, if_pos (decide_eq_true hne)]
    rfl
  | object order => cases h
  | other => cases h
  | raised message => cases h

/-- What an accepted leg is counted for. -/
lemma legCost_of_readable (hprice : 0 < leg.price) (haccepted : accepted reply = true)
    (h : ¬ sizeUnreadable reply = true) : legCost (executeSingleLeg leg reply) =
      .ok (reportedSize reply * reportedPrice reply + putIn leg reply) := by
  have hwhole : leg.price * leg.shares = leg.sizeUsd := mul_div_cancel₀ _ hprice.ne'
  cases reply with
  | object order =>
    rw [legCost_of_some (truthyOr_ne_zero _ hprice.ne') rfl rfl, truthyOr_eq, truthyOr_eq, putIn,
      reportedSize, reportedPrice]
    congr 1
    by_cases hp : order.averageFillPrice.getD 0 = 0
    · by_cases hs : order.filledSize.getD 0 = 0
      · simp [hp, hs, hwhole]
      · simp [hp, hs, mul_comm]
    · by_cases hs : order.filledSize.getD 0 = 0
      · simp [hp, hs, mul_comm]
      · simp [hp, hs, mul_comm]
  | dict order =>
    obtain ⟨_, _, _, _, fillPrice, fillSize, _⟩ := order
    rw [sizeUnreadable, decide_eq_true_eq, not_and] at h
    rcases fillPrice with _ | price
    · -- the price is that of the leg
      rcases fillSize with _ | _ | size
      · rw [legCost_of_some hprice.ne' rfl rfl, hwhole, putIn, reportedSize]
        simp
      · exact absurd (h rfl) (by simp)
      · rw [legCost_of_some hprice.ne' rfl rfl, putIn, reportedSize, reportedPrice]
        simp [mul_comm]
    · by_cases hzero : price.getD 0 = 0
      · rw [legCost_of_falsy hzero, putIn, reportedPrice]
        simp [hzero]
      · obtain ⟨price, rfl⟩ : ∃ x, price = some x :=
          Option.ne_none_iff_exists'.1 (by rintro rfl; exact hzero rfl)
        have hne : price ≠ 0 := hzero
        rcases fillSize with _ | _ | size
        · rw [legCost_of_some hne rfl rfl, putIn, reportedSize]
          simp [hne, mul_comm]
        · exact absurd (h rfl) (by simp [hne])
        · rw [legCost_of_some hne rfl rfl, putIn, reportedSize, reportedPrice]
          simp [hne, mul_comm]
  | other =>
    rw [legCost_of_some hprice.ne' rfl rfl, hwhole, putIn, reportedSize, zero_mul, zero_add]
  | raised message => cases haccepted

lemma acceptedCalls_cons (call : ExecutionLeg × Reply) (calls : List (ExecutionLeg × Reply)) :
    acceptedCalls (call :: calls) =
      if accepted call.2 then call :: acceptedCalls calls else acceptedCalls calls :=
  List.filter_cons

lemma refusedCalls_cons (call : ExecutionLeg × Reply) (calls : List (ExecutionLeg × Reply)) :
    refusedCalls (call :: calls) =
      if accepted call.2 then refusedCalls calls else call :: refusedCalls calls := by
  rw [refusedCalls, List.filter_cons]
  cases accepted call.2 <;> rfl

/-- One step of the loop. -/
lemma countResult_accepted (hprice : 0 < leg.price) (haccepted : accepted reply = true)
    (hreadable : ¬ sizeUnreadable reply = true) (tally : Tally) :
    countResult tally (executeSingleLeg leg reply) =
      .ok ⟨tally.successful + 1, tally.failed,
        tally.totalCost + (reportedSize reply * reportedPrice reply + putIn leg reply)⟩ := by
  rw [countResult, success_executeSingleLeg, if_pos haccepted,
    legCost_of_readable hprice haccepted hreadable]
  rfl

lemma countResult_refused (hrefused : accepted reply = false) (tally : Tally) :
    countResult tally (executeSingleLeg leg reply) =
      .ok ⟨tally.successful, tally.failed + 1, tally.totalCost⟩ := by
  rw [countResult, success_executeSingleLeg, hrefused]
  rfl

lemma countResult_unreadable (hprice : 0 < leg.price) (haccepted : accepted reply = true)
    (hunreadable : sizeUnreadable reply = true) (tally : Tally) :
    countResult tally (executeSingleLeg leg reply) = .error .unsupportedOperand := by
  rw [countResult, success_executeSingleLeg, if_pos haccepted,
    legCost_of_unreadable hprice hunreadable]
  rfl

/-- The loop counts the accepted legs and what each is counted for. -/
lemma foldlM_countResult (hprice : ∀ call ∈ calls, 0 < call.1.price)
    (hreadable : ∀ call ∈ acceptedCalls calls, ¬ sizeUnreadable call.2 = true) (tally : Tally) :
    (calls.map fun call => executeSingleLeg call.1 call.2).foldlM countResult tally =
      .ok ⟨tally.successful + (acceptedCalls calls).length,
        tally.failed + (refusedCalls calls).length,
        tally.totalCost + ((acceptedCalls calls).map fun call =>
          reportedSize call.2 * reportedPrice call.2 + putIn call.1 call.2).sum⟩ := by
  induction calls generalizing tally with
  | nil => simp [acceptedCalls, refusedCalls, pure, Except.pure]
  | cons call calls ih =>
    obtain ⟨hhead, htail⟩ := List.forall_mem_cons.1 hprice
    rw [acceptedCalls_cons] at hreadable ⊢
    rw [refusedCalls_cons, List.map_cons, List.foldlM_cons]
    cases haccepted : accepted call.2 with
    | true =>
      rw [haccepted, if_pos rfl] at hreadable
      obtain ⟨hfirst, hrest⟩ := List.forall_mem_cons.1 hreadable
      rw [countResult_accepted hhead haccepted hfirst, if_pos rfl, if_pos rfl, List.length_cons,
        List.map_cons, List.sum_cons]
      refine (ih htail hrest _).trans ?_
      rw [Except.ok.injEq, Tally.mk.injEq]
      exact ⟨by dsimp only; omega, rfl, add_assoc _ _ _⟩
    | false =>
      rw [haccepted, if_neg Bool.false_ne_true] at hreadable
      rw [countResult_refused haccepted, if_neg Bool.false_ne_true, if_neg Bool.false_ne_true,
        List.length_cons]
      refine (ih htail hreadable _).trans ?_
      rw [Except.ok.injEq, Tally.mk.injEq]
      exact ⟨rfl, by dsimp only; omega, rfl⟩

/-- A size that cannot be read stops the loop. -/
lemma foldlM_countResult_unreadable (hprice : ∀ call ∈ calls, 0 < call.1.price)
    (hunreadable : ∃ call ∈ acceptedCalls calls, sizeUnreadable call.2 = true) (tally : Tally) :
    (calls.map fun call => executeSingleLeg call.1 call.2).foldlM countResult tally =
      .error .unsupportedOperand := by
  induction calls generalizing tally with
  | nil =>
    obtain ⟨_, hmem, _⟩ := hunreadable
    cases hmem
  | cons call calls ih =>
    obtain ⟨hhead, htail⟩ := List.forall_mem_cons.1 hprice
    rw [acceptedCalls_cons] at hunreadable
    rw [List.map_cons, List.foldlM_cons]
    cases haccepted : accepted call.2 with
    | true =>
      by_cases hfirst : sizeUnreadable call.2 = true
      · rw [countResult_unreadable hhead haccepted hfirst]
        rfl
      · rw [countResult_accepted hhead haccepted hfirst]
        rw [haccepted, if_pos rfl] at hunreadable
        obtain ⟨other, hmem, hother⟩ := hunreadable
        refine ih htail ⟨other, (List.mem_cons.1 hmem).resolve_left ?_, hother⟩ _
        rintro rfl
        exact hfirst hother
    | false =>
      rw [haccepted, if_neg Bool.false_ne_true] at hunreadable
      rw [countResult_refused haccepted]
      exact ih htail hunreadable _

/-- What is reported of all legs is reported of the accepted and of the refused ones. -/
lemma sum_reported (calls : List (ExecutionLeg × Reply)) :
    (calls.map fun call => reportedSize call.2 * reportedPrice call.2).sum =
      ((acceptedCalls calls).map fun call => reportedSize call.2 * reportedPrice call.2).sum +
        ((refusedCalls calls).map fun call => reportedSize call.2 * reportedPrice call.2).sum := by
  rw [← List.sum_append, ← List.map_append]
  exact ((List.filter_append_perm _ _).map _).sum_eq.symm

/-- The count is what is reported exactly if what is put in makes up for what is passed over. -/
lemma counted_iff_balanced (calls : List (ExecutionLeg × Reply)) :
    ((acceptedCalls calls).map fun call =>
        reportedSize call.2 * reportedPrice call.2 + putIn call.1 call.2).sum =
      (calls.map fun call => reportedSize call.2 * reportedPrice call.2).sum ↔
    ((acceptedCalls calls).map fun call => putIn call.1 call.2).sum =
      ((refusedCalls calls).map fun call => reportedSize call.2 * reportedPrice call.2).sum := by
  rw [sum_reported, List.sum_map_add, add_right_inj]

/-- Some of the calls are accepted and some are not, counted. -/
lemma mixed_iff : Mixed calls ↔
    0 < (acceptedCalls calls).length ∧ (acceptedCalls calls).length < calls.length := by
  have hlength : calls.length = (acceptedCalls calls).length + (refusedCalls calls).length :=
    List.length_eq_length_filter_add _
  rw [Mixed, ← List.length_pos_iff, ← List.length_pos_iff]
  omega

end Count

/-! ## The closing orders -/

section Closing

variable {calls : List (ExecutionLeg × Reply)} {leg : ExecutionLeg} {reply : Reply}

/-- What the closing orders come to. -/
def hedgeOrdersOf (results : List LegResult) : List ExecutionLeg :=
  match (results.filter LegResult.success).mapM hedgeLeg with
  | .error _ => []
  | .ok hedgeLegs => placedLegs hedgeLegs

lemma validateLeg_eq_none : validateLeg leg = none ↔
    leg.tokenId ≠ "" ∧ 0 < leg.price ∧ leg.price ≤ 1 ∧ 0 < leg.sizeUsd := by
  rw [validateLeg]
  split_ifs with htoken hprice hone hsize
  · simp [htoken]
  · simp [hprice]
  · simp [hone]
  · simp [hsize]
  · simp only [not_le, gt_iff_lt, not_lt] at hprice hone hsize
    exact ⟨fun _ => ⟨htoken, hprice, hone, hsize⟩, fun _ => rfl⟩

lemma fillSize_executeSingleLeg (haccepted : accepted reply = true) :
    (executeSingleLeg leg reply).fillSize = sizeTaken leg reply := by
  cases reply with
  | object order => exact congrArg some (truthyOr_eq _ _)
  | dict order => rfl
  | other => exact (congrArg some (if_pos rfl)).symm
  | raised message => cases haccepted

lemma truthyOr_fillPrice (haccepted : accepted reply = true) :
    truthyOr (executeSingleLeg leg reply).fillPrice leg.price = priceTaken leg reply := by
  rw [truthyOr_eq, priceTaken]
  cases reply with
  | object order =>
    rw [executeSingleLeg, Option.getD_some, truthyOr_eq, reportedPrice]
    by_cases hp : order.averageFillPrice.getD 0 = 0
    · simp [hp]
    · simp [hp]
  | dict order =>
    rw [executeSingleLeg, reportedPrice]
    cases order.fillPrice with
    | none => simp
    | some price => rfl
  | other => exact (ite_self _).trans (if_pos rfl).symm
  | raised message => cases haccepted

/-- The opposite trade of an accepted leg. -/
def closingLeg (call : ExecutionLeg × Reply) : ExecutionLeg :=
  { tokenId := call.1.tokenId
    side := call.1.side.opposite
    price := priceTaken call.1 call.2
    sizeUsd := (sizeTaken call.1 call.2).getD 0 * priceTaken call.1 call.2
    marketQuestion := call.1.marketQuestion }

lemma hedgeLeg_executeSingleLeg {call : ExecutionLeg × Reply} (haccepted : accepted call.2 = true) :
    hedgeLeg (executeSingleLeg call.1 call.2) =
      if sizeTaken call.1 call.2 = none then .error .unsupportedOperand
      else .ok (closingLeg call) := by
  rw [hedgeLeg, fillSize_executeSingleLeg haccepted, leg_executeSingleLeg,
    truthyOr_fillPrice haccepted]
  cases hsize : sizeTaken call.1 call.2 with
  | none => rfl
  | some size =>
    rw [closingLeg, hsize]
    rfl

/-- Every accepted leg can be closed by an order that passes the check. -/
def Closable (calls : List (ExecutionLeg × Reply)) : Prop :=
  ∀ call ∈ acceptedCalls calls, (∃ size ∈ sizeTaken call.1 call.2, 0 < size) ∧
    0 < priceTaken call.1 call.2 ∧ priceTaken call.1 call.2 ≤ 1

instance : Decidable (Closable calls) := inferInstanceAs (Decidable (∀ call ∈ acceptedCalls calls, _))

lemma validateLeg_closingLeg {call : ExecutionLeg × Reply} (hvalid : validateLeg call.1 = none)
    {size : ℚ} (hsize : sizeTaken call.1 call.2 = some size) :
    validateLeg (closingLeg call) = none ↔
      0 < size ∧ 0 < priceTaken call.1 call.2 ∧ priceTaken call.1 call.2 ≤ 1 := by
  have htoken := (validateLeg_eq_none.1 hvalid).1
  rw [validateLeg_eq_none, closingLeg, hsize, Option.getD_some]
  constructor
  · rintro ⟨_, hprice, hone, hdollars⟩
    exact ⟨pos_of_mul_pos_left hdollars hprice.le, hprice, hone⟩
  · rintro ⟨hpos, hprice, hone⟩
    exact ⟨htoken, hprice, hone, mul_pos hpos hprice⟩

lemma trade_closingLeg {call : ExecutionLeg × Reply} (hprice : 0 < priceTaken call.1 call.2) :
    (closingLeg call).trade =
      (call.1.tokenId, call.1.side.opposite, (sizeTaken call.1 call.2).getD 0) := by
  rw [ExecutionLeg.trade, ExecutionLeg.shares, closingLeg, mul_div_cancel_right₀ _ hprice.ne']

lemma filter_success (calls : List (ExecutionLeg × Reply)) :
    (calls.map fun call => executeSingleLeg call.1 call.2).filter LegResult.success =
      (acceptedCalls calls).map fun call => executeSingleLeg call.1 call.2 := by
  rw [List.filter_map, acceptedCalls]
  exact congrArg _ (List.filter_congr fun call _ => success_executeSingleLeg call.1 call.2)

lemma mapM_hedgeLeg {hedgeLegs : List ExecutionLeg} :
    ((acceptedCalls calls).map fun call => executeSingleLeg call.1 call.2).mapM hedgeLeg =
        .ok hedgeLegs ↔
      (∀ call ∈ acceptedCalls calls, sizeTaken call.1 call.2 ≠ none) ∧
        hedgeLegs = (acceptedCalls calls).map closingLeg := by
  have hleg : ∀ call ∈ acceptedCalls calls, hedgeLeg (executeSingleLeg call.1 call.2) =
      if sizeTaken call.1 call.2 = none then .error .unsupportedOperand else .ok (closingLeg call) :=
    fun call hcall => hedgeLeg_executeSingleLeg (List.mem_filter.1 hcall).2
  rw [List.mapM_map, mapM_eq_ok_iff (g := closingLeg)]
  · refine and_congr_left' (forall₂_congr fun call hcall => ?_)
    rw [Function.comp_apply, hleg call hcall]
    split
    · next hnone => exact ⟨fun h => (nomatch h), fun h => absurd hnone h⟩
    · next hsome => exact ⟨fun _ => hsome, fun _ => rfl⟩
  · intro call hcall order h
    rw [Function.comp_apply, hleg call hcall] at h
    split at h
    · cases h
    · exact (Except.ok.inj h).symm

/-- The accepted legs are closed if all of them can be, else none is. -/
lemma hedgeOrdersOf_eq (hvalid : ∀ call ∈ calls, validateLeg call.1 = none) :
    hedgeOrdersOf (calls.map fun call => executeSingleLeg call.1 call.2) =
      if Closable calls then (acceptedCalls calls).map closingLeg else [] := by
  have hcheck : ∀ call ∈ acceptedCalls calls, ∀ size, sizeTaken call.1 call.2 = some size →
      (validateLeg (closingLeg call) = none ↔
        0 < size ∧ 0 < priceTaken call.1 call.2 ∧ priceTaken call.1 call.2 ≤ 1) :=
    fun call hcall size => validateLeg_closingLeg (hvalid call (List.mem_filter.1 hcall).1)
  rw [hedgeOrdersOf, filter_success]
  cases hmap : ((acceptedCalls calls).map fun call => executeSingleLeg call.1 call.2).mapM hedgeLeg
  with
  | error err =>
    have hnot : ¬ Closable calls := by
      intro hclosable
      have hsizes : ∀ call ∈ acceptedCalls calls, sizeTaken call.1 call.2 ≠ none := by
        intro call hcall
        obtain ⟨size, hsize, _⟩ := (hclosable call hcall).1
        exact Option.ne_none_iff_exists'.2 ⟨size, hsize⟩
      cases hmap.symm.trans (mapM_hedgeLeg.2 ⟨hsizes, rfl⟩)
    rw [if_neg hnot]
  | ok hedgeLegs =>
    obtain ⟨hsizes, rfl⟩ := mapM_hedgeLeg.1 hmap
    have hclosable : (∃ leg ∈ (acceptedCalls calls).map closingLeg, validateLeg leg ≠ none) ↔
        ¬ Closable calls := by
      rw [← not_iff_not, not_not, not_exists]
      simp only [not_and, not_not, List.forall_mem_map]
      refine forall₂_congr fun call hcall => ?_
      obtain ⟨size, hsize⟩ := Option.ne_none_iff_exists'.1 (hsizes call hcall)
      rw [hcheck call hcall size hsize, hsize]
      simp
    simp only [placedLegs, hclosable, ite_not]

/-- The closing orders are the trades that close the fills exactly if the accepted legs are these
fills, at prices that an order can have. -/
lemma hedgeOrdersOf_iff (hvalid : ∀ call ∈ calls, validateLeg call.1 = none)
    (hfilled : filledCalls calls ≠ []) :
    (hedgeOrdersOf (calls.map fun call => executeSingleLeg call.1 call.2)).map ExecutionLeg.trade =
        (filledCalls calls).map closing ↔
      ((acceptedCalls calls).map fun call =>
          (call.1.tokenId, call.1.side.opposite, sizeTaken call.1 call.2)) =
        ((filledCalls calls).map fun call =>
          (call.1.tokenId, call.1.side.opposite, some (reportedSize call.2))) ∧
      ∀ call ∈ acceptedCalls calls,
        0 < priceTaken call.1 call.2 ∧ priceTaken call.1 call.2 ≤ 1 := by
  have heach : ∀ call ∈ acceptedCalls calls, validateLeg call.1 = none :=
    fun call hcall => hvalid call (List.mem_filter.1 hcall).1
  have hfills : ∀ call ∈ filledCalls calls, 0 < reportedSize call.2 :=
    fun call hcall => of_decide_eq_true (List.mem_filter.1 hcall).2
  rw [hedgeOrdersOf_eq hvalid]
  constructor
  · intro heq
    split at heq
    · next hclosable =>
      refine ⟨?_, fun call hcall => (hclosable call hcall).2⟩
      have hsizes := congrArg (List.map fun t : String × Side × ℚ => (t.1, t.2.1, some t.2.2)) heq
      rw [List.map_map, List.map_map, List.map_map] at hsizes
      refine (List.map_congr_left fun call hcall => ?_).trans hsizes
      obtain ⟨⟨size, hsize, _⟩, hprice, _⟩ := hclosable call hcall
      rw [Function.comp_apply, Function.comp_apply, trade_closingLeg hprice, Option.mem_def.1 hsize]
      rfl
    · exact absurd (List.map_eq_nil_iff.1 heq.symm) hfilled
  · rintro ⟨heq, hprices⟩
    have hclosable : Closable calls := by
      intro call hcall
      refine ⟨?_, hprices call hcall⟩
      have hmem := List.mem_map_of_mem (f := fun call : ExecutionLeg × Reply =>
        (call.1.tokenId, call.1.side.opposite, sizeTaken call.1 call.2)) hcall
      rw [heq] at hmem
      obtain ⟨fill, hfill, hsame⟩ := List.mem_map.1 hmem
      exact ⟨_, (Prod.ext_iff.1 (Prod.ext_iff.1 hsame).2).2.symm, hfills fill hfill⟩
    rw [if_pos hclosable]
    have hsizes := congrArg (List.map fun t : String × Side × Option ℚ =>
      (t.1, t.2.1, t.2.2.getD 0)) heq
    rw [List.map_map, List.map_map] at hsizes
    rw [List.map_map]
    exact (List.map_congr_left fun call hcall => trade_closingLeg (hprices call hcall).1).trans hsizes

end Closing

/-! ## The execution -/

section Execution

variable {placer hedgePlacer : ℕ → ExecutionLeg → Reply} {legs : List ExecutionLeg}
  {hedgeOnPartial : Bool}

lemma map_fst_answered (placer : ℕ → ExecutionLeg → Reply) (legs : List ExecutionLeg) :
    (answered placer legs).map Prod.fst = legs := by
  rw [answered, List.mapIdx_eq_zipIdx_map, List.map_map]
  exact List.zipIdx_map_fst 0 legs

lemma length_answered (placer : ℕ → ExecutionLeg → Reply) (legs : List ExecutionLeg) :
    (answered placer legs).length = legs.length :=
  List.length_mapIdx

lemma forall_answered {P : ExecutionLeg → Prop} (h : ∀ leg ∈ legs, P leg) :
    ∀ call ∈ answered placer legs, P call.1 := by
  intro call hcall
  refine h call.1 ?_
  rw [← map_fst_answered placer legs]
  exact List.mem_map_of_mem hcall

/-- Legs that pass the check are counted, and the result is read off the count. -/
lemma execute_eq (hne : legs ≠ []) (hvalid : ∀ leg ∈ legs, validateLeg leg = none) :
    execute placer legs =
      (((answered placer legs).map fun call => executeSingleLeg call.1 call.2).foldlM
        countResult {}).map fun tally =>
          ⟨if tally.successful = legs.length then .success
            else if tally.successful = 0 then .failed else .partly,
          (answered placer legs).map fun call => executeSingleLeg call.1 call.2,
          tally.successful, tally.failed, tally.totalCost,
          0 < tally.successful ∧ tally.successful < legs.length⟩ := by
  have hnone : ¬ ∃ leg ∈ legs, validateLeg leg ≠ none := by
    rintro ⟨leg, hleg, hinvalid⟩
    exact hinvalid (hvalid leg hleg)
  rw [execute, if_neg hne, if_neg hnone]
  rfl

/-- With sizes that can be read, the result tells the accepted legs from the refused ones. -/
lemma execute_eq_ok (hvalid : ∀ leg ∈ legs, validateLeg leg = none)
    (hreadable : ∀ call ∈ acceptedCalls (answered placer legs), ¬ sizeUnreadable call.2 = true) :
    ∃ result, execute placer legs = .ok result ∧
      result.legs = ((answered placer legs).map fun call => executeSingleLeg call.1 call.2) ∧
      result.totalCost = ((acceptedCalls (answered placer legs)).map fun call =>
        reportedSize call.2 * reportedPrice call.2 + putIn call.1 call.2).sum ∧
      (result.exposureRisk = true ↔ Mixed (answered placer legs)) := by
  by_cases hne : legs = []
  · subst hne
    exact ⟨_, if_pos rfl, rfl, rfl, by rw [mixed_iff]; simp [answered]⟩
  · have hprice := @forall_answered placer legs _ fun leg hleg =>
      (validateLeg_eq_none.1 (hvalid leg hleg)).2.1
    rw [execute_eq hne hvalid, foldlM_countResult hprice hreadable]
    refine ⟨_, rfl, rfl, zero_add _, ?_⟩
    rw [mixed_iff, length_answered, decide_eq_true_iff, zero_add]

/-- A size that cannot be read leaves no result. -/
lemma execute_eq_error (hvalid : ∀ leg ∈ legs, validateLeg leg = none)
    (hunreadable : ∃ call ∈ acceptedCalls (answered placer legs), sizeUnreadable call.2 = true) :
    execute placer legs = .error .unsupportedOperand := by
  have hne : legs ≠ [] := by
    rintro rfl
    obtain ⟨call, hcall, _⟩ := hunreadable
    cases hcall
  have hprice := @forall_answered placer legs _ fun leg hleg =>
    (validateLeg_eq_none.1 (hvalid leg hleg)).2.1
  rw [execute_eq hne hvalid, foldlM_countResult_unreadable hprice hunreadable]
  rfl

/-- The closing orders of an execution. -/
lemma hedgeOrders_executeWithHedge {result : ParallelExecutionResult}
    (h : execute placer legs = .ok result) :
    (executeWithHedge placer hedgePlacer legs hedgeOnPartial).hedgeOrders =
      if result.exposureRisk ∧ hedgeOnPartial then hedgeOrdersOf result.legs else [] := by
  rw [executeWithHedge, h]
  dsimp only
  split
  · rw [hedgeOrdersOf]
    cases (result.legs.filter LegResult.success).mapM hedgeLeg <;> rfl
  · rfl

lemma filledCalls_ne_nil {calls : List (ExecutionLeg × Reply)} (h : Exposed calls) :
    filledCalls calls ≠ [] := by
  obtain ⟨i, _, _, hfilled, _⟩ := h
  exact List.ne_nil_of_mem
    (List.mem_filter.2 ⟨List.getElem_mem i.isLt, decide_eq_true hfilled⟩)

/-- An execution of legs that pass the check reports and closes what the replies report exactly if
the status of the orders accounts for the fills. -/
theorem reportedExactly_iff_accounted (placer hedgePlacer : ℕ → ExecutionLeg → Reply)
    (hvalid : ∀ leg ∈ legs, validateLeg leg = none) (hedgeOnPartial : Bool) :
    ReportedExactly placer hedgePlacer legs hedgeOnPartial ↔
      FillsAccounted (answered placer legs) hedgeOnPartial := by
  have hcalls : ∀ call ∈ answered placer legs, validateLeg call.1 = none := forall_answered hvalid
  by_cases hreadable : ∀ call ∈ acceptedCalls (answered placer legs), ¬ sizeUnreadable call.2 = true
  · obtain ⟨result, hresult, hlegs, hcost, hrisk⟩ := execute_eq_ok hvalid hreadable
    have horders := @hedgeOrders_executeWithHedge placer hedgePlacer legs hedgeOnPartial result hresult
    rw [hlegs] at horders
    constructor
    · rintro ⟨⟨result', hresult', htotal, hexposed⟩, hclosed⟩
      obtain rfl := Except.ok.inj (hresult'.symm.trans hresult)
      rw [hcost] at htotal
      have hmixed := hrisk.symm.trans hexposed
      refine ⟨hreadable, (counted_iff_balanced _).1 htotal, hmixed, ?_⟩
      rintro ⟨hsome, hon⟩
      have hexposure := hmixed.1 hsome
      rw [horders, if_pos ⟨hrisk.2 hsome, hon⟩, if_pos ⟨hexposure, hon⟩] at hclosed
      exact (hedgeOrdersOf_iff hcalls (filledCalls_ne_nil hexposure)).1 hclosed
    · intro h
      refine ⟨⟨result, hresult, hcost.trans ((counted_iff_balanced _).2 h.balanced),
        hrisk.trans h.exposed⟩, ?_⟩
      rw [horders]
      by_cases hclose : Mixed (answered placer legs) ∧ hedgeOnPartial = true
      · have hexposure := h.exposed.1 hclose.1
        rw [if_pos ⟨hrisk.2 hclose.1, hclose.2⟩, if_pos ⟨hexposure, hclose.2⟩]
        exact (hedgeOrdersOf_iff hcalls (filledCalls_ne_nil hexposure)).2 (h.closed hclose)
      · rw [if_neg fun hboth => hclose ⟨hrisk.1 hboth.1, hboth.2⟩,
          if_neg fun hboth => hclose ⟨h.exposed.2 hboth.1, hboth.2⟩]
        rfl
  · push Not at hreadable
    have herror := execute_eq_error hvalid hreadable
    obtain ⟨call, hcall, hsize⟩ := hreadable
    constructor
    · rintro ⟨⟨result, hresult, _⟩, _⟩
      cases herror.symm.trans hresult
    · exact fun h => absurd hsize (h.readable call hcall)

end Execution

end Evosport.Optimization
