/-
Laddered exits (`services/trader_orchestrator/exit_executor.py`).

A laddered exit is a list of child orders that `planChildren` made from a policy.  `runExitPass`
submits the planned children, cancels and resubmits those that rest too long (escalation) and
those from which the mid has drifted away (reprice).  Between passes the reconcile loop of
`position_lifecycle.py` copies the venue's order snapshots into the children (`applySnapshot`).

The venue is the adversary: it answers every call as it likes, as long as it neither fills nor keeps
more of an order than was ordered.  Its books are kept beside the children: what was filled of all
the orders of a child, what is outstanding of its current order, and what is outstanding of
earlier orders that were never cancelled.  After every contact the total exposure of the exit is
noted.
-/
import Evosport.Backtest.ExitPlan

namespace Evosport.Orchestrator

open Backtest Backtest.ExitPlan

/-! ## Child orders -/

/-- The states of a child order; the working ones have an order at the venue that may still be
filled. -/
inductive ChildStatus where
  | planned
  | submitted
  | filled
  | partialFill
  | cancelled
  | failed
  | escalated
  deriving DecidableEq, Repr

/-- `_WORKING_CHILD_STATES` -/
def ChildStatus.isWorking : ChildStatus → Bool
  | .submitted | .partialFill => true
  | _ => false

/-- The record of a child order in `pending_exit`: what was planned of it, what the venue has
reported of it, when it was tried last, and how often it was escalated. -/
structure Child where
  childId : String
  index : ℕ
  price : ℚ
  size : ℚ
  tif : Tif
  postOnly : Bool
  bucket : String
  status : ChildStatus
  filledSize : ℚ
  averageFillPrice : Option ℚ
  exitOrderId : Option String
  providerClobOrderId : Option String
  submittedAt : Option ℚ
  lastAttemptAt : Option ℚ
  escalationCount : ℕ
  lastError : Option String
  metadataKey : String
  deriving DecidableEq, Repr

/-- `child_plan_to_record`: the child that a plan starts as, before anything of it is submitted. -/
def childPlanToRecord (plan : ChildPlan) (exitId : String) : Child where
  childId := exitId ++ "-c" ++ toString plan.index
  index := plan.index
  price := plan.price
  size := plan.size
  tif := plan.tif
  postOnly := plan.postOnly
  bucket := plan.distributionBucket
  status := .planned
  filledSize := 0
  averageFillPrice := none
  exitOrderId := none
  providerClobOrderId := none
  submittedAt := none
  lastAttemptAt := none
  escalationCount := 0
  lastError := none
  metadataKey := "exit:" ++ exitId ++ ":c" ++ toString plan.index

/-- `build_initial_children` -/
def buildInitialChildren (targetSize triggerPrice : ℚ) (side : Side) (policy : ExitPolicy)
    (tickSize : ℚ) (exitId : String) : List Child :=
  (planChildren targetSize triggerPrice side policy tickSize .gtc true).map
    fun plan => childPlanToRecord plan exitId

/-! ## The policy snapshot -/

/-- The actions of an escalation; every unknown one resubmits the child as it is. -/
inductive EscalationAction where
  | marketableIoc
  | widenBps
  | abort
  | other
  deriving DecidableEq, Repr

/-- `EscalationSpec` with its defaults: when a child that rests too long is escalated, how, and how
often. -/
structure EscalationSpec where
  afterSeconds : ℚ := 5
  action : EscalationAction := .marketableIoc
  widenBps : Option ℚ := none
  maxEscalations : ℤ := 1
  deriving DecidableEq, Repr

/-- What the passes read of the serialized policy: the escalation, the drift of the mid that makes a
reprice due, and the least time between two. -/
structure PolicySnapshot where
  escalation : Option EscalationSpec := none
  repriceOnMidDriftBps : Option ℚ := none
  minRepriceIntervalSeconds : ℚ := 1
  deriving DecidableEq, Repr

/-! ## Aggregation -/

/-- What `aggregate_children_fills` returns. -/
structure ChildFills where
  filledSize : ℚ
  filledNotional : ℚ
  averageFillPrice : ℚ
  deriving DecidableEq, Repr

/-- The price that the fills of a child are booked at. -/
def Child.bookedPrice (c : Child) : ℚ :=
  match c.averageFillPrice with
  | some avg => if avg ≤ 0 then c.price else avg
  | none => c.price

/-- `aggregate_children_fills` -/
def aggregateChildrenFills (children : List Child) : ChildFills :=
  let filled := children.filter fun c => 0 < c.filledSize
  let size := (filled.map Child.filledSize).sum
  let notional := (filled.map fun c => c.filledSize * c.bookedPrice).sum
  ⟨size, notional, if 0 < size then notional / size else 0⟩

/-- `is_exit_complete`, with a fill threshold of one -/
def isExitComplete (targetSize : ℚ) (children : List Child) : Bool :=
  let target := max 0 targetSize
  !children.isEmpty &&
    ((0 < target && target ≤ (aggregateChildrenFills children).filledSize + e9) ||
      children.all fun c =>
        !(c.status == .planned || c.status.isWorking || c.status == .escalated))

/-! ## Selection -/

/-- The indexes of the children that meet a condition. -/
def indexesOf (p : Child → Bool) (children : List Child) : List ℕ :=
  (children.zipIdx.filter fun c => p c.1).map Prod.snd

/-- `pick_children_to_submit`: at least one even where none is allowed -/
def pickChildrenToSubmit (children : List Child) (maxCount : ℤ) : List ℕ :=
  (indexesOf (fun c => c.status == .planned) children).take (max 1 maxCount).toNat

/-- `pick_children_to_reprice`: the working children whose price has drifted from the mid by the
threshold of the policy, and whose last attempt is long enough ago. -/
def pickChildrenToReprice (policy : PolicySnapshot) (children : List Child) (currentMid now : ℚ) :
    List ℕ :=
  match policy.repriceOnMidDriftBps with
  | none => []
  | some driftBps =>
    if currentMid ≤ 0 then []
    else
      indexesOf (fun c => c.status.isWorking && 0 < c.price &&
        !(|c.price - currentMid| / currentMid * 10000 + e9 < driftBps) &&
        match c.lastAttemptAt with
        | none => true
        | some lastAttempt => !(now - lastAttempt + e9 < policy.minRepriceIntervalSeconds)) children

/-- `pick_children_to_escalate` -/
def pickChildrenToEscalate (policy : PolicySnapshot) (children : List Child) (now : ℚ) : List ℕ :=
  match policy.escalation with
  | none => []
  | some esc =>
    indexesOf (fun c => c.status.isWorking && !(esc.maxEscalations ≤ c.escalationCount) &&
      match c.submittedAt.orElse fun _ => c.lastAttemptAt with
      | none => false
      | some submittedAt => !(now - submittedAt + e9 < esc.afterSeconds)) children

/-! ## The venue -/

/-- How the venue answers an order: it fills some of it at once, keeps some of it, and reports the
fill; or the call raises, whatever became of the order. -/
structure PlaceReply where
  fill : ℚ
  rest : ℚ
  raised : Option String := none
  status : String := "open"
  orderId : String := ""
  clobOrderId : String := ""
  averageFillPrice : Option ℚ := none
  errorMessage : Option String := none

/-- What the venue fills of an order. -/
def PlaceReply.filled (r : PlaceReply) (size : ℚ) : ℚ := max 0 (min r.fill size)

/-- What the venue keeps of an order. -/
def PlaceReply.resting (r : PlaceReply) (size : ℚ) : ℚ := max 0 (min r.rest (size - r.filled size))

/-- How the venue answers a cancellation: it acknowledges it, refuses it, or the call raises. -/
inductive CancelReply where
  | acknowledged
  | refused
  | raised
  deriving DecidableEq, Repr

/-- The books of the venue for one child: what was filled, what is open under the order that the
child names, and what is open under orders that it no longer names. -/
structure Account where
  filled : ℚ
  /-- What is outstanding of the current order. -/
  outstanding : ℚ
  /-- What is outstanding of earlier orders. -/
  stale : ℚ
  deriving DecidableEq, Repr

namespace Account

/-- Before the first order. -/
def zero : Account := ⟨0, 0, 0⟩

/-- What was sold and what may still be sold. -/
def exposure (a : Account) : ℚ := a.filled + a.outstanding + a.stale

/-- An order of the child arrives. -/
def place (a : Account) (size : ℚ) (r : PlaceReply) : Account :=
  ⟨a.filled + r.filled size, r.resting size, a.stale + a.outstanding⟩

/-- The current order is cancelled. -/
def cancel (a : Account) : Account := { a with outstanding := 0 }

/-- Some of what is outstanding is filled. -/
def fill (a : Account) (amount : ℚ) : Account :=
  let current := max 0 (min amount a.outstanding)
  let stale := max 0 (min (amount - current) a.stale)
  ⟨a.filled + current + stale, a.outstanding - current, a.stale - stale⟩

/-- Some of what is outstanding expires. -/
def lapse (a : Account) (amount : ℚ) : Account :=
  { a with outstanding := a.outstanding - max 0 (min amount a.outstanding) }

end Account

/-- What the venue does of its own accord. -/
inductive VenueMove where
  | fill (idx : ℕ) (amount : ℚ)
  | lapse (idx : ℕ) (amount : ℚ)

/-! ## Submission -/

/-- `text or None` -/
def textOrNone (s : String) : Option String := if s = "" then none else some s

/-- `submit_child_order`: the record of the child after the call -/
def submitChildOrder (child : Child) (now : ℚ) (r : PlaceReply) : Child :=
  let child := { child with lastAttemptAt := some now }
  match r.raised with
  | some text => { child with status := .failed, lastError := some text }
  | none =>
    let fill := r.filled child.size
    let child := { child with
      exitOrderId := textOrNone r.orderId
      providerClobOrderId := textOrNone r.clobOrderId
      filledSize := if 0 < fill then max 0 child.filledSize + fill else child.filledSize
      averageFillPrice :=
        match r.averageFillPrice with
        | some avg => if 0 < fill ∧ 0 < avg then some avg else child.averageFillPrice
        | none => child.averageFillPrice }
    if r.status = "executed" then
      { child with
        status := if child.size ≤ child.filledSize + e9 then .filled else .partialFill }
    else if r.status = "open" ∨ r.status = "submitted" then
      { child with status := .submitted, submittedAt := child.submittedAt.orElse fun _ => some now }
    else
      { child with
        status := .failed
        lastError := r.errorMessage.orElse fun _ =>
          some ("submit_status:" ++ if r.status = "" then "unknown" else r.status) }

/-- The venue id that a cancellation names. -/
def Child.cancelId (c : Child) : Option String :=
  c.providerClobOrderId.orElse fun _ => c.exitOrderId

/-- `cancel_child_order`: true where the venue acknowledged, or there is nothing to cancel -/
def cancelChildOrder (child : Child) (r : CancelReply) : Bool :=
  child.cancelId.isNone || r == .acknowledged

/-- The child that an escalation resubmits: cancelled, and placed anew by its action. -/
def escalatedChild (child : Child) (esc : EscalationSpec) (side : Side) (currentMid : Option ℚ)
    (tickSize : ℚ) : Child :=
  let child := match esc.action with
    | .marketableIoc =>
      let price := match currentMid with
        | some mid => if 0 < mid then clampBinaryPrice mid tickSize else child.price
        | none => child.price
      { child with price := price, tif := .ioc, postOnly := false }
    | .widenBps =>
      let widen := match esc.widenBps with
        | some widen => if widen ≤ 0 then 25 else widen
        | none => 25
      let raw := match side with
        | .sell => child.price * (1 - widen / 10000)
        | .buy => child.price * (1 + widen / 10000)
      { child with price := clampBinaryPrice raw tickSize }
    | _ => child
  { child with providerClobOrderId := none, exitOrderId := none, submittedAt := none }

/-- The child that a reprice resubmits. -/
def repricedChild (child : Child) (newPrice tickSize : ℚ) : Child :=
  { child with
    price := clampBinaryPrice newPrice tickSize
    providerClobOrderId := none
    exitOrderId := none
    submittedAt := none
    status := .planned }

/-! ## The exit and its exposure -/

/-- A child and the books of the venue for it. -/
structure Leg where
  child : Child
  account : Account

/-- A laddered exit: its target and trigger, its policy, and its children, each with the books that
the venue keeps of it. -/
structure PendingExit where
  targetSize : ℚ
  triggerPrice : ℚ
  policy : PolicySnapshot
  legs : List Leg
  /-- The total exposure after each contact with the venue, latest last. -/
  exposures : List ℚ

namespace PendingExit

/-- The records of the children, as they stand in `pending_exit`. -/
def children (x : PendingExit) : List Child := x.legs.map Leg.child

/-- The shares filled over all children and the shares outstanding at the venue. -/
def exposure (x : PendingExit) : ℚ := (x.legs.map fun l => l.account.exposure).sum

/-- An exit as it is built, before its first pass. -/
def initial (targetSize triggerPrice : ℚ) (side : Side) (plan : ExitPolicy) (tickSize : ℚ)
    (exitId : String) (policy : PolicySnapshot) : PendingExit where
  targetSize := targetSize
  triggerPrice := triggerPrice
  policy := policy
  legs := (buildInitialChildren targetSize triggerPrice side plan tickSize exitId).map
    fun c => ⟨c, .zero⟩
  exposures := []

/-- Change one leg and note the exposure. -/
def updateLeg (x : PendingExit) (idx : ℕ) (f : Leg → Leg) : PendingExit :=
  let x := { x with legs := x.legs.modify idx f }
  { x with exposures := x.exposures ++ [x.exposure] }

/-- The venue fills or drops shares of an order at rest. -/
def move (x : PendingExit) : VenueMove → PendingExit
  | .fill idx amount => x.updateLeg idx fun l => { l with account := l.account.fill amount }
  | .lapse idx amount => x.updateLeg idx fun l => { l with account := l.account.lapse amount }

/-- Place the order of a child. -/
def submit (x : PendingExit) (now : ℚ) (idx : ℕ) (r : PlaceReply) : PendingExit :=
  x.updateLeg idx fun l => ⟨submitChildOrder l.child now r, l.account.place l.child.size r⟩

/-- Cancel the order of a child. -/
def cancel (x : PendingExit) (idx : ℕ) (r : CancelReply) : PendingExit :=
  x.updateLeg idx fun l =>
    if l.child.cancelId.isSome && r == .acknowledged then
      { l with account := l.account.cancel }
    else l

/-- Rewrite the record of a child. -/
def rewrite (x : PendingExit) (idx : ℕ) (f : Child → Child) : PendingExit :=
  { x with legs := x.legs.modify idx fun l => { l with child := f l.child } }

end PendingExit

/-! ## One pass -/

/-- The arguments of a pass: the side, the mid and the tick, the time, and the budgets of
submissions, escalations and reprices. -/
structure PassArgs where
  side : Side
  currentMid : Option ℚ
  tickSize : ℚ := defaultTickSize
  now : ℚ
  /-- `PassBudget` -/
  submits : ℤ := 8
  escalations : ℤ := 8
  reprices : ℤ := 8

/-- What a pass reports: the children it submitted, escalated and repriced, and whether the exit is
complete at the size that is filled. -/
structure PassReport where
  submitted : ℕ
  escalated : ℕ
  repriced : ℕ
  complete : Bool
  filledSize : ℚ
  deriving DecidableEq, Repr

/-- What happens at the venue while one child is handled: moves of its own, the answer to the
cancellation, more moves, and the answer to the order. -/
structure Contact where
  before : List VenueMove := []
  cancel : CancelReply := .acknowledged
  between : List VenueMove := []
  place : PlaceReply

/-- What happens at the venue in the three stages of a pass, by the index of the child. -/
structure PassContacts where
  submit : ℕ → Contact
  escalate : ℕ → Contact
  reprice : ℕ → Contact

namespace PendingExit

/-- Step 1 of a pass for one child. -/
def submitStep (a : PassArgs) (v : PassContacts) (x : PendingExit) (idx : ℕ) : PendingExit :=
  let c := v.submit idx
  (c.before.foldl move x).submit a.now idx c.place

/-- What `escalate_child_order` does up to the resubmission, and whether it resubmits. -/
def escalateCancel (a : PassArgs) (v : PassContacts) (x : PendingExit) (idx : ℕ) :
    PendingExit × Bool :=
  let c := v.escalate idx
  match x.policy.escalation, x.legs[idx]? with
  | some esc, some leg =>
    let x := (c.before.foldl move x).cancel idx c.cancel
    if !cancelChildOrder leg.child c.cancel then
      (x.rewrite idx fun child =>
        { child with lastError := some "escalation_cancel_failed" }, false)
    else
      let x := x.rewrite idx fun child =>
        { child with status := .escalated, escalationCount := child.escalationCount + 1 }
      if esc.action = .abort then
        (x.rewrite idx fun child => { child with status := .cancelled }, false)
      else
        let x := x.rewrite idx fun child =>
          escalatedChild child esc a.side a.currentMid a.tickSize
        (c.between.foldl move x, true)
  | _, _ => (x, false)

/-- `escalate_child_order` -/
def escalateStep (a : PassArgs) (v : PassContacts) (x : PendingExit) (idx : ℕ) : PendingExit :=
  let r := x.escalateCancel a v idx
  if r.2 then r.1.submit a.now idx (v.escalate idx).place else r.1

/-- What `reprice_child_order` does up to the resubmission, and whether it resubmits. -/
def repriceCancel (a : PassArgs) (v : PassContacts) (mid : ℚ) (x : PendingExit) (idx : ℕ) :
    PendingExit × Bool :=
  let c := v.reprice idx
  match x.legs[idx]? with
  | some leg =>
    -- each child keeps its distance from the trigger price
    let offset := leg.child.price - (if x.triggerPrice = 0 then mid else x.triggerPrice)
    let x := (c.before.foldl move x).cancel idx c.cancel
    if !cancelChildOrder leg.child c.cancel then
      (x.rewrite idx fun child => { child with lastError := some "reprice_cancel_failed" }, false)
    else
      let x := x.rewrite idx fun child => repricedChild child (mid + offset) a.tickSize
      (c.between.foldl move x, true)
  | none => (x, false)

/-- `reprice_child_order` -/
def repriceStep (a : PassArgs) (v : PassContacts) (mid : ℚ) (x : PendingExit) (idx : ℕ) :
    PendingExit :=
  let r := x.repriceCancel a v mid idx
  if r.2 then r.1.submit a.now idx (v.reprice idx).place else r.1

/-- The children that the budget of a stage allows. -/
def within (budget : ℤ) (idxs : List ℕ) : List ℕ := idxs.take budget.toNat

/-- The children that are submitted. -/
def toSubmit (a : PassArgs) (x : PendingExit) : List ℕ :=
  within a.submits (pickChildrenToSubmit x.children a.submits)

/-- The children that are escalated. -/
def toEscalate (a : PassArgs) (x : PendingExit) : List ℕ :=
  within a.escalations (pickChildrenToEscalate x.policy x.children a.now)

/-- The children that are repriced. -/
def toReprice (a : PassArgs) (mid : ℚ) (x : PendingExit) : List ℕ :=
  within a.reprices (pickChildrenToReprice x.policy x.children mid a.now)

/-- The first stage of a pass. -/
def submitStage (a : PassArgs) (v : PassContacts) (x : PendingExit) : PendingExit :=
  (x.toSubmit a).foldl (submitStep a v) x

/-- The second stage of a pass. -/
def escalateStage (a : PassArgs) (v : PassContacts) (x : PendingExit) : PendingExit :=
  (x.toEscalate a).foldl (escalateStep a v) x

/-- The third stage of a pass. -/
def repriceStage (a : PassArgs) (v : PassContacts) (x : PendingExit) : PendingExit :=
  match a.currentMid with
  | some mid => if 0 < mid then (x.toReprice a mid).foldl (repriceStep a v mid) x else x
  | none => x

/-- `run_exit_pass`: the exit after the pass -/
def runExitPass (a : PassArgs) (v : PassContacts) (x : PendingExit) : PendingExit :=
  ((x.submitStage a v).escalateStage a v).repriceStage a v

/-- `run_exit_pass`: the report of the pass -/
def passReport (a : PassArgs) (v : PassContacts) (x : PendingExit) : PassReport :=
  let x₁ := x.submitStage a v
  let x₂ := x₁.escalateStage a v
  let x₃ := x₂.repriceStage a v
  { submitted := (x.toSubmit a).length
    escalated := (x₁.toEscalate a).length
    repriced := match a.currentMid with
      | some mid => if 0 < mid then (x₂.toReprice a mid).length else 0
      | none => 0
    complete := x.children.isEmpty || isExitComplete x.targetSize x₃.children
    filledSize := (aggregateChildrenFills x₃.children).filledSize }

end PendingExit

/-! ## Between passes -/

/-- What the reconcile loop reads of an order snapshot. -/
structure OrderSnapshot where
  status : String
  filledSize : ℚ
  averageFillPrice : Option ℚ
  limitPrice : Option ℚ

/-- The snapshot of its order is copied into a child: its filled size never goes down, and a status
that the source does not list leaves the child as it is, or partly filled. -/
def applySnapshot (child : Child) (snap : OrderSnapshot) : Child :=
  let filled := max 0 snap.filledSize
  let price := match snap.averageFillPrice with
    | some avg => if avg ≤ 0 then snap.limitPrice else some avg
    | none => snap.limitPrice
  let child := { child with
    filledSize := if 0 < filled then max filled child.filledSize else child.filledSize
    averageFillPrice := match price with
      | some p => if 0 < p then some p else child.averageFillPrice
      | none => child.averageFillPrice }
  if snap.status = "filled" ∨
      ((snap.status = "matched" ∨ snap.status = "executed") ∧
        child.size ≤ child.filledSize + e9) then
    { child with status := .filled }
  else if snap.status = "cancelled" ∨ snap.status = "expired" then
    { child with status := .cancelled }
  else if snap.status = "failed" then { child with status := .failed }
  else if 0 < filled then { child with status := .partialFill }
  else child

/-- What happens to an exit: passes, moves of the venue, and snapshots. -/
inductive ExitEvent where
  | pass (args : PassArgs) (contacts : PassContacts)
  | venue (m : VenueMove)
  | snapshot (idx : ℕ) (snap : OrderSnapshot)

/-- A snapshot reaches the children that have a venue id. -/
def PendingExit.step (x : PendingExit) : ExitEvent → PendingExit
  | .pass args contacts => x.runExitPass args contacts
  | .venue m => x.move m
  | .snapshot idx snap => x.rewrite idx fun child =>
      if child.providerClobOrderId.isSome then applySnapshot child snap else child

end Evosport.Orchestrator
