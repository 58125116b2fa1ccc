/-
The fills of a laddered exit (`submit_child_order`, `aggregate_children_fills`).

Each submission of a child, the first one and those after an escalation or a reprice, reports a
filled size and the average price of that fill.  The record of the child adds up the sizes, and
keeps the last average price for all of them.  So the sizes that the exit reports are those of the
submissions, and the notional is theirs as long as no child is filled at two prices
(`fillsExact_iff`).

Here the venue may report any fill; `submitChildOrder_eq` is the connection with the venue of
`ExitExecutor`, which fills no more than was ordered.
-/
import Evosport.Lib.Run
import Evosport.Orchestrator.ExitExecutor
import Mathlib.Data.List.Pairwise

namespace Evosport.Orchestrator

open Backtest Backtest.ExitPlan Lib

/-! ## Submissions -/

/-- What `submit_child_order` reads of the result of `place_order`. -/
structure PlaceResult where
  status : String
  orderId : String := ""
  clobOrderId : String := ""
  filledSize : Option ℚ
  averageFillPrice : Option ℚ
  errorMessage : Option String := none

/-- `submit_child_order`: the record of the child after a call that raised, or returned. -/
def submitChild (child : Child) (now : ℚ) (r : Except String PlaceResult) : Child :=
  let child := { child with lastAttemptAt := some now }
  match r with
  | .error text => { child with status := .failed, lastError := some text }
  | .ok r =>
    let fill := max 0 (r.filledSize.getD 0)
    let child := { child with
      exitOrderId := textOrNone r.orderId
      providerClobOrderId := textOrNone r.clobOrderId
      filledSize := if 0 < fill then max 0 child.filledSize + fill else child.filledSize
      averageFillPrice :=
        match r.averageFillPrice with
        | some avg => if 0 < fill ∧ 0 < avg then some avg else child.averageFillPrice
        | none => child.averageFillPrice }
    if r.status = "executed" then
      { child with
        status := if child.size ≤ child.filledSize + e9 then .filled else .partialFill }
    else if r.status = "open" ∨ r.status = "submitted" then
      { child with status := .submitted, submittedAt := child.submittedAt.orElse fun _ => some now }
    else
      { child with
        status := .failed
        lastError := r.errorMessage.orElse fun _ =>
          some ("submit_status:" ++ if r.status = "" then "unknown" else r.status) }

/-- The result that the venue of `ExitExecutor` returns. -/
def PlaceReply.result (r : PlaceReply) (size : ℚ) : Except String PlaceResult :=
  match r.raised with
  | some text => .error text
  | none => .ok
    { status := r.status
      orderId := r.orderId
      clobOrderId := r.clobOrderId
      filledSize := some (r.filled size)
      averageFillPrice := r.averageFillPrice
      errorMessage := r.errorMessage }

/-- The two models of `submit_child_order` agree: the one of the exit passes, which takes the result
from its venue, makes the same record as the one here does of that result. -/
theorem submitChildOrder_eq (child : Child) (now : ℚ) (r : PlaceReply) :
    submitChildOrder child now r = submitChild child now (r.result child.size) := by
  have hfill : max 0 (r.filled child.size) = r.filled child.size := max_eq_right (le_max_left _ _)
  unfold submitChildOrder submitChild PlaceReply.result
  cases r.raised with
  | some text => rfl
  | none =>
    cases r.averageFillPrice <;> simp only [Option.getD_some, hfill]

/-- `escalate_child_order` up to the resubmission: the child, and whether it is resubmitted. -/
def escalateChildOrder (child : Child) (esc : Option EscalationSpec) (side : Side)
    (currentMid : Option ℚ) (tickSize : ℚ) (cancel : CancelReply) : Child × Bool :=
  match esc with
  | none => (child, false)
  | some esc =>
    if !cancelChildOrder child cancel then
      ({ child with lastError := some "escalation_cancel_failed" }, false)
    else
      let child :=
        { child with status := .escalated, escalationCount := child.escalationCount + 1 }
      if esc.action = .abort then ({ child with status := .cancelled }, false)
      else (escalatedChild child esc side currentMid tickSize, true)

/-- `reprice_child_order` up to the resubmission. -/
def repriceChildOrder (child : Child) (newPrice tickSize : ℚ) (cancel : CancelReply) :
    Child × Bool :=
  if !cancelChildOrder child cancel then
    ({ child with lastError := some "reprice_cancel_failed" }, false)
  else (repricedChild child newPrice tickSize, true)

/-- Why a child is submitted. -/
inductive SubmissionKind where
  | initial
  | escalated (esc : Option EscalationSpec) (side : Side) (currentMid : Option ℚ) (tickSize : ℚ)
  | repriced (newPrice tickSize : ℚ)

/-- A report with a non-negative size and a positive average price. -/
structure FillReport where
  status : String
  orderId : String := ""
  clobOrderId : String := ""
  errorMessage : Option String := none
  filledSize : ℚ
  averageFillPrice : ℚ
  nonneg : 0 ≤ filledSize
  pos : 0 < averageFillPrice

/-- The report as `place_order` returns it. -/
def FillReport.result (r : FillReport) : PlaceResult where
  status := r.status
  orderId := r.orderId
  clobOrderId := r.clobOrderId
  filledSize := some r.filledSize
  averageFillPrice := some r.averageFillPrice
  errorMessage := r.errorMessage

/-- A call that submits a child, and how the venue answers it. -/
structure Submission where
  idx : ℕ
  kind : SubmissionKind
  now : ℚ
  cancel : CancelReply := .acknowledged
  outcome : Except String FillReport

namespace Submission

/-- The child before it is placed, and whether it is. -/
def prepared (s : Submission) (child : Child) : Child × Bool :=
  match s.kind with
  | .initial => (child, true)
  | .escalated esc side currentMid tickSize =>
    escalateChildOrder child esc side currentMid tickSize s.cancel
  | .repriced newPrice tickSize => repriceChildOrder child newPrice tickSize s.cancel

/-- The child after the call. -/
def apply (s : Submission) (child : Child) : Child :=
  let p := s.prepared child
  if p.2 then submitChild p.1 s.now (s.outcome.map FillReport.result) else p.1

/-- The report that the call brings back. -/
def report (s : Submission) (child : Child) : Option FillReport :=
  if (s.prepared child).2 then s.outcome.toOption else none

end Submission

/-- The children after a call. -/
def submitStep (children : List Child) (s : Submission) : List Child :=
  children.modify s.idx s.apply

/-- The report of a call, with the child it is about. -/
def reported (children : List Child) (s : Submission) : List (ℕ × FillReport) :=
  ((children[s.idx]?.bind s.report).map fun r => (s.idx, r)).toList

/-- All reports of a sequence of calls. -/
def reports (children : List Child) (subs : List Submission) : List (ℕ × FillReport) :=
  outputs submitStep reported children subs

/-- The aggregate is what the submissions reported. -/
structure FillsExact (children : List Child) (subs : List Submission) : Prop where
  size : (aggregateChildrenFills (subs.foldl submitStep children)).filledSize =
    ((reports children subs).map fun r => r.2.filledSize).sum
  notional : (aggregateChildrenFills (subs.foldl submitStep children)).filledNotional =
    ((reports children subs).map fun r => r.2.filledSize * r.2.averageFillPrice).sum

/-- Two fills of one child are at one price. -/
def OnePrice (r s : ℕ × FillReport) : Prop :=
  r.1 = s.1 → 0 < r.2.filledSize → 0 < s.2.filledSize →
    r.2.averageFillPrice = s.2.averageFillPrice

/-! ## One call -/

/-- What a child has filled, and at what price. -/
def Child.fills (c : Child) : ℚ × Option ℚ := (c.filledSize, c.averageFillPrice)

/-- What a report does to that: it adds the reported size, and where that is positive the reported
price takes the place of the old one. -/
def FillReport.absorb (r : FillReport) (f : ℚ × Option ℚ) : ℚ × Option ℚ :=
  if 0 < r.filledSize then (max 0 f.1 + r.filledSize, some r.averageFillPrice) else f

lemma submitChild_fills (child : Child) (now : ℚ) (r : FillReport) :
    (submitChild child now (.ok r.result)).fills = r.absorb child.fills := by
  have hfill : max 0 r.filledSize = r.filledSize := max_eq_right r.nonneg
  rw [submitChild, FillReport.result, FillReport.absorb, Child.fills]
  simp only [Option.getD_some, hfill, r.pos, and_true]
  split_ifs <;> rfl

namespace Submission

/-- Cancelling and pricing a child anew leave its fills. -/
lemma prepared_fills (s : Submission) (child : Child) :
    (s.prepared child).1.fills = child.fills := by
  rw [prepared]
  cases s.kind with
  | initial => rfl
  | escalated esc side currentMid tickSize =>
    unfold escalateChildOrder escalatedChild
    cases esc with
    | none => rfl
    | some esc =>
      dsimp only
      split_ifs
      · rfl
      · rfl
      · cases esc.action <;> rfl
  | repriced newPrice tickSize =>
    unfold repriceChildOrder repricedChild
    split_ifs <;> rfl

/-- A call changes the fills of its child by the report that it brings back. -/
lemma apply_fills (s : Submission) (child : Child) :
    (s.apply child).fills = (s.report child).elim child.fills (·.absorb child.fills) := by
  have hkeep := s.prepared_fills child
  rw [apply, report]
  by_cases hplaced : (s.prepared child).2 = true
  · rw [if_pos hplaced, if_pos hplaced]
    cases s.outcome with
    | error text => exact hkeep
    | ok r =>
      rw [← hkeep]
      exact submitChild_fills _ _ _
  · rw [if_neg hplaced, if_neg hplaced]
    exact hkeep

end Submission

/-- What all children have filled. -/
def keptFills (children : List Child) : List (ℚ × Option ℚ) := children.map Child.fills

/-- A report is absorbed by its child. -/
def absorbAt (fills : List (ℚ × Option ℚ)) (r : ℕ × FillReport) : List (ℚ × Option ℚ) :=
  fills.modify r.1 r.2.absorb

variable {children : List Child} {fills : List (ℚ × Option ℚ)} {f : ℚ × Option ℚ}
  {rs : List (ℕ × FillReport)} {i : ℕ} {r : FillReport}

/-- A call brings no report and leaves all fills, or the report that it brings is absorbed. -/
lemma submitStep_cases (children : List Child) (s : Submission) :
    (reported children s = [] ∧ keptFills (submitStep children s) = keptFills children) ∨
      ∃ r f, reported children s = [(s.idx, r)] ∧ (keptFills children)[s.idx]? = some f ∧
        keptFills (submitStep children s) = absorbAt (keptFills children) (s.idx, r) := by
  unfold submitStep reported keptFills absorbAt
  cases hc : children[s.idx]? with
  | none =>
    refine .inl ⟨rfl, ?_⟩
    rw [List.modify_eq_self (by simpa using hc)]
  | some c =>
    have happly := s.apply_fills c
    have hmap : ∀ g : ℚ × Option ℚ → ℚ × Option ℚ, (s.apply c).fills = g c.fills →
        (children.modify s.idx s.apply).map Child.fills =
          (children.map Child.fills).modify s.idx g := by
      intro g hg
      refine List.ext_getElem? fun i => ?_
      simp only [List.getElem?_map, List.getElem?_modify]
      by_cases hi : s.idx = i
      · subst hi
        simp [hc, hg]
      · simp [hi]
    cases hr : s.report c with
    | none =>
      rw [hr] at happly
      refine .inl ⟨by simp [hr], ?_⟩
      rw [hmap id happly]
      refine List.ext_getElem? fun i => ?_
      simp
    | some r =>
      rw [hr] at happly
      exact .inr ⟨r, c.fills, by simp [hr], by simp [hc], hmap r.absorb happly⟩

/-! ## The record of the reports -/

/-- What is kept of the reports: whether a child was filled, and the price of one of the fills. -/
structure Recorded (fills : List (ℚ × Option ℚ)) (rs : List (ℕ × FillReport)) : Prop where
  nonneg : ∀ f ∈ fills, 0 ≤ f.1
  unfilled : ∀ i f, fills[i]? = some f → f.1 = 0 → ∀ r ∈ rs, r.1 = i → r.2.filledSize = 0
  price : ∀ i f, fills[i]? = some f → 0 < f.1 →
    ∃ r ∈ rs, r.1 = i ∧ 0 < r.2.filledSize ∧ f.2 = some r.2.averageFillPrice

/-- What a child adds to the notional. -/
def worth (f : ℚ × Option ℚ) : ℚ := f.1 * f.2.getD 0

namespace Recorded

lemma absorb (h : Recorded fills rs) (hf : fills[i]? = some f) :
    Recorded (absorbAt fills (i, r)) (rs ++ [(i, r)]) := by
  have hfilled : 0 ≤ f.1 := h.nonneg f (List.mem_of_getElem? hf)
  have hnonneg : 0 ≤ (r.absorb f).1 := by
    rw [FillReport.absorb]
    split
    · exact add_nonneg (le_max_left _ _) r.nonneg
    · exact hfilled
  -- what is kept of the child of the report, and of the others
  have hget : ∀ j g, (absorbAt fills (i, r))[j]? = some g →
      (j = i ∧ g = r.absorb f) ∨ (j ≠ i ∧ fills[j]? = some g) := by
    intro j g hg
    rw [absorbAt, List.getElem?_modify] at hg
    by_cases hj : i = j
    · subst hj
      rw [hf] at hg
      simp only [if_true, Option.map_eq_map, Option.map_some, Option.some.injEq] at hg
      exact .inl ⟨rfl, hg.symm⟩
    · exact .inr ⟨Ne.symm hj, by simpa [hj] using hg⟩
  refine ⟨fun g hg => ?_, fun j g hg hzero t ht htj => ?_, fun j g hg hpos => ?_⟩
  · obtain ⟨j, hj⟩ := List.getElem?_of_mem hg
    rcases hget j g hj with ⟨-, rfl⟩ | ⟨-, hold⟩
    · exact hnonneg
    · exact h.nonneg g (List.mem_of_getElem? hold)
  · rcases hget j g hg with ⟨rfl, rfl⟩ | ⟨hne, hold⟩
    · have hr : ¬ 0 < r.filledSize := by
        intro hr
        rw [FillReport.absorb, if_pos hr] at hzero
        have := le_max_left 0 f.1
        simp only at hzero
        linarith
      rw [FillReport.absorb, if_neg hr] at hzero
      rcases List.mem_append.1 ht with ht | ht
      · exact h.unfilled j f hf hzero t ht htj
      · rw [List.mem_singleton.1 ht]
        exact le_antisymm (not_lt.1 hr) r.nonneg
    · rcases List.mem_append.1 ht with ht | ht
      · exact h.unfilled j g hold hzero t ht htj
      · rw [List.mem_singleton.1 ht] at htj
        exact absurd htj.symm hne
  · rcases hget j g hg with ⟨rfl, rfl⟩ | ⟨-, hold⟩
    · by_cases hr : 0 < r.filledSize
      · refine ⟨(j, r), by simp, rfl, hr, ?_⟩
        rw [FillReport.absorb, if_pos hr]
      · rw [FillReport.absorb, if_neg hr] at hpos ⊢
        obtain ⟨t, ht, hrest⟩ := h.price j f hf hpos
        exact ⟨t, List.mem_append_left _ ht, hrest⟩
    · obtain ⟨t, ht, hrest⟩ := h.price j g hold hpos
      exact ⟨t, List.mem_append_left _ ht, hrest⟩

/-- The size of a child grows by what is reported. -/
lemma size_absorb (h : Recorded fills rs) (hf : fills[i]? = some f) :
    (r.absorb f).1 = f.1 + r.filledSize := by
  have hfilled : 0 ≤ f.1 := h.nonneg f (List.mem_of_getElem? hf)
  rw [FillReport.absorb]
  split
  · rw [max_eq_right hfilled]
  · next hr => rw [le_antisymm (not_lt.1 hr) r.nonneg, add_zero]

/-- While each child is filled at one price, a report is at that price exactly when the notional
of its child grows by what is reported. -/
lemma worth_iff (h : Recorded fills rs) (hpairs : rs.Pairwise OnePrice) (hf : fills[i]? = some f) :
    worth (r.absorb f) = worth f + r.filledSize * r.averageFillPrice ↔
      ∀ t ∈ rs, OnePrice t (i, r) := by
  have hfilled : 0 ≤ f.1 := h.nonneg f (List.mem_of_getElem? hf)
  have : Std.Symm OnePrice := ⟨fun t u htu heq hu ht => (htu heq.symm ht hu).symm⟩
  have hall := hpairs.forall_of_forall fun t _ _ _ _ => rfl
  unfold worth FillReport.absorb
  by_cases hr : 0 < r.filledSize
  · rw [if_pos hr]
    simp only [max_eq_right hfilled, Option.getD_some]
    rcases hfilled.eq_or_lt with hzero | hpos
    · -- the first fill of the child
      refine ⟨fun _ t ht hti hsize => ?_, fun _ => by rw [← hzero]; ring⟩
      exact absurd (h.unfilled i f hf hzero.symm t ht hti) hsize.ne'
    · obtain ⟨u, hu, hui, husize, hprice⟩ := h.price i f hf hpos
      rw [hprice, Option.getD_some]
      constructor
      · intro heq t ht hti htsize _
        have hsame : f.1 * r.averageFillPrice = f.1 * u.2.averageFillPrice := by linarith
        rw [hall ht hu (hti.trans hui.symm) htsize husize]
        exact (mul_left_cancel₀ hpos.ne' hsame).symm
      · intro hone
        have hsame := hone u hu hui husize hr
        simp only at hsame
        rw [hsame]
        ring
  · rw [if_neg hr, le_antisymm (not_lt.1 hr) r.nonneg, zero_mul, add_zero]
    refine ⟨fun _ t _ _ _ hpos => absurd hpos ?_, fun _ => rfl⟩
    exact hr

end Recorded

/-! ## Aggregation -/

/-- Elements that add nothing may be left out of a sum. -/
lemma sum_filter_of_zero {α : Type} {p : α → Bool} {g : α → ℚ} {xs : List α}
    (h : ∀ x ∈ xs, p x = false → g x = 0) : ((xs.filter p).map g).sum = (xs.map g).sum := by
  induction xs with
  | nil => rfl
  | cons x xs ih =>
    have hrest := ih fun y hy => h y (List.mem_cons_of_mem _ hy)
    cases hp : p x with
    | true => rw [List.filter_cons_of_pos hp, List.map_cons, List.map_cons, List.sum_cons,
        List.sum_cons, hrest]
    | false => rw [List.filter_cons_of_neg (by simp [hp]), List.map_cons, List.sum_cons,
        h x List.mem_cons_self hp, zero_add, hrest]

/-- A sum over a list of which one element changes. -/
lemma sum_map_modify {α : Type} {xs : List α} {i : ℕ} {x : α} (hx : xs[i]? = some x) (h : α → α)
    (g : α → ℚ) : ((xs.modify i h).map g).sum = (xs.map g).sum + (g (h x) - g x) := by
  induction xs generalizing i with
  | nil => cases hx
  | cons y ys ih =>
    cases i with
    | zero =>
      cases hx
      simp only [List.modify_zero_cons, List.map_cons, List.sum_cons]
      ring
    | succ i =>
      simp only [List.modify_succ_cons, List.map_cons, List.sum_cons, ih (by simpa using hx)]
      ring

namespace Recorded

lemma filledSize_eq_zero {c : Child} (h : Recorded (keptFills children) rs) (hc : c ∈ children)
    (hnot : decide (0 < c.filledSize) = false) : c.filledSize = 0 :=
  le_antisymm (not_lt.1 (of_decide_eq_false hnot))
    (h.nonneg c.fills (List.mem_map.2 ⟨c, hc, rfl⟩))

lemma aggregate_filledSize (h : Recorded (keptFills children) rs) :
    (aggregateChildrenFills children).filledSize = ((keptFills children).map Prod.fst).sum := by
  rw [keptFills, List.map_map]
  exact sum_filter_of_zero fun c hc hnot => h.filledSize_eq_zero hc hnot

/-- A child that was filled is booked at a reported price, so its own price does not count. -/
lemma aggregate_filledNotional (h : Recorded (keptFills children) rs) :
    (aggregateChildrenFills children).filledNotional = ((keptFills children).map worth).sum := by
  have hbooked : (children.map fun c => c.filledSize * c.bookedPrice) =
      (keptFills children).map worth := by
    rw [keptFills, List.map_map]
    refine List.map_congr_left fun c hc => ?_
    obtain ⟨i, hi⟩ := List.getElem?_of_mem hc
    have hfills : (keptFills children)[i]? = some c.fills := by simp [keptFills, hi]
    show c.filledSize * c.bookedPrice = c.filledSize * c.averageFillPrice.getD 0
    rcases (h.nonneg c.fills (List.mem_of_getElem? hfills)).eq_or_lt with hzero | hpos
    · rw [show c.filledSize = 0 from hzero.symm, zero_mul, zero_mul]
    · obtain ⟨r, -, -, -, hprice⟩ := h.price i c.fills hfills hpos
      have hprice' : c.averageFillPrice = some r.2.averageFillPrice := hprice
      rw [Child.bookedPrice, hprice', Option.getD_some]
      simp only [if_neg (not_le.2 r.2.pos)]
  rw [← hbooked]
  exact sum_filter_of_zero fun c hc hnot => by rw [h.filledSize_eq_zero hc hnot, zero_mul]

end Recorded

/-! ## Runs -/

/-- The children of a plan. -/
def plannedChildren (plans : List ChildPlan) (exitId : String) : List Child :=
  plans.map fun plan => childPlanToRecord plan exitId

/-- The children after a sequence of calls. -/
def submitAll (children : List Child) (subs : List Submission) : List Child :=
  subs.foldl submitStep children

section
variable (plans : List ChildPlan) (exitId : String)

lemma recorded_planned : Recorded (keptFills (plannedChildren plans exitId)) [] := by
  have hall : ∀ f ∈ keptFills (plannedChildren plans exitId), f = (0, none) := by
    intro f hf
    obtain ⟨c, hc, rfl⟩ := List.mem_map.1 hf
    obtain ⟨plan, -, rfl⟩ := List.mem_map.1 hc
    rfl
  refine ⟨fun f hf => (hall f hf).symm ▸ le_refl _, fun i f _ _ r hr => absurd hr List.not_mem_nil,
    fun i f hf hpos => ?_⟩
  rw [hall f (List.mem_of_getElem? hf)] at hpos
  exact absurd hpos (lt_irrefl 0)

lemma submitAll_snoc (children : List Child) (subs : List Submission) (s : Submission) :
    submitAll children (subs ++ [s]) = submitStep (submitAll children subs) s :=
  List.foldl_append

lemma reports_snoc (children : List Child) (subs : List Submission) (s : Submission) :
    reports children (subs ++ [s]) =
      reports children subs ++ reported (submitAll children subs) s := by
  rw [reports, outputs_append, outputs, outputs, List.append_nil]
  rfl

lemma recorded_run (subs : List Submission) :
    Recorded (keptFills (submitAll (plannedChildren plans exitId) subs))
      (reports (plannedChildren plans exitId) subs) := by
  induction subs using List.reverseRecOn with
  | nil => exact recorded_planned plans exitId
  | append_singleton subs s ih =>
    rw [reports_snoc, submitAll_snoc]
    rcases submitStep_cases (submitAll (plannedChildren plans exitId) subs) s with
      ⟨hnone, hsame⟩ | ⟨r, f, hone, hf, habsorb⟩
    · rw [hnone, List.append_nil]
      exact hsame ▸ ih
    · rw [hone]
      exact habsorb ▸ ih.absorb hf

/-- The sizes add up. -/
lemma sizes_run (subs : List Submission) :
    ((keptFills (submitAll (plannedChildren plans exitId) subs)).map Prod.fst).sum =
      ((reports (plannedChildren plans exitId) subs).map fun r => r.2.filledSize).sum := by
  induction subs using List.reverseRecOn with
  | nil =>
    simp [submitAll, keptFills, plannedChildren, reports, outputs, Child.fills, childPlanToRecord,
      Function.comp_def]
  | append_singleton subs s ih =>
    have hrecorded := recorded_run plans exitId subs
    rw [reports_snoc, submitAll_snoc]
    rcases submitStep_cases (submitAll (plannedChildren plans exitId) subs) s with
      ⟨hnone, hsame⟩ | ⟨r, f, hone, hf, habsorb⟩
    · rw [hnone, List.append_nil, ← ih]
      exact congrArg (fun fills => (fills.map Prod.fst).sum) hsame
    · rw [hone, List.map_append, List.sum_append, ← ih]
      rw [habsorb, absorbAt, sum_map_modify hf, hrecorded.size_absorb hf]
      simp

/-- So only the notional is in question. -/
lemma fillsExact_iff_worth (subs : List Submission) :
    FillsExact (plannedChildren plans exitId) subs ↔
      ((keptFills (submitAll (plannedChildren plans exitId) subs)).map worth).sum =
        ((reports (plannedChildren plans exitId) subs).map fun r =>
          r.2.filledSize * r.2.averageFillPrice).sum := by
  have hrecorded := recorded_run plans exitId subs
  refine ⟨fun h => hrecorded.aggregate_filledNotional.symm.trans h.notional, fun h => ⟨?_, ?_⟩⟩
  · exact hrecorded.aggregate_filledSize.trans (sizes_run plans exitId subs)
  · exact hrecorded.aggregate_filledNotional.trans h

/-- **The fills of an exit.**  After every one of a sequence of submissions the aggregate has the
size and the notional that the submissions reported, exactly when no child reports fills at two
prices. -/
theorem fillsExact_iff (subs : List Submission) :
    (∀ pre, pre <+: subs → FillsExact (plannedChildren plans exitId) pre) ↔
      (reports (plannedChildren plans exitId) subs).Pairwise OnePrice := by
  induction subs using List.reverseRecOn with
  | nil =>
    refine ⟨fun _ => List.Pairwise.nil, fun _ pre hpre => ?_⟩
    rw [List.prefix_nil.1 hpre, fillsExact_iff_worth]
    simp [submitAll, keptFills, plannedChildren, reports, outputs, worth, Child.fills,
      childPlanToRecord, Function.comp_def]
  | append_singleton subs s ih =>
    have hrecorded := recorded_run plans exitId subs
    have hsplit : (∀ pre, pre <+: subs ++ [s] → FillsExact (plannedChildren plans exitId) pre) ↔
        FillsExact (plannedChildren plans exitId) (subs ++ [s]) ∧
          ∀ pre, pre <+: subs → FillsExact (plannedChildren plans exitId) pre := by
      simp only [List.prefix_concat_iff, forall_eq_or_imp]
    rw [hsplit, ih, reports_snoc, fillsExact_iff_worth, reports_snoc, submitAll_snoc]
    rcases submitStep_cases (submitAll (plannedChildren plans exitId) subs) s with
      ⟨hnone, hsame⟩ | ⟨r, f, hone, hf, habsorb⟩
    · rw [hnone, List.append_nil]
      refine ⟨And.right, fun hpairs => ⟨?_, hpairs⟩⟩
      have hbefore := (fillsExact_iff_worth plans exitId subs).1
        (ih.2 hpairs subs (List.prefix_refl _))
      rw [← hbefore]
      exact congrArg (fun fills => (fills.map worth).sum) hsame
    · rw [hone, List.pairwise_append, and_comm]
      refine and_congr_right fun hpairs => ?_
      have hbefore := (fillsExact_iff_worth plans exitId subs).1
        (ih.2 hpairs subs (List.prefix_refl _))
      rw [habsorb, absorbAt, sum_map_modify hf, hbefore, List.map_append, List.sum_append]
      simp only [List.pairwise_singleton, List.mem_singleton, forall_eq, true_and, List.map_cons,
        List.map_nil, List.sum_singleton, add_right_inj, sub_eq_iff_eq_add']
      exact hrecorded.worth_iff hpairs hf

end

/-- A child for ten shares at one half. -/
def halfChild : ChildPlan where
  index := 0
  price := 1 / 2
  size := 10
  tif := .gtc
  postOnly := true
  distributionBucket := "lvl0"

/-- A report of five shares. -/
def fiveAt (price : ℚ) (pos : 0 < price) : FillReport where
  status := "open"
  filledSize := 5
  averageFillPrice := price
  nonneg := by norm_num
  pos := pos

/-- Five shares are filled, and after an escalation five more at another price. -/
def filledTwice : List Submission :=
  [{ idx := 0, kind := .initial, now := 0, outcome := .ok (fiveAt (1 / 2) (by norm_num)) },
    { idx := 0, kind := .escalated (some {}) .sell (some (2 / 5)) (1 / 100), now := 6,
      outcome := .ok (fiveAt (2 / 5) (by norm_num)) }]

/-- All ten shares are booked at the price of the last five. -/
theorem filledTwice_misbooked :
    (aggregateChildrenFills
        (submitAll (plannedChildren [halfChild] "e") filledTwice)).filledNotional = 4 ∧
      ((reports (plannedChildren [halfChild] "e") filledTwice).map fun r =>
        r.2.filledSize * r.2.averageFillPrice).sum = 9 / 2 ∧
      ¬ FillsExact (plannedChildren [halfChild] "e") filledTwice := by
  have hbooked : (aggregateChildrenFills (submitAll (plannedChildren [halfChild] "e")
      filledTwice)).filledNotional = 4 := by
    decide +kernel
  have hreported : ((reports (plannedChildren [halfChild] "e") filledTwice).map fun r =>
      r.2.filledSize * r.2.averageFillPrice).sum = 9 / 2 := by
    decide +kernel
  refine ⟨hbooked, hreported, fun h => ?_⟩
  have hequal := h.notional
  rw [hreported, ← submitAll, hbooked] at hequal
  norm_num at hequal

end Evosport.Orchestrator
