/-
# Repricing and the spacing of a ladder

A reprice is meant to put a child at the new mid plus its planned offset from the trigger price.
`run_exit_pass` reads the offset off the child's current price, which the reprice before has
already moved, against a trigger price that stays.  So the offset that one reprice reads contains
the drift of all the reprices before it.

In a run without escalations whose cancellations succeed, the price of a child is the fold of its
reprices (`price_run`).  Every reprice of the run meets the planned offset exactly when the drift
of each earlier reprice is lost in the clamp of the next one (`atOffset_iff`), which is a condition
on the mids and ticks of consecutive reprices (`driftsLost_iff`).
-/
import Mathlib.Tactic.Abel
import Evosport.Lib.Run
import Evosport.Orchestrator.LadderExposure

namespace Evosport.Orchestrator

open Backtest Backtest.ExitPlan Lib

/-! ## What a reprice does to a price -/

/-- The mid and the tick size of a reprice. -/
structure Reprice where
  mid : ℚ
  tickSize : ℚ
  deriving DecidableEq, Repr

/-- The price that a reprice makes of a price. -/
def slide (triggerPrice price : ℚ) (r : Reprice) : ℚ :=
  clampBinaryPrice (r.mid + (price - (if triggerPrice = 0 then r.mid else triggerPrice))) r.tickSize

/-- The price at the planned offset from the mid of a reprice. -/
def planAt (triggerPrice planned : ℚ) (r : Reprice) : ℚ :=
  clampBinaryPrice (r.mid + (planned - triggerPrice)) r.tickSize

/-- From a child at `carried`, every reprice reads an offset that clamps as the planned one does:
the drift of the mid at the reprice before is lost in the tick or in the price bounds. -/
def DriftsLost (triggerPrice planned : ℚ) : ℚ → List Reprice → Prop
  | _, [] => True
  | carried, r :: rs =>
    slide triggerPrice carried r = planAt triggerPrice planned r ∧
      DriftsLost triggerPrice planned (planAt triggerPrice planned r) rs

instance DriftsLost.instDecidable (triggerPrice planned : ℚ) :
    ∀ (carried : ℚ) (rs : List Reprice), Decidable (DriftsLost triggerPrice planned carried rs)
  | _, [] => inferInstanceAs (Decidable True)
  | _, r :: rs =>
    haveI := instDecidable triggerPrice planned (planAt triggerPrice planned r) rs
    inferInstanceAs (Decidable (_ ∧ _))

/-- A first reprice keeps the planned offset. -/
lemma slide_planned {triggerPrice : ℚ} (h : triggerPrice ≠ 0) (planned : ℚ) (r : Reprice) :
    slide triggerPrice planned r = planAt triggerPrice planned r := by
  simp only [slide, planAt, if_neg h]

/-- The drift that one reprice leaves behind is lost in the next one: the two prices below differ by
the drift of `r` from the trigger price before they are clamped. -/
def DriftLost (triggerPrice planned : ℚ) (r r' : Reprice) : Prop :=
  clampBinaryPrice
      (r'.mid + (clampBinaryPrice (r.mid + (planned - triggerPrice)) r.tickSize - triggerPrice))
      r'.tickSize =
    clampBinaryPrice (r'.mid + (planned - triggerPrice)) r'.tickSize

/-- With a trigger price, the condition is one on the mids and ticks of consecutive reprices. -/
lemma driftsLost_iff {triggerPrice : ℚ} (h : triggerPrice ≠ 0) (planned : ℚ) (rs : List Reprice) :
    DriftsLost triggerPrice planned planned rs ↔ rs.IsChain (DriftLost triggerPrice planned) := by
  have hchain : ∀ (r : Reprice) (rs : List Reprice),
      DriftsLost triggerPrice planned (planAt triggerPrice planned r) rs ↔
        (r :: rs).IsChain (DriftLost triggerPrice planned) := by
    intro r rs
    induction rs generalizing r with
    | nil => simp [DriftsLost]
    | cons r' rs ih =>
      rw [DriftsLost, ih, List.isChain_cons_cons, slide, planAt, planAt, if_neg h]
      exact Iff.rfl
  cases rs with
  | nil => simp [DriftsLost]
  | cons r rs =>
    rw [DriftsLost, hchain]
    exact and_iff_right (slide_planned h planned r)

/-- Where neither clamp changes anything, the drift is lost only if there was none. -/
lemma driftLost_iff_of_free {triggerPrice planned : ℚ} {r r' : Reprice}
    (hfirst : clampBinaryPrice (r.mid + (planned - triggerPrice)) r.tickSize =
      r.mid + (planned - triggerPrice))
    (hmoved : clampBinaryPrice (r'.mid + (r.mid + (planned - triggerPrice) - triggerPrice))
      r'.tickSize = r'.mid + (r.mid + (planned - triggerPrice) - triggerPrice))
    (hplanned : clampBinaryPrice (r'.mid + (planned - triggerPrice)) r'.tickSize =
      r'.mid + (planned - triggerPrice)) :
    DriftLost triggerPrice planned r r' ↔ r.mid = triggerPrice := by
  rw [DriftLost, hfirst, hmoved, hplanned]
  constructor
  · intro heq
    linarith
  · intro heq
    rw [heq]
    ring

/-- The last reprice is one more condition, on the price that all of them carry. -/
lemma driftsLost_snoc (triggerPrice planned carried : ℚ) (rs : List Reprice) (r : Reprice) :
    DriftsLost triggerPrice planned carried (rs ++ [r]) ↔
      DriftsLost triggerPrice planned carried rs ∧
        slide triggerPrice (rs.foldl (slide triggerPrice) carried) r =
          planAt triggerPrice planned r := by
  induction rs generalizing carried with
  | nil => simp [DriftsLost]
  | cons r' rs ih =>
    rw [List.cons_append, DriftsLost, DriftsLost, ih, List.foldl_cons, and_assoc]
    refine and_congr_right fun hslide => ?_
    rw [hslide]

/-- Where no clamp changes a price, the drifts of all reprices add up. -/
lemma foldl_slide_eq {triggerPrice : ℚ} {rs : List Reprice} {price : ℚ}
    (hfree : ∀ pre r, pre ++ [r] <+: rs →
      slide triggerPrice (pre.foldl (slide triggerPrice) price) r =
        r.mid + (pre.foldl (slide triggerPrice) price - triggerPrice)) :
    rs.foldl (slide triggerPrice) price =
      price + (rs.map fun r => r.mid - triggerPrice).sum := by
  induction rs using List.reverseRecOn with
  | nil => simp
  | append_singleton rs r ih =>
    have hrs := ih fun pre r' hpre => hfree pre r' (hpre.trans (List.prefix_append rs [r]))
    rw [List.foldl_append, List.foldl_cons, List.foldl_nil, hfree rs r (List.prefix_refl _), hrs]
    simp only [List.map_append, List.map_cons, List.map_nil, List.sum_append, List.sum_singleton]
    abel

namespace PendingExit

variable {x : PendingExit} {idx : ℕ}

/-- The price of a child. -/
def priceAt (x : PendingExit) (idx : ℕ) : Option ℚ := x.legs[idx]?.map fun l => l.child.price

/-! ## What leaves a price alone -/

lemma priceAt_updateLeg (x : PendingExit) (i idx : ℕ) {f : Leg → Leg}
    (h : ∀ l, (f l).child.price = l.child.price) :
    (x.updateLeg i f).priceAt idx = x.priceAt idx := by
  simp only [priceAt, updateLeg, List.getElem?_modify]
  split
  · cases x.legs[idx]? <;> simp [h]
  · simp

lemma price_submitChildOrder (child : Child) (now : ℚ) (r : PlaceReply) :
    (submitChildOrder child now r).price = child.price := by
  rw [submitChildOrder]
  dsimp only
  split
  · rfl
  · split_ifs <;> rfl

lemma price_applySnapshot (child : Child) (snap : OrderSnapshot) :
    (applySnapshot child snap).price = child.price := by
  rw [applySnapshot]
  dsimp only
  split_ifs <;> rfl

lemma priceAt_move (x : PendingExit) (m : VenueMove) (idx : ℕ) :
    (x.move m).priceAt idx = x.priceAt idx := by
  cases m with
  | fill i amount => exact priceAt_updateLeg x i idx fun _ => rfl
  | lapse i amount => exact priceAt_updateLeg x i idx fun _ => rfl

lemma priceAt_moves (x : PendingExit) (ms : List VenueMove) (idx : ℕ) :
    (ms.foldl move x).priceAt idx = x.priceAt idx := by
  induction ms generalizing x with
  | nil => rfl
  | cons m ms ih => exact (ih (x.move m)).trans (priceAt_move x m idx)

lemma priceAt_submit (x : PendingExit) (now : ℚ) (i idx : ℕ) (r : PlaceReply) :
    (x.submit now i r).priceAt idx = x.priceAt idx :=
  priceAt_updateLeg x i idx fun l => price_submitChildOrder l.child now r

lemma priceAt_cancel (x : PendingExit) (i idx : ℕ) (r : CancelReply) :
    (x.cancel i r).priceAt idx = x.priceAt idx := by
  refine priceAt_updateLeg x i idx fun l => ?_
  split <;> rfl

lemma priceAt_rewrite (x : PendingExit) (i idx : ℕ) (f : Child → Child) :
    (x.rewrite i f).priceAt idx =
      if i = idx then x.legs[idx]?.map (fun l => (f l.child).price) else x.priceAt idx := by
  simp only [priceAt, rewrite, List.getElem?_modify]
  split
  · cases x.legs[idx]? <;> simp
  · simp

lemma priceAt_submitStage (a : PassArgs) (v : PassContacts) (x : PendingExit) (idx : ℕ) :
    (x.submitStage a v).priceAt idx = x.priceAt idx := by
  rw [submitStage]
  generalize x.toSubmit a = idxs
  induction idxs generalizing x with
  | nil => rfl
  | cons i idxs ih =>
    rw [List.foldl_cons, ih, submitStep, priceAt_submit, priceAt_moves]

/-! ## The trigger price stays -/

lemma triggerPrice_moves (x : PendingExit) (ms : List VenueMove) :
    (ms.foldl move x).triggerPrice = x.triggerPrice := by
  induction ms generalizing x with
  | nil => rfl
  | cons m ms ih =>
    rw [List.foldl_cons, ih]
    cases m <;> rfl

lemma triggerPrice_submitStage (a : PassArgs) (v : PassContacts) (x : PendingExit) :
    (x.submitStage a v).triggerPrice = x.triggerPrice := by
  rw [submitStage]
  generalize x.toSubmit a = idxs
  induction idxs generalizing x with
  | nil => rfl
  | cons i idxs ih =>
    rw [List.foldl_cons, ih]
    exact triggerPrice_moves x _

lemma triggerPrice_repriceStep (a : PassArgs) (v : PassContacts) (mid : ℚ) (x : PendingExit)
    (i : ℕ) : (x.repriceStep a v mid i).triggerPrice = x.triggerPrice := by
  have hcancel : (x.repriceCancel a v mid i).1.triggerPrice = x.triggerPrice := by
    rw [repriceCancel]
    dsimp only
    split
    · split
      · exact triggerPrice_moves x _
      · rw [triggerPrice_moves]
        exact triggerPrice_moves x _
    · rfl
  unfold repriceStep
  dsimp only
  split
  · exact hcancel
  · exact hcancel

/-! ## One pass -/

/-- The reprice of a child in a pass that escalates nothing. -/
def repricing (a : PassArgs) (v : PassContacts) (x : PendingExit) (idx : ℕ) : List Reprice :=
  match a.currentMid with
  | some mid =>
    if 0 < mid ∧ idx ∈ (x.submitStage a v).toReprice a mid then [⟨mid, a.tickSize⟩] else []
  | none => []

/-- The pass escalates nothing, and the venue acknowledges the cancellation of the child. -/
def PassCalm (idx : ℕ) (a : PassArgs) (v : PassContacts) (x : PendingExit) : Prop :=
  (x.submitStage a v).toEscalate a = [] ∧ (v.reprice idx).cancel = .acknowledged

lemma priceAt_repriceStep_of_ne (a : PassArgs) (v : PassContacts) (mid : ℚ) (x : PendingExit)
    {i : ℕ} (hne : i ≠ idx) : (x.repriceStep a v mid i).priceAt idx = x.priceAt idx := by
  have hcancel : (x.repriceCancel a v mid i).1.priceAt idx = x.priceAt idx := by
    rw [repriceCancel]
    dsimp only
    split
    · split
      · rw [priceAt_rewrite, if_neg hne, priceAt_cancel, priceAt_moves]
      · rw [priceAt_moves, priceAt_rewrite, if_neg hne, priceAt_cancel, priceAt_moves]
    · rfl
  unfold repriceStep
  dsimp only
  split
  · rw [priceAt_submit, hcancel]
  · exact hcancel

/-- Repricing a child slides its price. -/
lemma priceAt_repriceStep (a : PassArgs) (v : PassContacts) (mid : ℚ) (x : PendingExit)
    (hcancel : (v.reprice idx).cancel = .acknowledged) :
    (x.repriceStep a v mid idx).priceAt idx =
      (x.priceAt idx).map fun p => slide x.triggerPrice p ⟨mid, a.tickSize⟩ := by
  cases hleg : x.legs[idx]? with
  | none => simp [repriceStep, repriceCancel, priceAt, hleg]
  | some leg =>
    have hack : cancelChildOrder leg.child (v.reprice idx).cancel = true := by
      simp [cancelChildOrder, hcancel]
    -- the moves and the cancellation before the rewrite leave a leg there
    have hthere : ∃ l, (((v.reprice idx).before.foldl move x).cancel idx
        (v.reprice idx).cancel).legs[idx]? = some l := by
      have hprice := (priceAt_cancel ((v.reprice idx).before.foldl move x) idx idx
        (v.reprice idx).cancel).trans (priceAt_moves x _ idx)
      simp only [priceAt, hleg, Option.map_some] at hprice
      obtain ⟨l, hl, -⟩ := Option.map_eq_some_iff.1 hprice
      exact ⟨l, hl⟩
    obtain ⟨l, hl⟩ := hthere
    simp only [repriceStep, repriceCancel, hleg, hack, Bool.not_true, Bool.false_eq_true, if_false,
      if_true, priceAt_submit, priceAt_moves, priceAt_rewrite, hl, Option.map_some]
    simp only [priceAt, hleg, Option.map_some]
    rfl

/-- The reprices of a pass: each index is repriced once, and only the child's own matters. -/
lemma priceAt_foldl_repriceStep (a : PassArgs) (v : PassContacts) (mid : ℚ)
    (hcancel : (v.reprice idx).cancel = .acknowledged) {idxs : List ℕ} (hnodup : idxs.Nodup)
    (x : PendingExit) :
    (idxs.foldl (repriceStep a v mid) x).priceAt idx =
      if idx ∈ idxs then (x.priceAt idx).map fun p => slide x.triggerPrice p ⟨mid, a.tickSize⟩
      else x.priceAt idx := by
  induction idxs generalizing x with
  | nil => rfl
  | cons i idxs ih =>
    obtain ⟨hnot, hnodup⟩ := List.nodup_cons.1 hnodup
    rw [List.foldl_cons, ih hnodup, triggerPrice_repriceStep]
    by_cases hi : i = idx
    · subst hi
      rw [if_neg hnot, if_pos List.mem_cons_self, priceAt_repriceStep a v mid x hcancel]
    · rw [priceAt_repriceStep_of_ne a v mid x hi]
      have hmem : idx ∈ i :: idxs ↔ idx ∈ idxs := by
        rw [List.mem_cons]
        exact or_iff_right (Ne.symm hi)
      simp only [hmem]

lemma nodup_toReprice (a : PassArgs) (mid : ℚ) (x : PendingExit) : (x.toReprice a mid).Nodup := by
  refine List.Nodup.sublist (List.take_sublist _ _) ?_
  rw [pickChildrenToReprice]
  split
  · exact List.nodup_nil
  · split
    · exact List.nodup_nil
    · exact nodup_indexesOf _ _

/-- A calm pass moves the price of a child by its reprice, if there is one. -/
lemma priceAt_runExitPass {a : PassArgs} {v : PassContacts} (h : PassCalm idx a v x) :
    (x.runExitPass a v).priceAt idx =
      (x.priceAt idx).map fun p => (x.repricing a v idx).foldl (slide x.triggerPrice) p := by
  obtain ⟨hquiet, hcancel⟩ := h
  have hescalate : (x.submitStage a v).escalateStage a v = x.submitStage a v := by
    rw [escalateStage, hquiet, List.foldl_nil]
  rw [runExitPass, hescalate, repriceStage, repricing]
  cases a.currentMid with
  | none => simp [priceAt_submitStage]
  | some mid =>
    by_cases hmid : 0 < mid
    · simp only [hmid, true_and, if_true]
      rw [priceAt_foldl_repriceStep a v mid hcancel (nodup_toReprice a mid _),
        priceAt_submitStage, triggerPrice_submitStage]
      split <;> simp
    · simp [hmid, priceAt_submitStage]

lemma triggerPrice_runExitPass {a : PassArgs} {v : PassContacts} (h : PassCalm idx a v x) :
    (x.runExitPass a v).triggerPrice = x.triggerPrice := by
  rw [runExitPass, escalateStage, h.1, List.foldl_nil, repriceStage]
  have hfold : ∀ (mid : ℚ) (idxs : List ℕ) (y : PendingExit),
      (idxs.foldl (repriceStep a v mid) y).triggerPrice = y.triggerPrice := by
    intro mid idxs
    induction idxs with
    | nil => exact fun _ => rfl
    | cons i idxs ih => exact fun y => (ih _).trans (triggerPrice_repriceStep a v mid y i)
  cases a.currentMid with
  | none => exact triggerPrice_submitStage a v x
  | some mid =>
    dsimp only
    split
    · rw [hfold, triggerPrice_submitStage]
    · exact triggerPrice_submitStage a v x

/-! ## Runs -/

/-- The reprice of a child in one event. -/
def repriced (idx : ℕ) (x : PendingExit) : ExitEvent → List Reprice
  | .pass a v => x.repricing a v idx
  | .venue _ => []
  | .snapshot _ _ => []

/-- No pass escalates, and every cancellation of the child succeeds. -/
def Calm (idx : ℕ) (x : PendingExit) : ExitEvent → Prop
  | .pass a v => PassCalm idx a v x
  | .venue _ => True
  | .snapshot _ _ => True

/-- The reprices of a child in a run, in order. -/
def reprices (idx : ℕ) (x : PendingExit) (events : List ExitEvent) : List Reprice :=
  outputs step (repriced idx) x events

/-- After the event, a child that it repriced is at its planned offset from the mid. -/
def AtOffset (idx : ℕ) (planned : ℚ) (x : PendingExit) (e : ExitEvent) : Prop :=
  ∀ r ∈ repriced idx x e, (x.step e).priceAt idx = some (planAt x.triggerPrice planned r)

lemma triggerPrice_step {e : ExitEvent} (h : Calm idx x e) :
    (x.step e).triggerPrice = x.triggerPrice := by
  cases e with
  | pass a v => exact triggerPrice_runExitPass h
  | venue m => cases m <;> rfl
  | snapshot i snap => rfl

/-- One event moves the price of a child by its reprice. -/
lemma priceAt_step {e : ExitEvent} (h : Calm idx x e) :
    (x.step e).priceAt idx =
      (x.priceAt idx).map fun p => (repriced idx x e).foldl (slide x.triggerPrice) p := by
  cases e with
  | pass a v => exact priceAt_runExitPass h
  | venue m =>
    rw [step, priceAt_move, repriced]
    simp
  | snapshot i snap =>
    simp only [step, priceAt_rewrite, repriced, List.foldl_nil, Option.map_id']
    split
    · refine congrArg (fun f => x.legs[idx]?.map f) (funext fun l => ?_)
      split
      · exact price_applySnapshot l.child snap
      · rfl
    · rfl

/-- An event reprices a child at most once. -/
lemma repriced_cases (idx : ℕ) (x : PendingExit) (e : ExitEvent) :
    repriced idx x e = [] ∨ ∃ r, repriced idx x e = [r] := by
  cases e with
  | pass a v =>
    rw [repriced, repricing]
    split
    · split
      · exact .inr ⟨_, rfl⟩
      · exact .inl rfl
    · exact .inl rfl
  | venue m => exact .inl rfl
  | snapshot i snap => exact .inl rfl

lemma triggerPrice_run {events : List ExitEvent} (h : EveryStep step (Calm idx) x events) :
    (events.foldl step x).triggerPrice = x.triggerPrice :=
  h.invariant (I := fun y => y.triggerPrice = x.triggerPrice) rfl
    fun _ _ hy hcalm => (triggerPrice_step hcalm).trans hy

/-- The price of a child after a run is the fold of its reprices. -/
theorem price_run {events : List ExitEvent} (h : EveryStep step (Calm idx) x events) :
    (events.foldl step x).priceAt idx =
      (x.priceAt idx).map fun p => (reprices idx x events).foldl (slide x.triggerPrice) p := by
  induction events generalizing x with
  | nil => simp [reprices, outputs]
  | cons e events ih =>
    rw [List.foldl_cons, ih h.2, triggerPrice_step h.1, priceAt_step h.1, Option.map_map]
    simp only [reprices, outputs, List.foldl_append]
    rfl

/-- Where no clamp changes a price, a run moves a child by the sum of the drifts of all its
reprices, and not by the drift of the last one. -/
theorem price_run_of_free {events : List ExitEvent} {price : ℚ}
    (h : EveryStep step (Calm idx) x events) (hprice : x.priceAt idx = some price)
    (hfree : ∀ pre r, pre ++ [r] <+: reprices idx x events →
      slide x.triggerPrice (pre.foldl (slide x.triggerPrice) price) r =
        r.mid + (pre.foldl (slide x.triggerPrice) price - x.triggerPrice)) :
    (events.foldl step x).priceAt idx =
      some (price + ((reprices idx x events).map fun r => r.mid - x.triggerPrice).sum) := by
  rw [price_run h, hprice, Option.map_some, foldl_slide_eq hfree]

/-- From a child at `carried`: every reprice meets the planned offset exactly when the drifts are
lost.  The price that the next reprice reads is that of the run so far. -/
lemma atOffset_iff_of_carried {planned carried : ℚ} {events : List ExitEvent}
    (h : EveryStep step (Calm idx) x events) (hcarried : x.priceAt idx = some carried) :
    EveryStep step (AtOffset idx planned) x events ↔
      DriftsLost x.triggerPrice planned carried (reprices idx x events) := by
  induction events using List.reverseRecOn with
  | nil => exact Iff.rfl
  | append_singleton events e ih =>
    obtain ⟨hcalm, hlast⟩ := EveryStep.snoc.1 h
    have htrigger := triggerPrice_run hcalm
    have hprice := priceAt_step hlast
    rw [price_run hcalm, hcarried, Option.map_some, Option.map_some, htrigger] at hprice
    have hsplit : reprices idx x (events ++ [e]) =
        reprices idx x events ++ repriced idx (events.foldl step x) e := by
      rw [reprices, outputs_append]
      simp only [outputs, List.append_nil]
      rfl
    rw [EveryStep.snoc, ih hcalm, hsplit]
    rcases repriced_cases idx (events.foldl step x) e with hnone | ⟨r, hone⟩
    · -- no reprice: there is nothing to meet
      simp [AtOffset, hnone]
    · rw [hone, driftsLost_snoc]
      refine and_congr_right fun _ => ?_
      rw [hone, List.foldl_cons, List.foldl_nil] at hprice
      simp [AtOffset, hone, hprice, htrigger]

section Initial

variable (targetSize triggerPrice : ℚ) (side : Side) (plan : ExitPolicy) (tickSize : ℚ)
  (exitId : String) (policy : PolicySnapshot)

lemma priceAt_initial (idx : ℕ) :
    (initial targetSize triggerPrice side plan tickSize exitId policy).priceAt idx =
      (planChildren targetSize triggerPrice side plan tickSize .gtc true)[idx]?.map
        ChildPlan.price := by
  simp only [priceAt, initial, buildInitialChildren, List.getElem?_map, Option.map_map]
  rfl

/-- Take any planned exit and any run of passes, moves of the venue and snapshots in which no pass
escalates and the cancellations of the child succeed.  After each of its reprices the child is at
the clamped value of the mid plus its planned offset from the trigger price, exactly when from its
planned price on the drift that each reprice leaves behind is lost in the clamp of the next. -/
theorem atOffset_iff {idx : ℕ} {child : ChildPlan} (events : List ExitEvent)
    (hchild : (planChildren targetSize triggerPrice side plan tickSize .gtc true)[idx]? =
      some child)
    (hcalm : EveryStep step (Calm idx)
      (initial targetSize triggerPrice side plan tickSize exitId policy) events) :
    EveryStep step (AtOffset idx child.price)
        (initial targetSize triggerPrice side plan tickSize exitId policy) events ↔
      DriftsLost triggerPrice child.price child.price
        (reprices idx (initial targetSize triggerPrice side plan tickSize exitId policy)
          events) := by
  refine atOffset_iff_of_carried hcalm ?_
  rw [priceAt_initial, hchild]
  rfl

end Initial

/-! ## Two rungs -/

instance (idx : ℕ) (x : PendingExit) : ∀ e : ExitEvent, Decidable (Calm idx x e)
  | .pass a v => inferInstanceAs (Decidable ((x.submitStage a v).toEscalate a = [] ∧ _))
  | .venue _ => inferInstanceAs (Decidable True)
  | .snapshot _ _ => inferInstanceAs (Decidable True)

instance (idx : ℕ) (planned : ℚ) (x : PendingExit) (e : ExitEvent) :
    Decidable (AtOffset idx planned x e) :=
  inferInstanceAs (Decidable (∀ r ∈ repriced idx x e, _))

/-- Two rungs one tick apart below a trigger price of one half. -/
def twoRungs : ExitPolicy := { ladder := some { levels := 2 } }

/-- A pass at a venue that keeps every order and acknowledges every cancellation. -/
def calmPass (now mid : ℚ) : ExitEvent :=
  .pass { side := .sell, currentMid := some mid, now := now }
    { submit := fun _ => kept, escalate := fun _ => kept, reprice := fun _ => kept }

/-- The exit with two rungs, which reprices at a drift of one percent. -/
def twoRungExit : PendingExit :=
  initial 100 (1 / 2) .sell twoRungs ExitPlan.defaultTickSize "e"
    { repriceOnMidDriftBps := some 100 }

/-- The outer one of the two rungs. -/
def outerRung : ChildPlan where
  index := 1
  price := 49 / 100
  size := 50
  tif := .gtc
  postOnly := true
  distributionBucket := "lvl1"

/-- One reprice, from a mid of 0.50 to one of 0.55. -/
theorem twoRungs_atOffset :
    (planChildren 100 (1 / 2) .sell twoRungs ExitPlan.defaultTickSize .gtc true)[1]? =
      some outerRung ∧
    EveryStep step (Calm 1) twoRungExit [calmPass 0 (1 / 2), calmPass 10 (11 / 20)] ∧
    EveryStep step (AtOffset 1 outerRung.price) twoRungExit
      [calmPass 0 (1 / 2), calmPass 10 (11 / 20)] :=
  ⟨by decide +kernel, by decide +kernel, (atOffset_iff 100 (1 / 2) .sell twoRungs
    ExitPlan.defaultTickSize "e" { repriceOnMidDriftBps := some 100 } _ (by decide +kernel)
    (by decide +kernel)).2 (by decide +kernel)⟩

/-- A second reprice, to a mid of 0.60, puts the outer rung at 0.64 instead of 0.59. -/
theorem secondReprice_drifts :
    EveryStep step (Calm 1) twoRungExit
      [calmPass 0 (1 / 2), calmPass 10 (11 / 20), calmPass 20 (3 / 5)] ∧
    ¬ EveryStep step (AtOffset 1 outerRung.price) twoRungExit
      [calmPass 0 (1 / 2), calmPass 10 (11 / 20), calmPass 20 (3 / 5)] ∧
    ([calmPass 0 (1 / 2), calmPass 10 (11 / 20), calmPass 20 (3 / 5)].foldl step
      twoRungExit).priceAt 1 = some (64 / 100) ∧
    planAt (1 / 2) outerRung.price ⟨3 / 5, ExitPlan.defaultTickSize⟩ = 59 / 100 := by
  decide +kernel

end PendingExit

end Evosport.Orchestrator
