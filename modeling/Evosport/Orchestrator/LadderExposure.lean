/-
The exposure of a laddered exit.

Every leg of an exit sells at most the size of its child as long as its child is submitted again
only when nothing of it was filled or is outstanding: the resubmission is sized to the whole child,
not to what is left of it.  So an exit whose planned sizes add up to at most its target never sells
more than the target in a run without such resubmissions (`neverOversells_of_untouched`).  One
escalation of a child that was filled in part oversells (`escalated_oversells`).
-/
import Evosport.Lib.Run
import Evosport.Orchestrator.ExitExecutor
import Mathlib.Algebra.Order.BigOperators.Group.List
import Mathlib.Tactic.Linarith

namespace Evosport.Orchestrator

open Backtest Lib

/-! ## The plan -/

section Plan

open ExitPlan

private lemma enforceMinNotional_pos (minNotional targetSize : ℚ) (plans : List ChildPlan) :
    ∀ c ∈ (enforceMinNotional minNotional targetSize plans).1, 0 < c.size := by
  induction plans with
  | nil => simp [enforceMinNotional]
  | cons c cs ih =>
    rw [enforceMinNotional]
    dsimp only
    split
    · exact ih
    · next hpos =>
      obtain ⟨hprice, hsize⟩ := not_or.1 hpos
      have hnotional := mul_pos (not_le.1 hprice) (not_le.1 hsize)
      split
      · next hbelow =>
        split
        · have he9 : 0 < e9 := by norm_num [e9]
          have hmin : 0 < minNotional := by linarith
          exact List.forall_mem_cons.2 ⟨div_pos hmin (not_le.1 hprice), ih⟩
        · exact ih
      · exact List.forall_mem_cons.2 ⟨not_le.1 hsize, ih⟩

private lemma growFirst_pos {extra : ℚ} {plans : List ChildPlan} (hextra : 0 < extra)
    (h : ∀ c ∈ plans, 0 < c.size) : ∀ c ∈ growFirst extra plans, 0 < c.size := by
  cases plans with
  | nil => simp [growFirst]
  | cons c cs =>
    obtain ⟨hc, hcs⟩ := List.forall_mem_cons.1 h
    exact List.forall_mem_cons.2 ⟨add_pos hc hextra, hcs⟩

private lemma numbered_pos {extra : ℚ} {plans : List ChildPlan} (h : ∀ c ∈ plans, 0 < c.size) :
    ∀ c ∈ (if extra > 0 then growFirst extra plans else plans).mapIdx
      fun i c => { c with index := i }, 0 < c.size := by
  have hgrown : ∀ c ∈ (if extra > 0 then growFirst extra plans else plans), 0 < c.size := by
    split
    · next hextra => exact growFirst_pos hextra h
    · exact h
  intro c hc
  obtain ⟨i, hi, rfl⟩ := List.mem_mapIdx.1 hc
  have hsize := hgrown _ (List.getElem_mem hi)
  exact hsize

/-- Every planned child has a size. -/
lemma planChildren_size_pos (targetSize triggerPrice : ℚ) (side : Side) (plan : ExitPolicy)
    (tickSize : ℚ) (tif : Tif) (postOnly : Bool) :
    ∀ c ∈ planChildren targetSize triggerPrice side plan tickSize tif postOnly, 0 < c.size := by
  unfold planChildren
  split
  · simp
  · next hpos =>
    obtain ⟨htarget, -⟩ := not_or.1 hpos
    dsimp only
    split
    · split
      · simp
      · simpa using htarget
    · exact numbered_pos (enforceMinNotional_pos _ _ _)

end Plan

/-! ## One account -/

namespace Account

/-- No amount of an account is negative. -/
structure Nonneg (a : Account) : Prop where
  filled : 0 ≤ a.filled
  outstanding : 0 ≤ a.outstanding
  stale : 0 ≤ a.stale

variable {a : Account}

lemma nonneg_zero : zero.Nonneg := ⟨le_rfl, le_rfl, le_rfl⟩

lemma exposure_zero : zero.exposure = 0 := by
  simp [exposure, zero]

lemma Nonneg.fill (h : a.Nonneg) (amount : ℚ) : (a.fill amount).Nonneg := by
  obtain ⟨hfilled, hout, hstale⟩ := h
  have hcurrent : max 0 (min amount a.outstanding) ≤ a.outstanding :=
    max_le hout (min_le_right _ _)
  have hrest : max 0 (min (amount - max 0 (min amount a.outstanding)) a.stale) ≤ a.stale :=
    max_le hstale (min_le_right _ _)
  have hpos : 0 ≤ max 0 (min amount a.outstanding) := le_max_left _ _
  have hpos' : 0 ≤ max 0 (min (amount - max 0 (min amount a.outstanding)) a.stale) :=
    le_max_left _ _
  exact ⟨by simp only [Account.fill]; linarith, by simp only [Account.fill]; linarith,
    by simp only [Account.fill]; linarith⟩

/-- A fill turns outstanding shares into sold ones. -/
lemma exposure_fill (a : Account) (amount : ℚ) : (a.fill amount).exposure = a.exposure := by
  simp only [exposure, fill]
  ring

lemma Nonneg.lapse (h : a.Nonneg) (amount : ℚ) : (a.lapse amount).Nonneg := by
  refine ⟨h.filled, ?_, h.stale⟩
  have hle : max 0 (min amount a.outstanding) ≤ a.outstanding :=
    max_le h.outstanding (min_le_right _ _)
  simp only [Account.lapse]
  linarith

lemma exposure_lapse_le (a : Account) (amount : ℚ) : (a.lapse amount).exposure ≤ a.exposure := by
  have hpos : 0 ≤ max 0 (min amount a.outstanding) := le_max_left _ _
  simp only [exposure, lapse]
  linarith

lemma Nonneg.cancel (h : a.Nonneg) : a.cancel.Nonneg := ⟨h.filled, le_rfl, h.stale⟩

lemma Nonneg.exposure_cancel_le (h : a.Nonneg) : a.cancel.exposure ≤ a.exposure := by
  have hout := h.outstanding
  simp only [exposure, Account.cancel]
  linarith

lemma Nonneg.exposure_nonneg (h : a.Nonneg) : 0 ≤ a.exposure :=
  add_nonneg (add_nonneg h.filled h.outstanding) h.stale

lemma Nonneg.place (h : a.Nonneg) (size : ℚ) (r : PlaceReply) : (a.place size r).Nonneg :=
  ⟨add_nonneg h.filled (le_max_left _ _), le_max_left _ _, add_nonneg h.stale h.outstanding⟩

/-- An order is exposed by its size at most. -/
lemma exposure_place_le {size : ℚ} (hsize : 0 ≤ size) (a : Account) (r : PlaceReply) :
    (a.place size r).exposure ≤ a.exposure + size := by
  have hfilled : r.filled size ≤ size := max_le hsize (min_le_right _ _)
  have hresting : r.resting size ≤ size - r.filled size :=
    max_le (by linarith) (min_le_right _ _)
  simp only [exposure, place]
  linarith

end Account

/-! ## One leg -/

namespace Leg

/-- The leg sells at most the size of its child. -/
structure Within (l : Leg) : Prop where
  nonneg : l.account.Nonneg
  exposure : l.account.exposure ≤ l.child.size

/-- A planned child has not been at the venue. -/
def Fresh (l : Leg) : Prop :=
  l.child.status = .planned → l.account.exposure = 0 ∧ l.child.providerClobOrderId = none

end Leg

lemma size_submitChildOrder (child : Child) (now : ℚ) (r : PlaceReply) :
    (submitChildOrder child now r).size = child.size := by
  unfold submitChildOrder
  dsimp only
  split
  · rfl
  · split_ifs <;> rfl

lemma status_submitChildOrder (child : Child) (now : ℚ) (r : PlaceReply) :
    (submitChildOrder child now r).status ≠ .planned := by
  unfold submitChildOrder
  dsimp only
  split
  · simp
  · split_ifs <;> simp

lemma size_escalatedChild (child : Child) (esc : EscalationSpec) (side : Side)
    (currentMid : Option ℚ) (tickSize : ℚ) :
    (escalatedChild child esc side currentMid tickSize).size = child.size := by
  unfold escalatedChild
  dsimp only
  split <;> rfl

lemma size_applySnapshot (child : Child) (snap : OrderSnapshot) :
    (applySnapshot child snap).size = child.size := by
  unfold applySnapshot
  dsimp only
  split_ifs <;> rfl

lemma providerClobOrderId_applySnapshot (child : Child) (snap : OrderSnapshot) :
    (applySnapshot child snap).providerClobOrderId = child.providerClobOrderId := by
  unfold applySnapshot
  dsimp only
  split_ifs <;> rfl

/-- A snapshot plans no child again. -/
lemma status_applySnapshot {child : Child} {snap : OrderSnapshot}
    (h : (applySnapshot child snap).status = .planned) : child.status = .planned := by
  unfold applySnapshot at h
  dsimp only at h
  split_ifs at h
  exact h

/-! ## All legs -/

namespace PendingExit

/-- Every leg sells at most the size of its child, and except for the child that is being
resubmitted the planned ones have not been at the venue. -/
structure Inv (sizes : List ℚ) (busy : Option ℕ) (x : PendingExit) : Prop where
  sameSizes : x.legs.map (fun l => l.child.size) = sizes
  within : ∀ l ∈ x.legs, l.Within
  fresh : ∀ i l, x.legs[i]? = some l → busy ≠ some i → l.Fresh
  exposures : ∀ e ∈ x.exposures, e ≤ sizes.sum

variable {sizes : List ℚ} {busy : Option ℕ} {x : PendingExit} {idx : ℕ}

lemma Inv.exposure_le (h : Inv sizes busy x) : x.exposure ≤ sizes.sum := by
  rw [PendingExit.exposure, ← h.sameSizes]
  exact List.sum_le_sum fun l hl => (h.within l hl).exposure

/-- The child at work is at rest again when it is fresh. -/
lemma Inv.release (h : Inv sizes (some idx) x)
    (hfresh : ∀ l, x.legs[idx]? = some l → l.Fresh) : Inv sizes none x where
  sameSizes := h.sameSizes
  within := h.within
  fresh := by
    intro i l hl _
    by_cases hi : idx = i
    · subst hi
      exact hfresh l hl
    · exact h.fresh i l hl fun heq => hi (Option.some.inj heq)
  exposures := h.exposures

lemma Inv.engage (h : Inv sizes none x) (idx : ℕ) : Inv sizes (some idx) x where
  sameSizes := h.sameSizes
  within := h.within
  fresh := fun i l hl _ => h.fresh i l hl (by simp)
  exposures := h.exposures

private lemma modify_inv (h : Inv sizes busy x) {f : Leg → Leg}
    (hsize : ∀ l, (f l).child.size = l.child.size)
    (hwithin : ∀ l, x.legs[idx]? = some l → l.Within → (f l).Within)
    (hfresh : ∀ l, x.legs[idx]? = some l → busy ≠ some idx → l.Fresh → (f l).Fresh) :
    Inv sizes busy { x with legs := x.legs.modify idx f } where
  sameSizes := by
    rw [← h.sameSizes]
    refine List.ext_getElem? fun i => ?_
    simp only [List.getElem?_map, List.getElem?_modify]
    split
    · cases x.legs[i]? <;> simp [hsize]
    · simp
  within := by
    intro l hl
    obtain ⟨i, hi⟩ := List.getElem?_of_mem hl
    rw [List.getElem?_modify] at hi
    obtain ⟨l', hl', heq⟩ := Option.map_eq_some_iff.1 hi
    have hmem := h.within l' (List.mem_of_getElem? hl')
    split at heq
    · next hidx =>
      subst hidx heq
      exact hwithin l' hl' hmem
    · subst heq
      exact hmem
  fresh := by
    intro i l hi hbusy
    dsimp only at hi
    rw [List.getElem?_modify] at hi
    obtain ⟨l', hl', heq⟩ := Option.map_eq_some_iff.1 hi
    have hmem := h.fresh i l' hl' hbusy
    split at heq
    · next hidx =>
      subst hidx heq
      exact hfresh l' hl' hbusy hmem
    · subst heq
      exact hmem
  exposures := h.exposures

private lemma updateLeg_inv (h : Inv sizes busy x) {f : Leg → Leg}
    (hsize : ∀ l, (f l).child.size = l.child.size)
    (hwithin : ∀ l, x.legs[idx]? = some l → l.Within → (f l).Within)
    (hfresh : ∀ l, x.legs[idx]? = some l → busy ≠ some idx → l.Fresh → (f l).Fresh) :
    Inv sizes busy (x.updateLeg idx f) := by
  have hmodify := modify_inv h hsize hwithin hfresh
  refine ⟨hmodify.sameSizes, hmodify.within, hmodify.fresh, ?_⟩
  intro e he
  rcases List.mem_append.1 he with he | he
  · exact h.exposures e he
  · rw [List.mem_singleton.1 he]
    exact hmodify.exposure_le

/-- The venue moves within what it has. -/
lemma Inv.move (h : Inv sizes busy x) (m : VenueMove) : Inv sizes busy (x.move m) := by
  cases m with
  | fill i amount =>
    refine updateLeg_inv h (fun _ => rfl) (fun l _ hl => ?_) (fun l _ _ hl hplanned => ?_)
    · exact ⟨hl.nonneg.fill amount, (Account.exposure_fill _ _).trans_le hl.exposure⟩
    · exact ⟨(Account.exposure_fill _ _).trans (hl hplanned).1, (hl hplanned).2⟩
  | lapse i amount =>
    refine updateLeg_inv h (fun _ => rfl) (fun l _ hl => ?_) (fun l hidx _ hl hplanned => ?_)
    · exact ⟨hl.nonneg.lapse amount, (Account.exposure_lapse_le _ _).trans hl.exposure⟩
    · have hnonneg := (h.within l (List.mem_of_getElem? hidx)).nonneg
      refine ⟨le_antisymm ?_ (hnonneg.lapse amount).exposure_nonneg, (hl hplanned).2⟩
      exact (Account.exposure_lapse_le _ _).trans_eq (hl hplanned).1

lemma Inv.moves (h : Inv sizes busy x) (ms : List VenueMove) :
    Inv sizes busy (ms.foldl PendingExit.move x) := by
  induction ms generalizing x with
  | nil => exact h
  | cons m ms ih => exact ih (h.move m)

lemma Inv.cancel (h : Inv sizes busy x) (idx : ℕ) (r : CancelReply) :
    Inv sizes busy (x.cancel idx r) := by
  refine updateLeg_inv h (fun l => ?_) (fun l _ hl => ?_) (fun l hidx _ hl => ?_)
  · split <;> rfl
  · split
    · exact ⟨hl.nonneg.cancel, hl.nonneg.exposure_cancel_le.trans hl.exposure⟩
    · exact hl
  · split
    · intro hplanned
      have hnonneg := (h.within l (List.mem_of_getElem? hidx)).nonneg
      exact ⟨le_antisymm (hnonneg.exposure_cancel_le.trans_eq (hl hplanned).1)
        hnonneg.cancel.exposure_nonneg, (hl hplanned).2⟩
    · exact hl

lemma Inv.rewrite (h : Inv sizes busy x) {f : Child → Child} (hsize : ∀ c, (f c).size = c.size)
    (hfresh : busy ≠ some idx → ∀ c, (f c).status = .planned →
      c.status = .planned ∧ (f c).providerClobOrderId = c.providerClobOrderId) :
    Inv sizes busy (x.rewrite idx f) := by
  refine modify_inv h (fun l => hsize l.child) (fun l _ hl => ?_) (fun l _ hbusy hl hplanned => ?_)
  · exact ⟨hl.nonneg, hl.exposure.trans_eq (hsize l.child).symm⟩
  · obtain ⟨hplanned', hid⟩ := hfresh hbusy l.child hplanned
    exact ⟨(hl hplanned').1, hid.trans (hl hplanned').2⟩

/-- An order of a child of which nothing was filled or is outstanding. -/
lemma Inv.submit (h : Inv sizes busy x) (now : ℚ) (r : PlaceReply)
    (hbusy : busy = none ∨ busy = some idx)
    (huntouched : ∀ l, x.legs[idx]? = some l → l.account.exposure = 0) :
    Inv sizes none (x.submit now idx r) := by
  have hengaged : Inv sizes (some idx) x := by
    rcases hbusy with rfl | rfl
    · exact h.engage idx
    · exact h
  have hsubmit : Inv sizes (some idx) (x.submit now idx r) := by
    refine updateLeg_inv hengaged (fun l => size_submitChildOrder _ _ _) (fun l hidx hl => ?_)
      (fun l _ hne => absurd rfl hne)
    refine ⟨hl.nonneg.place _ _, ?_⟩
    have hsize : 0 ≤ l.child.size := hl.nonneg.exposure_nonneg.trans hl.exposure
    have hplace := Account.exposure_place_le hsize l.account r
    rw [huntouched l hidx, zero_add] at hplace
    exact hplace.trans_eq (size_submitChildOrder _ _ _).symm
  refine hsubmit.release fun l hl => ?_
  simp only [PendingExit.submit, updateLeg, List.getElem?_modify_eq] at hl
  obtain ⟨l', -, rfl⟩ := Option.map_eq_some_iff.1 hl
  exact fun hplanned => absurd hplanned (status_submitChildOrder _ _ _)

/-! ## One pass -/

/-- The record of a child. -/
def childAt (x : PendingExit) (idx : ℕ) : Option Child := x.legs[idx]?.map Leg.child

private lemma childAt_updateLeg (x : PendingExit) (i : ℕ) {idx : ℕ} {f : Leg → Leg}
    (h : i = idx → ∀ l, (f l).child = l.child) : (x.updateLeg i f).childAt idx = x.childAt idx := by
  simp only [childAt, updateLeg, List.getElem?_modify]
  split
  · next hi =>
    cases x.legs[idx]? <;> simp [h hi]
  · simp

private lemma childAt_move (x : PendingExit) (m : VenueMove) (idx : ℕ) :
    (x.move m).childAt idx = x.childAt idx := by
  cases m with
  | fill i amount => exact childAt_updateLeg x i fun _ _ => rfl
  | lapse i amount => exact childAt_updateLeg x i fun _ _ => rfl

private lemma childAt_moves (x : PendingExit) (ms : List VenueMove) (idx : ℕ) :
    (ms.foldl PendingExit.move x).childAt idx = x.childAt idx := by
  induction ms generalizing x with
  | nil => rfl
  | cons m ms ih => exact (ih (x.move m)).trans (childAt_move x m idx)

private lemma childAt_submitStep (a : PassArgs) (v : PassContacts) (x : PendingExit) {i idx : ℕ}
    (hne : i ≠ idx) : (x.submitStep a v i).childAt idx = x.childAt idx :=
  (childAt_updateLeg _ i fun h => absurd h hne).trans (childAt_moves x _ idx)

lemma mem_indexesOf {p : Child → Bool} {children : List Child} {idx : ℕ}
    (h : idx ∈ indexesOf p children) : ∃ c, children[idx]? = some c ∧ p c = true := by
  obtain ⟨⟨c, i⟩, hmem, rfl⟩ := List.mem_map.1 h
  obtain ⟨hzip, hp⟩ := List.mem_filter.1 hmem
  exact ⟨c, List.mem_zipIdx_iff_getElem?.1 hzip, hp⟩

lemma nodup_indexesOf (p : Child → Bool) (children : List Child) :
    (indexesOf p children).Nodup := by
  refine List.Nodup.sublist ((List.filter_sublist).map Prod.snd) ?_
  rw [List.zipIdx_map_snd]
  exact List.nodup_range'

/-- Planned children are submitted one after the other; none has been at the venue before. -/
private lemma foldl_submitStep_inv (a : PassArgs) (v : PassContacts) {idxs : List ℕ}
    (hnodup : idxs.Nodup) (h : Inv sizes none x)
    (hplanned : ∀ idx ∈ idxs, ∀ c, x.childAt idx = some c → c.status = .planned) :
    Inv sizes none (idxs.foldl (submitStep a v) x) := by
  induction idxs generalizing x with
  | nil => exact h
  | cons idx idxs ih =>
    obtain ⟨hnot, hnodup⟩ := List.nodup_cons.1 hnodup
    have hmoved := h.moves (v.submit idx).before
    have hstep : Inv sizes none (x.submitStep a v idx) := by
      refine hmoved.submit a.now (v.submit idx).place (.inl rfl) fun l hl => ?_
      have hchild := childAt_moves x (v.submit idx).before idx
      simp only [childAt, hl, Option.map_some] at hchild
      exact (hmoved.fresh idx l hl (by simp)
        (hplanned idx List.mem_cons_self l.child (by rw [childAt, ← hchild]))).1
    refine ih hnodup hstep fun i hi c hc => ?_
    have hne : idx ≠ i := by
      rintro rfl
      exact hnot hi
    rw [childAt_submitStep a v x hne] at hc
    exact hplanned i (List.mem_cons_of_mem idx hi) c hc

lemma Inv.submitStage (h : Inv sizes none x) (a : PassArgs) (v : PassContacts) :
    Inv sizes none (x.submitStage a v) := by
  have hsub : (x.toSubmit a).Sublist (indexesOf (fun c => c.status == .planned) x.children) :=
    (List.take_sublist _ _).trans (List.take_sublist _ _)
  refine foldl_submitStep_inv a v ((nodup_indexesOf _ _).sublist hsub) h fun idx hidx c hc => ?_
  obtain ⟨c', hc', hplanned⟩ := mem_indexesOf (hsub.subset hidx)
  rw [children, List.getElem?_map] at hc'
  rw [childAt, hc'] at hc
  cases hc
  simpa using hplanned

/-- Where a child is submitted again, nothing of it was filled or is outstanding. -/
def Untouched (r : PendingExit × Bool) (idx : ℕ) : Prop :=
  r.2 = true → ∀ l ∈ r.1.legs[idx]?, l.account.exposure = 0

/-- The exit is ready for the resubmission of a child, or the child is not submitted again. -/
def Prepared (sizes : List ℚ) (r : PendingExit × Bool) (idx : ℕ) : Prop :=
  (r.2 = true ∧ Inv sizes (some idx) r.1) ∨ (r.2 = false ∧ Inv sizes none r.1)

private lemma Prepared.stays (h : Inv sizes none x) : Prepared sizes (x, false) idx := .inr ⟨rfl, h⟩

private lemma Prepared.ready (h : Inv sizes (some idx) x) : Prepared sizes (x, true) idx :=
  .inl ⟨rfl, h⟩

/-- Up to the resubmission only the records and the outstanding shares change. -/
private lemma escalateCancel_prepared (a : PassArgs) (v : PassContacts) (h : Inv sizes none x) :
    Prepared sizes (x.escalateCancel a v idx) idx := by
  unfold escalateCancel
  split
  · next esc leg hesc hleg =>
    have hcancelled := (h.moves (v.escalate idx).before).cancel idx (v.escalate idx).cancel
    dsimp only
    split
    · refine .stays (hcancelled.rewrite ?_ ?_)
      · exact fun _ => rfl
      · exact fun _ _ hc => ⟨hc, rfl⟩
    have hescalated : Inv sizes none (PendingExit.rewrite _ idx fun child =>
        { child with status := .escalated, escalationCount := child.escalationCount + 1 }) :=
      hcancelled.rewrite (fun _ => rfl) fun _ _ hc => absurd hc (by simp)
    split
    · refine .stays (hescalated.rewrite ?_ ?_)
      · exact fun _ => rfl
      · exact fun _ _ hc => absurd hc (by simp)
    · refine .ready (((hescalated.engage idx).rewrite ?_ ?_).moves _)
      · exact fun _ => size_escalatedChild _ _ _ _ _
      · exact fun hne => absurd rfl hne
  · exact .stays h

private lemma repriceCancel_prepared (a : PassArgs) (v : PassContacts) (mid : ℚ)
    (h : Inv sizes none x) : Prepared sizes (x.repriceCancel a v mid idx) idx := by
  unfold repriceCancel
  split
  · next leg hleg =>
    have hcancelled := (h.moves (v.reprice idx).before).cancel idx (v.reprice idx).cancel
    dsimp only
    split
    · refine .stays (hcancelled.rewrite ?_ ?_)
      · exact fun _ => rfl
      · exact fun _ _ hc => ⟨hc, rfl⟩
    · refine .ready (((hcancelled.engage idx).rewrite ?_ ?_).moves _)
      · exact fun _ => rfl
      · exact fun hne => absurd rfl hne
  · exact .stays h

/-- A resubmission of an untouched child. -/
private lemma Prepared.resubmit {r : PendingExit × Bool} (h : Prepared sizes r idx)
    (huntouched : Untouched r idx) (now : ℚ) (reply : PlaceReply) :
    Inv sizes none (if r.2 then r.1.submit now idx reply else r.1) := by
  rcases h with ⟨hsubmits, h⟩ | ⟨hnot, h⟩
  · rw [if_pos hsubmits]
    exact h.submit now reply (.inr rfl) fun l hl => huntouched hsubmits l hl
  · rw [if_neg (by simp [hnot])]
    exact h

/-- The children that a pass submits again are untouched. -/
def PassUntouched (a : PassArgs) (v : PassContacts) (x : PendingExit) : Prop :=
  let x₁ := x.submitStage a v
  let x₂ := x₁.escalateStage a v
  EveryStep (escalateStep a v) (fun x idx => Untouched (x.escalateCancel a v idx) idx) x₁
      (x₁.toEscalate a) ∧
    ∀ mid ∈ a.currentMid, 0 < mid →
      EveryStep (repriceStep a v mid) (fun x idx => Untouched (x.repriceCancel a v mid idx) idx) x₂
        (x₂.toReprice a mid)

lemma Inv.runExitPass {a : PassArgs} {v : PassContacts} (h : Inv sizes none x)
    (huntouched : PassUntouched a v x) : Inv sizes none (x.runExitPass a v) := by
  obtain ⟨hescalate, hreprice⟩ := huntouched
  have h₁ := h.submitStage a v
  have h₂ : Inv sizes none ((x.submitStage a v).escalateStage a v) :=
    hescalate.invariant h₁ fun x idx hx hidx =>
      (escalateCancel_prepared a v hx).resubmit hidx a.now (v.escalate idx).place
  unfold PendingExit.runExitPass repriceStage
  cases hmid : a.currentMid with
  | none => exact h₂
  | some mid =>
    dsimp only
    split
    · next hpos =>
      exact (hreprice mid hmid hpos).invariant h₂ fun x idx hx hidx =>
        (repriceCancel_prepared a v mid hx).resubmit hidx a.now (v.reprice idx).place
    · exact h₂

/-! ## Whole runs -/

/-- The event submits no child again of which something was filled or is outstanding. -/
def StepUntouched (x : PendingExit) : ExitEvent → Prop
  | .pass args contacts => PassUntouched args contacts x
  | _ => True

lemma Inv.step (h : Inv sizes none x) {e : ExitEvent} (he : StepUntouched x e) :
    Inv sizes none (x.step e) := by
  cases e with
  | pass args contacts => exact h.runExitPass he
  | venue m => exact h.move m
  | snapshot idx snap =>
    rw [PendingExit.step]
    refine h.rewrite ?_ ?_
    · intro c
      split
      · exact size_applySnapshot c snap
      · rfl
    · intro _ c hc
      split at hc
      · next hid =>
        rw [if_pos hid]
        exact ⟨status_applySnapshot hc, providerClobOrderId_applySnapshot c snap⟩
      · next hid =>
        rw [if_neg hid]
        exact ⟨hc, rfl⟩

instance (r : PendingExit × Bool) (idx : ℕ) : Decidable (Untouched r idx) :=
  inferInstanceAs (Decidable (r.2 = true → ∀ l ∈ r.1.legs[idx]?, l.account.exposure = 0))

instance (a : PassArgs) (v : PassContacts) (x : PendingExit) : Decidable (PassUntouched a v x) :=
  inferInstanceAs (Decidable (_ ∧ _))

instance (x : PendingExit) : ∀ e : ExitEvent, Decidable (StepUntouched x e)
  | .pass args contacts => inferInstanceAs (Decidable (PassUntouched args contacts x))
  | .venue _ => inferInstanceAs (Decidable True)
  | .snapshot _ _ => inferInstanceAs (Decidable True)

section Initial

variable (targetSize triggerPrice : ℚ) (side : Side) (plan : ExitPolicy) (tickSize : ℚ)
  (exitId : String) (policy : PolicySnapshot)

lemma inv_initial : Inv ((planChildren targetSize triggerPrice side plan tickSize .gtc true).map
      ChildPlan.size) none
    (initial targetSize triggerPrice side plan tickSize exitId policy) where
  sameSizes := by
    simp only [initial, buildInitialChildren, List.map_map]
    rfl
  within := by
    intro l hl
    simp only [initial, buildInitialChildren, List.map_map] at hl
    obtain ⟨c, hc, rfl⟩ := List.mem_map.1 hl
    refine ⟨Account.nonneg_zero, ?_⟩
    rw [Function.comp_apply, Account.exposure_zero]
    exact (planChildren_size_pos _ _ _ _ _ _ _ c hc).le
  fresh := by
    intro i l hl _ _
    have hmem := List.mem_of_getElem? hl
    simp only [initial, buildInitialChildren, List.map_map] at hmem
    obtain ⟨c, -, rfl⟩ := List.mem_map.1 hmem
    exact ⟨Account.exposure_zero, rfl⟩
  exposures := by simp [initial]

/-- An exit whose planned sizes add up to at most its target never sells more than the target, and
never has more of it sold or outstanding, in a run that submits no child again of which something
was filled or is outstanding. -/
theorem neverOversells_of_untouched (events : List ExitEvent)
    (hplan : ((planChildren targetSize triggerPrice side plan tickSize .gtc true).map
      ChildPlan.size).sum ≤ targetSize)
    (hrun : EveryStep step StepUntouched
      (initial targetSize triggerPrice side plan tickSize exitId policy) events) :
    ∀ e ∈ (events.foldl step
      (initial targetSize triggerPrice side plan tickSize exitId policy)).exposures,
      e ≤ targetSize := by
  have hinitial := inv_initial targetSize triggerPrice side plan tickSize exitId policy
  have hinv := hrun.invariant hinitial fun x e hx he => hx.step he
  exact fun e he => (hinv.exposures e he).trans hplan

end Initial

end PendingExit

section Examples

/-- An order that is kept as a whole. -/
def kept : Contact := { place := { fill := 0, rest := 1000, orderId := "0x1" } }

/-- An order that is executed as a whole. -/
def executedWhole : Contact := { place := { fill := 1000, rest := 0, status := "executed" } }

/-- A pass of a sale at a mid of one half, at a venue that keeps every order and answers
cancellations as given. -/
def passAt (now : ℚ) (escalate reprice : Contact) : ExitEvent :=
  .pass { side := .sell, currentMid := some (1 / 2), now := now }
    { submit := fun _ => kept, escalate := fun _ => escalate, reprice := fun _ => reprice }

/-- Ten shares in one child, which is escalated after five seconds. -/
def tenShares : PendingExit :=
  .initial 10 (1 / 2) .sell {} ExitPlan.defaultTickSize "e" { escalation := some {} }

/-- An order of which nothing was filled is escalated and executed. -/
theorem tenShares_neverOversells :
    ((planChildren 10 (1 / 2) .sell {} ExitPlan.defaultTickSize .gtc true).map
      ChildPlan.size).sum ≤ 10 ∧
    ∀ e ∈ ([passAt 0 kept kept, passAt 10 executedWhole kept].foldl PendingExit.step
      tenShares).exposures, e ≤ 10 :=
  ⟨by decide +kernel, PendingExit.neverOversells_of_untouched 10 (1 / 2) .sell {}
    ExitPlan.defaultTickSize "e" { escalation := some {} } _ (by decide +kernel)
    (by decide +kernel)⟩

/-- Four of ten shares are filled, and the escalation sells ten more. -/
theorem escalated_oversells :
    ¬ ∀ e ∈ ([passAt 0 kept kept, .venue (.fill 0 4), passAt 10 executedWhole kept].foldl
      PendingExit.step tenShares).exposures, e ≤ 10 := by
  decide +kernel

/-- A plan of ten shares whose levels are promoted to the minimum notional. -/
example : 10 < ((planChildren 10 (3 / 10) .sell { ladder := some { levels := 5 } }
    ExitPlan.defaultTickSize .gtc true).map ChildPlan.size).sum := by
  decide +kernel

end Examples

end Evosport.Orchestrator
