/-
Whether a planned ladder covers its target (`plan_children` of
`services/trader_orchestrator/exit_executor.py`).

The planner sizes the children, then looks at each of them: a child below the minimum notional is
promoted to it or dropped.  A promotion adds size that nobody gives up, more than the residue that
the chunk loop may leave, so that the plan covers its target exactly when no child is promoted and
nothing is left over.
-/
import Evosport.Orchestrator.PlanSizing

namespace Evosport.Orchestrator

open Backtest Backtest.ExitPlan

/-- The plan is what the exit asked for: positive sizes that add up to the target, prices between a
tick and 0.99, no child below the minimum notional, no more children than allowed, numbered from
zero. -/
structure CoversTarget (targetSize tickSize : ℚ) (policy : ExitPolicy) (plan : List ChildPlan) :
    Prop where
  positive : ∀ c ∈ plan, 0 < c.size
  total : (plan.map ChildPlan.size).sum = targetSize
  priced : ∀ c ∈ plan, tickSize ≤ c.price ∧ c.price ≤ 99 / 100
  notional : ∀ c ∈ plan, policy.minChunkNotionalUsd ≤ c.price * c.size + e9
  count : (plan.length : ℤ) ≤ policy.maxChunks
  numbered : plan.map ChildPlan.index = List.range plan.length

/-! ## The final pass -/

section FinalPass

variable (minNotional targetSize : ℚ)

/-- The child meets the minimum notional. -/
def Kept (c : ChildPlan) : Prop := minNotional ≤ c.price * c.size + e9

instance (c : ChildPlan) : Decidable (Kept minNotional c) :=
  inferInstanceAs (Decidable (minNotional ≤ c.price * c.size + e9))

/-- The child is promoted in place. -/
def Promoted (c : ChildPlan) : Prop :=
  ¬ Kept minNotional c ∧ minNotional / c.price ≤ targetSize + e9

instance (c : ChildPlan) : Decidable (Promoted minNotional targetSize c) :=
  inferInstanceAs (Decidable (_ ∧ _))

/-- The size that the promotion of a child adds. -/
def promotionExtra (c : ChildPlan) : ℚ :=
  if Promoted minNotional targetSize c then minNotional / c.price - c.size else 0

variable {minNotional targetSize}

/-- A promotion adds more than the residue that the chunk loop may leave. -/
lemma e9_lt_promotionExtra {c : ChildPlan} (hprice : 0 < c.price) (hprice' : c.price < 1)
    (h : Promoted minNotional targetSize c) : e9 < promotionExtra minNotional targetSize c := by
  rw [promotionExtra, if_pos h, lt_sub_iff_add_lt, lt_div_iff₀ hprice]
  have hbelow : c.price * c.size + e9 < minNotional := not_le.1 h.1
  have he : e9 * c.price < e9 * 1 := mul_lt_mul_of_pos_left hprice' e9_pos
  calc (e9 + c.size) * c.price = e9 * c.price + c.price * c.size := by ring
    _ < minNotional := by linarith

variable (minNotional targetSize) in
/-- The extras of some children are nothing, or more than the residue. -/
lemma sum_promotionExtra {plans : List ChildPlan}
    (h : ∀ c ∈ plans, 0 < c.price ∧ c.price < 1) :
    ((∀ c ∈ plans, ¬ Promoted minNotional targetSize c) →
        (plans.map (promotionExtra minNotional targetSize)).sum = 0) ∧
      ((∃ c ∈ plans, Promoted minNotional targetSize c) →
        e9 < (plans.map (promotionExtra minNotional targetSize)).sum) := by
  have hnonneg : ∀ c ∈ plans, 0 ≤ promotionExtra minNotional targetSize c := by
    intro c hc
    by_cases hp : Promoted minNotional targetSize c
    · exact e9_pos.le.trans (e9_lt_promotionExtra (h c hc).1 (h c hc).2 hp).le
    · rw [promotionExtra, if_neg hp]
  constructor
  · intro hnone
    refine List.sum_eq_zero fun x hx => ?_
    obtain ⟨c, hc, rfl⟩ := List.mem_map.1 hx
    rw [promotionExtra, if_neg (hnone c hc)]
  · rintro ⟨c, hc, hp⟩
    refine (e9_lt_promotionExtra (h c hc).1 (h c hc).2 hp).trans_le ?_
    refine List.single_le_sum (fun x hx => ?_) _ (List.mem_map_of_mem hc)
    obtain ⟨c, hc, rfl⟩ := List.mem_map.1 hx
    exact hnonneg c hc

/-- What the final pass does to the children of the sizing stage: those that are kept or promoted
survive at their price, their sizes and what is forfeited add up, and there are no more of them than
before. -/
structure Enforced (minNotional targetSize : ℚ) (plans : List ChildPlan)
    (r : List ChildPlan × ℚ) : Prop where
  /-- A survivor comes from a child that was kept or promoted. -/
  origin : ∀ c ∈ r.1, Kept minNotional c ∧ 0 < c.size ∧ ∃ c' ∈ plans, c.price = c'.price ∧
    (Kept minNotional c' ∨ Promoted minNotional targetSize c')
  survives : ∀ c' ∈ plans, Kept minNotional c' ∨ Promoted minNotional targetSize c' →
    ∃ c ∈ r.1, c.price = c'.price
  forfeited : 0 ≤ r.2
  total : (r.1.map ChildPlan.size).sum + r.2 =
    (plans.map ChildPlan.size).sum + (plans.map (promotionExtra minNotional targetSize)).sum
  count : r.1.length ≤ plans.length

lemma enforced_enforceMinNotional {plans : List ChildPlan}
    (h : ∀ c ∈ plans, 0 < c.price ∧ 0 < c.size) :
    Enforced minNotional targetSize plans (enforceMinNotional minNotional targetSize plans) := by
  induction plans with
  | nil =>
    exact ⟨by simp [enforceMinNotional], by simp, le_rfl, by simp [enforceMinNotional], le_rfl⟩
  | cons c plans ih =>
    obtain ⟨⟨hprice, hsize⟩, h⟩ := List.forall_mem_cons.1 h
    obtain ⟨horigin, hsurvives, hforfeited, htotal, hcount⟩ := ih h
    have hpos : ¬ (c.price ≤ 0 ∨ c.size ≤ 0) := not_or.2 ⟨not_le.2 hprice, not_le.2 hsize⟩
    rw [enforceMinNotional]
    dsimp only
    rw [if_neg hpos]
    have horigin' : ∀ s ∈ (enforceMinNotional minNotional targetSize plans).1,
        Kept minNotional s ∧ 0 < s.size ∧ ∃ c' ∈ c :: plans, s.price = c'.price ∧
          (Kept minNotional c' ∨ Promoted minNotional targetSize c') := by
      intro s hs
      obtain ⟨hkept, hpos, c', hc', heq⟩ := horigin s hs
      exact ⟨hkept, hpos, c', List.mem_cons_of_mem _ hc', heq⟩
    by_cases hkept : Kept minNotional c
    · -- the child stays as it is
      have hextra : promotionExtra minNotional targetSize c = 0 := by
        rw [promotionExtra, if_neg fun hp => hp.1 hkept]
      rw [if_neg (not_lt.2 hkept)]
      refine ⟨?_, ?_, hforfeited, ?_, Nat.succ_le_succ hcount⟩
      · exact List.forall_mem_cons.2
          ⟨⟨hkept, hsize, c, List.mem_cons_self, rfl, .inl hkept⟩, horigin'⟩
      · refine List.forall_mem_cons.2 ⟨fun _ => ⟨c, List.mem_cons_self, rfl⟩, fun c' hc' hk => ?_⟩
        obtain ⟨s, hs, heq⟩ := hsurvives c' hc' hk
        exact ⟨s, List.mem_cons_of_mem _ hs, heq⟩
      · simp only [List.map_cons, List.sum_cons, hextra]
        linarith
    · rw [if_pos (not_le.1 hkept)]
      by_cases hfits : minNotional / c.price ≤ targetSize + e9
      · -- promoted to the minimum notional
        have hp : Promoted minNotional targetSize c := ⟨hkept, hfits⟩
        have hextra : promotionExtra minNotional targetSize c = minNotional / c.price - c.size := by
          rw [promotionExtra, if_pos hp]
        have hmin : 0 < minNotional := by
          have hnotional := mul_pos hprice hsize
          have hbelow : c.price * c.size + e9 < minNotional := not_le.1 hkept
          have := e9_pos
          linarith
        have hgrown : Kept minNotional { c with size := minNotional / c.price } := by
          show minNotional ≤ c.price * (minNotional / c.price) + e9
          rw [mul_div_cancel₀ _ hprice.ne']
          have := e9_pos
          linarith
        rw [if_pos hfits]
        refine ⟨?_, ?_, hforfeited, ?_, Nat.succ_le_succ hcount⟩
        · exact List.forall_mem_cons.2
            ⟨⟨hgrown, div_pos hmin hprice, c, List.mem_cons_self, rfl, .inr hp⟩, horigin'⟩
        · refine List.forall_mem_cons.2 ⟨fun _ => ⟨_, List.mem_cons_self, rfl⟩, fun c' hc' hk => ?_⟩
          obtain ⟨s, hs, heq⟩ := hsurvives c' hc' hk
          exact ⟨s, List.mem_cons_of_mem _ hs, heq⟩
        · simp only [List.map_cons, List.sum_cons, hextra]
          linarith
      · -- dropped
        have hnot : ¬ (Kept minNotional c ∨ Promoted minNotional targetSize c) :=
          not_or.2 ⟨hkept, fun hp => hfits hp.2⟩
        have hextra : promotionExtra minNotional targetSize c = 0 := by
          rw [promotionExtra, if_neg fun hp => hfits hp.2]
        rw [if_neg hfits]
        refine ⟨horigin', ?_, add_nonneg hsize.le hforfeited, ?_, Nat.le_succ_of_le hcount⟩
        · exact List.forall_mem_cons.2 ⟨fun hk => absurd hk hnot, hsurvives⟩
        · simp only [List.map_cons, List.sum_cons, hextra]
          linarith

end FinalPass

/-! ## Coverage -/

section Coverage

variable {targetSize triggerPrice : ℚ} {side : Side} {policy : ExitPolicy} {tickSize : ℚ}
  {tif : Tif} {postOnly : Bool}

/-- Nothing goes wrong on the way: no child is promoted, the chunk loop leaves no residue that it
does not attach, and no child that is kept, or the single order in place of all of them, is priced
on a top rung above 0.99. -/
structure Faultless (targetSize triggerPrice : ℚ) (side : Side) (policy : ExitPolicy)
    (tickSize : ℚ) (tif : Tif) (postOnly : Bool) : Prop where
  unpromoted : ∀ c ∈ sizedPlans targetSize triggerPrice side policy tickSize tif postOnly,
    ¬ Promoted policy.minChunkNotionalUsd targetSize c
  usedUp : (∃ c ∈ sizedPlans targetSize triggerPrice side policy tickSize tif postOnly,
    Kept policy.minChunkNotionalUsd c) →
      ¬ (0 < remainingSize targetSize triggerPrice side policy tickSize ∧
        remainingSize targetSize triggerPrice side policy tickSize ≤ e9)
  offTop : ∀ c ∈ sizedPlans targetSize triggerPrice side policy tickSize tif postOnly,
    Kept policy.minChunkNotionalUsd c → OffTop tickSize c.price
  baseOffTop : (∀ c ∈ sizedPlans targetSize triggerPrice side policy tickSize tif postOnly,
    ¬ Kept policy.minChunkNotionalUsd c) →
      OffTop tickSize ((ladderPrices triggerPrice side policy tickSize).headD 0)

/-- The plan of the survivors: what the first of them takes, and the numbers. -/
def regrown (survivors : List ChildPlan) (forfeited : ℚ) : List ChildPlan :=
  (if forfeited > 0 then growFirst forfeited survivors else survivors).mapIdx
    fun i c => { c with index := i }

lemma mem_regrown {survivors : List ChildPlan} {forfeited : ℚ} {c : ChildPlan}
    (h : c ∈ regrown survivors forfeited) :
    ∃ s ∈ survivors, c.price = s.price ∧ s.size ≤ c.size := by
  obtain ⟨i, hi, rfl⟩ := List.mem_mapIdx.1 h
  split at hi
  case isTrue hpos =>
    obtain ⟨s, hs, hprice, hsize⟩ := mem_growFirst hpos.le (List.getElem_mem hi)
    refine ⟨s, hs, ?_, ?_⟩ <;> simpa [hpos] using ‹_›
  case isFalse hpos =>
    refine ⟨_, List.getElem_mem hi, ?_, ?_⟩ <;> simp [hpos]

lemma regrown_spec {survivors : List ChildPlan} (hne : survivors ≠ []) {forfeited : ℚ}
    (hforfeited : 0 ≤ forfeited) :
    ((regrown survivors forfeited).map ChildPlan.size).sum =
        (survivors.map ChildPlan.size).sum + forfeited ∧
      (regrown survivors forfeited).map ChildPlan.price = survivors.map ChildPlan.price ∧
      (regrown survivors forfeited).length = survivors.length ∧
      (regrown survivors forfeited).map ChildPlan.index =
        List.range (regrown survivors forfeited).length := by
  set grown := if forfeited > 0 then growFirst forfeited survivors else survivors with hgrown
  have hmap : ∀ {β : Type} (f : ChildPlan → β), (∀ c i, f { c with index := i } = f c) →
      (regrown survivors forfeited).map f = grown.map f := by
    intro β f hf
    refine List.ext_getElem (by simp [regrown, hgrown]) fun i h h' => ?_
    simp only [regrown, List.getElem_map, List.getElem_mapIdx, hf]
    rfl
  have hlength : (regrown survivors forfeited).length = survivors.length := by
    simp only [regrown, List.length_mapIdx]
    split
    · exact length_growFirst _ _
    · rfl
  refine ⟨?_, ?_, hlength, ?_⟩
  · rw [hmap ChildPlan.size fun _ _ => rfl, hgrown]
    split
    · exact sum_growFirst hne
    · next h => rw [le_antisymm (not_lt.1 h) hforfeited, add_zero]
  · rw [hmap ChildPlan.price fun _ _ => rfl, hgrown]
    split
    · cases survivors <;> rfl
    · rfl
  · refine List.ext_getElem (by simp) fun i h h' => ?_
    simp [regrown]

/-- The plan of some survivors covers the target exactly when no child was promoted, the sizes leave
no residue, and no child that is kept lies on a top rung above 0.99. -/
lemma coversTarget_regrown {residue : ℚ} {plans : List ChildPlan} {r : List ChildPlan × ℚ}
    (htick : 0 < tickSize) (htick' : tickSize ≤ 99 / 100) (hresidue : residue ≤ e9)
    (hresidue' : 0 ≤ residue) (hsized : Sized targetSize policy tickSize residue plans)
    (hr : Enforced policy.minChunkNotionalUsd targetSize plans r) (hne : r.1 ≠ []) :
    CoversTarget targetSize tickSize policy (regrown r.1 r.2) ↔
      (∀ c ∈ plans, ¬ Promoted policy.minChunkNotionalUsd targetSize c) ∧ residue = 0 ∧
        ∀ c ∈ plans, Kept policy.minChunkNotionalUsd c → OffTop tickSize c.price := by
  obtain ⟨hsum, hprices, hlength, hindex⟩ := regrown_spec hne hr.forfeited
  have hunit : ∀ c ∈ plans, 0 < c.price ∧ c.price < 1 := fun c hc =>
    ⟨htick.trans_le ((hsized.rung c hc).ge htick), (hsized.rung c hc).lt_one htick htick'⟩
  obtain ⟨hnone, hsome⟩ := sum_promotionExtra policy.minChunkNotionalUsd targetSize hunit
  have hplans : plans ≠ [] := by
    rintro rfl
    obtain ⟨c, hc⟩ := List.exists_mem_of_ne_nil _ hne
    obtain ⟨-, -, c', hc', -⟩ := hr.origin c hc
    cases hc'
  -- what the promotions add is what is there beyond the target
  have htotal : ((regrown r.1 r.2).map ChildPlan.size).sum =
      targetSize - residue +
        (plans.map (promotionExtra policy.minChunkNotionalUsd targetSize)).sum := by
    rw [hsum, hr.total, ← hsized.total hplans]
    ring
  have horigin : ∀ c ∈ regrown r.1 r.2, ∃ s ∈ r.1, c.price = s.price ∧ s.size ≤ c.size :=
    fun c hc => mem_regrown hc
  constructor
  · intro hcovers
    have hextra := htotal.symm.trans hcovers.total
    have hunpromoted : ∀ c ∈ plans, ¬ Promoted policy.minChunkNotionalUsd targetSize c := by
      intro c hc hp
      have := hsome ⟨c, hc, hp⟩
      linarith
    refine ⟨hunpromoted, ?_, fun c hc hkept => ?_⟩
    · rw [hnone hunpromoted] at hextra
      linarith
    · obtain ⟨s, hs, hprice⟩ := hr.survives c hc (.inl hkept)
      have hmem : c.price ∈ (regrown r.1 r.2).map ChildPlan.price := by
        rw [hprices, ← hprice]
        exact List.mem_map_of_mem hs
      obtain ⟨c', hc', hprice'⟩ := List.mem_map.1 hmem
      refine ((hsized.rung c hc).le_iff htick).1 ?_
      rw [← hprice']
      exact (hcovers.priced c' hc').2
  · rintro ⟨hunpromoted, hzero, hoff⟩
    refine ⟨fun c hc => ?_, ?_, fun c hc => ?_, fun c hc => ?_, ?_, hindex⟩
    · obtain ⟨s, hs, -, hsize⟩ := horigin c hc
      exact (hr.origin s hs).2.1.trans_le hsize
    · rw [htotal, hnone hunpromoted, hzero]
      ring
    · obtain ⟨s, hs, hprice, -⟩ := horigin c hc
      obtain ⟨-, -, c', hc', hprice', hk⟩ := hr.origin s hs
      have hkept := hk.resolve_right (hunpromoted c' hc')
      have hrung := hsized.rung c' hc'
      rw [hprice, hprice']
      exact ⟨hrung.ge htick, (hrung.le_iff htick).2 (hoff c' hc' hkept)⟩
    · obtain ⟨s, hs, hprice, hsize⟩ := horigin c hc
      obtain ⟨hkept, -, c', hc', hprice', -⟩ := hr.origin s hs
      have hpos : 0 ≤ s.price := by
        rw [hprice']
        exact (hunit c' hc').1.le
      have hkept' : policy.minChunkNotionalUsd ≤ s.price * s.size + e9 := hkept
      rw [hprice]
      have := mul_le_mul_of_nonneg_left hsize hpos
      linarith
    · rw [hlength]
      have := hr.count
      have := hsized.count
      omega

/-- The single order in place of the children covers the target unless it lies on a top rung above
0.99. -/
lemma coversTarget_single {base : ℚ} (hmax : 1 ≤ policy.maxChunks) (htarget : 0 < targetSize)
    (htick : 0 < tickSize) (hbase : IsRung tickSize base)
    (hnotional : ¬ base * targetSize + e9 < policy.minChunkNotionalUsd) :
    CoversTarget targetSize tickSize policy [⟨0, base, targetSize, tif, postOnly, levelBucket 0⟩] ↔
      OffTop tickSize base := by
  constructor
  · intro hcovers
    exact (hbase.le_iff htick).1 (hcovers.priced _ List.mem_cons_self).2
  · intro hoff
    refine ⟨?_, by simp, ?_, ?_, by simpa using hmax, rfl⟩
    · simpa using htarget
    · simpa using ⟨hbase.ge htick, (hbase.le_iff htick).2 hoff⟩
    · simpa using hnotional

/-- A plan covers its target exactly when nothing has gone wrong on the way. -/
theorem coversTarget_iff (hmax : 1 ≤ policy.maxChunks) (htarget : 0 < targetSize)
    (htrigger : 0 < triggerPrice) (htick : 0 < tickSize) (htick' : tickSize ≤ 99 / 100)
    (hplan : planChildren targetSize triggerPrice side policy tickSize tif postOnly ≠ []) :
    CoversTarget targetSize tickSize policy
        (planChildren targetSize triggerPrice side policy tickSize tif postOnly) ↔
      Faultless targetSize triggerPrice side policy tickSize tif postOnly := by
  obtain ⟨hleft, hsized⟩ := sized_sizedPlans triggerPrice side tif postOnly hmax htarget htick
    htick'
  obtain ⟨hrungs, hprices, -⟩ := ladderPrices_spec triggerPrice side hmax htick htick'
  have hr : Enforced policy.minChunkNotionalUsd targetSize
      (sizedPlans targetSize triggerPrice side policy tickSize tif postOnly)
      (enforceMinNotional policy.minChunkNotionalUsd targetSize
        (sizedPlans targetSize triggerPrice side policy tickSize tif postOnly)) :=
    enforced_enforceMinNotional fun c hc =>
      ⟨htick.trans_le ((hsized.rung c hc).ge htick), hsized.positive c hc⟩
  rw [planChildren_eq _ _ _ _ _ _ _ htarget htrigger] at hplan ⊢
  generalize hplans : sizedPlans targetSize triggerPrice side policy tickSize tif postOnly = plans
    at hsized hr hplan ⊢
  generalize enforceMinNotional policy.minChunkNotionalUsd targetSize plans = r at hr hplan ⊢
  obtain ⟨survivors, forfeited⟩ := r
  cases survivors with
  | nil =>
    -- no child has passed: a single order at the base rung
    have hgone : ∀ c ∈ plans, ¬ Kept policy.minChunkNotionalUsd c ∧
        ¬ Promoted policy.minChunkNotionalUsd targetSize c := by
      intro c hc
      refine not_or.1 fun hk => ?_
      obtain ⟨s, hs, -⟩ := hr.survives c hc hk
      cases hs
    have hnotional : ¬ (ladderPrices triggerPrice side policy tickSize).headD 0 * targetSize + e9 <
        policy.minChunkNotionalUsd := by
      intro hsmall
      refine hplan ?_
      simp only [finishPlan]
      rw [if_pos hsmall]
    have hbase : IsRung tickSize ((ladderPrices triggerPrice side policy tickSize).headD 0) := by
      refine hrungs _ ?_
      obtain ⟨p, ps, hcons⟩ := List.exists_cons_of_ne_nil hprices
      rw [hcons]
      exact List.mem_cons_self
    simp only [finishPlan]
    rw [if_neg hnotional, coversTarget_single hmax htarget htick hbase hnotional]
    subst hplans
    constructor
    · intro hoff
      exact ⟨fun c hc => (hgone c hc).2, fun ⟨c, hc, hk⟩ => absurd hk (hgone c hc).1,
        fun c hc hk => absurd hk (hgone c hc).1, fun _ => hoff⟩
    · intro hfaultless
      exact hfaultless.baseOffTop fun c hc => (hgone c hc).1
  | cons s survivors =>
    have hcovers := coversTarget_regrown htick htick' (by split <;> linarith [e9_pos])
      (by split <;> linarith) hsized hr (List.cons_ne_nil _ _)
    refine Iff.trans hcovers ?_
    obtain ⟨-, -, c', hc', -, hk⟩ := hr.origin s List.mem_cons_self
    subst hplans
    constructor
    · rintro ⟨hunpromoted, hzero, hoff⟩
      refine ⟨hunpromoted, fun _ hsmall => ?_, hoff, fun hnone => ?_⟩
      · rw [if_neg (not_lt.2 hsmall.2)] at hzero
        exact hsmall.1.ne' hzero
      · exact absurd (hk.resolve_right (hunpromoted c' hc')) (hnone c' hc')
    · intro hfaultless
      have hkept := hk.resolve_right (hfaultless.unpromoted c' hc')
      refine ⟨hfaultless.unpromoted, ?_, hfaultless.offTop⟩
      split
      · rfl
      · next hsmall =>
        by_contra hne
        exact hfaultless.usedUp ⟨c', hc', hkept⟩
          ⟨lt_of_le_of_ne hleft (Ne.symm hne), not_lt.1 hsmall⟩

/-- A ladder of three rungs, each worth its minimum. -/
theorem threeRungs_covered :
    CoversTarget 12 (1 / 100) { ladder := some { levels := 3 } }
      (planChildren 12 (1 / 2) .sell { ladder := some { levels := 3 } } (1 / 100) .gtc true) := by
  refine (coversTarget_iff (by decide) (by norm_num) (by norm_num) (by norm_num) (by norm_num)
    (by decide +kernel)).2 ⟨by decide +kernel, ?_, ?_, ?_⟩
  · intro _
    decide +kernel
  · decide +kernel
  · intro _
    decide +kernel

/-- Five rungs too small for the minimum notional: promoted, they sell almost twice the target. -/
theorem fiveRungs_uncovered :
    (17 : ℚ) < ((planChildren 10 (3 / 10) .sell { ladder := some { levels := 5 } } (1 / 100) .gtc
        true).map ChildPlan.size).sum ∧
      ¬ CoversTarget 10 (1 / 100) { ladder := some { levels := 5 } }
        (planChildren 10 (3 / 10) .sell { ladder := some { levels := 5 } } (1 / 100) .gtc
          true) := by
  have hmore : (17 : ℚ) < ((planChildren 10 (3 / 10) .sell { ladder := some { levels := 5 } }
      (1 / 100) .gtc true).map ChildPlan.size).sum := by decide +kernel
  refine ⟨hmore, fun hcovers => ?_⟩
  rw [hcovers.total] at hmore
  norm_num at hmore

end Coverage

end Evosport.Orchestrator
