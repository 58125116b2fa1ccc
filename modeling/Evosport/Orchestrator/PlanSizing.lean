/-
The sizing stage of the exit planner (`plan_children` of
`services/trader_orchestrator/exit_executor.py`).

The planner rounds the rungs of its ladder down to ticks, weighs them, and spreads the target over
them: in chunks of a fixed size, or one child a level.  `Sized` says what comes out: rungs of the
ladder, positive sizes that add up to the target but for a residue of the chunk loop, and no more
children than allowed.
-/
import Evosport.Backtest.ExitPlan
import Mathlib.Algebra.BigOperators.Ring.List
import Mathlib.Algebra.Order.BigOperators.Group.List
import Mathlib.Algebra.Order.Floor.Ring
import Mathlib.Data.List.GetD
import Mathlib.Tactic.Linarith
import Mathlib.Tactic.Positivity
import Mathlib.Tactic.FieldSimp
import Mathlib.Tactic.Ring

namespace Evosport.Orchestrator

open Backtest Backtest.ExitPlan

/-! ## Prices -/

/-- The number of ticks of the price to which the planner rounds 0.99. -/
def topTicks (tick : ℚ) : ℤ := ⌊99 / 100 / tick + e9⌋

/-- The price is not that of a top rung above 0.99. -/
def OffTop (tick price : ℚ) : Prop := topTicks tick * tick ≤ 99 / 100 ∨ price ≠ topTicks tick * tick

instance (tick price : ℚ) : Decidable (OffTop tick price) := inferInstanceAs (Decidable (_ ∨ _))

/-- A price to which the planner rounds. -/
def IsRung (tick price : ℚ) : Prop := ∃ k : ℤ, 1 ≤ k ∧ k ≤ topTicks tick ∧ price = k * tick

namespace IsRung

variable {tick price : ℚ}

lemma ge (htick : 0 < tick) (h : IsRung tick price) : tick ≤ price := by
  obtain ⟨k, hk, -, rfl⟩ := h
  have hk' : (1 : ℚ) ≤ k := by exact_mod_cast hk
  exact le_mul_of_one_le_left htick.le hk'

lemma topTicks_mul_le (htick : 0 < tick) : topTicks tick * tick ≤ 99 / 100 + e9 * tick := by
  have hfloor : (topTicks tick : ℚ) ≤ 99 / 100 / tick + e9 := Int.floor_le _
  calc (topTicks tick : ℚ) * tick ≤ (99 / 100 / tick + e9) * tick :=
        mul_le_mul_of_nonneg_right hfloor htick.le
    _ = 99 / 100 + e9 * tick := by field_simp

lemma le_top (htick : 0 < tick) (h : IsRung tick price) : price ≤ topTicks tick * tick := by
  obtain ⟨k, -, hk, rfl⟩ := h
  have hk' : (k : ℚ) ≤ topTicks tick := by exact_mod_cast hk
  exact mul_le_mul_of_nonneg_right hk' htick.le

lemma lt_one (htick : 0 < tick) (htick' : tick ≤ 99 / 100) (h : IsRung tick price) : price < 1 := by
  have htop := (h.le_top htick).trans (topTicks_mul_le htick)
  have he : e9 * tick ≤ e9 * 1 := mul_le_mul_of_nonneg_left (by linarith) e9_pos.le
  have : e9 < 1 / 100 := by norm_num [e9]
  linarith

/-- A rung lies above 0.99 only when it is the top one. -/
lemma le_iff (htick : 0 < tick) (h : IsRung tick price) :
    price ≤ 99 / 100 ↔ OffTop tick price := by
  constructor
  · intro hle
    by_cases htop : topTicks tick * tick ≤ 99 / 100
    · exact .inl htop
    · refine .inr fun heq => htop ?_
      rwa [← heq]
  · rintro (htop | hne)
    · exact (h.le_top htick).trans htop
    · obtain ⟨k, -, hk, rfl⟩ := h
      have hlt : k < topTicks tick := lt_of_le_of_ne hk fun heq => hne (by rw [heq])
      have hk' : (k : ℚ) + 1 ≤ topTicks tick := by exact_mod_cast hlt
      have hstep : ((k : ℚ) + 1) * tick ≤ topTicks tick * tick :=
        mul_le_mul_of_nonneg_right hk' htick.le
      have htop := topTicks_mul_le htick
      have he : e9 * tick ≤ 1 * tick :=
        mul_le_mul_of_nonneg_right (by norm_num [e9]) htick.le
      linarith

end IsRung

/-- The clamp of the planner ends on a rung. -/
lemma isRung_clampBinaryPrice {tick price : ℚ} (htick : 0 < tick) (htick' : tick ≤ 99 / 100) :
    IsRung tick (clampBinaryPrice price tick) := by
  have hge : tick ≤ max tick (min (99 / 100) price) := le_max_left _ _
  have hle : max tick (min (99 / 100) price) ≤ 99 / 100 := max_le htick' (min_le_left _ _)
  have hone : 1 ≤ ⌊max tick (min (99 / 100) price) / tick + e9⌋ := by
    refine Int.le_floor.2 ?_
    have : 1 ≤ max tick (min (99 / 100) price) / tick := (one_le_div htick).2 hge
    have := e9_pos
    push_cast
    linarith
  refine ⟨⌊max tick (min (99 / 100) price) / tick + e9⌋, hone, ?_, ?_⟩
  · exact Int.floor_le_floor (by gcongr)
  · rw [clampBinaryPrice, roundDownToTick, if_neg (not_le.2 htick)]
    refine max_eq_right (le_mul_of_one_le_left htick.le ?_)
    exact_mod_cast hone

lemma mem_of_mem_uniquePrices {p : ℚ} {seen ps : List ℚ} (h : p ∈ uniquePrices seen ps) :
    p ∈ ps := by
  induction ps generalizing seen with
  | nil => exact h
  | cons q ps ih =>
    rw [uniquePrices] at h
    split at h
    · exact List.mem_cons_of_mem _ (ih h)
    · rcases List.mem_cons.1 h with rfl | h
      · exact List.mem_cons_self
      · exact List.mem_cons_of_mem _ (ih h)

lemma length_uniquePrices_le (seen ps : List ℚ) : (uniquePrices seen ps).length ≤ ps.length := by
  induction ps generalizing seen with
  | nil => exact le_rfl
  | cons q ps ih =>
    rw [uniquePrices]
    split
    · exact (ih seen).trans (Nat.le_succ _)
    · exact Nat.succ_le_succ (ih _)

lemma uniquePrices_ne_nil {ps : List ℚ} (h : ps ≠ []) : uniquePrices [] ps ≠ [] := by
  cases ps with
  | nil => exact absurd rfl h
  | cons p ps => simp [uniquePrices]

/-! ## Weights -/

/-- Positive numbers divided by their sum: a share each, and the shares make one. -/
lemma shares_of_pos {raw : List ℚ} (hne : raw ≠ []) (hpos : ∀ x ∈ raw, 0 < x) :
    0 < raw.sum ∧ (∀ w ∈ raw.map (· / raw.sum), 0 < w) ∧ (raw.map (· / raw.sum)).sum = 1 := by
  have hsum : 0 < raw.sum := List.sum_pos raw hpos hne
  refine ⟨hsum, ?_, ?_⟩
  · intro w hw
    obtain ⟨x, hx, rfl⟩ := List.mem_map.1 hw
    exact div_pos (hpos x hx) hsum
  · have : raw.map (· / raw.sum) = raw.map (· * raw.sum⁻¹) :=
      List.map_congr_left fun x _ => div_eq_mul_inv x _
    rw [this, List.sum_map_mul_right, List.map_id', mul_inv_cancel₀ hsum.ne']

/-- The weights of a ladder: one for each level, positive, and one together. -/
lemma distributionWeights_spec {levels : ℕ} (hlevels : 1 ≤ levels) (distribution : Distribution) :
    (distributionWeights levels distribution).length = levels ∧
      (∀ w ∈ distributionWeights levels distribution, 0 < w) ∧
      (distributionWeights levels distribution).sum = 1 := by
  have hspec : ∀ raw : List ℚ, raw.length = levels → (∀ x ∈ raw, 0 < x) →
      let weights := if raw.sum ≤ 0 then List.replicate levels (1 / (levels : ℚ))
        else raw.map (· / raw.sum)
      weights.length = levels ∧ (∀ w ∈ weights, 0 < w) ∧ weights.sum = 1 := by
    intro raw hlength hpos
    have hne : raw ≠ [] := by
      rintro rfl
      simp at hlength
      omega
    obtain ⟨hsum, hw, hone⟩ := shares_of_pos hne hpos
    dsimp only
    rw [if_neg (not_le.2 hsum)]
    exact ⟨by simpa using hlength, hw, hone⟩
  unfold distributionWeights
  rw [max_eq_right hlevels]
  refine hspec _ ?_ ?_
  · cases distribution <;> simp
  · intro x hx
    cases distribution with
    | uniform => rw [List.eq_of_mem_replicate hx]; exact one_pos
    | frontLoaded =>
      obtain ⟨i, hi, rfl⟩ := List.mem_map.1 hx
      have := List.mem_range.1 hi
      exact_mod_cast Nat.sub_pos_of_lt this
    | backLoaded =>
      obtain ⟨i, -, rfl⟩ := List.mem_map.1 hx
      exact_mod_cast Nat.succ_pos i

/-! ## The chunk loop -/

/-- The chunks that the loop goes through, with the number of them that the order types are spread
over. -/
def chunkSlots (policy : ExitPolicy) (nominalChunkSize minNotional targetSize : ℚ)
    (prices weights : List ℚ) : List (ℚ × ℚ × ℕ) × ℤ :=
  let nominalChunks := max 1 ⌈targetSize / nominalChunkSize⌉
  let totalChunksCap := min policy.maxChunks nominalChunks
  let raw := chunksPerLevel minNotional nominalChunkSize 0
    (prices.zip (weights.map (· * targetSize)))
  let credited := creditTrailing raw.2 raw.1
  let totalChunks : ℤ := ((credited.map Prod.fst).sum : ℕ)
  let perLevel := peel weights (totalChunks - totalChunksCap).toNat credited
  (((prices.zip perLevel).mapIdx fun i l =>
      if l.2.2 ≤ 0 then [] else List.replicate l.2.1 (l.1, l.2.2, i)).flatten,
    ((perLevel.map Prod.fst).sum : ℕ))

lemma chunkedPlans_eq (d : ChildDefaults) (policy : ExitPolicy)
    (nominalChunkSize minNotional targetSize : ℚ) (prices weights : List ℚ) :
    chunkedPlans d policy nominalChunkSize minNotional targetSize prices weights =
      let slots := chunkSlots policy nominalChunkSize minNotional targetSize prices weights
      let emitted := emitChunks targetSize slots.1
      let plans := toPlans d slots.2 emitted.1
      if emitted.2 > e9 then growFirst emitted.2 plans else plans := rfl

/-- A fold that keeps its choice or takes the next candidate chooses a candidate, if there is one.
-/
lemma foldl_pick {α : Type} {f : Option α → α → Option α}
    (hf : ∀ acc a, f acc a = some a ∨ f acc a = acc ∧ acc ≠ none) (candidates : List α)
    (acc : Option α) :
    (candidates.foldl f acc = none → acc = none ∧ candidates = []) ∧
      ∀ a, candidates.foldl f acc = some a → acc = some a ∨ a ∈ candidates := by
  induction candidates generalizing acc with
  | nil => exact ⟨fun h => ⟨h, rfl⟩, fun a h => .inl h⟩
  | cons b candidates ih =>
    obtain ⟨hnone, hsome⟩ := ih (f acc b)
    rw [List.foldl_cons]
    rcases hf acc b with hb | ⟨hb, hacc⟩
    · rw [hb] at hnone hsome ⊢
      refine ⟨fun h => absurd (hnone h).1 (by simp), fun a h => ?_⟩
      rcases hsome a h with h | h
      · exact .inr (by rw [Option.some.inj h]; exact List.mem_cons_self)
      · exact .inr (List.mem_cons_of_mem _ h)
    · rw [hb] at hnone hsome ⊢
      refine ⟨fun h => absurd (hnone h).1 hacc, fun a h => ?_⟩
      exact (hsome a h).imp_right (List.mem_cons_of_mem _)

/-- One more candidate is picked, or the one that was picked before stays. -/
lemma pick_cases (better : ℕ → ℕ → Bool) (acc : Option ℕ) (i : ℕ) :
    (match acc with
      | none => some i
      | some j => if better i j then some i else some j) = some i ∨
    (match acc with
      | none => some i
      | some j => if better i j then some i else some j) = acc ∧ acc ≠ none := by
  cases acc with
  | none => exact .inl rfl
  | some j =>
    by_cases hbetter : better i j
    · exact .inl (if_pos hbetter)
    · exact .inr ⟨if_neg hbetter, Option.some_ne_none j⟩

/-- The candidate for peeling has chunks, and there is one as long as some level has. -/
lemma peelCandidate_spec (weights : List ℚ) (perLevel : List (ℕ × ℚ)) :
    match peelCandidate weights perLevel with
    | some k => k < perLevel.length ∧ 0 < (perLevel.getD k (0, 0)).1
    | none => ∀ k < perLevel.length, (perLevel.getD k (0, 0)).1 = 0 := by
  unfold peelCandidate
  dsimp only
  split
  case h_1 k hk =>
    rcases (foldl_pick (pick_cases _) _ _).2 k hk with h | h
    · cases h
    · obtain ⟨hrange, hpos⟩ := List.mem_filter.1 h
      exact ⟨List.mem_range.1 hrange, of_decide_eq_true hpos⟩
  case h_2 hnone =>
    have hempty := ((foldl_pick (pick_cases _) _ _).1 hnone).2
    intro k hk
    by_contra hpos
    have hmem := List.filter_eq_nil_iff.1 hempty k (List.mem_range.2 hk)
    exact hmem (decide_eq_true (Nat.pos_of_ne_zero hpos))

/-- Taking a chunk from a level takes one from the sum. -/
lemma sum_modify_pred {perLevel : List (ℕ × ℚ)} {k : ℕ} (hk : k < perLevel.length)
    (hpos : 0 < (perLevel.getD k (0, 0)).1) :
    ((perLevel.modify k fun l => (l.1 - 1, l.2)).map Prod.fst).sum + 1 =
      (perLevel.map Prod.fst).sum := by
  induction perLevel generalizing k with
  | nil => simp at hk
  | cons l perLevel ih =>
    cases k with
    | zero =>
      have hl : 0 < l.1 := by simpa using hpos
      simp only [List.modify_zero_cons, List.map_cons, List.sum_cons]
      omega
    | succ k =>
      have := ih (by simpa using hk) (by simpa using hpos)
      simp only [List.modify_succ_cons, List.map_cons, List.sum_cons]
      omega

/-- Peeling brings the chunks down by the excess. -/
lemma sum_peel_le (weights : List ℚ) (excess : ℕ) (perLevel : List (ℕ × ℚ)) :
    ((peel weights excess perLevel).map Prod.fst).sum ≤ (perLevel.map Prod.fst).sum - excess := by
  induction excess generalizing perLevel with
  | zero => exact le_rfl
  | succ excess ih =>
    have hspec := peelCandidate_spec weights perLevel
    rw [peel]
    split
    case h_1 hnone =>
      rw [hnone] at hspec
      have hzero : (perLevel.map Prod.fst).sum = 0 := by
        refine List.sum_eq_zero fun n hn => ?_
        obtain ⟨l, hl, rfl⟩ := List.mem_map.1 hn
        obtain ⟨k, hk, rfl⟩ := List.mem_iff_getElem.1 hl
        have := hspec k hk
        rwa [List.getD_eq_getElem _ _ hk] at this
      omega
    case h_2 k hk =>
      rw [hk] at hspec
      have hmodify := sum_modify_pred hspec.1 hspec.2
      have := ih (perLevel.modify k fun l => (l.1 - 1, l.2))
      omega

lemma length_flatten_mapIdx_le {α β : Type} {g : α → ℕ} {f : ℕ → α → List β}
    (h : ∀ i a, (f i a).length ≤ g a) (l : List α) :
    (l.mapIdx f).flatten.length ≤ (l.map g).sum := by
  induction l generalizing f with
  | nil => simp
  | cons a l ih =>
    have := h 0 a
    have := ih (f := fun i => f (i + 1)) fun i a => h (i + 1) a
    simp only [List.mapIdx_cons, List.flatten_cons, List.length_append, List.map_cons,
      List.sum_cons]
    omega

lemma sum_zip_le (prices : List ℚ) (perLevel : List (ℕ × ℚ)) :
    ((prices.zip perLevel).map fun l => l.2.1).sum ≤ (perLevel.map Prod.fst).sum := by
  induction prices generalizing perLevel with
  | nil => simp
  | cons p prices ih =>
    cases perLevel with
    | nil => simp
    | cons l perLevel =>
      have := ih perLevel
      simp only [List.zip_cons_cons, List.map_cons, List.sum_cons]
      omega

/-- The slots are chunks of positive size at the prices of the ladder, no more than allowed. -/
lemma chunkSlots_spec {policy : ExitPolicy} (hmax : 1 ≤ policy.maxChunks)
    (nominalChunkSize minNotional targetSize : ℚ) (prices weights : List ℚ) :
    let slots := (chunkSlots policy nominalChunkSize minNotional targetSize prices weights).1
    (∀ s ∈ slots, s.1 ∈ prices ∧ 0 < s.2.1) ∧ (slots.length : ℤ) ≤ policy.maxChunks := by
  intro slots
  constructor
  · intro s hs
    obtain ⟨block, hblock, hsblock⟩ := List.mem_flatten.1 hs
    obtain ⟨i, hi, rfl⟩ := List.mem_mapIdx.1 hblock
    split at hsblock
    · cases hsblock
    · next hpos =>
      obtain rfl := List.eq_of_mem_replicate hsblock
      exact ⟨(List.of_mem_zip (List.getElem_mem hi)).1, not_le.1 hpos⟩
  · set credited := creditTrailing (chunksPerLevel minNotional nominalChunkSize 0
      (prices.zip (weights.map (· * targetSize)))).2 (chunksPerLevel minNotional nominalChunkSize 0
      (prices.zip (weights.map (· * targetSize)))).1 with hcredited
    set cap := min policy.maxChunks (max 1 ⌈targetSize / nominalChunkSize⌉) with hcap
    have hcap' : 1 ≤ cap ∧ cap ≤ policy.maxChunks :=
      ⟨le_min hmax (le_max_left _ _), min_le_left _ _⟩
    have hslots : slots.length ≤
        ((peel weights ((((credited.map Prod.fst).sum : ℕ) : ℤ) - cap).toNat credited).map
          Prod.fst).sum := by
      refine (length_flatten_mapIdx_le (g := fun l => l.2.1) (fun i l => ?_) _).trans
        (sum_zip_le _ _)
      split <;> simp
    have hpeel := sum_peel_le weights ((((credited.map Prod.fst).sum : ℕ) : ℤ) - cap).toNat credited
    omega

/-- The loop emits chunks of positive size that add up to what it takes from the target. -/
lemma emitChunks_spec {remaining : ℚ} {slots : List (ℚ × ℚ × ℕ)} (hremaining : 0 ≤ remaining)
    (hslots : ∀ s ∈ slots, 0 < s.2.1) :
    (∀ c ∈ (emitChunks remaining slots).1, 0 < c.2.1 ∧ ∃ s ∈ slots, s.1 = c.1) ∧
      ((emitChunks remaining slots).1.map fun c => c.2.1).sum +
        (emitChunks remaining slots).2 = remaining ∧
      0 ≤ (emitChunks remaining slots).2 ∧
      (emitChunks remaining slots).1.length ≤ slots.length := by
  induction slots generalizing remaining with
  | nil => simp [emitChunks, hremaining]
  | cons s slots ih =>
    obtain ⟨price, chunk, level⟩ := s
    obtain ⟨hchunk, hslots⟩ := List.forall_mem_cons.1 hslots
    rw [emitChunks]
    split
    · simp [hremaining]
    · next hleft =>
      have hsz : 0 < min chunk remaining := lt_min hchunk (not_le.1 hleft)
      have hrest : 0 ≤ remaining - min chunk remaining := sub_nonneg.2 (min_le_right _ _)
      obtain ⟨hc, hsum, hnonneg, hlength⟩ := ih hrest hslots
      refine ⟨?_, ?_, hnonneg, Nat.succ_le_succ hlength⟩
      · refine List.forall_mem_cons.2 ⟨⟨hsz, _, List.mem_cons_self, rfl⟩, fun c hmem => ?_⟩
        obtain ⟨hpos, s, hs, hprice⟩ := hc c hmem
        exact ⟨hpos, s, List.mem_cons_of_mem _ hs, hprice⟩
      · dsimp only
        rw [List.map_cons, List.sum_cons]
        linarith

/-! ## The sizing stage -/

section Sizing

variable (targetSize triggerPrice : ℚ) (side : Side) (policy : ExitPolicy) (tickSize : ℚ)
  (tif : Tif) (postOnly : Bool)

/-- `unique_prices` -/
def ladderPrices : List ℚ :=
  let levels := (max 1 (min policy.maxChunks (policy.ladder.elim 1 LadderSpec.levels))).toNat
  let stepTicks := policy.ladder.elim 0 fun l => max 0 l.stepTicks
  let offsetTicks := policy.ladder.elim 0 fun l => max 0 l.offsetTicks
  uniquePrices [] (rawPrices levels offsetTicks stepTicks tickSize triggerPrice side)

/-- The weights of the prices. -/
def ladderWeights : List ℚ :=
  distributionWeights (ladderPrices triggerPrice side policy tickSize).length
    (policy.ladder.elim .uniform LadderSpec.distribution)

/-- The children before the final pass. -/
def sizedPlans : List ChildPlan :=
  let prices := ladderPrices triggerPrice side policy tickSize
  let weights := ladderWeights triggerPrice side policy tickSize
  let d : ChildDefaults := ⟨tif, postOnly, policy.orderTypeMix⟩
  match policy.chunkSize with
  | some chunkSize =>
    if chunkSize > 0 then
      chunkedPlans d policy chunkSize policy.minChunkNotionalUsd targetSize prices weights
    else levelPlans d targetSize prices weights
  | none => levelPlans d targetSize prices weights

/-- `remaining_size` at the end of the chunk loop, zero where no such loop runs. -/
def remainingSize : ℚ :=
  match policy.chunkSize with
  | some chunkSize =>
    if chunkSize > 0 then
      (emitChunks targetSize (chunkSlots policy chunkSize policy.minChunkNotionalUsd targetSize
        (ladderPrices triggerPrice side policy tickSize)
        (ladderWeights triggerPrice side policy tickSize)).1).2
    else 0
  | none => 0

/-- What the planner makes of the children that have passed. -/
def finishPlan (basePrice minNotional : ℚ) (enforced : List ChildPlan × ℚ) : List ChildPlan :=
  match enforced.1 with
  | [] =>
    if basePrice * targetSize + e9 < minNotional then []
    else
      [{ index := 0, price := basePrice, size := targetSize, tif := tif
         postOnly := postOnly, distributionBucket := levelBucket 0 }]
  | survivors =>
    let grown := if enforced.2 > 0 then growFirst enforced.2 survivors else survivors
    grown.mapIdx fun i c => { c with index := i }

lemma planChildren_eq (htarget : 0 < targetSize) (htrigger : 0 < triggerPrice) :
    planChildren targetSize triggerPrice side policy tickSize tif postOnly =
      finishPlan targetSize tif postOnly ((ladderPrices triggerPrice side policy tickSize).headD 0)
        policy.minChunkNotionalUsd
        (enforceMinNotional policy.minChunkNotionalUsd targetSize
          (sizedPlans targetSize triggerPrice side policy tickSize tif postOnly)) := by
  rw [planChildren, if_neg (by rintro (h | h) <;> linarith)]
  rfl

/-- What the sizing stage guarantees: the rungs of the ladder, positive sizes that add up to the
target but for `residue`, no more children than allowed. -/
structure Sized (residue : ℚ) (plans : List ChildPlan) : Prop where
  rung : ∀ c ∈ plans, IsRung tickSize c.price
  positive : ∀ c ∈ plans, 0 < c.size
  total : plans ≠ [] → (plans.map ChildPlan.size).sum + residue = targetSize
  count : (plans.length : ℤ) ≤ policy.maxChunks

end Sizing

section SizedStage

variable {targetSize triggerPrice : ℚ} {side : Side} {policy : ExitPolicy} {tickSize : ℚ}
  {tif : Tif} {postOnly : Bool}

lemma length_rawPrices (levels : ℕ) (offsetTicks stepTicks : ℤ) (tickSize triggerPrice : ℚ)
    (side : Side) : (rawPrices levels offsetTicks stepTicks tickSize triggerPrice side).length =
      levels := by
  simp [rawPrices]

variable (triggerPrice side) in
/-- The prices of the ladder: some rungs, no more than allowed. -/
lemma ladderPrices_spec (hmax : 1 ≤ policy.maxChunks) (htick : 0 < tickSize)
    (htick' : tickSize ≤ 99 / 100) :
    (∀ p ∈ ladderPrices triggerPrice side policy tickSize, IsRung tickSize p) ∧
      ladderPrices triggerPrice side policy tickSize ≠ [] ∧
      ((ladderPrices triggerPrice side policy tickSize).length : ℤ) ≤ policy.maxChunks := by
  refine ⟨fun p hp => ?_, ?_, ?_⟩
  · obtain ⟨i, -, rfl⟩ := List.mem_map.1 (mem_of_mem_uniquePrices hp)
    exact isRung_clampBinaryPrice htick htick'
  · refine uniquePrices_ne_nil fun h => ?_
    have hlength := congrArg List.length h
    rw [length_rawPrices, List.length_nil] at hlength
    omega
  · have hle := length_uniquePrices_le [] (rawPrices
      (max 1 (min policy.maxChunks (policy.ladder.elim 1 LadderSpec.levels))).toNat
      (policy.ladder.elim 0 fun l => max 0 l.offsetTicks)
      (policy.ladder.elim 0 fun l => max 0 l.stepTicks) tickSize triggerPrice side)
    rw [length_rawPrices] at hle
    simp only [ladderPrices]
    omega

lemma map_size_toPlans (d : ChildDefaults) (total : ℤ) (children : List (ℚ × ℚ × ℕ)) :
    (toPlans d total children).map ChildPlan.size = children.map fun c => c.2.1 := by
  refine List.ext_getElem (by simp [toPlans]) fun i h h' => ?_
  simp [toPlans]

lemma mem_toPlans {d : ChildDefaults} {total : ℤ} {children : List (ℚ × ℚ × ℕ)} {c : ChildPlan}
    (h : c ∈ toPlans d total children) : ∃ s ∈ children, c.price = s.1 ∧ c.size = s.2.1 := by
  obtain ⟨i, hi, rfl⟩ := List.mem_mapIdx.1 h
  exact ⟨_, List.getElem_mem hi, rfl, rfl⟩

/-- The first child takes what is added. -/
lemma sum_growFirst {extra : ℚ} {plans : List ChildPlan} (hne : plans ≠ []) :
    ((growFirst extra plans).map ChildPlan.size).sum =
      (plans.map ChildPlan.size).sum + extra := by
  cases plans with
  | nil => exact absurd rfl hne
  | cons c cs =>
    simp only [growFirst, List.map_cons, List.sum_cons]
    ring

/-- Growing the first child keeps the prices and makes no child smaller. -/
lemma mem_growFirst {extra : ℚ} (hextra : 0 ≤ extra) {plans : List ChildPlan} {c : ChildPlan}
    (h : c ∈ growFirst extra plans) : ∃ c' ∈ plans, c.price = c'.price ∧ c'.size ≤ c.size := by
  cases plans with
  | nil => cases h
  | cons c₀ cs =>
    rcases List.mem_cons.1 h with rfl | h
    · exact ⟨c₀, List.mem_cons_self, rfl, le_add_of_nonneg_right hextra⟩
    · exact ⟨c, List.mem_cons_of_mem _ h, rfl, le_rfl⟩

lemma length_growFirst (extra : ℚ) (plans : List ChildPlan) :
    (growFirst extra plans).length = plans.length := by
  cases plans <;> rfl

variable (triggerPrice side) in
/-- One child a level. -/
lemma sized_levelPlans (hmax : 1 ≤ policy.maxChunks) (htarget : 0 < targetSize)
    (htick : 0 < tickSize) (htick' : tickSize ≤ 99 / 100) (d : ChildDefaults) :
    Sized targetSize policy tickSize 0
      (levelPlans d targetSize (ladderPrices triggerPrice side policy tickSize)
        (ladderWeights triggerPrice side policy tickSize)) := by
  set prices := ladderPrices triggerPrice side policy tickSize with hprices
  set weights := ladderWeights triggerPrice side policy tickSize with hweights
  obtain ⟨hrung, hne, hcount⟩ := ladderPrices_spec triggerPrice side hmax htick htick'
  obtain ⟨hlength, hpos, hsum⟩ := distributionWeights_spec (List.length_pos_of_ne_nil hne)
    (policy.ladder.elim .uniform LadderSpec.distribution)
  have hmem : ∀ c ∈ levelPlans d targetSize prices weights,
      ∃ l ∈ prices.zip weights, c.price = l.1 ∧ c.size = l.2 * targetSize := by
    intro c hc
    obtain ⟨s, hs, hprice, hsize⟩ := mem_toPlans hc
    obtain ⟨i, hi, rfl⟩ := List.mem_mapIdx.1 hs
    exact ⟨_, List.getElem_mem hi, hprice, hsize⟩
  refine ⟨fun c hc => ?_, fun c hc => ?_, fun _ => ?_, ?_⟩
  · obtain ⟨l, hl, hprice, -⟩ := hmem c hc
    rw [hprice]
    exact hrung _ (List.of_mem_zip hl).1
  · obtain ⟨l, hl, -, hsize⟩ := hmem c hc
    rw [hsize]
    exact mul_pos (hpos _ (List.of_mem_zip hl).2) htarget
  · have hsizes : (levelPlans d targetSize prices weights).map ChildPlan.size =
        ((prices.zip weights).map Prod.snd).map (· * targetSize) := by
      rw [levelPlans, map_size_toPlans]
      refine List.ext_getElem (by simp) fun i h h' => ?_
      simp
    have hzip : weights.length ≤ prices.length := hlength.le
    have hone : weights.sum = 1 := hsum
    rw [hsizes, List.map_snd_zip hzip, List.sum_map_mul_right, List.map_id', hone]
    ring
  · refine le_trans ?_ hcount
    simp [levelPlans, toPlans, prices]

/-- The chunks, with what the loop has left where that is too little to be attached. -/
lemma sized_chunkedPlans (hmax : 1 ≤ policy.maxChunks) (htarget : 0 < targetSize)
    (d : ChildDefaults)
    (chunkSize : ℚ) (prices weights : List ℚ) (hprices : ∀ p ∈ prices, IsRung tickSize p) :
    let left := (emitChunks targetSize (chunkSlots policy chunkSize policy.minChunkNotionalUsd
      targetSize prices weights).1).2
    0 ≤ left ∧ Sized targetSize policy tickSize (if left > e9 then 0 else left)
      (chunkedPlans d policy chunkSize policy.minChunkNotionalUsd targetSize prices weights) := by
  intro left
  obtain ⟨hslots, hcount⟩ := chunkSlots_spec hmax chunkSize policy.minChunkNotionalUsd targetSize
    prices weights
  obtain ⟨hchunks, hsum, hleft, hlength⟩ := emitChunks_spec htarget.le fun s hs => (hslots s hs).2
  refine ⟨hleft, ?_⟩
  set slots := chunkSlots policy chunkSize policy.minChunkNotionalUsd targetSize prices weights
    with hslotsdef
  set plans := toPlans d slots.2 (emitChunks targetSize slots.1).1 with hplans
  have hplan : ∀ c ∈ plans, IsRung tickSize c.price ∧ 0 < c.size := by
    intro c hc
    obtain ⟨s, hs, hprice, hsize⟩ := mem_toPlans hc
    obtain ⟨hpos, slot, hslot, heq⟩ := hchunks s hs
    rw [hprice, hsize, ← heq]
    exact ⟨hprices _ (hslots slot hslot).1, hpos⟩
  have htotal : (plans.map ChildPlan.size).sum + left = targetSize := by
    rw [hplans, map_size_toPlans]
    exact hsum
  have hplanscount : (plans.length : ℤ) ≤ policy.maxChunks := by
    have : plans.length = (emitChunks targetSize slots.1).1.length := by simp [hplans, toPlans]
    omega
  rw [chunkedPlans_eq]
  show Sized targetSize policy tickSize _ (if left > e9 then growFirst left plans else plans)
  split
  case isTrue hbig =>
    refine ⟨fun c hc => ?_, fun c hc => ?_, fun hne => ?_, ?_⟩
    · obtain ⟨c', hc', hprice, -⟩ := mem_growFirst hleft hc
      rw [hprice]
      exact (hplan c' hc').1
    · obtain ⟨c', hc', -, hsize⟩ := mem_growFirst hleft hc
      exact (hplan c' hc').2.trans_le hsize
    · have hne' : plans ≠ [] := by
        rintro h
        rw [h] at hne
        exact hne rfl
      rw [sum_growFirst hne', add_zero]
      exact htotal
    · rw [length_growFirst]
      exact hplanscount
  case isFalse =>
    exact ⟨fun c hc => (hplan c hc).1, fun c hc => (hplan c hc).2, fun _ => htotal, hplanscount⟩

variable (triggerPrice side tif postOnly) in
/-- What the chunk loop leaves unattached. -/
lemma sized_sizedPlans (hmax : 1 ≤ policy.maxChunks) (htarget : 0 < targetSize)
    (htick : 0 < tickSize) (htick' : tickSize ≤ 99 / 100) :
    0 ≤ remainingSize targetSize triggerPrice side policy tickSize ∧
      Sized targetSize policy tickSize
        (if remainingSize targetSize triggerPrice side policy tickSize > e9 then 0
          else remainingSize targetSize triggerPrice side policy tickSize)
        (sizedPlans targetSize triggerPrice side policy tickSize tif postOnly) := by
  have hlevels := sized_levelPlans triggerPrice side hmax htarget htick htick'
    ⟨tif, postOnly, policy.orderTypeMix⟩
  have hprices := (ladderPrices_spec triggerPrice side hmax htick htick').1
  have hsmall : ¬ (0 : ℚ) > e9 := not_lt.2 e9_pos.le
  unfold remainingSize sizedPlans
  cases hchunk : policy.chunkSize with
  | none => exact ⟨le_rfl, by simpa [hsmall] using hlevels⟩
  | some chunkSize =>
    by_cases hpos : chunkSize > 0
    · simp only [hpos, if_true]
      exact sized_chunkedPlans hmax htarget _ chunkSize _ _ hprices
    · simp only [hpos, if_false, hsmall]
      exact ⟨le_rfl, hlevels⟩

end SizedStage

end Evosport.Orchestrator
