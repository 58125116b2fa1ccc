/-
What a walk over the levels of a book does to an order.

Both matching loops (`consumeLoop` for takers and `restLoop` for resting orders) do the
same thing to the order they work for: they record fills of positive size, numbered from
the fills already there, that together are at most what remains of the order.  `Walk` is
that effect, `consumeLoop_walk` and `restLoop_walk` say that the loops have it, and the
bookkeeping invariants of an order (`Booked`) are proved once, by induction on a `Walk`.

The second half of the file computes how much a walk fills: the depth in reach, capped by
what remains of the order and, for a resting order, by the fill model.
-/
import Evosport.Backtest.Matching

namespace Evosport.Backtest

open Lib

/-- The shares of a list of fills. -/
def totalSize (fs : List Fill) : ℚ := (fs.map Fill.size).sum

/-- The notional of a list of fills. -/
def totalNotional (fs : List Fill) : ℚ := (fs.map Fill.notionalUsd).sum

@[simp] lemma totalSize_nil : totalSize [] = 0 := rfl

@[simp] lemma totalSize_cons (f : Fill) (fs : List Fill) :
    totalSize (f :: fs) = f.size + totalSize fs := by
  simp [totalSize]

@[simp] lemma totalSize_append (fs gs : List Fill) :
    totalSize (fs ++ gs) = totalSize fs + totalSize gs := by
  simp [totalSize]

@[simp] lemma totalNotional_append (fs gs : List Fill) :
    totalNotional (fs ++ gs) = totalNotional fs + totalNotional gs := by
  simp [totalNotional]

lemma totalSize_nonneg {fs : List Fill} (h : ∀ f ∈ fs, 0 < f.size) : 0 ≤ totalSize fs := by
  refine List.sum_nonneg fun q hq => ?_
  obtain ⟨f, hf, rfl⟩ := List.mem_map.1 hq
  exact (h f hf).le

/-- Fills of positive size add up to zero only when there are none. -/
lemma totalSize_eq_zero {fs : List Fill} (h : ∀ f ∈ fs, 0 < f.size) :
    totalSize fs = 0 ↔ fs = [] := by
  constructor
  · intro hzero
    cases fs with
    | nil => rfl
    | cons f fs =>
      have hf := h f List.mem_cons_self
      have hrest : 0 ≤ totalSize fs :=
        totalSize_nonneg fun g hg => h g (List.mem_cons_of_mem f hg)
      rw [totalSize_cons] at hzero
      linarith
  · rintro rfl
    rfl

/-! ## The effect of a walk -/

/-- `f` can be the next fill of `o`: it names the order, carries the next index, and takes a
positive size that the order still has open. -/
structure Fill.NextOf (f : Fill) (o : BacktestOrder) : Prop where
  orderId : f.orderId = o.orderId
  tokenId : f.tokenId = o.tokenId
  side : f.side = o.side
  index : f.fillIndex = o.fills.length
  pos : 0 < f.size
  le : o.filledSize + f.size ≤ o.size

/-- The order records the fills one after the other; the cumulative probability of the
fill model may change on the way. -/
inductive Walk : BacktestOrder → List Fill → BacktestOrder → Prop
  | done (o : BacktestOrder) : Walk o [] o
  | weigh {o o' : BacktestOrder} {fs : List Fill} (p : ℚ) :
      Walk { o with fillProbabilityCumulative := p } fs o' → Walk o fs o'
  | fill {o o' : BacktestOrder} {f : Fill} {fs : List Fill} :
      f.NextOf o → Walk (o.recordFill f) fs o' → Walk o (f :: fs) o'

/-- The bookkeeping invariants of an order: the filled size is the sum of its fills and not above
its size, the average price is theirs, and they are numbered without a gap. -/
structure BacktestOrder.Booked (o : BacktestOrder) : Prop where
  filled : o.filledSize = totalSize o.fills
  le : o.filledSize ≤ max 0 o.size
  avg : o.avgFillPrice * o.filledSize = totalNotional o.fills
  index : o.fills.map Fill.fillIndex = List.range o.fills.length
  pos : ∀ f ∈ o.fills, 0 < f.size

namespace BacktestOrder.Booked

variable {o : BacktestOrder}

lemma filledSize_nonneg (h : o.Booked) : 0 ≤ o.filledSize := by
  rw [h.filled]
  exact totalSize_nonneg h.pos

/-- An order of negative size counts as an order of size zero. -/
lemma remainingSize_eq (h : o.Booked) : o.remainingSize = max 0 o.size - o.filledSize := by
  have hle := h.le
  have hnonneg := h.filledSize_nonneg
  unfold remainingSize
  rcases le_total 0 o.size with hs | hs
  · rw [max_eq_right hs] at hle ⊢
    exact max_eq_right (by linarith)
  · rw [max_eq_left hs] at hle ⊢
    rw [le_antisymm hle hnonneg, sub_zero, sub_zero, max_eq_left hs]

/-- Recording the next fill keeps the books of the order. -/
lemma recordFill (h : o.Booked) {f : Fill} (hf : f.NextOf o) : (o.recordFill f).Booked := by
  have hpos : 0 < o.filledSize + f.size := by linarith [h.filledSize_nonneg, hf.pos]
  constructor
  · simp [BacktestOrder.recordFill, h.filled]
  · exact hf.le.trans (le_max_right _ _)
  · simp only [BacktestOrder.recordFill, if_pos hpos, totalNotional_append, ← h.avg]
    rw [div_mul_cancel₀ _ hpos.ne']
    simp [totalNotional, Fill.notionalUsd]
  · simp [BacktestOrder.recordFill, h.index, hf.index, List.range_succ]
  · intro g hg
    rcases List.mem_append.1 hg with hg | hg
    · exact h.pos g hg
    · rw [List.mem_singleton.1 hg]
      exact hf.pos

end BacktestOrder.Booked

namespace Walk

variable {o o' : BacktestOrder} {fs : List Fill}

lemma booked (hw : Walk o fs o') (h : o.Booked) : o'.Booked := by
  induction hw with
  | done => exact h
  | weigh p _ ih => exact ih ⟨h.filled, h.le, h.avg, h.index, h.pos⟩
  | fill hf _ ih => exact ih (h.recordFill hf)

/-- A walk changes the fills, the filled size, the average price and the cumulative
probability, and nothing else. -/
lemma frame (hw : Walk o fs o') :
    ∃ avg p, o' =
      { o with
        fills := o.fills ++ fs
        filledSize := o.filledSize + totalSize fs
        avgFillPrice := avg
        fillProbabilityCumulative := p } := by
  induction hw with
  | done o => exact ⟨o.avgFillPrice, o.fillProbabilityCumulative, by simp⟩
  | weigh p _ ih =>
    obtain ⟨avg, q, rfl⟩ := ih
    exact ⟨avg, q, rfl⟩
  | @fill o o' f fs hf _ ih =>
    obtain ⟨avg, q, rfl⟩ := ih
    exact ⟨avg, q, by simp [BacktestOrder.recordFill, add_assoc]⟩

lemma fills_eq (hw : Walk o fs o') : o'.fills = o.fills ++ fs := by
  obtain ⟨_, _, rfl⟩ := hw.frame
  rfl

lemma filledSize_eq (hw : Walk o fs o') : o'.filledSize = o.filledSize + totalSize fs := by
  obtain ⟨_, _, rfl⟩ := hw.frame
  rfl

lemma orderId_eq (hw : Walk o fs o') : o'.orderId = o.orderId := by
  obtain ⟨_, _, rfl⟩ := hw.frame
  rfl

lemma state_eq (hw : Walk o fs o') : o'.state = o.state := by
  obtain ⟨_, _, rfl⟩ := hw.frame
  rfl

lemma tokenId_eq (hw : Walk o fs o') : o'.tokenId = o.tokenId := by
  obtain ⟨_, _, rfl⟩ := hw.frame
  rfl

lemma size_eq (hw : Walk o fs o') : o'.size = o.size := by
  obtain ⟨_, _, rfl⟩ := hw.frame
  rfl

/-- The fills of a walk are fills of the order. -/
lemma own (hw : Walk o fs o') {f : Fill} (hf : f ∈ fs) :
    f.orderId = o.orderId ∧ f.tokenId = o.tokenId ∧ f.side = o.side ∧ 0 < f.size := by
  induction hw with
  | done => cases hf
  | weigh p _ ih => exact ih hf
  | fill hnext _ ih =>
    rcases List.mem_cons.1 hf with rfl | hf
    · exact ⟨hnext.orderId, hnext.tokenId, hnext.side, hnext.pos⟩
    · exact ih hf

lemma pos (hw : Walk o fs o') : ∀ f ∈ fs, 0 < f.size := fun _ hf => (hw.own hf).2.2.2

end Walk

/-! ## The two loops walk -/

variable {cfg : MatchingConfig}

lemma takerFill_nextOf (snap : BookSnapshot) (impactFactor : ℚ) (occurredAt : Time)
    (o : BacktestOrder) (price : ℚ) {take : ℚ} (hpos : 0 < take)
    (hle : o.filledSize + take ≤ o.size) :
    (takerFill cfg snap impactFactor occurredAt o price take).NextOf o :=
  ⟨rfl, rfl, rfl, rfl, hpos, hle⟩

lemma restingFill_nextOf (snap : BookSnapshot) (o : BacktestOrder) {size : ℚ} (hpos : 0 < size)
    (hle : o.filledSize + size ≤ o.size) : (restingFill cfg snap o size).NextOf o :=
  ⟨rfl, rfl, rfl, rfl, hpos, hle⟩

/-- A taker walks. -/
lemma consumeLoop_walk (impactFactor : ℚ) (occurredAt : Time) (levels : List (ℚ × ℚ))
    (o : BacktestOrder) (book : ResidualBook) (remaining : ℚ)
    (hrem : o.filledSize + remaining ≤ o.size) :
    Walk o (consumeLoop cfg impactFactor occurredAt levels o book remaining).fills
      (consumeLoop cfg impactFactor occurredAt levels o book remaining).order := by
  induction levels generalizing o book remaining with
  | nil => exact .done o
  | cons l levels ih =>
    obtain ⟨price, qty⟩ := l
    unfold consumeLoop
    by_cases hdone : remaining ≤ 0
    · rw [if_pos hdone]
      exact .done o
    rw [if_neg hdone]
    by_cases hqty : qty ≤ 0
    · rw [if_pos hqty]
      exact ih o book remaining hrem
    rw [if_neg hqty]
    split
    · exact .done o
    · have hpos : 0 < min qty remaining := lt_min (not_le.1 hqty) (not_le.1 hdone)
      have hle : min qty remaining ≤ remaining := min_le_right _ _
      refine .fill (takerFill_nextOf _ _ _ _ _ hpos (by linarith)) (ih _ _ _ ?_)
      simp only [BacktestOrder.recordFill, takerFill]
      linarith

/-- The take of the fill model is at most the candidate, and the order keeps its books. -/
lemma fillProbabilityCappedTake_spec (cfg : MatchingConfig) (o : BacktestOrder)
    (snap : BookSnapshot) (candidate : ℚ) :
    (fillProbabilityCappedTake cfg o snap candidate).1 ≤ candidate ∧
      ∃ p, (fillProbabilityCappedTake cfg o snap candidate).2 =
        { o with fillProbabilityCumulative := p } := by
  unfold fillProbabilityCappedTake
  split
  · split
    · exact ⟨le_refl _, o.fillProbabilityCumulative, rfl⟩
    · exact ⟨min_le_left _ _, _, rfl⟩
  · exact ⟨le_refl _, o.fillProbabilityCumulative, rfl⟩

/-- A resting order walks. -/
lemma restLoop_walk (snap : BookSnapshot) (levels : List (ℚ × ℚ)) (o : BacktestOrder)
    (book : ResidualBook) (remaining : ℚ) (hrem : o.filledSize + remaining ≤ o.size) :
    Walk o (restLoop cfg snap levels o book remaining).fills
      (restLoop cfg snap levels o book remaining).order := by
  induction levels generalizing o book remaining with
  | nil => exact .done o
  | cons l levels ih =>
    obtain ⟨price, qty⟩ := l
    unfold restLoop
    split
    · exact .done o
    split
    · exact .done o
    obtain ⟨hle, p, hp⟩ := fillProbabilityCappedTake_spec cfg o snap (min qty remaining)
    simp only [hp]
    refine .weigh p ?_
    split
    · exact ih _ _ _ hrem
    · next hcap =>
      have hle' : min qty remaining ≤ remaining := min_le_right _ _
      refine .fill (restingFill_nextOf _ _ (not_le.1 hcap) ?_) (ih _ _ _ ?_)
      · show o.filledSize + _ ≤ o.size
        linarith
      · simp only [BacktestOrder.recordFill, restingFill]
        linarith

/-- The snapshot of a residual book never changes. -/
@[simp] lemma ResidualBook.snapshot_consume (book : ResidualBook) (side : Side)
    (price size : ℚ) : (book.consume side price size).snapshot = book.snapshot := by
  cases side <;> rfl

lemma consumeLoop_snapshot (impactFactor : ℚ) (occurredAt : Time) (levels : List (ℚ × ℚ))
    (o : BacktestOrder) (book : ResidualBook) (remaining : ℚ) :
    (consumeLoop cfg impactFactor occurredAt levels o book remaining).book.snapshot =
      book.snapshot := by
  induction levels generalizing o book remaining with
  | nil => rfl
  | cons l levels ih =>
    unfold consumeLoop
    split
    · rfl
    split
    · exact ih _ _ _
    split
    · rfl
    · exact (ih _ _ _).trans (book.snapshot_consume _ _ _)

lemma restLoop_snapshot (snap : BookSnapshot) (levels : List (ℚ × ℚ)) (o : BacktestOrder)
    (book : ResidualBook) (remaining : ℚ) :
    (restLoop cfg snap levels o book remaining).book.snapshot = book.snapshot := by
  induction levels generalizing o book remaining with
  | nil => rfl
  | cons l levels ih =>
    unfold restLoop
    split
    · rfl
    split
    · rfl
    simp only
    split
    · exact ih _ _ _
    · exact (ih _ _ _).trans (book.snapshot_consume _ _ _)

/-- Every fill of a taker is stamped with the same time. -/
lemma consumeLoop_occurredAt (impactFactor : ℚ) (occurredAt : Time) (levels : List (ℚ × ℚ))
    (o : BacktestOrder) (book : ResidualBook) (remaining : ℚ) :
    ∀ f ∈ (consumeLoop cfg impactFactor occurredAt levels o book remaining).fills,
      f.occurredAt = occurredAt := by
  induction levels generalizing o book remaining with
  | nil => intro f hf; cases hf
  | cons l levels ih =>
    unfold consumeLoop
    split
    · intro f hf; cases hf
    split
    · exact ih _ _ _
    split
    · intro f hf; cases hf
    · intro f hf
      rcases List.mem_cons.1 hf with rfl | hf
      · rfl
      · exact ih _ _ _ f hf

variable (cfg) in
/-- Every fill of a resting order is stamped with the time of the snapshot. -/
lemma restLoop_occurredAt (snap : BookSnapshot) (levels : List (ℚ × ℚ)) (o : BacktestOrder)
    (book : ResidualBook) (remaining : ℚ) :
    ∀ f ∈ (restLoop cfg snap levels o book remaining).fills, f.occurredAt = snap.observedAt := by
  induction levels generalizing o book remaining with
  | nil => intro f hf; cases hf
  | cons l levels ih =>
    unfold restLoop
    split
    · intro f hf; cases hf
    split
    · intro f hf; cases hf
    simp only
    split
    · exact ih _ _ _
    · intro f hf
      rcases List.mem_cons.1 hf with rfl | hf
      · rfl
      · exact ih _ _ _ f hf

/-! ## How much a walk fills -/

/-- Behind a level out of reach everything is out of reach. -/
def ReachSorted (side : Side) (limit : ℚ) (levels : List (ℚ × ℚ)) : Prop :=
  levels.Pairwise fun a b => beyondLimit side limit a.1 = true → beyondLimit side limit b.1 = true

lemma reachSorted_remaining (book : ResidualBook) (side : Side) (limit : ℚ) :
    ReachSorted side limit (book.remaining side) := by
  unfold ReachSorted ResidualBook.remaining
  rw [List.pairwise_map]
  exact (ladder_pairwise book.snapshot side).imp fun h => h limit

lemma remaining_nonneg {book : ResidualBook} {side : Side} {l : ℚ × ℚ}
    (h : l ∈ book.remaining side) : 0 ≤ l.2 := by
  obtain ⟨level, _, rfl⟩ := List.mem_map.1 h
  exact le_max_left _ _

section Depth

variable {side : Side} {limit : ℚ} {price qty : ℚ} {levels : List (ℚ × ℚ)}

lemma visibleDepth_nonneg (side : Side) (limit : ℚ) (levels : List (ℚ × ℚ)) :
    0 ≤ visibleDepth side limit levels := by
  refine List.sum_nonneg fun q hq => ?_
  obtain ⟨l, hl, rfl⟩ := List.mem_map.1 hq
  have hpos := (List.mem_filter.1 hl).2
  simp only [Bool.and_eq_true, decide_eq_true_eq] at hpos
  exact hpos.1.le

lemma visibleDepth_cons_of_reach (hqty : 0 < qty) (hreach : beyondLimit side limit price = false) :
    visibleDepth side limit ((price, qty) :: levels) =
      qty + visibleDepth side limit levels := by
  simp [visibleDepth, hqty, hreach]

lemma visibleDepth_cons_of_empty (hqty : qty ≤ 0) :
    visibleDepth side limit ((price, qty) :: levels) = visibleDepth side limit levels := by
  simp [visibleDepth, not_lt.2 hqty]

/-- A sorted ladder whose first level is out of reach shows no depth. -/
lemma visibleDepth_eq_zero (hsort : ReachSorted side limit ((price, qty) :: levels))
    (hout : beyondLimit side limit price = true) :
    visibleDepth side limit ((price, qty) :: levels) = 0 := by
  have hall : ∀ l ∈ (price, qty) :: levels, beyondLimit side limit l.1 = true := by
    intro l hl
    rcases List.mem_cons.1 hl with rfl | hl
    · exact hout
    · exact (List.pairwise_cons.1 hsort).1 l hl hout
  unfold visibleDepth
  rw [List.filter_eq_nil_iff.2, List.map_nil, List.sum_nil]
  intro l hl
  simp [hall l hl]

end Depth

/-- `_available_for_taker` is the depth in reach. -/
lemma availableForTaker_eq (book : ResidualBook) (side : Side) (limit : ℚ) :
    availableForTaker book side limit = visibleDepth side limit (book.remaining side) := by
  have hsum : ∀ levels : List (ℚ × ℚ), (∀ l ∈ levels, 0 ≤ l.2) →
      ((levels.filter fun l => !beyondLimit side limit l.1).map Prod.snd).sum =
        visibleDepth side limit levels := by
    intro levels
    induction levels with
    | nil => intro _; rfl
    | cons l levels ih =>
      intro hnonneg
      obtain ⟨price, qty⟩ := l
      have ih' := ih fun l hl => hnonneg l (List.mem_cons_of_mem _ hl)
      rcases (hnonneg (price, qty) List.mem_cons_self).lt_or_eq with hq | hq
      · by_cases hb : beyondLimit side limit price = true
        · simp [visibleDepth, hb] at ih' ⊢
          exact ih'
        · rw [visibleDepth_cons_of_reach hq (by simpa using hb), ← ih']
          simp [hb]
      · rw [visibleDepth_cons_of_empty (le_of_eq hq.symm), ← ih']
        have hq0 : qty = 0 := hq.symm
        by_cases hb : beyondLimit side limit price = true <;> simp [hb, hq0]
  rw [← hsum _ fun l hl => remaining_nonneg hl]
  unfold availableForTaker
  refine congrArg (fun ls : List (ℚ × ℚ) => (ls.map Prod.snd).sum)
    (List.filter_congr fun l _ => ?_)
  cases side with
  | sell =>
    simp only [beyondLimit, ge_iff_le, ← decide_not, decide_eq_decide, not_lt]
    constructor <;> intro h <;> linarith
  | buy =>
    simp only [beyondLimit, gt_iff_lt, ← decide_not, decide_eq_decide, not_lt]
    constructor <;> intro h <;> linarith

/-- A taker fills the depth in reach, up to what it asks for. -/
lemma consumeLoop_total (impactFactor : ℚ) (occurredAt : Time) (levels : List (ℚ × ℚ))
    (o : BacktestOrder) (book : ResidualBook) (remaining : ℚ) (hrem : 0 ≤ remaining)
    (hsort : ReachSorted o.side o.price levels) :
    totalSize (consumeLoop cfg impactFactor occurredAt levels o book remaining).fills =
      min remaining (visibleDepth o.side o.price levels) := by
  induction levels generalizing o book remaining with
  | nil => simp [consumeLoop, visibleDepth, hrem]
  | cons l levels ih =>
    obtain ⟨price, qty⟩ := l
    have hdepth := visibleDepth_nonneg o.side o.price levels
    have htail := (List.pairwise_cons.1 hsort).2
    unfold consumeLoop
    split
    · next hdone =>
      have hzero : remaining = 0 := le_antisymm hdone hrem
      rw [hzero, min_eq_left (visibleDepth_nonneg _ _ _)]
      rfl
    split
    · next hqty => rw [visibleDepth_cons_of_empty hqty, ih _ _ _ hrem htail]
    split
    · next hout => rw [visibleDepth_eq_zero hsort hout, min_eq_right hrem]; rfl
    · next hqty hout =>
      have hq : 0 < qty := not_le.1 hqty
      have hle : min qty remaining ≤ remaining := min_le_right _ _
      -- the rest of the walk asks for what the level did not give
      have hrest := ih (o.recordFill (takerFill cfg book.snapshot impactFactor occurredAt o price
        (min qty remaining))) (book.consume o.side price (min qty remaining))
        (remaining - min qty remaining) (by linarith) htail
      rw [visibleDepth_cons_of_reach hq (by simpa using hout), totalSize_cons, hrest]
      show min qty remaining + min (remaining - min qty remaining)
        (visibleDepth o.side o.price levels) = _
      rcases le_total qty remaining with h | h
      · rw [min_eq_left h, ← min_add_add_left]
        congr 1
        ring
      · rw [min_eq_right h, sub_self, min_eq_left hdepth, min_eq_left (by linarith)]
        ring

/-- What the loaded fill model still allows a resting order to fill; `none` when it does
not bind. -/
def modelAllowance (cfg : MatchingConfig) (o : BacktestOrder) (snap : BookSnapshot) : Option ℚ :=
  match cfg.fillModel, o.survivalCovariates with
  | some model, some covariates =>
    if covariates.entries = [] then none
    else
      let admittedAt := o.venueReceivedAt.getD o.submittedAt
      let horizonSeconds : ℚ := max 0 (((snap.observedAt - admittedAt : ℤ) : ℚ) / 10 ^ 6)
      let evaluated := model.evaluate covariates horizonSeconds cfg.fillProbabilityFallback
      some (max 0
        (o.size * max 0 (min 1 (max o.fillProbabilityCumulative evaluated)) - o.filledSize))
  | _, _ => none

/-- `x` capped by what the fill model allows. -/
def capBy (allowance : Option ℚ) (x : ℚ) : ℚ := allowance.elim x (min x)

/-- What a resting order can fill on a book. -/
def fillable (cfg : MatchingConfig) (o : BacktestOrder) (book : ResidualBook) : ℚ :=
  capBy (modelAllowance cfg o book.snapshot) (availableForTaker book o.side o.price)

/-- The clamped running maximum of the fill probabilities is idempotent. -/
private lemma clamp_max_idem (c e : ℚ) :
    max 0 (min 1 (max (max 0 (min 1 (max c e))) e)) = max 0 (min 1 (max c e)) := by
  grind

/-- One take of a resting order: the candidate capped by the model. -/
lemma fillProbabilityCappedTake_fst (cfg : MatchingConfig) (o : BacktestOrder)
    (snap : BookSnapshot) {candidate : ℚ} (hpos : 0 < candidate) :
    (fillProbabilityCappedTake cfg o snap candidate).1 =
      capBy (modelAllowance cfg o snap) candidate := by
  unfold fillProbabilityCappedTake modelAllowance
  cases cfg.fillModel with
  | none => rfl
  | some model =>
    cases o.survivalCovariates with
    | none => rfl
    | some covariates =>
      by_cases h : covariates.entries = []
      · simp [h, capBy]
      · simp [h, not_le.2 hpos, capBy]

/-- A take leaves the allowance of the model as it was. -/
lemma modelAllowance_cappedTake (cfg : MatchingConfig) (o : BacktestOrder)
    (snap : BookSnapshot) (candidate : ℚ) :
    modelAllowance cfg (fillProbabilityCappedTake cfg o snap candidate).2 snap =
      modelAllowance cfg o snap := by
  unfold fillProbabilityCappedTake
  cases hm : cfg.fillModel with
  | none => rfl
  | some model =>
    cases hc : o.survivalCovariates with
    | none => rfl
    | some covariates =>
      simp only
      split
      · rfl
      · simp only [modelAllowance, hm, hc, clamp_max_idem]

private lemma max_zero_sub {x f : ℚ} (hf : 0 < f) (hle : f ≤ max 0 x) :
    max 0 (x - f) = max 0 x - f := by
  rcases le_max_iff.1 hle with h | h
  · exact absurd h (not_le.2 hf)
  · rw [max_eq_right (by linarith), max_eq_right (by linarith)]

/-- A fill uses up the allowance. -/
lemma modelAllowance_recordFill (cfg : MatchingConfig) (o : BacktestOrder)
    (snap : BookSnapshot) (f : Fill) (hf : ∀ a, modelAllowance cfg o snap = some a → f.size ≤ a)
    (hpos : 0 < f.size) :
    modelAllowance cfg (o.recordFill f) snap =
      (modelAllowance cfg o snap).map (· - f.size) := by
  unfold modelAllowance at hf ⊢
  simp only [BacktestOrder.recordFill]
  cases hm : cfg.fillModel with
  | none => rfl
  | some model =>
    cases hc : o.survivalCovariates with
    | none => rfl
    | some covariates =>
      simp only [hm, hc] at hf ⊢
      by_cases h : covariates.entries = []
      · simp [h]
      · simp only [h, if_false] at hf ⊢
        have hle := hf _ rfl
        simp only [Option.map_some, Option.some.injEq]
        rw [← max_zero_sub hpos hle, sub_sub]

lemma modelAllowance_nonneg {o : BacktestOrder} {snap : BookSnapshot} {a : ℚ}
    (h : modelAllowance cfg o snap = some a) : 0 ≤ a := by
  unfold modelAllowance at h
  split at h
  · split at h
    · cases h
    · cases h
      exact le_max_left _ _
  · cases h

section CapBy

variable {allowance : Option ℚ} {qty remaining depth t : ℚ}

private lemma capBy_zero (h : ∀ a, allowance = some a → 0 ≤ a) : capBy allowance 0 = 0 := by
  cases allowance with
  | none => rfl
  | some a => exact min_eq_left (h a rfl)

/-- An exhausted allowance caps everything alike. -/
private lemma capBy_eq_of_nonpos (h : ∀ a, allowance = some a → 0 ≤ a) {x y : ℚ} (ht : 0 < t)
    (hcap : capBy allowance t ≤ 0) (hx : 0 ≤ x) (hy : 0 ≤ y) :
    capBy allowance x = capBy allowance y := by
  cases allowance with
  | none => exact absurd hcap (not_le.2 ht)
  | some a =>
    have ha : a = 0 := by
      rcases min_le_iff.1 hcap with ha | ha
      · exact absurd ha (not_le.2 ht)
      · exact le_antisymm ha (h a rfl)
    simp only [capBy, Option.elim_some, ha, min_eq_right hx, min_eq_right hy]

/-- Taking `t` from the first level and the rest from the others is taking from all. -/
private lemma capBy_split (hdepth : 0 ≤ depth)
    (h : ∀ a, allowance = some a → 0 ≤ a) (ht : t = capBy allowance (min qty remaining)) :
    t + capBy (allowance.map (· - t)) (min (remaining - t) depth) =
      capBy allowance (min remaining (qty + depth)) := by
  subst ht
  cases allowance with
  | none =>
    simp only [capBy, Option.elim_none, Option.map_none]
    grind
  | some a =>
    have ha := h a rfl
    simp only [capBy, Option.elim_some, Option.map_some]
    grind

end CapBy

/-- A resting order fills the depth in reach, up to what remains of it and to what the fill
model allows. -/
lemma restLoop_total (snap : BookSnapshot) (levels : List (ℚ × ℚ)) (o : BacktestOrder)
    (book : ResidualBook) (remaining : ℚ) (hrem : 0 ≤ remaining)
    (hsort : ReachSorted o.side o.price levels) (hnonneg : ∀ l ∈ levels, 0 ≤ l.2) :
    totalSize (restLoop cfg snap levels o book remaining).fills =
      capBy (modelAllowance cfg o snap) (min remaining (visibleDepth o.side o.price levels)) := by
  induction levels generalizing o book remaining with
  | nil =>
    have hzero : visibleDepth o.side o.price [] = 0 := rfl
    rw [hzero, min_eq_right hrem, capBy_zero fun a ha => modelAllowance_nonneg ha]
    rfl
  | cons l levels ih =>
    obtain ⟨price, qty⟩ := l
    have hdepth := visibleDepth_nonneg o.side o.price levels
    have htail := (List.pairwise_cons.1 hsort).2
    have hnonneg' : ∀ l ∈ levels, 0 ≤ l.2 := fun l hl => hnonneg l (List.mem_cons_of_mem _ hl)
    have hzero : capBy (modelAllowance cfg o snap) 0 = 0 :=
      capBy_zero fun a ha => modelAllowance_nonneg ha
    unfold restLoop
    split
    · next hdone =>
      rw [le_antisymm hdone hrem, min_eq_left (visibleDepth_nonneg _ _ _), hzero]
      rfl
    split
    · next hout => rw [visibleDepth_eq_zero hsort hout, min_eq_right hrem, hzero]; rfl
    next hdone hout =>
    obtain ⟨hle, p, hp⟩ := fillProbabilityCappedTake_spec cfg o snap (min qty remaining)
    have hallow := modelAllowance_cappedTake cfg o snap (min qty remaining)
    have hrem' : 0 < remaining := not_le.1 hdone
    have hreach : beyondLimit o.side o.price price = false := by simpa using hout
    have hq0 : 0 ≤ qty := hnonneg (price, qty) List.mem_cons_self
    rcases hq0.lt_or_eq with hq | hq
    · have hpos : 0 < min qty remaining := lt_min hq hrem'
      have htake := fillProbabilityCappedTake_fst cfg o snap hpos
      rw [visibleDepth_cons_of_reach hq hreach]
      simp only [hp] at hallow ⊢
      split
      · next hcap =>
        -- the model allows nothing more
        have hih := ih { o with fillProbabilityCumulative := p } book remaining hrem htail hnonneg'
        rw [hih, hallow]
        rw [htake] at hcap
        exact capBy_eq_of_nonpos (fun a ha => modelAllowance_nonneg ha) hpos hcap
          (le_min hrem hdepth) (le_min hrem (by linarith))
      · next hcap =>
        have ht := not_le.1 hcap
        set t := (fillProbabilityCappedTake cfg o snap (min qty remaining)).1
        set f := restingFill cfg snap { o with fillProbabilityCumulative := p } t
        have hmin : t ≤ remaining := hle.trans (min_le_right _ _)
        have hbelow : ∀ a, modelAllowance cfg { o with fillProbabilityCumulative := p } snap =
            some a → f.size ≤ a := by
          intro a ha
          rw [hallow] at ha
          have hta : t = min (min qty remaining) a := by rw [htake, ha]; rfl
          exact hta.le.trans (min_le_right _ _)
        have hih := ih (({ o with fillProbabilityCumulative := p } : BacktestOrder).recordFill f)
          (book.consume o.side o.price t) (remaining - t) (by linarith) htail hnonneg'
        rw [totalSize_cons, hih, modelAllowance_recordFill cfg _ snap f hbelow ht, hallow]
        show t + capBy ((modelAllowance cfg o snap).map (· - t))
          (min (remaining - t) (visibleDepth o.side o.price levels)) = _
        exact capBy_split hdepth (fun a ha => modelAllowance_nonneg ha) htake
    · have hcand : min qty remaining = 0 := by rw [← hq, min_eq_left hrem]
      rw [visibleDepth_cons_of_empty hq.symm.le]
      simp only [hp] at hallow ⊢
      rw [if_pos (by rw [← hcand]; exact hle)]
      have hih := ih { o with fillProbabilityCumulative := p } book remaining hrem htail hnonneg'
      rw [hih, hallow]

end Evosport.Backtest
