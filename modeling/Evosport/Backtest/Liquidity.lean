/-
Displayed liquidity is not filled twice.

Within the interval of a snapshot the residual book meters what has been taken from each
level.  A taker records its consumption at the price of the level, so the meter is right; a
resting order records it at its own limit, so the meter is right only when that is the
price of the level.  `Metered` is the invariant of the interval, and
`filled_le_displayed_of_exactlyPriced` says that the fills of one side never exceed the
displayed size, in every run in which each resting order meets the book at its own price.
-/
import Evosport.Backtest.Causality
import Evosport.Backtest.Lifecycle

namespace Evosport.Backtest

open Lib

/-- `price` is at the limit or better, for a taker on `side`. -/
def Within (side : Side) (limit price : ℚ) : Prop :=
  match side with
  | .buy => price ≤ limit
  | .sell => limit ≤ price

instance (side : Side) (limit price : ℚ) : Decidable (Within side limit price) := by
  cases side <;> exact inferInstanceAs (Decidable (_ ≤ _))

lemma Within.trans {side : Side} {a b c : ℚ} (h : Within side a b) (h' : Within side b c) :
    Within side a c := by
  cases side with
  | buy => exact le_trans h' h
  | sell => exact le_trans h h'

lemma Within.refl (side : Side) (a : ℚ) : Within side a a := by
  cases side <;> exact le_refl a

/-- No two levels of one side of a snapshot have the same price. -/
def BookSnapshot.DistinctPrices (snap : BookSnapshot) : Prop :=
  ∀ side, ((snap.ladder side).map PriceLevel.price).Nodup

/-- The size displayed to takers on `side` at `limit` or better. -/
def BookSnapshot.displayed (snap : BookSnapshot) (side : Side) (limit : ℚ) : ℚ :=
  (((snap.ladder side).filter fun l => Within side limit l.price).map fun l => max 0 l.size).sum

/-- The shares of the fills of one side. -/
def filledOn (side : Side) (fs : List Fill) : ℚ := totalSize (fs.filter fun f => f.side = side)

@[simp] lemma filledOn_nil (side : Side) : filledOn side [] = 0 := rfl

@[simp] lemma filledOn_append (side : Side) (fs gs : List Fill) :
    filledOn side (fs ++ gs) = filledOn side fs + filledOn side gs := by
  simp [filledOn]

/-! ## The meter of one side -/

/-- The residual book meters the fills `fs` of one side correctly, where `lim` gives the
limits of the orders. -/
structure Metered (lim : OrderId → Option ℚ) (book : ResidualBook) (fs : List Fill)
    (side : Side) : Prop where
  nonneg : ∀ p, 0 ≤ book.consumedAt side p
  le : ∀ l ∈ book.snapshot.ladder side, book.consumedAt side l.price ≤ max 0 l.size
  total : filledOn side fs =
    ((book.snapshot.ladder side).map fun l => book.consumedAt side l.price).sum
  reached : ∀ p, 0 < book.consumedAt side p →
    ∃ f ∈ fs, f.side = side ∧ ∃ limit, lim f.orderId = some limit ∧ Within side limit p

lemma consumedAt_consume (book : ResidualBook) (side : Side) (price size p : ℚ) :
    (book.consume side price size).consumedAt side p =
      book.consumedAt side p + if price = p then size else 0 := by
  have hset : ((book.consumedBy side).set price (book.consumedAt side price + size)).getD p 0 =
      book.consumedAt side p + if price = p then size else 0 := by
    unfold Dict.getD
    rw [Dict.get?_set]
    split
    · next h => rw [← h, Option.getD_some]
    · rw [add_zero]
      rfl
  cases side <;> exact hset

lemma consumedAt_consume_of_ne (book : ResidualBook) {side side' : Side} (hne : side' ≠ side)
    (price size p : ℚ) :
    (book.consume side price size).consumedAt side' p = book.consumedAt side' p := by
  cases side <;> cases side' <;> first | rfl | exact absurd rfl hne

/-- In a list of distinct keys exactly one entry has a given key. -/
private lemma sum_map_ite_eq {levels : List PriceLevel} (hnodup : (levels.map PriceLevel.price).Nodup)
    {l : PriceLevel} (hl : l ∈ levels) (t : ℚ) :
    (levels.map fun l' => if l.price = l'.price then t else 0).sum = t := by
  induction levels with
  | nil => cases hl
  | cons l₀ levels ih =>
    obtain ⟨hnot, hnodup'⟩ := List.nodup_cons.1 hnodup
    rw [List.map_cons, List.sum_cons]
    rcases List.mem_cons.1 hl with rfl | hl
    · have hzero : (levels.map fun l' => if l.price = l'.price then t else 0) =
          levels.map fun _ => (0 : ℚ) := by
        refine List.map_congr_left fun l' hl' => if_neg fun heq => hnot ?_
        rw [heq]
        exact List.mem_map_of_mem hl'
      rw [if_pos rfl, hzero]
      simp
    · have hne : l.price ≠ l₀.price := by
        intro heq
        refine hnot ?_
        rw [← heq]
        exact List.mem_map_of_mem hl
      rw [if_neg hne, zero_add]
      exact ih hnodup' hl

namespace Metered

variable {lim : OrderId → Option ℚ} {book : ResidualBook} {fs : List Fill} {side : Side}

/-- Nothing has been taken from a fresh book. -/
lemma fresh (lim : OrderId → Option ℚ) (snap : BookSnapshot) (side : Side) :
    Metered lim { snapshot := snap } [] side := by
  have hzero : ∀ p, ({ snapshot := snap } : ResidualBook).consumedAt side p = 0 := by
    intro p
    cases side <;> rfl
  constructor
  · intro p
    rw [hzero]
  · intro l _
    rw [hzero]
    exact le_max_left _ _
  · simp [hzero]
  · intro p hp
    rw [hzero] at hp
    exact absurd hp (lt_irrefl 0)

/-- A take of at most the residual size of a level, recorded at the price of the level, keeps
the meter right. -/
lemma take (h : Metered lim book fs side)
    (hnodup : ((book.snapshot.ladder side).map PriceLevel.price).Nodup) {l : PriceLevel}
    (hl : l ∈ book.snapshot.ladder side) {f : Fill} (hside : f.side = side) (hpos : 0 < f.size)
    (hle : f.size ≤ max 0 (l.size - book.consumedAt side l.price)) {limit : ℚ}
    (hlimit : lim f.orderId = some limit) (hwithin : Within side limit l.price) :
    Metered lim (book.consume side l.price f.size) (fs ++ [f]) side := by
  constructor
  · intro p
    rw [consumedAt_consume]
    have hp := h.nonneg p
    split <;> linarith
  · intro l' hl'
    rw [consumedAt_consume]
    rw [ResidualBook.snapshot_consume] at hl'
    split
    · next heq =>
      -- the two levels are one, since the prices are distinct
      have hsame : l = l' := List.inj_on_of_nodup_map hnodup hl hl' heq
      subst hsame
      rcases le_max_iff.1 hle with h0 | h1
      · exact absurd h0 (not_le.2 hpos)
      · exact le_max_of_le_right (by linarith)
    · rw [add_zero]
      exact h.le l' hl'
  · rw [filledOn_append, h.total, ResidualBook.snapshot_consume]
    have hone : filledOn side [f] = f.size := by
      simp [filledOn, hside, totalSize]
    simp only [consumedAt_consume, List.sum_map_add]
    rw [sum_map_ite_eq hnodup hl, hone]
  · intro p hp
    rw [consumedAt_consume] at hp
    by_cases heq : l.price = p
    · subst heq
      exact ⟨f, List.mem_append_right _ (List.mem_singleton_self f), hside, limit, hlimit, hwithin⟩
    · rw [if_neg heq, add_zero] at hp
      obtain ⟨g, hg, hrest⟩ := h.reached p hp
      exact ⟨g, List.mem_append_left _ hg, hrest⟩

/-- A take on the other side does not touch the meter. -/
lemma take_other (h : Metered lim book fs side) {side' : Side} (hne : side ≠ side') {f : Fill}
    (hside : f.side = side') (price size : ℚ) :
    Metered lim (book.consume side' price size) (fs ++ [f]) side := by
  have hconsumed : ∀ p, (book.consume side' price size).consumedAt side p =
      book.consumedAt side p := consumedAt_consume_of_ne book hne price size
  have hother : filledOn side [f] = 0 := by
    simp [filledOn, hside, Ne.symm hne]
  constructor
  · intro p
    rw [hconsumed]
    exact h.nonneg p
  · intro l hl
    rw [hconsumed]
    rw [ResidualBook.snapshot_consume] at hl
    exact h.le l hl
  · rw [filledOn_append, hother, add_zero, h.total, ResidualBook.snapshot_consume]
    simp only [hconsumed]
  · intro p hp
    rw [hconsumed] at hp
    obtain ⟨g, hg, hrest⟩ := h.reached p hp
    exact ⟨g, List.mem_append_left _ hg, hrest⟩

/-- A metered side has filled at most the displayed size. -/
lemma filled_le_displayed (h : Metered lim book fs side) {limit : ℚ}
    (hlimit : ∀ f ∈ fs, f.side = side → ∀ p, lim f.orderId = some p → Within side limit p) :
    filledOn side fs ≤ book.snapshot.displayed side limit := by
  have hterm : ∀ l ∈ book.snapshot.ladder side, book.consumedAt side l.price ≤
      if Within side limit l.price then max 0 l.size else 0 := by
    intro l hl
    rcases (h.nonneg l.price).lt_or_eq with hpos | hzero
    · obtain ⟨f, hf, hside, p, hp, hwithin⟩ := h.reached l.price hpos
      rw [if_pos ((hlimit f hf hside p hp).trans hwithin)]
      exact h.le l hl
    · rw [← hzero]
      split
      · exact le_max_left _ _
      · exact le_refl 0
  have hdisplayed : ∀ levels : List PriceLevel,
      ((levels.filter fun l => Within side limit l.price).map fun l => max 0 l.size).sum =
        (levels.map fun l => if Within side limit l.price then max 0 l.size else 0).sum := by
    intro levels
    induction levels with
    | nil => rfl
    | cons l levels ih =>
      by_cases hw : Within side limit l.price <;> simp [hw, ih]
  calc filledOn side fs
      = ((book.snapshot.ladder side).map fun l => book.consumedAt side l.price).sum := h.total
    _ ≤ ((book.snapshot.ladder side).map
          fun l => if Within side limit l.price then max 0 l.size else 0).sum :=
        List.sum_le_sum hterm
    _ = book.snapshot.displayed side limit := (hdisplayed _).symm

end Metered

/-! ## The loops keep the meter -/

/-- The remaining levels of a walk are what is left of distinct levels of the ladder. -/
structure Residual (book : ResidualBook) (side : Side) (levels : List (ℚ × ℚ)) : Prop where
  nodup : (levels.map Prod.fst).Nodup
  mem : ∀ x ∈ levels, ∃ l ∈ book.snapshot.ladder side, l.price = x.1 ∧
    x.2 = max 0 (l.size - book.consumedAt side l.price)

lemma residual_remaining {book : ResidualBook} (hdistinct : book.snapshot.DistinctPrices)
    (side : Side) : Residual book side (book.remaining side) := by
  constructor
  · have hmap : (book.remaining side).map Prod.fst =
        (book.snapshot.ladder side).map PriceLevel.price := by
      simp [ResidualBook.remaining]
    rw [hmap]
    exact hdistinct side
  · intro x hx
    obtain ⟨l, hl, rfl⟩ := List.mem_map.1 hx
    exact ⟨l, hl, rfl, rfl⟩

lemma Residual.tail {book : ResidualBook} {side : Side} {x : ℚ × ℚ} {levels : List (ℚ × ℚ)}
    (h : Residual book side (x :: levels)) : Residual book side levels :=
  ⟨(List.nodup_cons.1 h.nodup).2, fun y hy => h.mem y (List.mem_cons_of_mem x hy)⟩

/-- Taking from the first level leaves the others as they are. -/
lemma Residual.consume {book : ResidualBook} {side : Side} {x : ℚ × ℚ} {levels : List (ℚ × ℚ)}
    (h : Residual book side (x :: levels)) (size : ℚ) :
    Residual (book.consume side x.1 size) side levels := by
  refine ⟨h.tail.nodup, fun y hy => ?_⟩
  obtain ⟨l, hl, hprice, hsize⟩ := h.tail.mem y hy
  have hne : x.1 ≠ l.price := by
    intro heq
    refine (List.nodup_cons.1 h.nodup).1 ?_
    rw [heq, hprice]
    exact List.mem_map_of_mem hy
  refine ⟨l, by rw [ResidualBook.snapshot_consume]; exact hl, hprice, ?_⟩
  rw [consumedAt_consume, if_neg hne, add_zero]
  exact hsize

variable {cfg : MatchingConfig} {lim : OrderId → Option ℚ} {fs : List Fill}

/-- One take of a walk keeps both meters right. -/
lemma metered_take {book : ResidualBook} (hdistinct : book.snapshot.DistinctPrices)
    {o : BacktestOrder} (hlimit : lim o.orderId = some o.price) {x : ℚ × ℚ}
    {levels : List (ℚ × ℚ)} (hres : Residual book o.side (x :: levels)) {f : Fill}
    (hf : f.NextOf o) (hle : f.size ≤ x.2) (hwithin : Within o.side o.price x.1)
    (h : ∀ side, Metered lim book fs side) :
    ∀ side, Metered lim (book.consume o.side x.1 f.size) (fs ++ [f]) side := by
  intro side
  by_cases hside : side = o.side
  · subst hside
    obtain ⟨l, hl, hprice, hsize⟩ := hres.mem x List.mem_cons_self
    rw [← hprice] at hwithin ⊢
    rw [hsize] at hle
    exact (h o.side).take (hdistinct o.side) hl hf.side hf.pos hle (by rw [hf.orderId, hlimit])
      hwithin
  · exact (h side).take_other hside hf.side x.1 f.size

/-- A taker that stays within its limit keeps the meters right. -/
lemma consumeLoop_metered (impactFactor : ℚ) (occurredAt : Time) (levels : List (ℚ × ℚ))
    (o : BacktestOrder) (book : ResidualBook) (remaining : ℚ)
    (hrem : o.filledSize + remaining ≤ o.size) (hdistinct : book.snapshot.DistinctPrices)
    (hlimit : lim o.orderId = some o.price) (hres : Residual book o.side levels)
    (hexact : ∀ x ∈ levels, 0 < x.2 → beyondLimit o.side o.price x.1 = false →
      Within o.side o.price x.1)
    (h : ∀ side, Metered lim book fs side) :
    ∀ side, Metered lim
      (consumeLoop cfg impactFactor occurredAt levels o book remaining).book
      (fs ++ (consumeLoop cfg impactFactor occurredAt levels o book remaining).fills) side := by
  induction levels generalizing o book remaining fs with
  | nil => simpa [consumeLoop] using h
  | cons x levels ih =>
    obtain ⟨price, qty⟩ := x
    have hexact' := fun y hy => hexact y (List.mem_cons_of_mem _ hy)
    unfold consumeLoop
    by_cases hdone : remaining ≤ 0
    · simpa [hdone] using h
    rw [if_neg hdone]
    by_cases hqty : qty ≤ 0
    · rw [if_pos hqty]
      exact ih o book remaining hrem hdistinct hlimit hres.tail hexact' h
    rw [if_neg hqty]
    by_cases hout : beyondLimit o.side o.price price = true
    · simpa [hout] using h
    rw [if_neg hout]
    have hpos : 0 < min qty remaining := lt_min (not_le.1 hqty) (not_le.1 hdone)
    have hle : min qty remaining ≤ remaining := min_le_right _ _
    set f := takerFill cfg book.snapshot impactFactor occurredAt o price (min qty remaining)
    have hnext : f.NextOf o := takerFill_nextOf _ _ _ _ _ hpos (by linarith)
    have hwithin := hexact (price, qty) List.mem_cons_self (not_le.1 hqty) (by simpa using hout)
    have htake := metered_take hdistinct hlimit hres hnext (min_le_left _ _) hwithin h
    have hih := ih (o.recordFill f) (book.consume o.side price (min qty remaining))
      (remaining - min qty remaining)
      (by simp only [BacktestOrder.recordFill]; show o.filledSize + min qty remaining + _ ≤ _; linarith)
      (by rw [ResidualBook.snapshot_consume]; exact hdistinct) hlimit (hres.consume _) hexact' htake
    simpa using hih

/-- A resting order that meets the book at its own price only keeps the meters right. -/
lemma restLoop_metered (snap : BookSnapshot) (levels : List (ℚ × ℚ)) (o : BacktestOrder)
    (book : ResidualBook) (remaining : ℚ) (hrem : o.filledSize + remaining ≤ o.size)
    (hdistinct : book.snapshot.DistinctPrices) (hlimit : lim o.orderId = some o.price)
    (hres : Residual book o.side levels)
    (hexact : ∀ x ∈ levels, 0 < x.2 → beyondLimit o.side o.price x.1 = false → x.1 = o.price)
    (h : ∀ side, Metered lim book fs side) :
    ∀ side, Metered lim (restLoop cfg snap levels o book remaining).book
      (fs ++ (restLoop cfg snap levels o book remaining).fills) side := by
  induction levels generalizing o book remaining fs with
  | nil => simpa [restLoop] using h
  | cons x levels ih =>
    obtain ⟨price, qty⟩ := x
    have hexact' := fun y hy => hexact y (List.mem_cons_of_mem _ hy)
    unfold restLoop
    by_cases hdone : remaining ≤ 0
    · simpa [hdone] using h
    rw [if_neg hdone]
    by_cases hout : beyondLimit o.side o.price price = true
    · simpa [hout] using h
    rw [if_neg hout]
    obtain ⟨hle, p, hp⟩ := fillProbabilityCappedTake_spec cfg o snap (min qty remaining)
    simp only [hp]
    by_cases hcap : (fillProbabilityCappedTake cfg o snap (min qty remaining)).1 ≤ 0
    · rw [if_pos hcap]
      exact ih _ book remaining hrem hdistinct hlimit hres.tail hexact' h
    rw [if_neg hcap]
    have hpos := not_le.1 hcap
    set t := (fillProbabilityCappedTake cfg o snap (min qty remaining)).1
    have hqty : 0 < qty := hpos.trans_le (hle.trans (min_le_left _ _))
    have hrem' : t ≤ remaining := hle.trans (min_le_right _ _)
    -- the level that gives the size is the one the consumption is recorded at
    have hprice : price = o.price := hexact (price, qty) List.mem_cons_self hqty (by simpa using hout)
    subst hprice
    set f := restingFill cfg snap { o with fillProbabilityCumulative := p } t
    have hnext : f.NextOf { o with fillProbabilityCumulative := p } :=
      restingFill_nextOf _ _ hpos (by show o.filledSize + t ≤ o.size; linarith)
    have htake := metered_take (o := { o with fillProbabilityCumulative := p }) hdistinct hlimit hres
      hnext (hle.trans (min_le_left _ _)) (.refl _ _) h
    have hih := ih (({ o with fillProbabilityCumulative := p } : BacktestOrder).recordFill f)
      (book.consume o.side o.price t) (remaining - t)
      (by show o.filledSize + t + (remaining - t) ≤ o.size; linarith)
      (by rw [ResidualBook.snapshot_consume]; exact hdistinct) hlimit (hres.consume _) hexact' htake
    simpa using hih

/-- A walk that fills nothing consumes nothing. -/
lemma restLoop_book_of_nil (snap : BookSnapshot) (levels : List (ℚ × ℚ)) (o : BacktestOrder)
    (book : ResidualBook) (remaining : ℚ)
    (h : (restLoop cfg snap levels o book remaining).fills = []) :
    (restLoop cfg snap levels o book remaining).book = book := by
  induction levels generalizing o with
  | nil => rfl
  | cons x levels ih =>
    unfold restLoop at h ⊢
    split
    · rfl
    next hdone =>
    rw [if_neg hdone] at h
    split
    · rfl
    next hout =>
    rw [if_neg hout] at h
    simp only at h ⊢
    split
    · next hcap =>
      rw [if_pos hcap] at h
      exact ih _ h
    · next hcap =>
      rw [if_neg hcap] at h
      cases h

lemma consumeLoop_book_of_nil (impactFactor : ℚ) (occurredAt : Time) (levels : List (ℚ × ℚ))
    (o : BacktestOrder) (book : ResidualBook) (remaining : ℚ)
    (h : (consumeLoop cfg impactFactor occurredAt levels o book remaining).fills = []) :
    (consumeLoop cfg impactFactor occurredAt levels o book remaining).book = book := by
  induction levels with
  | nil => rfl
  | cons x levels ih =>
    unfold consumeLoop at h ⊢
    split
    · rfl
    next hdone =>
    rw [if_neg hdone] at h
    split
    · next hqty =>
      rw [if_pos hqty] at h
      exact ih h
    next hqty =>
    rw [if_neg hqty] at h
    split
    · rfl
    · next hout =>
      rw [if_neg hout] at h
      cases h

namespace MatchingEngine

variable {snap : BookSnapshot} {e e' : MatchingEngine} {o o' : BacktestOrder}
  {book : ResidualBook} {fs' : List Fill}

/-- The limit of an order on record. -/
def limitOf (e : MatchingEngine) (id : OrderId) : Option ℚ :=
  (e.orders.get? id).map BacktestOrder.price

/-- The levels that a taker reaches are within its limit: none lies beyond it by less than
the tolerance of the matcher. -/
def AdmitExact (cfg : MatchingConfig) (snap : BookSnapshot) (e : MatchingEngine)
    (id : OrderId) : Prop :=
  ∀ o ∈ e.orders.get? id, isDue snap.tokenId snap.observedAt o = true →
    ∀ book ∈ e.books.get? o.tokenId, TakesLiquidity cfg o book →
      ∀ x ∈ book.remaining o.side, 0 < x.2 → beyondLimit o.side o.price x.1 = false →
        Within o.side o.price x.1

/-- The levels that a resting order can fill from are priced at its own limit. -/
def MatchExact (cfg : MatchingConfig) (e : MatchingEngine) (id : OrderId) : Prop :=
  ∀ o ∈ e.orders.get? id, ∀ book ∈ e.books.get? o.tokenId,
    queueBlocked o = false → 0 < o.remainingSize → 0 < fillable cfg o book →
    ∀ x ∈ book.remaining o.side, 0 < x.2 → beyondLimit o.side o.price x.1 = false →
      x.1 = o.price

/-- In an advance, takers reach nothing beyond their limits and resting orders meet the book
at their own prices. -/
def ExactlyPriced (cfg : MatchingConfig) (e : MatchingEngine) : MatchingOp → Prop
  | .advanceTo snap => (∀ before ∈ e.now, before ≤ snap.observedAt) →
      EveryOrder cfg snap (AdmitExact cfg snap) (MatchExact cfg) e
  | _ => True

instance (cfg : MatchingConfig) (snap : BookSnapshot) (e : MatchingEngine) (id : OrderId) :
    Decidable (AdmitExact cfg snap e id) := by
  unfold AdmitExact
  infer_instance

instance (cfg : MatchingConfig) (e : MatchingEngine) (id : OrderId) :
    Decidable (MatchExact cfg e id) := by
  unfold MatchExact
  haveI (p q : Prop) [Decidable p] [Decidable q] : Decidable (p → q) := instDecidableForall
  infer_instance

instance (cfg : MatchingConfig) (e : MatchingEngine) : ∀ op, Decidable (ExactlyPriced cfg e op)
  | .submit .. => inferInstanceAs (Decidable True)
  | .cancel .. => inferInstanceAs (Decidable True)
  | .advanceTo _ => inferInstanceAs (Decidable (_ → _))

/-! ## One interval -/

/-- The residual book of the interval meters the fills of both sides. -/
def MeteredInterval (snap : BookSnapshot) (e : MatchingEngine) (fs : List Fill) : Prop :=
  ∃ book, e.books.get? snap.tokenId = some book ∧ book.snapshot = snap ∧
    ∀ side, Metered e.limitOf book fs side

/-- An effect does not change the limit of any order. -/
lemma limitOf_effect (hget : e.orders.get? o.orderId = some o) (he : Effect e o fs o' e') :
    e'.limitOf = e.limitOf :=
  kept_price.effect hget he

lemma consumeLevels_book_of_nil (now : Option Time) (o : BacktestOrder) (book : ResidualBook)
    (h : (consumeLevels cfg now o book).fills = []) : (consumeLevels cfg now o book).book = book := by
  unfold consumeLevels at h ⊢
  by_cases hrem : o.remainingSize ≤ 0
  · simp only [hrem, if_true]
  · simp only [hrem, if_false] at h ⊢
    exact consumeLoop_book_of_nil _ _ _ _ _ _ h

/-- The book after an admission: as it was, or as the walk left it. -/
lemma Admission.books (hcase : Admission cfg e o book e' fs) :
    (e'.books = e.books ∧ fs = []) ∨
      (e'.books = e.books.set o.tokenId (consumeLevels cfg e.now o book).book ∧
        fs = (consumeLevels cfg e.now o book).fills) := by
  have htok := (consumeLevels_walk cfg e.now o book).tokenId_eq
  cases hcase with
  | crossed => exact .inl ⟨rfl, rfl⟩
  | insufficient => exact .inl ⟨rfl, rfl⟩
  | expired => exact .inl ⟨rfl, rfl⟩
  | rested => exact .inl ⟨rfl, rfl⟩
  | killedOrFilled _ _ _ r hr => subst hr; exact .inr ⟨by rw [← htok]; rfl, rfl⟩
  | filled _ _ _ r hr _ => subst hr; exact .inr ⟨by rw [← htok]; rfl, rfl⟩
  | cut _ _ _ r hr => subst hr; exact .inr ⟨by rw [← htok]; rfl, rfl⟩
  | restedRemainder _ _ _ _ r hr _ => subst hr; exact .inr ⟨by rw [← htok]; rfl, rfl⟩

/-- The book after a match: as it was, or as the walk left it. -/
lemma Resting.books (hcase : Resting cfg e o book e' fs) :
    (e'.books = e.books ∧ fs = []) ∨
      (queueBlocked o = false ∧ 0 < o.remainingSize ∧
        e'.books = e.books.set o.tokenId (restLoop cfg book.snapshot (book.remaining o.side) o book
          o.remainingSize).book ∧
        fs = (restLoop cfg book.snapshot (book.remaining o.side) o book o.remainingSize).fills) := by
  cases hcase with
  | idle => exact .inl ⟨rfl, rfl⟩
  | walked hgate hpos r hr _ =>
    have htok := (restLoop_walk_of_pos cfg hpos book.snapshot (book.remaining o.side) book).tokenId_eq
    subst hr
    exact .inr ⟨hgate, hpos, by rw [← htok]; rfl, rfl⟩
  | completed hgate hpos r hr _ =>
    have htok := (restLoop_walk_of_pos cfg hpos book.snapshot (book.remaining o.side) book).tokenId_eq
    subst hr
    refine .inr ⟨hgate, hpos, ?_, rfl⟩
    obtain ⟨w, hw⟩ := removeFromWorking_eq ((e.writeBack (restLoop cfg book.snapshot
      (book.remaining o.side) o book o.remainingSize).order (restLoop cfg book.snapshot
      (book.remaining o.side) o book o.remainingSize).book).finish { (restLoop cfg book.snapshot
      (book.remaining o.side) o book o.remainingSize).order with state := .filled })
      (restLoop cfg book.snapshot (book.remaining o.side) o book o.remainingSize).order
    rw [hw, ← htok]
    rfl

lemma remaining_of_pos (hpos : 0 < o.remainingSize) : o.filledSize + o.remainingSize ≤ o.size := by
  unfold BacktestOrder.remainingSize at hpos ⊢
  rcases lt_max_iff.1 hpos with h | h
  · exact absurd h (lt_irrefl 0)
  · rw [max_eq_right h.le]
    linarith

/-- Admissions keep the meters right. -/
lemma MeteredInterval.admission (hi : InInterval snap e) (hdistinct : snap.DistinctPrices)
    (h : MeteredInterval snap e fs) (hadm : Admissible snap e o book)
    (hcase : Admission cfg e o book e' fs') (hexact : AdmitExact cfg snap e o.orderId) :
    MeteredInterval snap e' (fs ++ fs') := by
  obtain ⟨o', heff⟩ := hadm.effect hi hcase
  obtain ⟨book₀, hbook₀, hsnap, hmeter⟩ := h
  have hsame : book₀ = book := by
    have hbook := hadm.bookOf
    rw [hadm.tokenId, hbook₀] at hbook
    exact Option.some.inj hbook
  subst hsame
  unfold MeteredInterval
  rw [limitOf_effect hadm.order heff]
  rcases hcase.books with ⟨hbooks, hfs⟩ | ⟨hbooks, hfs⟩
  · rw [hbooks, hfs, List.append_nil]
    exact ⟨book₀, hbook₀, hsnap, hmeter⟩
  refine ⟨_, by rw [hbooks, hadm.tokenId, Dict.get?_set_self],
    (consumeLevels_snapshot cfg e.now o book₀).trans hsnap, ?_⟩
  rcases hcase.fills with ⟨htakes, -, -⟩ | ⟨-, hnil⟩
  · rw [hfs]
    have hpos := htakes.2.2.1
    unfold consumeLevels
    rw [if_neg (not_le.2 hpos)]
    rw [← hsnap] at hdistinct
    refine consumeLoop_metered _ _ _ _ _ _ (remaining_of_pos hpos) hdistinct ?_
      (residual_remaining hdistinct o.side) (hexact o hadm.order hadm.due book₀ hadm.bookOf htakes)
      hmeter
    rw [limitOf, hadm.order]
    rfl
  · rw [hnil, List.append_nil]
    rw [hnil] at hfs
    rw [consumeLevels_book_of_nil _ _ _ hfs.symm]
    exact hmeter

/-- Matches of resting orders keep the meters right. -/
lemma MeteredInterval.resting (hdistinct : snap.DistinctPrices)
    (h : MeteredInterval snap e fs) (hm : Matchable snap e o book)
    (hcase : Resting cfg e o book e' fs') (hexact : MatchExact cfg e o.orderId) :
    MeteredInterval snap e' (fs ++ fs') := by
  rcases hm.effect hcase with ⟨heq, hfs⟩ | ⟨o', heff⟩
  · rw [heq, hfs, List.append_nil]
    exact h
  obtain ⟨book₀, hbook₀, hsnap, hmeter⟩ := h
  have hsame : book₀ = book := by
    have hbook := hm.bookOf
    rw [hm.tokenId, hbook₀] at hbook
    exact Option.some.inj hbook
  subst hsame
  unfold MeteredInterval
  rw [limitOf_effect hm.order heff]
  rcases hcase.books with ⟨hbooks, hfs⟩ | ⟨hgate, hpos, hbooks, hfs⟩
  · rw [hbooks, hfs, List.append_nil]
    exact ⟨book₀, hbook₀, hsnap, hmeter⟩
  refine ⟨_, by rw [hbooks, hm.tokenId, Dict.get?_set_self],
    (restLoop_snapshot _ _ _ _ _).trans hsnap, ?_⟩
  rw [hfs]
  by_cases hfill : 0 < fillable cfg o book₀
  · rw [← hsnap] at hdistinct
    refine restLoop_metered _ _ _ _ _ (remaining_of_pos hpos) hdistinct ?_
      (residual_remaining hdistinct o.side) (hexact o hm.order book₀ hm.bookOf hgate hpos hfill)
      hmeter
    rw [limitOf, hm.order]
    rfl
  · -- nothing can be filled, so nothing is consumed
    have hwalk := restLoop_walk_of_pos cfg hpos book₀.snapshot (book₀.remaining o.side) book₀
    have hnil := (totalSize_eq_zero hwalk.pos).1 (le_antisymm (by
      rw [restLoop_total_fillable hpos]
      exact (min_le_right _ _).trans (not_lt.1 hfill)) (totalSize_nonneg hwalk.pos))
    rw [hnil, List.append_nil, restLoop_book_of_nil _ _ _ _ _ hnil]
    exact hmeter

/-- One advance: the fills of a side are at most what its snapshot displays. -/
lemma metered_advance (hwf : WellFormed e) (hdistinct : snap.DistinctPrices)
    (hexact : EveryOrder cfg snap (AdmitExact cfg snap) (MatchExact cfg) e) :
    MeteredInterval snap (advance cfg snap e).1 (advance cfg snap e).2 := by
  obtain ⟨e₁, -, hmeter, heq⟩ := advance_induct cfg snap (J := MeteredInterval snap) hwf
    (fun _ => ⟨_, openInterval_book cfg snap e, rfl, Metered.fresh _ _⟩)
    (fun hi hJ hadm hcase hA => hJ.admission hi hdistinct hadm hcase hA)
    (fun _ hJ hm hcase hM => hJ.resting hdistinct hm hcase hM) hexact
  rw [heq]
  exact hmeter

/-! ## Runs -/

/-- The fills that a sequence of calls produces. -/
def producedBy (cfg : MatchingConfig) : MatchingEngine → List MatchingOp → List Fill
  | _, [] => []
  | e, op :: ops => produced cfg e op ++ producedBy cfg (step cfg e op) ops

/-- None of the calls replaces the book of the token. -/
def KeepsBook (token : TokenId) (ops : List MatchingOp) : Prop :=
  ∀ snap, .advanceTo snap ∈ ops → snap.tokenId ≠ token

/-- While a snapshot is the book of its token, the fills of a side are at most the size it
displays at the limits of the filled orders or better. -/
def FilledOnce (cfg : MatchingConfig) (ops : List MatchingOp) : Prop :=
  ∀ pre snap mid, pre ++ .advanceTo snap :: mid <+: ops → KeepsBook snap.tokenId mid →
    snap.DistinctPrices → ∀ side limit,
      let e := runOps cfg pre
      let fills := (producedBy cfg e (.advanceTo snap :: mid)).filter
        fun f => f.tokenId = snap.tokenId
      (∀ f ∈ fills, f.side = side → ∀ p, (step cfg e (.advanceTo snap)).limitOf f.orderId = some p →
        Within side limit p) →
      filledOn side fills ≤ snap.displayed side limit

lemma displayed_nonneg (snap : BookSnapshot) (side : Side) (limit : ℚ) :
    0 ≤ snap.displayed side limit := by
  refine List.sum_nonneg fun x hx => ?_
  obtain ⟨l, -, rfl⟩ := List.mem_map.1 hx
  exact le_max_left _ _

lemma produced_tokenId (hwf : WellFormed e) (op : MatchingOp) :
    ∀ f ∈ produced cfg e op, ∃ snap, op = .advanceTo snap ∧ f.tokenId = snap.tokenId := by
  intro f hf
  rcases step_cases cfg hwf op with ⟨-, hfs⟩ | ⟨_, _, _, -, -, hfs⟩ | ⟨_, _, -, -, -, hfs⟩ |
    ⟨snap, hop, -, -, hfs⟩ <;> rw [hfs] at hf
  · cases hf
  · cases hf
  · cases hf
  · exact ⟨snap, hop, (advance_fills cfg hwf snap f hf).1⟩

/-- Calls that do not replace the book of a token fill no order on it. -/
lemma producedBy_of_keepsBook {token : TokenId} {ops : List MatchingOp} (hwf : WellFormed e)
    (h : KeepsBook token ops) : ∀ f ∈ producedBy cfg e ops, f.tokenId ≠ token := by
  induction ops generalizing e with
  | nil => rintro f ⟨⟩
  | cons op ops ih =>
    intro f hf
    rcases List.mem_append.1 hf with hf | hf
    · obtain ⟨snap, rfl, htok⟩ := produced_tokenId hwf op f hf
      rw [htok]
      exact h snap List.mem_cons_self
    · exact ih (wellFormed_step hwf op) (fun snap hsnap => h snap (List.mem_cons_of_mem _ hsnap)) f hf

/-- The fills of an interval are those of the advance that opens it. -/
lemma interval_fills {mid : List MatchingOp} (hwf : WellFormed e)
    (hmid : KeepsBook snap.tokenId mid) :
    ((producedBy cfg e (.advanceTo snap :: mid)).filter fun f => f.tokenId = snap.tokenId) =
      produced cfg e (.advanceTo snap) := by
  have hown : (produced cfg e (.advanceTo snap)).filter (fun f => f.tokenId = snap.tokenId) =
      produced cfg e (.advanceTo snap) := by
    refine List.filter_eq_self.2 fun f hf => ?_
    obtain ⟨snap', heq, htok⟩ := produced_tokenId hwf _ f hf
    cases heq
    simpa using htok
  have hrest : (producedBy cfg (step cfg e (.advanceTo snap)) mid).filter
      (fun f => f.tokenId = snap.tokenId) = [] := by
    refine List.filter_eq_nil_iff.2 fun f hf => ?_
    simpa using producedBy_of_keepsBook (wellFormed_step hwf _) hmid f hf
  rw [producedBy, List.filter_append, hown, hrest, List.append_nil]

/-- **Displayed liquidity is filled once.**  In every run whose resting orders meet the book at
their own limits and whose takers stay within theirs, the fills of a side are at most the
size displayed, in every interval of every token. -/
theorem filledOnce_of_exactlyPriced (cfg : MatchingConfig) (ops : List MatchingOp)
    (h : EveryStep (step cfg) (ExactlyPriced cfg) {} ops) : FilledOnce cfg ops := by
  intro pre snap mid hpre hmid hdistinct side limit e fills hlimit
  have hwf : WellFormed e := wellFormed_runOps pre
  have hfills : fills = produced cfg e (.advanceTo snap) := interval_fills hwf hmid
  have hstep : ExactlyPriced cfg e (.advanceTo snap) :=
    (EveryStep.append.1 (h.of_prefix hpre)).2.1
  rw [hfills] at hlimit ⊢
  rcases advanceTo_cases cfg e snap with ⟨-, err, heq⟩ | ⟨hnow, heq⟩
  · -- the snapshot is older than the clock and never becomes the book
    have hnone : produced cfg e (.advanceTo snap) = [] := by
      simp [produced, heq, Except.toOption]
    rw [hnone]
    exact displayed_nonneg snap side limit
  · have hproduced : produced cfg e (.advanceTo snap) = (advance cfg snap e).2 := by
      simp [produced, heq, Except.toOption]
    have hafter : step cfg e (.advanceTo snap) = (advance cfg snap e).1 := by
      simp [step, heq, Except.toOption]
    rw [hproduced, hafter] at hlimit
    obtain ⟨book, -, hsnap, hmeter⟩ := metered_advance hwf hdistinct (hstep hnow)
    have hbound := (hmeter side).filled_le_displayed hlimit
    rw [hsnap] at hbound
    rw [hproduced]
    exact hbound

/-- The offer at the limit of a resting bid is filled once. -/
theorem restThenOffer_filledOnce :
    EveryStep (step (.plain 1)) (ExactlyPriced (.plain 1)) {} (restThenOffer 10) ∧
      FilledOnce (.plain 1) (restThenOffer 10) := by
  have hexact : EveryStep (step (.plain 1)) (ExactlyPriced (.plain 1)) {} (restThenOffer 10) := by
    decide +kernel
  exact ⟨hexact, filledOnce_of_exactlyPriced (.plain 1) (restThenOffer 10) hexact⟩

/-- An offer of ten shares below one half. -/
def offerBelowTwoBids : BookSnapshot := .offer "t" 2000 ⟨12 / 25, 10⟩

/-- Two bids of ten shares at one half that rest. -/
def twoBids : List MatchingOp :=
  [halfBid "bid1", halfBid "bid2", .advanceTo (.offer "t" 1000 ⟨3 / 5, 10⟩)]

/-- Both bids are filled from the same ten shares. -/
theorem twoBids_filledTwice :
    ¬ FilledOnce (.plain 1) (twoBids ++ [.advanceTo offerBelowTwoBids]) := by
  intro h
  have hdistinct : offerBelowTwoBids.DistinctPrices := by
    intro side
    cases side <;> decide +kernel
  have hle := h twoBids offerBelowTwoBids [] (List.prefix_refl _) (by rintro snap ⟨⟩) hdistinct .buy
    (1 / 2)
  have hbound := hle (by decide +kernel)
  exact absurd hbound (by decide +kernel)

end MatchingEngine

end Evosport.Backtest
