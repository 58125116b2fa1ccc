/-
What a walk leaves within reach.

An order that is not filled in full has emptied every level within its limit: a taker
always, a resting order when the fill model does not cut its takes and the levels are
priced at its own limit, where its consumption is recorded.  `Dry` says that nothing is
left within a limit; consumption never undoes it (`Dry.mono`), and no order fills from a
dry book.
-/
import Evosport.Backtest.Arrivals

namespace Evosport.Backtest

open Lib

/-! ## Consumption only grows -/

/-- `b'` is `b` after some consumption. -/
structure ResidualBook.Consumed (b b' : ResidualBook) : Prop where
  snapshot : b'.snapshot = b.snapshot
  le : ∀ side price, b.consumedAt side price ≤ b'.consumedAt side price

namespace ResidualBook.Consumed

variable {b b' b'' : ResidualBook}

lemma refl (b : ResidualBook) : b.Consumed b := ⟨rfl, fun _ _ => le_refl _⟩

lemma trans (h : b.Consumed b') (h' : b'.Consumed b'') : b.Consumed b'' :=
  ⟨h'.snapshot.trans h.snapshot, fun side price => (h.le side price).trans (h'.le side price)⟩

lemma consume (b : ResidualBook) (side : Side) (price : ℚ) {size : ℚ} (hsize : 0 ≤ size) :
    b.Consumed (b.consume side price size) := by
  refine ⟨b.snapshot_consume side price size, fun side' p => ?_⟩
  by_cases hside : side' = side
  · subst hside
    rw [consumedAt_consume]
    split <;> linarith
  · rw [consumedAt_consume_of_ne b hside]

end ResidualBook.Consumed

variable {cfg : MatchingConfig}

lemma consumeLoop_consumed (impactFactor : ℚ) (occurredAt : Time) (levels : List (ℚ × ℚ))
    (o : BacktestOrder) (book : ResidualBook) (remaining : ℚ) :
    book.Consumed (consumeLoop cfg impactFactor occurredAt levels o book remaining).book := by
  induction levels generalizing o book remaining with
  | nil => exact .refl book
  | cons l levels ih =>
    obtain ⟨price, qty⟩ := l
    unfold consumeLoop
    split
    · exact .refl book
    next hdone =>
    split
    · exact ih o book remaining
    next hqty =>
    split
    · exact .refl book
    · have htake : 0 ≤ min qty remaining := (lt_min (not_le.1 hqty) (not_le.1 hdone)).le
      exact (ResidualBook.Consumed.consume book o.side price htake).trans (ih _ _ _)

lemma consumeLevels_consumed (now : Option Time) (o : BacktestOrder) (book : ResidualBook) :
    book.Consumed (consumeLevels cfg now o book).book := by
  unfold consumeLevels
  by_cases hrem : o.remainingSize ≤ 0
  · simp only [hrem, if_true]
    exact .refl book
  · simp only [hrem, if_false]
    exact consumeLoop_consumed _ _ _ _ _ _

lemma restLoop_consumed (snap : BookSnapshot) (levels : List (ℚ × ℚ)) (o : BacktestOrder)
    (book : ResidualBook) (remaining : ℚ) :
    book.Consumed (restLoop cfg snap levels o book remaining).book := by
  induction levels generalizing o book remaining with
  | nil => exact .refl book
  | cons l levels ih =>
    obtain ⟨price, qty⟩ := l
    unfold restLoop
    split
    · exact .refl book
    split
    · exact .refl book
    dsimp only
    split
    · exact ih _ book remaining
    · next hcap =>
      exact (ResidualBook.Consumed.consume book o.side o.price (not_le.1 hcap).le).trans
        (ih _ _ _)

/-! ## Dry books -/

/-- Nothing is left for a taker on `side` within `limit`. -/
def ResidualBook.Dry (book : ResidualBook) (side : Side) (limit : ℚ) : Prop :=
  ∀ x ∈ book.remaining side, beyondLimit side limit x.1 = false → x.2 ≤ 0

namespace ResidualBook.Dry

variable {book book' : ResidualBook} {side : Side} {limit : ℚ}

lemma availableForTaker_eq_zero (h : book.Dry side limit) :
    availableForTaker book side limit = 0 := by
  rw [availableForTaker_eq, visibleDepth, List.filter_eq_nil_iff.2, List.map_nil, List.sum_nil]
  intro x hx
  by_cases hreach : beyondLimit side limit x.1 = false
  · simp [not_lt.2 (h x hx hreach)]
  · simp [hreach]

/-- What is empty stays empty. -/
lemma mono (h : book.Dry side limit) (hc : book.Consumed book') : book'.Dry side limit := by
  intro x hx hreach
  obtain ⟨l, hl, rfl⟩ := List.mem_map.1 hx
  rw [hc.snapshot] at hl
  have hbefore := h _ (List.mem_map_of_mem hl) hreach
  have hle := hc.le side l.price
  exact max_le (le_refl 0) (by linarith [(max_le_iff.1 hbefore).2])

/-- Consuming what the levels within reach still had leaves them empty. -/
lemma of_emptied (hc : book.Consumed book')
    (h : ∀ x ∈ book.remaining side, 0 < x.2 → beyondLimit side limit x.1 = false →
      book.consumedAt side x.1 + x.2 ≤ book'.consumedAt side x.1) : book'.Dry side limit := by
  intro x hx hreach
  obtain ⟨l, hl, rfl⟩ := List.mem_map.1 hx
  rw [hc.snapshot] at hl
  have hle := hc.le side l.price
  rcases lt_or_ge 0 (l.size - book.consumedAt side l.price) with hpos | hneg
  · have hall := h _ (List.mem_map_of_mem hl) (lt_max_of_lt_right hpos) hreach
    simp only [max_eq_right hpos.le] at hall
    exact max_le (le_refl 0) (by linarith)
  · exact max_le (le_refl 0) (by linarith)

end ResidualBook.Dry

/-- A taker that is left with something has emptied every level it reaches. -/
lemma consumeLoop_empties (impactFactor : ℚ) (occurredAt : Time) (levels : List (ℚ × ℚ))
    (o : BacktestOrder) (book : ResidualBook) (remaining : ℚ)
    (hsort : ReachSorted o.side o.price levels)
    (hmore : totalSize (consumeLoop cfg impactFactor occurredAt levels o book remaining).fills <
      remaining) :
    ∀ x ∈ levels, 0 < x.2 → beyondLimit o.side o.price x.1 = false →
      book.consumedAt o.side x.1 + x.2 ≤
        (consumeLoop cfg impactFactor occurredAt levels o book remaining).book.consumedAt
          o.side x.1 := by
  induction levels generalizing o book remaining with
  | nil => simp
  | cons l levels ih =>
    obtain ⟨price, qty⟩ := l
    obtain ⟨hhead, htail⟩ := List.pairwise_cons.1 hsort
    intro x hx hpos hreach
    unfold consumeLoop at hmore ⊢
    by_cases hdone : remaining ≤ 0
    · rw [if_pos hdone] at hmore
      exact absurd hmore (not_lt.2 (by simpa using hdone))
    rw [if_neg hdone] at hmore ⊢
    by_cases hqty : qty ≤ 0
    · rw [if_pos hqty] at hmore ⊢
      rcases List.mem_cons.1 hx with rfl | hx
      · exact absurd hpos (not_lt.2 hqty)
      · exact ih o book remaining htail hmore x hx hpos hreach
    rw [if_neg hqty] at hmore ⊢
    by_cases hout : beyondLimit o.side o.price price = true
    · rcases List.mem_cons.1 hx with rfl | hx
      · rw [hout] at hreach
        cases hreach
      · rw [hhead x hx hout] at hreach
        cases hreach
    rw [if_neg hout] at hmore ⊢
    dsimp only at hmore ⊢
    rw [totalSize_cons] at hmore
    set f := takerFill cfg book.snapshot impactFactor occurredAt o price (min qty remaining)
    set r := consumeLoop cfg impactFactor occurredAt levels (o.recordFill f)
      (book.consume o.side price (min qty remaining)) (remaining - min qty remaining)
    have hsize : f.size = min qty remaining := rfl
    have hc : (book.consume o.side price (min qty remaining)).Consumed r.book :=
      consumeLoop_consumed _ _ _ _ _ _
    rcases List.mem_cons.1 hx with rfl | hx
    · have hle : min qty remaining ≤ remaining := min_le_right _ _
      have hnonneg : 0 ≤ totalSize r.fills := by
        rw [consumeLoop_total _ _ _ _ _ _ (by linarith) (by exact htail)]
        exact le_min (by linarith) (visibleDepth_nonneg _ _ _)
      -- the whole level is taken, or nothing would remain
      have hall : min qty remaining = qty := by
        refine min_eq_left (not_lt.1 fun hlt => ?_)
        rw [hsize, min_eq_right hlt.le] at hmore
        linarith
      have hhere := hc.le o.side price
      rw [consumedAt_consume, if_pos rfl, hall] at hhere
      exact hhere
    · have hrest := ih (o.recordFill f) (book.consume o.side price (min qty remaining))
        (remaining - min qty remaining) htail (by linarith) x hx hpos hreach
      have hle := (ResidualBook.Consumed.consume book o.side price
        (lt_min (not_le.1 hqty) (not_le.1 hdone)).le).le o.side x.1
      exact (add_le_add_left hle x.2).trans hrest

lemma capBy_nonneg {allowance : Option ℚ} {x : ℚ} (h : ∀ a, allowance = some a → 0 ≤ a)
    (hx : 0 ≤ x) : 0 ≤ capBy allowance x := by
  cases allowance with
  | none => exact hx
  | some a => exact le_min hx (h a rfl)

/-- A resting order that is left with something, that the fill model does not cut and that
meets the book at its own price, has emptied every level it reaches. -/
lemma restLoop_empties (snap : BookSnapshot) (levels : List (ℚ × ℚ)) (o : BacktestOrder)
    (book : ResidualBook) (remaining : ℚ) (hsort : ReachSorted o.side o.price levels)
    (hnonneg : ∀ l ∈ levels, 0 ≤ l.2) (hgate : ∀ a ∈ modelAllowance cfg o snap, remaining ≤ a)
    (hexact : ∀ x ∈ levels, 0 < x.2 → beyondLimit o.side o.price x.1 = false → x.1 = o.price)
    (hmore : totalSize (restLoop cfg snap levels o book remaining).fills < remaining) :
    ∀ x ∈ levels, 0 < x.2 → beyondLimit o.side o.price x.1 = false →
      book.consumedAt o.side x.1 + x.2 ≤
        (restLoop cfg snap levels o book remaining).book.consumedAt o.side x.1 := by
  induction levels generalizing o book remaining with
  | nil => simp
  | cons l levels ih =>
    obtain ⟨price, qty⟩ := l
    obtain ⟨hhead, htail⟩ := List.pairwise_cons.1 hsort
    have hnonneg' : ∀ l ∈ levels, 0 ≤ l.2 := fun l hl => hnonneg l (List.mem_cons_of_mem _ hl)
    have hexact' := fun x hx => hexact x (List.mem_cons_of_mem (price, qty) hx)
    intro x hx hpos hreach
    unfold restLoop at hmore ⊢
    by_cases hdone : remaining ≤ 0
    · rw [if_pos hdone] at hmore
      exact absurd hmore (not_lt.2 (by simpa using hdone))
    rw [if_neg hdone] at hmore ⊢
    by_cases hout : beyondLimit o.side o.price price = true
    · rcases List.mem_cons.1 hx with rfl | hx
      · rw [hout] at hreach
        cases hreach
      · rw [hhead x hx hout] at hreach
        cases hreach
    rw [if_neg hout] at hmore ⊢
    dsimp only at hmore ⊢
    obtain ⟨hle, p, hp⟩ := fillProbabilityCappedTake_spec cfg o snap (min qty remaining)
    have hallow := modelAllowance_cappedTake cfg o snap (min qty remaining)
    have htake : 0 < qty →
        (fillProbabilityCappedTake cfg o snap (min qty remaining)).1 = min qty remaining := by
      intro hqty
      rw [fillProbabilityCappedTake_fst cfg o snap (lt_min hqty (not_le.1 hdone))]
      cases hm : modelAllowance cfg o snap with
      | none => rfl
      | some a => exact min_eq_left ((min_le_right _ _).trans (hgate a hm))
    set t := (fillProbabilityCappedTake cfg o snap (min qty remaining)).1
    rw [hp] at hallow hmore ⊢
    have hgate' : ∀ a ∈ modelAllowance cfg { o with fillProbabilityCumulative := p } snap,
        remaining ≤ a := by
      rw [hallow]
      exact hgate
    by_cases hcap : t ≤ 0
    · rw [if_pos hcap] at hmore ⊢
      rcases List.mem_cons.1 hx with rfl | hx
      · exact absurd hcap (not_le.2 (by rw [htake hpos]; exact lt_min hpos (not_le.1 hdone)))
      · exact ih { o with fillProbabilityCumulative := p } book remaining htail hnonneg' hgate'
          hexact' hmore x hx hpos hreach
    rw [if_neg hcap] at hmore ⊢
    dsimp only at hmore ⊢
    rw [totalSize_cons] at hmore
    set f := restingFill cfg snap { o with fillProbabilityCumulative := p } t
    set r := restLoop cfg snap levels
      (({ o with fillProbabilityCumulative := p } : BacktestOrder).recordFill f)
      (book.consume o.side o.price t) (remaining - t)
    have hsize : f.size = t := rfl
    have htle : t ≤ remaining := hle.trans (min_le_right _ _)
    have hc : (book.consume o.side o.price t).Consumed r.book := restLoop_consumed _ _ _ _ _
    have hgate'' : ∀ a ∈ modelAllowance cfg
        (({ o with fillProbabilityCumulative := p } : BacktestOrder).recordFill f) snap,
        remaining - t ≤ a := by
      rw [modelAllowance_recordFill cfg _ snap f (fun a ha => htle.trans (hgate' a ha))
        (not_le.1 hcap)]
      intro a ha
      obtain ⟨b, hb, rfl⟩ := Option.map_eq_some_iff.1 ha
      exact sub_le_sub_right (hgate' b hb) t
    rcases List.mem_cons.1 hx with rfl | hx
    · have hrest : 0 ≤ totalSize r.fills := by
        rw [restLoop_total _ _ _ _ _ (by linarith) (by exact htail) hnonneg']
        exact capBy_nonneg (fun a ha => modelAllowance_nonneg ha)
          (le_min (by linarith) (visibleDepth_nonneg _ _ _))
      -- the whole level is taken, or nothing would remain
      have hall : t = qty := by
        rw [hsize] at hmore
        have hmin := htake hpos
        refine hmin.trans (min_eq_left (not_lt.1 fun hlt => ?_))
        rw [min_eq_right hlt.le] at hmin
        linarith
      have hhere := hc.le o.side price
      have hprice := hexact (price, qty) List.mem_cons_self hpos hreach
      rw [consumedAt_consume, if_pos hprice.symm, hall] at hhere
      exact hhere
    · have hrest := ih (({ o with fillProbabilityCumulative := p } : BacktestOrder).recordFill f)
        (book.consume o.side o.price t) (remaining - t) htail hnonneg' hgate'' hexact'
        (by linarith) x hx hpos hreach
      have hbook := (ResidualBook.Consumed.consume book o.side o.price (not_le.1 hcap).le).le
        o.side x.1
      exact (add_le_add_left hbook x.2).trans hrest

section Left

variable {o : BacktestOrder} {book : ResidualBook}

/-- An order that still has something has filled less than it asked for. -/
lemma totalSize_lt_of_left {o' : BacktestOrder} {fs : List Fill} (hw : Walk o fs o')
    (hmore : 0 < o'.remainingSize) : totalSize fs < o.remainingSize := by
  have hnonneg := totalSize_nonneg hw.pos
  unfold BacktestOrder.remainingSize at hmore ⊢
  rw [hw.size_eq, hw.filledSize_eq] at hmore
  rcases lt_max_iff.1 hmore with h | h
  · exact absurd h (lt_irrefl 0)
  · exact lt_max_of_lt_right (by linarith)

/-- A taker that is left with something leaves nothing within its limit. -/
lemma consumeLevels_dry (now : Option Time)
    (hmore : 0 < (consumeLevels cfg now o book).order.remainingSize) :
    (consumeLevels cfg now o book).book.Dry o.side o.price := by
  have hlt := totalSize_lt_of_left (MatchingEngine.consumeLevels_walk cfg now o book) hmore
  refine .of_emptied (consumeLevels_consumed now o book) ?_
  unfold consumeLevels at hlt ⊢
  by_cases hrem : o.remainingSize ≤ 0
  · simp only [hrem, if_true] at hlt
    exact absurd hrem (not_le.2 hlt)
  · simp only [hrem, if_false] at hlt ⊢
    exact consumeLoop_empties _ _ _ _ _ _ (reachSorted_remaining _ _ _) hlt

/-- So does an unblocked resting order that meets the book at its own price. -/
lemma restLoop_dry (hpos : 0 < o.remainingSize) (hopen : o.Unblocked cfg book.snapshot)
    (hexact : ∀ x ∈ book.remaining o.side, 0 < x.2 → beyondLimit o.side o.price x.1 = false →
      x.1 = o.price)
    (hmore : 0 < (restLoop cfg book.snapshot (book.remaining o.side) o book
      o.remainingSize).order.remainingSize) :
    (restLoop cfg book.snapshot (book.remaining o.side) o book o.remainingSize).book.Dry
      o.side o.price :=
  .of_emptied (restLoop_consumed _ _ _ _ _) (restLoop_empties _ _ _ _ _
    (reachSorted_remaining _ _ _) (fun _ hl => remaining_nonneg hl) hopen.gate hexact
    (totalSize_lt_of_left (MatchingEngine.restLoop_walk_of_pos cfg hpos _ _ _) hmore))

end Left

/-! ## Venues that see the book -/

/-- The venue calls every order marketable that something displayed is within the limit of. -/
def Venue.SeesBook (v : Venue) : Prop :=
  ∀ side price (snap : BookSnapshot),
    v.isMarketable side price snap.bestBid snap.bestAsk = false →
      ∀ l ∈ snap.ladder side, beyondLimit side price l.price = true

/-- Nothing is within the limit of an order that such a venue does not call marketable. -/
lemma Venue.SeesBook.dry {v : Venue} (h : v.SeesBook) {side : Side} {price : ℚ}
    {book : ResidualBook}
    (hm : v.isMarketable side price book.snapshot.bestBid book.snapshot.bestAsk = false) :
    book.Dry side price := by
  intro x hx hreach
  obtain ⟨l, hl, rfl⟩ := List.mem_map.1 hx
  rw [h side price book.snapshot hm l hl] at hreach
  cases hreach

/-- The Polymarket CLOB sees the book. -/
lemma polymarketVenue_seesBook : polymarketVenue.SeesBook := by
  have hbest : ∀ {levels : List PriceLevel} {r : PriceLevel → PriceLevel → Prop},
      levels.Pairwise r → ∀ l ∈ levels, ∃ b, levels.head? = some b ∧ (b = l ∨ r b l) := by
    intro levels r hsort l hl
    cases hsort with
    | nil => cases hl
    | @cons b levels hhead _ =>
      refine ⟨b, rfl, ?_⟩
      rcases List.mem_cons.1 hl with rfl | hl
      · exact .inl rfl
      · exact .inr (hhead l hl)
  intro side price snap hm l hl
  cases side with
  | buy =>
    obtain ⟨b, hb, hle⟩ := hbest snap.asks_asc l hl
    have hask : snap.bestAsk = some b.price := by rw [BookSnapshot.bestAsk, hb]; rfl
    have hfar : price + e12 < b.price := by
      simpa [polymarketVenue, PolymarketVenue.isMarketable, hask] using hm
    have hprice : b.price ≤ l.price := by
      rcases hle with rfl | hle
      · exact le_refl _
      · exact hle
    simp only [beyondLimit, decide_eq_true_eq]
    linarith
  | sell =>
    obtain ⟨b, hb, hle⟩ := hbest snap.bids_desc l hl
    have hbid : snap.bestBid = some b.price := by rw [BookSnapshot.bestBid, hb]; rfl
    have hfar : b.price + e12 < price := by
      simpa [polymarketVenue, PolymarketVenue.isMarketable, hbid] using hm
    have hprice : l.price ≤ b.price := by
      rcases hle with rfl | hle
      · exact le_refl _
      · exact hle
    simp only [beyondLimit, decide_eq_true_eq]
    linarith

end Evosport.Backtest
