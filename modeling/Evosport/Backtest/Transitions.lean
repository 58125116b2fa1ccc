/-
What the operations of the matching engine can do.

`handleAdmit_cases` and `tryMatchResting_cases` say once what an admission and a match of
a resting order can do; `Effect` is the part of it that the invariants need: one order is
rewritten, either it is finished and leaves the working list, or it rests there.  The
loops of `advance_to` get induction rules (`forOrders_induct`, `applyDueCancels_induct`,
`decayQueues_induct`), and `WellFormed` is the invariant of the engine's indexes.
-/
import Evosport.Lib.Run
import Evosport.Backtest.Walk

namespace Evosport.Backtest

open Lib

namespace MatchingEngine

variable {cfg : MatchingConfig} {e e' : MatchingEngine} {o o' : BacktestOrder}
  {book : ResidualBook} {fs : List Fill}

/-! ## The fields that the small operations touch -/

/-- Write an order and the book of its token back. -/
def writeBack (e : MatchingEngine) (o : BacktestOrder) (book : ResidualBook) : MatchingEngine :=
  { e.putOrder o with books := e.books.set o.tokenId book }

/-- A terminal transition of a live order. -/
def finish (e : MatchingEngine) (o : BacktestOrder) : MatchingEngine :=
  (e.putOrder o).decrementActive o.tokenId

lemma terminate_of_live (h : o.isTerminal = false) (state : OrderState) :
    e.terminate o state = e.finish { o with state := state } := by
  simp [terminate, h, finish]

lemma removeFromWorking_workingIds (e : MatchingEngine) (o : BacktestOrder) (t : TokenId) :
    (e.removeFromWorking o).workingIds t =
      if t = o.tokenId then (e.workingIds t).erase o.orderId else e.workingIds t := by
  unfold removeFromWorking
  by_cases hmem : o.orderId ∈ e.workingIds o.tokenId
  · rw [if_pos hmem]
    by_cases ht : t = o.tokenId
    · subst ht
      simp [workingIds, Dict.getD]
    · simp [workingIds, Dict.getD, Dict.get?_set_of_ne _ _ (Ne.symm ht), ht]
  · rw [if_neg hmem]
    by_cases ht : t = o.tokenId
    · subst ht
      rw [if_pos rfl, List.erase_of_not_mem hmem]
    · rw [if_neg ht]

lemma addToWorking_workingIds (e : MatchingEngine) (o : BacktestOrder) (t : TokenId) :
    (e.addToWorking o).workingIds t =
      if t = o.tokenId then
        if o.orderId ∈ e.workingIds t then e.workingIds t else e.workingIds t ++ [o.orderId]
      else e.workingIds t := by
  unfold addToWorking
  by_cases ht : t = o.tokenId
  · subst ht
    simp [workingIds, Dict.getD]
  · simp [workingIds, Dict.getD, Dict.get?_set_of_ne _ _ (Ne.symm ht), ht]

lemma removeFromWorking_eq (e : MatchingEngine) (o : BacktestOrder) :
    ∃ w, e.removeFromWorking o = { e with workingByToken := w } := by
  unfold removeFromWorking
  split
  · exact ⟨_, rfl⟩
  · exact ⟨e.workingByToken, rfl⟩

/-! ## Admissions -/

/-- A post-only order that would cross the book. -/
def postOnlyCrosses (cfg : MatchingConfig) (o : BacktestOrder) (book : ResidualBook) : Bool :=
  o.postOnly && cfg.venue.crossesBook o.side o.price book.snapshot.bestBid book.snapshot.bestAsk

/-- An order that the venue calls marketable on the book. -/
def marketable (cfg : MatchingConfig) (o : BacktestOrder) (book : ResidualBook) : Bool :=
  cfg.venue.isMarketable o.side o.price book.snapshot.bestBid book.snapshot.bestAsk

/-- Everything that `_handle_admit` can do with a live order once its token has a book. -/
inductive Admission (cfg : MatchingConfig) (e : MatchingEngine) (o : BacktestOrder)
    (book : ResidualBook) : MatchingEngine → List Fill → Prop
  /-- A post-only order that would cross. -/
  | crossed (hpost : postOnlyCrosses cfg o book = true) : Admission cfg e o book
      (e.finish { o with rejectReason := some .postOnlyCrossesBook, state := .rejected }) []
  /-- A FOK order that does not fit. -/
  | insufficient (htif : o.tif = .fok)
      (hfit : availableForTaker book o.side o.price + e12 < o.size) : Admission cfg e o book
      (e.finish { o with rejectReason := some .fokInsufficientLiquidity, state := .rejected }) []
  /-- A FOK order that fits. -/
  | killedOrFilled (hpost : postOnlyCrosses cfg o book = false) (htif : o.tif = .fok)
      (hfit : o.size ≤ availableForTaker book o.side o.price + e12)
      (r : MatchResult) (hr : r = consumeLevels cfg e.now o book) : Admission cfg e o book
      ((e.writeBack r.order r.book).finish { r.order with state := .filled }) r.fills
  /-- A marketable order that is filled in full. -/
  | filled (hpost : postOnlyCrosses cfg o book = false) (htif : o.tif ≠ .fok)
      (hm : marketable cfg o book = true)
      (r : MatchResult) (hr : r = consumeLevels cfg e.now o book)
      (hdone : r.order.remainingSize ≤ 0) : Admission cfg e o book
      ((e.writeBack r.order r.book).finish { r.order with state := .filled }) r.fills
  /-- A marketable IOC or FAK order with a remainder. -/
  | cut (hpost : postOnlyCrosses cfg o book = false) (htif : o.tif ≠ .fok)
      (hm : marketable cfg o book = true)
      (r : MatchResult) (hr : r = consumeLevels cfg e.now o book) : Admission cfg e o book
      ((e.writeBack r.order r.book).finish
        { r.order with cancelledAt := r.order.venueReceivedAt, state := .cancelled }) r.fills
  /-- A marketable GTC or GTD order with a remainder, which rests. -/
  | restedRemainder (hpost : postOnlyCrosses cfg o book = false) (htif : o.tif ≠ .fok)
      (himm : o.tif.isImmediate = false) (hm : marketable cfg o book = true)
      (r : MatchResult) (hr : r = consumeLevels cfg e.now o book)
      (hmore : 0 < r.order.remainingSize) : Admission cfg e o book
      ((e.writeBack r.order r.book).rest cfg r.book r.order .partiallyFilled) r.fills
  /-- An IOC or FAK order that is not marketable. -/
  | expired (htif : o.tif ≠ .fok) (hm : marketable cfg o book = false) : Admission cfg e o book
      (e.finish { o with cancelledAt := o.venueReceivedAt, state := .cancelled }) []
  /-- A GTC or GTD order that is not marketable. -/
  | rested (htif : o.tif ≠ .fok) (hm : marketable cfg o book = false) : Admission cfg e o book
      (e.rest cfg book o .working) []

lemma consumeLevels_walk (cfg : MatchingConfig) (now : Option Time) (o : BacktestOrder)
    (book : ResidualBook) :
    Walk o (consumeLevels cfg now o book).fills (consumeLevels cfg now o book).order := by
  unfold consumeLevels
  by_cases hrem : o.remainingSize ≤ 0
  · simp only [hrem, if_true]
    exact .done o
  · simp only [hrem, if_false]
    refine consumeLoop_walk _ _ _ _ _ _ ?_
    have hpos := not_le.1 hrem
    unfold BacktestOrder.remainingSize at hpos ⊢
    rw [max_eq_right (by_contra fun h => hpos.ne' (max_eq_left (not_le.1 h).le))]
    linarith

lemma handleAdmit_cases (hlive : o.isTerminal = false)
    (hbook : e.books.get? o.tokenId = some book) :
    Admission cfg e o book (e.handleAdmit cfg o).1 (e.handleAdmit cfg o).2 := by
  generalize hr : consumeLevels cfg e.now o book = r
  have hwalk : Walk o r.fills r.order := by
    rw [← hr]
    exact consumeLevels_walk cfg e.now o book
  have hlive' : r.order.isTerminal = false := by
    rw [BacktestOrder.isTerminal, hwalk.state_eq]
    exact hlive
  have htok := hwalk.tokenId_eq
  unfold handleAdmit
  simp only [hbook, take, hr]
  by_cases hpost : postOnlyCrosses cfg o book = true
  · rw [if_pos (by exact hpost), terminate_of_live (by exact hlive)]
    exact .crossed hpost
  rw [if_neg (by exact hpost)]
  have hpost' : postOnlyCrosses cfg o book = false := by simpa using hpost
  by_cases htif : o.tif = .fok
  · rw [if_pos htif]
    by_cases hfit : availableForTaker book o.side o.price + e12 < o.size
    · rw [if_pos hfit, terminate_of_live (by exact hlive)]
      exact .insufficient htif hfit
    · rw [if_neg hfit, terminate_of_live hlive', ← htok]
      exact .killedOrFilled hpost' htif (not_lt.1 hfit) r hr.symm
  rw [if_neg htif]
  by_cases hm : marketable cfg o book = true
  · rw [if_pos (by exact hm), ← htok]
    by_cases hmore : r.order.remainingSize > 0
    · rw [if_pos hmore]
      by_cases himm : o.tif.isImmediate = true
      · rw [if_pos himm, terminate_of_live (by exact hlive')]
        exact .cut hpost' htif hm r hr.symm
      · rw [if_neg himm]
        exact .restedRemainder hpost' htif (by simpa using himm) hm r hr.symm hmore
    · rw [if_neg hmore, terminate_of_live hlive']
      exact .filled hpost' htif hm r hr.symm (not_lt.1 hmore)
  rw [if_neg (by exact hm)]
  have hm' : marketable cfg o book = false := by simpa using hm
  by_cases himm : o.tif.isImmediate = true
  · rw [if_pos himm, terminate_of_live (by exact hlive)]
    exact .expired htif hm'
  · rw [if_neg himm]
    exact .rested htif hm'

/-! ## Resting orders -/

/-- Everything that `_try_match_resting` can do with a live order once its token has a
book. -/
inductive Resting (cfg : MatchingConfig) (e : MatchingEngine) (o : BacktestOrder)
    (book : ResidualBook) : MatchingEngine → List Fill → Prop
  /-- The queue gate blocks, or nothing remains. -/
  | idle : Resting cfg e o book e []
  /-- A walk that leaves the order resting. -/
  | walked (hgate : queueBlocked o = false) (hpos : 0 < o.remainingSize) (r : MatchResult)
      (hr : r = restLoop cfg book.snapshot (book.remaining o.side) o book o.remainingSize)
      (hmore : e12 < r.order.remainingSize) :
      Resting cfg e o book (e.writeBack r.order r.book) r.fills
  /-- A walk that completes the order. -/
  | completed (hgate : queueBlocked o = false) (hpos : 0 < o.remainingSize) (r : MatchResult)
      (hr : r = restLoop cfg book.snapshot (book.remaining o.side) o book o.remainingSize)
      (hdone : r.order.remainingSize ≤ e12) :
      Resting cfg e o book
        (((e.writeBack r.order r.book).finish { r.order with state := .filled }).removeFromWorking
          r.order) r.fills

variable (cfg) in
/-- A resting order asks for at most what remains of it. -/
lemma restLoop_walk_of_pos (hpos : 0 < o.remainingSize) (snap : BookSnapshot)
    (levels : List (ℚ × ℚ)) (book : ResidualBook) :
    Walk o (restLoop cfg snap levels o book o.remainingSize).fills
      (restLoop cfg snap levels o book o.remainingSize).order := by
  refine restLoop_walk _ _ _ _ _ ?_
  unfold BacktestOrder.remainingSize at hpos ⊢
  rw [max_eq_right (by_contra fun h => hpos.ne' (max_eq_left (not_le.1 h).le))]
  linarith

lemma tryMatchResting_cases (hlive : o.isTerminal = false)
    (hbook : e.books.get? o.tokenId = some book) :
    Resting cfg e o book (e.tryMatchResting cfg o).1 (e.tryMatchResting cfg o).2 := by
  unfold tryMatchResting
  simp only [hbook]
  split
  · exact .idle
  next hgate =>
  split
  · exact .idle
  next hrem =>
  have hpos := not_le.1 hrem
  have hwalk := restLoop_walk_of_pos cfg hpos book.snapshot (book.remaining o.side) book
  rw [← hwalk.tokenId_eq]
  have hlive' : (restLoop cfg book.snapshot (book.remaining o.side) o book
      o.remainingSize).order.isTerminal = false := by
    rw [BacktestOrder.isTerminal, hwalk.state_eq]
    exact hlive
  split
  · next hdone =>
    rw [terminate_of_live hlive']
    exact .completed (by simpa using hgate) hpos _ rfl hdone.1
  · next hmore =>
    refine .walked (by simpa using hgate) hpos _ rfl (not_le.1 fun hdone => hmore ⟨hdone, ?_⟩)
    intro hfilled
    rw [BacktestOrder.isTerminal, hfilled] at hlive'
    cases hlive'

end MatchingEngine

/-! ## Effects -/

/-- `o'` is the same order with the same fills; its label, its queue position, its
cancellation and its covariates may differ. -/
structure BacktestOrder.Relabel (o o' : BacktestOrder) : Prop where
  orderId : o'.orderId = o.orderId
  tokenId : o'.tokenId = o.tokenId
  side : o'.side = o.side
  price : o'.price = o.price
  size : o'.size = o.size
  tif : o'.tif = o.tif
  strategySlug : o'.strategySlug = o.strategySlug
  venueReceivedAt : o'.venueReceivedAt = o.venueReceivedAt
  fills : o'.fills = o.fills
  filledSize : o'.filledSize = o.filledSize
  avgFillPrice : o'.avgFillPrice = o.avgFillPrice

namespace BacktestOrder

variable {o o' : BacktestOrder}

lemma Relabel.refl (o : BacktestOrder) : o.Relabel o :=
  ⟨rfl, rfl, rfl, rfl, rfl, rfl, rfl, rfl, rfl, rfl, rfl⟩

/-- Everything but the identity and the fills of an order may be updated. -/
lemma Relabel.update {state : OrderState} {reason : Option RejectReason}
    {cancelledAt cancelPendingAt : Option Time} {queue : Option ℚ}
    {covariates : Option Covariates} {p : ℚ} :
    o.Relabel
      { o with
        state := state
        rejectReason := reason
        cancelledAt := cancelledAt
        cancelPendingAt := cancelPendingAt
        queueAheadShares := queue
        survivalCovariates := covariates
        fillProbabilityCumulative := p } :=
  ⟨rfl, rfl, rfl, rfl, rfl, rfl, rfl, rfl, rfl, rfl, rfl⟩

lemma Booked.relabel (h : o.Booked) (hr : o.Relabel o') : o'.Booked := by
  constructor
  · rw [hr.filledSize, hr.fills, h.filled]
  · rw [hr.filledSize, hr.size]
    exact h.le
  · rw [hr.avgFillPrice, hr.filledSize, hr.fills, h.avg]
  · rw [hr.fills, h.index]
  · rw [hr.fills]
    exact h.pos

/-- The states of an order that rests on the book. -/
def IsResting (o : BacktestOrder) : Prop := o.state = .working ∨ o.state = .partiallyFilled

lemma IsResting.isTerminal (h : o.IsResting) : o.isTerminal = false := by
  rcases h with h | h <;> rw [BacktestOrder.isTerminal, h] <;> rfl

lemma remainingSize_relabel (hr : o.Relabel o') : o'.remainingSize = o.remainingSize := by
  rw [remainingSize, remainingSize, hr.size, hr.filledSize]

end BacktestOrder

namespace MatchingEngine

variable {cfg : MatchingConfig} {e e' : MatchingEngine} {o o' : BacktestOrder}
  {book : ResidualBook} {fs : List Fill}

/-- The working list of a token once an order of it rests. -/
def withWorking (ids : List OrderId) (orderId : OrderId) : List OrderId :=
  if orderId ∈ ids then ids else ids ++ [orderId]

/-- How a rewritten order and the indexes fit together. -/
inductive Ends (e : MatchingEngine) (o o' : BacktestOrder) (e' : MatchingEngine) : Prop
  /-- The order is finished: it is no longer counted nor working. -/
  | finished (hstate : o'.isTerminal = true)
      (hcount : e'.activeCountByToken = (e.decrementActive o.tokenId).activeCountByToken)
      (hworking : ∀ t, e'.workingIds t =
        if t = o.tokenId then (e.workingIds t).erase o.orderId else e.workingIds t)
  /-- The order rests: it is still counted, and it is working. -/
  | rests (hstate : o'.IsResting) (hcount : e'.activeCountByToken = e.activeCountByToken)
      (hworking : ∀ t, e'.workingIds t =
        if t = o.tokenId then withWorking (e.workingIds t) o.orderId else e.workingIds t)

/-- The live order `o` records the fills `fs` and becomes `o'`; the ledger, the clock, the waiting
cancels and the books of other tokens stay as they are, and no snapshot changes. -/
structure Effect (e : MatchingEngine) (o : BacktestOrder) (fs : List Fill) (o' : BacktestOrder)
    (e' : MatchingEngine) : Prop where
  orders : e'.orders = e.orders.set o.orderId o'
  walk : ∃ o₁, Walk o fs o₁ ∧ o₁.Relabel o'
  done : o'.state = .filled → o'.remainingSize ≤ e12
  ends : Ends e o o' e'
  books : ∀ t, t ≠ o.tokenId → e'.books.get? t = e.books.get? t
  snapshots : ∀ t, (e'.books.get? t).map ResidualBook.snapshot =
    (e.books.get? t).map ResidualBook.snapshot
  allFills : e'.allFills = e.allFills
  now : e'.now = e.now
  pendingCancels : e'.pendingCancels = e.pendingCancels

/-- An order is rewritten without any change of its state: the indexes, the books and the ledger
stay as they are. -/
structure Touch (e : MatchingEngine) (o o' : BacktestOrder) (e' : MatchingEngine) : Prop where
  orders : e'.orders = e.orders.set o.orderId o'
  relabel : o.Relabel o'
  state : o'.state = o.state
  count : e'.activeCountByToken = e.activeCountByToken
  working : e'.workingByToken = e.workingByToken
  books : e'.books = e.books
  allFills : e'.allFills = e.allFills
  now : e'.now = e.now

/-- A finished order leaves a working list it is not in as it is. -/
lemma erase_of_notWorking (h : o.orderId ∉ e.workingIds o.tokenId) (t : TokenId) :
    e.workingIds t =
      if t = o.tokenId then (e.workingIds t).erase o.orderId else e.workingIds t := by
  by_cases ht : t = o.tokenId
  · subst ht
    rw [if_pos rfl, List.erase_of_not_mem h]
  · rw [if_neg ht]

lemma snapshotQueuePosition_relabel (cfg : MatchingConfig) (book : ResidualBook)
    (o : BacktestOrder) (label : OrderState) :
    o.Relabel (snapshotQueuePosition cfg book { o with state := label }) ∧
      (snapshotQueuePosition cfg book { o with state := label }).state = label := by
  unfold snapshotQueuePosition
  cases cfg.fillModel with
  | none => exact ⟨.update, rfl⟩
  | some model => exact ⟨.update, rfl⟩

/-- Finishing a live order that is not working. -/
lemma effect_finish (hr : o.Relabel o') (hterm : o'.isTerminal = true)
    (hdone : o'.state = .filled → o'.remainingSize ≤ e12)
    (hnot : o.orderId ∉ e.workingIds o.tokenId) : Effect e o [] o' (e.finish o') := by
  refine ⟨?_, ⟨o, .done o, hr⟩, hdone, .finished hterm ?_ (erase_of_notWorking hnot),
    fun t _ => rfl, fun t => rfl, rfl, rfl, rfl⟩
  · rw [← hr.orderId]
    rfl
  · rw [← hr.tokenId]
    rfl

/-- Writing back a book over the same snapshot. -/
lemma snapshots_set {book' : ResidualBook} {t₀ : TokenId} (hbook : e.books.get? t₀ = some book)
    (hsnap : book'.snapshot = book.snapshot) (t : TokenId) :
    ((e.books.set t₀ book').get? t).map ResidualBook.snapshot =
      (e.books.get? t).map ResidualBook.snapshot := by
  rw [Dict.get?_set]
  split
  · next ht => rw [← ht, hbook, Option.map_some, Option.map_some, hsnap]
  · rfl

/-- Finishing a live order after a walk. -/
lemma effect_writeBack_finish {o₁ : BacktestOrder} {book' : ResidualBook} (hw : Walk o fs o₁)
    (hbook : e.books.get? o.tokenId = some book) (hsnap : book'.snapshot = book.snapshot)
    (hr : o₁.Relabel o') (hterm : o'.isTerminal = true)
    (hdone : o'.state = .filled → o'.remainingSize ≤ e12)
    (hnot : o.orderId ∉ e.workingIds o.tokenId) :
    Effect e o fs o' ((e.writeBack o₁ book').finish o') := by
  have hid : o'.orderId = o.orderId := hr.orderId.trans hw.orderId_eq
  have htok : o'.tokenId = o.tokenId := hr.tokenId.trans hw.tokenId_eq
  refine ⟨?_, ⟨o₁, hw, hr⟩, hdone, .finished hterm ?_ (erase_of_notWorking hnot), ?_, ?_, rfl,
    rfl, rfl⟩
  · show (e.orders.set o₁.orderId o₁).set o'.orderId o' = _
    rw [hid, hw.orderId_eq, Dict.set_set]
  · rw [← htok]
    rfl
  · intro t ht
    show (e.books.set o₁.tokenId book').get? t = _
    rw [hw.tokenId_eq, Dict.get?_set_of_ne _ _ (Ne.symm ht)]
  · rw [← hw.tokenId_eq] at hbook
    exact snapshots_set hbook hsnap

lemma consumeLevels_snapshot (cfg : MatchingConfig) (now : Option Time) (o : BacktestOrder)
    (book : ResidualBook) : (consumeLevels cfg now o book).book.snapshot = book.snapshot := by
  unfold consumeLevels
  by_cases hrem : o.remainingSize ≤ 0
  · simp only [hrem, if_true]
  · simp only [hrem, if_false]
    exact consumeLoop_snapshot _ _ _ _ _ _

lemma consumeLevels_total (cfg : MatchingConfig) (now : Option Time) (o : BacktestOrder)
    (book : ResidualBook) :
    totalSize (consumeLevels cfg now o book).fills =
      min o.remainingSize (availableForTaker book o.side o.price) := by
  have hnonneg : 0 ≤ o.remainingSize := le_max_left _ _
  rw [availableForTaker_eq]
  unfold consumeLevels
  by_cases hrem : o.remainingSize ≤ 0
  · simp only [hrem, if_true]
    rw [le_antisymm hrem hnonneg, min_eq_left (visibleDepth_nonneg _ _ _)]
    rfl
  · simp only [hrem, if_false]
    exact consumeLoop_total _ _ _ _ _ _ hnonneg (reachSorted_remaining _ _ _)

/-- A FOK order that fits leaves at most the tolerance. -/
lemma remainingSize_of_fits (hfresh : o.filledSize = 0)
    (hfit : o.size ≤ availableForTaker book o.side o.price + e12) :
    (consumeLevels cfg e.now o book).order.remainingSize ≤ e12 := by
  have hw := consumeLevels_walk cfg e.now o book
  have htotal := consumeLevels_total cfg e.now o book
  have he := e12_pos
  unfold BacktestOrder.remainingSize at htotal ⊢
  rw [hfresh, sub_zero] at htotal
  rw [hw.size_eq, hw.filledSize_eq, hfresh, htotal, zero_add]
  rcases le_total (max 0 o.size) (availableForTaker book o.side o.price) with h | h
  · rw [min_eq_left h]
    exact max_le he.le (by linarith [le_max_right 0 o.size])
  · rw [min_eq_right h]
    exact max_le he.le (by linarith)

/-- An admission finishes or rests its order. -/
lemma Admission.effect (ha : Admission cfg e o book e' fs)
    (hbook : e.books.get? o.tokenId = some book) (hnot : o.orderId ∉ e.workingIds o.tokenId)
    (hfresh : o.filledSize = 0) :
    ∃ o', Effect e o fs o' e' := by
  have hwalk := consumeLevels_walk cfg e.now o book
  have hsnap := consumeLevels_snapshot cfg e.now o book
  cases ha with
  | crossed => exact ⟨_, effect_finish .update rfl (by simp) hnot⟩
  | insufficient => exact ⟨_, effect_finish .update rfl (by simp) hnot⟩
  | expired => exact ⟨_, effect_finish .update rfl (by simp) hnot⟩
  | killedOrFilled hpost htif hfit r hr =>
    subst hr
    exact ⟨_, effect_writeBack_finish hwalk hbook hsnap .update rfl
      (fun _ => remainingSize_of_fits hfresh hfit) hnot⟩
  | filled hpost htif hm r hr hdone =>
    subst hr
    exact ⟨_, effect_writeBack_finish hwalk hbook hsnap .update rfl
      (fun _ => hdone.trans e12_pos.le) hnot⟩
  | cut hpost htif hm r hr =>
    subst hr
    exact ⟨_, effect_writeBack_finish hwalk hbook hsnap .update rfl (by simp) hnot⟩
  | restedRemainder hpost htif himm hm r hr hmore =>
    subst hr
    obtain ⟨hr, hstate⟩ := snapshotQueuePosition_relabel cfg (consumeLevels cfg e.now o book).book
      (consumeLevels cfg e.now o book).order .partiallyFilled
    have hid := hr.orderId.trans hwalk.orderId_eq
    have htok := hr.tokenId.trans hwalk.tokenId_eq
    refine ⟨_, ?_, ⟨_, hwalk, hr⟩, fun h => ?_, .rests (.inr hstate) rfl ?_, ?_, ?_, rfl, rfl, rfl⟩
    · show (e.orders.set _ _).set _ _ = _
      rw [hid, hwalk.orderId_eq, Dict.set_set]
    · rw [hstate] at h
      cases h
    · intro t
      rw [rest, addToWorking_workingIds, hid, htok]
      rfl
    · intro t ht
      show (e.books.set _ _).get? t = _
      rw [hwalk.tokenId_eq, Dict.get?_set_of_ne _ _ (Ne.symm ht)]
    · rw [← hwalk.tokenId_eq] at hbook
      exact snapshots_set hbook hsnap
  | rested =>
    obtain ⟨hr, hstate⟩ := snapshotQueuePosition_relabel cfg book o .working
    refine ⟨_, ?_, ⟨_, .done o, hr⟩, fun h => ?_, .rests (.inl hstate) rfl ?_, fun t _ => rfl,
      fun t => rfl, rfl, rfl, rfl⟩
    · show e.orders.set _ _ = _
      rw [hr.orderId]
    · rw [hstate] at h
      cases h
    · intro t
      rw [rest, addToWorking_workingIds, hr.orderId, hr.tokenId]
      rfl

/-- A match of a resting order completes it or leaves it resting. -/
lemma Resting.effect (hm : Resting cfg e o book e' fs)
    (hbook : e.books.get? o.tokenId = some book) (hrest : o.IsResting)
    (hin : o.orderId ∈ e.workingIds o.tokenId) :
    (e' = e ∧ fs = []) ∨ ∃ o', Effect e o fs o' e' := by
  cases hm with
  | idle => exact .inl ⟨rfl, rfl⟩
  | walked hgate hpos r hr hmore =>
    subst hr
    have hw := restLoop_walk_of_pos cfg hpos book.snapshot (book.remaining o.side) book
    refine .inr ⟨_, ?_, ⟨_, hw, .refl _⟩, ?_, .rests ?_ rfl ?_, ?_, ?_, rfl, rfl, rfl⟩
    · rw [← hw.orderId_eq]
      rfl
    · intro h
      rw [hw.state_eq] at h
      rcases hrest with hs | hs <;> rw [hs] at h <;> cases h
    · rw [BacktestOrder.IsResting, hw.state_eq]
      exact hrest
    · intro t
      show e.workingIds t = _
      by_cases ht : t = o.tokenId
      · rw [if_pos ht, ht, withWorking, if_pos hin]
      · rw [if_neg ht]
    · intro t ht
      show (e.books.set _ _).get? t = _
      rw [hw.tokenId_eq, Dict.get?_set_of_ne _ _ (Ne.symm ht)]
    · rw [← hw.tokenId_eq] at hbook
      exact snapshots_set hbook (restLoop_snapshot _ _ _ _ _)
  | completed hgate hpos r hr hdone =>
    subst hr
    set r := restLoop cfg book.snapshot (book.remaining o.side) o book o.remainingSize with hr
    have hw : Walk o r.fills r.order := restLoop_walk_of_pos cfg hpos _ _ _
    obtain ⟨w, hw'⟩ := removeFromWorking_eq
      ((e.writeBack r.order r.book).finish { r.order with state := .filled }) r.order
    refine .inr ⟨{ r.order with state := .filled }, ?_, ⟨_, hw, .update⟩, fun _ => hdone,
      .finished rfl ?_ ?_, ?_, ?_, ?_, ?_, ?_⟩
    · rw [hw']
      show (e.orders.set r.order.orderId r.order).set r.order.orderId _ = _
      rw [hw.orderId_eq, Dict.set_set]
    · rw [hw', ← hw.tokenId_eq]
      rfl
    · intro t
      rw [removeFromWorking_workingIds, hw.tokenId_eq, hw.orderId_eq]
      rfl
    · intro t ht
      rw [hw']
      show (e.books.set _ _).get? t = _
      rw [hw.tokenId_eq, Dict.get?_set_of_ne _ _ (Ne.symm ht)]
    · rw [hw']
      rw [← hw.tokenId_eq] at hbook
      exact snapshots_set hbook (restLoop_snapshot _ _ _ _ _)
    all_goals rw [hw']; rfl

/-- A due cancel of a live order finishes it. -/
lemma applyCancel_effect {orderId : OrderId} (hget : e.orders.get? orderId = some o)
    (hlive : o.isTerminal = false) (effectiveAt : Time)
    (hin : o.orderId ∈ e.workingIds o.tokenId → o.IsResting) :
    ∃ o', Effect e o [] o' (e.applyCancel orderId effectiveAt) ∧ o'.state = .cancelled := by
  have hfinish : e.terminate { o with cancelledAt := some effectiveAt } .cancelled =
      e.finish { o with cancelledAt := some effectiveAt, state := .cancelled } :=
    terminate_of_live (by exact hlive) _
  set e₁ := e.finish { o with cancelledAt := some effectiveAt, state := .cancelled }
  by_cases hrest : o.IsResting
  · have heq : e.applyCancel orderId effectiveAt = e₁.removeFromWorking o := by
      unfold applyCancel
      simp only [hget, hlive, Bool.false_eq_true, if_false, hfinish]
      rcases hrest with hs | hs <;> simp only [hs]
    obtain ⟨w, hw⟩ := removeFromWorking_eq e₁ o
    rw [heq]
    refine ⟨{ o with cancelledAt := some effectiveAt, state := .cancelled },
      ⟨?_, ⟨o, .done o, .update⟩, by simp, .finished rfl ?_ ?_, ?_, ?_, ?_, ?_, ?_⟩, rfl⟩
    · rw [hw]; rfl
    · rw [hw]; rfl
    · intro t
      rw [removeFromWorking_workingIds]
      rfl
    all_goals rw [hw]
    · exact fun t _ => rfl
    · exact fun t => rfl
    all_goals rfl
  · have heq : e.applyCancel orderId effectiveAt = e₁ := by
      unfold applyCancel
      simp only [hget, hlive, Bool.false_eq_true, if_false, hfinish]
      unfold BacktestOrder.IsResting at hrest
      push Not at hrest
      cases hs : o.state <;> simp_all
    rw [heq]
    exact ⟨_, effect_finish .update rfl (by simp) fun h => hrest (hin h), rfl⟩

/-! ## The invariant of the indexes -/

/-- One for a live order of a token. -/
def liveOn (t : TokenId) (_ : OrderId) (o : BacktestOrder) : ℤ :=
  if o.isTerminal = false ∧ o.tokenId = t then 1 else 0

/-- The orders are keyed by their identifiers and keep their books, the working lists hold
resting orders of their tokens, and the active counts count the live orders. -/
structure WellFormed (e : MatchingEngine) : Prop where
  keyed : ∀ {id o}, e.orders.get? id = some o → o.orderId = id
  booked : ∀ {id o}, e.orders.get? id = some o → o.Booked
  fresh : ∀ {id o}, e.orders.get? id = some o → o.state = .pending → o.fills = []
  nodup : ∀ t, (e.workingIds t).Nodup
  working : ∀ {t id}, id ∈ e.workingIds t →
    ∃ o, e.orders.get? id = some o ∧ o.tokenId = t ∧ o.IsResting
  counted : ∀ t, (e.activeCountByToken.getD t 0 : ℤ) = e.orders.total (liveOn t)

lemma wellFormed_init : WellFormed {} where
  keyed h := by cases h
  booked h := by cases h
  fresh h := by cases h
  nodup _ := List.nodup_nil
  working h := by cases h
  counted _ := rfl

lemma liveOn_nonneg (t : TokenId) (id : OrderId) (o : BacktestOrder) : 0 ≤ liveOn t id o := by
  unfold liveOn
  split <;> decide

lemma liveOn_of_live (h : o.isTerminal = false) (t : TokenId) (id : OrderId) :
    liveOn t id o = if t = o.tokenId then 1 else 0 := by
  simp [liveOn, h, eq_comm]

lemma liveOn_of_terminal (h : o.isTerminal = true) (t : TokenId) (id : OrderId) :
    liveOn t id o = 0 := by
  simp [liveOn, h]

lemma decrementActive_getD (e : MatchingEngine) (token t : TokenId) :
    (e.decrementActive token).activeCountByToken.getD t 0 =
      e.activeCountByToken.getD t 0 - if t = token then 1 else 0 := by
  unfold decrementActive
  by_cases ht : t = token
  · subst ht
    simp only [if_true]
    split
    · next hn =>
      simp only [Dict.getD, Dict.get?_erase_self, Option.getD_none]
      exact (Nat.le_zero.1 hn).symm
    · simp [Dict.getD]
  · simp only [ht, if_false, Nat.sub_zero]
    split
    · simp [Dict.getD, Dict.get?_erase_of_ne _ (Ne.symm ht)]
    · simp [Dict.getD, Dict.get?_set_of_ne _ _ (Ne.symm ht)]

namespace WellFormed

lemma workingIds_of_pending (h : WellFormed e) (hget : e.orders.get? o.orderId = some o)
    (hstate : o.state = .pending) (t : TokenId) : o.orderId ∉ e.workingIds t := by
  intro hmem
  obtain ⟨o', hget', -, hrest⟩ := h.working hmem
  rw [hget] at hget'
  cases hget'
  rcases hrest with hs | hs <;> rw [hstate] at hs <;> cases hs

lemma isResting_of_mem (h : WellFormed e) (hget : e.orders.get? o.orderId = some o) {t : TokenId}
    (hmem : o.orderId ∈ e.workingIds t) : o.IsResting ∧ o.tokenId = t := by
  obtain ⟨o', hget', htok, hrest⟩ := h.working hmem
  rw [hget] at hget'
  cases hget'
  exact ⟨hrest, htok⟩

/-- A token without active orders has no live order. -/
lemma isTerminal_of_inactive (h : WellFormed e) {t : TokenId}
    (hactive : e.hasActiveOrdersForToken t = false) {id : OrderId}
    (hget : e.orders.get? id = some o) (htok : o.tokenId = t) : o.isTerminal = true := by
  by_contra hlive
  have hshare := Dict.share_le_total (m := e.orders) (liveOn_nonneg t) id
  rw [Dict.share_of_some hget, ← h.counted t, liveOn_of_live (by simpa using hlive),
    if_pos htok.symm] at hshare
  simp only [hasActiveOrdersForToken, decide_eq_false_iff_not, not_lt, Nat.le_zero] at hactive
  omega

/-- A token without active orders has no working order. -/
lemma workingIds_of_inactive (h : WellFormed e) {t : TokenId}
    (hactive : e.hasActiveOrdersForToken t = false) : e.workingIds t = [] := by
  refine List.eq_nil_iff_forall_not_mem.2 fun id hmem => ?_
  obtain ⟨o, hget, htok, hrest⟩ := h.working hmem
  have hterm := h.isTerminal_of_inactive hactive hget htok
  rw [hrest.isTerminal] at hterm
  cases hterm

/-- An effect keeps the indexes. -/
lemma effect (h : WellFormed e) (hget : e.orders.get? o.orderId = some o)
    (hlive : o.isTerminal = false) (he : Effect e o fs o' e') : WellFormed e' := by
  obtain ⟨o₁, hwalk, hr⟩ := he.walk
  have hid : o'.orderId = o.orderId := hr.orderId.trans hwalk.orderId_eq
  have htok : o'.tokenId = o.tokenId := hr.tokenId.trans hwalk.tokenId_eq
  have hget' : ∀ id, e'.orders.get? id =
      if o.orderId = id then some o' else e.orders.get? id := by
    intro id
    rw [he.orders, Dict.get?_set]
  have hcount : ∀ t, e'.orders.total (liveOn t) = e.orders.total (liveOn t) -
      (if t = o.tokenId then 1 else 0) + liveOn t o.orderId o' := by
    intro t
    rw [he.orders, Dict.total_set, Dict.share_of_some hget, liveOn_of_live hlive]
  constructor
  · intro id o₂ hg
    rw [hget'] at hg
    split at hg
    · next heq => cases hg; rw [hid, heq]
    · exact h.keyed hg
  · intro id o₂ hg
    rw [hget'] at hg
    split at hg
    · cases hg
      exact (hwalk.booked (h.booked hget)).relabel hr
    · exact h.booked hg
  · intro id o₂ hg hstate
    rw [hget'] at hg
    split at hg
    · cases hg
      -- an effect leaves no pending order behind
      cases he.ends with
      | finished hterm => rw [BacktestOrder.isTerminal, hstate] at hterm; cases hterm
      | rests hrest => rcases hrest with hs | hs <;> rw [hstate] at hs <;> cases hs
    · exact h.fresh hg hstate
  · intro t
    cases he.ends with
    | finished _ _ hw =>
      rw [hw t]
      split
      · exact (h.nodup t).erase _
      · exact h.nodup t
    | rests _ _ hw =>
      rw [hw t]
      split
      · unfold withWorking
        split
        · exact h.nodup t
        · next hnot =>
          refine List.nodup_append.2 ⟨h.nodup t, by simp, ?_⟩
          simp only [List.mem_singleton, ne_eq, forall_eq]
          rintro a ha rfl
          exact hnot ha
      · exact h.nodup t
  · intro t id hmem
    have hold : ∀ id, id ≠ o.orderId → id ∈ e.workingIds t →
        ∃ o₂, e'.orders.get? id = some o₂ ∧ o₂.tokenId = t ∧ o₂.IsResting := by
      intro id hne hmem
      obtain ⟨o₂, hg, ht, hrest⟩ := h.working hmem
      exact ⟨o₂, by rw [hget', if_neg (Ne.symm hne)]; exact hg, ht, hrest⟩
    cases he.ends with
    | finished _ _ hw =>
      rw [hw t] at hmem
      split at hmem
      · obtain ⟨hne, hmem⟩ := (List.Nodup.mem_erase_iff (h.nodup t)).1 hmem
        exact hold id hne hmem
      · next ht =>
        refine hold id ?_ hmem
        rintro rfl
        exact ht (h.isResting_of_mem hget hmem).2.symm
    | rests hrest _ hw =>
      by_cases hne : id = o.orderId
      · subst hne
        refine ⟨o', by rw [hget', if_pos rfl], ?_, hrest⟩
        rw [htok]
        rw [hw t] at hmem
        split at hmem
        · next ht => exact ht.symm
        · exact (h.isResting_of_mem hget hmem).2
      · rw [hw t] at hmem
        refine hold id hne ?_
        split at hmem
        · unfold withWorking at hmem
          split at hmem
          · exact hmem
          · rcases List.mem_append.1 hmem with hmem | hmem
            · exact hmem
            · exact absurd (List.mem_singleton.1 hmem) hne
        · exact hmem
  · intro t
    rw [hcount]
    cases he.ends with
    | finished hterm hc _ =>
      have hpos := Dict.share_le_total (m := e.orders) (liveOn_nonneg t) o.orderId
      rw [Dict.share_of_some hget, liveOn_of_live hlive, ← h.counted t] at hpos
      rw [hc, decrementActive_getD, liveOn_of_terminal hterm, ← h.counted t]
      by_cases ht : t = o.tokenId
      · simp only [ht, if_true] at hpos ⊢
        omega
      · simp only [ht, if_false] at hpos ⊢
        omega
    | rests hrest hc _ =>
      rw [hc, h.counted t, liveOn_of_live hrest.isTerminal, htok]
      ring

/-- Rewriting an order without a change of state keeps the indexes. -/
lemma touch (h : WellFormed e) (hget : e.orders.get? o.orderId = some o)
    (ht : Touch e o o' e') : WellFormed e' := by
  have hget' : ∀ id, e'.orders.get? id =
      if o.orderId = id then some o' else e.orders.get? id := by
    intro id
    rw [ht.orders, Dict.get?_set]
  have hterm : o'.isTerminal = o.isTerminal := congrArg OrderState.isTerminal ht.state
  have hworking : ∀ t, e'.workingIds t = e.workingIds t := by
    intro t
    rw [workingIds, ht.working]
    rfl
  constructor
  · intro id o₂ hg
    rw [hget'] at hg
    split at hg
    · next heq => cases hg; rw [ht.relabel.orderId, heq]
    · exact h.keyed hg
  · intro id o₂ hg
    rw [hget'] at hg
    split at hg
    · cases hg
      exact (h.booked hget).relabel ht.relabel
    · exact h.booked hg
  · intro id o₂ hg hstate
    rw [hget'] at hg
    split at hg
    · cases hg
      rw [ht.relabel.fills]
      exact h.fresh hget (ht.state.symm.trans hstate)
    · exact h.fresh hg hstate
  · intro t
    rw [hworking]
    exact h.nodup t
  · intro t id hmem
    rw [hworking] at hmem
    obtain ⟨o₂, hg, htok, hrest⟩ := h.working hmem
    by_cases hne : o.orderId = id
    · subst hne
      rw [hget] at hg
      cases hg
      refine ⟨o', by rw [hget', if_pos rfl], ht.relabel.tokenId.trans htok, ?_⟩
      rw [BacktestOrder.IsResting, ht.state]
      exact hrest
    · exact ⟨o₂, by rw [hget', if_neg hne]; exact hg, htok, hrest⟩
  · intro t
    have hlive : liveOn t o.orderId o' = liveOn t o.orderId o := by
      rw [liveOn, liveOn, hterm, ht.relabel.tokenId]
    rw [ht.count, h.counted t, ht.orders, Dict.total_set, Dict.share_of_some hget, hlive]
    ring

end WellFormed

end MatchingEngine

end Evosport.Backtest
