/-
Fill-or-kill orders.

`_handle_admit` asks one function how much there is within the limit, and another one walks the
book.  They agree on every residual book: the walk takes from the levels what the first one
counted, so a FOK order is either turned down and nothing changes, or filled in full.

Both functions accept a price that is beyond the limit by at most `1e-12`.
-/
import Evosport.Backtest.Advance
import Mathlib.Data.List.Forall2

namespace Evosport.Backtest

open Lib

/-- What is taken from one level of a book: its price, and a part of what remains there. -/
def TakenFrom (taken level : ℚ × ℚ) : Prop :=
  taken.1 = level.1 ∧ 0 < taken.2 ∧ taken.2 ≤ level.2

/-- The book after all of that was taken. -/
def ResidualBook.consumeAll (book : ResidualBook) (side : Side) (takes : List (ℚ × ℚ)) :
    ResidualBook :=
  takes.foldl (fun book t => book.consume side t.1 t.2) book

namespace MatchingEngine

variable {cfg : MatchingConfig} {e : MatchingEngine} {o : BacktestOrder} {book : ResidualBook}

/-- A walk takes from levels of the ladder, in their order and from each of them at most what
remains there, as long as they are within the limit. -/
structure Took (side : Side) (limit : ℚ) (levels takes : List (ℚ × ℚ)) (book : ResidualBook)
    (fills : List Fill) (book' : ResidualBook) : Prop where
  levels : List.SublistForall₂ TakenFrom takes levels
  within : ∀ t ∈ takes, beyondLimit side limit t.1 = false
  sizes : fills.map Fill.size = takes.map Prod.snd
  book : book' = book.consumeAll side takes

lemma Took.none {side : Side} {limit : ℚ} (levels : List (ℚ × ℚ)) (book : ResidualBook) :
    Took side limit levels [] book [] book :=
  ⟨.nil, by simp, rfl, rfl⟩

lemma Took.skip {side : Side} {limit : ℚ} {l : ℚ × ℚ} {levels takes : List (ℚ × ℚ)}
    {book book' : ResidualBook} {fills : List Fill}
    (h : Took side limit levels takes book fills book') :
    Took side limit (l :: levels) takes book fills book' :=
  ⟨.cons_right h.levels, h.within, h.sizes, h.book⟩

lemma consumeLoop_took (impactFactor : ℚ) (occurredAt : Time) (levels : List (ℚ × ℚ))
    (o : BacktestOrder) (book : ResidualBook) (remaining : ℚ) :
    ∃ takes, Took o.side o.price levels takes book
      (consumeLoop cfg impactFactor occurredAt levels o book remaining).fills
      (consumeLoop cfg impactFactor occurredAt levels o book remaining).book := by
  induction levels generalizing o book remaining with
  | nil => exact ⟨[], .none [] book⟩
  | cons l levels ih =>
    obtain ⟨price, qty⟩ := l
    unfold consumeLoop
    split
    · exact ⟨[], .none _ book⟩
    split
    · obtain ⟨takes, h⟩ := ih o book remaining
      exact ⟨takes, h.skip⟩
    split
    · exact ⟨[], .none _ book⟩
    · next hmore hqty hreach =>
      have hpos : 0 < min qty remaining := lt_min (not_le.1 hqty) (not_le.1 hmore)
      obtain ⟨takes, h⟩ := ih (o.recordFill (takerFill cfg book.snapshot impactFactor occurredAt o
        price (min qty remaining))) (book.consume o.side price (min qty remaining))
        (remaining - min qty remaining)
      refine ⟨(price, min qty remaining) :: takes, .cons ⟨rfl, hpos, min_le_left _ _⟩ h.levels,
        ?_, ?_, h.book⟩
      · intro t ht
        rcases List.mem_cons.1 ht with rfl | ht
        · simpa using hreach
        · exact h.within t ht
      · rw [List.map_cons, List.map_cons, h.sizes]
        rfl

variable (cfg) in
lemma consumeLevels_took (now : Option Time) (o : BacktestOrder) (book : ResidualBook) :
    ∃ takes, Took o.side o.price (book.remaining o.side) takes book
      (consumeLevels cfg now o book).fills (consumeLevels cfg now o book).book := by
  unfold consumeLevels
  by_cases hrem : o.remainingSize ≤ 0
  · simp only [hrem, if_true]
    exact ⟨[], .none _ book⟩
  · simp only [hrem, if_false]
    exact consumeLoop_took _ _ _ _ _ _

/-! ## The two outcomes -/

/-- A FOK order that waits for its admission, as `submit` lets it in: live, not post-only, nothing
of it filled, and of a positive size. -/
structure FillOrKill (o : BacktestOrder) : Prop where
  tif : o.tif = .fok
  live : o.isTerminal = false
  postOnly : o.postOnly = false
  unfilled : o.filledSize = 0
  size : 0 < o.size

/-- What the Polymarket venue accepts. -/
lemma accepted_spec {side : Side} {price size : ℚ} {tif : Tif} {postOnly : Bool}
    (h : (PolymarketVenue.validateSubmit side price size tif postOnly).ok = true) :
    (postOnly && tif.isTaker) = false ∧ 0 < size ∧
      (PolymarketVenue.validateSubmit side price size tif postOnly).adjustedSize = none := by
  simp only [PolymarketVenue.validateSubmit] at h ⊢
  by_cases hpost : (postOnly && tif.isTaker) = true
  · simp [hpost] at h
  by_cases hsize : size ≤ 0
  · simp [hpost, hsize] at h
  refine ⟨by simpa using hpost, not_le.1 hsize, ?_⟩
  rw [if_neg hpost, if_neg hsize]
  by_cases hprice : price ≤ 0
  · rw [if_pos hprice]
  by_cases hsmall : PolymarketVenue.roundPrice price side * size + e9 <
      PolymarketVenue.rules.minNotionalUsd
  · rw [if_neg hprice, if_pos hsmall]
  · rw [if_neg hprice, if_neg hsmall]

/-- A FOK order that the Polymarket venue lets in is as `FillOrKill` says. -/
lemma fillOrKill_of_submit {o' : BacktestOrder} {e' : MatchingEngine}
    (hvenue : cfg.venue = polymarketVenue) (hfresh : Fresh o) (htif : o.tif = .fok)
    (h : e.submit cfg o = .ok e') (hget : e'.orders.get? o.orderId = some o')
    (hstate : o'.state = .pending) : FillOrKill o' := by
  unfold submit at h
  split at h
  · cases h
  simp only at h
  split at h
  · cases h
    simp only [putOrder, Dict.get?_set_self, Option.some.injEq] at hget
    rw [← hget] at hstate
    cases hstate
  · next hok =>
    cases h
    simp only [putOrder, Dict.get?_set_self, Option.some.injEq] at hget
    subst hget
    rw [hvenue, Bool.not_eq_true', Bool.not_eq_false] at hok
    obtain ⟨hpost, hsize, hadjusted⟩ := accepted_spec hok
    rw [htif, Tif.isTaker, Bool.and_true] at hpost
    refine ⟨htif, rfl, hpost, hfresh.filledSize, ?_⟩
    show 0 < (cfg.venue.validateSubmit o.side o.price o.size o.tif o.postOnly).adjustedSize.getD _
    rw [hvenue]
    show 0 < (PolymarketVenue.validateSubmit _ _ _ _ _).adjustedSize.getD _
    rw [hadjusted]
    exact hsize

/-- The order is turned down, and nothing else changes: nothing of it is filled, the books keep
their liquidity, and the ledger has no fill of it. -/
structure Killed (e : MatchingEngine) (o : BacktestOrder) (r : MatchingEngine × List Fill) :
    Prop where
  state : (r.1.orders.get? o.orderId).map BacktestOrder.state = some .rejected
  filledSize : (r.1.orders.get? o.orderId).map BacktestOrder.filledSize = some o.filledSize
  recorded : (r.1.orders.get? o.orderId).map BacktestOrder.fills = some o.fills
  books : r.1.books = e.books
  fills : r.2 = []
  ledger : r.1.allFills = e.allFills

/-- The order is filled in full, up to the tolerance of the matcher, by what it takes from levels of
the book within its limit. -/
structure FilledWhole (e : MatchingEngine) (o : BacktestOrder) (book : ResidualBook)
    (r : MatchingEngine × List Fill) : Prop where
  state : (r.1.orders.get? o.orderId).map BacktestOrder.state = some .filled
  filledSize : (r.1.orders.get? o.orderId).map BacktestOrder.filledSize = some (totalSize r.2)
  size : |totalSize r.2 - o.size| ≤ e12
  took : ∃ takes book', r.1.books = e.books.set o.tokenId book' ∧
    Took o.side o.price (book.remaining o.side) takes book r.2 book'

/-- The size that remains on the ladder within the limit of the order. -/
def sizeWithinLimit (o : BacktestOrder) (book : ResidualBook) : ℚ :=
  visibleDepth o.side o.price (book.remaining o.side)

lemma killed_of_reject (reason : RejectReason) :
    Killed e o (e.finish { o with rejectReason := some reason, state := .rejected }, []) := by
  constructor <;> simp [finish, decrementActive, putOrder]

/-- What fits is filled: the walk finds what was counted. -/
lemma filledWhole_of_fits (ho : FillOrKill o) (r : MatchResult)
    (hr : r = consumeLevels cfg e.now o book) (hfit : o.size ≤ sizeWithinLimit o book + e12) :
    FilledWhole e o book
      ((e.writeBack r.order r.book).finish { r.order with state := .filled }, r.fills) := by
  have hwalk : Walk o r.fills r.order := by
    rw [hr]
    exact consumeLevels_walk cfg e.now o book
  have htotal : totalSize r.fills = min o.size (sizeWithinLimit o book) := by
    rw [hr, consumeLevels_total, availableForTaker_eq, BacktestOrder.remainingSize, ho.unfilled,
      sub_zero, max_eq_right ho.size.le]
    rfl
  have hfilled : r.order.filledSize = totalSize r.fills := by
    rw [hwalk.filledSize_eq, ho.unfilled, zero_add]
  obtain ⟨takes, htook⟩ := consumeLevels_took cfg e.now o book
  rw [← hr] at htook
  refine ⟨?_, ?_, ?_, takes, r.book, ?_, htook⟩
  · simp [finish, decrementActive, putOrder, writeBack, hwalk.orderId_eq]
  · simp [finish, decrementActive, putOrder, writeBack, hwalk.orderId_eq, hfilled]
  · rw [htotal, abs_le]
    have hpos := e12_pos
    rcases min_cases o.size (sizeWithinLimit o book) with ⟨heq, -⟩ | ⟨heq, hlt⟩ <;>
      rw [heq] <;> constructor <;> linarith
  · simp [finish, decrementActive, putOrder, writeBack, hwalk.tokenId_eq]

/-- **A FOK order is filled in full or not at all.**  On every residual book its admission either
turns it down, which changes neither the book nor the ledger nor its filled size, or fills it: the
fills add up to its size within `1e-12`, each is taken from a level of its own within the limit
and from no more than remains there, and the book records just that.  It is turned down exactly
when what remains within the limit falls short of its size by more than `1e-12`. -/
theorem fok_allOrNothing (cfg : MatchingConfig) (e : MatchingEngine) (o : BacktestOrder)
    (book : ResidualBook) (hbook : e.books.get? o.tokenId = some book) (ho : FillOrKill o) :
    (Killed e o (e.handleAdmit cfg o) ∨ FilledWhole e o book (e.handleAdmit cfg o)) ∧
      (Killed e o (e.handleAdmit cfg o) ↔ sizeWithinLimit o book + e12 < o.size) := by
  have havail : availableForTaker book o.side o.price = sizeWithinLimit o book :=
    availableForTaker_eq book o.side o.price
  have hcase : Admission cfg e o book (e.handleAdmit cfg o).1 (e.handleAdmit cfg o).2 :=
    handleAdmit_cases ho.live hbook
  generalize e.handleAdmit cfg o = r at hcase ⊢
  obtain ⟨e', fs⟩ := r
  cases hcase with
  | crossed hpost => simp [postOnlyCrosses, ho.postOnly] at hpost
  | insufficient _ hless =>
    rw [havail] at hless
    exact ⟨.inl (killed_of_reject _), fun _ => hless, fun _ => killed_of_reject _⟩
  | killedOrFilled _ _ hfit r hr =>
    rw [havail] at hfit
    have hfilled := filledWhole_of_fits ho r hr hfit
    refine ⟨.inr hfilled, fun hkilled => ?_, fun hless => absurd hfit (not_le.2 hless)⟩
    have hstate := hkilled.state.symm.trans hfilled.state
    cases hstate
  | filled _ htif => exact absurd ho.tif htif
  | cut _ htif => exact absurd ho.tif htif
  | restedRemainder _ htif => exact absurd ho.tif htif
  | expired htif => exact absurd ho.tif htif
  | rested htif => exact absurd ho.tif htif

/-- A FOK bid for ten shares at one half. -/
def fokBid : BacktestOrder :=
  { BacktestOrder.limit "bid" "t" .buy (1 / 2) 10 0 with tif := .fok }

/-- An engine that has seen one offer. -/
def offered (ask : PriceLevel) : MatchingEngine :=
  { books := Dict.empty.set "t" { snapshot := .offer "t" 1000 ask } }

lemma fillOrKill_fokBid : FillOrKill fokBid := ⟨rfl, rfl, rfl, rfl, by norm_num [fokBid,
  BacktestOrder.limit]⟩

/-- Nine shares on offer do not do for ten. -/
theorem nineOffered_killed :
    Killed (offered ⟨1 / 2, 9⟩) fokBid ((offered ⟨1 / 2, 9⟩).handleAdmit (.plain 1) fokBid) := by
  have h := fok_allOrNothing (.plain 1) (offered ⟨1 / 2, 9⟩) fokBid
    { snapshot := .offer "t" 1000 ⟨1 / 2, 9⟩ } rfl fillOrKill_fokBid
  exact h.2.2 (by decide +kernel)

/-- A level beyond the limit by half the tolerance counts as within it: nothing remains at the
limit or below, and still the order is filled, from a level beyond it. -/
theorem beyondLimit_filled :
    let ask : PriceLevel := ⟨1 / 2 + e12 / 2, 10⟩
    let book : ResidualBook := { snapshot := .offer "t" 1000 ask }
    let r := (offered ask).handleAdmit (.plain 1) fokBid
    (((book.remaining .buy).filter fun l => decide (l.1 ≤ fokBid.price)).map Prod.snd).sum + e12 <
        fokBid.size ∧
      (r.1.orders.get? "bid").map BacktestOrder.state = some .filled ∧
      r.2.map Fill.size = [10] ∧ fokBid.price < ask.price ∧ r.2.map Fill.price = [ask.price] := by
  decide +kernel

end MatchingEngine

end Evosport.Backtest
