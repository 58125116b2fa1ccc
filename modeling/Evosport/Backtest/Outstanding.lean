/-
What the live orders may still fill.

`outstanding w e` adds up the shares that the live orders of an engine still ask for, an order
weighed by a part `w` of it that nothing changes.  Whatever an advance fills is taken from it
(`filledWeight_advance`): weighed by the side of the orders this bounds the shares that are sold,
weighed by their limits it bounds what is spent.  A fill costs no more than its limit when the
market impact is off and no taker reaches beyond its limit (`advance_priced`).
-/
import Mathlib.Algebra.BigOperators.Ring.List
import Evosport.Backtest.LimitPrice

namespace Evosport.Backtest

open Lib

namespace MatchingEngine

variable {cfg : MatchingConfig} {snap : BookSnapshot} {e e' : MatchingEngine}
  {o o' : BacktestOrder} {book : ResidualBook} {fs fs' : List Fill} {w : BacktestOrder → ℚ}

/-! ## Weighed shares -/

/-- The weighed shares that an order still asks for, none when it is terminal. -/
def openWeight (w : BacktestOrder → ℚ) (o : BacktestOrder) : ℚ :=
  if o.isTerminal then 0 else o.remainingSize * w o

/-- The weighed shares that the live orders still ask for. -/
def outstanding (w : BacktestOrder → ℚ) (e : MatchingEngine) : ℚ :=
  e.orders.total fun _ o => openWeight w o

/-- The shares of the fills, each weighed as its order on record. -/
def filledWeight (w : BacktestOrder → ℚ) (e : MatchingEngine) (fs : List Fill) : ℚ :=
  (fs.map fun f => f.size * (recordOf w e f.orderId).getD 0).sum

lemma filledWeight_append (w : BacktestOrder → ℚ) (e : MatchingEngine) (fs gs : List Fill) :
    filledWeight w e (fs ++ gs) = filledWeight w e fs + filledWeight w e gs := by
  simp [filledWeight]

lemma openWeight_nonneg (hw : ∀ o, 0 ≤ w o) (o : BacktestOrder) : 0 ≤ openWeight w o := by
  unfold openWeight
  split
  · exact le_refl 0
  · exact mul_nonneg (le_max_left _ _) (hw o)

lemma outstanding_nonneg (hw : ∀ o, 0 ≤ w o) (e : MatchingEngine) : 0 ≤ outstanding w e :=
  Dict.total_nonneg fun _ o => openWeight_nonneg hw o

lemma outstanding_set (hget : e.orders.get? o.orderId = some o)
    (horders : e'.orders = e.orders.set o.orderId o') :
    outstanding w e' = outstanding w e - openWeight w o + openWeight w o' := by
  rw [outstanding, horders, Dict.total_set, Dict.share_of_some hget]
  rfl

/-- A new order adds what it asks for. -/
lemma Submitted.outstanding_eq {order : BacktestOrder} (hs : Submitted cfg e order o' e') :
    outstanding w e' = outstanding w e + openWeight w o' := by
  rw [outstanding, hs.orders, Dict.total_set, Dict.share_of_none hs.new, sub_zero]
  rfl

/-- What an order fills it no longer asks for. -/
lemma filledWeight_effect (hk : Kept w) (hw : ∀ o, 0 ≤ w o) (hbooked : o.Booked)
    (hlive : o.isTerminal = false) (hrecord : recordOf w e o.orderId = some (w o))
    (hwalk : ∃ o₁, Walk o fs o₁ ∧ o₁.Relabel o') :
    filledWeight w e fs + openWeight w o' ≤ openWeight w o := by
  obtain ⟨o₁, hwalk, hr⟩ := hwalk
  have hfilled : filledWeight w e fs = totalSize fs * w o := by
    rw [filledWeight, totalSize, ← List.sum_map_mul_right]
    refine congrArg List.sum (List.map_congr_left fun f hf => ?_)
    rw [(hwalk.own hf).1, hrecord]
    rfl
  have hremaining : o'.remainingSize = o.remainingSize - totalSize fs := by
    rw [BacktestOrder.remainingSize_relabel hr, (hwalk.booked hbooked).remainingSize_eq,
      hbooked.remainingSize_eq, hwalk.size_eq, hwalk.filledSize_eq]
    ring
  have hweight : w o' = w o := (hk.relabel hr).trans (hk.walk hwalk)
  have hafter : openWeight w o' ≤ o'.remainingSize * w o := by
    unfold openWeight
    split
    · exact mul_nonneg (le_max_left _ _) (hw o)
    · rw [hweight]
  have hbefore : openWeight w o = o.remainingSize * w o := by
    rw [openWeight, hlive]
    rfl
  rw [hremaining] at hafter
  rw [hfilled, hbefore]
  linarith

/-- Of what the orders of `e₀` asked for, the fills made so far and what is still asked for are a
part. -/
structure TakenFrom (w : BacktestOrder → ℚ) (e₀ e : MatchingEngine) (fs : List Fill) : Prop where
  records : recordOf w e = recordOf w e₀
  taken : filledWeight w e₀ fs + outstanding w e ≤ outstanding w e₀

variable {e₀ : MatchingEngine}

lemma TakenFrom.effect (hk : Kept w) (hw : ∀ o, 0 ≤ w o) (hwf : WellFormed e)
    (h : TakenFrom w e₀ e fs) (hget : e.orders.get? o.orderId = some o)
    (hlive : o.isTerminal = false) (heff : Effect e o fs' o' e') :
    TakenFrom w e₀ e' (fs ++ fs') := by
  have hrecord : recordOf w e₀ o.orderId = some (w o) := by
    rw [← h.records, recordOf, hget, Option.map_some]
  have hown := filledWeight_effect hk hw (hwf.booked hget) hlive hrecord heff.walk
  have htaken := h.taken
  refine ⟨(hk.effect hget heff).trans h.records, ?_⟩
  rw [filledWeight_append, outstanding_set hget heff.orders]
  linarith

/-- Before the first fill of an interval, cancels only lower what is asked for. -/
lemma TakenFrom.interim (hk : Kept w) (hw : ∀ o, 0 ≤ w o) (e₀ : MatchingEngine) :
    Interim fun e => TakenFrom w e₀ e [] where
  sameOrders {e e'} h hs := by
    have hrecords : recordOf w e' = recordOf w e := by
      funext id
      rw [recordOf, hs.orders]
      rfl
    refine ⟨hrecords.trans h.records, ?_⟩
    rw [outstanding, hs.orders]
    exact h.taken
  cancelled hwf h hget hlive heff _ := h.effect hk hw hwf hget hlive heff
  touched {e o o' e'} hwf h hget hlive ht := by
    refine ⟨(hk.touch hget ht).trans h.records, ?_⟩
    have hrecord : recordOf w e₀ o.orderId = some (w o) := by
      rw [← h.records, recordOf, hget, Option.map_some]
    have hown := filledWeight_effect hk hw (hwf.booked hget) hlive hrecord
      ⟨o, Walk.done o, ht.relabel⟩
    have htaken := h.taken
    simp only [filledWeight, List.map_nil, List.sum_nil] at hown htaken ⊢
    rw [outstanding_set hget ht.orders]
    linarith

variable (cfg) in
/-- An advance fills only what was asked for, and the rest is what is still asked for. -/
lemma filledWeight_advance (hk : Kept w) (hw : ∀ o, 0 ≤ w o) (hwf : WellFormed e)
    (snap : BookSnapshot) :
    filledWeight w e (advance cfg snap e).2 + outstanding w (advance cfg snap e).1 ≤
      outstanding w e := by
  have hstart : TakenFrom w e e [] := ⟨rfl, by simp [filledWeight]⟩
  obtain ⟨e₁, -, h, heq⟩ := advance_effects cfg (J := TakenFrom w e) hwf snap
    (openInterval_induct cfg (TakenFrom.interim hk hw e) snap hwf hstart).2
    (fun hi hJ hget _ hlive heff => hJ.effect hk hw hi.wellFormed hget hlive heff)
  rw [heq]
  exact h.taken

/-! ## Whose fills they are -/

/-- The terms of an order: its side, token, strategy and limit. -/
def terms (o : BacktestOrder) : Side × TokenId × Option Slug × ℚ :=
  (o.side, o.tokenId, o.strategySlug, o.price)

lemma kept_terms : Kept terms where
  walk hwalk := by
    obtain ⟨_, _, rfl⟩ := hwalk.frame
    rfl
  relabel hr := by
    unfold terms
    rw [hr.side, hr.tokenId, hr.strategySlug, hr.price]

/-- What is read off the terms is kept as well. -/
lemma kept_of_terms {α : Type*} (g : Side × TokenId × Option Slug × ℚ → α) :
    Kept fun o => g (terms o) where
  walk hwalk := congrArg g (kept_terms.walk hwalk)
  relabel hr := congrArg g (kept_terms.relabel hr)

/-- The live orders of `e` were live in `e₀`, on the same terms. -/
def LiveFrom (e₀ e : MatchingEngine) : Prop :=
  ∀ id o, e.orders.get? id = some o → o.isTerminal = false →
    ∃ o₀, e₀.orders.get? id = some o₀ ∧ o₀.isTerminal = false ∧ terms o = terms o₀

/-- A live order that is rewritten on its terms is still one of `e₀`. -/
lemma LiveFrom.rewrite (h : LiveFrom e₀ e) (hget : e.orders.get? o.orderId = some o)
    (hlive : o.isTerminal = false) (horders : e'.orders = e.orders.set o.orderId o')
    (hterms : terms o' = terms o) : LiveFrom e₀ e' := by
  intro id o₁ hget₁ hlive₁
  rw [horders, Dict.get?_set] at hget₁
  split at hget₁
  · next hid =>
    cases hget₁
    obtain ⟨o₀, hget₀, hlive₀, hterms₀⟩ := h o.orderId o hget hlive
    exact ⟨o₀, by rw [← hid]; exact hget₀, hlive₀, hterms.trans hterms₀⟩
  · exact h id o₁ hget₁ hlive₁

lemma LiveFrom.effect (h : LiveFrom e₀ e) (hget : e.orders.get? o.orderId = some o)
    (hlive : o.isTerminal = false) (heff : Effect e o fs o' e') : LiveFrom e₀ e' := by
  obtain ⟨o₁, hwalk, hr⟩ := heff.walk
  exact h.rewrite hget hlive heff.orders
    ((kept_terms.relabel hr).trans (kept_terms.walk hwalk))

lemma LiveFrom.interim (e₀ : MatchingEngine) : Interim (LiveFrom e₀) where
  sameOrders h hs id o hget := h id o (by rw [← hs.orders]; exact hget)
  cancelled _ h hget hlive heff _ := h.effect hget hlive heff
  touched _ h hget hlive ht := h.rewrite hget hlive ht.orders (kept_terms.relabel ht.relabel)

/-- The fill is one of an order that is live in `e`, on its side and token. -/
def FillOf (e : MatchingEngine) (f : Fill) : Prop :=
  ∃ o, e.orders.get? f.orderId = some o ∧ o.isTerminal = false ∧ o.side = f.side ∧
    o.tokenId = f.tokenId

lemma LiveFrom.fillOf (h : LiveFrom e₀ e) (hget : e.orders.get? o.orderId = some o)
    (hlive : o.isTerminal = false) (heff : Effect e o fs o' e') : ∀ f ∈ fs, FillOf e₀ f := by
  intro f hf
  obtain ⟨o₁, hwalk, -⟩ := heff.walk
  obtain ⟨hid, htoken, hside, -⟩ := hwalk.own hf
  obtain ⟨o₀, hget₀, hlive₀, hterms⟩ := h o.orderId o hget hlive
  refine ⟨o₀, by rw [hid]; exact hget₀, hlive₀, ?_, ?_⟩
  · rw [hside]
    exact (congrArg Prod.fst hterms).symm
  · rw [htoken]
    exact (congrArg (fun t => t.2.1) hterms).symm

variable (cfg) in
/-- An advance fills live orders, and the orders it leaves live were live before. -/
lemma advance_liveFrom (hwf : WellFormed e) (snap : BookSnapshot) :
    LiveFrom e (advance cfg snap e).1 ∧ ∀ f ∈ (advance cfg snap e).2, FillOf e f := by
  have hstart : LiveFrom e e := fun id o hget hlive => ⟨o, hget, hlive, rfl⟩
  obtain ⟨e₁, -, h, heq⟩ := advance_effects cfg
    (J := fun e₁ fs => LiveFrom e e₁ ∧ ∀ f ∈ fs, FillOf e f) hwf snap
    ⟨(openInterval_induct cfg (LiveFrom.interim e) snap hwf hstart).2, by simp⟩
    (fun {e₁ o o' e' fs fs'} _ hJ hget _ hlive heff => by
      refine ⟨hJ.1.effect hget hlive heff, fun f hf => ?_⟩
      rcases List.mem_append.1 hf with hf | hf
      · exact hJ.2 f hf
      · exact hJ.1.fillOf hget hlive heff f hf)
  rw [heq]
  exact h

/-! ## What they cost -/

/-- The fill is at the limit of a live order of `e` or better, and not below zero. -/
def PricedWithin (e : MatchingEngine) (f : Fill) : Prop :=
  ∃ o, e.orders.get? f.orderId = some o ∧ Within o.side o.price f.price ∧ 0 ≤ f.price

/-- Without impact, a taker that reaches nothing beyond its limit pays the prices of levels
within it. -/
lemma consumeLevels_priced (himpact : cfg.impact.strengthBps ≤ 0) (now : Option Time)
    (hlevels : ∀ x ∈ book.remaining o.side, 0 ≤ x.1)
    (hexact : ∀ x ∈ book.remaining o.side, 0 < x.2 → beyondLimit o.side o.price x.1 = false →
      Within o.side o.price x.1) :
    ∀ f ∈ (consumeLevels cfg now o book).fills, Within o.side o.price f.price ∧ 0 ≤ f.price := by
  unfold consumeLevels
  by_cases hrem : o.remainingSize ≤ 0
  · simp [hrem]
  have hzero : cfg.impact.adverseBps o.remainingSize
      (visibleDepth o.side o.price (book.remaining o.side)) / 10000 = 0 := by
    rw [ImpactModel.adverseBps, if_pos himpact, zero_div]
  simp only [hrem, if_false, hzero]
  refine (consumeLoop_price_iff (P := fun p => Within o.side o.price p ∧ 0 ≤ p) 0 _ o book
    (reachSorted_remaining book o.side o.price)).2 fun k _ x hx htake => ?_
  have hmem : x ∈ book.remaining o.side := List.mem_of_getElem? hx
  have hprice : markedPrice o.side 0 x.1 = x.1 := if_neg (lt_irrefl 0)
  rw [hprice]
  exact ⟨hexact x hmem htake.1 htake.2.1, hlevels x hmem⟩

/-- The levels that an advance meets are those of its snapshot. -/
lemma remainingPrices_nonneg (hsnap : book.snapshot = snap)
    (hlevels : ∀ l ∈ snap.bids ++ snap.asks, 0 ≤ l.price) (side : Side) :
    ∀ x ∈ book.remaining side, 0 ≤ x.1 := by
  intro x hx
  obtain ⟨l, hl, rfl⟩ := List.mem_map.1 hx
  rw [hsnap] at hl
  cases side with
  | buy => exact hlevels l (List.mem_append_right _ hl)
  | sell => exact hlevels l (List.mem_append_left _ hl)

/-- Without impact and with no taker that reaches beyond its limit, an advance fills at the
limits or better. -/
lemma advance_priced (hwf : WellFormed e) (himpact : cfg.impact.strengthBps ≤ 0)
    (hexact : EveryAdmission cfg snap (AdmitExact cfg snap) (openInterval cfg snap e))
    (hlevels : ∀ l ∈ snap.bids ++ snap.asks, 0 ≤ l.price)
    (hlimits : ∀ id o, e.orders.get? id = some o → o.isTerminal = false → 0 ≤ o.price) :
    ∀ f ∈ (advance cfg snap e).2, PricedWithin e f := by
  -- a fill of a live order at a price within its limit
  have hpriced : ∀ {e₁ : MatchingEngine} {o : BacktestOrder} {f : Fill}, LiveFrom e e₁ →
      e₁.orders.get? o.orderId = some o → o.isTerminal = false → f.orderId = o.orderId →
      Within o.side o.price f.price ∧ 0 ≤ f.price → PricedWithin e f := by
    intro e₁ o f hfrom hget hlive hid hprice
    obtain ⟨o₀, hget₀, -, hterms⟩ := hfrom o.orderId o hget hlive
    refine ⟨o₀, by rw [hid]; exact hget₀, ?_, hprice.2⟩
    have hside : o.side = o₀.side := congrArg Prod.fst hterms
    have hlimit : o.price = o₀.price := congrArg (fun t => t.2.2.2) hterms
    rw [← hside, ← hlimit]
    exact hprice.1
  have hopen := openInterval_induct cfg (LiveFrom.interim e) snap hwf
    fun id o hget hlive => ⟨o, hget, hlive, rfl⟩
  obtain ⟨e₁, -, h, -⟩ := advance_induct cfg snap (A := AdmitExact cfg snap)
    (M := fun _ _ => True) (J := fun e₁ fs => LiveFrom e e₁ ∧ ∀ f ∈ fs, PricedWithin e f) hwf
    (fun _ => ⟨hopen.2, by simp⟩)
    (fun {e₁ o book e' fs fs'} hi hJ hadm hcase hA => by
      obtain ⟨o', heff⟩ := hadm.effect hi hcase
      refine ⟨hJ.1.effect hadm.order hadm.isTerminal heff, fun f hf => ?_⟩
      rcases List.mem_append.1 hf with hf | hf
      · exact hJ.2 f hf
      rcases hcase.fills with ⟨htakes, hfs, -⟩ | ⟨-, hnil⟩
      · rw [hfs] at hf
        exact hpriced hJ.1 hadm.order hadm.isTerminal
          ((consumeLevels_walk cfg e₁.now o book).own hf).1
          (consumeLevels_priced himpact e₁.now (remainingPrices_nonneg hadm.snapshot hlevels o.side)
            (hA o hadm.order hadm.due book hadm.bookOf htakes) f hf)
      · rw [hnil] at hf
        cases hf)
    (fun {e₁ o book e' fs fs'} hi hJ hm hcase _ => by
      have hlive := hm.resting.isTerminal
      rcases hm.effect hcase with ⟨rfl, rfl⟩ | ⟨o', heff⟩
      · rw [List.append_nil]
        exact hJ
      refine ⟨hJ.1.effect hm.order hlive heff, fun f hf => ?_⟩
      rcases List.mem_append.1 hf with hf | hf
      · exact hJ.2 f hf
      rcases hcase.books with ⟨-, hfs⟩ | ⟨-, hpos, -, hfs⟩
      · rw [hfs] at hf
        cases hf
      -- a resting order is filled at its own limit
      rw [hfs] at hf
      have hown := (restLoop_walk_of_pos cfg hpos book.snapshot (book.remaining o.side) book).own hf
      have hprice := restLoop_price book.snapshot (book.remaining o.side) o book _ f hf
      obtain ⟨o₀, hget₀, hlive₀, hterms⟩ := hJ.1 o.orderId o hm.order hlive
      have hlimit : o.price = o₀.price := congrArg (fun t => t.2.2.2) hterms
      refine hpriced hJ.1 hm.order hlive hown.1 ?_
      rw [hprice]
      exact ⟨.refl _ _, by rw [hlimit]; exact hlimits o.orderId o₀ hget₀ hlive₀⟩)
    ⟨hexact, .of_forall fun _ _ => trivial⟩
  exact h.2

end MatchingEngine

end Evosport.Backtest
