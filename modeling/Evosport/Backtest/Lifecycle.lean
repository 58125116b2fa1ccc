/-
The lifecycle of an order in the matching engine.

In every state that a sequence of calls reaches, the books of every order are consistent
with the ledger and a terminal order stays as it is; no condition is needed for either
(`Booked`, `Frozen`).  The label of a resting order is only set on its admission, so the
lifecycle table of the module (WORKING has filled nothing, PARTIAL some but not all) holds
as long as no step mislabels an order (`WellLabelled`): a marketable order that comes to
rest has found something to take, and a WORKING order that is filled while it rests is
completed.
-/
import Evosport.Backtest.Advance

namespace Evosport.Backtest

open Lib

/-- The lifecycle table, for the labels of resting orders. -/
structure BacktestOrder.Labelled (o : BacktestOrder) : Prop where
  working : o.state = .working → o.filledSize = 0
  partiallyFilled : o.state = .partiallyFilled → 0 < o.filledSize ∧ o.filledSize < o.size

/-- What the lifecycle promises of one order, given the fills of the ledger. -/
structure BacktestOrder.LifecycleOk (ledger : List Fill) (o : BacktestOrder) : Prop where
  filled : o.filledSize = totalSize o.fills
  le : o.filledSize ≤ o.size
  avg : o.avgFillPrice * o.filledSize = totalNotional o.fills
  ledger : ledger.filter (fun f => f.orderId = o.orderId) = o.fills
  index : o.fills.map Fill.fillIndex = List.range o.fills.length
  done : o.state = .filled → o.remainingSize ≤ e12
  working : o.IsResting → (o.state = .working ↔ o.filledSize = 0)
  partiallyFilled : o.IsResting →
    (o.state = .partiallyFilled ↔ 0 < o.filledSize ∧ o.filledSize < o.size)

namespace BacktestOrder.Labelled

variable {o o' : BacktestOrder}

lemma of_terminal (h : o.isTerminal = true) : o.Labelled := by
  constructor <;> intro hs <;> rw [BacktestOrder.isTerminal, hs] at h <;> cases h

lemma relabel (h : o.Labelled) (hr : o.Relabel o') (hs : o'.state = o.state) : o'.Labelled := by
  constructor
  · intro hw
    rw [hr.filledSize]
    exact h.working (hs.symm.trans hw)
  · intro hp
    rw [hr.filledSize, hr.size]
    exact h.partiallyFilled (hs.symm.trans hp)

/-- The two labels of a resting order exclude each other. -/
lemma working_iff (h : o.Labelled) (hrest : o.IsResting) :
    o.state = .working ↔ o.filledSize = 0 := by
  refine ⟨h.working, fun hzero => ?_⟩
  rcases hrest with hs | hs
  · exact hs
  · exact absurd hzero (h.partiallyFilled hs).1.ne'

lemma partiallyFilled_iff (h : o.Labelled) (hrest : o.IsResting) :
    o.state = .partiallyFilled ↔ 0 < o.filledSize ∧ o.filledSize < o.size := by
  refine ⟨h.partiallyFilled, fun hfilled => ?_⟩
  rcases hrest with hs | hs
  · exact absurd (h.working hs) hfilled.1.ne'
  · exact hs

end BacktestOrder.Labelled

namespace MatchingEngine

variable {cfg : MatchingConfig} {snap : BookSnapshot} {e e' : MatchingEngine}
  {o o' : BacktestOrder} {book : ResidualBook} {fs fs' : List Fill}

/-! ## A terminal order stays as it is -/

/-- The order `o` is on record, and none of the fills `fs` is its own. -/
structure Frozen (o : BacktestOrder) (e : MatchingEngine) (fs : List Fill) : Prop where
  order : e.orders.get? o.orderId = some o
  quiet : ∀ f ∈ fs, f.orderId ≠ o.orderId

/-- A live order on record is not the frozen one. -/
lemma Frozen.ne {o₁ : BacktestOrder} (h : Frozen o e fs) (hterm : o.isTerminal = true)
    (hget : e.orders.get? o₁.orderId = some o₁) (hlive : o₁.isTerminal = false) :
    o₁.orderId ≠ o.orderId := by
  intro hid
  rw [hid, h.order] at hget
  cases hget
  rw [hterm] at hlive
  cases hlive

lemma Frozen.effect {o₁ : BacktestOrder} (h : Frozen o e fs) (hterm : o.isTerminal = true)
    (hget : e.orders.get? o₁.orderId = some o₁) (hlive : o₁.isTerminal = false)
    (he : Effect e o₁ fs' o' e') : Frozen o e' (fs ++ fs') := by
  have hne := h.ne hterm hget hlive
  obtain ⟨o₂, hwalk, -⟩ := he.walk
  constructor
  · rw [he.orders, Dict.get?_set_of_ne _ _ hne]
    exact h.order
  · intro f hf
    rcases List.mem_append.1 hf with hf | hf
    · exact h.quiet f hf
    · rw [(hwalk.own hf).1]
      exact hne

lemma Frozen.interim (hterm : o.isTerminal = true) : Interim fun e => Frozen o e [] where
  sameOrders h hs := ⟨hs.orders ▸ h.order, by simp⟩
  cancelled _ h hget hlive he _ := by simpa using h.effect hterm hget hlive he
  touched _ h hget hlive ht := by
    refine ⟨?_, by simp⟩
    rw [ht.orders, Dict.get?_set_of_ne _ _ (h.ne hterm hget hlive)]
    exact h.order

/-- One call leaves a terminal order as it is and produces no fill of it. -/
lemma Frozen.step (hwf : WellFormed e) (hterm : o.isTerminal = true)
    (h : e.orders.get? o.orderId = some o) (op : MatchingOp) :
    Frozen o (step cfg e op) (produced cfg e op) := by
  have h₀ : Frozen o e [] := ⟨h, by simp⟩
  rcases step_cases cfg hwf op with ⟨heq, hfs⟩ | ⟨o₁, o₂, hf, -, hs, hfs⟩ |
    ⟨o₁, o₂, hget, hlive, ht, hfs⟩ | ⟨snap, -, -, heq, hfs⟩
  · rw [heq, hfs]
    exact h₀
  · rw [hfs]
    refine ⟨?_, by simp⟩
    rw [hs.orders, Dict.get?_set_of_ne]
    · exact h
    · intro hid
      rw [← hid, hs.new] at h
      cases h
  · rw [hfs]
    exact (Frozen.interim hterm).touched hwf h₀ hget hlive ht
  · rw [heq, hfs]
    obtain ⟨e₁, -, hfrozen, heq'⟩ := advance_induct cfg snap (J := Frozen o) hwf
      (fun _ => (openInterval_induct cfg (Frozen.interim hterm) snap hwf h₀).2)
      (fun hi hJ hadm hcase _ => by
        obtain ⟨o₂, heff⟩ := hadm.effect hi hcase
        exact hJ.effect hterm hadm.order hadm.isTerminal heff)
      (fun hi hJ hm hcase _ => by
        rcases hm.effect hcase with ⟨heq, hfs'⟩ | ⟨o₂, heff⟩
        · rw [heq, hfs', List.append_nil]
          exact hJ
        · exact hJ.effect hterm hm.order hm.resting.isTerminal heff)
      (everyOrder_true cfg snap e)
    rw [heq']
    exact ⟨hfrozen.order, hfrozen.quiet⟩

/-! ## The labels -/

/-- An admission whose order comes to rest as PARTIAL finds something to take. -/
def AdmitLabelled (cfg : MatchingConfig) (snap : BookSnapshot) (e : MatchingEngine)
    (id : OrderId) : Prop :=
  ∀ o ∈ e.orders.get? id, isDue snap.tokenId snap.observedAt o = true →
    ∀ book ∈ e.books.get? o.tokenId,
      postOnlyCrosses cfg o book = false → marketable cfg o book = true → o.tif ≠ .fok →
      o.tif.isImmediate = false → 0 < o.remainingSize →
      0 < availableForTaker book o.side o.price

/-- A WORKING order past the queue gate fills nothing or everything. -/
def MatchLabelled (cfg : MatchingConfig) (e : MatchingEngine) (id : OrderId) : Prop :=
  ∀ o ∈ e.orders.get? id, ∀ book ∈ e.books.get? o.tokenId,
    o.state = .working → queueBlocked o = false →
    fillable cfg o book = 0 ∨ o.remainingSize ≤ fillable cfg o book + e12

/-- A call mislabels no order, and submits no order of negative size. -/
def WellLabelled (cfg : MatchingConfig) (e : MatchingEngine) : MatchingOp → Prop
  | .submit order _ => e.orders.contains order.orderId = false → 0 ≤ submittedSize cfg order
  | .cancel .. => True
  | .advanceTo snap => (∀ before ∈ e.now, before ≤ snap.observedAt) →
      EveryOrder cfg snap (AdmitLabelled cfg snap) (MatchLabelled cfg) e

instance (cfg : MatchingConfig) (snap : BookSnapshot) (e : MatchingEngine) (id : OrderId) :
    Decidable (AdmitLabelled cfg snap e id) := by
  unfold AdmitLabelled
  haveI (p q : Prop) [Decidable p] [Decidable q] : Decidable (p → q) := instDecidableForall
  infer_instance

instance (cfg : MatchingConfig) (e : MatchingEngine) (id : OrderId) :
    Decidable (MatchLabelled cfg e id) := by
  unfold MatchLabelled
  infer_instance

instance (cfg : MatchingConfig) (e : MatchingEngine) :
    ∀ op, Decidable (WellLabelled cfg e op)
  | .submit .. => inferInstanceAs (Decidable (_ → _))
  | .cancel .. => inferInstanceAs (Decidable True)
  | .advanceTo _ => inferInstanceAs (Decidable (_ → _))

/-- What the lifecycle needs to carry along: `fs` are the fills of the open interval. -/
structure Lifecycle (e : MatchingEngine) (fs : List Fill) : Prop where
  size : ∀ {id o}, e.orders.get? id = some o → 0 ≤ o.size
  done : ∀ {id o}, e.orders.get? id = some o → o.state = .filled → o.remainingSize ≤ e12
  labelled : ∀ {id o}, e.orders.get? id = some o → o.Labelled
  ledger : ∀ id, (e.allFills ++ fs).filter (fun f => f.orderId = id) =
    (e.orders.get? id).elim [] BacktestOrder.fills

lemma lifecycle_init : Lifecycle {} [] where
  size h := by cases h
  done h := by cases h
  labelled h := by cases h
  ledger _ := rfl

lemma Lifecycle.effect (h : Lifecycle e fs) (hget : e.orders.get? o.orderId = some o)
    (he : Effect e o fs' o' e') (hlabel : o'.Labelled) : Lifecycle e' (fs ++ fs') := by
  obtain ⟨o₁, hwalk, hr⟩ := he.walk
  have hget' : ∀ id, e'.orders.get? id =
      if o.orderId = id then some o' else e.orders.get? id := by
    intro id
    rw [he.orders, Dict.get?_set]
  constructor
  · intro id o₂ hg
    rw [hget'] at hg
    split at hg
    · cases hg
      rw [hr.size, hwalk.size_eq]
      exact h.size hget
    · exact h.size hg
  · intro id o₂ hg hstate
    rw [hget'] at hg
    split at hg
    · cases hg
      exact he.done hstate
    · exact h.done hg hstate
  · intro id o₂ hg
    rw [hget'] at hg
    split at hg
    · cases hg
      exact hlabel
    · exact h.labelled hg
  · intro id
    rw [he.allFills, ← List.append_assoc, List.filter_append, h.ledger id, hget']
    by_cases hid : o.orderId = id
    · subst hid
      have hown : fs'.filter (fun f => f.orderId = o.orderId) = fs' :=
        List.filter_eq_self.2 fun f hf => by simpa using (hwalk.own hf).1
      rw [hown, hget, if_pos rfl, Option.elim_some, Option.elim_some, hr.fills, hwalk.fills_eq]
    · have hother : fs'.filter (fun f => f.orderId = id) = [] :=
        List.filter_eq_nil_iff.2 fun f hf => by simpa [(hwalk.own hf).1] using hid
      rw [hother, List.append_nil, if_neg hid]

lemma Lifecycle.touch (h : Lifecycle e fs) (hget : e.orders.get? o.orderId = some o)
    (ht : Touch e o o' e') : Lifecycle e' fs := by
  have hget' : ∀ id, e'.orders.get? id =
      if o.orderId = id then some o' else e.orders.get? id := by
    intro id
    rw [ht.orders, Dict.get?_set]
  constructor
  · intro id o₂ hg
    rw [hget'] at hg
    split at hg
    · cases hg
      rw [ht.relabel.size]
      exact h.size hget
    · exact h.size hg
  · intro id o₂ hg hstate
    rw [hget'] at hg
    split at hg
    · cases hg
      rw [BacktestOrder.remainingSize_relabel ht.relabel]
      exact h.done hget (ht.state.symm.trans hstate)
    · exact h.done hg hstate
  · intro id o₂ hg
    rw [hget'] at hg
    split at hg
    · cases hg
      exact (h.labelled hget).relabel ht.relabel ht.state
    · exact h.labelled hg
  · intro id
    rw [ht.allFills, h.ledger id, hget']
    split
    · next hid => rw [← hid, hget, Option.elim_some, Option.elim_some, ht.relabel.fills]
    · rfl

lemma Lifecycle.interim : Interim fun e => Lifecycle e [] where
  sameOrders h hs :=
    ⟨fun hg => h.size (hs.orders ▸ hg), fun hg => h.done (hs.orders ▸ hg),
      fun hg => h.labelled (hs.orders ▸ hg), fun id => by
        rw [hs.allFills, hs.orders]
        exact h.ledger id⟩
  cancelled _ h hget _ he hstate := by
    refine h.effect hget he (.of_terminal ?_)
    rw [BacktestOrder.isTerminal, hstate]
    rfl
  touched _ h hget _ ht := h.touch hget ht

/-- What an effect leaves on record under the order's key. -/
lemma Effect.get? (he : Effect e o fs o' e') : e'.orders.get? o.orderId = some o' := by
  rw [he.orders, Dict.get?_set_self]

/-- The order that `rest` leaves on record. -/
lemma rest_order {label : OrderState}
    (h : (e.rest cfg book o label).orders.get? o.orderId = some o') :
    o' = snapshotQueuePosition cfg book { o with state := label } := by
  have hrel := (snapshotQueuePosition_relabel cfg book o label).1
  have h' : (e.orders.set (snapshotQueuePosition cfg book { o with state := label }).orderId
      (snapshotQueuePosition cfg book { o with state := label })).get? o.orderId = some o' := h
  rw [Dict.get?_set, if_pos hrel.orderId] at h'
  exact (Option.some.inj h').symm

/-- An admission labels its order as the table says. -/
lemma Admission.labelled (hi : InInterval snap e) (hadm : Admissible snap e o book)
    (hcase : Admission cfg e o book e' fs) (he : Effect e o fs o' e')
    (hsafe : AdmitLabelled cfg snap e o.orderId) : o'.Labelled := by
  have hget := he.get?
  have hbooked := hi.wellFormed.booked hadm.order
  have hzero : o.filledSize = 0 := by
    rw [hbooked.filled, hi.wellFormed.fresh hadm.order hadm.state]
    rfl
  have hwalk : ∀ r, r = consumeLevels cfg e.now o book → Walk o r.fills r.order := by
    rintro r rfl
    exact consumeLevels_walk cfg e.now o book
  have hfinish : ∀ (e₁ : MatchingEngine) (o₁ : BacktestOrder),
      (e₁.finish o₁).orders.get? o.orderId = some o' → o₁.orderId = o.orderId →
      o₁.isTerminal = true → o'.Labelled := by
    intro e₁ o₁ hg hid hterm
    have hg' : (e₁.orders.set o₁.orderId o₁).get? o.orderId = some o' := hg
    rw [hid, Dict.get?_set_self] at hg'
    cases hg'
    exact .of_terminal hterm
  cases hcase with
  | crossed => exact hfinish _ _ hget rfl rfl
  | insufficient => exact hfinish _ _ hget rfl rfl
  | expired => exact hfinish _ _ hget rfl rfl
  | killedOrFilled _ _ _ r hr => exact hfinish _ _ hget (hwalk r hr).orderId_eq rfl
  | filled _ _ _ r hr _ => exact hfinish _ _ hget (hwalk r hr).orderId_eq rfl
  | cut _ _ _ r hr => exact hfinish _ _ hget (hwalk r hr).orderId_eq rfl
  | restedRemainder hpost htif himm hm r hr hmore =>
    have hw := hwalk r hr
    obtain ⟨hrel, hstate⟩ :=
      snapshotQueuePosition_relabel cfg r.book r.order .partiallyFilled
    rw [← hw.orderId_eq] at hget
    have ho' := rest_order hget
    have htotal : totalSize r.fills = _ := hr ▸ consumeLevels_total cfg e.now o book
    have hfilled := hw.filledSize_eq
    rw [hzero, zero_add] at hfilled
    have hmore' : r.order.filledSize < r.order.size := by
      unfold BacktestOrder.remainingSize at hmore
      rcases lt_max_iff.1 hmore with h | h
      · exact absurd h (lt_irrefl 0)
      · linarith
    have hnonneg := totalSize_nonneg hw.pos
    have hrem : 0 < o.remainingSize := by
      refine lt_max_of_lt_right ?_
      rw [hw.size_eq] at hmore'
      linarith
    have havail := hsafe o hadm.order hadm.due book hadm.bookOf hpost hm htif himm hrem
    subst ho'
    refine ⟨fun hstate' => ?_, fun _ => ⟨?_, ?_⟩⟩
    · cases hstate.symm.trans hstate'
    · rw [hrel.filledSize, hfilled, htotal]
      exact lt_min hrem havail
    · rw [hrel.filledSize, hrel.size]
      exact hmore'
  | rested =>
    obtain ⟨hrel, hstate⟩ := snapshotQueuePosition_relabel cfg book o .working
    have ho' := rest_order hget
    subst ho'
    refine ⟨fun _ => hrel.filledSize.trans hzero, fun hstate' => ?_⟩
    cases hstate.symm.trans hstate'

/-- What a match of a resting order fills. -/
lemma restLoop_total_fillable (hpos : 0 < o.remainingSize) :
    totalSize (restLoop cfg book.snapshot (book.remaining o.side) o book o.remainingSize).fills =
      min o.remainingSize (fillable cfg o book) := by
  rw [restLoop_total _ _ _ _ _ hpos.le (reachSorted_remaining _ _ _)
    fun l hl => remaining_nonneg hl, fillable, availableForTaker_eq]
  cases modelAllowance cfg o book.snapshot with
  | none => rfl
  | some a => exact min_assoc _ _ _

/-- A match keeps the label of its order, or completes it. -/
lemma Resting.labelled (hi : InInterval snap e) (h : o.Labelled) (hm : Matchable snap e o book)
    (hcase : Resting cfg e o book e' fs) (he : Effect e o fs o' e')
    (hsafe : MatchLabelled cfg e o.orderId) : o'.Labelled := by
  have hget := he.get?
  have hbooked := hi.wellFormed.booked hm.order
  cases hcase with
  | idle =>
    rw [hm.order] at hget
    cases hget
    exact h
  | completed hgate hpos r hr hdone =>
    have hw : Walk o r.fills r.order := hr ▸ restLoop_walk_of_pos cfg hpos _ _ book
    obtain ⟨w, hremoved⟩ := removeFromWorking_eq
      ((e.writeBack r.order r.book).finish { r.order with state := .filled }) r.order
    rw [hremoved] at hget
    have hget' : ((e.orders.set r.order.orderId r.order).set r.order.orderId
        { r.order with state := .filled }).get? o.orderId = some o' := hget
    rw [hw.orderId_eq, Dict.get?_set_self] at hget'
    cases hget'
    exact .of_terminal rfl
  | walked hgate hpos r hr hmore =>
    have hw : Walk o r.fills r.order := hr ▸ restLoop_walk_of_pos cfg hpos _ _ book
    have htotal : totalSize r.fills = min o.remainingSize (fillable cfg o book) :=
      hr ▸ restLoop_total_fillable hpos
    have hget' : (e.orders.set r.order.orderId r.order).get? o.orderId = some o' := hget
    rw [hw.orderId_eq, Dict.get?_set_self] at hget'
    cases hget'
    have hfilled := hw.filledSize_eq
    have hnonneg := totalSize_nonneg hw.pos
    have hsize : ∀ {x y : ℚ}, e12 < max 0 (x - y) → y + e12 < x := by
      intro x y hxy
      rcases lt_max_iff.1 hxy with hlt | hlt
      · exact absurd (hlt.trans e12_pos) (lt_irrefl _)
      · linarith
    have hmore' := hsize hmore
    have hpartly : r.order.filledSize < r.order.size := by linarith [e12_pos]
    refine ⟨fun hstate => ?_, fun hstate => ⟨?_, hpartly⟩⟩
    · rw [hw.state_eq] at hstate
      have hzero := h.working hstate
      -- a WORKING order that is filled while it rests is completed
      rcases hsafe o hm.order book hm.bookOf hstate hgate with hnone | hall
      · rw [hfilled, htotal, hnone, hzero, min_eq_right hpos.le, zero_add]
      · exfalso
        rw [hw.size_eq, hfilled, hzero, zero_add] at hmore'
        have hrem : o.size ≤ o.remainingSize := by
          rw [BacktestOrder.remainingSize, hzero, sub_zero]
          exact le_max_right _ _
        have hge : o.size - e12 ≤ totalSize r.fills := by
          rw [htotal]
          exact le_min (by linarith [e12_pos]) (by linarith)
        linarith
    · rw [hw.state_eq] at hstate
      rw [hfilled]
      linarith [(h.partiallyFilled hstate).1]

/-! ## Runs -/

lemma Lifecycle.step (hwf : WellFormed e) (h : Lifecycle e []) {op : MatchingOp}
    (hsafe : WellLabelled cfg e op) : Lifecycle (step cfg e op) [] := by
  rcases step_cases cfg hwf op with ⟨heq, -⟩ | ⟨order, o', hf, rfl, hs, -⟩ |
    ⟨o, o', hget, -, ht, -⟩ | ⟨snap, rfl, hnow, heq, -⟩
  · rw [heq]
    exact h
  · have hget' : ∀ id, (MatchingEngine.step cfg e (.submit order hf)).orders.get? id =
        if o'.orderId = id then some o' else e.orders.get? id := by
      intro id
      rw [hs.orders, Dict.get?_set]
    constructor
    · intro id o₂ hg
      rw [hget'] at hg
      split at hg
      · cases hg
        rw [hs.size]
        refine hsafe ?_
        rw [← hs.orderId, Dict.contains, hs.new]
        rfl
      · exact h.size hg
    · intro id o₂ hg hstate
      rw [hget'] at hg
      split at hg
      · cases hg
        rcases hs.state with hs | hs <;> rw [hs] at hstate <;> cases hstate
      · exact h.done hg hstate
    · intro id o₂ hg
      rw [hget'] at hg
      split at hg
      · cases hg
        constructor <;> intro hstate <;> rcases hs.state with hs | hs <;> rw [hs] at hstate <;>
          cases hstate
      · exact h.labelled hg
    · intro id
      rw [hs.allFills, h.ledger id, hget']
      split
      · next hid => rw [← hid, hs.new, Option.elim_none, Option.elim_some, hs.fresh.fills]
      · rfl
  · exact h.touch hget ht
  · rw [heq]
    obtain ⟨e₁, -, hlife, heq'⟩ := advance_induct cfg snap (J := Lifecycle) hwf
      (fun _ => (openInterval_induct cfg Lifecycle.interim snap hwf h).2)
      (fun hi hJ hadm hcase hA => by
        obtain ⟨o', heff⟩ := hadm.effect hi hcase
        exact hJ.effect hadm.order heff (hcase.labelled hi hadm heff hA))
      (fun hi hJ hm hcase hM => by
        rcases hm.effect hcase with ⟨heq, hfs⟩ | ⟨o', heff⟩
        · rw [heq, hfs, List.append_nil]
          exact hJ
        · exact hJ.effect hm.order heff
            (hcase.labelled hi (hJ.labelled hm.order) hm heff hM))
      (hsafe hnow)
    rw [heq']
    exact ⟨hlife.size, hlife.done, hlife.labelled, by simpa using hlife.ledger⟩

lemma Lifecycle.ok (hwf : WellFormed e) (h : Lifecycle e []) {id : OrderId}
    (hget : e.orders.get? id = some o) : o.LifecycleOk e.allFills := by
  have hbooked := hwf.booked hget
  have hle := hbooked.le
  rw [max_eq_right (h.size hget)] at hle
  have hledger := h.ledger id
  rw [hget, List.append_nil, Option.elim_some, ← hwf.keyed hget] at hledger
  exact ⟨hbooked.filled, hle, hbooked.avg, hledger, hbooked.index, h.done hget,
    (h.labelled hget).working_iff, (h.labelled hget).partiallyFilled_iff⟩

/-- Once an order is terminal, every later call leaves it as it is and the ledger receives
no further fill of it. -/
lemma frozen_run (ops : List MatchingOp) (hwf : WellFormed e) (hterm : o.isTerminal = true)
    (hget : e.orders.get? o.orderId = some o) :
    (ops.foldl (MatchingEngine.step cfg) e).orders.get? o.orderId = some o := by
  induction ops generalizing e with
  | nil => exact hget
  | cons op ops ih => exact ih (wellFormed_step hwf op) (Frozen.step hwf hterm hget op).order

/-- **The lifecycle of orders.**  In every run no step of which mislabels an order, every
order of every state reached is as the lifecycle says, and from the moment an order is
terminal no call changes it nor produces a fill of it. -/
theorem lifecycle_of_wellLabelled (cfg : MatchingConfig) (ops : List MatchingOp)
    (h : EveryStep (step cfg) (WellLabelled cfg) {} ops) :
    (∀ id o, (runOps cfg ops).orders.get? id = some o →
        o.LifecycleOk (runOps cfg ops).allFills) ∧
      ∀ pre rest, ops = pre ++ rest → ∀ id o, (runOps cfg pre).orders.get? id = some o →
        o.isTerminal = true → (runOps cfg ops).orders.get? id = some o ∧
          ∀ mid op, mid ++ [op] <+: rest →
            ∀ f ∈ produced cfg (mid.foldl (step cfg) (runOps cfg pre)) op, f.orderId ≠ id := by
  constructor
  · intro id o hget
    have hlife : WellFormed (runOps cfg ops) ∧ Lifecycle (runOps cfg ops) [] :=
      h.invariant (I := fun e => WellFormed e ∧ Lifecycle e []) ⟨wellFormed_init, lifecycle_init⟩
        fun e op hI hsafe => ⟨wellFormed_step hI.1 op, hI.2.step hI.1 hsafe⟩
    exact hlife.2.ok hlife.1 hget
  · rintro pre rest rfl id o hget hterm
    have hwf : WellFormed (runOps cfg pre) := wellFormed_runOps pre
    have hid := hwf.keyed hget
    rw [← hid] at hget ⊢
    refine ⟨?_, fun mid op _ => ?_⟩
    · rw [runOps, List.foldl_append]
      exact frozen_run rest hwf hterm hget
    · have hwf' : WellFormed (mid.foldl (step cfg) (runOps cfg pre)) :=
        foldl_invariant (I := WellFormed) (fun _ op h => wellFormed_step h op) hwf mid
      exact (Frozen.step hwf' hterm (frozen_run mid hwf hterm hget) op).quiet

/-- A bid for ten shares at one half that rests, and is then offered `size` shares. -/
def restThenOffer (size : ℚ) : List MatchingOp :=
  [.submit (.limit "bid" "t" .buy (1 / 2) 10 0) ⟨rfl, rfl⟩, .advanceTo (.offer "t" 1000 ⟨3 / 5, 10⟩),
   .advanceTo (.offer "t" 2000 ⟨1 / 2, size⟩)]

/-- An offer of the whole size completes the bid, and every order is as the lifecycle says. -/
theorem restThenOffer_lifecycle :
    EveryStep (step (.plain 1)) (WellLabelled (.plain 1)) {} (restThenOffer 10) ∧
      ∀ id o, (runOps (.plain 1) (restThenOffer 10)).orders.get? id = some o →
        o.LifecycleOk (runOps (.plain 1) (restThenOffer 10)).allFills := by
  have hsafe : EveryStep (step (.plain 1)) (WellLabelled (.plain 1)) {} (restThenOffer 10) := by
    decide +kernel
  exact ⟨hsafe, (lifecycle_of_wellLabelled (.plain 1) (restThenOffer 10) hsafe).1⟩

/-- An offer of four shares fills four of the ten, and the bid is still called WORKING. -/
theorem restThenOffer_mislabelled :
    ¬ ∀ id o, (runOps (.plain 1) (restThenOffer 4)).orders.get? id = some o →
      o.LifecycleOk (runOps (.plain 1) (restThenOffer 4)).allFills := by
  intro h
  have hbid : ∃ o, (runOps (.plain 1) (restThenOffer 4)).orders.get? "bid" = some o ∧
      o.state = .working ∧ o.filledSize = 4 := by
    refine ⟨((runOps (.plain 1) (restThenOffer 4)).orders.get? "bid").getD
      (.limit "" "" .buy 0 0 0), ?_, ?_, ?_⟩ <;> decide +kernel
  obtain ⟨o, hget, hstate, hfilled⟩ := hbid
  have hzero := ((h "bid" o hget).working (.inl hstate)).1 hstate
  rw [hfilled] at hzero
  exact absurd hzero (by norm_num)

end MatchingEngine

end Evosport.Backtest
