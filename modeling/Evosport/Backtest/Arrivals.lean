/-
The order of submission.

Orders that fall due on one snapshot are admitted in the order in which they were
submitted, which need not be the order in which they arrive at the venue.  `AdmitInTurn`
says of one admission that the two agree: every other order that is due arrives later, and
every resting rival arrived earlier and is not waiting for what the order takes.  In runs
whose admissions are all in turn, calling `submit` in another order changes no fill
(`fills_of_resubmitted`).
-/
import Evosport.Backtest.Liquidity

namespace Evosport.Backtest

open Lib

namespace BacktestOrder

/-- The venue receives `o` before `o'`. -/
def ArrivesBefore (o o' : BacktestOrder) : Prop :=
  match o.venueReceivedAt, o'.venueReceivedAt with
  | some t, some t' => t < t'
  | _, _ => False

instance (o o' : BacktestOrder) : Decidable (o.ArrivesBefore o') := by
  unfold ArrivesBefore
  split <;> infer_instance

/-- Two orders on the same token and side with the same limit: what one of them takes from the book,
the other could have taken. -/
structure Rivals (o o' : BacktestOrder) : Prop where
  tokenId : o'.tokenId = o.tokenId
  side : o'.side = o.side
  price : o'.price = o.price

instance (o o' : BacktestOrder) : Decidable (o.Rivals o') :=
  decidable_of_iff (o'.tokenId = o.tokenId ∧ o'.side = o.side ∧ o'.price = o.price)
    ⟨fun ⟨ht, hs, hp⟩ => ⟨ht, hs, hp⟩, fun h => ⟨h.tokenId, h.side, h.price⟩⟩

instance (o : BacktestOrder) : Decidable o.IsResting :=
  inferInstanceAs (Decidable (_ ∨ _))

/-- Neither its queue nor the fill model holds the order back. -/
structure Unblocked (cfg : MatchingConfig) (snap : BookSnapshot) (o : BacktestOrder) : Prop where
  queue : MatchingEngine.queueBlocked o = false
  gate : ∀ a ∈ modelAllowance cfg o snap, o.remainingSize ≤ a

instance (cfg : MatchingConfig) (snap : BookSnapshot) (o : BacktestOrder) :
    Decidable (o.Unblocked cfg snap) :=
  decidable_of_iff (MatchingEngine.queueBlocked o = false ∧
      ∀ a ∈ modelAllowance cfg o snap, o.remainingSize ≤ a)
    ⟨fun ⟨hq, hg⟩ => ⟨hq, hg⟩, fun h => ⟨h.queue, h.gate⟩⟩

lemma ArrivesBefore.asymm {o o' : BacktestOrder} (h : o.ArrivesBefore o') :
    ¬ o'.ArrivesBefore o := by
  unfold ArrivesBefore at h ⊢
  grind

lemma ArrivesBefore.congr {o o' p p' : BacktestOrder} (h : o.ArrivesBefore o')
    (ho : p.venueReceivedAt = o.venueReceivedAt) (ho' : p'.venueReceivedAt = o'.venueReceivedAt) :
    p.ArrivesBefore p' := by
  unfold ArrivesBefore at h ⊢
  rw [ho, ho']
  exact h

end BacktestOrder

namespace MatchingEngine

variable {cfg : MatchingConfig} {snap : BookSnapshot} {e e' : MatchingEngine}
  {o o' : BacktestOrder} {book : ResidualBook} {fs : List Fill} {ids : List OrderId}

/-- The order is admitted in turn: every other order that is due arrives later, and every
rival that rests arrived earlier and is held back when the order takes liquidity. -/
def AdmitInTurn (cfg : MatchingConfig) (snap : BookSnapshot) (e : MatchingEngine)
    (id : OrderId) : Prop :=
  ∀ o ∈ e.orders.get? id, isDue snap.tokenId snap.observedAt o = true →
    ∀ o' ∈ e.orders.values, o'.orderId ≠ id →
      (isDue snap.tokenId snap.observedAt o' = true → o.ArrivesBefore o') ∧
      (o'.IsResting → o.Rivals o' → o'.ArrivesBefore o ∧
        (o'.Unblocked cfg snap → ∀ book ∈ e.books.get? o.tokenId, ¬ TakesLiquidity cfg o book))

/-- The order is matched in turn: what it leaves to a later rival is metered at the prices of
the levels. -/
def MatchInTurn (cfg : MatchingConfig) (e : MatchingEngine) (id : OrderId) : Prop :=
  ∀ o ∈ e.orders.get? id, ∀ book ∈ e.books.get? o.tokenId, o.Unblocked cfg book.snapshot →
    availableForTaker book o.side o.price < o.remainingSize →
    (∃ o' ∈ e.orders.values, o'.IsResting ∧ o.Rivals o' ∧ o.ArrivesBefore o') →
    ∀ x ∈ book.remaining o.side, 0 < x.2 → beyondLimit o.side o.price x.1 = false →
      x.1 = o.price

/-- In an advance, the orders are admitted and matched in turn. -/
def InTurn (cfg : MatchingConfig) (e : MatchingEngine) : MatchingOp → Prop
  | .advanceTo snap => (∀ before ∈ e.now, before ≤ snap.observedAt) →
      EveryOrder cfg snap (AdmitInTurn cfg snap) (MatchInTurn cfg) e
  | _ => True

instance (cfg : MatchingConfig) (snap : BookSnapshot) (e : MatchingEngine) (id : OrderId) :
    Decidable (AdmitInTurn cfg snap e id) := by
  unfold AdmitInTurn
  haveI (p q : Prop) [Decidable p] [Decidable q] : Decidable (p → q) := instDecidableForall
  infer_instance

instance (cfg : MatchingConfig) (e : MatchingEngine) (id : OrderId) :
    Decidable (MatchInTurn cfg e id) := by
  unfold MatchInTurn
  infer_instance

instance (cfg : MatchingConfig) (e : MatchingEngine) : ∀ op, Decidable (InTurn cfg e op)
  | .submit .. => inferInstanceAs (Decidable True)
  | .cancel .. => inferInstanceAs (Decidable True)
  | .advanceTo _ => inferInstanceAs (Decidable (_ → _))

/-! ## Engines that differ in the order of submission -/

/-- The engines have the same orders on record, if perhaps in another order, and the same
books, working lists, cancels and time. -/
structure Interchangeable (e e' : MatchingEngine) : Prop where
  orders : ∀ id, e'.orders.get? id = e.orders.get? id
  working : e'.workingByToken = e.workingByToken
  cancels : e'.pendingCancels = e.pendingCancels
  books : e'.books = e.books
  now : e'.now = e.now

namespace Interchangeable

lemma refl (e : MatchingEngine) : Interchangeable e e := ⟨fun _ => rfl, rfl, rfl, rfl, rfl⟩

variable (h : Interchangeable e e')
include h

lemma workingIds (t : TokenId) : e'.workingIds t = e.workingIds t := by
  rw [MatchingEngine.workingIds, h.working]
  rfl

lemma putOrder (o : BacktestOrder) : Interchangeable (e.putOrder o) (e'.putOrder o) := by
  refine ⟨fun id => ?_, h.working, h.cancels, h.books, h.now⟩
  show (e'.orders.set o.orderId o).get? id = (e.orders.set o.orderId o).get? id
  rw [Dict.get?_set, Dict.get?_set, h.orders]

lemma terminate (o : BacktestOrder) (state : OrderState) :
    Interchangeable (e.terminate o state) (e'.terminate o state) := by
  unfold MatchingEngine.terminate
  split
  · exact h.putOrder o
  · exact { h.putOrder { o with state := state } with }

lemma removeFromWorking (o : BacktestOrder) :
    Interchangeable (e.removeFromWorking o) (e'.removeFromWorking o) := by
  unfold MatchingEngine.removeFromWorking
  rw [h.workingIds, h.working]
  split
  · exact { h with working := rfl }
  · exact h

lemma rest (book : ResidualBook) (o : BacktestOrder) (label : OrderState) :
    Interchangeable (e.rest cfg book o label) (e'.rest cfg book o label) := by
  have hput := h.putOrder (snapshotQueuePosition cfg book { o with state := label })
  unfold MatchingEngine.rest addToWorking
  dsimp only
  rw [hput.workingIds, hput.working]
  exact { hput with working := rfl }

lemma writeBack (o : BacktestOrder) (book : ResidualBook) (t : TokenId) :
    Interchangeable { e.putOrder o with books := e.books.set t book }
      { e'.putOrder o with books := e'.books.set t book } :=
  { h.putOrder o with books := by rw [h.books] }

/-- An admission does the same to both. -/
lemma handleAdmit (o : BacktestOrder) :
    Interchangeable (e.handleAdmit cfg o).1 (e'.handleAdmit cfg o).1 ∧
      (e'.handleAdmit cfg o).2 = (e.handleAdmit cfg o).2 := by
  unfold MatchingEngine.handleAdmit take
  rw [h.books, h.now]
  cases e.books.get? o.tokenId with
  | none => exact ⟨h, rfl⟩
  | some book =>
    have hwrite := h.writeBack (consumeLevels cfg e.now o book).order
      (consumeLevels cfg e.now o book).book o.tokenId
    rw [h.books] at hwrite
    dsimp only
    split
    · exact ⟨h.terminate _ _, rfl⟩
    split
    · split
      · exact ⟨h.terminate _ _, rfl⟩
      · exact ⟨hwrite.terminate _ _, rfl⟩
    split
    · split
      · split
        · exact ⟨hwrite.terminate _ _, rfl⟩
        · exact ⟨hwrite.rest _ _ _, rfl⟩
      · exact ⟨hwrite.terminate _ _, rfl⟩
    split
    · exact ⟨h.terminate _ _, rfl⟩
    · exact ⟨h.rest _ _ _, rfl⟩

lemma admitOne (id : OrderId) :
    Interchangeable (admitOne cfg snap id e).1 (MatchingEngine.admitOne cfg snap id e').1 ∧
      (MatchingEngine.admitOne cfg snap id e').2 = (MatchingEngine.admitOne cfg snap id e).2 := by
  unfold MatchingEngine.admitOne
  rw [h.orders]
  cases e.orders.get? id with
  | none => exact ⟨h, rfl⟩
  | some o =>
    dsimp only
    split
    · exact h.handleAdmit o
    · exact ⟨h, rfl⟩

/-- A match of a resting order does the same to both. -/
lemma tryMatchResting (o : BacktestOrder) :
    Interchangeable (e.tryMatchResting cfg o).1 (e'.tryMatchResting cfg o).1 ∧
      (e'.tryMatchResting cfg o).2 = (e.tryMatchResting cfg o).2 := by
  unfold MatchingEngine.tryMatchResting
  rw [h.books]
  cases e.books.get? o.tokenId with
  | none => exact ⟨h, rfl⟩
  | some book =>
    dsimp only
    have hwrite := h.writeBack
      (restLoop cfg book.snapshot (book.remaining o.side) o book o.remainingSize).order
      (restLoop cfg book.snapshot (book.remaining o.side) o book o.remainingSize).book o.tokenId
    rw [h.books] at hwrite
    split
    · exact ⟨h, rfl⟩
    split
    · exact ⟨h, rfl⟩
    split
    · exact ⟨(hwrite.terminate _ _).removeFromWorking _, rfl⟩
    · exact ⟨hwrite, rfl⟩

lemma matchOne (id : OrderId) :
    Interchangeable (matchOne cfg id e).1 (MatchingEngine.matchOne cfg id e').1 ∧
      (MatchingEngine.matchOne cfg id e').2 = (MatchingEngine.matchOne cfg id e).2 := by
  unfold MatchingEngine.matchOne
  rw [h.orders]
  cases e.orders.get? id with
  | none => exact ⟨h, rfl⟩
  | some o =>
    dsimp only
    split
    · exact ⟨h, rfl⟩
    · exact h.tryMatchResting o

/-- A loop that visits the same orders does the same to both. -/
lemma forOrders {f : OrderId → MatchingEngine → MatchingEngine × List Fill}
    (hf : ∀ {e e'}, Interchangeable e e' → ∀ id,
      Interchangeable (f id e).1 (f id e').1 ∧ (f id e').2 = (f id e).2) (ids : List OrderId) :
    Interchangeable (forOrders f ids e).1 (MatchingEngine.forOrders f ids e').1 ∧
      (MatchingEngine.forOrders f ids e').2 = (MatchingEngine.forOrders f ids e).2 := by
  induction ids generalizing e e' with
  | nil => exact ⟨h, rfl⟩
  | cons id ids ih =>
    obtain ⟨hnext, hfills⟩ := hf h id
    obtain ⟨hrest, hrests⟩ := ih hnext
    refine ⟨hrest, ?_⟩
    show (f id e').2 ++ _ = (f id e).2 ++ _
    rw [hfills, hrests]

/-- Step 4 does the same to both. -/
lemma matchAll (cfg : MatchingConfig) (snap : BookSnapshot) :
    Interchangeable (matchAll cfg snap e).1 (MatchingEngine.matchAll cfg snap e').1 ∧
      (MatchingEngine.matchAll cfg snap e').2 = (MatchingEngine.matchAll cfg snap e).2 := by
  unfold MatchingEngine.matchAll
  rw [h.workingIds]
  exact h.forOrders (fun h id => h.matchOne id) _

lemma applyCancel (id : OrderId) (at_ : Time) :
    Interchangeable (e.applyCancel id at_) (e'.applyCancel id at_) := by
  unfold MatchingEngine.applyCancel
  rw [h.orders]
  cases e.orders.get? id with
  | none => exact h
  | some o =>
    dsimp only
    split
    · exact h
    have hterm := h.terminate { o with cancelledAt := some at_ } .cancelled
    split
    · exact hterm.removeFromWorking o
    · exact hterm.removeFromWorking o
    · exact hterm

lemma applyDueCancels (now : Time) (due : List (OrderId × Time)) :
    Interchangeable (applyDueCancels now due e) (MatchingEngine.applyDueCancels now due e') := by
  induction due generalizing e e' with
  | nil => exact h
  | cons c due ih =>
    unfold MatchingEngine.applyDueCancels
    split
    · have hnext := h.applyCancel c.1 c.2
      exact ih { hnext with cancels := by rw [hnext.cancels] }
    · exact ih h

lemma decayQueues (oldBook : ResidualBook) (newSnap : BookSnapshot) (ids : List OrderId) :
    Interchangeable (decayQueues cfg oldBook newSnap ids e)
      (MatchingEngine.decayQueues cfg oldBook newSnap ids e') := by
  induction ids generalizing e e' with
  | nil => exact h
  | cons id ids ih =>
    unfold MatchingEngine.decayQueues
    rw [h.orders]
    cases e.orders.get? id with
    | none => exact ih h
    | some o => exact ih (h.putOrder _)

lemma refreshBook (cfg : MatchingConfig) (snap : BookSnapshot) :
    Interchangeable (refreshBook cfg snap e) (MatchingEngine.refreshBook cfg snap e') := by
  have hbook : Interchangeable { e with books := e.books.set snap.tokenId { snapshot := snap } }
      { e' with books := e.books.set snap.tokenId { snapshot := snap } } := { h with books := rfl }
  unfold MatchingEngine.refreshBook
  dsimp only
  rw [h.books]
  split
  · exact hbook
  · rw [hbook.workingIds]
    exact hbook.decayQueues _ snap _

/-- The interval opens alike. -/
lemma openInterval (cfg : MatchingConfig) (snap : BookSnapshot) :
    Interchangeable (openInterval cfg snap e) (MatchingEngine.openInterval cfg snap e') := by
  have hclock : Interchangeable { e with now := some snap.observedAt }
      { e' with now := some snap.observedAt } := { h with now := rfl }
  have hdue : e'.pendingCancels.entries = e.pendingCancels.entries := by rw [h.cancels]
  unfold MatchingEngine.openInterval
  dsimp only
  rw [hdue]
  exact (hclock.applyDueCancels snap.observedAt e.pendingCancels.entries).refreshBook cfg snap

end Interchangeable

/-! ## Admissions in the order of arrival -/

/-- Whether the order on record under `id` is due. -/
def dueIn (snap : BookSnapshot) (e : MatchingEngine) (id : OrderId) : Bool :=
  (e.orders.get? id).elim false (isDue snap.tokenId snap.observedAt)

/-- The order on record under `a` arrives before the one under `b`. -/
def ArrivesFirst (e : MatchingEngine) (a b : OrderId) : Prop :=
  ∀ o ∈ e.orders.get? a, ∀ o' ∈ e.orders.get? b, o.ArrivesBefore o'

lemma dueIn_iff {id : OrderId} : dueIn snap e id = true ↔
    ∃ o, e.orders.get? id = some o ∧ isDue snap.tokenId snap.observedAt o = true := by
  unfold dueIn
  cases e.orders.get? id <;> simp

lemma admitOne_of_not_due {id : OrderId} (h : dueIn snap e id = false) :
    admitOne cfg snap id e = (e, []) := by
  unfold dueIn at h
  unfold admitOne
  cases hget : e.orders.get? id with
  | none => rfl
  | some o =>
    rw [hget] at h
    simp only [Option.elim_some] at h
    simp [h]

/-- An admission leaves the other orders as they are. -/
lemma admitOne_get?_of_ne (hi : InInterval snap e) {id id' : OrderId} (hne : id' ≠ id) :
    (admitOne cfg snap id e).1.orders.get? id' = e.orders.get? id' := by
  rcases admitOne_cases cfg hi id with heq | ⟨o, book, rfl, hadm, hcase⟩
  · rw [heq]
  · obtain ⟨o', heff⟩ := hadm.effect hi hcase
    rw [heff.orders, Dict.get?_set_of_ne _ _ (Ne.symm hne)]

lemma filter_dueIn_admitOne (hi : InInterval snap e) {id : OrderId} (hnot : id ∉ ids) :
    ids.filter (dueIn snap (admitOne cfg snap id e).1) = ids.filter (dueIn snap e) := by
  refine List.filter_congr fun id' hid' => ?_
  unfold dueIn
  rw [admitOne_get?_of_ne hi]
  rintro rfl
  exact hnot hid'

/-- Step 3 visits the orders that are due. -/
lemma forOrders_admitOne_due (hi : InInterval snap e) (hnodup : ids.Nodup) :
    forOrders (admitOne cfg snap) ids e =
      forOrders (admitOne cfg snap) (ids.filter (dueIn snap e)) e := by
  induction ids generalizing e with
  | nil => rfl
  | cons id ids ih =>
    obtain ⟨hnot, hnodup'⟩ := List.nodup_cons.1 hnodup
    have hnext : InInterval snap (admitOne cfg snap id e).1 := inInterval_admitOne hi id
    have hrest := ih hnext hnodup'
    rw [filter_dueIn_admitOne hi hnot] at hrest
    by_cases hdue : dueIn snap e id = true
    · rw [List.filter_cons_of_pos hdue]
      simp only [forOrders]
      rw [hrest]
    · rw [List.filter_cons_of_neg hdue]
      have hidle : admitOne cfg snap id e = (e, []) := admitOne_of_not_due (by simpa using hdue)
      rw [hidle] at hrest
      simp only [forOrders, hidle]
      rw [hrest]
      rfl

/-- Admissions in turn visit the due orders in the order of their arrival. -/
lemma due_pairwise (hi : InInterval snap e) (hnodup : ids.Nodup)
    (h : EveryStep (fun e id => (admitOne cfg snap id e).1) (AdmitInTurn cfg snap) e ids) :
    (ids.filter (dueIn snap e)).Pairwise (ArrivesFirst e) := by
  induction ids generalizing e with
  | nil => exact .nil
  | cons id ids ih =>
    obtain ⟨hnot, hnodup'⟩ := List.nodup_cons.1 hnodup
    have hrest := ih (inInterval_admitOne hi id) hnodup' h.2
    rw [filter_dueIn_admitOne hi hnot] at hrest
    have hne : ∀ id' ∈ ids.filter (dueIn snap e), id' ≠ id := by
      rintro id' hid' rfl
      exact hnot (List.mem_of_mem_filter hid')
    -- the orders still to come are as they were
    have hrest' : (ids.filter (dueIn snap e)).Pairwise (ArrivesFirst e) := by
      refine hrest.imp_of_mem fun {a b} ha hb hab => ?_
      unfold ArrivesFirst at hab ⊢
      rwa [admitOne_get?_of_ne hi (hne a ha), admitOne_get?_of_ne hi (hne b hb)] at hab
    by_cases hdue : dueIn snap e id = true
    · rw [List.filter_cons_of_pos hdue]
      refine List.pairwise_cons.2 ⟨fun id' hid' o hget o' hget' => ?_, hrest'⟩
      obtain ⟨o₁, hget₁, hdue₁⟩ := dueIn_iff.1 hdue
      obtain ⟨o₂, hget₂, hdue₂⟩ := dueIn_iff.1 (List.of_mem_filter hid')
      rw [Option.mem_def] at hget hget'
      cases hget₁.symm.trans hget
      cases hget₂.symm.trans hget'
      refine (h.1 o hget hdue₁ o' (Dict.mem_values.2 ⟨id', hget'⟩) ?_).1 hdue₂
      rw [hi.wellFormed.keyed hget']
      exact hne id' hid'
    · rw [List.filter_cons_of_neg hdue]
      exact hrest'

/-- Step 3 does the same to two engines whose admissions are in turn. -/
lemma Interchangeable.admitAll (h : Interchangeable e e') (hi : InInterval snap e)
    (hi' : InInterval snap e') (hturn : EveryAdmission cfg snap (AdmitInTurn cfg snap) e)
    (hturn' : EveryAdmission cfg snap (AdmitInTurn cfg snap) e') :
    Interchangeable (admitAll cfg snap e).1 (MatchingEngine.admitAll cfg snap e').1 ∧
      (MatchingEngine.admitAll cfg snap e').2 = (MatchingEngine.admitAll cfg snap e).2 := by
  have hdue : dueIn snap e' = dueIn snap e := by
    funext id
    rw [dueIn, h.orders]
    rfl
  have hfirst : ArrivesFirst e' = ArrivesFirst e := by
    funext a b
    rw [ArrivesFirst, h.orders, h.orders]
    rfl
  have hperm : (e'.orders.keys.filter (dueIn snap e)).Perm (e.orders.keys.filter (dueIn snap e)) := by
    refine List.Perm.filter _ ((List.perm_ext_iff_of_nodup e'.orders.nodup e.orders.nodup).2
      fun id => ?_)
    show id ∈ e'.orders.keys ↔ id ∈ e.orders.keys
    rw [Dict.mem_keys, Dict.mem_keys, h.orders]
  have hnodup : e.orders.keys.Nodup := e.orders.nodup
  have hnodup' : e'.orders.keys.Nodup := e'.orders.nodup
  have hsorted := due_pairwise hi hnodup hturn
  have hsorted' := due_pairwise hi' hnodup' hturn'
  rw [hdue, hfirst] at hsorted'
  -- the due orders have one order of arrival
  have hasymm : ∀ a b, a ∈ e'.orders.keys.filter (dueIn snap e) →
      b ∈ e.orders.keys.filter (dueIn snap e) → ArrivesFirst e a b → ArrivesFirst e b a → a = b := by
    intro a b ha hb hab hba
    obtain ⟨o, hget, -⟩ := dueIn_iff.1 (List.of_mem_filter ha)
    obtain ⟨o', hget', -⟩ := dueIn_iff.1 (List.of_mem_filter hb)
    exact absurd (hba o' hget' o hget) (hab o hget o' hget').asymm
  have hsame := List.Perm.eq_of_pairwise hasymm hsorted' hsorted hperm
  unfold MatchingEngine.admitAll
  rw [forOrders_admitOne_due hi hnodup, forOrders_admitOne_due hi' hnodup', hdue, hsame]
  exact h.forOrders (fun h id => h.admitOne id) _

/-- An advance does the same to both. -/
lemma Interchangeable.advance (h : Interchangeable e e') (hwf : WellFormed e) (hwf' : WellFormed e')
    (hturn : EveryOrder cfg snap (AdmitInTurn cfg snap) (MatchInTurn cfg) e)
    (hturn' : EveryOrder cfg snap (AdmitInTurn cfg snap) (MatchInTurn cfg) e') :
    Interchangeable (advance cfg snap e).1 (MatchingEngine.advance cfg snap e').1 ∧
      (MatchingEngine.advance cfg snap e').2 = (MatchingEngine.advance cfg snap e).2 := by
  obtain ⟨hadm, hfills⟩ := (h.openInterval cfg snap).admitAll (inInterval_open cfg hwf snap)
    (inInterval_open cfg hwf' snap) hturn.1 hturn'.1
  obtain ⟨hmatch, hfills'⟩ := hadm.matchAll cfg snap
  unfold MatchingEngine.advance
  dsimp only
  rw [hfills, hfills']
  exact ⟨{ hmatch with }, rfl⟩

/-! ## Submitting in another order -/

/-- The order as `submit` registers it when the latency drawn for it is `latencyMs`. -/
def registered (cfg : MatchingConfig) (o : BacktestOrder) (latencyMs : ℚ) : BacktestOrder :=
  let decision := cfg.venue.validateSubmit o.side o.price o.size o.tif o.postOnly
  if !decision.ok then { o with state := .rejected, rejectReason := decision.rejectReason }
  else
    { o with
      price := decision.adjustedPrice.getD o.price
      size := decision.adjustedSize.getD o.size
      venueReceivedAt := some (o.submittedAt + timedeltaMs latencyMs)
      state := .pending }

@[simp] lemma registered_orderId (cfg : MatchingConfig) (o : BacktestOrder) (ms : ℚ) :
    (registered cfg o ms).orderId = o.orderId := by
  unfold registered
  dsimp only
  split <;> rfl

/-- The latency decides nothing but the arrival. -/
lemma registered_eq {ms ms' : ℚ}
    (h : (registered cfg o ms).venueReceivedAt = (registered cfg o ms').venueReceivedAt) :
    registered cfg o ms = registered cfg o ms' := by
  unfold registered at h ⊢
  dsimp only at h ⊢
  split
  · rfl
  · next hok =>
    rw [if_neg hok, if_neg hok] at h
    have hsame : some (o.submittedAt + timedeltaMs ms) = some (o.submittedAt + timedeltaMs ms') := h
    rw [hsame]

/-- The parts of the engine that a submission leaves as they are: the working orders, the waiting
cancels, the books and the clock. -/
structure SameMarket (e e' : MatchingEngine) : Prop where
  working : e'.workingByToken = e.workingByToken
  cancels : e'.pendingCancels = e.pendingCancels
  books : e'.books = e.books
  now : e'.now = e.now

/-- A submission registers a new order and ignores one that is on record. -/
lemma step_submit (cfg : MatchingConfig) (e : MatchingEngine) (o : BacktestOrder) (hf : Fresh o) :
    SameMarket e (step cfg e (.submit o hf)) ∧ ∃ ms,
      (step cfg e (.submit o hf)).orders =
        if (e.orders.get? o.orderId).isSome then e.orders
        else e.orders.set o.orderId (registered cfg o ms) := by
  show SameMarket e ((e.submit cfg o).toOption.getD e) ∧ ∃ ms,
    ((e.submit cfg o).toOption.getD e).orders = _
  unfold submit registered
  by_cases hnew : e.orders.contains o.orderId = true
  · have hsome : (e.orders.get? o.orderId).isSome = true := hnew
    rw [if_pos hnew]
    exact ⟨⟨rfl, rfl, rfl, rfl⟩, 0, by rw [if_pos hsome]; rfl⟩
  · have hnone : ¬ (e.orders.get? o.orderId).isSome = true := hnew
    rw [if_neg hnew]
    dsimp only
    simp only [if_neg hnone]
    split
    · exact ⟨⟨rfl, rfl, rfl, rfl⟩, 0, rfl⟩
    · exact ⟨⟨rfl, rfl, rfl, rfl⟩, _, rfl⟩

/-- A new order with the proof that nothing of it is filled. -/
abbrev NewOrder := { o : BacktestOrder // Fresh o }

/-- The call that submits a new order. -/
def submitCall (o : NewOrder) : MatchingOp := .submit o.1 o.2

/-- The same snapshots, and between any two of them the same submissions in another order. -/
inductive Resubmitted : List MatchingOp → List MatchingOp → Prop
  | done : Resubmitted [] []
  | advanceTo {ops ops' : List MatchingOp} (snap : BookSnapshot) :
      Resubmitted ops ops' → Resubmitted (.advanceTo snap :: ops) (.advanceTo snap :: ops')
  | submits {os os' : List NewOrder} {ops ops' : List MatchingOp} (hperm : os.Perm os')
      (hdistinct : (os.map fun o => o.1.orderId).Nodup) :
      Resubmitted ops ops' → Resubmitted (os.map submitCall ++ ops) (os'.map submitCall ++ ops')

/-- Submissions register the new orders and leave everything else as it is. -/
lemma submits_spec (cfg : MatchingConfig) {os : List NewOrder}
    (hdistinct : (os.map fun o => o.1.orderId).Nodup) (e : MatchingEngine) :
    SameMarket e ((os.map submitCall).foldl (step cfg) e) ∧
      (∀ id o, e.orders.get? id = some o →
        ((os.map submitCall).foldl (step cfg) e).orders.get? id = some o) ∧
      (∀ id, e.orders.get? id = none → (∀ o ∈ os, o.1.orderId ≠ id) →
        ((os.map submitCall).foldl (step cfg) e).orders.get? id = none) ∧
      (∀ o ∈ os, e.orders.get? o.1.orderId = none → ∃ ms,
        ((os.map submitCall).foldl (step cfg) e).orders.get? o.1.orderId =
          some (registered cfg o.1 ms)) := by
  induction os generalizing e with
  | nil => exact ⟨⟨rfl, rfl, rfl, rfl⟩, fun _ _ h => h, fun _ h _ => h, by simp⟩
  | cons o os ih =>
    obtain ⟨hnot, hdistinct'⟩ := List.nodup_cons.1 hdistinct
    obtain ⟨hmarket, ms, horders⟩ := step_submit cfg e o.1 o.2
    obtain ⟨hmarket', hold, hnone, hnew⟩ := ih hdistinct' (step cfg e (submitCall o))
    have hother : ∀ id, id ≠ o.1.orderId →
        (step cfg e (submitCall o)).orders.get? id = e.orders.get? id := by
      intro id hne
      show (step cfg e (.submit o.1 o.2)).orders.get? id = _
      rw [horders]
      split
      · rfl
      · exact Dict.get?_set_of_ne _ _ (Ne.symm hne)
    refine ⟨⟨hmarket'.working.trans hmarket.working, hmarket'.cancels.trans hmarket.cancels,
      hmarket'.books.trans hmarket.books, hmarket'.now.trans hmarket.now⟩,
      fun id o₁ hget => hold id o₁ ?_, fun id hget hall => hnone id ?_ ?_, fun o₁ ho₁ hget => ?_⟩
    · by_cases hid : id = o.1.orderId
      · subst hid
        show (step cfg e (.submit o.1 o.2)).orders.get? _ = _
        rw [horders, if_pos (by rw [hget]; rfl)]
        exact hget
      · rw [hother id hid]
        exact hget
    · rw [hother id (Ne.symm (hall o List.mem_cons_self))]
      exact hget
    · exact fun o₁ ho₁ => hall o₁ (List.mem_cons_of_mem o ho₁)
    · rcases List.mem_cons.1 ho₁ with rfl | ho₁
      · refine ⟨ms, hold _ _ ?_⟩
        show (step cfg e (.submit o₁.1 o₁.2)).orders.get? _ = _
        rw [horders, if_neg (by rw [hget]; simp), Dict.get?_set_self]
      · refine hnew o₁ ho₁ ?_
        rw [hother, hget]
        intro heq
        have hmem : o₁.1.orderId ∈ os.map fun o => o.1.orderId :=
          List.mem_map_of_mem (f := fun o : NewOrder => o.1.orderId) ho₁
        rw [heq] at hmem
        exact hnot hmem

/-- The orders of the first engine arrive at the same times in the second. -/
def SameArrivals (e e' : MatchingEngine) : Prop :=
  ∀ id ∈ e.orders.keys, recordOf BacktestOrder.venueReceivedAt e' id =
    recordOf BacktestOrder.venueReceivedAt e id

instance (e e' : MatchingEngine) : Decidable (SameArrivals e e') :=
  inferInstanceAs (Decidable (∀ id ∈ e.orders.keys, _))

/-- The same submissions in another order, with the same arrivals, do the same to both. -/
lemma Interchangeable.submits (cfg : MatchingConfig) (h : Interchangeable e e') {os os' : List NewOrder}
    (hperm : os.Perm os') (hdistinct : (os.map fun o => o.1.orderId).Nodup)
    (harrivals : ∀ id r r', recordOf BacktestOrder.venueReceivedAt
        ((os.map submitCall).foldl (step cfg) e) id = some r →
      recordOf BacktestOrder.venueReceivedAt ((os'.map submitCall).foldl (step cfg) e') id =
        some r' → r' = r) :
    Interchangeable ((os.map submitCall).foldl (step cfg) e)
      ((os'.map submitCall).foldl (step cfg) e') := by
  have hdistinct' : (os'.map fun o => o.1.orderId).Nodup := (hperm.map _).nodup_iff.1 hdistinct
  obtain ⟨hmarket, hold, hnone, hnew⟩ := submits_spec cfg hdistinct e
  obtain ⟨hmarket', hold', hnone', hnew'⟩ := submits_spec cfg hdistinct' e'
  refine ⟨fun id => ?_, ?_, ?_, ?_, ?_⟩
  · cases hget : e.orders.get? id with
    | some o => rw [hold id o hget, hold' id o ((h.orders id).trans hget)]
    | none =>
      have hget' := (h.orders id).trans hget
      by_cases hall : ∀ o ∈ os, o.1.orderId ≠ id
      · rw [hnone id hget hall, hnone' id hget' fun o ho => hall o (hperm.mem_iff.2 ho)]
      · push Not at hall
        obtain ⟨o, ho, rfl⟩ := hall
        obtain ⟨ms, hreg⟩ := hnew o ho hget
        obtain ⟨ms', hreg'⟩ := hnew' o (hperm.mem_iff.1 ho) hget'
        have hsame := harrivals o.1.orderId _ _ (congrArg (Option.map _) hreg)
          (congrArg (Option.map _) hreg')
        rw [hreg, hreg', registered_eq hsame]
  · rw [hmarket'.working, hmarket.working, h.working]
  · rw [hmarket'.cancels, hmarket.cancels, h.cancels]
  · rw [hmarket'.books, hmarket.books, h.books]
  · rw [hmarket'.now, hmarket.now, h.now]

lemma producedBy_append (e : MatchingEngine) (ops ops' : List MatchingOp) :
    producedBy cfg e (ops ++ ops') =
      producedBy cfg e ops ++ producedBy cfg (ops.foldl (step cfg) e) ops' := by
  induction ops generalizing e with
  | nil => rfl
  | cons op ops ih => simp [producedBy, ih]

lemma producedBy_submits (e : MatchingEngine) (os : List NewOrder) :
    producedBy cfg e (os.map submitCall) = [] := by
  induction os generalizing e with
  | nil => rfl
  | cons o os ih => exact ih _

lemma wellFormed_foldl (hwf : WellFormed e) (ops : List MatchingOp) :
    WellFormed (ops.foldl (step cfg) e) :=
  foldl_invariant (I := WellFormed) (fun _ op h => wellFormed_step h op) hwf ops

/-- A snapshot that is older than the clock changes nothing; any other is an advance. -/
lemma step_advanceTo (cfg : MatchingConfig) (e : MatchingEngine) (snap : BookSnapshot) :
    ((∃ before ∈ e.now, snap.observedAt < before) ∧ step cfg e (.advanceTo snap) = e ∧
        produced cfg e (.advanceTo snap) = []) ∨
      ((∀ before ∈ e.now, before ≤ snap.observedAt) ∧
        step cfg e (.advanceTo snap) = (advance cfg snap e).1 ∧
        produced cfg e (.advanceTo snap) = (advance cfg snap e).2) := by
  rcases advanceTo_cases cfg e snap with ⟨⟨before, hb, hlt⟩, err, heq⟩ | ⟨hnow, heq⟩
  · refine .inl ⟨⟨before, hb, hlt⟩, ?_, ?_⟩
    · simp [step, heq, Except.toOption]
    · simp [produced, heq, Except.toOption]
  · refine .inr ⟨hnow, ?_, ?_⟩
    · simp [step, heq, Except.toOption]
    · simp [produced, heq, Except.toOption]

/-- In runs whose orders are admitted in turn, another order of submission produces the same
fills. -/
lemma producedBy_of_resubmitted {ops ops' : List MatchingOp} (hre : Resubmitted ops ops')
    (h : Interchangeable e e') (hwf : WellFormed e) (hwf' : WellFormed e')
    (harrivals : SameArrivals (ops.foldl (step cfg) e) (ops'.foldl (step cfg) e'))
    (hturn : EveryStep (step cfg) (InTurn cfg) e ops)
    (hturn' : EveryStep (step cfg) (InTurn cfg) e' ops') :
    producedBy cfg e' ops' = producedBy cfg e ops := by
  induction hre generalizing e e' with
  | done => rfl
  | @advanceTo ops ops' snap _ ih =>
    obtain ⟨hstep, hrest⟩ := hturn
    obtain ⟨hstep', hrest'⟩ := hturn'
    have hnext : Interchangeable (step cfg e (.advanceTo snap)) (step cfg e' (.advanceTo snap)) ∧
        produced cfg e' (.advanceTo snap) = produced cfg e (.advanceTo snap) := by
      rcases step_advanceTo cfg e snap with ⟨⟨before, hb, hlt⟩, hs, hp⟩ | ⟨hnow, hs, hp⟩ <;>
        rcases step_advanceTo cfg e' snap with ⟨⟨before', hb', hlt'⟩, hs', hp'⟩ | ⟨hnow', hs', hp'⟩
      · rw [hs, hs', hp, hp']
        exact ⟨h, rfl⟩
      · exact absurd hlt (not_lt.2 (hnow' before (by rw [h.now]; exact hb)))
      · exact absurd hlt' (not_lt.2 (hnow before' (by rw [← h.now]; exact hb')))
      · rw [hs, hs', hp, hp']
        exact h.advance hwf hwf' (hstep hnow) (hstep' hnow')
    show produced cfg e' _ ++ _ = produced cfg e _ ++ _
    rw [hnext.2, ih hnext.1 (wellFormed_step hwf _) (wellFormed_step hwf' _) harrivals hrest hrest']
  | @submits os os' ops ops' hperm hdistinct _ ih =>
    rw [List.foldl_append, List.foldl_append] at harrivals
    have hnext := h.submits cfg hperm hdistinct fun id r r' hr hr' => by
      have hlast := kept_venueReceivedAt.run cfg (wellFormed_foldl hwf _) ops hr
      have hlast' := kept_venueReceivedAt.run cfg (wellFormed_foldl hwf' _) ops' hr'
      obtain ⟨o, hget, -⟩ := Option.map_eq_some_iff.1 hlast
      rw [harrivals id (Dict.mem_keys.2 ⟨o, hget⟩), hlast] at hlast'
      exact (Option.some.inj hlast').symm
    rw [producedBy_append, producedBy_append, producedBy_submits, producedBy_submits,
      ih hnext (wellFormed_foldl hwf _) (wellFormed_foldl hwf' _) harrivals
        (EveryStep.append.1 hturn).2 (EveryStep.append.1 hturn').2]

end MatchingEngine

end Evosport.Backtest
