/-
Induction over one `advance_to` and over the runs of a matching engine.

An invariant of the loops of `advance_to` may assume that the engine is well formed and
that the snapshot of the interval is the book of its token (`Opened`), and it only has to
be checked on the cases of `Admission` and `Resting`.  A condition on the state before
each admission or match is carried along (`EveryOrder`).  `MatchingEngine.step` is one call
of a public operation; a call that raises leaves the engine as it was.
-/
import Evosport.Backtest.Transitions

namespace Evosport.Backtest

open Lib

namespace MatchingEngine

variable {cfg : MatchingConfig} {snap : BookSnapshot} {e : MatchingEngine} {fs : List Fill}

/-! ## The loops -/

/-- An invariant of a loop over orders, which may mention the orders that are still to
come and the fills produced so far. -/
lemma forOrders_induct {f : OrderId → MatchingEngine → MatchingEngine × List Fill}
    {C : MatchingEngine → OrderId → Prop}
    {I : List OrderId → MatchingEngine → List Fill → Prop}
    (hstep : ∀ id rest e fs, I (id :: rest) e fs → C e id →
      I rest (f id e).1 (fs ++ (f id e).2))
    {ids : List OrderId} (h : I ids e fs) (hc : EveryStep (fun e id => (f id e).1) C e ids) :
    I [] (forOrders f ids e).1 (fs ++ (forOrders f ids e).2) := by
  induction ids generalizing e fs with
  | nil => simpa [forOrders] using h
  | cons id rest ih =>
    have hrest := ih (hstep id rest e fs h hc.1) hc.2
    simpa [forOrders] using hrest

/-- The fills of a loop all meet `P` exactly when those of every turn do. -/
lemma forOrders_forall_iff {f : OrderId → MatchingEngine → MatchingEngine × List Fill}
    {P : Fill → Prop} {ids : List OrderId} :
    (∀ x ∈ (forOrders f ids e).2, P x) ↔
      EveryStep (fun e id => (f id e).1) (fun e id => ∀ x ∈ (f id e).2, P x) e ids := by
  induction ids generalizing e with
  | nil => simp [forOrders]
  | cons id ids ih =>
    simp only [forOrders, List.mem_append, EveryStep, ← ih]
    constructor
    · intro h
      exact ⟨fun x hx => h x (.inl hx), fun x hx => h x (.inr hx)⟩
    · rintro ⟨hfirst, hrest⟩ x (hx | hx)
      · exact hfirst x hx
      · exact hrest x hx

/-- The interval of a snapshot is open: the clock shows its time and it is the book of its
token. -/
structure Opened (snap : BookSnapshot) (e : MatchingEngine) : Prop where
  now : e.now = some snap.observedAt
  book : (e.books.get? snap.tokenId).map ResidualBook.snapshot = some snap

lemma Opened.exists_book (h : Opened snap e) :
    ∃ book, e.books.get? snap.tokenId = some book ∧ book.snapshot = snap :=
  Option.map_eq_some_iff.1 h.book

lemma Opened.effect {o o' : BacktestOrder} {e' : MatchingEngine} (h : Opened snap e)
    (he : Effect e o fs o' e') : Opened snap e' :=
  ⟨he.now.trans h.now, (he.snapshots snap.tokenId).trans h.book⟩

/-- The state of the loops: what every invariant may assume. -/
structure InInterval (snap : BookSnapshot) (e : MatchingEngine) : Prop where
  wellFormed : WellFormed e
  opened : Opened snap e

/-- What can be said of an order that is about to be admitted: it is a pending order of the engine,
its venue has received it, and there is a book of its token to admit it to. -/
structure Admissible (snap : BookSnapshot) (e : MatchingEngine) (o : BacktestOrder)
    (book : ResidualBook) : Prop where
  order : e.orders.get? o.orderId = some o
  tokenId : o.tokenId = snap.tokenId
  state : o.state = .pending
  due : isDue snap.tokenId snap.observedAt o = true
  bookOf : e.books.get? o.tokenId = some book
  snapshot : book.snapshot = snap

/-- What can be said of an order that is about to be matched while it rests. -/
structure Matchable (snap : BookSnapshot) (e : MatchingEngine) (o : BacktestOrder)
    (book : ResidualBook) : Prop where
  order : e.orders.get? o.orderId = some o
  tokenId : o.tokenId = snap.tokenId
  resting : o.IsResting
  working : o.orderId ∈ e.workingIds o.tokenId
  bookOf : e.books.get? o.tokenId = some book
  snapshot : book.snapshot = snap

lemma Admissible.isTerminal {o : BacktestOrder} {book : ResidualBook}
    (h : Admissible snap e o book) : o.isTerminal = false := by
  rw [BacktestOrder.isTerminal, h.state]
  rfl

lemma Admissible.effect {o : BacktestOrder} {book : ResidualBook} {e' : MatchingEngine}
    (hi : InInterval snap e) (h : Admissible snap e o book) (ha : Admission cfg e o book e' fs) :
    ∃ o', Effect e o fs o' e' := by
  refine ha.effect h.bookOf (hi.wellFormed.workingIds_of_pending h.order h.state _) ?_
  rw [(hi.wellFormed.booked h.order).filled, hi.wellFormed.fresh h.order h.state]
  rfl

lemma Matchable.effect {o : BacktestOrder} {book : ResidualBook} {e' : MatchingEngine}
    (h : Matchable snap e o book) (hm : Resting cfg e o book e' fs) :
    (e' = e ∧ fs = []) ∨ ∃ o', Effect e o fs o' e' :=
  hm.effect h.bookOf h.resting h.working

variable (cfg) in
/-- One turn of step 3 on a due order is an admission. -/
lemma admitOne_of_due {o : BacktestOrder} {id : OrderId} (hi : InInterval snap e)
    (hget : e.orders.get? id = some o) (hdue : isDue snap.tokenId snap.observedAt o = true) :
    ∃ book, o.orderId = id ∧ Admissible snap e o book ∧
      Admission cfg e o book (admitOne cfg snap id e).1 (admitOne cfg snap id e).2 := by
  have hid := hi.wellFormed.keyed hget
  have hdue' := hdue
  simp only [isDue, Bool.and_eq_true, decide_eq_true_eq] at hdue'
  obtain ⟨⟨htok, hstate⟩, -⟩ := hdue'
  obtain ⟨book, hbook, hsnap⟩ := hi.opened.exists_book
  rw [← htok] at hbook
  have hadm : Admissible snap e o book :=
    ⟨by rw [hid]; exact hget, htok, hstate, hdue, hbook, hsnap⟩
  refine ⟨book, hid, hadm, ?_⟩
  unfold admitOne
  simp only [hget, hdue, if_true]
  exact handleAdmit_cases hadm.isTerminal hbook

variable (cfg) in
/-- One turn of step 3: nothing, or an admission. -/
lemma admitOne_cases (hi : InInterval snap e) (id : OrderId) :
    admitOne cfg snap id e = (e, []) ∨
      ∃ o book, o.orderId = id ∧ Admissible snap e o book ∧
        Admission cfg e o book (admitOne cfg snap id e).1 (admitOne cfg snap id e).2 := by
  cases hget : e.orders.get? id with
  | none => exact .inl (by simp [admitOne, hget])
  | some o =>
    by_cases hdue : isDue snap.tokenId snap.observedAt o = true
    · obtain ⟨book, hid, hadm, hcase⟩ := admitOne_of_due cfg hi hget hdue
      exact .inr ⟨o, book, hid, hadm, hcase⟩
    · exact .inl (by simp [admitOne, hget, hdue])

variable (cfg) in
/-- One turn of step 4 on an order of the working list: nothing, or a match. -/
lemma matchOne_cases (hi : InInterval snap e) {id : OrderId}
    (hmem : id ∈ e.workingIds snap.tokenId) :
    ∃ o book, o.orderId = id ∧ Matchable snap e o book ∧
      Resting cfg e o book (matchOne cfg id e).1 (matchOne cfg id e).2 := by
  obtain ⟨o, hget, htok, hrest⟩ := hi.wellFormed.working hmem
  have hid := hi.wellFormed.keyed hget
  obtain ⟨book, hbook, hsnap⟩ := hi.opened.exists_book
  rw [← htok] at hbook hmem
  refine ⟨o, book, hid, ⟨by rw [hid]; exact hget, htok, hrest, by rw [hid]; exact hmem, hbook,
    hsnap⟩, ?_⟩
  unfold matchOne
  simp only [hget, hrest.isTerminal, Bool.false_eq_true, if_false]
  exact tryMatchResting_cases hrest.isTerminal hbook

/-- The state before each admission meets `C`. -/
def EveryAdmission (cfg : MatchingConfig) (snap : BookSnapshot)
    (C : MatchingEngine → OrderId → Prop) (e : MatchingEngine) : Prop :=
  EveryStep (fun e id => (admitOne cfg snap id e).1) C e e.orders.keys

/-- The state before each match of a resting order meets `C`. -/
def EveryMatch (cfg : MatchingConfig) (snap : BookSnapshot)
    (C : MatchingEngine → OrderId → Prop) (e : MatchingEngine) : Prop :=
  EveryStep (fun e id => (matchOne cfg id e).1) C e (e.workingIds snap.tokenId)

variable (cfg) in
/-- An invariant of step 3. -/
lemma admitAll_induct {C : MatchingEngine → OrderId → Prop}
    {J : MatchingEngine → List Fill → Prop}
    (hstep : ∀ {e o book e' fs fs'}, InInterval snap e → J e fs → Admissible snap e o book →
      Admission cfg e o book e' fs' → C e o.orderId → J e' (fs ++ fs'))
    (hi : InInterval snap e) (h : J e []) (hc : EveryAdmission cfg snap C e) :
    InInterval snap (admitAll cfg snap e).1 ∧
      J (admitAll cfg snap e).1 (admitAll cfg snap e).2 := by
  refine forOrders_induct (I := fun _ e fs => InInterval snap e ∧ J e fs)
    (fun id rest e fs hI hC => ?_) ⟨hi, h⟩ hc
  rcases admitOne_cases cfg hI.1 id with heq | ⟨o, book, rfl, hadm, hcase⟩
  · rw [heq, List.append_nil]
    exact hI
  · obtain ⟨o', heff⟩ := hadm.effect hI.1 hcase
    exact ⟨⟨hI.1.wellFormed.effect hadm.order hadm.isTerminal heff, hI.1.opened.effect heff⟩,
      hstep hI.1 hI.2 hadm hcase hC⟩

/-- The orders that step 4 still has to match: resting orders of the token, each once. -/
structure MatchQueue (snap : BookSnapshot) (ids : List OrderId) (e : MatchingEngine) : Prop where
  inInterval : InInterval snap e
  nodup : ids.Nodup
  working : ∀ id ∈ ids, id ∈ e.workingIds snap.tokenId

lemma InInterval.matchQueue (hi : InInterval snap e) :
    MatchQueue snap (e.workingIds snap.tokenId) e :=
  ⟨hi, hi.wellFormed.nodup snap.tokenId, fun _ hid => hid⟩

variable (cfg) in
/-- One turn of step 4 leaves the other orders of the queue where they are. -/
lemma MatchQueue.next {id : OrderId} {ids : List OrderId} (h : MatchQueue snap (id :: ids) e) :
    MatchQueue snap ids (matchOne cfg id e).1 := by
  obtain ⟨hi, hnodup, hwork⟩ := h
  obtain ⟨hnot, hnodup'⟩ := List.nodup_cons.1 hnodup
  obtain ⟨o, book, rfl, hm, hcase⟩ := matchOne_cases cfg hi (hwork id List.mem_cons_self)
  have hwork' := fun id hid => hwork id (List.mem_cons_of_mem _ hid)
  rcases hm.effect hcase with ⟨heq, -⟩ | ⟨o', heff⟩
  · rw [heq]
    exact ⟨hi, hnodup', hwork'⟩
  · refine ⟨⟨hi.wellFormed.effect hm.order hm.resting.isTerminal heff, hi.opened.effect heff⟩,
      hnodup', fun id hid => ?_⟩
    -- the orders still to come are not the one just matched
    have hne : id ≠ o.orderId := by
      rintro rfl
      exact hnot hid
    cases heff.ends with
    | finished _ _ hw =>
      rw [hw, if_pos hm.tokenId.symm]
      exact (List.mem_erase_of_ne hne).2 (hwork' id hid)
    | rests _ _ hw =>
      rw [hw, if_pos hm.tokenId.symm, withWorking, if_pos (by rw [← hm.tokenId]; exact hm.working)]
      exact hwork' id hid

variable (cfg) in
/-- An invariant of step 4. -/
lemma matchAll_induct {C : MatchingEngine → OrderId → Prop}
    {J : MatchingEngine → List Fill → Prop}
    (hstep : ∀ {e o book e' fs fs'}, InInterval snap e → J e fs → Matchable snap e o book →
      Resting cfg e o book e' fs' → C e o.orderId → J e' (fs ++ fs'))
    (hi : InInterval snap e) (h : J e fs) (hc : EveryMatch cfg snap C e) :
    InInterval snap (matchAll cfg snap e).1 ∧
      J (matchAll cfg snap e).1 (fs ++ (matchAll cfg snap e).2) := by
  have hrule := forOrders_induct (C := C) (f := matchOne cfg)
    (I := fun ids e fs => MatchQueue snap ids e ∧ J e fs) (fun id ids e fs hI hC => ?_)
    ⟨hi.matchQueue, h⟩ hc
  · exact ⟨hrule.1.inInterval, hrule.2⟩
  obtain ⟨hqueue, hJ⟩ := hI
  obtain ⟨o, book, rfl, hm, hcase⟩ :=
    matchOne_cases cfg hqueue.inInterval (hqueue.working id List.mem_cons_self)
  exact ⟨hqueue.next cfg, hstep hqueue.inInterval hJ hm hcase hC⟩

/-! ## Opening the interval -/

/-- `e` and `e'` have the same orders, indexes and ledger; they may differ in their books, their
clocks and the cancels that wait. -/
structure SameOrders (e e' : MatchingEngine) : Prop where
  orders : e'.orders = e.orders
  workingByToken : e'.workingByToken = e.workingByToken
  activeCountByToken : e'.activeCountByToken = e.activeCountByToken
  allFills : e'.allFills = e.allFills

lemma WellFormed.sameOrders {e' : MatchingEngine} (h : WellFormed e) (hs : SameOrders e e') :
    WellFormed e' := by
  have hworking : ∀ t, e'.workingIds t = e.workingIds t := by
    intro t
    rw [workingIds, hs.workingByToken]
    rfl
  constructor
  · intro id o hget
    exact h.keyed (hs.orders ▸ hget)
  · intro id o hget
    exact h.booked (hs.orders ▸ hget)
  · intro id o hget
    exact h.fresh (hs.orders ▸ hget)
  · intro t
    rw [hworking]
    exact h.nodup t
  · intro t id hmem
    rw [hworking] at hmem
    rw [hs.orders]
    exact h.working hmem
  · intro t
    rw [hs.activeCountByToken, hs.orders]
    exact h.counted t

/-- An invariant that survives cancellations and rewritings without a change of state. -/
structure Interim (I : MatchingEngine → Prop) : Prop where
  sameOrders : ∀ {e e'}, I e → SameOrders e e' → I e'
  cancelled : ∀ {e o o' e'}, WellFormed e → I e → e.orders.get? o.orderId = some o →
    o.isTerminal = false → Effect e o [] o' e' → o'.state = .cancelled → I e'
  touched : ∀ {e o o' e'}, WellFormed e → I e → e.orders.get? o.orderId = some o →
    o.isTerminal = false → Touch e o o' e' → I e'

variable {I : MatchingEngine → Prop}

lemma Interim.wellFormed : Interim WellFormed where
  sameOrders := WellFormed.sameOrders
  cancelled _ h hget hlive he _ := h.effect hget hlive he
  touched _ h hget _ ht := h.touch hget ht

lemma applyCancel_induct (hI : Interim I) (hwf : WellFormed e) (h : I e) (id : OrderId)
    (at_ : Time) : WellFormed (e.applyCancel id at_) ∧ I (e.applyCancel id at_) := by
  cases hget : e.orders.get? id with
  | none =>
    have heq : e.applyCancel id at_ = e := by
      unfold applyCancel
      rw [hget]
    rw [heq]
    exact ⟨hwf, h⟩
  | some o =>
    by_cases hterm : o.isTerminal = true
    · have heq : e.applyCancel id at_ = e := by
        unfold applyCancel
        simp only [hget, hterm, if_true]
      rw [heq]
      exact ⟨hwf, h⟩
    · have hlive : o.isTerminal = false := by simpa using hterm
      have hid := hwf.keyed hget
      have hget' : e.orders.get? o.orderId = some o := by rw [hid]; exact hget
      obtain ⟨o', heff, hstate⟩ := applyCancel_effect hget hlive at_
        fun hmem => (hwf.isResting_of_mem hget' hmem).1
      exact ⟨hwf.effect hget' hlive heff, hI.cancelled hwf h hget' hlive heff hstate⟩

lemma applyDueCancels_induct (hI : Interim I) (now : Time) (due : List (OrderId × Time))
    (hwf : WellFormed e) (h : I e) :
    WellFormed (applyDueCancels now due e) ∧ I (applyDueCancels now due e) := by
  induction due generalizing e with
  | nil => exact ⟨hwf, h⟩
  | cons c due ih =>
    obtain ⟨id, at_⟩ := c
    unfold applyDueCancels
    split
    · obtain ⟨hwf', h'⟩ := applyCancel_induct hI hwf h id at_
      have hsame : SameOrders (e.applyCancel id at_)
          { e.applyCancel id at_ with
            pendingCancels := (e.applyCancel id at_).pendingCancels.erase id } :=
        ⟨rfl, rfl, rfl, rfl⟩
      exact ih (hwf'.sameOrders hsame) (hI.sameOrders h' hsame)
    · exact ih hwf h

/-- The queue decay of a live order touches it; a terminal order stays as it is. -/
lemma decayQueue_touch (cfg : MatchingConfig) (oldBook : ResidualBook) (newSnap : BookSnapshot)
    (o : BacktestOrder) :
    decayQueue cfg oldBook newSnap o = o ∨
      (o.isTerminal = false ∧ o.Relabel (decayQueue cfg oldBook newSnap o) ∧
        (decayQueue cfg oldBook newSnap o).state = o.state) := by
  unfold decayQueue
  cases o.queueAheadShares with
  | none => exact .inl rfl
  | some queue =>
    by_cases h : o.isTerminal = true ∨ queue ≤ 0
    · simp [h]
    · push Not at h
      simp only [h.1, not_le.2 h.2]
      exact .inr ⟨by simp, .update, rfl⟩

/-- Writing an order back under its own key changes nothing. -/
lemma putOrder_self {o : BacktestOrder} (hget : e.orders.get? o.orderId = some o) :
    e.putOrder o = e := by
  have hset : e.orders.set o.orderId o = e.orders := by
    refine Dict.ext_get? (Dict.keys_set_of_some hget o) fun k => ?_
    rw [Dict.get?_set]
    split
    · next hk => rw [← hk, hget]
    · rfl
  rw [putOrder, hset]

lemma decayQueues_induct (hI : Interim I) (oldBook : ResidualBook) (newSnap : BookSnapshot)
    (ids : List OrderId) (hwf : WellFormed e) (h : I e) :
    WellFormed (decayQueues cfg oldBook newSnap ids e) ∧
      I (decayQueues cfg oldBook newSnap ids e) := by
  induction ids generalizing e with
  | nil => exact ⟨hwf, h⟩
  | cons id ids ih =>
    unfold decayQueues
    cases hget : e.orders.get? id with
    | none => exact ih hwf h
    | some o =>
      have hget' : e.orders.get? o.orderId = some o := by rw [hwf.keyed hget]; exact hget
      rcases decayQueue_touch cfg oldBook newSnap o with heq | ⟨hlive, hr, hstate⟩
      · simp only [heq, putOrder_self hget']
        exact ih hwf h
      · have ht : Touch e o (decayQueue cfg oldBook newSnap o)
            (e.putOrder (decayQueue cfg oldBook newSnap o)) := by
          refine ⟨?_, hr, hstate, rfl, rfl, rfl, rfl, rfl⟩
          rw [← hr.orderId]
          rfl
        exact ih (hwf.touch hget' ht) (hI.touched hwf h hget' hlive ht)

lemma decayQueues_frame (cfg : MatchingConfig) (oldBook : ResidualBook) (newSnap : BookSnapshot)
    (ids : List OrderId) (e : MatchingEngine) :
    ∃ orders, decayQueues cfg oldBook newSnap ids e = { e with orders := orders } := by
  induction ids generalizing e with
  | nil => exact ⟨e.orders, rfl⟩
  | cons id ids ih =>
    unfold decayQueues
    split
    · exact ih e
    · obtain ⟨orders, h⟩ := ih (e.putOrder _)
      exact ⟨orders, h⟩

/-- A cancel leaves the time and the books alone. -/
lemma applyCancel_frame (e : MatchingEngine) (id : OrderId) (at_ : Time) :
    (e.applyCancel id at_).now = e.now ∧ (e.applyCancel id at_).books = e.books := by
  have hterm : ∀ o state, (e.terminate o state).now = e.now ∧
      (e.terminate o state).books = e.books := by
    intro o state
    unfold terminate
    split <;> exact ⟨rfl, rfl⟩
  have hremove : ∀ (e₁ : MatchingEngine) o, (e₁.removeFromWorking o).now = e₁.now ∧
      (e₁.removeFromWorking o).books = e₁.books := by
    intro e₁ o
    obtain ⟨w, hw⟩ := removeFromWorking_eq e₁ o
    rw [hw]
    exact ⟨rfl, rfl⟩
  have hboth : ∀ o o' state, ((e.terminate o state).removeFromWorking o').now = e.now ∧
      ((e.terminate o state).removeFromWorking o').books = e.books := fun o o' state =>
    ⟨(hremove _ _).1.trans (hterm _ _).1, (hremove _ _).2.trans (hterm _ _).2⟩
  unfold applyCancel
  split
  · exact ⟨rfl, rfl⟩
  split
  · exact ⟨rfl, rfl⟩
  split
  · exact hboth _ _ _
  · exact hboth _ _ _
  · exact hterm _ _

lemma applyDueCancels_frame (now : Time) (due : List (OrderId × Time)) (e : MatchingEngine) :
    (applyDueCancels now due e).now = e.now ∧ (applyDueCancels now due e).books = e.books := by
  induction due generalizing e with
  | nil => exact ⟨rfl, rfl⟩
  | cons c due ih =>
    unfold applyDueCancels
    split
    · obtain ⟨hnow, hbooks⟩ := applyCancel_frame e c.1 c.2
      exact ⟨(ih _).1.trans hnow, (ih _).2.trans hbooks⟩
    · exact ih e

/-- The new book of the token is the snapshot, and nothing has been consumed of it. -/
lemma refreshBook_frame (cfg : MatchingConfig) (snap : BookSnapshot) (e : MatchingEngine) :
    ∃ orders, refreshBook cfg snap e =
      { e with books := e.books.set snap.tokenId { snapshot := snap }, orders := orders } := by
  unfold refreshBook
  split
  · exact ⟨e.orders, rfl⟩
  · obtain ⟨orders, h⟩ := decayQueues_frame cfg _ snap _
      { e with books := e.books.set snap.tokenId { snapshot := snap } }
    exact ⟨orders, h⟩

variable (cfg) in
lemma refreshBook_induct (hI : Interim I) (snap : BookSnapshot) (hwf : WellFormed e) (h : I e) :
    WellFormed (refreshBook cfg snap e) ∧ I (refreshBook cfg snap e) := by
  have hsame : SameOrders e { e with books := e.books.set snap.tokenId { snapshot := snap } } :=
    ⟨rfl, rfl, rfl, rfl⟩
  unfold refreshBook
  split
  · exact ⟨hwf.sameOrders hsame, hI.sameOrders h hsame⟩
  · exact decayQueues_induct hI _ _ _ (hwf.sameOrders hsame) (hI.sameOrders h hsame)

variable (cfg) in
/-- The interval opens: the invariant survives, and the snapshot is the book of its token. -/
lemma openInterval_induct (hI : Interim I) (snap : BookSnapshot) (hwf : WellFormed e)
    (h : I e) : InInterval snap (openInterval cfg snap e) ∧ I (openInterval cfg snap e) := by
  have hsame : SameOrders e { e with now := some snap.observedAt } := ⟨rfl, rfl, rfl, rfl⟩
  have hcancels := applyDueCancels_induct hI snap.observedAt e.pendingCancels.entries
    (hwf.sameOrders hsame) (hI.sameOrders h hsame)
  have hrefresh := refreshBook_induct cfg hI snap hcancels.1 hcancels.2
  refine ⟨⟨hrefresh.1, ?_⟩, hrefresh.2⟩
  obtain ⟨orders, horders⟩ := refreshBook_frame cfg snap
    (applyDueCancels snap.observedAt e.pendingCancels.entries
      { e with now := some snap.observedAt })
  constructor
  · show (refreshBook cfg snap _).now = _
    rw [horders]
    exact (applyDueCancels_frame _ _ _).1
  · show ((refreshBook cfg snap _).books.get? snap.tokenId).map _ = _
    rw [horders]
    simp

/-- The freshly opened book shows the whole snapshot. -/
lemma openInterval_book (cfg : MatchingConfig) (snap : BookSnapshot) (e : MatchingEngine) :
    (openInterval cfg snap e).books.get? snap.tokenId = some { snapshot := snap } := by
  obtain ⟨orders, horders⟩ := refreshBook_frame cfg snap
    (applyDueCancels snap.observedAt e.pendingCancels.entries
      { e with now := some snap.observedAt })
  show (refreshBook cfg snap _).books.get? snap.tokenId = _
  rw [horders]
  simp

/-! ## One advance -/

/-- Every admission of an advance meets `A` and every match of a resting order meets `M`, in
the state before it. -/
def EveryOrder (cfg : MatchingConfig) (snap : BookSnapshot)
    (A M : MatchingEngine → OrderId → Prop) (e : MatchingEngine) : Prop :=
  EveryAdmission cfg snap A (openInterval cfg snap e) ∧
    EveryMatch cfg snap M (admitAll cfg snap (openInterval cfg snap e)).1

instance (cfg : MatchingConfig) (snap : BookSnapshot) (A M : MatchingEngine → OrderId → Prop)
    [∀ e id, Decidable (A e id)] [∀ e id, Decidable (M e id)] (e : MatchingEngine) :
    Decidable (EveryOrder cfg snap A M e) :=
  inferInstanceAs (Decidable (EveryStep _ A _ _ ∧ EveryStep _ M _ _))

lemma everyOrder_true (cfg : MatchingConfig) (snap : BookSnapshot) (e : MatchingEngine) :
    EveryOrder cfg snap (fun _ _ => True) (fun _ _ => True) e :=
  ⟨.of_forall fun _ _ => trivial, .of_forall fun _ _ => trivial⟩

variable (cfg snap) in
/-- An invariant of one advance: it holds once the interval is open, and every admission and
every match preserve it. -/
lemma advance_induct {A M : MatchingEngine → OrderId → Prop}
    {J : MatchingEngine → List Fill → Prop} (hwf : WellFormed e)
    (hopen : InInterval snap (openInterval cfg snap e) → J (openInterval cfg snap e) [])
    (hadmission : ∀ {e o book e' fs fs'}, InInterval snap e → J e fs → Admissible snap e o book →
      Admission cfg e o book e' fs' → A e o.orderId → J e' (fs ++ fs'))
    (hmatch : ∀ {e o book e' fs fs'}, InInterval snap e → J e fs → Matchable snap e o book →
      Resting cfg e o book e' fs' → M e o.orderId → J e' (fs ++ fs'))
    (hc : EveryOrder cfg snap A M e) :
    ∃ e₁, InInterval snap e₁ ∧ J e₁ (advance cfg snap e).2 ∧
      (advance cfg snap e).1 =
        { e₁ with allFills := e₁.allFills ++ (advance cfg snap e).2 } := by
  have hin := (openInterval_induct cfg Interim.wellFormed snap hwf hwf).1
  obtain ⟨hin', hJ⟩ := admitAll_induct cfg hadmission hin (hopen hin) hc.1
  obtain ⟨hin'', hJ'⟩ := matchAll_induct cfg hmatch hin' hJ hc.2
  exact ⟨_, hin'', hJ', rfl⟩

variable (cfg) in
lemma wellFormed_advance (h : WellFormed e) (snap : BookSnapshot) :
    WellFormed (advance cfg snap e).1 := by
  obtain ⟨e₁, hin, -, heq⟩ := advance_induct cfg snap (J := fun _ _ => True) h (fun _ => trivial)
    (fun _ _ _ _ _ => trivial) (fun _ _ _ _ _ => trivial) (everyOrder_true cfg snap e)
  rw [heq]
  have hwf := hin.wellFormed
  exact ⟨hwf.keyed, hwf.booked, hwf.fresh, hwf.nodup, hwf.working, hwf.counted⟩

variable (cfg) in
/-- The same rule for an invariant that every effect preserves, whatever led to it. -/
lemma advance_effects {J : MatchingEngine → List Fill → Prop} (h : WellFormed e)
    (snap : BookSnapshot) (hopen : J (openInterval cfg snap e) [])
    (hJ : ∀ {e o o' e' fs fs'}, InInterval snap e → J e fs → e.orders.get? o.orderId = some o →
      o.tokenId = snap.tokenId → o.isTerminal = false → Effect e o fs' o' e' → J e' (fs ++ fs')) :
    ∃ e₁, InInterval snap e₁ ∧ J e₁ (advance cfg snap e).2 ∧
      (advance cfg snap e).1 =
        { e₁ with allFills := e₁.allFills ++ (advance cfg snap e).2 } := by
  refine advance_induct cfg snap h (fun _ => hopen) ?_ ?_ (everyOrder_true cfg snap e)
  · intro e o book e' fs fs' hi hj hadm hcase _
    obtain ⟨o', heff⟩ := hadm.effect hi hcase
    exact hJ hi hj hadm.order hadm.tokenId hadm.isTerminal heff
  · intro e o book e' fs fs' hi hj hm hcase _
    rcases hm.effect hcase with ⟨rfl, rfl⟩ | ⟨o', heff⟩
    · rw [List.append_nil]
      exact hj
    · exact hJ hi hj hm.order hm.tokenId hm.resting.isTerminal heff

variable (cfg) in
/-- The ledger grows by the fills of the advance. -/
lemma allFills_advance (h : WellFormed e) (snap : BookSnapshot) :
    (advance cfg snap e).1.allFills = e.allFills ++ (advance cfg snap e).2 := by
  have hopen : Interim fun e₁ : MatchingEngine => e₁.allFills = e.allFills :=
    ⟨fun h hs => hs.allFills.trans h, fun _ h _ _ he _ => he.allFills.trans h,
      fun _ h _ _ ht => ht.allFills.trans h⟩
  obtain ⟨e₁, -, hledger, heq⟩ := advance_effects cfg
    (J := fun e₁ _ => e₁.allFills = e.allFills) h snap
    (openInterval_induct cfg hopen snap h rfl).2
    (fun _ hJ _ _ _ heff => heff.allFills.trans hJ)
  rw [heq, hledger]

variable (cfg) in
/-- An advance fills orders of its own token only, and only with positive sizes. -/
lemma advance_fills (h : WellFormed e) (snap : BookSnapshot) :
    ∀ f ∈ (advance cfg snap e).2, f.tokenId = snap.tokenId ∧ 0 < f.size := by
  obtain ⟨e₁, -, hfills, -⟩ := advance_effects cfg
    (J := fun _ fs => ∀ f ∈ fs, f.tokenId = snap.tokenId ∧ 0 < f.size) h snap (by simp) (by
      intro e o o' e' fs fs' _ hJ _ htok _ heff f hf
      rcases List.mem_append.1 hf with hf | hf
      · exact hJ f hf
      · obtain ⟨o₁, hwalk, -⟩ := heff.walk
        obtain ⟨-, ht, -, hpos⟩ := hwalk.own hf
        exact ⟨ht.trans htok, hpos⟩)
  exact hfills

/-! ## Submitting and cancelling -/

/-- An order as its caller constructs it. -/
structure Fresh (o : BacktestOrder) : Prop where
  fills : o.fills = []
  filledSize : o.filledSize = 0

/-- The size under which a submitted order is kept. -/
def submittedSize (cfg : MatchingConfig) (o : BacktestOrder) : ℚ :=
  let decision := cfg.venue.validateSubmit o.side o.price o.size o.tif o.postOnly
  if decision.ok then decision.adjustedSize.getD o.size else o.size

/-- The new order `o` enters the engine as `o'`: its identifier was free, it is pending or turned
down, nothing of it is filled, and the rest of the engine stays as it was. -/
structure Submitted (cfg : MatchingConfig) (e : MatchingEngine) (o o' : BacktestOrder)
    (e' : MatchingEngine) : Prop where
  new : e.orders.get? o'.orderId = none
  orders : e'.orders = e.orders.set o'.orderId o'
  orderId : o'.orderId = o.orderId
  tokenId : o'.tokenId = o.tokenId
  side : o'.side = o.side
  strategySlug : o'.strategySlug = o.strategySlug
  fresh : Fresh o'
  state : o'.state = .rejected ∨ o'.state = .pending
  size : o'.size = submittedSize cfg o
  count : ∀ t, (e'.activeCountByToken.getD t 0 : ℤ) =
    e.activeCountByToken.getD t 0 + liveOn t o'.orderId o'
  working : e'.workingByToken = e.workingByToken
  books : e'.books = e.books
  allFills : e'.allFills = e.allFills
  now : e'.now = e.now
  pendingCancels : e'.pendingCancels = e.pendingCancels

/-- What `submit` does when it does not raise: a new order is turned down, or it is pending
and counted. -/
lemma submit_cases {o : BacktestOrder} {e' : MatchingEngine} (hf : Fresh o)
    (h : e.submit cfg o = .ok e') : ∃ o', Submitted cfg e o o' e' := by
  unfold submit at h
  by_cases hnew : e.orders.contains o.orderId = true
  · rw [if_pos hnew] at h
    cases h
  rw [if_neg hnew] at h
  have hnew' : e.orders.get? o.orderId = none := by simpa [Dict.contains] using hnew
  simp only at h
  split at h
  · next hno =>
    cases h
    refine ⟨{ o with state := .rejected, rejectReason := _ }, hnew', rfl, rfl, rfl, rfl, rfl,
      ⟨hf.fills, hf.filledSize⟩, .inl rfl, ?_, fun t => ?_, rfl, rfl, rfl, rfl, rfl⟩
    · rw [submittedSize, if_neg (by simpa using hno)]
    rw [liveOn_of_terminal rfl, add_zero]
    rfl
  · next hok =>
    cases h
    refine ⟨{ o with price := _, size := _, venueReceivedAt := some _, state := .pending }, hnew',
      rfl, rfl, rfl, rfl, rfl, ⟨hf.fills, hf.filledSize⟩, .inr rfl, ?_, fun t => ?_, rfl, rfl,
      rfl, rfl, rfl⟩
    · rw [submittedSize, if_pos (by simpa using hok)]
    rw [liveOn_of_live rfl]
    by_cases ht : t = o.tokenId
    · subst ht
      simp [Dict.getD]
    · simp [Dict.getD, Dict.get?_set_of_ne _ _ (Ne.symm ht), ht]

lemma booked_fresh {o : BacktestOrder} (h : Fresh o) : o.Booked := by
  constructor
  · rw [h.fills, h.filledSize]
    rfl
  · rw [h.filledSize]
    exact le_max_left _ _
  · rw [h.fills, h.filledSize, mul_zero]
    rfl
  · rw [h.fills]
    rfl
  · rw [h.fills]
    rintro f ⟨⟩

lemma WellFormed.submitted {o o' : BacktestOrder} {e' : MatchingEngine} (h : WellFormed e)
    (hs : Submitted cfg e o o' e') : WellFormed e' := by
  have hget : ∀ id, e'.orders.get? id =
      if o'.orderId = id then some o' else e.orders.get? id := by
    intro id
    rw [hs.orders, Dict.get?_set]
  have hworking : ∀ t, e'.workingIds t = e.workingIds t := by
    intro t
    rw [workingIds, hs.working]
    rfl
  constructor
  · intro id o₂ hg
    rw [hget] at hg
    split at hg
    · next heq => cases hg; exact heq
    · exact h.keyed hg
  · intro id o₂ hg
    rw [hget] at hg
    split at hg
    · cases hg
      exact booked_fresh hs.fresh
    · exact h.booked hg
  · intro id o₂ hg hstate
    rw [hget] at hg
    split at hg
    · cases hg
      exact hs.fresh.fills
    · exact h.fresh hg hstate
  · intro t
    rw [hworking]
    exact h.nodup t
  · intro t id hmem
    rw [hworking] at hmem
    obtain ⟨o₂, hg, htok, hrest⟩ := h.working hmem
    refine ⟨o₂, ?_, htok, hrest⟩
    rw [hget, if_neg]
    · exact hg
    · rintro rfl
      rw [hs.new] at hg
      cases hg
  · intro t
    rw [hs.count, hs.orders, Dict.total_set, Dict.share_of_none hs.new, h.counted t]
    ring

variable (cfg) in
/-- What `cancel` does: nothing, or it notes the request on a live order. -/
lemma cancel_cases (hwf : WellFormed e) (id : OrderId) (at_ : Time) :
    (e.cancel cfg id at_).1 = e ∨
      ∃ o o', e.orders.get? o.orderId = some o ∧ o.isTerminal = false ∧
        Touch e o o' (e.cancel cfg id at_).1 := by
  unfold cancel
  cases hget : e.orders.get? id with
  | none => exact .inl rfl
  | some o =>
    have hget' : e.orders.get? o.orderId = some o := by rw [hwf.keyed hget]; exact hget
    by_cases hterm : o.isTerminal = true
    · exact .inl (by simp [hterm])
    by_cases hpend : e.pendingCancels.contains id = true
    · exact .inl (by simp [hterm, hpend])
    · refine .inr ⟨o, { o with cancelPendingAt := some (at_ + timedeltaMs
        (cfg.latency.sampleCancelMs at_ e.latency).1) }, hget', by simpa using hterm, ?_⟩
      simp only [hterm, hpend]
      exact ⟨rfl, .update, rfl, rfl, rfl, rfl, rfl, rfl⟩

/-! ## Runs -/

end MatchingEngine

/-- A call of a public operation of the matching engine, with its arguments; a run of the engine is
a list of them. -/
inductive MatchingOp where
  | submit (order : BacktestOrder) (fresh : MatchingEngine.Fresh order)
  | cancel (orderId : OrderId) (requestedAt : Time)
  | advanceTo (snapshot : BookSnapshot)

namespace MatchingEngine

variable {cfg : MatchingConfig} {e : MatchingEngine}

/-- One call.  A call that raises changes nothing. -/
def step (cfg : MatchingConfig) (e : MatchingEngine) : MatchingOp → MatchingEngine
  | .submit order _ => (e.submit cfg order).toOption.getD e
  | .cancel orderId requestedAt => (e.cancel cfg orderId requestedAt).1
  | .advanceTo snapshot => ((e.advanceTo cfg snapshot).toOption.map Prod.fst).getD e

/-- The fills that one call produces. -/
def produced (cfg : MatchingConfig) (e : MatchingEngine) : MatchingOp → List Fill
  | .advanceTo snapshot => ((e.advanceTo cfg snapshot).toOption.map Prod.snd).getD []
  | _ => []

/-- The engine after a sequence of calls. -/
def runOps (cfg : MatchingConfig) (ops : List MatchingOp) : MatchingEngine :=
  ops.foldl (step cfg) {}

lemma advanceTo_cases (cfg : MatchingConfig) (e : MatchingEngine) (snap : BookSnapshot) :
    ((∃ before, e.now = some before ∧ snap.observedAt < before) ∧
        ∃ err, e.advanceTo cfg snap = .error err) ∨
      ((∀ before, e.now = some before → before ≤ snap.observedAt) ∧
        e.advanceTo cfg snap = .ok (advance cfg snap e)) := by
  unfold advanceTo
  split
  · next before hnow =>
    split
    · next hlt => exact .inl ⟨⟨before, hnow, hlt⟩, _, rfl⟩
    · next hle =>
      refine .inr ⟨fun b hb => ?_, rfl⟩
      rw [hnow] at hb
      cases hb
      exact not_lt.1 hle
  · next hnow =>
    refine .inr ⟨fun b hb => ?_, rfl⟩
    rw [hnow] at hb
    cases hb

variable (cfg) in
/-- What one call does: nothing, or a submission, or the note of a cancel request, or an
advance. -/
lemma step_cases (hwf : WellFormed e) (op : MatchingOp) :
    (step cfg e op = e ∧ produced cfg e op = []) ∨
      (∃ order o', ∃ hf : Fresh order, op = .submit order hf ∧
        Submitted cfg e order o' (step cfg e op) ∧ produced cfg e op = []) ∨
      (∃ o o', e.orders.get? o.orderId = some o ∧ o.isTerminal = false ∧
        Touch e o o' (step cfg e op) ∧ produced cfg e op = []) ∨
      (∃ snap, op = .advanceTo snap ∧ (∀ before, e.now = some before → before ≤ snap.observedAt) ∧
        step cfg e op = (advance cfg snap e).1 ∧ produced cfg e op = (advance cfg snap e).2) := by
  cases op with
  | submit order fresh =>
    cases hs : e.submit cfg order with
    | error err => exact .inl ⟨by simp [step, hs, Except.toOption], rfl⟩
    | ok e' =>
      obtain ⟨o', ho'⟩ := submit_cases fresh hs
      refine .inr (.inl ⟨order, o', fresh, rfl, ?_, rfl⟩)
      simpa [step, hs, Except.toOption] using ho'
  | cancel orderId requestedAt =>
    rcases cancel_cases cfg hwf orderId requestedAt with heq | ⟨o, o', hget, hlive, ht⟩
    · exact .inl ⟨heq, rfl⟩
    · exact .inr (.inr (.inl ⟨o, o', hget, hlive, ht, rfl⟩))
  | advanceTo snap =>
    rcases advanceTo_cases cfg e snap with ⟨-, err, heq⟩ | ⟨hnow, heq⟩
    · exact .inl ⟨by simp [step, heq, Except.toOption], by simp [produced, heq, Except.toOption]⟩
    · exact .inr (.inr (.inr ⟨snap, rfl, hnow, by simp [step, heq, Except.toOption],
        by simp [produced, heq, Except.toOption]⟩))

lemma wellFormed_step (h : WellFormed e) (op : MatchingOp) : WellFormed (step cfg e op) := by
  rcases step_cases cfg h op with ⟨heq, -⟩ | ⟨o, o', hf, -, hs, -⟩ |
    ⟨o, o', hget, -, ht, -⟩ | ⟨snap, -, -, heq, -⟩
  · rw [heq]
    exact h
  · exact h.submitted hs
  · exact h.touch hget ht
  · rw [heq]
    exact wellFormed_advance cfg h snap

lemma wellFormed_runOps (ops : List MatchingOp) : WellFormed (runOps cfg ops) :=
  foldl_invariant (I := WellFormed) (fun _ op h => wellFormed_step h op) wellFormed_init ops

/-! ## What an order keeps -/

/-- A part of an order that nothing changes once the order is on record. -/
structure Kept {α : Type*} (part : BacktestOrder → α) : Prop where
  walk : ∀ {o fs o'}, Walk o fs o' → part o' = part o
  relabel : ∀ {o o' : BacktestOrder}, o.Relabel o' → part o' = part o

/-- A part of the order on record under an identifier. -/
def recordOf {α : Type*} (part : BacktestOrder → α) (e : MatchingEngine) (id : OrderId) :
    Option α :=
  (e.orders.get? id).map part

namespace Kept

variable {α : Type*} {part : BacktestOrder → α} {o o' : BacktestOrder} {e' : MatchingEngine}
  {fs : List Fill}

lemma rewrite (hget : e.orders.get? o.orderId = some o) (hpart : part o' = part o) {id : OrderId} :
    ((e.orders.set o.orderId o').get? id).map part = recordOf part e id := by
  rw [recordOf, Dict.get?_set]
  split
  · next hid => rw [← hid, hget, Option.map_some, Option.map_some, hpart]
  · rfl

lemma effect (hk : Kept part) (hget : e.orders.get? o.orderId = some o)
    (he : Effect e o fs o' e') : recordOf part e' = recordOf part e := by
  obtain ⟨o₁, hwalk, hr⟩ := he.walk
  funext id
  rw [recordOf, he.orders]
  exact rewrite hget ((hk.relabel hr).trans (hk.walk hwalk))

lemma touch (hk : Kept part) (hget : e.orders.get? o.orderId = some o) (ht : Touch e o o' e') :
    recordOf part e' = recordOf part e := by
  funext id
  rw [recordOf, ht.orders]
  exact rewrite hget (hk.relabel ht.relabel)

lemma interim (hk : Kept part) (e : MatchingEngine) :
    Interim fun e' => recordOf part e' = recordOf part e where
  sameOrders h hs := by
    rw [← h]
    funext id
    rw [recordOf, hs.orders]
    rfl
  cancelled _ h hget _ heff _ := (hk.effect hget heff).trans h
  touched _ h hget _ ht := (hk.touch hget ht).trans h

lemma advance (hk : Kept part) (hwf : WellFormed e) (snap : BookSnapshot) :
    recordOf part (advance cfg snap e).1 = recordOf part e := by
  obtain ⟨e₁, -, hkept, heq⟩ := advance_effects cfg
    (J := fun e₁ _ => recordOf part e₁ = recordOf part e) hwf snap
    (openInterval_induct cfg (hk.interim e) snap hwf rfl).2
    (fun _ hJ hget _ _ heff => (hk.effect hget heff).trans hJ)
  rw [heq]
  exact hkept

/-- A call neither changes nor forgets it. -/
lemma step (hk : Kept part) (hwf : WellFormed e) (op : MatchingOp) {id : OrderId} {a : α}
    (h : recordOf part e id = some a) : recordOf part (step cfg e op) id = some a := by
  rcases step_cases cfg hwf op with ⟨heq, -⟩ | ⟨order, o', -, -, hs, -⟩ |
    ⟨o, o', hget, hlive, ht, -⟩ | ⟨snap, -, -, heq, -⟩
  · rw [heq]
    exact h
  · obtain ⟨o, hget, -⟩ := Option.map_eq_some_iff.1 h
    have hne : o'.orderId ≠ id := by
      rintro rfl
      rw [hs.new] at hget
      cases hget
    rw [recordOf, hs.orders, Dict.get?_set_of_ne _ _ hne]
    exact h
  · rw [hk.touch hget ht]
    exact h
  · rw [heq, hk.advance hwf]
    exact h

variable (cfg) in
/-- A run neither changes nor forgets it. -/
lemma run (hk : Kept part) (hwf : WellFormed e) (ops : List MatchingOp) {id : OrderId} {a : α}
    (h : recordOf part e id = some a) :
    recordOf part (ops.foldl (MatchingEngine.step cfg) e) id = some a := by
  induction ops generalizing e with
  | nil => exact h
  | cons op ops ih => exact ih (wellFormed_step hwf op) (hk.step hwf op h)

end Kept

lemma kept_price : Kept BacktestOrder.price where
  walk hwalk := by
    obtain ⟨_, _, rfl⟩ := hwalk.frame
    rfl
  relabel hr := hr.price

lemma kept_venueReceivedAt : Kept BacktestOrder.venueReceivedAt where
  walk hwalk := by
    obtain ⟨_, _, rfl⟩ := hwalk.frame
    rfl
  relabel hr := hr.venueReceivedAt

end MatchingEngine

end Evosport.Backtest
