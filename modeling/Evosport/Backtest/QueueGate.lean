/-
The queue gate of resting orders.

An order that rests waits behind the queue that `_snapshot_queue_position` found.  The queue decays
from snapshot to snapshot, a resting order is matched only once nothing of it is left, and a loaded
fill model caps what it may fill.

An advance takes each order through three turns: the opening of the interval (`Waits`), its
admission (`AdmitTurn`) and its match while it rests (`MatchTurn`).  The other orders' turns leave
it alone, so what holds of an order over a whole run follows from these three.  `UnderModel` is
what they keep.
-/
import Evosport.Backtest.Lifecycle
import Evosport.Backtest.QueueDecay

namespace Evosport.Backtest

open Lib

namespace MatchingEngine

variable {cfg : MatchingConfig} {e e' : MatchingEngine} {snap : BookSnapshot}
  {o o' : BacktestOrder} {id : OrderId} {fs : List Fill}

/-! ## The turns of a loop -/

/-- The fills of an order. -/
def fillsOf (id : OrderId) (fs : List Fill) : List Fill := fs.filter fun f => f.orderId = id

lemma fillsOf_append (id : OrderId) (fs gs : List Fill) :
    fillsOf id (fs ++ gs) = fillsOf id fs ++ fillsOf id gs := List.filter_append ..

lemma fillsOf_own (h : ∀ f ∈ fs, f.orderId = id) : fillsOf id fs = fs :=
  List.filter_eq_self.2 fun f hf => by simpa using h f hf

lemma fillsOf_other {other : OrderId} (hne : other ≠ id) (h : ∀ f ∈ fs, f.orderId = other) :
    fillsOf id fs = [] :=
  List.filter_eq_nil_iff.2 fun f hf => by simpa [h f hf] using hne

/-- A turn rewrites its own order and fills it. -/
structure OwnTurn (f : OrderId → MatchingEngine → MatchingEngine × List Fill) (id : OrderId)
    (e : MatchingEngine) : Prop where
  orders : ∀ other, other ≠ id → (f id e).1.orders.get? other = e.orders.get? other
  fills : ∀ x ∈ (f id e).2, x.orderId = id

/-- Where every turn is its own order's, one turn decides on an order; `tell` is what is noted of
it at that turn. -/
lemma forOrders_turn {f : OrderId → MatchingEngine → MatchingEngine × List Fill}
    {Q : List OrderId → MatchingEngine → Prop} {β : Type} (tell : MatchingEngine → List β)
    (hnext : ∀ id ids e, Q (id :: ids) e → Q ids (f id e).1)
    (hown : ∀ id ids e, Q (id :: ids) e → OwnTurn f id e) (id : OrderId) {ids : List OrderId}
    (hnodup : ids.Nodup) (h : Q ids e) :
    (id ∉ ids ∧ (forOrders f ids e).1.orders.get? id = e.orders.get? id ∧
        fillsOf id (forOrders f ids e).2 = [] ∧
        outputs (fun e i => (f i e).1) (fun e i => if i = id then tell e else []) e ids = []) ∨
      (id ∈ ids ∧ ∃ e₁ rest, Q (id :: rest) e₁ ∧ e₁.orders.get? id = e.orders.get? id ∧
        (forOrders f ids e).1.orders.get? id = (f id e₁).1.orders.get? id ∧
        fillsOf id (forOrders f ids e).2 = (f id e₁).2 ∧
        outputs (fun e i => (f i e).1) (fun e i => if i = id then tell e else []) e ids =
          tell e₁) := by
  induction ids generalizing e with
  | nil => exact .inl ⟨by simp, rfl, rfl, rfl⟩
  | cons first ids ih =>
    obtain ⟨hnot, hnodup'⟩ := List.nodup_cons.1 hnodup
    have hturn := hown first ids e h
    rcases ih hnodup' (hnext first ids e h) with ⟨hout, hrec, hfills, htell⟩ |
      ⟨hmem, e₁, rest, hQ, hsame, hrec, hfills, htell⟩
    · by_cases hid : first = id
      · subst hid
        refine .inr ⟨List.mem_cons_self, e, ids, h, rfl, hrec, ?_, ?_⟩
        · rw [forOrders, fillsOf_append, fillsOf_own hturn.fills, hfills, List.append_nil]
        · rw [outputs, if_pos rfl, htell, List.append_nil]
      · refine .inl ⟨by simp [Ne.symm hid, hout], ?_, ?_, ?_⟩
        · exact hrec.trans (hturn.orders id (Ne.symm hid))
        · rw [forOrders, fillsOf_append, fillsOf_other hid hturn.fills, hfills, List.append_nil]
        · rw [outputs, if_neg hid, htell, List.append_nil]
    · have hid : first ≠ id := by
        rintro rfl
        exact hnot hmem
      refine .inr ⟨List.mem_cons_of_mem _ hmem, e₁, rest, hQ,
        hsame.trans (hturn.orders id (Ne.symm hid)), hrec, ?_, ?_⟩
      · rw [forOrders, fillsOf_append, fillsOf_other hid hturn.fills, hfills, List.nil_append]
      · rw [outputs, if_neg hid, htell, List.nil_append]

lemma ownTurn_of_effect {f : OrderId → MatchingEngine → MatchingEngine × List Fill}
    (hid : o.orderId = id) (he : Effect e o (f id e).2 o' (f id e).1) : OwnTurn f id e := by
  obtain ⟨o₁, hwalk, -⟩ := he.walk
  refine ⟨fun other hne => ?_, fun x hx => (hwalk.own hx).1.trans hid⟩
  rw [he.orders, hid, Dict.get?_set_of_ne _ _ (Ne.symm hne)]

lemma ownTurn_of_idle {f : OrderId → MatchingEngine → MatchingEngine × List Fill}
    (h : f id e = (e, [])) : OwnTurn f id e := by
  refine ⟨fun other _ => by rw [h], fun x hx => ?_⟩
  rw [h] at hx
  cases hx

/-! ## The turn of an order at admission -/

/-- What an admission makes of a pending order: it still waits, it rests in the book behind the
queue at its price, or it has ended. -/
inductive AdmitTurn (cfg : MatchingConfig) (o : BacktestOrder) : List Fill → BacktestOrder → Prop
  /-- It is not its turn. -/
  | waits : AdmitTurn cfg o [] o
  /-- It rests, with what it could not take. -/
  | rests {fs : List Fill} {o₁ : BacktestOrder} (book : ResidualBook) (label : OrderState)
      (hpending : o.state = .pending) (hwalk : Walk o fs o₁) : AdmitTurn cfg o fs
      (snapshotQueuePosition cfg book { o₁ with state := label })
  /-- It is finished. -/
  | ends {fs : List Fill} {o' : BacktestOrder} (hpending : o.state = .pending)
      (hterm : o'.isTerminal = true) (hfilled : o'.filledSize = o.filledSize + totalSize fs)
      (hpos : ∀ f ∈ fs, 0 < f.size) : AdmitTurn cfg o fs o'

lemma AdmitTurn.eq_of_notPending (h : AdmitTurn cfg o fs o') (hstate : o.state ≠ .pending) :
    o' = o := by
  cases h with
  | waits => rfl
  | rests _ _ hpending => exact absurd hpending hstate
  | ends hpending => exact absurd hpending hstate

lemma finish_record (o' : BacktestOrder) :
    (e.finish o').orders.get? o'.orderId = some o' := by
  simp [finish, decrementActive, putOrder]

lemma rest_record (hid : o.orderId = id) (book : ResidualBook) (label : OrderState) :
    (e.rest cfg book o label).orders.get? id =
      some (snapshotQueuePosition cfg book { o with state := label }) := by
  have hrel := (snapshotQueuePosition_relabel cfg book o label).1
  show (e.orders.set (snapshotQueuePosition cfg book { o with state := label }).orderId _).get? id =
    _
  rw [hrel.orderId, hid, Dict.get?_set_self]

/-- A finished walk is a turn that ends. -/
lemma admitTurn_ends {o₁ : BacktestOrder} (hpending : o.state = .pending) (hwalk : Walk o fs o₁)
    (hrel : o₁.Relabel o') (hterm : o'.isTerminal = true) : AdmitTurn cfg o fs o' :=
  .ends hpending hterm (hrel.filledSize.trans hwalk.filledSize_eq) hwalk.pos

lemma Admission.turn {book : ResidualBook} (hpending : o.state = .pending)
    (h : Admission cfg e o book e' fs) :
    ∃ o', e'.orders.get? o.orderId = some o' ∧ AdmitTurn cfg o fs o' := by
  cases h with
  | crossed =>
    exact ⟨_, finish_record _, admitTurn_ends hpending (.done o) .update rfl⟩
  | insufficient =>
    exact ⟨_, finish_record _, admitTurn_ends hpending (.done o) .update rfl⟩
  | killedOrFilled _ _ _ r hr =>
    subst hr
    have hwalk := consumeLevels_walk cfg e.now o book
    rw [← hwalk.orderId_eq]
    exact ⟨_, finish_record _, admitTurn_ends hpending hwalk .update rfl⟩
  | filled _ _ _ r hr =>
    subst hr
    have hwalk := consumeLevels_walk cfg e.now o book
    rw [← hwalk.orderId_eq]
    exact ⟨_, finish_record _, admitTurn_ends hpending hwalk .update rfl⟩
  | cut _ _ _ r hr =>
    subst hr
    have hwalk := consumeLevels_walk cfg e.now o book
    rw [← hwalk.orderId_eq]
    exact ⟨_, finish_record _, admitTurn_ends hpending hwalk .update rfl⟩
  | restedRemainder _ _ _ _ r hr =>
    subst hr
    have hwalk := consumeLevels_walk cfg e.now o book
    exact ⟨_, rest_record hwalk.orderId_eq _ _, .rests _ _ hpending hwalk⟩
  | expired =>
    exact ⟨_, finish_record _, admitTurn_ends hpending (.done o) .update rfl⟩
  | rested => exact ⟨_, rest_record rfl _ _, .rests _ _ hpending (.done o)⟩

lemma admitOne_own (hi : InInterval snap e) (id : OrderId) : OwnTurn (admitOne cfg snap) id e := by
  rcases admitOne_cases cfg hi id with heq | ⟨o, book, hid, hadm, hcase⟩
  · exact ownTurn_of_idle heq
  · obtain ⟨o', heff⟩ := hadm.effect hi hcase
    exact ownTurn_of_effect hid heff

lemma admitOne_next (hi : InInterval snap e) (id : OrderId) :
    InInterval snap (admitOne cfg snap id e).1 := by
  rcases admitOne_cases cfg hi id with heq | ⟨o, book, -, hadm, hcase⟩
  · rw [heq]
    exact hi
  · obtain ⟨o', heff⟩ := hadm.effect hi hcase
    exact ⟨hi.wellFormed.effect hadm.order hadm.isTerminal heff, hi.opened.effect heff⟩

variable (cfg) in
/-- Step 3 takes each order through one turn. -/
lemma admitAll_turn (hi : InInterval snap e) (hget : e.orders.get? id = some o) :
    ∃ o', (admitAll cfg snap e).1.orders.get? id = some o' ∧
      AdmitTurn cfg o (fillsOf id (admitAll cfg snap e).2) o' := by
  rcases forOrders_turn (fun _ => ([] : List ℚ)) (Q := fun _ e => InInterval snap e)
      (fun id _ _ hi => admitOne_next hi id)
      (fun id _ _ hi => admitOne_own hi id) id e.orders.nodup hi with
    ⟨-, hrec, hfills, -⟩ | ⟨-, e₁, -, hi₁, hsame, hrec, hfills, -⟩
  · unfold admitAll
    exact ⟨o, hrec.trans hget, by rw [Dict.keys, hfills]; exact .waits⟩
  · have hget₁ := hsame.trans hget
    unfold admitAll
    rw [Dict.keys, hrec, hfills]
    rcases admitOne_cases cfg hi₁ id with heq | ⟨o₁, book, rfl, hadm, hcase⟩
    · rw [heq]
      exact ⟨o, hget₁, .waits⟩
    · have heq : some o₁ = some o := hadm.order.symm.trans hget₁
      cases heq
      exact hcase.turn hadm.state

variable (cfg) in
lemma admitAll_absent (hi : InInterval snap e) (hget : e.orders.get? id = none) :
    (admitAll cfg snap e).1.orders.get? id = none ∧
      fillsOf id (admitAll cfg snap e).2 = [] := by
  have hout := Dict.get?_eq_none.1 hget
  rcases forOrders_turn (fun _ => ([] : List ℚ)) (Q := fun _ e => InInterval snap e)
      (fun id _ _ hi => admitOne_next hi id)
      (fun id _ _ hi => admitOne_own hi id) id e.orders.nodup hi with
    ⟨-, hrec, hfills, -⟩ | ⟨hin, -⟩
  · exact ⟨hrec.trans hget, hfills⟩
  · exact absurd hin hout

/-! ## The turn of an order while it rests -/

/-- The probability that the loaded model gives a resting order on a snapshot. -/
def probabilityFor (cfg : MatchingConfig) (snap : BookSnapshot) (o : BacktestOrder) : Option ℚ :=
  match cfg.fillModel, o.survivalCovariates with
  | some model, some covariates =>
    if covariates.entries = [] then none
    else
      let admittedAt := o.venueReceivedAt.getD o.submittedAt
      let horizonSeconds : ℚ := max 0 (((snap.observedAt - admittedAt : ℤ) : ℚ) / 10 ^ 6)
      some (max 0 (min 1 (model.evaluate covariates horizonSeconds cfg.fillProbabilityFallback)))
  | _, _ => none

/-- The probability that a match of a resting order evaluates: none where the queue gate blocks it,
where nothing remains of it or where no depth is within its limit. -/
def evaluated (cfg : MatchingConfig) (book : ResidualBook) (o : BacktestOrder) : List ℚ :=
  if queueBlocked o = true ∨ o.remainingSize ≤ 0 ∨
      visibleDepth o.side o.price (book.remaining o.side) ≤ 0 then []
  else (probabilityFor cfg book.snapshot o).toList

/-- The same for the order on record. -/
def evaluatedIn (cfg : MatchingConfig) (id : OrderId) (e : MatchingEngine) : List ℚ :=
  match e.orders.get? id with
  | none => []
  | some o => (e.books.get? o.tokenId).elim [] fun book => evaluated cfg book o

/-- The probabilities that an advance evaluates for an order. -/
def evaluations (cfg : MatchingConfig) (id : OrderId) (snap : BookSnapshot) (e : MatchingEngine) :
    List ℚ :=
  outputs (fun e i => (matchOne cfg i e).1) (fun e i => if i = id then evaluatedIn cfg id e else [])
    e (e.workingIds snap.tokenId)

/-- What a match makes of a resting order. -/
inductive MatchTurn (cfg : MatchingConfig) (snap : BookSnapshot) (o : BacktestOrder) :
    List Fill → List ℚ → BacktestOrder → Prop
  /-- It is not its turn, or it is blocked, or nothing remains of it. -/
  | waits : MatchTurn cfg snap o [] [] o
  /-- It walks the book. -/
  | walks (book : ResidualBook) (state : OrderState) (hsnap : book.snapshot = snap)
      (hrest : o.IsResting) (hgate : queueBlocked o = false) (hpos : 0 < o.remainingSize)
      (hstate : state ≠ .pending) : MatchTurn cfg snap o
        (restLoop cfg snap (book.remaining o.side) o book o.remainingSize).fills
        (evaluated cfg book o)
        { (restLoop cfg snap (book.remaining o.side) o book o.remainingSize).order with
          state := state }

/-- A match leaves the queue as it is. -/
lemma MatchTurn.queue {ps : List ℚ} (h : MatchTurn cfg snap o fs ps o') :
    o'.queueAheadShares = o.queueAheadShares := by
  cases h with
  | waits => rfl
  | walks book state hsnap _ _ hpos =>
    subst hsnap
    obtain ⟨avg, p, hframe⟩ :=
      (restLoop_walk_of_pos cfg hpos book.snapshot (book.remaining o.side) book).frame
    show (restLoop cfg book.snapshot (book.remaining o.side) o book
      o.remainingSize).order.queueAheadShares = _
    rw [hframe]

lemma MatchTurn.notPending {ps : List ℚ} (h : MatchTurn cfg snap o fs ps o')
    (hstate : o.state ≠ .pending) : o'.state ≠ .pending := by
  cases h with
  | waits => exact hstate
  | walks _ _ _ _ _ _ hpending => exact hpending

/-- An order behind its queue fills nothing. -/
lemma MatchTurn.blocked {ps : List ℚ} (h : MatchTurn cfg snap o fs ps o')
    (hgate : queueBlocked o = true) : fs = [] := by
  cases h with
  | waits => rfl
  | walks _ _ _ _ hopen =>
    rw [hgate] at hopen
    cases hopen

variable (cfg) in
lemma tryMatchResting_turn {book : ResidualBook} (hrest : o.IsResting)
    (hget : e.orders.get? o.orderId = some o) (hbook : e.books.get? o.tokenId = some book) :
    ∃ o', (e.tryMatchResting cfg o).1.orders.get? o.orderId = some o' ∧
      MatchTurn cfg book.snapshot o (e.tryMatchResting cfg o).2 (evaluated cfg book o) o' := by
  unfold tryMatchResting
  simp only [hbook]
  by_cases hgate : queueBlocked o = true
  · rw [if_pos hgate, evaluated, if_pos (.inl hgate)]
    exact ⟨o, hget, .waits⟩
  rw [if_neg hgate]
  by_cases hrem : o.remainingSize ≤ 0
  · rw [if_pos hrem, evaluated, if_pos (.inr (.inl hrem))]
    exact ⟨o, hget, .waits⟩
  rw [if_neg hrem]
  have hpos := not_le.1 hrem
  have hturn : ∀ state, state ≠ OrderState.pending →
      MatchTurn cfg book.snapshot o _ (evaluated cfg book o) _ := fun state =>
    .walks book state rfl hrest (by simpa using hgate) hpos
  have hwalk := restLoop_walk_of_pos cfg hpos book.snapshot (book.remaining o.side) book
  have hlive : (restLoop cfg book.snapshot (book.remaining o.side) o book
      o.remainingSize).order.isTerminal = false := by
    rw [BacktestOrder.isTerminal, hwalk.state_eq]
    exact hrest.isTerminal
  have hid := hwalk.orderId_eq
  have hlabel := hwalk.state_eq
  generalize restLoop cfg book.snapshot (book.remaining o.side) o book o.remainingSize = r at *
  split
  · refine ⟨_, ?_, hturn .filled (by decide)⟩
    rw [terminate_of_live hlive]
    obtain ⟨w, hw⟩ := removeFromWorking_eq
      (finish { e.putOrder r.order with books := e.books.set o.tokenId r.book }
        { r.order with state := .filled }) r.order
    rw [hw, ← hid]
    exact finish_record { r.order with state := .filled }
  · refine ⟨_, ?_, hturn r.order.state ?_⟩
    swap
    · rw [hlabel]
      rcases hrest with hs | hs <;> rw [hs] <;> decide
    rw [← hid]
    exact Dict.get?_set_self _ _ _

lemma matchOne_own {ids : List OrderId} (hq : MatchQueue snap (id :: ids) e) :
    OwnTurn (matchOne cfg) id e := by
  obtain ⟨o, book, hid, hm, hcase⟩ :=
    matchOne_cases cfg hq.inInterval (hq.working id List.mem_cons_self)
  rcases hm.effect hcase with ⟨heq, hfs⟩ | ⟨o', heff⟩
  · exact ownTurn_of_idle (Prod.ext heq hfs)
  · exact ownTurn_of_effect hid heff

variable (cfg) in
/-- Step 4 takes each order through one turn. -/
lemma matchAll_turn (hi : InInterval snap e) (hget : e.orders.get? id = some o) :
    ∃ o', (matchAll cfg snap e).1.orders.get? id = some o' ∧
      MatchTurn cfg snap o (fillsOf id (matchAll cfg snap e).2) (evaluations cfg id snap e) o' := by
  unfold matchAll evaluations
  rcases forOrders_turn (evaluatedIn cfg id) (fun _ _ _ hq => hq.next cfg)
      (fun _ _ _ hq => matchOne_own hq) id (hi.wellFormed.nodup snap.tokenId) hi.matchQueue with
    ⟨-, hrec, hfills, htell⟩ | ⟨-, e₁, rest, hq, hsame, hrec, hfills, htell⟩
  · rw [hrec, hfills, htell]
    exact ⟨o, hget, .waits⟩
  · have hget₁ := hsame.trans hget
    rw [hrec, hfills, htell]
    obtain ⟨o₁, book, hid, hm, -⟩ :=
      matchOne_cases cfg hq.inInterval (hq.working id List.mem_cons_self)
    subst hid
    have heq : some o₁ = some o := hm.order.symm.trans hget₁
    cases heq
    have hturn := tryMatchResting_turn cfg hm.resting hm.order hm.bookOf
    rw [hm.snapshot] at hturn
    unfold matchOne evaluatedIn
    simp only [hm.order, hm.resting.isTerminal, hm.bookOf, Option.elim_some]
    exact hturn

variable (cfg) in
lemma matchAll_absent (hi : InInterval snap e) (hget : e.orders.get? id = none) :
    (matchAll cfg snap e).1.orders.get? id = none ∧
      fillsOf id (matchAll cfg snap e).2 = [] ∧ evaluations cfg id snap e = [] := by
  have hout : id ∉ e.workingIds snap.tokenId := by
    intro hmem
    obtain ⟨o, hget', -⟩ := hi.wellFormed.working hmem
    rw [hget] at hget'
    cases hget'
  unfold matchAll evaluations
  rcases forOrders_turn (evaluatedIn cfg id) (fun _ _ _ hq => hq.next cfg)
      (fun _ _ _ hq => matchOne_own hq) id (hi.wellFormed.nodup snap.tokenId) hi.matchQueue with
    ⟨-, hrec, hfills, htell⟩ | ⟨hin, -⟩
  · exact ⟨hrec.trans hget, hfills, htell⟩
  · exact absurd hin hout

/-! ## What the fill model allows -/

lemma probabilityFor_mem {p : ℚ} (h : probabilityFor cfg snap o = some p) : 0 ≤ p ∧ p ≤ 1 := by
  unfold probabilityFor at h
  split at h
  · split at h
    · cases h
    · cases h
      exact ⟨le_max_left _ _, max_le zero_le_one (min_le_left _ _)⟩
  · cases h

/-- One take raises the cumulative probability to the evaluated one. -/
lemma cappedTake_cumulative (hc : 0 ≤ o.fillProbabilityCumulative ∧ o.fillProbabilityCumulative ≤ 1)
    {candidate : ℚ} (hpos : 0 < candidate) :
    (fillProbabilityCappedTake cfg o snap candidate).2 =
      { o with
        fillProbabilityCumulative := (probabilityFor cfg snap o).elim o.fillProbabilityCumulative
          (max o.fillProbabilityCumulative) } := by
  obtain ⟨-, p, hp⟩ := fillProbabilityCappedTake_spec cfg o snap candidate
  have hfield : (fillProbabilityCappedTake cfg o snap candidate).2.fillProbabilityCumulative =
      (probabilityFor cfg snap o).elim o.fillProbabilityCumulative
        (max o.fillProbabilityCumulative) := by
    unfold fillProbabilityCappedTake probabilityFor
    cases cfg.fillModel with
    | none => rfl
    | some model =>
      cases o.survivalCovariates with
      | none => rfl
      | some covariates =>
        by_cases hempty : covariates.entries = []
        · simp [hempty]
        · simp only [hempty, not_le.2 hpos, or_self, if_false, Option.elim_some]
          obtain ⟨h0, h1⟩ := hc
          grind
  rw [hp] at hfield ⊢
  rw [← hfield]

lemma cappedTake_idle {candidate : ℚ} (hle : candidate ≤ 0) :
    fillProbabilityCappedTake cfg o snap candidate = (candidate, o) := by
  unfold fillProbabilityCappedTake
  cases cfg.fillModel with
  | none => rfl
  | some model =>
    cases o.survivalCovariates with
    | none => rfl
    | some covariates => simp [hle]

variable (cfg snap) in
/-- A walk keeps the cumulative probability, or it raises it to the one that it evaluates. -/
lemma restLoop_cumulative (levels : List (ℚ × ℚ)) (o : BacktestOrder) (book : ResidualBook)
    (remaining : ℚ)
    (hc : 0 ≤ o.fillProbabilityCumulative ∧ o.fillProbabilityCumulative ≤ 1) :
    (restLoop cfg snap levels o book remaining).order.fillProbabilityCumulative =
        o.fillProbabilityCumulative ∨
      (0 < visibleDepth o.side o.price levels ∧ ∃ p, probabilityFor cfg snap o = some p ∧
        (restLoop cfg snap levels o book remaining).order.fillProbabilityCumulative =
          max o.fillProbabilityCumulative p) := by
  induction levels generalizing o book remaining with
  | nil => exact .inl rfl
  | cons l levels ih =>
    obtain ⟨price, qty⟩ := l
    unfold restLoop
    split
    · exact .inl rfl
    split
    · exact .inl rfl
    next hmore hreach =>
    rcases le_or_gt qty 0 with hq | hq
    · -- nothing remains on this level, and nothing is evaluated
      have hcand : min qty remaining ≤ 0 := (min_le_left _ _).trans hq
      rw [cappedTake_idle hcand]
      simp only [if_pos hcand]
      rw [visibleDepth_cons_of_empty hq]
      exact ih o book remaining hc
    · have hcand : 0 < min qty remaining := lt_min hq (not_le.1 hmore)
      have hdepth : 0 < visibleDepth o.side o.price ((price, qty) :: levels) := by
        rw [visibleDepth_cons_of_reach hq (by simpa using hreach)]
        linarith [visibleDepth_nonneg o.side o.price levels]
      simp only
      rw [cappedTake_cumulative hc hcand]
      cases hp : probabilityFor cfg snap o with
      | none =>
        -- without a model the walk goes on from the same probability
        have hnext : ∀ (o₁ : BacktestOrder) book remaining,
            o₁.fillProbabilityCumulative = o.fillProbabilityCumulative →
            probabilityFor cfg snap o₁ = none →
            (restLoop cfg snap levels o₁ book remaining).order.fillProbabilityCumulative =
              o.fillProbabilityCumulative := by
          intro o₁ book remaining hsame hnone
          rcases ih o₁ book remaining (by rw [hsame]; exact hc) with h | ⟨-, p, h, -⟩
          · exact h.trans hsame
          · rw [hnone] at h
            cases h
        refine .inl ?_
        simp only [Option.elim_none]
        split
        · exact hnext _ _ _ rfl hp
        · exact hnext _ _ _ rfl hp
      | some p =>
        obtain ⟨hp0, hp1⟩ := probabilityFor_mem hp
        have hnext : ∀ (o₁ : BacktestOrder) book remaining,
            o₁.fillProbabilityCumulative = max o.fillProbabilityCumulative p →
            probabilityFor cfg snap o₁ = some p →
            (restLoop cfg snap levels o₁ book remaining).order.fillProbabilityCumulative =
              max o.fillProbabilityCumulative p := by
          intro o₁ book remaining hsame hsome
          rcases ih o₁ book remaining (by rw [hsame]; exact ⟨le_max_of_le_left hc.1,
            max_le hc.2 hp1⟩) with h | ⟨-, p', h, h'⟩
          · exact h.trans hsame
          · rw [hsome] at h
            cases h
            rw [h', hsame, max_eq_left (le_max_right _ _)]
        refine .inr ⟨hdepth, p, rfl, ?_⟩
        simp only [Option.elim_some]
        split
        · exact hnext _ _ _ rfl hp
        · exact hnext _ _ _ rfl hp

/-- What the model allows, by the probability that it gives. -/
lemma modelAllowance_eq (hc : 0 ≤ o.fillProbabilityCumulative ∧ o.fillProbabilityCumulative ≤ 1) :
    modelAllowance cfg o snap = (probabilityFor cfg snap o).map fun p =>
      max 0 (o.size * max o.fillProbabilityCumulative p - o.filledSize) := by
  unfold modelAllowance probabilityFor
  cases cfg.fillModel with
  | none => rfl
  | some model =>
    cases o.survivalCovariates with
    | none => rfl
    | some covariates =>
      by_cases hempty : covariates.entries = []
      · simp [hempty]
      · simp only [hempty, if_false, Option.map_some, Option.some.injEq]
        congr 3
        obtain ⟨h0, h1⟩ := hc
        grind

/-! ## One order -/

/-- The largest of the probabilities evaluated so far. -/
def largest (probs : List ℚ) : ℚ := probs.foldr max 0

lemma largest_nonneg (probs : List ℚ) : 0 ≤ largest probs := by
  induction probs with
  | nil => exact le_refl _
  | cons p probs ih => exact le_max_of_le_right ih

lemma largest_append (probs ps : List ℚ) :
    largest (probs ++ ps) = max (largest probs) (largest ps) := by
  induction probs with
  | nil => exact (max_eq_right (largest_nonneg ps)).symm
  | cons p probs ih =>
    show max p (largest (probs ++ ps)) = max (max p (largest probs)) (largest ps)
    rw [ih, max_assoc]

/-- What can be said of an order that has taken `taken` as a taker and filled `rested` while it
rested, when the probabilities `probs` were evaluated for it. -/
structure UnderModel (cfg : MatchingConfig) (o : BacktestOrder) (taken rested : ℚ)
    (probs : List ℚ) : Prop where
  filled : o.filledSize = taken + rested
  taken_nonneg : 0 ≤ taken
  rested_nonneg : 0 ≤ rested
  pending : o.state = .pending → rested = 0 ∧ probs = []
  covariates : cfg.fillModel.isSome = true → o.IsResting →
    ∃ c, o.survivalCovariates = some c ∧ c.entries ≠ []
  cumulative : o.IsResting → 0 ≤ o.fillProbabilityCumulative ∧
    o.fillProbabilityCumulative ≤ 1 ∧ o.fillProbabilityCumulative ≤ largest probs
  capped : cfg.fillModel.isSome = true → rested = 0 ∧ probs = [] ∨
    0 < o.size ∧ taken + rested ≤ max taken (o.size * largest probs)
  queue : o.IsResting → ∃ q, o.queueAheadShares = some q ∧ 0 ≤ q

lemma computeQueueAheadShares_nonneg (snap : BookSnapshot) (side : Side) (limit : ℚ) :
    0 ≤ computeQueueAheadShares snap side limit := by
  have hlevels : ∀ p : PriceLevel → Bool, 0 ≤ ((((snap.ownLadder side).filter fun l =>
      decide (l.price > 0 ∧ l.size > 0)).filter p).map PriceLevel.size).sum := by
    intro p
    refine List.sum_nonneg fun q hq => ?_
    obtain ⟨l, hl, rfl⟩ := List.mem_map.1 hq
    have hpos := (List.mem_filter.1 (List.mem_filter.1 hl).1).2
    simp only [decide_eq_true_eq] at hpos
    exact hpos.2.le
  unfold computeQueueAheadShares
  refine mul_nonneg (add_nonneg ?_ (mul_nonneg ?_ (by norm_num))) zero_le_one
  · exact hlevels _
  · exact hlevels _

namespace UnderModel

variable {taken rested : ℚ} {probs ps : List ℚ}

/-- A resting order has filled no more than its size times the largest probability. -/
lemma rested_le (h : UnderModel cfg o taken rested probs) (hmodel : cfg.fillModel.isSome = true) :
    rested ≤ o.size * largest probs := by
  rcases h.capped hmodel with ⟨rfl, rfl⟩ | ⟨hsize, hle⟩
  · simp [largest]
  · have hnonneg := mul_nonneg hsize.le (largest_nonneg probs)
    have htaken := h.taken_nonneg
    rcases le_max_iff.1 hle with hle | hle <;> linarith

lemma waits (h : UnderModel cfg o taken rested probs) (hw : Waits cfg e snap o o') :
    UnderModel cfg o' taken rested probs := by
  have hframe := hw.frame
  have hrest : o'.IsResting → o.IsResting := by
    intro hr
    rcases hw.state with hs | hs
    · rw [BacktestOrder.IsResting, hs] at hr
      exact hr
    · rcases hr with hr | hr <;> rw [hs] at hr <;> cases hr
  have hfilled : o'.filledSize = o.filledSize := by rw [hframe]
  have hcov : o'.survivalCovariates = o.survivalCovariates := by rw [hframe]
  have hcum : o'.fillProbabilityCumulative = o.fillProbabilityCumulative := by rw [hframe]
  have hsize : o'.size = o.size := by rw [hframe]
  refine ⟨hfilled.trans h.filled, h.taken_nonneg, h.rested_nonneg, fun hp => ?_, fun hm hr => ?_,
    fun hr => ?_, fun hm => ?_, fun hr => ?_⟩
  · rcases hw.state with hs | hs
    · exact h.pending (hs.symm.trans hp)
    · rw [hs] at hp
      cases hp
  · rw [hcov]
    exact h.covariates hm (hrest hr)
  · rw [hcum]
    exact h.cumulative (hrest hr)
  · rw [hsize]
    exact h.capped hm
  · obtain ⟨q, hq, hnonneg⟩ := h.queue (hrest hr)
    rcases hw.queue with hsame | ⟨old, -, -, hdecay⟩
    · exact ⟨q, hsame.trans hq, hnonneg⟩
    · obtain ⟨q', hq', hnonneg', -⟩ := decayQueue_queue cfg hq hnonneg
      exact ⟨q', hdecay.trans hq', hnonneg'⟩

lemma admitted (h : UnderModel cfg o taken rested probs) (ht : AdmitTurn cfg o fs o') :
    UnderModel cfg o' (taken + totalSize fs) rested probs := by
  cases ht with
  | waits =>
    rw [totalSize_nil, add_zero]
    exact h
  | @rests _ o₁ book label hpending hwalk =>
    obtain ⟨rfl, rfl⟩ := h.pending hpending
    have hfilled := hwalk.filledSize_eq
    have hnonneg := totalSize_nonneg hwalk.pos
    have htaken := h.taken_nonneg
    have hqueue := computeQueueAheadShares_nonneg book.snapshot o₁.side o₁.price
    have hfilled' : o₁.filledSize = taken + totalSize fs + 0 := by
      rw [hfilled, h.filled]
      ring
    unfold snapshotQueuePosition
    cases hm : cfg.fillModel with
    | none =>
      exact ⟨hfilled', add_nonneg htaken hnonneg, le_refl _, fun _ => ⟨rfl, rfl⟩,
        fun hs => by simp [hm] at hs, fun _ => ⟨le_refl _, zero_le_one, le_refl _⟩,
        fun _ => .inl ⟨rfl, rfl⟩, fun _ => ⟨_, rfl, hqueue⟩⟩
    | some model =>
      refine ⟨hfilled', add_nonneg htaken hnonneg, le_refl _, fun _ => ⟨rfl, rfl⟩,
        fun _ _ => ⟨_, rfl, ?_⟩, fun _ => ⟨le_refl _, zero_le_one, le_refl _⟩,
        fun _ => .inl ⟨rfl, rfl⟩, fun _ => ⟨_, rfl, hqueue⟩⟩
      -- the queue is always among the covariates
      intro hempty
      have hmem := Dict.mem_entries.2 (Dict.get?_set_self (model.features book.snapshot
        { o₁ with
          state := label
          queueAheadShares := some (computeQueueAheadShares book.snapshot o₁.side o₁.price)
          fillProbabilityCumulative := 0 }) "queue_ahead_shares"
        (computeQueueAheadShares book.snapshot o₁.side o₁.price))
      rw [hempty] at hmem
      cases hmem
  | ends hpending hterm hfilled hpos =>
    obtain ⟨rfl, rfl⟩ := h.pending hpending
    have hnot : ¬ o'.IsResting := fun hr => by
      rw [hr.isTerminal] at hterm
      cases hterm
    refine ⟨by rw [hfilled, h.filled]; ring, add_nonneg h.taken_nonneg (totalSize_nonneg hpos),
      le_refl _, fun _ => ⟨rfl, rfl⟩, fun _ hr => absurd hr hnot, fun hr => absurd hr hnot,
      fun _ => .inl ⟨rfl, rfl⟩, fun hr => absurd hr hnot⟩

lemma matched (h : UnderModel cfg o taken rested probs) (ht : MatchTurn cfg snap o fs ps o') :
    UnderModel cfg o' taken (rested + totalSize fs) (probs ++ ps) := by
  cases ht with
  | waits =>
    rw [totalSize_nil, add_zero, List.append_nil]
    exact h
  | walks book state hsnap hrest hgate hpos hstate =>
    subst hsnap
    have hwalk := restLoop_walk_of_pos cfg hpos book.snapshot (book.remaining o.side) book
    have htotal : totalSize (restLoop cfg book.snapshot (book.remaining o.side) o book
        o.remainingSize).fills = capBy (modelAllowance cfg o book.snapshot)
          (min o.remainingSize (visibleDepth o.side o.price (book.remaining o.side))) :=
      restLoop_total _ _ _ _ _ hpos.le (reachSorted_remaining _ _ _) fun l hl =>
        remaining_nonneg hl
    obtain ⟨hc0, hc1, hcl⟩ := h.cumulative hrest
    have hcum := restLoop_cumulative cfg book.snapshot (book.remaining o.side) o
      book o.remainingSize ⟨hc0, hc1⟩
    have hpositive := totalSize_nonneg hwalk.pos
    have hfilled := hwalk.filledSize_eq
    have hsize := hwalk.size_eq
    obtain ⟨avg, p, hframe⟩ := hwalk.frame
    have hcov : (restLoop cfg book.snapshot (book.remaining o.side) o book
        o.remainingSize).order.survivalCovariates = o.survivalCovariates := by rw [hframe]
    have hqueue : (restLoop cfg book.snapshot (book.remaining o.side) o book
        o.remainingSize).order.queueAheadShares = o.queueAheadShares := by rw [hframe]
    generalize restLoop cfg book.snapshot (book.remaining o.side) o book o.remainingSize = r at *
    have hsize0 : 0 < o.size := by
      unfold BacktestOrder.remainingSize at hpos
      rcases lt_max_iff.1 hpos with hlt | hlt
      · exact absurd hlt (lt_irrefl 0)
      · have hf := h.filled
        have := h.taken_nonneg
        have := h.rested_nonneg
        linarith
    refine ⟨?_, h.taken_nonneg, add_nonneg h.rested_nonneg hpositive,
      fun hs => absurd hs hstate, fun hm _ => ?_, fun _ => ?_, fun hm => .inr ⟨?_, ?_⟩,
      fun _ => ?_⟩
    · show r.order.filledSize = _
      rw [hfilled, h.filled, add_assoc]
    · show ∃ c, r.order.survivalCovariates = some c ∧ _
      rw [hcov]
      exact h.covariates hm hrest
    · show 0 ≤ r.order.fillProbabilityCumulative ∧ r.order.fillProbabilityCumulative ≤ 1 ∧
        r.order.fillProbabilityCumulative ≤ _
      rw [largest_append]
      rcases hcum with hcum | ⟨hdepth, p, hp, hcum⟩
      · rw [hcum]
        exact ⟨hc0, hc1, le_max_of_le_left hcl⟩
      · obtain ⟨hp0, hp1⟩ := probabilityFor_mem hp
        have hps : evaluated cfg book o = [p] := by
          unfold evaluated
          rw [if_neg (by simp [hgate, hpos, hdepth]), hp]
          rfl
        rw [hcum, hps]
        exact ⟨le_max_of_le_left hc0, max_le hc1 hp1, max_le_max hcl (le_max_left p 0)⟩
    · show 0 < r.order.size
      rw [hsize]
      exact hsize0
    · show taken + (rested + totalSize r.fills) ≤ max taken (r.order.size * _)
      rw [hsize, largest_append]
      have hbefore : taken + rested ≤ max taken (o.size * largest probs) := by
        rcases h.capped hm with ⟨rfl, rfl⟩ | ⟨-, hle⟩
        · rw [add_zero]
          exact le_max_left _ _
        · exact hle
      have hgrow : o.size * largest probs ≤
          o.size * max (largest probs) (largest (evaluated cfg book o)) :=
        mul_le_mul_of_nonneg_left (le_max_left _ _) hsize0.le
      have hmono : max taken (o.size * largest probs) ≤
          max taken (o.size * max (largest probs) (largest (evaluated cfg book o))) :=
        max_le_max le_rfl hgrow
      obtain ⟨c, hc, hne⟩ := h.covariates hm hrest
      obtain ⟨p, hp⟩ : ∃ p, probabilityFor cfg book.snapshot o = some p := by
        obtain ⟨model, hmodel⟩ := Option.isSome_iff_exists.1 hm
        simp [probabilityFor, hmodel, hc, hne]
      rw [modelAllowance_eq ⟨hc0, hc1⟩, hp] at htotal
      rcases le_or_gt (visibleDepth o.side o.price (book.remaining o.side)) 0 with hdepth | hdepth
      · -- no depth, no fill
        have hle : totalSize r.fills ≤ 0 := by
          rw [htotal]
          exact (min_le_left _ _).trans ((min_le_right _ _).trans hdepth)
        linarith
      · have hps : evaluated cfg book o = [p] := by
          unfold evaluated
          rw [if_neg (by simp [hgate, hpos, hdepth]), hp]
          rfl
        have hle : totalSize r.fills ≤
            max 0 (o.size * max o.fillProbabilityCumulative p - o.filledSize) := by
          rw [htotal]
          exact min_le_right _ _
        have hreach : o.size * max o.fillProbabilityCumulative p ≤
            o.size * max (largest probs) (largest (evaluated cfg book o)) := by
          rw [hps]
          exact mul_le_mul_of_nonneg_left (max_le_max hcl (le_max_left p 0)) hsize0.le
        have hf := h.filled
        rcases le_max_iff.1 hle with hle | hle
        · linarith
        · have := le_max_right taken
            (o.size * max (largest probs) (largest (evaluated cfg book o)))
          linarith
    · show ∃ q, r.order.queueAheadShares = some q ∧ 0 ≤ q
      rw [hqueue]
      exact h.queue hrest

end UnderModel

end MatchingEngine

end Evosport.Backtest
