/-
The queue gate over whole runs.

`UnderModel` is kept by every call (`Tracked.step`), and so is the queue of an order that has left
the pending state (`queue_step`); `queue_gate` puts the runs together.
-/
import Evosport.Backtest.QueueGate

namespace Evosport.Backtest

open Lib

namespace MatchingEngine

variable {cfg : MatchingConfig} {e : MatchingEngine} {snap : BookSnapshot}
  {o o' : BacktestOrder} {id : OrderId}

/-! ## What an advance fills -/

/-- The engine when step 4 of an advance begins. -/
def beforeMatching (cfg : MatchingConfig) (snap : BookSnapshot) (e : MatchingEngine) :
    MatchingEngine :=
  (admitAll cfg snap (openInterval cfg snap e)).1

/-- What arriving orders take in an advance. -/
def takerFills (cfg : MatchingConfig) (snap : BookSnapshot) (e : MatchingEngine) : List Fill :=
  (admitAll cfg snap (openInterval cfg snap e)).2

/-- What resting orders fill in an advance. -/
def restingFills (cfg : MatchingConfig) (snap : BookSnapshot) (e : MatchingEngine) : List Fill :=
  (matchAll cfg snap (beforeMatching cfg snap e)).2

/-- Whether `advance_to` takes a snapshot: time may not run backwards. -/
def accepts (e : MatchingEngine) (snap : BookSnapshot) : Bool :=
  e.now.all fun before => decide (before ≤ snap.observedAt)

/-- What `tell` notes of the advance that a call makes. -/
def atAdvance {β : Type} (tell : BookSnapshot → MatchingEngine → List β) (e : MatchingEngine) :
    MatchingOp → List β
  | .advanceTo snap => if e.accepts snap then tell snap e else []
  | _ => []

/-- The size that an order takes as a taker in a run. -/
def takenIn (cfg : MatchingConfig) (id : OrderId) (e : MatchingEngine) (ops : List MatchingOp) :
    ℚ :=
  totalSize (outputs (step cfg)
    (atAdvance fun snap e => fillsOf id (takerFills cfg snap e)) e ops)

/-- The size that an order fills in a run while it rests. -/
def restedIn (cfg : MatchingConfig) (id : OrderId) (e : MatchingEngine) (ops : List MatchingOp) :
    ℚ :=
  totalSize (outputs (step cfg)
    (atAdvance fun snap e => fillsOf id (restingFills cfg snap e)) e ops)

/-- The probabilities that are evaluated for an order in a run. -/
def evaluatedDuring (cfg : MatchingConfig) (id : OrderId) (e : MatchingEngine)
    (ops : List MatchingOp) : List ℚ :=
  outputs (step cfg)
    (atAdvance fun snap e => evaluations cfg id snap (beforeMatching cfg snap e)) e ops

/-- The depth ahead of an order that a snapshot of its token no longer shows. -/
def goneAt (id : OrderId) (snap : BookSnapshot) (e : MatchingEngine) : List ℚ :=
  match e.orders.get? id, e.books.get? snap.tokenId with
  | some o, some old =>
    if o.tokenId = snap.tokenId then [disappeared o old.snapshot snap] else []
  | _, _ => []

/-- The depth ahead of an order that disappears in a run, over the consecutive snapshots of its
token. -/
def goneIn (cfg : MatchingConfig) (id : OrderId) (e : MatchingEngine) (ops : List MatchingOp) : ℚ :=
  (outputs (step cfg) (atAdvance (goneAt id)) e ops).sum

/-! ## The turns of an advance -/

/-- The matching begins in the interval of its snapshot. -/
lemma inInterval_beforeMatching (hopen : InInterval snap (openInterval cfg snap e)) :
    InInterval snap (beforeMatching cfg snap e) :=
  (admitAll_induct cfg (C := fun _ _ => True) (J := fun _ _ => True)
    (fun _ _ _ _ _ => trivial) hopen trivial (.of_forall fun _ _ => trivial)).1

variable (cfg snap) in
/-- An advance takes an order on record through its three turns. -/
lemma advance_turns (hwf : WellFormed e) (hget : e.orders.get? id = some o) :
    ∃ o₁ o₂ o₃, Waits cfg e snap o o₁ ∧
      AdmitTurn cfg o₁ (fillsOf id (takerFills cfg snap e)) o₂ ∧
      (beforeMatching cfg snap e).orders.get? id = some o₂ ∧
      MatchTurn cfg snap o₂ (fillsOf id (restingFills cfg snap e))
        (evaluations cfg id snap (beforeMatching cfg snap e)) o₃ ∧
      (advance cfg snap e).1.orders.get? id = some o₃ := by
  have hopen := (openInterval_induct cfg Interim.wellFormed snap hwf hwf).1
  obtain ⟨o₁, hget₁, hwaits⟩ := openInterval_record cfg snap hwf hget
  obtain ⟨o₂, hget₂, hadmit⟩ := admitAll_turn cfg hopen hget₁
  have hready := inInterval_beforeMatching hopen
  obtain ⟨o₃, hget₃, hmatch⟩ := matchAll_turn cfg hready hget₂
  exact ⟨o₁, o₂, o₃, hwaits, hadmit, hget₂, hmatch, hget₃⟩

variable (cfg snap) in
/-- Nothing happens to an order that is not on record. -/
lemma advance_absent (hwf : WellFormed e) (hget : e.orders.get? id = none) :
    fillsOf id (takerFills cfg snap e) = [] ∧ fillsOf id (restingFills cfg snap e) = [] ∧
      evaluations cfg id snap (beforeMatching cfg snap e) = [] ∧
      (advance cfg snap e).1.orders.get? id = none := by
  have hrecord : recordOf BacktestOrder.price (openInterval cfg snap e) =
      recordOf BacktestOrder.price e :=
    (openInterval_induct cfg (kept_price.interim e) snap hwf rfl).2
  have hopen := (openInterval_induct cfg Interim.wellFormed snap hwf hwf).1
  have hget₁ : (openInterval cfg snap e).orders.get? id = none := by
    have hnone := congrFun hrecord id
    rw [recordOf, recordOf, hget, Option.map_none, Option.map_eq_none_iff] at hnone
    exact hnone
  obtain ⟨hget₂, htaken⟩ := admitAll_absent cfg hopen hget₁
  have hready := inInterval_beforeMatching hopen
  obtain ⟨hget₃, hrested, htold⟩ := matchAll_absent cfg hready hget₂
  exact ⟨htaken, hrested, htold, hget₃⟩

/-! ## The calls -/

lemma step_of_accepts (h : e.accepts snap = true) :
    step cfg e (.advanceTo snap) = (advance cfg snap e).1 := by
  unfold accepts at h
  rcases advanceTo_cases cfg e snap with ⟨⟨before, hnow, hlt⟩, -⟩ | ⟨-, hok⟩
  · rw [hnow, Option.all_some, decide_eq_true_eq] at h
    exact absurd hlt (not_lt.2 h)
  · rw [step, hok]
    rfl

lemma step_of_not_accepts (h : ¬ e.accepts snap = true) : step cfg e (.advanceTo snap) = e := by
  unfold accepts at h
  rcases advanceTo_cases cfg e snap with ⟨-, err, herr⟩ | ⟨hnow, -⟩
  · rw [step, herr]
    rfl
  · refine absurd ?_ h
    cases hbefore : e.now with
    | none => rfl
    | some before =>
      rw [Option.all_some, decide_eq_true_eq]
      exact hnow before hbefore

/-- A call leaves an order on record as it is, or notes a cancel request on it, or is an advance
of the engine. -/
lemma step_record (cfg : MatchingConfig) (hwf : WellFormed e) (hget : e.orders.get? id = some o)
    (op : MatchingOp) :
    (∃ at_, (step cfg e op).orders.get? id = some { o with cancelPendingAt := at_ } ∧
        ∀ {β : Type} (tell : BookSnapshot → MatchingEngine → List β), atAdvance tell e op = []) ∨
      ∃ snap, op = .advanceTo snap ∧ e.accepts snap = true ∧
        step cfg e op = (advance cfg snap e).1 := by
  cases op with
  | submit order fresh =>
    refine .inl ⟨o.cancelPendingAt, ?_, fun _ => rfl⟩
    cases hs : e.submit cfg order with
    | error err =>
      rw [step, hs]
      exact hget
    | ok e' =>
      obtain ⟨o', hsub⟩ := submit_cases fresh hs
      have hne : o'.orderId ≠ id := by
        rintro rfl
        have hnew := hsub.new
        rw [hget] at hnew
        cases hnew
      rw [step, hs]
      show e'.orders.get? id = _
      rw [hsub.orders, Dict.get?_set_of_ne _ _ hne]
      exact hget
  | cancel target at_ =>
    have hsame : ∃ at_, e.orders.get? id = some { o with cancelPendingAt := at_ } :=
      ⟨o.cancelPendingAt, hget⟩
    obtain ⟨at', hrec⟩ : ∃ at', (e.cancel cfg target at_).1.orders.get? id =
        some { o with cancelPendingAt := at' } := by
      unfold cancel
      split
      · exact hsame
      split
      · exact hsame
      split
      · exact hsame
      next o₁ hget₁ _ _ =>
      simp only [putOrder]
      rw [Dict.get?_set]
      split
      · next heq =>
        rw [← hwf.keyed hget₁, heq, hget] at hget₁
        cases hget₁
        exact ⟨_, rfl⟩
      · exact hsame
    exact .inl ⟨at', hrec, fun _ => rfl⟩
  | advanceTo snap =>
    by_cases hacc : e.accepts snap = true
    · exact .inr ⟨snap, rfl, hacc, step_of_accepts hacc⟩
    · refine .inl ⟨o.cancelPendingAt, ?_, fun tell => by rw [atAdvance, if_neg hacc]⟩
      rw [step_of_not_accepts hacc]
      exact hget

/-! ## What is tracked of an order -/

/-- An order has taken `taken` as a taker and filled `rested` while it rested, when the
probabilities `probs` were evaluated for it. -/
structure Tracked (cfg : MatchingConfig) (e : MatchingEngine) (id : OrderId) (taken rested : ℚ)
    (probs : List ℚ) : Prop where
  absent : e.orders.get? id = none → taken = 0 ∧ rested = 0 ∧ probs = []
  record : ∀ o, e.orders.get? id = some o → UnderModel cfg o taken rested probs

lemma UnderModel.fresh (hf : Fresh o) (hstate : o.state = .rejected ∨ o.state = .pending) :
    UnderModel cfg o 0 0 [] := by
  have hnot : ¬ o.IsResting := by
    rintro (hr | hr) <;> rcases hstate with hs | hs <;> rw [hs] at hr <;> cases hr
  exact ⟨by rw [hf.filledSize, add_zero], le_refl _, le_refl _, fun _ => ⟨rfl, rfl⟩,
    fun _ hr => absurd hr hnot, fun hr => absurd hr hnot, fun _ => .inl ⟨rfl, rfl⟩,
    fun hr => absurd hr hnot⟩

namespace Tracked

variable {taken rested : ℚ} {probs : List ℚ}

lemma start : Tracked cfg {} id 0 0 [] :=
  ⟨fun _ => ⟨rfl, rfl, rfl⟩, fun o hget => by cases hget⟩

/-- A submission puts its own order on record and leaves the others. -/
lemma submit (h : Tracked cfg e id taken rested probs) (order : BacktestOrder)
    (hf : Fresh order) : Tracked cfg (MatchingEngine.step cfg e (.submit order hf)) id taken rested
      probs := by
  rw [MatchingEngine.step]
  cases hs : e.submit cfg order with
  | error err => exact h
  | ok e' =>
    obtain ⟨o', hsub⟩ := submit_cases hf hs
    show Tracked cfg e' id taken rested probs
    by_cases hid : o'.orderId = id
    · obtain ⟨rfl, rfl, rfl⟩ := h.absent (by rw [← hid]; exact hsub.new)
      refine ⟨fun _ => ⟨rfl, rfl, rfl⟩, fun o hget => ?_⟩
      rw [hsub.orders, hid, Dict.get?_set_self] at hget
      cases hget
      exact .fresh hsub.fresh hsub.state
    · have hsame : e'.orders.get? id = e.orders.get? id := by
        rw [hsub.orders, Dict.get?_set_of_ne _ _ hid]
      exact ⟨fun hnone => h.absent (hsame.symm.trans hnone),
        fun o hget => h.record o (hsame.symm.trans hget)⟩

/-- A cancel request leaves what is tracked. -/
lemma cancel (h : Tracked cfg e id taken rested probs) (hwf : WellFormed e) (target : OrderId)
    (at_ : Time) : Tracked cfg (e.cancel cfg target at_).1 id taken rested probs := by
  cases hget : e.orders.get? id with
  | none =>
    obtain ⟨rfl, rfl, rfl⟩ := h.absent hget
    refine ⟨fun _ => ⟨rfl, rfl, rfl⟩, fun o hget' => ?_⟩
    rcases cancel_cases cfg hwf target at_ with heq | ⟨o₁, o₂, hget₁, -, ht⟩
    · rw [heq, hget] at hget'
      cases hget'
    · have hne : o₁.orderId ≠ id := by
        rintro rfl
        rw [hget] at hget₁
        cases hget₁
      rw [ht.orders, Dict.get?_set_of_ne _ _ hne, hget] at hget'
      cases hget'
  | some o =>
    rcases step_record cfg hwf hget (.cancel target at_) with ⟨at', hrec, -⟩ | ⟨snap, hop, -⟩
    · refine ⟨fun hnone => ?_, fun o' hget' => ?_⟩
      · have hsome := hrec.symm.trans hnone
        cases hsome
      · have hsome := hrec.symm.trans hget'
        cases hsome
        have hu := h.record o hget
        exact ⟨hu.filled, hu.taken_nonneg, hu.rested_nonneg, hu.pending, hu.covariates,
          hu.cumulative, hu.capped, hu.queue⟩
    · cases hop

lemma advance (h : Tracked cfg e id taken rested probs) (hwf : WellFormed e) :
    Tracked cfg (advance cfg snap e).1 id
      (taken + totalSize (fillsOf id (takerFills cfg snap e)))
      (rested + totalSize (fillsOf id (restingFills cfg snap e)))
      (probs ++ evaluations cfg id snap (beforeMatching cfg snap e)) := by
  cases hget : e.orders.get? id with
  | none =>
    obtain ⟨htaken, hrested, htold, hnone⟩ := advance_absent cfg snap hwf hget
    obtain ⟨rfl, rfl, rfl⟩ := h.absent hget
    rw [htaken, hrested, htold]
    refine ⟨fun _ => ⟨add_zero 0, add_zero 0, rfl⟩, fun o hget' => ?_⟩
    rw [hnone] at hget'
    cases hget'
  | some o =>
    obtain ⟨o₁, o₂, o₃, hwaits, hadmit, -, hmatch, hget₃⟩ := advance_turns cfg snap hwf hget
    refine ⟨fun hnone => ?_, fun o' hget' => ?_⟩
    · rw [hget₃] at hnone
      cases hnone
    · rw [hget₃] at hget'
      cases hget'
      exact (((h.record o hget).waits hwaits).admitted hadmit).matched hmatch

/-- What is tracked of an order moves with each call. -/
lemma step (h : Tracked cfg e id taken rested probs) (hwf : WellFormed e) (op : MatchingOp) :
    Tracked cfg (MatchingEngine.step cfg e op) id
      (taken + totalSize (atAdvance (fun snap e => fillsOf id (takerFills cfg snap e)) e op))
      (rested + totalSize (atAdvance (fun snap e => fillsOf id (restingFills cfg snap e)) e op))
      (probs ++ atAdvance (fun snap e => evaluations cfg id snap (beforeMatching cfg snap e))
        e op) := by
  cases op with
  | submit order fresh =>
    simp only [atAdvance, totalSize_nil, add_zero, List.append_nil]
    exact h.submit order fresh
  | cancel target at_ =>
    simp only [atAdvance, totalSize_nil, add_zero, List.append_nil]
    exact h.cancel hwf target at_
  | advanceTo snap =>
    by_cases hacc : e.accepts snap = true
    · simp only [atAdvance, if_pos hacc]
      rw [step_of_accepts hacc]
      exact h.advance hwf
    · simp only [atAdvance, if_neg hacc, totalSize_nil, add_zero, List.append_nil]
      rw [step_of_not_accepts hacc]
      exact h

/-- What is tracked of an order over a run. -/
lemma run (h : Tracked cfg e id taken rested probs) (hwf : WellFormed e)
    (ops : List MatchingOp) : Tracked cfg (ops.foldl (MatchingEngine.step cfg) e) id
      (taken + takenIn cfg id e ops) (rested + restedIn cfg id e ops)
      (probs ++ evaluatedDuring cfg id e ops) := by
  induction ops generalizing e taken rested probs with
  | nil => simpa [takenIn, restedIn, evaluatedDuring, outputs] using h
  | cons op ops ih =>
    have hnext := ih (h.step hwf op) (wellFormed_step hwf op)
    simp only [takenIn, restedIn, evaluatedDuring] at hnext ⊢
    simpa only [List.foldl_cons, outputs, totalSize_append, ← add_assoc, ← List.append_assoc]
      using hnext

end Tracked

/-! ## The queue of an order -/

/-- A queue has lost at most the trade fraction of the depth that is gone, and has not grown. -/
structure Shrunk (cfg : MatchingConfig) (q q' gone : ℚ) : Prop where
  nonneg : 0 ≤ q'
  le : q' ≤ q
  progress : q - q' ≤ cfg.progressFraction * gone

lemma Shrunk.refl {q : ℚ} (hq : 0 ≤ q) : Shrunk cfg q q 0 :=
  ⟨hq, le_refl q, by rw [sub_self, mul_zero]⟩

lemma Shrunk.trans {q q' q'' gone gone' : ℚ} (h : Shrunk cfg q q' gone)
    (h' : Shrunk cfg q' q'' gone') : Shrunk cfg q q'' (gone + gone') := by
  refine ⟨h'.nonneg, h'.le.trans h.le, ?_⟩
  have hfirst := h.progress
  have hrest := h'.progress
  rw [mul_add]
  linarith

lemma goneAt_nonneg (id : OrderId) (snap : BookSnapshot) (e : MatchingEngine) :
    ∀ gone ∈ goneAt id snap e, 0 ≤ gone := by
  intro gone hgone
  unfold goneAt at hgone
  split at hgone
  · split at hgone
    · rw [List.mem_singleton.1 hgone]
      exact disappeared_nonneg _ _ _
    · cases hgone
  · cases hgone

/-- The turns of an admitted order in an advance: its queue shrinks when the interval opens. -/
lemma queue_advance (hwf : WellFormed e) (hget : e.orders.get? id = some o)
    (hstate : o.state ≠ .pending) {q : ℚ} (hq : o.queueAheadShares = some q) (hnonneg : 0 ≤ q) :
    ∃ o' q', (advance cfg snap e).1.orders.get? id = some o' ∧ o'.state ≠ .pending ∧
      o'.queueAheadShares = some q' ∧ Shrunk cfg q q' (goneAt id snap e).sum := by
  obtain ⟨o₁, o₂, o₃, hwaits, hadmit, -, hmatch, hget₃⟩ := advance_turns cfg snap hwf hget
  have hstate₁ : o₁.state ≠ .pending := by
    rcases hwaits.state with hs | hs <;> rw [hs]
    · exact hstate
    · decide
  obtain ⟨q', hq₁, hshrunk⟩ : ∃ q', o₁.queueAheadShares = some q' ∧
      Shrunk cfg q q' (goneAt id snap e).sum := by
    rcases hwaits.queue with hsame | ⟨old, hbook, htok, hdecay⟩
    · refine ⟨q, hsame.trans hq, hnonneg, le_refl q, ?_⟩
      rw [sub_self]
      exact mul_nonneg cfg.progressFraction_nonneg (List.sum_nonneg (goneAt_nonneg id snap e))
    · obtain ⟨q', hq', hnonneg', hle, hprogress⟩ := decayQueue_queue cfg hq hnonneg
      refine ⟨q', hdecay.trans hq', hnonneg', hle, hprogress.trans_eq ?_⟩
      simp only [goneAt, hget, hbook, if_pos htok, List.sum_singleton]
  obtain rfl := hadmit.eq_of_notPending hstate₁
  exact ⟨o₃, q', hget₃, hmatch.notPending hstate₁, hmatch.queue.trans hq₁, hshrunk⟩

/-- The queue of an admitted order over a run. -/
lemma queue_run (hwf : WellFormed e) (hget : e.orders.get? id = some o)
    (hstate : o.state ≠ .pending) {q : ℚ} (hq : o.queueAheadShares = some q) (hnonneg : 0 ≤ q)
    (ops : List MatchingOp) :
    ∃ o' q', (ops.foldl (step cfg) e).orders.get? id = some o' ∧
      o'.queueAheadShares = some q' ∧ Shrunk cfg q q' (goneIn cfg id e ops) := by
  induction ops generalizing e o q with
  | nil => exact ⟨o, q, hget, hq, .refl hnonneg⟩
  | cons op ops ih =>
    obtain ⟨o₁, q₁, hget₁, hstate₁, hq₁, hshrunk⟩ : ∃ o₁ q₁,
        (step cfg e op).orders.get? id = some o₁ ∧ o₁.state ≠ .pending ∧
        o₁.queueAheadShares = some q₁ ∧
        Shrunk cfg q q₁ (atAdvance (goneAt id) e op).sum := by
      rcases step_record cfg hwf hget op with ⟨at_, hrec, hnone⟩ | ⟨snap, rfl, hacc, heq⟩
      · refine ⟨_, q, hrec, hstate, hq, ?_⟩
        rw [hnone]
        exact .refl hnonneg
      · rw [heq, atAdvance, if_pos hacc]
        exact queue_advance hwf hget hstate hq hnonneg
    obtain ⟨o', q', hget', hq', hrest⟩ :=
      ih (wellFormed_step hwf op) hget₁ hstate₁ hq₁ hshrunk.nonneg
    refine ⟨o', q', hget', hq', ?_⟩
    rw [goneIn, outputs, List.sum_append]
    exact hshrunk.trans hrest

/-- **The queue gate.**  After any calls, an order that rests has a queue ahead of it that is not
negative, and over all further calls that queue neither grows nor turns negative and loses at most
the trade fraction of the depth ahead of the order that disappears from snapshot to snapshot.  On
no snapshot does an order fill while it rests if its queue, when the resting orders are matched on
that snapshot, exceeds `1e-9`.  With a fill model, what it has filled while it rested is at most
its size times the largest probability evaluated for it so far. -/
theorem queue_gate (cfg : MatchingConfig) (ops : List MatchingOp) (id : OrderId) :
    (∀ o, (runOps cfg ops).orders.get? id = some o → o.IsResting →
      ∃ q, o.queueAheadShares = some q ∧ 0 ≤ q ∧ ∀ later : List MatchingOp, ∃ o' q',
        (runOps cfg (ops ++ later)).orders.get? id = some o' ∧ o'.queueAheadShares = some q' ∧
          Shrunk cfg q q' (goneIn cfg id (runOps cfg ops) later)) ∧
      (∀ snap o q, (beforeMatching cfg snap (runOps cfg ops)).orders.get? id = some o →
        o.queueAheadShares = some q → e9 < q →
          fillsOf id (restingFills cfg snap (runOps cfg ops)) = []) ∧
      (cfg.fillModel.isSome = true → ∀ o, (runOps cfg ops).orders.get? id = some o →
        restedIn cfg id {} ops ≤ o.size * largest (evaluatedDuring cfg id {} ops)) := by
  have hwf : WellFormed (runOps cfg ops) := wellFormed_runOps ops
  have htracked := (Tracked.start : Tracked cfg {} id 0 0 []).run wellFormed_init ops
  simp only [zero_add, List.nil_append] at htracked
  refine ⟨fun o hget hrest => ?_, fun snap o q hget hq hlt => ?_, fun hmodel o hget => ?_⟩
  · obtain ⟨q, hq, hnonneg⟩ := (htracked.record o hget).queue hrest
    have hstate : o.state ≠ .pending := by
      rcases hrest with hs | hs <;> rw [hs] <;> decide
    refine ⟨q, hq, hnonneg, fun later => ?_⟩
    rw [runOps, List.foldl_append]
    exact queue_run hwf hget hstate hq hnonneg later
  · have hblocked : queueBlocked o = true := by
      rw [queueBlocked, hq]
      simpa using hlt
    cases hget₀ : (runOps cfg ops).orders.get? id with
    | none => exact (advance_absent cfg snap hwf hget₀).2.1
    | some o₀ =>
      obtain ⟨_, o₂, _, -, -, hget₂, hmatch, -⟩ := advance_turns cfg snap hwf hget₀
      rw [hget] at hget₂
      cases hget₂
      exact hmatch.blocked hblocked
  · exact (htracked.record o hget).rested_le hmodel

/-- A hundred shares bid at one half. -/
def hundredAhead : BookSnapshot where
  tokenId := "t"
  observedAt := 2000
  bids := [⟨1 / 2, 100⟩]
  asks := []
  bids_desc := List.pairwise_singleton _ _
  asks_asc := List.Pairwise.nil

lemma bidBehind_fresh : Fresh (.limit "bid" "t" .buy (1 / 2) 10 0) := ⟨rfl, rfl⟩

/-- A bid for ten shares behind them. -/
def restBehind : List MatchingOp :=
  [.submit (.limit "bid" "t" .buy (1 / 2) 10 0) bidBehind_fresh, .advanceTo hundredAhead]

/-- The queue decays before the match: sixty-five shares are ahead of the bid when the next
snapshot comes, which shows none of them, and the bid fills on that snapshot. -/
theorem decayedQueue_filled :
    let e := runOps (.plain 1) restBehind
    (e.orders.get? "bid").map BacktestOrder.queueAheadShares = some (some 65) ∧
      (fillsOf "bid" (restingFills (.plain 1) (.offer "t" 3000 ⟨1 / 2, 10⟩) e)).map Fill.size =
        [10] := by
  decide +kernel

end MatchingEngine

end Evosport.Backtest
