/-
No fill is worse than the limit of its order.

A resting order is filled at its own limit.  A taker stops at the first level beyond its limit,
but what it pays is the price of the level marked up by the market impact, and nothing compares
the marked price with the limit again.  `LeavesRoom` says that the marked prices of the levels
that a walk takes from stay within the limit; `withinLimits_iff_leaveRoom` says that a run fills
nothing beyond a limit if and only if every taker of the run is left that room.
-/
import Evosport.Backtest.Liquidity

namespace Evosport.Backtest

open Lib

/-- The price that a taker on `side` pays for a level at `price`. -/
def markedPrice (side : Side) (impactFactor price : ℚ) : ℚ :=
  if impactFactor > 0 then
    match side with
    | .buy => min (9999 / 10000) (price * (1 + impactFactor))
    | .sell => max (1 / 10000) (price * (1 - impactFactor))
  else price

/-- The impact factor of the walk of an order over a book. -/
def impactFactor (cfg : MatchingConfig) (o : BacktestOrder) (book : ResidualBook) : ℚ :=
  cfg.impact.adverseBps o.remainingSize
    (visibleDepth o.side o.price (book.remaining o.side)) / 10000

/-- The walk of a taker with `remaining` shares to go takes from the level `x`, which comes behind
`before`. -/
def TakesFrom (side : Side) (limit remaining : ℚ) (before : List (ℚ × ℚ)) (x : ℚ × ℚ) : Prop :=
  0 < x.2 ∧ beyondLimit side limit x.1 = false ∧ visibleDepth side limit before < remaining

instance (side : Side) (limit remaining : ℚ) (before : List (ℚ × ℚ)) (x : ℚ × ℚ) :
    Decidable (TakesFrom side limit remaining before x) :=
  inferInstanceAs (Decidable (_ ∧ _ ∧ _))

/-- The impact leaves the marked price of every level that the walk takes from within the limit. -/
def LeavesRoom (cfg : MatchingConfig) (o : BacktestOrder) (book : ResidualBook) : Prop :=
  ∀ k < (book.remaining o.side).length, ∀ x ∈ (book.remaining o.side)[k]?,
    TakesFrom o.side o.price o.remainingSize ((book.remaining o.side).take k) x →
      beyondLimit o.side o.price (markedPrice o.side (impactFactor cfg o book) x.1) = false

instance (cfg : MatchingConfig) (o : BacktestOrder) (book : ResidualBook) :
    Decidable (LeavesRoom cfg o book) := by
  unfold LeavesRoom
  infer_instance

lemma beyondLimit_self (side : Side) (limit : ℚ) : beyondLimit side limit limit = false := by
  have hpos := e12_pos
  cases side <;> simp only [beyondLimit, decide_eq_false_iff_not, not_lt] <;> linarith

/-! ## The fills of one walk -/

variable {cfg : MatchingConfig} {side : Side} {limit remaining : ℚ} {x : ℚ × ℚ}
  {levels : List (ℚ × ℚ)}

/-- A statement about the levels of a list, with what comes before them, splits at the first. -/
private lemma forall_levels_cons {P : List (ℚ × ℚ) → ℚ × ℚ → Prop} :
    (∀ k < (x :: levels).length, ∀ y ∈ (x :: levels)[k]?, P ((x :: levels).take k) y) ↔
      P [] x ∧ ∀ k < levels.length, ∀ y ∈ levels[k]?, P (x :: levels.take k) y := by
  constructor
  · intro h
    refine ⟨h 0 (by simp) x (by simp), fun k hk y hy => ?_⟩
    simpa using h (k + 1) (by simpa using hk) y (by simpa using hy)
  · rintro ⟨hx, h⟩ k hk y hy
    cases k with
    | zero =>
      obtain rfl : x = y := by simpa using hy
      simpa using hx
    | succ k => simpa using h k (by simpa using hk) y (by simpa using hy)

/-- The fills of a walk are priced as `P` asks exactly when the levels it takes from are. -/
lemma consumeLoop_price_iff {P : ℚ → Prop} (impactFactor : ℚ) (occurredAt : Time)
    (o : BacktestOrder) (book : ResidualBook) (hsort : ReachSorted o.side o.price levels) :
    (∀ f ∈ (consumeLoop cfg impactFactor occurredAt levels o book remaining).fills, P f.price) ↔
      ∀ k < levels.length, ∀ x ∈ levels[k]?, TakesFrom o.side o.price remaining (levels.take k) x →
        P (markedPrice o.side impactFactor x.1) := by
  induction levels generalizing o book remaining with
  | nil => simp [consumeLoop]
  | cons x levels ih =>
    obtain ⟨price, qty⟩ := x
    have hsort' : ReachSorted o.side o.price levels := (List.pairwise_cons.1 hsort).2
    rw [forall_levels_cons (P := fun before x =>
      TakesFrom o.side o.price remaining before x → P (markedPrice o.side impactFactor x.1))]
    unfold consumeLoop
    by_cases hdone : remaining ≤ 0
    · -- a finished walk takes from no level
      have hnone : ∀ before y, ¬ TakesFrom o.side o.price remaining before y := fun before y h =>
        absurd (h.2.2.trans_le hdone) (not_lt.2 (visibleDepth_nonneg _ _ _))
      simp only [if_pos hdone, List.not_mem_nil, false_imp_iff, implies_true, true_iff]
      exact ⟨fun h => absurd h (hnone _ _), fun k _ y _ h => absurd h (hnone _ _)⟩
    rw [if_neg hdone]
    by_cases hqty : qty ≤ 0
    · rw [if_pos hqty, ih o book hsort']
      have hskip : ¬ TakesFrom o.side o.price remaining [] (price, qty) := fun h =>
        absurd h.1 (not_lt.2 hqty)
      simp only [TakesFrom, visibleDepth_cons_of_empty hqty]
      exact ⟨fun h => ⟨fun htake => absurd htake hskip, h⟩, fun h => h.2⟩
    rw [if_neg hqty]
    have hqty' := not_le.1 hqty
    by_cases hout : beyondLimit o.side o.price price = true
    · -- everything behind the level is out of reach as well
      have hbehind : ∀ y ∈ (price, qty) :: levels, beyondLimit o.side o.price y.1 = true := by
        intro y hy
        rcases List.mem_cons.1 hy with rfl | hy
        · exact hout
        · exact (List.pairwise_cons.1 hsort).1 y hy hout
      simp only [if_pos hout, List.not_mem_nil, false_imp_iff, implies_true, true_iff]
      refine ⟨fun h => ?_, fun k _ y hy h => ?_⟩
      · exact absurd (h.2.1.symm.trans (hbehind _ List.mem_cons_self)) (by simp)
      · have hmem := List.mem_cons_of_mem (price, qty) (List.mem_of_getElem? hy)
        exact absurd (h.2.1.symm.trans (hbehind y hmem)) (by simp)
    rw [if_neg hout]
    have hreach : beyondLimit o.side o.price price = false := by simpa using hout
    have htake : TakesFrom o.side o.price remaining [] (price, qty) :=
      ⟨hqty', hreach, not_le.1 hdone⟩
    -- the levels behind see what the first one leaves
    have hrest : ∀ before y, TakesFrom o.side o.price (remaining - min qty remaining) before y ↔
        TakesFrom o.side o.price remaining ((price, qty) :: before) y := by
      intro before y
      have hdepth := visibleDepth_nonneg o.side o.price before
      simp only [TakesFrom, visibleDepth_cons_of_reach hqty' hreach]
      rcases le_total qty remaining with hle | hle
      · rw [min_eq_left hle, lt_sub_iff_add_lt, add_comm]
      · rw [min_eq_right hle, sub_self]
        constructor
        · exact fun h => absurd h.2.2 (not_lt.2 hdepth)
        · exact fun h => absurd h.2.2 (not_lt.2 (by linarith))
    have hih := @ih (remaining - min qty remaining)
      (o.recordFill (takerFill cfg book.snapshot impactFactor occurredAt o price (min qty remaining)))
      (book.consume o.side price (min qty remaining)) hsort'
    simp only [List.forall_mem_cons, hih]
    refine and_congr ⟨fun h _ => h, fun h => h htake⟩ ?_
    simp only [← hrest]
    exact Iff.rfl

namespace MatchingEngine

variable {snap : BookSnapshot} {e e' : MatchingEngine} {o : BacktestOrder} {book : ResidualBook}
  {fs : List Fill}

/-- The fills of a taker are within its limit exactly when it is left room. -/
lemma consumeLevels_withinLimit_iff (now : Option Time) (o : BacktestOrder) (book : ResidualBook) :
    (∀ f ∈ (consumeLevels cfg now o book).fills, beyondLimit o.side o.price f.price = false) ↔
      LeavesRoom cfg o book := by
  unfold consumeLevels LeavesRoom
  by_cases hrem : o.remainingSize ≤ 0
  · simp only [hrem, if_true, List.not_mem_nil, false_imp_iff, implies_true, true_iff]
    intro k _ x _ htake
    exact absurd (htake.2.2.trans_le hrem) (not_lt.2 (visibleDepth_nonneg _ _ _))
  · simp only [hrem, if_false]
    exact consumeLoop_price_iff (P := fun p => beyondLimit o.side o.price p = false) _ _ _ _
      (reachSorted_remaining book o.side o.price)

/-- Every fill of the ledger is at the limit of its order or better, up to the tolerance of the
matcher. -/
def WithinLimits (e : MatchingEngine) : Prop :=
  ∀ f ∈ e.allFills, ∃ limit ∈ e.limitOf f.orderId, beyondLimit f.side limit f.price = false

instance (e : MatchingEngine) : Decidable (WithinLimits e) := by
  unfold WithinLimits
  infer_instance

/-- An order that takes liquidity on its admission is left room. -/
def AdmitLeavesRoom (cfg : MatchingConfig) (snap : BookSnapshot) (e : MatchingEngine)
    (id : OrderId) : Prop :=
  ∀ o ∈ e.orders.get? id, isDue snap.tokenId snap.observedAt o = true →
    ∀ book ∈ e.books.get? o.tokenId, TakesLiquidity cfg o book → LeavesRoom cfg o book

/-- The impact leaves room within its limit to every order that takes liquidity in the call. -/
def ImpactLeavesRoom (cfg : MatchingConfig) (e : MatchingEngine) : MatchingOp → Prop
  | .advanceTo snap => (∀ before ∈ e.now, before ≤ snap.observedAt) →
      EveryAdmission cfg snap (AdmitLeavesRoom cfg snap) (openInterval cfg snap e)
  | _ => True

/-! ## One advance -/

/-- The fill is at the limit of its order or better. -/
def FillWithin (e : MatchingEngine) (f : Fill) : Prop :=
  ∃ limit ∈ e.limitOf f.orderId, beyondLimit f.side limit f.price = false

lemma fillWithin_iff (hget : e.orders.get? o.orderId = some o) {f : Fill}
    (hid : f.orderId = o.orderId) (hside : f.side = o.side) :
    FillWithin e f ↔ beyondLimit o.side o.price f.price = false := by
  have hlimit : e.limitOf f.orderId = some o.price := by
    rw [hid, limitOf, hget]
    rfl
  unfold FillWithin
  rw [hlimit, hside]
  simp

/-- One turn of step 3 fills within the limits exactly when its order is left room. -/
lemma admitOne_withinLimit_iff (hi : InInterval snap e) (id : OrderId) :
    AdmitLeavesRoom cfg snap e id ↔ ∀ f ∈ (admitOne cfg snap id e).2, FillWithin e f := by
  cases hget : e.orders.get? id with
  | none => simp [AdmitLeavesRoom, admitOne, hget]
  | some o =>
    by_cases hdue : isDue snap.tokenId snap.observedAt o = true
    · obtain ⟨book, rfl, hadm, hcase⟩ := admitOne_of_due cfg hi hget hdue
      have hown : ∀ f ∈ (consumeLevels cfg e.now o book).fills,
          (FillWithin e f ↔ beyondLimit o.side o.price f.price = false) := fun f hf =>
        have hf' := (consumeLevels_walk cfg e.now o book).own hf
        fillWithin_iff hget hf'.1 hf'.2.2.1
      have hwalk : (∀ f ∈ (consumeLevels cfg e.now o book).fills,
          beyondLimit o.side o.price f.price = false) ↔ LeavesRoom cfg o book :=
        consumeLevels_withinLimit_iff e.now o book
      constructor
      · intro hroom
        rcases hcase.fills with ⟨htakes, hfs, -⟩ | ⟨-, hfs⟩
        · rw [hfs]
          exact fun f hf => (hown f hf).2 (hwalk.2 (hroom o hget hdue book hadm.bookOf htakes) f hf)
        · rw [hfs]
          rintro f ⟨⟩
      · intro hall o' ho' _ book' hbook' htakes
        cases hget.symm.trans ho'
        cases hadm.bookOf.symm.trans hbook'
        rcases hcase.fills with ⟨-, hfs, -⟩ | ⟨hnot, -⟩
        · rw [hfs] at hall
          exact hwalk.1 fun f hf => (hown f hf).1 (hall f hf)
        · exact absurd htakes hnot
    · simp [AdmitLeavesRoom, admitOne, hget, hdue]

/-- A resting order is filled at its own limit. -/
lemma restLoop_price (snap : BookSnapshot) (levels : List (ℚ × ℚ)) (o : BacktestOrder)
    (book : ResidualBook) (remaining : ℚ) :
    ∀ f ∈ (restLoop cfg snap levels o book remaining).fills, f.price = o.price := by
  induction levels generalizing o book remaining with
  | nil => rintro f ⟨⟩
  | cons x levels ih =>
    obtain ⟨price, qty⟩ := x
    unfold restLoop
    split
    · rintro f ⟨⟩
    split
    · rintro f ⟨⟩
    obtain ⟨-, p, hp⟩ := fillProbabilityCappedTake_spec cfg o snap (min qty remaining)
    simp only [hp]
    split
    · exact ih _ _ _
    · intro f hf
      rcases List.mem_cons.1 hf with rfl | hf
      · rfl
      · have hrest := ih _ _ _ f hf
        exact hrest

/-- A match of a resting order fills within its limit. -/
lemma Resting.withinLimit (hget : e.orders.get? o.orderId = some o)
    (hcase : Resting cfg e o book e' fs) : ∀ f ∈ fs, FillWithin e f := by
  intro f hf
  rcases hcase.books with ⟨-, hfs⟩ | ⟨-, hpos, -, hfs⟩
  · rw [hfs] at hf
    cases hf
  · rw [hfs] at hf
    have hown := (restLoop_walk_of_pos cfg hpos book.snapshot (book.remaining o.side) book).own hf
    rw [fillWithin_iff hget hown.1 hown.2.2.1, restLoop_price _ _ _ _ _ f hf]
    exact beyondLimit_self o.side o.price

/-- The limits of the orders stay what they are while the interval opens. -/
lemma Interim.limitOf (e : MatchingEngine) : Interim fun e' => e'.limitOf = e.limitOf :=
  kept_price.interim e

/-- An advance changes no limit. -/
lemma limitOf_advance (hwf : WellFormed e) (snap : BookSnapshot) :
    (advance cfg snap e).1.limitOf = e.limitOf :=
  kept_price.advance hwf snap

/-- An advance fills within the limits exactly when its takers are left room. -/
lemma advance_withinLimit_iff (hwf : WellFormed e) (snap : BookSnapshot) :
    EveryAdmission cfg snap (AdmitLeavesRoom cfg snap) (openInterval cfg snap e) ↔
      ∀ f ∈ (advance cfg snap e).2, FillWithin e f := by
  -- the limits are those before the advance in every state of the loops
  have hsame : ∀ {e₁ : MatchingEngine}, e₁.limitOf = e.limitOf →
      ∀ f, FillWithin e₁ f ↔ FillWithin e f := fun h f => by rw [FillWithin, h]; rfl
  have hopen := openInterval_induct cfg (Interim.limitOf e) snap hwf rfl
  have hadmission : EveryAdmission cfg snap (AdmitLeavesRoom cfg snap) (openInterval cfg snap e) ↔
      ∀ f ∈ (admitAll cfg snap (openInterval cfg snap e)).2, FillWithin e f := by
    rw [admitAll, forOrders_forall_iff]
    refine EveryStep.congr (I := fun e₁ => InInterval snap e₁ ∧ e₁.limitOf = e.limitOf)
      (fun e₁ id hI => ⟨inInterval_admitOne hI.1 id, ?_⟩) (fun e₁ id hI => ?_)
      ⟨inInterval_open cfg hwf snap, hopen.2⟩
    · rcases admitOne_cases cfg hI.1 id with heq | ⟨o, book, -, hadm, hcase⟩
      · rw [heq]
        exact hI.2
      · obtain ⟨o', heff⟩ := hadm.effect hI.1 hcase
        exact (limitOf_effect hadm.order heff).trans hI.2
    · rw [admitOne_withinLimit_iff hI.1 id]
      exact forall₂_congr fun f _ => hsame hI.2 f
  have hmatch : ∀ f ∈ (matchAll cfg snap (admitAll cfg snap (openInterval cfg snap e)).1).2,
      FillWithin e f := by
    have hin' := admitAll_induct cfg (C := fun _ _ => True)
      (J := fun e₁ _ => e₁.limitOf = e.limitOf)
      (fun hi hJ hadm hcase _ => by
        obtain ⟨o', heff⟩ := hadm.effect hi hcase
        exact (limitOf_effect hadm.order heff).trans hJ)
      (inInterval_open cfg hwf snap) hopen.2 (.of_forall fun _ _ => trivial)
    have hnone : ∀ f ∈ ([] : List Fill), FillWithin e f := by simp
    refine (matchAll_induct cfg (C := fun _ _ => True)
      (J := fun e₁ fs => e₁.limitOf = e.limitOf ∧ ∀ f ∈ fs, FillWithin e f)
      (fun _ hJ hm hcase _ => ?_) hin'.1 ⟨hin'.2, hnone⟩ (.of_forall fun _ _ => trivial)).2.2
    refine ⟨?_, fun f hf => ?_⟩
    · rcases hm.effect hcase with ⟨heq, -⟩ | ⟨o', heff⟩
      · rw [heq]
        exact hJ.1
      · exact (limitOf_effect hm.order heff).trans hJ.1
    · rcases List.mem_append.1 hf with hf | hf
      · exact hJ.2 f hf
      · exact (hsame hJ.1 f).1 (hcase.withinLimit hm.order f hf)
  rw [hadmission]
  constructor
  · intro h f hf
    rcases List.mem_append.1 hf with hf | hf
    · exact h f hf
    · exact hmatch f hf
  · intro h f hf
    exact h f (List.mem_append_left _ hf)

/-! ## Runs -/

/-- Every fill of the ledger is a fill of an order on record. -/
def OnRecord (e : MatchingEngine) : Prop := ∀ f ∈ e.allFills, ∃ limit, e.limitOf f.orderId = some limit

/-- A call neither changes nor forgets a limit. -/
lemma limitOf_step (hwf : WellFormed e) (op : MatchingOp) {id : OrderId} (h : e.limitOf id = some limit) :
    (step cfg e op).limitOf id = some limit :=
  kept_price.step hwf op h

/-- The ledger grows by what a call produces. -/
lemma allFills_step (hwf : WellFormed e) (op : MatchingOp) :
    (step cfg e op).allFills = e.allFills ++ produced cfg e op := by
  rcases step_cases cfg hwf op with ⟨heq, hfs⟩ | ⟨_, _, -, -, hs, hfs⟩ |
    ⟨_, _, -, -, ht, hfs⟩ | ⟨snap, -, -, heq, hfs⟩
  · rw [heq, hfs, List.append_nil]
  · rw [hs.allFills, hfs, List.append_nil]
  · rw [ht.allFills, hfs, List.append_nil]
  · rw [heq, hfs, allFills_advance cfg hwf snap]

/-- An advance fills orders on record. -/
lemma advance_onRecord (hwf : WellFormed e) (snap : BookSnapshot) :
    ∀ f ∈ (advance cfg snap e).2, ∃ limit, e.limitOf f.orderId = some limit := by
  obtain ⟨e₁, -, ⟨-, hfills⟩, -⟩ := advance_effects cfg
    (J := fun e₁ fs => e₁.limitOf = e.limitOf ∧ ∀ f ∈ fs, ∃ limit, e.limitOf f.orderId = some limit)
    hwf snap ⟨(openInterval_induct cfg (Interim.limitOf e) snap hwf rfl).2, by simp⟩ (by
      intro e₁ o o' e' fs fs' _ hJ hget _ _ heff
      refine ⟨(limitOf_effect hget heff).trans hJ.1, fun f hf => ?_⟩
      rcases List.mem_append.1 hf with hf | hf
      · exact hJ.2 f hf
      · obtain ⟨o₁, hwalk, -⟩ := heff.walk
        refine ⟨o.price, ?_⟩
        rw [← hJ.1, (hwalk.own hf).1, limitOf, hget]
        rfl)
  exact hfills

lemma OnRecord.step (hwf : WellFormed e) (h : OnRecord e) (op : MatchingOp) :
    OnRecord (step cfg e op) := by
  have hbefore : ∀ f ∈ (MatchingEngine.step cfg e op).allFills, ∃ limit, e.limitOf f.orderId = some limit := by
    rw [allFills_step hwf]
    intro f hf
    rcases List.mem_append.1 hf with hf | hf
    · exact h f hf
    · obtain ⟨snap, rfl, -⟩ := produced_tokenId hwf op f hf
      rcases advanceTo_cases cfg e snap with ⟨-, err, heq⟩ | ⟨-, heq⟩
      · simp [produced, heq, Except.toOption] at hf
      · exact advance_onRecord hwf snap f (by simpa [produced, heq, Except.toOption] using hf)
  intro f hf
  obtain ⟨limit, hlimit⟩ := hbefore f hf
  exact ⟨limit, limitOf_step hwf op hlimit⟩

/-- The fills of one call are within their limits exactly when its takers are left room. -/
lemma produced_within_iff (hwf : WellFormed e) (op : MatchingOp) :
    (∀ f ∈ produced cfg e op, FillWithin (step cfg e op) f) ↔ ImpactLeavesRoom cfg e op := by
  cases op with
  | submit order fresh => simp [produced, ImpactLeavesRoom]
  | cancel orderId requestedAt => simp [produced, ImpactLeavesRoom]
  | advanceTo snap =>
    rcases advanceTo_cases cfg e snap with ⟨hpast, err, heq⟩ | ⟨hnow, heq⟩
    · obtain ⟨before, hbefore, hlt⟩ := hpast
      have hnone : produced cfg e (.advanceTo snap) = [] := by simp [produced, heq, Except.toOption]
      rw [hnone]
      exact ⟨fun _ hle => absurd (hle before hbefore) (not_le.2 hlt), fun _ => by rintro f ⟨⟩⟩
    · have hfs : produced cfg e (.advanceTo snap) = (advance cfg snap e).2 := by
        simp [produced, heq, Except.toOption]
      have hafter : step cfg e (.advanceTo snap) = (advance cfg snap e).1 := by
        simp [step, heq, Except.toOption]
      have hsame : ∀ f, FillWithin (advance cfg snap e).1 f ↔ FillWithin e f := fun f => by
        rw [FillWithin, limitOf_advance hwf]
        rfl
      rw [hfs, hafter]
      simp only [hsame]
      rw [← advance_withinLimit_iff hwf snap]
      exact ⟨fun h _ => h, fun h => h hnow⟩

/-- A call keeps the ledger within the limits exactly when its takers are left room. -/
lemma withinLimits_step_iff (hwf : WellFormed e) (hrec : OnRecord e) (op : MatchingOp) :
    WithinLimits (step cfg e op) ↔ WithinLimits e ∧ ImpactLeavesRoom cfg e op := by
  have hold : ∀ f ∈ e.allFills, (FillWithin (step cfg e op) f ↔ FillWithin e f) := by
    intro f hf
    obtain ⟨limit, hlimit⟩ := hrec f hf
    rw [FillWithin, FillWithin, hlimit, limitOf_step hwf op hlimit]
  rw [← produced_within_iff hwf op]
  show (∀ f ∈ (step cfg e op).allFills, FillWithin (step cfg e op) f) ↔ _
  rw [allFills_step hwf op]
  constructor
  · intro h
    exact ⟨fun f hf => (hold f hf).1 (h f (List.mem_append_left _ hf)),
      fun f hf => h f (List.mem_append_right _ hf)⟩
  · rintro ⟨hbefore, hnew⟩ f hf
    rcases List.mem_append.1 hf with hf | hf
    · exact (hold f hf).2 (hbefore f hf)
    · exact hnew f hf

/-- **No fill is worse than its limit** if and only if the impact leaves room within its limit to
every order that takes liquidity. -/
theorem withinLimits_iff_leavesRoom (cfg : MatchingConfig) (ops : List MatchingOp) :
    WithinLimits (runOps cfg ops) ↔ EveryStep (step cfg) (ImpactLeavesRoom cfg) {} ops := by
  have hrun : ∀ ops, OnRecord (runOps cfg ops) := fun ops =>
    (foldl_invariant (I := fun e => WellFormed e ∧ OnRecord e)
      (fun e op h => ⟨wellFormed_step h.1 op, h.2.step h.1 op⟩)
      ⟨wellFormed_init, by rintro f ⟨⟩⟩ ops).2
  induction ops using List.reverseRecOn with
  | nil => exact ⟨fun _ => trivial, fun _ => by rintro f ⟨⟩⟩
  | append_singleton ops op ih =>
    have hlast : runOps cfg (ops ++ [op]) = step cfg (runOps cfg ops) op := by simp [runOps]
    rw [hlast, withinLimits_step_iff (wellFormed_runOps ops) (hrun ops) op, EveryStep.snoc]
    exact and_congr_left fun _ => ih

/-- An order for the whole of the one level of the book pays one percent above the level. -/
def onePercentImpact : MatchingConfig :=
  { MatchingConfig.plain 1 with
    impact := { strengthBps := 100, capacityThreshold := 1, sqrt := id, pow := fun x _ => x } }

/-- A bid at one half for the ten shares offered at one half. -/
def bidForTheOffer : List MatchingOp :=
  [halfBid "bid", .advanceTo (.offer "t" 1000 ⟨1 / 2, 10⟩)]

/-- The bid at one half pays more than one half. -/
theorem bidForTheOffer_beyondLimit : ¬ WithinLimits (runOps onePercentImpact bidForTheOffer) := by
  decide +kernel

end MatchingEngine

end Evosport.Backtest
