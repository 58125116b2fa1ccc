/-
A run of the engine as a run of its two parts.

The engine changes its portfolio only through fills, synthetic closes and marks, and its
matching engine only through submissions and advances.  `snapshotEvents` lists what one
snapshot does to the portfolio and `onSnapshot_cases` is the inversion of `onSnapshot`: every
later result about runs reads the step off it.  `portfolio_feed` says that the portfolio of
a run is the replay of its events, and `reaches_feed` that its matching engine is in a state
that submissions and advances reach.
-/
import Evosport.Lib.Fallible
import Evosport.Backtest.Ledger
import Evosport.Backtest.Engine
import Evosport.Backtest.Advance

namespace Evosport.Backtest

open Lib

namespace BacktestEngine

variable {σ : Type} (cfg : BacktestConfig)

/-! ## The events of a run -/

/-- The closes that redeem the positions of one token. -/
def settleTokenEvents (now : Time) (token : TokenId) (e : BacktestEngine σ) :
    List PortfolioEvent :=
  match cfg.settlements.get? token with
  | none => []
  | some settlement =>
    match settlement.settlePrice with
    | none => []
    | some price =>
      (heldKeys e.portfolio fun t => decide (t = token)).map fun key =>
        .close key price (settlement.resolutionTime.getD now) true

/-- The closes of the settlement sweep over what is left of the schedule. -/
def settleLoopEvents (now : Time) :
    List (Time × TokenId) → BacktestEngine σ → List PortfolioEvent
  | [], _ => []
  | (at_, token) :: rest, e =>
    if at_ ≤ now then
      let e := { e with resolutionPtr := e.resolutionPtr + 1 }
      settleTokenEvents cfg now token e ++
        settleLoopEvents now rest (settleToken cfg now token e)
    else []

/-- The closes of the settlement sweep. -/
def settleEvents (now : Time) (e : BacktestEngine σ) : List PortfolioEvent :=
  settleLoopEvents cfg now (e.resolutionSchedule.drop e.resolutionPtr) e

/-- The fills that an advance produced, with the strategies of their orders. -/
def fillEvents (m : MatchingEngine) (fills : List Fill) : List PortfolioEvent :=
  fills.filterMap fun f => (m.orders.get? f.orderId).map fun o => .fill f o.strategySlug

/-- The mark at the mid of a snapshot. -/
def markEvents (snap : BookSnapshot) : List PortfolioEvent :=
  match snap.mid with
  | some mid => [.mark snap.tokenId mid snap.observedAt]
  | none => []

/-- What one snapshot does to the portfolio.  A hook that raises cuts the events short. -/
def snapshotEvents (e : BacktestEngine σ) (snap : BookSnapshot) : List PortfolioEvent :=
  let settled := settleDue cfg snap.observedAt e
  settleEvents cfg snap.observedAt e ++
    if settled.involved snap then
      match drainIntents cfg snap.observedAt settled with
      | .error _ => []
      | .ok drained =>
        match drained.matching.advanceTo cfg.matching snap with
        | .error _ => []
        | .ok advanced => fillEvents advanced.1 advanced.2 ++ markEvents snap
    else []

/-- What feeding the snapshots does to the portfolio. -/
def feedEvents (strat : Option (Strategy σ)) (snapshots : List BookSnapshot)
    (e : BacktestEngine σ) : List PortfolioEvent :=
  emitted (feedOne (onSnapshot cfg strat)) (snapshotEvents cfg) e snapshots

/-- The close of one position at the end of the run. -/
def finalCloseEvents (runEnd : Option Time) (e : BacktestEngine σ) (key : PositionKey) :
    List PortfolioEvent :=
  match e.portfolio.positions.get? key with
  | none => []
  | some pos =>
    match resolvedInWindow cfg runEnd pos with
    | some (price, at_) => [.close key price at_ true]
    | none =>
      let closeAt := ((pos.lastMarkAt.or pos.openedAt).or runEnd).getD cfg.wallClock
      [.close key (truthyOr pos.lastMarkPrice pos.entryPrice) closeAt false]

/-- The closes at the end of the run. -/
def finishEvents (e : BacktestEngine σ) : List PortfolioEvent :=
  if cfg.finalCloseAtLastMid then
    outputs (finalClose cfg e.matching.now) (finalCloseEvents cfg e.matching.now) e
      (heldKeys e.portfolio fun _ => true)
  else []

/-- What a run does to the portfolio. -/
def runEvents (strat : Option (Strategy σ)) (strategyState : σ) (tradeIntents : List TradeIntent)
    (snapshots : List BookSnapshot) : List PortfolioEvent :=
  feedEvents cfg strat snapshots (start cfg strategyState tradeIntents) ++
    match feed cfg strat snapshots (start cfg strategyState tradeIntents) with
    | .ok e => finishEvents cfg e
    | .error _ => []

/-! ## The settlement sweep -/

/-- The settlement sweep changes the portfolio, its counter and the pointer only. -/
structure Settled (e e' : BacktestEngine σ) (events : List PortfolioEvent) : Prop where
  portfolio : e'.portfolio = e.portfolio.replay events
  rest : ∃ n k, e' =
    { e with portfolio := e'.portfolio, settledPositionCount := n, resolutionPtr := k }

lemma Settled.trans {e e₁ e₂ : BacktestEngine σ} {evs evs' : List PortfolioEvent}
    (h : Settled e e₁ evs) (h' : Settled e₁ e₂ evs') : Settled e e₂ (evs ++ evs') := by
  obtain ⟨n, k, hrest⟩ := h.rest
  obtain ⟨n', k', hrest'⟩ := h'.rest
  refine ⟨?_, n', k', ?_⟩
  · rw [h'.portfolio, h.portfolio, Portfolio.replay_append]
  · rw [hrest', hrest]

lemma settleToken_settled (now : Time) (token : TokenId) (e : BacktestEngine σ) :
    Settled e (settleToken cfg now token e) (settleTokenEvents cfg now token e) := by
  unfold settleToken settleTokenEvents
  cases cfg.settlements.get? token with
  | none => exact ⟨rfl, _, _, rfl⟩
  | some settlement =>
    dsimp only
    cases settlement.settlePrice with
    | none => exact ⟨rfl, _, _, rfl⟩
    | some price =>
      refine ⟨?_, _, _, rfl⟩
      simp only [Portfolio.replay, List.foldl_map]
      rfl

lemma settleLoop_settled (now : Time) (schedule : List (Time × TokenId))
    (e : BacktestEngine σ) :
    Settled e (settleLoop cfg now schedule e) (settleLoopEvents cfg now schedule e) := by
  induction schedule generalizing e with
  | nil => exact ⟨rfl, _, _, rfl⟩
  | cons entry rest ih =>
    obtain ⟨at_, token⟩ := entry
    unfold settleLoop settleLoopEvents
    split
    · -- counting the entry touches nothing that the events see
      have hcount : Settled e { e with resolutionPtr := e.resolutionPtr + 1 } [] :=
        ⟨rfl, _, _, rfl⟩
      exact (hcount.trans (settleToken_settled cfg now token _)).trans (ih _)
    · exact ⟨rfl, _, _, rfl⟩

lemma settleDue_settled (now : Time) (e : BacktestEngine σ) :
    Settled e (settleDue cfg now e) (settleEvents cfg now e) :=
  settleLoop_settled cfg now _ e

lemma matching_settleDue (now : Time) (e : BacktestEngine σ) :
    (settleDue cfg now e).matching = e.matching := by
  obtain ⟨n, k, h⟩ := (settleDue_settled cfg now e).rest
  rw [h]

/-- The sweep only closes positions, at the redemption price of their market. -/
lemma settleEvents_redeem {now : Time} {e : BacktestEngine σ} {ev : PortfolioEvent}
    (h : ev ∈ settleEvents cfg now e) : ∃ key price at_, ev = .close key price at_ true ∧
      ∃ token s, cfg.settlements.get? token = some s ∧ s.settlePrice = some price := by
  have htoken : ∀ (e : BacktestEngine σ) token, ev ∈ settleTokenEvents cfg now token e →
      ∃ key price at_, ev = .close key price at_ true ∧
        ∃ token s, cfg.settlements.get? token = some s ∧ s.settlePrice = some price := by
    intro e token h
    unfold settleTokenEvents at h
    cases hs : cfg.settlements.get? token with
    | none =>
      rw [hs] at h
      cases h
    | some settlement =>
      cases hp : settlement.settlePrice with
      | none =>
        simp only [hs, hp] at h
        cases h
      | some price =>
        simp only [hs, hp] at h
        obtain ⟨key, -, rfl⟩ := List.mem_map.1 h
        exact ⟨key, price, _, rfl, token, settlement, hs, hp⟩
  have hloop : ∀ (schedule : List (Time × TokenId)) (e : BacktestEngine σ),
      ev ∈ settleLoopEvents cfg now schedule e → ∃ key price at_, ev = .close key price at_ true ∧
        ∃ token s, cfg.settlements.get? token = some s ∧ s.settlePrice = some price := by
    intro schedule
    induction schedule with
    | nil =>
      intro e h
      cases h
    | cons entry rest ih =>
      intro e h
      obtain ⟨at_, token⟩ := entry
      unfold settleLoopEvents at h
      split at h
      · rcases List.mem_append.1 h with h | h
        · exact htoken _ _ h
        · exact ih _ h
      · cases h
  exact hloop _ _ h

/-- The sweep only closes positions. -/
lemma mem_settleEvents {now : Time} {e : BacktestEngine σ} {ev : PortfolioEvent}
    (h : ev ∈ settleEvents cfg now e) : ∃ key price at_, ev = .close key price at_ true := by
  obtain ⟨key, price, at_, hev, -⟩ := settleEvents_redeem cfg h
  exact ⟨key, price, at_, hev⟩

/-! ## The steps of one snapshot -/

/-- A submission of an order in `P`. -/
def IsSubmit (P : BacktestOrder → Prop) : MatchingOp → Prop
  | .submit order _ => P order
  | _ => False

/-- A submission or an advance: everything the engine asks of its matching engine. -/
def IsDriven : MatchingOp → Prop
  | .cancel .. => False
  | _ => True

lemma IsSubmit.imp {P Q : BacktestOrder → Prop} (h : ∀ o, P o → Q o) (op : MatchingOp)
    (hop : IsSubmit P op) : IsSubmit Q op := by
  cases op with
  | submit order hf => exact h order hop
  | cancel => exact hop
  | advanceTo => exact hop

/-- Submissions of orders in `P` take the matching engine from `m` to `m'`. -/
abbrev Submits (P : BacktestOrder → Prop) (m m' : MatchingEngine) : Prop :=
  Reaches (MatchingEngine.step cfg.matching) (IsSubmit P) m m'

variable {cfg} in
lemma submits_of_ok {P : BacktestOrder → Prop} {m m' : MatchingEngine} {o : BacktestOrder}
    (hf : MatchingEngine.Fresh o) (hP : P o) (h : m.submit cfg.matching o = .ok m') :
    Submits cfg P m m' := by
  have hstep : MatchingEngine.step cfg.matching m (.submit o hf) = m' := by
    simp [MatchingEngine.step, h, Except.toOption]
  rw [← hstep]
  exact .single hP

lemma submitEntry_ok {intent : TradeIntent} {e e' : BacktestEngine σ}
    (h : submitEntry cfg intent e = .ok e') : ∃ m k,
      e' = { e with matching := m, orderIdsMade := k } ∧
        Submits cfg (fun o => o.side = intent.side) e.matching m := by
  unfold submitEntry at h
  split at h
  · cases h
    exact ⟨e.matching, e.orderIdsMade, rfl, .refl _⟩
  · simp only at h
    split at h
    · cases h
    · next m hm =>
      cases h
      exact ⟨m, _, rfl, submits_of_ok ⟨rfl, rfl⟩ rfl hm⟩

lemma drainLoop_ok (now : Time) {P : BacktestOrder → Prop} {intents : List TradeIntent}
    (hP : ∀ intent ∈ intents, ∀ o, o.side = intent.side → P o) {e e' : BacktestEngine σ}
    (h : drainLoop cfg now intents e = .ok e') : ∃ m n k,
      e' = { e with matching := m, intentsDrained := n, orderIdsMade := k } ∧
        Submits cfg P e.matching m := by
  induction intents generalizing e with
  | nil =>
    cases h
    exact ⟨_, _, _, rfl, .refl _⟩
  | cons intent rest ih =>
    unfold drainLoop at h
    split at h
    · rw [except_bind_eq_ok] at h
      obtain ⟨e₁, he₁, h⟩ := h
      obtain ⟨m, k, rfl, hm⟩ := submitEntry_ok cfg he₁
      obtain ⟨m', n, k', rfl, hm'⟩ :=
        ih (fun i hi => hP i (List.mem_cons_of_mem intent hi)) h
      exact ⟨m', n, k', rfl,
        (hm.mono (IsSubmit.imp (hP intent List.mem_cons_self))).trans hm'⟩
    · cases h
      exact ⟨_, _, _, rfl, .refl _⟩

lemma afterHook_ok {raised : Option String} {e e' : BacktestEngine σ}
    (h : afterHook cfg raised e = .ok e') : e' = e := by
  unfold afterHook at h
  split at h
  · split at h
    · cases h
    · cases h
      rfl
  · cases h
    rfl

lemma notifyFill_ok {s : Strategy σ} {o : BacktestOrder} {fill : Fill} {e e' : BacktestEngine σ}
    (h : notifyFill cfg s o fill e = .ok e') : ∃ st, e' = { e with strategy := st } := by
  unfold notifyFill at h
  split at h
  · exact ⟨_, afterHook_ok cfg h⟩
  · exact ⟨_, afterHook_ok cfg h⟩
  · cases h
    exact ⟨_, rfl⟩

lemma applyOne_ok {strat : Option (Strategy σ)} {e e' : BacktestEngine σ} {fill : Fill}
    (h : applyOne cfg strat e fill = .ok e') : ∃ st,
      e' = { e with
        portfolio := e.portfolio.replay (fillEvents e.matching [fill]), strategy := st } := by
  unfold applyOne at h
  cases ho : e.matching.orders.get? fill.orderId with
  | none =>
    rw [ho] at h
    cases h
    exact ⟨e.strategy, by simp [fillEvents, ho, Portfolio.replay]⟩
  | some o =>
    have hev : fillEvents e.matching [fill] = [.fill fill o.strategySlug] := by
      simp [fillEvents, ho]
    rw [hev]
    simp only [ho] at h
    cases strat with
    | none =>
      cases h
      exact ⟨e.strategy, rfl⟩
    | some s =>
      obtain ⟨st, rfl⟩ := notifyFill_ok cfg h
      exact ⟨st, rfl⟩

lemma applyFills_ok {strat : Option (Strategy σ)} {fills : List Fill} {e e' : BacktestEngine σ}
    (h : fills.foldlM (applyOne cfg strat) e = .ok e') : ∃ st,
      e' = { e with
        portfolio := e.portfolio.replay (fillEvents e.matching fills), strategy := st } := by
  induction fills generalizing e with
  | nil =>
    cases h
    exact ⟨_, rfl⟩
  | cons fill fills ih =>
    rw [List.foldlM_cons, except_bind_eq_ok] at h
    obtain ⟨e₁, he₁, h⟩ := h
    obtain ⟨st, rfl⟩ := applyOne_ok cfg he₁
    obtain ⟨st', rfl⟩ := ih h
    refine ⟨st', ?_⟩
    have hcons : fillEvents e.matching (fill :: fills) =
        fillEvents e.matching [fill] ++ fillEvents e.matching fills := by
      rw [fillEvents, fillEvents, fillEvents, ← List.filterMap_append, List.singleton_append]
    rw [hcons, Portfolio.replay_append]

lemma portfolio_markBook (snap : BookSnapshot) (e : BacktestEngine σ) :
    (markBook snap e).portfolio = e.portfolio.replay (markEvents snap) := by
  unfold markBook markEvents
  cases snap.mid <;> rfl

lemma submitSingleExit_ok {pos : Position} {snap : BookSnapshot} {size price : ℚ} {tif : Tif}
    {postOnly : Bool} {orderMeta : Dict String String} {e e' : BacktestEngine σ}
    (h : submitSingleExit cfg pos snap size price tif postOnly orderMeta e = .ok e') : ∃ m k,
      e' = { e with matching := m, orderIdsMade := k } ∧
        Submits cfg (fun o => o.side = pos.side.opposite) e.matching m := by
  unfold submitSingleExit at h
  simp only at h
  split at h
  · cases h
  · next m hm =>
    cases h
    exact ⟨m, _, rfl, submits_of_ok ⟨rfl, rfl⟩ rfl hm⟩

/-- What the evaluation of exits may change. -/
def Exited (e e' : BacktestEngine σ) : Prop :=
  ∃ m st k, e' = { e with matching := m, strategy := st, orderIdsMade := k } ∧
    Submits cfg (fun _ => True) e.matching m

/-- The same for exits that are orders in `P`. -/
def ExitedWith (P : BacktestOrder → Prop) (e e' : BacktestEngine σ) : Prop :=
  ∃ m st k, e' = { e with matching := m, strategy := st, orderIdsMade := k } ∧
    Submits cfg P e.matching m

lemma ExitedWith.refl (P : BacktestOrder → Prop) (e : BacktestEngine σ) : ExitedWith cfg P e e :=
  ⟨_, _, _, rfl, .refl _⟩

variable {cfg} in
lemma ExitedWith.trans {P : BacktestOrder → Prop} {e e₁ e₂ : BacktestEngine σ}
    (h : ExitedWith cfg P e e₁) (h' : ExitedWith cfg P e₁ e₂) : ExitedWith cfg P e e₂ := by
  obtain ⟨m, st, k, rfl, hm⟩ := h
  obtain ⟨m', st', k', rfl, hm'⟩ := h'
  exact ⟨m', st', k', rfl, hm.trans hm'⟩

lemma submitSingleExit_exited {P : BacktestOrder → Prop} {pos : Position} {snap : BookSnapshot}
    {size price : ℚ} {tif : Tif} {postOnly : Bool} {orderMeta : Dict String String}
    {e e' : BacktestEngine σ} (hP : ∀ o : BacktestOrder, o.side = pos.side.opposite → P o)
    (h : submitSingleExit cfg pos snap size price tif postOnly orderMeta e = .ok e') :
    ExitedWith cfg P e e' := by
  obtain ⟨m, k, rfl, hm⟩ := submitSingleExit_ok cfg h
  exact ⟨m, _, k, rfl, hm.mono fun op => IsSubmit.imp hP op⟩

lemma submitPlans_ok {P : BacktestOrder → Prop} {pos : Position} {snap : BookSnapshot}
    {targetSize closePrice : ℚ} {plans : List ChildPlan} {e e' : BacktestEngine σ}
    (hP : ∀ o : BacktestOrder, o.side = pos.side.opposite → P o)
    (h : submitPlans cfg pos snap targetSize closePrice plans e = .ok e') :
    ExitedWith cfg P e e' := by
  unfold submitPlans at h
  split at h
  · exact submitSingleExit_exited cfg hP h
  · exact foldlM_invariant (I := ExitedWith cfg P e)
      (fun e₁ plan e₂ _ h₁ h₂ => h₁.trans (submitSingleExit_exited cfg hP h₂)) (.refl cfg P e) h

lemma callShouldExit_ok (P : BacktestOrder → Prop) {s : Strategy σ} {pos : Position}
    {snap : BookSnapshot} {e : BacktestEngine σ} {r : BacktestEngine σ × Option ExitDecision}
    (h : callShouldExit cfg s pos snap e = .ok r) : ExitedWith cfg P e r.1 := by
  unfold callShouldExit at h
  split at h
  · cases h
    exact .refl cfg P e
  · simp only at h
    split at h
    · cases h
      exact ⟨_, _, _, rfl, .refl _⟩
    · obtain ⟨e₁, he₁, rfl⟩ := except_map_eq_ok.1 h
      rw [afterHook_ok cfg he₁]
      exact ⟨_, _, _, rfl, .refl _⟩

lemma resolveExitPolicy_ok (P : BacktestOrder → Prop) {s : Strategy σ} {decision : ExitDecision}
    {trigger : String} {e : BacktestEngine σ} {r : BacktestEngine σ × Option ExitPolicy}
    (h : resolveExitPolicy cfg s decision trigger e = .ok r) : ExitedWith cfg P e r.1 := by
  unfold resolveExitPolicy at h
  split at h
  · cases h
    exact .refl cfg P e
  · simp only at h
    split at h
    · cases h
      exact ⟨_, _, _, rfl, .refl _⟩
    · obtain ⟨e₁, he₁, rfl⟩ := except_map_eq_ok.1 h
      rw [afterHook_ok cfg he₁]
      exact ⟨_, _, _, rfl, .refl _⟩

lemma submitExitFor_ok {P : BacktestOrder → Prop} {s : Strategy σ} {pos : Position}
    {decision : ExitDecision} {fraction : ℚ} {snap : BookSnapshot} {e e' : BacktestEngine σ}
    (hP : ∀ o : BacktestOrder, o.side = pos.side.opposite → P o)
    (h : submitExitFor cfg s pos decision fraction snap e = .ok e') : ExitedWith cfg P e e' := by
  unfold submitExitFor at h
  simp only at h
  split at h
  · cases h
    exact .refl cfg P e
  · rw [except_bind_eq_ok] at h
    obtain ⟨r, hr, h⟩ := h
    have hpolicy := resolveExitPolicy_ok cfg P hr
    split at h
    · exact hpolicy.trans (submitSingleExit_exited cfg hP h)
    · exact hpolicy.trans (submitPlans_ok cfg hP h)

lemma evaluateExit_ok {P : BacktestOrder → Prop} {s : Strategy σ} {snap : BookSnapshot}
    {e e' : BacktestEngine σ} {pos : Position}
    (hP : ∀ o : BacktestOrder, o.side = pos.side.opposite → P o)
    (h : evaluateExit cfg s snap e pos = .ok e') : ExitedWith cfg P e e' := by
  unfold evaluateExit at h
  rw [except_bind_eq_ok] at h
  obtain ⟨r, hr, h⟩ := h
  have hcall := callShouldExit_ok cfg P hr
  split at h
  · cases h
    exact hcall
  · unfold routeDecision at h
    split at h
    · cases h
      exact hcall
    · cases h
      exact hcall
    · simp only at h
      split at h
      · cases h
        exact hcall
      · exact hcall.trans (submitExitFor_ok cfg hP h)
    · exact hcall.trans (submitExitFor_ok cfg hP h)

/-- The exits are orders against the positions on the token of the snapshot. -/
lemma evaluateExits_exited {P : BacktestOrder → Prop} {strat : Option (Strategy σ)}
    {snap : BookSnapshot} {e e' : BacktestEngine σ}
    (hP : ∀ pos ∈ exitTargets e.portfolio snap.tokenId, ∀ o : BacktestOrder,
      o.side = pos.side.opposite → P o)
    (h : evaluateExits cfg strat snap e = .ok e') : ExitedWith cfg P e e' := by
  unfold evaluateExits at h
  split at h
  · cases h
    exact .refl cfg P e
  · exact foldlM_invariant (I := ExitedWith cfg P e)
      (fun e₁ pos e₂ hpos h₁ h₂ => h₁.trans (evaluateExit_ok cfg (hP pos hpos) h₂))
      (.refl cfg P e) h

lemma evaluateExits_ok {strat : Option (Strategy σ)} {snap : BookSnapshot}
    {e e' : BacktestEngine σ} (h : evaluateExits cfg strat snap e = .ok e') : Exited cfg e e' :=
  evaluateExits_exited cfg (P := fun _ => True) (fun _ _ _ _ => trivial) h

lemma notifyCancels_ok {strat : Option (Strategy σ)} {e e' : BacktestEngine σ}
    (h : notifyCancels cfg strat e = .ok e') : ∃ st ids,
      e' = { e with strategy := st, cancelledNotified := ids } := by
  unfold notifyCancels at h
  split at h
  · cases h
    exact ⟨_, _, rfl⟩
  · refine foldlM_invariant (I := fun e' => ∃ st ids,
      e' = { e with strategy := st, cancelledNotified := ids }) ?_ ⟨_, _, rfl⟩ h
    rintro _ o e₂ - ⟨st, ids, rfl⟩ h₂
    unfold notifyCancel at h₂
    split at h₂
    · cases h₂
      exact ⟨_, _, rfl⟩
    · exact ⟨_, _, afterHook_ok cfg h₂⟩

/-- A snapshot that is processed: the engine after each of the steps, from the intents that were
drained to the notice of the cancels, each of them related to the one before. -/
structure Processed (strat : Option (Strategy σ)) (snap : BookSnapshot)
    (e e' : BacktestEngine σ) where
  drained : BacktestEngine σ
  advanced : MatchingEngine
  fills : List Fill
  filled : BacktestEngine σ
  exited : BacktestEngine σ
  drain : drainIntents cfg snap.observedAt e = .ok drained
  advance : drained.matching.advanceTo cfg.matching snap = .ok (advanced, fills)
  fill : fills.foldlM (applyOne cfg strat) { drained with matching := advanced } = .ok filled
  exit : evaluateExits cfg strat snap (markBook snap filled) = .ok exited
  notify : notifyCancels cfg strat exited = .ok e'

lemma processSnapshot_ok {strat : Option (Strategy σ)} {snap : BookSnapshot}
    {e e' : BacktestEngine σ} (h : processSnapshot cfg strat snap e = .ok e') :
    Nonempty (Processed cfg strat snap e e') := by
  unfold processSnapshot at h
  obtain ⟨drained, hdrained, h⟩ := except_bind_eq_ok.1 h
  obtain ⟨advanced, hadvanced, h⟩ := except_bind_eq_ok.1 h
  obtain ⟨filled, hfilled, h⟩ := except_bind_eq_ok.1 h
  obtain ⟨exited, hexited, h⟩ := except_bind_eq_ok.1 h
  exact ⟨⟨drained, advanced.1, advanced.2, filled, exited, hdrained, hadvanced, hfilled, hexited,
    h⟩⟩

variable {cfg}

namespace Processed

variable {strat : Option (Strategy σ)} {snap : BookSnapshot} {e e' : BacktestEngine σ}

lemma portfolio_drained (h : Processed cfg strat snap e e') :
    h.drained.portfolio = e.portfolio := by
  obtain ⟨m, n, k, hdrained, -⟩ :=
    drainLoop_ok cfg snap.observedAt (P := fun _ => True) (fun _ _ _ _ => trivial) h.drain
  rw [hdrained]

lemma portfolio_filled (h : Processed cfg strat snap e e') :
    h.filled.portfolio = e.portfolio.replay (fillEvents h.advanced h.fills) := by
  obtain ⟨st, hfilled⟩ := applyFills_ok cfg h.fill
  rw [hfilled]
  show h.drained.portfolio.replay (fillEvents h.advanced h.fills) = _
  rw [h.portfolio_drained]

lemma matching_filled (h : Processed cfg strat snap e e') : h.filled.matching = h.advanced := by
  obtain ⟨st, hfilled⟩ := applyFills_ok cfg h.fill
  rw [hfilled]

lemma portfolio (h : Processed cfg strat snap e e') :
    e'.portfolio = e.portfolio.replay (fillEvents h.advanced h.fills ++ markEvents snap) := by
  obtain ⟨m, st, k, hexited, -⟩ := evaluateExits_ok cfg h.exit
  obtain ⟨st', ids, he'⟩ := notifyCancels_ok cfg h.notify
  calc e'.portfolio = h.exited.portfolio := (congrArg BacktestEngine.portfolio he' :)
    _ = (markBook snap h.filled).portfolio := (congrArg BacktestEngine.portfolio hexited :)
    _ = h.filled.portfolio.replay (markEvents snap) := portfolio_markBook snap h.filled
    _ = _ := by rw [h.portfolio_filled, Portfolio.replay_append]

lemma submits_drained (h : Processed cfg strat snap e e') {P : BacktestOrder → Prop}
    (hP : ∀ intent ∈ e.pendingIntents, ∀ o, o.side = intent.side → P o) :
    Submits cfg P e.matching h.drained.matching := by
  obtain ⟨m, n, k, hdrained, hm⟩ := drainLoop_ok cfg snap.observedAt (P := P)
    (fun intent hintent => hP intent (List.mem_of_mem_drop hintent)) h.drain
  rw [hdrained]
  exact hm

/-- What is submitted after the advance: orders against the positions. -/
lemma submits_exits (h : Processed cfg strat snap e e') {P : BacktestOrder → Prop}
    (hP : ∀ pos ∈ exitTargets (markBook snap h.filled).portfolio snap.tokenId,
      ∀ o : BacktestOrder, o.side = pos.side.opposite → P o) :
    Submits cfg P h.advanced e'.matching := by
  obtain ⟨m, st, k, hexited, hm⟩ := evaluateExits_exited cfg hP h.exit
  obtain ⟨st', ids, he'⟩ := notifyCancels_ok cfg h.notify
  have hend : e'.matching = m :=
    (congrArg BacktestEngine.matching he').trans (congrArg BacktestEngine.matching hexited)
  have hbegin : (markBook snap h.filled).matching = h.advanced := h.matching_filled
  rw [hend, ← hbegin]
  exact hm

lemma submits_advanced (h : Processed cfg strat snap e e') :
    Submits cfg (fun _ => True) h.advanced e'.matching :=
  h.submits_exits fun _ _ _ _ => trivial

lemma step_drained (h : Processed cfg strat snap e e') :
    MatchingEngine.step cfg.matching h.drained.matching (.advanceTo snap) = h.advanced := by
  simp [MatchingEngine.step, h.advance, Except.toOption]

lemma matching (h : Processed cfg strat snap e e') :
    Reaches (MatchingEngine.step cfg.matching) IsDriven e.matching e'.matching := by
  have hdriven : ∀ op, IsSubmit (fun _ => True) op → IsDriven op := by
    intro op hop
    cases op with
    | submit order hf => trivial
    | cancel id at_ => exact hop
    | advanceTo snap => trivial
  have hadvance : Reaches (MatchingEngine.step cfg.matching) IsDriven h.drained.matching
      h.advanced := by
    rw [← h.step_drained]
    exact .single trivial
  exact (((h.submits_drained fun _ _ _ _ => trivial).mono hdriven).trans hadvance).trans
    (h.submits_advanced.mono hdriven)

/-- What a processed snapshot never touches. -/
lemma frame (h : Processed cfg strat snap e e') :
    e'.pendingIntents = e.pendingIntents ∧ e'.resolutionSchedule = e.resolutionSchedule ∧
      e'.resolutionPtr = e.resolutionPtr := by
  obtain ⟨m₀, n, k₀, hdrained, -⟩ :=
    drainLoop_ok cfg snap.observedAt (P := fun _ => True) (fun _ _ _ _ => trivial) h.drain
  obtain ⟨st₀, hfilled⟩ := applyFills_ok cfg h.fill
  obtain ⟨m, st, k, hexited, -⟩ := evaluateExits_ok cfg h.exit
  obtain ⟨st', ids, he'⟩ := notifyCancels_ok cfg h.notify
  let untouched (e : BacktestEngine σ) := (e.pendingIntents, e.resolutionSchedule, e.resolutionPtr)
  have hall : untouched e' = untouched e :=
    calc untouched e' = untouched h.exited := (congrArg untouched he' :)
      _ = untouched (markBook snap h.filled) := (congrArg untouched hexited :)
      _ = untouched h.filled := rfl
      _ = untouched h.drained := (congrArg untouched hfilled :)
      _ = untouched e := (congrArg untouched hdrained :)
  exact ⟨congrArg Prod.fst hall, congrArg (fun t => t.2.1) hall, congrArg (fun t => t.2.2) hall⟩

end Processed

/-! ## Runs -/

variable {strat : Option (Strategy σ)} {snap : BookSnapshot} {e e' : BacktestEngine σ}

/-- A snapshot is skipped or processed after the settlement sweep. -/
lemma onSnapshot_cases (h : onSnapshot cfg strat e snap = .ok e') :
    ((settleDue cfg snap.observedAt e).involved snap = false ∧
        e' = { settleDue cfg snap.observedAt e with
          latestBook := (settleDue cfg snap.observedAt e).latestBook.set snap.tokenId snap }) ∨
      ((settleDue cfg snap.observedAt e).involved snap = true ∧
        Nonempty (Processed cfg strat snap (settleDue cfg snap.observedAt e) e')) := by
  unfold onSnapshot at h
  simp only at h
  split at h
  · next hinv => exact .inr ⟨hinv, processSnapshot_ok cfg h⟩
  · next hinv =>
    cases h
    exact .inl ⟨by simpa using hinv, rfl⟩

lemma portfolio_onSnapshot (h : onSnapshot cfg strat e snap = .ok e') :
    e'.portfolio = e.portfolio.replay (snapshotEvents cfg e snap) := by
  have hsettled := (settleDue_settled cfg snap.observedAt e).portfolio
  unfold snapshotEvents
  rcases onSnapshot_cases h with ⟨hinv, rfl⟩ | ⟨hinv, ⟨hp⟩⟩
  · simpa [hinv] using hsettled
  · simp only [hinv, if_true, hp.drain, hp.advance]
    rw [hp.portfolio, hsettled, ← Portfolio.replay_append]

lemma pendingIntents_onSnapshot (h : onSnapshot cfg strat e snap = .ok e') :
    e'.pendingIntents = e.pendingIntents := by
  obtain ⟨n, k, hsettled⟩ := (settleDue_settled cfg snap.observedAt e).rest
  have hsame : (settleDue cfg snap.observedAt e).pendingIntents = e.pendingIntents := by
    rw [hsettled]
  rcases onSnapshot_cases h with ⟨-, rfl⟩ | ⟨-, ⟨hp⟩⟩
  · exact hsame
  · exact hp.frame.1.trans hsame

lemma reaches_onSnapshot (h : onSnapshot cfg strat e snap = .ok e') :
    Reaches (MatchingEngine.step cfg.matching) IsDriven e.matching e'.matching := by
  have hsettled := matching_settleDue cfg snap.observedAt e
  rcases onSnapshot_cases h with ⟨-, rfl⟩ | ⟨-, ⟨hp⟩⟩
  · rw [hsettled]
    exact .refl _
  · have hmatching := hp.matching
    rw [hsettled] at hmatching
    exact hmatching

lemma feedOne_ok {handler : BacktestEngine σ → BookSnapshot → Except EngineError (BacktestEngine σ)}
    (h : feedOne handler e snap = .ok e') :
    ∃ e₁, handler e snap = .ok e₁ ∧
      e' = { e₁ with snapshotsProcessed := e₁.snapshotsProcessed + 1 } := by
  obtain ⟨e₁, h₁, rfl⟩ := except_map_eq_ok.1 h
  exact ⟨e₁, h₁, rfl⟩

/-- The portfolio of a run is the replay of its events. -/
lemma portfolio_feed {snapshots : List BookSnapshot} (h : feed cfg strat snapshots e = .ok e') :
    e'.portfolio = e.portfolio.replay (feedEvents cfg strat snapshots e) := by
  refine foldl_emitted BacktestEngine.portfolio Portfolio.step ?_ h
  intro e snap e' h
  obtain ⟨e₁, h₁, rfl⟩ := feedOne_ok h
  have hone := portfolio_onSnapshot h₁
  exact hone

/-- Every state that the matching engine is in during a run is well formed. -/
lemma wellFormed_feedOne (hwf : MatchingEngine.WellFormed e.matching)
    (h : feedOne (onSnapshot cfg strat) e snap = .ok e') :
    MatchingEngine.WellFormed e'.matching := by
  obtain ⟨e₁, h₁, rfl⟩ := feedOne_ok h
  exact (reaches_onSnapshot h₁).invariant (I := MatchingEngine.WellFormed) hwf
    fun m op _ hm => MatchingEngine.wellFormed_step hm op

variable (cfg) in
lemma portfolio_start (st : σ) (intents : List TradeIntent) :
    (start cfg st intents).portfolio = Portfolio.init (portfolioConfig cfg) := rfl

variable (cfg) in
/-- One close at the end of the run. -/
lemma portfolio_finalClose (runEnd : Option Time) (e : BacktestEngine σ) (key : PositionKey) :
    (finalClose cfg runEnd e key).portfolio =
      e.portfolio.replay (finalCloseEvents cfg runEnd e key) := by
  unfold finalClose finalCloseEvents
  cases e.portfolio.positions.get? key with
  | none => rfl
  | some pos =>
    dsimp only
    cases resolvedInWindow cfg runEnd pos <;> rfl

variable (cfg) in
/-- The closes at the end of the run leave nothing but the curves to the final anchor. -/
lemma portfolio_finish (e : BacktestEngine σ) : ∃ equity cash,
    (finish cfg e).portfolio = { e.portfolio.replay (finishEvents cfg e) with
      equityHistory := equity, cashHistory := cash } := by
  unfold finish finishEvents
  split
  · have hclosed := foldl_outputs BacktestEngine.portfolio Portfolio.step
      (portfolio_finalClose cfg e.matching.now) e (heldKeys e.portfolio fun _ => true)
    rw [Portfolio.replay, ← hclosed]
    exact ⟨_, _, rfl⟩
  · exact ⟨_, _, rfl⟩

/-- The closes at the end of the run are closes. -/
lemma mem_finishEvents {ev : PortfolioEvent} (h : ev ∈ finishEvents cfg e) :
    ∃ key price at_ b, ev = .close key price at_ b := by
  unfold finishEvents at h
  split at h
  · obtain ⟨e₁, key, h⟩ := mem_outputs h
    unfold finalCloseEvents at h
    split at h
    · cases h
    · split at h
      · exact ⟨key, _, _, true, List.mem_singleton.1 h⟩
      · exact ⟨key, _, _, false, List.mem_singleton.1 h⟩
  · cases h

/-- The portfolio at the end of a run is the replay of the events of the run, up to the last
point of the equity curve. -/
lemma portfolio_run {st : σ} {intents : List TradeIntent} {snapshots : List BookSnapshot}
    (h : feed cfg strat snapshots (start cfg st intents) = .ok e) : ∃ equity cash,
    (finish cfg e).portfolio =
      { (Portfolio.init (portfolioConfig cfg)).replay
          (runEvents cfg strat st intents snapshots) with
        equityHistory := equity, cashHistory := cash } := by
  obtain ⟨equity, cash, hfinish⟩ := portfolio_finish cfg e
  refine ⟨equity, cash, ?_⟩
  rw [hfinish, portfolio_feed h, runEvents, h, Portfolio.replay_append]
  rfl

/-! ## A property of every event of a run -/

/-- A property `D` of the events of a snapshot holds when closes and marks always have it and
the fills of the advance have it. -/
lemma everyStep_snapshotEvents {D : Portfolio → PortfolioEvent → Prop}
    (hclose : ∀ p key price at_ b, D p (.close key price at_ b))
    (hmark : ∀ p token price at_, D p (.mark token price at_))
    (hfills : ∀ drained m fills, (settleDue cfg snap.observedAt e).involved snap = true →
      drainIntents cfg snap.observedAt (settleDue cfg snap.observedAt e) = .ok drained →
      drained.matching.advanceTo cfg.matching snap = .ok (m, fills) →
      EveryStep Portfolio.step D (settleDue cfg snap.observedAt e).portfolio
        (fillEvents m fills)) :
    EveryStep Portfolio.step D e.portfolio (snapshotEvents cfg e snap) := by
  rw [snapshotEvents, EveryStep.append]
  constructor
  · refine EveryStep.of_forall_mem fun ev hev p => ?_
    obtain ⟨key, price, at_, rfl⟩ := mem_settleEvents cfg hev
    exact hclose p key price at_ true
  rw [← Portfolio.replay, ← (settleDue_settled cfg snap.observedAt e).portfolio]
  split
  · next hinv =>
    split
    · trivial
    next drained hdrain =>
    split
    · trivial
    next advanced hadvance =>
    rw [EveryStep.append]
    refine ⟨hfills drained _ _ hinv hdrain hadvance, ?_⟩
    refine EveryStep.of_forall_mem fun ev hev p => ?_
    unfold markEvents at hev
    split at hev
    · rw [List.mem_singleton.1 hev]
      exact hmark p _ _ _
    · cases hev
  · trivial

/-- What holds of every event of a snapshot holds of the fills of its advance. -/
lemma everyStep_fillEvents {D : Portfolio → PortfolioEvent → Prop}
    {drained : BacktestEngine σ} {m : MatchingEngine} {fills : List Fill}
    (h : EveryStep Portfolio.step D e.portfolio (snapshotEvents cfg e snap))
    (hinv : (settleDue cfg snap.observedAt e).involved snap = true)
    (hdrain : drainIntents cfg snap.observedAt (settleDue cfg snap.observedAt e) = .ok drained)
    (hadvance : drained.matching.advanceTo cfg.matching snap = .ok (m, fills)) :
    EveryStep Portfolio.step D (settleDue cfg snap.observedAt e).portfolio
      (fillEvents m fills) := by
  rw [snapshotEvents, EveryStep.append] at h
  simp only [hinv, if_true, hdrain, hadvance] at h
  rw [← Portfolio.replay, ← (settleDue_settled cfg snap.observedAt e).portfolio,
    EveryStep.append] at h
  exact h.2.1

/-- A property `D` of the events of a run holds when closes always have it and the events of
each snapshot that meets `C` have it.  `I` is an invariant of the snapshots that meet `C`. -/
lemma everyStep_runEvents {D : Portfolio → PortfolioEvent → Prop}
    {I : BacktestEngine σ → Prop} {C : BacktestEngine σ → BookSnapshot → Prop} {st : σ}
    {intents : List TradeIntent} {snapshots : List BookSnapshot}
    (hC : EveryAttempt (feedOne (onSnapshot cfg strat)) C (start cfg st intents) snapshots)
    (hstart : I (start cfg st intents))
    (hI : ∀ e snap e', I e → MatchingEngine.WellFormed e.matching → C e snap →
      onSnapshot cfg strat e snap = .ok e' →
      I { e' with snapshotsProcessed := e'.snapshotsProcessed + 1 })
    (hclose : ∀ p key price at_ b, D p (.close key price at_ b))
    (hsnapshot : ∀ e snap, I e → MatchingEngine.WellFormed e.matching → C e snap →
      EveryStep Portfolio.step D e.portfolio (snapshotEvents cfg e snap)) :
    EveryStep Portfolio.step D (Portfolio.init (portfolioConfig cfg))
      (runEvents cfg strat st intents snapshots) := by
  rw [runEvents, EveryStep.append]
  constructor
  · rw [← portfolio_start cfg st intents, feedEvents]
    refine hC.emitted (I := fun e => I e ∧ MatchingEngine.WellFormed e.matching)
      ⟨hstart, MatchingEngine.wellFormed_init⟩ (fun e snap hIe => hsnapshot e snap hIe.1 hIe.2) ?_
    rintro e snap e' ⟨hIe, hwf⟩ hCe h
    obtain ⟨e₁, h₁, rfl⟩ := feedOne_ok h
    have hone := portfolio_onSnapshot h₁
    exact ⟨⟨hI e snap e₁ hIe hwf hCe h₁, wellFormed_feedOne hwf h⟩, hone⟩
  · split
    · refine EveryStep.of_forall_mem fun ev hev p => ?_
      obtain ⟨key, price, at_, b, rfl⟩ := mem_finishEvents hev
      exact hclose p key price at_ b
    · trivial

end BacktestEngine

end Evosport.Backtest
