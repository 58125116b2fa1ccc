/-
Two runs of the engine side by side.

A `Coupling` says how the parts of two engines are related: the portfolios, the matching
engines, the strategies, the intents that are still to come and the schedule of settlements.
Everything else of the two states is equal (`Coupled`).  When the operations on the parts
respect the coupling (`Coupling.Lawful`) and the strategies answer alike (`HooksAgree`), so
does a snapshot (`processSnapshot_coupled`): both runs raise the same error, or both succeed
in coupled states.  The configurations of the two runs may differ in their settlements.
-/
import Evosport.Lib.Fallible
import Evosport.Backtest.Engine
import Evosport.Backtest.Advance

namespace Evosport.Backtest

open Lib

/-- The same configuration with other settlements. -/
def BacktestConfig.resettled (cfg : BacktestConfig)
    (settlements : Dict TokenId TokenSettlement) : BacktestConfig :=
  { cfg with settlements := settlements }

namespace BacktestEngine

variable {σ τ : Type}

/-- How the parts of two engines are related, part by part: the portfolios, the matching engines,
the states of the strategies, the pending intents and the schedules of resolutions. -/
structure Coupling (σ τ : Type) where
  portfolio : Portfolio → Portfolio → Prop
  matching : MatchingEngine → MatchingEngine → Prop
  strategy : σ → τ → Prop
  pending : List TradeIntent → List TradeIntent → Prop
  schedule : List (Time × TokenId) → List (Time × TokenId) → Prop

/-- Two engines whose parts are related and that agree on everything else. -/
structure Coupled (R : Coupling σ τ) (e : BacktestEngine σ) (f : BacktestEngine τ) : Prop where
  portfolio : R.portfolio e.portfolio f.portfolio
  matching : R.matching e.matching f.matching
  strategy : R.strategy e.strategy f.strategy
  pending : R.pending e.pendingIntents f.pendingIntents
  schedule : R.schedule e.resolutionSchedule f.resolutionSchedule
  latestBook : f.latestBook = e.latestBook
  cancelledNotified : f.cancelledNotified = e.cancelledNotified
  intentsDrained : f.intentsDrained = e.intentsDrained
  snapshotsProcessed : f.snapshotsProcessed = e.snapshotsProcessed
  resolutionPtr : f.resolutionPtr = e.resolutionPtr
  settledPositionCount : f.settledPositionCount = e.settledPositionCount
  markedToMidCount : f.markedToMidCount = e.markedToMidCount
  orderIdsMade : f.orderIdsMade = e.orderIdsMade

/-- The answers of two hooks are equal and leave the strategies related. -/
def Alike {α : Type} (RS : σ → τ → Prop) (r : σ × α) (r' : τ × α) : Prop :=
  RS r.1 r'.1 ∧ r'.2 = r.2

/-- The hooks of two strategies answer alike in related states, and leave related states behind. -/
structure HooksAgree (RS : σ → τ → Prop) (S : Strategy σ) (T : Strategy τ) : Prop where
  shouldExit : Option.Rel (fun h k => ∀ s t, RS s t → ∀ view market,
    Alike RS (h s view market) (k t view market)) S.shouldExit T.shouldExit
  onFill : Option.Rel (fun h k => ∀ s t, RS s t → ∀ o size price notional,
    Alike RS (h s o size price notional) (k t o size price notional)) S.onFill T.onFill
  onPartialFill : Option.Rel (fun h k => ∀ s t, RS s t → ∀ o size remaining price,
    Alike RS (h s o size remaining price) (k t o size remaining price))
    S.onPartialFill T.onPartialFill
  onCancel : Option.Rel (fun h k => ∀ s t, RS s t → ∀ o reason remaining,
    Alike RS (h s o reason remaining) (k t o reason remaining)) S.onCancel T.onCancel
  resolveExitPolicy : Option.Rel (fun h k => ∀ s t, RS s t → ∀ decision trigger,
    Alike RS (h s decision trigger) (k t decision trigger))
    S.resolveExitPolicy T.resolveExitPolicy

/-- A strategy answers like itself. -/
lemma HooksAgree.refl (S : Strategy σ) : HooksAgree Eq S S := by
  have hrel : ∀ {α : Type} {P : α → α → Prop} (h : Option α), (∀ a, P a a) → Option.Rel P h h := by
    intro α P h hP
    cases h with
    | none => exact .none
    | some a => exact .some (hP a)
  constructor <;> refine hrel _ fun h s t hst => ?_ <;> subst hst <;> intros <;> exact ⟨rfl, rfl⟩

/-- The operations on the parts respect the coupling, for one snapshot: on related parts each of
them does the same and leaves related parts.  That the whole step then respects it is proved once
for all couplings. -/
structure Coupling.Lawful (R : Coupling σ τ) (cfg : BacktestConfig) (snap : BookSnapshot) :
    Prop where
  positions : ∀ {p q}, R.portfolio p q → q.positions = p.positions
  cash : ∀ {p q}, R.portfolio p q → q.cashUsd = p.cashUsd
  config : ∀ {p q}, R.portfolio p q → q.config = p.config
  applyFill : ∀ {p q}, R.portfolio p q → ∀ f slug,
    R.portfolio (p.applyFill f slug) (q.applyFill f slug)
  closePositionAt : ∀ {p q}, R.portfolio p q → ∀ key price at_ b,
    R.portfolio (p.closePositionAt key price at_ b) (q.closePositionAt key price at_ b)
  mark : ∀ {p q}, R.portfolio p q → ∀ token price at_,
    R.portfolio (p.mark token price at_) (q.mark token price at_)
  orders : ∀ {m n}, R.matching m n → n.orders = m.orders
  active : ∀ {m n}, R.matching m n → n.activeCountByToken = m.activeCountByToken
  submit : ∀ {m n}, R.matching m n → ∀ o, MatchingEngine.Fresh o →
    Agree R.matching (m.submit cfg.matching o) (n.submit cfg.matching o)
  advance : ∀ {m n}, R.matching m n →
    Agree (fun r r' => R.matching r.1 r'.1 ∧ r'.2 = r.2) (m.advanceTo cfg.matching snap)
      (n.advanceTo cfg.matching snap)

section Steps

variable {R : Coupling σ τ} {cfg : BacktestConfig} {S : Dict TokenId TokenSettlement}
  {snap : BookSnapshot} {e : BacktestEngine σ} {f : BacktestEngine τ}

/-! ## The settlement sweep -/

lemma heldKeys_coupled (hR : R.Lawful cfg snap) (h : Coupled R e f) (onToken : TokenId → Bool) :
    heldKeys f.portfolio onToken = heldKeys e.portfolio onToken := by
  rw [heldKeys, heldKeys, hR.positions h.portfolio]

/-- The redemption of a token that both runs settle alike. -/
lemma settleToken_coupled (hR : R.Lawful cfg snap) (h : Coupled R e f) (now : Time)
    {token : TokenId} (hsettled : S.get? token = cfg.settlements.get? token) :
    Coupled R (settleToken cfg now token e) (settleToken (cfg.resettled S) now token f) := by
  have hsame : (cfg.resettled S).settlements.get? token = cfg.settlements.get? token := hsettled
  unfold settleToken
  rw [hsame]
  cases cfg.settlements.get? token with
  | none => exact h
  | some settlement =>
    dsimp only
    cases settlement.settlePrice with
    | none => exact h
    | some price =>
      have hkeys := heldKeys_coupled hR h fun t => decide (t = token)
      dsimp only
      rw [hkeys]
      have hportfolio : ∀ (keys : List PositionKey) p q, R.portfolio p q →
          R.portfolio
            (keys.foldl (fun p key => p.closePositionAt key price
              (settlement.resolutionTime.getD now) true) p)
            (keys.foldl (fun p key => p.closePositionAt key price
              (settlement.resolutionTime.getD now) true) q) := by
        intro keys
        induction keys with
        | nil => exact fun p q hpq => hpq
        | cons key keys ih => exact fun p q hpq => ih _ _ (hR.closePositionAt hpq key _ _ _)
      exact { h with
        portfolio := hportfolio _ _ _ h.portfolio
        settledPositionCount := by rw [h.settledPositionCount] }

/-- The sweep over a schedule whose due entries both runs settle alike. -/
lemma settleLoop_coupled (hR : R.Lawful cfg snap) (now : Time)
    {schedule : List (Time × TokenId)}
    (hsettled : ∀ entry ∈ schedule, entry.1 ≤ now →
      S.get? entry.2 = cfg.settlements.get? entry.2) (h : Coupled R e f) :
    Coupled R (settleLoop cfg now schedule e) (settleLoop (cfg.resettled S) now schedule f) := by
  induction schedule generalizing e f with
  | nil => exact h
  | cons entry rest ih =>
    obtain ⟨at_, token⟩ := entry
    unfold settleLoop
    split
    · next hdue =>
      refine ih (fun entry hentry => hsettled entry (List.mem_cons_of_mem _ hentry)) ?_
      refine settleToken_coupled hR ?_ now (hsettled (at_, token) List.mem_cons_self hdue)
      exact { h with resolutionPtr := by rw [h.resolutionPtr] }
    · exact h

/-! ## Entries -/

lemma canSubmit_coupled (hR : R.Lawful cfg snap) (h : Coupled R e f) (tokenId : TokenId)
    (side : Side) (price size : ℚ) (slug : Option Slug) :
    f.portfolio.canSubmit tokenId side price size slug =
      e.portfolio.canSubmit tokenId side price size slug := by
  unfold Portfolio.canSubmit Portfolio.grossExposureUsd
  rw [hR.positions h.portfolio, hR.cash h.portfolio, hR.config h.portfolio]

/-- Both runs submit one new order, and count it alike. -/
lemma submit_coupled (hR : R.Lawful cfg snap) (h : Coupled R e f) {o : BacktestOrder}
    (ho : MatchingEngine.Fresh o) (k : ℕ) :
    Agree (Coupled R)
      (match e.matching.submit cfg.matching o with
        | .error err => .error err
        | .ok m => .ok { e with matching := m, orderIdsMade := k })
      (match f.matching.submit cfg.matching o with
        | .error err => .error err
        | .ok m => .ok { f with matching := m, orderIdsMade := k }) := by
  have hsubmit := hR.submit h.matching o ho
  cases hm : e.matching.submit cfg.matching o <;>
    cases hn : f.matching.submit cfg.matching o <;> rw [hm, hn] at hsubmit
  · exact hsubmit
  · exact hsubmit.elim
  · exact hsubmit.elim
  · have hcoupled : Coupled R { e with matching := _, orderIdsMade := k }
        { f with matching := _, orderIdsMade := k } :=
      { h with matching := hsubmit, orderIdsMade := rfl }
    exact hcoupled

lemma submitEntry_coupled (hR : R.Lawful cfg snap) (h : Coupled R e f) (intent : TradeIntent) :
    Agree (Coupled R) (submitEntry cfg intent e) (submitEntry (cfg.resettled S) intent f) := by
  unfold submitEntry
  rw [canSubmit_coupled hR h, h.orderIdsMade]
  cases e.portfolio.canSubmit intent.tokenId intent.side intent.limitPrice intent.size
    intent.strategySlug with
  | some reason => exact h
  | none =>
    exact submit_coupled hR h ⟨rfl, rfl⟩ _

lemma drainLoop_coupled (hR : R.Lawful cfg snap) (now : Time) (intents : List TradeIntent)
    (h : Coupled R e f) :
    Agree (Coupled R) (drainLoop cfg now intents e) (drainLoop (cfg.resettled S) now intents f) := by
  induction intents generalizing e f with
  | nil => exact h
  | cons intent rest ih =>
    unfold drainLoop
    split
    · have hcount : Coupled R { e with intentsDrained := e.intentsDrained + 1 }
          { f with intentsDrained := f.intentsDrained + 1 } :=
        { h with intentsDrained := by rw [h.intentsDrained] }
      exact (submitEntry_coupled hR hcount intent).bind fun _ _ h' => ih h'
    · exact h

/-! ## Fills -/

lemma afterHook_coupled (raised : Option String) (h : Coupled R e f) :
    Agree (Coupled R) (afterHook cfg raised e) (afterHook (cfg.resettled S) raised f) := by
  unfold afterHook BacktestConfig.resettled
  cases raised with
  | none => exact h
  | some text =>
    dsimp only
    split
    · rfl
    · exact h

lemma Coupled.withStrategy (h : Coupled R e f) {s : σ} {t : τ} (hst : R.strategy s t) :
    Coupled R { e with strategy := s } { f with strategy := t } :=
  { h with strategy := hst }

variable {strat : Strategy σ} {strat' : Strategy τ}

lemma notifyFill_coupled (hS : HooksAgree R.strategy strat strat') (h : Coupled R e f)
    (o : BacktestOrder) (fill : Fill) :
    Agree (Coupled R) (notifyFill cfg strat o fill e)
      (notifyFill (cfg.resettled S) strat' o fill f) := by
  have hanswer : ∀ {r : σ × Option String} {r' : τ × Option String}, Alike R.strategy r r' →
      Agree (Coupled R) (afterHook cfg r.2 { e with strategy := r.1 })
        (afterHook (cfg.resettled S) r'.2 { f with strategy := r'.1 }) := by
    intro r r' hr
    rw [hr.2]
    exact afterHook_coupled _ (h.withStrategy hr.1)
  unfold notifyFill
  have hfull := hS.onFill
  have hpart := hS.onPartialFill
  cases hp : strat.onPartialFill <;> cases hp' : strat'.onPartialFill <;> rw [hp, hp'] at hpart <;>
    cases hpart
  · cases hf : strat.onFill <;> cases hf' : strat'.onFill <;> rw [hf, hf'] at hfull <;> cases hfull
    · exact h
    · next hk => exact hanswer (hk _ _ h.strategy _ _ _ _)
  · next hk =>
    cases decide (o.remainingSize > e12)
    · cases hf : strat.onFill <;> cases hf' : strat'.onFill <;> rw [hf, hf'] at hfull <;>
        cases hfull
      · exact h
      · next hk => exact hanswer (hk _ _ h.strategy _ _ _ _)
    · exact hanswer (hk _ _ h.strategy _ _ _ _)

/-- The strategies of two runs: both missing, or two that answer alike. -/
def StrategiesAgree (RS : σ → τ → Prop) : Option (Strategy σ) → Option (Strategy τ) → Prop :=
  Option.Rel (HooksAgree RS)

variable {os : Option (Strategy σ)} {os' : Option (Strategy τ)}

lemma applyOne_coupled (hR : R.Lawful cfg snap) (hS : StrategiesAgree R.strategy os os')
    (h : Coupled R e f) (fill : Fill) :
    Agree (Coupled R) (applyOne cfg os e fill) (applyOne (cfg.resettled S) os' f fill) := by
  unfold applyOne
  rw [hR.orders h.matching]
  cases e.matching.orders.get? fill.orderId with
  | none => exact h
  | some o =>
    have hfill : Coupled R { e with portfolio := e.portfolio.applyFill fill o.strategySlug }
        { f with portfolio := f.portfolio.applyFill fill o.strategySlug } :=
      { h with portfolio := hR.applyFill h.portfolio fill o.strategySlug }
    cases hS with
    | none => exact hfill
    | some hS => exact notifyFill_coupled hS hfill o fill

/-! ## Marks -/

lemma markBook_coupled (hR : R.Lawful cfg snap) (h : Coupled R e f) (snap : BookSnapshot) :
    Coupled R (markBook snap e) (markBook snap f) := by
  unfold markBook
  cases snap.mid with
  | none => exact { h with latestBook := by rw [h.latestBook] }
  | some mid =>
    exact { h with
      latestBook := by rw [h.latestBook]
      portfolio := hR.mark h.portfolio _ _ _ }

/-! ## Exits -/

/-- An engine and a value beside it. -/
def CoupledWith (R : Coupling σ τ) {α : Type} (r : BacktestEngine σ × α)
    (r' : BacktestEngine τ × α) : Prop :=
  Coupled R r.1 r'.1 ∧ r'.2 = r.2

/-- The question to the strategy, when both runs show it the same market. -/
lemma callShouldExit_coupled (hS : HooksAgree R.strategy strat strat') (h : Coupled R e f)
    {pos : Position} (hmarket : marketState (cfg.resettled S) pos snap = marketState cfg pos snap) :
    Agree (CoupledWith R) (callShouldExit cfg strat pos snap e)
      (callShouldExit (cfg.resettled S) strat' pos snap f) := by
  unfold callShouldExit
  rw [hmarket]
  have hask := hS.shouldExit
  cases hh : strat.shouldExit <;> cases hk : strat'.shouldExit <;> rw [hh, hk] at hask <;>
    cases hask
  · exact ⟨h, rfl⟩
  · next hook hook' hask =>
    obtain ⟨hst, hsame⟩ := hask _ _ h.strategy (posView pos snap) (marketState cfg pos snap)
    dsimp only
    rw [hsame]
    cases (hook e.strategy (posView pos snap) (marketState cfg pos snap)).2 with
    | ok decision => exact ⟨h.withStrategy hst, rfl⟩
    | error text => exact (afterHook_coupled _ (h.withStrategy hst)).map fun _ _ h' => ⟨h', rfl⟩

lemma resolveExitPolicy_coupled (hS : HooksAgree R.strategy strat strat') (h : Coupled R e f)
    (decision : ExitDecision) (trigger : String) :
    Agree (CoupledWith R) (resolveExitPolicy cfg strat decision trigger e)
      (resolveExitPolicy (cfg.resettled S) strat' decision trigger f) := by
  unfold resolveExitPolicy
  have hask := hS.resolveExitPolicy
  cases hh : strat.resolveExitPolicy <;> cases hk : strat'.resolveExitPolicy <;>
    rw [hh, hk] at hask <;> cases hask
  · exact ⟨h, rfl⟩
  · next hook hook' hask =>
    obtain ⟨hst, hsame⟩ := hask _ _ h.strategy decision trigger
    dsimp only
    rw [hsame]
    cases (hook e.strategy decision trigger).2 with
    | ok policy => exact ⟨h.withStrategy hst, rfl⟩
    | error text => exact (afterHook_coupled _ (h.withStrategy hst)).map fun _ _ h' => ⟨h', rfl⟩

lemma submitSingleExit_coupled (hR : R.Lawful cfg snap) (h : Coupled R e f) (pos : Position)
    (snap : BookSnapshot) (size price : ℚ) (tif : Tif) (postOnly : Bool)
    (orderMeta : Dict String String) :
    Agree (Coupled R) (submitSingleExit cfg pos snap size price tif postOnly orderMeta e)
      (submitSingleExit (cfg.resettled S) pos snap size price tif postOnly orderMeta f) := by
  unfold submitSingleExit
  rw [h.orderIdsMade]
  exact submit_coupled hR h ⟨rfl, rfl⟩ _

lemma submitPlans_coupled (hR : R.Lawful cfg snap) (h : Coupled R e f) (pos : Position)
    (snap : BookSnapshot) (targetSize closePrice : ℚ) (plans : List ChildPlan) :
    Agree (Coupled R) (submitPlans cfg pos snap targetSize closePrice plans e)
      (submitPlans (cfg.resettled S) pos snap targetSize closePrice plans f) := by
  unfold submitPlans
  cases plans with
  | nil => exact submitSingleExit_coupled hR h pos snap targetSize closePrice .ioc false _
  | cons plan plans =>
    exact Agree.foldlM (fun e f plan _ h' =>
      submitSingleExit_coupled hR h' pos snap plan.size plan.price plan.tif plan.postOnly _) h

lemma submitExitFor_coupled (hR : R.Lawful cfg snap) (hS : HooksAgree R.strategy strat strat')
    (h : Coupled R e f) (pos : Position) (decision : ExitDecision) (fraction : ℚ)
    (snap : BookSnapshot) :
    Agree (Coupled R) (submitExitFor cfg strat pos decision fraction snap e)
      (submitExitFor (cfg.resettled S) strat' pos decision fraction snap f) := by
  unfold submitExitFor
  dsimp only
  split
  · exact h
  · refine (resolveExitPolicy_coupled hS h decision _).bind fun r r' hr => ?_
    rw [hr.2]
    cases r.2 with
    | none => exact submitSingleExit_coupled hR hr.1 pos snap _ _ .ioc false _
    | some policy => exact submitPlans_coupled hR hr.1 pos snap _ _ _

lemma evaluateExit_coupled (hR : R.Lawful cfg snap) (hS : HooksAgree R.strategy strat strat')
    (h : Coupled R e f) {pos : Position}
    (hmarket : marketState (cfg.resettled S) pos snap = marketState cfg pos snap) :
    Agree (Coupled R) (evaluateExit cfg strat snap e pos)
      (evaluateExit (cfg.resettled S) strat' snap f pos) := by
  unfold evaluateExit
  refine (callShouldExit_coupled hS h hmarket).bind fun r r' hr => ?_
  rw [hr.2]
  cases r.2 with
  | none => exact hr.1
  | some decision =>
    dsimp only
    unfold routeDecision
    cases decision.action with
    | hold => exact hr.1
    | other => exact hr.1
    | reduce =>
      dsimp only
      split
      · exact hr.1
      · exact submitExitFor_coupled hR hS hr.1 pos decision _ snap
    | close => exact submitExitFor_coupled hR hS hr.1 pos decision 1 snap

/-- The exits of a snapshot, when both runs show every position the same market. -/
lemma evaluateExits_coupled (hR : R.Lawful cfg snap) (hS : StrategiesAgree R.strategy os os')
    (h : Coupled R e f)
    (hmarket : ∀ pos ∈ exitTargets e.portfolio snap.tokenId,
      marketState (cfg.resettled S) pos snap = marketState cfg pos snap) :
    Agree (Coupled R) (evaluateExits cfg os snap e) (evaluateExits (cfg.resettled S) os' snap f) := by
  unfold evaluateExits
  cases hS with
  | none => exact h
  | some hS =>
    have htargets : exitTargets f.portfolio snap.tokenId = exitTargets e.portfolio snap.tokenId := by
      rw [exitTargets, exitTargets, hR.positions h.portfolio]
    dsimp only
    rw [htargets]
    refine Agree.foldlM (fun e f pos hpos h' => ?_) h
    exact evaluateExit_coupled hR hS h' (hmarket pos hpos)

/-! ## Cancellations -/

lemma notifyCancels_coupled (hR : R.Lawful cfg snap) (hS : StrategiesAgree R.strategy os os')
    (h : Coupled R e f) :
    Agree (Coupled R) (notifyCancels cfg os e) (notifyCancels (cfg.resettled S) os' f) := by
  unfold notifyCancels
  have horders : f.matching.allOrders = e.matching.allOrders := by
    rw [MatchingEngine.allOrders, MatchingEngine.allOrders, hR.orders h.matching]
  rw [horders]
  cases hS with
  | none => exact h
  | @some strat strat' hS =>
    have hask := hS.onCancel
    dsimp only [Option.bind_some]
    cases hh : strat.onCancel <;> cases hk : strat'.onCancel <;> rw [hh, hk] at hask <;> cases hask
    · exact h
    · next hook hook' hask =>
      refine Agree.foldlM (fun e f o _ h' => ?_) h
      unfold notifyCancel
      rw [h'.cancelledNotified]
      split
      · exact h'
      · obtain ⟨hst, hsame⟩ := hask _ _ h'.strategy o
          (if o.tif.isImmediate then "expired" else "user_cancel") o.remainingSize
        dsimp only
        rw [hsame]
        exact afterHook_coupled _ { h' with strategy := hst, cancelledNotified := rfl }

/-! ## One snapshot -/

/-- The intents that a snapshot at `now` drains are the same for both runs. -/
def DrainAlike (now : Time) (e : BacktestEngine σ) (f : BacktestEngine τ) : Prop :=
  ∃ intents later later', e.pendingIntents.drop e.intentsDrained = intents ++ later ∧
    f.pendingIntents.drop f.intentsDrained = intents ++ later' ∧
    (∀ i ∈ later, now < i.emittedAt) ∧ ∀ i ∈ later', now < i.emittedAt

lemma DrainAlike.of_eq {now : Time} (hpending : e.pendingIntents = f.pendingIntents)
    (hdrained : f.intentsDrained = e.intentsDrained) : DrainAlike now e f := by
  refine ⟨e.pendingIntents.drop e.intentsDrained, [], [], ?_, ?_, ?_, ?_⟩
  · rw [List.append_nil]
  · rw [hdrained, hpending, List.append_nil]
  all_goals
    intro i hi
    cases hi

/-- Intents that are emitted later are not drained. -/
lemma drainLoop_append {now : Time} {later : List TradeIntent}
    (hlater : ∀ i ∈ later, now < i.emittedAt) (intents : List TradeIntent)
    (e : BacktestEngine σ) :
    drainLoop cfg now (intents ++ later) e = drainLoop cfg now intents e := by
  induction intents generalizing e with
  | nil =>
    cases later with
    | nil => rfl
    | cons i later =>
      have hnow := hlater i List.mem_cons_self
      rw [List.nil_append]
      unfold drainLoop
      rw [if_neg (not_le.2 hnow)]
  | cons i intents ih =>
    rw [List.cons_append]
    unfold drainLoop
    split
    · refine congrArg (_ >>= ·) (funext fun e' => ih e')
    · rfl

lemma drainIntents_coupled (hR : R.Lawful cfg snap) {now : Time} (hdrain : DrainAlike now e f)
    (h : Coupled R e f) :
    Agree (Coupled R) (drainIntents cfg now e) (drainIntents (cfg.resettled S) now f) := by
  obtain ⟨intents, later, later', he, hf, hlater, hlater'⟩ := hdrain
  unfold drainIntents
  rw [he, hf, drainLoop_append hlater, drainLoop_append hlater']
  exact drainLoop_coupled hR now intents h

/-- Both runs process a snapshot alike. -/
lemma processSnapshot_coupled (hR : R.Lawful cfg snap) (hS : StrategiesAgree R.strategy os os')
    (h : Coupled R e f) (hdrain : DrainAlike snap.observedAt e f)
    (hmarket : ∀ pos, marketState (cfg.resettled S) pos snap = marketState cfg pos snap) :
    Agree (Coupled R) (processSnapshot cfg os snap e)
      (processSnapshot (cfg.resettled S) os' snap f) := by
  unfold processSnapshot
  refine (drainIntents_coupled hR hdrain h).bind fun e₁ f₁ h₁ => ?_
  refine Agree.bind (hR.advance h₁.matching) fun r r' hr => ?_
  rw [hr.2]
  have hadvanced : Coupled R { e₁ with matching := r.1 } { f₁ with matching := r'.1 } :=
    { h₁ with matching := hr.1 }
  refine (Agree.foldlM (fun e f fill _ h' => applyOne_coupled hR hS h' fill) hadvanced).bind
    fun e₂ f₂ h₂ => ?_
  refine (evaluateExits_coupled hR hS (markBook_coupled hR h₂ snap) fun pos _ => hmarket pos).bind
    fun e₃ f₃ h₃ => ?_
  exact notifyCancels_coupled hR hS h₃

lemma intentsReady_coupled {now : Time} (hdrain : DrainAlike now e f) :
    f.intentsReadyToDrain now = e.intentsReadyToDrain now := by
  obtain ⟨intents, later, later', he, hf, hlater, hlater'⟩ := hdrain
  have hhead : ∀ {υ : Type} (g : BacktestEngine υ) (xs later : List TradeIntent),
      g.pendingIntents.drop g.intentsDrained = xs ++ later → (∀ i ∈ later, now < i.emittedAt) →
      g.intentsReadyToDrain now = xs.head?.elim false fun i => decide (i.emittedAt ≤ now) := by
    intro υ g xs later hg hlater
    unfold intentsReadyToDrain
    rw [← List.head?_drop, hg]
    cases xs with
    | cons i xs => rfl
    | nil =>
      cases later with
      | nil => rfl
      | cons i later =>
        have hnow := hlater i List.mem_cons_self
        simpa using hnow
  rw [hhead e intents later he hlater, hhead f intents later' hf hlater']

/-- Both runs skip a snapshot, or both process it. -/
lemma involved_coupled (hR : R.Lawful cfg snap) (h : Coupled R e f)
    (hdrain : DrainAlike snap.observedAt e f) : f.involved snap = e.involved snap := by
  unfold involved hasPositionForToken MatchingEngine.hasActiveOrdersForToken
  rw [intentsReady_coupled hdrain, hR.active h.matching, hR.positions h.portfolio]

/-- Both runs take a snapshot alike, once their sweeps have. -/
lemma onSnapshot_coupled (hR : R.Lawful cfg snap) (hS : StrategiesAgree R.strategy os os')
    (hsettle : Coupled R (settleDue cfg snap.observedAt e)
      (settleDue (cfg.resettled S) snap.observedAt f))
    (hdrain : DrainAlike snap.observedAt (settleDue cfg snap.observedAt e)
      (settleDue (cfg.resettled S) snap.observedAt f))
    (hmarket : ∀ pos, marketState (cfg.resettled S) pos snap = marketState cfg pos snap) :
    Agree (Coupled R) (onSnapshot cfg os e snap) (onSnapshot (cfg.resettled S) os' f snap) := by
  unfold onSnapshot
  dsimp only
  rw [involved_coupled hR hsettle hdrain]
  split
  · exact processSnapshot_coupled hR hS hsettle hdrain hmarket
  · have hskip : Coupled R
        { settleDue cfg snap.observedAt e with
          latestBook := (settleDue cfg snap.observedAt e).latestBook.set snap.tokenId snap }
        { settleDue (cfg.resettled S) snap.observedAt f with
          latestBook :=
            (settleDue (cfg.resettled S) snap.observedAt f).latestBook.set snap.tokenId snap } :=
      { hsettle with latestBook := by rw [hsettle.latestBook] }
    exact hskip

lemma feedOne_coupled {handler : BacktestEngine σ → BookSnapshot → Except EngineError (BacktestEngine σ)}
    {handler' : BacktestEngine τ → BookSnapshot → Except EngineError (BacktestEngine τ)}
    (h : Agree (Coupled R) (handler e snap) (handler' f snap)) :
    Agree (Coupled R) (feedOne handler e snap) (feedOne handler' f snap) :=
  h.map fun _ _ h' => { h' with snapshotsProcessed := by rw [h'.snapshotsProcessed] }

/-- Settlements that are due later are not swept. -/
lemma settleLoop_append {now : Time} {later : List (Time × TokenId)}
    (hlater : ∀ entry ∈ later, now < entry.1) (schedule : List (Time × TokenId))
    (e : BacktestEngine σ) :
    settleLoop cfg now (schedule ++ later) e = settleLoop cfg now schedule e := by
  induction schedule generalizing e with
  | nil =>
    cases later with
    | nil => rfl
    | cons entry later =>
      have hnow := hlater entry List.mem_cons_self
      rw [List.nil_append]
      unfold settleLoop
      rw [if_neg (not_le.2 hnow)]
  | cons entry schedule ih =>
    rw [List.cons_append]
    unfold settleLoop
    split
    · exact ih _
    · rfl

end Steps

end BacktestEngine

end Evosport.Backtest
