/-
The early return of `_on_snapshot` changes nothing that counts.

`onEverySnapshot` is `_on_snapshot` without the early return for tokens that are not
involved.  A snapshot of such a token does nothing in it but move the clock and the book of
the matching engine and extend the curves of the portfolio (`processSnapshot_idle`), so the
engine with the early return lags behind in these (`lagging`), and nothing that it does later
can tell: an advance does not (`MatchingEngine.Lags.advance`), and the final mark asks the
clock only about settlements that both clocks have seen (`Swept.resolvedInWindow`).
-/
import Evosport.Backtest.NoLookahead
import Evosport.Backtest.StaleBooks
import Evosport.Backtest.Sweep
import Mathlib.Data.Set.Finite.Lattice

namespace Evosport.Backtest

open Lib

namespace Portfolio

variable {p q : Portfolio}

/-- Two portfolios that differ in their curves only. -/
def SameButCurves (p q : Portfolio) : Prop :=
  ∃ peak equity cash,
    q = { p with peakEquityUsd := peak, equityHistory := equity, cashHistory := cash }

namespace SameButCurves

lemma refl (p : Portfolio) : SameButCurves p p := ⟨_, _, _, rfl⟩

lemma trans {r : Portfolio} (h : SameButCurves p q) (h' : SameButCurves q r) :
    SameButCurves p r := by
  obtain ⟨peak, equity, cash, rfl⟩ := h
  obtain ⟨peak', equity', cash', rfl⟩ := h'
  exact ⟨peak', equity', cash', rfl⟩

/-- A close reads nothing of the curves. -/
lemma closeWith (h : SameButCurves p q) (pos : Position) (f : Fill) :
    SameButCurves (p.closeWith pos f).1 (q.closeWith pos f).1 ∧
      (q.closeWith pos f).2 = (p.closeWith pos f).2 := by
  obtain ⟨peak, equity, cash, rfl⟩ := h
  refine ⟨⟨peak, equity, cash, ?_⟩, rfl⟩
  simp only [Portfolio.closeWith, onCashChangeFromClose]
  split <;> rfl

lemma applyFill (h : SameButCurves p q) (f : Fill) (slug : Option Slug) :
    SameButCurves (p.applyFill f slug) (q.applyFill f slug) := by
  have hpositions : q.positions = p.positions := by
    obtain ⟨peak, equity, cash, rfl⟩ := h
    rfl
  unfold Portfolio.applyFill
  dsimp only
  rw [hpositions]
  cases p.positions.get? (f.tokenId, f.side.opposite, slug) with
  | some pos =>
    obtain ⟨⟨peak, equity, cash, hclose⟩, hpos⟩ := h.closeWith pos f
    dsimp only
    rw [hpos, hclose]
    split
    · exact ⟨peak, equity, cash, rfl⟩
    · exact ⟨peak, equity, cash, rfl⟩
  | none =>
    obtain ⟨peak, equity, cash, rfl⟩ := h
    exact ⟨peak, equity, cash, rfl⟩

lemma closePositionAt (h : SameButCurves p q) (key : PositionKey) (price : ℚ) (at_ : Time)
    (b : Bool) : SameButCurves (p.closePositionAt key price at_ b)
      (q.closePositionAt key price at_ b) := by
  have hpositions : q.positions = p.positions := by
    obtain ⟨peak, equity, cash, rfl⟩ := h
    rfl
  unfold Portfolio.closePositionAt
  rw [hpositions]
  cases p.positions.get? key with
  | none => exact h
  | some pos =>
    obtain ⟨⟨peak, equity, cash, hclose⟩, hpos⟩ :=
      h.closeWith pos (syntheticFill key pos price at_ b)
    dsimp only
    rw [hpos, hclose]
    exact ⟨peak, equity, cash, rfl⟩

lemma mark (h : SameButCurves p q) (token : TokenId) (price : ℚ) (at_ : Time) :
    SameButCurves (p.mark token price at_) (q.mark token price at_) := by
  obtain ⟨peak, equity, cash, rfl⟩ := h
  exact ⟨_, _, _, rfl⟩

lemma extended (h : SameButCurves p q) (equity equity' cash cash' : List (Time × ℚ)) :
    SameButCurves { p with equityHistory := equity, cashHistory := cash }
      { q with equityHistory := equity', cashHistory := cash' } := by
  obtain ⟨peak, _, _, rfl⟩ := h
  exact ⟨peak, equity', cash', rfl⟩

end SameButCurves

/-- A mark of a token without positions only extends the curves. -/
lemma mark_of_absent {token : TokenId} (h : ∀ key ∈ p.positions.keys, key.1 ≠ token) (price : ℚ)
    (at_ : Time) : SameButCurves p (p.mark token price at_) := by
  have hsame : (p.positions.mapVal fun key pos =>
      if key.1 = token then pos.mark price at_ else pos) = p.positions :=
    Dict.mapVal_of_forall fun key pos hget => if_neg (h key (Dict.mem_keys.2 ⟨pos, hget⟩))
  unfold mark
  rw [hsame]
  exact ⟨_, _, _, rfl⟩

end Portfolio

namespace BacktestEngine

variable {σ : Type} {cfg : BacktestConfig} {strat : Option (Strategy σ)} {snap : BookSnapshot}
  {e e' f : BacktestEngine σ} {t : Time}

/-! ## The engine without the early return -/

variable (cfg) in
/-- `_on_snapshot` without the early return. -/
def onEverySnapshot (strat : Option (Strategy σ)) (e : BacktestEngine σ) (snap : BookSnapshot) :
    Except EngineError (BacktestEngine σ) :=
  processSnapshot cfg strat snap (settleDue cfg snap.observedAt e)

variable (cfg) in
/-- The loop of `run` over the snapshots, none of which is skipped. -/
def feedEvery (strat : Option (Strategy σ)) (snapshots : List BookSnapshot)
    (e : BacktestEngine σ) : Except EngineError (BacktestEngine σ) :=
  snapshots.foldlM (feedOne (onEverySnapshot cfg strat)) e

/-- Every cancelled order has been reported to a strategy that wants to know. -/
def Notified (strat : Option (Strategy σ)) (e : BacktestEngine σ) : Prop :=
  (strat.bind Strategy.onCancel).isSome = true →
    ∀ o ∈ e.matching.allOrders, o.state = .cancelled → o.orderId ∈ e.cancelledNotified

/-- Step 6 reports every cancelled order. -/
lemma notified_notifyCancels (h : notifyCancels cfg strat e = .ok e') : Notified strat e' := by
  intro hhook
  obtain ⟨hook, hsome⟩ := Option.isSome_iff_exists.1 hhook
  unfold notifyCancels at h
  rw [hsome] at h
  dsimp only at h
  have hloop : ∀ (os : List BacktestOrder) (e : BacktestEngine σ),
      os.foldlM (notifyCancel cfg hook) e = .ok e' →
      e'.matching = e.matching ∧ e.cancelledNotified ⊆ e'.cancelledNotified ∧
        ∀ o ∈ os, o.state = .cancelled → o.orderId ∈ e'.cancelledNotified := by
    intro os
    induction os with
    | nil =>
      intro e h
      cases h
      exact ⟨rfl, fun _ h => h, by simp⟩
    | cons o os ih =>
      intro e h
      rw [List.foldlM_cons, except_bind_eq_ok] at h
      obtain ⟨e₁, hone, hrest⟩ := h
      obtain ⟨hmatching, hgrows, hos⟩ := ih e₁ hrest
      have hfirst : e₁.matching = e.matching ∧ e.cancelledNotified ⊆ e₁.cancelledNotified ∧
          (o.state = .cancelled → o.orderId ∈ e₁.cancelledNotified) := by
        unfold notifyCancel at hone
        split at hone
        · next hskip =>
          cases hone
          refine ⟨rfl, fun _ h => h, fun hstate => ?_⟩
          exact hskip.resolve_left fun hne => hne hstate
        · rw [afterHook_ok cfg hone]
          exact ⟨rfl, List.subset_append_left _ _, fun _ => by simp⟩
      refine ⟨hmatching.trans hfirst.1, fun id hid => hgrows (hfirst.2.1 hid), ?_⟩
      rintro o' (_ | ⟨_, ho'⟩) hstate
      · exact hgrows (hfirst.2.2 hstate)
      · exact hos o' ho' hstate
  obtain ⟨hmatching, -, hall⟩ := hloop _ e h
  rw [hmatching]
  exact hall

/-- When every cancelled order has been reported, step 6 does nothing. -/
lemma notifyCancels_of_notified (h : Notified strat e) : notifyCancels cfg strat e = .ok e := by
  unfold notifyCancels
  cases hhook : strat.bind Strategy.onCancel with
  | none => rfl
  | some hook =>
    refine foldlM_idle fun o ho => ?_
    unfold notifyCancel
    rw [if_pos]
    by_cases hstate : o.state = .cancelled
    · exact .inr (h (by rw [hhook]; rfl) o ho hstate)
    · exact .inl hstate

/-- Without a ready intent step 1 does nothing. -/
lemma drainIntents_of_notReady {now : Time} (h : e.intentsReadyToDrain now = false) :
    drainIntents cfg now e = .ok e := by
  unfold intentsReadyToDrain at h
  rw [← List.head?_drop] at h
  unfold drainIntents
  cases hrest : e.pendingIntents.drop e.intentsDrained with
  | nil => rfl
  | cons intent rest =>
    rw [hrest] at h
    unfold drainLoop
    rw [if_neg (by simpa using h)]

lemma absent_of_uninvolved (h : e.hasPositionForToken snap.tokenId = false) :
    ∀ key ∈ e.portfolio.positions.keys, key.1 ≠ snap.tokenId := by
  intro key hkey htoken
  have hnone := List.any_eq_false.1 h key hkey
  exact hnone (by simpa using htoken)

/-- A snapshot of a token that is not involved moves the clock and the book of the matching
engine, and extends the curves. -/
lemma processSnapshot_idle (hinvolved : e.involved snap = false)
    (hwf : MatchingEngine.WellFormed e.matching) (huncancelled : e.matching.pendingCancels = .empty)
    (hdue : ∀ b ∈ e.matching.now, b ≤ snap.observedAt) (hnotified : Notified strat e) :
    processSnapshot cfg strat snap e = .ok (markBook snap
      { e with matching := { e.matching with
          now := some snap.observedAt
          books := e.matching.books.set snap.tokenId { snapshot := snap } } }) := by
  unfold involved at hinvolved
  simp only [Bool.or_eq_false_iff] at hinvolved
  obtain ⟨⟨hready, hactive⟩, hposition⟩ := hinvolved
  have habsent := absent_of_uninvolved hposition
  have hadvance : e.matching.advanceTo cfg.matching snap = .ok ({ e.matching with
      now := some snap.observedAt
      books := e.matching.books.set snap.tokenId { snapshot := snap } }, []) := by
    rcases MatchingEngine.advanceTo_cases cfg.matching e.matching snap with
      ⟨⟨before, hb, hlt⟩, -⟩ | ⟨-, heq⟩
    · exact absurd hlt (not_lt.2 (hdue before hb))
    · rw [heq, MatchingEngine.advance_idle hwf huncancelled hactive]
  set marked : BacktestEngine σ := markBook snap { e with matching := { e.matching with
      now := some snap.observedAt
      books := e.matching.books.set snap.tokenId { snapshot := snap } } } with hmarked
  have hpositions : marked.portfolio.positions = e.portfolio.positions := by
    obtain ⟨peak, equity, cash, hsame⟩ : Portfolio.SameButCurves e.portfolio marked.portfolio := by
      rw [hmarked, markBook]
      cases snap.mid with
      | none => exact .refl _
      | some mid => exact Portfolio.mark_of_absent habsent mid snap.observedAt
    rw [hsame]
  have hexits : evaluateExits cfg strat snap marked = .ok marked := by
    unfold evaluateExits
    cases strat with
    | none => rfl
    | some s =>
      have hnone : exitTargets marked.portfolio snap.tokenId = [] := by
        unfold exitTargets
        rw [hpositions, List.map_eq_nil_iff, List.filter_eq_nil_iff]
        rintro ⟨key, pos⟩ hmem
        have hne := habsent key (Dict.mem_keys.2 ⟨pos, Dict.mem_entries.1 hmem⟩)
        simp [hne]
      dsimp only
      rw [hnone]
      rfl
  have hcancels : notifyCancels cfg strat marked = .ok marked := notifyCancels_of_notified hnotified
  unfold processSnapshot
  rw [drainIntents_of_notReady hready]
  show (e.matching.advanceTo cfg.matching snap >>= _) = _
  rw [hadvance]
  show (evaluateExits cfg strat snap marked >>= _) = _
  rw [hexits]
  exact hcancels

/-! ## The run with the early return -/

/-- The matching engine has seen the snapshot that was just processed. -/
lemma now_processed (hwf : MatchingEngine.WellFormed e.matching)
    (h : Processed cfg strat snap e e') : e'.matching.now = some snap.observedAt := by
  have hadvanced : h.advanced.now = some snap.observedAt := by
    obtain ⟨e₁, hi, -, heq⟩ := MatchingEngine.advance_effects cfg.matching (J := fun _ _ => True)
      (wellFormed_submits (h.submits_drained (P := fun _ => True) fun _ _ _ _ => trivial) hwf)
      snap trivial (fun _ _ _ _ _ _ => trivial)
    have hnow := hi.opened.now
    rw [advanceTo_ok h.advance] at heq
    exact (congrArg MatchingEngine.now heq).trans hnow
  refine h.submits_advanced.invariant (I := fun m => m.now = some snap.observedAt) hadvanced ?_
  intro m op hop hm
  cases op with
  | submit order hf =>
    show ((m.submit cfg.matching order).toOption.getD m).now = _
    cases hs : m.submit cfg.matching order with
    | error err => exact hm
    | ok m' =>
      obtain ⟨o', ho'⟩ := MatchingEngine.submit_cases hf hs
      exact ho'.now.trans hm
  | cancel id at_ => exact hop.elim
  | advanceTo snap' => exact hop.elim

/-- What is known of the engine with the early return after the snapshots up to `t`. -/
structure CaughtUp (cfg : BacktestConfig) (strat : Option (Strategy σ)) (t : Time)
    (e : BacktestEngine σ) : Prop where
  notified : Notified strat e
  swept : Swept cfg t e
  keyed : e.portfolio.WellKeyed
  opened : e.portfolio.Opened

lemma CaughtUp.onSnapshot (hwf : MatchingEngine.WellFormed e.matching)
    (h : CaughtUp cfg strat t e) (hle : t ≤ snap.observedAt)
    (hok : onSnapshot cfg strat e snap = .ok e') : CaughtUp cfg strat snap.observedAt e' := by
  have hportfolio := portfolio_onSnapshot hok
  have hswept := h.swept.settleDue hle
  have hmatching := matching_settleDue cfg snap.observedAt e
  have hnotified : Notified strat (settleDue cfg snap.observedAt e) := by
    obtain ⟨n, k, hrest⟩ := (settleDue_settled cfg snap.observedAt e).rest
    rw [hrest]
    exact h.notified
  have hbooks : e'.portfolio.WellKeyed ∧ e'.portfolio.Opened := by
    rw [hportfolio]
    exact ⟨Portfolio.wellKeyed_replay h.keyed _, h.opened.replay _⟩
  rcases onSnapshot_cases hok with ⟨-, rfl⟩ | ⟨-, ⟨hp⟩⟩
  · exact ⟨hnotified, ⟨hswept.schedule, hswept.split⟩, hbooks.1, hbooks.2⟩
  · obtain ⟨-, hschedule, hptr⟩ := hp.frame
    rw [← hmatching] at hwf
    exact ⟨notified_notifyCancels hp.notify,
      hswept.processed hschedule hptr (now_processed hwf hp), hbooks.1, hbooks.2⟩

/-- There is a time before everything, at which a run starts. -/
lemma caughtUp_start (strat : Option (Strategy σ)) (st : σ) (intents : List TradeIntent)
    (snapshots : List BookSnapshot) : ∃ b, (∀ snap ∈ snapshots, b ≤ snap.observedAt) ∧
      CaughtUp cfg strat b (start cfg st intents) := by
  obtain ⟨b, hb⟩ := (List.finite_toSet
    ((resolutionScheduleOf cfg).map Prod.fst ++ snapshots.map BookSnapshot.observedAt)).bddBelow
  have hfuture : ∀ entry ∈ resolutionScheduleOf cfg, b - 1 < entry.1 := by
    intro entry hentry
    have hle : b ≤ entry.1 := hb (List.mem_append_left _ (List.mem_map_of_mem hentry))
    exact (sub_one_lt b).trans_le hle
  have hbefore : ∀ snap ∈ snapshots, b - 1 ≤ snap.observedAt := by
    intro snap hsnap
    have hle : b ≤ snap.observedAt := hb (List.mem_append_right _ (List.mem_map_of_mem hsnap))
    exact (sub_one_lt b).le.trans hle
  exact ⟨b - 1, hbefore, fun _ _ ho => (List.not_mem_nil ho).elim, swept_start hfuture st intents,
    Portfolio.wellKeyed_init (portfolioConfig cfg), Portfolio.opened_init (portfolioConfig cfg)⟩

/-! ## The two runs -/

/-- The coupling of the engine with the early return and the one without it. -/
def lagging (σ : Type) (t : Time) : Coupling σ σ where
  portfolio := Portfolio.SameButCurves
  matching := MatchingEngine.Lags t
  strategy := Eq
  pending := Eq
  schedule := Eq

lemma lagging_lawful (cfg : BacktestConfig) (snap : BookSnapshot) :
    (lagging σ snap.observedAt).Lawful cfg snap where
  positions := by
    rintro p q ⟨peak, equity, cash, rfl⟩
    rfl
  cash := by
    rintro p q ⟨peak, equity, cash, rfl⟩
    rfl
  config := by
    rintro p q ⟨peak, equity, cash, rfl⟩
    rfl
  applyFill h f slug := Portfolio.SameButCurves.applyFill h f slug
  closePositionAt h key price at_ b := Portfolio.SameButCurves.closePositionAt h key price at_ b
  mark h token price at_ := Portfolio.SameButCurves.mark h token price at_
  orders h := MatchingEngine.Lags.orders h
  active h := MatchingEngine.Lags.active h
  submit h o ho := MatchingEngine.Lags.submit h cfg.matching ho
  advance h := MatchingEngine.Lags.advance h cfg.matching

lemma Coupled.later {t' : Time} (h : Coupled (lagging σ t) e f) (ht : t ≤ t') :
    Coupled (lagging σ t') e f :=
  { h with matching := MatchingEngine.Lags.mono h.matching ht }

lemma strategiesAgree_refl (strat : Option (Strategy σ)) :
    StrategiesAgree (lagging σ t).strategy strat strat := by
  cases strat with
  | none => exact .none
  | some s => exact .some (HooksAgree.refl s)

/-- Skipping a snapshot of a token that is not involved, and processing it. -/
lemma skip_coupled (h : Coupled (lagging σ snap.observedAt) e f) (hnotified : Notified strat e)
    (hinvolved : e.involved snap = false) :
    Agree (Coupled (lagging σ snap.observedAt))
      (.ok { e with latestBook := e.latestBook.set snap.tokenId snap })
      (processSnapshot cfg strat snap f) := by
  have hinvolved' : f.involved snap = false := by
    rw [← hinvolved]
    exact involved_coupled (lagging_lawful cfg snap) h (.of_eq h.pending h.intentsDrained)
  have hlags : MatchingEngine.Lags snap.observedAt e.matching f.matching := h.matching
  obtain ⟨⟨books, now, hsame⟩, hbooks, hclock, hdue, huncancelled, hwf⟩ := hlags
  have hwf' : MatchingEngine.WellFormed f.matching := by
    rw [hsame]
    exact ⟨hwf.keyed, hwf.booked, hwf.fresh, hwf.nodup, hwf.working, hwf.counted⟩
  have huncancelled' : f.matching.pendingCancels = .empty := by
    rw [hsame]
    exact huncancelled
  have hnotified' : Notified strat f := by
    unfold Notified MatchingEngine.allOrders
    rw [h.cancelledNotified, MatchingEngine.Lags.orders h.matching]
    exact hnotified
  rw [processSnapshot_idle hinvolved' hwf' huncancelled' hdue hnotified']
  have habsent : ∀ key ∈ f.portfolio.positions.keys, key.1 ≠ snap.tokenId := by
    unfold involved at hinvolved'
    simp only [Bool.or_eq_false_iff] at hinvolved'
    exact absent_of_uninvolved hinvolved'.2
  have hidle : e.matching.workingIds snap.tokenId = [] := by
    unfold involved at hinvolved
    simp only [Bool.or_eq_false_iff] at hinvolved
    exact hwf.workingIds_of_inactive hinvolved.1.2
  have hmatching : MatchingEngine.Lags snap.observedAt e.matching { f.matching with
      now := some snap.observedAt
      books := f.matching.books.set snap.tokenId { snapshot := snap } } := by
    refine ⟨⟨f.matching.books.set snap.tokenId { snapshot := snap }, some snap.observedAt, ?_⟩,
      fun token htoken => ?_, fun a ha => ?_, ?_, huncancelled, hwf⟩
    · rw [hsame]
    · have hne : snap.tokenId ≠ token := by
        rintro rfl
        exact htoken hidle
      show (f.matching.books.set snap.tokenId { snapshot := snap }).get? token = _
      rw [Dict.get?_set_of_ne _ _ hne]
      exact hbooks token htoken
    · obtain ⟨b, hb, hle⟩ := hclock a ha
      exact ⟨snap.observedAt, rfl, hle.trans (hdue b hb)⟩
    · intro b hb
      cases hb
      exact le_refl _
  have hportfolio : Portfolio.SameButCurves f.portfolio (markBook snap f).portfolio := by
    unfold markBook
    cases snap.mid with
    | none => exact .refl _
    | some mid => exact Portfolio.mark_of_absent habsent mid snap.observedAt
  exact { h with
    portfolio := Portfolio.SameButCurves.trans h.portfolio hportfolio
    matching := hmatching
    latestBook := by
      show f.latestBook.set snap.tokenId snap = _
      rw [h.latestBook] }

/-- One snapshot. -/
lemma onSnapshot_lagging (h : Coupled (lagging σ t) e f) (hcaught : CaughtUp cfg strat t e)
    (hle : t ≤ snap.observedAt) :
    Agree (Coupled (lagging σ snap.observedAt)) (onSnapshot cfg strat e snap)
      (onEverySnapshot cfg strat f snap) := by
  have hR : (lagging σ snap.observedAt).Lawful cfg snap := lagging_lawful cfg snap
  have hlater := h.later hle
  have hsettled : Coupled (lagging σ snap.observedAt) (settleDue cfg snap.observedAt e)
      (settleDue cfg snap.observedAt f) := by
    unfold settleDue
    rw [hlater.resolutionPtr, ← (hlater.schedule : e.resolutionSchedule = f.resolutionSchedule)]
    exact settleLoop_coupled (S := cfg.settlements) hR snap.observedAt (fun _ _ _ => rfl) hlater
  unfold onSnapshot onEverySnapshot
  dsimp only
  cases hinvolved : (settleDue cfg snap.observedAt e).involved snap with
  | true =>
    exact processSnapshot_coupled (S := cfg.settlements) hR (strategiesAgree_refl strat) hsettled
      (.of_eq hsettled.pending hsettled.intentsDrained) fun _ => rfl
  | false =>
    refine skip_coupled hsettled ?_ hinvolved
    obtain ⟨n, k, hrest⟩ := (settleDue_settled cfg snap.observedAt e).rest
    rw [hrest]
    exact hcaught.notified

/-- A whole run: after the last snapshot the engine with the early return is behind the one
without it. -/
lemma feed_lagging {snapshots : List BookSnapshot} (hchron : ChronologicalStream snapshots)
    (hle : ∀ snap ∈ snapshots, t ≤ snap.observedAt) (h : Coupled (lagging σ t) e f)
    (hcaught : CaughtUp cfg strat t e) :
    Agree (fun e f => ∃ t, Coupled (lagging σ t) e f ∧ CaughtUp cfg strat t e)
      (feed cfg strat snapshots e) (feedEvery cfg strat snapshots f) := by
  induction snapshots generalizing e f t with
  | nil => exact ⟨t, h, hcaught⟩
  | cons snap rest ih =>
    obtain ⟨hfirst, hrest⟩ := List.pairwise_cons.1 hchron
    have hnow := hle snap List.mem_cons_self
    have hwf : MatchingEngine.WellFormed e.matching := MatchingEngine.Lags.wellFormed h.matching
    unfold feed feedEvery
    rw [List.foldlM_cons, List.foldlM_cons]
    have hone := feedOne_coupled (onSnapshot_lagging h hcaught hnow)
    cases he : feedOne (onSnapshot cfg strat) e snap with
    | error err =>
      cases hf : feedOne (onEverySnapshot cfg strat) f snap with
      | error err' =>
        rw [he, hf] at hone
        exact hone
      | ok f' =>
        rw [he, hf] at hone
        exact hone.elim
    | ok e' =>
      rw [he] at hone
      obtain ⟨e₁, he₁, rfl⟩ := feedOne_ok he
      obtain ⟨hn, hs, hk, ho⟩ := hcaught.onSnapshot hwf hnow he₁
      cases hf : feedOne (onEverySnapshot cfg strat) f snap with
      | error err =>
        rw [hf] at hone
        exact hone.elim
      | ok f' =>
        rw [hf] at hone
        exact ih hrest hfirst hone ⟨hn, ⟨hs.schedule, hs.split⟩, hk, ho⟩

/-! ## The final mark -/

/-- A position that both clocks settle alike is closed alike. -/
lemma finalClose_lagging (h : Coupled (lagging σ t) e f) {c c' : Option Time} {key : PositionKey}
    (hpos : ∀ pos, e.portfolio.positions.get? key = some pos →
      resolvedInWindow cfg c' pos = resolvedInWindow cfg c pos ∧ pos.openedAt.isSome = true) :
    Coupled (lagging σ t) (finalClose cfg c e key) (finalClose cfg c' f key) := by
  have hsame : Portfolio.SameButCurves e.portfolio f.portfolio := h.portfolio
  have hpositions : f.portfolio.positions = e.portfolio.positions := by
    obtain ⟨peak, equity, cash, heq⟩ := hsame
    rw [heq]
  unfold finalClose
  rw [hpositions]
  cases hget : e.portfolio.positions.get? key with
  | none => exact h
  | some pos =>
    obtain ⟨hresolved, hopened⟩ := hpos pos hget
    obtain ⟨opened, hopened⟩ := Option.isSome_iff_exists.1 hopened
    dsimp only
    rw [hresolved]
    cases resolvedInWindow cfg c pos with
    | some settled =>
      exact { h with
        portfolio := hsame.closePositionAt key settled.1 settled.2 true
        settledPositionCount := by
          show f.settledPositionCount + 1 = e.settledPositionCount + 1
          rw [h.settledPositionCount] }
    | none =>
      -- the clock is not asked for the time of the close
      have hclose : ∀ c : Option Time, ((pos.lastMarkAt.or pos.openedAt).or c).getD cfg.wallClock =
          (pos.lastMarkAt.or pos.openedAt).getD cfg.wallClock := by
        intro c
        rw [hopened]
        cases pos.lastMarkAt <;> rfl
      dsimp only
      rw [hclose c, hclose c']
      exact { h with
        portfolio := hsame.closePositionAt key _ _ false
        markedToMidCount := by
          show f.markedToMidCount + 1 = e.markedToMidCount + 1
          rw [h.markedToMidCount] }

lemma finalClose_shrinks (cfg : BacktestConfig) (c : Option Time) (e : BacktestEngine σ)
    (key : PositionKey) : e.portfolio.Shrinks (finalClose cfg c e key).portfolio := by
  have hclose : ∀ price at_ b,
      e.portfolio.Shrinks (e.portfolio.closePositionAt key price at_ b) := by
    intro price at_ b k pos hget
    rw [Portfolio.get?_closePositionAt] at hget
    split at hget
    · cases hget
    · exact hget
  unfold finalClose
  split
  · exact fun _ _ hget => hget
  · split
    · exact hclose _ _ _
    · exact hclose _ _ _

lemma finalCloses_lagging {c c' : Option Time} {keys : List PositionKey}
    (h : Coupled (lagging σ t) e f)
    (hpos : ∀ key ∈ keys, ∀ pos, e.portfolio.positions.get? key = some pos →
      resolvedInWindow cfg c' pos = resolvedInWindow cfg c pos ∧ pos.openedAt.isSome = true) :
    Coupled (lagging σ t) (keys.foldl (finalClose cfg c) e) (keys.foldl (finalClose cfg c') f) := by
  induction keys generalizing e f with
  | nil => exact h
  | cons key keys ih =>
    refine ih (finalClose_lagging h (hpos key List.mem_cons_self)) fun k hk pos hget => ?_
    exact hpos k (List.mem_cons_of_mem _ hk) pos (finalClose_shrinks cfg c e key k pos hget)

/-- The close-out of the run. -/
lemma finish_lagging (h : Coupled (lagging σ t) e f) (hcaught : CaughtUp cfg strat t e) :
    Coupled (lagging σ t) (finish cfg e) (finish cfg f) := by
  have hlags : MatchingEngine.Lags t e.matching f.matching := h.matching
  have hkeys : heldKeys f.portfolio (fun _ => true) = heldKeys e.portfolio fun _ => true := by
    obtain ⟨peak, equity, cash, heq⟩ : Portfolio.SameButCurves e.portfolio f.portfolio :=
      h.portfolio
    rw [heq]
    rfl
  have hcloses : Coupled (lagging σ t)
      ((heldKeys e.portfolio fun _ => true).foldl (finalClose cfg e.matching.now) e)
      ((heldKeys e.portfolio fun _ => true).foldl (finalClose cfg f.matching.now) f) := by
    refine finalCloses_lagging h fun key hkey pos hget => ⟨?_, hcaught.opened key pos hget⟩
    obtain ⟨pos', hget', -, hsize⟩ := mem_heldKeys.1 hkey
    rw [hget] at hget'
    cases hget'
    exact hcaught.swept.resolvedInWindow hcaught.keyed hlags.clock hlags.due hget hsize
  unfold finish
  split
  · unfold finalMarkToMarket
    rw [hkeys]
    exact { hcloses with
      portfolio := Portfolio.SameButCurves.extended hcloses.portfolio _ _ _ _ }
  · exact h

/-! ## The early return changes no outcome -/

/-- The same outcome: fills, orders, cash, positions and counts.  What only tells how the run came
about, such as the number of snapshots it processed, may differ. -/
structure SameOutcome (e f : BacktestEngine σ) : Prop where
  fills : f.matching.allFills = e.matching.allFills
  orders : f.matching.orders = e.matching.orders
  cash : f.portfolio.cashUsd = e.portfolio.cashUsd
  positions : f.portfolio.positions = e.portfolio.positions
  closedPositions : f.portfolio.closedPositions = e.portfolio.closedPositions
  settled : f.settledPositionCount = e.settledPositionCount
  markedToMid : f.markedToMidCount = e.markedToMidCount

lemma Coupled.sameOutcome (h : Coupled (lagging σ t) e f) : SameOutcome e f := by
  obtain ⟨peak, equity, cash, hportfolio⟩ : Portfolio.SameButCurves e.portfolio f.portfolio :=
    h.portfolio
  obtain ⟨books, now, hmatching⟩ := MatchingEngine.Lags.same h.matching
  exact {
    fills := by rw [hmatching]
    orders := by rw [hmatching]
    cash := by rw [hportfolio]
    positions := by rw [hportfolio]
    closedPositions := by rw [hportfolio]
    settled := h.settledPositionCount
    markedToMid := h.markedToMidCount }

/-- **The early return is sound.**  On a chronological stream, a run with the early return
and the run without it raise the same error or end with the same outcome. -/
theorem fastPath_sameOutcome (strat : Option (Strategy σ)) (st : σ) (intents : List TradeIntent)
    {snapshots : List BookSnapshot} (hchron : ChronologicalStream snapshots) :
    Agree SameOutcome ((feed cfg strat snapshots (start cfg st intents)).map (finish cfg))
      ((feedEvery cfg strat snapshots (start cfg st intents)).map (finish cfg)) := by
  obtain ⟨b, hbefore, hcaught⟩ := caughtUp_start strat st intents snapshots
  have hstart : Coupled (lagging σ b) (start cfg st intents) (start cfg st intents) :=
    ⟨.refl _, MatchingEngine.lags_init _, rfl, rfl, rfl, rfl, rfl, rfl, rfl, rfl, rfl, rfl, rfl⟩
  refine (feed_lagging hchron hbefore hstart hcaught).map ?_
  rintro e f ⟨t, h, hcaught⟩
  exact (finish_lagging h hcaught).sameOutcome

/-- A book of another token, in which the run has no interest. -/
def otherBook (observedAt : Time) : BookSnapshot :=
  { deepBook observedAt (1 / 2) with tokenId := "other" }

/-- Two snapshots that the early return skips, one of them the last. -/
theorem otherBooks_sameOutcome :
    Agree SameOutcome
      ((feed (.plain 1 {}) (some alwaysClose)
        [deepBook 1000 (49 / 100), otherBook 2000, deepBook 3000 (1 / 2), otherBook 4000]
        (start (.plain 1 {}) () oneEntry)).map (finish (.plain 1 {})))
      ((feedEvery (.plain 1 {}) (some alwaysClose)
        [deepBook 1000 (49 / 100), otherBook 2000, deepBook 3000 (1 / 2), otherBook 4000]
        (start (.plain 1 {}) () oneEntry)).map (finish (.plain 1 {}))) :=
  fastPath_sameOutcome (some alwaysClose) () oneEntry (by decide)

end BacktestEngine

end Evosport.Backtest
