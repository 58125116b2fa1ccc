/-
No look-ahead.

Two runs whose snapshots, intents and settlements agree up to a time `t` are in the same
state after the last snapshot observed by `t`, whatever comes later.  The engine holds the
whole future in its state: the intents that are still to come, the schedule of settlements,
the winners of the markets.  Both lists are sorted by time, so the entries up to `t` come
first and are the same in both runs (`Lib.sortByKey_split`), and neither the sweep nor the
drain looks beyond the time of the snapshot; the winner of a market is shown only once it
has resolved (`marketState_resettled`).

What a strategy is shown is part of the state of a recording strategy, which answers as the
strategy it wraps (`recording_transparent`).
-/
import Evosport.Backtest.Coupling
import Evosport.Backtest.Oversell

namespace Evosport.Backtest

open Lib

/-- The market of a settlement has resolved by time `t`. -/
def TokenSettlement.resolvedBy (t : Time) (s : TokenSettlement) : Bool :=
  s.resolutionTime.elim false fun at_ => decide (at_ ≤ t)

/-- A strategy that records what it is shown: it answers as `s` does, and keeps the views and market
states of all calls of `should_exit` beside the state of `s`. -/
def Strategy.recording {σ : Type} (s : Strategy σ) :
    Strategy (σ × List (PosView × MarketState)) where
  shouldExit := s.shouldExit.map fun hook st view market =>
    let r := hook st.1 view market
    ((r.1, st.2 ++ [(view, market)]), r.2)
  onFill := s.onFill.map fun hook st o size price notional =>
    let r := hook st.1 o size price notional
    ((r.1, st.2), r.2)
  onPartialFill := s.onPartialFill.map fun hook st o size remaining price =>
    let r := hook st.1 o size remaining price
    ((r.1, st.2), r.2)
  onCancel := s.onCancel.map fun hook st o reason remaining =>
    let r := hook st.1 o reason remaining
    ((r.1, st.2), r.2)
  resolveExitPolicy := s.resolveExitPolicy.map fun hook st decision trigger =>
    let r := hook st.1 decision trigger
    ((r.1, st.2), r.2)

namespace BacktestEngine

variable {σ τ : Type} {cfg : BacktestConfig} {S : Dict TokenId TokenSettlement}
  {snap : BookSnapshot} {t : Time}

/-! ## What agrees up to a time -/

/-- Two settlement maps with the same markets resolved by time `t`. -/
def SettledAlike (t : Time) (A B : Dict TokenId TokenSettlement) : Prop :=
  A.entries.filter (fun s => s.2.resolvedBy t) = B.entries.filter fun s => s.2.resolvedBy t

lemma SettledAlike.symm {A B : Dict TokenId TokenSettlement} (h : SettledAlike t A B) :
    SettledAlike t B A := Eq.symm h

lemma SettledAlike.get? {A B : Dict TokenId TokenSettlement} (h : SettledAlike t A B)
    {token : TokenId} {s : TokenSettlement} (hget : A.get? token = some s)
    (hs : s.resolvedBy t = true) : B.get? token = some s := by
  have hmem : (token, s) ∈ A.entries.filter fun s => s.2.resolvedBy t :=
    List.mem_filter.2 ⟨Dict.mem_entries.2 hget, hs⟩
  rw [h] at hmem
  exact Dict.mem_entries.1 (List.mem_filter.1 hmem).1

/-- A position is shown the same market by both runs: the market resolved by now in both, or
in neither. -/
lemma marketState_resettled (h : SettledAlike t cfg.settlements S) (hnow : snap.observedAt ≤ t)
    (pos : Position) : marketState (cfg.resettled S) pos snap = marketState cfg pos snap := by
  set resolved : Option TokenSettlement → Bool := fun settlement =>
    (settlement.bind TokenSettlement.resolutionTime).elim false
      fun r => decide (r ≤ snap.observedAt) with hresolved
  have hby : ∀ {o : Option TokenSettlement}, resolved o = true →
      ∃ s, o = some s ∧ s.resolvedBy t = true := by
    intro o ho
    cases o with
    | none => cases ho
    | some s =>
      refine ⟨s, rfl, ?_⟩
      simp only [hresolved, Option.bind_some] at ho
      unfold TokenSettlement.resolvedBy
      cases hr : s.resolutionTime with
      | none =>
        rw [hr] at ho
        cases ho
      | some r =>
        rw [hr, Option.elim_some, decide_eq_true_eq] at ho
        simpa using ho.trans hnow
  have hsame : resolved (cfg.settlements.get? pos.tokenId) = true ∨
      resolved (S.get? pos.tokenId) = true →
      S.get? pos.tokenId = cfg.settlements.get? pos.tokenId := by
    rintro (hr | hr)
    · obtain ⟨s, hs, hst⟩ := hby hr
      rw [hs, h.get? hs hst]
    · obtain ⟨s, hs, hst⟩ := hby hr
      rw [hs, h.symm.get? hs hst]
  unfold marketState
  show ({ currentPrice := snap.mid.getD pos.entryPrice
          marketTradable := !resolved (S.get? pos.tokenId)
          isResolved := resolved (S.get? pos.tokenId)
          winningOutcome := if resolved (S.get? pos.tokenId) then
            (S.get? pos.tokenId).bind TokenSettlement.winningOutcome else none
          tokenId := pos.tokenId } : MarketState) =
    { currentPrice := snap.mid.getD pos.entryPrice
      marketTradable := !resolved (cfg.settlements.get? pos.tokenId)
      isResolved := resolved (cfg.settlements.get? pos.tokenId)
      winningOutcome := if resolved (cfg.settlements.get? pos.tokenId) then
        (cfg.settlements.get? pos.tokenId).bind TokenSettlement.winningOutcome else none
      tokenId := pos.tokenId }
  by_cases hr : resolved (cfg.settlements.get? pos.tokenId) = true ∨
      resolved (S.get? pos.tokenId) = true
  · rw [hsame hr]
  · obtain ⟨h₁, h₂⟩ := not_or.1 hr
    rw [Bool.not_eq_true] at h₁ h₂
    rw [h₁, h₂]
    rfl

/-- Two lists that agree on their entries up to time `t`, which come first. -/
def SharesPast {α : Type} (key : α → Time) (t : Time) (xs ys : List α) : Prop :=
  ∃ past later later', xs = past ++ later ∧ ys = past ++ later' ∧
    (∀ a ∈ past, key a ≤ t) ∧ (∀ a ∈ later, t < key a) ∧ ∀ a ∈ later', t < key a

/-- Sorted lists share their past when the unsorted ones do. -/
lemma sharesPast_sortByKey {α : Type} {key : α → Time} {xs ys : List α}
    (h : xs.filter (fun a => key a ≤ t) = ys.filter fun a => key a ≤ t) :
    SharesPast key t (sortByKey key xs) (sortByKey key ys) := by
  refine ⟨_, _, _, sortByKey_split t xs, by rw [h]; exact sortByKey_split t ys, ?_, ?_, ?_⟩
  all_goals
    intro a ha
    have hmem := (List.mem_filter.1 (mem_sortByKey.1 ha)).2
    simpa using hmem

/-- What is left of two such lists is alike as well. -/
lemma SharesPast.drop {α : Type} {key : α → Time} {xs ys : List α} (h : SharesPast key t xs ys)
    (n : ℕ) : SharesPast key t (xs.drop n) (ys.drop n) := by
  obtain ⟨past, later, later', rfl, rfl, hpast, hlater, hlater'⟩ := h
  refine ⟨past.drop n, later.drop (n - past.length), later'.drop (n - past.length),
    List.drop_append, List.drop_append, ?_, ?_, ?_⟩
  · exact fun a ha => hpast a (List.mem_of_mem_drop ha)
  · exact fun a ha => hlater a (List.mem_of_mem_drop ha)
  · exact fun a ha => hlater' a (List.mem_of_mem_drop ha)

/-- An entry of the schedule is due by `t` exactly when its market has resolved by `t`. -/
lemma filter_schedule (t : Time) (l : List (TokenId × TokenSettlement)) :
    (l.filterMap fun s => match s.2.resolutionTime, s.2.settlePrice with
      | some at_, some _ => some (at_, s.1)
      | _, _ => none).filter (fun a => a.1 ≤ t) =
    (l.filter fun s => s.2.resolvedBy t).filterMap fun s =>
      match s.2.resolutionTime, s.2.settlePrice with
      | some at_, some _ => some (at_, s.1)
      | _, _ => none := by
  induction l with
  | nil => rfl
  | cons s l ih =>
    cases hr : s.2.resolutionTime with
    | none =>
      have hby : s.2.resolvedBy t = false := by simp [TokenSettlement.resolvedBy, hr]
      rw [List.filterMap_cons_none (by rw [hr]), ih, List.filter_cons_of_neg (by simp [hby])]
    | some at_ =>
      have hby : s.2.resolvedBy t = decide (at_ ≤ t) := by simp [TokenSettlement.resolvedBy, hr]
      cases hp : s.2.settlePrice with
      | none =>
        rw [List.filterMap_cons_none (by rw [hr, hp]), ih]
        by_cases hle : at_ ≤ t
        · rw [List.filter_cons_of_pos (by simpa [hby] using hle),
            List.filterMap_cons_none (by rw [hr, hp])]
        · rw [List.filter_cons_of_neg (by simpa [hby] using hle)]
      | some price =>
        rw [List.filterMap_cons_some (by rw [hr, hp])]
        by_cases hle : at_ ≤ t
        · rw [List.filter_cons_of_pos (by simpa using hle), ih,
            List.filter_cons_of_pos (by simpa [hby] using hle),
            List.filterMap_cons_some (by rw [hr, hp])]
        · rw [List.filter_cons_of_neg (by simpa using hle), ih,
            List.filter_cons_of_neg (by simpa [hby] using hle)]

/-- The schedules of two settlement maps share their past. -/
lemma sharesPast_schedule (h : SettledAlike t cfg.settlements S) :
    SharesPast Prod.fst t (resolutionScheduleOf cfg) (resolutionScheduleOf (cfg.resettled S)) := by
  refine sharesPast_sortByKey ?_
  exact (filter_schedule t cfg.settlements.entries).trans
    ((congrArg _ h).trans (filter_schedule t S.entries).symm)

/-- An entry of the schedule that is due by `t` comes from a market resolved by `t`, so the
other map settles its token alike. -/
lemma settled_of_mem_schedule (h : SettledAlike t cfg.settlements S) {entry : Time × TokenId}
    (hentry : entry ∈ resolutionScheduleOf cfg) (hdue : entry.1 ≤ t) :
    S.get? entry.2 = cfg.settlements.get? entry.2 := by
  obtain ⟨⟨token, s⟩, hs, hsome⟩ := List.mem_filterMap.1 (mem_sortByKey.1 hentry)
  obtain ⟨at_, hat⟩ : ∃ at_, s.resolutionTime = some at_ := by
    cases hr : s.resolutionTime with
    | none =>
      simp only [hr] at hsome
      cases hsome
    | some at_ => exact ⟨at_, rfl⟩
  cases hp : s.settlePrice with
  | none =>
    simp only [hat, hp] at hsome
    cases hsome
  | some price =>
    simp only [hat, hp, Option.some.injEq] at hsome
    subst hsome
    have hby : s.resolvedBy t = true := by simpa [TokenSettlement.resolvedBy, hat] using hdue
    have hget := Dict.mem_entries.1 hs
    exact (h.get? hget hby).trans hget.symm

/-! ## Two runs with the same past -/

/-- The coupling of two runs with the same past: all that moves is equal, and the inputs that
are still to come are those of each run. -/
def samePast (P Q : List TradeIntent) (A B : List (Time × TokenId)) : Coupling σ σ where
  portfolio := Eq
  matching := Eq
  strategy := Eq
  pending := fun xs ys => xs = P ∧ ys = Q
  schedule := fun xs ys => xs = A ∧ ys = B

lemma samePast_lawful (P Q : List TradeIntent) (A B : List (Time × TokenId))
    (cfg : BacktestConfig) (snap : BookSnapshot) :
    (samePast P Q A B : Coupling σ σ).Lawful cfg snap where
  positions h := by rw [h]
  cash h := by rw [h]
  config h := by rw [h]
  applyFill h f slug := by rw [h]; rfl
  closePositionAt h key price at_ b := by rw [h]; rfl
  mark h token price at_ := by rw [h]; rfl
  orders h := by rw [h]
  active h := by rw [h]
  submit h o ho := by rw [h]; exact Agree.refl (fun _ => rfl) _
  advance h := by rw [h]; exact Agree.refl (fun _ => ⟨rfl, rfl⟩) _

/-- Two engines in the same state, but for the intents and the schedule that are still to
come. -/
def SameSoFar (e f : BacktestEngine σ) : Prop :=
  f = { e with pendingIntents := f.pendingIntents, resolutionSchedule := f.resolutionSchedule }

variable {P Q : List TradeIntent} {A B : List (Time × TokenId)}

lemma Coupled.sameSoFar {e f : BacktestEngine σ} (h : Coupled (samePast P Q A B) e f) :
    SameSoFar e f := by
  obtain ⟨hp, hm, hs, -, -, hb, hc, hd, hn, hr, hk, hmid, ho⟩ := h
  cases e
  cases f
  cases hp
  cases hm
  cases hs
  cases hb
  cases hc
  cases hd
  cases hn
  cases hr
  cases hk
  cases hmid
  cases ho
  rfl

/-- The sweeps of two runs with the same past redeem the same positions. -/
lemma settleDue_samePast {e f : BacktestEngine σ} (hnow : snap.observedAt ≤ t)
    (hsettled : SettledAlike t cfg.settlements S)
    (h : Coupled (samePast P Q (resolutionScheduleOf cfg) (resolutionScheduleOf (cfg.resettled S)))
      e f) :
    Coupled (samePast P Q (resolutionScheduleOf cfg) (resolutionScheduleOf (cfg.resettled S)))
      (settleDue cfg snap.observedAt e) (settleDue (cfg.resettled S) snap.observedAt f) := by
  obtain ⟨hA, hB⟩ := h.schedule
  obtain ⟨past, later, later', hpast, hpast', hle, hlater, hlater'⟩ :=
    (sharesPast_schedule hsettled).drop e.resolutionPtr
  have hswept : ∀ entry ∈ past, entry.1 ≤ snap.observedAt →
      S.get? entry.2 = cfg.settlements.get? entry.2 := by
    intro entry hentry hdue
    have hmem : entry ∈ (resolutionScheduleOf cfg).drop e.resolutionPtr := by
      rw [hpast]
      exact List.mem_append_left later hentry
    exact settled_of_mem_schedule hsettled (List.mem_of_mem_drop hmem) (hdue.trans hnow)
  unfold settleDue
  rw [h.resolutionPtr, hA, hB, hpast, hpast',
    settleLoop_append fun entry hentry => hnow.trans_lt (hlater entry hentry),
    settleLoop_append fun entry hentry => hnow.trans_lt (hlater' entry hentry)]
  exact settleLoop_coupled (samePast_lawful _ _ _ _ cfg snap) snap.observedAt hswept h

/-- The intents that two runs with the same past drain are the same. -/
lemma drainAlike_samePast {e f : BacktestEngine σ} (hnow : snap.observedAt ≤ t)
    (hshare : SharesPast TradeIntent.emittedAt t P Q) (h : Coupled (samePast P Q A B) e f) :
    DrainAlike snap.observedAt e f := by
  obtain ⟨hP, hQ⟩ := h.pending
  obtain ⟨past, later, later', hpast, hpast', -, hlater, hlater'⟩ := hshare.drop e.intentsDrained
  refine ⟨past, later, later', by rw [hP, hpast], by rw [hQ, h.intentsDrained, hpast'], ?_, ?_⟩
  · exact fun i hi => hnow.trans_lt (hlater i hi)
  · exact fun i hi => hnow.trans_lt (hlater' i hi)

/-- The snapshots of a stream that are observed by time `t`, in a stream in the order of
time. -/
def upTo (t : Time) (snapshots : List BookSnapshot) : List BookSnapshot :=
  snapshots.takeWhile fun snap => snap.observedAt ≤ t

/-- The stream is in the order of time, as `iter_snapshots` returns it. -/
def ChronologicalStream (snapshots : List BookSnapshot) : Prop :=
  snapshots.Pairwise fun a b => a.observedAt ≤ b.observedAt

instance (snapshots : List BookSnapshot) : Decidable (ChronologicalStream snapshots) :=
  inferInstanceAs (Decidable (List.Pairwise _ snapshots))

lemma upTo_eq_filter {snapshots : List BookSnapshot} (h : ChronologicalStream snapshots) :
    upTo t snapshots = snapshots.filter fun snap => snap.observedAt ≤ t := by
  unfold upTo
  induction snapshots with
  | nil => rfl
  | cons snap rest ih =>
    obtain ⟨hle, hrest⟩ := List.pairwise_cons.1 h
    by_cases hnow : snap.observedAt ≤ t
    · rw [List.takeWhile_cons_of_pos (by simpa using hnow),
        List.filter_cons_of_pos (by simpa using hnow), ih hrest]
    · -- the rest of the stream is later still
      have hnone : rest.filter (fun snap => snap.observedAt ≤ t) = [] := by
        refine List.filter_eq_nil_iff.2 fun a ha => ?_
        have hlater := (not_le.1 hnow).trans_le (hle a ha)
        simpa using hlater
      rw [List.takeWhile_cons_of_neg (by simpa using hnow),
        List.filter_cons_of_neg (by simpa using hnow), hnone]

variable {intents intents' : List TradeIntent} {snapshots snapshots' : List BookSnapshot}

/-- Two runs with the same past, fed with the same snapshots up to `t`, agree. -/
lemma feed_samePast (strat : Option (Strategy σ)) (st : σ)
    (hnow : ∀ snap ∈ snapshots, snap.observedAt ≤ t)
    (hintents : intents.filter (fun i => i.emittedAt ≤ t) =
      intents'.filter fun i => i.emittedAt ≤ t)
    (hsettled : SettledAlike t cfg.settlements S) :
    Agree SameSoFar (feed cfg strat snapshots (start cfg st intents))
      (feed (cfg.resettled S) strat snapshots (start (cfg.resettled S) st intents')) := by
  set R : Coupling σ σ := samePast (sortByKey TradeIntent.emittedAt intents)
    (sortByKey TradeIntent.emittedAt intents') (resolutionScheduleOf cfg)
    (resolutionScheduleOf (cfg.resettled S)) with hR
  have hstart : Coupled R (start cfg st intents) (start (cfg.resettled S) st intents') :=
    ⟨rfl, rfl, rfl, ⟨rfl, rfl⟩, ⟨rfl, rfl⟩, rfl, rfl, rfl, rfl, rfl, rfl, rfl, rfl⟩
  have hstrat : StrategiesAgree R.strategy strat strat := by
    cases strat with
    | none => exact .none
    | some s => exact .some (HooksAgree.refl s)
  have hshare := sharesPast_sortByKey hintents
  have hrun : Agree (Coupled R) (feed cfg strat snapshots (start cfg st intents))
      (feed (cfg.resettled S) strat snapshots (start (cfg.resettled S) st intents')) := by
    refine Agree.foldlM (fun e f snap hsnap h => ?_) hstart
    have hle := hnow snap hsnap
    have hswept := settleDue_samePast hle hsettled h
    exact feedOne_coupled (onSnapshot_coupled (samePast_lawful _ _ _ _ cfg snap) hstrat hswept
      (drainAlike_samePast hle hshare hswept) (marketState_resettled hsettled hle))
  exact hrun.mono fun _ _ h => h.sameSoFar

/-- **No look-ahead.**  Two runs with the same snapshots, intents and settlements up to time
`t` are in the same state after the snapshots up to `t`, or have raised the same error, and
the strategy has been shown the same positions and markets. -/
theorem noLookahead (strat : Option (Strategy σ)) (st : σ)
    (hchron : ChronologicalStream snapshots) (hchron' : ChronologicalStream snapshots')
    (hsnapshots : snapshots.filter (fun snap => snap.observedAt ≤ t) =
      snapshots'.filter fun snap => snap.observedAt ≤ t)
    (hintents : intents.filter (fun i => i.emittedAt ≤ t) =
      intents'.filter fun i => i.emittedAt ≤ t)
    (hsettled : SettledAlike t cfg.settlements S) :
    Agree SameSoFar (feed cfg strat (upTo t snapshots) (start cfg st intents))
        (feed (cfg.resettled S) strat (upTo t snapshots')
          (start (cfg.resettled S) st intents')) ∧
      Agree SameSoFar
        (feed cfg (strat.map Strategy.recording) (upTo t snapshots) (start cfg (st, []) intents))
        (feed (cfg.resettled S) (strat.map Strategy.recording) (upTo t snapshots')
          (start (cfg.resettled S) (st, []) intents')) := by
  have hsame : upTo t snapshots' = upTo t snapshots := by
    rw [upTo_eq_filter hchron, upTo_eq_filter hchron', hsnapshots]
  have hnow : ∀ snap ∈ upTo t snapshots, snap.observedAt ≤ t := by
    intro snap hsnap
    rw [upTo_eq_filter hchron] at hsnap
    simpa using (List.mem_filter.1 hsnap).2
  rw [hsame]
  exact ⟨feed_samePast strat st hnow hintents hsettled,
    feed_samePast (strat.map Strategy.recording) (st, []) hnow hintents hsettled⟩

/-- A book of token `t` a minute later, and one that nobody could have foreseen. -/
def crash : List BookSnapshot := [deepBook 1000 (49 / 100), deepBook 3000 (1 / 100)]

/-- The same first book, after which the price rises. -/
def rally : List BookSnapshot := [deepBook 1000 (49 / 100), deepBook 4000 (9 / 10)]

/-- Token `t` wins at time 5000. -/
def winsLater : Dict TokenId TokenSettlement :=
  Dict.empty.set "t" { tokenId := "t", settlePrice := some 1, resolutionTime := some 5000
                       winningOutcome := some "YES" }

/-- A crash without a settlement and a rally to a win are the same run up to time 2000. -/
theorem crash_rally_noLookahead :
    Agree SameSoFar
        (feed (.plain 1 {}) (some alwaysClose) (upTo 2000 crash) (start (.plain 1 {}) () oneEntry))
        (feed ((BacktestConfig.plain 1 {}).resettled winsLater) (some alwaysClose)
          (upTo 2000 rally)
          (start ((BacktestConfig.plain 1 {}).resettled winsLater) () oneEntry)) ∧
      Agree SameSoFar
        (feed (.plain 1 {}) ((some alwaysClose).map Strategy.recording) (upTo 2000 crash)
          (start (.plain 1 {}) ((), []) oneEntry))
        (feed ((BacktestConfig.plain 1 {}).resettled winsLater)
          ((some alwaysClose).map Strategy.recording) (upTo 2000 rally)
          (start ((BacktestConfig.plain 1 {}).resettled winsLater) ((), []) oneEntry)) :=
  noLookahead (some alwaysClose) () (by decide) (by decide) rfl rfl rfl

/-! ## The recording strategy -/

/-- The engine without the record of its strategy. -/
def unrecorded {α : Type} (e : BacktestEngine (σ × α)) : BacktestEngine σ :=
  { e with strategy := e.strategy.1 }

/-- The coupling of a run with the run of the recording strategy. -/
def recorded : Coupling σ (σ × List (PosView × MarketState)) where
  portfolio := Eq
  matching := Eq
  strategy := fun s r => r.1 = s
  pending := Eq
  schedule := Eq

lemma recorded_lawful (cfg : BacktestConfig) (snap : BookSnapshot) :
    (recorded : Coupling σ _).Lawful cfg snap where
  positions h := by rw [h]
  cash h := by rw [h]
  config h := by rw [h]
  applyFill h f slug := by rw [h]; rfl
  closePositionAt h key price at_ b := by rw [h]; rfl
  mark h token price at_ := by rw [h]; rfl
  orders h := by rw [h]
  active h := by rw [h]
  submit h o ho := by rw [h]; exact Agree.refl (fun _ => rfl) _
  advance h := by rw [h]; exact Agree.refl (fun _ => ⟨rfl, rfl⟩) _

lemma Coupled.unrecorded {e : BacktestEngine σ}
    {f : BacktestEngine (σ × List (PosView × MarketState))} (h : Coupled recorded e f) :
    f.unrecorded = e := by
  obtain ⟨hp, hm, hs, hi, hA, hb, hc, hd, hn, hr, hk, hmid, ho⟩ := h
  cases e
  cases f
  cases hp
  cases hm
  cases hs
  cases hi
  cases hA
  cases hb
  cases hc
  cases hd
  cases hn
  cases hr
  cases hk
  cases hmid
  cases ho
  rfl

/-- The recording strategy answers as the strategy it wraps. -/
lemma hooksAgree_recording (s : Strategy σ) :
    HooksAgree (recorded : Coupling σ _).strategy s s.recording := by
  have hmap : ∀ {α β : Type} {R : α → β → Prop} (f : α → β) (h : Option α),
      (∀ a, R a (f a)) → Option.Rel R h (h.map f) := by
    intro α β R f h hR
    cases h with
    | none => exact .none
    | some a => exact .some (hR a)
  constructor <;> refine hmap _ _ fun hook a r hr => ?_ <;> cases hr <;> intros <;> exact ⟨rfl, rfl⟩

/-- A run of the recording strategy is the run of the strategy it wraps, with the record
beside it. -/
lemma recording_transparent (strat : Option (Strategy σ)) (st : σ)
    (snapshots : List BookSnapshot) (intents : List TradeIntent) :
    Agree (fun e f => f.unrecorded = e) (feed cfg strat snapshots (start cfg st intents))
      (feed cfg (strat.map Strategy.recording) snapshots (start cfg (st, []) intents)) := by
  have hstart : Coupled recorded (start cfg st intents) (start cfg (st, []) intents) :=
    ⟨rfl, rfl, rfl, rfl, rfl, rfl, rfl, rfl, rfl, rfl, rfl, rfl, rfl⟩
  have hstrat : StrategiesAgree (recorded : Coupling σ _).strategy strat
      (strat.map Strategy.recording) := by
    cases strat with
    | none => exact .none
    | some s => exact .some (hooksAgree_recording s)
  have hrun : Agree (Coupled recorded) (feed cfg strat snapshots (start cfg st intents))
      (feed cfg (strat.map Strategy.recording) snapshots (start cfg (st, []) intents)) := by
    refine Agree.foldlM (fun e f snap _ h => ?_) hstart
    have hR : (recorded : Coupling σ _).Lawful cfg snap := recorded_lawful cfg snap
    have hswept : Coupled recorded (settleDue cfg snap.observedAt e)
        (settleDue cfg snap.observedAt f) := by
      unfold settleDue
      rw [h.resolutionPtr, ← (h.schedule : e.resolutionSchedule = f.resolutionSchedule)]
      exact settleLoop_coupled (S := cfg.settlements) hR snap.observedAt (fun _ _ _ => rfl) h
    exact feedOne_coupled (onSnapshot_coupled (S := cfg.settlements) hR hstrat hswept
      (.of_eq hswept.pending hswept.intentsDrained) fun _ => rfl)
  exact hrun.mono fun _ _ h => h.unrecorded

end BacktestEngine

end Evosport.Backtest
