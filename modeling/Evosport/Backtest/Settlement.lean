/-
Settlement is exact and happens once.

The synthetic closes of a run are its close events.  Each finds the position that it closes, and its
price is the price at which the market has settled by the last snapshot, or the last mark where it
has not (`ClosesAt`).  The sweep closes at the settlement because what it redeems was due, the final
close because its clock has seen every settlement whose token is still held
(`Swept.resolvedInWindow`).  A mark is a mid of displayed prices, which the loader of the
snapshots keeps above zero (`Priced`), so that the code never takes one for missing.
-/
import Evosport.Backtest.FastPath

namespace Evosport.Backtest

open Lib

/-- Every displayed price is positive; the loader of the snapshots drops all others. -/
def BookSnapshot.Priced (snap : BookSnapshot) : Prop := ∀ l ∈ snap.bids ++ snap.asks, 0 < l.price

instance (snap : BookSnapshot) : Decidable snap.Priced :=
  inferInstanceAs (Decidable (∀ l ∈ snap.bids ++ snap.asks, 0 < l.price))

lemma BookSnapshot.Priced.mid_pos {snap : BookSnapshot} (h : snap.Priced) {mid : ℚ}
    (hmid : snap.mid = some mid) : 0 < mid := by
  unfold BookSnapshot.mid bestBid bestAsk at hmid
  cases hb : snap.bids with
  | nil => simp [hb] at hmid
  | cons bid bids =>
    cases ha : snap.asks with
    | nil => simp [ha] at hmid
    | cons ask asks =>
      simp only [hb, ha, List.head?_cons, Option.map_some, Option.some.injEq] at hmid
      have hbid := h bid (by simp [hb])
      have hask := h ask (by simp [ha])
      linarith

/-- A synthetic close. -/
def PortfolioEvent.isClose : PortfolioEvent → Bool
  | .close .. => true
  | _ => false

/-- A mark at zero. -/
def PortfolioEvent.IsZeroMark : PortfolioEvent → Prop
  | .mark _ price _ => price = 0
  | _ => False

namespace Portfolio

variable {p : Portfolio}

/-! ## The life of a position -/

/-- The position under `key` ends once: some event finds it, is a fill or a synthetic close of it,
and leaves nothing under `key`. -/
def EndsOnce (p : Portfolio) (key : PositionKey) (evs : List PortfolioEvent) : Prop :=
  ∃ before ev after, evs = before ++ ev :: after ∧
    (∀ pre, pre <+: before → (p.replay pre).positions.get? key ≠ none) ∧
    ((p.replay before).step ev).positions.get? key = none ∧
    ((∃ fill slug, ev = .fill fill slug) ∨ ∃ price at_ b, ev = .close key price at_ b)

/-- What can end a position. -/
lemma step_ends {ev : PortfolioEvent} {key : PositionKey} (hheld : p.positions.get? key ≠ none)
    (hnone : (p.step ev).positions.get? key = none) :
    (∃ fill slug, ev = .fill fill slug) ∨ ∃ price at_ b, ev = .close key price at_ b := by
  cases ev with
  | fill f slug => exact .inl ⟨f, slug, rfl⟩
  | close k price at_ b =>
    have hget := p.get?_closePositionAt k price at_ b key
    by_cases hk : k = key
    · exact .inr ⟨price, at_, b, by rw [hk]⟩
    · rw [if_neg hk] at hget
      exact absurd (hget.symm.trans hnone) hheld
  | mark token price at_ =>
    have hget : (p.mark token price at_).positions.get? key = none := hnone
    simp only [mark, Dict.get?_mapVal, Option.map_eq_none_iff] at hget
    exact absurd hget hheld

/-- A position is there to the end of the run, or it ends once. -/
lemma stays_or_endsOnce {key : PositionKey} (hheld : p.positions.get? key ≠ none)
    (evs : List PortfolioEvent) :
    (p.replay evs).positions.get? key ≠ none ∨ p.EndsOnce key evs := by
  induction evs generalizing p with
  | nil => exact .inl hheld
  | cons ev evs ih =>
    by_cases hnone : (p.step ev).positions.get? key = none
    · refine .inr ⟨[], ev, evs, rfl, fun pre hpre => ?_, hnone, step_ends hheld hnone⟩
      rw [List.prefix_nil.1 hpre]
      exact hheld
    · rcases ih hnone with hstays | ⟨before, ev', after, rfl, hpre, hend, hev⟩
      · exact .inl hstays
      · refine .inr ⟨ev :: before, ev', after, rfl, fun pre hprefix => ?_, hend, hev⟩
        rcases List.prefix_cons_iff.1 hprefix with rfl | ⟨rest, rfl, hrest⟩
        · exact hheld
        · exact hpre rest hrest

/-! ## Marks -/

/-- No position is marked at zero. -/
def Marked (p : Portfolio) : Prop :=
  ∀ key pos, p.positions.get? key = some pos → pos.lastMarkPrice ≠ some 0

lemma lastMarkPrice_applyCloseFill (pos : Position) (f : Fill) :
    (pos.applyCloseFill f).lastMarkPrice = pos.lastMarkPrice := by
  unfold Position.applyCloseFill
  split <;> rfl

lemma Marked.step (h : p.Marked) {ev : PortfolioEvent} (hev : ¬ ev.IsZeroMark) :
    (p.step ev).Marked := by
  intro key pos hget
  cases ev with
  | fill f slug =>
    have hget' : (p.applyFill f slug).positions.get? key = some pos := hget
    cases hopp : p.positions.get? (f.tokenId, f.side.opposite, slug) with
    | some old =>
      rw [positions_applyFill_of_some hopp] at hget'
      split at hget'
      · rw [Dict.get?_erase] at hget'
        split at hget'
        · cases hget'
        · exact h key pos hget'
      · rw [Dict.get?_set] at hget'
        split at hget'
        · cases hget'
          exact (lastMarkPrice_applyCloseFill old f).trans_ne (h _ old hopp)
        · exact h key pos hget'
    | none =>
      rw [positions_applyFill_of_none hopp, Dict.get?_set] at hget'
      split at hget'
      · cases hget'
        cases hown : p.positions.get? (f.tokenId, f.side, slug) with
        | none => simp [Position.applyOpenFill]
        | some old => exact h _ old hown
      · exact h key pos hget'
  | close k price at_ b =>
    have hget' : (p.closePositionAt k price at_ b).positions.get? key = some pos := hget
    rw [get?_closePositionAt] at hget'
    split at hget'
    · cases hget'
    · exact h key pos hget'
  | mark token price at_ =>
    have hget' : (p.mark token price at_).positions.get? key = some pos := hget
    simp only [mark, Dict.get?_mapVal, Option.map_eq_some_iff] at hget'
    obtain ⟨old, hold, rfl⟩ := hget'
    split
    · exact fun hzero => hev (Option.some.inj hzero)
    · exact h key old hold

lemma Marked.replay (h : p.Marked) {evs : List PortfolioEvent}
    (hevs : ∀ ev ∈ evs, ¬ ev.IsZeroMark) : (p.replay evs).Marked := by
  induction evs generalizing p with
  | nil => exact h
  | cons ev evs ih =>
    obtain ⟨hev, hevs⟩ := List.forall_mem_cons.1 hevs
    exact ih (h.step hev) hevs

end Portfolio

namespace BacktestEngine

variable {σ : Type} {cfg : BacktestConfig} {strat : Option (Strategy σ)} {snap : BookSnapshot}
  {e e' : BacktestEngine σ} {t : Time} {c : Option Time}

/-! ## The price of a close -/

/-- A synthetic close finds a position that is more than dust, and closes it at the price at which
its market has settled by `c`, or at its last mark, or unmarked at its entry price. -/
def ClosesAt (cfg : BacktestConfig) (c : Option Time) (p : Portfolio) : PortfolioEvent → Prop
  | .close key price _ isSettlement => ∃ pos, p.positions.get? key = some pos ∧ e12 < pos.size ∧
    match resolvedInWindow cfg c pos with
    | some settled => price = settled.1 ∧ isSettlement = true
    | none => price = pos.lastMarkPrice.getD pos.entryPrice ∧ isSettlement = false
  | _ => True

/-- A close looks at its own position only. -/
lemma ClosesAt.congr {p q : Portfolio} {key : PositionKey} {price : ℚ} {at_ : Time} {b : Bool}
    (h : ClosesAt cfg c p (.close key price at_ b))
    (hget : q.positions.get? key = p.positions.get? key) :
    ClosesAt cfg c q (.close key price at_ b) := by
  obtain ⟨pos, hpos, hclose⟩ := h
  exact ⟨pos, hget.trans hpos, hclose⟩

/-- Closing several positions one after the other. -/
lemma everyStep_closes {p : Portfolio} {keys : List PositionKey} (hnodup : keys.Nodup) {price : ℚ}
    {at_ : Time} {b : Bool} (h : ∀ key ∈ keys, ClosesAt cfg c p (.close key price at_ b)) :
    EveryStep Portfolio.step (ClosesAt cfg c) p (keys.map fun key => .close key price at_ b) := by
  induction keys generalizing p with
  | nil => trivial
  | cons key keys ih =>
    obtain ⟨hnotMem, hnodup⟩ := List.nodup_cons.1 hnodup
    obtain ⟨hkey, hkeys⟩ := List.forall_mem_cons.1 h
    refine ⟨hkey, ih hnodup fun k hk => (hkeys k hk).congr ?_⟩
    have hne : key ≠ k := by
      rintro rfl
      exact hnotMem hk
    exact (p.get?_closePositionAt key price at_ b k).trans (if_neg hne)

lemma nodup_heldKeys (p : Portfolio) (onToken : TokenId → Bool) : (heldKeys p onToken).Nodup :=
  p.positions.nodup.sublist (List.filter_sublist.map Prod.fst)

/-- The closes of the sweep over one token. -/
private lemma everyStep_settleToken {now : Time} {token : TokenId}
    (hdue : (∃ at_, (at_, token) ∈ resolutionScheduleOf cfg ∧ at_ ≤ now) ∧ ∃ b ∈ c, now ≤ b)
    (hkeyed : e.portfolio.WellKeyed) :
    EveryStep Portfolio.step (ClosesAt cfg c) e.portfolio (settleTokenEvents cfg now token e) := by
  obtain ⟨⟨at_, hentry, hle⟩, b, hb, hnow⟩ := hdue
  obtain ⟨s, price, hs, hprice, hat⟩ := mem_resolutionScheduleOf.1 hentry
  unfold settleTokenEvents
  simp only [hs, hprice]
  refine everyStep_closes (nodup_heldKeys _ _) fun key hkey => ?_
  obtain ⟨pos, hget, htoken, hsize⟩ := mem_heldKeys.1 hkey
  refine ⟨pos, hget, hsize, ?_⟩
  have htokenId : pos.tokenId = token := by
    have hkey' := hkeyed key pos hget
    rw [hkey'] at htoken
    simpa using htoken
  have hresolved : resolvedInWindow cfg c pos = some (price, at_) := by
    unfold resolvedInWindow
    rw [htokenId, hs, Option.mem_def.1 hb]
    simp only [Option.bind_some, hprice, hat]
    exact if_pos (hle.trans hnow)
  rw [hresolved]
  exact ⟨rfl, rfl⟩

private lemma everyStep_settleLoop {now : Time} (hnow : ∃ b ∈ c, now ≤ b)
    {schedule : List (Time × TokenId)} (hknown : ∀ entry ∈ schedule, entry ∈ resolutionScheduleOf cfg)
    (hkeyed : e.portfolio.WellKeyed) :
    EveryStep Portfolio.step (ClosesAt cfg c) e.portfolio
      (settleLoopEvents cfg now schedule e) := by
  induction schedule generalizing e with
  | nil => trivial
  | cons entry rest ih =>
    obtain ⟨at_, token⟩ := entry
    obtain ⟨hentry, hrest⟩ := List.forall_mem_cons.1 hknown
    unfold settleLoopEvents
    split
    · next hle =>
      set e₁ : BacktestEngine σ := { e with resolutionPtr := e.resolutionPtr + 1 } with he₁
      rw [EveryStep.append]
      refine ⟨everyStep_settleToken (e := e₁) ⟨⟨at_, hentry, hle⟩, hnow⟩ hkeyed, ?_⟩
      have hportfolio := (settleToken_settled cfg now token e₁).portfolio
      have hafter : (settleToken cfg now token e₁).portfolio.WellKeyed := by
        rw [hportfolio]
        exact Portfolio.wellKeyed_replay hkeyed _
      have hih := ih hrest hafter
      rw [hportfolio] at hih
      exact hih
    · trivial

/-! ## One snapshot -/

variable (cfg) in
/-- What a snapshot does to the portfolio after the sweep. -/
def processEvents (settled : BacktestEngine σ) (snap : BookSnapshot) : List PortfolioEvent :=
  if settled.involved snap then
    match drainIntents cfg snap.observedAt settled with
    | .error _ => []
    | .ok drained =>
      match drained.matching.advanceTo cfg.matching snap with
      | .error _ => []
      | .ok advanced => fillEvents advanced.1 advanced.2 ++ markEvents snap
  else []

lemma snapshotEvents_eq (e : BacktestEngine σ) (snap : BookSnapshot) :
    snapshotEvents cfg e snap = settleEvents cfg snap.observedAt e ++
      processEvents cfg (settleDue cfg snap.observedAt e) snap := rfl

/-- After the sweep there are fills and a mark. -/
private lemma mem_processEvents {ev : PortfolioEvent} (h : ev ∈ processEvents cfg e snap) :
    (∃ fill slug, ev = .fill fill slug) ∨
      ∃ mid, snap.mid = some mid ∧ ev = .mark snap.tokenId mid snap.observedAt := by
  unfold processEvents at h
  split at h
  · split at h
    · cases h
    · split at h
      · cases h
      · rcases List.mem_append.1 h with h | h
        · obtain ⟨f, -, hf⟩ := List.mem_filterMap.1 h
          obtain ⟨o, -, rfl⟩ := Option.map_eq_some_iff.1 hf
          exact .inl ⟨f, o.strategySlug, rfl⟩
        · unfold markEvents at h
          split at h
          · next mid hmid => exact .inr ⟨mid, hmid, List.mem_singleton.1 h⟩
          · cases h
  · cases h

lemma everyStep_snapshot (hswept : Swept cfg t e) (hkeyed : e.portfolio.WellKeyed)
    (hnow : ∃ b ∈ c, snap.observedAt ≤ b) :
    EveryStep Portfolio.step (ClosesAt cfg c) e.portfolio (snapshotEvents cfg e snap) := by
  rw [snapshotEvents_eq, EveryStep.append]
  constructor
  · refine everyStep_settleLoop hnow (fun entry hentry => ?_) hkeyed
    exact hswept.schedule ▸ List.mem_of_mem_drop hentry
  · refine EveryStep.of_forall_mem fun ev hev p => ?_
    rcases mem_processEvents hev with ⟨f, slug, rfl⟩ | ⟨mid, -, rfl⟩ <;> trivial

lemma marked_onSnapshot (hpriced : snap.Priced) (hmarked : e.portfolio.Marked)
    (h : onSnapshot cfg strat e snap = .ok e') : e'.portfolio.Marked := by
  rw [portfolio_onSnapshot h, snapshotEvents_eq]
  refine hmarked.replay fun ev hev => ?_
  rcases List.mem_append.1 hev with hsettle | hprocess
  · obtain ⟨key, price, at_, rfl⟩ := mem_settleEvents cfg hsettle
    exact id
  · rcases mem_processEvents hprocess with ⟨f, slug, rfl⟩ | ⟨mid, hmid, rfl⟩
    · exact id
    · exact (hpriced.mid_pos hmid).ne'

/-- The matching engine's clock is that of the snapshot, or has not moved. -/
lemma now_onSnapshot (hwf : MatchingEngine.WellFormed e.matching)
    (h : onSnapshot cfg strat e snap = .ok e') :
    e'.matching.now = e.matching.now ∨ e'.matching.now = some snap.observedAt := by
  have hmatching := matching_settleDue cfg snap.observedAt e
  rcases onSnapshot_cases h with ⟨-, rfl⟩ | ⟨-, ⟨hp⟩⟩
  · exact .inl (congrArg MatchingEngine.now hmatching)
  · exact .inr (now_processed (hmatching ▸ hwf) hp)

/-! ## Counting the closes -/

/-- The synthetic closes that the engine has counted. -/
def syntheticCount (e : BacktestEngine σ) : ℕ := e.settledPositionCount + e.markedToMidCount

private lemma countP_closes (keys : List PositionKey) (price : ℚ) (at_ : Time) (b : Bool) :
    (keys.map fun key => PortfolioEvent.close key price at_ b).countP PortfolioEvent.isClose =
      keys.length := by
  rw [List.countP_map, List.countP_eq_length]
  exact fun _ _ => rfl

private lemma syntheticCount_settleToken (now : Time) (token : TokenId) (e : BacktestEngine σ) :
    (settleToken cfg now token e).syntheticCount =
      e.syntheticCount + (settleTokenEvents cfg now token e).countP PortfolioEvent.isClose := by
  unfold settleToken settleTokenEvents
  cases cfg.settlements.get? token with
  | none => rfl
  | some s =>
    dsimp only
    cases s.settlePrice with
    | none => rfl
    | some price =>
      dsimp only
      rw [countP_closes]
      simp only [syntheticCount]
      omega

private lemma syntheticCount_settleLoop (now : Time) (schedule : List (Time × TokenId))
    (e : BacktestEngine σ) :
    (settleLoop cfg now schedule e).syntheticCount =
      e.syntheticCount + (settleLoopEvents cfg now schedule e).countP PortfolioEvent.isClose := by
  induction schedule generalizing e with
  | nil => rfl
  | cons entry rest ih =>
    obtain ⟨at_, token⟩ := entry
    unfold settleLoop settleLoopEvents
    split
    · rw [ih, syntheticCount_settleToken, List.countP_append]
      simp only [syntheticCount]
      omega
    · rfl

/-- Processing a snapshot counts nothing. -/
private lemma syntheticCount_processed (h : Processed cfg strat snap e e') :
    e'.syntheticCount = e.syntheticCount := by
  obtain ⟨m₀, n, k₀, hdrained, -⟩ :=
    drainLoop_ok cfg snap.observedAt (P := fun _ => True) (fun _ _ _ _ => trivial) h.drain
  obtain ⟨st₀, hfilled⟩ := applyFills_ok cfg h.fill
  obtain ⟨m, st, k, hexited, -⟩ := evaluateExits_ok cfg h.exit
  obtain ⟨st', ids, he'⟩ := notifyCancels_ok cfg h.notify
  calc e'.syntheticCount = h.exited.syntheticCount := (congrArg syntheticCount he' :)
    _ = (markBook snap h.filled).syntheticCount := (congrArg syntheticCount hexited :)
    _ = h.filled.syntheticCount := rfl
    _ = h.drained.syntheticCount := (congrArg syntheticCount hfilled :)
    _ = e.syntheticCount := (congrArg syntheticCount hdrained :)

lemma syntheticCount_onSnapshot (h : onSnapshot cfg strat e snap = .ok e') :
    e'.syntheticCount =
      e.syntheticCount + (snapshotEvents cfg e snap).countP PortfolioEvent.isClose := by
  have hsettled : (settleDue cfg snap.observedAt e).syntheticCount =
      e.syntheticCount + (settleEvents cfg snap.observedAt e).countP PortfolioEvent.isClose :=
    syntheticCount_settleLoop snap.observedAt _ e
  have hprocess : (processEvents cfg (settleDue cfg snap.observedAt e) snap).countP
      PortfolioEvent.isClose = 0 := by
    rw [List.countP_eq_zero]
    intro ev hev
    rcases mem_processEvents hev with ⟨f, slug, rfl⟩ | ⟨mid, -, rfl⟩ <;> simp [PortfolioEvent.isClose]
  rw [snapshotEvents_eq, List.countP_append, hprocess, add_zero, ← hsettled]
  rcases onSnapshot_cases h with ⟨-, rfl⟩ | ⟨-, ⟨hp⟩⟩
  · rfl
  · exact syntheticCount_processed hp

/-! ## All snapshots -/

/-- The closes while the snapshots are fed, and what is known after them. -/
lemma feed_settles {snapshots : List BookSnapshot} (hchron : ChronologicalStream snapshots)
    (hle : ∀ snap ∈ snapshots, t ≤ snap.observedAt)
    (hc : ∀ snap ∈ snapshots, ∃ b ∈ c, snap.observedAt ≤ b)
    (hwf : MatchingEngine.WellFormed e.matching) (hcaught : CaughtUp cfg strat t e)
    (hclock : ∀ a ∈ e.matching.now, a ≤ t) (h : feed cfg strat snapshots e = .ok e') :
    EveryStep Portfolio.step (ClosesAt cfg c) e.portfolio (feedEvents cfg strat snapshots e) ∧
      e'.syntheticCount =
        e.syntheticCount + (feedEvents cfg strat snapshots e).countP PortfolioEvent.isClose ∧
      ∃ t', CaughtUp cfg strat t' e' ∧ (∀ a ∈ e'.matching.now, a ≤ t') ∧
        ((snapshots = [] ∧ t' = t) ∨ snapshots.getLast?.map BookSnapshot.observedAt = some t') := by
  induction snapshots generalizing e t with
  | nil =>
    cases h
    exact ⟨trivial, rfl, t, hcaught, hclock, .inl ⟨rfl, rfl⟩⟩
  | cons snap rest ih =>
    obtain ⟨hfirst, hrest⟩ := List.pairwise_cons.1 hchron
    obtain ⟨hsnap, hlater⟩ := List.forall_mem_cons.1 hc
    unfold feed at h
    rw [List.foldlM_cons, except_bind_eq_ok] at h
    obtain ⟨e₁, hone, h⟩ := h
    have hwf₁ := wellFormed_feedOne hwf hone
    have hevents : feedEvents cfg strat (snap :: rest) e =
        snapshotEvents cfg e snap ++ feedEvents cfg strat rest e₁ := by
      rw [feedEvents, emitted, hone]
      rfl
    obtain ⟨e₀, h₀, rfl⟩ := feedOne_ok hone
    have hnow := hle snap List.mem_cons_self
    obtain ⟨hn, hs, hk, ho⟩ := hcaught.onSnapshot hwf hnow h₀
    have hclock₀ : ∀ a ∈ e₀.matching.now, a ≤ snap.observedAt := by
      intro a ha
      rcases now_onSnapshot hwf h₀ with hsame | hsome
      · rw [hsame] at ha
        exact (hclock a ha).trans hnow
      · rw [hsome] at ha
        exact (Option.some.inj ha).ge
    obtain ⟨hsteps, hcount, t', hcaught', hclock', hlast⟩ :=
      ih hrest hfirst hlater hwf₁ ⟨hn, ⟨hs.schedule, hs.split⟩, hk, ho⟩ hclock₀ h
    rw [hevents]
    refine ⟨EveryStep.append.2 ⟨everyStep_snapshot hcaught.swept hcaught.keyed hsnap, ?_⟩, ?_, t',
      hcaught', hclock', ?_⟩
    · rw [← Portfolio.replay, ← portfolio_onSnapshot h₀]
      exact hsteps
    · rw [hcount, List.countP_append, ← add_assoc, ← syntheticCount_onSnapshot h₀]
      rfl
    · right
      rcases hlast with ⟨rfl, rfl⟩ | hlast
      · rfl
      · cases hr : rest with
        | nil => simp [hr] at hlast
        | cons s ss => simpa [hr, List.getLast?_cons_cons] using hlast

lemma feed_marked {snapshots : List BookSnapshot} (hpriced : ∀ snap ∈ snapshots, snap.Priced)
    (hmarked : e.portfolio.Marked) (h : feed cfg strat snapshots e = .ok e') :
    e'.portfolio.Marked := by
  refine foldlM_invariant (I := fun e : BacktestEngine σ => e.portfolio.Marked) ?_ hmarked h
  intro e snap e' hsnap hmarked hone
  obtain ⟨e₀, h₀, rfl⟩ := feedOne_ok hone
  have hnext := marked_onSnapshot (hpriced snap hsnap) hmarked h₀
  exact hnext

/-! ## The close-out -/

/-- One position of the final close. -/
private lemma get?_finalClose (c : Option Time) (e : BacktestEngine σ) (key k : PositionKey) :
    (finalClose cfg c e key).portfolio.positions.get? k =
      if key = k then none else e.portfolio.positions.get? k := by
  unfold finalClose
  cases hget : e.portfolio.positions.get? key with
  | none =>
    dsimp only
    by_cases heq : key = k
    · rw [if_pos heq, ← heq, hget]
    · rw [if_neg heq]
  | some pos =>
    dsimp only
    split
    · exact Portfolio.get?_closePositionAt _ _ _ _ _ _
    · exact Portfolio.get?_closePositionAt _ _ _ _ _ _

private lemma get?_finalCloses (c : Option Time) (keys : List PositionKey) (e : BacktestEngine σ)
    (k : PositionKey) : (keys.foldl (finalClose cfg c) e).portfolio.positions.get? k =
      if k ∈ keys then none else e.portfolio.positions.get? k := by
  induction keys generalizing e with
  | nil => rfl
  | cons key keys ih =>
    rw [List.foldl_cons, ih, get?_finalClose]
    by_cases hk : k ∈ keys
    · simp [hk]
    · by_cases heq : key = k
      · simp [heq]
      · simp [hk, heq, Ne.symm heq]

/-- Nothing but dust is left. -/
lemma dust_finalMark (e : BacktestEngine σ) {key : PositionKey} {pos : Position}
    (hget : (finalMarkToMarket cfg e).portfolio.positions.get? key = some pos) : pos.size ≤ e12 := by
  have hget' : ((heldKeys e.portfolio fun _ => true).foldl (finalClose cfg e.matching.now)
      e).portfolio.positions.get? key = some pos := hget
  rw [get?_finalCloses] at hget'
  split at hget'
  · cases hget'
  · next hnotMem =>
    refine not_lt.1 fun hsize => hnotMem ?_
    exact mem_heldKeys.2 ⟨pos, hget', rfl, hsize⟩

private lemma finalCloses_settle {c₀ : Option Time} {keys : List PositionKey} (hnodup : keys.Nodup)
    (hkeys : ∀ key ∈ keys, ∃ pos, e.portfolio.positions.get? key = some pos ∧ e12 < pos.size ∧
      resolvedInWindow cfg c pos = resolvedInWindow cfg c₀ pos ∧ pos.lastMarkPrice ≠ some 0) :
    EveryStep Portfolio.step (ClosesAt cfg c) e.portfolio
        (outputs (finalClose cfg c₀) (finalCloseEvents cfg c₀) e keys) ∧
      (keys.foldl (finalClose cfg c₀) e).syntheticCount = e.syntheticCount +
        (outputs (finalClose cfg c₀) (finalCloseEvents cfg c₀) e keys).countP
          PortfolioEvent.isClose := by
  induction keys generalizing e with
  | nil => exact ⟨trivial, rfl⟩
  | cons key keys ih =>
    obtain ⟨hnotMem, hnodup⟩ := List.nodup_cons.1 hnodup
    obtain ⟨⟨pos, hget, hsize, hresolved, hmark⟩, hrest⟩ := List.forall_mem_cons.1 hkeys
    obtain ⟨hsteps, hcount⟩ := ih (e := finalClose cfg c₀ e key) hnodup fun k hk => by
      obtain ⟨pos', hget', hpos'⟩ := hrest k hk
      refine ⟨pos', ?_, hpos'⟩
      have hne : key ≠ k := by
        rintro rfl
        exact hnotMem hk
      rw [get?_finalClose, if_neg hne, hget']
    have hone : EveryStep Portfolio.step (ClosesAt cfg c) e.portfolio
        (finalCloseEvents cfg c₀ e key) ∧ (finalClose cfg c₀ e key).syntheticCount =
          e.syntheticCount + (finalCloseEvents cfg c₀ e key).countP PortfolioEvent.isClose := by
      unfold finalClose finalCloseEvents
      simp only [hget]
      cases hc₀ : resolvedInWindow cfg c₀ pos with
      | some settled =>
        refine ⟨⟨⟨pos, hget, hsize, ?_⟩, trivial⟩, ?_⟩
        · rw [hresolved, hc₀]
          exact ⟨rfl, rfl⟩
        · simp only [syntheticCount, PortfolioEvent.isClose, List.countP_singleton, if_true]
          omega
      | none =>
        refine ⟨⟨⟨pos, hget, hsize, ?_⟩, trivial⟩, ?_⟩
        · rw [hresolved, hc₀]
          refine ⟨?_, rfl⟩
          -- the mark is not zero, so the code does not take it for missing
          cases hlast : pos.lastMarkPrice with
          | none => rfl
          | some m =>
            have hm : m ≠ 0 := fun hzero => hmark (by rw [hlast, hzero])
            simp [truthyOr, hm]
        · simp only [syntheticCount, PortfolioEvent.isClose, List.countP_singleton, if_true]
          omega
    rw [outputs, EveryStep.append, List.countP_append, List.foldl_cons]
    refine ⟨⟨hone.1, ?_⟩, ?_⟩
    · rw [← Portfolio.replay, ← portfolio_finalClose]
      exact hsteps
    · rw [hcount, hone.2]
      omega

/-! ## Every position is settled at its price -/

/-- The clock of a run at its end: the time of the last snapshot. -/
def lastSeen (snapshots : List BookSnapshot) : Option Time :=
  snapshots.getLast?.map BookSnapshot.observedAt

lemma lastSeen_ge {snapshots : List BookSnapshot} (hchron : ChronologicalStream snapshots) :
    ∀ snap ∈ snapshots, ∃ b ∈ lastSeen snapshots, snap.observedAt ≤ b := by
  intro snap hsnap
  rcases List.eq_nil_or_concat' snapshots with rfl | ⟨front, last, rfl⟩
  · cases hsnap
  · refine ⟨last.observedAt, by simp [lastSeen], ?_⟩
    rcases List.mem_append.1 hsnap with hfront | hlast
    · exact (List.pairwise_append.1 hchron).2.2 snap hfront last (List.mem_singleton_self last)
    · rw [List.mem_singleton.1 hlast]

/-- What a run with the events `evs` that ends in `e` has settled: its positions are what the events
make of the initial portfolio, each position but dust has ended once, synthetic closes have the
price of their token, and the counters count them. -/
structure SettledExactly (cfg : BacktestConfig) (c : Option Time) (evs : List PortfolioEvent)
    (e : BacktestEngine σ) : Prop where
  /-- The events are what happened to the portfolio. -/
  replayed : e.portfolio.positions =
    ((Portfolio.init (portfolioConfig cfg)).replay evs).positions
  /-- Nothing but dust is open. -/
  dust : ∀ key pos, e.portfolio.positions.get? key = some pos → pos.size ≤ e12
  /-- Every synthetic close finds its position and has the right price. -/
  closes : EveryStep Portfolio.step (ClosesAt cfg c) (Portfolio.init (portfolioConfig cfg)) evs
  /-- A position is dust at the end, or it has ended once, by an order fill or a synthetic close. -/
  once : ∀ before after key pos, evs = before ++ after →
    ((Portfolio.init (portfolioConfig cfg)).replay before).positions.get? key = some pos →
      e.portfolio.positions.get? key ≠ none ∨
        ((Portfolio.init (portfolioConfig cfg)).replay before).EndsOnce key after
  counted : e.settledPositionCount + e.markedToMidCount = evs.countP PortfolioEvent.isClose

/-- **Settlement is exact and happens once**, in every run over a chronological stream of displayed
prices. -/
theorem settledExactly {st : σ} {intents : List TradeIntent} {snapshots : List BookSnapshot}
    (hfinal : cfg.finalCloseAtLastMid = true) (hchron : ChronologicalStream snapshots)
    (hpriced : ∀ snap ∈ snapshots, snap.Priced)
    (h : feed cfg strat snapshots (start cfg st intents) = .ok e) :
    SettledExactly cfg (lastSeen snapshots) (runEvents cfg strat st intents snapshots)
      (finish cfg e) := by
  obtain ⟨b, hbefore, hcaught⟩ := caughtUp_start strat st intents snapshots
  obtain ⟨hsteps, hcount, t, hcaught', hclock, hend⟩ := feed_settles hchron hbefore
    (lastSeen_ge hchron) MatchingEngine.wellFormed_init hcaught (fun a ha => by cases ha) h
  have hmarked := feed_marked hpriced (e := start cfg st intents) (fun _ _ hget => by cases hget) h
  have hpositions : (finish cfg e).portfolio.positions =
      ((Portfolio.init (portfolioConfig cfg)).replay
        (runEvents cfg strat st intents snapshots)).positions := by
    obtain ⟨equity, cash, hrun⟩ := portfolio_run h
    rw [hrun]
  have hfinish : finish cfg e = finalMarkToMarket cfg e := if_pos hfinal
  have hevents : runEvents cfg strat st intents snapshots =
      feedEvents cfg strat snapshots (start cfg st intents) ++
        outputs (finalClose cfg e.matching.now) (finalCloseEvents cfg e.matching.now) e
          (heldKeys e.portfolio fun _ => true) := by
    rw [runEvents, h]
    dsimp only [finishEvents]
    rw [if_pos hfinal]
  have hheld : ∀ key ∈ heldKeys e.portfolio fun _ => true, ∃ pos,
      e.portfolio.positions.get? key = some pos ∧ e12 < pos.size ∧
      resolvedInWindow cfg (lastSeen snapshots) pos = resolvedInWindow cfg e.matching.now pos ∧
      pos.lastMarkPrice ≠ some 0 := by
    intro key hkey
    obtain ⟨pos, hget, -, hsize⟩ := mem_heldKeys.1 hkey
    refine ⟨pos, hget, hsize, ?_, hmarked key pos hget⟩
    rcases hend with ⟨rfl, -⟩ | hend
    · cases h
      rfl
    · refine hcaught'.swept.resolvedInWindow hcaught'.keyed (fun a ha => ?_) (fun b hb => ?_) hget
        hsize
      · exact ⟨t, hend, hclock a ha⟩
      · exact (Option.some.inj (hend.symm.trans hb)).ge
  obtain ⟨hcloses, hclosed⟩ := finalCloses_settle (nodup_heldKeys e.portfolio fun _ => true) hheld
  refine ⟨hpositions, fun key pos hget => dust_finalMark e (hfinish ▸ hget), ?_, ?_, ?_⟩
  · rw [hevents, EveryStep.append]
    refine ⟨hsteps, ?_⟩
    rw [← Portfolio.replay, ← portfolio_start cfg st intents, ← portfolio_feed h]
    exact hcloses
  · intro before after key pos hsplit hget
    rw [hpositions, hsplit, Portfolio.replay_append]
    exact Portfolio.stays_or_endsOnce (by simp [hget]) after
  · have hstart : (start cfg st intents).syntheticCount = 0 := rfl
    rw [hfinish, hevents, List.countP_append]
    show syntheticCount ((heldKeys e.portfolio fun _ => true).foldl (finalClose cfg e.matching.now)
      e) = _
    rw [hclosed, hcount, hstart, zero_add]

/-- The plain venue, with a market that resolves at 2000. -/
def resolving : BacktestConfig :=
  { BacktestConfig.plain 1 {} with
    settlements := Dict.empty.set "t"
      { tokenId := "t", settlePrice := some 1, resolutionTime := some 2000 } }

/-- The entry of one position, and a later snapshot of another token. -/
def resolvedBooks : List BookSnapshot := oneBook ++ [otherBook 2500]

theorem resolvedBooks_settledExactly : ∃ e,
    feed resolving (none : Option (Strategy Unit)) resolvedBooks (start resolving () oneEntry) =
      .ok e ∧
    SettledExactly resolving (some 2500) (runEvents resolving none () oneEntry resolvedBooks)
      (finish resolving e) := by
  have hok : (feed resolving (none : Option (Strategy Unit)) resolvedBooks
      (start resolving () oneEntry)).toOption.isSome = true := by decide +kernel
  cases hrun : feed resolving (none : Option (Strategy Unit)) resolvedBooks
      (start resolving () oneEntry) with
  | error err =>
    rw [hrun] at hok
    cases hok
  | ok e => exact ⟨e, rfl, settledExactly rfl (by decide) (by decide +kernel) hrun⟩

/-- The sweep redeems the position at a snapshot of another token. -/
example : (runEvents resolving (none : Option (Strategy Unit)) () oneEntry resolvedBooks).filter
    PortfolioEvent.isClose = [.close ("t", .buy, none) 1 2000 true] := by decide +kernel

end BacktestEngine

end Evosport.Backtest
