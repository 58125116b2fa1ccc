/-
The settlement sweep keeps up with the clock.

Between two snapshots the schedule of settlements splits into the entries that have been
swept, which were due, and those that are still to come, which are not.  The sweep redeems
every position of a swept token; a position that was opened later was opened at a snapshot,
so the matching engine has seen the time of the settlement (`Swept`).  At the end of a run
the positions whose markets have resolved are therefore the same, whichever clock between
that of the matching engine and that of the last snapshot is asked (`Swept.resolvedInWindow`).
-/
import Evosport.Backtest.Trace

namespace Evosport.Backtest

open Lib

namespace Portfolio

variable {p : Portfolio}

/-! ## Closing positions -/

lemma get?_closePositionAt (p : Portfolio) (key : PositionKey) (price : ℚ) (at_ : Time) (b : Bool)
    (k : PositionKey) :
    (p.closePositionAt key price at_ b).positions.get? k =
      if key = k then none else p.positions.get? k := by
  cases hget : p.positions.get? key with
  | none =>
    rw [closePositionAt_of_none hget]
    split
    · next heq => rw [← heq, hget]
    · rfl
  | some pos =>
    have hp : (p.closePositionAt key price at_ b).positions = p.positions.erase key := by
      unfold closePositionAt
      rw [hget]
      simp [positions_closeWith]
    rw [hp, Dict.get?_erase]

/-- Closing several positions removes them and leaves the others as they are. -/
lemma get?_closeAll (keys : List PositionKey) (p : Portfolio) (price : ℚ) (at_ : Time) (b : Bool)
    (k : PositionKey) :
    (keys.foldl (fun p key => p.closePositionAt key price at_ b) p).positions.get? k =
      if k ∈ keys then none else p.positions.get? k := by
  induction keys generalizing p with
  | nil => rfl
  | cons key keys ih =>
    rw [List.foldl_cons, ih, get?_closePositionAt]
    by_cases hk : k ∈ keys
    · rw [if_pos hk, if_pos (List.mem_cons_of_mem key hk)]
    · rw [if_neg hk]
      by_cases heq : key = k
      · rw [if_pos heq, if_pos (by rw [heq]; exact List.mem_cons_self)]
      · rw [if_neg heq, if_neg]
        rintro (_ | ⟨_, hk'⟩)
        · exact heq rfl
        · exact hk hk'

/-- There is a position of the token that is more than dust. -/
def Holds (p : Portfolio) (token : TokenId) : Prop :=
  ∃ key pos, p.positions.get? key = some pos ∧ key.1 = token ∧ e12 < pos.size

/-- Every position of `q` is one of `p`. -/
def Shrinks (p q : Portfolio) : Prop :=
  ∀ key pos, q.positions.get? key = some pos → p.positions.get? key = some pos

lemma Shrinks.trans {q r : Portfolio} (h : Shrinks p q) (h' : Shrinks q r) : Shrinks p r :=
  fun key pos hget => h key pos (h' key pos hget)

lemma Shrinks.holds {q : Portfolio} (h : Shrinks p q) {token : TokenId} (hq : q.Holds token) :
    p.Holds token := by
  obtain ⟨key, pos, hget, htoken, hsize⟩ := hq
  exact ⟨key, pos, h key pos hget, htoken, hsize⟩

/-- Every position has been opened. -/
def Opened (p : Portfolio) : Prop :=
  ∀ key pos, p.positions.get? key = some pos → pos.openedAt.isSome = true

lemma opened_init (cfg : PortfolioConfig) : (init cfg).Opened := by
  intro key pos h
  cases h

lemma Opened.step (h : p.Opened) (ev : PortfolioEvent) : (p.step ev).Opened := by
  intro key pos hget
  cases ev with
  | fill f slug =>
    show pos.openedAt.isSome = true
    have hget' : (p.applyFill f slug).positions.get? key = some pos := hget
    cases hopp : p.positions.get? (f.tokenId, f.side.opposite, slug) with
    | some old =>
      rw [positions_applyFill_of_some hopp] at hget'
      split at hget'
      · rw [Dict.get?_erase] at hget'
        split at hget'
        · cases hget'
        · exact h key pos hget'
      · rw [Dict.get?_set] at hget'
        split at hget'
        · cases hget'
          have hold := h _ old hopp
          show (old.applyCloseFill f).openedAt.isSome = true
          unfold Position.applyCloseFill
          split
          · exact hold
          · exact hold
        · exact h key pos hget'
    | none =>
      rw [positions_applyFill_of_none hopp, Dict.get?_set] at hget'
      split at hget'
      · cases hget'
        rfl
      · exact h key pos hget'
  | close k price at_ b =>
    have hget' : (p.closePositionAt k price at_ b).positions.get? key = some pos := hget
    rw [get?_closePositionAt] at hget'
    split at hget'
    · cases hget'
    · exact h key pos hget'
  | mark token price at_ =>
    have hget' : (p.mark token price at_).positions.get? key = some pos := hget
    simp only [mark, Dict.get?_mapVal, Option.map_eq_some_iff] at hget'
    obtain ⟨old, hold, rfl⟩ := hget'
    have hopened := h key old hold
    split
    · exact hopened
    · exact hopened

lemma Opened.replay (h : p.Opened) (evs : List PortfolioEvent) : (p.replay evs).Opened :=
  foldl_invariant (I := Opened) (fun _ ev hp => hp.step ev) h evs

end Portfolio

namespace BacktestEngine

variable {σ : Type} {cfg : BacktestConfig} {e e' : BacktestEngine σ} {t : Time}

lemma mem_heldKeys {p : Portfolio} {onToken : TokenId → Bool} {key : PositionKey} :
    key ∈ heldKeys p onToken ↔
      ∃ pos, p.positions.get? key = some pos ∧ onToken key.1 = true ∧ e12 < pos.size := by
  unfold heldKeys
  rw [List.mem_map]
  constructor
  · rintro ⟨⟨key, pos⟩, hmem, rfl⟩
    obtain ⟨hmem, hcond⟩ := List.mem_filter.1 hmem
    simp only [Bool.and_eq_true, decide_eq_true_eq] at hcond
    exact ⟨pos, Dict.mem_entries.1 hmem, hcond.1, hcond.2⟩
  · rintro ⟨pos, hget, htoken, hsize⟩
    refine ⟨(key, pos), List.mem_filter.2 ⟨Dict.mem_entries.2 hget, ?_⟩, rfl⟩
    simp [htoken, hsize]

/-! ## One sweep -/

/-- The redemption of a token changes the portfolio and the counter. -/
lemma settleToken_frame (cfg : BacktestConfig) (now : Time) (token : TokenId)
    (e : BacktestEngine σ) : ∃ p n, settleToken cfg now token e =
      { e with portfolio := p, settledPositionCount := n } := by
  unfold settleToken
  split
  · exact ⟨_, _, rfl⟩
  · split
    · exact ⟨_, _, rfl⟩
    · exact ⟨_, _, rfl⟩

/-- The redemption of a token only closes positions. -/
lemma settleToken_shrinks (cfg : BacktestConfig) (now : Time) (token : TokenId)
    (e : BacktestEngine σ) : e.portfolio.Shrinks (settleToken cfg now token e).portfolio := by
  intro key pos hget
  unfold settleToken at hget
  split at hget
  · exact hget
  · split at hget
    · exact hget
    · dsimp only at hget
      rw [Portfolio.get?_closeAll] at hget
      split at hget
      · cases hget
      · exact hget

/-- A token whose winner is known is redeemed in full. -/
lemma settleToken_clears {now : Time} {token : TokenId} {s : TokenSettlement} {price : ℚ}
    (hs : cfg.settlements.get? token = some s) (hprice : s.settlePrice = some price)
    (e : BacktestEngine σ) : ¬(settleToken cfg now token e).portfolio.Holds token := by
  rintro ⟨key, pos, hget, htoken, hsize⟩
  have hold := settleToken_shrinks cfg now token e key pos hget
  unfold settleToken at hget
  simp only [hs, hprice] at hget
  rw [Portfolio.get?_closeAll, if_pos] at hget
  · cases hget
  · exact mem_heldKeys.2 ⟨pos, hold, by simpa using htoken, hsize⟩

/-- An entry of the schedule comes from a market with a known winner. -/
lemma mem_resolutionScheduleOf {entry : Time × TokenId} :
    entry ∈ resolutionScheduleOf cfg ↔ ∃ s price, cfg.settlements.get? entry.2 = some s ∧
      s.settlePrice = some price ∧ s.resolutionTime = some entry.1 := by
  unfold resolutionScheduleOf
  rw [mem_sortByKey, List.mem_filterMap]
  constructor
  · rintro ⟨⟨token, s⟩, hs, hsome⟩
    dsimp only at hsome
    split at hsome
    · next at_ price hat hprice =>
      cases hsome
      exact ⟨s, price, Dict.mem_entries.1 hs, hprice, hat⟩
    · cases hsome
  · rintro ⟨s, price, hs, hprice, hat⟩
    refine ⟨(entry.2, s), Dict.mem_entries.2 hs, ?_⟩
    dsimp only
    rw [hat, hprice]

/-- What a sweep does to what is left of the schedule: the entries that are due are counted
and their tokens are redeemed, and the others are later. -/
lemma settleLoop_split (now : Time) {schedule : List (Time × TokenId)}
    (hsorted : schedule.Pairwise (KeyLe Prod.fst))
    (hknown : ∀ entry ∈ schedule, entry ∈ resolutionScheduleOf cfg) (e : BacktestEngine σ) :
    ∃ due later, schedule = due ++ later ∧
      (settleLoop cfg now schedule e).resolutionPtr = e.resolutionPtr + due.length ∧
      e.portfolio.Shrinks (settleLoop cfg now schedule e).portfolio ∧
      (∀ entry ∈ due, entry.1 ≤ now ∧
        ¬(settleLoop cfg now schedule e).portfolio.Holds entry.2) ∧
      ∀ entry ∈ later, now < entry.1 := by
  induction schedule generalizing e with
  | nil => exact ⟨[], [], rfl, rfl, fun _ _ h => h, by simp, by simp⟩
  | cons entry rest ih =>
    obtain ⟨at_, token⟩ := entry
    obtain ⟨hle, hsorted'⟩ := List.pairwise_cons.1 hsorted
    unfold settleLoop
    by_cases hdue : at_ ≤ now
    · rw [if_pos hdue]
      set e₁ := settleToken cfg now token { e with resolutionPtr := e.resolutionPtr + 1 } with he₁
      obtain ⟨due, later, rfl, hptr, hshrinks, hswept, hlater⟩ :=
        ih hsorted' (fun entry h => hknown entry (List.mem_cons_of_mem _ h)) e₁
      have hptr₁ : e₁.resolutionPtr = e.resolutionPtr + 1 := by
        obtain ⟨p, n, hframe⟩ := settleToken_frame cfg now token
          { e with resolutionPtr := e.resolutionPtr + 1 }
        rw [he₁, hframe]
      have hfirst : e.portfolio.Shrinks e₁.portfolio :=
        settleToken_shrinks cfg now token { e with resolutionPtr := e.resolutionPtr + 1 }
      obtain ⟨s, price, hs, hprice, -⟩ := mem_resolutionScheduleOf.1
        (hknown (at_, token) List.mem_cons_self)
      refine ⟨(at_, token) :: due, later, rfl, ?_, hfirst.trans hshrinks, ?_, hlater⟩
      · rw [hptr, hptr₁, List.length_cons]
        omega
      · rintro entry (_ | ⟨_, hentry⟩)
        · exact ⟨hdue, fun hheld => settleToken_clears hs hprice _ (hshrinks.holds hheld)⟩
        · exact hswept entry hentry
    · rw [if_neg hdue]
      refine ⟨[], (at_, token) :: rest, rfl, rfl, fun _ _ h => h, by simp, ?_⟩
      rintro entry (_ | ⟨_, hentry⟩)
      · exact not_le.1 hdue
      · exact (not_le.1 hdue).trans_le (hle entry hentry)

/-! ## A whole run -/

/-- At time `t`, the swept part of the schedule is what was due by `t`; a token of it is held
only if the matching engine has seen the settlement go by. -/
structure Swept (cfg : BacktestConfig) (t : Time) (e : BacktestEngine σ) : Prop where
  schedule : e.resolutionSchedule = resolutionScheduleOf cfg
  split : ∃ swept coming, resolutionScheduleOf cfg = swept ++ coming ∧
    e.resolutionPtr = swept.length ∧
    (∀ entry ∈ swept, entry.1 ≤ t ∧
      (e.portfolio.Holds entry.2 → ∃ now ∈ e.matching.now, entry.1 ≤ now)) ∧
    ∀ entry ∈ coming, t < entry.1

lemma swept_start (hfuture : ∀ entry ∈ resolutionScheduleOf cfg, t < entry.1) (st : σ)
    (intents : List TradeIntent) : Swept cfg t (start cfg st intents) where
  schedule := rfl
  split := ⟨[], _, rfl, rfl, by simp, hfuture⟩

namespace Swept

/-- The sweep of a snapshot keeps up with its time. -/
lemma settleDue {now : Time} (h : Swept cfg t e) (hle : t ≤ now) :
    Swept cfg now (settleDue cfg now e) := by
  obtain ⟨hschedule, swept, coming, hsplit, hptr, hswept, hcoming⟩ := h
  have hdrop : e.resolutionSchedule.drop e.resolutionPtr = coming := by
    rw [hschedule, hsplit, hptr]
    exact List.drop_left
  have hsorted : coming.Pairwise (KeyLe Prod.fst) := by
    have hall : (swept ++ coming).Pairwise (KeyLe Prod.fst) := by
      rw [← hsplit]
      exact pairwise_sortByKey _
    exact (List.pairwise_append.1 hall).2.1
  obtain ⟨due, later, rfl, hptr', hshrinks, hdue, hlater⟩ := settleLoop_split now hsorted
    (fun entry hentry => by rw [hsplit]; exact List.mem_append_right swept hentry) e
  obtain ⟨n, k, hrest⟩ := (settleDue_settled cfg now e).rest
  have hloop : BacktestEngine.settleDue cfg now e = settleLoop cfg now (due ++ later) e := by
    rw [BacktestEngine.settleDue, hdrop]
  rw [← hloop] at hptr' hshrinks hdue
  refine ⟨?_, swept ++ due, later, ?_, ?_, ?_, hlater⟩
  · rw [hrest]
    exact hschedule
  · rw [hsplit, List.append_assoc]
  · rw [hptr', hptr, List.length_append]
  · intro entry hentry
    rcases List.mem_append.1 hentry with hentry | hentry
    · obtain ⟨hbefore, hheld⟩ := hswept entry hentry
      refine ⟨hbefore.trans hle, fun hholds => ?_⟩
      rw [matching_settleDue]
      exact hheld (hshrinks.holds hholds)
    · exact ⟨(hdue entry hentry).1, fun hholds => absurd hholds (hdue entry hentry).2⟩

/-- Once the matching engine has seen time `t`, positions may have been opened. -/
lemma processed {now : Time} (h : Swept cfg now e)
    (hschedule : e'.resolutionSchedule = e.resolutionSchedule)
    (hptr : e'.resolutionPtr = e.resolutionPtr) (hnow : e'.matching.now = some now) :
    Swept cfg now e' := by
  obtain ⟨hschedule', swept, coming, hsplit, hptr', hswept, hcoming⟩ := h
  refine ⟨hschedule.trans hschedule', swept, coming, hsplit, hptr.trans hptr', ?_, hcoming⟩
  exact fun entry hentry => ⟨(hswept entry hentry).1, fun _ => ⟨now, hnow, (hswept entry hentry).1⟩⟩

/-- Before the time of its settlement no market is resolved. -/
lemma not_resolved_before (price : ℚ) {at_ t : Time} (hlt : t < at_) {c : Option Time}
    (hc : ∀ b ∈ c, b ≤ t) :
    (match some price, some at_, c with
      | some price, some at_, some now => if at_ ≤ now then some (price, at_) else none
      | _, _, _ => none) = none := by
  cases c with
  | none => rfl
  | some b => exact if_neg (not_le.2 ((hc b rfl).trans_lt hlt))

/-- A held position settles at the end of the run by the clock of the matching engine exactly
when it does by a later clock. -/
lemma resolvedInWindow (h : Swept cfg t e) (hkeyed : e.portfolio.WellKeyed) {c : Option Time}
    (hclock : ∀ a ∈ e.matching.now, ∃ b ∈ c, a ≤ b) (hdue : ∀ b ∈ c, b ≤ t)
    {key : PositionKey} {pos : Position} (hget : e.portfolio.positions.get? key = some pos)
    (hsize : e12 < pos.size) :
    BacktestEngine.resolvedInWindow cfg c pos =
      BacktestEngine.resolvedInWindow cfg e.matching.now pos := by
  unfold BacktestEngine.resolvedInWindow
  cases hs : cfg.settlements.get? pos.tokenId with
  | none => rfl
  | some s =>
    cases hprice : s.settlePrice with
    | none => simp [hprice]
    | some price =>
      cases hat : s.resolutionTime with
      | none => simp [hprice, hat]
      | some at_ =>
        have hentry : (at_, pos.tokenId) ∈ resolutionScheduleOf cfg :=
          mem_resolutionScheduleOf.2 ⟨s, price, hs, hprice, hat⟩
        have hholds : e.portfolio.Holds pos.tokenId :=
          ⟨key, pos, hget, by rw [hkeyed key pos hget], hsize⟩
        obtain ⟨-, swept, coming, hsplit, -, hswept, hcoming⟩ := h
        rw [hsplit] at hentry
        simp only [Option.bind_some, hprice, hat]
        rcases List.mem_append.1 hentry with hentry | hentry
        · -- both clocks are past the settlement
          obtain ⟨a, ha, hle⟩ := (hswept _ hentry).2 hholds
          obtain ⟨b, hb, hab⟩ := hclock a ha
          rw [Option.mem_def.1 ha, Option.mem_def.1 hb]
          dsimp only
          rw [if_pos (hle.trans hab), if_pos hle]
        · -- neither clock has reached it
          have hfuture := hcoming _ hentry
          have hfast : ∀ a ∈ e.matching.now, a ≤ t := by
            intro a ha
            obtain ⟨b, hb, hab⟩ := hclock a ha
            exact hab.trans (hdue b hb)
          exact (not_resolved_before price hfuture hdue).trans
            (not_resolved_before price hfuture hfast).symm

end Swept

end BacktestEngine

end Evosport.Backtest
