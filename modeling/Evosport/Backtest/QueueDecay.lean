/-
The queue ahead of a resting order, from one snapshot to the next.

When an interval opens, due cancels are applied and the queue ahead of the resting orders decays by
the depth that disappeared from their side of the book.  `openInterval_record` says what this does
to one order: nothing but its queue changes, unless it is cancelled (`Waits`).
-/
import Evosport.Backtest.Advance

namespace Evosport.Backtest

open Lib

namespace MatchingConfig

variable (cfg : MatchingConfig)

lemma progressFraction_nonneg : 0 ≤ cfg.progressFraction := le_max_left _ _

end MatchingConfig

namespace MatchingEngine

variable {cfg : MatchingConfig} {e e' : MatchingEngine} {snap : BookSnapshot}
  {o o' : BacktestOrder} {id : OrderId}

/-! ## The decay of one queue -/

/-- The depth at or better than the limit of an order that the next snapshot no longer shows. -/
def disappeared (o : BacktestOrder) (old new : BookSnapshot) : ℚ :=
  max 0 (eligibleDepth o.side o.price (old.ownLadder o.side) -
    eligibleDepth o.side o.price (new.ownLadder o.side))

lemma disappeared_nonneg (o : BacktestOrder) (old new : BookSnapshot) :
    0 ≤ disappeared o old new := le_max_left _ _

lemma ownConsumed_nonneg (side : Side) (limit : ℚ) (consumed : Dict ℚ ℚ) :
    0 ≤ ownConsumed side limit consumed := by
  refine List.sum_nonneg fun q hq => ?_
  obtain ⟨c, -, rfl⟩ := List.mem_map.1 hq
  exact le_max_left _ _

/-- The decay changes the queue only. -/
lemma decayQueue_frame (cfg : MatchingConfig) (old : ResidualBook) (new : BookSnapshot)
    (o : BacktestOrder) :
    decayQueue cfg old new o =
      { o with queueAheadShares := (decayQueue cfg old new o).queueAheadShares } := by
  unfold decayQueue
  split
  · rfl
  · split <;> rfl

variable (cfg) in
/-- The queue ahead does not grow, stays nonnegative, and loses at most a fraction of the depth
that disappeared. -/
lemma decayQueue_queue {old : ResidualBook} {new : BookSnapshot} {q : ℚ}
    (hq : o.queueAheadShares = some q) (hnonneg : 0 ≤ q) :
    ∃ q', (decayQueue cfg old new o).queueAheadShares = some q' ∧ 0 ≤ q' ∧ q' ≤ q ∧
      q - q' ≤ cfg.progressFraction * disappeared o old.snapshot new := by
  have hfrac := cfg.progressFraction_nonneg
  have hgone := mul_nonneg hfrac (disappeared_nonneg o old.snapshot new)
  unfold decayQueue
  simp only [hq]
  by_cases hidle : o.isTerminal = true ∨ q ≤ 0
  · rw [if_pos hidle]
    exact ⟨q, hq, hnonneg, le_refl q, by linarith⟩
  · rw [if_neg hidle]
    refine ⟨_, rfl, le_max_left _ _, max_le hnonneg ?_, ?_⟩
    · have hext := mul_nonneg (le_max_left 0 (eligibleDepth o.side o.price
        (old.snapshot.ownLadder o.side) - eligibleDepth o.side o.price (new.ownLadder o.side) -
        ownConsumed o.side o.price (old.consumedBy o.side.opposite))) hfrac
      linarith
    · have hown := ownConsumed_nonneg o.side o.price (old.consumedBy o.side.opposite)
      -- what this engine consumed itself is not counted, so less than what disappeared is
      have hext : max 0 (eligibleDepth o.side o.price (old.snapshot.ownLadder o.side) -
          eligibleDepth o.side o.price (new.ownLadder o.side) -
          ownConsumed o.side o.price (old.consumedBy o.side.opposite)) ≤
          disappeared o old.snapshot new := max_le_max le_rfl (by linarith)
      have hmul := mul_le_mul_of_nonneg_right hext hfrac
      have hmax := le_max_right 0 (q - max 0 (eligibleDepth o.side o.price
        (old.snapshot.ownLadder o.side) - eligibleDepth o.side o.price (new.ownLadder o.side) -
        ownConsumed o.side o.price (old.consumedBy o.side.opposite)) * cfg.progressFraction)
      linarith

variable (cfg) in
/-- Every listed order decays once. -/
lemma decayQueues_get? (old : ResidualBook) (new : BookSnapshot) {ids : List OrderId}
    (hkeyed : ∀ {id o}, e.orders.get? id = some o → o.orderId = id) (hnodup : ids.Nodup)
    (id : OrderId) :
    (decayQueues cfg old new ids e).orders.get? id =
      if id ∈ ids then (e.orders.get? id).map (decayQueue cfg old new)
      else e.orders.get? id := by
  induction ids generalizing e with
  | nil => rfl
  | cons first ids ih =>
    obtain ⟨hnot, hnodup'⟩ := List.nodup_cons.1 hnodup
    unfold decayQueues
    cases hget : e.orders.get? first with
    | none =>
      simp only
      rw [ih hkeyed hnodup']
      by_cases hid : id = first
      · subst hid
        simp [hnot, hget]
      · simp [hid]
    | some o =>
      have hid : o.orderId = first := hkeyed hget
      have hid₀ : (decayQueue cfg old new o).orderId = first :=
        (congrArg BacktestOrder.orderId (decayQueue_frame cfg old new o)).trans hid
      have hget' : ∀ id, (e.putOrder (decayQueue cfg old new o)).orders.get? id =
          if first = id then some (decayQueue cfg old new o) else e.orders.get? id := by
        intro id
        rw [putOrder, hid₀, Dict.get?_set]
      simp only
      rw [ih (fun {id o₁} hg => ?_) hnodup']
      · rw [hget']
        by_cases hid : first = id
        · subst hid
          simp [hnot, hget]
        · simp [hid, Ne.symm hid]
      · rw [hget'] at hg
        split at hg
        · next hid => cases hg; rw [hid₀, hid]
        · exact hkeyed hg

/-! ## Due cancels -/

/-- A due cancel ends its order, and leaves the others as they are. -/
lemma applyCancel_record (hkeyed : ∀ {id o}, e.orders.get? id = some o → o.orderId = id)
    (target : OrderId) (at_ : Time) (id : OrderId) :
    (e.applyCancel target at_).orders.get? id = e.orders.get? id ∨
      ∃ o, e.orders.get? id = some o ∧ o.isTerminal = false ∧
        (e.applyCancel target at_).orders.get? id =
          some { o with state := .cancelled, cancelledAt := some at_ } := by
  cases hget : e.orders.get? target with
  | none =>
    refine .inl ?_
    unfold applyCancel
    rw [hget]
  | some o =>
    by_cases hterm : o.isTerminal = true
    · refine .inl ?_
      unfold applyCancel
      simp only [hget, hterm, if_true]
    · have hlive : o.isTerminal = false := by simpa using hterm
      have hid := hkeyed hget
      have horders : (e.applyCancel target at_).orders = e.orders.set target
          { o with state := .cancelled, cancelledAt := some at_ } := by
        have hput : (e.terminate { o with cancelledAt := some at_ } .cancelled).orders =
            e.orders.set target { o with state := .cancelled, cancelledAt := some at_ } := by
          rw [terminate_of_live (by exact hlive), ← hid]
          rfl
        unfold applyCancel
        simp only [hget, hlive]
        rw [if_neg (by decide)]
        split
        · rw [← hput]
          obtain ⟨w, hw⟩ := removeFromWorking_eq
            (e.terminate { o with cancelledAt := some at_ } .cancelled) o
          rw [hw]
        · rw [← hput]
          obtain ⟨w, hw⟩ := removeFromWorking_eq
            (e.terminate { o with cancelledAt := some at_ } .cancelled) o
          rw [hw]
        · exact hput
      rw [horders, Dict.get?_set]
      by_cases ht : target = id
      · subst ht
        exact .inr ⟨o, hget, hlive, by rw [if_pos rfl]⟩
      · exact .inl (by rw [if_neg ht])

/-- The due cancels end an order at most once. -/
lemma applyDueCancels_record (now : Time) (due : List (OrderId × Time)) (hwf : WellFormed e)
    (id : OrderId) :
    (applyDueCancels now due e).orders.get? id = e.orders.get? id ∨
      ∃ o at_, e.orders.get? id = some o ∧ o.isTerminal = false ∧
        (applyDueCancels now due e).orders.get? id =
          some { o with state := .cancelled, cancelledAt := some at_ } := by
  induction due generalizing e with
  | nil => exact .inl rfl
  | cons c due ih =>
    obtain ⟨target, at_⟩ := c
    unfold applyDueCancels
    split
    · have hwf' : WellFormed { e.applyCancel target at_ with
          pendingCancels := (e.applyCancel target at_).pendingCancels.erase target } :=
        (applyCancel_induct Interim.wellFormed hwf hwf target at_).1.sameOrders ⟨rfl, rfl, rfl, rfl⟩
      rcases applyCancel_record hwf.keyed target at_ id with hsame | ⟨o, hget, hlive, hcancelled⟩
      · rw [← hsame]
        exact ih hwf'
      · rcases ih hwf' with hsame | ⟨o', -, hget', hlive', -⟩
        · exact .inr ⟨o, at_, hget, hlive, hsame.trans hcancelled⟩
        · -- what was cancelled is terminal
          have hterm := hget'.symm.trans hcancelled
          cases hterm
          cases hlive'
    · exact ih hwf

/-! ## The opening of an interval -/

/-- An order after the opening of an interval: it may be cancelled, and its queue may have
decayed. -/
structure Waits (cfg : MatchingConfig) (e : MatchingEngine) (snap : BookSnapshot)
    (o o' : BacktestOrder) : Prop where
  frame : o' = { o with
    state := o'.state
    cancelledAt := o'.cancelledAt
    queueAheadShares := o'.queueAheadShares }
  state : o'.state = o.state ∨ o'.state = .cancelled
  queue : o'.queueAheadShares = o.queueAheadShares ∨
    ∃ old, e.books.get? snap.tokenId = some old ∧ o.tokenId = snap.tokenId ∧
      o'.queueAheadShares = (decayQueue cfg old snap o).queueAheadShares

variable (cfg snap) in
lemma openInterval_record (hwf : WellFormed e) (hget : e.orders.get? id = some o) :
    ∃ o', (openInterval cfg snap e).orders.get? id = some o' ∧ Waits cfg e snap o o' := by
  have hstart : WellFormed { e with now := some snap.observedAt } :=
    hwf.sameOrders ⟨rfl, rfl, rfl, rfl⟩
  have hbooks := (applyDueCancels_frame snap.observedAt e.pendingCancels.entries
    { e with now := some snap.observedAt }).2
  have hwf' := (applyDueCancels_induct Interim.wellFormed snap.observedAt e.pendingCancels.entries
    hstart hstart).1
  -- the record after the due cancels
  obtain ⟨o₁, hget₁, hcases⟩ : ∃ o₁,
      (applyDueCancels snap.observedAt e.pendingCancels.entries
        { e with now := some snap.observedAt }).orders.get? id = some o₁ ∧
      (o₁ = o ∨ ∃ at_, o₁ = { o with state := .cancelled, cancelledAt := some at_ }) := by
    rcases applyDueCancels_record snap.observedAt e.pendingCancels.entries hstart id with
      hsame | ⟨o₀, at_, hget₀, -, hcancelled⟩
    · exact ⟨o, hsame.trans hget, .inl rfl⟩
    · have heq : some o₀ = some o := hget₀.symm.trans hget
      cases heq
      exact ⟨_, hcancelled, .inr ⟨at_, rfl⟩⟩
  have hunchanged : Waits cfg e snap o o₁ := by
    rcases hcases with rfl | ⟨at_, rfl⟩
    · exact ⟨rfl, .inl rfl, .inl rfl⟩
    · exact ⟨rfl, .inr rfl, .inl rfl⟩
  show ∃ o', (refreshBook cfg snap (applyDueCancels snap.observedAt e.pendingCancels.entries
    { e with now := some snap.observedAt })).orders.get? id = some o' ∧ Waits cfg e snap o o'
  generalize applyDueCancels snap.observedAt e.pendingCancels.entries
    { e with now := some snap.observedAt } = m at hbooks hwf' hget₁ ⊢
  unfold refreshBook
  cases hbook : m.books.get? snap.tokenId with
  | none => exact ⟨o₁, hget₁, hunchanged⟩
  | some old =>
    have hbook' : e.books.get? snap.tokenId = some old := by rw [← hbook, hbooks]
    have hrecord := decayQueues_get? cfg
      (e := { m with books := m.books.set snap.tokenId { snapshot := snap } })
      old snap hwf'.keyed (hwf'.nodup snap.tokenId) id
    by_cases hmem : id ∈ m.workingIds snap.tokenId
    · rw [if_pos hmem] at hrecord
      obtain ⟨o₂, hget₂, htok, hrest⟩ := hwf'.working hmem
      have heq : some o₂ = some o₁ := hget₂.symm.trans hget₁
      cases heq
      rcases hcases with rfl | ⟨at_, rfl⟩
      · have hframe := decayQueue_frame cfg old snap o₁
        have hstate : (decayQueue cfg old snap o₁).state = o₁.state :=
          by rw [hframe]
        have hat : (decayQueue cfg old snap o₁).cancelledAt = o₁.cancelledAt :=
          by rw [hframe]
        refine ⟨decayQueue cfg old snap o₁, hrecord.trans (by rw [hget₁, Option.map_some]), ?_,
          .inl hstate, .inr ⟨old, hbook', htok, rfl⟩⟩
        rw [hstate, hat]
        exact hframe
      · -- a working order is live, so no cancel has ended it
        rcases hrest with hrest | hrest <;> cases hrest
    · rw [if_neg hmem] at hrecord
      exact ⟨o₁, hrecord.trans hget₁, hunchanged⟩

end MatchingEngine

end Evosport.Backtest
