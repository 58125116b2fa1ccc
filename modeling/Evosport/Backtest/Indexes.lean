/-
The indexes of the matching engine.

`_active_count_by_token` counts the live orders of a token and `_working_by_token` lists its
resting ones.  That the count is right and the lists hold nothing else is `WellFormed`; what is
added here is that no resting order is missing (`Listed`).
-/
import Evosport.Backtest.Advance

namespace Evosport.Backtest

open Lib

namespace MatchingEngine

variable {cfg : MatchingConfig} {e e' : MatchingEngine} {o o' : BacktestOrder} {fs : List Fill}

/-- Every resting order is in the working list of its token. -/
def Listed (e : MatchingEngine) : Prop :=
  ∀ id o, e.orders.get? id = some o → o.IsResting → id ∈ e.workingIds o.tokenId

namespace Listed

/-- Only the rewritten order can enter or leave a working list. -/
lemma effect (h : Listed e) (hwf : WellFormed e) (he : Effect e o fs o' e') : Listed e' := by
  obtain ⟨o₁, hwalk, hr⟩ := he.walk
  have htok : o'.tokenId = o.tokenId := hr.tokenId.trans hwalk.tokenId_eq
  intro id o₂ hg hrest
  rw [he.orders, Dict.get?_set] at hg
  by_cases hid : o.orderId = id
  · subst hid
    rw [if_pos rfl] at hg
    cases hg
    cases he.ends with
    | finished hterm => rw [hrest.isTerminal] at hterm; cases hterm
    | rests _ _ hw =>
      rw [hw, if_pos htok, withWorking]
      split
      · next hmem => exact hmem
      · exact List.mem_append_right _ (List.mem_singleton.2 rfl)
  · rw [if_neg hid] at hg
    have hmem := h id o₂ hg hrest
    cases he.ends with
    | finished _ _ hw =>
      rw [hw]
      split
      · exact (List.Nodup.mem_erase_iff (hwf.nodup _)).2 ⟨Ne.symm hid, hmem⟩
      · exact hmem
    | rests _ _ hw =>
      rw [hw]
      split
      · rw [withWorking]
        split
        · exact hmem
        · exact List.mem_append_left _ hmem
      · exact hmem

lemma touch (h : Listed e) (hget : e.orders.get? o.orderId = some o) (ht : Touch e o o' e') :
    Listed e' := by
  intro id o₂ hg hrest
  rw [workingIds, ht.working]
  rw [ht.orders, Dict.get?_set] at hg
  split at hg
  · next hid =>
    subst hid
    cases hg
    rw [ht.relabel.tokenId]
    rw [BacktestOrder.IsResting, ht.state] at hrest
    exact h _ _ hget hrest
  · exact h _ _ hg hrest

lemma sameOrders (h : Listed e) (hs : SameOrders e e') : Listed e' := by
  intro id o hg hrest
  rw [workingIds, hs.workingByToken]
  rw [hs.orders] at hg
  exact h _ _ hg hrest

lemma interim : Interim Listed where
  sameOrders h hs := h.sameOrders hs
  cancelled hwf h _ _ he _ := h.effect hwf he
  touched _ h hget _ ht := h.touch hget ht

/-- A submitted order is not resting yet. -/
lemma submitted (h : Listed e) (hs : Submitted cfg e o o' e') : Listed e' := by
  intro id o₂ hg hrest
  rw [workingIds, hs.working]
  rw [hs.orders, Dict.get?_set] at hg
  split at hg
  · cases hg
    rcases hs.state with hs | hs <;> rcases hrest with hr | hr <;> rw [hs] at hr <;> cases hr
  · exact h _ _ hg hrest

variable (cfg) in
lemma advance (h : Listed e) (hwf : WellFormed e) (snap : BookSnapshot) :
    Listed (MatchingEngine.advance cfg snap e).1 := by
  obtain ⟨e₁, -, hlisted, heq⟩ := advance_effects cfg (J := fun e _ => Listed e) hwf snap
    (openInterval_induct cfg interim snap hwf h).2
    (fun hi hJ _ _ _ heff => hJ.effect hi.wellFormed heff)
  rw [heq]
  exact hlisted

lemma step (h : Listed e) (hwf : WellFormed e) (op : MatchingOp) :
    Listed (MatchingEngine.step cfg e op) := by
  rcases step_cases cfg hwf op with ⟨heq, -⟩ | ⟨order, o', -, -, hs, -⟩ |
    ⟨o, o', hget, -, ht, -⟩ | ⟨snap, -, -, heq, -⟩
  · rw [heq]
    exact h
  · exact h.submitted hs
  · exact h.touch hget ht
  · rw [heq]
    exact h.advance cfg hwf snap

lemma run (cfg : MatchingConfig) (ops : List MatchingOp) : Listed (runOps cfg ops) :=
  (foldl_invariant (I := fun e => WellFormed e ∧ Listed e)
    (fun _ op h => ⟨wellFormed_step h.1 op, h.2.step h.1 op⟩)
    ⟨wellFormed_init, fun _ _ hg => by cases hg⟩ ops).2

end Listed

/-- The live orders of a token. -/
def liveOrders (e : MatchingEngine) (token : TokenId) : List BacktestOrder :=
  e.allOrders.filter fun o => decide (o.tokenId = token) && !o.isTerminal

lemma mem_liveOrders {token : TokenId} :
    o ∈ e.liveOrders token ↔ o ∈ e.allOrders ∧ o.tokenId = token ∧ o.isTerminal = false := by
  simp [liveOrders]

/-- The total of `liveOn` is the number of the live orders. -/
lemma total_liveOn (e : MatchingEngine) (token : TokenId) :
    e.orders.total (liveOn token) = (e.liveOrders token).length := by
  rw [Dict.total, liveOrders, allOrders, Dict.values]
  induction e.orders.entries with
  | nil => rfl
  | cons entry entries ih =>
    rw [List.map_cons, List.sum_cons, ih, List.map_cons, List.filter_cons]
    by_cases hlive : entry.2.tokenId = token ∧ entry.2.isTerminal = false
    · simp only [liveOn, hlive.1, hlive.2, and_self, if_true, decide_true, Bool.not_false,
        Bool.and_self, List.length_cons, Nat.cast_add, Nat.cast_one]
      ring
    · have hskip : (decide (entry.2.tokenId = token) && !entry.2.isTerminal) = false := by
        simpa using hlive
      rw [hskip, liveOn, if_neg (fun h => hlive h.symm)]
      simp

/-- **The indexes are exact.**  After every sequence of calls, for every token: the active count is
the number of its live orders, the engine says that it has some exactly when it has, and the
working list holds its resting orders, each of them once, and no other order. -/
theorem indexes_exact (cfg : MatchingConfig) (ops : List MatchingOp) (token : TokenId) :
    (runOps cfg ops).activeCountByToken.getD token 0 =
        ((runOps cfg ops).liveOrders token).length ∧
      ((runOps cfg ops).hasActiveOrdersForToken token = true ↔
        ∃ o ∈ (runOps cfg ops).allOrders, o.tokenId = token ∧ o.isTerminal = false) ∧
      ((runOps cfg ops).workingIds token).Nodup ∧
      ∀ id, id ∈ (runOps cfg ops).workingIds token ↔
        ∃ o, (runOps cfg ops).orders.get? id = some o ∧ o.tokenId = token ∧ o.IsResting := by
  have hwf : WellFormed (runOps cfg ops) := wellFormed_runOps ops
  have hcount : (runOps cfg ops).activeCountByToken.getD token 0 =
      ((runOps cfg ops).liveOrders token).length := by
    have h := hwf.counted token
    rw [total_liveOn] at h
    exact_mod_cast h
  refine ⟨hcount, ?_, hwf.nodup token, fun id => ⟨hwf.working, ?_⟩⟩
  · rw [hasActiveOrdersForToken, decide_eq_true_iff, hcount, List.length_pos_iff_exists_mem]
    simp only [mem_liveOrders]
  · rintro ⟨o, hget, rfl, hrest⟩
    exact Listed.run cfg ops id o hget hrest

end MatchingEngine

end Evosport.Backtest
