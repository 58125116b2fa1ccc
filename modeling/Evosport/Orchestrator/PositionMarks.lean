/-
Live marks of the open positions.

The price feed reports every tick of a token.  `PositionMarkState` keeps the open positions by their
orders and, for each token, the orders that watch it, so that a tick goes straight to the positions
it is about.  A callback then wakes a task of the web server, which waits a moment, so that rapid
ticks share one message, and broadcasts all the marks.

As long as an order keeps its token, the detour over the index is not seen: every run comes out as
if each tick went through all the positions (`run_eq_scan`).  The sequence numbers make polling
complete: a poll that starts from a cursor finds exactly the positions that were marked since
(`changedSince_iff`).  And no change is lost between the feed's threads and the web server's loop:
when the loop comes to rest, a broadcast was made after every tick that changed a mark
(`change_pushed`).
-/
import Evosport.Lib.Dict
import Evosport.Lib.Run
import Mathlib.Algebra.Order.Ring.Rat
import Mathlib.Data.List.Induction
import Mathlib.Data.List.Infix

namespace Evosport.Orchestrator.PositionMarks

open Lib

/-- `PositionMark`: a position of an order and its latest mark. -/
structure PositionMark where
  orderId : String
  marketId : String
  tokenId : String
  direction : String
  entryPrice : ℚ
  notional : ℚ
  edgePercent : ℚ
  markPrice : ℚ := 0
  markBid : ℚ := 0
  markAsk : ℚ := 0
  markUpdatedAt : ℚ := 0
  markSequence : ℕ := 0
  unrealizedPnl : ℚ := 0
  unrealizedPnlPct : ℚ := 0
  edgeDeltaPct : ℚ := 0
  deriving DecidableEq

/-- The arguments of `register_position` -/
structure Registration where
  orderId : String
  marketId : String
  tokenId : String
  direction : String
  entryPrice : ℚ
  notional : ℚ
  edgePercent : ℚ := 0
  deriving DecidableEq

/-- What `on_price_update` uses of its arguments, and the time of day -/
structure Tick where
  tokenId : String
  mid : ℚ
  bid : ℚ
  ask : ℚ
  ingestTs : ℚ
  time : ℚ
  deriving DecidableEq

/-- The price fields of a mark.  Without an entry price there is no profit to speak of. -/
def PositionMark.update (m : PositionMark) (t : Tick) (sequence : ℕ) : PositionMark :=
  let marked := { m with
    markPrice := t.mid
    markBid := t.bid
    markAsk := t.ask
    markUpdatedAt := if 0 < t.ingestTs then t.ingestTs else t.time
    markSequence := sequence }
  if 0 < m.entryPrice then
    { marked with
      unrealizedPnl := (t.mid - m.entryPrice) * m.notional / m.entryPrice
      unrealizedPnlPct := (t.mid - m.entryPrice) / m.entryPrice * 100
      edgeDeltaPct := (t.mid - m.entryPrice) / m.entryPrice * 100 - m.edgePercent }
  else marked

@[simp] lemma PositionMark.update_tokenId (m : PositionMark) (t : Tick) (sequence : ℕ) :
    (m.update t sequence).tokenId = m.tokenId := by
  unfold PositionMark.update
  split_ifs <;> rfl

@[simp] lemma PositionMark.update_markSequence (m : PositionMark) (t : Tick) (sequence : ℕ) :
    (m.update t sequence).markSequence = sequence := by
  unfold PositionMark.update
  split_ifs <;> rfl

/-! ## The marks -/

/-- The state of `PositionMarkState`, under its lock: the marks by orders, the index of orders by
tokens, the sequence number of changes, and two counters. -/
structure MarkState where
  positions : Dict String PositionMark := .empty
  tokenToOrders : Dict String (List String) := .empty
  sequence : ℕ := 0
  updateCount : ℕ := 0
  missCount : ℕ := 0

section Marks

variable (lower : String → String)

/-- What a registration makes of the mark that is there: the accumulated mark data stay. -/
def Registration.mark (r : Registration) : Option PositionMark → PositionMark
  | some existing =>
    { existing with
      marketId := r.marketId
      tokenId := r.tokenId
      direction := lower r.direction
      entryPrice := r.entryPrice
      notional := r.notional
      edgePercent := r.edgePercent }
  | none =>
    { orderId := r.orderId
      marketId := r.marketId
      tokenId := r.tokenId
      direction := lower r.direction
      entryPrice := r.entryPrice
      notional := r.notional
      edgePercent := r.edgePercent }

/-- `set.add` -/
def addTo (orders : List String) (orderId : String) : List String :=
  if orderId ∈ orders then orders else orders ++ [orderId]

/-- `set.discard`; a set that is empty then is deleted. -/
def discard (tokenToOrders : Dict String (List String)) (tokenId orderId : String) :
    Dict String (List String) :=
  match tokenToOrders.get? tokenId with
  | none => tokenToOrders
  | some orders =>
    if orders.filter (· ≠ orderId) = [] then tokenToOrders.erase tokenId
    else tokenToOrders.set tokenId (orders.filter (· ≠ orderId))

namespace MarkState

/-- The orders that watch a token -/
def watching (s : MarkState) (tokenId : String) : List String :=
  (s.tokenToOrders.get? tokenId).getD []

/-- `register_position`, which keeps the mark of an order that is registered again. -/
def registerPosition (s : MarkState) (r : Registration) : MarkState :=
  { s with
    positions := s.positions.set r.orderId (r.mark lower (s.positions.get? r.orderId))
    tokenToOrders := s.tokenToOrders.set r.tokenId (addTo (s.watching r.tokenId) r.orderId) }

/-- An order leaves the set of the token that it has now. -/
def unregisterPosition (s : MarkState) (orderId : String) : MarkState :=
  (s.positions.get? orderId).elim s fun mark =>
    { s with
      positions := s.positions.erase orderId
      tokenToOrders := discard s.tokenToOrders mark.tokenId orderId }

/-- One order of a tick; an order without a position is passed over. -/
def markOrder (t : Tick) (sequence : ℕ) (positions : Dict String PositionMark) (orderId : String) :
    Dict String PositionMark :=
  (positions.get? orderId).elim positions fun m => positions.set orderId (m.update t sequence)

/-- The marks that a tick changes -/
def changed (s : MarkState) (t : Tick) : List PositionMark :=
  ((s.watching t.tokenId).filterMap s.positions.get?).map fun m => m.update t (s.sequence + 1)

/-- `on_price_update`: the positions on the token are marked under one new sequence number. -/
def onPriceUpdate (s : MarkState) (t : Tick) : MarkState :=
  if s.watching t.tokenId = [] then { s with missCount := s.missCount + 1 }
  else
    { s with
      sequence := s.sequence + 1
      positions := (s.watching t.tokenId).foldl (markOrder t (s.sequence + 1)) s.positions
      updateCount := s.updateCount + if s.changed t = [] then 0 else 1 }

/-- `get_marks` -/
def getMarks (s : MarkState) : List PositionMark := s.positions.values

/-- `get_changed_marks_since` -/
def getChangedMarksSince (s : MarkState) (sequence : ℕ) : List PositionMark :=
  s.positions.values.filter fun m => sequence < m.markSequence

end MarkState

/-- What changes the marks. -/
inductive Event where
  | register (r : Registration)
  | unregister (orderId : String)
  | tick (t : Tick)
  deriving DecidableEq

/-- One event of the marks. -/
def step (s : MarkState) : Event → MarkState
  | .register r => s.registerPosition lower r
  | .unregister orderId => s.unregisterPosition orderId
  | .tick t => s.onPriceUpdate t

/-- The marks after these events. -/
def run (events : List Event) : MarkState := events.foldl (step lower) {}

lemma run_snoc (events : List Event) (event : Event) :
    run lower (events ++ [event]) = step lower (run lower events) event := by
  rw [run, List.foldl_append]
  rfl

end Marks

/-- What the orders of a tick do to one position -/
lemma get?_markOrders (t : Tick) (sequence : ℕ) {orders : List String} (hnodup : orders.Nodup)
    (positions : Dict String PositionMark) (orderId : String) :
    (orders.foldl (MarkState.markOrder t sequence) positions).get? orderId =
      if orderId ∈ orders then (positions.get? orderId).map fun m => m.update t sequence
      else positions.get? orderId := by
  induction orders generalizing positions with
  | nil => simp
  | cons first orders ih =>
    obtain ⟨hfirst, hrest⟩ := List.nodup_cons.1 hnodup
    have hmark : (MarkState.markOrder t sequence positions first).get? orderId =
        if orderId = first then (positions.get? orderId).map fun m => m.update t sequence
        else positions.get? orderId := by
      unfold MarkState.markOrder
      cases hget : positions.get? first with
      | none =>
        split_ifs with h
        · rw [h, Option.elim_none, hget]; rfl
        · rfl
      | some m =>
        rw [Option.elim_some, Dict.get?_set]
        by_cases h : orderId = first
        · simp [h, hget]
        · simp [h, Ne.symm h]
    rw [List.foldl_cons, ih hrest, hmark]
    by_cases h : orderId = first
    · subst h
      simp [hfirst]
    · simp [h]

lemma keys_markOrders (t : Tick) (sequence : ℕ) (orders : List String)
    (positions : Dict String PositionMark) :
    (orders.foldl (MarkState.markOrder t sequence) positions).keys = positions.keys := by
  induction orders generalizing positions with
  | nil => rfl
  | cons first orders ih =>
    rw [List.foldl_cons, ih]
    unfold MarkState.markOrder
    cases hget : positions.get? first with
    | none => rfl
    | some m => exact Dict.keys_set_of_some hget _

section Index

variable {lower : String → String} {s : MarkState}

lemma mem_addTo {orders : List String} {orderId o : String} :
    o ∈ addTo orders orderId ↔ o = orderId ∨ o ∈ orders := by
  unfold addTo
  split_ifs with h
  · exact ⟨.inr, fun ho => ho.elim (fun heq => heq ▸ h) id⟩
  · rw [List.mem_append, List.mem_singleton, or_comm]

lemma nodup_addTo {orders : List String} (h : orders.Nodup) (orderId : String) :
    (addTo orders orderId).Nodup := by
  unfold addTo
  split_ifs with hmem
  · exact h
  · refine List.nodup_append.2 ⟨h, List.nodup_singleton _, fun a ha b hb heq => hmem ?_⟩
    rw [List.mem_singleton] at hb
    rwa [← hb, ← heq]

lemma watching_registerPosition (s : MarkState) (r : Registration) (token : String) :
    (s.registerPosition lower r).watching token =
      if r.tokenId = token then addTo (s.watching token) r.orderId else s.watching token := by
  rw [MarkState.watching, MarkState.registerPosition, Dict.get?_set]
  split_ifs with h
  · rw [← h]; rfl
  · rfl

lemma getD_discard (index : Dict String (List String)) (tokenId orderId token : String) :
    ((discard index tokenId orderId).get? token).getD [] =
      if tokenId = token then ((index.get? token).getD []).filter (· ≠ orderId)
      else (index.get? token).getD [] := by
  unfold discard
  by_cases h : tokenId = token
  · subst h
    rw [if_pos rfl]
    split
    case h_1 hnone => simp [hnone]
    case h_2 orders hsome =>
      rw [hsome]
      split_ifs with hnil
      · rw [Dict.get?_erase_self, Option.getD_some, hnil]
        rfl
      · rw [Dict.get?_set_self, Option.getD_some, Option.getD_some]
  · rw [if_neg h]
    split
    · rfl
    · split_ifs
      · rw [Dict.get?_erase_of_ne _ h]
      · rw [Dict.get?_set_of_ne _ _ h]

lemma watching_unregisterPosition {orderId : String} {m : PositionMark}
    (hm : s.positions.get? orderId = some m) (token : String) :
    (s.unregisterPosition orderId).watching token =
      if m.tokenId = token then (s.watching token).filter (· ≠ orderId)
      else s.watching token := by
  rw [MarkState.unregisterPosition, hm]
  exact getD_discard _ _ _ _

lemma positions_unregisterPosition (s : MarkState) (orderId : String) :
    (s.unregisterPosition orderId).positions = s.positions.erase orderId := by
  unfold MarkState.unregisterPosition
  cases hget : s.positions.get? orderId with
  | some m => rfl
  | none =>
    have hne : ∀ e ∈ s.positions.entries, e.1 ≠ orderId := by
      intro e he heq
      have hmem := Dict.mem_entries.1 he
      rw [heq, hget] at hmem
      cases hmem
    exact (Dict.ext (List.filter_eq_self.2 fun e he => by simpa using hne e he)).symm

/-- Only the positions and the index change when an order leaves. -/
lemma forget_unregisterPosition (s : MarkState) (orderId : String) :
    (s.unregisterPosition orderId).sequence = s.sequence ∧
      (s.unregisterPosition orderId).updateCount = s.updateCount ∧
      (s.unregisterPosition orderId).missCount = s.missCount := by
  unfold MarkState.unregisterPosition
  cases s.positions.get? orderId <;> exact ⟨rfl, rfl, rfl⟩

@[simp] lemma watching_onPriceUpdate (s : MarkState) (t : Tick) (token : String) :
    (s.onPriceUpdate t).watching token = s.watching token := by
  unfold MarkState.onPriceUpdate
  split_ifs <;> rfl

/-- A tick goes through the orders that watch its token, also when there are none. -/
lemma positions_onPriceUpdate (s : MarkState) (t : Tick) :
    (s.onPriceUpdate t).positions =
      (s.watching t.tokenId).foldl (MarkState.markOrder t (s.sequence + 1)) s.positions := by
  by_cases hnil : s.watching t.tokenId = []
  · rw [MarkState.onPriceUpdate, if_pos hnil, hnil]
    rfl
  · rw [MarkState.onPriceUpdate, if_neg hnil]

/-! ## The index is not seen -/

/-- The marks without an index, for comparison: a tick looks at every position and changes those of
its token. -/
structure ScanState where
  positions : Dict String PositionMark := .empty
  sequence : ℕ := 0
  updateCount : ℕ := 0
  missCount : ℕ := 0
  deriving DecidableEq

/-- Whether a position is of a token -/
def isOf (tokenId : String) (m : PositionMark) : Bool := m.tokenId = tokenId

namespace ScanState

/-- A tick that goes through all the positions -/
def onPriceUpdate (s : ScanState) (t : Tick) : ScanState :=
  if s.positions.values.any (isOf t.tokenId) then
    { s with
      sequence := s.sequence + 1
      positions := s.positions.mapVal fun _ m =>
        if isOf t.tokenId m then m.update t (s.sequence + 1) else m
      updateCount := s.updateCount + 1 }
  else { s with missCount := s.missCount + 1 }

variable (lower) in
/-- One event of the scanning state. -/
def step (s : ScanState) : Event → ScanState
  | .register r =>
    { s with positions := s.positions.set r.orderId (r.mark lower (s.positions.get? r.orderId)) }
  | .unregister orderId => { s with positions := s.positions.erase orderId }
  | .tick t => s.onPriceUpdate t

variable (lower) in
/-- The scanning state after these events. -/
def run (events : List Event) : ScanState := events.foldl (step lower) {}

end ScanState

/-- The marks, seen without their index -/
def MarkState.forget (s : MarkState) : ScanState :=
  ⟨s.positions, s.sequence, s.updateCount, s.missCount⟩

/-- The index lists exactly the orders that are there, each once and under its own token. -/
structure Indexed (tokenOf : String → String) (s : MarkState) : Prop where
  tokens : ∀ o m, s.positions.get? o = some m → m.tokenId = tokenOf o
  listed : ∀ token o, o ∈ s.watching token ↔ tokenOf o = token ∧ (s.positions.get? o).isSome
  nodup : ∀ token, (s.watching token).Nodup

variable {tokenOf : String → String}

lemma Registration.mark_tokenId (r : Registration) (old : Option PositionMark) :
    (r.mark lower old).tokenId = r.tokenId := by
  cases old <;> rfl

namespace Indexed

lemma registerPosition (h : Indexed tokenOf s) {r : Registration}
    (hr : tokenOf r.orderId = r.tokenId) : Indexed tokenOf (s.registerPosition lower r) := by
  constructor
  case tokens =>
    intro o m hm
    rw [MarkState.registerPosition, Dict.get?_set] at hm
    split_ifs at hm with ho
    · obtain rfl := Option.some.inj hm
      rw [Registration.mark_tokenId, ← ho, hr]
    · exact h.tokens o m hm
  case listed =>
    intro token o
    rw [watching_registerPosition, MarkState.registerPosition, Dict.get?_set]
    by_cases ho : r.orderId = o
    · subst ho
      by_cases htoken : r.tokenId = token
      · simp [htoken, mem_addTo, hr]
      · -- it was never under another token
        have hne : tokenOf r.orderId ≠ token := hr ▸ htoken
        simp [htoken, h.listed, hne]
    · by_cases htoken : r.tokenId = token
      · simp [ho, htoken, mem_addTo, Ne.symm ho, h.listed]
      · simp [ho, htoken, h.listed]
  case nodup =>
    intro token
    rw [watching_registerPosition]
    split_ifs
    · exact nodup_addTo (h.nodup token) _
    · exact h.nodup token

lemma unregisterPosition (h : Indexed tokenOf s) (orderId : String) :
    Indexed tokenOf (s.unregisterPosition orderId) := by
  cases hm : s.positions.get? orderId with
  | none => simpa [MarkState.unregisterPosition, hm] using h
  | some m =>
    constructor
    case tokens =>
      intro o m' hm'
      rw [positions_unregisterPosition, Dict.get?_erase] at hm'
      split_ifs at hm' with ho
      exact h.tokens o m' hm'
    case listed =>
      intro token o
      rw [watching_unregisterPosition hm, positions_unregisterPosition, Dict.get?_erase]
      by_cases ho : orderId = o
      · subst ho
        by_cases htoken : m.tokenId = token
        · simp [htoken]
        · -- the order was listed nowhere else
          have hne : tokenOf orderId ≠ token := h.tokens _ _ hm ▸ htoken
          simp [htoken, h.listed, hne]
      · by_cases htoken : m.tokenId = token
        · simp [htoken, ho, Ne.symm ho, h.listed]
        · simp [htoken, ho, h.listed]
    case nodup =>
      intro token
      rw [watching_unregisterPosition hm]
      split_ifs
      · exact (h.nodup token).filter _
      · exact h.nodup token

lemma get?_onPriceUpdate (h : Indexed tokenOf s) (t : Tick) (o : String) :
    (s.onPriceUpdate t).positions.get? o =
      (s.positions.get? o).map fun m =>
        if isOf t.tokenId m then m.update t (s.sequence + 1) else m := by
  have hmem : ∀ m, s.positions.get? o = some m →
      (o ∈ s.watching t.tokenId ↔ isOf t.tokenId m = true) := by
    intro m hm
    simp [h.listed, hm, isOf, h.tokens o m hm]
  rw [positions_onPriceUpdate, get?_markOrders _ _ (h.nodup _)]
  cases hm : s.positions.get? o with
  | none => simp
  | some m =>
    -- The index and the position agree on whether the tick is about this order.
    by_cases ho : o ∈ s.watching t.tokenId
    · simp [ho, (hmem m hm).1 ho]
    · have hnot : isOf t.tokenId m = false := by
        rw [← Bool.not_eq_true, ← hmem m hm]
        exact ho
      simp [ho, hnot]

lemma onPriceUpdate (h : Indexed tokenOf s) (t : Tick) : Indexed tokenOf (s.onPriceUpdate t) := by
  constructor
  case tokens =>
    intro o m hm
    rw [h.get?_onPriceUpdate, Option.map_eq_some_iff] at hm
    obtain ⟨m₀, hm₀, rfl⟩ := hm
    split_ifs
    · exact (PositionMark.update_tokenId _ _ _).trans (h.tokens o m₀ hm₀)
    · exact h.tokens o m₀ hm₀
  case listed =>
    intro token o
    rw [watching_onPriceUpdate, h.get?_onPriceUpdate, Option.isSome_map]
    exact h.listed token o
  case nodup =>
    intro token
    rw [watching_onPriceUpdate]
    exact h.nodup token

/-- Somebody watches the token exactly when there is a position of it. -/
lemma any_isOf (h : Indexed tokenOf s) (token : String) :
    s.positions.values.any (isOf token) = true ↔ s.watching token ≠ [] := by
  rw [List.any_eq_true]
  constructor
  · rintro ⟨m, hm, hof⟩
    obtain ⟨o, ho⟩ := Dict.mem_values.1 hm
    refine List.ne_nil_of_mem ((h.listed token o).2 ⟨?_, by rw [ho]; rfl⟩)
    rw [← h.tokens o m ho]
    simpa [isOf] using hof
  · intro hne
    obtain ⟨o, ho⟩ := List.exists_mem_of_ne_nil _ hne
    obtain ⟨htoken, hsome⟩ := (h.listed token o).1 ho
    obtain ⟨m, hm⟩ := Option.isSome_iff_exists.1 hsome
    exact ⟨m, Dict.mem_values.2 ⟨o, hm⟩, by simp [isOf, h.tokens o m hm, htoken]⟩

/-- A tick by the index is a tick through all the positions. -/
lemma forget_onPriceUpdate (h : Indexed tokenOf s) (t : Tick) :
    (s.onPriceUpdate t).forget = s.forget.onPriceUpdate t := by
  by_cases hnil : s.watching t.tokenId = []
  · have hnone : s.forget.positions.values.any (isOf t.tokenId) = false := by
      rw [← Bool.not_eq_true]
      exact fun hany => (h.any_isOf t.tokenId).1 hany hnil
    rw [ScanState.onPriceUpdate, hnone]
    simp [MarkState.onPriceUpdate, hnil, MarkState.forget]
  · have hany : s.forget.positions.values.any (isOf t.tokenId) = true :=
      (h.any_isOf t.tokenId).2 hnil
    have hpositions : (s.onPriceUpdate t).positions = s.positions.mapVal fun _ m =>
        if isOf t.tokenId m then m.update t (s.sequence + 1) else m := by
      refine Dict.ext_get? ?_ fun o => ?_
      · rw [Dict.mapVal_keys, positions_onPriceUpdate, keys_markOrders]
      · rw [h.get?_onPriceUpdate, Dict.get?_mapVal]
    have hchanged : s.changed t ≠ [] := by
      obtain ⟨o, ho⟩ := List.exists_mem_of_ne_nil _ hnil
      obtain ⟨m, hm⟩ := Option.isSome_iff_exists.1 ((h.listed _ o).1 ho).2
      refine List.ne_nil_of_mem (a := m.update t (s.sequence + 1)) ?_
      exact List.mem_map.2 ⟨m, List.mem_filterMap.2 ⟨o, ho, hm⟩, rfl⟩
    rw [ScanState.onPriceUpdate, if_pos hany, MarkState.forget, hpositions]
    simp [MarkState.onPriceUpdate, hnil, hchanged, MarkState.forget]

end Indexed

variable (lower) in
/-- In every run in which an order is always registered under the same token, the marks come out,
sequence numbers and counters included, as if every tick went through all the positions. -/
theorem run_eq_scan {events : List Event}
    (htoken : ∀ r, .register r ∈ events → tokenOf r.orderId = r.tokenId) :
    (run lower events).forget = ScanState.run lower events := by
  have hinv : Indexed tokenOf (run lower events) ∧
      (run lower events).forget = ScanState.run lower events := by
    induction events using List.reverseRecOn with
    | nil => exact ⟨⟨fun _ _ h => (nomatch h), by simp [run, MarkState.watching],
        fun _ => List.nodup_nil⟩, rfl⟩
    | append_singleton events event ih =>
      obtain ⟨hindexed, hforget⟩ := ih fun r hr => htoken r (List.mem_append_left _ hr)
      rw [run_snoc, ScanState.run, List.foldl_append]
      show _ ∧ _ = ScanState.step lower (ScanState.run lower events) event
      rw [← hforget]
      cases event with
      | register r => exact ⟨hindexed.registerPosition (htoken r (by simp)), rfl⟩
      | unregister orderId =>
        refine ⟨hindexed.unregisterPosition orderId, ?_⟩
        obtain ⟨hsequence, hupdates, hmisses⟩ :=
          forget_unregisterPosition (run lower events) orderId
        show (MarkState.unregisterPosition _ _).forget = _
        rw [MarkState.forget, positions_unregisterPosition, hsequence, hupdates, hmisses]
        rfl
      | tick t => exact ⟨hindexed.onPriceUpdate t, hindexed.forget_onPriceUpdate t⟩
  exact hinv.2

/-! ## Polling -/

/-- A tick marks the position of an order. -/
def Marks (s : MarkState) (t : Tick) (orderId : String) : Prop :=
  orderId ∈ s.watching t.tokenId ∧ (s.positions.get? orderId).isSome

variable (lower) in
/-- In the second part of a run, the position of an order was marked and not given up since. -/
def MarkedSince (pre post : List Event) (orderId : String) : Prop :=
  ∃ p₁ t p₂, post = p₁ ++ .tick t :: p₂ ∧ Marks (run lower (pre ++ p₁)) t orderId ∧
    .unregister orderId ∉ p₂

lemma markedSince_snoc {pre post : List Event} {event : Event} {orderId : String} :
    MarkedSince lower pre (post ++ [event]) orderId ↔
      (∃ t, event = .tick t ∧ Marks (run lower (pre ++ post)) t orderId) ∨
        (MarkedSince lower pre post orderId ∧ event ≠ .unregister orderId) := by
  constructor
  · rintro ⟨p₁, t, p₂, hpost, hmarks, hkept⟩
    rcases List.eq_nil_or_concat p₂ with rfl | ⟨p₂', last, rfl⟩
    · obtain ⟨rfl, hevent⟩ := List.append_inj' hpost rfl
      obtain rfl := (List.cons.inj hevent).1
      exact .inl ⟨t, rfl, hmarks⟩
    · have hpost' : post ++ [event] = (p₁ ++ .tick t :: p₂') ++ [last] := by simpa using hpost
      obtain ⟨rfl, hevent⟩ := List.append_inj' hpost' rfl
      obtain rfl := (List.cons.inj hevent).1
      refine .inr ⟨⟨p₁, t, p₂', rfl, hmarks, fun h => hkept (by simp [h])⟩, ?_⟩
      rintro rfl
      exact hkept (by simp)
  · rintro (⟨t, rfl, hmarks⟩ | ⟨⟨p₁, t, p₂, rfl, hmarks, hkept⟩, hevent⟩)
    · exact ⟨post, t, [], rfl, hmarks, List.not_mem_nil⟩
    · refine ⟨p₁, t, p₂ ++ [event], by simp, hmarks, ?_⟩
      rw [List.mem_append, List.mem_singleton]
      rintro (h | rfl)
      · exact hkept h
      · exact hevent rfl

/-- Nobody watches a token twice, and no mark is from the future. -/
structure Sequenced (s : MarkState) : Prop where
  nodup : ∀ token, (s.watching token).Nodup
  past : ∀ o m, s.positions.get? o = some m → m.markSequence ≤ s.sequence

lemma Registration.mark_markSequence (r : Registration) (old : Option PositionMark) :
    (r.mark lower old).markSequence = (old.map PositionMark.markSequence).getD 0 := by
  cases old <;> rfl

lemma sequence_le_onPriceUpdate (s : MarkState) (t : Tick) :
    s.sequence ≤ (s.onPriceUpdate t).sequence := by
  unfold MarkState.onPriceUpdate
  by_cases hnil : s.watching t.tokenId = []
  · rw [if_pos hnil]
  · rw [if_neg hnil]
    exact Nat.le_succ _

lemma sequence_onPriceUpdate {t : Tick} {o : String} (ho : o ∈ s.watching t.tokenId) :
    (s.onPriceUpdate t).sequence = s.sequence + 1 := by
  rw [MarkState.onPriceUpdate, if_neg (List.ne_nil_of_mem ho)]

lemma Sequenced.step (h : Sequenced s) (event : Event) :
    Sequenced (PositionMarks.step lower s event) := by
  cases event with
  | register r =>
    constructor
    case nodup =>
      intro token
      rw [PositionMarks.step, watching_registerPosition]
      split_ifs
      · exact nodup_addTo (h.nodup token) _
      · exact h.nodup token
    case past =>
      intro o m hm
      rw [PositionMarks.step, MarkState.registerPosition, Dict.get?_set] at hm
      split_ifs at hm with ho
      · obtain rfl := Option.some.inj hm
        rw [Registration.mark_markSequence]
        cases hold : s.positions.get? r.orderId with
        | none => exact Nat.zero_le _
        | some old => exact h.past _ old hold
      · exact h.past o m hm
  | unregister orderId =>
    have hsequence := (forget_unregisterPosition s orderId).1
    constructor
    case nodup =>
      intro token
      cases hm : s.positions.get? orderId with
      | none => simpa [PositionMarks.step, MarkState.unregisterPosition, hm] using h.nodup token
      | some m =>
        rw [PositionMarks.step, watching_unregisterPosition hm]
        split_ifs
        · exact (h.nodup token).filter _
        · exact h.nodup token
    case past =>
      intro o m hm
      rw [PositionMarks.step, positions_unregisterPosition, Dict.get?_erase] at hm
      split_ifs at hm with ho
      exact (h.past o m hm).trans hsequence.ge
  | tick t =>
    constructor
    case nodup =>
      intro token
      rw [PositionMarks.step, watching_onPriceUpdate]
      exact h.nodup token
    case past =>
      intro o m hm
      rw [PositionMarks.step, positions_onPriceUpdate, get?_markOrders _ _ (h.nodup _)] at hm
      split_ifs at hm with ho
      · obtain ⟨m₀, -, rfl⟩ := Option.map_eq_some_iff.1 hm
        rw [PositionMark.update_markSequence]
        exact (sequence_onPriceUpdate ho).ge
      · exact (h.past o m hm).trans (sequence_le_onPriceUpdate s t)

variable (lower) in
lemma sequenced_run (events : List Event) : Sequenced (run lower events) := by
  have hstart : Sequenced ({} : MarkState) :=
    ⟨fun _ => List.nodup_nil, fun _ _ h => absurd h (Option.some_ne_none _).symm⟩
  exact foldl_invariant (I := Sequenced) (fun _ event h => h.step event) hstart events

variable (lower) in
lemma sequence_le_run (pre post : List Event) :
    (run lower pre).sequence ≤ (run lower (pre ++ post)).sequence := by
  induction post using List.reverseRecOn with
  | nil => rw [List.append_nil]
  | append_singleton post event ih =>
    rw [← List.append_assoc, run_snoc]
    refine ih.trans ?_
    cases event with
    | register r => exact le_rfl
    | unregister orderId => exact (forget_unregisterPosition _ orderId).1.ge
    | tick t => exact sequence_le_onPriceUpdate _ t

variable (lower) in
/-- The sequence numbers tell the marks of the second part of a run from those before. -/
lemma markedSince_iff (pre post : List Event) (o : String) :
    match (run lower (pre ++ post)).positions.get? o with
    | some m => (run lower pre).sequence < m.markSequence ↔ MarkedSince lower pre post o
    | none => ¬MarkedSince lower pre post o := by
  have hpast := (sequenced_run lower pre).past o
  induction post using List.reverseRecOn with
  | nil =>
    have hnever : ¬MarkedSince lower pre [] o := by
      rintro ⟨p₁, t, p₂, hnil, -⟩
      simp at hnil
    rw [List.append_nil]
    cases hm : (run lower pre).positions.get? o with
    | none => exact hnever
    | some m => exact iff_of_false (not_lt.2 (hpast m hm)) hnever
  | append_singleton post event ih =>
    rw [← List.append_assoc, run_snoc]
    cases event with
    | register r =>
      rw [step, MarkState.registerPosition, Dict.get?_set]
      simp only [markedSince_snoc, reduceCtorEq, false_and, exists_false, false_or, ne_eq,
        not_false_eq_true, and_true]
      by_cases ho : r.orderId = o
      · subst ho
        rw [if_pos rfl]
        simp only [Registration.mark_markSequence]
        cases hm : (run lower (pre ++ post)).positions.get? r.orderId with
        | none =>
          -- a new position has not been marked yet
          rw [hm] at ih
          exact iff_of_false (Nat.not_lt_zero _) ih
        | some m =>
          rw [hm] at ih
          exact ih
      · rw [if_neg ho]
        exact ih
    | unregister orderId =>
      rw [step, positions_unregisterPosition, Dict.get?_erase]
      simp only [markedSince_snoc, reduceCtorEq, false_and, exists_false, false_or, ne_eq,
        Event.unregister.injEq]
      by_cases ho : orderId = o
      · rw [if_pos ho]
        exact fun h => h.2 ho
      · rw [if_neg ho]
        simpa [ho] using ih
    | tick t =>
      rw [step, positions_onPriceUpdate,
        get?_markOrders _ _ ((sequenced_run lower (pre ++ post)).nodup _)]
      simp only [markedSince_snoc, Event.tick.injEq, exists_eq_left', ne_eq, reduceCtorEq,
        not_false_eq_true, and_true, Marks]
      cases hm : (run lower (pre ++ post)).positions.get? o with
      | none =>
        rw [hm] at ih
        simpa using ih
      | some m =>
        rw [hm] at ih
        by_cases ho : o ∈ (run lower (pre ++ post)).watching t.tokenId
        · simp only [ho, if_true, Option.map_some, PositionMark.update_markSequence,
            Option.isSome_some, and_self, true_or, iff_true]
          exact Nat.lt_succ_of_le (sequence_le_run lower pre post)
        · simpa [ho] using ih

/-- In every run, a poll that starts from the sequence number at some point returns exactly those
positions that were marked by a tick since then and not given up in between: it misses none, and it
returns none a second time. -/
theorem changedSince_iff {pre post : List Event} {o : String} {m : PositionMark}
    (hm : (run lower (pre ++ post)).positions.get? o = some m) :
    m ∈ (run lower (pre ++ post)).getChangedMarksSince (run lower pre).sequence ↔
      MarkedSince lower pre post o := by
  have hiff : (run lower pre).sequence < m.markSequence ↔ MarkedSince lower pre post o := by
    have hall := markedSince_iff lower pre post o
    rwa [hm] at hall
  rw [← hiff, MarkState.getChangedMarksSince, List.mem_filter, decide_eq_true_iff]
  exact and_iff_right (Dict.mem_values.2 ⟨o, hm⟩)

end Index

/-! ## The broadcast -/

section Push

variable (lower : String → String)

/-- The marks and the channel of the web server: whether its loop is known and its callback set,
whether a push is pending, the callbacks that its loop has not run yet, whether its task is under
way, and what was broadcast last.  `calling` counts the threads of the feed that have changed marks
and are about to call back. -/
structure Channel where
  marks : MarkState := {}
  calling : ℕ := 0
  loop : Bool := false
  registered : Bool := false
  pending : Bool := false
  scheduled : ℕ := 0
  task : Bool := false
  connections : ℕ := 0
  pushed : Option (List PositionMark) := none

/-- What may happen in the channel: a change of the marks, a thread or the loop that takes its next
step, or one of the two registrations. -/
inductive ChannelEvent where
  | marks (event : Event)
  /-- a thread of the feed calls back -/
  | callBack
  /-- `_ensure_position_marks_push_registered` -/
  | ensureRegistered
  /-- `set_marks_event_loop` -/
  | setLoop
  /-- the loop runs `_schedule_marks_push` -/
  | runScheduled
  /-- the task has waited -/
  | fire
  /-- the refresh that comes every two seconds -/
  | refresh
  | connections (n : ℕ)

namespace Channel

/-- `_do_push_marks` -/
def doPush (c : Channel) : Channel :=
  if c.marks.getMarks = [] ∨ c.connections = 0 then c
  else { c with pushed := some c.marks.getMarks }

/-- `_on_position_marks_changed` -/
def onMarksChanged (c : Channel) : Channel :=
  { c with pending := true, scheduled := c.scheduled + if c.loop then 1 else 0 }

/-- Whether an event changes a mark -/
def changes (c : Channel) : Event → Bool
  | .tick t => c.marks.changed t ≠ []
  | _ => false

/-- One event of the channel; one that does not fit its state changes nothing. -/
def step (c : Channel) : ChannelEvent → Channel
  | .marks event =>
    { c with
      marks := PositionMarks.step lower c.marks event
      calling := c.calling + if c.changes event then 1 else 0 }
  | .callBack =>
    if c.calling = 0 then c
    else
      let called := { c with calling := c.calling - 1 }
      if c.registered then called.onMarksChanged else called
  | .ensureRegistered => { c with registered := true }
  | .setLoop =>
    { c with
      loop := true
      registered := true
      scheduled := c.scheduled + if c.pending then 1 else 0 }
  | .runScheduled =>
    if c.scheduled = 0 then c else { c with scheduled := c.scheduled - 1, task := true }
  | .fire => if c.task then { c with pending := false, task := false }.doPush else c
  | .refresh => c.doPush
  | .connections n => { c with connections := n }

/-- The channel after these events. -/
def run (events : List ChannelEvent) : Channel := events.foldl (step lower) {}

/-- Nothing is under way in the threads of the feed or in the loop: no callback runs, none is
scheduled, and no task waits. -/
structure AtRest (c : Channel) : Prop where
  calling : c.calling = 0
  scheduled : c.scheduled = 0
  task : c.task = false

/-- A push is still to come: a thread is about to call back, or the push is pending and, once the
loop is known, a callback or the task will see to it. -/
structure Owed (c : Channel) : Prop where
  registered : c.registered = true
  coming : 0 < c.calling ∨ c.pending = true ∧ (c.loop = true → 0 < c.scheduled ∨ c.task = true)

variable {lower} {c : Channel}

/-- What is broadcast, if anything, changes nothing else. -/
lemma Owed.doPush (h : Owed c) : Owed c.doPush := by
  unfold Channel.doPush
  split_ifs
  · exact h
  · exact ⟨h.registered, h.coming⟩

/-- Only the task discharges what is owed. -/
lemma Owed.step (h : Owed c) {event : ChannelEvent} (hevent : ¬(event = .fire ∧ c.task = true)) :
    Owed (Channel.step lower c event) := by
  obtain ⟨hregistered, hcoming⟩ := h
  cases event with
  | marks event =>
    refine ⟨hregistered, hcoming.imp_left fun hcalling => ?_⟩
    exact Nat.lt_add_right _ hcalling
  | callBack =>
    by_cases hcalling : c.calling = 0
    · rw [Channel.step, if_pos hcalling]
      exact ⟨hregistered, hcoming⟩
    · -- from here on the push is pending
      simp only [Channel.step, if_neg hcalling, hregistered, if_true]
      refine ⟨rfl, .inr ⟨rfl, fun hloop => .inl ?_⟩⟩
      have hloop : c.loop = true := hloop
      simp [onMarksChanged, hloop]
  | ensureRegistered => exact ⟨rfl, hcoming⟩
  | setLoop =>
    refine ⟨rfl, hcoming.imp_right fun hpending => ⟨hpending.1, fun _ => .inl ?_⟩⟩
    simp [Channel.step, hpending.1]
  | runScheduled =>
    by_cases hscheduled : c.scheduled = 0
    · rw [Channel.step, if_pos hscheduled]
      exact ⟨hregistered, hcoming⟩
    · rw [Channel.step, if_neg hscheduled]
      exact ⟨hregistered, hcoming.imp_right fun hpending => ⟨hpending.1, fun _ => .inr rfl⟩⟩
  | fire =>
    have htask : ¬c.task = true := fun htask => hevent ⟨rfl, htask⟩
    rw [Channel.step, if_neg htask]
    exact ⟨hregistered, hcoming⟩
  | refresh => exact Owed.doPush ⟨hregistered, hcoming⟩
  | connections n => exact ⟨hregistered, hcoming⟩

lemma run_snoc (events : List ChannelEvent) (event : ChannelEvent) :
    run lower (events ++ [event]) = step lower (run lower events) event := by
  rw [run, List.foldl_append]
  rfl

lemma fire_pushed (htask : c.task = true) (hmarks : c.marks.getMarks ≠ [])
    (hconnections : c.connections ≠ 0) :
    (step lower c .fire).pushed = some c.marks.getMarks := by
  simp [step, doPush, htask, hmarks, hconnections]

/-- Until the task fires, a push stays owed. -/
lemma owed_or_fired {pre : List ChannelEvent} (h : Owed (run lower pre))
    (post : List ChannelEvent) :
    Owed (run lower (pre ++ post)) ∨
      ∃ p₁ p₂, post = p₁ ++ .fire :: p₂ ∧ (run lower (pre ++ p₁)).task = true := by
  induction post using List.reverseRecOn with
  | nil => exact .inl (by rwa [List.append_nil])
  | append_singleton post event ih =>
    rcases ih with howed | ⟨p₁, p₂, rfl, htask⟩
    · by_cases hfire : event = .fire ∧ (run lower (pre ++ post)).task = true
      · exact .inr ⟨post, [], by rw [hfire.1], hfire.2⟩
      · rw [← List.append_assoc, run_snoc]
        exact .inl (howed.step hfire)
    · exact .inr ⟨p₁, p₂ ++ [event], by simp, htask⟩

/-- However the threads of the feed, the callbacks in the loop, the task, the refresh and the
clients interleave, and also when the loop becomes known only later: once everything is at rest,
the task has fired after the tick, and has broadcast all the marks as they were by then to the
clients that were there. -/
theorem change_pushed {pre post : List ChannelEvent} {t : Tick}
    (hregistered : (run lower pre).registered = true)
    (hchanged : (run lower pre).marks.changed t ≠ [])
    (hrest : AtRest (run lower (pre ++ .marks (.tick t) :: post)))
    (hloop : (run lower (pre ++ .marks (.tick t) :: post)).loop = true) :
    ∃ p₁ p₂, post = p₁ ++ .fire :: p₂ ∧
      (run lower (pre ++ .marks (.tick t) :: p₁)).task = true ∧
      ((run lower (pre ++ .marks (.tick t) :: p₁)).marks.getMarks ≠ [] →
        (run lower (pre ++ .marks (.tick t) :: p₁)).connections ≠ 0 →
        (run lower (pre ++ .marks (.tick t) :: p₁ ++ [.fire])).pushed =
          some (run lower (pre ++ .marks (.tick t) :: p₁)).marks.getMarks) := by
  have hsplit : ∀ rest, pre ++ .marks (.tick t) :: rest = (pre ++ [.marks (.tick t)]) ++ rest := by
    simp
  have howed : Owed (run lower (pre ++ [.marks (.tick t)])) := by
    rw [run_snoc]
    refine ⟨hregistered, .inl ?_⟩
    simp [step, changes, hchanged]
  rw [hsplit] at hrest hloop
  rcases owed_or_fired howed post with hstill | ⟨p₁, p₂, rfl, htask⟩
  · -- at rest nothing is owed
    exfalso
    rcases hstill.coming with hcalling | ⟨-, hpending⟩
    · rw [hrest.calling] at hcalling
      exact Nat.lt_irrefl _ hcalling
    · rcases hpending hloop with hscheduled | hrunning
      · rw [hrest.scheduled] at hscheduled
        exact Nat.lt_irrefl _ hscheduled
      · rw [hrest.task] at hrunning
        cases hrunning
  · rw [← hsplit] at htask
    refine ⟨p₁, p₂, rfl, htask, fun hmarks hconnections => ?_⟩
    rw [run_snoc]
    exact fire_pushed htask hmarks hconnections

end Channel

end Push

/-! ## A position and two ticks -/

/-- A position of a hundred dollars, bought at forty cents -/
def bought : Registration := ⟨"order-1", "market-1", "yes-1", "YES", 2 / 5, 100, 3⟩

/-- The price of the token rises. -/
def risen : Tick := ⟨"yes-1", 1 / 2, 49 / 100, 51 / 100, 1000, 0⟩

/-- The price of the token falls. -/
def fallen : Tick := ⟨"yes-1", 3 / 10, 29 / 100, 31 / 100, 1001, 0⟩

/-- The position is opened, rises and is polled; then it falls. -/
def opened : List Event := [.register bought, .tick risen]

theorem run_eq_scan_opened :
    (run id (opened ++ [.tick fallen])).forget = ScanState.run id (opened ++ [.tick fallen]) := by
  refine @run_eq_scan id (fun _ => "yes-1") _ fun r hr => ?_
  simp only [opened, List.cons_append, List.nil_append, List.mem_cons, Event.register.injEq,
    reduceCtorEq, List.not_mem_nil, or_false] at hr
  rw [hr]
  rfl

theorem changedSince_iff_fallen :
    (bought.mark id none).update fallen 2 ∈
        (run id (opened ++ [.tick fallen])).getChangedMarksSince (run id opened).sequence ↔
      MarkedSince id opened [.tick fallen] "order-1" := by
  refine changedSince_iff ?_
  decide +kernel

/-- A tick comes before the loop is known. -/
def early : List ChannelEvent :=
  [.ensureRegistered, .connections 1, .marks (.register bought)]

/-- After a change: the thread calls back, and the loop runs what it was given. -/
def afterwards : List ChannelEvent := [.callBack, .setLoop, .runScheduled, .fire]

theorem change_pushed_early :
    ∃ p₁ p₂, afterwards = p₁ ++ .fire :: p₂ ∧
      (Channel.run id (early ++ .marks (.tick risen) :: p₁)).task = true ∧
      ((Channel.run id (early ++ .marks (.tick risen) :: p₁)).marks.getMarks ≠ [] →
        (Channel.run id (early ++ .marks (.tick risen) :: p₁)).connections ≠ 0 →
        (Channel.run id (early ++ .marks (.tick risen) :: p₁ ++ [.fire])).pushed =
          some (Channel.run id (early ++ .marks (.tick risen) :: p₁)).marks.getMarks) := by
  refine Channel.change_pushed (by decide +kernel) (by decide +kernel) ⟨?_, ?_, ?_⟩
    (by decide +kernel)
  · decide +kernel
  · decide +kernel
  · decide +kernel

/-- An order that comes back under another token stays listed under the old one: it is marked by
ticks of a token that is not its own, where a scan would leave it alone. -/
example :
    (run id [.register bought, .register { bought with tokenId := "no-1" },
        .tick risen]).forget ≠
      ScanState.run id [.register bought, .register { bought with tokenId := "no-1" },
        .tick risen] := by
  decide +kernel

end Evosport.Orchestrator.PositionMarks
