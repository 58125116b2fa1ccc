/-
Reports of trades that come more than once, and the memory of the wallet's cache.

The user channel reports a trade at least once for each stage it reaches, and again after a
reconnect.  The ids of applied trades are remembered, up to a bound; while the bound is not reached,
a report of a trade that is applied already makes no difference to anything that is read later
(`redelivery_harmless`).  The memory stays within its bounds in every run (`memory_bounded`), and an
order that is still open is never the one that is forgotten as long as not all of the tracked orders
are open (`openOrder_kept`).
-/
import Evosport.Orchestrator.WalletState

namespace Evosport.Orchestrator.WalletState

open Lib

variable {s s' : WalletStateCache} {trade : Trade}

/-! ## States that differ in the stages of the fills only -/

/-- A fill without its stage -/
def WalletFill.forget (fill : WalletFill) : WalletFill :=
  { fill with status := "", confirmedAt := none }

/-- The state with other fills, another time of the last report and another count of reports -/
def WalletStateCache.withReports (s : WalletStateCache) (fills : List WalletFill)
    (lastWsEvent : Option ℚ) (tradesApplied : ℕ) : WalletStateCache :=
  { s with recentFills := fills, lastWsEvent := lastWsEvent, tradesApplied := tradesApplied }

/-- Two states that differ in what a report of an applied trade may change -/
def Alike (s s' : WalletStateCache) : Prop :=
  ∃ fills lastWsEvent tradesApplied, s' = s.withReports fills lastWsEvent tradesApplied ∧
    s.recentFills.map WalletFill.forget = fills.map WalletFill.forget

section WithReports

variable (fills : List WalletFill) (lastWsEvent : Option ℚ) (tradesApplied : ℕ)

lemma track_withReports (conditionId tokenId : String) :
    (s.withReports fills lastWsEvent tradesApplied).track conditionId tokenId =
      (s.track conditionId tokenId).withReports fills lastWsEvent tradesApplied := by
  unfold WalletStateCache.track
  split_ifs <;> rfl

lemma put_withReports (tokenId : String) (pos : WalletPosition) :
    (s.withReports fills lastWsEvent tradesApplied).put tokenId pos =
      (s.put tokenId pos).withReports fills lastWsEvent tradesApplied := rfl

lemma removePosition_withReports (tokenId : String) :
    removePosition tokenId (s.withReports fills lastWsEvent tradesApplied) =
      (removePosition tokenId s).withReports fills lastWsEvent tradesApplied := by
  cases hpos : s.positions.get? tokenId with
  | none => simp [removePosition, WalletStateCache.withReports, hpos]
  | some pos =>
    simp only [removePosition, WalletStateCache.withReports, hpos]
    split_ifs
    · rfl
    · split
      · rfl
      · split_ifs <;> rfl

lemma dropExited_withReports (tokenId : String) (pos : WalletPosition) :
    dropExited tokenId pos (s.withReports fills lastWsEvent tradesApplied) =
      (dropExited tokenId pos s).withReports fills lastWsEvent tradesApplied := by
  unfold dropExited
  split_ifs
  · exact removePosition_withReports fills lastWsEvent tradesApplied tokenId
  · rfl

lemma noted_withReports (trade : Trade) :
    noted trade (s.withReports fills lastWsEvent tradesApplied) =
      (noted trade s).withReports fills lastWsEvent tradesApplied := by
  have hpositions : (s.withReports fills lastWsEvent tradesApplied).positions = s.positions := rfl
  unfold noted
  rw [hpositions]
  split
  · exact track_withReports fills lastWsEvent tradesApplied _ _
  · split_ifs
    · rfl
    · exact track_withReports fills lastWsEvent tradesApplied _ _

lemma settled_withReports (trade : Trade) :
    settled trade (s.withReports fills lastWsEvent tradesApplied) =
      (settled trade s).withReports (push maxRecentFills fills trade.toFill) lastWsEvent
        tradesApplied := by
  have hfilled : filled trade (s.withReports fills lastWsEvent tradesApplied) = filled trade s := rfl
  simp only [settled, noted_withReports, hfilled]
  simp only [WalletStateCache.withReports, WalletStateCache.put]

lemma applyFill_withReports (trade : Trade) :
    applyFill trade (s.withReports fills lastWsEvent tradesApplied) =
      (applyFill trade s).withReports (push maxRecentFills fills trade.toFill) lastWsEvent
        tradesApplied := by
  have hfilled : filled trade (s.withReports fills lastWsEvent tradesApplied) = filled trade s := rfl
  rw [applyFill, hfilled, settled_withReports, dropExited_withReports]
  rfl

end WithReports

lemma map_push {α β : Type} (f : α → β) (cap : ℕ) (l : List α) (x : α) :
    (push cap l x).map f = push cap (l.map f) (f x) := by
  simp [push, List.map_drop]

lemma map_updateFill {tradeId : String} {f : WalletFill → WalletFill}
    (hf : ∀ fill, (f fill).forget = fill.forget) (fills : List WalletFill) :
    (updateFill tradeId f fills).map WalletFill.forget = fills.map WalletFill.forget := by
  induction fills with
  | nil => rfl
  | cons fill fills ih =>
    rw [updateFill]
    split_ifs
    · simp [hf]
    · simp [ih]

/-- The fill of a trade is found at the same place. -/
lemma findFill_forget (tradeId : String) (fills : List WalletFill) :
    (findFill tradeId fills).map WalletFill.forget =
      findFill tradeId (fills.map WalletFill.forget) := by
  rw [findFill, findFill, List.find?_map]
  rfl

namespace Alike

lemma refl (s : WalletStateCache) : Alike s s :=
  ⟨s.recentFills, s.lastWsEvent, s.tradesApplied, rfl, rfl⟩

lemma applyFill (h : Alike s s') (trade : Trade) :
    Alike (applyFill trade s) (WalletState.applyFill trade s') := by
  obtain ⟨fills, lastWsEvent, tradesApplied, rfl, hfills⟩ := h
  refine ⟨_, _, _, applyFill_withReports fills lastWsEvent tradesApplied trade, ?_⟩
  rw [(applyFill_ledger trade s).1, map_push, map_push, hfills]

lemma reverseFill (h : Alike s s') (tradeId : String) :
    Alike (reverseFill tradeId s) (WalletState.reverseFill tradeId s') := by
  obtain ⟨fills, lastWsEvent, tradesApplied, rfl, hfills⟩ := h
  have hfind : (findFill tradeId s.recentFills).map WalletFill.forget =
      (findFill tradeId fills).map WalletFill.forget := by
    rw [findFill_forget, findFill_forget, hfills]
  have hset : (s.withReports fills lastWsEvent tradesApplied).appliedTradeIdSet =
      s.appliedTradeIdSet := rfl
  by_cases hmem : tradeId ∈ s.appliedTradeIdSet
  · cases hfill : findFill tradeId s.recentFills with
    | none =>
      have hfill' : findFill tradeId fills = none := by
        rw [hfill] at hfind
        simpa using hfind.symm
      refine ⟨fills, lastWsEvent, tradesApplied, ?_, ?_⟩
      · simp [WalletState.reverseFill, WalletStateCache.withReports, hfill, hfill']
      · simpa [WalletState.reverseFill, hfill] using hfills
    | some fill =>
      obtain ⟨fill', hfill', hforget⟩ : ∃ fill', findFill tradeId fills = some fill' ∧
          fill'.forget = fill.forget := by
        rw [hfill] at hfind
        simpa [eq_comm] using hfind
      have htoken : fill'.tokenId = fill.tokenId := by
        show fill'.forget.tokenId = fill.forget.tokenId
        rw [hforget]
      have hunfill : ∀ pos : WalletPosition, pos.unfill fill' = pos.unfill fill := by
        intro pos
        show pos.unfill fill'.forget = pos.unfill fill.forget
        rw [hforget]
      cases hpos : s.positions.get? fill.tokenId with
      | none =>
        refine ⟨fills, lastWsEvent, tradesApplied, ?_, ?_⟩
        · simp [WalletState.reverseFill, WalletStateCache.withReports, hfill, hfill', htoken, hpos]
        · simpa [WalletState.reverseFill, hfill, hpos] using hfills
      | some pos =>
        have hid := tradeId_of_findFill hfill
        have hid' := tradeId_of_findFill hfill'
        have hunsettled : unsettled fill' pos (s.withReports fills lastWsEvent tradesApplied) =
            (unsettled fill pos s).withReports
              (updateFill tradeId ({ · with status := "FAILED" }) fills) lastWsEvent
              tradesApplied := by
          simp only [unsettled, htoken, hunfill, hid, hid']
          rfl
        have hreverse : reverseFill tradeId s =
            dropExited fill.tokenId (pos.unfill fill) (unsettled fill pos s) := by
          simp [WalletState.reverseFill, hmem, hfill, hpos]
        have hreverse' : reverseFill tradeId (s.withReports fills lastWsEvent tradesApplied) =
            dropExited fill.tokenId (pos.unfill fill)
              (unsettled fill' pos (s.withReports fills lastWsEvent tradesApplied)) := by
          simp [WalletState.reverseFill, WalletStateCache.withReports, hmem, hfill', htoken, hpos,
            hunfill]
        refine ⟨updateFill tradeId ({ · with status := "FAILED" }) fills, lastWsEvent,
          tradesApplied, ?_, ?_⟩
        · rw [hreverse', hreverse, hunsettled, dropExited_withReports]
        · have hmark : ∀ f : WalletFill, { f with status := "FAILED" }.forget = f.forget :=
            fun f => rfl
          rw [hreverse, recentFills_dropExited, map_updateFill hmark]
          show (updateFill fill.tradeId _ s.recentFills).map _ = _
          rw [map_updateFill hmark, hfills]
  · refine ⟨fills, lastWsEvent, tradesApplied, ?_, ?_⟩
    · simp [WalletState.reverseFill, hset, hmem]
    · simpa [WalletState.reverseFill, hmem] using hfills

lemma settleTrade (h : Alike s s') (trade : Trade) :
    Alike (settleTrade trade s).1 (WalletState.settleTrade trade s').1 := by
  have hset : s'.appliedTradeIdSet = s.appliedTradeIdSet := by
    obtain ⟨_, _, _, rfl, -⟩ := h
    rfl
  unfold WalletState.settleTrade
  rw [hset]
  split_ifs
  · exact h.reverseFill trade.tradeId
  · exact h.applyFill trade
  · exact h

/-- A report may change the stage of a fill and the counters. -/
lemma report (s : WalletStateCache) (tradeId : String) {f : WalletFill → WalletFill}
    (hf : ∀ fill, (f fill).forget = fill.forget) (lastWsEvent : Option ℚ) (tradesApplied : ℕ) :
    Alike s (s.withReports (updateFill tradeId f s.recentFills) lastWsEvent tradesApplied) :=
  ⟨_, _, _, rfl, (map_updateFill hf _).symm⟩

lemma symm (h : Alike s s') : Alike s' s := by
  obtain ⟨fills, lastWsEvent, tradesApplied, rfl, hfills⟩ := h
  exact ⟨s.recentFills, s.lastWsEvent, s.tradesApplied, rfl, hfills.symm⟩

lemma trans {s'' : WalletStateCache} (h : Alike s s') (h' : Alike s' s'') : Alike s s'' := by
  obtain ⟨fills, lastWsEvent, tradesApplied, rfl, hfills⟩ := h
  obtain ⟨fills', lastWsEvent', tradesApplied', rfl, hfills'⟩ := h'
  exact ⟨fills', lastWsEvent', tradesApplied', rfl, hfills.trans hfills'⟩

end Alike

section Steps

variable (lower upper : String → String)

/-- Apart from the stage of its fill, a report does what its trade does. -/
lemma alike_applyTrade (now : ℚ) {event : TradeEvent}
    (hparse : parseTrade lower upper s.walletAddress event = some trade) :
    Alike (settleTrade trade s).1 (applyTrade lower upper now event s).1 := by
  have hseen : Alike s { s with lastWsEvent := some now } :=
    ⟨s.recentFills, some now, s.tradesApplied, rfl, rfl⟩
  have hsettled := hseen.settleTrade trade
  have hforget : ∀ fill : WalletFill,
      (fill.reach trade.status event.utcnow).forget = fill.forget := fun fill => rfl
  have hreached := Alike.report (settleTrade trade { s with lastWsEvent := some now }).1
    trade.tradeId hforget (settleTrade trade { s with lastWsEvent := some now }).1.lastWsEvent
    ((settleTrade trade { s with lastWsEvent := some now }).1.tradesApplied + 1)
  have heq : (applyTrade lower upper now event s).1 =
      (settleTrade trade { s with lastWsEvent := some now }).1.withReports
        (updateFill trade.tradeId (WalletFill.reach trade.status event.utcnow)
          (settleTrade trade { s with lastWsEvent := some now }).1.recentFills)
        (settleTrade trade { s with lastWsEvent := some now }).1.lastWsEvent
        ((settleTrade trade { s with lastWsEvent := some now }).1.tradesApplied + 1) := by
    simp only [applyTrade, hparse, WalletStateCache.withReports]
  rw [heq]
  exact hsettled.trans hreached

section WithReports

variable (fills : List WalletFill) (lastWsEvent : Option ℚ) (tradesApplied : ℕ)

lemma seedOpen_withReports (row : OpenRow) :
    seedOpen (s.withReports fills lastWsEvent tradesApplied) row =
      (seedOpen s row).withReports fills lastWsEvent tradesApplied := by
  have hpositions : (s.withReports fills lastWsEvent tradesApplied).positions = s.positions := rfl
  by_cases htoken : strip row.tokenId = ""
  · simp only [seedOpen, if_pos htoken]
  · simp only [seedOpen, if_neg htoken, hpositions, put_withReports, track_withReports]

lemma seedClosed_withReports (row : ClosedRow) :
    seedClosed (s.withReports fills lastWsEvent tradesApplied) row =
      (seedClosed s row).withReports fills lastWsEvent tradesApplied := by
  have hpositions : (s.withReports fills lastWsEvent tradesApplied).positions = s.positions := rfl
  by_cases htoken : strip row.tokenId = ""
  · simp only [seedClosed, if_pos htoken]
  · cases hpos : s.positions.get? (strip row.tokenId) with
    | some pos => simp only [seedClosed, if_neg htoken, hpositions, hpos, put_withReports]
    | none =>
      simp only [seedClosed, if_neg htoken, hpositions, hpos, track_withReports, put_withReports]

lemma foldl_withReports {α : Type} {f : WalletStateCache → α → WalletStateCache}
    (hf : ∀ s a, f (WalletStateCache.withReports s fills lastWsEvent tradesApplied) a =
      (f s a).withReports fills lastWsEvent tradesApplied) (l : List α) (s : WalletStateCache) :
    l.foldl f (s.withReports fills lastWsEvent tradesApplied) =
      (l.foldl f s).withReports fills lastWsEvent tradesApplied := by
  induction l generalizing s with
  | nil => rfl
  | cons a l ih => rw [List.foldl_cons, hf, ih, List.foldl_cons]

lemma applySnapshot_withReports (open_ : List OpenRow) (closed : List ClosedRow) :
    applySnapshot open_ closed (s.withReports fills lastWsEvent tradesApplied) =
      (applySnapshot open_ closed s).withReports fills lastWsEvent tradesApplied := by
  have hopen := foldl_withReports fills lastWsEvent tradesApplied
    (fun _ row => seedOpen_withReports fills lastWsEvent tradesApplied row) open_ s
  have hstale : staleTokens (namedTokens (open_.map OpenRow.tokenId))
      ((open_.foldl seedOpen s).withReports fills lastWsEvent tradesApplied) =
      staleTokens (namedTokens (open_.map OpenRow.tokenId)) (open_.foldl seedOpen s) := rfl
  simp only [applySnapshot, hopen, hstale]
  rw [foldl_withReports fills lastWsEvent tradesApplied
      fun _ tokenId => removePosition_withReports fills lastWsEvent tradesApplied tokenId,
    foldl_withReports fills lastWsEvent tradesApplied
      fun _ row => seedClosed_withReports fills lastWsEvent tradesApplied row]

end WithReports

/-- A snapshot changes the positions and their conditions only. -/
def OnlyPositions (s s' : WalletStateCache) : Prop :=
  ∃ positions conditionToTokenIds,
    s' = { s with positions := positions, conditionToTokenIds := conditionToTokenIds }

namespace OnlyPositions

lemma refl (s : WalletStateCache) : OnlyPositions s s :=
  ⟨s.positions, s.conditionToTokenIds, rfl⟩

lemma trans {s'' : WalletStateCache} (h : OnlyPositions s s') (h' : OnlyPositions s' s'') :
    OnlyPositions s s'' := by
  obtain ⟨_, _, rfl⟩ := h
  obtain ⟨positions, conditionToTokenIds, rfl⟩ := h'
  exact ⟨positions, conditionToTokenIds, rfl⟩

lemma track (s : WalletStateCache) (conditionId tokenId : String) :
    OnlyPositions s (s.track conditionId tokenId) := by
  obtain ⟨_, h⟩ := track_eq s conditionId tokenId
  exact ⟨s.positions, _, h⟩

lemma put (s : WalletStateCache) (tokenId : String) (pos : WalletPosition) :
    OnlyPositions s (s.put tokenId pos) := ⟨_, s.conditionToTokenIds, rfl⟩

lemma foldl {α : Type} {f : WalletStateCache → α → WalletStateCache}
    (hf : ∀ s a, OnlyPositions s (f s a)) (l : List α) (s : WalletStateCache) :
    OnlyPositions s (l.foldl f s) := by
  induction l generalizing s with
  | nil => exact refl s
  | cons a l ih => exact (hf s a).trans (ih (f s a))

lemma seedOpen (s : WalletStateCache) (row : OpenRow) : OnlyPositions s (seedOpen s row) := by
  unfold WalletState.seedOpen
  by_cases htoken : strip row.tokenId = ""
  · simpa only [if_pos htoken] using refl s
  · simp only [if_neg htoken]
    exact (put s _ _).trans (track _ _ _)

lemma seedClosed (s : WalletStateCache) (row : ClosedRow) :
    OnlyPositions s (seedClosed s row) := by
  unfold WalletState.seedClosed
  by_cases htoken : strip row.tokenId = ""
  · simpa only [if_pos htoken] using refl s
  · simp only [if_neg htoken]
    split
    · exact put s _ _
    · exact (track s _ _).trans (put _ _ _)

lemma applySnapshot (open_ : List OpenRow) (closed : List ClosedRow) (s : WalletStateCache) :
    OnlyPositions s (applySnapshot open_ closed s) :=
  ((foldl seedOpen open_ s).trans
    (foldl (fun s tokenId => removePosition_eq tokenId s) _ _)).trans (foldl seedClosed closed _)

end OnlyPositions

/-- What an event does not depend on the stages of the fills. -/
lemma Alike.step (h : Alike s s') (event : Event) :
    Alike (step lower upper s event) (WalletState.step lower upper s' event) := by
  cases event with
  | trade now event =>
    have hwallet : s'.walletAddress = s.walletAddress := by
      obtain ⟨_, _, _, rfl, -⟩ := h
      rfl
    cases hparse : parseTrade lower upper s.walletAddress event with
    | none => simpa [WalletState.step, perform, applyTrade, hwallet, hparse] using h
    | some trade =>
      have hleft := alike_applyTrade lower upper now hparse
      have hright := alike_applyTrade lower upper (s := s') now (hwallet ▸ hparse)
      -- Both reports do what the trade does, and the trade does the same to both states.
      exact (hleft.symm.trans (h.settleTrade trade)).trans hright
  | order now event =>
    obtain ⟨fills, lastWsEvent, tradesApplied, rfl, hfills⟩ := h
    cases hparse : parseOrder lower upper s.walletAddress event with
    | none =>
      refine ⟨fills, lastWsEvent, tradesApplied, ?_, ?_⟩
      · simp [WalletState.step, perform, applyOrder, WalletStateCache.withReports, hparse]
      · simpa [WalletState.step, perform, applyOrder, hparse] using hfills
    | some report =>
      refine ⟨fills, some now, tradesApplied, ?_, ?_⟩
      · simp [WalletState.step, perform, applyOrder, WalletStateCache.withReports, hparse]
      · simpa [WalletState.step, perform, applyOrder, hparse] using hfills
  | seed now walletAddress open_ closed succeeded =>
    obtain ⟨fills, lastWsEvent, tradesApplied, rfl, hfills⟩ := h
    refine ⟨fills, lastWsEvent, tradesApplied, ?_, ?_⟩
    · cases succeeded with
      | false => rfl
      | true =>
        exact applySnapshot_withReports fills lastWsEvent tradesApplied
          (s := noteSeed lower now walletAddress true s) open_ closed
    · cases succeeded with
      | false => exact hfills
      | true =>
        obtain ⟨_, _, heq⟩ := OnlyPositions.applySnapshot open_ closed
          (noteSeed lower now walletAddress true s)
        have hkept := congrArg WalletStateCache.recentFills heq
        exact (congrArg (List.map WalletFill.forget) hkept).trans hfills
  | wsState now connected =>
    obtain ⟨fills, lastWsEvent, tradesApplied, rfl, hfills⟩ := h
    exact ⟨fills, lastWsEvent, tradesApplied, rfl, hfills⟩
  | configure walletAddress =>
    obtain ⟨fills, lastWsEvent, tradesApplied, rfl, hfills⟩ := h
    exact ⟨fills, lastWsEvent, tradesApplied, rfl, hfills⟩

lemma Alike.foldl (h : Alike s s') (events : List Event) :
    Alike (events.foldl (WalletState.step lower upper) s)
      (events.foldl (WalletState.step lower upper) s') := by
  induction events generalizing s s' with
  | nil => exact h
  | cons event events ih => exact ih (h.step lower upper event)

/-! ## The ids that are remembered -/

/-- The status of a report of a trade -/
def TradeEvent.stage (event : TradeEvent) : String :=
  upper (strip (if event.status = "" then "MATCHED" else event.status))

/-- The trade that an event reports -/
def reportedId : Event → Option String
  | .trade _ event => some (strip event.id)
  | _ => none

/-- The trades that some events report, each once -/
def reportedIds (events : List Event) : List String := (events.filterMap reportedId).eraseDups

omit s s' trade in
lemma trimApplied_of_le {ids : List String} (h : ids.length ≤ maxRecentFills * 2)
    (applied : List String) : trimApplied applied ids = (applied, ids) := by
  cases applied with
  | nil => rfl
  | cons old rest => rw [trimApplied, if_neg (not_lt.2 h)]

lemma appliedTradeIdSet_step_trade (now : ℚ) {event : TradeEvent}
    (hparse : parseTrade lower upper s.walletAddress event = some trade) :
    (step lower upper s (.trade now event)).appliedTradeIds =
        (settleTrade trade { s with lastWsEvent := some now }).1.appliedTradeIds ∧
      (step lower upper s (.trade now event)).appliedTradeIdSet =
        (settleTrade trade { s with lastWsEvent := some now }).1.appliedTradeIdSet := by
  simp [step, perform, applyTrade, hparse]

/-- An event leaves the ids, forgets one that failed, or adds one. -/
lemma appliedTradeIdSet_step (s : WalletStateCache) (event : Event) :
    (step lower upper s event).appliedTradeIdSet = s.appliedTradeIdSet ∨
      (∃ now report, event = .trade now report ∧ report.stage upper = "FAILED" ∧
        (step lower upper s event).appliedTradeIdSet =
          s.appliedTradeIdSet.erase (strip report.id)) ∨
      ∃ id, reportedId event = some id ∧ id ∉ s.appliedTradeIdSet ∧
        ((step lower upper s event).appliedTradeIds,
            (step lower upper s event).appliedTradeIdSet) =
          trimApplied (push (maxRecentFills * 2) s.appliedTradeIds id)
            (addNew s.appliedTradeIdSet id) := by
  cases event with
  | trade now event =>
    cases hparse : parseTrade lower upper s.walletAddress event with
    | none => exact .inl (by simp [step, perform, applyTrade, hparse])
    | some trade =>
      obtain ⟨hid, -, -, -, -, hstatus⟩ := of_parseTrade lower upper hparse
      obtain ⟨hids, hset⟩ := appliedTradeIdSet_step_trade lower upper now hparse
      rw [hids, hset]
      rcases settleTrade_cases trade { s with lastWsEvent := some now } with
        ⟨hfailed, heq⟩ | ⟨-, hnew, -, heq⟩ | ⟨-, -, heq⟩
      · rw [heq]
        rcases reverseFill_cases trade.tradeId { s with lastWsEvent := some now } with
          hsame | ⟨fill, pos, -, hfill, -, hreverse⟩
        · exact .inl (by rw [hsame])
        · refine .inr (.inl ⟨now, event, rfl, ?_, ?_⟩)
          · exact hstatus.symm.trans hfailed
          · rw [hreverse, appliedTradeIdSet_dropExited, ← hid, ← tradeId_of_findFill hfill]
            rfl
      · refine .inr (.inr ⟨trade.tradeId, congrArg some hid.symm, hnew, ?_⟩)
        rw [heq]
        exact (applyFill_ledger trade _).2.1
      · exact .inl (by rw [heq])
  | order now event =>
    cases hparse : parseOrder lower upper s.walletAddress event with
    | none => exact .inl (by simp [step, perform, applyOrder, hparse])
    | some report => exact .inl (by simp [step, perform, applyOrder, hparse])
  | seed now walletAddress open_ closed succeeded =>
    cases succeeded with
    | false => exact .inl rfl
    | true =>
      obtain ⟨_, _, heq⟩ := OnlyPositions.applySnapshot open_ closed
        (noteSeed lower now walletAddress true s)
      have hkept := congrArg WalletStateCache.appliedTradeIdSet heq
      exact .inl hkept
  | wsState now connected => exact .inl rfl
  | configure walletAddress => exact .inl rfl

lemma trimApplied_sublist (applied ids : List String) :
    (trimApplied applied ids).2.Sublist ids := by
  induction applied generalizing ids with
  | nil => exact List.Sublist.refl ids
  | cons old rest ih =>
    rw [trimApplied]
    split_ifs
    · exact (ih (ids.erase old)).trans List.erase_sublist
    · exact List.Sublist.refl ids

lemma run_snoc (events : List Event) (event : Event) :
    run lower upper (events ++ [event]) = step lower upper (run lower upper events) event := by
  rw [run, List.foldl_append]
  rfl

lemma mem_reportedIds {events : List Event} {id : String} :
    id ∈ reportedIds events ↔ ∃ event ∈ events, reportedId event = some id := by
  rw [reportedIds, List.mem_eraseDups, List.mem_filterMap]

lemma reportedIds_append_left {events : List Event} {id : String} (h : id ∈ reportedIds events)
    (rest : List Event) : id ∈ reportedIds (events ++ rest) := by
  obtain ⟨event, hmem, heq⟩ := mem_reportedIds.1 h
  exact mem_reportedIds.2 ⟨event, List.mem_append_left _ hmem, heq⟩

/-- Fewer events report fewer trades. -/
lemma length_reportedIds_le (events rest : List Event) :
    (reportedIds events).length ≤ (reportedIds (events ++ rest)).length :=
  List.Subperm.length_le
    (List.subperm_of_subset (nodup_eraseDups _) fun _ h => reportedIds_append_left h rest)

/-- The ids that are remembered were reported. -/
lemma appliedTradeIdSet_run (events : List Event) :
    (run lower upper events).appliedTradeIdSet.Nodup ∧
      ∀ id ∈ (run lower upper events).appliedTradeIdSet, id ∈ reportedIds events := by
  induction events using List.reverseRecOn with
  | nil => exact ⟨List.nodup_nil, fun id h => (nomatch h)⟩
  | append_singleton events event ih =>
    obtain ⟨hnodup, hreported⟩ := ih
    have hmono : ∀ id ∈ reportedIds events, id ∈ reportedIds (events ++ [event]) :=
      fun id h => reportedIds_append_left h [event]
    rw [run_snoc]
    rcases appliedTradeIdSet_step lower upper (run lower upper events) event with
      hsame | ⟨now, report, -, -, hsame⟩ | ⟨id, hid, -, hadd⟩
    · rw [hsame]
      exact ⟨hnodup, fun id h => hmono id (hreported id h)⟩
    · rw [hsame]
      exact ⟨hnodup.erase _, fun id h => hmono id (hreported id (List.mem_of_mem_erase h))⟩
    · have hset := congrArg Prod.snd hadd
      simp only at hset
      have hsub := trimApplied_sublist
        (push (maxRecentFills * 2) (run lower upper events).appliedTradeIds id)
        (addNew (run lower upper events).appliedTradeIdSet id)
      rw [← hset] at hsub
      refine ⟨(nodup_addNew hnodup id).sublist hsub, fun id' h => ?_⟩
      rcases mem_addNew.1 (hsub.subset h) with h | rfl
      · exact hmono id' (hreported id' h)
      · exact mem_reportedIds.2 ⟨event, by simp, hid⟩

/-- While no more trades were reported than are remembered, no id rolls out. -/
lemma trimApplied_run {events : List Event} {event : Event} {id : String}
    (hcap : (reportedIds (events ++ [event])).length ≤ maxRecentFills * 2)
    (hid : reportedId event = some id) (applied : List String) :
    trimApplied applied (addNew (run lower upper events).appliedTradeIdSet id) =
      (applied, addNew (run lower upper events).appliedTradeIdSet id) := by
  obtain ⟨hnodup, hreported⟩ := appliedTradeIdSet_run lower upper events
  refine trimApplied_of_le (le_trans (List.Subperm.length_le ?_) hcap) applied
  refine List.subperm_of_subset (nodup_addNew hnodup id) fun x hx => ?_
  rcases mem_addNew.1 hx with hx | rfl
  · exact reportedIds_append_left (hreported x hx) [event]
  · exact mem_reportedIds.2 ⟨event, by simp, hid⟩

/-- While no more trades were reported than are remembered, an applied trade is forgotten only
when it fails. -/
lemma mem_appliedTradeIdSet_step {events : List Event} {event : Event} {id : String}
    (hcap : (reportedIds (events ++ [event])).length ≤ maxRecentFills * 2)
    (hid : id ∈ (run lower upper events).appliedTradeIdSet)
    (hevent : ∀ now report, event = .trade now report → strip report.id = id →
      report.stage upper ≠ "FAILED") :
    id ∈ (run lower upper (events ++ [event])).appliedTradeIdSet := by
  rw [run_snoc]
  rcases appliedTradeIdSet_step lower upper (run lower upper events) event with
    hsame | ⟨now, report, rfl, hfailed, hsame⟩ | ⟨id', hid', -, hadd⟩
  · rwa [hsame]
  · rw [hsame]
    have hne : id ≠ strip report.id := fun heq => hevent now report rfl heq.symm hfailed
    exact (List.mem_erase_of_ne hne).2 hid
  · -- Another trade is applied, and there is room for its id.
    rw [trimApplied_run lower upper hcap hid'] at hadd
    have hset := congrArg Prod.snd hadd
    simp only at hset
    rw [hset]
    exact mem_addNew.2 (.inl hid)

/-- An accepted report of a trade that is not applied yet makes it so. -/
lemma mem_appliedTradeIdSet_of_accepted {events : List Event} {now : ℚ} {report : TradeEvent}
    (hcap : (reportedIds (events ++ [.trade now report])).length ≤ maxRecentFills * 2)
    (haccept : (parseTrade lower upper (run lower upper events).walletAddress report).isSome)
    (hstage : report.stage upper ∈ appliedStatuses) :
    strip report.id ∈ (run lower upper (events ++ [.trade now report])).appliedTradeIdSet := by
  have hnot : report.stage upper ≠ "FAILED" := by
    intro h
    rw [h] at hstage
    revert hstage
    decide
  by_cases hmem : strip report.id ∈ (run lower upper events).appliedTradeIdSet
  · refine mem_appliedTradeIdSet_step lower upper hcap hmem fun now' report' heq _ => ?_
    cases heq
    exact hnot
  · obtain ⟨trade, hparse⟩ := Option.isSome_iff_exists.1 haccept
    obtain ⟨hid, -, -, -, -, hstatus⟩ := of_parseTrade lower upper hparse
    have hstatus' : trade.status = report.stage upper := hstatus
    rw [run_snoc, (appliedTradeIdSet_step_trade lower upper now hparse).2]
    rcases settleTrade_cases trade { run lower upper events with lastWsEvent := some now } with
      ⟨hfailed, -⟩ | ⟨-, -, -, heq⟩ | ⟨-, hsame, -⟩
    · exact absurd (hstatus'.symm.trans hfailed) hnot
    · -- It is applied now, and no id rolls out.
      have hledger := congrArg Prod.snd
        (applyFill_ledger trade { run lower upper events with lastWsEvent := some now }).2.1
      have htrim := trimApplied_run lower upper hcap rfl
        (push (maxRecentFills * 2) (run lower upper events).appliedTradeIds (strip report.id))
      simp only [hid, htrim] at hledger
      rw [heq]
      exact hledger ▸ mem_addNew.2 (.inr rfl)
    · rcases hsame with hsame | hsame
      · exact absurd (hid ▸ hsame) hmem
      · exact absurd (hstatus' ▸ hstage) hsame

/-- It stays so as long as the trade does not fail. -/
lemma mem_appliedTradeIdSet_mid {events : List Event} {id : String} (mid : List Event)
    (hcap : (reportedIds (events ++ mid)).length ≤ maxRecentFills * 2)
    (hid : id ∈ (run lower upper events).appliedTradeIdSet)
    (hmid : ∀ now report, .trade now report ∈ mid → strip report.id = id →
      report.stage upper ≠ "FAILED") :
    id ∈ (run lower upper (events ++ mid)).appliedTradeIdSet := by
  induction mid using List.reverseRecOn with
  | nil => rwa [List.append_nil]
  | append_singleton mid event ih =>
    rw [← List.append_assoc] at hcap ⊢
    have hfewer : (reportedIds (events ++ mid)).length ≤ maxRecentFills * 2 :=
      (length_reportedIds_le (events ++ mid) [event]).trans hcap
    have hbefore := ih hfewer fun now report hmem => hmid now report (List.mem_append_left _ hmem)
    refine mem_appliedTradeIdSet_step lower upper hcap hbefore fun now report heq => ?_
    exact hmid now report (heq ▸ List.mem_append_right _ List.mem_cons_self)

/-- A report of an applied trade changes the stage of its fill only. -/
lemma alike_step_of_applied (now : ℚ) {report : TradeEvent}
    (hid : strip report.id ∈ s.appliedTradeIdSet) (hstage : report.stage upper ≠ "FAILED") :
    Alike s (step lower upper s (.trade now report)) := by
  cases hparse : parseTrade lower upper s.walletAddress report with
  | none => simpa [step, perform, applyTrade, hparse] using Alike.refl s
  | some trade =>
    obtain ⟨htrade, -, -, -, -, hstatus⟩ := of_parseTrade lower upper hparse
    have halike := alike_applyTrade lower upper now hparse
    rcases settleTrade_cases trade s with ⟨hfailed, -⟩ | ⟨-, hnew, -, -⟩ | ⟨-, -, heq⟩
    · exact absurd (hstatus.symm.trans hfailed) hstage
    · exact absurd (htrade ▸ hid) hnew
    · rwa [heq] at halike

/-- In every run in which at most as many trades were reported as the cache remembers, a second
report of a trade that was accepted and has not failed in between makes no difference: whatever
comes later, the positions, the tracked conditions, the orders and the ids of applied trades are
the same as if it had not come. -/
theorem redelivery_harmless (pre mid post : List Event) {now now' : ℚ} {report report' : TradeEvent}
    (hid : strip report'.id = strip report.id)
    (haccept : (parseTrade lower upper (run lower upper pre).walletAddress report).isSome)
    (hstage : report.stage upper ∈ appliedStatuses)
    (hstage' : report'.stage upper ≠ "FAILED")
    (hmid : ∀ now'' report'', .trade now'' report'' ∈ mid → strip report''.id = strip report.id →
      report''.stage upper ≠ "FAILED")
    (hcap : (reportedIds (pre ++ .trade now report :: mid)).length ≤ maxRecentFills * 2) :
    let s := run lower upper (pre ++ .trade now report :: (mid ++ post))
    let s' := run lower upper (pre ++ .trade now report :: (mid ++ .trade now' report' :: post))
    s'.positions = s.positions ∧ s'.conditionToTokenIds = s.conditionToTokenIds ∧
      s'.orders = s.orders ∧ s'.appliedTradeIdSet = s.appliedTradeIdSet := by
  have hevents : pre ++ .trade now report :: mid = (pre ++ [.trade now report]) ++ mid := by simp
  rw [hevents] at hcap
  have hfewer : (reportedIds (pre ++ [.trade now report])).length ≤ maxRecentFills * 2 :=
    (length_reportedIds_le (pre ++ [.trade now report]) mid).trans hcap
  have happlied := mem_appliedTradeIdSet_mid lower upper mid hcap
    (mem_appliedTradeIdSet_of_accepted lower upper hfewer haccept hstage) hmid
  rw [← hid] at happlied
  obtain ⟨fills, lastWsEvent, tradesApplied, heq, -⟩ :=
    (alike_step_of_applied lower upper now' happlied hstage').foldl lower upper post
  have hleft : run lower upper (pre ++ .trade now report :: (mid ++ post)) =
      post.foldl (step lower upper)
        (run lower upper ((pre ++ [.trade now report]) ++ mid)) := by
    simp [run]
  have hright : run lower upper
        (pre ++ .trade now report :: (mid ++ .trade now' report' :: post)) =
      post.foldl (step lower upper) (step lower upper
        (run lower upper ((pre ++ [.trade now report]) ++ mid)) (.trade now' report')) := by
    simp [run]
  rw [hleft, hright, heq]
  exact ⟨rfl, rfl, rfl, rfl⟩

end Steps

/-- A purchase that is reported when it is matched and when it is confirmed, with another one in
between, and a sale behind it. -/
def matched : TradeEvent where
  id := "t1"
  assetId := "yes"
  side := "BUY"
  price := 2 / 5
  size := 10
  matchedAt := 1
  utcnow := 1

theorem redelivery_harmless_confirmed :
    let other : Event := .trade 2 { matched with id := "t2", price := 3 / 5 }
    let again : Event := .trade 3 { matched with status := "CONFIRMED", utcnow := 3 }
    let sale : Event := .trade 4 { matched with id := "t3", side := "SELL", size := 5 }
    let s := run String.toLower String.toUpper ([] ++ .trade 1 matched :: ([other] ++ [sale]))
    let s' := run String.toLower String.toUpper
      ([] ++ .trade 1 matched :: ([other] ++ again :: [sale]))
    s'.positions = s.positions ∧ s'.conditionToTokenIds = s.conditionToTokenIds ∧
      s'.orders = s.orders ∧ s'.appliedTradeIdSet = s.appliedTradeIdSet := by
  refine redelivery_harmless String.toLower String.toUpper [] _ _ rfl (by decide +kernel)
    (by decide +kernel) (by decide +kernel) ?_ (by decide +kernel)
  intro now report hmem hid
  obtain ⟨-, rfl⟩ : now = 2 ∧ report = { matched with id := "t2", price := 3 / 5 } := by
    simpa using hmem
  exact absurd hid (by decide +kernel)

/-! ## The bounds of the memory -/

/-- The bounds that are kept -/
structure Bounded (s : WalletStateCache) : Prop where
  recentFills : s.recentFills.length ≤ maxRecentFills
  appliedTradeIds : s.appliedTradeIds.length ≤ maxRecentFills * 2
  appliedTradeIdSet : s.appliedTradeIdSet.length ≤ maxRecentFills * 2
  orders : s.orders.entries.length ≤ maxTrackedOrders

lemma length_push_le {α : Type} {cap : ℕ} {l : List α} (h : l.length ≤ cap) (x : α) :
    (push cap l x).length ≤ cap := by
  rw [push, List.length_drop, List.length_append, List.length_singleton]
  omega

/-- The newest id is never the one that is rolled out. -/
lemma mem_push_self {α : Type} {cap : ℕ} (hcap : 0 < cap) (l : List α) (x : α) :
    x ∈ push cap l x := by
  rw [push, List.drop_append_of_le_length (by omega)]
  exact List.mem_append_right _ (List.mem_singleton_self x)

lemma length_updateFill (tradeId : String) (f : WalletFill → WalletFill)
    (fills : List WalletFill) : (updateFill tradeId f fills).length = fills.length := by
  induction fills with
  | nil => rfl
  | cons fill fills ih =>
    rw [updateFill]
    split_ifs
    · rfl
    · rw [List.length_cons, List.length_cons, ih]

/-- When one id too many is remembered, the loop comes to an id that it can forget. -/
lemma length_trimApplied {applied ids : List String} {id : String} (happlied : id ∈ applied)
    (hid : id ∈ ids) (hlength : ids.length ≤ maxRecentFills * 2 + 1) :
    (trimApplied applied ids).1.length ≤ applied.length ∧
      (trimApplied applied ids).2.length ≤ maxRecentFills * 2 := by
  induction applied generalizing ids with
  | nil => exact absurd happlied List.not_mem_nil
  | cons old rest ih =>
    rw [trimApplied]
    split_ifs with hfull
    · by_cases hold : old ∈ ids
      · -- One id less is enough.
        have herase : (ids.erase old).length ≤ maxRecentFills * 2 := by
          rw [List.length_erase_of_mem hold]
          omega
        rw [trimApplied_of_le herase]
        exact ⟨Nat.le_succ _, herase⟩
      · -- The id was forgotten before, when its trade failed.
        rw [List.erase_of_not_mem hold]
        have hrest : id ∈ rest := by
          rcases List.mem_cons.1 happlied with rfl | h
          · exact absurd hid hold
          · exact h
        obtain ⟨hshorter, hbound⟩ := ih hrest hid hlength
        exact ⟨hshorter.trans (Nat.le_succ _), hbound⟩
    · exact ⟨le_rfl, not_lt.1 hfull⟩

lemma length_addNew_le {α : Type} [DecidableEq α] (l : List α) (a : α) :
    (addNew l a).length ≤ l.length + 1 := by
  unfold addNew
  split_ifs
  · exact Nat.le_succ _
  · simp

/-- Something is evicted from orders that are there. -/
lemma length_evictTerminalOrder {orders : Dict String WalletOrder}
    (h : orders.entries ≠ []) : (evictTerminalOrder orders).entries.length <
      orders.entries.length := by
  have herase : ∀ e ∈ orders.entries, (orders.erase e.1).entries.length < orders.entries.length :=
    fun e he => List.length_filter_lt_length_iff_exists.2 ⟨e, he, by simp⟩
  unfold evictTerminalOrder
  split
  case h_1 e hfind => exact herase e (List.mem_of_find?_eq_some hfind)
  case h_2 =>
    split
    case h_1 hnil => exact absurd hnil h
    case h_2 e rest hcons => exact herase e (hcons ▸ List.mem_cons_self)

lemma length_set_of_some {orders : Dict String WalletOrder} {id : String} {order : WalletOrder}
    (h : orders.get? id = some order) (order' : WalletOrder) :
    (orders.set id order').entries.length = orders.entries.length := by
  have hkeys := congrArg List.length (Dict.keys_set_of_some h order')
  simpa [Dict.keys] using hkeys

lemma get?_evictTerminalOrder_of_none {orders : Dict String WalletOrder} {id : String}
    (h : orders.get? id = none) : (evictTerminalOrder orders).get? id = none := by
  have herase : ∀ e : String × WalletOrder, (orders.erase e.1).get? id = none := by
    intro e
    rw [Dict.get?_erase, h, ite_self]
  unfold evictTerminalOrder
  split
  · exact herase _
  · split
    · exact h
    · exact herase _

lemma length_recordOrder {orders : Dict String WalletOrder}
    (h : orders.entries.length ≤ maxTrackedOrders) (report : OrderReport) :
    (recordOrder report orders).entries.length ≤ maxTrackedOrders := by
  unfold recordOrder
  cases hget : orders.get? report.orderId with
  | some existing => simpa only [length_set_of_some hget] using h
  | none =>
    by_cases hfull : orders.entries.length ≥ maxTrackedOrders
    · have hne : orders.entries ≠ [] := by
        intro hnil
        rw [hnil] at hfull
        exact absurd hfull (by decide)
      have hevicted := length_evictTerminalOrder hne
      simp only [if_pos hfull]
      rw [Dict.entries_set_of_none (get?_evictTerminalOrder_of_none hget), List.length_append,
        List.length_singleton]
      omega
    · simp only [if_neg hfull]
      rw [Dict.entries_set_of_none hget, List.length_append, List.length_singleton]
      omega

section Steps

variable (lower upper : String → String)

lemma Bounded.settleTrade (h : Bounded s) (trade : Trade) :
    Bounded (settleTrade trade s).1 := by
  rcases settleTrade_cases trade s with ⟨-, heq⟩ | ⟨-, -, -, heq⟩ | ⟨-, -, heq⟩
  · rcases reverseFill_cases trade.tradeId s with hsame | ⟨fill, pos, -, -, -, hreverse⟩
    · simpa only [heq, hsame] using h
    · simp only [heq, hreverse]
      constructor
      case recentFills =>
        rw [recentFills_dropExited]
        exact (length_updateFill _ _ _).trans_le h.recentFills
      case appliedTradeIds => rw [appliedTradeIds_dropExited]; exact h.appliedTradeIds
      case appliedTradeIdSet =>
        rw [appliedTradeIdSet_dropExited]
        exact (List.length_erase_le).trans h.appliedTradeIdSet
      case orders => rw [orders_dropExited]; exact h.orders
  · obtain ⟨hfills, happlied, horders⟩ := applyFill_ledger trade s
    have hids := congrArg Prod.fst happlied
    have hset := congrArg Prod.snd happlied
    simp only at hids hset
    have hcap : 0 < maxRecentFills * 2 := by decide
    have hlength := (length_addNew_le s.appliedTradeIdSet trade.tradeId).trans
      (Nat.succ_le_succ h.appliedTradeIdSet)
    obtain ⟨hshorter, hbound⟩ := length_trimApplied
      (mem_push_self hcap s.appliedTradeIds trade.tradeId) (mem_addNew.2 (.inr rfl)) hlength
    simp only [heq]
    constructor
    case recentFills => rw [hfills]; exact length_push_le h.recentFills _
    case appliedTradeIds => rw [hids]; exact hshorter.trans (length_push_le h.appliedTradeIds _)
    case appliedTradeIdSet => rw [hset]; exact hbound
    case orders => rw [horders]; exact h.orders
  · simpa only [heq] using h

lemma Bounded.step (h : Bounded s) (event : Event) : Bounded (step lower upper s event) := by
  cases event with
  | trade now event =>
    cases hparse : parseTrade lower upper s.walletAddress event with
    | none => simpa [WalletState.step, perform, applyTrade, hparse] using h
    | some trade =>
      have hseen : Bounded { s with lastWsEvent := some now } :=
        ⟨h.recentFills, h.appliedTradeIds, h.appliedTradeIdSet, h.orders⟩
      obtain ⟨hfills, hids, hset, horders⟩ := hseen.settleTrade trade
      simp only [WalletState.step, perform, applyTrade, hparse]
      exact ⟨(length_updateFill _ _ _).trans_le hfills, hids, hset, horders⟩
  | order now event =>
    cases hparse : parseOrder lower upper s.walletAddress event with
    | none => simpa [WalletState.step, perform, applyOrder, hparse] using h
    | some report =>
      simp only [WalletState.step, perform, applyOrder, hparse]
      exact ⟨h.recentFills, h.appliedTradeIds, h.appliedTradeIdSet,
        length_recordOrder h.orders report⟩
  | seed now walletAddress open_ closed succeeded =>
    have hnoted : Bounded (noteSeed lower now walletAddress succeeded s) :=
      ⟨h.recentFills, h.appliedTradeIds, h.appliedTradeIdSet, h.orders⟩
    cases succeeded with
    | false => exact hnoted
    | true =>
      obtain ⟨positions, conditionToTokenIds, heq⟩ := OnlyPositions.applySnapshot open_ closed
        (noteSeed lower now walletAddress true s)
      have hstep : WalletState.step lower upper s (.seed now walletAddress open_ closed true) =
          applySnapshot open_ closed (noteSeed lower now walletAddress true s) := rfl
      rw [hstep, heq]
      exact ⟨hnoted.recentFills, hnoted.appliedTradeIds, hnoted.appliedTradeIdSet, hnoted.orders⟩
  | wsState now connected =>
    exact ⟨h.recentFills, h.appliedTradeIds, h.appliedTradeIdSet, h.orders⟩
  | configure walletAddress =>
    exact ⟨h.recentFills, h.appliedTradeIds, h.appliedTradeIdSet, h.orders⟩

/-- In every run, whatever is reported and however often, the cache remembers at most as many
fills, applied trades and orders as its bounds say. -/
theorem memory_bounded (events : List Event) : Bounded (run lower upper events) := by
  induction events using List.reverseRecOn with
  | nil => constructor <;> exact Nat.zero_le _
  | append_singleton events event ih =>
    rw [run_snoc]
    exact ih.step lower upper event

/-! ## Open orders -/

/-- Only an order with a final status is evicted, as long as there is one. -/
lemma get?_evictTerminalOrder {orders : Dict String WalletOrder} {id : String}
    {order : WalletOrder} (hget : orders.get? id = some order) (hopen : order.isTerminal = false)
    (hterminal : ∃ e ∈ orders.entries, e.2.isTerminal = true) :
    (evictTerminalOrder orders).get? id = some order := by
  obtain ⟨e, he⟩ : ∃ e, orders.entries.find? (fun e => e.2.isTerminal) = some e :=
    Option.isSome_iff_exists.1 (List.find?_isSome.2 hterminal)
  have hfinal : e.2.isTerminal = true := by simpa using List.find?_some he
  have hmem : orders.get? e.1 = some e.2 := Dict.mem_entries.1 (List.mem_of_find?_eq_some he)
  have hne : e.1 ≠ id := by
    intro heq
    rw [heq, hget] at hmem
    rw [← Option.some.inj hmem, hopen] at hfinal
    cases hfinal
  rw [evictTerminalOrder, he]
  simp only
  rw [Dict.get?_erase_of_ne _ hne, hget]

/-- When fewer orders are open than can be tracked, a full table has an order to evict. -/
lemma exists_terminal (hfull : s.orders.entries.length ≥ maxTrackedOrders)
    (hopen : (getOpenOrders s).length < maxTrackedOrders) :
    ∃ e ∈ s.orders.entries, e.2.isTerminal = true := by
  by_contra hnone
  push Not at hnone
  have hall : getOpenOrders s = s.orders.values := by
    refine List.filter_eq_self.2 fun order horder => ?_
    obtain ⟨e, he, rfl⟩ := List.mem_map.1 horder
    simpa using hnone e he
  rw [hall, Dict.values, List.length_map] at hopen
  omega

/-- The order that an event reports -/
def reportedOrder : Event → Option String
  | .order _ event => some (strip event.id)
  | _ => none

lemma orderId_of_parseOrder {wallet : Option String} {event : OrderEvent} {report : OrderReport}
    (h : parseOrder lower upper wallet event = some report) :
    report.orderId = strip event.id := by
  cases hside : parseSide upper event.side with
  | none => simp [parseOrder, hside] at h
  | some side =>
    by_cases hbad : strip event.id = "" ∨ isForeign lower wallet event.owner event.orderOwner ∨
        strip event.assetId = ""
    · simp [parseOrder, hside, hbad] at h
    · simp only [parseOrder, hside, if_neg hbad] at h
      obtain rfl := Option.some.inj h
      rfl

lemma orders_step_of_ne {event : Event} {id : String} {order : WalletOrder}
    (hget : s.orders.get? id = some order) (hopen : order.isTerminal = false)
    (hfew : (getOpenOrders s).length < maxTrackedOrders) (hevent : reportedOrder event ≠ some id) :
    (step lower upper s event).orders.get? id = some order := by
  cases event with
  | trade now event =>
    cases hparse : parseTrade lower upper s.walletAddress event with
    | none => simpa [step, perform, applyTrade, hparse] using hget
    | some trade =>
      have hsettled : (settleTrade trade { s with lastWsEvent := some now }).1.orders =
          s.orders := by
        rcases settleTrade_cases trade { s with lastWsEvent := some now } with
          ⟨-, heq⟩ | ⟨-, -, -, heq⟩ | ⟨-, -, heq⟩
        · rcases reverseFill_cases trade.tradeId { s with lastWsEvent := some now } with
            hsame | ⟨fill, pos, -, -, -, hreverse⟩
          · simp only [heq, hsame]
          · simp only [heq, hreverse, orders_dropExited]
            rfl
        · simp only [heq, (applyFill_ledger trade _).2.2]
        · simp only [heq]
      simpa only [step, perform, applyTrade, hparse, hsettled] using hget
  | order now event =>
    cases hparse : parseOrder lower upper s.walletAddress event with
    | none => simpa [step, perform, applyOrder, hparse] using hget
    | some report =>
      have hne : report.orderId ≠ id := by
        intro heq
        rw [orderId_of_parseOrder lower upper hparse] at heq
        exact hevent (congrArg some heq)
      simp only [step, perform, applyOrder, hparse]
      unfold recordOrder
      split
      · rw [Dict.get?_set_of_ne _ _ hne, hget]
      · simp only
        rw [Dict.get?_set_of_ne _ _ hne]
        split_ifs with hfull
        · -- A full table evicts an order that is not open.
          exact get?_evictTerminalOrder hget hopen (exists_terminal hfull hfew)
        · exact hget
  | seed now walletAddress open_ closed succeeded =>
    cases succeeded with
    | false => exact hget
    | true =>
      obtain ⟨_, _, heq⟩ := OnlyPositions.applySnapshot open_ closed
        (noteSeed lower now walletAddress true s)
      have hkept := congrArg WalletStateCache.orders heq
      exact (congrArg (fun orders => Dict.get? orders id) hkept).trans hget
  | wsState now connected => exact hget
  | configure walletAddress => exact hget

/-- In every run in which fewer orders are open than can be tracked, an order that is open is
tracked until it is reported again: the readers find it with all that was reported of it. -/
theorem openOrder_kept (pre mid : List Event) {id : String} {order : WalletOrder}
    (hget : (run lower upper pre).orders.get? id = some order) (hopen : order.isTerminal = false)
    (hmid : ∀ event ∈ mid, reportedOrder event ≠ some id)
    (hfew : ∀ before, before <+: mid →
      (getOpenOrders (run lower upper (pre ++ before))).length < maxTrackedOrders) :
    (run lower upper (pre ++ mid)).orders.get? id = some order ∧
      order ∈ getOpenOrders (run lower upper (pre ++ mid)) := by
  have hkept : (run lower upper (pre ++ mid)).orders.get? id = some order := by
    induction mid using List.reverseRecOn with
    | nil => rwa [List.append_nil]
    | append_singleton mid event ih =>
      have hbefore := ih (fun event' hmem => hmid event' (List.mem_append_left _ hmem))
        fun before hbefore => hfew before (hbefore.trans (List.prefix_append mid [event]))
      rw [← List.append_assoc, run_snoc]
      exact orders_step_of_ne lower upper hbefore hopen
        (hfew mid (List.prefix_append mid [event]))
        (hmid event (List.mem_append_right _ List.mem_cons_self))
  refine ⟨hkept, List.mem_filter.2 ⟨Dict.mem_values.2 ⟨id, hkept⟩, ?_⟩⟩
  rw [hopen]
  rfl

end Steps

/-- An order that rests on the book, and one that is placed and cancelled behind it. -/
def resting : OrderEvent where
  id := "o1"
  assetId := "yes"
  side := "BUY"
  price := 2 / 5
  originalSize := 10
  sizeMatched := 0
  timestamp := 1

theorem openOrder_kept_resting :
    let placed : Event := .order 2 { resting with id := "o2" }
    let cancelled : Event := .order 3 { resting with id := "o2", orderType := "CANCELLATION" }
    let order : WalletOrder := {
      orderId := "o1", tokenId := "yes", conditionId := "", side := .buy, price := 2 / 5
      originalSize := 10, sizeMatched := 0, status := "PLACEMENT", placedAt := some 1
      lastUpdate := 1 }
    let s := run String.toLower String.toUpper ([.order 1 resting] ++ [placed, cancelled])
    s.orders.get? "o1" = some order ∧ order ∈ getOpenOrders s := by
  refine openOrder_kept String.toLower String.toUpper [.order 1 resting] _ (by decide +kernel)
    (by decide +kernel) (by decide +kernel) ?_
  intro before hbefore
  rw [← List.mem_inits] at hbefore
  revert before
  decide +kernel

end Evosport.Orchestrator.WalletState
