/-
Trades that are taken back.

A trade that was matched may fail on the chain.  The report of the failure finds the fill that the
trade left behind and undoes it, however many reports of other trades have come in between: a
purchase, and a sale of a part, leave the size as it was before.  The sale of everything is
different.  It removes the position, and with it what the undoing would need, so that nothing is
restored until the next snapshot (`failed_restores`).
-/
import Evosport.Orchestrator.WalletReads

namespace Evosport.Orchestrator.WalletState

open Lib

variable {s : WalletStateCache} {trade : Trade}

/-- A trade that is not applied yet is applied at its stage. -/
lemma settleTrade_of_new (hnew : trade.tradeId ∉ s.appliedTradeIdSet)
    (hstage : trade.status ∈ appliedStatuses) :
    settleTrade trade s = (applyFill trade s, true) := by
  have hnot : trade.status ≠ "FAILED" := by
    intro h
    rw [h] at hstage
    exact absurd hstage (by decide)
  rw [settleTrade, if_neg hnot, if_pos ⟨hnew, hstage⟩]

section Events

variable (lower upper : String → String)

/-- Apart from the stages, a report leaves the fills or adds its own. -/
lemma recentFills_step (s : WalletStateCache) (event : Event) :
    (step lower upper s event).recentFills.map WalletFill.forget =
        s.recentFills.map WalletFill.forget ∨
      ∃ now report trade, event = .trade now report ∧
        parseTrade lower upper s.walletAddress report = some trade ∧
        (step lower upper s event).recentFills.map WalletFill.forget =
          push maxRecentFills (s.recentFills.map WalletFill.forget) trade.toFill.forget := by
  cases event with
  | trade now event =>
    cases hparse : parseTrade lower upper s.walletAddress event with
    | none => exact .inl (by simp [step, perform, applyTrade, hparse])
    | some trade =>
      have hreach : ∀ fill : WalletFill,
          (fill.reach trade.status event.utcnow).forget = fill.forget := fun fill => rfl
      have hstep : (step lower upper s (.trade now event)).recentFills.map WalletFill.forget =
          (settleTrade trade { s with lastWsEvent := some now }).1.recentFills.map
            WalletFill.forget := by
        simp only [step, perform, applyTrade, hparse]
        exact map_updateFill hreach _
      rw [hstep]
      rcases settleTrade_cases trade { s with lastWsEvent := some now } with
        ⟨-, heq⟩ | ⟨-, -, -, heq⟩ | ⟨-, -, heq⟩
      · left
        rcases reverseFill_cases trade.tradeId { s with lastWsEvent := some now } with
          hsame | ⟨fill, pos, -, -, -, hreverse⟩
        · rw [heq, hsame]
        · have hmark : ∀ f : WalletFill, { f with status := "FAILED" }.forget = f.forget :=
            fun f => rfl
          rw [heq, hreverse, recentFills_dropExited]
          exact map_updateFill hmark _
      · right
        refine ⟨now, event, trade, rfl, hparse, ?_⟩
        rw [heq, (applyFill_ledger trade _).1, map_push]
      · exact .inl (by rw [heq])
  | order now event =>
    cases hparse : parseOrder lower upper s.walletAddress event with
    | none => exact .inl (by simp [step, perform, applyOrder, hparse])
    | some report => exact .inl (by simp [step, perform, applyOrder, hparse])
  | seed now walletAddress open_ closed succeeded =>
    cases succeeded with
    | false => exact .inl rfl
    | true =>
      obtain ⟨_, _, heq⟩ := OnlyPositions.applySnapshot open_ closed
        (noteSeed lower now walletAddress true s)
      have hkept := congrArg (fun s => s.recentFills.map WalletFill.forget) heq
      exact .inl hkept
  | wsState now connected => exact .inl rfl
  | configure walletAddress => exact .inl rfl

/-- The fills are those of trades that were reported. -/
lemma tradeId_recentFills (events : List Event) :
    ∀ fill ∈ (run lower upper events).recentFills.map WalletFill.forget,
      fill.tradeId ∈ reportedIds events := by
  induction events using List.reverseRecOn with
  | nil => intro fill h; exact absurd h List.not_mem_nil
  | append_singleton events event ih =>
    intro fill hfill
    rw [run_snoc] at hfill
    rcases recentFills_step lower upper (run lower upper events) event with
      hsame | ⟨now, report, trade, rfl, hparse, hpush⟩
    · rw [hsame] at hfill
      exact reportedIds_append_left (ih fill hfill) [event]
    · rw [hpush] at hfill
      rcases mem_push hfill with hold | rfl
      · exact reportedIds_append_left (ih fill hold) _
      · obtain ⟨hid, -⟩ := of_parseTrade lower upper hparse
        refine mem_reportedIds.2 ⟨.trade now report, by simp, ?_⟩
        rw [reportedId, ← hid]
        rfl

end Events

/-! ## The fill of a trade -/

/-- The fill of a trade is the first one with its id, and at most `n` fills have come behind it. -/
def FillAt (trade : Trade) (n : ℕ) (fills : List WalletFill) : Prop :=
  ∃ before after, fills.map WalletFill.forget = before ++ trade.toFill.forget :: after ∧
    (∀ fill ∈ before, fill.tradeId ≠ trade.tradeId) ∧ after.length ≤ n

namespace FillAt

variable {n : ℕ} {fills fills' : List WalletFill}

lemma congr (h : FillAt trade n fills)
    (heq : fills'.map WalletFill.forget = fills.map WalletFill.forget) :
    FillAt trade n fills' := by
  rwa [FillAt, heq]

lemma mono (h : FillAt trade n fills) {m : ℕ} (hm : n ≤ m) : FillAt trade m fills := by
  obtain ⟨before, after, heq, hbefore, hafter⟩ := h
  exact ⟨before, after, heq, hbefore, hafter.trans hm⟩

/-- A fill that is not among the last ones is not yet dropped. -/
lemma push (h : FillAt trade n fills) (hn : n + 2 ≤ maxRecentFills) {fill : WalletFill}
    (heq : fills'.map WalletFill.forget =
      WalletState.push maxRecentFills (fills.map WalletFill.forget) fill) :
    FillAt trade (n + 1) fills' := by
  obtain ⟨before, after, hfills, hbefore, hafter⟩ := h
  have hlength : (fills.map WalletFill.forget).length + 1 - maxRecentFills ≤ before.length := by
    rw [hfills, List.length_append, List.length_cons]
    omega
  refine ⟨before.drop ((fills.map WalletFill.forget).length + 1 - maxRecentFills),
    after ++ [fill], ?_, fun f hf => hbefore f (List.mem_of_mem_drop hf), ?_⟩
  · rw [heq, WalletState.push]
    rw [hfills] at hlength ⊢
    rw [List.append_assoc, List.drop_append_of_le_length hlength]
    rfl
  · rw [List.length_append, List.length_singleton]
    omega

/-- The fill that a new trade leaves behind -/
lemma new (hnew : ∀ fill ∈ fills.map WalletFill.forget, fill.tradeId ≠ trade.tradeId)
    (heq : fills'.map WalletFill.forget =
      WalletState.push maxRecentFills (fills.map WalletFill.forget) trade.toFill.forget) :
    FillAt trade 0 fills' := by
  have hcap : (1 : ℕ) ≤ maxRecentFills := by decide
  refine ⟨(fills.map WalletFill.forget).drop
    ((fills.map WalletFill.forget).length + 1 - maxRecentFills), [], ?_,
    fun f hf => hnew f (List.mem_of_mem_drop hf), le_rfl⟩
  rw [heq, WalletState.push, List.drop_append_of_le_length]
  rw [List.length_map]
  omega

lemma findFill (h : FillAt trade n fills) :
    ∃ fill, WalletState.findFill trade.tradeId fills = some fill ∧
      fill.forget = trade.toFill.forget := by
  obtain ⟨before, after, hfills, hbefore, -⟩ := h
  have hfind := findFill_forget trade.tradeId fills
  have hnone : before.find? (fun fill => decide (fill.tradeId = trade.tradeId)) = none := by
    refine List.find?_eq_none.2 fun fill hfill => ?_
    simpa using hbefore fill hfill
  have hself : (WalletFill.forget trade.toFill).tradeId = trade.tradeId := rfl
  rw [hfills, WalletState.findFill, WalletState.findFill, List.find?_append, hnone,
    Option.none_or, List.find?_cons_of_pos (by simp [hself])] at hfind
  simpa [WalletState.findFill] using hfind

end FillAt

/-! ## From the trade to its failure -/

/-- An event that leaves the position of a trade: another report of the same trade, a report of a
trade of another token, or no report of a trade -/
def Event.LeavesAlone (upper : String → String) (trade : Trade) : Event → Prop
  | .trade _ event => event.stage upper ≠ "FAILED" ∧
      (strip event.id = trade.tradeId ∨ strip event.assetId ≠ trade.tokenId)
  | .seed _ _ _ _ succeeded => succeeded = false
  | _ => True

instance (upper : String → String) (trade : Trade) :
    DecidablePred (Event.LeavesAlone upper trade) := fun event => by
  cases event <;> unfold Event.LeavesAlone <;> infer_instance

section Events

variable (lower upper : String → String)

lemma get?_step_of_leavesAlone {event : Event} (hevent : event.LeavesAlone upper trade)
    (happlied : trade.tradeId ∈ s.appliedTradeIdSet) :
    (step lower upper s event).positions.get? trade.tokenId =
      s.positions.get? trade.tokenId := by
  cases event with
  | trade now event =>
    obtain ⟨hstage, hother⟩ := hevent
    cases hparse : parseTrade lower upper s.walletAddress event with
    | none => simp [step, perform, applyTrade, hparse]
    | some trade' =>
      obtain ⟨hid, -, -, -, -, hstatus⟩ := of_parseTrade lower upper hparse
      obtain ⟨htoken, -⟩ := named_of_parseTrade lower upper hparse
      have hpositions : (step lower upper s (.trade now event)).positions =
          (settleTrade trade' { s with lastWsEvent := some now }).1.positions := by
        simp only [step, perform, applyTrade, hparse]
      rw [hpositions]
      rcases settleTrade_cases trade' { s with lastWsEvent := some now } with
        ⟨hfailed, -⟩ | ⟨-, hnew, -, heq⟩ | ⟨-, -, heq⟩
      · exact absurd (hstatus.symm.trans hfailed) hstage
      · -- A trade of the same id is applied already, so this is one of another token.
        have hne : trade'.tokenId ≠ trade.tokenId := by
          rcases hother with hsame | hne
          · exact absurd happlied (by rwa [hid, hsame] at hnew)
          · rwa [htoken]
        rw [heq, get?_applyFill, if_neg hne]
      · rw [heq]
  | order now event =>
    cases hparse : parseOrder lower upper s.walletAddress event with
    | none => simp [step, perform, applyOrder, hparse]
    | some report => simp [step, perform, applyOrder, hparse]
  | seed now walletAddress open_ closed succeeded =>
    have hfalse : succeeded = false := hevent
    subst hfalse
    rfl
  | wsState now connected => rfl
  | configure walletAddress => rfl

/-- What is there when the failure of a trade is reported: the position as the trade left it, the
trade's id, and its fill. -/
lemma between (pre mid : List Event) {now : ℚ} {report : TradeEvent}
    (hparse : parseTrade lower upper (run lower upper pre).walletAddress report = some trade)
    (hstage : report.stage upper ∈ appliedStatuses)
    (hfresh : trade.tradeId ∉ reportedIds pre)
    (hmid : ∀ event ∈ mid, event.LeavesAlone upper trade)
    (hlength : mid.length < maxRecentFills)
    (hcap : (reportedIds (pre ++ .trade now report :: mid)).length ≤ maxRecentFills * 2) :
    let s := run lower upper (pre ++ .trade now report :: mid)
    s.positions.get? trade.tokenId =
        (applyFill trade (run lower upper pre)).positions.get? trade.tokenId ∧
      trade.tradeId ∈ s.appliedTradeIdSet ∧ FillAt trade mid.length s.recentFills := by
  have hevents : pre ++ .trade now report :: mid = (pre ++ [.trade now report]) ++ mid := by simp
  rw [hevents] at hcap ⊢
  obtain ⟨hid, -, -, -, -, hstatus⟩ := of_parseTrade lower upper hparse
  have hstatus' : trade.status = report.stage upper := hstatus
  have happlied : ∀ before, before <+: mid →
      trade.tradeId ∈ (run lower upper ((pre ++ [.trade now report]) ++ before)).appliedTradeIdSet
      := by
    rintro before ⟨after, rfl⟩
    rw [← List.append_assoc] at hcap
    have hbefore := (length_reportedIds_le _ after).trans hcap
    have haccepted := mem_appliedTradeIdSet_of_accepted lower upper
      ((length_reportedIds_le _ before).trans hbefore)
      (Option.isSome_iff_exists.2 ⟨trade, hparse⟩) hstage
    rw [hid]
    refine mem_appliedTradeIdSet_mid lower upper before hbefore haccepted ?_
    intro now' report' hmem _
    exact (hmid _ (List.mem_append_left _ hmem)).1
  -- The trade is new, so its report applies it.
  have hnew : trade.tradeId ∉ (run lower upper pre).appliedTradeIdSet :=
    fun h => hfresh ((appliedTradeIdSet_run lower upper pre).2 _ h)
  have hfirst : settleTrade trade { run lower upper pre with lastWsEvent := some now } =
      (applyFill trade { run lower upper pre with lastWsEvent := some now }, true) :=
    settleTrade_of_new hnew (hstatus' ▸ hstage)
  have hstep : step lower upper (run lower upper pre) (.trade now report) =
      { applyFill trade { run lower upper pre with lastWsEvent := some now } with
        recentFills := updateFill trade.tradeId (WalletFill.reach trade.status report.utcnow)
          (applyFill trade { run lower upper pre with lastWsEvent := some now }).recentFills
        tradesApplied :=
          (applyFill trade { run lower upper pre with lastWsEvent := some now }).tradesApplied +
            1 } := by
    simp only [step, perform, applyTrade, hparse, hfirst]
  have hreach : ∀ fill : WalletFill,
      (fill.reach trade.status report.utcnow).forget = fill.forget := fun fill => rfl
  have hfill : FillAt trade 0
      (run lower upper (pre ++ [.trade now report])).recentFills := by
    have hadded : (run lower upper (pre ++ [.trade now report])).recentFills.map
        WalletFill.forget = push maxRecentFills
          ((run lower upper pre).recentFills.map WalletFill.forget) trade.toFill.forget := by
      rw [run_snoc, hstep]
      show (updateFill _ _ _).map _ = _
      rw [map_updateFill hreach, (applyFill_ledger trade _).1, map_push]
    refine FillAt.new ?_ hadded
    intro fill hfill heq
    exact hfresh (heq ▸ tradeId_recentFills lower upper pre fill hfill)
  have hposition : (run lower upper (pre ++ [.trade now report])).positions.get? trade.tokenId =
      (applyFill trade (run lower upper pre)).positions.get? trade.tokenId := by
    rw [run_snoc, hstep]
    show (applyFill trade _).positions.get? trade.tokenId = _
    rw [get?_applyFill, get?_applyFill]
    rfl
  refine ⟨?_, happlied mid List.prefix_rfl, ?_⟩
  · clear hcap hlength hevents
    induction mid using List.reverseRecOn with
    | nil => rwa [List.append_nil]
    | append_singleton mid event ih =>
      have hprefix : mid <+: mid ++ [event] := List.prefix_append mid [event]
      have hbefore := ih (fun event' hmem => hmid event' (List.mem_append_left _ hmem))
        fun before hpre => happlied before (hpre.trans hprefix)
      rw [← List.append_assoc, run_snoc, ← hbefore]
      exact get?_step_of_leavesAlone lower upper
        (hmid event (List.mem_append_right _ List.mem_cons_self)) (happlied mid hprefix)
  · clear hcap hevents happlied hmid
    induction mid using List.reverseRecOn with
    | nil => rwa [List.append_nil]
    | append_singleton mid event ih =>
      rw [List.length_append, List.length_singleton] at hlength ⊢
      have hbefore := ih (by omega)
      rw [← List.append_assoc, run_snoc]
      rcases recentFills_step lower upper
          (run lower upper ((pre ++ [.trade now report]) ++ mid)) event with
        hsame | ⟨_, _, trade', -, -, hpush⟩
      · exact (hbefore.congr hsame).mono (Nat.le_succ _)
      · -- One more fill has come behind it, and there is still room for it.
        exact hbefore.push (by omega) hpush

/-- A report of a failure undoes the fill of its trade. -/
lemma get?_step_failed (now : ℚ) {report : TradeEvent} {trade' : Trade} {n : ℕ}
    (hparse : parseTrade lower upper s.walletAddress report = some trade')
    (hid : trade'.tradeId = trade.tradeId) (hfailed : trade'.status = "FAILED")
    (happlied : trade.tradeId ∈ s.appliedTradeIdSet) (hfill : FillAt trade n s.recentFills) :
    (step lower upper s (.trade now report)).positions.get? trade.tokenId =
      (s.positions.get? trade.tokenId).bind fun pos =>
        if (pos.unfill trade.toFill).size ≤ 0 ∧ (pos.unfill trade.toFill).isResolved = false then
          none
        else some (pos.unfill trade.toFill) := by
  obtain ⟨fill, hfind, hforget⟩ := hfill.findFill
  have htoken : fill.tokenId = trade.tokenId := congrArg WalletFill.tokenId hforget
  have hunfill : ∀ pos : WalletPosition, pos.unfill fill = pos.unfill trade.toFill := by
    intro pos
    show pos.unfill fill.forget = pos.unfill trade.toFill.forget
    rw [hforget]
  have hpositions : (step lower upper s (.trade now report)).positions =
      (reverseFill trade.tradeId { s with lastWsEvent := some now }).positions := by
    simp only [step, perform, applyTrade, hparse, settleTrade, if_pos hfailed, hid]
  rw [hpositions]
  cases hpos : s.positions.get? trade.tokenId with
  | none =>
    -- The sale of everything has removed the position: nothing is undone.
    have hsame : reverseFill trade.tradeId { s with lastWsEvent := some now } =
        { s with lastWsEvent := some now } := by
      simp [reverseFill, happlied, hfind, htoken, hpos]
    rw [hsame]
    exact hpos
  | some pos =>
    have hreverse : reverseFill trade.tradeId { s with lastWsEvent := some now } =
        dropExited trade.tokenId (pos.unfill trade.toFill)
          (unsettled fill pos { s with lastWsEvent := some now }) := by
      simp [reverseFill, happlied, hfind, htoken, hpos, hunfill]
    have hunsettled : (unsettled fill pos { s with lastWsEvent := some now }).positions.get?
        trade.tokenId = some (pos.unfill trade.toFill) := by
      show (s.positions.set fill.tokenId (pos.unfill fill)).get? trade.tokenId = _
      rw [htoken, hunfill, Dict.get?_set_self]
    rw [hreverse, get?_dropExited, hunsettled]
    simp

end Events

/-! ## Sizes -/

lemma size_held (trade : Trade) (s : WalletStateCache) :
    (held trade s).size = getPositionSize trade.tokenId s := by
  rw [held, getPositionSize]
  cases s.positions.get? trade.tokenId <;> rfl

lemma size_filled_buy (hside : trade.side = .buy) :
    (filled trade s).size = getPositionSize trade.tokenId s + trade.size := by
  simp only [filled, WalletPosition.fill, hside, size_held]

/-- What is sold of a part is gone. -/
lemma size_filled_sell (hside : trade.side = .sell) (hsize : 0 < trade.size)
    (hpart : trade.size < getPositionSize trade.tokenId s) :
    (filled trade s).size = getPositionSize trade.tokenId s - trade.size := by
  have hpos : getPositionSize trade.tokenId s > 0 := hsize.trans hpart
  have hleft : ¬ getPositionSize trade.tokenId s - trade.size ≤ 0 := by linarith
  simp only [filled, WalletPosition.fill, hside, size_held, if_pos hpos, min_eq_left hpart.le,
    if_neg hleft]

lemma size_filled_exit (hside : trade.side = .sell)
    (hnonneg : 0 ≤ getPositionSize trade.tokenId s)
    (hall : getPositionSize trade.tokenId s ≤ trade.size) :
    (filled trade s).size = 0 := by
  rcases hnonneg.eq_or_lt with hzero | hpos
  · have hnot : ¬ getPositionSize trade.tokenId s > 0 := by rw [← hzero]; exact lt_irrefl 0
    simp only [filled, WalletPosition.fill, hside, size_held, if_neg hnot]
    exact hzero.symm
  · simp only [filled, WalletPosition.fill, hside, size_held, if_pos hpos, min_eq_right hall,
      sub_self, le_refl, if_true]

/-- A purchase is undone while what it bought is still held. -/
lemma size_unfill_buy {pos : WalletPosition} {fill : WalletFill} (hside : fill.side = .buy)
    (hsize : fill.size ≤ pos.size) :
    (pos.unfill fill).size = pos.size - fill.size := by
  simp only [WalletPosition.unfill, hside, min_eq_left hsize]
  by_cases hexit : pos.size - fill.size ≤ 0
  · rw [if_pos hexit]
    exact le_antisymm (by linarith) hexit
  · rw [if_neg hexit]

lemma size_unfill_sell {pos : WalletPosition} {fill : WalletFill} (hside : fill.side = .sell)
    (hsize : 0 ≤ pos.size + fill.size) :
    (pos.unfill fill).size = pos.size + fill.size := by
  simp only [WalletPosition.unfill, hside]
  by_cases hexit : pos.size + fill.size ≤ 0
  · rw [if_pos hexit]
    exact le_antisymm hsize hexit
  · rw [if_neg hexit]

/-- Removing a position that holds nothing does not change what is held. -/
lemma getPositionSize_of_exited {t : String} {pos : WalletPosition}
    (hget : s.positions.get? t =
      if pos.size ≤ 0 ∧ pos.isResolved = false then none else some pos)
    (hnonneg : 0 ≤ pos.size) : getPositionSize t s = pos.size := by
  rw [getPositionSize, hget]
  split_ifs with hexit
  · exact le_antisymm hnonneg hexit.1
  · rfl

section Events

variable (lower upper : String → String)

/-- In every run in which a trade is reported for the first time, then things happen that leave its
position alone, and then the trade is reported to have failed: what was bought is given back and
what was sold of a part is held again, so that the size is the one before the trade.  Only when
everything was sold, and the position is not resolved, nothing comes back. -/
theorem failed_restores (pre mid : List Event) {now now' : ℚ} {report report' : TradeEvent}
    {trade' : Trade}
    (hparse : parseTrade lower upper (run lower upper pre).walletAddress report = some trade)
    (hstage : report.stage upper ∈ appliedStatuses)
    (hfresh : trade.tradeId ∉ reportedIds pre)
    (hmid : ∀ event ∈ mid, event.LeavesAlone upper trade)
    (hlength : mid.length < maxRecentFills)
    (hcap : (reportedIds (pre ++ .trade now report :: mid)).length ≤ maxRecentFills * 2)
    (hparse' : parseTrade lower upper
      (run lower upper (pre ++ .trade now report :: mid)).walletAddress report' = some trade')
    (hid : trade'.tradeId = trade.tradeId) (hfailed : trade'.status = "FAILED")
    (hnonneg : 0 ≤ getPositionSize trade.tokenId (run lower upper pre)) :
    let before := getPositionSize trade.tokenId (run lower upper pre)
    let after := getPositionSize trade.tokenId
      (run lower upper ((pre ++ .trade now report :: mid) ++ [.trade now' report']))
    (trade.side = .buy ∨ trade.size < before → after = before) ∧
      (trade.side = .sell → before ≤ trade.size →
        (run lower upper pre).isResolved trade.tokenId = false → after = 0) := by
  intro before after
  obtain ⟨hposition, happlied, hfill⟩ :=
    between lower upper pre mid hparse hstage hfresh hmid hlength hcap
  have hget := get?_step_failed lower upper now' hparse' hid hfailed happlied hfill
  rw [← run_snoc, hposition, get?_applyFill, if_pos rfl] at hget
  have hsize : 0 < trade.size := by
    obtain ⟨-, -, hsize, -, hpos, -⟩ := of_parseTrade lower upper hparse
    rwa [hsize]
  constructor
  · intro hcase
    have hundone : 0 < (filled trade (run lower upper pre)).size ∧
        ((filled trade (run lower upper pre)).unfill trade.toFill).size = before := by
      cases hside : trade.side with
      | buy =>
        have hbought := size_filled_buy (s := run lower upper pre) hside
        rw [size_unfill_buy hside (by rw [hbought]; exact le_add_of_nonneg_left hnonneg), hbought]
        exact ⟨by linarith, add_sub_cancel_right _ _⟩
      | sell =>
        have hpart : trade.size < before := by
          rcases hcase with hbuy | hpart
          · rw [hside] at hbuy
            cases hbuy
          · exact hpart
        have hsold := size_filled_sell (s := run lower upper pre) hside hsize hpart
        have hback : (filled trade (run lower upper pre)).size + trade.toFill.size = before := by
          rw [hsold]
          exact sub_add_cancel _ _
        rw [size_unfill_sell hside (by rw [hback]; exact hnonneg)]
        refine ⟨?_, hback⟩
        rw [hsold]
        exact sub_pos.2 hpart
    obtain ⟨hheld, hundone⟩ := hundone
    rw [if_neg fun hexit => absurd hexit.1 (not_le.2 hheld), Option.bind_some] at hget
    have hafter := getPositionSize_of_exited hget (by rw [hundone]; exact hnonneg)
    exact hafter.trans hundone
  · intro hside hall hresolved
    have hexit := size_filled_exit hside hnonneg hall
    have hopen : (filled trade (run lower upper pre)).isResolved = false := by
      rw [isResolved_filled, hresolved]
    rw [if_pos ⟨hexit.le, hopen⟩, Option.bind_none] at hget
    show getPositionSize _ _ = _
    rw [getPositionSize, hget]
    rfl

end Events

/-- A purchase and a part of it sold; the sale fails. -/
theorem failed_restores_sale :
    let sale : TradeEvent := { matched with id := "t2", side := "SELL", size := 4 }
    let failed : TradeEvent := { sale with status := "FAILED" }
    let trade : Trade := {
      tradeId := "t2", orderId := "", tokenId := "yes", conditionId := "", side := .sell
      price := 2 / 5, size := 4, status := "MATCHED", matchedAt := 1 }
    let mid : List Event :=
      [.trade 3 { sale with status := "MINED" },
        .trade 4 { matched with id := "t3", assetId := "no" }]
    let before := getPositionSize "yes" (run String.toLower String.toUpper [.trade 1 matched])
    let after := getPositionSize "yes" (run String.toLower String.toUpper
      (([.trade 1 matched] ++ .trade 2 sale :: mid) ++ [.trade 5 failed]))
    (trade.side = .buy ∨ trade.size < before → after = before) ∧
      (trade.side = .sell → before ≤ trade.size →
        (run String.toLower String.toUpper [.trade 1 matched]).isResolved "yes" = false →
          after = 0) := by
  intro sale failed trade mid
  have hparse : parseTrade String.toLower String.toUpper
      (run String.toLower String.toUpper [.trade 1 matched]).walletAddress sale = some trade := by
    decide +kernel
  have hparse' : parseTrade String.toLower String.toUpper
      (run String.toLower String.toUpper ([.trade 1 matched] ++ .trade 2 sale :: mid)).walletAddress
        failed = some { trade with status := "FAILED" } := by
    decide +kernel
  exact failed_restores String.toLower String.toUpper [.trade 1 matched] mid hparse
    (by decide +kernel) (by decide +kernel) (by decide +kernel) (by decide +kernel)
    (by decide +kernel) hparse' rfl rfl (by decide +kernel)

end Evosport.Orchestrator.WalletState
