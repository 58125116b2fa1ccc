/-
What the readers of the wallet's cache rely on.

The feed subscribes to the conditions that the cache tracks, so no position may be held under a
condition that is not tracked (`trackedConditionIds_run`).  A snapshot has the last word about every
position that is not resolved (`snapshot_authoritative`), and a position stays resolved for good
(`isResolved_run`).  A subscriber that reads the cache again when it is told of a change, and at no
other time, is never behind (`watch_current`).
-/
import Evosport.Orchestrator.WalletDelivery

namespace Evosport.Orchestrator.WalletState

open Lib

variable {s s' : WalletStateCache} {tokenId : String} {pos : WalletPosition}

/-! ## The tokens under a condition -/

/-- The tokens that are listed under a condition -/
def WalletStateCache.tokensOf (s : WalletStateCache) (conditionId : String) : List String :=
  s.conditionToTokenIds.getD conditionId []

lemma mem_tokensOf_track {conditionId tokenId c t : String} :
    t ∈ (s.track conditionId tokenId).tokensOf c ↔
      t ∈ s.tokensOf c ∨ conditionId ≠ "" ∧ conditionId = c ∧ t = tokenId := by
  by_cases hempty : conditionId = ""
  · rw [WalletStateCache.track, if_pos hempty]
    simp [hempty]
  · have hmap : (s.track conditionId tokenId).conditionToTokenIds =
        s.conditionToTokenIds.set conditionId (addNew (s.tokensOf conditionId) tokenId) := by
      rw [WalletStateCache.track, if_neg hempty]
      rfl
    rw [WalletStateCache.tokensOf, hmap, Dict.getD_set]
    by_cases hc : conditionId = c
    · subst hc
      simp [hempty, WalletStateCache.tokensOf]
    · simp [hc, WalletStateCache.tokensOf]

/-- The lists are those of a set, none of them empty. -/
structure Listing (m : Dict String (List String)) : Prop where
  nodup : ∀ c ts, m.get? c = some ts → ts.Nodup
  nonempty : ∀ c ts, m.get? c = some ts → ts ≠ []
  named : ∀ c ts, m.get? c = some ts → c ≠ ""

namespace Listing

variable {m : Dict String (List String)}

lemma empty : Listing .empty :=
  ⟨fun _ _ h => (nomatch h), fun _ _ h => (nomatch h), fun _ _ h => (nomatch h)⟩

lemma nodup_getD (h : Listing m) (c : String) : (m.getD c []).Nodup := by
  cases hget : m.get? c with
  | none => simp [Dict.getD, hget]
  | some ts => simpa [Dict.getD, hget] using h.nodup c ts hget

lemma erase (h : Listing m) (c : String) : Listing (m.erase c) := by
  have hold : ∀ c' ts, (m.erase c).get? c' = some ts → m.get? c' = some ts := by
    intro c' ts hget
    rw [Dict.get?_erase] at hget
    split_ifs at hget
    exact hget
  exact ⟨fun c' ts hget => h.nodup c' ts (hold c' ts hget),
    fun c' ts hget => h.nonempty c' ts (hold c' ts hget),
    fun c' ts hget => h.named c' ts (hold c' ts hget)⟩

lemma set (h : Listing m) {c : String} {ts : List String} (hts : ts.Nodup) (hne : ts ≠ [])
    (hc : c ≠ "") : Listing (m.set c ts) := by
  have hold : ∀ c' ts', (m.set c ts).get? c' = some ts' → c' = c ∧ ts' = ts ∨
      m.get? c' = some ts' := by
    intro c' ts' hget
    rw [Dict.get?_set] at hget
    split_ifs at hget with hcc
    · exact .inl ⟨hcc.symm, (Option.some.inj hget).symm⟩
    · exact .inr hget
  constructor
  case nodup =>
    intro c' ts' hget
    rcases hold c' ts' hget with ⟨-, rfl⟩ | hget
    · exact hts
    · exact h.nodup c' ts' hget
  case nonempty =>
    intro c' ts' hget
    rcases hold c' ts' hget with ⟨-, rfl⟩ | hget
    · exact hne
    · exact h.nonempty c' ts' hget
  case named =>
    intro c' ts' hget
    rcases hold c' ts' hget with ⟨rfl, -⟩ | hget
    · exact hc
    · exact h.named c' ts' hget

end Listing

lemma mem_trackedConditionIds (h : Listing s.conditionToTokenIds) {c : String} :
    c ∈ trackedConditionIds s ↔ ∃ t, t ∈ s.tokensOf c := by
  rw [trackedConditionIds, List.mem_mergeSort, Dict.mem_keys]
  constructor
  · rintro ⟨ts, hget⟩
    obtain ⟨t, ht⟩ := List.exists_mem_of_ne_nil ts (h.nonempty c ts hget)
    exact ⟨t, by simpa [WalletStateCache.tokensOf, Dict.getD, hget] using ht⟩
  · rintro ⟨t, ht⟩
    cases hget : s.conditionToTokenIds.get? c with
    | none => simp [WalletStateCache.tokensOf, Dict.getD, hget] at ht
    | some ts => exact ⟨ts, rfl⟩

lemma Listing.track (h : Listing s.conditionToTokenIds) (conditionId tokenId : String) :
    Listing (s.track conditionId tokenId).conditionToTokenIds := by
  unfold WalletStateCache.track
  split_ifs with hempty
  · exact h
  · refine h.set (nodup_addNew (h.nodup_getD conditionId) tokenId) ?_ hempty
    intro hnil
    have hmem : tokenId ∈ addNew (s.conditionToTokenIds.getD conditionId []) tokenId :=
      mem_addNew.2 (.inr rfl)
    rw [hnil] at hmem
    exact absurd hmem List.not_mem_nil

/-- What the removal of a position does to the lists -/
lemma conditionToTokenIds_removePosition (hpos : s.positions.get? tokenId = some pos) :
    (removePosition tokenId s).conditionToTokenIds =
      if pos.conditionId = "" ∨ s.conditionToTokenIds.get? pos.conditionId = none then
        s.conditionToTokenIds
      else if ((s.tokensOf pos.conditionId).erase tokenId).isEmpty then
        s.conditionToTokenIds.erase pos.conditionId
      else s.conditionToTokenIds.set pos.conditionId
        ((s.tokensOf pos.conditionId).erase tokenId) := by
  by_cases hempty : pos.conditionId = ""
  · simp [removePosition, hpos, hempty]
  · cases hget : s.conditionToTokenIds.get? pos.conditionId with
    | none => simp [removePosition, hpos, hempty, hget]
    | some ts =>
      have htokens : s.tokensOf pos.conditionId = ts := by
        simp [WalletStateCache.tokensOf, Dict.getD, hget]
      simp only [removePosition, hpos, hempty, hget, htokens, if_false, false_or, reduceCtorEq]
      split_ifs <;> rfl

lemma Listing.removePosition (h : Listing s.conditionToTokenIds) (tokenId : String) :
    Listing (removePosition tokenId s).conditionToTokenIds := by
  cases hpos : s.positions.get? tokenId with
  | none => simpa [WalletState.removePosition, hpos] using h
  | some pos =>
    rw [conditionToTokenIds_removePosition hpos]
    split_ifs with hempty hlast
    · exact h
    · exact h.erase _
    · rw [not_or] at hempty
      refine h.set ((h.nodup_getD _).erase _) ?_ hempty.1
      exact fun hnil => hlast (List.isEmpty_iff.2 hnil)

/-- A removed position is no longer listed under its condition, all others are. -/
lemma mem_tokensOf_removePosition (h : Listing s.conditionToTokenIds)
    (hpos : s.positions.get? tokenId = some pos) {c t : String} :
    t ∈ (removePosition tokenId s).tokensOf c ↔
      t ∈ s.tokensOf c ∧ ¬ (t = tokenId ∧ pos.conditionId = c) := by
  by_cases hc : pos.conditionId = c
  · subst hc
    have hmem : t ∈ (s.tokensOf pos.conditionId).erase tokenId ↔
        t ∈ s.tokensOf pos.conditionId ∧ ¬ (t = tokenId ∧ pos.conditionId = pos.conditionId) := by
      have hnodup : (s.tokensOf pos.conditionId).Nodup := h.nodup_getD _
      rw [hnodup.mem_erase_iff]
      simp [and_comm]
    rw [← hmem]
    rw [WalletStateCache.tokensOf, conditionToTokenIds_removePosition hpos]
    split_ifs with hempty hlast
    · -- Nothing is listed under no condition.
      have hnone : s.conditionToTokenIds.get? pos.conditionId = none := by
        rcases hempty with hempty | hnone
        · cases hget : s.conditionToTokenIds.get? pos.conditionId with
          | none => rfl
          | some ts => exact absurd hempty (h.named _ ts hget)
        · exact hnone
      simp [WalletStateCache.tokensOf, Dict.getD, hnone]
    · rw [List.isEmpty_iff.1 hlast]
      simp [Dict.getD]
    · simp [Dict.getD]
  · have hsame : (removePosition tokenId s).tokensOf c = s.tokensOf c := by
      rw [WalletStateCache.tokensOf, conditionToTokenIds_removePosition hpos]
      split_ifs
      · rfl
      · rw [Dict.getD, Dict.get?_erase_of_ne _ hc]
        rfl
      · rw [Dict.getD_set, if_neg hc]
        rfl
    rw [hsame]
    simp [hc]

/-! ## Rewriting positions -/

/-- The condition that a token is held under -/
def WalletStateCache.conditionAt (s : WalletStateCache) (tokenId : String) : String :=
  ((s.positions.get? tokenId).map WalletPosition.conditionId).getD ""

/-- All that happens to the positions and their conditions: a position is written under the
condition that comes with it, or under its own, or it is removed. -/
inductive Rewrites (names : String → String → Prop) :
    WalletStateCache → WalletStateCache → Prop
  | same {s s' : WalletStateCache} (hpositions : s'.positions = s.positions)
      (hconditions : s'.conditionToTokenIds = s.conditionToTokenIds) : Rewrites names s s'
  | write (s : WalletStateCache) {c t : String} {pos : WalletPosition} (hnames : names c t)
      (hcondition : pos.conditionId = if c = "" then s.conditionAt t else c) :
      Rewrites names s ((s.track c t).put t pos)
  | remove (s : WalletStateCache) (t : String) : Rewrites names s (removePosition t s)
  | trans {s s' s'' : WalletStateCache} : Rewrites names s s' → Rewrites names s' s'' →
      Rewrites names s s''

/-- Every position that has a condition is listed under it. -/
structure Indexed (s : WalletStateCache) : Prop where
  listing : Listing s.conditionToTokenIds
  listed : ∀ t pos, s.positions.get? t = some pos → pos.conditionId ≠ "" →
    t ∈ s.tokensOf pos.conditionId

/-- Nothing else is listed, when every token has one condition. -/
structure Owned (conditionOf : String → String) (s : WalletStateCache) : Prop where
  own : ∀ t pos, s.positions.get? t = some pos →
    pos.conditionId = "" ∨ pos.conditionId = conditionOf t
  held : ∀ c t, t ∈ s.tokensOf c → ∃ pos, s.positions.get? t = some pos ∧ pos.conditionId = c

lemma conditionAt_of_some (hpos : s.positions.get? tokenId = some pos) :
    s.conditionAt tokenId = pos.conditionId := by
  rw [WalletStateCache.conditionAt, hpos]
  rfl

lemma conditionId_fill (pos : WalletPosition) (side : Side) (price size : ℚ) :
    (pos.fill side price size).conditionId = pos.conditionId := by
  cases side with
  | buy => rfl
  | sell =>
    simp only [WalletPosition.fill]
    split_ifs <;> rfl

lemma conditionId_unfill (pos : WalletPosition) (fill : WalletFill) :
    (pos.unfill fill).conditionId = pos.conditionId := by
  cases hside : fill.side <;> simp only [WalletPosition.unfill, hside] <;> split_ifs <;> rfl

lemma Indexed.rewrites {names : String → String → Prop} (h : Indexed s)
    (hs : Rewrites names s s') : Indexed s' := by
  induction hs with
  | same hpositions hconditions =>
    constructor
    case listing => rw [hconditions]; exact h.listing
    case listed =>
      intro t pos hpos hne
      rw [hpositions] at hpos
      rw [WalletStateCache.tokensOf, hconditions]
      exact h.listed t pos hpos hne
  | write s hnames hcondition =>
    rename_i c t pos
    refine ⟨h.listing.track c t, fun t' pos' hpos' hne => ?_⟩
    rw [positions_put, positions_track, Dict.get?_set] at hpos'
    show t' ∈ (s.track c t).tokensOf pos'.conditionId
    rw [mem_tokensOf_track]
    split_ifs at hpos' with ht
    · subst ht
      obtain rfl := Option.some.inj hpos'
      by_cases hc : c = ""
      · -- The position keeps its condition, so there was one before.
        rw [if_pos hc] at hcondition
        rw [hcondition] at hne ⊢
        cases hold : s.positions.get? t with
        | none => simp [WalletStateCache.conditionAt, hold] at hne
        | some old =>
          rw [conditionAt_of_some hold] at hne ⊢
          exact .inl (h.listed t old hold hne)
      · rw [if_neg hc] at hcondition
        exact .inr ⟨hc, hcondition.symm, rfl⟩
    · exact .inl (h.listed t' pos' hpos' hne)
  | remove s t =>
    -- Another token of the same condition stays listed.
    refine ⟨h.listing.removePosition t, fun t' pos' hpos' hne => ?_⟩
    rw [get?_removePosition] at hpos'
    split_ifs at hpos' with ht
    have hlisted := h.listed t' pos' hpos' hne
    cases hold : s.positions.get? t with
    | none =>
      have hsame : removePosition t s = s := by simp [removePosition, hold]
      rwa [hsame]
    | some old =>
      rw [mem_tokensOf_removePosition h.listing hold]
      exact ⟨hlisted, fun heq => ht heq.1.symm⟩
  | trans _ _ ih ih' => exact ih' (ih h)

lemma Owned.rewrites {conditionOf : String → String} (hindexed : Indexed s)
    (h : Owned conditionOf s)
    (hs : Rewrites (fun c t => c = "" ∨ c = conditionOf t) s s') : Owned conditionOf s' := by
  induction hs with
  | same hpositions hconditions =>
    constructor
    case own => rw [hpositions]; exact h.own
    case held =>
      intro c t hmem
      rw [WalletStateCache.tokensOf, hconditions] at hmem
      rw [hpositions]
      exact h.held c t hmem
  | write s hnames hcondition =>
    rename_i c t pos
    have hown : pos.conditionId = "" ∨ pos.conditionId = conditionOf t := by
      rw [hcondition]
      split_ifs with hc
      · cases hold : s.positions.get? t with
        | none => simp [WalletStateCache.conditionAt, hold]
        | some old => rw [conditionAt_of_some hold]; exact h.own t old hold
      · exact hnames
    constructor
    case own =>
      intro t' pos' hpos'
      rw [positions_put, positions_track, Dict.get?_set] at hpos'
      split_ifs at hpos' with ht
      · subst ht
        exact Option.some.inj hpos' ▸ hown
      · exact h.own t' pos' hpos'
    case held =>
      intro c' t' hmem
      have hmem' : t' ∈ (s.track c t).tokensOf c' := hmem
      rw [positions_put, positions_track, Dict.get?_set]
      rcases mem_tokensOf_track.1 hmem' with hold | ⟨hc, rfl, rfl⟩
      · obtain ⟨old, hpos, hcond⟩ := h.held c' t' hold
        split_ifs with ht
        · -- The token has one condition, which the position keeps.
          subst ht
          refine ⟨pos, rfl, ?_⟩
          have hnamed : c' ≠ "" := by
            cases hget : s.conditionToTokenIds.get? c' with
            | none => simp [WalletStateCache.tokensOf, Dict.getD, hget] at hold
            | some ts => exact hindexed.listing.named c' ts hget
          have hc' : c' = conditionOf t := by
            rcases h.own t old hpos with hempty | hown'
            · exact absurd (hcond.symm.trans hempty) hnamed
            · exact hcond.symm.trans hown'
          rw [hcondition]
          split_ifs with hc
          · rw [conditionAt_of_some hpos, hcond]
          · rcases hnames with hempty | hc''
            · exact absurd hempty hc
            · rw [hc'', hc']
        · exact ⟨old, hpos, hcond⟩
      · rw [if_pos rfl]
        refine ⟨pos, rfl, ?_⟩
        rw [hcondition, if_neg hc]
  | remove s t =>
    constructor
    case own =>
      intro t' pos' hpos'
      rw [get?_removePosition] at hpos'
      split_ifs at hpos'
      exact h.own t' pos' hpos'
    case held =>
      intro c t' hmem
      rw [get?_removePosition]
      cases hold : s.positions.get? t with
      | none =>
        have hsame : removePosition t s = s := by simp [removePosition, hold]
        rw [hsame] at hmem
        obtain ⟨pos', hpos', hcond⟩ := h.held c t' hmem
        have hne : t ≠ t' := by
          rintro rfl
          rw [hold] at hpos'
          cases hpos'
        rw [if_neg hne]
        exact ⟨pos', hpos', hcond⟩
      | some old =>
        obtain ⟨hbefore, hnot⟩ := (mem_tokensOf_removePosition hindexed.listing hold).1 hmem
        obtain ⟨pos', hpos', hcond⟩ := h.held c t' hbefore
        have hne : t ≠ t' := by
          rintro rfl
          rw [hold] at hpos'
          exact hnot ⟨rfl, (Option.some.inj hpos') ▸ hcond⟩
        rw [if_neg hne]
        exact ⟨pos', hpos', hcond⟩
  | trans hfirst _ ih ih' => exact ih' (hindexed.rewrites hfirst) (ih hindexed h)

namespace Rewrites

variable {names : String → String → Prop}

lemma refl (s : WalletStateCache) : Rewrites names s s := .same rfl rfl

/-- A position that is written keeps its condition. -/
lemma put (hempty : ∀ t, names "" t) (hpos : s.positions.get? tokenId = some pos)
    {pos' : WalletPosition} (hcondition : pos'.conditionId = pos.conditionId) :
    Rewrites names s (s.put tokenId pos') := by
  have hkept : pos'.conditionId = if "" = "" then s.conditionAt tokenId else "" := by
    rw [if_pos rfl, conditionAt_of_some hpos, hcondition]
  have hwrite := Rewrites.write s (hempty tokenId) hkept
  rwa [WalletStateCache.track, if_pos rfl] at hwrite

lemma dropExited (s : WalletStateCache) (tokenId : String) (pos : WalletPosition) :
    Rewrites names s (dropExited tokenId pos s) := by
  unfold WalletState.dropExited
  split_ifs
  · exact .remove s tokenId
  · exact .refl s

lemma settled (hempty : ∀ t, names "" t) {trade : Trade}
    (htrade : names trade.conditionId trade.tokenId) (s : WalletStateCache) :
    Rewrites names s (settled trade s) := by
  have hput : Rewrites names s ((noted trade s).put trade.tokenId (filled trade s)) := by
    have hfilled : (filled trade s).conditionId =
        if trade.conditionId = "" then (held trade s).conditionId else trade.conditionId := by
      simp only [filled, conditionId_fill]
    cases hpos : s.positions.get? trade.tokenId with
    | none =>
      have hheld : (held trade s).conditionId = trade.conditionId := by
        rw [held, hpos]
        rfl
      have hnoted : noted trade s = s.track trade.conditionId trade.tokenId := by
        simp [noted, hpos]
      rw [hnoted]
      refine .write s htrade ?_
      rw [hfilled, hheld, WalletStateCache.conditionAt, hpos]
      split_ifs with hc
      · exact hc
      · rfl
    | some pos =>
      have hheld : held trade s = pos := by rw [held, hpos]; rfl
      by_cases hsame : pos.conditionId = trade.conditionId
      · -- The condition is the position's own, so nothing is listed anew.
        have hnoted : noted trade s = s := by simp [noted, hpos, hsame]
        rw [hnoted]
        refine .put hempty hpos ?_
        rw [hfilled, hheld, hsame, ite_self]
      · have hnoted : noted trade s = s.track trade.conditionId trade.tokenId := by
          simp [noted, hpos, hsame]
        rw [hnoted]
        refine .write s htrade ?_
        rw [hfilled, hheld, conditionAt_of_some hpos]
  exact hput.trans (.same rfl rfl)

lemma settleTrade (hempty : ∀ t, names "" t) {trade : Trade}
    (htrade : names trade.conditionId trade.tokenId) (s : WalletStateCache) :
    Rewrites names s (settleTrade trade s).1 := by
  rcases settleTrade_cases trade s with ⟨-, heq⟩ | ⟨-, -, -, heq⟩ | ⟨-, -, heq⟩
  · rw [heq]
    rcases reverseFill_cases trade.tradeId s with hsame | ⟨fill, pos, -, -, hpos, hreverse⟩
    · rw [hsame]
      exact .refl s
    · have hunsettled : Rewrites names s (unsettled fill pos s) :=
        (put hempty hpos (conditionId_unfill pos fill)).trans (.same rfl rfl)
      rw [hreverse]
      exact hunsettled.trans (dropExited _ _ _)
  · rw [heq]
    exact (settled hempty htrade s).trans (dropExited _ _ _)
  · rw [heq]
    exact .refl s

lemma foldl {α : Type} {f : WalletStateCache → α → WalletStateCache} {l : List α}
    (hf : ∀ s, ∀ a ∈ l, Rewrites names s (f s a)) (s : WalletStateCache) :
    Rewrites names s (l.foldl f s) := by
  induction l generalizing s with
  | nil => exact .refl s
  | cons a l ih =>
    exact (hf s a List.mem_cons_self).trans
      (ih (fun s b hb => hf s b (List.mem_cons_of_mem _ hb)) (f s a))

lemma seedOpen {row : OpenRow} (hrow : names (strip row.conditionId) (strip row.tokenId))
    (s : WalletStateCache) : Rewrites names s (seedOpen s row) := by
  unfold WalletState.seedOpen
  by_cases htoken : strip row.tokenId = ""
  · simpa only [if_pos htoken] using refl s
  · simp only [if_neg htoken]
    have hcomm : ∀ p, (s.put (strip row.tokenId) p).track (strip row.conditionId)
        (strip row.tokenId) =
          (s.track (strip row.conditionId) (strip row.tokenId)).put (strip row.tokenId) p := by
      intro p
      unfold WalletStateCache.track
      split_ifs <;> rfl
    rw [hcomm]
    refine .write s hrow ?_
    show (if strip row.conditionId = "" then _ else strip row.conditionId) = _
    split_ifs with hc
    · rw [WalletStateCache.conditionAt]
      cases s.positions.get? (strip row.tokenId) with
      | none => exact hc
      | some pos => rfl
    · rfl

lemma seedClosed (hempty : ∀ t, names "" t) {row : ClosedRow}
    (hrow : names (strip row.conditionId) (strip row.tokenId)) (s : WalletStateCache) :
    Rewrites names s (seedClosed s row) := by
  unfold WalletState.seedClosed
  by_cases htoken : strip row.tokenId = ""
  · simpa only [if_pos htoken] using refl s
  · simp only [if_neg htoken]
    cases hpos : s.positions.get? (strip row.tokenId) with
    | some pos => exact put hempty hpos rfl
    | none =>
      refine .write s hrow ?_
      rw [WalletStateCache.conditionAt, hpos]
      show strip row.conditionId = _
      split_ifs with hc
      · exact hc
      · rfl

lemma applySnapshot (hempty : ∀ t, names "" t) {open_ : List OpenRow} {closed : List ClosedRow}
    (hopen : ∀ row ∈ open_, names (strip row.conditionId) (strip row.tokenId))
    (hclosed : ∀ row ∈ closed, names (strip row.conditionId) (strip row.tokenId))
    (s : WalletStateCache) : Rewrites names s (applySnapshot open_ closed s) := by
  have hpruned : ∀ (stale : List String) (s : WalletStateCache),
      Rewrites names s (stale.foldl (fun s tokenId => removePosition tokenId s) s) :=
    fun stale s => foldl (fun s tokenId _ => .remove s tokenId) s
  have hopened := foldl (fun s row hrow => seedOpen (hopen row hrow) s) s
  exact (hopened.trans (hpruned _ _)).trans
    (foldl (fun s row hrow => seedClosed hempty (hclosed row hrow) s) _)

end Rewrites

/-- The conditions that an event names for its tokens -/
def Event.Names (names : String → String → Prop) : Event → Prop
  | .trade _ event => names (strip event.market) (strip event.assetId)
  | .seed _ _ open_ closed _ =>
    (∀ row ∈ open_, names (strip row.conditionId) (strip row.tokenId)) ∧
      ∀ row ∈ closed, names (strip row.conditionId) (strip row.tokenId)
  | _ => True

section Events

variable (lower upper : String → String)

lemma named_of_parseTrade {wallet : Option String} {event : TradeEvent} {trade : Trade}
    (h : parseTrade lower upper wallet event = some trade) :
    trade.tokenId = strip event.assetId ∧ trade.conditionId = strip event.market := by
  obtain ⟨side, rfl, -, -⟩ := parseTrade_eq_some lower upper h
  exact ⟨rfl, rfl⟩

lemma Rewrites.step {names : String → String → Prop} (hempty : ∀ t, names "" t) {event : Event}
    (hevent : event.Names names) (s : WalletStateCache) :
    Rewrites names s (step lower upper s event) := by
  cases event with
  | trade now event =>
    cases hparse : parseTrade lower upper s.walletAddress event with
    | none => simpa [WalletState.step, perform, applyTrade, hparse] using refl s
    | some trade =>
      obtain ⟨htoken, hcondition⟩ := named_of_parseTrade lower upper hparse
      have htrade : names trade.conditionId trade.tokenId := by
        rw [htoken, hcondition]
        exact hevent
      have hsettled := settleTrade hempty htrade { s with lastWsEvent := some now }
      have hseen : Rewrites names s { s with lastWsEvent := some now } := .same rfl rfl
      refine hseen.trans (hsettled.trans (.same ?_ ?_))
      all_goals simp only [WalletState.step, perform, applyTrade, hparse]
  | order now event =>
    cases hparse : parseOrder lower upper s.walletAddress event with
    | none => simpa [WalletState.step, perform, applyOrder, hparse] using refl s
    | some report =>
      refine .same ?_ ?_
      all_goals simp only [WalletState.step, perform, applyOrder, hparse]
  | seed now walletAddress open_ closed succeeded =>
    have hnoted : Rewrites names s (noteSeed lower now walletAddress succeeded s) := .same rfl rfl
    cases succeeded with
    | false => exact hnoted
    | true =>
      exact hnoted.trans (applySnapshot hempty hevent.1 hevent.2 _)
  | wsState now connected => exact .same rfl rfl
  | configure walletAddress => exact .same rfl rfl

/-- In every run, the condition of every position is tracked; and where all the reports and the
snapshots agree on the condition of a token, nothing is tracked but the conditions of positions. -/
theorem trackedConditionIds_run (events : List Event) :
    (∀ tokenId pos, (run lower upper events).positions.get? tokenId = some pos →
        pos.conditionId ≠ "" → pos.conditionId ∈ trackedConditionIds (run lower upper events)) ∧
      ∀ conditionOf : String → String,
        (∀ event ∈ events, event.Names fun c t => c = "" ∨ c = conditionOf t) →
        ∀ c ∈ trackedConditionIds (run lower upper events), ∃ tokenId pos,
          (run lower upper events).positions.get? tokenId = some pos ∧ pos.conditionId = c := by
  have hinit : Indexed {} := ⟨.empty, fun _ _ h => (nomatch h)⟩
  have hanything : ∀ event : Event, event.Names fun _ _ => True := by
    intro event
    cases event with
    | seed => exact ⟨fun _ _ => trivial, fun _ _ => trivial⟩
    | _ => trivial
  have hindexed : Indexed (run lower upper events) := hinit.rewrites
    (Rewrites.foldl (fun s event _ =>
      Rewrites.step lower upper (fun _ => trivial) (hanything event) s) {})
  constructor
  · intro tokenId pos hpos hne
    exact (mem_trackedConditionIds hindexed.listing).2 ⟨tokenId, hindexed.listed _ _ hpos hne⟩
  · intro conditionOf hevents c hc
    have howned : Owned conditionOf (run lower upper events) :=
      Owned.rewrites hinit ⟨fun _ _ h => (nomatch h), fun _ _ h => (nomatch h)⟩
        (Rewrites.foldl (fun s event hevent =>
          Rewrites.step lower upper (fun _ => .inl rfl) (hevents event hevent) s) {})
    obtain ⟨t, ht⟩ := (mem_trackedConditionIds hindexed.listing).1 hc
    obtain ⟨pos, hpos, hcondition⟩ := howned.held c t ht
    exact ⟨t, pos, hpos, hcondition⟩

end Events

/-! ## Snapshots -/

/-- The last row of a snapshot that names a token -/
def lastNamed (tokenId : String) (open_ : List OpenRow) : Option OpenRow :=
  (open_.filter fun row => strip row.tokenId = tokenId).getLast?

/-- Whether the position of a token is resolved -/
def WalletStateCache.isResolved (s : WalletStateCache) (tokenId : String) : Bool :=
  ((s.positions.get? tokenId).map WalletPosition.isResolved).getD false

lemma isResolved_of_some (hpos : s.positions.get? tokenId = some pos) :
    s.isResolved tokenId = pos.isResolved := by
  rw [WalletStateCache.isResolved, hpos]
  rfl

lemma isResolved_congr {t : String} (h : s'.positions.get? t = s.positions.get? t) :
    s'.isResolved t = s.isResolved t := by
  rw [WalletStateCache.isResolved, h, WalletStateCache.isResolved]

lemma getPositionSize_of_some (hpos : s.positions.get? tokenId = some pos) :
    getPositionSize tokenId s = pos.size := by
  rw [getPositionSize, hpos]
  rfl

/-- What a position cost -/
def costBasis (tokenId : String) (s : WalletStateCache) : ℚ :=
  ((s.positions.get? tokenId).map WalletPosition.costBasisUsd).getD 0

/-- What a row of the open positions does to one position -/
lemma get?_seedOpen (s : WalletStateCache) (row : OpenRow) {t : String} (ht : t ≠ "") :
    (strip row.tokenId ≠ t ∧ (seedOpen s row).positions.get? t = s.positions.get? t) ∨
      strip row.tokenId = t ∧ ∃ pos, (seedOpen s row).positions.get? t = some pos ∧
        pos.size = row.size ∧ pos.costBasisUsd = row.cost ∧
        pos.isResolved = s.isResolved t := by
  by_cases htoken : strip row.tokenId = ""
  · refine .inl ⟨fun heq => ht (heq ▸ htoken), ?_⟩
    simp only [seedOpen, if_pos htoken]
  · simp only [seedOpen, if_neg htoken, positions_track, positions_put]
    by_cases heq : strip row.tokenId = t
    · refine .inr ⟨heq, _, by rw [heq, Dict.get?_set_self], rfl, rfl, ?_⟩
      rw [WalletStateCache.isResolved]
      cases s.positions.get? t <;> rfl
    · exact .inl ⟨heq, Dict.get?_set_of_ne _ _ heq⟩

lemma isResolved_seedOpen (s : WalletStateCache) (row : OpenRow) {t : String} (ht : t ≠ "") :
    (seedOpen s row).isResolved t = s.isResolved t := by
  rcases get?_seedOpen s row ht with ⟨-, hsame⟩ | ⟨-, pos, hpos, -, -, hresolved⟩
  · exact isResolved_congr hsame
  · rw [isResolved_of_some hpos, hresolved]

lemma isResolved_foldl_seedOpen (s : WalletStateCache) (open_ : List OpenRow) {t : String}
    (ht : t ≠ "") : (open_.foldl seedOpen s).isResolved t = s.isResolved t := by
  induction open_ generalizing s with
  | nil => rfl
  | cons row open_ ih => rw [List.foldl_cons, ih, isResolved_seedOpen s row ht]

/-- The last row that names a token counts. -/
lemma get?_foldl_seedOpen (s : WalletStateCache) (open_ : List OpenRow) {t : String}
    (ht : t ≠ "") :
    (lastNamed t open_ = none ∧
        (open_.foldl seedOpen s).positions.get? t = s.positions.get? t) ∨
      ∃ row pos, lastNamed t open_ = some row ∧
        (open_.foldl seedOpen s).positions.get? t = some pos ∧
        pos.size = row.size ∧ pos.costBasisUsd = row.cost := by
  induction open_ using List.reverseRecOn with
  | nil => exact .inl ⟨rfl, rfl⟩
  | append_singleton open_ row ih =>
    rw [List.foldl_append, List.foldl_cons, List.foldl_nil, lastNamed, List.filter_append]
    rcases get?_seedOpen (open_.foldl seedOpen s) row ht with
      ⟨hne, hsame⟩ | ⟨heq, pos, hpos, hsize, hcost, -⟩
    · rw [hsame, List.filter_cons_of_neg (by simpa using hne), List.filter_nil, List.append_nil]
      exact ih
    · -- This row overwrites what an earlier one has said.
      refine .inr ⟨row, pos, ?_, hpos, hsize, hcost⟩
      rw [List.filter_cons_of_pos (by simpa using heq), List.filter_nil, List.getLast?_append]
      rfl

lemma lastNamed_eq_none {t : String} (ht : t ≠ "") {open_ : List OpenRow} :
    lastNamed t open_ = none ↔ t ∉ namedTokens (open_.map OpenRow.tokenId) := by
  rw [lastNamed, List.getLast?_eq_none_iff, List.filter_eq_nil_iff, namedTokens]
  simp only [List.mem_filter, List.mem_map, decide_eq_true_eq]
  constructor
  · rintro h ⟨⟨_, ⟨row, hrow, rfl⟩, heq⟩, -⟩
    exact h row hrow heq
  · rintro h row hrow heq
    exact h ⟨⟨_, ⟨row, hrow, rfl⟩, heq⟩, by simpa using ht⟩

lemma get?_foldl_removePosition (stale : List String) (s : WalletStateCache) (t : String) :
    (stale.foldl (fun s tokenId => removePosition tokenId s) s).positions.get? t =
      if t ∈ stale then none else s.positions.get? t := by
  induction stale generalizing s with
  | nil => simp
  | cons tokenId stale ih =>
    rw [List.foldl_cons, ih, get?_removePosition]
    by_cases hmem : t ∈ stale
    · simp [hmem]
    · by_cases heq : tokenId = t
      · simp [heq]
      · simp [hmem, heq, Ne.symm heq]

lemma mem_staleTokens {seen : List String} {t : String} :
    t ∈ staleTokens seen s ↔ t ∉ seen ∧ ∃ pos, s.positions.get? t = some pos ∧
      pos.isResolved = false ∧ 0 < pos.size := by
  simp only [staleTokens, List.mem_map, List.mem_filter, Prod.exists, Dict.mem_entries,
    decide_eq_true_eq, exists_and_right, exists_eq_right]
  constructor
  · rintro ⟨pos, hpos, hseen, hresolved, hsize⟩
    exact ⟨hseen, pos, hpos, hresolved, hsize⟩
  · rintro ⟨hseen, pos, hpos, hresolved, hsize⟩
    exact ⟨pos, hpos, hseen, hresolved, hsize⟩

/-- What a row of the closed positions does to one position -/
lemma get?_seedClosed (s : WalletStateCache) (row : ClosedRow) {t : String} (ht : t ≠ "") :
    (strip row.tokenId ≠ t ∧ (seedClosed s row).positions.get? t = s.positions.get? t) ∨
      strip row.tokenId = t ∧ ∃ pos, (seedClosed s row).positions.get? t = some pos ∧
        pos.size = getPositionSize t s ∧
        pos.costBasisUsd = costBasis t s ∧ pos.isResolved = true := by
  by_cases htoken : strip row.tokenId = ""
  · refine .inl ⟨fun heq => ht (heq ▸ htoken), ?_⟩
    simp only [seedClosed, if_pos htoken]
  · simp only [seedClosed, if_neg htoken]
    by_cases heq : strip row.tokenId = t
    · subst heq
      refine .inr ⟨rfl, ?_⟩
      cases hpos : s.positions.get? (strip row.tokenId) with
      | some pos =>
        refine ⟨row.write pos, by rw [positions_put, Dict.get?_set_self], ?_, ?_, rfl⟩
        · rw [getPositionSize_of_some hpos]
          rfl
        · rw [costBasis, hpos]
          rfl
      | none =>
        refine ⟨_, by rw [positions_put, Dict.get?_set_self], ?_, ?_, rfl⟩
        · rw [getPositionSize, hpos]
          rfl
        · rw [costBasis, hpos]
          rfl
    · refine .inl ⟨heq, ?_⟩
      cases hpos : s.positions.get? (strip row.tokenId) with
      | some pos => exact Dict.get?_set_of_ne _ _ heq
      | none =>
        simp only [positions_put, positions_track]
        exact Dict.get?_set_of_ne _ _ heq

/-- The closed positions leave what is held and what it cost. -/
lemma foldl_seedClosed (s : WalletStateCache) (closed : List ClosedRow) {t : String}
    (ht : t ≠ "") :
    getPositionSize t (closed.foldl seedClosed s) = getPositionSize t s ∧
      costBasis t (closed.foldl seedClosed s) = costBasis t s ∧
      ((closed.foldl seedClosed s).isResolved t = true ↔
        s.isResolved t = true ∨ ∃ row ∈ closed, strip row.tokenId = t) := by
  induction closed generalizing s with
  | nil => simp
  | cons row closed ih =>
    obtain ⟨hsize, hcost, hresolved⟩ := ih (seedClosed s row)
    rw [List.foldl_cons, hsize, hcost, hresolved]
    rcases get?_seedClosed s row ht with ⟨hne, hsame⟩ | ⟨heq, pos, hpos, hs, hc, hr⟩
    · refine ⟨by rw [getPositionSize, hsame, getPositionSize],
        by rw [costBasis, hsame, costBasis], ?_⟩
      rw [isResolved_congr hsame]
      simp [hne]
    · refine ⟨by rw [getPositionSize_of_some hpos, hs], by rw [costBasis, hpos, ← hc]; rfl, ?_⟩
      rw [isResolved_of_some hpos, hr]
      simp [heq]

/-- The position of a token behind the open positions of a snapshot -/
lemma get?_pruned (s : WalletStateCache) (open_ : List OpenRow) {t : String} (ht : t ≠ "") :
    let seeded := open_.foldl seedOpen s
    let pruned := (staleTokens (namedTokens (open_.map OpenRow.tokenId)) seeded).foldl
      (fun s tokenId => removePosition tokenId s) seeded
    (∃ row pos, lastNamed t open_ = some row ∧ pruned.positions.get? t = some pos ∧
        pos.size = row.size ∧ pos.costBasisUsd = row.cost ∧ pos.isResolved = s.isResolved t) ∨
      lastNamed t open_ = none ∧ pruned.positions.get? t =
        if s.isResolved t = false ∧ 0 < getPositionSize t s then none
        else s.positions.get? t := by
  intro seeded pruned
  have hresolved : seeded.isResolved t = s.isResolved t := isResolved_foldl_seedOpen s open_ ht
  have hpruned : pruned.positions.get? t =
      if t ∈ staleTokens (namedTokens (open_.map OpenRow.tokenId)) seeded then none
      else seeded.positions.get? t := get?_foldl_removePosition _ seeded t
  rcases get?_foldl_seedOpen s open_ ht with ⟨hnone, hsame⟩ | ⟨row, pos, hrow, hpos, hsize, hcost⟩
  · refine .inr ⟨hnone, ?_⟩
    have hunnamed := (lastNamed_eq_none ht).1 hnone
    have hstale : t ∈ staleTokens (namedTokens (open_.map OpenRow.tokenId)) seeded ↔
        s.isResolved t = false ∧ 0 < getPositionSize t s := by
      rw [mem_staleTokens, show seeded.positions.get? t = s.positions.get? t from hsame]
      constructor
      · rintro ⟨-, pos, hpos, hopen, hsize⟩
        rw [isResolved_of_some hpos, getPositionSize_of_some hpos]
        exact ⟨hopen, hsize⟩
      · rintro ⟨hopen, hsize⟩
        cases hpos : s.positions.get? t with
        | none => simp [getPositionSize, hpos] at hsize
        | some pos =>
          rw [isResolved_of_some hpos] at hopen
          rw [getPositionSize_of_some hpos] at hsize
          exact ⟨hunnamed, pos, rfl, hopen, hsize⟩
    rw [hpruned, show seeded.positions.get? t = s.positions.get? t from hsame]
    simp only [hstale]
  · refine .inl ⟨row, pos, hrow, ?_, hsize, hcost, ?_⟩
    · have hnamed : t ∈ namedTokens (open_.map OpenRow.tokenId) := by
        by_contra hnot
        rw [(lastNamed_eq_none ht).2 hnot] at hrow
        cases hrow
      rw [hpruned, if_neg fun hstale => (mem_staleTokens.1 hstale).1 hnamed]
      exact hpos
    · have hat : seeded.positions.get? t = some pos := hpos
      rw [← hresolved, isResolved_of_some hat]

/-- What a snapshot says is what is held: the size and the cost of a token that it names are those
of its last row for it, whatever was derived from the trades; of a holding that it does not name
nothing is left, unless its position is resolved, which keeps its size and its cost. -/
theorem snapshot_authoritative (lower upper : String → String) (s : WalletStateCache) (now : ℚ)
    (walletAddress : String) (open_ : List OpenRow) (closed : List ClosedRow) {t : String}
    (ht : t ≠ "") :
    let s' := step lower upper s (.seed now walletAddress open_ closed true)
    (∀ row, lastNamed t open_ = some row →
        getPositionSize t s' = row.size ∧ costBasis t s' = row.cost) ∧
      (lastNamed t open_ = none →
        getPositionSize t s' =
            (if s.isResolved t then getPositionSize t s else min (getPositionSize t s) 0) ∧
          costBasis t s' =
            if s.isResolved t = false ∧ 0 < getPositionSize t s then 0 else costBasis t s) := by
  intro s'
  set noted := noteSeed lower now walletAddress true s with hnoted
  set seeded := open_.foldl seedOpen noted with hseeded
  set pruned := (staleTokens (namedTokens (open_.map OpenRow.tokenId)) seeded).foldl
    (fun s tokenId => removePosition tokenId s) seeded with hpruned
  have hs' : s' = closed.foldl seedClosed pruned := rfl
  obtain ⟨hsize', hcost', -⟩ := foldl_seedClosed pruned closed ht
  have hsame : noted.positions = s.positions := rfl
  have hheld : getPositionSize t noted = getPositionSize t s := by
    rw [getPositionSize, hsame, getPositionSize]
  have hresolved : noted.isResolved t = s.isResolved t := isResolved_congr (by rw [hsame])
  rw [hs', hsize', hcost']
  rcases get?_pruned noted open_ ht with
    ⟨row, pos, hrow, hpos, hsize, hcost, -⟩ | ⟨hnone, hget⟩
  · have hpos' : pruned.positions.get? t = some pos := hpos
    rw [getPositionSize_of_some hpos', costBasis, hpos', hrow]
    refine ⟨fun row' heq => ?_, fun h => (nomatch h)⟩
    obtain rfl := Option.some.inj heq
    exact ⟨hsize, hcost⟩
  · have hget' : pruned.positions.get? t =
        if s.isResolved t = false ∧ 0 < getPositionSize t s then none
        else s.positions.get? t := by
      rw [← hresolved, ← hheld, ← hsame]
      exact hget
    refine ⟨fun row heq => (nomatch hnone.symm.trans heq), fun _ => ?_⟩
    by_cases hgone : s.isResolved t = false ∧ 0 < getPositionSize t s
    · rw [if_pos hgone] at hget' ⊢
      rw [getPositionSize, costBasis, hget', hgone.1, min_eq_right hgone.2.le]
      exact ⟨rfl, rfl⟩
    · rw [if_neg hgone] at hget' ⊢
      rw [getPositionSize, costBasis, hget']
      refine ⟨?_, rfl⟩
      split
      · rfl
      · next hres =>
        have hnot : ¬ 0 < getPositionSize t s := fun hpositive =>
          hgone ⟨Bool.eq_false_iff.2 hres, hpositive⟩
        exact (min_eq_left (not_lt.1 hnot)).symm

/-- A holding that the snapshot does not have, and one that it corrects -/
theorem snapshot_authoritative_threeTrades :
    let s := run String.toLower String.toUpper threeTrades
    let open_ : List OpenRow := [{ tokenId := "no", size := 7, avgPrice := 1 / 2 }]
    let s' := step String.toLower String.toUpper s (.seed 4 "" open_ [] true)
    (∀ row, lastNamed "yes" open_ = some row →
        getPositionSize "yes" s' = row.size ∧ costBasis "yes" s' = row.cost) ∧
      (lastNamed "yes" open_ = none →
        getPositionSize "yes" s' =
            (if s.isResolved "yes" then getPositionSize "yes" s
              else min (getPositionSize "yes" s) 0) ∧
          costBasis "yes" s' =
            if s.isResolved "yes" = false ∧ 0 < getPositionSize "yes" s then 0
            else costBasis "yes" s) :=
  snapshot_authoritative String.toLower String.toUpper _ 4 "" _ [] (by decide)

/-! ## Resolved positions -/

/-- Whether an event is a snapshot with a token among the closed positions -/
def Event.Closes (t : String) : Event → Prop
  | .seed _ _ _ closed succeeded => succeeded = true ∧ ∃ row ∈ closed, strip row.tokenId = t
  | _ => False

lemma isResolved_fill (pos : WalletPosition) (side : Side) (price size : ℚ) :
    (pos.fill side price size).isResolved = pos.isResolved := by
  cases side with
  | buy => rfl
  | sell =>
    simp only [WalletPosition.fill]
    split_ifs <;> rfl

lemma isResolved_filled (trade : Trade) (s : WalletStateCache) :
    (filled trade s).isResolved = s.isResolved trade.tokenId := by
  simp only [filled, isResolved_fill, held, WalletStateCache.isResolved]
  cases s.positions.get? trade.tokenId <;> rfl

lemma isResolved_applyFill (trade : Trade) (s : WalletStateCache) (t : String) :
    (applyFill trade s).isResolved t = s.isResolved t := by
  have hfilled := isResolved_filled trade s
  rw [WalletStateCache.isResolved, get?_applyFill]
  by_cases heq : trade.tokenId = t
  · subst heq
    rw [if_pos rfl]
    by_cases hexit : (filled trade s).size ≤ 0 ∧ (filled trade s).isResolved = false
    · rw [if_pos hexit, ← hfilled, hexit.2]
      rfl
    · rw [if_neg hexit, ← hfilled]
      rfl
  · rw [if_neg heq, WalletStateCache.isResolved]

lemma isResolved_reverseFill (tradeId : String) (s : WalletStateCache) (t : String) :
    (reverseFill tradeId s).isResolved t = s.isResolved t := by
  rcases reverseFill_cases tradeId s with hsame | ⟨fill, pos, -, -, hpos, hreverse⟩
  · rw [hsame]
  · have hunfill : (pos.unfill fill).isResolved = pos.isResolved := by
      cases hside : fill.side <;> simp only [WalletPosition.unfill, hside] <;> split_ifs <;> rfl
    have hunsettled : (unsettled fill pos s).positions.get? t =
        if fill.tokenId = t then some (pos.unfill fill) else s.positions.get? t :=
      Dict.get?_set _ _ _ _
    rw [hreverse, WalletStateCache.isResolved, get?_dropExited, hunsettled]
    by_cases heq : fill.tokenId = t
    · subst heq
      rw [isResolved_of_some hpos, if_pos rfl]
      by_cases hexit : (pos.unfill fill).size ≤ 0 ∧ (pos.unfill fill).isResolved = false
      · rw [if_pos ⟨rfl, hexit⟩, ← hunfill, hexit.2]
        rfl
      · rw [if_neg fun h => hexit h.2, ← hunfill]
        rfl
    · rw [if_neg fun h => heq h.1, if_neg heq, WalletStateCache.isResolved]

lemma isResolved_pruned (s : WalletStateCache) (open_ : List OpenRow) {t : String} (ht : t ≠ "") :
    ((staleTokens (namedTokens (open_.map OpenRow.tokenId)) (open_.foldl seedOpen s)).foldl
      (fun s tokenId => removePosition tokenId s) (open_.foldl seedOpen s)).isResolved t =
        s.isResolved t := by
  rcases get?_pruned s open_ ht with ⟨row, pos, -, hpos, -, -, hresolved⟩ | ⟨-, hget⟩
  · rw [isResolved_of_some hpos, hresolved]
  · -- Only positions that are not resolved are removed.
    by_cases hstale : s.isResolved t = false ∧ 0 < getPositionSize t s
    · rw [if_pos hstale] at hget
      rw [WalletStateCache.isResolved, hget, hstale.1]
      rfl
    · rw [if_neg hstale] at hget
      exact isResolved_congr hget

section Events

variable (lower upper : String → String)

lemma isResolved_step (s : WalletStateCache) (event : Event) {t : String} (ht : t ≠ "") :
    (step lower upper s event).isResolved t = true ↔ s.isResolved t = true ∨ event.Closes t := by
  cases event with
  | trade now event =>
    simp only [Event.Closes, or_false]
    cases hparse : parseTrade lower upper s.walletAddress event with
    | none => simp [step, perform, applyTrade, hparse]
    | some trade =>
      have hseen : WalletStateCache.isResolved { s with lastWsEvent := some now } t =
          s.isResolved t := rfl
      have hsettled : (settleTrade trade { s with lastWsEvent := some now }).1.isResolved t =
          s.isResolved t := by
        rcases settleTrade_cases trade { s with lastWsEvent := some now } with
          ⟨-, heq⟩ | ⟨-, -, -, heq⟩ | ⟨-, -, heq⟩
        · rw [heq, isResolved_reverseFill, hseen]
        · rw [heq, isResolved_applyFill, hseen]
        · rw [heq, hseen]
      rw [← hsettled]
      simp only [step, perform, applyTrade, hparse]
      rfl
  | order now event =>
    simp only [Event.Closes, or_false]
    cases hparse : parseOrder lower upper s.walletAddress event with
    | none => simp [step, perform, applyOrder, hparse]
    | some report =>
      simp only [step, perform, applyOrder, hparse]
      rfl
  | seed now walletAddress open_ closed succeeded =>
    have hnoted : (noteSeed lower now walletAddress succeeded s).isResolved t = s.isResolved t :=
      rfl
    cases succeeded with
    | false => simp [Event.Closes, step, perform, seedFromRest, hnoted]
    | true =>
      obtain ⟨-, -, hclosed⟩ := foldl_seedClosed
        ((staleTokens (namedTokens (open_.map OpenRow.tokenId))
          (open_.foldl seedOpen (noteSeed lower now walletAddress true s))).foldl
            (fun s tokenId => removePosition tokenId s)
            (open_.foldl seedOpen (noteSeed lower now walletAddress true s))) closed ht
      rw [isResolved_pruned _ open_ ht, hnoted] at hclosed
      simp only [Event.Closes, true_and]
      exact hclosed
  | wsState now connected => simp only [Event.Closes, or_false]; rfl
  | configure walletAddress => simp only [Event.Closes, or_false]; rfl

/-- In every run, the positions that are resolved are those of the tokens that a snapshot had among
its closed positions: neither a trade, nor one that is taken back, nor a later snapshot makes the
cache forget a settlement. -/
theorem isResolved_run (events : List Event) {t : String} (ht : t ≠ "") :
    (run lower upper events).isResolved t = true ↔ ∃ event ∈ events, event.Closes t := by
  induction events using List.reverseRecOn with
  | nil => simp [run, WalletStateCache.isResolved]
  | append_singleton events event ih =>
    rw [run_snoc, isResolved_step lower upper _ event ht, ih]
    simp [or_and_right, exists_or]

end Events

theorem isResolved_run_closed :
    (run String.toLower String.toUpper (threeTrades ++
        [.seed 4 "" [] [{ tokenId := "yes", curPrice := 1 }] true])).isResolved "yes" = true ↔
      ∃ event ∈ threeTrades ++ [.seed 4 "" [] [{ tokenId := "yes", curPrice := 1 }] true],
        event.Closes "yes" :=
  isResolved_run String.toLower String.toUpper _ (by decide)

/-! ## Subscribers -/

/-- What the hot path reads -/
structure View where
  positions : Dict String WalletPosition := .empty
  orders : Dict String WalletOrder := .empty
  wsConnected : Bool := false

/-- What the readers of the wallet see of its state. -/
def WalletStateCache.view (s : WalletStateCache) : View where
  positions := s.positions
  orders := s.orders
  wsConnected := s.wsConnected

section Events

variable (lower upper : String → String)

/-- A subscriber that reads the cache when it is told of a change -/
def watch : WalletStateCache × View → Event → WalletStateCache × View
  | (s, view), event =>
    match perform lower upper s event with
    | (s', none) => (s', view)
    | (s', some _) => (s', s'.view)

/-- What changes without notice is nothing that is read. -/
lemma view_of_silent (s : WalletStateCache) (event : Event)
    (h : (perform lower upper s event).2 = none) :
    (perform lower upper s event).1.view = s.view := by
  cases event with
  | trade now event =>
    cases hparse : parseTrade lower upper s.walletAddress event with
    | none => simp [perform, applyTrade, hparse]
    | some trade =>
      rcases settleTrade_cases trade { s with lastWsEvent := some now } with
        ⟨-, heq⟩ | ⟨-, -, -, heq⟩ | ⟨-, -, heq⟩
      · simp [perform, applyTrade, hparse, heq] at h
      · simp [perform, applyTrade, hparse, heq] at h
      · simp only [perform, applyTrade, hparse, heq]
        rfl
  | order now event =>
    cases hparse : parseOrder lower upper s.walletAddress event with
    | none => simp [perform, applyOrder, hparse]
    | some report => simp [perform, applyOrder, hparse] at h
  | seed now walletAddress open_ closed succeeded =>
    cases succeeded with
    | false => rfl
    | true => simp [perform, seedFromRest] at h
  | wsState now connected =>
    by_cases hsame : connected = s.wsConnected
    · simp [perform, markWsState, WalletStateCache.view, hsame]
    · simp [perform, markWsState, hsame] at h
  | configure walletAddress => rfl

/-- In every run, a subscriber that reads the cache again whenever it is told of a change, and only
then, has the positions, the orders and the state of the connection as they are. -/
theorem watch_current (events : List Event) :
    events.foldl (watch lower upper) ({}, {}) =
      (run lower upper events, (run lower upper events).view) := by
  induction events using List.reverseRecOn with
  | nil => rfl
  | append_singleton events event ih =>
    rw [List.foldl_append, ih, run_snoc, List.foldl_cons, List.foldl_nil]
    have hsilent := view_of_silent lower upper (run lower upper events) event
    simp only [watch, step]
    split
    case h_1 s' hperform =>
      rw [hperform] at hsilent ⊢
      rw [hsilent rfl]
    case h_2 s' change hperform => rw [hperform]

end Events

end Evosport.Orchestrator.WalletState
