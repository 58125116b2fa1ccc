/-
Exposures in the hot state.

The limits of the orchestrator are checked against the exposures of the hot state: those of a
trader, of a market, of a source, of a copied wallet, and of a mode as a whole.  None of them is
computed when it is read.  Each change of an order rebuilds the views of its snapshot and sums up
the gross exposure of its mode anew, and a seed rebuilds every snapshot that it merges.  So the
exposures are the sums over the active orders after every run, whatever is committed meanwhile and
wherever the queries of a seed fall (`exposures_exact`).

A seed is also the only operation that replaces the snapshots.  It merges the orders of the old
ones, so that an order that this process has upserted and not closed is never dropped
(`upserted_stays`).
-/
import Mathlib.Tactic.Ring
import Evosport.Lib.Run
import Evosport.Orchestrator.HotState

namespace Evosport.Orchestrator.HotState

open Lib

/-! ## Tallies -/

/-- A loop that adds the amounts of the elements that count under their names. -/
lemma getD_foldl_tally {α κ : Type} [DecidableEq κ] (counts : α → Prop) [DecidablePred counts]
    (name : α → κ) (amount : α → ℚ) (l : List α) (m : Dict κ ℚ) (k : κ) :
    (l.foldl (fun m e => if counts e then m.set (name e) (m.getD (name e) 0 + amount e) else m)
      m).getD k 0 =
      m.getD k 0 + ((l.filter fun e => decide (counts e ∧ name e = k)).map amount).sum := by
  induction l generalizing m with
  | nil => simp
  | cons e l ih =>
    rw [List.foldl_cons, ih]
    by_cases hcounts : counts e
    · rw [if_pos hcounts, Dict.getD_set]
      by_cases hname : name e = k
      · subst hname
        simp [hcounts, add_assoc]
      · simp [hcounts, hname]
    · simp [hcounts]

/-- A loop that passes over amounts of zero misses nothing. -/
lemma sum_filter_positive {α : Type} (p : α → Prop) [DecidablePred p] (amount : α → ℚ) {l : List α}
    (h : ∀ e ∈ l, 0 ≤ amount e) :
    ((l.filter fun e => decide (0 < amount e ∧ p e)).map amount).sum =
      ((l.filter fun e => decide (p e)).map amount).sum := by
  induction l with
  | nil => rfl
  | cons e l ih =>
    have hrest := ih fun e' he' => h e' (List.mem_cons_of_mem e he')
    simp only [Bool.decide_and] at hrest
    by_cases hp : p e
    · rcases (h e List.mem_cons_self).lt_or_eq with hpos | hzero
      · simp [hp, hpos, hrest]
      · simp [hp, ← hzero, hrest]
    · simp [hp, hrest]

/-- The first map decides, and the second one fills its gaps. -/
lemma get?_setDefaults {ν : Type} (m old : Dict String ν) (k : String) :
    (setDefaults m old).get? k = (m.get? k).or (old.get? k) := by
  show (old.entries.foldl _ m).get? k = (m.get? k).or (Dict.lookup k old.entries)
  generalize old.entries = l
  induction l generalizing m with
  | nil => simp [Dict.lookup]
  | cons e l ih =>
    obtain ⟨k', v⟩ := e
    rw [List.foldl_cons, ih]
    cases hget : m.get? k' with
    | some w =>
      -- the name is taken
      have hcontains : m.contains k' = true := by simp [Dict.contains, hget]
      rw [if_pos hcontains]
      by_cases hk : k' = k
      · subst hk
        simp [hget]
      · simp [Dict.lookup, hk]
    | none =>
      have hcontains : m.contains k' = false := by simp [Dict.contains, hget]
      rw [if_neg (by simp [hcontains]), Dict.get?_set]
      by_cases hk : k' = k
      · subst hk
        simp [Dict.lookup, hget]
      · simp [Dict.lookup, hk]

/-! ## The views of a snapshot -/

namespace Snapshot

/-- The notional of the active orders that meet a condition. -/
def notionalOf (p : TrackedOrder → Prop) [DecidablePred p] (snap : Snapshot) : ℚ :=
  ((snap.activeOrders.values.filter fun o => decide (p o)).map TrackedOrder.notional).sum

lemma notionalOf_nonneg (p : TrackedOrder → Prop) [DecidablePred p] (snap : Snapshot) :
    0 ≤ snap.notionalOf p := by
  refine List.sum_nonneg fun x hx => ?_
  obtain ⟨o, -, rfl⟩ := List.mem_map.1 hx
  exact o.notional_nonneg

/-- The exposures that a snapshot holds are the sums over its active orders.  An order without a
market, a source or a copied wallet counts under no name. -/
structure Viewed (snap : Snapshot) : Prop where
  gross : snap.grossNotional = snap.notionalOf fun _ => True
  market : ∀ marketId ≠ "",
    snap.marketNotional.getD marketId 0 = snap.notionalOf fun o => o.marketId = marketId
  source : ∀ source ≠ "",
    snap.sourceNotional.getD source 0 = snap.notionalOf fun o => o.sourceKey = source
  leader : ∀ wallet ≠ "",
    snap.copyLeaderNotional.getD wallet 0 = snap.notionalOf fun o => o.copyWallet = wallet

/-- The exposure by names, under a name that is not empty. -/
lemma getD_notionalBy (name : TrackedOrder → String) {key : String} (hkey : key ≠ "")
    (orders : List (String × TrackedOrder)) :
    (notionalBy name orders).getD key 0 =
      (((orders.map Prod.snd).filter fun o => decide (name o = key)).map
        TrackedOrder.notional).sum := by
  have hloop : notionalBy name orders = orders.foldl (fun m o =>
      if 0 < o.2.notional ∧ name o.2 ≠ "" then
        m.set (name o.2) (m.getD (name o.2) 0 + o.2.notional)
      else m) Dict.empty := by
    refine congrArg (fun f => orders.foldl f Dict.empty) (funext fun m => funext fun o => ?_)
    rw [addNotional]
    split_ifs <;> first | rfl | simp_all
  have hcounted : ∀ o : String × TrackedOrder,
      ((0 < o.2.notional ∧ name o.2 ≠ "") ∧ name o.2 = key) ↔
        (0 < o.2.notional ∧ name o.2 = key) := by
    intro o
    constructor
    · exact fun h => ⟨h.1.1, h.2⟩
    · exact fun h => ⟨⟨h.1, h.2 ▸ hkey⟩, h.2⟩
  have hsum := sum_filter_positive (fun o : String × TrackedOrder => name o.2 = key)
    (fun o => o.2.notional) fun o (_ : o ∈ orders) => o.2.notional_nonneg
  rw [hloop, getD_foldl_tally, List.filter_map, List.map_map]
  simp only [hcounted]
  exact (zero_add _).trans hsum

lemma viewed_rebuild (snap : Snapshot) : snap.rebuild.Viewed where
  gross := by
    show (snap.activeOrders.entries.map fun o => if 0 < o.2.notional then o.2.notional else 0).sum =
      ((snap.activeOrders.values.filter fun o => decide True).map TrackedOrder.notional).sum
    have hnotional : ∀ o : String × TrackedOrder,
        (if 0 < o.2.notional then o.2.notional else 0) = o.2.notional := by
      intro o
      split
      · rfl
      · next hpos => exact le_antisymm o.2.notional_nonneg (not_lt.1 hpos)
    simp [hnotional, Dict.values, Function.comp_def]
  market marketId hname := getD_notionalBy TrackedOrder.marketId hname _
  source source hname := getD_notionalBy TrackedOrder.sourceKey hname _
  leader wallet hname := getD_notionalBy TrackedOrder.copyWallet hname _

lemma viewed_empty : empty.Viewed := ⟨rfl, fun _ _ => rfl, fun _ _ => rfl, fun _ _ => rfl⟩

/-- What is held of the views depends on the views and the active orders alone. -/
lemma Viewed.gross_eq {snap snap' : Snapshot} (h : snap.Viewed) (h' : snap'.Viewed)
    (horders : snap'.activeOrders = snap.activeOrders) :
    snap'.grossNotional = snap.grossNotional := by
  rw [h.gross, h'.gross, notionalOf, notionalOf, horders]

end Snapshot

namespace Globals

/-! ## Profits leave the views alone -/

lemma activeOrders_startDay (today : ℤ) (snap : Snapshot) :
    (startDay today snap).activeOrders = snap.activeOrders := by
  rw [startDay]
  split
  · rfl
  · rfl

lemma viewed_startDay {today : ℤ} {snap : Snapshot} (h : snap.Viewed) :
    (startDay today snap).Viewed := by
  rw [startDay]
  split
  · exact h
  · exact ⟨h.gross, h.market, h.source, h.leader⟩

lemma activeOrders_bookOutcome (snap : Snapshot) (r : Resolved) :
    (bookOutcome snap r).activeOrders = snap.activeOrders := by
  simp only [bookOutcome]
  split_ifs <;> rfl

lemma viewed_bookOutcome {snap : Snapshot} (h : snap.Viewed) (r : Resolved) :
    (bookOutcome snap r).Viewed := by
  simp only [bookOutcome]
  split_ifs <;> exact ⟨h.gross, h.market, h.source, h.leader⟩

lemma viewed_bookPnl {snap : Snapshot} (h : snap.Viewed) (r : Resolved) :
    (bookPnl snap r).Viewed :=
  ⟨h.gross, h.market, h.source, h.leader⟩

/-! ## The sums over the traders -/

lemma sumOfMode_eq (f : Snapshot → ℚ) (snapshots : Dict Key Snapshot) (mode : String) :
    sumOfMode f snapshots mode =
      snapshots.total fun k snap => if k.2 = mode then f snap else 0 := by
  show ((snapshots.entries.filter _).map _).sum = (snapshots.entries.map _).sum
  generalize snapshots.entries = l
  induction l with
  | nil => rfl
  | cons e l ih =>
    by_cases hmode : e.1.2 = mode
    · simp [hmode, ih]
    · simp [hmode, ih]

/-- Storing a snapshot changes the sum of its own mode by what the snapshot changes. -/
lemma sumOfMode_set {f : Snapshot → ℚ} (hf : f Snapshot.empty = 0) (snapshots : Dict Key Snapshot)
    (k : Key) (snap : Snapshot) (mode : String) :
    sumOfMode f (snapshots.set k snap) mode = sumOfMode f snapshots mode +
      if k.2 = mode then f snap - f (snapshots.getD k Snapshot.empty) else 0 := by
  rw [sumOfMode_eq, sumOfMode_eq, Dict.total_set]
  have hshare : snapshots.share (fun k snap => if k.2 = mode then f snap else 0) k =
      if k.2 = mode then f (snapshots.getD k Snapshot.empty) else 0 := by
    rw [Dict.getD]
    cases hget : snapshots.get? k with
    | none => simp [Dict.share_of_none hget, hf]
    | some old => simp [Dict.share_of_some hget]
  rw [hshare]
  by_cases hmode : k.2 = mode
  · simp only [hmode, if_true]
    ring
  · simp [hmode]

/-- Every snapshot holds its exposures, and every mode the sum over its traders. -/
structure InBooks (s : Globals) : Prop where
  viewed : ∀ k snap, s.snapshots.get? k = some snap → snap.Viewed
  gross : ∀ mode, s.globalGross.getD mode 0 = sumOfMode Snapshot.grossNotional s.snapshots mode

namespace InBooks

variable {s : Globals}

lemma start : empty.InBooks := ⟨fun _ _ h => by simp [empty] at h, fun _ => rfl⟩

lemma snapshot (h : s.InBooks) (k : Key) : (s.snapshot k).Viewed := by
  rw [Globals.snapshot, Dict.getD]
  cases hget : s.snapshots.get? k with
  | none => exact Snapshot.viewed_empty
  | some snap => exact h.viewed k snap hget

lemma viewed_set (h : s.InBooks) {k : Key} {snap : Snapshot} (hsnap : snap.Viewed) :
    ∀ k' snap', (s.snapshots.set k snap).get? k' = some snap' → snap'.Viewed := by
  intro k' snap' hget
  rw [Dict.get?_set] at hget
  split at hget
  · cases hget
    exact hsnap
  · exact h.viewed k' snap' hget

/-- A snapshot is replaced by one with the same active orders. -/
lemma keep (h : s.InBooks) {k : Key} {snap : Snapshot} (hsnap : snap.Viewed)
    (horders : snap.activeOrders = (s.snapshot k).activeOrders) :
    InBooks { s with snapshots := s.snapshots.set k snap } where
  viewed := h.viewed_set hsnap
  gross mode := by
    have hgross : snap.grossNotional = (s.snapshots.getD k Snapshot.empty).grossNotional :=
      (h.snapshot k).gross_eq hsnap horders
    show s.globalGross.getD mode 0 = _
    rw [h.gross, sumOfMode_set rfl, hgross, sub_self, ite_self, add_zero]

/-- A snapshot is replaced, and the gross exposure of its mode is summed up anew. -/
lemma summed (h : s.InBooks) {k : Key} {snap : Snapshot} (hsnap : snap.Viewed) :
    (sumGross { s with snapshots := s.snapshots.set k snap } k.2).InBooks where
  viewed := h.viewed_set hsnap
  gross mode := by
    show (s.globalGross.set k.2 _).getD mode 0 = sumOfMode _ (s.snapshots.set k snap) mode
    rw [Dict.getD_set]
    split
    · next hmode => rw [hmode]
    · next hmode => rw [h.gross, sumOfMode_set rfl, if_neg hmode, add_zero]

lemma addDailyPnl (h : s.InBooks) (mode : String) (today : ℤ) (delta : ℚ) :
    (s.addDailyPnl mode today delta).InBooks :=
  ⟨h.viewed, h.gross⟩

lemma dropActive (h : s.InBooks) (key : Key) (orderId : String) :
    (s.dropActive key orderId).InBooks :=
  h.summed (Snapshot.viewed_rebuild _)

lemma upsertActiveOrder (h : s.InBooks) (u : Upsert) : (s.upsertActiveOrder u).InBooks := by
  simp only [Globals.upsertActiveOrder]
  split
  · exact h.keep (h.snapshot _) rfl
  · exact h.summed (k := (u.traderId, normalizeModeKey u.mode)) (Snapshot.viewed_rebuild _)

lemma recordOrderResolved (h : s.InBooks) (r : Resolved) : (s.recordOrderResolved r).InBooks := by
  have hdropped := h.dropActive (r.traderId, normalizeModeKey r.mode) r.orderId
  simp only [Globals.recordOrderResolved]
  split
  · split
    · exact hdropped
    · refine (hdropped.addDailyPnl _ _ _).keep ?_ ?_
      · exact viewed_bookOutcome (viewed_bookPnl (viewed_startDay (hdropped.snapshot _)) r) r
      · exact (activeOrders_bookOutcome _ r).trans (activeOrders_startDay _ _)
  · exact hdropped

lemma recordOrderCancelled (h : s.InBooks) (traderId mode orderId : String) :
    (s.recordOrderCancelled traderId mode orderId).InBooks := by
  simp only [Globals.recordOrderCancelled]
  split
  · exact h
  · exact h.dropActive _ orderId

lemma updateSignalCursor (h : s.InBooks) (traderId mode : String) (createdAt : Option ℤ)
    (signalId : String) (runtimeSequence : Option ℤ) :
    (s.updateSignalCursor traderId mode createdAt signalId runtimeSequence).InBooks := by
  have hsnap := h.snapshot (traderId, normalizeModeKey mode)
  exact h.keep ⟨hsnap.gross, hsnap.market, hsnap.source, hsnap.leader⟩ rfl

end InBooks

end Globals

/-! ## A seed -/

section Seed

open Globals

/-- All snapshots hold their exposures. -/
def AllViewed (snapshots : Dict Key Snapshot) : Prop :=
  ∀ k snap, snapshots.get? k = some snap → snap.Viewed

lemma AllViewed.mapVal {snapshots : Dict Key Snapshot} {g : Key → Snapshot → Snapshot}
    (h : AllViewed snapshots) (hg : ∀ k snap, snap.Viewed → (g k snap).Viewed) :
    AllViewed (snapshots.mapVal g) := by
  intro k snap hget
  rw [Dict.get?_mapVal, Option.map_eq_some_iff] at hget
  obtain ⟨old, hold, rfl⟩ := hget
  exact hg k old (h k old hold)

lemma AllViewed.set {snapshots : Dict Key Snapshot} (h : AllViewed snapshots) {k : Key}
    {snap : Snapshot} (hsnap : snap.Viewed) : AllViewed (snapshots.set k snap) := by
  intro k' snap' hget
  rw [Dict.get?_set] at hget
  split at hget
  · cases hget
    exact hsnap
  · exact h k' snap' hget

lemma viewed_shadowSnapshots (today todayStart : ℤ) (reads : Reads) :
    AllViewed (shadowSnapshots today todayStart reads) := by
  simp only [shadowSnapshots]
  refine AllViewed.mapVal (AllViewed.mapVal ?_ fun k snap h => ?_) fun k snap h => ?_
  · -- all that the two tables built is rebuilt first
    intro k snap hget
    rw [Dict.get?_mapVal, Option.map_eq_some_iff] at hget
    obtain ⟨built, -, rfl⟩ := hget
    exact built.viewed_rebuild
  · exact ⟨h.gross, h.market, h.source, h.leader⟩
  · split
    · exact h
    · exact ⟨h.gross, h.market, h.source, h.leader⟩

lemma viewed_mergeOld {shadow : Dict Key Snapshot} (h : AllViewed shadow) (today : ℤ)
    (e : Key × Snapshot) : AllViewed (mergeOld today shadow e) := by
  rw [mergeOld]
  split
  · exact h.set (Snapshot.viewed_rebuild _)
  · split
    · exact h.set (Snapshot.viewed_rebuild _)
    · exact h

/-- The gross exposure of a mode after a seed: snapshots without exposure add nothing. -/
lemma getD_grossByMode {snapshots : Dict Key Snapshot} (h : AllViewed snapshots) (mode : String) :
    (grossByMode snapshots).getD mode 0 =
      sumOfMode Snapshot.grossNotional snapshots mode := by
  have hnonneg : ∀ e ∈ snapshots.entries, 0 ≤ e.2.grossNotional := by
    intro e he
    rw [(h e.1 e.2 (Dict.mem_entries.1 he)).gross]
    exact e.2.notionalOf_nonneg _
  rw [grossByMode, getD_foldl_tally, sumOfMode]
  exact (zero_add _).trans (sum_filter_positive (fun e : Key × Snapshot => e.1.2 = mode)
    (fun e => e.2.grossNotional) hnonneg)

lemma inBooks_seedFromDb (today todayStart : ℤ) (reads : Reads) (old : Globals) :
    (seedFromDb today todayStart reads old).InBooks := by
  have hviewed : AllViewed (old.snapshots.entries.foldl (mergeOld today)
      (shadowSnapshots today todayStart reads)) :=
    foldl_invariant (I := AllViewed) (fun _ e h => viewed_mergeOld h today e)
      (viewed_shadowSnapshots today todayStart reads) old.snapshots.entries
  exact ⟨hviewed, getD_grossByMode hviewed⟩

end Seed

/-! ## Runs -/

namespace World

/-- Before anything is committed, and before the first seed. -/
def start : World := ⟨Database.empty, Globals.empty, none⟩

/-- Every action keeps the books; the database is not part of them. -/
lemma inBooks_step {s : World} (h : s.hot.InBooks) (a : Action) : (s.step a).hot.InBooks := by
  cases a with
  | commitOrder orderId row => exact h
  | commitTables positions wallet cursors => exact h
  | upsert u => exact h.upsertActiveOrder u
  | resolved r => exact h.recordOrderResolved r
  | cancelled traderId mode orderId => exact h.recordOrderCancelled traderId mode orderId
  | cursor traderId mode createdAt signalId runtimeSequence =>
    exact h.updateSignalCursor traderId mode createdAt signalId runtimeSequence
  | beginSeed now =>
    simp only [step]
    split <;> exact h
  | query => exact h
  | endSeed =>
    simp only [step]
    split
    · exact h
    · split
      · exact h
      · exact inBooks_seedFromDb _ _ _ s.hot

end World

/-- What the readers of the hot state are told is the sum over the active orders: of a trader, of
its orders from one source or copied from one wallet, and over all traders of a mode, of its orders
in one market or all of them. -/
structure ExposuresExact (s : Globals) : Prop where
  trader : ∀ traderId mode, s.getTraderGrossExposure traderId mode =
    (s.snapshot (traderId, normalizeModeKey mode)).notionalOf fun _ => True
  source : ∀ traderId source mode, source ≠ "" → s.getTraderSourceExposure traderId source mode =
    (s.snapshot (traderId, normalizeModeKey mode)).notionalOf fun o => o.sourceKey = source
  leader : ∀ traderId wallet mode, wallet ≠ "" → s.getCopyLeaderExposure traderId wallet mode =
    (s.snapshot (traderId, normalizeModeKey mode)).notionalOf fun o => o.copyWallet = wallet
  market : ∀ marketId mode, marketId ≠ "" → s.getMarketExposure marketId mode =
    Globals.sumOfMode (Snapshot.notionalOf fun o => o.marketId = marketId) s.snapshots
      (normalizeModeKey mode)
  gross : ∀ mode, s.getGrossExposure mode =
    Globals.sumOfMode (Snapshot.notionalOf fun _ => True) s.snapshots (normalizeModeKey mode)

/-- Functions that agree on the snapshots have the same sum. -/
lemma sumOfMode_congr {f g : Snapshot → ℚ} {s : Globals} (h : s.InBooks)
    (hfg : ∀ snap : Snapshot, snap.Viewed → f snap = g snap) (mode : String) :
    Globals.sumOfMode f s.snapshots mode = Globals.sumOfMode g s.snapshots mode := by
  refine congrArg List.sum (List.map_congr_left fun e he => ?_)
  exact hfg e.2 (h.viewed e.1 e.2 (Dict.mem_entries.1 (List.mem_filter.1 he).1))

/-- After every run of commits, of upserts, closures and cursor updates by this process, and of
seeds whose queries fall anywhere between them, the exposures are exact. -/
theorem exposures_exact (actions : List Action) :
    ExposuresExact (actions.foldl World.step World.start).hot := by
  have h : (actions.foldl World.step World.start).hot.InBooks :=
    foldl_invariant (I := fun s : World => s.hot.InBooks) (fun _ a hs => World.inBooks_step hs a)
      Globals.InBooks.start actions
  constructor
  · exact fun traderId mode => (h.snapshot _).gross
  · exact fun traderId source mode hname => (h.snapshot _).source source hname
  · exact fun traderId wallet mode hname => (h.snapshot _).leader wallet hname
  · exact fun marketId mode hname =>
      sumOfMode_congr h (fun snap hsnap => hsnap.market marketId hname) _
  · exact fun mode => (h.gross _).trans (sumOfMode_congr h (fun snap hsnap => hsnap.gross) _)

/-! ## What was upserted stays -/

/-- The order is among the active ones of the trader and the mode. -/
def Active (key : Key) (orderId : String) (snapshots : Dict Key Snapshot) : Prop :=
  ∃ snap, snapshots.get? key = some snap ∧ snap.activeOrders.get? orderId ≠ none

section Stays

open Globals

variable {key : Key} {orderId : String} {snapshots : Dict Key Snapshot}

lemma Active.set (h : Active key orderId snapshots) {k : Key} {snap : Snapshot}
    (hsnap : k = key → snap.activeOrders.get? orderId ≠ none) :
    Active key orderId (snapshots.set k snap) := by
  by_cases hk : k = key
  · subst hk
    exact ⟨snap, Dict.get?_set_self _ _ _, hsnap rfl⟩
  · obtain ⟨old, hget, hold⟩ := h
    exact ⟨old, by rw [Dict.get?_set_of_ne _ _ hk, hget], hold⟩

lemma Active.snapshot {s : Globals} (h : Active key orderId s.snapshots) :
    (s.snapshot key).activeOrders.get? orderId ≠ none := by
  obtain ⟨snap, hget, hsnap⟩ := h
  rwa [Globals.snapshot, Dict.getD, hget]

lemma activeOrders_mergePnl (old snap : Snapshot) :
    (mergePnl old snap).activeOrders = snap.activeOrders :=
  foldl_invariant (I := fun s : Snapshot => s.activeOrders = snap.activeOrders)
    (fun s e hs => by
      split
      · exact hs
      · exact hs) rfl old.dailyRealizedOrderPnl.entries

/-- The orders of both snapshots are in the merged one. -/
lemma activeOrders_mergeSnapshot (today : ℤ) (old snap : Snapshot) :
    (mergeSnapshot today old snap).activeOrders =
      setDefaults snap.activeOrders old.activeOrders := by
  show Snapshot.activeOrders (if _ then _ else _) = _
  split
  · show (mergePnl old _).activeOrders = _
    rw [activeOrders_mergePnl]
    split
    · rfl
    · rfl
  · rfl

lemma Active.mergeOld (h : Active key orderId snapshots) (today : ℤ) (e : Key × Snapshot) :
    Active key orderId (mergeOld today snapshots e) := by
  rw [HotState.mergeOld]
  split
  · next snap hget =>
    refine h.set fun hkey => ?_
    obtain ⟨snap', hget', hsnap'⟩ := h
    obtain rfl : snap' = snap := by
      rw [← hkey, hget] at hget'
      exact (Option.some.inj hget').symm
    rw [activeOrders_mergeSnapshot, get?_setDefaults]
    exact fun hnone => hsnap' (Option.or_eq_none_iff.1 hnone).1
  · next hget =>
    split
    · refine h.set fun hkey => ?_
      obtain ⟨snap', hget', -⟩ := h
      rw [← hkey, hget] at hget'
      cases hget'
    · exact h

/-- The merge brings in the orders of the old snapshot. -/
lemma active_mergeOld (today : ℤ) {old : Snapshot} (hold : old.activeOrders.get? orderId ≠ none) :
    Active key orderId (mergeOld today snapshots (key, old)) := by
  rw [HotState.mergeOld]
  split
  · next snap hget =>
    refine ⟨_, Dict.get?_set_self _ _ _, ?_⟩
    rw [activeOrders_mergeSnapshot, get?_setDefaults]
    exact fun hnone => hold (Option.or_eq_none_iff.1 hnone).2
  · have hsome : old.activeOrders.entries ≠ [] := by
      intro hnil
      refine hold ?_
      rw [Dict.get?, hnil]
      rfl
    rw [if_pos (.inl hsome)]
    exact ⟨_, Dict.get?_set_self _ _ _, hold⟩

/-- A seed keeps the active orders. -/
lemma Active.seedFromDb {old : Globals} (h : Active key orderId old.snapshots)
    (today todayStart : ℤ) (reads : Reads) :
    Active key orderId (seedFromDb today todayStart reads old).snapshots := by
  obtain ⟨snap, hget, hsnap⟩ := h
  have hmem := Dict.mem_entries.2 hget
  show Active key orderId (old.snapshots.entries.foldl (HotState.mergeOld today) _)
  generalize shadowSnapshots today todayStart reads = shadow
  revert hmem
  generalize old.snapshots.entries = l
  intro hmem
  induction l generalizing shadow with
  | nil => cases hmem
  | cons e l ih =>
    rcases List.mem_cons.1 hmem with rfl | hmem
    · exact foldl_invariant (fun _ e' h' => h'.mergeOld today e') (active_mergeOld today hsnap) l
    · exact ih _ hmem

lemma Active.dropActive {s : Globals} (h : Active key orderId s.snapshots) {k : Key}
    {orderId' : String} (hother : ¬ (k = key ∧ orderId' = orderId)) :
    Active key orderId (s.dropActive k orderId').snapshots := by
  refine h.set fun hk => ?_
  subst hk
  show ((s.snapshot k).activeOrders.erase orderId').get? orderId ≠ none
  rw [Dict.get?_erase_of_ne _ fun hid => hother ⟨rfl, hid⟩]
  exact h.snapshot

end Stays

namespace Globals

/-- The trader and the mode of an upsert. -/
def Upsert.key (u : Upsert) : Key := (u.traderId, normalizeModeKey u.mode)

/-- After an upsert the order is active. -/
lemma active_upsertActiveOrder (s : Globals) {u : Upsert} (hid : u.orderId ≠ "") :
    Active u.key u.orderId (s.upsertActiveOrder u).snapshots := by
  rw [upsertActiveOrder, if_neg hid]
  exact ⟨_, Dict.get?_set_self _ _ _, by simp [Snapshot.rebuild]⟩

end Globals

/-- The action reports that the order of the trader and the mode is closed. -/
def Action.Closes (key : Key) (orderId : String) : Action → Prop
  | .resolved r => (r.traderId, normalizeModeKey r.mode) = key ∧ r.orderId = orderId
  | .cancelled traderId mode orderId' =>
    (traderId, normalizeModeKey mode) = key ∧ orderId' = orderId
  | _ => False

instance (key : Key) (orderId : String) : ∀ a : Action, Decidable (a.Closes key orderId)
  | .resolved _ | .cancelled _ _ _ => inferInstanceAs (Decidable (_ ∧ _))
  | .commitOrder _ _ | .commitTables _ _ _ | .upsert _ | .cursor _ _ _ _ _ | .beginSeed _
  | .query | .endSeed => inferInstanceAs (Decidable False)

namespace World

/-- An action that does not close the order keeps it active. -/
lemma active_step {key : Key} {orderId : String} {s : World}
    (h : Active key orderId s.hot.snapshots) {a : Action} (ha : ¬ a.Closes key orderId) :
    Active key orderId (s.step a).hot.snapshots := by
  cases a with
  | commitOrder orderId row => exact h
  | commitTables positions wallet cursors => exact h
  | upsert u =>
    show Active key orderId (s.hot.upsertActiveOrder u).snapshots
    simp only [Globals.upsertActiveOrder]
    split
    · exact h.set fun hkey => hkey ▸ h.snapshot
    · refine h.set fun hkey => ?_
      show ((s.hot.snapshot (u.traderId, normalizeModeKey u.mode)).activeOrders.set u.orderId
        u.tracked).get? orderId ≠ none
      rw [Dict.get?_set, hkey]
      split
      · exact Option.some_ne_none _
      · exact h.snapshot
  | resolved r =>
    show Active key orderId (s.hot.recordOrderResolved r).snapshots
    have hdropped := h.dropActive (k := (r.traderId, normalizeModeKey r.mode)) ha
    simp only [Globals.recordOrderResolved]
    split
    · split
      · exact hdropped
      · refine @Active.set _ _ (Globals.snapshots _) hdropped _ _ fun hkey => ?_
        rw [Globals.activeOrders_bookOutcome]
        show (Globals.startDay _ _).activeOrders.get? orderId ≠ none
        have hkept := hdropped.snapshot
        rw [← hkey] at hkept
        rwa [Globals.activeOrders_startDay]
    · exact hdropped
  | cancelled traderId mode orderId' =>
    show Active key orderId (s.hot.recordOrderCancelled traderId mode orderId').snapshots
    rw [Globals.recordOrderCancelled]
    split
    · exact h
    · exact h.dropActive ha
  | cursor traderId mode createdAt signalId runtimeSequence =>
    exact h.set fun hkey => hkey ▸ h.snapshot
  | beginSeed now =>
    simp only [step]
    split <;> exact h
  | query => exact h
  | endSeed =>
    simp only [step]
    split
    · exact h
    · split
      · exact h
      · exact h.seedFromDb _ _ _

end World

/-- From its upsert on, an order of this process stays active until this process reports it
resolved or cancelled, wherever seeds begin, read and end, and whatever is committed meanwhile. -/
theorem upserted_stays (before after : List Action) {u : Globals.Upsert} (hid : u.orderId ≠ "")
    (hopen : ∀ a ∈ after, ¬ a.Closes u.key u.orderId) :
    ((((before ++ .upsert u :: after).foldl World.step World.start).hot.snapshot
      u.key).activeOrders.get? u.orderId) ≠ none := by
  refine Active.snapshot ?_
  rw [List.foldl_append, List.foldl_cons]
  have hstart : Active u.key u.orderId
      ((before.foldl World.step World.start).step (.upsert u)).hot.snapshots :=
    Globals.active_upsertActiveOrder _ hid
  revert hstart
  generalize (before.foldl World.step World.start).step (.upsert u) = s
  intro hstart
  have hrun : EveryStep World.step (fun _ a => ¬ a.Closes u.key u.orderId) s after :=
    EveryStep.of_forall_mem fun a ha _ => hopen a ha
  exact hrun.invariant (I := fun s : World => Active u.key u.orderId s.hot.snapshots) hstart
    fun _ _ hs ha => World.active_step hs ha

/-- An order of ten dollars. -/
def tenDollars : Globals.Upsert where
  traderId := "t"
  mode := "live"
  orderId := "o"
  status := "open"
  marketId := "m"
  direction := "buy"
  source := "s"
  notionalUsd := 10
  entryPrice := 1 / 2
  tokenId := "k"
  filledShares := 0
  payload := ⟨0, 0, none, "", "", "", "", "", ""⟩
  copySourceWallet := ""

/-- A seed begins and runs its queries. -/
def seedQueries : List Action := [.beginSeed 0, .query, .query, .query, .query, .query]

/-- The order is upserted behind the queries of a seed, which knows nothing of it, and the seed
ends. -/
theorem upserted_stays_behind_queries :
    tenDollars.orderId ≠ "" ∧ (∀ a ∈ [Action.endSeed], ¬ a.Closes tenDollars.key "o") ∧
      ((((seedQueries ++ Action.upsert tenDollars :: [Action.endSeed]).foldl World.step
        World.start).hot.snapshot tenDollars.key).activeOrders.get? "o") ≠ none :=
  have hopen : ∀ a ∈ [Action.endSeed], ¬ a.Closes tenDollars.key "o" := by decide
  ⟨by decide, hopen, upserted_stays seedQueries [.endSeed] (u := tenDollars) (by decide) hopen⟩

end Evosport.Orchestrator.HotState
