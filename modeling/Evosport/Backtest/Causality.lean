/-
Causality of the ledger.

A resting fill is stamped with the time of the snapshot that priced it, but a taker fill is
stamped with the time at which the venue received the order, and the order is matched
against the next snapshot of its token, whenever that comes.  The ledger is causal (no fill
is stamped before the snapshot that priced it) exactly when every order that takes
liquidity arrives exactly at the time of its snapshot (`causal_iff_arrivesOnTime`).
-/
import Evosport.Backtest.Advance

namespace Evosport.Backtest

open Lib

namespace MatchingEngine

variable {cfg : MatchingConfig} {snap : BookSnapshot} {e e' : MatchingEngine}
  {o o' : BacktestOrder} {book : ResidualBook} {fs : List Fill}

/-- The order takes liquidity on its admission. -/
def TakesLiquidity (cfg : MatchingConfig) (o : BacktestOrder) (book : ResidualBook) : Prop :=
  postOnlyCrosses cfg o book = false ∧
    (if o.tif = .fok then o.size ≤ availableForTaker book o.side o.price + e12
      else marketable cfg o book = true) ∧
    0 < o.remainingSize ∧ 0 < availableForTaker book o.side o.price

instance (cfg : MatchingConfig) (o : BacktestOrder) (book : ResidualBook) :
    Decidable (TakesLiquidity cfg o book) := by
  unfold TakesLiquidity
  infer_instance

/-- An order that takes liquidity on its admission arrives at the time of the snapshot. -/
def AdmitOnTime (cfg : MatchingConfig) (snap : BookSnapshot) (e : MatchingEngine)
    (id : OrderId) : Prop :=
  ∀ o ∈ e.orders.get? id, isDue snap.tokenId snap.observedAt o = true →
    ∀ book ∈ e.books.get? o.tokenId, TakesLiquidity cfg o book →
      o.venueReceivedAt = some snap.observedAt

instance (cfg : MatchingConfig) (snap : BookSnapshot) (e : MatchingEngine) (id : OrderId) :
    Decidable (AdmitOnTime cfg snap e id) := by
  unfold AdmitOnTime
  infer_instance

/-- No order that takes liquidity in the interval of the snapshot has arrived before it. -/
def ArrivesOnTime (cfg : MatchingConfig) (e : MatchingEngine) : MatchingOp → Prop
  | .advanceTo snap => (∀ before ∈ e.now, before ≤ snap.observedAt) →
      EveryAdmission cfg snap (AdmitOnTime cfg snap) (openInterval cfg snap e)
  | _ => True

instance (cfg : MatchingConfig) (e : MatchingEngine) : ∀ op, Decidable (ArrivesOnTime cfg e op)
  | .submit .. => inferInstanceAs (Decidable True)
  | .cancel .. => inferInstanceAs (Decidable True)
  | .advanceTo _ => inferInstanceAs (Decidable (_ → EveryStep _ _ _ _))

/-! ## The stamps of one advance -/

/-- The walk of a taker fills something exactly when there is something to fill. -/
lemma consumeLevels_fills_eq_nil (cfg : MatchingConfig) (now : Option Time) (o : BacktestOrder)
    (book : ResidualBook) :
    (consumeLevels cfg now o book).fills = [] ↔
      ¬ (0 < o.remainingSize ∧ 0 < availableForTaker book o.side o.price) := by
  have hwalk := consumeLevels_walk cfg now o book
  have hnonneg : 0 ≤ o.remainingSize := le_max_left _ _
  have havail : 0 ≤ availableForTaker book o.side o.price := by
    rw [availableForTaker_eq]
    exact visibleDepth_nonneg _ _ _
  rw [← totalSize_eq_zero hwalk.pos, consumeLevels_total]
  constructor
  · rintro hzero ⟨hrem, hav⟩
    exact (lt_min hrem hav).ne' hzero
  · intro hnot
    rcases hnonneg.lt_or_eq with hrem | hrem
    · have hzero : availableForTaker book o.side o.price = 0 :=
        le_antisymm (not_lt.1 fun hav => hnot ⟨hrem, hav⟩) havail
      rw [hzero, min_eq_right hnonneg]
    · rw [← hrem, min_eq_left havail]

variable (cfg) in
/-- Taker fills are stamped with the arrival of the order. -/
lemma consumeLevels_occurredAt {t : Time} (ht : o.venueReceivedAt = some t) (now : Option Time)
    (book : ResidualBook) : ∀ f ∈ (consumeLevels cfg now o book).fills, f.occurredAt = t := by
  unfold consumeLevels
  by_cases hrem : o.remainingSize ≤ 0
  · simp [hrem]
  · simp only [hrem, if_false, ht, Option.getD_some]
    exact consumeLoop_occurredAt _ _ _ _ _ _

/-- The fills of an admission are the fills of a walk by an order that takes liquidity. -/
lemma Admission.fills (hcase : Admission cfg e o book e' fs) :
    (TakesLiquidity cfg o book ∧ fs = (consumeLevels cfg e.now o book).fills ∧ fs ≠ []) ∨
      (¬ TakesLiquidity cfg o book ∧ fs = []) := by
  have hwalked : ∀ r, r = consumeLevels cfg e.now o book →
      (postOnlyCrosses cfg o book = false ∧
        (if o.tif = .fok then o.size ≤ availableForTaker book o.side o.price + e12
          else marketable cfg o book = true)) →
      (TakesLiquidity cfg o book ∧ r.fills = (consumeLevels cfg e.now o book).fills ∧
          r.fills ≠ []) ∨ (¬ TakesLiquidity cfg o book ∧ r.fills = []) := by
    rintro r rfl ⟨hpost, hpath⟩
    by_cases hdepth : 0 < o.remainingSize ∧ 0 < availableForTaker book o.side o.price
    · exact .inl ⟨⟨hpost, hpath, hdepth⟩, rfl,
        fun hnil => (consumeLevels_fills_eq_nil _ _ _ _).1 hnil hdepth⟩
    · exact .inr ⟨fun htakes => hdepth htakes.2.2, (consumeLevels_fills_eq_nil _ _ _ _).2 hdepth⟩
  cases hcase with
  | crossed hpost =>
    refine .inr ⟨fun h => ?_, rfl⟩
    rw [h.1] at hpost
    cases hpost
  | insufficient htif hfit =>
    refine .inr ⟨fun h => ?_, rfl⟩
    have hpath := h.2.1
    rw [if_pos htif] at hpath
    exact absurd hfit (not_lt.2 hpath)
  | killedOrFilled hpost htif hfit r hr => exact hwalked r hr ⟨hpost, by rwa [if_pos htif]⟩
  | filled hpost htif hm r hr _ => exact hwalked r hr ⟨hpost, by rwa [if_neg htif]⟩
  | cut hpost htif hm r hr => exact hwalked r hr ⟨hpost, by rwa [if_neg htif]⟩
  | restedRemainder hpost htif _ hm r hr _ => exact hwalked r hr ⟨hpost, by rwa [if_neg htif]⟩
  | expired htif hm =>
    refine .inr ⟨fun h => ?_, rfl⟩
    have hpath := h.2.1
    rw [if_neg htif, hm] at hpath
    cases hpath
  | rested htif hm =>
    refine .inr ⟨fun h => ?_, rfl⟩
    have hpath := h.2.1
    rw [if_neg htif, hm] at hpath
    cases hpath

/-- A due order has arrived by the time of the snapshot. -/
lemma arrived_of_isDue {t : TokenId} {now : Time} (h : isDue t now o = true) :
    ∃ at_, o.venueReceivedAt = some at_ ∧ at_ ≤ now := by
  simp only [isDue, Bool.and_eq_true] at h
  cases hv : o.venueReceivedAt with
  | none => rw [hv] at h; cases h.2
  | some at_ =>
    rw [hv] at h
    exact ⟨at_, rfl, of_decide_eq_true h.2⟩

/-- One turn of step 3 stamps nothing before the snapshot exactly when its order is on
time. -/
lemma admitOne_onTime_iff (hi : InInterval snap e) (id : OrderId) :
    AdmitOnTime cfg snap e id ↔
      ∀ f ∈ (admitOne cfg snap id e).2, snap.observedAt ≤ f.occurredAt := by
  cases hget : e.orders.get? id with
  | none => simp [AdmitOnTime, admitOne, hget]
  | some o =>
    by_cases hdue : isDue snap.tokenId snap.observedAt o = true
    · obtain ⟨book, rfl, hadm, hcase⟩ := admitOne_of_due cfg hi hget hdue
      obtain ⟨at_, hat, hle⟩ := arrived_of_isDue hdue
      have hstamp := consumeLevels_occurredAt cfg hat e.now book
      constructor
      · intro hon f hf
        rcases hcase.fills with ⟨htakes, hfs, -⟩ | ⟨-, hfs⟩
        · have hexact := hon o hget hdue book hadm.bookOf htakes
          rw [hat] at hexact
          rw [hfs] at hf
          rw [hstamp f hf, Option.some.inj hexact]
        · rw [hfs] at hf
          cases hf
      · intro hall o' ho' _ book' hbook' htakes
        -- the order and the book are the ones just admitted
        cases hget.symm.trans ho'
        cases hadm.bookOf.symm.trans hbook'
        rcases hcase.fills with ⟨-, hfs, hne⟩ | ⟨hnot, -⟩
        · obtain ⟨f, hf⟩ := List.exists_mem_of_ne_nil _ hne
          have hlate := hall f hf
          rw [hfs] at hf
          rw [hstamp f hf] at hlate
          rw [hat, le_antisymm hle hlate]
        · exact absurd htakes hnot
    · simp [AdmitOnTime, admitOne, hget, hdue]

/-- Resting fills are stamped with the time of the snapshot. -/
lemma Resting.occurredAt (hsnap : book.snapshot = snap) (hcase : Resting cfg e o book e' fs) :
    ∀ f ∈ fs, f.occurredAt = snap.observedAt := by
  have hstamp := restLoop_occurredAt cfg book.snapshot (book.remaining o.side) o book
    o.remainingSize
  rw [hsnap] at hstamp
  cases hcase with
  | idle => intro f hf; cases hf
  | walked _ _ r hr _ =>
    rw [hr, hsnap]
    exact hstamp
  | completed _ _ r hr _ =>
    rw [hr, hsnap]
    exact hstamp

variable (cfg) in
lemma inInterval_open (hwf : WellFormed e) (snap : BookSnapshot) :
    InInterval snap (openInterval cfg snap e) :=
  (openInterval_induct cfg Interim.wellFormed snap hwf hwf).1

lemma inInterval_admitOne (hi : InInterval snap e) (id : OrderId) :
    InInterval snap (admitOne cfg snap id e).1 := by
  rcases admitOne_cases cfg hi id with heq | ⟨o, book, -, hadm, hcase⟩
  · rw [heq]
    exact hi
  · obtain ⟨o', heff⟩ := hadm.effect hi hcase
    exact ⟨hi.wellFormed.effect hadm.order hadm.isTerminal heff, hi.opened.effect heff⟩

/-- No fill of an advance is stamped after its snapshot, and none before it exactly when the
orders arrive on time. -/
lemma advance_onTime_iff (hwf : WellFormed e) (snap : BookSnapshot) :
    EveryAdmission cfg snap (AdmitOnTime cfg snap) (openInterval cfg snap e) ↔
      ∀ f ∈ (advance cfg snap e).2, snap.observedAt ≤ f.occurredAt := by
  have hin := inInterval_open cfg hwf snap
  have hadmission : EveryAdmission cfg snap (AdmitOnTime cfg snap) (openInterval cfg snap e) ↔
      ∀ f ∈ (admitAll cfg snap (openInterval cfg snap e)).2, snap.observedAt ≤ f.occurredAt := by
    rw [admitAll, forOrders_forall_iff]
    exact EveryStep.congr (I := InInterval snap) (fun e id hi => inInterval_admitOne hi id)
      (fun e id hi => admitOne_onTime_iff hi id) hin
  have hmatch : ∀ f ∈ (matchAll cfg snap (admitAll cfg snap (openInterval cfg snap e)).1).2,
      f.occurredAt = snap.observedAt := by
    have hin' := (admitAll_induct cfg (C := fun _ _ => True) (J := fun _ _ => True)
      (fun _ _ _ _ _ => trivial) hin trivial (.of_forall fun _ _ => trivial)).1
    have hnone : ∀ f ∈ ([] : List Fill), f.occurredAt = snap.observedAt := by simp
    refine (matchAll_induct cfg (C := fun _ _ => True)
      (J := fun _ fs => ∀ f ∈ fs, f.occurredAt = snap.observedAt)
      (fun _ hJ hm hcase _ f hf => ?_) hin' hnone (.of_forall fun _ _ => trivial)).2
    rcases List.mem_append.1 hf with hf | hf
    · exact hJ f hf
    · exact hcase.occurredAt hm.snapshot f hf
  rw [hadmission]
  constructor
  · intro h f hf
    rcases List.mem_append.1 hf with hf | hf
    · exact h f hf
    · exact (hmatch f hf).ge
  · intro h f hf
    exact h f (List.mem_append_left _ hf)

variable (cfg) in
lemma advance_occurredAt_le (hwf : WellFormed e) (snap : BookSnapshot) :
    ∀ f ∈ (advance cfg snap e).2, f.occurredAt ≤ snap.observedAt := by
  obtain ⟨e₁, -, h, -⟩ := advance_induct cfg snap
    (J := fun _ fs => ∀ f ∈ fs, f.occurredAt ≤ snap.observedAt) hwf (fun _ => by simp)
    (fun hi hJ hadm hcase _ f hf => by
      rcases List.mem_append.1 hf with hf | hf
      · exact hJ f hf
      · obtain ⟨at_, hat, hle⟩ := arrived_of_isDue hadm.due
        rcases hcase.fills with ⟨-, hfs, -⟩ | ⟨-, hfs⟩
        · rw [hfs] at hf
          rw [consumeLevels_occurredAt cfg hat _ _ f hf]
          exact hle
        · rw [hfs] at hf
          cases hf)
    (fun _ hJ hm hcase _ f hf => by
      rcases List.mem_append.1 hf with hf | hf
      · exact hJ f hf
      · exact (hcase.occurredAt hm.snapshot f hf).le)
    (everyOrder_true cfg snap e)
  exact h

/-! ## Runs -/

/-- No fill that a call produces is stamped before the snapshot that priced it. -/
def CausalStep (cfg : MatchingConfig) (e : MatchingEngine) (op : MatchingOp) : Prop :=
  ∀ snap, op = .advanceTo snap → ∀ f ∈ produced cfg e op, snap.observedAt ≤ f.occurredAt

/-- A call is causal exactly when the orders that take liquidity in it arrive on time. -/
lemma causalStep_iff (hwf : WellFormed e) (op : MatchingOp) :
    CausalStep cfg e op ↔ ArrivesOnTime cfg e op := by
  cases op with
  | submit order fresh =>
    refine ⟨fun _ => trivial, fun _ snap h => ?_⟩
    cases h
  | cancel orderId requestedAt =>
    refine ⟨fun _ => trivial, fun _ snap h => ?_⟩
    cases h
  | advanceTo snap =>
    have hstep : CausalStep cfg e (.advanceTo snap) ↔
        ∀ f ∈ produced cfg e (.advanceTo snap), snap.observedAt ≤ f.occurredAt := by
      constructor
      · exact fun h => h snap rfl
      · intro h snap' heq
        cases heq
        exact h
    rw [hstep]
    rcases advanceTo_cases cfg e snap with ⟨hnow, err, heq⟩ | ⟨hnow, heq⟩
    · refine ⟨fun _ hle => ?_, fun _ => by simp [produced, heq, Except.toOption]⟩
      obtain ⟨before, hbefore, hlt⟩ := hnow
      exact absurd (hle before hbefore) (not_le.2 hlt)
    · have hfs : produced cfg e (.advanceTo snap) = (advance cfg snap e).2 := by
        simp [produced, heq, Except.toOption]
      rw [hfs, ← advance_onTime_iff hwf snap]
      exact ⟨fun h _ => h, fun h => h hnow⟩

/-- The ledger is in the order of its stamps, and no stamp is ahead of the clock. -/
structure Chronological (e : MatchingEngine) : Prop where
  sorted : e.allFills.Pairwise fun f g => f.occurredAt ≤ g.occurredAt
  past : ∀ f ∈ e.allFills, ∃ now, e.now = some now ∧ f.occurredAt ≤ now

lemma Chronological.step (hwf : WellFormed e) (h : Chronological e) {op : MatchingOp}
    (hon : ArrivesOnTime cfg e op) : Chronological (step cfg e op) := by
  have hcausal := (causalStep_iff hwf op).2 hon
  rcases step_cases cfg hwf op with ⟨heq, -⟩ | ⟨order, o', hf, -, hs, -⟩ |
    ⟨o, o', -, -, ht, -⟩ | ⟨snap, rfl, hnow, heq, hfs⟩
  · rw [heq]
    exact h
  · exact ⟨hs.allFills ▸ h.sorted, by rw [hs.allFills, hs.now]; exact h.past⟩
  · exact ⟨ht.allFills ▸ h.sorted, by rw [ht.allFills, ht.now]; exact h.past⟩
  · have hafter := hcausal snap rfl
    rw [hfs] at hafter
    have hbefore := advance_occurredAt_le cfg hwf snap
    have hclock : (advance cfg snap e).1.now = some snap.observedAt := by
      obtain ⟨e₁, hin, -, heq'⟩ := advance_induct cfg snap (J := fun _ _ => True) hwf (fun _ => trivial)
        (fun _ _ _ _ _ => trivial) (fun _ _ _ _ _ => trivial) (everyOrder_true cfg snap e)
      rw [heq']
      exact hin.opened.now
    have hledger := allFills_advance cfg hwf snap
    rw [heq]
    constructor
    · rw [hledger, List.pairwise_append]
      refine ⟨h.sorted, ?_, fun f hf g hg => ?_⟩
      · exact List.pairwise_of_forall_mem_list fun f hf g hg =>
          (hbefore f hf).trans (hafter g hg)
      · obtain ⟨now, hnow', hle⟩ := h.past f hf
        exact (hle.trans (hnow now hnow')).trans (hafter g hg)
    · intro f hf
      refine ⟨snap.observedAt, hclock, ?_⟩
      rw [hledger] at hf
      rcases List.mem_append.1 hf with hf | hf
      · obtain ⟨now, hnow', hle⟩ := h.past f hf
        exact hle.trans (hnow now hnow')
      · exact hbefore f hf

/-- **Causal ledger.**  In a run, no fill is stamped before the snapshot that priced it and
the ledger is non-decreasing in its stamps, if and only if no order that takes liquidity has
arrived before the snapshot it is matched against. -/
theorem causal_iff_arrivesOnTime (cfg : MatchingConfig) (ops : List MatchingOp) :
    ((∀ pre op, pre ++ [op] <+: ops → CausalStep cfg (runOps cfg pre) op) ∧
        (runOps cfg ops).allFills.Pairwise fun f g => f.occurredAt ≤ g.occurredAt) ↔
      EveryStep (step cfg) (ArrivesOnTime cfg) {} ops := by
  constructor
  · rintro ⟨h, -⟩
    exact EveryStep.of_forall_prefix fun pre op hpre =>
      (causalStep_iff (wellFormed_runOps pre) op).1 (h pre op hpre)
  · intro h
    refine ⟨fun pre op hpre => ?_, ?_⟩
    · exact (causalStep_iff (wellFormed_runOps pre) op).2
        (EveryStep.snoc.1 (h.of_prefix hpre)).2
    · have hchron : WellFormed (runOps cfg ops) ∧ Chronological (runOps cfg ops) :=
        h.invariant (I := fun e => WellFormed e ∧ Chronological e)
          ⟨wellFormed_init, ⟨.nil, by rintro f ⟨⟩⟩⟩
          fun e op hI hon => ⟨wellFormed_step hI.1 op, hI.2.step hI.1 hon⟩
      exact hchron.2.sorted

/-- A bid for ten shares at one half. -/
def halfBid (orderId : OrderId) : MatchingOp :=
  .submit (.limit orderId "t" .buy (1 / 2) 10 0) ⟨rfl, rfl⟩

/-- A bid that reaches the venue long before the next book of its token. -/
def earlyTaker : List MatchingOp :=
  [halfBid "bid", .advanceTo (.offer "t" 5000 ⟨2 / 5, 10⟩)]

/-- The fill of the early taker is stamped four milliseconds before the book that priced
it. -/
theorem earlyTaker_not_causal :
    ¬ ∀ pre op, pre ++ [op] <+: earlyTaker → CausalStep (.plain 1) (runOps (.plain 1) pre) op := by
  intro h
  have hlast := h [halfBid "bid"] _ (List.prefix_refl _)
  have hstamp : ∀ f ∈ produced (.plain 1)
      (runOps (.plain 1) [.submit (.limit "bid" "t" .buy (1 / 2) 10 0) ⟨rfl, rfl⟩])
      (.advanceTo { tokenId := "t", observedAt := 5000, bids := [], asks := [⟨2 / 5, 10⟩] }),
      5000 ≤ f.occurredAt := hlast _ rfl
  exact absurd hstamp (by decide +kernel)

end MatchingEngine

end Evosport.Backtest
