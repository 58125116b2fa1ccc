/-
Matching engines whose clocks and books lag.

A matching engine that has not been shown every snapshot keeps old books and an old clock.
`Lags t m n` relates such an engine `m` to one, `n`, that has seen everything up to `t`: the
orders, the indexes, the ledger and the latencies are equal, and the books are equal on every
token that has a working order.  An advance only reads the book that it has just replaced,
and the previous book of a token where it has working orders, so it makes the same fills in
both (`Lags.advance`).  An advance on a token without live orders does nothing but replace
the book (`advance_idle`).
-/
import Evosport.Lib.Fallible
import Evosport.Backtest.Advance

namespace Evosport.Backtest

open Lib

namespace MatchingEngine

variable {cfg : MatchingConfig} {snap : BookSnapshot} {m n : MatchingEngine} {o : BacktestOrder}

/-! ## Other books -/

/-- `n` is `m` with other books, which agree on the tokens in `W`. -/
def Rebooked (W : TokenId → Prop) (m n : MatchingEngine) : Prop :=
  ∃ books, n = { m with books := books } ∧ ∀ t, W t → books.get? t = m.books.get? t

/-- The same fills, and engines that differ in their books. -/
def RebookedResult (W : TokenId → Prop) (r r' : MatchingEngine × List Fill) : Prop :=
  Rebooked W r.1 r'.1 ∧ r'.2 = r.2

namespace Rebooked

variable {W : TokenId → Prop}

lemma putOrder (h : Rebooked W m n) (o : BacktestOrder) :
    Rebooked W (m.putOrder o) (n.putOrder o) := by
  obtain ⟨books, rfl, hW⟩ := h
  exact ⟨books, rfl, hW⟩

lemma terminate (h : Rebooked W m n) (o : BacktestOrder) (state : OrderState) :
    Rebooked W (m.terminate o state) (n.terminate o state) := by
  obtain ⟨books, rfl, hW⟩ := h
  unfold MatchingEngine.terminate
  split
  · exact ⟨books, rfl, hW⟩
  · exact ⟨books, rfl, hW⟩

lemma removeFromWorking (h : Rebooked W m n) (o : BacktestOrder) :
    Rebooked W (m.removeFromWorking o) (n.removeFromWorking o) := by
  obtain ⟨books, rfl, hW⟩ := h
  by_cases hmem : o.orderId ∈ m.workingIds o.tokenId
  · have hmem' : o.orderId ∈ ({ m with books := books } : MatchingEngine).workingIds o.tokenId :=
      hmem
    rw [MatchingEngine.removeFromWorking, MatchingEngine.removeFromWorking, if_pos hmem,
      if_pos hmem']
    exact ⟨books, rfl, hW⟩
  · have hmem' : o.orderId ∉ ({ m with books := books } : MatchingEngine).workingIds o.tokenId :=
      hmem
    rw [MatchingEngine.removeFromWorking, MatchingEngine.removeFromWorking, if_neg hmem,
      if_neg hmem']
    exact ⟨books, rfl, hW⟩

lemma rest (h : Rebooked W m n) (cfg : MatchingConfig) (book : ResidualBook) (o : BacktestOrder)
    (label : OrderState) : Rebooked W (m.rest cfg book o label) (n.rest cfg book o label) := by
  obtain ⟨books, rfl, hW⟩ := h
  exact ⟨books, rfl, hW⟩

/-- Both engines write the same book of a token. -/
lemma setBook (h : Rebooked W m n) (token : TokenId) (book : ResidualBook) :
    Rebooked W { m with books := m.books.set token book }
      { n with books := n.books.set token book } := by
  obtain ⟨books, rfl, hW⟩ := h
  refine ⟨books.set token book, rfl, fun t ht => ?_⟩
  show (books.set token book).get? t = (m.books.set token book).get? t
  rw [Dict.get?_set, Dict.get?_set, hW t ht]

/-- Both engines enter the same fills in their ledgers. -/
lemma addFills (h : Rebooked W m n) (fs : List Fill) :
    Rebooked W { m with allFills := m.allFills ++ fs } { n with allFills := n.allFills ++ fs } := by
  obtain ⟨books, rfl, hW⟩ := h
  exact ⟨books, rfl, hW⟩

lemma take (h : Rebooked W m n) (cfg : MatchingConfig) (book : ResidualBook) (o : BacktestOrder) :
    Rebooked W (m.take cfg book o).1 (n.take cfg book o).1 ∧
      (n.take cfg book o).2 = (m.take cfg book o).2 := by
  have hput := (h.putOrder (consumeLevels cfg m.now o book).order).setBook o.tokenId
    (consumeLevels cfg m.now o book).book
  obtain ⟨books, rfl, hW⟩ := h
  exact ⟨hput, rfl⟩

/-- An admission reads the book of its own token only. -/
lemma handleAdmit (h : Rebooked W m n) (hW : W o.tokenId) :
    RebookedResult W (m.handleAdmit cfg o) (n.handleAdmit cfg o) := by
  have hbook : n.books.get? o.tokenId = m.books.get? o.tokenId := by
    obtain ⟨books, rfl, hsame⟩ := h
    exact hsame o.tokenId hW
  unfold MatchingEngine.handleAdmit
  rw [hbook]
  cases m.books.get? o.tokenId with
  | none => exact ⟨h, rfl⟩
  | some book =>
    obtain ⟨htake, hresult⟩ := h.take cfg book o
    dsimp only
    rw [hresult]
    split
    · exact ⟨h.terminate _ _, rfl⟩
    · split
      · split
        · exact ⟨h.terminate _ _, rfl⟩
        · exact ⟨htake.terminate _ _, rfl⟩
      · split
        · split
          · split
            · exact ⟨htake.terminate _ _, rfl⟩
            · exact ⟨htake.rest cfg _ _ _, rfl⟩
          · exact ⟨htake.terminate _ _, rfl⟩
        · split
          · exact ⟨h.terminate _ _, rfl⟩
          · exact ⟨h.rest cfg _ _ _, rfl⟩

/-- So does the match of a resting order. -/
lemma tryMatchResting (h : Rebooked W m n) (hW : W o.tokenId) :
    RebookedResult W (m.tryMatchResting cfg o) (n.tryMatchResting cfg o) := by
  have hbook : n.books.get? o.tokenId = m.books.get? o.tokenId := by
    obtain ⟨books, rfl, hsame⟩ := h
    exact hsame o.tokenId hW
  unfold MatchingEngine.tryMatchResting
  rw [hbook]
  cases m.books.get? o.tokenId with
  | none => exact ⟨h, rfl⟩
  | some book =>
    set r := restLoop cfg book.snapshot (book.remaining o.side) o book o.remainingSize with hr
    have hwrite := (h.putOrder r.order).setBook o.tokenId r.book
    dsimp only
    split
    · exact ⟨h, rfl⟩
    · split
      · exact ⟨h, rfl⟩
      · split
        · exact ⟨(hwrite.terminate _ _).removeFromWorking _, rfl⟩
        · exact ⟨hwrite, rfl⟩

/-- A loop over orders, with an invariant of the left engine. -/
lemma forOrders {f : OrderId → MatchingEngine → MatchingEngine × List Fill}
    {I : List OrderId → MatchingEngine → Prop}
    (hstep : ∀ id rest m n, I (id :: rest) m → Rebooked W m n →
      I rest (f id m).1 ∧ RebookedResult W (f id m) (f id n))
    {ids : List OrderId} (hI : I ids m) (h : Rebooked W m n) :
    RebookedResult W (MatchingEngine.forOrders f ids m) (MatchingEngine.forOrders f ids n) := by
  induction ids generalizing m n with
  | nil => exact ⟨h, rfl⟩
  | cons id rest ih =>
    obtain ⟨hI', hone, hfills⟩ := hstep id rest m n hI h
    obtain ⟨hrest, hfills'⟩ := ih hI' hone
    refine ⟨hrest, ?_⟩
    show (f id n).2 ++ (MatchingEngine.forOrders f rest (f id n).1).2 =
      (f id m).2 ++ (MatchingEngine.forOrders f rest (f id m).1).2
    rw [hfills, hfills']

lemma admitAll (h : Rebooked W m n) (cfg : MatchingConfig) (hW : W snap.tokenId) :
    RebookedResult W (m.admitAll cfg snap) (n.admitAll cfg snap) := by
  have hkeys : n.orders.keys = m.orders.keys := by
    obtain ⟨books, rfl, -⟩ := h
    rfl
  unfold MatchingEngine.admitAll
  rw [hkeys]
  refine h.forOrders (I := fun _ _ => True) (fun id rest m n _ h => ⟨trivial, ?_⟩) trivial
  have horders : n.orders = m.orders := by
    obtain ⟨books, rfl, -⟩ := h
    rfl
  unfold admitOne
  rw [horders]
  cases m.orders.get? id with
  | none => exact ⟨h, rfl⟩
  | some o =>
    dsimp only
    split
    · next hdue =>
      simp only [isDue, Bool.and_eq_true, decide_eq_true_eq] at hdue
      refine h.handleAdmit ?_
      rw [hdue.1.1]
      exact hW
    · exact ⟨h, rfl⟩

lemma matchAll (h : Rebooked W m n) (cfg : MatchingConfig) (hi : InInterval snap m) (hW : W snap.tokenId) :
    RebookedResult W (m.matchAll cfg snap) (n.matchAll cfg snap) := by
  have hids : n.workingIds snap.tokenId = m.workingIds snap.tokenId := by
    obtain ⟨books, rfl, -⟩ := h
    rfl
  unfold MatchingEngine.matchAll
  rw [hids]
  refine h.forOrders (I := MatchQueue snap) (fun id rest m n hI h => ⟨hI.next cfg, ?_⟩)
    hi.matchQueue
  obtain ⟨o, hget, htok, hrest⟩ := hI.inInterval.wellFormed.working
    (hI.working id List.mem_cons_self)
  have horders : n.orders = m.orders := by
    obtain ⟨books, rfl, -⟩ := h
    rfl
  unfold matchOne
  rw [horders, hget]
  dsimp only
  rw [if_neg (by simp [hrest.isTerminal]), if_neg (by simp [hrest.isTerminal])]
  refine h.tryMatchResting ?_
  rw [htok]
  exact hW

lemma decayQueues (h : Rebooked W m n) (old : ResidualBook) (ids : List OrderId) :
    Rebooked W (m.decayQueues cfg old snap ids) (n.decayQueues cfg old snap ids) := by
  induction ids generalizing m n with
  | nil => exact h
  | cons id ids ih =>
    have horders : n.orders = m.orders := by
      obtain ⟨books, rfl, -⟩ := h
      rfl
    unfold MatchingEngine.decayQueues
    rw [horders]
    cases m.orders.get? id with
    | none => exact ih h
    | some o => exact ih (h.putOrder _)

end Rebooked

/-! ## The new book -/

/-- The tokens whose books an advance may read: the token of the snapshot, and those with a
working order. -/
def Watched (snap : BookSnapshot) (m : MatchingEngine) (t : TokenId) : Prop :=
  t = snap.tokenId ∨ m.workingIds t ≠ []

/-- Without working orders the book is replaced and no queue decays. -/
lemma refreshBook_idle (hidle : m.workingIds snap.tokenId = []) :
    m.refreshBook cfg snap = { m with books := m.books.set snap.tokenId { snapshot := snap } } := by
  have hidle' : ({ m with books := m.books.set snap.tokenId { snapshot := snap } } :
      MatchingEngine).workingIds snap.tokenId = [] := hidle
  unfold refreshBook
  dsimp only
  split
  · rfl
  · rw [hidle']
    rfl

lemma openInterval_uncancelled (h : m.pendingCancels = .empty) :
    m.openInterval cfg snap = { m with now := some snap.observedAt }.refreshBook cfg snap := by
  unfold openInterval
  rw [h]
  rfl

/-- The two engines open the interval alike when they have the same books where orders are
working. -/
lemma refreshBook_rebooked {books : Dict TokenId ResidualBook}
    (h : ∀ t, m.workingIds t ≠ [] → books.get? t = m.books.get? t) :
    Rebooked (Watched snap m) (m.refreshBook cfg snap)
      ({ m with books := books }.refreshBook cfg snap) := by
  set book : ResidualBook := { snapshot := snap } with hbook
  have hnew : Rebooked (Watched snap m) { m with books := m.books.set snap.tokenId book }
      { m with books := books.set snap.tokenId book } := by
    refine ⟨books.set snap.tokenId book, rfl, fun t ht => ?_⟩
    show (books.set snap.tokenId book).get? t = (m.books.set snap.tokenId book).get? t
    rw [Dict.get?_set, Dict.get?_set]
    split
    · rfl
    · next hne =>
      rcases ht with rfl | ht
      · exact absurd rfl hne
      · exact h t ht
  by_cases hidle : m.workingIds snap.tokenId = []
  · rw [refreshBook_idle hidle, refreshBook_idle (m := { m with books := books }) hidle]
    exact hnew
  · have hold := h snap.tokenId hidle
    unfold refreshBook
    dsimp only
    rw [hold]
    cases m.books.get? snap.tokenId with
    | none => exact hnew
    | some old => exact hnew.decayQueues old _

/-! ## One advance -/

/-- What an advance leaves alone: the working orders of other tokens, and the requests to
cancel. -/
lemma advance_frame (hwf : WellFormed m) (huncancelled : m.pendingCancels = .empty)
    (cfg : MatchingConfig) (snap : BookSnapshot) :
    (∀ t, t ≠ snap.tokenId → (m.advance cfg snap).1.workingIds t = m.workingIds t) ∧
      (m.advance cfg snap).1.pendingCancels = .empty ∧
      (m.advance cfg snap).1.now = some snap.observedAt := by
  let J (e : MatchingEngine) (_ : List Fill) : Prop :=
    (∀ t, t ≠ snap.tokenId → e.workingIds t = m.workingIds t) ∧ e.pendingCancels = .empty
  have hopen : J (m.openInterval cfg snap) [] := by
    rw [openInterval_uncancelled huncancelled]
    obtain ⟨orders, horders⟩ := refreshBook_frame cfg snap { m with now := some snap.observedAt }
    rw [horders]
    exact ⟨fun t _ => rfl, huncancelled⟩
  obtain ⟨e₁, hi, ⟨hworking, hcancels⟩, heq⟩ := advance_effects cfg (J := J) hwf snap hopen (by
    rintro e o o' e' fs fs' - ⟨hworking, hcancels⟩ - htok - heff
    refine ⟨fun t ht => ?_, heff.pendingCancels.trans hcancels⟩
    have hother : t ≠ o.tokenId := by
      rw [htok]
      exact ht
    cases heff.ends with
    | finished _ _ hw => rw [hw, if_neg hother, hworking t ht]
    | rests _ _ hw => rw [hw, if_neg hother, hworking t ht])
  rw [heq]
  exact ⟨hworking, hcancels, hi.opened.now⟩

/-- A loop none of whose turns does anything. -/
lemma forOrders_idle {f : OrderId → MatchingEngine → MatchingEngine × List Fill}
    {ids : List OrderId} (h : ∀ id ∈ ids, f id m = (m, [])) : forOrders f ids m = (m, []) := by
  induction ids with
  | nil => rfl
  | cons id ids ih =>
    unfold forOrders
    dsimp only
    rw [h id List.mem_cons_self, ih fun id hid => h id (List.mem_cons_of_mem _ hid)]
    rfl

/-- An advance on a token without live orders replaces the book and sets the clock. -/
lemma advance_idle (hwf : WellFormed m) (huncancelled : m.pendingCancels = .empty)
    (hidle : m.hasActiveOrdersForToken snap.tokenId = false) :
    m.advance cfg snap = ({ m with now := some snap.observedAt
                                   books := m.books.set snap.tokenId { snapshot := snap } }, []) := by
  set opened : MatchingEngine := { m with now := some snap.observedAt
                                          books := m.books.set snap.tokenId { snapshot := snap } }
    with hopened
  have hworking := hwf.workingIds_of_inactive hidle
  have hopen : m.openInterval cfg snap = opened := by
    rw [openInterval_uncancelled huncancelled]
    exact refreshBook_idle hworking
  -- a due order would be live
  have hadmission : opened.admitAll cfg snap = (opened, []) := by
    refine forOrders_idle fun id _ => ?_
    unfold admitOne
    cases hget : opened.orders.get? id with
    | none => rfl
    | some o =>
      dsimp only
      split
      · next hdue =>
        simp only [isDue, Bool.and_eq_true, decide_eq_true_eq] at hdue
        have hterm := hwf.isTerminal_of_inactive hidle hget hdue.1.1
        rw [BacktestOrder.isTerminal, hdue.1.2] at hterm
        cases hterm
      · rfl
  have hmatch : opened.matchAll cfg snap = (opened, []) := by
    refine forOrders_idle fun id hid => ?_
    have hnone : id ∈ ([] : List OrderId) := hworking ▸ hid
    cases hnone
  unfold advance
  rw [hopen, hadmission]
  dsimp only
  rw [hmatch]
  simp only [List.append_nil]

/-! ## The lag -/

/-- `m` is behind `n`, which has seen every snapshot up to `t`: they agree but for books of tokens
without working orders and for the clock, and no cancel waits. -/
structure Lags (t : Time) (m n : MatchingEngine) : Prop where
  same : ∃ books now, n = { m with books := books, now := now }
  books : ∀ token, m.workingIds token ≠ [] → n.books.get? token = m.books.get? token
  clock : ∀ a ∈ m.now, ∃ b ∈ n.now, a ≤ b
  due : ∀ b ∈ n.now, b ≤ t
  uncancelled : m.pendingCancels = .empty
  wellFormed : WellFormed m

lemma lags_init (t : Time) : Lags t {} {} where
  same := ⟨_, _, rfl⟩
  books _ _ := rfl
  clock a h := by cases h
  due b h := by cases h
  uncancelled := rfl
  wellFormed := wellFormed_init

namespace Lags

variable {t : Time}

lemma mono {t' : Time} (h : Lags t m n) (ht : t ≤ t') : Lags t' m n :=
  { h with due := fun b hb => (h.due b hb).trans ht }

lemma orders (h : Lags t m n) : n.orders = m.orders := by
  obtain ⟨books, now, rfl⟩ := h.same
  rfl

lemma active (h : Lags t m n) : n.activeCountByToken = m.activeCountByToken := by
  obtain ⟨books, now, rfl⟩ := h.same
  rfl

/-- Both engines take the same submissions. -/
lemma submit (h : Lags t m n) (cfg : MatchingConfig) {o : BacktestOrder} (ho : Fresh o) :
    Agree (Lags t) (m.submit cfg o) (n.submit cfg o) := by
  obtain ⟨⟨books, now, rfl⟩, hbooks, hclock, hdue, hcancels, hwf⟩ := h
  have hkept : ∀ {m'}, m.submit cfg o = .ok m' →
      Lags t m' { m' with books := books, now := now } := by
    intro m' hm'
    obtain ⟨o', hs⟩ := submit_cases ho hm'
    refine ⟨⟨books, now, rfl⟩, fun token htoken => ?_, ?_, hdue, hs.pendingCancels.trans hcancels,
      hwf.submitted hs⟩
    · show books.get? token = m'.books.get? token
      rw [hs.books]
      refine hbooks token ?_
      rwa [workingIds, ← hs.working]
    · rw [hs.now]
      exact hclock
  unfold MatchingEngine.submit at hkept ⊢
  dsimp only at hkept ⊢
  split
  · rfl
  · next hnew =>
    rw [if_neg hnew] at hkept
    split
    · next hno =>
      rw [if_pos hno] at hkept
      exact hkept rfl
    · next hok =>
      rw [if_neg hok] at hkept
      exact hkept rfl

/-- Both engines make the same fills on a snapshot. -/
lemma advance (h : Lags snap.observedAt m n) (cfg : MatchingConfig) :
    Agree (fun r r' => Lags snap.observedAt r.1 r'.1 ∧ r'.2 = r.2) (m.advanceTo cfg snap)
      (n.advanceTo cfg snap) := by
  obtain ⟨⟨books, now, rfl⟩, hbooks, hclock, hdue, hcancels, hwf⟩ := h
  have hopen : Rebooked (Watched snap m) (m.openInterval cfg snap)
      ({ m with books := books, now := now }.openInterval cfg snap) := by
    rw [openInterval_uncancelled hcancels,
      openInterval_uncancelled (m := { m with books := books, now := now }) hcancels]
    exact refreshBook_rebooked (m := { m with now := some snap.observedAt }) hbooks
  have hwatched : Watched snap m snap.tokenId := .inl rfl
  obtain ⟨hadmission, hadmitted⟩ := hopen.admitAll cfg hwatched
  have hin : InInterval snap (admitAll cfg snap (m.openInterval cfg snap)).1 :=
    (admitAll_induct cfg (J := fun _ _ => True) (C := fun _ _ => True)
      (fun _ _ _ _ _ => trivial) (openInterval_induct cfg Interim.wellFormed snap hwf hwf).1 trivial
      (.of_forall fun _ _ => trivial)).1
  obtain ⟨hmatch, hmatched⟩ := hadmission.matchAll cfg hin hwatched
  -- neither clock is ahead of the snapshot
  have hm : m.advanceTo cfg snap = .ok (m.advance cfg snap) := by
    rcases advanceTo_cases cfg m snap with ⟨⟨before, hb, hlt⟩, -⟩ | ⟨-, heq⟩
    · obtain ⟨b, hb', hle⟩ := hclock before hb
      exact absurd hlt (not_lt.2 (hle.trans (hdue b hb')))
    · exact heq
  have hn : ({ m with books := books, now := now } : MatchingEngine).advanceTo cfg snap =
      .ok (({ m with books := books, now := now } : MatchingEngine).advance cfg snap) := by
    rcases advanceTo_cases cfg ({ m with books := books, now := now } : MatchingEngine) snap with
      ⟨⟨before, hb, hlt⟩, -⟩ | ⟨-, heq⟩
    · exact absurd hlt (not_lt.2 (hdue before hb))
    · exact heq
  rw [hm, hn]
  obtain ⟨hworking, hcancels', hnow⟩ := advance_frame hwf hcancels cfg snap
  have hrebooked : RebookedResult (Watched snap m) (m.advance cfg snap)
      (({ m with books := books, now := now } : MatchingEngine).advance cfg snap) := by
    unfold MatchingEngine.advance
    dsimp only
    rw [hadmitted, hmatched]
    exact ⟨hmatch.addFills _, rfl⟩
  refine ⟨?_, hrebooked.2⟩
  obtain ⟨books', heq, hsame⟩ := hrebooked.1
  rw [heq]
  refine ⟨⟨books', _, rfl⟩, fun token htoken => hsame token ?_, fun a ha => ⟨a, ha, le_refl a⟩, ?_,
    hcancels', wellFormed_advance cfg hwf snap⟩
  · by_cases htok : token = snap.tokenId
    · exact .inl htok
    · rw [hworking token htok] at htoken
      exact .inr htoken
  · rintro b hb
    rw [hnow] at hb
    cases hb
    exact le_refl _

end Lags

end MatchingEngine

end Evosport.Backtest
