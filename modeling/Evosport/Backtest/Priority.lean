/-
Price-time priority.

Two orders on the same token and side with the same limit are rivals.  In a run whose
orders are admitted and matched in turn (`InTurn`), the resting rivals of a token stand in
the order of their arrival (`Queue`), so the earlier of two rivals is visited first; once
it has been visited and still wants something, nothing is left within its limit
(`Yielded`), and the later one is not filled.
-/
import Evosport.Backtest.Depth

namespace Evosport.Backtest

open Lib

namespace MatchingEngine

variable {cfg : MatchingConfig} {snap : BookSnapshot} {e e' : MatchingEngine}
  {o o' : BacktestOrder} {book : ResidualBook} {fs fs' : List Fill} {ids : List OrderId}

/-! ## The working lists are queues -/

/-- What decides the place of an order: its token, side and limit, and its arrival. -/
def standing (o : BacktestOrder) : TokenId × Side × ℚ × Option Time :=
  (o.tokenId, o.side, o.price, o.venueReceivedAt)

lemma kept_standing : Kept standing where
  walk hwalk := by
    obtain ⟨_, _, rfl⟩ := hwalk.frame
    rfl
  relabel hr := by
    unfold standing
    rw [hr.tokenId, hr.side, hr.price, hr.venueReceivedAt]

/-- If the orders on record under `a` and `b` are rivals, the first arrived before the second. -/
def InLine (e : MatchingEngine) (a b : OrderId) : Prop :=
  ∀ o ∈ e.orders.get? a, ∀ o' ∈ e.orders.get? b, o.Rivals o' → o.ArrivesBefore o'

lemma InLine.congr {a b : OrderId} (h : InLine e a b)
    (ha : recordOf standing e' a = recordOf standing e a)
    (hb : recordOf standing e' b = recordOf standing e b) : InLine e' a b := by
  intro o hget o' hget' hr
  rw [Option.mem_def] at hget hget'
  obtain ⟨p, hp, hstand⟩ : ∃ p, e.orders.get? a = some p ∧ standing p = standing o := by
    refine Option.map_eq_some_iff.1 (ha.symm.trans ?_)
    rw [recordOf, hget]
    rfl
  obtain ⟨p', hp', hstand'⟩ : ∃ p, e.orders.get? b = some p ∧ standing p = standing o' := by
    refine Option.map_eq_some_iff.1 (hb.symm.trans ?_)
    rw [recordOf, hget']
    rfl
  simp only [standing, Prod.mk.injEq] at hstand hstand'
  obtain ⟨ht, hs, hl, hv⟩ := hstand
  obtain ⟨ht', hs', hl', hv'⟩ := hstand'
  refine (h p hp p' hp' ⟨?_, ?_, ?_⟩).congr hv.symm hv'.symm
  · rw [ht, ht', hr.tokenId]
  · rw [hs, hs', hr.side]
  · rw [hl, hl', hr.price]

/-- Every resting order is on the working list of its token, and the rivals of a list stand in
the order of their arrival. -/
structure Queue (e : MatchingEngine) : Prop where
  listed : ∀ {id o}, e.orders.get? id = some o → o.IsResting → id ∈ e.workingIds o.tokenId
  inLine : ∀ t, (e.workingIds t).Pairwise (InLine e)

lemma queue_init : Queue {} where
  listed h := by cases h
  inLine _ := .nil

lemma Queue.sameOrders (h : Queue e) (hs : SameOrders e e') : Queue e' := by
  have hworking : ∀ t, e'.workingIds t = e.workingIds t := by
    intro t
    rw [workingIds, hs.workingByToken]
    rfl
  refine ⟨fun hget hrest => ?_, fun t => ?_⟩
  · rw [hs.orders] at hget
    rw [hworking]
    exact h.listed hget hrest
  · rw [hworking]
    have hrecord : recordOf standing e' = recordOf standing e := by
      funext id
      rw [recordOf, hs.orders]
      rfl
    exact (h.inLine t).imp fun hab => hab.congr (congrFun hrecord _) (congrFun hrecord _)

lemma Queue.touch (h : Queue e) (hget : e.orders.get? o.orderId = some o) (ht : Touch e o o' e') :
    Queue e' := by
  have hworking : ∀ t, e'.workingIds t = e.workingIds t := by
    intro t
    rw [workingIds, ht.working]
    rfl
  have hrecord := kept_standing.touch hget ht
  refine ⟨fun {id o₁} hget₁ hrest => ?_, fun t => ?_⟩
  · rw [hworking]
    rw [ht.orders, Dict.get?_set] at hget₁
    split at hget₁
    · next hid =>
      cases hget₁
      rw [← hid, ht.relabel.tokenId]
      refine h.listed hget ?_
      rw [BacktestOrder.IsResting, ← ht.state]
      exact hrest
    · exact h.listed hget₁ hrest
  · rw [hworking]
    exact (h.inLine t).imp fun hab => hab.congr (congrFun hrecord _) (congrFun hrecord _)

/-- An effect keeps the queues, when an order that comes to rest goes behind its rivals. -/
lemma Queue.effect (h : Queue e) (hget : e.orders.get? o.orderId = some o)
    (he : Effect e o fs o' e')
    (hlast : o.orderId ∉ e.workingIds o.tokenId → o'.IsResting →
      ∀ a ∈ e.workingIds o.tokenId, InLine e a o.orderId) : Queue e' := by
  obtain ⟨o₁, hwalk, hr⟩ := he.walk
  have htok : o'.tokenId = o.tokenId := hr.tokenId.trans hwalk.tokenId_eq
  have hrecord := kept_standing.effect hget he
  have hcongr : ∀ {a b}, InLine e a b → InLine e' a b :=
    fun hab => hab.congr (congrFun hrecord _) (congrFun hrecord _)
  have hold : ∀ {id o₁}, id ≠ o.orderId → e'.orders.get? id = some o₁ → o₁.IsResting →
      id ∈ e.workingIds o₁.tokenId := by
    intro id o₁ hne hget₁ hrest
    rw [he.orders, Dict.get?_set_of_ne _ _ (Ne.symm hne)] at hget₁
    exact h.listed hget₁ hrest
  have hself : e'.orders.get? o.orderId = some o' := he.get?
  cases he.ends with
  | finished hterm _ hw =>
    refine ⟨fun {id o₁} hget₁ hrest => ?_, fun t => ?_⟩
    · have hne : id ≠ o.orderId := by
        rintro rfl
        cases hself.symm.trans hget₁
        rw [hrest.isTerminal] at hterm
        cases hterm
      rw [hw]
      split
      · exact (List.mem_erase_of_ne hne).2 (hold hne hget₁ hrest)
      · exact hold hne hget₁ hrest
    · rw [hw]
      split
      · exact ((h.inLine t).sublist List.erase_sublist).imp hcongr
      · exact (h.inLine t).imp hcongr
  | rests hrests _ hw =>
    refine ⟨fun {id o₁} hget₁ hrest => ?_, fun t => ?_⟩
    · rw [hw]
      by_cases hne : id = o.orderId
      · subst hne
        cases hself.symm.trans hget₁
        rw [if_pos htok, withWorking]
        split
        · next hmem => exact hmem
        · exact List.mem_append_right _ (List.mem_singleton_self _)
      · have hmem := hold hne hget₁ hrest
        split
        · rw [withWorking]
          split
          · exact hmem
          · exact List.mem_append_left _ hmem
        · exact hmem
    · rw [hw]
      by_cases ht : t = o.tokenId
      · subst ht
        rw [if_pos rfl, withWorking]
        split
        · exact (h.inLine _).imp hcongr
        · next hnot =>
          refine List.pairwise_append.2 ⟨(h.inLine _).imp hcongr, List.pairwise_singleton _ _,
            fun a ha b hb => ?_⟩
          rw [List.mem_singleton.1 hb]
          exact hcongr (hlast hnot hrests a ha)
      · rw [if_neg ht]
        exact (h.inLine t).imp hcongr

lemma Queue.interim : Interim fun e => Queue e where
  sameOrders := Queue.sameOrders
  cancelled _ h hget _ he hstate := by
    refine h.effect hget he fun _ hrest => ?_
    rcases hrest with hs | hs <;> rw [hstate] at hs <;> cases hs
  touched _ h hget _ ht := h.touch hget ht

/-- An admission in turn keeps the queues. -/
lemma Queue.admission (hi : InInterval snap e) (h : Queue e) (hadm : Admissible snap e o book)
    (hcase : Admission cfg e o book e' fs) (hturn : AdmitInTurn cfg snap e o.orderId) :
    Queue e' := by
  obtain ⟨o', he⟩ := hadm.effect hi hcase
  refine h.effect hadm.order he fun hnot _ a ha p hp q hq hr => ?_
  rw [Option.mem_def] at hp hq
  cases hadm.order.symm.trans hq
  have hne : p.orderId ≠ o.orderId := by
    rw [hi.wellFormed.keyed hp]
    rintro rfl
    exact hnot ha
  obtain ⟨p', hp', -, hrest⟩ := hi.wellFormed.working ha
  cases hp.symm.trans hp'
  have hrival : o.Rivals p := ⟨hr.tokenId.symm, hr.side.symm, hr.price.symm⟩
  exact ((hturn o hadm.order hadm.due p (Dict.mem_values.2 ⟨a, hp⟩) hne).2 hrest hrival).1

lemma Queue.resting (h : Queue e) (hm : Matchable snap e o book)
    (hcase : Resting cfg e o book e' fs) : Queue e' := by
  rcases hm.effect hcase with ⟨rfl, -⟩ | ⟨o', he⟩
  · exact h
  · exact h.effect hm.order he fun hnot => absurd hm.working hnot

lemma Queue.submitted {o : BacktestOrder} (h : Queue e) (hwf : WellFormed e)
    (hs : Submitted cfg e o o' e') : Queue e' := by
  have hworking : ∀ t, e'.workingIds t = e.workingIds t := by
    intro t
    rw [workingIds, hs.working]
    rfl
  have hold : ∀ {id}, id ≠ o'.orderId → e'.orders.get? id = e.orders.get? id := by
    intro id hne
    rw [hs.orders, Dict.get?_set_of_ne _ _ (Ne.symm hne)]
  refine ⟨fun {id o₁} hget hrest => ?_, fun t => ?_⟩
  · rw [hworking]
    by_cases hne : id = o'.orderId
    · subst hne
      rw [hs.orders, Dict.get?_set_self] at hget
      cases hget
      rcases hs.state with hstate | hstate <;> rcases hrest with hr | hr <;>
        rw [hstate] at hr <;> cases hr
    · rw [hold hne] at hget
      exact h.listed hget hrest
  · rw [hworking]
    refine (h.inLine t).imp_of_mem fun {a b} ha hb hab => hab.congr ?_ ?_
    · obtain ⟨p, hp, -⟩ := hwf.working ha
      rw [recordOf, hold, recordOf]
      rintro rfl
      rw [hs.new] at hp
      cases hp
    · obtain ⟨p, hp, -⟩ := hwf.working hb
      rw [recordOf, hold, recordOf]
      rintro rfl
      rw [hs.new] at hp
      cases hp

/-- A call whose orders are admitted in turn keeps the queues. -/
lemma Queue.step (hwf : WellFormed e) (h : Queue e) {op : MatchingOp} (hturn : InTurn cfg e op) :
    Queue (step cfg e op) := by
  rcases step_cases cfg hwf op with ⟨heq, -⟩ | ⟨o, o', hf, -, hs, -⟩ |
    ⟨o, o', hget, -, ht, -⟩ | ⟨snap, rfl, hnow, heq, -⟩
  · rw [heq]
    exact h
  · exact h.submitted hwf hs
  · exact h.touch hget ht
  · rw [heq]
    obtain ⟨e₁, -, hqueue, heq'⟩ := advance_induct cfg snap (J := fun e _ => Queue e) hwf
      (fun _ => (openInterval_induct cfg Queue.interim snap hwf h).2)
      (fun hi hJ hadm hcase hA => hJ.admission hi hadm hcase hA)
      (fun _ hJ hm hcase _ => hJ.resting hm hcase) (hturn hnow)
    rw [heq']
    exact ⟨hqueue.listed, hqueue.inLine⟩

/-! ## What a visit leaves -/

/-- What remains of an order after an effect. -/
lemma Effect.remainingSize (he : Effect e o fs o' e') :
    o'.remainingSize = max 0 (o.size - (o.filledSize + totalSize fs)) := by
  obtain ⟨o₁, hwalk, hr⟩ := he.walk
  rw [BacktestOrder.remainingSize_relabel hr, BacktestOrder.remainingSize, hwalk.size_eq,
    hwalk.filledSize_eq]

/-- A complete order stays complete. -/
lemma Effect.complete (he : Effect e o fs o' e') (h : o.remainingSize = 0) :
    o'.remainingSize = 0 := by
  obtain ⟨o₁, hwalk, -⟩ := he.walk
  have hnonneg := totalSize_nonneg hwalk.pos
  have hle : o.size - o.filledSize ≤ 0 := h ▸ le_max_right 0 (o.size - o.filledSize)
  rw [he.remainingSize]
  exact max_eq_left (by linarith)

/-- Every book of an engine is a book of another one after some consumption. -/
def BooksConsumed (e e' : MatchingEngine) : Prop :=
  ∀ t, ∀ b' ∈ e'.books.get? t, ∃ b ∈ e.books.get? t, b.Consumed b'

lemma booksConsumed_set {book' : ResidualBook} (hbook : e.books.get? o.tokenId = some book)
    (hc : book.Consumed book') (hbooks : e'.books = e.books.set o.tokenId book') :
    BooksConsumed e e' := by
  intro t b' hb'
  rw [Option.mem_def, hbooks, Dict.get?_set] at hb'
  split at hb'
  · next ht =>
    cases hb'
    exact ⟨book, ht ▸ hbook, hc⟩
  · exact ⟨b', hb', .refl b'⟩

lemma booksConsumed_of_eq (hbooks : e'.books = e.books) : BooksConsumed e e' := by
  intro t b' hb'
  rw [hbooks] at hb'
  exact ⟨b', hb', .refl b'⟩

lemma Admission.booksConsumed (hcase : Admission cfg e o book e' fs)
    (hbook : e.books.get? o.tokenId = some book) : BooksConsumed e e' := by
  rcases hcase.books with ⟨hbooks, -⟩ | ⟨hbooks, -⟩
  · exact booksConsumed_of_eq hbooks
  · exact booksConsumed_set hbook (consumeLevels_consumed _ _ _) hbooks

lemma Resting.booksConsumed (hcase : Resting cfg e o book e' fs)
    (hbook : e.books.get? o.tokenId = some book) : BooksConsumed e e' := by
  rcases hcase.books with ⟨hbooks, -⟩ | ⟨-, -, hbooks, -⟩
  · exact booksConsumed_of_eq hbooks
  · exact booksConsumed_set hbook (restLoop_consumed _ _ _ _ _) hbooks

lemma Admission.fills_of_dry (hcase : Admission cfg e o book e' fs)
    (hdry : book.Dry o.side o.price) : fs = [] := by
  rcases hcase.fills with ⟨htakes, -⟩ | ⟨-, hnil⟩
  · exact absurd htakes.2.2.2 (by rw [hdry.availableForTaker_eq_zero]; exact lt_irrefl 0)
  · exact hnil

lemma Resting.fills_of_dry (hcase : Resting cfg e o book e' fs)
    (hdry : book.Dry o.side o.price) : fs = [] := by
  rcases hcase.books with ⟨-, hnil⟩ | ⟨-, hpos, -, hfs⟩
  · exact hnil
  · have hw := restLoop_walk_of_pos cfg hpos book.snapshot (book.remaining o.side) book
    have hle : fillable cfg o book ≤ 0 := by
      rw [fillable, hdry.availableForTaker_eq_zero]
      cases modelAllowance cfg o book.snapshot with
      | none => exact le_refl 0
      | some a => exact min_le_left 0 a
    have htotal : totalSize (restLoop cfg book.snapshot (book.remaining o.side) o book
        o.remainingSize).fills = min o.remainingSize (fillable cfg o book) :=
      restLoop_total_fillable hpos
    rw [hfs]
    refine (totalSize_eq_zero hw.pos).1 (le_antisymm ?_ (totalSize_nonneg hw.pos))
    rw [htotal]
    exact (min_le_right _ _).trans hle

/-- An order that arrives is turned down, or is complete, or leaves nothing within its limit. -/
lemma Admission.outcome (hvenue : cfg.venue.SeesBook) (hcase : Admission cfg e o book e' fs)
    (hbook : e.books.get? o.tokenId = some book) (he : Effect e o fs o' e') :
    o'.state = .rejected ∨ o'.remainingSize = 0 ∨
      ∀ b ∈ e'.books.get? o.tokenId, b.Dry o.side o.price := by
  have hself := he.get?
  have hwalked : ∀ r, r = consumeLevels cfg e.now o book → fs = r.fills →
      e'.books = e.books.set o.tokenId r.book →
      o'.remainingSize = 0 ∨ ∀ b ∈ e'.books.get? o.tokenId, b.Dry o.side o.price := by
    rintro r rfl hfs hbooks
    have hw := consumeLevels_walk cfg e.now o book
    have hsame : o'.remainingSize = (consumeLevels cfg e.now o book).order.remainingSize := by
      rw [he.remainingSize, hfs, BacktestOrder.remainingSize, hw.size_eq, hw.filledSize_eq]
    rcases (le_max_left 0 _ : 0 ≤ o'.remainingSize).lt_or_eq with hmore | hdone
    · refine .inr fun b hb => ?_
      rw [Option.mem_def, hbooks, Dict.get?_set_self] at hb
      cases hb
      exact consumeLevels_dry e.now (hsame ▸ hmore)
    · exact .inl hdone.symm
  have hsees : marketable cfg o book = false → e'.books = e.books →
      ∀ b ∈ e'.books.get? o.tokenId, b.Dry o.side o.price := by
    intro hm hbooks b hb
    rw [hbooks, Option.mem_def, hbook] at hb
    cases hb
    exact hvenue.dry hm
  have htok := (consumeLevels_walk cfg e.now o book).tokenId_eq
  cases hcase with
  | crossed hpost =>
    have hget : (e.orders.set o.orderId
      { o with rejectReason := some .postOnlyCrossesBook, state := .rejected }).get? o.orderId =
        some o' := hself
    rw [Dict.get?_set_self] at hget
    cases hget
    exact .inl rfl
  | insufficient htif hfit =>
    have hget : (e.orders.set o.orderId
      { o with rejectReason := some .fokInsufficientLiquidity, state := .rejected }).get?
        o.orderId = some o' := hself
    rw [Dict.get?_set_self] at hget
    cases hget
    exact .inl rfl
  | killedOrFilled hpost htif hfit r hr =>
    exact .inr (hwalked r hr rfl (by subst hr; rw [← htok]; rfl))
  | filled hpost htif hm r hr hdone =>
    exact .inr (hwalked r hr rfl (by subst hr; rw [← htok]; rfl))
  | cut hpost htif hm r hr => exact .inr (hwalked r hr rfl (by subst hr; rw [← htok]; rfl))
  | restedRemainder hpost htif himm hm r hr hmore =>
    exact .inr (hwalked r hr rfl (by subst hr; rw [← htok]; rfl))
  | expired htif hm => exact .inr (.inr (hsees hm rfl))
  | rested htif hm => exact .inr (.inr (hsees hm rfl))

/-- An unblocked resting order that is matched in turn is complete afterwards, or leaves nothing
within its limit when a later rival rests. -/
lemma tryMatchResting_outcome (hopen : o.Unblocked cfg book.snapshot) (hlive : o.isTerminal = false)
    (hturn : MatchInTurn cfg e o.orderId) (hget : e.orders.get? o.orderId = some o)
    (hlater : ∃ p ∈ e.orders.values, p.IsResting ∧ o.Rivals p ∧ o.ArrivesBefore p)
    (hbook : e.books.get? o.tokenId = some book) :
    ∃ o', (e.tryMatchResting cfg o).1.orders.get? o.orderId = some o' ∧
      (o'.remainingSize = 0 ∨
        ∀ b ∈ (e.tryMatchResting cfg o).1.books.get? o.tokenId, b.Dry o.side o.price) := by
  unfold tryMatchResting
  simp only [hbook, hopen.queue, Bool.false_eq_true, if_false]
  split
  · next hdone => exact ⟨o, hget, .inl (le_antisymm hdone (le_max_left _ _))⟩
  next hmore =>
  have hpos := not_le.1 hmore
  set r := restLoop cfg book.snapshot (book.remaining o.side) o book o.remainingSize with hr
  have hw : Walk o r.fills r.order := restLoop_walk_of_pos cfg hpos _ _ _
  have hleft : r.order.remainingSize = 0 ∨ r.book.Dry o.side o.price := by
    rcases (le_max_left 0 _ : 0 ≤ r.order.remainingSize).lt_or_eq with hleft | hdone
    · -- something is left, so the order wanted more than was within its limit
      have hshort : availableForTaker book o.side o.price < o.remainingSize := by
        have hlt := totalSize_lt_of_left hw hleft
        rw [hr, restLoop_total_fillable hpos] at hlt
        have hfill := (min_lt_iff.1 hlt).resolve_left (lt_irrefl _)
        rw [fillable] at hfill
        cases hm : modelAllowance cfg o book.snapshot with
        | none => rwa [hm] at hfill
        | some a =>
          rw [hm] at hfill
          exact (min_lt_iff.1 hfill).resolve_right (not_lt.2 (hopen.gate a hm))
      exact .inr (restLoop_dry hpos hopen (hturn o hget book hbook hopen hshort hlater) hleft)
    · exact .inl hdone.symm
  have hlive' : r.order.isTerminal = false := by
    rw [BacktestOrder.isTerminal, hw.state_eq]
    exact hlive
  have hbooks : (e.books.set o.tokenId r.book).get? o.tokenId = some r.book := Dict.get?_set_self _ _ _
  have hdry : r.book.Dry o.side o.price → ∀ b ∈ (e.books.set o.tokenId r.book).get? o.tokenId,
      b.Dry o.side o.price := by
    intro h b hb
    rw [hbooks, Option.mem_def] at hb
    cases hb
    exact h
  split
  · rw [terminate_of_live hlive']
    obtain ⟨w, hremoved⟩ := removeFromWorking_eq
      ((MatchingEngine.finish { e.putOrder r.order with books := e.books.set o.tokenId r.book }
        { r.order with state := .filled })) r.order
    rw [hremoved]
    refine ⟨{ r.order with state := .filled }, ?_, hleft.imp id hdry⟩
    show ((e.orders.set r.order.orderId r.order).set r.order.orderId _).get? o.orderId = _
    rw [hw.orderId_eq, Dict.get?_set_self]
  · refine ⟨r.order, ?_, hleft.imp id hdry⟩
    show (e.orders.set r.order.orderId r.order).get? o.orderId = _
    rw [hw.orderId_eq, Dict.get?_set_self]

/-! ## One advance -/

/-- `x` stands before its rival `y` when the snapshot comes: it arrived earlier, and `y` has
arrived. -/
structure Ahead (snap : BookSnapshot) (x y : BacktestOrder) : Prop where
  tokenId : x.tokenId = snap.tokenId
  rivals : x.Rivals y
  arrivesBefore : x.ArrivesBefore y
  arrived : ∃ t ∈ y.venueReceivedAt, t ≤ snap.observedAt

/-- The venue has not turned the order down, and nothing holds it back while it rests. -/
structure Eligible (cfg : MatchingConfig) (snap : BookSnapshot) (o : BacktestOrder) : Prop where
  accepted : o.state ≠ .rejected
  unblocked : o.IsResting → o.Unblocked cfg snap

instance (cfg : MatchingConfig) (snap : BookSnapshot) (o : BacktestOrder) :
    Decidable (Eligible cfg snap o) :=
  decidable_of_iff (o.state ≠ .rejected ∧ (o.IsResting → o.Unblocked cfg snap))
    ⟨fun ⟨ha, hu⟩ => ⟨ha, hu⟩, fun h => ⟨h.accepted, h.unblocked⟩⟩

/-- No fill is a fill of `y`. -/
def Unfilled (y : BacktestOrder) (fs : List Fill) : Prop := ∀ f ∈ fs, f.orderId ≠ y.orderId

/-- `x` is complete, or nothing is left within its limit and `y` has not been filled. -/
def Yielded (x y : BacktestOrder) (e : MatchingEngine) (fs : List Fill) : Prop :=
  (∃ o, e.orders.get? x.orderId = some o ∧ o.remainingSize = 0) ∨
    (Unfilled y fs ∧ ∀ b ∈ e.books.get? x.tokenId, b.Dry x.side x.price)

/-- `y` is on record with its token, side, limit and arrival. -/
def Stands (y : BacktestOrder) (e : MatchingEngine) : Prop :=
  recordOf standing e y.orderId = some (standing y)

section Contest

variable {x y : BacktestOrder}

lemma Unfilled.append (h : Unfilled y fs) (h' : Unfilled y fs') : Unfilled y (fs ++ fs') := by
  intro f hf
  rcases List.mem_append.1 hf with hf | hf
  · exact h f hf
  · exact h' f hf

lemma Unfilled.nil : Unfilled y [] := by rintro f ⟨⟩

lemma Effect.unfilled (he : Effect e o fs o' e') (hne : o.orderId ≠ y.orderId) : Unfilled y fs := by
  obtain ⟨o₁, hwalk, -⟩ := he.walk
  intro f hf
  rw [(hwalk.own hf).1]
  exact hne

lemma Stands.effect (h : Stands y e) (hget : e.orders.get? o.orderId = some o)
    (he : Effect e o fs o' e') : Stands y e' :=
  (congrFun (kept_standing.effect hget he) _).trans h

/-- What is on record for `y` has its standing. -/
lemma Stands.of_get? (h : Stands y e) (hget : e.orders.get? y.orderId = some o) :
    o.tokenId = y.tokenId ∧ o.side = y.side ∧ o.price = y.price ∧
      o.venueReceivedAt = y.venueReceivedAt := by
  unfold Stands recordOf at h
  rw [hget] at h
  simpa [standing] using h

/-- An effect keeps `Yielded`, when `y` is not filled from a dry book. -/
lemma Yielded.effect (h : Yielded x y e fs) (hget : e.orders.get? o.orderId = some o)
    (he : Effect e o fs' o' e') (hbooks : BooksConsumed e e')
    (hdry : o.orderId = y.orderId → (∀ b ∈ e.books.get? x.tokenId, b.Dry x.side x.price) →
      fs' = []) : Yielded x y e' (fs ++ fs') := by
  rcases h with ⟨p, hp, hzero⟩ | ⟨hquiet, hbook⟩
  · refine .inl ?_
    by_cases hid : o.orderId = x.orderId
    · rw [← hid] at hp ⊢
      cases hget.symm.trans hp
      exact ⟨o', he.get?, he.complete hzero⟩
    · refine ⟨p, ?_, hzero⟩
      rw [he.orders, Dict.get?_set_of_ne _ _ hid]
      exact hp
  · refine .inr ⟨?_, fun b' hb' => ?_⟩
    · by_cases hid : o.orderId = y.orderId
      · rw [hdry hid hbook, List.append_nil]
        exact hquiet
      · exact hquiet.append (he.unfilled hid)
    · obtain ⟨b, hb, hc⟩ := hbooks _ b' hb'
      exact (hbook b hb).mono hc

lemma Yielded.admission (hi : InInterval snap e) (h : Yielded x y e fs) (hy : Stands y e)
    (hr : x.Rivals y) (hadm : Admissible snap e o book) (hcase : Admission cfg e o book e' fs') :
    Yielded x y e' (fs ++ fs') := by
  obtain ⟨o', he⟩ := hadm.effect hi hcase
  refine h.effect hadm.order he (hcase.booksConsumed hadm.bookOf) fun hid hdry => ?_
  obtain ⟨ht, hs, hp, -⟩ := hy.of_get? (hid ▸ hadm.order)
  refine hcase.fills_of_dry ?_
  rw [hs, hp, hr.side, hr.price]
  exact hdry book (by rw [← hr.tokenId, ← ht]; exact hadm.bookOf)

lemma Yielded.resting (h : Yielded x y e fs) (hy : Stands y e) (hr : x.Rivals y)
    (hm : Matchable snap e o book) (hcase : Resting cfg e o book e' fs') :
    Yielded x y e' (fs ++ fs') := by
  rcases hm.effect hcase with ⟨rfl, rfl⟩ | ⟨o', he⟩
  · rw [List.append_nil]
    exact h
  · refine h.effect hm.order he (hcase.booksConsumed hm.bookOf) fun hid hdry => ?_
    obtain ⟨ht, hs, hp, -⟩ := hy.of_get? (hid ▸ hm.order)
    refine hcase.fills_of_dry ?_
    rw [hs, hp, hr.side, hr.price]
    exact hdry book (by rw [← hr.tokenId, ← ht]; exact hm.bookOf)

/-- What is on record for `y` did not arrive before `x`. -/
lemma Ahead.not_arrivesBefore (h : Ahead snap x y) (hy : Stands y e)
    (hget : e.orders.get? y.orderId = some o) : ¬ o.ArrivesBefore x := by
  obtain ⟨-, -, -, hv⟩ := hy.of_get? hget
  exact (h.arrivesBefore.congr rfl hv).asymm

lemma Ahead.ne (h : Ahead snap x y) (hy : Stands y e) (hx : e.orders.get? x.orderId = some x) :
    x.orderId ≠ y.orderId := by
  intro heq
  rw [heq] at hx
  obtain ⟨-, -, -, hv⟩ := hy.of_get? hx
  have hself : x.ArrivesBefore x := h.arrivesBefore.congr rfl hv
  exact hself.asymm hself

/-- Step 3 when `x` arrives on this snapshot and the orders `ids` are still to be visited: `x`
has been turned down, or it has been visited, or it is still to be visited and `y` is not
filled. -/
structure Arriving (snap : BookSnapshot) (x y : BacktestOrder) (ids : List OrderId)
    (e : MatchingEngine) (fs : List Fill) : Prop where
  inInterval : InInterval snap e
  stands : Stands y e
  visit : (∃ o, e.orders.get? x.orderId = some o ∧ o.state = .rejected) ∨ Yielded x y e fs ∨
    (x.orderId ∈ ids ∧ e.orders.get? x.orderId = some x ∧ Unfilled y fs)

lemma Arriving.next (hvenue : cfg.venue.SeesBook) (hahead : Ahead snap x y)
    (hdue : isDue snap.tokenId snap.observedAt x = true) {id : OrderId}
    (h : Arriving snap x y (id :: ids) e fs) (hturn : AdmitInTurn cfg snap e id) :
    Arriving snap x y ids (admitOne cfg snap id e).1 (fs ++ (admitOne cfg snap id e).2) := by
  obtain ⟨hi, hy, hvisit⟩ := h
  rcases admitOne_cases cfg hi id with hidle | ⟨o, book, rfl, hadm, hcase⟩
  · -- nothing happens, so it was not the turn of `x`
    rw [hidle, List.append_nil]
    refine ⟨hi, hy, hvisit.imp_right fun hv => hv.imp_right ?_⟩
    rintro ⟨hmem, hx, hquiet⟩
    rcases List.mem_cons.1 hmem with rfl | hmem
    · obtain ⟨book, -, hadm, hcase⟩ := admitOne_of_due cfg hi hx hdue
      obtain ⟨o', he⟩ := hadm.effect hi hcase
      have hself := he.get?
      rw [hidle, hx] at hself
      cases hself
      cases he.ends with
      | finished hterm => rw [hadm.isTerminal] at hterm; cases hterm
      | rests hrest => rcases hrest with hs | hs <;> rw [hadm.state] at hs <;> cases hs
    · exact ⟨hmem, hx, hquiet⟩
  · obtain ⟨o', he⟩ := hadm.effect hi hcase
    refine ⟨inInterval_admitOne hi o.orderId, hy.effect hadm.order he, ?_⟩
    rcases hvisit with ⟨p, hp, hstate⟩ | hyielded | ⟨hmem, hx, hquiet⟩
    · have hne : o.orderId ≠ x.orderId := by
        intro heq
        rw [← heq] at hp
        cases hadm.order.symm.trans hp
        rw [hadm.state] at hstate
        cases hstate
      refine .inl ⟨p, ?_, hstate⟩
      rw [he.orders, Dict.get?_set_of_ne _ _ hne]
      exact hp
    · exact .inr (.inl (hyielded.admission hi hy hahead.rivals hadm hcase))
    · by_cases hid : o.orderId = x.orderId
      · -- the turn of `x`
        have hox : o = x := by
          rw [← hid, hadm.order] at hx
          exact Option.some.inj hx
        subst hox
        have hunfilled := hquiet.append (he.unfilled (hahead.ne hy hx))
        rcases hcase.outcome hvenue hadm.bookOf he with hstate | hzero | hdry
        · exact .inl ⟨o', he.get?, hstate⟩
        · exact .inr (.inl (.inl ⟨o', he.get?, hzero⟩))
        · exact .inr (.inl (.inr ⟨hunfilled, hdry⟩))
      · refine .inr (.inr ⟨(List.mem_cons.1 hmem).resolve_left (Ne.symm hid), ?_, ?_⟩)
        · rw [he.orders, Dict.get?_set_of_ne _ _ hid]
          exact hx
        · -- it is not the turn of `y`, since `x` is due and arrived earlier
          refine hquiet.append (he.unfilled fun heq => ?_)
          have hbefore := (hturn o hadm.order hadm.due x (Dict.mem_values.2 ⟨_, hx⟩)
            (Ne.symm hid)).1 hdue
          exact hahead.not_arrivesBefore hy (heq ▸ hadm.order) hbefore

/-- Step 3 visits an order that arrives on this snapshot before its later rival. -/
lemma admitAll_arriving (hvenue : cfg.venue.SeesBook) (hi : InInterval snap e)
    (hahead : Ahead snap x y) (hy : Stands y e) (hx : e.orders.get? x.orderId = some x)
    (hdue : isDue snap.tokenId snap.observedAt x = true)
    (hturn : EveryAdmission cfg snap (AdmitInTurn cfg snap) e) :
    Arriving snap x y [] (admitAll cfg snap e).1 (admitAll cfg snap e).2 := by
  have hstart : Arriving snap x y e.orders.keys e [] :=
    ⟨hi, hy, .inr (.inr ⟨Dict.mem_keys.2 ⟨_, hx⟩, hx, .nil⟩)⟩
  exact forOrders_induct (fun _ _ _ _ h hC => h.next hvenue hahead hdue hC) hstart hturn

/-- Step 3 leaves a resting order as it is, and fills no later rival of one that nothing holds
back. -/
lemma admitAll_unfilled (hi : InInterval snap e) (hahead : Ahead snap x y) (hy : Stands y e)
    (hx : e.orders.get? x.orderId = some x) (hrest : x.IsResting)
    (hturn : EveryAdmission cfg snap (AdmitInTurn cfg snap) e) :
    Stands y (admitAll cfg snap e).1 ∧
      (admitAll cfg snap e).1.orders.get? x.orderId = some x ∧
        (x.Unblocked cfg snap → Unfilled y (admitAll cfg snap e).2) := by
  refine (admitAll_induct cfg (J := fun e fs => Stands y e ∧ e.orders.get? x.orderId = some x ∧
      (x.Unblocked cfg snap → Unfilled y fs)) ?_ hi ⟨hy, hx, fun _ => .nil⟩ hturn).2
  rintro e o book e' fs fs' hi ⟨hy, hx, hquiet⟩ hadm hcase hC
  obtain ⟨o', he⟩ := hadm.effect hi hcase
  have hne : o.orderId ≠ x.orderId := by
    intro heq
    rw [← heq] at hx
    cases hadm.order.symm.trans hx
    rcases hrest with hs | hs <;> rw [hadm.state] at hs <;> cases hs
  refine ⟨hy.effect hadm.order he, ?_, fun hopen => ?_⟩
  · rw [he.orders, Dict.get?_set_of_ne _ _ hne]
    exact hx
  · by_cases hid : o.orderId = y.orderId
    · -- the rival takes nothing that the resting order waits for
      obtain ⟨ht, hs, hp, -⟩ := hy.of_get? (hid ▸ hadm.order)
      have hrival : o.Rivals x := by
        refine ⟨?_, ?_, ?_⟩
        · rw [ht, hahead.rivals.tokenId]
        · rw [hs, hahead.rivals.side]
        · rw [hp, hahead.rivals.price]
      have hnot := ((hC o hadm.order hadm.due x (Dict.mem_values.2 ⟨_, hx⟩) (Ne.symm hne)).2
        hrest hrival).2 hopen book hadm.bookOf
      rcases hcase.fills with ⟨htakes, -⟩ | ⟨-, hnil⟩
      · exact absurd htakes hnot
      · rw [hnil, List.append_nil]
        exact hquiet hopen
    · exact (hquiet hopen).append (he.unfilled hid)

/-- Step 4 keeps `Yielded`. -/
lemma matchAll_yielded (hi : InInterval snap e) (hr : x.Rivals y) (hy : Stands y e)
    (h : Yielded x y e fs) :
    Yielded x y (matchAll cfg snap e).1 (fs ++ (matchAll cfg snap e).2) := by
  refine (matchAll_induct cfg (C := fun _ _ => True)
    (J := fun e fs => Stands y e ∧ Yielded x y e fs) ?_ hi ⟨hy, h⟩
    (.of_forall fun _ _ => trivial)).2.2
  rintro e o book e' fs fs' - ⟨hy, hyielded⟩ hm hcase -
  refine ⟨?_, hyielded.resting hy hr hm hcase⟩
  rcases hm.effect hcase with ⟨rfl, -⟩ | ⟨o', he⟩
  · exact hy
  · exact hy.effect hm.order he

/-- Step 4 when `x` rests and the orders `ids` are still to be visited: `x` has been visited, or
it is still to be visited and neither it nor `y` has been touched. -/
structure Waiting (snap : BookSnapshot) (x y : BacktestOrder) (ids : List OrderId)
    (e : MatchingEngine) (fs : List Fill) : Prop where
  queue : MatchQueue snap ids e
  stands : Stands y e
  order : ids.Pairwise fun a b => a = y.orderId → b ≠ x.orderId
  visit : Yielded x y e fs ∨
    (x.orderId ∈ ids ∧ e.orders.get? x.orderId = some x ∧ Unfilled y fs ∧
      ∃ p, e.orders.get? y.orderId = some p ∧ p.IsResting)

lemma Waiting.next (hahead : Ahead snap x y) (hopen : x.Unblocked cfg snap) {id : OrderId}
    (h : Waiting snap x y (id :: ids) e fs) (hturn : MatchInTurn cfg e id) :
    Waiting snap x y ids (matchOne cfg id e).1 (fs ++ (matchOne cfg id e).2) := by
  obtain ⟨hqueue, hy, horder, hvisit⟩ := h
  obtain ⟨hfirst, horder'⟩ := List.pairwise_cons.1 horder
  obtain ⟨o, book, rfl, hm, hcase⟩ :=
    matchOne_cases cfg hqueue.inInterval (hqueue.working id List.mem_cons_self)
  have hy' : Stands y (matchOne cfg o.orderId e).1 := by
    rcases hm.effect hcase with ⟨heq, -⟩ | ⟨o', he⟩
    · rw [heq]
      exact hy
    · exact hy.effect hm.order he
  refine ⟨hqueue.next cfg, hy', horder', ?_⟩
  rcases hvisit with hyielded | ⟨hmem, hx, hquiet, p, hp, hrest⟩
  · exact .inl (hyielded.resting hy hahead.rivals hm hcase)
  by_cases hid : o.orderId = x.orderId
  · -- the turn of `x`
    have hox : o = x := by
      rw [← hid, hm.order] at hx
      exact Option.some.inj hx
    subst hox
    have hlive := hm.resting.isTerminal
    have hturned : matchOne cfg o.orderId e = e.tryMatchResting cfg o := by
      unfold matchOne
      simp only [hm.order, hlive, Bool.false_eq_true, if_false]
    have hlater : ∃ q ∈ e.orders.values, q.IsResting ∧ o.Rivals q ∧ o.ArrivesBefore q := by
      obtain ⟨ht, hs, hl, hv⟩ := hy.of_get? hp
      have hr := hahead.rivals
      exact ⟨p, Dict.mem_values.2 ⟨_, hp⟩, hrest,
        ⟨ht.trans hr.tokenId, hs.trans hr.side, hl.trans hr.price⟩,
        hahead.arrivesBefore.congr rfl hv⟩
    rw [← hm.snapshot] at hopen
    obtain ⟨o', hself, hzero | hdry⟩ :=
      tryMatchResting_outcome hopen hlive hturn hm.order hlater hm.bookOf
    · exact .inl (.inl ⟨o', by rw [hturned]; exact hself, hzero⟩)
    · refine .inl (.inr ⟨hquiet.append ?_, by rw [hturned]; exact hdry⟩)
      rcases hm.effect hcase with ⟨-, hnil⟩ | ⟨o'', he⟩
      · rw [hnil]
        exact .nil
      · exact he.unfilled (hahead.ne hy hx)
  · have hmem' : x.orderId ∈ ids := (List.mem_cons.1 hmem).resolve_left (Ne.symm hid)
    have hne : o.orderId ≠ y.orderId := fun heq => hfirst _ hmem' heq rfl
    refine .inr ⟨hmem', ?_⟩
    rcases hm.effect hcase with ⟨heq, hnil⟩ | ⟨o', he⟩
    · rw [heq, hnil, List.append_nil]
      exact ⟨hx, hquiet, p, hp, hrest⟩
    · rw [he.orders, Dict.get?_set_of_ne _ _ hid, Dict.get?_set_of_ne _ _ hne]
      exact ⟨hx, hquiet.append (he.unfilled hne), p, hp, hrest⟩

/-- Step 4 does not fill an order that does not rest. -/
lemma matchAll_unfilled (hi : InInterval snap e) (hnot : y.orderId ∉ e.workingIds snap.tokenId)
    (h : Unfilled y fs) : Unfilled y (fs ++ (matchAll cfg snap e).2) := by
  have hstart : MatchQueue snap (e.workingIds snap.tokenId) e ∧
      y.orderId ∉ e.workingIds snap.tokenId ∧ Unfilled y fs := ⟨hi.matchQueue, hnot, h⟩
  refine (forOrders_induct (C := fun _ _ => True) (I := fun ids e fs => MatchQueue snap ids e ∧
    y.orderId ∉ ids ∧ Unfilled y fs) ?_ hstart (.of_forall fun _ _ => trivial)).2.2
  rintro id ids e fs ⟨hqueue, hnot, hquiet⟩ -
  obtain ⟨o, book, rfl, hm, hcase⟩ :=
    matchOne_cases cfg hqueue.inInterval (hqueue.working id List.mem_cons_self)
  refine ⟨hqueue.next cfg, fun hmem => hnot (List.mem_cons_of_mem _ hmem), hquiet.append ?_⟩
  rcases hm.effect hcase with ⟨-, hnil⟩ | ⟨o', he⟩
  · rw [hnil]
    exact .nil
  · refine he.unfilled fun heq => hnot ?_
    rw [heq]
    exact List.mem_cons_self

/-- Step 4 visits a resting order before its later rival. -/
lemma matchAll_waiting (hi : InInterval snap e) (hq : Queue e) (hahead : Ahead snap x y)
    (hy : Stands y e) (hx : e.orders.get? x.orderId = some x) (hrest : x.IsResting)
    (hopen : x.Unblocked cfg snap) (h : Unfilled y fs)
    (hturn : EveryMatch cfg snap (MatchInTurn cfg) e) :
    (∃ o, (matchAll cfg snap e).1.orders.get? x.orderId = some o ∧ o.remainingSize = 0) ∨
      Unfilled y (fs ++ (matchAll cfg snap e).2) := by
  by_cases hmem : y.orderId ∈ e.workingIds snap.tokenId
  · obtain ⟨p, hp, -, hrests⟩ := hi.wellFormed.working hmem
    have hlisted : x.orderId ∈ e.workingIds snap.tokenId := hahead.tokenId ▸ hq.listed hx hrest
    have horder : (e.workingIds snap.tokenId).Pairwise fun a b => a = y.orderId → b ≠ x.orderId := by
      refine (hq.inLine snap.tokenId).imp fun {a b} hab => ?_
      rintro rfl rfl
      -- `y` would stand before `x`
      obtain ⟨ht, hs, hl, -⟩ := hy.of_get? hp
      have hr := hahead.rivals
      refine hahead.not_arrivesBefore hy hp (hab p hp x hx ⟨?_, ?_, ?_⟩)
      · rw [ht, hr.tokenId]
      · rw [hs, hr.side]
      · rw [hl, hr.price]
    have hstart : Waiting snap x y (e.workingIds snap.tokenId) e fs :=
      ⟨hi.matchQueue, hy, horder, .inr ⟨hlisted, hx, h, p, hp, hrests⟩⟩
    have hend : Waiting snap x y [] (matchAll cfg snap e).1 (fs ++ (matchAll cfg snap e).2) :=
      forOrders_induct (fun _ _ _ _ h hC => h.next hahead hopen hC) hstart hturn
    rcases hend.visit with (hzero | ⟨hquiet, -⟩) | ⟨hnil, -⟩
    · exact .inl hzero
    · exact .inr hquiet
    · cases hnil
  · exact .inr (matchAll_unfilled hi hmem h)

end Contest

/-- In an advance whose orders are admitted and matched in turn, a later rival is filled only
when the earlier order is complete. -/
lemma advance_prioritized (hvenue : cfg.venue.SeesBook) (hwf : WellFormed e) (hq : Queue e)
    (hturn : EveryOrder cfg snap (AdmitInTurn cfg snap) (MatchInTurn cfg) e)
    {x y : BacktestOrder} (hahead : Ahead snap x y)
    (hx : (openInterval cfg snap e).orders.get? x.orderId = some x)
    (hy : (openInterval cfg snap e).orders.get? y.orderId = some y) (hlive : x.isTerminal = false)
    (heligible : ∀ o ∈ (admitAll cfg snap (openInterval cfg snap e)).1.orders.get? x.orderId,
      Eligible cfg snap o) :
    (∃ o, (advance cfg snap e).1.orders.get? x.orderId = some o ∧ o.remainingSize = 0) ∨
      Unfilled y (advance cfg snap e).2 := by
  have hi := inInterval_open cfg hwf snap
  have hstands : Stands y (openInterval cfg snap e) := congrArg (Option.map standing) hy
  have hq' : Queue (openInterval cfg snap e) :=
    (openInterval_induct cfg Queue.interim snap hwf hq).2
  obtain ⟨hi', hq''⟩ := admitAll_induct cfg (J := fun e _ => Queue e)
    (fun hi hJ hadm hcase hC => hJ.admission hi hadm hcase hC) hi hq' hturn.1
  have hresting : x.IsResting →
      (∃ o, (advance cfg snap e).1.orders.get? x.orderId = some o ∧ o.remainingSize = 0) ∨
        Unfilled y (advance cfg snap e).2 := by
    intro hrest
    obtain ⟨hstands', hx', hquiet⟩ := admitAll_unfilled hi hahead hstands hx hrest hturn.1
    have hopen := (heligible x hx').unblocked hrest
    exact matchAll_waiting hi' hq'' hahead hstands' hx' hrest hopen (hquiet hopen) hturn.2
  have harriving : x.state = .pending →
      (∃ o, (advance cfg snap e).1.orders.get? x.orderId = some o ∧ o.remainingSize = 0) ∨
        Unfilled y (advance cfg snap e).2 := by
    intro hstate
    have hdue : isDue snap.tokenId snap.observedAt x = true := by
      obtain ⟨t', ht', hle⟩ := hahead.arrived
      have hbefore := hahead.arrivesBefore
      unfold BacktestOrder.ArrivesBefore at hbefore
      cases hv : x.venueReceivedAt with
      | none => rw [hv] at hbefore; exact hbefore.elim
      | some t =>
        rw [hv, ht'] at hbefore
        simp [isDue, hahead.tokenId, hstate, hv, (lt_of_lt_of_le hbefore hle).le]
    obtain ⟨-, hstands', hrejected | hyielded | ⟨hnil, -⟩⟩ :=
      admitAll_arriving hvenue hi hahead hstands hx hdue hturn.1
    · obtain ⟨o, hget, hstate⟩ := hrejected
      exact absurd hstate (heligible o hget).accepted
    · exact (matchAll_yielded hi' hahead.rivals hstands' hyielded).imp_right fun h => h.1
    · cases hnil
  cases hstate : x.state with
  | pending => exact harriving hstate
  | working => exact hresting (.inl hstate)
  | partiallyFilled => exact hresting (.inr hstate)
  | filled => rw [BacktestOrder.isTerminal, hstate] at hlive; cases hlive
  | cancelled => rw [BacktestOrder.isTerminal, hstate] at hlive; cases hlive
  | rejected => rw [BacktestOrder.isTerminal, hstate] at hlive; cases hlive

/-! ## Runs -/

/-- On every snapshot, an order is filled only when every eligible rival that arrived before it
is left with nothing. -/
def Prioritized (cfg : MatchingConfig) (ops : List MatchingOp) : Prop :=
  ∀ pre snap, pre ++ [.advanceTo snap] <+: ops →
    let e := runOps cfg pre
    let opened := openInterval cfg snap e
    ∀ x y, opened.orders.get? x.orderId = some x → opened.orders.get? y.orderId = some y →
      Ahead snap x y → x.isTerminal = false →
      (∀ o ∈ (admitAll cfg snap opened).1.orders.get? x.orderId, Eligible cfg snap o) →
      (∃ f ∈ produced cfg e (.advanceTo snap), f.orderId = y.orderId) →
      ∀ o ∈ (step cfg e (.advanceTo snap)).orders.get? x.orderId, o.remainingSize = 0

/-- **Price-time priority.**  In a run whose orders are admitted and matched in turn, another
order of submission produces the same fills, and an order is filled only when every
eligible rival that arrived before it is left with nothing. -/
theorem prioritized_of_inTurn (cfg : MatchingConfig) (hvenue : cfg.venue.SeesBook)
    (ops : List MatchingOp) (hturn : EveryStep (step cfg) (InTurn cfg) {} ops) :
    (∀ ops', Resubmitted ops ops' → SameArrivals (runOps cfg ops) (runOps cfg ops') →
      EveryStep (step cfg) (InTurn cfg) {} ops' → producedBy cfg {} ops' = producedBy cfg {} ops) ∧
      Prioritized cfg ops := by
  constructor
  · intro ops' hre harrivals hturn'
    exact producedBy_of_resubmitted hre (.refl {}) wellFormed_init wellFormed_init harrivals hturn
      hturn'
  · intro pre snap hpre e opened x y hx hy hahead hlive heligible hfilled o hget
    have hrun := EveryStep.append.1 (hturn.of_prefix hpre)
    obtain ⟨hwf, hq⟩ : WellFormed e ∧ Queue e :=
      hrun.1.invariant (I := fun e => WellFormed e ∧ Queue e) ⟨wellFormed_init, queue_init⟩
        fun s op hs hC => ⟨wellFormed_step hs.1 op, hs.2.step hs.1 hC⟩
    rcases step_advanceTo cfg e snap with ⟨-, -, hnone⟩ | ⟨hnow, hstep, hproduced⟩
    · -- a snapshot that is older than the clock fills nothing
      obtain ⟨f, hf, -⟩ := hfilled
      rw [hnone] at hf
      cases hf
    · rw [hproduced] at hfilled
      rw [hstep] at hget
      obtain ⟨f, hf, hid⟩ := hfilled
      rcases advance_prioritized hvenue hwf hq (hrun.2.1 hnow) hahead hx hy hlive heligible with
        ⟨p, hp, hzero⟩ | hquiet
      · cases hp.symm.trans hget
        exact hzero
      · exact absurd hid (hquiet f hf)

/-- A bid of ten shares at one half. -/
def newBid (id : OrderId) (token : TokenId) (submittedAt : Time) : NewOrder :=
  ⟨.limit id token .buy (1 / 2) 10 submittedAt, rfl, rfl⟩

/-- An offer of ten shares at one half. -/
def offerAtHalf : BookSnapshot := .offer "t" 20000 ⟨1 / 2, 10⟩

/-- Two bids on one token in the order of their arrival, and one on another token. -/
def earlyFirst : List MatchingOp :=
  [newBid "early" "t" 0, newBid "other" "u" 100, newBid "late" "t" 5000].map submitCall ++
    [.advanceTo offerAtHalf]

/-- The same bids, the one on the other token first. -/
def otherFirst : List MatchingOp :=
  [newBid "other" "u" 100, newBid "early" "t" 0, newBid "late" "t" 5000].map submitCall ++
    [.advanceTo offerAtHalf]

/-- Bids that are submitted in the order of their arrival are filled in it. -/
theorem earlyFirst_prioritized :
    producedBy (.plain 1) {} otherFirst = producedBy (.plain 1) {} earlyFirst ∧
      Prioritized (.plain 1) earlyFirst := by
  have hturn : EveryStep (step (.plain 1)) (InTurn (.plain 1)) {} earlyFirst := by decide +kernel
  have hturn' : EveryStep (step (.plain 1)) (InTurn (.plain 1)) {} otherFirst := by decide +kernel
  obtain ⟨hfills, hprioritized⟩ :=
    prioritized_of_inTurn (.plain 1) polymarketVenue_seesBook earlyFirst hturn
  have hre : Resubmitted earlyFirst otherFirst :=
    .submits (List.Perm.swap _ _ _) (by decide) (.advanceTo offerAtHalf .done)
  exact ⟨hfills otherFirst hre (by decide +kernel) hturn', hprioritized⟩

/-- The later of two bids is submitted first. -/
def lateFirst : List MatchingOp :=
  [newBid "late" "t" 5000, newBid "early" "t" 0].map submitCall ++ [.advanceTo offerAtHalf]

/-- The same bids in the order of their arrival. -/
def lateSecond : List MatchingOp :=
  [newBid "early" "t" 0, newBid "late" "t" 5000].map submitCall ++ [.advanceTo offerAtHalf]

/-- A latency of ten milliseconds for the first order and of one for every other. -/
def jittery : MatchingConfig :=
  { MatchingConfig.plain 1 with
    latency :=
      { submit := { law := id }
        cancel := { law := id }
        gauss := fun n => if n = 0 then 10 else 1
        correlationWindowMs := 0 } }

/-- Two bids submitted at once, of which the second arrives first. -/
def overtaking : List MatchingOp :=
  [newBid "late" "t" 0, newBid "early" "t" 0].map submitCall ++ [.advanceTo offerAtHalf]

/-- The order of submission decides which of two bids is filled, and the one that was overtaken
on the way is filled all the same. -/
theorem lateFirst_overtakes :
    (Resubmitted lateFirst lateSecond ∧
      SameArrivals (runOps (.plain 1) lateFirst) (runOps (.plain 1) lateSecond) ∧
      producedBy (.plain 1) {} lateSecond ≠ producedBy (.plain 1) {} lateFirst) ∧
      ¬ Prioritized jittery overtaking := by
  refine ⟨⟨.submits (List.Perm.swap _ _ _) (by decide) (.advanceTo offerAtHalf .done),
    by decide +kernel, by decide +kernel⟩, fun h => ?_⟩
  have hahead : Ahead offerAtHalf (registered jittery (newBid "early" "t" 0).1 1)
      (registered jittery (newBid "late" "t" 0).1 10) := by
    refine ⟨(by decide +kernel), (by decide +kernel), (by decide +kernel), 10000, ?_⟩
    decide +kernel
  have hleft := h ([newBid "late" "t" 0, newBid "early" "t" 0].map submitCall) offerAtHalf
    (List.prefix_refl _) _ _ (by decide +kernel) (by decide +kernel) hahead (by decide +kernel)
    (by decide +kernel) (by decide +kernel)
  revert hleft
  decide +kernel

end MatchingEngine

end Evosport.Backtest
