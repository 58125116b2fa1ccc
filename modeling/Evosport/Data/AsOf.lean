/-
Point-in-time lookups (`services/marketdata/asof.py`, `services/marketdata/book.py`,
`services/marketdata/view.py`).

A view reads the rows of a token out of the parquet files that cover it, converts them into
book snapshots and answers what the book was at an instant.  The answer at `ts` depends on the rows
observed at or before `ts` alone (`MarketDataView.bookAt_congr`).
-/
import Evosport.Backtest.Book
import Evosport.Lib.Bisect

namespace Evosport.Data

open Lib Backtest

/-- `int(x)` of a float: truncation towards zero. -/
def toInt (x : ℚ) : ℤ := if 0 ≤ x then ⌊x⌋ else ⌈x⌉

/-! ## The series -/

/-- An `AsOfSeries` that is being built.  Adding after a read raises, so that a series which is
added to and one which is read are two types. -/
structure SeriesBuilder (α : Type) where
  entries : List (Time × α) := []

/-- `add` -/
def SeriesBuilder.add {α : Type} (s : SeriesBuilder α) (tsUs : Time) (value : α) :
    SeriesBuilder α :=
  ⟨s.entries ++ [(tsUs, value)]⟩

/-- A finalized `AsOfSeries`: its entries ascend in time. -/
structure AsOfSeries (α : Type) where
  entries : List (Time × α)
  sorted : entries.Pairwise (KeyLe Prod.fst)

/-- `finalize`: a stable sort. -/
def SeriesBuilder.finalize {α : Type} (s : SeriesBuilder α) : AsOfSeries α :=
  ⟨sortByKey Prod.fst s.entries, pairwise_sortByKey s.entries⟩

namespace AsOfSeries

variable {α : Type}

/-- The instants of the series. -/
def ts (s : AsOfSeries α) : List Time := s.entries.map Prod.fst

/-- `bisect_as_of`: the index of the newest instant at or before `tsUs`, −1 when there is none. -/
def bisectAsOf (sortedTsUs : List Time) (tsUs : Time) : ℤ := bisectRight sortedTsUs tsUs - 1

/-- An entry of this age is older than the bound allows. -/
def expired (maxStalenessUs : Option ℤ) (age : ℤ) : Bool := maxStalenessUs.any fun stale => stale < age

/-- `as_of`: the newest value at or before `tsUs`, unless it is too old. -/
def asOf (s : AsOfSeries α) (tsUs : Time) (maxStalenessUs : Option ℤ) : Option α :=
  let i := bisectAsOf s.ts tsUs
  if i < 0 then none
  else
    s.entries[i.toNat]?.bind fun e =>
      if expired maxStalenessUs (tsUs - e.1) then none else some e.2

/-- The lookup answers with the last entry of the past. -/
lemma asOf_eq (s : AsOfSeries α) (tsUs : Time) (maxStalenessUs : Option ℤ) :
    s.asOf tsUs maxStalenessUs =
      (s.entries.filter (·.1 ≤ tsUs)).getLast?.bind fun e =>
        if expired maxStalenessUs (tsUs - e.1) then none else some e.2 := by
  have hlast : (s.entries.filter (·.1 ≤ tsUs)).getLast? =
      if bisectRight s.ts tsUs = 0 then none else s.entries[bisectRight s.ts tsUs - 1]? :=
    getLast?_past s.sorted tsUs
  by_cases h0 : bisectRight s.ts tsUs = 0
  · rw [if_pos h0] at hlast
    have hneg : bisectAsOf s.ts tsUs < 0 := by simp [bisectAsOf, h0]
    rw [asOf, if_pos hneg, hlast]
    rfl
  · rw [if_neg h0] at hlast
    have hpos : ¬ bisectAsOf s.ts tsUs < 0 := by
      simp only [bisectAsOf]
      omega
    have hidx : (bisectAsOf s.ts tsUs).toNat = bisectRight s.ts tsUs - 1 := by
      simp only [bisectAsOf]
      omega
    rw [asOf, if_neg hpos, hidx, hlast]

/-- The barrier: what a lookup returns was observed at or before the instant, and is no older than
the bound. -/
theorem asOf_barrier {s : AsOfSeries α} {tsUs : Time} {maxStalenessUs : Option ℤ} {value : α}
    (h : s.asOf tsUs maxStalenessUs = some value) :
    ∃ t ≤ tsUs, (t, value) ∈ s.entries ∧ ∀ stale ∈ maxStalenessUs, tsUs - t ≤ stale := by
  rw [asOf_eq, Option.bind_eq_some_iff] at h
  obtain ⟨⟨t, v⟩, hlast, hv⟩ := h
  obtain ⟨hmem, ht⟩ := List.mem_filter.1 (List.mem_of_getLast? hlast)
  by_cases hold : expired maxStalenessUs (tsUs - t)
  · rw [if_pos hold] at hv
    cases hv
  · rw [if_neg hold] at hv
    obtain rfl : v = value := Option.some.inj hv
    refine ⟨t, by simpa using ht, hmem, fun stale hstale => ?_⟩
    obtain rfl : maxStalenessUs = some stale := hstale
    simpa [expired] using hold

/-- Series that agree up to an instant answer alike there. -/
lemma asOf_congr {s s' : AsOfSeries α} {tsUs : Time}
    (h : AgreeOn (fun e => e.1 ≤ tsUs) s.entries s'.entries) (maxStalenessUs : Option ℤ) :
    s.asOf tsUs maxStalenessUs = s'.asOf tsUs maxStalenessUs := by
  rw [asOf_eq, asOf_eq, h]

end AsOfSeries

/-! ## The rows -/

/-- A row of the snapshot schema, its columns typed: the token, when it was observed, its sequence
number, and prices and sizes of both sides. -/
structure BookRow where
  tokenId : Option String
  observedAtUs : Option Time
  sequence : Option ℤ := none
  bidsPrice : Option (List (Option ℚ)) := none
  bidsSize : Option (List (Option ℚ)) := none
  asksPrice : Option (List (Option ℚ)) := none
  asksSize : Option (List (Option ℚ)) := none
  deriving DecidableEq, Repr

/-- `_raw_levels` before the sort: the levels with a price in (0, 1) and a positive size. -/
def rawLevels (prices sizes : Option (List (Option ℚ))) : List PriceLevel :=
  ((prices.getD []).zip (sizes.getD [])).filterMap fun (p, s) =>
    let pf := p.getD 0
    let sf := s.getD 0
    if pf ≤ 0 ∨ pf ≥ 1 ∨ sf ≤ 0 then none else some ⟨pf, sf⟩

/-- `row_to_book_snapshot` -/
def rowToBookSnapshot (tokenId : TokenId) (row : BookRow) : BookSnapshot where
  tokenId := tokenId
  observedAt := row.observedAtUs.getD 0
  sequence := row.sequence
  bids := sortByKey (fun l => -l.price) (rawLevels row.bidsPrice row.bidsSize)
  asks := sortByKey PriceLevel.price (rawLevels row.asksPrice row.asksSize)
  bids_desc := (pairwise_sortByKey _).imp fun h => neg_le_neg_iff.1 h
  asks_asc := pairwise_sortByKey _

/-- Every level of a snapshot read from a row is tradable. -/
theorem rowToBookSnapshot_levels {tokenId : TokenId} {row : BookRow} {l : PriceLevel}
    (h : l ∈ (rowToBookSnapshot tokenId row).bids ∨ l ∈ (rowToBookSnapshot tokenId row).asks) :
    0 < l.price ∧ l.price < 1 ∧ 0 < l.size := by
  have hraw : ∀ prices sizes, l ∈ rawLevels prices sizes → 0 < l.price ∧ l.price < 1 ∧ 0 < l.size := by
    intro prices sizes hl
    obtain ⟨⟨p, s⟩, -, hps⟩ := List.mem_filterMap.1 hl
    dsimp only at hps
    split at hps
    · cases hps
    case isFalse hok =>
      cases hps
      simp only [not_or, not_le] at hok
      exact ⟨hok.1, hok.2.1, hok.2.2⟩
  rcases h with h | h
  · exact hraw _ _ (mem_sortByKey.1 h)
  · exact hraw _ _ (mem_sortByKey.1 h)

/-! ## The view -/

/-- The book plane: the files that cover a token, and what a file holds; `none` for a file that
cannot be read. -/
structure BookPlane where
  filesFor : TokenId → List String
  readTable : String → Option (List BookRow)

/-- The rows of a token, in the order in which they are read. -/
def BookPlane.rowsOf (plane : BookPlane) (token : TokenId) : List BookRow :=
  (plane.filesFor token).flatMap fun fp =>
    ((plane.readTable fp).getD []).filter fun row => row.tokenId = some token

/-- What one row adds to the series of a token: nothing outside the window. -/
def seriesEntry (token : TokenId) (startUs endUs : Time) (row : BookRow) :
    Option (Time × BookSnapshot) :=
  row.observedAtUs.bind fun o =>
    if o < startUs ∨ o > endUs then none
    else if row.tokenId.getD "" ≠ token then none
    else some (o, rowToBookSnapshot token row)

/-- An entry is stamped with the instant of its row. -/
lemma seriesEntry_stamp {token : TokenId} {startUs endUs : Time} {row : BookRow}
    {e : Time × BookSnapshot} (h : seriesEntry token startUs endUs row = some e) :
    row.observedAtUs = some e.1 := by
  rw [seriesEntry, Option.bind_eq_some_iff] at h
  obtain ⟨o, ho, he⟩ := h
  split_ifs at he
  obtain rfl := Option.some.inj he
  exact ho

/-- `load_book_series`: the series of a token with the number of rows read. -/
def loadBookSeries (plane : BookPlane) (token : TokenId) (startUs endUs : Time) :
    AsOfSeries BookSnapshot × ℕ :=
  let series := (plane.rowsOf token).foldl (fun s row =>
    match seriesEntry token startUs endUs row with
    | some (o, snap) => s.add o snap
    | none => s) (⟨[]⟩ : SeriesBuilder BookSnapshot)
  (series.finalize, series.entries.length)

/-- The rows are added one after the other. -/
lemma foldl_add_entries (token : TokenId) (startUs endUs : Time) (rows : List BookRow)
    (s : SeriesBuilder BookSnapshot) :
    (rows.foldl (fun s row =>
      match seriesEntry token startUs endUs row with
      | some (o, snap) => s.add o snap
      | none => s) s).entries = s.entries ++ rows.filterMap (seriesEntry token startUs endUs) := by
  induction rows generalizing s with
  | nil => simp
  | cons row rows ih =>
    rw [List.foldl_cons, ih]
    cases hrow : seriesEntry token startUs endUs row with
    | none => simp [hrow]
    | some e => simp [hrow, SeriesBuilder.add]

lemma loadBookSeries_entries (plane : BookPlane) (token : TokenId) (startUs endUs : Time) :
    (loadBookSeries plane token startUs endUs).1.entries =
      sortByKey Prod.fst ((plane.rowsOf token).filterMap (seriesEntry token startUs endUs)) := by
  show sortByKey Prod.fst (SeriesBuilder.entries _) = _
  rw [foldl_add_entries]
  rfl

/-- `MarketDataView`: the recorded books and the window that is asked about, both ends included. -/
structure MarketDataView where
  plane : BookPlane
  startUs : Time
  endUs : Time

namespace MarketDataView

/-- `_series_for` -/
def seriesFor (view : MarketDataView) (tokenId : TokenId) : AsOfSeries BookSnapshot :=
  (loadBookSeries view.plane tokenId view.startUs view.endUs).1

/-- `book_at` -/
def bookAt (view : MarketDataView) (tokenId : TokenId) (ts : Time)
    (maxStalenessSeconds : Option ℚ) : Option BookSnapshot :=
  (view.seriesFor tokenId).asOf ts (maxStalenessSeconds.map fun s => toInt (s * 1000000))

/-- The row is observed at or before `τ`. -/
def observedBy (τ : Time) (row : BookRow) : Bool := row.observedAtUs.any (· ≤ τ)

/-- Lookups up to `τ` agree on planes that hold the same rows observed at or before `τ`. -/
lemma bookAt_congr {plane plane' : BookPlane} {token : TokenId} {τ : Time}
    (h : AgreeOn (observedBy τ) (plane.rowsOf token) (plane'.rowsOf token)) (startUs endUs : Time)
    {ts : Time} (hts : ts ≤ τ) (stale : Option ℚ) :
    (MarketDataView.mk plane startUs endUs).bookAt token ts stale =
      (MarketDataView.mk plane' startUs endUs).bookAt token ts stale := by
  refine AsOfSeries.asOf_congr ?_ _
  show AgreeOn _ (loadBookSeries plane token startUs endUs).1.entries
    (loadBookSeries plane' token startUs endUs).1.entries
  rw [loadBookSeries_entries, loadBookSeries_entries]
  have hpast : AgreeOn (observedBy ts) (plane.rowsOf token) (plane'.rowsOf token) := by
    refine h.mono fun row hrow => ?_
    simp only [observedBy, Option.any_eq_true, decide_eq_true_eq] at hrow ⊢
    obtain ⟨o, ho, hle⟩ := hrow
    exact ⟨o, ho, hle.trans hts⟩
  refine (hpast.filterMap fun row e he => ?_).sort Prod.fst
  rw [observedBy, seriesEntry_stamp he]
  rfl

end MarketDataView

end Evosport.Data
