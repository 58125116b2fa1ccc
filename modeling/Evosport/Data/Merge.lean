/-
The ordered merges (`services/marketdata/merge.py`) and the stream of a view's books
(`services/marketdata/view.py`).

Both merges keep one entry per source in a heap, under the key and the position of the source, and
take the least entry off.  On sources that ascend they are the stable sort of the sources laid end
to end (`orderedMerge_eq`, `aorderedMerge_eq`), whatever correct heap they are given.
-/
import Evosport.Data.AsOf
import Evosport.Lib.Heapq
import Mathlib.Data.Prod.Lex

namespace Evosport.Data

open Lib Backtest

section Merge

variable {α : Type} (key : α → ℤ)

/-- An entry of the heap: `(key(value), idx, value, it)`.  The index of the source breaks ties, so
that values are never compared. -/
structure MergeEntry (α : Type) where
  key : ℤ
  idx : ℕ
  value : α
  iterator : List α

/-- Entries compare by key and source; the values are never reached. -/
def MergeEntry.rank (e : MergeEntry α) : ℤ ×ₗ ℕ := toLex (e.key, e.idx)

/-- The next value of a source as an entry. -/
def nextEntry (idx : ℕ) : List α → Option (MergeEntry α)
  | [] => none
  | value :: iterator => some ⟨key value, idx, value, iterator⟩

/-- One entry from each source. -/
def primed (streams : List (List α × ℕ)) : List (MergeEntry α) :=
  streams.filterMap fun s => nextEntry key s.2 s.1

variable (heapq : Heapq (MergeEntry.rank (α := α)))

/-- The loop of `aordered_merge`, at most `n` times. -/
def aorderedMergeLoop : ℕ → List (MergeEntry α) → List α
  | 0, _ => []
  | _ + 1, [] => []
  | n + 1, e :: h =>
    e.value ::
      match nextEntry key e.idx e.iterator with
      | none => aorderedMergeLoop n (heapq.heappop (e :: h))
      | some nxt => aorderedMergeLoop n (heapq.heappush (heapq.heappop (e :: h)) nxt)

/-- `aordered_merge` -/
def aorderedMerge (sources : List (List α)) : List α :=
  aorderedMergeLoop key heapq sources.flatten.length (heapq.heapify (primed key sources.zipIdx))

/-- The loop of `heapq.merge`, at most `n` times; the last source is read to its end. -/
def heapqMergeLoop : ℕ → List (MergeEntry α) → List α
  | _, [] => []
  | _, [e] => e.value :: e.iterator
  | 0, _ => []
  | n + 1, e :: h =>
    e.value ::
      match nextEntry key e.idx e.iterator with
      | none => heapqMergeLoop n (heapq.heappop (e :: h))
      | some nxt => heapqMergeLoop n (heapq.heapreplace (e :: h) nxt)

/-- `ordered_merge`, which is `heapq.merge` -/
def orderedMerge (sources : List (List α)) : List α :=
  heapqMergeLoop key heapq sources.flatten.length (heapq.heapify (primed key sources.zipIdx))

/-! ## The merges sort -/

variable {key} {heapq} {streams : List (List α × ℕ)} {e : MergeEntry α} {h : List (MergeEntry α)}

/-- The sources, by position, each ascending. -/
structure Ascending (key : α → ℤ) (streams : List (List α × ℕ)) : Prop where
  positions : streams.Pairwise fun s s' => s.2 < s'.2
  sources : ∀ s ∈ streams, s.1.Pairwise (KeyLe key)

/-- The entries of the sources, laid end to end. -/
def laidOut (streams : List (List α × ℕ)) : List α := streams.flatMap Prod.fst

lemma nextEntry_eq_some {idx : ℕ} {s : List α} :
    nextEntry key idx s = some e ↔ e.key = key e.value ∧ e.idx = idx ∧ s = e.value :: e.iterator := by
  cases s with
  | nil => simp [nextEntry]
  | cons a s =>
    obtain ⟨k, i, v, it⟩ := e
    simp only [nextEntry, Option.some.injEq, MergeEntry.mk.injEq, List.cons.injEq]
    constructor
    · rintro ⟨rfl, rfl, rfl, rfl⟩
      exact ⟨rfl, rfl, rfl, rfl⟩
    · rintro ⟨rfl, rfl, rfl, rfl⟩
      exact ⟨rfl, rfl, rfl, rfl⟩

/-- An entry of the heap stands for its source. -/
lemma exists_source (he : e ∈ primed key streams) :
    ∃ before after, streams = before ++ (e.value :: e.iterator, e.idx) :: after ∧
      e.key = key e.value := by
  obtain ⟨⟨s, idx⟩, hs, hnext⟩ := List.mem_filterMap.1 he
  obtain ⟨hkey, rfl, rfl⟩ := nextEntry_eq_some.1 hnext
  obtain ⟨before, after, rfl⟩ := List.append_of_mem hs
  exact ⟨before, after, rfl, hkey⟩

lemma primed_append_cons (before after : List (List α × ℕ)) (s : List α) (idx : ℕ) :
    primed key (before ++ (s, idx) :: after) =
      primed key before ++ ((nextEntry key idx s).toList ++ primed key after) := by
  rw [primed, List.filterMap_append, List.filterMap_cons]
  cases nextEntry key idx s <;> rfl

/-- What is waiting in a source does not come before its next entry. -/
lemma key_le_of_mem (k : ℤ) (idx : ℕ) {s : List α} (hasc : s.Pairwise (KeyLe key))
    (hmin : ∀ e' ∈ nextEntry key idx s, k ≤ e'.key) {b : α} (hb : b ∈ s) : k ≤ key b := by
  cases s with
  | nil => cases hb
  | cons a s =>
    have hle : k ≤ key a := hmin _ rfl
    rcases List.mem_cons.1 hb with rfl | hb
    · exact hle
    · exact hle.trans (List.rel_of_pairwise_cons hasc hb)

/-- A least entry of the heap is the first one of the sorted sources. -/
lemma sort_step (hasc : Ascending key streams) (he : e ∈ primed key streams)
    (hmin : ∀ e' ∈ primed key streams, e.rank ≤ e'.rank) :
    ∃ before after, primed key streams = primed key before ++ e :: primed key after ∧
      Ascending key (before ++ (e.iterator, e.idx) :: after) ∧
      sortByKey key (laidOut streams) =
        e.value :: sortByKey key (laidOut (before ++ (e.iterator, e.idx) :: after)) := by
  obtain ⟨before, after, rfl, hkey⟩ := exists_source he
  have hsplit := List.pairwise_append.1 hasc.positions
  have hsource := hasc.sources (e.value :: e.iterator, e.idx) (by simp)
  have hprimed : nextEntry key e.idx (e.value :: e.iterator) = some e :=
    nextEntry_eq_some.2 ⟨hkey, rfl, rfl⟩
  refine ⟨before, after, by rw [primed_append_cons, hprimed]; rfl, ⟨?_, fun s hs => ?_⟩, ?_⟩
  · refine List.pairwise_append.2 ⟨hsplit.1, List.pairwise_cons.2 ?_, fun s hs s' hs' => ?_⟩
    · exact List.pairwise_cons.1 hsplit.2.1
    · rcases List.mem_cons.1 hs' with rfl | hs'
      · exact hsplit.2.2 s hs (e.value :: e.iterator, e.idx) List.mem_cons_self
      · exact hsplit.2.2 s hs s' (List.mem_cons_of_mem _ hs')
  · rcases List.mem_append.1 hs with hs | hs
    · exact hasc.sources s (List.mem_append_left _ hs)
    · rcases List.mem_cons.1 hs with rfl | hs
      · exact (List.pairwise_cons.1 hsource).2
      · exact hasc.sources s (by simp [hs])
  · -- entries of earlier sources come strictly later, others not before
    have hbefore : ∀ b ∈ laidOut before, key e.value < key b := by
      intro b hb
      obtain ⟨s, hs, hb⟩ := List.mem_flatMap.1 hb
      have hidx : s.2 < e.idx := hsplit.2.2 s hs _ List.mem_cons_self
      refine hkey ▸ Int.add_one_le_iff.1 (key_le_of_mem (e.key + 1) s.2
        (hasc.sources s (List.mem_append_left _ hs)) (fun e' he' => ?_) hb)
      have hrank := hmin e' (List.mem_filterMap.2 ⟨s, List.mem_append_left _ hs, he'⟩)
      obtain ⟨-, hidx', -⟩ := nextEntry_eq_some.1 he'
      rcases Prod.Lex.toLex_le_toLex.1 hrank with hlt | ⟨-, hle⟩
      · exact hlt
      · exact absurd (hidx' ▸ hle) (not_le.2 hidx)
    have hafter : ∀ b ∈ e.iterator ++ laidOut after, key e.value ≤ key b := by
      intro b hb
      rcases List.mem_append.1 hb with hb | hb
      · exact List.rel_of_pairwise_cons hsource hb
      · obtain ⟨s, hs, hb⟩ := List.mem_flatMap.1 hb
        refine hkey ▸ key_le_of_mem e.key s.2 (hasc.sources s (by simp [hs]))
          (fun e' he' => ?_) hb
        exact Prod.Lex.monotone_fst _ _
          (hmin e' (List.mem_filterMap.2 ⟨s, by simp [hs], he'⟩))
    have hlaid : ∀ s, laidOut (before ++ (s, e.idx) :: after) =
        laidOut before ++ (s ++ laidOut after) := fun s => by
      simp [laidOut]
    rw [hlaid, hlaid, List.cons_append]
    exact sortByKey_append_cons hbefore hafter

/-- A heap with nothing in it has nothing to wait for. -/
lemma laidOut_of_primed_eq_nil (hnil : primed key streams = []) : laidOut streams = [] := by
  refine List.flatMap_eq_nil_iff.2 fun s hs => ?_
  have hnone := List.filterMap_eq_nil_iff.1 hnil s hs
  cases hs : s.1 with
  | nil => rfl
  | cons a rest => simp [hs, nextEntry] at hnone

/-- The least entry of a heap over the sources, and what is left without it. -/
lemma heap_step (hheap : heapq.IsHeap (e :: h)) (hperm : (e :: h).Perm (primed key streams))
    (hasc : Ascending key streams) :
    ∃ before after, h.Perm (primed key before ++ primed key after) ∧
      Ascending key (before ++ (e.iterator, e.idx) :: after) ∧
      sortByKey key (laidOut streams) =
        e.value :: sortByKey key (laidOut (before ++ (e.iterator, e.idx) :: after)) := by
  have hmin : ∀ e' ∈ primed key streams, e.rank ≤ e'.rank := by
    intro e' he'
    rcases List.mem_cons.1 (hperm.mem_iff.2 he') with rfl | he'
    · exact le_rfl
    · exact heapq.first_le hheap e' he'
  obtain ⟨before, after, hprimed, hasc', hsort⟩ :=
    sort_step hasc (hperm.subset List.mem_cons_self) hmin
  rw [hprimed] at hperm
  exact ⟨before, after, (hperm.trans List.perm_middle).cons_inv, hasc', hsort⟩

/-- A step takes one entry off the sources. -/
lemma length_step {streams' : List (List α × ℕ)} {a : α}
    (hsort : sortByKey key (laidOut streams) = a :: sortByKey key (laidOut streams')) {n : ℕ}
    (hn : (laidOut streams).length ≤ n + 1) : (laidOut streams').length ≤ n := by
  have hlength := congrArg List.length hsort
  rw [List.length_cons, (perm_sortByKey key _).length_eq, (perm_sortByKey key _).length_eq]
    at hlength
  omega

/-- The loop yields the rest of the sources, sorted. -/
lemma aorderedMergeLoop_eq {n : ℕ} (hn : (laidOut streams).length ≤ n) (hheap : heapq.IsHeap h)
    (hperm : h.Perm (primed key streams)) (hasc : Ascending key streams) :
    aorderedMergeLoop key heapq n h = sortByKey key (laidOut streams) := by
  induction n generalizing h streams with
  | zero =>
    rw [List.length_eq_zero_iff.1 (Nat.le_zero.1 hn)]
    rfl
  | succ n ih =>
    cases h with
    | nil =>
      rw [laidOut_of_primed_eq_nil hperm.nil_eq.symm]
      rfl
    | cons e h =>
      obtain ⟨before, after, hrest, hasc', hsort⟩ := heap_step hheap hperm hasc
      have hpop := heapq.isHeap_heappop hheap
      have hpopPerm := (heapq.perm_heappop hheap).trans hrest
      rw [aorderedMergeLoop, hsort]
      refine congrArg (e.value :: ·) ?_
      split
      · next hnext =>
        refine ih (length_step hsort hn) hpop ?_ hasc'
        rw [primed_append_cons, hnext]
        exact hpopPerm
      · next nxt hnext =>
        refine ih (length_step hsort hn) (heapq.isHeap_heappush nxt hpop) ?_ hasc'
        rw [primed_append_cons, hnext]
        exact ((heapq.perm_heappush nxt hpop).trans (hpopPerm.cons nxt)).trans
          List.perm_middle.symm

/-- The last source is read to its end. -/
lemma sort_of_single (hheap : heapq.IsHeap [e]) (hperm : [e].Perm (primed key streams))
    (hasc : Ascending key streams) :
    sortByKey key (laidOut streams) = e.value :: e.iterator := by
  obtain ⟨before, after, hrest, hasc', hsort⟩ := heap_step hheap hperm hasc
  obtain ⟨hbefore, hafter⟩ := List.append_eq_nil_iff.1 hrest.nil_eq.symm
  have hlaid : laidOut (before ++ (e.iterator, e.idx) :: after) = e.iterator := by
    have hnil := laidOut_of_primed_eq_nil hbefore
    have hnil' := laidOut_of_primed_eq_nil hafter
    simp only [laidOut] at hnil hnil' ⊢
    rw [List.flatMap_append, List.flatMap_cons, hnil, hnil', List.nil_append, List.append_nil]
  rw [hsort, hlaid]
  exact congrArg _ (hasc'.sources (e.iterator, e.idx) (by simp)).insertionSort_eq

lemma heapqMergeLoop_eq {n : ℕ} (hn : (laidOut streams).length ≤ n) (hheap : heapq.IsHeap h)
    (hperm : h.Perm (primed key streams)) (hasc : Ascending key streams) :
    heapqMergeLoop key heapq n h = sortByKey key (laidOut streams) := by
  induction n generalizing h streams with
  | zero =>
    have hnil := List.length_eq_zero_iff.1 (Nat.le_zero.1 hn)
    match h with
    | [] =>
      rw [hnil]
      rfl
    | [e] =>
      rw [sort_of_single hheap hperm hasc]
      rfl
    | e :: e' :: h =>
      obtain ⟨_, _, -, -, hsort⟩ := heap_step hheap hperm hasc
      rw [hnil] at hsort
      cases hsort
  | succ n ih =>
    match h with
    | [] =>
      rw [laidOut_of_primed_eq_nil hperm.nil_eq.symm]
      rfl
    | [e] =>
      rw [sort_of_single hheap hperm hasc]
      rfl
    | e :: e' :: h =>
      obtain ⟨before, after, hrest, hasc', hsort⟩ := heap_step hheap hperm hasc
      rw [heapqMergeLoop.eq_def, hsort]
      refine congrArg (e.value :: ·) ?_
      split
      · next hnext =>
        refine ih (length_step hsort hn) (heapq.isHeap_heappop hheap) ?_ hasc'
        rw [primed_append_cons, hnext]
        exact (heapq.perm_heappop hheap).trans hrest
      · next nxt hnext =>
        refine ih (length_step hsort hn) (heapq.isHeap_heapreplace nxt hheap) ?_ hasc'
        rw [primed_append_cons, hnext]
        exact ((heapq.perm_heapreplace nxt hheap).trans (hrest.cons nxt)).trans
          List.perm_middle.symm

/-- Sources that ascend, by their positions. -/
lemma ascending_zipIdx {sources : List (List α)}
    (h : ∀ s ∈ sources, s.Pairwise (KeyLe key)) : Ascending key sources.zipIdx := by
  refine ⟨?_, fun s hs => h s.1 (List.fst_mem_of_mem_zipIdx hs)⟩
  have hpositions : (sources.zipIdx.map Prod.snd).Pairwise (· < ·) := by
    rw [List.zipIdx_map_snd]
    exact List.pairwise_lt_range'
  exact List.pairwise_map.1 hpositions

lemma laidOut_zipIdx (sources : List (List α)) : laidOut sources.zipIdx = sources.flatten := by
  rw [laidOut, List.flatMap_def, List.zipIdx_map_fst]

theorem aorderedMerge_eq {sources : List (List α)} (h : ∀ s ∈ sources, s.Pairwise (KeyLe key)) :
    aorderedMerge key heapq sources = sortByKey key sources.flatten := by
  rw [← laidOut_zipIdx]
  exact aorderedMergeLoop_eq (by rw [laidOut_zipIdx]) (heapq.isHeap_heapify _)
    (heapq.perm_heapify _) (ascending_zipIdx h)

theorem orderedMerge_eq {sources : List (List α)} (h : ∀ s ∈ sources, s.Pairwise (KeyLe key)) :
    orderedMerge key heapq sources = sortByKey key sources.flatten := by
  rw [← laidOut_zipIdx]
  exact heapqMergeLoop_eq (by rw [laidOut_zipIdx]) (heapq.isHeap_heapify _)
    (heapq.perm_heapify _) (ascending_zipIdx h)

end Merge

/-! ## The stream of a view -/

/-- `iter_range`: the entries from `startUs` to `endUs`. -/
def AsOfSeries.iterRange {α : Type} (s : AsOfSeries α) (startUs endUs : Time) : List (Time × α) :=
  (s.entries.take (bisectRight s.ts endUs)).drop (bisectLeft s.ts startUs)

/-- The heap of the stream's merge. -/
abbrev BookHeap := Heapq (MergeEntry.rank (α := Time × BookSnapshot))

namespace MarketDataView

variable (view : MarketDataView)

/-- `iter_books`: without tokens, of those that are covered. -/
def iterBooks (heapq : BookHeap) (coveredTokens : List TokenId)
    (tokenIds : Option (List TokenId)) : List BookSnapshot :=
  (orderedMerge Prod.fst heapq ((tokenIds.getD coveredTokens).map fun t =>
    (view.seriesFor t).iterRange view.startUs view.endUs)).map Prod.snd

/-- The rows of a token that are loaded, as entries. -/
def loaded (token : TokenId) : List (Time × BookSnapshot) :=
  (view.plane.rowsOf token).filterMap (seriesEntry token view.startUs view.endUs)

variable {view}

lemma entries_seriesFor (token : TokenId) :
    (view.seriesFor token).entries = sortByKey Prod.fst (view.loaded token) :=
  loadBookSeries_entries view.plane token view.startUs view.endUs

/-- A loaded entry is a snapshot of its token, taken at its instant, within the window. -/
lemma loaded_spec {token : TokenId} {e : Time × BookSnapshot} (he : e ∈ view.loaded token) :
    e.2.tokenId = token ∧ e.2.observedAt = e.1 ∧ view.startUs ≤ e.1 ∧ e.1 ≤ view.endUs := by
  obtain ⟨row, -, hrow⟩ := List.mem_filterMap.1 he
  obtain ⟨o, snap⟩ := e
  have hstamp : row.observedAtUs = some o := seriesEntry_stamp hrow
  rw [seriesEntry, hstamp, Option.bind_some] at hrow
  split_ifs at hrow with hout
  obtain ⟨-, rfl⟩ := Prod.mk.inj (Option.some.inj hrow)
  obtain ⟨hstart, hend⟩ := not_or.1 hout
  exact ⟨rfl, by simp [rowToBookSnapshot, hstamp], not_lt.1 hstart, not_lt.1 hend⟩

/-- The whole series lies within the window. -/
lemma iterRange_seriesFor (token : TokenId) :
    (view.seriesFor token).iterRange view.startUs view.endUs = (view.seriesFor token).entries := by
  rw [AsOfSeries.iterRange, AsOfSeries.ts, drop_take_bisect (view.seriesFor token).sorted]
  refine List.filter_eq_self.2 fun e he => ?_
  rw [entries_seriesFor, mem_sortByKey] at he
  exact decide_eq_true (loaded_spec he).2.2

lemma flatten_series (tokens : List TokenId) :
    (tokens.map fun t => (view.seriesFor t).iterRange view.startUs view.endUs).flatten =
      tokens.flatMap fun t => (view.seriesFor t).entries := by
  rw [List.flatMap_def]
  exact congrArg _ (List.map_congr_left fun t _ => iterRange_seriesFor t)

/-- The stream is the stable sort of the series. -/
lemma iterBooks_eq (heapq : BookHeap) (coveredTokens : List TokenId)
    (tokenIds : Option (List TokenId)) :
    view.iterBooks heapq coveredTokens tokenIds =
      (sortByKey Prod.fst ((tokenIds.getD coveredTokens).flatMap fun t =>
        (view.seriesFor t).entries)).map Prod.snd := by
  rw [iterBooks, orderedMerge_eq, flatten_series]
  intro s hs
  obtain ⟨t, -, rfl⟩ := List.mem_map.1 hs
  rw [iterRange_seriesFor]
  exact (view.seriesFor t).sorted

section Stream

variable {tokens : List TokenId}

/-- The entries of a token among those of the requested ones. -/
lemma filter_token (hnodup : tokens.Nodup) {token : TokenId} (ht : token ∈ tokens) :
    ((tokens.flatMap fun t => (view.seriesFor t).entries).filter fun e => e.2.tokenId = token) =
      (view.seriesFor token).entries := by
  have hself : ∀ t, (view.seriesFor t).entries.filter (fun e => e.2.tokenId = token) =
      if t = token then (view.seriesFor t).entries else [] := by
    intro t
    have htoken : ∀ e ∈ (view.seriesFor t).entries, e.2.tokenId = t := fun e he => by
      rw [entries_seriesFor, mem_sortByKey] at he
      exact (loaded_spec he).1
    split
    · next heq => exact List.filter_eq_self.2 fun e he => by simp [htoken e he, heq]
    · next hne => exact List.filter_eq_nil_iff.2 fun e he => by simp [htoken e he, hne]
  induction tokens with
  | nil => cases ht
  | cons t tokens ih =>
    obtain ⟨hnot, hnodup⟩ := List.nodup_cons.1 hnodup
    rw [List.flatMap_cons, List.filter_append, hself]
    by_cases heq : t = token
    · have hrest : (tokens.flatMap fun t => (view.seriesFor t).entries).filter
          (fun e => e.2.tokenId = token) = [] := by
        refine List.filter_eq_nil_iff.2 fun e he => ?_
        obtain ⟨t', ht', he⟩ := List.mem_flatMap.1 he
        rw [entries_seriesFor, mem_sortByKey] at he
        have hne : t' ≠ token := fun h => hnot (heq ▸ h ▸ ht')
        simpa [(loaded_spec he).1] using hne
      rw [if_pos heq, hrest, List.append_nil, heq]
    · rw [if_neg heq, List.nil_append]
      exact ih hnodup ((List.mem_cons.1 ht).resolve_left (Ne.symm heq))

/-- An entry of the stream is stamped with the instant of its snapshot. -/
lemma observedAt_of_mem {e : Time × BookSnapshot}
    (he : e ∈ sortByKey Prod.fst (tokens.flatMap fun t => (view.seriesFor t).entries)) :
    e.2.observedAt = e.1 := by
  obtain ⟨t, -, he⟩ := List.mem_flatMap.1 (mem_sortByKey.1 he)
  rw [entries_seriesFor, mem_sortByKey] at he
  exact (loaded_spec he).2.1

/-- The last snapshot of a token that the stream yields up to an instant is the one that a lookup
at that instant answers with. -/
lemma getLast?_stream (hnodup : tokens.Nodup) {token : TokenId} (ht : token ∈ tokens) (ts : Time) :
    (((sortByKey Prod.fst (tokens.flatMap fun t => (view.seriesFor t).entries)).map
      Prod.snd).filter fun b => b.tokenId = token ∧ b.observedAt ≤ ts).getLast? =
        view.bookAt token ts none := by
  have hfilter : (sortByKey Prod.fst (tokens.flatMap fun t => (view.seriesFor t).entries)).filter
      (fun e => e.2.tokenId = token ∧ e.2.observedAt ≤ ts) =
        (view.seriesFor token).entries.filter fun e => e.1 ≤ ts := by
    have hsplit : (sortByKey Prod.fst (tokens.flatMap fun t =>
        (view.seriesFor t).entries)).filter (fun e => e.2.tokenId = token ∧ e.2.observedAt ≤ ts) =
        ((sortByKey Prod.fst (tokens.flatMap fun t => (view.seriesFor t).entries)).filter
          fun e => e.2.tokenId = token).filter fun e => e.1 ≤ ts := by
      rw [List.filter_filter]
      refine List.filter_congr fun e he => ?_
      rw [observedAt_of_mem he]
      simp [Bool.and_comm]
    rw [hsplit, filter_sortByKey, filter_token hnodup ht]
    exact congrArg (List.filter _) (view.seriesFor token).sorted.insertionSort_eq
  have hanswer : (view.seriesFor token).asOf ts none =
      ((view.seriesFor token).entries.filter fun e => e.1 ≤ ts).getLast?.map Prod.snd := by
    rw [AsOfSeries.asOf_eq]
    simp [AsOfSeries.expired, Option.map_eq_bind]
  rw [List.filter_map, List.getLast?_map]
  exact (congrArg (fun l => (List.getLast? l).map Prod.snd) hfilter).trans hanswer.symm

end Stream

end MarketDataView

/-- On sources that ascend, both merges are the stable sort of the sources laid end to end.  The
stream of a view's books over distinct tokens has every loaded snapshot of theirs once, in order of
time, and of two snapshots of a token taken at one instant the later one is the latest. -/
theorem merges_exact :
    (∀ (α : Type) (key : α → ℤ) (heapq : Heapq (MergeEntry.rank (α := α)))
      (sources : List (List α)), (∀ s ∈ sources, s.Pairwise (KeyLe key)) →
        orderedMerge key heapq sources = sortByKey key sources.flatten ∧
          aorderedMerge key heapq sources = sortByKey key sources.flatten) ∧
    ∀ (view : MarketDataView) (heapq : BookHeap) (coveredTokens : List TokenId)
      (tokenIds : Option (List TokenId)), (tokenIds.getD coveredTokens).Nodup →
        (view.iterBooks heapq coveredTokens tokenIds).Perm
          ((tokenIds.getD coveredTokens).flatMap fun t => (view.loaded t).map Prod.snd) ∧
        (view.iterBooks heapq coveredTokens tokenIds).Pairwise
          (fun b b' => b.observedAt ≤ b'.observedAt) ∧
        ∀ token ∈ tokenIds.getD coveredTokens, ∀ ts,
          ((view.iterBooks heapq coveredTokens tokenIds).filter fun b =>
            b.tokenId = token ∧ b.observedAt ≤ ts).getLast? = view.bookAt token ts none := by
  refine ⟨fun α key heapq sources h => ⟨orderedMerge_eq h, aorderedMerge_eq h⟩,
    fun view heapq coveredTokens tokenIds hnodup => ?_⟩
  rw [MarketDataView.iterBooks_eq]
  refine ⟨?_, ?_, fun token ht ts => MarketDataView.getLast?_stream hnodup ht ts⟩
  · refine ((perm_sortByKey Prod.fst _).map Prod.snd).trans ?_
    rw [List.map_flatMap]
    refine List.Perm.flatMap_left _ fun t _ => ?_
    rw [MarketDataView.entries_seriesFor]
    exact (perm_sortByKey Prod.fst _).map Prod.snd
  · refine List.pairwise_map.2 ((pairwise_sortByKey _).imp_of_mem fun he he' hle => ?_)
    rw [MarketDataView.observedAt_of_mem he, MarketDataView.observedAt_of_mem he']
    exact hle

/-- Two tokens with three books at one instant, two of them of one token, and a later book. -/
def tiedBooks : MarketDataView where
  plane :=
    { filesFor := fun token => [token]
      readTable := fun file =>
        if file = "t" then
          some [{ tokenId := some "t", observedAtUs := some 1, sequence := some 1 },
            { tokenId := some "t", observedAtUs := some 3, sequence := some 3 },
            { tokenId := some "t", observedAtUs := some 1, sequence := some 2 }]
        else if file = "u" then some [{ tokenId := some "u", observedAtUs := some 1 }]
        else none }
  startUs := 0
  endUs := 9

/-- Three sources, of which two have an entry with the same key, and one is empty; and the stream of
the books above, in which the later one of the two books at one instant is the latest. -/
theorem tied_sources_merge :
    orderedMerge Prod.fst (sortedHeapq MergeEntry.rank) [[(1, "a"), (3, "b")], [], [(1, "c")]] =
        [(1, "a"), (1, "c"), (3, "b")] ∧
      (tiedBooks.iterBooks (sortedHeapq MergeEntry.rank) ["t", "u"] none).length = 4 ∧
      (tiedBooks.iterBooks (sortedHeapq MergeEntry.rank) ["t", "u"] none).Pairwise
        (fun b b' => b.observedAt ≤ b'.observedAt) ∧
      (((tiedBooks.iterBooks (sortedHeapq MergeEntry.rank) ["t", "u"] none).filter fun b =>
        b.tokenId = "t" ∧ b.observedAt ≤ 1).getLast?).map BookSnapshot.sequence =
          some (some 2) := by
  have hmerged : orderedMerge Prod.fst (sortedHeapq MergeEntry.rank)
      [[(1, "a"), (3, "b")], [], [(1, "c")]] = _ := (merges_exact.1 _ _ _ _ (by decide)).1
  obtain ⟨hperm, hordered, hlatest⟩ := merges_exact.2 tiedBooks (sortedHeapq MergeEntry.rank)
    ["t", "u"] none (by decide)
  refine ⟨hmerged.trans (by decide), hperm.length_eq.trans (by decide), hordered, ?_⟩
  rw [hlatest "t" (by decide) 1]
  decide +kernel

end Evosport.Data
