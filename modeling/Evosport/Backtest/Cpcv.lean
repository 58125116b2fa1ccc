/-
Combinatorial purged cross-validation (`services/backtest/cpcv.py`).

`_build_folds` cuts the window into folds of one width, `_test_fold_windows` turns an index tuple
into one trimmed window a fold, and `run_cpcv` chooses the index tuples: all subsets of the clamped
size, or a uniform sample of them.  `paths_purged` is the main result: the folds tile the window,
the windows of every index tuple are purged, and the tuples that are run are distinct subsets, as
many as there may be.  Times and widths are exact numbers of seconds.
-/
import Evosport.Lib.Fallible
import Mathlib.Algebra.Order.Floor.Ring
import Mathlib.Data.Int.ConditionallyCompleteOrder
import Mathlib.Data.Int.Interval
import Mathlib.Data.List.Sort
import Mathlib.Data.List.Sublists
import Mathlib.Data.Nat.Choose.Basic
import Mathlib.Data.Rat.Floor
import Mathlib.Order.Interval.Set.Basic
import Mathlib.Tactic.FieldSimp
import Mathlib.Tactic.Linarith
import Mathlib.Tactic.Positivity
import Mathlib.Tactic.Ring

namespace Evosport.Backtest.Cpcv

/-- One contiguous time window in the grid of folds, by its number and its two ends. -/
structure CPCVFold where
  foldIndex : ℕ
  start : ℚ
  end_ : ℚ
deriving DecidableEq, Repr

/-- `_build_folds` -/
def buildFolds (start end_ : ℚ) (nFolds : ℤ) : Except String (List CPCVFold) :=
  let totalSeconds := max 1 (end_ - start)
  if nFolds = 0 then .error "float division by zero"
  else
    let foldSeconds := totalSeconds / nFolds
    .ok ((List.range nFolds.toNat).map fun (i : ℕ) =>
      ⟨i, start + i * foldSeconds, start + (i + 1) * foldSeconds⟩)

/-- `folds[i]`: a negative index counts from the end. -/
def foldAt (folds : List CPCVFold) (i : ℤ) : Option CPCVFold :=
  let j := if i < 0 then i + folds.length else i
  if j < 0 then none else folds[j.toNat]?

/-- The window of one selected fold, unless the embargo leaves nothing of it. -/
def trimmed (emb : ℚ) (i : ℤ) (f : CPCVFold) : Option (ℚ × ℚ) :=
  let start := if i > 0 then f.start + emb else f.start
  if start < f.end_ then some (start, f.end_) else none

/-- `sorted(set(xs))` -/
def sortedSet (xs : List ℤ) : List ℤ := xs.dedup.insertionSort (· ≤ ·)

/-- `_test_fold_windows` -/
def testFoldWindows (folds : List CPCVFold) (testIndices : List ℤ) (embargoSeconds : ℚ) :
    Except String (List (ℚ × ℚ)) :=
  let emb := max 0 embargoSeconds
  (sortedSet testIndices).foldlM (fun windows i =>
    match foldAt folds i with
    | none => .error "list index out of range"
    | some f => .ok (windows ++ (trimmed emb i f).toList)) []

/-- `itertools.combinations`: the sublists of length `k`, with the smallest positions first. -/
def combinations {α : Type} (xs : List α) (k : ℕ) : List (List α) := (xs.sublistsLen k).reverse

/-- The combinations that are run: all of them, or `maxPaths` of them at even distances. -/
def subsample {α : Type} (combos : List α) (maxPaths : ℤ) : Except String (List α) :=
  if (combos.length : ℤ) > maxPaths then
    if maxPaths = 0 then .error "division by zero"
    else
      let step : ℚ := combos.length / maxPaths
      (List.range maxPaths.toNat).mapM fun (i : ℕ) =>
        match combos[⌊i * step⌋.toNat]? with
        | none => .error "list index out of range"
        | some c => .ok c
  else .ok combos

/-- The number of folds that `run_cpcv` uses. -/
def foldCount (nFolds : ℤ) : ℤ := max 2 nFolds

/-- The number of test folds that `run_cpcv` uses. -/
def testFoldCount (nFolds kTestFolds : ℤ) : ℤ := max 1 (min (foldCount nFolds - 1) kTestFolds)

/-- What `run_cpcv` runs: the index tuples of the paths, each with its windows. -/
def runCpcv (start end_ : ℚ) (nFolds kTestFolds : ℤ) (embargoSeconds : ℚ) (maxPaths : ℤ) :
    Except String (List (List ℤ × List (ℚ × ℚ))) := do
  let folds ← buildFolds start end_ (foldCount nFolds)
  let combos ← subsample (combinations ((List.range (foldCount nFolds).toNat).map Int.ofNat)
    (testFoldCount nFolds kTestFolds).toNat) maxPaths
  combos.mapM fun combo =>
    (testFoldWindows folds combo embargoSeconds).map fun windows => (combo, windows)

example : combinations [0, 1, 2, 3] 2 = [[0, 1], [0, 2], [0, 3], [1, 2], [1, 3], [2, 3]] := by
  decide

/-! ## What is promised -/

/-- The instants of a fold. -/
def CPCVFold.span (f : CPCVFold) : Set ℚ := Set.Icc f.start f.end_

/-- The instants of a window. -/
def span (w : ℚ × ℚ) : Set ℚ := Set.Icc w.1 w.2

/-- The folds tile the time from `start` to `end_`: they are numbered in their order, each has a
positive length, together they cover the time, and two of them share at most an end. -/
structure Tiles (start end_ : ℚ) (nFolds : ℤ) (folds : List CPCVFold) : Prop where
  numbered : folds.map CPCVFold.foldIndex = List.range nFolds.toNat
  proper : ∀ f ∈ folds, f.start < f.end_
  covers : ∀ t, t ∈ Set.Icc start end_ ↔ ∃ f ∈ folds, t ∈ f.span
  apart : folds.Pairwise fun f g => (f.span ∩ g.span).Subsingleton

/-- The windows `ws` of the index tuple `t` are purged.  Two indices of one fold, a negative and a
nonnegative one, are two windows on it. -/
structure Purged (folds : List CPCVFold) (embargo : ℚ) (t : List ℤ) (ws : List (ℚ × ℚ)) :
    Prop where
  inside : ∀ w ∈ ws, w.1 < w.2 ∧ ∃ i ∈ t, ∃ f, foldAt folds i = some f ∧ span w ⊆ f.span ∧
    (0 < i → ∃ g, foldAt folds (i - 1) = some g ∧ g.end_ + embargo ≤ w.1)
  elsewhere : ∀ w ∈ ws, ∀ f ∈ folds, (∀ i ∈ t, foldAt folds i ≠ some f) →
    (span w ∩ f.span).Subsingleton
  apart : (∀ i ∈ t, ∀ j ∈ t, foldAt folds i = foldAt folds j → i = j) →
    ws.Pairwise fun w w' => (span w ∩ span w').Subsingleton

/-- The index tuples `ts` are distinct subsets of the folds of the size `k`, all of them or
`maxPaths` of them. -/
structure Subsets (n k maxPaths : ℤ) (ts : List (List ℤ)) : Prop where
  subset : ∀ t ∈ ts, t.toFinset ⊆ Finset.Ico 0 n ∧ (t.toFinset.card : ℤ) = k
  distinct : (ts.map List.toFinset).Nodup
  count : (ts.length : ℤ) = min maxPaths (n.toNat.choose k.toNat)

/-! ## The folds -/

section
variable {start width : ℚ} {n i j : ℕ}

/-- The fold with the number `i`. -/
def foldOf (start width : ℚ) (i : ℕ) : CPCVFold := ⟨i, start + i * width, start + (i + 1) * width⟩

/-- The first `n` folds. -/
def foldsOf (start width : ℚ) (n : ℕ) : List CPCVFold := (List.range n).map (foldOf start width)

lemma mem_foldsOf {f : CPCVFold} :
    f ∈ foldsOf start width n ↔ ∃ i < n, foldOf start width i = f := by
  simp [foldsOf]

/-- An index names a fold when it is the fold's number, counted from the front or from the end. -/
lemma foldAt_foldsOf {i : ℤ} {f : CPCVFold} : foldAt (foldsOf start width n) i = some f ↔
    ∃ j < n, (i = j ∨ i = j - n) ∧ f = foldOf start width j := by
  have hlen : (foldsOf start width n).length = n := by simp [foldsOf]
  have hget : ∀ j : ℕ, (foldsOf start width n)[j]? = some f ↔ j < n ∧ f = foldOf start width j := by
    intro j
    simp only [foldsOf, List.getElem?_map, Option.map_eq_some_iff, List.getElem?_eq_some_iff,
      List.getElem_range, List.length_range]
    constructor
    · rintro ⟨j', ⟨hlt, rfl⟩, rfl⟩
      exact ⟨hlt, rfl⟩
    · rintro ⟨hlt, rfl⟩
      exact ⟨j, ⟨hlt, rfl⟩, rfl⟩
  unfold foldAt
  simp only [hlen]
  split_ifs with hneg hout
  · refine ⟨fun h => (by cases h), ?_⟩
    rintro ⟨j, hj, h | h, -⟩ <;> omega
  · rw [hget]
    constructor
    · rintro ⟨hlt, rfl⟩
      exact ⟨_, hlt, Or.inr (by omega), rfl⟩
    · rintro ⟨j, hj, h | h, rfl⟩
      · omega
      · have hindex : (i + n).toNat = j := by omega
        rw [hindex]
        exact ⟨hj, rfl⟩
  · rw [hget]
    constructor
    · rintro ⟨hlt, rfl⟩
      exact ⟨_, hlt, Or.inl (by omega), rfl⟩
    · rintro ⟨j, hj, h | h, rfl⟩
      · have hindex : i.toNat = j := by omega
        rw [hindex]
        exact ⟨hj, rfl⟩
      · omega

/-- Folds with different numbers meet in an edge at most. -/
lemma foldOf_apart (hwidth : 0 < width) (hne : i ≠ j) :
    ((foldOf start width i).span ∩ (foldOf start width j).span).Subsingleton := by
  wlog hlt : i < j generalizing i j
  · rw [Set.inter_comm]
    exact this hne.symm (by omega)
  have hedge : start + (i + 1) * width ≤ start + j * width := by
    have hle : (i + 1 : ℚ) ≤ j := by exact_mod_cast hlt
    have hmul := mul_le_mul_of_nonneg_right hle hwidth.le
    linarith
  have hcut : ∀ t ∈ (foldOf start width i).span ∩ (foldOf start width j).span,
      t = start + j * width := fun t ht => le_antisymm (ht.1.2.trans hedge) ht.2.1
  intro t ht t' ht'
  rw [hcut t ht, hcut t' ht']

/-- The folds tile the time that they have together. -/
lemma tiles_foldsOf {end_ : ℚ} {m : ℤ} (hm : m.toNat = n) (hwidth : 0 < width) (hn : 0 < n)
    (hend : start + n * width = end_) : Tiles start end_ m (foldsOf start width n) := by
  constructor
  case numbered =>
    rw [hm, foldsOf, List.map_map]
    exact List.map_id _
  case proper =>
    intro f hf
    obtain ⟨i, -, rfl⟩ := mem_foldsOf.1 hf
    simp only [foldOf]
    linarith
  case covers =>
    intro t
    constructor
    · rintro ⟨hstart, hle⟩
      rcases hle.lt_or_eq with hlt | rfl
      · -- the instant lies in the fold that many widths after the start
        have hquot : 0 ≤ (t - start) / width := div_nonneg (by linarith) hwidth.le
        have hfloor := (le_div_iff₀ hwidth).1 (Nat.floor_le hquot)
        have hceil := (div_lt_iff₀ hwidth).1 (Nat.lt_floor_add_one ((t - start) / width))
        refine ⟨foldOf start width ⌊(t - start) / width⌋₊, mem_foldsOf.2 ⟨_, ?_, rfl⟩, ?_, ?_⟩
        · rw [Nat.floor_lt hquot, div_lt_iff₀ hwidth]
          linarith
        · simp only [foldOf]
          linarith
        · simp only [foldOf]
          linarith
      · refine ⟨foldOf start width (n - 1), mem_foldsOf.2 ⟨n - 1, by omega, rfl⟩, ?_, ?_⟩ <;>
          simp only [foldOf, Nat.cast_pred hn, ← hend] <;> linarith
    · rintro ⟨f, hf, hft⟩
      obtain ⟨i, hi, rfl⟩ := mem_foldsOf.1 hf
      have hle : (i + 1 : ℚ) * width ≤ n * width :=
        mul_le_mul_of_nonneg_right (by exact_mod_cast hi) hwidth.le
      have hnonneg : 0 ≤ (i : ℚ) * width := by positivity
      have hlow := hft.1
      have hhigh := hft.2
      simp only [foldOf] at hlow hhigh
      constructor <;> linarith
  case apart =>
    refine List.pairwise_map.2 (List.nodup_range.imp fun hne => foldOf_apart hwidth hne)

end

/-! ## The windows of an index tuple -/

section
variable {folds : List CPCVFold} {embargo emb start width : ℚ} {t : List ℤ} {n : ℕ}

@[simp] lemma mem_sortedSet {i : ℤ} : i ∈ sortedSet t ↔ i ∈ t := by simp [sortedSet]

lemma sortedSet_nodup : (sortedSet t).Nodup :=
  (List.perm_insertionSort _ _).nodup_iff.2 (List.nodup_dedup t)

/-- One pass of the loop over the selected folds. -/
def addWindow (folds : List CPCVFold) (emb : ℚ) (windows : List (ℚ × ℚ)) (i : ℤ) :
    Except String (List (ℚ × ℚ)) :=
  match foldAt folds i with
  | none => .error "list index out of range"
  | some f => .ok (windows ++ (trimmed emb i f).toList)

/-- The window of the index `i`. -/
def windowAt (folds : List CPCVFold) (emb : ℚ) (i : ℤ) : Option (ℚ × ℚ) :=
  (foldAt folds i).bind (trimmed emb i)

lemma foldlM_addWindow {is : List ℤ} (h : ∀ i ∈ is, foldAt folds i ≠ none) (ws : List (ℚ × ℚ)) :
    is.foldlM (addWindow folds emb) ws = .ok (ws ++ is.filterMap (windowAt folds emb)) := by
  induction is generalizing ws with
  | nil => simp [pure, Except.pure]
  | cons i is ih =>
    obtain ⟨f, hf⟩ := Option.ne_none_iff_exists'.1 (h i List.mem_cons_self)
    have hstep : addWindow folds emb ws i = .ok (ws ++ (trimmed emb i f).toList) := by
      simp only [addWindow, hf]
    rw [List.foldlM_cons, hstep]
    refine (ih (fun j hj => h j (List.mem_cons_of_mem i hj)) _).trans ?_
    have hwindow : windowAt folds emb i = trimmed emb i f := by simp [windowAt, hf]
    rw [List.filterMap_cons, hwindow, List.append_assoc]
    cases trimmed emb i f <;> rfl

lemma foldlM_addWindow_error {is : List ℤ} (h : ∃ i ∈ is, foldAt folds i = none)
    (ws : List (ℚ × ℚ)) :
    is.foldlM (addWindow folds emb) ws = .error "list index out of range" := by
  induction is generalizing ws with
  | nil => simp at h
  | cons i is ih =>
    rw [List.foldlM_cons, addWindow]
    split
    · rfl
    · next f hf =>
      obtain ⟨j, hj, hnone⟩ := h
      rcases List.mem_cons.1 hj with rfl | hj
      · rw [hf] at hnone
        cases hnone
      · exact ih ⟨j, hj, hnone⟩ _

/-- The windows of an index tuple all of whose indices name a fold. -/
lemma testFoldWindows_ok (h : ∀ i ∈ t, foldAt folds i ≠ none) :
    testFoldWindows folds t embargo =
      .ok ((sortedSet t).filterMap (windowAt folds (max 0 embargo))) :=
  (foldlM_addWindow (fun i hi => h i (by simpa using hi)) []).trans rfl

lemma testFoldWindows_error (h : ∃ i ∈ t, foldAt folds i = none) :
    testFoldWindows folds t embargo = .error "list index out of range" := by
  obtain ⟨i, hi, hnone⟩ := h
  exact foldlM_addWindow_error ⟨i, by simpa using hi, hnone⟩ []

/-- The windows of an index tuple are the trimmed folds it names. -/
lemma mem_windows {w : ℚ × ℚ} :
    w ∈ (sortedSet t).filterMap (windowAt folds emb) ↔
      ∃ i ∈ t, ∃ f, foldAt folds i = some f ∧ trimmed emb i f = some w := by
  simp only [List.mem_filterMap, mem_sortedSet, windowAt, Option.bind_eq_some_iff]

/-- What the window of a fold is. -/
lemma trimmed_eq_some {i : ℤ} {f : CPCVFold} {w : ℚ × ℚ} :
    trimmed emb i f = some w ↔
      w = (if i > 0 then f.start + emb else f.start, f.end_) ∧ w.1 < w.2 := by
  unfold trimmed
  simp only
  constructor
  · intro h
    split_ifs at h with hi hlt hlt <;> cases h <;> simp_all
  · rintro ⟨rfl, hlt⟩
    exact if_pos hlt

/-- A window lies in its fold. -/
lemma span_subset {i : ℤ} {f : CPCVFold} {w : ℚ × ℚ} (hemb : 0 ≤ emb)
    (h : trimmed emb i f = some w) : span w ⊆ f.span := by
  obtain ⟨rfl, -⟩ := trimmed_eq_some.1 h
  refine Set.Icc_subset_Icc ?_ le_rfl
  dsimp only
  split
  · linarith
  · exact le_rfl

lemma foldAt_isSome_iff {i : ℤ} :
    foldAt (foldsOf start width n) i ≠ none ↔ -n ≤ i ∧ i < n := by
  rw [Option.ne_none_iff_exists']
  simp only [foldAt_foldsOf]
  constructor
  · rintro ⟨f, j, hj, h | h, -⟩ <;> omega
  · rintro ⟨hlow, hhigh⟩
    rcases lt_or_ge i 0 with hneg | hpos
    · exact ⟨_, (i + n).toNat, by omega, Or.inr (by omega), rfl⟩
    · exact ⟨_, i.toNat, by omega, Or.inl (by omega), rfl⟩

/-- The windows of every index tuple are purged. -/
lemma purged_windows (hwidth : 0 < width) :
    Purged (foldsOf start width n) embargo t
      ((sortedSet t).filterMap (windowAt (foldsOf start width n) (max 0 embargo))) := by
  have hemb : 0 ≤ max 0 embargo := le_max_left _ _
  constructor
  case inside =>
    intro w hw
    obtain ⟨i, hi, f, hf, htrim⟩ := mem_windows.1 hw
    refine ⟨(trimmed_eq_some.1 htrim).2, i, hi, f, hf, span_subset hemb htrim, fun hpos => ?_⟩
    obtain ⟨rfl, -⟩ := trimmed_eq_some.1 htrim
    obtain ⟨j, hj, hij, rfl⟩ := foldAt_foldsOf.1 hf
    have hij : i = j := by omega
    refine ⟨foldOf start width (j - 1), foldAt_foldsOf.2 ⟨j - 1, by omega, Or.inl (by omega), rfl⟩,
      ?_⟩
    -- the preceding fold ends where this one starts
    have hpred : ((j - 1 : ℕ) : ℚ) = j - 1 := Nat.cast_pred (by omega)
    simp only [if_pos hpos, foldOf, hpred]
    have hmax := le_max_right 0 embargo
    linarith
  case elsewhere =>
    intro w hw f hf hother
    obtain ⟨i, hi, g, hg, htrim⟩ := mem_windows.1 hw
    obtain ⟨k, hk, rfl⟩ := mem_foldsOf.1 hf
    obtain ⟨j, hj, hij, rfl⟩ := foldAt_foldsOf.1 hg
    have hne : j ≠ k := by
      rintro rfl
      exact hother i hi hg
    exact (foldOf_apart hwidth hne).anti
      (Set.inter_subset_inter_left _ (span_subset hemb htrim))
  case apart =>
    intro hone
    refine List.pairwise_filterMap.2 (sortedSet_nodup.imp_of_mem ?_)
    intro i i' hi hi' hne w hw w' hw'
    obtain ⟨f, hf, htrim⟩ := Option.bind_eq_some_iff.1 hw
    obtain ⟨f', hf', htrim'⟩ := Option.bind_eq_some_iff.1 hw'
    obtain ⟨j, hj, hij, rfl⟩ := foldAt_foldsOf.1 hf
    obtain ⟨j', hj', hij', rfl⟩ := foldAt_foldsOf.1 hf'
    have hjj : j ≠ j' := by
      rintro rfl
      refine hne (hone i (by simpa using hi) i' (by simpa using hi') ?_)
      rw [hf, hf']
    exact (foldOf_apart hwidth hjj).anti
      (Set.inter_subset_inter (span_subset hemb htrim) (span_subset hemb htrim'))

end

/-! ## The combinations that are run -/

section
variable {α : Type} {combos : List α} {maxPaths : ℤ}

/-- Positions at even distances of more than one are different. -/
lemma floor_step_lt {step : ℚ} (hstep : 1 ≤ step) {i j : ℕ} (hij : i < j) :
    ⌊(i : ℚ) * step⌋.toNat < ⌊(j : ℚ) * step⌋.toNat := by
  have hle : (i : ℚ) + 1 ≤ j := by exact_mod_cast hij
  have hnext : (i : ℚ) * step + 1 ≤ j * step := by nlinarith
  have hfloor : ⌊(i : ℚ) * step⌋ + 1 ≤ ⌊(j : ℚ) * step⌋ := by
    have hmono := Int.floor_mono hnext
    rwa [Int.floor_add_one] at hmono
  have hnonneg : 0 ≤ ⌊(i : ℚ) * step⌋ := Int.floor_nonneg.2 (by positivity)
  omega

/-- The combinations that are run are different ones of all combinations, as many as there may
be. -/
lemma subsample_ok (hmax : 1 ≤ maxPaths) (hnodup : combos.Nodup) :
    ∃ ts, subsample combos maxPaths = .ok ts ∧ (∀ t ∈ ts, t ∈ combos) ∧ ts.Nodup ∧
      (ts.length : ℤ) = min maxPaths combos.length := by
  unfold subsample
  split
  · next hmore =>
    rw [if_neg (by omega)]
    have hpos : 0 < combos.length := by omega
    have hmaxQ : (0 : ℚ) < maxPaths := by exact_mod_cast hmax
    generalize hstep : (combos.length : ℚ) / maxPaths = step
    have hone : 1 ≤ step := by
      rw [← hstep, le_div_iff₀ hmaxQ, one_mul]
      exact_mod_cast hmore.le
    have hindex : ∀ i ∈ List.range maxPaths.toNat,
        ⌊(i : ℚ) * step⌋.toNat < combos.length := by
      intro i hi
      have hlt : (i : ℚ) < maxPaths := by
        have hlt := List.mem_range.1 hi
        exact_mod_cast (by omega : (i : ℤ) < maxPaths)
      have hbound : (i : ℚ) * step < (combos.length : ℤ) := by
        rw [← hstep, mul_div_assoc', div_lt_iff₀ hmaxQ, mul_comm, Int.cast_natCast]
        exact mul_lt_mul_of_pos_left hlt (by exact_mod_cast hpos)
      have hfloor := Int.floor_lt.2 hbound
      omega
    let pick (i : ℕ) : α := (combos[⌊(i : ℚ) * step⌋.toNat]?).getD (combos.head (by
      exact List.ne_nil_of_length_pos hpos))
    have hpick : ∀ i ∈ List.range maxPaths.toNat,
        combos[⌊(i : ℚ) * step⌋.toNat]? = some (pick i) := by
      intro i hi
      simp only [pick, List.getElem?_eq_getElem (hindex i hi), Option.getD_some]
    refine ⟨(List.range maxPaths.toNat).map pick, Lib.mapM_eq_ok_map ?_, ?_, ?_, ?_⟩
    · intro i hi
      rw [hpick i hi]
    · intro t ht
      obtain ⟨i, hi, rfl⟩ := List.mem_map.1 ht
      exact List.mem_of_getElem? (hpick i hi)
    · -- a combination has one position only
      refine List.Nodup.map_on (fun i hi j hj heq => ?_) List.nodup_range
      have hpos := (List.getElem?_inj (hindex i hi) hnodup).1
        ((hpick i hi).trans (by rw [heq, hpick j hj]))
      rcases lt_trichotomy i j with hlt | rfl | hlt
      · exact absurd hpos (floor_step_lt hone hlt).ne
      · rfl
      · exact absurd hpos (floor_step_lt hone hlt).ne'
    · rw [List.length_map, List.length_range]
      omega
  · exact ⟨combos, rfl, fun _ => id, hnodup, by omega⟩

end

/-- The index tuples among which `run_cpcv` chooses. -/
def indexTuples (n k : ℕ) : List (List ℤ) := combinations ((List.range n).map Int.ofNat) k

section
variable {n k : ℕ} {t : List ℤ}

lemma mem_indexTuples :
    t ∈ indexTuples n k ↔ List.Sublist t ((List.range n).map Int.ofNat) ∧ t.length = k := by
  simp [indexTuples, combinations, List.mem_sublistsLen]

lemma sortedLT_range (n : ℕ) : ((List.range n).map Int.ofNat).Pairwise (· < ·) :=
  List.pairwise_map.2 (List.pairwise_lt_range.imp fun h => Int.ofNat_lt.2 h)

lemma indexTuples_nodup : (indexTuples n k).Nodup :=
  List.nodup_reverse.2 (List.nodup_sublistsLen k ((sortedLT_range n).imp fun h => h.ne))

lemma length_indexTuples : (indexTuples n k).length = n.choose k := by
  simp [indexTuples, combinations]

/-- An index tuple is a subset of the folds. -/
lemma indexTuples_subset (ht : t ∈ indexTuples n k) :
    t.toFinset ⊆ Finset.Ico 0 (n : ℤ) ∧ t.toFinset.card = k := by
  obtain ⟨hsub, hlen⟩ := mem_indexTuples.1 ht
  constructor
  · intro i hi
    obtain ⟨j, hj, rfl⟩ := List.mem_map.1 (hsub.subset (List.mem_toFinset.1 hi))
    have hlt := List.mem_range.1 hj
    simp only [Finset.mem_Ico, Int.ofNat_eq_natCast]
    omega
  · have hnodup : t.Nodup := ((sortedLT_range n).sublist hsub).imp fun h => h.ne
    rw [List.toFinset_card_of_nodup hnodup, hlen]

/-- Different index tuples are different subsets. -/
lemma toFinset_injOn {t' : List ℤ} (ht : t ∈ indexTuples n k) (ht' : t' ∈ indexTuples n k)
    (heq : t.toFinset = t'.toFinset) : t = t' := by
  have hsorted := (sortedLT_range n).sublist (mem_indexTuples.1 ht).1
  have hsorted' := (sortedLT_range n).sublist (mem_indexTuples.1 ht').1
  refine hsorted.sortedLT.eq_of_mem_iff hsorted'.sortedLT fun i => ?_
  rw [← List.mem_toFinset, heq, List.mem_toFinset]

end

/-! ## Paths -/

section
variable {start end_ : ℚ} {n : ℤ}

/-- The folds of a window of one second or more. -/
lemma buildFolds_eq (hwindow : 1 ≤ end_ - start) (hn : 1 ≤ n) :
    buildFolds start end_ n = .ok (foldsOf start ((end_ - start) / n) n.toNat) := by
  simp only [buildFolds, max_eq_right hwindow, if_neg (by omega : n ≠ 0)]
  rfl

lemma width_pos (hwindow : 1 ≤ end_ - start) (hn : 1 ≤ n) : 0 < (end_ - start) / (n : ℚ) :=
  div_pos (by linarith) (by exact_mod_cast hn)

/-- The windows of an index tuple over the folds of a window, or the error that there is no such
fold. -/
lemma testFoldWindows_foldsOf {width : ℚ} (hwidth : 0 < width) (start embargo : ℚ) (m : ℕ)
    (t : List ℤ) :
    if ∀ i ∈ t, -m ≤ i ∧ i < m then
      ∃ ws, testFoldWindows (foldsOf start width m) t embargo = .ok ws ∧
        Purged (foldsOf start width m) embargo t ws
    else testFoldWindows (foldsOf start width m) t embargo = .error "list index out of range" := by
  split
  · next hin =>
    exact ⟨_, testFoldWindows_ok fun i hi => foldAt_isSome_iff.2 (hin i hi),
      purged_windows hwidth⟩
  · next hout =>
    refine testFoldWindows_error ?_
    by_contra hnone
    push Not at hnone
    exact hout fun i hi => foldAt_isSome_iff.1 (hnone i hi)

/-- What `run_cpcv` runs on a window of one second or more. -/
lemma runCpcv_ok (hwindow : 1 ≤ end_ - start) (nFolds kTestFolds : ℤ) (embargo : ℚ)
    {maxPaths : ℤ} (hmax : 1 ≤ maxPaths) :
    ∃ folds paths, buildFolds start end_ (foldCount nFolds) = .ok folds ∧
      runCpcv start end_ nFolds kTestFolds embargo maxPaths = .ok paths ∧
      Subsets (foldCount nFolds) (testFoldCount nFolds kTestFolds) maxPaths (paths.map Prod.fst) ∧
      ∀ p ∈ paths, Purged folds embargo p.1 p.2 := by
  have hn : 1 ≤ foldCount nFolds := le_trans (by norm_num) (le_max_left _ _)
  have hk : 0 ≤ testFoldCount nFolds kTestFolds := le_trans (by norm_num) (le_max_left _ _)
  have hfolds := buildFolds_eq hwindow hn
  have hwidth := width_pos hwindow hn
  generalize (end_ - start) / (foldCount nFolds : ℚ) = width at hfolds hwidth
  obtain ⟨m, hm⟩ := Int.eq_ofNat_of_zero_le (by omega : 0 ≤ foldCount nFolds)
  obtain ⟨k, hk⟩ := Int.eq_ofNat_of_zero_le hk
  obtain ⟨ts, hts, hmem, hnodup, hlen⟩ :=
    subsample_ok hmax (indexTuples_nodup : (indexTuples m k).Nodup)
  -- every index of a combination names a fold
  have hin : ∀ t ∈ ts, ∀ i ∈ t, -(m : ℤ) ≤ i ∧ i < m := by
    intro t ht i hi
    have hsub := (indexTuples_subset (hmem t ht)).1 (List.mem_toFinset.2 hi)
    rw [Finset.mem_Ico] at hsub
    omega
  let windows (t : List ℤ) : List (ℚ × ℚ) :=
    (sortedSet t).filterMap (windowAt (foldsOf start width m) (max 0 embargo))
  rw [hm, Int.toNat_natCast] at hfolds
  refine ⟨foldsOf start width m, ts.map fun t => (t, windows t), by rw [hm, hfolds], ?_, ?_, ?_⟩
  · have hrun : ts.mapM (fun t => (testFoldWindows (foldsOf start width m) t embargo).map
        fun windows => (t, windows)) = .ok (ts.map fun t => (t, windows t)) := by
      refine Lib.mapM_eq_ok_map fun t ht => ?_
      rw [testFoldWindows_ok fun i hi => foldAt_isSome_iff.2 (hin t ht i hi)]
      rfl
    rw [indexTuples] at hts
    simp only [runCpcv, hm, hk, hfolds, Int.toNat_natCast, hts]
    exact hrun
  · have hfst : (ts.map fun t => (t, windows t)).map Prod.fst = ts := by
      rw [List.map_map]
      exact List.map_id ts
    rw [hfst, hm, hk]
    refine ⟨fun t ht => ?_, ?_, ?_⟩
    · obtain ⟨hsub, hcard⟩ := indexTuples_subset (hmem t ht)
      exact ⟨hsub, by exact_mod_cast hcard⟩
    · exact List.Nodup.map_on
        (fun t ht t' ht' heq => toFinset_injOn (hmem t ht) (hmem t' ht') heq) hnodup
    · rw [hlen, length_indexTuples, Int.toNat_natCast, Int.toNat_natCast]
  · intro p hp
    obtain ⟨t, -, rfl⟩ := List.mem_map.1 hp
    exact purged_windows hwidth

end

/-- On every window of one second or more: the folds tile it, the windows of an index tuple are
purged unless an index names no fold, and `run_cpcv` runs distinct subsets of the clamped size, all
of them or as many as it may. -/
theorem paths_purged (start end_ embargo : ℚ) (hwindow : 1 ≤ end_ - start) :
    (∀ n : ℤ, 1 ≤ n → ∃ folds, buildFolds start end_ n = .ok folds ∧ Tiles start end_ n folds ∧
      ∀ t : List ℤ,
        if ∀ i ∈ t, -n ≤ i ∧ i < n then
          ∃ ws, testFoldWindows folds t embargo = .ok ws ∧ Purged folds embargo t ws
        else testFoldWindows folds t embargo = .error "list index out of range") ∧
    (∀ nFolds kTestFolds maxPaths : ℤ, 1 ≤ maxPaths →
      ∃ folds paths, buildFolds start end_ (foldCount nFolds) = .ok folds ∧
        runCpcv start end_ nFolds kTestFolds embargo maxPaths = .ok paths ∧
        Subsets (foldCount nFolds) (testFoldCount nFolds kTestFolds) maxPaths
          (paths.map Prod.fst) ∧
        ∀ p ∈ paths, Purged folds embargo p.1 p.2) := by
  refine ⟨fun n hn => ?_, fun nFolds kTestFolds maxPaths hmax =>
    runCpcv_ok hwindow nFolds kTestFolds embargo hmax⟩
  have hwidth := width_pos hwindow hn
  refine ⟨_, buildFolds_eq hwindow hn, tiles_foldsOf rfl hwidth (by omega) ?_, fun t => ?_⟩
  · have hcast : ((n.toNat : ℕ) : ℚ) = n := by exact_mod_cast Int.toNat_of_nonneg (by omega)
    have hne : (n : ℚ) ≠ 0 := by exact_mod_cast (by omega : n ≠ 0)
    rw [hcast]
    field_simp
    ring
  · have hn : (n.toNat : ℤ) = n := Int.toNat_of_nonneg (by omega)
    simpa only [hn] using testFoldWindows_foldsOf hwidth start embargo n.toNat t

/-- Six seconds, cut in any number of folds. -/
theorem sixSeconds_purged :
    (∀ n : ℤ, 1 ≤ n → ∃ folds, buildFolds 0 6 n = .ok folds ∧ Tiles 0 6 n folds ∧
      ∀ t : List ℤ,
        if ∀ i ∈ t, -n ≤ i ∧ i < n then
          ∃ ws, testFoldWindows folds t 1 = .ok ws ∧ Purged folds 1 t ws
        else testFoldWindows folds t 1 = .error "list index out of range") ∧
    (∀ nFolds kTestFolds maxPaths : ℤ, 1 ≤ maxPaths →
      ∃ folds paths, buildFolds 0 6 (foldCount nFolds) = .ok folds ∧
        runCpcv 0 6 nFolds kTestFolds 1 maxPaths = .ok paths ∧
        Subsets (foldCount nFolds) (testFoldCount nFolds kTestFolds) maxPaths
          (paths.map Prod.fst) ∧
        ∀ p ∈ paths, Purged folds 1 p.1 p.2) :=
  paths_purged 0 6 1 (by norm_num)

/-- Three test folds of three are run as all pairs.  And the indices `-1` and `2` are two windows on
the last of three folds. -/
theorem clamped_and_wrapped :
    runCpcv 0 3 3 3 0 64 = .ok [([0, 1], [(0, 1), (1, 2)]), ([0, 2], [(0, 1), (2, 3)]),
      ([1, 2], [(1, 2), (2, 3)])] ∧
    3 ≠ min 64 (Nat.choose 3 3) ∧
    testFoldWindows [⟨0, 0, 1⟩, ⟨1, 1, 2⟩, ⟨2, 2, 3⟩] [-1, 2] 0 = .ok [(2, 3), (2, 3)] ∧
    ¬ (span (2, 3) ∩ span (2, 3)).Subsingleton := by
  refine ⟨by decide +kernel, by decide, by decide +kernel, fun h => ?_⟩
  have hstart : (2 : ℚ) ∈ span (2, 3) := Set.left_mem_Icc.2 (by norm_num)
  have hend : (3 : ℚ) ∈ span (2, 3) := Set.right_mem_Icc.2 (by norm_num)
  have hsame := h ⟨hstart, hstart⟩ ⟨hend, hend⟩
  norm_num at hsame

end Evosport.Backtest.Cpcv
