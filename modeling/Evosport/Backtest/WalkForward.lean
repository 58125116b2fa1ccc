/-
Walk-forward windows (`services/backtest/walk_forward.py`).

Both modes cut the test windows as consecutive slices of one width after a train window and an
embargo; the last slice may be cut off, and slices past the end are dropped.  `noLeak_iff` says when
the windows are as the module promises: only in the anchored mode, on a range so short that the
first train window rounds to nothing, the train window is empty.
-/
import Evosport.Backtest.Book
import Mathlib.Data.Int.ConditionallyCompleteOrder
import Mathlib.Data.List.Pairwise
import Mathlib.Order.Interval.Set.Basic

namespace Evosport.Backtest

/-- `WalkForwardConfig`: how a history is cut into folds, with its defaults.  The mode is a text, as
the code compares it. -/
structure WalkForwardConfig where
  mode : String := "rolling"
  nFolds : ℤ := 5
  trainRatio : ℚ := 7 / 10
  embargoSeconds : ℚ := 0
deriving DecidableEq, Repr

/-- `WalkForwardWindow`: one fold, the window that is trained on and the one that is tested on. -/
structure WalkForwardWindow where
  foldIndex : ℕ
  trainStart : Time
  trainEnd : Time
  testStart : Time
  testEnd : Time
deriving DecidableEq, Repr

/-- The doubles `0.1` and `0.95`, between which the train ratio is clamped. -/
def leastTrainRatio : ℚ := 3602879701896397 / 2 ^ 55

/-- The double next to 0.95, above which the code cuts the ratio of the training window off. -/
def mostTrainRatio : ℚ := 4278419646001971 / 2 ^ 52

namespace WalkForwardConfig

variable (cfg : WalkForwardConfig)

/-- The number of folds. -/
def folds : ℕ := (max 1 cfg.nFolds).toNat

/-- The embargo as a `timedelta`, in microseconds. -/
def embargo : ℤ := roundHalfEven (max 0 cfg.embargoSeconds * 10 ^ 6)

/-- The clamped train ratio. -/
def clampedRatio : ℚ := max leastTrainRatio (min mostTrainRatio cfg.trainRatio)

end WalkForwardConfig

/-- The end of both loop bodies: the test window follows the train window after the embargo, is cut
at the end, and is dropped when nothing is left of it. -/
def foldWindow (end_ : Time) (embargo width : ℤ) (i : ℕ) (trainStart trainEnd : Time) :
    Option WalkForwardWindow :=
  let testStart := trainEnd + embargo
  let testEnd := if testStart + width > end_ then end_ else testStart + width
  if testStart ≥ testEnd then none
  else some ⟨i, trainStart, trainEnd, testStart, testEnd⟩

/-- `_rolling_windows` -/
def rollingWindows (start end_ : Time) (nFolds : ℕ) (embargo : ℤ) : List WalkForwardWindow :=
  let foldW := roundHalfEven (((end_ - start : ℤ) : ℚ) / (nFolds + 1))
  (List.range nFolds).filterMap fun (i : ℕ) =>
    let trainStart := start + foldW * i
    foldWindow end_ embargo foldW i trainStart (trainStart + foldW)

/-- `_anchored_windows` -/
def anchoredWindows (start end_ : Time) (nFolds : ℕ) (trainRatio : ℚ) (embargo : ℤ) :
    List WalkForwardWindow :=
  let total := end_ - start
  let initialTrain := roundHalfEven ((total : ℚ) * trainRatio)
  let remaining := total - initialTrain - embargo
  if remaining ≤ 0 then []
  else
    let testW := roundHalfEven ((remaining : ℚ) / nFolds)
    (List.range nFolds).filterMap fun (i : ℕ) =>
      foldWindow end_ embargo testW i start (start + initialTrain + testW * i)

/-- `walk_forward_split` -/
def walkForwardSplit (start end_ : Time) (cfg : WalkForwardConfig) :
    Except String (List WalkForwardWindow) :=
  if end_ ≤ start then .error "invalid range"
  else if cfg.mode = "anchored" then
    .ok (anchoredWindows start end_ cfg.folds cfg.clampedRatio cfg.embargo)
  else .ok (rollingWindows start end_ cfg.folds cfg.embargo)

/-! ## What the windows should be -/

/-- The instants of the test window. -/
def WalkForwardWindow.test (w : WalkForwardWindow) : Set Time := Set.Icc w.testStart w.testEnd

/-- The windows of a range do not leak: each trains before its test, with the embargo between them,
all of them lie in the range in their order, and two tests share at most an end. -/
structure NoLeak (start end_ : Time) (cfg : WalkForwardConfig) (ws : List WalkForwardWindow) :
    Prop where
  train : ∀ w ∈ ws, start ≤ w.trainStart ∧ w.trainStart < w.trainEnd
  embargo : ∀ w ∈ ws, w.testStart =
    w.trainEnd + max 0 (roundHalfEven (cfg.embargoSeconds * 10 ^ 6))
  test : ∀ w ∈ ws, w.testStart < w.testEnd ∧ w.testEnd ≤ end_
  ordered : ws.Pairwise fun w w' => w.foldIndex < w'.foldIndex ∧ w.testStart < w'.testStart
  apart : ws.Pairwise fun w w' => (w.test ∩ w'.test).Subsingleton
  own : ∀ w ∈ ws, w.trainEnd ≤ w.testStart
  width : cfg.mode ≠ "anchored" →
    ∀ w ∈ ws.dropLast, w.testEnd - w.testStart = w.trainEnd - w.trainStart

/-- On this range the first train window of the anchored mode rounds to nothing, while its test
window does not. -/
def EmptyTrain (start end_ : Time) (cfg : WalkForwardConfig) : Prop :=
  cfg.mode = "anchored" ∧ ((end_ - start : ℤ) : ℚ) * cfg.clampedRatio ≤ 1 / 2 ∧
    1 / 2 < ((end_ - start - cfg.embargo : ℤ) : ℚ) / cfg.folds

instance (start end_ : Time) (cfg : WalkForwardConfig) : Decidable (EmptyTrain start end_ cfg) :=
  inferInstanceAs (Decidable (_ ∧ _ ∧ _))

/-! ## Rounding -/

/-- What is more than one half rounds to something. -/
lemma roundHalfEven_pos {x : ℚ} : 0 < roundHalfEven x ↔ 1 / 2 < x := by
  have hfloor := Int.floor_le x
  have hlt := Int.lt_floor_add_one x
  unfold roundHalfEven
  simp only
  constructor
  · intro h
    split_ifs at h with hlow hhigh heven
    · have hone : (1 : ℚ) ≤ ⌊x⌋ := by exact_mod_cast h
      linarith
    · have hzero : (0 : ℚ) ≤ ⌊x⌋ := by exact_mod_cast (by omega : 0 ≤ ⌊x⌋)
      linarith
    · have hone : (1 : ℚ) ≤ ⌊x⌋ := by exact_mod_cast h
      linarith
    · -- a tie rounds up from an odd number only
      have hone : (1 : ℚ) ≤ ⌊x⌋ := by exact_mod_cast (by omega : 1 ≤ ⌊x⌋)
      linarith
  · intro h
    have hzero : 0 ≤ ⌊x⌋ := Int.floor_nonneg.2 (by linarith)
    split_ifs with hlow hhigh heven
    · by_contra hle
      have hf : ⌊x⌋ = 0 := by omega
      rw [hf, Int.cast_zero] at hlow
      linarith
    · omega
    · by_contra hle
      have hf : ⌊x⌋ = 0 := by omega
      rw [hf, Int.cast_zero] at hhigh
      linarith
    · omega

lemma roundHalfEven_nonneg {x : ℚ} (h : 0 ≤ x) : 0 ≤ roundHalfEven x := by
  have hzero : 0 ≤ ⌊x⌋ := Int.floor_nonneg.2 h
  unfold roundHalfEven
  simp only
  split_ifs <;> omega

/-- The negative part of the embargo is dropped. -/
lemma embargo_eq (cfg : WalkForwardConfig) :
    cfg.embargo = max 0 (roundHalfEven (cfg.embargoSeconds * 10 ^ 6)) := by
  unfold WalkForwardConfig.embargo
  rcases le_total 0 cfg.embargoSeconds with h | h
  · rw [max_eq_right h, max_eq_right (roundHalfEven_nonneg (mul_nonneg h (by norm_num)))]
  · rw [max_eq_left h, zero_mul, max_eq_left]
    · decide +kernel
    · refine not_lt.1 fun hpos => ?_
      have hhalf := roundHalfEven_pos.1 hpos
      linarith

lemma embargo_nonneg (cfg : WalkForwardConfig) : 0 ≤ cfg.embargo := by
  rw [embargo_eq]
  exact le_max_left _ _

/-! ## Slices -/

section
variable {end_ : Time} {embargo width base : ℤ} {trainStart trainEnd : ℕ → Time} {n i : ℕ}
  {w : WalkForwardWindow}

/-- What a window is made of. -/
lemma foldWindow_eq_some {ts te : Time} :
    foldWindow end_ embargo width i ts te = some w ↔
      w = ⟨i, ts, te, te + embargo, min (te + embargo + width) end_⟩ ∧
        te + embargo < min (te + embargo + width) end_ := by
  have hmin : (if te + embargo + width > end_ then end_ else te + embargo + width) =
      min (te + embargo + width) end_ := by
    split
    · next h => exact (min_eq_right (le_of_lt h)).symm
    · next h => exact (min_eq_left (not_lt.1 h)).symm
  unfold foldWindow
  simp only [hmin]
  split
  · next h => exact ⟨fun hw => (by cases hw), fun ⟨_, hlt⟩ => absurd hlt (not_lt.2 h)⟩
  · next h =>
    rw [Option.some.injEq]
    exact ⟨fun hw => ⟨hw.symm, not_le.1 h⟩, fun hw => hw.1.symm⟩

/-- The windows of both modes. -/
def slices (end_ : Time) (embargo width : ℤ) (n : ℕ) (trainStart trainEnd : ℕ → Time) :
    List WalkForwardWindow :=
  (List.range n).filterMap fun i => foldWindow end_ embargo width i (trainStart i) (trainEnd i)

lemma mem_slices : w ∈ slices end_ embargo width n trainStart trainEnd ↔
    ∃ i < n, w = ⟨i, trainStart i, trainEnd i, trainEnd i + embargo,
      min (trainEnd i + embargo + width) end_⟩ ∧
      trainEnd i + embargo < min (trainEnd i + embargo + width) end_ := by
  simp only [slices, List.mem_filterMap, List.mem_range, foldWindow_eq_some]

/-- A window that another one follows: it is whole, and it ends where the next slice begins or
before. -/
structure Follows (width : ℤ) (w w' : WalkForwardWindow) : Prop where
  index : w.foldIndex < w'.foldIndex
  whole : w.testEnd = w.testStart + width
  after : w.testEnd ≤ w'.testStart

/-- Slices of one width follow each other. -/
lemma slices_follow (htrain : ∀ i, trainEnd i = base + width * i) :
    (slices end_ embargo width n trainStart trainEnd).Pairwise (Follows width) := by
  refine List.pairwise_filterMap.2 (List.pairwise_lt_range.imp fun {i j} hij w hw w' hw' => ?_)
  obtain ⟨rfl, hlt⟩ := foldWindow_eq_some.1 hw
  obtain ⟨rfl, hlt'⟩ := foldWindow_eq_some.1 hw'
  rw [htrain] at hlt hlt'
  simp only [htrain]
  have hwidth : 0 < width := by
    have hcut := hlt.trans_le (min_le_left _ _)
    linarith
  have hstep : width * i + width ≤ width * j := by
    have hle : (i : ℤ) + 1 ≤ j := by exact_mod_cast hij
    have hmul := mul_le_mul_of_nonneg_left hle hwidth.le
    linarith
  have hend := hlt'.trans_le (min_le_right _ _)
  -- the later slice starts before the end, so this one is not cut
  have hmin : min (base + width * i + embargo + width) end_ = base + width * i + embargo + width :=
    min_eq_left (by linarith)
  refine ⟨hij, hmin, ?_⟩
  simp only [hmin]
  linarith

/-- What holds between a window and the later ones holds of every window but the last. -/
lemma of_mem_dropLast {α : Type} {R : α → α → Prop} {xs : List α} (h : xs.Pairwise R) {x : α}
    (hx : x ∈ xs.dropLast) : ∃ y ∈ xs, R x y := by
  obtain ⟨init, last, rfl⟩ := (List.eq_nil_or_concat xs).resolve_left (by rintro rfl; cases hx)
  rw [List.concat_eq_append] at h hx ⊢
  rw [List.dropLast_concat] at hx
  exact ⟨last, by simp, (List.pairwise_append.1 h).2.2 x hx last (by simp)⟩

/-- Slices of one width leak nothing when no train window is empty. -/
lemma slices_noLeak {start : Time} {cfg : WalkForwardConfig}
    (htrain : ∀ i, trainEnd i = base + width * i) (hstart : ∀ i, start ≤ trainStart i)
    (hwhole : cfg.mode ≠ "anchored" → ∀ i, trainEnd i - trainStart i = width) :
    NoLeak start end_ cfg (slices end_ cfg.embargo width n trainStart trainEnd) ↔
      ∀ w ∈ slices end_ cfg.embargo width n trainStart trainEnd, w.trainStart < w.trainEnd := by
  have hfollow : (slices end_ cfg.embargo width n trainStart trainEnd).Pairwise (Follows width) :=
    slices_follow htrain
  have htest : ∀ w ∈ slices end_ cfg.embargo width n trainStart trainEnd,
      w.testStart < w.testEnd := by
    intro w hw
    obtain ⟨i, -, rfl, hlt⟩ := mem_slices.1 hw
    exact hlt
  refine ⟨fun h w hw => (h.train w hw).2, fun hpos => ?_⟩
  constructor
  case train =>
    intro w hw
    refine ⟨?_, hpos w hw⟩
    obtain ⟨i, -, rfl, -⟩ := mem_slices.1 hw
    exact hstart i
  case embargo =>
    intro w hw
    obtain ⟨i, -, rfl, -⟩ := mem_slices.1 hw
    rw [← embargo_eq]
  case test =>
    intro w hw
    refine ⟨htest w hw, ?_⟩
    obtain ⟨i, -, rfl, -⟩ := mem_slices.1 hw
    exact min_le_right _ _
  case ordered =>
    refine hfollow.imp_of_mem fun {w w'} hw _ h => ⟨h.index, ?_⟩
    exact (htest w hw).trans_le h.after
  case apart =>
    refine hfollow.imp fun {w w'} h t ht t' ht' => ?_
    -- both instants are the end of the one and the start of the other
    have hcut : ∀ t ∈ w.test ∩ w'.test, t = w.testEnd := fun t ht =>
      le_antisymm ht.1.2 (h.after.trans ht.2.1)
    rw [hcut t ht, hcut t' ht']
  case own =>
    intro w hw
    obtain ⟨i, -, rfl, -⟩ := mem_slices.1 hw
    exact le_add_of_nonneg_right (embargo_nonneg cfg)
  case width =>
    intro hmode w hw
    obtain ⟨w', -, h⟩ := of_mem_dropLast hfollow hw
    obtain ⟨i, -, rfl, -⟩ := mem_slices.1 (List.dropLast_subset _ hw)
    have hlen := hwhole hmode i
    have htestEnd := h.whole
    simp only at htestEnd ⊢
    rw [htestEnd, hlen]
    exact add_sub_cancel_left _ _

end

/-! ## The two modes -/

section
variable {start end_ : Time} {cfg : WalkForwardConfig}

/-- The rolling windows never leak: a fold that is kept has a width. -/
lemma rolling_noLeak (hrange : start < end_) :
    NoLeak start end_ cfg (rollingWindows start end_ cfg.folds cfg.embargo) := by
  have htotal : (0 : ℚ) < ((end_ - start : ℤ) : ℚ) := by
    exact_mod_cast sub_pos.2 hrange
  unfold rollingWindows
  simp only
  generalize hwidth : roundHalfEven (((end_ - start : ℤ) : ℚ) / (cfg.folds + 1)) = width
  have hnonneg : 0 ≤ width := by
    rw [← hwidth]
    exact roundHalfEven_nonneg (by positivity)
  have htrain : ∀ i : ℕ, start + width * i + width = start + width + width * i := fun i => by ring
  have hstart : ∀ i : ℕ, start ≤ start + width * i := fun i =>
    le_add_of_nonneg_right (mul_nonneg hnonneg (Int.natCast_nonneg i))
  refine (slices_noLeak htrain hstart fun _ i => add_sub_cancel_left _ _).2 fun w hw => ?_
  obtain ⟨i, -, rfl, hlt⟩ := mem_slices.1 hw
  have hcut := hlt.trans_le (min_le_left _ _)
  simp only at hcut ⊢
  linarith

lemma clampedRatio_pos (cfg : WalkForwardConfig) : 0 < cfg.clampedRatio :=
  lt_of_lt_of_le (by norm_num [leastTrainRatio]) (le_max_left _ _)

lemma nil_noLeak (start end_ : Time) (cfg : WalkForwardConfig) : NoLeak start end_ cfg [] where
  train := by simp
  embargo := by simp
  test := by simp
  ordered := .nil
  apart := .nil
  own := by simp
  width := by simp

/-- The anchored windows leak nothing but, on a very short range, the empty train window of the
first fold. -/
lemma anchored_noLeak (hrange : start < end_) (hmode : cfg.mode = "anchored") :
    NoLeak start end_ cfg
        (anchoredWindows start end_ cfg.folds cfg.clampedRatio cfg.embargo) ↔
      ¬ EmptyTrain start end_ cfg := by
  have hfolds : 0 < cfg.folds := by
    unfold WalkForwardConfig.folds
    omega
  have hembargo := embargo_nonneg cfg
  unfold anchoredWindows EmptyTrain
  simp only
  generalize hinit : roundHalfEven (((end_ - start : ℤ) : ℚ) * cfg.clampedRatio) = init
  have hempty : init ≤ 0 ↔ ((end_ - start : ℤ) : ℚ) * cfg.clampedRatio ≤ 1 / 2 := by
    rw [← hinit, ← not_lt, ← not_lt, roundHalfEven_pos]
  have hinit0 : 0 ≤ init := by
    rw [← hinit]
    exact roundHalfEven_nonneg (mul_nonneg (by exact_mod_cast (sub_pos.2 hrange).le)
      (clampedRatio_pos cfg).le)
  rw [← hempty]
  split
  · next hremaining =>
    refine iff_of_true (nil_noLeak start end_ cfg) ?_
    rintro ⟨-, hzero, hhalf⟩
    -- with an empty train window nothing remains only when the embargo takes the whole range
    have hnone : end_ - start - cfg.embargo ≤ 0 := by linarith
    have hdiv := div_nonpos_of_nonpos_of_nonneg
      (by exact_mod_cast hnone : ((end_ - start - cfg.embargo : ℤ) : ℚ) ≤ 0)
      (Nat.cast_nonneg cfg.folds)
    linarith
  · next hremaining =>
    generalize hwidth :
      roundHalfEven (((end_ - start - init - cfg.embargo : ℤ) : ℚ) / cfg.folds) = width
    refine (slices_noLeak (fun i => rfl) (fun _ => le_rfl)
      (fun hrolling => absurd hmode hrolling)).trans ?_
    constructor
    · -- the first window is there as soon as the slices have a width
      rintro hpos ⟨-, hzero, hhalf⟩
      have hnil : init = 0 := le_antisymm hzero hinit0
      subst hnil
      rw [sub_zero] at hwidth hremaining
      have hslice : 0 < width := by
        rw [← hwidth]
        exact roundHalfEven_pos.2 hhalf
      have hfirst := hpos _ (mem_slices.2 ⟨0, hfolds, rfl, ?_⟩)
      · simp at hfirst
      · rw [lt_min_iff]
        constructor <;> simp <;> linarith
    · intro hnot w hw
      obtain ⟨i, -, rfl, hlt⟩ := mem_slices.1 hw
      have hcut := hlt.trans_le (min_le_left _ _)
      have hslice : 0 < width := by linarith
      have hinitPos : 0 < init := by
        by_contra hle
        have hnil : init = 0 := by omega
        subst hnil
        rw [sub_zero] at hwidth
        refine hnot ⟨hmode, le_rfl, roundHalfEven_pos.1 ?_⟩
        rw [hwidth]
        exact hslice
      have hmul : 0 ≤ width * (i : ℤ) := mul_nonneg hslice.le (Int.natCast_nonneg i)
      simp only
      linarith

end

/-- On every range, in both modes, the windows do not leak if and only if the first train window
is not an empty one. -/
theorem noLeak_iff (start end_ : Time) (cfg : WalkForwardConfig) (hrange : start < end_) :
    ∃ ws, walkForwardSplit start end_ cfg = .ok ws ∧
      (NoLeak start end_ cfg ws ↔ ¬ EmptyTrain start end_ cfg) := by
  unfold walkForwardSplit
  rw [if_neg (not_le.2 hrange)]
  by_cases hmode : cfg.mode = "anchored"
  · rw [if_pos hmode]
    exact ⟨_, rfl, anchored_noLeak hrange hmode⟩
  · rw [if_neg hmode]
    exact ⟨_, rfl, iff_of_true (rolling_noLeak hrange) fun h => hmode h.1⟩

/-- Ten seconds in two anchored folds do not leak. -/
theorem tenSeconds_noLeak : ∃ ws,
    walkForwardSplit 0 10000000 { mode := "anchored", nFolds := 2 } = .ok ws ∧
      (NoLeak 0 10000000 { mode := "anchored", nFolds := 2 } ws ↔
        ¬ EmptyTrain 0 10000000 { mode := "anchored", nFolds := 2 }) :=
  noLeak_iff 0 10000000 { mode := "anchored", nFolds := 2 } (by decide)

/-- One microsecond is a test window with no train window before it. -/
theorem oneMicrosecond_emptyTrain :
    walkForwardSplit 0 1 { mode := "anchored", nFolds := 1, trainRatio := 1 / 10 } =
        .ok [⟨0, 0, 0, 0, 1⟩] ∧
      ¬ NoLeak 0 1 { mode := "anchored", nFolds := 1, trainRatio := 1 / 10 }
        [⟨0, 0, 0, 0, 1⟩] := by
  refine ⟨by decide +kernel, fun h => ?_⟩
  have hempty := (h.train _ (List.mem_singleton_self _)).2
  exact absurd hempty (by decide)

end Evosport.Backtest
