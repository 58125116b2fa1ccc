/-
Drawdowns of an equity curve (`metrics.max_drawdown`, `Portfolio.max_drawdown_usd`).

One pass keeps the running peak and the worst drawdown below it.  The drawdown in dollars is the
largest fall from an earlier to a later mark.  The percentage is the one of that fall, so it is the
largest where one fall is largest both ways; the duration also counts the marks that are level with
the peak, so it is the longest time under water where no level stretch is longer
(`maxDrawdown_iff`).
-/
import Evosport.Backtest.Portfolio
import Mathlib.Order.Bounds.Basic
import Mathlib.Data.List.Induction

namespace Evosport.Backtest

open Lib

/-- A mark of an equity curve. -/
abbrev Mark := Time × ℚ

/-- `(later - earlier).total_seconds()` -/
def secondsBetween (earlier later : Time) : ℚ := ((later - earlier : ℤ) : ℚ) / 10 ^ 6

/-- An equity curve: positive equities in the order of time.  Both conditions are fields, so that
the lemmas on drawdowns need no hypotheses on the marks. -/
structure EquityCurve where
  marks : List Mark
  positive : ∀ x ∈ marks, 0 < x.2
  chronological : marks.Pairwise fun x y => x.1 ≤ y.1

/-! ## The source -/

/-- What the pass of `max_drawdown` keeps: the peak (`none` is `-inf`) and the worst so far. -/
structure DrawdownState where
  peak : Option Mark := none
  worstDdUsd : ℚ := 0
  worstDdPct : ℚ := 0
  worstDuration : ℚ := 0
deriving DecidableEq, Repr

/-- One mark of the pass: a new high becomes the peak, and any other mark is measured against the
peak.  The share of the peak is kept only when the fall in dollars is a new worst one. -/
def DrawdownState.step (s : DrawdownState) (x : Mark) : DrawdownState :=
  match s.peak with
  | none => { s with peak := some x }
  | some peak =>
    if peak.2 < x.2 then { s with peak := some x }
    else
      let ddUsd := peak.2 - x.2
      let ddPct := if 0 < peak.2 then ddUsd / peak.2 else 0
      let duration := secondsBetween peak.1 x.1
      { peak := some peak
        worstDdUsd := if s.worstDdUsd < ddUsd then ddUsd else s.worstDdUsd
        worstDdPct := if s.worstDdUsd < ddUsd then ddPct else s.worstDdPct
        worstDuration := if s.worstDuration < duration then duration else s.worstDuration }

/-- `max_drawdown` -/
def maxDrawdown (marks : List Mark) : DrawdownState := marks.foldl DrawdownState.step {}

/-- One mark of the pass of `max_drawdown_usd`. -/
def drawdownUsdStep (s : Option ℚ × ℚ) (x : Mark) : Option ℚ × ℚ :=
  let peak := s.1.elim x.2 fun p => max p x.2
  (some peak, max s.2 (peak - x.2))

/-- `Portfolio.max_drawdown_usd` -/
def Portfolio.maxDrawdownUsd (p : Portfolio) : ℚ :=
  (p.equityHistory.foldl drawdownUsdStep (none, 0)).2

/-! ## Falls -/

/-- A mark and one that is no earlier, where what comes after the first up to the second is related
to the first by `R`. -/
def Fall (R : ℚ → ℚ → Prop) (marks : List Mark) (x y : Mark) : Prop :=
  ∃ i j, i ≤ j ∧ marks[i]? = some x ∧ marks[j]? = some y ∧
    ∀ (k : ℕ) (z : Mark), i < k → k ≤ j → marks[k]? = some z → R z.2 x.2

/-- Any two marks in their order. -/
def anyway (_ _ : ℚ) : Prop := True

/-- The values that `f` takes on the falls of a curve, and zero. -/
def fallValues (R : ℚ → ℚ → Prop) (f : Mark → Mark → ℚ) (marks : List Mark) : Set ℚ :=
  insert 0 {v | ∃ x y, Fall R marks x y ∧ v = f x y}

/-- The fall in dollars, and relative to the mark that it starts from. -/
def fallUsd (x y : Mark) : ℚ := x.2 - y.2

/-- The fall from one mark to a later one, as a part of the equity at the first. -/
def fallRatio (x y : Mark) : ℚ := (x.2 - y.2) / x.2

/-- The time from one mark to the other, in seconds. -/
def fallTime (x y : Mark) : ℚ := secondsBetween x.1 y.1

/-- What the drawdown of a curve should be: the largest fall in dollars, the largest relative fall,
and the longest time under water, when every later equity is below the first. -/
structure TrueMaxima (marks : List Mark) : Prop where
  usd : IsGreatest (fallValues anyway fallUsd marks) (maxDrawdown marks).worstDdUsd
  pct : IsGreatest (fallValues anyway fallRatio marks) (maxDrawdown marks).worstDdPct
  duration : IsGreatest (fallValues (· < ·) fallTime marks) (maxDrawdown marks).worstDuration
  portfolio : ∀ p : Portfolio, p.equityHistory = marks →
    p.maxDrawdownUsd = (maxDrawdown marks).worstDdUsd

/-- One fall is the largest in dollars and the largest relative one. -/
def OneLargestFall (marks : List Mark) : Prop :=
  marks = [] ∨ ∃ x y, Fall anyway marks x y ∧
    ∀ x' y', Fall anyway marks x' y' → fallUsd x' y' ≤ fallUsd x y ∧ fallRatio x' y' ≤ fallRatio x y

/-- No stretch in which the equity does not exceed its first mark is longer than every stretch in
which it stays below. -/
def NoLongPlateau (marks : List Mark) : Prop :=
  ∀ x y, Fall (· ≤ ·) marks x y → ∃ x' y', Fall (· < ·) marks x' y' ∧ fallTime x y ≤ fallTime x' y'

/-! ## One more mark -/

section
variable {R : ℚ → ℚ → Prop} {marks : List Mark} {x y : Mark} {f : Mark → Mark → ℚ} {w v : ℚ}

lemma Fall.refl (hx : x ∈ marks) : Fall R marks x x := by
  obtain ⟨i, hi⟩ := List.getElem?_of_mem hx
  exact ⟨i, i, le_refl i, hi, hi, fun k z hik hki _ => absurd hik (not_lt.2 hki)⟩

lemma Fall.mono {R' : ℚ → ℚ → Prop} (hR : ∀ a b, R a b → R' a b) (h : Fall R marks x y) :
    Fall R' marks x y := by
  obtain ⟨i, j, hij, hx, hy, hbetween⟩ := h
  exact ⟨i, j, hij, hx, hy, fun k z hik hkj hz => hR _ _ (hbetween k z hik hkj hz)⟩

lemma Fall.left_mem (h : Fall R marks x y) : x ∈ marks := by
  obtain ⟨i, j, -, hx, -⟩ := h
  exact List.mem_of_getElem? hx

/-- A mark from which the last mark of a curve falls. -/
def LastFall (R : ℚ → ℚ → Prop) (marks : List Mark) (x : Mark) : Prop :=
  ∃ i, marks[i]? = some x ∧ ∀ (k : ℕ) (z : Mark), i < k → marks[k]? = some z → R z.2 x.2

/-- A fall of a curve with one more mark is an old one, or it ends at the new mark. -/
lemma fall_snoc {u : Mark} :
    Fall R (marks ++ [y]) x u ↔ Fall R marks x u ∨ u = y ∧ LastFall R (marks ++ [y]) x := by
  have hlast : (marks ++ [y])[marks.length]? = some y := by simp
  have hold : ∀ {k : ℕ} {z : Mark}, marks[k]? = some z → (marks ++ [y])[k]? = some z := by
    intro k z hz
    rw [List.getElem?_append_left (List.getElem?_eq_some_iff.1 hz).1]
    exact hz
  have hbound : ∀ {k : ℕ} {z : Mark}, (marks ++ [y])[k]? = some z → k ≤ marks.length := by
    intro k z hz
    have hlt := (List.getElem?_eq_some_iff.1 hz).1
    rw [List.length_append, List.length_singleton] at hlt
    omega
  constructor
  · rintro ⟨i, j, hij, hx, hu, hbetween⟩
    rcases (hbound hu).lt_or_eq with hj | rfl
    · rw [List.getElem?_append_left (by omega)] at hx hu
      exact .inl ⟨i, j, hij, hx, hu, fun k z hik hkj hz => hbetween k z hik hkj (hold hz)⟩
    · rw [hlast] at hu
      cases hu
      exact .inr ⟨rfl, i, hx, fun k z hik hz => hbetween k z hik (hbound hz) hz⟩
  · rintro (⟨i, j, hij, hx, hu, hbetween⟩ | ⟨rfl, i, hx, hafter⟩)
    · have hj := (List.getElem?_eq_some_iff.1 hu).1
      refine ⟨i, j, hij, hold hx, hold hu, fun k z hik hkj hz => hbetween k z hik hkj ?_⟩
      rwa [List.getElem?_append_left (by omega)] at hz
    · exact ⟨i, marks.length, hbound hx, hx, hlast, fun k z hik _ hz => hafter k z hik hz⟩

lemma fallValues_snoc :
    fallValues R f (marks ++ [y]) =
      fallValues R f marks ∪ {v | ∃ x, LastFall R (marks ++ [y]) x ∧ v = f x y} := by
  ext v
  simp only [fallValues, Set.mem_insert_iff, Set.mem_ofPred_eq, Set.mem_union, fall_snoc]
  constructor
  · rintro (h | ⟨x, u, h | ⟨rfl, h⟩, hv⟩)
    · exact .inl (.inl h)
    · exact .inl (.inr ⟨x, u, h, hv⟩)
    · exact .inr ⟨x, h, hv⟩
  · rintro ((h | ⟨x, u, h, hv⟩) | ⟨x, h, hv⟩)
    · exact .inl h
    · exact .inr ⟨x, u, .inl h, hv⟩
    · exact .inr ⟨x, y, .inr ⟨rfl, h⟩, hv⟩

/-- The largest value with one more mark. -/
lemma isGreatest_snoc (h : IsGreatest (fallValues R f marks) w) (hx : LastFall R (marks ++ [y]) x)
    (hle : ∀ x', LastFall R (marks ++ [y]) x' → f x' y ≤ f x y) :
    IsGreatest (fallValues R f (marks ++ [y])) (max w (f x y)) := by
  have hlast : IsGreatest {v | ∃ x, LastFall R (marks ++ [y]) x ∧ v = f x y} (f x y) := by
    refine ⟨⟨x, hx, rfl⟩, ?_⟩
    rintro v ⟨x', hx', rfl⟩
    exact hle x' hx'
  rw [fallValues_snoc]
  exact h.union hlast

lemma fallValues_nonneg (h : IsGreatest (fallValues R f marks) w) : 0 ≤ w :=
  h.2 (Set.mem_insert 0 _)

/-! ## The running peak -/

/-- The first of the highest marks. -/
def FirstPeak (marks : List Mark) (p : Mark) : Prop :=
  ∃ i, marks[i]? = some p ∧
    ∀ (k : ℕ) (z : Mark), marks[k]? = some z → z.2 ≤ p.2 ∧ (k < i → z.2 < p.2)

/-- A mark above the peak is the next peak. -/
lemma FirstPeak.snoc_of_lt {p : Mark} (h : ∀ z ∈ marks, z.2 ≤ p.2) (hlt : p.2 < y.2) :
    FirstPeak (marks ++ [y]) y := by
  refine ⟨marks.length, by simp, fun k z hz => ?_⟩
  rcases lt_trichotomy k marks.length with hk | rfl | hk
  · rw [List.getElem?_append_left hk] at hz
    have hz' := (h z (List.mem_of_getElem? hz)).trans_lt hlt
    exact ⟨hz'.le, fun _ => hz'⟩
  · have hzy : z = y := by simpa using hz.symm
    subst hzy
    exact ⟨le_refl _, fun hk => absurd hk (lt_irrefl _)⟩
  · have hlen := (List.getElem?_eq_some_iff.1 hz).1
    rw [List.length_append, List.length_singleton] at hlen
    omega

/-- Otherwise the peak stays. -/
lemma FirstPeak.snoc_of_le {p : Mark} (h : FirstPeak marks p) (hle : y.2 ≤ p.2) :
    FirstPeak (marks ++ [y]) p := by
  obtain ⟨i, hi, hpeak⟩ := h
  have hlen := (List.getElem?_eq_some_iff.1 hi).1
  refine ⟨i, by rw [List.getElem?_append_left hlen]; exact hi, fun k z hz => ?_⟩
  rcases lt_or_ge k marks.length with hk | hk
  · rw [List.getElem?_append_left hk] at hz
    exact hpeak k z hz
  · have hzy : z = y := by
      have hk' := (List.getElem?_eq_some_iff.1 hz).1
      rw [List.length_append, List.length_singleton] at hk'
      obtain rfl : k = marks.length := by omega
      simpa using hz.symm
    subst hzy
    exact ⟨hle, fun hki => by omega⟩

/-- From the peak the last mark falls, most of all and for the longest time. -/
lemma FirstPeak.lastFall {p : Mark} (h : FirstPeak marks p) : LastFall (· ≤ ·) marks p := by
  obtain ⟨i, hi, hpeak⟩ := h
  exact ⟨i, hi, fun k z _ hz => (hpeak k z hz).1⟩

lemma FirstPeak.le {p : Mark} (h : FirstPeak marks p) (hx : x ∈ marks) : x.2 ≤ p.2 := by
  obtain ⟨i, -, hpeak⟩ := h
  obtain ⟨k, hk⟩ := List.getElem?_of_mem hx
  exact (hpeak k x hk).1

lemma FirstPeak.no_later {p : Mark} (h : FirstPeak marks p)
    (htimes : marks.Pairwise fun x y => x.1 ≤ y.1) (hx : LastFall (· ≤ ·) marks x) : p.1 ≤ x.1 := by
  obtain ⟨i, hi, hpeak⟩ := h
  obtain ⟨j, hj, hafter⟩ := hx
  have hij : i ≤ j := by
    by_contra hlt
    have hlt := not_le.1 hlt
    -- a mark before the peak is below it, and so the peak does not fall from there
    exact absurd (hafter i p hlt hi) (not_le.2 ((hpeak j x hj).2 hlt))
  rcases hij.lt_or_eq with hij | rfl
  · obtain ⟨hil, hip⟩ := List.getElem?_eq_some_iff.1 hi
    obtain ⟨hjl, hjx⟩ := List.getElem?_eq_some_iff.1 hj
    have hle := List.pairwise_iff_getElem.1 htimes i j hil hjl hij
    rwa [hip, hjx] at hle
  · rw [hi] at hj
    cases hj
    exact le_refl _

/-! ## The pass -/

/-- What the pass has found in the marks so far: the first of the highest marks, the largest fall in
dollars and the longest one, and the largest share of the peak among the falls that attain the one
in dollars. -/
structure Passed (marks : List Mark) (s : DrawdownState) : Prop where
  peak : (marks = [] ∧ s.peak = none) ∨ ∃ p, s.peak = some p ∧ FirstPeak marks p
  usd : IsGreatest (fallValues anyway fallUsd marks) s.worstDdUsd
  duration : IsGreatest (fallValues (· ≤ ·) fallTime marks) s.worstDuration
  attained : (s.worstDdUsd = 0 ∧ s.worstDdPct = 0) ∨
    ∃ x y, Fall anyway marks x y ∧ fallUsd x y = s.worstDdUsd ∧ fallRatio x y = s.worstDdPct
  steepest : ∀ x y, Fall anyway marks x y → fallUsd x y = s.worstDdUsd →
    fallRatio x y ≤ s.worstDdPct

lemma passed_nil : Passed [] {} := by
  have hnone : ∀ {R x y}, ¬ Fall R [] x y := by
    rintro R x y ⟨i, j, -, hx, -⟩
    cases hx
  have hzero : ∀ (R : ℚ → ℚ → Prop) (f : Mark → Mark → ℚ), IsGreatest (fallValues R f []) 0 := by
    intro R f
    refine ⟨Set.mem_insert 0 _, ?_⟩
    rintro v (rfl | ⟨x, y, hfall, -⟩)
    · exact le_refl _
    · exact absurd hfall hnone
  exact ⟨.inl ⟨rfl, rfl⟩, hzero _ _, hzero _ _, .inl ⟨rfl, rfl⟩, fun x y h => absurd h hnone⟩

/-- From the new mark on there is no fall. -/
lemma max_self_fall (h : IsGreatest (fallValues R f marks) w) (hzero : f y y = 0) :
    max w (f y y) = w := by
  rw [hzero]
  exact max_eq_left (fallValues_nonneg h)

lemma lastFall_anyway (hx : x ∈ marks) : LastFall anyway marks x := by
  obtain ⟨i, hi⟩ := List.getElem?_of_mem hx
  exact ⟨i, hi, fun _ _ _ _ => trivial⟩

lemma LastFall.mem (h : LastFall R marks x) : x ∈ marks := by
  obtain ⟨i, hi, -⟩ := h
  exact List.mem_of_getElem? hi

/-- What the largest values are with one more mark, by the peak then. -/
lemma FirstPeak.greatest {p : Mark} {s : DrawdownState} (h : FirstPeak (marks ++ [y]) p)
    (htimes : (marks ++ [y]).Pairwise fun x y => x.1 ≤ y.1) (hs : Passed marks s) :
    IsGreatest (fallValues anyway fallUsd (marks ++ [y])) (max s.worstDdUsd (fallUsd p y)) ∧
      IsGreatest (fallValues (· ≤ ·) fallTime (marks ++ [y]))
        (max s.worstDuration (fallTime p y)) := by
  refine ⟨isGreatest_snoc hs.usd (lastFall_anyway h.lastFall.mem) fun x hx => ?_,
    isGreatest_snoc hs.duration h.lastFall fun x hx => ?_⟩
  · have hle := h.le hx.mem
    unfold fallUsd
    linarith
  · have hle := h.no_later htimes hx
    unfold fallTime secondsBetween
    have hcast : ((y.1 - x.1 : ℤ) : ℚ) ≤ ((y.1 - p.1 : ℤ) : ℚ) :=
      Int.cast_le.2 (Int.sub_le_sub_left hle y.1)
    exact div_le_div_of_nonneg_right hcast (by norm_num)

lemma Passed.pct_nonneg {s : DrawdownState} (h : Passed marks s) (hpos : ∀ x ∈ marks, 0 < x.2) :
    0 ≤ s.worstDdPct := by
  rcases h.attained with ⟨-, hzero⟩ | ⟨x, u, hfall, husd, hpct⟩
  · rw [hzero]
  · rw [← hpct]
    refine div_nonneg ?_ (hpos x hfall.left_mem).le
    exact (fallValues_nonneg h.usd).trans_eq husd.symm

/-- A mark above all others starts no fall, and the pass only notes it as the peak. -/
lemma Passed.snoc_peak {s : DrawdownState} (h : Passed marks s) (hpos : ∀ x ∈ marks, 0 < x.2)
    (htimes : (marks ++ [y]).Pairwise fun x y => x.1 ≤ y.1) (hpeak : FirstPeak (marks ++ [y]) y) :
    Passed (marks ++ [y]) { s with peak := some y } := by
  obtain ⟨husd, hduration⟩ := hpeak.greatest htimes h
  rw [max_self_fall h.usd (by simp [fallUsd])] at husd
  rw [max_self_fall h.duration (by simp [fallTime, secondsBetween])] at hduration
  refine ⟨.inr ⟨y, rfl, hpeak⟩, husd, hduration, ?_, fun x u hfall heq => ?_⟩
  · rcases h.attained with hzero | ⟨x, u, hfall, hattained⟩
    · exact .inl hzero
    · exact .inr ⟨x, u, fall_snoc.2 (.inl hfall), hattained⟩
  · rcases fall_snoc.1 hfall with hold | ⟨hu, hlast⟩
    · exact h.steepest x u hold heq
    · -- nothing falls to the new peak
      have hle := hpeak.le hlast.mem
      have hworst := fallValues_nonneg h.usd
      have hflat : x.2 - u.2 = 0 := by
        have hdrop : x.2 - u.2 = s.worstDdUsd := heq
        rw [hu] at hdrop ⊢
        linarith
      rw [fallRatio, hflat, zero_div]
      exact h.pct_nonneg hpos

/-- A mark that is not above the peak. -/
lemma Passed.snoc_below {s : DrawdownState} {p : Mark} (h : Passed marks s)
    (hpos : ∀ x ∈ marks, 0 < x.2) (htimes : (marks ++ [y]).Pairwise fun x y => x.1 ≤ y.1)
    (hpeak : FirstPeak marks p) (hle : y.2 ≤ p.2) :
    Passed (marks ++ [y])
      { peak := some p
        worstDdUsd := max s.worstDdUsd (fallUsd p y)
        worstDdPct := if s.worstDdUsd < fallUsd p y then fallRatio p y else s.worstDdPct
        worstDuration := max s.worstDuration (fallTime p y) } := by
  have hpeak' := hpeak.snoc_of_le hle
  obtain ⟨husd, hduration⟩ := hpeak'.greatest htimes h
  refine ⟨.inr ⟨p, rfl, hpeak'⟩, husd, hduration, ?_, fun x u hfall heq => ?_⟩
  · by_cases hworse : s.worstDdUsd < fallUsd p y
    · simp only [if_pos hworse, max_eq_right hworse.le]
      exact .inr ⟨p, y, fall_snoc.2 (.inr ⟨rfl, lastFall_anyway hpeak'.lastFall.mem⟩), rfl, rfl⟩
    · simp only [if_neg hworse, max_eq_left (not_lt.1 hworse)]
      rcases h.attained with hzero | ⟨x, u, hfall, hattained⟩
      · exact .inl hzero
      · exact .inr ⟨x, u, fall_snoc.2 (.inl hfall), hattained⟩
  · by_cases hworse : s.worstDdUsd < fallUsd p y
    · simp only [if_pos hworse, max_eq_right hworse.le] at heq ⊢
      rcases fall_snoc.1 hfall with hold | ⟨rfl, -⟩
      · have hle' : fallUsd x u ≤ s.worstDdUsd := h.usd.2 (.inr ⟨x, u, hold, rfl⟩)
        linarith
      · have hsame : x.2 = p.2 := by
          unfold fallUsd at heq
          linarith
        rw [fallRatio, fallRatio, hsame]
    · simp only [if_neg hworse, max_eq_left (not_lt.1 hworse)] at heq ⊢
      rcases fall_snoc.1 hfall with hold | ⟨rfl, hlast⟩
      · exact h.steepest x u hold heq
      · -- it falls from the height of the peak, and an earlier fall of that size is steeper
        have hxp := hpeak'.le hlast.mem
        have hworst := not_lt.1 hworse
        have hsame : x.2 = p.2 := by
          unfold fallUsd at heq hworst
          linarith
        rw [fallRatio, show x.2 - u.2 = s.worstDdUsd from heq, hsame]
        rcases h.attained with ⟨hzero, hpct⟩ | ⟨x₀, y₀, hfall₀, husd₀, hpct₀⟩
        · rw [hzero, hpct, zero_div]
        · rw [← hpct₀, ← husd₀]
          have hx₀ := hfall₀.left_mem
          refine div_le_div_of_nonneg_left ?_ (hpos x₀ hx₀) (hpeak.le hx₀)
          exact (fallValues_nonneg h.usd).trans_eq husd₀.symm

/-- One mark. -/
lemma Passed.snoc {s : DrawdownState} (h : Passed marks s) (hpos : ∀ x ∈ marks, 0 < x.2)
    (htimes : (marks ++ [y]).Pairwise fun x y => x.1 ≤ y.1) :
    Passed (marks ++ [y]) (s.step y) := by
  have hif : ∀ a b : ℚ, (if a < b then b else a) = max a b := by
    intro a b
    split
    · next hab => exact (max_eq_right hab.le).symm
    · next hab => exact (max_eq_left (not_lt.1 hab)).symm
  rcases h.peak with ⟨rfl, hnone⟩ | ⟨p, hp, hpeak⟩
  · unfold DrawdownState.step
    rw [hnone]
    refine h.snoc_peak hpos htimes ⟨0, rfl, fun k z hz => ?_⟩
    have hzy : z = y := by simpa using List.mem_of_getElem? hz
    rw [hzy]
    exact ⟨le_refl _, fun hk => absurd hk (Nat.not_lt_zero _)⟩
  · unfold DrawdownState.step
    rw [hp]
    by_cases hlt : p.2 < y.2
    · simp only [if_pos hlt]
      exact h.snoc_peak hpos htimes (.snoc_of_lt (fun z hz => hpeak.le hz) hlt)
    · have hbelow := h.snoc_below hpos htimes hpeak (not_lt.1 hlt)
      simp only [if_neg hlt, if_pos (hpos p (hpeak.lastFall).mem), hif]
      exact hbelow

end

/-- The whole pass. -/
lemma passed (curve : EquityCurve) : Passed curve.marks (maxDrawdown curve.marks) := by
  obtain ⟨marks, hpos, htimes⟩ := curve
  show Passed marks (maxDrawdown marks)
  induction marks using List.reverseRecOn with
  | nil => exact passed_nil
  | append_singleton marks y ih =>
    have hpos' : ∀ x ∈ marks, 0 < x.2 := fun x hx => hpos x (List.mem_append_left _ hx)
    rw [maxDrawdown, List.foldl_append]
    exact (ih hpos' (List.pairwise_append.1 htimes).1).snoc hpos' htimes

/-! ## The maxima -/

/-- The portfolio keeps the same peak and the same drawdown. -/
lemma drawdownUsd_eq (marks : List Mark) :
    marks.foldl drawdownUsdStep (none, 0) =
        ((maxDrawdown marks).peak.map Prod.snd, (maxDrawdown marks).worstDdUsd) ∧
      0 ≤ (maxDrawdown marks).worstDdUsd := by
  induction marks using List.reverseRecOn with
  | nil => exact ⟨rfl, le_refl _⟩
  | append_singleton marks y ih =>
    obtain ⟨hsame, hnonneg⟩ := ih
    unfold maxDrawdown at hsame hnonneg ⊢
    rw [List.foldl_append, List.foldl_append, hsame]
    simp only [List.foldl_cons, List.foldl_nil]
    generalize marks.foldl DrawdownState.step {} = s at hnonneg ⊢
    unfold drawdownUsdStep DrawdownState.step
    cases s.peak with
    | none => simp [hnonneg]
    | some p =>
      by_cases hlt : p.2 < y.2
      · simp [hlt, max_eq_right hlt.le, hnonneg]
      · have hle := not_lt.1 hlt
        by_cases hworse : s.worstDdUsd < p.2 - y.2
        · simp [hlt, hworse, max_eq_right hworse.le, hle]
        · simp [hlt, hworse, max_eq_left hle, max_eq_left (not_lt.1 hworse), hnonneg]

section
variable (curve : EquityCurve)

/-- The percentage is the largest where one fall is largest both ways. -/
lemma pct_iff :
    IsGreatest (fallValues anyway fallRatio curve.marks) (maxDrawdown curve.marks).worstDdPct ↔
      OneLargestFall curve.marks := by
  have h := passed curve
  have hpos := curve.positive
  generalize maxDrawdown curve.marks = s at h ⊢
  generalize curve.marks = marks at h hpos ⊢
  constructor
  · intro hgreatest
    cases marks with
    | nil => exact .inl rfl
    | cons first rest =>
      have hfalls : ∀ x y x' y', Fall anyway (first :: rest) x' y' → fallUsd x y = s.worstDdUsd →
          fallRatio x y = s.worstDdPct → fallUsd x' y' ≤ fallUsd x y ∧
            fallRatio x' y' ≤ fallRatio x y := by
        intro x y x' y' hfall husd hpct
        rw [husd, hpct]
        exact ⟨h.usd.2 (.inr ⟨x', y', hfall, rfl⟩), hgreatest.2 (.inr ⟨x', y', hfall, rfl⟩)⟩
      rcases h.attained with ⟨husd, hpct⟩ | ⟨x, y, hfall, husd, hpct⟩
      · refine .inr ⟨first, first, .refl (by simp), fun x' y' hfall => hfalls _ _ _ _ hfall ?_ ?_⟩
        · rw [husd, fallUsd, sub_self]
        · rw [hpct, fallRatio, sub_self, zero_div]
      · exact .inr ⟨x, y, hfall, fun x' y' hfall' => hfalls x y x' y' hfall' husd hpct⟩
  · have hmem : s.worstDdPct ∈ fallValues anyway fallRatio marks := by
      rcases h.attained with ⟨-, hpct⟩ | ⟨x, y, hfall, -, hpct⟩
      · exact .inl hpct
      · exact .inr ⟨x, y, hfall, hpct.symm⟩
    have hnonneg := h.pct_nonneg hpos
    rintro (rfl | ⟨x, y, hfall, hlargest⟩)
    · refine ⟨hmem, ?_⟩
      rintro v (rfl | ⟨x, y, hfall, -⟩)
      · exact hnonneg
      · exact absurd hfall.left_mem List.not_mem_nil
    · -- the fall that is largest both ways is the largest in dollars
      have husd : fallUsd x y = s.worstDdUsd := by
        refine le_antisymm (h.usd.2 (.inr ⟨x, y, hfall, rfl⟩)) ?_
        rcases h.usd.1 with hzero | ⟨x', y', hfall', heq⟩
        · rw [hzero]
          have hself := (hlargest x x (.refl hfall.left_mem)).1
          rwa [fallUsd, sub_self] at hself
        · exact heq.trans_le (hlargest x' y' hfall').1
      refine ⟨hmem, ?_⟩
      rintro v (rfl | ⟨x', y', hfall', rfl⟩)
      · exact hnonneg
      · exact (hlargest x' y' hfall').2.trans (h.steepest x y hfall husd)

/-- The duration is the longest time under water where no plateau is longer. -/
lemma duration_iff :
    IsGreatest (fallValues (· < ·) fallTime curve.marks) (maxDrawdown curve.marks).worstDuration ↔
      NoLongPlateau curve.marks := by
  have h := (passed curve).duration
  generalize (maxDrawdown curve.marks).worstDuration = w at h ⊢
  generalize curve.marks = marks at h ⊢
  have hsub : ∀ x y, Fall (· < ·) marks x y → fallTime x y ≤ w := fun x y hfall =>
    h.2 (.inr ⟨x, y, hfall.mono fun _ _ hlt => hlt.le, rfl⟩)
  constructor
  · rintro ⟨hmem, -⟩ x y hfall
    have hle : fallTime x y ≤ w := h.2 (.inr ⟨x, y, hfall, rfl⟩)
    rcases hmem with rfl | ⟨x', y', hfall', rfl⟩
    · refine ⟨x, x, .refl hfall.left_mem, hle.trans_eq ?_⟩
      simp [fallTime, secondsBetween]
    · exact ⟨x', y', hfall', hle⟩
  · intro hplateau
    refine ⟨?_, ?_⟩
    · rcases h.1 with hzero | ⟨x, y, hfall, hw⟩
      · exact .inl hzero
      · obtain ⟨x', y', hfall', hle⟩ := hplateau x y hfall
        exact .inr ⟨x', y', hfall', le_antisymm (hw.trans_le hle) (hsub x' y' hfall')⟩
    · rintro v (rfl | ⟨x, y, hfall, rfl⟩)
      · exact fallValues_nonneg h
      · exact hsub x y hfall

/-- **The maximum drawdown.**  The three values of the pass are the true maxima, and the portfolio
agrees, exactly when one fall is the largest in dollars and relatively, and no stretch that is level
with its first mark lasts longer than every time under water. -/
theorem maxDrawdown_iff :
    TrueMaxima curve.marks ↔ OneLargestFall curve.marks ∧ NoLongPlateau curve.marks := by
  constructor
  · intro h
    exact ⟨(pct_iff curve).1 h.pct, (duration_iff curve).1 h.duration⟩
  · rintro ⟨hfall, hplateau⟩
    refine ⟨(passed curve).usd, (pct_iff curve).2 hfall, (duration_iff curve).2 hplateau,
      fun p hp => ?_⟩
    rw [Portfolio.maxDrawdownUsd, hp, (drawdownUsd_eq curve.marks).1]

end

/-- A fall of a fifth, and later a larger one of three twentieths. -/
def twoFalls : List Mark := [(0, 100), (1, 80), (2, 200), (3, 170)]

/-- An equity that does not change. -/
def level : List Mark := [(0, 100), (1000000, 100)]

/-- The steeper fall is lost, and a level equity is under water. -/
theorem maxDrawdown_misses : ¬ TrueMaxima twoFalls ∧ ¬ TrueMaxima level := by
  constructor
  · intro h
    have hfall : Fall anyway twoFalls (0, 100) (1, 80) :=
      ⟨0, 1, by decide, rfl, rfl, fun _ _ _ _ _ => trivial⟩
    have hle : fallRatio (0, 100) (1, 80) ≤ (maxDrawdown twoFalls).worstDdPct :=
      h.pct.2 (.inr ⟨_, _, hfall, rfl⟩)
    exact absurd hle (by decide +kernel)
  · intro h
    have hone : (maxDrawdown level).worstDuration = 1 := by decide +kernel
    rcases h.duration.1 with hzero | ⟨x, y, ⟨i, j, hij, hx, hy, hbelow⟩, heq⟩
    · rw [hone] at hzero
      exact one_ne_zero hzero
    · have hxi := (List.getElem?_eq_some_iff.1 hx).1
      have hyj := (List.getElem?_eq_some_iff.1 hy).1
      rw [show level.length = 2 from rfl] at hxi hyj
      rw [hone] at heq
      rcases hij.eq_or_lt with rfl | hlt
      · rw [hx] at hy
        cases hy
        simp [fallTime, secondsBetween] at heq
      · -- the second mark would have to be below the first
        obtain ⟨rfl, rfl⟩ : i = 0 ∧ j = 1 := by omega
        have hfall := hbelow 1 y (by omega) (le_refl _) hy
        cases hx
        cases hy
        exact absurd hfall (lt_irrefl _)

end Evosport.Backtest
