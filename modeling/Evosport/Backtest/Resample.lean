/-
Equity returns on a uniform grid (`metrics.resample_equity_returns`).

A cursor walks over the marks of an equity curve and stops, at each grid time, at the last mark that
is not later.  `resample_exact` says that the returns between these marks are as many as the grid
has bars, that they multiply to the return of the whole curve, and that none of them looks past its
grid time.
-/
import Evosport.Backtest.Drawdown
import Mathlib.Algebra.Order.Floor.Ring

namespace Evosport.Backtest

/-! ## The source -/

/-- The times of the marks in seconds after the first, with their equities. -/
def elapsed (marks : List Mark) : List (ℚ × ℚ) :=
  match marks with
  | [] => []
  | first :: rest => (first :: rest).map fun x => (secondsBetween first.1 x.1, x.2)

/-- Seconds from the first mark to the last. -/
def span (marks : List Mark) : ℚ := ((elapsed marks).getLast?).elim 0 Prod.fst

/-- The bars of the grid before it is capped. -/
def barCount (marks : List Mark) (barSeconds : ℚ) : ℤ := max 1 ⌈span marks / barSeconds⌉

/-- The width of a bar: widened where there would be more than `maxBars` of them. -/
def barWidth (marks : List Mark) (barSeconds : ℚ) (maxBars : ℤ) : ℚ :=
  if maxBars < barCount marks barSeconds then span marks / maxBars else barSeconds

/-- The `k`-th grid time. -/
def gridTime (marks : List Mark) (barSeconds : ℚ) (maxBars : ℤ) (k : ℕ) : ℚ :=
  min (k * barWidth marks barSeconds maxBars) (span marks)

/-- The cursor moves on while the next mark is not past the grid time: `cur` is the mark it stands
at, and the list holds those after it. -/
def carryForward (gridT : ℚ) : ℚ × ℚ → List (ℚ × ℚ) → (ℚ × ℚ) × List (ℚ × ℚ)
  | cur, [] => (cur, [])
  | cur, next :: rest => if next.1 ≤ gridT then carryForward gridT next rest else (cur, next :: rest)

/-- The loop over `n` bars after the `k`-th. -/
def resampleLoop (gridT : ℕ → ℚ) : ℕ → ℕ → ℚ → ℚ × ℚ → List (ℚ × ℚ) → List ℚ
  | 0, _, _, _, _ => []
  | n + 1, k, prevVal, cur, rest =>
    let c := carryForward (gridT (k + 1)) cur rest
    let currVal := c.1.2
    (if 0 < prevVal then [(currVal - prevVal) / prevVal] else []) ++
      resampleLoop gridT n (k + 1) currVal c.1 c.2

/-- `resample_equity_returns` -/
def resampleEquityReturns (marks : List Mark) (barSeconds : ℚ) (maxBars : ℤ) : List ℚ :=
  if marks.length < 2 ∨ barSeconds ≤ 0 ∨ span marks ≤ 0 then []
  else
    match elapsed marks with
    | [] => []
    | first :: rest =>
      resampleLoop (gridTime marks barSeconds maxBars)
        (min (barCount marks barSeconds) maxBars).toNat 0 first.2 first rest

/-! ## The cursor -/

section
variable {xs pre rest : List (ℚ × ℚ)} {cur : ℚ × ℚ} {t : ℚ}

/-- The last mark that is not later than `t`. -/
def lastAt (xs : List (ℚ × ℚ)) (t : ℚ) : Option (ℚ × ℚ) := (xs.filter fun x => x.1 ≤ t).getLast?

/-- The cursor stands at a mark that is not later than `t`. -/
structure CursorAt (xs pre : List (ℚ × ℚ)) (cur : ℚ × ℚ) (rest : List (ℚ × ℚ)) (t : ℚ) : Prop where
  split : xs = pre ++ cur :: rest
  reached : ∀ x ∈ pre ++ [cur], x.1 ≤ t

lemma CursorAt.mono {t' : ℚ} (h : CursorAt xs pre cur rest t) (hle : t ≤ t') :
    CursorAt xs pre cur rest t' :=
  ⟨h.split, fun x hx => (h.reached x hx).trans hle⟩

/-- The walk stops at the last mark that is not later. -/
lemma CursorAt.carryForward (h : CursorAt xs pre cur rest t)
    (hsorted : xs.Pairwise fun x y => x.1 ≤ y.1) :
    ∃ pre', CursorAt xs pre' (carryForward t cur rest).1 (carryForward t cur rest).2 t ∧
      lastAt xs t = some (Backtest.carryForward t cur rest).1 := by
  induction rest generalizing pre cur with
  | nil =>
    refine ⟨pre, h, ?_⟩
    have hall : xs.filter (fun x => decide (x.1 ≤ t)) = xs := by
      refine List.filter_eq_self.2 fun x hx => ?_
      rw [h.split] at hx
      simpa using h.reached x hx
    rw [lastAt, hall, h.split]
    simp [Backtest.carryForward]
  | cons next rest ih =>
    unfold Backtest.carryForward
    by_cases hnext : next.1 ≤ t
    · rw [if_pos hnext]
      have hmoved : CursorAt xs (pre ++ [cur]) next rest t := by
        refine ⟨by rw [h.split, List.append_assoc]; rfl, fun x hx => ?_⟩
        rcases List.mem_append.1 hx with hx | hx
        · exact h.reached x hx
        · rw [List.mem_singleton.1 hx]
          exact hnext
      exact ih hmoved
    · rw [if_neg hnext]
      refine ⟨pre, h, ?_⟩
      -- the next mark is past the grid time, and so are those after it
      have hlater : ∀ x ∈ next :: rest, ¬ x.1 ≤ t := by
        intro x hx
        rcases List.mem_cons.1 hx with rfl | hx
        · exact hnext
        · have hrest := (List.pairwise_append.1 (h.split ▸ hsorted)).2.1
          have hle := (List.pairwise_cons.1 (List.pairwise_cons.1 hrest).2).1 x hx
          exact fun hxt => hnext (hle.trans hxt)
      have hfilter : xs.filter (fun x => decide (x.1 ≤ t)) = pre ++ [cur] := by
        rw [h.split, show pre ++ cur :: next :: rest = (pre ++ [cur]) ++ (next :: rest) by simp,
          List.filter_append, List.filter_eq_self.2 fun x hx => by simpa using h.reached x hx,
          List.filter_eq_nil_iff.2 fun x hx => by simpa using hlater x hx, List.append_nil]
      rw [lastAt, hfilter, List.getLast?_concat]

/-- The equity that the loop carries past the `k`-th grid time: at the start that of the first
mark. -/
def carried (xs : List (ℚ × ℚ)) (gridT : ℕ → ℚ) (first : ℚ) (k : ℕ) : ℚ :=
  if k = 0 then first else (lastAt xs (gridT k)).elim 0 Prod.snd

/-- The loop returns the relative changes of what it carries. -/
lemma resampleLoop_eq {gridT : ℕ → ℚ} {first : ℚ} (hmono : Monotone gridT)
    (hsorted : xs.Pairwise fun x y => x.1 ≤ y.1) (hpos : ∀ x ∈ xs, 0 < x.2) {n k : ℕ}
    (h : CursorAt xs pre cur rest (gridT k)) (hfirst : 0 < carried xs gridT first k) :
    resampleLoop gridT n k (carried xs gridT first k) cur rest =
      (List.range n).map fun i => (carried xs gridT first (k + i + 1) -
        carried xs gridT first (k + i)) / carried xs gridT first (k + i) := by
  induction n generalizing k pre cur rest with
  | zero => rfl
  | succ n ih =>
    obtain ⟨pre', hcursor, hlast⟩ := (h.mono (hmono (Nat.le_succ k))).carryForward hsorted
    have hnext : (carryForward (gridT (k + 1)) cur rest).1.2 = carried xs gridT first (k + 1) := by
      rw [carried, if_neg (Nat.succ_ne_zero k), hlast, Option.elim_some]
    have hmem : (carryForward (gridT (k + 1)) cur rest).1 ∈ xs := by
      rw [hcursor.split]
      simp
    have hpos' : 0 < carried xs gridT first (k + 1) := hnext ▸ hpos _ hmem
    rw [resampleLoop, if_pos hfirst, hnext, ih hcursor hpos', List.range_succ_eq_map, List.map_cons,
      List.map_map]
    refine congrArg₂ List.cons rfl (List.map_congr_left fun i _ => ?_)
    simp only [Function.comp_apply, Nat.succ_eq_add_one]
    rw [show k + 1 + i = k + (i + 1) by omega]

/-- The growth factors of a sequence multiply to its whole growth. -/
lemma prod_growth {w : ℕ → ℚ} {n : ℕ} (hpos : ∀ i ≤ n, 0 < w i) :
    ((List.range n).map fun i => 1 + (w (i + 1) - w i) / w i).prod = w n / w 0 := by
  induction n with
  | zero => simp [(hpos 0 (le_refl 0)).ne']
  | succ n ih =>
    have hn := (hpos n (Nat.le_succ n)).ne'
    have h0 := (hpos 0 (Nat.zero_le _)).ne'
    rw [List.range_succ, List.map_append, List.prod_append,
      ih fun i hi => hpos i (hi.trans (Nat.le_succ n)), List.map_singleton, List.prod_singleton]
    field_simp
    ring

end

/-! ## The returns -/

/-- What the returns of a curve on a grid should be: one for each bar, together the growth of the
curve, and each of them computed from the last marks that are not later than its two grid times,
the first one from the first mark. -/
structure Resampled (marks : List Mark) (barSeconds : ℚ) (maxBars : ℤ) (rets : List ℚ) : Prop where
  count : (rets.length : ℤ) = min maxBars ⌈span marks / barSeconds⌉
  product : ∃ first last, marks.head? = some first ∧ marks.getLast? = some last ∧
    (rets.map (1 + ·)).prod = last.2 / first.2
  each : ∀ k < rets.length, ∃ x y,
    (if k = 0 then (elapsed marks).head? = some x
      else lastAt (elapsed marks) (gridTime marks barSeconds maxBars k) = some x) ∧
      lastAt (elapsed marks) (gridTime marks barSeconds maxBars (k + 1)) = some y ∧
      rets[k]? = some ((y.2 - x.2) / x.2)

section
variable {first : Mark} {rest : List Mark} {barSeconds : ℚ} {maxBars : ℤ}

lemma elapsed_cons (first : Mark) (rest : List Mark) :
    elapsed (first :: rest) =
      (0, first.2) :: rest.map fun x => (secondsBetween first.1 x.1, x.2) := by
  simp [elapsed, secondsBetween]

lemma elapsed_sorted (h : (first :: rest).Pairwise fun x y => x.1 ≤ y.1) :
    (elapsed (first :: rest)).Pairwise fun x y => x.1 ≤ y.1 := by
  refine List.pairwise_map.2 (h.imp fun {x y} hxy => ?_)
  exact div_le_div_of_nonneg_right (Int.cast_le.2 (Int.sub_le_sub_right hxy _)) (by norm_num)

/-- The marks are not later than the span. -/
lemma elapsed_le_span (h : (first :: rest).Pairwise fun x y => x.1 ≤ y.1) :
    ∀ x ∈ elapsed (first :: rest), x.1 ≤ span (first :: rest) := by
  intro x hx
  have hsorted := elapsed_sorted h
  unfold span
  generalize elapsed (first :: rest) = xs at hx hsorted ⊢
  obtain ⟨init, last, rfl⟩ := (List.eq_nil_or_concat xs).resolve_left (List.ne_nil_of_mem hx)
  rw [List.concat_eq_append] at hx hsorted ⊢
  rw [List.getLast?_concat, Option.elim_some]
  rcases List.mem_append.1 hx with hx | hx
  · exact (List.pairwise_append.1 hsorted).2.2 x hx last (List.mem_singleton_self _)
  · rw [List.mem_singleton.1 hx]

/-- The last mark of the whole span is the last one. -/
lemma lastAt_span (h : (first :: rest).Pairwise fun x y => x.1 ≤ y.1) :
    (lastAt (elapsed (first :: rest)) (span (first :: rest))).map Prod.snd =
      (first :: rest).getLast?.map Prod.snd := by
  have hall : (elapsed (first :: rest)).filter (fun x => decide (x.1 ≤ span (first :: rest))) =
      elapsed (first :: rest) :=
    List.filter_eq_self.2 fun x hx => by simpa using elapsed_le_span h x hx
  rw [lastAt, hall, elapsed, List.getLast?_map, Option.map_map]
  rfl

variable (hspan : 0 < span (first :: rest)) (hbar : 0 < barSeconds) (hmax : 1 ≤ maxBars)

include hspan hbar in
lemma barCount_eq : barCount (first :: rest) barSeconds = ⌈span (first :: rest) / barSeconds⌉ :=
  max_eq_right (Int.ceil_pos.2 (div_pos hspan hbar))

include hspan hbar hmax in
lemma barWidth_pos : 0 < barWidth (first :: rest) barSeconds maxBars := by
  unfold barWidth
  split
  · exact div_pos hspan (by exact_mod_cast (by omega : 0 < maxBars))
  · exact hbar

include hspan hbar hmax in
lemma gridTime_mono : Monotone (gridTime (first :: rest) barSeconds maxBars) := by
  intro i j hij
  refine min_le_min_right _ (mul_le_mul_of_nonneg_right ?_ (barWidth_pos hspan hbar hmax).le)
  exact_mod_cast hij

include hspan hbar hmax in
/-- The last bar ends with the span. -/
lemma gridTime_last :
    gridTime (first :: rest) barSeconds maxBars
      (min (barCount (first :: rest) barSeconds) maxBars).toNat = span (first :: rest) := by
  have hcount := barCount_eq hspan hbar
  have hone : 1 ≤ barCount (first :: rest) barSeconds := le_max_left _ _
  have hcast : (((min (barCount (first :: rest) barSeconds) maxBars).toNat : ℕ) : ℚ) =
      ((min (barCount (first :: rest) barSeconds) maxBars : ℤ) : ℚ) := by
    have hnonneg : 0 ≤ min (barCount (first :: rest) barSeconds) maxBars := by omega
    exact_mod_cast congrArg (Int.cast : ℤ → ℚ) (Int.toNat_of_nonneg hnonneg)
  unfold gridTime
  rw [hcast, barWidth]
  refine min_eq_right ?_
  split
  · next hmore =>
    have hpos : (0 : ℚ) < maxBars := by exact_mod_cast (by omega : 0 < maxBars)
    rw [min_eq_right hmore.le, mul_div_cancel₀ _ hpos.ne']
  · next hless =>
    rw [min_eq_left (not_lt.1 hless), hcount]
    exact (div_le_iff₀ hbar).1 (Int.le_ceil _)

include hspan hbar hmax in
/-- At every grid time there is a last mark. -/
lemma exists_lastAt (hpos : ∀ x ∈ first :: rest, 0 < x.2) (k : ℕ) :
    ∃ x, lastAt (elapsed (first :: rest)) (gridTime (first :: rest) barSeconds maxBars k) = some x ∧
      0 < x.2 := by
  have hgrid : 0 ≤ gridTime (first :: rest) barSeconds maxBars k :=
    le_min (mul_nonneg (Nat.cast_nonneg k) (barWidth_pos hspan hbar hmax).le) hspan.le
  have hfirst : (0, first.2) ∈ (elapsed (first :: rest)).filter fun x =>
      decide (x.1 ≤ gridTime (first :: rest) barSeconds maxBars k) := by
    rw [List.mem_filter, elapsed_cons]
    exact ⟨List.mem_cons_self, by simpa using hgrid⟩
  obtain ⟨x, hx⟩ := Option.isSome_iff_exists.1
    (List.getLast?_isSome.2 (List.ne_nil_of_mem hfirst))
  refine ⟨x, hx, ?_⟩
  obtain ⟨m, hm, rfl⟩ := List.mem_map.1 (List.mem_filter.1 (List.mem_of_getLast? hx)).1
  exact hpos m hm

include hspan hbar hmax in
/-- What is carried past each grid time is positive. -/
lemma carried_pos (hpos : ∀ x ∈ first :: rest, 0 < x.2) (k : ℕ) :
    0 < carried (elapsed (first :: rest)) (gridTime (first :: rest) barSeconds maxBars)
      first.2 k := by
  unfold carried
  split
  · exact hpos first List.mem_cons_self
  · obtain ⟨x, hx, hxpos⟩ := exists_lastAt hspan hbar hmax hpos k
    rw [hx]
    exact hxpos

include hspan hbar hmax in
/-- The returns are the relative changes of what is carried. -/
lemma returns_eq (hpos : ∀ x ∈ first :: rest, 0 < x.2)
    (htimes : (first :: rest).Pairwise fun x y => x.1 ≤ y.1) :
    resampleEquityReturns (first :: rest) barSeconds maxBars =
      (List.range (min (barCount (first :: rest) barSeconds) maxBars).toNat).map fun i =>
        let gridT := gridTime (first :: rest) barSeconds maxBars
        let value := carried (elapsed (first :: rest)) gridT first.2
        (value (i + 1) - value i) / value i := by
  have hready : ¬ ((first :: rest).length < 2 ∨ barSeconds ≤ 0 ∨ span (first :: rest) ≤ 0) := by
    rintro (hlen | hle | hle)
    · cases rest with
      | nil => simp [span, elapsed, secondsBetween] at hspan
      | cons second rest =>
        rw [List.length_cons, List.length_cons] at hlen
        omega
    · exact absurd hbar (not_lt.2 hle)
    · exact absurd hspan (not_lt.2 hle)
  have hzero : gridTime (first :: rest) barSeconds maxBars 0 = 0 := by
    rw [gridTime, Nat.cast_zero, zero_mul]
    exact min_eq_left hspan.le
  have hcursor : CursorAt (elapsed (first :: rest)) [] (0, first.2)
      (rest.map fun x => (secondsBetween first.1 x.1, x.2))
      (gridTime (first :: rest) barSeconds maxBars 0) := by
    refine ⟨elapsed_cons first rest, fun x hx => ?_⟩
    rw [List.mem_singleton.1 hx, hzero]
  have hloop := resampleLoop_eq
    (n := (min (barCount (first :: rest) barSeconds) maxBars).toNat)
    (gridTime_mono hspan hbar hmax) (elapsed_sorted htimes) (fun x hx => by
      obtain ⟨m, hm, rfl⟩ := List.mem_map.1 hx
      exact hpos m hm) hcursor (carried_pos hspan hbar hmax hpos 0)
  have hstart : carried (elapsed (first :: rest)) (gridTime (first :: rest) barSeconds maxBars)
      first.2 0 = first.2 := if_pos rfl
  rw [hstart] at hloop
  simp only [Nat.zero_add] at hloop
  unfold resampleEquityReturns
  rw [if_neg hready]
  rw [elapsed_cons] at hloop ⊢
  exact hloop

end

/-- **Resampled returns.**  For every equity curve that spans a positive time, every positive bar
and every cap of at least one bar, there are as many returns as bars, they multiply to the growth of
the curve, and each is computed from the last marks at its two grid times. -/
theorem resample_exact (curve : EquityCurve) (barSeconds : ℚ) (maxBars : ℤ)
    (hspan : 0 < span curve.marks) (hbar : 0 < barSeconds) (hmax : 1 ≤ maxBars) :
    Resampled curve.marks barSeconds maxBars
      (resampleEquityReturns curve.marks barSeconds maxBars) := by
  obtain ⟨marks, hpos, htimes⟩ := curve
  cases marks with
  | nil => exact absurd hspan (lt_irrefl 0)
  | cons first rest =>
    replace hspan : 0 < span (first :: rest) := hspan
    show Resampled (first :: rest) barSeconds maxBars
      (resampleEquityReturns (first :: rest) barSeconds maxBars)
    have hone : 1 ≤ barCount (first :: rest) barSeconds := le_max_left _ _
    have hcarried := carried_pos hspan hbar hmax hpos
    rw [returns_eq hspan hbar hmax hpos htimes]
    have hlast := gridTime_last hspan hbar hmax
    set n := (min (barCount (first :: rest) barSeconds) maxBars).toNat with hn
    have hnpos : n ≠ 0 := by omega
    refine ⟨?_, ⟨first, (first :: rest).getLast (by simp), rfl,
      List.getLast?_eq_some_getLast _, ?_⟩, fun k hk => ?_⟩
    · rw [List.length_map, List.length_range, hn, Int.toNat_of_nonneg (by omega), min_comm,
        barCount_eq hspan hbar]
    · rw [List.map_map]
      refine (prod_growth fun i _ => hcarried i).trans ?_
      have hend := lastAt_span htimes
      rw [← hlast, List.getLast?_eq_some_getLast (by simp), Option.map_some] at hend
      obtain ⟨x, hx, heq⟩ := Option.map_eq_some_iff.1 hend
      rw [carried, if_neg hnpos, hx, Option.elim_some, heq, carried, if_pos rfl]
    · rw [List.length_map, List.length_range] at hk
      obtain ⟨y, hy, -⟩ := exists_lastAt hspan hbar hmax hpos (k + 1)
      have hnext : carried (elapsed (first :: rest)) (gridTime (first :: rest) barSeconds maxBars)
          first.2 (k + 1) = y.2 := by
        rw [carried, if_neg (Nat.succ_ne_zero k), hy, Option.elim_some]
      rw [List.getElem?_map, List.getElem?_range hk, Option.map_some]
      dsimp only
      rw [hnext]
      by_cases hk0 : k = 0
      · subst hk0
        refine ⟨(0, first.2), y, ?_, hy, ?_⟩
        · rw [if_pos rfl, elapsed_cons, List.head?_cons]
        · rw [carried, if_pos rfl]
      · obtain ⟨x, hx, -⟩ := exists_lastAt hspan hbar hmax hpos k
        refine ⟨x, y, ?_, hy, ?_⟩
        · rw [if_neg hk0]
          exact hx
        · rw [carried, if_neg hk0, hx, Option.elim_some]

/-- An hour with a mark at its start, two within its second half and one at its end. -/
def oneHour : EquityCurve where
  marks := [(0, 100), (2000 * 10 ^ 6, 110), (2100 * 10 ^ 6, 99), (3600 * 10 ^ 6, 120)]
  positive := by decide +kernel
  chronological := by decide +kernel

/-- Four quarters of an hour. -/
theorem oneHour_resampled :
    Resampled oneHour.marks 900 200000 (resampleEquityReturns oneHour.marks 900 200000) :=
  resample_exact oneHour 900 200000 (by decide +kernel) (by decide) (by decide)

example : resampleEquityReturns oneHour.marks 900 200000 = [0, 0, -1 / 100, 7 / 33] := by
  decide +kernel

end Evosport.Backtest
