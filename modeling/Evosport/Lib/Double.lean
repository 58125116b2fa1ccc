/-
Rounding to double precision.

A double has 53 bits of precision.  Values stay exact rationals here, and `toDouble` rounds one to
the nearest double, ties to the even one; overflow and the loss of precision below the normal range
are left out.  Rounding is monotone (`toDouble_mono`), which is all that comparisons of rounded
values need.
-/
import Mathlib.Algebra.Order.Round
import Mathlib.Data.Int.ConditionallyCompleteOrder
import Mathlib.Data.Int.Log
import Mathlib.Data.Rat.Floor
import Mathlib.Tactic.Positivity
import Mathlib.Tactic.Push
import Mathlib.Tactic.FieldSimp
import Mathlib.Tactic.Ring

namespace Lib

/-- The nearest integer, ties to the even one. -/
def nearestEven (x : ℚ) : ℤ :=
  let f := ⌊x⌋
  let r := x - f
  if r < 1 / 2 then f
  else if 1 / 2 < r then f + 1
  else if f % 2 = 0 then f else f + 1

/-- The distance of the doubles near `x`. -/
def ulp (x : ℚ) : ℚ := 2 ^ (Int.log 2 |x| - 52)

/-- The nearest double, ties to the even one. -/
def toDouble (x : ℚ) : ℚ := nearestEven (x / ulp x) * ulp x

example : toDouble (1 / 10) = 3602879701896397 / 36028797018963968 := by decide +kernel

lemma floor_le_nearestEven (x : ℚ) : ⌊x⌋ ≤ nearestEven x := by
  unfold nearestEven
  dsimp only
  split_ifs <;> omega

lemma nearestEven_le_floor (x : ℚ) : nearestEven x ≤ ⌊x⌋ + 1 := by
  unfold nearestEven
  dsimp only
  split_ifs <;> omega

@[simp] lemma nearestEven_intCast (n : ℤ) : nearestEven n = n := by
  simp [nearestEven]

lemma nearestEven_mono : Monotone nearestEven := by
  intro x y hxy
  rcases (Int.floor_mono hxy).lt_or_eq with hlt | heq
  · exact (nearestEven_le_floor x).trans ((Int.add_one_le_of_lt hlt).trans (floor_le_nearestEven y))
  · -- below the same floor, a larger fraction is not rounded to less
    have hr : x - ⌊y⌋ ≤ y - ⌊y⌋ := by linarith
    unfold nearestEven
    simp only [heq]
    split_ifs <;> first | omega | linarith

lemma nearestEven_neg (x : ℚ) : nearestEven (-x) = -nearestEven x := by
  by_cases hx : x = ⌊x⌋
  · rw [hx, ← Int.cast_neg, nearestEven_intCast, nearestEven_intCast]
  · have hlt : (⌊x⌋ : ℚ) < x := lt_of_le_of_ne (Int.floor_le x) (Ne.symm hx)
    have hfloor : ⌊-x⌋ = -⌊x⌋ - 1 := by
      rw [Int.floor_eq_iff]
      have := Int.lt_floor_add_one x
      push_cast
      constructor <;> linarith
    unfold nearestEven
    simp only [hfloor]
    push_cast
    split_ifs <;> first | omega | linarith

lemma nearestEven_eq {x : ℚ} {n : ℤ} (hlow : n - 1 / 2 < x) (hhigh : x < n + 1 / 2) :
    nearestEven x = n := by
  have hfloor := Int.floor_le x
  have hlt := Int.lt_floor_add_one x
  rcases le_or_gt (n : ℚ) x with hn | hn
  · have hf : ⌊x⌋ = n := Int.floor_eq_iff.2 ⟨hn, by linarith⟩
    simp only [nearestEven, hf]
    rw [if_pos (by linarith)]
  · have hf : ⌊x⌋ = n - 1 := by
      rw [Int.floor_eq_iff]
      push_cast
      constructor <;> linarith
    simp only [nearestEven, hf, Int.cast_sub, Int.cast_one]
    rw [if_neg (by linarith), if_pos (by linarith), sub_add_cancel]

lemma abs_nearestEven_sub_le (x : ℚ) : |nearestEven x - x| ≤ 1 / 2 := by
  have hfloor := Int.floor_le x
  have hlt := Int.lt_floor_add_one x
  simp only [nearestEven]
  split_ifs <;> rw [abs_le] <;> push_cast <;> constructor <;> linarith

lemma ulp_pos (x : ℚ) : 0 < ulp x := zpow_pos two_pos _

@[simp] lemma ulp_neg (x : ℚ) : ulp (-x) = ulp x := by simp [ulp]

@[simp] lemma toDouble_zero : toDouble 0 = 0 := by
  have := nearestEven_intCast 0
  simpa [toDouble] using Or.inl this

/-- Rounding moves a number by half the distance of the doubles at most. -/
lemma abs_toDouble_sub_le (x : ℚ) : |toDouble x - x| ≤ ulp x / 2 := by
  have hpos := ulp_pos x
  have hsplit : toDouble x - x = (nearestEven (x / ulp x) - x / ulp x) * ulp x := by
    rw [toDouble, sub_mul, div_mul_cancel₀ x hpos.ne']
  rw [hsplit, abs_mul, abs_of_pos hpos]
  have hround := mul_le_mul_of_nonneg_right (abs_nearestEven_sub_le (x / ulp x)) hpos.le
  linarith

lemma ulp_eq {x : ℚ} {n : ℤ} (hlow : 2 ^ n ≤ x) (hhigh : x < 2 ^ (n + 1)) :
    ulp x = 2 ^ (n - 52) := by
  have hpos : 0 < x := (zpow_pos two_pos n).trans_le hlow
  have hlog : Int.log 2 x = n := by
    refine le_antisymm (Int.lt_add_one_iff.1 ?_) ?_
    · exact (Int.lt_zpow_iff_log_lt one_lt_two hpos).1 (by exact_mod_cast hhigh)
    · exact (Int.zpow_le_iff_le_log one_lt_two hpos).1 (by exact_mod_cast hlow)
  rw [ulp, abs_of_pos hpos, hlog]

lemma toDouble_neg (x : ℚ) : toDouble (-x) = -toDouble x := by
  simp [toDouble, neg_div, nearestEven_neg]

/-- The ulp is a power of two. -/
lemma pow_mul_ulp {x : ℚ} (hx : 0 < x) (k : ℕ) :
    ((2 ^ k : ℤ) : ℚ) * ulp x = 2 ^ (Int.log 2 x + (k - 52)) := by
  rw [ulp, abs_of_pos hx, Int.cast_pow, Int.cast_ofNat, ← zpow_natCast, ← zpow_add₀ two_ne_zero]
  congr 1
  ring

/-- Below a power of two nothing is rounded above it. -/
lemma toDouble_le_pow {x : ℚ} (hx : 0 < x) : toDouble x ≤ 2 ^ (Int.log 2 x + 1) := by
  have hpos := ulp_pos x
  have hulp := pow_mul_ulp hx 53
  have hle : x / ulp x ≤ ((2 ^ 53 : ℤ) : ℚ) := by
    rw [div_le_iff₀ hpos, hulp]
    exact (Int.lt_zpow_succ_log_self one_lt_two x).le
  have hround : nearestEven (x / ulp x) ≤ 2 ^ 53 := by
    simpa only [nearestEven_intCast] using nearestEven_mono hle
  calc toDouble x ≤ ((2 ^ 53 : ℤ) : ℚ) * ulp x :=
        mul_le_mul_of_nonneg_right (by exact_mod_cast hround) hpos.le
    _ = 2 ^ (Int.log 2 x + 1) := hulp

/-- From a power of two on nothing is rounded below it. -/
lemma pow_le_toDouble {x : ℚ} (hx : 0 < x) : 2 ^ Int.log 2 x ≤ toDouble x := by
  have hpos := ulp_pos x
  have hulp : ((2 ^ 52 : ℤ) : ℚ) * ulp x = 2 ^ Int.log 2 x := by
    simpa using pow_mul_ulp hx 52
  have hle : ((2 ^ 52 : ℤ) : ℚ) ≤ x / ulp x := by
    rw [le_div_iff₀ hpos, hulp]
    exact Int.zpow_log_le_self one_lt_two hx
  have hround : 2 ^ 52 ≤ nearestEven (x / ulp x) := by
    simpa only [nearestEven_intCast] using nearestEven_mono hle
  calc (2 : ℚ) ^ Int.log 2 x = ((2 ^ 52 : ℤ) : ℚ) * ulp x := hulp.symm
    _ ≤ toDouble x := mul_le_mul_of_nonneg_right (by exact_mod_cast hround) hpos.le

lemma toDouble_le_of_pos {x y : ℚ} (hx : 0 < x) (hxy : x ≤ y) : toDouble x ≤ toDouble y := by
  have hy := hx.trans_le hxy
  rcases (Int.log_mono_right (b := 2) hx hxy).lt_or_eq with hlt | heq
  · calc toDouble x ≤ 2 ^ (Int.log 2 x + 1) := toDouble_le_pow hx
      _ ≤ 2 ^ Int.log 2 y := zpow_le_zpow_right₀ one_le_two hlt
      _ ≤ toDouble y := pow_le_toDouble hy
  · -- both are rounded to multiples of the same power of two
    have hulp : ulp x = ulp y := by rw [ulp, ulp, abs_of_pos hx, abs_of_pos hy, heq]
    have hpos := ulp_pos y
    rw [toDouble, toDouble, hulp]
    have hround := nearestEven_mono (div_le_div_of_nonneg_right hxy hpos.le)
    exact mul_le_mul_of_nonneg_right (by exact_mod_cast hround) hpos.le

lemma toDouble_nonneg {x : ℚ} (hx : 0 ≤ x) : 0 ≤ toDouble x := by
  rcases hx.lt_or_eq with hx | rfl
  · exact (zpow_nonneg zero_le_two _).trans (pow_le_toDouble hx)
  · simp

theorem toDouble_mono : Monotone toDouble := by
  intro x y hxy
  rcases le_or_gt x 0 with hx | hx
  · rcases le_or_gt 0 y with hy | hy
    · calc toDouble x = -toDouble (-x) := by rw [toDouble_neg, neg_neg]
        _ ≤ 0 := neg_nonpos.2 (toDouble_nonneg (neg_nonneg.2 hx))
        _ ≤ toDouble y := toDouble_nonneg hy
    · have := toDouble_le_of_pos (neg_pos.2 hy) (neg_le_neg hxy)
      rwa [toDouble_neg, toDouble_neg, neg_le_neg_iff] at this
  · exact toDouble_le_of_pos hx hxy

end Lib
