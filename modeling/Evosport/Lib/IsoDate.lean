/-
Dates of the proleptic Gregorian calendar and their ISO text.

A date is the number of its day since 1970-01-01.  `civil` computes year, month and day of the
month in cycles of 400 years (146097 days) that begin in March, so that the leap day comes last.
Different days have different dates (`civil_injective`) and, from the year 1 on, different texts
(`isoDate_inj`).
-/
import Mathlib.Data.Int.Init
import Mathlib.Order.Basic

namespace Lib

/-- The day of its cycle of 400 years. -/
def dayOfEra (n : ℤ) : ℤ := (n + 719468) % 146097

/-- The century of the cycle; the last one has the additional leap day. -/
def centuryOfEra (n : ℤ) : ℤ := min (dayOfEra n / 36524) 3

/-- The day of the century. -/
def dayOfCentury (n : ℤ) : ℤ := dayOfEra n - 36524 * centuryOfEra n

/-- The year of its four years; the last one has the leap day. -/
def yearOfFour (n : ℤ) : ℤ := min (dayOfCentury n % 1461 / 365) 3

/-- The year of the cycle, counted from March. -/
def yearOfEra (n : ℤ) : ℤ := 100 * centuryOfEra n + 4 * (dayOfCentury n / 1461) + yearOfFour n

/-- The day of the year, counted from March. -/
def dayOfYear (n : ℤ) : ℤ := dayOfCentury n % 1461 - 365 * yearOfFour n

/-- The month of the year, counted from March. -/
def monthFromMarch (n : ℤ) : ℤ := (5 * dayOfYear n + 2) / 153

/-- Year, month and day of the month of the day `n`. -/
def civil (n : ℤ) : ℤ × ℤ × ℤ :=
  let m := monthFromMarch n
  let month := if m < 10 then m + 3 else m - 9
  let year := yearOfEra n + (n + 719468) / 146097 * 400
  (if month ≤ 2 then year + 1 else year, month, dayOfYear n - (153 * m + 2) / 5 + 1)

example : civil 0 = (1970, 1, 1) ∧ civil 19782 = (2024, 2, 29) ∧ civil 19783 = (2024, 3, 1) := by
  decide

lemma dayOfEra_bounds (n : ℤ) : 0 ≤ dayOfEra n ∧ dayOfEra n < 146097 := by
  unfold dayOfEra
  omega

lemma dayOfCentury_bounds (n : ℤ) : 0 ≤ dayOfCentury n ∧ dayOfCentury n < 36525 := by
  have h := dayOfEra_bounds n
  unfold dayOfCentury centuryOfEra
  omega

lemma yearOfEra_bounds (n : ℤ) : 0 ≤ yearOfEra n ∧ yearOfEra n < 400 := by
  have h := dayOfEra_bounds n
  have h' := dayOfCentury_bounds n
  unfold yearOfEra yearOfFour centuryOfEra
  omega

lemma dayOfYear_bounds (n : ℤ) : 0 ≤ dayOfYear n ∧ dayOfYear n < 366 := by
  unfold dayOfYear yearOfFour
  omega

lemma monthFromMarch_bounds (n : ℤ) : 0 ≤ monthFromMarch n ∧ monthFromMarch n < 12 := by
  have h := dayOfYear_bounds n
  unfold monthFromMarch
  omega

lemma civil_bounds (n : ℤ) :
    (1 ≤ (civil n).2.1 ∧ (civil n).2.1 ≤ 12) ∧ 1 ≤ (civil n).2.2 ∧ (civil n).2.2 ≤ 31 := by
  have hm := monthFromMarch_bounds n
  have hd := dayOfYear_bounds n
  simp only [civil]
  refine ⟨?_, ?_⟩
  · split_ifs <;> omega
  · unfold monthFromMarch
    omega

/-- The day is found again in its date. -/
theorem civil_injective : Function.Injective civil := by
  intro n n' h
  simp only [civil, Prod.mk.injEq] at h
  obtain ⟨hyear, hmonth, hday⟩ := h
  have hm := monthFromMarch_bounds n
  have hm' := monthFromMarch_bounds n'
  have hy := yearOfEra_bounds n
  have hy' := yearOfEra_bounds n'
  -- month and cycle first, then the day of the cycle, then the day
  have hmm : monthFromMarch n = monthFromMarch n' := by
    revert hmonth
    split_ifs <;> omega
  have hyy : yearOfEra n = yearOfEra n' ∧ (n + 719468) / 146097 = (n' + 719468) / 146097 := by
    revert hyear
    rw [hmm]
    split_ifs <;> omega
  have hdd : dayOfYear n = dayOfYear n' := by
    rw [hmm] at hday
    omega
  have he : dayOfEra n = dayOfEra n' := by
    have hc := dayOfCentury_bounds n
    have hc' := dayOfCentury_bounds n'
    have hfour : 0 ≤ yearOfFour n ∧ yearOfFour n ≤ 3 := by unfold yearOfFour; omega
    have hfour' : 0 ≤ yearOfFour n' ∧ yearOfFour n' ≤ 3 := by unfold yearOfFour; omega
    have hyear := hyy.1
    unfold yearOfEra at hyear
    unfold dayOfYear at hdd
    have hcentury : dayOfEra n = dayOfCentury n + 36524 * centuryOfEra n := by
      unfold dayOfCentury
      omega
    have hcentury' : dayOfEra n' = dayOfCentury n' + 36524 * centuryOfEra n' := by
      unfold dayOfCentury
      omega
    omega
  have h₁ := Int.emod_add_mul_ediv (n + 719468) 146097
  have h₂ := Int.emod_add_mul_ediv (n' + 719468) 146097
  unfold dayOfEra at he
  omega

/-- A number below one hundred as two digits. -/
def twoDigits (n : ℕ) : List Char := [Nat.digitChar (n / 10), Nat.digitChar (n % 10)]

/-- The text `YYYY-MM-DD`; the year is not padded. -/
def isoDate (n : ℤ) : String :=
  String.ofList (Nat.toDigits 10 (civil n).1.toNat ++
    '-' :: twoDigits (civil n).2.1.toNat ++ '-' :: twoDigits (civil n).2.2.toNat)

example : isoDate 19782 = "2024-02-29" := by decide +kernel

lemma twoDigits_inj {m n : ℕ} (hm : m < 100) (hn : n < 100) (h : twoDigits m = twoDigits n) :
    m = n := by
  have hdigit : ∀ i < 10, ∀ j < 10, Nat.digitChar i = Nat.digitChar j → i = j := by decide
  simp only [twoDigits, List.cons.injEq, and_true] at h
  have h₁ := hdigit _ (by omega) _ (by omega) h.1
  have h₂ := hdigit _ (by omega) _ (by omega) h.2
  omega

lemma toDigits_inj {m n : ℕ} (h : Nat.toDigits 10 m = Nat.toDigits 10 n) : m = n := by
  rw [← Nat.ofDigitChars_ten_toDigits (n := m), h, Nat.ofDigitChars_ten_toDigits]

/-- From the year 1 on, different days have different texts. -/
theorem isoDate_inj {n n' : ℤ} (hn : 0 ≤ (civil n).1) (hn' : 0 ≤ (civil n').1) :
    isoDate n = isoDate n' ↔ n = n' := by
  refine ⟨fun h => civil_injective ?_, fun h => h ▸ rfl⟩
  have hb := civil_bounds n
  have hb' := civil_bounds n'
  simp only [isoDate, String.ofList_inj, List.append_assoc, List.cons_append] at h
  -- month and day have a fixed width, so the texts agree part by part
  obtain ⟨hyear, htail⟩ := List.append_inj' h (by simp [twoDigits])
  obtain ⟨hmonth, htail⟩ := List.append_inj' (List.cons.inj htail).2 (by simp [twoDigits])
  have hy := toDigits_inj hyear
  have hm := twoDigits_inj (by omega) (by omega) hmonth
  have hd := twoDigits_inj (by omega) (by omega) (List.cons.inj htail).2
  refine Prod.ext (by omega) (Prod.ext (by omega) (by omega))

end Lib
