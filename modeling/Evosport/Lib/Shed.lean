/-
Shedding the front of a list until an excess is made up.

`shed size excess l` is the shortest prefix of `l` whose sizes make up the excess, or all of `l`.  A
loop that goes over a list, skips some items and takes the others while a measure of its state is
above zero takes what is shed of the items it does not skip (`foldl_shed`).
-/
import Mathlib.Data.List.Basic
import Mathlib.Algebra.Order.Group.Int
import Mathlib.Algebra.BigOperators.Group.List.Basic

namespace Lib

variable {α σ : Type*}

/-- The shortest prefix of a list that makes up an excess. -/
def shed (size : α → ℤ) (excess : ℤ) : List α → List α
  | [] => []
  | a :: l => if excess ≤ 0 then [] else a :: shed size (excess - size a) l

section Shed

variable {size : α → ℤ} {excess : ℤ}

lemma shed_of_nonpos (h : excess ≤ 0) (l : List α) : shed size excess l = [] := by
  cases l with
  | nil => rfl
  | cons a l => exact if_pos h

/-- Shedding takes items from the front. -/
lemma shed_isPrefix (excess : ℤ) (l : List α) : shed size excess l <+: l := by
  induction l generalizing excess with
  | nil => exact List.prefix_rfl
  | cons a l ih =>
    rw [shed]
    split
    · exact List.nil_prefix
    · exact (List.prefix_cons_inj a).2 (ih _)

/-- A loop that takes what it does not skip, while its measure is above zero. -/
lemma foldl_shed (size : α → ℤ) (step act : σ → α → σ) (measure : σ → ℤ) (skip : α → Bool)
    (hdone : ∀ s a, measure s ≤ 0 → step s a = s)
    (hskip : ∀ s a, skip a = true → step s a = s)
    (hact : ∀ s a, 0 < measure s → skip a = false → step s a = act s a)
    (hmeasure : ∀ s a, measure (act s a) = measure s - size a) (s : σ) (l : List α) :
    l.foldl step s = (shed size (measure s) (l.filter fun a => !skip a)).foldl act s := by
  induction l generalizing s with
  | nil => rfl
  | cons a l ih =>
    rw [List.foldl_cons]
    by_cases hs : measure s ≤ 0
    · rw [hdone s a hs, ih, shed_of_nonpos hs, shed_of_nonpos hs]
    · cases ha : skip a with
      | true => rw [hskip s a ha, ih, List.filter_cons_of_neg (by simp [ha])]
      | false =>
        rw [hact s a (not_le.1 hs) ha, ih, List.filter_cons_of_pos (by simp [ha]), shed, if_neg hs,
          List.foldl_cons, hmeasure]

end Shed

end Lib
