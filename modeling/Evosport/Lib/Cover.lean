/-
Covering an interval by finitely many closed intervals.

In a dense order the closed intervals `xs` contain every point of `[a, b]` if and only if no point
from `a` up to `b` is the right end of what is covered, `GapFree xs a b`.  That condition compares
end points only, so it may be checked at the end points (`gapFree_iff_ends`) and carries over to any
order in which they compare the same way (`gapFree_map`).
-/
import Mathlib.Data.Finset.Max
import Mathlib.Order.Interval.Set.Basic

namespace Lib

section
variable {α β : Type*} [LinearOrder α] [LinearOrder β] {xs : List (α × α)} {a b c : α}

/-- From `a` on, before `b`, every point lies in an interval that goes on to its right. -/
def GapFree (xs : List (α × α)) (a b : α) : Prop :=
  ∀ c, a ≤ c → c < b → ∃ I ∈ xs, I.1 ≤ c ∧ c < I.2

/-- The order of the intervals does not matter. -/
lemma gapFree_congr {ys : List (α × α)} (h : ∀ I, I ∈ xs ↔ I ∈ ys) :
    GapFree xs a b ↔ GapFree ys a b := by
  simp only [GapFree, h]

/-- The last of the points that satisfy `p`. -/
lemma exists_last (p : α → Prop) (ys : List α) (ha : p a) :
    ∃ m ∈ a :: ys, p m ∧ ∀ y ∈ a :: ys, p y → y ≤ m := by
  classical
  obtain ⟨m, hm, hlast⟩ := Finset.exists_max_image ((a :: ys).toFinset.filter p) id
    ⟨a, by simp [ha]⟩
  rw [Finset.mem_filter, List.mem_toFinset] at hm
  exact ⟨m, hm.1, hm.2, fun y hy hpy => hlast y (by simpa using ⟨by simpa using hy, hpy⟩)⟩

/-- The first of the points that satisfy `p`. -/
lemma exists_first (p : α → Prop) (ys : List α) (ha : p a) :
    ∃ m ∈ a :: ys, p m ∧ ∀ y ∈ a :: ys, p y → m ≤ y :=
  @exists_last αᵒᵈ _ a p ys ha

/-- A gap begins at an end point. -/
lemma gapFree_iff_ends : GapFree xs a b ↔
    ∀ c ∈ a :: xs.map Prod.snd, a ≤ c → c < b → ∃ I ∈ xs, I.1 ≤ c ∧ c < I.2 := by
  refine ⟨fun h c _ => h c, fun h c hac hcb => ?_⟩
  obtain ⟨m, hm, hmc, hlast⟩ := exists_last (fun x => x ≤ c) (xs.map Prod.snd) hac
  have ham : a ≤ m := hlast a List.mem_cons_self hac
  obtain ⟨I, hI, hIm, hmI⟩ := h m hm ham (hmc.trans_lt hcb)
  -- the interval that covers the last end before `c` does not end before `c`
  refine ⟨I, hI, hIm.trans hmc, not_le.1 fun hIc => ?_⟩
  exact absurd (hlast I.2 (List.mem_cons_of_mem a (List.mem_map_of_mem hI)) hIc) (not_le.2 hmI)

/-- The end points of the intervals and of what is to be covered. -/
def endPoints (xs : List (α × α)) (a b : α) : List α :=
  a :: b :: xs.flatMap fun I => [I.1, I.2]

omit [LinearOrder α] in
lemma mem_endPoints : c ∈ endPoints xs a b ↔ c = a ∨ c = b ∨ ∃ I ∈ xs, c = I.1 ∨ c = I.2 := by
  simp [endPoints]

/-- The condition is about the order of the end points only. -/
lemma gapFree_map {f : α → β}
    (hf : ∀ x ∈ endPoints xs a b, ∀ y ∈ endPoints xs a b, f x ≤ f y ↔ x ≤ y) :
    GapFree (xs.map fun I => (f I.1, f I.2)) (f a) (f b) ↔ GapFree xs a b := by
  have hlt : ∀ x ∈ endPoints xs a b, ∀ y ∈ endPoints xs a b, f x < f y ↔ x < y := by
    intro x hx y hy
    rw [← not_le, ← not_le, hf y hy x hx]
  have ha : a ∈ endPoints xs a b := mem_endPoints.2 (.inl rfl)
  have hb : b ∈ endPoints xs a b := mem_endPoints.2 (.inr (.inl rfl))
  have hstart : ∀ I ∈ xs, I.1 ∈ endPoints xs a b := fun I hI =>
    mem_endPoints.2 (.inr (.inr ⟨I, hI, .inl rfl⟩))
  have hstop : ∀ I ∈ xs, I.2 ∈ endPoints xs a b := fun I hI =>
    mem_endPoints.2 (.inr (.inr ⟨I, hI, .inr rfl⟩))
  -- at each end point the two conditions are the same
  have hat : ∀ c ∈ endPoints xs a b,
      (f a ≤ f c → f c < f b → ∃ I ∈ xs, f I.1 ≤ f c ∧ f c < f I.2) ↔
        (a ≤ c → c < b → ∃ I ∈ xs, I.1 ≤ c ∧ c < I.2) := by
    intro c hc
    rw [hf a ha c hc, hlt c hc b hb]
    refine imp_congr_right fun _ => imp_congr_right fun _ => exists_congr fun I => ?_
    refine and_congr_right fun hI => ?_
    rw [hf I.1 (hstart I hI) c hc, hlt c hc I.2 (hstop I hI)]
  have hmap : ∀ c, (∃ J ∈ xs.map fun I => (f I.1, f I.2), J.1 ≤ c ∧ c < J.2) ↔
      ∃ I ∈ xs, f I.1 ≤ c ∧ c < f I.2 := fun c => by simp
  rw [gapFree_iff_ends, gapFree_iff_ends]
  simp only [hmap, List.forall_mem_cons, List.forall_mem_map]
  refine and_congr (hat a ha) (forall_congr' fun I => forall_congr' fun hI => ?_)
  exact hat I.2 (hstop I hI)

/-- Finitely many closed intervals contain every point of `[a, b]` if and only if no point before
`b` is the right end of what they cover. -/
theorem covers_iff_gapFree [DenselyOrdered α] (hab : a < b) :
    (∀ t ∈ Set.Icc a b, ∃ I ∈ xs, t ∈ Set.Icc I.1 I.2) ↔ GapFree xs a b := by
  constructor
  · intro hcover c hac hcb
    obtain ⟨u, hu, hcu, hfirst⟩ := exists_first (fun x => c < x) (xs.map Prod.fst) hcb
    obtain ⟨t, hct, htu⟩ := exists_between hcu
    -- what covers a point just after `c` has begun at `c`
    obtain ⟨I, hI, hIt, htI⟩ := hcover t
      ⟨hac.trans hct.le, htu.le.trans (hfirst b List.mem_cons_self hcb)⟩
    refine ⟨I, hI, not_lt.1 fun hcI => ?_, hct.trans_le htI⟩
    have huI := hfirst I.1 (List.mem_cons_of_mem b (List.mem_map_of_mem hI)) hcI
    exact absurd (htu.trans_le (huI.trans hIt)) (lt_irrefl t)
  · intro hgap t ht
    rcases ht.2.lt_or_eq with htb | rfl
    · obtain ⟨I, hI, hIt, htI⟩ := hgap t ht.1 htb
      exact ⟨I, hI, hIt, htI.le⟩
    · -- what covers the last end before `b` reaches `b`
      obtain ⟨m, hm, hmb, hlast⟩ := exists_last (fun x => x < t) (xs.map Prod.snd) hab
      obtain ⟨I, hI, hIm, hmI⟩ := hgap m (hlast a List.mem_cons_self hab) hmb
      refine ⟨I, hI, (hIm.trans_lt hmb).le, not_lt.1 fun hIt => ?_⟩
      have hIle := hlast I.2 (List.mem_cons_of_mem a (List.mem_map_of_mem hI)) hIt
      exact absurd hIle (not_le.2 hmI)

end

end Lib
