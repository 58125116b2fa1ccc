/-
Bisection, and lists that agree on a selection.

`bisectRight` is the halving loop that finds where the entries beyond `t` begin in a sorted list.
On a sorted list it counts the entries that are at most `t` (`bisectRight_eq`), so that the entry in
front of the place it finds is the last one of the past of `t` (`getLast?_past`).  `bisectLeft` finds
where the entries from `t` on begin, and between the two lies a range (`drop_take_bisect`).

Two lists agree on a predicate when the entries it selects are the same, in the same order.
Narrowing the selection, rewriting the entries and sorting them keeps that.
-/
import Evosport.Lib.StableSort
import Mathlib.Data.List.Basic

namespace Lib

variable {α β γ : Type*} [LinearOrder β]

/-! ## Bisection -/

/-- Halve the range `lo ≤ i < hi` until it is empty. -/
def bisectLoop (l : List β) (t : β) (lo hi : ℕ) (hhi : hi ≤ l.length) : ℕ :=
  if h : lo < hi then
    if t < l[(lo + hi) / 2] then bisectLoop l t lo ((lo + hi) / 2) (by omega)
    else bisectLoop l t ((lo + hi) / 2 + 1) hi hhi
  else lo
termination_by hi - lo
decreasing_by all_goals omega

/-- Where an entry `t` goes in a sorted list, behind its equals. -/
def bisectRight (l : List β) (t : β) : ℕ := bisectLoop l t 0 l.length le_rfl

/-- The past of `t` is the first part of a sorted list. -/
lemma getElem_le_iff {l : List β} (hl : l.Pairwise (· ≤ ·)) (t : β) {i : ℕ} (hi : i < l.length) :
    l[i] ≤ t ↔ i < (l.filter (· ≤ t)).length := by
  have hsplit : l = l.filter (· ≤ t) ++ l.filter (t < ·) := @split_of_pairwise _ _ _ id t l hl
  constructor
  · intro hle
    by_contra hge
    have hget : l[i]? = (l.filter (t < ·))[i - (l.filter (· ≤ t)).length]? := by
      conv_lhs => rw [hsplit]
      rw [List.getElem?_append_right (by omega)]
    rw [List.getElem?_eq_getElem hi] at hget
    have hmem : l[i] ∈ l.filter (t < ·) := List.mem_of_getElem? hget.symm
    have hlt : t < l[i] := by simpa using (List.mem_filter.1 hmem).2
    exact absurd hle (not_le.2 hlt)
  · intro hlt
    have hget : l[i]? = (l.filter (· ≤ t))[i]? := by
      conv_lhs => rw [hsplit]
      rw [List.getElem?_append_left hlt]
    rw [List.getElem?_eq_getElem hi] at hget
    have hmem : l[i] ∈ l.filter (· ≤ t) := List.mem_of_getElem? hget.symm
    simpa using (List.mem_filter.1 hmem).2

/-- The loop finds the end of the past of `t` as long as that lies in its range. -/
lemma bisectLoop_eq {l : List β} (hl : l.Pairwise (· ≤ ·)) (t : β) (lo hi : ℕ)
    (hhi : hi ≤ l.length) (hlo : lo ≤ (l.filter (· ≤ t)).length)
    (hk : (l.filter (· ≤ t)).length ≤ hi) :
    bisectLoop l t lo hi hhi = (l.filter (· ≤ t)).length := by
  induction lo, hi, hhi using bisectLoop.induct (l := l) (t := t) with
  | case1 lo hi hhi h hlt ih =>
    rw [bisectLoop, dif_pos h, if_pos hlt]
    refine ih hlo ?_
    by_contra hge
    exact absurd ((getElem_le_iff hl t (by omega)).2 (by omega)) (not_le.2 hlt)
  | case2 lo hi hhi h hge ih =>
    rw [bisectLoop, dif_pos h, if_neg hge]
    exact ih ((getElem_le_iff hl t (by omega)).1 (not_lt.1 hge)) hk
  | case3 lo hi hhi h =>
    rw [bisectLoop, dif_neg h]
    omega

lemma bisectRight_eq {l : List β} (hl : l.Pairwise (· ≤ ·)) (t : β) :
    bisectRight l t = (l.filter (· ≤ t)).length :=
  bisectLoop_eq hl t 0 l.length le_rfl (Nat.zero_le _) (List.length_filter_le _ _)

/-- The entry in front of the place is the last one of the past, if there is one. -/
lemma getLast?_past {key : α → β} {l : List α} (hl : l.Pairwise (KeyLe key)) (t : β) :
    (l.filter (key · ≤ t)).getLast? =
      if bisectRight (l.map key) t = 0 then none else l[bisectRight (l.map key) t - 1]? := by
  have hkeys : (l.map key).Pairwise (· ≤ ·) := List.pairwise_map.2 hl
  have hcount : bisectRight (l.map key) t = (l.filter (key · ≤ t)).length := by
    rw [bisectRight_eq hkeys, List.filter_map, List.length_map]
    rfl
  rw [hcount]
  split
  case isTrue h0 => rw [List.length_eq_zero_iff.1 h0, List.getLast?_nil]
  case isFalse h0 =>
    have hget : l[(l.filter (key · ≤ t)).length - 1]? =
        (l.filter (key · ≤ t) ++ l.filter (t < key ·))[(l.filter (key · ≤ t)).length - 1]? :=
      congrArg (·[(l.filter (key · ≤ t)).length - 1]?) (split_of_pairwise t hl)
    rw [hget, List.getElem?_append_left (by omega), List.getLast?_eq_getElem?]

/-- Halve the range `lo ≤ i < hi` until it is empty. -/
def bisectLeftLoop (l : List β) (t : β) (lo hi : ℕ) (hhi : hi ≤ l.length) : ℕ :=
  if h : lo < hi then
    if l[(lo + hi) / 2] < t then bisectLeftLoop l t ((lo + hi) / 2 + 1) hi hhi
    else bisectLeftLoop l t lo ((lo + hi) / 2) (by omega)
  else lo
termination_by hi - lo
decreasing_by all_goals omega

/-- Where an entry `t` goes in a sorted list, in front of its equals. -/
def bisectLeft (l : List β) (t : β) : ℕ := bisectLeftLoop l t 0 l.length le_rfl

/-- A sorted list is its part in front of `t`, followed by the rest. -/
lemma split_lt_of_pairwise {key : α → β} (t : β) {l : List α} (hl : l.Pairwise (KeyLe key)) :
    l = l.filter (fun a => key a < t) ++ l.filter fun a => t ≤ key a := by
  induction l with
  | nil => rfl
  | cons a l ih =>
    obtain ⟨ha, hl⟩ := List.pairwise_cons.1 hl
    by_cases hat : key a < t
    · rw [List.filter_cons_of_pos (by simpa using hat), List.filter_cons_of_neg (by simpa using hat),
        List.cons_append, ← ih hl]
    · have hrest : ∀ b ∈ a :: l, t ≤ key b := by
        intro b hb
        rcases List.mem_cons.1 hb with rfl | hb
        · exact not_lt.1 hat
        · exact (not_lt.1 hat).trans (ha b hb)
      have hnone : (a :: l).filter (fun a => key a < t) = [] :=
        List.filter_eq_nil_iff.2 fun b hb => by simpa using hrest b hb
      have hall : (a :: l).filter (fun a => t ≤ key a) = a :: l :=
        List.filter_eq_self.2 fun b hb => by simpa using hrest b hb
      rw [hnone, hall, List.nil_append]

/-- What is in front of `t` is the first part of a sorted list. -/
lemma getElem_lt_iff {l : List β} (hl : l.Pairwise (· ≤ ·)) (t : β) {i : ℕ} (hi : i < l.length) :
    l[i] < t ↔ i < (l.filter (· < t)).length := by
  have hsplit : l = l.filter (· < t) ++ l.filter (t ≤ ·) :=
    @split_lt_of_pairwise _ _ _ id t l hl
  constructor
  · intro hlt
    by_contra hge
    have hget : l[i]? = (l.filter (t ≤ ·))[i - (l.filter (· < t)).length]? := by
      conv_lhs => rw [hsplit]
      rw [List.getElem?_append_right (by omega)]
    rw [List.getElem?_eq_getElem hi] at hget
    have hmem : l[i] ∈ l.filter (t ≤ ·) := List.mem_of_getElem? hget.symm
    have hle : t ≤ l[i] := by simpa using (List.mem_filter.1 hmem).2
    exact absurd hlt (not_lt.2 hle)
  · intro hlt
    have hget : l[i]? = (l.filter (· < t))[i]? := by
      conv_lhs => rw [hsplit]
      rw [List.getElem?_append_left hlt]
    rw [List.getElem?_eq_getElem hi] at hget
    have hmem : l[i] ∈ l.filter (· < t) := List.mem_of_getElem? hget.symm
    simpa using (List.mem_filter.1 hmem).2

/-- The loop finds the end of what is in front of `t` as long as that lies in its range. -/
lemma bisectLeftLoop_eq {l : List β} (hl : l.Pairwise (· ≤ ·)) (t : β) (lo hi : ℕ)
    (hhi : hi ≤ l.length) (hlo : lo ≤ (l.filter (· < t)).length)
    (hk : (l.filter (· < t)).length ≤ hi) :
    bisectLeftLoop l t lo hi hhi = (l.filter (· < t)).length := by
  induction lo, hi, hhi using bisectLeftLoop.induct (l := l) (t := t) with
  | case1 lo hi hhi h hlt ih =>
    rw [bisectLeftLoop, dif_pos h, if_pos hlt]
    exact ih ((getElem_lt_iff hl t (by omega)).1 hlt) hk
  | case2 lo hi hhi h hge ih =>
    rw [bisectLeftLoop, dif_pos h, if_neg hge]
    refine ih hlo ?_
    by_contra hgt
    exact hge ((getElem_lt_iff hl t (by omega)).2 (by omega))
  | case3 lo hi hhi h =>
    rw [bisectLeftLoop, dif_neg h]
    omega

lemma bisectLeft_eq {l : List β} (hl : l.Pairwise (· ≤ ·)) (t : β) :
    bisectLeft l t = (l.filter (· < t)).length :=
  bisectLeftLoop_eq hl t 0 l.length le_rfl (Nat.zero_le _) (List.length_filter_le _ _)

/-- Between the two places of a range lies what is in the range. -/
lemma drop_take_bisect {key : α → β} {l : List α} (hl : l.Pairwise (KeyLe key)) (t t' : β) :
    (l.take (bisectRight (l.map key) t')).drop (bisectLeft (l.map key) t) =
      l.filter fun a => t ≤ key a ∧ key a ≤ t' := by
  have hkeys : (l.map key).Pairwise (· ≤ ·) := List.pairwise_map.2 hl
  have htake : l.take (bisectRight (l.map key) t') = l.filter (key · ≤ t') := by
    have hplace : bisectRight (l.map key) t' = (l.filter (key · ≤ t')).length := by
      rw [bisectRight_eq hkeys, List.filter_map, List.length_map]
      rfl
    rw [hplace]
    conv_lhs => arg 2; rw [split_of_pairwise t' hl]
    exact List.take_left
  have hpast : (l.filter (key · ≤ t')).Pairwise (KeyLe key) := hl.filter _
  have hcount : ((l.map key).filter (· < t)).length = (l.filter (key · < t)).length := by
    rw [List.filter_map, List.length_map]
    rfl
  rw [htake, bisectLeft_eq hkeys, hcount]
  rcases le_or_gt t t' with htt | htt
  · have hfront : l.filter (key · < t) = (l.filter (key · ≤ t')).filter (key · < t) := by
      rw [List.filter_filter]
      refine List.filter_congr fun a _ => ?_
      by_cases ha : key a < t
      · simp [ha, ha.le.trans htt]
      · simp [ha]
    rw [hfront]
    conv_lhs => arg 2; rw [split_lt_of_pairwise t hpast]
    rw [List.drop_left, List.filter_filter]
    exact List.filter_congr fun a _ => by simp
  · have hlong : (l.filter (key · ≤ t')).length ≤ (l.filter (key · < t)).length := by
      rw [← List.countP_eq_length_filter, ← List.countP_eq_length_filter]
      refine List.countP_mono_left fun a _ ha => ?_
      exact decide_eq_true ((of_decide_eq_true ha).trans_lt htt)
    rw [List.drop_of_length_le hlong]
    symm
    refine List.filter_eq_nil_iff.2 fun a _ ha => ?_
    obtain ⟨h, h'⟩ := of_decide_eq_true ha
    exact absurd (h.trans h') (not_le.2 htt)

/-! ## Lists that agree on a selection -/

/-- The entries that `p` selects are the same, in the same order. -/
def AgreeOn (p : α → Bool) (l l' : List α) : Prop := l.filter p = l'.filter p

namespace AgreeOn

variable {p q : α → Bool} {l l' : List α}

/-- A narrower selection agrees. -/
lemma mono (h : AgreeOn p l l') (hqp : ∀ a, q a = true → p a = true) : AgreeOn q l l' := by
  have hnarrow : ∀ m : List α, m.filter q = (m.filter p).filter q := by
    intro m
    rw [List.filter_filter]
    refine List.filter_congr fun a _ => ?_
    cases hq : q a
    · simp
    · simp [hqp a hq]
  show l.filter q = l'.filter q
  rw [hnarrow l, hnarrow l', h]

/-- Entries rewritten one by one agree where the originals do. -/
lemma filterMap (h : AgreeOn p l l') {f : α → Option γ} {q : γ → Bool}
    (hf : ∀ a c, f a = some c → q c = p a) : AgreeOn q (l.filterMap f) (l'.filterMap f) := by
  have hcomm : ∀ m : List α, (m.filterMap f).filter q = (m.filter p).filterMap f := by
    intro m
    induction m with
    | nil => rfl
    | cons a m ih =>
      cases hfa : f a with
      | none => cases hp : p a <;> simp [hfa, hp, ih]
      | some c =>
        have hq := hf a c hfa
        cases hp : p a <;> simp [hfa, hp, hq, ih]
  show (l.filterMap f).filter q = (l'.filterMap f).filter q
  rw [hcomm l, hcomm l', h]

/-- Sorting keeps agreement. -/
lemma sort (h : AgreeOn p l l') (key : α → β) :
    AgreeOn p (sortByKey key l) (sortByKey key l') := by
  show (sortByKey key l).filter p = (sortByKey key l').filter p
  rw [filter_sortByKey, filter_sortByKey, h]

end AgreeOn

end Lib
