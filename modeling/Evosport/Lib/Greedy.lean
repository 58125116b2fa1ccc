/-
Greedy selections under disjoint quotas.

A greedy pass goes through the candidates in a given order and keeps each one that the choices
before it still leave room for, as a predicate `ok` on selections tells.  A candidate is not looked
at again.  Where `ok` says that no group of candidates is above its quota, and no candidate is in
two groups, the pass needs not be run to know what it keeps: of each group the first candidates, as
many as its quota has room for, and every candidate in no group (`Quotas.greedy_iff`).  What it
leaves out is in a group that is full (`Quotas.full_of_left`).
-/
import Mathlib.Algebra.Order.Ring.Defs
import Mathlib.Data.List.Nodup
import Mathlib.Data.List.TakeWhile
import Mathlib.Data.Nat.Cast.Order.Ring
import Mathlib.Logic.Function.Basic
import Mathlib.Tactic.Linarith

namespace Lib

variable {ι : Type*} [DecidableEq ι]

section Pass

variable (ok : (ι → Bool) → Prop) [DecidablePred ok]

/-- Decide on one candidate. -/
def decideOn (z : ι → Bool) (j : ι) : ι → Bool :=
  if ok (Function.update z j true) then Function.update z j true else Function.update z j false

/-- Decide on the candidates in order. -/
def greedy (order : List ι) (start : ι → Bool) : ι → Bool := order.foldl (decideOn ok) start

variable {ok} {order : List ι} {start z : ι → Bool} {i j : ι}

lemma decideOn_of_ok (h : ok (Function.update z j true)) :
    decideOn ok z j = Function.update z j true :=
  if_pos h

lemma decideOn_of_not_ok (h : ¬ ok (Function.update z j true)) (hj : z j = false) :
    decideOn ok z j = z := by
  rw [decideOn, if_neg h, ← hj, Function.update_eq_self]

lemma decideOn_of_ne (h : i ≠ j) : decideOn ok z j i = z i := by
  unfold decideOn
  split
  · exact Function.update_of_ne h _ _
  · exact Function.update_of_ne h _ _

lemma decideOn_off (hi : i ∉ order) (hoff : ∀ j ∈ order, start j = false) :
    ∀ j ∈ order, decideOn ok start i j = false := by
  intro j hj
  rw [decideOn_of_ne (by rintro rfl; exact hi hj)]
  exact hoff j hj

/-- Candidates out of the order stay as they are. -/
lemma greedy_of_notMem (h : i ∉ order) : greedy ok order start i = start i := by
  induction order generalizing start with
  | nil => rfl
  | cons j order ih =>
    rw [List.mem_cons, not_or] at h
    rw [greedy, List.foldl_cons]
    exact (ih h.2).trans (decideOn_of_ne h.1)

end Pass

/-- Groups of candidates with quotas.  A candidate adds one to the load of its group, and groups
that share a candidate are the same. -/
structure Quotas (ι γ R : Type*) [DecidableEq ι] [CommRing R] where
  member : γ → ι → Bool
  load : γ → (ι → Bool) → R
  quota : γ → R
  load_update : ∀ g z j, z j = false →
    load g (Function.update z j true) = load g z + if member g j then 1 else 0
  disjoint : ∀ g g' j, member g j = true → member g' j = true → g = g'

namespace Quotas

variable {γ R : Type*} [CommRing R] [LinearOrder R] [IsStrictOrderedRing R] (Q : Quotas ι γ R)

/-- No group is above its quota. -/
def Ok (z : ι → Bool) : Prop := ∀ g, Q.load g z ≤ Q.quota g

/-- How many candidates of a group come before one in an order. -/
def before (g : γ) (order : List ι) (j : ι) : ℕ :=
  (order.takeWhile fun i => i ≠ j).countP (Q.member g)

variable {Q} {ok : (ι → Bool) → Prop} [DecidablePred ok] {order : List ι} {start z : ι → Bool}
  {i j : ι} {g : γ}

omit [LinearOrder R] [IsStrictOrderedRing R] in
lemma before_cons_self : Q.before g (j :: order) j = 0 := by
  simp [before]

omit [LinearOrder R] [IsStrictOrderedRing R] in
lemma before_cons_of_ne (h : i ≠ j) :
    Q.before g (i :: order) j = Q.before g order j + if Q.member g i then 1 else 0 := by
  rw [before, List.takeWhile_cons_of_pos (by simpa using h), List.countP_cons, before]

omit [LinearOrder R] [IsStrictOrderedRing R] in
lemma load_update_of_not_member (hz : z j = false) (hg : Q.member g j = false) :
    Q.load g (Function.update z j true) = Q.load g z := by
  simp [Q.load_update g z j hz, hg]

omit [LinearOrder R] [IsStrictOrderedRing R] in
lemma load_update_of_member (hz : z j = false) (hg : Q.member g j = true) :
    Q.load g (Function.update z j true) = Q.load g z + 1 := by
  simp [Q.load_update g z j hz, hg]

omit [IsStrictOrderedRing R] [DecidablePred ok] in
/-- There is room for a candidate exactly if its group has room for one more. -/
lemma ok_update_iff (hok : ∀ z, ok z ↔ Q.Ok z) (hz : ok z) (hj : z j = false) :
    ok (Function.update z j true) ↔ ∀ g, Q.member g j = true → Q.load g z + 1 ≤ Q.quota g := by
  rw [hok]
  refine forall_congr' fun g => ?_
  cases hg : Q.member g j with
  | true => simp [load_update_of_member hj hg]
  | false => simpa [load_update_of_not_member hj hg] using (hok z).1 hz g

omit [LinearOrder R] [IsStrictOrderedRing R] [CommRing R] in
lemma ok_decideOn (hz : ok z) (hj : z j = false) : ok (decideOn ok z j) := by
  by_cases h : ok (Function.update z j true)
  · rwa [decideOn_of_ok h]
  · rwa [decideOn_of_not_ok h hj]

/-- The pass keeps within the quotas. -/
lemma ok_greedy (hnodup : order.Nodup) (hoff : ∀ j ∈ order, start j = false) (hstart : ok start) :
    ok (greedy ok order start) := by
  induction order generalizing start with
  | nil => exact hstart
  | cons i order ih =>
    obtain ⟨hi, hnodup⟩ := List.nodup_cons.1 hnodup
    obtain ⟨hioff, hoff⟩ := List.forall_mem_cons.1 hoff
    exact ih hnodup (decideOn_off hi hoff) (ok_decideOn hstart hioff)

/-- The load of a group never falls. -/
lemma load_le_greedy (hnodup : order.Nodup) (hoff : ∀ j ∈ order, start j = false) (g : γ) :
    Q.load g start ≤ Q.load g (greedy ok order start) := by
  induction order generalizing start with
  | nil => exact le_rfl
  | cons i order ih =>
    obtain ⟨hi, hnodup⟩ := List.nodup_cons.1 hnodup
    obtain ⟨hioff, hoff⟩ := List.forall_mem_cons.1 hoff
    refine le_trans ?_ (ih hnodup (decideOn_off hi hoff))
    by_cases h : ok (Function.update start i true)
    · rw [decideOn_of_ok h, Q.load_update g start i hioff]
      split <;> simp
    · rw [decideOn_of_not_ok h hioff]

/-- A candidate that the pass leaves out is in a group that is full at the end. -/
lemma full_of_left (hok : ∀ z, ok z ↔ Q.Ok z) (hnodup : order.Nodup)
    (hoff : ∀ j ∈ order, start j = false) (hstart : ok start) (hj : j ∈ order)
    (hleft : greedy ok order start j = false) :
    ∃ g, Q.member g j = true ∧ Q.quota g < Q.load g (greedy ok order start) + 1 := by
  induction order generalizing start with
  | nil => cases hj
  | cons i order ih =>
    have hall : ∀ g, Q.load g start ≤ Q.load g (greedy ok (i :: order) start) :=
      load_le_greedy hnodup hoff
    obtain ⟨hi, hnodup'⟩ := List.nodup_cons.1 hnodup
    obtain ⟨hioff, hoff'⟩ := List.forall_mem_cons.1 hoff
    rcases List.mem_cons.1 hj with rfl | hmem
    · -- the candidate is decided on first, and what was full then stays so
      have hnotok : ¬ ok (Function.update start j true) := by
        intro h
        rw [greedy, List.foldl_cons, decideOn_of_ok h] at hleft
        have hkept := (greedy_of_notMem hi).symm.trans hleft
        rw [Function.update_self] at hkept
        cases hkept
      rw [ok_update_iff hok hstart hioff] at hnotok
      push Not at hnotok
      obtain ⟨g, hg, hfull⟩ := hnotok
      have hgrown := hall g
      exact ⟨g, hg, by linarith⟩
    · exact ih hnodup' (decideOn_off hi hoff') (ok_decideOn hstart hioff) hmem hleft

/-- The pass keeps a candidate exactly if its group has room for those that come before it and for
the candidate. -/
theorem greedy_iff (hok : ∀ z, ok z ↔ Q.Ok z) (hnodup : order.Nodup)
    (hoff : ∀ j ∈ order, start j = false) (hstart : ok start) (hj : j ∈ order) :
    greedy ok order start j = true ↔
      ∀ g, Q.member g j = true → Q.load g start + Q.before g order j + 1 ≤ Q.quota g := by
  induction order generalizing start with
  | nil => cases hj
  | cons i order ih =>
    obtain ⟨hi, hnodup'⟩ := List.nodup_cons.1 hnodup
    obtain ⟨hioff, hoff'⟩ := List.forall_mem_cons.1 hoff
    have hroom := ok_update_iff hok hstart hioff
    rcases List.mem_cons.1 hj with rfl | hmem
    · rw [greedy, List.foldl_cons, ← greedy, greedy_of_notMem hi]
      simp only [before_cons_self, Nat.cast_zero, add_zero, ← hroom]
      by_cases h : ok (Function.update start j true)
      · simp [decideOn_of_ok h, h]
      · simp [decideOn_of_not_ok h hioff, h, hioff]
    · have hne : i ≠ j := fun hij => hi (hij ▸ hmem)
      refine (ih hnodup' (decideOn_off hi hoff') (ok_decideOn hstart hioff) hmem).trans ?_
      refine forall₂_congr fun g hg => ?_
      rw [before_cons_of_ne hne]
      by_cases h : ok (Function.update start i true)
      · -- what is kept counts in the load now, and among those before it at first
        rw [decideOn_of_ok h, Q.load_update g start i hioff]
        cases Q.member g i <;> simp [add_assoc, add_comm, add_left_comm]
      · -- what is left out has filled the group, if it is the same one
        rw [decideOn_of_not_ok h hioff]
        cases hgi : Q.member g i with
        | false => simp
        | true =>
          rw [hroom] at h
          push Not at h
          obtain ⟨g', hg', hfull⟩ := h
          obtain rfl := Q.disjoint g g' i hgi hg'
          have hbefore : (0 : R) ≤ Q.before g order j := Nat.cast_nonneg _
          simp only [if_true, Nat.cast_add, Nat.cast_one]
          constructor
          · intro hle
            linarith
          · intro hle
            linarith

end Quotas

end Lib
