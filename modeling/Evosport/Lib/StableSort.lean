/-
Sorting by a key is stable.

Insertion sort leaves entries with equal keys in the order in which they came.  Two
consequences are used: sorting commutes with filtering (`filter_insertionSort`), and the part
of a sorted list up to some key is the sorted list of the entries up to that key
(`insertionSort_split`), so that it does not depend on the entries beyond.
-/
import Mathlib.Data.List.Sort
import Mathlib.Order.Defs.LinearOrder

namespace Lib

variable {α β : Type*} [LinearOrder β] (key : α → β)

/-- The order of the keys. -/
def KeyLe (a b : α) : Prop := key a ≤ key b

instance : DecidableRel (KeyLe key) := fun a b => inferInstanceAs (Decidable (key a ≤ key b))

instance : Std.Total (KeyLe key) := ⟨fun a b => le_total (key a) (key b)⟩

instance : IsTrans α (KeyLe key) := ⟨fun _ _ _ h h' => le_trans h h'⟩

/-- Sort by a key, entries with equal keys staying in their order. -/
def sortByKey (l : List α) : List α := l.insertionSort (KeyLe key)

variable {key}

lemma mem_sortByKey {l : List α} {a : α} : a ∈ sortByKey key l ↔ a ∈ l :=
  List.mem_insertionSort (KeyLe key)

lemma pairwise_sortByKey (l : List α) : (sortByKey key l).Pairwise (KeyLe key) :=
  List.pairwise_insertionSort (KeyLe key) l

variable (key) in
lemma perm_sortByKey (l : List α) : (sortByKey key l).Perm l :=
  List.perm_insertionSort (KeyLe key) l

/-- Sorting a sorted list changes nothing. -/
lemma sortByKey_sortByKey (l : List α) : sortByKey key (sortByKey key l) = sortByKey key l :=
  (pairwise_sortByKey l).insertionSort_eq

variable (key) in
/-- Sorting commutes with a map that keeps the keys. -/
lemma map_sortByKey {γ : Type*} (key' : γ → β) (g : α → γ) (h : ∀ a, key' (g a) = key a)
    (l : List α) : (sortByKey key l).map g = sortByKey key' (l.map g) :=
  List.map_insertionSort _ _ g l fun a _ b _ => by simp [KeyLe, h]

/-- The order in which entries with different keys come does not matter. -/
lemma sortByKey_congr {l l' : List α} (hkeys : (l.map key).Nodup) (h : l.Perm l') :
    sortByKey key l = sortByKey key l' := by
  refine List.Perm.eq_of_pairwise (fun a b ha hb hab hba => ?_) (pairwise_sortByKey l)
    (pairwise_sortByKey l') (((perm_sortByKey key l).trans h).trans (perm_sortByKey key l').symm)
  exact List.inj_on_of_nodup_map hkeys (mem_sortByKey.1 ha) (h.symm.subset (mem_sortByKey.1 hb))
    (le_antisymm hab hba)

/-- In a list without equal keys, a relation of neighbours is one of smaller and greater keys. -/
lemma pairwise_iff_of_strict (key : α → β) {R : α → α → Prop} {l : List α}
    (hl : l.Pairwise fun a b => key a < key b) :
    l.Pairwise R ↔ ∀ a ∈ l, ∀ b ∈ l, key a < key b → R a b := by
  refine ⟨fun h => ?_, fun h => hl.imp_of_mem fun ha hb hab => h _ ha _ hb hab⟩
  induction l with
  | nil => simp
  | cons c l ih =>
    obtain ⟨hc, hl⟩ := List.pairwise_cons.1 hl
    obtain ⟨hR, h⟩ := List.pairwise_cons.1 h
    intro a ha b hb hab
    rcases List.mem_cons.1 ha with rfl | ha'
    · rcases List.mem_cons.1 hb with rfl | hb'
      · exact absurd hab (lt_irrefl _)
      · exact hR b hb'
    · rcases List.mem_cons.1 hb with rfl | hb'
      · exact absurd (hc a ha') (lt_asymm hab)
      · exact ih hl h a ha' b hb' hab

/-- An entry that precedes all others is inserted in front of them. -/
lemma orderedInsert_of_forall {a : α} {l : List α} (h : ∀ b ∈ l, KeyLe key a b) :
    l.orderedInsert (KeyLe key) a = a :: l := by
  cases l with
  | nil => rfl
  | cons b l => exact List.orderedInsert_cons_of_le (KeyLe key) l (h b List.mem_cons_self)

/-- An entry that precedes what comes after it, and strictly what comes before it, comes first. -/
lemma sortByKey_append_cons {a : α} {l l' : List α} (h : ∀ b ∈ l, key a < key b)
    (h' : ∀ b ∈ l', key a ≤ key b) :
    sortByKey key (l ++ a :: l') = a :: sortByKey key (l ++ l') := by
  induction l with
  | nil => exact orderedInsert_of_forall fun b hb => h' b (mem_sortByKey.1 hb)
  | cons b l ih =>
    obtain ⟨hb, hl⟩ := List.forall_mem_cons.1 h
    have ih' : (l ++ a :: l').insertionSort (KeyLe key) =
        a :: (l ++ l').insertionSort (KeyLe key) := ih hl
    rw [sortByKey, sortByKey, List.cons_append, List.cons_append, List.insertionSort_cons,
      List.insertionSort_cons, ih', List.orderedInsert_of_not_le (KeyLe key) _ (not_le.2 hb)]

lemma filter_orderedInsert (p : α → Bool) (a : α) {l : List α} (hl : l.Pairwise (KeyLe key)) :
    (l.orderedInsert (KeyLe key) a).filter p =
      if p a then (l.filter p).orderedInsert (KeyLe key) a else l.filter p := by
  induction l with
  | nil => cases hp : p a <;> simp [hp]
  | cons b l ih =>
    obtain ⟨hb, hl⟩ := List.pairwise_cons.1 hl
    by_cases hab : KeyLe key a b
    · -- `a` precedes everything behind `b` as well
      have hall : ∀ c ∈ (b :: l).filter p, KeyLe key a c := by
        intro c hc
        rcases List.mem_cons.1 (List.mem_filter.1 hc).1 with rfl | hc
        · exact hab
        · exact le_trans hab (hb c hc)
      rw [List.orderedInsert_cons_of_le (KeyLe key) l hab, orderedInsert_of_forall hall]
      cases hp : p a <;> simp [hp]
    · rw [List.orderedInsert_of_not_le (KeyLe key) l hab]
      cases hpb : p b
      · rw [List.filter_cons_of_neg (by simp [hpb]), List.filter_cons_of_neg (by simp [hpb])]
        exact ih hl
      · rw [List.filter_cons_of_pos hpb, List.filter_cons_of_pos hpb, ih hl]
        cases p a
        · rfl
        · simp only [if_true]
          rw [List.orderedInsert_of_not_le (KeyLe key) _ hab]

/-- Sorting commutes with filtering. -/
lemma filter_sortByKey (p : α → Bool) (l : List α) :
    (sortByKey key l).filter p = sortByKey key (l.filter p) := by
  unfold sortByKey
  induction l with
  | nil => rfl
  | cons a l ih =>
    rw [List.insertionSort_cons,
      filter_orderedInsert p a (List.pairwise_insertionSort (KeyLe key) l), ih]
    cases hp : p a
    · simp [hp]
    · simp [hp]

/-- A sorted list is its part up to a key, followed by the rest. -/
lemma split_of_pairwise (t : β) {l : List α} (hl : l.Pairwise (KeyLe key)) :
    l = l.filter (fun a => key a ≤ t) ++ l.filter fun a => t < key a := by
  induction l with
  | nil => rfl
  | cons a l ih =>
    obtain ⟨ha, hl⟩ := List.pairwise_cons.1 hl
    by_cases hat : key a ≤ t
    · rw [List.filter_cons_of_pos (by simpa using hat), List.filter_cons_of_neg (by simpa using hat),
        List.cons_append, ← ih hl]
    · have hbeyond : ∀ b ∈ a :: l, t < key b := by
        intro b hb
        rcases List.mem_cons.1 hb with rfl | hb
        · exact not_le.1 hat
        · exact (not_le.1 hat).trans_le (ha b hb)
      have hnone : (a :: l).filter (fun a => key a ≤ t) = [] :=
        List.filter_eq_nil_iff.2 fun b hb => by simpa using hbeyond b hb
      have hall : (a :: l).filter (fun a => t < key a) = a :: l :=
        List.filter_eq_self.2 fun b hb => by simpa using hbeyond b hb
      rw [hnone, hall, List.nil_append]

/-- The entries up to a key come first, in the order that sorting them alone gives. -/
lemma sortByKey_split (t : β) (l : List α) :
    sortByKey key l = sortByKey key (l.filter fun a => key a ≤ t) ++
      sortByKey key (l.filter fun a => t < key a) := by
  rw [← filter_sortByKey, ← filter_sortByKey]
  exact split_of_pairwise t (pairwise_sortByKey l)

/-- An entry that precedes the last one is inserted before it. -/
lemma orderedInsert_concat {a b : α} (h : KeyLe key b a) (l : List α) :
    (l ++ [a]).orderedInsert (KeyLe key) b = l.orderedInsert (KeyLe key) b ++ [a] := by
  induction l with
  | nil => exact List.orderedInsert_cons_of_le (KeyLe key) [] h
  | cons c l ih =>
    by_cases hbc : KeyLe key b c
    · rw [List.cons_append, List.orderedInsert_cons_of_le (KeyLe key) _ hbc,
        List.orderedInsert_cons_of_le (KeyLe key) _ hbc]
      rfl
    · rw [List.cons_append, List.orderedInsert_of_not_le (KeyLe key) _ hbc, ih,
        List.orderedInsert_of_not_le (KeyLe key) _ hbc, List.cons_append]

/-- An entry that comes last, and is preceded by none with a greater key, stays last. -/
lemma sortByKey_concat_of_forall {a : α} {l : List α} (h : ∀ b ∈ l, key b ≤ key a) :
    sortByKey key (l ++ [a]) = sortByKey key l ++ [a] := by
  unfold sortByKey
  induction l with
  | nil => rfl
  | cons b l ih =>
    obtain ⟨hb, hl⟩ := List.forall_mem_cons.1 h
    rw [List.cons_append, List.insertionSort_cons, ih hl, List.insertionSort_cons,
      orderedInsert_concat hb]

/-- To sort one more entry, insert it before the first with a greater key. -/
lemma sortByKey_concat (a : α) (l : List α) :
    sortByKey key (l ++ [a]) =
      (sortByKey key l).insertIdx ((sortByKey key l).findIdx fun b => key a < key b) a := by
  have hinsert : ∀ {low high : List α}, (∀ b ∈ low, key b ≤ key a) → (∀ b ∈ high, key a < key b) →
      (low ++ high).insertIdx ((low ++ high).findIdx fun b => key a < key b) a =
        low ++ a :: high := by
    intro low high hlow hhigh
    induction low with
    | nil =>
      cases high with
      | nil => rfl
      | cons b high =>
        rw [List.nil_append, List.findIdx_cons, decide_eq_true (hhigh b List.mem_cons_self)]
        rfl
    | cons b low ih =>
      obtain ⟨hb, hlow⟩ := List.forall_mem_cons.1 hlow
      rw [List.cons_append, List.findIdx_cons, decide_eq_false (not_lt.2 hb), cond_false,
        List.insertIdx_succ_cons, ih hlow, List.cons_append]
  have hlow : ∀ b ∈ l.filter (fun b => key b ≤ key a), key b ≤ key a := fun b hb => by
    simpa using (List.mem_filter.1 hb).2
  rw [sortByKey_split (key a) (l ++ [a]), sortByKey_split (key a) l, List.filter_append,
    List.filter_append, List.filter_cons_of_pos (by simp), List.filter_cons_of_neg (by simp),
    List.filter_nil, List.filter_nil, List.append_nil, sortByKey_concat_of_forall hlow,
    List.append_assoc, List.singleton_append, hinsert]
  · exact fun b hb => hlow b (mem_sortByKey.1 hb)
  · exact fun b hb => by simpa using (List.mem_filter.1 (mem_sortByKey.1 hb)).2

end Lib
