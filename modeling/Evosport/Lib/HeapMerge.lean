/-
Merging any number of streams with a heap of their heads.

The heap holds the first entry of every stream that is not exhausted, under the key `order`, which
may use the stream's name to break ties.  A step takes the least head and moves its stream on.  The
merge only interleaves: it yields every entry of every stream (`perm_merge`), each stream in its
own order (`sublist_merge`).  So for a key that `order` refines the merge is sorted exactly when
every stream is (`pairwise_merge_iff`): merging never repairs a stream that is out of order.
-/
import Evosport.Lib.StableSort
import Mathlib.Data.List.Flatten

namespace Lib

namespace HeapMerge

variable {ν α β γ : Type*}

section

variable [LinearOrder β] (order : ν → α → β)

/-- Take the least head off the heap: the stream's name, the entry, and the streams behind it. -/
def popMin : List (ν × List α) → Option (ν × α × List (ν × List α))
  | [] => none
  | (n, []) :: streams => (popMin streams).map fun (m, b, rest) => (m, b, (n, []) :: rest)
  | (n, a :: s) :: streams =>
    match popMin streams with
    | none => some (n, a, (n, s) :: streams)
    | some (m, b, rest) =>
      if order n a ≤ order m b then some (n, a, (n, s) :: streams)
      else some (m, b, (n, a :: s) :: rest)

/-- Take the heads off the heap, at most `k` of them. -/
def mergeN : ℕ → List (ν × List α) → List α
  | 0, _ => []
  | k + 1, streams =>
    match popMin order streams with
    | none => []
    | some (_, a, rest) => a :: mergeN k rest

/-- The entries of all streams. -/
def entries (streams : List (ν × List α)) : List α := streams.flatMap Prod.snd

/-- Take the heads off the heap until it is empty. -/
def merge (streams : List (ν × List α)) : List α := mergeN order (entries streams).length streams

end

section

variable [LinearOrder β] {order : ν → α → β} {streams rest : List (ν × List α)} {n : ν} {a : α}

@[simp] lemma entries_nil : entries ([] : List (ν × List α)) = [] := rfl

@[simp] lemma entries_cons (s : ν × List α) (streams : List (ν × List α)) :
    entries (s :: streams) = s.2 ++ entries streams := rfl

@[simp] lemma entries_append (streams rest : List (ν × List α)) :
    entries (streams ++ rest) = entries streams ++ entries rest := List.flatMap_append

lemma mem_entries : a ∈ entries streams ↔ ∃ s ∈ streams, a ∈ s.2 := List.mem_flatMap

/-- The heap is empty once all streams are exhausted. -/
lemma popMin_eq_none : popMin order streams = none ↔ entries streams = [] := by
  induction streams with
  | nil => simp [popMin]
  | cons s streams ih =>
    obtain ⟨n, s⟩ := s
    cases s with
    | nil => simpa [popMin] using ih
    | cons a s =>
      rw [popMin]
      split
      · simp
      · split_ifs <;> simp

/-- What a step does: one stream loses its head, and no other head has a smaller key. -/
lemma popMin_eq_some (h : popMin order streams = some (n, a, rest)) :
    ∃ pre s post, streams = pre ++ (n, a :: s) :: post ∧ rest = pre ++ (n, s) :: post ∧
      ∀ m b t, (m, b :: t) ∈ streams → order n a ≤ order m b := by
  induction streams generalizing n a rest with
  | nil => simp [popMin] at h
  | cons s streams ih =>
    obtain ⟨n', s⟩ := s
    cases s with
    | nil =>
      simp only [popMin, Option.map_eq_some_iff, Prod.exists] at h
      obtain ⟨n, a, rest, hpop, ⟨⟩⟩ := h
      obtain ⟨pre, s, post, rfl, rfl, hmin⟩ := ih hpop
      exact ⟨(n', []) :: pre, s, post, rfl, rfl, fun m b t hmem =>
        hmin m b t (by simpa using hmem)⟩
    | cons a' s =>
      rw [popMin] at h
      split at h
      · next hnone =>
        -- the other streams are exhausted
        obtain ⟨⟩ := h
        refine ⟨[], s, streams, rfl, rfl, fun m b t hmem => ?_⟩
        rcases List.mem_cons.1 hmem with heq | hmem
        · cases heq
          exact le_rfl
        · have hb : b ∈ entries streams := mem_entries.2 ⟨_, hmem, List.mem_cons_self⟩
          simp [popMin_eq_none.1 hnone] at hb
      · next m' b' rest' hpop =>
        obtain ⟨pre, s', post, hstreams, hrest, hmin⟩ := ih hpop
        split_ifs at h with hle
        · obtain ⟨⟩ := h
          refine ⟨[], s, streams, rfl, rfl, fun m b t hmem => ?_⟩
          rcases List.mem_cons.1 hmem with heq | hmem
          · cases heq
            exact le_rfl
          · exact hle.trans (hmin m b t hmem)
        · obtain ⟨⟩ := h
          refine ⟨(n', a' :: s) :: pre, s', post, by simp [hstreams], by simp [hrest],
            fun m b t hmem => ?_⟩
          rcases List.mem_cons.1 hmem with heq | hmem
          · cases heq
            exact (not_le.1 hle).le
          · exact hmin m b t hmem

/-- The step as a change of the entries that wait. -/
lemma perm_popMin (h : popMin order streams = some (n, a, rest)) :
    (entries streams).Perm (a :: entries rest) := by
  obtain ⟨pre, s, post, rfl, rfl, -⟩ := popMin_eq_some h
  simp

lemma perm_mergeN {k : ℕ} (hk : (entries streams).length ≤ k) :
    (mergeN order k streams).Perm (entries streams) := by
  induction k generalizing streams with
  | zero => simp [mergeN, List.length_eq_zero_iff.1 (Nat.le_zero.1 hk)]
  | succ k ih =>
    rw [mergeN]
    split
    · next hnone => rw [popMin_eq_none.1 hnone]
    · next n a rest hpop =>
      have hperm := perm_popMin hpop
      have hlen : (entries rest).length ≤ k := by
        have := hperm.length_eq
        simp only [List.length_cons] at this
        omega
      exact ((ih hlen).cons a).trans hperm.symm

/-- The merge yields what the streams hold, every entry as often as they do. -/
theorem perm_merge (streams : List (ν × List α)) :
    (merge order streams).Perm (entries streams) := perm_mergeN le_rfl

lemma sublist_mergeN {k : ℕ} (hk : (entries streams).length ≤ k) :
    ∀ s ∈ streams, s.2.Sublist (mergeN order k streams) := by
  induction k generalizing streams with
  | zero =>
    intro s hs
    have hnil : s.2 = [] := List.eq_nil_iff_forall_not_mem.2 fun b hb => by
      have := mem_entries.2 ⟨s, hs, hb⟩
      simp [List.length_eq_zero_iff.1 (Nat.le_zero.1 hk)] at this
    simp [hnil]
  | succ k ih =>
    intro s hs
    rw [mergeN]
    split
    · next hnone =>
      have hnil : s.2 = [] := List.eq_nil_iff_forall_not_mem.2 fun b hb => by
        have := mem_entries.2 ⟨s, hs, hb⟩
        simp [popMin_eq_none.1 hnone] at this
      simp [hnil]
    · next n a rest hpop =>
      have hlen : (entries rest).length ≤ k := by
        have := (perm_popMin hpop).length_eq
        simp only [List.length_cons] at this
        omega
      have ih' := ih hlen
      obtain ⟨pre, t, post, rfl, rfl, -⟩ := popMin_eq_some hpop
      rcases List.mem_append.1 hs with hs | hs
      · exact (ih' s (by simp [hs])).cons a
      · rcases List.mem_cons.1 hs with rfl | hs
        · -- the stream whose head was taken
          exact (ih' (n, t) (by simp)).cons_cons a
        · exact (ih' s (by simp [hs])).cons a

/-- The merge keeps each stream in its order. -/
theorem sublist_merge {s : ν × List α} (hs : s ∈ streams) : s.2.Sublist (merge order streams) :=
  sublist_mergeN le_rfl s hs

section

variable [Preorder γ] {key : α → γ}

lemma pairwise_mergeN (hkey : ∀ m n a b, order m a ≤ order n b → key a ≤ key b) {k : ℕ}
    (hk : (entries streams).length ≤ k)
    (h : ∀ s ∈ streams, s.2.Pairwise fun a b => key a ≤ key b) :
    (mergeN order k streams).Pairwise fun a b => key a ≤ key b := by
  induction k generalizing streams with
  | zero => simp [mergeN]
  | succ k ih =>
    rw [mergeN]
    split
    · exact .nil
    · next n a rest hpop =>
      have hlen : (entries rest).length ≤ k := by
        have := (perm_popMin hpop).length_eq
        simp only [List.length_cons] at this
        omega
      obtain ⟨pre, t, post, rfl, rfl, hmin⟩ := popMin_eq_some hpop
      have hsorted := h (n, a :: t) (by simp)
      have hrest : ∀ s ∈ pre ++ (n, t) :: post, s.2.Pairwise fun a b => key a ≤ key b := by
        intro s hs
        rcases List.mem_append.1 hs with hs | hs
        · exact h s (by simp [hs])
        · rcases List.mem_cons.1 hs with rfl | hs
          · exact hsorted.of_cons
          · exact h s (by simp [hs])
      refine .cons (fun b hb => ?_) (ih hlen hrest)
      -- `b` waits in some stream, behind a head which is not smaller than `a`
      obtain ⟨⟨m, s⟩, hs, hb⟩ := mem_entries.1 ((perm_mergeN hlen).mem_iff.1 hb)
      by_cases hst : (m, s) = (n, t)
      · obtain ⟨⟩ := hst
        exact List.rel_of_pairwise_cons hsorted hb
      · have hmem : (m, s) ∈ pre ++ (n, a :: t) :: post := by
          simp only [List.mem_append, List.mem_cons] at hs ⊢
          tauto
        cases s with
        | nil => simp at hb
        | cons c s =>
          have hac := hkey n m a c (hmin m c s hmem)
          rcases List.mem_cons.1 hb with rfl | hb
          · exact hac
          · exact hac.trans (List.rel_of_pairwise_cons (h _ hmem) hb)

/-- Under a key that the heap's order refines, the merge is sorted exactly when every stream is. -/
theorem pairwise_merge_iff (hkey : ∀ m n a b, order m a ≤ order n b → key a ≤ key b) :
    ((merge order streams).Pairwise fun a b => key a ≤ key b) ↔
      ∀ s ∈ streams, s.2.Pairwise fun a b => key a ≤ key b :=
  ⟨fun h _ hs => h.sublist (sublist_merge hs), pairwise_mergeN hkey le_rfl⟩

end

end

end HeapMerge

end Lib
