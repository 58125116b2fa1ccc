/-
Insertion-ordered finite maps.

A `Dict` is the finite map of the common scripting languages: looking up a key,
overwriting a present key *in place*, appending an absent key at the end, deleting a
key, and iterating over the entries in insertion order.  The list of entries carries
the proof that no key occurs twice, so that an entry of the list and a successful
lookup are the same thing (`mem_entries`).

The second half of the file is about totals `∑ f k v` over all the entries: `total_set`
and `total_erase` say what one write changes, which is all that the conservation
arguments built on these maps need.
-/
import Mathlib.Data.List.Nodup
import Mathlib.Algebra.BigOperators.Group.List.Basic
import Mathlib.Algebra.Order.BigOperators.Group.List
import Mathlib.Algebra.Order.Group.Defs
import Mathlib.Tactic.Abel

namespace Lib

/-- A finite map that keeps its keys in the order of their first insertion. -/
structure Dict (κ ν : Type*) where
  /-- The entries, oldest key first. -/
  entries : List (κ × ν)
  /-- No key occurs twice. -/
  nodup : (entries.map Prod.fst).Nodup

namespace Dict

variable {κ ν : Type*}

@[ext] lemma ext {m m' : Dict κ ν} (h : m.entries = m'.entries) : m = m' := by
  cases m; cases m'; cases h; rfl

instance [DecidableEq κ] [DecidableEq ν] : DecidableEq (Dict κ ν) := fun m m' =>
  decidable_of_iff (m.entries = m'.entries) ⟨ext, fun h => h ▸ rfl⟩

/-- The map without entries. -/
def empty : Dict κ ν := ⟨[], List.nodup_nil⟩

instance : Inhabited (Dict κ ν) := ⟨empty⟩

/-- The keys, oldest first. -/
def keys (m : Dict κ ν) : List κ := m.entries.map Prod.fst

/-- The values, in the order of their keys. -/
def values (m : Dict κ ν) : List ν := m.entries.map Prod.snd

variable [DecidableEq κ]

/-! ## Lookup, overwriting and deletion on lists of entries -/

/-- The value of the first entry with key `k`. -/
def lookup (k : κ) : List (κ × ν) → Option ν
  | [] => none
  | (k', v) :: l => if k' = k then some v else lookup k l

/-- Overwrite the first entry with key `k`, or append one. -/
def write (k : κ) (v : ν) : List (κ × ν) → List (κ × ν)
  | [] => [(k, v)]
  | (k', v') :: l => if k' = k then (k, v) :: l else (k', v') :: write k v l

lemma lookup_eq_none {k : κ} {l : List (κ × ν)} :
    lookup k l = none ↔ k ∉ l.map Prod.fst := by
  induction l with
  | nil => simp [lookup]
  | cons e l ih =>
    obtain ⟨k', v⟩ := e
    by_cases h : k' = k
    · simp [lookup, h]
    · simp [lookup, h, ih, Ne.symm h]

lemma lookup_eq_some {k : κ} {v : ν} {l : List (κ × ν)} (hl : (l.map Prod.fst).Nodup) :
    lookup k l = some v ↔ (k, v) ∈ l := by
  induction l with
  | nil => simp [lookup]
  | cons e l ih =>
    obtain ⟨k', v'⟩ := e
    simp only [List.map_cons, List.nodup_cons] at hl
    by_cases h : k' = k
    · subst h
      have hnot : (k', v) ∉ l := fun hm => hl.1 (List.mem_map.2 ⟨_, hm, rfl⟩)
      simp [lookup, hnot, eq_comm]
    · simp [lookup, h, ih hl.2, Ne.symm h]

lemma lookup_write (k k' : κ) (v : ν) (l : List (κ × ν)) :
    lookup k' (write k v l) = if k = k' then some v else lookup k' l := by
  induction l with
  | nil => simp [write, lookup]
  | cons e l ih =>
    obtain ⟨k₀, v₀⟩ := e
    by_cases h : k₀ = k
    · subst h
      by_cases h' : k₀ = k' <;> simp [write, lookup, h']
    · by_cases h' : k₀ = k'
      · subst h'
        simp [write, lookup, h, Ne.symm h]
      · simp [write, lookup, h, h', ih]

lemma mem_of_lookup {k : κ} {v : ν} {l : List (κ × ν)} (h : lookup k l = some v) : (k, v) ∈ l := by
  induction l with
  | nil => cases h
  | cons e l ih =>
    obtain ⟨k', v'⟩ := e
    by_cases hk : k' = k
    · simp [lookup, hk] at h
      simp [hk, h]
    · exact List.mem_cons_of_mem _ (ih (by simpa [lookup, hk] using h))

lemma mem_write {k : κ} {v : ν} {l : List (κ × ν)} {e : κ × ν} (h : e ∈ write k v l) :
    e = (k, v) ∨ e ∈ l := by
  induction l with
  | nil => exact .inl (List.mem_singleton.1 h)
  | cons e' l ih =>
    by_cases hk : e'.1 = k
    · rw [write, if_pos hk] at h
      exact (List.mem_cons.1 h).imp_right (List.mem_cons_of_mem _)
    · rw [write, if_neg hk] at h
      rcases List.mem_cons.1 h with rfl | h
      · exact .inr List.mem_cons_self
      · exact (ih h).imp_right (List.mem_cons_of_mem _)

lemma keys_write_of_mem {k : κ} {v : ν} {l : List (κ × ν)} (h : k ∈ l.map Prod.fst) :
    (write k v l).map Prod.fst = l.map Prod.fst := by
  induction l with
  | nil => simp at h
  | cons e l ih =>
    obtain ⟨k', v'⟩ := e
    by_cases hk : k' = k
    · simp [write, hk]
    · have hmem : k ∈ l.map Prod.fst := by
        rcases List.mem_cons.1 h with h | h
        · exact absurd h.symm hk
        · exact h
      simp [write, hk, ih hmem]

lemma write_of_notMem {k : κ} {v : ν} {l : List (κ × ν)} (h : k ∉ l.map Prod.fst) :
    write k v l = l ++ [(k, v)] := by
  induction l with
  | nil => rfl
  | cons e l ih =>
    obtain ⟨k', v'⟩ := e
    simp only [List.map_cons, List.mem_cons, not_or] at h
    simp [write, Ne.symm h.1, ih h.2]

lemma nodup_write (k : κ) (v : ν) {l : List (κ × ν)} (hl : (l.map Prod.fst).Nodup) :
    ((write k v l).map Prod.fst).Nodup := by
  by_cases h : k ∈ l.map Prod.fst
  · rw [keys_write_of_mem h]; exact hl
  · rw [write_of_notMem h, List.map_append, List.nodup_append]
    refine ⟨hl, by simp, ?_⟩
    intro a ha b hb hab
    simp only [List.map_cons, List.map_nil, List.mem_singleton] at hb
    exact h (hb ▸ hab ▸ ha)

/-! ## The operations -/

/-- The value stored under `k`. -/
def get? (m : Dict κ ν) (k : κ) : Option ν := lookup k m.entries

/-- The value stored under `k`, or `d`. -/
def getD (m : Dict κ ν) (k : κ) (d : ν) : ν := (m.get? k).getD d

/-- Whether `k` is a key. -/
def contains (m : Dict κ ν) (k : κ) : Bool := (m.get? k).isSome

/-- Store `v` under `k`: in place when `k` is a key, at the end otherwise. -/
def set (m : Dict κ ν) (k : κ) (v : ν) : Dict κ ν := ⟨write k v m.entries, nodup_write k v m.nodup⟩

/-- Delete the key `k`. -/
def erase (m : Dict κ ν) (k : κ) : Dict κ ν :=
  ⟨m.entries.filter fun e => e.1 ≠ k, m.nodup.sublist (List.filter_sublist.map Prod.fst)⟩

omit [DecidableEq κ] in
private lemma keys_mapVal (g : κ → ν → ν) (l : List (κ × ν)) :
    (l.map fun e => (e.1, g e.1 e.2)).map Prod.fst = l.map Prod.fst := by
  rw [List.map_map]
  exact List.map_congr_left fun e _ => rfl

omit [DecidableEq κ] in
/-- Rewrite every value. -/
def mapVal (m : Dict κ ν) (g : κ → ν → ν) : Dict κ ν :=
  ⟨m.entries.map fun e => (e.1, g e.1 e.2), by rw [keys_mapVal]; exact m.nodup⟩

/-- Store all the entries of `m'`, overwriting those of `m`. -/
def update (m m' : Dict κ ν) : Dict κ ν := m'.entries.foldl (fun acc e => acc.set e.1 e.2) m

@[simp] lemma get?_empty (k : κ) : (empty : Dict κ ν).get? k = none := rfl

lemma get?_set (m : Dict κ ν) (k k' : κ) (v : ν) :
    (m.set k v).get? k' = if k = k' then some v else m.get? k' :=
  lookup_write k k' v m.entries

@[simp] lemma get?_set_self (m : Dict κ ν) (k : κ) (v : ν) : (m.set k v).get? k = some v := by
  simp [get?_set]

lemma get?_set_of_ne (m : Dict κ ν) {k k' : κ} (v : ν) (h : k ≠ k') :
    (m.set k v).get? k' = m.get? k' := by
  simp [get?_set, h]

lemma getD_set (m : Dict κ ν) (k k' : κ) (v d : ν) :
    (m.set k v).getD k' d = if k = k' then v else m.getD k' d := by
  rw [getD, get?_set]
  split <;> rfl

/-- An entry of the list and a successful lookup are the same thing. -/
lemma mem_entries {m : Dict κ ν} {k : κ} {v : ν} : (k, v) ∈ m.entries ↔ m.get? k = some v :=
  (lookup_eq_some m.nodup).symm

lemma get?_eq_none {m : Dict κ ν} {k : κ} : m.get? k = none ↔ k ∉ m.keys := lookup_eq_none

lemma mem_keys {m : Dict κ ν} {k : κ} : k ∈ m.keys ↔ ∃ v, m.get? k = some v := by
  rw [← not_iff_not, ← get?_eq_none, Option.eq_none_iff_forall_ne_some]
  push Not
  rfl

lemma mem_values {m : Dict κ ν} {v : ν} : v ∈ m.values ↔ ∃ k, m.get? k = some v := by
  simp only [values, List.mem_map, Prod.exists, mem_entries, exists_eq_right]

lemma get?_erase (m : Dict κ ν) (k k' : κ) :
    (m.erase k).get? k' = if k = k' then none else m.get? k' := by
  refine Option.ext fun v => ?_
  rw [← mem_entries]
  by_cases h : k = k'
  · simp [erase, h]
  · simp [erase, h, mem_entries, Ne.symm h]

@[simp] lemma get?_erase_self (m : Dict κ ν) (k : κ) : (m.erase k).get? k = none := by
  simp [get?_erase]

lemma get?_erase_of_ne (m : Dict κ ν) {k k' : κ} (h : k ≠ k') :
    (m.erase k).get? k' = m.get? k' := by
  simp [get?_erase, h]

lemma get?_mapVal (m : Dict κ ν) (g : κ → ν → ν) (k : κ) :
    (m.mapVal g).get? k = (m.get? k).map (g k) := by
  refine Option.ext fun v => ?_
  rw [← mem_entries, Option.map_eq_some_iff]
  simp only [mapVal, List.mem_map, Prod.mk.injEq, Prod.exists]
  constructor
  · rintro ⟨k', v', hmem, rfl, rfl⟩
    exact ⟨v', mem_entries.1 hmem, rfl⟩
  · rintro ⟨v', hget, rfl⟩
    exact ⟨k, v', mem_entries.2 hget, rfl, rfl⟩

/-- Rewriting every value to itself changes nothing. -/
lemma mapVal_of_forall {m : Dict κ ν} {g : κ → ν → ν} (h : ∀ k v, m.get? k = some v → g k v = v) :
    m.mapVal g = m := by
  refine ext ?_
  show m.entries.map (fun e => (e.1, g e.1 e.2)) = m.entries
  have hself : ∀ e ∈ m.entries, (e.1, g e.1 e.2) = id e :=
    fun e he => Prod.ext rfl (h e.1 e.2 (mem_entries.1 he))
  rw [List.map_congr_left hself, List.map_id]

omit [DecidableEq κ] in
lemma mapVal_keys (m : Dict κ ν) (g : κ → ν → ν) : (m.mapVal g).keys = m.keys :=
  keys_mapVal g m.entries

/-- Overwriting a present key keeps the order of the keys. -/
lemma keys_set_of_some {m : Dict κ ν} {k : κ} {v₀ : ν} (h : m.get? k = some v₀) (v : ν) :
    (m.set k v).keys = m.keys :=
  keys_write_of_mem (mem_keys.2 ⟨v₀, h⟩)

/-- Storing under an absent key appends at the end. -/
lemma entries_set_of_none {m : Dict κ ν} {k : κ} (h : m.get? k = none) (v : ν) :
    (m.set k v).entries = m.entries ++ [(k, v)] :=
  write_of_notMem (get?_eq_none.1 h)

lemma entries_eq (m : Dict κ ν) :
    m.entries = m.keys.filterMap fun k => (m.get? k).map fun v => (k, v) := by
  have hself : m.entries.filterMap (fun e => (m.get? e.1).map fun v => (e.1, v)) =
      m.entries.filterMap some :=
    List.filterMap_congr fun e he => by rw [mem_entries.1 he]; rfl
  rw [keys, List.filterMap_map]
  exact (List.filterMap_some).symm.trans hself.symm

/-- A map is known by the order of its keys and by its lookups. -/
lemma ext_get? {m m' : Dict κ ν} (hkeys : m.keys = m'.keys) (h : ∀ k, m.get? k = m'.get? k) :
    m = m' := by
  refine ext ?_
  rw [entries_eq, entries_eq m', hkeys]
  simp only [h]

/-- Two maps with the same entries and the same order of the keys are the same. -/
lemma eq_of_perm {m m' : Dict κ ν} (hkeys : m.keys = m'.keys) (h : m.entries.Perm m'.entries) :
    m = m' := by
  refine ext_get? hkeys fun k => Option.ext fun v => ?_
  rw [← mem_entries, ← mem_entries]
  exact h.mem_iff

/-! ## Totals -/

section Total

variable {M : Type*} [AddCommGroup M]

/-- The sum of `f k v` over all the entries. -/
def total (f : κ → ν → M) (m : Dict κ ν) : M := (m.entries.map fun e => f e.1 e.2).sum

/-- What the key `k` contributes to a total. -/
def share (f : κ → ν → M) (m : Dict κ ν) (k : κ) : M := (m.get? k).elim 0 (f k)

omit [DecidableEq κ] in
@[simp] lemma total_empty (f : κ → ν → M) : (empty : Dict κ ν).total f = 0 := rfl

lemma share_of_some {f : κ → ν → M} {m : Dict κ ν} {k : κ} {v : ν} (h : m.get? k = some v) :
    m.share f k = f k v := by
  simp [share, h]

lemma share_of_none {f : κ → ν → M} {m : Dict κ ν} {k : κ} (h : m.get? k = none) :
    m.share f k = 0 := by
  simp [share, h]

private lemma sum_write (f : κ → ν → M) (k : κ) (v : ν) (l : List (κ × ν)) :
    ((write k v l).map fun e => f e.1 e.2).sum =
      (l.map fun e => f e.1 e.2).sum - (lookup k l).elim 0 (f k) + f k v := by
  induction l with
  | nil => simp [write, lookup]
  | cons e l ih =>
    obtain ⟨k', v'⟩ := e
    by_cases h : k' = k
    · subst h
      simp only [write, lookup, if_true, List.map_cons, List.sum_cons, Option.elim_some]
      abel
    · simp only [write, lookup, h, if_false, List.map_cons, List.sum_cons, ih]
      abel

private lemma sum_erase (f : κ → ν → M) (k : κ) {l : List (κ × ν)}
    (hl : (l.map Prod.fst).Nodup) :
    ((l.filter fun e => e.1 ≠ k).map fun e => f e.1 e.2).sum =
      (l.map fun e => f e.1 e.2).sum - (lookup k l).elim 0 (f k) := by
  induction l with
  | nil => simp [lookup]
  | cons e l ih =>
    obtain ⟨k', v'⟩ := e
    simp only [List.map_cons, List.nodup_cons] at hl
    by_cases h : k' = k
    · subst h
      have hnone : lookup k' l = none := lookup_eq_none.2 hl.1
      have ih' := ih hl.2
      rw [hnone, Option.elim_none, sub_zero] at ih'
      simp [lookup, ← ih']
    · have ih' := ih hl.2
      simp only [ne_eq, h, not_false_eq_true, decide_true, List.filter_cons_of_pos,
        List.map_cons, List.sum_cons, lookup, if_false]
      rw [ih']
      abel

/-- A write replaces the contribution of its key. -/
lemma total_set (f : κ → ν → M) (m : Dict κ ν) (k : κ) (v : ν) :
    (m.set k v).total f = m.total f - m.share f k + f k v :=
  sum_write f k v m.entries

/-- A deletion removes the contribution of its key. -/
lemma total_erase (f : κ → ν → M) (m : Dict κ ν) (k : κ) :
    (m.erase k).total f = m.total f - m.share f k :=
  sum_erase f k m.nodup

omit [DecidableEq κ] in
/-- Rewriting the values leaves a total of what is not rewritten. -/
lemma total_mapVal {f : κ → ν → M} {g : κ → ν → ν} (h : ∀ k v, f k (g k v) = f k v)
    (m : Dict κ ν) : (m.mapVal g).total f = m.total f := by
  unfold total mapVal
  rw [List.map_map]
  exact congrArg List.sum (List.map_congr_left fun e _ => h e.1 e.2)

/-- Writing twice under one key is writing once. -/
lemma set_set (m : Dict κ ν) (k : κ) (v v' : ν) : (m.set k v).set k v' = m.set k v' := by
  refine ext ?_
  show write k v' (write k v m.entries) = write k v' m.entries
  induction m.entries with
  | nil => simp [write]
  | cons e l ih =>
    by_cases h : e.1 = k
    · simp [write, h]
    · simp [write, h, ih]

omit [DecidableEq κ] in
lemma total_nonneg [PartialOrder M] [IsOrderedAddMonoid M] {f : κ → ν → M} {m : Dict κ ν}
    (h : ∀ k v, 0 ≤ f k v) : 0 ≤ m.total f := by
  refine List.sum_nonneg fun x hx => ?_
  obtain ⟨e, _, rfl⟩ := List.mem_map.1 hx
  exact h e.1 e.2

/-- What one key contributes to a total of nonnegative terms is at most the total. -/
lemma share_le_total [PartialOrder M] [IsOrderedAddMonoid M] {f : κ → ν → M} {m : Dict κ ν}
    (h : ∀ k v, 0 ≤ f k v) (k : κ) : m.share f k ≤ m.total f := by
  have hrest := total_nonneg (m := m.erase k) h
  rw [total_erase] at hrest
  exact sub_nonneg.1 hrest

end Total

end Dict

end Lib
