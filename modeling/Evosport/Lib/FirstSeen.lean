/-
Lists of distinct elements in the order in which they were first seen.

A loop that appends what it has not met yet computes `List.eraseDups`, and it does so from any list
that was computed in the same way (`foldl_addNew`).  So a part of the input may be replaced by its
own distinct elements without anything showing (`eraseDups_append_left`, `eraseDups_append_right`).
The second half is about the same loop for several keys at once.
-/
import Evosport.Lib.Dict
import Mathlib.Data.List.Induction

namespace Lib

section AddNew

variable {α : Type*} [DecidableEq α]

/-- Append an element that is not there yet. -/
def addNew (out : List α) (a : α) : List α := if a ∈ out then out else out ++ [a]

@[simp] lemma mem_addNew {out : List α} {a b : α} : b ∈ addNew out a ↔ b ∈ out ∨ b = a := by
  by_cases h : a ∈ out
  · have hb : b = a → b ∈ out := fun hb => hb ▸ h
    simpa [addNew, h] using hb
  · simp [addNew, h]

lemma nodup_addNew {out : List α} (hout : out.Nodup) (a : α) : (addNew out a).Nodup := by
  by_cases h : a ∈ out
  · simpa [addNew, h] using hout
  · have hnew : ∀ b ∈ out, b ≠ a := fun b hb heq => h (heq ▸ hb)
    simpa [addNew, h, List.nodup_append, hout] using hnew

lemma eraseDups_snoc (xs : List α) (a : α) : (xs ++ [a]).eraseDups = addNew xs.eraseDups a := by
  rw [List.eraseDups_append]
  by_cases h : a ∈ xs
  · simp [addNew, List.removeAll, h]
  · simp [addNew, List.removeAll, h, List.eraseDups_cons]

/-- The loop goes on from what it computed before. -/
lemma foldl_addNew (xs ys : List α) : ys.foldl addNew xs.eraseDups = (xs ++ ys).eraseDups := by
  induction ys generalizing xs with
  | nil => simp
  | cons y ys ih => rw [List.foldl_cons, ← eraseDups_snoc, ih, List.append_assoc, List.singleton_append]

lemma nodup_eraseDups (xs : List α) : xs.eraseDups.Nodup := by
  induction xs using List.reverseRecOn with
  | nil => simp
  | append_singleton xs a ih => rw [eraseDups_snoc]; exact nodup_addNew ih a

/-- A list of distinct elements stays as it is. -/
lemma eraseDups_of_nodup {xs : List α} (h : xs.Nodup) : xs.eraseDups = xs := by
  induction xs using List.reverseRecOn with
  | nil => rfl
  | append_singleton xs a ih =>
    obtain ⟨hxs, -, hnot⟩ := List.nodup_append.1 h
    have ha : a ∉ xs := fun hmem => hnot a hmem a List.mem_cons_self rfl
    rw [eraseDups_snoc, ih hxs, addNew, if_neg ha]

@[simp] lemma eraseDups_append_left (xs ys : List α) :
    (xs.eraseDups ++ ys).eraseDups = (xs ++ ys).eraseDups := by
  rw [← foldl_addNew, ← foldl_addNew, eraseDups_of_nodup (nodup_eraseDups xs)]

@[simp] lemma eraseDups_append_right (xs ys : List α) :
    (xs ++ ys.eraseDups).eraseDups = (xs ++ ys).eraseDups := by
  induction ys using List.reverseRecOn with
  | nil => rfl
  | append_singleton ys a ih =>
    rw [eraseDups_snoc, ← List.append_assoc, eraseDups_snoc (xs ++ ys), ← ih]
    by_cases h : a ∈ ys
    · simp [addNew, h]
    · have ha : a ∉ ys.eraseDups := by simpa using h
      rw [addNew, if_neg ha, ← List.append_assoc, eraseDups_snoc]

/-- Two parts with the same distinct elements each can be put together either way. -/
lemma eraseDups_append_congr {xs xs' ys ys' : List α} (hx : xs.eraseDups = xs'.eraseDups)
    (hy : ys.eraseDups = ys'.eraseDups) : (xs ++ ys).eraseDups = (xs' ++ ys').eraseDups := by
  calc (xs ++ ys).eraseDups = (xs.eraseDups ++ ys.eraseDups).eraseDups := by simp
    _ = (xs'.eraseDups ++ ys'.eraseDups).eraseDups := by rw [hx, hy]
    _ = (xs' ++ ys').eraseDups := by simp

end AddNew

/-! ## By key -/

section Gather

variable {κ α : Type*} [DecidableEq κ] [DecidableEq α]

/-- All that the entries list under a key. -/
def listed (k : κ) (es : List (κ × List α)) : List α := (es.filter (·.1 = k)).flatMap Prod.snd

omit [DecidableEq α] in
@[simp] lemma listed_append (k : κ) (es es' : List (κ × List α)) :
    listed k (es ++ es') = listed k es ++ listed k es' := by
  simp [listed]

omit [DecidableEq α] in
lemma listed_eq_nil {k : κ} {es : List (κ × List α)} (h : k ∉ es.map Prod.fst) :
    listed k es = [] := by
  have hnone : es.filter (·.1 = k) = [] := by
    refine List.filter_eq_nil_iff.2 fun e he heq => h ?_
    exact List.mem_map.2 ⟨e, he, of_decide_eq_true heq⟩
  rw [listed, hnone]
  rfl

/-- One more entry -/
def gatherStep (m : Dict κ (List α)) (e : κ × List α) : Dict κ (List α) :=
  m.set e.1 (e.2.foldl addNew (m.getD e.1 []))

/-- Under each key the distinct elements listed under it, in the order in which they were first
seen. -/
def gather (es : List (κ × List α)) : Dict κ (List α) := es.foldl gatherStep .empty

lemma gather_snoc (es : List (κ × List α)) (e : κ × List α) :
    gather (es ++ [e]) = gatherStep (gather es) e := by
  rw [gather, List.foldl_append]
  rfl

lemma get?_gather (es : List (κ × List α)) (k : κ) :
    (gather es).get? k = if k ∈ es.map Prod.fst then some (listed k es).eraseDups else none := by
  induction es using List.reverseRecOn with
  | nil => rfl
  | append_singleton es e ih =>
    obtain ⟨k', vs⟩ := e
    have hold : (gather es).getD k' [] = (listed k' es).eraseDups ∨ k ≠ k' := by
      by_cases hk : k = k'
      · subst hk
        refine .inl ?_
        rw [Dict.getD, ih]
        by_cases hmem : k ∈ es.map Prod.fst
        · rw [if_pos hmem]; rfl
        · rw [if_neg hmem, listed_eq_nil hmem]; rfl
      · exact .inr hk
    rw [gather_snoc, gatherStep, Dict.get?_set]
    by_cases hk : k' = k
    · subst hk
      have hacc := hold.resolve_right (fun h => h rfl)
      have hone : listed k' [(k', vs)] = vs := by simp [listed]
      rw [if_pos rfl, if_pos (by simp), hacc, foldl_addNew, listed_append, hone]
    · have hone : listed k [(k', vs)] = [] := listed_eq_nil (by simpa using Ne.symm hk)
      have hkeys : k ∈ (es ++ [(k', vs)]).map Prod.fst ↔ k ∈ es.map Prod.fst := by
        simp [Ne.symm hk]
      simp only [if_neg hk, ih, hkeys, listed_append, hone, List.append_nil]

lemma getD_gather (es : List (κ × List α)) (k : κ) :
    (gather es).getD k [] = (listed k es).eraseDups := by
  rw [Dict.getD, get?_gather]
  by_cases hmem : k ∈ es.map Prod.fst
  · rw [if_pos hmem]; rfl
  · rw [if_neg hmem, listed_eq_nil hmem]; rfl

lemma keys_gather (es : List (κ × List α)) : (gather es).keys = (es.map Prod.fst).eraseDups := by
  induction es using List.reverseRecOn with
  | nil => rfl
  | append_singleton es e ih =>
    rw [gather_snoc, gatherStep, List.map_append, List.map_singleton, eraseDups_snoc, ← ih, addNew]
    by_cases h : e.1 ∈ (gather es).keys
    · obtain ⟨v, hv⟩ := Dict.mem_keys.1 h
      rw [if_pos h, Dict.keys_set_of_some hv]
    · have hentries := Dict.entries_set_of_none (Dict.get?_eq_none.2 h)
      rw [if_neg h, Dict.keys, hentries, List.map_append]
      rfl

/-- Entries that nothing gathered can tell apart. -/
structure SameGathered (es es' : List (κ × List α)) : Prop where
  keys : (es.map Prod.fst).eraseDups = (es'.map Prod.fst).eraseDups
  listed : ∀ k, (Lib.listed k es).eraseDups = (Lib.listed k es').eraseDups

namespace SameGathered

variable {es es' fs fs' : List (κ × List α)}

lemma refl (es : List (κ × List α)) : SameGathered es es := ⟨rfl, fun _ => rfl⟩

lemma trans (h : SameGathered es es') (h' : SameGathered es' fs) : SameGathered es fs :=
  ⟨h.keys.trans h'.keys, fun k => (h.listed k).trans (h'.listed k)⟩

lemma append (h : SameGathered es es') (h' : SameGathered fs fs') :
    SameGathered (es ++ fs) (es' ++ fs') := by
  constructor
  · simpa using eraseDups_append_congr h.keys h'.keys
  · intro k
    simpa using eraseDups_append_congr (h.listed k) (h'.listed k)

lemma mem_keys (h : SameGathered es es') (k : κ) :
    k ∈ es.map Prod.fst ↔ k ∈ es'.map Prod.fst := by
  rw [← List.mem_eraseDups, h.keys, List.mem_eraseDups]

lemma gather_eq (h : SameGathered es es') : gather es = gather es' := by
  refine Dict.ext_get? ?_ fun k => ?_
  · rw [keys_gather, keys_gather, h.keys]
  · simp only [get?_gather, h.mem_keys k, h.listed k]

end SameGathered

omit [DecidableEq α] in
/-- The values of a map, each listed under its own key. -/
lemma listed_values {ν : Type*} {m : Dict κ ν} {f : ν → κ} {g : ν → List α}
    (hf : ∀ k v, m.get? k = some v → f v = k) (k : κ) :
    listed k (m.values.map fun v => (f v, g v)) = ((m.get? k).map g).getD [] := by
  have hkeys : m.values.map (fun v => (f v, g v)) = m.entries.map fun e => (e.1, g e.2) := by
    rw [Dict.values, List.map_map]
    refine List.map_congr_left fun e he => ?_
    exact Prod.ext (hf e.1 e.2 (Dict.mem_entries.1 he)) rfl
  have hone : ∀ es : List (κ × ν), (es.map Prod.fst).Nodup →
      listed k (es.map fun e => (e.1, g e.2)) = ((Dict.lookup k es).map g).getD [] := by
    intro es hes
    induction es with
    | nil => rfl
    | cons e es ih =>
      obtain ⟨hnot, hrest⟩ := List.nodup_cons.1 hes
      by_cases hk : e.1 = k
      · have hnone : k ∉ (es.map fun e => (e.1, g e.2)).map Prod.fst := by
          rw [List.map_map]
          exact hk ▸ hnot
        have hnil := listed_eq_nil hnone
        simp only [listed] at hnil
        simp [listed, Dict.lookup, hk, hnil]
      · have ih' := ih hrest
        simp only [listed] at ih'
        simp [listed, Dict.lookup, hk, ih']
  rw [hkeys]
  exact hone m.entries m.nodup

end Gather

/-- What is stored by an update hides what was there. -/
lemma Dict.get?_update {κ ν : Type*} [DecidableEq κ] (m m' : Dict κ ν) (k : κ) :
    (m.update m').get? k = (m'.get? k).or (m.get? k) := by
  have hfold : ∀ (es : List (κ × ν)) (m : Dict κ ν), (es.map Prod.fst).Nodup →
      (es.foldl (fun acc e => acc.set e.1 e.2) m).get? k = (Dict.lookup k es).or (m.get? k) := by
    intro es
    induction es with
    | nil => intro m _; simp [Dict.lookup]
    | cons e es ih =>
      intro m hes
      obtain ⟨hnot, hrest⟩ := List.nodup_cons.1 hes
      rw [List.foldl_cons, ih _ hrest, Dict.get?_set]
      by_cases hk : e.1 = k
      · have hnone : Dict.lookup k es = none := Dict.lookup_eq_none.2 (hk ▸ hnot)
        simp [Dict.lookup, hk, hnone]
      · simp [Dict.lookup, hk]
  exact hfold m'.entries m m'.nodup

end Lib
