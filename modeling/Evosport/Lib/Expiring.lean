/-
Memories with an expiry.

A memory stamps keys with the time at which they were met and answers whether a key was met within
a fixed span before.  So that it does not grow for ever it sweeps, whenever it likes, the stamps
that have expired.  As long as the clock does not run backwards the answers are those of the whole
history (`Remembers.isFresh_iff`): neither the sweeping nor the overwriting of older stamps shows.
-/
import Evosport.Lib.Dict
import Mathlib.Algebra.Order.Group.Defs
import Mathlib.Algebra.Order.Sub.Basic
import Mathlib.Tactic.Push

namespace Lib

variable {κ τ : Type*} [DecidableEq κ] [AddCommGroup τ] [LinearOrder τ] [IsOrderedAddMonoid τ]

omit [DecidableEq κ] in
/-- The entries whose value passes a test -/
def Dict.keep (m : Dict κ τ) (p : τ → Bool) : Dict κ τ :=
  ⟨m.entries.filter fun e => p e.2, m.nodup.sublist (List.filter_sublist.map Prod.fst)⟩

omit [AddCommGroup τ] [LinearOrder τ] [IsOrderedAddMonoid τ] in
lemma Dict.get?_keep {m : Dict κ τ} {p : τ → Bool} {k : κ} {t : τ} :
    (m.keep p).get? k = some t ↔ m.get? k = some t ∧ p t = true := by
  rw [← mem_entries, ← mem_entries, keep, List.mem_filter]

/-- Whether a key was stamped within the span before `now` -/
def isFresh (span now : τ) (m : Dict κ τ) (k : κ) : Bool :=
  match m.get? k with
  | some t => decide (now - t < span)
  | none => false

omit [IsOrderedAddMonoid τ] in
lemma isFresh_eq_true {span now : τ} {m : Dict κ τ} {k : κ} :
    isFresh span now m k = true ↔ ∃ t, m.get? k = some t ∧ now - t < span := by
  unfold isFresh
  cases m.get? k <;> simp

/-- The memory holds stamps of the history, none of them from the future, and for every stamp that
has not expired one that is at least as new. -/
structure Remembers (span : τ) (log : List (κ × τ)) (now : τ) (m : Dict κ τ) : Prop where
  logged : ∀ k t, m.get? k = some t → (k, t) ∈ log
  recent : ∀ k t, (k, t) ∈ log → now - t < span → ∃ t', m.get? k = some t' ∧ t ≤ t'
  past : ∀ k t, (k, t) ∈ log → t ≤ now

namespace Remembers

variable {span now now' : τ} {log : List (κ × τ)} {m : Dict κ τ}

omit [IsOrderedAddMonoid τ] in
lemma init (span now : τ) : Remembers span ([] : List (κ × τ)) now .empty :=
  ⟨fun _ _ h => (nomatch h), fun _ _ h => absurd h List.not_mem_nil,
    fun _ _ h => absurd h List.not_mem_nil⟩

/-- Time passes. -/
lemma later (h : Remembers span log now m) (hnow : now ≤ now') : Remembers span log now' m := by
  constructor
  case logged => exact h.logged
  case recent =>
    intro k t hmem hspan
    exact h.recent k t hmem (lt_of_le_of_lt (sub_le_sub_right hnow t) hspan)
  case past => exact fun k t hmem => (h.past k t hmem).trans hnow

omit [IsOrderedAddMonoid τ] in
/-- A key is stamped. -/
lemma touch (h : Remembers span log now m) (k : κ) :
    Remembers span (log ++ [(k, now)]) now (m.set k now) := by
  constructor
  case logged =>
    intro k' t hget
    rw [Dict.get?_set] at hget
    split_ifs at hget with hk
    · obtain rfl := Option.some.inj hget
      exact List.mem_append_right _ (by rw [hk]; exact List.mem_singleton_self _)
    · exact List.mem_append_left _ (h.logged k' t hget)
  case recent =>
    intro k' t hmem hspan
    rw [Dict.get?_set]
    by_cases hk : k = k'
    · refine ⟨now, if_pos hk, ?_⟩
      rcases List.mem_append.1 hmem with hold | hnew
      · exact h.past k' t hold
      · obtain ⟨-, rfl⟩ := Prod.mk.inj (List.mem_singleton.1 hnew)
        exact le_rfl
    · rw [if_neg hk]
      rcases List.mem_append.1 hmem with hold | hnew
      · exact h.recent k' t hold hspan
      · exact absurd (Prod.mk.inj (List.mem_singleton.1 hnew)).1.symm hk
  case past =>
    intro k' t hmem
    rcases List.mem_append.1 hmem with hold | hnew
    · exact h.past k' t hold
    · obtain ⟨-, rfl⟩ := Prod.mk.inj (List.mem_singleton.1 hnew)
      exact le_rfl

/-- What has expired is swept. -/
lemma sweep (h : Remembers span log now m) :
    Remembers span log now (m.keep fun t => decide (now - span ≤ t)) := by
  constructor
  case logged => exact fun k t hget => h.logged k t (Dict.get?_keep.1 hget).1
  case recent =>
    intro k t hmem hspan
    obtain ⟨t', hget, hle⟩ := h.recent k t hmem hspan
    refine ⟨t', Dict.get?_keep.2 ⟨hget, ?_⟩, hle⟩
    have hkept : now - span < t := sub_lt_comm.1 hspan
    simpa using hkept.le.trans hle
  case past => exact h.past

/-- The answer is the one of the whole history. -/
lemma isFresh_iff (h : Remembers span log now m) (k : κ) :
    isFresh span now m k = true ↔ ∃ t, (k, t) ∈ log ∧ now - t < span := by
  rw [isFresh_eq_true]
  constructor
  · rintro ⟨t, hget, hspan⟩
    exact ⟨t, h.logged k t hget, hspan⟩
  · rintro ⟨t, hmem, hspan⟩
    obtain ⟨t', hget, hle⟩ := h.recent k t hmem hspan
    exact ⟨t', hget, lt_of_le_of_lt (sub_le_sub_left hle now) hspan⟩

lemma isFresh_eq_false (h : Remembers span log now m) (k : κ) :
    isFresh span now m k = false ↔ ∀ t, (k, t) ∈ log → span ≤ now - t := by
  rw [← Bool.not_eq_true, h.isFresh_iff]
  push Not
  rfl

end Remembers

end Lib
