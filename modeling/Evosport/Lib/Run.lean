/-
Runs of a state machine given by a step function.

A run from `s` over the inputs `is` is the fold `is.foldl step s`.  `EveryStep step C s is`
says that every step of the run meets the condition `C`, which may look at the state
before the step and at the input.  The induction over a run is done here once: an
invariant that is preserved by the steps meeting `C` holds in every state of a run all of
whose steps meet `C` (`EveryStep.invariant`), also when the invariant mentions the inputs
consumed so far (`EveryStep.history`).
-/
import Mathlib.Data.List.Basic
import Mathlib.Data.List.Infix

namespace Lib

variable {σ ι : Type*}

/-- Every step of the run of `step` from `s` meets `C`. -/
def EveryStep (step : σ → ι → σ) (C : σ → ι → Prop) : σ → List ι → Prop
  | _, [] => True
  | s, i :: is => C s i ∧ EveryStep step C (step s i) is

namespace EveryStep

variable {step : σ → ι → σ} {C : σ → ι → Prop}

instance instDecidable [∀ s i, Decidable (C s i)] :
    ∀ (s : σ) (is : List ι), Decidable (EveryStep step C s is)
  | _, [] => inferInstanceAs (Decidable True)
  | s, i :: is =>
    haveI := instDecidable (step s i) is
    inferInstanceAs (Decidable (_ ∧ _))

@[simp] lemma nil (s : σ) : EveryStep step C s [] := trivial

lemma of_forall (h : ∀ s i, C s i) {s : σ} {is : List ι} : EveryStep step C s is := by
  induction is generalizing s with
  | nil => trivial
  | cons i is ih => exact ⟨h s i, ih⟩

lemma append {s : σ} {is js : List ι} :
    EveryStep step C s (is ++ js) ↔
      EveryStep step C s is ∧ EveryStep step C (is.foldl step s) js := by
  induction is generalizing s with
  | nil => simp
  | cons i is ih => simp [EveryStep, ih, and_assoc]

lemma snoc {s : σ} {is : List ι} {i : ι} :
    EveryStep step C s (is ++ [i]) ↔ EveryStep step C s is ∧ C (is.foldl step s) i := by
  simp [append, EveryStep]

/-- Under an invariant of the steps, conditions that agree on it agree on the run. -/
lemma congr {D : σ → ι → Prop} {I : σ → Prop} (hstep : ∀ s i, I s → I (step s i))
    (hiff : ∀ s i, I s → (C s i ↔ D s i)) {s : σ} (hs : I s) {is : List ι} :
    EveryStep step C s is ↔ EveryStep step D s is := by
  induction is generalizing s with
  | nil => exact Iff.rfl
  | cons i is ih => exact and_congr (hiff s i hs) (ih (hstep s i hs))

/-- A prefix of a run all of whose steps meet `C` is such a run. -/
lemma of_prefix {s : σ} {pre is : List ι} (h : EveryStep step C s is) (hpre : pre <+: is) :
    EveryStep step C s pre := by
  obtain ⟨rest, rfl⟩ := hpre
  exact (append.1 h).1

/-- An invariant of the steps that meet `C`, which may mention the inputs consumed so far,
holds after a run all of whose steps meet `C`. -/
lemma history {I : List ι → σ → Prop} {s : σ} {is : List ι} (h : EveryStep step C s is)
    (hnil : I [] s)
    (hstep : ∀ pre i, I pre (pre.foldl step s) → C (pre.foldl step s) i →
      I (pre ++ [i]) (step (pre.foldl step s) i)) :
    I is (is.foldl step s) := by
  induction is using List.reverseRecOn with
  | nil => exact hnil
  | append_singleton is i ih =>
    obtain ⟨his, hi⟩ := snoc.1 h
    rw [List.foldl_append]
    exact hstep is i (ih his) hi

/-- An invariant of the steps that meet `C` holds after a run all of whose steps meet
`C`. -/
lemma invariant {I : σ → Prop} {s : σ} {is : List ι} (h : EveryStep step C s is) (hs : I s)
    (hstep : ∀ s i, I s → C s i → I (step s i)) : I (is.foldl step s) :=
  h.history (I := fun _ s => I s) hs fun pre i hpre hi => hstep (pre.foldl step s) i hpre hi

/-- Under an invariant of the steps that meet `C`, the condition may be strengthened to what it
implies there. -/
lemma imp_of_invariant {D : σ → ι → Prop} {I : σ → Prop} {s : σ} {is : List ι}
    (h : EveryStep step C s is) (hs : I s) (hstep : ∀ s i, I s → C s i → I (step s i))
    (himp : ∀ s i, I s → C s i → D s i) : EveryStep step D s is := by
  induction is generalizing s with
  | nil => trivial
  | cons i is ih => exact ⟨himp s i hs h.1, ih h.2 (hstep s i hs h.1)⟩

/-- The condition can be read off the states before each step. -/
lemma of_forall_prefix {s : σ} {is : List ι}
    (h : ∀ pre i, pre ++ [i] <+: is → C (pre.foldl step s) i) : EveryStep step C s is := by
  induction is using List.reverseRecOn with
  | nil => trivial
  | append_singleton is i ih =>
    refine snoc.2 ⟨ih fun pre j hpre => h pre j ?_, h is i (List.prefix_refl _)⟩
    exact hpre.trans (List.prefix_append is [i])

lemma of_forall_mem {s : σ} {is : List ι} (h : ∀ i ∈ is, ∀ s, C s i) : EveryStep step C s is := by
  induction is generalizing s with
  | nil => trivial
  | cons i is ih =>
    exact ⟨h i List.mem_cons_self s, ih fun j hj => h j (List.mem_cons_of_mem i hj)⟩

/-- A condition on the inputs alone holds of every input. -/
lemma of_mem {P : ι → Prop} {s : σ} {is : List ι} (h : EveryStep step (fun _ i => P i) s is) :
    ∀ i ∈ is, P i := by
  induction is generalizing s with
  | nil => simp
  | cons i is ih =>
    intro j hj
    rcases List.mem_cons.1 hj with rfl | hj
    · exact h.1
    · exact ih h.2 j hj

end EveryStep

/-- An invariant of every step holds after every run. -/
lemma foldl_invariant {step : σ → ι → σ} {I : σ → Prop} (hstep : ∀ s i, I s → I (step s i))
    {s : σ} (hs : I s) (is : List ι) : I (is.foldl step s) := by
  induction is generalizing s with
  | nil => exact hs
  | cons i is ih => exact ih (hstep s i hs)

/-! ## What a run emits -/

/-- What the steps of a run emit. -/
def outputs {ω : Type*} (step : σ → ι → σ) (out : σ → ι → List ω) : σ → List ι → List ω
  | _, [] => []
  | s, i :: is => out s i ++ outputs step out (step s i) is

lemma outputs_append {ω : Type*} (step : σ → ι → σ) (out : σ → ι → List ω) (s : σ)
    (is js : List ι) :
    outputs step out s (is ++ js) =
      outputs step out s is ++ outputs step out (is.foldl step s) js := by
  induction is generalizing s with
  | nil => rfl
  | cons i is ih => rw [List.cons_append, outputs, outputs, ih, List.append_assoc, List.foldl_cons]

/-- When each step moves the projection as its emissions move a second machine, so does a
run. -/
lemma foldl_outputs {τ ω : Type*} {step : σ → ι → σ} {out : σ → ι → List ω} (π : σ → τ)
    (next : τ → ω → τ) (hstep : ∀ s i, π (step s i) = (out s i).foldl next (π s)) (s : σ)
    (is : List ι) : π (is.foldl step s) = (outputs step out s is).foldl next (π s) := by
  induction is generalizing s with
  | nil => rfl
  | cons i is ih => rw [outputs, List.foldl_append, List.foldl_cons, ih, hstep]

lemma mem_outputs {ω : Type*} {step : σ → ι → σ} {out : σ → ι → List ω} {s : σ} {is : List ι}
    {x : ω} (h : x ∈ outputs step out s is) : ∃ s' i, x ∈ out s' i := by
  induction is generalizing s with
  | nil => cases h
  | cons i is ih =>
    rcases List.mem_append.1 h with h | h
    · exact ⟨s, i, h⟩
    · exact ih h

/-- What a run emits has what every step's emissions have, by an invariant of the steps. -/
lemma forall_mem_outputs {ω : Type*} {step : σ → ι → σ} {out : σ → ι → List ω} {I : σ → Prop}
    {P : ω → Prop} {is : List ι} (hstep : ∀ s, ∀ i ∈ is, I s → I (step s i))
    (hout : ∀ s, ∀ i ∈ is, I s → ∀ x ∈ out s i, P x) {s : σ} (hs : I s) :
    ∀ x ∈ outputs step out s is, P x := by
  induction is generalizing s with
  | nil => simp [outputs]
  | cons i is ih =>
    have hhead : i ∈ i :: is := List.mem_cons_self
    intro x hx
    rcases List.mem_append.1 hx with hx | hx
    · exact hout s i hhead hs x hx
    · exact ih (fun s j hj => hstep s j (List.mem_cons_of_mem _ hj))
        (fun s j hj => hout s j (List.mem_cons_of_mem _ hj)) (hstep s i hhead hs) x hx

/-! ## Reachability by a class of inputs -/

/-- `s'` is reached from `s` by inputs in `C`. -/
def Reaches (step : σ → ι → σ) (C : ι → Prop) (s s' : σ) : Prop :=
  ∃ is : List ι, (∀ i ∈ is, C i) ∧ s' = is.foldl step s

namespace Reaches

variable {step : σ → ι → σ} {C : ι → Prop} {s s₁ s₂ : σ}

lemma refl (s : σ) : Reaches step C s s := ⟨[], by simp, rfl⟩

lemma single {i : ι} (hi : C i) : Reaches step C s (step s i) := ⟨[i], by simpa using hi, rfl⟩

lemma trans (h : Reaches step C s s₁) (h' : Reaches step C s₁ s₂) : Reaches step C s s₂ := by
  obtain ⟨is, his, rfl⟩ := h
  obtain ⟨js, hjs, rfl⟩ := h'
  refine ⟨is ++ js, fun i hi => ?_, by rw [List.foldl_append]⟩
  rcases List.mem_append.1 hi with hi | hi
  · exact his i hi
  · exact hjs i hi

lemma mono {D : ι → Prop} (h : Reaches step C s s₁) (hCD : ∀ i, C i → D i) :
    Reaches step D s s₁ := by
  obtain ⟨is, his, rfl⟩ := h
  exact ⟨is, fun i hi => hCD i (his i hi), rfl⟩

/-- An invariant of the steps in `C` holds in the states they reach. -/
lemma invariant {I : σ → Prop} (h : Reaches step C s s₁) (hs : I s)
    (hstep : ∀ s i, C i → I s → I (step s i)) : I s₁ := by
  obtain ⟨is, his, rfl⟩ := h
  induction is generalizing s with
  | nil => exact hs
  | cons i is ih =>
    exact ih (hstep s i (his i List.mem_cons_self) hs) fun j hj => his j (List.mem_cons_of_mem i hj)

end Reaches

end Lib
