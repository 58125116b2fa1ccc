/-
Token buckets.

A bucket holds tokens up to a capacity and gains them at a rate.  `Accounted` relates it to the
grants that have been made from it: from any time on, what has been granted and what is still held
come to at most the capacity and the gain since then.  Refilling and granting keep this
(`Accounted.refill`, `Accounted.take`), and so in every interval at most the capacity and the gain
of the interval are granted (`Accounted.within`).
-/
import Mathlib.Algebra.Order.Field.Basic
import Mathlib.Tactic.Linarith
import Mathlib.Tactic.Ring

namespace Lib

variable {K : Type*} [Field K] [LinearOrder K]

/-- A bucket of tokens that refills at a constant rate up to its capacity. -/
structure Bucket (K : Type*) where
  capacity : K
  tokens : K
  refillRate : K
  lastRefill : K
deriving DecidableEq, Repr

namespace Bucket

/-- The tokens gained up to now are added, as far as they fit. -/
def refill (b : Bucket K) (now : K) : Bucket K :=
  { b with
    tokens := min b.capacity (b.tokens + (now - b.lastRefill) * b.refillRate)
    lastRefill := now }

/-- Some tokens are taken out. -/
def take (b : Bucket K) (amount : K) : Bucket K := { b with tokens := b.tokens - amount }

end Bucket

/-- What has been granted from a time on; a grant is a time and an amount. -/
def grantedSince (grants : List (K × K)) (start : K) : K :=
  ((grants.filter fun g => start ≤ g.1).map Prod.snd).sum

/-- What has been granted between two times. -/
def grantedWithin (grants : List (K × K)) (start stop : K) : K :=
  ((grants.filter fun g => start ≤ g.1 ∧ g.1 ≤ stop).map Prod.snd).sum

/-- The grants from a bucket are paid for by its capacity and by what it has gained. -/
structure Accounted (grants : List (K × K)) (b : Bucket K) : Prop where
  rate_nonneg : 0 ≤ b.refillRate
  tokens_nonneg : 0 ≤ b.tokens
  tokens_le : b.tokens ≤ b.capacity
  past : ∀ g ∈ grants, g.1 ≤ b.lastRefill
  paid : ∀ start ≤ b.lastRefill,
    grantedSince grants start + b.tokens ≤ b.capacity + b.refillRate * (b.lastRefill - start)
  within : ∀ start stop, start ≤ stop →
    grantedWithin grants start stop ≤ b.capacity + b.refillRate * (stop - start)

section Granted

variable {grants : List (K × K)} {start stop time amount : K}

lemma grantedSince_cons : grantedSince ((time, amount) :: grants) start =
    (if start ≤ time then amount else 0) + grantedSince grants start := by
  rw [grantedSince, List.filter_cons]
  by_cases h : start ≤ time
  · rw [if_pos (decide_eq_true h), if_pos h, List.map_cons, List.sum_cons, grantedSince]
  · rw [if_neg (by simpa using h), if_neg h, zero_add, grantedSince]

lemma grantedWithin_cons : grantedWithin ((time, amount) :: grants) start stop =
    (if start ≤ time ∧ time ≤ stop then amount else 0) + grantedWithin grants start stop := by
  rw [grantedWithin, List.filter_cons]
  by_cases h : start ≤ time ∧ time ≤ stop
  · rw [if_pos (decide_eq_true h), if_pos h, List.map_cons, List.sum_cons, grantedWithin]
  · rw [if_neg (by simpa using h), if_neg h, zero_add, grantedWithin]

/-- After the last grant nothing has been granted. -/
lemma grantedSince_of_past (h : ∀ g ∈ grants, g.1 < start) : grantedSince grants start = 0 := by
  have hnone : grants.filter (fun g => start ≤ g.1) = [] :=
    List.filter_eq_nil_iff.2 fun g hg => by simpa using h g hg
  rw [grantedSince, hnone, List.map_nil, List.sum_nil]

/-- An interval that holds all grants since its start. -/
lemma grantedWithin_eq (h : ∀ g ∈ grants, g.1 ≤ stop) :
    grantedWithin grants start stop = grantedSince grants start := by
  rw [grantedWithin, grantedSince]
  congr 2
  refine List.filter_congr fun g hg => ?_
  rw [decide_eq_decide, and_iff_left (h g hg)]

end Granted

namespace Accounted

variable [IsStrictOrderedRing K] {grants : List (K × K)} {b : Bucket K}

/-- A full bucket without grants. -/
lemma full {capacity refillRate now : K} (hcapacity : 0 ≤ capacity) (hrate : 0 ≤ refillRate) :
    Accounted [] ⟨capacity, capacity, refillRate, now⟩ where
  rate_nonneg := hrate
  tokens_nonneg := hcapacity
  tokens_le := le_rfl
  past := fun g hg => absurd hg List.not_mem_nil
  paid := by
    intro start hstart
    have hgain := mul_nonneg hrate (sub_nonneg.2 hstart)
    rw [grantedSince_of_past fun g hg => absurd hg List.not_mem_nil, zero_add]
    exact le_add_of_nonneg_right hgain
  within := by
    intro start stop hle
    exact add_nonneg hcapacity (mul_nonneg hrate (sub_nonneg.2 hle))

lemma refill (h : Accounted grants b) {now : K} (hnow : b.lastRefill ≤ now) :
    Accounted grants (b.refill now) where
  rate_nonneg := h.rate_nonneg
  tokens_nonneg := by
    have hgain := mul_nonneg (sub_nonneg.2 hnow) h.rate_nonneg
    exact le_min (h.tokens_nonneg.trans h.tokens_le) (add_nonneg h.tokens_nonneg hgain)
  tokens_le := min_le_left _ _
  past := fun g hg => (h.past g hg).trans hnow
  paid := by
    intro start hstart
    change grantedSince grants start + min b.capacity _ ≤ b.capacity + b.refillRate * (now - start)
    rcases le_or_gt start b.lastRefill with hbefore | hafter
    · -- the gain since the start contains the gain since the last refill
      have hpaid := h.paid start hbefore
      have hmost := min_le_right b.capacity (b.tokens + (now - b.lastRefill) * b.refillRate)
      have hsplit : b.refillRate * (now - start) =
          b.refillRate * (b.lastRefill - start) + (now - b.lastRefill) * b.refillRate := by ring
      linarith
    · have hgain := mul_nonneg h.rate_nonneg (sub_nonneg.2 hstart)
      rw [grantedSince_of_past fun g hg => (h.past g hg).trans_lt hafter, zero_add]
      exact (min_le_left _ _).trans (le_add_of_nonneg_right hgain)
  within := h.within

/-- A refill does not take tokens away. -/
lemma le_tokens_refill (h : Accounted grants b) {now : K} (hnow : b.lastRefill ≤ now) :
    b.tokens ≤ (b.refill now).tokens := by
  have hgain := mul_nonneg (sub_nonneg.2 hnow) h.rate_nonneg
  exact le_min h.tokens_le (le_add_of_nonneg_right hgain)

/-- Tokens that are there may be granted at the time of the last refill. -/
lemma take (h : Accounted grants b) {amount : K} (hamount : 0 ≤ amount) (hle : amount ≤ b.tokens) :
    Accounted ((b.lastRefill, amount) :: grants) (b.take amount) where
  rate_nonneg := h.rate_nonneg
  tokens_nonneg := sub_nonneg.2 hle
  tokens_le := (sub_le_self _ hamount).trans h.tokens_le
  past := List.forall_mem_cons.2 ⟨le_rfl, h.past⟩
  paid := by
    intro start hstart
    have hpaid := h.paid start hstart
    change start ≤ b.lastRefill at hstart
    change grantedSince _ start + (b.tokens - amount) ≤ _
    rw [grantedSince_cons, if_pos hstart]
    exact le_of_eq_of_le (by ring) hpaid
  within := by
    intro start stop hle'
    have hwithin := h.within start stop hle'
    rw [grantedWithin_cons]
    split
    · next hinside =>
      -- all grants since the start are in the interval
      have hpaid := h.paid start hinside.1
      have hmore := mul_le_mul_of_nonneg_left (sub_le_sub_right hinside.2 start) h.rate_nonneg
      rw [grantedWithin_eq fun g hg => (h.past g hg).trans hinside.2]
      change _ ≤ b.capacity + b.refillRate * (stop - start)
      linarith
    · rw [zero_add]
      exact hwithin

end Accounted

end Lib
