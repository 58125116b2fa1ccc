/-
The rate limiter of the exchange's endpoints (`utils/rate_limiter.py`).

Each endpoint has a token bucket.  A caller that finds too few tokens sleeps and looks again; it
sleeps outside the lock, so any number of callers sleep at once, and what happens between two looks
is one step here.  The lock is never held across an await, so it orders nothing more.  A sleep may
end at any time.

`rateLimiter_bounded`: whatever the order of the steps, in an interval an endpoint grants at most its
capacity and what it gains in the interval.

The clock gives its readings one after the other, `clock n` is reading number `n`.  The slots that
cap the requests in flight are apart from the buckets and are left out, except for their limits,
which the status shows.
-/
import Evosport.Lib.Dict
import Evosport.Lib.Run
import Evosport.Lib.TokenBucket
import Mathlib.Data.Rat.Cast.Order

namespace Evosport.Utils

open Lib

/-! ## Limits -/

/-- `RateLimitConfig`: how many requests a window of time may have, and how many at once. -/
structure RateLimitConfig where
  requestsPerWindow : ℕ
  windowSeconds : ℕ := 10
  burstLimit : Option ℕ := none
deriving DecidableEq, Repr

/-- `LIMITS`: the requests allowed in a window for each endpoint; without a burst limit the bucket
holds a whole window. -/
def limits : List (String × RateLimitConfig) :=
  [("gamma_general", { requestsPerWindow := 4000 }),
    ("gamma_markets", { requestsPerWindow := 120, burstLimit := some 12 }),
    ("gamma_events", { requestsPerWindow := 500 }),
    ("gamma_search", { requestsPerWindow := 350, burstLimit := some 70 }),
    ("clob_general", { requestsPerWindow := 9000 }),
    ("clob_market", { requestsPerWindow := 1500 }),
    ("clob_markets_batch", { requestsPerWindow := 500 }),
    ("clob_prices_history", { requestsPerWindow := 1000 }),
    ("data_general", { requestsPerWindow := 1000 }),
    ("data_trades", { requestsPerWindow := 120, burstLimit := some 12 }),
    ("data_positions", { requestsPerWindow := 30, burstLimit := some 3 })]

/-- `GLOBAL_INFLIGHT_LIMIT` -/
def globalInflightLimit : ℕ := 16

/-- `ENDPOINT_INFLIGHT_LIMITS` -/
def endpointInflightLimits : List (String × ℕ) :=
  [("data_positions", 2), ("data_trades", 4), ("gamma_events", 6), ("gamma_markets", 2),
    ("gamma_search", 4), ("clob_prices_history", 4), ("clob_market", 8), ("clob_markets_batch", 8)]

/-- The configuration of an endpoint, the default one for those that are not listed. -/
def configOf (endpoint : String) : RateLimitConfig :=
  (Dict.lookup endpoint limits).getD { requestsPerWindow := 1000 }

/-- `config.burst_limit or config.requests_per_window` -/
def RateLimitConfig.capacity (config : RateLimitConfig) : ℚ :=
  ((config.burstLimit.filter (· ≠ 0)).getD config.requestsPerWindow : ℕ)

/-- `config.requests_per_window / config.window_seconds` -/
def RateLimitConfig.refillRate (config : RateLimitConfig) : ℚ :=
  config.requestsPerWindow / config.windowSeconds

/-! ## Buckets -/

/-- `TokenBucket` over exact amounts. -/
abbrev TokenBucket := Bucket ℚ

/-- `consume` -/
def consume (bucket : TokenBucket) (now : ℚ) (tokens : ℕ) : TokenBucket × Bool :=
  let bucket := bucket.refill now
  if bucket.tokens ≥ tokens then (bucket.take tokens, true) else (bucket, false)

/-- `wait_time` -/
def waitTime (bucket : TokenBucket) (now : ℚ) (tokens : ℕ) : TokenBucket × ℚ :=
  let bucket := bucket.refill now
  if bucket.tokens ≥ tokens then (bucket, 0)
  else (bucket, (tokens - bucket.tokens) / bucket.refillRate)

/-! ## The limiter -/

/-- A call of `acquire`; it has returned once the time it waited is returned. -/
structure Call where
  endpoint : String
  tokens : ℕ
  totalWaited : ℚ := 0
  returned : Option ℚ := none
deriving DecidableEq, Repr

/-- Tokens that `acquire` has granted: when, for which endpoint, and how many. -/
structure Grant where
  time : ℚ
  endpoint : String
  tokens : ℕ
deriving DecidableEq, Repr

/-- The buckets, how often the clock has been read, the calls so far and the grants, newest first. -/
structure RateLimiter where
  buckets : Dict String TokenBucket := .empty
  reads : ℕ := 0
  calls : List Call := []
  grants : List Grant := []

/-- A row of `get_status` -/
structure EndpointStatus where
  availableTokens : ℚ
  capacity : ℚ
  refillRate : ℚ
  limit : String
  inflightLimit : ℕ
deriving DecidableEq, Repr

section Operations

variable (clock : ℕ → ℚ)

/-- A bucket is written back after the clock has been read for it. -/
def RateLimiter.put (s : RateLimiter) (endpoint : String) (bucket : TokenBucket) : RateLimiter :=
  { s with buckets := s.buckets.set endpoint bucket, reads := s.reads + 1 }

/-- `_get_bucket` -/
def getBucket (endpoint : String) (s : RateLimiter) : TokenBucket × RateLimiter :=
  match s.buckets.get? endpoint with
  | some bucket => (bucket, s)
  | none =>
    let config := configOf endpoint
    let bucket : TokenBucket := ⟨config.capacity, config.capacity, config.refillRate, clock s.reads⟩
    (bucket, s.put endpoint bucket)

/-- `acquire`, from one look at the bucket to the sleep behind it or to the return -/
def resume (id : ℕ) (s : RateLimiter) : RateLimiter :=
  match s.calls[id]? with
  | none => s
  | some call =>
    if call.returned.isSome then s
    else
      let (bucket, s) := getBucket clock call.endpoint s
      let (bucket, wait) := waitTime bucket (clock s.reads) call.tokens
      let s := s.put call.endpoint bucket
      if wait ≤ 0 then
        let now := clock s.reads
        let (bucket, _) := consume bucket now call.tokens
        let s := s.put call.endpoint bucket
        { s with
          calls := s.calls.set id { call with returned := some call.totalWaited }
          grants := ⟨now, call.endpoint, call.tokens⟩ :: s.grants }
      else
        { s with calls := s.calls.set id { call with totalWaited := call.totalWaited + wait } }

/-- `check` -/
def check (endpoint : String) (tokens : ℕ) (s : RateLimiter) : RateLimiter × Bool :=
  let (bucket, s) := getBucket clock endpoint s
  let bucket := bucket.refill (clock s.reads)
  (s.put endpoint bucket, bucket.tokens ≥ tokens)

/-- The row of a bucket in `get_status` -/
def statusOf (endpoint : String) (bucket : TokenBucket) : EndpointStatus :=
  { availableTokens := bucket.tokens
    capacity := bucket.capacity
    refillRate := bucket.refillRate
    limit := match Dict.lookup endpoint limits with
      | some config => toString config.requestsPerWindow ++ "/" ++ toString config.windowSeconds ++ "s"
      | none => "default"
    inflightLimit := (Dict.lookup endpoint endpointInflightLimits).getD globalInflightLimit }

/-- The loop of `get_status`, for one entry -/
def addStatus : RateLimiter × List (String × EndpointStatus) → String × TokenBucket →
    RateLimiter × List (String × EndpointStatus)
  | (s, status), (endpoint, bucket) =>
    let bucket := bucket.refill (clock s.reads)
    (s.put endpoint bucket, status ++ [(endpoint, statusOf endpoint bucket)])

/-- `get_status` -/
def getStatus (s : RateLimiter) : RateLimiter × List (String × EndpointStatus) :=
  s.buckets.entries.foldl (addStatus clock) (s, [])

/-- What can happen next: a call comes in, a call looks at its bucket, or the limiter is read. -/
inductive Event where
  | acquire (endpoint : String) (tokens : ℕ)
  | resume (id : ℕ)
  | check (endpoint : String) (tokens : ℕ)
  | getStatus
deriving DecidableEq, Repr

/-- One event: a caller arrives, a caller goes on after its wait, or somebody reads the state. -/
def RateLimiter.step (s : RateLimiter) : Event → RateLimiter
  | .acquire endpoint tokens => { s with calls := s.calls ++ [{ endpoint, tokens }] }
  | .resume id => resume clock id s
  | .check endpoint tokens => (check clock endpoint tokens s).1
  | .getStatus => (getStatus clock s).1

end Operations

/-- The grants of an endpoint, each with its time. -/
def grantsOf (endpoint : String) (grants : List Grant) : List (ℚ × ℚ) :=
  (grants.filter fun g => g.endpoint = endpoint).map fun g => (g.time, (g.tokens : ℚ))

lemma grantsOf_cons_self (time : ℚ) (endpoint : String) (tokens : ℕ) (grants : List Grant) :
    grantsOf endpoint (⟨time, endpoint, tokens⟩ :: grants) =
      (time, (tokens : ℚ)) :: grantsOf endpoint grants := by
  simp [grantsOf]

lemma grantsOf_cons_of_ne {g : Grant} {endpoint : String} (h : endpoint ≠ g.endpoint)
    (grants : List Grant) : grantsOf endpoint (g :: grants) = grantsOf endpoint grants := by
  simp [grantsOf, h.symm]

/-! ## What every step keeps -/

/-- The bucket of an endpoint: it has the capacity and the rate of the endpoint, has been refilled
before the time, and pays for the grants. -/
structure Kept (endpoint : String) (time : ℚ) (grants : List (ℚ × ℚ)) (bucket : TokenBucket) :
    Prop where
  capacity_eq : bucket.capacity = (configOf endpoint).capacity
  rate_eq : bucket.refillRate = (configOf endpoint).refillRate
  refilled : bucket.lastRefill ≤ time
  accounted : Accounted grants bucket

/-- Every bucket is kept with the grants of its endpoint; without a bucket there are none. -/
def Safe (clock : ℕ → ℚ) (s : RateLimiter) : Prop :=
  ∀ endpoint, match s.buckets.get? endpoint with
    | some bucket => Kept endpoint (clock s.reads) (grantsOf endpoint s.grants) bucket
    | none => grantsOf endpoint s.grants = []

lemma positive_of_mem : ∀ entry ∈ limits, 0 < entry.2.capacity ∧ 0 < entry.2.refillRate := by
  decide +kernel

/-- Every endpoint has a capacity and a rate. -/
lemma configOf_pos (endpoint : String) :
    0 < (configOf endpoint).capacity ∧ 0 < (configOf endpoint).refillRate := by
  rw [configOf]
  cases hlisted : Dict.lookup endpoint limits with
  | none => decide +kernel
  | some config => exact positive_of_mem (endpoint, config) (Dict.mem_of_lookup hlisted)

section Keeping

variable {clock : ℕ → ℚ} {s : RateLimiter} {endpoint : String} {bucket : TokenBucket}
  {grants : List (ℚ × ℚ)} {time now : ℚ} {tokens : ℕ}

namespace Kept

lemma mono (h : Kept endpoint time grants bucket) (hle : time ≤ now) :
    Kept endpoint now grants bucket :=
  { h with refilled := h.refilled.trans hle }

/-- A new bucket is full. -/
lemma new (endpoint : String) (time : ℚ) : Kept endpoint time []
    ⟨(configOf endpoint).capacity, (configOf endpoint).capacity, (configOf endpoint).refillRate,
      time⟩ where
  capacity_eq := rfl
  rate_eq := rfl
  refilled := le_rfl
  accounted := .full (configOf_pos endpoint).1.le (configOf_pos endpoint).2.le

lemma refill (h : Kept endpoint time grants bucket) (hle : time ≤ now) :
    Kept endpoint now grants (bucket.refill now) where
  capacity_eq := h.capacity_eq
  rate_eq := h.rate_eq
  refilled := le_rfl
  accounted := h.accounted.refill (h.refilled.trans hle)

lemma rate_pos (h : Kept endpoint time grants bucket) : 0 < bucket.refillRate := by
  rw [h.rate_eq]
  exact (configOf_pos endpoint).2

/-- A caller need not wait exactly if there are enough tokens. -/
lemma waitTime_nonpos_iff (h : Kept endpoint time grants bucket) :
    (waitTime bucket now tokens).2 ≤ 0 ↔ tokens ≤ (bucket.refill now).tokens := by
  rw [waitTime]
  split
  · next henough => exact iff_of_true le_rfl henough
  · next hshort =>
    have hneeded : 0 < tokens - (bucket.refill now).tokens := sub_pos.2 (not_le.1 hshort)
    exact iff_of_false (not_le.2 (div_pos hneeded h.rate_pos)) hshort

lemma waitTime_fst (bucket : TokenBucket) (now : ℚ) (tokens : ℕ) :
    (waitTime bucket now tokens).1 = bucket.refill now := by
  rw [waitTime]
  split <;> rfl

/-- Tokens that are there are consumed, and the grant is paid for. -/
lemma consume (h : Kept endpoint time grants bucket) (hle : time ≤ now)
    (henough : tokens ≤ bucket.tokens) :
    Kept endpoint now ((now, (tokens : ℚ)) :: grants) (consume bucket now tokens).1 := by
  have hrefill := h.refill hle
  have hstill : tokens ≤ (bucket.refill now).tokens :=
    henough.trans (h.accounted.le_tokens_refill (h.refilled.trans hle))
  rw [Utils.consume]
  rw [if_pos hstill]
  exact ⟨hrefill.capacity_eq, hrefill.rate_eq, le_rfl,
    hrefill.accounted.take (Nat.cast_nonneg tokens) hstill⟩

end Kept

namespace Safe

lemma kept (h : Safe clock s) (hbucket : s.buckets.get? endpoint = some bucket) :
    Kept endpoint (clock s.reads) (grantsOf endpoint s.grants) bucket := by
  have hsafe := h endpoint
  rwa [hbucket] at hsafe

lemma grants_nil (h : Safe clock s) (hbucket : s.buckets.get? endpoint = none) :
    grantsOf endpoint s.grants = [] := by
  have hsafe := h endpoint
  rwa [hbucket] at hsafe

/-- A bucket may be written back with new grants of its endpoint. -/
lemma write (hclock : Monotone clock) (h : Safe clock s) {calls : List Call} {grants : List Grant}
    (hothers : ∀ other ≠ endpoint, grantsOf other grants = grantsOf other s.grants)
    (hbucket : Kept endpoint (clock (s.reads + 1)) (grantsOf endpoint grants) bucket) :
    Safe clock { s.put endpoint bucket with calls := calls, grants := grants } := by
  intro other
  by_cases hsame : other = endpoint
  · subst hsame
    simp only [RateLimiter.put, Dict.get?_set_self]
    exact hbucket
  · have hsafe := h other
    simp only [RateLimiter.put, Dict.get?_set_of_ne _ _ (Ne.symm hsame), hothers other hsame]
    cases hother : s.buckets.get? other with
    | none => exact h.grants_nil hother
    | some bucket => exact (h.kept hother).mono (hclock (Nat.le_succ _))

lemma put (hclock : Monotone clock) (h : Safe clock s)
    (hbucket : Kept endpoint (clock (s.reads + 1)) (grantsOf endpoint s.grants) bucket) :
    Safe clock (s.put endpoint bucket) :=
  h.write hclock (fun _ _ => rfl) hbucket

/-- The bucket that `_get_bucket` returns is the one that the limiter has now. -/
lemma getBucket (hclock : Monotone clock) (h : Safe clock s) (endpoint : String) :
    Safe clock (getBucket clock endpoint s).2 ∧
      (getBucket clock endpoint s).2.grants = s.grants ∧
      Kept endpoint (clock (getBucket clock endpoint s).2.reads) (grantsOf endpoint s.grants)
        (getBucket clock endpoint s).1 := by
  cases hbucket : s.buckets.get? endpoint with
  | some bucket =>
    rw [Utils.getBucket, hbucket]
    exact ⟨h, rfl, h.kept hbucket⟩
  | none =>
    have hnew := (Kept.new endpoint (clock s.reads)).mono (hclock (Nat.le_succ s.reads))
    rw [← h.grants_nil hbucket] at hnew
    rw [Utils.getBucket, hbucket]
    exact ⟨h.put hclock hnew, rfl, hnew⟩

lemma check (hclock : Monotone clock) (h : Safe clock s) (endpoint : String) (tokens : ℕ) :
    Safe clock (check clock endpoint tokens s).1 := by
  obtain ⟨hsafe, hgrants, hkept⟩ := h.getBucket hclock endpoint
  rw [← hgrants] at hkept
  exact hsafe.put hclock ((hkept.refill le_rfl).mono (hclock (Nat.le_succ _)))

/-- Reading the status refills one bucket after the other. -/
lemma getStatus (hclock : Monotone clock) (h : Safe clock s) : Safe clock (getStatus clock s).1 := by
  have hkept : ∀ entry ∈ s.buckets.entries,
      Kept entry.1 (clock s.reads) (grantsOf entry.1 s.grants) entry.2 :=
    fun entry hentry => h.kept (Dict.mem_entries.1 hentry)
  rw [Utils.getStatus]
  generalize ([] : List (String × EndpointStatus)) = status
  generalize s.buckets.entries = entries at hkept ⊢
  induction entries generalizing s status with
  | nil => exact h
  | cons entry entries ih =>
    obtain ⟨hfirst, hrest⟩ := List.forall_mem_cons.1 hkept
    have htime := hclock (Nat.le_succ s.reads)
    rw [List.foldl_cons]
    refine ih (h.put hclock ((hfirst.refill le_rfl).mono htime)) _ fun e he => ?_
    exact (hrest e he).mono htime

/-- A look at the bucket grants what is there or sends the caller to sleep. -/
lemma resume (hclock : Monotone clock) (h : Safe clock s) (id : ℕ) :
    Safe clock (resume clock id s) := by
  rw [Utils.resume]
  cases s.calls[id]? with
  | none => exact h
  | some call =>
    obtain ⟨hsafe, hgrants, hkept⟩ := h.getBucket hclock call.endpoint
    rw [← hgrants] at hkept
    dsimp only
    split
    · exact h
    · set looked := Utils.getBucket clock call.endpoint s
      have hwaited : Kept call.endpoint (clock (looked.2.reads + 1))
          (grantsOf call.endpoint looked.2.grants)
          (waitTime looked.1 (clock looked.2.reads) call.tokens).1 := by
        rw [Kept.waitTime_fst]
        exact (hkept.refill le_rfl).mono (hclock (Nat.le_succ _))
      have hput := hsafe.put hclock hwaited
      split
      · next hwait =>
        -- the clock is read once more before the tokens are consumed
        have henough := hkept.waitTime_nonpos_iff.1 hwait
        rw [← Kept.waitTime_fst looked.1 (clock looked.2.reads) call.tokens] at henough
        refine hput.write hclock (fun other hother => grantsOf_cons_of_ne hother _) ?_
        rw [grantsOf_cons_self]
        exact (hwaited.consume le_rfl henough).mono (hclock (Nat.le_succ _))
      · exact hput

lemma step (hclock : Monotone clock) (h : Safe clock s) (event : Event) :
    Safe clock (s.step clock event) := by
  cases event with
  | acquire endpoint tokens => exact h
  | resume id => exact h.resume hclock id
  | check endpoint tokens => exact h.check hclock endpoint tokens
  | getStatus => exact h.getStatus hclock

/-- Before the first step there are neither buckets nor grants. -/
lemma init (clock : ℕ → ℚ) : Safe clock {} := fun _ => rfl

end Safe

end Keeping

/-! ## The bound -/

/-- The limiter after some steps. -/
def runLimiter (clock : ℕ → ℚ) (events : List Event) : RateLimiter :=
  events.foldl (RateLimiter.step clock) {}

/-- In an interval an endpoint grants at most its capacity and what it gains in the interval, and its
bucket holds neither less than nothing nor more than its capacity. -/
theorem rateLimiter_bounded {clock : ℕ → ℚ} (hclock : Monotone clock) (events : List Event)
    (endpoint : String) :
    (∀ start length, 0 ≤ length →
      grantedWithin (grantsOf endpoint (runLimiter clock events).grants) start (start + length) ≤
        (configOf endpoint).capacity + (configOf endpoint).refillRate * length) ∧
    ∀ bucket, (runLimiter clock events).buckets.get? endpoint = some bucket →
      bucket.capacity = (configOf endpoint).capacity ∧
      bucket.refillRate = (configOf endpoint).refillRate ∧
      0 ≤ bucket.tokens ∧ bucket.tokens ≤ bucket.capacity := by
  have hsafe : Safe clock (runLimiter clock events) :=
    foldl_invariant (fun s event h => h.step hclock event) (Safe.init clock) events
  constructor
  · intro start length hlength
    cases hbucket : (runLimiter clock events).buckets.get? endpoint with
    | none =>
      have hpos := configOf_pos endpoint
      rw [hsafe.grants_nil hbucket]
      exact add_nonneg hpos.1.le (mul_nonneg hpos.2.le hlength)
    | some bucket =>
      have hkept := hsafe.kept hbucket
      have hwithin := hkept.accounted.within start (start + length) (le_add_of_nonneg_right hlength)
      rwa [hkept.capacity_eq, hkept.rate_eq, add_sub_cancel_left] at hwithin
  · intro bucket hbucket
    have hkept := hsafe.kept hbucket
    exact ⟨hkept.capacity_eq, hkept.rate_eq, hkept.accounted.tokens_nonneg, hkept.accounted.tokens_le⟩

/-- Two callers drain a bucket of three, and the third sleeps until it has gained a token. -/
theorem rateLimiter_bounded_positions :
    grantedWithin (grantsOf "data_positions" (runLimiter (fun n => n / 10)
      [.acquire "data_positions" 2, .acquire "data_positions" 1, .acquire "data_positions" 1,
        .resume 0, .resume 1, .resume 2, .check "data_positions" 1, .resume 2]).grants) 0 (0 + 1) ≤
      (configOf "data_positions").capacity + (configOf "data_positions").refillRate * 1 :=
  (rateLimiter_bounded (fun _ _ h => by gcongr) _ "data_positions").1 0 1 zero_le_one

end Evosport.Utils
