/-
Submit and cancel latencies (`services/backtest/latency_model.py`).

The seeded generator of the source is a fixed stream of standard normal draws; the state
of the model is the number of draws made so far and the cache that lets calls of one
correlation window share a draw.
-/
import Evosport.Lib.Dict
import Evosport.Backtest.Book

namespace Evosport.Backtest

open Lib

/-- `timedelta(milliseconds=ms)`, in microseconds. -/
def timedeltaMs (ms : ℚ) : ℤ := roundHalfEven (ms * 1000)

/-- A clamped latency distribution; `law z` stands for `math.exp(mu_ms + sigma_ms * z)`. -/
structure LatencyProfile where
  law : ℚ → ℚ
  minimumMs : ℚ := 1
  maximumMs : ℚ := 10000

/-- `LatencyProfile.sample`, at the draw `z`. -/
def LatencyProfile.sample (p : LatencyProfile) (z : ℚ) : ℚ :=
  max p.minimumMs (min p.maximumMs (p.law z))

/-- The two kinds of latency. -/
inductive LatencyKind where
  | submit
  | cancel
deriving DecidableEq, Repr

/-- The parameters of the latency model: a profile for submissions and one for cancels, the draws of
the normal distribution, and how long a bucket of correlated samples lasts. -/
structure LatencyModel where
  submit : LatencyProfile
  cancel : LatencyProfile
  gauss : ℕ → ℚ
  correlationWindowMs : ℚ := 5

/-- The state of the latency model: how many draws were used, and the base samples of the buckets
with the order in which they were added. -/
structure LatencyState where
  draws : ℕ := 0
  bucketCache : Dict (LatencyKind × ℤ) ℚ := .empty
  bucketOrder : List (LatencyKind × ℤ) := []
deriving DecidableEq

namespace LatencyModel

/-- `_bucket_id`. -/
def bucketId (m : LatencyModel) (at_ : Time) : Option ℤ :=
  if m.correlationWindowMs ≤ 0 then none
  else some ⌊(at_ : ℚ) / 1000 / m.correlationWindowMs⌋

/-- The profile of a kind of latency. -/
def profile (m : LatencyModel) : LatencyKind → LatencyProfile
  | .submit => m.submit
  | .cancel => m.cancel

/-- `_correlated_sample`: calls in one window share a draw; the cache keeps the 1024 most
recent windows. -/
def correlatedSample (m : LatencyModel) (kind : LatencyKind) (at_ : Time) (s : LatencyState) :
    ℚ × LatencyState :=
  let drawn := (m.profile kind).sample (m.gauss s.draws)
  match m.bucketId at_ with
  | none => (drawn, { s with draws := s.draws + 1 })
  | some bucket =>
    match s.bucketCache.get? (kind, bucket) with
    | some cached => (cached, s)
    | none =>
      let cache := s.bucketCache.set (kind, bucket) drawn
      let order := s.bucketOrder ++ [(kind, bucket)]
      match order with
      | old :: order' =>
        if order.length > 1024 then
          (drawn, { draws := s.draws + 1, bucketCache := cache.erase old, bucketOrder := order' })
        else (drawn, { draws := s.draws + 1, bucketCache := cache, bucketOrder := order })
      | [] => (drawn, { draws := s.draws + 1, bucketCache := cache, bucketOrder := order })

/-- `sample_submit_ms`. -/
def sampleSubmitMs (m : LatencyModel) (at_ : Time) (s : LatencyState) : ℚ × LatencyState :=
  m.correlatedSample .submit at_ s

/-- `sample_cancel_ms`. -/
def sampleCancelMs (m : LatencyModel) (at_ : Time) (s : LatencyState) : ℚ × LatencyState :=
  m.correlatedSample .cancel at_ s

/-- `LatencyModel.deterministic`: constant latencies. -/
def deterministic (submitMs cancelMs : ℚ) : LatencyModel where
  submit := { law := fun _ => submitMs }
  cancel := { law := fun _ => cancelMs }
  gauss := fun _ => 0

end LatencyModel

end Evosport.Backtest
