/-
Opngms/Metrics.lean

The table `metrics`, and the buckets in which a report aggregates it
(`_bucket_delta` of `app/services/reporting/aggregation.py`, `time_bucket`).
-/
import Mathlib.Algebra.Order.Ring.Rat
import Opngms.Calendar
import Opngms.World

namespace Opngms

namespace Metrics

open Calendar

/-- A row of `metrics`; the values are taken as exact. -/
structure Metric where
  time : Time
  deviceId : DeviceId
  metric : String
  label : String
  tenantId : TenantId
  value : ℚ
  deriving DecidableEq

def Metric.key (r : Metric) : Time × DeviceId × String × String :=
  (r.time, r.deviceId, r.metric, r.label)

/-- The table: a key has one row. -/
structure Table where
  rows : List Metric
  nodup : (rows.map Metric.key).Nodup

/-! ### Buckets -/

/-- `_BUCKET_DELTAS`. -/
def bucketDeltas : List (String × Time) :=
  [("1 hour", hourMicros), ("6 hours", 6 * hourMicros), ("1 day", dayMicros)]

/-- `_bucket_delta`; a bucket that is not allowed raises a `ValueError`. -/
def bucketDelta (bucket : String) : Except BuiltinError Time :=
  match bucketDeltas.lookup bucket with
  | some delta => .ok delta
  | none => .error .valueError

theorem bucketDelta_pos {bucket : String} {delta : Time} (h : bucketDelta bucket = .ok delta) :
    0 < delta := by
  have hall : ∀ d ∈ bucketDeltas.map (·.2), 0 < d := by decide
  cases hlookup : bucketDeltas.lookup bucket with
  | none =>
    rw [bucketDelta, hlookup] at h
    cases h
  | some d =>
    rw [bucketDelta, hlookup] at h
    obtain rfl := Except.ok.inj h
    obtain ⟨l, l', hl, -⟩ := List.lookup_eq_some_iff.mp hlookup
    apply hall
    rw [hl]
    simp

/-- `time_bucket`.  Its buckets are counted from a Monday, as the days are, and
the widths divide a day. -/
def timeBucket (width t : Time) : Time := t / width * width

theorem timeBucket_le (width t : Time) : timeBucket width t ≤ t := Nat.div_mul_le_self t width

theorem timeBucket_mono (width : Time) : Monotone (timeBucket width) := fun _ _ h =>
  Nat.mul_le_mul_right width (Nat.div_le_div_right h)

end Metrics

end Opngms
