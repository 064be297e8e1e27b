/-
Opngms/Bandwidth.lean

The bytes transferred, in a report (`bandwidth_timeline` and `bandwidth_totals`
of `app/services/reporting/aggregation.py`).

Both queries add up, over buckets, devices, interfaces and directions, the
largest less the smallest value of a counter in a bucket.  So they agree, and
what a counter that does not decrease gains between the last sample of a bucket
and the next sample, in another bucket, is in neither.

Main result: **`bandwidth_exact`**.
-/
import Mathlib.Data.List.Dedup
import Mathlib.Data.List.Sort
import Opngms.GroupedSums
import Opngms.Metrics

namespace Opngms

namespace Metrics

open GroupedSums

/-! ### The queries -/

/-- The arguments of the queries. -/
structure Query where
  tenantId : TenantId
  frm : Time
  to_ : Time
  deviceId : Option DeviceId

/-- The `WHERE` clause. -/
def Query.selects (q : Query) (r : Metric) : Bool :=
  decide (r.tenantId = q.tenantId ∧ r.metric ∈ ["iface.bytes_in", "iface.bytes_out"] ∧
    q.frm ≤ r.time ∧ r.time < q.to_) && q.deviceId.all fun d => decide (r.deviceId = d)

def Query.rows (q : Query) (table : Table) : List Metric := table.rows.filter q.selects

def counter (r : Metric) : DeviceId × String × String := (r.deviceId, r.label, r.metric)

/-- `GROUP BY b, device_id, label, metric`. -/
def slice (delta : Time) (r : Metric) : Time × DeviceId × String × String :=
  (timeBucket delta r.time, counter r)

/-- The inner `SELECT`: the slices, each with `GREATEST(max(value) - min(value), 0)`. -/
def slices (delta : Time) (rows : List Metric) :
    List ((Time × DeviceId × String × String) × ℚ) :=
  ((rows.map (slice delta)).dedup).map fun k =>
    (k, spread ((rows.filter fun r => slice delta r = k).map Metric.value))

/-- `bandwidth_timeline`. -/
def bandwidthTimeline (q : Query) (bucket : String) (table : Table) :
    Except BuiltinError (List (Time × ℚ)) := do
  let delta ← bucketDelta bucket
  let s := slices delta (q.rows table)
  return (((s.map (·.1.1)).dedup).insertionSort (· ≤ ·)).map fun b =>
    (b, ((s.filter fun d => d.1.1 = b).map (·.2)).sum)

/-- `bandwidth_totals`: in and out. -/
def bandwidthTotals (q : Query) (bucket : String) (table : Table) : Except BuiltinError (ℚ × ℚ) := do
  let delta ← bucketDelta bucket
  let s := slices delta (q.rows table)
  let total (metric : String) := ((s.filter fun d => d.1.2.2.2 = metric).map (·.2)).sum
  return (total "iface.bytes_in", total "iface.bytes_out")

/-! ### The counters -/

/-- The counters that a query has samples of. -/
def Query.counters (q : Query) (table : Table) : List (DeviceId × String × String) :=
  ((q.rows table).map counter).dedup

def Query.samples (q : Query) (table : Table) (c : DeviceId × String × String) : List Metric :=
  ((q.rows table).filter fun r => counter r = c).insertionSort fun r r' => r.time ≤ r'.time

/-- The counters do not decrease in the range. -/
def Query.Counting (q : Query) (table : Table) : Prop :=
  ∀ r ∈ q.rows table, ∀ r' ∈ q.rows table,
    counter r = counter r' → r.time < r'.time → r.value ≤ r'.value

variable {q : Query} {table : Table}

theorem mem_samples {c : DeviceId × String × String} {r : Metric} :
    r ∈ q.samples table c ↔ r ∈ q.rows table ∧ counter r = c := by
  rw [Query.samples, List.mem_insertionSort, List.mem_filter, decide_eq_true_eq]

theorem samples_pairwise (c : DeviceId × String × String) :
    (q.samples table c).Pairwise fun r r' => r.time ≤ r'.time := by
  have htotal : Std.Total fun r r' : Metric => r.time ≤ r'.time := ⟨fun _ _ => le_total _ _⟩
  have htrans : IsTrans Metric fun r r' => r.time ≤ r'.time := ⟨fun _ _ _ => le_trans⟩
  exact List.pairwise_insertionSort _ _

theorem eq_of_time {r r' : Metric} (hr : r ∈ q.rows table) (hr' : r' ∈ q.rows table)
    (hc : counter r = counter r') (ht : r.time = r'.time) : r = r' := by
  have hkey : r.key = r'.key := by
    obtain ⟨hd, hl, hm⟩ : r.deviceId = r'.deviceId ∧ r.label = r'.label ∧ r.metric = r'.metric := by
      simpa [counter] using hc
    rw [Metric.key, Metric.key, hd, hl, hm, ht]
  exact List.inj_on_of_nodup_map table.nodup (List.mem_of_mem_filter hr)
    (List.mem_of_mem_filter hr') hkey

theorem Query.Counting.pairwise (h : q.Counting table) (c : DeviceId × String × String) :
    (q.samples table c).Pairwise fun r r' => r.value ≤ r'.value := by
  refine (samples_pairwise c).imp_of_mem fun {r r'} hr hr' hle => ?_
  obtain ⟨hr, hc⟩ := mem_samples.mp hr
  obtain ⟨hr', hc'⟩ := mem_samples.mp hr'
  rcases hle.lt_or_eq with hlt | heq
  · exact h r hr r' hr' (hc.trans hc'.symm) hlt
  · rw [eq_of_time hr hr' (hc.trans hc'.symm) heq]

/-- **What a query counts of a counter** are the increments inside of buckets. -/
theorem sum_slices (h : q.Counting table) (delta : Time) (c : DeviceId × String × String) :
    (((slices delta (q.rows table)).filter fun d => d.1.2 = c).map (·.2)).sum =
      steps Metric.value (fun r r' => timeBucket delta r.time = timeBucket delta r'.time)
        (q.samples table c) := by
  set rows := q.rows table with hrows
  let keys := ((rows.map (slice delta)).dedup).filter fun k => k.2 = c
  have hkeys : keys.Nodup := (List.nodup_dedup _).filter _
  -- the slices of the counter differ in their buckets
  have hbuckets : (keys.map (·.1)).Nodup := by
    refine List.Nodup.map_on (fun k hk k' hk' hfst => ?_) hkeys
    have hc : k.2 = c := by simpa using (List.mem_filter.mp hk).2
    have hc' : k'.2 = c := by simpa using (List.mem_filter.mp hk').2
    exact Prod.ext hfst (hc.trans hc'.symm)
  have hcover : ∀ r ∈ q.samples table c, timeBucket delta r.time ∈ keys.map (·.1) := by
    intro r hr
    obtain ⟨hr, hc⟩ := mem_samples.mp hr
    refine List.mem_map.mpr ⟨slice delta r, List.mem_filter.mpr ⟨?_, decide_eq_true hc⟩, rfl⟩
    exact List.mem_dedup.mpr (List.mem_map_of_mem hr)
  have hperm : ∀ k ∈ keys, spread ((rows.filter fun r => slice delta r = k).map Metric.value) =
      spread (((q.samples table c).filter fun r => timeBucket delta r.time = k.1).map
        Metric.value) := by
    intro k hk
    have hc : k.2 = c := by simpa using (List.mem_filter.mp hk).2
    have hslice : (rows.filter fun r => slice delta r = k) =
        (rows.filter fun r => counter r = c).filter fun r => timeBucket delta r.time = k.1 := by
      rw [List.filter_filter]
      refine List.filter_congr fun r _ => ?_
      rw [← hc, ← Bool.decide_and, decide_eq_decide]
      exact Prod.ext_iff
    rw [hslice]
    exact spread_perm (((List.perm_insertionSort _ _).symm.filter _).map _)
  rw [← sum_spread Metric.value (fun r => timeBucket delta r.time) hbuckets hcover
    ((samples_pairwise c).imp fun hle => timeBucket_mono delta hle) (h.pairwise c), List.map_map]
  unfold slices
  rw [List.filter_map, List.map_map]
  exact congrArg List.sum (List.map_congr_left hperm)

/-! ### The totals -/

/-- The slices of the rows, all together. -/
def transferred (q : Query) (delta : Time) (table : Table) : ℚ :=
  ((slices delta (q.rows table)).map (·.2)).sum

theorem mem_slices {delta : Time} {rows : List Metric}
    {d : (Time × DeviceId × String × String) × ℚ} (h : d ∈ slices delta rows) :
    ∃ r ∈ rows, slice delta r = d.1 := by
  obtain ⟨k, hk, rfl⟩ := List.mem_map.mp h
  exact List.mem_map.mp (List.mem_dedup.mp hk)

theorem timeline_sum {bucket : String} {delta : Time} (h : bucketDelta bucket = .ok delta) :
    ∃ timeline, bandwidthTimeline q bucket table = .ok timeline ∧
      (timeline.map (·.2)).sum = transferred q delta table := by
  unfold bandwidthTimeline
  rw [h]
  refine ⟨_, rfl, ?_⟩
  rw [List.map_map, transferred]
  refine sum_fibers (fun d : (Time × DeviceId × String × String) × ℚ => d.1.1) (·.2) ?_ ?_
  · exact (List.perm_insertionSort _ _).nodup_iff.mpr (List.nodup_dedup _)
  · intro d hd
    rw [List.mem_insertionSort, List.mem_dedup]
    exact List.mem_map_of_mem (f := fun d : (Time × DeviceId × String × String) × ℚ => d.1.1) hd

theorem totals_sum {bucket : String} {delta : Time} (h : bucketDelta bucket = .ok delta) :
    ∃ totals, bandwidthTotals q bucket table = .ok totals ∧
      totals.1 + totals.2 = transferred q delta table := by
  unfold bandwidthTotals
  rw [h]
  refine ⟨_, rfl, ?_⟩
  rw [transferred, ← sum_fibers
    (fun d : (Time × DeviceId × String × String) × ℚ => d.1.2.2.2) (·.2)
    (show ["iface.bytes_in", "iface.bytes_out"].Nodup by decide) fun d hd => ?_]
  · simp
  · obtain ⟨r, hr, hslice⟩ := mem_slices hd
    rw [← hslice]
    exact (of_decide_eq_true (Bool.and_elim_left (List.mem_filter.mp hr).2)).2.1

/-- **What the queries count** is, for every counter, its growth in the range less
what it gains from the last sample of a bucket to the next sample. -/
theorem transferred_eq (h : q.Counting table) (delta : Time) :
    transferred q delta table = ((q.counters table).map fun c =>
      growth Metric.value (q.samples table c) -
        steps Metric.value (fun r r' => ¬ timeBucket delta r.time = timeBucket delta r'.time)
          (q.samples table c)).sum := by
  rw [transferred, ← sum_fibers
    (fun d : (Time × DeviceId × String × String) × ℚ => d.1.2) (·.2)
    (List.nodup_dedup ((q.rows table).map counter)) fun d hd => ?_]
  · refine congrArg List.sum (List.map_congr_left fun c _ => ?_)
    rw [sum_slices h, ← steps_add_steps Metric.value
      (fun r r' => timeBucket delta r.time = timeBucket delta r'.time), add_sub_cancel_right]
  · obtain ⟨r, hr, hslice⟩ := mem_slices hd
    rw [List.mem_dedup, ← hslice]
    exact List.mem_map_of_mem hr

/-- **The totals agree with the timeline, and leave out what is gained between
buckets**; so they are exact if and only if no counter gains between a sample and
the next one in another bucket. -/
theorem bandwidth_exact (h : q.Counting table) {bucket : String} {delta : Time}
    (hb : bucketDelta bucket = .ok delta) :
    ∃ totals timeline, bandwidthTotals q bucket table = .ok totals ∧
      bandwidthTimeline q bucket table = .ok timeline ∧
      totals.1 + totals.2 = (timeline.map (·.2)).sum ∧
      totals.1 + totals.2 = ((q.counters table).map fun c =>
        growth Metric.value (q.samples table c) -
          steps Metric.value (fun r r' => ¬ timeBucket delta r.time = timeBucket delta r'.time)
            (q.samples table c)).sum ∧
      (totals.1 + totals.2 =
          ((q.counters table).map fun c => growth Metric.value (q.samples table c)).sum ↔
        ∀ c ∈ q.counters table, (q.samples table c).IsChain fun r r' =>
          ¬ timeBucket delta r.time = timeBucket delta r'.time → r.value = r'.value) := by
  obtain ⟨totals, htotals, hsum⟩ := @totals_sum q table bucket delta hb
  obtain ⟨timeline, htimeline, hsum'⟩ := @timeline_sum q table bucket delta hb
  refine ⟨totals, timeline, htotals, htimeline, hsum.trans hsum'.symm,
    hsum.trans (transferred_eq h delta), ?_⟩
  rw [hsum, transferred_eq h delta, sum_sub_eq_iff fun c _ => steps_nonneg _ _ (h.pairwise c)]
  exact forall₂_congr fun c _ => steps_eq_zero_iff _ _ (h.pairwise c)

/-- A sample of the bytes received on an interface, a minute count after the start
of a day. -/
def received (minute : Nat) (value : ℚ) : Metric :=
  ⟨minute * 60000000, 1, "iface.bytes_in", "wan", 1, value⟩

def acrossHours : Table := ⟨[received 50 100, received 70 300], by decide +kernel⟩

def twoHours : Query := ⟨1, 0, 2 * Calendar.hourMicros, none⟩

theorem acrossHours_counting : twoHours.Counting acrossHours := by
  unfold Query.Counting
  decide +kernel

theorem acrossHours_transferred :
    ∃ totals timeline, bandwidthTotals twoHours "1 hour" acrossHours = .ok totals ∧
      bandwidthTimeline twoHours "1 hour" acrossHours = .ok timeline ∧
      totals.1 + totals.2 = (timeline.map (·.2)).sum := by
  obtain ⟨totals, timeline, htotals, htimeline, hsum, -⟩ :=
    bandwidth_exact acrossHours_counting (show bucketDelta "1 hour" = _ from rfl)
  exact ⟨totals, timeline, htotals, htimeline, hsum⟩

/-- **What is received from one hour to the next is not counted.** -/
theorem acrossHours_lost :
    twoHours.Counting acrossHours ∧ bandwidthTotals twoHours "1 hour" acrossHours = .ok (0, 0) ∧
      ((twoHours.counters acrossHours).map fun c =>
        growth Metric.value (twoHours.samples acrossHours c)).sum = 200 := by
  refine ⟨acrossHours_counting, ?_, ?_⟩
  · decide +kernel
  · decide +kernel

end Metrics

end Opngms
