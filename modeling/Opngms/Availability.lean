/-
Opngms/Availability.lean

The availability of a device in a report, and in the summary of its tenant
(`availability_series` and `kpis` of `app/services/reporting/aggregation.py`).

The series has cells from the start of the range on, and looks in them for the
starts of buckets, which are counted from midnight; so a cell is up for the polls in
it only if the range starts with a bucket.  It has a cell for the rest of the range,
which the summary leaves out when it counts the buckets.

Percentages, and the number of buckets, are computed exactly here.

Main result: **`computedOneWay_iff`**.
-/
import Opngms.Bandwidth
import Opngms.RunTimes
import Opngms.Tenths

namespace Opngms

namespace Metrics

open Calendar EventCursor Delivery.Dated Tenths

/-! ### The series -/

def Query.polls (q : Query) (table : Table) : List Metric :=
  table.rows.filter fun r =>
    decide (r.tenantId = q.tenantId ∧ r.metric = "cpu.pct" ∧ q.frm ≤ r.time ∧ r.time < q.to_) &&
      q.deviceId.all fun d => decide (r.deviceId = d)

/-- Whether a bucket with a poll starts in the cell at `cur`. -/
def up (delta : Time) (present : List Time) (cur : Time) : Nat :=
  if present.any fun b => decide (cur ≤ b ∧ b < cur + delta) then 1 else 0

/-- The loop over the cells.  The end of a cell is a `datetime`. -/
def cells {delta : Time} (hdelta : 0 < delta) (present : List Time) (to_ cur : Time) :
    Except DateError (List (Time × Nat)) :=
  if cur < to_ then
    if cur + delta < endOfTime then do
      let series ← cells hdelta present to_ (cur + delta)
      return (cur, up delta present cur) :: series
    else .error .overflowError
  else .ok []
termination_by to_ - cur
decreasing_by exact Nat.sub_lt_sub_left ‹cur < to_› (Nat.lt_add_of_pos_right hdelta)

/-- `availability_series`. -/
def availabilitySeries (tenantId : TenantId) (frm to_ : Instant) (bucket : String)
    (deviceId : DeviceId) (table : Table) : Except DateError (List (Time × Nat) × ℚ) :=
  match h : bucketDelta bucket with
  | .error _ => .error .valueError
  | .ok delta => do
    let polls := Query.polls ⟨tenantId, frm.1, to_.1, some deviceId⟩ table
    let present := (polls.map fun r => timeBucket delta r.time).dedup
    let series ← cells (bucketDelta_pos h) present to_.1 frm.1
    let ups : Nat := (series.map (·.2)).sum
    return (series, if series = [] then 0 else (ups : ℚ) / series.length * 100)

/-! ### The summary -/

/-- What the summary reads besides the metrics: the status of the devices, the
sources and times of the events, and when the alerts were opened. -/
structure Records where
  devices : List (TenantId × String)
  events : List (TenantId × String × Time)
  alerts : List (TenantId × Time)

/-- `Kpis`. -/
structure Kpis where
  devicesTotal : Nat
  devicesOnline : Nat
  attacksBlocked : Nat
  dataTotal : ℚ
  uptimePct : ℚ
  alertsCount : Nat

/-- `kpis`. -/
def kpis (tenantId : TenantId) (frm to_ : Instant) (bucket : String) (records : Records)
    (table : Table) : Except BuiltinError Kpis := do
  let delta ← bucketDelta bucket
  let q : Query := ⟨tenantId, frm.1, to_.1, none⟩
  let devices := records.devices.filter fun d => d.1 = tenantId
  let attacks := records.events.countP fun e =>
    e.1 = tenantId ∧ e.2.1 = "ids" ∧ frm.1 ≤ e.2.2 ∧ e.2.2 < to_.1
  let (tin, tout) ← bandwidthTotals q bucket table
  let alerts := records.alerts.countP fun a => a.1 = tenantId ∧ frm.1 ≤ a.2 ∧ a.2 < to_.1
  -- the difference of the instants is 0 where it is negative in the source
  let nBuckets := max 1 ((to_.1 - frm.1) / delta)
  let present := (((q.polls table).map fun r => (r.deviceId, timeBucket delta r.time)).dedup).length
  let denom := devices.length * nBuckets
  let uptime := if denom = 0 then 0 else round1 (min 100 ((present : ℚ) / denom * 100))
  return {
    devicesTotal := devices.length
    devicesOnline := devices.countP fun d => d.2 = "reachable"
    attacksBlocked := attacks
    dataTotal := tin + tout
    uptimePct := uptime
    alertsCount := alerts }

/-! ### The cells -/

theorem cells_eq {delta : Time} (hdelta : 0 < delta) (present : List Time) {to_ cur n : Time}
    (hn : ∀ i, i < n ↔ cur + i * delta < to_) :
    cells hdelta present to_ cur = if n = 0 ∨ cur + n * delta < endOfTime then
        .ok ((List.range n).map fun i => (cur + i * delta, up delta present (cur + i * delta)))
      else .error .overflowError := by
  induction n generalizing cur with
  | zero =>
    have hcur : ¬ cur < to_ := by simpa using hn 0
    rw [cells, if_neg hcur, if_pos (Or.inl rfl)]
    rfl
  | succ n ih =>
    have hcur : cur < to_ := by simpa using hn 0
    have hshift : ∀ i, cur + delta + i * delta = cur + (i + 1) * delta := fun i => by ring
    have hrest : ∀ i, i < n ↔ cur + delta + i * delta < to_ := by
      intro i
      rw [hshift, ← hn (i + 1), Nat.add_lt_add_iff_right]
    rw [cells, if_pos hcur, ih hrest, hshift n]
    by_cases hend : cur + (n + 1) * delta < endOfTime
    · -- the last cell ends before the end of time, so the first does
      have hfirst : cur + delta < endOfTime := by
        refine lt_of_le_of_lt ?_ hend
        rw [← hshift]
        exact Nat.le_add_right _ _
      rw [if_pos hfirst, if_pos (Or.inr hend), if_pos (Or.inr hend), ok_bind]
      refine congrArg Except.ok ?_
      rw [List.range_succ_eq_map, List.map_cons, List.map_map, Nat.zero_mul, Nat.add_zero]
      refine congrArg _ (List.map_congr_left fun i _ => ?_)
      rw [Function.comp_apply, hshift]
    · rw [if_neg (show ¬ (n + 1 = 0 ∨ _) by simpa using hend)]
      by_cases hzero : n = 0
      · subst hzero
        rw [if_neg (by simpa using hend)]
      · have hlater : ¬ (n = 0 ∨ cur + (n + 1) * delta < endOfTime) := by tauto
        rw [if_neg hlater]
        split_ifs <;> rfl

theorem up_eq {delta : Time} {present : List Time} {cur : Time} :
    up delta present cur =
      if ∃ b ∈ present, cur ≤ b ∧ b < cur + delta then 1 else 0 := by
  unfold up
  simp only [List.any_eq_true, decide_eq_true_eq]

theorem bucket_in_cell {delta cur : Time} (hdelta : 0 < delta) (hcur : delta ∣ cur) (t : Time) :
    cur ≤ timeBucket delta t ∧ timeBucket delta t < cur + delta ↔ cur ≤ t ∧ t < cur + delta := by
  obtain ⟨k, rfl⟩ := hcur
  have hend : delta * k + delta = (k + 1) * delta := by ring
  rw [hend, Nat.mul_comm delta k, timeBucket, Nat.mul_le_mul_right_iff hdelta,
    Nat.mul_lt_mul_right hdelta, Nat.le_div_iff_mul_le hdelta, Nat.div_lt_iff_lt_mul hdelta]

/-- A poll is in the cell and in the range. -/
def Query.Polled (q : Query) (table : Table) (delta cur : Time) : Prop :=
  ∃ r ∈ q.polls table, cur ≤ r.time ∧ r.time < cur + delta

instance (q : Query) (table : Table) (delta cur : Time) : Decidable (q.Polled table delta cur) :=
  inferInstanceAs (Decidable (∃ r ∈ _, _))

def Query.present (q : Query) (table : Table) (delta : Time) : List Time :=
  ((q.polls table).map fun r => timeBucket delta r.time).dedup

variable {q : Query} {table : Table} {delta : Time}

theorem mem_present {b : Time} :
    b ∈ q.present table delta ↔ ∃ r ∈ q.polls table, timeBucket delta r.time = b := by
  rw [Query.present, List.mem_dedup, List.mem_map]

theorem mem_polls {r : Metric} (h : r ∈ q.polls table) : q.frm ≤ r.time ∧ r.time < q.to_ :=
  (of_decide_eq_true (Bool.and_elim_left (List.mem_filter.mp h).2)).2.2

/-- **A cell that is a bucket is up if it has a poll.** -/
theorem up_present (hdelta : 0 < delta) {cur : Time} (hcur : delta ∣ cur) :
    up delta (q.present table delta) cur = if q.Polled table delta cur then 1 else 0 := by
  have hiff : (∃ b ∈ q.present table delta, cur ≤ b ∧ b < cur + delta) ↔
      q.Polled table delta cur := by
    simp only [mem_present]
    constructor
    · rintro ⟨-, ⟨r, hr, rfl⟩, hcell⟩
      exact ⟨r, hr, (bucket_in_cell hdelta hcur r.time).mp hcell⟩
    · rintro ⟨r, hr, hcell⟩
      exact ⟨_, ⟨r, hr, rfl⟩, (bucket_in_cell hdelta hcur r.time).mpr hcell⟩
  rw [up_eq]
  exact if_congr hiff rfl rfl

theorem bucket_in_cell_iff (hdelta : 0 < delta) {cur b : Time} (hcur : delta ∣ cur)
    (hb : delta ∣ b) : cur ≤ b ∧ b < cur + delta ↔ b = cur := by
  constructor
  · rintro ⟨hle, hlt⟩
    have hsub : b - cur = 0 :=
      Nat.eq_zero_of_dvd_of_lt (Nat.dvd_sub hb hcur) ((Nat.sub_lt_iff_lt_add' hle).mpr hlt)
    exact le_antisymm (Nat.sub_eq_zero_iff_le.mp hsub) hle
  · rintro rfl
    exact ⟨le_rfl, Nat.lt_add_of_pos_right hdelta⟩

/-- **From the start of a bucket on, as many cells are up as buckets have polls.** -/
theorem sum_up (q : Query) (table : Table) (hdelta : 0 < delta) (hfrm : delta ∣ q.frm) {n : Nat}
    (hn : ∀ i, i < n ↔ q.frm + i * delta < q.to_) :
    ((List.range n).map fun i => up delta (q.present table delta) (q.frm + i * delta)).sum =
      (q.present table delta).length := by
  set present := q.present table delta with hpresent
  have hnodup : present.Nodup := List.nodup_dedup _
  have hdvd : ∀ i, delta ∣ q.frm + i * delta := fun i => hfrm.add (Nat.dvd_mul_left _ _)
  have hbucket : ∀ b ∈ present, delta ∣ b := by
    intro b hb
    obtain ⟨r, -, rfl⟩ := mem_present.mp hb
    exact Nat.dvd_mul_left _ _
  -- what starts in the cell of a bucket is the bucket
  have hup : ∀ i, up delta present (q.frm + i * delta) =
      ((present.filter fun b => b = q.frm + i * delta).map fun _ => 1).sum := by
    intro i
    have hiff : (∃ b ∈ present, q.frm + i * delta ≤ b ∧ b < q.frm + i * delta + delta) ↔
        q.frm + i * delta ∈ present := by
      constructor
      · rintro ⟨b, hb, hcell⟩
        rwa [← (bucket_in_cell_iff hdelta (hdvd i) (hbucket b hb)).mp hcell]
      · intro hmem
        exact ⟨_, hmem, le_rfl, Nat.lt_add_of_pos_right hdelta⟩
    rw [up_eq, List.filter_eq, List.map_replicate, List.sum_replicate_nat, Nat.mul_one]
    by_cases hmem : q.frm + i * delta ∈ present
    · rw [if_pos (hiff.mpr hmem), List.count_eq_one_of_mem hnodup hmem]
    · rw [if_neg (hmem ∘ hiff.mp), List.count_eq_zero_of_not_mem hmem]
  have hcover : ∀ b ∈ present, b ∈ (List.range n).map fun i => q.frm + i * delta := by
    intro b hb
    obtain ⟨r, hr, rfl⟩ := mem_present.mp hb
    obtain ⟨hle, hlt⟩ := mem_polls hr
    obtain ⟨k, hk⟩ := hfrm
    have hstart : q.frm ≤ timeBucket delta r.time := by
      rw [hk, Nat.mul_comm]
      refine Nat.mul_le_mul_right _ ((Nat.le_div_iff_mul_le hdelta).mpr ?_)
      rwa [Nat.mul_comm, ← hk]
    obtain ⟨i, hi⟩ : delta ∣ timeBucket delta r.time - q.frm :=
      Nat.dvd_sub (Nat.dvd_mul_left _ _) ⟨k, hk⟩
    have heq : q.frm + i * delta = timeBucket delta r.time := by
      rw [Nat.mul_comm, ← hi]
      exact Nat.add_sub_of_le hstart
    refine List.mem_map.mpr ⟨i, List.mem_range.mpr ((hn i).mpr ?_), heq⟩
    rw [heq]
    exact (timeBucket_le delta r.time).trans_lt hlt
  have hcells : ((List.range n).map fun i => q.frm + i * delta).Nodup :=
    List.nodup_range.map fun i j hij =>
      Nat.eq_of_mul_eq_mul_right hdelta (Nat.add_left_cancel hij)
  have hsum := GroupedSums.sum_fibers id (fun _ => 1) hcells hcover
  rw [List.map_map] at hsum
  simp only [hup]
  refine hsum.trans ?_
  simp

theorem length_present_le (q : Query) (table : Table) (hdelta : 0 < delta)
    (hfrm : delta ∣ q.frm) {n : Nat} (hn : ∀ i, i < n ↔ q.frm + i * delta < q.to_) :
    (q.present table delta).length ≤ n := by
  have hle : ∀ v ∈ (List.range n).map fun i =>
      up delta (q.present table delta) (q.frm + i * delta), v ≤ 1 := by
    intro v hv
    obtain ⟨i, -, rfl⟩ := List.mem_map.mp hv
    unfold up
    split_ifs <;> simp
  rw [← sum_up q table hdelta hfrm hn]
  simpa using List.sum_le_card_nsmul _ 1 hle

/-! ### One way of computing it -/

section OneWay

variable {frm to_ : Instant} {bucket : String}

theorem availabilitySeries_eq (tenantId : TenantId) (deviceId : DeviceId) (table : Table)
    (hb : bucketDelta bucket = .ok delta) {n : Nat}
    (hn : ∀ i, i < n ↔ frm.1 + i * delta < to_.1) :
    let present := Query.present ⟨tenantId, frm.1, to_.1, some deviceId⟩ table delta
    let ups := fun i => up delta present (frm.1 + i * delta)
    availabilitySeries tenantId frm to_ bucket deviceId table =
      if n = 0 ∨ frm.1 + n * delta < endOfTime then
        .ok ((List.range n).map fun i => (frm.1 + i * delta, ups i),
          (((List.range n).map ups).sum : ℚ) / n * 100)
      else .error .overflowError := by
  intro present ups
  unfold availabilitySeries
  split
  · rename_i h
    rw [hb] at h
    cases h
  · rename_i h
    rw [hb] at h
    obtain rfl := Except.ok.inj h
    dsimp only
    rw [cells_eq _ _ hn]
    split_ifs with hend
    · rw [ok_bind, List.map_map, List.length_map, List.length_range]
      by_cases hzero : n = 0
      · -- no cells, and no division by their number
        subst hzero
        rw [List.range_zero, List.map_nil, List.map_nil, if_pos rfl, Nat.cast_zero, div_zero,
          zero_mul]
        rfl
      · rw [if_neg (by simpa using hzero)]
        rfl
    · exact error_bind _ _

theorem kpis_uptime {tenantId : TenantId} {deviceId : DeviceId}
    (hb : bucketDelta bucket = .ok delta) {records : Records}
    (hone : (records.devices.filter fun d => d.1 = tenantId).length = 1)
    (hpolls : ∀ r ∈ Query.polls ⟨tenantId, frm.1, to_.1, none⟩ table, r.deviceId = deviceId) :
    ∃ k, kpis tenantId frm to_ bucket records table = .ok k ∧
      k.uptimePct = round1 (min 100
        (((Query.present ⟨tenantId, frm.1, to_.1, some deviceId⟩ table delta).length : ℚ) /
          (max 1 ((to_.1 - frm.1) / delta) : Nat) * 100)) := by
  obtain ⟨totals, htotals, -⟩ :=
    @totals_sum ⟨tenantId, frm.1, to_.1, none⟩ table bucket delta hb
  have hsame : Query.polls ⟨tenantId, frm.1, to_.1, some deviceId⟩ table =
      Query.polls ⟨tenantId, frm.1, to_.1, none⟩ table := by
    refine List.filter_congr fun r hr => ?_
    rw [Option.all_none, Bool.and_true, Option.all_some, Bool.and_eq_left_iff_imp]
    intro hwhere
    apply decide_eq_true
    refine hpolls r (List.mem_filter.mpr ⟨hr, ?_⟩)
    rwa [Option.all_none, Bool.and_true]
  have hpairs : ((Query.polls ⟨tenantId, frm.1, to_.1, none⟩ table).map fun r =>
      (r.deviceId, timeBucket delta r.time)) =
      ((Query.polls ⟨tenantId, frm.1, to_.1, none⟩ table).map fun r =>
        timeBucket delta r.time).map (deviceId, ·) := by
    rw [List.map_map]
    exact List.map_congr_left fun r hr => by rw [hpolls r hr]; rfl
  have hpos : 1 * max 1 ((to_.1 - frm.1) / delta) ≠ 0 := by
    rw [Nat.one_mul]
    exact (Nat.lt_of_lt_of_le Nat.one_pos (le_max_left _ _)).ne'
  unfold kpis
  rw [hb]
  dsimp only [bind, Except.bind]
  rw [htotals]
  refine ⟨_, rfl, ?_⟩
  dsimp only
  rw [hone, if_neg hpos, hpairs, List.dedup_map_of_injective (Prod.mk_right_injective _),
    List.length_map, Nat.one_mul, Query.present, hsame]

/-- **Availability is computed in one way** on a range: for a tenant with one device,
and all polls of it, the cells are up that have a poll, and the summary has the share
of these cells, rounded to a tenth. -/
def ComputedOneWay (frm to_ : Instant) (bucket : String) (delta : Time) : Prop :=
  ∀ (tenantId : TenantId) (deviceId : DeviceId) (records : Records) (table : Table),
    (records.devices.filter fun d => d.1 = tenantId).length = 1 →
    (∀ r ∈ Query.polls ⟨tenantId, frm.1, to_.1, none⟩ table, r.deviceId = deviceId) →
    ∃ series uptime k,
      availabilitySeries tenantId frm to_ bucket deviceId table = .ok (series, uptime) ∧
      kpis tenantId frm to_ bucket records table = .ok k ∧
      (∀ cell, cell ∈ series ↔ ∃ i, frm.1 + i * delta < to_.1 ∧ cell = (frm.1 + i * delta,
        if Query.Polled ⟨tenantId, frm.1, to_.1, some deviceId⟩ table delta (frm.1 + i * delta)
        then 1 else 0)) ∧
      k.uptimePct = round1 uptime

/-- A range that is empty, or starts with a bucket and either ends with one or is
shorter than one. -/
def Fits (delta : Time) (frm to_ : Instant) : Prop :=
  to_.1 ≤ frm.1 ∨ delta ∣ frm.1 ∧
    (delta ∣ to_.1 - frm.1 ∨ to_.1 - frm.1 < delta ∧ frm.1 + delta < endOfTime)

theorem percent_le {k n : Nat} (h : k ≤ n) : (k : ℚ) / n * 100 ≤ 100 := by
  have hle : (k : ℚ) / n ≤ 1 := div_le_one_of_le₀ (by exact_mod_cast h) n.cast_nonneg
  linarith

theorem exists_count {delta : Nat} (hdelta : 0 < delta) (frm to_ : Nat) :
    ∃ n, ∀ i, i < n ↔ frm + i * delta < to_ := by
  refine ⟨(to_ - frm + (delta - 1)) / delta, fun i => ?_⟩
  rw [← Nat.succ_le_iff, Nat.le_div_iff_mul_le hdelta, Nat.succ_mul]
  generalize i * delta = x
  omega

/-- **The two agree on a range without cells, and where the cells are buckets and
the summary counts them all.** -/
theorem agree_of_count (hb : bucketDelta bucket = .ok delta) {n : Nat}
    (hn : ∀ i, i < n ↔ frm.1 + i * delta < to_.1)
    (h : n = 0 ∨ delta ∣ frm.1 ∧ max 1 ((to_.1 - frm.1) / delta) = n ∧
      frm.1 + n * delta < endOfTime) :
    ComputedOneWay frm to_ bucket delta := by
  intro tenantId deviceId records table hone hpolls
  have hdelta := bucketDelta_pos hb
  obtain ⟨k, hk, huptime⟩ := kpis_uptime hb hone hpolls
  have hseries := availabilitySeries_eq tenantId deviceId table hb hn
  dsimp only at hseries
  rw [if_pos (h.imp_right fun h => h.2.2)] at hseries
  refine ⟨_, _, k, hseries, hk, fun cell => ?_, ?_⟩
  · simp only [List.mem_map, List.mem_range, hn]
    refine exists_congr fun i => and_congr_right fun hi => ?_
    rcases h with rfl | ⟨hfrm, -⟩
    · exact absurd ((hn i).mpr hi) (Nat.not_lt_zero i)
    · rw [up_present hdelta (hfrm.add (Nat.dvd_mul_left _ _)), eq_comm]
  · rw [huptime]
    rcases h with rfl | ⟨hfrm, hcount, -⟩
    · -- no poll is in the range
      have hempty : Query.present ⟨tenantId, frm.1, to_.1, some deviceId⟩ table delta = [] := by
        refine List.eq_nil_iff_forall_not_mem.mpr fun b hb => ?_
        obtain ⟨r, hr, -⟩ := mem_present.mp hb
        obtain ⟨hle, hlt⟩ := mem_polls hr
        refine Nat.not_lt_zero 0 ((hn 0).mpr ?_)
        rw [Nat.zero_mul, Nat.add_zero]
        exact hle.trans_lt hlt
      simp [hempty]
    · have hups := sum_up ⟨tenantId, frm.1, to_.1, some deviceId⟩ table hdelta hfrm hn
      have hle := length_present_le ⟨tenantId, frm.1, to_.1, some deviceId⟩ table hdelta hfrm hn
      rw [hcount, hups, min_eq_right (percent_le hle)]

theorem agree_of_fits (hb : bucketDelta bucket = .ok delta) (h : Fits delta frm to_) :
    ComputedOneWay frm to_ bucket delta := by
  have hdelta := bucketDelta_pos hb
  rcases Nat.lt_or_ge frm.1 to_.1 with hlt | hge
  · obtain hge | ⟨hfrm, ⟨n, hn⟩ | ⟨hshort, hend⟩⟩ := h
    · exact absurd hlt (Nat.not_lt.mpr hge)
    · -- the range ends with a bucket
      have hto : to_.1 = frm.1 + n * delta := by
        rw [Nat.mul_comm, ← hn]
        exact (Nat.add_sub_of_le hlt.le).symm
      have hpos : 0 < n := Nat.pos_of_ne_zero fun hzero => by
        rw [hto, hzero, Nat.zero_mul] at hlt
        exact Nat.lt_irrefl _ hlt
      refine agree_of_count hb (n := n) (fun i => ?_) (Or.inr ⟨hfrm, ?_, hto ▸ to_.2⟩)
      · rw [hto, Nat.add_lt_add_iff_left, Nat.mul_lt_mul_right hdelta]
      · rw [hn, Nat.mul_div_cancel_left n hdelta]
        exact max_eq_right hpos
    · -- the range has one cell
      refine agree_of_count hb (n := 1) (fun i => ?_) (Or.inr ⟨hfrm, ?_, by rwa [Nat.one_mul]⟩)
      · rw [Nat.lt_one_iff]
        constructor
        · rintro rfl
          simpa using hlt
        · intro hi
          refine Nat.eq_zero_of_not_pos fun hpos => ?_
          have hle : delta ≤ i * delta := Nat.le_mul_of_pos_left delta hpos
          have hto : to_.1 < frm.1 + delta := (Nat.sub_lt_iff_lt_add' hlt.le).mp hshort
          exact absurd (hto.trans_le (Nat.add_le_add_left hle _)) (Nat.lt_asymm hi)
      · rw [Nat.div_eq_of_lt hshort]
        rfl
  · refine agree_of_count hb (n := 0) (fun i => ?_) (Or.inl rfl)
    have hnot : ¬ frm.1 + i * delta < to_.1 := Nat.not_lt.mpr (hge.trans (Nat.le_add_right _ _))
    exact iff_of_false (Nat.not_lt_zero i) hnot

/-! ### Where it is not -/

/-- A device with polls at these times. -/
def polledAt (times : List Time) (h : times.Nodup) : Table where
  rows := times.map fun t => ⟨t, 1, "cpu.pct", "", 1, 5⟩
  nodup := by
    rw [List.map_map]
    exact h.map fun _ _ heq => (Prod.mk.inj heq).1

def oneDevice : Records := ⟨[(1, "reachable")], [], []⟩

theorem oneDevice_devices : (oneDevice.devices.filter fun d => d.1 = 1).length = 1 := by decide

theorem polls_polledAt {times : List Time} (h : times.Nodup) {frm to_ : Time}
    (hin : ∀ t ∈ times, frm ≤ t ∧ t < to_) (deviceId : Option DeviceId)
    (hdevice : (deviceId.all fun d => decide ((1 : DeviceId) = d)) = true) :
    Query.polls ⟨1, frm, to_, deviceId⟩ (polledAt times h) = (polledAt times h).rows := by
  refine List.filter_eq_self.mpr fun r hr => ?_
  obtain ⟨t, ht, rfl⟩ := List.mem_map.mp hr
  exact Bool.and_intro (decide_eq_true ⟨rfl, rfl, hin t ht⟩) hdevice

theorem present_polledAt (delta : Time) {times : List Time} (h : times.Nodup) {frm to_ : Time}
    (hin : ∀ t ∈ times, frm ≤ t ∧ t < to_) :
    Query.present ⟨1, frm, to_, some 1⟩ (polledAt times h) delta =
      (times.map (timeBucket delta)).dedup := by
  rw [Query.present, polls_polledAt h hin _ (by decide), polledAt, List.map_map]
  rfl

theorem ComputedOneWay.polledAt (hb : bucketDelta bucket = .ok delta)
    (h : ComputedOneWay frm to_ bucket delta) {n : Nat}
    (hn : ∀ i, i < n ↔ frm.1 + i * delta < to_.1) {times : List Time} (hnodup : times.Nodup)
    (hin : ∀ t ∈ times, frm.1 ≤ t ∧ t < to_.1) :
    let ups := fun i => up delta (times.map (timeBucket delta)).dedup (frm.1 + i * delta)
    (n = 0 ∨ frm.1 + n * delta < endOfTime) ∧
      (∀ i < n, (∃ t ∈ times, frm.1 + i * delta ≤ t ∧ t < frm.1 + i * delta + delta) →
        ups i = 1) ∧
      round1 (min 100 ((((times.map (timeBucket delta)).dedup).length : ℚ) /
          (max 1 ((to_.1 - frm.1) / delta) : Nat) * 100)) =
        round1 ((((List.range n).map ups).sum : Nat) / n * 100) := by
  intro ups
  have hpresent := present_polledAt delta hnodup hin
  have hpolls := polls_polledAt hnodup hin none rfl
  have hpolls' := polls_polledAt hnodup hin (some 1) rfl
  have hone : ∀ r ∈ Query.polls ⟨1, frm.1, to_.1, none⟩ (Metrics.polledAt times hnodup),
      r.deviceId = 1 := by
    intro r hr
    rw [hpolls] at hr
    obtain ⟨t, -, rfl⟩ := List.mem_map.mp hr
    rfl
  obtain ⟨k, hk, huptime⟩ := kpis_uptime hb oneDevice_devices hone
  obtain ⟨series, uptime, k', hseries, hk', hcells, hsame⟩ :=
    h 1 1 oneDevice _ oneDevice_devices hone
  obtain rfl := Except.ok.inj (hk.symm.trans hk')
  have heq := availabilitySeries_eq 1 1 (Metrics.polledAt times hnodup) hb hn
  dsimp only at heq
  rw [hseries, hpresent] at heq
  split_ifs at heq with hend
  obtain ⟨rfl, rfl⟩ := Prod.mk.inj (Except.ok.inj heq)
  refine ⟨hend, fun i hi ⟨t, ht, hcell⟩ => ?_, ?_⟩
  · have hpolled : Query.Polled ⟨1, frm.1, to_.1, some 1⟩ (Metrics.polledAt times hnodup) delta
        (frm.1 + i * delta) := by
      unfold Query.Polled
      rw [hpolls']
      exact ⟨_, List.mem_map_of_mem ht, hcell⟩
    have hmem := (hcells (frm.1 + i * delta, 1)).mpr ⟨i, (hn i).mp hi, by rw [if_pos hpolled]⟩
    obtain ⟨j, -, hj⟩ := List.mem_map.mp hmem
    obtain ⟨hcur, hup⟩ := Prod.mk.inj hj
    rwa [hcur] at hup
  · rw [← hpresent, ← huptime, hsame]

/-- **A poll at the start of a range that does not start with a bucket is in no
cell.** -/
theorem dvd_of_oneWay (hb : bucketDelta bucket = .ok delta)
    (h : ComputedOneWay frm to_ bucket delta) (hlt : frm.1 < to_.1) : delta ∣ frm.1 := by
  have hdelta := bucketDelta_pos hb
  obtain ⟨n, hn⟩ := exists_count hdelta frm.1 to_.1
  have hfirst : 0 < n := (hn 0).mpr (by simpa using hlt)
  have hin : ∀ t ∈ [frm.1], frm.1 ≤ t ∧ t < to_.1 := by
    intro t ht
    rw [List.mem_singleton.mp ht]
    exact ⟨le_rfl, hlt⟩
  obtain ⟨-, hmarks, -⟩ := h.polledAt hb hn (List.nodup_singleton frm.1) hin
  have hup := hmarks 0 hfirst ⟨frm.1, List.mem_singleton_self _, by simpa using hdelta⟩
  dsimp only at hup
  rw [up_eq] at hup
  split_ifs at hup with hstart
  obtain ⟨b, hb, hle, -⟩ := hstart
  -- the bucket of the poll starts in the cell, so it starts with the range
  have hbucket : b = timeBucket delta frm.1 := by simpa using hb
  have heq : timeBucket delta frm.1 = frm.1 := by
    refine le_antisymm (timeBucket_le _ _) ?_
    rw [← hbucket]
    simpa using hle
  rw [← heq]
  exact Nat.dvd_mul_left _ _

/-- **A range with a rest has a cell more than the summary counts.** -/
theorem rest_of_oneWay (hb : bucketDelta bucket = .ok delta)
    (h : ComputedOneWay frm to_ bucket delta) (hfrm : delta ∣ frm.1) :
    delta ∣ to_.1 - frm.1 ∨ to_.1 - frm.1 < delta ∧ frm.1 + delta < endOfTime := by
  refine or_iff_not_imp_left.mpr fun hrest => ?_
  have hdelta := bucketDelta_pos hb
  have hn : ∀ i, i < (to_.1 - frm.1) / delta + 1 ↔ frm.1 + i * delta < to_.1 := by
    intro i
    have hne : i * delta ≠ to_.1 - frm.1 := fun heq => hrest ⟨i, by rw [← heq, Nat.mul_comm]⟩
    rw [Nat.lt_succ_iff, Nat.le_div_iff_mul_le hdelta, Nat.le_iff_lt_or_eq, or_iff_left hne,
      Nat.lt_sub_iff_add_lt']
  rcases Nat.eq_zero_or_pos ((to_.1 - frm.1) / delta) with hzero | hpos
  · -- the cell of a range shorter than a bucket has an end
    obtain ⟨hend, -⟩ := h.polledAt hb hn List.nodup_nil (by simp)
    rw [hzero, Nat.zero_add, Nat.one_mul] at hend
    refine ⟨?_, hend.resolve_left Nat.one_ne_zero⟩
    exact (Nat.div_eq_zero_iff_lt hdelta).mp hzero
  · -- with polls in the first buckets, as many as it takes
    obtain ⟨k, hk, hne⟩ := exists_round1_ne _ hpos
    have hdvd : ∀ i, delta ∣ frm.1 + i * delta := fun i => hfrm.add (Nat.dvd_mul_left _ _)
    have hnodup : ((List.range k).map fun i => frm.1 + i * delta).Nodup :=
      List.nodup_range.map fun i j hij =>
        Nat.eq_of_mul_eq_mul_right hdelta (Nat.add_left_cancel hij)
    have hin : ∀ t ∈ (List.range k).map fun i => frm.1 + i * delta, frm.1 ≤ t ∧ t < to_.1 := by
      intro t ht
      obtain ⟨i, hi, rfl⟩ := List.mem_map.mp ht
      have hcell := (hn i).mp (Nat.lt_succ_of_lt ((List.mem_range.mp hi).trans_le hk))
      exact ⟨Nat.le_add_right _ _, hcell⟩
    have hbuckets : ((List.range k).map fun i => frm.1 + i * delta).map (timeBucket delta) =
        (List.range k).map fun i => frm.1 + i * delta := by
      rw [List.map_map]
      exact List.map_congr_left fun i _ => Nat.div_mul_cancel (hdvd i)
    have hups := sum_up ⟨1, frm.1, to_.1, some 1⟩ (polledAt _ hnodup) hdelta hfrm hn
    obtain ⟨-, -, heq⟩ := h.polledAt hb hn hnodup hin
    rw [present_polledAt delta hnodup hin, hbuckets, hnodup.dedup, List.length_map,
      List.length_range] at hups
    rw [hbuckets, hnodup.dedup, hups, List.length_map, List.length_range, max_eq_right hpos,
      min_eq_right (percent_le hk)] at heq
    exact absurd heq.symm hne

/-- **The two compute availability in one way exactly on the ranges that fit the
buckets.** -/
theorem computedOneWay_iff (hb : bucketDelta bucket = .ok delta) :
    ComputedOneWay frm to_ bucket delta ↔ Fits delta frm to_ := by
  constructor
  · intro h
    rcases Nat.lt_or_ge frm.1 to_.1 with hlt | hge
    · have hfrm := dvd_of_oneWay hb h hlt
      exact Or.inr ⟨hfrm, rest_of_oneWay hb h hfrm⟩
    · exact Or.inl hge
  · exact agree_of_fits hb

end OneWay

def minutes (m : Nat) (h : m < 1440) : Instant :=
  ⟨m * 60000000, by
    have hday : m * 60000000 < dayMicros :=
      Nat.mul_lt_mul_of_pos_right h (show 0 < 60000000 by decide)
    exact hday.trans_le (Nat.le_mul_of_pos_left dayMicros (by decide))⟩

theorem fullHours_oneWay :
    ComputedOneWay (minutes 60 (by decide)) (minutes 180 (by decide)) "1 hour" hourMicros :=
  (computedOneWay_iff rfl).mpr (Or.inr ⟨by decide, Or.inl (by decide)⟩)

def polledOnce : Table := polledAt [40 * 60000000] (List.nodup_singleton _)

def halfPast : Instant := minutes 30 (by decide)

def fiveTo : Instant := minutes 55 (by decide)

theorem halfPast_one_cell (i : Nat) : i < 1 ↔ halfPast.1 + i * hourMicros < fiveTo.1 := by
  have hfrm : halfPast.1 = 1800000000 := rfl
  have hto : fiveTo.1 = 3300000000 := rfl
  have hhour : hourMicros = 3600000000 := rfl
  rw [hfrm, hto, hhour]
  omega

theorem halfPast_series :
    availabilitySeries 1 halfPast fiveTo "1 hour" 1 polledOnce = .ok ([(halfPast.1, 0)], 0) := by
  have hb : bucketDelta "1 hour" = .ok hourMicros := rfl
  have hend : halfPast.1 + 1 * hourMicros < endOfTime := (minutes 90 (by decide)).2
  have hup : up hourMicros (Query.present ⟨1, halfPast.1, fiveTo.1, some 1⟩ polledOnce hourMicros)
      (halfPast.1 + 0 * hourMicros) = 0 := by
    decide +kernel
  rw [availabilitySeries_eq 1 1 polledOnce hb halfPast_one_cell, if_pos (Or.inr hend),
    List.range_one, List.map_singleton, List.map_singleton]
  dsimp only
  rw [hup, List.sum_singleton, Nat.zero_mul, Nat.add_zero, Nat.cast_zero, zero_div, zero_mul]

theorem halfPast_polled :
    Query.Polled ⟨1, halfPast.1, fiveTo.1, some 1⟩ polledOnce hourMicros halfPast.1 := by
  decide +kernel

/-- **From half past to five to, a poll is seen by the summary only.** -/
theorem halfPast_down :
    availabilitySeries 1 halfPast fiveTo "1 hour" 1 polledOnce = .ok ([(halfPast.1, 0)], 0) ∧
      (∃ k, kpis 1 halfPast fiveTo "1 hour" oneDevice polledOnce = .ok k ∧ k.uptimePct = 100) ∧
      ¬ ComputedOneWay halfPast fiveTo "1 hour" hourMicros := by
  have hone : ∀ r ∈ Query.polls ⟨1, halfPast.1, fiveTo.1, none⟩ polledOnce, r.deviceId = 1 := by
    decide +kernel
  have hb : bucketDelta "1 hour" = .ok hourMicros := rfl
  obtain ⟨k, hk, huptime⟩ := kpis_uptime hb oneDevice_devices hone
  refine ⟨halfPast_series, ⟨k, hk, ?_⟩, fun hall => ?_⟩
  · rw [huptime]
    decide +kernel
  · obtain ⟨series, uptime, -, hseries, -, hcells, -⟩ :=
      hall 1 1 oneDevice polledOnce oneDevice_devices hone
    obtain ⟨rfl, -⟩ := Prod.mk.inj (Except.ok.inj (halfPast_series.symm.trans hseries))
    have hmem := (hcells (halfPast.1, 1)).mpr ⟨0, (halfPast_one_cell 0).mp Nat.one_pos, by
      rw [Nat.zero_mul, Nat.add_zero, if_pos halfPast_polled]⟩
    simp at hmem

end Metrics

end Opngms
