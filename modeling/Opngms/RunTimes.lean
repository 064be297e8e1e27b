/-
Opngms/RunTimes.lean

Fire times and report windows (`next_run_at` and `report_window` of
`app/services/report_schedule.py`) as `datetime` computes them, from year 1 to
the end of year 9999.

`next_run_at` is the least time after `after` that falls on the schedule
(`Cadence.Falls`), and raises exactly if that time is not before year 10000
(`nextRunAt_isLeast`, `nextRunAt_raises_iff`).  From one run time to the next the
windows meet, so the windows of successive run times hold every instant between
the first and the last exactly once.

Main result: **`run_times_tile`**.
-/
import Mathlib.Order.Bounds.Basic
import Opngms.EventCursor
import Opngms.ReportWindows

namespace Opngms

namespace Delivery

open Calendar

/-! ### When a schedule falls due -/

/-- `t.day`. -/
def dayOfMonth (t : Time) : Nat := dayOf t - months.start (months.indexOf (dayOf t)) + 1

/-- The instant is at the hour of the schedule, on its weekday or on the first
day of a month. -/
def Cadence.Falls (c : Cadence) (t : Time) : Prop :=
  t % dayMicros = c.hour * hourMicros ∧
    match c.frequency with
    | .weekly => c.weekday = some (weekdayOf (dayOf t))
    | .monthly => dayOfMonth t = 1
    | .onDemand => False

theorem eq_atHour_iff {t day hour : Nat} (hhour : hour ≤ 23) :
    t = atHour day hour ↔ t % dayMicros = hour * hourMicros ∧ dayOf t = day := by
  have hdiv := Nat.div_add_mod t dayMicros
  constructor
  · rintro rfl
    refine ⟨?_, dayOf_atHour day hhour⟩
    unfold atHour dayMicros hourMicros
    omega
  · rintro ⟨hmod, rfl⟩
    unfold atHour dayOf
    rw [← hmod, Nat.mul_comm, hdiv]

/-- **The instants on the schedule are its fire times.** -/
theorem Cadence.falls_iff (c : Cadence) (h : c.frequency ≠ .onDemand) {t : Time} :
    c.Falls t ↔ ∃ n, t = c.fires n := by
  obtain ⟨frequency, weekday, hour, hhour, hweekday, hgiven⟩ := c
  cases frequency with
  | onDemand => exact absurd rfl h
  | weekly =>
    obtain ⟨day, rfl⟩ := Option.isSome_iff_exists.mp (hgiven rfl)
    have hday : day ≤ 6 := hweekday day rfl
    dsimp only [Falls, fires, Option.getD_some]
    simp only [eq_atHour_iff hhour]
    unfold weekdayOf
    rw [exists_and_left, Option.some.injEq]
    refine and_congr_right fun _ => ⟨fun hmod => ⟨dayOf t / 7, by omega⟩, ?_⟩
    rintro ⟨n, hn⟩
    omega
  | monthly =>
    have hle := months.start_indexOf_le (dayOf t)
    dsimp only [Falls, fires]
    simp only [eq_atHour_iff hhour]
    unfold dayOfMonth
    rw [exists_and_left]
    refine and_congr_right fun _ => ⟨fun hone => ⟨months.indexOf (dayOf t), ?_⟩, ?_⟩
    · show dayOf t = months.start _
      omega
    · rintro ⟨n, hn⟩
      have hindex : months.indexOf (dayOf t) = n := by
        rw [hn]
        exact months.indexOf_start n
      rw [hindex, hn]
      show months.start n - months.start n + 1 = 1
      omega

theorem Cadence.following_isLeast (c : Cadence) (h : c.frequency ≠ .onDemand) {after n : Time}
    (hn : c.following after = some n) : IsLeast {u | after < u ∧ c.Falls u} n := by
  obtain ⟨k, hk, hlt, hle⟩ := c.following_isNext h after
  obtain rfl := Option.some.inj (hn.symm.trans hk)
  refine ⟨⟨hlt, (c.falls_iff h).mpr ⟨k, rfl⟩⟩, ?_⟩
  rintro u ⟨hu, hfalls⟩
  obtain ⟨j, rfl⟩ := (c.falls_iff h).mp hfalls
  exact c.fires_strictMono.monotone (hle j hu)

namespace Dated

open EventCursor

/-! ### Arithmetic of `datetime` -/

/-- What the arithmetic of `datetime` raises. -/
inductive DateError where
  | overflowError
  | valueError
  deriving DecidableEq

def monthIn (t : Instant) : Nat := months.indexOf (dayOf t.1)

/-- A date with a full hour, in UTC. -/
def ofParts (year month day hour : Nat) : Except DateError Instant :=
  match datetime year month day hour 0 0 0 with
  | some t => .ok t
  | none => .error .valueError

/-- `t.replace(hour=hour, minute=0, second=0, microsecond=0)`. -/
def replaceHour (t : Instant) (hour : Nat) : Except DateError Instant :=
  ofParts (yearOf (monthIn t)) (monthOf (monthIn t)) (dayOfMonth t.1) hour

/-- `t + timedelta(days=days)`. -/
def addDays (t : Instant) (days : Nat) : Except DateError Instant :=
  if h : t.1 + days * dayMicros < endOfTime then .ok ⟨_, h⟩ else .error .overflowError

/-- `t - timedelta(days=days)`. -/
def subDays (t : Instant) (days : Nat) : Except DateError Instant :=
  if days * dayMicros ≤ t.1 then
    .ok ⟨t.1 - days * dayMicros, Nat.lt_of_le_of_lt (Nat.sub_le _ _) t.2⟩
  else .error .overflowError

/-- `next_run_at`. -/
def nextRunAt (frequency : Frequency) (weekday : Option Nat) (hour : Nat) (after : Instant) :
    Except DateError (Option Instant) :=
  match frequency with
  | .onDemand => .ok none
  | .weekly =>
    match weekday with
    | none => .error .valueError
    | some weekday => do
      let candidate ← replaceHour after hour
      let daysAhead := (weekday + 7 - weekdayOf (dayOf candidate.1)) % 7
      let candidate ← addDays candidate daysAhead
      if candidate.1 ≤ after.1 then
        let candidate ← addDays candidate 7
        return some candidate
      else return some candidate
  | .monthly => do
    let year := yearOf (monthIn after)
    let month := monthOf (monthIn after)
    let firstThis ← ofParts year month 1 hour
    if after.1 < firstThis.1 then return some firstThis
    else
      let next := if month = 12 then (year + 1, 1) else (year, month + 1)
      let first ← ofParts next.1 next.2 1 hour
      return some first

/-- `report_window`. -/
def reportWindow (frequency : Frequency) (runAt : Instant) : Except DateError (Instant × Instant) := do
  let dayStart ← replaceHour runAt 0
  match frequency with
  | .monthly =>
    let year := yearOf (monthIn dayStart)
    let month := monthOf (monthIn dayStart)
    let to_ ← ofParts year month 1 0
    let before := if month = 1 then (year - 1, 12) else (year, month - 1)
    let frm ← ofParts before.1 before.2 1 0
    return (frm, to_)
  | _ =>
    let frm ← subDays dayStart 7
    return (frm, dayStart)

/-! ### What it computes -/

theorem ofParts_eq {m day hour : Nat} (hday : 1 ≤ day)
    (hmonth : months.start m + day ≤ months.start (m + 1)) (hhour : hour ≤ 23) :
    ofParts (yearOf m) (monthOf m) day hour =
      if h : atHour (months.start m + (day - 1)) hour < endOfTime then .ok ⟨_, h⟩
      else .error .valueError := by
  have hparts : datetime (yearOf m) (monthOf m) day hour 0 0 0 =
      if h : atHour (months.start m + (day - 1)) hour < endOfTime then some ⟨_, h⟩ else none := by
    have htime : (months.start m + (day - 1)) * dayMicros +
        ((hour * 60 + 0) * 60 + 0) * 1000000 + 0 = atHour (months.start m + (day - 1)) hour := by
      unfold atHour hourMicros
      omega
    have hfields : 1 ≤ yearOf m ∧ 1 ≤ monthOf m ∧ monthOf m ≤ 12 := by
      unfold yearOf monthOf
      omega
    unfold datetime
    rw [monthIndex_of]
    dsimp only
    rw [if_pos ⟨hfields.1, hfields.2.1, hfields.2.2, hday, hmonth, by omega, by decide, by decide⟩]
    simp only [htime]
  unfold ofParts
  rw [hparts]
  split_ifs <;> rfl

theorem ofParts_first (m : Nat) {hour : Nat} (hhour : hour ≤ 23) :
    ofParts (yearOf m) (monthOf m) 1 hour =
      if h : atHour (months.start m) hour < endOfTime then .ok ⟨_, h⟩ else .error .valueError := by
  have hstep := months.step m
  have hgap : months.gap = 28 := rfl
  rw [ofParts_eq le_rfl (by omega) hhour]
  rfl

theorem atHour_lt_end {day hour : Nat} (hhour : hour ≤ 23) (h : day < months.start 119988) :
    atHour day hour < endOfTime := by
  unfold atHour endOfTime dayMicros hourMicros
  omega

theorem dayOf_lt (t : Instant) : dayOf t.1 < months.start 119988 :=
  Nat.div_lt_of_lt_mul (by rw [Nat.mul_comm]; exact t.2)

theorem replaceHour_eq (t : Instant) {hour : Nat} (hhour : hour ≤ 23) :
    replaceHour t hour = .ok ⟨atHour (dayOf t.1) hour, atHour_lt_end hhour (dayOf_lt t)⟩ := by
  have hle := months.start_indexOf_le (dayOf t.1)
  have hlt := months.lt_start_succ_indexOf (dayOf t.1)
  have hday : months.start (monthIn t) + (dayOfMonth t.1 - 1) = dayOf t.1 := by
    unfold dayOfMonth monthIn
    omega
  have hin : months.start (monthIn t) + dayOfMonth t.1 ≤ months.start (monthIn t + 1) := by
    unfold dayOfMonth monthIn
    omega
  have hpos : 1 ≤ dayOfMonth t.1 := Nat.le_add_left 1 _
  rw [replaceHour, ofParts_eq hpos hin hhour]
  simp only [hday]
  exact dif_pos (atHour_lt_end hhour (dayOf_lt t))

theorem ok_bind {α β : Type} (a : α) (f : α → Except DateError β) : (Except.ok a >>= f) = f a :=
  rfl

theorem error_bind {α β : Type} (e : DateError) (f : α → Except DateError β) :
    (Except.error e >>= f) = .error e := rfl

/-- What `next_run_at` raises where no `datetime` can hold the time. -/
def rangeError : Frequency → DateError
  | .monthly => .valueError
  | _ => .overflowError

/-- The instant, if a `datetime` can hold it. -/
def inRange (e : DateError) (t : Time) : Except DateError (Option Instant) :=
  if h : t < endOfTime then .ok (some ⟨t, h⟩) else .error e

theorem inRange_ok {e : DateError} {t : Time} (h : t < endOfTime) :
    inRange e t = .ok (some ⟨t, h⟩) :=
  dif_pos h

theorem inRange_error {e : DateError} {t : Time} (h : ¬ t < endOfTime) : inRange e t = .error e :=
  dif_neg h

theorem addDays_eq (t : Instant) (days : Nat) :
    (do return some (← addDays t days)) = inRange .overflowError (t.1 + days * dayMicros) := by
  unfold addDays inRange
  split_ifs <;> rfl

theorem parts_after (m : Nat) :
    (if monthOf m = 12 then (yearOf m + 1, 1) else (yearOf m, monthOf m + 1)) =
      (yearOf (m + 1), monthOf (m + 1)) := by
  unfold yearOf monthOf
  split_ifs <;> (rw [Prod.mk.injEq]; omega)

theorem parts_before (m : Nat) :
    (if monthOf (m + 1) = 1 then (yearOf (m + 1) - 1, 12)
      else (yearOf (m + 1), monthOf (m + 1) - 1)) = (yearOf m, monthOf m) := by
  unfold yearOf monthOf
  split_ifs <;> (rw [Prod.mk.injEq]; omega)

theorem nextRunAt_weekly (day : Nat) {hour : Nat} (hhour : hour ≤ 23) (after : Instant) :
    ∃ n, Delivery.nextRunAt .weekly (some day) hour after.1 = .ok (some n) ∧
      nextRunAt .weekly (some day) hour after = inRange .overflowError n := by
  refine ⟨_, rfl, ?_⟩
  dsimp only [nextRunAt]
  rw [replaceHour_eq after hhour, ok_bind]
  rw [dayOf_atHour _ hhour]
  generalize (day + 7 - weekdayOf (dayOf after.1)) % 7 = daysAhead
  rw [addDays]
  dsimp only
  by_cases hcand : atHour (dayOf after.1) hour + daysAhead * dayMicros < endOfTime
  · rw [dif_pos hcand, ok_bind]
    dsimp only
    split_ifs with hpast
    · exact addDays_eq _ 7
    · exact (inRange_ok hcand).symm
  · -- what is out of range is after every `datetime`
    have hfuture : ¬ atHour (dayOf after.1) hour + daysAhead * dayMicros ≤ after.1 := fun hle =>
      hcand (hle.trans_lt after.2)
    rw [dif_neg hcand, error_bind, if_neg hfuture]
    exact (inRange_error hcand).symm

theorem nextRunAt_monthly (weekday : Option Nat) {hour : Nat} (hhour : hour ≤ 23)
    (after : Instant) :
    ∃ n, Delivery.nextRunAt .monthly weekday hour after.1 = .ok (some n) ∧
      nextRunAt .monthly weekday hour after = inRange .valueError n := by
  refine ⟨if after.1 < atHour (months.start (monthIn after)) hour then
    atHour (months.start (monthIn after)) hour
    else atHour (months.start (monthIn after + 1)) hour, ?_, ?_⟩
  · dsimp only [Delivery.nextRunAt]
    rw [monthAfter_eq]
    rfl
  have hthis : atHour (months.start (monthIn after)) hour < endOfTime :=
    atHour_lt_end hhour ((months.start_indexOf_le _).trans_lt (dayOf_lt after))
  dsimp only [nextRunAt]
  rw [ofParts_first _ hhour, dif_pos hthis, ok_bind, parts_after, ofParts_first _ hhour]
  split_ifs with hfuture hnext
  · exact (inRange_ok hthis).symm
  · rw [ok_bind]
    exact (inRange_ok hnext).symm
  · rw [error_bind]
    exact (inRange_error hnext).symm

/-- **`next_run_at` is what the cadence computes**, if a `datetime` can hold it. -/
theorem nextRunAt_eq (c : Cadence) (h : c.frequency ≠ .onDemand) (after : Instant) :
    ∃ n, c.following after.1 = some n ∧
      nextRunAt c.frequency c.weekday c.hour after = inRange (rangeError c.frequency) n := by
  have hfollowing := c.nextRunAt_eq after.1
  obtain ⟨frequency, weekday, hour, hhour, hweekday, hgiven⟩ := c
  cases frequency with
  | onDemand => exact absurd rfl h
  | weekly =>
    obtain ⟨day, rfl⟩ := Option.isSome_iff_exists.mp (hgiven rfl)
    obtain ⟨n, hn, hnext⟩ := nextRunAt_weekly day hhour after
    exact ⟨n, Except.ok.inj (hfollowing.symm.trans hn), hnext⟩
  | monthly =>
    obtain ⟨n, hn, hnext⟩ := nextRunAt_monthly weekday hhour after
    exact ⟨n, Except.ok.inj (hfollowing.symm.trans hn), hnext⟩

section Least

variable (c : Cadence) (h : c.frequency ≠ .onDemand)

include h

/-- **`next_run_at` is the least instant after `after` that falls on the
schedule.** -/
theorem nextRunAt_isLeast (after t : Instant) :
    nextRunAt c.frequency c.weekday c.hour after = .ok (some t) ↔
      IsLeast {u | after.1 < u ∧ c.Falls u} t.1 := by
  obtain ⟨n, hn, hnext⟩ := nextRunAt_eq c h after
  have hleast := c.following_isLeast h hn
  rw [hnext]
  constructor
  · intro hok
    by_cases hrange : n < endOfTime
    · rw [inRange_ok hrange] at hok
      obtain rfl := Option.some.inj (Except.ok.inj hok)
      exact hleast
    · rw [inRange_error hrange] at hok
      cases hok
  · intro ht
    obtain rfl := hleast.unique ht
    exact inRange_ok t.2

theorem nextRunAt_raises_iff (after : Instant) :
    nextRunAt c.frequency c.weekday c.hour after = .error (rangeError c.frequency) ↔
      ∀ u, after.1 < u → c.Falls u → endOfTime ≤ u := by
  obtain ⟨n, hn, hnext⟩ := nextRunAt_eq c h after
  have hleast := c.following_isLeast h hn
  rw [hnext]
  by_cases hrange : n < endOfTime
  · rw [inRange_ok hrange]
    exact iff_of_false nofun fun hall =>
      absurd (hall n hleast.1.1 hleast.1.2) (Nat.not_le.mpr hrange)
  · rw [inRange_error hrange]
    exact iff_of_true rfl fun u hu hfalls =>
      (Nat.not_lt.mp hrange).trans (hleast.2 ⟨hu, hfalls⟩)

end Least

/-! ### Windows -/

theorem dayStart_monthly (runAt : Instant) {dayStart : Instant}
    (h : dayStart.1 = atHour (dayOf runAt.1) 0) : monthIn dayStart = monthIn runAt := by
  unfold monthIn
  rw [h, dayOf_atHour _ (by decide)]

theorem atHour_zero (day : Nat) : atHour day 0 = day * dayMicros := by
  rw [atHour, Nat.zero_mul, Nat.add_zero]

theorem subDays_week {t : Instant} {day : Nat} (h : t.1 = atHour day 0) (hday : 7 ≤ day) :
    ∃ frm, subDays t 7 = .ok frm ∧ frm.1 = (day - 7) * dayMicros := by
  have hle : 7 * dayMicros ≤ t.1 := by
    rw [h, atHour_zero]
    exact Nat.mul_le_mul_right _ hday
  rw [subDays, if_pos hle]
  refine ⟨_, rfl, ?_⟩
  rw [Nat.sub_mul, ← atHour_zero day, ← h]

theorem reportWindow_eq (c : Cadence) {runAt : Instant} (h : c.span ≤ c.unitOf runAt.1) :
    ∃ w, reportWindow c.frequency runAt = .ok w ∧
      w.1.1 = c.unitStart (c.unitOf runAt.1 - c.span) ∧
      w.2.1 = c.unitStart (c.unitOf runAt.1) := by
  obtain ⟨frequency, weekday, hour, hhour, hweekday, hgiven⟩ := c
  unfold reportWindow
  rw [replaceHour_eq runAt (by decide), ok_bind]
  cases frequency with
  | weekly | onDemand =>
    obtain ⟨frm, hfrm, hval⟩ := subDays_week (t := ⟨_, atHour_lt_end (by decide) (dayOf_lt runAt)⟩)
      rfl h
    dsimp only
    rw [hfrm, ok_bind]
    exact ⟨_, rfl, hval, atHour_zero _⟩
  | monthly =>
    dsimp only [Cadence.span, Cadence.unitOf, Cadence.unitStart] at h ⊢
    rw [dayStart_monthly runAt rfl]
    obtain ⟨m, hm⟩ := Nat.exists_eq_add_of_le' h
    have hmonth : monthIn runAt = m + 1 := hm
    have hlt : months.start (m + 1) < months.start 119988 := by
      rw [← hmonth]
      exact (months.start_indexOf_le _).trans_lt (dayOf_lt runAt)
    have hend : atHour (months.start (m + 1)) 0 < endOfTime := atHour_lt_end (by decide) hlt
    have hstart : atHour (months.start m) 0 < endOfTime :=
      atHour_lt_end (by decide) ((months.strictMono (Nat.lt_succ_self m)).trans hlt)
    rw [hm, hmonth, parts_before, ofParts_first _ (by decide), ofParts_first _ (by decide),
      dif_pos hend, ok_bind, dif_pos hstart, ok_bind]
    exact ⟨_, rfl, atHour_zero _, atHour_zero _⟩

theorem reportWindow_raises (c : Cadence) {runAt : Instant} (h : c.unitOf runAt.1 < c.span) :
    ∃ e, reportWindow c.frequency runAt = .error e := by
  obtain ⟨frequency, weekday, hour, hhour, hweekday, hgiven⟩ := c
  unfold reportWindow
  rw [replaceHour_eq runAt (by decide), ok_bind]
  cases frequency with
  | weekly | onDemand =>
    have hweek : ¬ 7 * dayMicros ≤ atHour (dayOf runAt.1) 0 := by
      rw [atHour_zero]
      exact fun hle => Nat.not_le.mpr h (Nat.le_of_mul_le_mul_right hle (by decide))
    dsimp only
    rw [subDays, if_neg hweek, error_bind]
    exact ⟨_, rfl⟩
  | monthly =>
    have hmonth : monthIn runAt = 0 := Nat.lt_one_iff.mp h
    have hend : atHour (months.start 0) 0 < endOfTime :=
      atHour_lt_end (by decide) (months.strictMono (by decide))
    dsimp only
    rw [dayStart_monthly runAt rfl, hmonth, ofParts_first _ (by decide), dif_pos hend, ok_bind]
    exact ⟨_, rfl⟩

/-! ### Successive runs -/

/-- Run times, each the next after the one before. -/
structure RunTimes (c : Cadence) (n : Nat) (r : Nat → Instant) : Prop where
  first : c.Falls (r 0).1
  next : ∀ i < n, nextRunAt c.frequency c.weekday c.hour (r i) = .ok (some (r (i + 1)))

theorem RunTimes.fires {c : Cadence} (h : c.frequency ≠ .onDemand) {n : Nat} {r : Nat → Instant}
    (hr : RunTimes c n r) : ∃ k, ∀ i ≤ n, (r i).1 = c.fires (k + i) := by
  obtain ⟨k, hk⟩ := (c.falls_iff h).mp hr.first
  refine ⟨k, fun i => ?_⟩
  induction i with
  | zero => exact fun _ => hk
  | succ i ih =>
    intro hi
    have hleast := (nextRunAt_isLeast c h _ _).mp (hr.next i hi)
    rw [ih (Nat.le_of_lt hi)] at hleast
    exact hleast.unique (c.following_isLeast h (c.following_fires h _))

theorem unitStart_mono (c : Cadence) : Monotone c.unitStart := by
  intro m m' h
  unfold Cadence.unitStart
  split
  · exact Nat.mul_le_mul_right _ (months.strictMono.monotone h)
  · exact Nat.mul_le_mul_right _ h

/-- **Schedules fire at the least instant that is left, and the windows of
successive run times tile the time between them.** -/
theorem run_times_tile (c : Cadence) (h : c.frequency ≠ .onDemand) :
    (∀ after t, nextRunAt c.frequency c.weekday c.hour after = .ok (some t) ↔
      IsLeast {u | after.1 < u ∧ c.Falls u} t.1) ∧
    (∀ after, nextRunAt c.frequency c.weekday c.hour after = .error (rangeError c.frequency) ↔
      ∀ u, after.1 < u → c.Falls u → endOfTime ≤ u) ∧
    ∀ n r, RunTimes c n r →
      (∀ i < n, ∃ w, reportWindow c.frequency (r (i + 1)) = .ok w) ∧
      ∀ w : Nat → Instant × Instant, (∀ i ≤ n, reportWindow c.frequency (r i) = .ok (w i)) →
        (∀ i < n, (w (i + 1)).1 = (w i).2) ∧
        ∀ t, (w 0).1.1 ≤ t → t < (w n).2.1 → ∃! i, i ≤ n ∧ (w i).1.1 ≤ t ∧ t < (w i).2.1 := by
  refine ⟨nextRunAt_isLeast c h, nextRunAt_raises_iff c h, fun n r hr => ?_⟩
  obtain ⟨k, hfires⟩ := hr.fires h
  have hunit : ∀ i ≤ n, c.unitOf (r i).1 = c.unitOf (r 0).1 + c.span * i := by
    intro i hi
    rw [hfires i hi, hfires 0 (Nat.zero_le n), c.unitOf_fires, c.unitOf_fires (k + 0),
      Nat.add_zero, Nat.mul_add, Nat.add_assoc]
  refine ⟨fun i hi => ?_, fun w hw => ?_⟩
  · have hspan : c.span ≤ c.unitOf (r (i + 1)).1 := by
      rw [hunit _ hi, Nat.mul_succ]
      omega
    obtain ⟨w, hok, -⟩ := reportWindow_eq c hspan
    exact ⟨w, hok⟩
  -- the first window is there, so the first run is not in the first round of year 1
  have hspan : c.span ≤ c.unitOf (r 0).1 := by
    by_contra hearly
    obtain ⟨e, he⟩ := reportWindow_raises c (Nat.not_le.mp hearly)
    rw [hw 0 (Nat.zero_le n)] at he
    cases he
  obtain ⟨u, hu⟩ := Nat.exists_eq_add_of_le hspan
  let bounds (i : Nat) : Nat := c.unitStart (u + c.span * i)
  have hwin : ∀ i ≤ n, (w i).1.1 = bounds i ∧ (w i).2.1 = bounds (i + 1) := by
    intro i hi
    have hi' := hunit i hi
    have hle : c.span ≤ c.unitOf (r i).1 := by omega
    obtain ⟨w', hok, hfrom, hto⟩ := reportWindow_eq c hle
    obtain rfl := Except.ok.inj (hok.symm.trans (hw i hi))
    refine ⟨hfrom.trans (congrArg _ ?_), hto.trans (congrArg _ ?_)⟩
    · omega
    · rw [Nat.mul_succ]
      omega
  have hmono : Monotone bounds := fun i j hij =>
    unitStart_mono c (Nat.add_le_add_left (Nat.mul_le_mul_left _ hij) _)
  refine ⟨fun i hi => Subtype.ext ?_, fun t hfirst hlast => ?_⟩
  · exact (hwin (i + 1) hi).1.trans (hwin i (Nat.le_of_lt hi)).2.symm
  · rw [(hwin 0 (Nat.zero_le n)).1] at hfirst
    rw [(hwin n le_rfl).2] at hlast
    obtain ⟨i, ⟨hi, hin⟩, hone⟩ := existsUnique_between hmono hfirst hlast
    have hi' : i ≤ n := Nat.le_of_lt_succ hi
    refine ⟨i, ⟨hi', ?_⟩, ?_⟩
    · rw [(hwin i hi').1, (hwin i hi').2]
      exact hin
    · rintro j ⟨hj, hjn⟩
      rw [(hwin j hj).1, (hwin j hj).2] at hjn
      exact hone j ⟨Nat.lt_succ_of_le hj, hjn⟩

def instantAt (day hour : Nat) (hhour : hour ≤ 23) (h : day < months.start 119988) : Instant :=
  ⟨atHour day hour, atHour_lt_end hhour h⟩

/-- From a Sunday to the Monday after it, and from there to the next one. -/
theorem mondays_next :
    nextRunAt mondays.frequency mondays.weekday mondays.hour
        (instantAt 739780 12 (by decide) (by decide)) =
      .ok (some (instantAt 739781 23 (by decide) (by decide))) ∧
    nextRunAt mondays.frequency mondays.weekday mondays.hour
        (instantAt 739781 23 (by decide) (by decide)) =
      .ok (some (instantAt 739788 23 (by decide) (by decide))) := by
  have hleast : ∀ {after n : Time}, mondays.following after = some n →
      IsLeast {u | after < u ∧ mondays.Falls u} n := mondays.following_isLeast (by decide)
  refine ⟨((run_times_tile mondays (by decide)).1 _ _).mpr (hleast ?_),
    ((run_times_tile mondays (by decide)).1 _ _).mpr (hleast ?_)⟩
  · decide +kernel
  · decide +kernel

/-- `datetime.max`. -/
def lastInstant : Instant := ⟨endOfTime - 1, Nat.sub_one_lt (by decide)⟩

/-- **After `datetime.max` there is no instant left to return.** -/
theorem lastInstant_raises :
    ¬ ∀ c : Cadence, c.frequency ≠ .onDemand → ∀ after, ∃ t,
      nextRunAt c.frequency c.weekday c.hour after = .ok (some t) ∧
        IsLeast {u | after.1 < u ∧ c.Falls u} t.1 := by
  intro hall
  obtain ⟨t, hnext, -⟩ := hall mondays (by decide) lastInstant
  have hlast : ∀ u, lastInstant.1 < u → endOfTime ≤ u := by
    intro u hu
    have hval : lastInstant.1 = endOfTime - 1 := rfl
    rw [hval] at hu
    omega
  have hraises := (nextRunAt_raises_iff mondays (by decide) lastInstant).mpr fun u hu _ =>
    hlast u hu
  rw [hnext] at hraises
  cases hraises

end Dated

end Delivery

end Opngms
