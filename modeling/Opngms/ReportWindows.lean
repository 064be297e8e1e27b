/-
Opngms/ReportWindows.lean

Scheduled reports: the cadence and the period of a report
(`app/services/report_schedule.py`), and `deliver_scheduled_report` of
`app/worker.py`, one delivery after the other.

A cadence fires at the times `fires 0`, `fires 1`, …, and `next_run_at` gives
the next of them (`following_isNext`).  The period of a report is the one before
the day, or the month, in which the delivery runs, not the one before its due
time.  So the periods of two reports meet exactly if the deliveries are equally
late, in days or in months, where a fire time without a report counts for the
later one (**`periods_meet_iff`**).
-/
import Mathlib.Data.List.Chain
import Opngms.Calendar
import Opngms.Reports

namespace Opngms

namespace Delivery

open Calendar

/-! ### The cadence -/

/-- The settings of a schedule that say when it fires, with what the table and
the endpoint check of them. -/
structure Cadence where
  frequency : Frequency
  weekday : Option Nat
  hour : Nat
  hour_le : hour ≤ 23
  weekday_le : ∀ day, weekday = some day → day ≤ 6
  weekday_given : frequency = .weekly → weekday.isSome

/-- `next_run_at`. -/
def nextRunAt (frequency : Frequency) (weekday : Option Nat) (hour : Nat) (after : Time) :
    Except BuiltinError (Option Time) :=
  match frequency with
  | .onDemand => .ok none
  | .weekly =>
    match weekday with
    | none => .error .valueError
    | some weekday =>
      let daysAhead := (weekday + 7 - weekdayOf (dayOf after)) % 7
      let candidate := atHour (dayOf after) hour + daysAhead * dayMicros
      .ok (some (if candidate ≤ after then candidate + 7 * dayMicros else candidate))
  | .monthly =>
    let month := months.indexOf (dayOf after)
    let firstThis := atHour (monthStart month) hour
    .ok (some (if after < firstThis then firstThis else atHour (monthStart (monthAfter month)) hour))

/-- The period a report covers. -/
structure Period where
  periodFrom : Time
  periodTo : Time
  deriving DecidableEq

/-- `report_window`. -/
def reportWindow (frequency : Frequency) (runAt : Time) : Period :=
  match frequency with
  | .monthly =>
    let month := months.indexOf (dayOf runAt)
    ⟨monthStart (monthBefore month) * dayMicros, monthStart month * dayMicros⟩
  | _ =>
    let dayStart := dayOf runAt * dayMicros
    ⟨dayStart - 7 * dayMicros, dayStart⟩

namespace Cadence

variable (c : Cadence)

/-- The value of `next_run_at`, which does not raise (`nextRunAt_eq`). -/
def following (after : Time) : Option Time :=
  match nextRunAt c.frequency c.weekday c.hour after with
  | .ok next => next
  | .error _ => none

theorem nextRunAt_eq (after : Time) :
    nextRunAt c.frequency c.weekday c.hour after = .ok (c.following after) := by
  obtain ⟨frequency, weekday, hour, -, -, hgiven⟩ := c
  unfold following
  cases frequency with
  | weekly =>
    obtain ⟨day, rfl⟩ := Option.isSome_iff_exists.mp (hgiven rfl)
    rfl
  | monthly => rfl
  | onDemand => rfl

def fires (n : Nat) : Time :=
  match c.frequency with
  | .monthly => atHour (monthStart n) c.hour
  | _ => atHour (c.weekday.getD 0 + 7 * n) c.hour

/-- What the cadence counts in: the days, or for a monthly one the months. -/
def unitOf (t : Time) : Nat :=
  match c.frequency with
  | .monthly => months.indexOf (dayOf t)
  | _ => dayOf t

/-- How many days, or months, there are from one fire time to the next. -/
def span : Nat :=
  match c.frequency with
  | .monthly => 1
  | _ => 7

/-- The start of a day, or of a month. -/
def unitStart (n : Nat) : Time :=
  match c.frequency with
  | .monthly => monthStart n * dayMicros
  | _ => n * dayMicros

theorem fires_strictMono : StrictMono c.fires := by
  intro n n' h
  unfold fires
  split
  · exact atHour_strictMono c.hour (months.strictMono h)
  · exact atHour_strictMono c.hour (by omega)

theorem unitOf_mono : Monotone c.unitOf := by
  intro t t' h
  unfold unitOf
  split
  · exact months.indexOf_mono (dayOf_mono h)
  · exact dayOf_mono h

theorem unitStart_injective : Function.Injective c.unitStart := by
  intro n n' h
  unfold unitStart at h
  have hpos : 0 < dayMicros := by decide
  split at h
  · exact months.strictMono.injective (Nat.eq_of_mul_eq_mul_right hpos h)
  · exact Nat.eq_of_mul_eq_mul_right hpos h

theorem unitOf_fires (n : Nat) : c.unitOf (c.fires n) = c.unitOf (c.fires 0) + c.span * n := by
  obtain ⟨frequency, weekday, hour, hhour, -, -⟩ := c
  cases frequency with
  | monthly =>
    dsimp only [unitOf, fires, span]
    rw [dayOf_atHour _ hhour, dayOf_atHour _ hhour]
    have hindex : ∀ m, months.indexOf (monthStart m) = m := months.indexOf_start
    rw [hindex, hindex]
    omega
  | weekly =>
    dsimp only [unitOf, fires, span]
    rw [dayOf_atHour _ hhour, dayOf_atHour _ hhour]
    omega
  | onDemand =>
    dsimp only [unitOf, fires, span]
    rw [dayOf_atHour _ hhour, dayOf_atHour _ hhour]
    omega

/-- **`next_run_at` is the first fire time after `after`.** -/
theorem following_isNext (h : c.frequency ≠ .onDemand) (after : Time) :
    ∃ n, c.following after = some (c.fires n) ∧ IsNext c.fires after n := by
  have hmono := c.fires_strictMono
  obtain ⟨frequency, weekday, hour, hhour, hweekday, hgiven⟩ := c
  cases frequency with
  | onDemand => exact absurd rfl h
  | weekly =>
    obtain ⟨day, rfl⟩ := Option.isSome_iff_exists.mp (hgiven rfl)
    have hle : day ≤ 6 := hweekday day rfl
    dsimp only [following, nextRunAt]
    rw [atHour_add, atHour_add]
    -- the candidate is on the first day from `after` that has the weekday
    obtain ⟨k, hk⟩ : ∃ k, dayOf after + (day + 7 - weekdayOf (dayOf after)) % 7 = day + 7 * k := by
      refine ⟨(dayOf after + (day + 7 - weekdayOf (dayOf after)) % 7 - day) / 7, ?_⟩
      unfold weekdayOf
      omega
    have hfrom : dayOf after ≤ day + 7 * k := by omega
    have hto : day + 7 * k < dayOf after + 7 := by omega
    rw [hk]
    split_ifs with hpast
    · refine ⟨k + 1, by rw [Nat.add_assoc]; rfl, IsNext.of_before hmono ?_ fun j hj => ?_⟩
      · exact lt_atHour_of_lt hour (by simp only [Option.getD_some]; omega)
      · obtain rfl : k = j := by omega
        exact hpast
    · refine ⟨k, rfl, IsNext.of_before hmono (Nat.not_le.mp hpast) fun j hj => ?_⟩
      exact atHour_le_of_lt hhour (by simp only [Option.getD_some]; omega)
  | monthly =>
    dsimp only [following, nextRunAt]
    rw [monthAfter_eq]
    have hfrom := months.start_indexOf_le (dayOf after)
    have hto := months.lt_start_succ_indexOf (dayOf after)
    split_ifs with hfuture
    · refine ⟨_, rfl, IsNext.of_before hmono hfuture fun j hj => ?_⟩
      exact atHour_le_of_lt hhour ((months.strictMono (by omega)).trans_le hfrom)
    · refine ⟨_, rfl, IsNext.of_before hmono (lt_atHour_of_lt hour hto) fun j hj => ?_⟩
      obtain rfl : months.indexOf (dayOf after) = j := by omega
      exact Nat.not_lt.mp hfuture

theorem following_between (h : c.frequency ≠ .onDemand) {n : Nat} {t : Time}
    (hle : c.fires n ≤ t) (hlt : t < c.fires (n + 1)) :
    c.following t = some (c.fires (n + 1)) := by
  obtain ⟨k, hk, hnext⟩ := c.following_isNext h t
  rw [hk, hnext.eq_succ c.fires_strictMono hle hlt]

theorem following_fires (h : c.frequency ≠ .onDemand) (n : Nat) :
    c.following (c.fires n) = some (c.fires (n + 1)) :=
  c.following_between h le_rfl (c.fires_strictMono (Nat.lt_succ_self n))

theorem periodTo_eq (runAt : Time) :
    (reportWindow c.frequency runAt).periodTo = c.unitStart (c.unitOf runAt) := by
  obtain ⟨frequency, -, -, -, -, -⟩ := c
  cases frequency <;> rfl

theorem periodFrom_eq {runAt : Time} (h : 1 ≤ c.unitOf runAt) :
    (reportWindow c.frequency runAt).periodFrom = c.unitStart (c.unitOf runAt - c.span) := by
  obtain ⟨frequency, weekday, hour, hhour, hweekday, hgiven⟩ := c
  cases frequency with
  | monthly =>
    dsimp only [unitOf] at h
    dsimp only [reportWindow, unitStart, unitOf, span]
    obtain ⟨m, hm⟩ := Nat.exists_eq_add_of_le' h
    rw [hm, monthBefore_succ]
    rfl
  | weekly => exact (Nat.sub_mul _ _ _).symm
  | onDemand => exact (Nat.sub_mul _ _ _).symm

end Cadence

/-! ### Deliveries -/

/-- A row of `report_schedule` as the worker sees it. -/
structure Schedule where
  cadence : Cadence
  enabled : Bool
  nextRunAt : Option Time
  lastRunAt : Option Time

/-- `upsert` of the repository. -/
def upsert (row : Option Schedule) (cadence : Cadence) (enabled : Bool) (now : Time) : Schedule where
  cadence := cadence
  enabled := enabled
  nextRunAt := if enabled then cadence.following now else none
  lastRunAt := row.bind Schedule.lastRunAt

/-- What `deliver_scheduled_report` finds. -/
structure Attempt where
  now : Time
  /-- The tenant of the schedule is there. -/
  tenantKnown : Bool
  /-- The device of the schedule is there, if it has one. -/
  deviceKnown : Bool
  /-- The report is built and stored without an exception. -/
  built : Bool

/-- What `deliver_scheduled_report` returns. -/
inductive Outcome where
  | missing
  | skip
  | missingTenant
  | deviceMissing
  | generateFailed
  | generated
  deriving DecidableEq

/-- A report of kind `scheduled`, with the due time its delivery found. -/
structure Report where
  due : Option Time
  ran : Time
  period : Period
  deriving DecidableEq

def reportOf (cadence : Cadence) (due : Option Time) (now : Time) : Report :=
  ⟨due, now, reportWindow cadence.frequency now⟩

namespace Schedule

variable (s : Schedule)

/-- The test of `enqueue_due_reports`, which a delivery makes again. -/
def isDue (now : Time) : Bool :=
  s.enabled && match s.nextRunAt with
    | some due => decide (due ≤ now)
    | none => false

/-- `_advance`. -/
def advance (manual : Bool) (now : Time) : Schedule :=
  if !manual && s.cadence.frequency != .onDemand then
    { s with lastRunAt := some now, nextRunAt := s.cadence.following now }
  else { s with lastRunAt := some now }

def found (manual : Bool) : Option Time := if manual then none else s.nextRunAt

/-- What a delivery does with the row once it is past the test. -/
def settle (manual : Bool) (a : Attempt) : Outcome × Schedule :=
  if !a.tenantKnown then (.missingTenant, s)
  else if !a.deviceKnown then (.deviceMissing, { s with enabled := false })
  else if !a.built then (.generateFailed, s.advance manual a.now)
  else (.generated, s.advance manual a.now)

end Schedule

/-- `deliver_scheduled_report`: what it returns, the row, and the report it
stores. -/
def deliver (row : Option Schedule) (manual : Bool) (a : Attempt) :
    Outcome × Option Schedule × Option Report :=
  match row with
  | none => (.missing, none, none)
  | some s =>
    if !manual && !s.isDue a.now then (.skip, some s, none)
    else
      let r := s.settle manual a
      (r.1, some r.2,
        if r.1 = .generated then some (reportOf s.cadence (s.found manual) a.now) else none)

/-! ### Runs -/

/-- A schedule as the repository and the deliveries make it. -/
inductive Kept : Schedule → Prop
  | upsert (row : Option Schedule) (cadence : Cadence) (enabled : Bool) (now : Time) :
      Kept (upsert row cadence enabled now)
  | settle {s : Schedule} (manual : Bool) (a : Attempt) : Kept s → Kept (s.settle manual a).2

/-- The reports of deliveries that the cron starts one after the other. -/
def reports : Schedule → List Attempt → List Report
  | _, [] => []
  | s, a :: as =>
    let r := deliver (some s) false a
    r.2.2.toList ++ (match r.2.1 with
      | some s' => reports s' as
      | none => [])

/-- Each delivery runs after its due time and before the fire time that follows,
and the tenant and the device are there. -/
def Punctual : Schedule → List Attempt → Prop
  | _, [] => True
  | s, a :: as =>
    (a.tenantKnown = true ∧ a.deviceKnown = true ∧
      ∃ due next, s.nextRunAt = some due ∧ s.cadence.following due = some next ∧
        due ≤ a.now ∧ a.now < next) ∧
    match (deliver (some s) false a).2.1 with
      | some s' => Punctual s' as
      | none => True

/-- The period of each report starts where the one before ended. -/
def PeriodsMeet (rs : List Report) : Prop :=
  rs.IsChain fun r r' => r'.period.periodFrom = r.period.periodTo

namespace Cadence

variable (c : Cadence)

def late (r : Report) : Nat := c.unitOf r.ran - c.unitOf (r.due.getD r.ran)

/-- How many days, or months, the rounds have whose reports are missing between
two reports. -/
def missed (r r' : Report) : Nat :=
  c.unitOf (r'.due.getD r'.ran) - c.unitOf (r.due.getD r.ran) - c.span

/-- The report of the fire time `n`. -/
structure Fired (n : Nat) (r : Report) : Prop where
  due : r.due = some (c.fires n)
  le_ran : c.fires n ≤ r.ran
  ran_lt : r.ran < c.fires (n + 1)
  period : r.period = reportWindow c.frequency r.ran

theorem Fired.meet_iff {c : Cadence} {n n' : Nat} {r r' : Report} (h : c.Fired n r)
    (h' : c.Fired n' r') (hn : n < n') :
    r'.period.periodFrom = r.period.periodTo ↔ c.late r = c.late r' + c.missed r r' := by
  have hunit := c.unitOf_fires n
  have hunit' := c.unitOf_fires n'
  have hran := c.unitOf_mono h.le_ran
  have hran' := c.unitOf_mono h'.le_ran
  have hspan : c.span * n + c.span ≤ c.span * n' := Nat.mul_le_mul_left c.span hn
  have hpos : 1 ≤ c.span := by
    unfold span
    split <;> decide
  have hone : 1 ≤ c.unitOf r'.ran := by omega
  rw [h.period, h'.period, c.periodTo_eq, c.periodFrom_eq hone, c.unitStart_injective.eq_iff]
  unfold late missed
  rw [h.due, h'.due, Option.getD_some, Option.getD_some]
  omega

end Cadence

namespace Schedule

theorem advance_nextRunAt (s : Schedule) {manual : Bool} (now : Time)
    (h : manual = true ∨ s.cadence.frequency = .onDemand) :
    (s.advance manual now).nextRunAt = s.nextRunAt := by
  have hstays : ¬ (!manual && s.cadence.frequency != .onDemand) = true := by
    rcases h with rfl | hfreq
    · simp
    · simp [hfreq]
  unfold advance
  rw [if_neg hstays]

theorem settle_nextRunAt (s : Schedule) {manual : Bool} {a : Attempt}
    (h : (manual = true ∨ s.cadence.frequency = .onDemand) ∨
      a.tenantKnown = false ∨ a.deviceKnown = false) :
    (s.settle manual a).2.nextRunAt = s.nextRunAt := by
  obtain ⟨now, tenantKnown, deviceKnown, built⟩ := a
  rcases h with hstays | htenant | hdevice
  · have hadvance := s.advance_nextRunAt now hstays
    cases tenantKnown <;> cases deviceKnown <;> cases built <;> first | rfl | exact hadvance
  · obtain rfl : tenantKnown = false := htenant
    rfl
  · obtain rfl : deviceKnown = false := hdevice
    cases tenantKnown <;> rfl

theorem settle_following (s : Schedule) {a : Attempt} (htenant : a.tenantKnown = true)
    (hdevice : a.deviceKnown = true) (hfreq : s.cadence.frequency ≠ .onDemand) :
    (s.settle false a).2.nextRunAt = s.cadence.following a.now := by
  have hadvance : (s.advance false a.now).nextRunAt = s.cadence.following a.now := by
    unfold advance
    rw [if_pos (by simpa using hfreq)]
  unfold settle
  rw [htenant, hdevice]
  cases a.built <;> exact hadvance

theorem settle_generated {s : Schedule} {manual : Bool} {a : Attempt}
    (h : (s.settle manual a).1 = .generated) : a.tenantKnown = true ∧ a.deviceKnown = true := by
  obtain ⟨now, tenantKnown, deviceKnown, built⟩ := a
  cases tenantKnown <;> cases deviceKnown <;> first | exact ⟨rfl, rfl⟩ | cases h

theorem settle_cadence (s : Schedule) (manual : Bool) (a : Attempt) :
    (s.settle manual a).2.cadence = s.cadence := by
  unfold settle advance
  split_ifs <;> rfl

end Schedule

theorem Kept.waits {s : Schedule} (h : Kept s) (henabled : s.enabled = true)
    (hfreq : s.cadence.frequency ≠ .onDemand) :
    ∃ n, s.nextRunAt = some (s.cadence.fires n) := by
  induction h with
  | upsert row cadence enabled now =>
    obtain rfl : enabled = true := henabled
    obtain ⟨n, hn, -⟩ := cadence.following_isNext hfreq now
    refine ⟨n, ?_⟩
    dsimp only [Delivery.upsert] at hn ⊢
    rw [if_pos rfl, hn]
  | @settle s manual a _ ih =>
    rw [s.settle_cadence] at hfreq ⊢
    obtain ⟨n, hn, -⟩ := s.cadence.following_isNext hfreq a.now
    unfold Schedule.settle Schedule.advance at henabled ⊢
    split_ifs at henabled ⊢
    · exact ih henabled hfreq
    · exact ⟨n, hn⟩
    · exact ih henabled hfreq
    · exact ⟨n, hn⟩
    · exact ih henabled hfreq

theorem Kept.onDemand {s : Schedule} (h : Kept s) (hfreq : s.cadence.frequency = .onDemand) :
    s.nextRunAt = none := by
  induction h with
  | upsert row cadence enabled now =>
    dsimp only [Delivery.upsert] at hfreq ⊢
    unfold Cadence.following Delivery.nextRunAt
    rw [hfreq]
    exact ite_self none
  | @settle s manual a _ ih =>
    rw [s.settle_cadence] at hfreq
    rw [s.settle_nextRunAt (.inl (.inr hfreq))]
    exact ih hfreq

theorem deliver_punctual {s : Schedule} {n : Nat} {a : Attempt} (henabled : s.enabled = true)
    (hfreq : s.cadence.frequency ≠ .onDemand) (hnext : s.nextRunAt = some (s.cadence.fires n))
    (htenant : a.tenantKnown = true) (hdevice : a.deviceKnown = true)
    (hle : s.cadence.fires n ≤ a.now) (hlt : a.now < s.cadence.fires (n + 1)) :
    (deliver (some s) false a).2 =
      (some { s with lastRunAt := some a.now, nextRunAt := some (s.cadence.fires (n + 1)) },
        if a.built then some (reportOf s.cadence s.nextRunAt a.now) else none) := by
  have hdue : s.isDue a.now = true := by
    unfold Schedule.isDue
    rw [henabled, hnext]
    exact decide_eq_true hle
  have hadvance : s.advance false a.now =
      { s with lastRunAt := some a.now, nextRunAt := some (s.cadence.fires (n + 1)) } := by
    unfold Schedule.advance
    rw [if_pos (by simpa using hfreq), s.cadence.following_between hfreq hle hlt]
  dsimp only [deliver, Schedule.settle]
  rw [hdue, htenant, hdevice, ← hadvance]
  cases a.built <;> rfl

theorem reports_fired {s : Schedule} (henabled : s.enabled = true)
    (hfreq : s.cadence.frequency ≠ .onDemand) {as : List Attempt} (h : Punctual s as) :
    ∀ {n : Nat}, s.nextRunAt = some (s.cadence.fires n) →
      (∀ r ∈ reports s as, ∃ k, n ≤ k ∧ s.cadence.Fired k r) ∧
      (reports s as).Pairwise fun r r' =>
        r'.period.periodFrom = r.period.periodTo ↔
          s.cadence.late r = s.cadence.late r' + s.cadence.missed r r' := by
  induction as generalizing s with
  | nil => exact fun _ => ⟨fun r hr => absurd hr List.not_mem_nil, List.Pairwise.nil⟩
  | cons a as ih =>
    intro n hnext
    obtain ⟨⟨htenant, hdevice, due, next, hdue, hfollow, hle, hlt⟩, hrest⟩ := h
    obtain rfl : s.cadence.fires n = due := Option.some.inj (hnext.symm.trans hdue)
    obtain rfl : s.cadence.fires (n + 1) = next :=
      Option.some.inj ((s.cadence.following_fires hfreq n).symm.trans hfollow)
    have hdeliver := deliver_punctual henabled hfreq hnext htenant hdevice hle hlt
    dsimp only [reports]
    rw [hdeliver] at hrest ⊢
    dsimp only at hrest ⊢
    obtain ⟨hfired, hpairs⟩ := @ih { s with
      lastRunAt := some a.now, nextRunAt := some (s.cadence.fires (n + 1)) }
      henabled hfreq hrest (n + 1) rfl
    cases a.built with
    | false =>
      refine ⟨fun r hr => ?_, hpairs⟩
      obtain ⟨k, hk, hr⟩ := hfired r hr
      exact ⟨k, by omega, hr⟩
    | true =>
      have hfirst : s.cadence.Fired n (reportOf s.cadence s.nextRunAt a.now) :=
        ⟨hnext, hle, hlt, rfl⟩
      constructor
      · intro r hr
        rcases List.mem_cons.mp hr with rfl | hr
        · exact ⟨n, le_rfl, hfirst⟩
        · obtain ⟨k, hk, hr⟩ := hfired r hr
          exact ⟨k, by omega, hr⟩
      · refine List.pairwise_cons.mpr ⟨fun r hr => ?_, hpairs⟩
        obtain ⟨k, hk, hr⟩ := hfired r hr
        exact hfirst.meet_iff hr (by omega)

theorem isChain_congr {α : Type} {R S : α → α → Prop} {l : List α}
    (h : l.Pairwise fun a b => R a b ↔ S a b) : l.IsChain R ↔ l.IsChain S := by
  induction l with
  | nil => exact iff_of_true List.IsChain.nil List.IsChain.nil
  | cons a l ih =>
    obtain ⟨hhead, htail⟩ := List.pairwise_cons.mp h
    cases l with
    | nil => exact iff_of_true (List.IsChain.singleton a) (List.IsChain.singleton a)
    | cons b l =>
      rw [List.isChain_cons_cons, List.isChain_cons_cons, ih htail, hhead b List.mem_cons_self]

/-- **The periods of successive reports meet exactly if the deliveries are
equally late**, where the rounds without a report count for the later one. -/
theorem periods_meet_iff {s : Schedule} (h : Kept s) (henabled : s.enabled = true)
    (hfreq : s.cadence.frequency ≠ .onDemand) {as : List Attempt} (hp : Punctual s as) :
    PeriodsMeet (reports s as) ↔
      (reports s as).IsChain fun r r' =>
        s.cadence.late r = s.cadence.late r' + s.cadence.missed r r' := by
  obtain ⟨n, hn⟩ := h.waits henabled hfreq
  exact isChain_congr (reports_fired henabled hfreq hp hn).2

def mondays : Cadence where
  frequency := .weekly
  weekday := some 0
  hour := 23
  hour_le := by decide
  weekday_le := by simp
  weekday_given _ := rfl

def mondaySchedule : Schedule := upsert none mondays true (atHour 739780 12)

/-- The first delivery runs at once, the second two hours late, on a Tuesday. -/
def mondayRuns : List Attempt :=
  [⟨atHour 739781 23, true, true, true⟩, ⟨atHour 739789 1, true, true, true⟩]

theorem mondayRuns_punctual : Punctual mondaySchedule mondayRuns := by
  refine ⟨⟨rfl, rfl, atHour 739781 23, atHour 739788 23, ?_⟩, ⟨rfl, rfl, atHour 739788 23,
    atHour 739795 23, ?_⟩, trivial⟩
  · decide +kernel
  · decide +kernel

theorem mondayRuns_meet_iff :
    PeriodsMeet (reports mondaySchedule mondayRuns) ↔
      (reports mondaySchedule mondayRuns).IsChain fun r r' =>
        mondays.late r = mondays.late r' + mondays.missed r r' :=
  periods_meet_iff (.upsert none mondays true _) rfl (by decide) mondayRuns_punctual

/-- **A delivery that is late past midnight leaves a day out.** -/
theorem mondayRuns_apart :
    Kept mondaySchedule ∧ mondaySchedule.enabled = true ∧
      mondaySchedule.cadence.frequency ≠ .onDemand ∧ Punctual mondaySchedule mondayRuns ∧
      ¬ PeriodsMeet (reports mondaySchedule mondayRuns) := by
  refine ⟨.upsert none mondays true _, rfl, by decide, mondayRuns_punctual, ?_⟩
  unfold PeriodsMeet
  decide +kernel

end Delivery

end Opngms
