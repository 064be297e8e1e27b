/-
Opngms/ReportJobs.lean

`enqueue_due_reports` and the `deliver_scheduled_report` jobs it enqueues, in any
order (`app/worker.py`).

A job reads the row and makes the test again, then builds the report, and writes
the row when it is done.  Nothing holds the row in between: two jobs that have
both read it before one of them writes make a report each for one due time
(`twoJobs_twice`).  If a job that moves `next_run_at` finds it as it was read,
each due time has at most one report and one email
(**`one_report_per_due`**), since `next_run_at` only grows then.
-/
import Opngms.Pool
import Opngms.ReportWindows

namespace Opngms

namespace Delivery

open Calendar (atHour)

abbrev ScheduleId := Nat

/-! ### Ticks and jobs -/

/-- How far a job has come. -/
inductive Phase where
  | queued
  /-- The row was read at `now`; the report is being built. -/
  | building (now : Time) (due : Option Time)
  /-- The report is committed; the email is not enqueued yet. -/
  | sending (report : Report)
  | done
  deriving DecidableEq

/-- A `deliver_scheduled_report` job. -/
structure Job where
  schedule : ScheduleId
  manual : Bool
  phase : Phase
  deriving DecidableEq

/-- The table, the queue, and what was stored and sent. -/
structure Sys where
  ids : List ScheduleId
  rows : ScheduleId → Option Schedule
  jobs : List Job
  reports : List (ScheduleId × Report)
  emails : List (ScheduleId × Report)

inductive Event where
  /-- `enqueue_due_reports`. -/
  | tick (now : Time)
  /-- A request to send a report now. -/
  | sendNow (id : ScheduleId)
  /-- A worker takes the job and reads the row. -/
  | start (j : Nat) (now : Time)
  /-- It commits what the building came to. -/
  | finish (j : Nat) (tenantKnown deviceKnown built : Bool)
  /-- It enqueues the email. -/
  | send (j : Nat)
  /-- The job is broken off, to be run again or not. -/
  | stop (j : Nat) (retry : Bool)

/-- The schedules `enqueue_due_reports` selects. -/
def Sys.dueIds (s : Sys) (now : Time) : List ScheduleId :=
  s.ids.filter fun id =>
    match s.rows id with
    | some row => row.isDue now
    | none => false

/-- The read of the row and the test. -/
def readPhase (row : Option Schedule) (manual : Bool) (now : Time) : Phase :=
  match row with
  | none => .done
  | some row => if !manual && !row.isDue now then .done else .building now (row.found manual)

def step (s : Sys) : Event → Option Sys
  | .tick now => some { s with jobs := s.jobs ++ (s.dueIds now).map fun id => ⟨id, false, .queued⟩ }
  | .sendNow id => some { s with jobs := s.jobs ++ [⟨id, true, .queued⟩] }
  | .start j now =>
    match s.jobs[j]? with
    | some ⟨id, manual, .queued⟩ =>
      some { s with jobs := s.jobs.set j ⟨id, manual, readPhase (s.rows id) manual now⟩ }
    | _ => none
  | .finish j tenantKnown deviceKnown built =>
    match s.jobs[j]? with
    | some ⟨id, manual, .building now due⟩ =>
      match s.rows id with
      | none => some { s with jobs := s.jobs.set j ⟨id, manual, .done⟩ }
      | some row =>
        let r := row.settle manual ⟨now, tenantKnown, deviceKnown, built⟩
        let report := reportOf row.cadence due now
        if r.1 = .generated then
          some { s with
            rows := Function.update s.rows id (some r.2)
            jobs := s.jobs.set j ⟨id, manual, .sending report⟩
            reports := s.reports ++ [(id, report)] }
        else
          some { s with
            rows := Function.update s.rows id (some r.2)
            jobs := s.jobs.set j ⟨id, manual, .done⟩ }
    | _ => none
  | .send j =>
    match s.jobs[j]? with
    | some ⟨id, manual, .sending report⟩ =>
      some { s with
        jobs := s.jobs.set j ⟨id, manual, .done⟩
        emails := s.emails ++ [(id, report)] }
    | _ => none
  | .stop j retry =>
    match s.jobs[j]? with
    | some ⟨_, _, .done⟩ => none
    | some ⟨id, manual, _⟩ =>
      some { s with jobs := s.jobs.set j ⟨id, manual, if retry then .queued else .done⟩ }
    | none => none

/-- Before the first tick. -/
structure Fresh (s : Sys) : Prop where
  rows : ∀ id row, s.rows id = some row → Kept row
  jobs : s.jobs = []
  reports : s.reports = []
  emails : s.emails = []

/-- How many of the reports, or of their emails, are for a due time of a
schedule. -/
def filed (rs : List (ScheduleId × Report)) (id : ScheduleId) (due : Time) : Nat :=
  rs.countP fun r => r.1 == id && r.2.due == some due

/-- Each due time has at most one report and one email. -/
def OnePerDue (s : Sys) : Prop :=
  ∀ id due, filed s.reports id due ≤ 1 ∧ filed s.emails id due ≤ 1

/-- The row of a job of the cron still has the `next_run_at` the job read. -/
def Sys.asRead (s : Sys) (j : Nat) : Bool :=
  match s.jobs[j]? with
  | some ⟨id, false, .building _ due⟩ =>
    match s.rows id with
    | some row => row.nextRunAt == due
    | none => true
  | _ => true

/-- A job of the cron that is going to move `next_run_at` finds it as it was
read. -/
def Undisturbed (s : Sys) : Event → Prop
  | .finish j tenantKnown deviceKnown _ =>
    tenantKnown = true → deviceKnown = true → s.asRead j = true
  | _ => True

instance (s : Sys) : (e : Event) → Decidable (Undisturbed s e)
  | .finish _ _ _ _ => inferInstanceAs (Decidable (_ → _ → _))
  | .tick _ | .sendNow _ | .start _ _ | .send _ | .stop _ _ => isTrue trivial

/-! ### The invariant -/

/-- The job is about to send the report of a due time. -/
def Job.sends (id : ScheduleId) (due : Time) (job : Job) : Bool :=
  match job.phase with
  | .sending report => job.schedule == id && report.due == some due
  | _ => false

/-- What a phase holds: a job of the cron read a due time that had come, a manual
one none. -/
def Phase.Reads (manual : Bool) : Phase → Prop
  | .building now due =>
    if manual then due = none else ∃ t, due = some t ∧ t ≤ now
  | _ => True

/-- What holds as long as no write is disturbed. -/
structure Sound (s : Sys) : Prop where
  onDemand : ∀ id row, s.rows id = some row → row.cadence.frequency = .onDemand →
    row.nextRunAt = none
  reads : ∀ job ∈ s.jobs, job.phase.Reads job.manual
  once : ∀ id due, filed s.reports id due ≤ 1
  past : ∀ id due row next, filed s.reports id due ≠ 0 → s.rows id = some row →
    row.nextRunAt = some next → due < next
  sent : ∀ id due, filed s.emails id due + s.jobs.countP (Job.sends id due) ≤
    filed s.reports id due

theorem countP_set_eq {α : Type} (p : α → Bool) {l : List α} {j : Nat} {x : α}
    (h : l[j]? = some x) (y : α) :
    (l.set j y).countP p + (if p x then 1 else 0) = l.countP p + if p y then 1 else 0 := by
  obtain ⟨hj, rfl⟩ := List.getElem?_eq_some_iff.mp h
  have hpos : (if p l[j] then 1 else 0) ≤ l.countP p := by
    split_ifs with hp
    · exact List.countP_pos_iff.mpr ⟨_, List.getElem_mem hj, hp⟩
    · exact Nat.zero_le _
  rw [List.countP_set hj]
  omega

theorem filed_append (rs : List (ScheduleId × Report)) (id : ScheduleId) (due : Time)
    (r : ScheduleId × Report) :
    filed (rs ++ [r]) id due = filed rs id due + filed [r] id due :=
  List.countP_append

theorem Fresh.sound {s : Sys} (h : Fresh s) : Sound s where
  onDemand id row hrow := (h.rows id row hrow).onDemand
  reads job hjob := by
    rw [h.jobs] at hjob
    exact absurd hjob List.not_mem_nil
  once id due := by
    rw [h.reports]
    exact Nat.zero_le 1
  past id due row next hfiled := by
    rw [h.reports] at hfiled
    exact absurd rfl hfiled
  sent id due := by
    rw [h.emails, h.jobs]
    exact Nat.zero_le _

theorem reads_readPhase (row : Option Schedule) (manual : Bool) (now : Time) :
    (readPhase row manual now).Reads manual := by
  cases row with
  | none => trivial
  | some row =>
    dsimp only [readPhase]
    split_ifs with hskip
    · trivial
    · cases manual with
      | true => rfl
      | false =>
        have hdue : row.isDue now = true := by simpa using hskip
        unfold Schedule.isDue at hdue
        cases hnext : row.nextRunAt with
        | none =>
          rw [hnext, Bool.and_false] at hdue
          cases hdue
        | some t =>
          rw [hnext] at hdue
          exact ⟨t, hnext, of_decide_eq_true (Bool.and_eq_true_iff.mp hdue).2⟩

namespace Sound

variable {s : Sys} {j : Nat} {job : Job}

theorem enqueue (h : Sound s) {new : List Job} (hnew : ∀ job ∈ new, job.phase = .queued) :
    Sound { s with jobs := s.jobs ++ new } where
  onDemand := h.onDemand
  reads job hjob := by
    rcases List.mem_append.mp hjob with hold | hjob
    · exact h.reads job hold
    · rw [hnew job hjob]
      trivial
  once := h.once
  past := h.past
  sent id due := by
    have hnone : new.countP (Job.sends id due) = 0 := by
      refine List.countP_eq_zero.mpr fun job hjob => ?_
      unfold Job.sends
      rw [hnew job hjob]
      exact Bool.false_ne_true
    dsimp only
    rw [List.countP_append, hnone]
    exact h.sent id due

theorem reads_set (h : Sound s) {new : Job} (hreads : new.phase.Reads new.manual) :
    ∀ job ∈ s.jobs.set j new, job.phase.Reads job.manual := by
  intro job hjob
  rcases List.mem_or_eq_of_mem_set hjob with hold | rfl
  · exact h.reads job hold
  · exact hreads

theorem move (h : Sound s) (hjob : s.jobs[j]? = some job) {new : Job}
    (hreads : new.phase.Reads new.manual) (hsends : ∀ id due, new.sends id due = false) :
    Sound { s with jobs := s.jobs.set j new } where
  onDemand := h.onDemand
  reads := h.reads_set hreads
  once := h.once
  past := h.past
  sent id due := by
    have hcount := countP_set_eq (Job.sends id due) hjob new
    have hsent := h.sent id due
    rw [hsends id due, if_neg Bool.false_ne_true] at hcount
    dsimp only
    omega

theorem write (h : Sound s) {id : ScheduleId} (row : Schedule)
    (honDemand : row.cadence.frequency = .onDemand → row.nextRunAt = none)
    (hpast : ∀ due next, filed s.reports id due ≠ 0 → row.nextRunAt = some next → due < next) :
    Sound { s with rows := Function.update s.rows id (some row) } where
  onDemand id' row' hrow := by
    dsimp only at hrow
    rw [Function.update_apply] at hrow
    split_ifs at hrow
    · obtain rfl := Option.some.inj hrow
      exact honDemand
    · exact h.onDemand id' row' hrow
  reads := h.reads
  once := h.once
  past id' due row' next hfiled hrow hnext := by
    dsimp only at hrow
    rw [Function.update_apply] at hrow
    split_ifs at hrow with hid
    · obtain rfl := Option.some.inj hrow
      subst hid
      exact hpast due next hfiled hnext
    · exact h.past id' due row' next hfiled hrow hnext
  sent := h.sent

theorem store (h : Sound s) (hjob : s.jobs[j]? = some job)
    (hsends : ∀ id due, job.sends id due = false) {id : ScheduleId} {manual : Bool} {report : Report}
    (hnew : ∀ due, report.due = some due → filed s.reports id due = 0)
    (hpast : ∀ due row next, report.due = some due → s.rows id = some row →
      row.nextRunAt = some next → due < next) :
    Sound { s with
      jobs := s.jobs.set j ⟨id, manual, .sending report⟩
      reports := s.reports ++ [(id, report)] } where
  onDemand := h.onDemand
  reads := h.reads_set trivial
  once id' due := by
    dsimp only
    rw [filed_append]
    by_cases hthis : id' = id ∧ report.due = some due
    · obtain ⟨rfl, hdue⟩ := hthis
      rw [hnew due hdue, Nat.zero_add]
      exact List.countP_le_length
    · have hnone : filed [(id, report)] id' due = 0 := by
        refine List.countP_eq_zero.mpr fun r hr hthat => hthis ?_
        obtain rfl := List.mem_singleton.mp hr
        obtain ⟨hid, hdue⟩ := Bool.and_eq_true_iff.mp hthat
        exact ⟨(beq_iff_eq.mp hid).symm, beq_iff_eq.mp hdue⟩
      rw [hnone]
      exact h.once id' due
  past id' due row next hfiled hrow hnext := by
    dsimp only at hfiled hrow
    rw [filed_append] at hfiled
    by_cases hold : filed s.reports id' due = 0
    · rw [hold, Nat.zero_add] at hfiled
      obtain ⟨r, hr, hthis⟩ := List.countP_pos_iff.mp (Nat.pos_of_ne_zero hfiled)
      obtain rfl := List.mem_singleton.mp hr
      obtain ⟨rfl, hdue⟩ : id = id' ∧ report.due = some due := by simpa using hthis
      exact hpast due row next hdue hrow hnext
    · exact h.past id' due row next hold hrow hnext
  sent id' due := by
    have hcount := countP_set_eq (Job.sends id' due) hjob ⟨id, manual, .sending report⟩
    have hsent := h.sent id' due
    have hthis : filed [(id, report)] id' due =
        if Job.sends id' due ⟨id, manual, .sending report⟩ then 1 else 0 := List.countP_singleton
    rw [hsends id' due, if_neg Bool.false_ne_true] at hcount
    dsimp only
    rw [filed_append, hthis]
    omega

theorem send (h : Sound s) {id : ScheduleId} {manual : Bool} {report : Report}
    (hjob : s.jobs[j]? = some ⟨id, manual, .sending report⟩) :
    Sound { s with
      jobs := s.jobs.set j ⟨id, manual, .done⟩
      emails := s.emails ++ [(id, report)] } where
  onDemand := h.onDemand
  reads := h.reads_set trivial
  once := h.once
  past := h.past
  sent id' due := by
    have hcount := countP_set_eq (Job.sends id' due) hjob ⟨id, manual, .done⟩
    have hsent := h.sent id' due
    have hthis : filed [(id, report)] id' due =
        if Job.sends id' due ⟨id, manual, .sending report⟩ then 1 else 0 := List.countP_singleton
    have hdone : ¬ Job.sends id' due ⟨id, manual, .done⟩ = true := Bool.false_ne_true
    rw [if_neg hdone] at hcount
    dsimp only
    rw [filed_append, hthis]
    omega

theorem settled (h : Sound s) {id : ScheduleId} {manual : Bool} {now : Time} {due : Option Time}
    {row : Schedule} {a : Attempt} (hjob : s.jobs[j]? = some ⟨id, manual, .building now due⟩)
    (hrow : s.rows id = some row) (hnow : a.now = now)
    (hsame : manual = false → a.tenantKnown = true → a.deviceKnown = true → row.nextRunAt = due) :
    (∀ t next, filed s.reports id t ≠ 0 → (row.settle manual a).2.nextRunAt = some next → t < next) ∧
    ((row.settle manual a).1 = .generated → ∀ t, due = some t →
      filed s.reports id t = 0 ∧ ∀ next, (row.settle manual a).2.nextRunAt = some next → t < next) := by
  subst hnow
  have hreads : (Phase.building a.now due).Reads manual := h.reads _ (List.mem_of_getElem? hjob)
  by_cases hmoves : manual = false ∧ a.tenantKnown = true ∧ a.deviceKnown = true
  · obtain ⟨rfl, htenant, hdevice⟩ := hmoves
    obtain ⟨t, rfl, hle⟩ : ∃ t, due = some t ∧ t ≤ a.now := hreads
    have hnext := hsame rfl htenant hdevice
    have hfreq : row.cadence.frequency ≠ .onDemand := fun hfreq => by
      rw [h.onDemand id row hrow hfreq] at hnext
      cases hnext
    obtain ⟨n, hfollow, hlater, -⟩ := row.cadence.following_isNext hfreq a.now
    rw [row.settle_following htenant hdevice hfreq, hfollow]
    constructor
    · intro t' next hfiled heq
      obtain rfl := Option.some.inj heq
      exact (h.past id t' row t hfiled hrow hnext).trans (hle.trans_lt hlater)
    · intro _ t' heq
      obtain rfl := Option.some.inj heq
      constructor
      · by_contra hfiled
        exact absurd (h.past id t row t hfiled hrow hnext) (Nat.lt_irrefl t)
      · intro next heq
        obtain rfl := Option.some.inj heq
        exact hle.trans_lt hlater
  · have hstays : (manual = true ∨ row.cadence.frequency = .onDemand) ∨
        a.tenantKnown = false ∨ a.deviceKnown = false := by
      cases manual <;> cases ht : a.tenantKnown <;> cases hd : a.deviceKnown <;> simp_all
    rw [row.settle_nextRunAt hstays]
    refine ⟨fun t next hfiled => h.past id t row next hfiled hrow, fun hgen t ht => ?_⟩
    have hmanual : manual = true := by
      by_contra hcron
      exact hmoves ⟨Bool.eq_false_iff.mpr hcron, Schedule.settle_generated hgen⟩
    subst hmanual
    have hnone : due = none := hreads
    rw [hnone] at ht
    cases ht

end Sound

/-- **A step that is not disturbed keeps the invariant.** -/
theorem step_sound {s s' : Sys} {e : Event} (h : Sound s) (hG : Undisturbed s e)
    (hstep : step s e = some s') : Sound s' := by
  cases e with
  | tick now =>
    obtain rfl := Option.some.inj hstep
    refine h.enqueue fun job hjob => ?_
    obtain ⟨id, -, rfl⟩ := List.mem_map.mp hjob
    rfl
  | sendNow id =>
    obtain rfl := Option.some.inj hstep
    refine h.enqueue fun job hjob => ?_
    obtain rfl := List.mem_singleton.mp hjob
    rfl
  | start j now =>
    dsimp only [step] at hstep
    split at hstep
    · -- the job reads the row, and only the test decides whether it goes on
      rename_i id manual hjob
      obtain rfl := Option.some.inj hstep
      refine h.move hjob (reads_readPhase _ manual now) fun id' due => ?_
      unfold Job.sends readPhase
      cases s.rows id with
      | none => rfl
      | some row =>
        dsimp only
        split_ifs <;> rfl
    · cases hstep
  | finish j tenantKnown deviceKnown built =>
    dsimp only [step] at hstep
    split at hstep
    · rename_i id manual now due hjob
      split at hstep
      · obtain rfl := Option.some.inj hstep
        exact h.move hjob trivial fun _ _ => rfl
      · rename_i row hrow
        -- the condition: the due time is still the one the job has read
        have hsame : manual = false → tenantKnown = true → deviceKnown = true →
            row.nextRunAt = due := by
          rintro rfl htenant hdevice
          have hread := hG htenant hdevice
          unfold Sys.asRead at hread
          rw [hjob] at hread
          dsimp only at hread
          rw [hrow] at hread
          exact beq_iff_eq.mp hread
        obtain ⟨hpast, hnew⟩ :=
          h.settled (a := ⟨now, tenantKnown, deviceKnown, built⟩) hjob hrow rfl hsame
        have hwrite := h.write (row.settle manual ⟨now, tenantKnown, deviceKnown, built⟩).2
          (fun hfreq => by
            rw [Schedule.settle_cadence] at hfreq
            rw [row.settle_nextRunAt (.inl (.inr hfreq))]
            exact h.onDemand id row hrow hfreq) hpast
        -- a report is stored together with the next due time
        split_ifs at hstep with hgen
        · obtain rfl := Option.some.inj hstep
          refine hwrite.store hjob (fun _ _ => rfl) (fun t ht => (hnew hgen t ht).1) ?_
          intro t row' next ht hrow' hnext
          dsimp only at hrow'
          rw [Function.update_self] at hrow'
          obtain rfl := Option.some.inj hrow'
          exact (hnew hgen t ht).2 next hnext
        · obtain rfl := Option.some.inj hstep
          exact hwrite.move hjob trivial fun _ _ => rfl
    · cases hstep
  | send j =>
    dsimp only [step] at hstep
    split at hstep
    · rename_i id manual report hjob
      obtain rfl := Option.some.inj hstep
      exact h.send hjob
    · cases hstep
  | stop j retry =>
    dsimp only [step] at hstep
    split at hstep
    · cases hstep
    · rename_i id manual phase hdone hjob
      obtain rfl := Option.some.inj hstep
      refine h.move hjob ?_ fun id' due => ?_
      · cases retry <;> trivial
      · cases retry <;> rfl
    · cases hstep

/-- **Each due time has at most one report and one email, in every run in which
the jobs of the cron find `next_run_at` as they read it when they move it.** -/
theorem one_report_per_due {s s' : Sys} {es : List Event} (h : Fresh s)
    (hG : Along step Undisturbed s es) (hrun : runAll step s es = some s') : OnePerDue s' := by
  have hsound : Sound s' :=
    runAll_invariant (fun _ _ _ h hG hstep => step_sound h hG hstep) h.sound hG hrun
  intro id due
  have honce := hsound.once id due
  have hsent := hsound.sent id due
  omega

/-! ### Two jobs for one due time -/

def mondaySys : Sys where
  ids := [0]
  rows := fun id => if id = 0 then some mondaySchedule else none
  jobs := []
  reports := []
  emails := []

theorem mondaySys_fresh : Fresh mondaySys where
  rows id row hrow := by
    dsimp only [mondaySys] at hrow
    split_ifs at hrow
    obtain rfl := Option.some.inj hrow
    exact .upsert none mondays true _
  jobs := rfl
  reports := rfl
  emails := rfl

/-- One job, and a second one that comes too late to find anything. -/
def calmEvents : List Event :=
  [.tick (atHour 739781 23), .start 0 (atHour 739781 23), .tick (atHour 739782 0),
    .finish 0 true true true, .send 0, .start 1 (atHour 739782 0)]

theorem calmEvents_one :
    Along step Undisturbed mondaySys calmEvents ∧
      ∃ s, runAll step mondaySys calmEvents = some s ∧ s.reports.length = 1 ∧ OnePerDue s := by
  have hG : Along step Undisturbed mondaySys calmEvents := by decide +kernel
  refine ⟨hG, _, rfl, rfl, one_report_per_due mondaySys_fresh hG rfl⟩

/-- The first job waits in the queue for an hour, so the next tick enqueues a
second one, and two workers take them at once. -/
def twoJobs : List Event :=
  [.tick (atHour 739781 23), .tick (atHour 739782 0), .start 0 (atHour 739782 0),
    .start 1 (atHour 739782 0), .finish 0 true true true, .finish 1 true true true,
    .send 0, .send 1]

/-- **Two jobs that read the row before one of them writes it make two reports
and two emails.** -/
theorem twoJobs_twice :
    Fresh mondaySys ∧ ∃ s, runAll step mondaySys twoJobs = some s ∧
      filed s.reports 0 (atHour 739781 23) = 2 ∧ filed s.emails 0 (atHour 739781 23) = 2 ∧
      ¬ OnePerDue s := by
  refine ⟨mondaySys_fresh, _, rfl, by decide +kernel, by decide +kernel, fun h => ?_⟩
  have hone := (h 0 (atHour 739781 23)).1
  revert hone
  decide +kernel

end Delivery

end Opngms
