/-
Opngms/OrphanSweeps.lean

The sweeper of orphaned actions (`sweep_orphaned_actions` of app/worker.py with `decide_orphan`
of services/action_sweeper.py), between requests that schedule a change
(`schedule_config_change` of api/config.py).

A sweep selects the overdue rows of one table and then gives each its turn, in a transaction
of its own; then it does the same with the other table.  A request may come between any two
of these; a request and a turn are one step each, where Opngms/Worker.lean has the sweep of the
configuration changes alone as a program.  The turn looks at the status of the row again, but
not at its time, and the counter of its re-enqueues goes on where the row is scheduled again.

Main results: **`sweeps_obey`** (along every run whose requests are careful), and
`runAll_without` (what happens to the other rows is independent of a row).
-/
import Mathlib.Data.List.Nodup
import Opngms.Worker

namespace Opngms

namespace OrphanSweeps

/-! ### Rows -/

/-- The tables that are swept. -/
inductive Model where
  | configChange
  | firmwareAction
  deriving DecidableEq

def Model.jobName : Model → String
  | configChange => "apply_config_change"
  | firmwareAction => "run_firmware_action"

/-- The table of a row and its id. -/
structure Key where
  model : Model
  id : Nat
  deriving DecidableEq

/-- The statuses of both tables. -/
inductive Status where
  | draft
  | scheduled
  | applying
  | applied
  | failed
  | conflict
  | cancelled
  | running
  | done
  deriving DecidableEq

/-- What is read and written of a row; times are integers. -/
structure Row where
  key : Key
  tenantId : Nat
  deviceId : Nat
  status : Status
  scheduledAt : Option Int
  createdAt : Int
  sweepAttempts : Nat
  /-- `result["error"]`. -/
  error : Option String
  deriving DecidableEq

/-- `coalesce(scheduled_at, created_at)`. -/
def Row.due (r : Row) : Int := r.scheduledAt.getD r.createdAt

def Row.reEnqueued (r : Row) : Row := { r with sweepAttempts := r.sweepAttempts + 1 }

def Row.givenUp (r : Row) : Row :=
  { r with
    status := .failed
    error := some s!"orphaned: never applied after {r.sweepAttempts} re-enqueue attempts" }

/-- The row is scheduled, for a time or at once. -/
def Row.scheduledFor (time : Option Int) (r : Row) : Row :=
  { r with status := .scheduled, scheduledAt := time }

/-- An alert that a row was given up. -/
structure Alert where
  tenantId : Nat
  deviceId : Nat
  type : String
  key : Key
  attempts : Nat
  deriving DecidableEq

/-- A job that was enqueued. -/
structure Job where
  name : String
  key : Key
  deferUntil : Option Int
  deriving DecidableEq

/-- What happened to a row, for the account of its history. -/
inductive Happening where
  | scheduled (key : Key)
  | reEnqueued (key : Key)
  | gaveUp (key : Key)
  | skipped (key : Key)
  deriving DecidableEq

def Happening.key : Happening → Key
  | scheduled k | reEnqueued k | gaveUp k | skipped k => k

/-- How often a row was re-enqueued since it was last scheduled; the history has the newest
first. -/
def sinceScheduled (k : Key) : List Happening → Nat
  | [] => 0
  | .scheduled k' :: h => if k' = k then 0 else sinceScheduled k h
  | .reEnqueued k' :: h => if k' = k then sinceScheduled k h + 1 else sinceScheduled k h
  | .gaveUp _ :: h => sinceScheduled k h
  | .skipped _ :: h => sinceScheduled k h

/-! ### The machine -/

/-- The settings that a sweep reads. -/
structure Settings where
  grace : Int
  maxReenqueueAttempts : Nat

/-- A sweep that is under way: its cutoff, the tables that it has not selected from, and the
rows that it has yet to give their turn. -/
structure Sweep where
  cutoff : Int
  models : List Model
  pending : List Key
  deriving DecidableEq

structure State where
  rows : List Row
  alerts : List Alert
  jobs : List Job
  sweep : Option Sweep
  history : List Happening
  deriving DecidableEq

/-- `session.get`. -/
def State.get (s : State) (k : Key) : Option Row := s.rows.find? fun r => r.key = k

def State.set (s : State) (k : Key) (f : Row → Row) : State :=
  { s with rows := s.rows.map fun r => if r.key = k then f r else r }

def selects (cutoff : Int) (m : Model) (r : Row) : Bool :=
  decide (r.key.model = m ∧ r.status = .scheduled ∧ r.due < cutoff)

/-- The transaction of an orphan. -/
def State.settle (s : State) (cfg : Settings) (k : Key) (row : Row) : State :=
  match decideOrphan row.sweepAttempts cfg.maxReenqueueAttempts with
  | .reEnqueue =>
    let s := s.set k Row.reEnqueued
    { s with
      jobs := ⟨k.model.jobName, k, none⟩ :: s.jobs
      history := .reEnqueued k :: s.history }
  | .giveUp =>
    let s := s.set k Row.givenUp
    { s with
      alerts := ⟨row.tenantId, row.deviceId, "action_orphaned", k, row.sweepAttempts⟩ :: s.alerts
      history := .gaveUp k :: s.history }

/-- The turn of a row: `free` says whether its device lock was obtained, `ok` whether its
transaction succeeds. -/
def State.turn (s : State) (cfg : Settings) (k : Key) (free ok : Bool) : State :=
  match s.get k with
  | none => s
  | some row =>
    if row.status ≠ .scheduled then s
    else if !ok then s
    else if !free then { s with history := .skipped k :: s.history }
    else s.settle cfg k row

/-- A request to schedule a change. -/
structure Request where
  tenantId : Nat
  deviceId : Nat
  changeId : Nat
  scheduledAt : Option Int
  deriving DecidableEq

def Request.key (req : Request) : Key := ⟨.configChange, req.changeId⟩

/-- The request finds its change, in a status that can be scheduled; otherwise it is refused
with 404 or 409. -/
def Request.accepts (req : Request) (row : Row) : Bool :=
  decide (row.tenantId = req.tenantId ∧ row.deviceId = req.deviceId ∧
    (row.status = .draft ∨ row.status = .scheduled))

/-- `schedule_config_change`. -/
def State.schedule (s : State) (req : Request) : State :=
  match s.get req.key with
  | none => s
  | some row =>
    if req.accepts row then
      let s := s.set req.key (Row.scheduledFor req.scheduledAt)
      { s with
        jobs := ⟨Model.configChange.jobName, req.key, req.scheduledAt⟩ :: s.jobs
        history := .scheduled req.key :: s.history }
    else s

inductive Event where
  /-- A sweep starts, at a time. -/
  | begin (now : Int)
  /-- It selects the rows of its next table, in some order. -/
  | select (keys : List Key)
  /-- The next row has its turn. -/
  | turn (k : Key) (free ok : Bool)
  /-- It ends. -/
  | finish
  | request (req : Request)
  deriving DecidableEq

/-- One step; `none` where it is not the turn of the event. -/
def step (cfg : Settings) (s : State) : Event → Option State
  | .begin now =>
    match s.sweep with
    | none => some { s with sweep := some ⟨now - cfg.grace, [.configChange, .firmwareAction], []⟩ }
    | some _ => none
  | .select keys =>
    match s.sweep with
    | some ⟨cutoff, m :: models, []⟩ =>
      if keys.isPerm ((s.rows.filter (selects cutoff m)).map (·.key)) then
        some { s with sweep := some ⟨cutoff, models, keys⟩ }
      else none
    | _ => none
  | .turn k free ok =>
    match s.sweep with
    | some ⟨cutoff, models, k' :: pending⟩ =>
      if k' = k then
        some (State.turn { s with sweep := some ⟨cutoff, models, pending⟩ } cfg k free ok)
      else none
    | _ => none
  | .finish =>
    match s.sweep with
    | some ⟨_, [], []⟩ => some { s with sweep := none }
    | _ => none
  | .request req => some (s.schedule req)

/-! ### What a step does -/

section Steps

variable {cfg : Settings} {s s' : State} {k : Key} {row : Row} {free ok : Bool}

theorem find?_map_row (rows : List Row) (k k' : Key) {f : Row → Row} (hf : ∀ r, (f r).key = r.key) :
    (rows.map fun r => if r.key = k then f r else r).find? (fun r => r.key = k') =
      if k' = k then (rows.find? fun r => r.key = k).map f else rows.find? fun r => r.key = k' := by
  have hkey : ∀ r : Row, (if r.key = k then f r else r).key = r.key := by
    intro r
    split
    · exact hf r
    · rfl
  induction rows with
  | nil => simp
  | cons r rows ih =>
    rw [List.map_cons, List.find?_cons, List.find?_cons, List.find?_cons, hkey, ih]
    by_cases hk : k' = k
    · subst hk
      by_cases hr : r.key = k'
      · simp [hr]
      · simp [hr]
    · by_cases hr : r.key = k'
      · have hne : r.key ≠ k := fun h => hk (hr.symm.trans h)
        simp [hr, hk]
      · simp [hr, hk]

theorem key_reEnqueued (r : Row) : r.reEnqueued.key = r.key := rfl

theorem key_givenUp (r : Row) : r.givenUp.key = r.key := rfl

theorem key_scheduledFor (time : Option Int) (r : Row) : (r.scheduledFor time).key = r.key := rfl

theorem get_set {f : Row → Row} (hf : ∀ r, (f r).key = r.key) (k' : Key) :
    (s.set k f).get k' = if k' = k then (s.get k).map f else s.get k' :=
  find?_map_row s.rows k k' hf

theorem keys_set {f : Row → Row} (hf : ∀ r, (f r).key = r.key) :
    (s.set k f).rows.map (·.key) = s.rows.map (·.key) := by
  rw [State.set, List.map_map]
  refine List.map_congr_left fun r _ => ?_
  show (if r.key = k then f r else r).key = r.key
  split
  · exact hf r
  · rfl

theorem settle_cases (s : State) (cfg : Settings) (k : Key) (row : Row) :
    (∃ t, t = s.set k Row.reEnqueued ∧
      row.sweepAttempts < cfg.maxReenqueueAttempts ∧
      s.settle cfg k row =
        { t with jobs := ⟨k.model.jobName, k, none⟩ :: s.jobs, history := .reEnqueued k :: s.history }) ∨
    ∃ t, t = s.set k Row.givenUp ∧
      cfg.maxReenqueueAttempts ≤ row.sweepAttempts ∧
      s.settle cfg k row =
        { t with
          alerts := ⟨row.tenantId, row.deviceId, "action_orphaned", k, row.sweepAttempts⟩ :: s.alerts
          history := .gaveUp k :: s.history } := by
  by_cases h : row.sweepAttempts < cfg.maxReenqueueAttempts
  · refine .inl ⟨_, rfl, h, ?_⟩
    rw [State.settle, decideOrphan, if_pos h]
    rfl
  · refine .inr ⟨_, rfl, Nat.le_of_not_lt h, ?_⟩
    rw [State.settle, decideOrphan, if_neg h]
    rfl

theorem turn_cases (s : State) (cfg : Settings) (k : Key) (free ok : Bool) :
    (∃ row, s.get k = some row ∧ row.status = .scheduled ∧ free = true ∧ ok = true ∧
      s.turn cfg k free ok = s.settle cfg k row) ∨
    (¬ (∃ row, s.get k = some row ∧ row.status = .scheduled ∧ free = true ∧ ok = true) ∧
      ∃ h, h ∈ [s.history, .skipped k :: s.history] ∧
        s.turn cfg k free ok = { s with history := h }) := by
  rw [State.turn]
  cases hget : s.get k with
  | none =>
    refine .inr ⟨?_, s.history, by simp, rfl⟩
    rintro ⟨row, hrow, -⟩
    exact nomatch hrow
  | some row =>
    have hsame : ∀ row', some row = some row' → row = row' := fun _ => Option.some.inj
    by_cases hstatus : row.status = .scheduled
    · cases ok with
      | false =>
        refine .inr ⟨?_, s.history, by simp, by simp [hstatus]⟩
        rintro ⟨row', -, -, -, hok⟩
        exact nomatch hok
      | true =>
        cases free with
        | false =>
          refine .inr ⟨?_, .skipped k :: s.history, by simp, by simp [hstatus]⟩
          rintro ⟨row', -, -, hfree, -⟩
          exact nomatch hfree
        | true => exact .inl ⟨row, rfl, hstatus, rfl, rfl, by simp [hstatus]⟩
    · refine .inr ⟨?_, s.history, by simp, by simp [hstatus]⟩
      rintro ⟨row', hrow', hscheduled, -⟩
      obtain rfl := hsame row' hrow'
      exact hstatus hscheduled

theorem schedule_cases (s : State) (req : Request) :
    (∃ row, s.get req.key = some row ∧ req.accepts row = true ∧
      ∃ t, t = s.set req.key (Row.scheduledFor req.scheduledAt) ∧
        s.schedule req =
          { t with
            jobs := ⟨Model.configChange.jobName, req.key, req.scheduledAt⟩ :: s.jobs
            history := .scheduled req.key :: s.history }) ∨
    s.schedule req = s := by
  rw [State.schedule]
  cases hget : s.get req.key with
  | none => exact .inr rfl
  | some row =>
    by_cases h : req.accepts row = true
    · refine .inl ⟨row, rfl, h, _, rfl, ?_⟩
      simp only [h, if_true]
      rfl
    · exact .inr (by simp [h])

/-- What a step does, by its event. -/
theorem step_cases {e : Event} (h : step cfg s e = some s') :
    (∃ now, e = .begin now ∧ s.sweep = none ∧
      s' = { s with sweep := some ⟨now - cfg.grace, [.configChange, .firmwareAction], []⟩ }) ∨
    (∃ keys cutoff m models, e = .select keys ∧ s.sweep = some ⟨cutoff, m :: models, []⟩ ∧
      keys.Perm ((s.rows.filter (selects cutoff m)).map (·.key)) ∧
      s' = { s with sweep := some ⟨cutoff, models, keys⟩ }) ∨
    (∃ k free ok cutoff models pending, e = .turn k free ok ∧
      s.sweep = some ⟨cutoff, models, k :: pending⟩ ∧
      s' = State.turn { s with sweep := some ⟨cutoff, models, pending⟩ } cfg k free ok) ∨
    (e = .finish ∧ (∃ cutoff, s.sweep = some ⟨cutoff, [], []⟩) ∧ s' = { s with sweep := none }) ∨
    ∃ req, e = .request req ∧ s' = s.schedule req := by
  cases e with
  | begin now =>
    simp only [step] at h
    split at h
    · rename_i hsweep
      exact .inl ⟨now, rfl, hsweep, (Option.some.inj h).symm⟩
    · exact nomatch h
  | select keys =>
    simp only [step] at h
    split at h
    · rename_i cutoff m models hsweep
      split at h
      · rename_i hperm
        exact .inr (.inl ⟨keys, cutoff, m, models, rfl, hsweep, List.isPerm_iff.mp hperm,
          (Option.some.inj h).symm⟩)
      · exact nomatch h
    · exact nomatch h
  | turn k free ok =>
    simp only [step] at h
    split at h
    · rename_i cutoff models k' pending hsweep
      split at h
      · rename_i hk
        subst hk
        exact .inr (.inr (.inl ⟨k', free, ok, cutoff, models, pending, rfl, hsweep,
          (Option.some.inj h).symm⟩))
      · exact nomatch h
    · exact nomatch h
  | finish =>
    simp only [step] at h
    split at h
    · rename_i cutoff hsweep
      exact .inr (.inr (.inr (.inl ⟨rfl, ⟨cutoff, hsweep⟩, (Option.some.inj h).symm⟩)))
    · exact nomatch h
  | request req => exact .inr (.inr (.inr (.inr ⟨req, rfl, (Option.some.inj h).symm⟩)))

end Steps

/-! ### Along a run -/

/-- What a turn in a sweep with this cutoff has to do. -/
structure TurnObeys (cfg : Settings) (cutoff : Int) (s s' : State) (k : Key) (free ok : Bool) :
    Prop where
  /-- Only an overdue scheduled row is changed, whose lock was obtained. -/
  only : ∀ k', s'.get k' ≠ s.get k' → k' = k ∧
    ∃ r, s.get k = some r ∧ r.status = .scheduled ∧ r.due < cutoff ∧ free = true ∧ ok = true
  /-- Nothing else is enqueued, and no other alert opened. -/
  quiet : s'.get k = s.get k → s'.jobs = s.jobs ∧ s'.alerts = s.alerts
  /-- Such a row is enqueued again and counted, or fails with one new alert. -/
  settled : ∀ r, s.get k = some r → r.status = .scheduled → r.due < cutoff → free = true →
    ok = true →
    (s'.get k = some { r with sweepAttempts := r.sweepAttempts + 1 } ∧
      s'.jobs = ⟨k.model.jobName, k, none⟩ :: s.jobs ∧ s'.alerts = s.alerts) ∨
    (∃ error, s'.get k = some { r with status := .failed, error := some error }) ∧
      s'.jobs = s.jobs ∧
      s'.alerts = ⟨r.tenantId, r.deviceId, "action_orphaned", k, r.sweepAttempts⟩ :: s.alerts
  /-- A row fails only after as many re-enqueues as there may be since it was scheduled. -/
  gaveUp : ∀ r r', s.get k = some r → s'.get k = some r' → r.status ≠ .failed →
    r'.status = .failed → cfg.maxReenqueueAttempts ≤ sinceScheduled k s.history

/-- What every step of a sweep has to do. -/
def StepObeys (cfg : Settings) (s : State) (e : Event) : Prop :=
  ∀ s', step cfg s e = some s' →
    match e with
    | .turn k free ok => ∃ sweep, s.sweep = some sweep ∧
        TurnObeys cfg sweep.cutoff s s' k free ok
    | .request _ => True
    | _ => s'.rows = s.rows ∧ s'.jobs = s.jobs ∧ s'.alerts = s.alerts

/-- A request that schedules a row no sweep has counted, and does not take back the time of
a row that waits for its turn. -/
def Careful (s : State) : Event → Prop
  | .request req => ∀ row, s.get req.key = some row → req.accepts row = true →
      row.sweepAttempts = 0 ∧ ∀ sweep, s.sweep = some sweep → req.key ∈ sweep.pending →
        req.scheduledAt.getD row.createdAt < sweep.cutoff
  | _ => True

/-- Before any sweep: no row is counted. -/
structure Fresh (s : State) : Prop where
  nodup : (s.rows.map (·.key)).Nodup
  counts : ∀ r ∈ s.rows, r.sweepAttempts = 0
  sweep : s.sweep = none

/-- What holds between the steps: the counter is of the re-enqueues since the row was last
scheduled, and the rows that wait for their turn are overdue. -/
structure Inv (s : State) : Prop where
  nodup : (s.rows.map (·.key)).Nodup
  counts : ∀ k r, s.get k = some r → r.sweepAttempts ≤ sinceScheduled k s.history
  overdue : ∀ sweep, s.sweep = some sweep → ∀ k ∈ sweep.pending, ∀ r, s.get k = some r →
    r.status = .scheduled → r.due < sweep.cutoff

section Invariant

variable {cfg : Settings} {s s' : State} {k : Key} {free ok : Bool} {e : Event}

theorem Fresh.inv (h : Fresh s) : Inv s where
  nodup := h.nodup
  counts k r hr := by
    rw [h.counts r (List.mem_of_find?_eq_some hr)]
    exact Nat.zero_le _
  overdue sweep hsweep := by
    rw [h.sweep] at hsweep
    exact nomatch hsweep

theorem get_of_mem (h : (s.rows.map (·.key)).Nodup) {r : Row} (hr : r ∈ s.rows) :
    s.get r.key = some r := by
  cases hfound : s.get r.key with
  | none =>
    have hnot := List.find?_eq_none.mp hfound r hr
    simp at hnot
  | some r' =>
    have hkey : r'.key = r.key := by simpa using List.find?_some hfound
    rw [List.inj_on_of_nodup_map h (List.mem_of_find?_eq_some hfound) hr hkey]

theorem sinceScheduled_reEnqueued (k k' : Key) (h : List Happening) :
    sinceScheduled k' (.reEnqueued k :: h) =
      if k' = k then sinceScheduled k h + 1 else sinceScheduled k' h := by
  rw [sinceScheduled]
  by_cases hk : k = k'
  · rw [if_pos hk, if_pos hk.symm, hk]
  · rw [if_neg hk, if_neg (Ne.symm hk)]

theorem get_set_cases {f : Row → Row} (hf : ∀ r, (f r).key = r.key) {k' : Key} {r' : Row}
    (h : (s.set k f).get k' = some r') :
    (∃ r, k' = k ∧ s.get k = some r ∧ r' = f r) ∨ k' ≠ k ∧ s.get k' = some r' := by
  rw [get_set hf] at h
  by_cases hk : k' = k
  · rw [if_pos hk] at h
    obtain ⟨r, hr, rfl⟩ := Option.map_eq_some_iff.mp h
    exact .inl ⟨r, hk, hr, rfl⟩
  · rw [if_neg hk] at h
    exact .inr ⟨hk, h⟩

/-- A turn keeps the invariant. -/
theorem Inv.turn (h : Inv s) {cutoff : Int} {models : List Model} {pending : List Key}
    (hsweep : s.sweep = some ⟨cutoff, models, k :: pending⟩) :
    Inv (State.turn { s with sweep := some ⟨cutoff, models, pending⟩ } cfg k free ok) := by
  have hrest : ∀ k' ∈ pending, ∀ r, s.get k' = some r → r.status = .scheduled → r.due < cutoff :=
    fun k' hk' => h.overdue _ hsweep k' (List.mem_cons_of_mem _ hk')
  rcases turn_cases { s with sweep := some ⟨cutoff, models, pending⟩ } cfg k free ok with
    ⟨row, hrow, hstatus, -, -, heq⟩ | ⟨-, hist, hhist, heq⟩
  · rw [heq]
    rcases settle_cases { s with sweep := some ⟨cutoff, models, pending⟩ } cfg k row with
      ⟨t, rfl, -, hsettle⟩ | ⟨t, rfl, -, hsettle⟩
    · rw [hsettle]
      refine ⟨(keys_set (s := s) (k := k) key_reEnqueued).symm ▸ h.nodup, ?_, ?_⟩
      · intro k' r' hr'
        show r'.sweepAttempts ≤ sinceScheduled k' (.reEnqueued k :: s.history)
        rw [sinceScheduled_reEnqueued]
        rcases get_set_cases (s := s) key_reEnqueued hr' with ⟨r, rfl, hr, rfl⟩ | ⟨hk, hr⟩
        · rw [if_pos rfl]
          exact Nat.succ_le_succ (h.counts k' r hr)
        · rw [if_neg hk]
          exact h.counts k' r' hr
      · rintro sweep ⟨⟩ k' hk' r' hr' hscheduled
        rcases get_set_cases (s := s) key_reEnqueued hr' with ⟨r, rfl, hr, rfl⟩ | ⟨-, hr⟩
        · exact hrest k' hk' r hr hscheduled
        · exact hrest k' hk' r' hr hscheduled
    · rw [hsettle]
      refine ⟨(keys_set (s := s) (k := k) key_givenUp).symm ▸ h.nodup, ?_, ?_⟩
      · intro k' r' hr'
        show r'.sweepAttempts ≤ sinceScheduled k' s.history
        rcases get_set_cases (s := s) key_givenUp hr' with ⟨r, rfl, hr, rfl⟩ | ⟨-, hr⟩
        · exact h.counts k' r hr
        · exact h.counts k' r' hr
      · rintro sweep ⟨⟩ k' hk' r' hr' hscheduled
        rcases get_set_cases (s := s) key_givenUp hr' with ⟨r, rfl, hr, rfl⟩ | ⟨-, hr⟩
        · have hfailed : Status.failed = .scheduled := hscheduled
          exact nomatch hfailed
        · exact hrest k' hk' r' hr hscheduled
  · rw [heq]
    refine ⟨h.nodup, ?_, ?_⟩
    · intro k' r' hr'
      have hsince : sinceScheduled k' hist = sinceScheduled k' s.history := by
        rcases List.mem_cons.mp hhist with rfl | hhist
        · rfl
        · rw [List.mem_singleton.mp hhist, sinceScheduled]
      show r'.sweepAttempts ≤ sinceScheduled k' hist
      rw [hsince]
      exact h.counts k' r' hr'
    · rintro sweep ⟨⟩ k' hk' r' hr' hscheduled
      exact hrest k' hk' r' hr' hscheduled

theorem Inv.schedule (h : Inv s) {req : Request} (hcare : Careful s (.request req)) :
    Inv (s.schedule req) := by
  rcases schedule_cases s req with ⟨row, hrow, haccepts, t, rfl, heq⟩ | heq
  · obtain ⟨hzero, hlate⟩ := hcare row hrow haccepts
    rw [heq]
    refine ⟨(keys_set (s := s) (k := req.key) (key_scheduledFor req.scheduledAt)).symm ▸ h.nodup, ?_, ?_⟩
    · intro k' r' hr'
      show r'.sweepAttempts ≤ sinceScheduled k' (.scheduled req.key :: s.history)
      rw [sinceScheduled]
      rcases get_set_cases (s := s) (key_scheduledFor req.scheduledAt) hr' with ⟨r, rfl, hr, rfl⟩ | ⟨hk, hr⟩
      · obtain rfl := Option.some.inj (hrow.symm.trans hr)
        exact le_of_eq_of_le hzero (Nat.zero_le _)
      · rw [if_neg (Ne.symm hk)]
        exact h.counts k' r' hr
    · intro sweep hsweep k' hk' r' hr' hscheduled
      rcases get_set_cases (s := s) (key_scheduledFor req.scheduledAt) hr' with ⟨r, rfl, hr, rfl⟩ | ⟨-, hr⟩
      · obtain rfl := Option.some.inj (hrow.symm.trans hr)
        exact hlate sweep hsweep hk'
      · exact h.overdue sweep hsweep k' hk' r' hr hscheduled
  · rw [heq]
    exact h

/-- **Every step keeps the invariant, if the requests are careful.** -/
theorem Inv.step (h : Inv s) (hcare : Careful s e) (hstep : step cfg s e = some s') : Inv s' := by
  rcases step_cases hstep with ⟨now, rfl, -, rfl⟩ | ⟨keys, cutoff, m, models, rfl, -, hperm, rfl⟩ |
    ⟨k, free, ok, cutoff, models, pending, rfl, hsweep, rfl⟩ | ⟨rfl, -, rfl⟩ | ⟨req, rfl, rfl⟩
  · refine ⟨h.nodup, h.counts, ?_⟩
    rintro sweep ⟨⟩ k hk
    exact absurd hk List.not_mem_nil
  · refine ⟨h.nodup, h.counts, ?_⟩
    rintro sweep ⟨⟩ k hk r hr -
    obtain ⟨r', hr', rfl⟩ := List.mem_map.mp (hperm.mem_iff.mp hk)
    obtain ⟨hmem, hselects⟩ := List.mem_filter.mp hr'
    obtain rfl := Option.some.inj ((get_of_mem h.nodup hmem).symm.trans hr)
    exact (of_decide_eq_true hselects).2.2
  · exact h.turn hsweep
  · exact ⟨h.nodup, h.counts, fun sweep hsweep => nomatch hsweep⟩
  · exact h.schedule hcare

/-- A turn does what it has to do. -/
theorem Inv.turnObeys (h : Inv s) {cutoff : Int} {models : List Model} {pending : List Key}
    (hsweep : s.sweep = some ⟨cutoff, models, k :: pending⟩) :
    TurnObeys cfg cutoff s
      (State.turn { s with sweep := some ⟨cutoff, models, pending⟩ } cfg k free ok) k free ok := by
  rcases turn_cases { s with sweep := some ⟨cutoff, models, pending⟩ } cfg k free ok with
    ⟨row, hrow, hstatus, rfl, rfl, heq⟩ | ⟨hnot, hist, -, heq⟩
  · -- the row is still scheduled: it is queued again, or given up
    have hget : s.get k = some row := hrow
    have hdue : row.due < cutoff := h.overdue _ hsweep k List.mem_cons_self row hget hstatus
    have hother : ∀ {f : Row → Row}, (∀ r, (f r).key = r.key) → ∀ k',
        (s.set k f).get k' ≠ s.get k' → k' = k := by
      intro f hf k' hne
      by_contra hk
      rw [get_set hf, if_neg hk] at hne
      exact hne rfl
    rw [heq]
    rcases settle_cases { s with sweep := some ⟨cutoff, models, pending⟩ } cfg k row with
      ⟨t, rfl, -, hsettle⟩ | ⟨t, rfl, hmax, hsettle⟩
    · -- queued again: one more attempt is counted
      have hnew : (s.set k Row.reEnqueued).get k = some row.reEnqueued := by
        rw [get_set key_reEnqueued, if_pos rfl, hget, Option.map_some]
      rw [hsettle]
      refine ⟨?_, ?_, ?_, ?_⟩
      · intro k' hne
        exact ⟨hother key_reEnqueued k' hne, row, hget, hstatus, hdue, rfl, rfl⟩
      · intro hsame
        have hcount := congrArg (Option.map Row.sweepAttempts) (hnew.symm.trans (hsame.trans hget))
        exact absurd (Option.some.inj hcount) (Nat.succ_ne_self _)
      · intro r hr _ _ _ _
        obtain rfl := Option.some.inj (hget.symm.trans hr)
        exact .inl ⟨hnew, rfl, rfl⟩
      · intro r r' hr hr' hopen hfailed
        obtain rfl := Option.some.inj (hnew.symm.trans hr')
        obtain rfl := Option.some.inj (hget.symm.trans hr)
        exact absurd hfailed hopen
    · -- given up: the attempts were used up before
      have hnew : (s.set k Row.givenUp).get k = some row.givenUp := by
        rw [get_set key_givenUp, if_pos rfl, hget, Option.map_some]
      rw [hsettle]
      refine ⟨?_, ?_, ?_, ?_⟩
      · intro k' hne
        exact ⟨hother key_givenUp k' hne, row, hget, hstatus, hdue, rfl, rfl⟩
      · intro hsame
        have hfailed := congrArg (Option.map Row.status) (hnew.symm.trans (hsame.trans hget))
        have hscheduled : Status.failed = .scheduled := (Option.some.inj hfailed).trans hstatus
        exact nomatch hscheduled
      · intro r hr _ _ _ _
        obtain rfl := Option.some.inj (hget.symm.trans hr)
        exact .inr ⟨⟨_, hnew⟩, rfl, rfl⟩
      · intro r r' hr _ _ _
        obtain rfl := Option.some.inj (hget.symm.trans hr)
        exact Nat.le_trans hmax (h.counts k row hget)
  · rw [heq]
    refine ⟨fun k' hne => absurd rfl hne, fun _ => ⟨rfl, rfl⟩, ?_, ?_⟩
    · intro r hr hstatus _ hfree hok
      exact absurd ⟨r, hr, hstatus, hfree, hok⟩ hnot
    · intro r r' hr hr' hopen hfailed
      obtain rfl := Option.some.inj (hr.symm.trans hr')
      exact absurd hfailed hopen

/-- **A step does what it has to do where the invariant holds.** -/
theorem Inv.obeys (h : Inv s) : StepObeys cfg s e := by
  intro s' hstep
  rcases step_cases hstep with ⟨now, rfl, -, rfl⟩ | ⟨keys, cutoff, m, models, rfl, -, -, rfl⟩ |
    ⟨k, free, ok, cutoff, models, pending, rfl, hsweep, rfl⟩ | ⟨rfl, -, rfl⟩ | ⟨req, rfl, rfl⟩
  · exact ⟨rfl, rfl, rfl⟩
  · exact ⟨rfl, rfl, rfl⟩
  · exact ⟨_, hsweep, h.turnObeys hsweep⟩
  · exact ⟨rfl, rfl, rfl⟩
  · trivial

end Invariant

/-! ### Independence of a row -/

/-- The state without a row and what became of it. -/
def State.without (k : Key) (s : State) : State where
  rows := s.rows.filter (·.key ≠ k)
  alerts := s.alerts.filter (·.key ≠ k)
  jobs := s.jobs.filter (·.key ≠ k)
  sweep := s.sweep.map fun w => { w with pending := w.pending.filter (· ≠ k) }
  history := s.history.filter (·.key ≠ k)

/-- The event without what it says of a row. -/
def Event.without (k : Key) : Event → Option Event
  | .begin now => some (.begin now)
  | .select keys => some (.select (keys.filter (· ≠ k)))
  | .turn k' free ok => if k' = k then none else some (.turn k' free ok)
  | .finish => some .finish
  | .request req => if req.key = k then none else some (.request req)

section Independence

variable {cfg : Settings} {s s' : State} {k k' : Key} {free ok : Bool}

theorem get_without (hk : k' ≠ k) : (s.without k).get k' = s.get k' := by
  show (s.rows.filter (·.key ≠ k)).find? (fun r => r.key = k') = s.rows.find? fun r => r.key = k'
  rw [List.find?_filter]
  congr 1
  funext r
  by_cases hr : r.key = k'
  · simp [hr, hk]
  · simp [hr]

theorem rows_set_without {f : Row → Row} (hf : ∀ r, (f r).key = r.key) :
    (s.set k' f).rows.filter (·.key ≠ k) =
      (s.rows.filter (·.key ≠ k)).map fun r => if r.key = k' then f r else r := by
  rw [State.set, List.filter_map]
  congr 1
  apply List.filter_congr
  intro r _
  show decide ((if r.key = k' then f r else r).key ≠ k) = decide (r.key ≠ k)
  by_cases hr : r.key = k'
  · rw [if_pos hr, hf r]
  · rw [if_neg hr]

theorem set_without {f : Row → Row} (hf : ∀ r, (f r).key = r.key) :
    (s.set k' f).without k = (s.without k).set k' f := by
  rw [State.without, rows_set_without hf]
  rfl

theorem set_without_self {f : Row → Row} (hf : ∀ r, (f r).key = r.key) :
    (s.set k f).without k = s.without k := by
  have hrows : (s.set k f).rows.filter (·.key ≠ k) = s.rows.filter (·.key ≠ k) := by
    rw [rows_set_without hf]
    conv_rhs => rw [← List.map_id (s.rows.filter (·.key ≠ k))]
    apply List.map_congr_left
    intro r hr
    have hne : r.key ≠ k := of_decide_eq_true (List.mem_filter.mp hr).2
    exact if_neg hne
  rw [State.without, hrows]
  rfl

theorem settle_without (row : Row) (hk : k' ≠ k) :
    (s.settle cfg k' row).without k = (s.without k).settle cfg k' row := by
  rw [State.settle, State.settle]
  cases decideOrphan row.sweepAttempts cfg.maxReenqueueAttempts with
  | reEnqueue =>
    have hset := @set_without s k k' _ key_reEnqueued
    have hrows := congrArg State.rows hset
    simp only [State.without, State.set] at hrows
    simp only [State.without, State.set, hrows, Happening.key]
    simp [hk]
  | giveUp =>
    have hset := @set_without s k k' _ key_givenUp
    have hrows := congrArg State.rows hset
    simp only [State.without, State.set] at hrows
    simp only [State.without, State.set, hrows, Happening.key]
    simp [hk]

theorem settle_without_self (row : Row) : (s.settle cfg k row).without k = s.without k := by
  rw [State.settle]
  cases decideOrphan row.sweepAttempts cfg.maxReenqueueAttempts with
  | reEnqueue =>
    have hrows := congrArg State.rows (set_without_self (s := s) (k := k) key_reEnqueued)
    simp only [State.without, State.set] at hrows
    simp only [State.without, State.set, hrows, Happening.key]
    simp
  | giveUp =>
    have hrows := congrArg State.rows (set_without_self (s := s) (k := k) key_givenUp)
    simp only [State.without, State.set] at hrows
    simp only [State.without, State.set, hrows, Happening.key]
    simp

theorem turn_without (hk : k' ≠ k) :
    (s.turn cfg k' free ok).without k = (s.without k).turn cfg k' free ok := by
  rw [State.turn, State.turn, get_without hk]
  cases s.get k' with
  | none => rfl
  | some row =>
    by_cases hstatus : row.status = .scheduled
    · cases ok with
      | false => simp [hstatus]
      | true =>
        cases free with
        | false => simp [hstatus, State.without, Happening.key, hk]
        | true => simp [hstatus, settle_without row hk]
    · simp [hstatus]

theorem turn_without_self : (s.turn cfg k free ok).without k = s.without k := by
  rcases turn_cases s cfg k free ok with ⟨row, -, -, -, -, heq⟩ | ⟨-, hist, hhist, heq⟩
  · rw [heq, settle_without_self]
  · rw [heq]
    rcases List.mem_cons.mp hhist with rfl | hhist
    · rfl
    · rw [List.mem_singleton.mp hhist]
      simp [State.without, Happening.key]

theorem schedule_without {req : Request} (hk : req.key ≠ k) :
    (s.schedule req).without k = (s.without k).schedule req := by
  rw [State.schedule, State.schedule, get_without hk]
  cases s.get req.key with
  | none => rfl
  | some row =>
    by_cases haccepts : req.accepts row = true
    · have hset := @set_without s k req.key _ (key_scheduledFor req.scheduledAt)
      have hrows := congrArg State.rows hset
      simp only [State.without, State.set] at hrows
      simp only [haccepts, if_true, State.without, State.set, hrows, Happening.key]
      simp [hk]
    · simp [haccepts]

theorem schedule_without_self {req : Request} (hk : req.key = k) :
    (s.schedule req).without k = s.without k := by
  subst hk
  rcases schedule_cases s req with ⟨row, -, -, t, rfl, heq⟩ | heq
  · have hrows := congrArg State.rows
      (set_without_self (s := s) (k := req.key) (key_scheduledFor req.scheduledAt))
    simp only [State.without, State.set] at hrows
    rw [heq]
    simp only [State.without, State.set, hrows, Happening.key]
    simp
  · rw [heq]

theorem step_without {e : Event} (h : step cfg s e = some s') :
    match e.without k with
    | some e' => step cfg (s.without k) e' = some (s'.without k)
    | none => s'.without k = s.without k := by
  rcases step_cases h with ⟨now, rfl, hsweep, rfl⟩ |
    ⟨keys, cutoff, m, models, rfl, hsweep, hperm, rfl⟩ |
    ⟨k', free, ok, cutoff, models, pending, rfl, hsweep, rfl⟩ | ⟨rfl, ⟨cutoff, hsweep⟩, rfl⟩ |
    ⟨req, rfl, rfl⟩
  · simp [Event.without, step, State.without, hsweep]
  · have hperm' : (keys.filter (· ≠ k)).isPerm
        (((s.rows.filter (·.key ≠ k)).filter (selects cutoff m)).map (·.key)) = true := by
      rw [List.isPerm_iff, List.filter_comm]
      have hmap : ((s.rows.filter (selects cutoff m)).filter (·.key ≠ k)).map (·.key) =
          ((s.rows.filter (selects cutoff m)).map (·.key)).filter (· ≠ k) := by
        rw [List.filter_map]
        rfl
      rw [hmap]
      exact hperm.filter fun k' => k' ≠ k
    simp only [Event.without, step, State.without, hsweep, Option.map_some, List.filter_nil]
    rw [if_pos hperm']
  · by_cases hk : k' = k
    · subst hk
      simp only [Event.without, if_pos, turn_without_self]
      simp [State.without, hsweep]
    · have hturn : (State.turn { s with sweep := some ⟨cutoff, models, pending⟩ } cfg k' free
          ok).without k = _ := turn_without hk
      simp only [Event.without, if_neg hk, hturn]
      simp [step, State.without, hsweep, hk]
  · simp [Event.without, step, State.without, hsweep]
  · by_cases hk : req.key = k
    · simp only [Event.without, if_pos hk]
      exact schedule_without_self hk
    · simp only [Event.without, if_neg hk, step, schedule_without hk]

/-- **The other rows go their way as if the row were not there.** -/
theorem runAll_without {es : List Event} (h : runAll (step cfg) s es = some s') :
    runAll (step cfg) (s.without k) (es.filterMap (Event.without k)) = some (s'.without k) := by
  induction es generalizing s with
  | nil =>
    obtain rfl := Option.some.inj h
    rfl
  | cons e es ih =>
    obtain ⟨t, hstep, hrun⟩ := runAll_cons h
    have hwithout := step_without (k := k) hstep
    rw [List.filterMap_cons]
    split at hwithout
    · rename_i e' he
      rw [he]
      show (step cfg (s.without k) e').bind _ = _
      rw [hwithout]
      exact ih hrun
    · rename_i he
      rw [he]
      show runAll (step cfg) (s.without k) (es.filterMap (Event.without k)) = _
      rw [← hwithout]
      exact ih hrun

end Independence

/-- **The law of the sweeper.**  Along every run whose requests are careful, each step of a
sweep does what it has to do; and runs that differ only in what happens to one row agree on all
the others. -/
theorem sweeps_obey {cfg : Settings} {s : State} {es : List Event} (hfresh : Fresh s)
    (hcare : Along (step cfg) Careful s es) :
    Along (step cfg) (StepObeys cfg) s es ∧
      ∀ k es' s₁ s₂, es'.filterMap (Event.without k) = es.filterMap (Event.without k) →
        runAll (step cfg) s es = some s₁ → runAll (step cfg) s es' = some s₂ →
          s₁.without k = s₂.without k := by
  constructor
  · have hinv : ∀ s e s', Inv s → Careful s e → step cfg s e = some s' → Inv s' :=
      fun _ _ _ h hcare hstep => h.step hcare hstep
    exact along_of_invariant hinv (fun _ _ h _ => h.obeys) hfresh.inv hcare
  · intro k es' s₁ s₂ hes h₁ h₂
    have hrun₁ := runAll_without (k := k) h₁
    have hrun₂ := runAll_without (k := k) h₂
    rw [hes, hrun₁] at hrun₂
    exact Option.some.inj hrun₂

/-! ### The law on runs -/

instance Careful.instDecidable (s : State) : (e : Event) → Decidable (Careful s e)
  | .begin _ => isTrue trivial
  | .select _ => isTrue trivial
  | .turn _ _ _ => isTrue trivial
  | .finish => isTrue trivial
  | .request req => by
    have hsweep : ∀ row : Row, Decidable (∀ sweep, s.sweep = some sweep →
        req.key ∈ sweep.pending → req.scheduledAt.getD row.createdAt < sweep.cutoff) := fun row =>
      decidable_of_iff (∀ sweep ∈ s.sweep, req.key ∈ sweep.pending →
        req.scheduledAt.getD row.createdAt < sweep.cutoff) Iff.rfl
    exact decidable_of_iff (∀ row ∈ s.get req.key, req.accepts row = true →
      row.sweepAttempts = 0 ∧ ∀ sweep, s.sweep = some sweep → req.key ∈ sweep.pending →
        req.scheduledAt.getD row.createdAt < sweep.cutoff) Iff.rfl

/-- A change that was scheduled for time 0. -/
def overdueChange : Row where
  key := ⟨.configChange, 1⟩
  tenantId := 1
  deviceId := 1
  status := .scheduled
  scheduledAt := some 0
  createdAt := 0
  sweepAttempts := 0
  error := none

def overdueAction : Row := { overdueChange with key := ⟨.firmwareAction, 1⟩ }

def overdueState : State := ⟨[overdueChange, overdueAction], [], [], none, []⟩

def wholeSweep (now : Int) : List Event :=
  [.begin now, .select [overdueChange.key], .turn overdueChange.key true true,
    .select [overdueAction.key], .turn overdueAction.key true true, .finish]

def scheduleFor (time : Int) : Request := ⟨1, 1, 1, some time⟩

/-- With one re-enqueue, the second sweep gives both rows up; the law holds along the run. -/
theorem sweeps_obey_overdue :
    Fresh overdueState ∧
      Along (step ⟨600, 1⟩) Careful overdueState
        (.request (scheduleFor 10) :: wholeSweep 1000 ++ wholeSweep 2000) ∧
      Along (step ⟨600, 1⟩) (StepObeys ⟨600, 1⟩) overdueState
        (.request (scheduleFor 10) :: wholeSweep 1000 ++ wholeSweep 2000) ∧
      ∃ s', runAll (step ⟨600, 1⟩) overdueState
          (.request (scheduleFor 10) :: wholeSweep 1000 ++ wholeSweep 2000) = some s' ∧
        s'.rows.map (·.status) = [.failed, .failed] ∧ s'.alerts.length = 2 := by
  have hfresh : Fresh overdueState := ⟨by decide, by decide, rfl⟩
  have hcare : Along (step ⟨600, 1⟩) Careful overdueState
      (.request (scheduleFor 10) :: wholeSweep 1000 ++ wholeSweep 2000) := by
    decide +kernel
  refine ⟨hfresh, hcare, (sweeps_obey hfresh hcare).1, _, rfl, ?_, ?_⟩
  · decide +kernel
  · decide +kernel

theorem along_middle {S E : Type} {step : S → E → Option S} {G : S → E → Prop} {s s₁ : S}
    {es es' : List E} {e : E} (h : Along step G s (es ++ e :: es'))
    (hrun : runAll step s es = some s₁) : G s₁ e := by
  induction es generalizing s with
  | nil =>
    obtain rfl := Option.some.inj hrun
    exact h.1
  | cons e' es ih =>
    obtain ⟨t, hstep, hrest⟩ := runAll_cons hrun
    exact ih (h.2 t hstep) hrest

theorem not_obeys_of_early {cfg : Settings} {s s' : State} {k : Key} {free ok : Bool} {r r' : Row}
    (hstep : step cfg s (.turn k free ok) = some s') (hr : s.get k = some r)
    (hr' : s'.get k = some r') (hopen : r.status ≠ .failed) (hfailed : r'.status = .failed)
    (hearly : sinceScheduled k s.history < cfg.maxReenqueueAttempts) :
    ¬ StepObeys cfg s (.turn k free ok) := by
  intro h
  obtain ⟨sweep, -, hobeys⟩ := h s' hstep
  exact absurd (hobeys.gaveUp r r' hr hr' hopen hfailed) (Nat.not_le.mpr hearly)

theorem not_obeys_of_recent {cfg : Settings} {s s' : State} {k : Key} {free ok : Bool} {r : Row}
    {sweep : Sweep} (hstep : step cfg s (.turn k free ok) = some s') (hsweep : s.sweep = some sweep)
    (hr : s.get k = some r) (hrecent : sweep.cutoff ≤ r.due) (hchanged : s'.get k ≠ s.get k) :
    ¬ StepObeys cfg s (.turn k free ok) := by
  intro h
  obtain ⟨sweep', hsweep', hobeys⟩ := h s' hstep
  obtain rfl := Option.some.inj (hsweep.symm.trans hsweep')
  obtain ⟨-, r', hr', -, hdue, -⟩ := hobeys.only k hchanged
  obtain rfl := Option.some.inj (hr.symm.trans hr')
  exact absurd hdue (Int.not_lt.mpr hrecent)

def defaults : Settings := ⟨300, 5⟩

def fiveSweeps : List Event :=
  wholeSweep 1000 ++ wholeSweep 1300 ++ wholeSweep 1600 ++ wholeSweep 1900 ++ wholeSweep 2200

/-- A change is scheduled again after five re-enqueues: the next sweep that misses it gives it up
at once.  And a change that is put off while it waits for its turn is enqueued all the same. -/
theorem rescheduled_given_up :
    (Fresh overdueState ∧
      ¬ Along (step defaults) (StepObeys defaults) overdueState
        (fiveSweeps ++ [.request (scheduleFor 2300), .begin 2800, .select [overdueChange.key]] ++
          .turn overdueChange.key true true :: [])) ∧
    ¬ Along (step defaults) (StepObeys defaults) overdueState
        ([.begin 1000, .select [overdueChange.key], .request (scheduleFor 100000)] ++
          .turn overdueChange.key true true :: []) := by
  refine ⟨⟨⟨by decide, by decide, rfl⟩, ?_⟩, ?_⟩
  · intro h
    have hlast := along_middle h rfl
    revert hlast
    refine not_obeys_of_early rfl rfl rfl ?_ ?_ ?_
    · decide +kernel
    · decide +kernel
    · decide +kernel
  · intro h
    have hlast := along_middle h rfl
    revert hlast
    refine not_obeys_of_recent rfl rfl rfl ?_ ?_
    · decide +kernel
    · decide +kernel

end OrphanSweeps

end Opngms
