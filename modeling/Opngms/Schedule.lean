/-
Opngms/Schedule.lean

When a change is pushed, compared with the time stored in its row.

A schedule request stores `scheduled_at` and enqueues a job deferred until
then.  The job does not carry the time and `apply_change` does not look at it,
so a change that was scheduled and is then moved to a later time is still
pushed by the job of the first request.  The sweeper can do the same: it
enqueues an undeferred job for a row that it found overdue a moment ago.

`KeepsSchedule` is the condition on one step under which this does not
happen: a commit moves the stored time past the present only while no job for
the change is queued for an earlier time or under way, and a job for the
change is enqueued only for a time at which it is due.  In every run whose
steps meet it, no mark of a push and no request of one comes before the stored
time: **`pushed_when_due`**, over all requests, jobs and sweeps.
-/
import Mathlib.Order.MinMax
import Opngms.Handlers
import Opngms.Together

namespace Opngms

open Dialogue

variable {Box : Type}

/-! ### Who pushes -/

/-- The job applies the change `c`, by itself or as a member of a profile. -/
def Job.names (c : ChangeId) : Job → Bool
  | .applyConfigChange id => id = c
  | .applyProfileChanges ids => ids.contains c
  | .backupDeviceConfig _ => false

/-- The task is a job that applies `c`. -/
def Task.names (c : ChangeId) : Task → Bool
  | Task.job j => j.names c
  | Task.request | Task.sweep => false

/-- A session is opened for one task; it pushes what its job names, and before
it commits.  Only the sweeper opens several blocks. -/
def ownPushes : Discipline Eff Eff.Ans (Task × Bool) where
  allows s
    | .beginPush id => s.1.names id = true ∧ s.2 = false
    | .closeSession => s.1 = .sweep
    | _ => True
  admits _
    | .getChange id, row => ∀ r : Change, row = some r → r.id = id
    | _, _ => True
  next s
    | .commit, _ => (s.1, true)
    | .closeSession, _ => (s.1, false)
    | _, _ => s

/-- What `ownPushes` sees of a session. -/
def pushView (s : Session) : Task × Bool := (s.task, s.committed)

theorem pushView_after (s : Session) (q : Eff) (a : q.Ans) :
    pushView (s.after q a) = ownPushes.next (pushView s) q a := by
  cases q <;> rfl

/-- In any session the program keeps to `ownPushes`, as one that does not push
does. -/
def Unpushing {α : Type} (p : Program α) : Prop :=
  ∀ s, Follows ownPushes (fun s' _ => s'.1 = s.1) s p

section Rules

variable {α β : Type}

theorem unpushing_pure (a : α) : Unpushing (.pure a : Program α) := fun _ => rfl

/-- The effects that every session may ask for at any time. -/
def Eff.plain : Eff → Bool
  | .beginPush _ | .closeSession => false
  | _ => true

theorem unpushing_ask {q : Eff} {k : q.Ans → Program α} (hq : q.plain = true)
    (hk : ∀ a, Unpushing (k a)) : Unpushing (.ask q k) := by
  intro s
  have hallow : ownPushes.allows s q := by
    cases q <;> first | exact trivial | cases hq
  have hnext : ∀ a, (ownPushes.next s q a).1 = s.1 := by
    intro a
    cases q <;> rfl
  refine ⟨hallow, fun a _ => ?_⟩
  rw [← hnext a]
  exact hk a _

theorem Unpushing.bind {p : Program α} {f : α → Program β} (h : Unpushing p)
    (hf : ∀ a, Unpushing (f a)) : Unpushing (p.bind f) := by
  intro s
  refine Follows.bind (h s) (fun s' a hs' => ?_) fun _ _ hs' => hs'
  rw [← hs']
  exact hf a s'

theorem Unpushing.handle {p : Program α} {g : Raised → Program α} (h : Unpushing p)
    (hg : ∀ x, Unpushing (g x)) : Unpushing (p.handle g) := by
  intro s
  refine Follows.handle (h s) (fun _ _ hs' => hs') fun s' x hs' => ?_
  rw [← hs']
  exact hg x s'

end Rules

/-! ### Handlers and the sweeper -/

section Handlers

variable {env : Env}

theorem unpushing_of_asks {α : Type} {p : Program α} (h : Asks Eff.ofHandler p) : Unpushing p := by
  intro s
  refine h.follows (I := fun s' : Task × Bool => s'.1 = s.1) (fun s' q _ hq => ?_)
    (fun s' q a hs' hq _ => ?_) rfl
  · cases q <;> trivial
  · cases q <;> exact hs'

theorem follows_sweepRows_pushes {s : Task × Bool} (hs : s.1 = .sweep) (ids : List ChangeId)
    (summary : SweepSummary) :
    Follows ownPushes (fun _ _ => True) s (sweepRows env ids summary) := by
  induction ids generalizing s summary with
  | nil => trivial
  | cons id ids ih =>
    have hrow : Unpushing (tryCatch (sweepRow env id summary) fun _ => Pure.pure summary) :=
      (unpushing_of_asks (asks_sweepRow id summary)).handle fun _ => unpushing_pure summary
    refine Follows.bind (hrow s) (fun s' summary' hs' => ?_) fun _ _ _ => trivial
    exact ⟨hs'.trans hs, fun _ _ => ih (by exact hs'.trans hs) summary'⟩

theorem follows_sweepOrphanedActions_pushes {s : Task × Bool} (hs : s.1 = .sweep) :
    Follows ownPushes (fun _ _ => True) s (do let _ ← sweepOrphanedActions env) := by
  refine ⟨trivial, fun now _ => ⟨trivial, fun ids _ => ⟨hs, fun _ _ => ?_⟩⟩⟩
  show Follows _ _ _ ((sweepRows env ids {}).bind _)
  exact Follows.bind (follows_sweepRows_pushes (by exact hs) ids {}) (fun _ _ _ => trivial)
    fun _ _ _ => trivial

end Handlers

/-! ### Jobs -/

section Jobs

variable {env : Env} {s : Task × Bool}

/-- The program keeps to `ownPushes` and does not commit. -/
abbrev Steady {α : Type} (s : Task × Bool) (p : Program α) : Prop :=
  Follows ownPushes (fun s' _ => s' = s) s p

theorem Steady.bind {α β : Type} {p : Program α} {f : α → Program β} (h : Steady s p)
    (hf : ∀ a, Steady s (f a)) : Steady s (p.bind f) := by
  refine Follows.bind h (fun s' a hs' => ?_) fun _ _ hs' => hs'
  rw [hs']
  exact hf a

theorem steady_readConfig (client : DeviceId) : Steady s (readConfig env client) := by
  refine ⟨trivial, fun r _ => ?_⟩
  cases r with
  | error e => exact rfl
  | ok xml => exact rfl

theorem steady_clientForDevice (device : Device) : Steady s (clientForDevice device) := by
  unfold clientForDevice
  split
  · exact rfl
  · exact rfl

theorem steady_rollbackPoint (live : Bool) (change : Change) (xml : String) :
    Steady s (rollbackPoint env live change xml) := by
  cases live with
  | false => exact rfl
  | true => exact ⟨trivial, fun _ _ => ⟨trivial, fun _ _ => rfl⟩⟩

theorem steady_flushAll (cs : List Change) : Steady s (flushAll cs) := by
  induction cs with
  | nil => exact rfl
  | cons c cs ih => exact ⟨trivial, fun _ _ => ih⟩

theorem steady_flushResults (cs : List Change) : Steady s (flushResults cs) := by
  induction cs with
  | nil => exact rfl
  | cons c cs ih => exact follows_flushResult rfl ⟨trivial, fun _ _ => ih⟩

theorem steady_applyGuarded {change : Change} (client : DeviceId) (live : Bool) (now : Time)
    (hs : s.1.names change.id = true ∧ s.2 = false) :
    Steady s (applyGuarded client change live now) := by
  have hbox : ∀ p : Client Json, Steady s (onBox client p) := fun p =>
    follows_onBox (fun _ => trivial) (fun _ _ => rfl) p
  have hcall : Steady s (callApplier client change live) := by
    cases live with
    | false => exact hbox _
    | true => exact ⟨hs, fun _ _ => hbox _⟩
  refine Follows.handle (hcall.bind fun res => rfl) (fun _ _ h => h) fun s' e hs' => ?_
  cases applyFailure e with
  | some result => exact hs'
  | none => exact hs'

theorem steady_applyChange {change : Change} (client : DeviceId) (now : Time)
    (hs : s.1.names change.id = true ∧ s.2 = false) :
    Steady s (applyChange env change client now) := by
  unfold applyChange
  split
  · exact rfl
  · refine ⟨trivial, fun got _ => ?_⟩
    cases got with
    | false => exact rfl
    | true =>
      refine (steady_readConfig client).bind fun r => ?_
      cases r with
      | none => exact ⟨trivial, fun _ _ => rfl⟩
      | some r =>
        show Steady s (ite _ _ _)
        split
        · exact ⟨trivial, fun _ _ => rfl⟩
        · refine ⟨trivial, fun _ _ => ⟨trivial, fun row _ => ?_⟩⟩
          refine (steady_rollbackPoint _ _ _).bind fun snapId => ?_
          refine (steady_applyGuarded client _ now (by exact hs)).bind fun done => ?_
          exact follows_flushResult rfl ⟨trivial, fun _ _ => rfl⟩

theorem steady_applyMembers {cs : List Change} (client : DeviceId) (live aborted : Bool)
    (snapId : Option SnapId) (now : Time)
    (hs : ∀ c ∈ cs, s.1.names c.id = true ∧ s.2 = false) :
    Steady s (applyMembers client live snapId now aborted cs) := by
  induction cs generalizing aborted with
  | nil => cases aborted <;> exact rfl
  | cons c cs ih =>
    obtain ⟨hc, hcs⟩ := List.forall_mem_cons.mp hs
    cases aborted with
    | true => exact (ih true hcs).bind fun rest => rfl
    | false =>
      refine (steady_applyGuarded client live now (by exact hc)).bind fun done => ?_
      exact (ih _ hcs).bind fun rest => rfl

theorem steady_applyProfileSequence {changes : List Change} (client : DeviceId) (now : Time)
    (hs : ∀ c ∈ changes, s.1.names c.id = true ∧ s.2 = false) :
    Steady s (applyProfileSequence env changes client now) := by
  unfold applyProfileSequence
  split
  · exact rfl
  · rename_i first others hsched
    have hmem : ∀ c ∈ first :: others, s.1.names c.id = true ∧ s.2 = false := by
      rw [← hsched]
      exact fun c hc => hs c (List.mem_of_mem_filter hc)
    refine ⟨trivial, fun got _ => ?_⟩
    cases got with
    | false => exact rfl
    | true =>
      refine (steady_readConfig client).bind fun r => ?_
      cases r with
      | none => exact (steady_flushAll _).bind fun _ => rfl
      | some r =>
        show Steady s (ite _ _ _)
        split
        · exact (steady_flushAll _).bind fun _ => rfl
        · refine ⟨trivial, fun row _ => ?_⟩
          refine (steady_rollbackPoint _ _ _).bind fun snapId => ?_
          refine (steady_applyMembers client _ _ _ now hmem).bind fun done => ?_
          exact (steady_flushResults _).bind fun _ => rfl

theorem follows_loadChanges_pushes (ids : List ChangeId) :
    Follows ownPushes (fun s' z => s' = s ∧ ∀ rows, z = .ok rows → ∀ r ∈ rows, r.id ∈ ids) s
      (loadChanges ids) := by
  induction ids with
  | nil =>
    refine ⟨rfl, fun rows h => ?_⟩
    obtain rfl := Except.ok.inj h
    exact nofun
  | cons id ids ih =>
    refine ⟨trivial, fun row hrow => ?_⟩
    show Follows _ _ _ ((loadChanges ids).bind _)
    refine Follows.bind ih (fun s' rest h => ?_) fun s' x h => ⟨h.1, nofun⟩
    have hrest : ∀ r ∈ rest, r.id ∈ id :: ids := fun r hr =>
      List.mem_cons_of_mem id (h.2 rest rfl r hr)
    cases row with
    | none =>
      refine ⟨h.1, fun rows hrows => ?_⟩
      obtain rfl := Except.ok.inj hrows
      exact hrest
    | some r =>
      have hr : r.id = id := hrow r rfl
      refine ⟨h.1, fun rows hrows => ?_⟩
      obtain rfl := Except.ok.inj hrows
      refine List.forall_mem_cons.mpr ⟨?_, hrest⟩
      rw [hr]
      exact List.mem_cons_self

theorem follows_commitThenEnqueue {α : Type} (job : Job) (a : α) :
    Follows ownPushes (fun _ _ => True) s
      (do perform .commit; perform (.enqueue job none); return a) :=
  ⟨trivial, fun _ _ => ⟨trivial, fun _ _ => trivial⟩⟩

theorem follows_applyConfigChange_pushes (id : ChangeId) :
    Follows ownPushes (fun _ _ => True) (.job (.applyConfigChange id), false)
      (applyConfigChange env id) := by
  refine ⟨trivial, fun row hrow => ?_⟩
  cases row with
  | none => trivial
  | some change =>
    have hid : change.id = id := hrow change rfl
    refine ⟨trivial, fun device _ => ?_⟩
    cases device with
    | none => trivial
    | some device =>
      have hs : Task.names change.id (.job (.applyConfigChange id)) = true := by
        rw [hid]
        exact decide_eq_true rfl
      show Follows _ _ _ ((clientForDevice device).bind _)
      refine Follows.bind (steady_clientForDevice device) (fun s' _ hs' => ?_) fun _ _ _ => trivial
      rw [hs']
      refine ⟨trivial, fun now _ => ?_⟩
      show Follows _ _ _ ((applyChange env change change.deviceId now).bind _)
      refine Follows.bind (steady_applyChange _ now ⟨hs, rfl⟩) (fun s' done _ => ?_)
        fun _ _ _ => trivial
      exact follows_commitThenEnqueue _ _

theorem follows_applyProfileChanges_pushes (ids : List ChangeId) :
    Follows ownPushes (fun _ _ => True) (.job (.applyProfileChanges ids), false)
      (applyProfileChanges env ids) := by
  refine Follows.bind (follows_loadChanges_pushes ids) (fun s' rows h => ?_) fun _ _ _ => trivial
  obtain ⟨rfl, hrows⟩ := h
  cases rows with
  | nil => trivial
  | cons first others =>
    refine ⟨trivial, fun device _ => ?_⟩
    cases device with
    | none => trivial
    | some device =>
      have hs : ∀ c ∈ first :: others,
          Task.names c.id (.job (.applyProfileChanges ids)) = true ∧ false = false :=
        fun c hc => ⟨List.contains_iff_mem.mpr (hrows _ rfl c hc), rfl⟩
      show Follows _ _ _ ((clientForDevice device).bind _)
      refine Follows.bind (steady_clientForDevice device) (fun s' _ hs' => ?_) fun _ _ _ => trivial
      rw [hs']
      refine ⟨trivial, fun now _ => ?_⟩
      show Follows _ _ _ ((applyProfileSequence env (first :: others) first.deviceId now).bind _)
      refine Follows.bind (steady_applyProfileSequence _ now hs) (fun s' done _ => ?_)
        fun _ _ _ => trivial
      exact follows_commitThenEnqueue _ _

theorem unpushing_backupDeviceConfig (device : DeviceId) :
    Unpushing (backupDeviceConfig env device) := by
  have hsteady : ∀ {α : Type} {p : Program α}, (∀ s, Steady s p) → Unpushing p :=
    fun h s => (h s).mono fun s' _ hs' => by rw [hs']
  refine unpushing_ask rfl fun row => ?_
  cases row with
  | none => exact unpushing_pure _
  | some d =>
    refine (hsteady fun s => steady_clientForDevice d).bind fun _ => ?_
    refine Unpushing.bind ((hsteady fun s => steady_readConfig device).bind fun r => ?_)
      fun created => ?_
    · cases r with
      | none => exact unpushing_pure _
      | some r =>
        refine unpushing_ask rfl fun latest => ?_
        show Unpushing (ite _ _ _)
        split
        · exact unpushing_pure _
        · exact unpushing_ask rfl fun _ => unpushing_pure _
    · exact unpushing_ask rfl fun _ => unpushing_pure _

/-- **Every program pushes only what its job names**, before its commit. -/
theorem follows_opens_pushes {queue queue' : List (Job × Option Time)} {e : Event} {i : Nat}
    {task : Task} {t : Program Unit} (h : Opens env queue e i task t queue') :
    Follows ownPushes (fun _ _ => True) (task, false) t := by
  cases h with
  | call i c => exact (unpushing_of_asks c.asks_program _).mono fun _ _ _ => trivial
  | sweep i => exact follows_sweepOrphanedActions_pushes rfl
  | @job i n job d hn =>
    cases job with
    | applyConfigChange id =>
      exact Follows.bind (follows_applyConfigChange_pushes id) (fun _ _ _ => trivial)
        fun _ _ _ => trivial
    | applyProfileChanges ids =>
      exact Follows.bind (follows_applyProfileChanges_pushes ids) (fun _ _ _ => trivial)
        fun _ _ _ => trivial
    | backupDeviceConfig device =>
      exact Follows.bind (unpushing_backupDeviceConfig device _) (fun _ _ _ => trivial)
        fun _ _ _ => trivial

end Jobs

/-! ### Stored times -/

/-- The time stored in the row of `c`; a row without one is due at once. -/
def World.scheduledFor (w : World Box) (c : ChangeId) : Time :=
  ((w.changes c).bind Change.scheduledAt).getD 0

/-- A job for `c` is under way in the session and has not committed. -/
def Session.atWork (c : ChangeId) (s : Session) : Bool := s.task.names c && !s.committed

/-- The event is part of a push of `c`: its mark, or a request sent between
the mark and the commit. -/
def Sys.pushes (c : ChangeId) (sys : Sys Box) : Event → Bool
  | .run i =>
    match sys.threads i with
    | some (.ask (.beginPush id) _) => id = c
    | some (.ask (.request _ _) _) => (sys.world.sessions i).pushing = some c
    | _ => false
  | _ => false

/-- If the event pushes `c`, the time stored in its row has come. -/
def PushDue (c : ChangeId) (sys : Sys Box) (e : Event) : Prop :=
  sys.pushes c e = true → sys.world.scheduledFor c ≤ sys.world.clock

instance (c : ChangeId) (sys : Sys Box) (e : Event) : Decidable (PushDue c sys e) :=
  inferInstanceAs (Decidable (_ → _))

/-- The session whose commit the event is, if it is one. -/
def Sys.committing (sys : Sys Box) : Event → Option Nat
  | .run i =>
    match sys.threads i with
    | some (.ask .commit _) => some i
    | _ => none
  | _ => none

/-- The job that the event enqueues, if it enqueues one. -/
def Sys.enqueuing (sys : Sys Box) : Event → Option (Job × Option Time)
  | .run i =>
    match sys.threads i with
    | some (.ask (.enqueue job deferUntil) _) => some (job, deferUntil)
    | _ => none
  | _ => none

/-- No job for `c` is queued for a time before `t`, and none is under way. -/
structure Untouched (c : ChangeId) (w : World Box) (t : Time) : Prop where
  queue : ∀ x ∈ w.queue, x.1.names c = true → t ≤ x.2.getD 0
  working : ∀ i, (w.sessions i).atWork c = false

/-- The step does not break the schedule of `c`: if it commits a later time
for `c`, one still to come, no job for `c` is queued for before that time or
under way; if it enqueues a job for `c`, the stored time is not after the one
that the job is deferred to, or has come. -/
structure KeepsSchedule (c : ChangeId) (sys : Sys Box) (e : Event) : Prop where
  commit : ∀ i ∈ sys.committing e, sys.world.scheduledFor c < (sys.world.commit i).scheduledFor c →
    sys.world.clock < (sys.world.commit i).scheduledFor c →
    Untouched c sys.world ((sys.world.commit i).scheduledFor c)
  enqueue : ∀ x ∈ sys.enqueuing e, x.1.names c = true →
    sys.world.scheduledFor c ≤ max (x.2.getD 0) sys.world.clock

/-- What holds of a session, if the row of `c` is due at `due`: a job for `c`
has not come too early, and only such a job is in the middle of a push. -/
structure Session.OnTime (c : ChangeId) (due clock : Time) (s : Session) : Prop where
  working : s.atWork c = true → due ≤ clock
  pushing : s.pushing = some c → s.atWork c = true

/-- What holds in every state of a run that keeps the schedule: a queued job
for `c` comes no earlier than the stored time, and neither does one that is
under way. -/
structure OnTime (c : ChangeId) (sys : Sys Box) : Prop where
  keyed : sys.world.Keyed
  follows : sys.AllFollow ownPushes (fun _ _ => True) pushView
  queue : ∀ x ∈ sys.world.queue, x.1.names c = true →
    sys.world.scheduledFor c ≤ max (x.2.getD 0) sys.world.clock
  sessions : ∀ i, (sys.world.sessions i).OnTime c (sys.world.scheduledFor c) sys.world.clock

section System

variable {c : ChangeId} {env : Env} {B : BoxModel Box} {sys sys' : Sys Box} {e : Event}

/-- A push comes from a session at work, so it is on time. -/
theorem OnTime.pushDue (h : OnTime c sys) (e : Event) : PushDue c sys e := by
  intro hp
  cases e with
  | run i =>
    simp only [Sys.pushes] at hp
    split at hp
    · rename_i id k ht
      obtain rfl : id = c := of_decide_eq_true hp
      obtain ⟨hnames, hopen⟩ := (h.follows i _ ht).1
      refine (h.sessions i).working ?_
      have hnames : (sys.world.sessions i).task.names id = true := hnames
      have hopen : (sys.world.sessions i).committed = false := hopen
      simp [Session.atWork, hnames, hopen]
    · exact (h.sessions i).working ((h.sessions i).pushing (of_decide_eq_true hp))
    · cases hp
  | _ => cases hp

theorem answer_clock {i : Nat} {w w' : World Box} {q : Eff} {a : q.Ans}
    (h : w.answer B i q = some (a, w')) : w'.clock = w.clock := by
  cases q with
  | tryAdvisoryLock key =>
    simp only [World.answer] at h
    split at h <;> (obtain ⟨-, rfl⟩ := Prod.mk.inj (Option.some.inj h); rfl)
  | flushChange row =>
    simp only [World.answer] at h
    split at h
    · obtain ⟨-, rfl⟩ := Prod.mk.inj (Option.some.inj h)
      rfl
    · cases h
  | _ =>
    obtain ⟨-, rfl⟩ := Prod.mk.inj (Option.some.inj h)
    rfl

theorem start_clock {i : Nat} {task : Task} {t : Program Unit}
    (h : sys.start i task t = some sys') : sys'.world.clock = sys.world.clock := by
  unfold Sys.start at h
  split at h
  · cases h
  · obtain rfl := Option.some.inj h
    rfl

theorem clock_le (hstep : sys.step env B e = some sys') : sys.world.clock ≤ sys'.world.clock := by
  cases e with
  | call i c => exact (start_clock hstep).ge
  | sweep i => exact (start_clock hstep).ge
  | dequeue i n =>
    simp only [Sys.step] at hstep
    split at hstep
    · cases hstep
    · split at hstep
      · exact (start_clock hstep).ge
      · cases hstep
  | run i =>
    rcases Pool.advance_cases hstep with ⟨t, -, -, rfl⟩ | ⟨q, k, a, w, -, hs, rfl⟩
    · exact le_rfl
    · obtain ⟨⟨a₀, w₀⟩, hw, he⟩ := Option.map_eq_some_iff.mp hs
      obtain ⟨rfl, rfl⟩ := Prod.mk.inj he
      exact (answer_clock hw).ge
  | tick =>
    obtain rfl := Option.some.inj hstep
    exact Nat.le_succ _
  | setLivePush b =>
    obtain rfl := Option.some.inj hstep
    exact le_rfl

theorem dequeue_due {i n : Nat} {job : Job} {deferUntil : Option Time}
    (hstep : sys.step env B (.dequeue i n) = some sys')
    (hn : sys.world.queue[n]? = some (job, deferUntil)) :
    deferUntil.getD 0 ≤ sys.world.clock := by
  simp only [Sys.step, hn] at hstep
  split at hstep
  · assumption
  · cases hstep

theorem OnTime.opened (h : OnTime c sys) {i : Nat} {task : Task} {t : Program Unit}
    {queue : List (Job × Option Time)} (ho : Opens env sys.world.queue e i task t queue)
    (hstep : sys.step env B e = some sys') :
    (∀ x ∈ queue, x ∈ sys.world.queue) ∧
      (task.names c = true → sys.world.scheduledFor c ≤ sys.world.clock) := by
  cases ho with
  | call i c => exact ⟨fun _ hx => hx, nofun⟩
  | sweep i => exact ⟨fun _ hx => hx, nofun⟩
  | @job i n job d hn =>
    refine ⟨fun x hx => List.mem_of_mem_eraseIdx hx, fun hnames => ?_⟩
    have hle := h.queue (job, d) (List.mem_of_getElem? hn) hnames
    rw [max_eq_right (dequeue_due hstep hn)] at hle
    exact hle

theorem Session.atWork_of_after {s : Session} {q : Eff} {a : q.Ans}
    (hq : ownPushes.allows (pushView s) q) (h : (s.after q a).atWork c = true) :
    s.atWork c = true := by
  cases q with
  | commit => simp [Session.atWork, Session.after] at h
  | closeSession =>
    have hs : s.task = .sweep := hq
    simp [Session.atWork, Session.after, hs, Task.names] at h
  | _ => exact h

theorem Session.OnTime.after {s : Session} {q : Eff} {a : q.Ans} {due due' clock : Time}
    (h : s.OnTime c due clock) (hq : ownPushes.allows (pushView s) q)
    (hdue : s.atWork c = true → due' ≤ clock) : (s.after q a).OnTime c due' clock := by
  refine ⟨fun hw => hdue (Session.atWork_of_after hq hw), fun hp => ?_⟩
  cases q with
  | beginPush id =>
    obtain rfl : id = c := Option.some.inj hp
    obtain ⟨hnames, hopen⟩ := hq
    have hnames : s.task.names id = true := hnames
    have hopen : s.committed = false := hopen
    simp [Session.atWork, Session.after, hnames, hopen]
  | commit => cases hp
  | closeSession => cases hp
  | _ => exact h.pushing hp

theorem onTime_fresh {due clock began : Time} {task : Task}
    (h : task.names c = true → due ≤ clock) :
    Session.OnTime c due clock { began, task } :=
  ⟨fun hw => h (by simpa [Session.atWork] using hw), nofun⟩

theorem onTime_setSession {w : World Box} {i : Nat} {s : Session} {due clock : Time}
    (hown : s.OnTime c due clock) (hother : ∀ j, (w.sessions j).OnTime c due clock) (j : Nat) :
    ((w.setSession i s).sessions j).OnTime c due clock := by
  rw [World.setSession_sessions]
  by_cases hji : j = i
  · rw [hji, Function.update_self]
    exact hown
  · rw [Function.update_of_ne hji]
    exact hother j

theorem OnTime.commit (h : OnTime c sys) {i : Nat} {k : Unit → Program Unit}
    (ht : sys.threads i = some (.ask .commit k)) (hkeep : KeepsSchedule c sys (.run i)) :
    (∀ x ∈ sys.world.queue, x.1.names c = true →
      (sys.world.commit i).scheduledFor c ≤ max (x.2.getD 0) sys.world.clock) ∧
    ∀ j, (sys.world.sessions j).atWork c = true →
      (sys.world.commit i).scheduledFor c ≤ sys.world.clock := by
  have hi : i ∈ sys.committing (.run i) := by simp [Sys.committing, ht]
  by_cases hmoved : sys.world.scheduledFor c < (sys.world.commit i).scheduledFor c
  · by_cases hahead : sys.world.clock < (sys.world.commit i).scheduledFor c
    · have hfree := hkeep.commit i hi hmoved hahead
      refine ⟨fun x hx hn => le_max_of_le_left (hfree.queue x hx hn), fun j hj => ?_⟩
      rw [hfree.working j] at hj
      cases hj
    · have hdue := not_lt.mp hahead
      exact ⟨fun _ _ _ => le_max_of_le_right hdue, fun _ _ => hdue⟩
  · -- the stored time stays or moves to an earlier one
    have hle := not_lt.mp hmoved
    exact ⟨fun x hx hn => hle.trans (h.queue x hx hn),
      fun j hj => hle.trans ((h.sessions j).working hj)⟩

/-- A step that keeps the schedule keeps the system on time. -/
theorem OnTime.step (h : OnTime c sys) (hkeep : KeepsSchedule c sys e)
    (hstep : sys.step env B e = some sys') : OnTime c sys' := by
  have hkeyed := h.keyed.step hstep
  have hfollows : sys'.AllFollow ownPushes (fun _ _ => True) pushView := by
    refine follows_step pushView_after hstep (fun i task t queue ho => follows_opens_pushes ho)
      (fun i q k a w _ _ hw => ?_) h.follows
    cases q with
    | getChange id =>
      obtain ⟨rfl, -⟩ := Prod.mk.inj (Option.some.inj hw)
      exact h.keyed.changes id
    | _ => trivial
  have hclock := clock_le hstep
  cases Sys.step_moves hstep with
  | @opened _ i task t queue hfree ho =>
    obtain ⟨hqueue, hnames⟩ := h.opened ho hstep
    exact ⟨hkeyed, hfollows, fun x hx => h.queue x (hqueue x hx),
      onTime_setSession (onTime_fresh hnames) h.sessions⟩
  | @ended i t ht hend =>
    exact ⟨hkeyed, hfollows, h.queue, onTime_setSession (onTime_fresh nofun) h.sessions⟩
  | @passed clock livePush =>
    refine ⟨hkeyed, hfollows, fun x hx hn => ?_, fun j => ?_⟩
    · exact (h.queue x hx hn).trans (max_le_max le_rfl hclock)
    · exact ⟨fun hw => ((h.sessions j).working hw).trans hclock, (h.sessions j).pushing⟩
  | @served i q k a w ht hw =>
    have hq := (h.follows i _ ht).1
    have hsess := World.answer_sessions hw
    have hframe := answer_frame hw
    by_cases hcommit : q = .commit
    · subst hcommit
      obtain ⟨-, rfl⟩ := Prod.mk.inj (Option.some.inj hw)
      obtain ⟨hqueue, hworking⟩ := h.commit ht hkeep
      refine ⟨hkeyed, hfollows, hqueue, ?_⟩
      exact onTime_setSession ((h.sessions i).after hq (hworking i))
        fun j => ⟨hworking j, (h.sessions j).pushing⟩
    · -- the rows and the clock stay, the queue may get one more job
      have hsame : w.scheduledFor c = sys.world.scheduledFor c := by
        unfold World.scheduledFor
        rw [hframe.changes hcommit]
      have hsameClock := answer_clock hw
      refine ⟨hkeyed, hfollows, fun x hx hn => ?_, ?_⟩
      · show w.scheduledFor c ≤ max (x.2.getD 0) w.clock
        rw [hsame, hsameClock]
        have hx : x ∈ sys.world.queue ++ q.queued := hframe.queue ▸ hx
        rcases List.mem_append.mp hx with hx | hx
        · exact h.queue x hx hn
        · refine hkeep.enqueue x ?_ hn
          cases q with
          | enqueue job d =>
            obtain rfl := List.mem_singleton.mp hx
            simp [Sys.enqueuing, ht]
          | _ => cases hx
      · show ∀ j, ((w.setSession i _).sessions j).OnTime c (w.scheduledFor c) w.clock
        rw [hsame, hsameClock]
        refine onTime_setSession ((h.sessions i).after hq (h.sessions i).working) ?_
        rw [hsess]
        exact h.sessions

/-- A state to start from: nothing runs, rows stand under their ids, and no
job for `c` is queued for a time before the stored one. -/
structure Punctual (c : ChangeId) (sys : Sys Box) : Prop where
  threads : ∀ i, sys.threads i = none
  sessions : ∀ i, sys.world.sessions i = {}
  ids : ∀ id r, sys.world.changes id = some r → r.id = id
  queue : ∀ x ∈ sys.world.queue, x.1.names c = true →
    sys.world.scheduledFor c ≤ max (x.2.getD 0) sys.world.clock

theorem Punctual.onTime (h : Punctual c sys) : OnTime c sys where
  keyed := by
    refine ⟨h.ids, fun i id r hr => ?_⟩
    rw [h.sessions i] at hr
    cases hr
  follows i t ht := by
    rw [h.threads i] at ht
    cases ht
  queue := h.queue
  sessions i := by
    rw [h.sessions i]
    exact onTime_fresh nofun

/-- **A change is not pushed before its time**, in every run whose steps keep
its schedule: whenever a push is marked or one of its requests is sent, the
time that is then stored in the row has come. -/
theorem pushed_when_due (env : Env) (B : BoxModel Box) (c : ChangeId) {init : Sys Box}
    {es : List Event} (h₀ : Punctual c init)
    (hkeep : Along (Sys.step env B) (KeepsSchedule c) init es) :
    Along (Sys.step env B) (PushDue c) init es :=
  along_of_invariant (fun _ _ _ h hG hs => h.step hG hs) (fun _ e h _ => h.pushDue e) h₀.onTime
    hkeep

end System

/-! ### Moved to an earlier and to a later time -/

/-- The change is scheduled for time 2 and then moved to time 9; at time 2 the
job of the first request runs. -/
def movedLater : List Event :=
  .call 1 (.scheduleConfigChange 0 1 1 (some 2)) :: steps 1 5 ++
  .call 2 (.scheduleConfigChange 0 1 1 (some 9)) :: steps 2 5 ++
  [.tick, .tick] ++ .dequeue 3 0 :: steps 3 16

/-- The change is pushed at time 2, with time 9 in its row. -/
theorem movedLater_early :
    (runAll (Sys.step webEnv webBox) (resting [webDraft] [] false) movedLater).map
        (fun s => (s.world.clock, s.world.scheduledFor 1, s.world.log.count (.pushed 1))) =
      some (2, 9, 1) ∧
    ¬ Along (Sys.step webEnv webBox) (PushDue 1) (resting [webDraft] [] false) movedLater := by
  constructor <;> decide +kernel

def movedEarlier : List Event :=
  .call 1 (.scheduleConfigChange 0 1 1 (some 9)) :: steps 1 5 ++
  .call 2 (.scheduleConfigChange 0 1 1 (some 2)) :: steps 2 5 ++
  [.tick, .tick] ++ .dequeue 3 1 :: steps 3 16

/-- The event uses only sessions below `n`. -/
def Event.below (n : Nat) : Event → Bool
  | .call i _ | .dequeue i _ | .sweep i | .run i => i < n
  | .tick | .setLivePush _ => true

theorem sessions_above {env : Env} {B : BoxModel Box} {sys sys' : Sys Box} {e : Event} {n j : Nat}
    (he : e.below n = true) (hj : n ≤ j) (hstep : sys.step env B e = some sys') :
    sys'.world.sessions j = sys.world.sessions j := by
  have hother : ∀ {i : Nat} {w : World Box} {s : Session}, decide (i < n) = true →
      w.sessions = sys.world.sessions → (w.setSession i s).sessions j = sys.world.sessions j := by
    intro i w s hi hw
    have hne : j ≠ i := fun h => absurd (of_decide_eq_true hi) (by omega)
    rw [World.setSession_sessions, Function.update_of_ne hne, hw]
  cases Sys.step_moves hstep with
  | opened hfree ho => cases ho <;> exact hother he rfl
  | ended => exact hother he rfl
  | passed => rfl
  | served ht hw => exact hother he (World.answer_sessions hw)

/-- `KeepsSchedule` as it can be evaluated where only the sessions below `n`
are in use. -/
def keepsBelow (n : Nat) (c : ChangeId) (sys : Sys Box) (e : Event) : Prop :=
  (∀ i ∈ sys.committing e, sys.world.scheduledFor c < (sys.world.commit i).scheduledFor c →
    (∀ x ∈ sys.world.queue, x.1.names c = true →
      (sys.world.commit i).scheduledFor c ≤ x.2.getD 0) ∧
    ∀ j < n, (sys.world.sessions j).atWork c = false) ∧
  ∀ x ∈ sys.enqueuing e, x.1.names c = true →
    sys.world.scheduledFor c ≤ max (x.2.getD 0) sys.world.clock

instance (n : Nat) (c : ChangeId) (sys : Sys Box) (e : Event) : Decidable (keepsBelow n c sys e) :=
  inferInstanceAs (Decidable (_ ∧ _))

theorem along_of_below {env : Env} {B : BoxModel Box} {G H : Sys Box → Event → Prop} (n : Nat)
    (rest : Nat → Session) {sys : Sys Box} {es : List Event}
    (hGH : ∀ s e, (∀ j, n ≤ j → s.world.sessions j = rest j) → G s e → H s e)
    (hfresh : ∀ j, n ≤ j → sys.world.sessions j = rest j) (hes : ∀ e ∈ es, e.below n = true)
    (h : Along (Sys.step env B) G sys es) : Along (Sys.step env B) H sys es := by
  induction es generalizing sys with
  | nil => trivial
  | cons e es ih =>
    obtain ⟨he, hes⟩ := List.forall_mem_cons.mp hes
    refine ⟨hGH sys e hfresh h.1, fun sys' hstep => ?_⟩
    refine ih (fun j hj => ?_) hes (h.2 sys' hstep)
    rw [sessions_above he hj hstep]
    exact hfresh j hj

theorem keepsSchedule_of_below {c : ChangeId} {n : Nat} {sys : Sys Box} {e : Event}
    (hfresh : ∀ j, n ≤ j → (sys.world.sessions j).atWork c = false) (h : keepsBelow n c sys e) :
    KeepsSchedule c sys e := by
  refine ⟨fun i hi hmoved _ => ?_, h.2⟩
  obtain ⟨hqueue, hworking⟩ := h.1 i hi hmoved
  refine ⟨hqueue, fun j => ?_⟩
  rcases Nat.lt_or_ge j n with hj | hj
  · exact hworking j hj
  · exact hfresh j hj

/-- Moved to an earlier time, the change is pushed when that time has come. -/
theorem movedEarlier_due :
    (runAll (Sys.step webEnv webBox) (resting [webDraft] [] false) movedEarlier).map
        (fun s => (s.world.clock, s.world.scheduledFor 1, s.world.log.count (.pushed 1))) =
      some (2, 2, 1) ∧
    Along (Sys.step webEnv webBox) (PushDue 1) (resting [webDraft] [] false) movedEarlier := by
  refine ⟨by decide +kernel, pushed_when_due webEnv webBox 1 ?_ ?_⟩
  · have h : Initial 1 (resting [webDraft] [] false) :=
      resting_initial (by simp [webDraft]) [] false 1
    refine ⟨h.threads, h.sessions, h.ids, ?_⟩
    rintro _ ⟨⟩
  · have hbelow : Along (Sys.step webEnv webBox) (keepsBelow 4 1) (resting [webDraft] [] false)
        movedEarlier := by decide +kernel
    refine along_of_below 4 (fun _ => {}) (fun s e hrest h => ?_) (fun _ _ => rfl) (by decide) hbelow
    exact keepsSchedule_of_below (fun j hj => by rw [hrest j hj]; rfl) h

end Opngms
