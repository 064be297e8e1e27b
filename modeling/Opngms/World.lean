/-
Opngms/World.lean

The database, the boxes and the queue that requests and jobs work on.

Requests and jobs are dialogues over `Eff`: reading a row, taking a lock,
writing, committing, talking to the box.  A `World` answers them.  It models
the part of PostgreSQL and of the ORM that the code relies on:

* READ COMMITTED: a row is read as last committed, once; the session keeps the
  object it loaded (`Session.loaded`) and never reads it again.
* A flush of a changed row is an `UPDATE`: it waits for and takes the row lock,
  which is held until the transaction ends.  Other transactions do not see the
  new values before the commit.
* The `UPDATE` writes only the columns whose value differs from the loaded one
  (`Change.patch`), so a column written by another transaction in between
  survives unless this one changed it too.
* `pg_try_advisory_xact_lock` answers at once; the lock is released at the end
  of the transaction.  `now()` is the start of the transaction.
* A session that ends without a commit, normally or by an exception, rolls
  back.

`World.log` records what the outside sees, in order; no program reads it.
-/
import Mathlib.Logic.Function.Basic
import Opngms.Request
import Opngms.ConfigDiff
import Opngms.Pool

namespace Opngms

abbrev Time := Nat
abbrev TenantId := Nat
abbrev ChangeId := Nat
abbrev SnapId := Nat
abbrev DeviceId := BitVec 128

/-! ### Rows -/

/-- The status of a `ConfigChange`. -/
inductive Status where
  | draft
  | scheduled
  | applying
  | applied
  | failed
  | conflict
  | cancelled
  deriving DecidableEq, Repr

def Status.text : Status → String
  | .draft => "draft"
  | .scheduled => "scheduled"
  | .applying => "applying"
  | .applied => "applied"
  | .failed => "failed"
  | .conflict => "conflict"
  | .cancelled => "cancelled"

/-- A status no operation is meant to leave. -/
def Status.terminal : Status → Bool
  | .applied | .failed | .conflict | .cancelled => true
  | .draft | .scheduled | .applying => false

/-- A row of `config_changes`. -/
structure Change where
  id : ChangeId
  tenantId : TenantId
  deviceId : DeviceId
  kind : String
  operation : String
  target : String
  payload : Dict
  baselineHash : String
  status : Status
  sweepAttempts : Nat
  revertsChangeId : Option ChangeId
  scheduledAt : Option Time
  appliedAt : Option Time
  result : Json
  preApplySnapshotId : Option SnapId
  createdAt : Time

/-- A row of `config_snapshots`. -/
structure Snapshot where
  id : SnapId
  tenantId : TenantId
  deviceId : DeviceId
  takenAt : Time
  canonicalHash : String
  contentEnc : ByteArray
  opnsenseVersion : String
  sizeBytes : Nat

/-- A row of `devices`; `credentials` tells whether its secrets decrypt. -/
structure Device where
  tenantId : TenantId
  firmwareVersion : Option String
  credentials : Bool

/-- A row of `alerts`. -/
structure Alert where
  tenantId : TenantId
  deviceId : DeviceId
  type : String
  label : String

/-- `new` where it differs from the loaded value, else what the row holds. -/
def overwrite {α : Type} [DecidableEq α] (loaded new base : α) : α :=
  if new = loaded then base else new

/-- The row after an ORM `UPDATE`: the changed columns of `new` over `base`. -/
def Change.patch (loaded new base : Change) : Change where
  id := base.id
  tenantId := overwrite loaded.tenantId new.tenantId base.tenantId
  deviceId := overwrite loaded.deviceId new.deviceId base.deviceId
  kind := overwrite loaded.kind new.kind base.kind
  operation := overwrite loaded.operation new.operation base.operation
  target := overwrite loaded.target new.target base.target
  payload := overwrite loaded.payload new.payload base.payload
  baselineHash := overwrite loaded.baselineHash new.baselineHash base.baselineHash
  status := overwrite loaded.status new.status base.status
  sweepAttempts := overwrite loaded.sweepAttempts new.sweepAttempts base.sweepAttempts
  revertsChangeId := overwrite loaded.revertsChangeId new.revertsChangeId base.revertsChangeId
  scheduledAt := overwrite loaded.scheduledAt new.scheduledAt base.scheduledAt
  appliedAt := overwrite loaded.appliedAt new.appliedAt base.appliedAt
  result := overwrite loaded.result new.result base.result
  preApplySnapshotId :=
    overwrite loaded.preApplySnapshotId new.preApplySnapshotId base.preApplySnapshotId
  createdAt := overwrite loaded.createdAt new.createdAt base.createdAt

/-! ### What a program asks -/

/-- A queued job. -/
inductive Job where
  | applyConfigChange (id : ChangeId)
  | applyProfileChanges (ids : List ChangeId)
  | backupDeviceConfig (device : DeviceId)
  deriving DecidableEq

/-- The effects of requests and jobs. -/
inductive Eff where
  | getChange (id : ChangeId)
  | getDevice (id : DeviceId)
  | getSnapshot (id : SnapId)
  /-- `ConfigSnapshotRepository.latest`: the newest snapshot of the device. -/
  | latestSnapshot (device : DeviceId)
  /-- The sweeper's `select`: scheduled rows due before `cutoff`. -/
  | overdueChanges (cutoff : Time)
  /-- The `live_push_enabled` row of the settings, if there is one. -/
  | livePushRow
  | now
  | tryAdvisoryLock (key : Int)
  | insertChange (row : Change)
  | flushChange (row : Change)
  | insertSnapshot (row : Snapshot)
  | insertAlert (row : Alert)
  | commit
  /-- The end of an `async with factory() as session` block. -/
  | closeSession
  /-- A mark, not an effect: `apply_for_kind` is called for the change with
  `dry_run=False`. -/
  | beginPush (id : ChangeId)
  | getConfigBackup (device : DeviceId)
  | request (device : DeviceId) (r : Request)
  | enqueue (job : Job) (deferUntil : Option Time)

/-- The answer to an effect. -/
@[reducible] def Eff.Ans : Eff → Type
  | .getChange _ => Option Change
  | .getDevice _ => Option Device
  | .getSnapshot _ | .latestSnapshot _ => Option Snapshot
  | .overdueChanges _ => List ChangeId
  | .livePushRow => Option Bool
  | .now => Time
  | .tryAdvisoryLock _ => Bool
  | .insertChange _ => Change
  | .insertSnapshot _ => SnapId
  | .getConfigBackup _ => Except OpnsenseError String
  | .request _ _ => Answer
  | .flushChange _ | .insertAlert _ | .commit | .closeSession | .beginPush _
  | .enqueue _ _ => Unit

abbrev Program := Dialogue Eff Eff.Ans Raised

def perform (q : Eff) : Program q.Ans := Dialogue.question q

/-- A connector program run against the box of `device`. -/
def onBox {α : Type} (device : DeviceId) (p : Client α) : Program α :=
  p.translate (Eff.request device) fun _ a => a

/-- `_advisory_key`: the first eight bytes of the uuid, signed. -/
def advisoryKey (device : DeviceId) : Int := (device.extractLsb' 64 64).toInt

/-! ### Sessions -/

/-- What a session was opened for. -/
inductive Task where
  | request
  | job (job : Job)
  | sweep
  deriving DecidableEq

/-- What one session holds: the rows it loaded, as loaded, and its uncommitted
writes.  The last five fields are a record that no program reads: what the
session was opened for, the configuration it read last, the change whose live
push the transaction began last, all pushes it began, and whether it has
committed. -/
structure Session where
  began : Time := 0
  loaded : ChangeId → Option Change := fun _ => none
  dirty : ChangeId → Option Change := fun _ => none
  newSnapshots : List Snapshot := []
  newAlerts : List Alert := []
  task : Task := .request
  read : Option (DeviceId × String) := none
  pushing : Option ChangeId := none
  pushes : List ChangeId := []
  committed : Bool := false

/-- The session after an effect was answered. -/
def Session.after (s : Session) : (q : Eff) → q.Ans → Session
  | .getChange id, row => { s with loaded := Function.update s.loaded id row }
  | .insertChange _, row => { s with dirty := Function.update s.dirty row.id (some row) }
  | .flushChange row, _ => { s with dirty := Function.update s.dirty row.id (some row) }
  | .insertSnapshot row, id =>
    { s with newSnapshots := s.newSnapshots ++ [{ row with id, takenAt := s.began }] }
  | .insertAlert row, _ => { s with newAlerts := s.newAlerts ++ [row] }
  | .beginPush id, _ => { s with pushing := some id, pushes := s.pushes ++ [id] }
  | .getConfigBackup device, r =>
    { s with
      read :=
        match r with
        | .ok xml => some (device, xml)
        | .error _ => s.read }
  | .commit, _ =>
    { s with
      dirty := fun _ => none, newSnapshots := [], newAlerts := [], pushing := none
      committed := true }
  | .closeSession, _ => { began := s.began, task := s.task }
  | _, _ => s

/-! ### The world -/

/-- How the boxes behave. -/
structure BoxModel (Box : Type) where
  /-- `get_config_backup`. -/
  backup : Box → Except OpnsenseError String × Box
  /-- Any request of the appliers. -/
  respond : Box → Request → Answer × Box

/-- What the outside sees happen. -/
inductive LogEntry where
  /-- A change was inserted. -/
  | created (id : ChangeId)
  /-- `apply_for_kind` was called for the change with `dry_run=False`. -/
  | pushed (id : ChangeId)
  /-- A request reached the box, sent by a transaction pushing the change. -/
  | sent (device : DeviceId) (change : Option ChangeId) (r : Request)
  deriving DecidableEq

/-- The committed database, the locks, the boxes, the queue and the open
sessions. -/
structure World (Box : Type) where
  changes : ChangeId → Option Change
  nextChange : ChangeId
  devices : DeviceId → Option Device
  snapshots : List Snapshot
  nextSnapshot : SnapId
  alerts : List Alert
  livePush : Option Bool
  clock : Time
  boxes : DeviceId → Box
  advisory : Int → Option Nat
  rowLock : ChangeId → Option Nat
  queue : List (Job × Option Time)
  sessions : Nat → Session
  log : List LogEntry

namespace World

variable {Box : Type}

/-- The newest snapshot of a device, by `taken_at`. -/
def latest (w : World Box) (device : DeviceId) : Option Snapshot :=
  (w.snapshots.filter fun s => s.deviceId = device).foldl
    (fun best s =>
      match best with
      | none => some s
      | some b => if b.takenAt ≤ s.takenAt then some s else some b) none

/-- The scheduled changes whose due time lies before `cutoff`. -/
def overdue (w : World Box) (cutoff : Time) : List ChangeId :=
  (List.range w.nextChange).filter fun id =>
    match w.changes id with
    | some c => c.status = .scheduled ∧ c.scheduledAt.getD c.createdAt < cutoff
    | none => false

/-- Free what session `i` holds. -/
def release {κ : Type} (locks : κ → Option Nat) (i : Nat) : κ → Option Nat := fun k =>
  if locks k = some i then none else locks k

/-- A row after a commit, from what the session loaded, what it wrote and what
is committed. -/
def mergeRow (loaded dirty committed : Option Change) : Option Change :=
  match dirty with
  | none => committed
  | some new =>
    match loaded, committed with
    | some old, some base => some (Change.patch old new base)
    | _, _ => some new

theorem mergeRow_id {loaded dirty committed : Option Change} {id : ChangeId} {r : Change}
    (hd : ∀ new, dirty = some new → new.id = id)
    (hc : ∀ base, committed = some base → base.id = id)
    (h : mergeRow loaded dirty committed = some r) : r.id = id := by
  rcases dirty with - | new
  · exact hc r h
  · rcases loaded with - | old <;> rcases committed with - | base <;> obtain rfl := Option.some.inj h
    · exact hd _ rfl
    · exact hd _ rfl
    · exact hd _ rfl
    · exact hc base rfl

/-- Commit session `i`. -/
def commit (w : World Box) (i : Nat) : World Box :=
  let s := w.sessions i
  { w with
    changes := fun id => mergeRow (s.loaded id) (s.dirty id) (w.changes id)
    snapshots := w.snapshots ++ s.newSnapshots
    alerts := w.alerts ++ s.newAlerts
    advisory := release w.advisory i
    rowLock := release w.rowLock i }

/-- End session `i` without a commit. -/
def rollback (w : World Box) (i : Nat) : World Box :=
  { w with advisory := release w.advisory i, rowLock := release w.rowLock i }

/-- The answer to an effect of session `i` and the world after it, the session
itself apart. -/
def answer (B : BoxModel Box) (i : Nat) (w : World Box) : (q : Eff) → Option (q.Ans × World Box)
  | .getChange id => some (w.changes id, w)
  | .getDevice id => some (w.devices id, w)
  | .getSnapshot id => some (w.snapshots.find? fun s => s.id = id, w)
  | .latestSnapshot device => some (w.latest device, w)
  | .overdueChanges cutoff => some (w.overdue cutoff, w)
  | .livePushRow => some (w.livePush, w)
  | .now => some (w.clock, w)
  | .tryAdvisoryLock key =>
    match w.advisory key with
    | none => some (true, { w with advisory := Function.update w.advisory key (some i) })
    | some j => some (decide (j = i), w)
  | .insertChange row =>
    some ({ row with id := w.nextChange, createdAt := (w.sessions i).began },
      { w with
        nextChange := w.nextChange + 1
        rowLock := Function.update w.rowLock w.nextChange (some i)
        log := w.log ++ [.created w.nextChange] })
  | .flushChange row =>
    -- an UPDATE waits while another transaction holds the row
    if w.rowLock row.id = none ∨ w.rowLock row.id = some i then
      some ((), { w with rowLock := Function.update w.rowLock row.id (some i) })
    else none
  | .insertSnapshot _ => some (w.nextSnapshot, { w with nextSnapshot := w.nextSnapshot + 1 })
  | .insertAlert _ => some ((), w)
  | .commit => some ((), w.commit i)
  | .closeSession => some ((), w.rollback i)
  | .beginPush id => some ((), { w with log := w.log ++ [.pushed id] })
  | .getConfigBackup device =>
    let r := B.backup (w.boxes device)
    some (r.1, { w with boxes := Function.update w.boxes device r.2 })
  | .request device r =>
    let a := B.respond (w.boxes device) r
    some (a.1, { w with
      boxes := Function.update w.boxes device a.2
      log := w.log ++ [.sent device (w.sessions i).pushing r] })
  | .enqueue job deferUntil => some ((), { w with queue := w.queue ++ [(job, deferUntil)] })

/-- Replace the state of session `i`. -/
def setSession (w : World Box) (i : Nat) (s : Session) : World Box :=
  { w with sessions := Function.update w.sessions i s }

def server (B : BoxModel Box) : Server Eff Eff.Ans (World Box) where
  serve i w q := (w.answer B i q).map fun aw =>
    (aw.1, aw.2.setSession i ((w.sessions i).after q aw.1))
  close i w := (w.rollback i).setSession i {}

@[simp] theorem setSession_sessions (w : World Box) (i : Nat) (s : Session) :
    (w.setSession i s).sessions = Function.update w.sessions i s := rfl

@[simp] theorem setSession_changes (w : World Box) (i : Nat) (s : Session) :
    (w.setSession i s).changes = w.changes := rfl

@[simp] theorem setSession_snapshots (w : World Box) (i : Nat) (s : Session) :
    (w.setSession i s).snapshots = w.snapshots := rfl

@[simp] theorem setSession_nextSnapshot (w : World Box) (i : Nat) (s : Session) :
    (w.setSession i s).nextSnapshot = w.nextSnapshot := rfl

theorem answer_sessions {B : BoxModel Box} {i : Nat} {w w' : World Box} {q : Eff} {a : q.Ans}
    (h : w.answer B i q = some (a, w')) : w'.sessions = w.sessions := by
  cases q with
  | tryAdvisoryLock key =>
    simp only [answer] at h
    split at h <;> (obtain ⟨-, rfl⟩ := Prod.mk.inj (Option.some.inj h); rfl)
  | flushChange row =>
    simp only [answer] at h
    split at h
    · obtain ⟨-, rfl⟩ := Prod.mk.inj (Option.some.inj h); rfl
    · cases h
  | _ =>
    simp only [answer] at h
    obtain ⟨-, rfl⟩ := Prod.mk.inj (Option.some.inj h)
    rfl

theorem serve_sessions {B : BoxModel Box} {i : Nat} {w w' : World Box} {q : Eff} {a : q.Ans}
    (h : (server B).serve i w q = some (a, w')) :
    w'.sessions i = (w.sessions i).after q a ∧
      ∀ j, j ≠ i → w'.sessions j = w.sessions j := by
  obtain ⟨⟨a₀, w₀⟩, hw, he⟩ := Option.map_eq_some_iff.mp h
  obtain ⟨rfl, rfl⟩ := Prod.mk.inj he
  have hs := answer_sessions hw
  refine ⟨by simp, fun j hj => ?_⟩
  simp [Function.update_of_ne hj, hs]

theorem close_sessions {B : BoxModel Box} (i : Nat) (w : World Box) (j : Nat) (hj : j ≠ i) :
    ((server B).close i w).sessions j = w.sessions j := by
  simp [server, rollback, Function.update_of_ne hj]

end World

end Opngms
