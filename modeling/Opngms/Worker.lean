/-
Opngms/Worker.lean

The jobs of the worker (`app/worker.py`) that touch configuration changes, and
the daily backup (`app/services/config_backup.py`).

`sweep_orphaned_actions` handles each overdue row in a session of its own: a
row that raises is skipped, its transaction rolled back, and the sweep goes on.
The audit entries that the jobs write are left out: no modelled program reads
them.
-/
import Opngms.ConfigPush

namespace Opngms

/-- `client_for_device`: building the client decrypts the credentials. -/
def clientForDevice (device : Device) : Program Unit :=
  if device.credentials then .pure () else .raise .invalidToken

/-! ### Applying -/

/-- `apply_config_change`. -/
def applyConfigChange (env : Env) (changeId : ChangeId) : Program String := do
  match ← perform (.getChange changeId) with
  | none => return "missing"
  | some change =>
    let change : Change := change
    match ← perform (.getDevice change.deviceId) with
    | none => return "missing-device"
    | some device =>
      clientForDevice device
      let now ← perform .now
      let change ← applyChange env change change.deviceId now
      perform .commit
      -- refresh the snapshot so that the next baseline reflects reality
      perform (.enqueue (.backupDeviceConfig change.deviceId) none)
      return change.status.text

/-- The rows of the given ids that exist, in order. -/
def loadChanges : List ChangeId → Program (List Change)
  | [] => return []
  | id :: ids => do
    let row ← perform (.getChange id)
    let rest ← loadChanges ids
    match (row : Option Change) with
    | some c => return c :: rest
    | none => return rest

/-- `apply_profile_changes`. -/
def applyProfileChanges (env : Env) (changeIds : List ChangeId) : Program String := do
  match ← loadChanges changeIds with
  | [] => return "missing"
  | first :: others =>
    match ← perform (.getDevice first.deviceId) with
    | none => return "missing-device"
    | some device =>
      clientForDevice device
      let now ← perform .now
      let (_, summary) ← applyProfileSequence env (first :: others) first.deviceId now
      perform .commit
      perform (.enqueue (.backupDeviceConfig first.deviceId) none)
      return summary.status

/-! ### Backups -/

/-- `backup_config`: store the configuration unless its hash is the newest
one's. -/
def backupConfig (env : Env) (deviceId : DeviceId) (device : Device) : Program Bool := do
  match ← readConfig env deviceId with
  | none => return false
  | some (xml, digest) =>
    let latest ← perform (.latestSnapshot deviceId)
    if (latest : Option Snapshot).map Snapshot.canonicalHash = some digest then return false
    else
      let _ ← perform (.insertSnapshot {
        id := 0, tenantId := device.tenantId, deviceId, takenAt := 0, canonicalHash := digest
        contentEnc := env.encryptBytes (env.gzipCompress xml.toUTF8)
        opnsenseVersion := device.firmwareVersion.getD "", sizeBytes := xml.toUTF8.size })
      return true

/-- `backup_device_config`. -/
def backupDeviceConfig (env : Env) (deviceId : DeviceId) : Program Bool := do
  match ← perform (.getDevice deviceId) with
  | none => return false
  | some device =>
    clientForDevice device
    let created ← backupConfig env deviceId device
    perform .commit
    return created

/-! ### The sweeper -/

/-- What `decide_orphan` answers. -/
inductive OrphanDecision where
  | reEnqueue
  | giveUp
  deriving DecidableEq

/-- `decide_orphan`. -/
def decideOrphan (sweepAttempts maxAttempts : Nat) : OrphanDecision :=
  if sweepAttempts < maxAttempts then .reEnqueue else .giveUp

/-- The counters of one sweep. -/
structure SweepSummary where
  reEnqueued : Nat := 0
  gaveUp : Nat := 0
  skipped : Nat := 0

/-- One row of the sweep, in its own session. -/
def sweepRow (env : Env) (rowId : ChangeId) (summary : SweepSummary) : Program SweepSummary := do
  match ← perform (.getChange rowId) with
  | none => return summary
  | some row =>
    let row : Change := row
    if row.status ≠ .scheduled then return summary
    else if !(← perform (.tryAdvisoryLock (advisoryKey row.deviceId)) : Bool) then
      return { summary with skipped := summary.skipped + 1 }
    else
      match decideOrphan row.sweepAttempts env.maxReenqueueAttempts with
      | .reEnqueue =>
        perform (.flushChange { row with sweepAttempts := row.sweepAttempts + 1 })
        perform .commit
        perform (.enqueue (.applyConfigChange rowId) none)
        return { summary with reEnqueued := summary.reEnqueued + 1 }
      | .giveUp =>
        perform (.flushChange { row with
          status := .failed
          result := .obj [("error", .str ("orphaned: never applied after " ++
            toString row.sweepAttempts ++ " re-enqueue attempts"))] })
        perform (.insertAlert {
          tenantId := row.tenantId, deviceId := row.deviceId, type := "action_orphaned"
          label := "apply_config_change " ++ toString rowId ++ " given up after " ++
            toString row.sweepAttempts ++ " attempts" })
        perform .commit
        return { summary with gaveUp := summary.gaveUp + 1 }

/-- The loop over the overdue rows; a row that raises is passed over. -/
def sweepRows (env : Env) : List ChangeId → SweepSummary → Program SweepSummary
  | [], summary => return summary
  | id :: ids, summary => do
    let summary ← tryCatch (sweepRow env id summary) fun _ => pure summary
    perform .closeSession
    sweepRows env ids summary

/-- `sweep_orphaned_actions`, over the configuration changes. -/
def sweepOrphanedActions (env : Env) : Program SweepSummary := do
  let now : Time ← perform .now
  let ids ← perform (.overdueChanges (now - env.orphanGrace))
  perform .closeSession
  sweepRows env ids {}

/-! ### Jobs by name -/

/-- The program of a queued job. -/
def Job.program (env : Env) : Job → Program Unit
  | .applyConfigChange id => do
    let _ ← Opngms.applyConfigChange env id
  | .applyProfileChanges ids => do
    let _ ← Opngms.applyProfileChanges env ids
  | .backupDeviceConfig device => do
    let _ ← Opngms.backupDeviceConfig env device

end Opngms
