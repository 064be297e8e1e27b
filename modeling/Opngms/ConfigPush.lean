/-
Opngms/ConfigPush.lean

Proposing and applying a change (`app/services/config_push.py`).

`apply_change` is the guarded push: it refuses a row that is not scheduled,
serializes on the advisory lock of the device, re-reads the configuration and
compares its canonical hash with the baseline of the proposal, saves the
configuration as a rollback point, and only then calls the applier.
`apply_profile_sequence` does the same once for the members of a profile.

The source mutates ORM objects in place; here every assignment is a new row
value, and a flush hands the current value to the session.
-/
import Opngms.Apply
import Opngms.Catalog
import Opngms.World

namespace Opngms

/-- What the code takes from its environment: the parser and the digest, the
vault and the compressor, the settings, and the published catalogs. -/
structure Env extends Hashing where
  /-- `crypto.encrypt_bytes`. -/
  encryptBytes : ByteArray → ByteArray
  /-- `crypto.decrypt_bytes`; `none` where it raises `InvalidToken`. -/
  decryptBytes : ByteArray → Option ByteArray
  /-- `gzip.compress`. -/
  gzipCompress : ByteArray → ByteArray
  /-- `gzip.decompress`; `none` where it raises. -/
  gzipDecompress : ByteArray → Option ByteArray
  /-- `settings.live_push_enabled`. -/
  livePushEnabled : Bool
  /-- `settings.orphan_grace_minutes`, in clock units. -/
  orphanGrace : Time
  /-- `settings.max_reenqueue_attempts`. -/
  maxReenqueueAttempts : Nat
  /-- `catalog_provider.get_catalog` for the device's edition and version. -/
  coreCatalog : Device → Option Catalog
  /-- `catalog_provider.get_plugins_catalog`. -/
  pluginsCatalog : Device → Option Catalog

/-- The default settings over a fixed table of documents and digests, with a
transparent vault: an environment to evaluate runs in. -/
def Env.ofDocuments (docs : List (String × Elem)) (digests : List (String × String)) : Env where
  parseXml s := docs.lookup s
  sha256 s := (digests.lookup s).getD ""
  encryptBytes := id
  decryptBytes := some
  gzipCompress := id
  gzipDecompress := some
  livePushEnabled := false
  orphanGrace := 5
  maxReenqueueAttempts := 5
  coreCatalog _ := none
  pluginsCatalog _ := none

/-! ### Proposing -/

/-- `create_change`: the baseline is the hash of the newest stored snapshot. -/
def createChange (tenantId : TenantId) (deviceId : DeviceId) (kind operation : String)
    (target : Json) (payload : Dict) : Program Change := do
  let snap ← perform (.latestSnapshot deviceId)
  let baseline := match snap with
    | some s => s.canonicalHash
    | none => ""
  match target with
  | .str target =>
    perform (.insertChange {
      id := 0, tenantId, deviceId, kind, operation, target, payload
      baselineHash := baseline, status := .draft, sweepAttempts := 0, revertsChangeId := none
      scheduledAt := none, appliedAt := none, result := .obj [], preApplySnapshotId := none
      createdAt := 0 })
  | _ => throw .dataError

/-! ### Applying one change -/

/-- `get_live_push`. -/
def getLivePush (env : Env) : Program Bool := do
  let row ← perform .livePushRow
  return (row : Option Bool).getD env.livePushEnabled

/-- `_save_pre_apply_snapshot`. -/
def savePreApplySnapshot (env : Env) (change : Change) (xml : String) : Program SnapId := do
  let device ← perform (.getDevice change.deviceId)
  let version := match device with
    | some d => (d : Device).firmwareVersion.getD ""
    | none => ""
  perform (.insertSnapshot {
    id := 0, tenantId := change.tenantId, deviceId := change.deviceId, takenAt := 0
    canonicalHash := (env.canonicalHash xml).getD ""
    contentEnc := env.encryptBytes (env.gzipCompress xml.toUTF8)
    opnsenseVersion := version, sizeBytes := xml.toUTF8.size })

/-- The pre-apply snapshot of a live run; a dry run saves none. -/
def rollbackPoint (env : Env) (live : Bool) (change : Change) (xml : String) :
    Program (Option SnapId) := do
  if live then
    let id ← savePreApplySnapshot env change xml
    return some id
  else return none

/-- `await apply_for_kind(client, ...)` for a stored change, where `client`
talks to the given device; a live call is marked. -/
def callApplier (client : DeviceId) (change : Change) (live : Bool) : Program Json := do
  let _ ← (if live then perform (.beginPush change.id) else pure ())
  onBox client (applyForKind change.kind change.operation change.payload !live)

/-- The `except` clauses around the applier: what is caught and what it leaves
in `result`. -/
def applyFailure : Raised → Option Json
  | .opnsense _ => some (.obj [("error", .str "apply failed")])
  | .unknownChangeKind _ => some (.obj [("error", .str "unknown change kind")])
  | _ => none

/-- The guarded call of the applier: `applied` with its result, or `failed`. -/
def applyGuarded (client : DeviceId) (change : Change) (live : Bool) (now : Time) :
    Program Change :=
  tryCatch (do
    let res ← callApplier client change live
    return { change with status := .applied, appliedAt := some now, result := res })
    fun e =>
      match applyFailure e with
      | some result => return { change with status := .failed, result }
      | none => throw e

/-- The configuration that the guard read, with its hash; `none` where reading
or parsing failed. -/
def readConfig (env : Env) (device : DeviceId) : Program (Option (String × String)) := do
  let r ← perform (.getConfigBackup device)
  match (r : Except OpnsenseError String) with
  | .error _ => return none
  | .ok xml => return (env.canonicalHash xml).map fun h => (xml, h)

def readFailure : Json := .obj [("error", .str "could not read current config")]

/-- The result a stale baseline leaves. -/
def conflictResult (baseline : String) : Json :=
  .obj [("reason", .str "config changed since proposal"), ("baseline", .str baseline)]

/-- The flush of a row with the result of its applier: the `jsonb` column
refuses some answers of a box. -/
def flushResult (change : Change) : Program Unit :=
  if change.result.storable then perform (.flushChange change) else throw .dataError

/-- `apply_change`: the row as the caller then holds it. -/
def applyChange (env : Env) (change : Change) (client : DeviceId) (now : Time) :
    Program Change := do
  if change.status ≠ .scheduled then
    return change
  else if !(← perform (.tryAdvisoryLock (advisoryKey change.deviceId)) : Bool) then
    return change
  else
    match ← readConfig env client with
    | none =>
      let change := { change with status := .failed, result := readFailure }
      perform (.flushChange change)
      return change
    | some (xml, current) =>
      if change.baselineHash ≠ "" ∧ current ≠ change.baselineHash then
        let change :=
          { change with status := .conflict, result := conflictResult change.baselineHash }
        perform (.flushChange change)
        return change
      else
        let change := { change with status := .applying }
        perform (.flushChange change)
        let live ← getLivePush env
        let snapId ← rollbackPoint env live change xml
        -- the column keeps its value where no snapshot was saved
        let change :=
          { change with preApplySnapshotId := snapId.orElse fun _ => change.preApplySnapshotId }
        let change ← applyGuarded client change live now
        flushResult change
        return change

/-! ### Applying a profile -/

/-- The summary `apply_profile_sequence` returns. -/
structure ProfileSummary where
  applied : Nat
  failed : Nat
  conflict : Nat
  status : String

def flushAll : List Change → Program Unit
  | [] => return ()
  | c :: cs => do
    perform (.flushChange c)
    flushAll cs

def flushResults : List Change → Program Unit
  | [] => return ()
  | c :: cs => do
    flushResult c
    flushResults cs

section Flush

open Dialogue

variable {φ α : Type} {D : Discipline Eff Eff.Ans φ} {s : φ}

theorem follows_flushResult {Z : φ → Except Raised α → Prop} {c : Change} {f : Unit → Program α}
    (herr : Z s (.error .dataError)) (h : Follows D Z s ((perform (.flushChange c)).bind f)) :
    Follows D Z s ((flushResult c).bind f) := by
  unfold flushResult
  split
  · exact h
  · exact herr

theorem follows_flushResults {Z : φ → Except Raised Unit → Prop} {cs : List Change}
    (herr : ∀ s, Z s (.error .dataError)) (h : Follows D Z s (flushAll cs)) :
    Follows D Z s (flushResults cs) := by
  induction cs generalizing s with
  | nil => exact h
  | cons c cs ih => exact follows_flushResult (herr s) ⟨h.1, fun a ha => ih (h.2 a ha)⟩

end Flush

/-- The member loop of `apply_profile_sequence`; after the first failure the
rest is only marked. -/
def applyMembers (client : DeviceId) (live : Bool) (snapId : Option SnapId) (now : Time) :
    (aborted : Bool) → List Change → Program (List Change)
  | _, [] => return []
  | true, c :: cs => do
    let rest ← applyMembers client live snapId now true cs
    return { c with
      preApplySnapshotId := snapId, status := .failed
      result := .obj [("error", .str "aborted: an earlier profile member failed")] } :: rest
  | false, c :: cs => do
    let c ← applyGuarded client { c with preApplySnapshotId := snapId } live now
    let rest ← applyMembers client live snapId now (c.status = .failed) cs
    return c :: rest

/-- `apply_profile_sequence`: the members as the caller then holds them, and
the summary. -/
def applyProfileSequence (env : Env) (changes : List Change) (client : DeviceId) (now : Time) :
    Program (List Change × ProfileSummary) := do
  match changes.filter fun c => c.status = .scheduled with
  | [] => return (changes, { applied := 0, failed := 0, conflict := 0, status := "noop" })
  | first :: others =>
    let scheduled := first :: others
    -- the rows that are not scheduled stay as they are
    let merge (new : List Change) : List Change := changes.map fun c =>
      (new.find? fun n => n.id = c.id ∧ c.status = .scheduled).getD c
    if !(← perform (.tryAdvisoryLock (advisoryKey first.deviceId)) : Bool) then
      return (changes, { applied := 0, failed := 0, conflict := 0, status := "locked" })
    else
      match ← readConfig env client with
      | none =>
        let failed := scheduled.map fun c =>
          { c with status := .failed, result := readFailure }
        flushAll failed
        return (merge failed,
          { applied := 0, failed := scheduled.length, conflict := 0, status := "read-failed" })
      | some (xml, current) =>
        if first.baselineHash ≠ "" ∧ current ≠ first.baselineHash then
          let stale := scheduled.map fun c =>
            { c with status := .conflict, result := conflictResult first.baselineHash }
          flushAll stale
          return (merge stale,
            { applied := 0, failed := 0, conflict := scheduled.length, status := "conflict" })
        else
          let live ← getLivePush env
          let snapId ← rollbackPoint env live first xml
          let done ← applyMembers client live snapId now false scheduled
          flushResults done
          return (merge done,
            { applied := (done.filter fun c => c.status = .applied).length
              failed := (done.filter fun c => c.status = .failed).length
              conflict := 0, status := "done" })

end Opngms
