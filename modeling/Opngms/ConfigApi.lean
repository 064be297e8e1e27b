/-
Opngms/ConfigApi.lean

The request handlers that create, schedule, revert and cancel changes
(`app/api/config.py`, `app/api/catalog.py`), and the system they form with the
jobs of the worker.

`Sys` is a pool of handlers and jobs over one `World`; an `Event` lets a
request arrive, takes a due job off the queue, starts a sweep, lets one open
session take its next step, or lets time pass.  Every list of events that
`Sys.step` admits is a run.

Authentication, the tenant context and audit entries are left out: a handler
starts here once the caller is known to hold the permission.
-/
import Opngms.Worker
import Opngms.ConfigRevert

namespace Opngms

/-! ### Handlers -/

/-- The `ConfigChangeIn` body; `operation` is checked by its schema. -/
structure ConfigChangeIn where
  kind : String
  operation : String
  target : String := ""
  payload : Dict := []

/-- `operation: Literal["add", "set", "delete"]`. -/
def ConfigChangeIn.valid (body : ConfigChangeIn) : Bool :=
  ["add", "set", "delete"].contains body.operation

/-- The device of a request, if it belongs to the tenant. -/
def loadDevice (tenantId : TenantId) (deviceId : DeviceId) : Program Device := do
  match ← perform (.getDevice deviceId) with
  | none => throw (.http 404 "Device not found")
  | some device =>
    let device : Device := device
    if device.tenantId ≠ tenantId then throw (.http 404 "Device not found") else return device

/-- The change of a request, if it belongs to the tenant and the device. -/
def loadChange (tenantId : TenantId) (deviceId : DeviceId) (changeId : ChangeId) :
    Program Change := do
  match ← perform (.getChange changeId) with
  | none => throw (.http 404 "Change not found")
  | some change =>
    let change : Change := change
    if change.tenantId ≠ tenantId ∨ change.deviceId ≠ deviceId then
      throw (.http 404 "Change not found")
    else return change

/-- `create_config_change`. -/
def createConfigChange (tenantId : TenantId) (deviceId : DeviceId) (body : ConfigChangeIn) :
    Program Change := do
  if !body.valid then throw (.http 422 "invalid operation")
  else
    let _ ← loadDevice tenantId deviceId
    let change ← createChange tenantId deviceId body.kind body.operation (.str body.target)
      body.payload
    perform .commit
    return change

/-- `schedule_config_change`. -/
def scheduleConfigChange (tenantId : TenantId) (deviceId : DeviceId) (changeId : ChangeId)
    (scheduledAt : Option Time) : Program Change := do
  let change ← loadChange tenantId deviceId changeId
  if change.status ≠ .draft ∧ change.status ≠ .scheduled then
    throw (.http 409 ("Cannot schedule a change in status " ++ change.status.text))
  else
    let change := { change with status := .scheduled, scheduledAt }
    perform (.flushChange change)
    perform .commit
    perform (.enqueue (.applyConfigChange changeId) scheduledAt)
    return change

/-- `cancel_config_change`. -/
def cancelConfigChange (tenantId : TenantId) (deviceId : DeviceId) (changeId : ChangeId) :
    Program Change := do
  let change ← loadChange tenantId deviceId changeId
  if change.status ≠ .draft ∧ change.status ≠ .scheduled then
    throw (.http 409 ("Cannot cancel a change in status " ++ change.status.text))
  else
    let change := { change with status := .cancelled }
    perform (.flushChange change)
    perform .commit
    return change

/-- `revert_config_change`; both errors of the revert become a 409. -/
def revertConfigChange (env : Env) (tenantId : TenantId) (deviceId : DeviceId)
    (changeId : ChangeId) (scheduledAt : Option Time) : Program Change := do
  let change ← loadChange tenantId deviceId changeId
  let inverse ← tryCatch (revertChange env change) fun e =>
    match e with
    | .revertError m => throw (.http 409 m)
    | .noInverse m => throw (.http 409 m)
    | e => throw e
  let inverse := { inverse with status := .scheduled, scheduledAt }
  perform (.flushChange inverse)
  perform .commit
  perform (.enqueue (.applyConfigChange inverse.id) scheduledAt)
  return inverse

/-- `_catalog_model`: the core catalog first, then the plugins catalog. -/
def catalogModel (env : Env) (device : Device) (modelId : String) : Option Model :=
  match ((env.coreCatalog device).getD []).lookup modelId with
  | some m => some m
  | none => ((env.pluginsCatalog device).getD []).lookup modelId

/-- `create_catalog_change`. -/
def createCatalogChange (env : Env) (tenantId : TenantId) (deviceId : DeviceId)
    (body : CatalogChangeIn) : Program Change := do
  if body.modelId = "" then throw (.http 422 "model_id must not be empty")
  else
    let device ← loadDevice tenantId deviceId
    if catalogDenylist.contains body.modelId then
      throw (.http 422 ("model " ++ Json.reprStr body.modelId ++
        " is not editable (safety denylist)"))
    else
      match catalogModel env device body.modelId with
      | none => throw (.http 422 ("unknown model: " ++ Json.reprStr body.modelId))
      | some model =>
        let payload ← Dialogue.ofExcept (buildPayload model body)
        let change ← createChange tenantId deviceId "catalog_setting" "set" (.str body.modelId)
          payload
        perform .commit
        return change

/-! ### The system -/

/-- A request that reaches the API. -/
inductive Call where
  | createConfigChange (tenantId : TenantId) (deviceId : DeviceId) (body : ConfigChangeIn)
  | createCatalogChange (tenantId : TenantId) (deviceId : DeviceId) (body : CatalogChangeIn)
  | scheduleConfigChange (tenantId : TenantId) (deviceId : DeviceId) (changeId : ChangeId)
      (scheduledAt : Option Time)
  | cancelConfigChange (tenantId : TenantId) (deviceId : DeviceId) (changeId : ChangeId)
  | revertConfigChange (tenantId : TenantId) (deviceId : DeviceId) (changeId : ChangeId)
      (scheduledAt : Option Time)

/-- The handler of a request. -/
def Call.program (env : Env) : Call → Program Unit
  | .createConfigChange t d body => do
    let _ ← Opngms.createConfigChange t d body
  | .createCatalogChange t d body => do
    let _ ← Opngms.createCatalogChange env t d body
  | .scheduleConfigChange t d c at_ => do
    let _ ← Opngms.scheduleConfigChange t d c at_
  | .cancelConfigChange t d c => do
    let _ ← Opngms.cancelConfigChange t d c
  | .revertConfigChange t d c at_ => do
    let _ ← Opngms.revertConfigChange env t d c at_

abbrev Sys (Box : Type) := Pool Eff Eff.Ans Raised (World Box)

/-- One event of a run.  Session numbers are chosen by the run. -/
inductive Event where
  /-- A request arrives and is handled in session `i`. -/
  | call (i : Nat) (c : Call)
  /-- The worker takes the `n`-th queued job, if it is due, into session `i`. -/
  | dequeue (i n : Nat)
  /-- The cron starts `sweep_orphaned_actions`. -/
  | sweep (i : Nat)
  /-- Session `i` takes its next step. -/
  | run (i : Nat)
  /-- Time passes. -/
  | tick
  /-- The live-push switch is set. -/
  | setLivePush (enabled : Bool)

namespace Sys

variable {Box : Type}

/-- Open session `i` for the program `t`; the number must be free. -/
def start (sys : Sys Box) (i : Nat) (task : Task) (t : Program Unit) : Option (Sys Box) :=
  match sys.threads i with
  | some _ => none
  | none =>
    some { world := sys.world.setSession i { began := sys.world.clock, task }
           threads := Function.update sys.threads i (some t) }

/-- One event; `none` where it is not enabled. -/
def step (env : Env) (B : BoxModel Box) (sys : Sys Box) : Event → Option (Sys Box)
  | .call i c => sys.start i .request (c.program env)
  | .dequeue i n =>
    match sys.world.queue[n]? with
    | none => none
    | some (job, deferUntil) =>
      if deferUntil.getD 0 ≤ sys.world.clock then
        start { sys with world := { sys.world with queue := sys.world.queue.eraseIdx n } } i
          (.job job) (job.program env)
      else none
  | .sweep i => sys.start i .sweep (do let _ ← sweepOrphanedActions env)
  | .run i => sys.advance (World.server B) i
  | .tick => some { sys with world := { sys.world with clock := sys.world.clock + 1 } }
  | .setLivePush b => some { sys with world := { sys.world with livePush := some b } }

end Sys

end Opngms
