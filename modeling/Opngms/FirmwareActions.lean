/-
Opngms/FirmwareActions.lean

Firmware actions: the request that creates one (`create_firmware_action` of
api/firmware.py), the job that carries it out (services/firmware_action.py, worker.py) and
the sweeper that queues it again (`sweep_orphaned_actions`).

What a job asks of the box is a dialogue of its own, `Box`: the calls of the client, with
any answers.  The sessions then run on one row of `firmware_actions`, the advisory lock of
its device and the queue.  A request puts its job on the queue before it commits.
-/
import Mathlib.Data.List.Lex
import Opngms.PyText
import Opngms.Transactions
import Opngms.Worker

namespace Opngms

namespace FirmwareActions

open Transactions

/-! ### The client -/

/-- The methods of the client that a job calls. -/
inductive Call where
  | firmwareCheck
  | firmwareStatusRaw
  | firmwareUpdate
  | firmwareUpgrade
  | firmwareUpgradeStatus
  | pluginInstall (name : String)
  | pluginRemove (name : String)
  | testConnection
  | getDeviceIdentity
  deriving DecidableEq

namespace Call

def isOperation : Call → Bool
  | firmwareUpdate | firmwareUpgrade | pluginInstall _ | pluginRemove _ => true
  | _ => false

end Call

/-- What a session can end with. -/
inductive Failure where
  | reachability
  /-- Any other `OpnsenseError`. -/
  | opnsense (message : String)
  | builtin (e : BuiltinError)
  | invalidToken
  | integrityError
  | staleDataError
  | http (status : Nat) (detail : String)
  deriving DecidableEq

/-- `isinstance(exc, OpnsenseError)`. -/
def Failure.isOpnsenseError : Failure → Bool
  | reachability | opnsense _ => true
  | _ => false

abbrev Answer := Except Failure Json

abbrev Box := Dialogue Call (fun _ => Answer) Failure

def call (c : Call) : Box Json :=
  .ask c fun
    | .ok a => .pure a
    | .error e => .raise e

/-- An operation on JSON in such a program. -/
def onJson {α : Type} : Except BuiltinError α → Box α
  | .ok a => .pure a
  | .error e => .raise (.builtin e)

/-! ### The status of the firmware -/

/-- `MAX_UPGRADE_STEPS`. -/
def maxUpgradeSteps : Nat := 6

/-- `REBOOT_MAX_POLLS`. -/
def rebootMaxPolls : Nat := 180

/-- `STARTUP_GRACE_POLLS`. -/
def startupGracePolls : Nat := 6

/-- `s.lower()` where it is compared with ASCII words: the Kelvin sign too has a lower case
in ASCII. -/
def lowerAscii (s : String) : String :=
  String.ofList (s.toList.map fun c => if c = '\u212A' then 'k' else c.toLower)

/-- `int(s)` of a stripped text: digits, single underscores between them, and a sign. -/
def intText (s : String) : Except BuiltinError Int :=
  let digits (cs : List Char) : Except BuiltinError Nat :=
    let groups := cs.splitOn '_'
    if groups.all fun g => !g.isEmpty && g.all isDecimal then intOf groups.flatten
    else .error .valueError
  match s.toList with
  | '-' :: cs => (digits cs).map fun n => -(n : Int)
  | '+' :: cs => (digits cs).map Int.ofNat
  | cs => (digits cs).map Int.ofNat

/-- `to_int`. -/
def toInt (v : Json) : Int :=
  match intText (strip v.pyStr) with
  | .ok n => n
  | .error _ => 0

/-- `updates_pending`. -/
def updatesPending (status : Json) : Except BuiltinError Bool := do
  let status := status.orElse (.obj [])
  let word ← status.attrGet "status" (.str "")
  if lowerAscii word.pyStr = "ok" then return true
  else return decide (0 < toInt (← status.attrGet "updates" .null))

/-- `int(m.group()) if m else 0`, of the digits at the start. -/
def leadingInt (cs : List Char) : Except BuiltinError Nat :=
  match cs.takeWhile isDecimal with
  | [] => .ok 0
  | digits => intOf digits

/-- `parse_version` of the parsers: year, month, point and hotfix. -/
def parseVersion (s : Json) : Except BuiltinError (List Nat) := do
  let text := (strip (s.orElse (.str "")).pyStr).toList
  let base := text.takeWhile (· ≠ '_')
  let hot := (text.dropWhile (· ≠ '_')).drop 1
  let nums ← ((base.splitOn '.').take 3).mapM leadingInt
  return nums ++ List.replicate (3 - nums.length) 0 ++ [← leadingInt hot]

/-- `series_of`. -/
def seriesOf (s : Json) : Except BuiltinError String := do
  let version ← parseVersion s
  return toString (version.getD 0 0) ++ "." ++ toString (version.getD 1 0)

/-- `status.get(key) or (status.get("product") or {}).get(key, "")`. -/
def productField (status : Json) (key : String) : Except BuiltinError Json := do
  let own ← status.attrGet key .null
  if own.truthy then return own
  else ((← status.attrGet "product" .null).orElse (.obj [])).attrGet key (.str "")

/-- `major_offered`. -/
def majorOffered (status : Json) : Except BuiltinError Bool := do
  let status := status.orElse (.obj [])
  let cur ← productField status "product_version"
  let latest ← productField status "product_latest"
  if !latest.truthy then return false
  else if ¬ (← parseVersion cur) < (← parseVersion latest) then return false
  else return decide ((← seriesOf latest) ≠ (← seriesOf cur))

/-- `not updates_pending(st) and not major_offered(st)`. -/
def upToDate (st : Json) : Except BuiltinError Bool := do
  if ← updatesPending st then return false
  else return !(← majorOffered st)

/-! ### The operation -/

/-- `_wait_until_reachable`. -/
def waitUntilReachable : (polls : Nat) → Box Unit
  | 0 => .raise (.opnsense "device did not come back after reboot within budget")
  | n + 1 => .ask .testConnection fun
    | .ok _ => .pure ()
    | .error .reachability => waitUntilReachable n
    | .error e => .raise e

/-- The loop of `poll_until_done`. -/
def pollUntilDone : (maxPolls : Nat) → (seenRunning : Bool) → (idlePolls : Nat) → Box Json
  | 0, _, _ => .raise (.opnsense "firmware operation did not complete within budget")
  | n + 1, seenRunning, idlePolls => .ask .firmwareUpgradeStatus fun
    | .error .reachability =>
      (waitUntilReachable rebootMaxPolls).bind fun _ => pollUntilDone n true idlePolls
    | .error e => .raise e
    | .ok st => do
      let word ← onJson (st.attrGet "status" (.str ""))
      if lowerAscii word.pyStr = "running" then pollUntilDone n true 0
      else if seenRunning then return st
      else if startupGracePolls ≤ idlePolls + 1 then return st
      else pollUntilDone n seenRunning (idlePolls + 1)

/-- `_poll`. -/
def poll (maxPolls : Nat) : Box Json := pollUntilDone maxPolls false 0

/-- The loop of an upgrade, with the steps it took. -/
def upgradeLoop (maxPolls : Nat) : (left steps : Nat) → Box Nat
  | 0, _ => .raise (.opnsense "upgrade did not converge within MAX_UPGRADE_STEPS")
  | left + 1, steps => do
    let _ ← call .firmwareCheck
    let _ ← poll maxPolls
    let st ← call .firmwareStatusRaw
    if ← onJson (upToDate st) then return steps
    else
      let _ ← if ← onJson (majorOffered st) then call .firmwareUpgrade else call .firmwareUpdate
      let _ ← poll maxPolls
      upgradeLoop maxPolls left (steps + 1)

/-- The kinds of actions. -/
inductive Kind where
  | firmwareUpdate
  | firmwareUpgrade
  | pluginInstall
  | pluginRemove
  | unknown (text : String)
  deriving DecidableEq

/-- What is stored for a status. -/
inductive Status where
  | scheduled
  | running
  | done
  | failed
  deriving DecidableEq

def Status.text : Status → String
  | scheduled => "scheduled"
  | running => "running"
  | done => "done"
  | failed => "failed"

def Status.final : Status → Bool
  | done | failed => true
  | scheduled | running => false

/-- A row of `firmware_actions`. -/
structure FirmwareAction where
  kind : Kind
  target : String
  scheduledAt : Option Time
  status : Status
  sweepAttempts : Nat
  result : Dict
  appliedAt : Option Time
  createdAt : Time

/-- How a run ends: the status and the result of the action. -/
structure Ending where
  status : Status
  result : Dict
  ended : status.final = true

/-- `action.status = "failed"` with an error. -/
def Ending.failed (message : String) : Ending := ⟨.failed, [("error", .str message)], rfl⟩

/-- The end of a run that succeeds: the version goes into the result. -/
def finish (result : Dict) : Box Ending := do
  let version ← call .getDeviceIdentity
  return ⟨.done, Dict.set result "version" version, rfl⟩

/-- The `try` block of `run_firmware_action`. -/
def operate (action : FirmwareAction) (maxPolls : Nat) : Box Ending :=
  match action.kind with
  | .pluginRemove => do
    let _ ← call (.pluginRemove action.target)
    let _ ← poll maxPolls
    finish action.result
  | .pluginInstall => do
    let _ ← call .firmwareCheck
    let _ ← poll maxPolls
    if ← onJson (updatesPending (← call .firmwareStatusRaw)) then
      return .failed "device must be up to date before installing plugins"
    else
      let _ ← call (.pluginInstall action.target)
      let _ ← poll maxPolls
      finish action.result
  | .firmwareUpdate => do
    let _ ← call .firmwareUpdate
    let _ ← poll maxPolls
    finish action.result
  | .firmwareUpgrade => do
    let steps ← upgradeLoop maxPolls maxUpgradeSteps 0
    finish [("steps", .int steps)]
  | .unknown text => return .failed ("unknown action kind: " ++ text)

/-- The `except` clause. -/
def operation (action : FirmwareAction) (maxPolls : Nat) : Box Ending :=
  (operate action maxPolls).handle fun e =>
    if e.isOpnsenseError then .pure (.failed "action failed") else .raise e

/-! ### The sessions -/

/-- The rows: the device, and the action. -/
inductive Key where
  | device
  | action
  deriving DecidableEq

instance : Serial Key := ⟨fun _ => 0⟩

/-- A device has a tenant, and credentials that decrypt or do not. -/
abbrev Row : Key → Type
  | .device => Device
  | .action => FirmwareAction

/-- What an advisory lock is taken for. -/
inductive Purpose where
  | run
  | sweep
  /-- Another operation on the device. -/
  | other
  deriving DecidableEq

/-- Who has queued a job: the request, or the sweeper. -/
inductive Origin where
  | original
  | reEnqueued
  deriving DecidableEq

/-- The jobs that are queued. -/
inductive Queued where
  | runFirmwareAction (origin : Origin)
  | backupDeviceConfig
  deriving DecidableEq

/-- What a session asks. -/
inductive Ask where
  | sql (q : Stmt Key Row Empty)
  /-- `session.get(FirmwareAction, id)` of a job. -/
  | getAction
  | tryLock (purpose : Purpose)
  | enqueue (job : Queued)
  /-- The worker hands the session a job `run_firmware_action`. -/
  | dequeue (origin : Origin)
  | device (c : Call)

/-- What a session is told. -/
def Ask.Answer : Ask → Type
  | sql q => q.Answer
  | getAction => Option FirmwareAction
  | tryLock _ => Bool
  | enqueue _ => Unit
  | dequeue _ => Unit
  | device _ => FirmwareActions.Answer

abbrev Session := Dialogue Ask Ask.Answer Failure

def sql (q : Stmt Key Row Empty) : Session q.Answer := .ask (.sql q) .pure

/-- The flush of the action: an `UPDATE`, which must find the row. -/
def flush (f : FirmwareAction → FirmwareAction) : Session Unit :=
  .ask (.sql (.modify .action fun row => some (some (f row)))) fun
    | some _ => .pure ()
    | none => .raise .staleDataError

def onDevice {α : Type} (p : Box α) : Session α := p.translate Ask.device fun _ a => a

/-- The run of an action, and its status in the end. -/
def carryOut (action : FirmwareAction) (now : Time) (maxPolls : Nat) : Session Status := do
  if action.status ≠ .running then flush fun row => { row with status := .running }
  else .pure ()
  let ending ← onDevice (operation action maxPolls)
  flush fun row => { row with
    status := ending.status
    result := ending.result
    appliedAt := if ending.status = .done then some now else row.appliedAt }
  return ending.status

/-- `run_firmware_action` of the service: the status is the one that was loaded, before the
lock. -/
def runFirmwareAction (action : FirmwareAction) (now : Time) (maxPolls : Nat) :
    Session Status :=
  if action.status.final then .pure action.status
  else .ask (.tryLock .run) fun
    | true => carryOut action now maxPolls
    | false => .pure action.status

/-- `run_firmware_action` of the worker. -/
def runFirmwareActionJob (origin : Origin) (now : Time) (maxPolls : Nat) : Session String := do
  .ask (.dequeue origin) fun _ => .ask .getAction fun
    | none => return "missing"
    | some action => do
      match ← sql (.select .device) with
      | none => return "missing-device"
      | some device =>
        if !(device : Device).credentials then throw .invalidToken
        else
          let status ← runFirmwareAction action now maxPolls
          sql .commit
          if status = .done then .ask (.enqueue .backupDeviceConfig) fun _ => return status.text
          else return status.text

/-- `FirmwareActionIn`: the kind is one of the four. -/
structure FirmwareActionIn where
  kind : Kind
  target : String
  scheduledAt : Option Time
  known : ∀ text, kind ≠ .unknown text

/-- The checks of the request. -/
def refusal (body : FirmwareActionIn) : Option Failure :=
  match body.kind with
  | .pluginInstall | .pluginRemove =>
    if body.target = "" then some (.http 400 "target (plugin name) required") else none
  | .firmwareUpdate | .firmwareUpgrade =>
    if body.target ≠ "" then some (.http 400 "target not allowed for firmware actions") else none
  | .unknown _ => none

/-- The row of a new action. -/
def newAction (body : FirmwareActionIn) (now : Time) : FirmwareAction where
  kind := body.kind
  target := body.target
  scheduledAt := body.scheduledAt
  status := .scheduled
  sweepAttempts := 0
  result := []
  appliedAt := none
  createdAt := now

/-- `create_firmware_action`: the job is queued before the commit. -/
def createFirmwareAction (tenantId : TenantId) (body : FirmwareActionIn) (now : Time) :
    Session Unit := do
  match ← sql (.select .device) with
  | none => throw (.http 404 "Device not found")
  | some device =>
    if (device : Device).tenantId ≠ tenantId then throw (.http 404 "Device not found")
    else match refusal body with
      | some failure => throw failure
      | none =>
        .ask (.sql (.insert .action (newAction body now))) fun
          | true => .ask (.enqueue (.runFirmwareAction .original)) fun _ => sql .commit
          | false => throw .integrityError

/-- `coalesce(scheduled_at, created_at) < cutoff`, of a scheduled action. -/
def overdue (cutoff : Time) (action : FirmwareAction) : Bool :=
  decide (action.status = .scheduled) && decide (action.scheduledAt.getD action.createdAt < cutoff)

/-- The action in a session of the sweep: the lock is taken after the row was read, and let
go of before the job is queued. -/
def sweepAction (maxAttempts : Nat) : Session Unit := do
  match ← sql (.select .action) with
  | none => return ()
  | some row =>
    if (row : FirmwareAction).status ≠ .scheduled then return ()
    else .ask (.tryLock .sweep) fun
      | false => .pure ()
      | true =>
        match decideOrphan (row : FirmwareAction).sweepAttempts maxAttempts with
        | .reEnqueue =>
          (flush fun r => { r with sweepAttempts := (row : FirmwareAction).sweepAttempts + 1 }).bind
            fun _ => (sql .commit).bind fun _ =>
              .ask (.enqueue (.runFirmwareAction .reEnqueued)) .pure
        | .giveUp =>
          (flush fun r => { r with
            status := .failed
            result := [("error", .str ("orphaned: never applied after " ++
              toString (row : FirmwareAction).sweepAttempts ++ " re-enqueue attempts"))] }).bind
            fun _ => sql .commit

/-- `sweep_orphaned_actions`; what a row raises is swallowed. -/
def sweepOrphanedActions (cutoff : Time) (maxAttempts : Nat) : Session Unit := do
  match ← sql (.select .action) with
  | none => return ()
  | some row =>
    if overdue cutoff row then tryCatch (sweepAction maxAttempts) fun _ => pure ()
    else return ()

def otherOperation : Session Unit :=
  .ask (.tryLock .other) fun _ => sql .commit

end FirmwareActions

end Opngms
