/-
Opngms/LogForwarding.lean

Log forwarding of a device (`app/services/log_forwarding.py`, the client calls of
`app/connectors/opnsense/client.py`, `app/services/cert_renewal.py`) and the CRL
(`app/services/syslog_crl.py`).

An operation is a program that sends requests to the box of its device.  It reads the
device's row when it starts and returns what it wants to store, and its caller
commits that if it ends well and rolls back if it raises.  What the box did stays in
either case.

A `Turn` says what becomes of one request: whether the box carries it out, and how
it answers.
-/
import Mathlib.Logic.Function.Basic
import Opngms.Pool

namespace Opngms

namespace LogForwarding

open Dialogue (Exchange question)

abbrev DeviceId := Nat

abbrev TenantId := Nat

abbrev Uuid := Nat

/-! ### Certificates -/

/-- A client certificate as `issue_device_cert` makes it. -/
structure Cert where
  serial : Nat
  fingerprint : String
  notAfter : Nat
  deriving DecidableEq, Repr

/-- `format(n, "x")`. -/
def hex (n : Nat) : String := String.ofList (Nat.toDigits 16 n)

/-- The value of a hexadecimal digit. -/
def digit (c : Char) : Option Nat :=
  if '0' ≤ c ∧ c ≤ '9' then some (c.toNat - '0'.toNat)
  else if 'a' ≤ c ∧ c ≤ 'f' then some (c.toNat - 'a'.toNat + 10)
  else if 'A' ≤ c ∧ c ≤ 'F' then some (c.toNat - 'A'.toNat + 10)
  else none

/-- `int(text, 16)` on a string of digits; the rest is malformed. -/
def intBase16 (text : String) : Option Nat :=
  if text.toList = [] then none
  else text.toList.foldlM (fun n c => (digit c).map (16 * n + ·)) 0

/-! ### Tables -/

/-- A row of `device_log_forwarding`. -/
structure Row where
  tenantId : TenantId
  enabled : Bool
  certSerial : String
  certFingerprint : String
  opnsenseCaUuid : Option Uuid
  opnsenseCertUuid : Option Uuid
  opnsenseDestUuid : Option Uuid
  provisionedAt : Option Nat
  certNotAfter : Option Nat
  revokedAt : Option Nat
  deriving DecidableEq, Repr

/-- A row of `revoked_syslog_certs`. -/
structure RevokedSyslogCert where
  tenantId : TenantId
  deviceId : DeviceId
  serial : String
  reason : Option String
  revokedAt : Nat
  deriving DecidableEq, Repr

/-! ### Requests to the box -/

/-- What the client sends. -/
inductive BoxRequest where
  | addCa
  | addCert (cert : Cert)
  | getCert (uuid : Uuid)
  | addDestination (hostname : String) (port : Nat) (cert : Uuid)
  | delDestination (uuid : Uuid)
  | delCert (uuid : Uuid)
  | reconfigure
  deriving DecidableEq, Repr

/-- How a request is answered: as the client expects, or not, with an `OpnsenseError`, or
with JSON of another shape, on which the client raises what is none (an `AttributeError` on
a list). -/
inductive Reply where
  | answered
  | failed
  | misshapen
  deriving DecidableEq, Repr

/-- What becomes of a request: the box carries it out, how it answers, and the uuid the
box gives to what it adds. -/
structure Turn where
  acts : Bool
  reply : Reply
  uuid : Uuid
  deriving DecidableEq, Repr

/-- What the client takes from an answer: the uuid of what was added, the refid of a
certificate; nothing from the others, whose answers are not looked at. -/
def BoxRequest.answer : BoxRequest → Turn → Option Uuid
  | addCa, turn => if turn.acts then some turn.uuid else none
  | addCert _, turn => if turn.acts then some turn.uuid else none
  | getCert _, turn => if turn.acts then some turn.uuid else none
  | addDestination _ _ _, turn => if turn.acts then some turn.uuid else none
  | delDestination _, _ => none
  | delCert _, _ => none
  | reconfigure, _ => none

/-- An `OpnsenseError`, a `ValueError`, a missing CA, or any other exception. -/
inductive Failure where
  | opnsense
  | value
  | caNotInitialized
  | uncaught
  deriving DecidableEq, Repr

/-- What an operation asks: a request; a fresh certificate, unless a stored secret cannot be
decrypted; the time that goes into the row, unless the flush of the row is refused. -/
inductive Ask where
  | box (r : BoxRequest)
  | issue
  | now
  deriving DecidableEq

def Ask.Answer : Ask → Type
  | box _ => Turn
  | issue => Option Cert
  | now => Option Nat

abbrev Prog (α : Type) := Dialogue Ask Ask.Answer Failure α

/-! ### The client -/

/-- One request, and what the client takes from its answer. -/
def post (r : BoxRequest) : Prog (Option Uuid) := do
  let turn : Turn ← question (Ask.box r)
  match turn.reply with
  | .answered => pure (r.answer turn)
  | .failed => throw Failure.opnsense
  | .misshapen => throw Failure.uncaught

/-- `_safe_uuid`. -/
def safeUuid : Option Uuid → Prog Uuid
  | some u => pure u
  | none => throw Failure.value

def importCa : Prog (Option Uuid) := post .addCa

def importCert (cert : Cert) : Prog (Option Uuid) := post (.addCert cert)

def addSyslogDestination (hostname : String) (port : Nat) (certificateUuid : Option Uuid) :
    Prog Uuid := do
  let cert ← safeUuid certificateUuid
  let certRef ← post (.getCert cert)
  if certRef = none then throw Failure.opnsense
  match ← post (.addDestination hostname port cert) with
  | none => throw Failure.opnsense
  | some uuid =>
    let _ ← post .reconfigure
    pure uuid

def deleteSyslogDestination (destUuid : Uuid) : Prog Unit := do
  let _ ← post (.delDestination destUuid)
  let _ ← post .reconfigure

def deleteCert (certUuid : Uuid) : Prog Unit := do
  let _ ← post (.delCert certUuid)

def onStored (stored : Option Uuid) (p : Uuid → Prog Unit) : Prog Unit :=
  match stored with
  | some u => p u
  | none => pure ()

/-! ### The operations -/

/-- The receiver of the settings. -/
structure Settings where
  syslogReceiverHost : String
  syslogTlsPort : Nat
  certRenewalWindow : Nat
  deriving DecidableEq, Repr

section Operations

variable (ca : Bool) (settings : Settings) (tenantId : TenantId) (deviceId : DeviceId)
  (row : Option Row)

/-- The value that was read, or an exception. -/
def orUncaught {α : Type} : Option α → Prog α
  | some a => pure a
  | none => throw Failure.uncaught

/-- `require_ca` and `device_cert`. -/
def deviceCert : Prog Cert := do
  if !ca then throw Failure.caNotInitialized
  let cert : Option Cert ← question Ask.issue
  orUncaught cert

/-- The time that goes into the row, which is flushed with it. -/
def now : Prog Nat := do
  let time : Option Nat ← question Ask.now
  orUncaught time

/-- `provision_device`. -/
def provisionDevice : Prog Row := do
  let cert ← deviceCert ca
  -- a CA that is on the box is not imported again
  let caUuid ← match row.bind Row.opnsenseCaUuid with
    | some u => pure (some u)
    | none => importCa
  let certUuid ← importCert cert
  let destUuid ← addSyslogDestination settings.syslogReceiverHost settings.syslogTlsPort certUuid
  let provisioned ← now
  pure { tenantId := tenantId, enabled := true
         certSerial := hex cert.serial, certFingerprint := cert.fingerprint
         certNotAfter := some cert.notAfter
         opnsenseCaUuid := caUuid, opnsenseCertUuid := certUuid
         opnsenseDestUuid := some destUuid
         provisionedAt := some provisioned, revokedAt := none }

/-- What `deprovision_device` and `revoke_device` remove. -/
def removeForwarding (row : Row) : Prog Unit := do
  onStored row.opnsenseDestUuid deleteSyslogDestination
  onStored row.opnsenseCertUuid deleteCert

/-- `deprovision_device`; without a row there is nothing to store. -/
def deprovisionDevice : Prog (Option Row) := do
  match row with
  | none => pure none
  | some row =>
    removeForwarding row
    pure (some { row with enabled := false, opnsenseDestUuid := none, opnsenseCertUuid := none })

def forwarding : Prog Row :=
  match row with
  | some row => if row.enabled then pure row else throw Failure.value
  | none => throw Failure.value

/-- `rotate_device_cert`. -/
def rotateDeviceCert : Prog Row := do
  let row ← forwarding row
  let cert ← deviceCert ca
  -- the new destination is there before the old one is deleted
  let newCertUuid ← importCert cert
  let newDestUuid ←
    addSyslogDestination settings.syslogReceiverHost settings.syslogTlsPort newCertUuid
  onStored row.opnsenseDestUuid deleteSyslogDestination
  onStored row.opnsenseCertUuid deleteCert
  let provisioned ← now
  pure { row with
    certSerial := hex cert.serial, certFingerprint := cert.fingerprint
    certNotAfter := some cert.notAfter
    opnsenseCertUuid := newCertUuid, opnsenseDestUuid := some newDestUuid
    provisionedAt := some provisioned }

/-- `revoke_device`: the row and the entry of the ledger. -/
def revokeDevice (reason : Option String) : Prog (Row × RevokedSyslogCert) := do
  let row ← forwarding row
  let revokedSerial := row.certSerial
  -- the box first: a box that fails leaves no entry in the ledger
  removeForwarding row
  let revoked ← now
  pure ({ row with
      enabled := false, opnsenseDestUuid := none, opnsenseCertUuid := none
      revokedAt := some revoked },
    { tenantId := tenantId, deviceId := deviceId, serial := revokedSerial, reason := reason
      revokedAt := revoked })

end Operations

/-! ### The daily renewal -/

/-- `due_for_renewal`. -/
def dueForRenewal (certNotAfter : Option Nat) (now window : Nat) : Bool :=
  match certNotAfter with
  | some t => t < now + window
  | none => false

structure Summary where
  considered : Nat
  renewed : Nat
  failed : Nat
  deriving DecidableEq, Repr

abbrev Site := DeviceId × Ask

abbrev SiteAnswer (q : Site) := q.2.Answer

abbrev Job (α : Type) := Dialogue Site SiteAnswer Failure α

def onDevice {α : Type} (d : DeviceId) (p : Prog α) : Job α :=
  p.translate (fun q => (d, q)) fun _ a => a

/-- What `renew_expiring_device_certs` catches: the savepoint is rolled back.  Anything else
ends the job. -/
def orFailed (p : Job Row) : Job (Option Row) :=
  tryCatch (do let row ← p; pure (some row)) fun x =>
    match x with
    | .opnsense => pure none
    | .value => pure none
    | .caNotInitialized => throw x
    | .uncaught => throw x

/-- `renew_expiring_device_certs` over the enabled rows: the summary and the rows to
store. -/
def renewExpiringDeviceCerts (ca : Bool) (settings : Settings) (devices : DeviceId → Bool)
    (now : Nat) : List (DeviceId × Row) → Summary → Job (Summary × List (DeviceId × Row))
  | [], summary => pure (summary, [])
  | (d, row) :: rows, summary => do
    if !dueForRenewal row.certNotAfter now settings.certRenewalWindow then
      renewExpiringDeviceCerts ca settings devices now rows summary
    else if !devices d then
      -- the device is gone
      renewExpiringDeviceCerts ca settings devices now rows
        { summary with considered := summary.considered + 1, failed := summary.failed + 1 }
    else
      let renewed ← orFailed (onDevice d (rotateDeviceCert ca settings (some row)))
      match renewed with
      | some row' =>
        let (summary, stored) ← renewExpiringDeviceCerts ca settings devices now rows
          { summary with considered := summary.considered + 1, renewed := summary.renewed + 1 }
        pure (summary, (d, row') :: stored)
      | none =>
        renewExpiringDeviceCerts ca settings devices now rows
          { summary with considered := summary.considered + 1, failed := summary.failed + 1 }

/-! ### The box -/

/-- The client certificates and syslog destinations that OPNGMS put on a box, and every
certificate that was ever imported. -/
structure Box where
  certs : List (Uuid × Cert)
  dests : List Uuid
  imported : List Cert
  deriving DecidableEq, Repr

def Box.empty : Box := ⟨[], [], []⟩

/-- The box after a request it carries out. -/
def Box.carryOut (b : Box) (uuid : Uuid) : BoxRequest → Box
  | .addCert cert => { b with certs := (uuid, cert) :: b.certs, imported := cert :: b.imported }
  | .addDestination _ _ _ => { b with dests := uuid :: b.dests }
  | .delDestination u => { b with dests := b.dests.filter (· ≠ u) }
  | .delCert u => { b with certs := b.certs.filter (·.1 ≠ u) }
  | _ => b

def Box.act (b : Box) (r : BoxRequest) (turn : Turn) : Box :=
  if turn.acts then b.carryOut turn.uuid r else b

/-- The box gives no uuid twice. -/
def Box.Fresh (b : Box) : BoxRequest → Turn → Prop
  | .addCert _, turn => turn.uuid ∉ b.certs.map Prod.fst
  | .addDestination _ _ _, turn => turn.uuid ∉ b.dests
  | _, _ => True

instance (b : Box) (r : BoxRequest) (turn : Turn) : Decidable (b.Fresh r turn) := by
  cases r <;> unfold Box.Fresh <;> infer_instance

/-! ### Operations as steps -/

/-- What is outside during an operation: the turns of its requests, the certificates
issued, the times read. -/
structure Script where
  turns : List Turn := []
  certs : List (Option Cert) := []
  clock : List (Option Nat) := []
  deriving DecidableEq, Repr

def serve : (DeviceId → Box) × Script → (q : Site) →
    Option (SiteAnswer q × ((DeviceId → Box) × Script))
  | (boxes, script), (d, .box r) =>
    match script.turns with
    | [] => none
    | turn :: turns =>
      -- the box acts whether or not its answer arrives
      if (boxes d).Fresh r turn then
        some (turn,
          (Function.update boxes d ((boxes d).act r turn), { script with turns := turns }))
      else none
  | (boxes, script), (_, .issue) =>
    match script.certs with
    | [] => none
    | cert :: certs => some (cert, (boxes, { script with certs := certs }))
  | (boxes, script), (_, .now) =>
    match script.clock with
    | [] => none
    | t :: clock => some (t, (boxes, { script with clock := clock }))

/-- The database. -/
structure Db where
  rows : DeviceId → Option Row
  ledger : List RevokedSyslogCert

/-- What a commit stores. -/
structure Staged where
  rows : List (DeviceId × Row) := []
  revoked : List RevokedSyslogCert := []

def storeRows (rows : DeviceId → Option Row) (writes : List (DeviceId × Row)) :
    DeviceId → Option Row :=
  writes.foldl (fun rows x => Function.update rows x.1 (some x.2)) rows

/-- The database after an operation: its caller commits what it returns, or rolls back. -/
def Db.settle (db : Db) : Except Failure Staged → Db
  | .ok staged => ⟨storeRows db.rows staged.rows, staged.revoked ++ db.ledger⟩
  | .error _ => db

inductive Op where
  | provision (d : DeviceId) (tenantId : TenantId)
  | deprovision (d : DeviceId)
  | rotate (d : DeviceId)
  | revoke (d : DeviceId) (tenantId : TenantId) (reason : Option String)
  /-- The daily job over the enabled rows, as the query returns them. -/
  | renew (ds : List DeviceId) (now : Nat)
  deriving DecidableEq, Repr

/-- What does not change: the CA is there, the settings, the devices. -/
structure Env where
  ca : Bool
  settings : Settings
  devices : DeviceId → Bool

/-- The enabled rows among the devices. -/
def Db.enabledRows (db : Db) (ds : List DeviceId) : List (DeviceId × Row) :=
  ds.filterMap fun d =>
    match db.rows d with
    | some row => if row.enabled then some (d, row) else none
    | none => none

/-- An operation on the database, with what its caller commits. -/
def Op.program (env : Env) (db : Db) : Op → Job Staged
  | provision d tenantId => do
    let row ← onDevice d (provisionDevice env.ca env.settings tenantId (db.rows d))
    pure { rows := [(d, row)] }
  | deprovision d => do
    let row ← onDevice d (deprovisionDevice (db.rows d))
    pure { rows := row.toList.map (d, ·) }
  | rotate d => do
    let row ← onDevice d (rotateDeviceCert env.ca env.settings (db.rows d))
    pure { rows := [(d, row)] }
  | revoke d tenantId reason => do
    let (row, entry) ← onDevice d (revokeDevice tenantId d (db.rows d) reason)
    pure { rows := [(d, row)], revoked := [entry] }
  | renew ds now => do
    let (_, rows) ← renewExpiringDeviceCerts env.ca env.settings env.devices now
      (db.enabledRows ds) ⟨0, 0, 0⟩
    pure { rows := rows }

structure State where
  db : Db
  boxes : DeviceId → Box

def State.start : State := ⟨⟨fun _ => none, []⟩, fun _ => Box.empty⟩

structure Event where
  op : Op
  script : Script
  deriving DecidableEq, Repr

/-- A query returns no row twice. -/
def Op.Distinct : Op → Prop
  | renew ds _ => ds.Nodup
  | _ => True

instance (op : Op) : Decidable op.Distinct := by
  cases op <;> unfold Op.Distinct <;> infer_instance

def run (env : Env) (s : State) (e : Event) :
    Option (List (Exchange Site SiteAnswer) × Except Failure Staged ×
      ((DeviceId → Box) × Script)) :=
  if e.op.Distinct then (e.op.program env s.db).exec serve (s.boxes, e.script) else none

def step (env : Env) (s : State) (e : Event) : Option State :=
  (run env s e).map fun r => ⟨s.db.settle r.2.1, r.2.2.1⟩

/-! ### The CRL -/

/-- The serials with the earliest date of each. -/
def addSerial (bySerial : List (Nat × Nat)) (entry : RevokedSyslogCert) : List (Nat × Nat) :=
  match intBase16 entry.serial with
  | none => bySerial
  | some serial =>
    match bySerial.lookup serial with
    | none => (serial, entry.revokedAt) :: bySerial
    | some revoked =>
      -- a serial is listed once, with the earliest date
      if entry.revokedAt < revoked then
        (serial, entry.revokedAt) :: bySerial.filter (·.1 ≠ serial)
      else bySerial

/-- `refresh_syslog_crl`: the entries of the CRL it writes; `none` where it skips. -/
def refreshSyslogCrl (certDir ca : Bool) (ledger : List RevokedSyslogCert) :
    Option (List (Nat × Nat)) :=
  if !certDir then none
  else if !ca then none
  else some ((ledger.foldl addSerial []).mergeSort fun x y => x.1 ≤ y.1)

/-! ### A device that is provisioned, rotated and revoked -/

def sampleEnv : Env := ⟨true, ⟨"logs.example.org", 6514, 30⟩, fun _ => true⟩

def answered (uuid : Uuid) : Turn := ⟨true, .answered, uuid⟩

def firstCert : Cert := ⟨0xa1, "aa:01", 90⟩

def secondCert : Cert := ⟨0xb2, "bb:02", 120⟩

def sampleProvision : Event where
  op := .provision 1 7
  script := ⟨[answered 1, answered 2, answered 9, answered 3, answered 0], [some firstCert], [some 0]⟩

def sampleRotation : Event where
  op := .rotate 1
  script :=
    ⟨[answered 4, answered 9, answered 5, answered 0, answered 0, answered 0, answered 0],
      [some secondCert], [some 60]⟩

def sampleRevocation : Event where
  op := .revoke 1 7 none
  script := ⟨[answered 0, answered 0, answered 0], [], [some 70]⟩

end LogForwarding

end Opngms
