/-
Opngms/MfaRequests.lean

The requests on a user's second factor as sequences of SQL statements
(`app/api/mfa.py`, `app/api/auth.py`, `app/core/deps.py`, `app/services/auth.py`),
for the runs in which they overlap.

The module `Mfa` has the same requests as single steps.  Here each is a program
of `Transactions`: what it reads with and without a lock, what the ORM writes
back, and where it commits.  The ORM writes the columns whose value differs from
what the request loaded, under the primary key, and fails if the row is gone
(`flush`).  Only statements on the tables a factor lives in are kept; the user,
the policy and the answers of the limiter are what the request was given.

A request notes what it is about before it commits.
-/
import Opngms.Mfa
import Opngms.Transactions

namespace Opngms

namespace MfaRequests

open Mfa (Lib Kind Policy User verifyTotp verifyAuthentication policyRequiresMfa)
open Transactions

/-! ### Tables -/

/-- The primary keys of the rows of one user. -/
inductive Key where
  | session (id : Nat)
  | totp
  | code (id : Nat)
  | passkey (id : Nat)
  | trustedDevice (id : Nat)
  deriving DecidableEq

namespace Key

def isCode : Key → Bool
  | code _ => true
  | _ => false

def isPasskey : Key → Bool
  | passkey _ => true
  | _ => false

def isTrustedDevice : Key → Bool
  | trustedDevice _ => true
  | _ => false

end Key

/-- Ids are handed out; the row of `user_mfa` has the user's. -/
instance : Serial Key where
  serial
    | .session id | .code id | .passkey id | .trustedDevice id => id
    | .totp => 0

/-- A row of `sessions`. -/
structure SessionRow where
  kind : Kind
  csrfToken : String
  webauthnChallenge : Option String
  lastSeenAt : Nat
  expiresAt : Nat
  deriving DecidableEq

/-- A row of `user_mfa`. -/
structure UserMfaRow where
  enabled : Bool
  totpSecretEnc : String
  confirmedAt : Option Nat
  lastUsedStep : Option Int
  deriving DecidableEq

/-- A row of `user_recovery_code`. -/
structure RecoveryCodeRow where
  codeHash : String
  usedAt : Option Nat
  deriving DecidableEq

/-- A row of `webauthn_credential`. -/
structure PasskeyRow where
  credentialId : String
  publicKey : String
  signCount : Nat
  lastUsedAt : Option Nat
  deriving DecidableEq

/-- The rows of each table; of a trusted device, its token. -/
def Val : Key → Type
  | .session _ => SessionRow
  | .totp => UserMfaRow
  | .code _ => RecoveryCodeRow
  | .passkey _ => PasskeyRow
  | .trustedDevice _ => String

/-- What the ORM makes of a row that a request loaded and changed: the columns
that differ are written, the others stay. -/
def UserMfaRow.writeBack (loaded changed current : UserMfaRow) : UserMfaRow where
  enabled := if changed.enabled = loaded.enabled then current.enabled else changed.enabled
  totpSecretEnc :=
    if changed.totpSecretEnc = loaded.totpSecretEnc then current.totpSecretEnc
    else changed.totpSecretEnc
  confirmedAt :=
    if changed.confirmedAt = loaded.confirmedAt then current.confirmedAt else changed.confirmedAt
  lastUsedStep :=
    if changed.lastUsedStep = loaded.lastUsedStep then current.lastUsedStep
    else changed.lastUsedStep

theorem UserMfaRow.writeBack_self (loaded changed : UserMfaRow) :
    loaded.writeBack changed loaded = changed := by
  unfold writeBack
  cases changed
  simp only [mk.injEq]
  refine ⟨?_, ?_, ?_, ?_⟩ <;> split <;> simp_all

/-! ### What a request is about -/

/-- What a request notes when it commits. -/
inductive Note where
  /-- `mfa.setup_start`: the row that was loaded, and the new secret. -/
  | setup (loaded : Option UserMfaRow) (encrypted : String)
  /-- `mfa.confirm`: the row under the lock, and the code it was confirmed with. -/
  | confirm (row : UserMfaRow) (code : String) (time : Nat) (step : Int)
  /-- `mfa.disable`. -/
  | disable
  /-- `mfa.webauthn.remove`: the passkey, and what the last-factor guard saw. -/
  | remove (id : Nat) (hasTotp : Bool) (others : List Key)
  /-- A full session for a pending one, by a code, a recovery code or a passkey. -/
  | loginCode (token : Nat) (row : UserMfaRow) (step : Int)
  | loginRecovery (token : Nat) (id : Nat)
  | loginPasskey (token : Nat)
  deriving DecidableEq

abbrev Rows := Db Key Val Note

abbrev Req (α : Type) := Sql Key Val Note Refusal α

/-- The secrets that are stored, and `crypto.decrypt`. -/
structure Crypto extends Lib where
  decrypt : String → Option String

def internalError : Refusal := ⟨500, "Internal Server Error"⟩

/-- Write back a row the request loaded; a row that is gone is a `StaleDataError`. -/
def flush (k : Key) (f : Val k → Val k) : Req Unit := do
  let matched ← Sql.update k f
  match matched with
  | none => throw internalError
  | some _ => pure ()

/-! ### Dependencies -/

/-- What every request carries, with the clock and the idle timeout it finds. -/
structure Caller where
  cookie : Option Nat
  csrfHeader : Option String
  now : Nat
  idle : Nat

/-- `get_session_for_token`. -/
def getSessionForToken (r : Caller) (token : Nat) : Req (Option SessionRow) := do
  let found : Option SessionRow ← Sql.select (Key.session token)
  match found with
  | none => pure none
  | some sess =>
    if sess.expiresAt ≤ r.now ∨ r.now - sess.lastSeenAt > r.idle then pure none
    else if r.now - sess.lastSeenAt ≥ 60 then do
      -- the touch is a transaction of its own
      flush (.session token) fun row : SessionRow => { row with lastSeenAt := r.now }
      Sql.commit
      pure (some { sess with lastSeenAt := r.now })
    else pure (some sess)

/-- `get_current_session`. -/
def getCurrentSession (r : Caller) : Req (Nat × SessionRow) :=
  match r.cookie with
  | none => throw ⟨401, "Not authenticated"⟩
  | some token => do
    let sess ← getSessionForToken r token
    match sess with
    | none => throw ⟨401, "Session expired"⟩
    | some sess => pure (token, sess)

/-- `enforce_csrf`. -/
def enforceCsrf (r : Caller) (sess : SessionRow) : Req Unit :=
  match r.csrfHeader with
  | none => throw ⟨403, "CSRF check failed"⟩
  | some header =>
    if header ≠ "" ∧ header = sess.csrfToken then pure () else throw ⟨403, "CSRF check failed"⟩

/-- `get_current_user`. -/
def getCurrentUser (sess : SessionRow) (user : Option User) : Req User :=
  match sess.kind with
  | .mfaSetup => throw ⟨403, "mfa_setup_required"⟩
  | .mfaPending => throw ⟨403, "mfa_required"⟩
  | .full =>
    match user with
    | none => throw ⟨401, "Session expired"⟩
    | some user => pure user

/-- `get_enrollment_ctx`. -/
def getEnrollmentCtx (sess : SessionRow) (user : Option User) : Req User :=
  match sess.kind with
  | .mfaPending => throw ⟨401, "Not authenticated"⟩
  | .full | .mfaSetup =>
    match user with
    | none => throw ⟨401, "Session expired"⟩
    | some user => pure user

/-- `_require_password`. -/
def requirePassword (lib : Crypto) (user : User) (password : String) : Req Unit :=
  if lib.verifyPassword password user.passwordHash then pure ()
  else throw ⟨403, "Password required"⟩

/-! ### Enrollment -/

/-- The row of `mfa_setup`: added if there was none, else written back. -/
def storeSecret (loaded : Option UserMfaRow) (encrypted : String) : Req Unit :=
  match loaded with
  | none => do
    let inserted ← Sql.insert .totp (⟨false, encrypted, none, none⟩ : UserMfaRow)
    if inserted then pure () else throw internalError
  | some row => flush .totp (row.writeBack ⟨false, encrypted, none, none⟩)

/-- `mfa_setup`; `encrypted` is its new secret, encrypted. -/
def mfaSetup (lib : Crypto) (r : Caller) (user : Option User) (password encrypted : String) :
    Req Unit := do
  let (_, sess) ← getCurrentSession r
  enforceCsrf r sess
  let user ← getEnrollmentCtx sess user
  requirePassword lib user password
  -- no lock here
  let row : Option UserMfaRow ← Sql.select Key.totp
  storeSecret row encrypted
  Sql.note (.setup row encrypted)
  Sql.commit

/-- The upgrade of a session that was only for the setup. -/
def upgradeSession (token : Nat) (sess : SessionRow) : Req Unit :=
  if sess.kind = .mfaSetup then
    flush (.session token) fun row : SessionRow => { row with kind := .full }
  else pure ()

def deleteWhere (table : Key → Bool) : Req Unit := do
  let rows ← Sql.scan table
  Sql.deleteAll rows

/-- What `mfa_confirm` does with an accepted code. -/
def confirmEnrollment (r : Caller) (token : Nat) (sess : SessionRow) (row : UserMfaRow)
    (code : String) (time : Nat) (step : Int) (hashes : List String) : Req Unit := do
  -- under the lock that `mfa_confirm` took
  flush .totp (row.writeBack
    { row with enabled := true, confirmedAt := some r.now, lastUsedStep := some step })
  deleteWhere Key.isCode
  Sql.createAll Key.code (fun _ => rfl) (fun hash _ => (⟨hash, none⟩ : RecoveryCodeRow)) hashes
  upgradeSession token sess
  Sql.note (.confirm row code time step)
  Sql.commit

/-- `mfa_confirm`; `time` is the clock of `verify_totp`, `hashes` are the new
recovery codes. -/
def mfaConfirm (lib : Crypto) (r : Caller) (user : Option User) (code : String) (time : Nat)
    (hashes : List String) : Req Unit := do
  let (token, sess) ← getCurrentSession r
  enforceCsrf r sess
  let _ ← getEnrollmentCtx sess user
  let locked : Option UserMfaRow ← Sql.forUpdate Key.totp
  match locked with
  | none => throw ⟨400, "No pending enrollment"⟩
  | some row =>
    if row.totpSecretEnc = "" then throw ⟨400, "No pending enrollment"⟩
    else
      match lib.decrypt row.totpSecretEnc with
      | none => throw internalError
      | some secret =>
        match verifyTotp lib.toLib secret code time row.lastUsedStep with
        | none => throw ⟨422, "Invalid code"⟩
        | some step => confirmEnrollment r token sess row code time step hashes

/-- A row that was found is deleted; nothing fails if it has gone since. -/
def deleteTotp (loaded : Option UserMfaRow) : Req Unit :=
  match loaded with
  | none => pure ()
  | some _ => do
    let _ ← Sql.delete .totp
    pure ()

/-- `mfa_disable`. -/
def mfaDisable (lib : Crypto) (r : Caller) (user : Option User) (password : String) :
    Req Unit := do
  let (_, sess) ← getCurrentSession r
  enforceCsrf r sess
  let user ← getCurrentUser sess user
  requirePassword lib user password
  deleteWhere Key.isCode
  let row : Option UserMfaRow ← Sql.select Key.totp
  deleteTotp row
  -- `TrustedDeviceService.revoke_all`
  deleteWhere Key.isTrustedDevice
  Sql.note .disable
  Sql.commit

/-- The last-factor guard of `webauthn_delete`: what it saw, if it passes. -/
def lastFactorGuard (policy : Policy) (user : User) (id : Nat) : Req (Bool × List Key) :=
  if policyRequiresMfa policy user then do
    let mfa : Option UserMfaRow ← Sql.select Key.totp
    let hasTotp := (mfa.map UserMfaRow.enabled).getD false
    let others ← Sql.scan fun k => k.isPasskey && k != .passkey id
    if !hasTotp && others.isEmpty then
      throw ⟨409, "Cannot remove the last MFA factor while MFA is required"⟩
    else pure (hasTotp, others.map Sigma.fst)
  else pure (false, [])

/-- `webauthn_delete`. -/
def webauthnDelete (r : Caller) (user : Option User) (policy : Policy) (id : Nat) :
    Req Unit := do
  let (_, sess) ← getCurrentSession r
  enforceCsrf r sess
  let user ← getCurrentUser sess user
  let cred ← Sql.select (Key.passkey id)
  match cred with
  | none => throw ⟨404, "Not found"⟩
  | some _ => do
    let (hasTotp, others) ← lastFactorGuard policy user id
    let _ ← Sql.delete (.passkey id)
    Sql.note (.remove id hasTotp others)
    Sql.commit

/-! ### Logins -/

/-- `_maybe_remember_device`; `remember` is the token it mints. -/
def maybeRememberDevice (remember : Option String) : Req Unit :=
  match remember with
  | none => pure ()
  | some raw => do
    let _ ← Sql.create Key.trustedDevice (fun _ => rfl) fun _ => raw
    pure ()

/-- The pending session is dropped, and a full one is made. -/
def promote (token : Nat) (full : SessionRow) (remember : Option String) (n : Note) :
    Req Unit := do
  let _ ← Sql.delete (.session token)
  let _ ← Sql.create Key.session (fun _ => rfl) fun _ => full
  maybeRememberDevice remember
  Sql.note n
  Sql.commit

/-- The hash that matches and is unused (`find_recovery_match`). -/
def findRecoveryMatch (lib : Crypto) (code : String) :
    List ((k : Key) × Val k) → Option Nat
  | [] => none
  | ⟨.code id, row⟩ :: rest =>
    if (row : RecoveryCodeRow).usedAt = none ∧ lib.matchesRecovery code row.codeHash = true then
      some id
    else findRecoveryMatch lib code rest
  | _ :: rest => findRecoveryMatch lib code rest

/-- The guarded update of a recovery code. -/
def consumeCode (r : Caller) (id : Nat) : Req Bool := do
  let consumed ← Sql.modify (Key.code id) fun row : RecoveryCodeRow =>
    if row.usedAt = none then some (some ({ row with usedAt := some r.now } : RecoveryCodeRow))
    else none
  pure consumed.isSome

def failLogin (detail : String) : Req Unit := do
  Sql.commit
  throw ⟨401, detail⟩

/-- The fallback of `login_mfa` to a recovery code. -/
def loginRecovery (lib : Crypto) (r : Caller) (token : Nat) (full : SessionRow)
    (remember : Option String) (code : String) : Req Unit := do
  -- the match is on unlocked rows, and the update checks again
  let codes ← Sql.scan Key.isCode
  match findRecoveryMatch lib code codes with
  | none => failLogin "Invalid code"
  | some id => do
    let consumed ← consumeCode r id
    if consumed then promote token full remember (.loginRecovery token id)
    else failLogin "Invalid code"

/-- `login_mfa`; `full` is the session it mints. -/
def loginMfa (lib : Crypto) (r : Caller) (user : Option User) (limit : Option Refusal)
    (code : String) (time : Nat) (full : SessionRow) (remember : Option String) :
    Req Unit := do
  let (token, sess) ← getCurrentSession r
  enforceCsrf r sess
  if sess.kind ≠ .mfaPending then throw ⟨400, "No MFA challenge"⟩
  else
    match limit with
    | some refusal => throw refusal
    | none => do
      let locked : Option UserMfaRow ← Sql.forUpdate Key.totp
      match user, locked with
      | some _, some row =>
        if !row.enabled then throw ⟨400, "No MFA challenge"⟩
        else
          match lib.decrypt row.totpSecretEnc with
          | none => throw internalError
          | some secret =>
            match verifyTotp lib.toLib secret code time row.lastUsedStep with
            | some step => do
              flush .totp (row.writeBack { row with lastUsedStep := some step })
              promote token full remember (.loginCode token row step)
            | none => loginRecovery lib r token full remember code
      | _, _ => throw ⟨400, "No MFA challenge"⟩

/-- The passkey an assertion names. -/
def findPasskey (rawId : String) : List ((k : Key) × Val k) → Option Nat
  | [] => none
  | ⟨.passkey id, row⟩ :: rest =>
    if (row : PasskeyRow).credentialId = rawId then some id else findPasskey rawId rest
  | _ :: rest => findPasskey rawId rest

/-- The passkey an assertion names, locked. -/
def lockPasskey (user : Option User) (rawId : Option String) : Req (Option (Nat × PasskeyRow)) :=
  match user, rawId with
  | some _, some rawId => do
    let keys ← Sql.scan Key.isPasskey
    match findPasskey rawId keys with
    | none => pure none
    | some id => do
      let cred : Option PasskeyRow ← Sql.forUpdate (Key.passkey id)
      pure (cred.map fun row => (id, row))
  | _, _ => pure none

/-- `login_webauthn_complete`; `rawId` is the credential id the assertion names,
`configured` whether WebAuthn is. -/
def loginWebauthnComplete (lib : Crypto) (r : Caller) (user : Option User)
    (limit : Option Refusal) (configured : Bool) (rawId : Option String) (credential : String)
    (full : SessionRow) (remember : Option String) : Req Unit := do
  let (token, sess) ← getCurrentSession r
  enforceCsrf r sess
  if sess.kind ≠ .mfaPending then throw ⟨400, "No MFA challenge"⟩
  else
    match sess.webauthnChallenge.filter fun challenge => challenge != "" with
    | none => throw ⟨400, "No pending WebAuthn challenge"⟩
    | some challenge =>
      match limit with
      | some refusal => throw refusal
      | none =>
        if !configured then throw ⟨409, "WebAuthn not configured"⟩
        else do
          let cred ← lockPasskey user rawId
          let verified := cred.bind fun c =>
            (verifyAuthentication lib.toLib credential challenge c.2.publicKey c.2.signCount).map
              fun count => (c.1, count)
          match verified with
          | none => do
            -- the challenge is used up by a failure too
            flush (.session token) fun row : SessionRow => { row with webauthnChallenge := none }
            failLogin "Invalid passkey"
          | some (id, count) => do
            flush (.passkey id) fun row : PasskeyRow =>
              { row with signCount := count, lastUsedAt := some r.now }
            flush (.session token) fun row : SessionRow => { row with webauthnChallenge := none }
            promote token full remember (.loginPasskey token)

end MfaRequests

end Opngms
