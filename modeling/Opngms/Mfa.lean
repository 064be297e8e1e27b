/-
Opngms/Mfa.lean

The second factor of one user: the sessions, and the requests that act on them
(`app/api/auth.py`, `app/api/mfa.py`, `app/core/deps.py`), with `app/services/mfa.py`
and `app/services/webauthn.py` below them.

A session carries its `Chain`: when the login was that it comes from, whether the
user had an enabled factor when the chain last presented only the password, and
what it has proved since.  No request reads a chain.
-/
import Mathlib.Logic.Function.Basic
import Opngms.Reports

namespace Opngms

namespace Mfa

/-! ### Libraries -/

/-- The libraries under the second factor. -/
structure Lib where
  /-- `verify_password(password, hash)`. -/
  verifyPassword : String → String → Bool
  /-- A code without its blanks, if only digits are left. -/
  digits : String → Option String
  /-- `pyotp.TOTP(secret).at` the start of a step. -/
  totpAt : String → Int → String
  /-- `verify_password(code.strip().upper(), hash)`. -/
  matchesRecovery : String → String → Bool
  /-- `_verify_reg_raw`: the id of the credential, its key and its counter. -/
  verifyRegRaw : String → String → Option (String × String × Nat)
  /-- `_verify_auth_raw`: the new counter. -/
  verifyAuthRaw : String → String → String → Nat → Option Nat

/-- `verify_totp`: the step a code is accepted for. -/
def verifyTotp (lib : Lib) (secret code : String) (now : Nat) (lastUsedStep : Option Int) :
    Option Int :=
  match lib.digits code with
  | none => none
  | some code =>
    match [0, -1, 1].find? fun offset => lib.totpAt secret (now / 30 + offset) == code with
    | none => none
    | some offset =>
      match lastUsedStep with
      | some last => if (now / 30 + offset : Int) ≤ last then none else some (now / 30 + offset)
      | none => some (now / 30 + offset)

/-- `verify_authentication`: a counter has to grow, if there is one. -/
def verifyAuthentication (lib : Lib) (response challenge publicKey : String) (signCount : Nat) :
    Option Nat :=
  match lib.verifyAuthRaw response challenge publicKey signCount with
  | none => none
  | some new => if new > signCount ∨ new = 0 ∧ signCount = 0 then some new else none

/-! ### The rows of a user -/

/-- `MFA_MODES`. -/
inductive Policy where
  | off
  | privileged
  | all
  deriving DecidableEq

/-- What administrators set. -/
structure Config where
  policy : Policy
  /-- `get_trusted_device_enabled`. -/
  trustedDevices : Bool
  /-- `WebAuthnConfig.is_configured`. -/
  webauthn : Bool

structure User where
  active : Bool
  isSuperadmin : Bool
  passwordHash : String

/-- A row of `user_mfa`; `since` is when it was enabled. -/
structure UserMfa where
  secret : String
  enabled : Bool
  lastUsedStep : Option Int
  since : Nat

/-- A row of `user_recovery_code`. -/
structure RecoveryCode where
  hash : String
  used : Bool

/-- A row of `webauthn_credential`; `since` is when it was registered. -/
structure Passkey where
  credentialId : String
  publicKey : String
  signCount : Nat
  since : Nat

/-! ### Sessions -/

/-- `Session.kind`. -/
inductive Kind where
  | full
  | mfaPending
  | mfaSetup
  deriving DecidableEq

/-- What a request can prove beside the password. -/
inductive Means where
  | code
  | recoveryCode
  | passkey
  | trustedDevice
  deriving DecidableEq

/-- A proof of a factor that was enabled at `since`. -/
structure Proof where
  means : Means
  since : Nat

/-- The requests of a session, from its login on. -/
structure Chain where
  started : Nat
  /-- The user had an enabled factor when only the password was presented last. -/
  enrolled : Bool
  proofs : List Proof

/-- If the user was enrolled, the chain has proved a factor enabled before it
started. -/
def Chain.Backed (c : Chain) : Prop :=
  c.enrolled = true → ∃ p ∈ c.proofs, p.since < c.started

structure Session where
  kind : Kind
  webauthnChallenge : Option String
  chain : Chain

/-- The rows that belong to the user, and the settings.  Sessions are kept under
their tokens. -/
structure State where
  /-- Counts the requests. -/
  clock : Nat
  user : User
  config : Config
  totp : Option UserMfa
  recoveryCodes : List RecoveryCode
  passkeys : List Passkey
  /-- The tokens of the trusted devices that have not expired. -/
  trustedDevices : List String
  sessions : Nat → Option Session
  nextToken : Nat
  /-- The chains of the sessions that became full. -/
  fulls : List Chain

namespace State

/-- When each enabled factor was enabled. -/
def factors (s : State) : List Nat :=
  (match s.totp with
    | some row => if row.enabled then [row.since] else []
    | none => []) ++ s.passkeys.map Passkey.since

/-- `has_totp or has_passkey`. -/
def enrolled (s : State) : Bool := !s.factors.isEmpty

def setSession (s : State) (token : Nat) (sess : Option Session) : State :=
  { s with sessions := Function.update s.sessions token sess }

/-- `delete_session_by_token`. -/
def deleteSession (s : State) : Option Nat → State
  | some token => s.setSession token none
  | none => s

/-- `create_session`. -/
def createSession (s : State) (kind : Kind) (chain : Chain) : State :=
  { s with
    sessions := Function.update s.sessions s.nextToken (some ⟨kind, none, chain⟩)
    nextToken := s.nextToken + 1
    fulls := if kind = .full then s.fulls ++ [chain] else s.fulls }

/-- A session that is stored again; an `mfa_setup` one becomes full. -/
def upgrade (s : State) (token : Nat) (sess : Session) : State :=
  if sess.kind = .mfaSetup then
    { s.setSession token (some { sess with kind := .full }) with fulls := s.fulls ++ [sess.chain] }
  else s.setSession token (some sess)

end State

/-! ### Requests -/

/-- What every request carries. -/
structure Request where
  session : Option Nat
  /-- The header repeats the CSRF token of the session. -/
  csrf : Bool
  trustedDevice : Option String

abbrev Served (α : Type) := Except Refusal α × State

/-- `get_current_session` and `enforce_csrf`. -/
def State.withSession {α : Type} (s : State) (r : Request) (k : Nat → Session → Served α) :
    Served α :=
  match r.session with
  | none => (.error ⟨401, "Not authenticated"⟩, s)
  | some token =>
    match s.sessions token with
    | none => (.error ⟨401, "Session expired"⟩, s)
    | some sess => if r.csrf then k token sess else (.error ⟨403, "CSRF check failed"⟩, s)

/-- `get_current_user`. -/
def State.withUser {α : Type} (s : State) (r : Request) (k : Nat → Session → Served α) :
    Served α :=
  s.withSession r fun token sess =>
    match sess.kind with
    | .full => k token sess
    | .mfaSetup => (.error ⟨403, "mfa_setup_required"⟩, s)
    | .mfaPending => (.error ⟨403, "mfa_required"⟩, s)

/-- `get_enrollment_ctx`. -/
def State.withEnrollment {α : Type} (s : State) (r : Request) (k : Nat → Session → Served α) :
    Served α :=
  s.withSession r fun token sess =>
    match sess.kind with
    | .full | .mfaSetup => k token sess
    | .mfaPending => (.error ⟨401, "Not authenticated"⟩, s)

/-- `_require_password`, on behalf of a session. -/
def State.requirePassword {α : Type} (lib : Lib) (s : State) (token : Nat) (sess : Session)
    (password : String) (k : State → Session → Served α) : Served α :=
  if lib.verifyPassword password s.user.passwordHash then
    let sess := { sess with chain := { sess.chain with enrolled := s.enrolled } }
    k (s.setSession token (some sess)) sess
  else (.error ⟨403, "Password required"⟩, s)

/-- `LoginOut.status`, with the token of the new session. -/
structure LoginOut where
  status : String
  token : Nat

/-- `login`, where `limit` is what the limiter answers. -/
def login (lib : Lib) (s : State) (r : Request) (password : String) (limit : Option Refusal) :
    Served LoginOut :=
  match limit with
  | some refusal => (.error refusal, s)
  | none =>
    if !(s.user.active && lib.verifyPassword password s.user.passwordHash) then
      (.error ⟨401, "Invalid credentials"⟩, s)
    else
      let s := s.deleteSession r.session
      let chain : Chain := ⟨s.clock, s.enrolled, []⟩
      let trusted := s.enrolled && s.config.trustedDevices &&
        match r.trustedDevice with
        | some raw => s.trustedDevices.contains raw
        | none => false
      if trusted then
        -- a trusted device stands for the factors the user has
        let chain := { chain with proofs := s.factors.map fun since => ⟨.trustedDevice, since⟩ }
        (.ok ⟨"ok", s.nextToken⟩, s.createSession .full chain)
      else if s.enrolled then
        (.ok ⟨"mfa_required", s.nextToken⟩, s.createSession .mfaPending chain)
      else if s.config.policy = .all ∨ s.config.policy = .privileged ∧ s.user.isSuperadmin = true then
        (.ok ⟨"mfa_setup_required", s.nextToken⟩, s.createSession .mfaSetup chain)
      else (.ok ⟨"ok", s.nextToken⟩, s.createSession .full chain)

/-- `_maybe_remember_device`; `raw` is the token it mints. -/
def State.maybeRememberDevice (s : State) (remember : Bool) (raw : String) : State :=
  if remember && s.config.trustedDevices then
    { s with trustedDevices := s.trustedDevices ++ [raw] }
  else s

/-- A pending session that has proved a factor: it is dropped, and a full one is
made. -/
def State.promote (s : State) (token : Nat) (sess : Session) (p : Proof) : Served LoginOut :=
  (.ok ⟨"ok", s.nextToken⟩, (s.deleteSession (some token)).createSession .full
    { sess.chain with proofs := sess.chain.proofs ++ [p] })

/-- The first unused recovery code that matches is used up. -/
def consumeRecovery (lib : Lib) (code : String) : List RecoveryCode → Option (List RecoveryCode)
  | [] => none
  | c :: cs =>
    if !c.used && lib.matchesRecovery code c.hash then some ({ c with used := true } :: cs)
    else (consumeRecovery lib code cs).map (c :: ·)

/-- `login_mfa`. -/
def loginMfa (lib : Lib) (s : State) (r : Request) (code : String) (now : Nat) (remember : Bool)
    (raw : String) (limit : Option Refusal) : Served LoginOut :=
  s.withSession r fun token sess =>
    if sess.kind ≠ .mfaPending then (.error ⟨400, "No MFA challenge"⟩, s)
    else
      match limit with
      | some refusal => (.error refusal, s)
      | none =>
        match s.totp with
        | none => (.error ⟨400, "No MFA challenge"⟩, s)
        | some row =>
          if !row.enabled then (.error ⟨400, "No MFA challenge"⟩, s)
          else
            match verifyTotp lib row.secret code now row.lastUsedStep with
            | some step =>
              let s := { s with totp := some { row with lastUsedStep := some step } }
              let served := s.promote token sess ⟨.code, row.since⟩
              (served.1, served.2.maybeRememberDevice remember raw)
            | none =>
              match consumeRecovery lib code s.recoveryCodes with
              | some codes =>
                let s := { s with recoveryCodes := codes }
                let served := s.promote token sess ⟨.recoveryCode, row.since⟩
                (served.1, served.2.maybeRememberDevice remember raw)
              | none => (.error ⟨401, "Invalid code"⟩, s)

/-- `login_webauthn_begin`, with the challenge it makes. -/
def loginWebauthnBegin (s : State) (r : Request) (challenge : String) : Served String :=
  s.withSession r fun token sess =>
    if sess.kind ≠ .mfaPending then (.error ⟨400, "No MFA challenge"⟩, s)
    else if !s.config.webauthn then (.error ⟨409, "WebAuthn not configured"⟩, s)
    else (.ok challenge, s.setSession token (some { sess with webauthnChallenge := some challenge }))

def State.findPasskey (s : State) (rawId : Option String) : Option Passkey :=
  rawId.bind fun id => s.passkeys.find? fun key => key.credentialId == id

/-- The passkey's counter is stored. -/
def countPasskey (keys : List Passkey) (id : String) (count : Nat) : List Passkey :=
  keys.map fun key : Passkey => if key.credentialId == id then { key with signCount := count } else key

/-- `login_webauthn_complete`. -/
def loginWebauthnComplete (lib : Lib) (s : State) (r : Request) (rawId : Option String)
    (credential : String) (remember : Bool) (raw : String) (limit : Option Refusal) :
    Served LoginOut :=
  s.withSession r fun token sess =>
    if sess.kind ≠ .mfaPending then (.error ⟨400, "No MFA challenge"⟩, s)
    else
      match sess.webauthnChallenge with
      | none => (.error ⟨400, "No pending WebAuthn challenge"⟩, s)
      | some challenge =>
        match limit with
        | some refusal => (.error refusal, s)
        | none =>
          if !s.config.webauthn then (.error ⟨409, "WebAuthn not configured"⟩, s)
          else
            let verified := (s.findPasskey rawId).bind fun key =>
              (verifyAuthentication lib credential challenge key.publicKey key.signCount).map
                fun count => (key, count)
            match verified with
            | none =>
              -- the challenge is used up by a failure too
              (.error ⟨401, "Invalid passkey"⟩,
                s.setSession token (some { sess with webauthnChallenge := none }))
            | some (key, count) =>
              let s := { s with passkeys := countPasskey s.passkeys key.credentialId count }
              let served := s.promote token sess ⟨.passkey, key.since⟩
              (served.1, served.2.maybeRememberDevice remember raw)

/-- `mfa_setup`, with the secret it makes. -/
def mfaSetup (lib : Lib) (s : State) (r : Request) (password secret : String) : Served String :=
  s.withEnrollment r fun token sess =>
    s.requirePassword lib token sess password fun s _ =>
      (.ok secret, { s with totp := some ⟨secret, false, none, s.clock⟩ })

/-- `mfa_confirm`, with the recovery codes it makes. -/
def mfaConfirm (lib : Lib) (s : State) (r : Request) (code : String) (now : Nat)
    (hashes : List String) : Served (List String) :=
  s.withEnrollment r fun token sess =>
    match s.totp with
    | none => (.error ⟨400, "No pending enrollment"⟩, s)
    | some row =>
      match verifyTotp lib row.secret code now row.lastUsedStep with
      | none => (.error ⟨422, "Invalid code"⟩, s)
      | some step =>
        -- the code proves a factor only if the row was enabled before
        let sess := if row.enabled then { sess with chain := { sess.chain with
          proofs := sess.chain.proofs ++ [⟨.code, row.since⟩] } } else sess
        let since := if row.enabled then row.since else s.clock
        (.ok hashes, State.upgrade { s with
          totp := some { row with enabled := true, lastUsedStep := some step, since := since }
          recoveryCodes := hashes.map fun hash => ⟨hash, false⟩ } token sess)

/-- `mfa_disable`. -/
def mfaDisable (lib : Lib) (s : State) (r : Request) (password : String) : Served Unit :=
  s.withUser r fun token sess =>
    s.requirePassword lib token sess password fun s _ =>
      (.ok (), { s with totp := none, recoveryCodes := [], trustedDevices := [] })

/-- `mfa_regen`. -/
def mfaRegen (lib : Lib) (s : State) (r : Request) (password : String) (hashes : List String) :
    Served (List String) :=
  s.withUser r fun token sess =>
    s.requirePassword lib token sess password fun s _ =>
      if (s.totp.map UserMfa.enabled).getD false then
        (.ok hashes, { s with recoveryCodes := hashes.map fun hash => ⟨hash, false⟩ })
      else (.error ⟨400, "MFA not enabled"⟩, s)

/-- `webauthn_register_begin`, with the challenge it makes. -/
def webauthnRegisterBegin (lib : Lib) (s : State) (r : Request) (password challenge : String) :
    Served String :=
  s.withEnrollment r fun token sess =>
    s.requirePassword lib token sess password fun s sess =>
      if !s.config.webauthn then (.error ⟨409, "WebAuthn not configured"⟩, s)
      else
        (.ok challenge, s.setSession token (some { sess with webauthnChallenge := some challenge }))

/-- `webauthn_register_complete`.  The table refuses a credential it has, of this
user or (`taken`) of another. -/
def webauthnRegisterComplete (lib : Lib) (s : State) (r : Request) (credential : String)
    (taken : Bool) : Served Unit :=
  s.withEnrollment r fun token sess =>
    match sess.webauthnChallenge with
    | none => (.error ⟨400, "No pending WebAuthn challenge"⟩, s)
    | some challenge =>
      if !s.config.webauthn then (.error ⟨409, "WebAuthn not configured"⟩, s)
      else
        let sess := { sess with webauthnChallenge := none }
        match lib.verifyRegRaw credential challenge with
        | none => (.error ⟨422, "WebAuthn verification failed"⟩, s.setSession token (some sess))
        | some (id, publicKey, signCount) =>
          if taken || s.passkeys.any fun key => key.credentialId == id then
            (.error ⟨500, "Internal Server Error"⟩, s)
          else
            (.ok (), State.upgrade { s with
              passkeys := s.passkeys ++ [⟨id, publicKey, signCount, s.clock⟩] } token sess)

/-- `_policy_requires_mfa`. -/
def policyRequiresMfa (policy : Policy) (user : User) : Bool :=
  policy = .all || policy = .privileged && user.isSuperadmin

/-- `webauthn_delete`. -/
def webauthnDelete (s : State) (r : Request) (id : String) : Served Unit :=
  s.withUser r fun _ _ =>
    if !(s.passkeys.any fun key => key.credentialId == id) then (.error ⟨404, "Not found"⟩, s)
    else
      let others := s.passkeys.filter fun key => key.credentialId != id
      if policyRequiresMfa s.config.policy s.user && !(s.totp.map UserMfa.enabled).getD false &&
          others.isEmpty then
        (.error ⟨409, "Cannot remove the last MFA factor while MFA is required"⟩, s)
      else (.ok (), { s with passkeys := others })

/-- `mfa_admin_reset`, by an administrator. -/
def mfaAdminReset (s : State) : State :=
  { s with totp := none, recoveryCodes := [], trustedDevices := [] }

end Mfa

end Opngms
