/-
Opngms/MfaReset.lean

What the login is like after a reset of the second factor: `mfa_admin_reset`
(`app/api/mfa.py`) and the break-glass `reset_user_mfa` (`app/cli.py`).

Both delete the row of `user_mfa` and the recovery codes, and neither deletes a
passkey.  The login looks at both tables.  So for a user without a passkey a reset
is what it is meant to be: until a factor is enrolled again, every login with the
password leads to the enrollment, or to a full session if the policy does not ask
for one.  A user with a passkey is challenged for it.
-/
import Opngms.MfaRuns

namespace Opngms

namespace Mfa

/-- `reset_user_mfa`. -/
def resetUserMfa (s : State) : State := { s with totp := none, recoveryCodes := [] }

/-- The two resets. -/
inductive Reset where
  | admin
  | cli
  deriving DecidableEq

def Reset.apply : Reset → State → State
  | admin, s => mfaAdminReset s
  | cli, s => resetUserMfa s

/-! ### Enrollment -/

/-- The request enrolls a factor. -/
def enrolls (lib : Lib) (s : State) : Event → Bool
  | .mfaConfirm r code now hashes => (mfaConfirm lib s r code now hashes).1.isOk
  | .webauthnRegisterComplete r credential taken =>
    (webauthnRegisterComplete lib s r credential taken).1.isOk
  | _ => false

/-- The login with the right password is not challenged: it leads to the enrollment
if the policy requires MFA and to a full session otherwise, and proves nothing. -/
def LoginUnchallenged (lib : Lib) (s : State) : Prop :=
  ∀ r password, s.user.active = true → lib.verifyPassword password s.user.passwordHash = true →
    ∃ out kind, (login lib s r password none).1 = .ok out ∧
      (out.status, kind) = (if policyRequiresMfa s.config.policy s.user then
        ("mfa_setup_required", Kind.mfaSetup) else ("ok", Kind.full)) ∧
      ∃ sess, (login lib s r password none).2.sessions out.token = some sess ∧
        sess.kind = kind ∧ sess.chain.proofs = []

/-- No factor completes a login. -/
def NoFactorAccepted (lib : Lib) (s : State) : Prop :=
  (∀ r code now remember raw limit,
    (loginMfa lib s r code now remember raw limit).1.isOk = false) ∧
  ∀ r rawId credential remember raw limit,
    (loginWebauthnComplete lib s r rawId credential remember raw limit).1.isOk = false

/-- From this state on, until a factor is enrolled, logins are not challenged and
no factor completes one. -/
def FreshEnrollment (lib : Lib) (s : State) : Prop :=
  ∀ es s', Along (step lib) (fun s e => enrolls lib s e = false) s es →
    runAll (step lib) s es = some s' → LoginUnchallenged lib s' ∧ NoFactorAccepted lib s'

/-! ### Users without a factor -/

/-- The user has no enabled factor. -/
structure NoFactor (s : State) : Prop where
  totp : ∀ row, s.totp = some row → row.enabled = false
  passkeys : s.passkeys = []

section NoFactor

variable {lib : Lib} {s s' : State}

theorem NoFactor.congr (h : NoFactor s) (htotp : s'.totp = s.totp)
    (hkeys : s'.passkeys = s.passkeys) : NoFactor s' where
  totp := by
    rw [htotp]
    exact h.totp
  passkeys := hkeys.trans h.passkeys

theorem NoFactor.enrolled (h : NoFactor s) : s.enrolled = false := by
  by_contra he
  obtain ⟨since, hsince⟩ := List.exists_mem_of_ne_nil _ (enrolled_iff.mp (by simpa using he))
  rcases mem_factors.mp hsince with ⟨row, hrow, henabled, -⟩ | ⟨key, hkey, -⟩
  · rw [h.totp row hrow] at henabled
    cases henabled
  · rw [h.passkeys] at hkey
    cases hkey

end NoFactor

/-! ### What every request passes first -/

section Guards

variable {α : Type} {lib : Lib} {s : State} {r : Request} {k : Nat → Session → Served α}
  {P : Served α → Prop}

theorem served_withSession (herr : ∀ x, P (.error x, s)) (hk : ∀ token sess, P (k token sess)) :
    P (s.withSession r k) := by
  unfold State.withSession
  split
  · exact herr _
  · split
    · exact herr _
    · split
      · exact hk _ _
      · exact herr _

theorem served_withUser (herr : ∀ x, P (.error x, s)) (hk : ∀ token sess, P (k token sess)) :
    P (s.withUser r k) := by
  apply served_withSession herr
  intro token sess
  cases sess.kind with
  | full => exact hk token sess
  | mfaSetup => exact herr _
  | mfaPending => exact herr _

theorem served_withEnrollment (herr : ∀ x, P (.error x, s)) (hk : ∀ token sess, P (k token sess)) :
    P (s.withEnrollment r k) := by
  apply served_withSession herr
  intro token sess
  cases sess.kind with
  | full => exact hk token sess
  | mfaSetup => exact hk token sess
  | mfaPending => exact herr _

theorem served_requirePassword {token : Nat} {sess : Session} {password : String}
    {k : State → Session → Served α} (herr : ∀ x, P (.error x, s))
    (hk : ∀ sess sess', P (k (s.setSession token sess) sess')) :
    P (s.requirePassword lib token sess password k) := by
  unfold State.requirePassword
  split
  · exact hk _ _
  · exact herr _

end Guards

/-! ### Requests that enroll nothing -/

section Requests

variable {lib : Lib} {s : State} {r : Request}

def LeavesNone {α : Type} (served : Served α) : Prop := NoFactor served.2

theorem leavesNone_rows {α : Type} {served : Served α} (h : NoFactor s)
    (htotp : served.2.totp = s.totp) (hkeys : served.2.passkeys = s.passkeys) :
    LeavesNone served :=
  h.congr htotp hkeys

theorem noFactor_deleteSession (h : NoFactor s) (token : Option Nat) :
    NoFactor (s.deleteSession token) := by
  cases token with
  | none => exact h
  | some token => exact h.congr rfl rfl

theorem noFactor_login (h : NoFactor s) (password : String) (limit : Option Refusal) :
    NoFactor (login lib s r password limit).2 := by
  unfold login
  cases limit with
  | some refusal => exact h
  | none =>
    dsimp only
    split
    · exact h
    have hdel := noFactor_deleteSession h r.session
    generalize s.deleteSession r.session = s₁ at hdel ⊢
    split_ifs
    · exact hdel.congr rfl rfl
    · exact hdel.congr rfl rfl
    · exact hdel.congr rfl rfl
    · exact hdel.congr rfl rfl

def Refused {α : Type} (served : Served α) : Prop := served.1.isOk = false ∧ LeavesNone served

theorem loginMfa_refused (h : NoFactor s) (code : String) (now : Nat) (remember : Bool)
    (raw : String) (limit : Option Refusal) :
    Refused (loginMfa lib s r code now remember raw limit) := by
  have herr : ∀ x, Refused ((.error x, s) : Served LoginOut) := fun x => ⟨rfl, h⟩
  apply served_withSession herr
  intro token sess
  dsimp only
  split
  · exact herr _
  cases limit with
  | some refusal => exact herr _
  | none =>
    cases hrow : s.totp with
    | none => exact herr _
    | some row =>
      dsimp only
      rw [h.totp row hrow]
      exact herr _

theorem loginWebauthnComplete_refused (h : NoFactor s) (rawId : Option String)
    (credential : String) (remember : Bool) (raw : String) (limit : Option Refusal) :
    Refused (loginWebauthnComplete lib s r rawId credential remember raw limit) := by
  have herr : ∀ x, Refused ((.error x, s) : Served LoginOut) := fun x => ⟨rfl, h⟩
  have hnone : s.findPasskey rawId = none := by
    unfold State.findPasskey
    rw [h.passkeys]
    cases rawId <;> rfl
  apply served_withSession herr
  intro token sess
  dsimp only
  split
  · exact herr _
  cases sess.webauthnChallenge with
  | none => exact herr _
  | some challenge =>
    cases limit with
    | some refusal => exact herr _
    | none =>
      dsimp only
      split
      · exact herr _
      · rw [hnone]
        exact ⟨rfl, h.congr rfl rfl⟩

theorem mfaConfirm_leavesNone (h : NoFactor s) {code : String} {now : Nat} {hashes : List String}
    (hno : (mfaConfirm lib s r code now hashes).1.isOk = false) :
    NoFactor (mfaConfirm lib s r code now hashes).2 := by
  revert hno
  refine served_withEnrollment (P := fun served => served.1.isOk = false → NoFactor served.2)
    (fun x _ => h) ?_
  intro token sess
  cases s.totp with
  | none => exact fun _ => h
  | some row =>
    dsimp only
    cases verifyTotp lib row.secret code now row.lastUsedStep with
    | none => exact fun _ => h
    | some step => exact fun hno => by cases hno

theorem webauthnRegisterComplete_leavesNone (h : NoFactor s) {credential : String} {taken : Bool}
    (hno : (webauthnRegisterComplete lib s r credential taken).1.isOk = false) :
    NoFactor (webauthnRegisterComplete lib s r credential taken).2 := by
  revert hno
  refine served_withEnrollment (P := fun served => served.1.isOk = false → NoFactor served.2)
    (fun x _ => h) ?_
  intro token sess
  cases sess.webauthnChallenge with
  | none => exact fun _ => h
  | some challenge =>
    dsimp only
    split
    · exact fun _ => h
    cases lib.verifyRegRaw credential challenge with
    | none => exact fun _ => h.congr rfl rfl
    | some verified =>
      dsimp only
      split
      · exact fun _ => h
      · exact fun hno => by cases hno

/-- A request that enrolls nothing leaves a user without a factor without one. -/
theorem noFactor_serve {e : Event} (h : NoFactor s) (hno : enrolls lib s e = false) :
    NoFactor (serve lib s e) := by
  cases e with
  | login r password limit => exact noFactor_login h password limit
  | loginMfa r code now remember raw limit =>
    exact (loginMfa_refused h code now remember raw limit).2
  | loginWebauthnBegin r challenge =>
    refine served_withSession (P := LeavesNone) (fun x => h) fun token sess => ?_
    split_ifs
    · exact h
    · exact h
    · exact leavesNone_rows h rfl rfl
  | loginWebauthnComplete r rawId credential remember raw limit =>
    exact (loginWebauthnComplete_refused h rawId credential remember raw limit).2
  | mfaSetup r password secret =>
    -- the new secret is not enabled yet
    refine served_withEnrollment (P := LeavesNone) (fun x => h) fun token sess => ?_
    refine served_requirePassword (fun x => h) fun sess' sess'' => ?_
    refine ⟨fun row hrow => ?_, h.passkeys⟩
    cases hrow
    rfl
  | mfaConfirm r code now hashes => exact mfaConfirm_leavesNone h hno
  | mfaDisable r password =>
    refine served_withUser (P := LeavesNone) (fun x => h) fun token sess => ?_
    exact served_requirePassword (fun x => h) fun sess' sess'' => ⟨nofun, h.passkeys⟩
  | mfaRegen r password hashes =>
    refine served_withUser (P := LeavesNone) (fun x => h) fun token sess => ?_
    refine served_requirePassword (fun x => h) fun sess' sess'' => ?_
    split
    · exact leavesNone_rows h rfl rfl
    · exact leavesNone_rows h rfl rfl
  | webauthnRegisterBegin r password challenge =>
    refine served_withEnrollment (P := LeavesNone) (fun x => h) fun token sess => ?_
    refine served_requirePassword (fun x => h) fun sess' sess'' => ?_
    split
    · exact leavesNone_rows h rfl rfl
    · exact leavesNone_rows h rfl rfl
  | webauthnRegisterComplete r credential taken => exact webauthnRegisterComplete_leavesNone h hno
  | webauthnDelete r id =>
    refine served_withUser (P := LeavesNone) (fun x => h) fun token sess => ?_
    dsimp only
    rw [h.passkeys]
    exact h
  | mfaAdminReset => exact ⟨nofun, h.passkeys⟩
  | endSession token => exact noFactor_deleteSession h (some token)
  | endTrust raw => exact h.congr rfl rfl
  | configure user config => exact h.congr rfl rfl

end Requests

/-! ### The login after a reset -/

section Login

variable {lib : Lib} {s : State}

theorem sessions_createSession (s : State) (kind : Kind) (chain : Chain) :
    (s.createSession kind chain).sessions s.nextToken = some ⟨kind, none, chain⟩ :=
  Function.update_self ..

theorem login_unchallenged (h : NoFactor s) : LoginUnchallenged lib s := by
  intro r password hactive hpassword
  have hdel := noFactor_deleteSession h r.session
  have hconfig : (s.deleteSession r.session).config = s.config := by cases r.session <;> rfl
  have huser : (s.deleteSession r.session).user = s.user := by cases r.session <;> rfl
  unfold login
  dsimp only
  rw [hactive, hpassword]
  generalize s.deleteSession r.session = s₁ at hdel hconfig huser ⊢
  rw [← hconfig, ← huser, hdel.enrolled]
  simp only [Bool.and_self, Bool.not_true, Bool.false_and, Bool.false_eq_true, if_false]
  have hiff : policyRequiresMfa s₁.config.policy s₁.user = true ↔
      s₁.config.policy = .all ∨ s₁.config.policy = .privileged ∧ s₁.user.isSuperadmin = true := by
    simp [policyRequiresMfa]
  by_cases hpolicy : policyRequiresMfa s₁.config.policy s₁.user = true
  · rw [if_pos hpolicy, if_pos (hiff.mp hpolicy)]
    exact ⟨_, _, rfl, rfl, _, sessions_createSession _ _ _, rfl, rfl⟩
  · rw [if_neg hpolicy, if_neg (mt hiff.mpr hpolicy)]
    exact ⟨_, _, rfl, rfl, _, sessions_createSession _ _ _, rfl, rfl⟩

theorem login_challenged {key : Passkey} (hkey : key ∈ s.passkeys) (hactive : s.user.active = true)
    {password : String} (hpassword : lib.verifyPassword password s.user.passwordHash = true) :
    ∃ token, (login lib s ⟨none, false, none⟩ password none).1 = .ok ⟨"mfa_required", token⟩ := by
  have henrolled : s.enrolled = true :=
    enrolled_iff.mpr (List.ne_nil_of_mem (mem_factors.mpr (.inr ⟨key, hkey, rfl⟩)))
  refine ⟨s.nextToken, ?_⟩
  simp [login, hactive, hpassword, State.deleteSession, henrolled]

theorem Reset.noFactor (h : s.passkeys = []) (reset : Reset) : NoFactor (reset.apply s) := by
  cases reset with
  | admin => exact ⟨nofun, h⟩
  | cli => exact ⟨nofun, h⟩

theorem Reset.keeps (reset : Reset) (s : State) :
    (reset.apply s).user = s.user ∧ (reset.apply s).passkeys = s.passkeys := by
  cases reset <;> exact ⟨rfl, rfl⟩

/-- **A reset forces a fresh enrollment exactly if the user has no passkey.** -/
theorem reset_freshEnrollment (lib : Lib) (s : State) (reset : Reset) (password : String)
    (hactive : s.user.active = true)
    (hpassword : lib.verifyPassword password s.user.passwordHash = true) :
    FreshEnrollment lib (reset.apply s) ↔ s.passkeys = [] := by
  constructor
  · intro h
    by_contra hkeys
    obtain ⟨key, hkey⟩ := List.exists_mem_of_ne_nil _ hkeys
    obtain ⟨huser, hpasskeys⟩ := reset.keeps s
    rw [← huser] at hactive hpassword
    rw [← hpasskeys] at hkey
    obtain ⟨hlogin, -⟩ := h [] _ trivial rfl
    obtain ⟨out, kind, hout, hstatus, -⟩ := hlogin ⟨none, false, none⟩ password hactive hpassword
    obtain ⟨token, htoken⟩ := login_challenged hkey hactive hpassword
    obtain rfl := Except.ok.inj (hout.symm.trans htoken)
    split at hstatus
    · exact absurd (congrArg Prod.fst hstatus) (by simp)
    · exact absurd (congrArg Prod.fst hstatus) (by simp)
  · intro hkeys es s' halong hrun
    have hend : NoFactor s' := by
      refine runAll_invariant ?_ (reset.noFactor hkeys) halong hrun
      intro s e s' h hno hstep
      cases hstep
      exact (noFactor_serve h hno).congr rfl rfl
    refine ⟨login_unchallenged hend, ?_, ?_⟩
    · intro r code now remember raw limit
      exact (loginMfa_refused hend code now remember raw limit).1
    · intro r rawId credential remember raw limit
      exact (loginWebauthnComplete_refused hend rawId credential remember raw limit).1

end Login

/-! ### A passkey that a reset leaves -/

/-- A user with a TOTP, a passkey and a trusted device. -/
def enrolledState (passkeys : List Passkey) : State where
  clock := 1
  user := ⟨true, false, "password"⟩
  config := ⟨.all, true, true⟩
  totp := some ⟨"secret", true, none, 0⟩
  recoveryCodes := [⟨"recovery", false⟩]
  passkeys := passkeys
  trustedDevices := ["device"]
  sessions _ := none
  nextToken := 0
  fulls := []

/-- Libraries that accept the password as its own hash. -/
def passwordLib : Lib where
  verifyPassword password hash := password == hash
  digits _ := none
  totpAt _ _ := ""
  matchesRecovery _ _ := false
  verifyRegRaw _ _ := none
  verifyAuthRaw _ _ _ _ := some 0

theorem reset_freshEnrollment_noPasskey :
    FreshEnrollment passwordLib (Reset.cli.apply (enrolledState [])) ↔
      (enrolledState []).passkeys = [] :=
  reset_freshEnrollment passwordLib (enrolledState []) .cli "password" rfl (by decide)

theorem passkey_challenged (reset : Reset) :
    ¬ FreshEnrollment passwordLib (reset.apply (enrolledState [⟨"id", "key", 0, 0⟩])) := by
  intro h
  obtain ⟨hlogin, -⟩ := h [] _ trivial rfl
  obtain ⟨huser, -⟩ := reset.keeps (enrolledState [⟨"id", "key", 0, 0⟩])
  have hactive : (reset.apply (enrolledState [⟨"id", "key", 0, 0⟩])).user.active = true := by
    rw [huser]
    rfl
  obtain ⟨out, kind, hout, hstatus, -⟩ := hlogin ⟨none, false, none⟩ "password" hactive (by
    rw [huser]
    decide)
  have hne : "mfa_required" ≠ "mfa_setup_required" := by decide
  cases reset <;> cases hout <;> exact hne (congrArg Prod.fst hstatus)

/-- After either reset a login is challenged for the passkey from before it. -/
theorem reset_leaves_passkey :
    ¬ FreshEnrollment passwordLib (Reset.admin.apply (enrolledState [⟨"id", "key", 0, 0⟩])) ∧
      ¬ FreshEnrollment passwordLib (Reset.cli.apply (enrolledState [⟨"id", "key", 0, 0⟩])) :=
  ⟨passkey_challenged .admin, passkey_challenged .cli⟩

end Mfa

end Opngms
