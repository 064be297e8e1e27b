/-
Opngms/MfaDiscipline.lean

What the requests on the second factor write, one transaction at a time.

A transaction notes at most one thing, and `Explains` says for every key which
change of its row the note stands for.  `Good` is a phase in which every locked
row is explained and the note is `Backed`: the code was valid for the row under
the lock, the recovery code was there, the pending session was deleted.

Each request is then checked by itself: `follows` lemmas, one for each, say that
it commits in good phases only, whatever it reads without a lock.
-/
import Opngms.MfaRequests

namespace Opngms

namespace MfaRequests

open Mfa (verifyTotp verifyAuthentication)
open Transactions Dialogue

/-! ### Good commits -/

/-- The changes of a row that a transaction with these notes makes. -/
def Explains (notes : List Note) : (k : Key) → Option (Val k) → Option (Val k) → Prop
  | .totp, before, now =>
    match notes with
    | [.setup loaded encrypted] =>
      (loaded = none ∧ before = none ∧ now = some (⟨false, encrypted, none, none⟩ : UserMfaRow)) ∨
      ∃ l c : UserMfaRow, loaded = some l ∧ before = some c ∧
        now = some (l.writeBack ⟨false, encrypted, none, none⟩ c)
    | [.confirm row _ _ step] =>
      before = some row ∧ ∃ confirmed, now =
        some ({ row with enabled := true, confirmedAt := some confirmed,
                         lastUsedStep := some step } : UserMfaRow)
    | [.disable] => now = none
    | [.loginCode _ row step] =>
      before = some row ∧ now = some ({ row with lastUsedStep := some step } : UserMfaRow)
    | _ => now = before
  | .code id, before, now =>
    match notes with
    | [.confirm _ _ _ _] => now = none ∨ before = none
    | [.disable] => now = none
    | [.loginRecovery _ consumed] =>
      consumed = id ∧ ∃ row : RecoveryCodeRow, ∃ used, before = some row ∧ row.usedAt = none ∧
        now = some ({ row with usedAt := some used } : RecoveryCodeRow)
    | _ => now = before
  | .passkey id, before, now =>
    match notes with
    | [.remove removed _ _] => removed = id ∧ now = none
    | [.loginPasskey _] => now ≠ none
    | _ => now = before
  | .session _, _, _ => True
  | .trustedDevice _, _, _ => True

/-- A code is valid for a row. -/
def ValidCode (lib : Crypto) (row : UserMfaRow) (code : String) (time : Nat) (step : Int) : Prop :=
  ∃ secret, lib.decrypt row.totpSecretEnc = some secret ∧
    verifyTotp lib.toLib secret code time row.lastUsedStep = some step

/-- What a note stands for. -/
def Backed (lib : Crypto) (ph : Phase Key Val Note) : Note → Prop
  | .confirm row code time step =>
    ValidCode lib row code time step ∧ ph.held .totp ≠ none
  | .loginCode _ row step =>
    (∃ code time, ValidCode lib row code time step) ∧ ph.held .totp ≠ none
  | .loginRecovery _ id => ph.held (.code id) ≠ none
  | .loginPasskey token => ∃ v, ph.held (.session token) = some (some v, none)
  | _ => True

/-- Every locked row is explained by what was noted, and the note is backed. -/
def Good (lib : Crypto) (ph : Phase Key Val Note) : Prop :=
  (∀ k before now, ph.held k = some (before, now) → Explains ph.notes k before now) ∧
    ph.notes.length ≤ 1 ∧ ∀ n ∈ ph.notes, Backed lib ph n

/-- The key of `user_mfa` is the user's. -/
def OwnKey (k : Key) : Prop := k = .totp

abbrev Disc (lib : Crypto) := transaction OwnKey (Good lib)

/-- A request commits in good phases. -/
abbrev Checked (lib : Crypto) (ph : Phase Key Val Note) (p : Req Unit) : Prop :=
  p.Follows (Disc lib) (fun _ _ => True) ph

/-! ### A transaction under way -/

/-- What has been written so far is explained by what will be noted. -/
structure Toward (notes : List Note) (ph : Phase Key Val Note) : Prop where
  silent : ph.notes = []
  explains : ∀ k before now, ph.held k = some (before, now) → Explains notes k before now

section Toward

variable {lib : Crypto} {notes : List Note} {ph : Phase Key Val Note} {k : Key}

theorem toward_clear : Toward notes .clear := ⟨rfl, nofun⟩

theorem Toward.put {before now : Option (Val k)} (h : Toward notes ph)
    (hk : Explains notes k before now) : Toward notes (ph.put k before now) where
  silent := h.silent
  explains := by
    intro k' b n hb
    by_cases hkk : k' = k
    · subst hkk
      rw [Phase.held_put_self] at hb
      cases hb
      exact hk
    · rw [Phase.held_put_of_ne hkk] at hb
      exact h.explains k' b n hb

theorem Toward.session {token : Nat} {before now : Option (Val (.session token))}
    (h : Toward notes ph) : Toward notes (ph.put (.session token) before now) :=
  h.put trivial

theorem Toward.trustedDevice {id : Nat} {before now : Option (Val (.trustedDevice id))}
    (h : Toward notes ph) : Toward notes (ph.put (.trustedDevice id) before now) :=
  h.put trivial

theorem Toward.good (h : Toward [] ph) : Good lib ph := by
  refine ⟨?_, ?_, ?_⟩
  · rw [h.silent]
    exact h.explains
  · simp [h.silent]
  · simp [h.silent]

theorem Toward.checked {n : Note} (h : Toward [n] ph) (hn : Backed lib ph n) :
    Checked lib ph (Sql.note n >>= fun _ => Sql.commit) := by
  apply Sql.follows_note
  have hnotes : ph.notes ++ [n] = [n] := by simp [h.silent]
  rw [hnotes]
  refine Sql.follows_commit ⟨h.explains, by simp, ?_⟩ trivial
  intro m hm
  obtain rfl := List.mem_singleton.mp hm
  cases m <;> exact hn

end Toward

/-! ### The pieces of a request -/

/-- A request goes on without a lock. -/
def Unlocked {α : Type} (ph : Phase Key Val Note) (z : Except Refusal α) : Prop :=
  ∀ a, z = .ok a → ph = .clear

section Pieces

variable {lib : Crypto} {ph : Phase Key Val Note} {k : Key} {f : Val k → Val k} {β : Type}
  {Z : Phase Key Val Note → Except Refusal β → Prop} {g : Unit → Req β}

theorem follows_flush (hZ : ∀ x, Z ph (.error x))
    (h : ∀ v, (g ()).Follows (Disc lib) Z (ph.put k (ph.before k (some v)) (some (f v)))) :
    ((flush k f).bind g).Follows (Disc lib) Z ph := by
  show (((Sql.update k f).bind _).bind g).Follows (Disc lib) Z ph
  rw [bind_assoc]
  apply Sql.follows_modify
  · intro _
    exact hZ _
  · intro v w hw _
    cases hw
    exact h v

theorem follows_flush_held {before : Option (Val k)} {v : Val k}
    (hheld : ph.held k = some (before, some v))
    (h : (g ()).Follows (Disc lib) Z (ph.put k before (some (f v)))) :
    ((flush k f).bind g).Follows (Disc lib) Z ph := by
  show (((Sql.update k f).bind _).bind g).Follows (Disc lib) Z ph
  rw [bind_assoc]
  exact Sql.follows_modify_held hheld rfl h

theorem follows_forUpdate {g : Option (Val k) → Req β} (hfree : ph.held k = none)
    (hnone : (g none).Follows (Disc lib) Z ph)
    (hsome : ∀ v, (g (some v)).Follows (Disc lib) Z (ph.put k (some v) (some v))) :
    ((Sql.forUpdate k).bind g).Follows (Disc lib) Z ph := by
  apply Sql.follows_modify
  · intro _
    exact hnone
  · intro v w hw _
    cases hw
    have hb : ph.before k (some v) = some v := by
      simp [Phase.before, hfree]
    rw [hb]
    exact hsome v

theorem unlocked_ok (a : β) : Unlocked .clear (.ok a : Except Refusal β) := fun _ _ => rfl

theorem unlocked_error (x : Refusal) : Unlocked ph (.error x : Except Refusal β) := nofun

theorem follows_getSessionForToken (r : Caller) (token : Nat) :
    (getSessionForToken r token).Follows (Disc lib) Unlocked .clear := by
  apply Sql.follows_select
  intro found _
  cases found with
  | none => exact unlocked_ok _
  | some sess =>
    show Follows _ _ _ (if _ then _ else _)
    split
    · exact unlocked_ok _
    · split
      · apply follows_flush
        · exact unlocked_error
        · intro v
          apply Sql.follows_commit
          · exact Toward.good (Toward.session toward_clear)
          · exact unlocked_ok _
      · exact unlocked_ok _

theorem checked_session {r : Caller} {g : Nat × SessionRow → Req Unit}
    (h : ∀ x, Checked lib .clear (g x)) : Checked lib .clear ((getCurrentSession r).bind g) := by
  have hsess : (getCurrentSession r).Follows (Disc lib) Unlocked .clear := by
    unfold getCurrentSession
    rcases r.cookie with - | token
    · exact unlocked_error _
    · apply (follows_getSessionForToken r token).bind
      · intro ph found hph
        obtain rfl := hph found rfl
        cases found with
        | none => exact unlocked_error _
        | some sess => exact unlocked_ok _
      · intro ph x _
        exact unlocked_error x
  apply hsess.bind
  · intro ph x hph
    obtain rfl := hph x rfl
    exact h x
  · intro ph x _
    trivial

theorem checked_silent {α : Type} {p : Req α} {g : α → Req Unit} (h : Silent p)
    (hg : ∀ a, Checked lib ph (g a)) : Checked lib ph (p.bind g) :=
  h.follows_bind (fun _ => trivial) hg

theorem silent_enforceCsrf (r : Caller) (sess : SessionRow) : Silent (enforceCsrf r sess) := by
  unfold enforceCsrf
  split
  · exact silent_raise _
  · split
    · exact silent_pure _
    · exact silent_raise _

theorem silent_getCurrentUser (sess : SessionRow) (user : Option Mfa.User) :
    Silent (getCurrentUser sess user) := by
  unfold getCurrentUser
  cases sess.kind with
  | full =>
    cases user with
    | none => exact silent_raise _
    | some user => exact silent_pure user
  | mfaPending => exact silent_raise _
  | mfaSetup => exact silent_raise _

theorem silent_getEnrollmentCtx (sess : SessionRow) (user : Option Mfa.User) :
    Silent (getEnrollmentCtx sess user) := by
  unfold getEnrollmentCtx
  cases sess.kind with
  | mfaPending => exact silent_raise _
  | full | mfaSetup =>
    cases user with
    | none => exact silent_raise _
    | some user => exact silent_pure user

theorem silent_requirePassword (user : Mfa.User) (password : String) :
    Silent (requirePassword lib user password) := by
  unfold requirePassword
  split
  · exact silent_pure _
  · exact silent_raise _

end Pieces

/-! ### Enrollment -/

section Enrollment

variable {lib : Crypto} {ph : Phase Key Val Note}

theorem checked_storeSecret {loaded : Option UserMfaRow} {encrypted : String} {g : Unit → Req Unit}
    (h : ∀ ph, Toward [.setup loaded encrypted] ph → Checked lib ph (g ())) :
    Checked lib .clear ((storeSecret loaded encrypted).bind g) := by
  cases loaded with
  | none =>
    show Checked lib .clear (((Sql.insert Key.totp _).bind _).bind g)
    rw [bind_assoc]
    apply Sql.follows_insert
    · rfl
    · trivial
    · apply h
      exact Toward.put toward_clear (.inl ⟨rfl, rfl, rfl⟩)
  | some row =>
    apply follows_flush
    · exact fun _ => trivial
    · intro current
      apply h
      exact Toward.put toward_clear (.inr ⟨row, current, rfl, rfl, rfl⟩)

theorem checked_mfaSetup (r : Caller) (user : Option Mfa.User) (password encrypted : String) :
    Checked lib .clear (mfaSetup lib r user password encrypted) := by
  apply checked_session
  rintro ⟨token, sess⟩
  apply checked_silent (silent_enforceCsrf r sess)
  intro _
  apply checked_silent (silent_getEnrollmentCtx sess user)
  intro user
  apply checked_silent (silent_requirePassword user password)
  intro _
  apply Sql.follows_select
  intro loaded _
  apply checked_storeSecret
  intro ph hph
  exact hph.checked trivial

theorem checked_deleteWhere {table : Key → Bool} {I : Phase Key Val Note → Prop}
    {g : Unit → Req Unit}
    (hI : ∀ ph k before, table k = true → I ph → I (ph.put k before none)) (h : I ph)
    (hg : ∀ ph, I ph → Checked lib ph (g ())) : Checked lib ph ((deleteWhere table).bind g) := by
  have hdel : (deleteWhere table).Follows (Disc lib) (fun ph z => z = .ok () ∧ I ph) ph := by
    apply Sql.follows_scan
    intro rows hrows
    apply Sql.follows_deleteAll
    · intro ph x v hx hph
      exact hI ph x.1 _ (hrows x hx) hph
    · exact h
  apply hdel.bind
  · rintro ph - ⟨-, hph⟩
    exact hg ph hph
  · intro ph x _
    trivial

theorem eq_code {k : Key} (h : k.isCode = true) : ∃ id, k = .code id := by
  cases k with
  | code id => exact ⟨id, rfl⟩
  | session id => cases h
  | totp => cases h
  | passkey id => cases h
  | trustedDevice id => cases h

theorem eq_trustedDevice {k : Key} (h : k.isTrustedDevice = true) :
    ∃ id, k = .trustedDevice id := by
  cases k with
  | trustedDevice id => exact ⟨id, rfl⟩
  | session id => cases h
  | totp => cases h
  | code id => cases h
  | passkey id => cases h

/-- What has been written so far is explained by a note on a row, which is locked. -/
def NotedOn (key : Key) (n : Note) (ph : Phase Key Val Note) : Prop :=
  Toward [n] ph ∧ ph.held key ≠ none

theorem NotedOn.put {key : Key} {n : Note} {k : Key} {before now : Option (Val k)}
    (h : NotedOn key n ph) (hk : Explains [n] k before now) :
    NotedOn key n (ph.put k before now) := by
  refine ⟨h.1.put hk, ?_⟩
  by_cases hkey : key = k
  · subst hkey
    simp
  · rw [Phase.held_put_of_ne hkey]
    exact h.2

theorem checked_createCodes {I : Phase Key Val Note → Prop} {hashes : List String}
    {g : Unit → Req Unit} (hI : ∀ ph id now, I ph → I (ph.put (.code id) none now)) (h : I ph)
    (hg : ∀ ph, I ph → Checked lib ph (g ())) :
    Checked lib ph ((Sql.createAll Key.code (fun _ => rfl)
      (fun hash _ => (⟨hash, none⟩ : RecoveryCodeRow)) hashes).bind g) := by
  apply (Sql.follows_createAll (fun ph _ n _ hph => hI ph n _ hph) h).bind
  · rintro ph - ⟨-, hph⟩
    exact hg ph hph
  · intro ph x _
    trivial

theorem checked_upgradeSession {I : Phase Key Val Note → Prop} {token : Nat} {sess : SessionRow}
    {g : Unit → Req Unit}
    (hI : ∀ ph token before now, I ph → I (ph.put (.session token) before now))
    (h : I ph) (hg : ∀ ph, I ph → Checked lib ph (g ())) :
    Checked lib ph ((upgradeSession token sess).bind g) := by
  unfold upgradeSession
  split
  · apply follows_flush
    · exact fun _ => trivial
    · intro v
      exact hg _ (hI _ _ _ _ h)
  · exact hg ph h

theorem checked_confirmEnrollment {r : Caller} {token : Nat} {sess : SessionRow}
    {row : UserMfaRow} {code : String} {time : Nat} {step : Int} {hashes : List String}
    (hvalid : ValidCode lib row code time step) :
    Checked lib (Phase.clear.put .totp (some row) (some row))
      (confirmEnrollment r token sess row code time step hashes) := by
  apply follows_flush_held (Phase.held_put_self _ _ _ _)
  rw [UserMfaRow.writeBack_self, Phase.put_put]
  have hstart : NotedOn .totp (.confirm row code time step) (Phase.clear.put .totp (some row)
      (some ({ row with enabled := true, confirmedAt := some r.now,
                        lastUsedStep := some step } : UserMfaRow))) := by
    refine ⟨Toward.put toward_clear ⟨rfl, r.now, rfl⟩, ?_⟩
    simp
  apply checked_deleteWhere _ hstart
  · intro ph hph
    apply checked_createCodes _ hph
    · intro ph hph
      apply checked_upgradeSession _ hph
      · intro ph hph
        exact hph.1.checked ⟨hvalid, hph.2⟩
      · intro ph token before now hph
        exact hph.put trivial
    · intro ph id now hph
      exact hph.put (.inr rfl)
  · intro ph k before hk hph
    obtain ⟨id, rfl⟩ := eq_code hk
    exact hph.put (.inl rfl)

theorem checked_mfaConfirm (r : Caller) (user : Option Mfa.User) (code : String) (time : Nat)
    (hashes : List String) : Checked lib .clear (mfaConfirm lib r user code time hashes) := by
  apply checked_session
  rintro ⟨token, sess⟩
  apply checked_silent (silent_enforceCsrf r sess)
  intro _
  apply checked_silent (silent_getEnrollmentCtx sess user)
  intro user
  apply follows_forUpdate rfl
  · trivial
  intro (row : UserMfaRow)
  show Checked lib _ (if _ then _ else _)
  split
  · trivial
  · cases hsecret : lib.decrypt row.totpSecretEnc with
    | none => trivial
    | some secret =>
      cases hstep : verifyTotp lib.toLib secret code time row.lastUsedStep with
      | none => simp [hstep]
      | some step =>
        simp only [hstep]
        exact checked_confirmEnrollment ⟨secret, hsecret, hstep⟩

theorem checked_mfaDisable (r : Caller) (user : Option Mfa.User) (password : String) :
    Checked lib .clear (mfaDisable lib r user password) := by
  apply checked_session
  rintro ⟨token, sess⟩
  apply checked_silent (silent_enforceCsrf r sess)
  intro _
  apply checked_silent (silent_getCurrentUser sess user)
  intro user
  apply checked_silent (silent_requirePassword user password)
  intro _
  apply checked_deleteWhere (I := Toward [.disable]) _ toward_clear
  · intro ph hph
    apply Sql.follows_select
    intro loaded _
    have hdevices : ∀ ph, Toward [.disable] ph → Checked lib ph
        ((deleteWhere Key.isTrustedDevice).bind fun _ => Sql.note .disable >>= fun _ =>
          Sql.commit) := by
      intro ph hph
      apply checked_deleteWhere _ hph
      · intro ph hph
        exact hph.checked trivial
      · intro ph k before hk hph
        obtain ⟨id, rfl⟩ := eq_trustedDevice hk
        exact hph.trustedDevice
    cases loaded with
    | none => exact hdevices ph hph
    | some row =>
      apply Sql.follows_modify
      · intro _
        exact hdevices ph hph
      · intro v w hw _
        cases hw
        exact hdevices _ (hph.put rfl)
  · intro ph k before hk hph
    obtain ⟨id, rfl⟩ := eq_code hk
    exact hph.put rfl

theorem checked_lastFactorGuard {policy : Mfa.Policy} {user : Mfa.User} {id : Nat}
    {g : Bool × List Key → Req Unit} (h : ∀ seen, Checked lib ph (g seen)) :
    Checked lib ph ((lastFactorGuard policy user id).bind g) := by
  unfold lastFactorGuard
  split
  · apply Sql.follows_select
    intro mfa _
    apply Sql.follows_scan
    intro others _
    show Checked lib ph ((if _ then _ else _ : Req _).bind g)
    split
    · trivial
    · exact h _
  · exact h _

theorem checked_webauthnDelete (r : Caller) (user : Option Mfa.User) (policy : Mfa.Policy)
    (id : Nat) : Checked lib .clear (webauthnDelete r user policy id) := by
  apply checked_session
  rintro ⟨token, sess⟩
  apply checked_silent (silent_enforceCsrf r sess)
  intro _
  apply checked_silent (silent_getCurrentUser sess user)
  intro user
  apply Sql.follows_select
  intro cred _
  cases cred with
  | none => trivial
  | some row =>
    apply checked_lastFactorGuard
    rintro ⟨hasTotp, others⟩
    apply Sql.follows_modify
    · intro _
      exact Toward.checked toward_clear trivial
    · intro v w hw _
      cases hw
      exact Toward.checked (Toward.put toward_clear ⟨rfl, rfl⟩) trivial

end Enrollment

/-! ### Logins -/

section Logins

variable {lib : Crypto} {ph : Phase Key Val Note}

theorem checked_failLogin {detail : String} (h : Toward [] ph) :
    Checked lib ph (failLogin detail) :=
  Sql.follows_commit h.good trivial

/-- The end of a login keeps what a change of a session or of a trusted device
keeps, with the pending session deleted. -/
theorem checked_promote {I : Phase Key Val Note → Prop} {token : Nat} {full : SessionRow}
    {remember : Option String} {n : Note}
    (hsession : ∀ ph k before now, I ph → I (ph.put (.session k) before now))
    (hdevice : ∀ ph k before now, I ph → I (ph.put (.trustedDevice k) before now))
    (hI : ∀ ph, I ph → Toward [n] ph) (h : I ph)
    (hn : ∀ ph', I ph' → (∀ b v, ph.held (.session token) = some (b, some v) →
      ph'.held (.session token) = some (b, none)) → Backed lib ph' n) :
    Checked lib ph (promote token full remember n) := by
  -- the new session has another token
  have hend : ∀ ph', I ph' → (∀ b v, ph.held (.session token) = some (b, some v) →
      ph'.held (.session token) = some (b, none)) →
      Checked lib ph' ((maybeRememberDevice remember).bind fun _ =>
        Sql.note n >>= fun _ => Sql.commit) := by
    intro ph' hph' hdeleted
    cases remember with
    | none => exact (hI _ hph').checked (hn _ hph' hdeleted)
    | some raw =>
      apply Sql.follows_create
      intro m _
      have hput := hdevice _ m none (some raw) hph'
      refine (hI _ hput).checked (hn _ hput ?_)
      intro b v hb
      rw [Phase.held_put_of_ne (by simp)]
      exact hdeleted b v hb
  have hmint : ∀ ph', I ph' → (∀ b v, ph.held (.session token) = some (b, some v) →
      ph'.held (.session token) = some (b, none)) →
      Checked lib ph' ((Sql.create Key.session (fun _ => rfl) fun _ => full).bind fun _ =>
        (maybeRememberDevice remember).bind fun _ => Sql.note n >>= fun _ => Sql.commit) := by
    intro ph' hph' hdeleted
    apply Sql.follows_create
    intro m hm
    apply hend _ (hsession _ m none (some full) hph')
    intro b v hb
    have hne : Key.session token ≠ Key.session m := by
      intro he
      rw [← he, hdeleted b v hb] at hm
      cases hm
    rw [Phase.held_put_of_ne hne]
    exact hdeleted b v hb
  apply Sql.follows_modify
  · intro hno
    apply hmint ph h
    intro b v hb
    cases hno b v hb
  · intro v w hw _
    cases hw
    apply hmint _ (hsession _ token _ none h)
    intro b u hb
    rw [Phase.held_put_self]
    simp [Phase.before, hb]

theorem checked_loginRecovery {r : Caller} {token : Nat} {full : SessionRow}
    {remember : Option String} {code : String} {row : UserMfaRow} :
    Checked lib (Phase.clear.put .totp (some row) (some row))
      (loginRecovery lib r token full remember code) := by
  have hlocked : ∀ notes, Explains notes .totp (some row) (some row) →
      Toward notes (Phase.clear.put .totp (some row) (some row)) :=
    fun notes h => Toward.put toward_clear h
  apply Sql.follows_scan
  intro codes _
  cases findRecoveryMatch lib code codes with
  | none => exact checked_failLogin (hlocked [] rfl)
  | some id =>
    show Checked lib _ (((Sql.modify (Key.code id) _).bind _).bind _)
    rw [bind_assoc]
    apply Sql.follows_modify
    · intro _
      exact checked_failLogin (hlocked [] rfl)
    · intro c w hw _
      -- the guarded update found the code unused
      split at hw
      · rename_i hunused
        cases hw
        have hstart : NotedOn (.code id) (.loginRecovery token id)
            ((Phase.clear.put .totp (some row) (some row)).put (.code id) (some c)
              (some ({ c with usedAt := some r.now } : RecoveryCodeRow))) := by
          refine ⟨(hlocked [.loginRecovery token id] rfl).put ?_, by simp⟩
          exact ⟨rfl, c, r.now, rfl, hunused, rfl⟩
        apply checked_promote _ _ (fun ph hph => hph.1) hstart
        · intro ph hph _
          exact hph.2
        · intro ph k before now hph
          exact hph.put trivial
        · intro ph k before now hph
          exact hph.put trivial
      · cases hw

theorem checked_loginMfa (r : Caller) (user : Option Mfa.User) (limit : Option Refusal)
    (code : String) (time : Nat) (full : SessionRow) (remember : Option String) :
    Checked lib .clear (loginMfa lib r user limit code time full remember) := by
  apply checked_session
  rintro ⟨token, sess⟩
  apply checked_silent (silent_enforceCsrf r sess)
  intro _
  show Checked lib _ (if _ then _ else _)
  split
  · trivial
  cases limit with
  | some refusal => trivial
  | none =>
    apply follows_forUpdate rfl
    · cases user <;> trivial
    intro (row : UserMfaRow)
    cases user with
    | none => trivial
    | some user =>
      show Checked lib _ (if _ then _ else _)
      split
      · trivial
      cases hsecret : lib.decrypt row.totpSecretEnc with
      | none => trivial
      | some secret =>
        cases hstep : verifyTotp lib.toLib secret code time row.lastUsedStep with
        | none =>
          simp only [hstep]
          exact checked_loginRecovery
        | some step =>
          simp only [hstep]
          apply follows_flush_held (Phase.held_put_self _ _ _ _)
          rw [UserMfaRow.writeBack_self, Phase.put_put]
          have hstart : NotedOn .totp (.loginCode token row step) (Phase.clear.put .totp (some row)
              (some ({ row with lastUsedStep := some step } : UserMfaRow))) := by
            refine ⟨Toward.put toward_clear ⟨rfl, rfl⟩, ?_⟩
            simp
          apply checked_promote _ _ (fun ph hph => hph.1) hstart
          · intro ph hph _
            exact ⟨⟨code, time, secret, hsecret, hstep⟩, hph.2⟩
          · intro ph k before now hph
            exact hph.put trivial
          · intro ph k before now hph
            exact hph.put trivial

theorem checked_lockPasskey {user : Option Mfa.User} {rawId : Option String}
    {g : Option (Nat × PasskeyRow) → Req Unit} (hnone : Checked lib .clear (g none))
    (hsome : ∀ id row, Checked lib (Phase.clear.put (.passkey id) (some row) (some row))
      (g (some (id, row)))) : Checked lib .clear ((lockPasskey user rawId).bind g) := by
  cases user with
  | none => exact hnone
  | some user =>
    cases rawId with
    | none => exact hnone
    | some rawId =>
      show Checked lib .clear (((Sql.scan Key.isPasskey).bind _).bind g)
      rw [bind_assoc]
      apply Sql.follows_scan
      intro keys _
      cases findPasskey rawId keys with
      | none => exact hnone
      | some id =>
        refine follows_forUpdate (k := Key.passkey id)
          (g := fun row => g (row.map fun row => (id, row))) rfl ?_ ?_
        · exact hnone
        · intro row
          exact hsome id row

theorem checked_loginWebauthnComplete (r : Caller) (user : Option Mfa.User)
    (limit : Option Refusal) (configured : Bool) (rawId : Option String) (credential : String)
    (full : SessionRow) (remember : Option String) :
    Checked lib .clear
      (loginWebauthnComplete lib r user limit configured rawId credential full remember) := by
  apply checked_session
  rintro ⟨token, sess⟩
  apply checked_silent (silent_enforceCsrf r sess)
  intro _
  show Checked lib _ (if _ then _ else _)
  split
  · trivial
  cases SessionRow.webauthnChallenge sess |>.filter fun challenge => challenge != "" with
  | none => trivial
  | some challenge =>
    cases limit with
    | some refusal => trivial
    | none =>
      show Checked lib _ (if _ then _ else _)
      split
      · trivial
      have hfail : ∀ ph, Toward [] ph → Checked lib ph
          ((flush (.session token) fun row : SessionRow => { row with webauthnChallenge := none })
            >>= fun _ => failLogin "Invalid passkey") := by
        intro ph hph
        apply follows_flush
        · exact fun _ => trivial
        · intro v
          exact checked_failLogin hph.session
      apply checked_lockPasskey
      · exact hfail _ toward_clear
      · intro id (row : PasskeyRow)
        simp only [Option.bind_some]
        cases hverify : verifyAuthentication lib.toLib credential challenge row.publicKey
            row.signCount with
        | none =>
          simp only [Option.map_none]
          exact hfail _ (Toward.put toward_clear rfl)
        | some count =>
          simp only [Option.map_some]
          have hhead : Toward [.loginPasskey token] (Phase.clear.put (.passkey id) (some row)
              (some ({ row with signCount := count, lastUsedAt := some r.now } : PasskeyRow))) :=
            Toward.put toward_clear (by simp [Explains])
          refine follows_flush_held (Phase.held_put_self _ _ _ _) ?_
          rw [Phase.put_put]
          apply follows_flush
          · exact fun _ => trivial
          · intro v
            apply checked_promote _ _ (fun ph hph => hph) hhead.session
            · intro ph _ hdeleted
              -- the session was there, as its challenge was written back
              exact ⟨v, hdeleted _ _ (Phase.held_put_self _ _ _ _)⟩
            · intro ph k before now hph
              exact hph.session
            · intro ph k before now hph
              exact hph.trustedDevice

end Logins

/-! ### Runs -/

/-- The requests that run. -/
inductive Request where
  | setup (r : Caller) (user : Option Mfa.User) (password encrypted : String)
  | confirm (r : Caller) (user : Option Mfa.User) (code : String) (time : Nat)
      (hashes : List String)
  | disable (r : Caller) (user : Option Mfa.User) (password : String)
  | delete (r : Caller) (user : Option Mfa.User) (policy : Mfa.Policy) (id : Nat)
  | loginMfa (r : Caller) (user : Option Mfa.User) (limit : Option Refusal) (code : String)
      (time : Nat) (full : SessionRow) (remember : Option String)
  | loginWebauthn (r : Caller) (user : Option Mfa.User) (limit : Option Refusal)
      (configured : Bool) (rawId : Option String) (credential : String) (full : SessionRow)
      (remember : Option String)

/-- The statements of a request. -/
def Request.program (lib : Crypto) : Request → Req Unit
  | setup r user password encrypted => mfaSetup lib r user password encrypted
  | confirm r user code time hashes => mfaConfirm lib r user code time hashes
  | disable r user password => mfaDisable lib r user password
  | delete r user policy id => webauthnDelete r user policy id
  | loginMfa r user limit code time full remember =>
    MfaRequests.loginMfa lib r user limit code time full remember
  | loginWebauthn r user limit configured rawId credential full remember =>
    loginWebauthnComplete lib r user limit configured rawId credential full remember

theorem checked_request (lib : Crypto) (q : Request) : Checked lib .clear (q.program lib) := by
  cases q with
  | setup r user password encrypted => exact checked_mfaSetup r user password encrypted
  | confirm r user code time hashes => exact checked_mfaConfirm r user code time hashes
  | disable r user password => exact checked_mfaDisable r user password
  | delete r user policy id => exact checked_webauthnDelete r user policy id
  | loginMfa r user limit code time full remember =>
    exact checked_loginMfa r user limit code time full remember
  | loginWebauthn r user limit configured rawId credential full remember =>
    exact checked_loginWebauthnComplete r user limit configured rawId credential full remember

abbrev Requests := Programs Key Val Note Refusal

def start (lib : Crypto) (d : Rows) (reqs : Nat → Option Request) : Requests where
  world := d
  threads i := (reqs i).map fun q => q.program lib

theorem disciplined_start {lib : Crypto} {d : Rows} (hd : d.Idle) (reqs : Nat → Option Request) :
    Disciplined OwnKey (Good lib) (start lib d reqs) := by
  apply disciplined_of_idle hd
  intro i t ht
  obtain ⟨q, -, rfl⟩ := Option.map_eq_some_iff.mp ht
  exact checked_request lib q

theorem row_of_held {lib : Crypto} {d : Rows} {i : Nat} {k : Key} (h : Good lib (d.phase i))
    (hheld : (d.phase i).held k ≠ none) :
    Explains (d.phase i).notes k (d.row k) ((d.commit i).row k) := by
  obtain ⟨⟨before, now⟩, hk⟩ := Option.ne_none_iff_exists'.mp hheld
  have hrow := Db.row_commit (d := d) (i := i) (k := k)
  rw [hk] at hrow
  rw [hrow, (Db.row_of_held hk).1]
  exact h.1 k before now hk

theorem row_of_good {lib : Crypto} {d : Rows} {i : Nat} (h : Good lib (d.phase i)) (k : Key) :
    (d.commit i).row k = d.row k ∨
      Explains (d.phase i).notes k (d.row k) ((d.commit i).row k) := by
  by_cases hheld : (d.phase i).held k = none
  · have hrow := Db.row_commit (d := d) (i := i) (k := k)
    rw [hheld] at hrow
    exact .inl hrow
  · exact .inr (row_of_held h hheld)

theorem notes_of_good {lib : Crypto} {ph : Phase Key Val Note} (h : Good lib ph) :
    ph.notes = [] ∨ ∃ n, ph.notes = [n] ∧ Backed lib ph n := by
  obtain ⟨-, hlen, hback⟩ := h
  match hn : ph.notes with
  | [] => exact .inl rfl
  | [n] => exact .inr ⟨n, rfl, hback n (by simp [hn])⟩
  | m :: n :: rest => simp [hn] at hlen

end MfaRequests

end Opngms
