/-
Opngms/MfaRuns.lean

Every order of the requests of one user's sessions.

The kind of a session is decided at the login, from the factors the user had
then, and stays when they change.  So an `mfa_setup` session that was made before
the user enrolled can be used for an enrollment of its own after it: whoever
knows the password replaces the factor and gets a full session
(`reusedSetup_bypasses`).  If no password is accepted from such a session, and a
pending session proves a factor it was made under, then each session that
becomes full has proved a factor, unless the user had none
(**`full_sessions_backed`**).
-/
import Opngms.Mfa
import Opngms.Pool

namespace Opngms

namespace Mfa

/-! ### Requests in any order -/

inductive Event where
  | login (r : Request) (password : String) (limit : Option Refusal)
  | loginMfa (r : Request) (code : String) (now : Nat) (remember : Bool) (raw : String)
      (limit : Option Refusal)
  | loginWebauthnBegin (r : Request) (challenge : String)
  | loginWebauthnComplete (r : Request) (rawId : Option String) (credential : String)
      (remember : Bool) (raw : String) (limit : Option Refusal)
  | mfaSetup (r : Request) (password secret : String)
  | mfaConfirm (r : Request) (code : String) (now : Nat) (hashes : List String)
  | mfaDisable (r : Request) (password : String)
  | mfaRegen (r : Request) (password : String) (hashes : List String)
  | webauthnRegisterBegin (r : Request) (password challenge : String)
  | webauthnRegisterComplete (r : Request) (credential : String) (taken : Bool)
  | webauthnDelete (r : Request) (id : String)
  | mfaAdminReset
  /-- A session expires, or the user logs out. -/
  | endSession (token : Nat)
  /-- A trusted device expires, or is revoked. -/
  | endTrust (raw : String)
  /-- An administrator changes the settings or the user. -/
  | configure (user : User) (config : Config)

/-- The rows a request leaves. -/
def serve (lib : Lib) (s : State) : Event → State
  | .login r password limit => (login lib s r password limit).2
  | .loginMfa r code now remember raw limit => (loginMfa lib s r code now remember raw limit).2
  | .loginWebauthnBegin r challenge => (loginWebauthnBegin s r challenge).2
  | .loginWebauthnComplete r rawId credential remember raw limit =>
    (loginWebauthnComplete lib s r rawId credential remember raw limit).2
  | .mfaSetup r password secret => (mfaSetup lib s r password secret).2
  | .mfaConfirm r code now hashes => (mfaConfirm lib s r code now hashes).2
  | .mfaDisable r password => (mfaDisable lib s r password).2
  | .mfaRegen r password hashes => (mfaRegen lib s r password hashes).2
  | .webauthnRegisterBegin r password challenge =>
    (webauthnRegisterBegin lib s r password challenge).2
  | .webauthnRegisterComplete r credential taken =>
    (webauthnRegisterComplete lib s r credential taken).2
  | .webauthnDelete r id => (webauthnDelete s r id).2
  | .mfaAdminReset => mfaAdminReset s
  | .endSession token => s.deleteSession (some token)
  | .endTrust raw => { s with trustedDevices := s.trustedDevices.filter (· != raw) }
  | .configure user config => { s with user := user, config := config }

def step (lib : Lib) (s : State) (e : Event) : Option State :=
  some { serve lib s e with clock := s.clock + 1 }

/-- No session yet; the user may have factors. -/
structure Fresh (s : State) : Prop where
  sessions : ∀ token, s.sessions token = none
  fulls : s.fulls = []
  factors : ∀ since ∈ s.factors, since < s.clock

/-- Each session that became full has proved a factor enabled before its chain
started, if the user was enrolled when it presented only the password. -/
def AllBacked (s : State) : Prop := ∀ c ∈ s.fulls, c.Backed

/-! ### What the sessions are tied to -/

/-- The session of a request that passes the CSRF check. -/
def State.kept (s : State) (r : Request) : Option Session :=
  if r.csrf then r.session.bind s.sessions else none

/-- The right password on an `mfa_setup` session of a user who has a factor. -/
def State.reusesSetup (lib : Lib) (s : State) (r : Request) (password : String) : Bool :=
  match s.kept r with
  | some sess =>
    sess.kind == .mfaSetup && lib.verifyPassword password s.user.passwordHash && s.enrolled
  | none => false

/-- A right code on a pending session that started before the TOTP was enabled. -/
def State.lateCode (lib : Lib) (s : State) (r : Request) (code : String) (now : Nat) : Bool :=
  match s.kept r, s.totp with
  | some sess, some row =>
    sess.kind == .mfaPending && row.enabled && decide (sess.chain.started ≤ row.since) &&
      ((verifyTotp lib row.secret code now row.lastUsedStep).isSome ||
        (consumeRecovery lib code s.recoveryCodes).isSome)
  | _, _ => false

/-- A right assertion on a pending session that started before the passkey was
registered. -/
def State.latePasskey (lib : Lib) (s : State) (r : Request) (rawId : Option String)
    (credential : String) : Bool :=
  match s.kept r, s.findPasskey rawId with
  | some sess, some key =>
    sess.kind == .mfaPending && decide (sess.chain.started ≤ key.since) &&
      sess.webauthnChallenge.any fun challenge =>
        (verifyAuthentication lib credential challenge key.publicKey key.signCount).isSome
  | _, _ => false

/-- A session is used for what it was made for: an `mfa_setup` one while the user
has no factor, a pending one to prove a factor that was there at the login. -/
def Tied (lib : Lib) (s : State) : Event → Prop
  | .mfaSetup r password _ => s.reusesSetup lib r password = false
  | .webauthnRegisterBegin r password _ => s.reusesSetup lib r password = false
  | .loginMfa r code now _ _ _ => s.lateCode lib r code now = false
  | .loginWebauthnComplete r rawId credential _ _ _ => s.latePasskey lib r rawId credential = false
  | _ => True

instance (lib : Lib) (s : State) : (e : Event) → Decidable (Tied lib s e)
  | .mfaSetup _ _ _ | .webauthnRegisterBegin _ _ _ | .loginMfa _ _ _ _ _ _
  | .loginWebauthnComplete _ _ _ _ _ _ => inferInstanceAs (Decidable (_ = _))
  | .login _ _ _ | .loginWebauthnBegin _ _ | .mfaConfirm _ _ _ _ | .mfaDisable _ _
  | .mfaRegen _ _ _ | .webauthnRegisterComplete _ _ _ | .webauthnDelete _ _ | .mfaAdminReset
  | .endSession _ | .endTrust _ | .configure _ _ => isTrue trivial

/-! ### The invariant -/

/-- What holds before request `n`, as long as the sessions are tied. -/
structure Sound (n : Nat) (s : State) : Prop where
  setup : ∀ token sess, s.sessions token = some sess → sess.kind = .mfaSetup →
    sess.chain.enrolled = false
  backed : AllBacked s
  factors : ∀ since ∈ s.factors, since < n

theorem Fresh.sound {s : State} (h : Fresh s) : Sound s.clock s where
  setup token sess hsess := by
    rw [h.sessions token] at hsess
    cases hsess
  backed c hc := by
    rw [h.fulls] at hc
    exact absurd hc List.not_mem_nil
  factors := h.factors

theorem backed_of_not_enrolled {c : Chain} (h : c.enrolled = false) : c.Backed := by
  intro henrolled
  rw [h] at henrolled
  cases henrolled

theorem mem_factors {s : State} {since : Nat} :
    since ∈ s.factors ↔ (∃ row, s.totp = some row ∧ row.enabled = true ∧ row.since = since) ∨
      ∃ key ∈ s.passkeys, key.since = since := by
  unfold State.factors
  rw [List.mem_append, List.mem_map]
  refine or_congr ?_ Iff.rfl
  cases s.totp with
  | none => simp
  | some row =>
    cases hrow : row.enabled
    · simp [hrow]
    · constructor
      · intro hsince
        have heq : since = row.since := by simpa [hrow] using hsince
        exact ⟨row, rfl, hrow, heq.symm⟩
      · rintro ⟨row', hrow', -, rfl⟩
        obtain rfl := Option.some.inj hrow'
        simp [hrow]

namespace Sound

variable {n : Nat} {s : State} {token : Nat} {sess : Session}

theorem mono {m : Nat} (h : Sound n s) (hle : n ≤ m) : Sound m s :=
  ⟨h.setup, h.backed, fun since hsince => (h.factors since hsince).trans_le hle⟩

theorem withRows {m : Nat} {s' : State} (h : Sound n s) (hsessions : s'.sessions = s.sessions)
    (hfulls : s'.fulls = s.fulls) (hfactors : ∀ since ∈ s'.factors, since < m) : Sound m s' where
  setup token sess hsess := by
    rw [hsessions] at hsess
    exact h.setup token sess hsess
  backed c hc := by
    rw [hfulls] at hc
    exact h.backed c hc
  factors := hfactors

theorem setSession (h : Sound n s) {new : Option Session}
    (hnew : ∀ sess, new = some sess → sess.kind = .mfaSetup → sess.chain.enrolled = false) :
    Sound n (s.setSession token new) where
  setup token' sess' hsess := by
    dsimp only [State.setSession] at hsess
    rw [Function.update_apply] at hsess
    split_ifs at hsess
    · exact hnew sess' hsess
    · exact h.setup token' sess' hsess
  backed := h.backed
  factors := h.factors

theorem keepSession (h : Sound n s) (hsess : s.sessions token = some sess) {new : Session}
    (hkind : new.kind = sess.kind) (hchain : new.chain = sess.chain) :
    Sound n (s.setSession token (some new)) := by
  refine h.setSession fun sess' hsess' hsetup => ?_
  obtain rfl := Option.some.inj hsess'
  rw [hchain]
  exact h.setup token sess hsess (hkind.symm.trans hsetup)

theorem totp_since (h : Sound n s) {row : UserMfa} (hrow : s.totp = some row)
    (henabled : row.enabled = true) : row.since < n :=
  h.factors _ (mem_factors.mpr (.inl ⟨row, hrow, henabled, rfl⟩))

theorem passkey_since (h : Sound n s) {key : Passkey} (hkey : key ∈ s.passkeys) : key.since < n :=
  h.factors _ (mem_factors.mpr (.inr ⟨key, hkey, rfl⟩))

theorem deleteSession (h : Sound n s) (token : Option Nat) : Sound n (s.deleteSession token) := by
  cases token with
  | none => exact h
  | some token => exact h.setSession fun sess hsess => by cases hsess

theorem createSession (h : Sound n s) {kind : Kind} {chain : Chain}
    (hsetup : kind = .mfaSetup → chain.enrolled = false) (hfull : kind = .full → chain.Backed) :
    Sound n (s.createSession kind chain) where
  setup token' sess' hsess := by
    dsimp only [State.createSession] at hsess
    rw [Function.update_apply] at hsess
    split_ifs at hsess
    · obtain rfl := Option.some.inj hsess
      exact hsetup
    · exact h.setup token' sess' hsess
  backed c hc := by
    dsimp only [State.createSession] at hc
    split_ifs at hc with hkind
    · rcases List.mem_append.mp hc with hc | hc
      · exact h.backed c hc
      · obtain rfl := List.mem_singleton.mp hc
        exact hfull hkind
    · exact h.backed c hc
  factors := h.factors

theorem upgrade (h : Sound n s) (hsetup : sess.kind = .mfaSetup → sess.chain.enrolled = false) :
    Sound n (s.upgrade token sess) := by
  unfold State.upgrade
  split_ifs with hkind
  · have hfull : Sound n (s.setSession token (some { sess with kind := .full })) := by
      refine h.setSession fun sess' hsess' hkind' => ?_
      obtain rfl := Option.some.inj hsess'
      cases hkind'
    refine ⟨hfull.setup, fun c hc => ?_, hfull.factors⟩
    rcases List.mem_append.mp hc with hc | hc
    · exact h.backed c hc
    · obtain rfl := List.mem_singleton.mp hc
      exact backed_of_not_enrolled (hsetup hkind)
  · refine h.setSession fun sess' hsess' hkind' => ?_
    obtain rfl := Option.some.inj hsess'
    exact absurd hkind' hkind

theorem promote (h : Sound n s) {p : Proof} (hp : p.since < sess.chain.started) :
    Sound n (s.promote token sess p).2 := by
  unfold State.promote
  refine (h.deleteSession (some token)).createSession (fun hkind => by cases hkind) fun _ _ => ?_
  exact ⟨p, List.mem_append_right _ (List.mem_singleton_self p), hp⟩

theorem maybeRememberDevice (h : Sound n s) (remember : Bool) (raw : String) :
    Sound n (s.maybeRememberDevice remember raw) := by
  unfold State.maybeRememberDevice
  split_ifs
  · exact h.withRows rfl rfl h.factors
  · exact h

end Sound

/-! ### What a request has to pass -/

section Guards

variable {α : Type} {n : Nat} {s : State} {r : Request} {k : Nat → Session → Served α}

theorem sound_withSession (h : Sound n s)
    (hk : ∀ token sess, s.kept r = some sess → s.sessions token = some sess →
      Sound n (k token sess).2) : Sound n (s.withSession r k).2 := by
  unfold State.withSession
  cases hr : r.session with
  | none => exact h
  | some token =>
    dsimp only
    cases hsess : s.sessions token with
    | none => exact h
    | some sess =>
      dsimp only
      split_ifs with hcsrf
      · refine hk token sess ?_ hsess
        unfold State.kept
        rw [if_pos hcsrf, hr, Option.bind_some, hsess]
      · exact h

theorem sound_withUser (h : Sound n s)
    (hk : ∀ token sess, sess.kind = .full → Sound n (k token sess).2) :
    Sound n (s.withUser r k).2 := by
  refine sound_withSession h fun token sess _ _ => ?_
  cases hkind : sess.kind with
  | full => exact hk token sess hkind
  | mfaSetup => exact h
  | mfaPending => exact h

theorem sound_withEnrollment (h : Sound n s)
    (hk : ∀ token sess, s.kept r = some sess → s.sessions token = some sess →
      Sound n (k token sess).2) : Sound n (s.withEnrollment r k).2 := by
  refine sound_withSession h fun token sess hkept hsess => ?_
  cases hkind : sess.kind with
  | full => exact hk token sess hkept hsess
  | mfaSetup => exact hk token sess hkept hsess
  | mfaPending => exact h

theorem sound_requirePassword {lib : Lib} {token : Nat} {sess : Session} {password : String}
    {k : State → Session → Served α} (h : Sound n s)
    (htied : sess.kind = .mfaSetup → lib.verifyPassword password s.user.passwordHash = true →
      s.enrolled = false)
    (hk : ∀ s' sess', Sound n s' → s'.factors = s.factors → s'.clock = s.clock →
      (sess'.kind = .mfaSetup → sess'.chain.enrolled = false) → Sound n (k s' sess').2) :
    Sound n (s.requirePassword lib token sess password k).2 := by
  unfold State.requirePassword
  split_ifs with hpassword
  · refine hk _ _ (h.setSession fun sess' hsess' hkind => ?_) rfl rfl fun hkind => ?_
    · obtain rfl := Option.some.inj hsess'
      exact htied hkind hpassword
    · exact htied hkind hpassword
  · exact h

end Guards

theorem factors_of_since {s s' : State} {n : Nat} (h : Sound n s)
    (htotp : ∀ row, s'.totp = some row → row.enabled = true → row.since < n)
    (hkeys : ∀ key ∈ s'.passkeys, ∃ key' ∈ s.passkeys, key'.since = key.since) :
    ∀ since ∈ s'.factors, since < n := by
  intro since hsince
  rcases mem_factors.mp hsince with ⟨row, hrow, henabled, rfl⟩ | ⟨key, hkey, rfl⟩
  · exact htotp row hrow henabled
  · obtain ⟨key', hkey', heq⟩ := hkeys key hkey
    exact heq ▸ h.passkey_since hkey'

/-! ### One request -/

section Requests

variable {lib : Lib} {s : State} {r : Request}

theorem enrolled_iff : s.enrolled = true ↔ s.factors ≠ [] := by
  unfold State.enrolled
  rw [Bool.not_eq_true', List.isEmpty_eq_false_iff]

theorem login_sound {password : String} {limit : Option Refusal} (h : Sound s.clock s) :
    Sound (s.clock + 1) (login lib s r password limit).2 := by
  have hnext := h.mono (Nat.le_succ s.clock)
  unfold login
  cases limit with
  | some refusal => exact hnext
  | none =>
    dsimp only
    split
    · exact hnext
    have hdelete := h.deleteSession r.session
    have hclock : (s.deleteSession r.session).clock = s.clock := by cases r.session <;> rfl
    generalize s.deleteSession r.session = s₁ at hdelete hclock ⊢
    have hdelete' := hdelete.mono (Nat.le_succ s.clock)
    split_ifs with htrusted henrolled hpolicy
    · -- the trusted device stands for a factor
      refine hdelete'.createSession (fun hkind => by cases hkind) fun _ henrolled => ?_
      obtain ⟨since, hsince⟩ := List.exists_mem_of_ne_nil _ (enrolled_iff.mp henrolled)
      refine ⟨⟨.trustedDevice, since⟩, List.mem_map_of_mem hsince, ?_⟩
      dsimp only
      rw [hclock]
      exact hdelete.factors since hsince
    · exact hdelete'.createSession (fun hkind => by cases hkind) fun hkind => by cases hkind
    · exact hdelete'.createSession (fun _ => Bool.eq_false_iff.mpr henrolled) fun hkind => by cases hkind
    · refine hdelete'.createSession (fun hkind => by cases hkind) fun _ => ?_
      exact backed_of_not_enrolled (Bool.eq_false_iff.mpr henrolled)

theorem loginMfa_sound {code raw : String} {now : Nat} {remember : Bool} {limit : Option Refusal}
    (h : Sound (s.clock + 1) s) (htied : s.lateCode lib r code now = false) :
    Sound (s.clock + 1) (loginMfa lib s r code now remember raw limit).2 := by
  unfold loginMfa
  refine sound_withSession h fun token sess hkept hsess => ?_
  split_ifs with hkind
  · exact h
  cases limit with
  | some refusal => exact h
  | none =>
    dsimp only
    cases hrow : s.totp with
    | none => exact h
    | some row =>
      dsimp only
      split_ifs with henabled
      · exact h
      -- a code that is accepted belongs to a factor from before the login
      have hsince (hright : ((verifyTotp lib row.secret code now row.lastUsedStep).isSome ||
          (consumeRecovery lib code s.recoveryCodes).isSome) = true) :
          row.since < sess.chain.started := by
        unfold State.lateCode at htied
        rw [hkept, hrow] at htied
        dsimp only at htied
        rw [hright, Bool.and_true] at htied
        have hpending : (sess.kind == .mfaPending) = true := beq_iff_eq.mpr (not_not.mp hkind)
        have hrow : row.enabled = true := by simpa using henabled
        rw [hpending, hrow, Bool.true_and, Bool.true_and] at htied
        exact Nat.not_le.mp (of_decide_eq_false htied)
      have hrows (row' : UserMfa) (codes : List RecoveryCode) (heq : row'.since = row.since) :
          Sound (s.clock + 1) { s with totp := some row', recoveryCodes := codes } := by
        refine h.withRows rfl rfl (factors_of_since h (fun row₁ hrow₁ _ => ?_)
          fun key hkey => ⟨key, hkey, rfl⟩)
        obtain rfl := Option.some.inj hrow₁
        rw [heq]
        exact h.totp_since hrow (by simpa using henabled)
      cases hverify : verifyTotp lib row.secret code now row.lastUsedStep with
      | some step =>
        rw [hverify] at hsince
        have hfactor : (Proof.mk .code row.since).since < sess.chain.started := hsince rfl
        exact ((hrows { row with lastUsedStep := some step } s.recoveryCodes rfl).promote
          hfactor).maybeRememberDevice remember raw
      | none =>
        dsimp only
        rw [hverify] at hsince
        cases hconsume : consumeRecovery lib code s.recoveryCodes with
        | some codes =>
          rw [hconsume] at hsince
          have hfactor : (Proof.mk .recoveryCode row.since).since < sess.chain.started := hsince rfl
          exact ((hrows row codes rfl).promote hfactor).maybeRememberDevice remember raw
        | none => exact h

theorem loginWebauthnBegin_sound {challenge : String} (h : Sound (s.clock + 1) s) :
    Sound (s.clock + 1) (loginWebauthnBegin s r challenge).2 := by
  unfold loginWebauthnBegin
  refine sound_withSession h fun token sess _ hsess => ?_
  split_ifs
  · exact h
  · exact h
  · exact h.keepSession hsess rfl rfl

theorem loginWebauthnComplete_sound {rawId : Option String} {credential raw : String}
    {remember : Bool} {limit : Option Refusal} (h : Sound (s.clock + 1) s)
    (htied : s.latePasskey lib r rawId credential = false) :
    Sound (s.clock + 1) (loginWebauthnComplete lib s r rawId credential remember raw limit).2 := by
  unfold loginWebauthnComplete
  refine sound_withSession h fun token sess hkept hsess => ?_
  by_cases hkind : sess.kind ≠ .mfaPending
  · rw [if_pos hkind]
    exact h
  rw [if_neg hkind]
  cases hchallenge : sess.webauthnChallenge with
  | none => exact h
  | some challenge =>
    cases limit with
    | some refusal => exact h
    | none =>
      dsimp only
      split
      · exact h
      cases hverified : (s.findPasskey rawId).bind fun key =>
          (verifyAuthentication lib credential challenge key.publicKey key.signCount).map
            fun count => (key, count) with
      | none => exact h.keepSession hsess rfl rfl
      | some verified =>
        obtain ⟨key, hfind, hright⟩ := Option.bind_eq_some_iff.mp hverified
        obtain ⟨count, hcount, rfl⟩ := Option.map_eq_some_iff.mp hright
        -- an assertion that is accepted is of a passkey from before the login
        have hsince : (Proof.mk .passkey key.since).since < sess.chain.started := by
          unfold State.latePasskey at htied
          rw [hkept, hfind] at htied
          dsimp only at htied
          have hpending : (sess.kind == .mfaPending) = true := beq_iff_eq.mpr (not_not.mp hkind)
          rw [hpending, hchallenge, Option.any_some, hcount, Bool.true_and, Option.isSome_some,
            Bool.and_true] at htied
          exact Nat.not_le.mp (of_decide_eq_false htied)
        have hrows : Sound (s.clock + 1)
            { s with passkeys := countPasskey s.passkeys key.credentialId count } := by
          refine h.withRows rfl rfl (factors_of_since h (fun _ => h.totp_since) fun key' hkey' => ?_)
          obtain ⟨key₁, hkey₁, rfl⟩ := List.mem_map.mp hkey'
          refine ⟨key₁, hkey₁, ?_⟩
          split_ifs <;> rfl
        exact (hrows.promote hsince).maybeRememberDevice remember raw

theorem enrolled_of_tied {password : String} {sess : Session} (hkept : s.kept r = some sess)
    (htied : s.reusesSetup lib r password = false) (hkind : sess.kind = .mfaSetup)
    (hpassword : lib.verifyPassword password s.user.passwordHash = true) : s.enrolled = false := by
  unfold State.reusesSetup at htied
  rw [hkept] at htied
  dsimp only at htied
  rw [hkind, hpassword, beq_self_eq_true, Bool.true_and, Bool.true_and] at htied
  exact htied

theorem mfaSetup_sound {password secret : String} (h : Sound (s.clock + 1) s)
    (htied : s.reusesSetup lib r password = false) :
    Sound (s.clock + 1) (mfaSetup lib s r password secret).2 := by
  unfold mfaSetup
  refine sound_withEnrollment h fun token sess hkept _ => ?_
  refine sound_requirePassword h (enrolled_of_tied hkept htied) fun s' _ h' _ _ _ => ?_
  refine h'.withRows rfl rfl (factors_of_since h' (fun row hrow henabled => ?_)
    fun key hkey => ⟨key, hkey, rfl⟩)
  obtain rfl := Option.some.inj hrow
  cases henabled

theorem mfaConfirm_sound {code : String} {now : Nat} {hashes : List String}
    (h : Sound (s.clock + 1) s) : Sound (s.clock + 1) (mfaConfirm lib s r code now hashes).2 := by
  unfold mfaConfirm
  refine sound_withEnrollment h fun token sess _ hsess => ?_
  cases hrow : s.totp with
  | none => exact h
  | some row =>
    dsimp only
    cases verifyTotp lib row.secret code now row.lastUsedStep with
    | none => exact h
    | some step =>
      have hrows : Sound (s.clock + 1)
          { s with
            totp := some { row with
              enabled := true, lastUsedStep := some step
              since := if row.enabled then row.since else s.clock }
            recoveryCodes := hashes.map fun hash => ⟨hash, false⟩ } := by
        refine h.withRows rfl rfl (factors_of_since h (fun row' hrow' _ => ?_)
          fun key hkey => ⟨key, hkey, rfl⟩)
        obtain rfl := Option.some.inj hrow'
        dsimp only
        split_ifs with henabled
        · exact h.totp_since hrow henabled
        · exact Nat.lt_succ_self s.clock
      dsimp only
      refine hrows.upgrade fun hkind => ?_
      split_ifs at hkind ⊢
      · exact h.setup token sess hsess hkind
      · exact h.setup token sess hsess hkind

theorem mfaDisable_sound {password : String} (h : Sound (s.clock + 1) s) :
    Sound (s.clock + 1) (mfaDisable lib s r password).2 := by
  unfold mfaDisable
  refine sound_withUser h fun token sess hkind => ?_
  refine sound_requirePassword h (fun hsetup => by rw [hkind] at hsetup; cases hsetup)
    fun s' _ h' _ _ _ => ?_
  exact h'.withRows rfl rfl (factors_of_since h' (fun row hrow => by cases hrow)
    fun key hkey => ⟨key, hkey, rfl⟩)

theorem mfaRegen_sound {password : String} {hashes : List String} (h : Sound (s.clock + 1) s) :
    Sound (s.clock + 1) (mfaRegen lib s r password hashes).2 := by
  unfold mfaRegen
  refine sound_withUser h fun token sess hkind => ?_
  refine sound_requirePassword h (fun hsetup => by rw [hkind] at hsetup; cases hsetup)
    fun s' _ h' _ _ _ => ?_
  split_ifs
  · exact h'.withRows rfl rfl h'.factors
  · exact h'

theorem webauthnRegisterBegin_sound {password challenge : String} (h : Sound (s.clock + 1) s)
    (htied : s.reusesSetup lib r password = false) :
    Sound (s.clock + 1) (webauthnRegisterBegin lib s r password challenge).2 := by
  unfold webauthnRegisterBegin
  refine sound_withEnrollment h fun token sess hkept _ => ?_
  refine sound_requirePassword h (enrolled_of_tied hkept htied) fun s' sess' h' _ _ hsess' => ?_
  split_ifs
  · exact h'
  · refine h'.setSession fun sess₁ hsess₁ hkind => ?_
    obtain rfl := Option.some.inj hsess₁
    exact hsess' hkind

theorem webauthnRegisterComplete_sound {credential : String} {taken : Bool}
    (h : Sound (s.clock + 1) s) :
    Sound (s.clock + 1) (webauthnRegisterComplete lib s r credential taken).2 := by
  unfold webauthnRegisterComplete
  refine sound_withEnrollment h fun token sess _ hsess => ?_
  cases sess.webauthnChallenge with
  | none => exact h
  | some challenge =>
    dsimp only
    split
    · exact h
    cases lib.verifyRegRaw credential challenge with
    | none => exact h.keepSession hsess rfl rfl
    | some verified =>
      dsimp only
      split
      · exact h
      have hrows : Sound (s.clock + 1)
          { s with
            passkeys := s.passkeys ++ [⟨verified.1, verified.2.1, verified.2.2, s.clock⟩] } := by
        refine h.withRows rfl rfl fun since hsince => ?_
        rcases mem_factors.mp hsince with ⟨row, hrow, henabled, rfl⟩ | ⟨key, hkey, rfl⟩
        · exact h.totp_since hrow henabled
        · rcases List.mem_append.mp hkey with hkey | hkey
          · exact h.passkey_since hkey
          · obtain rfl := List.mem_singleton.mp hkey
            exact Nat.lt_succ_self s.clock
      exact hrows.upgrade fun hkind => h.setup token sess hsess hkind

theorem webauthnDelete_sound {id : String} (h : Sound (s.clock + 1) s) :
    Sound (s.clock + 1) (webauthnDelete s r id).2 := by
  unfold webauthnDelete
  refine sound_withUser h fun token sess _ => ?_
  dsimp only
  split_ifs
  · exact h
  · exact h
  · refine h.withRows rfl rfl (factors_of_since h (fun _ => h.totp_since) fun key hkey => ?_)
    exact ⟨key, (List.mem_filter.mp hkey).1, rfl⟩

end Requests

/-- **A request of a tied session keeps the invariant.** -/
theorem step_sound {lib : Lib} {s s' : State} {e : Event} (h : Sound s.clock s)
    (hG : Tied lib s e) (hstep : step lib s e = some s') : Sound s'.clock s' := by
  obtain rfl := Option.some.inj hstep
  have hnext := h.mono (Nat.le_succ s.clock)
  have hserve : Sound (s.clock + 1) (serve lib s e) := by
    cases e with
    | login r password limit => exact login_sound h
    | loginMfa r code now remember raw limit => exact loginMfa_sound hnext hG
    | loginWebauthnBegin r challenge => exact loginWebauthnBegin_sound hnext
    | loginWebauthnComplete r rawId credential remember raw limit =>
      exact loginWebauthnComplete_sound hnext hG
    | mfaSetup r password secret => exact mfaSetup_sound hnext hG
    | mfaConfirm r code now hashes => exact mfaConfirm_sound hnext
    | mfaDisable r password => exact mfaDisable_sound hnext
    | mfaRegen r password hashes => exact mfaRegen_sound hnext
    | webauthnRegisterBegin r password challenge => exact webauthnRegisterBegin_sound hnext hG
    | webauthnRegisterComplete r credential taken => exact webauthnRegisterComplete_sound hnext
    | webauthnDelete r id => exact webauthnDelete_sound hnext
    | mfaAdminReset =>
      exact hnext.withRows rfl rfl (factors_of_since hnext (fun row hrow => by cases hrow)
        fun key hkey => ⟨key, hkey, rfl⟩)
    | endSession token => exact hnext.deleteSession (some token)
    | endTrust raw => exact hnext.withRows rfl rfl hnext.factors
    | configure user config => exact hnext.withRows rfl rfl hnext.factors
  exact hserve.withRows rfl rfl hserve.factors

/-- **No session becomes full for the password of an enrolled user alone, in every
run in which the sessions are used for what they were made for.** -/
theorem full_sessions_backed {lib : Lib} {s s' : State} {es : List Event} (h : Fresh s)
    (hG : Along (step lib) (Tied lib) s es) (hrun : runAll (step lib) s es = some s') :
    AllBacked s' :=
  (runAll_invariant (P := fun s => Sound s.clock s)
    (fun _ _ _ h hG hstep => step_sound h hG hstep) h.sound hG hrun).backed

/-! ### A setup session that outlives the enrollment -/

def sampleLib : Lib where
  verifyPassword password hash := password == "correct horse" && hash == "argon2id-1"
  digits code := if code.toList.all Char.isDigit then some code else none
  totpAt secret step :=
    if secret == "JBSWY3DPEHPK3PXP" then if step = 1 then "752104" else "300811"
    else "619043"
  matchesRecovery code hash := code == "ABCDE-FGHJK" && hash == "argon2id-2"
  verifyRegRaw _ _ := none
  verifyAuthRaw _ _ _ _ := none

/-- A user without a factor, under a policy that wants one of everybody. -/
def sampleState : State where
  clock := 0
  user := ⟨true, false, "argon2id-1"⟩
  config := ⟨.all, true, false⟩
  totp := none
  recoveryCodes := []
  passkeys := []
  trustedDevices := []
  sessions _ := none
  nextToken := 0
  fulls := []

theorem sampleState_fresh : Fresh sampleState where
  sessions _ := rfl
  fulls := rfl
  factors _ hsince := absurd hsince List.not_mem_nil

/-- The user enrolls, and logs in again with a code. -/
def enrollAndLogin : List Event :=
  [.login ⟨none, false, none⟩ "correct horse" none,
    .mfaSetup ⟨some 0, true, none⟩ "correct horse" "JBSWY3DPEHPK3PXP",
    .mfaConfirm ⟨some 0, true, none⟩ "300811" 5 ["argon2id-2"],
    .login ⟨none, false, none⟩ "correct horse" none,
    .loginMfa ⟨some 1, true, none⟩ "752104" 35 false "" none]

theorem enrollAndLogin_backed :
    Along (step sampleLib) (Tied sampleLib) sampleState enrollAndLogin ∧
      ∃ s, runAll (step sampleLib) sampleState enrollAndLogin = some s ∧
        s.fulls.length = 2 ∧ AllBacked s := by
  have hG : Along (step sampleLib) (Tied sampleLib) sampleState enrollAndLogin := by
    decide +kernel
  refine ⟨hG, _, rfl, by decide +kernel, full_sessions_backed sampleState_fresh hG rfl⟩

/-- Somebody who knows the password logs in before the user enrolls, and enrolls
after it with a secret of their own. -/
def reusedSetup : List Event :=
  [.login ⟨none, false, none⟩ "correct horse" none,
    .login ⟨none, false, none⟩ "correct horse" none,
    .mfaSetup ⟨some 1, true, none⟩ "correct horse" "JBSWY3DPEHPK3PXP",
    .mfaConfirm ⟨some 1, true, none⟩ "300811" 5 ["argon2id-2"],
    .mfaSetup ⟨some 0, true, none⟩ "correct horse" "KRSXG5CTMVRXEZLU",
    .mfaConfirm ⟨some 0, true, none⟩ "619043" 35 []]

/-- **The password of an enrolled user is enough for a full session**, with an
`mfa_setup` session from before the enrollment. -/
theorem reusedSetup_bypasses :
    Fresh sampleState ∧ ∃ s, runAll (step sampleLib) sampleState reusedSetup = some s ∧
      (∃ c ∈ s.fulls, c.enrolled = true ∧ c.proofs.length = 0) ∧ ¬ AllBacked s := by
  have hbypass : ∃ c ∈ ((runAll (step sampleLib) sampleState reusedSetup).map State.fulls).getD [],
      c.enrolled = true ∧ c.proofs.length = 0 := by decide +kernel
  refine ⟨sampleState_fresh, _, rfl, hbypass, fun h => ?_⟩
  obtain ⟨c, hc, henrolled, hnone⟩ := hbypass
  obtain ⟨p, hp, -⟩ := h c hc henrolled
  rw [List.length_eq_zero_iff.mp hnone] at hp
  exact List.not_mem_nil hp

end Mfa

end Opngms
