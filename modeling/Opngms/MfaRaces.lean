/-
Opngms/MfaRaces.lean

What holds along every interleaving of the requests on a second factor.

One code, one login: a code is accepted under the lock of the row of `user_mfa`,
and a recovery code by an update that finds it unused, so in the log no step and
no recovery code comes twice.  A challenge is used once: the second request
writes back a session that the first one deleted.

Two properties have a condition.  The secret of an enabled row is the one that
was confirmed, unless `mfa_setup` writes back a row that was enabled since it was
loaded.  And a user keeps a factor, unless a removal commits when the factor it
relies on is gone.
-/
import Opngms.MfaDiscipline

namespace Opngms

namespace MfaRequests

open Mfa (verifyTotp)
open Transactions

theorem verifyTotp_later {lib : Mfa.Lib} {secret code : String} {time : Nat} {last : Option Int}
    {step : Int} (h : verifyTotp lib secret code time last = some step) :
    ∀ l, last = some l → l < step := by
  intro l hl
  subst hl
  unfold verifyTotp at h
  split at h
  · cases h
  · split at h
    · cases h
    · simp only at h
      split at h
      · cases h
      · cases h
        omega

/-! ### A sample -/

/-- Libraries for which a secret is its own code, and every assertion has the
counter 0. -/
def sampleLib : Crypto where
  verifyPassword password hash := password == hash
  digits := some
  totpAt secret _ := secret
  matchesRecovery code hash := code == hash
  verifyRegRaw _ _ := none
  verifyAuthRaw _ _ _ _ := some 0
  decrypt := some

def sampleUser : Mfa.User := ⟨true, false, "password"⟩

def sampleCaller (token : Nat) : Caller := ⟨some token, some "csrf", 1000, 3600⟩

def sampleSession (kind : Mfa.Kind) : SessionRow := ⟨kind, "csrf", some "challenge", 1000, 2000⟩

def sampleRows (totp : Option UserMfaRow) : Rows :=
  Db.load ([⟨.session 1, sampleSession .full⟩, ⟨.session 2, sampleSession .mfaPending⟩,
    ⟨.passkey 3, (⟨"a", "key", 0, none⟩ : PasskeyRow)⟩,
    ⟨.passkey 4, (⟨"b", "key", 0, none⟩ : PasskeyRow)⟩] ++
    (totp.map fun row => (⟨.totp, row⟩ : (k : Key) × Val k)).toList)

def threadsOf (reqs : List Request) (i : Nat) : Option Request := reqs[i]?

def turns (i n : Nat) : List Event := List.replicate n (.run i)

/-! ### One code, one login -/

def Note.accepted : Note → Option Int
  | .confirm _ _ _ step => some step
  | .loginCode _ _ step => some step
  | _ => none

/-- The recovery code a full session was made for. -/
def Note.recovery : Note → Option Nat
  | .loginRecovery _ id => some id
  | _ => none

def Note.isSetup : Note → Bool
  | .setup _ _ => true
  | _ => false

/-- No `mfa_setup` in between. -/
def BetweenSetups (notes : List Note) : Prop := ∀ n ∈ notes, n.isSetup = false

/-- Between two `mfa_setup` commits the accepted steps grow. -/
def StepsGrow (log : List Note) : Prop :=
  ∀ seg, seg <:+: log → BetweenSetups seg → (seg.filterMap Note.accepted).Pairwise (· < ·)

/-- No step that was accepted since the last `mfa_setup` is above the stored one. -/
def StepsBelow (d : Rows) : Prop :=
  ∀ seg, seg <:+ d.log → BetweenSetups seg → ∀ row : UserMfaRow, d.row .totp = some row →
    ∀ s ∈ seg.filterMap Note.accepted, ∃ last, row.lastUsedStep = some last ∧ s ≤ last

/-- Every recovery code that made a full session is used up. -/
structure CodesUsed (d : Rows) : Prop where
  once : (d.log.filterMap Note.recovery).Nodup
  used : ∀ id ∈ d.log.filterMap Note.recovery, d.Gone (.code id) ∨
    ∃ row : RecoveryCodeRow, d.row (.code id) = some row ∧ row.usedAt ≠ none

theorem row_of_accepted {lib : Crypto} {d : Rows} {i : Nat} {n : Note} {s : Int}
    (hgood : Good lib (d.phase i)) (hn : (d.phase i).notes = [n]) (hs : n.accepted = some s) :
    ∃ before after : UserMfaRow, d.row .totp = some before ∧
      (d.commit i).row .totp = some after ∧ after.lastUsedStep = some s ∧
      ∀ last, before.lastUsedStep = some last → last < s := by
  have hback : Backed lib (d.phase i) n := hgood.2.2 n (by simp [hn])
  cases n with
  | confirm row code time step =>
    cases hs
    obtain ⟨⟨secret, -, hvalid⟩, hheld⟩ := hback
    have hexp := row_of_held hgood hheld
    rw [hn] at hexp
    obtain ⟨hbefore, confirmed, hafter⟩ := hexp
    exact ⟨row, _, hbefore, hafter, rfl, verifyTotp_later hvalid⟩
  | loginCode token row step =>
    cases hs
    obtain ⟨⟨code, time, secret, -, hvalid⟩, hheld⟩ := hback
    have hexp := row_of_held hgood hheld
    rw [hn] at hexp
    obtain ⟨hbefore, hafter⟩ := hexp
    exact ⟨row, _, hbefore, hafter, rfl, verifyTotp_later hvalid⟩
  | setup loaded encrypted => cases hs
  | disable => cases hs
  | remove id hasTotp others => cases hs
  | loginRecovery token id => cases hs
  | loginPasskey token => cases hs

theorem row_of_not_accepted {lib : Crypto} {d : Rows} {i : Nat} (hgood : Good lib (d.phase i))
    (hs : ∀ n ∈ (d.phase i).notes, n.accepted = none ∧ n.isSetup = false) :
    (d.commit i).row .totp = d.row .totp ∨ (d.commit i).row .totp = none := by
  rcases row_of_good hgood .totp with hrow | hexp
  · exact .inl hrow
  rcases notes_of_good hgood with hn | ⟨n, hn, -⟩
  · rw [hn] at hexp
    exact .inl hexp
  · have hns := hs n (by simp [hn])
    rw [hn] at hexp
    cases n with
    | confirm row code time step => cases hns.1
    | loginCode token row step => cases hns.1
    | setup loaded encrypted => cases hns.2
    | disable => exact .inr hexp
    | remove id hasTotp others => exact .inl hexp
    | loginRecovery token id => exact .inl hexp
    | loginPasskey token => exact .inl hexp

theorem stepsBelow_commit {lib : Crypto} {d : Rows} {i : Nat} (h : StepsBelow d)
    (hgood : Good lib (d.phase i)) : StepsBelow (d.commit i) := by
  intro seg hseg hbetween row hrow s hs
  have hlog : (d.commit i).log = d.log ++ (d.phase i).notes := rfl
  rw [hlog] at hseg
  have hsame : ∀ seg, seg <:+ d.log → BetweenSetups seg → s ∈ seg.filterMap Note.accepted →
      (∀ n ∈ (d.phase i).notes, n.accepted = none ∧ n.isSetup = false) →
      ∃ last, row.lastUsedStep = some last ∧ s ≤ last := by
    intro seg hseg hbetween hs hn
    rcases row_of_not_accepted hgood hn with he | he
    · exact h seg hseg hbetween row (he.symm.trans hrow) s hs
    · cases he.symm.trans hrow
  rcases notes_of_good hgood with hn | ⟨n, hn, -⟩
  · rw [hn, List.append_nil] at hseg
    exact hsame seg hseg hbetween hs (by simp [hn])
  rw [hn] at hseg
  rcases List.suffix_concat_iff.mp hseg with rfl | ⟨seg, rfl, hold⟩
  · cases hs
  have hsetup : n.isSetup = false := hbetween n (by simp)
  have hbetween : BetweenSetups seg := fun m hm => hbetween m (List.mem_append_left _ hm)
  rw [List.filterMap_append, List.mem_append] at hs
  cases hacc : n.accepted with
  | none =>
    rcases hs with hs | hs
    · exact hsame seg hold hbetween hs (by simp [hn, hacc, hsetup])
    · simp [hacc] at hs
  | some step =>
    obtain ⟨before, after, hbefore, hafter, hstored, hlater⟩ := row_of_accepted hgood hn hacc
    cases hafter.symm.trans hrow
    refine ⟨step, hstored, ?_⟩
    rcases hs with hs | hs
    · obtain ⟨last, hlast, hle⟩ := h seg hold hbetween before hbefore s hs
      have := hlater last hlast
      omega
    · simp [hacc] at hs
      omega

theorem stepsGrow_commit {lib : Crypto} {d : Rows} {i : Nat} (h : StepsGrow d.log)
    (hbelow : StepsBelow d) (hgood : Good lib (d.phase i)) : StepsGrow (d.commit i).log := by
  have hlog : (d.commit i).log = d.log ++ (d.phase i).notes := rfl
  rw [hlog]
  rcases notes_of_good hgood with hn | ⟨n, hn, -⟩
  · rw [hn, List.append_nil]
    exact h
  rw [hn]
  intro seg hseg hbetween
  rcases List.infix_concat_iff.mp hseg with hseg | hseg
  · rcases List.suffix_concat_iff.mp hseg with rfl | ⟨seg, rfl, hold⟩
    · simp
    have hbetween : BetweenSetups seg := fun m hm => hbetween m (List.mem_append_left _ hm)
    rw [List.filterMap_append, List.pairwise_append]
    refine ⟨h seg hold.isInfix hbetween, ?_, ?_⟩
    · cases hacc : n.accepted <;> simp [hacc]
    · intro s hs t ht
      have ht : n.accepted = some t := by
        cases hacc : n.accepted with
        | none => simp [hacc] at ht
        | some u => simpa [hacc, eq_comm] using ht
      obtain ⟨before, after, hbefore, -, -, hlater⟩ := row_of_accepted hgood hn ht
      obtain ⟨last, hlast, hle⟩ := hbelow seg hold hbetween before hbefore s hs
      have := hlater last hlast
      omega
  · exact h seg hseg hbetween

/-- A recovery code that is used up stays so: its row is deleted for good, or no
guarded update finds it again. -/
theorem used_commit {lib : Crypto} {d : Rows} {i id : Nat} (hgood : Good lib (d.phase i))
    (h : d.Gone (.code id) ∨
      ∃ row : RecoveryCodeRow, d.row (.code id) = some row ∧ row.usedAt ≠ none) :
    (d.commit i).Gone (.code id) ∨
      ∃ row : RecoveryCodeRow, (d.commit i).row (.code id) = some row ∧ row.usedAt ≠ none := by
  rcases h with h | ⟨row, hrow, hused⟩
  · exact .inl (h.serve (q := .commit) rfl nofun)
  have hkept : (d.commit i).row (.code id) = d.row (.code id) → ∃ row : RecoveryCodeRow,
      (d.commit i).row (.code id) = some row ∧ row.usedAt ≠ none :=
    fun he => ⟨row, he.trans hrow, hused⟩
  rcases hheld : (d.phase i).held (.code id) with - | ⟨before, now⟩
  · have hc := Db.row_commit (d := d) (i := i) (k := .code id)
    rw [hheld] at hc
    exact .inr (hkept hc)
  have hexp := hgood.1 _ _ _ hheld
  obtain ⟨hbefore, hnow⟩ := Db.row_of_held hheld
  have hgone : now = none → (d.commit i).Gone (.code id) := by
    rintro rfl
    exact Db.gone_of_deleted hheld
  have hsame : now = before → ∃ row : RecoveryCodeRow,
      (d.commit i).row (.code id) = some row ∧ row.usedAt ≠ none := by
    intro he
    apply hkept
    show d.view i _ = _
    rw [hnow, he, hbefore]
  rcases notes_of_good hgood with hn | ⟨n, hn, -⟩
  · rw [hn] at hexp
    exact .inr (hsame hexp)
  rw [hn] at hexp
  cases n with
  | confirm row code time step =>
    rcases hexp with hexp | hexp
    · exact .inl (hgone hexp)
    · -- the code was there, so this is no new one
      rw [hrow, hexp] at hbefore
      cases hbefore
  | disable => exact .inl (hgone hexp)
  | loginRecovery token consumed =>
    obtain ⟨-, c, used, hc, hunused, -⟩ := hexp
    rw [hrow, hc] at hbefore
    cases hbefore
    exact absurd hunused hused
  | setup loaded encrypted => exact .inr (hsame hexp)
  | remove id hasTotp others => exact .inr (hsame hexp)
  | loginCode token row step => exact .inr (hsame hexp)
  | loginPasskey token => exact .inr (hsame hexp)

theorem row_of_recovery {lib : Crypto} {d : Rows} {i : Nat} {n : Note} {id : Nat}
    (hgood : Good lib (d.phase i)) (hn : (d.phase i).notes = [n]) (hid : n.recovery = some id) :
    ∃ before after : RecoveryCodeRow, d.row (.code id) = some before ∧ before.usedAt = none ∧
      (d.commit i).row (.code id) = some after ∧ after.usedAt ≠ none := by
  have hback : Backed lib (d.phase i) n := hgood.2.2 n (by simp [hn])
  cases n with
  | loginRecovery token consumed =>
    cases hid
    have hexp := row_of_held hgood hback
    rw [hn] at hexp
    obtain ⟨-, row, used, hbefore, hunused, hafter⟩ := hexp
    exact ⟨row, _, hbefore, hunused, hafter, by simp⟩
  | setup loaded encrypted => cases hid
  | confirm row code time step => cases hid
  | disable => cases hid
  | remove id hasTotp others => cases hid
  | loginCode token row step => cases hid
  | loginPasskey token => cases hid

theorem codesUsed_commit {lib : Crypto} {d : Rows} {i : Nat} (h : CodesUsed d)
    (hgood : Good lib (d.phase i)) : CodesUsed (d.commit i) := by
  have hlog : (d.commit i).log = d.log ++ (d.phase i).notes := rfl
  have hold : ∀ id ∈ d.log.filterMap Note.recovery, _ := fun id hid =>
    used_commit hgood (h.used id hid)
  rcases notes_of_good hgood with hn | ⟨n, hn, -⟩
  · have hsame : (d.commit i).log = d.log := by rw [hlog, hn, List.append_nil]
    constructor
    · rw [hsame]
      exact h.once
    · rw [hsame]
      exact hold
  cases hrec : n.recovery with
  | none =>
    have hsame : (d.commit i).log.filterMap Note.recovery = d.log.filterMap Note.recovery := by
      simp [hlog, hn, hrec]
    constructor
    · rw [hsame]
      exact h.once
    · rw [hsame]
      exact hold
  | some id =>
    obtain ⟨before, after, hbefore, hunused, hafter, hused⟩ := row_of_recovery hgood hn hrec
    have hmore : (d.commit i).log.filterMap Note.recovery =
        d.log.filterMap Note.recovery ++ [id] := by
      simp [hlog, hn, hrec]
    constructor
    · rw [hmore]
      apply h.once.append (List.nodup_singleton id)
      -- a code that was used before is not found unused
      intro c hc hc'
      obtain rfl := List.mem_singleton.mp hc'
      rcases h.used c hc with hgone | ⟨row, hrow, hrused⟩
      · cases hgone.row.symm.trans hbefore
      · cases hrow.symm.trans hbefore
        exact hrused hunused
    · rw [hmore]
      intro c hc
      rcases List.mem_append.mp hc with hc | hc
      · exact hold c hc
      · obtain rfl := List.mem_singleton.mp hc
        exact .inr ⟨after, hafter, hused⟩

/-- The three laws of one code, one login. -/
structure OneCode (d : Rows) : Prop where
  grow : StepsGrow d.log
  below : StepsBelow d
  codes : CodesUsed d

theorem oneCode_quiet {d d' : Rows} (hq : Quiet OwnKey d d') (h : OneCode d) : OneCode d' where
  grow := by
    rw [hq.log]
    exact h.grow
  below := by
    unfold StepsBelow
    rw [hq.log, hq.row]
    exact h.below
  codes := by
    constructor
    · rw [hq.log]
      exact h.codes.once
    · rw [hq.log, hq.row]
      intro id hid
      exact (h.codes.used id hid).imp_left fun hg => hq.gone _ nofun hg

theorem oneCode_commit {lib : Crypto} {d : Rows} {i : Nat} (h : OneCode d)
    (hgood : Good lib (d.phase i)) : OneCode (d.commit i) where
  grow := stepsGrow_commit h.grow h.below hgood
  below := stepsBelow_commit h.below hgood
  codes := codesUsed_commit h.codes hgood

/-- The event stores the step that it accepts, which is later than the one that
was stored. -/
def RaisesStep (p : Requests) (e : Event) : Prop :=
  ∀ p' n s, step p e = some p' → p'.world.log = p.world.log ++ [n] → n.accepted = some s →
    ∃ before after : UserMfaRow, p.world.row .totp = some before ∧
      p'.world.row .totp = some after ∧ after.lastUsedStep = some s ∧
      ∀ last, before.lastUsedStep = some last → last < s

/-- **One code, one login.**  Along every interleaving of requests, an accepted
code raises the stored step, the steps accepted between two `mfa_setup` commits
grow, and no recovery code makes two full sessions. -/
theorem one_code_one_login (lib : Crypto) (d : Rows) (hd : d.Idle) (hlog : d.log = [])
    (reqs : Nat → Option Request) (es : List Event) :
    Along step RaisesStep (start lib d reqs) es ∧
      ∀ p', runAll step (start lib d reqs) es = some p' →
        StepsGrow p'.world.log ∧ (p'.world.log.filterMap Note.recovery).Nodup := by
  have hquiet : ∀ d d' : Rows, Quiet OwnKey d d' → OneCode d → OneCode d' :=
    fun d d' hq h => oneCode_quiet hq h
  have hcommit : ∀ (d : Rows) i, OneCode d → Good lib (d.phase i) → True → OneCode (d.commit i) :=
    fun d i h hgood _ => oneCode_commit h hgood
  have hfollow : Disciplined OwnKey (Good lib) (start lib d reqs) := disciplined_start hd reqs
  have hstart : OneCode (start lib d reqs).world := by
    constructor
    · intro seg hseg _
      have : seg = [] := by simpa [start, hlog] using hseg
      simp [this]
    · intro seg hseg _ row _ s hs
      have : seg = [] := by simpa [start, hlog] using hseg
      simp [this] at hs
    · constructor <;> simp [start, hlog]
  have hany : Along step (OnCommit fun _ _ => True) (start lib d reqs) es :=
    along_of_forall fun _ _ _ _ => trivial
  constructor
  · apply run_along hquiet hcommit _ hfollow hstart hany
    intro p e hall _ _ p' n s hstep hn hs
    obtain ⟨-, hq | ⟨i, -, hgood, hw⟩⟩ := step_cases hall hstep
    · -- a note is only added by a commit
      rw [hq.log] at hn
      simp at hn
    · rw [hw] at hn ⊢
      have hnotes : (p.world.phase i).notes = [n] := List.append_cancel_left hn
      exact row_of_accepted hgood hnotes hs
  · intro p' hrun
    have hend := run_invariant hquiet hcommit hfollow hstart hany hrun
    exact ⟨hend.grow, hend.codes.once⟩

def twoLogins : List Request :=
  List.replicate 2
    (.loginMfa (sampleCaller 2) (some sampleUser) none "code" 1000 (sampleSession .full) none)

/-- Both logins have found the session when the first one takes the lock. -/
theorem one_code_one_login_twoLogins :
    ∃ p', runAll step (start sampleLib (sampleRows (some ⟨true, "code", none, none⟩))
        (threadsOf twoLogins)) (turns 1 1 ++ turns 0 7 ++ turns 1 3) = some p' ∧
      StepsGrow p'.world.log ∧ (p'.world.log.filterMap Note.recovery).Nodup :=
  ⟨_, rfl, (one_code_one_login sampleLib (sampleRows (some ⟨true, "code", none, none⟩))
    (Db.idle_load _) rfl (threadsOf twoLogins) (turns 1 1 ++ turns 0 7 ++ turns 1 3)).2 _ rfl⟩

/-! ### The secret of an enabled row -/

/-- The last confirmation in the log: the row under its lock and the code. -/
def lastConfirm (log : List Note) : Option (UserMfaRow × String × Nat × Int) :=
  log.foldl (fun last n =>
    match n with
    | .confirm row code time step => some (row, code, time, step)
    | _ => last) none

theorem lastConfirm_append (log : List Note) (n : Note) :
    lastConfirm (log ++ [n]) =
      match n with
      | .confirm row code time step => some (row, code, time, step)
      | _ => lastConfirm log := by
  simp [lastConfirm]

/-- The secret of an enabled row is the one that the last `mfa_confirm` got a valid
code for. -/
def Confirmed (lib : Crypto) (d : Rows) : Prop :=
  ∀ row : UserMfaRow, d.row .totp = some row → row.enabled = true →
    ∃ confirmed code time step, lastConfirm d.log = some (confirmed, code, time, step) ∧
      ValidCode lib confirmed code time step ∧ row.totpSecretEnc = confirmed.totpSecretEnc

/-- The row of `user_mfa`. -/
def totpRow (d : Rows) : Option UserMfaRow := d.row .totp

/-- An `mfa_setup` that loaded the row not enabled finds it so. -/
def Note.Current (row : Option UserMfaRow) : Note → Prop
  | .setup (some loaded) _ => loaded.enabled = false → ∀ c ∈ row, c.enabled = false
  | _ => True

instance (row : Option UserMfaRow) (n : Note) : Decidable (n.Current row) :=
  match n with
  | .setup (some loaded) _ =>
    inferInstanceAs (Decidable (loaded.enabled = false → ∀ c ∈ row, c.enabled = false))
  | .setup none _ | .confirm _ _ _ _ | .disable | .remove _ _ _ | .loginCode _ _ _
  | .loginRecovery _ _ | .loginPasskey _ => isTrue trivial

/-- If the session is about to commit an `mfa_setup` that loaded the row not
enabled, the row is not enabled now. -/
def SetupCurrent (d : Rows) (i : Nat) : Prop := ∀ n ∈ d.notes i, n.Current (totpRow d)

instance (d : Rows) (i : Nat) : Decidable (SetupCurrent d i) :=
  inferInstanceAs (Decidable (∀ n ∈ d.notes i, n.Current (totpRow d)))

theorem writeBack_setup {loaded current : UserMfaRow} {encrypted : String}
    (h : loaded.enabled = false → current.enabled = false) :
    (loaded.writeBack ⟨false, encrypted, none, none⟩ current).enabled = false := by
  simp only [UserMfaRow.writeBack]
  split
  · rename_i he
    exact h he.symm
  · rfl

theorem confirmed_commit {lib : Crypto} {d : Rows} {i : Nat} (h : Confirmed lib d)
    (hgood : Good lib (d.phase i)) (hcurrent : SetupCurrent d i) :
    Confirmed lib (d.commit i) := by
  intro row hrow henabled
  have hlog : (d.commit i).log = d.log ++ (d.phase i).notes := rfl
  rw [hlog]
  rcases notes_of_good hgood with hn | ⟨n, hn, hback⟩
  · rw [hn, List.append_nil]
    have hkept : (d.commit i).row .totp = d.row .totp := by
      rcases row_of_good hgood .totp with he | he
      · exact he
      · rw [hn] at he
        exact he
    exact h row (hkept.symm.trans hrow) henabled
  rw [hn, lastConfirm_append]
  have hgood' := row_of_good hgood .totp
  rw [hn] at hgood'
  -- where the row is the same, or has the same secret as before
  have hkept : (d.commit i).row .totp = d.row .totp → _ := fun he =>
    h row (he.symm.trans hrow) henabled
  cases n with
  | confirm before code time step =>
    obtain ⟨hvalid, hheld⟩ := hback
    have hexp := row_of_held hgood hheld
    rw [hn] at hexp
    obtain ⟨-, confirmed, hafter⟩ := hexp
    cases hafter.symm.trans hrow
    exact ⟨before, code, time, step, rfl, hvalid, rfl⟩
  | loginCode token before step =>
    rcases hgood' with he | ⟨hbefore, hafter⟩
    · exact hkept he
    · cases hafter.symm.trans hrow
      exact h before hbefore henabled
  | setup loaded encrypted =>
    rcases hgood' with he | ⟨-, -, hafter⟩ | ⟨l, c, rfl, hc, hafter⟩
    · exact hkept he
    · cases hafter.symm.trans hrow
      cases henabled
    · cases hafter.symm.trans hrow
      have hnotes : Note.setup (some l) encrypted ∈ d.notes i := by
        show _ ∈ (d.phase i).notes
        simp [hn]
      rw [writeBack_setup fun hl => hcurrent _ hnotes hl c hc] at henabled
      cases henabled
  | disable =>
    rcases hgood' with he | hafter
    · exact hkept he
    · cases hafter.symm.trans hrow
  | remove key hasTotp others => exact hkept (hgood'.elim id id)
  | loginRecovery token code => exact hkept (hgood'.elim id id)
  | loginPasskey token => exact hkept (hgood'.elim id id)

/-- **An enabled secret was confirmed.**  Along every interleaving in which no
`mfa_setup` that loaded the row not enabled commits on an enabled row, the secret
of an enabled row is the one that was confirmed. -/
theorem enabled_secret_confirmed (lib : Crypto) (d : Rows) (hd : d.Idle) (h : Confirmed lib d)
    (reqs : Nat → Option Request) (es : List Event)
    (hsetup : Along step (OnCommit SetupCurrent) (start lib d reqs) es)
    (p' : Requests) (hrun : runAll step (start lib d reqs) es = some p') :
    Confirmed lib p'.world := by
  apply run_invariant _ _ (disciplined_start hd reqs) h hsetup hrun
  · intro d d' hq hc row hrow
    rw [hq.row] at hrow
    rw [hq.log]
    exact hc row hrow
  · intro d i hc hgood hg
    exact confirmed_commit hc hgood hg

/-- A setup, a confirmation of the secret that was there before it, and one of its
own. -/
def setupAndConfirm : List Request :=
  [.setup (sampleCaller 1) (some sampleUser) "password" "new",
    .confirm (sampleCaller 1) (some sampleUser) "old" 1000 [],
    .confirm (sampleCaller 1) (some sampleUser) "new" 1000 ["recovery"]]

def pendingRows : Rows := sampleRows (some ⟨false, "old", none, none⟩)

theorem confirmed_pendingRows : Confirmed sampleLib pendingRows := by
  intro row hrow henabled
  cases hrow
  cases henabled

/-- One after the other. -/
theorem enabled_secret_confirmed_setupAndConfirm :
    ∃ p', runAll step (start sampleLib pendingRows (threadsOf setupAndConfirm))
        (turns 0 5 ++ turns 2 7) = some p' ∧ Confirmed sampleLib p'.world :=
  ⟨_, rfl, enabled_secret_confirmed sampleLib pendingRows (Db.idle_load _) confirmed_pendingRows
    (threadsOf setupAndConfirm) (turns 0 5 ++ turns 2 7) (by decide) _ rfl⟩

/-- The setup loads the row before the old secret is confirmed and writes back
after it: the new secret is enabled, and nobody has shown a code for it. -/
theorem unconfirmed_secret_enabled :
    Confirmed sampleLib pendingRows ∧
      ∃ p', runAll step (start sampleLib pendingRows (threadsOf setupAndConfirm))
          (turns 0 2 ++ turns 1 6 ++ turns 0 3) = some p' ∧ ¬ Confirmed sampleLib p'.world := by
  refine ⟨confirmed_pendingRows, _, rfl, ?_⟩
  intro h
  obtain ⟨row, code, time, step, hlast, -, hsecret⟩ := h _ rfl rfl
  cases hlast
  exact absurd hsecret (by decide)

/-! ### Mandated users stay enrolled -/

/-- The row of `user_mfa` is enabled. -/
def totpEnabled (d : Rows) : Bool :=
  match totpRow d with
  | some row => row.enabled
  | none => false

def hasPasskey (d : Rows) (among : Key → Bool) : Bool :=
  d.keys.any fun k => k.isPasskey && among k && (d.row k).isSome

def Enrolled (d : Rows) : Prop := totpEnabled d = true ∨ hasPasskey d (fun _ => true) = true

instance (d : Rows) : Decidable (Enrolled d) :=
  inferInstanceAs (Decidable (_ ∨ _))

/-- The event does not take the user from a factor to none. -/
def KeepsEnrolled (p : Requests) (e : Event) : Prop :=
  ∀ p' ∈ step p e, Enrolled p.world → Enrolled p'.world

instance (p : Requests) (e : Event) : Decidable (KeepsEnrolled p e) :=
  inferInstanceAs (Decidable (∀ p' ∈ step p e, _))

/-- For the row of `user_mfa`, a passkey is there; for a passkey, one of the other
factors that the last-factor guard saw is. -/
def Note.Covered (d : Rows) : Note → Bool
  | .setup _ _ | .disable => !totpEnabled d || hasPasskey d fun _ => true
  | .remove removed hasTotp others =>
    (hasTotp && totpEnabled d) ||
      hasPasskey d fun k => k != .passkey removed && others.contains k
  | _ => true

def Covered (d : Rows) (i : Nat) : Prop := ∀ n ∈ d.notes i, n.Covered d = true

instance (d : Rows) (i : Nat) : Decidable (Covered d i) :=
  inferInstanceAs (Decidable (∀ n ∈ d.notes i, n.Covered d = true))

theorem totpEnabled_iff {d : Rows} : totpEnabled d = true ↔
    ∃ row : UserMfaRow, d.row .totp = some row ∧ row.enabled = true := by
  show _ ↔ ∃ row : UserMfaRow, totpRow d = some row ∧ row.enabled = true
  unfold totpEnabled
  cases hrow : totpRow d with
  | none => simp
  | some row =>
    constructor
    · intro he
      exact ⟨row, rfl, he⟩
    · rintro ⟨row', heq, he⟩
      cases heq
      exact he

theorem hasPasskey_iff {d : Rows} {among : Key → Bool} : hasPasskey d among = true ↔
    ∃ id, among (.passkey id) = true ∧ d.row (.passkey id) ≠ none := by
  unfold hasPasskey
  rw [List.any_eq_true]
  constructor
  · rintro ⟨k, -, hk⟩
    simp only [Bool.and_eq_true] at hk
    obtain ⟨⟨hpasskey, hamong⟩, hrow⟩ := hk
    cases k with
    | passkey id => exact ⟨id, hamong, Option.isSome_iff_ne_none.mp hrow⟩
    | session id => cases hpasskey
    | totp => cases hpasskey
    | code id => cases hpasskey
    | trustedDevice id => cases hpasskey
  · rintro ⟨id, hamong, hrow⟩
    refine ⟨.passkey id, d.complete _ (.inl hrow), ?_⟩
    simp [Key.isPasskey, hamong, Option.isSome_iff_ne_none.mpr hrow]

theorem enrolled_iff {d : Rows} : Enrolled d ↔
    (∃ row : UserMfaRow, d.row .totp = some row ∧ row.enabled = true) ∨
      ∃ id, d.row (.passkey id) ≠ none := by
  simp [Enrolled, totpEnabled_iff, hasPasskey_iff]

theorem enrolled_of_kept {d d' : Rows} (h : Enrolled d)
    (htotp : ∀ row : UserMfaRow, d.row .totp = some row → row.enabled = true →
      ∃ row' : UserMfaRow, d'.row .totp = some row' ∧ row'.enabled = true)
    (hkeys : ∀ id, d.row (.passkey id) ≠ none → d'.row (.passkey id) ≠ none) : Enrolled d' := by
  rw [enrolled_iff] at h ⊢
  rcases h with ⟨row, hrow, henabled⟩ | ⟨id, hid⟩
  · exact .inl (htotp row hrow henabled)
  · exact .inr ⟨id, hkeys id hid⟩

theorem enrolled_commit {lib : Crypto} {d : Rows} {i : Nat} (hgood : Good lib (d.phase i))
    (hcovered : Covered d i) (h : Enrolled d) : Enrolled (d.commit i) := by
  have htotp := row_of_good hgood .totp
  have hkey : ∀ id, _ := fun id => row_of_good hgood (.passkey id)
  -- where a row is the same as before
  have hsame : (d.commit i).row .totp = d.row .totp → ∀ row : UserMfaRow, d.row .totp = some row →
      row.enabled = true →
      ∃ row' : UserMfaRow, (d.commit i).row .totp = some row' ∧ row'.enabled = true :=
    fun he row hrow henabled => ⟨row, he.trans hrow, henabled⟩
  have hkept : ∀ id, (d.commit i).row (.passkey id) = d.row (.passkey id) →
      d.row (.passkey id) ≠ none → (d.commit i).row (.passkey id) ≠ none :=
    fun id he hid => by rwa [he]
  rcases notes_of_good hgood with hn | ⟨n, hn, hback⟩
  · rw [hn] at htotp hkey
    exact enrolled_of_kept h (hsame (htotp.elim id id)) fun key => hkept key ((hkey key).elim id id)
  have hcov := hcovered n (by show _ ∈ (d.phase i).notes; simp [hn])
  have hheld := fun k => row_of_held (k := k) hgood
  rw [hn] at htotp hkey hheld
  cases n with
  | confirm before code time step =>
    obtain ⟨-, confirmed, hafter⟩ := hheld .totp hback.2
    exact enrolled_iff.mpr (.inl ⟨_, hafter, rfl⟩)
  | loginCode token before step =>
    refine enrolled_of_kept h (fun row hrow henabled => ?_) fun key =>
      hkept key ((hkey key).elim id id)
    obtain ⟨hbefore, hafter⟩ := hheld .totp hback.2
    cases hbefore.symm.trans hrow
    exact ⟨_, hafter, henabled⟩
  | loginRecovery token code =>
    exact enrolled_of_kept h (hsame (htotp.elim id id)) fun key => hkept key ((hkey key).elim id id)
  | loginPasskey token =>
    refine enrolled_of_kept h (hsame (htotp.elim id id)) fun key hid => ?_
    rcases hkey key with he | he
    · exact hkept key he hid
    · exact he
  | setup loaded encrypted =>
    have hany : hasPasskey d (fun _ => true) = true := by
      rcases h with h | h
      · simpa [Note.Covered, h] using hcov
      · exact h
    obtain ⟨key, -, hid⟩ := hasPasskey_iff.mp hany
    exact enrolled_iff.mpr (.inr ⟨key, hkept key ((hkey key).elim id id) hid⟩)
  | disable =>
    have hany : hasPasskey d (fun _ => true) = true := by
      rcases h with h | h
      · simpa [Note.Covered, h] using hcov
      · exact h
    obtain ⟨key, -, hid⟩ := hasPasskey_iff.mp hany
    exact enrolled_iff.mpr (.inr ⟨key, hkept key ((hkey key).elim id id) hid⟩)
  | remove removed hasTotp others =>
    simp only [Note.Covered, Bool.or_eq_true, Bool.and_eq_true, hasPasskey_iff,
      totpEnabled_iff] at hcov
    rcases hcov with ⟨-, row, hrow, henabled⟩ | ⟨key, ⟨hne, -⟩, hid⟩
    · exact enrolled_iff.mpr (.inl (hsame (htotp.elim id id) row hrow henabled))
    · rcases hkey key with he | ⟨he, -⟩
      · exact enrolled_iff.mpr (.inr ⟨key, hkept key he hid⟩)
      · simp [he] at hne

/-- **Mandated users stay enrolled.**  Along every interleaving in which a removal
commits only while another factor is there, no event takes the user from a factor
to none. -/
theorem stays_enrolled (lib : Crypto) (d : Rows) (hd : d.Idle) (reqs : Nat → Option Request)
    (es : List Event)
    (hcovered : Along step (OnCommit Covered) (start lib d reqs) es) :
    Along step KeepsEnrolled (start lib d reqs) es := by
  refine run_along (P := fun _ => True) (fun _ _ _ _ => trivial) (fun _ _ _ _ _ => trivial) ?_
    (disciplined_start hd reqs) trivial hcovered
  intro p e hall _ hg p' hstep henrolled
  obtain ⟨-, hq | ⟨i, hi, hgood, hw⟩⟩ := step_cases hall hstep
  · refine enrolled_of_kept henrolled (fun row hrow he => ⟨row, ?_, he⟩) fun key hid => ?_
    · rw [hq.row]
      exact hrow
    · rw [hq.row]
      exact hid
  · rw [hw]
    exact enrolled_commit hgood (hg i hi) henrolled

/-- The passkeys are removed one after the other, the last one not. -/
theorem stays_enrolled_deletes :
    Along step KeepsEnrolled (start sampleLib (sampleRows none) (threadsOf
      [.delete (sampleCaller 1) (some sampleUser) .all 3,
        .delete (sampleCaller 1) (some sampleUser) .all 4])) (turns 0 7 ++ turns 1 5) :=
  stays_enrolled _ _ (Db.idle_load _) _ _ (by decide)

/-- The policy requires a second factor, and `mfa_disable` removes the only one, or
two requests remove the two passkeys, each relying on the other. -/
theorem mandated_user_unenrolled :
    Mfa.policyRequiresMfa .all sampleUser = true ∧
      ¬ Along step KeepsEnrolled (start sampleLib
        (Db.load [⟨.session 1, sampleSession .full⟩,
          ⟨.totp, (⟨true, "code", none, none⟩ : UserMfaRow)⟩])
        (threadsOf [.disable (sampleCaller 1) (some sampleUser) "password"])) (turns 0 7) ∧
      ¬ Along step KeepsEnrolled (start sampleLib (sampleRows none) (threadsOf
        [.delete (sampleCaller 1) (some sampleUser) .all 3,
          .delete (sampleCaller 1) (some sampleUser) .all 4]))
        (turns 0 4 ++ turns 1 4 ++ turns 0 3 ++ turns 1 3) := by
  refine ⟨by decide, by decide, by decide⟩

/-! ### A challenge is used once -/

/-- The pending session that a passkey made full. -/
def Note.passkeyLogin : Note → Option Nat
  | .loginPasskey token => some token
  | _ => none

/-- A pending session that a passkey made full is gone for good. -/
structure ChallengesUsed (d : Rows) : Prop where
  once : (d.log.filterMap Note.passkeyLogin).Nodup
  gone : ∀ token ∈ d.log.filterMap Note.passkeyLogin, d.Gone (.session token)

theorem challengesUsed_commit {lib : Crypto} {d : Rows} {i : Nat} (h : ChallengesUsed d)
    (hgood : Good lib (d.phase i)) : ChallengesUsed (d.commit i) := by
  have hlog : (d.commit i).log = d.log ++ (d.phase i).notes := rfl
  have hold : ∀ token ∈ d.log.filterMap Note.passkeyLogin, (d.commit i).Gone (.session token) :=
    fun token ht => (h.gone token ht).serve (q := .commit) rfl nofun
  have hsame : (d.commit i).log.filterMap Note.passkeyLogin =
      d.log.filterMap Note.passkeyLogin → ChallengesUsed (d.commit i) := by
    intro he
    constructor
    · rw [he]
      exact h.once
    · rw [he]
      exact hold
  rcases notes_of_good hgood with hn | ⟨n, hn, hback⟩
  · exact hsame (by simp [hlog, hn])
  cases hlogin : n.passkeyLogin with
  | none => exact hsame (by simp [hlog, hn, hlogin])
  | some token =>
    obtain ⟨row, hheld⟩ : ∃ row, (d.phase i).held (.session token) = some (some row, none) := by
      cases n with
      | loginPasskey t =>
        cases hlogin
        exact hback
      | setup loaded encrypted => cases hlogin
      | confirm row code time step => cases hlogin
      | disable => cases hlogin
      | remove id hasTotp others => cases hlogin
      | loginCode token row step => cases hlogin
      | loginRecovery token id => cases hlogin
    have hmore : (d.commit i).log.filterMap Note.passkeyLogin =
        d.log.filterMap Note.passkeyLogin ++ [token] := by
      simp [hlog, hn, hlogin]
    constructor
    · rw [hmore]
      apply h.once.append (List.nodup_singleton token)
      -- the session was there when its challenge was written back
      intro t ht ht'
      obtain rfl := List.mem_singleton.mp ht'
      have hrow := (Db.row_of_held hheld).1
      rw [(h.gone t ht).row] at hrow
      cases hrow
    · rw [hmore]
      intro t ht
      rcases List.mem_append.mp ht with ht | ht
      · exact hold t ht
      · obtain rfl := List.mem_singleton.mp ht
        exact Db.gone_of_deleted hheld

/-- **A challenge is single-use.**  Along every interleaving of requests, whatever
the counters of the authenticators are, at most one passkey login makes a full
session for a pending one. -/
theorem challenge_single_use (lib : Crypto) (d : Rows) (hd : d.Idle) (hlog : d.log = [])
    (reqs : Nat → Option Request) (es : List Event) (p' : Requests)
    (hrun : runAll step (start lib d reqs) es = some p') :
    (p'.world.log.filterMap Note.passkeyLogin).Nodup := by
  have hstart : ChallengesUsed (start lib d reqs).world := by
    constructor <;> simp [start, hlog]
  have hend : ChallengesUsed p'.world := by
    refine run_invariant (G := fun _ _ => True) ?_ (fun d i h hgood _ =>
      challengesUsed_commit h hgood) (disciplined_start hd reqs) hstart
      (along_of_forall fun _ _ _ _ => trivial) hrun
    intro d d' hq h
    constructor
    · rw [hq.log]
      exact h.once
    · rw [hq.log]
      intro token ht
      exact hq.gone _ nofun (h.gone token ht)
  exact hend.once

/-- Two requests with one assertion, whose counter is 0 each time. -/
theorem challenge_single_use_twice :
    ∃ p', runAll step (start sampleLib (sampleRows none) (threadsOf (List.replicate 2
        (.loginWebauthn (sampleCaller 2) (some sampleUser) none true (some "a") "assertion"
          (sampleSession .full) none)))) (turns 0 1 ++ turns 1 2 ++ turns 0 8 ++ turns 1 3) =
        some p' ∧
      (p'.world.log.filterMap Note.passkeyLogin).Nodup :=
  ⟨_, rfl, challenge_single_use sampleLib (sampleRows none) (Db.idle_load _) rfl
    (threadsOf (List.replicate 2 (.loginWebauthn (sampleCaller 2) (some sampleUser) none true
      (some "a") "assertion" (sampleSession .full) none)))
    (turns 0 1 ++ turns 1 2 ++ turns 0 8 ++ turns 1 3) _ rfl⟩

end MfaRequests

end Opngms
