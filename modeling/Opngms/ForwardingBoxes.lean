/-
Opngms/ForwardingBoxes.lean

What an operation of log forwarding leaves on the box and in the row.

An operation is a few requests and one write at the end.  A request that fails undoes
the write and nothing on the box, so box and row agree afterwards only if no request had
changed anything by then; and an answer to a delete says nothing, so a delete that the
box does not carry out goes unnoticed if the operation ends well.  `Watch` records this
along a program, and `Watch.Clean` is the case in which neither happened.
`provision_device` moreover writes over the uuids that are stored (`Op.Spares`), and an
exception that the daily renewal does not catch rolls back the rows of the devices that
were renewed before.

In a run whose operations are all clean, the certificates and destinations on every box
are those of its row (**`box_matches_row`**).  One refused request is enough for a
certificate that nothing removes (`certificate_orphaned`).
-/
import Opngms.LogForwarding

namespace Opngms

namespace LogForwarding

open Dialogue (Exchange Follows Discipline)

/-- The client certificates and destinations on the box are those the row stores. -/
def Agrees (b : Box) (row : Option Row) : Prop :=
  b.certs.map Prod.fst = (row.bind Row.opnsenseCertUuid).toList ∧
    b.dests = (row.bind Row.opnsenseDestUuid).toList

instance (b : Box) (row : Option Row) : Decidable (Agrees b row) := by
  unfold Agrees
  infer_instance

/-- The row stores no certificate and no destination. -/
def Unstored (row : Option Row) : Prop :=
  row.bind Row.opnsenseCertUuid = none ∧ row.bind Row.opnsenseDestUuid = none

instance (row : Option Row) : Decidable (Unstored row) := by
  unfold Unstored
  infer_instance

/-! ### Watching the requests -/

/-- The request changes a certificate or a destination. -/
def BoxRequest.mutates : BoxRequest → Bool
  | addCert _ => true
  | addDestination _ _ _ => true
  | delDestination _ => true
  | delCert _ => true
  | _ => false

/-- The client needs what the box answers if it carries the request out. -/
def BoxRequest.needed : BoxRequest → Bool
  | addCert _ => true
  | getCert _ => true
  | addDestination _ _ _ => true
  | _ => false

/-- The request removes something, and its answer is not looked at. -/
def BoxRequest.removes : BoxRequest → Bool
  | delDestination _ => true
  | delCert _ => true
  | _ => false

def Turn.arrives (turn : Turn) : Bool := turn.reply == .answered

/-- The box, and what happened on the way: whether a step failed, whether the box changed,
whether a delete was answered and not carried out, and whether a step raised what the
renewal does not catch. -/
structure Watch where
  box : Box
  failed : Bool
  changed : Bool
  ignored : Bool
  uncaught : Bool
  deriving DecidableEq

/-- A step that gives nothing raises what nobody catches. -/
def Watch.step {α : Type} (w : Watch) (a : Option α) : Watch :=
  { w with failed := w.failed || a.isNone, uncaught := w.uncaught || a.isNone }

def Watch.next (w : Watch) : (q : Ask) → q.Answer → Watch
  | .box r, turn =>
    { box := w.box.act r turn
      failed := w.failed || !Turn.arrives turn || (r.needed && !Turn.acts turn)
      changed := w.changed || (r.mutates && Turn.acts turn)
      ignored := w.ignored || (r.removes && Turn.arrives turn && !Turn.acts turn)
      uncaught := w.uncaught || (Turn.reply turn == .misshapen) }
  | .issue, cert => w.step (α := Cert) cert
  | .now, time => w.step (α := Nat) time

def watch : Discipline Ask Ask.Answer Watch where
  allows _ _ := True
  admits
    | w, .box r, turn => w.box.Fresh r turn
    | _, .issue, _ => True
    | _, .now, _ => True
  next := Watch.next

/-- No request failed once the box had changed, and no delete went unnoticed, unless the
operation failed anyway. -/
def Watch.Clean (w : Watch) : Prop :=
  (w.failed = true → w.changed = false) ∧ (w.ignored = true → w.failed = true)

instance (w : Watch) : Decidable w.Clean := by
  unfold Watch.Clean
  infer_instance

def Watch.mid (b : Box) (changed ignored : Bool) : Watch := ⟨b, false, changed, ignored, false⟩

def Watch.start (b : Box) : Watch := .mid b false false

/-- How an operation on the box ends: well if every request was answered, and then with
what is promised unless a delete went unnoticed; and else because a request failed, or
before the box was changed. -/
def Ends {α : Type} (Good : Watch → α → Prop) (w : Watch) : Except Failure α → Prop
  | .ok a => w.failed = false ∧ (w.ignored = false → Good w a)
  | .error _ => w.failed = true ∨ w.changed = false

/-- An operation on the row that ends cleanly leaves box and row in agreement. -/
def Settles {α : Type} (row : Option Row) (after : α → Option Row) (w : Watch)
    (z : Except Failure α) : Prop :=
  w.Clean → Agrees w.box (match z with
    | .ok a => after a
    | .error _ => row)

section Watch

variable {α β : Type} {row : Option Row} {Good : Watch → β → Prop} {w : Watch} {b : Box}
  {changed ignored : Bool}

theorem Watch.next_unchanged (hw : w.changed = false → w.box = b) (q : Ask) (a : q.Answer) :
    (w.next q a).changed = false → (w.next q a).box = b := by
  cases q with
  | issue => exact hw
  | now => exact hw
  | box r =>
    intro hnext
    obtain ⟨hchanged, hacts⟩ := Bool.or_eq_false_iff.mp hnext
    obtain ⟨acts, reply, uuid⟩ := a
    show w.box.act r ⟨acts, reply, uuid⟩ = b
    rw [← hw hchanged]
    cases acts with
    | false => rfl
    | true => cases r <;> first | rfl | exact nomatch hacts

theorem follows_unchanged (hw : w.changed = false → w.box = b) (p : Prog β) :
    Follows watch (fun w _ => w.changed = false → w.box = b) w p :=
  Follows.of_preserved (fun _ _ _ => trivial) (fun _ q a hw _ => Watch.next_unchanged hw q a) p hw

theorem Ends.settles {after : β → Option Row} {z : Except Failure β} (hrow : Agrees b row)
    (h : Ends Good w z) (hunchanged : w.changed = false → w.box = b)
    (hgood : ∀ a, Good w a → Agrees w.box (after a)) : Settles row after w z := by
  rintro ⟨hfail, hign⟩
  cases z with
  | ok a =>
    -- It did not fail, so no delete went unnoticed.
    obtain ⟨hok, h⟩ := h
    apply hgood a
    apply h
    cases hi : w.ignored with
    | false => rfl
    | true => exact nomatch hok.symm.trans (hign hi)
  | error x =>
    -- It failed before the box was changed, and the write is rolled back.
    have hchanged : w.changed = false := h.elim hfail id
    show Agrees w.box row
    rw [hunchanged hchanged]
    exact hrow

theorem follows_settles {after : β → Option Row} {p : Prog β} (hrow : Agrees b row)
    (h : Follows watch (Ends fun w a => Agrees w.box (after a)) (.start b) p) :
    Follows watch (Settles row after) (.start b) p := by
  refine (h.and (follows_unchanged (fun _ => rfl) p)).mono ?_
  rintro w z ⟨hends, hunchanged⟩
  exact hends.settles hrow hunchanged fun _ => id

theorem follows_post {r : BoxRequest} {f : Option Uuid → Prog β}
    (hgo : ∀ turn, b.Fresh r turn → (r.needed = true → turn.acts = true) →
      Follows watch (Ends Good)
        (.mid (b.act r turn) (changed || (r.mutates && turn.acts))
          (ignored || (r.removes && !turn.acts))) (f (r.answer turn)))
    (hnone : r.needed = true → ∀ w, w.failed = true → Follows watch (Ends Good) w (f none)) :
    Follows watch (Ends Good) (.mid b changed ignored) (post r >>= f) := by
  refine ⟨trivial, fun (turn : Turn) hfresh => ?_⟩
  have hfresh : b.Fresh r turn := hfresh
  obtain ⟨acts, reply, uuid⟩ := turn
  cases reply with
  | failed =>
    -- No answer: the client raises, and the operation has failed.
    exact .inl rfl
  | misshapen => exact .inl rfl
  | answered =>
    have hnext : watch.next (.mid b changed ignored) (.box r) ⟨acts, .answered, uuid⟩ =
        ⟨b.act r ⟨acts, .answered, uuid⟩, r.needed && !acts, changed || (r.mutates && acts),
          ignored || (r.removes && !acts), false⟩ := by
      simp [watch, Watch.next, Watch.mid, Turn.arrives]
    rw [hnext]
    show Follows watch _ _
      ((Pure.pure (r.answer ⟨acts, .answered, uuid⟩) : Prog (Option Uuid)) >>= f)
    -- An answer, which may lack what the client needs.
    by_cases hstop : r.needed = true ∧ acts = false
    · obtain ⟨hneed, rfl⟩ := hstop
      have hanswer : r.answer ⟨false, .answered, uuid⟩ = none := by cases r <;> rfl
      have h := hnone hneed ⟨b.act r ⟨false, .answered, uuid⟩, true,
        changed || (r.mutates && false), ignored || (r.removes && !false), false⟩ rfl
      rw [← hanswer] at h
      simpa [hneed] using h
    · have hacts : r.needed = true → acts = true := by simpa using hstop
      have hfail : (r.needed && !acts) = false := by
        cases hneed : r.needed with
        | false => rfl
        | true => simp [hacts hneed]
      have h := hgo ⟨acts, .answered, uuid⟩ hfresh hacts
      simpa [Watch.mid, hfail] using h

/-! ### The client's calls -/

theorem follows_importCert {cert : Cert} {f : Option Uuid → Prog β}
    (hgo : ∀ u b', u ∉ b.certs.map Prod.fst → b'.certs.map Prod.fst = u :: b.certs.map Prod.fst →
      b'.dests = b.dests → Follows watch (Ends Good) (.mid b' true false) (f (some u)))
    (hnone : ∀ w, w.failed = true → Follows watch (Ends Good) w (f none)) :
    Follows watch (Ends Good) (.start b) (importCert cert >>= f) := by
  apply follows_post
  · intro turn hfresh hacts
    have hacts : turn.acts = true := hacts rfl
    have h := hgo turn.uuid (b.carryOut turn.uuid (.addCert cert)) hfresh rfl rfl
    simpa [Box.act, BoxRequest.answer, BoxRequest.mutates, BoxRequest.removes, hacts] using h
  · exact fun _ => hnone

theorem follows_reconfigure {f : Option Uuid → Prog β}
    (hgo : Follows watch (Ends Good) (.mid b changed ignored) (f none)) :
    Follows watch (Ends Good) (.mid b changed ignored) (post .reconfigure >>= f) := by
  apply follows_post
  · intro turn _ _
    have hbox : b.act .reconfigure turn = b := by
      cases hact : turn.acts <;> simp [Box.act, Box.carryOut, hact]
    simpa [hbox, BoxRequest.answer, BoxRequest.mutates, BoxRequest.removes] using hgo
  · intro h
    cases h

theorem addSyslogDestination_bind (hostname : String) (port : Nat) (u : Uuid)
    (f : Uuid → Prog β) :
    addSyslogDestination hostname port (some u) >>= f =
      post (.getCert u) >>= fun certRef =>
        if certRef = none then throw Failure.opnsense
        else post (.addDestination hostname port u) >>= fun answer =>
          match answer with
          | none => throw Failure.opnsense
          | some v => post .reconfigure >>= fun _ => f v := by
  simp only [addSyslogDestination, safeUuid, Dialogue.bind_eq, Dialogue.pure_eq, Dialogue.pure_bind,
    Dialogue.bind_assoc]
  apply congrArg (Dialogue.bind _)
  funext certRef
  cases certRef with
  | none => rfl
  | some ref =>
    simp only [reduceCtorEq, if_false, Dialogue.bind_assoc]
    apply congrArg (Dialogue.bind _)
    funext answer
    cases answer with
    | none => rfl
    | some v => exact Dialogue.bind_assoc _ _ _

theorem follows_addSyslogDestination {hostname : String} {port : Nat} {u : Uuid}
    {f : Uuid → Prog β}
    (hgo : ∀ v b', v ∉ b.dests → b'.dests = v :: b.dests → b'.certs = b.certs →
      Follows watch (Ends Good) (.mid b' true false) (f v)) :
    Follows watch (Ends Good) (.mid b true false)
      (addSyslogDestination hostname port (some u) >>= f) := by
  rw [addSyslogDestination_bind]
  apply follows_post
  · intro turn _ hacts
    have hacts : turn.acts = true := hacts rfl
    simp only [Box.act, Box.carryOut, BoxRequest.answer, hacts]
    apply follows_post
    · intro turn hfresh hacts
      have hacts : turn.acts = true := hacts rfl
      simp only [Box.act, BoxRequest.answer, hacts]
      apply follows_reconfigure
      have h := hgo turn.uuid (b.carryOut turn.uuid (.addDestination hostname port u)) hfresh
        rfl rfl
      simpa [BoxRequest.mutates, BoxRequest.removes] using h
    · exact fun _ w hw => .inl hw
  · exact fun _ w hw => .inl hw

theorem filter_append_stored {keep : List Uuid} {u : Uuid} (hkeep : u ∉ keep) :
    (keep ++ [u]).filter (· ≠ u) = keep := by
  have hall : ∀ v ∈ keep, v ≠ u := by
    rintro v hv rfl
    exact hkeep hv
  rw [List.filter_append, List.filter_eq_self.mpr (by simpa using hall)]
  simp

theorem follows_deleteDestination {stored : Option Uuid} {keep : List Uuid}
    {f : Unit → Prog β} (hdests : b.dests = keep ++ stored.toList)
    (hkeep : ∀ u ∈ stored, u ∉ keep)
    (hgo : ∀ b' changed' ignored',
      (ignored' = false → ignored = false ∧ b'.dests = keep ∧ b'.certs = b.certs) →
      Follows watch (Ends Good) (.mid b' changed' ignored') (f ())) :
    Follows watch (Ends Good) (.mid b changed ignored)
      (onStored stored deleteSyslogDestination >>= f) := by
  cases stored with
  | none =>
    have hdests : b.dests = keep := by simpa using hdests
    exact hgo b changed ignored fun h => ⟨h, hdests, rfl⟩
  | some u =>
    have hbind : onStored (some u) deleteSyslogDestination >>= f =
        post (.delDestination u) >>= fun _ => post .reconfigure >>= fun _ => f () := by
      simp only [onStored, deleteSyslogDestination, Dialogue.bind_eq, Dialogue.pure_eq,
        Dialogue.bind_assoc, Dialogue.pure_bind]
    rw [hbind]
    apply follows_post
    · intro turn _ _
      apply follows_reconfigure
      apply hgo
      intro hign
      obtain ⟨hign, hrem⟩ := Bool.or_eq_false_iff.mp hign
      have hacts : turn.acts = true := by simpa [BoxRequest.removes] using hrem
      have hfilter : b.dests.filter (· ≠ u) = keep := by
        rw [hdests]
        exact filter_append_stored (hkeep u rfl)
      refine ⟨hign, ?_, ?_⟩
      · simpa [Box.act, Box.carryOut, hacts] using hfilter
      · simp [Box.act, Box.carryOut, hacts]
    · exact fun h => nomatch h

theorem follows_deleteCert {stored : Option Uuid} {keep : List Uuid} {f : Unit → Prog β}
    (hcerts : ignored = false → b.certs.map Prod.fst = keep ++ stored.toList)
    (hkeep : ∀ u ∈ stored, u ∉ keep)
    (hgo : ∀ b' changed' ignored',
      (ignored' = false → ignored = false ∧ b'.certs.map Prod.fst = keep ∧ b'.dests = b.dests) →
      Follows watch (Ends Good) (.mid b' changed' ignored') (f ())) :
    Follows watch (Ends Good) (.mid b changed ignored) (onStored stored deleteCert >>= f) := by
  cases stored with
  | none => exact hgo b changed ignored fun h => ⟨h, by simpa using hcerts h, rfl⟩
  | some u =>
    have hbind : onStored (some u) deleteCert >>= f = post (.delCert u) >>= fun _ => f () := by
      simp only [onStored, deleteCert, Dialogue.bind_eq, Dialogue.pure_eq, Dialogue.bind_assoc,
        Dialogue.pure_bind]
    rw [hbind]
    apply follows_post
    · intro turn _ _
      apply hgo
      intro hign
      obtain ⟨hign, hrem⟩ := Bool.or_eq_false_iff.mp hign
      have hacts : turn.acts = true := by simpa [BoxRequest.removes] using hrem
      have hfilter : (b.certs.filter (·.1 ≠ u)).map Prod.fst = keep := by
        have hmap : (b.certs.filter (·.1 ≠ u)).map Prod.fst =
            (b.certs.map Prod.fst).filter (· ≠ u) := by
          rw [List.filter_map]
          rfl
        rw [hmap, hcerts hign]
        exact filter_append_stored (hkeep u rfl)
      refine ⟨hign, ?_, ?_⟩
      · simpa [Box.act, Box.carryOut, hacts] using hfilter
      · simp [Box.act, Box.carryOut, hacts]
    · exact fun h => nomatch h

/-! ### The operations -/

theorem follows_deviceCert {ca : Bool} {f : Cert → Prog β}
    (hgo : ∀ cert, Follows watch (Ends Good) (.start b) (f cert)) :
    Follows watch (Ends Good) (.start b) (deviceCert ca >>= f) := by
  cases ca with
  | false => exact .inr rfl
  | true =>
    refine ⟨trivial, fun (cert : Option Cert) _ => ?_⟩
    cases cert with
    | none => exact .inl rfl
    | some cert => exact hgo cert

theorem follows_now {f : Nat → Prog β}
    (hgo : ∀ t, Follows watch (Ends Good) (.mid b changed ignored) (f t)) :
    Follows watch (Ends Good) (.mid b changed ignored) (now >>= f) := by
  refine ⟨trivial, fun (t : Option Nat) _ => ?_⟩
  cases t with
  | none => exact .inl rfl
  | some t =>
    have hstep : watch.next (.mid b changed ignored) .now (some t) = .mid b changed ignored := by
      simp [watch, Watch.next, Watch.step, Watch.mid]
    rw [hstep]
    exact hgo t

theorem forwarding_cases (row : Option Row) :
    (∃ r, row = some r ∧ forwarding row = pure r) ∨ forwarding row = throw .value := by
  cases row with
  | none => exact .inr rfl
  | some r =>
    cases hen : r.enabled with
    | false =>
      refine .inr ?_
      simp only [forwarding, hen]
      rfl
    | true =>
      refine .inl ⟨r, rfl, ?_⟩
      simp only [forwarding, hen]
      rfl

theorem follows_forwarding {f : Row → Prog β}
    (hgo : ∀ r, row = some r → Follows watch (Ends Good) (.start b) (f r)) :
    Follows watch (Ends Good) (.start b) (forwarding row >>= f) := by
  rcases forwarding_cases row with ⟨r, hr, heq⟩ | heq
  · rw [heq]
    exact hgo r hr
  · rw [heq]
    exact .inr rfl

theorem follows_removeForwarding {r : Row} {f : Unit → Prog β} (hrow : Agrees b (some r))
    (hgo : ∀ b' changed ignored,
      (ignored = false → b'.certs.map Prod.fst = [] ∧ b'.dests = []) →
      Follows watch (Ends Good) (.mid b' changed ignored) (f ())) :
    Follows watch (Ends Good) (.start b) (removeForwarding r >>= f) := by
  rw [removeForwarding, Dialogue.bind_eq, Dialogue.bind_eq, Dialogue.bind_assoc]
  have hdests : b.dests = [] ++ r.opnsenseDestUuid.toList := hrow.2
  apply follows_deleteDestination hdests (by simp)
  intro b₁ changed₁ ignored₁ h₁
  have hcerts : ignored₁ = false →
      b₁.certs.map Prod.fst = [] ++ r.opnsenseCertUuid.toList := by
    intro hign
    rw [(h₁ hign).2.2]
    exact hrow.1
  apply follows_deleteCert hcerts (by simp)
  intro b₂ changed₂ ignored₂ h₂
  apply hgo
  intro hign
  obtain ⟨hign₁, hcerts₂, hdests₂⟩ := h₂ hign
  exact ⟨hcerts₂, hdests₂.trans (h₁ hign₁).2.1⟩

theorem follows_provisionDevice {ca : Bool} {settings : Settings} {tenantId : TenantId}
    (hrow : Agrees b row) :
    Follows watch
      (Ends fun w a => w.changed = true ∧ (Unstored row → Agrees w.box (some a)))
      (.start b) (provisionDevice ca settings tenantId row) := by
  apply follows_deviceCert
  intro cert
  have himport : ∀ caUuid, Follows watch
      (Ends fun w a => w.changed = true ∧ (Unstored row → Agrees w.box (some a))) (.start b)
      (importCert cert >>= fun certUuid =>
        addSyslogDestination settings.syslogReceiverHost settings.syslogTlsPort certUuid >>=
        fun destUuid => now >>= fun provisioned =>
          pure { tenantId := tenantId, enabled := true
                 certSerial := hex cert.serial, certFingerprint := cert.fingerprint
                 certNotAfter := some cert.notAfter
                 opnsenseCaUuid := caUuid, opnsenseCertUuid := certUuid
                 opnsenseDestUuid := some destUuid
                 provisionedAt := some provisioned, revokedAt := none }) := by
    intro caUuid
    apply follows_importCert
    · intro u b₁ _ hcerts₁ hdests₁
      apply follows_addSyslogDestination
      intro v b₂ _ hdests₂ hcerts₂
      apply follows_now
      intro t
      refine ⟨rfl, fun _ => ⟨rfl, ?_⟩⟩
      rintro ⟨hcert, hdest⟩
      have hnocert : b.certs.map Prod.fst = [] := by simpa [hcert] using hrow.1
      have hnodest : b.dests = [] := by simpa [hdest] using hrow.2
      have hcerts : b₂.certs.map Prod.fst = [u] := by rw [hcerts₂, hcerts₁, hnocert]
      have hdests : b₂.dests = [v] := by rw [hdests₂, hdests₁, hnodest]
      exact ⟨hcerts, hdests⟩
    · exact fun w hw => .inl hw
  cases hca : row.bind Row.opnsenseCaUuid with
  | some u => exact himport (some u)
  | none =>
    apply follows_post
    · intro turn _ _
      have hbox : b.act .addCa turn = b := by
        cases hact : turn.acts <;> simp [Box.act, Box.carryOut, hact]
      rw [hbox]
      exact himport _
    · exact fun h => nomatch h

theorem provisionDevice_settles {ca : Bool} {settings : Settings} {tenantId : TenantId}
    (hrow : Agrees b row) :
    Follows watch (fun w z => (w.changed = true → Unstored row) → Settles row some w z)
      (.start b) (provisionDevice ca settings tenantId row) := by
  refine ((follows_provisionDevice hrow).and (follows_unchanged (fun _ => rfl) _)).mono ?_
  rintro w z ⟨hends, hunchanged⟩ hspares
  apply hends.settles hrow hunchanged
  rintro a ⟨hchanged, hagree⟩
  exact hagree (hspares hchanged)

theorem follows_deprovisionDevice (hrow : Agrees b row) :
    Follows watch (Ends fun w stored => Agrees w.box (Option.or stored row)) (.start b)
      (deprovisionDevice row) := by
  cases row with
  | none => exact ⟨rfl, fun _ => hrow⟩
  | some r =>
    apply follows_removeForwarding hrow
    intro b' changed ignored h
    exact ⟨rfl, h⟩

theorem follows_rotateDeviceCert {ca : Bool} {settings : Settings} (hrow : Agrees b row) :
    Follows watch (Ends fun w a => Agrees w.box (some a)) (.start b)
      (rotateDeviceCert ca settings row) := by
  apply follows_forwarding
  intro r hr
  rw [hr] at hrow
  apply follows_deviceCert
  intro cert
  apply follows_importCert
  · intro u b₁ hu hcerts₁ hdests₁
    apply follows_addSyslogDestination
    intro v b₂ hv hdests₂ hcerts₂
    -- Both generations are on the box now; the old one is deleted.
    have hdests : b₂.dests = [v] ++ r.opnsenseDestUuid.toList := by
      rw [hdests₂, hdests₁, hrow.2]
      rfl
    have hkeep : ∀ w ∈ r.opnsenseDestUuid, w ∉ [v] := by
      -- The new uuid is not the old one.
      intro w hw hmem
      rw [List.mem_singleton.mp hmem] at hw
      apply hv
      rw [hdests₁, hrow.2]
      simpa using hw
    apply follows_deleteDestination hdests hkeep
    intro b₃ changed₃ ignored₃ h₃
    have hcerts : ignored₃ = false →
        b₃.certs.map Prod.fst = [u] ++ r.opnsenseCertUuid.toList := by
      intro hign
      rw [(h₃ hign).2.2, hcerts₂, hcerts₁, hrow.1]
      rfl
    have hkeep : ∀ w ∈ r.opnsenseCertUuid, w ∉ [u] := by
      intro w hw hmem
      rw [List.mem_singleton.mp hmem] at hw
      apply hu
      rw [hrow.1]
      simpa using hw
    apply follows_deleteCert hcerts hkeep
    intro b₄ changed₄ ignored₄ h₄
    apply follows_now
    intro t
    refine ⟨rfl, fun hign => ?_⟩
    obtain ⟨hign₃, hcerts₄, hdests₄⟩ := h₄ hign
    exact ⟨hcerts₄, hdests₄.trans (h₃ hign₃).2.1⟩
  · exact fun w hw => .inl hw

theorem follows_revokeDevice {tenantId : TenantId} {deviceId : DeviceId}
    {reason : Option String} (hrow : Agrees b row) :
    Follows watch (Ends fun w stored => Agrees w.box (some stored.1)) (.start b)
      (revokeDevice tenantId deviceId row reason) := by
  apply follows_forwarding
  intro r hr
  rw [hr] at hrow
  apply follows_removeForwarding hrow
  intro b' changed ignored h
  apply follows_now
  intro t
  exact ⟨rfl, h⟩

end Watch

/-! ### The renewal -/

section Renewal

variable {α β : Type} {ca : Bool} {settings : Settings} {row : Option Row} {w : Watch}

/-- The failures that end the renewal: with the CA in place only what nobody catches, and
then it was noted. -/
def Noted (w : Watch) (x : Failure) : Prop :=
  x ≠ .caNotInitialized ∧ (x = .uncaught → w.uncaught = true)

/-- The program raises only noted failures. -/
def CaSafe (p : Prog α) : Prop :=
  ∀ w, Follows watch (fun w z => ∀ x, z = .error x → Noted w x) w p

theorem CaSafe.bind {p : Prog α} {f : α → Prog β} (hp : CaSafe p) (hf : ∀ a, CaSafe (f a)) :
    CaSafe (p >>= f) := by
  intro w
  refine Follows.bind (hp w) (fun w a _ => hf a w) ?_
  rintro w x hx x' hx'
  cases hx'
  exact hx x rfl

theorem caSafe_pure (a : α) : CaSafe (pure a) := fun _ _ h => nomatch h

theorem caSafe_throw {x : Failure} (hca : x ≠ .caNotInitialized) (hx : x ≠ .uncaught) :
    CaSafe (throw x : Prog α) := by
  rintro w x' h
  cases h
  exact ⟨hca, fun h => absurd h hx⟩

theorem follows_throw_uncaught (hw : w.uncaught = true) :
    Follows watch (fun w z => ∀ x, z = .error x → Noted w x) w
      (throw Failure.uncaught : Prog α) := by
  rintro x hx
  cases hx
  exact ⟨by decide, fun _ => hw⟩

theorem caSafe_post (r : BoxRequest) : CaSafe (post r) := by
  refine fun _ => ⟨trivial, fun (turn : Turn) _ => ?_⟩
  obtain ⟨acts, reply, uuid⟩ := turn
  cases reply with
  | answered => exact caSafe_pure _ _
  | failed => exact caSafe_throw (by decide) (by decide) _
  | misshapen => exact follows_throw_uncaught (Bool.or_true _)

theorem caSafe_addSyslogDestination (hostname : String) (port : Nat) (stored : Option Uuid) :
    CaSafe (addSyslogDestination hostname port stored) := by
  have hsafe : CaSafe (safeUuid stored) := by
    cases stored with
    | none => exact caSafe_throw (by decide) (by decide)
    | some u => exact caSafe_pure u
  refine hsafe.bind fun cert => (caSafe_post _).bind fun certRef => ?_
  split
  · exact caSafe_throw (by decide) (by decide)
  · refine CaSafe.bind (caSafe_post _) fun answer => ?_
    cases answer with
    | none => exact caSafe_throw (by decide) (by decide)
    | some v => exact CaSafe.bind (caSafe_post _) fun _ => caSafe_pure v

theorem caSafe_onStored {stored : Option Uuid} {p : Uuid → Prog Unit} (hp : ∀ u, CaSafe (p u)) :
    CaSafe (onStored stored p) := by
  cases stored with
  | none => exact caSafe_pure ()
  | some u => exact hp u

theorem caSafe_forwarding : CaSafe (forwarding row) := by
  rcases forwarding_cases row with ⟨r, -, heq⟩ | heq
  · rw [heq]
    exact caSafe_pure r
  · rw [heq]
    exact caSafe_throw (by decide) (by decide)

theorem caSafe_rotateDeviceCert : CaSafe (rotateDeviceCert true settings row) := by
  have hissue : CaSafe (deviceCert true) := by
    refine fun _ => ⟨trivial, fun (cert : Option Cert) _ => ?_⟩
    cases cert with
    | none => exact follows_throw_uncaught (Bool.or_true _)
    | some cert => exact caSafe_pure cert _
  have hnow : CaSafe now := by
    refine fun _ => ⟨trivial, fun (t : Option Nat) _ => ?_⟩
    cases t with
    | none => exact follows_throw_uncaught (Bool.or_true _)
    | some t => exact caSafe_pure t _
  refine caSafe_forwarding.bind fun row => hissue.bind fun cert =>
    (caSafe_post _).bind fun newCertUuid => ?_
  refine (caSafe_addSyslogDestination _ _ _).bind fun newDestUuid => ?_
  have hdest : ∀ u, CaSafe (deleteSyslogDestination u) := fun u =>
    (caSafe_post _).bind fun _ => (caSafe_post _).bind fun _ => caSafe_pure _
  have hcert : ∀ u, CaSafe (deleteCert u) := fun u => (caSafe_post _).bind fun _ => caSafe_pure _
  refine (caSafe_onStored hdest).bind fun _ => (caSafe_onStored hcert).bind fun _ => ?_
  exact hnow.bind fun t => caSafe_pure _

theorem rotateDeviceCert_without_ca (settings : Settings) (row : Option Row) :
    ∃ x, rotateDeviceCert false settings row = throw x := by
  rcases forwarding_cases row with ⟨r, -, heq⟩ | heq
  · refine ⟨.caNotInitialized, ?_⟩
    rw [rotateDeviceCert, heq]
    rfl
  · refine ⟨.value, ?_⟩
    rw [rotateDeviceCert, heq]
    rfl

/-- Every row agrees with its box, where all went cleanly. -/
def Settled (rows : DeviceId → Option Row) (ph : DeviceId → Watch) : Prop :=
  ∀ d, (ph d).Clean → Agrees (ph d).box (rows d)

variable {devices : DeviceId → Bool} {now : Nat} {rows : DeviceId → Option Row}
  {ph : DeviceId → Watch} {d : DeviceId} {b : Box}

theorem Settled.update {ph' : DeviceId → Watch} {stored : Option Row} (h : Settled rows ph)
    (hd : (ph' d).Clean → Agrees (ph' d).box stored) (hothers : ∀ j, j ≠ d → ph' j = ph j) :
    Settled (Function.update rows d stored) ph' := by
  intro j
  by_cases hj : j = d
  · subst hj
    rw [Function.update_self]
    exact hd
  · rw [Function.update_of_ne hj, hothers j hj]
    exact h j

theorem follows_renew_without_ca (due : List (DeviceId × Row)) (summary : Summary) :
    Follows watch.family (fun ph' z => ph' = ph ∧ ∀ r, z = .ok r → r.2 = []) ph
      (renewExpiringDeviceCerts false settings devices now due summary) := by
  induction due generalizing summary with
  | nil =>
    refine ⟨rfl, fun r hr => ?_⟩
    cases hr
    rfl
  | cons x due ih =>
    obtain ⟨d, row⟩ := x
    rw [renewExpiringDeviceCerts]
    split
    · exact ih _
    · split
      · exact ih _
      · obtain ⟨x, hx⟩ := rotateDeviceCert_without_ca settings (some row)
        rw [hx]
        cases x with
        | opnsense => exact ih _
        | value => exact ih _
        | caNotInitialized => exact ⟨rfl, fun r hr => nomatch hr⟩
        | uncaught => exact ⟨rfl, fun r hr => nomatch hr⟩

theorem follows_renewed {r : Row} (hagree : Agrees b (some r)) (hph : ph d = .start b) :
    Follows watch.family
      (fun ph' z => (∀ j, j ≠ d → ph' j = ph j) ∧ ((∃ renewed, z = .ok renewed ∧
        ((ph' d).Clean → Agrees (ph' d).box (renewed.or (some r)))) ∨
          (∃ x, z = .error x) ∧ (ph' d).uncaught = true)) ph
      (orFailed (onDevice d (rotateDeviceCert true settings (some r)))) := by
  have hrotate : Follows watch
      (fun w z => Settles (some r) some w z ∧ ∀ x, z = .error x → Noted w x) (ph d)
      (rotateDeviceCert true settings (some r)) := by
    rw [hph]
    exact (follows_settles hagree (follows_rotateDeviceCert hagree)).and
      (caSafe_rotateDeviceCert _)
  have hjob : Follows watch.family
      (fun ph' z => (∀ j, j ≠ d → ph' j = ph j) ∧ (∀ x, z = .error x → Noted (ph' d) x) ∧
        ((ph' d).Clean → Agrees (ph' d).box (match z with
          | .ok renewed => Option.or renewed (some r)
          | .error _ => some r))) ph
      (onDevice d (rotateDeviceCert true settings (some r)) >>= fun row => pure (some row)) := by
    refine Follows.bind hrotate.at_index ?_ ?_
    · rintro ph' row' ⟨⟨hsettles, -⟩, hothers⟩
      exact ⟨hothers, nofun, hsettles⟩
    · rintro ph' x ⟨⟨hsettles, hx⟩, hothers⟩
      refine ⟨hothers, ?_, hsettles⟩
      intro x' h
      cases h
      exact hx x rfl
  refine Follows.handle hjob ?_ ?_
  · rintro ph' renewed ⟨hothers, -, hclean⟩
    exact ⟨hothers, .inl ⟨renewed, rfl, hclean⟩⟩
  · -- The savepoint is rolled back; without a CA it would not get here.
    rintro ph' x ⟨hothers, hx, hclean⟩
    cases x with
    | opnsense => exact ⟨hothers, .inl ⟨none, rfl, hclean⟩⟩
    | value => exact ⟨hothers, .inl ⟨none, rfl, hclean⟩⟩
    | caNotInitialized => exact absurd rfl (hx _ rfl).1
    | uncaught => exact ⟨hothers, .inr ⟨⟨_, rfl⟩, (hx _ rfl).2 rfl⟩⟩

/-- With a CA the renewal ends well, and rows and boxes agree, unless a step raised what
nobody catches. -/
theorem follows_renew (due : List (DeviceId × Row)) (summary : Summary)
    (hnodup : (due.map Prod.fst).Nodup)
    (hdue : ∀ x ∈ due, rows x.1 = some x.2 ∧ ∃ b, ph x.1 = .start b ∧ Agrees b (some x.2))
    (hrows : Settled rows ph) :
    Follows watch.family (fun ph' z => (∃ r, z = .ok r ∧ Settled (storeRows rows r.2) ph') ∨
        (∃ x, z = .error x) ∧ ∃ d, (ph' d).uncaught = true) ph
      (renewExpiringDeviceCerts true settings devices now due summary) := by
  induction due generalizing summary rows ph with
  | nil => exact .inl ⟨_, rfl, hrows⟩
  | cons x due ih =>
    obtain ⟨d, row⟩ := x
    obtain ⟨⟨hrow, b, hph, hagree⟩, hdue⟩ := List.forall_mem_cons.mp hdue
    obtain ⟨hfresh, hnodup⟩ := List.nodup_cons.mp hnodup
    rw [renewExpiringDeviceCerts]
    split
    · exact ih _ hnodup hdue hrows
    · split
      · exact ih _ hnodup hdue hrows
      · -- The rows still to come are not touched by this one.
        have hlater : ∀ {ph' : DeviceId → Watch} (stored : Option Row),
            (∀ j, j ≠ d → ph' j = ph j) → ∀ x ∈ due,
            Function.update rows d stored x.1 = some x.2 ∧
              ∃ b, ph' x.1 = .start b ∧ Agrees b (some x.2) := by
          intro ph' stored hothers x hx
          have hxd : x.1 ≠ d := by
            rintro rfl
            exact hfresh (List.mem_map.mpr ⟨x, hx, rfl⟩)
          rw [Function.update_of_ne hxd, hothers x.1 hxd]
          exact hdue x hx
        refine (follows_renewed hagree hph).bind ?_ ?_
        · rintro ph' renewed ⟨hothers, hrenewed⟩
          have hclean : (ph' d).Clean → Agrees (ph' d).box (renewed.or (some row)) := by
            rcases hrenewed with ⟨renewed', hz, hclean⟩ | ⟨⟨x, hz⟩, -⟩
            · cases hz
              exact hclean
            · cases hz
          cases renewed with
          | some row' =>
            have hrows' := hrows.update hclean hothers
            refine (ih _ hnodup (hlater _ hothers) hrows').bind ?_ ?_
            · rintro ph'' ⟨summary', stored⟩ (⟨r, hr, hsettled⟩ | ⟨⟨x, hx⟩, -⟩)
              · cases hr
                exact .inl ⟨_, rfl, hsettled⟩
              · exact nomatch hx
            · rintro ph'' x (⟨r, hr, -⟩ | ⟨-, hended⟩)
              · exact nomatch hr
              · exact .inr ⟨⟨x, rfl⟩, hended⟩
          | none =>
            -- A failed renewal keeps the row.
            have hsame : Function.update rows d (some row) = rows := by
              rw [← hrow]
              exact Function.update_eq_self d rows
            have hrows' := hrows.update hclean hothers
            have hdue' := hlater (some row) hothers
            simp only [Option.none_or, hsame] at hrows' hdue'
            exact ih _ hnodup hdue' hrows'
        · rintro ph' x ⟨-, ⟨renewed, hz, -⟩ | ⟨-, hended⟩⟩
          · exact nomatch hz
          · exact .inr ⟨⟨x, rfl⟩, d, hended⟩

end Renewal

/-! ### Runs -/

/-- The operation does not forget a uuid: only `provision_device` stores new ones without
looking at the old ones. -/
def Op.Spares (row : Option Row) : Op → Prop
  | provision _ _ => Unstored row
  | _ => True

instance (row : Option Row) : (op : Op) → Decidable (op.Spares row)
  | .provision _ _ => inferInstanceAs (Decidable (Unstored row))
  | .deprovision _ | .rotate _ | .revoke _ _ _ | .renew _ _ => isTrue trivial

/-- On every box the operation talks to, no request fails once that box has changed, no
delete goes unnoticed (unless the operation fails anyway), and if the box changes, no
stored uuid is forgotten; and where a step for one device raises what nobody catches, no
box has changed. -/
def Clean (env : Env) (s : State) (e : Event) : Prop :=
  match run env s e with
  | none => True
  | some (t, _, _) =>
    ∀ x ∈ t,
      (watch.family.after (fun d => .start (s.boxes d)) t x.1.1).Clean ∧
        ((watch.family.after (fun d => .start (s.boxes d)) t x.1.1).changed = true →
          e.op.Spares (s.db.rows x.1.1) ∧
            ∀ y ∈ t, (watch.family.after (fun d => .start (s.boxes d)) t y.1.1).uncaught = false)

instance (env : Env) (s : State) (e : Event) : Decidable (Clean env s e) := by
  unfold Clean
  split <;> infer_instance

section Runs

variable {env : Env} {s s' : State} {e : Event} {db : Db} {ph : DeviceId → Watch}
  {d : DeviceId}

theorem follows_single {α : Type} {p : Prog α} {f : α → Staged} {after : α → Option Row}
    {P : Watch → Prop}
    (hstage : ∀ a, storeRows db.rows (f a).rows = Function.update db.rows d (after a))
    (hrows : Settled db.rows ph)
    (hp : Follows watch (fun w z => P w → Settles (db.rows d) after w z) (ph d) p) :
    Follows watch.family (fun ph' z => P (ph' d) → Settled (db.settle z).rows ph') ph
      (onDevice d p >>= fun a => pure (f a)) := by
  refine Follows.bind hp.at_index ?_ ?_
  · rintro ph' a ⟨hsettles, hothers⟩ hP
    show Settled (storeRows db.rows (f a).rows) ph'
    rw [hstage]
    exact hrows.update (hsettles hP) hothers
  · rintro ph' x ⟨hsettles, hothers⟩ hP
    have h := hrows.update (hsettles hP) hothers
    rw [Function.update_eq_self] at h
    exact h

theorem enabledRows_spec (db : Db) {ds : List DeviceId} (hnodup : ds.Nodup) :
    ((db.enabledRows ds).map Prod.fst).Nodup ∧
      ∀ x ∈ db.enabledRows ds, x.1 ∈ ds ∧ db.rows x.1 = some x.2 := by
  induction ds with
  | nil => simp [Db.enabledRows]
  | cons d ds ih =>
    obtain ⟨hd, hnodup⟩ := List.nodup_cons.mp hnodup
    obtain ⟨hkeys, hmem⟩ := ih hnodup
    have hmem' : ∀ x ∈ db.enabledRows ds, x.1 ∈ d :: ds ∧ db.rows x.1 = some x.2 :=
      fun x hx => ⟨.tail d (hmem x hx).1, (hmem x hx).2⟩
    cases hrow : db.rows d with
    | none =>
      have hskip : db.enabledRows (d :: ds) = db.enabledRows ds := by
        simp [Db.enabledRows, hrow]
      rw [hskip]
      exact ⟨hkeys, hmem'⟩
    | some row =>
      cases hen : row.enabled with
      | false =>
        have hskip : db.enabledRows (d :: ds) = db.enabledRows ds := by
          simp [Db.enabledRows, hrow, hen]
        rw [hskip]
        exact ⟨hkeys, hmem'⟩
      | true =>
        have hcons : db.enabledRows (d :: ds) = (d, row) :: db.enabledRows ds := by
          simp [Db.enabledRows, hrow, hen]
        rw [hcons]
        refine ⟨?_, ?_⟩
        · refine List.nodup_cons.mpr ⟨?_, hkeys⟩
          intro h
          obtain ⟨x, hx, hxd⟩ := List.mem_map.mp h
          have hxd : x.1 = d := hxd
          exact hd (hxd ▸ (hmem x hx).1)
        · intro x hx
          cases hx with
          | head => exact ⟨.head ds, hrow⟩
          | tail _ hx => exact hmem' x hx

theorem follows_family_unchanged {α : Type} (boxes : DeviceId → Box) (p : Job α) :
    Follows watch.family (fun ph _ => ∀ d, (ph d).changed = false → (ph d).box = boxes d)
      (fun d => .start (boxes d)) p := by
  refine Follows.of_preserved (I := fun ph : DeviceId → Watch =>
    ∀ d, (ph d).changed = false → (ph d).box = boxes d) (fun _ _ _ => trivial) ?_ p fun _ _ => rfl
  rintro ph ⟨j, q⟩ a h _ d
  show (Function.update ph j ((ph j).next q a) d).changed = false →
    (Function.update ph j ((ph j).next q a) d).box = boxes d
  by_cases hd : d = j
  · subst hd
    rw [Function.update_self]
    exact Watch.next_unchanged (h d) q a
  · rw [Function.update_of_ne hd]
    exact h d

/-- Every operation leaves rows and boxes in agreement if all goes cleanly. -/
theorem follows_program {boxes : DeviceId → Box} {op : Op} (hdist : op.Distinct)
    (hagree : ∀ d, Agrees (boxes d) (db.rows d)) :
    Follows watch.family
      (fun ph z => (∀ d, (ph d).changed = true →
          op.Spares (db.rows d) ∧ ∀ j, (ph j).uncaught = false) →
        Settled (db.settle z).rows ph)
      (fun d => .start (boxes d)) (op.program env db) := by
  have hrows : Settled db.rows fun d => .start (boxes d) := fun d _ => hagree d
  cases op with
  | provision d tenantId =>
    refine (follows_single (fun _ => rfl) hrows (provisionDevice_settles (hagree d))).mono ?_
    exact fun ph z h hspares => h fun hd => (hspares d hd).1
  | deprovision d =>
    have hstage : ∀ stored : Option Row,
        storeRows db.rows (stored.toList.map (d, ·)) =
          Function.update db.rows d (stored.or (db.rows d)) := by
      intro stored
      cases stored with
      | none => exact (Function.update_eq_self d db.rows).symm
      | some row => rfl
    refine (follows_single (P := fun _ => True) hstage hrows
      ((follows_settles (hagree d) (follows_deprovisionDevice (hagree d))).mono
        fun _ _ h _ => h)).mono ?_
    exact fun ph z h _ => h trivial
  | rotate d =>
    refine (follows_single (P := fun _ => True) (fun _ => rfl) hrows
      ((follows_settles (hagree d) (follows_rotateDeviceCert (hagree d))).mono
        fun _ _ h _ => h)).mono ?_
    exact fun ph z h _ => h trivial
  | revoke d tenantId reason =>
    refine (follows_single (P := fun _ => True) (fun _ => rfl) hrows
      ((follows_settles (hagree d) (follows_revokeDevice (hagree d))).mono
        fun _ _ h _ => h)).mono ?_
    exact fun ph z h _ => h trivial
  | renew ds now =>
    have hrenew : Follows watch.family
        (fun ph z => (∀ d, (ph d).changed = true → ∀ j, (ph j).uncaught = false) →
          Settled (match z with
            | .ok r => storeRows db.rows r.2
            | .error _ => db.rows) ph) (fun d => .start (boxes d))
        (renewExpiringDeviceCerts env.ca env.settings env.devices now (db.enabledRows ds)
          ⟨0, 0, 0⟩) := by
      -- Without a CA the job raises at the first due row, before any request.
      cases env.ca with
      | false =>
        refine (follows_renew_without_ca _ _).mono ?_
        rintro ph z ⟨rfl, hz⟩ -
        cases z with
        | ok r =>
          show Settled (storeRows db.rows r.2) _
          rw [hz r rfl]
          exact hrows
        | error x => exact hrows
      | true =>
        obtain ⟨hkeys, hmem⟩ := enabledRows_spec db hdist
        have hsettled : Follows watch.family _ _
            (renewExpiringDeviceCerts true env.settings env.devices now _ ⟨0, 0, 0⟩) :=
          follows_renew _ _ hkeys (fun x hx => ?_) hrows
        · refine (hsettled.and (follows_family_unchanged boxes _)).mono ?_
          rintro ph z ⟨⟨r, rfl, h⟩ | ⟨⟨x, rfl⟩, j, hj⟩, hsame⟩ hquiet
          · exact h
          · -- The job was ended, and no box had changed.
            intro d _
            have hchanged : (ph d).changed = false := by
              by_contra hd
              exact Bool.noConfusion
                (hj.symm.trans (hquiet d (eq_true_of_ne_false hd) j))
            rw [hsame d hchanged]
            exact hagree d
        · have hrow := (hmem x hx).2
          exact ⟨hrow, boxes x.1, rfl, hrow ▸ hagree x.1⟩
    refine hrenew.bind ?_ ?_
    · exact fun ph r h hclean => h fun d hd => (hclean d hd).2
    · exact fun ph x h hclean => h fun d hd => (hclean d hd).2

theorem serve_watch {w w' : (DeviceId → Box) × Script} {q : Site} {a : SiteAnswer q}
    (hR : ∀ d, (ph d).box = w.1 d) (h : serve w q = some (a, w')) :
    watch.family.admits ph q a ∧ ∀ d, (watch.family.next ph q a d).box = w'.1 d := by
  obtain ⟨boxes, script⟩ := w
  obtain ⟨j, ask⟩ := q
  have hR : ∀ d, (ph d).box = boxes d := hR
  have hstep : ∀ {α : Type} (d : DeviceId) (a : Option α),
      (Function.update ph j ((ph j).step a) d).box = (ph d).box := by
    intro α d a
    by_cases hd : d = j
    · subst hd
      rw [Function.update_self]
      rfl
    · rw [Function.update_of_ne hd]
  cases ask with
  | box r =>
    cases hts : script.turns with
    | nil =>
      simp only [serve, hts] at h
      exact nomatch h
    | cons turn turns =>
      simp only [serve, hts] at h
      split at h
      · rename_i hfresh
        cases h
        refine ⟨?_, fun d => ?_⟩
        · show (ph j).box.Fresh r a
          rw [hR j]
          exact hfresh
        · show (Function.update ph j ((ph j).next (.box r) a) d).box =
            Function.update boxes j ((boxes j).act r a) d
          by_cases hd : d = j
          · subst hd
            rw [Function.update_self, Function.update_self, ← hR d]
            rfl
          · rw [Function.update_of_ne hd, Function.update_of_ne hd]
            exact hR d
      · cases h
  | issue =>
    simp only [serve] at h
    split at h
    · cases h
    · cases h
      exact ⟨trivial, fun d => (hstep d _).trans (hR d)⟩
  | now =>
    simp only [serve] at h
    split at h
    · cases h
    · cases h
      exact ⟨trivial, fun d => (hstep d _).trans (hR d)⟩

theorem run_follows {Z : (DeviceId → Watch) → Except Failure Staged → Prop}
    {t : List (Exchange Site SiteAnswer)} {z : Except Failure Staged}
    {w : (DeviceId → Box) × Script} (hrun : run env s e = some (t, z, w))
    (h : e.op.Distinct →
      Follows watch.family Z (fun d => .start (s.boxes d)) (e.op.program env s.db)) :
    (∀ d, (watch.family.after (fun d => .start (s.boxes d)) t d).box = w.1 d) ∧
      Z (watch.family.after (fun d => .start (s.boxes d)) t) z := by
  unfold run at hrun
  split at hrun
  · rename_i hdist
    exact (Dialogue.runs_of_exec hrun).follows (R := fun w ph => ∀ d, (ph d).box = w.1 d)
      (fun w ph q a w' hR _ h => serve_watch hR h) (fun _ => rfl) (h hdist)
  · cases hrun

theorem step_agrees (hagree : ∀ d, Agrees (s.boxes d) (s.db.rows d)) (hclean : Clean env s e)
    (hstep : step env s e = some s') : ∀ d, Agrees (s'.boxes d) (s'.db.rows d) := by
  obtain ⟨⟨t, z, boxes, script⟩, hrun, rfl⟩ := Option.map_eq_some_iff.mp hstep
  simp only [Clean, hrun] at hclean
  obtain ⟨hboxes, hsettled⟩ := run_follows hrun fun hdist => follows_program hdist hagree
  -- A box without a request is as it was.
  have hrest : ∀ d, (¬ ∃ x ∈ t, x.1.1 = d) →
      watch.family.after (fun d => .start (s.boxes d)) t d = .start (s.boxes d) :=
    fun d hd => Dialogue.Discipline.family_after fun x hx hxd => hd ⟨x, hx, hxd⟩
  have hall : ∀ d,
      (watch.family.after (fun d => .start (s.boxes d)) t d).Clean ∧
        ((watch.family.after (fun d => .start (s.boxes d)) t d).changed = true →
          e.op.Spares (s.db.rows d) ∧
            ∀ j, (watch.family.after (fun d => .start (s.boxes d)) t j).uncaught = false) := by
    intro d
    by_cases hd : ∃ x ∈ t, x.1.1 = d
    · obtain ⟨x, hx, rfl⟩ := hd
      refine ⟨(hclean x hx).1, fun hchanged => ⟨((hclean x hx).2 hchanged).1, fun j => ?_⟩⟩
      by_cases hj : ∃ y ∈ t, y.1.1 = j
      · obtain ⟨y, hy, rfl⟩ := hj
        exact ((hclean x hx).2 hchanged).2 y hy
      · rw [hrest j hj]
        rfl
    · rw [hrest d hd]
      exact ⟨⟨nofun, nofun⟩, nofun⟩
  intro d
  have h := hsettled (fun d => (hall d).2) d (hall d).1
  rw [hboxes d] at h
  exact h

/-- **Box and row agree** after every run of clean operations, on every device. -/
theorem box_matches_row (env : Env) (es : List Event) (s : State)
    (hclean : Along (step env) (Clean env) .start es)
    (hrun : runAll (step env) .start es = some s) :
    ∀ d, Agrees (s.boxes d) (s.db.rows d) :=
  runAll_invariant (fun _ _ _ hagree hc hstep => step_agrees hagree hc hstep)
    (fun _ => ⟨rfl, rfl⟩) hclean hrun

/-- Provisioned, rotated and revoked, with every request carried out. -/
theorem box_matches_row_revoked :
    ∃ s, runAll (step sampleEnv) .start [sampleProvision, sampleRotation, sampleRevocation] =
        some s ∧ ∀ d, Agrees (s.boxes d) (s.db.rows d) := by
  obtain ⟨s, hrun⟩ := Option.isSome_iff_exists.mp (show
    (runAll (step sampleEnv) .start
      [sampleProvision, sampleRotation, sampleRevocation]).isSome = true by decide +kernel)
  exact ⟨s, hrun, box_matches_row sampleEnv _ s (by decide +kernel) hrun⟩

/-- The box takes the certificate and refuses the destination: `provision_device` fails,
no row is stored, and the certificate stays. -/
theorem certificate_orphaned :
    ¬ ∀ (env : Env) (es : List Event) (s : State), runAll (step env) .start es = some s →
      ∀ d, Agrees (s.boxes d) (s.db.rows d) := by
  intro hclaim
  let refused : Event :=
    ⟨.provision 1 7, ⟨[answered 1, answered 2, answered 9, ⟨false, .answered, 3⟩], [some firstCert],
      [some 0]⟩⟩
  obtain ⟨s, hrun, hdisagree⟩ : ∃ s, runAll (step sampleEnv) .start [refused] = some s ∧
      ¬ Agrees (s.boxes 1) (s.db.rows 1) := by
    refine ⟨_, rfl, ?_⟩
    decide +kernel
  exact hdisagree (hclaim sampleEnv _ s hrun 1)

end Runs

end LogForwarding

end Opngms
