/-
Opngms/RevocationList.lean

Which certificates the CRL lists.

A row holds one serial.  `provision_device` and `rotate_device_cert` write the serial of
a certificate the box has just imported over the one that was there, and only a
`revoke_device` that succeeds puts a serial into the ledger, the one its row holds.
`refresh_syslog_crl` lists the ledger.

So the CRL lists exactly the certificates that were recorded in a row when it was
revoked (**`crl_lists_revoked`**).  One that was rotated out before is not listed while it
is still valid (`rotated_certificate_unlisted`).
-/
import Opngms.ForwardingBoxes

namespace Opngms

namespace LogForwarding

open Dialogue (Follows OnOk)

/-! ### Serials -/

theorem digit_digitChar {n : Nat} (h : n < 16) : digit n.digitChar = some n := by
  have hall : ∀ n < 16, digit n.digitChar = some n := by decide
  exact hall n h

theorem readDigits_toDigits (n : Nat) :
    (Nat.toDigits 16 n).foldlM (fun n c => (digit c).map (16 * n + ·)) 0 = some n := by
  induction n using Nat.strongRecOn with
  | ind n ih =>
    by_cases h : n < 16
    · rw [Nat.toDigits_of_lt_base h]
      simp [digit_digitChar h]
    · -- The last digit comes off the end.
      have hle : 16 ≤ n := Nat.le_of_not_lt h
      have hlast : n % 16 < 16 := Nat.mod_lt n (by decide)
      rw [Nat.toDigits_of_base_le (by decide) hle, List.foldlM_append,
        ih (n / 16) (Nat.div_lt_self (by omega) (by decide))]
      simp [digit_digitChar hlast, Nat.div_add_mod]

theorem intBase16_hex (n : Nat) : intBase16 (hex n) = some n := by
  have hne : Nat.toDigits 16 n ≠ [] := Nat.toDigits_ne_nil
  rw [intBase16, hex, String.toList_ofList, if_neg hne]
  exact readDigits_toDigits n

/-! ### The list -/

theorem mem_addSerial {bySerial : List (Nat × Nat)} {entry : RevokedSyslogCert} {n : Nat} :
    n ∈ (addSerial bySerial entry).map Prod.fst ↔
      n ∈ bySerial.map Prod.fst ∨ intBase16 entry.serial = some n := by
  cases hread : intBase16 entry.serial with
  | none => simp [addSerial, hread]
  | some m =>
    cases hlook : bySerial.lookup m with
    | none => simp [addSerial, hread, hlook, or_comm, eq_comm]
    | some revoked =>
      have hmem : m ∈ bySerial.map Prod.fst := by
        obtain ⟨l₁, l₂, rfl, -⟩ := List.lookup_eq_some_iff.mp hlook
        simp
      simp only [addSerial, hread, hlook, Option.some.injEq]
      by_cases hn : m = n
      · -- It was there and stays, with either date.
        subst hn
        simp only [hmem, true_or, iff_true]
        split
        · simp
        · exact hmem
      · simp only [hn, or_false]
        split
        · simp [Ne.symm hn]
        · rfl

theorem mem_foldl_addSerial {ledger : List RevokedSyslogCert} {bySerial : List (Nat × Nat)}
    {n : Nat} :
    n ∈ (ledger.foldl addSerial bySerial).map Prod.fst ↔ n ∈ bySerial.map Prod.fst ∨
      ∃ text ∈ ledger.map RevokedSyslogCert.serial, intBase16 text = some n := by
  induction ledger generalizing bySerial with
  | nil => simp
  | cons entry ledger ih =>
    rw [List.foldl_cons, ih, mem_addSerial]
    simp [or_assoc]

theorem mem_refreshSyslogCrl {certDir ca : Bool} {ledger : List RevokedSyslogCert}
    {crl : List (Nat × Nat)} (h : refreshSyslogCrl certDir ca ledger = some crl) {n : Nat} :
    n ∈ crl.map Prod.fst ↔
      ∃ text ∈ ledger.map RevokedSyslogCert.serial, intBase16 text = some n := by
  have hcrl : crl = (ledger.foldl addSerial []).mergeSort fun x y => x.1 ≤ y.1 := by
    cases certDir with
    | false => exact nomatch h
    | true =>
      cases ca with
      | false => exact nomatch h
      | true => exact (Option.some.inj h).symm
  rw [hcrl, ((List.mergeSort_perm _ _).map Prod.fst).mem_iff, mem_foldl_addSerial]
  simp

/-! ### What the operations store -/

/-- The row records a certificate that the box imported. -/
def Recorded (b : Box) (r : Row) : Prop :=
  ∃ cert ∈ b.imported, r.certSerial = hex cert.serial

section Stored

variable {α : Type} {w : Watch} {ph : DeviceId → Watch} {cert : Cert} {ca : Bool}
  {settings : Settings} {row : Option Row} {d : DeviceId} {r : Row} {db : Db} {env : Env}

theorem Box.act_imported {b : Box} (h : cert ∈ b.imported) (q : BoxRequest) (turn : Turn) :
    cert ∈ (b.act q turn).imported := by
  obtain ⟨acts, reply, uuid⟩ := turn
  cases acts with
  | false => exact h
  | true =>
    cases q with
    | addCert cert' => exact List.mem_cons_of_mem cert' h
    | _ => exact h

theorem follows_any (p : Prog α) : Follows watch (OnOk fun _ _ => True) w p :=
  (Follows.of_preserved (I := fun _ => True) (fun _ _ _ => trivial) (fun _ _ _ _ _ => trivial) p
    trivial).mono fun _ z _ => by cases z <;> trivial

theorem follows_imported (h : cert ∈ w.box.imported) (p : Prog α) :
    Follows watch (OnOk fun w _ => cert ∈ w.box.imported) w p := by
  refine (Follows.of_preserved (I := fun w => cert ∈ w.box.imported) (fun _ _ _ => trivial) ?_ p
    h).mono ?_
  · intro w q a h _
    cases q with
    | box q => exact Box.act_imported h q a
    | issue => exact h
    | now => exact h
  · intro w z h
    cases z with
    | ok a => exact h
    | error x => trivial

theorem follows_recorded (h : Recorded (ph d).box r) (p : Job α) :
    Follows watch.family (fun ph _ => Recorded (ph d).box r) ph p := by
  refine Follows.of_preserved (I := fun ph : DeviceId → Watch => Recorded (ph d).box r)
    (fun _ _ _ => trivial) ?_ p h
  rintro ph ⟨j, q⟩ a ⟨cert, hcert, hserial⟩ _
  refine ⟨cert, ?_, hserial⟩
  show cert ∈ (Function.update ph j ((ph j).next q a) d).box.imported
  by_cases hd : d = j
  · subst hd
    rw [Function.update_self]
    cases q with
    | box q => exact Box.act_imported hcert q a
    | issue => exact hcert
    | now => exact hcert
  · rw [Function.update_of_ne hd]
    exact hcert

theorem importCert_imports :
    Follows watch (OnOk fun w u => u ≠ none → cert ∈ w.box.imported) w (importCert cert) := by
  refine ⟨trivial, fun (turn : Turn) _ => ?_⟩
  obtain ⟨acts, reply, uuid⟩ := turn
  cases reply with
  | failed => trivial
  | misshapen => trivial
  | answered =>
    cases acts with
    | false => exact fun h => absurd rfl h
    | true => exact fun _ => List.mem_cons_self

theorem addSyslogDestination_imports {hostname : String} {port : Nat} {u : Option Uuid}
    (h : u ≠ none → cert ∈ w.box.imported) :
    Follows watch (OnOk fun w _ => cert ∈ w.box.imported) w
      (addSyslogDestination hostname port u) := by
  cases u with
  | none => trivial
  | some u => exact follows_imported (h nofun) _

theorem provisionDevice_records {tenantId : TenantId} :
    Follows watch (OnOk fun w a => Recorded w.box a) w
      (provisionDevice ca settings tenantId row) := by
  refine (follows_any _).and_then fun w cert _ => ?_
  have himport : ∀ (caUuid : Option Uuid) (w : Watch), Follows watch
      (OnOk fun w a => Recorded w.box a) w
      (importCert cert >>= fun certUuid =>
        addSyslogDestination settings.syslogReceiverHost settings.syslogTlsPort certUuid >>=
        fun destUuid => now >>= fun provisioned =>
          pure { tenantId := tenantId, enabled := true
                 certSerial := hex cert.serial, certFingerprint := cert.fingerprint
                 certNotAfter := some cert.notAfter
                 opnsenseCaUuid := caUuid, opnsenseCertUuid := certUuid
                 opnsenseDestUuid := some destUuid
                 provisionedAt := some provisioned, revokedAt := none }) := by
    intro caUuid w
    refine importCert_imports.and_then fun w u hu => ?_
    refine (addSyslogDestination_imports hu).and_then fun w v hv => ?_
    refine (follows_imported hv _).and_then fun w t ht => ?_
    exact ⟨cert, ht, rfl⟩
  cases hca : row.bind Row.opnsenseCaUuid with
  | some u => exact himport (some u) w
  | none => exact (follows_any importCa).and_then fun w u _ => himport u w

theorem rotateDeviceCert_records :
    Follows watch (OnOk fun w a => Recorded w.box a) w (rotateDeviceCert ca settings row) := by
  refine (follows_any _).and_then fun w r _ => ?_
  refine (follows_any _).and_then fun w cert _ => ?_
  refine importCert_imports.and_then fun w u hu => ?_
  refine (addSyslogDestination_imports hu).and_then fun w v hv => ?_
  refine (follows_imported hv _).and_then fun w _ hw => ?_
  refine (follows_imported hw _).and_then fun w _ hw => ?_
  refine (follows_imported hw _).and_then fun w t ht => ?_
  exact ⟨cert, ht, rfl⟩

theorem deprovisionDevice_records (h : ∀ r, row = some r → Recorded w.box r) :
    Follows watch (OnOk fun w a => ∀ r ∈ a, Recorded w.box r) w (deprovisionDevice row) := by
  cases row with
  | none => exact fun r hr => nomatch hr
  | some r =>
    obtain ⟨cert, hcert, hserial⟩ := h r rfl
    refine (follows_imported hcert _).and_then fun w _ hw => ?_
    rintro r' ⟨⟩
    exact ⟨cert, hw, hserial⟩

theorem revokeDevice_records {tenantId : TenantId} {reason : Option String}
    (h : ∀ r, row = some r → Recorded w.box r) :
    Follows watch
      (OnOk fun w a => Recorded w.box a.1 ∧ ∃ r, row = some r ∧ a.2.serial = r.certSerial) w
      (revokeDevice tenantId d row reason) := by
  rcases forwarding_cases row with ⟨r, hr, heq⟩ | heq
  · obtain ⟨cert, hcert, hserial⟩ := h r hr
    rw [revokeDevice, heq, Dialogue.bind_eq, Dialogue.pure_eq, Dialogue.pure_bind]
    refine (follows_imported hcert _).and_then fun w _ hw => ?_
    refine (follows_imported hw _).and_then fun w t ht => ?_
    exact ⟨⟨cert, ht, hserial⟩, r, hr, rfl⟩
  · rw [revokeDevice, heq]
    trivial

theorem follows_onDevice {p : Prog α} {P : Watch → α → Prop}
    (h : Follows watch (OnOk P) (ph d) p) :
    Follows watch.family (OnOk fun ph a => P (ph d) a) ph (onDevice d p) := by
  refine h.at_index.mono ?_
  rintro ph z ⟨hz, -⟩
  cases z with
  | ok a => exact hz
  | error x => trivial

theorem renewExpiringDeviceCerts_records {devices : DeviceId → Bool} {now : Nat}
    (due : List (DeviceId × Row)) (summary : Summary) :
    Follows watch.family (OnOk fun ph a => ∀ x ∈ a.2, Recorded (ph x.1).box x.2) ph
      (renewExpiringDeviceCerts ca settings devices now due summary) := by
  induction due generalizing summary ph with
  | nil => exact List.forall_mem_nil _
  | cons x due ih =>
    obtain ⟨d, row⟩ := x
    rw [renewExpiringDeviceCerts]
    split
    · exact ih _
    · split
      · exact ih _
      · have hrenewed : Follows watch.family
            (OnOk fun ph renewed => ∀ r ∈ renewed, Recorded (ph d).box r) ph
            (orFailed (onDevice d (rotateDeviceCert ca settings (some row)))) := by
          have hjob : Follows watch.family
              (OnOk fun ph renewed => ∀ r ∈ renewed, Recorded (ph d).box r) ph
              (onDevice d (rotateDeviceCert ca settings (some row)) >>=
                fun row => pure (some row)) := by
            refine (follows_onDevice rotateDeviceCert_records).and_then fun ph r hr => ?_
            rintro r' ⟨⟩
            exact hr
          refine hjob.handle (fun _ _ h => h) fun ph x _ => ?_
          cases x with
          | opnsense =>
            intro r hr
            cases hr
          | value =>
            intro r hr
            cases hr
          | caNotInitialized => trivial
          | uncaught => trivial
        -- a failed renewal stores nothing
        refine hrenewed.and_then fun ph renewed hrec => ?_
        cases renewed with
        | none => exact ih _
        | some r =>
          -- The later renewals forget no import.
          refine ((ih _).and (follows_recorded (hrec r rfl) _)).bind ?_ ?_
          · rintro ph ⟨summary, stored⟩ ⟨hstored, hr⟩
            exact List.forall_mem_cons.mpr ⟨hr, hstored⟩
          · exact fun _ _ _ => trivial

theorem program_records (op : Op) (h : ∀ d r, db.rows d = some r → Recorded (ph d).box r) :
    Follows watch.family (OnOk fun ph staged => ∀ x ∈ staged.rows, Recorded (ph x.1).box x.2) ph
      (op.program env db) := by
  cases op with
  | provision d tenantId =>
    refine (follows_onDevice provisionDevice_records).and_then fun ph r hr => ?_
    exact List.forall_mem_singleton.mpr hr
  | deprovision d =>
    refine (follows_onDevice (deprovisionDevice_records (h d))).and_then fun ph stored hr => ?_
    intro x hx
    obtain ⟨r, hmem, rfl⟩ := List.mem_map.mp hx
    exact hr r (by simpa using hmem)
  | rotate d =>
    refine (follows_onDevice rotateDeviceCert_records).and_then fun ph r hr => ?_
    exact List.forall_mem_singleton.mpr hr
  | revoke d tenantId reason =>
    refine (follows_onDevice (revokeDevice_records (h d))).and_then fun ph stored hr => ?_
    exact List.forall_mem_singleton.mpr hr.1
  | renew ds now =>
    exact (renewExpiringDeviceCerts_records _ _).and_then fun ph stored hr => hr

/-- The serials an operation revokes if it ends well. -/
def Op.revokes (db : Db) : Op → List String
  | revoke d _ _ => ((db.rows d).map Row.certSerial).toList
  | _ => []

theorem mem_revokes {op : Op} {text : String} : text ∈ op.revokes db ↔
    ∃ d tenantId reason row,
      op = .revoke d tenantId reason ∧ db.rows d = some row ∧ row.certSerial = text := by
  cases op <;> simp [Op.revokes]

theorem program_revokes (op : Op) (h : ∀ d r, db.rows d = some r → Recorded (ph d).box r) :
    Follows watch.family
      (OnOk fun _ staged => staged.revoked.map RevokedSyslogCert.serial = op.revokes db) ph
      (op.program env db) := by
  cases op with
  | provision d tenantId =>
    exact (follows_onDevice provisionDevice_records).and_then fun _ _ _ => rfl
  | deprovision d =>
    exact (follows_onDevice (deprovisionDevice_records (h d))).and_then fun _ _ _ => rfl
  | rotate d => exact (follows_onDevice rotateDeviceCert_records).and_then fun _ _ _ => rfl
  | revoke d tenantId reason =>
    refine (follows_onDevice (revokeDevice_records (h d))).and_then ?_
    rintro ph ⟨row, entry⟩ ⟨-, r, hr, hserial⟩
    show [entry.serial] = ((db.rows d).map Row.certSerial).toList
    rw [hr, hserial]
    rfl
  | renew ds now => exact (renewExpiringDeviceCerts_records _ _).and_then fun _ _ _ => rfl

end Stored

/-! ### Runs -/

/-- The operation ends well. -/
def Succeeds (env : Env) (s : State) (e : Event) : Prop :=
  (run env s e).map (fun r => r.2.1.isOk) = some true

instance (env : Env) (s : State) (e : Event) : Decidable (Succeeds env s e) := by
  unfold Succeeds
  infer_instance

/-- `revoke_device` succeeds on a device whose row records the certificate, which its box
imported. -/
def Revokes (env : Env) (s : State) (e : Event) (cert : Cert) : Prop :=
  ∃ d tenantId reason row, e.op = .revoke d tenantId reason ∧ Succeeds env s e ∧
    s.db.rows d = some row ∧ row.certSerial = hex cert.serial ∧ cert ∈ (s.boxes d).imported

/-- Every row records an imported certificate. -/
def AllRecorded (s : State) : Prop :=
  ∀ d r, s.db.rows d = some r → Recorded (s.boxes d) r

section Runs

variable {env : Env} {s s' : State} {e : Event} {text : String}

theorem storeRows_cases {rows : DeviceId → Option Row} {writes : List (DeviceId × Row)}
    {d : DeviceId} {r : Row} (h : storeRows rows writes d = some r) :
    (d, r) ∈ writes ∨ rows d = some r := by
  induction writes generalizing rows with
  | nil => exact .inr h
  | cons x writes ih =>
    have h : storeRows (Function.update rows x.1 (some x.2)) writes d = some r := h
    rcases ih h with hmem | hrow
    · exact .inl (.tail x hmem)
    · by_cases hd : d = x.1
      · subst hd
        rw [Function.update_self] at hrow
        obtain rfl := Option.some.inj hrow
        exact .inl (.head writes)
      · rw [Function.update_of_ne hd] at hrow
        exact .inr hrow

theorem step_records (hrec : AllRecorded s) (hstep : step env s e = some s') :
    AllRecorded s' := by
  obtain ⟨⟨t, z, w⟩, hrun, rfl⟩ := Option.map_eq_some_iff.mp hstep
  intro d r hr
  -- The old row is still good, and so is what is written over it.
  have hold : s.db.rows d = some r → Recorded (w.1 d) r := by
    intro hrow
    obtain ⟨hboxes, hkept⟩ := run_follows (Z := fun ph _ => Recorded (ph d).box r) hrun
      fun _ => follows_recorded (hrec d r hrow) _
    exact hboxes d ▸ hkept
  obtain ⟨hboxes, hstored⟩ := run_follows hrun fun _ => program_records e.op hrec
  cases z with
  | error x => exact hold hr
  | ok staged =>
    -- what the operation stored, or what was there
    rcases storeRows_cases hr with hmem | hrow
    · have hd : Recorded (watch.family.after (fun d => .start (s.boxes d)) t d).box r :=
        hstored (d, r) hmem
      rw [hboxes d] at hd
      exact hd
    · exact hold hrow

theorem step_ledger (hrec : AllRecorded s) (hstep : step env s e = some s') :
    text ∈ s'.db.ledger.map RevokedSyslogCert.serial ↔
      text ∈ s.db.ledger.map RevokedSyslogCert.serial ∨
        Succeeds env s e ∧ text ∈ e.op.revokes s.db := by
  obtain ⟨⟨t, z, w⟩, hrun, rfl⟩ := Option.map_eq_some_iff.mp hstep
  obtain ⟨-, hrevoked⟩ := run_follows hrun fun _ => program_revokes e.op hrec
  cases z with
  | error x =>
    have hfails : ¬ Succeeds env s e := by simp [Succeeds, hrun, Except.isOk, Except.toBool]
    simp [hfails, Db.settle]
  | ok staged =>
    have hsucceeds : Succeeds env s e := by simp [Succeeds, hrun, Except.isOk, Except.toBool]
    have hrevoked : staged.revoked.map RevokedSyslogCert.serial = e.op.revokes s.db := hrevoked
    simp only [Db.settle, List.map_append, hrevoked, List.mem_append, hsucceeds, true_and]
    exact or_comm

theorem start_records : AllRecorded .start := by
  intro d r h
  have h : (none : Option Row) = some r := h
  cases h

theorem run_records {es : List Event} (hrun : runAll (step env) .start es = some s) :
    AllRecorded s :=
  runAll_invariant (G := fun _ _ => True) (fun _ _ _ hrec _ hstep => step_records hrec hstep)
    start_records (along_of_forall fun _ _ => trivial) hrun

/-- **The CRL lists the certificates that were recorded when revoked**, and no others. -/
theorem crl_lists_revoked (env : Env) (certDir : Bool) (es : List Event) (s : State)
    (crl : List (Nat × Nat)) (hrun : runAll (step env) .start es = some s)
    (hcrl : refreshSyslogCrl certDir env.ca s.db.ledger = some crl) (serial : Nat) :
    serial ∈ crl.map Prod.fst ↔ ∃ es₁ e es₂ s₁ cert,
      es = es₁ ++ e :: es₂ ∧ runAll (step env) .start es₁ = some s₁ ∧
        Revokes env s₁ e cert ∧ cert.serial = serial := by
  have hledger : ∀ text, text ∈ s.db.ledger.map RevokedSyslogCert.serial ↔
      ∃ es₁ e es₂ s₁, es = es₁ ++ e :: es₂ ∧ runAll (step env) .start es₁ = some s₁ ∧
        Succeeds env s₁ e ∧ text ∈ e.op.revokes s₁.db := by
    intro text
    rw [runAll_gathers (I := AllRecorded)
      (P := fun s => text ∈ s.db.ledger.map RevokedSyslogCert.serial)
      (fun s e s' hrec hstep => ⟨step_records hrec hstep, step_ledger hrec hstep⟩)
      start_records hrun]
    simp [State.start]
  rw [mem_refreshSyslogCrl hcrl]
  constructor
  · -- an entry is the serial of a row, and the row that of an imported certificate
    rintro ⟨text, hmem, hread⟩
    obtain ⟨es₁, e, es₂, s₁, hes, hrun₁, hok, hrevokes⟩ := (hledger text).mp hmem
    obtain ⟨d, tenantId, reason, row, hop, hrow, rfl⟩ := mem_revokes.mp hrevokes
    obtain ⟨cert, hcert, hserial⟩ := run_records hrun₁ d row hrow
    rw [hserial, intBase16_hex] at hread
    exact ⟨es₁, e, es₂, s₁, cert, hes, hrun₁,
      ⟨d, tenantId, reason, row, hop, hok, hrow, hserial, hcert⟩, Option.some.inj hread⟩
  · rintro ⟨es₁, e, es₂, s₁, cert, hes, hrun₁,
      ⟨d, tenantId, reason, row, hop, hok, hrow, hserial, -⟩, rfl⟩
    refine ⟨hex cert.serial, ?_, intBase16_hex cert.serial⟩
    apply (hledger _).mpr
    exact ⟨es₁, e, es₂, s₁, hes, hrun₁, hok,
      mem_revokes.mpr ⟨d, tenantId, reason, row, hop, hrow, hserial⟩⟩

/-- The CRL after a provisioning, a rotation and a revocation. -/
theorem crl_lists_revoked_afterRotation :
    ∃ s crl, runAll (step sampleEnv) .start [sampleProvision, sampleRotation, sampleRevocation] =
        some s ∧ refreshSyslogCrl true sampleEnv.ca s.db.ledger = some crl ∧
      ∀ serial, serial ∈ crl.map Prod.fst ↔ ∃ es₁ e es₂ s₁ cert,
        [sampleProvision, sampleRotation, sampleRevocation] = es₁ ++ e :: es₂ ∧
          runAll (step sampleEnv) .start es₁ = some s₁ ∧ Revokes sampleEnv s₁ e cert ∧
          cert.serial = serial := by
  obtain ⟨s, hrun⟩ := Option.isSome_iff_exists.mp (show
    (runAll (step sampleEnv) .start
      [sampleProvision, sampleRotation, sampleRevocation]).isSome = true by decide +kernel)
  exact ⟨s, _, hrun, rfl, crl_lists_revoked sampleEnv true _ s _ hrun rfl⟩

/-- The certificate that was rotated out is valid until 90 and not on the CRL of 70. -/
theorem rotated_certificate_unlisted :
    ¬ ∀ (env : Env) (certDir : Bool) (es : List Event) (e : Event) (s s' : State)
      (crl : List (Nat × Nat)) (d : DeviceId) (tenantId : TenantId) (reason : Option String),
      runAll (step env) .start es = some s → e.op = .revoke d tenantId reason →
      Succeeds env s e → step env s e = some s' →
      refreshSyslogCrl certDir env.ca s'.db.ledger = some crl →
      ∀ now, ∀ cert ∈ (s'.boxes d).imported, now < cert.notAfter →
        cert.serial ∈ crl.map Prod.fst := by
  intro hclaim
  have heval : (runAll (step sampleEnv) .start [sampleProvision, sampleRotation]).any (fun s =>
      decide (Succeeds sampleEnv s sampleRevocation) &&
        (step sampleEnv s sampleRevocation).any fun s' =>
          decide (firstCert ∈ (s'.boxes 1).imported ∧
            refreshSyslogCrl true sampleEnv.ca s'.db.ledger = some [(0xb2, 70)])) = true := by
    decide +kernel
  obtain ⟨s, hrun, heval⟩ := (Option.any_eq_true _ _).mp heval
  obtain ⟨hok, heval⟩ := (Bool.and_eq_true _ _).mp heval
  obtain ⟨s', hstep, heval⟩ := (Option.any_eq_true _ _).mp heval
  have hok : Succeeds sampleEnv s sampleRevocation := of_decide_eq_true hok
  obtain ⟨hcert, hcrl⟩ := of_decide_eq_true heval
  have hlisted := hclaim sampleEnv true _ sampleRevocation s s' _ 1 7 none hrun rfl hok hstep hcrl
    70 firstCert hcert (by decide)
  revert hlisted
  decide

end Runs

end LogForwarding

end Opngms
