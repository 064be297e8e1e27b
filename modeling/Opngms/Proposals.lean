/-
Opngms/Proposals.lean

What a change proposes, and that no program alters it.

The columns that say what is to be done where, and against which baseline,
are written once, by the `INSERT`: the proposal.  Every later write hands back
the proposal that was read.  The discipline `proposals` says so for every
program of the system, together with two facts about the box: a request is
sent only in the middle of a push, and a change is marked `conflict` only by a
session that read a configuration whose hash is not the baseline.

`RowsGood Good w` says that every row anywhere in the world, committed or in a
session, has a good proposal.  It is kept by every effect as long as the
inserted rows are good (`RowsGood.serve`).
-/
import Opngms.Guard
import Opngms.OwnRow

namespace Opngms

open Dialogue

variable {Box : Type}

/-! ### Proposals -/

/-- What a change asks for: the columns that only the `INSERT` writes. -/
structure Proposal where
  tenantId : TenantId
  deviceId : DeviceId
  kind : String
  operation : String
  target : String
  payload : Dict
  baselineHash : String

/-- The proposal of a row. -/
def Change.proposal (c : Change) : Proposal where
  tenantId := c.tenantId
  deviceId := c.deviceId
  kind := c.kind
  operation := c.operation
  target := c.target
  payload := c.payload
  baselineHash := c.baselineHash

theorem patch_proposal {old new : Change} (h : new.proposal = old.proposal) (base : Change) :
    (Change.patch old new base).proposal = base.proposal := by
  obtain ⟨h₁, h₂, h₃, h₄, h₅, h₆, h₇⟩ := Proposal.mk.inj h
  simp [Change.proposal, Change.patch, overwrite, h₁, h₂, h₃, h₄, h₅, h₆, h₇]

/-! ### The discipline -/

/-- What a session knows of rows and of the box. -/
structure ProposalPhase where
  loaded : ChangeId → Option Change := fun _ => none
  dirty : ChangeId → Option Change := fun _ => none
  read : Option (DeviceId × String) := none
  pushing : Option ChangeId := none

/-- The phase of a session. -/
def proposalPhase (s : Session) : ProposalPhase where
  loaded := s.loaded
  dirty := s.dirty
  read := s.read
  pushing := s.pushing

namespace ProposalPhase

/-- The row as the session has it: as written, else as loaded. -/
def seen (p : ProposalPhase) (id : ChangeId) : Option Change :=
  (p.dirty id).or (p.loaded id)

/-- The phase after an effect. -/
def next (p : ProposalPhase) : (q : Eff) → q.Ans → ProposalPhase
  | .getChange id, row => { p with loaded := Function.update p.loaded id row }
  | .insertChange _, row => { p with dirty := Function.update p.dirty row.id (some row) }
  | .flushChange row, _ => { p with dirty := Function.update p.dirty row.id (some row) }
  | .beginPush id, _ => { p with pushing := some id }
  | .getConfigBackup device, r =>
    { p with
      read :=
        match r with
        | .ok xml => some (device, xml)
        | .error _ => p.read }
  | .commit, _ => { p with dirty := fun _ => none, pushing := none }
  | .closeSession, _ => {}
  | _, _ => p

/-- The session pushes nothing, and it read a configuration whose hash is not
the baseline of the row it loaded. -/
def Stale (env : Env) (p : ProposalPhase) (row : Change) : Prop :=
  p.pushing = none ∧ p.loaded row.id ≠ none ∧
    ∃ xml current, p.read = some (row.deviceId, xml) ∧ env.canonicalHash xml = some current ∧
      row.baselineHash ≠ "" ∧ current ≠ row.baselineHash

end ProposalPhase

theorem proposalPhase_after (s : Session) (q : Eff) (a : q.Ans) :
    proposalPhase (s.after q a) = (proposalPhase s).next q a := by
  cases q <;> rfl

/-- Not a profile job. -/
def Job.single : Job → Prop
  | .applyProfileChanges _ => False
  | _ => True

/-- The discipline of every program towards proposals: `devices` are the
stored devices, `Good` is what the inserted proposals satisfy. -/
def proposals (env : Env) (devices : DeviceId → Option Device) (Good : Proposal → Prop) :
    Discipline Eff Eff.Ans ProposalPhase where
  allows p
    | .getChange id => p.loaded id = none ∧ p.dirty id = none ∧ p.read = none
    | .insertChange row => Good row.proposal ∧ row.status = .draft
    | .flushChange row =>
      (∃ old, p.seen row.id = some old ∧ row.proposal = old.proposal) ∧
        (row.status = .conflict → p.Stale env row)
    | .request _ _ => p.pushing ≠ none
    | .enqueue job _ => job.single
    | _ => True
  admits p
    | .getChange id, row => ∀ r : Change, row = some r → r.id = id ∧ Good r.proposal
    | .insertChange row, row' =>
      (row' : Change).proposal = row.proposal ∧ row'.status = row.status ∧
        p.loaded row'.id = none ∧ p.dirty row'.id = none
    | .getDevice id, device => device = devices id
    | _, _ => True
  next := ProposalPhase.next

section Programs

variable {env : Env} {devices : DeviceId → Option Device} {Good : Proposal → Prop}
  {p : ProposalPhase}

/-! ### Applying -/

/-- The session holds the row, unwritten so far or not. -/
def ProposalPhase.Has (p : ProposalPhase) (row : Change) : Prop :=
  ∃ old, p.seen row.id = some old ∧ row.proposal = old.proposal

theorem has_of_written (row : Change) (p : ProposalPhase) :
    ProposalPhase.Has { p with dirty := Function.update p.dirty row.id (some row) } row :=
  ⟨row, by simp [ProposalPhase.seen], rfl⟩

theorem ProposalPhase.Has.congr {row row' : Change} (h : p.Has row) (hid : row'.id = row.id)
    (hp : row'.proposal = row.proposal) : p.Has row' := by
  obtain ⟨old, hold, hprop⟩ := h
  exact ⟨old, by rw [hid, hold], hp.trans hprop⟩

theorem follows_flush {α : Type} {Z : ProposalPhase → Except Raised α → Prop} {row : Change}
    {f : Program α} (hhas : p.Has row) (hst : row.status ≠ .conflict)
    (hf : Follows (proposals env devices Good) Z
      { p with dirty := Function.update p.dirty row.id (some row) } f) :
    Follows (proposals env devices Good) Z p (do perform (.flushChange row); f) :=
  ⟨⟨hhas, fun h => absurd h hst⟩, fun _ _ => hf⟩

theorem follows_onBox_proposals {α : Type} (device : DeviceId) (prog : Client α)
    (hp : p.pushing ≠ none) :
    Follows (proposals env devices Good) (fun p' _ => p' = p) p (onBox device prog) :=
  follows_onBox (fun _ => hp) (fun _ _ => rfl) prog

theorem follows_applyGuarded_proposals (client : DeviceId) (change : Change) (live : Bool)
    (now : Time) :
    Follows (proposals env devices Good)
      (fun p' z => p'.loaded = p.loaded ∧ p'.dirty = p.dirty ∧
        ∀ row, z = .ok row → row.id = change.id ∧ row.proposal = change.proposal ∧
          row.status ≠ .conflict) p
      (applyGuarded client change live now) := by
  have hcall : Follows (proposals env devices Good)
      (fun p' _ => p'.loaded = p.loaded ∧ p'.dirty = p.dirty) p
      (callApplier client change live) := by
    cases live with
    | false =>
      exact ((applyForKind_dry _ _ _).translate _ _).follows fun _ => ⟨rfl, rfl⟩
    | true =>
      refine ⟨trivial, fun _ _ => ?_⟩
      refine (follows_onBox_proposals client _ (by simp [proposals, ProposalPhase.next])).mono
        fun p' _ h => ?_
      rw [h]
      exact ⟨rfl, rfl⟩
  have hbody : Follows (proposals env devices Good)
      (fun p' z => p'.loaded = p.loaded ∧ p'.dirty = p.dirty ∧
        ∀ row : Change, z = .ok row → row.id = change.id ∧ row.proposal = change.proposal ∧
          row.status ≠ .conflict) p (do
        let res ← callApplier client change live
        return { change with status := .applied, appliedAt := some now, result := res }) := by
    refine Follows.bind hcall (fun p' res h => ⟨h.1, h.2, fun row hrow => ?_⟩)
      fun p' x h => ⟨h.1, h.2, by simp⟩
    obtain rfl := Except.ok.inj hrow
    exact ⟨rfl, rfl, by simp⟩
  refine Follows.handle hbody (fun _ _ h => h) fun p' e h => ?_
  cases applyFailure e with
  | some result =>
    refine ⟨h.1, h.2.1, fun row hrow => ?_⟩
    obtain rfl := Except.ok.inj hrow
    exact ⟨rfl, rfl, by simp⟩
  | none => exact ⟨h.1, h.2.1, by simp⟩

theorem follows_rollbackPoint_proposals (live : Bool) (change : Change) (xml : String) :
    Follows (proposals env devices Good) (fun p' _ => p' = p) p
      (rollbackPoint env live change xml) := by
  cases live with
  | false => exact rfl
  | true => exact ⟨trivial, fun _ _ => ⟨trivial, fun _ _ => rfl⟩⟩

/-- `apply_change` on a loaded row. -/
theorem follows_applyChange_proposals {change : Change} {now : Time}
    (hl : p.loaded change.id = some change) (hd : p.dirty change.id = none)
    (hp : p.pushing = none) :
    Follows (proposals env devices Good) (fun _ _ => True) p
      (applyChange env change change.deviceId now) := by
  have hhas : ∀ p' : ProposalPhase, p'.loaded = p.loaded → p'.dirty = p.dirty →
      p'.Has change := by
    intro p' h₁ h₂
    exact ⟨change, by simp [ProposalPhase.seen, h₁, h₂, hl, hd], rfl⟩
  unfold applyChange
  split
  · trivial
  · refine ⟨trivial, fun got _ => ?_⟩
    cases got with
    | false => trivial
    | true =>
      refine ⟨trivial, fun r _ => ?_⟩
      cases r with
      | error x =>
        exact follows_flush ((hhas _ rfl rfl).congr rfl rfl) (by simp) trivial
      | ok xml =>
        show Follows _ _ _ (Dialogue.bind (.pure ((env.canonicalHash xml).map fun h => (xml, h))) _)
        rw [Dialogue.pure_bind]
        rcases hh : env.canonicalHash xml with - | current
        · exact follows_flush ((hhas _ rfl rfl).congr rfl rfl) (by simp) trivial
        · show Follows _ _ _ (ite _ _ _)
          split
          · rename_i hstale
            refine ⟨⟨(hhas _ rfl rfl).congr rfl rfl, fun _ => ?_⟩, fun _ _ => trivial⟩
            have hl' : p.loaded change.id ≠ none := by simp [hl]
            exact ⟨hp, hl', xml, current, rfl, hh, hstale.1, hstale.2⟩
          · refine follows_flush ((hhas _ rfl rfl).congr rfl rfl) (by simp) ⟨trivial, fun row _ => ?_⟩
            show Follows _ _ _ ((rollbackPoint env _ _ _).bind _)
            refine Follows.bind (follows_rollbackPoint_proposals _ _ _) (fun p₂ snapId h₂ => ?_)
              fun _ _ _ => trivial
            refine Follows.bind (follows_applyGuarded_proposals _ _ _ _) (fun p₃ done h₃ => ?_)
              fun _ _ _ => trivial
            obtain ⟨hl₃, hd₃, hdone⟩ := h₃
            obtain ⟨hid, hprop, hst⟩ := hdone done rfl
            refine follows_flushResult trivial (follows_flush ?_ hst trivial)
            -- the row was written as `applying`, and so the session has it
            refine ⟨{ change with status := .applying }, ?_, hprop⟩
            have hid : done.id = change.id := hid
            rw [hid, ProposalPhase.seen, hd₃, h₂]
            simp [proposals, ProposalPhase.next]

theorem follows_clientForDevice_proposals (device : Device) :
    Follows (proposals env devices Good) (fun p' _ => p' = p) p (clientForDevice device) := by
  unfold clientForDevice
  split <;> exact rfl

theorem follows_applyConfigChange_proposals (id : ChangeId) :
    Follows (proposals env devices Good) (fun _ _ => True) {}
      (do let _ ← applyConfigChange env id) := by
  refine ⟨⟨rfl, rfl, rfl⟩, fun row hrow => ?_⟩
  cases row with
  | none => trivial
  | some change =>
    obtain ⟨rfl, -⟩ := hrow change rfl
    refine ⟨trivial, fun device _ => ?_⟩
    cases device with
    | none => trivial
    | some device =>
      refine (follows_clientForDevice_proposals device).bind_bind (fun p' _ hp' => ?_)
        fun _ _ _ => trivial
      refine ⟨trivial, fun now _ => ?_⟩
      show Follows _ _ _ (((applyChange env change change.deviceId now).bind _).bind _)
      rw [Dialogue.bind_assoc]
      have hl : p'.loaded change.id = some change := by
        rw [hp']
        exact Function.update_self ..
      have hd : p'.dirty change.id = none ∧ p'.pushing = none := by
        rw [hp']
        exact ⟨rfl, rfl⟩
      refine Follows.bind (follows_applyChange_proposals hl hd.1 hd.2) (fun p₂ done _ => ?_)
        fun _ _ _ => trivial
      exact ⟨trivial, fun _ _ => ⟨trivial, fun _ _ => trivial⟩⟩

/-! ### Handlers -/

theorem follows_loadDevice_proposals (tenantId : TenantId) (deviceId : DeviceId) :
    Follows (proposals env devices Good)
      (fun p' z => p' = p ∧ ∀ device, z = .ok device → devices deviceId = some device ∧
        device.tenantId = tenantId) p
      (loadDevice tenantId deviceId) := by
  refine ⟨trivial, fun device hdev => ?_⟩
  cases device with
  | none => exact ⟨rfl, by simp⟩
  | some device =>
    show Follows _ _ _ (ite _ _ _)
    split
    · exact ⟨rfl, by simp⟩
    · rename_i htenant
      refine ⟨rfl, fun device' h => ?_⟩
      obtain rfl := Except.ok.inj h
      exact ⟨hdev.symm, not_not.mp htenant⟩

theorem follows_loadChange_proposals (tenantId : TenantId) (deviceId : DeviceId) (id : ChangeId) :
    Follows (proposals env devices Good)
      (fun p' z => ∀ change, z = .ok change → p'.Has change ∧ Good change.proposal) {}
      (loadChange tenantId deviceId id) := by
  refine ⟨⟨rfl, rfl, rfl⟩, fun row hrow => ?_⟩
  cases row with
  | none => exact fun change h => by cases h
  | some change =>
    obtain ⟨rfl, hgood⟩ := hrow change rfl
    show Follows _ _ _ (ite _ _ _)
    split
    · exact fun change h => by cases h
    · refine fun change' h => ?_
      obtain rfl := Except.ok.inj h
      exact ⟨⟨change, by simp [ProposalPhase.seen, proposals, ProposalPhase.next], rfl⟩, hgood⟩

/-- The proposal that `create_change` stores. -/
def newProposal (tenantId : TenantId) (deviceId : DeviceId) (kind operation target : String)
    (payload : Dict) (baselineHash : String) : Proposal :=
  { tenantId, deviceId, kind, operation, target, payload, baselineHash }

theorem follows_createChange_proposals {tenantId : TenantId} {deviceId : DeviceId}
    {kind operation : String} {target : Json} {payload : Dict}
    (hgood : ∀ text baseline, target = .str text →
      Good (newProposal tenantId deviceId kind operation text payload baseline)) :
    Follows (proposals env devices Good)
      (fun p' z => ∀ row, z = .ok row → p'.Has row ∧ row.status = .draft) p
      (createChange tenantId deviceId kind operation target payload) := by
  refine ⟨trivial, fun snap _ => ?_⟩
  cases target with
  | str text =>
    refine ⟨⟨hgood text _ rfl, rfl⟩, fun row hrow row' h => ?_⟩
    obtain rfl := Except.ok.inj h
    exact ⟨has_of_written row p, hrow.2.1⟩
  | _ => exact fun row h => by cases h

theorem follows_createConfigChange_proposals {tenantId : TenantId} {deviceId : DeviceId}
    {body : ConfigChangeIn}
    (hgood : ∀ device baseline, body.valid = true → devices deviceId = some device →
      device.tenantId = tenantId →
      Good (newProposal tenantId deviceId body.kind body.operation body.target body.payload baseline)) :
    Follows (proposals env devices Good) (fun _ _ => True) {}
      (do let _ ← createConfigChange tenantId deviceId body) := by
  unfold createConfigChange
  split
  · trivial
  · rename_i hvalid
    refine (follows_loadDevice_proposals _ _).bind_bind (fun p' device hdev => ?_)
      fun _ _ _ => trivial
    obtain ⟨hdev, htenant⟩ := hdev.2 device rfl
    refine (follows_createChange_proposals fun text baseline ht => ?_).bind_bind
      (fun p₂ row _ => ⟨trivial, fun _ _ => trivial⟩) fun _ _ _ => trivial
    obtain rfl := Json.str.inj ht
    exact hgood device baseline (by simpa using hvalid) hdev htenant

theorem follows_createCatalogChange_proposals {tenantId : TenantId} {deviceId : DeviceId}
    {body : CatalogChangeIn}
    (hgood : ∀ device model payload baseline, devices deviceId = some device →
      device.tenantId = tenantId → catalogDenylist.contains body.modelId = false →
      catalogModel env device body.modelId = some model → buildPayload model body = .ok payload →
      Good (newProposal tenantId deviceId "catalog_setting" "set" body.modelId payload baseline)) :
    Follows (proposals env devices Good) (fun _ _ => True) {}
      (do let _ ← createCatalogChange env tenantId deviceId body) := by
  unfold createCatalogChange
  split
  · trivial
  · refine (follows_loadDevice_proposals _ _).bind_bind (fun p' device hdev => ?_)
      fun _ _ _ => trivial
    obtain ⟨hdev, htenant⟩ := hdev.2 device rfl
    show Follows _ _ _ (Dialogue.bind (ite _ _ _) _)
    split
    · trivial
    · rename_i hdeny
      rcases hmodel : catalogModel env device body.modelId with - | model
      · trivial
      · rcases hpay : buildPayload model body with x | payload
        · simp only [hpay, Dialogue.bind_eq, Dialogue.ofExcept_error, Dialogue.raise_bind]
          trivial
        · simp only [hpay, Dialogue.bind_eq, Dialogue.ofExcept_ok, Dialogue.pure_bind]
          rw [Dialogue.bind_assoc]
          refine Follows.bind (follows_createChange_proposals fun text baseline ht => ?_)
            (fun p₂ row _ => ⟨trivial, fun _ _ => trivial⟩) fun _ _ _ => trivial
          obtain rfl := Json.str.inj ht
          exact hgood device model payload baseline hdev htenant (by simpa using hdeny) hmodel hpay

theorem follows_scheduleConfigChange_proposals (tenantId : TenantId) (deviceId : DeviceId)
    (id : ChangeId) (scheduledAt : Option Time) :
    Follows (proposals env devices Good) (fun _ _ => True) {}
      (do let _ ← scheduleConfigChange tenantId deviceId id scheduledAt) := by
  refine (follows_loadChange_proposals _ _ _).bind_bind (fun p' change h => ?_)
    fun _ _ _ => trivial
  show Follows _ _ _ (Dialogue.bind (ite _ _ _) _)
  split
  · trivial
  · exact follows_flush ((h change rfl).1.congr rfl rfl) (by simp)
      ⟨trivial, fun _ _ => ⟨trivial, fun _ _ => trivial⟩⟩

theorem follows_cancelConfigChange_proposals (tenantId : TenantId) (deviceId : DeviceId)
    (id : ChangeId) :
    Follows (proposals env devices Good) (fun _ _ => True) {}
      (do let _ ← cancelConfigChange tenantId deviceId id) := by
  refine (follows_loadChange_proposals _ _ _).bind_bind (fun p' change h => ?_)
    fun _ _ _ => trivial
  show Follows _ _ _ (Dialogue.bind (ite _ _ _) _)
  split
  · trivial
  · exact follows_flush ((h change rfl).1.congr rfl rfl) (by simp)
      ⟨trivial, fun _ _ => trivial⟩

/-- The inverse of a good proposal is a good proposal. -/
def InverseGood (env : Env) (Good : Proposal → Prop) : Prop :=
  ∀ change snapshotXml operation text payload baseline, Good (Change.proposal change) →
    buildInverse env change snapshotXml = .ok (operation, .str text, payload) →
    Good (newProposal change.tenantId change.deviceId change.kind operation text payload baseline)

theorem follows_revertChange_proposals (hinv : InverseGood env Good) {change : Change}
    (hgood : Good change.proposal) :
    Follows (proposals env devices Good)
      (fun p' z => ∀ row, z = .ok row → p'.Has row ∧ row.status = .draft) p
      (revertChange env change) := by
  have hraise : ∀ {p' : ProposalPhase} {x : Raised},
      (∀ row : Change, (.error x : Except Raised Change) = .ok row →
        p'.Has row ∧ row.status = .draft) := by
    intro p' x row h
    cases h
  unfold revertChange
  split
  · exact hraise
  · split
    · exact hraise
    · have hxml : Follows (proposals env devices Good) (fun _ _ => True) p
          (preApplyXml env change) := by
        unfold preApplyXml
        split
        · trivial
        · refine ⟨trivial, fun snap _ => ?_⟩
          cases snap with
          | none => trivial
          | some snap =>
            show Follows _ _ _ (ite _ _ _)
            split
            · trivial
            · split <;> trivial
      show Follows _ _ _ ((preApplyXml env change).bind _)
      refine Follows.bind hxml (fun p' snapshotXml _ => ?_) fun _ _ _ => hraise
      rcases hb : buildInverse env change snapshotXml with x | ⟨operation, target, payload⟩
      · simp only [Dialogue.bind_eq, Dialogue.ofExcept_error, Dialogue.raise_bind]
        exact hraise
      · simp only [Dialogue.bind_eq, Dialogue.ofExcept_ok, Dialogue.pure_bind]
        refine Follows.bind (follows_createChange_proposals fun text baseline ht => ?_)
          (fun p₂ row h => ?_) fun _ _ _ => hraise
        · rw [ht] at hb
          exact hinv change snapshotXml operation text payload baseline hgood hb
        · obtain ⟨hhas, hst⟩ := h row rfl
          refine follows_flush (hhas.congr rfl rfl) (by simp [hst]) fun row' h' => ?_
          obtain rfl := Except.ok.inj h'
          exact ⟨has_of_written _ p₂, hst⟩

theorem follows_revertConfigChange_proposals (hinv : InverseGood env Good) (tenantId : TenantId)
    (deviceId : DeviceId) (id : ChangeId) (scheduledAt : Option Time) :
    Follows (proposals env devices Good) (fun _ _ => True) {}
      (do let _ ← revertConfigChange env tenantId deviceId id scheduledAt) := by
  refine (follows_loadChange_proposals _ _ _).bind_bind (fun p' change h => ?_)
    fun _ _ _ => trivial
  obtain ⟨-, hgood⟩ := h change rfl
  refine Follows.bind_bind (Z := fun p₂ z => ∀ row, z = .ok row → p₂.Has row) ?_
    (fun p₂ inverse h₂ => ?_) fun _ _ _ => trivial
  · refine Follows.handle (follows_revertChange_proposals hinv hgood)
      (fun _ _ h row hrow => (h row hrow).1) fun p₂ e _ => ?_
    split <;> exact fun row h => by cases h
  · exact follows_flush ((h₂ inverse rfl).congr rfl rfl) (by simp)
      ⟨trivial, fun _ _ => ⟨trivial, fun _ _ => trivial⟩⟩

/-! ### Backups and sweeps -/

theorem follows_backupDeviceConfig_proposals (device : DeviceId) :
    Follows (proposals env devices Good) (fun _ _ => True) {}
      (do let _ ← backupDeviceConfig env device) := by
  refine ⟨trivial, fun row _ => ?_⟩
  cases row with
  | none => trivial
  | some d =>
    have hbackup : ∀ p : ProposalPhase, Follows (proposals env devices Good) (fun _ _ => True) p
        (backupConfig env device d) := by
      intro p
      refine ⟨trivial, fun r _ => ?_⟩
      cases r with
      | error x => trivial
      | ok xml =>
        show Follows _ _ _ (Dialogue.bind (.pure ((env.canonicalHash xml).map fun h => (xml, h))) _)
        rw [Dialogue.pure_bind]
        rcases env.canonicalHash xml with - | digest
        · trivial
        · refine ⟨trivial, fun latest _ => ?_⟩
          show Follows _ _ _ (ite _ _ _)
          split
          · trivial
          · exact ⟨trivial, fun _ _ => trivial⟩
    refine (follows_clientForDevice_proposals d).bind_bind (fun p' _ _ => ?_) fun _ _ _ => trivial
    exact (hbackup p').bind_bind (fun _ _ _ => ⟨trivial, fun _ _ => trivial⟩)
      fun _ _ _ => trivial

theorem follows_sweepRow_proposals (id : ChangeId) (summary : SweepSummary) :
    Follows (proposals env devices Good) (fun _ _ => True) {} (sweepRow env id summary) := by
  refine ⟨⟨rfl, rfl, rfl⟩, fun row hrow => ?_⟩
  cases row with
  | none => trivial
  | some row =>
    obtain ⟨rfl, -⟩ := hrow row rfl
    have hhas : ProposalPhase.Has
        (ProposalPhase.next {} (.getChange row.id) (some row)) row :=
      ⟨row, by simp [ProposalPhase.seen, ProposalPhase.next], rfl⟩
    show Follows _ _ _ (ite _ _ _)
    split
    · trivial
    · rename_i hs
      have hs : row.status = .scheduled := not_not.mp hs
      refine ⟨trivial, fun got _ => ?_⟩
      cases got with
      | false => trivial
      | true =>
        cases decideOrphan row.sweepAttempts env.maxReenqueueAttempts with
        | reEnqueue =>
          simp only [Bool.not_true, Bool.false_eq_true, if_false, Dialogue.bind_eq,
            Dialogue.pure_bind]
          exact follows_flush (hhas.congr rfl rfl) (by simp [hs])
            ⟨trivial, fun _ _ => ⟨trivial, fun _ _ => trivial⟩⟩
        | giveUp =>
          simp only [Bool.not_true, Bool.false_eq_true, if_false, Dialogue.bind_eq,
            Dialogue.pure_bind]
          exact follows_flush (hhas.congr rfl rfl) (by simp)
            ⟨trivial, fun _ _ => ⟨trivial, fun _ _ => trivial⟩⟩

theorem follows_sweepRows_proposals (ids : List ChangeId) (summary : SweepSummary) :
    Follows (proposals env devices Good) (fun _ _ => True) {} (sweepRows env ids summary) := by
  induction ids generalizing summary with
  | nil => trivial
  | cons id ids ih =>
    show Follows _ _ _ ((Dialogue.handle (sweepRow env id summary) _).bind _)
    refine Follows.bind (Z := fun _ _ => True) ?_ (fun p' summary' _ => ?_) fun _ _ _ => trivial
    · exact Follows.handle (follows_sweepRow_proposals id summary) (fun _ _ _ => trivial)
        fun _ _ _ => trivial
    · exact ⟨trivial, fun _ _ => ih summary'⟩

theorem follows_sweepOrphanedActions_proposals :
    Follows (proposals env devices Good) (fun _ _ => True) {}
      (do let _ ← sweepOrphanedActions env) := by
  refine ⟨trivial, fun now _ => ⟨trivial, fun ids _ => ⟨trivial, fun _ _ => ?_⟩⟩⟩
  exact Follows.bind (follows_sweepRows_proposals ids {}) (fun _ _ _ => trivial)
    fun _ _ _ => trivial

/-- What the two creating requests must insert, where they are not refused. -/
def CallGood (env : Env) (devices : DeviceId → Option Device) (Good : Proposal → Prop) :
    Call → Prop
  | .createConfigChange tenantId deviceId body => ∀ device baseline,
    body.valid = true → devices deviceId = some device → device.tenantId = tenantId →
      Good (newProposal tenantId deviceId body.kind body.operation body.target body.payload baseline)
  | .createCatalogChange tenantId deviceId body => ∀ device model payload baseline,
    devices deviceId = some device → device.tenantId = tenantId →
      catalogDenylist.contains body.modelId = false →
      catalogModel env device body.modelId = some model → buildPayload model body = .ok payload →
      Good (newProposal tenantId deviceId "catalog_setting" "set" body.modelId payload baseline)
  | _ => True

/-- **Every program but a profile job follows the discipline**, if what the
creating requests insert is good and inverses of good proposals are. -/
theorem follows_opens_proposals {queue queue' : List (Job × Option Time)} {e : Event} {i : Nat}
    {task : Task} {t : Program Unit} (hinv : InverseGood env Good)
    (hcall : ∀ j call, e = .call j call → CallGood env devices Good call)
    (hqueue : ∀ job ∈ queue, job.1.single) (h : Opens env queue e i task t queue') :
    Follows (proposals env devices Good) (fun _ _ => True) {} t := by
  cases h with
  | call _ call =>
    have hgood := hcall i call rfl
    cases call with
    | createConfigChange => exact follows_createConfigChange_proposals hgood
    | createCatalogChange => exact follows_createCatalogChange_proposals hgood
    | scheduleConfigChange => exact follows_scheduleConfigChange_proposals _ _ _ _
    | cancelConfigChange => exact follows_cancelConfigChange_proposals _ _ _
    | revertConfigChange => exact follows_revertConfigChange_proposals hinv _ _ _ _
  | sweep => exact follows_sweepOrphanedActions_proposals
  | @job _ n job deferUntil hn =>
    have hsingle := hqueue _ (List.mem_of_getElem? hn)
    cases job with
    | applyConfigChange id => exact follows_applyConfigChange_proposals id
    | applyProfileChanges ids => exact absurd hsingle id
    | backupDeviceConfig device => exact follows_backupDeviceConfig_proposals device

end Programs

/-! ### Good rows -/

/-- What a session holds: rows under their ids with good proposals, written
rows with the proposal that was loaded, and nothing of rows not yet
inserted. -/
structure SessionGood (Good : ChangeId → Proposal → Prop) (nextChange : ChangeId) (s : Session) :
    Prop where
  loaded : ∀ id r, s.loaded id = some r → r.id = id ∧ Good id r.proposal
  dirty : ∀ id r, s.dirty id = some r → r.id = id ∧ Good id r.proposal ∧
    ∀ old, s.loaded id = some old → r.proposal = old.proposal
  unused : ∀ id, nextChange ≤ id → s.loaded id = none ∧ s.dirty id = none

/-- Every row in the world, committed or in a session, has a good
proposal. -/
structure RowsGood (Good : ChangeId → Proposal → Prop) (w : World Box) : Prop where
  committed : ∀ id r, w.changes id = some r → r.id = id ∧ Good id r.proposal
  unused : ∀ id, w.nextChange ≤ id → w.changes id = none
  sessions : ∀ i, SessionGood Good w.nextChange (w.sessions i)

section Rows

variable {Good Good' : ChangeId → Proposal → Prop} {w w' : World Box} {i : Nat} {s : Session}
  {n n' : ChangeId}

theorem SessionGood.mono (h : SessionGood Good n s) (hg : ∀ id p, Good id p → Good' id p)
    (hn : n ≤ n') : SessionGood Good' n' s where
  loaded id r hr := ⟨(h.loaded id r hr).1, hg _ _ (h.loaded id r hr).2⟩
  dirty id r hr := ⟨(h.dirty id r hr).1, hg _ _ (h.dirty id r hr).2.1, (h.dirty id r hr).2.2⟩
  unused id hid := h.unused id (hn.trans hid)

theorem SessionGood.of_clean (hl : ∀ id, s.loaded id = none) (hd : ∀ id, s.dirty id = none) :
    SessionGood Good n s where
  loaded id r hr := by
    rw [hl] at hr
    cases hr
  dirty id r hr := by
    rw [hd] at hr
    cases hr
  unused id _ := ⟨hl id, hd id⟩

theorem RowsGood.mono (h : RowsGood Good w) (hg : ∀ id p, Good id p → Good' id p) :
    RowsGood Good' w where
  committed id r hr := ⟨(h.committed id r hr).1, hg _ _ (h.committed id r hr).2⟩
  unused := h.unused
  sessions i := (h.sessions i).mono hg le_rfl

theorem SessionGood.write (h : SessionGood Good n s) {row : Change} (hlt : row.id < n)
    (hgood : Good row.id row.proposal)
    (hsame : ∀ old, s.loaded row.id = some old → row.proposal = old.proposal) :
    SessionGood Good n { s with dirty := Function.update s.dirty row.id (some row) } where
  loaded := h.loaded
  dirty id r hr := by
    by_cases he : id = row.id
    · subst he
      obtain rfl : row = r := by simpa using hr
      exact ⟨rfl, hgood, hsame⟩
    · have hr : s.dirty id = some r := by simpa [Function.update_of_ne he] using hr
      exact h.dirty id r hr
  unused id hid := by
    refine ⟨(h.unused id hid).1, ?_⟩
    have hne : id ≠ row.id := by
      rintro rfl
      exact absurd hlt (not_lt.mpr hid)
    show Function.update s.dirty row.id (some row) id = none
    rw [Function.update_of_ne hne]
    exact (h.unused id hid).2

theorem rowsGood_setSession (hc : ∀ id r, w.changes id = some r → r.id = id ∧ Good id r.proposal)
    (hu : ∀ id, w.nextChange ≤ id → w.changes id = none)
    (hother : ∀ j, SessionGood Good w.nextChange (w.sessions j))
    (hown : SessionGood Good w.nextChange s) : RowsGood Good (w.setSession i s) where
  committed := hc
  unused := hu
  sessions j := by
    rw [World.setSession_sessions]
    by_cases hj : j = i
    · rw [hj, Function.update_self]
      exact hown
    · rw [Function.update_of_ne hj]
      exact hother j

theorem RowsGood.of_sameRows (h : RowsGood Good w) (hs : SameRows w w') : RowsGood Good w' where
  committed := hs.changes ▸ h.committed
  unused := by
    rw [hs.changes, hs.nextChange]
    exact h.unused
  sessions i := by
    have hi := h.sessions i
    rw [hs.nextChange]
    refine ⟨?_, ?_, ?_⟩
    · rw [hs.loaded]
      exact hi.loaded
    · rw [hs.loaded, hs.dirty]
      exact hi.dirty
    · rw [hs.loaded, hs.dirty]
      exact hi.unused

theorem SessionGood.seen (h : SessionGood Good n s) {id : ChangeId} {old : Change}
    (hs : (proposalPhase s).seen id = some old) :
    id < n ∧ Good id old.proposal ∧ ∀ old', s.loaded id = some old' → old.proposal = old'.proposal := by
  have hlt : id < n := by
    by_contra hle
    obtain ⟨hl, hd⟩ := h.unused id (not_lt.mp hle)
    simp [ProposalPhase.seen, proposalPhase, hl, hd] at hs
  rcases hd : s.dirty id with - | r
  · have hl : s.loaded id = some old := by
      simpa [ProposalPhase.seen, proposalPhase, hd] using hs
    refine ⟨hlt, (h.loaded id old hl).2, fun old' hl' => ?_⟩
    rw [hl] at hl'
    rw [Option.some.inj hl']
  · obtain rfl : r = old := by simpa [ProposalPhase.seen, proposalPhase, hd] using hs
    exact ⟨hlt, (h.dirty id r hd).2⟩

theorem RowsGood.commit (h : RowsGood Good w) :
    RowsGood Good ((w.commit i).setSession i ((w.sessions i).after .commit ())) := by
  have hi := h.sessions i
  refine rowsGood_setSession (fun id r hr => ?_) (fun id hid => ?_) h.sessions ?_
  · have hr : World.mergeRow ((w.sessions i).loaded id) ((w.sessions i).dirty id)
        (w.changes id) = some r := hr
    rcases hd : (w.sessions i).dirty id with - | new
    · rw [hd] at hr
      exact h.committed id r hr
    · obtain ⟨hnew, hgood, hsame⟩ := hi.dirty id new hd
      rw [hd] at hr
      rcases hl : (w.sessions i).loaded id with - | old <;>
        rcases hb : w.changes id with - | base <;> rw [hl, hb] at hr <;>
        obtain rfl := Option.some.inj hr
      · exact ⟨hnew, hgood⟩
      · exact ⟨hnew, hgood⟩
      · exact ⟨hnew, hgood⟩
      · obtain ⟨hid, hbase⟩ := h.committed id base hb
        refine ⟨hid, ?_⟩
        rw [patch_proposal (hsame old hl)]
        exact hbase
  · rw [show (w.commit i).changes id = w.changes id by
      show World.mergeRow _ _ _ = _
      rw [(hi.unused id hid).2]
      rfl]
    exact h.unused id hid
  · refine ⟨hi.loaded, fun id r hr => ?_, fun id hid => ⟨(hi.unused id hid).1, rfl⟩⟩
    cases hr

/-- **Serving one effect that the discipline allows keeps the rows good**, if
an inserted row is. -/
theorem RowsGood.serve {env : Env} {devices : DeviceId → Option Device} {P : Proposal → Prop}
    {B : BoxModel Box} {q : Eff} {a : q.Ans} (h : RowsGood Good w)
    (hallow : (proposals env devices P).allows (proposalPhase (w.sessions i)) q)
    (hinsert : ∀ row, q = .insertChange row → Good w.nextChange row.proposal)
    (hw : w.answer B i q = some (a, w')) :
    RowsGood Good (w'.setSession i ((w.sessions i).after q a)) := by
  have hi := h.sessions i
  -- a quiet effect leaves every row; the others are the cases below
  by_cases hq : q.quiet = true
  · exact h.of_sameRows (answer_quiet hq hw)
  cases q with
  | getChange id =>
    obtain ⟨rfl, rfl⟩ := Prod.mk.inj (Option.some.inj hw)
    obtain ⟨-, hd, -⟩ := hallow
    -- what is loaded is the committed row, and nothing of it is unwritten
    have hd : (w.sessions i).dirty id = none := hd
    refine rowsGood_setSession h.committed h.unused h.sessions
      ⟨fun id' r hr => ?_, fun id' r hr => ?_, fun id' hid => ⟨?_, (hi.unused id' hid).2⟩⟩
    · by_cases he : id' = id
      · subst he
        have hr : w.changes id' = some r := by simpa [Session.after] using hr
        exact h.committed id' r hr
      · have hr : (w.sessions i).loaded id' = some r := by
          simpa [Session.after, Function.update_of_ne he] using hr
        exact hi.loaded id' r hr
    · have hr' : (w.sessions i).dirty id' = some r := hr
      have he : id' ≠ id := by
        rintro rfl
        rw [hd] at hr'
        cases hr'
      obtain ⟨hid, hgood, hsame⟩ := hi.dirty id' r hr'
      refine ⟨hid, hgood, fun old hold => hsame old ?_⟩
      simpa [Session.after, Function.update_of_ne he] using hold
    · show Function.update (w.sessions i).loaded id (w.changes id) id' = none
      by_cases he : id' = id
      · rw [he, Function.update_self]
        exact h.unused id (he ▸ hid)
      · rw [Function.update_of_ne he]
        exact (hi.unused id' hid).1
  | insertChange row =>
    obtain ⟨rfl, rfl⟩ := Prod.mk.inj (Option.some.inj hw)
    -- the new row has the id that no session has seen
    have hle : w.nextChange ≤ w.nextChange + 1 := Nat.le_succ _
    refine rowsGood_setSession h.committed (fun id hid => h.unused id (hle.trans hid))
      (fun j => (h.sessions j).mono (fun _ _ hg => hg) hle) ?_
    refine SessionGood.write (hi.mono (fun _ _ hg => hg) hle) (Nat.lt_succ_self _)
      (hinsert row rfl) fun old hold => ?_
    have hold : (w.sessions i).loaded w.nextChange = some old := hold
    rw [(hi.unused w.nextChange le_rfl).1] at hold
    cases hold
  | flushChange row =>
    simp only [World.answer] at hw
    split at hw
    · obtain ⟨-, rfl⟩ := Prod.mk.inj (Option.some.inj hw)
      obtain ⟨⟨old, hseen, hprop⟩, -⟩ := hallow
      obtain ⟨hlt, hgood, hsame⟩ := hi.seen hseen
      refine rowsGood_setSession h.committed h.unused h.sessions ?_
      refine hi.write hlt ?_ fun old' hold' => ?_
      · rw [hprop]
        exact hgood
      · rw [hprop]
        exact hsame old' hold'
    · cases hw
  | commit =>
    obtain ⟨-, rfl⟩ := Prod.mk.inj (Option.some.inj hw)
    exact h.commit
  | closeSession =>
    obtain ⟨-, rfl⟩ := Prod.mk.inj (Option.some.inj hw)
    exact rowsGood_setSession h.committed h.unused h.sessions
      (.of_clean (fun _ => rfl) fun _ => rfl)
  | beginPush id =>
    obtain ⟨-, rfl⟩ := Prod.mk.inj (Option.some.inj hw)
    exact rowsGood_setSession h.committed h.unused h.sessions ⟨hi.loaded, hi.dirty, hi.unused⟩
  | enqueue job deferUntil =>
    obtain ⟨-, rfl⟩ := Prod.mk.inj (Option.some.inj hw)
    exact rowsGood_setSession h.committed h.unused h.sessions hi
  | _ => exact absurd rfl hq

end Rows

/-! ### The system -/

/-- The row that an event inserts, if it inserts one. -/
def Sys.inserting (sys : Sys Box) : Event → Option Change
  | .run i =>
    match sys.threads i with
    | some (.ask (.insertChange row) _) => some row
    | _ => none
  | _ => none

/-- A state to start from: nothing runs, rows stand under their ids with good
proposals, and no profile is queued. -/
structure AtRest (Good : Proposal → Prop) (sys : Sys Box) : Prop where
  threads : ∀ i, sys.threads i = none
  sessions : ∀ i, sys.world.sessions i = {}
  rows : ∀ id r, sys.world.changes id = some r → r.id = id ∧ Good r.proposal
  unused : ∀ id, sys.world.nextChange ≤ id → sys.world.changes id = none
  queue : ∀ job ∈ sys.world.queue, job.1.single

/-- The rows are good, the programs on the discipline, the devices as they
were, and no profile is queued. -/
structure ProposalInv (env : Env) (devices : DeviceId → Option Device) (P : Proposal → Prop)
    (Good : ChangeId → Proposal → Prop) (sys : Sys Box) : Prop where
  rows : RowsGood Good sys.world
  follows : sys.AllFollow (proposals env devices P) (fun _ _ => True) proposalPhase
  devices : sys.world.devices = devices
  queue : ∀ job ∈ sys.world.queue, job.1.single

section System

variable {env : Env} {devices : DeviceId → Option Device} {P : Proposal → Prop}
  {Good : ChangeId → Proposal → Prop} {B : BoxModel Box} {sys sys' : Sys Box} {e : Event}

theorem AtRest.proposalInv (h : AtRest P sys) :
    ProposalInv env sys.world.devices P (fun _ => P) sys where
  rows :=
    { committed := h.rows
      unused := h.unused
      sessions := fun i => by
        rw [h.sessions i]
        exact .of_clean (fun _ => rfl) fun _ => rfl }
  follows i t ht := by
    rw [h.threads i] at ht
    cases ht
  devices := rfl
  queue := h.queue

theorem ProposalInv.step (h : ProposalInv env devices P Good sys)
    (hP : ∀ id p, Good id p → P p) (hinv : InverseGood env P)
    (hcall : ∀ j call, e = .call j call → CallGood env devices P call)
    (hinsert : ∀ row ∈ sys.inserting e, Good sys.world.nextChange row.proposal)
    (hstep : sys.step env B e = some sys') : ProposalInv env devices P Good sys' where
  rows := by
    -- only an answered question changes rows
    cases Sys.step_moves hstep with
    | opened =>
      exact rowsGood_setSession h.rows.committed h.rows.unused h.rows.sessions
        (.of_clean (fun _ => rfl) fun _ => rfl)
    | ended =>
      exact rowsGood_setSession h.rows.committed h.rows.unused h.rows.sessions
        (.of_clean (fun _ => rfl) fun _ => rfl)
    | @served i q k a w ht hw =>
      refine h.rows.serve (h.follows i _ ht).1 (fun row hq => ?_) hw
      subst hq
      exact hinsert row (by simp [Sys.inserting, ht])
    | passed => exact ⟨h.rows.committed, h.rows.unused, h.rows.sessions⟩
  follows := by
    refine follows_step proposalPhase_after hstep (fun i task t queue ho => ?_)
      (fun i q k a w _ ht hw => ?_) h.follows
    · exact follows_opens_proposals hinv hcall h.queue ho
    · -- what a program may rely on: the rows it reads are good
      cases q with
      | getChange id =>
        obtain ⟨rfl, -⟩ := Prod.mk.inj (Option.some.inj hw)
        intro r hr
        exact ⟨(h.rows.committed id r hr).1, hP _ _ (h.rows.committed id r hr).2⟩
      | insertChange row =>
        obtain ⟨rfl, -⟩ := Prod.mk.inj (Option.some.inj hw)
        exact ⟨rfl, rfl, (h.rows.sessions i).unused _ le_rfl⟩
      | getDevice id =>
        obtain ⟨rfl, -⟩ := Prod.mk.inj (Option.some.inj hw)
        exact congrFun h.devices id
      | _ => trivial
  devices := by
    cases Sys.step_moves hstep with
    | opened => exact h.devices
    | ended => exact h.devices
    | served ht hw => exact (answer_frame hw).devices.trans h.devices
    | passed => exact h.devices
  queue := by
    cases Sys.step_moves hstep with
    | @opened _ i task t queue hfree ho =>
      intro job hjob
      cases ho with
      | call => exact h.queue job hjob
      | sweep => exact h.queue job hjob
      | job => exact h.queue job (List.mem_of_mem_eraseIdx hjob)
    | ended => exact h.queue
    | @served i q k a w ht hw =>
      intro job hjob
      have hjob : job ∈ w.queue := hjob
      -- a job was queued before, or is queued by this very question
      rw [(answer_frame hw).queue] at hjob
      rcases List.mem_append.mp hjob with hjob | hjob
      · exact h.queue job hjob
      · have hall := (h.follows i _ ht).1
        cases q with
        | enqueue job' deferUntil =>
          obtain rfl := List.mem_singleton.mp hjob
          exact hall
        | _ => cases hjob
    | passed => exact h.queue

end System

end Opngms
