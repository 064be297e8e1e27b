/-
Opngms/TenantContext.lean

Which requests of a tenant run all their statements on tenant tables under the
tenant's context.

A handler's part before its commit stays within the transaction in which
`require_tenant` set the tenant (`Within`), so what is left to look at is what it
does past the commit.  Most handlers end there, or hand jobs to the queue.
`create_firmware_action` and `upsert_override` read their row back, in a new
transaction without a tenant, where the policy hides it (`firmware_action_unread`).
Those two are the only ones, and only when they get as far as the commit
(**`tenant_context_covers`**).

`Within` and `Sound` are classes: they are derived along the text of a program.
-/
import Opngms.TenantRequests

namespace Opngms

namespace TenantRequests

open RowSecurity Dialogue

set_option synthInstance.maxSize 2000

/-! ### Programs that stay in their stage -/

section Stays

variable {α β : Type} {tenantId : TenantId} {e : Ending} {st : Stage}

/-- The program stays in the stage. -/
class Stays (tenantId : TenantId) (e : Ending) (st : Stage) (p : Req α) : Prop where
  follows : Follows (stages Governed tenantId e) (fun st' _ => st' = st) st p

abbrev Within (tenantId : TenantId) (e : Ending) (p : Req α) : Prop := Stays tenantId e .within p

instance (a : α) : Stays tenantId e st (Pure.pure a : Req α) := ⟨rfl⟩

instance (x : Failure) : Stays tenantId e st (throw x : Req α) := ⟨rfl⟩

instance (p : Req α) (f : α → Req β) [hp : Stays tenantId e st p]
    [hf : ∀ a, Stays tenantId e st (f a)] : Stays tenantId e st (p >>= f) := by
  constructor
  refine Follows.bind hp.follows ?_ fun _ _ h => h
  intro st' a hst
  rw [hst]
  exact (hf a).follows

instance (c : Prop) [Decidable c] (p q : Req α) [hp : Stays tenantId e st p]
    [hq : Stays tenantId e st q] : Stays tenantId e st (if c then p else q) := by
  split
  · exact hp
  · exact hq

instance : Stays tenantId e st choose := by
  cases st <;> exact ⟨trivial, fun _ _ => rfl⟩

instance (status : Nat) : Stays tenantId e st (require status) := by
  unfold require
  infer_instance

instance (ts : List Table) (status : Nat) [Stays tenantId e st (select ts)] :
    Stays tenantId e st (found ts status) := by
  unfold found
  infer_instance

instance (p : Req Unit) [Stays tenantId e st p] : Stays tenantId e st (whenever p) := by
  unfold whenever
  infer_instance

instance (n : Nat) (p : Req Unit) [Stays tenantId e st p] : Stays tenantId e st (times n p) := by
  induction n with
  | zero => exact inferInstanceAs (Stays tenantId e st (Pure.pure ()))
  | succ n ih => exact inferInstanceAs (Stays tenantId e st (p >>= fun _ => times n p))

instance (ts : List Table) : Within tenantId e (select ts) := ⟨trivial, fun _ _ => rfl⟩

theorem follows_ite {Z : Stage → Except Failure Unit → Prop} {x : Failure} (ok : Bool)
    (htrue : ok = true → Z st (.ok ())) (hfalse : ok = false → Z st (.error x)) :
    Follows (stages Governed tenantId e) Z st (if ok then Pure.pure () else throw x) := by
  cases ok with
  | true => exact htrue rfl
  | false => exact hfalse rfl

instance (t : Table) : Within tenantId e (write t (some tenantId)) :=
  ⟨fun _ => rfl, fun ok _ => follows_ite ok (fun _ => rfl) fun _ => rfl⟩

theorem within_write_none {t : Table} (ht : ¬ Governed t) : Within tenantId e (write t none) :=
  ⟨fun h => absurd h ht, fun ok _ => follows_ite ok (fun _ => rfl) fun _ => rfl⟩

instance : Within tenantId e (write .catalogCache none) := within_write_none (by decide)

instance : Within tenantId e (write .geoipCache none) := within_write_none (by decide)

instance : Within tenantId e (refresh .devices (some tenantId)) :=
  ⟨⟨by decide, rfl⟩, fun ok _ => follows_ite ok (fun _ => rfl) fun _ => rfl⟩

instance : Within tenantId e enqueue :=
  ⟨trivial, fun (ok : Bool) _ => by cases ok <;> rfl⟩

/-! ### Services -/

instance : Within tenantId e (record tenantId) := by
  unfold record
  infer_instance

instance : Within tenantId e deviceOr404 := by
  unfold deviceOr404
  infer_instance

instance : Within tenantId e getRuntimeConfig := by
  unfold getRuntimeConfig
  infer_instance

instance : Within tenantId e getCatalog := by
  unfold getCatalog cacheGet
  infer_instance

instance : Within tenantId e catalogModel := by
  unfold catalogModel
  infer_instance

instance : Within tenantId e (createChange tenantId) := by
  unfold createChange
  infer_instance

instance : Within tenantId e (revertChange tenantId) := by
  unfold revertChange
  infer_instance

instance : Within tenantId e getGeoip := by
  unfold getGeoip fetchAndStore
  infer_instance

instance : Within tenantId e limitingStoreForSections := by
  unfold limitingStoreForSections
  infer_instance

instance : Within tenantId e scheduleRetentionWarnings := by
  unfold scheduleRetentionWarnings
  infer_instance

instance : Within tenantId e deviceFriendlyLabels := by
  unfold deviceFriendlyLabels
  infer_instance

instance : Within tenantId e deviceSections := by
  unfold deviceSections
  infer_instance

instance : Within tenantId e kpis := by
  unfold kpis
  infer_instance

instance : Within tenantId e eventRollup := by
  unfold eventRollup
  infer_instance

instance : Within tenantId e buildReport := by
  unfold buildReport buildContext
  infer_instance

instance : Within tenantId e (upsertSettings tenantId) := by
  unfold upsertSettings
  infer_instance

instance : Within tenantId e orderedMembers := by
  unfold orderedMembers
  infer_instance

instance : Within tenantId e effective := by
  unfold effective
  infer_instance

instance (status : Nat) : Within tenantId e (materializeChange tenantId status) := by
  unfold materializeChange
  infer_instance

instance : Within tenantId e (materializeProfile tenantId) := by
  unfold materializeProfile
  infer_instance

instance : Within tenantId e deviceCert := by
  unfold deviceCert
  infer_instance

instance : Within tenantId e (provisionDevice tenantId) := by
  unfold provisionDevice
  infer_instance

instance : Within tenantId e (deprovisionDevice tenantId) := by
  unfold deprovisionDevice
  infer_instance

instance : Within tenantId e (rotateDeviceCert tenantId) := by
  unfold rotateDeviceCert
  infer_instance

instance : Within tenantId e (revokeDevice tenantId) := by
  unfold revokeDevice
  infer_instance

instance : Within tenantId e asking := by
  unfold asking
  infer_instance

instance : Within tenantId e changeOr404 := by
  unfold changeOr404
  infer_instance

instance : Within tenantId e profileOr404 := by
  unfold profileOr404
  infer_instance

instance : Within tenantId e templateOr404 := by
  unfold templateOr404
  infer_instance

instance (ts : List Table) : Within tenantId e (listing ts) := by
  unfold listing
  infer_instance

instance (t : Table) : Within tenantId e (fetching t) := by
  unfold fetching
  infer_instance

/-! ### The commit and what follows -/

/-- The program, started within the transaction, ends as it should. -/
class Sound (tenantId : TenantId) (e : Ending) (p : Req α) : Prop where
  follows : Follows (stages Governed tenantId e) (Ends e) .within p

instance (priority := low) (p : Req α) [hp : Within tenantId e p] : Sound tenantId e p := by
  refine ⟨Follows.mono ?_ hp.follows⟩
  intro st z hst
  rw [hst]
  cases e <;> trivial

instance (p : Req α) (f : α → Req β) [hp : Within tenantId e p]
    [hf : ∀ a, Sound tenantId e (f a)] : Sound tenantId e (p >>= f) := by
  refine ⟨Follows.bind hp.follows ?_ ?_⟩
  · intro st a hst
    rw [hst]
    exact (hf a).follows
  · intro st x hst
    rw [hst]
    cases e <;> trivial

instance (c : Prop) [Decidable c] (p q : Req α) [hp : Sound tenantId e p]
    [hq : Sound tenantId e q] : Sound tenantId e (if c then p else q) := by
  split
  · exact hp
  · exact hq

instance : Sound tenantId .answers commit := ⟨trivial, fun _ _ => rfl⟩

instance : Sound tenantId .answers (close tenantId) := by
  unfold close
  infer_instance

/-- The program, started past the commit, ends as it should. -/
class Past (tenantId : TenantId) (e : Ending) (p : Req Unit) : Prop where
  follows : Follows (stages Governed tenantId e) (Ends e) (.past false) p

instance (p : Req Unit) [hp : Past tenantId e p] :
    Sound tenantId e (close tenantId >>= fun _ => p) := by
  have hrest : Sound tenantId e (commit >>= fun _ => p) := ⟨trivial, fun _ _ => hp.follows⟩
  have hclose : (close tenantId >>= fun _ => p) =
      record tenantId >>= fun _ => commit >>= fun _ => p := bind_assoc _ _ _
  rw [hclose]
  infer_instance

instance : Past tenantId .answers (Pure.pure ()) := ⟨rfl⟩

/-- A job: the request answers if the queue takes it. -/
instance (p : Req Unit) [hp : Past tenantId .answers p] :
    Past tenantId .answers (enqueue >>= fun _ => p) := by
  refine ⟨trivial, fun (taken : Bool) _ => ?_⟩
  cases taken with
  | true => exact hp.follows
  | false => rfl

instance : Past tenantId .answers enqueue :=
  ⟨trivial, fun (taken : Bool) _ => by cases taken <;> rfl⟩

instance (p : Req Unit) [hp : Past tenantId .answers p] : Past tenantId .answers (whenever p) := by
  refine ⟨trivial, fun (taken : Bool) _ => ?_⟩
  cases taken with
  | true => exact hp.follows
  | false => rfl

/-- A job whose failure is logged. -/
instance : Past tenantId .swallows (tryCatch enqueue fun _ => Pure.pure ()) :=
  ⟨trivial, fun (taken : Bool) _ => by cases taken <;> rfl⟩

theorem past_refresh {t : Table} (ht : Governed t) :
    Past tenantId .rereads (refresh t (some tenantId)) := by
  refine ⟨⟨rfl, ht⟩, fun (found : Bool) hfound => ?_⟩
  have hfound : found = false := hfound
  rw [hfound]
  rfl

instance : Past tenantId .rereads (refresh .firmwareActions (some tenantId)) :=
  past_refresh (by decide)

instance : Past tenantId .rereads (refresh .templateOverrides (some tenantId)) :=
  past_refresh (by decide)

end Stays

/-! ### The dependencies -/

section Dependencies

variable {tenantId : TenantId} {e : Ending} {p : Req Unit}

theorem before_select {ts : List Table} (hts : ∀ t ∈ ts, ¬ Governed t) :
    Stays tenantId e .before (select ts) :=
  ⟨hts, fun _ _ => rfl⟩

instance : Stays tenantId e .before (select [.appSettings]) := before_select (by decide)

instance : Stays tenantId e .before (select [.sessions]) := before_select (by decide)

instance : Stays tenantId e .before (select [.users]) := before_select (by decide)

instance : Stays tenantId e .before (select [.tenants]) := before_select (by decide)

instance : Stays tenantId e .before (select [.memberships]) := before_select (by decide)

instance : Stays tenantId e .before (select [.groupGrants, .groupMembers]) :=
  before_select (by decide)

instance : Stays tenantId e .before (write .sessions none) := by
  refine ⟨?_, fun ok _ => follows_ite ok (fun _ => rfl) fun _ => rfl⟩
  show ¬ Governed .sessions
  decide

instance : Stays tenantId e .before commit := ⟨trivial, fun _ _ => rfl⟩

instance : Stays tenantId e .before getCurrentSession := by
  unfold getCurrentSession
  infer_instance

instance : Stays tenantId e .before enforceCsrf := by
  unfold enforceCsrf
  infer_instance

instance : Stays tenantId e .before getCurrentUser := by
  unfold getCurrentUser
  infer_instance

instance : Stays tenantId e .before resolveEffectiveRole := by
  unfold resolveEffectiveRole
  infer_instance

theorem Stays.before_bind {q : Req Unit} (hq : Stays tenantId e .before q)
    (hp : Follows (stages Governed tenantId e) (Ends e) .before p) :
    Follows (stages Governed tenantId e) (Ends e) .before (q >>= fun _ => p) := by
  refine Follows.bind hq.follows ?_ ?_
  · intro st _ hst
    rw [hst]
    exact hp
  · intro st x hst
    rw [hst]
    cases e <;> trivial

theorem Sound.requireTenant (hp : Sound tenantId e p) :
    Follows (stages Governed tenantId e) (Ends e) .before
      (requireTenant tenantId >>= fun _ => p) := by
  have hrest : Sound tenantId e (require 403 >>= fun _ => p) := inferInstance
  have hset : Follows (stages Governed tenantId e) (Ends e) .before
      (setTenantContext tenantId >>= fun _ => require 403 >>= fun _ => p) :=
    ⟨rfl, fun _ _ => hrest.follows⟩
  have hfound : Stays tenantId e .before (found [.tenants] 404) := inferInstance
  have hrole : Stays tenantId e .before
      (whenever (resolveEffectiveRole >>= fun _ => require 403)) := inferInstance
  have h := hfound.before_bind (hrole.before_bind hset)
  simpa only [TenantRequests.requireTenant, tenantContext, bind_eq, bind_assoc] using h

theorem Sound.reading (hp : Sound tenantId e p) :
    Follows (stages Governed tenantId e) (Ends e) .before (reading tenantId p) := by
  have hsession : Stays tenantId e .before getCurrentSession := inferInstance
  have huser : Stays tenantId e .before getCurrentUser := inferInstance
  exact hsession.before_bind (huser.before_bind hp.requireTenant)

theorem Sound.protect (hp : Sound tenantId e p) :
    Follows (stages Governed tenantId e) (Ends e) .before (protect tenantId p) := by
  have hsession : Stays tenantId e .before getCurrentSession := inferInstance
  have hcsrf : Stays tenantId e .before enforceCsrf := inferInstance
  have huser : Stays tenantId e .before getCurrentUser := inferInstance
  exact hsession.before_bind (hcsrf.before_bind (huser.before_bind hp.requireTenant))

end Dependencies

/-! ### The handlers -/

/-- What becomes of a request to the handler past its commit. -/
def Handler.ending : Handler → Ending
  | createFirmwareAction => .rereads
  | upsertOverride => .rereads
  | revokeLogForwarding => .swallows
  | _ => .answers

theorem follows_request (h : Handler) (tenantId : TenantId) :
    Follows (stages Governed tenantId h.ending) (Ends h.ending) .before (h.request tenantId) := by
  cases h <;> first | apply Sound.reading | apply Sound.protect
  -- A handler is put together from parts whose stage is known.
  all_goals
    dsimp only [Handler.ending,
      listDevices, getDevice, getDevicePlugins, createDevice, updateDevice, deleteDevice,
      testDeviceConnection, rotateSecret, listSnapshots, configDrift, configDriftCheck,
      configDiff, configModel, metricLabels, configMapEndpoint, configCapabilities,
      createConfigChange, listConfigChanges, previewConfigChange, scheduleConfigChange,
      revertConfigChange, cancelConfigChange, createCatalogChange, readDeviceCatalog,
      readCatalogModel, readPluginModels, readCatalogDiff, listEvents, topEvents,
      searchLogsEndpoint, listMemberships, createMembership, firewallRuleModel,
      listIdsRulesets, monitTestModel, introspectSetting, firmwareCheck,
      createFirmwareAction, listFirmwareActions, statusLogForwarding, enableLogForwarding,
      disableLogForwarding, rotateLogForwarding, revokeLogForwarding, getDeviceMetrics,
      listAlerts, fleetHealth, attackerCountries, perimeterAttackers, getRetention,
      putRetention, previewProfile, applyProfile, upsertOverride, previewTemplate,
      applyTemplate, listSchedules, upsertSchedule, deleteSchedule, sendNow, generateReport,
      listGeneratedReports, downloadGeneratedReport, getReportLanguages, getReportSettings,
      updateReportSettings, uploadReportLogo, deleteReportLogo, getReportLogo]
    infer_instance

/-- In every run of a request for a tenant, each statement on a tenant table runs under
the tenant's context, the request sees the rows it wrote, and it does not fail past its
commit: unless it is `create_firmware_action` or `upsert_override` and gets to its
commit, or the queue refuses a job another handler hands over past its commit, which
only `revoke` survives. -/
theorem tenant_context_covers (h : Handler) (tenantId : TenantId)
    {t : List (Exchange Q Stmt.Answer)} {z : Except Failure Unit} {s' : Txn Table TenantId}
    (hrun : Runs (connection Governed).steps {} (h.request tenantId) t z s') :
    Lawful Governed tenantId t z ↔
      if h = .createFirmwareAction ∨ h = .upsertOverride then s'.accepted = false
      else h = .revokeLogForwarding ∨ s'.refused = false := by
  rw [lawful_iff (follows_request h tenantId) hrun]
  cases h <;> simp [Handler.ending, Ending.Fails]

/-- What a run of the answering session comes to: whether the request answers, whether
it committed and whether a job was refused after that. -/
def outcome (h : Handler) (tenantId : TenantId) : Option (Bool × Bool × Bool) :=
  ((h.request tenantId).exec (serve Governed) {}).map fun r =>
    (r.2.1.isOk, r.2.2.accepted, r.2.2.refused)

theorem run_of_outcome {h : Handler} {tenantId : TenantId} {answers commits refuses : Bool}
    (hout : outcome h tenantId = some (answers, commits, refuses)) :
    ∃ t z s', Runs (connection Governed).steps {} (h.request tenantId) t z s' ∧
      z.isOk = answers ∧ s'.accepted = commits ∧ s'.refused = refuses := by
  obtain ⟨⟨t, z, s'⟩, hexec, hflags⟩ := Option.map_eq_some_iff.mp hout
  cases hflags
  exact ⟨t, z, s', runs_serve Governed hexec, rfl, rfl, rfl⟩

/-- A device that is updated: its row is read back before the commit. -/
theorem tenant_context_covers_updateDevice :
    ∃ t z s', Runs (connection Governed).steps {} (Handler.updateDevice.request 7) t z s' ∧
      s'.accepted = true ∧ Lawful Governed 7 t z := by
  have hout : outcome .updateDevice 7 = some (true, true, false) := by decide +kernel
  obtain ⟨t, z, s', hrun, -, hacc, href⟩ := run_of_outcome hout
  have hcovers := tenant_context_covers .updateDevice 7 hrun
  exact ⟨t, z, s', hrun, hacc, hcovers.mpr (.inr href)⟩

/-- An accepted firmware action: its row is written and committed, and the request fails
on reading it back. -/
theorem firmware_action_unread :
    ¬ ∀ (h : Handler) (tenantId : TenantId) (t : List (Exchange Q Stmt.Answer))
      (z : Except Failure Unit) (s' : Txn Table TenantId),
      Runs (connection Governed).steps {} (h.request tenantId) t z s' →
        Lawful Governed tenantId t z := by
  intro hclaim
  have hout : outcome .createFirmwareAction 7 = some (false, true, false) := by decide +kernel
  obtain ⟨t, z, s', hrun, -, hacc, -⟩ := run_of_outcome hout
  have hlaw := hclaim _ _ t z s' hrun
  exact (lawful_iff (follows_request .createFirmwareAction 7) hrun).mp hlaw hacc

end TenantRequests

end Opngms
