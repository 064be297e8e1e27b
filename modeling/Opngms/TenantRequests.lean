/-
Opngms/TenantRequests.lean

The requests of a tenant: `require_tenant` (`app/core/deps.py`) and the handlers
under `app/api` that depend on it.

Kept of a handler are its statements with their tables, in order, its commits and
jobs, and the places where it can stop.  What the data decides (a check of the body,
an answer of a box, of OpenSearch or of the release server) is `choose`, so a
statement about every run is one about every such decision.

`app.current_tenant` is set once, by `tenantContext`, for the running transaction.
-/
import Opngms.RowSecurity

namespace Opngms

namespace TenantRequests

open RowSecurity

/-- The tables the requests use. -/
inductive Table where
  | alerts
  | appSettings
  | auditLog
  | catalogCache
  | configChanges
  | configProfileMembers
  | configProfiles
  | configSnapshots
  | configTemplates
  | deviceLogForwarding
  | devices
  | events
  | firmwareActions
  | generatedReports
  | geoipCache
  | groupGrants
  | groupMembers
  | memberships
  | metrics
  | perimeterAttacker
  | reportSchedule
  | reportSettings
  | revokedSyslogCerts
  | sessions
  | syslogCa
  | syslogCaKey
  | templateOverrides
  | tenantRetention
  | tenants
  | users
  deriving DecidableEq, Repr

/-- `TENANT_TABLES`. -/
def tenantTables : List Table :=
  [.devices, .metrics, .alerts, .events, .configSnapshots, .configChanges, .reportSettings,
    .generatedReports, .firmwareActions, .templateOverrides, .reportSchedule,
    .deviceLogForwarding, .revokedSyslogCerts, .perimeterAttacker, .tenantRetention]

/-- The tables under the `tenant_isolation` policy. -/
def Governed (t : Table) : Prop := t ∈ tenantTables

instance : DecidablePred Governed := fun t => inferInstanceAs (Decidable (t ∈ tenantTables))

abbrev TenantId := Nat

/-- How a request fails: an `HTTPException`, a statement the database refuses, a row
that `refresh` does not find, a queue that does not take the job. -/
inductive Failure where
  | http (status : Nat)
  | database
  | invalidRequest
  | queue
  deriving DecidableEq, Repr

abbrev Q := Stmt Table TenantId

abbrev Req (α : Type) := Dialogue Q Stmt.Answer Failure α

/-! ### Statements -/

def select (tables : List Table) : Req Nat := Dialogue.question (Stmt.select tables : Q)

def write (table : Table) (owner : Option TenantId) : Req Unit := do
  let ok : Bool ← Dialogue.question (Stmt.write table owner : Q)
  if ok then pure () else throw Failure.database

def refresh (table : Table) (owner : Option TenantId) : Req Unit := do
  let found : Bool ← Dialogue.question (Stmt.refresh table owner : Q)
  if found then pure () else throw Failure.invalidRequest

/-- `set_tenant_context`. -/
def setTenantContext (tenantId : TenantId) : Req Unit :=
  Dialogue.question (Stmt.setTenant tenantId : Q)

def commit : Req Unit := Dialogue.question (Stmt.commit : Q)

def choose : Req Bool := Dialogue.question (Stmt.choose : Q)

def enqueue : Req Unit := do
  let taken : Bool ← Dialogue.question (Stmt.enqueue : Q)
  if taken then pure () else throw Failure.queue

/-- Stop with the status unless the data is in order. -/
def require (status : Nat) : Req Unit := do
  if ← choose then pure () else throw (Failure.http status)

/-- Stop with the status unless a row is found. -/
def found (tables : List Table) (status : Nat) : Req Unit := do
  let n ← select tables
  if n = 0 then throw (Failure.http status) else pure ()

def whenever (p : Req Unit) : Req Unit := do
  if ← choose then p else pure ()

def times : Nat → Req Unit → Req Unit
  | 0, _ => pure ()
  | n + 1, p => do
    p
    times n p

/-! ### Dependencies -/

/-- `get_current_session`, with the commit of `get_session_for_token`. -/
def getCurrentSession : Req Unit := do
  require 401
  let _ ← select [.appSettings]
  found [.sessions] 401
  require 401
  -- the touch of the session, before a tenant is set
  whenever do
    write .sessions none
    commit

def enforceCsrf : Req Unit := require 403

def getCurrentUser : Req Unit := do
  require 403
  found [.users] 401

/-- `resolve_effective_role`. -/
def resolveEffectiveRole : Req Unit := do
  let _ ← select [.memberships]
  let _ ← select [.groupGrants, .groupMembers]

def tenantContext (tenantId : TenantId) : Req Unit := do
  found [.tenants] 404
  -- a superadmin needs no role
  whenever do
    resolveEffectiveRole
    require 403
  setTenantContext tenantId

/-- `require_tenant`. -/
def requireTenant (tenantId : TenantId) : Req Unit := do
  tenantContext tenantId
  require 403

/-- A route that reads. -/
def reading (tenantId : TenantId) (handler : Req Unit) : Req Unit := do
  getCurrentSession
  getCurrentUser
  requireTenant tenantId
  handler

/-- A route with `enforce_csrf`. -/
def protect (tenantId : TenantId) (handler : Req Unit) : Req Unit := do
  getCurrentSession
  enforceCsrf
  getCurrentUser
  requireTenant tenantId
  handler

/-! ### Services -/

section Services

variable (tenantId : TenantId)

/-- `AuditService.record`. -/
def record : Req Unit := write .auditLog (some tenantId)

/-- `_device_or_404`, `_device`, `_load_device`. -/
def deviceOr404 : Req Unit := do
  found [.devices] 404
  require 404

def getRuntimeConfig : Req Unit := do
  let _ ← select [.appSettings]

/-- `_cache_get`. -/
def cacheGet : Req Bool := do
  let n ← select [.catalogCache]
  pure (n != 0)

/-- `get_catalog` and `get_plugins_catalog`: the release is asked, unless switched off;
what it gives, or else what the cache has. -/
def getCatalog : Req Unit := do
  getRuntimeConfig
  let resolved ← choose
  if resolved then
    if ← cacheGet then pure ()
    else if ← choose then write .catalogCache none
    else if ← cacheGet then pure ()
    else whenever (do let _ ← cacheGet)
  else
    let _ ← cacheGet

/-- `_catalog_model`. -/
def catalogModel : Req Unit := do
  getCatalog
  whenever getCatalog

/-- `create_change`. -/
def createChange : Req Unit := do
  let _ ← select [.configSnapshots]
  write .configChanges (some tenantId)

/-- `revert_change`. -/
def revertChange : Req Unit := do
  require 409
  require 409
  whenever do
    let _ ← select [.configSnapshots]
    require 409
  require 409
  createChange tenantId
  write .configChanges (some tenantId)

/-- `_fetch_and_store`. -/
def fetchAndStore : Req Unit := whenever do
  let _ ← select [.geoipCache]
  write .geoipCache none

/-- `get_geoip`. -/
def getGeoip : Req Unit := do
  let n ← select [.geoipCache]
  if n = 0 then
    getRuntimeConfig
    whenever fetchAndStore
  else pure ()

/-- `limiting_store_for_sections`. -/
def limitingStoreForSections : Req Unit := whenever do
  getRuntimeConfig
  let _ ← select [.tenantRetention]

/-- `schedule_retention_warnings`. -/
def scheduleRetentionWarnings : Req Unit := do
  let n ← select [.reportSchedule]
  if n = 0 then pure ()
  else
    let _ ← select [.reportSettings]
    getRuntimeConfig
    let _ ← select [.tenantRetention]

/-- `device_friendly_labels`. -/
def deviceFriendlyLabels : Req Unit := do
  let _ ← select [.configSnapshots]

/-- `ReportAggregator.kpis`. -/
def kpis : Req Unit := do
  let _ ← select [.devices]
  let _ ← select [.events]
  let _ ← select [.metrics]
  let _ ← select [.alerts]
  let _ ← select [.metrics]

/-- `reliability_rollup` and `config_audit_rollup`. -/
def eventRollup : Req Unit := do
  let _ ← select [.events]
  let _ ← select [.events, .devices]

/-- The sections of one device in `build_context`. -/
def deviceSections : Req Unit := do
  whenever do
    let _ ← select [.metrics]
    let _ ← select [.metrics]
  whenever do
    let _ ← select [.alerts]
    let _ ← select [.metrics]
    let _ ← select [.metrics]
    deviceFriendlyLabels
  whenever (times 4 do let _ ← select [.events])
  whenever (times 4 do let _ ← select [.events])
  whenever do
    let _ ← select [.metrics]
    let _ ← select [.metrics]
  whenever do
    let _ ← select [.metrics]
  whenever do
    let _ ← select [.configChanges]
    let _ ← select [.configChanges]

/-- `build_context`. -/
def buildContext : Req Unit := do
  let devices ← select [.devices]
  whenever kpis
  whenever do
    getGeoip
    whenever do
      let _ ← select [.events]
  whenever do
    getGeoip
    whenever do
      let _ ← select [.perimeterAttacker]
    whenever do
      let _ ← select [.perimeterAttacker]
  whenever eventRollup
  whenever eventRollup
  times devices deviceSections

/-- `ReportService.build_report`. -/
def buildReport : Req Unit := do
  require 400
  let _ ← select [.reportSettings]
  buildContext

/-- `ReportSettingsRepository.upsert` and `set_logo`. -/
def upsertSettings : Req Unit := do
  let _ ← select [.reportSettings]
  whenever (write .reportSettings (some tenantId))

/-- `_effective`. -/
def effective : Req Unit := do
  let _ ← select [.templateOverrides]

/-- `_ordered_members`. -/
def orderedMembers : Req Nat := select [.configTemplates, .configProfileMembers]

/-- `materialize_change`. -/
def materializeChange (status : Nat) : Req Unit := do
  require status
  createChange tenantId
  write .configChanges (some tenantId)

/-- `materialize_profile`. -/
def materializeProfile : Req Unit := do
  let templates ← orderedMembers
  if templates = 0 then throw (Failure.http 400) else pure ()
  times templates do
    effective
    require 400
  times templates (materializeChange tenantId 400)
  write .configChanges (some tenantId)

/-- `require_ca` and `device_cert`. -/
def deviceCert : Req Unit := do
  found [.syslogCa] 503
  let _ ← select [.syslogCaKey]

/-- `provision_device`. -/
def provisionDevice : Req Unit := do
  deviceCert
  let _ ← select [.deviceLogForwarding]
  whenever (require 502)
  require 502
  require 502
  write .deviceLogForwarding (some tenantId)

/-- `deprovision_device`. -/
def deprovisionDevice : Req Unit := do
  let n ← select [.deviceLogForwarding]
  if n = 0 then pure ()
  else
    whenever (require 502)
    whenever (require 502)
    whenever (write .deviceLogForwarding (some tenantId))

/-- `rotate_device_cert`. -/
def rotateDeviceCert : Req Unit := do
  found [.deviceLogForwarding] 409
  require 409
  deviceCert
  require 502
  require 502
  whenever (require 502)
  whenever (require 502)
  write .deviceLogForwarding (some tenantId)

/-- `revoke_device`. -/
def revokeDevice : Req Unit := do
  found [.deviceLogForwarding] 409
  require 409
  whenever (require 502)
  whenever (require 502)
  write .revokedSyslogCerts (some tenantId)
  write .deviceLogForwarding (some tenantId)

end Services

/-! ### Handlers -/

section Handlers

variable (tenantId : TenantId)

def listing (tables : List Table) : Req Unit := do
  let _ ← select tables

def fetching (table : Table) : Req Unit := found [table] 404

/-- A handler that asks the box of a device and maps its error to 502. -/
def asking : Req Unit := do
  deviceOr404
  require 502

/-- What a handler does last: the audit row, then the commit. -/
def close : Req Unit := do
  record tenantId
  commit

-- app/api/devices.py

def listDevices : Req Unit := listing [.devices]

def getDevice : Req Unit := fetching .devices

def getDevicePlugins : Req Unit := fetching .devices

def createDevice : Req Unit := do
  write .devices (some tenantId)
  close tenantId
  -- the first poll and the first backup of a device that answers
  whenever do
    enqueue
    enqueue

def updateDevice : Req Unit := do
  found [.devices] 404
  whenever (write .devices (some tenantId))
  refresh .devices (some tenantId)
  close tenantId

def deleteDevice : Req Unit := do
  found [.devices] 404
  write .devices (some tenantId)
  close tenantId

def testDeviceConnection : Req Unit := do
  found [.devices] 404
  whenever (write .devices (some tenantId))
  close tenantId

def rotateSecret : Req Unit := do
  found [.devices] 404
  write .devices (some tenantId)
  refresh .devices (some tenantId)
  close tenantId

-- app/api/config.py

def listSnapshots : Req Unit := listing [.configSnapshots]

def configDrift : Req Unit := listing [.configSnapshots]

def configDriftCheck : Req Unit := do
  deviceOr404
  let _ ← select [.configChanges]

def configDiff : Req Unit := do
  let a ← select [.configSnapshots]
  let b ← select [.configSnapshots]
  if a = 0 ∨ b = 0 then throw (Failure.http 404) else pure ()
  require 404
  require 500

def configModel : Req Unit := do
  found [.configSnapshots] 404
  require 500

def metricLabels : Req Unit := deviceFriendlyLabels

def configMapEndpoint : Req Unit := do
  deviceOr404
  getCatalog
  whenever do
    found [.configSnapshots] 404
    require 500

def configCapabilities : Req Unit := do
  found [.configSnapshots] 404
  let _ ← select [.devices]
  require 500

def createConfigChange : Req Unit := do
  deviceOr404
  createChange tenantId
  close tenantId

def listConfigChanges : Req Unit := listing [.configChanges]

/-- Where a handler loads a change of the device. -/
def changeOr404 : Req Unit := do
  found [.configChanges] 404
  require 404

def previewConfigChange : Req Unit := changeOr404

def scheduleConfigChange : Req Unit := do
  changeOr404
  require 409
  whenever (write .configChanges (some tenantId))
  close tenantId
  enqueue

def revertConfigChange : Req Unit := do
  changeOr404
  revertChange tenantId
  write .configChanges (some tenantId)
  close tenantId
  enqueue

def cancelConfigChange : Req Unit := do
  changeOr404
  require 409
  write .configChanges (some tenantId)
  close tenantId

-- app/api/catalog.py

def createCatalogChange : Req Unit := do
  deviceOr404
  require 422
  catalogModel
  require 422
  require 422
  createChange tenantId
  close tenantId

def readDeviceCatalog : Req Unit := do
  deviceOr404
  getCatalog
  require 404

def readCatalogModel : Req Unit := do
  deviceOr404
  catalogModel
  require 404

def readPluginModels : Req Unit := do
  deviceOr404
  getCatalog

def readCatalogDiff : Req Unit := do
  deviceOr404
  getCatalog
  require 404
  whenever getCatalog

-- app/api/events.py, logs.py, memberships.py

def listEvents : Req Unit := do
  require 400
  let _ ← select [.events]

def topEvents : Req Unit := do
  require 400
  let _ ← select [.events]

def searchLogsEndpoint : Req Unit := do
  require 400
  require 400
  whenever deviceOr404
  require 502

def listMemberships : Req Unit := listing [.memberships]

def createMembership : Req Unit := do
  write .memberships (some tenantId)
  close tenantId

-- app/api/firewall_rules.py, ids.py, monit.py, settings.py, firmware.py

def firewallRuleModel : Req Unit := asking

def listIdsRulesets : Req Unit := asking

def monitTestModel : Req Unit := asking

def introspectSetting : Req Unit := do
  require 404
  asking

def firmwareCheck : Req Unit := asking

/-- The row is read back after the commit. -/
def createFirmwareAction : Req Unit := do
  deviceOr404
  require 400
  require 400
  write .firmwareActions (some tenantId)
  enqueue
  close tenantId
  refresh .firmwareActions (some tenantId)

def listFirmwareActions : Req Unit := do
  deviceOr404
  let _ ← select [.firmwareActions]

-- app/api/log_forwarding.py

def statusLogForwarding : Req Unit := do
  deviceOr404
  let _ ← select [.deviceLogForwarding]

def enableLogForwarding : Req Unit := do
  deviceOr404
  provisionDevice tenantId
  close tenantId

def disableLogForwarding : Req Unit := do
  deviceOr404
  deprovisionDevice tenantId
  record tenantId
  -- the response is read before the commit
  let _ ← select [.deviceLogForwarding]
  commit

def rotateLogForwarding : Req Unit := do
  deviceOr404
  rotateDeviceCert tenantId
  close tenantId

/-- A queue that does not take the job is logged. -/
def revokeLogForwarding : Req Unit := do
  deviceOr404
  revokeDevice tenantId
  close tenantId
  tryCatch enqueue fun _ => pure ()

-- app/api/monitoring.py, retention.py

def getDeviceMetrics : Req Unit := do
  require 400
  require 400
  let _ ← select [.metrics]
  let _ ← select [.metrics]

def listAlerts : Req Unit := listing [.alerts]

def fleetHealth : Req Unit := do
  let _ ← select [.devices]
  let _ ← select [.alerts]

def attackerCountries : Req Unit := do
  require 400
  require 400
  getGeoip
  whenever do
    let _ ← select [.events]

def perimeterAttackers : Req Unit := do
  require 422
  require 400
  require 400
  getGeoip
  let _ ← select [.perimeterAttacker]

def getRetention : Req Unit := do
  let _ ← select [.tenantRetention]
  scheduleRetentionWarnings
  getRuntimeConfig

def putRetention : Req Unit := do
  require 422
  let _ ← select [.tenantRetention]
  whenever (write .tenantRetention (some tenantId))
  record tenantId
  getRuntimeConfig
  scheduleRetentionWarnings
  commit

-- app/api/profiles.py, templates.py

def profileOr404 : Req Unit := found [.configProfiles] 404

def templateOr404 : Req Unit := found [.configTemplates] 404

def previewProfile : Req Unit := do
  deviceOr404
  profileOr404
  let templates ← orderedMembers
  if templates = 0 then throw (Failure.http 400) else pure ()
  times templates do
    effective
    require 422

def applyProfile : Req Unit := do
  deviceOr404
  profileOr404
  materializeProfile tenantId
  write .configChanges (some tenantId)
  close tenantId
  enqueue

/-- The row is read back after the commit. -/
def upsertOverride : Req Unit := do
  templateOr404
  let _ ← select [.templateOverrides]
  whenever (write .templateOverrides (some tenantId))
  close tenantId
  refresh .templateOverrides (some tenantId)

def previewTemplate : Req Unit := do
  deviceOr404
  templateOr404
  effective
  require 422

def applyTemplate : Req Unit := do
  deviceOr404
  templateOr404
  effective
  materializeChange tenantId 422
  write .configChanges (some tenantId)
  close tenantId
  enqueue

-- app/api/report_schedules.py

def listSchedules : Req Unit := listing [.reportSchedule]

def upsertSchedule : Req Unit := do
  require 400
  require 400
  require 400
  whenever deviceOr404
  whenever do
    let _ ← select [.reportSettings]
    limitingStoreForSections
    require 422
  require 400
  let _ ← select [.reportSchedule]
  whenever (write .reportSchedule (some tenantId))
  close tenantId

def deleteSchedule : Req Unit := do
  found [.reportSchedule] 404
  write .reportSchedule (some tenantId)
  close tenantId

def sendNow : Req Unit := do
  found [.reportSchedule] 404
  enqueue
  close tenantId

-- app/api/reports.py

def generateReport : Req Unit := do
  let _ ← select [.reportSettings]
  limitingStoreForSections
  require 400
  buildReport
  write .generatedReports (some tenantId)
  close tenantId

def listGeneratedReports : Req Unit := listing [.generatedReports]

def downloadGeneratedReport : Req Unit := fetching .generatedReports

def getReportLanguages : Req Unit := pure ()

def getReportSettings : Req Unit := listing [.reportSettings]

def updateReportSettings : Req Unit := do
  require 400
  whenever (require 400)
  upsertSettings tenantId
  close tenantId

def uploadReportLogo : Req Unit := do
  require 400
  require 400
  upsertSettings tenantId
  record tenantId
  let _ ← select [.reportSettings]
  commit

def deleteReportLogo : Req Unit := do
  let n ← select [.reportSettings]
  if n = 0 then pure () else whenever (write .reportSettings (some tenantId))
  record tenantId
  let _ ← select [.reportSettings]
  commit

def getReportLogo : Req Unit := do
  let _ ← select [.reportSettings]
  require 404

end Handlers

/-! ### Routes -/

/-- The handlers that depend on `require_tenant`. -/
inductive Handler where
  | listDevices | getDevice | getDevicePlugins | createDevice | updateDevice | deleteDevice
  | testDeviceConnection | rotateSecret
  | listSnapshots | configDrift | configDriftCheck | configDiff | configModel | metricLabels
  | configMapEndpoint | configCapabilities | createConfigChange | listConfigChanges
  | previewConfigChange | scheduleConfigChange | revertConfigChange | cancelConfigChange
  | createCatalogChange | readDeviceCatalog | readCatalogModel | readPluginModels
  | readCatalogDiff
  | listEvents | topEvents | searchLogsEndpoint | listMemberships | createMembership
  | firewallRuleModel | listIdsRulesets | monitTestModel | introspectSetting | firmwareCheck
  | createFirmwareAction | listFirmwareActions
  | statusLogForwarding | enableLogForwarding | disableLogForwarding | rotateLogForwarding
  | revokeLogForwarding
  | getDeviceMetrics | listAlerts | fleetHealth | attackerCountries | perimeterAttackers
  | getRetention | putRetention
  | previewProfile | applyProfile | upsertOverride | previewTemplate | applyTemplate
  | listSchedules | upsertSchedule | deleteSchedule | sendNow
  | generateReport | listGeneratedReports | downloadGeneratedReport | getReportLanguages
  | getReportSettings | updateReportSettings | uploadReportLogo | deleteReportLogo
  | getReportLogo
  deriving DecidableEq, Repr

/-- The request to a handler, with what `enforce_csrf` and `require_tenant` do first. -/
def Handler.request (tenantId : TenantId) : Handler → Req Unit
  | listDevices => reading tenantId TenantRequests.listDevices
  | getDevice => reading tenantId TenantRequests.getDevice
  | getDevicePlugins => reading tenantId TenantRequests.getDevicePlugins
  | createDevice => protect tenantId (TenantRequests.createDevice tenantId)
  | updateDevice => protect tenantId (TenantRequests.updateDevice tenantId)
  | deleteDevice => protect tenantId (TenantRequests.deleteDevice tenantId)
  | testDeviceConnection => protect tenantId (TenantRequests.testDeviceConnection tenantId)
  | rotateSecret => protect tenantId (TenantRequests.rotateSecret tenantId)
  | listSnapshots => reading tenantId TenantRequests.listSnapshots
  | configDrift => reading tenantId TenantRequests.configDrift
  | configDriftCheck => reading tenantId TenantRequests.configDriftCheck
  | configDiff => reading tenantId TenantRequests.configDiff
  | configModel => reading tenantId TenantRequests.configModel
  | metricLabels => reading tenantId TenantRequests.metricLabels
  | configMapEndpoint => reading tenantId TenantRequests.configMapEndpoint
  | configCapabilities => reading tenantId TenantRequests.configCapabilities
  | createConfigChange => protect tenantId (TenantRequests.createConfigChange tenantId)
  | listConfigChanges => reading tenantId TenantRequests.listConfigChanges
  | previewConfigChange => reading tenantId TenantRequests.previewConfigChange
  | scheduleConfigChange => protect tenantId (TenantRequests.scheduleConfigChange tenantId)
  | revertConfigChange => protect tenantId (TenantRequests.revertConfigChange tenantId)
  | cancelConfigChange => protect tenantId (TenantRequests.cancelConfigChange tenantId)
  | createCatalogChange => protect tenantId (TenantRequests.createCatalogChange tenantId)
  | readDeviceCatalog => reading tenantId TenantRequests.readDeviceCatalog
  | readCatalogModel => reading tenantId TenantRequests.readCatalogModel
  | readPluginModels => reading tenantId TenantRequests.readPluginModels
  | readCatalogDiff => reading tenantId TenantRequests.readCatalogDiff
  | listEvents => reading tenantId TenantRequests.listEvents
  | topEvents => reading tenantId TenantRequests.topEvents
  | searchLogsEndpoint => reading tenantId TenantRequests.searchLogsEndpoint
  | listMemberships => reading tenantId TenantRequests.listMemberships
  | createMembership => protect tenantId (TenantRequests.createMembership tenantId)
  | firewallRuleModel => reading tenantId TenantRequests.firewallRuleModel
  | listIdsRulesets => reading tenantId TenantRequests.listIdsRulesets
  | monitTestModel => reading tenantId TenantRequests.monitTestModel
  | introspectSetting => reading tenantId TenantRequests.introspectSetting
  | firmwareCheck => protect tenantId TenantRequests.firmwareCheck
  | createFirmwareAction => protect tenantId (TenantRequests.createFirmwareAction tenantId)
  | listFirmwareActions => reading tenantId TenantRequests.listFirmwareActions
  | statusLogForwarding => reading tenantId TenantRequests.statusLogForwarding
  | enableLogForwarding => protect tenantId (TenantRequests.enableLogForwarding tenantId)
  | disableLogForwarding => protect tenantId (TenantRequests.disableLogForwarding tenantId)
  | rotateLogForwarding => protect tenantId (TenantRequests.rotateLogForwarding tenantId)
  | revokeLogForwarding => protect tenantId (TenantRequests.revokeLogForwarding tenantId)
  | getDeviceMetrics => reading tenantId TenantRequests.getDeviceMetrics
  | listAlerts => reading tenantId TenantRequests.listAlerts
  | fleetHealth => reading tenantId TenantRequests.fleetHealth
  | attackerCountries => reading tenantId TenantRequests.attackerCountries
  | perimeterAttackers => reading tenantId TenantRequests.perimeterAttackers
  | getRetention => reading tenantId TenantRequests.getRetention
  | putRetention => protect tenantId (TenantRequests.putRetention tenantId)
  | previewProfile => protect tenantId TenantRequests.previewProfile
  | applyProfile => protect tenantId (TenantRequests.applyProfile tenantId)
  | upsertOverride => protect tenantId (TenantRequests.upsertOverride tenantId)
  | previewTemplate => protect tenantId TenantRequests.previewTemplate
  | applyTemplate => protect tenantId (TenantRequests.applyTemplate tenantId)
  | listSchedules => reading tenantId TenantRequests.listSchedules
  | upsertSchedule => protect tenantId (TenantRequests.upsertSchedule tenantId)
  | deleteSchedule => protect tenantId (TenantRequests.deleteSchedule tenantId)
  | sendNow => protect tenantId (TenantRequests.sendNow tenantId)
  | generateReport => protect tenantId (TenantRequests.generateReport tenantId)
  | listGeneratedReports => reading tenantId TenantRequests.listGeneratedReports
  | downloadGeneratedReport => reading tenantId TenantRequests.downloadGeneratedReport
  | getReportLanguages => reading tenantId TenantRequests.getReportLanguages
  | getReportSettings => reading tenantId TenantRequests.getReportSettings
  | updateReportSettings => protect tenantId (TenantRequests.updateReportSettings tenantId)
  | uploadReportLogo => protect tenantId (TenantRequests.uploadReportLogo tenantId)
  | deleteReportLogo => protect tenantId (TenantRequests.deleteReportLogo tenantId)
  | getReportLogo => reading tenantId TenantRequests.getReportLogo

end TenantRequests

end Opngms
