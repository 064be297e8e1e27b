/-
Opngms/Reports.lean

Reports and retention: the sections of a report
(`app/services/reporting/sections.py`), the stores they are checked against
(`app/services/report_retention.py`), the reads of `build_context`
(`app/services/reporting/context.py`), and the two endpoints that accept a
report.

The table `SECTION_STORES` is kept apart from the builder.  It has no entry for
`reliability` and `config_changes`, which read events, so a report of these two
and no other event section is checked against no store of theirs
(**`reads_covered_iff`**).

The check bounds the length of the range in whole days, the purge works by age:
no accepted range reaches back to purged data, whatever the retention, exactly if
the last of its days is not over (**`range_kept_iff`**).
-/
import Mathlib.Data.Finset.Basic
import Mathlib.Data.Fintype.Basic
import Mathlib.Data.List.MinMax
import Opngms.Retention

namespace Opngms

/-! ### Sections -/

/-- `SECTION_KEYS`. -/
inductive ReportSection where
  | summary
  | health
  | alertsWan
  | firmwareConfig
  | attacks
  | attackerCountries
  | failedLogins
  | firewallBlocks
  | reliability
  | configChanges
  | web
  | data
  | status
  | applications
  | webFilter
  deriving DecidableEq

def sectionKeys : List ReportSection :=
  [.summary, .health, .alertsWan, .firmwareConfig, .attacks, .attackerCountries, .failedLogins,
    .firewallBlocks, .reliability, .configChanges, .web, .data, .status, .applications, .webFilter]

theorem mem_sectionKeys (s : ReportSection) : s ∈ sectionKeys := by
  cases s <;> decide

def ReportSection.key : ReportSection → String
  | summary => "summary"
  | health => "health"
  | alertsWan => "alerts_wan"
  | firmwareConfig => "firmware_config"
  | attacks => "attacks"
  | attackerCountries => "attacker_countries"
  | failedLogins => "failed_logins"
  | firewallBlocks => "firewall_blocks"
  | reliability => "reliability"
  | configChanges => "config_changes"
  | web => "web"
  | data => "data"
  | status => "status"
  | applications => "applications"
  | webFilter => "web_filter"

/-- `BUILTIN_DEFAULTS`. -/
def builtinDefaults : ReportSection → Bool
  | .health | .applications | .webFilter => false
  | _ => true

/-- The sections that are enabled: the result of `resolve_sections`. -/
abbrev Sections := ReportSection → Bool

/-- `resolve_sections`: the schedule goes before the settings, and these before
the defaults. -/
def resolveSections (settingsSections scheduleSections : Option Dict) : Sections := fun s =>
  match Dict.get? (scheduleSections.getD []) s.key with
  | some v => v.truthy
  | none =>
    match Dict.get? (settingsSections.getD []) s.key with
    | some v => v.truthy
    | none => builtinDefaults s

def Sections.toDict (enabled : Sections) : Dict := sectionKeys.map fun s => (s.key, .bool (enabled s))

theorem get?_toDict (enabled : Sections) (s : ReportSection) :
    Dict.get? enabled.toDict s.key = some (.bool (enabled s)) := by
  cases s <;> rfl

theorem resolveSections_toDict (enabled : Sections) :
    resolveSections (some enabled.toDict) none = enabled := by
  funext s
  rw [resolveSections, Option.getD_none, Dict.get?_nil]
  dsimp only
  rw [Option.getD_some, get?_toDict]
  cases enabled s <;> rfl

/-! ### The stores of the sections -/

/-- `SECTION_STORES`: a section without an entry has no store. -/
def sectionStores : ReportSection → List RetentionStore
  | .failedLogins => [.perimeter]
  | .firewallBlocks => [.perimeter]
  | .attacks => [.events]
  | .attackerCountries => [.events]
  | .applications => [.events]
  | .webFilter => [.events]
  | .web => [.events]
  | .health => [.metrics]
  | .data => [.metrics]
  | .status => [.metrics]
  | .summary => [.events, .metrics]
  | .alertsWan => [.metrics]
  | .firmwareConfig => []
  | .reliability => []
  | .configChanges => []

/-- `stores_for_sections`. -/
def storesForSections (enabled : Sections) : Finset RetentionStore :=
  sectionKeys.foldl (fun used s => if enabled s then used ∪ (sectionStores s).toFinset else used) ∅

theorem mem_storesForSections {enabled : Sections} {store : RetentionStore} :
    store ∈ storesForSections enabled ↔ ∃ s, enabled s = true ∧ store ∈ sectionStores s := by
  have hfold : ∀ (keys : List ReportSection) (used : Finset RetentionStore),
      store ∈ keys.foldl
          (fun used s => if enabled s then used ∪ (sectionStores s).toFinset else used) used ↔
        store ∈ used ∨ ∃ s ∈ keys, enabled s = true ∧ store ∈ sectionStores s := by
    intro keys
    induction keys with
    | nil => simp
    | cons s keys ih =>
      intro used
      rw [List.foldl_cons, ih]
      cases hs : enabled s with
      | false => simp [hs]
      | true => simp [hs, or_assoc]
  rw [storesForSections, hfold]
  simp [mem_sectionKeys]

/-! ### The bound of a report -/

/-- What the retention of a tenant is resolved from: the runtime configuration
and the overrides of the tenant. -/
structure RetentionConfig where
  globalDefault : RetentionStore → Int
  overrides : Dict

/-- The effective retention of a store. -/
def RetentionConfig.effective (cfg : RetentionConfig) (store : RetentionStore) : Int :=
  effectiveRetentionDays store (cfg.globalDefault store) (some cfg.overrides)

/-- An order in which Python iterates over the stores of some sections. -/
structure StoreOrder where
  list : Sections → List RetentionStore
  mem : ∀ enabled store, store ∈ list enabled ↔ store ∈ storesForSections enabled

/-- The order of the days, as it is computed with. -/
local instance (priority := high) orderOfDays : Preorder Int := Int.instLinearOrder.toPreorder

/-- `limiting_store_for_sections`: the first store with the least days. -/
def limitingStore (order : StoreOrder) (cfg : RetentionConfig) (enabled : Sections) :
    Option (RetentionStore × Int) :=
  ((order.list enabled).argmin cfg.effective).map fun store => (store, cfg.effective store)

theorem limitingStore_some {order : StoreOrder} {cfg : RetentionConfig} {enabled : Sections}
    {store : RetentionStore} {days : Int} (h : limitingStore order cfg enabled = some (store, days)) :
    store ∈ storesForSections enabled ∧ days = cfg.effective store ∧
      ∀ st ∈ storesForSections enabled, days ≤ cfg.effective st := by
  obtain ⟨st, hmin, heq⟩ := Option.map_eq_some_iff.mp h
  obtain ⟨rfl, rfl⟩ := Prod.mk.inj heq
  refine ⟨(order.mem enabled st).mp (List.argmin_mem hmin), rfl, fun st' hst' => ?_⟩
  exact List.le_of_mem_argmin ((order.mem enabled st').mpr hst') hmin

theorem limitingStore_none {order : StoreOrder} {cfg : RetentionConfig} {enabled : Sections}
    (h : limitingStore order cfg enabled = none) : storesForSections enabled = ∅ := by
  rw [limitingStore, Option.map_eq_none_iff, List.argmin_eq_none] at h
  refine Finset.eq_empty_of_forall_notMem fun st hst => ?_
  have hmem := (order.mem enabled st).mpr hst
  rw [h] at hmem
  cases hmem

/-! ### What a report reads -/

/-- The tables that the queries of a report select from. -/
inductive ReportTable where
  | devices
  | events
  | metrics
  | perimeterAttacker
  | alerts
  | configChanges
  | configSnapshots
  deriving DecidableEq

/-- The store that a table is purged as. -/
def ReportTable.store : ReportTable → Option RetentionStore
  | events => some .events
  | metrics => some .metrics
  | perimeterAttacker => some .perimeter
  | _ => none

/-- The queries of `build_context`: the methods of `ReportAggregator`, and the
labels of a device. -/
inductive ReportQuery where
  | devices
  | kpis
  | attackerCountries
  | perimeterTop (kind : String)
  | reliabilityRollup
  | configAuditRollup
  | healthSummary (device : DeviceId)
  | alertsInRange (device : DeviceId)
  | gatewayQuality (device : DeviceId)
  | vpnStatus (device : DeviceId)
  | deviceFriendlyLabels (device : DeviceId)
  | timeline (source : String) (device : DeviceId)
  | top (field source : String) (device : DeviceId)
  | topBlockedDomains (device : DeviceId)
  | bandwidthTimeline (device : DeviceId)
  | bandwidthTotals (device : DeviceId)
  | availabilitySeries (device : DeviceId)
  | configChangesInRange (device : DeviceId)

/-- The tables a query selects from. -/
def ReportQuery.tables : ReportQuery → List ReportTable
  | devices => [.devices]
  | kpis => [.devices, .events, .metrics, .alerts]
  | attackerCountries => [.events]
  | perimeterTop _ => [.perimeterAttacker]
  | reliabilityRollup => [.events, .devices]
  | configAuditRollup => [.events, .devices]
  | healthSummary _ => [.metrics]
  | alertsInRange _ => [.alerts]
  | gatewayQuality _ => [.metrics]
  | vpnStatus _ => [.metrics]
  | deviceFriendlyLabels _ => [.configSnapshots]
  | timeline _ _ => [.events]
  | top _ _ _ => [.events]
  | topBlockedDomains _ => [.events]
  | bandwidthTimeline _ => [.metrics]
  | bandwidthTotals _ => [.metrics]
  | availabilitySeries _ => [.metrics]
  | configChangesInRange _ => [.configChanges]

def ReportQuery.stores (q : ReportQuery) : List RetentionStore := q.tables.filterMap ReportTable.store

/-- The queries of a section of the whole report; attacker countries need a
GeoIP database. -/
def reportQueries (geoip : Bool) : ReportSection → List ReportQuery
  | .summary => [.kpis]
  | .attackerCountries => if geoip then [.attackerCountries] else []
  | .failedLogins => [.perimeterTop "login_failed"]
  | .firewallBlocks => [.perimeterTop "firewall_block"]
  | .reliability => [.reliabilityRollup]
  | .configChanges => [.configAuditRollup]
  | _ => []

/-- The queries of a section of one device; applications and web filter show
sample data. -/
def deviceQueries (dev : DeviceId) : ReportSection → List ReportQuery
  | .health => [.healthSummary dev]
  | .alertsWan => [.alertsInRange dev, .gatewayQuality dev, .vpnStatus dev, .deviceFriendlyLabels dev]
  | .attacks =>
    [.timeline "ids" dev, .top "name" "ids" dev, .top "dst_ip" "ids" dev, .top "src_ip" "ids" dev]
  | .web =>
    [.timeline "dns" dev, .top "name" "dns" dev, .top "src_ip" "dns" dev, .topBlockedDomains dev]
  | .data => [.bandwidthTimeline dev, .bandwidthTotals dev]
  | .status => [.availabilitySeries dev]
  | .firmwareConfig => [.configChangesInRange dev]
  | _ => []

/-- The sections of the whole report. -/
def reportSections : List ReportSection :=
  [.summary, .attackerCountries, .failedLogins, .firewallBlocks, .reliability, .configChanges]

/-- The sections of each device that make queries. -/
def deviceSections : List ReportSection :=
  [.health, .alertsWan, .attacks, .web, .data, .status, .firmwareConfig]

/-- `build_context`, as the queries it makes. -/
def buildContext (sectionsEnabled : Dict) (devices : List DeviceId) (geoip : Bool) :
    List ReportQuery :=
  let enabled := resolveSections (some sectionsEnabled) none
  .devices :: (reportSections.filter enabled).flatMap (reportQueries geoip) ++
    devices.flatMap fun dev => (deviceSections.filter enabled).flatMap (deviceQueries dev)

/-- The store is read for the sections by some report: with some devices, and
with or without a GeoIP database. -/
def ReportReads (enabled : Sections) (store : RetentionStore) : Prop :=
  ∃ devices geoip, ∃ q ∈ buildContext enabled.toDict devices geoip, store ∈ q.stores

/-- The stores that the queries of a section read. -/
def readStores : ReportSection → List RetentionStore
  | .applications => []
  | .webFilter => []
  | .reliability => [.events]
  | .configChanges => [.events]
  | s => sectionStores s

theorem mem_buildContext {enabled : Sections} {devices : List DeviceId} {geoip : Bool}
    {q : ReportQuery} :
    q ∈ buildContext enabled.toDict devices geoip ↔
      q = .devices ∨ (∃ s, enabled s = true ∧ q ∈ reportQueries geoip s) ∨
        ∃ dev ∈ devices, ∃ s, enabled s = true ∧ q ∈ deviceQueries dev s := by
  have hreport : ∀ s, q ∈ reportQueries geoip s → s ∈ reportSections := by
    intro s hq
    cases s <;> first | decide | exact absurd hq List.not_mem_nil
  have hdevice : ∀ dev s, q ∈ deviceQueries dev s → s ∈ deviceSections := by
    intro dev s hq
    cases s <;> first | decide | exact absurd hq List.not_mem_nil
  simp only [buildContext, resolveSections_toDict, List.cons_append, List.mem_cons,
    List.mem_append, List.mem_flatMap, List.mem_filter]
  refine or_congr Iff.rfl (or_congr ?_ ?_)
  · exact ⟨fun ⟨s, ⟨_, hs⟩, hq⟩ => ⟨s, hs, hq⟩, fun ⟨s, hs, hq⟩ => ⟨s, ⟨hreport s hq, hs⟩, hq⟩⟩
  · refine exists_congr fun dev => and_congr_right fun _ => ?_
    exact ⟨fun ⟨s, ⟨_, hs⟩, hq⟩ => ⟨s, hs, hq⟩, fun ⟨s, hs, hq⟩ => ⟨s, ⟨hdevice dev s hq, hs⟩, hq⟩⟩

theorem reportQueries_stores {geoip : Bool} {s : ReportSection} {q : ReportQuery}
    {store : RetentionStore} (hq : q ∈ reportQueries geoip s) (h : store ∈ q.stores) :
    store ∈ readStores s := by
  cases s <;> cases geoip <;> simp [reportQueries] at hq <;> subst hq <;> exact h

theorem deviceQueries_stores {dev : DeviceId} {s : ReportSection} {q : ReportQuery}
    {store : RetentionStore} (hq : q ∈ deviceQueries dev s) (h : store ∈ q.stores) :
    store ∈ readStores s := by
  revert hq h
  cases s <;> simp only [deviceQueries, List.mem_cons, List.not_mem_nil, or_false, false_imp_iff] <;>
    rintro (rfl | rfl | rfl | rfl) h <;> first | exact h | exact absurd h List.not_mem_nil

theorem readStores_queried {s : ReportSection} {store : RetentionStore} (h : store ∈ readStores s)
    (dev : DeviceId) :
    ∃ q, (q ∈ reportQueries true s ∨ q ∈ deviceQueries dev s) ∧ store ∈ q.stores := by
  cases s with
  | summary => exact ⟨.kpis, .inl List.mem_cons_self, h⟩
  | attackerCountries => exact ⟨.attackerCountries, .inl List.mem_cons_self, h⟩
  | failedLogins => exact ⟨.perimeterTop "login_failed", .inl List.mem_cons_self, h⟩
  | firewallBlocks => exact ⟨.perimeterTop "firewall_block", .inl List.mem_cons_self, h⟩
  | reliability => exact ⟨.reliabilityRollup, .inl List.mem_cons_self, h⟩
  | configChanges => exact ⟨.configAuditRollup, .inl List.mem_cons_self, h⟩
  | health => exact ⟨.healthSummary dev, .inr List.mem_cons_self, h⟩
  | alertsWan =>
    exact ⟨.gatewayQuality dev, .inr (List.mem_cons_of_mem _ List.mem_cons_self), h⟩
  | attacks => exact ⟨.timeline "ids" dev, .inr List.mem_cons_self, h⟩
  | web => exact ⟨.timeline "dns" dev, .inr List.mem_cons_self, h⟩
  | data => exact ⟨.bandwidthTimeline dev, .inr List.mem_cons_self, h⟩
  | status => exact ⟨.availabilitySeries dev, .inr List.mem_cons_self, h⟩
  | firmwareConfig => cases h
  | applications => cases h
  | webFilter => cases h

/-- **A store is read exactly for the sections that query it.** -/
theorem reads_iff {enabled : Sections} {store : RetentionStore} :
    ReportReads enabled store ↔ ∃ s, enabled s = true ∧ store ∈ readStores s := by
  constructor
  · rintro ⟨devices, geoip, q, hq, hst⟩
    rcases mem_buildContext.mp hq with rfl | ⟨s, hs, hq⟩ | ⟨dev, -, s, hs, hq⟩
    · exact absurd hst List.not_mem_nil
    · exact ⟨s, hs, reportQueries_stores hq hst⟩
    · exact ⟨s, hs, deviceQueries_stores hq hst⟩
  · rintro ⟨s, hs, hst⟩
    obtain ⟨q, hq, hst⟩ := readStores_queried hst 0
    refine ⟨[0], true, q, mem_buildContext.mpr (.inr ?_), hst⟩
    exact hq.imp (fun hq => ⟨s, hs, hq⟩) fun hq => ⟨0, List.mem_singleton_self 0, s, hs, hq⟩

/-! ### Accepted reports -/

/-- The answer of an endpoint that refuses. -/
structure Refusal where
  status : Nat
  detail : String

/-- A moment as a request gives it: with or without a time zone, in
microseconds. -/
structure Stamp where
  micros : Int
  aware : Bool

/-- `ReportRequest`. -/
structure ReportRequest where
  from_ : Stamp
  to_ : Stamp

/-- `MAX_RANGE_DAYS`. -/
def maxRangeDays : Int := 92

/-- Why `generate_report` makes no report: it is refused, or dates with and
without a time zone are compared. -/
inductive GenerateError where
  | refused (r : Refusal)
  | typeError

/-- The length of the range; dates with and without a time zone have none. -/
def ReportRequest.length (req : ReportRequest) : Except GenerateError Int :=
  if req.from_.aware = req.to_.aware then .ok (req.to_.micros - req.from_.micros)
  else .error .typeError

/-- `_validate_range`, after `_ensure_utc`. -/
def validateRange (req : ReportRequest) : Except GenerateError Unit :=
  if req.to_.micros ≤ req.from_.micros then
    .error (.refused ⟨400, "`to` must be after `from`"⟩)
  else if maxRangeDays * dayLength < req.to_.micros - req.from_.micros then
    .error (.refused ⟨400, "report range must not exceed 92 days"⟩)
  else .ok ()

/-- The check of the range against the retention of the stores. -/
def checkRetention (order : StoreOrder) (cfg : RetentionConfig) (enabled : Sections)
    (req : ReportRequest) : Except GenerateError Unit :=
  match limitingStore order cfg enabled with
  | some (store, days) =>
    match req.length with
    | .ok length =>
      if days * dayLength < length then
        .error (.refused ⟨400, "report range exceeds " ++ store.key ++ " retention (" ++
          toString days ++ " days)"⟩)
      else .ok ()
    | .error e => .error e
  | none => .ok ()

/-- `generate_report` up to the report: the sections it is built from. -/
def generateReport (order : StoreOrder) (cfg : RetentionConfig) (settingsSections : Option Dict)
    (req : ReportRequest) : Except GenerateError Sections := do
  let enabled := resolveSections settingsSections none
  checkRetention order cfg enabled req
  validateRange req
  return resolveSections settingsSections none

/-- `FREQUENCIES`. -/
inductive Frequency where
  | weekly
  | monthly
  | onDemand
  deriving DecidableEq

def Frequency.text : Frequency → String
  | weekly => "weekly"
  | monthly => "monthly"
  | onDemand => "on_demand"

/-- The frequency a request names. -/
def Frequency.ofText (s : String) : Option Frequency :=
  [weekly, monthly, onDemand].find? fun f => f.text == s

/-- `SCHEDULE_RANGE_DAYS`. -/
def scheduleRangeDays : Frequency → Option Int
  | .weekly => some 7
  | .monthly => some 30
  | .onDemand => none

/-- What `upsert_schedule` checks of a `ReportScheduleIn`. -/
structure ReportScheduleIn where
  frequency : String
  weekday : Option Nat
  sections : Option Dict
  /-- The device is one of the tenant, if there is one. -/
  deviceKnown : Bool
  /-- `normalize_recipients`, with the message of its error. -/
  recipients : Except String (List String)

/-- `upsert_schedule` up to the row: the frequency, and the sections the bound is
taken from. -/
def upsertSchedule (order : StoreOrder) (cfg : RetentionConfig) (settingsSections : Option Dict)
    (body : ReportScheduleIn) : Except Refusal (Frequency × Sections) :=
  match Frequency.ofText body.frequency with
  | none => .error ⟨400, "invalid frequency"⟩
  | some frequency =>
    if frequency = .weekly ∧ body.weekday = none then
      .error ⟨400, "weekly schedule requires a weekday"⟩
    else if frequency ≠ .weekly ∧ body.weekday.isSome then
      .error ⟨400, "weekday only valid for weekly"⟩
    else if !body.deviceKnown then .error ⟨404, "Device not found"⟩
    else
      let enabled := resolveSections settingsSections body.sections
      let overlong : Option (RetentionStore × Int × Int) := do
        let rangeDays ← scheduleRangeDays frequency
        let (store, days) ← limitingStore order cfg enabled
        if days < rangeDays then some (store, days, rangeDays) else none
      match overlong with
      | some (store, days, rangeDays) =>
        .error ⟨422, body.frequency ++ " report needs " ++ toString rangeDays ++ " days but " ++
          store.key ++ " is retained " ++ toString days ++ " days"⟩
      | none =>
        match body.recipients with
        | .error message => .error ⟨400, message⟩
        | .ok _ => .ok (frequency, enabled)

/-! ### The checks cover the reads -/

/-- The days that a run of a schedule covers: `report_window`, with 30 days for a
month. -/
def windowDays : Frequency → Int
  | .weekly => 7
  | .monthly => 30
  | .onDemand => 7

/-- A report that an endpoint accepted. -/
inductive AcceptedReport where
  | generated (order : StoreOrder) (cfg : RetentionConfig) (settingsSections : Option Dict)
      (req : ReportRequest) (enabled : Sections)
      (accepted : generateReport order cfg settingsSections req = .ok enabled)
  | scheduled (order : StoreOrder) (cfg : RetentionConfig) (settingsSections : Option Dict)
      (body : ReportScheduleIn) (frequency : Frequency) (enabled : Sections)
      (accepted : upsertSchedule order cfg settingsSections body = .ok (frequency, enabled))

namespace AcceptedReport

def cfg : AcceptedReport → RetentionConfig
  | generated _ cfg _ _ _ _ => cfg
  | scheduled _ cfg _ _ _ _ _ => cfg

def enabled : AcceptedReport → Sections
  | generated _ _ _ _ enabled _ => enabled
  | scheduled _ _ _ _ _ enabled _ => enabled

def range : AcceptedReport → Int
  | generated _ _ _ req _ _ => req.to_.micros - req.from_.micros
  | scheduled _ _ _ _ frequency _ _ => windowDays frequency * dayLength

/-- A schedule on demand is accepted without a bound. -/
def Unbounded : AcceptedReport → Prop
  | generated .. => False
  | scheduled _ _ _ _ frequency _ _ => frequency = .onDemand

/-- Every store the report reads is one it was checked against, and keeps the
range. -/
def Covered (a : AcceptedReport) : Prop :=
  ∀ store, ReportReads a.enabled store →
    store ∈ storesForSections a.enabled ∧ a.range ≤ a.cfg.effective store * dayLength

end AcceptedReport

theorem bounded_of_limit {order : StoreOrder} {cfg : RetentionConfig} {enabled : Sections}
    {range : Int}
    (h : ∀ st days, limitingStore order cfg enabled = some (st, days) → range ≤ days * dayLength) :
    ∀ store ∈ storesForSections enabled, range ≤ cfg.effective store * dayLength := by
  intro store hstore
  cases hlimit : limitingStore order cfg enabled with
  | none =>
    rw [limitingStore_none hlimit] at hstore
    exact absurd hstore (Finset.notMem_empty _)
  | some limit =>
    obtain ⟨st, days⟩ := limit
    obtain ⟨-, -, hleast⟩ := limitingStore_some hlimit
    have hle := h st days hlimit
    have hdays := hleast store hstore
    unfold dayLength at *
    omega

theorem generateReport_ok {order : StoreOrder} {cfg : RetentionConfig} {settings : Option Dict}
    {req : ReportRequest} {enabled : Sections}
    (h : generateReport order cfg settings req = .ok enabled) :
    (req.from_.micros < req.to_.micros ∧
        req.to_.micros - req.from_.micros ≤ maxRangeDays * dayLength) ∧
      ∀ st days, limitingStore order cfg enabled = some (st, days) →
        req.from_.aware = req.to_.aware ∧ req.to_.micros - req.from_.micros ≤ days * dayLength := by
  obtain ⟨_, hcheck, h⟩ := except_bind_ok h
  obtain ⟨_, hvalid, h⟩ := except_bind_ok h
  obtain rfl := Except.ok.inj h
  refine ⟨?_, fun st days hlimit => ?_⟩
  · unfold validateRange at hvalid
    split_ifs at hvalid with hempty hlong
    exact ⟨not_le.mp hempty, not_lt.mp hlong⟩
  · unfold checkRetention at hcheck
    rw [hlimit] at hcheck
    dsimp only at hcheck
    rw [ReportRequest.length] at hcheck
    by_cases haware : req.from_.aware = req.to_.aware
    · rw [if_pos haware] at hcheck
      dsimp only at hcheck
      refine ⟨haware, ?_⟩
      by_contra hlong
      rw [if_pos (not_le.mp hlong)] at hcheck
      cases hcheck
    · rw [if_neg haware] at hcheck
      cases hcheck

theorem upsertSchedule_ok {order : StoreOrder} {cfg : RetentionConfig} {settings : Option Dict}
    {body : ReportScheduleIn} {frequency : Frequency} {enabled : Sections}
    (h : upsertSchedule order cfg settings body = .ok (frequency, enabled))
    (hbound : frequency ≠ .onDemand) :
    ∀ st days, limitingStore order cfg enabled = some (st, days) →
      windowDays frequency * dayLength ≤ days * dayLength := by
  intro st days hlimit
  unfold upsertSchedule at h
  split at h
  · cases h
  · rename_i f hf
    split at h
    · cases h
    · split at h
      · cases h
      · split at h
        · cases h
        · dsimp only at h
          split at h
          · cases h
          · rename_i hover
            split at h
            · cases h
            · obtain ⟨rfl, rfl⟩ := Prod.mk.inj (Except.ok.inj h)
              have hrange : scheduleRangeDays f = some (windowDays f) := by
                cases f with
                | weekly => rfl
                | monthly => rfl
                | onDemand => exact absurd rfl hbound
              rw [hrange, hlimit] at hover
              have hfits : ¬ days < windowDays f := by
                intro hlt
                have hsome := (if_pos hlt).symm.trans hover
                cases hsome
              unfold dayLength
              omega

namespace AcceptedReport

theorem bounded {a : AcceptedReport} (h : ¬ a.Unbounded) :
    ∀ store ∈ storesForSections a.enabled, a.range ≤ a.cfg.effective store * dayLength := by
  cases a with
  | generated order cfg settings req enabled accepted =>
    exact bounded_of_limit fun st days hlimit => ((generateReport_ok accepted).2 st days hlimit).2
  | scheduled order cfg settings body frequency enabled accepted =>
    exact bounded_of_limit (upsertSchedule_ok accepted h)

end AcceptedReport

/-- **The reads of an accepted report are covered by its check exactly if**
events are among the stores of its sections whenever the sections without an
entry are enabled, and a schedule on demand reads only stores that keep its
week. -/
theorem reads_covered_iff (a : AcceptedReport) :
    a.Covered ↔
      (a.enabled .reliability = true ∨ a.enabled .configChanges = true →
        RetentionStore.events ∈ storesForSections a.enabled) ∧
      (a.Unbounded → ∀ store, ReportReads a.enabled store → 7 ≤ a.cfg.effective store) := by
  have hread : ∀ s, a.enabled s = true → ∀ store ∈ readStores s, ReportReads a.enabled store :=
    fun s hs store hst => reads_iff.mpr ⟨s, hs, hst⟩
  have hweek : a.Unbounded → a.range = 7 * dayLength := by
    intro h
    cases a with
    | generated => exact h.elim
    | scheduled order cfg settings body frequency enabled accepted =>
      have hf : frequency = .onDemand := h
      rw [AcceptedReport.range, hf]
      rfl
  constructor
  · intro h
    refine ⟨?_, fun hu store hst => ?_⟩
    · rintro (hs | hs)
      · exact (h .events (hread .reliability hs .events List.mem_cons_self)).1
      · exact (h .events (hread .configChanges hs .events List.mem_cons_self)).1
    · have hle := (h store hst).2
      rw [hweek hu] at hle
      unfold dayLength at hle
      omega
  · rintro ⟨hevents, hkept⟩ store hst
    have hmem : store ∈ storesForSections a.enabled := by
      obtain ⟨s, hs, hst⟩ := reads_iff.mp hst
      -- only the sections without an entry read a store that the table does not give them
      cases s with
      | reliability =>
        obtain rfl := List.mem_singleton.mp hst
        exact hevents (.inl hs)
      | configChanges =>
        obtain rfl := List.mem_singleton.mp hst
        exact hevents (.inr hs)
      | applications => cases hst
      | webFilter => cases hst
      | _ => exact mem_storesForSections.mpr ⟨_, hs, hst⟩
    refine ⟨hmem, ?_⟩
    by_cases hu : a.Unbounded
    · have hdays := hkept hu store hst
      rw [hweek hu]
      unfold dayLength
      omega
    · exact AcceptedReport.bounded hu store hmem

/-- The stores in one fixed order. -/
def fixedOrder : StoreOrder where
  list enabled := [RetentionStore.perimeter, .events, .metrics, .logLake].filter fun st =>
    st ∈ storesForSections enabled
  mem enabled store := by
    rw [List.mem_filter]
    cases store <;> simp

def shortEvents : RetentionConfig := ⟨fun _ => 30, [("events", .int 2)]⟩

/-- Only `reliability` is enabled. -/
def reliabilityOnly : Dict := sectionKeys.map fun s => (s.key, .bool (s == .reliability))

/-- A week of `reliability` over two days of events. -/
def unboundedWeek : AcceptedReport :=
  .generated fixedOrder shortEvents (some reliabilityOnly) ⟨⟨0, true⟩, ⟨7 * dayLength, true⟩⟩
    (resolveSections (some reliabilityOnly) none) rfl

theorem unboundedWeek_not_covered : ¬ unboundedWeek.Covered := by
  intro h
  have hread : ReportReads unboundedWeek.enabled .events :=
    reads_iff.mpr ⟨.reliability, rfl, List.mem_cons_self⟩
  have hnot : RetentionStore.events ∉ storesForSections unboundedWeek.enabled := by
    decide +kernel
  exact hnot (h .events hread).1

/-! ### The age of the data -/

section Age

variable (order : StoreOrder) (cfg : RetentionConfig) (settings : Option Dict)
  (req : ReportRequest) (now : Int)

/-- The request is accepted only if nothing in its range is due for the purge. -/
def RangeKept : Prop :=
  ∀ enabled, generateReport order cfg settings req = .ok enabled →
    ∀ store ∈ storesForSections enabled,
      now - cfg.effective store * dayLength ≤ req.from_.micros

end Age

/-- The range is one that `generate_report` accepts where the retention is long enough. -/
def ReportRequest.Valid (req : ReportRequest) : Prop :=
  req.from_.aware = req.to_.aware ∧ req.from_.micros < req.to_.micros ∧
    req.to_.micros - req.from_.micros ≤ maxRangeDays * dayLength

/-- The days of the range, the last of them counted in full. -/
def ReportRequest.days (req : ReportRequest) : Int :=
  (req.to_.micros - req.from_.micros + dayLength - 1) / dayLength

theorem generateReport_of_days {order : StoreOrder} {settings : Option Dict} {req : ReportRequest}
    (h : req.Valid) : generateReport order ⟨fun _ => req.days, []⟩ settings req =
      .ok (resolveSections settings none) := by
  obtain ⟨haware, hlt, hle⟩ := h
  have hcheck : checkRetention order ⟨fun _ => req.days, []⟩ (resolveSections settings none) req =
      .ok () := by
    unfold checkRetention
    cases hlimit : limitingStore order ⟨fun _ => req.days, []⟩ (resolveSections settings none) with
    | none => rfl
    | some limit =>
      obtain ⟨st, days⟩ := limit
      obtain ⟨-, hdays, -⟩ := limitingStore_some hlimit
      have hfits : ¬ days * dayLength < req.to_.micros - req.from_.micros := by
        rw [hdays]
        show ¬ req.days * dayLength < _
        unfold ReportRequest.days dayLength
        omega
      dsimp only
      rw [ReportRequest.length, if_pos haware]
      dsimp only
      rw [if_neg hfits]
  have hvalid : validateRange req = .ok () := by
    rw [validateRange, if_neg (not_le.mpr hlt), if_neg (not_lt.mpr hle)]
  rw [generateReport, hcheck, hvalid]
  rfl

/-- **A range is only ever accepted with all of its data kept, exactly if** the last of its days
is not over: a shorter retention refuses it, and as many days as it has do not reach further
back. -/
theorem range_kept_iff (req : ReportRequest) (now : Int) :
    (∀ order cfg settings, RangeKept order cfg settings req now) ↔
      (req.Valid → now ≤ req.from_.micros + req.days * dayLength) := by
  constructor
  · intro h hvalid
    have hmem : RetentionStore.events ∈ storesForSections (resolveSections none none) := by
      decide +kernel
    have hkept := h fixedOrder ⟨fun _ => req.days, []⟩ none _ (generateReport_of_days hvalid)
      .events hmem
    have heff : RetentionConfig.effective ⟨fun _ => req.days, []⟩ .events = req.days := rfl
    rw [heff] at hkept
    omega
  · intro h order cfg settings enabled haccept store hstore
    obtain ⟨⟨hlt, hle⟩, hlimit⟩ := generateReport_ok haccept
    have hbound := bounded_of_limit (fun st days hl => (hlimit st days hl).2) store hstore
    -- a store that is read limits the range
    have haware : req.from_.aware = req.to_.aware := by
      cases hl : limitingStore order cfg enabled with
      | none =>
        rw [limitingStore_none hl] at hstore
        exact absurd hstore (Finset.notMem_empty _)
      | some limit => exact (hlimit limit.1 limit.2 hl).1
    have hnow := h ⟨haware, hlt, hle⟩
    unfold ReportRequest.days dayLength at hnow
    unfold dayLength at hbound ⊢
    omega

def oldWeek : ReportRequest := ⟨⟨0, true⟩, ⟨7 * dayLength, true⟩⟩

theorem oldWeek_not_kept :
    ¬ RangeKept fixedOrder ⟨fun _ => 30, []⟩ none oldWeek (372 * dayLength) := by
  intro h
  have haccept : generateReport fixedOrder ⟨fun _ => 30, []⟩ none oldWeek =
      .ok (resolveSections none none) := rfl
  have hmem : RetentionStore.events ∈ storesForSections (resolveSections none none) := by
    decide +kernel
  have hkept := h _ haccept .events hmem
  exact absurd hkept (by decide +kernel)

end Opngms
