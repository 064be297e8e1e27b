/-
Opngms/Apply.lean

The dispatch of a change to the applier of its kind
(`app/services/config_apply.py`), with the two kinds whose appliers are
written outside the connector: `opnsense_setting` (`setting_kind.py`) and
`catalog_setting` (`catalog_kind.py`).
-/
import Opngms.Client

namespace Opngms

/-! ### `opnsense_setting` -/

/-- An entry of `SETTING_ENDPOINTS`. -/
structure SettingEndpoint where
  key : String
  setPath : String
  reconfigurePath : String
  modelRoot : String
  excludeFields : List String
  xmlPath : List String

/-- `SETTING_ENDPOINTS`. -/
def settingEndpoints : List SettingEndpoint :=
  [{ key := "ids_general"
     setPath := "ids/settings/set"
     reconfigurePath := "ids/service/reconfigure"
     modelRoot := "ids"
     excludeFields := ["general.interfaces"]
     xmlPath := ["OPNsense", "IDS"] }]

/-- `SETTING_ENDPOINTS.get(key)`: a key that is not hashable raises. -/
def settingEndpoint (key : Json) : Except BuiltinError (Option SettingEndpoint) :=
  match key with
  | .str s => .ok (settingEndpoints.find? fun ep => ep.key == s)
  | .arr _ | .obj _ => .error .typeError
  | _ => .ok none

/-- `payload.get("endpoint_key")`: the setting a change is about. -/
def settingKey (payload : Dict) : Json := Dict.getD payload "endpoint_key" .null

/-- `_apply_opnsense_setting`. -/
def applyOpnsenseSetting (_operation : String) (payload : Dict) (dryRun : Bool) :
    Client Json := do
  let key := settingKey payload
  match ← builtin (settingEndpoint key) with
  | none => throw (.invalidTemplate ("unknown setting endpoint: " ++ key.repr))
  | some ep =>
    applySetting (.str ep.setPath) (.str ep.reconfigurePath) (.str ep.modelRoot)
      (Dict.getD payload "payload" (.obj [])) dryRun true

/-! ### `catalog_setting` -/

/-- `CATALOG_DENYLIST`. -/
def catalogDenylist : List String := ["interfaces"]

/-- The arguments `_apply_catalog_setting` takes from one grid operation. -/
structure GridOp where
  op : Json
  endpoints : Json
  row : Json
  uuid : Json
  item : Json

/-- `g["op"], g["endpoints"], g["row"], g.get("uuid"), g.get("item")`. -/
def gridArgs (g : Json) : Except BuiltinError GridOp := do
  let op ← g.subscript "op"
  let endpoints ← g.subscript "endpoints"
  let row ← g.subscript "row"
  let uuid ← g.attrGet "uuid" .null
  let item ← g.attrGet "item" .null
  return { op, endpoints, row, uuid, item }

/-- The loop over the grid operations. -/
def applyGrids (dryRun : Bool) : List Json → Client (List Json)
  | [] => return []
  | g :: gs => do
    let a ← builtin (gridArgs g)
    let r ← applyGridItem a.op a.endpoints a.row a.uuid a.item dryRun
    let rs ← applyGrids dryRun gs
    return r :: rs

/-- The scalar part of `_apply_catalog_setting`: one `apply_setting` without
its reload. -/
def applyScalars (payload : Dict) (scalars : Json) (dryRun : Bool) : Client Json := do
  let setPath ← builtin (Dict.item payload "set_path")
  let reconfigurePath ← builtin (Dict.item payload "reconfigure_path")
  let modelRoot ← builtin (Dict.item payload "model_root")
  applySetting setPath reconfigurePath modelRoot scalars dryRun false

/-- `_apply_catalog_setting`: the scalars, each grid operation, then one
reconfigure. -/
def applyCatalogSetting (_operation : String) (payload : Dict) (dryRun : Bool) :
    Client Json := do
  let scalars := (Dict.getD payload "scalars" .null).orElse (.obj [])
  let grids := (Dict.getD payload "grids" .null).orElse (.arr [])
  let scalarsResult ←
    (if scalars.truthy then applyScalars payload scalars dryRun else pure Json.null)
  let ops ← builtin grids.iterate
  let gridResults ← applyGrids dryRun ops
  let _ ← (if !dryRun && (scalars.truthy || grids.truthy) then
    do reconfigureModel (← builtin (Dict.item payload "reconfigure_path")) else pure .null)
  return .obj [("dry_run", .bool dryRun), ("scalars", scalarsResult), ("grids", .arr gridResults)]

/-! ### The registry -/

/-- `CHANGE_APPLIERS`, as every process registers them at startup. -/
def changeAppliers : List (String × (String → Dict → Bool → Client Json)) :=
  [("alias", applyAlias),
   ("opnsense_setting", applyOpnsenseSetting),
   ("firewall_rule", applyFirewallRule),
   ("monit_test", applyMonitTest),
   ("ids_rulesets", applyIdsRulesets),
   ("ids_policy", applyIdsPolicy),
   ("catalog_setting", applyCatalogSetting)]

/-- `apply_for_kind`. -/
def applyForKind (kind operation : String) (payload : Dict) (dryRun : Bool) : Client Json :=
  match changeAppliers.lookup kind with
  | none => .raise (.unknownChangeKind ("no applier for config change kind: " ++ kind))
  | some applier => applier operation payload dryRun

theorem applyForKind_cases (kind operation : String) (payload : Dict) (dryRun : Bool) :
    (∃ m, applyForKind kind operation payload dryRun = .raise (.unknownChangeKind m)) ∨
    ∃ applier, (kind, applier) ∈ changeAppliers ∧
      applyForKind kind operation payload dryRun = applier operation payload dryRun := by
  unfold applyForKind
  rcases h : changeAppliers.lookup kind with - | applier
  · exact .inl ⟨_, rfl⟩
  · obtain ⟨l₁, l₂, hl, -⟩ := List.lookup_eq_some_iff.mp h
    refine .inr ⟨applier, ?_, rfl⟩
    rw [hl]
    exact List.mem_append_right _ List.mem_cons_self

end Opngms
