/-
Opngms/ConfigDrift.lean

On-demand drift detection (`app/services/config_drift.py`): the live configuration of a
device against what was applied to it from templates.

Of the changes of a device only the applied ones that came from a template are looked at, and
of these only the first of each kind and target in the list, which comes newest first.  A
checker compares the fields of that one change with the live state; a kind without a checker
is `unsupported`.
-/
import Opngms.ConfigRevert
import Opngms.Templates

namespace Opngms

/-- A row of `config_changes` with the template it came from. -/
structure ConfigChange extends Change where
  sourceTemplateId : Option TemplateId

namespace ConfigDrift

/-- The drift statuses. -/
inductive DriftStatus where
  | inSync
  | drifted
  | missing
  | unsupported
  deriving DecidableEq

/-- `LiveState`; of two entries with one filename the first counts. -/
structure LiveState where
  configXml : String
  rulesetEnabled : List (Json × Bool)

structure DriftResult where
  changeId : ChangeId
  kind : String
  target : String
  status : DriftStatus
  driftedFields : List Json
  deriving DecidableEq

/-- `_norm`: a payload value as `config.xml` has it. -/
def norm : Json → String
  | .arr xs => "\n".intercalate (xs.map Json.pyStr)
  | .bool b => if b then "1" else "0"
  | v => v.pyStr

/-! ### The checkers -/

/-- `(DRIFTED if drifted else IN_SYNC), drifted`. -/
def verdict (drifted : List Json) : DriftStatus × List Json :=
  (if drifted.isEmpty then .inSync else .drifted, drifted)

/-- The keys, of those with `p`, whose applied value is not the live one. -/
def driftedKeys (p : String → Bool) (applied : Dict) (live : List (String × String)) : List Json :=
  (applied.filter fun kv => p kv.1 && decide (norm kv.2 ≠ (live.lookup kv.1).getD "")).map
    fun kv => .str kv.1

/-- `_check_opnsense_setting`. -/
def checkOpnsenseSetting (env : Env) (change : Change) (live : LiveState) :
    Except Raised (DriftStatus × List Json) := do
  match ← (settingEndpoint (targetOr change "endpoint_key")).mapError Raised.builtin with
  | none => return (.unsupported, [])
  | some ep =>
    let changed ← (Dict.getD change.payload "payload" (.obj [])).items.mapError Raised.builtin
    let root ← parseConfig env live.configXml
    let prev := settingFromConfig root ep.xmlPath (Dict.keys changed)
    return verdict (driftedKeys (fun _ => true) changed prev)

/-- `_check_alias`. -/
def checkAlias (env : Env) (change : Change) (live : LiveState) :
    Except Raised (DriftStatus × List Json) := do
  let root ← parseConfig env live.configXml
  let cur := aliasFromConfig root (targetOr change "name")
  -- after a deletion it is the reappearance of the alias that counts
  if change.operation = "delete" then return (if cur.isSome then .drifted else .inSync, [])
  else
    match cur with
    | none => return (.missing, [])
    | some cur => return verdict (driftedKeys (fun k => decide (k ≠ "name")) change.payload cur)

/-- `live.ruleset_enabled.get(f, False)`: a list or a `dict` cannot be looked up. -/
def rulesetLive (enabled : List (Json × Bool)) (f : Json) : Except BuiltinError Bool :=
  match f with
  | .arr _ | .obj _ => .error .typeError
  | f => .ok (((enabled.find? fun kv => kv.1.pyEq f).map (·.2)).getD false)

/-- `[f for f in rulesets if not live.ruleset_enabled.get(f, False)]`. -/
def driftedRulesets (enabled : List (Json × Bool)) : List Json → Except BuiltinError (List Json)
  | [] => .ok []
  | f :: fs => do
    let on ← rulesetLive enabled f
    let rest ← driftedRulesets enabled fs
    return if on then rest else f :: rest

/-- `_check_ids_rulesets`. -/
def checkIdsRulesets (change : Change) (live : LiveState) :
    Except Raised (DriftStatus × List Json) := do
  let rulesets ← (Dict.getD change.payload "rulesets" (.arr [])).iterate.mapError Raised.builtin
  let drifted ← (driftedRulesets live.rulesetEnabled rulesets).mapError Raised.builtin
  return verdict drifted

/-- `DRIFT_CHECKERS`. -/
def driftCheckers (env : Env) :
    List (String × (Change → LiveState → Except Raised (DriftStatus × List Json))) :=
  [("opnsense_setting", checkOpnsenseSetting env),
   ("alias", checkAlias env),
   ("ids_rulesets", checkIdsRulesets)]

/-! ### The changes that are looked at -/

/-- `_selectable`. -/
def selectable (c : ConfigChange) : Bool :=
  decide (c.status = .applied) && c.sourceTemplateId.isSome

/-- `(c.kind, c.target or "")`. -/
def driftKey (c : ConfigChange) : String × String := (c.kind, c.target)

local instance lawful_key : LawfulBEq (String × String) := inferInstance

/-- The loop of `_latest_per_target`. -/
def latestUnseen (seen : List (String × String)) : List ConfigChange → List ConfigChange
  | [] => []
  | c :: cs =>
    if !selectable c then latestUnseen seen cs
    -- the list is newest first, so an earlier one of the kind and target was created later
    else if driftKey c ∈ seen then latestUnseen seen cs
    else c :: latestUnseen (driftKey c :: seen) cs

/-- `_latest_per_target`. -/
def latestPerTarget (changes : List ConfigChange) : List ConfigChange := latestUnseen [] changes

/-- `needs_rulesets`. -/
def needsRulesets (changes : List ConfigChange) : Bool :=
  changes.any fun c => selectable c && c.kind == "ids_rulesets"

/-! ### The drift report -/

/-- The result of one change. -/
def driftResult (env : Env) (live : LiveState) (c : ConfigChange) : Except Raised DriftResult := do
  let (status, fields) ←
    (match (driftCheckers env).lookup c.kind with
    | none => .ok (.unsupported, [])
    | some checker => checker c.toChange live)
  return { changeId := c.id, kind := c.kind, target := c.target, status, driftedFields := fields }

/-- The loop of `compute_drift`. -/
def driftResults (env : Env) (live : LiveState) :
    List ConfigChange → Except Raised (List DriftResult)
  | [] => .ok []
  | c :: cs => do
    let r ← driftResult env live c
    let rs ← driftResults env live cs
    return r :: rs

/-- `compute_drift`. -/
def computeDrift (env : Env) (changes : List ConfigChange) (live : LiveState) :
    Except Raised (List DriftResult) :=
  driftResults env live (latestPerTarget changes)

/-- The loop of `gather_live_state` over the ruleset rows; the latest entry comes first. -/
def rulesetRows : List Json → List (Json × Bool) → Except BuiltinError (List (Json × Bool))
  | [], acc => .ok acc
  | row :: rows, acc => do
    let name ← row.attrGet "filename" .null
    if name.truthy then
      match name with
      | .arr _ | .obj _ => .error .typeError
      | name =>
        let enabled ← row.attrGet "enabled" (.str "")
        rulesetRows rows ((name, ["1", "true", "yes"].contains (Json.lower enabled.pyStr)) :: acc)
    else rulesetRows rows acc

/-- `gather_live_state`, from the two answers of the device: its configuration, and the list
of its rulesets. -/
def gatherLiveState (configXml : String) (rulesets : Json) (changes : List ConfigChange) :
    Except BuiltinError LiveState := do
  if needsRulesets changes then
    let rows ← rulesets.attrGet "rows" (.arr [])
    let rows ← rows.iterate
    let enabled ← rulesetRows rows []
    return { configXml, rulesetEnabled := enabled }
  else return { configXml, rulesetEnabled := [] }

end ConfigDrift

end Opngms
