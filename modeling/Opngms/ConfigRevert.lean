/-
Opngms/ConfigRevert.lean

Operator-triggered revert (`app/services/config_revert.py`): the inverse of a
change, built from the change and from the configuration saved before it was
applied.

A builder returns the operation, the target and the payload of the inverse, or
raises.  The target is a JSON value because every builder falls back to a
payload entry of any shape where the change has no target.
-/
import Opngms.ConfigPush

namespace Opngms

abbrev Inverse := String × Json × Dict

/-- `change.target or payload.get(key, "")`. -/
def targetOr (change : Change) (key : String) : Json :=
  if change.target = "" then Dict.getD change.payload key (.str "") else .str change.target

/-- `snapshot_to_xml`; `none` where decryption, decompression or decoding
raises. -/
def snapshotToXml (env : Env) (contentEnc : ByteArray) : Option String := do
  let packed ← env.decryptBytes contentEnc
  let raw ← env.gzipDecompress packed
  String.fromUTF8? raw

/-- `DET.fromstring`. -/
def parseConfig (env : Env) (xml : String) : Except Raised Elem :=
  match env.parseXml xml with
  | some root => .ok root
  | none => .error .xmlError

/-- The snapshot a builder needs, or its `NoInverseError`. -/
def needSnapshot (snapshotXml : Option String) (what : String) : Except Raised String :=
  match snapshotXml with
  | some xml =>
    if xml = "" then .error (.noInverse ("no pre-apply snapshot to reconstruct the " ++ what ++ " from"))
    else .ok xml
  | none => .error (.noInverse ("no pre-apply snapshot to reconstruct the " ++ what ++ " from"))

/-! ### Reading the snapshot -/

/-- `alias_from_config_xml`, on the parsed document. -/
def aliasFromConfig (root : Elem) (name : Json) : Option (List (String × String)) :=
  ((root.iter.filter fun el => el.tag == "alias").find? fun el =>
    match el.find ["name"] with
    | some n => decide (Json.str n.text = name)
    | none => false).map Elem.record

/-- `setting_from_config_xml`, on the parsed document: a missing element reads
as "". -/
def settingFromConfig (root : Elem) (xmlPath : List String) (keys : List String) :
    List (String × String) :=
  keys.foldl (fun out key =>
    putEntry out key
      (match root.find (xmlPath ++ splitDots key) with
      | some el => el.text
      | none => "")) []

/-- `record_from_config_xml`, on the parsed document. -/
def recordFromConfig (root : Elem) (path : List String) (fields : List (String × Json)) :
    Option (List (String × String)) :=
  ((root.iterfind path).find? fun el =>
    fields.all fun tv => decide (Json.str (el.findtext tv.1) = tv.2)).map Elem.record

/-! ### Record kinds -/

/-- `_invert_alias`. -/
def invertAlias (env : Env) (change : Change) (snapshotXml : Option String) :
    Except Raised Inverse := do
  let name := targetOr change "name"
  if change.operation = "add" then return ("delete", name, [("name", name)])
  else
    let xml ← needSnapshot snapshotXml "alias"
    let root ← parseConfig env xml
    match aliasFromConfig root name with
    | none =>
      .error (.noInverse ("alias " ++ name.repr ++ " not found in the pre-apply snapshot"))
    | some prev =>
      let payload := strDict prev
      -- `prev.setdefault("name", name)`
      let payload :=
        match Dict.get? payload "name" with
        | some _ => payload
        | none => Dict.set payload "name" name
      return (if change.operation = "delete" then "add" else "set", name, payload)

/-- What `_invert_firewall_rule` and `_invert_monit_test` share: the inverse of
an addition deletes by identity; otherwise the prior record is set again, or
deleted if there was none. -/
def invertRecord (env : Env) (what : String) (path : List String) (target : Json)
    (identity : Dict) (change : Change) (snapshotXml : Option String) :
    Except Raised Inverse := do
  if change.operation = "add" then return ("delete", target, identity)
  else
    let xml ← needSnapshot snapshotXml what
    let root ← parseConfig env xml
    match recordFromConfig root path identity with
    | none => return ("delete", target, identity)
    | some prior => return ("set", target, strDict prior)

/-- `_FW_RULE_PATH`. -/
def fwRulePath : List String := ["OPNsense", "Firewall", "Filter", "rules", "rule"]

/-- `_invert_firewall_rule`. -/
def invertFirewallRule (env : Env) (change : Change) (snapshotXml : Option String) :
    Except Raised Inverse :=
  let description := targetOr change "description"
  let interface := (Dict.getD change.payload "interface" (.str "")).pyStr
  invertRecord env "firewall rule" fwRulePath description
    [("description", description), ("interface", .str interface)] change snapshotXml

/-- `_MONIT_TEST_PATH`. -/
def monitTestPath : List String := ["OPNsense", "monit", "test"]

/-- `_invert_monit_test`. -/
def invertMonitTest (env : Env) (change : Change) (snapshotXml : Option String) :
    Except Raised Inverse :=
  let name := targetOr change "name"
  invertRecord env "monit test" monitTestPath name [("name", name)] change snapshotXml

/-- `_IDS_POLICY_PATH`. -/
def idsPolicyPath : List String := ["OPNsense", "IDS", "policies", "policy"]

/-- `_IDS_FILES_PATH`. -/
def idsFilesPath : List String := ["OPNsense", "IDS", "files", "file"]

/-- `_ids_files_map`: file uuid to filename, of the files that have both. -/
def idsFilesMap (root : Elem) : List (String × String) :=
  (root.iterfind idsFilesPath).foldl (fun out f =>
    match f.get "uuid" with
    | some u => if u ≠ "" ∧ f.findtext "filename" ≠ "" then putEntry out u (f.findtext "filename")
      else out
    | none => out) []

/-- `s.split(",")`. -/
def splitCommas (s : String) : List String := (s.toList.splitOn ',').map String.ofList

/-- The filenames of the rulesets a stored policy lists; an unknown file is a
`NoInverseError`. -/
def rulesetFilenames (files : List (String × String)) : List String → Except Raised (List String)
  | [] => .ok []
  | u :: us => do
    if u = "" then rulesetFilenames files us
    else
      match files.lookup u with
      | none =>
        .error (.noInverse ("ids policy ruleset file " ++ Json.reprStr u ++
          " is not in the snapshot files table"))
      | some name =>
        let rest ← rulesetFilenames files us
        return name :: rest

/-- `tok.partition(".")`: the text before and after the first dot. -/
def partitionDot (tok : String) : Option (String × String) :=
  let cs := tok.toList
  if '.' ∈ cs then
    some (String.ofList (cs.takeWhile (· != '.')), String.ofList ((cs.dropWhile (· != '.')).drop 1))
  else none

/-- `content.setdefault(key, []).append(value)`. -/
def appendContent : List (String × List String) → String → String → List (String × List String)
  | [], k, v => [(k, [v])]
  | (k', vs) :: d, k, v => if k' = k then (k, vs ++ [v]) :: d else (k', vs) :: appendContent d k v

/-- The `content` map rebuilt from its stored tokens. -/
def contentFromTokens (toks : List String) : List (String × List String) :=
  toks.foldl (fun d tok =>
    match partitionDot tok with
    | some (k, v) => appendContent d k v
    | none => d) []

/-- A field of a record read from the snapshot. -/
def recordField (r : List (String × String)) (k default : String) : String :=
  (r.lookup k).getD default

/-- The portable body `_invert_ids_policy` rebuilds from a stored policy. -/
def policyBody (description : Json) (prior : List (String × String)) (rulesets : List String) :
    Dict :=
  let content := contentFromTokens (splitCommas (recordField prior "content" ""))
  [("description", description),
    ("enabled", .str (recordField prior "enabled" "1")),
    ("prio", .str (recordField prior "prio" "0")),
    ("new_action", .str (recordField prior "new_action" "alert")),
    ("action", .arr (((splitCommas (recordField prior "action" "")).filter (· ≠ "")).map Json.str)),
    ("rulesets", .arr (rulesets.map Json.str)),
    ("content", .obj (content.map fun kv => (kv.1, .arr (kv.2.map Json.str))))]

/-- `_invert_ids_policy`. -/
def invertIdsPolicy (env : Env) (change : Change) (snapshotXml : Option String) :
    Except Raised Inverse := do
  let description := targetOr change "description"
  if change.operation = "add" then
    return ("delete", description, [("description", description)])
  else
    let xml ← needSnapshot snapshotXml "ids policy"
    let root ← parseConfig env xml
    match recordFromConfig root idsPolicyPath [("description", description)] with
    | none => return ("delete", description, [("description", description)])
    | some prior =>
      let rulesets ← rulesetFilenames (idsFilesMap root)
        (splitCommas (recordField prior "rulesets" ""))
      return ("set", description, policyBody description prior rulesets)

/-! ### Settings -/

/-- `_invert_opnsense_setting`. -/
def invertOpnsenseSetting (env : Env) (change : Change) (snapshotXml : Option String) :
    Except Raised Inverse := do
  let endpointKey := targetOr change "endpoint_key"
  match ← (settingEndpoint endpointKey).mapError Raised.builtin with
  | none => .error (.noInverse ("unknown setting endpoint " ++ endpointKey.repr))
  | some ep =>
    let xml ← needSnapshot snapshotXml "setting"
    let changed := Dict.getD change.payload "payload" (.obj [])
    if !changed.truthy then .error (.noInverse "setting change has no fields to invert")
    else
      let flat ← changed.items.mapError Raised.builtin
      let root ← parseConfig env xml
      let prev := settingFromConfig root ep.xmlPath (Dict.keys flat)
      return ("set", endpointKey,
        [("endpoint_key", endpointKey), ("payload", .obj (strDict prev))])

/-- `_grid_row_by_uuid`, on the parsed document. -/
def gridRowByUuid (root : Elem) (xmlPath : List String) (uuid : Json) :
    Option (List (String × String)) := do
  let subtree ← root.find xmlPath
  let el ← subtree.iter.find? fun el =>
    match el.get "uuid" with
    | some u => decide (Json.str u = uuid)
    | none => decide (Json.null = uuid)
  return el.record

/-- The uuid of a row that a forward `add` created, read from the stored
result: nothing if the operation was a dry run, is missing or has no uuid. -/
def addedUuid (res : Json) : Except BuiltinError Json :=
  if !res.truthy then .ok .null
  else do
    let dry ← res.attrGet "dry_run" .null
    if dry.truthy then return .null
    else
      let r ← res.attrGet "result" .null
      (r.orElse (.obj [])).attrGet "uuid" .null

/-- The inverse of one forward grid operation, as a list of none or one. -/
def invertGridOp (root : Option Elem) (xmlPath : List String) (fwd res : Json) :
    Except Raised (List Json) := do
  let op ← (fwd.attrGet "op" .null).mapError Raised.builtin
  let endpoints ← (fwd.attrGet "endpoints" (.obj [])).mapError Raised.builtin
  let row ← (fwd.attrGet "row" (.str "")).mapError Raised.builtin
  let uuid ← (fwd.attrGet "uuid" .null).mapError Raised.builtin
  let inverse (op : String) (uuid item : Json) : Json :=
    .obj [("op", .str op), ("endpoints", endpoints), ("row", row), ("uuid", uuid), ("item", item)]
  if op = .str "del" then
    match root.bind fun r => gridRowByUuid r xmlPath uuid with
    | none =>
      .error (.noInverse ("deleted grid row " ++ uuid.repr ++ " not found in the pre-apply snapshot"))
    | some prior => return [inverse "add" .null (.obj (strDict prior))]
  else if op = .str "set" then
    match root.bind fun r => gridRowByUuid r xmlPath uuid with
    | none =>
      .error (.noInverse ("modified grid row " ++ uuid.repr ++ " not found in the pre-apply snapshot"))
    | some prior => return [inverse "set" uuid (.obj (strDict prior))]
  else if op = .str "add" then
    let new ← (addedUuid res).mapError Raised.builtin
    if new.truthy then return [inverse "del" new .null] else return []
  else return []

/-- The loop over the forward grid operations; results are taken by index. -/
def invertGridOps (root : Option Elem) (xmlPath : List String) :
    List Json → List Json → Except Raised (List Json)
  | [], _ => .ok []
  | fwd :: fwds, results => do
    let g ← invertGridOp root xmlPath fwd (results.headD .null)
    let gs ← invertGridOps root xmlPath fwds results.tail
    return g ++ gs

/-- Whether a forward operation needs the snapshot to be inverted. -/
def needsPrior (fwd : Json) : Except BuiltinError Bool := do
  let op ← fwd.attrGet "op" .null
  return op = .str "del" ∨ op = .str "set"

/-- `any(g.get("op") in ("del", "set") for g in fwd_grids)`. -/
def anyNeedsPrior : List Json → Except BuiltinError Bool
  | [] => .ok false
  | g :: gs => do
    if ← needsPrior g then return true else anyNeedsPrior gs

/-- The parsed snapshot `_invert_catalog_setting` reads prior values from. -/
def priorConfig (env : Env) (xmlPath : Json) (snapshotXml : Option String) :
    Except Raised Elem := do
  let xml ← needSnapshot snapshotXml "catalog setting"
  if !xmlPath.truthy then
    .error (.noInverse "catalog change has no xml_path — cannot reconstruct prior state")
  else parseConfig env xml

/-- `_invert_catalog_setting`. -/
def invertCatalogSetting (env : Env) (change : Change) (snapshotXml : Option String) :
    Except Raised Inverse := do
  let payload := change.payload
  let modelId := targetOr change "model_id"
  let xmlPath := Dict.getD payload "xml_path" (.str "")
  let scalars := (Dict.getD payload "scalars" .null).orElse (.obj [])
  let fwdGrids ← ((Dict.getD payload "grids" .null).orElse (.arr [])).iterate.mapError Raised.builtin
  let result ← ((change.result.orElse (.obj [])).attrGet "grids" .null).mapError Raised.builtin
  let resultGrids ← (result.orElse (.arr [])).iterate.mapError Raised.builtin
  let needsPrior ←
    (if scalars.truthy then .ok true else (anyNeedsPrior fwdGrids).mapError Raised.builtin)
  let root ← (if needsPrior then (priorConfig env xmlPath snapshotXml).map some else .ok none)
  let path := splitPath xmlPath.pyStr
  let flat ← scalars.items.mapError Raised.builtin
  let prev := match root with
    | some r => settingFromConfig r path (Dict.keys flat)
    | none => []
  let grids ← invertGridOps root path fwdGrids resultGrids
  return ("set", modelId,
    [("model_id", modelId),
      ("set_path", Dict.getD payload "set_path" (.str "")),
      ("reconfigure_path", Dict.getD payload "reconfigure_path" (.str "")),
      ("model_root", Dict.getD payload "model_root" (.str "")),
      ("xml_path", xmlPath),
      ("scalars", .obj (strDict prev)),
      ("grids", .arr grids)])

/-! ### The registry and the flow -/

/-- `INVERSE_BUILDERS`. -/
def inverseBuilders (env : Env) :
    List (String × (Change → Option String → Except Raised Inverse)) :=
  [("alias", invertAlias env),
   ("opnsense_setting", invertOpnsenseSetting env),
   ("firewall_rule", invertFirewallRule env),
   ("monit_test", invertMonitTest env),
   ("ids_policy", invertIdsPolicy env),
   ("catalog_setting", invertCatalogSetting env)]

/-- `build_inverse`. -/
def buildInverse (env : Env) (change : Change) (snapshotXml : Option String) :
    Except Raised Inverse :=
  match (inverseBuilders env).lookup change.kind with
  | none => .error (.noInverse ("no inverse builder for kind " ++ Json.reprStr change.kind))
  | some fn => fn change snapshotXml

/-- `REVERTIBLE_STATES`. -/
def Status.revertible (s : Status) : Bool := s = .applied || s = .failed

/-- The pre-apply configuration of a change, as `revert_change` reads it. -/
def preApplyXml (env : Env) (change : Change) : Program (Option String) := do
  match change.preApplySnapshotId with
  | none => return none
  | some id =>
    match ← perform (.getSnapshot id) with
    | none => return none
    | some snap =>
      let snap : Snapshot := snap
      -- the repository reads within the tenant of the change
      if snap.tenantId ≠ change.tenantId then return none
      else
        match snapshotToXml env snap.contentEnc with
        | some xml => return some xml
        | none => throw (.revertError "pre-apply snapshot could not be decrypted")

/-- `revert_change`. -/
def revertChange (env : Env) (change : Change) : Program Change := do
  if !change.status.revertible then
    throw (.revertError ("cannot revert a change in status " ++ Json.reprStr change.status.text))
  else if ((inverseBuilders env).lookup change.kind).isNone then
    throw (.revertError ("revert not supported for kind " ++ Json.reprStr change.kind))
  else
    let snapshotXml ← preApplyXml env change
    let (operation, target, payload) ← Dialogue.ofExcept (buildInverse env change snapshotXml)
    let inverse ← createChange change.tenantId change.deviceId change.kind operation target payload
    let inverse := { inverse with revertsChangeId := some change.id }
    perform (.flushChange inverse)
    return inverse

end Opngms
