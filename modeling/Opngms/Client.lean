/-
Opngms/Client.lean

The write path of the OPNsense connector
(`app/connectors/opnsense/client.py`): the seven appliers and what they are
built from.

Every applier takes the operation, the payload and `dry_run`, and returns the
JSON result that is stored with the change.  A payload is a decoded JSON
object of any shape, and so is every answer of the box, so each `.get`, `[..]`
and loop of the source is a raise site here as well.
-/
import Mathlib.Data.List.Sort
import Opngms.Request

namespace Opngms

/-! ### Checks -/

/-- One character of `[A-Za-z0-9]`. -/
def isAsciiAlnum (c : Char) : Bool :=
  ('A' ≤ c && c ≤ 'Z') || ('a' ≤ c && c ≤ 'z') || ('0' ≤ c && c ≤ '9')

/-- `\A[A-Za-z0-9._-]+\Z`: `_OPN_UUID_RE` and `_RULESET_NAME_RE`. -/
def safeName (s : String) : Bool :=
  s != "" && s.toList.all fun c => isAsciiAlnum c || c == '.' || c == '_' || c == '-'

/-- `\A[A-Za-z0-9_]+(?:/[A-Za-z0-9_]+)+\Z`: `_OPN_PATH_RE`. -/
def safePath (s : String) : Bool :=
  let segments := s.toList.splitOn '/'
  decide (2 ≤ segments.length) &&
    segments.all fun seg => !seg.isEmpty && seg.all fun c => isAsciiAlnum c || c == '_'

/-- A mutation answered like this was rejected by the box: `_raise_on_failed`. -/
def rejected : Json → Bool
  | .obj kvs =>
    decide (Dict.get? kvs "result" = some (.str "failed")) ||
      ((Dict.getD kvs "validations" .null).truthy &&
        !decide (Dict.get? kvs "result" = some (.str "saved")))
  | _ => false

/-- `_raise_on_failed`. -/
def raiseOnFailed (res : Json) (what : String) : Client Unit :=
  if rejected res then
    refuse (what ++ " rejected by OPNsense: " ++
      (match res with
      | .obj kvs => ((Dict.getD kvs "validations" .null).orElse res).pyStr
      | _ => res.pyStr))
  else .pure ()

/-- `_safe_endpoint`: a path that is not a string raises in the pattern match. -/
def safeEndpoint (path : Json) : Except Raised String :=
  if !path.truthy then .error (.opnsense (.apiError 0 ("unsafe catalog endpoint: " ++ path.repr)))
  else
    match path with
    | .str s =>
      if safePath s then .ok s
      else .error (.opnsense (.apiError 0 ("unsafe catalog endpoint: " ++ path.repr)))
    | _ => .error (.builtin .typeError)

/-- `_ruleset_name`. -/
def rulesetName (name : Json) : Except Raised String :=
  match name with
  | .str s =>
    if safeName s then .ok s
    else .error (.opnsense (.apiError 0 ("invalid ruleset filename: " ++ name.repr)))
  | _ => .error (.opnsense (.apiError 0 ("invalid ruleset filename: " ++ name.repr)))

/-! ### Searching rows -/

/-- `[r for r in rows if p(r)]` where `p` calls `r.get`: the first row that is
not a `dict` raises. -/
def filterRows (p : Dict → Bool) : List Json → Except BuiltinError (List Dict)
  | [] => .ok []
  | .obj kvs :: rs => do
    let ms ← filterRows p rs
    return if p kvs then kvs :: ms else ms
  | _ :: _ => .error .attributeError

theorem filterRows_map {α : Type} (p : Dict → Bool) (row : α → Dict) (xs : List α) :
    filterRows p (xs.map fun x => .obj (row x)) =
      .ok ((xs.filter fun x => p (row x)).map row) := by
  induction xs with
  | nil => rfl
  | cons x xs ih =>
    rw [List.map_cons, filterRows, ih, List.filter_cons]
    cases p (row x) <;> rfl

/-- The rows of a search answer that satisfy `p`: `data.get("rows", [])`,
filtered. -/
def matchingRows (p : Dict → Bool) (data : Json) : Except BuiltinError (List Dict) := do
  let rows ← data.attrGet "rows" (.arr [])
  let rs ← rows.iterate
  filterRows p rs

/-- What the three upserting kinds make of the rows that carry the identity:
absent, one uuid, or a refusal when there are several or the uuid is not fit
for a URL. -/
def uniqueUuid (what : String) (ambiguous : Nat → String) :
    List Dict → Client (Option String)
  | [] => .pure none
  | [r] =>
    let uuid := (Dict.getD r "uuid" (.str "")).pyStr
    if safeName uuid then .pure (some uuid) else refuse (what ++ " resolved to an unsafe uuid")
  | ms => refuse (ambiguous ms.length)

/-- The upserting kinds add where the identity is absent, and set the record
found otherwise. -/
def upsert (uuid : Option String) (add : Request) (set : String → Request) : Request :=
  match uuid with
  | none => add
  | some u => set u

/-! ### `apply_alias` -/

/-- `_normalize_alias_payload`: a list `content` becomes one line per entry. -/
def normalizeAliasPayload (payload : Dict) : Dict :=
  match Dict.get? payload "content" with
  | some (.arr xs) => Dict.set payload "content" (.str ("\n".intercalate (xs.map Json.pyStr)))
  | _ => payload

/-- `_resolve_alias_uuid`. -/
def resolveAliasUuid (name : Json) : Client String := do
  if !name.truthy then refuse "alias name required for set/delete"
  else
    let data ← post (.aliasSearch name)
    let ms ← builtin (matchingRows (fun r => (Dict.getD r "name" .null).pyEq name) data)
    match ms with
    | [r] =>
      let uuid ← builtin (Dict.item r "uuid")
      return uuid.pyStr
    | _ =>
      refuse ("alias '" ++ name.pyStr ++ "' not uniquely resolvable (" ++
        toString ms.length ++ " exact matches)")

/-- `payload.get("name", "")`: the alias a change is about. -/
def aliasName (payload : Dict) : Json := Dict.getD payload "name" (.str "")

/-- The request of `apply_alias` that changes the alias. -/
def aliasMutation (operation : String) (payload : Dict) : Client Json := do
  if operation = "add" then post (.aliasAdd (normalizeAliasPayload payload))
  else if operation = "set" ∨ operation = "delete" then
    let uuid ← resolveAliasUuid (aliasName payload)
    if operation = "set" then post (.aliasSet uuid (normalizeAliasPayload payload))
    else post (.aliasDel uuid)
  else refuse ("unknown alias operation: " ++ operation)

/-- `apply_alias`. -/
def applyAlias (operation : String) (payload : Dict) (dryRun : Bool) : Client Json := do
  if dryRun then
    return .obj [("dry_run", .bool true), ("operation", .str operation),
      ("target", aliasName payload)]
  else
    let res ← aliasMutation operation payload
    raiseOnFailed res "firewall alias"
    let _ ← post .aliasReconfigure
    return .obj [("dry_run", .bool false), ("result", res)]

/-! ### `apply_setting`, `apply_grid_item` and `reconfigure` -/

/-- One assignment of `_unflatten`: walk down the parts, creating objects, and
write the last. A part that meets a value other than an object raises. -/
def unflattenInto : (parts : List String) → (last : String) → Json → Dict →
    Except BuiltinError Dict
  | [], last, val, node => .ok (Dict.set node last val)
  | p :: parts, last, val, node =>
    match Dict.get? node p with
    | none => do
      let child ← unflattenInto parts last val []
      return Dict.set node p (.obj child)
    | some (.obj kvs) => do
      let child ← unflattenInto parts last val kvs
      return Dict.set node p (.obj child)
    | some _ =>
      -- `node = 1`: the next `setdefault` is an AttributeError, a direct write a TypeError
      .error (if parts.isEmpty then .typeError else .attributeError)

/-- `key.split(".")`. -/
def splitDots (key : String) : List String := (key.toList.splitOn '.').map String.ofList

/-- `_unflatten`. -/
def unflatten (flat : Dict) : Except BuiltinError Dict :=
  flat.foldlM (fun out kv =>
    let parts := splitDots kv.1
    unflattenInto parts.dropLast (parts.getLastD "") kv.2 out) []

/-- The request `apply_setting` makes, or the exception it raises before. -/
def settingRequest (setPath reconfigurePath modelRoot payload : Json) (reconfigure : Bool) :
    Except Raised Request := do
  let path ← safeEndpoint setPath
  if reconfigure then
    let _ ← safeEndpoint reconfigurePath
  let flat ← (payload.items).mapError Raised.builtin
  let nested ← (unflatten flat).mapError Raised.builtin
  let root ← (modelRoot.asKey).mapError Raised.builtin
  return .modelSet path root (.obj nested)

/-- `reconfigure`, and the reload at the end of `apply_setting`. -/
def reconfigureModel (reconfigurePath : Json) : Client Json := do
  let path ← Dialogue.ofExcept (safeEndpoint reconfigurePath)
  post (.modelReconfigure path)

/-- `apply_setting`. -/
def applySetting (setPath reconfigurePath modelRoot payload : Json) (dryRun reconfigure : Bool) :
    Client Json := do
  if dryRun then
    -- `sorted(payload.keys())`
    let flat ← builtin payload.items
    return .obj [("dry_run", .bool true), ("endpoint", setPath),
      ("fields", .arr (((Dict.keys flat).insertionSort (· ≤ ·)).map Json.str))]
  else
    let req ← Dialogue.ofExcept (settingRequest setPath reconfigurePath modelRoot payload reconfigure)
    let res ← post req
    raiseOnFailed res "setting"
    let _ ← (if reconfigure then reconfigureModel reconfigurePath else pure .null)
    return .obj [("dry_run", .bool false), ("result", res)]

/-- The request `apply_grid_item` makes, or the exception it raises before. -/
def gridRequest (op endpoints row uuid item : Json) : Except Raised Request := do
  if op = .str "add" then
    let ep ← (endpoints.subscript "add").mapError Raised.builtin
    let path ← safeEndpoint ep
    let key ← (row.asKey).mapError Raised.builtin
    return .gridAdd path key (item.orElse (.obj []))
  else if op = .str "set" ∨ op = .str "del" then
    if !uuid.truthy then .error (.opnsense (.apiError 0 ("unsafe grid uuid: " ++ uuid.repr)))
    else
      match uuid with
      | .str u =>
        if safeName u then
          if op = .str "set" then
            let ep ← (endpoints.subscript "set").mapError Raised.builtin
            let path ← safeEndpoint ep
            let key ← (row.asKey).mapError Raised.builtin
            return .gridSet path u key (item.orElse (.obj []))
          else
            let ep ← (endpoints.subscript "del").mapError Raised.builtin
            let path ← safeEndpoint ep
            return .gridDel path u
        else .error (.opnsense (.apiError 0 ("unsafe grid uuid: " ++ uuid.repr)))
      | _ => .error (.builtin .typeError)
  else .error (.opnsense (.apiError 0 ("unknown grid op: " ++ op.repr)))

/-- `apply_grid_item`. -/
def applyGridItem (op endpoints row uuid item : Json) (dryRun : Bool) : Client Json := do
  if dryRun then
    return .obj [("dry_run", .bool true), ("op", op), ("row", row), ("uuid", uuid)]
  else
    let req ← Dialogue.ofExcept (gridRequest op endpoints row uuid item)
    let res ← post req
    raiseOnFailed res ("grid " ++ op.pyStr)
    return .obj [("dry_run", .bool false), ("op", op), ("result", res)]

/-! ### `apply_firewall_rule` -/

/-- A searched rule carries the identity `(description, interface)`. -/
def ruleMatches (description interface : String) (r : Dict) : Bool :=
  decide (Dict.get? r "description" = some (.str description)) &&
    decide ((Dict.getD r "interface" (.str "")).pyStr = interface)

/-- `_resolve_rule_uuid`. -/
def resolveRuleUuid (description interface : String) : Client (Option String) := do
  if description = "" then refuse "rule description required (it is the rule identity)"
  else
    let data ← post (.ruleSearch description)
    let ms ← builtin (matchingRows (ruleMatches description interface) data)
    uniqueUuid ("rule '" ++ description ++ "'")
      (fun n => "rule '" ++ description ++ "' on '" ++ interface ++
        "' not uniquely resolvable (" ++ toString n ++ ")") ms

/-- `str(payload.get("interface", ""))`. -/
def ruleInterface (payload : Dict) : String := (Dict.getD payload "interface" (.str "")).pyStr

/-- `str(payload.get("description", ""))`: with the interface, the identity of
a rule; by itself that of a policy. -/
def recordDescription (payload : Dict) : String :=
  (Dict.getD payload "description" (.str "")).pyStr

/-- `apply_firewall_rule`. -/
def applyFirewallRule (operation : String) (payload : Dict) (dryRun : Bool) : Client Json := do
  let description := recordDescription payload
  let interface := ruleInterface payload
  if operation = "delete" then
    if dryRun then
      return .obj [("dry_run", .bool true), ("operation", .str "delete"),
        ("description", .str description)]
    else
      match ← resolveRuleUuid description interface with
      | none =>
        return .obj [("dry_run", .bool false), ("operation", .str "delete"),
          ("result", .str "absent")]
      | some uuid =>
        let res ← post (.ruleDel uuid)
        let _ ← post .ruleApply
        return .obj [("dry_run", .bool false), ("operation", .str "delete"), ("result", res)]
  else if dryRun then
    return .obj [("dry_run", .bool true), ("description", .str description),
      ("interface", .str interface)]
  else
    let uuid ← resolveRuleUuid description interface
    let res ← post (upsert uuid (.ruleAdd payload) fun u => .ruleSet u payload)
    raiseOnFailed res "firewall rule"
    let _ ← post .ruleApply
    return .obj [("dry_run", .bool false),
      ("operation", .str (if uuid.isNone then "add" else "set")), ("result", res)]

/-! ### `apply_monit_test` -/

/-- `_resolve_monit_test_uuid`. -/
def resolveMonitTestUuid (name : String) : Client (Option String) := do
  if name = "" then refuse "monit test name required (it is the test identity)"
  else
    let data ← post (.testSearch name)
    let ms ← builtin
      (matchingRows (fun r => decide (Dict.get? r "name" = some (.str name))) data)
    uniqueUuid ("monit test '" ++ name ++ "'")
      (fun n => "monit test '" ++ name ++ "' not uniquely resolvable (" ++ toString n ++
        " matches)") ms

/-- The uuid `_resolve_system_service_uuid` reads off the answer to its
search. -/
def systemServiceUuid (data : Json) : Except Raised Json := do
  let ms ← (matchingRows
    (fun r => decide (Json.lower (Dict.getD r "type" (.str "")).pyStr = "system")) data).mapError
      Raised.builtin
  match ms with
  | [r] => (Dict.item r "uuid").mapError Raised.builtin
  | _ =>
    .error (.opnsense (.apiError 0
      ("monit system service not uniquely resolvable (" ++ toString ms.length ++ ")")))

/-- The tests selected in a `tests` option map, in order. -/
def selectedTests (tests : Dict) : List String :=
  (tests.filter fun kv =>
    match kv.2 with
    | .obj v => decide ((Dict.getD v "selected" .null).pyStr = "1" ∨
        (Dict.getD v "selected" .null).pyStr = "True")
    | _ => false).map (·.1)

/-- What `_attach_test_to_system` sends after reading the service: nothing if
the test is attached already, else the joined list with the test appended. -/
def attachedTests (testUuid svcAnswer : Json) : Except Raised (Option String) := do
  let svc ← (svcAnswer.attrGet "service" (.obj [])).mapError Raised.builtin
  let tests ← (svc.attrGet "tests" (.obj [])).mapError Raised.builtin
  let kvs ← tests.items.mapError Raised.builtin
  let selected := selectedTests kvs
  if (selected.map Json.str).contains testUuid then return none
  else
    let all ← (Json.strings (selected.map Json.str ++ [testUuid])).mapError Raised.builtin
    return some (",".intercalate all)

/-- `_attach_test_to_system`. -/
def attachTestToSystem (testUuid : Json) : Client Unit := do
  let data ← post .serviceSearch
  let sid ← Dialogue.ofExcept (systemServiceUuid data)
  let svc ← post (.serviceGet sid.pyStr)
  match ← Dialogue.ofExcept (attachedTests testUuid svc) with
  | none => return ()
  | some tests =>
    let _ ← post (.serviceSet sid.pyStr tests)
    return ()

/-- The `attach_to_system` directive of a payload. -/
def attachDirective (payload : Dict) : Bool :=
  ["1", "true", "True"].contains (Dict.getD payload "attach_to_system" (.str "0")).pyStr

/-- The uuid of the test just written: the box's answer names an added one,
and an answer that is not an object has no `get`. -/
def writtenTestUuid (uuid : Option String) (res : Json) : Except BuiltinError Json :=
  match uuid with
  | none => res.attrGet "uuid" .null
  | some u => .ok (.str u)

/-- `str(payload.get("name", ""))`: the identity of a test. -/
def testName (payload : Dict) : String := (Dict.getD payload "name" (.str "")).pyStr

/-- `apply_monit_test`. -/
def applyMonitTest (operation : String) (payload : Dict) (dryRun : Bool) : Client Json := do
  let name := testName payload
  if operation = "delete" then
    if dryRun then
      return .obj [("dry_run", .bool true), ("operation", .str "delete"), ("name", .str name)]
    else
      match ← resolveMonitTestUuid name with
      | none =>
        return .obj [("dry_run", .bool false), ("operation", .str "delete"),
          ("result", .str "absent")]
      | some uuid =>
        let res ← post (.testDel uuid)
        let _ ← post .monitReconfigure
        return .obj [("dry_run", .bool false), ("operation", .str "delete"), ("result", res)]
  else
    let attach := attachDirective payload
    let test := Dict.pop payload "attach_to_system"
    if dryRun then
      return .obj [("dry_run", .bool true), ("name", .str name),
        ("attach_to_system", .bool attach)]
    else
      let uuid ← resolveMonitTestUuid name
      let res ← post (upsert uuid (.testAdd test) fun u => .testSet u test)
      let testUuid ← builtin (writtenTestUuid uuid res)
      raiseOnFailed res "monit test"
      let _ ← (if attach && testUuid.truthy then attachTestToSystem testUuid else pure ())
      let _ ← post .monitReconfigure
      return .obj [("dry_run", .bool false),
        ("operation", .str (if uuid.isNone then "add" else "set")),
        ("attached", .bool attach), ("result", res)]

/-! ### `apply_ids_rulesets` -/

/-- The names of `rulesets`, each one checked. -/
def rulesetNames : List Json → Except Raised (List String)
  | [] => .ok []
  | x :: xs => do
    let n ← rulesetName x
    let ns ← rulesetNames xs
    return n :: ns

/-- The loop of `apply_ids_rulesets`. -/
def toggleRulesets : List String → Client Unit
  | [] => return ()
  | n :: ns => do
    let _ ← post (.rulesetToggle n)
    toggleRulesets ns

/-- `apply_ids_rulesets`. -/
def applyIdsRulesets (_operation : String) (payload : Dict) (dryRun : Bool) : Client Json := do
  match Dict.getD payload "rulesets" (.arr []) with
  | .arr raw =>
    let rulesets ← Dialogue.ofExcept (rulesetNames raw)
    if dryRun then
      return .obj [("dry_run", .bool true), ("rulesets", .arr (rulesets.map Json.str))]
    else
      toggleRulesets rulesets
      let _ ← post .idsReconfigure
      return .obj [("dry_run", .bool false), ("enabled", .arr (rulesets.map Json.str))]
  | _ => refuse "rulesets must be a list"

/-! ### `apply_ids_policy` -/

/-- `_resolve_policy_uuid`. -/
def resolvePolicyUuid (description : String) : Client (Option String) := do
  if description = "" then refuse "ids policy description required (it is the policy identity)"
  else
    let data ← post (.policySearch description)
    let ms ← builtin
      (matchingRows (fun r => decide (Dict.get? r "description" = some (.str description))) data)
    uniqueUuid ("ids policy '" ++ description ++ "'")
      (fun n => "ids policy '" ++ description ++ "' not uniquely resolvable (" ++ toString n ++
        " matches)") ms

/-- The `by_name` map of `_resolve_ruleset_file_uuids`, latest entry first: a
later file of the same name replaces an earlier one, and a list or a `dict`
cannot be a key. -/
def rulesetsByName : Dict → List (String × String) →
    Except BuiltinError (List (String × String))
  | [], acc => .ok acc
  | (fuuid, .obj info) :: rest, acc =>
    let name := Dict.getD info "value" .null
    if name.truthy && safeName fuuid then
      match name with
      | .str n => rulesetsByName rest ((n, fuuid) :: acc)
      | .arr _ | .obj _ => .error .typeError
      | _ => rulesetsByName rest acc
    else rulesetsByName rest acc
  | _ :: rest, acc => rulesetsByName rest acc

/-- The file uuids of the listed rulesets, or the refusal of the first that is
unsafe or not enabled. -/
def lookupRulesets (byName : List (String × String)) : List Json → Except Raised (List String)
  | [] => .ok []
  | x :: xs => do
    let name ← rulesetName x
    match byName.lookup name with
    | none =>
      .error (.opnsense (.apiError 0
        ("ruleset '" ++ name ++ "' must be enabled before a policy can reference it")))
    | some u =>
      let us ← lookupRulesets byName xs
      return u :: us

/-- The enabled rulesets by filename, as `getPolicy` answers them. -/
def enabledRulesets (answer : Json) : Except BuiltinError (List (String × String)) := do
  let policy ← answer.attrGet "policy" (.obj [])
  let options ← policy.attrGet "rulesets" (.obj [])
  match options with
  | .obj kvs => rulesetsByName kvs []
  | _ => return []

/-- `_resolve_ruleset_file_uuids`. -/
def resolveRulesetFileUuids (filenames : Json) : Client (List String) := do
  if !filenames.truthy then return []
  else
    let answer ← post .policyGet
    let byName ← builtin (enabledRulesets answer)
    let names ← builtin filenames.iterate
    Dialogue.ofExcept (lookupRulesets byName names)

/-- The tokens `key.value` of one `content` entry. -/
def contentTokens (key : String) (values : Json) : Except BuiltinError (List String) := do
  let vs ← (values.orElse (.arr [])).iterate
  return vs.map fun v => key ++ "." ++ v.pyStr

/-- The tokens of the whole `content` map, in order. -/
def allContentTokens : Dict → Except BuiltinError (List String)
  | [] => .ok []
  | (key, values) :: rest => do
    let ts ← contentTokens key values
    let us ← allContentTokens rest
    return ts ++ us

/-- `_serialize_policy`. -/
def serializePolicy (payload : Dict) : Client Dict := do
  let actions := (Dict.getD payload "action" (.arr [])).orElse (.arr [])
  let rulesets ← resolveRulesetFileUuids ((Dict.getD payload "rulesets" (.arr [])).orElse (.arr []))
  let content ← builtin ((Dict.getD payload "content" (.obj [])).orElse (.obj [])).items
  let tokens ← builtin (allContentTokens content)
  let as ← builtin (do Json.strings (← actions.iterate))
  return [("enabled", .str (Dict.getD payload "enabled" (.str "1")).pyStr),
    ("prio", .str (Dict.getD payload "prio" (.str "0")).pyStr),
    ("action", .str (",".intercalate as)),
    ("rulesets", .str (",".intercalate rulesets)),
    ("content", .str (",".intercalate tokens)),
    ("new_action", .str (Dict.getD payload "new_action" (.str "alert")).pyStr),
    ("description", .str (recordDescription payload))]

/-- `apply_ids_policy`. -/
def applyIdsPolicy (operation : String) (payload : Dict) (dryRun : Bool) : Client Json := do
  if operation ≠ "set" ∧ operation ≠ "add" ∧ operation ≠ "delete" then
    refuse ("unknown ids policy operation: " ++ Json.reprStr operation)
  else
    let description := recordDescription payload
    if dryRun then
      return .obj [("dry_run", .bool true), ("operation", .str operation),
        ("description", .str description)]
    else if operation = "delete" then
      match ← resolvePolicyUuid description with
      | none =>
        return .obj [("dry_run", .bool false), ("operation", .str "delete"),
          ("result", .str "absent")]
      | some uuid =>
        let res ← post (.policyDel uuid)
        let _ ← post .idsReconfigure
        return .obj [("dry_run", .bool false), ("operation", .str "delete"), ("result", res)]
    else
      let uuid ← resolvePolicyUuid description
      let policy ← serializePolicy payload
      let res ← post (upsert uuid (.policyAdd policy) fun u => .policySet u policy)
      raiseOnFailed res "ids policy"
      let _ ← post .idsReconfigure
      return .obj [("dry_run", .bool false),
        ("operation", .str (if uuid.isNone then "add" else "set")), ("result", res)]

end Opngms
