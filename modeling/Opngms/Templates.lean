/-
Opngms/Templates.lean

Templates and profiles (`app/services/templates.py`, `profiles.py`, the six
`*_kind.py` modules) and the handlers that preview and apply them
(`app/api/templates.py`, `app/api/profiles.py`).

A template of some kind has a body; a tenant may patch it; bindings given with
the request fill in what only the device can tell.  `preview_*` shows the
change that results, `apply_*` creates and schedules it.  Each kind validates
its bodies with its own checks, whose texts are those of the source.

The library (templates, overrides, profile members) is only read here, so it
is a parameter of the handlers; devices and changes are those of the `World`.
The columns `source_template_id` and `source_profile_id` are left out: no
modelled program reads them.
-/
import Opngms.ConfigApi
import Opngms.PyText

namespace Opngms

abbrev TemplateId := Nat
abbrev ProfileId := Nat

/-! ### Text -/

/-- `not s.strip()`. -/
def isBlank (s : String) : Bool := s.toList.all isSpace

/-- `\A-?\d+\Z`: `_INT_RE`. -/
def isIntText (s : String) : Bool :=
  match s.toList with
  | '-' :: cs => !cs.isEmpty && cs.all isDecimal
  | cs => !cs.isEmpty && cs.all isDecimal

/-- `_NET_RE`: one or more of `[A-Za-z0-9_.:-]` and the slash. -/
def isNetText (s : String) : Bool :=
  s != "" && s.toList.all fun c => isAsciiAlnum c || ['_', '.', ':', '/', '-'].contains c

/-- `\A[A-Za-z0-9_:-]*\Z`: `_PORT_RE`. -/
def isPortText (s : String) : Bool :=
  s.toList.all fun c => isAsciiAlnum c || ['_', ':', '-'].contains c

/-- `\A[A-Za-z0-9_]*\Z`: `_IFACE_RE`. -/
def isIfaceText (s : String) : Bool := s.toList.all fun c => isAsciiAlnum c || c == '_'

/-! ### Checks of a body -/

/-- `if not ok: raise InvalidTemplateError(message)`. -/
def require (ok : Bool) (message : String) : Except Raised Unit :=
  if ok then .ok () else .error (.invalidTemplate message)

/-- `x in names`, for a set of strings: a list or an object is not hashable. -/
def isOneOf (names : List String) (x : Json) : Except Raised Bool :=
  match x with
  | .str s => .ok (names.contains s)
  | .arr _ | .obj _ => .error (.builtin .typeError)
  | _ => .ok false

/-- The text of `sorted(names)`; `names` is listed in order. -/
def sortedRepr (names : List String) : String := (Json.arr (names.map .str)).repr

/-- `str(body.get(key, default))`. -/
def fieldText (body : Dict) (key default : String) : String :=
  (Dict.getD body key (.str default)).pyStr

/-- `ALIAS_TYPES`. -/
def aliasTypes : List String :=
  ["dynipv6host", "geoip", "host", "mac", "network", "networkgroup", "port", "url", "urltable"]

/-- `validate_alias_body`. -/
def validateAliasBody (body : Dict) : Except Raised Unit := do
  require (match Dict.getD body "name" .null with
    | .str name => !isBlank name
    | _ => false) "alias 'name' is required"
  require (← isOneOf aliasTypes (Dict.getD body "type" .null))
    ("alias 'type' must be one of " ++ sortedRepr aliasTypes)
  require (match Dict.getD body "content" .null with
    | .arr xs => !xs.isEmpty
    | _ => false) "alias 'content' must be a non-empty list"

/-- `setting_kind._validate`. -/
def validateSetting (body : Dict) : Except Raised Unit := do
  let key := Dict.getD body "endpoint_key" .null
  match ← (settingEndpoint key).mapError Raised.builtin with
  | none => .error (.invalidTemplate ("unknown setting endpoint: " ++ key.repr))
  | some ep =>
    match Dict.getD body "payload" .null with
    | .obj payload =>
      let bad := ep.excludeFields.filter (Dict.keys payload).contains
      require bad.isEmpty
        ("hardware/device-specific fields are not templatable: " ++ sortedRepr bad)
    | _ => .error (.invalidTemplate "setting 'payload' must be an object")

/-- The checks of `firewall_rule_kind._validate` before the last. -/
def validateRuleFields (body : Dict) : Except Raised Unit := do
  require (!isBlank (fieldText body "description" ""))
    "firewall rule 'description' is required (it is the rule identity)"
  require (← isOneOf ["block", "pass", "reject"] (Dict.getD body "action" .null))
    ("'action' must be one of " ++ sortedRepr ["block", "pass", "reject"])
  require (← isOneOf ["in", "out"] (Dict.getD body "direction" .null))
    ("'direction' must be one of " ++ sortedRepr ["in", "out"])
  require (← isOneOf ["inet", "inet46", "inet6"] (Dict.getD body "ipprotocol" .null))
    ("'ipprotocol' must be one of " ++ sortedRepr ["inet", "inet46", "inet6"])
  require (isNetText (fieldText body "source_net" "any"))
    "'source_net' must be any / an IP-CIDR / an alias name"
  require (isNetText (fieldText body "destination_net" "any"))
    "'destination_net' must be any / an IP-CIDR / an alias name"
  require (isPortText (fieldText body "source_port" ""))
    "'source_port' must be empty / a port-range / an alias name"
  require (isPortText (fieldText body "destination_port" ""))
    "'destination_port' must be empty / a port-range / an alias name"

/-- `firewall_rule_kind._validate`. -/
def validateFirewallRule (body : Dict) : Except Raised Unit := do
  validateRuleFields body
  require (isIfaceText (fieldText body "interface" "")) "'interface' has an invalid value"

/-- `monit_kind._ACTIONS`. -/
def monitActions : List String := ["alert", "exec", "restart", "start", "stop", "unmonitor"]

/-- `monit_kind._validate`. -/
def validateMonitTest (body : Dict) : Except Raised Unit := do
  require (!isBlank (fieldText body "name" ""))
    "monit test 'name' is required (it is the test identity)"
  require (!isBlank (fieldText body "type" "")) "monit test 'type' is required"
  require (!isBlank (fieldText body "condition" "")) "monit test 'condition' is required"
  require (← isOneOf monitActions (Dict.getD body "action" .null))
    ("monit test 'action' must be one of " ++ sortedRepr monitActions)
  let av := Dict.getD body "attach_to_system" .null
  require (av = .null || ["0", "1"].contains av.pyStr)
    "monit test 'attach_to_system' must be '0' or '1'"

/-- The loop over the names of `ids_kind._validate`. -/
def validateRulesetNames : List Json → Except Raised Unit
  | [] => return ()
  | name :: names => do
    require (match name with
      | .str s => safeName s
      | _ => false) ("invalid ruleset filename: " ++ name.repr)
    validateRulesetNames names

/-- `ids_kind._validate`. -/
def validateRulesets (body : Dict) : Except Raised Unit :=
  match Dict.getD body "rulesets" .null with
  | .arr (name :: names) => validateRulesetNames (name :: names)
  | _ => .error (.invalidTemplate "'rulesets' must be a non-empty list")

/-- `all(a in names for a in xs)`: stops at the first that is not. -/
def allOneOf (names : List String) : List Json → Except Raised Bool
  | [] => return true
  | x :: xs => do
    if ← isOneOf names x then allOneOf names xs else return false

/-- A metadata filter: a key and a list of strings. -/
def isContentEntry (kv : String × Json) : Bool :=
  safeName kv.1 &&
    match kv.2 with
    | .arr xs => xs.all fun x =>
      match x with
      | .str _ => true
      | _ => false
    | _ => false

/-- `ids_policy_kind._validate`. -/
def validateIdsPolicy (body : Dict) : Except Raised Unit := do
  let description := fieldText body "description" ""
  require (!isBlank description)
    "ids policy 'description' is required (it is the policy identity)"
  require (description = strip description)
    "ids policy 'description' must not have leading/trailing whitespace"
  require (["0", "1"].contains (fieldText body "enabled" "1"))
    "ids policy 'enabled' must be '0' or '1'"
  require (isIntText (fieldText body "prio" "0")) "ids policy 'prio' must be an integer"
  require (← match Dict.getD body "action" (.arr []) with
    | .arr actions => allOneOf ["alert", "disable", "drop"] actions
    | _ => .ok false)
    ("ids policy 'action' must be a list of " ++ sortedRepr ["alert", "disable", "drop"])
  require (← isOneOf ["alert", "default", "disable", "drop"]
      (Dict.getD body "new_action" (.str "alert")))
    ("ids policy 'new_action' must be one of " ++
      sortedRepr ["alert", "default", "disable", "drop"])
  require (match Dict.getD body "rulesets" (.arr []) with
    | .arr names => names.all fun n =>
      match n with
      | .str s => safeName s
      | _ => false
    | _ => false) "ids policy 'rulesets' must be a list of ruleset filenames"
  require (match Dict.getD body "content" (.obj []) with
    | .obj content => content.all isContentEntry
    | _ => false) "ids policy 'content' must be an object of metadata-key -> [values]"

/-! ### Kinds -/

/-- `TemplateKind`. -/
structure TemplateKind where
  validate : Dict → Except Raised Unit
  changeKind : String
  toChange : Dict → Except Raised (String × Json × Dict)
  /-- Body keys that an override may not change. -/
  pinned : List String
  bind : Option (Dict → Dict → Dict)

/-- `lambda body: ("set", body[key], body)`. -/
def changeOfItem (key : String) (body : Dict) : Except Raised (String × Json × Dict) := do
  let target ← (Dict.item body key).mapError Raised.builtin
  return ("set", target, body)

/-- `lambda body: ("set", str(body.get(key, "")), body)`. -/
def changeOfText (key : String) (body : Dict) : Except Raised (String × Json × Dict) :=
  return ("set", .str (fieldText body key ""), body)

/-- `lambda body, b: {**body, "interface": b.get("interface", "")}`. -/
def bindInterface (body bindings : Dict) : Dict :=
  Dict.set body "interface" (Dict.getD bindings "interface" (.str ""))

/-- `TEMPLATE_KINDS`, as every process registers them at startup. -/
def templateKinds : List (String × TemplateKind) :=
  [("firewall_alias",
      { validate := validateAliasBody, changeKind := "alias", toChange := changeOfItem "name"
        pinned := ["name", "type"], bind := none }),
    ("opnsense_setting",
      { validate := validateSetting, changeKind := "opnsense_setting"
        toChange := changeOfItem "endpoint_key", pinned := ["endpoint_key"], bind := none }),
    ("firewall_rule",
      { validate := validateFirewallRule, changeKind := "firewall_rule"
        toChange := changeOfText "description", pinned := ["description"]
        bind := some bindInterface }),
    ("monit_test",
      { validate := validateMonitTest, changeKind := "monit_test", toChange := changeOfText "name"
        pinned := ["name"], bind := none }),
    ("suricata_ruleset",
      { validate := validateRulesets, changeKind := "ids_rulesets"
        toChange := fun body => return ("set", .str "ids_rulesets", body)
        pinned := [], bind := none }),
    ("ids_policy",
      { validate := validateIdsPolicy, changeKind := "ids_policy"
        toChange := changeOfText "description", pinned := ["description"], bind := none })]

/-- `_kind`. -/
def templateKind (kind : String) : Except Raised TemplateKind :=
  match templateKinds.lookup kind with
  | some spec => .ok spec
  | none => .error (.invalidTemplate ("unsupported template kind: " ++ kind))

/-- `validate_body`. -/
def validateBody (kind : String) (body : Dict) : Except Raised Unit := do
  let spec ← templateKind kind
  spec.validate body

/-- `effective_body`: the patch over the base, the pinned keys as in the
base. -/
def effectiveBody (kind : String) (base patch : Dict) : Except Raised Dict := do
  let spec ← templateKind kind
  let merged := patch.foldl (fun d kv => Dict.set d kv.1 kv.2) base
  return spec.pinned.foldl (fun d key =>
    match Dict.get? base key with
    | some v => Dict.set d key v
    | none => d) merged

/-- `apply_bindings`. -/
def applyBindings (kind : String) (body bindings : Dict) : Except Raised Dict := do
  let spec ← templateKind kind
  match spec.bind with
  | none => return body
  | some bind => return bind body bindings

/-! ### The library -/

/-- A row of `config_templates`. -/
structure Template where
  id : TemplateId
  kind : String
  body : Dict

/-- A row of `config_profile_members`. -/
structure ProfileMember where
  id : Nat
  profileId : ProfileId
  templateId : TemplateId
  position : Int

/-- The tables that previewing and applying read. -/
structure Library where
  templates : TemplateId → Option Template
  profiles : List ProfileId
  members : List ProfileMember
  /-- The `body_patch` of the tenant's override of the template. -/
  overrides : TemplateId → TenantId → Option Dict

/-- `order_by(position, id)`. -/
def ProfileMember.before (a b : ProfileMember) : Bool :=
  a.position < b.position || (a.position == b.position && a.id ≤ b.id)

/-- `_ordered_members`. -/
def Library.orderedMembers (lib : Library) (profileId : ProfileId) : List Template :=
  ((lib.members.filter fun m => m.profileId = profileId).mergeSort ProfileMember.before).filterMap
    fun m => lib.templates m.templateId

/-- `_effective`. -/
def Library.effective (lib : Library) (tenantId : TenantId) (tpl : Template) :
    Except Raised Dict :=
  effectiveBody tpl.kind tpl.body ((lib.overrides tpl.id tenantId).getD [])

/-! ### Previewing -/

/-- `TemplatePreviewOut`. -/
structure TemplatePreview where
  operation : String
  kind : String
  target : String
  new : Dict
  deriving DecidableEq

/-- `raise HTTPException(status_code=status, detail=str(exc))` for an invalid
template; other exceptions pass. -/
def invalidAs {α : Type} (status : Nat) (p : Program α) : Program α :=
  tryCatch p fun e =>
    match e with
    | .invalidTemplate m => throw (.http status m)
    | e => throw e

/-- `_template_or_404`. -/
def templateOr404 (lib : Library) (templateId : TemplateId) : Program Template :=
  match lib.templates templateId with
  | some tpl => return tpl
  | none => throw (.http 404 "Template not found")

/-- What both previews do for one template. -/
def previewMember (lib : Library) (tenantId : TenantId) (bindings : Dict) (tpl : Template) :
    Program TemplatePreview := do
  let eff ← Dialogue.ofExcept (lib.effective tenantId tpl)
  let eff ← Dialogue.ofExcept (applyBindings tpl.kind eff bindings)
  invalidAs 422 (Dialogue.ofExcept (validateBody tpl.kind eff))
  let spec ← Dialogue.ofExcept (templateKind tpl.kind)
  let (op, target, _) ← Dialogue.ofExcept (spec.toChange eff)
  return { operation := op, kind := spec.changeKind, target := target.pyStr, new := eff }

/-- `preview_template`; a request without a body has no bindings. -/
def previewTemplate (lib : Library) (tenantId : TenantId) (deviceId : DeviceId)
    (templateId : TemplateId) (bindings : Dict) : Program TemplatePreview := do
  let _ ← loadDevice tenantId deviceId
  let tpl ← templateOr404 lib templateId
  previewMember lib tenantId bindings tpl

/-- The loop of `preview_profile`. -/
def previewMembers (lib : Library) (tenantId : TenantId) (bindings : Dict) :
    List Template → Program (List TemplatePreview)
  | [] => return []
  | tpl :: tpls => do
    let p ← previewMember lib tenantId bindings tpl
    let ps ← previewMembers lib tenantId bindings tpls
    return p :: ps

/-- `_profile_or_404`. -/
def profileOr404 (lib : Library) (profileId : ProfileId) : Program Unit :=
  if lib.profiles.contains profileId then return () else throw (.http 404 "Profile not found")

/-- `preview_profile`. -/
def previewProfile (lib : Library) (tenantId : TenantId) (deviceId : DeviceId)
    (profileId : ProfileId) (bindings : Dict) : Program (List TemplatePreview) := do
  let _ ← loadDevice tenantId deviceId
  profileOr404 lib profileId
  match lib.orderedMembers profileId with
  | [] => throw (.http 400 "Profile has no member templates")
  | tpl :: tpls => previewMembers lib tenantId bindings (tpl :: tpls)

/-! ### Applying -/

/-- `materialize_change`. -/
def materializeChange (tenantId : TenantId) (deviceId : DeviceId) (kind : String)
    (body bindings : Dict) : Program Change := do
  let spec ← Dialogue.ofExcept (templateKind kind)
  let body ← Dialogue.ofExcept (applyBindings kind body bindings)
  Dialogue.ofExcept (spec.validate body)
  let (operation, target, payload) ← Dialogue.ofExcept (spec.toChange body)
  let change ← createChange tenantId deviceId spec.changeKind operation target payload
  perform (.flushChange change)
  return change

/-- `apply_template`. -/
def applyTemplate (lib : Library) (tenantId : TenantId) (deviceId : DeviceId)
    (templateId : TemplateId) (scheduledAt : Option Time) (bindings : Dict) : Program Change := do
  let _ ← loadDevice tenantId deviceId
  let tpl ← templateOr404 lib templateId
  let eff ← Dialogue.ofExcept (lib.effective tenantId tpl)
  let change ← invalidAs 422 (materializeChange tenantId deviceId tpl.kind eff bindings)
  let change := { change with status := .scheduled, scheduledAt }
  perform (.flushChange change)
  perform .commit
  perform (.enqueue (.applyConfigChange change.id) scheduledAt)
  return change

/-- The first loop of `materialize_profile`: the effective bodies, all of them
validated. -/
def validateMembers (lib : Library) (tenantId : TenantId) :
    List Template → Except Raised (List (Template × Dict))
  | [] => return []
  | tpl :: tpls => do
    let body ← lib.effective tenantId tpl
    validateBody tpl.kind body
    let rest ← validateMembers lib tenantId tpls
    return (tpl, body) :: rest

/-- The second loop of `materialize_profile`: one change per member. -/
def materializeMembers (tenantId : TenantId) (deviceId : DeviceId) (bindings : Dict) :
    List (Template × Dict) → Program (List Change)
  | [] => return []
  | (tpl, body) :: rest => do
    let change ← materializeChange tenantId deviceId tpl.kind body bindings
    let changes ← materializeMembers tenantId deviceId bindings rest
    return change :: changes

/-- `materialize_profile`. -/
def materializeProfile (lib : Library) (tenantId : TenantId) (deviceId : DeviceId)
    (profileId : ProfileId) (bindings : Dict) : Program (List Change) := do
  match lib.orderedMembers profileId with
  | [] => throw (.invalidTemplate "profile has no member templates")
  | tpl :: tpls =>
    let effective ← Dialogue.ofExcept (validateMembers lib tenantId (tpl :: tpls))
    let changes ← materializeMembers tenantId deviceId bindings effective
    flushAll changes
    return changes

/-- `apply_profile`: one job for all its members. -/
def applyProfile (lib : Library) (tenantId : TenantId) (deviceId : DeviceId)
    (profileId : ProfileId) (scheduledAt : Option Time) (bindings : Dict) :
    Program (List Change) := do
  let _ ← loadDevice tenantId deviceId
  profileOr404 lib profileId
  let changes ← invalidAs 400 (materializeProfile lib tenantId deviceId profileId bindings)
  let changes := changes.map fun c => { c with status := .scheduled, scheduledAt }
  flushAll changes
  perform .commit
  perform (.enqueue (.applyProfileChanges (changes.map Change.id)) scheduledAt)
  return changes

end Opngms
