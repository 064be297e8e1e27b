/-
Opngms/LogParsers.lean

The parsers of the logs of a box (`app/connectors/opnsense/parsers.py`), with every
exception that they can raise.

What the clock reads at a row that has no date is part of the library, as are the
ISO dates and SHA-1.
-/
import Opngms.Parsers

namespace Opngms

namespace Parsers

open Py Pattern

/-! ### Times and keys -/

/-- A `datetime` with a time zone. -/
structure Timestamp where
  instant : Int
  /-- `isoformat()`. -/
  iso : PyStr
  iso_encodable : Encodable iso

/-- What the parsers of logs take from the standard library. -/
structure Library (F : Type) extends Platform F where
  /-- `datetime.fromisoformat`, in UTC where the text names no time zone; `none` for a
  `ValueError`. -/
  fromIsoFormat : PyStr → Option Timestamp
  /-- `datetime.now(UTC)` at a row. -/
  clock : Nat → Timestamp
  /-- `hashlib.sha1(s.encode()).hexdigest()`. -/
  sha1 : PyStr → PyStr
  sha1_encodable : ∀ s, Encodable (sha1 s)

variable {F : Type} (lib : Library F)

/-- `parse_ts`. -/
def parseTs (i : Nat) (value : Value F) : Except PyException Timestamp :=
  match value.toStr lib.toPlatform with
  | .ok s => .ok ((lib.fromIsoFormat (replace 'Z' "+00:00" s)).getD (lib.clock i))
  | .error .valueError => .ok (lib.clock i)
  | .error .typeError => .ok (lib.clock i)
  | .error e => .error e

/-- `event_key`. -/
def eventKey (ts : Timestamp) (parts : List (Value F)) : Except PyException PyStr := do
  let texts ← gather (fun p => some <$> p.toStr lib.toPlatform) parts
  let joined := (lit "|").intercalate (ts.iso :: texts)
  encode joined
  return lib.sha1 joined

/-- `id or event_key(ts, *parts)`. -/
def idOrKey (id : Value F) (ts : Timestamp) (parts : List (Value F)) :
    Except PyException (Value F) :=
  if id.truthy lib.toPlatform then .ok id else .str <$> eventKey lib ts parts

/-! ### Rows -/

/-- `_rows`. -/
def rowsOf (data : Value F) (keys : List String) : List (Value F) :=
  match data with
  | .arr xs => xs
  | .obj kvs =>
    (keys.findSome? fun k =>
      match Value.lookup kvs k with
      | some (.arr xs) => some xs
      | _ => none).getD []
  | _ => []

/-- The loop over the rows, with the number of the row; what is no dictionary is
skipped. -/
def eachRow {β : Type}
    (f : Nat → List (PyStr × Value F) → Except PyException (Option β)) (rows : List (Value F)) :
    Except PyException (List β) :=
  gather (fun row => Value.eachDict (f row.2) row.1) rows.zipIdx

/-- An event as a parser gives it; a column may be missing. -/
structure LogEvent (F : Type) where
  time : Timestamp
  category : Option PyStr := none
  srcIp : Option (Value F) := none
  dstIp : Option (Value F) := none
  name : Value F
  severity : Option PyStr := none
  action : Option (Value F) := none
  eventKey : PyStr
  attributes : List (PyStr × Value F)

/-- A row of `parse_ids_rows`. -/
def idsRow (i : Nat) (r : List (PyStr × Value F)) : Except PyException (Option (LogEvent F)) := do
  let alert := (Value.getD r "alert" .null).entries
  let ts ← parseTs lib i (Value.getD r "timestamp" .null)
  let name := (Value.getD alert "signature" .null).or lib.toPlatform
    ((Value.getD r "signature" .null).or lib.toPlatform (.str []))
  let src := Value.getD r "src_ip" (.str [])
  let dst := Value.getD r "dest_ip" (Value.getD r "dst_ip" (.str []))
  let action := Value.getD alert "action" (Value.getD r "action" (.str []))
  let severity ← (Value.getD alert "severity" (Value.getD r "severity" (.str []))).toStr
    lib.toPlatform
  let key ← idOrKey lib ((Value.getD r "alert_id" .null).or lib.toPlatform
    (Value.getD r "_id" .null)) ts [src, dst, name, .str severity]
  let eventKey ← key.toStr lib.toPlatform
  return some
    { time := ts
      category := some (lit "alert")
      srcIp := some src
      dstIp := some dst
      name := name
      severity := some severity
      action := some action
      eventKey := eventKey
      attributes := r }

/-- `parse_ids_rows`. -/
def parseIdsRows (data : Value F) : Except PyException (List (LogEvent F)) :=
  eachRow (idsRow lib) (rowsOf data ["rows", "alerts"])

/-- A row of `parse_dns_rows`. -/
def dnsRow (i : Nat) (r : List (PyStr × Value F)) : Except PyException (Option (LogEvent F)) := do
  let ts ← parseTs lib i (Value.getD r "timestamp" (Value.getD r "time" .null))
  let clientIp := (Value.getD r "client" .null).or lib.toPlatform
    ((Value.getD r "client_ip" .null).or lib.toPlatform (.str []))
  let domain := (Value.getD r "domain" .null).or lib.toPlatform
    ((Value.getD r "query" .null).or lib.toPlatform
      ((Value.getD r "name" .null).or lib.toPlatform (.str [])))
  let action := Value.getD r "action" (.str [])
  let key ← idOrKey lib ((Value.getD r "query_id" .null).or lib.toPlatform
    ((Value.getD r "id" .null).or lib.toPlatform (Value.getD r "_id" .null)))
    ts [clientIp, domain, action]
  let eventKey ← key.toStr lib.toPlatform
  return some
    { time := ts
      category := some (lit "query")
      srcIp := some clientIp
      dstIp := some (.str [])
      name := domain
      severity := some []
      action := some action
      eventKey := eventKey
      attributes := r }

/-- `parse_dns_rows`. -/
def parseDnsRows (data : Value F) : Except PyException (List (LogEvent F)) :=
  eachRow (dnsRow lib) (rowsOf data ["rows", "queries"])

/-- A row of `parse_firewall_blocks`; only blocks with a source are kept. -/
def firewallRow (i : Nat) (r : List (PyStr × Value F)) :
    Except PyException (Option (LogEvent F)) := do
  let action ← (Value.getD r "action" (.str [])).toStr lib.toPlatform
  let src := Value.getD r "src" (.str [])
  if lib.lower action ≠ lit "block" then return none
  else if src.truthy lib.toPlatform then
    let ts ← parseTs lib i ((Value.getD r "__timestamp__" .null).or lib.toPlatform
      (Value.getD r "timestamp" .null))
    let key ← idOrKey lib (Value.getD r "__digest__" .null) ts
      [src, Value.getD r "dst" (.str []), Value.getD r "dstport" (.str [])]
    let name ← (Value.getD r "dstport" (.str [])).toStr lib.toPlatform
    let eventKey ← key.toStr lib.toPlatform
    return some
      { time := ts
        srcIp := some src
        name := .str name
        eventKey := eventKey
        attributes := ["dst", "dstport", "srcport", "interface", "protoname"].map fun k =>
          (lit k, Value.getD r k .null) }
  else return none

/-- `parse_firewall_blocks`. -/
def parseFirewallBlocks (data : Value F) : Except PyException (List (LogEvent F)) :=
  eachRow (firewallRow lib) (rowsOf data [])

/-! ### Patterns without regard to case -/

/-- A letter in either case; three letters have more characters of their case. -/
def eitherCase (c : Char) (d : CodePoint) : Bool :=
  decide (d = codePoint c) || decide (d = codePoint c.toLower) ||
    decide (d = codePoint c.toUpper) ||
    (decide (c.toLower = 'i') && (d.val == 0x130 || d.val == 0x131)) ||
    (decide (c.toLower = 's') && d.val == 0x17F) || (decide (c.toLower = 'k') && d.val == 0x212A)

def words (s : String) : Pattern CodePoint := word (s.toList.map eitherCase)

/-- A character of `.`. -/
def notNewline (c : CodePoint) : Bool := decide (c ≠ codePoint '\n')

/-- A character of `\S`. -/
def notSpace (c : CodePoint) : Bool := !Py.isSpace c

/-- `\w`. -/
def isWord (c : CodePoint) : Bool := lib.isAlnum c || decide (c = codePoint '_')

/-- `\b`. -/
def boundary : Pattern CodePoint :=
  look fun before after => before.head?.any (isWord lib) != after.head?.any (isWord lib)

/-- `$`. -/
def atEnd : Pattern CodePoint :=
  look fun _ after => decide (after = []) || decide (after = [codePoint '\n'])

/-- `\d{1,3}`. -/
def octet : Pattern CodePoint := seq (one isDigit) (upTo 2 (one isDigit))

/-! ### Failed logins -/

/-- `_AUTH_FAIL`:
`(?:authentication (?:error|failed)|could not authenticate|wrong (?:password|username)`
`|login failed|denied).*?(?:for|user) '(?P<user>[^']+)'.*?from[: ]\s*`
`(?P<ip>\d{1,3}(?:\.\d{1,3}){3})`. -/
def authFail : Pattern CodePoint :=
  chain [choice
      [seq (words "authentication ") (choice [words "error", words "failed"]),
        words "could not authenticate",
        seq (words "wrong ") (choice [words "password", words "username"]),
        words "login failed", words "denied"],
    many false notNewline, choice [words "for", words "user"], words " '",
    group "user" (plus true fun c => decide (c ≠ codePoint '\'')), words "'",
    many false notNewline, words "from",
    one (fun c => decide (c = codePoint ':' ∨ c = codePoint ' ')), many true Py.isSpace,
    group "ip" (seq octet (times 3 (seq (char '.') octet)))]

/-- `m.group(name)`, `None` for a group that is no part of the match. -/
def groupValue (m : Hit CodePoint) (name : String) : Value F :=
  match m.group name with
  | some t => .str t
  | none => .null

/-- A row of `parse_auth_failures`. -/
def authRow (i : Nat) (r : List (PyStr × Value F)) : Except PyException (Option (LogEvent F)) := do
  if (Value.getD r "process_name" .null).isText "audit" then
    let line ← (Value.getD r "line" (.str [])).toStr lib.toPlatform
    match authFail.search line with
    | none => return none
    | some m =>
      let ts ← parseTs lib i (Value.getD r "timestamp" .null)
      let ip := groupValue m "ip"
      let user := groupValue m "user"
      let key ← eventKey lib ts [ip, user]
      return some
        { time := ts
          srcIp := some ip
          name := user
          eventKey := key
          attributes := [(lit "username", user),
            (lit "severity", Value.getD r "severity" (.str []))] }
  else return none

/-- `parse_auth_failures`. -/
def parseAuthFailures (data : Value F) : Except PyException (List (LogEvent F)) :=
  eachRow (authRow lib) (rowsOf data ["rows"])

/-! ### Reliability events -/

/-- A rule of `_SERVICE_RULES`; without processes it is for all of them. -/
structure ServiceRule where
  category : String
  name : String
  severity : String
  processes : Option (List String)
  pattern : Pattern CodePoint

def bounded (r : Pattern CodePoint) : Pattern CodePoint := chain [boundary lib, r, boundary lib]

/-- `_SERVICE_RULES`. -/
def serviceRules : List ServiceRule :=
  [ -- `\breboot\b`
    ⟨"reboot", "reboot", "high", some ["shutdown"], bounded lib (words "reboot")⟩,
    -- `kernel boot file`
    ⟨"reboot", "boot", "medium", some ["syslogd"], words "kernel boot file"⟩,
    -- `Copyright .*FreeBSD`
    ⟨"reboot", "boot", "medium", some ["kernel"],
      chain [words "Copyright ", many true notNewline, words "FreeBSD"]⟩,
    -- `\bexited on signal\b|\bcore dumped\b|\bterminated abnormally\b`
    ⟨"service", "service_crashed", "high", none,
      choice [bounded lib (words "exited on signal"), bounded lib (words "core dumped"),
        bounded lib (words "terminated abnormally")]⟩,
    -- `\bService\b.*\bhas been restarted\b`
    ⟨"service", "service_restarted", "medium", some ["kernel"],
      chain [bounded lib (words "Service"), many true notNewline,
        bounded lib (words "has been restarted")]⟩,
    -- `\brestart(ing|ed)?\b`
    ⟨"service", "service_restarted", "medium", some ["configd.py", "configd"],
      bounded lib (seq (words "restart") (opt (group "1" (choice [words "ing", words "ed"]))))⟩,
    -- `no space left on device|filesystem full|out of (?:disk )?space`
    ⟨"disk", "filesystem_full", "high", none,
      choice [words "no space left on device", words "filesystem full",
        chain [words "out of ", opt (words "disk "), words "space"]]⟩,
    -- `\b(?:error|fail|offline)\b`
    ⟨"disk", "disk_error", "high", some ["smartd"],
      bounded lib (choice [words "error", words "fail", words "offline"])⟩,
    -- `\bDEGRADED\b|\bFAULTED\b|pool .* unavailable`
    ⟨"disk", "pool_degraded", "high", none,
      choice [bounded lib (words "DEGRADED"), bounded lib (words "FAULTED"),
        chain [words "pool ", many true notNewline, words " unavailable"]]⟩]

/-- The first rule for a line of a process. -/
def serviceRule (proc line : PyStr) : Option ServiceRule :=
  (serviceRules lib).find? fun rule =>
    (rule.processes.all fun procs => procs.any fun p => proc == lit p) &&
      (rule.pattern.search line).isSome

/-- `_HIGH_LOG_SEV`. -/
def highLogSev : List String := ["emerg", "alert", "crit", "err", "error"]

/-- A row of `parse_service_events`. -/
def serviceRow (i : Nat) (r : List (PyStr × Value F)) :
    Except PyException (Option (LogEvent F)) := do
  let proc ← (Value.getD r "process_name" (.str [])).toStr lib.toPlatform
  let line := (← (Value.getD r "line" (.str [])).toStr lib.toPlatform).take 2000
  let logSev := lib.lower (← (Value.getD r "severity" (.str [])).toStr lib.toPlatform)
  match serviceRule lib proc line with
  | none => return none
  | some rule =>
    let ts ← parseTs lib i (Value.getD r "timestamp" .null)
    let severity := if highLogSev.any fun s => logSev == lit s then "high" else rule.severity
    let named := lit rule.name ++ lit "|" ++ line
    encode named
    let digest := (lib.sha1 named).take 16
    let key ← eventKey lib ts [.str (lit rule.name), .str digest]
    return some
      { time := ts
        category := some (lit rule.category)
        name := .str (lit rule.name)
        severity := some (lit severity)
        eventKey := key
        attributes := [(lit "process", .str proc), (lit "message", .str (line.take 500)),
          (lit "log_severity", .str logSev)] }

/-- `parse_service_events`. -/
def parseServiceEvents (data : Value F) : Except PyException (List (LogEvent F)) :=
  eachRow (serviceRow lib) (rowsOf data ["rows"])

/-! ### Configuration changes -/

/-- `_CONFIG_CHANGE`:
`user\s+(?:\((?P<luser>[^)]+)\)|(?P<ruser>[^@\s]+)@(?P<host>\S+))`
`\s+changed configuration to\s+(?P<backup>\S+)\s+in\s+(?P<path>\S+)`. -/
def configChange : Pattern CodePoint :=
  chain [words "user", spaces,
    alt (chain [char '(', group "luser" (plus true fun c => decide (c ≠ codePoint ')')), char ')'])
      (chain [group "ruser" (plus true fun c => decide (c ≠ codePoint '@') && notSpace c), char '@',
        group "host" (plus true notSpace)]),
    spaces, words "changed configuration to", spaces, group "backup" (plus true notSpace), spaces,
    words "in", spaces, group "path" (plus true notSpace)]

/-- A digit of `[0-9a-fA-F]`. -/
def isHex (c : CodePoint) : Bool :=
  (0x30 ≤ c.val && c.val ≤ 0x39) || (0x61 ≤ c.val && c.val ≤ 0x66) || (0x41 ≤ c.val && c.val ≤ 0x46)

/-- `_UUID_TAIL`. -/
def uuidTail : Pattern CodePoint :=
  chain [char '/', times 8 (one isHex), char '-', times 4 (one isHex), char '-',
    times 4 (one isHex), char '-', times 4 (one isHex), char '-', times 12 (one isHex), atEnd]

/-- `_classify_channel`. -/
def classifyChannel (path : PyStr) : String :=
  if lit "/api/" <+: path then "api"
  else if lit "/usr/local/opnsense/" <:+: path ∨ lit "/usr/local/etc/" <:+: path then "system"
  else if lit ".php" <:+ path then "gui"
  else "system"

/-- `_change_area`. -/
def changeArea (path : PyStr) : PyStr :=
  let seg := (split '/' (stripOf (fun c => decide (c = codePoint '/')) path)).filter
    fun s => !s.isEmpty
  if seg.head? = some (lit "api") then (seg[1]?).getD (lit "api")
  else
    let base := beforeLast '.' (seg.getLastD [])
    let stem := base.takeWhile fun c => decide (c ≠ codePoint '_')
    if stem.isEmpty then lit "system" else stem

/-- `a or b or ""` of groups. -/
def firstText : List (Option PyStr) → PyStr
  | [] => []
  | some t :: rest => if t.isEmpty then firstText rest else t
  | none :: rest => firstText rest

/-- `actor`. -/
def actorOf (m : Hit CodePoint) : PyStr :=
  (firstText [m.group "luser", m.group "ruser"]).take 200

/-- `path`. -/
def pathOf (m : Hit CodePoint) : PyStr := (firstText [m.group "path"]).take 500

/-- `change_ref`. -/
def changeRefOf (m : Hit CodePoint) : PyStr := uuidTail.subst [] (pathOf m)

/-- `backup_file`. -/
def backupFileOf (m : Hit CodePoint) : PyStr :=
  (afterLast '/' (firstText [m.group "backup"])).take 200

/-- A row of `parse_config_changes`. -/
def configRow (i : Nat) (r : List (PyStr × Value F)) :
    Except PyException (Option (LogEvent F)) := do
  if (Value.getD r "process_name" .null).isText "audit" then
    let line := (← (Value.getD r "line" (.str [])).toStr lib.toPlatform).take 2000
    match configChange.search line with
    | none => return none
    | some m =>
      let ts ← parseTs lib i (Value.getD r "timestamp" .null)
      let actor := actorOf m
      let actorIp := (firstText [m.group "host"]).take 200
      let channel := classifyChannel (pathOf m)
      let area := changeArea (pathOf m)
      let drift := channel = "gui" ∨ channel = "system"
      let key ← eventKey lib ts [.str (backupFileOf m), .str (changeRefOf m), .str actor]
      return some
        { time := ts
          category := some area
          srcIp := some (.str actorIp)
          name := .str actor
          severity := some (lit (if drift then "medium" else "info"))
          action := some (.str (lit channel))
          eventKey := key
          attributes := [(lit "actor", .str actor), (lit "actor_ip", .str actorIp),
            (lit "channel", .str (lit channel)), (lit "area", .str area),
            (lit "change_ref", .str (changeRefOf m)), (lit "backup_file", .str (backupFileOf m)),
            (lit "message", .str (line.take 500))] }
  else return none

/-- `parse_config_changes`. -/
def parseConfigChanges (data : Value F) : Except PyException (List (LogEvent F)) :=
  eachRow (configRow lib) (rowsOf data ["rows"])

end Parsers

end Opngms
