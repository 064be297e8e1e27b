/-
Opngms/EventRows.lean

The parsers of the ingested logs (`app/connectors/opnsense/parsers.py`): from
the JSON that a box answers to the rows of `events`.

Each parser keeps some rows, in their order, parses one time for each of them
with `parse_ts`, and builds the event from the row and this time.  A time that
does not parse is the time of the clock, so it enters the event, and the hash
that stands for a missing id.

What the parsers take from Python's standard library are parameters: the ISO
dates, SHA-1, and the search for a regular expression, with the patterns as they
stand in the source.  Opngms/LogParsers.lean has the parsers with every exception that
they raise, over texts that no column holds too.
-/
import Mathlib.Data.List.Infix
import Opngms.Ingest

namespace Opngms

namespace Ingest

/-! ### Times -/

/-- A `datetime` with a time zone: its instant, and its `isoformat()`. -/
structure Timestamp where
  instant : Time
  iso : String

abbrev Match := String → Option String

/-- What the parsers use of the standard library. -/
structure Stdlib where
  /-- `datetime.fromisoformat`, in UTC where the text names no time zone; `none`
  for a `ValueError`. -/
  fromIsoFormat : String → Option Timestamp
  /-- `hashlib.sha1(...).hexdigest()` of a text. -/
  sha1 : String → String
  /-- `re.search` of a pattern in a text, with `re.IGNORECASE`. -/
  search : String → String → Option Match

/-- `s.replace("Z", "+00:00")`. -/
def replaceZ (s : String) : String :=
  String.ofList (s.toList.flatMap fun c => if c = 'Z' then "+00:00".toList else [c])

/-- The text of a value is a date. -/
def Parsable (lib : Stdlib) (value : Json) : Prop :=
  (lib.fromIsoFormat (replaceZ value.pyStr)).isSome = true

instance (lib : Stdlib) (value : Json) : Decidable (Parsable lib value) :=
  inferInstanceAs (Decidable (_ = true))

/-- `parse_ts`; `now` is what the clock reads. -/
def parseTs (lib : Stdlib) (now : Timestamp) (value : Json) : Timestamp :=
  (lib.fromIsoFormat (replaceZ value.pyStr)).getD now

/-- `event_key`, of the texts of its parts. -/
def eventKeyOf (lib : Stdlib) (ts : Timestamp) (parts : List String) : String :=
  lib.sha1 ("|".intercalate (ts.iso :: parts))

/-! ### Rows -/

/-- `_rows`. -/
def rowsOf (data : Json) (keys : List String) : List Json :=
  match data with
  | .arr xs => xs
  | .obj kvs =>
    (keys.findSome? fun k =>
      match Dict.get? kvs k with
      | some (.arr xs) => some xs
      | _ => none).getD []
  | _ => []

/-- An event as a parser gives it: a column is a JSON value, or missing. -/
structure ParsedEvent where
  time : Time
  eventKey : String
  category : String
  srcIp : Option Json := none
  dstIp : Option Json := none
  name : Option Json := none
  severity : String
  action : Option Json := none
  attributes : Dict

/-- The text of a column; the insert refuses any other value, and a text with a zero
character. -/
def column : Option Json → Option (Option String)
  | none => some none
  | some (.str s) => if Json.storableText s then some (some s) else none
  | some _ => none

/-- The event as a row to insert, if its columns are texts and JSON that PostgreSQL can store. -/
def ParsedEvent.toRow (e : ParsedEvent) : Option RawEvent := do
  let srcIp ← column e.srcIp
  let dstIp ← column e.dstIp
  let name ← column e.name
  let action ← column e.action
  if [e.eventKey, e.category, e.severity].all Json.storableText && (Json.obj e.attributes).storable then
    some ⟨e.time, e.eventKey, some e.category, srcIp, dstIp, name, some e.severity, action,
      some e.attributes⟩
  else none

theorem column_eq_some {x : Option Json} {s : Option String} (h : column x = some s) :
    x = s.map Json.str := by
  unfold column at h
  split at h
  · obtain rfl := Option.some.inj h
    rfl
  · split at h
    · obtain rfl := Option.some.inj h
      rfl
    · cases h
  · cases h

theorem ParsedEvent.toRow_eq {e : ParsedEvent} {row : RawEvent} (h : e.toRow = some row) :
    row.time = e.time ∧ row.eventKey = e.eventKey ∧ row.severity = some e.severity ∧
      e.action = row.action.map Json.str := by
  obtain ⟨srcIp, -, h⟩ := Option.bind_eq_some_iff.mp h
  obtain ⟨dstIp, -, h⟩ := Option.bind_eq_some_iff.mp h
  obtain ⟨name, -, h⟩ := Option.bind_eq_some_iff.mp h
  obtain ⟨action, haction, h⟩ := Option.bind_eq_some_iff.mp h
  split at h
  · obtain rfl := Option.some.inj h
    exact ⟨rfl, rfl, rfl, column_eq_some haction⟩
  · cases h

/-- A row that a parser keeps: the value its time is parsed from, and its event
at a time, which is the time of the event. -/
structure KeptRow where
  stamp : Json
  event : Timestamp → ParsedEvent
  event_time : ∀ ts, (event ts).time = ts.instant

section Parsers

variable (lib : Stdlib)

/-- A row of `parse_ids_rows`. -/
def idsRow (r : Dict) : KeptRow :=
  let alert := match Dict.get? r "alert" with
    | some (.obj a) => a
    | _ => []
  let name := (Dict.getD alert "signature" .null).orElse
    ((Dict.getD r "signature" .null).orElse (.str ""))
  let src := Dict.getD r "src_ip" (.str "")
  let dst := Dict.getD r "dest_ip" (Dict.getD r "dst_ip" (.str ""))
  let action := Dict.getD alert "action" (Dict.getD r "action" (.str ""))
  let severity := (Dict.getD alert "severity" (Dict.getD r "severity" (.str ""))).pyStr
  { stamp := Dict.getD r "timestamp" .null
    event := fun ts =>
      { time := ts.instant
        eventKey := ((Dict.getD r "alert_id" .null).orElse ((Dict.getD r "_id" .null).orElse
          (.str (eventKeyOf lib ts [src.pyStr, dst.pyStr, name.pyStr, severity])))).pyStr
        category := "alert"
        srcIp := some src
        dstIp := some dst
        name := some name
        severity := severity
        action := some action
        attributes := r }
    event_time := fun _ => rfl }

/-- A row of `parse_dns_rows`. -/
def dnsRow (r : Dict) : KeptRow :=
  let clientIp := (Dict.getD r "client" .null).orElse
    ((Dict.getD r "client_ip" .null).orElse (.str ""))
  let domain := (Dict.getD r "domain" .null).orElse
    ((Dict.getD r "query" .null).orElse ((Dict.getD r "name" .null).orElse (.str "")))
  let action := Dict.getD r "action" (.str "")
  { stamp := Dict.getD r "timestamp" (Dict.getD r "time" .null)
    event := fun ts =>
      { time := ts.instant
        eventKey := ((Dict.getD r "query_id" .null).orElse ((Dict.getD r "id" .null).orElse
          ((Dict.getD r "_id" .null).orElse
            (.str (eventKeyOf lib ts [clientIp.pyStr, domain.pyStr, action.pyStr]))))).pyStr
        category := "query"
        srcIp := some clientIp
        dstIp := some (.str "")
        name := some domain
        severity := ""
        action := some action
        attributes := r }
    event_time := fun _ => rfl }

/-- `s[:n]`. -/
def cut (s : String) (n : Nat) : String := String.ofList (s.toList.take n)

/-- A rule of `_SERVICE_RULES`; without processes it is for all of them. -/
structure ServiceRule where
  category : String
  name : String
  severity : String
  processes : Option (List String)
  pattern : String

/-- `_SERVICE_RULES`. -/
def serviceRules : List ServiceRule :=
  [⟨"reboot", "reboot", "high", some ["shutdown"], "\\breboot\\b"⟩,
    ⟨"reboot", "boot", "medium", some ["syslogd"], "kernel boot file"⟩,
    ⟨"reboot", "boot", "medium", some ["kernel"], "Copyright .*FreeBSD"⟩,
    ⟨"service", "service_crashed", "high", none,
      "\\bexited on signal\\b|\\bcore dumped\\b|\\bterminated abnormally\\b"⟩,
    ⟨"service", "service_restarted", "medium", some ["kernel"],
      "\\bService\\b.*\\bhas been restarted\\b"⟩,
    ⟨"service", "service_restarted", "medium", some ["configd.py", "configd"],
      "\\brestart(ing|ed)?\\b"⟩,
    ⟨"disk", "filesystem_full", "high", none,
      "no space left on device|filesystem full|out of (?:disk )?space"⟩,
    ⟨"disk", "disk_error", "high", some ["smartd"], "\\b(?:error|fail|offline)\\b"⟩,
    ⟨"disk", "pool_degraded", "high", none,
      "\\bDEGRADED\\b|\\bFAULTED\\b|pool .* unavailable"⟩]

/-- `_HIGH_LOG_SEV`. -/
def highLogSev : List String := ["emerg", "alert", "crit", "err", "error"]

/-- A row of `parse_service_events`: the first rule that matches its line. -/
def serviceRow (r : Dict) : Option KeptRow :=
  let proc := (Dict.getD r "process_name" (.str "")).pyStr
  let line := cut (Dict.getD r "line" (.str "")).pyStr 2000
  let logSev := Json.lower (Dict.getD r "severity" (.str "")).pyStr
  (serviceRules.find? fun rule =>
    (rule.processes.all fun procs => procs.contains proc) &&
      (lib.search rule.pattern line).isSome).map fun rule =>
    { stamp := Dict.getD r "timestamp" .null
      event := fun ts =>
        { time := ts.instant
          category := rule.category
          name := some (.str rule.name)
          severity := if highLogSev.contains logSev then "high" else rule.severity
          eventKey := eventKeyOf lib ts [rule.name, cut (lib.sha1 (rule.name ++ "|" ++ line)) 16]
          attributes := [("process", .str proc), ("message", .str (cut line 500)),
            ("log_severity", .str logSev)] }
      event_time := fun _ => rfl }

/-- `_CONFIG_CHANGE`. -/
def configChangePattern : String :=
  "user\\s+(?:\\((?P<luser>[^)]+)\\)|(?P<ruser>[^@\\s]+)@(?P<host>\\S+))" ++
    "\\s+changed configuration to\\s+(?P<backup>\\S+)\\s+in\\s+(?P<path>\\S+)"

/-- `_classify_channel`. -/
def classifyChannel (path : String) : String :=
  if "/api/".toList <+: path.toList then "api"
  else if "/usr/local/opnsense/".toList <:+: path.toList ∨
      "/usr/local/etc/".toList <:+: path.toList then "system"
  else if ".php".toList <:+ path.toList then "gui"
  else "system"

/-- `s.split(sep)` as texts. -/
def splitAt (sep : Char) (s : String) : List String := (s.splitOn (String.singleton sep))

/-- `s.rsplit(sep, 1)[0]`. -/
def beforeLast (sep : Char) (s : String) : String :=
  match splitAt sep s with
  | [] | [_] => s
  | parts => (String.singleton sep).intercalate parts.dropLast

/-- `_change_area`. -/
def changeArea (path : String) : String :=
  let seg := (splitAt '/' path).filter fun s => s != ""
  if seg.head? = some "api" then (seg[1]?).getD "api"
  else
    let base := ((splitAt '_' (beforeLast '.' (seg.getLastD ""))).headD "")
    if base = "" then "system" else base

/-- `_UUID_TAIL.sub("", path)`. -/
def stripUuidTail (path : String) : String :=
  let head := path.toList.take (path.toList.length - 37)
  let tail := path.toList.drop (path.toList.length - 37)
  let hex (c : Char) : Bool := c.isDigit || "abcdefABCDEF".toList.contains c
  let dashes := [9, 14, 19, 24]
  if tail.length = 37 ∧ tail.head? = some '/' ∧
      (tail.zipIdx.drop 1).all (fun ci => if dashes.contains ci.2 then ci.1 = '-' else hex ci.1) then
    String.ofList head
  else path

/-- A row of `parse_config_changes`. -/
def configRow (r : Dict) : Option KeptRow :=
  if Dict.get? r "process_name" = some (.str "audit") then
    let line := cut (Dict.getD r "line" (.str "")).pyStr 2000
    (lib.search configChangePattern line).map fun m =>
      let luser := (m "luser").getD ""
      let actor := cut (if luser = "" then (m "ruser").getD "" else luser) 200
      let actorIp := cut ((m "host").getD "") 200
      let path := cut ((m "path").getD "") 500
      let channel := classifyChannel path
      let changeRef := stripUuidTail path
      let backupFile := cut ((splitAt '/' ((m "backup").getD "")).getLastD "") 200
      let drift := channel = "gui" ∨ channel = "system"
      { stamp := Dict.getD r "timestamp" .null
        event := fun ts =>
          { time := ts.instant
            category := changeArea path
            srcIp := some (.str actorIp)
            name := some (.str actor)
            severity := if drift then "medium" else "info"
            action := some (.str channel)
            eventKey := eventKeyOf lib ts [backupFile, changeRef, actor]
            attributes := [("actor", .str actor), ("actor_ip", .str actorIp),
              ("channel", .str channel), ("area", .str (changeArea path)),
              ("change_ref", .str changeRef), ("backup_file", .str backupFile),
              ("message", .str (cut line 500))] }
        event_time := fun _ => rfl }
  else none

/-- The rows that the parser of a source keeps. -/
def keptRows (data : Json) : Source → List KeptRow
  | .ids => (rowsOf data ["rows", "alerts"]).filterMap fun
    | .obj r => some (idsRow lib r)
    | _ => none
  | .dns => (rowsOf data ["rows", "queries"]).filterMap fun
    | .obj r => some (dnsRow lib r)
    | _ => none
  | .service => (rowsOf data ["rows"]).filterMap fun
    | .obj r => serviceRow lib r
    | _ => none
  | .configAudit => (rowsOf data ["rows"]).filterMap fun
    | .obj r => configRow lib r
    | _ => none

/-- A parser: the kept rows with their times; `clock i` is what the clock reads
at the `i`-th of them. -/
def parseRows (data : Json) (source : Source) (clock : Nat → Timestamp) : List ParsedEvent :=
  (keptRows lib data source).mapIdx fun i k => k.event (parseTs lib (clock i) k.stamp)

end Parsers

end Ingest

end Opngms
