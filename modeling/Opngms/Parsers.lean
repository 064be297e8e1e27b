/-
Opngms/Parsers.lean

The parsers of what a box answers to a poll (`app/connectors/opnsense/parsers.py`)
and of its identity (`identity.py`), with every exception that they can raise.

The arguments are decoded JSON of any shape.  A regular expression of the source
is a `Pattern`; its groups have the numbers of the source for names.
-/
import Opngms.Backtracking
import Opngms.PyValues

namespace Opngms

namespace Parsers

open Py Pattern

variable {F : Type}

/-! ### Patterns -/

def char (c : Char) : Pattern CodePoint := one fun d => decide (d = codePoint c)

def chars (s : String) : Pattern CodePoint :=
  word (s.toList.map fun c d => decide (d = codePoint c))

/-- `\d+`. -/
def digits : Pattern CodePoint := plus true isDigit

/-- `\s+`. -/
def spaces : Pattern CodePoint := plus true Py.isSpace

/-- `[-+]?\d*\.?\d+`. -/
def numberPattern : Pattern CodePoint :=
  chain [opt (one fun c => decide (c = codePoint '-' ∨ c = codePoint '+')), many true isDigit,
    opt (char '.'), digits]

/-- `(\d+)\s+day`. -/
def dayPattern : Pattern CodePoint := chain [group "1" digits, spaces, chars "day"]

/-- `(\d{1,2}):(\d{2}):(\d{2})`. -/
def clockPattern : Pattern CodePoint :=
  chain [group "1" (seq (one isDigit) (upTo 1 (one isDigit))), char ':',
    group "2" (times 2 (one isDigit)), char ':', group "3" (times 2 (one isDigit))]

/-- `(\d+)\s+cores?`. -/
def corePattern : Pattern CodePoint :=
  chain [group "1" digits, spaces, chars "core", opt (char 's')]

/-- `int(m.group(name))`. -/
def intGroup (m : Hit CodePoint) (name : String) : Except PyException Nat :=
  match m.group name with
  | some t => toInt t
  | none => .error .typeError

/-! ### Numbers -/

/-- `num`. -/
def num (P : Platform F) : Value F → Except PyException F
  | .bool b => .ok (P.ofInt (if b then 1 else 0))
  | .int n => toFloat P n
  | .float x => .ok x
  | v => do
    let s ← (v.or P (.str [])).toStr P
    match numberPattern.search s with
    | some m => floatOf P m.text
    | none => return P.ofInt 0

/-- The days of `parse_uptime`. -/
def daysOf (s : PyStr) : Except PyException Nat :=
  match dayPattern.search s with
  | some m => intGroup m "1"
  | none => .ok 0

/-- `parse_uptime`. -/
def parseUptime (P : Platform F) (s : Value F) : Except PyException Nat := do
  let s ← (s.or P (.str [])).toStr P
  let days ← daysOf s
  match clockPattern.search s with
  | none => return days * 86400
  | some m =>
    let h ← intGroup m "1"
    let mi ← intGroup m "2"
    let sec ← intGroup m "3"
    return days * 86400 + h * 3600 + mi * 60 + sec

/-- The `text` of `parse_cores`: the first element of a list, or the value as a text. -/
def coresValue (P : Platform F) : Value F → Except PyException (Value F)
  | .arr (x :: _) => .ok x
  | v => .str <$> (v.or P (.str [])).toStr P

/-- `parse_cores`. -/
def parseCores (P : Platform F) (cputype : Value F) : Except PyException Nat := do
  let text ← coresValue P cputype
  let s ← text.toStr P
  match corePattern.search s with
  | some m => intGroup m "1"
  | none => return 1

/-! ### `parse_system_info` -/

structure SystemInfo (F : Type) where
  cpuPct : F
  memPct : F
  diskPct : F
  uptimeSeconds : Nat

/-- `round(x / y * 100, 1)`. -/
def percent (P : Platform F) (x y : F) : F := P.round1 (P.mul (P.div x y) (P.ofInt 100))

/-- The percentage of the memory that is used. -/
def memoryPct (P : Platform F) (resources : Value F) : Except PyException F := do
  let mem := (← (resources.or P (.obj [])).get "memory" (.obj [])).or P (.obj [])
  let total ← num P (← mem.get "total" .null)
  let used ← num P (← mem.get "used" .null)
  return if P.isZero total then P.ofInt 0 else percent P used total

/-- The loop over the disks: the first that is mounted at the root. -/
def rootUsed (P : Platform F) : List (Value F) → Except PyException F
  | [] => .ok (P.ofInt 0)
  | d :: ds => do
    let mountpoint ← d.get "mountpoint" .null
    if mountpoint.isText "/" then num P (← d.get "used_pct" .null)
    else rootUsed P ds

def diskPct (P : Platform F) (disk : Value F) : Except PyException F := do
  let devices ← (disk.or P (.obj [])).get "devices" (.arr [])
  let ds ← (devices.or P (.arr [])).iterate
  rootUsed P ds

def firstLoad (P : Platform F) (loadTerms : List PyStr) : Except PyException F :=
  match loadTerms with
  | term :: _ => num P (.str term)
  | [] => .ok (P.ofInt 0)

/-- The load of one minute as a percentage of the cores. -/
def cpuPct (P : Platform F) (time cputype : Value F) : Except PyException F := do
  let loadavg ← (time.or P (.obj [])).get "loadavg" (.str [])
  let loadTerms := split ',' (← loadavg.toStr P)
  let load1m ← firstLoad P loadTerms
  let cores ← parseCores P cputype
  if cores = 0 then return P.ofInt 0
  else
    let n ← toFloat P cores
    return P.min (P.ofInt 100) (percent P load1m n)

/-- `parse_system_info`. -/
def parseSystemInfo (P : Platform F) (resources disk time cputype : Value F) :
    Except PyException (SystemInfo F) := do
  let memPct ← memoryPct P resources
  let diskPct ← diskPct P disk
  let uptimeSeconds ← parseUptime P (← (time.or P (.obj [])).get "uptime" .null)
  let cpuPct ← cpuPct P time cputype
  return ⟨cpuPct, memPct, diskPct, uptimeSeconds⟩

/-! ### Interfaces, gateways and tunnels -/

structure Interface (F : Type) where
  name : Value F
  up : Bool
  bytesIn : F
  bytesOut : F

/-- An interface of `parse_interfaces`. -/
def interfaceOf (P : Platform F) (v : Value F) : Except PyException (Interface F) := do
  let name ← v.get "name" (.str [])
  let linkState ← (← v.get "link state" .null).toStr P
  let bytesIn ← num P (← v.get "bytes received" .null)
  let bytesOut ← num P (← v.get "bytes transmitted" .null)
  return ⟨name, decide (linkState = lit "2"), bytesIn, bytesOut⟩

/-- `parse_interfaces`. -/
def parseInterfaces (P : Platform F) (traffic : Value F) :
    Except PyException (List (Interface F)) := do
  let interfaces ← (traffic.or P (.obj [])).get "interfaces" .null
  match interfaces with
  | .obj kvs => gather (fun kv => some <$> interfaceOf P kv.2) kvs
  | _ => return []

structure Gateway (F : Type) where
  name : Value F
  up : Bool
  rttMs : F
  lossPct : F

/-- A gateway of `parse_gateways`. -/
def gatewayOf (P : Platform F) (g : List (PyStr × Value F)) : Except PyException (Gateway F) := do
  let status := P.lower (← (Value.getD g "status" (.str [])).toStr P)
  let rttMs ← num P (Value.getD g "delay" .null)
  let lossPct ← num P (Value.getD g "loss" .null)
  return ⟨Value.getD g "name" (.str []), !(["down", "force_down"].any fun s => status == lit s),
    rttMs, lossPct⟩

/-- `parse_gateways`. -/
def parseGateways (P : Platform F) (data : Value F) : Except PyException (List (Gateway F)) := do
  let items ← (data.or P (.obj [])).get "items" (.arr [])
  let gs ← (items.or P (.arr [])).iterate
  gather (Value.eachDict fun g => some <$> gatewayOf P g) gs

/-- `_truthy`. -/
def truthy (P : Platform F) (v : Value F) : Except PyException Bool :=
  match v with
  | .bool true => .ok true
  | v => do
    let s := P.lower (Py.strip (← v.toStr P))
    return ["1", "true", "yes", "on"].any fun t => s == lit t

structure Tunnel (F : Type) where
  name : Value F
  up : Bool

def hasKey (d : List (PyStr × Value F)) (k : String) : Bool := (Value.lookup d k).isSome

/-- Whether a tunnel of `parse_vpn` is up. -/
def tunnelUp (P : Platform F) (row : List (PyStr × Value F)) : Except PyException Bool := do
  if hasKey row "connected" then truthy P (Value.getD row "connected" .null)
  else if hasKey row "peer-status" then
    let status := P.lower (Py.strip (← (Value.getD row "peer-status" .null).toStr P))
    return status == lit "online"
  else
    let hs := Py.strip (← ((Value.getD row "latest-handshake-epoch" .null).or P
      ((Value.getD row "latest-handshake" .null).or P (.str []))).toStr P)
    return !hs.isEmpty && !(["0", "", "None"].any fun t => hs == lit t)

/-- A tunnel of `parse_vpn`. -/
def tunnelOf (P : Platform F) (row : List (PyStr × Value F)) : Except PyException (Tunnel F) := do
  let name := (Value.getD row "name" .null).or P
    ((Value.getD row "instance" .null).or P (Value.getD row "if" (.str [])))
  let up ← tunnelUp P row
  return ⟨name, up⟩

/-- `parse_vpn`. -/
def parseVpn (P : Platform F) (data : Value F) : Except PyException (List (Tunnel F)) := do
  let rows ← (data.or P (.obj [])).get "rows" (.arr [])
  let rs ← (rows.or P (.arr [])).iterate
  gather (Value.eachDict fun row => some <$> tunnelOf P row) rs

/-! ### Plugins -/

/-- `parse_firmware_version`. -/
def parseFirmwareVersion (P : Platform F) (data : Value F) : Except PyException (Value F) := do
  let v ← (data.or P (.obj [])).get "product_version" .null
  if v.truthy P then return v
  else
    let product ← (data.or P (.obj [])).get "product" .null
    match product with
    | .obj kvs => return (Value.getD kvs "product_version" .null).or P (.str [])
    | _ => return v.or P (.str [])

structure Plugin (F : Type) where
  name : Value F
  installed : Bool
  version : Value F
  locked : Bool

structure Plugins (F : Type) where
  productVersion : Value F
  plugins : List (Value F)
  available : List (Plugin F)

/-- A plugin of `parse_plugins`; one without a name is skipped. -/
def pluginOf (P : Platform F) (p : List (PyStr × Value F)) :
    Except PyException (Option (Plugin F)) := do
  if (Value.getD p "name" .null).truthy P then
    let installed ← (Value.getD p "installed" (.str [])).toStr P
    let locked ← truthy P (Value.getD p "locked" .null)
    return some ⟨Value.getD p "name" (.str []),
      ["1", "true", "True"].any fun t => installed == lit t, Value.getD p "version" (.str []),
      locked⟩
  else return none

/-- `parse_plugins`. -/
def parsePlugins (P : Platform F) (info : Value F) : Except PyException (Plugins F) := do
  let raw ← (info.or P (.obj [])).get "plugin" .null
  let items := match raw with
    | .arr xs => xs
    | _ => []
  let available ← gather (Value.eachDict (pluginOf P)) items
  let productVersion ← parseFirmwareVersion P (info.or P (.obj []))
  return ⟨productVersion, (available.filter (·.installed)).map (·.name), available⟩

/-! ### Versions -/

/-- `int` of the digits that a part of a version begins with, 0 if there are none. -/
def leadingInt (part : PyStr) : Except PyException Nat :=
  match digits.matchStart part with
  | some m => toInt m.text
  | none => .ok 0

/-- The text before the first underscore, and the text after it. -/
def partition (s : PyStr) : PyStr × PyStr :=
  let differs := fun c => decide (c ≠ codePoint '_')
  (s.takeWhile differs, (s.dropWhile differs).drop 1)

/-- `parse_version`: year, month, point and hotfix. -/
def parseVersion (P : Platform F) (s : Value F) : Except PyException (Nat × Nat × Nat × Nat) := do
  let s ← (s.or P (.str [])).toStr P
  let parts := partition (Py.strip s)
  let nums ← gather (fun part => some <$> leadingInt part) ((split '.' parts.1).take 3)
  let hotfix ← leadingInt parts.2
  return (nums.getD 0 0, nums.getD 1 0, nums.getD 2 0, hotfix)

/-- `series_of`. -/
def seriesOf (P : Platform F) (s : Value F) : Except PyException PyStr := do
  let (y, m, _, _) ← parseVersion P s
  let year ← (Value.int (F := F) y).toStr P
  let month ← (Value.int (F := F) m).toStr P
  return year ++ lit "." ++ month

/-! ### Identity -/

/-- The editions of `DeviceIdentity`. -/
inductive Edition where
  | community
  | business
  | devel
  deriving DecidableEq

structure Identity (F : Type) where
  edition : Edition
  version : Value F
  series : Value F

/-- The edition of a product. -/
def editionOf (P : Platform F) (product : List (PyStr × Value F)) : Except PyException Edition := do
  let pid := P.lower (← (Value.getD product "product_id" (.str [])).toStr P)
  if lit "business" <:+: pid then return .business
  else if lit "devel" <:+: pid then return .devel
  else if pid ≠ [] then return .community
  else
    let repos := P.lower (← (Value.getD product "product_repos" (.str [])).toStr P)
    let name := P.lower (← (Value.getD product "product_name" (.str [])).toStr P)
    return if lit "business" <:+: repos ++ lit " " ++ name then .business else .community

/-- The series of a product: as the box tells it, or from the version. -/
def productSeriesOf (P : Platform F) (productSeries version : Value F) :
    Except PyException (Value F) :=
  if productSeries.truthy P then .ok productSeries
  else if version.truthy P then .str <$> seriesOf P version
  else .ok (.str [])

/-- `parse_identity`. -/
def parseIdentity (P : Platform F) (firmwareStatus : Value F) :
    Except PyException (Identity F) := do
  let product := (Value.getD firmwareStatus.entries "product" .null).entries
  let edition ← editionOf P product
  let version := (Value.getD product "product_version" .null).or P (.str [])
  let series ← productSeriesOf P (Value.getD product "product_series" .null) version
  return ⟨edition, version, series⟩

end Parsers

end Opngms
