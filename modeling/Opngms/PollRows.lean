/-
Opngms/PollRows.lean

The rows of `metrics` that a poll adds (`collect_and_store` of
`app/services/monitoring.py`), from the answers of the device (`parse_interfaces`,
`parse_gateways` and `parse_vpn` of `app/connectors/opnsense/parsers.py`).

All rows of a poll have one time and one device, and the rows of one kind of entry
have metrics of their own; so two rows have the same key only if two entries of one
kind have the same name.  A name that is missing is empty, and so is the label of a
name that is null, since the column has a default.

What computes with floating-point numbers is a parameter, as no key depends on it.
Opngms/Parsers.lean has the parsers with every exception that they raise; here a poll is one
that gets to its rows.

Main result: **`poll_rows_distinct_iff`**.
-/
import Mathlib.Data.List.Nodup
import Opngms.ConfigDiff
import Opngms.Metrics
import Opngms.Request

namespace Opngms

namespace Polling

open Json Metrics

/-! ### The answers, parsed -/

structure SystemInfo where
  cpuPct : ℚ
  memPct : ℚ
  diskPct : ℚ
  uptimeSeconds : ℚ

structure Interface where
  name : Json
  up : Bool
  bytesIn : ℚ
  bytesOut : ℚ

structure Gateway where
  name : Json
  up : Bool
  rttMs : ℚ
  lossPct : ℚ

structure Tunnel where
  name : Json
  up : Bool

/-- What computes with floating-point numbers: `num`, and `parse_system_info` of the
resources, the disks, the time and the type of the processor. -/
structure Numbers where
  num : Json → Except BuiltinError ℚ
  systemInfo : (resources disk time cputype : Json) → Except BuiltinError SystemInfo

/-- The dictionaries of a list; what is none is skipped. -/
def dicts (xs : List Json) : List Dict := xs.filterMap fun
  | .obj r => some r
  | _ => none

/-- `(x or {}).get(k, []) or []`, as it is iterated. -/
def entriesOf (x : Json) (k : String) : Except BuiltinError (List Json) := do
  let entries ← (x.orElse (.obj [])).attrGet k (.arr [])
  (entries.orElse (.arr [])).iterate

section Parsers

variable (n : Numbers)

/-- An entry of `parse_interfaces`. -/
def interfaceOf (v : Json) : Except BuiltinError Interface := do
  let name ← v.attrGet "name" (.str "")
  let linkState ← v.attrGet "link state" .null
  let bytesIn ← n.num (← v.attrGet "bytes received" .null)
  let bytesOut ← n.num (← v.attrGet "bytes transmitted" .null)
  return {
    name := name
    up := linkState.pyStr == "2"
    bytesIn := bytesIn
    bytesOut := bytesOut }

/-- `parse_interfaces`. -/
def parseInterfaces (traffic : Json) : Except BuiltinError (List Interface) := do
  let interfaces ← (traffic.orElse (.obj [])).attrGet "interfaces" .null
  match interfaces with
  | .obj kvs => (kvs.map (·.2)).mapM (interfaceOf n)
  | _ => return []

/-- An entry of `parse_gateways`. -/
def gatewayOf (g : Dict) : Except BuiltinError Gateway := do
  let status := lower (Dict.getD g "status" (.str "")).pyStr
  let rttMs ← n.num (Dict.getD g "delay" .null)
  let lossPct ← n.num (Dict.getD g "loss" .null)
  return {
    name := Dict.getD g "name" (.str "")
    up := !(["down", "force_down"].contains status)
    rttMs := rttMs
    lossPct := lossPct }

/-- `parse_gateways`. -/
def parseGateways (data : Json) : Except BuiltinError (List Gateway) := do
  let items ← entriesOf data "items"
  (dicts items).mapM (gatewayOf n)

/-- `_truthy`. -/
def isTruthy (v : Json) : Bool :=
  decide (v = .bool true) ||
    ["1", "true", "yes", "on"].contains (lower (strip v.pyStr))

/-- The name of a row of `parse_vpn`. -/
def tunnelName (row : Dict) : Json :=
  (Dict.getD row "name" .null).orElse
    ((Dict.getD row "instance" .null).orElse (Dict.getD row "if" (.str "")))

/-- An entry of `parse_vpn`. -/
def tunnelOf (row : Dict) : Tunnel where
  name := tunnelName row
  up :=
    if (Dict.get? row "connected").isSome then isTruthy (Dict.getD row "connected" .null)
    else if (Dict.get? row "peer-status").isSome then
      lower (strip (Dict.getD row "peer-status" .null).pyStr) == "online"
    else
      let hs := strip ((Dict.getD row "latest-handshake-epoch" .null).orElse
        ((Dict.getD row "latest-handshake" .null).orElse (.str ""))).pyStr
      !(["0", "", "None"].contains hs)

/-- `parse_vpn`. -/
def parseVpn (data : Json) : Except BuiltinError (List Tunnel) := do
  let rows ← entriesOf data "rows"
  return (dicts rows).map tunnelOf

end Parsers

/-! ### A poll -/

/-- What a device answers to the requests of a poll: the four of the system, and one
each for the interfaces, the gateways and the tunnels. -/
structure Answers where
  resources : Json
  disk : Json
  time : Json
  cputype : Json
  traffic : Json
  gateways : Json
  vpn : Json

/-- A row that is added; the label is a name as the device gave it. -/
structure NewMetric where
  time : Time
  deviceId : DeviceId
  tenantId : TenantId
  metric : String
  label : Json
  value : ℚ

/-- `PollState`. -/
structure PollState where
  reachable : Bool
  gateways : List Gateway

section Poll

variable (n : Numbers) (now : Time) (deviceId : DeviceId) (device : Device)

/-- `_metric`. -/
def metric (name : String) (value : ℚ) (label : Json) : NewMetric :=
  ⟨now, deviceId, device.tenantId, name, label, value⟩

/-- `1.0 if up else 0.0`. -/
def upValue (up : Bool) : ℚ := if up then 1 else 0

/-- The rows of a poll. -/
def rowsOf (info : SystemInfo) (interfaces : List Interface) (gateways : List Gateway)
    (vpn : List Tunnel) : List NewMetric :=
  let row := metric now deviceId device
  [row "cpu.pct" info.cpuPct (.str ""), row "mem.pct" info.memPct (.str ""),
      row "disk.pct" info.diskPct (.str ""), row "uptime.seconds" info.uptimeSeconds (.str "")] ++
    (interfaces.flatMap fun it =>
      [row "iface.bytes_in" it.bytesIn it.name, row "iface.bytes_out" it.bytesOut it.name,
        row "iface.up" (upValue it.up) it.name]) ++
    (gateways.flatMap fun g =>
      [row "gateway.rtt_ms" g.rttMs g.name, row "gateway.loss_pct" g.lossPct g.name,
        row "gateway.up" (upValue g.up) g.name]) ++
    vpn.map fun v => row "vpn.up" (upValue v.up) v.name

/-- `collect_and_store`: the state, and the rows that are added.  The answers are an
error where some request is refused. -/
def collectAndStore (answered : Except OpnsenseError Answers) :
    Except BuiltinError (PollState × List NewMetric) :=
  match answered with
  | .error _ => .ok (⟨false, []⟩, [])
  | .ok a => do
    let info ← n.systemInfo a.resources a.disk a.time a.cputype
    let interfaces ← parseInterfaces n a.traffic
    let gateways ← parseGateways n a.gateways
    let vpn ← parseVpn a.vpn
    return (⟨true, gateways⟩, rowsOf now deviceId device info interfaces gateways vpn)

end Poll

/-! ### The keys -/

/-- The label as the column has it: where none is given, its default. -/
def storedLabel : Json → Json
  | .null => .str ""
  | label => label

def NewMetric.key (r : NewMetric) : Time × DeviceId × String × Json :=
  (r.time, r.deviceId, r.metric, storedLabel r.label)

/-- The row as it is stored; the driver refuses a label that is no text. -/
def NewMetric.toMetric (r : NewMetric) : Option Metric :=
  match storedLabel r.label with
  | .str label => some ⟨r.time, r.deviceId, r.metric, label, r.tenantId, r.value⟩
  | _ => none

/-- `session.flush()` of the rows. -/
def flush (rows : List NewMetric) (table : Table) : Option Table := do
  let stored ← rows.mapM NewMetric.toMetric
  if h : ((table.rows ++ stored).map Metric.key).Nodup then some ⟨table.rows ++ stored, h⟩
  else none

/-! ### Names -/

/-- What `x.get("name", "")` is, where `x` is a dictionary. -/
def entryName (v : Json) : Json :=
  match v with
  | .obj r => Dict.getD r "name" (.str "")
  | _ => .null

/-- The value under a key of an answer, if the answer is a dictionary. -/
def valueUnder (answer : Json) (k : String) (default : Json) : Json :=
  match answer with
  | .obj kvs => Dict.getD kvs k default
  | _ => default

def dictsOf : Json → List Dict
  | .arr xs => dicts xs
  | _ => []

/-- The names of the interfaces, gateways and tunnels of an answer. -/
def Answers.interfaceNames (a : Answers) : List Json :=
  match valueUnder a.traffic "interfaces" .null with
  | .obj interfaces => interfaces.map fun kv => entryName kv.2
  | _ => []

def Answers.gatewayNames (a : Answers) : List Json :=
  (dictsOf (valueUnder a.gateways "items" (.arr []))).map fun g => Dict.getD g "name" (.str "")

def Answers.tunnelNames (a : Answers) : List Json :=
  (dictsOf (valueUnder a.vpn "rows" (.arr []))).map tunnelName

/-- No two interfaces have one name, no two gateways, and no two tunnels. -/
def Answers.NamesDistinct (a : Answers) : Prop :=
  (a.interfaceNames.map storedLabel).Nodup ∧ (a.gatewayNames.map storedLabel).Nodup ∧
    (a.tunnelNames.map storedLabel).Nodup

theorem attrGet_orElse {x v d : Json} {k : String}
    (h : (x.orElse (.obj [])).attrGet k d = .ok v) : v = valueUnder x k d := by
  unfold orElse at h
  split_ifs at h with htruthy
  · cases x with
    | obj kvs => exact (Except.ok.inj h).symm
    | _ => cases h
  · obtain rfl := Except.ok.inj h
    cases x with
    | obj kvs =>
      -- only the empty dictionary is false
      have hempty : kvs = [] := by simpa [truthy] using htruthy
      rw [hempty]
      rfl
    | _ => rfl

theorem dicts_iterate {v : Json} {entries : List Json}
    (h : (v.orElse (.arr [])).iterate = .ok entries) :
    dicts entries = dictsOf v := by
  have hstrs : ∀ ss : List String, dicts (ss.map Json.str) = [] := by
    intro ss
    exact List.filterMap_eq_nil_iff.mpr fun j hj => by
      obtain ⟨s, -, rfl⟩ := List.mem_map.mp hj
      rfl
  unfold orElse at h
  split_ifs at h with htruthy
  · cases v with
    | arr xs =>
      obtain rfl := Except.ok.inj h
      rfl
    | str s =>
      obtain rfl := Except.ok.inj h
      have hmap := hstrs (s.toList.map fun c => String.ofList [c])
      rwa [List.map_map] at hmap
    | obj kvs =>
      obtain rfl := Except.ok.inj h
      exact hstrs (Dict.keys kvs)
    | _ => cases h
  · obtain rfl := Except.ok.inj h
    cases v with
    | arr xs =>
      have hempty : xs = [] := by simpa [truthy] using htruthy
      rw [hempty]
      rfl
    | _ => rfl

theorem entriesOf_dicts {x : Json} {k : String} {entries : List Json}
    (h : entriesOf x k = .ok entries) : dicts entries = dictsOf (valueUnder x k (.arr [])) := by
  obtain ⟨v, hv, h⟩ := except_bind_ok h
  rw [dicts_iterate h, attrGet_orElse hv]

theorem mapM_map {α β γ : Type} {f : α → Except BuiltinError β} {g : α → γ} {g' : β → γ}
    (hf : ∀ a b, f a = .ok b → g' b = g a) {as : List α} {bs : List β}
    (h : as.mapM f = .ok bs) : bs.map g' = as.map g := by
  induction as generalizing bs with
  | nil =>
    obtain rfl := Except.ok.inj h
    rfl
  | cons a as ih =>
    rw [List.mapM_cons] at h
    obtain ⟨b, hb, h⟩ := except_bind_ok h
    obtain ⟨bs', hbs', h⟩ := except_bind_ok h
    obtain rfl := Except.ok.inj h
    rw [List.map_cons, List.map_cons, hf a b hb, ih hbs']

section Names

variable {n : Numbers}

theorem parseInterfaces_names {a : Answers} {interfaces : List Interface}
    (h : parseInterfaces n a.traffic = .ok interfaces) :
    interfaces.map Interface.name = a.interfaceNames := by
  obtain ⟨v, hv, h⟩ := except_bind_ok h
  unfold Answers.interfaceNames
  rw [← attrGet_orElse hv]
  have hname : ∀ w it, interfaceOf n w = .ok it → it.name = entryName w := by
    intro w it hit
    obtain ⟨name, hget, hit⟩ := except_bind_ok hit
    obtain ⟨linkState, -, hit⟩ := except_bind_ok hit
    obtain ⟨received, -, hit⟩ := except_bind_ok hit
    obtain ⟨bytesIn, -, hit⟩ := except_bind_ok hit
    obtain ⟨transmitted, -, hit⟩ := except_bind_ok hit
    obtain ⟨bytesOut, -, hit⟩ := except_bind_ok hit
    obtain rfl := Except.ok.inj hit
    cases w with
    | obj r => exact (Except.ok.inj hget).symm
    | _ => cases hget
  cases v with
  | obj kvs =>
    rw [mapM_map hname h, List.map_map]
    rfl
  | _ =>
    obtain rfl := Except.ok.inj h
    rfl

theorem parseGateways_names {a : Answers} {gateways : List Gateway}
    (h : parseGateways n a.gateways = .ok gateways) :
    gateways.map Gateway.name = a.gatewayNames := by
  obtain ⟨items, hitems, h⟩ := except_bind_ok h
  rw [Answers.gatewayNames, ← entriesOf_dicts hitems]
  refine mapM_map (fun g gw hg => ?_) h
  obtain ⟨rtt, -, hg⟩ := except_bind_ok hg
  obtain ⟨loss, -, hg⟩ := except_bind_ok hg
  obtain rfl := Except.ok.inj hg
  rfl

theorem parseVpn_names {a : Answers} {vpn : List Tunnel} (h : parseVpn a.vpn = .ok vpn) :
    vpn.map Tunnel.name = a.tunnelNames := by
  obtain ⟨rows, hrows, h⟩ := except_bind_ok h
  obtain rfl := Except.ok.inj h
  rw [Answers.tunnelNames, ← entriesOf_dicts hrows, List.map_map]
  rfl

end Names

/-! ### Which rows share a key -/

section Groups

variable {α β : Type}

def labelled (metrics : List α) (labels : List β) : List (α × β) :=
  labels.flatMap fun label => metrics.map fun m => (m, label)

theorem fst_mem_of_labelled {metrics : List α} {labels : List β} {p : α × β}
    (h : p ∈ labelled metrics labels) : p.1 ∈ metrics := by
  obtain ⟨label, -, hp⟩ := List.mem_flatMap.mp h
  obtain ⟨m, hm, rfl⟩ := List.mem_map.mp hp
  exact hm

theorem nodup_labelled {metrics : List α} (hne : metrics ≠ []) (hnodup : metrics.Nodup)
    {labels : List β} : (labelled metrics labels).Nodup ↔ labels.Nodup := by
  have hdisjoint : ∀ a b : β, (metrics.map fun m => (m, a)).Disjoint (metrics.map fun m => (m, b)) ↔
      a ≠ b := by
    intro a b
    constructor
    · rintro hdis rfl
      obtain ⟨m, hm⟩ := List.exists_mem_of_ne_nil _ hne
      have hmem : (m, a) ∈ metrics.map fun m => (m, a) := List.mem_map_of_mem hm
      exact hdis hmem hmem
    · intro hab p hp hp'
      obtain ⟨m, -, rfl⟩ := List.mem_map.mp hp
      obtain ⟨m', -, heq⟩ := List.mem_map.mp hp'
      exact hab (Prod.mk.inj heq).2.symm
  have hinner : ∀ label ∈ labels, (metrics.map fun m => (m, label)).Nodup := fun label _ =>
    hnodup.map fun m m' heq => (Prod.mk.inj heq).1
  unfold labelled
  rw [List.nodup_flatMap, and_iff_right hinner]
  exact List.Pairwise.iff hdisjoint

/-- **Groups of rows with metrics of their own** have distinct keys if each of them
has distinct labels. -/
theorem nodup_groups {groups : List (List α × List β)} (hne : ∀ g ∈ groups, g.1 ≠ [])
    (hnodup : (groups.flatMap (·.1)).Nodup) :
    (groups.flatMap fun g => labelled g.1 g.2).Nodup ↔ ∀ g ∈ groups, g.2.Nodup := by
  induction groups with
  | nil => simp
  | cons g groups ih =>
    rw [List.flatMap_cons, List.nodup_append] at hnodup
    obtain ⟨hown, hrest, hapart⟩ := hnodup
    obtain ⟨hfirst, hne⟩ := List.forall_mem_cons.mp hne
    have hdisjoint : ∀ p ∈ labelled g.1 g.2, ∀ p' ∈ groups.flatMap fun g => labelled g.1 g.2,
        p ≠ p' := by
      rintro p hp _ hp' rfl
      obtain ⟨g', hg', hp'⟩ := List.mem_flatMap.mp hp'
      refine hapart p.1 (fst_mem_of_labelled hp) p.1 (List.mem_flatMap.mpr ⟨g', hg', ?_⟩) rfl
      exact fst_mem_of_labelled hp'
    rw [List.flatMap_cons, List.nodup_append, nodup_labelled hfirst hown, ih hne hrest,
      and_iff_left hdisjoint, List.forall_mem_cons]

end Groups

section Keys

variable {n : Numbers} {now : Time} {deviceId : DeviceId} {device : Device}

/-- The metrics and labels of a poll. -/
def groups (interfaces gateways tunnels : List Json) : List (List String × List Json) :=
  [(["cpu.pct", "mem.pct", "disk.pct", "uptime.seconds"], [.str ""]),
    (["iface.bytes_in", "iface.bytes_out", "iface.up"], interfaces.map storedLabel),
    (["gateway.rtt_ms", "gateway.loss_pct", "gateway.up"], gateways.map storedLabel),
    (["vpn.up"], tunnels.map storedLabel)]

theorem rowsOf_keys (info : SystemInfo) (interfaces : List Interface) (gateways : List Gateway)
    (vpn : List Tunnel) :
    (rowsOf now deviceId device info interfaces gateways vpn).map NewMetric.key =
      ((groups (interfaces.map Interface.name) (gateways.map Gateway.name)
        (vpn.map Tunnel.name)).flatMap fun g => labelled g.1 g.2).map
          fun p => (now, deviceId, p.1, p.2) := by
  have hempty : storedLabel (.str "") = .str "" := rfl
  simp only [rowsOf, groups, labelled, metric, NewMetric.key, hempty, List.map_append,
    List.map_cons, List.map_nil, List.map_map, List.map_flatMap, List.flatMap_cons,
    List.flatMap_nil, List.flatMap_map, List.append_nil, List.append_assoc, List.cons_append,
    List.nil_append, Function.comp_apply, List.cons.injEq, List.append_cancel_left_eq, true_and]
  -- a tunnel has one row
  exact List.map_eq_flatMap

theorem rowsOf_distinct_iff (info : SystemInfo) (interfaces : List Interface)
    (gateways : List Gateway) (vpn : List Tunnel) :
    ((rowsOf now deviceId device info interfaces gateways vpn).map NewMetric.key).Nodup ↔
      ((interfaces.map Interface.name).map storedLabel).Nodup ∧
        ((gateways.map Gateway.name).map storedLabel).Nodup ∧
        ((vpn.map Tunnel.name).map storedLabel).Nodup := by
  have hinj : Function.Injective fun p : String × Json => (now, deviceId, p.1, p.2) := by
    intro p p' heq
    simp only [Prod.mk.injEq, true_and] at heq
    exact Prod.ext heq.1 heq.2
  rw [rowsOf_keys, List.nodup_map_iff hinj, nodup_groups]
  · simp [groups]
  · simp [groups]
  · simp [groups]

/-! ### Storing them -/

theorem toMetric_key {r : NewMetric} {m : Metric} (h : r.toMetric = some m) :
    (m.time, m.deviceId, m.metric, Json.str m.label) = r.key := by
  unfold NewMetric.toMetric at h
  unfold NewMetric.key
  split at h
  · rename_i label hlabel
    obtain rfl := Option.some.inj h
    rw [hlabel]
  · cases h

theorem mapM_toMetric {rows : List NewMetric} (h : ∀ r ∈ rows, r.toMetric.isSome) :
    ∃ stored, rows.mapM NewMetric.toMetric = some stored ∧
      (stored.map fun m => (m.time, m.deviceId, m.metric, Json.str m.label)) =
        rows.map NewMetric.key := by
  induction rows with
  | nil => exact ⟨[], rfl, rfl⟩
  | cons r rows ih =>
    obtain ⟨hr, hrows⟩ := List.forall_mem_cons.mp h
    obtain ⟨m, hm⟩ := Option.isSome_iff_exists.mp hr
    obtain ⟨stored, hstored, hkeys⟩ := ih hrows
    refine ⟨m :: stored, ?_, ?_⟩
    · rw [List.mapM_cons, hm, hstored]
      rfl
    · rw [List.map_cons, List.map_cons, toMetric_key hm, hkeys]

/-- **Where no row of the poll is stored yet**, and the labels are texts, the rows
are stored exactly if their keys are distinct. -/
theorem flush_isSome_iff {rows : List NewMetric} {table : Table}
    (hpoll : ∀ r ∈ rows, r.time = now ∧ r.deviceId = deviceId)
    (hnew : ∀ m ∈ table.rows, m.time = now → m.deviceId ≠ deviceId)
    (htext : ∀ r ∈ rows, r.toMetric.isSome) :
    (flush rows table).isSome ↔ (rows.map NewMetric.key).Nodup := by
  obtain ⟨stored, hstored, hkeys⟩ := mapM_toMetric htext
  have hinj : Function.Injective fun k : Time × DeviceId × String × String =>
      (k.1, k.2.1, k.2.2.1, Json.str k.2.2.2) := by
    rintro ⟨t, d, m, l⟩ ⟨t', d', m', l'⟩ heq
    simpa using heq
  have hnodup : (stored.map Metric.key).Nodup ↔ (rows.map NewMetric.key).Nodup := by
    rw [← hkeys, ← List.nodup_map_iff hinj, List.map_map]
    rfl
  -- what is stored already has another time or another device
  have hapart : ∀ k ∈ table.rows.map Metric.key, ∀ k' ∈ stored.map Metric.key, k ≠ k' := by
    rintro _ hk _ hk' rfl
    obtain ⟨m, hm, rfl⟩ := List.mem_map.mp hk
    obtain ⟨m', hm', heq⟩ := List.mem_map.mp hk'
    have hmem := List.mem_map_of_mem
      (f := fun m : Metric => (m.time, m.deviceId, m.metric, Json.str m.label)) hm'
    rw [hkeys] at hmem
    obtain ⟨r, hr, hrow⟩ := List.mem_map.mp hmem
    obtain ⟨htime, hdevice⟩ := hpoll r hr
    obtain ⟨htime', hkey⟩ := Prod.mk.inj hrow
    obtain ⟨hdevice', -⟩ := Prod.mk.inj hkey
    obtain ⟨htime'', hkey⟩ := Prod.mk.inj heq
    obtain ⟨hdevice'', -⟩ := Prod.mk.inj hkey
    exact hnew m hm (htime''.symm.trans (htime'.symm.trans htime))
      (hdevice''.symm.trans (hdevice'.symm.trans hdevice))
  have hstores : ((table.rows ++ stored).map Metric.key).Nodup ↔
      (rows.map NewMetric.key).Nodup := by
    rw [List.map_append, List.nodup_append, hnodup]
    exact ⟨fun h => h.2.1, fun h => ⟨table.nodup, h, hapart⟩⟩
  have hflush : flush rows table =
      if h : ((table.rows ++ stored).map Metric.key).Nodup then some ⟨table.rows ++ stored, h⟩
      else none := by
    rw [flush, hstored]
    rfl
  rw [hflush, ← hstores]
  split_ifs with hkey
  · exact iff_of_true rfl hkey
  · exact iff_of_false Bool.false_ne_true hkey

theorem rowsOf_poll {info : SystemInfo} {interfaces : List Interface} {gateways : List Gateway}
    {vpn : List Tunnel} :
    ∀ r ∈ rowsOf now deviceId device info interfaces gateways vpn,
      r.time = now ∧ r.deviceId = deviceId := by
  intro r hr
  have hkey := List.mem_map_of_mem (f := NewMetric.key) hr
  rw [rowsOf_keys] at hkey
  obtain ⟨p, -, hp⟩ := List.mem_map.mp hkey
  obtain ⟨htime, hrest⟩ := Prod.mk.inj hp
  exact ⟨htime.symm, (Prod.mk.inj hrest).1.symm⟩

/-- **The rows of a poll have distinct keys exactly if the entries of one kind have
distinct names**; then, and only then, the poll can store them. -/
theorem poll_rows_distinct_iff {a : Answers} {state : PollState} {rows : List NewMetric}
    (h : collectAndStore n now deviceId device (.ok a) = .ok (state, rows)) :
    ((rows.map NewMetric.key).Nodup ↔ a.NamesDistinct) ∧
      ∀ table : Table, (∀ m ∈ table.rows, m.time = now → m.deviceId ≠ deviceId) →
        (∀ r ∈ rows, r.toMetric.isSome) → ((flush rows table).isSome ↔ a.NamesDistinct) := by
  obtain ⟨info, -, h⟩ := except_bind_ok h
  obtain ⟨interfaces, hinterfaces, h⟩ := except_bind_ok h
  obtain ⟨gateways, hgateways, h⟩ := except_bind_ok h
  obtain ⟨vpn, hvpn, h⟩ := except_bind_ok h
  obtain ⟨rfl, rfl⟩ := Prod.mk.inj (Except.ok.inj h)
  have hkeys := @rowsOf_distinct_iff now deviceId device info interfaces gateways vpn
  rw [parseInterfaces_names hinterfaces, parseGateways_names hgateways,
    parseVpn_names hvpn] at hkeys
  exact ⟨hkeys, fun table hnew htext => (flush_isSome_iff rowsOf_poll hnew htext).trans hkeys⟩

end Keys

def zeros : Numbers := ⟨fun _ => .ok 0, fun _ _ _ _ => .ok ⟨0, 0, 0, 0⟩⟩

/-- A device that answers with two gateways. -/
def twoGateways (first second : Dict) : Answers where
  resources := .obj []
  disk := .obj []
  time := .obj []
  cputype := .arr []
  traffic := .obj []
  gateways := .obj [("items", .arr [.obj first, .obj second])]
  vpn := .obj []

def twoGatewaysRows (first second : Dict) : List NewMetric :=
  let g := fun d : Dict => (⟨Dict.getD d "name" (.str ""), true, 0, 0⟩ : Gateway)
  rowsOf 0 1 ⟨1, none, true⟩ ⟨0, 0, 0, 0⟩ [] [g first, g second] []

theorem namedGateways_distinct :
    ((twoGatewaysRows [("name", .str "WAN")] [("name", .str "LTE")]).map NewMetric.key).Nodup :=
  (poll_rows_distinct_iff (show collectAndStore zeros 0 1 ⟨1, none, true⟩
    (.ok (twoGateways [("name", .str "WAN")] [("name", .str "LTE")])) = .ok (_, _) from rfl)).1.mpr
      (by unfold Answers.NamesDistinct; decide)

/-- **Two gateways without a name have rows with one key**, and nothing of the poll
is stored. -/
theorem namelessGateways_collide :
    ∃ state rows, collectAndStore zeros 0 1 ⟨1, none, true⟩ (.ok (twoGateways [] [])) =
        .ok (state, rows) ∧ ¬ (rows.map NewMetric.key).Nodup ∧
      (flush rows ⟨[], List.nodup_nil⟩).isNone := by
  refine ⟨_, _, rfl, ?_, ?_⟩
  · decide +kernel
  · decide +kernel

end Polling

end Opngms
