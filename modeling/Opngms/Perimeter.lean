/-
Opngms/Perimeter.lean

The perimeter rollup (`app/services/perimeter.py`) and the table of attackers in
a report (`perimeter_top` of `app/services/reporting/aggregation.py`).

An ingest keeps one row for each device, kind and address: how often it was
seen, first and last.  The row's `last_seen` is the time of the newest
observation that was accepted (`Summarised`), and a report takes the rows whose
`last_seen` lies in its window.  So an address that was seen in the window is
missing from the report exactly if on every device it was seen again after it
(**`perimeter_listed_iff`**).
-/
import Mathlib.Algebra.GroupWithZero.Nat
import Mathlib.Data.List.MinMax
import Mathlib.Data.List.Dedup
import Opngms.IngestRuns

namespace Opngms

namespace Perimeter

open Ingest (newerThan Reached not_newerThan newerThan_iff)

/-! ### Observations -/

/-- `kind`, which is also the source of the cursor. -/
inductive Kind where
  | firewallBlock
  | loginFailed
  deriving DecidableEq

/-- `_KINDS`. -/
def kinds : List Kind := [.firewallBlock, .loginFailed]

theorem mem_kinds (kind : Kind) : kind ∈ kinds := by
  cases kind <;> decide

/-- A line of a log with its address; `time` is there if its timestamp is a
date. -/
structure Observation where
  id : Nat
  time : Option Time
  srcIp : String
  attributes : Dict
  deriving DecidableEq

/-- An observation as a poll gives it: a line without a date has the time of the
clock. -/
structure Seen where
  obs : Observation
  time : Time
  dated : ∀ t, obs.time = some t → time = t

/-- A line seen while the clock reads `now`. -/
def Observation.seenAt (now : Time) (o : Observation) : Seen where
  obs := o
  time := o.time.getD now
  dated t h := by rw [h, Option.getD_some]

/-! ### The rollup -/

/-- A row of `perimeter_attacker`. -/
structure AttackerRow where
  deviceId : DeviceId
  tenantId : TenantId
  kind : Kind
  srcIp : String
  count : Nat
  firstSeen : Time
  lastSeen : Time
  detail : Dict

/-- The primary key of `perimeter_attacker`. -/
abbrev Key := DeviceId × Kind × String

def AttackerRow.key (r : AttackerRow) : Key := (r.deviceId, r.kind, r.srcIp)

/-- The table: a key has one row. -/
structure AttackerTable where
  rows : List AttackerRow
  nodup : (rows.map AttackerRow.key).Nodup

namespace AttackerTable

def find (table : AttackerTable) (key : Key) : Option AttackerRow :=
  table.rows.find? fun r => r.key = key

theorem find_eq_some {table : AttackerTable} {key : Key} {r : AttackerRow} :
    table.find key = some r ↔ r ∈ table.rows ∧ r.key = key := by
  constructor
  · intro h
    have hkey := List.find?_some h
    exact ⟨List.mem_of_find?_eq_some h, by simpa using hkey⟩
  · rintro ⟨hmem, rfl⟩
    have hsome : (table.find r.key).isSome = true := by
      rw [find, List.find?_isSome]
      exact ⟨r, hmem, by simp⟩
    obtain ⟨r', hr'⟩ := Option.isSome_iff_exists.mp hsome
    have hkey : r'.key = r.key := by simpa using List.find?_some hr'
    rw [hr', List.inj_on_of_nodup_map table.nodup (List.mem_of_find?_eq_some hr') hmem hkey]

def putRows (rows : List AttackerRow) (r : AttackerRow) : List AttackerRow :=
  if rows.any fun r' => r'.key = r.key then rows.map fun r' => if r'.key = r.key then r else r'
  else rows ++ [r]

theorem putRows_keys (rows : List AttackerRow) (r : AttackerRow) :
    (putRows rows r).map AttackerRow.key =
      if rows.any fun r' => r'.key = r.key then rows.map AttackerRow.key
      else rows.map AttackerRow.key ++ [r.key] := by
  unfold putRows
  split_ifs
  · rw [List.map_map]
    apply List.map_congr_left
    intro r' _
    by_cases h : r'.key = r.key
    · simp [h]
    · simp [h]
  · simp

/-- The row is written, in place of the one with its key. -/
def put (table : AttackerTable) (r : AttackerRow) : AttackerTable where
  rows := putRows table.rows r
  nodup := by
    rw [putRows_keys]
    split_ifs with hany
    · exact table.nodup
    · refine List.nodup_append.mpr ⟨table.nodup, List.nodup_singleton _, ?_⟩
      rintro _ ha _ hb rfl
      obtain ⟨r', hr', hkey⟩ := List.mem_map.mp ha
      apply hany
      rw [List.mem_singleton.mp hb] at hkey
      exact List.any_eq_true.mpr ⟨r', hr', by simpa using hkey⟩

theorem mem_put {table : AttackerTable} {r r' : AttackerRow} :
    r' ∈ (table.put r).rows ↔ r' = r ∨ r' ∈ table.rows ∧ r'.key ≠ r.key := by
  show r' ∈ putRows table.rows r ↔ _
  unfold putRows
  split_ifs with hany
  · rw [List.mem_map]
    constructor
    · rintro ⟨x, hx, rfl⟩
      by_cases h : x.key = r.key
      · simp [h]
      · rw [if_neg h]
        exact .inr ⟨hx, h⟩
    · rintro (rfl | ⟨hmem, hne⟩)
      · obtain ⟨x, hx, hkey⟩ := List.any_eq_true.mp hany
        exact ⟨x, hx, by rw [if_pos (of_decide_eq_true hkey)]⟩
      · exact ⟨r', hmem, if_neg hne⟩
  · rw [List.mem_append, List.mem_singleton, or_comm]
    refine or_congr Iff.rfl ⟨fun h => ⟨h, fun hkey => ?_⟩, And.left⟩
    exact hany (List.any_eq_true.mpr ⟨r', h, by simpa using hkey⟩)

/-- **A write is seen under its key, and nowhere else.** -/
theorem find_put (table : AttackerTable) (r : AttackerRow) (key : Key) :
    (table.put r).find key = if key = r.key then some r else table.find key := by
  ext r'
  rw [find_eq_some, mem_put]
  split_ifs with h
  · subst h
    rw [Option.some.injEq]
    constructor
    · rintro ⟨rfl | ⟨-, hne⟩, hkey⟩
      · rfl
      · exact absurd hkey hne
    · rintro rfl
      exact ⟨.inl rfl, rfl⟩
  · rw [find_eq_some]
    constructor
    · rintro ⟨rfl | ⟨hmem, -⟩, hkey⟩
      · exact absurd hkey.symm h
      · exact ⟨hmem, hkey⟩
    · rintro ⟨hmem, rfl⟩
      exact ⟨.inr ⟨hmem, h⟩, rfl⟩

end AttackerTable

/-- `max` of the times of a group. -/
def newest (group : List Seen) : Time := ((group.map (·.time)).max?).getD 0

/-- `min` of the times of a group. -/
def oldest (group : List Seen) : Time := ((group.map (·.time)).min?).getD 0

/-- `sorted` of a set of texts. -/
def sortedTexts (texts : List String) : List String :=
  (texts.dedup).mergeSort fun a b => decide (a ≤ b)

/-- `_detail`. -/
def detail (kind : Kind) (group : List Seen) : Dict :=
  let values (k : String) := (group.map fun r => Dict.getD r.obs.attributes k .null).filter
    Json.truthy
  match kind with
  | .firewallBlock =>
    [("top_ports", .arr (((sortedTexts ((values "dstport").map Json.pyStr)).take 10).map .str))]
  | .loginFailed =>
    [("usernames", .arr (((sortedTexts ((values "username").map Json.pyStr)).take 10).map .str)),
      ("last_username", ((group.getLast?).map fun r =>
        Dict.getD r.obs.attributes "username" .null).getD .null)]

/-- The row that `_upsert` writes over `old`. -/
def upsertRow (deviceId : DeviceId) (device : Device) (kind : Kind) (ip : String)
    (group : List Seen) (old : Option AttackerRow) : AttackerRow :=
  match old with
  | none =>
    { deviceId := deviceId
      tenantId := device.tenantId
      kind := kind
      srcIp := ip
      count := group.length
      firstSeen := oldest group
      lastSeen := newest group
      detail := detail kind group }
  | some r =>
    { r with
      count := r.count + group.length
      lastSeen := max r.lastSeen (newest group)
      detail := detail kind group }

/-- `_upsert`. -/
def upsert (deviceId : DeviceId) (device : Device) (kind : Kind) (table : AttackerTable)
    (g : String × List Seen) : AttackerTable :=
  table.put (upsertRow deviceId device kind g.1 g.2 (table.find (deviceId, kind, g.1)))

/-- The rows that are newer than the cursor. -/
def accept (since : Option Time) (rows : List Seen) : List Seen :=
  rows.filter fun r => newerThan since r.time

/-- `by_ip`: the rows by their addresses, in the order in which these appear. -/
def byIp (rows : List Seen) : List (String × List Seen) :=
  ((rows.map (·.obs.srcIp)).eraseDups).map fun ip => (ip, rows.filter fun r => r.obs.srcIp = ip)

/-- The tables of the perimeter ingest. -/
structure Rollup where
  table : AttackerTable
  /-- `IngestCursor.last_time`. -/
  cursors : DeviceId → Kind → Option Time

/-- `_ingest_kind`. -/
def ingestKind (deviceId : DeviceId) (device : Device) (kind : Kind) (fetched : List Seen)
    (db : Rollup) : Rollup :=
  let rows := accept (db.cursors deviceId kind) fetched
  if rows.isEmpty then db
  else
    { table := (byIp rows).foldl (upsert deviceId device kind) db.table
      cursors := Function.update db.cursors deviceId
        (Function.update (db.cursors deviceId) kind (some (newest rows))) }

/-- `ingest_perimeter`; a kind that is unavailable is left out. -/
def ingestPerimeter (deviceId : DeviceId) (device : Device) (fetched : Kind → Option (List Seen))
    (db : Rollup) : Rollup :=
  kinds.foldl (fun db kind =>
    match fetched kind with
    | some rows => ingestKind deviceId device kind rows db
    | none => db) db

/-! ### The table of a report -/

/-- A `PerimeterRow`. -/
structure PerimeterRow where
  srcIp : String
  country : String
  count : Nat
  lastSeen : Time
  label : String

/-- `_perimeter_label`. -/
def perimeterLabel (kind : Kind) (detail : Dict) : String :=
  match kind with
  | .firewallBlock =>
    match Dict.get? detail "top_ports" with
    | some (.arr (port :: _)) => port.pyStr
    | _ => ""
  | .loginFailed => ((Dict.getD detail "last_username" .null).orElse (.str "")).pyStr

/-- What a report asks for. -/
structure TopQuery where
  tenantId : TenantId
  kind : Kind
  frm : Time
  to_ : Time
  geoip : Option (String → Option String)
  deviceId : Option DeviceId

/-- The `WHERE` clause of `perimeter_top`. -/
def TopQuery.active (q : TopQuery) (r : AttackerRow) : Bool :=
  decide (r.tenantId = q.tenantId ∧ r.kind = q.kind ∧ q.frm ≤ r.lastSeen ∧ r.lastSeen < q.to_ ∧
    ∀ d ∈ q.deviceId, r.deviceId = d)

/-- The attackers of the rows that a query selects, with the most frequent
first. -/
def rankedAttackers (q : TopQuery) (table : AttackerTable) : List PerimeterRow :=
  let active := table.rows.filter q.active
  let groups := ((active.map (·.srcIp)).eraseDups).map fun ip =>
    (ip, active.filter fun r => r.srcIp = ip)
  let out := groups.map fun g =>
    { srcIp := g.1
      country := ((q.geoip.bind fun country => country g.1).filter (· != "")).getD "UNKNOWN"
      count := (g.2.map (·.count)).sum
      lastSeen := ((g.2.map (·.lastSeen)).max?).getD 0
      label := ((g.2.argmax (·.lastSeen)).map fun r => perimeterLabel q.kind r.detail).getD ""
      : PerimeterRow }
  out.mergeSort fun a b => decide (b.count < a.count ∨ a.count = b.count ∧ a.srcIp ≤ b.srcIp)

/-- `perimeter_top`. -/
def perimeterTop (q : TopQuery) (limit : Nat) (table : AttackerTable) : List PerimeterRow :=
  (rankedAttackers q table).take limit

/-! ### What the rollup keeps -/

theorem le_newest {group : List Seen} {a : Seen} (h : a ∈ group) : a.time ≤ newest group := by
  have hmem : a.time ∈ group.map (·.time) := List.mem_map_of_mem h
  obtain ⟨m, hm⟩ := Option.isSome_iff_exists.mp
    (List.isSome_max?_iff.mpr (List.ne_nil_of_mem hmem))
  rw [newest, hm, Option.getD_some]
  exact (List.max?_eq_some_iff.mp hm).2 _ hmem

theorem newest_mem {group : List Seen} (h : group ≠ []) : ∃ a ∈ group, a.time = newest group := by
  have hne : group.map (·.time) ≠ [] := by simpa using h
  obtain ⟨m, hm⟩ := Option.isSome_iff_exists.mp (List.isSome_max?_iff.mpr hne)
  obtain ⟨a, ha, htime⟩ := List.mem_map.mp (List.max?_eq_some_iff.mp hm).1
  exact ⟨a, ha, by rw [newest, hm, Option.getD_some, htime]⟩

/-- What a row says of the observations that were accepted for its key: how many
they are, and when the newest was made. -/
def Summarises (tenantId : TenantId) (seen : List Seen) : Option AttackerRow → Prop
  | none => seen = []
  | some r =>
    r.tenantId = tenantId ∧ r.count = seen.length ∧ (∃ a ∈ seen, a.time = r.lastSeen) ∧
      ∀ a ∈ seen, a.time ≤ r.lastSeen

section Upsert

variable {deviceId : DeviceId} {device : Device} {kind : Kind} {ip : String} {group : List Seen}

/-- **An upsert keeps the summary.** -/
theorem Summarises.upsert {seen : List Seen} {old : Option AttackerRow}
    (h : Summarises device.tenantId seen old) (hgroup : group ≠ []) :
    Summarises device.tenantId (seen ++ group)
      (some (upsertRow deviceId device kind ip group old)) := by
  obtain ⟨a, ha, hnewest⟩ := newest_mem hgroup
  cases old with
  | none =>
    obtain rfl : seen = [] := h
    exact ⟨rfl, rfl, ⟨a, ha, hnewest⟩, fun b hb => le_newest hb⟩
  | some r =>
    obtain ⟨htenant, hcount, ⟨b, hb, hlast⟩, hle⟩ := h
    refine ⟨htenant, ?_, ?_, ?_⟩
    · show r.count + group.length = (seen ++ group).length
      rw [hcount, List.length_append]
    · show ∃ x ∈ seen ++ group, x.time = max r.lastSeen (newest group)
      rcases max_choice r.lastSeen (newest group) with hmax | hmax
      · exact ⟨b, List.mem_append_left _ hb, hlast.trans hmax.symm⟩
      · exact ⟨a, List.mem_append_right _ ha, hnewest.trans hmax.symm⟩
    · intro x hx
      show x.time ≤ max r.lastSeen (newest group)
      rcases List.mem_append.mp hx with hx | hx
      · exact le_max_of_le_left (hle x hx)
      · exact le_max_of_le_right (le_newest hx)

theorem upsertRow_key (table : AttackerTable) :
    (upsertRow deviceId device kind ip group (table.find (deviceId, kind, ip))).key =
      (deviceId, kind, ip) := by
  cases hold : table.find (deviceId, kind, ip) with
  | none => rfl
  | some r => exact (AttackerTable.find_eq_some.mp hold).2

theorem find_upserts {groups : List (String × List Seen)} (hnodup : (groups.map (·.1)).Nodup)
    (table : AttackerTable) :
    (∀ g ∈ groups, (groups.foldl (upsert deviceId device kind) table).find (deviceId, kind, g.1) =
        some (upsertRow deviceId device kind g.1 g.2 (table.find (deviceId, kind, g.1)))) ∧
      ∀ key, (∀ g ∈ groups, key ≠ (deviceId, kind, g.1)) →
        (groups.foldl (upsert deviceId device kind) table).find key = table.find key := by
  induction groups generalizing table with
  | nil => exact ⟨fun _ h => absurd h List.not_mem_nil, fun _ _ => rfl⟩
  | cons g groups ih =>
    obtain ⟨hg, hrest⟩ := List.nodup_cons.mp hnodup
    obtain ⟨hown, hother⟩ := ih hrest (upsert deviceId device kind table g)
    have hput : ∀ key, (upsert deviceId device kind table g).find key =
        if key = (deviceId, kind, g.1) then
          some (upsertRow deviceId device kind g.1 g.2 (table.find (deviceId, kind, g.1)))
        else table.find key := by
      intro key
      rw [upsert, AttackerTable.find_put, upsertRow_key]
    have hne : ∀ g' ∈ groups, (deviceId, kind, g'.1) ≠ (deviceId, kind, g.1) := by
      intro g' hg' heq
      have hip : g'.1 = g.1 := (Prod.mk.inj (Prod.mk.inj heq).2).2
      exact hg (List.mem_map.mpr ⟨g', hg', hip⟩)
    constructor
    · intro g' hg'
      rw [List.foldl_cons]
      rcases List.mem_cons.mp hg' with rfl | hg'
      · rw [hother _ fun g'' hg'' => (hne g'' hg'').symm, hput, if_pos rfl]
      · rw [hown g' hg', hput, if_neg (hne g' hg')]
    · intro key hkey
      rw [List.foldl_cons, hother key fun g' hg' => hkey g' (List.mem_cons_of_mem _ hg'), hput,
        if_neg (hkey g List.mem_cons_self)]

theorem nodup_eraseDups {α : Type} [DecidableEq α] (xs : List α) : xs.eraseDups.Nodup := by
  induction hn : xs.length using Nat.strong_induction_on generalizing xs with
  | _ n ih =>
    cases xs with
    | nil => exact List.nodup_nil
    | cons x xs =>
      have hlt : (xs.filter fun b => !b == x).length < n := by
        have hle := List.length_filter_le (fun b => !b == x) xs
        rw [← hn, List.length_cons]
        omega
      rw [List.eraseDups_cons, List.nodup_cons, List.mem_eraseDups]
      refine ⟨fun hmem => ?_, ih _ hlt _ rfl⟩
      simpa using (List.mem_filter.mp hmem).2

theorem byIp_nodup (rows : List Seen) : ((byIp rows).map (·.1)).Nodup := by
  rw [byIp, List.map_map]
  show (List.map id _).Nodup
  rw [List.map_id]
  exact nodup_eraseDups _

theorem mem_byIp {rows : List Seen} {g : String × List Seen} :
    g ∈ byIp rows ↔
      (∃ r ∈ rows, r.obs.srcIp = g.1) ∧ g.2 = rows.filter fun r => r.obs.srcIp = g.1 := by
  rw [byIp, List.mem_map]
  constructor
  · rintro ⟨ip, hip, rfl⟩
    rw [List.mem_eraseDups] at hip
    obtain ⟨r, hr, rfl⟩ := List.mem_map.mp hip
    exact ⟨⟨r, hr, rfl⟩, rfl⟩
  · rintro ⟨⟨r, hr, hip⟩, hgroup⟩
    refine ⟨g.1, ?_, by rw [← hgroup]⟩
    rw [List.mem_eraseDups]
    exact List.mem_map.mpr ⟨r, hr, hip⟩

theorem byIp_group {rows : List Seen} {g : String × List Seen} (h : g ∈ byIp rows) :
    g.2 ≠ [] ∧ g.2 = rows.filter fun r => r.obs.srcIp = g.1 := by
  obtain ⟨⟨r, hr, hip⟩, hgroup⟩ := mem_byIp.mp h
  refine ⟨fun hnil => ?_, hgroup⟩
  rw [hgroup, List.filter_eq_nil_iff] at hnil
  exact hnil r hr (by simpa using hip)

theorem exists_byIp {rows : List Seen} {ip : String}
    (h : (rows.filter fun r => r.obs.srcIp = ip) ≠ []) : ∃ g ∈ byIp rows, g.1 = ip := by
  obtain ⟨r, hr⟩ := List.exists_mem_of_ne_nil _ h
  obtain ⟨hr, hip⟩ := List.mem_filter.mp hr
  refine ⟨(ip, rows.filter fun r => r.obs.srcIp = ip), mem_byIp.mpr ⟨⟨r, hr, ?_⟩, rfl⟩, rfl⟩
  simpa using hip

end Upsert

/-! ### Runs -/

abbrev Accepted := DeviceId → Kind → List Seen

def seenFor (accepted : Accepted) (key : Key) : List Seen :=
  (accepted key.1 key.2.1).filter fun r => r.obs.srcIp = key.2.2

/-- The rollup, with what was accepted for it so far. -/
structure History where
  db : Rollup
  accepted : Accepted

section Runs

variable (devices : DeviceId → Device)

/-- `_ingest_kind` of a device. -/
def History.ingestKind (deviceId : DeviceId) (kind : Kind) (fetched : List Seen) (h : History) :
    History where
  db := Perimeter.ingestKind deviceId (devices deviceId) kind fetched h.db
  accepted := Function.update h.accepted deviceId (Function.update (h.accepted deviceId) kind
    (h.accepted deviceId kind ++ accept (h.db.cursors deviceId kind) fetched))

abbrev Ingestion := DeviceId × (Kind → Option (List Seen))

/-- `ingest_perimeter` of a device. -/
def History.ingest (h : History) (e : Ingestion) : History :=
  kinds.foldl (fun h kind =>
    match e.2 kind with
    | some rows => h.ingestKind devices e.1 kind rows
    | none => h) h

def History.empty : History := ⟨⟨⟨[], List.nodup_nil⟩, fun _ _ => none⟩, fun _ _ => []⟩

def history (es : List Ingestion) : History := es.foldl (History.ingest devices) .empty

theorem History.ingest_db (h : History) (e : Ingestion) :
    (h.ingest devices e).db = ingestPerimeter e.1 (devices e.1) e.2 h.db := by
  unfold History.ingest ingestPerimeter
  generalize kinds = ks
  induction ks generalizing h with
  | nil => rfl
  | cons kind ks ih =>
    rw [List.foldl_cons, List.foldl_cons, ih]
    cases e.2 kind with
    | none => rfl
    | some rows => rfl

section IngestKind

variable (h : History) (deviceId : DeviceId) (kind : Kind) (fetched : List Seen)

theorem History.ingestKind_accepted (d : DeviceId) (k : Kind) :
    (h.ingestKind devices deviceId kind fetched).accepted d k =
      if d = deviceId ∧ k = kind then
        h.accepted d k ++ accept (h.db.cursors d k) fetched
      else h.accepted d k := by
  unfold History.ingestKind
  dsimp only
  by_cases hd : d = deviceId
  · subst hd
    by_cases hk : k = kind
    · subst hk
      simp
    · simp [hk]
  · simp [hd]

theorem History.ingestKind_cursor (d : DeviceId) (k : Kind) :
    (h.ingestKind devices deviceId kind fetched).db.cursors d k =
      if d = deviceId ∧ k = kind ∧ accept (h.db.cursors d k) fetched ≠ [] then
        some (newest (accept (h.db.cursors d k) fetched))
      else h.db.cursors d k := by
  unfold History.ingestKind Perimeter.ingestKind
  dsimp only
  by_cases hd : d = deviceId
  · subst hd
    by_cases hk : k = kind
    · subst hk
      split_ifs with hempty hnil hnil
      · exact absurd (List.isEmpty_iff.mp hempty) hnil.2.2
      · rfl
      · simp
      · exact absurd ⟨rfl, rfl, fun hrows => hempty (List.isEmpty_iff.mpr hrows)⟩ hnil
    · split_ifs <;> simp_all
  · split_ifs <;> simp_all

/-- **What one kind of an ingest does to a key**: the accepted rows of its address
are new, and if there are any, they are put into its row. -/
theorem History.ingestKind_key (key : Key) :
    ∃ group : List Seen,
      seenFor (h.ingestKind devices deviceId kind fetched).accepted key =
        seenFor h.accepted key ++ group ∧
      (∀ a ∈ group, newerThan (h.db.cursors key.1 key.2.1) a.time = true) ∧
      (h.ingestKind devices deviceId kind fetched).db.table.find key =
        if group = [] then h.db.table.find key
        else some (upsertRow key.1 (devices key.1) key.2.1 key.2.2 group
          (h.db.table.find key)) := by
  obtain ⟨d, k, ip⟩ := key
  have htable : (h.ingestKind devices deviceId kind fetched).db.table =
      if (accept (h.db.cursors deviceId kind) fetched).isEmpty then h.db.table
      else (byIp (accept (h.db.cursors deviceId kind) fetched)).foldl
        (upsert deviceId (devices deviceId) kind) h.db.table := by
    unfold History.ingestKind Perimeter.ingestKind
    dsimp only
    split_ifs <;> rfl
  have hnewer : ∀ a ∈ accept (h.db.cursors deviceId kind) fetched,
      newerThan (h.db.cursors deviceId kind) a.time = true := fun a ha => (List.mem_filter.mp ha).2
  unfold seenFor
  dsimp only
  rw [h.ingestKind_accepted, htable]
  by_cases hkey : d = deviceId ∧ k = kind
  · obtain ⟨rfl, rfl⟩ := hkey
    rw [if_pos ⟨rfl, rfl⟩, List.filter_append]
    revert hnewer
    generalize accept (h.db.cursors d k) fetched = rows
    intro hnewer
    refine ⟨rows.filter fun r => r.obs.srcIp = ip, rfl,
      fun a ha => hnewer a (List.mem_filter.mp ha).1, ?_⟩
    obtain ⟨hown, hother⟩ := @find_upserts d (devices d) k _ (byIp_nodup rows) h.db.table
    by_cases hip : ∃ r ∈ rows, r.obs.srcIp = ip
    · obtain ⟨r, hr, hrip⟩ := hip
      have hmem : r ∈ rows.filter fun r => r.obs.srcIp = ip :=
        List.mem_filter.mpr ⟨hr, by simpa using hrip⟩
      have hne : ¬ rows.isEmpty = true := fun hempty => by
        rw [List.isEmpty_iff.mp hempty] at hr
        cases hr
      rw [if_neg (List.ne_nil_of_mem hmem), if_neg hne]
      exact hown (ip, _) (mem_byIp.mpr ⟨⟨r, hr, hrip⟩, rfl⟩)
    · rw [if_pos (List.filter_eq_nil_iff.mpr fun r hr => by simpa using fun h => hip ⟨r, hr, h⟩)]
      split_ifs
      · rfl
      · refine hother _ fun g hg heq => hip ?_
        have hg1 : ip = g.1 := (Prod.mk.inj (Prod.mk.inj heq).2).2
        rw [hg1]
        exact (mem_byIp.mp hg).1
  · rw [if_neg hkey]
    refine ⟨[], (List.append_nil _).symm, fun a ha => absurd ha List.not_mem_nil, ?_⟩
    rw [if_pos rfl]
    split_ifs
    · rfl
    · refine (find_upserts (byIp_nodup _) h.db.table).2 _ fun g _ heq => ?_
      exact hkey ⟨(Prod.mk.inj heq).1, (Prod.mk.inj (Prod.mk.inj heq).2).1⟩

end IngestKind

/-- Every row summarises what was accepted for its key. -/
def Summarised (h : History) : Prop :=
  ∀ key : Key, Summarises (devices key.1).tenantId (seenFor h.accepted key) (h.db.table.find key)

variable {devices}

theorem Summarised.ingestKind {h : History} (hs : Summarised devices h) (deviceId : DeviceId)
    (kind : Kind) (fetched : List Seen) :
    Summarised devices (h.ingestKind devices deviceId kind fetched) := by
  intro key
  obtain ⟨group, hseen, -, hfind⟩ := h.ingestKind_key devices deviceId kind fetched key
  rw [hseen, hfind]
  split_ifs with hnil
  · rw [hnil, List.append_nil]
    exact hs key
  · exact (hs key).upsert hnil

theorem History.ingest_invariant {P : History → Prop} {h : History}
    (hkind : ∀ h deviceId kind fetched, P h → P (h.ingestKind devices deviceId kind fetched))
    (hp : P h) (e : Ingestion) : P (h.ingest devices e) := by
  unfold History.ingest
  generalize kinds = ks
  induction ks generalizing h with
  | nil => exact hp
  | cons kind ks ih =>
    rw [List.foldl_cons]
    apply ih
    cases e.2 kind with
    | none => exact hp
    | some rows => exact hkind h e.1 kind rows hp

theorem Summarised.ingest {h : History} (hs : Summarised devices h) (e : Ingestion) :
    Summarised devices (h.ingest devices e) :=
  History.ingest_invariant (fun _ d kind rows hs => hs.ingestKind d kind rows) hs e

/-- **After every sequence of ingests, each row summarises what was accepted for
its key.** -/
theorem summarised_history (es : List Ingestion) : Summarised devices (history devices es) := by
  have hfold : ∀ h, Summarised devices h → Summarised devices (es.foldl (History.ingest devices) h) := by
    induction es with
    | nil => exact fun _ hs => hs
    | cons e es ih => exact fun h hs => ih _ (hs.ingest e)
  exact hfold _ fun _ => rfl

end Runs

/-! ### Who is listed -/

theorem mem_rankedAttackers {q : TopQuery} {table : AttackerTable} {ip : String} :
    (∃ r ∈ rankedAttackers q table, r.srcIp = ip) ↔
      ∃ r ∈ table.rows, q.active r = true ∧ r.srcIp = ip := by
  constructor
  · rintro ⟨r, hr, rfl⟩
    obtain ⟨g, hg, rfl⟩ := List.mem_map.mp (List.mem_mergeSort.mp hr)
    obtain ⟨ip, hip, rfl⟩ := List.mem_map.mp hg
    obtain ⟨r, hr, hrip⟩ := List.mem_map.mp (List.mem_eraseDups.mp hip)
    obtain ⟨hmem, hactive⟩ := List.mem_filter.mp hr
    exact ⟨r, hmem, hactive, hrip⟩
  · rintro ⟨r, hmem, hactive, rfl⟩
    simp only [rankedAttackers, List.mem_mergeSort, List.mem_map, List.mem_eraseDups,
      List.mem_filter]
    exact ⟨_, ⟨_, ⟨r.srcIp, ⟨r, ⟨hmem, hactive⟩, rfl⟩, rfl⟩, rfl⟩, rfl⟩

theorem perimeterTop_srcIp (q : TopQuery) (table : AttackerTable) (ip : String) :
    (∃ n, ∀ limit, n ≤ limit → ∃ r ∈ perimeterTop q limit table, r.srcIp = ip) ↔
      ∃ r ∈ table.rows, q.active r = true ∧ r.srcIp = ip := by
  rw [← mem_rankedAttackers]
  constructor
  · rintro ⟨n, h⟩
    obtain ⟨r, hr, hip⟩ := h n le_rfl
    exact ⟨r, List.mem_of_mem_take hr, hip⟩
  · intro h
    refine ⟨(rankedAttackers q table).length, fun limit hlimit => ?_⟩
    rw [perimeterTop, List.take_of_length_le hlimit]
    exact h

section Listed

variable (devices : DeviceId → Device) (q : TopQuery) (accepted : Accepted) (ip : String)

/-- A device that the report is about. -/
def TopQuery.Asks (d : DeviceId) : Prop :=
  (devices d).tenantId = q.tenantId ∧ ∀ d' ∈ q.deviceId, d = d'

/-- The address was seen in the window, on a device of the report. -/
def SeenIn : Prop :=
  ∃ d, q.Asks devices d ∧ ∃ a ∈ seenFor accepted (d, q.kind, ip), q.frm ≤ a.time ∧ a.time < q.to_

/-- On a device of the report, the address was seen in the window, and not after
it. -/
def LastSeenIn : Prop :=
  ∃ d, q.Asks devices d ∧ ∃ a ∈ seenFor accepted (d, q.kind, ip), q.frm ≤ a.time ∧
    a.time < q.to_ ∧ ∀ b ∈ seenFor accepted (d, q.kind, ip), b.time ≤ a.time

/-- The address is in the table of the report, whatever the limit is from some
number on. -/
def Listed (table : AttackerTable) : Prop :=
  ∃ n, ∀ limit, n ≤ limit → ∃ r ∈ perimeterTop q limit table, r.srcIp = ip

variable {devices q ip}

theorem listed_iff {h : History} (hs : Summarised devices h) :
    Listed q ip h.db.table ↔ LastSeenIn devices q h.accepted ip := by
  unfold Listed
  rw [perimeterTop_srcIp]
  constructor
  · rintro ⟨r, hmem, hactive, rfl⟩
    obtain ⟨htenant, hkind, hfrm, hto, hdevice⟩ := of_decide_eq_true hactive
    have hfind : h.db.table.find (r.deviceId, q.kind, r.srcIp) = some r :=
      AttackerTable.find_eq_some.mpr ⟨hmem, by rw [← hkind]; rfl⟩
    have hsum := hs (r.deviceId, q.kind, r.srcIp)
    rw [hfind] at hsum
    obtain ⟨hrow, -, ⟨a, ha, hlast⟩, hle⟩ := hsum
    refine ⟨r.deviceId, ⟨hrow.symm.trans htenant, hdevice⟩, a, ha, ?_, ?_, ?_⟩
    · rw [hlast]
      exact hfrm
    · rw [hlast]
      exact hto
    · rw [hlast]
      exact hle
  · rintro ⟨d, ⟨htenant, hdevice⟩, a, ha, hfrm, hto, hle⟩
    have hsum := hs (d, q.kind, ip)
    cases hfind : h.db.table.find (d, q.kind, ip) with
    | none =>
      rw [hfind] at hsum
      rw [show seenFor h.accepted (d, q.kind, ip) = [] from hsum] at ha
      cases ha
    | some r =>
      rw [hfind] at hsum
      obtain ⟨hrow, -, ⟨b, hb, hlast⟩, hnewest⟩ := hsum
      obtain ⟨hmem, hkey⟩ := AttackerTable.find_eq_some.mp hfind
      obtain ⟨hd, hkind, hip⟩ : r.deviceId = d ∧ r.kind = q.kind ∧ r.srcIp = ip :=
        ⟨(Prod.mk.inj hkey).1, (Prod.mk.inj (Prod.mk.inj hkey).2).1,
          (Prod.mk.inj (Prod.mk.inj hkey).2).2⟩
      have htime : r.lastSeen = a.time := by
        apply le_antisymm
        · rw [← hlast]
          exact hle b hb
        · exact hnewest a ha
      refine ⟨r, hmem, decide_eq_true ⟨hrow.trans htenant, hkind, ?_, ?_, ?_⟩, hip⟩
      · rw [htime]
        exact hfrm
      · rw [htime]
        exact hto
      · rw [hd]
        exact hdevice

variable (devices q)

/-- **Every address that was seen in the window is listed exactly if** each of
them has a device on which it was not seen after the window. -/
theorem perimeter_listed_iff (es : List Ingestion) :
    (∀ ip, SeenIn devices q (history devices es).accepted ip →
      Listed q ip (history devices es).db.table) ↔
      ∀ ip, SeenIn devices q (history devices es).accepted ip →
        LastSeenIn devices q (history devices es).accepted ip :=
  forall_congr' fun _ => imp_congr_right fun _ => listed_iff (summarised_history es)

end Listed

def blockAt (time : Time) (id : Nat) : Seen :=
  Observation.seenAt 0 ⟨id, some time, "203.0.113.7", []⟩

def seenAgain : List Ingestion :=
  [(0, fun _ => some [blockAt 5 0]), (0, fun _ => some [blockAt 20 1])]

def earlyWindow : TopQuery := ⟨0, .firewallBlock, 0, 10, none, none⟩

theorem seenAgain_not_listed :
    ¬ ∀ ip, SeenIn (fun _ => ⟨0, none, true⟩) earlyWindow
        (history (fun _ => ⟨0, none, true⟩) seenAgain).accepted ip →
      Listed earlyWindow ip (history (fun _ => ⟨0, none, true⟩) seenAgain).db.table := by
  intro h
  have hseen : SeenIn (fun _ => ⟨0, none, true⟩) earlyWindow
      (history (fun _ => ⟨0, none, true⟩) seenAgain).accepted "203.0.113.7" := by
    refine ⟨0, ⟨rfl, fun _ h => nomatch h⟩, blockAt 5 0, ?_, by decide, by decide⟩
    exact List.mem_cons_self
  obtain ⟨r, hr, hactive, -⟩ := (perimeterTop_srcIp _ _ _).mp (h _ hseen)
  have hnone : ∀ r ∈ (history (fun _ => ⟨0, none, true⟩) seenAgain).db.table.rows,
      earlyWindow.active r = false := by decide +kernel
  rw [hnone r hr] at hactive
  cases hactive

end Perimeter

end Opngms
