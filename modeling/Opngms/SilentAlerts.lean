/-
Opngms/SilentAlerts.lean

The alarm for silent tenants (`fleet_log_stats` of services/log_fleet.py,
services/silent_alerts.py, `detect_silent_tenants` of worker.py).

A run asks the log store for the last log of every tenant, and reports each tenant that
has enabled forwarding, no recent log and no alert row.  The row it writes stays until a
run no longer finds the tenant silent, so between two reports of one tenant some run has
seen a recent log of it, or no enabled forwarding (`endsSilence_between`).

A query that fails is read as an answer without logs, and so is what an aggregation
leaves out.  So every report is justified by the answer of its run exactly where the
answers cover the tenants that could be reported (**`silence_alarms`**).
-/
import Opngms.EventCursor
import Opngms.Ingest
import Opngms.EventRows
import Opngms.Pool

namespace Opngms

namespace SilentAlerts

open EventCursor Ingest

/-! ### The answer of the log store -/

/-- What `httpx` makes of the query: an `HTTPError`, a body that is no JSON, or a value. -/
inductive Response where
  | httpError
  | unreadable
  | json (data : Json)

/-- The entry of a tenant in `fleet_log_stats`. -/
structure LogStats where
  lastLogAt : Json
  volume : Json

abbrev Stats := List (String × LogStats)

/-- `stats.get(key)`: the entry written last. -/
def Stats.get? (stats : Stats) (key : String) : Option LogStats :=
  (stats.reverse.find? fun kv => kv.1 == key).map (·.2)

/-- `x > 0`. -/
def gtZero : Json → Except BuiltinError Bool
  | .bool b => .ok b
  | .int n => .ok (0 < n)
  | .float r => .ok ((Json.float r).truthy && !r.startsWith "-" && r != "nan")
  | _ => .error .typeError

/-- The entry of one bucket. -/
def bucketStats (b : Json) : Except BuiltinError (String × LogStats) := do
  let lastLog ← b.attrGet "last_log" (.obj [])
  let lastLogAt ← (lastLog.orElse (.obj [])).attrGet "value_as_string" .null
  let last24h ← b.attrGet "last_24h" (.obj [])
  let volume ← (last24h.orElse (.obj [])).attrGet "doc_count" .null
  let key ← b.attrGet "key" (.str "")
  return (key.pyStr, ⟨lastLogAt, volume⟩)

/-- The body of an answer: whether the aggregation left tenants out, and the entries. -/
def readAnswer (data : Json) : Except BuiltinError (Bool × Stats) := do
  let aggregations ← data.attrGet "aggregations" (.obj [])
  let byTenant ← aggregations.attrGet "by_tenant" (.obj [])
  let other ← byTenant.attrGet "sum_other_doc_count" .null
  let truncated ← gtZero (other.orElse (.int 0))
  let buckets ← byTenant.attrGet "buckets" (.arr [])
  let stats ← (← buckets.iterate).mapM bucketStats
  return (truncated, stats)

/-- `fleet_log_stats`: a truncated aggregation is only logged. -/
def fleetLogStats : Response → Except BuiltinError Stats
  | .httpError | .unreadable => .ok []
  | .json data => (readAnswer data).map (·.2)

/-! ### Silent tenants -/

/-- A `datetime`: its instant in microseconds, or the local time of one without a zone. -/
inductive IsoTime where
  | aware (instant : Int)
  | naive (local' : Int)

/-- `datetime.fromisoformat`; `none` for a `ValueError`. -/
abbrev FromIsoFormat := String → Option IsoTime

/-- `_parse_iso`: only a text has a `replace`. -/
def parseIso (fromIsoFormat : FromIsoFormat) : Json → Option IsoTime
  | .str s => fromIsoFormat (replaceZ s)
  | _ => none

/-- A row of `device_log_forwarding`. -/
structure Forwarding where
  tenantId : Uuid
  enabled : Bool
  revokedAt : Option Int

def Forwarding.Active (row : Forwarding) : Prop := row.enabled = true ∧ row.revokedAt = none

instance (row : Forwarding) : Decidable row.Active := inferInstanceAs (Decidable (_ ∧ _))

/-- `enabled_forwarding_by_tenant`. -/
def enabledForwardingByTenant (rows : List Forwarding) : List (Uuid × Nat) :=
  let active := rows.filter fun row => decide row.Active
  (active.map (·.tenantId)).dedup.map fun tid =>
    (tid, active.countP fun row => row.tenantId = tid)

/-- `stats.get(str(tid), {})["last_log_at"]`, parsed if there is one. -/
def lastLog (fromIsoFormat : FromIsoFormat) (stats : Stats) (tid : Uuid) : Option IsoTime :=
  (stats.get? (String.ofList (uuidStr tid))).bind fun st =>
    if st.lastLogAt.truthy then parseIso fromIsoFormat st.lastLogAt else none

/-- `timedelta(hours=threshold_hours)` in microseconds. -/
def threshold (hours : Nat) : Int := hours * 3600000000

/-- `last is None or (now - last) > threshold`. -/
def overdue (now : Int) (hours : Nat) : Option IsoTime → Except BuiltinError Bool
  | none => .ok true
  | some (.aware last) => .ok (threshold hours < now - last)
  | some (.naive _) => .error .typeError

/-- An entry of `compute_silent_tenants`. -/
structure SilentTenant where
  tenantId : Uuid
  tenantName : String
  lastLogAt : Option IsoTime

/-- `compute_silent_tenants`. -/
def computeSilentTenants (fromIsoFormat : FromIsoFormat) (names : Uuid → Option String)
    (stats : Stats) (now : Int) (hours : Nat) :
    List (Uuid × Nat) → Except BuiltinError (List SilentTenant)
  | [] => .ok []
  | (tid, n) :: enabled => do
    if n ≤ 0 then computeSilentTenants fromIsoFormat names stats now hours enabled
    else
      let last := lastLog fromIsoFormat stats tid
      let silent ← overdue now hours last
      let out ← computeSilentTenants fromIsoFormat names stats now hours enabled
      return if silent then ⟨tid, (names tid).getD "", last⟩ :: out else out

/-! ### The alert rows -/

/-- A row of `silent_tenant_alerts`. -/
structure Alert where
  tenantId : Uuid
  tenantName : String
  silentSince : Int
  lastAlertAt : Int

/-- The tables a run reads and writes. -/
structure Db where
  tenants : List (Uuid × String)
  forwarding : List Forwarding
  alerts : List Alert

/-- `INSERT … ON CONFLICT DO NOTHING RETURNING tenant_id`. -/
def insertAlert (alerts : List Alert) (row : Alert) : List Alert × Option Uuid :=
  if alerts.any fun a => a.tenantId = row.tenantId then (alerts, none)
  else (alerts ++ [row], some row.tenantId)

/-- The loop that inserts the rows, with the tenants whose row it inserted. -/
def insertAlerts (now : Int) : List SilentTenant → List Alert → List Alert × List SilentTenant
  | [], alerts => (alerts, [])
  | t :: ts, alerts =>
    match insertAlert alerts ⟨t.tenantId, t.tenantName, now, now⟩ with
    | (alerts', some _) =>
      let (alerts'', inserted) := insertAlerts now ts alerts'
      (alerts'', t :: inserted)
    | (alerts', none) => insertAlerts now ts alerts'

/-- The two settings of the job in the runtime configuration. -/
structure Runtime where
  silentAlertEnabled : Bool
  silentAlertAfterHours : Nat

/-- The summary of a run. -/
structure Summary where
  silent : Nat
  new : Nat
  recovered : Nat
  afterHours : Nat
  newlySilent : List (Uuid × String)

/-- `detect_and_alert`: the alert rows after it, and its summary. -/
def detectAndAlert (fromIsoFormat : FromIsoFormat) (runtime : Runtime) (response : Response)
    (now : Int) (db : Db) : Except BuiltinError (List Alert × Summary) := do
  let afterHours := runtime.silentAlertAfterHours
  if !runtime.silentAlertEnabled then return (db.alerts, ⟨0, 0, 0, afterHours, []⟩)
  else
    let enabled := enabledForwardingByTenant db.forwarding
    let names := fun tid => (db.tenants.find? fun t => t.1 == tid).map (·.2)
    let stats ← fleetLogStats response
    let silent ← computeSilentTenants fromIsoFormat names stats now afterHours enabled
    let existing := db.alerts
    let recovered := existing.filter fun row => silent.all fun t => t.tenantId ≠ row.tenantId
    let new := silent.filter fun t => existing.all fun row => row.tenantId ≠ t.tenantId
    let (alerts, inserted) := insertAlerts now new existing
    return (alerts.filter fun row => recovered.all fun r => r.tenantId ≠ row.tenantId,
      ⟨silent.length, inserted.length, recovered.length, afterHours,
        inserted.map fun t => (t.tenantId, t.tenantName)⟩)

/-! ### Runs -/

/-- What happens to the tables: requests change forwarding and tenants, and the job runs. -/
inductive Event where
  | forwarding (rows : List Forwarding)
  | tenants (rows : List (Uuid × String))
  | detect (runtime : Runtime) (response : Response) (now : Int)

def Listed (tenants : List (Uuid × String)) (tid : Uuid) : Prop := ∃ t ∈ tenants, t.1 = tid

instance (tenants : List (Uuid × String)) (tid : Uuid) : Decidable (Listed tenants tid) :=
  inferInstanceAs (Decidable (∃ _ ∈ _, _))

section Runs

variable (fromIsoFormat : FromIsoFormat)

/-- One step.  Forwarding names a tenant, with a tenant go its forwarding and its alert,
and a run that raises is rolled back. -/
def step (db : Db) : Event → Option Db
  | .forwarding rows =>
    if ∀ row ∈ rows, Listed db.tenants row.tenantId then some { db with forwarding := rows }
    else none
  | .tenants rows => some
      { tenants := rows
        forwarding := db.forwarding.filter fun row => Listed rows row.tenantId
        alerts := db.alerts.filter fun row => Listed rows row.tenantId }
  | .detect runtime response now =>
    match detectAndAlert fromIsoFormat runtime response now db with
    | .ok (alerts, _) => some { db with alerts := alerts }
    | .error _ => some db

/-- The tenants that a step reports newly silent. -/
def reported (db : Db) : Event → List (Uuid × String)
  | .detect runtime response now =>
    match detectAndAlert fromIsoFormat runtime response now db with
    | .ok (_, summary) => summary.newlySilent
    | .error _ => []
  | _ => []

/-! ### What a run does -/

/-- A tenant with forwarding that is counted. -/
def Forwards (rows : List Forwarding) (tid : Uuid) : Prop :=
  ∃ row ∈ rows, row.Active ∧ row.tenantId = tid

def Alerted (alerts : List Alert) (tid : Uuid) : Prop := ∃ row ∈ alerts, row.tenantId = tid

/-- A tenant that a run finds silent. -/
def Silent (stats : Stats) (now : Int) (hours : Nat) (rows : List Forwarding) (tid : Uuid) :
    Prop :=
  Forwards rows tid ∧ overdue now hours (lastLog fromIsoFormat stats tid) = .ok true

theorem mem_enabledForwardingByTenant (rows : List Forwarding) (tid : Uuid) :
    (∃ n, (tid, n) ∈ enabledForwardingByTenant rows ∧ 0 < n) ↔ Forwards rows tid := by
  constructor
  · rintro ⟨n, hmem, -⟩
    obtain ⟨tid', htid', heq⟩ := List.mem_map.mp hmem
    obtain ⟨rfl, -⟩ := Prod.mk.inj heq
    obtain ⟨row, hrow, rfl⟩ := List.mem_map.mp (List.mem_dedup.mp htid')
    obtain ⟨hrow, hactive⟩ := List.mem_filter.mp hrow
    exact ⟨row, hrow, of_decide_eq_true hactive, rfl⟩
  · rintro ⟨row, hrow, hactive, rfl⟩
    have hmem : row ∈ rows.filter fun row => decide row.Active :=
      List.mem_filter.mpr ⟨hrow, decide_eq_true hactive⟩
    refine ⟨_, List.mem_map.mpr ⟨row.tenantId, ?_, rfl⟩, ?_⟩
    · exact List.mem_dedup.mpr (List.mem_map_of_mem hmem)
    · exact List.countP_pos_iff.mpr ⟨row, hmem, by simp⟩

section Silence

variable {fromIsoFormat} {names : Uuid → Option String} {stats : Stats} {now : Int} {hours : Nat}

theorem computeSilentTenants_defined (enabled : List (Uuid × Nat)) :
    (∃ silent, computeSilentTenants fromIsoFormat names stats now hours enabled = .ok silent) ↔
      ∀ tid n, (tid, n) ∈ enabled → 0 < n →
        ∃ b, overdue now hours (lastLog fromIsoFormat stats tid) = .ok b := by
  induction enabled with
  | nil => simp [computeSilentTenants]
  | cons entry enabled ih =>
    obtain ⟨tid, n⟩ := entry
    simp only [List.mem_cons]
    by_cases hn : n ≤ 0
    · rw [computeSilentTenants, if_pos hn, ih]
      constructor
      · rintro h tid' n' (heq | hmem) hn'
        · obtain ⟨rfl, rfl⟩ := Prod.mk.inj heq
          omega
        · exact h tid' n' hmem hn'
      · exact fun h tid' n' hmem => h tid' n' (.inr hmem)
    · rw [computeSilentTenants, if_neg hn]
      constructor
      · rintro ⟨silent, hsilent⟩ tid' n' hmem hn'
        obtain ⟨b, hb, hrest⟩ := except_bind_ok hsilent
        obtain ⟨out, hout, -⟩ := except_bind_ok hrest
        rcases hmem with heq | hmem
        · obtain ⟨rfl, rfl⟩ := Prod.mk.inj heq
          exact ⟨b, hb⟩
        · exact ih.mp ⟨out, hout⟩ tid' n' hmem hn'
      · intro h
        obtain ⟨b, hb⟩ := h tid n (.inl rfl) (by omega)
        obtain ⟨out, hout⟩ := ih.mpr fun tid' n' hmem => h tid' n' (.inr hmem)
        exact ⟨_, by simp only [bind, Except.bind, hb, hout]; rfl⟩

theorem mem_computeSilentTenants {enabled : List (Uuid × Nat)} {silent : List SilentTenant}
    (h : computeSilentTenants fromIsoFormat names stats now hours enabled = .ok silent)
    (tid : Uuid) :
    (∃ t ∈ silent, t.tenantId = tid) ↔ (∃ n, (tid, n) ∈ enabled ∧ 0 < n) ∧
      overdue now hours (lastLog fromIsoFormat stats tid) = .ok true := by
  induction enabled generalizing silent with
  | nil =>
    obtain rfl := Except.ok.inj h
    simp
  | cons entry enabled ih =>
    obtain ⟨tid', n⟩ := entry
    by_cases hn : n ≤ 0
    · rw [computeSilentTenants, if_pos hn] at h
      rw [ih h]
      have hiff : (∃ m, (tid, m) ∈ (tid', n) :: enabled ∧ 0 < m) ↔
          ∃ m, (tid, m) ∈ enabled ∧ 0 < m := by
        constructor
        · rintro ⟨m, hmem, hm⟩
          rcases List.mem_cons.mp hmem with heq | hmem
          · obtain ⟨rfl, rfl⟩ := Prod.mk.inj heq
            omega
          · exact ⟨m, hmem, hm⟩
        · rintro ⟨m, hmem, hm⟩
          exact ⟨m, List.mem_cons_of_mem _ hmem, hm⟩
      rw [hiff]
    · rw [computeSilentTenants, if_neg hn] at h
      obtain ⟨b, hb, hrest⟩ := except_bind_ok h
      obtain ⟨out, hout, hrest⟩ := except_bind_ok hrest
      obtain rfl := Except.ok.inj hrest
      have hcons : (∃ t ∈ (if b then ⟨tid', (names tid').getD "", lastLog fromIsoFormat stats tid'⟩
            :: out else out), t.tenantId = tid) ↔
          (b = true ∧ tid' = tid) ∨ ∃ t ∈ out, t.tenantId = tid := by
        cases b <;> simp
      rw [hcons, ih hout]
      constructor
      · rintro (⟨rfl, rfl⟩ | ⟨⟨m, hmem, hm⟩, hover⟩)
        · exact ⟨⟨n, List.mem_cons_self, by omega⟩, hb⟩
        · exact ⟨⟨m, List.mem_cons_of_mem _ hmem, hm⟩, hover⟩
      · rintro ⟨⟨m, hmem, hm⟩, hover⟩
        rcases List.mem_cons.mp hmem with heq | hmem
        · obtain ⟨rfl, rfl⟩ := Prod.mk.inj heq
          exact .inl ⟨Except.ok.inj (hb.symm.trans hover), rfl⟩
        · exact .inr ⟨⟨m, hmem, hm⟩, hover⟩

end Silence

/-- Every silent tenant without a row gets one, and is returned. -/
theorem insertAlerts_spec (now : Int) (ts : List SilentTenant) (alerts : List Alert) :
    (∀ tid, Alerted (insertAlerts now ts alerts).1 tid ↔
      Alerted alerts tid ∨ ∃ t ∈ ts, t.tenantId = tid) ∧
    (∀ t ∈ (insertAlerts now ts alerts).2, t ∈ ts) ∧
    (∀ tid, (∃ t ∈ ts, t.tenantId = tid) → ¬ Alerted alerts tid →
      ∃ t ∈ (insertAlerts now ts alerts).2, t.tenantId = tid) := by
  induction ts generalizing alerts with
  | nil => simp [insertAlerts]
  | cons t ts ih =>
    by_cases hrow : Alerted alerts t.tenantId
    · -- a conflict: nothing is written
      have hinsert : insertAlerts now (t :: ts) alerts = insertAlerts now ts alerts := by
        obtain ⟨row, hmem, heq⟩ := hrow
        have hany : (alerts.any fun a => a.tenantId = t.tenantId) = true :=
          List.any_eq_true.mpr ⟨row, hmem, by simpa using heq⟩
        simp [insertAlerts, insertAlert, hany]
      obtain ⟨halerted, hsub, hall⟩ := ih alerts
      rw [hinsert]
      refine ⟨fun tid => ?_, fun u hu => List.mem_cons_of_mem _ (hsub u hu), ?_⟩
      · rw [halerted, List.exists_mem_cons_iff]
        constructor
        · exact Or.imp_right .inr
        · rintro (h | rfl | h)
          exacts [.inl h, .inl hrow, .inr h]
      · rintro tid ⟨u, hu, rfl⟩ hnot
        rcases List.mem_cons.mp hu with rfl | hu
        · exact absurd hrow hnot
        · exact hall _ ⟨u, hu, rfl⟩ hnot
    · have hinsert : insertAlerts now (t :: ts) alerts =
          ((insertAlerts now ts (alerts ++ [⟨t.tenantId, t.tenantName, now, now⟩])).1,
            t :: (insertAlerts now ts (alerts ++ [⟨t.tenantId, t.tenantName, now, now⟩])).2) := by
        have hany : (alerts.any fun a => a.tenantId = t.tenantId) = false := by
          apply List.any_eq_false.mpr
          intro a ha heq
          exact hrow ⟨a, ha, by simpa using heq⟩
        simp [insertAlerts, insertAlert, hany]
      have happend (tid : Uuid) :
          Alerted (alerts ++ [⟨t.tenantId, t.tenantName, now, now⟩]) tid ↔
            Alerted alerts tid ∨ t.tenantId = tid := by
        simp [Alerted, or_and_right, exists_or]
      obtain ⟨halerted, hsub, hall⟩ := ih (alerts ++ [⟨t.tenantId, t.tenantName, now, now⟩])
      rw [hinsert]
      refine ⟨fun tid => ?_, fun u hu => ?_, ?_⟩
      · rw [halerted, happend, List.exists_mem_cons_iff, or_assoc]
      · rcases List.mem_cons.mp hu with rfl | hu
        · exact List.mem_cons_self
        · exact List.mem_cons_of_mem _ (hsub u hu)
      · rintro tid ⟨u, hu, rfl⟩ hnot
        by_cases htid : t.tenantId = u.tenantId
        · exact ⟨t, List.mem_cons_self, htid⟩
        · rcases List.mem_cons.mp hu with rfl | hu
          · exact absurd rfl htid
          · obtain ⟨v, hv, heq⟩ := hall _ ⟨u, hu, rfl⟩ fun h => ((happend _).mp h).elim hnot htid
            exact ⟨v, List.mem_cons_of_mem _ hv, heq⟩

section Outcomes

variable {fromIsoFormat} {runtime : Runtime} {response : Response} {now : Int} {db : Db}

theorem detectAndAlert_off (hoff : runtime.silentAlertEnabled = false) :
    detectAndAlert fromIsoFormat runtime response now db =
      .ok (db.alerts, ⟨0, 0, 0, runtime.silentAlertAfterHours, []⟩) := by
  simp [detectAndAlert, hoff, pure, Except.pure]

/-- After a run that did not raise, the alert rows are those of the silent tenants, and
the silent tenants that had no row are reported. -/
theorem detectAndAlert_ok (hon : runtime.silentAlertEnabled = true) {alerts : List Alert}
    {summary : Summary}
    (h : detectAndAlert fromIsoFormat runtime response now db = .ok (alerts, summary)) :
    ∃ stats, fleetLogStats response = .ok stats ∧
      (∀ tid, Forwards db.forwarding tid → ∃ b,
        overdue now runtime.silentAlertAfterHours (lastLog fromIsoFormat stats tid) = .ok b) ∧
      (∀ tid, Alerted alerts tid ↔
        Silent fromIsoFormat stats now runtime.silentAlertAfterHours db.forwarding tid) ∧
      ∀ tid, (∃ t ∈ summary.newlySilent, t.1 = tid) ↔
        Silent fromIsoFormat stats now runtime.silentAlertAfterHours db.forwarding tid ∧
          ¬ Alerted db.alerts tid := by
  rw [detectAndAlert, hon] at h
  obtain ⟨stats, hstats, h⟩ := except_bind_ok h
  obtain ⟨silent, hsilent, h⟩ := except_bind_ok h
  obtain ⟨rfl, rfl⟩ := Prod.mk.inj (Except.ok.inj h)
  have hmem (tid : Uuid) : (∃ t ∈ silent, t.tenantId = tid) ↔
      Silent fromIsoFormat stats now runtime.silentAlertAfterHours db.forwarding tid := by
    rw [mem_computeSilentTenants hsilent, mem_enabledForwardingByTenant, Silent]
  have hnew (tid : Uuid) : (∃ t ∈ silent.filter fun t =>
        db.alerts.all fun row => row.tenantId ≠ t.tenantId, t.tenantId = tid) ↔
      (∃ t ∈ silent, t.tenantId = tid) ∧ ¬ Alerted db.alerts tid := by
    constructor
    · rintro ⟨t, ht, rfl⟩
      obtain ⟨ht, hall⟩ := List.mem_filter.mp ht
      refine ⟨⟨t, ht, rfl⟩, ?_⟩
      rintro ⟨row, hrow, heq⟩
      exact of_decide_eq_true (List.all_eq_true.mp hall row hrow) heq
    · rintro ⟨⟨t, ht, rfl⟩, hnot⟩
      refine ⟨t, List.mem_filter.mpr ⟨ht, List.all_eq_true.mpr ?_⟩, rfl⟩
      exact fun row hrow => decide_eq_true fun heq => hnot ⟨row, hrow, heq⟩
  obtain ⟨halerted, hsub, hall⟩ := insertAlerts_spec now (silent.filter fun t =>
    db.alerts.all fun row => row.tenantId ≠ t.tenantId) db.alerts
  refine ⟨stats, hstats, fun tid hforwards => ?_, fun tid => ?_, fun tid => ?_⟩
  · obtain ⟨n, hn, hpos⟩ := (mem_enabledForwardingByTenant db.forwarding tid).mpr hforwards
    exact (computeSilentTenants_defined _).mp ⟨silent, hsilent⟩ tid n hn hpos
  · rw [← hmem]
    constructor
    · rintro ⟨row, hrow, rfl⟩
      obtain ⟨hrow, hkept⟩ := List.mem_filter.mp hrow
      rcases (halerted _).mp ⟨row, hrow, rfl⟩ with ⟨old, hold, heq⟩ | hinserted
      · -- an old row of a tenant that is not silent is deleted
        by_contra hnot
        have hrecovered : old ∈ db.alerts.filter fun row =>
            silent.all fun t => t.tenantId ≠ row.tenantId := by
          refine List.mem_filter.mpr ⟨hold, List.all_eq_true.mpr fun t ht => ?_⟩
          exact decide_eq_true fun htid => hnot ⟨t, ht, htid.trans heq⟩
        exact of_decide_eq_true (List.all_eq_true.mp hkept old hrecovered) heq
      · exact ((hnew _).mp hinserted).1
    · rintro ⟨t, ht, rfl⟩
      obtain ⟨row, hrow, heq⟩ := (halerted t.tenantId).mpr <| by
        by_cases hold : Alerted db.alerts t.tenantId
        · exact .inl hold
        · exact .inr ((hnew _).mpr ⟨⟨t, ht, rfl⟩, hold⟩)
      refine ⟨row, List.mem_filter.mpr ⟨hrow, List.all_eq_true.mpr fun r hr => ?_⟩, heq⟩
      obtain ⟨-, hr⟩ := List.mem_filter.mp hr
      have hne : t.tenantId ≠ r.tenantId := of_decide_eq_true (List.all_eq_true.mp hr t ht)
      exact decide_eq_true fun htid => hne (heq.symm.trans htid.symm)
  · rw [← hmem]
    constructor
    · rintro ⟨p, hp, rfl⟩
      obtain ⟨t, ht, rfl⟩ := List.mem_map.mp hp
      exact (hnew _).mp ⟨t, hsub t ht, rfl⟩
    · rintro ⟨hsilent', hnot⟩
      obtain ⟨t, ht, rfl⟩ := hall tid ((hnew tid).mpr ⟨hsilent', hnot⟩) hnot
      exact ⟨_, List.mem_map_of_mem ht, rfl⟩

theorem detectAndAlert_error (hon : runtime.silentAlertEnabled = true) {e : BuiltinError}
    (h : detectAndAlert fromIsoFormat runtime response now db = .error e) {stats : Stats}
    (hstats : fleetLogStats response = .ok stats) :
    ∃ tid local', Forwards db.forwarding tid ∧
      lastLog fromIsoFormat stats tid = some (.naive local') := by
  by_contra hnone
  push Not at hnone
  have hdefined : ∃ silent, computeSilentTenants fromIsoFormat
      (fun tid => (db.tenants.find? fun t => t.1 == tid).map (·.2)) stats now
      runtime.silentAlertAfterHours (enabledForwardingByTenant db.forwarding) = .ok silent := by
    apply (computeSilentTenants_defined _).mpr
    intro tid n hmem hpos
    have hforwards := (mem_enabledForwardingByTenant db.forwarding tid).mp ⟨n, hmem, hpos⟩
    match hlast : lastLog fromIsoFormat stats tid with
    | none => exact ⟨_, rfl⟩
    | some (.aware last) => exact ⟨_, rfl⟩
    | some (.naive local') => exact absurd hlast (hnone tid local' hforwards)
  obtain ⟨silent, hsilent⟩ := hdefined
  simp [detectAndAlert, hon, hstats, hsilent, bind, Except.bind, pure, Except.pure] at h

end Outcomes

/-! ### Reports -/

/-- The answer of the log store has a place for the tenant: the query succeeded, and the
aggregation has the tenant or leaves no tenant out. -/
def Covered (response : Response) (tid : Uuid) : Prop :=
  ∃ data truncated stats, response = .json data ∧ readAnswer data = .ok (truncated, stats) ∧
    (truncated = false ∨ (stats.get? (String.ofList (uuidStr tid))).isSome)

/-- The query succeeded and shows a log within the threshold. -/
def ShowsRecent (response : Response) (now : Int) (hours : Nat) (tid : Uuid) : Prop :=
  ∃ data truncated stats last, response = .json data ∧
    readAnswer data = .ok (truncated, stats) ∧
    lastLog fromIsoFormat stats tid = some (.aware last) ∧ now - last ≤ threshold hours

/-- The query succeeded, covered the tenant and showed no log within the threshold. -/
def Justified (response : Response) (now : Int) (hours : Nat) (tid : Uuid) : Prop :=
  Covered response tid ∧ ¬ ShowsRecent fromIsoFormat response now hours tid

/-- Whoever a step reports, it reports rightly. -/
def ReportsJustified (db : Db) : Event → Prop
  | .detect runtime response now =>
    ∀ t ∈ reported fromIsoFormat db (.detect runtime response now),
      Justified fromIsoFormat response now runtime.silentAlertAfterHours t.1
  | _ => True

/-- A body on which the run raises: it has not the shape of an answer, or the last log of
a tenant that forwards has no time zone. -/
def Malformed (db : Db) (response : Response) : Prop :=
  ∃ data, response = .json data ∧ ∀ truncated stats, readAnswer data = .ok (truncated, stats) →
    ∃ tid local', Forwards db.forwarding tid ∧
      lastLog fromIsoFormat stats tid = some (.naive local')

/-- The answer covers each tenant that forwards and has no alert row. -/
def AnswerCovers (db : Db) : Event → Prop
  | .detect runtime response _ => runtime.silentAlertEnabled = true →
    Malformed fromIsoFormat db response ∨
      ∀ tid, Forwards db.forwarding tid → ¬ Alerted db.alerts tid → Covered response tid
  | _ => True

/-- What ends an episode of silence: a run whose query succeeded and showed a recent log,
or found no forwarding, and the end of the tenant. -/
def EndsSilence (tid : Uuid) (db : Db) : Event → Prop
  | .forwarding _ => False
  | .tenants rows => ¬ Listed rows tid
  | .detect runtime response now => runtime.silentAlertEnabled = true ∧
    (¬ Forwards db.forwarding tid ∨
      ShowsRecent fromIsoFormat response now runtime.silentAlertAfterHours tid)

variable {fromIsoFormat}

theorem overdue_false {now : Int} {hours : Nat} {last : Option IsoTime}
    (h : overdue now hours last = .ok false) :
    ∃ t, last = some (.aware t) ∧ now - t ≤ threshold hours := by
  rcases last with - | t | t
  · cases h
  · exact ⟨t, rfl, Int.not_lt.mp (of_decide_eq_false (Except.ok.inj h))⟩
  · cases h

theorem fleetLogStats_lastLog {response : Response} {stats : Stats} {tid : Uuid} {t : IsoTime}
    (hstats : fleetLogStats response = .ok stats)
    (hlast : lastLog fromIsoFormat stats tid = some t) :
    ∃ data truncated, response = .json data ∧ readAnswer data = .ok (truncated, stats) := by
  have hempty : lastLog fromIsoFormat [] tid = none := rfl
  cases response with
  | httpError =>
    obtain rfl := Except.ok.inj hstats
    rw [hempty] at hlast
    cases hlast
  | unreadable =>
    obtain rfl := Except.ok.inj hstats
    rw [hempty] at hlast
    cases hlast
  | json data =>
    cases hread : readAnswer data with
    | error e =>
      rw [fleetLogStats, hread] at hstats
      cases hstats
    | ok answer =>
      rw [fleetLogStats, hread] at hstats
      obtain rfl := Except.ok.inj hstats
      exact ⟨data, answer.1, rfl, hread⟩

theorem isSome_of_lastLog {stats : Stats} {tid : Uuid} {t : IsoTime}
    (h : lastLog fromIsoFormat stats tid = some t) :
    (stats.get? (String.ofList (uuidStr tid))).isSome = true := by
  obtain ⟨st, hst, -⟩ := Option.bind_eq_some_iff.mp h
  exact Option.isSome_iff_exists.mpr ⟨st, hst⟩

theorem shows_of_overdue_false {response : Response} {stats : Stats} {now : Int} {hours : Nat}
    {tid : Uuid} (hstats : fleetLogStats response = .ok stats)
    (h : overdue now hours (lastLog fromIsoFormat stats tid) = .ok false) :
    Covered response tid ∧ ShowsRecent fromIsoFormat response now hours tid := by
  obtain ⟨t, hlast, hle⟩ := overdue_false h
  obtain ⟨data, truncated, hresponse, hread⟩ := fleetLogStats_lastLog hstats hlast
  exact ⟨⟨data, truncated, stats, hresponse, hread, .inr (isSome_of_lastLog hlast)⟩,
    ⟨data, truncated, stats, t, hresponse, hread, hlast, hle⟩⟩

theorem not_shows_of_overdue {response : Response} {stats : Stats} {now : Int} {hours : Nat}
    {tid : Uuid} (hstats : fleetLogStats response = .ok stats)
    (h : overdue now hours (lastLog fromIsoFormat stats tid) = .ok true) :
    ¬ ShowsRecent fromIsoFormat response now hours tid := by
  rintro ⟨data, truncated, stats', last, rfl, hread, hlast, hle⟩
  rw [fleetLogStats, hread] at hstats
  obtain rfl := Except.ok.inj hstats
  rw [hlast] at h
  exact Int.not_lt.mpr hle (of_decide_eq_true (Except.ok.inj h))

theorem malformed_of_error {runtime : Runtime} {response : Response} {now : Int} {db : Db}
    (hon : runtime.silentAlertEnabled = true) {e : BuiltinError}
    (h : detectAndAlert fromIsoFormat runtime response now db = .error e) :
    Malformed fromIsoFormat db response := by
  have hempty : fleetLogStats response ≠ .ok [] := by
    intro hstats
    obtain ⟨tid, local', -, hlast⟩ := detectAndAlert_error hon h hstats
    cases hlast
  cases response with
  | httpError => exact absurd rfl hempty
  | unreadable => exact absurd rfl hempty
  | json data =>
    refine ⟨data, rfl, fun truncated stats hread => detectAndAlert_error hon h ?_⟩
    rw [fleetLogStats, hread]
    rfl

/-- A step reports rightly exactly if the answer covers whom it could report. -/
theorem reportsJustified_iff (db : Db) (e : Event) :
    ReportsJustified fromIsoFormat db e ↔ AnswerCovers fromIsoFormat db e := by
  rcases e with rows | rows | ⟨runtime, response, now⟩
  · exact Iff.rfl
  · exact Iff.rfl
  by_cases hon : runtime.silentAlertEnabled = true
  · cases hrun : detectAndAlert fromIsoFormat runtime response now db with
    | error e =>
      have hnone : ReportsJustified fromIsoFormat db (.detect runtime response now) := by
        intro t ht
        rw [reported, hrun] at ht
        cases ht
      exact iff_of_true hnone fun _ => .inl (malformed_of_error hon hrun)
    | ok result =>
      obtain ⟨alerts, summary⟩ := result
      obtain ⟨stats, hstats, hdefined, -, hreported⟩ := detectAndAlert_ok hon hrun
      have hlist : reported fromIsoFormat db (.detect runtime response now) =
          summary.newlySilent := by
        rw [reported, hrun]
      constructor
      · intro h _
        refine .inr fun tid hforwards hnot => ?_
        obtain ⟨b, hb⟩ := hdefined tid hforwards
        cases b with
        | false => exact (shows_of_overdue_false hstats hb).1
        | true =>
          obtain ⟨t, ht, rfl⟩ := (hreported tid).mpr ⟨⟨hforwards, hb⟩, hnot⟩
          rw [← hlist] at ht
          exact (h t ht).1
      · intro hcovers t ht
        rw [hlist] at ht
        obtain ⟨⟨hforwards, hover⟩, hnot⟩ := (hreported t.1).mp ⟨t, ht, rfl⟩
        refine ⟨?_, not_shows_of_overdue hstats hover⟩
        rcases hcovers hon with ⟨data, rfl, hbad⟩ | hcovers
        · -- the run did not raise, so the body has the shape of an answer
          cases hread : readAnswer data with
          | error e =>
            rw [fleetLogStats, hread] at hstats
            cases hstats
          | ok answer =>
            rw [fleetLogStats, hread] at hstats
            obtain rfl := Except.ok.inj hstats
            obtain ⟨tid, local', hforwards', hlast⟩ := hbad answer.1 answer.2 hread
            obtain ⟨b, hb⟩ := hdefined tid hforwards'
            rw [hlast] at hb
            cases hb
        · exact hcovers t.1 hforwards hnot
  · rw [Bool.not_eq_true] at hon
    simp [ReportsJustified, AnswerCovers, reported, detectAndAlert_off hon, hon]

theorem endsSilence_of_cleared {db db' : Db} {e : Event} {tid : Uuid}
    (hstep : step fromIsoFormat db e = some db') (hrow : Alerted db.alerts tid)
    (hgone : ¬ Alerted db'.alerts tid) : EndsSilence fromIsoFormat tid db e := by
  rcases e with rows | rows | ⟨runtime, response, now⟩
  · simp only [step, Option.ite_none_right_eq_some, Option.some.injEq] at hstep
    obtain ⟨-, rfl⟩ := hstep
    exact absurd hrow hgone
  · obtain rfl := Option.some.inj hstep
    obtain ⟨row, hmem, rfl⟩ := hrow
    intro hlisted
    exact hgone ⟨row, List.mem_filter.mpr ⟨hmem, decide_eq_true hlisted⟩, rfl⟩
  · by_cases hon : runtime.silentAlertEnabled = true
    · cases hrun : detectAndAlert fromIsoFormat runtime response now db with
      | error e =>
        rw [step, hrun] at hstep
        obtain rfl := Option.some.inj hstep
        exact absurd hrow hgone
      | ok result =>
        obtain ⟨alerts, summary⟩ := result
        rw [step, hrun] at hstep
        obtain rfl := Option.some.inj hstep
        obtain ⟨stats, hstats, hdefined, halerted, -⟩ := detectAndAlert_ok hon hrun
        refine ⟨hon, ?_⟩
        by_cases hforwards : Forwards db.forwarding tid
        · right
          obtain ⟨b, hb⟩ := hdefined tid hforwards
          cases b with
          | false => exact (shows_of_overdue_false hstats hb).2
          | true => exact absurd ((halerted tid).mpr ⟨hforwards, hb⟩) hgone
        · exact .inl hforwards
    · rw [Bool.not_eq_true] at hon
      rw [step, detectAndAlert_off hon] at hstep
      obtain rfl := Option.some.inj hstep
      exact absurd hrow hgone

theorem alerted_of_reported {db db' : Db} {e : Event} {t : Uuid × String}
    (hstep : step fromIsoFormat db e = some db') (ht : t ∈ reported fromIsoFormat db e) :
    ¬ Alerted db.alerts t.1 ∧ Alerted db'.alerts t.1 := by
  rcases e with rows | rows | ⟨runtime, response, now⟩
  · cases ht
  · cases ht
  · cases hrun : detectAndAlert fromIsoFormat runtime response now db with
    | error e =>
      rw [reported, hrun] at ht
      cases ht
    | ok result =>
      obtain ⟨alerts, summary⟩ := result
      rw [reported, hrun] at ht
      rw [step, hrun] at hstep
      obtain rfl := Option.some.inj hstep
      by_cases hon : runtime.silentAlertEnabled = true
      · obtain ⟨stats, -, -, halerted, hreported⟩ := detectAndAlert_ok hon hrun
        obtain ⟨hsilent, hnot⟩ := (hreported t.1).mp ⟨t, ht, rfl⟩
        exact ⟨hnot, (halerted t.1).mpr hsilent⟩
      · rw [Bool.not_eq_true] at hon
        rw [detectAndAlert_off hon] at hrun
        obtain ⟨-, rfl⟩ := Prod.mk.inj (Except.ok.inj hrun)
        cases ht

theorem not_alerted_of_reported {db : Db} {e : Event} {t : Uuid × String}
    (ht : t ∈ reported fromIsoFormat db e) : ¬ Alerted db.alerts t.1 := by
  obtain ⟨db', hstep⟩ : ∃ db', step fromIsoFormat db e = some db' := by
    rcases e with rows | rows | ⟨runtime, response, now⟩
    · cases ht
    · cases ht
    · cases hrun : detectAndAlert fromIsoFormat runtime response now db with
      | error e => exact ⟨db, by rw [step, hrun]⟩
      | ok result => exact ⟨{ db with alerts := result.1 }, by rw [step, hrun]⟩
  exact (alerted_of_reported hstep ht).1

theorem endsSilence_between {tid : Uuid} {name name' : String} {e₁ e₂ : Event}
    {es : List Event} {db₁ db₁' db₂ : Db} (hstep : step fromIsoFormat db₁ e₁ = some db₁')
    (hrun : runAll (step fromIsoFormat) db₁' es = some db₂)
    (h₁ : (tid, name) ∈ reported fromIsoFormat db₁ e₁)
    (h₂ : (tid, name') ∈ reported fromIsoFormat db₂ e₂) :
    ∃ es₁ e es₂ db, es = es₁ ++ e :: es₂ ∧ runAll (step fromIsoFormat) db₁' es₁ = some db ∧
      EndsSilence fromIsoFormat tid db e := by
  have hrow : Alerted db₁'.alerts tid := (alerted_of_reported hstep h₁).2
  have hnot : ¬ Alerted db₂.alerts tid := not_alerted_of_reported h₂
  obtain ⟨es₁, e, es₂, db, db', rfl, hrun₁, hstep', hbefore, hafter⟩ :=
    runAll_loses (P := fun db => Alerted db.alerts tid) hrow hrun hnot
  exact ⟨es₁, e, es₂, db, rfl, hrun₁, endsSilence_of_cleared hstep' hbefore hafter⟩

variable (fromIsoFormat)

/-- **Silence alarms.**  Along every run of the job, with any forwarding and any answers
of the log store, each tenant reported newly silent is one that a readable answer covered
and showed no recent log of, exactly if each answer covers the tenants that forward and
have no alert row (or is so malformed that the run raises).  And between two reports of a
tenant an episode of silence has ended. -/
theorem silence_alarms (init : Db) (es : List Event) :
    (Along (step fromIsoFormat) (ReportsJustified fromIsoFormat) init es ↔
      Along (step fromIsoFormat) (AnswerCovers fromIsoFormat) init es) ∧
    ∀ es₁ e₁ es₂ e₂ es₃, es = es₁ ++ e₁ :: (es₂ ++ e₂ :: es₃) →
      ∀ db₁ db₁' db₂, runAll (step fromIsoFormat) init es₁ = some db₁ →
        step fromIsoFormat db₁ e₁ = some db₁' →
        runAll (step fromIsoFormat) db₁' es₂ = some db₂ →
        ∀ tid name name', (tid, name) ∈ reported fromIsoFormat db₁ e₁ →
          (tid, name') ∈ reported fromIsoFormat db₂ e₂ →
          ∃ es₄ e es₅ db, es₂ = es₄ ++ e :: es₅ ∧
            runAll (step fromIsoFormat) db₁' es₄ = some db ∧
            EndsSilence fromIsoFormat tid db e := by
  refine ⟨along_congr reportsJustified_iff, ?_⟩
  intro es₁ e₁ es₂ e₂ es₃ _ db₁ db₁' db₂ _ hstep hrun tid name name' h₁ h₂
  exact endsSilence_between hstep hrun h₁ h₂

/-! ### A tenant that goes silent twice, and an outage -/

/-- A tenant with enabled forwarding. -/
local instance uuid_ne_zero : NeZero (2 ^ 128) := ⟨by decide⟩

def sampleDb : Db := ⟨[(0, "acme")], [⟨0, true, none⟩], []⟩

def sampleIso : FromIsoFormat := fun _ => some (.aware 0)

/-- An answer with one bucket, of the tenant, that leaves `others` logs out. -/
def bucketAnswer (others : Int) (key : String) : Response :=
  .json (.obj [("aggregations", .obj [("by_tenant", .obj [("sum_other_doc_count", .int others),
    ("buckets", .arr [.obj [("key", .str key),
      ("last_log", .obj [("value_as_string", .str "1970-01-01T00:00:00.000Z")]),
      ("last_24h", .obj [("doc_count", .int 1)])]])])])])

def hourly (response : Response) : Event := .detect ⟨true, 6⟩ response 0

/-- An alarm, a recovery, and an alarm. -/
theorem silence_alarms_twice :
    ∃ es₄ e es₅ db, [hourly (bucketAnswer 0 (String.ofList (uuidStr 0)))] = es₄ ++ e :: es₅ ∧
      runAll (step sampleIso) ⟨[(0, "acme")], [⟨0, true, none⟩], [⟨0, "acme", 0, 0⟩]⟩ es₄ =
        some db ∧
      EndsSilence sampleIso 0 db e :=
  (silence_alarms sampleIso sampleDb [hourly (.json (.obj [])),
      hourly (bucketAnswer 0 (String.ofList (uuidStr 0))), hourly (.json (.obj []))]).2
    [] (hourly (.json (.obj []))) [hourly (bucketAnswer 0 (String.ofList (uuidStr 0)))]
    (hourly (.json (.obj []))) [] rfl sampleDb
    ⟨[(0, "acme")], [⟨0, true, none⟩], [⟨0, "acme", 0, 0⟩]⟩ sampleDb rfl rfl rfl
    0 "acme" "acme" (by decide) (by decide)

/-- A log store that is down, and one that leaves the tenant out, raise the alarm. -/
theorem outage_alarms :
    ¬ Along (step sampleIso) (ReportsJustified sampleIso) sampleDb [hourly .httpError] ∧
      ¬ Along (step sampleIso) (ReportsJustified sampleIso) sampleDb
        [hourly (bucketAnswer 1 (String.ofList (uuidStr 1)))] := by
  constructor
  · intro h
    obtain ⟨⟨data, _, _, hresponse, -⟩, -⟩ := h.1 (0, "acme") (by decide)
    cases hresponse
  · intro h
    obtain ⟨⟨data, truncated, stats, hresponse, hread, hcovered⟩, -⟩ :=
      h.1 (0, "acme") (by decide)
    obtain rfl := Response.json.inj hresponse
    obtain ⟨rfl, rfl⟩ := Prod.mk.inj (Except.ok.inj hread)
    revert hcovered
    decide

end Runs

end SilentAlerts

end Opngms
