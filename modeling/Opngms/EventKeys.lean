/-
Opngms/EventKeys.lean

The keys of events without a source id (`event_key` in
`app/connectors/opnsense/parsers.py`).

A key is the hash of the time and of some fields of the row, written as texts
and joined with `|`.  Nothing is escaped, so the joined text tells no more than
the pieces between the bars: two rows of one time have the same key exactly if
their fields, cut at every bar, give the same pieces (`eventKeyOf_eq_iff`).  The
second of two such rows is dropped as a conflict.

`eventKeys_apart_iff` says for which pairs of rows with different fields the keys
differ, and both rows are stored.
-/
import Opngms.EventRows
import Opngms.JoinedLists

namespace Opngms

namespace Ingest

/-! ### Keys of texts -/

def pieces (texts : List String) : List (List Char) :=
  texts.flatMap fun s => s.toList.splitOn '|'

/-- An `isoformat()` has no bar. -/
def Timestamp.Plain (ts : Timestamp) : Prop := '|' ∉ ts.iso.toList

instance (ts : Timestamp) : Decidable ts.Plain := inferInstanceAs (Decidable (¬ _))

def PlainDates (lib : Stdlib) : Prop := ∀ s ts, lib.fromIsoFormat s = some ts → ts.Plain

theorem parseTs_plain {lib : Stdlib} (hdates : PlainDates lib) {now : Timestamp}
    (hnow : now.Plain) (value : Json) : (parseTs lib now value).Plain := by
  rw [parseTs]
  cases hparsed : lib.fromIsoFormat (replaceZ value.pyStr) with
  | none => exact hnow
  | some ts => exact hdates _ ts hparsed

theorem eventKeyOf_eq_iff {lib : Stdlib} (hsha : Function.Injective lib.sha1)
    {ts ts' : Timestamp} (hts : ts.Plain) (hts' : ts'.Plain) (parts parts' : List String) :
    eventKeyOf lib ts parts = eventKeyOf lib ts' parts' ↔
      ts.iso = ts'.iso ∧ pieces parts = pieces parts' := by
  have hbar : "|".toList = ['|'] := rfl
  have hpieces : ∀ {t : Timestamp}, t.Plain → ∀ texts : List String,
      ((t.iso :: texts).map String.toList).flatMap (List.splitOn '|') =
        t.iso.toList :: pieces texts := by
    intro t ht texts
    rw [List.map_cons, List.flatMap_cons, List.splitOn_eq_singleton ht, List.flatMap_map]
    rfl
  rw [eventKeyOf, eventKeyOf, hsha.eq_iff, ← String.toList_inj, String.toList_intercalate,
    String.toList_intercalate, hbar, intercalate_eq_iff (by simp) (by simp), hpieces hts,
    hpieces hts', List.cons.injEq, String.toList_inj]

/-! ### The hashed fields of a row -/

section Fields

variable (lib : Stdlib)

/-- What a parser makes of one row of its source. -/
def keptRow : Source → Dict → Option KeptRow
  | .ids, r => some (idsRow lib r)
  | .dns, r => some (dnsRow lib r)
  | .service, r => serviceRow lib r
  | .configAudit, r => configRow lib r

/-- The keys under which a source has its rows. -/
def rowKeys : Source → List String
  | .ids => ["rows", "alerts"]
  | .dns => ["rows", "queries"]
  | .service => ["rows"]
  | .configAudit => ["rows"]

theorem keptRows_eq (data : Json) (source : Source) :
    keptRows lib data source = (rowsOf data (rowKeys source)).filterMap fun
      | .obj r => keptRow lib source r
      | _ => none := by
  cases source <;> rfl

/-- Source, destination, signature and severity of an IDS row. -/
def idsFields (r : Dict) : List Json :=
  let alert := match Dict.get? r "alert" with
    | some (.obj a) => a
    | _ => []
  [Dict.getD r "src_ip" (.str ""), Dict.getD r "dest_ip" (Dict.getD r "dst_ip" (.str "")),
    (Dict.getD alert "signature" .null).orElse
      ((Dict.getD r "signature" .null).orElse (.str "")),
    .str (Dict.getD alert "severity" (Dict.getD r "severity" (.str ""))).pyStr]

/-- Client, domain and action of a DNS row. -/
def dnsFields (r : Dict) : List Json :=
  [(Dict.getD r "client" .null).orElse ((Dict.getD r "client_ip" .null).orElse (.str "")),
    (Dict.getD r "domain" .null).orElse
      ((Dict.getD r "query" .null).orElse ((Dict.getD r "name" .null).orElse (.str ""))),
    Dict.getD r "action" (.str "")]

/-- Backup file, change reference and actor of a match of `_CONFIG_CHANGE`. -/
def configFields (m : Match) : List Json :=
  let luser := (m "luser").getD ""
  [.str (cut ((splitAt '/' ((m "backup").getD "")).getLastD "") 200),
    .str (stripUuidTail (cut ((m "path").getD "") 500)),
    .str (cut (if luser = "" then (m "ruser").getD "" else luser) 200)]

/-- One of the ids is there. -/
def HasId (r : Dict) (ids : List String) : Prop :=
  ∃ id ∈ ids, (Dict.getD r id .null).truthy = true

/-- The row has no source id, and these are the fields that `event_key` gets. -/
inductive Hashed : Source → Dict → List Json → Prop
  | ids {r : Dict} (h : ¬ HasId r ["alert_id", "_id"]) : Hashed .ids r (idsFields r)
  | dns {r : Dict} (h : ¬ HasId r ["query_id", "id", "_id"]) : Hashed .dns r (dnsFields r)
  | configAudit {r : Dict} {m : Match}
      (h : lib.search configChangePattern (cut (Dict.getD r "line" (.str "")).pyStr 2000) =
        some m) :
      Hashed .configAudit r (configFields m)

variable {lib}

theorem orElse_of_not_hasId {r : Dict} {ids : List String} (h : ¬ HasId r ids) (id : String)
    (hid : id ∈ ids) (default : Json) : (Dict.getD r id .null).orElse default = default :=
  if_neg fun htruthy => h ⟨id, hid, htruthy⟩

theorem Hashed.eventKey {source : Source} {r : Dict} {fields : List Json}
    (h : Hashed lib source r fields) {k : KeptRow} (hk : keptRow lib source r = some k)
    (ts : Timestamp) :
    (k.event ts).eventKey = eventKeyOf lib ts (fields.map Json.pyStr) := by
  cases h with
  | ids hid =>
    obtain rfl := Option.some.inj hk
    have hfirst := orElse_of_not_hasId hid "alert_id" (by decide)
    have hsecond := orElse_of_not_hasId hid "_id" (by decide)
    simp only [idsRow, hfirst, hsecond, Json.pyStr_str]
    rfl
  | dns hid =>
    obtain rfl := Option.some.inj hk
    have hfirst := orElse_of_not_hasId hid "query_id" (by decide)
    have hsecond := orElse_of_not_hasId hid "id" (by decide)
    have hthird := orElse_of_not_hasId hid "_id" (by decide)
    simp only [dnsRow, hfirst, hsecond, hthird, Json.pyStr_str]
    simp only [dnsFields, List.map_cons, List.map_nil]
  | configAudit hm =>
    simp only [keptRow, configRow] at hk
    split at hk
    · rw [hm] at hk
      obtain rfl := Option.some.inj hk
      simp only [configFields, List.map_cons, List.map_nil, Json.pyStr_str]
    · cases hk

end Fields

/-! ### Conflicts -/

/-- Where neither key is stored yet, both rows are. -/
def BothStored (source : Source) (row row' : RawEvent) : Prop :=
  ∀ (deviceId : DeviceId) (device : Device) (events : List Event),
    let e := normalize deviceId device source row
    let e' := normalize deviceId device source row'
    (∀ stored ∈ events, stored.key ≠ e.key ∧ stored.key ≠ e'.key) →
      [e, e'].foldl insertEvent events = events ++ [e, e']

theorem insertEvent_of_new {events : List Event} {row : Event}
    (h : ∀ stored ∈ events, stored.key ≠ row.key) : insertEvent events row = events ++ [row] := by
  refine if_neg fun hany => ?_
  obtain ⟨stored, hstored, hkey⟩ := List.any_eq_true.mp hany
  exact h stored hstored (of_decide_eq_true hkey)

theorem bothStored_of_ne {source : Source} {row row' : RawEvent}
    (h : row.eventKey ≠ row'.eventKey) : BothStored source row row' := by
  intro deviceId device events e e' hnew
  have hfirst : insertEvent events e = events ++ [e] :=
    insertEvent_of_new fun stored hstored => (hnew stored hstored).1
  have hsecond : insertEvent (events ++ [e]) e' = events ++ [e] ++ [e'] := by
    refine insertEvent_of_new fun stored hstored => ?_
    rcases List.mem_append.mp hstored with hstored | hstored
    · exact (hnew stored hstored).2
    · obtain rfl := List.mem_singleton.mp hstored
      intro hkey
      exact h (congrArg (fun key => key.2.2.2) hkey)
  show insertEvent (insertEvent events e) e' = events ++ [e, e']
  rw [hfirst, hsecond, List.append_assoc]
  rfl

/-- The keys differ, and neither row is dropped for the other. -/
structure Apart (source : Source) (e e' : ParsedEvent) : Prop where
  keys : e.eventKey ≠ e'.eventKey
  stored : ∀ row row', e.toRow = some row → e'.toRow = some row' → BothStored source row row'

theorem apart_iff {source : Source} {e e' : ParsedEvent} :
    Apart source e e' ↔ e.eventKey ≠ e'.eventKey := by
  constructor
  · exact Apart.keys
  · intro hne
    refine ⟨hne, fun row row' hrow hrow' => bothStored_of_ne ?_⟩
    rw [(ParsedEvent.toRow_eq hrow).2.1, (ParsedEvent.toRow_eq hrow').2.1]
    exact hne

/-! ### Rows with different fields -/

/-- An event of a row, with its time. -/
inductive EventOf (lib : Stdlib) (source : Source) (r : Dict) : Timestamp → ParsedEvent → Prop
  | intro {k : KeptRow} {now : Timestamp} (hk : keptRow lib source r = some k) (hnow : now.Plain) :
      EventOf lib source r (parseTs lib now k.stamp) (k.event (parseTs lib now k.stamp))

theorem parseRows_eventOf {lib : Stdlib} {data : Json} {source : Source}
    {clock : Nat → Timestamp} (hclock : ∀ i, (clock i).Plain) {e : ParsedEvent}
    (he : e ∈ parseRows lib data source clock) :
    ∃ r ts, .obj r ∈ rowsOf data (rowKeys source) ∧ EventOf lib source r ts e := by
  obtain ⟨i, hi, rfl⟩ := List.mem_mapIdx.mp he
  have hmem := List.getElem_mem hi
  generalize (keptRows lib data source)[i] = k at hmem ⊢
  rw [keptRows_eq] at hmem
  obtain ⟨row, hrow, hkept⟩ := List.mem_filterMap.mp hmem
  cases row with
  | obj r => exact ⟨r, _, hrow, .intro hkept (hclock i)⟩
  | _ => cases hkept

section Apart

variable {lib : Stdlib} (hsha : Function.Injective lib.sha1) (hdates : PlainDates lib)
  {source : Source} {r r' : Dict} {fields fields' : List Json} {ts ts' : Timestamp}
  {e e' : ParsedEvent}

include hsha hdates

theorem eventKey_eq_iff (h : Hashed lib source r fields) (h' : Hashed lib source r' fields')
    (he : EventOf lib source r ts e) (he' : EventOf lib source r' ts' e') :
    e.eventKey = e'.eventKey ↔
      ts.iso = ts'.iso ∧ pieces (fields.map Json.pyStr) = pieces (fields'.map Json.pyStr) := by
  obtain ⟨hk, hnow⟩ := he
  obtain ⟨hk', hnow'⟩ := he'
  rw [h.eventKey hk, h'.eventKey hk']
  exact eventKeyOf_eq_iff hsha (parseTs_plain hdates hnow _) (parseTs_plain hdates hnow' _) _ _

/-- **Rows with different fields are kept apart** exactly if their fields do not
fall into the same pieces, or their times are written in different time zones. -/
theorem eventKeys_apart_iff (h : Hashed lib source r fields) (h' : Hashed lib source r' fields')
    (he : EventOf lib source r ts e) (he' : EventOf lib source r' ts' e') :
    (fields ≠ fields' → Apart source e e') ↔
      (fields ≠ fields' → ts.iso = ts'.iso →
        pieces (fields.map Json.pyStr) ≠ pieces (fields'.map Json.pyStr)) := by
  refine imp_congr_right fun _ => ?_
  rw [apart_iff, Ne, eventKey_eq_iff hsha hdates h h' he he', not_and]

end Apart

/-- A library with one date, and the text itself for its hash. -/
def sampleLib : Stdlib where
  fromIsoFormat s :=
    if s = "2026-07-01T10:00:00+00:00" then some ⟨1782900000000000, s⟩ else none
  sha1 := id
  search _ _ := none

def sampleTime : Timestamp := ⟨1782900000000000, "2026-07-01T10:00:00+00:00"⟩

def sampleQuery (client domain : String) : Dict :=
  [("timestamp", .str "2026-07-01T10:00:00Z"), ("client", .str client), ("domain", .str domain),
    ("action", .str "Pass")]

theorem sampleLib_plainDates : PlainDates sampleLib := by
  intro s ts h
  simp only [sampleLib] at h
  split at h
  · rename_i hs
    obtain rfl := Option.some.inj h
    subst hs
    decide
  · cases h

theorem sampleQuery_hashed (client domain : String) :
    Hashed sampleLib .dns (sampleQuery client domain) (dnsFields (sampleQuery client domain)) := by
  refine .dns ?_
  rintro ⟨id, hid, htruthy⟩
  simp only [List.mem_cons, List.not_mem_nil, or_false] at hid
  rcases hid with rfl | rfl | rfl <;> cases htruthy

theorem sampleQuery_event (client domain : String) :
    EventOf sampleLib .dns (sampleQuery client domain) sampleTime
      ((dnsRow sampleLib (sampleQuery client domain)).event sampleTime) := by
  have hstamp : (dnsRow sampleLib (sampleQuery client domain)).stamp =
      .str "2026-07-01T10:00:00Z" := rfl
  have hz : replaceZ "2026-07-01T10:00:00Z" = "2026-07-01T10:00:00+00:00" := by decide +kernel
  have hts : parseTs sampleLib sampleTime (dnsRow sampleLib (sampleQuery client domain)).stamp =
      sampleTime := by
    rw [hstamp, parseTs, Json.pyStr_str, hz]
    rfl
  have hkept : keptRow sampleLib .dns (sampleQuery client domain) =
      some (dnsRow sampleLib (sampleQuery client domain)) := rfl
  have hnow : sampleTime.Plain := by decide
  have hevent := EventOf.intro hkept hnow
  rwa [hts] at hevent

/-- Two queries of one second. -/
theorem eventKeys_apart_iff_sample :
    dnsFields (sampleQuery "192.0.2.7" "a.example") ≠
        dnsFields (sampleQuery "192.0.2.7" "b.example") ∧
      Apart .dns ((dnsRow sampleLib (sampleQuery "192.0.2.7" "a.example")).event sampleTime)
        ((dnsRow sampleLib (sampleQuery "192.0.2.7" "b.example")).event sampleTime) := by
  have hfields : dnsFields (sampleQuery "192.0.2.7" "a.example") ≠
      dnsFields (sampleQuery "192.0.2.7" "b.example") := by decide +kernel
  refine ⟨hfields, ?_⟩
  exact (eventKeys_apart_iff Function.injective_id sampleLib_plainDates (sampleQuery_hashed _ _)
    (sampleQuery_hashed _ _) (sampleQuery_event _ _) (sampleQuery_event _ _)).mpr
    (fun _ _ => by decide +kernel) hfields

/-- A bar moves from the client to the domain: the fields differ, and one of the
rows is dropped. -/
theorem barredQueries_collide :
    dnsFields (sampleQuery "a|b" "c") ≠ dnsFields (sampleQuery "a" "b|c") ∧
      ((dnsRow sampleLib (sampleQuery "a|b" "c")).event sampleTime).time =
        ((dnsRow sampleLib (sampleQuery "a" "b|c")).event sampleTime).time ∧
      ¬ Apart .dns ((dnsRow sampleLib (sampleQuery "a|b" "c")).event sampleTime)
        ((dnsRow sampleLib (sampleQuery "a" "b|c")).event sampleTime) := by
  refine ⟨by decide +kernel, rfl, fun h => h.keys ?_⟩
  rw [eventKey_eq_iff Function.injective_id sampleLib_plainDates (sampleQuery_hashed _ _)
    (sampleQuery_hashed _ _) (sampleQuery_event _ _) (sampleQuery_event _ _)]
  decide +kernel

end Ingest

end Opngms
