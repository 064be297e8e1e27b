/-
Opngms/Ingest.lean

The ingest of device logs (`app/services/ingest.py`).

A poll of `ingest_events` fetches every source and stores the rows that are
newer than the source's cursor; the cursor moves to the newest of them.  An
unavailable source is skipped; any other error aborts the job, and nothing of it
is committed.  Rows with the same time, device, source and key are one event.

The cursor is a bare time and the comparison is strict: a row that is appended
after a poll with the time of the newest row stored is never stored
(`sameSecond_lost`).  In a run in which no such row is appended, a poll that
fetches a source leaves no row of it behind (**`no_event_lost`**).

The alerts that new rows raise are left out: a failure there is caught.
-/
import Opngms.Pool
import Opngms.World

namespace Opngms

namespace Ingest

/-! ### Rows -/

/-- `SOURCES`. -/
inductive Source where
  | ids
  | dns
  | service
  | configAudit
  deriving DecidableEq

def sources : List Source := [.ids, .dns, .service, .configAudit]

/-- A row as the client returns it: `time` and `event_key` are always there. -/
structure RawEvent where
  time : Time
  eventKey : String
  category : Option String
  srcIp : Option String
  dstIp : Option String
  name : Option String
  severity : Option String
  action : Option String
  attributes : Option Dict

/-- A row of `events`. -/
structure Event where
  time : Time
  deviceId : DeviceId
  tenantId : TenantId
  source : Source
  category : String
  srcIp : String
  dstIp : String
  name : String
  severity : String
  action : String
  eventKey : String
  attributes : Dict

/-- The primary key of `events`. -/
def Event.key (e : Event) : Time × DeviceId × Source × String :=
  (e.time, e.deviceId, e.source, e.eventKey)

/-- `_normalize`. -/
def normalize (deviceId : DeviceId) (device : Device) (source : Source) (r : RawEvent) : Event where
  time := r.time
  deviceId := deviceId
  tenantId := device.tenantId
  source := source
  category := r.category.getD ""
  srcIp := r.srcIp.getD ""
  dstIp := r.dstIp.getD ""
  name := r.name.getD ""
  severity := r.severity.getD ""
  action := r.action.getD ""
  eventKey := r.eventKey
  attributes := r.attributes.getD []

/-! ### The management address -/

/-- `_MGMT_CORR_WINDOW`, three minutes in microseconds. -/
def mgmtCorrWindow : Time := 180000000

def RawEvent.isApi (e : RawEvent) : Bool := e.action == some "api" && e.srcIp.getD "" != ""

/-- `_learn_mgmt_ip`; `applied` are the times at which changes were applied to
the device. -/
def learnMgmtIp (applied : List Time) (apiEvents : List RawEvent) : Option String :=
  let times := apiEvents.map (·.time)
  let near := applied.filter fun a =>
    times.any (fun t => t ≤ a + mgmtCorrWindow) && times.any (fun t => a ≤ t + mgmtCorrWindow)
  let ips := (apiEvents.filter fun e => near.any fun a =>
    e.time ≤ a + mgmtCorrWindow && a ≤ e.time + mgmtCorrWindow).filterMap (·.srcIp)
  match ips with
  | [] => none
  | ip :: rest => if rest.all (· == ip) then some ip else none

/-- An API event is OPNGMS's own or someone else's. -/
def reclassify (mgmt : String) (e : RawEvent) : RawEvent :=
  let attrs := e.attributes.getD []
  if e.isApi then
    if e.srcIp = some mgmt then
      { e with
        action := some "opngms"
        attributes := some (Dict.set attrs "origin" (.str "opngms")) }
    else
      { e with
        action := some "api_external"
        severity := some "medium"
        attributes := some (Dict.set (Dict.set attrs "origin" (.str "api_external")) "drift"
          (.bool true)) }
  else e

/-- `_attribute_mgmt_ip`: the address known afterwards, and the events. -/
def attributeMgmtIp (applied : List Time) (known : Option String) (events : List RawEvent) :
    Option String × List RawEvent :=
  let apiEvents := events.filter RawEvent.isApi
  if apiEvents.isEmpty then (known, events)
  else
    let mgmt := (learnMgmtIp applied apiEvents).or known
    match mgmt with
    | some ip => if ip ≠ "" then (mgmt, events.map (reclassify ip)) else (mgmt, events)
    | none => (mgmt, events)

/-! ### The store -/

/-- The tables that the ingest of one device writes. -/
structure Store where
  events : List Event
  /-- `IngestCursor.last_time` of each source. -/
  cursors : Source → Option Time
  /-- `device.mgmt_source_ip`. -/
  mgmtSourceIp : Option String

/-- `INSERT ... ON CONFLICT DO NOTHING` of one row. -/
def insertEvent (events : List Event) (row : Event) : List Event :=
  if events.any fun e => decide (e.key = row.key) then events else events ++ [row]

/-- `_advance_cursor`. -/
def advanceCursor (source : Source) (newTime : Time) (st : Store) : Store :=
  { st with cursors := Function.update st.cursors source (some newTime) }

/-- The rows of a source that are newer than `since`. -/
def newer (since : Option Time) (rows : List Event) : List Event :=
  match since with
  | some t => rows.filter fun r => decide (t < r.time)
  | none => rows

/-- Rows are inserted, and the cursor of their source moves to the newest. -/
def storeRows (source : Source) : List Event → Store → Store
  | [], st => st
  | r :: rest, st =>
    advanceCursor source ((rest.map (·.time)).foldl max r.time)
      { st with events := (r :: rest).foldl insertEvent st.events }

/-- `_store_source`. -/
def storeSource (deviceId : DeviceId) (device : Device) (source : Source) (raw : List RawEvent)
    (since : Option Time) (st : Store) : Store :=
  storeRows source (newer since (raw.map (normalize deviceId device source))) st

/-- What `_fetch` of a source gives. -/
inductive Fetched where
  | rows (raw : List RawEvent)
  /-- An `OpnsenseError`. -/
  | unavailable
  /-- Any other exception. -/
  | raised

/-- The third phase of `ingest_events` over the sources `todo`; `none` where an
exception is raised. -/
def storeAll (deviceId : DeviceId) (device : Device) (applied : List Time)
    (fetched : Source → Fetched) (sinces : Source → Option Time) :
    (todo : List Source) → Store → Option Store
  | [], st => some st
  | source :: todo, st =>
    match fetched source with
    | .unavailable => storeAll deviceId device applied fetched sinces todo st
    | .raised => none
    | .rows raw =>
      let attributed := if source = .configAudit then attributeMgmtIp applied st.mgmtSourceIp raw
        else (st.mgmtSourceIp, raw)
      storeAll deviceId device applied fetched sinces todo
        (storeSource deviceId device source attributed.2 (sinces source)
          { st with mgmtSourceIp := attributed.1 })

/-- `ingest_events`: the cursors are read before anything is fetched. -/
def ingestEvents (deviceId : DeviceId) (device : Device) (applied : List Time)
    (fetched : Source → Fetched) (st : Store) : Option Store :=
  storeAll deviceId device applied fetched st.cursors sources st

/-! ### The feed -/

/-- The logs of a device, and what is stored of them. -/
structure Feed where
  log : Source → List RawEvent
  store : Store

/-- How the fetch of a source ends. -/
inductive Outcome where
  | answered
  | unavailable
  | raised
  deriving DecidableEq

/-- A row is appended to the log of a source, or the job `ingest_device_events`
runs. -/
inductive FeedEvent where
  | append (source : Source) (row : RawEvent)
  | poll (applied : List Time) (outcome : Source → Outcome)

/-- A poll returns the whole log of a source as it stands. -/
def Feed.fetched (feed : Feed) (outcome : Source → Outcome) (source : Source) : Fetched :=
  match outcome source with
  | .answered => .rows (feed.log source)
  | .unavailable => .unavailable
  | .raised => .raised

/-- A step of the feed; a job that raises commits nothing. -/
def Feed.step (deviceId : DeviceId) (device : Device) (feed : Feed) : FeedEvent → Option Feed
  | .append source row =>
    some { feed with log := Function.update feed.log source (feed.log source ++ [row]) }
  | .poll applied outcome =>
    some { feed with
      store := (ingestEvents deviceId device applied (feed.fetched outcome) feed.store).getD
        feed.store }

def Feed.init (log : Source → List RawEvent) : Feed := ⟨log, ⟨[], fun _ => none, none⟩⟩

/-- The row is stored under its key. -/
def Stored (deviceId : DeviceId) (source : Source) (row : RawEvent) (st : Store) : Prop :=
  ∃ e ∈ st.events, e.key = (row.time, deviceId, source, row.eventKey)

instance (deviceId : DeviceId) (source : Source) (row : RawEvent) (st : Store) :
    Decidable (Stored deviceId source row st) :=
  inferInstanceAs (Decidable (∃ e ∈ st.events, _))

/-- A row that is appended is newer than the cursor of its source, unless it is
stored already. -/
def Feed.Fresh (deviceId : DeviceId) (feed : Feed) : FeedEvent → Prop
  | .append source row =>
    (∀ t, feed.store.cursors source = some t → t < row.time) ∨
      Stored deviceId source row feed.store
  | .poll .. => True

/-! ### What a poll stores -/

theorem mem_insertEvent {events : List Event} {row e : Event} (h : e ∈ events) :
    e ∈ insertEvent events row := by
  unfold insertEvent
  split
  · exact h
  · exact List.mem_append_left _ h

theorem insertEvent_key (events : List Event) (row : Event) :
    ∃ e ∈ insertEvent events row, e.key = row.key := by
  unfold insertEvent
  split
  · rename_i h
    obtain ⟨e, he, hkey⟩ := List.any_eq_true.mp h
    exact ⟨e, he, by simpa using hkey⟩
  · exact ⟨row, by simp, rfl⟩

theorem mem_insertEvents {events : List Event} {rows : List Event} {e : Event} (h : e ∈ events) :
    e ∈ rows.foldl insertEvent events := by
  induction rows generalizing events with
  | nil => exact h
  | cons r rows ih => exact ih (mem_insertEvent h)

theorem insertEvents_key {events rows : List Event} {row : Event} (h : row ∈ rows) :
    ∃ e ∈ rows.foldl insertEvent events, e.key = row.key := by
  induction rows generalizing events with
  | nil => cases h
  | cons r rows ih =>
    rcases List.mem_cons.mp h with rfl | h
    · obtain ⟨e, he, hkey⟩ := insertEvent_key events row
      show ∃ e ∈ rows.foldl insertEvent (insertEvent events row), e.key = row.key
      exact ⟨e, mem_insertEvents he, hkey⟩
    · exact ih h

theorem storeRows_events {source : Source} {rows : List Event} {st : Store} {e : Event}
    (h : e ∈ st.events) : e ∈ (storeRows source rows st).events := by
  cases rows with
  | nil => exact h
  | cons r rest => exact mem_insertEvents h

theorem storeRows_cursor {source other : Source} {rows : List Event} {st : Store}
    (h : other ≠ source) : (storeRows source rows st).cursors other = st.cursors other := by
  cases rows with
  | nil => rfl
  | cons r rest => exact Function.update_of_ne h _ _

theorem storeRows_key {source : Source} {rows : List Event} {st : Store} {row : Event}
    (h : row ∈ rows) : ∃ e ∈ (storeRows source rows st).events, e.key = row.key := by
  cases rows with
  | nil => cases h
  | cons r rest => exact insertEvents_key h

/-- **A row that is newer than the cursor is stored.** -/
theorem storeSource_newer {deviceId : DeviceId} {device : Device} {source : Source}
    {raw : List RawEvent} {since : Option Time} {st : Store} {row : RawEvent} (hrow : row ∈ raw)
    (hnew : ∀ t, since = some t → t < row.time) :
    Stored deviceId source row (storeSource deviceId device source raw since st) := by
  have hin := List.mem_map_of_mem (f := normalize deviceId device source) hrow
  have hmem : normalize deviceId device source row ∈
      newer since (raw.map (normalize deviceId device source)) := by
    cases since with
    | none => exact hin
    | some t => exact List.mem_filter.mpr ⟨hin, decide_eq_true (hnew t rfl)⟩
  exact storeRows_key hmem

theorem reclassify_key (mgmt : String) (e : RawEvent) :
    (reclassify mgmt e).time = e.time ∧ (reclassify mgmt e).eventKey = e.eventKey := by
  unfold reclassify
  split
  · split
    · exact ⟨rfl, rfl⟩
    · exact ⟨rfl, rfl⟩
  · exact ⟨rfl, rfl⟩

theorem attributeMgmtIp_key (applied : List Time) (known : Option String) {raw : List RawEvent}
    {row : RawEvent} (h : row ∈ raw) :
    ∃ row' ∈ (attributeMgmtIp applied known raw).2,
      row'.time = row.time ∧ row'.eventKey = row.eventKey := by
  unfold attributeMgmtIp
  simp only
  split
  · exact ⟨row, h, rfl, rfl⟩
  · split
    · split
      · exact ⟨_, List.mem_map_of_mem h, reclassify_key _ row⟩
      · exact ⟨row, h, rfl, rfl⟩
    · exact ⟨row, h, rfl, rfl⟩

theorem Stored.mono {deviceId : DeviceId} {source : Source} {row : RawEvent} {st st' : Store}
    (h : Stored deviceId source row st) (hsub : ∀ e ∈ st.events, e ∈ st'.events) :
    Stored deviceId source row st' := by
  obtain ⟨e, he, hkey⟩ := h
  exact ⟨e, hsub e he, hkey⟩

section Poll

variable {deviceId : DeviceId} {device : Device} {applied : List Time} {fetched : Source → Fetched}
  {sinces : Source → Option Time}

theorem storeAll_frame {todo : List Source} {st st' : Store}
    (h : storeAll deviceId device applied fetched sinces todo st = some st') :
    (∀ e ∈ st.events, e ∈ st'.events) ∧
      ∀ s, s ∉ todo ∨ fetched s = .unavailable → st'.cursors s = st.cursors s := by
  induction todo generalizing st with
  | nil =>
    obtain rfl := Option.some.inj h
    exact ⟨fun _ he => he, fun _ _ => rfl⟩
  | cons source todo ih =>
    rw [storeAll] at h
    split at h
    · obtain ⟨hev, hcur⟩ := ih h
      refine ⟨hev, fun s hs => hcur s ?_⟩
      exact hs.imp_left fun hn hin => hn (List.mem_cons_of_mem _ hin)
    · cases h
    · rename_i raw hraw
      obtain ⟨hev, hcur⟩ := ih h
      refine ⟨fun e he => hev e (storeRows_events he), fun s hs => ?_⟩
      have hne : s ≠ source := by
        rintro rfl
        rcases hs with hs | hs
        · exact hs List.mem_cons_self
        · rw [hraw] at hs
          cases hs
      rw [hcur s (hs.imp_left fun hn hin => hn (List.mem_cons_of_mem _ hin))]
      exact storeRows_cursor hne

theorem storeAll_not_raised {todo : List Source} {st st' : Store}
    (h : storeAll deviceId device applied fetched sinces todo st = some st') {source : Source}
    (hs : source ∈ todo) : fetched source ≠ .raised := by
  induction todo generalizing st with
  | nil => cases hs
  | cons s todo ih =>
    rw [storeAll] at h
    rcases List.mem_cons.mp hs with rfl | hs
    · intro hraised
      rw [hraised] at h
      cases h
    · split at h
      · exact ih h hs
      · cases h
      · exact ih h hs

theorem storeAll_newer {todo : List Source} {st st' : Store}
    (h : storeAll deviceId device applied fetched sinces todo st = some st') {source : Source}
    (hs : source ∈ todo) {raw : List RawEvent} (hraw : fetched source = .rows raw) {row : RawEvent}
    (hrow : row ∈ raw) (hnew : ∀ t, sinces source = some t → t < row.time) :
    Stored deviceId source row st' := by
  induction todo generalizing st with
  | nil => cases hs
  | cons s todo ih =>
    rw [storeAll] at h
    rcases List.mem_cons.mp hs with rfl | hs
    · rw [hraw] at h
      refine Stored.mono ?_ (storeAll_frame h).1
      -- the rows that are stored are those fetched, up to their attribution
      split
      · obtain ⟨row', hrow', htime, hkey⟩ := attributeMgmtIp_key applied st.mgmtSourceIp hrow
        have hst : Stored deviceId source row' (storeSource deviceId device source
            (attributeMgmtIp applied st.mgmtSourceIp raw).2 (sinces source)
            { st with mgmtSourceIp := (attributeMgmtIp applied st.mgmtSourceIp raw).1 }) :=
          storeSource_newer hrow' (by rwa [htime])
        rw [Stored, htime, hkey] at hst
        exact hst
      · exact storeSource_newer hrow hnew
    · split at h
      · exact ih h hs
      · cases h
      · exact ih h hs

end Poll

/-! ### Runs -/

/-- Every row of a log is stored, or newer than the cursor. -/
def Ahead (deviceId : DeviceId) (feed : Feed) : Prop :=
  ∀ source, ∀ row ∈ feed.log source, Stored deviceId source row feed.store ∨
    ∀ t, feed.store.cursors source = some t → t < row.time

theorem Ahead.init (deviceId : DeviceId) (log : Source → List RawEvent) :
    Ahead deviceId (.init log) := by
  intro source row _
  exact .inr fun t ht => nomatch ht

theorem mem_sources (source : Source) : source ∈ sources := by
  cases source <;> decide

/-- **A poll that comes to its end leaves no row of a fetched source behind.** -/
theorem Ahead.poll {deviceId : DeviceId} {device : Device} {feed : Feed} (h : Ahead deviceId feed)
    {applied : List Time} {outcome : Source → Outcome} {st : Store}
    (hst : ingestEvents deviceId device applied (feed.fetched outcome) feed.store = some st)
    {source : Source} (hs : outcome source = .answered) :
    ∀ row ∈ feed.log source, Stored deviceId source row st := by
  intro row hrow
  have hraw : feed.fetched outcome source = .rows (feed.log source) := by
    rw [Feed.fetched, hs]
  rcases h source row hrow with hstored | hnew
  · exact hstored.mono (storeAll_frame hst).1
  · exact storeAll_newer hst (mem_sources source) hraw hrow hnew

theorem Ahead.step {deviceId : DeviceId} {device : Device} {feed feed' : Feed}
    (h : Ahead deviceId feed) {e : FeedEvent} (hfresh : feed.Fresh deviceId e)
    (hstep : feed.step deviceId device e = some feed') : Ahead deviceId feed' := by
  cases e with
  | append source row =>
    obtain rfl := Option.some.inj hstep
    intro s r hr
    by_cases hs : s = source
    · subst hs
      change r ∈ Function.update feed.log s _ s at hr
      rw [Function.update_self] at hr
      rcases List.mem_append.mp hr with hr | hr
      · exact h s r hr
      · obtain rfl := List.mem_singleton.mp hr
        exact hfresh.symm
    · change r ∈ Function.update feed.log source _ s at hr
      rw [Function.update_of_ne hs] at hr
      exact h s r hr
  | poll applied outcome =>
    obtain rfl := Option.some.inj hstep
    cases hst : ingestEvents deviceId device applied (feed.fetched outcome) feed.store with
    | none => exact h
    | some st =>
      intro s r hr
      show Stored deviceId s r st ∨ ∀ t, st.cursors s = some t → t < r.time
      obtain ⟨hev, hcur⟩ := storeAll_frame hst
      cases hout : outcome s with
      | answered => exact .inl (h.poll hst hout r hr)
      | unavailable =>
        rw [hcur s (.inr (by rw [Feed.fetched, hout]))]
        exact (h s r hr).imp_left fun hstored => hstored.mono hev
      | raised =>
        exact absurd (by rw [Feed.fetched, hout]) (storeAll_not_raised hst (mem_sources s))

/-- **No event is lost**: in a run in which every row that is appended is newer
than the cursor of its source, or stored already, a poll that comes to its end
has every row of every source it fetched in the store. -/
theorem no_event_lost (deviceId : DeviceId) (device : Device) (log : Source → List RawEvent)
    (es : List FeedEvent) (feed : Feed)
    (hfresh : Along (Feed.step deviceId device) (Feed.Fresh deviceId) (.init log) es)
    (hrun : runAll (Feed.step deviceId device) (.init log) es = some feed)
    (applied : List Time) (outcome : Source → Outcome) (st : Store)
    (hpoll : ingestEvents deviceId device applied (feed.fetched outcome) feed.store = some st)
    (source : Source) (hs : outcome source = .answered) :
    ∀ row ∈ feed.log source, Stored deviceId source row st := by
  have h : Ahead deviceId feed :=
    runAll_invariant (fun _ _ _ h hf hstep => h.step hf hstep) (Ahead.init deviceId log) hfresh hrun
  exact h.poll hpoll hs

def lineAt (time : Time) (key : String) : RawEvent :=
  ⟨time, key, none, none, none, none, none, none, none⟩

def allAnswer : Source → Outcome := fun _ => .answered

def anyBox : Device := ⟨0, none, true⟩

/-- Two rows of the DNS log in different seconds, with a poll between them. -/
theorem differentSeconds_stored :
    ∃ feed st, runAll (Feed.step 0 anyBox) (.init fun _ => [])
        [.append .dns (lineAt 7 "a"), .poll [] allAnswer, .append .dns (lineAt 8 "b")] =
          some feed ∧
      ingestEvents 0 anyBox [] (feed.fetched allAnswer) feed.store = some st ∧
      Stored 0 .dns (lineAt 8 "b") st := by
  refine ⟨_, _, rfl, rfl, ?_⟩
  refine no_event_lost 0 anyBox (fun _ => [])
    [.append .dns (lineAt 7 "a"), .poll [] allAnswer, .append .dns (lineAt 8 "b")] _ ?_ rfl []
    allAnswer _ rfl .dns rfl (lineAt 8 "b") (List.mem_cons_of_mem _ List.mem_cons_self)
  refine ⟨.inl fun t ht => (nomatch ht), fun _ hs => ?_⟩
  obtain rfl := Option.some.inj hs
  refine ⟨trivial, fun _ hs => ?_⟩
  obtain rfl := Option.some.inj hs
  refine ⟨.inl fun t ht => ?_, fun _ _ => trivial⟩
  obtain rfl : 7 = t := Option.some.inj ht
  decide

/-- Two rows of the same second, with a poll between them: the next poll fetches
both and stores none. -/
theorem sameSecond_lost :
    ∃ feed st, runAll (Feed.step 0 anyBox) (.init fun _ => [])
        [.append .dns (lineAt 7 "a"), .poll [] allAnswer, .append .dns (lineAt 7 "b")] =
          some feed ∧
      ingestEvents 0 anyBox [] (feed.fetched allAnswer) feed.store = some st ∧
      lineAt 7 "b" ∈ feed.log .dns ∧ ¬ Stored 0 .dns (lineAt 7 "b") st := by
  refine ⟨_, _, rfl, rfl, List.mem_cons_of_mem _ List.mem_cons_self, ?_⟩
  decide +kernel

end Ingest

end Opngms
