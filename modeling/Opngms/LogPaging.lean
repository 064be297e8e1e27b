/-
Opngms/LogPaging.lean

The pages of a log search: `fetchPage`, `run` and `loadMore` of pages/LogsPage.tsx, over
`search_logs_endpoint` of api/logs.py and `search_logs` of services/log_search.py.

A search opens a Point-In-Time, a snapshot of the store in a fixed order, and each page goes
on past the sort values of the last hit.  The cursor holds no filters: a page is asked for
with those that stand in the form when its button is clicked.

Main result: **`shows_one_query`**, for every run whose pages are asked for with filters that
select what those of the last search do.
-/
import Mathlib.Data.Prod.Lex
import Mathlib.Order.OrderDual
import Opngms.Keyset
import Opngms.Pool

namespace Opngms

namespace LogPaging

/-! ### The store -/

/-- The fields of a log document that are queried or shown; times are milliseconds. -/
structure Source where
  tenantId : String
  timestamp : Int
  deviceId : Option String
  host : Option String
  program : Option String
  message : Option String
  deriving DecidableEq

structure Doc where
  id : String
  /-- The position in the shards of a Point-In-Time. -/
  shardDoc : Nat
  source : Source
  deriving DecidableEq

abbrev SortValues : Type := Int ×ₗ ℕᵒᵈ

/-- `[{"@timestamp": "desc"}, {"_shard_doc": "asc"}]`. -/
def Doc.sort (d : Doc) : SortValues := toLex (d.source.timestamp, OrderDual.toDual d.shardDoc)

/-- The documents of a Point-In-Time, which its sort orders totally. -/
structure Snapshot where
  docs : List Doc
  distinct : Keyset.Distinct Doc.sort docs

/-- A clause of the filter context. -/
inductive Clause where
  | tenantId (value : String)
  | timestamp (gte lte : Int)
  | deviceId (value : String)
  deriving DecidableEq

/-- The body of a search. -/
structure Body where
  filter : List Clause
  /-- The `query_string` of the must clause. -/
  must : Option String
  pitId : Nat
  size : Int
  searchAfter : Option SortValues

/-- What is outside the code: the settings, the devices, dates and Lucene queries. -/
structure Env where
  logSearchMaxSize : Int
  logSearchMaxRangeDays : Int
  /-- The device is one of the tenant. -/
  owns : String → String → Bool
  /-- `dayjs(value).toISOString()`; `none` where it throws. -/
  toIso : String → Option Int
  /-- A `query_string` matches a document. -/
  queryString : String → Source → Bool
  /-- What the store answers to a search for fewer than no hits. -/
  negativeSize : Body → Snapshot → Option (Nat × List Doc)

/-- OpenSearch answers a negative `size` with an error. -/
def Env.RefusesNegative (env : Env) : Prop := ∀ body pit, env.negativeSize body pit = none

def Clause.matches (d : Source) : Clause → Bool
  | .tenantId value => decide (d.tenantId = value)
  | .timestamp gte lte => decide (gte ≤ d.timestamp ∧ d.timestamp ≤ lte)
  | .deviceId value => decide (d.deviceId = some value)

def Body.matches (env : Env) (body : Body) (d : Doc) : Bool :=
  body.filter.all (Clause.matches d.source) &&
    body.must.all fun query => env.queryString query d.source

/-- `POST /_search`: the count of all matches and the page; `none` is an error. -/
def postSearch (env : Env) (pits : List Snapshot) (body : Body) : Option (Nat × List Doc) :=
  match pits[body.pitId]? with
  | none => none
  | some pit =>
    if body.size < 0 then env.negativeSize body pit
    else some ((pit.docs.filter (body.matches env)).length,
      Keyset.page Doc.sort (body.matches env) body.searchAfter body.size.toNat pit.docs)

/-! ### The API -/

def maxSize : Int := 200

/-- `build_search_body`. -/
def buildSearchBody (tenantId : String) (frm upTo : Int) (query : String)
    (deviceId : Option String) (size : Int) (pitId : Nat) (searchAfter : Option SortValues) :
    Body where
  filter := [.tenantId tenantId, .timestamp frm upTo] ++
    match deviceId with
    | some device => [.deviceId device]
    | none => []
  must := if query ≠ "" then some query else none
  pitId := pitId
  size := min size maxSize
  searchAfter := searchAfter

structure LogHit where
  id : String
  timestamp : Int
  deviceId : String
  host : String
  program : String
  message : String
  source : Source
  deriving DecidableEq

def LogHit.ofDoc (d : Doc) : LogHit where
  id := d.id
  timestamp := d.source.timestamp
  deviceId := d.source.deviceId.getD ""
  host := d.source.host.getD ""
  program := d.source.program.getD ""
  message := d.source.message.getD ""
  source := d.source

structure LogCursor where
  pitId : Nat
  after : SortValues
  deriving DecidableEq

structure LogSearchOut where
  total : Nat
  hits : List LogHit
  nextCursor : Option LogCursor

structure LogSearchIn where
  query : String
  deviceId : Option String
  frm : Int
  upTo : Int
  size : Int
  cursor : Option LogCursor
  deriving DecidableEq

/-- Where a search reads: the Point-In-Time, the sort values to go on after, and those that
are open then.  Without a cursor a new one is opened. -/
def readFrom (content : Snapshot) (pits : List Snapshot) :
    Option LogCursor → Nat × Option SortValues × List Snapshot
  | none => (pits.length, none, pits ++ [content])
  | some cursor => (cursor.pitId, some cursor.after, pits)

/-- `search_logs`, with the Point-In-Times that are open afterwards. -/
def searchLogs (env : Env) (content : Snapshot) (pits : List Snapshot) (tenantId : String)
    (req : LogSearchIn) (size : Int) : Option (LogSearchOut × List Snapshot) :=
  let effSize := min size maxSize
  let (pitId, searchAfter, pits) := readFrom content pits req.cursor
  let body := buildSearchBody tenantId req.frm req.upTo req.query req.deviceId effSize pitId
    searchAfter
  match postSearch env pits body with
  | none => none
  | some (total, docs) =>
    let nextCursor :=
      if docs.length = effSize then docs.getLast?.map fun d => ⟨pitId, d.sort⟩ else none
    some (⟨total, docs.map LogHit.ofDoc, nextCursor⟩, pits)

inductive ApiError where
  | unprocessable
  | notAfter
  | rangeTooLong
  | deviceNotFound
  | unavailable
  deriving DecidableEq

/-- `search_logs_endpoint`. -/
def searchLogsEndpoint (env : Env) (content : Snapshot) (pits : List Snapshot) (tenantId : String)
    (req : LogSearchIn) : Except ApiError (LogSearchOut × List Snapshot) :=
  if 2048 < req.query.length ∨ req.size < 1 then .error .unprocessable
  else if req.upTo ≤ req.frm then .error .notAfter
  else if req.upTo - req.frm > env.logSearchMaxRangeDays * 86400000 then .error .rangeTooLong
  else if req.deviceId.any fun device => !env.owns tenantId device then .error .deviceNotFound
  else
    match searchLogs env content pits tenantId req
        (min (min req.size env.logSearchMaxSize) maxSize) with
    | none => .error .unavailable
    | some out => .ok out

/-! ### The page -/

/-- The form. -/
structure Filters where
  query : String
  deviceId : Option String
  frm : Option String
  upTo : Option String
  deriving DecidableEq

structure State where
  filters : Filters
  hits : List LogHit
  cursor : Option LogCursor
  total : Option Nat
  searched : Bool
  /-- The request that is under way. -/
  pending : Option LogSearchIn
  /-- What is stored now, and the Point-In-Times. -/
  content : Snapshot
  pits : List Snapshot
  /-- For the account of the run: the filters of the last search, and the Point-In-Time that
  its first page has opened. -/
  lastSearch : Option Filters
  view : Option Snapshot

/-- The request that the form makes; `none` where a date is missing or cannot be read. -/
def Filters.request (env : Env) (f : Filters) (cursor : Option LogCursor) : Option LogSearchIn :=
  match f.frm, f.upTo with
  | some frm, some upTo =>
    if frm = "" ∨ upTo = "" then none
    else
      match env.toIso frm, env.toIso upTo with
      | some frm, some upTo => some ⟨f.query, f.deviceId, frm, upTo, 100, cursor⟩
      | _, _ => none
  | _, _ => none

/-- `fetchPage`, up to the request. -/
def State.fetchPage (env : Env) (s : State) (c : Option LogCursor) : State :=
  match s.filters.request env c with
  | none => s
  | some req => { s with pending := some req }

/-- `run`. -/
def State.run (env : Env) (s : State) : State :=
  State.fetchPage env
    { s with hits := [], cursor := none, total := none, lastSearch := some s.filters, view := none }
    none

/-- `loadMore`. -/
def State.loadMore (env : Env) (s : State) : State := s.fetchPage env s.cursor

/-- The rest of `fetchPage`, when the request is answered or has failed. -/
def State.answer (env : Env) (tenantId : String) (s : State) (req : LogSearchIn) (fails : Bool) :
    State :=
  if fails then { s with pending := none }
  else
    match searchLogsEndpoint env s.content s.pits tenantId req with
    | .error _ => { s with pending := none }
    | .ok (res, pits) =>
      { s with
        pending := none
        hits := if req.cursor.isSome then s.hits ++ res.hits else res.hits
        cursor := res.nextCursor
        total := some res.total
        searched := true
        pits := pits
        view := if req.cursor.isSome then s.view else some s.content }

def State.displayed (s : State) : List LogHit := if s.searched then s.hits else []

inductive Event where
  | setQuery (value : String)
  | setDeviceId (value : Option String)
  | setFrm (value : Option String)
  | setUpTo (value : Option String)
  | search
  | loadMore
  /-- The request that is under way is answered; any may fail. -/
  | answer (fails : Bool)
  /-- The store changes. -/
  | ingest (content : Snapshot)

/-- One step; `none` where a button is not there or is loading, or nothing is under way. -/
def step (env : Env) (tenantId : String) (s : State) : Event → Option State
  | .setQuery value => some { s with filters := { s.filters with query := value } }
  | .setDeviceId value => some { s with filters := { s.filters with deviceId := value } }
  | .setFrm value => some { s with filters := { s.filters with frm := value } }
  | .setUpTo value => some { s with filters := { s.filters with upTo := value } }
  | .search => if s.pending.isSome then none else some (s.run env)
  | .loadMore =>
    if s.pending.isSome ∨ s.searched = false ∨ s.cursor = none then none else some (s.loadMore env)
  | .answer fails => s.pending.map fun req => s.answer env tenantId req fails
  | .ingest content => some { s with content := content }

/-! ### What is to be shown -/

/-- The document matches the filters: it is of the tenant, of the time between the dates, of
the device if one is chosen, and matches the query if there is one. -/
def Filters.selects (env : Env) (tenantId : String) (f : Filters) (d : Doc) : Bool :=
  match f.request env none with
  | none => false
  | some req =>
    decide (d.source.tenantId = tenantId) &&
      decide (req.frm ≤ d.source.timestamp ∧ d.source.timestamp ≤ req.upTo) &&
      f.deviceId.all (fun device => decide (d.source.deviceId = some device)) &&
      (decide (f.query = "") || env.queryString f.query d.source)

def matching (env : Env) (tenantId : String) (f : Filters) (view : Snapshot) : List Doc :=
  Keyset.listing Doc.sort (f.selects env tenantId) view.docs

/-- The hits are a prefix of what the last search matches, and all of it where a page that
succeeded since offers no more. -/
def ShowsOneQuery (env : Env) (tenantId : String) (s : State) : Prop :=
  match s.lastSearch, s.view with
  | some f, some view =>
    s.displayed <+: (matching env tenantId f view).map LogHit.ofDoc ∧
      (s.cursor = none → s.displayed = (matching env tenantId f view).map LogHit.ofDoc)
  | _, _ => s.displayed = []

/-- Where the next page is asked for, the filters of the form select, past the cursor, what
those of the last search do. -/
def SameQuery (env : Env) (tenantId : String) (s : State) : Event → Prop
  | .loadMore =>
    ∀ f view cursor, s.lastSearch = some f → s.view = some view → s.cursor = some cursor →
      (s.filters.request env none).isSome = true →
        ∀ d ∈ view.docs, Keyset.isPast Doc.sort (some cursor.after) d →
          s.filters.selects env tenantId d = f.selects env tenantId d
  | _ => True

/-- The page as it opens. -/
structure Opens (s : State) : Prop where
  hits : s.hits = []
  cursor : s.cursor = none
  searched : s.searched = false
  pending : s.pending = none
  view : s.view = none

/-! ### A request and its answer -/

section Answers

variable {env : Env} {tenantId : String} {f : Filters} {c : Option LogCursor} {req : LogSearchIn}
  {content : Snapshot} {pits pits' : List Snapshot} {res : LogSearchOut}

theorem request_some (h : f.request env c = some req) :
    ∃ frm upTo, f.request env none = some ⟨f.query, f.deviceId, frm, upTo, 100, none⟩ ∧
      req = ⟨f.query, f.deviceId, frm, upTo, 100, c⟩ := by
  rw [Filters.request] at h ⊢
  split at h
  · rename_i hfrm hupTo
    split at h
    · exact nomatch h
    · rename_i hfull
      split at h
      · rename_i frm upTo hiso hiso'
        refine ⟨frm, upTo, ?_, (Option.some.inj h).symm⟩
        simp [*]
      · exact nomatch h
  · exact nomatch h

theorem matches_request (h : f.request env c = some req) (size : Int) (pitId : Nat)
    (after : Option SortValues) :
    (buildSearchBody tenantId req.frm req.upTo req.query req.deviceId size pitId after).matches
      env = f.selects env tenantId := by
  obtain ⟨frm, upTo, hnone, rfl⟩ := request_some h
  funext d
  rw [Filters.selects, hnone, Body.matches]
  cases hdevice : f.deviceId with
  | none =>
    by_cases hquery : f.query = ""
    · simp [buildSearchBody, Clause.matches, hquery]
    · simp [buildSearchBody, Clause.matches, hquery]
  | some device =>
    by_cases hquery : f.query = ""
    · simp [buildSearchBody, Clause.matches, hquery, Bool.and_assoc]
    · simp [buildSearchBody, Clause.matches, hquery, Bool.and_assoc]

theorem postSearch_some (hnegative : env.RefusesNegative) {body : Body} {total : Nat}
    {docs : List Doc} (h : postSearch env pits body = some (total, docs)) :
    0 ≤ body.size ∧ ∃ view, pits[body.pitId]? = some view ∧
      docs = Keyset.page Doc.sort (body.matches env) body.searchAfter body.size.toNat
        view.docs := by
  rw [postSearch] at h
  split at h
  · exact nomatch h
  · rename_i view hview
    split at h
    · rw [hnegative] at h
      exact nomatch h
    · rename_i hsize
      obtain ⟨-, rfl⟩ := Prod.mk.inj (Option.some.inj h)
      exact ⟨Int.not_lt.mp hsize, view, hview, rfl⟩

/-- What an answer holds: a page of what the filters select, past the cursor, and a cursor to
its last row if it is full. -/
structure IsPage (env : Env) (tenantId : String) (f : Filters) (content : Snapshot)
    (pits pits' : List Snapshot) (c : Option LogCursor) (res : LogSearchOut) (n : Nat)
    (view : Snapshot) : Prop where
  positive : 0 < n
  opens : pits' = (readFrom content pits c).2.2
  reads : pits'[(readFrom content pits c).1]? = some view
  page : ∃ docs, docs = Keyset.page Doc.sort (f.selects env tenantId) (c.map LogCursor.after) n
      view.docs ∧
    res.hits = docs.map LogHit.ofDoc ∧
    res.nextCursor = (Keyset.next Doc.sort n docs).map fun after =>
      ⟨(readFrom content pits c).1, after⟩

theorem readFrom_after (content : Snapshot) (pits : List Snapshot) (c : Option LogCursor) :
    (readFrom content pits c).2.1 = c.map LogCursor.after := by
  cases c with
  | none => rfl
  | some cursor => rfl

theorem searchLogs_some (hnegative : env.RefusesNegative) (hreq : f.request env c = some req)
    {size : Int} (hsize : size ≠ 0)
    (h : searchLogs env content pits tenantId req size = some (res, pits')) :
    ∃ n view, IsPage env tenantId f content pits pits' c res n view := by
  have hcursor : req.cursor = c := by
    obtain ⟨frm, upTo, -, rfl⟩ := request_some hreq
    rfl
  simp only [searchLogs, hcursor] at h
  split at h
  · exact nomatch h
  · rename_i total docs hpost
    obtain ⟨rfl, rfl⟩ := Prod.mk.inj (Option.some.inj h)
    obtain ⟨hnonneg, view, hview, hdocs⟩ := postSearch_some hnegative hpost
    rw [matches_request hreq] at hdocs
    obtain ⟨n, hn⟩ : ∃ n : Nat, min size maxSize = n := by
      refine ⟨(min size maxSize).toNat, ?_⟩
      have hbody : 0 ≤ min (min size maxSize) maxSize := hnonneg
      omega
    have hmin : min (min size maxSize) maxSize = n := by omega
    have hpositive : 0 < n := by
      have hmax : maxSize = 200 := rfl
      omega
    refine ⟨n, view, hpositive, rfl, hview, docs, ?_, rfl, ?_⟩
    · rw [← readFrom_after content pits, hdocs]
      show Keyset.page Doc.sort _ _ (min (min size maxSize) maxSize).toNat _ = _
      rw [hmin]
      rfl
    · rw [hn, Keyset.next]
      by_cases hlen : docs.length = n
      · rw [if_pos (congrArg Nat.cast hlen), if_pos hlen, Option.map_map]
        rfl
      · have hne : (docs.length : Int) ≠ n := by omega
        rw [if_neg hne, if_neg hlen]
        rfl

theorem searchLogsEndpoint_ok (hnegative : env.RefusesNegative) (hsize : env.logSearchMaxSize ≠ 0)
    (hreq : f.request env c = some req)
    (h : searchLogsEndpoint env content pits tenantId req = .ok (res, pits')) :
    ∃ n view, IsPage env tenantId f content pits pits' c res n view := by
  have hhundred : req.size = 100 := by
    obtain ⟨frm, upTo, -, rfl⟩ := request_some hreq
    rfl
  have heff : min (min req.size env.logSearchMaxSize) maxSize ≠ 0 := by
    have hmax : maxSize = 200 := rfl
    omega
  rw [searchLogsEndpoint] at h
  split at h
  · exact nomatch h
  split at h
  · exact nomatch h
  split at h
  · exact nomatch h
  split at h
  · exact nomatch h
  split at h
  · exact nomatch h
  · rename_i out hout
    obtain rfl := Except.ok.inj h
    exact searchLogs_some hnegative hreq heff hout

end Answers

/-! ### The hits, page after page -/

/-- The hits are the begin of what the filters match, and the cursor stands at their end. -/
structure Shown (env : Env) (tenantId : String) (f : Filters) (view : Snapshot)
    (s : State) : Prop where
  searched : s.searched = true
  split : ∃ shown rest, matching env tenantId f view = shown ++ rest ∧
    s.hits = shown.map LogHit.ofDoc ∧
    (s.cursor = none → rest = []) ∧
    ∀ cursor, s.cursor = some cursor → s.pits[cursor.pitId]? = some view ∧
      ∃ init last, shown = init ++ [last] ∧ cursor.after = last.sort

/-- What is under way is the last search, or a page that goes on with it. -/
def Awaits (env : Env) (tenantId : String) (s : State) (req : LogSearchIn) : Prop :=
  match req.cursor with
  | none => s.view = none ∧ ∃ f, s.lastSearch = some f ∧ f.request env none = some req
  | some cursor => s.cursor = some cursor ∧ ∃ g : Filters, g.request env (some cursor) = some req ∧
      ∀ f view, s.lastSearch = some f → s.view = some view →
        ∀ d ∈ view.docs, Keyset.isPast Doc.sort (some cursor.after) d →
          g.selects env tenantId d = f.selects env tenantId d

structure Inv (env : Env) (tenantId : String) (s : State) : Prop where
  shown : ∀ view, s.view = some view →
    ∃ f, s.lastSearch = some f ∧ Shown env tenantId f view s
  empty : s.view = none → s.hits = [] ∧ s.cursor = none
  awaits : ∀ req, s.pending = some req → Awaits env tenantId s req

section Runs

variable {env : Env} {tenantId : String} {s s' : State} {e : Event}

theorem Opens.inv (h : Opens s) : Inv env tenantId s where
  shown view hview := by
    rw [h.view] at hview
    exact nomatch hview
  empty _ := ⟨h.hits, h.cursor⟩
  awaits req hreq := by
    rw [h.pending] at hreq
    exact nomatch hreq

theorem Inv.shows (h : Inv env tenantId s) : ShowsOneQuery env tenantId s := by
  rw [ShowsOneQuery]
  cases hview : s.view with
  | none =>
    have hnone : s.displayed = [] := by
      rw [State.displayed, (h.empty hview).1, ite_self]
    cases s.lastSearch with
    | none => exact hnone
    | some f => exact hnone
  | some view =>
    obtain ⟨f, hf, hsearched, shown, rest, hsplit, hhits, hnone, -⟩ := h.shown view hview
    rw [hf]
    show s.displayed <+: _ ∧ (s.cursor = none → s.displayed = _)
    rw [State.displayed, hsearched, if_pos rfl, hhits, hsplit, List.map_append]
    refine ⟨List.prefix_append _ _, fun hcursor => ?_⟩
    rw [hnone hcursor, List.map_nil, List.append_nil]

theorem Inv.edit (h : Inv env tenantId s) (filters : Filters) (content : Snapshot) :
    Inv env tenantId { s with filters := filters, content := content } :=
  ⟨fun view hview =>
    have ⟨f, hf, hshown⟩ := h.shown view hview
    ⟨f, hf, hshown.searched, hshown.split⟩, h.empty, h.awaits⟩

theorem Inv.run (hpending : s.pending = none) : Inv env tenantId (s.run env) := by
  rw [State.run, State.fetchPage]
  split
  · refine ⟨fun view hview => (nomatch hview), fun _ => ⟨rfl, rfl⟩, ?_⟩
    intro req hreq
    exact nomatch hpending.symm.trans hreq
  · rename_i req hreq
    refine ⟨fun view hview => (nomatch hview), fun _ => ⟨rfl, rfl⟩, ?_⟩
    rintro req' ⟨⟩
    have hcursor : req.cursor = none := by
      obtain ⟨frm, upTo, -, rfl⟩ := request_some hreq
      rfl
    rw [Awaits, hcursor]
    exact ⟨rfl, s.filters, rfl, hreq⟩

theorem Inv.loadMore (h : Inv env tenantId s) (hsame : SameQuery env tenantId s .loadMore)
    {cursor : LogCursor} (hcursor : s.cursor = some cursor) :
    Inv env tenantId (s.loadMore env) := by
  rw [State.loadMore, State.fetchPage]
  split
  · exact h
  · rename_i req hreq
    refine ⟨?_, h.empty, ?_⟩
    · intro view hview
      obtain ⟨f, hf, hshown⟩ := h.shown view hview
      exact ⟨f, hf, hshown.searched, hshown.split⟩
    · rintro req' ⟨⟩
      rw [hcursor] at hreq
      obtain ⟨frm, upTo, hnone, rfl⟩ := request_some hreq
      refine ⟨hcursor, s.filters, hreq, ?_⟩
      intro f view hf hview
      exact hsame f view cursor hf hview hcursor (by rw [hnone]; rfl)

theorem Inv.answer (hnegative : env.RefusesNegative) (hsize : env.logSearchMaxSize ≠ 0)
    (h : Inv env tenantId s) {req : LogSearchIn} (hreq : s.pending = some req) (fails : Bool) :
    Inv env tenantId (s.answer env tenantId req fails) := by
  have hfailed : Inv env tenantId { s with pending := none } := by
    refine ⟨?_, h.empty, fun req hreq => nomatch hreq⟩
    intro view hview
    obtain ⟨f, hf, hshown⟩ := h.shown view hview
    exact ⟨f, hf, hshown.searched, hshown.split⟩
  have hawaits := h.awaits req hreq
  rw [Awaits] at hawaits
  rw [State.answer]
  split
  · exact hfailed
  split
  · exact hfailed
  rename_i res pits hok
  split at hawaits
  · -- the first page of a search
    rename_i hcursor
    obtain ⟨-, f, hf, hrequest⟩ := hawaits
    obtain ⟨n, view, hpage⟩ := searchLogsEndpoint_ok hnegative hsize hrequest hok
    obtain ⟨docs, hdocs, hhits, hnext⟩ := hpage.page
    have hview : view = s.content := by
      have hread := hpage.reads
      rw [hpage.opens] at hread
      simpa [readFrom] using hread.symm
    subst hview
    rw [hcursor]
    refine ⟨?_, fun hview => (nomatch hview), fun req hreq => nomatch hreq⟩
    rintro view ⟨⟩
    rw [Option.map_none, Keyset.page_none] at hdocs
    refine ⟨f, hf, rfl, docs, (matching env tenantId f s.content).drop n, ?_, hhits, ?_, ?_⟩
    · rw [hdocs, matching, List.take_append_drop]
    · intro hnone
      have hlast : Keyset.next Doc.sort n docs = none :=
        Option.map_eq_none_iff.mp (hnext.symm.trans hnone)
      rw [hdocs] at hlast
      exact Keyset.drop_of_next_none hpage.positive hlast
    · intro cursor hsome
      obtain ⟨after, hafter, rfl⟩ := Option.map_eq_some_iff.mp (hnext.symm.trans hsome)
      obtain ⟨init, last, hlast, rfl⟩ := Keyset.next_eq_some_last hafter
      exact ⟨hpage.reads, init, last, hlast, rfl⟩
  · -- a page that goes on
    rename_i cursor hcursor
    obtain ⟨hat, g, hrequest, hsame⟩ := hawaits
    obtain ⟨n, view, hpage⟩ := searchLogsEndpoint_ok hnegative hsize hrequest hok
    obtain ⟨docs, hdocs, hhits, hnext⟩ := hpage.page
    rw [hcursor]
    have hopens : pits = s.pits := hpage.opens
    refine ⟨?_, ?_, fun req hreq => nomatch hreq⟩
    · intro view' hview'
      obtain ⟨f, hf, -, shown, rest, hsplit, hshown, -, hcur⟩ := h.shown view' hview'
      obtain ⟨hpit, init, last, hlast, hafter⟩ := hcur cursor hat
      have hview : view = view' := by
        have hread := hpage.reads
        rw [hopens] at hread
        exact Option.some.inj (hread.symm.trans hpit)
      subst hview
      have hrest : docs = rest.take n := by
        rw [hdocs, Option.map_some, Keyset.page_congr (hsame f view hf hview'), hafter]
        apply Keyset.page_some view.distinct
        show matching env tenantId f view = init ++ last :: rest
        rw [hsplit, hlast, List.append_assoc]
        rfl
      refine ⟨f, hf, rfl, shown ++ docs, rest.drop n, ?_, ?_, ?_, ?_⟩
      · rw [hsplit, hrest, List.append_assoc, List.take_append_drop]
      · show s.hits ++ res.hits = _
        rw [hshown, hhits, List.map_append]
      · intro hnone
        have hlast : Keyset.next Doc.sort n docs = none :=
          Option.map_eq_none_iff.mp (hnext.symm.trans hnone)
        rw [hrest] at hlast
        exact Keyset.drop_of_next_none hpage.positive hlast
      · intro cursor' hsome
        obtain ⟨after, hafter, rfl⟩ := Option.map_eq_some_iff.mp (hnext.symm.trans hsome)
        obtain ⟨init', last', hlast', rfl⟩ := Keyset.next_eq_some_last hafter
        refine ⟨hpage.reads, shown ++ init', last', ?_, rfl⟩
        rw [hlast', List.append_assoc]
    · intro hview
      exact nomatch (h.empty hview).2.symm.trans hat

/-- **Every step keeps the invariant, where a page is asked for with the same query.** -/
theorem Inv.step (hnegative : env.RefusesNegative) (hsize : env.logSearchMaxSize ≠ 0)
    (h : Inv env tenantId s) (hsame : SameQuery env tenantId s e)
    (hstep : step env tenantId s e = some s') : Inv env tenantId s' := by
  cases e with
  | setQuery value =>
    obtain rfl := Option.some.inj hstep
    exact h.edit _ _
  | setDeviceId value =>
    obtain rfl := Option.some.inj hstep
    exact h.edit _ _
  | setFrm value =>
    obtain rfl := Option.some.inj hstep
    exact h.edit _ _
  | setUpTo value =>
    obtain rfl := Option.some.inj hstep
    exact h.edit _ _
  | search =>
    simp only [LogPaging.step] at hstep
    split at hstep
    · exact nomatch hstep
    · rename_i hpending
      obtain rfl := Option.some.inj hstep
      exact Inv.run (by simpa using hpending)
  | loadMore =>
    simp only [LogPaging.step] at hstep
    split at hstep
    · exact nomatch hstep
    · rename_i hthere
      obtain rfl := Option.some.inj hstep
      have hcursor : s.cursor ≠ none := fun hnone => hthere (.inr (.inr hnone))
      obtain ⟨cursor, hcursor⟩ := Option.ne_none_iff_exists'.mp hcursor
      exact h.loadMore hsame hcursor
  | answer fails =>
    obtain ⟨req, hreq, rfl⟩ := Option.map_eq_some_iff.mp hstep
    exact h.answer hnegative hsize hreq fails
  | ingest content =>
    obtain rfl := Option.some.inj hstep
    exact h.edit _ _

/-- **The paging shows one query**, in every state of a run whose pages are all asked for with
filters that select, past the cursor, what those of the last search do. -/
theorem shows_one_query (hnegative : env.RefusesNegative) (hsize : env.logSearchMaxSize ≠ 0)
    {es : List Event} (hopens : Opens s)
    (hsame : Along (step env tenantId) (SameQuery env tenantId) s es)
    (hrun : runAll (step env tenantId) s es = some s') : ShowsOneQuery env tenantId s' := by
  have hstep : ∀ s e s', Inv env tenantId s → SameQuery env tenantId s e →
      LogPaging.step env tenantId s e = some s' → Inv env tenantId s' :=
    fun _ _ _ h hsame hstep => h.step hnegative hsize hsame hstep
  exact (runAll_invariant hstep hopens.inv hsame hrun).shows

end Runs

/-! ### Three documents -/

/-- A document of the tenant, of a device and a time on the first of January. -/
def sampleDoc (id : String) (shardDoc : Nat) (device : String) (seconds : Int) : Doc where
  id := id
  shardDoc := shardDoc
  source := ⟨"t1", 1704067200000 + 1000 * seconds, some device, none, some "filterlog", some "block"⟩

def sampleDocs : Snapshot where
  docs := [sampleDoc "a" 0 "fw1" 30, sampleDoc "b" 1 "fw2" 20, sampleDoc "c" 2 "fw1" 20]
  distinct := by
    rw [Keyset.Distinct]
    decide

/-- The settings, with a cap on the size of a page. -/
def sampleEnv (logSearchMaxSize : Int) : Env where
  logSearchMaxSize := logSearchMaxSize
  logSearchMaxRangeDays := 31
  owns _ _ := true
  toIso value :=
    if value = "2024-01-01 00:00:00" then some 1704067200000
    else if value = "2024-01-02 00:00:00" then some 1704153600000 else none
  queryString _ _ := true
  negativeSize _ _ := none

/-- The page as it opens over the three documents. -/
def samplePage : State where
  filters := ⟨"", none, some "2024-01-01 00:00:00", some "2024-01-02 00:00:00"⟩
  hits := []
  cursor := none
  total := none
  searched := false
  pending := none
  content := sampleDocs
  pits := []
  lastSearch := none
  view := none

theorem samplePage_opens : Opens samplePage := ⟨rfl, rfl, rfl, rfl, rfl⟩

theorem page_sampleDocs (p : Doc → Bool) (after : Option SortValues) (n : Nat) :
    Keyset.page Doc.sort p after n sampleDocs.docs =
      (sampleDocs.docs.filter fun d => p d && Keyset.isPast Doc.sort after d).take n := by
  have hpair : sampleDocs.docs.Pairwise fun a b => b.sort < a.sort := by decide
  rw [Keyset.page, Keyset.remaining, Keyset.descending_filter sampleDocs.distinct,
    Keyset.descending_of_pairwise sampleDocs.distinct hpair]

def sampleRequest (deviceId : Option String) (cursor : Option LogCursor) : LogSearchIn :=
  ⟨"", deviceId, 1704067200000, 1704153600000, 100, cursor⟩

theorem samplePage_answer (deviceId : Option String) (cursor : Option LogCursor)
    (hcursor : ∀ c, cursor = some c → c.pitId = 0) :
    ∃ q, q = (buildSearchBody "t1" 1704067200000 1704153600000 "" deviceId 1 0 none).matches
        (sampleEnv 1) ∧
      searchLogsEndpoint (sampleEnv 1) sampleDocs (if cursor.isSome then [sampleDocs] else []) "t1"
          (sampleRequest deviceId cursor) =
        let docs := (sampleDocs.docs.filter fun d =>
          q d && Keyset.isPast Doc.sort (cursor.map LogCursor.after) d).take 1
        .ok (⟨(sampleDocs.docs.filter q).length, docs.map LogHit.ofDoc,
          if (docs.length : Int) = 1 then docs.getLast?.map fun d => ⟨0, d.sort⟩ else none⟩,
          [sampleDocs]) := by
  refine ⟨_, rfl, ?_⟩
  rw [← page_sampleDocs]
  cases cursor with
  | none =>
    cases deviceId with
    | none => rfl
    | some device => rfl
  | some c =>
    obtain ⟨pitId, after⟩ := c
    obtain rfl : pitId = 0 := hcursor _ rfl
    cases deviceId with
    | none => rfl
    | some device => rfl

theorem matching_sampleDocs (env : Env) (f : Filters) :
    matching env "t1" f sampleDocs = sampleDocs.docs.filter (f.selects env "t1") := by
  have hpair : sampleDocs.docs.Pairwise fun a b => b.sort < a.sort := by decide
  rw [matching, Keyset.listing, Keyset.descending_filter sampleDocs.distinct,
    Keyset.descending_of_pairwise sampleDocs.distinct hpair]

/-- The page with these hits of the search for all three documents. -/
def sampleShown (filters : Filters) (hits : List Doc) (cursor : Option LogCursor) (total : Nat) :
    State where
  filters := filters
  hits := hits.map LogHit.ofDoc
  cursor := cursor
  total := some total
  searched := true
  pending := none
  content := sampleDocs
  pits := [sampleDocs]
  lastSearch := some samplePage.filters
  view := some sampleDocs

def firstCursor : LogCursor := ⟨0, (sampleDoc "a" 0 "fw1" 30).sort⟩

theorem answer_ok {env : Env} {tenantId : String} {s : State} {req : LogSearchIn}
    {res : LogSearchOut} {pits : List Snapshot}
    (h : searchLogsEndpoint env s.content s.pits tenantId req = .ok (res, pits)) :
    s.answer env tenantId req false =
      { s with
        pending := none
        hits := if req.cursor.isSome then s.hits ++ res.hits else res.hits
        cursor := res.nextCursor
        total := some res.total
        searched := true
        pits := pits
        view := if req.cursor.isSome then s.view else some s.content } := by
  rw [State.answer, if_neg (by decide), h]

def afterSearch : State :=
  sampleShown samplePage.filters [sampleDoc "a" 0 "fw1" 30] (some firstCursor) 3

theorem runAll_firstPage :
    runAll (step (sampleEnv 1) "t1") samplePage [.search, .answer false] = some afterSearch := by
  obtain ⟨q, rfl, hanswer⟩ := samplePage_answer none none (fun c h => nomatch h)
  have hok : searchLogsEndpoint (sampleEnv 1) (samplePage.run (sampleEnv 1)).content
      (samplePage.run (sampleEnv 1)).pits "t1" (sampleRequest none none) = _ := hanswer
  show some (State.answer (sampleEnv 1) "t1" (samplePage.run (sampleEnv 1))
    (sampleRequest none none) false) = _
  rw [answer_ok hok]
  rfl

theorem runAll_nextPage (deviceId : Option String) (second : Doc) (total : Nat)
    (hsecond : deviceId = none ∧ second = sampleDoc "b" 1 "fw2" 20 ∧ total = 3 ∨
      deviceId = some "fw1" ∧ second = sampleDoc "c" 2 "fw1" 20 ∧ total = 2) :
    runAll (step (sampleEnv 1) "t1") afterSearch
        [.setDeviceId deviceId, .loadMore, .answer false] =
      some (sampleShown { samplePage.filters with deviceId := deviceId }
        [sampleDoc "a" 0 "fw1" 30, second] (some ⟨0, second.sort⟩) total) := by
  obtain ⟨q, rfl, hanswer⟩ := samplePage_answer deviceId (some firstCursor)
    (fun c h => Option.some.inj h ▸ rfl)
  have hok : searchLogsEndpoint (sampleEnv 1) afterSearch.content afterSearch.pits "t1"
    (sampleRequest deviceId (some firstCursor)) = _ := hanswer
  show some (State.answer (sampleEnv 1) "t1"
    { afterSearch with
      filters := { samplePage.filters with deviceId := deviceId }
      pending := some (sampleRequest deviceId (some firstCursor)) }
    (sampleRequest deviceId (some firstCursor)) false) = _
  rw [answer_ok (by exact hok)]
  rcases hsecond with ⟨rfl, rfl, rfl⟩ | ⟨rfl, rfl, rfl⟩
  · rfl
  · rfl

/-- Where the device is chosen between two pages, the second document is missed.  And where the
setting leaves no room on a page, the first answer has no hits and offers no more. -/
theorem edit_between_pages :
    Opens samplePage ∧
      (∃ s', runAll (step (sampleEnv 1) "t1") samplePage [.search, .answer false] = some afterSearch ∧
        runAll (step (sampleEnv 1) "t1") afterSearch
          [.setDeviceId (some "fw1"), .loadMore, .answer false] = some s' ∧
        ¬ ShowsOneQuery (sampleEnv 1) "t1" s') ∧
      ∃ s', runAll (step (sampleEnv 0) "t1") samplePage [.search, .answer false] = some s' ∧
        ¬ ShowsOneQuery (sampleEnv 0) "t1" s' := by
  refine ⟨samplePage_opens, 
    ⟨_, runAll_firstPage, runAll_nextPage (some "fw1") _ _ (.inr ⟨rfl, rfl, rfl⟩), ?_⟩, _, rfl, ?_⟩
  · rintro ⟨hpre, -⟩
    rw [matching_sampleDocs] at hpre
    revert hpre
    decide +kernel
  · rintro ⟨-, hall⟩
    have hshown : [] =
        (matching (sampleEnv 0) "t1" samplePage.filters sampleDocs).map LogHit.ofDoc := hall rfl
    rw [matching_sampleDocs] at hshown
    revert hshown
    decide +kernel

/-- Two pages of the search for all; the law holds of them. -/
theorem shows_one_query_twoPages :
    Opens samplePage ∧
      Along (step (sampleEnv 1) "t1") (SameQuery (sampleEnv 1) "t1") samplePage
        ([.search, .answer false] ++ [.setDeviceId none, .loadMore, .answer false]) ∧
      ∃ s', runAll (step (sampleEnv 1) "t1") samplePage
          ([.search, .answer false] ++ [.setDeviceId none, .loadMore, .answer false]) = some s' ∧
        ShowsOneQuery (sampleEnv 1) "t1" s' ∧ s'.displayed.map (·.id) = ["a", "b"] := by
  have hnext := runAll_nextPage none _ _ (.inl ⟨rfl, rfl, rfl⟩)
  have hrun := (runAll_append runAll_firstPage).trans hnext
  have hsame : Along (step (sampleEnv 1) "t1") (SameQuery (sampleEnv 1) "t1") samplePage
      ([.search, .answer false] ++ [.setDeviceId none, .loadMore, .answer false]) := by
    refine ⟨trivial, fun s₁ h₁ => ⟨trivial, fun s₂ h₂ => ⟨trivial, fun s₃ h₃ => ⟨?_, ?_⟩⟩⟩⟩
    · have hfirst : some afterSearch = some s₂ := by
        rw [← runAll_firstPage, runAll, h₁]
        show (step (sampleEnv 1) "t1" s₁ (.answer false)).bind _ = _
        rw [h₂]
        rfl
      obtain rfl := Option.some.inj hfirst
      obtain rfl := Option.some.inj h₃
      intro f view cursor hf _ _ _ d _ _
      obtain rfl := Option.some.inj hf
      rfl
    · exact fun _ _ => ⟨trivial, fun _ _ => trivial⟩
  exact ⟨samplePage_opens, hsame, _, hrun,
    shows_one_query (fun _ _ => rfl) (by decide) samplePage_opens hsame hrun, rfl⟩

end LogPaging

end Opngms
