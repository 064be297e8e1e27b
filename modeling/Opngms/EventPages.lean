/-
Opngms/EventPages.lean

The event list in pages (repositories/event.py).

`list_page` asks for the rows past its cursor in descending order of time, device,
source and key, and hands out a cursor when the page is full.  PostgreSQL compares
texts by the collation of the database, which is any linear order here.  The pages are
those of `Keyset` (`Reads.reading`), between which the table may change.

Main result: **`keysetPaginationExact`**.
-/
import Mathlib.Data.Prod.Lex
import Mathlib.Data.String.Basic
import Mathlib.Order.Fin.Basic
import Opngms.EventCursor
import Opngms.Json
import Opngms.Keyset

namespace Opngms

namespace EventPages

open EventCursor

/-! ### Rows -/

/-- `EventOut`: the columns of `_LIST_COLUMNS`. -/
structure EventOut where
  time : Instant
  deviceId : Uuid
  source : String
  category : String
  srcIp : String
  dstIp : String
  name : String
  severity : String
  action : String
  attributes : Dict

/-- A row of `events`. -/
structure Event extends EventOut where
  tenantId : Uuid
  eventKey : String

def Collated (_ : LinearOrder String) : Type := String

instance (c : LinearOrder String) : LinearOrder (Collated c) := c

abbrev Key (c : LinearOrder String) : Type := Instant ×ₗ Uuid ×ₗ Collated c ×ₗ Collated c

/-- `(time, device_id, source, event_key)` as a row of SQL. -/
def keyRow (c : LinearOrder String) (k : Instant × Uuid × String × String) : Key c :=
  toLex (k.1, toLex (k.2.1, toLex (k.2.2.1, k.2.2.2)))

def Event.cursorKey (e : Event) : Instant × Uuid × String × String :=
  (e.time, e.deviceId, e.source, e.eventKey)

def Event.key (c : LinearOrder String) (e : Event) : Key c := keyRow c e.cursorKey

/-- The table, with its primary key. -/
structure Table (c : LinearOrder String) where
  rows : List Event
  distinct : Keyset.Distinct (Event.key c) rows

/-! ### list_page -/

/-- `MAX_EVENTS`. -/
def maxEvents : Nat := 1000

/-- The parameters of a listing, apart from cursor and limit. -/
structure Filter where
  source : Option String
  deviceId : Option Uuid
  frm : Option Instant
  upTo : Option Instant

/-- `_filter_clauses`. -/
def filterClauses (tenantId : Uuid) (f : Filter) (e : Event) : Bool :=
  e.tenantId = tenantId && f.source.all (e.source = ·) && f.deviceId.all (e.deviceId = ·) &&
    f.frm.all (· ≤ e.time) && f.upTo.all (e.time < ·)

/-- `list_page`: a page and the cursor of the next one; `none` is a `ValueError`. -/
def listPage (c : LinearOrder String) (tenantId : Uuid) (f : Filter) (after : Option String)
    (limit : Nat) (t : Table c) : Option (List EventOut × Option String) := do
  let n := min limit maxEvents
  let past ← match after with
    | none => some none
    | some cursor => (decodeCursor cursor).map fun k => some (keyRow c k)
  let rows := Keyset.page (Event.key c) (filterClauses tenantId f) past n t.rows
  let items := rows.map Event.toEventOut
  let nextCursor :=
    if rows.length = n then
      rows.getLast?.map fun last => encodeCursor last.time last.deviceId last.source last.eventKey
    else none
  return (items, nextCursor)

section Reading

variable (c : LinearOrder String) (tenantId : Uuid) (f : Filter) (limit : Nat)

/-- Calls of `list_page`, each with the cursor the one before returned, on the tables met. -/
inductive Reads : Option String → List (Table c) → List EventOut → Option String → Prop
  | one {after : Option String} {t : Table c} {items : List EventOut} {next : Option String} :
      listPage c tenantId f after limit t = some (items, next) → Reads after [t] items next
  | more {after : Option String} {t : Table c} {ts : List (Table c)} {items rest : List EventOut}
      {cursor : String} {next : Option String} :
      listPage c tenantId f after limit t = some (items, some cursor) →
      Reads (some cursor) ts rest next → Reads after (t :: ts) (items ++ rest) next

variable {c tenantId f limit}

def cursorOf (k : Instant × Uuid × String × String) : String :=
  encodeCursor k.1 k.2.1 k.2.2.1 k.2.2.2

def nextKey (n : Nat) (rows : List Event) : Option (Instant × Uuid × String × String) :=
  if rows.length = n then rows.getLast?.map Event.cursorKey else none

theorem next_cursor (n : Nat) (rows : List Event) :
    (if rows.length = n then
      rows.getLast?.map fun last => encodeCursor last.time last.deviceId last.source last.eventKey
    else none) = (nextKey n rows).map cursorOf := by
  unfold nextKey
  split
  · simp only [Option.map_map, Function.comp_def, cursorOf, Event.cursorKey]
  · rfl

theorem listPage_eq (after : Option (Instant × Uuid × String × String)) (t : Table c) :
    listPage c tenantId f (after.map cursorOf) limit t =
      let rows := Keyset.page (Event.key c) (filterClauses tenantId f) (after.map (keyRow c))
        (min limit maxEvents) t.rows
      some (rows.map Event.toEventOut, (nextKey (min limit maxEvents) rows).map cursorOf) := by
  unfold listPage
  simp only [next_cursor]
  cases after with
  | none => rfl
  | some k =>
    have hdecode : decodeCursor (cursorOf k) = some k := decodeCursor_encodeCursor ..
    simp [hdecode]

/-- The next cursor of a page, as a key. -/
theorem keyset_next (n : Nat) (rows : List Event) :
    Keyset.next (Event.key c) n rows = (nextKey n rows).map (keyRow c) := by
  unfold Keyset.next nextKey
  split
  · rw [Option.map_map]
    rfl
  · rfl

/-- **The calls read the pages of the table.** -/
theorem Reads.reading {after : Option (Instant × Uuid × String × String)} {ts : List (Table c)}
    {items : List EventOut} {next : Option String}
    (h : Reads c tenantId f limit (after.map cursorOf) ts items next) :
    ∃ (rows : List Event) (last : Option (Instant × Uuid × String × String)),
      items = rows.map Event.toEventOut ∧ next = last.map cursorOf ∧
      Keyset.Reading (Event.key c) (filterClauses tenantId f) (min limit maxEvents)
        (after.map (keyRow c)) (ts.map Table.rows) rows (last.map (keyRow c)) := by
  generalize hcursor : after.map cursorOf = cursor at h
  induction h generalizing after with
  | @one _ t items next hpage =>
    rw [← hcursor, listPage_eq, Option.some.injEq, Prod.mk.injEq] at hpage
    obtain ⟨rfl, rfl⟩ := hpage
    refine ⟨_, _, rfl, rfl, ?_⟩
    rw [← keyset_next]
    exact Keyset.Reading.one
  | @more _ t ts items rest cursor next hpage _ ih =>
    rw [← hcursor, listPage_eq, Option.some.injEq, Prod.mk.injEq, Option.map_eq_some_iff] at hpage
    obtain ⟨rfl, k, hk, rfl⟩ := hpage
    obtain ⟨rows, last', rfl, rfl, hreading⟩ := @ih (some k) rfl
    refine ⟨_, last', (List.map_append ..).symm, rfl, Keyset.Reading.more ?_ hreading⟩
    rw [keyset_next, hk]
    rfl

theorem reads_of_reading {after : Option (Instant × Uuid × String × String)} {ts : List (Table c)}
    {rows : List Event} {last : Option (Key c)}
    (h : Keyset.Reading (Event.key c) (filterClauses tenantId f) (min limit maxEvents)
      (after.map (keyRow c)) (ts.map Table.rows) rows last) :
    ∃ next, Reads c tenantId f limit (after.map cursorOf) ts (rows.map Event.toEventOut) next ∧
      (last = none → next = none) := by
  generalize hkey : after.map (keyRow c) = key at h
  generalize htables : ts.map Table.rows = tables at h
  induction h generalizing after ts with
  | one =>
    obtain ⟨t, rfl, rfl⟩ := List.map_eq_singleton_iff.mp htables
    subst hkey
    refine ⟨_, Reads.one (listPage_eq after t), ?_⟩
    intro hnone
    rw [keyset_next, Option.map_eq_none_iff] at hnone
    rw [hnone]
    rfl
  | more hnext _ ih =>
    obtain ⟨t, ts', rfl, rfl, hrest⟩ := List.map_eq_cons_iff.mp htables
    subst hkey
    rw [keyset_next, Option.map_eq_some_iff] at hnext
    obtain ⟨k, hk, rfl⟩ := hnext
    obtain ⟨next, hreads, hlast⟩ := @ih (some k) _ rfl hrest
    refine ⟨next, ?_, hlast⟩
    rw [List.map_append]
    refine Reads.more ?_ hreads
    rw [listPage_eq]
    dsimp only
    rw [hk]
    rfl

end Reading

/-! ### What the pages hold -/

/-- **Keyset pagination is exact.**  Over one table the calls come to an end and return the
matching events once each, in descending order of their keys; whatever is inserted or deleted
in between, no key is returned twice, and an event that matches and stays is returned; every
cursor handed out is accepted; and a cursor decodes to the key it was made from. -/
theorem keysetPaginationExact (c : LinearOrder String) (tenantId : Uuid) (f : Filter)
    (limit : Nat) (hlimit : 1 ≤ limit) :
    (∀ t : Table c, ∃ calls items, calls ≤ t.rows.length + 1 ∧
      Reads c tenantId f limit none (List.replicate calls t) items none) ∧
    (∀ (t : Table c) calls items,
      Reads c tenantId f limit none (List.replicate calls t) items none →
      ∃ rows : List Event, items = rows.map Event.toEventOut ∧
        rows.Pairwise (fun a b => b.key c < a.key c) ∧
        ∀ e, e ∈ rows ↔ e ∈ t.rows ∧ filterClauses tenantId f e) ∧
    (∀ ts items next, Reads c tenantId f limit none ts items next →
      (∃ rows : List Event, items = rows.map Event.toEventOut ∧
        rows.Pairwise (fun a b => b.key c < a.key c) ∧
        (∀ e ∈ rows, filterClauses tenantId f e ∧ ∃ t ∈ ts, e ∈ t.rows) ∧
        (next = none → ∀ e, filterClauses tenantId f e → (∀ t ∈ ts, e ∈ t.rows) → e ∈ rows)) ∧
      ∀ t, (listPage c tenantId f next limit t).isSome) ∧
    (∀ time deviceId source eventKey,
      decodeCursor (encodeCursor time deviceId source eventKey) =
        some (time, deviceId, source, eventKey)) := by
  have hpos : 0 < min limit maxEvents := Nat.lt_min.mpr ⟨hlimit, by decide⟩
  have hdistinct : ∀ ts : List (Table c),
      ∀ rows ∈ ts.map Table.rows, Keyset.Distinct (Event.key c) rows := by
    intro ts rows hrows
    obtain ⟨t, _, rfl⟩ := List.mem_map.mp hrows
    exact t.distinct
  -- what any calls return
  have hany : ∀ ts items next, Reads c tenantId f limit none ts items next →
      (∃ rows : List Event, items = rows.map Event.toEventOut ∧
        rows.Pairwise (fun a b => b.key c < a.key c) ∧
        (∀ e ∈ rows, filterClauses tenantId f e ∧ ∃ t ∈ ts, e ∈ t.rows) ∧
        (next = none → ∀ e, filterClauses tenantId f e → (∀ t ∈ ts, e ∈ t.rows) → e ∈ rows)) ∧
      ∀ t, (listPage c tenantId f next limit t).isSome := by
    intro ts items next hreads
    obtain ⟨rows, last, hitems, rfl, hreading⟩ := @Reads.reading _ _ _ _ none _ _ _ hreads
    refine ⟨⟨rows, hitems, hreading.descending (hdistinct ts), ?_, ?_⟩, ?_⟩
    · intro e he
      obtain ⟨⟨rows, hrows, hin⟩, hfilter, _⟩ := hreading.mem (hdistinct ts) e he
      obtain ⟨t, ht, rfl⟩ := List.mem_map.mp hrows
      exact ⟨hfilter, t, ht, hin⟩
    · intro hnext e hfilter hthere
      have hlast : last = none := Option.map_eq_none_iff.mp hnext
      refine hreading.complete hpos (hdistinct ts) (by rw [hlast]; rfl) e hfilter rfl ?_
      intro rows hrows
      obtain ⟨t, ht, rfl⟩ := List.mem_map.mp hrows
      exact hthere t ht
    · intro t
      rw [listPage_eq]
      rfl
  refine ⟨?_, ?_, hany, decodeCursor_encodeCursor⟩
  · intro t
    obtain ⟨calls, rows, hcalls, hreading⟩ := Keyset.exists_reading
      (p := filterClauses tenantId f) (n := min limit maxEvents) t.distinct none
    rw [← List.map_replicate] at hreading
    obtain ⟨next, hreads, hend⟩ := @reads_of_reading _ _ _ _ none _ _ _ hreading
    rw [hend rfl] at hreads
    refine ⟨calls, _, Nat.le_trans hcalls ?_, hreads⟩
    exact Nat.succ_le_succ (List.length_filter_le _ _)
  · intro t calls items hreads
    obtain ⟨⟨rows, hitems, hpair, hmem, hall⟩, _⟩ := hany _ _ _ hreads
    refine ⟨rows, hitems, hpair, ?_⟩
    intro e
    constructor
    · intro he
      obtain ⟨hfilter, t', ht', hin⟩ := hmem e he
      rw [(List.mem_replicate.mp ht').2] at hin
      exact ⟨hin, hfilter⟩
    · rintro ⟨hin, hfilter⟩
      apply hall rfl e hfilter
      intro t' ht'
      rw [(List.mem_replicate.mp ht').2]
      exact hin

/-- An event of tenant 7, so many microseconds after 1970. -/
def scanAt (time : Instant) : Event where
  time := time
  deviceId := 1
  source := "ids"
  category := ""
  srcIp := ""
  dstIp := ""
  name := "scan"
  severity := "high"
  action := ""
  attributes := []
  tenantId := 7
  eventKey := "k"

def threeEvents : Table inferInstance :=
  ⟨[scanAt ⟨0, by decide⟩, scanAt ⟨2, by decide⟩, scanAt ⟨1, by decide⟩], by
    simp [Keyset.Distinct, scanAt, Event.key, keyRow, Event.cursorKey]⟩

/-- Three events over two pages: each of them is returned, and once. -/
theorem keysetPaginationExact_twoPages :
    1 ≤ 2 ∧ ∃ calls items, calls ≤ 4 ∧
      Reads inferInstance 7 ⟨some "ids", none, none, none⟩ 2 none
        (List.replicate calls threeEvents) items none ∧ items.length = 3 := by
  obtain ⟨hends, hexact, -⟩ := keysetPaginationExact inferInstance 7
    ⟨some "ids", none, none, none⟩ 2 (by decide)
  obtain ⟨calls, items, hcalls, hreads⟩ := hends threeEvents
  obtain ⟨rows, rfl, hpair, hmem⟩ := hexact threeEvents calls items hreads
  refine ⟨by decide, calls, _, hcalls, hreads, ?_⟩
  have hperm : rows.Perm threeEvents.rows := by
    refine (List.perm_ext_iff_of_nodup ?_ ?_).mpr fun e => ?_
    · exact hpair.imp fun h heq => absurd (heq ▸ h) (lt_irrefl _)
    · exact threeEvents.distinct.of_map _
    · rw [hmem]
      refine and_iff_left_of_imp fun he => ?_
      simp only [threeEvents, List.mem_cons, List.not_mem_nil, or_false] at he
      rcases he with rfl | rfl | rfl <;> rfl
  rw [List.length_map, hperm.length_eq]
  rfl

end EventPages

end Opngms
