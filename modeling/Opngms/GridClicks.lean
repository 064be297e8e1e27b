/-
Opngms/GridClicks.lean

The clicks in a grid table, and what the box makes of the operations they report.

`CatalogGridTable` collects an operation for each click and keeps showing the live rows: a
row that was deleted can be deleted and edited again, and the dialog of a row starts from
its live values however often the row was edited before.  The box of this module rejects
the `del` of an absent row as it rejects the `set` of one, and a rejection stops
`_apply_catalog_setting` on the way.

The *wanted* rows are what the operator asked for: a row for each addition, the entered
fields of a row changed, the deleted rows gone.  A click is *clean* if its row was not
deleted before and, where it saves a dialog, every field that was not touched in it shows
what the row is wanted to hold.  After clean clicks the operations apply without a
rejection and leave the wanted rows (**`applied_as_asked`**).
-/
import Opngms.CatalogUndo
import Opngms.Editor
import Opngms.Pool

namespace Opngms

open Appliance Editor

namespace GridClicks

variable {A : Appliance}

/-! ### A box that rejects what is absent -/

/-- How the box answers: the `del` of an absent row of a grid is rejected. -/
def respondStrictly (S : Configuration A) : Request → Reply × Configuration A
  | .gridDel p u =>
    match A.tableAt p with
    | some γ => if S.store.has γ u then del S γ u else (.ok failed, S)
    | none => respond S (.gridDel p u)
  | r => respond S r

def serveStrictly (S : Configuration A) (r : Request) : Option (Answer × Configuration A) :=
  some (received (respondStrictly S r).1, (respondStrictly S r).2)

/-! ### The table -/

/-- A click, or a value entered in the dialog; a row is named by its place in the table. -/
inductive Click where
  | openAdd
  | openEdit (i : Nat)
  | enter (path value : String)
  | close
  | save
  | delete (i : Nat)

/-- The table with what the operator wants. -/
structure Clicks (A : Appliance) where
  table : GridTable
  /-- The fields entered in the open dialog. -/
  touched : List (String × String)
  wanted : Configuration A

/-- The operations reported by `onOps`. -/
def Clicks.reported (c : Clicks A) : List CatalogGridOpIn := c.table.ops.map GridEntry.op

/-- `push`. -/
def push (op : CatalogGridOpIn) (t : GridTable) : GridTable :=
  { t with ops := t.ops ++ [⟨t.ops.length, op⟩] }

/-- What is wanted once a dialog is saved: a row with the fields entered in it, or a new
row. -/
def saving (W : Configuration A) (γ : String) (touched : List (String × String)) :
    Option String × List (String × String) → Configuration A
  | (some uuid, item) =>
    if uuid ≠ "" then W.setRow γ uuid (strDict touched) else W.addRow γ (strDict item)
  | (none, item) => W.addRow γ (strDict item)

/-- A click on the table of a grid that shows `rows` of the table `γ`; `none` where there
is nothing to click. -/
def step (γ : String) (grid : Grid) (rows : List GridRow) (c : Clicks A) :
    Click → Option (Clicks A)
  | .openAdd => some { c with table := c.table.openAdd grid, touched := [] }
  | .openEdit i => (rows[i]?).map fun row =>
      { c with table := c.table.openEdit grid row, touched := [] }
  | .enter path value =>
    if c.table.editing.isSome && (grid.fields.map Field.path).contains path then
      some { c with
        table := c.table.editItem path value
        touched := putEntry c.touched path value }
    else none
  | .close => some { c with table := { c.table with editing := none } }
  | .save => c.table.editing.map fun editing =>
      { c with
        table := { push (savedOp grid editing) c.table with editing := none }
        wanted := saving c.wanted γ c.touched editing }
  | .delete i => (rows[i]?).map fun row =>
      { c with
        table := push ⟨.del, grid.path, some row.uuid, none⟩ c.table
        wanted := c.wanted.delRow γ row.uuid }

def Clicks.start (S : Configuration A) : Clicks A := ⟨.fresh, [], S⟩

/-! ### Clean clicks -/

def Clicks.deleted (c : Clicks A) (u : String) : Bool :=
  c.reported.any fun op => op.op = .del && op.uuid = some u

/-- What a field of a row is wanted to hold. -/
def Clicks.wants (c : Clicks A) (u path : String) : String :=
  (((c.wanted.store.prior u).getD []).lookup path).getD ""

/-- The fields that were not touched in a dialog show what the row is wanted to hold. -/
def Clicks.current (c : Clicks A) (grid : Grid) (u : String) (item : List (String × String)) : Prop :=
  ∀ path ∈ grid.fields.map Field.path, c.touched.lookup path = none →
    (item.lookup path).getD "" = c.wants u path

instance (c : Clicks A) (grid : Grid) (u : String) (item : List (String × String)) :
    Decidable (c.current grid u item) := by
  unfold Clicks.current
  infer_instance

/-- The click asks for nothing on a deleted row, and saves no value that the row has got
rid of. -/
def Clean (grid : Grid) (rows : List GridRow) (c : Clicks A) : Click → Prop
  | .save =>
    match c.table.editing with
    | some (some u, item) => c.deleted u = false ∧ c.current grid u item
    | _ => True
  | .delete i => ∀ row ∈ rows[i]?, c.deleted row.uuid = false
  | _ => True

instance (grid : Grid) (rows : List GridRow) (c : Clicks A) (click : Click) :
    Decidable (Clean grid rows c click) := by
  cases click with
  | save =>
    unfold Clean
    match c.table.editing with
    | some (some u, item) => exact inferInstanceAs (Decidable (_ ∧ _))
    | some (none, item) => exact isTrue trivial
    | none => exact isTrue trivial
  | delete i => exact inferInstanceAs (Decidable (∀ row ∈ rows[i]?, _))
  | _ => exact isTrue trivial

/-- The rows on display are rows of the box. -/
def Live (S : Configuration A) (γ : String) (rows : List GridRow) : Prop :=
  ∀ row ∈ rows, S.store.has γ row.uuid = true

/-- The rows on display show the fields of the box. -/
structure Shows (S : Configuration A) (γ : String) (grid : Grid) (rows : List GridRow) : Prop where
  live : Live S γ rows
  shown : ∀ row ∈ rows, ∀ path ∈ grid.fields.map Field.path,
    toStr (row.cells.lookup path) = (((S.store.prior row.uuid).getD []).lookup path).getD ""

/-! ### The invariant -/

/-- What the table reports: operations on its grid, on rows on display. -/
structure Reportable (grid : Grid) (rows : List GridRow) (op : CatalogGridOpIn) : Prop where
  grid : op.grid = grid.path
  item : op.op ≠ .del → op.item.isSome = true
  row : op.op ≠ .add → ∃ row ∈ rows, op.uuid = some row.uuid

section Invariant

variable {model : Model} {grid : Grid} {S : Configuration A} {rows : List GridRow}

/-- The edits the operations ask the box for. -/
def Clicks.script (model : Model) (c : Clicks A) : List RowEdit :=
  c.reported.map (editOf A model)

/-- No operation names a row after its `del`. -/
def OneDel (ops : List CatalogGridOpIn) : Prop :=
  ops.Pairwise fun a b => ∀ u, a.op = .del → a.uuid = some u → b.uuid ≠ some u

/-- The operations make the wanted rows, each on a row that is there. -/
structure Sound (model : Model) (grid : Grid) (S : Configuration A) (rows : List GridRow)
    (c : Clicks A) : Prop where
  scalars : c.wanted.scalars = S.scalars
  store : S.store.edits A.uuids (c.script model) = c.wanted.store
  served : S.store.served A.uuids (c.script model) = true
  oneDel : OneDel c.reported
  reportable : ∀ op ∈ c.reported, Reportable grid rows op
  alive : ∀ row ∈ rows, c.deleted row.uuid = false →
    c.wanted.store.has (gridTable A model grid.path) row.uuid = true

/-- The open dialog shows a row, apart from what was entered. -/
structure DialogOk (grid : Grid) (rows : List GridRow) (c : Clicks A) : Prop where
  touched : ∀ path, (c.touched.lookup path).isSome → path ∈ grid.fields.map Field.path
  shown : ∀ u item, c.table.editing = some (some u, item) → ∃ row ∈ rows, row.uuid = u ∧
    ∀ path, item.lookup path =
      if path ∈ grid.fields.map Field.path then
        some ((c.touched.lookup path).getD (toStr (row.cells.lookup path)))
      else none

theorem Sound.start (hlive : Live S (gridTable A model grid.path) rows) :
    Sound model grid S rows (.start S) where
  scalars := rfl
  store := rfl
  served := rfl
  oneDel := .nil
  reportable := nofun
  alive row hrow _ := hlive row hrow

theorem DialogOk.start : DialogOk grid rows (.start S) where
  touched := nofun
  shown := nofun

/-! ### A step -/

theorem reported_push (op : CatalogGridOpIn) (c : Clicks A) :
    (push op c.table).ops.map GridEntry.op = c.reported ++ [op] := List.map_append

/-- An operation is reported that makes what is wanted. -/
theorem Sound.push {c c' : Clicks A} {op : CatalogGridOpIn} (h : Sound model grid S rows c)
    (hop : Reportable grid rows op) (hreported : c'.reported = c.reported ++ [op])
    (hscalars : c'.wanted.scalars = c.wanted.scalars)
    (hstore : c'.wanted.store = c.wanted.store.edit A.uuids (editOf A model op))
    (hdeleted : ∀ u, op.uuid = some u → c.deleted u = false) :
    Sound model grid S rows c' := by
  have hscript : c'.script model = c.script model ++ [editOf A model op] := by
    rw [Clicks.script, hreported, List.map_append]
    rfl
  have htable : gridTable A model op.grid = gridTable A model grid.path := by rw [hop.grid]
  have hhas : op.op ≠ .add → c.wanted.store.has (gridTable A model grid.path) (op.uuid.getD "") = true := by
    intro hne
    obtain ⟨row, hrow, hu⟩ := hop.row hne
    rw [hu]
    exact h.alive row hrow (hdeleted _ hu)
  have hpresent : c.wanted.store.present (editOf A model op) = true := by
    unfold editOf
    rw [htable]
    cases hk : op.op with
    | add => rfl
    | set => exact hhas (by rw [hk]; nofun)
    | del => exact hhas (by rw [hk]; nofun)
  constructor
  · exact hscalars.trans h.scalars
  · rw [hscript, RowStore.edits_append, h.store, hstore]
    rfl
  · rw [hscript, RowStore.served_append, h.served, h.store, RowStore.served, hpresent]
    rfl
  · rw [hreported, OneDel, List.pairwise_append]
    refine ⟨h.oneDel, List.pairwise_singleton _ _, fun a ha b hb u hdel hu => ?_⟩
    obtain rfl := List.mem_singleton.mp hb
    intro hb'
    -- no operation before names a deleted row
    refine List.any_eq_false.mp (hdeleted u hb') a ha ?_
    simp [hdel, hu]
  · rw [hreported]
    intro op' hop'
    rcases List.mem_append.mp hop' with hop' | hop'
    · exact h.reportable op' hop'
    · exact List.mem_singleton.mp hop' ▸ hop
  · intro row hrow hkept
    rw [Clicks.deleted, hreported, List.any_append, Bool.or_eq_false_iff] at hkept
    have hbefore := h.alive row hrow hkept.1
    rw [hstore]
    unfold editOf
    rw [htable]
    cases hk : op.op with
    | add => exact RowStore.has_add hbefore
    | set => exact RowStore.has_set.trans hbefore
    | del =>
      obtain ⟨row', hrow', hu⟩ := hop.row (by rw [hk]; nofun)
      have hother : row.uuid ≠ row'.uuid := by
        intro heq
        simpa [hk, hu, heq] using hkept.2
      rw [hu]
      exact (RowStore.has_del hother).trans hbefore

theorem Sound.keep {c c' : Clicks A} (h : Sound model grid S rows c)
    (hreported : c'.reported = c.reported) (hwanted : c'.wanted = c.wanted) :
    Sound model grid S rows c' := by
  have hscript : c'.script model = c.script model := by rw [Clicks.script, hreported]; rfl
  constructor
  · rw [hwanted]
    exact h.scalars
  · rw [hscript, hwanted]
    exact h.store
  · rw [hscript]
    exact h.served
  · rw [hreported]
    exact h.oneDel
  · rw [hreported]
    exact h.reportable
  · intro row hrow hkept
    rw [Clicks.deleted, hreported] at hkept
    rw [hwanted]
    exact h.alive row hrow hkept

theorem saving_store {c : Clicks A} {editing : Option String × List (String × String)}
    (hd : DialogOk grid rows c) (hediting : c.table.editing = some editing)
    (hcurrent : ∀ u item, editing = (some u, item) → c.current grid u item) :
    (saving c.wanted (gridTable A model grid.path) c.touched editing).store =
      c.wanted.store.edit A.uuids (editOf A model (savedOp grid editing)) := by
  obtain ⟨ou, item⟩ := editing
  cases ou with
  | none => rfl
  | some u =>
    obtain ⟨row, -, -, hitem⟩ := hd.shown u item hediting
    by_cases hu : u = ""
    · subst hu
      rfl
    · have hleft : saving c.wanted (gridTable A model grid.path) c.touched (some u, item) =
          c.wanted.setRow (gridTable A model grid.path) u (strDict c.touched) := if_pos hu
      have hright : savedOp grid (some u, item) =
          ⟨.set, grid.path, some u, some (strDict item)⟩ := if_pos hu
      rw [hleft, hright]
      refine RowStore.edit_set_congr fun r hr hrow => ?_
      have hprior : c.wanted.store.prior u = some r.fields :=
        (Row.is_iff.mp hrow).2 ▸ RowStore.prior_of_mem hr
      have hkeys : (r.fields.map (·.1)).Nodup := by
        rw [c.wanted.fits r hr]
        exact A.columns_nodup r.table
      show A.fill r.fields (strDict c.touched) = A.fill r.fields (strDict item)
      refine List.map_congr_left fun kv hkv => ?_
      have hkv' : r.fields.lookup kv.1 = some kv.2 := (mem_iff_lookup hkeys).mp hkv
      refine congrArg (Prod.mk kv.1) ?_
      rw [get?_strDict, get?_strDict]
      cases ht : c.touched.lookup kv.1 with
      | some v =>
        rw [hitem, if_pos (hd.touched kv.1 (by rw [ht]; rfl)), ht]
        rfl
      | none =>
        by_cases hp : kv.1 ∈ grid.fields.map Field.path
        · -- the field was not touched: it shows what the row holds
          have hwants := hcurrent u item rfl kv.1 hp ht
          rw [Clicks.wants, hprior, Option.getD_some, hkv', Option.getD_some] at hwants
          rw [hitem, if_pos hp] at hwants ⊢
          show kv.2 = A.text (.str _)
          rw [A.text_str]
          exact hwants.symm
        · rw [hitem, if_neg hp]

theorem saving_scalars (W : Configuration A) (γ : String) (touched : List (String × String))
    (editing : Option String × List (String × String)) :
    (saving W γ touched editing).scalars = W.scalars := by
  obtain ⟨ou, item⟩ := editing
  cases ou with
  | none => rfl
  | some u =>
    rw [saving]
    split <;> rfl

theorem savedOp_reportable {c : Clicks A} {editing : Option String × List (String × String)}
    (hd : DialogOk grid rows c) (hediting : c.table.editing = some editing) :
    Reportable grid rows (savedOp grid editing) ∧
      ∀ u, (savedOp grid editing).uuid = some u → ∃ item, editing = (some u, item) := by
  obtain ⟨ou, item⟩ := editing
  cases ou with
  | none => exact ⟨⟨rfl, fun _ => rfl, fun h => absurd rfl h⟩, nofun⟩
  | some u =>
    obtain ⟨row, hrow, hu, -⟩ := hd.shown u item hediting
    rw [savedOp]
    split
    · refine ⟨⟨rfl, fun _ => rfl, fun _ => ⟨row, hrow, congrArg some hu.symm⟩⟩, fun u' hu' => ?_⟩
      obtain rfl := Option.some.inj hu'
      exact ⟨item, rfl⟩
    · exact ⟨⟨rfl, fun _ => rfl, fun h => absurd rfl h⟩, nofun⟩

/-- The dialog after a click. -/
theorem DialogOk.step {c c' : Clicks A} {click : Click} (hd : DialogOk grid rows c)
    (hstep : step (gridTable A model grid.path) grid rows c click = some c') :
    DialogOk grid rows c' := by
  cases click with
  | openAdd =>
    obtain rfl := Option.some.inj hstep
    exact ⟨nofun, nofun⟩
  | openEdit i =>
    obtain ⟨row, hrow, rfl⟩ := Option.map_eq_some_iff.mp hstep
    refine ⟨nofun, fun u item h => ?_⟩
    obtain ⟨hu, rfl⟩ := Prod.mk.inj (Option.some.inj h)
    refine ⟨row, List.mem_of_getElem? hrow, Option.some.inj hu, fun path => ?_⟩
    exact lookup_foldl_putEntry Field.path (fun path => toStr (row.cells.lookup path)) grid.fields [] path
  | enter path value =>
    rw [GridClicks.step] at hstep
    split at hstep
    · rename_i hopen
      obtain rfl := Option.some.inj hstep
      -- only a field of the grid can be entered
      have hpath : path ∈ grid.fields.map Field.path := by
        simpa using (Bool.and_eq_true_iff.mp hopen).2
      constructor
      · intro p hp
        change ((putEntry c.touched path value).lookup p).isSome at hp
        rw [lookup_putEntry] at hp
        by_cases heq : p = path
        · exact heq ▸ hpath
        · rw [if_neg heq] at hp
          exact hd.touched p hp
      · intro u item h
        obtain ⟨e, he, heq⟩ := Option.map_eq_some_iff.mp h
        obtain ⟨ou, item₀⟩ := e
        obtain ⟨rfl, rfl⟩ := Prod.mk.inj heq
        obtain ⟨row, hrow, hu, hitem⟩ := hd.shown u item₀ he
        refine ⟨row, hrow, hu, fun p => ?_⟩
        show (putEntry item₀ path value).lookup p =
          if p ∈ grid.fields.map Field.path then
            some (((putEntry c.touched path value).lookup p).getD (toStr (row.cells.lookup p)))
          else none
        rw [lookup_putEntry, lookup_putEntry, hitem]
        by_cases heq : p = path
        · rw [if_pos heq, if_pos heq, if_pos (heq ▸ hpath)]
          rfl
        · rw [if_neg heq, if_neg heq]
    · cases hstep
  | close =>
    obtain rfl := Option.some.inj hstep
    exact ⟨hd.touched, nofun⟩
  | save =>
    obtain ⟨editing, -, rfl⟩ := Option.map_eq_some_iff.mp hstep
    exact ⟨hd.touched, nofun⟩
  | delete i =>
    obtain ⟨row, -, rfl⟩ := Option.map_eq_some_iff.mp hstep
    exact ⟨hd.touched, hd.shown⟩

theorem Sound.step {c c' : Clicks A} {click : Click} (h : Sound model grid S rows c)
    (hd : DialogOk grid rows c) (hclean : Clean grid rows c click)
    (hstep : step (gridTable A model grid.path) grid rows c click = some c') :
    Sound model grid S rows c' := by
  cases click with
  | openAdd =>
    obtain rfl := Option.some.inj hstep
    exact h.keep rfl rfl
  | openEdit i =>
    obtain ⟨row, -, rfl⟩ := Option.map_eq_some_iff.mp hstep
    exact h.keep rfl rfl
  | enter path value =>
    rw [GridClicks.step] at hstep
    split at hstep
    · obtain rfl := Option.some.inj hstep
      exact h.keep rfl rfl
    · cases hstep
  | close =>
    obtain rfl := Option.some.inj hstep
    exact h.keep rfl rfl
  | save =>
    obtain ⟨editing, hediting, rfl⟩ := Option.map_eq_some_iff.mp hstep
    obtain ⟨hop, huuid⟩ := savedOp_reportable hd hediting
    have hrow : ∀ u item, editing = (some u, item) → c.deleted u = false ∧ c.current grid u item := by
      rintro u item rfl
      rw [Clean, hediting] at hclean
      exact hclean
    refine h.push hop (reported_push _ c) (saving_scalars _ _ _ _)
      (saving_store hd hediting fun u item hu => (hrow u item hu).2) fun u hu => ?_
    obtain ⟨item, hitem⟩ := huuid u hu
    exact (hrow u item hitem).1
  | delete i =>
    obtain ⟨row, hrow, rfl⟩ := Option.map_eq_some_iff.mp hstep
    have hop : Reportable grid rows ⟨.del, grid.path, some row.uuid, none⟩ :=
      ⟨rfl, fun h => absurd rfl h, fun _ => ⟨row, List.mem_of_getElem? hrow, rfl⟩⟩
    refine h.push hop (reported_push _ c) rfl rfl fun u hu => ?_
    obtain rfl := Option.some.inj hu
    exact hclean row hrow

/-! ### The box -/

theorem play_gridItem {a : GridOp} {r : Request} {j : Json}
    (hr : gridRequest a.op a.endpoints a.row a.uuid a.item = .ok r)
    (hx : (respondStrictly S r).1 = .ok j) (hj : rejected j = false) :
    (applyGridItem a.op a.endpoints a.row a.uuid a.item false).play serveStrictly S =
      some (.ok (.obj [("dry_run", .bool false), ("op", a.op), ("result", j)]),
        (respondStrictly S r).2) := by
  have hpost : (post r).play serveStrictly S = some (.ok j, (respondStrictly S r).2) := by
    have hserve : serveStrictly S r = some (.ok j, (respondStrictly S r).2) :=
      congrArg (fun x => some (received x, (respondStrictly S r).2)) hx
    exact Dialogue.play_ask hserve
  rw [applyGridItem_live, hr]
  refine (Dialogue.play_bind_ok hpost).trans ?_
  rw [raiseOnFailed_saved _ hj]
  rfl

theorem respondStrictly_present {opp : CatalogGridOpIn} {g : Json} (hA : A.Describes model)
    (hg : gridPayload model opp = .ok g)
    (hsafe : ∀ u, (editOf A model opp).named = some u → safeName u = true)
    (hp : S.store.present (editOf A model opp) = true) :
    ∃ r, gridStep g = .ok r ∧ respondStrictly S r = respond S r ∧
      Acts S r (editOf A model opp) := by
  obtain ⟨r, hr, hacts⟩ := means_editOf hA hg hsafe
  refine ⟨r, hr, ?_, hacts S⟩
  obtain ⟨eps, rfl, heps, -, huuid⟩ := gridPayload_entry hA hg
  obtain ⟨p, hlook, hpath, htab⟩ := heps opp.op
  unfold editOf at hsafe hp
  cases hop : opp.op with
  | add =>
    rw [hop] at hlook hr
    obtain rfl := Except.ok.inj ((gridStep_add _ _ _ hlook hpath).symm.trans hr)
    rfl
  | set =>
    rw [hop] at hlook hr hsafe
    rw [huuid (by rw [hop]; nofun)] at hr
    obtain rfl := Except.ok.inj ((gridStep_set _ _ hlook hpath (hsafe _ rfl)).symm.trans hr)
    rfl
  | del =>
    rw [hop] at hlook hr hsafe hp
    rw [huuid (by rw [hop]; nofun)] at hr
    obtain rfl := Except.ok.inj ((gridStep_del _ _ hlook hpath (hsafe _ rfl)).symm.trans hr)
    have hhas : S.store.has (gridTable A model opp.grid) (opp.uuid.getD "") = true := hp
    simp only [respondStrictly, respond, htab, hhas, if_true]

theorem play_grids {opps : List CatalogGridOpIn} {gs : List Json} (hA : A.Describes model)
    (hg : gridPayloads model opps = .ok gs)
    (hsafe : ∀ opp ∈ opps, ∀ u, (editOf A model opp).named = some u → safeName u = true)
    (hserved : S.store.served A.uuids (opps.map (editOf A model)) = true) :
    ∃ rs S', (applyGrids false gs).play serveStrictly S = some (.ok rs, S') ∧
      S'.scalars = S.scalars ∧ S'.store = S.store.edits A.uuids (opps.map (editOf A model)) := by
  induction opps generalizing S gs with
  | nil =>
    obtain rfl := Except.ok.inj hg
    exact ⟨[], S, rfl, rfl, rfl⟩
  | cons opp opps ih =>
    obtain ⟨g, hg₀, hg⟩ := except_bind_ok hg
    obtain ⟨gs, hgs, hg⟩ := except_bind_ok hg
    obtain rfl := Except.ok.inj hg
    obtain ⟨hp, hserved⟩ := Bool.and_eq_true_iff.mp hserved
    obtain ⟨hsafe₀, hsafe⟩ := List.forall_mem_cons.mp hsafe
    obtain ⟨r, hr, hstrict, hacts⟩ := respondStrictly_present hA hg₀ hsafe₀ hp
    obtain ⟨⟨j, hj, hrej, -⟩, hstore⟩ := hacts.done (RowStore.not_refuses_of_present hp)
    obtain ⟨a, ha, hr⟩ := except_bind_ok hr
    have ha' : gridArgs g = .ok a := mapError_ok ha
    have hitem := play_gridItem hr (hstrict ▸ hj) hrej
    rw [hstrict] at hitem
    rw [← hstore] at hserved
    obtain ⟨rs, S', hrest, hscalars, hstore'⟩ := ih hgs hsafe hserved
    have hcons : applyGrids false (g :: gs) =
        (applyGridItem a.op a.endpoints a.row a.uuid a.item false).bind fun r =>
          (applyGrids false gs).bind fun rs => .pure (r :: rs) := by
      rw [applyGrids, ha']
      rfl
    have hplay : (applyGrids false (g :: gs)).play serveStrictly S =
        some (.ok (.obj [("dry_run", .bool false), ("op", a.op), ("result", j)] :: rs), S') := by
      rw [hcons]
      exact (Dialogue.play_bind_ok hitem).trans (Dialogue.play_bind_ok hrest)
    refine ⟨_, S', hplay, hscalars.trans hacts.scalars, ?_⟩
    rw [hstore', hstore]
    rfl

theorem gridPayloads_ok {opps : List CatalogGridOpIn} (hgrid : grid ∈ model.grids)
    (hrows : ∀ row ∈ rows, row.uuid ≠ "") (hopps : ∀ op ∈ opps, Reportable grid rows op) :
    ∃ gs, gridPayloads model opps = .ok gs := by
  induction opps with
  | nil => exact ⟨[], rfl⟩
  | cons opp opps ih =>
    obtain ⟨hop, hopps⟩ := List.forall_mem_cons.mp hopps
    obtain ⟨gs, hgs⟩ := ih hopps
    have hfind : (model.grids.reverse.find? fun g => g.path == opp.grid).isSome = true :=
      List.find?_isSome.mpr ⟨grid, List.mem_reverse.mpr hgrid, by rw [hop.grid, beq_self_eq_true]⟩
    obtain ⟨gdef, hgdef⟩ := Option.isSome_iff_exists.mp hfind
    have hitem : ¬ ((opp.op = .add ∨ opp.op = .set) ∧ opp.item.isNone = true) := by
      rintro ⟨hk, hnone⟩
      have hsome := hop.item (by rcases hk with hk | hk <;> (rw [hk]; nofun))
      rw [← Option.not_isNone, hnone] at hsome
      cases hsome
    have huuid : ¬ ((opp.op = .set ∨ opp.op = .del) ∧ opp.uuid.getD "" = "") := by
      rintro ⟨hk, hempty⟩
      obtain ⟨row, hrow, hu⟩ := hop.row (by rcases hk with hk | hk <;> (rw [hk]; nofun))
      rw [hu] at hempty
      exact hrows row hrow hempty
    have hg : ∃ g, gridPayload model opp = .ok g := by
      unfold gridPayload
      rw [hgdef]
      exact ⟨_, (if_neg hitem).trans (if_neg huuid)⟩
    obtain ⟨g, hg⟩ := hg
    refine ⟨g :: gs, ?_⟩
    rw [gridPayloads, hg, hgs]
    rfl

def Clicks.body (model : Model) (c : Clicks A) : CatalogChangeIn := ⟨model.id, [], c.reported⟩

/-- The operations are applied in order without a rejection, and leave what is wanted. -/
def Clicks.Applied (model : Model) (S : Configuration A) (c : Clicks A) : Prop :=
  ∃ payload r, buildPayload model (c.body model) = .ok payload ∧
    (applyCatalogSetting "set" payload false).play serveStrictly S = some (.ok r, c.wanted)

/-- Whether a run of the box returns, and the rows that it leaves. -/
def ending {α : Type} (run : Option (Except Raised α × Configuration A)) :
    Option (Bool × List (Row String String Fields)) :=
  run.map fun x => (x.1.isOk, x.2.store.rows)

theorem Clicks.Applied.ending {c : Clicks A} {payload : Dict} (h : c.Applied model S)
    (hbuild : buildPayload model (c.body model) = .ok payload) :
    GridClicks.ending ((applyCatalogSetting "set" payload false).play serveStrictly S) =
      some (true, c.wanted.store.rows) := by
  obtain ⟨payload', r, hbuild', hplay⟩ := h
  obtain rfl := Except.ok.inj (hbuild.symm.trans hbuild')
  rw [hplay]
  rfl

theorem configuration_ext {W W' : Configuration A} (hscalars : W.scalars = W'.scalars)
    (hstore : W.store = W'.store) : W = W' := by
  cases W
  cases W'
  cases hscalars
  cases hstore
  rfl

theorem play_reload {path : String} (hpath : safePath path = true) (b : Bool) :
    ∃ r, (if b then reconfigureModel (.str path) else Dialogue.pure Json.null).play serveStrictly S =
      some (.ok r, S) := by
  cases b with
  | false => exact ⟨.null, rfl⟩
  | true =>
    refine ⟨.obj [("status", .str "ok")], ?_⟩
    rw [if_pos rfl, reconfigureModel, safeEndpoint_ok hpath]
    rfl

/-- Sound operations are applied. -/
theorem Sound.applied {c : Clicks A} (h : Sound model grid S rows c) (hA : A.Describes model)
    (hgrid : grid ∈ model.grids) (hlive : Live S (gridTable A model grid.path) rows) :
    c.Applied model S := by
  have huuid : ∀ row ∈ rows, safeName row.uuid = true := by
    intro row hrow
    obtain ⟨r, hr, his⟩ := List.any_eq_true.mp (hlive row hrow)
    exact (Row.is_iff.mp his).2 ▸ S.safe r hr
  have hsafe : ∀ op ∈ c.reported, ∀ u, (editOf A model op).named = some u → safeName u = true := by
    intro op hop u hu
    unfold editOf at hu
    cases hk : op.op with
    | add =>
      rw [hk] at hu
      cases hu
    | set =>
      obtain ⟨row, hrow, heq⟩ := (h.reportable op hop).row (by rw [hk]; nofun)
      rw [hk, heq] at hu
      exact Option.some.inj hu ▸ huuid row hrow
    | del =>
      obtain ⟨row, hrow, heq⟩ := (h.reportable op hop).row (by rw [hk]; nofun)
      rw [hk, heq] at hu
      exact Option.some.inj hu ▸ huuid row hrow
  obtain ⟨gs, hgs⟩ := gridPayloads_ok hgrid (fun row hrow => ne_empty_of_safeName (huuid row hrow))
    h.reportable
  have hreload : endpointOf model.endpoints "reconfigure" ≠ "" := by
    intro hempty
    have hpath := hA.reconfigurePath
    rw [hempty] at hpath
    exact absurd hpath (by decide)
  have hbuild : ∃ payload, buildPayload model (c.body model) = .ok payload := by
    have hunknown : (!(((c.body model).scalars.map (·.1)).filter fun k =>
        !(model.fields.map Field.path).contains k).isEmpty) = false := rfl
    rw [buildPayload, hunknown, if_neg Bool.false_ne_true]
    show ∃ payload, (gridPayloads model c.reported >>= _) = _
    rw [hgs]
    exact ⟨_, if_neg hreload⟩
  obtain ⟨payload, hpayload⟩ := hbuild
  obtain ⟨gs', hgs', hp, -, -⟩ := buildPayload_payload hpayload
  obtain rfl := Except.ok.inj (hgs.symm.trans hgs')
  obtain ⟨rs, S', hplay, hscalars, hstore⟩ := play_grids hA hgs hsafe h.served
  have hend : S' = c.wanted :=
    configuration_ext (hscalars.trans h.scalars.symm) (hstore.trans h.store)
  obtain ⟨r, hr⟩ := play_reload (S := S') hA.reconfigurePath (!gs.isEmpty)
  have hlive : (applyCatalogSetting "set" payload false).play serveStrictly S =
      some (.ok (.obj [("dry_run", .bool false), ("scalars", .null), ("grids", .arr rs)]), S') := by
    rw [applyCatalogSetting_live "set" hp]
    exact (Dialogue.play_bind_ok hplay).trans (Dialogue.play_bind_ok hr)
  exact ⟨payload, _, hpayload, hend ▸ hlive⟩

/-! ### A run -/

variable {clicks : List Click} {c : Clicks A}

theorem sound_run (hlive : Live S (gridTable A model grid.path) rows)
    (hrun : runAll (step (gridTable A model grid.path) grid rows) (.start S) clicks = some c)
    (hclean : Along (step (gridTable A model grid.path) grid rows) (Clean grid rows) (.start S) clicks) :
    Sound model grid S rows c ∧ DialogOk grid rows c := by
  refine runAll_invariant (P := fun c => Sound model grid S rows c ∧ DialogOk grid rows c)
    (fun c click c' h hG hstep => ?_) ⟨.start hlive, .start⟩ hclean hrun
  exact ⟨h.1.step h.2 hG hstep, h.2.step hstep⟩

/-- **After clean clicks the operations name no row after its `del`, are applied in order
without a rejection and leave exactly what is wanted.** -/
theorem applied_as_asked (hA : A.Describes model) (hgrid : grid ∈ model.grids)
    (hlive : Live S (gridTable A model grid.path) rows)
    (hrun : runAll (step (gridTable A model grid.path) grid rows) (.start S) clicks = some c)
    (hclean : Along (step (gridTable A model grid.path) grid rows) (Clean grid rows) (.start S) clicks) :
    OneDel c.reported ∧ c.Applied model S := by
  obtain ⟨h, -⟩ := sound_run hlive hrun hclean
  exact ⟨h.oneDel, h.applied hA hgrid hlive⟩

theorem Sound.first_save (h : Sound model grid S rows c) (hd : DialogOk grid rows c)
    (hrows : Shows S (gridTable A model grid.path) grid rows) {u : String}
    {item : List (String × String)} (hediting : c.table.editing = some (some u, item))
    (hfirst : ∀ op ∈ c.reported, op.uuid ≠ some u) : Clean grid rows c .save := by
  obtain ⟨row, hrow, rfl, hitem⟩ := hd.shown u item hediting
  obtain ⟨r, hr, his⟩ := List.any_eq_true.mp (hrows.live row hrow)
  have hu : r.uuid = row.uuid := (Row.is_iff.mp his).2
  have hunnamed : ∀ e ∈ c.script model, e.named ≠ some r.uuid := by
    intro e he hnamed
    obtain ⟨op, hop, rfl⟩ := List.mem_map.mp he
    refine hfirst op hop ?_
    unfold editOf at hnamed
    cases hk : op.op with
    | add =>
      rw [hk] at hnamed
      cases hnamed
    | set =>
      obtain ⟨row', -, heq⟩ := (h.reportable op hop).row (by rw [hk]; nofun)
      rw [hk, heq] at hnamed
      rw [heq, ← hu]
      exact hnamed
    | del =>
      obtain ⟨row', -, heq⟩ := (h.reportable op hop).row (by rw [hk]; nofun)
      rw [hk, heq] at hnamed
      rw [heq, ← hu]
      exact hnamed
  have hmem : r ∈ c.wanted.store.rows := h.store ▸ RowStore.mem_edits_of_unnamed hr hunnamed
  have hwanted : c.wanted.store.prior row.uuid = S.store.prior row.uuid := by
    rw [← hu, RowStore.prior_of_mem hmem, RowStore.prior_of_mem hr]
  rw [Clean, hediting]
  refine ⟨?_, fun path hpath hfree => ?_⟩
  · refine List.any_eq_false.mpr fun op hop hdel => hfirst op hop ?_
    exact of_decide_eq_true (Bool.and_eq_true_iff.mp hdel).2
  · rw [hitem, if_pos hpath, hfree, Clicks.wants, hwanted]
    exact hrows.shown row hrow path hpath

/-- The click saves no row that an operation names, and deletes none twice. -/
def firstOnRow (rows : List GridRow) (c : Clicks A) : Click → Bool
  | .save => c.table.editing.all fun editing =>
      editing.1.all fun u => c.reported.all fun op => op.uuid ≠ some u
  | .delete i => (rows[i]?).all fun row => !c.deleted row.uuid
  | _ => true

/-- **Where each row is edited at most once and not after it was deleted, the box ends with what
was asked for.** -/
theorem applied_of_firstOnRow (hA : A.Describes model) (hgrid : grid ∈ model.grids)
    (hrows : Shows S (gridTable A model grid.path) grid rows)
    (hrun : runAll (step (gridTable A model grid.path) grid rows) (.start S) clicks = some c)
    (hfirst : Along (step (gridTable A model grid.path) grid rows)
      (fun c click => firstOnRow rows c click = true) (.start S) clicks) :
    OneDel c.reported ∧ c.Applied model S := by
  have hclean : ∀ (c : Clicks A) (click : Click),
      Sound model grid S rows c ∧ DialogOk grid rows c → firstOnRow rows c click = true →
        Clean grid rows c click := by
    rintro c click ⟨h, hd⟩ hG
    cases click with
    | save =>
      rcases hediting : c.table.editing with - | ⟨- | u, item⟩
      · simp [Clean, hediting]
      · simp [Clean, hediting]
      · exact h.first_save hd hrows hediting (by simpa [firstOnRow, hediting] using hG)
    | delete i => simpa [Clean, firstOnRow, Option.all_eq_true] using hG
    | _ => trivial
  obtain ⟨h, -⟩ := runAll_invariant (P := fun c => Sound model grid S rows c ∧ DialogOk grid rows c)
    (fun c click c' h hG hstep => ⟨h.1.step h.2 (hclean c click h hG) hstep, h.2.step hstep⟩)
    ⟨.start hrows.live, .start⟩ hfirst hrun
  exact ⟨h.oneDel, h.applied hA hgrid hrows.live⟩

end Invariant

/-! ### A row that is clicked twice -/

def hostBox : Appliance :=
  { jailBox with
    columns := fun _ => [("name", ""), ("ip", "")]
    columns_nodup := fun _ => by decide }

def hostGrid : Grid := ⟨"jails.jail", [("add", "jail/settings/addJail"),
  ("set", "jail/settings/setJail"), ("del", "jail/settings/delJail")], [⟨"name"⟩, ⟨"ip"⟩]⟩

def hostModel : Model := { jailModel with grids := [hostGrid] }

theorem hostBox_describes : hostBox.Describes hostModel where
  setPath := jailBox_describes.setPath
  reconfigurePath := jailBox_describes.reconfigurePath
  grids g hg := by
    obtain rfl := List.mem_singleton.mp hg
    exact jailBox_describes.grids ⟨_, _, [⟨"name"⟩]⟩ (List.mem_singleton_self _)

def oneHost : Configuration hostBox where
  scalars _ := ""
  store := ⟨[⟨"u1", "jails", [("name", "web"), ("ip", "10.0.0.1")]⟩], ["u1"], by decide, by decide⟩
  fits := by decide
  safe := by decide +kernel

def hostRows : List GridRow := [⟨"u1", [("name", .text "web"), ("ip", .text "10.0.0.1")]⟩]

theorem hostRows_shown : Shows oneHost (gridTable hostBox hostModel hostGrid.path) hostGrid hostRows where
  live := by
    unfold Live
    decide +kernel
  shown := by decide +kernel

/-- The host is edited twice in the same field, one is added, and the first is deleted. -/
def hostClicks : List Click :=
  [.openEdit 0, .enter "name" "db", .save, .openEdit 0, .enter "name" "app", .save,
    .openAdd, .enter "name" "mail", .save, .delete 0]

theorem applied_as_asked_hosts :
    ∃ c, runAll (step (gridTable hostBox hostModel hostGrid.path) hostGrid hostRows) (.start oneHost)
        hostClicks = some c ∧ OneDel c.reported ∧ c.Applied hostModel oneHost := by
  obtain ⟨c, hrun⟩ : ∃ c, runAll (step (gridTable hostBox hostModel hostGrid.path) hostGrid hostRows)
      (.start oneHost) hostClicks = some c := ⟨_, rfl⟩
  have hclean : Along (step (gridTable hostBox hostModel hostGrid.path) hostGrid hostRows)
      (Clean hostGrid hostRows) (.start oneHost) hostClicks := by decide +kernel
  exact ⟨c, hrun, applied_as_asked hostBox_describes (List.mem_singleton_self _)
    hostRows_shown.live hrun hclean⟩

def hostOnce : List Click := [.openEdit 0, .enter "name" "db", .save, .delete 0]

theorem applied_of_firstOnRow_host :
    ∃ c, runAll (step (gridTable hostBox hostModel hostGrid.path) hostGrid hostRows) (.start oneHost)
        hostOnce = some c ∧ OneDel c.reported ∧ c.Applied hostModel oneHost := by
  have hfirst : Along (step (gridTable hostBox hostModel hostGrid.path) hostGrid hostRows)
      (fun c click => firstOnRow hostRows c click = true) (.start oneHost) hostOnce := by
    decide +kernel
  exact ⟨_, rfl, applied_of_firstOnRow hostBox_describes (List.mem_singleton_self _) hostRows_shown
    rfl hfirst⟩

def hostTwice : List Click :=
  [.openEdit 0, .enter "name" "db", .save, .openEdit 0, .enter "ip" "10.0.0.2", .save]

/-- The second `del` of a row is rejected, and the second edit of a row takes the first one
back. -/
theorem clicked_twice :
    (∃ c, runAll (step (gridTable hostBox hostModel hostGrid.path) hostGrid hostRows) (.start oneHost)
        [.delete 0, .delete 0] = some c ∧ ¬ OneDel c.reported ∧ ¬ c.Applied hostModel oneHost) ∧
      ∃ c, runAll (step (gridTable hostBox hostModel hostGrid.path) hostGrid hostRows) (.start oneHost)
        hostTwice = some c ∧ ¬ c.Applied hostModel oneHost := by
  refine ⟨⟨_, rfl, ?_, ?_⟩, ⟨_, rfl, ?_⟩⟩
  · intro h
    exact (List.pairwise_cons.mp h).1 _ (List.mem_singleton_self _) "u1" rfl rfl rfl
  · intro h
    exact absurd (h.ending rfl) (by decide +kernel)
  · intro h
    exact absurd (h.ending rfl) (by decide +kernel)

end GridClicks

end Opngms
