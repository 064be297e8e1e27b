/-
Opngms/Editor.lean

The catalog editor of the frontend (`frontend/src/catalog/`): the tab
(`CatalogEditorTab`), the form of a model (`CatalogModelForm`) and the tables of
its grids (`CatalogGridTable`).

The state is what the components keep between renders: the selected model, the
answers of the query layer (`useCatalogModel`, one for each key), and the state
of the form that is mounted, if one is.  React keeps the state of a form as long
as its key, the id of the model, stays the same.  A step is an event: a choice
of the operator, or data that arrives.

The badges of the version diff, the menu and the map pane are left out, as are
the options of the inputs; the pages of a model list its fields, so a field is
edited under its path.
-/
import Opngms.Catalog

namespace Opngms

namespace Editor

/-! ### Live data -/

/-- A value of a live model: `string | string[]`. -/
inductive FieldValue where
  | text (s : String)
  | many (ss : List String)

/-- `toStr`, and `asString` of the grid table. -/
def toStr : Option FieldValue → String
  | some (.text s) => s
  | some (.many ss) => ",".intercalate ss
  | none => ""

/-- `GridRow`. -/
structure GridRow where
  uuid : String
  cells : List (String × FieldValue)

/-- `CatalogModelLive`. -/
structure CatalogModelLive where
  model : Model
  values : List (String × FieldValue)
  grids : List (String × List GridRow)
  reachable : Bool
  readOnly : Bool

/-- `reachable && !read_only`. -/
def CatalogModelLive.editable (live : CatalogModelLive) : Bool := live.reachable && !live.readOnly

/-- `seeded`: the live value of each field, as a string. -/
def CatalogModelLive.seeded (live : CatalogModelLive) : List (String × String) :=
  live.model.fields.foldl (fun s f => putEntry s f.path (toStr (live.values.lookup f.path))) []

/-! ### The grid table -/

/-- An operation entered in a grid table.  The serial tells operations apart
that are entered twice. -/
structure GridEntry where
  serial : Nat
  op : CatalogGridOpIn

/-- The state of a `CatalogGridTable`: `ops`, and `editing` with the uuid and
the item of the row in the dialog. -/
structure GridTable where
  ops : List GridEntry
  editing : Option (Option String × List (String × String))

def GridTable.fresh : GridTable := ⟨[], none⟩

/-- `openAdd`. -/
def GridTable.openAdd (grid : Grid) (t : GridTable) : GridTable :=
  { t with editing := some (none, grid.fields.foldl (fun d f => putEntry d f.path "") []) }

/-- `openEdit`. -/
def GridTable.openEdit (grid : Grid) (row : GridRow) (t : GridTable) : GridTable :=
  { t with
    editing := some (some row.uuid,
      grid.fields.foldl (fun d f => putEntry d f.path (toStr (row.cells.lookup f.path))) []) }

def GridTable.editItem (path value : String) (t : GridTable) : GridTable :=
  { t with editing := t.editing.map fun e => (e.1, putEntry e.2 path value) }

/-- The operation that `save` makes of the dialog; an empty uuid counts as
none. -/
def savedOp (grid : Grid) : Option String × List (String × String) → CatalogGridOpIn
  | (some uuid, item) =>
    if uuid ≠ "" then ⟨.set, grid.path, some uuid, some (strDict item)⟩
    else ⟨.add, grid.path, none, some (strDict item)⟩
  | (none, item) => ⟨.add, grid.path, none, some (strDict item)⟩

/-! ### The form -/

/-- The state of a `CatalogModelForm`, with those of its tables. -/
structure Form where
  /-- The key under which React keeps the state. -/
  key : String
  work : List (String × String)
  gridOps : List (String × List GridEntry)
  tables : List (String × GridTable)

def Form.mount (live : CatalogModelLive) : Form := ⟨live.model.id, live.seeded, [], []⟩

/-- A form that is rendered again keeps its state; a table that is no longer
shown loses its own. -/
def Form.rerender (live : CatalogModelLive) (f : Form) : Form :=
  { f with
    tables := if live.readOnly then []
      else f.tables.filter fun t => live.model.grids.any fun g => g.path == t.1 }

def Form.table (f : Form) (path : String) : GridTable := (f.tables.lookup path).getD .fresh

/-- `setWork((w) => ({ ...w, [p]: v }))`. -/
def Form.edit (path value : String) (f : Form) : Form := { f with work := putEntry f.work path value }

def Form.setTable (path : String) (t : GridTable) (f : Form) : Form :=
  { f with tables := putEntry f.tables path t }

/-- `push`: the table's operations grow, and `onOps` hands all of them to the
form. -/
def Form.push (path : String) (entry : GridEntry) (f : Form) : Form :=
  let all := (f.table path).ops ++ [entry]
  { f with
    tables := putEntry f.tables path { f.table path with ops := all }
    gridOps := putEntry f.gridOps path all }

/-- The operations of the form: `Object.values(gridOps).flat()`. -/
def Form.entries (f : Form) : List GridEntry := f.gridOps.flatMap (·.2)

/-- The scalars of `build`: the entries of the working copy that differ from
the live values. -/
def Form.scalars (live : CatalogModelLive) (f : Form) : List (String × String) :=
  f.work.filter fun pv => live.seeded.lookup pv.1 ≠ some pv.2

/-- `build`. -/
def Form.build (live : CatalogModelLive) (f : Form) : CatalogChangeIn :=
  ⟨live.model.id, f.scalars live, f.entries.map (·.op)⟩

/-! ### The tab -/

/-- The state of the tab. -/
structure Tab where
  selected : Option String
  /-- The answers of `useCatalogModel`, by model key. -/
  data : List (String × CatalogModelLive)
  form : Option Form
  /-- How many grid operations have been entered. -/
  serial : Nat

def Tab.init : Tab := ⟨none, [], none, 0⟩

def Tab.live (tab : Tab) : Option CatalogModelLive := 
  tab.selected.bind fun key => tab.data.lookup key

/-- The form after a render: kept under the same key, mounted afresh under
another. -/
def Tab.render (tab : Tab) : Tab :=
  { tab with
    form := tab.live.map fun live =>
      match tab.form with
      | some f => if f.key = live.model.id then f.rerender live else .mount live
      | none => .mount live }

/-- What can happen. -/
inductive Event where
  /-- The operator opens a model. -/
  | select (key : String)
  /-- The query layer delivers the live model under a key. -/
  | deliver (key : String) (live : CatalogModelLive)
  /-- The query layer drops what is not on display. -/
  | expire (key : String)
  | edit (path value : String)
  | openAdd (grid : Grid)
  | openEdit (grid : Grid) (row : GridRow)
  | editItem (grid : Grid) (path value : String)
  | close (grid : Grid)
  | save (grid : Grid)
  | delete (grid : Grid) (uuid : String)
  /-- A click on Propose, and whether the server accepts what is sent. -/
  | propose (accepted : Bool)

def Tab.onForm (tab : Tab) (change : Form → Form) : Tab := { tab with form := tab.form.map change }

def Tab.push (tab : Tab) (grid : Grid) (op : CatalogGridOpIn) : Tab :=
  { tab.onForm (Form.push grid.path ⟨tab.serial, op⟩) with serial := tab.serial + 1 }

/-- The operator can edit the field: it is on display and not disabled. -/
def Tab.takes (tab : Tab) (path : String) : Bool :=
  tab.live.any fun live => live.editable && (live.model.fields.map Field.path).contains path

/-- The table of the grid is on display. -/
def CatalogModelLive.shows (live : CatalogModelLive) (grid : Grid) : Bool :=
  !live.readOnly && live.model.grids.contains grid

/-- The effect of an event on the state.  Inputs that are disabled or not shown
do nothing; `propose` changes nothing, whatever the answer. -/
def Tab.step (tab : Tab) : Event → Tab
  | .select key => ({ tab with selected := some key } : Tab).render
  | .deliver key live => ({ tab with data := putEntry tab.data key live } : Tab).render
  | .expire key =>
    if tab.selected = some key then tab
    else { tab with data := tab.data.filter fun kl => kl.1 != key }
  | .edit path value =>
    if tab.takes path then tab.onForm (Form.edit path value) else tab
  | .openAdd grid =>
    if tab.live.any fun live => live.editable && live.shows grid then
      tab.onForm fun f => f.setTable grid.path ((f.table grid.path).openAdd grid)
    else tab
  | .openEdit grid row =>
    if tab.live.any fun live => live.editable && live.shows grid then
      tab.onForm fun f => f.setTable grid.path ((f.table grid.path).openEdit grid row)
    else tab
  | .editItem grid path value =>
    if tab.live.any fun live => live.shows grid then
      tab.onForm fun f => f.setTable grid.path ((f.table grid.path).editItem path value)
    else tab
  | .close grid =>
    if tab.live.any fun live => live.shows grid then
      tab.onForm fun f => f.setTable grid.path { f.table grid.path with editing := none }
    else tab
  | .save grid =>
    match tab.form with
    | none => tab
    | some f =>
      match (f.table grid.path).editing with
      | none => tab
      | some editing =>
        if tab.live.any fun live => live.shows grid then
          (tab.push grid (savedOp grid editing)).onForm fun f =>
            f.setTable grid.path { f.table grid.path with editing := none }
        else tab
  | .delete grid uuid =>
    if tab.live.any fun live => live.editable && live.shows grid then
      tab.push grid ⟨.del, grid.path, some uuid, none⟩
    else tab
  | .propose _ => tab

/-- What a click on Propose sends: nothing, if there is nothing to send or the
button is not there. -/
def Tab.proposal (tab : Tab) : Option (CatalogModelLive × Form) :=
  match tab.live, tab.form with
  | some live, some f =>
    if live.editable && !((f.scalars live).isEmpty && f.entries.isEmpty) then some (live, f)
    else none
  | _, _ => none

end Editor

end Opngms
