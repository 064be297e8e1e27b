/-
Opngms/LiveValues.lean

The live values of a model (services/catalog_live.py, services/opnsense_values.py): what the
editor reads from the answer of a device to `<model>/settings/get`.

An option field is rendered as a dict of dicts that each have a `selected`; that is all by
which it is told from a container.
-/
import Opngms.Catalog

namespace Opngms

namespace LiveValues

/-- `is_option_dict`. -/
def isOptionDict : Json → Bool
  | .obj kvs => !kvs.isEmpty && kvs.all fun kv =>
    match kv.2 with
    | .obj o => (Dict.get? o "selected").isSome
    | _ => false
  | _ => false

/-- `selected` of an option dict. -/
def selected (kvs : Dict) : List String :=
  (kvs.filter fun kv =>
    match kv.2 with
    | .obj o => (Dict.getD o "selected" .null).pyStr == "1"
    | _ => false).map (·.1)

/-- A current value: a text, or the keys of an option dict that are selected. -/
inductive Current where
  | text (s : String)
  | keys (ks : List String)
  deriving DecidableEq

/-- `_scalar`. -/
def scalar (value : Json) : Option Current :=
  match value with
  | .obj kvs => if isOptionDict (.obj kvs) then some (.keys (selected kvs)) else none
  | .str s => some (.text s)
  | _ => none

def joinPath (pre key : String) : String := if pre = "" then key else pre ++ "." ++ key

mutual

/-- The assignments of `walk`, in order. -/
def walk : Json → String → List (String × Current)
  | .obj kvs, pre => walkItems kvs pre
  | _, _ => []

/-- The loop of `walk` over the entries of a dict. -/
def walkItems : List (String × Json) → String → List (String × Current)
  | [], _ => []
  | (key, val) :: kvs, pre =>
    (match scalar val with
    | some leaf => [(joinPath pre key, leaf)]
    | none => walk val (joinPath pre key)) ++ walkItems kvs pre

end

/-- The dict that assignments leave. -/
def assigned (assignments : List (String × Current)) : List (String × Current) :=
  assignments.foldl (fun out kv => putEntry out kv.1 kv.2) []

/-- `(get_response or {}).get(model.get("model_root", ""), {})`. -/
def rootOf (response : Json) (model : Model) : Except BuiltinError Json :=
  (response.orElse (.obj [])).attrGet model.modelRoot (.obj [])

/-- `flatten_values`. -/
def flattenValues (response : Json) (model : Model) :
    Except BuiltinError (List (String × Current)) := do
  let root ← rootOf response model
  return (assigned (walk root "")).filter fun kv => model.fields.any fun f => f.path == kv.1

/-- The node of a grid: the parts of its path, one after another. -/
def gridNode (root : Json) (path : String) : Json :=
  (splitDots path).foldl (fun node part =>
    match node with
    | .obj kvs => Dict.getD kvs part (.obj [])
    | _ => .obj []) root

def rowOf (uuid : String) (cells : Dict) (fieldPaths : List String) : List (String × Current) :=
  fieldPaths.foldl (fun row fp =>
    putEntry row fp ((scalar (Dict.getD cells fp .null)).getD (.text ""))) [("uuid", .text uuid)]

/-- `extract_grid_rows`. -/
def extractGridRows (response : Json) (model : Model) (grid : Grid) :
    Except BuiltinError (List (List (String × Current))) := do
  let root ← rootOf response model
  match gridNode root grid.path with
  | .obj kvs => return kvs.filterMap fun kv =>
    match kv.2 with
    | .obj cells => some (rowOf kv.1 cells (grid.fields.map (·.path)))
    | _ => none
  | _ => return []

end LiveValues

end Opngms
