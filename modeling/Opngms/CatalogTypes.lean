/-
Opngms/CatalogTypes.lean

The records of the catalog tool with all their fields (tools/opnsense_catalog/types.py), and
the dicts that are made of them.

`Catalog.lean` keeps what the application reads of a catalog; here is what the tool writes.
-/
import Mathlib.Data.String.Basic
import Opngms.Json
import Opngms.StableSort

namespace Opngms

namespace CatalogTool

/-- `Field`. -/
structure Field where
  path : String
  type : String
  required : Bool := false
  default : Option String := none
  options : List String := []
  label : String := ""
  help : String := ""
  confidence : String := "rich"
  deriving DecidableEq

/-- `Grid`; its endpoints are a dict. -/
structure Grid where
  path : String
  endpoints : List (String × String) := []
  fields : List Field := []
  deriving DecidableEq

/-- `Model`. -/
structure Model where
  id : String
  title : String
  source : String
  modelRoot : String
  xmlPath : String
  endpoints : List (String × String) := []
  fields : List Field := []
  grids : List Grid := []
  pages : List Json := []
  plugin : Option Json := none
  deriving DecidableEq

/-- `ParsedModel`. -/
structure ParsedModel where
  mount : String
  fields : List Field := []
  grids : List Grid := []
  deriving DecidableEq

/-- `_field_to_dict`. -/
def fieldToDict (f : Field) : Json :=
  .obj ([("path", .str f.path), ("type", .str f.type), ("confidence", .str f.confidence)] ++
    (if f.required then [("required", .bool true)] else []) ++
    (match f.default with
      | some d => [("default", .str d)]
      | none => []) ++
    (if f.options ≠ [] then [("options", .arr (f.options.map .str))] else []) ++
    (if f.label ≠ "" then [("label", .str f.label)] else []) ++
    (if f.help ≠ "" then [("help", .str f.help)] else []))

/-- `dict(sorted(endpoints.items()))`. -/
def sortedEndpoints (endpoints : List (String × String)) : Json :=
  .obj ((sortBy (·.1) endpoints).map fun kv => (kv.1, .str kv.2))

/-- `[_field_to_dict(f) for f in sorted(fields, key=lambda f: f.path)]`. -/
def sortedFields (fields : List Field) : Json := .arr ((sortBy (·.path) fields).map fieldToDict)

/-- `_grid_to_dict`. -/
def gridToDict (g : Grid) : Json :=
  .obj [("path", .str g.path), ("endpoints", sortedEndpoints g.endpoints),
    ("fields", sortedFields g.fields)]

/-- `model_to_dict`. -/
def modelToDict (m : Model) : Json :=
  .obj ([("id", .str m.id), ("title", .str m.title), ("source", .str m.source),
      ("model_root", .str m.modelRoot), ("xml_path", .str m.xmlPath),
      ("endpoints", sortedEndpoints m.endpoints), ("pages", .arr m.pages),
      ("fields", sortedFields m.fields),
      ("grids", .arr ((sortBy (·.path) m.grids).map gridToDict))] ++
    match m.plugin with
    | some p => [("plugin", p)]
    | none => [])

end CatalogTool

end Opngms
