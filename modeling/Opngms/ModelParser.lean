/-
Opngms/ModelParser.lean

The parser of a model definition (`parse_model` of tools/opnsense_catalog/model_parser.py)
and the endpoints of its grids (tools/opnsense_catalog/endpoints.py).

The nodes of a definition are addressed by their chains, the tags from `items` down.
`placedAt` is where each typed node belongs: to the nearest `ArrayField` above it, under the
chain from there, or to the model.
-/
import Mathlib.Data.List.Infix
import Opngms.CatalogEmit
import Opngms.EditRoundTrip

namespace Opngms

namespace CatalogTool

open LiveValues

/-! ### The parser -/

/-- The methods of `str` that depend on tables of Unicode. -/
structure StrMethods where
  upper : String → String
  lower : String → String

/-- `_TYPE_MAP`. -/
def typeMap : List (String × String) :=
  [("BooleanField", "bool"), ("IntegerField", "int"), ("PortField", "int"),
    ("NumericField", "string"), ("TextField", "string"), ("DescriptionField", "string"),
    ("HostnameField", "string"), ("EmailField", "string"), ("CSVListField", "string"),
    ("NetworkField", "network"), ("NetworkAliasField", "network"), ("OptionField", "enum"),
    ("ProtocolField", "enum"), ("CountryField", "enum"), ("ModelRelationField", "ref"),
    ("InterfaceField", "ref"), ("CertificateField", "ref"), ("AuthGroupField", "ref"),
    ("AuthenticationServerField", "ref"), ("VirtualIPField", "ref"),
    ("ConfigdActionsField", "ref"), ("MacAddressField", "string"), ("UrlField", "string"),
    ("IPPortField", "string"), ("JsonKeyValueStoreField", "string"), ("JsonField", "string"),
    ("Base64Field", "string"), ("UpdateOnlyTextField", "string"), ("LegacyLinkField", "string"),
    ("AutoNumberField", "int")]

section Parser

variable (py : StrMethods)

/-- `_text`: an element without text has none. -/
def textOf (el : Elem) (tag : String) : Option String :=
  (el.find [tag]).bind fun child => if child.text = "" then none else some child.text

/-- `_is_truthy`. -/
def isTruthy (el : Elem) (tag : String) : Bool :=
  ["Y", "YES", "1", "TRUE"].contains (py.upper (strip ((textOf el tag).getD "")))

/-- `_options`. -/
def optionsOf (el : Elem) : List String :=
  match el.find ["OptionValues"] with
  | none => []
  | some ov => ov.children.map fun opt => (opt.get "value").getD opt.tag

/-- The field of a node of the class `cls`. -/
def fieldOf (path cls : String) (child : Elem) : Field :=
  let base := typeMap.lookup cls
  let ftype := base.getD "string"
  { path := path
    type := if base = some "enum" ∧ isTruthy py child "Multiple" = true then "multienum" else ftype
    required := isTruthy py child "Required"
    default := textOf child "default"
    options := optionsOf child
    confidence := if base.isSome then "rich" else "raw" }

mutual

/-- What `_walk` appends to `fields` and to `grids` for a child of a node. -/
def walkAt (pre : String) : Elem → List Field × List Grid
  | .mk tag attrib text children =>
    let child := Elem.mk tag attrib text children
    let path := joinPath pre tag
    match child.get "type" with
    | some cls =>
      if cls = "ArrayField" then
        let row := walkAll "" children
        ([], row.2 ++ [{ path := path, fields := row.1 }])
      else ([fieldOf py path cls child], [])
    | none => walkAll path children

/-- `_walk`. -/
def walkAll (pre : String) : List Elem → List Field × List Grid
  | [] => ([], [])
  | child :: children =>
    let first := walkAt pre child
    let rest := walkAll pre children
    (first.1 ++ rest.1, first.2 ++ rest.2)

end

/-- The nodes below `items`. -/
def itemsOf (root : Elem) : List Elem :=
  match root.find ["items"] with
  | some items => items.children
  | none => []

/-- `parse_model` of a parsed document. -/
def parseModel (root : Elem) : ParsedModel where
  mount := strip (root.findtext "mount")
  fields := (walkAll py "" (itemsOf root)).1
  grids := (walkAll py "" (itemsOf root)).2

/-! ### The endpoints -/

/-- `item[:1].upper() + item[1:]`. -/
def capitalized (item : String) : String :=
  py.upper (String.ofList (item.toList.take 1)) ++ String.ofList (item.toList.drop 1)

/-- The endpoints of the grid whose rows are named `item`. -/
def gridEndpoints (base item : String) : List (String × String) :=
  let cap := capitalized py item
  [("search", base ++ "/settings/search" ++ cap), ("add", base ++ "/settings/add" ++ cap),
    ("set", base ++ "/settings/set" ++ cap), ("del", base ++ "/settings/del" ++ cap)]

/-- The endpoints of a model, those of its grids by their paths, and whether they are known
to exist. -/
structure Resolved where
  endpoints : List (String × String)
  gridEps : List (String × List (String × String))
  confidence : String

/-- `resolve_endpoints`. -/
def resolveEndpoints (module : String) (grids : List Grid) (controllerPhp : Option String) :
    Resolved :=
  let base := py.lower module
  { endpoints := [("get", base ++ "/settings/get"), ("set", base ++ "/settings/set"),
      ("reconfigure", base ++ "/service/reconfigure")]
    gridEps := entriesOf (·.path) (fun g => gridEndpoints py base (lastSegment g.path)) grids
    confidence :=
      if "ApiMutableModelControllerBase".toList <:+: (controllerPhp.getD "").toList then "rich"
      else "raw" }

/-- The model of a parsed definition, as the application reads it from the catalog. -/
def appModel (module : String) (parsed : ParsedModel) (forms : List (String × FormMeta))
    (controllerPhp : Option String) (source : String) (plugin : Option Json) : Opngms.Model :=
  let resolved := resolveEndpoints py module parsed.grids controllerPhp
  erase (assembleModel py.lower module parsed forms resolved.endpoints resolved.gridEps source
    plugin)

end Parser

/-! ### Where nodes belong -/

/-- A node with the tags from `items` down to it. -/
structure Node where
  chain : List String
  el : Elem

def dotted (chain : List String) : String := chain.foldl joinPath ""

/-- An `ArrayField`. -/
def IsArray (el : Elem) : Prop := el.get "type" = some "ArrayField"

/-- A typed node that is no `ArrayField`. -/
def IsTyped (el : Elem) : Prop := ∃ cls, el.get "type" = some cls ∧ cls ≠ "ArrayField"

mutual

/-- The `ArrayField`s at and below a child of a node, an outer one before those in it. -/
def arraysAt (full : List String) : Elem → List Node
  | .mk tag attrib text children =>
    let child := Elem.mk tag attrib text children
    (if child.get "type" = some "ArrayField" then [⟨full ++ [tag], child⟩] else []) ++
      arraysAll (full ++ [tag]) children

/-- `arraysAt` over the children of a node. -/
def arraysAll (full : List String) : List Elem → List Node
  | [] => []
  | child :: children => arraysAt full child ++ arraysAll full children

end

mutual

/-- The chains of the typed nodes at and below a child of a node that no `ArrayField`
stands above. -/
def scalarsAt (full : List String) : Elem → List (List String)
  | .mk tag attrib text children =>
    match (Elem.mk tag attrib text children).get "type" with
    | some cls =>
      if cls = "ArrayField" then [] else (full ++ [tag]) :: scalarsAll (full ++ [tag]) children
    | none => scalarsAll (full ++ [tag]) children

/-- `scalarsAt` over the children of a node. -/
def scalarsAll (full : List String) : List Elem → List (List String)
  | [] => []
  | child :: children => scalarsAt full child ++ scalarsAll full children

end

section Placed

variable (py : StrMethods)

mutual

/-- The typed nodes at and below a child of a node: the path of the grid that each belongs
to, if it belongs to one, and its field, whose path begins there. -/
def placedAt (owner : Option String) (rel full : List String) :
    Elem → List (Option String × Field)
  | .mk tag attrib text children =>
    let child := Elem.mk tag attrib text children
    match child.get "type" with
    | some cls =>
      if cls = "ArrayField" then
        placedAll (some (dotted (full ++ [tag]))) [] (full ++ [tag]) children
      else
        (owner, fieldOf py (dotted (rel ++ [tag])) cls child) ::
          placedAll owner (rel ++ [tag]) (full ++ [tag]) children
    | none => placedAll owner (rel ++ [tag]) (full ++ [tag]) children

/-- `placedAt` over the children of a node. -/
def placedAll (owner : Option String) (rel full : List String) :
    List Elem → List (Option String × Field)
  | [] => []
  | child :: children => placedAt owner rel full child ++ placedAll owner rel full children

end

end Placed

/-- Where a parsed model has its fields. -/
def placedIn (fields : List Field) (grids : List Grid) : List (Option String × Field) :=
  fields.map (fun f => (none, f)) ++
    grids.flatMap fun g => g.fields.map fun f => (some g.path, f)

end CatalogTool

end Opngms
