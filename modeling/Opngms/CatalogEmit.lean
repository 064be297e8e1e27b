/-
Opngms/CatalogEmit.lean

The catalog that the tool writes (`build_catalog` of tools/opnsense_catalog/emit.py), with
all that is serialized of a model.

The models of an id that several of them share stand under the id and the last segment of
their mounts, so that no model is overwritten.  Two models are still kept apart only if
these names differ (`Clash`): they do not where the segments differ in case alone or are the
same, and where the name of one is the id of another.

Main result: **`never_drop_iff`**.
-/
import Mathlib.Data.Prod.Lex
import Opngms.CatalogTypes
import Opngms.EditorKeys

namespace Opngms

namespace CatalogTool

/-! ### The model of a module -/

/-- What a form says of a field. -/
structure FormMeta where
  label : String
  help : String
  page : String
  deriving DecidableEq

/-- `x or default`. -/
def orText (s default : String) : String := if s = "" then default else s

/-- `_label_fields`. -/
def labelFields (fields : List Field) (forms : List (String × FormMeta)) : List Field :=
  fields.map fun f =>
    let info := (forms.lookup f.path).getD ⟨"", "", ""⟩
    { f with label := orText info.label f.label, help := orText info.help f.help }

/-- `s.strip("/")`. -/
def stripSlashes (s : String) : String :=
  String.ofList ((s.toList.dropWhile (· == '/')).reverse.dropWhile (· == '/')).reverse

/-- The pages with the paths of their fields. -/
def pagesOf (fields : List Field) (forms : List (String × FormMeta)) : List Json :=
  let pages := fields.foldl (fun (pages : List (String × List String)) f =>
    let page := orText ((forms.lookup f.path).getD ⟨"", "", ""⟩).page "general"
    putEntry pages page (((pages.lookup page).getD []) ++ [f.path])) []
  (sortBy (·.1) pages).map fun page =>
    .obj [("id", .str page.1), ("fields", .arr ((sortBy id page.2).map .str))]

/-- `assemble_model`. -/
def assembleModel (lower : String → String) (module : String) (parsed : ParsedModel)
    (forms : List (String × FormMeta)) (endpoints : List (String × String))
    (gridEndpoints : List (String × List (String × String))) (source : String)
    (plugin : Option Json) : Model where
  id := lower module
  title := module
  source := source
  modelRoot := lower module
  xmlPath := stripSlashes parsed.mount
  endpoints := endpoints
  fields := labelFields parsed.fields forms
  grids := parsed.grids.map fun g =>
    { g with
      endpoints := (gridEndpoints.lookup g.path).getD []
      fields := labelFields g.fields forms }
  pages := pagesOf parsed.fields forms
  plugin := plugin

/-! ### The catalog -/

section Build

variable (lower : String → String)

/-- `xml_path.rstrip('/').split('/')[-1].lower()`. -/
def mountLeaf (xmlPath : String) : String :=
  let trimmed := (xmlPath.toList.reverse.dropWhile (· == '/')).reverse
  lower (String.ofList ((trimmed.splitOn '/').getLastD []))

/-- `id_counts[id]`. -/
def idCount (models : List Model) (id : String) : Nat := (models.filter fun m => m.id = id).length

def catalogKey (models : List Model) (m : Model) : String :=
  if 1 < idCount models m.id then m.id ++ "." ++ mountLeaf lower m.xmlPath else m.id

/-- `sorted(models, key=lambda m: (m.id, m.xml_path))`. -/
def sortedModels (models : List Model) : List Model :=
  sortBy (fun m => toLex (m.id, m.xmlPath)) models

/-- `out_models`. -/
def outModels (models : List Model) : Dict :=
  entriesOf (catalogKey lower models) modelToDict (sortedModels models)

/-- `build_catalog`. -/
def buildCatalog (models : List Model) (edition version : String) (generatedFrom : Json) : Json :=
  .obj [("edition", .str edition), ("version", .str version), ("generated_from", generatedFrom),
    ("models", .obj (outModels lower models))]

/-! ### No model is dropped -/

/-- Every model has exactly one entry, its serialization, and no key stands twice. -/
def NeverDrops (models : List Model) (catalog : Json) : Prop :=
  ∃ entries : Dict, catalog.subscript "models" = .ok (.obj entries) ∧ entries.keys.Nodup ∧
    (entries.map (·.2)).Perm (models.map modelToDict)

/-- Two models at different places of the list that are given one name: they share their id
and their segments are the same, or a qualified name is the id of the other, or both
qualified names are the same. -/
def Clash (models : List Model) (a b : Model) : Prop :=
  (a.id = b.id ∧ mountLeaf lower a.xmlPath = mountLeaf lower b.xmlPath) ∨
  (1 < idCount models a.id ∧ ¬ 1 < idCount models b.id ∧
    a.id ++ "." ++ mountLeaf lower a.xmlPath = b.id) ∨
  (¬ 1 < idCount models a.id ∧ 1 < idCount models b.id ∧
    a.id = b.id ++ "." ++ mountLeaf lower b.xmlPath) ∨
  (1 < idCount models a.id ∧ 1 < idCount models b.id ∧ a.id ≠ b.id ∧
    a.id ++ "." ++ mountLeaf lower a.xmlPath = b.id ++ "." ++ mountLeaf lower b.xmlPath)

variable {lower} {models : List Model}

theorem sortedModels_perm (models : List Model) : (sortedModels models).Perm models :=
  sortBy_perm models

theorem neverDrops_iff_nodup (edition version : String) (generatedFrom : Json) :
    NeverDrops models (buildCatalog lower models edition version generatedFrom) ↔
      (models.map (catalogKey lower models)).Nodup := by
  have hperm := sortedModels_perm models
  have hkeys : (models.map (catalogKey lower models)).Nodup ↔
      ((sortedModels models).map (catalogKey lower models)).Nodup :=
    (hperm.map _).nodup_iff.symm
  rw [hkeys]
  constructor
  · rintro ⟨entries, hentries, -, hvalues⟩
    obtain rfl : outModels lower models = entries := Json.obj.inj (Except.ok.inj hentries)
    apply nodup_of_length_entriesOf (catalogKey lower models) modelToDict
    have hlength := hvalues.length_eq
    rw [List.length_map, List.length_map] at hlength
    exact hlength.trans hperm.length_eq.symm
  · intro h
    refine ⟨outModels lower models, rfl, entriesOf_nodup _ _ _, ?_⟩
    rw [outModels, entriesOf_of_nodup _ _ h, List.map_map]
    exact hperm.map modelToDict

theorem idCount_of_sublist {a b : Model} (h : [a, b].Sublist models) (hid : a.id = b.id) :
    1 < idCount models a.id := by
  have hsub := h.filter fun m => decide (m.id = a.id)
  have hboth : [a, b].filter (fun m => decide (m.id = a.id)) = [a, b] := by simp [hid]
  rw [hboth] at hsub
  exact hsub.length_le

theorem catalogKey_eq_iff {a b : Model} (h : [a, b].Sublist models) :
    catalogKey lower models a = catalogKey lower models b ↔ Clash lower models a b := by
  unfold catalogKey Clash
  by_cases hid : a.id = b.id
  · have ha := idCount_of_sublist h hid
    have hb : 1 < idCount models b.id := hid ▸ ha
    rw [if_pos ha, if_pos hb, hid]
    simp [hb]
  · by_cases ha : 1 < idCount models a.id
    · by_cases hb : 1 < idCount models b.id
      · simp [ha, hb, hid]
      · simp [ha, hb, hid]
    · by_cases hb : 1 < idCount models b.id
      · simp [ha, hb, hid]
      · simp [ha, hb, hid]

/-- **No model is dropped exactly if no two of them clash.** -/
theorem never_drop_iff (lower : String → String) (models : List Model) (edition version : String)
    (generatedFrom : Json) :
    NeverDrops models (buildCatalog lower models edition version generatedFrom) ↔
      models.Pairwise fun a b => ¬ Clash lower models a b := by
  rw [neverDrops_iff_nodup, List.Nodup, List.pairwise_map, List.pairwise_iff_forall_sublist,
    List.pairwise_iff_forall_sublist]
  apply forall_congr'
  intro a
  apply forall_congr'
  intro b
  apply forall_congr'
  intro h
  rw [ne_eq, catalogKey_eq_iff h]

end Build

def instancesModels : List Model :=
  [{ id := "openvpn", title := "OpenVPN", source := "core", modelRoot := "openvpn",
     xmlPath := "OPNsense/OpenVPN/Instances" },
   { id := "openvpn", title := "OpenVPN", source := "core", modelRoot := "openvpn",
     xmlPath := "OPNsense/OpenVPN/legacy/instances" }]

/-- The second model overwrites the first one. -/
theorem instances_dropped :
    instancesModels.length = 2 ∧ (outModels Json.lower instancesModels).length = 1 ∧
      ¬ NeverDrops instancesModels
        (buildCatalog Json.lower instancesModels "community" "26.1" .null) := by
  refine ⟨rfl, by decide +kernel, ?_⟩
  rw [neverDrops_iff_nodup]
  decide +kernel

/-! ### What the application reads of a model -/

/-- What of a model is in `Catalog.lean`. -/
def erase (m : Model) : Opngms.Model where
  id := m.id
  modelRoot := m.modelRoot
  xmlPath := m.xmlPath
  endpoints := m.endpoints
  fields := m.fields.map fun f => ⟨f.path⟩
  grids := m.grids.map fun g => ⟨g.path, g.endpoints, g.fields.map fun f => ⟨f.path⟩⟩

end CatalogTool

end Opngms
