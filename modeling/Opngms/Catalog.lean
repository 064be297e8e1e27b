/-
Opngms/Catalog.lean

Catalogs of OPNsense models: what `build_catalog`
(`tools/opnsense_catalog/emit.py`) emits, and the payload that
`_build_payload` (`app/api/catalog.py`) builds from an entry and an edit.

Of a model only what the payload depends on is kept: titles, labels, help
texts, pages and plugin information are left out.
-/
import Mathlib.Data.List.Induction
import Mathlib.Data.List.Sort
import Opngms.AssocLists
import Opngms.Client

namespace Opngms

/-- A field of a model or of a grid row. -/
structure Field where
  path : String
  deriving DecidableEq

/-- A grid (ArrayField) of a model. -/
structure Grid where
  path : String
  endpoints : List (String × String)
  fields : List Field
  deriving DecidableEq

/-- A model of the catalog. -/
structure Model where
  id : String
  modelRoot : String
  xmlPath : String
  endpoints : List (String × String)
  fields : List Field
  grids : List Grid
  deriving DecidableEq

/-- The `models` of a catalog, in insertion order. -/
abbrev Catalog := List (String × Model)

/-- `d[k] = v` for a dictionary in insertion order. -/
def putEntry {α : Type} : List (String × α) → String → α → List (String × α)
  | [], k, v => [(k, v)]
  | (k', v') :: d, k, v => if k' = k then (k, v) :: d else (k', v') :: putEntry d k v

theorem lookup_putEntry {α : Type} (d : List (String × α)) (k k' : String) (v : α) :
    (putEntry d k v).lookup k' = if k' = k then some v else d.lookup k' := by
  induction d with
  | nil =>
    by_cases hk : k' = k
    · simp [putEntry, hk]
    · rw [if_neg hk, putEntry, List.lookup_cons, beq_false_of_ne hk]
  | cons kv d ih =>
    obtain ⟨k₀, v₀⟩ := kv
    by_cases h₀ : k₀ = k
    · subst h₀
      rw [putEntry, if_pos rfl, List.lookup_cons, List.lookup_cons]
      by_cases hk : k' = k₀
      · simp [hk]
      · rw [if_neg hk, beq_false_of_ne hk]
    · rw [putEntry, if_neg h₀, List.lookup_cons, List.lookup_cons, ih]
      by_cases hk : k' = k₀
      · subst hk
        rw [if_neg h₀, if_neg h₀, beq_self_eq_true]
      · rw [beq_false_of_ne hk]

theorem putEntry_keys {α : Type} (d : List (String × α)) (k : String) (v : α) :
    (putEntry d k v).map (·.1) = if k ∈ d.map (·.1) then d.map (·.1) else d.map (·.1) ++ [k] := by
  induction d with
  | nil => rfl
  | cons kv d ih =>
    obtain ⟨k₀, v₀⟩ := kv
    by_cases h : k₀ = k
    · simp [putEntry, h]
    · rw [putEntry, if_neg h, List.map_cons, List.map_cons, ih]
      have hmem : k ∈ k₀ :: d.map (·.1) ↔ k ∈ d.map (·.1) := by
        rw [List.mem_cons]
        exact or_iff_right (Ne.symm h)
      by_cases hk : k ∈ d.map (·.1)
      · rw [if_pos hk, if_pos (hmem.mpr hk)]
      · rw [if_neg hk, if_neg (mt hmem.mp hk), List.cons_append]

theorem putEntry_nodup {α : Type} {d : List (String × α)} (h : (d.map (·.1)).Nodup) (k : String)
    (v : α) : ((putEntry d k v).map (·.1)).Nodup := by
  rw [putEntry_keys]
  split
  · exact h
  · rename_i hk
    rw [List.nodup_append]
    refine ⟨h, List.nodup_singleton _, ?_⟩
    intro a ha b hb hab
    rw [List.mem_singleton.mp hb] at hab
    exact hk (hab ▸ ha)

theorem putEntry_of_not_mem {α : Type} {d : List (String × α)} {k : String} (v : α)
    (h : k ∉ d.map (·.1)) : putEntry d k v = d ++ [(k, v)] := by
  induction d with
  | nil => rfl
  | cons kv d ih =>
    obtain ⟨k', v'⟩ := kv
    rw [List.map_cons, List.mem_cons, not_or] at h
    rw [putEntry, if_neg (Ne.symm h.1), ih h.2]
    rfl

/-- The dictionary that a loop of assignments leaves. -/
def entriesOf {α β : Type} (key : α → String) (val : α → β) (xs : List α) : List (String × β) :=
  xs.foldl (fun out x => putEntry out (key x) (val x)) []

section Entries

variable {α β : Type} (key : α → String) (val : α → β)

theorem entriesOf_concat (xs : List α) (x : α) :
    entriesOf key val (xs ++ [x]) = putEntry (entriesOf key val xs) (key x) (val x) :=
  List.foldl_concat ..

theorem entriesOf_nodup (xs : List α) : ((entriesOf key val xs).map (·.1)).Nodup := by
  induction xs using List.reverseRecOn with
  | nil => exact List.nodup_nil
  | append_singleton xs x ih =>
    rw [entriesOf_concat]
    exact putEntry_nodup ih _ _

theorem lookup_entriesOf (xs : List α) (k : String) :
    (entriesOf key val xs).lookup k = (xs.reverse.find? fun x => key x = k).map val := by
  induction xs using List.reverseRecOn with
  | nil => rfl
  | append_singleton xs x ih =>
    rw [entriesOf_concat, lookup_putEntry, ih, List.reverse_append, List.reverse_singleton,
      List.singleton_append, List.find?_cons]
    by_cases hk : k = key x
    · simp [hk]
    · simp [hk, Ne.symm hk]

theorem lookup_foldl_putEntry (value : String → β) (xs : List α) (d : List (String × β))
    (k : String) :
    (xs.foldl (fun d x => putEntry d (key x) (value (key x))) d).lookup k =
      if k ∈ xs.map key then some (value k) else d.lookup k := by
  induction xs using List.reverseRecOn with
  | nil => rfl
  | append_singleton xs x ih =>
    rw [List.foldl_append, List.foldl_cons, List.foldl_nil, lookup_putEntry, ih]
    by_cases hk : k = key x
    · simp [hk]
    · simp [hk]

theorem entriesOf_of_nodup {xs : List α} (h : (xs.map key).Nodup) :
    entriesOf key val xs = xs.map fun x => (key x, val x) := by
  induction xs using List.reverseRecOn with
  | nil => rfl
  | append_singleton xs x ih =>
    rw [List.map_append, List.nodup_append] at h
    rw [entriesOf_concat, ih h.1, List.map_append]
    apply putEntry_of_not_mem
    rw [List.map_map]
    intro hmem
    exact h.2.2 _ hmem _ (List.mem_singleton_self _) rfl

theorem nodup_of_length_entriesOf {xs : List α} (h : (entriesOf key val xs).length = xs.length) :
    (xs.map key).Nodup := by
  have hsub : (entriesOf key val xs).map (·.1) ⊆ xs.map key := by
    intro k hk
    obtain ⟨e, he, rfl⟩ := List.mem_map.mp hk
    have hlookup := (mem_iff_lookup (entriesOf_nodup key val xs)).mp he
    rw [lookup_entriesOf, Option.map_eq_some_iff] at hlookup
    obtain ⟨x, hx, -⟩ := hlookup
    have hkey : key x = e.1 := by simpa using List.find?_some hx
    exact hkey ▸ List.mem_map_of_mem (List.mem_reverse.mp (List.mem_of_find?_eq_some hx))
  have hsubperm : ((entriesOf key val xs).map (·.1)).Subperm (xs.map key) :=
    List.subperm_of_subset (entriesOf_nodup key val xs) hsub
  have hperm := hsubperm.perm_of_length_le (by simp [h])
  exact hperm.nodup_iff.mp (entriesOf_nodup key val xs)

end Entries

/-- The text after the last slash, trailing slashes apart, in lower case:
`xml_path.rstrip('/').split('/')[-1].lower()`.  A mount is a path of ASCII names. -/
def mountLeaf (xmlPath : String) : String :=
  let trimmed := (xmlPath.toList.reverse.dropWhile (· == '/')).reverse
  Json.lower (String.ofList ((trimmed.splitOn '/').getLastD []))

/-- The key of a model: its id, qualified by the mount leaf where the module
has several models. -/
def catalogKey (models : List Model) (m : Model) : String :=
  if 1 < (models.filter fun m' => m'.id = m.id).length then m.id ++ "." ++ mountLeaf m.xmlPath
  else m.id

/-- The order of `sorted(models, key=lambda m: (m.id, m.xml_path))`. -/
def modelLe (a b : Model) : Prop := a.id < b.id ∨ a.id = b.id ∧ a.xmlPath ≤ b.xmlPath

instance : DecidableRel modelLe := fun a b => by unfold modelLe; infer_instance

/-- `build_catalog`. -/
def buildCatalog (models : List Model) : Catalog :=
  (models.insertionSort modelLe).foldl (fun out m => putEntry out (catalogKey models m) m) []

/-! ### The payload of a catalog edit -/

/-- The operation of a grid edit. -/
inductive GridVerb where
  | add
  | set
  | del
  deriving DecidableEq

def GridVerb.text : GridVerb → String
  | .add => "add"
  | .set => "set"
  | .del => "del"

/-- `CatalogGridOpIn`. -/
structure CatalogGridOpIn where
  op : GridVerb
  grid : String
  uuid : Option String
  item : Option Dict

/-- `CatalogChangeIn`. -/
structure CatalogChangeIn where
  modelId : String
  scalars : List (String × String)
  grids : List CatalogGridOpIn

def strDict (d : List (String × String)) : Dict := d.map fun kv => (kv.1, .str kv.2)

/-- The endpoint under a name: `eps.get(name, "")`. -/
def endpointOf (eps : List (String × String)) (name : String) : String := (eps.lookup name).getD ""

/-- `grid.split(".")[-1]`. -/
def lastSegment (path : String) : String := (splitDots path).getLastD ""

/-- A JSON string, or `null`. -/
def optStr : Option String → Json
  | some s => .str s
  | none => .null

/-- A JSON object, or `null`. -/
def optObj : Option Dict → Json
  | some d => .obj d
  | none => .null

/-- The entry of `grids` that `_build_payload` makes for one grid edit. -/
def gridPayload (model : Model) (opp : CatalogGridOpIn) : Except Raised Json :=
  match model.grids.reverse.find? fun g => g.path == opp.grid with
  | none => .error (.http 422 ("unknown grid: " ++ Json.reprStr opp.grid))
  | some gdef =>
    if (opp.op = .add ∨ opp.op = .set) ∧ opp.item.isNone then
      .error (.http 422 ("grid op " ++ opp.op.text ++ " requires 'item'"))
    else if (opp.op = .set ∨ opp.op = .del) ∧ opp.uuid.getD "" = "" then
      .error (.http 422 ("grid op " ++ opp.op.text ++ " requires 'uuid'"))
    else
      .ok (.obj [("op", .str opp.op.text), ("endpoints", .obj (strDict gdef.endpoints)),
        ("row", .str (lastSegment opp.grid)), ("uuid", optStr opp.uuid),
        ("item", optObj opp.item)])

/-- The loop over the grid edits. -/
def gridPayloads (model : Model) : List CatalogGridOpIn → Except Raised (List Json)
  | [] => .ok []
  | opp :: rest => do
    let g ← gridPayload model opp
    let gs ← gridPayloads model rest
    return g :: gs

/-- `_build_payload`. -/
def buildPayload (model : Model) (body : CatalogChangeIn) : Except Raised Dict := do
  let unknown := (body.scalars.map (·.1)).filter fun k => !(model.fields.map Field.path).contains k
  if !unknown.isEmpty then
    .error (.http 422 ("unknown scalar field(s): " ++
      (Json.arr ((unknown.insertionSort (· ≤ ·)).map Json.str)).repr))
  else
    let grids ← gridPayloads model body.grids
    if endpointOf model.endpoints "reconfigure" = "" then
      .error (.http 422 "model has no reconfigure endpoint (cannot apply safely)")
    else
      return [("model_id", .str model.id),
        ("set_path", .str (endpointOf model.endpoints "set")),
        ("reconfigure_path", .str (endpointOf model.endpoints "reconfigure")),
        ("model_root", .str model.modelRoot),
        ("xml_path", .str model.xmlPath),
        ("scalars", .obj (strDict body.scalars)),
        ("grids", .arr grids)]

end Opngms
