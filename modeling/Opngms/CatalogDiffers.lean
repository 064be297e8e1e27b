/-
Opngms/CatalogDiffers.lean

The two differs of catalogs: `diff_catalogs` of services/catalog_versions.py, and the one
of tools/opnsense_catalog/diff.py that it was reimplemented from.

The tool names every attribute that changed, with its values; the application names the
path.  Both are sorted, so what is reported is determined by what belongs to it
(`Lists.unique`), and both report the same (`IsReport`): a field is what the last entry
with its path says.

Main result: **`differs_agree`**.
-/
import Mathlib.Data.List.Dedup
import Mathlib.Data.String.Basic
import Opngms.CatalogDiff

namespace Opngms

namespace CatalogProvider

/-! ### The differ of the tool -/

/-- `set(xs) - set(ys)`. -/
def setDiff (xs ys : List String) : List String := xs.dedup.filter (· ∉ ys)

/-- `set(xs) & set(ys)`. -/
def setInter (xs ys : List String) : List String := xs.dedup.filter (· ∈ ys)

theorem mem_setDiff {xs ys : List String} {x : String} : x ∈ setDiff xs ys ↔ x ∈ xs ∧ x ∉ ys := by
  rw [setDiff, List.mem_filter, List.mem_dedup, decide_eq_true_iff]

theorem mem_setInter {xs ys : List String} {x : String} :
    x ∈ setInter xs ys ↔ x ∈ xs ∧ x ∈ ys := by
  rw [setInter, List.mem_filter, List.mem_dedup, decide_eq_true_iff]

theorem nodup_setDiff (xs ys : List String) : (setDiff xs ys).Nodup :=
  (List.nodup_dedup xs).filter _

theorem nodup_setInter (xs ys : List String) : (setInter xs ys).Nodup :=
  (List.nodup_dedup xs).filter _

namespace Tool

/-- One attribute of a field that changed. -/
structure Change where
  path : String
  attr : String
  before : Json
  after : Json
  deriving DecidableEq

/-- The difference of one model. -/
structure FieldDiff where
  addedFields : List String
  removedFields : List String
  changedFields : List Change
  deriving DecidableEq

/-- The answer of `diff_catalogs`. -/
structure CatalogChanges where
  addedModels : List String
  removedModels : List String
  models : List (String × FieldDiff)
  deriving DecidableEq

/-- `_fields_by_path`; a path is a text. -/
def fieldsByPath (model : Json) : Except BuiltinError (List (String × Dict)) := do
  let fields ← model.attrGet "fields" (.arr [])
  let entries ← (← fields.iterate).mapM fun f => do
    match ← f.subscript "path", f with
    | .str path, .obj kvs => .ok (path, kvs)
    | _, _ => .error .typeError
  return entries.foldl (fun (out : List (String × Dict)) (entry : String × Dict) =>
    out.filter (·.1 ≠ entry.1) ++ [entry]) []

/-- The attributes of two fields that differ. -/
def changedAttrs (path : String) (a b : Dict) : List Change :=
  (["type", "required", "default", "options"].filter fun attr =>
    !(Dict.getD a attr .null).pyEq (Dict.getD b attr .null)).map fun attr =>
      ⟨path, attr, Dict.getD a attr .null, Dict.getD b attr .null⟩

def field (fields : List (String × Dict)) (path : String) : Dict :=
  ((fields.find? fun f => f.1 == path).map (·.2)).getD []

/-- The difference of the fields of one model. -/
def diffFields (a b : Json) : Except BuiltinError FieldDiff := do
  let af ← fieldsByPath a
  let bf ← fieldsByPath b
  return {
    addedFields := sortedTexts (setDiff (bf.map (·.1)) (af.map (·.1)))
    removedFields := sortedTexts (setDiff (af.map (·.1)) (bf.map (·.1)))
    changedFields := (sortedTexts (setInter (af.map (·.1)) (bf.map (·.1)))).flatMap fun path =>
      changedAttrs path (field af path) (field bf path) }

/-- The texts of `set(x)`. -/
def keySet (x : Json) : Except BuiltinError (List String) := do
  (← x.iterate).mapM fun k =>
    match k with
    | .str s => .ok s
    | _ => .error .typeError

/-- `diff_catalogs`. -/
def diffCatalogs (a b : Json) : Except BuiltinError CatalogChanges := do
  let am ← a.attrGet "models" (.obj [])
  let bm ← b.attrGet "models" (.obj [])
  let bk ← keySet bm
  let ak ← keySet am
  let both ← (sortedTexts (setInter ak bk)).mapM fun mid => do
    return (mid, ← diffFields (← am.subscript mid) (← bm.subscript mid))
  return {
    addedModels := sortedTexts (setDiff bk ak)
    removedModels := sortedTexts (setDiff ak bk)
    models := both.filter fun m =>
      m.2.addedFields ≠ [] || m.2.removedFields ≠ [] || m.2.changedFields ≠ [] }

/-- What the application says of a model: the paths of the changes. -/
def FieldDiff.paths (d : FieldDiff) : CatalogProvider.FieldDiff :=
  ⟨d.addedFields, d.removedFields, (d.changedFields.map (·.path)).dedup⟩

def CatalogChanges.paths (d : CatalogChanges) : CatalogProvider.CatalogChanges :=
  ⟨d.addedModels, d.removedModels, d.models.map fun m => (m.1, m.2.paths)⟩

end Tool

/-! ### Well-formed catalogs -/

/-- The fields of a model, if it has any, are a list of dicts that each have a path. -/
def WellFormedModel (m : Json) : Prop :=
  ∃ kvs, m = .obj kvs ∧ (Dict.get? kvs "fields" = none ∨
    ∃ fs, Dict.get? kvs "fields" = some (.arr fs) ∧
      ∀ f ∈ fs, ∃ d path, f = .obj d ∧ Dict.get? d "path" = some (.str path))

/-- A catalog whose models, if it has any, are under distinct keys and well formed. -/
structure Catalog where
  content : Dict
  models : Dict
  content_models : Dict.get? content "models" = some (.obj models) ∨
    Dict.get? content "models" = none ∧ models = []
  nodup : models.keys.Nodup
  wellFormed : ∀ m ∈ models, WellFormedModel m.2

/-- A field with its path. -/
def pathed (f : Json) : Option (String × Dict) :=
  match f with
  | .obj d =>
    match Dict.get? d "path" with
    | some (.str path) => some (path, d)
    | _ => none
  | _ => none

/-- The fields of a model with their paths. -/
def fieldList (m : Json) : List (String × Dict) :=
  match m with
  | .obj kvs =>
    match Dict.get? kvs "fields" with
    | some (.arr fs) => fs.filterMap pathed
    | _ => []
  | _ => []

/-- The field that a model has under a path: the last one. -/
def fieldAt (m : Json) (path : String) : Option Dict :=
  ((fieldList m).reverse.find? fun f => f.1 == path).map (·.2)

/-- The fields of two models agree, path by path. -/
def SameFields (a b : Json) : Prop :=
  ∀ path, Option.Rel (fun f g => ∀ attr ∈ ["type", "required", "default", "options"],
    (Dict.getD f attr .null).pyEq (Dict.getD g attr .null) = true) (fieldAt a path) (fieldAt b path)

/-! ### Sorted lists of texts -/

/-- A list that names what has a property: in order, and each once. -/
def Lists (xs : List String) (P : String → Prop) : Prop :=
  xs.Pairwise (· < ·) ∧ ∀ x, x ∈ xs ↔ P x

theorem Lists.unique {xs ys : List String} {P : String → Prop} (hx : Lists xs P)
    (hy : Lists ys P) : xs = ys :=
  List.Pairwise.eq_of_mem_iff hx.1 hy.1 fun x => (hx.2 x).trans (hy.2 x).symm

theorem mem_sortedTexts {xs : List String} {x : String} : x ∈ sortedTexts xs ↔ x ∈ xs :=
  (List.perm_insertionSort _ xs).mem_iff

theorem lists_sortedTexts {xs : List String} (h : xs.Nodup) :
    Lists (sortedTexts xs) (· ∈ xs) := by
  refine ⟨?_, fun x => mem_sortedTexts⟩
  have hle : (sortedTexts xs).Pairwise (· ≤ ·) := List.pairwise_insertionSort _ xs
  have hne : (sortedTexts xs).Pairwise (· ≠ ·) := (List.perm_insertionSort _ xs).nodup_iff.mpr h
  exact (hle.and hne).imp fun hxy => lt_of_le_of_ne hxy.1 hxy.2

theorem Lists.congr {xs : List String} {P Q : String → Prop} (h : Lists xs P)
    (hpq : ∀ x, P x ↔ Q x) : Lists xs Q :=
  ⟨h.1, fun x => (h.2 x).trans (hpq x)⟩

/-! ### Fields by their path -/

/-- The dict that both differs make of the fields. -/
def byPath (entries : List (String × Dict)) : List (String × Dict) :=
  entries.foldl (fun (out : List (String × Dict)) (entry : String × Dict) =>
    out.filter (·.1 ≠ entry.1) ++ [entry]) []

theorem byPath_concat (entries : List (String × Dict)) (e : String × Dict) :
    byPath (entries ++ [e]) = (byPath entries).filter (·.1 ≠ e.1) ++ [e] :=
  List.foldl_concat ..

theorem byPath_nodup (entries : List (String × Dict)) :
    ((byPath entries).map (·.1)).Nodup := by
  induction entries using List.reverseRecOn with
  | nil => exact List.nodup_nil
  | append_singleton entries e ih =>
    rw [byPath_concat, List.map_append, List.nodup_append]
    refine ⟨(List.filter_sublist.map _).nodup ih, List.nodup_singleton _, ?_⟩
    intro p hp q hq heq
    obtain ⟨f, hf, rfl⟩ := List.mem_map.mp hp
    obtain rfl := List.mem_singleton.mp hq
    exact of_decide_eq_true (List.mem_filter.mp hf).2 heq

theorem find?_byPath (entries : List (String × Dict)) (path : String) :
    (byPath entries).find? (fun f => f.1 == path) =
      entries.reverse.find? fun f => f.1 == path := by
  induction entries using List.reverseRecOn with
  | nil => rfl
  | append_singleton entries e ih =>
    rw [byPath_concat, List.find?_append, List.reverse_concat, List.find?_filter]
    by_cases he : e.1 = path
    · subst he
      have hnone : (byPath entries).find? (fun f => decide (decide (f.1 ≠ e.1) = true ∧
          (f.1 == e.1) = true)) = none := by
        rw [List.find?_eq_none]
        intro f _
        simp
      rw [hnone, Option.none_or, List.find?_cons_of_pos (by simp),
        List.find?_cons_of_pos (by simp)]
    · have hsame : (fun f : String × Dict => decide (decide (f.1 ≠ e.1) = true ∧
          (f.1 == path) = true)) = fun f => f.1 == path := by
        funext f
        by_cases hf : f.1 = path
        · simp [hf, Ne.symm he]
        · simp [hf]
      rw [hsame, ih, List.find?_cons_of_neg (by simpa using he), List.find?_nil, Option.or_none,
        List.find?_cons_of_neg (by simpa using he)]

def fieldDict (m : Json) : List (String × Dict) := byPath (fieldList m)

theorem find?_fieldDict (m : Json) (path : String) :
    ((fieldDict m).find? fun f => f.1 == path).map (·.2) = fieldAt m path := by
  rw [fieldDict, find?_byPath, fieldAt]

theorem mem_fieldDict {m : Json} {path : String} :
    path ∈ (fieldDict m).map (·.1) ↔ (fieldAt m path).isSome = true := by
  rw [← find?_fieldDict, Option.isSome_map, List.find?_isSome, List.mem_map]
  simp

theorem fieldAt_of_mem {m : Json} {f : String × Dict} (h : f ∈ fieldDict m) :
    fieldAt m f.1 = some f.2 := by
  rw [← find?_fieldDict]
  have hfind : (fieldDict m).find? (fun f' => f'.1 == f.1) = some f := by
    have hnodup : ((fieldDict m).map (·.1)).Nodup := byPath_nodup _
    generalize fieldDict m = fields at h hnodup
    induction fields with
    | nil => cases h
    | cons g fields ih =>
      rw [List.map_cons, List.nodup_cons] at hnodup
      rcases List.mem_cons.mp h with rfl | h
      · simp
      · have hne : g.1 ≠ f.1 := by
          intro heq
          exact hnodup.1 (List.mem_map.mpr ⟨f, h, heq.symm⟩)
        rw [List.find?_cons, beq_eq_false_iff_ne.mpr hne]
        exact ih h hnodup.2
  rw [hfind, Option.map_some]

theorem pathed_obj {d : Dict} {path : String} (h : Dict.get? d "path" = some (.str path)) :
    pathed (.obj d) = some (path, d) := by
  simp only [pathed, h]

theorem fieldsByPath_eq {m : Json} (h : WellFormedModel m) :
    fieldsByPath m = .ok (fieldDict m) := by
  obtain ⟨kvs, rfl, hnone | ⟨fs, hfs, hfields⟩⟩ := h
  · have hlist : fieldList (.obj kvs) = [] := by rw [fieldList, hnone]
    rw [fieldDict, hlist, fieldsByPath, Json.attrGet, Dict.getD, hnone]
    rfl
  · have hiter : ((Json.arr fs).orElse (.arr [])).iterate = .ok fs := by
      rw [Json.orElse_arr, Json.iterate]
    have hmap : (fs.filterMap fun f =>
        match f with
        | .obj kvs => (Dict.get? kvs "path").map fun path => (path, kvs)
        | _ => none).mapM (fun entry : Json × Dict =>
          match entry.1 with
          | .str path => (.ok (path, entry.2) : Except BuiltinError (String × Dict))
          | _ => .error .typeError) = .ok (fs.filterMap pathed) := by
      clear hfs hiter
      induction fs with
      | nil => rfl
      | cons f fs ih =>
        obtain ⟨d, path, rfl, hpath⟩ := hfields f List.mem_cons_self
        simp only [List.filterMap_cons, hpath, Option.map_some, List.mapM_cons, pathed_obj hpath,
          ih fun f' hf' => hfields f' (List.mem_cons_of_mem _ hf')]
        rfl
    have hlist : fieldList (.obj kvs) = fs.filterMap pathed := by rw [fieldList, hfs]
    simp only [fieldsByPath, Json.attrGet, Dict.getD, hfs, Option.getD_some, except_ok_bind, hiter,
      fieldDict, hlist]
    exact congrArg (fun entries => entries >>= fun es => pure (byPath es)) hmap

theorem Tool.fieldsByPath_eq {m : Json} (h : WellFormedModel m) :
    Tool.fieldsByPath m = .ok (fieldDict m) := by
  obtain ⟨kvs, rfl, hnone | ⟨fs, hfs, hfields⟩⟩ := h
  · have hlist : fieldList (.obj kvs) = [] := by rw [fieldList, hnone]
    rw [fieldDict, hlist, Tool.fieldsByPath, Json.attrGet, Dict.getD, hnone]
    rfl
  · have hmap : fs.mapM (fun f => do
        match ← f.subscript "path", f with
        | .str path, .obj kvs => (.ok (path, kvs) : Except BuiltinError (String × Dict))
        | _, _ => .error .typeError) = .ok (fs.filterMap pathed) := by
      clear hfs
      induction fs with
      | nil => rfl
      | cons f fs ih =>
        obtain ⟨d, path, rfl, hpath⟩ := hfields f List.mem_cons_self
        have hsub : (Json.obj d).subscript "path" = .ok (.str path) := by
          rw [Json.subscript, Dict.item, hpath]
        simp only [List.mapM_cons, hsub, except_ok_bind, List.filterMap_cons, pathed_obj hpath,
          ih fun f' hf' => hfields f' (List.mem_cons_of_mem _ hf')]
        rfl
    have hlist : fieldList (.obj kvs) = fs.filterMap pathed := by rw [fieldList, hfs]
    simp only [Tool.fieldsByPath, Json.attrGet, Dict.getD, hfs, Option.getD_some, except_ok_bind,
      Json.iterate, fieldDict, hlist]
    exact congrArg (fun entries => entries >>= fun es => pure (byPath es)) hmap

/-! ### The report of a model -/

/-- The report of a model: the paths that only one side has, and those on which the two
fields differ. -/
structure Describes (a b : Json) (d : FieldDiff) : Prop where
  added : Lists d.addedFields fun p => fieldAt a p = none ∧ (fieldAt b p).isSome = true
  removed : Lists d.removedFields fun p => (fieldAt a p).isSome = true ∧ fieldAt b p = none
  changed : Lists d.changedFields fun p =>
    ∃ f g, fieldAt a p = some f ∧ fieldAt b p = some g ∧ fieldChanged f g = true

theorem Describes.unique {a b : Json} {d d' : FieldDiff} (h : Describes a b d)
    (h' : Describes a b d') : d = d' := by
  cases d
  cases d'
  rw [FieldDiff.mk.injEq]
  exact ⟨h.added.unique h'.added, h.removed.unique h'.removed, h.changed.unique h'.changed⟩

theorem fieldChanged_comm (f g : Dict) : fieldChanged f g = fieldChanged g f := by
  simp only [fieldChanged, Json.pyEq_comm]

theorem Describes.swap {a b : Json} {d : FieldDiff} (h : Describes a b d) :
    Describes b a ⟨d.removedFields, d.addedFields, d.changedFields⟩ := by
  refine ⟨h.removed.congr fun p => and_comm, h.added.congr fun p => and_comm,
    h.changed.congr fun p => ?_⟩
  constructor
  · rintro ⟨f, g, hf, hg, hfg⟩
    exact ⟨g, f, hg, hf, fieldChanged_comm f g ▸ hfg⟩
  · rintro ⟨g, f, hg, hf, hfg⟩
    exact ⟨f, g, hf, hg, fieldChanged_comm g f ▸ hfg⟩

theorem filterMap_sublist {α β : Type} {g : α → Option β} {h : α → β} {xs : List α}
    (hg : ∀ x y, g x = some y → y = h x) : (xs.filterMap g).Sublist (xs.map h) := by
  induction xs with
  | nil => exact List.Sublist.slnil
  | cons x xs ih =>
    rw [List.map_cons]
    cases hx : g x with
    | none =>
      rw [List.filterMap_cons_none hx]
      exact ih.cons _
    | some y =>
      rw [List.filterMap_cons_some hx, hg x y hx]
      exact ih.cons_cons _

theorem diffFields_describes {a b : Json} (ha : WellFormedModel a) (hb : WellFormedModel b) :
    ∃ d, diffFields a b = .ok d ∧ Describes a b d := by
  have hnot (m : Json) (p : String) :
      ((fieldDict m).all fun f => f.1 ≠ p) = true ↔ fieldAt m p = none := by
    rw [← find?_fieldDict, Option.map_eq_none_iff, List.find?_eq_none, List.all_eq_true]
    simp
  have honly (m m' : Json) : Lists (sortedTexts (((fieldDict m).map (·.1)).filter fun p =>
      (fieldDict m').all fun f => f.1 ≠ p)) fun p =>
        (fieldAt m p).isSome = true ∧ fieldAt m' p = none := by
    refine (lists_sortedTexts ((byPath_nodup _).filter _)).congr fun p => ?_
    rw [List.mem_filter, hnot]
    exact and_congr_left' mem_fieldDict
  rw [diffFields, fieldsByPath_eq ha, fieldsByPath_eq hb]
  refine ⟨_, rfl, (honly b a).congr fun p => and_comm, honly a b, ?_⟩
  refine (lists_sortedTexts ?_).congr fun p => ?_
  · refine (filterMap_sublist ?_).nodup (byPath_nodup (fieldList b))
    intro f p hp
    obtain ⟨f', -, hp⟩ := Option.bind_eq_some_iff.mp hp
    split at hp
    · exact (Option.some.inj hp).symm
    · cases hp
  · rw [List.mem_filterMap]
    constructor
    · rintro ⟨g, hg, hp⟩
      obtain ⟨f, hf, hp⟩ := Option.bind_eq_some_iff.mp hp
      split at hp
      · rename_i hfg
        obtain rfl := Option.some.inj hp
        refine ⟨f.2, g.2, ?_, fieldAt_of_mem hg, hfg⟩
        rw [← find?_fieldDict, hf, Option.map_some]
      · cases hp
    · rintro ⟨f, g, hf, hg, hfg⟩
      rw [← find?_fieldDict, Option.map_eq_some_iff] at hf hg
      obtain ⟨f, hf, rfl⟩ := hf
      obtain ⟨g, hg, rfl⟩ := hg
      have hgp : g.1 = p := by simpa using List.find?_some hg
      refine ⟨g, List.mem_of_find?_eq_some hg, ?_⟩
      rw [hgp, hf, Option.bind_some, if_pos hfg]

namespace Tool

theorem path_of_mem {path : String} {f g : Dict} {c : Change} (h : c ∈ changedAttrs path f g) :
    c.path = path := by
  obtain ⟨attr, -, rfl⟩ := List.mem_map.mp h
  rfl

theorem exists_changedAttrs {path : String} {f g : Dict} :
    (∃ c, c ∈ changedAttrs path f g) ↔ fieldChanged f g = true := by
  simp only [changedAttrs, fieldChanged, List.mem_map, List.mem_filter, List.any_eq_true]
  constructor
  · rintro ⟨c, attr, h, rfl⟩
    exact ⟨attr, h⟩
  · rintro ⟨attr, h⟩
    exact ⟨_, attr, h, rfl⟩

theorem field_eq (m : Json) (path : String) :
    field (fieldDict m) path = (fieldAt m path).getD [] := by
  rw [field, find?_fieldDict]

theorem diffFields_describes {a b : Json} (ha : WellFormedModel a) (hb : WellFormedModel b) :
    ∃ d, diffFields a b = .ok d ∧ Describes a b d.paths := by
  have hnone (m : Json) (p : String) : ¬ (fieldAt m p).isSome = true ↔ fieldAt m p = none := by
    cases fieldAt m p <;> simp
  have honly (m m' : Json) : Lists (sortedTexts (setDiff ((fieldDict m).map (·.1))
      ((fieldDict m').map (·.1)))) fun p =>
        (fieldAt m p).isSome = true ∧ fieldAt m' p = none := by
    refine (lists_sortedTexts (nodup_setDiff _ _)).congr fun p => mem_setDiff.trans ?_
    rw [mem_fieldDict, mem_fieldDict, hnone]
  have hboth : Lists (sortedTexts (setInter ((fieldDict a).map (·.1)) ((fieldDict b).map (·.1))))
      fun p => (fieldAt a p).isSome = true ∧ (fieldAt b p).isSome = true := by
    refine (lists_sortedTexts (nodup_setInter _ _)).congr fun p => mem_setInter.trans ?_
    rw [mem_fieldDict, mem_fieldDict]
  rw [diffFields, Tool.fieldsByPath_eq ha, Tool.fieldsByPath_eq hb]
  refine ⟨_, rfl, (honly b a).congr fun p => and_comm, honly a b, ?_, fun p => ?_⟩
  · -- the changes stand in the order of the paths
    rw [FieldDiff.paths]
    have hle : (((sortedTexts (setInter ((fieldDict a).map (·.1)) ((fieldDict b).map (·.1)))).flatMap
        fun p => changedAttrs p (field (fieldDict a) p) (field (fieldDict b) p)).map
          (·.path)).Pairwise (· ≤ ·) := by
      rw [List.pairwise_map, List.pairwise_flatMap]
      constructor
      · intro p _
        refine List.pairwise_of_forall_mem_list fun c hc c' hc' => ?_
        rw [path_of_mem hc, path_of_mem hc']
      · refine hboth.1.imp fun hlt c hc c' hc' => ?_
        rw [path_of_mem hc, path_of_mem hc']
        exact le_of_lt hlt
    exact ((hle.sublist (List.dedup_sublist _)).and (List.nodup_dedup _)).imp fun h =>
      lt_of_le_of_ne h.1 h.2
  · rw [FieldDiff.paths, List.mem_dedup, List.mem_map]
    constructor
    · rintro ⟨c, hc, rfl⟩
      obtain ⟨p, hp, hc⟩ := List.mem_flatMap.mp hc
      obtain ⟨hf, hg⟩ := (hboth.2 p).mp hp
      obtain ⟨f, hf⟩ := Option.isSome_iff_exists.mp hf
      obtain ⟨g, hg⟩ := Option.isSome_iff_exists.mp hg
      rw [field_eq, field_eq, hf, hg] at hc
      rw [path_of_mem hc]
      exact ⟨f, g, hf, hg, exists_changedAttrs.1 ⟨c, hc⟩⟩
    · rintro ⟨f, g, hf, hg, hfg⟩
      obtain ⟨c, hc⟩ := exists_changedAttrs.2 hfg
      refine ⟨c, List.mem_flatMap.mpr ⟨p, (hboth.2 p).mpr ?_, ?_⟩, path_of_mem hc⟩
      · exact ⟨Option.isSome_of_eq_some hf, Option.isSome_of_eq_some hg⟩
      · rw [field_eq, field_eq, hf, hg]
        exact hc

end Tool

/-! ### The report of two catalogs -/

/-- The report of two catalogs: the models that only one side has, and those of both sides
whose reports are not empty. -/
structure IsReport (a b : Catalog) (r : CatalogChanges) : Prop where
  added : Lists r.addedModels fun k => k ∉ a.models.keys ∧ k ∈ b.models.keys
  removed : Lists r.removedModels fun k => k ∈ a.models.keys ∧ k ∉ b.models.keys
  models : ∀ mid d, (mid, d) ∈ r.models ↔
    ∃ old new, Dict.get? a.models mid = some old ∧ Dict.get? b.models mid = some new ∧
      Describes old new d ∧ d ≠ ⟨[], [], []⟩

theorem mapM_mem {α β : Type} {f : α → Except BuiltinError β} {as : List α}
    (h : ∀ a ∈ as, ∃ b, f a = .ok b) :
    ∃ bs, as.mapM f = .ok bs ∧ ∀ b, b ∈ bs ↔ ∃ a ∈ as, f a = .ok b := by
  induction as with
  | nil => exact ⟨[], rfl, by simp⟩
  | cons a as ih =>
    obtain ⟨b, hb⟩ := h a List.mem_cons_self
    obtain ⟨bs, hbs, hmem⟩ := ih fun a' ha' => h a' (List.mem_cons_of_mem a ha')
    refine ⟨b :: bs, by rw [List.mapM_cons, hb, hbs]; rfl, fun b' => ?_⟩
    rw [List.mem_cons, hmem, List.exists_mem_cons_iff, hb, Except.ok.injEq, eq_comm]

theorem Catalog.wellFormed_get {c : Catalog} {k : String} {m : Json}
    (h : Dict.get? c.models k = some m) : WellFormedModel m :=
  c.wellFormed _ (Dict.mem_of_get? h)

theorem FieldDiff.ne_empty_iff (d : FieldDiff) :
    (d.addedFields ≠ [] || d.removedFields ≠ [] || d.changedFields ≠ []) = true ↔
      d ≠ ⟨[], [], []⟩ := by
  cases d
  simp only [ne_eq, FieldDiff.mk.injEq, Bool.or_eq_true, decide_eq_true_eq]
  tauto

theorem diffCatalogs_isReport (a b : Catalog) :
    ∃ r, diffCatalogs (.obj a.content) (.obj b.content) = .ok r ∧ IsReport a b r := by
  have hmodels (c : Catalog) : modelsOf (.obj c.content) = .ok c.models := by
    rw [modelsOf, Json.attrGet, Dict.getD]
    rcases c.content_models with h | ⟨h, hnil⟩
    · rw [h, Option.getD_some, except_ok_bind]
      cases c.models <;> rfl
    · rw [h, hnil]
      rfl
  have honly (c c' : Catalog) : Lists (sortedTexts (c.models.keys.filter fun k =>
      (Dict.get? c'.models k).isNone)) fun k => k ∈ c.models.keys ∧ k ∉ c'.models.keys := by
    refine (lists_sortedTexts (c.nodup.filter _)).congr fun k => ?_
    rw [List.mem_filter, Dict.mem_keys (d := c'.models), Option.isNone_iff_eq_none,
      Option.not_isSome_iff_eq_none]
  have hdiff : ∀ m ∈ b.models.filterMap fun m =>
      (Dict.get? a.models m.1).map fun old => (m.1, old, m.2), ∃ d,
        (do return (m.1, ← diffFields m.2.1 m.2.2) : Except BuiltinError _) = .ok d := by
    intro both hboth
    obtain ⟨m, hm, h⟩ := List.mem_filterMap.mp hboth
    obtain ⟨old, hold, rfl⟩ := Option.map_eq_some_iff.mp h
    obtain ⟨d, hd, -⟩ := diffFields_describes (a.wellFormed_get hold) (b.wellFormed m hm)
    exact ⟨(m.1, d), by rw [hd]; rfl⟩
  obtain ⟨both, hboth, hmem⟩ := mapM_mem hdiff
  rw [diffCatalogs, hmodels, hmodels, except_ok_bind, except_ok_bind, hboth]
  refine ⟨_, rfl, (honly b a).congr fun k => and_comm, honly a b, fun mid d => ?_⟩
  · rw [List.mem_filter, FieldDiff.ne_empty_iff, hmem]
    constructor
    · rintro ⟨⟨both', hboth', h⟩, hne⟩
      obtain ⟨m, hm, h'⟩ := List.mem_filterMap.mp hboth'
      obtain ⟨old, hold, rfl⟩ := Option.map_eq_some_iff.mp h'
      obtain ⟨d', hd', hdesc⟩ := diffFields_describes (a.wellFormed_get hold) (b.wellFormed m hm)
      rw [hd'] at h
      obtain ⟨rfl, rfl⟩ := Prod.mk.inj (Except.ok.inj h)
      exact ⟨old, m.2, hold, Dict.get?_of_mem b.nodup hm, hdesc, hne⟩
    · rintro ⟨old, new, hold, hnew, hdesc, hne⟩
      obtain ⟨d', hd', hdesc'⟩ := diffFields_describes (a.wellFormed_get hold)
        (b.wellFormed_get hnew)
      obtain rfl := hdesc.unique hdesc'
      refine ⟨⟨(mid, old, new), List.mem_filterMap.mpr ⟨(mid, new), Dict.mem_of_get? hnew, ?_⟩, ?_⟩,
        hne⟩
      · rw [hold, Option.map_some]
      · rw [hd']
        rfl

theorem FieldDiff.paths_eq_empty (d : Tool.FieldDiff) :
    (d.addedFields ≠ [] || d.removedFields ≠ [] || d.changedFields ≠ []) = true ↔
      d.paths ≠ ⟨[], [], []⟩ := by
  rw [← FieldDiff.ne_empty_iff, Tool.FieldDiff.paths]
  simp only [Bool.or_eq_true, decide_eq_true_eq, ne_eq, List.dedup_eq_nil, List.map_eq_nil_iff]

theorem Tool.diffCatalogs_isReport (a b : Catalog) :
    ∃ r, Tool.diffCatalogs (.obj a.content) (.obj b.content) = .ok r ∧ IsReport a b r.paths := by
  have hmodels (c : Catalog) :
      (Json.obj c.content).attrGet "models" (.obj []) = .ok (.obj c.models) := by
    rw [Json.attrGet, Dict.getD]
    rcases c.content_models with h | ⟨h, hnil⟩
    · rw [h, Option.getD_some]
    · rw [h, hnil]
      rfl
  have hkeys (c : Catalog) : keySet (.obj c.models) = .ok c.models.keys := by
    rw [keySet, Json.iterate, except_ok_bind]
    generalize c.models.keys = ks
    induction ks with
    | nil => rfl
    | cons k ks ih =>
      rw [List.map_cons, List.mapM_cons, ih]
      rfl
  have hsub (c : Catalog) {k : String} {m : Json} (h : Dict.get? c.models k = some m) :
      (Json.obj c.models).subscript k = .ok m := by
    rw [Json.subscript, Dict.item, h]
  -- the turn of a common model describes its two versions
  have hturn {mid : String} {old new : Json} (hold : Dict.get? a.models mid = some old)
      (hnew : Dict.get? b.models mid = some new) : ∃ d, Describes old new d.paths ∧
        (do return (mid, ← diffFields (← (Json.obj a.models).subscript mid)
          (← (Json.obj b.models).subscript mid)) : Except BuiltinError _) = .ok (mid, d) := by
    obtain ⟨d, hd, hdesc⟩ := Tool.diffFields_describes (a.wellFormed_get hold)
      (b.wellFormed_get hnew)
    refine ⟨d, hdesc, ?_⟩
    rw [hsub a hold, hsub b hnew, except_ok_bind, except_ok_bind, hd]
    rfl
  have hin {mid : String} : mid ∈ sortedTexts (setInter a.models.keys b.models.keys) ↔
      ∃ old new, Dict.get? a.models mid = some old ∧ Dict.get? b.models mid = some new := by
    rw [mem_sortedTexts, mem_setInter, Dict.mem_keys, Dict.mem_keys, Option.isSome_iff_exists,
      Option.isSome_iff_exists, exists_and_exists_comm]
  obtain ⟨both, hboth, hmem⟩ := mapM_mem (f := fun mid => (do
      return (mid, ← diffFields (← (Json.obj a.models).subscript mid)
        (← (Json.obj b.models).subscript mid)) : Except BuiltinError _)) fun mid hmid => by
    obtain ⟨old, new, hold, hnew⟩ := hin.mp hmid
    obtain ⟨d, -, hd⟩ := hturn hold hnew
    exact ⟨(mid, d), hd⟩
  rw [diffCatalogs, hmodels, hmodels, except_ok_bind, except_ok_bind, hkeys, hkeys,
    except_ok_bind, except_ok_bind, hboth]
  refine ⟨_, rfl, ?_, ?_, fun mid d => ?_⟩
  · exact (lists_sortedTexts (nodup_setDiff _ _)).congr fun k => mem_setDiff.trans and_comm
  · exact (lists_sortedTexts (nodup_setDiff _ _)).congr fun k => mem_setDiff
  · -- a model is listed as changed exactly if its fields differ
    rw [CatalogChanges.paths, List.mem_map]
    constructor
    · rintro ⟨⟨mid', td⟩, htd, h⟩
      obtain ⟨rfl, rfl⟩ := Prod.mk.inj h
      obtain ⟨htd, hne⟩ := List.mem_filter.mp htd
      obtain ⟨mid, hmid, h⟩ := (hmem _).mp htd
      obtain ⟨old, new, hold, hnew⟩ := hin.mp hmid
      obtain ⟨td', hdesc, h'⟩ := hturn hold hnew
      obtain ⟨rfl, rfl⟩ := Prod.mk.inj (Except.ok.inj (h.symm.trans h'))
      exact ⟨old, new, hold, hnew, hdesc, (FieldDiff.paths_eq_empty _).mp hne⟩
    · rintro ⟨old, new, hold, hnew, hdesc, hne⟩
      obtain ⟨td, hdesc', h⟩ := hturn hold hnew
      obtain rfl := hdesc.unique hdesc'
      exact ⟨(mid, td), List.mem_filter.mpr ⟨(hmem _).mpr ⟨mid, hin.mpr ⟨old, new, hold, hnew⟩, h⟩,
        (FieldDiff.paths_eq_empty _).mpr hne⟩, rfl⟩

/-! ### The differs agree -/

/-- Two reports say the same. -/
def Agree (r r' : CatalogChanges) : Prop :=
  r.addedModels = r'.addedModels ∧ r.removedModels = r'.removedModels ∧
    ∀ m, m ∈ r.models ↔ m ∈ r'.models

/-- The second report is the first one with added and removed swapped. -/
def Swapped (r r' : CatalogChanges) : Prop :=
  r'.addedModels = r.removedModels ∧ r'.removedModels = r.addedModels ∧
    ∀ mid d, (mid, d) ∈ r'.models ↔
      (mid, ⟨d.removedFields, d.addedFields, d.changedFields⟩) ∈ r.models

/-- The models of both sides that are not reported are those whose fields agree. -/
def UnreportedIff (a b : Catalog) (r : CatalogChanges) : Prop :=
  ∀ mid old new, Dict.get? a.models mid = some old → Dict.get? b.models mid = some new →
    (mid ∉ r.models.map (·.1) ↔ SameFields old new)

theorem IsReport.agree {a b : Catalog} {r r' : CatalogChanges} (h : IsReport a b r)
    (h' : IsReport a b r') : Agree r r' :=
  ⟨h.added.unique h'.added, h.removed.unique h'.removed, fun m =>
    (h.models m.1 m.2).trans (h'.models m.1 m.2).symm⟩

theorem IsReport.swapped {a b : Catalog} {r r' : CatalogChanges} (h : IsReport a b r)
    (h' : IsReport b a r') : Swapped r r' := by
  refine ⟨h'.added.unique (h.removed.congr fun k => and_comm),
    h'.removed.unique (h.added.congr fun k => and_comm), fun mid d => ?_⟩
  rw [h'.models, h.models]
  have hne : d ≠ ⟨[], [], []⟩ ↔
      (⟨d.removedFields, d.addedFields, d.changedFields⟩ : FieldDiff) ≠ ⟨[], [], []⟩ := by
    cases d
    simp only [ne_eq, FieldDiff.mk.injEq]
    tauto
  constructor
  · rintro ⟨new, old, hnew, hold, hdesc, hd⟩
    exact ⟨old, new, hold, hnew, hdesc.swap, hne.mp hd⟩
  · rintro ⟨old, new, hold, hnew, hdesc, hd⟩
    exact ⟨new, old, hnew, hold, hdesc.swap, hne.mpr hd⟩

theorem Describes.empty_iff {a b : Json} {d : FieldDiff} (h : Describes a b d) :
    d = ⟨[], [], []⟩ ↔ SameFields a b := by
  have hchanged (f g : Dict) : (∀ attr ∈ ["type", "required", "default", "options"],
      (Dict.getD f attr .null).pyEq (Dict.getD g attr .null) = true) ↔
        ¬ fieldChanged f g = true := by
    rw [fieldChanged, Bool.not_eq_true, List.any_eq_false]
    simp
  have hd : d = ⟨[], [], []⟩ ↔ ∀ p, p ∉ d.addedFields ∧ p ∉ d.removedFields ∧
      p ∉ d.changedFields := by
    cases d
    simp only [FieldDiff.mk.injEq, List.eq_nil_iff_forall_not_mem, forall_and]
  rw [hd]
  apply forall_congr'
  intro p
  simp only [h.added.2, h.removed.2, h.changed.2]
  cases hf : fieldAt a p with
  | none => cases hg : fieldAt b p <;> simp
  | some f =>
    cases hg : fieldAt b p with
    | none => simp
    | some g =>
      rw [Option.rel_some_some, hchanged]
      simp

theorem IsReport.unreportedIff {a b : Catalog} {r : CatalogChanges} (h : IsReport a b r) :
    UnreportedIff a b r := by
  intro mid old new hold hnew
  obtain ⟨d, -, hdesc⟩ := diffFields_describes (a.wellFormed_get hold) (b.wellFormed_get hnew)
  rw [← hdesc.empty_iff, ← not_ne_iff, not_iff_not, List.mem_map]
  constructor
  · rintro ⟨⟨mid', d'⟩, hd', rfl⟩
    obtain ⟨old', new', hold', hnew', hdesc', hne⟩ := (h.models _ _).mp hd'
    obtain rfl := Option.some.inj (hold.symm.trans hold')
    obtain rfl := Option.some.inj (hnew.symm.trans hnew')
    exact hdesc.unique hdesc' ▸ hne
  · intro hne
    exact ⟨(mid, d), (h.models _ _).mpr ⟨old, new, hold, hnew, hdesc, hne⟩, rfl⟩

/-- **The two differs agree**: on the models and, model by model, on the paths.  With the
catalogs swapped, each reports added as removed and the same changes; and a model of both
catalogs is not reported exactly if its fields agree path by path. -/
theorem differs_agree (a b : Catalog) :
    ∃ r r' t t',
      diffCatalogs (.obj a.content) (.obj b.content) = .ok r ∧
      diffCatalogs (.obj b.content) (.obj a.content) = .ok r' ∧
      Tool.diffCatalogs (.obj a.content) (.obj b.content) = .ok t ∧
      Tool.diffCatalogs (.obj b.content) (.obj a.content) = .ok t' ∧
      Agree r t.paths ∧ Swapped r r' ∧ Swapped t.paths t'.paths ∧
      UnreportedIff a b r ∧ UnreportedIff a b t.paths := by
  obtain ⟨r, hr, hreport⟩ := diffCatalogs_isReport a b
  obtain ⟨r', hr', hreport'⟩ := diffCatalogs_isReport b a
  obtain ⟨t, ht, htool⟩ := Tool.diffCatalogs_isReport a b
  obtain ⟨t', ht', htool'⟩ := Tool.diffCatalogs_isReport b a
  exact ⟨r, r', t, t', hr, hr', ht, ht', hreport.agree htool, hreport.swapped hreport',
    htool.swapped htool', hreport.unreportedIff, htool.unreportedIff⟩

end CatalogProvider

end Opngms
