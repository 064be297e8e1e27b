/-
Opngms/CatalogDiff.lean

The diff of a device's catalog and a baseline (`read_catalog_diff` of api/catalog.py,
services/catalog_versions.py).

The baseline is named by a published Community version, or by the caller's text, and
fetched by `get_catalog` with the device's own edition, which maps and floors the version
once more.  The answer compares what it names exactly if the baseline was found under
`community/<from>` (**`diff_names`**); for a Business device it is found under another
version (`business_diff_misnamed`).
-/
import Mathlib.Data.List.Sort
import Opngms.CatalogOffline

namespace Opngms

namespace CatalogProvider

theorem mapM_ok {α β : Type} {f : α → Except BuiltinError β} {g : α → β} {as : List α}
    (h : ∀ a ∈ as, f a = .ok (g a)) : as.mapM f = .ok (as.map g) := by
  induction as with
  | nil => rfl
  | cons a as ih =>
    rw [List.mapM_cons, h a List.mem_cons_self, ih fun a' ha' => h a' (List.mem_cons_of_mem a ha')]
    rfl

/-! ### Two catalogs -/

/-- `(catalog.get("models", {}) or {})`, which must be a `dict`. -/
def modelsOf (catalog : Json) : Except BuiltinError Dict := do
  let models ← catalog.attrGet "models" (.obj [])
  (models.orElse (.obj [])).items

/-- `_fields_by_path`; a path is a text. -/
def fieldsByPath (model : Json) : Except BuiltinError (List (String × Dict)) := do
  let fields ← model.attrGet "fields" .null
  let entries ← ((← (fields.orElse (.arr [])).iterate).filterMap fun f =>
    match f with
    | .obj kvs => (Dict.get? kvs "path").map fun path => (path, kvs)
    | _ => none).mapM fun entry =>
      match entry.1 with
      | .str path => .ok (path, entry.2)
      | _ => .error .typeError
  return entries.foldl (fun (out : List (String × Dict)) (entry : String × Dict) =>
    out.filter (·.1 ≠ entry.1) ++ [entry]) []

/-- `_field_changed`. -/
def fieldChanged (a b : Dict) : Bool :=
  ["type", "required", "default", "options"].any fun k =>
    !(Dict.getD a k .null).pyEq (Dict.getD b k .null)

/-- The difference of one model. -/
structure FieldDiff where
  addedFields : List String
  removedFields : List String
  changedFields : List String
  deriving DecidableEq

/-- The answer of `diff_catalogs`. -/
structure CatalogChanges where
  addedModels : List String
  removedModels : List String
  models : List (String × FieldDiff)
  deriving DecidableEq

/-- `sorted` of texts. -/
def sortedTexts (xs : List String) : List String := xs.insertionSort (· ≤ ·)

/-- The difference of the fields of one model. -/
def diffFields (a b : Json) : Except BuiltinError FieldDiff := do
  let fa ← fieldsByPath a
  let fb ← fieldsByPath b
  return {
    addedFields := sortedTexts ((fb.map (·.1)).filter fun p => fa.all fun f => f.1 ≠ p)
    removedFields := sortedTexts ((fa.map (·.1)).filter fun p => fb.all fun f => f.1 ≠ p)
    changedFields := sortedTexts (fb.filterMap fun f =>
      (fa.find? fun f' => f'.1 == f.1).bind fun f' =>
        if fieldChanged f'.2 f.2 then some f.1 else none) }

/-- `diff_catalogs`. -/
def diffCatalogs (a b : Json) : Except BuiltinError CatalogChanges := do
  let ma ← modelsOf a
  let mb ← modelsOf b
  let both ← (mb.filterMap fun m => (Dict.get? ma m.1).map fun old => (m.1, old, m.2)).mapM
    fun m => do return (m.1, ← diffFields m.2.1 m.2.2)
  return {
    addedModels := sortedTexts (mb.keys.filter fun k => (Dict.get? ma k).isNone)
    removedModels := sortedTexts (ma.keys.filter fun k => (Dict.get? mb k).isNone)
    models := both.filter fun m =>
      m.2.addedFields ≠ [] || m.2.removedFields ≠ [] || m.2.changedFields ≠ [] }

/-! ### The endpoint -/

section Endpoint

variable {Bytes : Type} (lib : Library Bytes)

/-- `published_versions`, without a cache: an exception that is caught gives none. -/
def publishedVersions (c : Call Bytes) : Except Failure (List Json) :=
  match c.fetchJson lib "manifest.json" with
  | .error e => if e.caught then .ok [] else .error e
  | .ok manifest => do
    let versions ← (communityVersions manifest).mapError .builtin
    let keys ← (keyed versions).mapError .builtin
    return (keys.insertionSort fun a b => a.2 ≤ b.2).map (·.1)

/-- A request for the diff of a device, with the release server as the two calls of
`get_catalog` and the list of versions between them find it. -/
structure DiffRequest (Bytes : Type) where
  edition : String
  firmwareVersion : String
  fromVersion : Option String
  baseUrl : String
  autoFetch : Bool
  server : String → Option Bytes
  listServer : String → Option Bytes
  fromServer : String → Option Bytes

namespace DiffRequest

variable (r : DiffRequest Bytes)

def toCall : Call Bytes := ⟨r.edition, r.firmwareVersion, r.baseUrl, r.autoFetch, r.server⟩

def listCall : Call Bytes := ⟨r.edition, r.firmwareVersion, r.baseUrl, r.autoFetch, r.listServer⟩

def fromCall (chosen : String) : Call Bytes :=
  ⟨r.edition, chosen, r.baseUrl, r.autoFetch, r.fromServer⟩

end DiffRequest

/-- The body of the response. -/
structure DiffAnswer where
  from_ : Option String
  upTo : Json
  availableBaselines : List Json
  diff : CatalogChanges
  deriving DecidableEq

/-- Why there is no response: the status 404, or an exception. -/
inductive DiffError where
  | notFound
  | raised (e : Failure)
  deriving DecidableEq

/-- The baselines below a version. -/
def baselinesBelow (versions : List Json) (version : Json) : Except BuiltinError (List Json) := do
  let keep ← versions.mapM fun v => do
    let key ← parseVersion v
    return (v, decide (key < (← parseVersion version)))
  return (keep.filter (·.2)).map (·.1)

/-- `from_version or previous_version(versions, dev_ver)`. -/
def chosenBaseline (fromVersion : Option String) (versions : List Json) (devVer : Json) :
    Except BuiltinError Json :=
  if (fromVersion.getD "") ≠ "" then .ok (.str (fromVersion.getD ""))
  else do return (← previousVersion versions devVer).getD .null

def noBaseline (devVer : Json) (baselines : List Json) : DiffAnswer :=
  ⟨none, devVer, baselines, ⟨[], [], []⟩⟩

/-- `read_catalog_diff` of a device that the tenant has. -/
def readCatalogDiff (r : DiffRequest Bytes) (cache : List CatalogCache) :
    Except DiffError DiffAnswer := do
  let first := getCatalog lib r.toCall cache
  let toCatalog ← first.result.mapError .raised
  if toCatalog = .null then .error .notFound
  else
    let builtin {α : Type} (x : Except BuiltinError α) : Except DiffError α :=
      x.mapError fun e => .raised (.builtin e)
    let devVer ← builtin (toCatalog.attrGet "version" (.str ""))
    let versions ← (publishedVersions lib r.listCall).mapError .raised
    let baselines ← builtin (baselinesBelow versions devVer)
    let chosen ← builtin (chosenBaseline r.fromVersion versions devVer)
    if !chosen.truthy || chosen.pyEq devVer then return noBaseline devVer baselines
    else
      let fromCatalog ←
        (getCatalog lib (r.fromCall chosen.pyStr) first.cache).result.mapError .raised
      if fromCatalog = .null then return noBaseline devVer baselines
      else
        let diff ← builtin (diffCatalogs fromCatalog toCatalog)
        return ⟨some chosen.pyStr, devVer, baselines, diff⟩

/-! ### The baseline and its name -/

variable {lib} {r : DiffRequest Bytes} {cache : List CatalogCache}

theorem readCatalogDiff_cases {out : DiffAnswer} {v : String}
    (h : readCatalogDiff lib r cache = .ok out) (hfrom : out.from_ = some v) :
    ∃ toCatalog fromCatalog versions chosen,
      (getCatalog lib r.toCall cache).result = .ok toCatalog ∧
      toCatalog.attrGet "version" (.str "") = .ok out.upTo ∧
      publishedVersions lib r.listCall = .ok versions ∧
      chosenBaseline r.fromVersion versions out.upTo = .ok chosen ∧ v = chosen.pyStr ∧
      chosen.truthy = true ∧
      (getCatalog lib (r.fromCall v) (getCatalog lib r.toCall cache).cache).result =
        .ok fromCatalog ∧ fromCatalog ≠ .null ∧
      diffCatalogs fromCatalog toCatalog = .ok out.diff := by
  obtain ⟨toCatalog, hto, h⟩ := except_bind_ok h
  split at h
  · cases h
  · obtain ⟨devVer, hdevVer, h⟩ := except_bind_ok h
    obtain ⟨versions, hversions, h⟩ := except_bind_ok h
    obtain ⟨baselines, -, h⟩ := except_bind_ok h
    obtain ⟨chosen, hchosen, h⟩ := except_bind_ok h
    split at h
    · obtain rfl := Except.ok.inj h
      cases hfrom
    · rename_i hnot
      obtain ⟨fromCatalog, hfromCatalog, h⟩ := except_bind_ok h
      split at h
      · obtain rfl := Except.ok.inj h
        cases hfrom
      · rename_i hne
        obtain ⟨diff, hdiff, h⟩ := except_bind_ok h
        obtain rfl := Except.ok.inj h
        obtain rfl := Option.some.inj hfrom
        have htruthy : chosen.truthy = true := by
          by_contra hfalse
          exact hnot (by simp [hfalse])
        exact ⟨toCatalog, fromCatalog, versions, chosen, mapError_ok hto, mapError_ok hdevVer,
          mapError_ok hversions, mapError_ok hchosen, rfl, htruthy, mapError_ok hfromCatalog, hne,
          mapError_ok hdiff⟩

theorem highest_spec {vs : List (Json × List Nat)} {m : Json × List Nat}
    (h : highest vs = some m) : m ∈ vs ∧ ∀ w ∈ vs, ¬ m.2 < w.2 := by
  have hfold (vs : List (Json × List Nat)) (best : Json × List Nat) :
      let m := vs.foldl (fun best w => if best.2 < w.2 then w else best) best
      m ∈ best :: vs ∧ ∀ w ∈ best :: vs, w.2 ≤ m.2 := by
    induction vs generalizing best with
    | nil =>
      refine ⟨List.mem_cons_self, fun w hw => ?_⟩
      obtain rfl := List.mem_singleton.mp hw
      exact le_refl _
    | cons v vs ih =>
      obtain ⟨hmem, hle⟩ := ih (if best.2 < v.2 then v else best)
      have hbest : best.2 ≤ (if best.2 < v.2 then v else best).2 := by
        split
        · rename_i hlt
          exact le_of_lt hlt
        · exact le_refl _
      have hv : v.2 ≤ (if best.2 < v.2 then v else best).2 := by
        split
        · exact le_refl _
        · rename_i hnot
          exact not_lt.mp hnot
      refine ⟨?_, fun w hw => ?_⟩
      · rcases List.mem_cons.mp hmem with heq | hmem
        · rw [List.foldl_cons, heq]
          split
          · exact List.mem_cons_of_mem _ List.mem_cons_self
          · exact List.mem_cons_self
        · exact List.mem_cons_of_mem _ (List.mem_cons_of_mem _ hmem)
      · have hthis := hle _ List.mem_cons_self
        rcases List.mem_cons.mp hw with rfl | hw
        · exact hbest.trans hthis
        · rcases List.mem_cons.mp hw with rfl | hw
          · exact hv.trans hthis
          · exact hle w (List.mem_cons_of_mem _ hw)
  cases vs with
  | nil => cases h
  | cons v vs =>
    obtain rfl := Option.some.inj h
    obtain ⟨hmem, hle⟩ := hfold vs v
    exact ⟨hmem, fun w hw => not_lt.mpr (hle w hw)⟩

theorem mem_keyed {versions : List Json} {keys : List (Json × List Nat)}
    (h : keyed versions = .ok keys) (w : Json) (key : List Nat) :
    (w, key) ∈ keys ↔ w ∈ versions ∧ parseVersion w = .ok key := by
  induction versions generalizing keys with
  | nil =>
    obtain rfl := Except.ok.inj h
    simp
  | cons v versions ih =>
    rw [keyed, List.mapM_cons] at h
    obtain ⟨pair, hpair, h⟩ := except_bind_ok h
    obtain ⟨rest, hrest, h⟩ := except_bind_ok h
    obtain ⟨key', hkey', hpair⟩ := except_bind_ok hpair
    obtain rfl := Except.ok.inj hpair
    obtain rfl := Except.ok.inj h
    rw [List.mem_cons, List.mem_cons, ih hrest, or_and_right, Prod.mk.injEq]
    apply or_congr_left
    constructor
    · rintro ⟨rfl, rfl⟩
      exact ⟨rfl, hkey'⟩
    · rintro ⟨rfl, hkey⟩
      exact ⟨rfl, Except.ok.inj (hkey.symm.trans hkey')⟩

theorem exists_key {versions : List Json} {keys : List (Json × List Nat)}
    (h : keyed versions = .ok keys) {w : Json} (hw : w ∈ versions) :
    ∃ key, parseVersion w = .ok key := by
  induction versions generalizing keys with
  | nil => cases hw
  | cons v versions ih =>
    rw [keyed, List.mapM_cons] at h
    obtain ⟨pair, hpair, h⟩ := except_bind_ok h
    obtain ⟨rest, hrest, -⟩ := except_bind_ok h
    obtain ⟨key, hkey, -⟩ := except_bind_ok hpair
    rcases List.mem_cons.mp hw with rfl | hw
    · exact ⟨key, hkey⟩
    · exact ih hrest hw

theorem previousVersion_spec {versions : List Json} {version u : Json}
    (h : previousVersion versions version = .ok (some u)) :
    ∃ key target, u ∈ versions ∧ parseVersion u = .ok key ∧ parseVersion version = .ok target ∧
      key < target ∧
      ∀ w ∈ versions, ∀ key', parseVersion w = .ok key' → key' < target → ¬ key < key' := by
  obtain ⟨target, htarget, h⟩ := except_bind_ok h
  obtain ⟨keys, hkeys, h⟩ := except_bind_ok h
  obtain ⟨m, hm, rfl⟩ := Option.map_eq_some_iff.mp (Except.ok.inj h)
  obtain ⟨hmem, hmax⟩ := highest_spec hm
  obtain ⟨hmem, hlt⟩ := List.mem_filter.mp hmem
  obtain ⟨hversion, hkey⟩ := (mem_keyed hkeys m.1 m.2).mp hmem
  refine ⟨m.2, target, hversion, hkey, htarget, of_decide_eq_true hlt, ?_⟩
  intro w hw key' hkey' hlt'
  exact hmax (w, key') (List.mem_filter.mpr
    ⟨(mem_keyed hkeys w key').mpr ⟨hw, hkey'⟩, decide_eq_true hlt'⟩)

theorem mem_publishedVersions {c : Call Bytes} {versions : List Json}
    (h : publishedVersions lib c = .ok versions) {w : Json} (hw : w ∈ versions) :
    ∃ manifest listed, c.fetchJson lib "manifest.json" = .ok manifest ∧
      communityVersions manifest = .ok listed ∧ ∀ w, w ∈ versions ↔ w ∈ listed := by
  rw [publishedVersions] at h
  split at h
  · split at h
    · obtain rfl := Except.ok.inj h
      cases hw
    · cases h
  · rename_i manifest hmanifest
    obtain ⟨listed, hlisted, h⟩ := except_bind_ok h
    obtain ⟨keys, hkeys, h⟩ := except_bind_ok h
    obtain rfl := Except.ok.inj h
    refine ⟨manifest, listed, hmanifest, mapError_ok hlisted, fun w => ?_⟩
    rw [List.mem_map]
    constructor
    · rintro ⟨pair, hpair, rfl⟩
      exact ((mem_keyed (mapError_ok hkeys) pair.1 pair.2).mp
        ((List.perm_insertionSort _ _).mem_iff.mp hpair)).1
    · intro hw
      obtain ⟨key, hkey⟩ := exists_key (mapError_ok hkeys) hw
      refine ⟨(w, key), (List.perm_insertionSort _ _).mem_iff.mpr ?_, rfl⟩
      exact (mem_keyed (mapError_ok hkeys) w key).mpr ⟨hw, hkey⟩

def DiffRequest.after (r : DiffRequest Bytes) (v : String) (es : List (Event Bytes)) :
    List (Event Bytes) :=
  es ++ [.core r.toCall] ++ [.core (r.fromCall v)]

/-- What a call of the history read as the catalog of an identity, or what the column gives
back of that. -/
def PublishedAs (lib : Library Bytes) (es : List (Event Bytes)) (id : String × String)
    (content : Json) : Prop :=
  ∃ e ∈ es, ∃ c read, e.call? = some c ∧ Read lib c id.1 id.2 read ∧
    (read = content ∨ lib.stored read = some content)

/-- The diff is that of the catalog published under `community/<v>` and the catalog served
to the device, which says that its version is `to`. -/
def ComparesNamed (lib : Library Bytes) (es : List (Event Bytes)) (r : DiffRequest Bytes)
    (out : DiffAnswer) (v : String) : Prop :=
  ∃ content toCatalog, PublishedAs lib (r.after v es) ("community", v) content ∧
    (getCatalog lib r.toCall (history lib es).current).result = .ok toCatalog ∧
    toCatalog.attrGet "version" (.str "") = .ok out.upTo ∧
    diffCatalogs content toCatalog = .ok out.diff

/-- The rows that the call for the baseline starts from. -/
def DiffRequest.rows (lib : Library Bytes) (r : DiffRequest Bytes) (es : List (Event Bytes)) :
    List CatalogCache :=
  (getCatalog lib r.toCall (history lib es).current).cache

/-- The baseline is found under the identity that the answer names: it resolves to itself and
is available, or, for a Community device, it resolves to nothing that is. -/
def FoundAsNamed (lib : Library Bytes) (es : List (Event Bytes)) (r : DiffRequest Bytes)
    (v : String) : Prop :=
  (∃ manifest, CoreTarget lib (r.fromCall v) manifest ("community", v) ∧
    Available lib (r.fromCall v) (r.rows lib es) manifest "community" v) ∨
  editionOf r.edition = "community" ∧ ∀ manifest t, CoreTarget lib (r.fromCall v) manifest t →
    ¬ Available lib (r.fromCall v) (r.rows lib es) manifest t.1 t.2

/-- Catalogs of different identities differ, and differently from the device's. -/
def Distinguished (lib : Library Bytes) (es : List (Event Bytes)) (r : DiffRequest Bytes)
    (v : String) : Prop :=
  ∀ id id' content content' toCatalog, PublishedAs lib (r.after v es) id content →
    PublishedAs lib (r.after v es) id' content' →
    (getCatalog lib r.toCall (history lib es).current).result = .ok toCatalog → id ≠ id' →
    diffCatalogs content toCatalog ≠ diffCatalogs content' toCatalog

/-- The highest of the published Community versions that are below another one. -/
def HighestBelow (lib : Library Bytes) (r : DiffRequest Bytes) (v : String) (upTo : Json) : Prop :=
  ∃ manifest versions key target, r.listCall.fetchJson lib "manifest.json" = .ok manifest ∧
    communityVersions manifest = .ok versions ∧ Json.str v ∈ versions ∧
    parseVersion (.str v) = .ok key ∧ parseVersion upTo = .ok target ∧ key < target ∧
    ∀ w ∈ versions, ∀ key', parseVersion w = .ok key' → key' < target → ¬ key < key'

theorem genuine_after (es : List (Event Bytes)) (v : String) :
    ∀ row ∈ (getCatalog lib (r.fromCall v) (r.rows lib es)).cache,
      Genuine lib (r.after v es) row := by
  have hfirst : ∀ row ∈ (getCatalog lib r.toCall (history lib es).current).cache,
      Genuine lib (es ++ [.core r.toCall]) row :=
    genuine_of_extends rfl (history_genuine es).2 getCatalog_ok.extends_
  exact genuine_of_extends (e := .core (r.fromCall v)) rfl hfirst getCatalog_ok.extends_

theorem baseline_found {es : List (Event Bytes)} {out : DiffAnswer} {v : String}
    (h : readCatalogDiff lib r (history lib es).current = .ok out) (hfrom : out.from_ = some v) :
    ∃ id content toCatalog, Provider.core.found lib (r.fromCall v) (r.rows lib es) = some id ∧
      PublishedAs lib (r.after v es) id content ∧
      (getCatalog lib r.toCall (history lib es).current).result = .ok toCatalog ∧
      toCatalog.attrGet "version" (.str "") = .ok out.upTo ∧
      diffCatalogs content toCatalog = .ok out.diff := by
  obtain ⟨toCatalog, fromCatalog, versions, chosen, hto, hversion, -, -, -, -, hfromCatalog, hne,
    hdiff⟩ := readCatalogDiff_cases h hfrom
  obtain ⟨id, row, hfound, hget, hgives⟩ := get_found (p := .core) hfromCatalog hne
  obtain ⟨hmem, hedition, hrowVersion⟩ := mem_of_rowOf (cacheGet_ok.mp hget).2
  refine ⟨id, fromCatalog, toCatalog, hfound, ?_, hto, hversion, hdiff⟩
  obtain rfl | ⟨-, hread⟩ := hgives
  · obtain ⟨e, he, c, hcall, read, hread, hstored⟩ := genuine_after es v row hmem
    rw [hedition, hrowVersion] at hread
    exact ⟨e, he, c, read, hcall, hread, .inr hstored⟩
  · rw [hedition, hrowVersion] at hread
    exact ⟨_, List.mem_append_right _ List.mem_cons_self, _, _, rfl, hread, .inl rfl⟩

theorem foundAsNamed_iff {es : List (Event Bytes)} {v : String} {id : String × String}
    (h : Provider.core.found lib (r.fromCall v) (r.rows lib es) = some id) :
    FoundAsNamed lib es r v ↔ id = ("community", v) := by
  have hown : Provider.core.own (r.fromCall v) = (editionOf r.edition, v) := rfl
  have hfound := List.find?_some h
  have hmem := List.mem_of_find?_eq_some h
  -- a target that is available is found first
  have hfirst {manifest : Json} {t : String × String}
      (ht : CoreTarget lib (r.fromCall v) manifest t)
      (havail : Available lib (r.fromCall v) (r.rows lib es) manifest t.1 t.2) : id = t := by
    rw [Provider.found, target_core_iff.mpr ⟨manifest, ht⟩] at h
    simpa [row_of_target_iff ht, havail, eq_comm] using h
  constructor
  · rintro (⟨manifest, ht, havail⟩ | ⟨hedition, hnone⟩)
    · exact hfirst ht havail
    · rcases List.mem_append.mp hmem with hmem | hmem
      · obtain ⟨manifest, ht⟩ := target_core_iff.mp (Option.mem_toList.mp hmem)
        exact absurd ((row_of_target_iff ht).mp hfound) (hnone manifest id ht)
      · rw [List.mem_singleton.mp hmem, hown, hedition]
  · rintro rfl
    by_cases hany : ∃ manifest t, CoreTarget lib (r.fromCall v) manifest t ∧
        Available lib (r.fromCall v) (r.rows lib es) manifest t.1 t.2
    · obtain ⟨manifest, t, ht, havail⟩ := hany
      obtain rfl := hfirst ht havail
      exact .inl ⟨manifest, ht, havail⟩
    · have hnone : ∀ manifest t, CoreTarget lib (r.fromCall v) manifest t →
          ¬ Available lib (r.fromCall v) (r.rows lib es) manifest t.1 t.2 :=
        fun manifest t ht havail => hany ⟨manifest, t, ht, havail⟩
      rcases List.mem_append.mp hmem with hmem | hmem
      · obtain ⟨manifest, ht⟩ := target_core_iff.mp (Option.mem_toList.mp hmem)
        exact absurd ((row_of_target_iff ht).mp hfound) (hnone _ _ ht)
      · have heq := List.mem_singleton.mp hmem
        rw [hown] at heq
        exact .inr ⟨(Prod.mk.inj heq).1.symm, hnone⟩

theorem highestBelow_of_default {out : DiffAnswer} {v : String}
    (h : readCatalogDiff lib r cache = .ok out) (hfrom : out.from_ = some v)
    (hdefault : r.fromVersion.getD "" = "") : HighestBelow lib r v out.upTo := by
  obtain ⟨-, -, versions, chosen, -, -, hversions, hchosen, rfl, htruthy, -⟩ :=
    readCatalogDiff_cases h hfrom
  rw [chosenBaseline, if_neg (not_not_intro hdefault)] at hchosen
  obtain ⟨u, hu, hchosen⟩ := except_bind_ok hchosen
  obtain rfl := Except.ok.inj hchosen
  cases u with
  | none => cases htruthy
  | some u =>
    obtain ⟨key, target, hmem, hkey, htarget, hlt, hmax⟩ := previousVersion_spec hu
    obtain ⟨manifest, listed, hmanifest, hlisted, hiff⟩ := mem_publishedVersions hversions hmem
    -- what parses is a text
    obtain ⟨s, rfl⟩ : ∃ s, u = .str s := by
      cases u with
      | str s => exact ⟨s, rfl⟩
      | _ => cases hkey
    exact ⟨manifest, listed, key, target, hmanifest, hlisted, (hiff _).mp hmem, hkey, htarget, hlt,
      fun w hw => hmax w ((hiff w).mpr hw)⟩

theorem resolveVersion_mem {versions : List Json} {v : String} (h : Json.str v ∈ versions) :
    resolveVersion versions (.str v) = .ok (some (.str v)) := by
  have hany : (versions.any fun w => w.pyEq (.str v)) = true :=
    List.any_eq_true.mpr ⟨_, h, by simp⟩
  rw [resolveVersion, if_pos hany]
  rfl

theorem target_of_listed {c : Call Bytes} (hedition : editionOf c.edition = "community")
    (hlisted : ∀ manifest versions, c.fetchJson lib "manifest.json" = .ok manifest →
      communityVersions manifest = .ok versions → Json.str c.version ∈ versions)
    {manifest : Json} {t : String × String} (ht : CoreTarget lib c manifest t) :
    t = ("community", c.version) := by
  obtain ⟨-, hmanifest, ⟨businessBase, -, htarget⟩, -⟩ := ht
  obtain ⟨versions, hversions, htarget⟩ := except_bind_ok htarget
  have hnot : ¬ editionOf "community" = "business" := by decide
  rw [hedition, if_neg hnot, resolveVersion_mem (hlisted manifest versions hmanifest hversions)]
    at htarget
  have hsome : communityTarget (some (.str c.version)) = some (t.1, .str t.2) :=
    Except.ok.inj htarget
  rw [communityTarget] at hsome
  split at hsome
  · obtain ⟨hedition', hversion⟩ := Prod.mk.inj (Option.some.inj hsome)
    exact Prod.ext hedition'.symm (Json.str.inj hversion).symm
  · cases hsome

theorem foundAsNamed_of_listed {es : List (Event Bytes)} {out : DiffAnswer} {v : String}
    (h : readCatalogDiff lib r (history lib es).current = .ok out) (hfrom : out.from_ = some v)
    (hedition : editionOf r.edition = "community")
    (hlisted : ∀ manifest versions, (r.fromCall v).fetchJson lib "manifest.json" = .ok manifest →
      communityVersions manifest = .ok versions → Json.str v ∈ versions) :
    FoundAsNamed lib es r v := by
  have hown : Provider.core.own (r.fromCall v) = ("community", v) := by
    simp [Provider.own, DiffRequest.fromCall, hedition]
  obtain ⟨id, -, -, hfound, -⟩ := baseline_found h hfrom
  rw [foundAsNamed_iff hfound]
  rcases List.mem_append.mp (List.mem_of_find?_eq_some hfound) with hmem | hmem
  · obtain ⟨manifest, ht⟩ := target_core_iff.mp (Option.mem_toList.mp hmem)
    exact target_of_listed (c := r.fromCall v) hedition hlisted ht
  · exact (List.mem_singleton.mp hmem).trans hown

theorem mapped_of_foundAsNamed {es : List (Event Bytes)} {v : String}
    (h : FoundAsNamed lib es r v) (hedition : editionOf r.edition = "business") :
    ∃ manifest businessBase, (r.fromCall v).fetchJson lib "manifest.json" = .ok manifest ∧
      (r.fromCall v).fetchJson lib "business-base.json" = .ok businessBase ∧
      resolveTarget manifest businessBase "business" v = .ok (some ("community", .str v)) := by
  obtain ⟨manifest, ⟨-, hmanifest, ⟨businessBase, hbusiness, htarget⟩, -⟩, -⟩ | ⟨hcommunity, -⟩ := h
  · have hfetch : (r.fromCall v).businessBase lib =
        (r.fromCall v).fetchJson lib "business-base.json" := if_pos hedition
    have hsame : editionOf (r.fromCall v).edition = "business" := hedition
    rw [hsame] at htarget
    exact ⟨manifest, businessBase, hmanifest, hfetch ▸ hbusiness, htarget⟩
  · exact absurd (hedition.symm.trans hcommunity) (by decide)

/-- **What the diff names.**  Where the answer has a `from`, its diff is that of the
catalog published under `community/<from>` and the one served to the device if the
baseline is found under this identity, and, as far as the diffs of different catalogs
differ, only then.  It is found so for every Community device whose `from` the release
lists, and for a Business device only if the map sends `from` back to itself.  Without a
parameter, `from` is the highest published version below `to`. -/
theorem diff_names (lib : Library Bytes) (es : List (Event Bytes)) (r : DiffRequest Bytes)
    (out : DiffAnswer) (v : String)
    (h : readCatalogDiff lib r (history lib es).current = .ok out) (hfrom : out.from_ = some v) :
    (FoundAsNamed lib es r v → ComparesNamed lib es r out v) ∧
    (Distinguished lib es r v → ComparesNamed lib es r out v → FoundAsNamed lib es r v) ∧
    (editionOf r.edition = "community" →
      (∀ manifest versions, (r.fromCall v).fetchJson lib "manifest.json" = .ok manifest →
        communityVersions manifest = .ok versions → Json.str v ∈ versions) →
      FoundAsNamed lib es r v) ∧
    (FoundAsNamed lib es r v → editionOf r.edition = "business" →
      ∃ manifest businessBase, (r.fromCall v).fetchJson lib "manifest.json" = .ok manifest ∧
        (r.fromCall v).fetchJson lib "business-base.json" = .ok businessBase ∧
        resolveTarget manifest businessBase "business" v = .ok (some ("community", .str v))) ∧
    (r.fromVersion.getD "" = "" → HighestBelow lib r v out.upTo) := by
  obtain ⟨id, content, toCatalog, hfound, hpublished, hto, hversion, hdiff⟩ :=
    baseline_found h hfrom
  refine ⟨fun hnamed => ?_, fun hdistinct hcompares => ?_, foundAsNamed_of_listed h hfrom,
    mapped_of_foundAsNamed, highestBelow_of_default h hfrom⟩
  · obtain rfl := (foundAsNamed_iff hfound).mp hnamed
    exact ⟨content, toCatalog, hpublished, hto, hversion, hdiff⟩
  · obtain ⟨content', toCatalog', hpublished', hto', -, hdiff'⟩ := hcompares
    obtain rfl := Except.ok.inj (hto.symm.trans hto')
    rw [foundAsNamed_iff hfound]
    by_contra hne
    exact hdistinct id _ content content' toCatalog hpublished hpublished' hto hne
      (hdiff.trans hdiff'.symm)

end Endpoint

/-! ### A Community device and a Business device -/

/-- A catalog of a release, with its text and the hash of the text. -/
structure SampleAsset where
  version : String
  text : String
  hash : String
  models : Dict

def SampleAsset.content (a : SampleAsset) : Json :=
  .obj [("models", .obj a.models), ("version", .str a.version)]

def oldAsset : SampleAsset :=
  ⟨"25.7.9", "\x7b\"models\":\x7b\x7d,\"version\":\"25.7.9\"\x7d",
    "59476d52e93242cfc292b0fbe6ec143bc8e2be64c50d7fb576dff7fa68b4b23a", []⟩

def baselineAsset : SampleAsset :=
  ⟨"26.1.6",
    "\x7b\"models\":\x7b\"unbound\":\x7b\"id\":\"unbound\"\x7d\x7d,\"version\":\"26.1.6\"\x7d",
    "c4169b0d4f7953cc20590368e21c4837df17389b2fc057c73fbfc8f06c1110c9",
    [("unbound", .obj [("id", .str "unbound")])]⟩

def servedAsset : SampleAsset :=
  ⟨"26.1.8",
    "\x7b\"models\":\x7b\"unbound\":\x7b\"id\":\"unbound\"\x7d\x7d,\"version\":\"26.1.8\"\x7d",
    "459e64a57a22437a6c9e9fcfd1d5fb59dab7f35ce30319dde27705698da9cbce",
    [("unbound", .obj [("id", .str "unbound")])]⟩

def sampleAssets : List SampleAsset := [oldAsset, baselineAsset, servedAsset]

/-- SHA-256, `json.loads` and the column on the documents of the release; the manifest and the
Business map are named by their files. -/
def releaseLib : Library String where
  sha256 raw := ((sampleAssets.find? fun a => a.text == raw).map (·.hash)).getD ""
  loads raw :=
    if raw = "manifest.json" then
      .ok (.obj [("catalogs",
        .obj (sampleAssets.map fun a => ("community/" ++ a.version, .str a.hash)))])
    else if raw = "business-base.json" then
      .ok (.obj [("map", .obj [("25.10", .str "25.7.9"), ("26.4.1", .str "26.1.8")])])
    else match sampleAssets.find? fun a => a.text == raw with
      | some a => .ok a.content
      | none => .error .valueError
  stored := some

/-- The release server. -/
def releaseServer (url : String) : Option String :=
  if url = "https://r/manifest.json" then some "manifest.json"
  else if url = "https://r/business-base.json" then some "business-base.json"
  else
    (sampleAssets.find? fun a => "https://r/community-" ++ a.version ++ ".json" == url).map (·.text)

def sampleRequest (edition version : String) : DiffRequest String :=
  ⟨edition, version, none, "https://r", true, releaseServer, releaseServer, releaseServer⟩

/-- A Community device on 26.1.8 is compared with 26.1.6. -/
theorem diff_names_community :
    HighestBelow releaseLib (sampleRequest "community" "26.1.8") "26.1.6" (.str "26.1.8") :=
  (diff_names releaseLib [] (sampleRequest "community" "26.1.8")
    ⟨some "26.1.6", .str "26.1.8", [.str "25.7.9", .str "26.1.6"], ⟨[], [], []⟩⟩ "26.1.6"
    (by decide +kernel) rfl).2.2.2.2 rfl

/-- A Business device on 26.4.1 is served 26.1.8, and compared with 25.7.9 under the name
of 26.1.6. -/
theorem business_diff_misnamed :
    ∃ out, readCatalogDiff releaseLib (sampleRequest "business" "26.4.1")
        (history releaseLib []).current = .ok out ∧
      out.from_ = some "26.1.6" ∧
      ¬ ComparesNamed releaseLib [] (sampleRequest "business" "26.4.1") out "26.1.6" := by
  refine ⟨⟨some "26.1.6", .str "26.1.8", [.str "25.7.9", .str "26.1.6"], ⟨["unbound"], [], []⟩⟩,
    by decide +kernel, rfl, ?_⟩
  rintro ⟨content, toCatalog,
    ⟨e, he, c, read, hcall, ⟨manifest, entry, raw, -, -, -, hraw, -, hloads⟩, hsame⟩, hto, -, hdiff⟩
  have hfetch : raw = baselineAsset.text := by
    rcases List.mem_append.mp he with he | he
    · obtain rfl := List.mem_singleton.mp he
      obtain rfl := Option.some.inj hcall
      exact Except.ok.inj (hraw.symm.trans (by decide +kernel))
    · obtain rfl := List.mem_singleton.mp he
      obtain rfl := Option.some.inj hcall
      exact Except.ok.inj (hraw.symm.trans (by decide +kernel))
  subst hfetch
  obtain rfl : read = content := hsame.elim id Option.some.inj
  have hcontent : read = baselineAsset.content :=
    Except.ok.inj (hloads.symm.trans (by decide +kernel))
  have hserved : toCatalog = servedAsset.content :=
    Except.ok.inj (hto.symm.trans (by decide +kernel))
  rw [hcontent, hserved] at hdiff
  revert hdiff
  decide +kernel

end CatalogProvider

end Opngms
