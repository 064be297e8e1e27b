/-
Opngms/CatalogUndo.lean

What the revert of a catalog change restores.

The inverse takes the operations in their order and inverts each: a deleted row
is added again from the snapshot, a set one is set back, an added one is deleted
under the uuid its result shows.  Nothing records how far the change came: a
failed change keeps no results, so its additions are left behind, and its
operations are all inverted, those that never ran included.  An operation on a
row that an earlier one removed inverts to a `set` that the box refuses, and the
rest of the inverse is not sent.

**`catalog_restored_iff`** says exactly when the model is restored nevertheless:
when the *accounts* of the change balance.
-/
import Opngms.CatalogRun
import Opngms.Scalars

namespace Opngms

open Appliance

variable {A : Appliance}

/-! ### The inverse of a catalog change -/

section Builder

variable {env : Env} {model : Model} {body : CatalogChangeIn} {payload : Dict}

theorem buildPayload_payload (h : buildPayload model body = .ok payload) :
    ∃ gs, gridPayloads model body.grids = .ok gs ∧
      CatalogPayload payload (endpointOf model.endpoints "set")
        (endpointOf model.endpoints "reconfigure") model.modelRoot body.scalars gs ∧
      Dict.get? payload "xml_path" = some (.str model.xmlPath) ∧
      ∀ k ∈ body.scalars.map (·.1), k ∈ model.fields.map Field.path := by
  simp only [buildPayload] at h
  split at h
  · cases h
  · rename_i hknown
    obtain ⟨gs, hgs, h⟩ := except_bind_ok h
    split at h
    · cases h
    · obtain rfl := Except.ok.inj h
      refine ⟨gs, hgs, ⟨by simp, by simp, by simp, by simp, by simp⟩, by simp, fun k hk => ?_⟩
      by_contra hnot
      refine hknown (Bool.not_eq_true' _ ▸ List.isEmpty_eq_false_iff_exists_mem.mpr ⟨k, ?_⟩)
      exact List.mem_filter.mpr ⟨hk, by simpa using hnot⟩

/-- The text of a scalar in the snapshot, "" where there is none. -/
def scalarText (root : Elem) (path : List String) (key : String) : String :=
  match root.find (path ++ splitDots key) with
  | some el => el.text
  | none => ""

theorem settingFromConfig_eq (root : Elem) (path : List String) {keys : List String}
    (h : keys.Nodup) :
    settingFromConfig root path keys = keys.map fun k => (k, scalarText root path k) := by
  have hfold : ∀ (d : List (String × String)), (∀ k ∈ keys, k ∉ d.map (·.1)) →
      keys.foldl (fun out key => putEntry out key (scalarText root path key)) d =
        d ++ keys.map fun k => (k, scalarText root path k) := by
    induction keys with
    | nil => simp
    | cons k keys ih =>
      intro d hd
      obtain ⟨hk, hkeys⟩ := List.nodup_cons.mp h
      rw [List.foldl_cons, putEntry_of_not_mem _ (hd k List.mem_cons_self), ih hkeys, List.map_cons,
        List.append_assoc]
      · rfl
      · intro k' hk' hmem
        rw [List.map_append, List.mem_append] at hmem
        rcases hmem with hmem | hmem
        · exact hd k' (List.mem_cons_of_mem _ hk') hmem
        · rw [List.map_singleton, List.mem_singleton] at hmem
          have hkk : k' = k := hmem
          exact hk (hkk ▸ hk')
  exact (hfold [] fun _ _ => List.not_mem_nil).trans (List.nil_append _)

/-- The document shows the configuration of the model: the scalar of each field
and each row. -/
structure Documents (root : Elem) (model : Model) (S : Configuration A) : Prop where
  scalars : ∀ k ∈ model.fields.map Field.path,
    scalarText root (splitPath model.xmlPath) k = S.scalars k
  rows : ∀ u, gridRowByUuid root (splitPath model.xmlPath) (.str u) = S.store.prior u

def resultGrids (result : Json) : Except BuiltinError (List Json) := do
  let grids ← (result.orElse (.obj [])).attrGet "grids" .null
  (grids.orElse (.arr [])).iterate

theorem resultGrids_applied (b : Bool) (r : Json) (rs : List Json) :
    resultGrids (.obj [("dry_run", .bool b), ("scalars", r), ("grids", .arr rs)]) = .ok rs := by
  show ((Json.arr rs).orElse (.arr [])).iterate = _
  rw [Json.orElse_arr, Json.iterate]

/-- What `_invert_catalog_setting` builds: the prior scalars, and the inverse of
each grid operation. -/
theorem invertCatalogSetting_ok {change : Change} {snapshotXml : Option String} {op : String}
    {target : Json} {inverse : Dict} {setPath reconfigurePath root : String}
    {scalars : List (String × String)} {grids : List Json} {xmlPath : String}
    (hp : CatalogPayload change.payload setPath reconfigurePath root scalars grids)
    (hx : Dict.get? change.payload "xml_path" = some (.str xmlPath))
    (h : invertCatalogSetting env change snapshotXml = .ok (op, target, inverse)) :
    ∃ rs doc is prev, resultGrids change.result = .ok rs ∧
      (∀ r, doc = some r → ∃ xml, snapshotXml = some xml ∧ env.parseXml xml = some r) ∧
      (scalars.isEmpty = false → doc.isSome) ∧
      invertGridOps doc (splitPath xmlPath) grids rs = .ok is ∧
      (∀ r, doc = some r → prev = settingFromConfig r (splitPath xmlPath) (scalars.map (·.1))) ∧
      (doc = none → prev = []) ∧
      CatalogPayload inverse setPath reconfigurePath root prev is := by
  have hsc : Dict.getD change.payload "scalars" .null = .obj (strDict scalars) := by
    rw [Dict.getD, hp.scalars, Option.getD_some]
  have hgr : Dict.getD change.payload "grids" .null = .arr grids := by
    rw [Dict.getD, hp.grids, Option.getD_some]
  have hxp : Dict.getD change.payload "xml_path" (.str "") = .str xmlPath := by
    rw [Dict.getD, hx, Option.getD_some]
  have hsp : Dict.getD change.payload "set_path" (.str "") = .str setPath := by
    rw [Dict.getD, hp.setPath, Option.getD_some]
  have hrp : Dict.getD change.payload "reconfigure_path" (.str "") = .str reconfigurePath := by
    rw [Dict.getD, hp.reconfigurePath, Option.getD_some]
  have hroot : Dict.getD change.payload "model_root" (.str "") = .str root := by
    rw [Dict.getD, hp.root, Option.getD_some]
  have htr : (Json.obj (strDict scalars)).truthy = !scalars.isEmpty := by
    cases scalars <;> rfl
  have hkeys : Dict.keys (strDict scalars) = scalars.map (·.1) := by
    rw [Dict.keys, strDict, List.map_map]
    rfl
  -- the steps of the builder, each of which has succeeded
  unfold invertCatalogSetting at h
  simp only [hsc, hgr, hxp, hsp, hrp, hroot, Json.orElse_obj, Json.orElse_arr, htr] at h
  obtain ⟨fwd, hfwd, h⟩ := except_bind_ok h
  obtain rfl : grids = fwd := Except.ok.inj hfwd
  obtain ⟨result, hresult, h⟩ := except_bind_ok h
  obtain ⟨rs, hrs, h⟩ := except_bind_ok h
  obtain ⟨needs, hneeds, h⟩ := except_bind_ok h
  obtain ⟨doc, hdoc, h⟩ := except_bind_ok h
  obtain ⟨flat, hflat, h⟩ := except_bind_ok h
  obtain rfl : strDict scalars = flat := Except.ok.inj hflat
  obtain ⟨is, his, h⟩ := except_bind_ok h
  obtain ⟨-, -, rfl⟩ := by simpa using Except.ok.inj h
  have hres : resultGrids change.result = .ok rs := by
    rw [resultGrids, mapError_ok hresult]
    exact mapError_ok hrs
  cases needs with
  | false =>
    -- no operation needs the snapshot, and none is read
    obtain rfl : none = doc := Except.ok.inj hdoc
    refine ⟨rs, none, is, [], hres, by simp, fun hne => ?_, his, by simp, fun _ => rfl,
      ⟨by simp, by simp, by simp, by simp, by simp⟩⟩
    rw [hne] at hneeds
    cases hneeds
  | true =>
    rw [if_pos rfl] at hdoc
    cases hprior : priorConfig env (.str xmlPath) snapshotXml with
    | error e =>
      rw [hprior] at hdoc
      cases hdoc
    | ok r =>
      rw [hprior] at hdoc
      obtain rfl : some r = doc := Except.ok.inj hdoc
      refine ⟨rs, some r, is, settingFromConfig r (splitPath xmlPath) (Dict.keys (strDict scalars)),
        hres, ?_, fun _ => rfl, his, ?_, by simp,
        ⟨by simp, by simp, by simp, by simp, by simp⟩⟩
      · rintro _ ⟨⟩
        obtain ⟨xml, hxml, hprior⟩ := except_bind_ok hprior
        split at hprior
        · cases hprior
        · exact ⟨xml, needSnapshot_ok hxml, parseConfig_ok hprior⟩
      · rintro _ ⟨⟩
        rw [← hkeys]

end Builder

/-! ### A change and its revert -/

/-- What `applyGuarded` makes of the outcome of the applier. -/
def recorded (change : Change) (now : Time) : Except Raised Json → Except Raised Change
  | .ok result => .ok { change with status := .applied, appliedAt := some now, result }
  | .error e =>
    match applyFailure e with
    | some result => .ok { change with status := .failed, result }
    | none => .error e

theorem recorded_ok {change row : Change} {now : Time} {z : Except Raised Json}
    (h : recorded change now z = .ok row) :
    row.payload = change.payload ∧ row.kind = change.kind ∧
      ((∃ x, z = .ok x ∧ row.result = x) ∨
        ∃ e, z = .error e ∧ applyFailure e = some row.result) := by
  cases z with
  | ok result =>
    rw [← Except.ok.inj h]
    exact ⟨rfl, rfl, .inl ⟨result, rfl, rfl⟩⟩
  | error e =>
    rw [recorded] at h
    cases he : applyFailure e with
    | none =>
      rw [he] at h
      cases h
    | some result =>
      rw [he] at h
      rw [← Except.ok.inj h]
      exact ⟨rfl, rfl, .inr ⟨e, rfl, he⟩⟩

/-- A catalog change on a box and its revert: the payload is built from the
catalog entry, the applier runs while a request may fail, its outcome is
recorded, the inverse is built from the record and the saved configuration, and
is applied without a mishap. -/
structure CatalogRevert (A : Appliance) (env : Env) where
  model : Model
  described : A.Describes model
  body : CatalogChangeIn
  /-- `scalars` is a dictionary. -/
  scalars_nodup : (body.scalars.map (·.1)).Nodup
  payload : Dict
  built : buildPayload model body = .ok payload
  before : Configuration A
  dryRun : Bool
  mishap : Option Mishap
  outcome : Except Raised Json
  after : Configuration A
  sent : Nat
  applied : (applyCatalogSetting "set" payload dryRun).play (serve mishap) (before, 0) =
    some (outcome, after, sent)
  change : Change
  isCatalog : change.kind = "catalog_setting"
  carries : change.payload = payload
  now : Time
  row : Change
  recorded : recorded change now outcome = .ok row
  snapshotXml : Option String
  /-- A live run saved the configuration before it, a dry run saved none. -/
  snapshot : if dryRun then snapshotXml = none else
    ∃ xml root, snapshotXml = some xml ∧ env.parseXml xml = some root ∧
      Documents root model before
  operation : String
  target : Json
  inverse : Dict
  inverted : buildInverse env row snapshotXml = .ok (operation, target, inverse)
  result : Except Raised Json
  final : Configuration A
  sentBack : Nat
  reverted : (applyCatalogSetting operation inverse false).play (serve none) (after, 0) =
    some (result, final, sentBack)

/-- A map with these keys assigns the scalars of `L`, each the value of its own
key. -/
def Assigns (A : Appliance) (keys : List String) (L : String → Prop) : Prop :=
  ∀ g : String → String, ∃ d, unflatten (strDict (keys.map fun k => (k, g k))) = .ok d ∧
    ∀ (scalars : String → String) (k : String),
      (L k → A.assign scalars (.obj d) k = g k) ∧ (¬ L k → A.assign scalars (.obj d) k = scalars k)

/-- The model is as it was: each scalar, each row that kept its uuid, and the
rows of each grid up to uuids. -/
structure Configuration.Restores (S T : Configuration A) : Prop where
  scalars : T.scalars = S.scalars
  rows : S.store.Restores T.store

namespace CatalogRevert

variable {env : Env} (R : CatalogRevert A env)

def script : List RowEdit := scriptOf A R.model R.body

def ran : List RowEdit :=
  if R.dryRun then [] else ranOf A.uuids R.mishap R.body.scalars R.before.store R.script

/-- All of them were, and every request was answered. -/
def completed : Bool :=
  !R.dryRun && completes A.uuids R.mishap R.body.scalars R.before.store R.script

def keys : List String := R.body.scalars.map (·.1)

def prev : List (String × String) := R.keys.map fun k => (k, R.before.scalars k)

/-- What the inverse was built from: the payload, the stored results and, where
prior values were needed, the snapshot. -/
structure BuiltFrom (gs rs is : List Json) (doc : Option Elem) : Prop where
  forward : gridPayloads R.model R.body.grids = .ok gs
  payload : CatalogPayload R.payload (endpointOf R.model.endpoints "set")
    (endpointOf R.model.endpoints "reconfigure") R.model.modelRoot R.body.scalars gs
  results : resultGrids R.row.result = .ok rs
  inverses : invertGridOps doc (splitPath R.model.xmlPath) gs rs = .ok is
  snapshot : ∀ r, doc = some r → R.dryRun = false ∧ Documents r R.model R.before
  needed : R.body.scalars.isEmpty = false → doc.isSome
  inverse : CatalogPayload R.inverse (endpointOf R.model.endpoints "set")
    (endpointOf R.model.endpoints "reconfigure") R.model.modelRoot R.prev is

theorem row_change : R.row.payload = R.payload ∧ R.row.kind = "catalog_setting" := by
  obtain ⟨hpayload, hkind, -⟩ := recorded_ok R.recorded
  exact ⟨hpayload.trans R.carries, hkind.trans R.isCatalog⟩

theorem builtFrom : ∃ gs rs is doc, R.BuiltFrom gs rs is doc := by
  obtain ⟨gs, hgs, hpay, hxml, hfields⟩ := buildPayload_payload R.built
  obtain ⟨hrow, hkind⟩ := R.row_change
  have hinv : invertCatalogSetting env R.row R.snapshotXml =
      .ok (R.operation, R.target, R.inverse) := by
    have h := R.inverted
    rw [buildInverse, hkind] at h
    exact h
  rw [← hrow] at hpay hxml
  obtain ⟨rs, doc, is, prev, hrs, hdoc, hneeded, his, hprev, hnone, hout⟩ :=
    invertCatalogSetting_ok hpay hxml hinv
  have hsnapshot : ∀ r, doc = some r → R.dryRun = false ∧ Documents r R.model R.before := by
    intro r hr
    obtain ⟨xml, hx, hparse⟩ := hdoc r hr
    have hsnap := R.snapshot
    cases hdry : R.dryRun with
    | true =>
      rw [hdry, if_pos rfl, hx] at hsnap
      cases hsnap
    | false =>
      rw [hdry, if_neg Bool.false_ne_true] at hsnap
      obtain ⟨xml', root, hx', hparse', hshows⟩ := hsnap
      obtain rfl := Option.some.inj (hx.symm.trans hx')
      obtain rfl := Option.some.inj (hparse.symm.trans hparse')
      exact ⟨rfl, hshows⟩
  have hvalues : prev = R.prev := by
    cases hd : doc with
    | some r =>
      rw [hprev r hd, settingFromConfig_eq r _ R.scalars_nodup]
      refine List.map_congr_left fun k hk => ?_
      rw [(hsnapshot r hd).2.scalars k (hfields k hk)]
    | none =>
      cases hs : R.body.scalars.isEmpty with
      | false =>
        have hsome := hneeded hs
        rw [hd] at hsome
        cases hsome
      | true =>
        rw [hnone hd, CatalogRevert.prev, keys, List.isEmpty_iff.mp hs]
        rfl
  rw [hrow] at hpay
  exact ⟨gs, rs, is, doc, hgs, hpay, hrs, his, hsnapshot, hneeded, hvalues ▸ hout⟩

theorem BuiltFrom.prior {gs rs is : List Json} {doc : Option Elem} (h : R.BuiltFrom gs rs is doc)
    (u : String) (φ : Fields)
    (hrow : (doc.bind fun r => gridRowByUuid r (splitPath R.model.xmlPath) (.str u)) = some φ) :
    R.before.store.prior u = some φ := by
  obtain ⟨r, hr, hrow⟩ := Option.bind_eq_some_iff.mp hrow
  exact ((h.snapshot r hr).2.rows u).symm.trans hrow

theorem named {gs rs is : List Json} {doc : Option Elem} (h : R.BuiltFrom gs rs is doc) :
    ∀ e ∈ R.script, ∀ u, e.named = some u → u ∈ R.before.store.rows.map Row.uuid :=
  named_of_inverses R.described h.forward (h.prior R) h.inverses

theorem ran_prefix : R.ran <+: R.script := by
  unfold ran
  split
  · exact List.nil_prefix
  · unfold ranOf
    split
    · exact List.nil_prefix
    · exact carried_prefix _ _ _ _

theorem ran_completed (h : R.completed = true) : R.ran = R.script := by
  simp only [completed, completes, Bool.and_eq_true, Bool.not_eq_true'] at h
  obtain ⟨hdry, ⟨hfirst, hwhole⟩, -⟩ := h
  rw [ran, ranOf, hdry, hfirst, if_neg Bool.false_ne_true, if_neg Bool.false_ne_true]
  exact carried_whole hwhole

theorem scalars_asked :
    R.body.scalars = R.keys.map fun k => (k, (R.body.scalars.lookup k).getD "") := by
  rw [keys, List.map_map]
  refine (List.map_id _).symm.trans (List.map_congr_left fun kv hkv => ?_)
  have hlook : R.body.scalars.lookup kv.1 = some kv.2 := (mem_iff_lookup R.scalars_nodup).mp hkv
  exact Prod.ext rfl (congrArg (Option.getD · "") hlook).symm

theorem leaves : ∃ L : String → Prop, Assigns A R.keys L := by
  obtain ⟨gs, rs, is, doc, hb⟩ := R.builtFrom
  rcases unflatten_cases R.keys with ⟨e, he⟩ | ⟨L, hL⟩
  · exfalso
    cases hs : R.body.scalars.isEmpty with
    | true =>
      have h := he fun _ => ""
      rw [keys, List.isEmpty_iff.mp hs] at h
      cases h
    | false =>
      obtain ⟨r, hr⟩ := Option.isSome_iff_exists.mp (hb.needed hs)
      have hflat : unflatten (strDict R.body.scalars) = .error e := by
        rw [R.scalars_asked]
        exact he _
      have hrun := R.applied
      rw [(hb.snapshot r hr).1, applyCatalogSetting_live "set" hb.payload, hs, applyScalars_live,
        scalarsRequest_ok hb.payload R.described.setPath, hflat] at hrun
      have hz : R.outcome = .error (.builtin e) :=
        (congrArg Prod.fst (Option.some.inj hrun)).symm
      obtain ⟨-, -, ⟨x, hx, -⟩ | ⟨e', he', hfail⟩⟩ := recorded_ok R.recorded
      · rw [hz] at hx
        cases hx
      · rw [hz] at he'
        obtain rfl := Except.error.inj he'
        rw [applyFailure_builtin] at hfail
        cases hfail
  · exact ⟨L, fun g => (hL g).imp fun d hd => ⟨hd.1, hd.2 A⟩⟩

/-- The change: its script as far as it was carried out, and the uuids that its
result shows. -/
theorem forward {gs rs is : List Json} {doc : Option Elem} {L : String → Prop}
    (hb : R.BuiltFrom gs rs is doc) (hL : Assigns A R.keys L) :
    R.after.store = R.before.store.edits A.uuids R.ran ∧
      Links R.script rs (R.before.store.links A.uuids R.script R.completed) ∧
      ∀ k, ¬ L k → R.after.scalars k = R.before.scalars k := by
  have hrun := R.applied
  have hresults := hb.results
  obtain ⟨-, -, hrec⟩ := recorded_ok R.recorded
  cases hdry : R.dryRun with
  | true =>
    -- a dry run has no snapshot, so the inverse can need none
    have hs : R.body.scalars = [] := by
      cases hs : R.body.scalars.isEmpty with
      | true => exact List.isEmpty_iff.mp hs
      | false =>
        obtain ⟨r, hr⟩ := Option.isSome_iff_exists.mp (hb.needed hs)
        exact absurd ((hb.snapshot r hr).1.symm.trans hdry) Bool.false_ne_true
    obtain ⟨rs', hplay, hlinks⟩ := play_dryRun (serve R.mishap) (R.before, 0) R.described "set"
      (hs ▸ hb.payload) hb.forward
    rw [hdry, hplay] at hrun
    obtain ⟨hz, hafter⟩ := Prod.mk.inj (Option.some.inj hrun)
    have hran : R.ran = [] := by rw [ran, hdry, if_pos rfl]
    have hcomp : R.completed = false := by
      rw [completed, hdry]
      rfl
    have hsame : R.after = R.before := (congrArg Prod.fst hafter).symm
    refine ⟨by rw [hran, hsame]; rfl, ?_, fun k _ => by rw [hsame]⟩
    rcases hrec with ⟨x, hx, hres⟩ | ⟨e, he, -⟩
    · obtain rfl := Except.ok.inj (hz.trans hx)
      rw [hres, resultGrids_applied] at hresults
      obtain rfl := Except.ok.inj hresults
      rw [hcomp, RowStore.links, if_neg Bool.false_ne_true]
      exact hlinks
    · cases hz.trans he
  | false =>
    -- live: the script runs as far as `play_applyCatalogSetting` says
    have hM := means_script R.described hb.forward fun e he u hu =>
      R.before.safe_uuid (R.named hb e he u hu)
    obtain ⟨d, hd, hassign⟩ := hL fun k => (R.body.scalars.lookup k).getD ""
    rw [← R.scalars_asked] at hd
    obtain ⟨z, S', n', hplay, hstore, hscalars, hdone, hbroken⟩ := play_applyCatalogSetting
      (m := R.mishap) (S := R.before) "set" hb.payload R.described.setPath
      R.described.reconfigurePath (fun _ => hd) hM
    rw [hdry, hplay] at hrun
    obtain ⟨hz, hafter⟩ := Prod.mk.inj (Option.some.inj hrun)
    obtain rfl : S' = R.after := congrArg Prod.fst hafter
    have hran : R.ran = ranOf A.uuids R.mishap R.body.scalars R.before.store R.script := by
      rw [ran, hdry, if_neg Bool.false_ne_true]
    have hcomp : R.completed =
        completes A.uuids R.mishap R.body.scalars R.before.store R.script := by
      rw [completed, hdry]
      rfl
    refine ⟨by rw [hran]; exact hstore, ?_, fun k hk => ?_⟩
    · cases hc : completes A.uuids R.mishap R.body.scalars R.before.store R.script with
      | true =>
        obtain ⟨r, rs', rfl, hlinks⟩ := hdone hc
        rcases hrec with ⟨x, hx, hres⟩ | ⟨e, he, -⟩
        · obtain rfl := Except.ok.inj (hz.trans hx)
          rw [hres, resultGrids_applied] at hresults
          obtain rfl := Except.ok.inj hresults
          rw [hcomp, RowStore.links, hc, if_pos rfl]
          exact hlinks
        · cases hz.trans he
      | false =>
        obtain ⟨x, rfl⟩ := hbroken hc
        rcases hrec with ⟨x, hx, -⟩ | ⟨e, he, hfail⟩
        · cases hz.trans hx
        · -- a failed run keeps no results, so it shows no uuid
          obtain rfl := Except.error.inj (hz.trans he)
          rw [← Option.some.inj hfail] at hresults
          obtain rfl : [] = rs := Except.ok.inj hresults
          rw [hcomp, RowStore.links, hc, if_neg Bool.false_ne_true]
          exact links_nil R.script
    · rw [hscalars]
      split
      · exact (hassign R.before.scalars k).2 hk
      · rfl

/-- The inverse: its script as far as the box accepts it. -/
theorem backward {gs rs is : List Json} {doc : Option Elem} {L : String → Prop}
    (hb : R.BuiltFrom gs rs is doc) (hL : Assigns A R.keys L) :
    R.final.store = R.before.store.reverted A.uuids A.intake R.ran R.script R.completed ∧
      R.final.scalars = R.before.scalars := by
  obtain ⟨hstore, hlinks, hsame⟩ := R.forward hb hL
  have hsafe : ∀ u, some u ∈ R.before.store.links A.uuids R.script R.completed →
      safeName u = true := by
    intro u hu
    rw [RowStore.links] at hu
    split at hu
    · obtain ⟨J, rfl⟩ := created_picked hu
      exact A.uuids_safe J
    · cases hu
  have hM := means_inverses R.described hb.forward (hb.prior R) hlinks hsafe hb.inverses
  obtain ⟨d, hd, hassign⟩ := hL R.before.scalars
  obtain ⟨z, S', n', hplay, hst, hsc, -, -⟩ := play_applyCatalogSetting (m := none) (S := R.after)
    R.operation hb.inverse R.described.setPath R.described.reconfigurePath (fun _ => hd) hM
  have hrun := R.reverted
  rw [hplay] at hrun
  obtain rfl : S' = R.final := congrArg (fun x => x.2.1) (Option.some.inj hrun)
  have hback : A.assign R.after.scalars (.obj d) = R.before.scalars := by
    funext k
    by_cases hk : L k
    · exact (hassign R.after.scalars k).1 hk
    · exact ((hassign R.after.scalars k).2 hk).trans (hsame k hk)
  refine ⟨?_, ?_⟩
  · have hall : ∀ es, ranOf A.uuids none R.prev R.after.store es =
        R.after.store.accepted A.uuids es := by
      intro es
      have hf : firstFails none R.prev = false := Bool.and_false _
      rw [ranOf, hf, if_neg Bool.false_ne_true, carried_none]
    rw [hst, hall, hstore]
    rfl
  · rw [hsc]
    split
    · exact hback
    · rename_i hnone
      have hempty : R.prev = [] := by
        simpa [scalarsSet, mishapAt] using hnone
      have hd' : unflatten (strDict R.prev) = .ok d := hd
      rw [hempty] at hd'
      obtain rfl : [] = d := Except.ok.inj hd'
      refine Eq.trans (funext fun k => ?_) hback
      rw [Appliance.assign]
      cases splitDots k <;> rfl

theorem recovers {gs rs is : List Json} {doc : Option Elem} {L : String → Prop}
    (hb : R.BuiltFrom gs rs is doc) (hL : Assigns A R.keys L) :
    R.before.store.Recovers A.intake R.ran := by
  have hwithin : Within R.before.store.issued R.ran := fun e he =>
    RowStore.within_issued (R.named hb) e (R.ran_prefix.subset he)
  have hnodup : ∀ r ∈ R.before.store.rows, (r.fields.map (·.1)).Nodup := by
    intro r hr
    rw [R.before.fits r hr]
    exact A.columns_nodup r.table
  refine fun r hr => ⟨A.fill_strDict rfl (hnodup r hr), fun r' hr' => ?_⟩
  have hmem : r' ∈ R.after.store.rows := by
    rw [(R.forward hb hL).1, RowStore.edits_rows hwithin]
    exact List.mem_append_left _ (List.mem_filterMap.mpr ⟨r, hr, hr'⟩)
  refine A.fill_strDict ?_ (hnodup r hr)
  rw [R.after.fits r' hmem, (fate_keeps hr').2, R.before.fits r hr]

theorem restores_iff :
    R.before.Restores R.final ↔ R.before.store.Restores (R.before.store.reverted A.uuids A.intake
      R.ran R.script R.completed) := by
  obtain ⟨gs, rs, is, doc, hb⟩ := R.builtFrom
  obtain ⟨L, hL⟩ := R.leaves
  obtain ⟨hstore, hscalars⟩ := R.backward hb hL
  rw [← hstore]
  exact ⟨fun h => h.rows, fun h => ⟨hscalars, h⟩⟩

theorem rows_restored_iff :
    R.before.store.Restores (R.before.store.reverted A.uuids A.intake R.ran R.script R.completed) ↔
      R.before.store.Accounts A.intake R.ran R.script R.completed := by
  obtain ⟨gs, rs, is, doc, hb⟩ := R.builtFrom
  obtain ⟨L, hL⟩ := R.leaves
  exact RowStore.restores_iff (R.recovers hb hL) (R.named hb) R.ran_prefix R.ran_completed

end CatalogRevert

/-- **The revert of a catalog change restores the model if and only if the
accounts of the change balance**: every row that was changed is set back, and
the rows that were removed are the ones left behind and the ones added again. -/
theorem catalog_restored_iff {env : Env} (R : CatalogRevert A env) :
    R.before.Restores R.final ↔
      R.before.store.Accounts A.intake R.ran R.script R.completed :=
  R.restores_iff.trans R.rows_restored_iff

/-! ### An addition whose reload fails -/

def jailBox : Appliance where
  tableAt _ := some "jails"
  columns _ := [("name", "")]
  columns_nodup _ := List.nodup_singleton _
  text := Json.pyStr
  text_str := Json.pyStr_str
  uuids := longerUuids
  uuids_safe := longerUuid_safe
  files := []
  other _ := .ok (.obj [])

def jailModel : Model where
  id := "jail"
  modelRoot := "jail"
  xmlPath := "OPNsense/jail"
  endpoints := [("set", "jail/settings/set"), ("reconfigure", "jail/service/reconfigure")]
  fields := []
  grids := [⟨"jails.jail", [("add", "jail/settings/addJail"), ("set", "jail/settings/setJail"),
    ("del", "jail/settings/delJail")], [⟨"name"⟩]⟩]

theorem jailBox_describes : jailBox.Describes jailModel where
  setPath := by decide +kernel
  reconfigurePath := by decide +kernel
  grids g hg := by
    obtain rfl := List.mem_singleton.mp hg
    refine ⟨"jails", fun verb => ?_⟩
    cases verb
    · exact ⟨"jail/settings/addJail", rfl, by decide +kernel, rfl⟩
    · exact ⟨"jail/settings/setJail", rfl, by decide +kernel, rfl⟩
    · exact ⟨"jail/settings/delJail", rfl, by decide +kernel, rfl⟩

def noJails : Configuration jailBox where
  scalars _ := ""
  store := ⟨[], [], List.nodup_nil, nofun⟩
  fits := nofun
  safe := nofun

def jailEdit : CatalogChangeIn where
  modelId := "jail"
  scalars := []
  grids := [⟨.add, "jails.jail", none, some [("name", .str "web")]⟩]

def jailPayload (grids : List Json) : Dict :=
  [("model_id", .str "jail"), ("set_path", .str "jail/settings/set"),
    ("reconfigure_path", .str "jail/service/reconfigure"), ("model_root", .str "jail"),
    ("xml_path", .str "OPNsense/jail"), ("scalars", .obj []), ("grids", .arr grids)]

def jailAddition : Json :=
  gridEntry "add" (.obj (strDict [("add", "jail/settings/addJail"),
    ("set", "jail/settings/setJail"), ("del", "jail/settings/delJail")])) (.str "jail") .null
    (.obj [("name", .str "web")])

def jailChange : Change where
  id := 1
  tenantId := 0
  deviceId := 1
  kind := "catalog_setting"
  operation := "set"
  target := "jail"
  payload := jailPayload [jailAddition]
  baselineHash := ""
  status := .applying
  sweepAttempts := 0
  revertsChangeId := none
  scheduledAt := none
  appliedAt := none
  result := .null
  preApplySnapshotId := some 1
  createdAt := 0

/-- The addition is saved and the reload is answered with an error: the result
with the new uuid is not kept, and the inverse has nothing to delete. -/
def strayJail : CatalogRevert jailBox emptyConfigEnv where
  model := jailModel
  described := jailBox_describes
  body := jailEdit
  scalars_nodup := List.nodup_nil
  payload := jailPayload [jailAddition]
  built := by decide +kernel
  before := noJails
  dryRun := false
  mishap := some ⟨1, false, .error (.apiError 500 "reconfigure"), nofun⟩
  outcome := .error (.opnsense (.apiError 500 "reconfigure"))
  after := noJails.addRow "jails" [("name", .str "web")]
  sent := 2
  applied := rfl
  change := jailChange
  isCatalog := rfl
  carries := rfl
  now := 0
  row := { jailChange with status := .failed, result := .obj [("error", .str "apply failed")] }
  recorded := rfl
  snapshotXml := some "<opnsense/>"
  snapshot := ⟨"<opnsense/>", .mk "opnsense" [] "" [], rfl, rfl, nofun, fun _ => rfl⟩
  operation := "set"
  target := .str "jail"
  inverse := jailPayload []
  inverted := by decide +kernel
  result := .ok (.obj [("dry_run", .bool false), ("scalars", .null), ("grids", .arr [])])
  final := noJails.addRow "jails" [("name", .str "web")]
  sentBack := 0
  reverted := rfl

theorem strayJail_not_restored : ¬ strayJail.before.Restores strayJail.final := by
  intro h
  have hlen := h.rows.same.length_eq
  cases hlen

def addedJail : Json :=
  .obj [("dry_run", .bool false), ("scalars", .null),
    ("grids", .arr [.obj [("dry_run", .bool false), ("op", .str "add"), ("result", savedAs "a")]])]

def jailRemoval : Json :=
  gridEntry "del" (.obj (strDict [("add", "jail/settings/addJail"),
    ("set", "jail/settings/setJail"), ("del", "jail/settings/delJail")])) (.str "jail") (.str "a")
    .null

/-- The same addition without a failure: the inverse deletes the row. -/
def tidyJail : CatalogRevert jailBox emptyConfigEnv :=
  { strayJail with
    mishap := none
    outcome := .ok addedJail
    applied := rfl
    row := { jailChange with status := .applied, appliedAt := some 0, result := addedJail }
    recorded := rfl
    inverse := jailPayload [jailRemoval]
    inverted := by decide +kernel
    result := .ok (.obj [("dry_run", .bool false), ("scalars", .null),
      ("grids", .arr [.obj [("dry_run", .bool false), ("op", .str "del"),
        ("result", deleted true)]])])
    final := (noJails.addRow "jails" [("name", .str "web")]).delRow "jails" "a"
    sentBack := 2
    reverted := rfl }

example : tidyJail.before.Restores tidyJail.final := ⟨rfl, nofun, .refl _⟩

end Opngms
