/-
Opngms/CatalogRun.lean

A run of `_apply_catalog_setting` against a box: the scalars in one partial
`set`, the grid operations one by one, one reload at the end.

Main result: **`play_applyCatalogSetting`**, which says how far a live run gets
when a request may fail, what the box is then, and what the run returns.
-/
import Opngms.GridScript

namespace Opngms

open Appliance

variable {A : Appliance}

/-! ### The whole applier -/

/-- The entries of a `catalog_setting` payload that the applier reads. -/
structure CatalogPayload (payload : Dict) (setPath reconfigurePath root : String)
    (scalars : List (String × String)) (grids : List Json) : Prop where
  setPath : Dict.get? payload "set_path" = some (.str setPath)
  reconfigurePath : Dict.get? payload "reconfigure_path" = some (.str reconfigurePath)
  root : Dict.get? payload "model_root" = some (.str root)
  scalars : Dict.get? payload "scalars" = some (.obj (strDict scalars))
  grids : Dict.get? payload "grids" = some (.arr grids)

def firstFails (m : Option Mishap) (scalars : List (String × String)) : Bool :=
  !scalars.isEmpty && (mishapAt m 0).isSome

def firstGrid (scalars : List (String × String)) : Nat := if scalars.isEmpty then 0 else 1

/-- The scalars reach the box. -/
def scalarsSet (m : Option Mishap) (scalars : List (String × String)) : Bool :=
  !scalars.isEmpty &&
    match mishapAt m 0 with
    | some h => h.carriedOut
    | none => true

/-- The reload at the end is answered, if there is one. -/
def reloads (m : Option Mishap) (scalars : List (String × String)) (script : List RowEdit) : Bool :=
  (scalars.isEmpty && script.isEmpty) ||
    match mishapAt m (firstGrid scalars + script.length) with
    | some h => h.answer.isOk
    | none => true

/-- The grid operations that are carried out. -/
def ranOf (ν : Supply String) (m : Option Mishap) (scalars : List (String × String))
    (S : RowStore String String Fields) (script : List RowEdit) : List RowEdit :=
  if firstFails m scalars then [] else carried ν m (firstGrid scalars) S script

/-- Everything is carried out and answered. -/
def completes (ν : Supply String) (m : Option Mishap) (scalars : List (String × String))
    (S : RowStore String String Fields) (script : List RowEdit) : Bool :=
  !firstFails m scalars && whole ν m (firstGrid scalars) S script && reloads m scalars script

section Applier

variable {m : Option Mishap} {payload : Dict} {setPath reconfigurePath root : String}
  {scalars : List (String × String)} {grids : List Json} {es : List RowEdit}

theorem applyCatalogSetting_live (op : String)
    (hp : CatalogPayload payload setPath reconfigurePath root scalars grids) :
    applyCatalogSetting op payload false =
      (if !scalars.isEmpty then applyScalars payload (.obj (strDict scalars)) false
        else Dialogue.pure Json.null).bind fun r =>
      (applyGrids false grids).bind fun rs =>
      (if !scalars.isEmpty || !grids.isEmpty then reconfigureModel (.str reconfigurePath)
        else Dialogue.pure Json.null).bind fun _ =>
      Dialogue.pure (Json.obj [("dry_run", .bool false), ("scalars", r), ("grids", .arr rs)]) := by
  have hsc : Dict.getD payload "scalars" .null = .obj (strDict scalars) := by
    rw [Dict.getD, hp.scalars, Option.getD_some]
  have hgr : Dict.getD payload "grids" .null = .arr grids := by
    rw [Dict.getD, hp.grids, Option.getD_some]
  have hre : Dict.item payload "reconfigure_path" = .ok (.str reconfigurePath) := by
    rw [Dict.item, hp.reconfigurePath]
  have htr : (Json.obj (strDict scalars)).truthy = !scalars.isEmpty := by
    cases scalars <;> rfl
  have htg : (Json.arr grids).truthy = !grids.isEmpty := rfl
  simp only [applyCatalogSetting, hsc, hgr, hre, Json.orElse_obj, Json.orElse_arr, htr, htg, Json.iterate,
    builtin, Bool.not_false, Bool.true_and]
  rfl

variable {S : Configuration A} {d : Dict}

theorem scalarsRequest_ok (hp : CatalogPayload payload setPath reconfigurePath root scalars grids)
    (hset : safePath setPath = true) :
    scalarsRequest payload (.obj (strDict scalars)) =
      ((unflatten (strDict scalars)).mapError Raised.builtin).map fun d =>
        .modelSet setPath root (.obj d) := by
  have h₁ : Dict.item payload "set_path" = .ok (.str setPath) := by
    rw [Dict.item, hp.setPath]
  have h₂ : Dict.item payload "reconfigure_path" = .ok (.str reconfigurePath) := by
    rw [Dict.item, hp.reconfigurePath]
  have h₃ : Dict.item payload "model_root" = .ok (.str root) := by
    rw [Dict.item, hp.root]
  rw [scalarsRequest, h₁, h₂, h₃]
  show settingRequest (.str setPath) (.str reconfigurePath) (.str root) (.obj (strDict scalars)) false = _
  rw [settingRequest, safeEndpoint_ok hset]
  cases hu : unflatten (strDict scalars) with
  | error e => simp [Json.items, Except.mapError, bind, Except.bind, hu, Except.map]
  | ok d => simp [Json.items, Except.mapError, bind, Except.bind, hu, Except.map, Json.asKey, pure,
      Except.pure]

theorem play_applyScalars (hp : CatalogPayload payload setPath reconfigurePath root scalars grids)
    (hset : safePath setPath = true) (hd : unflatten (strDict scalars) = .ok d)
    (hne : scalars.isEmpty = false) :
    ∃ z S', (applyScalars payload (.obj (strDict scalars)) false).play (serve m) (S, 0) =
        some (z, S', 1) ∧
      S'.store = S.store ∧
      S'.scalars = (if scalarsSet m scalars then A.assign S.scalars (.obj d) else S.scalars) ∧
      (firstFails m scalars = false → ∃ r, z = .ok r) ∧
      (firstFails m scalars = true → ∃ x, z = .error (.opnsense x)) := by
  have hlive : applyScalars payload (.obj (strDict scalars)) false =
      (checked (.modelSet setPath root (.obj d)) "setting").bind fun res =>
        .pure (.obj [("dry_run", .bool false), ("result", res)]) := by
    rw [applyScalars_live, scalarsRequest_ok hp hset, hd, checked_bind]
    rfl
  rw [hlive]
  cases hm : mishapAt m 0 with
  | some h =>
    have hx : exchange m S 0 (.modelSet setPath root (.obj d)) =
        (h.answer, if h.carriedOut then (respond S (.modelSet setPath root (.obj d))).2 else S) :=
      exchange_mishap hm _
    obtain ⟨x, hplay⟩ := play_checked_error (.modelSet setPath root (.obj d)) "setting" fun j hj =>
      h.fails j ((congrArg Prod.fst hx).symm.trans hj)
    refine ⟨_, _, Dialogue.play_bind_error hplay, ?_, ?_, fun hf => ?_, fun _ => ⟨x, rfl⟩⟩
    · rw [hx]
      cases h.carriedOut <;> rfl
    · rw [hx, scalarsSet, hne, hm]
      cases hc : h.carriedOut <;> simp [hc, respond]
    · simp [firstFails, hne, hm] at hf
  | none =>
    have hx : exchange m S 0 (.modelSet setPath root (.obj d)) =
        respond S (.modelSet setPath root (.obj d)) := exchange_served hm _
    have hplay := play_checked_ok (.modelSet setPath root (.obj d)) "setting"
      (congrArg Prod.fst hx) rfl
    refine ⟨_, _, Dialogue.play_bind_ok hplay, ?_, ?_, fun _ => ⟨_, rfl⟩, fun hf => ?_⟩
    · rw [hx]
      rfl
    · rw [hx, scalarsSet, hne, hm]
      rfl
    · simp [firstFails, hm] at hf

theorem play_firstStep (hp : CatalogPayload payload setPath reconfigurePath root scalars grids)
    (hset : safePath setPath = true)
    (hd : scalars.isEmpty = false → unflatten (strDict scalars) = .ok d) :
    ∃ z S', (if !scalars.isEmpty then applyScalars payload (.obj (strDict scalars)) false
        else Dialogue.pure Json.null).play (serve m) (S, 0) = some (z, S', firstGrid scalars) ∧
      S'.store = S.store ∧
      S'.scalars = (if scalarsSet m scalars then A.assign S.scalars (.obj d) else S.scalars) ∧
      (firstFails m scalars = false → ∃ r, z = .ok r) ∧
      (firstFails m scalars = true → ∃ x, z = .error (.opnsense x)) := by
  cases hne : scalars.isEmpty with
  | true =>
    have hf : firstFails m scalars = false := by simp [firstFails, hne]
    refine ⟨.ok .null, S, ?_, rfl, ?_, fun _ => ⟨_, rfl⟩, fun h => ?_⟩
    · simp [firstGrid, hne, Dialogue.play]
    · simp [scalarsSet, hne]
    · rw [hf] at h
      cases h
  | false =>
    have hn : firstGrid scalars = 1 := by simp [firstGrid, hne]
    rw [hn]
    exact play_applyScalars hp hset (hd hne) hne

/-- The reload, if anything was sent; it leaves the configuration. -/
theorem play_reload {n : Nat} (hre : safePath reconfigurePath = true)
    (hlen : grids.length = es.length) (hn : n = firstGrid scalars + es.length) :
    ∃ z n', (if !scalars.isEmpty || !grids.isEmpty then reconfigureModel (.str reconfigurePath)
        else Dialogue.pure Json.null).play (serve m) (S, n) = some (z, S, n') ∧
      (reloads m scalars es = true → ∃ r, z = .ok r) ∧
      (reloads m scalars es = false → ∃ x, z = .error (.opnsense x)) := by
  have hempty : grids.isEmpty = es.isEmpty := by
    cases grids <;> cases es <;> first | rfl | cases hlen
  cases hnone : scalars.isEmpty && es.isEmpty with
  | true =>
    -- nothing was asked for, so nothing is reloaded
    obtain ⟨h₁, h₂⟩ := Bool.and_eq_true_iff.mp hnone
    refine ⟨.ok .null, n, ?_, fun _ => ⟨_, rfl⟩, fun h => ?_⟩
    · simp [h₁, hempty, h₂, Dialogue.play]
    · simp [reloads, hnone] at h
  | false =>
    have hsend : (!scalars.isEmpty || !grids.isEmpty) = true := by
      rw [hempty, ← Bool.not_and, hnone]
      rfl
    -- a reload changes no row, however it ends
    have hplay : (reconfigureModel (.str reconfigurePath)).play (serve m) (S, n) =
        some (received (exchange m S n (.modelReconfigure reconfigurePath)).1, S, n + 1) := by
      have hpost := play_post (A := A) (m := m) (S := S) (n := n) (.modelReconfigure reconfigurePath)
      have hkeep : (exchange m S n (.modelReconfigure reconfigurePath)).2 = S := by
        cases hm : mishapAt m n with
        | none => rw [exchange_served hm, respond]
        | some h =>
          rw [exchange_mishap hm]
          cases h.carriedOut <;> rfl
      rw [hkeep] at hpost
      rw [reconfigureModel, safeEndpoint_ok hre]
      exact hpost
    rw [if_pos hsend]
    refine ⟨_, n + 1, hplay, ?_, ?_⟩
    · intro h
      rw [reloads, hnone, Bool.false_or, ← hn] at h
      cases hm : mishapAt m n with
      | none => exact ⟨_, by rw [exchange_served hm]; rfl⟩
      | some h' =>
        rw [hm] at h
        replace h : h'.answer.isOk = true := h
        rw [exchange_mishap hm]
        cases ha : h'.answer with
        | ok j => exact ⟨j, rfl⟩
        | error e =>
          rw [ha] at h
          cases h
    · intro h
      rw [reloads, hnone, Bool.false_or, ← hn] at h
      cases hm : mishapAt m n with
      | none =>
        rw [hm] at h
        cases h
      | some h' =>
        rw [hm] at h
        replace h : h'.answer.isOk = false := h
        rw [exchange_mishap hm]
        cases ha : h'.answer with
        | ok j =>
          rw [ha] at h
          cases h
        | error e => exact ⟨e, rfl⟩

/-- **A run of the applier**: the scalars, then the script as far as it is
carried out, then the reload. -/
theorem play_applyCatalogSetting (op : String)
    (hp : CatalogPayload payload setPath reconfigurePath root scalars grids)
    (hset : safePath setPath = true) (hre : safePath reconfigurePath = true)
    (hd : scalars.isEmpty = false → unflatten (strDict scalars) = .ok d)
    (hM : List.Forall₂ (Means A) grids es) :
    ∃ z S' n', (applyCatalogSetting op payload false).play (serve m) (S, 0) = some (z, S', n') ∧
      S'.store = S.store.edits A.uuids (ranOf A.uuids m scalars S.store es) ∧
      S'.scalars = (if scalarsSet m scalars then A.assign S.scalars (.obj d) else S.scalars) ∧
      (completes A.uuids m scalars S.store es = true → ∃ r rs, z = .ok (.obj
        [("dry_run", .bool false), ("scalars", r), ("grids", .arr rs)]) ∧
        Links es rs (created A.uuids S.store.issued es)) ∧
      (completes A.uuids m scalars S.store es = false → ∃ x, z = .error (.opnsense x)) := by
  rw [applyCatalogSetting_live op hp]
  obtain ⟨z₀, S₁, hfirst, hst₁, hsc₁, hok₀, herr₀⟩ := play_firstStep (m := m) (S := S) hp hset hd
  cases hf : firstFails m scalars with
  | true =>
    -- the request for the scalars fails, and no grid operation is sent
    obtain ⟨x, rfl⟩ := herr₀ hf
    refine ⟨_, S₁, _, Dialogue.play_bind_error hfirst, ?_, hsc₁, fun hc => ?_, fun _ => ⟨x, rfl⟩⟩
    · rw [hst₁, ranOf, hf]
      rfl
    · simp [completes, hf] at hc
  | false =>
    obtain ⟨r, rfl⟩ := hok₀ hf
    rw [Dialogue.play_bind_ok hfirst]
    obtain ⟨z₁, S₂, n₂, hgrids, hsc₂, hst₂, hwhole, hbroken⟩ :=
      play_applyGrids (m := m) (S := S₁) (n := firstGrid scalars) hM
    rw [hst₁] at hst₂ hwhole hbroken
    have hran : ranOf A.uuids m scalars S.store es =
        carried A.uuids m (firstGrid scalars) S.store es := by
      rw [ranOf, hf]
      rfl
    cases hw : whole A.uuids m (firstGrid scalars) S.store es with
    | false =>
      -- the script is cut short, and the reload is not reached
      obtain ⟨x, rfl⟩ := hbroken hw
      refine ⟨_, S₂, n₂, Dialogue.play_bind_error hgrids, ?_, hsc₂.trans hsc₁, fun hc => ?_,
        fun _ => ⟨x, rfl⟩⟩
      · rw [hran]
        exact hst₂
      · simp [completes, hw] at hc
    | true =>
      obtain ⟨hn₂, rs, rfl, hlinks⟩ := hwhole hw
      rw [Dialogue.play_bind_ok hgrids]
      obtain ⟨z₂, n₃, hreload, hok₂, herr₂⟩ :=
        play_reload (m := m) (S := S₂) hre hM.length_eq hn₂
      have hcomp : completes A.uuids m scalars S.store es = reloads m scalars es := by
        rw [completes, hf, hw]
        rfl
      cases hr : reloads m scalars es with
      | true =>
        obtain ⟨r₂, rfl⟩ := hok₂ hr
        refine ⟨_, S₂, n₃, Dialogue.play_bind_ok hreload, ?_, hsc₂.trans hsc₁,
          fun _ => ⟨r, rs, rfl, hlinks⟩, fun hc => ?_⟩
        · rw [hran]
          exact hst₂
        · rw [hcomp, hr] at hc
          cases hc
      | false =>
        -- everything is stored, and only the reload fails
        obtain ⟨x, rfl⟩ := herr₂ hr
        refine ⟨_, S₂, n₃, Dialogue.play_bind_error hreload, ?_, hsc₂.trans hsc₁, fun hc => ?_,
          fun _ => ⟨x, rfl⟩⟩
        · rw [hran]
          exact hst₂
        · rw [hcomp, hr] at hc
          cases hc

end Applier

/-! ### A dry run -/

section DryRun

variable {σ : Type} (serve : σ → (r : Request) → Option (Answer × σ)) (s : σ) {model : Model}

theorem play_applyGrids_dry {opps : List CatalogGridOpIn} {gs : List Json} (hA : A.Describes model)
    (hg : gridPayloads model opps = .ok gs) :
    ∃ rs, (applyGrids true gs).play serve s = some (.ok rs, s) ∧
      Links (opps.map (editOf A model)) rs [] := by
  induction opps generalizing gs with
  | nil =>
    obtain rfl := Except.ok.inj hg
    exact ⟨[], rfl, trivial⟩
  | cons opp opps ih =>
    obtain ⟨g, hg₀, hg⟩ := except_bind_ok hg
    obtain ⟨gs, hgs, hg⟩ := except_bind_ok hg
    obtain rfl := Except.ok.inj hg
    obtain ⟨eps, rfl, -, -, -⟩ := gridPayload_entry hA hg₀
    obtain ⟨rs, hplay, hlinks⟩ := ih hgs
    refine ⟨.obj [("dry_run", .bool true), ("op", .str opp.op.text),
      ("row", .str (lastSegment opp.grid)), ("uuid", optStr opp.uuid)] :: rs, ?_, ?_, hlinks⟩
    · exact Dialogue.play_bind_ok hplay
    · exact fun _ _ _ => rfl

theorem play_dryRun {payload : Dict} {setPath reconfigurePath root : String} {gs : List Json}
    {opps : List CatalogGridOpIn} (hA : A.Describes model) (op : String)
    (hp : CatalogPayload payload setPath reconfigurePath root [] gs)
    (hg : gridPayloads model opps = .ok gs) :
    ∃ rs, (applyCatalogSetting op payload true).play serve s =
        some (.ok (.obj [("dry_run", .bool true), ("scalars", .null), ("grids", .arr rs)]), s) ∧
      Links (opps.map (editOf A model)) rs [] := by
  obtain ⟨rs, hplay, hlinks⟩ := play_applyGrids_dry serve s hA hg
  have hsc : Dict.getD payload "scalars" .null = .obj (strDict []) := by
    rw [Dict.getD, hp.scalars, Option.getD_some]
  have hgr : Dict.getD payload "grids" .null = .arr gs := by
    rw [Dict.getD, hp.grids, Option.getD_some]
  refine ⟨rs, ?_, hlinks⟩
  simp only [applyCatalogSetting, hsc, hgr, Json.orElse_obj, Json.orElse_arr, Json.iterate, builtin,
    Bool.not_true, Bool.false_and]
  exact Dialogue.play_bind_ok hplay

end DryRun

end Opngms
