/-
Opngms/Confinement.lean

Where a catalog change can write.

A `catalog_setting` carries the endpoints it writes to in its payload, so its
reach is whatever its payload says.  `create_catalog_change` fills them in from
the catalog of the device and refuses the modules of `CATALOG_DENYLIST`;
`revert_config_change` copies them from the reverted change.  Two gaps let an
unconfined change in: `create_config_change` takes the kind `catalog_setting`
with any payload, and the denylist is compared with the catalog key, which
`build_catalog` has qualified where the module has several models.

Main result: **`catalog_confined`**, over every run that uses neither gap.
-/
import Opngms.Proposals
import Opngms.ApplyOnce

namespace Opngms

variable {Box : Type}

/-! ### Confined payloads -/

/-- The endpoints that the payload of a catalog change names are those of the
model. -/
structure ConfinedTo (model : Model) (payload : Dict) : Prop where
  setPath : Dict.get? payload "set_path" = some (.str (endpointOf model.endpoints "set"))
  reconfigurePath :
    Dict.get? payload "reconfigure_path" = some (.str (endpointOf model.endpoints "reconfigure"))
  xmlPath : Dict.get? payload "xml_path" = some (.str model.xmlPath)
  grids : ∃ gs, Dict.get? payload "grids" = some (.arr gs) ∧ ∀ g ∈ gs, ∃ entry, g = .obj entry ∧
    ∃ gdef ∈ model.grids, Dict.get? entry "endpoints" = some (.obj (strDict gdef.endpoints))

/-- A proposal that, if it is a catalog change, is confined to a model of the
device's catalog outside of the denylist, by its key and by its id. -/
def Confined (env : Env) (devices : DeviceId → Option Device) (p : Proposal) : Prop :=
  p.kind = "catalog_setting" →
    ∃ device key model, devices p.deviceId = some device ∧
      catalogModel env device key = some model ∧ key ∉ catalogDenylist ∧
      model.id ∉ catalogDenylist ∧ ConfinedTo model p.payload

theorem gridPayload_confined {model : Model} {opp : CatalogGridOpIn} {g : Json}
    (h : gridPayload model opp = .ok g) : ∃ entry, g = .obj entry ∧
      ∃ gdef ∈ model.grids, Dict.get? entry "endpoints" = some (.obj (strDict gdef.endpoints)) := by
  unfold gridPayload at h
  split at h
  · cases h
  · rename_i gdef hfind
    have hmem : gdef ∈ model.grids := List.mem_reverse.mp (List.mem_of_find?_eq_some hfind)
    split at h
    · cases h
    · split at h
      · cases h
      · obtain rfl := Except.ok.inj h
        exact ⟨_, rfl, gdef, hmem, by simp⟩

theorem gridPayloads_confined {model : Model} {opps : List CatalogGridOpIn} {gs : List Json}
    (h : gridPayloads model opps = .ok gs) : ∀ g ∈ gs, ∃ entry, g = .obj entry ∧
      ∃ gdef ∈ model.grids, Dict.get? entry "endpoints" = some (.obj (strDict gdef.endpoints)) := by
  induction opps generalizing gs with
  | nil =>
    obtain rfl := Except.ok.inj h
    simp
  | cons opp opps ih =>
    obtain ⟨g, hg, h⟩ := except_bind_ok h
    obtain ⟨gs', hgs, h⟩ := except_bind_ok h
    obtain rfl := Except.ok.inj h
    exact List.forall_mem_cons.mpr ⟨gridPayload_confined hg, ih hgs⟩

theorem buildPayload_confined {model : Model} {body : CatalogChangeIn} {payload : Dict}
    (h : buildPayload model body = .ok payload) : ConfinedTo model payload := by
  simp only [buildPayload] at h
  split at h
  · cases h
  · obtain ⟨grids, hgrids, h⟩ := except_bind_ok h
    split at h
    · cases h
    · obtain rfl := Except.ok.inj h
      exact ⟨by simp, by simp, by simp, grids, by simp, gridPayloads_confined hgrids⟩

/-! ### Inverses -/

theorem invertGridOp_endpoints {root : Option Elem} {path : List String} {entry : Dict}
    {res : Json} {gs : List Json} (h : invertGridOp root path (.obj entry) res = .ok gs) :
    ∀ g ∈ gs, ∃ entry', g = .obj entry' ∧
      Dict.get? entry' "endpoints" = some (Dict.getD entry "endpoints" (.obj [])) := by
  obtain ⟨op, -, h⟩ := except_bind_ok h
  obtain ⟨endpoints, hends, h⟩ := except_bind_ok h
  obtain ⟨row, -, h⟩ := except_bind_ok h
  obtain ⟨uuid, -, h⟩ := except_bind_ok h
  obtain rfl : _ = endpoints := Except.ok.inj hends
  split at h
  · -- a deletion
    split at h
    · cases h
    · obtain rfl := Except.ok.inj h
      simp
  · split at h
    · -- a modification
      split at h
      · cases h
      · obtain rfl := Except.ok.inj h
        simp
    · split at h
      · -- an addition
        obtain ⟨new, -, h⟩ := except_bind_ok h
        split at h <;> obtain rfl := Except.ok.inj h <;> simp
      · obtain rfl := Except.ok.inj h
        simp

theorem invertGridOps_endpoints {root : Option Elem} {path : List String} {Allowed : Json → Prop}
    {fwds results gs : List Json}
    (hfwds : ∀ g ∈ fwds, ∃ entry : Dict, g = .obj entry ∧
      ∃ eps, Dict.get? entry "endpoints" = some eps ∧ Allowed eps)
    (h : invertGridOps root path fwds results = .ok gs) :
    ∀ g ∈ gs, ∃ entry : Dict, g = .obj entry ∧
      ∃ eps, Dict.get? entry "endpoints" = some eps ∧ Allowed eps := by
  induction fwds generalizing results gs with
  | nil =>
    obtain rfl := Except.ok.inj h
    simp
  | cons fwd fwds ih =>
    obtain ⟨g, hg, h⟩ := except_bind_ok h
    obtain ⟨gs', hgs, h⟩ := except_bind_ok h
    obtain rfl := Except.ok.inj h
    obtain ⟨⟨entry, rfl, eps, heps, hok⟩, hrest⟩ := List.forall_mem_cons.mp hfwds
    intro g' hg'
    rcases List.mem_append.mp hg' with hg' | hg'
    · obtain ⟨entry', rfl, he⟩ := invertGridOp_endpoints hg g' hg'
      refine ⟨entry', rfl, eps, ?_, hok⟩
      rw [he, Dict.getD, heps]
      rfl
    · exact ih hrest hgs g' hg'

theorem invertCatalogSetting_confined {env : Env} {change : Change} {snapshotXml : Option String}
    {operation : String} {target : Json} {payload : Dict} {model : Model}
    (hc : ConfinedTo model change.payload)
    (h : invertCatalogSetting env change snapshotXml = .ok (operation, target, payload)) :
    ConfinedTo model payload := by
  obtain ⟨hset, hrec, hxml, gs, hgs, hends⟩ := hc
  unfold invertCatalogSetting at h
  obtain ⟨fwds, hfwds, h⟩ := except_bind_ok h
  obtain ⟨result, -, h⟩ := except_bind_ok h
  obtain ⟨results, -, h⟩ := except_bind_ok h
  obtain ⟨needs, -, h⟩ := except_bind_ok h
  obtain ⟨root, -, h⟩ := except_bind_ok h
  obtain ⟨flat, -, h⟩ := except_bind_ok h
  obtain ⟨grids, hgrids, h⟩ := except_bind_ok h
  have hpay := (Prod.mk.inj (Prod.mk.inj (Except.ok.inj h)).2).2
  subst hpay
  -- the forward operations are the listed ones, or none
  have hlist : fwds = gs := by
    have hfwds := mapError_ok hfwds
    rw [Dict.getD, hgs, Option.getD_some, Json.orElse_arr, Json.iterate] at hfwds
    exact (Except.ok.inj hfwds).symm
  subst hlist
  refine ⟨by simp [Dict.getD, hset], by simp [Dict.getD, hrec], by simp [Dict.getD, hxml], grids,
    by simp, ?_⟩
  have hforward : ∀ g ∈ fwds, ∃ entry : Dict, g = .obj entry ∧
      ∃ eps, Dict.get? entry "endpoints" = some eps ∧
        ∃ gdef ∈ model.grids, eps = .obj (strDict gdef.endpoints) := by
    intro g hg
    obtain ⟨entry, rfl, gdef, hmem, heps⟩ := hends g hg
    exact ⟨entry, rfl, _, heps, gdef, hmem, rfl⟩
  intro g hg
  obtain ⟨entry, rfl, eps, heps, gdef, hmem, rfl⟩ := invertGridOps_endpoints hforward hgrids g hg
  exact ⟨entry, rfl, gdef, hmem, heps⟩

theorem inverseGood_confined (env : Env) (devices : DeviceId → Option Device) :
    InverseGood env (Confined env devices) := by
  intro change snapshotXml operation text payload baseline hgood h hkind
  have hkind : change.kind = "catalog_setting" := hkind
  obtain ⟨device, key, model, hdev, hmodel, hkey, hid, hconf⟩ := hgood hkind
  refine ⟨device, key, model, hdev, hmodel, hkey, hid, ?_⟩
  have h : invertCatalogSetting env change snapshotXml = .ok (operation, .str text, payload) := by
    simpa [buildInverse, inverseBuilders, List.lookup_cons, hkind] using h
  exact invertCatalogSetting_confined hconf h

/-! ### Every run that uses neither gap -/

/-- The request, if the event is one, does not open a gap.  An accepted body of
`create_config_change` does not name the kind `catalog_setting` itself; a key that passes the
denylist in `create_catalog_change` does not lead to a model whose id is on it.  A request that
is refused opens none: for its body, its device, its key or its payload. -/
def CallConfined (env : Env) (sys : Sys Box) : Event → Prop
  | .call _ (.createConfigChange tenantId deviceId body) =>
    body.valid = true → ∀ device ∈ sys.world.devices deviceId, device.tenantId = tenantId →
      body.kind ≠ "catalog_setting"
  | .call _ (.createCatalogChange tenantId deviceId body) =>
    catalogDenylist.contains body.modelId = false →
      ∀ device ∈ sys.world.devices deviceId, device.tenantId = tenantId →
        ∀ model ∈ catalogModel env device body.modelId, (buildPayload model body).isOk = true →
          model.id ∉ catalogDenylist
  | _ => True

instance (env : Env) (sys : Sys Box) : (e : Event) → Decidable (CallConfined env sys e)
  | .call _ (.createConfigChange tenantId deviceId body) =>
    inferInstanceAs (Decidable (body.valid = true → ∀ device ∈ sys.world.devices deviceId,
      device.tenantId = tenantId → body.kind ≠ "catalog_setting"))
  | .call _ (.createCatalogChange tenantId deviceId body) =>
    inferInstanceAs (Decidable (catalogDenylist.contains body.modelId = false →
      ∀ device ∈ sys.world.devices deviceId, device.tenantId = tenantId →
        ∀ model ∈ catalogModel env device body.modelId, (buildPayload model body).isOk = true →
          model.id ∉ catalogDenylist))
  | .call _ (.scheduleConfigChange ..) | .call _ (.cancelConfigChange ..)
  | .call _ (.revertConfigChange ..) | .dequeue .. | .sweep .. | .run .. | .tick
  | .setLivePush .. => isTrue trivial

theorem CallConfined.callGood {env : Env} {sys : Sys Box} {j : Nat} {call : Call}
    (h : CallConfined env sys (.call j call)) :
    CallGood env sys.world.devices (Confined env sys.world.devices) call := by
  cases call with
  | createConfigChange tenantId deviceId body =>
    exact fun device baseline hvalid hdev htenant hkind =>
      absurd hkind (h hvalid device hdev htenant)
  | createCatalogChange tenantId deviceId body =>
    intro device model payload baseline hdev htenant hdeny hmodel hpay _
    have hid : model.id ∉ catalogDenylist :=
      h hdeny device hdev htenant model hmodel (by rw [hpay]; rfl)
    exact ⟨device, body.modelId, model, hdev, hmodel, by simpa using hdeny, hid,
      buildPayload_confined hpay⟩
  | _ => trivial

/-- **Catalog confinement.**  In every run whose requests open no gap, every
catalog change is confined to a model of the catalog of its device outside of
the denylist. -/
theorem catalog_confined (env : Env) (B : BoxModel Box) {init last : Sys Box} {es : List Event}
    (h₀ : AtRest (Confined env init.world.devices) init)
    (hrun : runAll (Sys.step env B) init es = some last)
    (hcalls : Along (Sys.step env B) (CallConfined env) init es) :
    ∀ id row, last.world.changes id = some row →
      Confined env last.world.devices row.proposal := by
  have hinv : ProposalInv env init.world.devices (Confined env init.world.devices)
      (fun _ => Confined env init.world.devices) last := by
    refine runAll_invariant (fun sys e sys' h hcall hstep => ?_) h₀.proposalInv hcalls hrun
    refine h.step (fun _ _ hg => hg) (inverseGood_confined env _) (fun j call he => ?_)
      (fun row hrow => ?_) hstep
    · subst he
      rw [← h.devices]
      exact hcall.callGood
    · -- what is inserted is what the discipline allows
      cases e with
      | run i =>
        simp only [Sys.inserting] at hrow
        split at hrow
        · rename_i ht
          obtain rfl := Option.mem_some.mp hrow
          exact (h.follows i _ ht).1.1
        · cases hrow
      | _ => cases hrow
  intro id row hrow
  rw [hinv.devices]
  exact (hinv.rows.committed id row hrow).2

/-! ### The two gaps -/

/-- Two models of the module `interfaces` and one of another module. -/
def catalogModels : List Model :=
  [{ id := "interfaces", modelRoot := "interfaces", xmlPath := "vlans"
     endpoints := [("set", "interfaces/vlan_settings/set"),
       ("reconfigure", "interfaces/vlan_settings/reconfigure")]
     fields := [{ path := "general.enabled" }], grids := [] },
   { id := "interfaces", modelRoot := "interfaces", xmlPath := "virtualip"
     endpoints := [("set", "interfaces/vip_settings/set"),
       ("reconfigure", "interfaces/vip_settings/reconfigure")]
     fields := [{ path := "general.enabled" }], grids := [] },
   { id := "unbound", modelRoot := "unbound", xmlPath := "OPNsense/unboundplus"
     endpoints := [("set", "unbound/settings/set"),
       ("reconfigure", "unbound/service/reconfigure")]
     fields := [{ path := "general.enabled" }], grids := [] }]

def catalogEnv : Env := { webEnv with coreCatalog := fun _ => some (buildCatalog catalogModels) }

/-- One request for each gap: the kind named outright with endpoints of the
caller's choice, and a model of the denied module under its qualified key. -/
def gapRequests : List Event :=
  .call 1 (.createConfigChange 0 1
    { kind := "catalog_setting", operation := "set"
      payload := [("set_path", .str "core/system/set"),
        ("reconfigure_path", .str "core/system/reboot"), ("model_root", .str "system"),
        ("scalars", .obj [("general.enabled", .str "1")])] }) :: steps 1 5 ++
  .call 2 (.createCatalogChange 0 1
    { modelId := "interfaces.vlans", scalars := [("general.enabled", "1")], grids := [] }) ::
    steps 2 5

/-- Both changes are stored, and neither is confined. -/
theorem gapRequests_unconfined :
    ∃ last, runAll (Sys.step catalogEnv webBox) (resting [] [] false) gapRequests = some last ∧
      ∀ id ∈ [1, 2], ∃ row, last.world.changes id = some row ∧
        ¬ Confined catalogEnv last.world.devices row.proposal := by
  have hrows : (runAll (Sys.step catalogEnv webBox) (resting [] [] false) gapRequests).map
      (fun s => [1, 2].map fun id => (s.world.changes id).map fun r =>
        (r.kind, Dict.get? r.payload "set_path")) =
      some [some ("catalog_setting", some (.str "core/system/set")),
        some ("catalog_setting", some (.str "interfaces/vlan_settings/set"))] := by
    decide +kernel
  obtain ⟨last, hrun, hlist⟩ := Option.map_eq_some_iff.mp hrows
  refine ⟨last, hrun, fun id hid => ?_⟩
  -- outside of the denylist the catalog has one set endpoint, and it is neither
  have hset : ∀ kv ∈ buildCatalog catalogModels, kv.2.id ∉ catalogDenylist →
      endpointOf kv.2.endpoints "set" = "unbound/settings/set" := by decide +kernel
  have hrow : ∃ row path, last.world.changes id = some row ∧ row.kind = "catalog_setting" ∧
      Dict.get? row.payload "set_path" = some (.str path) ∧ path ≠ "unbound/settings/set" := by
    simp only [List.map_cons, List.map_nil, List.cons.injEq, Option.map_eq_some_iff,
      Prod.mk.injEq, and_true] at hlist
    obtain ⟨⟨r₁, h₁, hk₁, hp₁⟩, r₂, h₂, hk₂, hp₂⟩ := hlist
    rcases List.mem_cons.mp hid with rfl | hid
    · exact ⟨r₁, _, h₁, hk₁, hp₁, by decide⟩
    · obtain rfl := List.mem_singleton.mp hid
      exact ⟨r₂, _, h₂, hk₂, hp₂, by decide⟩
  obtain ⟨row, path, hrow, hkind, hpath, hne⟩ := hrow
  refine ⟨row, hrow, fun hconf => ?_⟩
  obtain ⟨device, key, model, -, hmodel, -, hmid, hto⟩ := hconf hkind
  have hmem : (key, model) ∈ buildCatalog catalogModels := by
    have hcore : (buildCatalog catalogModels).lookup key = some model := by
      rcases hl : (buildCatalog catalogModels).lookup key with - | m
      · simp [catalogModel, catalogEnv, webEnv, Env.ofDocuments, hl] at hmodel
      · simpa [catalogModel, catalogEnv, hl] using hmodel
    obtain ⟨l₁, l₂, hl, -⟩ := List.lookup_eq_some_iff.mp hcore
    rw [hl]
    simp
  have hpath' : some (Json.str path) = some (.str (endpointOf model.endpoints "set")) :=
    hpath.symm.trans hto.setPath
  exact hne ((Json.str.inj (Option.some.inj hpath')).trans (hset _ hmem hmid))

/-- A catalog change of the other module is stored, and confined. -/
theorem unbound_confined :
    ∃ last row, runAll (Sys.step catalogEnv webBox) (resting [] [] false)
        (.call 1 (.createCatalogChange 0 1
          { modelId := "unbound", scalars := [("general.enabled", "1")], grids := [] }) ::
          steps 1 5) = some last ∧
      last.world.changes 1 = some row ∧ row.kind = "catalog_setting" ∧
      Confined catalogEnv last.world.devices row.proposal := by
  have hrow : (runAll (Sys.step catalogEnv webBox) (resting [] [] false)
      (.call 1 (.createCatalogChange 0 1
        { modelId := "unbound", scalars := [("general.enabled", "1")], grids := [] }) ::
        steps 1 5)).map (fun s => (s.world.changes 1).map Change.kind) =
      some (some "catalog_setting") := by
    decide +kernel
  obtain ⟨last, hrun, hsome⟩ := Option.map_eq_some_iff.mp hrow
  obtain ⟨row, hr, hkind⟩ := Option.map_eq_some_iff.mp hsome
  have h₀ : AtRest (Confined catalogEnv (resting [] [] false).world.devices)
      (resting [] [] false) := by
    refine ⟨fun _ => rfl, fun _ => rfl, fun id r h => ?_, fun _ _ => rfl, fun job h => ?_⟩
    · cases h
    · cases h
  exact ⟨last, row, hrun, hr, hkind,
    catalog_confined catalogEnv webBox h₀ hrun (by decide +kernel) 1 row hr⟩

end Opngms
