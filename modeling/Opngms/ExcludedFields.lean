/-
Opngms/ExcludedFields.lean

The fields that an `opnsense_setting` template may not set (`exclude_fields`).

`setting_kind._validate` refuses a payload one of whose keys is an excluded path.  What is
posted is the nested object that `_unflatten` makes of the payload, and there a field is
reached by other spellings too: a key above it with a nested value, or a key below it.

`unflatten_isSome_iff` says which paths of the nested object hold a value.  Main result:
**`posts_none_iff`**, for every template body, patch and bindings.
-/
import Opngms.ApplyOnce
import Opngms.Scalars
import Opngms.Templates

namespace Opngms

/-! ### The values of a nested object -/

/-- The value at a path of a nested object. -/
def valueUnder : Json → List String → Option Json
  | v, [] => some v
  | .obj kvs, p :: path =>
    match Dict.get? kvs p with
    | some v => valueUnder v path
    | none => none
  | _, _ :: _ => none

@[simp] theorem valueUnder_nil (v : Json) : valueUnder v [] = some v := by
  cases v <;> rfl

theorem valueUnder_obj_cons (kvs : Dict) (p : String) (path : List String) :
    valueUnder (.obj kvs) (p :: path) = (Dict.get? kvs p).bind fun v => valueUnder v path := by
  rw [valueUnder]
  cases Dict.get? kvs p <;> rfl

/-- What an assignment at the path `q` makes of the path `p`: a value at `q` or above is
replaced, and below `q` there are objects. -/
theorem valueUnder_unflattenInto {parts : List String} {last : String} {v : Json}
    {node node' : Dict} (h : unflattenInto parts last v node = .ok node') {p : List String}
    (hp : p ≠ []) :
    (valueUnder (.obj node') p).isSome =
      if parts ++ [last] <+: p then (valueUnder v (p.drop (parts.length + 1))).isSome
      else if p <+: parts ++ [last] then true
      else (valueUnder (.obj node) p).isSome := by
  obtain ⟨s, path, rfl⟩ := List.exists_cons_of_ne_nil hp
  induction parts generalizing node node' s path with
  | nil =>
    obtain rfl := Except.ok.inj h
    rw [valueUnder_obj_cons, Dict.get?_set]
    by_cases hs : last = s
    · subst hs
      simp
    · have hnot : ¬ s :: path <+: [last] := fun hpre =>
        hs (List.cons_prefix_cons.mp hpre).1.symm
      rw [if_neg hs, List.nil_append, if_neg fun hpre => hs (List.cons_prefix_cons.mp hpre).1,
        if_neg hnot, valueUnder_obj_cons]
  | cons part parts ih =>
    -- `kvs` is what stands below `part`, nothing where there was none
    have hbelow : ∀ kvs child : Dict, unflattenInto parts last v kvs = .ok child →
        node' = Dict.set node part (.obj child) →
        (∀ s path, ((Dict.get? node part).bind fun w => valueUnder w (s :: path)) =
          valueUnder (.obj kvs) (s :: path)) →
        (valueUnder (.obj node') (s :: path)).isSome =
          if part :: parts ++ [last] <+: s :: path then
            (valueUnder v ((s :: path).drop (parts.length + 2))).isSome
          else if s :: path <+: part :: parts ++ [last] then true
          else (valueUnder (.obj node) (s :: path)).isSome := by
      rintro kvs child hchild rfl hkvs
      rw [valueUnder_obj_cons, Dict.get?_set]
      by_cases hs : part = s
      · subst hs
        rw [if_pos rfl, Option.bind_some]
        cases path with
        | nil => simp
        | cons t path =>
          rw [ih hchild t path (List.cons_ne_nil _ _), valueUnder_obj_cons node, hkvs]
          simp [List.cons_prefix_cons]
      · have hnot : ¬ s :: path <+: part :: parts ++ [last] := fun hpre =>
          hs (List.cons_prefix_cons.mp hpre).1.symm
        have hnot' : ¬ part :: parts ++ [last] <+: s :: path := fun hpre =>
          hs (List.cons_prefix_cons.mp hpre).1
        rw [if_neg hs, if_neg hnot', if_neg hnot, valueUnder_obj_cons]
    rw [unflattenInto] at h
    cases hget : Dict.get? node part with
    | none =>
      rw [hget] at h
      obtain ⟨child, hchild, h⟩ := except_bind_ok h
      refine hbelow [] child hchild (Except.ok.inj h).symm fun s path => ?_
      rw [hget]
      rfl
    | some w =>
      rw [hget] at h
      cases w with
      | obj kvs =>
        obtain ⟨child, hchild, h⟩ := except_bind_ok h
        refine hbelow kvs child hchild (Except.ok.inj h).symm fun s path => ?_
        rw [hget]
        rfl
      | null => cases h
      | bool b => cases h
      | int n => cases h
      | float r => cases h
      | str s => cases h
      | arr xs => cases h

/-- The entry puts a value at the path: its key is at or below it, or is above it and has a
value that holds the rest of the path. -/
def Reaches (p : List String) (kv : String × Json) : Prop :=
  p <+: splitDots kv.1 ∨
    splitDots kv.1 <+: p ∧ (valueUnder kv.2 (p.drop (splitDots kv.1).length)).isSome

/-- An entry of the payload puts a value at the path, and none after it stands at the path or
above. -/
def Exposed (payload : Dict) (p : List String) : Prop :=
  ∃ before kv after, payload = before ++ kv :: after ∧ Reaches p kv ∧
    ∀ kv' ∈ after, ¬ splitDots kv'.1 <+: p

theorem exposed_concat (payload : Dict) (kv : String × Json) (p : List String) :
    Exposed (payload ++ [kv]) p ↔ Reaches p kv ∨ Exposed payload p ∧ ¬ splitDots kv.1 <+: p := by
  constructor
  · rintro ⟨before, kv', after, heq, hreaches, hafter⟩
    rcases List.eq_nil_or_concat after with rfl | ⟨after, last, rfl⟩
    · obtain ⟨-, hlast⟩ := List.append_inj' heq rfl
      obtain rfl := (List.cons.inj hlast).1
      exact .inl hreaches
    · rw [List.concat_eq_append, ← List.cons_append, ← List.append_assoc] at heq
      obtain ⟨rfl, hlast⟩ := List.append_inj' heq rfl
      obtain rfl := (List.cons.inj hlast).1
      refine .inr ⟨⟨before, kv', after, rfl, hreaches, fun e he => hafter e ?_⟩, hafter kv ?_⟩
      · simp [he]
      · simp
  · rintro (hreaches | ⟨⟨before, kv', after, rfl, hreaches, hafter⟩, hnot⟩)
    · exact ⟨payload, kv, [], rfl, hreaches, fun e he => absurd he List.not_mem_nil⟩
    · refine ⟨before, kv', after ++ [kv], by simp, hreaches, fun e he => ?_⟩
      rcases List.mem_append.mp he with he | he
      · exact hafter e he
      · rw [List.mem_singleton.mp he]
        exact hnot

/-- **The paths that hold a value** in what `_unflatten` makes of a map. -/
theorem unflatten_isSome_iff {payload nested : Dict} (h : unflatten payload = .ok nested)
    {p : List String} (hp : p ≠ []) :
    (valueUnder (.obj nested) p).isSome = true ↔ Exposed payload p := by
  induction payload using List.reverseRecOn generalizing nested with
  | nil =>
    obtain rfl := Except.ok.inj h
    obtain ⟨s, path, rfl⟩ := List.exists_cons_of_ne_nil hp
    constructor
    · intro hsome
      cases hsome
    · rintro ⟨before, kv, after, heq, -⟩
      simp at heq
  | append_singleton payload kv ih =>
    rw [unflatten, List.foldlM_append] at h
    obtain ⟨node, hnode, h⟩ := except_bind_ok h
    obtain ⟨nested', hlast, h⟩ := except_bind_ok h
    obtain rfl := Except.ok.inj h
    rw [valueUnder_unflattenInto hlast hp, splitDots_concat, exposed_concat, ← ih hnode, Reaches]
    have hlen : (splitDots kv.1).dropLast.length + 1 = (splitDots kv.1).length := by
      rw [← congrArg List.length (splitDots_concat kv.1), List.length_append]
      rfl
    rw [hlen]
    by_cases habove : splitDots kv.1 <+: p
    · rw [if_pos habove]
      constructor
      · exact fun hsome => .inl (.inr ⟨habove, hsome⟩)
      · rintro ((hbelow | ⟨-, hsome⟩) | ⟨-, hnot⟩)
        · -- at the path itself
          have heq : p = splitDots kv.1 := hbelow.eq_of_length_le habove.length_le
          rw [heq, List.drop_length, valueUnder_nil]
          rfl
        · exact hsome
        · exact absurd habove hnot
    · rw [if_neg habove]
      by_cases hbelow : p <+: splitDots kv.1
      · simp [hbelow]
      · simp [hbelow, habove]

/-! ### From a template to what is posted -/

section Posting

open Dialogue

variable {Box : Type} {B : BoxModel Box} {w w' : World Box} {i : Nat} {tenantId : TenantId}
  {deviceId : DeviceId} {change : Change} {body bindings : Dict}

theorem createChange_payload {kind operation : String} {target : Json} {payload : Dict}
    (h : (createChange tenantId deviceId kind operation target payload).play
      ((World.server B).serve i) w = some (.ok change, w')) : change.payload = payload := by
  obtain ⟨snap, w₁, -, h⟩ := Dialogue.of_play_bind h
  cases target with
  | str target =>
    have hrow := congrArg (fun z : Option (Except Raised Change × World Box) =>
      z.bind fun a => a.1.toOption.map Change.payload) h
    have hpayload : some payload = some change.payload := hrow
    exact (Option.some.inj hpayload).symm
  | null | bool _ | int _ | float _ | arr _ | obj _ => exact nomatch h

theorem materializeChange_setting
    (h : (materializeChange tenantId deviceId "opnsense_setting" body bindings).play
      ((World.server B).serve i) w = some (.ok change, w')) :
    change.payload = body ∧ validateSetting body = .ok () := by
  obtain ⟨spec, hspec, h⟩ := Dialogue.of_play_ofExcept_bind h
  obtain rfl : ⟨validateSetting, "opnsense_setting", changeOfItem "endpoint_key",
    ["endpoint_key"], none⟩ = spec := Except.ok.inj hspec
  obtain ⟨bound, hbound, h⟩ := Dialogue.of_play_ofExcept_bind h
  obtain rfl : body = bound := Except.ok.inj hbound
  obtain ⟨u, hvalid, h⟩ := Dialogue.of_play_ofExcept_bind h
  obtain ⟨⟨operation, target, payload⟩, hchange, h⟩ := Dialogue.of_play_ofExcept_bind h
  obtain ⟨row, w₁, hrow, h⟩ := Dialogue.of_play_bind h
  obtain ⟨u', w₂, -, h⟩ := Dialogue.of_play_bind h
  obtain ⟨hsame, -⟩ := Prod.mk.inj (Option.some.inj h)
  obtain rfl := Except.ok.inj hsame
  obtain ⟨target', -, hitem⟩ := except_bind_ok hchange
  obtain rfl : body = payload := congrArg (·.2.2) (Except.ok.inj hitem)
  exact ⟨createChange_payload hrow, hvalid⟩

theorem validateSetting_payload (h : validateSetting body = .ok ()) :
    ∃ ep payload, settingEndpoint (settingKey body) = .ok (some ep) ∧
      Dict.getD body "payload" .null = .obj payload ∧
      ∀ field ∈ ep.excludeFields, field ∉ Dict.keys payload := by
  obtain ⟨found, hfound, h⟩ := except_bind_ok h
  have hfound := mapError_ok hfound
  cases found with
  | none => cases h
  | some ep =>
    simp only at h
    split at h
    · rename_i payload hpayload
      refine ⟨ep, payload, hfound, hpayload, fun field hfield hin => ?_⟩
      rw [require] at h
      split at h
      · rename_i hempty
        have hnone := List.filter_eq_nil_iff.mp (List.isEmpty_iff.mp hempty) field hfield
        exact hnone (List.contains_iff_mem.mpr hin)
      · cases h
    · cases h

theorem settingRequest_ok {setPath reconfigurePath modelRoot : String} {payload : Json}
    {reconfigure : Bool} {req : Request}
    (h : settingRequest (.str setPath) (.str reconfigurePath) (.str modelRoot) payload reconfigure =
      .ok req) :
    ∃ path flat nested, payload = .obj flat ∧ unflatten flat = .ok nested ∧
      req = .modelSet path modelRoot (.obj nested) := by
  obtain ⟨path, -, h⟩ := except_bind_ok h
  have hrest : (do
      let flat ← (payload.items).mapError Raised.builtin
      let nested ← (unflatten flat).mapError Raised.builtin
      let root ← (Json.asKey (.str modelRoot)).mapError Raised.builtin
      return Request.modelSet path root (.obj nested)) = .ok req := by
    cases reconfigure with
    | false => exact h
    | true =>
      obtain ⟨-, -, h⟩ := except_bind_ok h
      exact h
  obtain ⟨flat, hflat, h⟩ := except_bind_ok hrest
  obtain ⟨nested, hnested, h⟩ := except_bind_ok h
  obtain ⟨root, hroot, h⟩ := except_bind_ok h
  obtain rfl := Except.ok.inj h
  obtain rfl : modelRoot = root := Except.ok.inj hroot
  refine ⟨path, flat, nested, ?_, mapError_ok hnested, rfl⟩
  cases payload with
  | obj kvs => exact congrArg Json.obj (Except.ok.inj (mapError_ok hflat))
  | null | bool _ | int _ | float _ | str _ | arr _ => exact nomatch hflat

theorem asks_applySetting {setPath reconfigurePath modelRoot : String} {payload : Json}
    {reconfigure : Bool} :
    Asks (fun q => ∀ path root nested, q = Request.modelSet path root nested →
        root = modelRoot ∧ ∃ flat nested', payload = .obj flat ∧ unflatten flat = .ok nested' ∧
          nested = .obj nested')
      (applySetting (.str setPath) (.str reconfigurePath) (.str modelRoot) payload false
        reconfigure) := by
  show Asks _ ((Dialogue.ofExcept (settingRequest (.str setPath) (.str reconfigurePath)
    (.str modelRoot) payload reconfigure)).bind _)
  cases hreq : settingRequest (.str setPath) (.str reconfigurePath) (.str modelRoot) payload
    reconfigure with
  | error e => trivial
  | ok req =>
    obtain ⟨path, flat, nested, hpayload, hnested, rfl⟩ := settingRequest_ok hreq
    show Asks _ ((post (.modelSet path modelRoot (.obj nested))).bind _)
    refine Asks.bind (asks_ask ?_ fun a => ?_) fun res => Asks.bind ?_ fun _ => Asks.bind ?_ ?_
    · rintro path' root nested' heq
      obtain ⟨-, rfl, rfl⟩ := Request.modelSet.inj heq
      exact ⟨rfl, flat, nested, hpayload, hnested, rfl⟩
    · cases a with
      | ok j => trivial
      | error e => trivial
    · unfold raiseOnFailed
      by_cases hrejected : rejected res = true
      · rw [if_pos hrejected]
        trivial
      · rw [if_neg hrejected]
        trivial
    · cases reconfigure with
      | false => trivial
      | true =>
        refine Asks.bind (asks_ofExcept _) fun path => asks_ask ?_ fun a => ?_
        · rintro path' root nested' ⟨⟩
        · cases a with
          | ok j => trivial
          | error e => trivial
    · exact fun _ => trivial

end Posting

/-- The change that is made of the body of a template with the patch of a tenant. -/
def materializeSetting (tenantId : TenantId) (deviceId : DeviceId) (base patch bindings : Dict) :
    Program Change := do
  let body ← Dialogue.ofExcept (effectiveBody "opnsense_setting" base patch)
  materializeChange tenantId deviceId "opnsense_setting" body bindings

/-- **What is posted has no value at an excluded path exactly if no path is exposed**: for every
template of a setting, patch and bindings that a change is made of, and whatever the device
answers. -/
theorem posts_none_iff {Box : Type} {B : BoxModel Box} {w w' : World Box} {i : Nat}
    {tenantId : TenantId} {deviceId : DeviceId} {base patch bindings : Dict} {change : Change}
    (hmaterialize : (materializeSetting tenantId deviceId base patch bindings).play
      ((World.server B).serve i) w = some (.ok change, w')) :
    ∃ body ep payload, effectiveBody "opnsense_setting" base patch = .ok body ∧
      settingEndpoint (settingKey body) = .ok (some ep) ∧
      Dict.getD body "payload" .null = .obj payload ∧
      ∀ posts result path root nested answer,
        Dialogue.Path (applyOpnsenseSetting change.operation change.payload false) posts result →
        ⟨.modelSet path root nested, answer⟩ ∈ posts →
          root = ep.modelRoot ∧
          ((∀ field ∈ ep.excludeFields, valueUnder nested (splitDots field) = none) ↔
            ∀ field ∈ ep.excludeFields, ¬ Exposed payload (splitDots field)) := by
  obtain ⟨body, heffective, hmaterialize⟩ := Dialogue.of_play_ofExcept_bind hmaterialize
  obtain ⟨hpayload, hvalid⟩ := materializeChange_setting hmaterialize
  obtain ⟨ep, payload, hep, hobj, -⟩ := validateSetting_payload hvalid
  refine ⟨body, ep, payload, heffective, hep, hobj, ?_⟩
  rintro posts result path root nested answer hpath hmem
  rw [hpayload] at hpath
  have happly : applyOpnsenseSetting change.operation body false =
      applySetting (.str ep.setPath) (.str ep.reconfigurePath) (.str ep.modelRoot)
        (Dict.getD body "payload" (.obj [])) false true := by
    simp only [applyOpnsenseSetting, hep]
    rfl
  have hsame : Dict.getD body "payload" (.obj []) = .obj payload := by
    rw [Dict.getD] at hobj ⊢
    cases hget : Dict.get? body "payload" with
    | none =>
      rw [hget] at hobj
      cases hobj
    | some v =>
      rw [hget] at hobj
      exact hobj
  rw [happly, hsame] at hpath
  obtain ⟨hroot, flat, nested', hflat, hunflatten, rfl⟩ :=
    Dialogue.Asks.of_path asks_applySetting hpath _ hmem path root nested rfl
  obtain rfl := Json.obj.inj hflat
  refine ⟨hroot, forall_congr' fun field => forall_congr' fun _ => ?_⟩
  have hne : splitDots field ≠ [] := by simp [splitDots, List.splitOn_ne_nil]
  rw [← unflatten_isSome_iff hunflatten hne, Bool.not_eq_true, Option.isSome_eq_false_iff,
    Option.isNone_iff_eq_none]

/-! ### The intrusion detection settings -/

def idsTemplate (payload : Dict) : Dict :=
  [("endpoint_key", .str "ids_general"), ("payload", .obj payload)]

def nestedInterfaces : Dict := [("general", .obj [("interfaces", .str "wan")])]

def homeNetwork : Dict := [("general.homenet", .str "10.0.0.0/8")]

/-- The answers to the two requests of a setting. -/
def settingAnswers (nested : Json) : List (Dialogue.Exchange Request fun _ => Answer) :=
  [⟨.modelSet "ids/settings/set" "ids" nested, .ok (.obj [("result", .str "saved")])⟩,
    ⟨.modelReconfigure "ids/service/reconfigure", .ok (.obj [("status", .str "ok")])⟩]

theorem path_idsTemplate {payload nested : Dict} (h : unflatten payload = .ok nested) :
    ∃ result, Dialogue.Path (applyOpnsenseSetting "set" (idsTemplate payload) false)
      (settingAnswers (.obj nested)) result := by
  have hrequest : settingRequest (.str "ids/settings/set") (.str "ids/service/reconfigure")
      (.str "ids") (.obj payload) true = .ok (.modelSet "ids/settings/set" "ids" (.obj nested)) := by
    have hflat : settingRequest (.str "ids/settings/set") (.str "ids/service/reconfigure")
      (.str "ids") (.obj payload) true =
        ((unflatten payload).mapError Raised.builtin >>= fun nested =>
          .ok (.modelSet "ids/settings/set" "ids" (.obj nested))) := rfl
    rw [hflat, h]
    rfl
  refine ⟨.ok (.obj [("dry_run", .bool false), ("result", .obj [("result", .str "saved")])]), ?_⟩
  show Dialogue.Path ((Dialogue.ofExcept (settingRequest (.str "ids/settings/set")
    (.str "ids/service/reconfigure") (.str "ids") (.obj payload) true)).bind _) _ _
  rw [hrequest]
  exact .ask _ (.ask _ (.pure _))

/-- The nested key passes the check, and the interfaces are posted. -/
theorem nestedInterfaces_posted :
    ∃ w' change, (materializeSetting 0 1 (idsTemplate nestedInterfaces) [] []).play
        ((World.server webBox).serve 1) (restingWorld [] [] false) = some (.ok change, w') ∧
      (∃ result, Dialogue.Path (applyOpnsenseSetting "set" change.payload false)
        (settingAnswers (.obj nestedInterfaces)) result) ∧
      settingEndpoint (settingKey change.payload) = .ok (settingEndpoints.head?) ∧
      (settingEndpoints.head?.map SettingEndpoint.excludeFields) = some ["general.interfaces"] ∧
      valueUnder (.obj nestedInterfaces) (splitDots "general.interfaces") = some (.str "wan") := by
  refine ⟨_, _, rfl, path_idsTemplate rfl, rfl, rfl, ?_⟩
  decide +kernel

/-- A home network under its own path: nothing is exposed, and nothing else is posted. -/
theorem posts_none_homeNetwork :
    ∃ w' change, (materializeSetting 0 1 (idsTemplate homeNetwork) [] []).play
        ((World.server webBox).serve 1) (restingWorld [] [] false) = some (.ok change, w') ∧
      ∃ (ep : SettingEndpoint) (payload : Dict), payload = homeNetwork ∧
        ((∀ field ∈ ep.excludeFields, valueUnder (.obj [("general",
            .obj [("homenet", .str "10.0.0.0/8")])]) (splitDots field) = none) ↔
          ∀ field ∈ ep.excludeFields, ¬ Exposed payload (splitDots field)) := by
  have hplay : ∃ w' change, (materializeSetting 0 1 (idsTemplate homeNetwork) [] []).play
      ((World.server webBox).serve 1) (restingWorld [] [] false) = some (.ok change, w') ∧
      change.payload = idsTemplate homeNetwork ∧ change.operation = "set" := ⟨_, _, rfl, rfl, rfl⟩
  obtain ⟨w', change, hplay, hpayload, hoperation⟩ := hplay
  obtain ⟨body, ep, payload, heffective, hep, hobj, hposts⟩ := posts_none_iff hplay
  have hnested : unflatten homeNetwork =
      .ok [("general", .obj [("homenet", .str "10.0.0.0/8")])] := rfl
  obtain ⟨result, hpath⟩ := path_idsTemplate hnested
  rw [← hpayload, ← hoperation] at hpath
  have hbody : idsTemplate homeNetwork = body := Except.ok.inj heffective
  subst hbody
  refine ⟨w', change, hplay, ep, payload, (Json.obj.inj hobj).symm, ?_⟩
  exact (hposts _ _ _ _ _ _ hpath List.mem_cons_self).2

end Opngms
