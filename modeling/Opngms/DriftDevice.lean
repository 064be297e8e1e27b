/-
Opngms/DriftDevice.lean

A device that stores exactly what OPNGMS pushes to it, as far as the three kinds reach that
drift detection compares.

The device answers the requests of the connector (`Box.respond`); a history is a list of
applied changes in the order in which they were applied, each run by the applier of its kind.
`Push.writes` says field by field what a change writes, and **`reads_run`** that after a
history every place reads what was pushed to it last.
-/
import Opngms.Appliance
import Opngms.ConfigDrift
import Opngms.Guard
import Opngms.Overlay

namespace Opngms

namespace ConfigDrift

open Appliance Overlay

/-! ### What a configuration reads -/

/-- A place of a configuration.  The name of an alias is a JSON value because the changes are
asked for it as one. -/
inductive Place where
  | setting (path : List String)
  /-- That there is an alias with the name. -/
  | aliasNamed (name : Json)
  | aliasField (name : Json) (key : String)
  | ruleset (filename : String)
  deriving DecidableEq

def flag (b : Bool) : String := if b then "1" else ""

/-! ### The device -/

/-- What a device does in its own way: the uuid that a new row gets, and the text that is stored
of a value.  A text is stored as it is. -/
structure Firmware where
  uuids : Supply String
  text : Json → String
  text_str : ∀ s, text (.str s) = s

/-- An alias on the device. -/
structure AliasRow where
  uuid : String
  fields : String → String

def AliasRow.name (a : AliasRow) : String := a.fields "name"

/-- A device as far as the three kinds reach: the text at each path of its configuration, its
aliases, and the rulesets that are enabled. -/
structure Box where
  settings : List String → String
  aliases : List AliasRow
  enabled : String → Bool
  distinct : (aliases.map AliasRow.uuid).Nodup
  named : (aliases.map AliasRow.name).Nodup

namespace Box

def alias? (b : Box) (name : Json) : Option AliasRow :=
  b.aliases.find? fun a => decide (Json.str a.name = name)

def fieldText : Option AliasRow → String → String
  | some a, key => a.fields key
  | none, _ => ""

/-- What the device's configuration reads. -/
def reads (b : Box) : Place → String
  | .setting path => b.settings path
  | .aliasNamed name => flag (b.alias? name).isSome
  | .aliasField name key => fieldText (b.alias? name) key
  | .ruleset f => flag (b.enabled f)

def merge (ν : Firmware) (base : String → String) (item : Dict) : String → String := fun k =>
  ((Dict.get? item k).map ν.text).getD (base k)

def patch (ν : Firmware) (u : String) (item : Dict) (a : AliasRow) : AliasRow :=
  if a.uuid = u then { a with fields := merge ν a.fields item } else a

@[simp] theorem patch_uuid (ν : Firmware) (u : String) (item : Dict) (a : AliasRow) :
    (patch ν u item a).uuid = a.uuid := by
  rw [patch]
  split <;> rfl

def newRow (ν : Firmware) (b : Box) (item : Dict) : AliasRow :=
  ⟨ν.uuids.pick (b.aliases.map AliasRow.uuid), merge ν (fun _ => "") item⟩

/-- The texts at the paths of a model after a partial `set`: what the object has a leaf for. -/
def assign (ν : Firmware) (xmlPath : List String) (nested : Json)
    (settings : List String → String) : List String → String := fun p =>
  if xmlPath.isPrefixOf p then
    ((leafAt nested (p.drop xmlPath.length)).map ν.text).getD (settings p)
  else settings p

def aliasRow (a : AliasRow) : Dict := [("uuid", .str a.uuid), ("name", .str a.name)]

/-- How the device answers and what it stores: exactly what it is sent, unless two aliases
would have one name. -/
def respond (ν : Firmware) (b : Box) : Request → Answer × Box
  | .aliasSearch _ =>
    (.ok (.obj [("rows", .arr (b.aliases.map fun a => .obj (aliasRow a)))]), b)
  | .aliasAdd item =>
    if h : ((b.aliases ++ [newRow ν b item]).map AliasRow.name).Nodup then
      (.ok (savedAs (newRow ν b item).uuid),
        { b with
          aliases := b.aliases ++ [newRow ν b item]
          named := h
          distinct := by
            rw [List.map_append, List.nodup_append]
            refine ⟨b.distinct, List.nodup_singleton _, ?_⟩
            rintro u hu v hv rfl
            obtain rfl := List.mem_singleton.mp hv
            exact ν.uuids.fresh _ hu })
    else (.ok failed, b)
  | .aliasSet u item =>
    -- the fields that are not sent stay
    if h : u ∈ b.aliases.map AliasRow.uuid ∧
        ((b.aliases.map (patch ν u item)).map AliasRow.name).Nodup then
      (.ok saved,
        { b with
          aliases := b.aliases.map (patch ν u item)
          named := h.2
          distinct := by
            rw [List.map_map]
            exact (congrArg List.Nodup (List.map_congr_left fun a _ => patch_uuid ν u item a)).mpr
              b.distinct })
    else (.ok failed, b)
  | .aliasDel u =>
    (.ok (deleted (decide (u ∈ b.aliases.map AliasRow.uuid))),
      { b with
        aliases := b.aliases.filter fun a => decide (a.uuid ≠ u)
        distinct := b.distinct.sublist (List.filter_sublist.map _)
        named := b.named.sublist (List.filter_sublist.map _) })
  | .modelSet path _ nested =>
    match settingEndpoints.find? fun ep => ep.setPath == path with
    | some ep => (.ok saved, { b with settings := assign ν ep.xmlPath nested b.settings })
    | none => (.error (.opnsense (.apiError 404 "")), b)
  | .rulesetToggle f => (.ok saved, { b with enabled := fun g => b.enabled g || g == f })
  | .aliasReconfigure | .modelReconfigure _ | .idsReconfigure =>
    (.ok (.obj [("status", .str "ok")]), b)
  | _ => (.error (.opnsense (.apiError 404 "")), b)

def serve (ν : Firmware) (b : Box) (r : Request) : Option (Answer × Box) :=
  some (respond ν b r)

end Box

/-! ### Histories -/

/-- An applied change: live, or as a dry run. -/
structure Push where
  change : ConfigChange
  live : Bool
  kind : change.kind ∈ ["opnsense_setting", "alias", "ids_rulesets"]
  applied : change.status = .applied

/-- The device after a change was applied to it; nothing where the applier raises. -/
def Box.push (ν : Firmware) (b : Box) (p : Push) : Option Box :=
  match (applyForKind p.change.kind p.change.operation p.change.payload (!p.live)).play
    (Box.serve ν) b with
  | some (.ok _, b') => some b'
  | _ => none

/-- The device after the changes of a history, each of them applied. -/
def Box.run (ν : Firmware) (b : Box) : List Push → Option Box
  | [] => some b
  | p :: ps => (b.push ν p).bind fun b' => b'.run ν ps

/-! ### What a change writes -/

def pushedName (ν : Firmware) (payload : Dict) : Json := .str (ν.text (aliasName payload))

/-- What an alias change writes: the fields that are sent, or that the alias is gone. -/
def aliasWrites (ν : Firmware) (operation : String) (payload : Dict) : Place → Option String
  | .aliasNamed n => if n = pushedName ν payload then some (flag (operation ≠ "delete")) else none
  | .aliasField n k =>
    if n = pushedName ν payload then
      if operation = "delete" then some ""
      else (Dict.get? (normalizeAliasPayload payload) k).map ν.text
    else none
  | _ => none

/-- The endpoint of a setting change and the object that is sent to it. -/
def settingSent (payload : Dict) : Option (SettingEndpoint × Json) :=
  match settingEndpoint (settingKey payload), (Dict.getD payload "payload" (.obj [])).items with
  | .ok (some ep), .ok flat =>
    match unflatten flat with
    | .ok nested => some (ep, .obj nested)
    | .error _ => none
  | _, _ => none

/-- What a setting change writes: each leaf of the object. -/
def settingWrites (ν : Firmware) (payload : Dict) : Place → Option String
  | .setting p =>
    match settingSent payload with
    | some (ep, nested) =>
      if ep.xmlPath.isPrefixOf p then (leafAt nested (p.drop ep.xmlPath.length)).map ν.text
      else none
    | none => none
  | _ => none

/-- The filenames of a list. -/
def filenames (rulesets : Json) : List String :=
  match rulesets with
  | .arr xs => xs.filterMap fun x => match x with
    | .str f => some f
    | _ => none
  | _ => []

/-- What a ruleset change writes: its rulesets are enabled. -/
def rulesetWrites (payload : Dict) : Place → Option String
  | .ruleset f => if f ∈ filenames (Dict.getD payload "rulesets" (.arr [])) then some "1" else none
  | _ => none

/-- What a change writes when it is applied. -/
def Push.writes (ν : Firmware) (p : Push) : Place → Option String :=
  -- a dry run ends as `applied` too
  if !p.live then fun _ => none
  else if p.change.kind = "opnsense_setting" then settingWrites ν p.change.payload
  else if p.change.kind = "alias" then aliasWrites ν p.change.operation p.change.payload
  else rulesetWrites p.change.payload

/-- What a place reads after a history: what was pushed to it last, or what it read before. -/
def lastPushed (ν : Firmware) (start : Box) (history : List Push) (f : Place) : String :=
  (lastWritten (history.map (Push.writes ν)) f).getD (start.reads f)

/-! ### Applying a change on the device -/

section Apply

variable {ν : Firmware} {b b' : Box}

theorem play_request {r : Request} {j : Json}
    (h : (post r).play (Box.serve ν) b = some (.ok j, b')) :
    Box.respond ν b r = (.ok j, b') := by
  rw [post, Dialogue.play, Box.serve, Option.bind_some] at h
  cases ha : (Box.respond ν b r).1 with
  | error e =>
    rw [ha] at h
    cases h
  | ok j' =>
    rw [ha] at h
    cases h
    exact Prod.ext ha rfl

theorem play_raiseOnFailed {res : Json} {what : String} {u : Unit}
    (h : (raiseOnFailed res what).play (Box.serve ν) b = some (.ok u, b')) :
    rejected res = false ∧ b = b' := by
  cases hr : rejected res with
  | true =>
    obtain ⟨x, hraise⟩ := raiseOnFailed_rejected what hr
    rw [hraise] at h
    cases h
  | false =>
    rw [raiseOnFailed_saved what hr] at h
    cases h
    exact ⟨rfl, rfl⟩

theorem play_ok {α : Type} {e : Except BuiltinError α} {a : α}
    (h : (builtin e).play (Box.serve ν) b = some (.ok a, b')) : e = .ok a ∧ b = b' := by
  cases e with
  | error x => cases h
  | ok a' =>
    cases h
    exact ⟨rfl, rfl⟩

theorem play_check {α : Type} {e : Except Raised α} {a : α}
    (h : (Dialogue.ofExcept e : Client α).play (Box.serve ν) b = some (.ok a, b')) :
    e = .ok a ∧ b = b' := by
  rw [Dialogue.play_ofExcept] at h
  exact Prod.mk.inj (Option.some.inj h)

/-! #### Aliases -/

namespace Box

theorem alias?_eq_some_iff {n : Json} {a : AliasRow} :
    b.alias? n = some a ↔ a ∈ b.aliases ∧ n = .str a.name := by
  constructor
  · intro h
    have hn : Json.str a.name = n := of_decide_eq_true (List.find?_some h :)
    exact ⟨List.mem_of_find?_eq_some h, hn.symm⟩
  · rintro ⟨hmem, rfl⟩
    cases h : b.alias? (.str a.name) with
    | none => exact absurd (decide_eq_true rfl) (List.find?_eq_none.mp h a hmem)
    | some a' =>
      have hname : Json.str a'.name = .str a.name := of_decide_eq_true (List.find?_some h :)
      rw [List.inj_on_of_nodup_map b.named (List.mem_of_find?_eq_some h) hmem (Json.str.inj hname)]

theorem alias?_eq_none_iff {n : Json} : b.alias? n = none ↔ ∀ a ∈ b.aliases, n ≠ .str a.name := by
  rw [alias?, List.find?_eq_none]
  refine forall₂_congr fun a _ => ?_
  rw [decide_eq_true_iff]
  exact not_congr eq_comm

theorem alias?_patch {u : String} {item : Dict} {a : AliasRow} (ha : a ∈ b.aliases)
    (hu : a.uuid = u) (hname : (patch ν u item a).name = a.name)
    (hrows : b'.aliases = b.aliases.map (patch ν u item)) (n : Json) :
    b'.alias? n = if n = .str a.name then some (patch ν u item a) else b.alias? n := by
  -- a row with the uuid is the alias itself, so another one is not touched
  have honly : ∀ c ∈ b.aliases, n ≠ .str a.name → n = .str c.name → patch ν u item c = c := by
    intro c hc hne hn
    refine if_neg fun hcu => hne ?_
    rw [hn, List.inj_on_of_nodup_map b.distinct hc ha (hcu.trans hu.symm)]
  split_ifs with hn
  · refine alias?_eq_some_iff.mpr ⟨?_, by rw [hname, hn]⟩
    rw [hrows]
    exact List.mem_map_of_mem ha
  · cases h : b.alias? n with
    | some c =>
      obtain ⟨hc, hcn⟩ := alias?_eq_some_iff.mp h
      refine alias?_eq_some_iff.mpr ⟨?_, hcn⟩
      rw [hrows, ← honly c hc hn hcn]
      exact List.mem_map_of_mem hc
    | none =>
      refine alias?_eq_none_iff.mpr fun c' hc' hcn => ?_
      rw [hrows] at hc'
      obtain ⟨c, hc, rfl⟩ := List.mem_map.mp hc'
      by_cases hcu : c.uuid = u
      · rw [List.inj_on_of_nodup_map b.distinct hc ha (hcu.trans hu.symm), hname] at hcn
        exact hn hcn
      · rw [patch, if_neg hcu] at hcn
        exact alias?_eq_none_iff.mp h c hc hcn

theorem alias?_append {a : AliasRow} (hrows : b'.aliases = b.aliases ++ [a]) (n : Json) :
    b.alias? (.str a.name) = none ∧
      b'.alias? n = if n = .str a.name then some a else b.alias? n := by
  have hnew : ∀ c ∈ b.aliases, c.name ≠ a.name := by
    intro c hc hname
    have hnodup := b'.named
    rw [hrows, List.map_append, List.nodup_append] at hnodup
    exact hnodup.2.2 _ (List.mem_map_of_mem hc) _ (List.mem_singleton_self _) hname
  refine ⟨alias?_eq_none_iff.mpr fun c hc h => hnew c hc (Json.str.inj h).symm, ?_⟩
  split_ifs with hn
  · refine alias?_eq_some_iff.mpr ⟨?_, hn⟩
    rw [hrows]
    exact List.mem_append_right _ List.mem_cons_self
  · cases h : b.alias? n with
    | some c =>
      obtain ⟨hc, hcn⟩ := alias?_eq_some_iff.mp h
      refine alias?_eq_some_iff.mpr ⟨?_, hcn⟩
      rw [hrows]
      exact List.mem_append_left _ hc
    | none =>
      refine alias?_eq_none_iff.mpr fun c hc hcn => ?_
      rw [hrows] at hc
      rcases List.mem_append.mp hc with hc | hc
      · exact alias?_eq_none_iff.mp h c hc hcn
      · obtain rfl := List.mem_singleton.mp hc
        exact hn hcn

theorem alias?_filter {a : AliasRow} (ha : a ∈ b.aliases)
    (hrows : b'.aliases = b.aliases.filter fun c => decide (c.uuid ≠ a.uuid)) (n : Json) :
    b'.alias? n = if n = .str a.name then none else b.alias? n := by
  have hmem (c : AliasRow) : c ∈ b'.aliases ↔ c ∈ b.aliases ∧ c.uuid ≠ a.uuid := by
    rw [hrows, List.mem_filter, decide_eq_true_iff]
  split_ifs with hn
  · refine alias?_eq_none_iff.mpr fun c hc hcn => ?_
    obtain ⟨hc, hne⟩ := (hmem c).mp hc
    rw [hn] at hcn
    exact hne (by rw [List.inj_on_of_nodup_map b.named hc ha (Json.str.inj hcn).symm])
  · cases h : b.alias? n with
    | some c =>
      obtain ⟨hc, hcn⟩ := alias?_eq_some_iff.mp h
      refine alias?_eq_some_iff.mpr ⟨(hmem c).mpr ⟨hc, fun hu => hn ?_⟩, hcn⟩
      rw [hcn, List.inj_on_of_nodup_map b.distinct hc ha hu]
    | none =>
      exact alias?_eq_none_iff.mpr fun c hc => alias?_eq_none_iff.mp h c ((hmem c).mp hc).1

end Box

attribute [local simp] Box.respond

theorem get?_name_normalizeAliasPayload (payload : Dict) :
    Dict.get? (normalizeAliasPayload payload) "name" = Dict.get? payload "name" := by
  rw [normalizeAliasPayload]
  split
  · rw [Dict.get?_set, if_neg (by decide)]
  · rfl

theorem play_resolveAliasUuid {n : Json} {u : String}
    (h : (resolveAliasUuid n).play (Box.serve ν) b = some (.ok u, b')) :
    b = b' ∧ ∃ a ∈ b.aliases, a.uuid = u ∧ n = .str a.name := by
  rw [resolveAliasUuid] at h
  split at h
  · cases h
  · obtain ⟨data, b₁, hpost, h⟩ := Dialogue.of_play_bind h
    have hsearch := play_request hpost
    rw [Box.respond] at hsearch
    obtain ⟨hdata, rfl⟩ := Prod.mk.inj hsearch
    cases hdata
    obtain ⟨ms, b₂, hrows, h⟩ := Dialogue.of_play_bind h
    obtain ⟨hms, rfl⟩ := play_ok hrows
    obtain rfl : (b.aliases.filter fun a => Json.pyEq (.str a.name) n).map Box.aliasRow = ms :=
      Except.ok.inj ((filterRows_map _ Box.aliasRow b.aliases).symm.trans hms)
    rcases hfound : b.aliases.filter fun a => Json.pyEq (.str a.name) n with - | ⟨a, - | ⟨c, cs⟩⟩
    · rw [hfound] at h
      cases h
    · rw [hfound] at h
      cases h
      have ha : a ∈ b.aliases.filter fun a => Json.pyEq (.str a.name) n :=
        hfound ▸ List.mem_singleton_self a
      obtain ⟨hmem, hname⟩ := List.mem_filter.mp ha
      rw [Json.pyEq_str_left, decide_eq_true_iff] at hname
      exact ⟨rfl, a, hmem, rfl, hname.symm⟩
    · rw [hfound] at h
      cases h

theorem pushedName_of {payload : Dict} {s : String} (h : aliasName payload = .str s) :
    pushedName ν payload = .str s := by
  rw [pushedName, h, ν.text_str]

theorem reads_aliasWrites {operation : String} {payload : Dict} (row : Option AliasRow)
    (hsettings : b'.settings = b.settings) (henabled : b'.enabled = b.enabled)
    (hrow : ∀ n, b'.alias? n = if n = pushedName ν payload then row else b.alias? n)
    (hflag : row.isSome = decide (operation ≠ "delete"))
    (hfields : ∀ k, Box.fieldText row k = if operation = "delete" then "" else
      ((Dict.get? (normalizeAliasPayload payload) k).map ν.text).getD
        (Box.fieldText (b.alias? (pushedName ν payload)) k)) :
    b'.reads = overlay (aliasWrites ν operation payload) b.reads := by
  funext f
  cases f with
  | setting p =>
    rw [overlay_none _ rfl, Box.reads, hsettings]
    rfl
  | ruleset f =>
    rw [overlay_none _ rfl, Box.reads, henabled]
    rfl
  | aliasNamed n =>
    rw [overlay, aliasWrites, Box.reads, hrow]
    split_ifs
    · rw [hflag]
      rfl
    · rfl
  | aliasField n k =>
    rw [overlay, aliasWrites, Box.reads, hrow]
    split_ifs with hn hdel
    · rw [hfields, if_pos hdel]
      rfl
    · rw [hfields, if_neg hdel, ← hn]
      rfl
    · rfl

theorem reads_aliasAdd {payload : Dict} {j : Json}
    (h : Box.respond ν b (.aliasAdd (normalizeAliasPayload payload)) = (.ok j, b'))
    (hj : rejected j = false) : b'.reads = overlay (aliasWrites ν "add" payload) b.reads := by
  rw [Box.respond] at h
  split at h
  · obtain ⟨-, hb⟩ := Prod.mk.inj h
    have hrows : b'.aliases = b.aliases ++ [Box.newRow ν b (normalizeAliasPayload payload)] := by
      rw [← hb]
    have hname : Json.str (Box.newRow ν b (normalizeAliasPayload payload)).name =
        pushedName ν payload := by
      show Json.str (Box.merge ν (fun _ => "") (normalizeAliasPayload payload) "name") = _
      rw [Box.merge, get?_name_normalizeAliasPayload, pushedName, aliasName, Dict.getD]
      cases Dict.get? payload "name" with
      | none => exact congrArg Json.str (ν.text_str "").symm
      | some v => rfl
    obtain ⟨hnone, -⟩ := Box.alias?_append hrows .null
    refine reads_aliasWrites (some (Box.newRow ν b (normalizeAliasPayload payload)))
      (by rw [← hb]) (by rw [← hb]) (fun n => ?_) rfl fun k => ?_
    · rw [← hname]
      exact (Box.alias?_append hrows n).2
    · rw [← hname, hnone]
      rfl
  · obtain ⟨hj', -⟩ := Prod.mk.inj h
    cases hj'
    cases hj

theorem reads_aliasSet {payload : Dict} {a : AliasRow} {j : Json} (ha : a ∈ b.aliases)
    (hname : aliasName payload = .str a.name)
    (h : Box.respond ν b (.aliasSet a.uuid (normalizeAliasPayload payload)) = (.ok j, b'))
    (hj : rejected j = false) : b'.reads = overlay (aliasWrites ν "set" payload) b.reads := by
  rw [Box.respond] at h
  split at h
  · obtain ⟨-, rfl⟩ := Prod.mk.inj h
    have hpatch : Box.patch ν a.uuid (normalizeAliasPayload payload) a =
        { a with fields := Box.merge ν a.fields (normalizeAliasPayload payload) } := if_pos rfl
    have hsame : (Box.patch ν a.uuid (normalizeAliasPayload payload) a).name = a.name := by
      rw [hpatch]
      show Box.merge ν a.fields (normalizeAliasPayload payload) "name" = a.fields "name"
      rw [Box.merge, get?_name_normalizeAliasPayload]
      rw [aliasName, Dict.getD] at hname
      -- the name that is sent is the one the alias was found by
      cases hget : Dict.get? payload "name" with
      | none => rfl
      | some v =>
        rw [hget] at hname
        obtain rfl : v = .str a.name := hname
        exact ν.text_str a.name
    refine reads_aliasWrites (some (Box.patch ν a.uuid (normalizeAliasPayload payload) a)) rfl rfl
      (fun n => ?_) rfl fun k => ?_
    · rw [pushedName_of hname]
      exact Box.alias?_patch ha rfl hsame rfl n
    · rw [pushedName_of hname, Box.alias?_eq_some_iff.mpr ⟨ha, rfl⟩, hpatch]
      rfl
  · obtain ⟨hj', -⟩ := Prod.mk.inj h
    cases hj'
    cases hj

theorem reads_aliasDel {payload : Dict} {a : AliasRow} {j : Json} (ha : a ∈ b.aliases)
    (hname : aliasName payload = .str a.name)
    (h : Box.respond ν b (.aliasDel a.uuid) = (.ok j, b')) :
    b'.reads = overlay (aliasWrites ν "delete" payload) b.reads := by
  rw [Box.respond] at h
  obtain ⟨-, rfl⟩ := Prod.mk.inj h
  refine reads_aliasWrites none rfl rfl (fun n => ?_) rfl fun k => rfl
  rw [pushedName_of hname]
  exact Box.alias?_filter ha rfl n

/-- **An alias change that is applied writes its fields.** -/
theorem reads_applyAlias {operation : String} {payload : Dict} {z : Json}
    (h : (applyAlias operation payload false).play (Box.serve ν) b = some (.ok z, b')) :
    b'.reads = overlay (aliasWrites ν operation payload) b.reads := by
  obtain ⟨res, b₁, hmutation, h⟩ := Dialogue.of_play_bind h
  obtain ⟨u, b₂, hcheck, h⟩ := Dialogue.of_play_bind h
  obtain ⟨hres, rfl⟩ := play_raiseOnFailed hcheck
  obtain ⟨j, b₃, hreload, h⟩ := Dialogue.of_play_bind h
  have hreload' := play_request hreload
  rw [Box.respond] at hreload'
  obtain ⟨-, rfl⟩ := Prod.mk.inj hreload'
  cases h
  -- the check and the reload leave the device, so the mutation is all that was done
  rw [aliasMutation] at hmutation
  split_ifs at hmutation with hadd hknown hset
  · rw [hadd]
    exact reads_aliasAdd (play_request hmutation) hres
  · obtain ⟨uuid, b₄, hfind, hmutation⟩ := Dialogue.of_play_bind hmutation
    obtain ⟨rfl, a, ha, rfl, hname⟩ := play_resolveAliasUuid hfind
    rw [hset]
    exact reads_aliasSet ha hname (play_request hmutation) hres
  · obtain ⟨uuid, b₄, hfind, hmutation⟩ := Dialogue.of_play_bind hmutation
    obtain ⟨rfl, a, ha, rfl, hname⟩ := play_resolveAliasUuid hfind
    rw [hknown.resolve_left hset]
    exact reads_aliasDel ha hname (play_request hmutation)
  · cases hmutation

/-! #### Settings -/

theorem settingEndpoint_mem {key : Json} {ep : SettingEndpoint}
    (h : settingEndpoint key = .ok (some ep)) : ep ∈ settingEndpoints := by
  cases key with
  | str s => exact List.mem_of_find?_eq_some (Except.ok.inj h)
  | null | bool _ | int _ | float _ => cases Except.ok.inj h
  | arr _ | obj _ => cases h

theorem find_setPath : ∀ ep ∈ settingEndpoints,
    (settingEndpoints.find? fun e => e.setPath == ep.setPath) = some ep := by
  intro ep hep
  obtain rfl := List.mem_singleton.mp hep
  rfl

theorem settingSent_of_request {payload : Dict} {ep : SettingEndpoint} {req : Request}
    (hep : settingEndpoint (settingKey payload) = .ok (some ep))
    (h : settingRequest (.str ep.setPath) (.str ep.reconfigurePath) (.str ep.modelRoot)
      (Dict.getD payload "payload" (.obj [])) true = .ok req) :
    ∃ root nested, req = .modelSet ep.setPath root nested ∧
      settingSent payload = some (ep, nested) := by
  obtain ⟨path, hpath, h⟩ := except_bind_ok h
  obtain ⟨-, -, h⟩ := except_bind_ok h
  obtain ⟨flat, hflat, h⟩ := except_bind_ok h
  obtain ⟨nested, hnested, h⟩ := except_bind_ok h
  obtain ⟨root, -, h⟩ := except_bind_ok h
  obtain rfl := Except.ok.inj h
  have hsame : path = ep.setPath := by
    rw [safeEndpoint] at hpath
    split at hpath
    · cases hpath
    · split at hpath
      · exact (Except.ok.inj hpath).symm
      · cases hpath
  refine ⟨root, .obj nested, by rw [hsame], ?_⟩
  simp only [settingSent, hep, mapError_ok hflat, mapError_ok hnested]

theorem reads_reconfigureModel {path j : Json}
    (h : (reconfigureModel path).play (Box.serve ν) b = some (.ok j, b')) : b = b' := by
  obtain ⟨p, b₁, hp, h⟩ := Dialogue.of_play_bind h
  obtain ⟨-, rfl⟩ := play_check hp
  have hreload := play_request h
  rw [Box.respond] at hreload
  exact (Prod.mk.inj hreload).2

/-- **A setting change that is applied writes its leaves.** -/
theorem reads_applyOpnsenseSetting {operation : String} {payload : Dict} {z : Json}
    (h : (applyOpnsenseSetting operation payload false).play (Box.serve ν) b = some (.ok z, b')) :
    b'.reads = overlay (settingWrites ν payload) b.reads := by
  obtain ⟨found, b₁, hfound, h⟩ := Dialogue.of_play_bind h
  obtain ⟨hep, rfl⟩ := play_ok hfound
  cases found with
  | none => cases h
  | some ep =>
    obtain ⟨req, b₂, hreq, h⟩ := Dialogue.of_play_bind h
    obtain ⟨hrequest, rfl⟩ := play_check hreq
    obtain ⟨root, nested, rfl, hsent⟩ := settingSent_of_request hep hrequest
    obtain ⟨res, b₃, hset, h⟩ := Dialogue.of_play_bind h
    obtain ⟨u, b₄, hcheck, h⟩ := Dialogue.of_play_bind h
    obtain ⟨-, rfl⟩ := play_raiseOnFailed hcheck
    obtain ⟨j, b₅, hreload, h⟩ := Dialogue.of_play_bind h
    cases h
    have hreload' := reads_reconfigureModel hreload
    have hset' := play_request hset
    rw [Box.respond, find_setPath ep (settingEndpoint_mem hep)] at hset'
    obtain ⟨-, rfl⟩ := Prod.mk.inj hset'
    subst hreload'
    -- the device assigns the leaves below the path of the endpoint's model
    funext f
    cases f with
    | setting p =>
      simp only [overlay, settingWrites, hsent, Box.reads, Box.assign]
      split_ifs
      · cases leafAt nested (p.drop ep.xmlPath.length) <;> rfl
      · rfl
    | aliasNamed n | aliasField n k | ruleset f => exact (overlay_none _ rfl).symm

/-! #### Rulesets -/

theorem filenames_of_rulesetNames {xs : List Json} {names : List String}
    (h : rulesetNames xs = .ok names) :
    filenames (.arr xs) = names ∧ xs = names.map Json.str ∧ ∀ f ∈ names, f ≠ "" := by
  induction xs generalizing names with
  | nil =>
    obtain rfl := Except.ok.inj h
    exact ⟨rfl, rfl, nofun⟩
  | cons x xs ih =>
    obtain ⟨n, hn, h⟩ := except_bind_ok h
    obtain ⟨ns, hns, h⟩ := except_bind_ok h
    obtain rfl := Except.ok.inj h
    obtain ⟨hfiles, hxs, hne⟩ := ih hns
    cases x with
    | str s =>
      rw [rulesetName] at hn
      split_ifs at hn with hsafe
      obtain rfl := Except.ok.inj hn
      refine ⟨congrArg (s :: ·) hfiles, by rw [hxs, List.map_cons], ?_⟩
      refine List.forall_mem_cons.mpr ⟨?_, hne⟩
      rintro rfl
      cases hsafe
    | null | bool _ | int _ | float _ | arr _ | obj _ => cases hn

theorem play_toggleRulesets {names : List String} {u : Unit}
    (h : (toggleRulesets names).play (Box.serve ν) b = some (.ok u, b')) :
    b'.settings = b.settings ∧ b'.aliases = b.aliases ∧
      ∀ f, b'.enabled f = (b.enabled f || decide (f ∈ names)) := by
  induction names generalizing b with
  | nil =>
    cases h
    exact ⟨rfl, rfl, fun f => by simp⟩
  | cons n names ih =>
    obtain ⟨res, b₁, hone, h⟩ := Dialogue.of_play_bind h
    have hone' := play_request hone
    rw [Box.respond] at hone'
    obtain ⟨-, rfl⟩ := Prod.mk.inj hone'
    obtain ⟨hsettings, haliases, henabled⟩ := ih h
    refine ⟨hsettings, haliases, fun f => ?_⟩
    rw [henabled, Bool.or_assoc]
    congr 1
    by_cases hf : f = n <;> simp [hf]

/-- **A ruleset change that is applied enables its rulesets.** -/
theorem reads_applyIdsRulesets {operation : String} {payload : Dict} {z : Json}
    (h : (applyIdsRulesets operation payload false).play (Box.serve ν) b = some (.ok z, b')) :
    b'.reads = overlay (rulesetWrites payload) b.reads := by
  rw [applyIdsRulesets] at h
  split at h
  · rename_i raw hraw
    obtain ⟨names, b₁, hcheck, h⟩ := Dialogue.of_play_bind h
    obtain ⟨hnames, rfl⟩ := play_check hcheck
    obtain ⟨hfiles, -, -⟩ := filenames_of_rulesetNames hnames
    obtain ⟨u, b₂, htoggle, h⟩ := Dialogue.of_play_bind h
    obtain ⟨hsettings, haliases, henabled⟩ := play_toggleRulesets htoggle
    obtain ⟨j, b₃, hreload, h⟩ := Dialogue.of_play_bind h
    have hreload' := play_request hreload
    rw [Box.respond] at hreload'
    obtain ⟨-, rfl⟩ := Prod.mk.inj hreload'
    cases h
    funext f
    cases f with
    | setting p => rw [overlay_none _ rfl, Box.reads, Box.reads, hsettings]
    | aliasNamed n =>
      rw [overlay_none _ rfl, Box.reads, Box.reads, Box.alias?, Box.alias?, haliases]
    | aliasField n k =>
      rw [overlay_none _ rfl, Box.reads, Box.reads, Box.alias?, Box.alias?, haliases]
    | ruleset f =>
      rw [overlay, rulesetWrites, hraw, hfiles, Box.reads, henabled]
      split_ifs with hf
      · simp [hf, flag]
      · simp [hf, Box.reads]
  · cases h

/-! ### A history on the device -/

/-- **A change that is applied writes what it describes, a dry run nothing.** -/
theorem reads_push {p : Push} (h : b.push ν p = some b') :
    b'.reads = overlay (p.writes ν) b.reads := by
  rw [Box.push] at h
  split at h
  · rename_i z b₁ hplay
    obtain rfl := Option.some.inj h
    cases hlive : p.live with
    | false =>
      rw [hlive] at hplay
      rw [(applyForKind_dry _ _ _).play hplay, Push.writes, hlive]
      rfl
    | true =>
      rw [hlive] at hplay
      rw [Push.writes, hlive]
      rcases List.mem_cons.mp p.kind with hkind | hkind
      · rw [hkind] at hplay ⊢
        exact @reads_applyOpnsenseSetting ν b b₁ p.change.operation p.change.payload z hplay
      · rcases List.mem_cons.mp hkind with hkind | hkind
        · rw [hkind] at hplay ⊢
          exact reads_applyAlias hplay
        · rw [List.mem_singleton.mp hkind] at hplay ⊢
          exact @reads_applyIdsRulesets ν b b₁ p.change.operation p.change.payload z hplay
  · cases h

/-- **After a history every place reads what was pushed to it last.** -/
theorem reads_run {start : Box} {history : List Push} (h : start.run ν history = some b) :
    b.reads = lastPushed ν start history := by
  have hfold : b.reads = (history.map (Push.writes ν)).foldl (fun r w => overlay w r) start.reads := by
    induction history generalizing start with
    | nil =>
      obtain rfl := Option.some.inj h
      rfl
    | cons p history ih =>
      obtain ⟨b₁, hp, h⟩ := Option.bind_eq_some_iff.mp h
      rw [ih h, reads_push hp]
      rfl
  funext f
  rw [hfold, foldl_overlay]
  rfl

end Apply

end ConfigDrift

end Opngms
