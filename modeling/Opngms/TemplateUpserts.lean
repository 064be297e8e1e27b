/-
Opngms/TemplateUpserts.lean

Applying a template of a record kind (`TEMPLATE_KINDS` in `app/services/templates.py`, the
appliers in `app/connectors/opnsense/client.py`).

The change of a template is a `set` of its body.  A rule, a test and a policy are upserted by
their identity; an alias is set only if there is one, and a test is attached only if there is one
system service (`Upsertable`).  The box stores the identity of a rule or of a test as it stands in
the body, so it is found again only if it is stored as the text the connector looks for.

Main result: **`upsert_twice`**.  One application succeeds, one record has the identity
afterwards, with the fields of the body, and the others are as before; a second application
leaves the box.
-/
import Opngms.MonitServices
import Opngms.Upserts

namespace Opngms

open Appliance Dialogue

variable {A : Appliance}

/-! ### What is applied -/

namespace StoredKind

/-- The name of the template kind. -/
def template : StoredKind → String
  | firewallAlias => "firewall_alias"
  | firewallRule => "firewall_rule"
  | monitTest => "monit_test"
  | idsPolicy => "ids_policy"

def names (k : StoredKind) (body : Dict) : Fields → Bool := k.finds (k.record.identity body)

end StoredKind

def applyBody (kind : String) (body : Dict) : Client Json := do
  let spec ← Dialogue.ofExcept (templateKind kind)
  let (operation, _, payload) ← Dialogue.ofExcept (spec.toChange body)
  applyForKind spec.changeKind operation payload false

/-! ### Upserts of a box -/

theorem Configuration.eq_of_store {S T : Configuration A} (hscalars : T.scalars = S.scalars)
    (hstore : T.store = S.store) : T = S := by
  cases S
  cases T
  cases hscalars
  cases hstore
  rfl

namespace ServiceBox

/-- The record written over the one found, or added. -/
def put (B : ServiceBox A) (γ : String) (q : Fields → Bool) (item : Dict) : ServiceBox A :=
  { B with
    config :=
      match B.config.store.matching γ q with
      | [] => B.config.addRow γ item
      | [r] => B.config.setRow γ r.uuid item
      | _ => B.config }

variable {B : ServiceBox A} {γ : String} {q : Fields → Bool} {item : Dict}

theorem put_store : (B.put γ q item).config.store =
    B.config.store.upserted A.uuids γ q (A.rewrite γ item) := by
  rw [put, RowStore.upserted, RowStore.placing]
  rcases B.config.store.matching γ q with - | ⟨r, - | ⟨r', rs⟩⟩ <;> rfl

theorem put_scalars : (B.put γ q item).config.scalars = B.config.scalars := by
  rw [put]
  rcases B.config.store.matching γ q with - | ⟨r, - | ⟨r', rs⟩⟩ <;> rfl

def foundUuid (B : ServiceBox A) (γ : String) (q : Fields → Bool) : Option String :=
  (B.config.store.matching γ q).head?.map Row.uuid

/-- The uuid under the identity after the upsert. -/
def putUuid (B : ServiceBox A) (γ : String) (q : Fields → Bool) : String :=
  B.config.store.carrier A.uuids γ q

theorem play_search {req : Request} {p : Dict → Bool} {what : String} {ambiguous : Nat → String}
    (hreq : B.reply req = (search B.config γ, B)) (hone : (B.config.store.matching γ q).length ≤ 1)
    (hp : ∀ r : Row String String Fields, p (rowDict r) = q r.fields) :
    ((post req).bind fun data => (builtin (matchingRows p data)).bind fun ms =>
      uniqueUuid what ambiguous ms).play serve B = some (.ok (B.foundUuid γ q), B) := by
  refine (play_bind_ok (play_post_ok hreq)).trans ?_
  rw [matchingRows_search hp]
  show (uniqueUuid what ambiguous ((B.config.store.matching γ q).map rowDict)).play serve B = _
  rw [foundUuid]
  rcases uniqueUuid_rows what ambiguous (B.config.store.matching γ q)
    (fun r hr => (RowStore.mem_matching.mp hr).1) with ⟨hnone, hu⟩ | ⟨r, hr, hu⟩ | ⟨hmany, -⟩
  · rw [hu, hnone]
    rfl
  · rw [hu, hr]
    rfl
  · omega

theorem play_set {r : Row String String Fields} {req : Request}
    (hm : B.config.store.matching γ q = [r])
    (hset : B.reply req = ((Appliance.set B.config γ r.uuid item).1,
      { B with config := (Appliance.set B.config γ r.uuid item).2 })) :
    (post req).play serve B = some (.ok saved, B.put γ q item) := by
  obtain ⟨hr, ht, -⟩ := RowStore.mem_of_matching hm
  have hhas : B.config.store.has γ r.uuid = true :=
    List.any_eq_true.mpr ⟨r, hr, RowStore.is_self ht⟩
  have hsaved : Appliance.set B.config γ r.uuid item =
      (.ok saved, B.config.setRow γ r.uuid item) := if_pos hhas
  rw [hsaved] at hset
  rw [put, hm]
  exact play_post_ok hset

theorem play_upsert {add : Request} {set : String → Request}
    (hone : (B.config.store.matching γ q).length ≤ 1)
    (hadd : B.reply add = ((Appliance.add B.config γ item).1,
      { B with config := (Appliance.add B.config γ item).2 }))
    (hset : ∀ u, B.reply (set u) = ((Appliance.set B.config γ u item).1,
      { B with config := (Appliance.set B.config γ u item).2 })) :
    ∃ res, (post (upsert (B.foundUuid γ q) add set)).play serve B =
        some (.ok res, B.put γ q item) ∧ rejected res = false ∧
      writtenTestUuid (B.foundUuid γ q) res = .ok (.str (B.putUuid γ q)) := by
  rw [foundUuid, putUuid, RowStore.carrier]
  rcases RowStore.matching_le_one hone with hm | ⟨r, hm⟩
  · rw [put, hm]
    exact ⟨_, play_post_ok hadd, rfl, rfl⟩
  · have hplay := play_set hm (hset r.uuid)
    rw [hm]
    exact ⟨_, hplay, rfl, rfl⟩

/-- The program succeeds and leaves this box. -/
def Succeeds (p : Client Json) (B B' : ServiceBox A) : Prop :=
  ∃ res, p.play serve B = some (.ok res, B')

theorem succeeds_bind {α : Type} {p : Client α} {f : α → Client Json} {a : α} {B' B'' : ServiceBox A}
    (hp : p.play serve B = some (.ok a, B')) (hf : Succeeds (f a) B' B'') :
    Succeeds (p.bind f) B B'' := by
  obtain ⟨res, hres⟩ := hf
  exact ⟨res, (play_bind_ok hp).trans hres⟩

theorem succeeds_reloaded {res : Json} {what : String} {reload : Request} {j : Json}
    (hres : rejected res = false) (hreload : B.reply reload = (.ok j, B)) (result : Json) :
    Succeeds ((raiseOnFailed res what).bind fun _ => (post reload).bind fun _ => .pure result) B B := by
  rw [raiseOnFailed_saved what hres]
  exact ⟨result, play_bind_ok (play_post_ok hreload)⟩

end ServiceBox

/-! ### Identities of what is written -/

/-- A box has the columns of the identities, and a rule is on no interface unless it names
one. -/
structure Appliance.KeepsIdentities (A : Appliance) : Prop where
  column : ∀ k : StoredKind, k.column ∈ (A.columns k.table).map (·.1)
  interface : (A.columns "rule").lookup "interface" = some ""

/-- The identity of a rule and of a test is sent as it stands in the body. -/
def StoredKind.sentKeys : StoredKind → List String
  | firewallAlias => []
  | firewallRule => ["description", "interface"]
  | monitTest => ["name"]
  | idsPolicy => []

/-- A body can be upserted on a box. -/
structure Upsertable (k : StoredKind) (body : Dict) (B : ServiceBox A) : Prop where
  valid : validateBody k.template body = .ok ()
  unique : (B.config.store.matching k.table (k.names body)).length ≤ 1
  /-- An alias is set, never added. -/
  present : k = .firewallAlias → B.config.store.matching k.table (k.names body) ≠ []
  enabled : k = .idsPolicy → ∀ n ∈ policyRulesets body, (A.rulesetFile n).isSome = true
  /-- A test is attached to the one system service. -/
  service : k = .monitTest → attachDirective body = true → ∃ s, B.system = [s]
  /-- The identity is stored as the text that is looked for. -/
  stored : ∀ c ∈ k.sentKeys, ∀ v, Dict.get? body c = some v → A.text v = v.pyStr

theorem lookup_fill (A : Appliance) (base : Fields) (item : Dict) (c : String) :
    (A.fill base item).lookup c = (base.lookup c).map fun d =>
      match Dict.get? item c with
      | some v => A.text v
      | none => d := by
  induction base with
  | nil => rfl
  | cons kv base ih =>
    obtain ⟨c', d⟩ := kv
    show ((c', _) :: A.fill base item).lookup c = _
    rw [List.lookup_cons, List.lookup_cons, ih]
    cases hc : c == c' with
    | true =>
      obtain rfl := eq_of_beq hc
      rfl
    | false => rfl

theorem fill_fill (A : Appliance) (base : Fields) (item : Dict) :
    A.fill (A.fill base item) item = A.fill base item := by
  rw [fill, fill, List.map_map]
  refine List.map_congr_left fun kv _ => ?_
  rw [Function.comp_apply]
  cases Dict.get? item kv.1 <;> rfl

theorem rewrite_settles (A : Appliance) (γ : String) (item : Dict) : (A.rewrite γ item).Settles where
  fresh := fill_fill A _ item
  onto φ := fill_fill A φ item

/-- An item names the interface, or leaves a rule on none. -/
def NamesInterface (A : Appliance) (item : Dict) (interface : String) : Prop :=
  (∃ v, Dict.get? item "interface" = some v ∧ A.text v = interface) ∨
    Dict.get? item "interface" = none ∧ interface = ""

theorem interface_fill {item : Dict} {interface : String} (h : NamesInterface A item interface)
    {base : Fields} (hbase : (base.lookup "interface").getD "" = interface ∨
      base.lookup "interface" = some "") :
    ((A.fill base item).lookup "interface").getD "" = interface := by
  rw [lookup_fill]
  rcases h with ⟨v, hv, htext⟩ | ⟨hnone, hempty⟩
  · rw [hv]
    cases hl : base.lookup "interface" with
    | none =>
      rw [hl] at hbase
      exact hbase.resolve_right nofun
    | some d => exact htext
  · rw [hnone]
    rcases hbase with hbase | hbase
    · cases hl : base.lookup "interface" with
      | none =>
        rw [hl] at hbase
        exact hbase
      | some d =>
        rw [hl] at hbase
        exact hbase
    · rw [hbase, hempty]
      rfl

theorem rewrite_carries {k : StoredKind} {id : Json × String} {item : Dict}
    (hid : id.1.truthy = true) (hA : A.KeepsIdentities)
    (hkey : ∃ v, Dict.get? item k.column = some v ∧ .str (A.text v) = id.1)
    (hinterface : k = .firewallRule → NamesInterface A item id.2) :
    (A.rewrite k.table item).Carries (k.finds id) := by
  obtain ⟨v, hv, htext⟩ := hkey
  have hcolumn : ∀ {base : Fields}, base.lookup k.column ≠ none →
      ((A.fill base item).lookup k.column).map Json.str = some id.1 := by
    intro base hbase
    obtain ⟨d, hd⟩ := Option.ne_none_iff_exists'.mp hbase
    rw [lookup_fill, hd, hv, ← htext]
    rfl
  constructor
  · rw [finds_iff hid, Bool.and_eq_true, decide_eq_true_iff, decide_eq_true_iff]
    constructor
    · refine hcolumn fun hnone => ?_
      obtain ⟨kv, hkv, heq⟩ := List.mem_map.mp (hA.column k)
      exact absurd (List.lookup_eq_none_iff.mp hnone kv hkv) (by simp [heq])
    · rintro rfl
      exact interface_fill (hinterface rfl) (.inr hA.interface)
  · intro φ hφ
    rw [finds_iff hid, Bool.and_eq_true, decide_eq_true_iff, decide_eq_true_iff] at hφ ⊢
    obtain ⟨hkey, hscope⟩ := hφ
    constructor
    · refine hcolumn fun hnone => ?_
      rw [hnone] at hkey
      cases hkey
    · exact fun hk => interface_fill (hinterface hk) (.inl (hscope hk))

/-! ### What each kind sends -/

theorem not_blank {s : String} (h : (!isBlank s) = true) : s ≠ "" := by
  rintro rfl
  cases h

theorem identity_truthy {k : StoredKind} {body : Dict} (h : validateBody k.template body = .ok ()) :
    (k.record.identity body).1.truthy = true := by
  have hblank : ∀ {s : String}, (!isBlank s) = true → (Json.str s).truthy = true := fun hs => by
    simpa using not_blank hs
  cases k with
  | firewallAlias =>
    have hvalid : validateAliasBody body = .ok () := h
    obtain ⟨_, hname, -⟩ := except_bind_ok hvalid
    rw [require_eq_ok] at hname
    show (aliasName body).truthy = true
    unfold Dict.getD at hname
    rw [aliasName, Dict.getD]
    cases hn : Dict.get? body "name" with
    | none =>
      rw [hn] at hname
      cases hname
    | some v =>
      rw [hn] at hname
      cases v with
      | str s => exact hblank hname
      | _ => cases hname
  | firewallRule =>
    have hvalid : validateFirewallRule body = .ok () := h
    obtain ⟨_, hfields, -⟩ := except_bind_ok hvalid
    obtain ⟨_, hdescription, -⟩ := except_bind_ok hfields
    exact hblank (require_eq_ok.mp hdescription)
  | monitTest =>
    have hvalid : validateMonitTest body = .ok () := h
    obtain ⟨_, hname, -⟩ := except_bind_ok hvalid
    exact hblank (require_eq_ok.mp hname)
  | idsPolicy =>
    have hvalid : validateIdsPolicy body = .ok () := h
    obtain ⟨_, hdescription, -⟩ := except_bind_ok hvalid
    exact hblank (require_eq_ok.mp hdescription)

theorem entry_of_truthy {body : Dict} {c : String}
    (h : (Json.str (Dict.getD body c (.str "")).pyStr).truthy = true) :
    ∃ v, Dict.get? body c = some v ∧ (Dict.getD body c (.str "")).pyStr = v.pyStr := by
  rw [Dict.getD] at h ⊢
  cases hv : Dict.get? body c with
  | none =>
    rw [hv] at h
    cases h
  | some v => exact ⟨v, rfl, rfl⟩

/-- What is sent for a body carries its identity. -/
theorem item_carries {k : StoredKind} {body : Dict} {B : ServiceBox A} (hA : A.KeepsIdentities)
    (h : Upsertable k body B) :
    ∃ item, k.item A body = some item ∧ (A.rewrite k.table item).Carries (k.names body) := by
  have hid := identity_truthy h.valid
  cases k with
  | firewallAlias =>
    refine ⟨_, rfl, rewrite_carries hid hA ?_ (by simp)⟩
    have hvalid : validateAliasBody body = .ok () := h.valid
    obtain ⟨name, hname⟩ := validateAliasBody_name hvalid
    -- the check wants a name, and the payload keeps it
    have hget : Dict.get? body "name" = some (.str name) := by
      unfold Dict.getD at hname
      cases hv : Dict.get? body "name" with
      | none =>
        rw [hv] at hname
        cases hname
      | some v =>
        rw [hv] at hname
        exact congrArg some hname
    have hitem : Dict.get? (normalizeAliasPayload body) "name" = some (.str name) := by
      unfold normalizeAliasPayload
      split
      · rw [Dict.get?_set, if_neg (by decide), hget]
      · exact hget
    refine ⟨_, hitem, ?_⟩
    show Json.str (A.text (.str name)) = aliasName body
    rw [A.text_str, aliasName, Dict.getD, hget]
    rfl
  | firewallRule =>
    obtain ⟨v, hv, htext⟩ := @entry_of_truthy body "description" hid
    refine ⟨_, rfl, rewrite_carries hid hA ⟨v, hv, ?_⟩ fun _ => ?_⟩
    · exact congrArg Json.str ((h.stored "description" (by simp [StoredKind.sentKeys]) v hv).trans
        htext.symm)
    · show NamesInterface A body (ruleInterface body)
      rw [ruleInterface, Dict.getD]
      cases hi : Dict.get? body "interface" with
      | none => exact .inr ⟨hi, rfl⟩
      | some w =>
        exact .inl ⟨w, hi, h.stored "interface" (by simp [StoredKind.sentKeys]) w hi⟩
  | monitTest =>
    obtain ⟨v, hv, htext⟩ := @entry_of_truthy body "name" hid
    refine ⟨_, rfl, rewrite_carries hid hA ⟨v, ?_, ?_⟩ (by simp)⟩
    · rw [Dict.get?_pop]
      exact hv
    · exact congrArg Json.str ((h.stored "name" (by simp [StoredKind.sentKeys]) v hv).trans
        htext.symm)
  | idsPolicy =>
    have hvalid := validPolicy h.valid
    -- a policy is serialized with the uuids of its rulesets
    have hfiles : List.Forall₂ (fun n u => A.rulesetFile n = some u) (policyRulesets body)
        ((policyRulesets body).map fun n => (A.rulesetFile n).getD "") := by
      rw [List.forall₂_map_right_iff, List.forall₂_same]
      intro n hn
      obtain ⟨u, hu⟩ := Option.isSome_iff_exists.mp (h.enabled rfl n hn)
      rw [hu]
      rfl
    refine ⟨_, serialized_of_lists hvalid.lists hvalid.rulesets hfiles,
      rewrite_carries hid hA ⟨.str (recordDescription body), rfl, ?_⟩ (by simp)⟩
    exact congrArg Json.str (A.text_str _)

/-! ### Runs -/

namespace ServiceBox

variable {B : ServiceBox A} {k : StoredKind} {body item : Dict}

def applied (B : ServiceBox A) (k : StoredKind) (body item : Dict) : ServiceBox A :=
  if k = .monitTest ∧ attachDirective body = true then
    (B.put k.table (k.names body) item).attach (B.putUuid k.table (k.names body))
  else B.put k.table (k.names body) item

theorem applied_of_attach (h : k = .monitTest ∧ attachDirective body = true) :
    B.applied k body item =
      (B.put k.table (k.names body) item).attach (B.putUuid k.table (k.names body)) :=
  if_pos h

theorem applied_of_not_attach (h : ¬(k = .monitTest ∧ attachDirective body = true)) :
    B.applied k body item = B.put k.table (k.names body) item :=
  if_neg h

theorem applied_of_ne (h : k ≠ .monitTest) :
    B.applied k body item = B.put k.table (k.names body) item :=
  applied_of_not_attach fun h' => h h'.1

theorem succeeds_alias (hid : (aliasName body).truthy = true) {r : Row String String Fields}
    (hone : B.config.store.matching "alias" (StoredKind.firewallAlias.names body) = [r]) :
    Succeeds (applyAlias "set" body false) B
      (B.put "alias" (StoredKind.firewallAlias.names body) (normalizeAliasPayload body)) := by
  have hresolve : (resolveAliasUuid (aliasName body)).play serve B = some (.ok r.uuid, B) := by
    rw [resolveAliasUuid, hid]
    refine (play_bind_ok (play_post_ok (r := .aliasSearch (aliasName body)) rfl)).trans ?_
    rw [matchingRows_search (q := StoredKind.firewallAlias.names body) (aliasMatches_rowDict hid)]
    rw [hone]
    rfl
  have hset := @play_set A B _ _ (normalizeAliasPayload body) r
    (.aliasSet r.uuid (normalizeAliasPayload body)) hone rfl
  have hmutation : (aliasMutation "set" body).play serve B = _ := (play_bind_ok hresolve).trans hset
  exact succeeds_bind hmutation (succeeds_reloaded rfl rfl _)

theorem succeeds_rule (hid : (Json.str (recordDescription body)).truthy = true)
    (hone : (B.config.store.matching "rule" (StoredKind.firewallRule.names body)).length ≤ 1) :
    Succeeds (applyFirewallRule "set" body false) B
      (B.put "rule" (StoredKind.firewallRule.names body) body) := by
  have hresolve : (resolveRuleUuid (recordDescription body) (ruleInterface body)).play serve B =
      some (.ok (B.foundUuid "rule" (StoredKind.firewallRule.names body)), B) := by
    rw [resolveRuleUuid, if_neg (by simpa using hid)]
    exact play_search rfl hone (ruleMatches_rowDict hid)
  obtain ⟨res, hplay, hres, -⟩ := @play_upsert A B _ _ body (.ruleAdd body)
    (fun u => .ruleSet u body) hone rfl fun _ => rfl
  exact succeeds_bind hresolve (succeeds_bind hplay (succeeds_reloaded hres rfl _))

theorem play_serialize (hitem : A.serialized body = some item) :
    (serializePolicy body).play serve B = some (.ok item, B) := by
  have hbox : (serializePolicy body).play (fun _ _ => some (.ok A.policyModel, ())) () =
      some (.ok item, ()) := by
    unfold Appliance.serialized at hitem
    split at hitem
    · rename_i d _ h
      obtain rfl := Option.some.inj hitem
      exact h
    · cases hitem
  rcases serializePolicy_cases body with ⟨-, e, he⟩ | ⟨-, f, hf, heq⟩
  · rw [he, play_ofExcept] at hbox ⊢
    obtain ⟨rfl, -⟩ := Prod.mk.inj (Option.some.inj hbox)
    rfl
  · obtain ⟨e, he⟩ := hf A.policyModel
    have hbox' : (f A.policyModel).play (fun _ _ => some (.ok A.policyModel, ())) () =
        some (.ok item, ()) := by
      rw [heq] at hbox
      exact hbox
    rw [he, play_ofExcept] at hbox'
    obtain ⟨rfl, -⟩ := Prod.mk.inj (Option.some.inj hbox')
    rw [heq]
    refine (play_bind_ok (play_post_ok (r := .policyGet) rfl)).trans ?_
    rw [he, play_ofExcept]
    rfl

theorem succeeds_policy (hid : (Json.str (recordDescription body)).truthy = true)
    (hone : (B.config.store.matching "policy" (StoredKind.idsPolicy.names body)).length ≤ 1)
    (hitem : A.serialized body = some item) :
    Succeeds (applyIdsPolicy "set" body false) B
      (B.put "policy" (StoredKind.idsPolicy.names body) item) := by
  have hresolve : (resolvePolicyUuid (recordDescription body)).play serve B =
      some (.ok (B.foundUuid "policy" (StoredKind.idsPolicy.names body)), B) := by
    rw [resolvePolicyUuid, if_neg (by simpa using hid)]
    exact play_search rfl hone (column_rowDict .idsPolicy hid (by decide))
  obtain ⟨res, hplay, hres, -⟩ := @play_upsert A B _ _ item (.policyAdd item)
    (fun u => .policySet u item) hone rfl fun _ => rfl
  exact succeeds_bind hresolve (succeeds_bind (play_serialize hitem)
    (succeeds_bind hplay (succeeds_reloaded hres rfl _)))

/-- A test is upserted, and attached where the body says so. -/
theorem succeeds_test (hid : (Json.str (testName body)).truthy = true)
    (hone : (B.config.store.matching "test" (StoredKind.monitTest.names body)).length ≤ 1)
    (hservice : attachDirective body = true → ∃ s, B.system = [s])
    (hsafe : B.putUuid "test" (StoredKind.monitTest.names body) ≠ "") :
    Succeeds (applyMonitTest "set" body false) B
      (B.applied .monitTest body (Dict.pop body "attach_to_system")) := by
  have hresolve : (resolveMonitTestUuid (testName body)).play serve B =
      some (.ok (B.foundUuid "test" (StoredKind.monitTest.names body)), B) := by
    rw [resolveMonitTestUuid, if_neg (by simpa using hid)]
    exact play_search rfl hone (column_rowDict .monitTest hid (by decide))
  obtain ⟨res, hplay, hres, huuid⟩ := @play_upsert A B _ _
    (Dict.pop body "attach_to_system") (.testAdd (Dict.pop body "attach_to_system"))
    (fun u => .testSet u (Dict.pop body "attach_to_system")) hone rfl fun _ => rfl
  refine succeeds_bind hresolve (succeeds_bind hplay ?_)
  refine @succeeds_bind _ _ _ _ _ (.str (B.putUuid "test" (StoredKind.monitTest.names body)))
    (B.put "test" (StoredKind.monitTest.names body) (Dict.pop body "attach_to_system")) _ ?_ ?_
  · rw [huuid]
    rfl
  · rw [raiseOnFailed_saved _ hres]
    refine succeeds_bind (p := .pure ()) rfl ?_
    have htruthy : (Json.str (B.putUuid "test" (StoredKind.monitTest.names body))).truthy = true := by
      simpa using hsafe
    rw [htruthy, Bool.and_true]
    by_cases hattach : attachDirective body = true
    · obtain ⟨s, hs⟩ := hservice hattach
      rw [if_pos hattach, applied_of_attach ⟨rfl, hattach⟩]
      have hsystem : (B.put "test" (StoredKind.monitTest.names body)
          (Dict.pop body "attach_to_system")).system = [s] := hs
      refine succeeds_bind (play_attach hsystem _) ?_
      exact ⟨_, play_bind_ok (play_post_ok (r := .monitReconfigure) rfl)⟩
    · rw [if_neg hattach, applied_of_not_attach fun h => hattach h.2]
      refine succeeds_bind (p := .pure ()) rfl ?_
      exact ⟨_, play_bind_ok (play_post_ok (r := .monitReconfigure) rfl)⟩

theorem putUuid_ne_empty (B : ServiceBox A) (γ : String) (q : Fields → Bool) :
    B.putUuid γ q ≠ "" := by
  have hsafe : safeName (B.putUuid γ q) = true := by
    rw [putUuid, RowStore.carrier]
    cases hm : B.config.store.matching γ q with
    | nil => exact A.uuids_safe _
    | cons r rs =>
      have hr : r ∈ B.config.store.matching γ q := by rw [hm]; exact List.mem_cons_self
      exact B.config.safe r (RowStore.mem_matching.mp hr).1
  exact ne_empty_of_safeName hsafe

/-- **The change of a body that can be upserted succeeds.** -/
theorem succeeds_applyBody (h : Upsertable k body B) (hitem : k.item A body = some item) :
    Succeeds (applyBody k.template body) B (B.applied k body item) := by
  have hid := identity_truthy h.valid
  cases k with
  | firewallAlias =>
    have hvalid : validateAliasBody body = .ok () := h.valid
    obtain ⟨name, hname⟩ := validateAliasBody_name hvalid
    have hchange : changeOfItem "name" body = .ok ("set", .str name, body) := by
      rw [changeOfItem, item_of_getD hname]
      rfl
    obtain ⟨r, hr⟩ := (RowStore.matching_le_one h.unique).resolve_left (h.present rfl)
    obtain rfl := Option.some.inj hitem
    have hrun : applyBody "firewall_alias" body =
        (Dialogue.ofExcept (changeOfItem "name" body)).bind fun change =>
          applyForKind "alias" change.1 change.2.2 false := rfl
    show Succeeds (applyBody "firewall_alias" body) B _
    rw [hrun, hchange, applied_of_ne (by decide)]
    exact succeeds_alias hid hr
  | firewallRule =>
    obtain rfl := Option.some.inj hitem
    rw [applied_of_ne (by decide)]
    exact succeeds_rule hid h.unique
  | monitTest =>
    obtain rfl := Option.some.inj hitem
    exact succeeds_test hid h.unique (h.service rfl) (B.putUuid_ne_empty _ _)
  | idsPolicy =>
    rw [applied_of_ne (by decide)]
    exact succeeds_policy hid h.unique hitem

/-! ### The box afterwards -/

theorem put_eq_self {γ : String} {q : Fields → Bool}
    (h : B.config.store.upserted A.uuids γ q (A.rewrite γ item) = B.config.store) :
    B.put γ q item = B := by
  have hconfig : (B.put γ q item).config = B.config :=
    Configuration.eq_of_store put_scalars (put_store.trans h)
  show ({ B with config := (B.put γ q item).config } : ServiceBox A) = B
  rw [hconfig]

section Afterwards

variable {γ : String} {q : Fields → Bool} (hone : (B.config.store.matching γ q).length ≤ 1)
  (hw : (A.rewrite γ item).Carries q)
include hone hw

theorem matching_put : (B.put γ q item).config.store.matching γ q =
    [⟨B.putUuid γ q, γ, B.config.store.written γ q (A.rewrite γ item)⟩] := by
  rw [put_store]
  exact RowStore.matching_upserted hone hw

theorem put_put : (B.put γ q item).put γ q item = B.put γ q item := by
  refine put_eq_self ?_
  rw [put_store]
  exact RowStore.upserted_again hone hw (rewrite_settles A γ item)

theorem putUuid_put : (B.put γ q item).putUuid γ q = B.putUuid γ q := by
  rw [putUuid, put_store]
  exact RowStore.carrier_upserted hone hw

end Afterwards

theorem applied_config :
    (B.applied k body item).config = (B.put k.table (k.names body) item).config := by
  rw [applied]
  split
  · exact attach_config _ _
  · rfl

/-- **A second application leaves the box.** -/
theorem applied_applied (h : Upsertable k body B)
    (hw : (A.rewrite k.table item).Carries (k.names body)) :
    (B.applied k body item).applied k body item = B.applied k body item := by
  have hput := put_put h.unique hw
  by_cases hattach : k = .monitTest ∧ attachDirective body = true
  · obtain ⟨s, hs⟩ := h.service hattach.1 hattach.2
    have hsystem : (B.put k.table (k.names body) item).system = [s] := hs
    -- the record is written as it is, so its row is found under the same uuid
    have hself : (B.applied k body item).put k.table (k.names body) item = B.applied k body item := by
      refine put_eq_self ?_
      rw [applied_config, put_store]
      exact RowStore.upserted_again h.unique hw (rewrite_settles A _ item)
    have huuid : (B.applied k body item).putUuid k.table (k.names body) =
        B.putUuid k.table (k.names body) := by
      rw [putUuid, applied_config]
      exact putUuid_put h.unique hw
    have hrow : (B.put k.table (k.names body) item).config.store.has "test"
        (B.putUuid k.table (k.names body)) = true := by
      obtain ⟨hr, -, -⟩ := RowStore.mem_of_matching (matching_put h.unique hw)
      rw [hattach.1] at hr ⊢
      exact List.any_eq_true.mpr ⟨_, hr, RowStore.is_self rfl⟩
    rw [applied_of_attach (B := B.applied k body item) hattach, hself, huuid,
      applied_of_attach hattach]
    exact attach_attach hsystem hrow
  · rw [applied_of_not_attach hattach, applied_of_not_attach hattach, hput]

theorem upsertable_applied (h : Upsertable k body B)
    (hw : (A.rewrite k.table item).Carries (k.names body)) :
    Upsertable k body (B.applied k body item) := by
  have hm := matching_put h.unique hw
  rw [← applied_config] at hm
  refine ⟨h.valid, by simp [hm], fun _ => by simp [hm], h.enabled, fun hk hattach => ?_, h.stored⟩
  obtain ⟨s, hs⟩ := h.service hk hattach
  have hsystem : (B.put k.table (k.names body) item).system = [s] := hs
  rw [applied_of_attach ⟨hk, hattach⟩]
  exact system_attach hsystem _

end ServiceBox

/-- The one record under the identity of the body carries the fields of the body, and the other
records are those that were there. -/
structure Upserted (k : StoredKind) (body : Dict) (B B' : ServiceBox A) : Prop where
  one : ∃ item r, k.item A body = some item ∧
    B'.config.store.matching k.table (k.names body) = [r] ∧
    ∀ c v, Dict.get? item c = some v → c ∈ (A.columns k.table).map (·.1) →
      r.fields.lookup c = some (A.text v)
  others : B'.config.store.others k.table (k.names body) =
    B.config.store.others k.table (k.names body)

theorem lookup_written {B : ServiceBox A} {γ : String} {q : Fields → Bool} {item : Dict} {c : String}
    {v : Json} (hv : Dict.get? item c = some v) (hc : c ∈ (A.columns γ).map (·.1)) :
    (B.config.store.written γ q (A.rewrite γ item)).lookup c = some (A.text v) := by
  have hfill : ∀ base : Fields, c ∈ base.map (·.1) → (A.fill base item).lookup c = some (A.text v) := by
    intro base hbase
    rw [lookup_fill, hv]
    cases hl : base.lookup c with
    | some d => rfl
    | none =>
      obtain ⟨kv, hkv, heq⟩ := List.mem_map.mp hbase
      exact absurd (List.lookup_eq_none_iff.mp hl kv hkv) (by simp [heq])
  rw [RowStore.written]
  cases hm : B.config.store.matching γ q with
  | nil => exact hfill _ hc
  | cons r rs =>
    have hr : r ∈ B.config.store.matching γ q := by rw [hm]; exact List.mem_cons_self
    obtain ⟨hmem, ht, -⟩ := RowStore.mem_matching.mp hr
    refine hfill _ ?_
    rw [B.config.fits r hmem, ht]
    exact hc

/-- **Applying a template body is an idempotent upsert.** -/
theorem upsert_twice {k : StoredKind} {body : Dict} {B : ServiceBox A} (hA : A.KeepsIdentities)
    (h : Upsertable k body B) :
    ∃ B', ServiceBox.Succeeds (applyBody k.template body) B B' ∧ Upserted k body B B' ∧
      ServiceBox.Succeeds (applyBody k.template body) B' B' := by
  obtain ⟨item, hitem, hw⟩ := item_carries hA h
  have hagain := ServiceBox.succeeds_applyBody (ServiceBox.upsertable_applied h hw) hitem
  rw [ServiceBox.applied_applied h hw] at hagain
  refine ⟨B.applied k body item, ServiceBox.succeeds_applyBody h hitem, ⟨?_, ?_⟩, hagain⟩
  · have hrow := ServiceBox.matching_put h.unique hw
    rw [← ServiceBox.applied_config] at hrow
    exact ⟨item, _, hitem, hrow, fun c v hv hc => lookup_written hv hc⟩
  · rw [ServiceBox.applied_config, ServiceBox.put_store]
    exact RowStore.others_upserted h.unique hw

/-! ### A box without records -/

def templateBox : Appliance :=
  { jailBox with
    columns := fun γ =>
      if γ = "rule" then [("description", ""), ("interface", ""), ("action", "")]
      else [("name", ""), ("description", ""), ("content", "")]
    columns_nodup := fun γ => by
      split <;> decide
    text := storedText
    text_str := storedText_str }

theorem templateBox_keeps : templateBox.KeepsIdentities where
  column k := by cases k <;> decide
  interface := rfl

theorem noRows_known : ∀ r ∈ ([] : List (Row String String Fields)), r.uuid ∈ ([] : List String) :=
  List.forall_mem_nil _

theorem noRows_safe : ∀ r ∈ ([] : List (Row String String Fields)), safeName r.uuid = true :=
  List.forall_mem_nil _

def emptyBox : ServiceBox templateBox where
  config :=
    { scalars := fun _ => ""
      store := ⟨[], [], List.nodup_nil, noRows_known⟩
      fits := nofun
      safe := noRows_safe }
  services := []
  distinct := List.nodup_nil

def webRule : Dict :=
  [("description", .str "web"), ("action", .str "pass"), ("direction", .str "in"),
    ("ipprotocol", .str "inet")]

/-- A box with a rule of that description, and another one. -/
def twoRules : ServiceBox templateBox where
  config :=
    { scalars := fun _ => ""
      store := ⟨[⟨"r1", "rule", [("description", "web"), ("interface", ""), ("action", "block")]⟩,
        ⟨"r2", "rule", [("description", "dns"), ("interface", ""), ("action", "pass")]⟩],
        ["r1", "r2"], by decide, by decide⟩
      fits := by decide
      safe := by decide }
  services := []
  distinct := List.nodup_nil

/-- The rule that is there is written over, and applying it again leaves the box. -/
theorem webRule_upserted : Upsertable .firewallRule webRule twoRules ∧
    ∃ B', ServiceBox.Succeeds (applyBody "firewall_rule" webRule) twoRules B' ∧
      Upserted .firewallRule webRule twoRules B' ∧
      ServiceBox.Succeeds (applyBody "firewall_rule" webRule) B' B' := by
  have h : Upsertable .firewallRule webRule twoRules := by
    refine ⟨by decide +kernel, by decide +kernel, nofun, nofun, nofun, ?_⟩
    intro c hc v hv
    simp only [StoredKind.sentKeys, List.mem_cons, List.not_mem_nil, or_false] at hc
    rcases hc with rfl | rfl
    · obtain rfl := Option.some.inj hv
      rfl
    · cases hv
  exact ⟨h, upsert_twice templateBox_keeps h⟩

def hostAlias : Dict :=
  [("name", .str "web"), ("type", .str "host"), ("content", .arr [.str "10.0.0.1"])]

def attachedTest : Dict :=
  [("name", .str "disk"), ("type", .str "SystemResource"), ("condition", .str "usage"),
    ("action", .str "alert"), ("attach_to_system", .str "1")]

def flaggedRule : Dict :=
  [("description", .bool true), ("action", .str "pass"), ("direction", .str "in"),
    ("ipprotocol", .str "inet")]

/-- An alias that is not there is refused, and so is the attachment of a test where there is no
system service; a rule whose description is no text is added once more by each application. -/
theorem not_every_body_upserted :
    (validateBody "firewall_alias" hostAlias = .ok () ∧
      (applyBody "firewall_alias" hostAlias).play ServiceBox.serve emptyBox =
        some (.error (.opnsense (.apiError 0
          "alias 'web' not uniquely resolvable (0 exact matches)")), emptyBox)) ∧
    (validateBody "monit_test" attachedTest = .ok () ∧
      ((applyBody "monit_test" attachedTest).play ServiceBox.serve emptyBox).map (·.1) =
        some (.error (.opnsense (.apiError 0
          "monit system service not uniquely resolvable (0)")))) ∧
    validateBody "firewall_rule" flaggedRule = .ok () ∧
      (((applyBody "firewall_rule" flaggedRule).play ServiceBox.serve emptyBox).bind fun z =>
        ((applyBody "firewall_rule" flaggedRule).play ServiceBox.serve z.2).map fun z' =>
          z'.2.config.store.rows.map fun r => r.fields.lookup "description") =
        some [some "1", some "1"] := by
  refine ⟨⟨by decide +kernel, ?_⟩, ⟨by decide +kernel, ?_⟩, by decide +kernel, ?_⟩
  · rfl
  · rfl
  · rfl

end Opngms
