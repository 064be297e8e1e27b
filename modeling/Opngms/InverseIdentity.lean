/-
Opngms/InverseIdentity.lean

Which record an inverse is about.

An applier takes the identity of its record from the payload: the name of an
alias or a test, the description and interface of a rule, the description of a
policy, the endpoint key of a setting.  The inverse builders start from
`change.target` and look into the payload only where the target is empty.
Nothing on the way of a proposal ties the two together, so a change whose
target names another record than its payload is reverted on that other record.

**`inverse_identity_iff`** is the exact condition, for the five kinds with an
identity: the inverse addresses what the change addressed if and only if the
target is empty or is the identity itself.
-/
import Opngms.ConfigApi

namespace Opngms

/-! ### Identities -/

/-- The kinds whose changes address one record, or one setting. -/
inductive RecordKind where
  | firewallAlias
  | firewallRule
  | monitTest
  | idsPolicy
  | opnsenseSetting
  deriving DecidableEq

namespace RecordKind

def text : RecordKind → String
  | firewallAlias => "alias"
  | firewallRule => "firewall_rule"
  | monitTest => "monit_test"
  | idsPolicy => "ids_policy"
  | opnsenseSetting => "opnsense_setting"

/-- What the applier of the kind looks its record up by, the interface of a
rule apart. -/
def key : RecordKind → Dict → Json
  | firewallAlias, payload => aliasName payload
  | firewallRule, payload => .str (recordDescription payload)
  | monitTest, payload => .str (testName payload)
  | idsPolicy, payload => .str (recordDescription payload)
  | opnsenseSetting, payload => settingKey payload

/-- The interface, for the kind that has one in its identity. -/
def scope : RecordKind → Dict → String
  | firewallRule, payload => ruleInterface payload
  | _, _ => ""

/-- The identity the applier of the kind resolves on the box. -/
def identity (k : RecordKind) (payload : Dict) : Json × String :=
  (k.key payload, k.scope payload)

/-- The key the inverse is built for: the target of the change, or that of its
payload where the target is empty. -/
def targetKey (k : RecordKind) (change : Change) : Json :=
  if change.target = "" then k.key change.payload else .str change.target

end RecordKind

/-! ### Records of a snapshot -/

def Elem.HasOnce (el : Elem) (t : String) : Prop := (el.childrenTagged t).length ≤ 1

/-- The box writes each identifying field of a record once. -/
structure WrittenOnce (root : Elem) : Prop where
  alias_name : ∀ el ∈ root.iter, el.tag = "alias" → Elem.HasOnce el "name"
  rule_description : ∀ el ∈ root.iterfind fwRulePath, Elem.HasOnce el "description"
  rule_interface : ∀ el ∈ root.iterfind fwRulePath, Elem.HasOnce el "interface"
  test_name : ∀ el ∈ root.iterfind monitTestPath, Elem.HasOnce el "name"

theorem strDict_put (d : List (String × String)) (k v : String) :
    strDict (Elem.record.put d k v) = Dict.set (strDict d) k (.str v) := by
  induction d with
  | nil => rfl
  | cons kv d ih =>
    obtain ⟨k', v'⟩ := kv
    by_cases hk : k' = k
    · simp [Elem.record.put, strDict, Dict.set, hk]
    · have hih : List.map _ _ = _ := ih
      simp [Elem.record.put, strDict, Dict.set, hk, hih]

theorem get?_record (el : Elem) (t : String) :
    Dict.get? (strDict el.record) t =
      (el.childrenTagged t).getLast?.map fun c => .str c.text := by
  -- the fold of `record`, from any dictionary built so far
  have hfold : ∀ (cs : List Elem) (d : List (String × String)),
      Dict.get? (strDict (cs.foldl (fun d c => Elem.record.put d c.tag c.text) d)) t =
        ((cs.filter (·.tag == t)).getLast?.map fun c => Json.str c.text).or
          (Dict.get? (strDict d) t) := by
    intro cs
    induction cs with
    | nil => intro d; rfl
    | cons c cs ih =>
      intro d
      rw [List.foldl_cons, ih, strDict_put, Dict.get?_set]
      by_cases hc : c.tag = t
      · rcases hl : (cs.filter (·.tag == t)).getLast? with - | e
        · simp [hc, hl, List.getLast?_cons]
        · simp [hc, hl, List.getLast?_cons]
      · simp [hc]
  rw [Elem.record, hfold]
  simp [strDict, Elem.childrenTagged]

theorem getD_record {el : Elem} {t : String} (h : Elem.HasOnce el t) :
    Dict.getD (strDict el.record) t (.str "") = .str (el.findtext t) := by
  have hf : el.find [t] = (el.childrenTagged t).head? := by
    simp [Elem.find, Elem.findall]
  rw [Dict.getD, get?_record, Elem.findtext, hf]
  unfold Elem.HasOnce at h
  rcases hc : el.childrenTagged t with - | ⟨c, - | ⟨c', cs⟩⟩
  · simp
  · simp
  · rw [hc] at h
    simp at h

/-! ### What each builder addresses -/

/-- The snapshot, where there is one that parses, writes identities once. -/
def SnapshotOk (env : Env) (snapshotXml : Option String) : Prop :=
  ∀ xml root, snapshotXml = some xml → env.parseXml xml = some root → WrittenOnce root

theorem needSnapshot_ok {snapshotXml : Option String} {what xml : String}
    (h : needSnapshot snapshotXml what = .ok xml) : snapshotXml = some xml := by
  rcases snapshotXml with - | x
  · cases h
  · by_cases hx : x = ""
    · simp [needSnapshot, hx] at h
    · simpa [needSnapshot, hx] using h

theorem parseConfig_ok {env : Env} {xml : String} {root : Elem}
    (h : parseConfig env xml = .ok root) : env.parseXml xml = some root := by
  unfold parseConfig at h
  split at h
  · rename_i r hr
    rw [hr, Except.ok.inj h]
  · cases h

section Builders

variable {env : Env} {change : Change} {snapshotXml : Option String} {op : String} {target : Json}
  {payload : Dict}

theorem invertAlias_key (hdoc : SnapshotOk env snapshotXml)
    (h : invertAlias env change snapshotXml = .ok (op, target, payload)) :
    aliasName payload = targetOr change "name" := by
  unfold invertAlias at h
  dsimp only at h
  split at h
  · obtain ⟨-, -, rfl⟩ := by simpa using Except.ok.inj h
    simp [aliasName, Dict.getD]
  · obtain ⟨xml, hxml, h⟩ := except_bind_ok h
    obtain ⟨root, hroot, h⟩ := except_bind_ok h
    have hone := hdoc xml root (needSnapshot_ok hxml) (parseConfig_ok hroot)
    split at h
    · cases h
    · rename_i prev hprev
      obtain ⟨-, -, rfl⟩ := by simpa using Except.ok.inj h
      obtain ⟨el, hel, rfl⟩ := Option.map_eq_some_iff.mp hprev
      have hmem := List.mem_filter.mp (List.mem_of_find?_eq_some hel)
      have hname := List.find?_some hel
      have htag : el.tag = "alias" := by simpa using hmem.2
      -- the element was found by its first name, which is its only one
      have hrec := getD_record (hone.alias_name el hmem.1 htag)
      split at hname
      · rename_i n hn
        have htext : el.findtext "name" = n.text := by simp [Elem.findtext, hn]
        have hn' : Json.str n.text = targetOr change "name" := by simpa using hname
        rw [← hn', ← htext, ← hrec]
        rcases hg : Dict.get? (strDict el.record) "name" with - | v
        · rw [htext, hn'] at hrec
          simp [aliasName, Dict.getD]
        · simp [aliasName]
      · cases hname

theorem invertRecord_payload {what : String} {path : List String} {tgt : Json} {identity : Dict}
    (h : invertRecord env what path tgt identity change snapshotXml = .ok (op, target, payload)) :
    payload = identity ∨
      ∃ xml root el, snapshotXml = some xml ∧ env.parseXml xml = some root ∧
        el ∈ root.iterfind path ∧ (∀ tv ∈ identity, Json.str (el.findtext tv.1) = tv.2) ∧
        payload = strDict el.record := by
  unfold invertRecord at h
  split at h
  · left
    obtain ⟨-, -, rfl⟩ := by simpa using Except.ok.inj h
    rfl
  · obtain ⟨xml, hxml, h⟩ := except_bind_ok h
    obtain ⟨root, hroot, h⟩ := except_bind_ok h
    split at h
    · left
      obtain ⟨-, -, rfl⟩ := by simpa using Except.ok.inj h
      rfl
    · right
      rename_i prior hprior
      obtain ⟨-, -, rfl⟩ := by simpa using Except.ok.inj h
      obtain ⟨el, hel, rfl⟩ := Option.map_eq_some_iff.mp hprior
      have hmatch := List.find?_some hel
      refine ⟨xml, root, el, needSnapshot_ok hxml, parseConfig_ok hroot,
        List.mem_of_find?_eq_some hel, fun tv htv => ?_, rfl⟩
      exact of_decide_eq_true (List.all_eq_true.mp hmatch tv htv)

theorem invertFirewallRule_identity (hdoc : SnapshotOk env snapshotXml)
    (h : invertFirewallRule env change snapshotXml = .ok (op, target, payload)) :
    recordDescription payload = (targetOr change "description").pyStr ∧
      ruleInterface payload = ruleInterface change.payload := by
  rcases invertRecord_payload h with rfl | ⟨xml, root, el, hs, hx, hel, hid, rfl⟩
  · simp [recordDescription, ruleInterface, Dict.getD]
  · have hone := hdoc xml root hs hx
    have hd := hid ("description", targetOr change "description") (by simp)
    have hi := hid ("interface", .str (ruleInterface change.payload)) (by simp [ruleInterface])
    constructor
    · rw [recordDescription, getD_record (hone.rule_description el hel), hd]
    · rw [ruleInterface, getD_record (hone.rule_interface el hel), hi, Json.pyStr_str]

theorem invertMonitTest_identity (hdoc : SnapshotOk env snapshotXml)
    (h : invertMonitTest env change snapshotXml = .ok (op, target, payload)) :
    testName payload = (targetOr change "name").pyStr := by
  rcases invertRecord_payload h with rfl | ⟨xml, root, el, hs, hx, hel, hid, rfl⟩
  · simp [testName, Dict.getD]
  · have hd := hid ("name", targetOr change "name") (by simp)
    rw [testName, getD_record ((hdoc xml root hs hx).test_name el hel), hd]

/-- A policy is rebuilt under the description it was looked up by, so nothing
depends on how the snapshot writes it. -/
theorem invertIdsPolicy_identity
    (h : invertIdsPolicy env change snapshotXml = .ok (op, target, payload)) :
    recordDescription payload = (targetOr change "description").pyStr := by
  unfold invertIdsPolicy at h
  dsimp only at h
  split at h
  · obtain ⟨-, -, rfl⟩ := by simpa using Except.ok.inj h
    simp [recordDescription, Dict.getD]
  · obtain ⟨xml, -, h⟩ := except_bind_ok h
    obtain ⟨root, -, h⟩ := except_bind_ok h
    split at h
    · obtain ⟨-, -, rfl⟩ := by simpa using Except.ok.inj h
      simp [recordDescription, Dict.getD]
    · obtain ⟨rulesets, -, h⟩ := except_bind_ok h
      obtain ⟨-, -, rfl⟩ := by simpa using Except.ok.inj h
      simp [recordDescription, policyBody, Dict.getD]

theorem invertOpnsenseSetting_key
    (h : invertOpnsenseSetting env change snapshotXml = .ok (op, target, payload)) :
    settingKey payload = RecordKind.opnsenseSetting.targetKey change := by
  unfold invertOpnsenseSetting at h
  dsimp only at h
  obtain ⟨ep, hep, h⟩ := except_bind_ok h
  have hep' := mapError_ok hep
  split at h
  · cases h
  · obtain ⟨xml, -, h⟩ := except_bind_ok h
    split at h
    · cases h
    · obtain ⟨flat, -, h⟩ := except_bind_ok h
      obtain ⟨root, -, h⟩ := except_bind_ok h
      obtain ⟨-, -, rfl⟩ := by simpa using Except.ok.inj h
      have hkey : ∀ p, settingKey [("endpoint_key", targetOr change "endpoint_key"),
          ("payload", p)] = targetOr change "endpoint_key" := by simp [settingKey, Dict.getD]
      rw [hkey]
      unfold targetOr RecordKind.targetKey
      by_cases ht : change.target = ""
      · rw [if_pos ht, if_pos ht]
        show Dict.getD change.payload "endpoint_key" (.str "") = settingKey change.payload
        rcases hg : Dict.get? change.payload "endpoint_key" with - | v
        · simp [targetOr, ht, Dict.getD, hg, settingEndpoint, settingEndpoints] at hep'
        · simp [settingKey, Dict.getD, hg]
      · rw [if_neg ht, if_neg ht]

end Builders

/-! ### The condition -/

section Main

variable {env : Env} {change : Change} {snapshotXml : Option String} {op : String} {target : Json}
  {payload : Dict}

theorem buildInverse_identity (k : RecordKind) (hk : change.kind = k.text)
    (hdoc : SnapshotOk env snapshotXml)
    (h : buildInverse env change snapshotXml = .ok (op, target, payload)) :
    k.identity payload = (k.targetKey change, k.scope change.payload) := by
  unfold buildInverse at h
  rw [hk] at h
  have htext : ∀ key (f : Dict → String), (∀ p, f p = (Dict.getD p key (.str "")).pyStr) →
      (Json.str (targetOr change key).pyStr) =
        if change.target = "" then .str (f change.payload) else .str change.target := by
    intro key f hf
    unfold targetOr
    split <;> simp [hf]
  cases k with
  | firewallAlias =>
    have hkey := invertAlias_key hdoc h
    show (aliasName payload, "") = _
    rw [hkey]
    rfl
  | firewallRule =>
    obtain ⟨hd, hi⟩ := invertFirewallRule_identity hdoc h
    show (Json.str (recordDescription payload), ruleInterface payload) = _
    rw [hd, hi, htext "description" recordDescription fun _ => rfl]
    rfl
  | monitTest =>
    have hn := invertMonitTest_identity hdoc h
    show (Json.str (testName payload), "") = _
    rw [hn, htext "name" testName fun _ => rfl]
    rfl
  | idsPolicy =>
    have hd := invertIdsPolicy_identity h
    show (Json.str (recordDescription payload), "") = _
    rw [hd, htext "description" recordDescription fun _ => rfl]
    rfl
  | opnsenseSetting =>
    have hkey := invertOpnsenseSetting_key h
    show (settingKey payload, "") = _
    rw [hkey]
    rfl

/-- **The inverse addresses what the change addressed exactly when the target
is empty or is the key of the payload.** -/
theorem inverse_identity_iff (k : RecordKind) (hk : change.kind = k.text)
    (hdoc : SnapshotOk env snapshotXml)
    (h : buildInverse env change snapshotXml = .ok (op, target, payload)) :
    k.identity payload = k.identity change.payload ↔
      change.target = "" ∨ k.key change.payload = .str change.target := by
  rw [buildInverse_identity k hk hdoc h]
  show (k.targetKey change, k.scope change.payload) = (k.key change.payload, _) ↔ _
  rw [Prod.mk.injEq, and_iff_left rfl]
  unfold RecordKind.targetKey
  by_cases ht : change.target = ""
  · simp [ht]
  · simp [ht, eq_comm]

end Main

/-! ### A target that names another record -/

/-- The row of an accepted proposal. -/
def ConfigChangeIn.row (body : ConfigChangeIn) (id : ChangeId) : Change where
  id := id
  tenantId := 0
  deviceId := 1
  kind := body.kind
  operation := body.operation
  target := body.target
  payload := body.payload
  baselineHash := ""
  status := .draft
  sweepAttempts := 0
  revertsChangeId := none
  scheduledAt := none
  appliedAt := none
  result := .obj []
  preApplySnapshotId := none
  createdAt := 0

/-- An addition of the alias `web` under the target `lan_hosts`. -/
def misnamed : ConfigChangeIn where
  kind := "alias"
  operation := "add"
  target := "lan_hosts"
  payload := [("name", .str "web"), ("type", .str "host"), ("content", .str "10.0.0.1")]

/-- The proposal is accepted, and its inverse deletes `lan_hosts`, not the alias
`web` that the change adds. -/
theorem misnamed_inverse_differs :
    (∃ t, Dialogue.Path (createConfigChange 0 1 misnamed) t (.ok (misnamed.row 1))) ∧
    buildInverse (Env.ofDocuments [] []) (misnamed.row 1) none =
      .ok ("delete", .str "lan_hosts", [("name", .str "lan_hosts")]) ∧
    RecordKind.firewallAlias.identity [("name", .str "lan_hosts")] ≠
      RecordKind.firewallAlias.identity (misnamed.row 1).payload := by
  refine ⟨⟨[⟨.getDevice 1,
      some { tenantId := 0, firmwareVersion := none, credentials := true }⟩,
    ⟨.latestSnapshot 1, none⟩, ⟨.insertChange (misnamed.row 0), misnamed.row 1⟩,
    ⟨.commit, ()⟩], ?_⟩, rfl, by decide⟩
  repeat refine Dialogue.Path.ask _ ?_
  exact Dialogue.Path.pure _

/-- A change of the alias `web` that carries the name as its target. -/
def named : ConfigChangeIn where
  kind := "alias"
  operation := "set"
  target := "web"
  payload := [("name", .str "web"), ("content", .str "10.0.0.2")]

/-- A configuration that holds the alias `web`. -/
def aliasConfig : Elem :=
  .mk "opnsense" [] "" [.mk "alias" [] "" [.mk "name" [] "web" [], .mk "content" [] "10.0.0.1" []]]

/-- The inverse of `named` sets the alias that `named` set. -/
theorem named_inverse_identity :
    (∃ op target payload, buildInverse (Env.ofDocuments [("c", aliasConfig)] []) (named.row 1)
        (some "c") = .ok (op, target, payload) ∧
      RecordKind.firewallAlias.identity payload =
        RecordKind.firewallAlias.identity (named.row 1).payload) := by
  have hdoc : SnapshotOk (Env.ofDocuments [("c", aliasConfig)] []) (some "c") := by
    rintro xml root hxml hroot
    obtain rfl := Option.some.inj hxml
    obtain rfl : aliasConfig = root := Option.some.inj hroot
    refine ⟨?_, ?_, ?_, ?_⟩ <;> simp [aliasConfig, Elem.iter, Elem.iterAll, Elem.iterfind, Elem.tag,
      Elem.children, Elem.HasOnce, Elem.childrenTagged, fwRulePath, monitTestPath]
  refine ⟨_, _, _, rfl, ?_⟩
  exact (inverse_identity_iff .firewallAlias rfl hdoc rfl).mpr (.inr rfl)

end Opngms
