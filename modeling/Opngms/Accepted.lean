/-
Opngms/Accepted.lean

What `applied` says about the box's answers.

`_raise_on_failed` turns an answer that rejects a write into an exception.  The
appliers check the answers to most of their writes with it, but not those to
`delRule`, `delTest`, `delPolicy`, `toggleRuleset` and `setService`; the
deletion of an alias or of a grid row, and every add and set, is checked.  So an
applier returns only with accepted writes exactly if its input never leads to
one of these five requests (**`accepted_iff`**).
-/
import Opngms.Stranded

namespace Opngms

open Dialogue

/-! ### Writes -/

/-- The requests that add, set, delete, toggle or attach. -/
def Request.writes : Request → Bool
  | .aliasAdd _ | .aliasSet .. | .aliasDel _ | .modelSet .. | .gridAdd .. | .gridSet ..
  | .gridDel .. | .ruleAdd _ | .ruleSet .. | .ruleDel _ | .testAdd _ | .testSet .. | .testDel _
  | .serviceSet .. | .rulesetToggle _ | .policyAdd _ | .policySet .. | .policyDel _ => true
  | _ => false

/-- No write was answered with a rejection. -/
def Wire.Clean (t : Wire) : Prop :=
  ∀ x ∈ t, x.1.writes = true → ∀ j, x.2 = .ok j → rejected j = false

/-- The program returns only if the wire is clean. -/
abbrev Cleanly {α : Type} (h : Wire) (p : Client α) : Prop :=
  Follows recording (fun h z => ∀ a, z = .ok a → h.Clean) h p

theorem clean_nil : Wire.Clean [] := nofun

theorem Wire.Clean.append {t : Wire} (h : t.Clean) {r : Request} {a : Answer}
    (hr : r.writes = true → ∀ j, a = .ok j → rejected j = false) : Wire.Clean (t ++ [(r, a)]) := by
  intro x hx
  rcases List.mem_append.mp hx with hx | hx
  · exact h x hx
  · obtain rfl := List.mem_singleton.mp hx
    exact hr

section Rules

variable {α β : Type} {h : Wire}

theorem cleanly_raise (e : Raised) : Cleanly h (.raise e : Client α) := nofun

theorem cleanly_pure (hh : h.Clean) (a : α) : Cleanly h (.pure a : Client α) := fun _ _ => hh

theorem Cleanly.bind {p : Client β} {f : β → Client α} (hp : Cleanly h p)
    (hf : ∀ h b, h.Clean → Cleanly h (f b)) : Cleanly h (p.bind f) :=
  Follows.bind hp (fun h b hb => hf h b (hb b rfl)) fun _ _ _ => nofun

theorem cleanly_post {r : Request} (hh : h.Clean) (hr : r.writes = false) : Cleanly h (post r) := by
  refine ⟨trivial, fun a _ => ?_⟩
  cases a with
  | error e => exact cleanly_raise _
  | ok j =>
    refine cleanly_pure (hh.append fun hw => ?_) j
    rw [hr] at hw
    cases hw

theorem cleanly_read {r : Request} (hh : h.Clean) (hr : r.writes = false) {f : Json → Client α}
    (hf : ∀ h j, h.Clean → Cleanly h (f j)) : Cleanly h ((post r).bind f) :=
  (cleanly_post hh hr).bind hf

theorem cleanly_checked {r : Request} {what : String} (hh : h.Clean) {f : Json → Client α}
    (hf : ∀ h j, h.Clean → Cleanly h (f j)) :
    Cleanly h ((post r).bind fun res => (raiseOnFailed res what).bind fun _ => f res) := by
  refine follows_post (fun _ => nofun) fun j => follows_raiseOnFailed (fun _ _ => nofun) ?_
  intro hok
  refine hf _ j (hh.append fun _ j' hj => ?_)
  rw [← Except.ok.inj hj]
  exact hok

theorem cleanly_ofExcept {e : Except Raised β} {f : β → Client α}
    (hf : ∀ b, e = .ok b → Cleanly h (f b)) : Cleanly h ((Dialogue.ofExcept e).bind f) :=
  follows_ofExcept_bind (fun _ _ => nofun) hf

theorem cleanly_builtin {e : Except BuiltinError β} {f : β → Client α}
    (hf : ∀ b, Cleanly h (f b)) : Cleanly h ((builtin e).bind f) := by
  rw [builtin_eq]
  exact cleanly_ofExcept fun b _ => hf b

theorem cleanly_silent {p : Client α} (hp : Silent p) (hh : h.Clean) : Cleanly h p :=
  hp.follows fun _ _ _ => hh

end Rules

/-! ### Resolving identities -/

theorem cleanly_resolveAliasUuid {h : Wire} (hh : h.Clean) (name : Json) :
    Cleanly h (resolveAliasUuid name) := by
  unfold resolveAliasUuid
  split
  · exact cleanly_raise _
  · refine cleanly_read hh rfl fun h j hh => cleanly_builtin fun ms => ?_
    split
    · exact cleanly_builtin fun _ => cleanly_pure hh _
    · exact cleanly_raise _

theorem cleanly_resolveRuleUuid {h : Wire} (hh : h.Clean) (description interface : String) :
    Cleanly h (resolveRuleUuid description interface) := by
  unfold resolveRuleUuid
  split
  · exact cleanly_raise _
  · refine cleanly_read hh rfl fun h j hh => cleanly_builtin fun ms => ?_
    exact cleanly_silent (silent_uniqueUuid _ _ ms) hh

theorem cleanly_resolveMonitTestUuid {h : Wire} (hh : h.Clean) (name : String) :
    Cleanly h (resolveMonitTestUuid name) := by
  unfold resolveMonitTestUuid
  split
  · exact cleanly_raise _
  · refine cleanly_read hh rfl fun h j hh => cleanly_builtin fun ms => ?_
    exact cleanly_silent (silent_uniqueUuid _ _ ms) hh

theorem cleanly_resolvePolicyUuid {h : Wire} (hh : h.Clean) (description : String) :
    Cleanly h (resolvePolicyUuid description) := by
  unfold resolvePolicyUuid
  split
  · exact cleanly_raise _
  · refine cleanly_read hh rfl fun h j hh => cleanly_builtin fun ms => ?_
    exact cleanly_silent (silent_uniqueUuid _ _ ms) hh

theorem cleanly_serializePolicy {h : Wire} (hh : h.Clean) (payload : Dict) :
    Cleanly h (serializePolicy payload) := by
  unfold serializePolicy
  refine Cleanly.bind ?_ fun h rulesets hh => cleanly_builtin fun content =>
    cleanly_builtin fun tokens => cleanly_builtin fun as => cleanly_pure hh _
  unfold resolveRulesetFileUuids
  split
  · exact cleanly_pure hh _
  · refine cleanly_read hh rfl fun h j hh => cleanly_builtin fun byName => cleanly_builtin fun names => ?_
    exact cleanly_silent (silent_ofExcept _) hh

/-! ### The checked appliers -/

theorem cleanly_applyAlias (operation : String) (payload : Dict) :
    Cleanly [] (applyAlias operation payload false) := by
  have htail : ∀ (h : Wire) (res : Json), h.Clean → Cleanly h ((post .aliasReconfigure).bind
      fun _ => .pure (Json.obj [("dry_run", .bool false), ("result", res)])) :=
    fun h res hh => cleanly_read hh rfl fun h _ hh => cleanly_pure hh _
  show Cleanly [] ((aliasMutation operation payload).bind _)
  unfold aliasMutation
  by_cases hadd : operation = "add"
  · rw [if_pos hadd]
    exact cleanly_checked clean_nil htail
  · rw [if_neg hadd]
    by_cases hop : operation = "set" ∨ operation = "delete"
    · rw [if_pos hop]
      show Cleanly [] (((resolveAliasUuid _).bind _).bind _)
      rw [Dialogue.bind_assoc]
      refine (cleanly_resolveAliasUuid clean_nil _).bind fun h uuid hh => ?_
      by_cases hset : operation = "set"
      · rw [if_pos hset]
        exact cleanly_checked hh htail
      · rw [if_neg hset]
        exact cleanly_checked hh htail
    · rw [if_neg hop]
      exact cleanly_raise _

theorem cleanly_reconfigureModel {h : Wire} (hh : h.Clean) (path : Json) :
    Cleanly h (reconfigureModel path) := by
  unfold reconfigureModel
  exact cleanly_ofExcept fun p _ => cleanly_post hh rfl

theorem cleanly_applySetting {h : Wire} (hh : h.Clean) (setPath reconfigurePath modelRoot payload : Json)
    (reconfigure : Bool) :
    Cleanly h (applySetting setPath reconfigurePath modelRoot payload false reconfigure) := by
  show Cleanly h ((Dialogue.ofExcept _).bind _)
  refine cleanly_ofExcept fun req _ => cleanly_checked hh fun h res hh => ?_
  cases reconfigure with
  | false => exact cleanly_pure hh _
  | true => exact (cleanly_reconfigureModel hh _).bind fun h _ hh => cleanly_pure hh _

theorem cleanly_applyOpnsenseSetting (operation : String) (payload : Dict) :
    Cleanly [] (applyOpnsenseSetting operation payload false) := by
  show Cleanly [] ((builtin _).bind _)
  refine cleanly_builtin fun ep => ?_
  cases ep with
  | none => exact cleanly_raise _
  | some ep => exact cleanly_applySetting clean_nil _ _ _ _ _

theorem cleanly_applyGrids {h : Wire} (hh : h.Clean) (ops : List Json) :
    Cleanly h (applyGrids false ops) := by
  induction ops generalizing h with
  | nil => exact cleanly_pure hh _
  | cons g ops ih =>
    show Cleanly h ((builtin (gridArgs g)).bind _)
    refine cleanly_builtin fun a => Cleanly.bind ?_ fun h r hh =>
      Cleanly.bind (ih hh) fun h rs hh => cleanly_pure hh _
    rw [applyGridItem_live]
    exact cleanly_ofExcept fun req _ => cleanly_checked hh fun h res hh => cleanly_pure hh _

theorem cleanly_applyCatalogSetting (operation : String) (payload : Dict) :
    Cleanly [] (applyCatalogSetting operation payload false) := by
  unfold applyCatalogSetting
  refine Cleanly.bind ?_ fun h scalars hh => cleanly_builtin fun ops =>
    (cleanly_applyGrids hh ops).bind fun h rs hh => Cleanly.bind ?_ fun h _ hh => cleanly_pure hh _
  · split
    · rw [applyScalars_live]
      exact cleanly_ofExcept fun req _ =>
        cleanly_checked clean_nil fun h res hh => cleanly_pure hh _
    · exact cleanly_pure clean_nil _
  · split
    · exact cleanly_builtin fun path => cleanly_reconfigureModel hh path
    · exact cleanly_pure hh _

/-! ### The appliers with gaps -/

theorem cleanly_applyFirewallRule {operation : String} {payload : Dict}
    (hop : operation = "delete" → recordDescription payload = "") :
    Cleanly [] (applyFirewallRule operation payload false) := by
  unfold applyFirewallRule
  by_cases hdel : operation = "delete"
  · rw [if_pos hdel]
    show Cleanly [] ((resolveRuleUuid _ _).bind _)
    rw [resolveRuleUuid, if_pos (hop hdel)]
    exact cleanly_raise _
  · rw [if_neg hdel]
    refine (cleanly_resolveRuleUuid clean_nil _ _).bind fun h uuid hh => ?_
    refine cleanly_checked hh fun h res hh => ?_
    exact cleanly_read hh rfl fun h _ hh => cleanly_pure hh _

theorem cleanly_applyIdsPolicy {operation : String} {payload : Dict}
    (hop : operation = "delete" → recordDescription payload = "") :
    Cleanly [] (applyIdsPolicy operation payload false) := by
  unfold applyIdsPolicy
  split
  · exact cleanly_raise _
  · by_cases hdel : operation = "delete"
    · simp only [hdel]
      show Cleanly [] ((resolvePolicyUuid _).bind _)
      rw [resolvePolicyUuid, if_pos (hop hdel)]
      exact cleanly_raise _
    · simp only [hdel]
      refine (cleanly_resolvePolicyUuid clean_nil _).bind fun h uuid hh => ?_
      refine (cleanly_serializePolicy hh payload).bind fun h policy hh => ?_
      refine cleanly_checked hh fun h res hh => ?_
      exact cleanly_read hh rfl fun h _ hh => cleanly_pure hh _

/-- A test without a name is refused; one that is not attached is written and
checked.  The uuid is read off the answer before the check, so a rejection is
followed through both. -/
theorem cleanly_applyMonitTest {operation : String} {payload : Dict}
    (hop : testName payload = "" ∨ operation ≠ "delete" ∧ attachDirective payload = false) :
    Cleanly [] (applyMonitTest operation payload false) := by
  unfold applyMonitTest
  rcases hop with hname | ⟨hdel, hattach⟩
  · have hrefuse : ∀ {α : Type} (f : Option String → Client α),
        Cleanly [] ((resolveMonitTestUuid (testName payload)).bind f) := by
      intro α f
      rw [resolveMonitTestUuid, if_pos hname]
      exact cleanly_raise _
    split
    · exact hrefuse _
    · exact hrefuse _
  · rw [if_neg hdel]
    refine (cleanly_resolveMonitTestUuid clean_nil _).bind fun h uuid hh => ?_
    refine follows_post (fun _ => nofun) fun res => ?_
    rw [Dialogue.bind_eq, builtin_eq]
    refine follows_ofExcept_bind (fun _ _ => nofun) fun tu _ => ?_
    refine follows_raiseOnFailed (fun _ _ => nofun) fun hok => ?_
    rw [hattach]
    have hclean := hh.append (r := upsert uuid (.testAdd (Dict.pop payload "attach_to_system"))
      fun u => .testSet u (Dict.pop payload "attach_to_system")) (a := .ok res)
      fun _ j hj => Except.ok.inj hj ▸ hok
    exact cleanly_read hclean rfl fun h _ hh => cleanly_pure hh _

theorem cleanly_applyIdsRulesets {operation : String} {payload : Dict}
    (hop : ∀ raw, Dict.getD payload "rulesets" (.arr []) = .arr raw →
      ∀ n ns, rulesetNames raw ≠ .ok (n :: ns)) :
    Cleanly [] (applyIdsRulesets operation payload false) := by
  unfold applyIdsRulesets
  split
  · rename_i raw hraw
    refine cleanly_ofExcept fun names hnames => ?_
    cases names with
    | nil => exact cleanly_read clean_nil rfl fun h _ hh => cleanly_pure hh _
    | cons n ns => exact absurd hnames (hop raw hraw n ns)
  · exact cleanly_raise _

/-! ### Where a rejection is taken for a success -/

/-- The input leads to a write whose answer nobody checks, if the box knows the
record: a deletion of a rule, a test or a policy that has an identity, a test
to be attached, or a list of rulesets. -/
def Unchecked (kind operation : String) (payload : Dict) : Prop :=
  (kind = "firewall_rule" ∧ operation = "delete" ∧ recordDescription payload ≠ "") ∨
  (kind = "monit_test" ∧ testName payload ≠ "" ∧
    (operation = "delete" ∨ attachDirective payload = true)) ∨
  (kind = "ids_policy" ∧ operation = "delete" ∧ recordDescription payload ≠ "") ∨
  (kind = "ids_rulesets" ∧ ∃ raw n ns, Dict.getD payload "rulesets" (.arr []) = .arr raw ∧
    rulesetNames raw = .ok (n :: ns))

/-- **A checked input returns only with accepted writes.** -/
theorem cleanly_of_checked {kind operation : String} {payload : Dict}
    (h : ¬ Unchecked kind operation payload) :
    Cleanly [] (applyForKind kind operation payload false) := by
  unfold Unchecked at h
  simp only [not_or, not_and, not_exists, ne_eq, not_not, Bool.not_eq_true] at h
  obtain ⟨hrule, htest, hpolicy, hrulesets⟩ := h
  rcases applyForKind_cases kind operation payload false with ⟨m, heq⟩ | ⟨applier, hmem, heq⟩
  · rw [heq]
    exact cleanly_raise _
  · rw [heq]
    simp only [changeAppliers, List.mem_cons, Prod.mk.injEq, List.not_mem_nil, or_false] at hmem
    rcases hmem with ⟨rfl, rfl⟩ | ⟨rfl, rfl⟩ | ⟨rfl, rfl⟩ | ⟨rfl, rfl⟩ | ⟨rfl, rfl⟩ | ⟨rfl, rfl⟩ |
      ⟨rfl, rfl⟩
    · exact cleanly_applyAlias _ _
    · exact cleanly_applyOpnsenseSetting _ _
    · exact cleanly_applyFirewallRule (hrule rfl)
    · refine cleanly_applyMonitTest ?_
      by_cases hname : testName payload = ""
      · exact .inl hname
      · exact .inr (htest rfl hname)
    · exact cleanly_applyIdsRulesets fun raw hraw n ns => hrulesets rfl raw n ns hraw
    · exact cleanly_applyIdsPolicy (hpolicy rfl)
    · exact cleanly_applyCatalogSetting _ _

/-! ### A box that rejects -/

def oneRow (r : Dict) : Json := .obj [("rows", .arr [.obj r])]

def failedAnswer : Json := .obj [("result", .str "failed")]

def savedAnswer : Json := .obj [("result", .str "saved")]

theorem matchingRows_oneRow {p : Dict → Bool} {r : Dict} (h : p r = true) :
    matchingRows p (oneRow r) = .ok [r] := by
  show (filterRows p [.obj r]) = _
  rw [filterRows, filterRows]
  show Except.ok (if p r then [r] else []) = _
  rw [if_pos h]

def Returns (p : Client Json) : Prop := ∃ t res, Path p t (.ok res)

def Deceived (p : Client Json) : Prop := ∃ t res, Path p t (.ok res) ∧ ¬ (wireOf t).Clean

theorem returns_pure (res : Json) : Returns (.pure res) := ⟨[], res, .pure res⟩

theorem returns_post (j : Json) {q : Request} {f : Json → Client Json} (h : Returns (f j)) :
    Returns ((post q).bind f) := by
  obtain ⟨t, res, hp⟩ := h
  exact ⟨_, res, Path.ask (A := fun _ : Request => Answer) (.ok j) hp⟩

theorem deceived_post (j : Json) {q : Request} {f : Json → Client Json} (h : Deceived (f j)) :
    Deceived ((post q).bind f) := by
  obtain ⟨t, res, hp, hclean⟩ := h
  refine ⟨_, res, Path.ask (A := fun _ : Request => Answer) (.ok j) hp, fun hall => hclean ?_⟩
  exact fun x hx => hall x (List.mem_cons_of_mem _ hx)

theorem deceived_write {q : Request} (hq : q.writes = true) {f : Json → Client Json}
    (h : Returns (f failedAnswer)) : Deceived ((post q).bind f) := by
  obtain ⟨t, res, hp⟩ := h
  refine ⟨_, res, Path.ask (A := fun _ : Request => Answer) (.ok failedAnswer) hp, fun hall => ?_⟩
  exact absurd (hall (q, .ok failedAnswer) List.mem_cons_self hq failedAnswer rfl) (by decide)

theorem deceived_found {q : Request} {p : Dict → Bool} {what : String}
    {ambiguous : Nat → String} {f : Option String → Client Json} (r : Dict) (hr : p r = true)
    (huuid : Dict.get? r "uuid" = some (.str "u")) (h : Deceived (f (some "u"))) :
    Deceived (((post q).bind fun data => (builtin (matchingRows p data)).bind fun ms =>
      uniqueUuid what ambiguous ms).bind f) := by
  rw [Dialogue.bind_assoc]
  refine deceived_post (oneRow r) ?_
  rw [matchingRows_oneRow hr]
  show Deceived ((uniqueUuid what ambiguous [r]).bind f)
  have hone : uniqueUuid what ambiguous [r] = .pure (some "u") := by
    have hget : (Dict.getD r "uuid" (.str "")).pyStr = "u" := by
      rw [Dict.getD, huuid]
      rfl
    rw [uniqueUuid, hget]
    rfl
  rw [hone]
  exact h

theorem deceived_firewallRule {payload : Dict} (h : recordDescription payload ≠ "") :
    Deceived (applyFirewallRule "delete" payload false) := by
  show Deceived ((resolveRuleUuid _ _).bind _)
  rw [resolveRuleUuid, if_neg h]
  refine deceived_found [("description", .str (recordDescription payload)),
    ("interface", .str (ruleInterface payload)), ("uuid", .str "u")] ?_ rfl ?_
  · simp [ruleMatches, Dict.get?, Dict.getD, Json.pyStr]
  · exact deceived_write rfl (returns_post .null (returns_pure _))

theorem deceived_idsPolicy {payload : Dict} (h : recordDescription payload ≠ "") :
    Deceived (applyIdsPolicy "delete" payload false) := by
  show Deceived ((resolvePolicyUuid _).bind _)
  rw [resolvePolicyUuid, if_neg h]
  refine deceived_found [("description", .str (recordDescription payload)), ("uuid", .str "u")]
    ?_ rfl ?_
  · simp [Dict.get?]
  · exact deceived_write rfl (returns_post .null (returns_pure _))

theorem deceived_monitTest_delete {payload : Dict} (h : testName payload ≠ "") :
    Deceived (applyMonitTest "delete" payload false) := by
  show Deceived ((resolveMonitTestUuid _).bind _)
  rw [resolveMonitTestUuid, if_neg h]
  refine deceived_found [("name", .str (testName payload)), ("uuid", .str "u")] ?_ rfl ?_
  · simp [Dict.get?]
  · exact deceived_write rfl (returns_post .null (returns_pure _))

theorem deceived_monitTest_attach {operation : String} {payload : Dict}
    (hop : operation ≠ "delete") (h : testName payload ≠ "")
    (hattach : attachDirective payload = true) :
    Deceived (applyMonitTest operation payload false) := by
  unfold applyMonitTest
  rw [if_neg hop]
  show Deceived ((resolveMonitTestUuid _).bind _)
  rw [resolveMonitTestUuid, if_neg h]
  refine deceived_found [("name", .str (testName payload)), ("uuid", .str "u")] ?_ rfl ?_
  · simp [Dict.get?]
  refine deceived_post savedAnswer ?_
  rw [hattach]
  show Deceived ((attachTestToSystem (.str "u")).bind _)
  show Deceived (((post .serviceSearch).bind _).bind _)
  rw [Dialogue.bind_assoc]
  refine deceived_post (oneRow [("type", .str "system"), ("uuid", .str "s")]) ?_
  have hsid : systemServiceUuid (oneRow [("type", .str "system"), ("uuid", .str "s")]) =
      .ok (.str "s") := by decide +kernel
  have htests : attachedTests (.str "u") (.obj [("service", .obj [("tests", .obj [])])]) =
      .ok (some "u") := by decide +kernel
  rw [hsid]
  show Deceived (((post (.serviceGet "s")).bind _).bind _)
  rw [Dialogue.bind_assoc]
  refine deceived_post (.obj [("service", .obj [("tests", .obj [])])]) ?_
  rw [htests]
  show Deceived (((post (.serviceSet "s" "u")).bind _).bind _)
  rw [Dialogue.bind_assoc]
  exact deceived_write rfl (returns_post .null (returns_pure _))

theorem deceived_idsRulesets {operation : String} {payload : Dict} {raw : List Json} {n : String}
    {ns : List String} (hraw : Dict.getD payload "rulesets" (.arr []) = .arr raw)
    (hnames : rulesetNames raw = .ok (n :: ns)) :
    Deceived (applyIdsRulesets operation payload false) := by
  have hrest : ∀ (ns : List String) (f : Unit → Client Json), Returns (f ()) →
      Returns ((toggleRulesets ns).bind f) := by
    intro ns f hf
    induction ns with
    | nil => exact hf
    | cons n ns ih =>
      show Returns (((post (.rulesetToggle n)).bind fun _ => toggleRulesets ns).bind f)
      rw [Dialogue.bind_assoc]
      exact returns_post .null ih
  unfold applyIdsRulesets
  rw [hraw]
  show Deceived ((Dialogue.ofExcept (rulesetNames raw)).bind _)
  rw [hnames]
  show Deceived (((post (.rulesetToggle n)).bind fun _ => toggleRulesets ns).bind _)
  rw [Dialogue.bind_assoc]
  exact deceived_write rfl (hrest ns _ (returns_post .null (returns_pure _)))

theorem deceived_of_unchecked {kind operation : String} {payload : Dict}
    (h : Unchecked kind operation payload) :
    Deceived (applyForKind kind operation payload false) := by
  rcases h with ⟨rfl, rfl, hd⟩ | ⟨rfl, hname, hop⟩ | ⟨rfl, rfl, hd⟩ | ⟨rfl, raw, n, ns, hraw, hnames⟩
  · exact deceived_firewallRule hd
  · show Deceived (applyMonitTest operation payload false)
    by_cases hdel : operation = "delete"
    · rw [hdel]
      exact deceived_monitTest_delete hname
    · exact deceived_monitTest_attach hdel hname (hop.resolve_left hdel)
  · exact deceived_idsPolicy hd
  · show Deceived (applyIdsRulesets operation payload false)
    exact deceived_idsRulesets hraw hnames

/-- **`applied` means accepted exactly for the inputs that lead to no unchecked
write**: whatever the box answers, the applier returns only if no write was
rejected. -/
theorem accepted_iff (kind operation : String) (payload : Dict) :
    (∀ t res, Path (applyForKind kind operation payload false) t (.ok res) →
      ∀ x ∈ wireOf t, x.1.writes = true → ∀ j, x.2 = .ok j → rejected j = false) ↔
      ¬ Unchecked kind operation payload := by
  constructor
  · intro h hun
    obtain ⟨t, res, hp, hclean⟩ := deceived_of_unchecked hun
    exact hclean (h t res hp)
  · intro hun t res hp
    have hend := (cleanly_of_checked hun).path (fun _ _ _ => trivial) hp
    rw [recording_after, List.nil_append] at hend
    exact hend res rfl

/-- The box refuses to delete a rule, and the deletion counts as applied. -/
theorem deletedRule_rejected :
    ∃ t res, Path (applyForKind "firewall_rule" "delete"
        [("description", .str "web"), ("interface", .str "wan")] false) t (.ok res) ∧
      (Request.ruleDel "u", Except.ok (Json.obj [("result", .str "failed")])) ∈ wireOf t ∧
      rejected (.obj [("result", .str "failed")]) = true := by
  refine ⟨[⟨.ruleSearch "web", .ok (oneRow [("description", .str "web"),
    ("interface", .str "wan"), ("uuid", .str "u")])⟩, ⟨.ruleDel "u", .ok failedAnswer⟩,
    ⟨.ruleApply, .ok .null⟩], .obj [("dry_run", .bool false), ("operation", .str "delete"),
    ("result", failedAnswer)], ?_, List.mem_cons_of_mem _ List.mem_cons_self, by decide⟩
  refine Path.ask (A := fun _ : Request => Answer) _ ?_
  refine Path.ask (A := fun _ : Request => Answer) _ ?_
  exact Path.ask (A := fun _ : Request => Answer) _ (.pure _)

end Opngms
