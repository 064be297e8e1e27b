/-
Opngms/Guard.lean

The guarded mutation: what stands between a change and the box.

Every run of `apply_change` and of `apply_profile_sequence` is a `Path`: the
effects it asked for, in order, with their answers.  `Cleared` says what such a
history must hold before any request to the box.  The runs are checked against
a history discipline (`Dialogue.history`), so the guard is shown to come
*before* the request, not merely to occur in the same run.

Main result: **`request_guarded`**.  The two round trips of the vault and the
compressor are its only assumptions; UTF-8 is proved.
-/
import Opngms.ConfigRevert

namespace Opngms

open Dialogue

/-! ### Dry runs ask nothing -/

theorem silent_builtin {α : Type} (e : Except BuiltinError α) : Silent (builtin e) := by
  cases e with
  | ok a => exact silent_pure a
  | error x => exact silent_raise _

theorem silent_refuse {α : Type} (m : String) : Silent (refuse m : Client α) := silent_raise _

theorem applyAlias_dry (operation : String) (payload : Dict) :
    Silent (applyAlias operation payload true) := silent_pure _

theorem applySetting_dry (setPath reconfigurePath modelRoot payload : Json) (r : Bool) :
    Silent (applySetting setPath reconfigurePath modelRoot payload true r) :=
  (silent_builtin _).bind fun _ => silent_pure _

theorem applyOpnsenseSetting_dry (operation : String) (payload : Dict) :
    Silent (applyOpnsenseSetting operation payload true) := by
  refine (silent_builtin _).bind fun ep => ?_
  cases ep with
  | none => exact silent_raise _
  | some ep => exact applySetting_dry _ _ _ _ _

theorem applyFirewallRule_dry (operation : String) (payload : Dict) :
    Silent (applyFirewallRule operation payload true) := by
  by_cases h : operation = "delete"
  · simpa [applyFirewallRule, h] using silent_pure _
  · simpa [applyFirewallRule, h] using silent_pure _

theorem applyMonitTest_dry (operation : String) (payload : Dict) :
    Silent (applyMonitTest operation payload true) := by
  by_cases h : operation = "delete"
  · simpa [applyMonitTest, h] using silent_pure _
  · simpa [applyMonitTest, h] using silent_pure _

theorem applyIdsRulesets_dry (operation : String) (payload : Dict) :
    Silent (applyIdsRulesets operation payload true) := by
  unfold applyIdsRulesets
  split
  · exact (silent_ofExcept _).bind fun _ => silent_pure _
  · exact silent_refuse _

theorem applyIdsPolicy_dry (operation : String) (payload : Dict) :
    Silent (applyIdsPolicy operation payload true) := by
  unfold applyIdsPolicy
  split
  · exact silent_refuse _
  · exact silent_pure _

theorem applyGrids_dry (gs : List Json) : Silent (applyGrids true gs) := by
  induction gs with
  | nil => exact silent_pure _
  | cons g gs ih =>
    refine (silent_builtin _).bind fun a => ?_
    exact (silent_pure _).bind fun r => ih.bind fun rs => silent_pure _

theorem applyCatalogSetting_dry (operation : String) (payload : Dict) :
    Silent (applyCatalogSetting operation payload true) := by
  refine Silent.bind ?_ fun scalarsResult => ?_
  · split
    · refine (silent_builtin _).bind fun setPath => (silent_builtin _).bind fun reconfigurePath => ?_
      exact (silent_builtin _).bind fun modelRoot => applySetting_dry _ _ _ _ _
    · exact silent_pure _
  · exact (silent_builtin _).bind fun ops => (applyGrids_dry ops).bind fun _ => silent_pure _

/-- **In a dry run no applier of any kind makes a request.** -/
theorem applyForKind_dry (kind operation : String) (payload : Dict) :
    Silent (applyForKind kind operation payload true) := by
  rcases applyForKind_cases kind operation payload true with ⟨m, h⟩ | ⟨applier, hmem, h⟩
  · rw [h]
    exact silent_raise _
  · rw [h]
    simp only [changeAppliers, List.mem_cons, Prod.mk.injEq, List.not_mem_nil, or_false] at hmem
    rcases hmem with ⟨-, rfl⟩ | ⟨-, rfl⟩ | ⟨-, rfl⟩ | ⟨-, rfl⟩ | ⟨-, rfl⟩ | ⟨-, rfl⟩ | ⟨-, rfl⟩
    · exact applyAlias_dry _ _
    · exact applyOpnsenseSetting_dry _ _
    · exact applyFirewallRule_dry _ _
    · exact applyMonitTest_dry _ _
    · exact applyIdsRulesets_dry _ _
    · exact applyIdsPolicy_dry _ _
    · exact applyCatalogSetting_dry _ _

/-! ### The guard -/

abbrev Trace := List (Exchange Eff Eff.Ans)

/-- The change whose live push was marked last. -/
def Trace.pushing (t : Trace) : Option ChangeId :=
  t.foldl (fun last e =>
    match e with
    | ⟨.beginPush id, _⟩ => some id
    | _ => last) none

/-- The run has read the configuration `xml` of the box. -/
def Trace.Read (t : Trace) (client : DeviceId) (xml : String) : Prop :=
  (⟨.getConfigBackup client, (.ok xml : Except OpnsenseError String)⟩ : Exchange Eff Eff.Ans) ∈ t

/-- The run holds the advisory lock of the device. -/
def Trace.Locked (t : Trace) (device : DeviceId) : Prop :=
  (⟨.tryAdvisoryLock (advisoryKey device), true⟩ : Exchange Eff Eff.Ans) ∈ t

/-- The run found live push on. -/
def Trace.Live (env : Env) (t : Trace) : Prop :=
  ∃ row : Option Bool,
    (⟨.livePushRow, row⟩ : Exchange Eff Eff.Ans) ∈ t ∧ row.getD env.livePushEnabled = true

/-- The run has stored a snapshot that decodes to `xml`. -/
def Trace.Saved (env : Env) (t : Trace) (xml : String) : Prop :=
  ∃ (row : Snapshot) (id : SnapId),
    (⟨.insertSnapshot row, id⟩ : Exchange Eff Eff.Ans) ∈ t ∧
      snapshotToXml env row.contentEnc = some xml

/-- The checks that precede a push, as far as the comparison of the hashes:
`lead` is the change whose baseline is compared. -/
structure Compared (env : Env) (client : DeviceId) (lead : Change) (xml : String) (t : Trace) :
    Prop where
  scheduled : lead.status = .scheduled
  locked : t.Locked lead.deviceId
  read : t.Read client xml
  fresh : ∃ current, env.canonicalHash xml = some current ∧
    (lead.baselineHash = "" ∨ current = lead.baselineHash)

/-- All that must have happened before a request to the box in a run that
applies `changes`. -/
def Cleared (env : Env) (client : DeviceId) (changes : List Change) (t : Trace) : Prop :=
  ∃ lead xml, (changes.filter fun c => c.status = .scheduled).head? = some lead ∧
    Compared env client lead xml t ∧ t.Live env ∧ t.Saved env xml ∧
    ∃ c ∈ changes, c.status = .scheduled ∧ t.pushing = some c.id

/-- The questions of a guarded run: requests only to the client's box and once
cleared, and every stored snapshot decodes to the text whose hash was
compared. -/
def guardedQuestion (env : Env) (client : DeviceId) (changes : List Change) (t : Trace) :
    Eff → Prop
  | .request device _ => device = client ∧ Cleared env client changes t
  | .insertSnapshot row =>
    ∃ lead xml, (changes.filter fun c => c.status = .scheduled).head? = some lead ∧
      Compared env client lead xml t ∧ t.Live env ∧ snapshotToXml env row.contentEnc = some xml
  | _ => True

/-- Everything before the mark of a push. -/
structure Ready (env : Env) (client : DeviceId) (changes : List Change) (xml : String)
    (t : Trace) : Prop where
  lead : ∃ lead, (changes.filter fun c => c.status = .scheduled).head? = some lead ∧
    Compared env client lead xml t
  live : t.Live env
  saved : t.Saved env xml

section Guarded

variable {env : Env} {client : DeviceId} {changes : List Change} {xml : String} {t : Trace}

theorem Compared.append {lead : Change} (h : Compared env client lead xml t) (u : Trace) :
    Compared env client lead xml (t ++ u) :=
  { h with
    locked := List.mem_append_left u h.locked
    read := List.mem_append_left u h.read }

theorem Trace.Live.append (h : t.Live env) (u : Trace) : Trace.Live env (t ++ u) := by
  obtain ⟨row, hm, hr⟩ := h
  exact ⟨row, List.mem_append_left u hm, hr⟩

theorem Ready.append (h : Ready env client changes xml t) (u : Trace) :
    Ready env client changes xml (t ++ u) := by
  obtain ⟨⟨lead, hlead, hcmp⟩, hlive, row, id, hm, hrow⟩ := h
  exact ⟨⟨lead, hlead, hcmp.append u⟩, hlive.append u, row, id, List.mem_append_left u hm, hrow⟩

theorem pushing_append_mark (t : Trace) (id : ChangeId) :
    Trace.pushing (t ++ [⟨.beginPush id, ()⟩]) = some id := by
  simp [Trace.pushing]

theorem pushing_append_request (t : Trace) (device : DeviceId) (r : Request) (a : Answer) :
    Trace.pushing (t ++ [⟨.request device r, a⟩]) = t.pushing := by
  simp [Trace.pushing]

/-- A ready run in which the push of a scheduled member was marked is cleared,
and a request keeps it so. -/
theorem Ready.cleared (h : Ready env client changes xml t) {c : Change} (hc : c ∈ changes)
    (hs : c.status = .scheduled) (hp : t.pushing = some c.id) : Cleared env client changes t := by
  obtain ⟨lead, hlead, hcmp⟩ := h.lead
  exact ⟨lead, xml, hlead, hcmp, h.live, h.saved, c, hc, hs, hp⟩

/-- The discipline of a guarded run. -/
abbrev guarded (env : Env) (client : DeviceId) (changes : List Change) :
    Discipline Eff Eff.Ans Trace := history (guardedQuestion env client changes)

theorem follows_onBox_guarded {α : Type} (p : Client α) {c : Change} (hc : c ∈ changes)
    (hs : c.status = .scheduled) (h : Ready env client changes xml t)
    (hp : t.pushing = some c.id) :
    Follows (guarded env client changes) (fun t _ => Ready env client changes xml t) t
      (onBox client p) := by
  induction p generalizing t with
  | pure a => exact h
  | raise x => exact h
  | ask r k ih =>
    refine ⟨⟨rfl, h.cleared hc hs hp⟩, fun a _ => ih a (h.append _) ?_⟩
    rw [← hp]
    exact pushing_append_request t client r a

theorem follows_callApplier {live : Bool} {c : Change} (hc : ∃ c' ∈ changes, c'.id = c.id ∧
      c'.status = .scheduled)
    (h : live = true → Ready env client changes xml t) :
    Follows (guarded env client changes)
      (fun t _ => live = true → Ready env client changes xml t) t (callApplier client c live) := by
  cases live with
  | true =>
    obtain ⟨c', hc', hid, hs⟩ := hc
    refine ⟨trivial, fun _ _ => ?_⟩
    refine (follows_onBox_guarded _ hc' hs ((h rfl).append _) ?_).mono fun _ _ hr _ => hr
    rw [hid]
    exact pushing_append_mark t c.id
  | false =>
    exact ((applyForKind_dry c.kind c.operation c.payload).translate _ _).follows
      fun _ hl => absurd hl (by simp)

theorem follows_applyGuarded {live : Bool} {c : Change} {now : Time}
    (hc : ∃ c' ∈ changes, c'.id = c.id ∧ c'.status = .scheduled)
    (h : live = true → Ready env client changes xml t) :
    Follows (guarded env client changes)
      (fun t _ => live = true → Ready env client changes xml t) t
      (applyGuarded client c live now) := by
  have hbody : Follows (guarded env client changes)
      (fun t _ => live = true → Ready env client changes xml t) t (do
        let res ← callApplier client c live
        return { c with status := .applied, appliedAt := some now, result := res }) :=
    Follows.bind (follows_callApplier hc h) (fun _ _ hr => hr) fun _ _ hr => hr
  refine Follows.handle hbody (fun _ _ hr => hr) fun t e hr => ?_
  cases applyFailure e with
  | some result => exact hr
  | none => exact hr

theorem follows_flushAll (cs : List Change) :
    Follows (guarded env client changes) (fun _ _ => True) t (flushAll cs) := by
  induction cs generalizing t with
  | nil => trivial
  | cons c cs ih => exact ⟨trivial, fun _ _ => ih⟩

theorem follows_applyMembers {live aborted : Bool} {snapId : Option SnapId} {now : Time}
    (cs : List Change) (hcs : ∀ c ∈ cs, c ∈ changes ∧ c.status = .scheduled)
    (h : live = true → Ready env client changes xml t) :
    Follows (guarded env client changes) (fun _ _ => True) t
      (applyMembers client live snapId now aborted cs) := by
  induction cs generalizing t aborted with
  | nil => cases aborted <;> trivial
  | cons c cs ih =>
    have hrest := fun d hd => hcs d (List.mem_cons_of_mem c hd)
    cases aborted with
    | true => exact Follows.bind (ih hrest h) (fun _ _ _ => trivial) fun _ _ _ => trivial
    | false =>
      obtain ⟨hc, hs⟩ := hcs c List.mem_cons_self
      refine Follows.bind (follows_applyGuarded ⟨c, hc, rfl, hs⟩ h) (fun t d hr => ?_)
        fun _ _ _ => trivial
      exact Follows.bind (ih hrest hr) (fun _ _ _ => trivial) fun _ _ _ => trivial

/-! ### Reading, comparing and saving -/

theorem follows_readConfig :
    Follows (guarded env client changes)
      (fun t' z => ∃ e, t' = t ++ [e] ∧ ∀ xml current, z = .ok (some (xml, current)) →
        t'.Read client xml ∧ env.canonicalHash xml = some current) t (readConfig env client) := by
  refine ⟨trivial, fun r _ => ?_⟩
  cases r with
  | error e => exact ⟨_, rfl, by simp⟩
  | ok xml =>
    refine ⟨_, rfl, fun xml' current hz => ?_⟩
    have hz : (env.canonicalHash xml).map (fun h => (xml, h)) = some (xml', current) := by
      simpa using hz
    obtain ⟨h, hh, he⟩ := Option.map_eq_some_iff.mp hz
    obtain ⟨rfl, rfl⟩ := Prod.mk.inj he
    exact ⟨List.mem_append_right t (List.mem_singleton.mpr rfl), hh⟩

theorem fromUTF8_toUTF8 (s : String) : String.fromUTF8? s.toUTF8 = some s := by
  simp [String.fromUTF8?, s.isValidUTF8, String.fromUTF8]

section Vault

variable (hvault : ∀ b, env.decryptBytes (env.encryptBytes b) = some b)
  (hgzip : ∀ b, env.gzipDecompress (env.gzipCompress b) = some b)

include hvault hgzip

theorem snapshotToXml_saved (xml : String) :
    snapshotToXml env (env.encryptBytes (env.gzipCompress xml.toUTF8)) = some xml := by
  simp only [snapshotToXml, hvault, hgzip, Option.bind_eq_bind, Option.bind_some]
  exact fromUTF8_toUTF8 xml

theorem follows_rollbackPoint {live : Bool} {c lead : Change}
    (hlead : (changes.filter fun c => c.status = .scheduled).head? = some lead)
    (hcmp : Compared env client lead xml t) (hlive : live = true → t.Live env) :
    Follows (guarded env client changes)
      (fun t _ => live = true → Ready env client changes xml t) t
      (rollbackPoint env live c xml) := by
  cases live with
  | false => exact fun hl => absurd hl (by simp)
  | true =>
    refine ⟨trivial, fun d _ => ⟨?_, fun id _ _ => ?_⟩⟩
    · exact ⟨lead, xml, hlead, hcmp.append _, (hlive rfl).append _,
        snapshotToXml_saved hvault hgzip xml⟩
    · refine ⟨⟨lead, hlead, (hcmp.append _).append _⟩, ((hlive rfl).append _).append _, ?_⟩
      exact ⟨_, id, List.mem_append_right _ (List.mem_singleton.mpr rfl),
        snapshotToXml_saved hvault hgzip xml⟩

theorem follows_clear {α : Type} {c lead : Change} {rest : Bool → Option SnapId → Program α}
    (hlead : (changes.filter fun c => c.status = .scheduled).head? = some lead)
    (hcmp : Compared env client lead xml t)
    (hrest : ∀ t live snapId, (live = true → Ready env client changes xml t) →
      Follows (guarded env client changes) (fun _ _ => True) t (rest live snapId)) :
    Follows (guarded env client changes) (fun _ _ => True) t (do
      let live ← getLivePush env
      let snapId ← rollbackPoint env live c xml
      rest live snapId) := by
  refine ⟨trivial, fun row _ => ?_⟩
  show Follows _ _ _ ((rollbackPoint env _ c xml).bind _)
  refine Follows.bind (follows_rollbackPoint hvault hgzip hlead (hcmp.append _) fun hl => ?_)
    (fun t snapId hr => hrest t _ snapId hr) fun _ _ _ => trivial
  exact ⟨row, List.mem_append_right t (List.mem_singleton.mpr rfl), hl⟩

theorem follows_applyChange (change : Change) (now : Time) :
    Follows (guarded env client [change]) (fun _ _ => True) t
      (applyChange env change client now) := by
  unfold applyChange
  split
  · trivial
  · rename_i hs
    have hs : change.status = .scheduled := not_not.mp hs
    have hlead : ([change].filter fun c => c.status = .scheduled).head? = some change := by
      simp [hs]
    refine ⟨trivial, fun got _ => ?_⟩
    cases got with
    | false => trivial
    | true =>
      show Follows _ _ _ ((readConfig env client).bind _)
      refine Follows.bind follows_readConfig (fun t' r hr => ?_) fun _ _ _ => trivial
      obtain ⟨e, rfl, hread⟩ := hr
      cases r with
      | none => exact ⟨trivial, fun _ _ => trivial⟩
      | some r =>
        obtain ⟨xml, current⟩ := r
        obtain ⟨hxml, hcur⟩ := hread xml current rfl
        show Follows _ _ _ (ite _ _ _)
        split
        · exact ⟨trivial, fun _ _ => trivial⟩
        · rename_i hfresh
          refine ⟨trivial, fun _ _ => ?_⟩
          have hcmp : Compared env client change xml
              (t ++ [⟨.tryAdvisoryLock (advisoryKey change.deviceId), true⟩] ++ [e]) :=
            { scheduled := hs
              locked := List.mem_append_left _ (List.mem_append_right _ (List.mem_singleton.mpr rfl))
              read := hxml
              fresh := ⟨current, hcur, by
                by_cases hb : change.baselineHash = ""
                · exact .inl hb
                · exact .inr (by simpa [hb] using hfresh)⟩ }
          refine follows_clear hvault hgzip hlead (hcmp.append _) fun t live snapId hr => ?_
          refine Follows.bind (follows_applyGuarded ⟨change, by simp, rfl, hs⟩ hr)
            (fun _ _ _ => ?_) fun _ _ _ => trivial
          exact follows_flushResult trivial ⟨trivial, fun _ _ => trivial⟩

theorem follows_applyProfileSequence (now : Time) :
    Follows (guarded env client changes) (fun _ _ => True) t
      (applyProfileSequence env changes client now) := by
  unfold applyProfileSequence
  split
  · trivial
  · rename_i first others hsched
    have hmem : ∀ c ∈ first :: others, c ∈ changes ∧ c.status = .scheduled := fun c hc => by
      rw [← hsched] at hc
      simpa using hc
    have hlead : (changes.filter fun c => c.status = .scheduled).head? = some first := by
      rw [hsched, List.head?_cons]
    refine ⟨trivial, fun got _ => ?_⟩
    cases got with
    | false => trivial
    | true =>
      show Follows _ _ _ ((readConfig env client).bind _)
      refine Follows.bind follows_readConfig (fun t' r hr => ?_) fun _ _ _ => trivial
      obtain ⟨e, rfl, hread⟩ := hr
      cases r with
      | none =>
        exact Follows.bind (follows_flushAll _) (fun _ _ _ => trivial) fun _ _ _ => trivial
      | some r =>
        obtain ⟨xml, current⟩ := r
        obtain ⟨hxml, hcur⟩ := hread xml current rfl
        show Follows _ _ _ (ite _ _ _)
        split
        · exact Follows.bind (follows_flushAll _) (fun _ _ _ => trivial) fun _ _ _ => trivial
        · rename_i hfresh
          have hcmp : Compared env client first xml
              (t ++ [⟨.tryAdvisoryLock (advisoryKey first.deviceId), true⟩] ++ [e]) :=
            { scheduled := (hmem first List.mem_cons_self).2
              locked := List.mem_append_left _ (List.mem_append_right _ (List.mem_singleton.mpr rfl))
              read := hxml
              fresh := ⟨current, hcur, by
                by_cases hb : first.baselineHash = ""
                · exact .inl hb
                · exact .inr (by simpa [hb] using hfresh)⟩ }
          refine follows_clear hvault hgzip hlead hcmp fun t live snapId hr => ?_
          refine Follows.bind (follows_applyMembers _ hmem hr) (fun _ _ _ => ?_)
            fun _ _ _ => trivial
          exact Follows.bind (follows_flushResults (fun _ => trivial) (follows_flushAll _))
            (fun _ _ _ => trivial) fun _ _ _ => trivial

end Vault

end Guarded

/-! ### The guarded runs -/

/-- In the run `t` every request to the box comes after all the checks, and
every stored snapshot decodes to the text whose hash was compared. -/
def GuardedRun (env : Env) (client : DeviceId) (changes : List Change) (t : Trace) : Prop :=
  ∀ t₁ q a t₂, t = t₁ ++ ⟨q, a⟩ :: t₂ → guardedQuestion env client changes t₁ q

/-- **Guarded mutation.**  In every run of `apply_change` and of
`apply_profile_sequence` a request reaches the box only after the row was
found scheduled, the lock obtained, the configuration read, parsed and
compared with the baseline of the (first scheduled) change, live push found
on, and the configuration stored; with live push off no applier of any kind
makes a request. -/
theorem request_guarded (env : Env)
    (hvault : ∀ b, env.decryptBytes (env.encryptBytes b) = some b)
    (hgzip : ∀ b, env.gzipDecompress (env.gzipCompress b) = some b) :
    (∀ change client now t z, Path (applyChange env change client now) t z →
      GuardedRun env client [change] t) ∧
    (∀ changes client now t z, Path (applyProfileSequence env changes client now) t z →
      GuardedRun env client changes t) ∧
    ∀ kind operation payload, Silent (applyForKind kind operation payload true) := by
  refine ⟨fun change client now t z hp => ?_, fun changes client now t z hp => ?_,
    applyForKind_dry⟩
  · have h : Follows (guarded env client [change]) (fun _ _ => True) []
        (applyChange env change client now) := follows_applyChange hvault hgzip change now
    exact (h.path_history hp).1
  · have h : Follows (guarded env client changes) (fun _ _ => True) []
        (applyProfileSequence env changes client now) :=
      follows_applyProfileSequence hvault hgzip now
    exact (h.path_history hp).1

def emptyConfigEnv : Env :=
  Env.ofDocuments [("<opnsense/>", .mk "opnsense" [] "" [])]
    [("opnsense=", "095c6c6552b486ae9786f2683d1e71230128c6bb275d87ea7ed6d1442f856482")]

/-- A scheduled addition of the alias `web`. -/
def addWeb : Change where
  id := 1
  tenantId := 0
  deviceId := 1
  kind := "alias"
  operation := "add"
  target := "web"
  payload := [("name", .str "web"), ("type", .str "host"), ("content", .str "10.0.0.1")]
  baselineHash := "095c6c6552b486ae9786f2683d1e71230128c6bb275d87ea7ed6d1442f856482"
  status := .scheduled
  sweepAttempts := 0
  revertsChangeId := none
  scheduledAt := none
  appliedAt := none
  result := .obj []
  preApplySnapshotId := none
  createdAt := 0

/-- What its live push does before the first request. -/
def addWebTrace : Trace :=
  let saved : Snapshot :=
    { id := 0, tenantId := 0, deviceId := 1, takenAt := 0, canonicalHash := addWeb.baselineHash
      contentEnc := "<opnsense/>".toUTF8, opnsenseVersion := "", sizeBytes := 11 }
  [⟨.tryAdvisoryLock 0, true⟩, ⟨.getConfigBackup 1, (.ok "<opnsense/>" : Except _ _)⟩,
    ⟨.flushChange { addWeb with status := .applying }, ()⟩, ⟨.livePushRow, some true⟩,
    ⟨.getDevice 1, none⟩, ⟨.insertSnapshot saved, (7 : Nat)⟩, ⟨.beginPush 1, ()⟩]

/-- The push of `addWeb` is cleared when its first request is made. -/
theorem request_guarded_addWeb : Cleared emptyConfigEnv 1 [addWeb] addWebTrace := by
  have hp : Path (applyChange emptyConfigEnv addWeb 1 0)
      (addWebTrace ++ [⟨.request 1 (.aliasAdd addWeb.payload), (.error (.opnsense .parseError) : Answer)⟩,
        ⟨.flushChange { addWeb with
            status := .failed, preApplySnapshotId := some 7
            result := .obj [("error", .str "apply failed")] }, ()⟩])
      (.ok { addWeb with
        status := .failed, preApplySnapshotId := some 7
        result := .obj [("error", .str "apply failed")] }) := by
    repeat refine Path.ask _ ?_
    exact Path.pure _
  obtain ⟨hone, -, -⟩ := request_guarded emptyConfigEnv (fun _ => rfl) fun _ => rfl
  exact (hone addWeb 1 0 _ _ hp addWebTrace _ _ _ rfl).2

end Opngms
