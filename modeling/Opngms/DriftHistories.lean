/-
Opngms/DriftHistories.lean

What drift detection reports after a history of pushes.

A history has the applied changes in the order in which they were applied; the list that
`compute_drift` gets has the changes in the order in which they were created, newest first.
The two orders differ where a change waits for its schedule, and a change that is not from a
template is pushed like any other but never looked at.  So what is reported is not judged
against what was pushed last (`drift_misjudged`) but against the newest change of each kind and
target that came from a template (**`drift_judged`**).
-/
import Opngms.DriftReports

namespace Opngms

namespace ConfigDrift

open Appliance Overlay

/-! ### The changes of a history -/

/-- The list of a device's changes, newest first, with an applied change for each entry of the
history. -/
structure Listed (changes : List ConfigChange) (history : List Push) : Prop where
  created : changes.Pairwise fun c c' => c'.createdAt ≤ c.createdAt
  applied : (changes.filter fun c => decide (c.status = .applied)).Perm (history.map Push.change)

section Histories

variable {ν : Firmware} {start b b' : Box} {history : List Push}
  {changes : List ConfigChange}

theorem formed_setting {operation : String} {payload : Dict} {dryRun : Bool} {z : Json}
    (h : (applyOpnsenseSetting operation payload dryRun).play (Box.serve ν) b = some (.ok z, b')) :
    (∃ key, settingKey payload = .str key) ∧
      ∃ flat, (Dict.getD payload "payload" (.obj [])).items = .ok flat := by
  obtain ⟨found, b₁, hfound, h⟩ := Dialogue.of_play_bind h
  obtain ⟨hep, rfl⟩ := play_ok hfound
  cases found with
  | none => cases h
  | some ep =>
    constructor
    · cases hkey : settingKey payload with
      | str s => exact ⟨s, rfl⟩
      | null | bool _ | int _ | float _ | arr _ | obj _ =>
        rw [hkey] at hep
        cases hep
    · cases dryRun with
      | true =>
        obtain ⟨flat, b₂, hflat, -⟩ := Dialogue.of_play_bind h
        exact ⟨flat, (play_ok hflat).1⟩
      | false =>
        obtain ⟨req, b₂, hreq, -⟩ := Dialogue.of_play_bind h
        obtain ⟨path, -, hafter⟩ := except_bind_ok (play_check hreq).1
        obtain ⟨path', -, hafter'⟩ := except_bind_ok hafter
        obtain ⟨flat, hflat, -⟩ := except_bind_ok hafter'
        exact ⟨flat, mapError_ok hflat⟩

theorem formed_rulesets {operation : String} {payload : Dict} {dryRun : Bool} {z : Json}
    (h : (applyIdsRulesets operation payload dryRun).play (Box.serve ν) b = some (.ok z, b')) :
    ∃ names : List String,
      Dict.getD payload "rulesets" (.arr []) = .arr (names.map Json.str) ∧ ∀ f ∈ names, f ≠ "" := by
  rw [applyIdsRulesets] at h
  split at h
  · rename_i raw hraw
    obtain ⟨names, b₁, hcheck, -⟩ := Dialogue.of_play_bind h
    obtain ⟨-, hxs, hne⟩ := filenames_of_rulesetNames (play_check hcheck).1
    exact ⟨names, by rw [hraw, hxs], hne⟩
  · cases h

theorem formed_of_push {p : Push} (h : b.push ν p = some b') : Formed p.change.toChange := by
  rw [Box.push] at h
  split at h
  · rename_i z b₁ hplay
    constructor
    · intro hkind
      rw [hkind] at hplay
      exact @formed_setting ν b b₁ p.change.operation p.change.payload _ z hplay
    · intro hkind
      rw [hkind] at hplay
      exact @formed_rulesets ν b b₁ p.change.operation p.change.payload _ z hplay
  · cases h

theorem formed_of_run (h : start.run ν history = some b) :
    ∀ p ∈ history, Formed p.change.toChange := by
  induction history generalizing start with
  | nil => exact fun _ hp => absurd hp List.not_mem_nil
  | cons p history ih =>
    obtain ⟨b₁, hp, h⟩ := Option.bind_eq_some_iff.mp h
    exact List.forall_mem_cons.mpr ⟨formed_of_push hp, ih h⟩

theorem formed_of_listed (hrun : start.run ν history = some b) (hlisted : Listed changes history)
    {c : ConfigChange} (hc : Newest changes c) : Formed c.toChange := by
  obtain ⟨newer, older, rfl, hsel, -⟩ := hc
  rw [selectable, Bool.and_eq_true] at hsel
  have hmem : c ∈ (newer ++ c :: older).filter fun c => decide (c.status = .applied) :=
    List.mem_filter.mpr ⟨List.mem_append_right _ List.mem_cons_self, hsel.1⟩
  obtain ⟨p, hp, rfl⟩ := List.mem_map.mp (hlisted.applied.subset hmem)
  exact formed_of_run hrun p hp

/-! ### The reports over a history -/

/-- The drift check reports no `drifted` and no `missing` result. -/
def Quiet (env : Env) (changes : List ConfigChange) (configXml : String) (rulesets : Json) : Prop :=
  ∃ rs, driftCheck env changes configXml rulesets = .ok rs ∧
    ∀ res ∈ rs, res.status ≠ .drifted ∧ res.status ≠ .missing

/-- The drift check reports a `drifted` or a `missing` result. -/
def Reports (env : Env) (changes : List ConfigChange) (configXml : String) (rulesets : Json) :
    Prop :=
  ∃ rs, driftCheck env changes configXml rulesets = .ok rs ∧
    ∃ res ∈ rs, res.status = .drifted ∨ res.status = .missing

/-- Somebody else has edited a place: it reads otherwise, and everything else as before; the
fields of an alias come and go with it. -/
structure Edited (r : Place → String) (f : Place) (r' : Place → String) : Prop where
  changed : r' f ≠ r f
  others : ∀ g, g ≠ f → (∀ n k, f = .aliasNamed n → g ≠ .aliasField n k) → r' g = r g

theorem aliasNamed_of_described {c : Change} {n : Json} {k v : String}
    (h : (.aliasField n k, v) ∈ described c) : ∃ w, (.aliasNamed n, w) ∈ described c := by
  rw [described] at h ⊢
  split_ifs at h ⊢
  · rw [describedSetting] at h
    split at h
    · simp at h
    · cases h
  · rw [describedAlias] at h ⊢
    split_ifs at h ⊢
    · simp at h
    · simp only [List.mem_cons, List.mem_map, Prod.mk.injEq, reduceCtorEq, false_and, false_or,
        Place.aliasField.injEq] at h
      obtain ⟨kv, -, ⟨rfl, -⟩, -⟩ := h
      exact ⟨"1", List.mem_cons_self⟩
  · simp [describedRulesets] at h
  · cases h

theorem quiet_iff {env : Env} {configXml : String} {rulesets : Json} {P : Prop}
    (h : ∃ rs, driftCheck env changes configXml rulesets = .ok rs ∧
      ((∀ res ∈ rs, ¬ res.status.Alarming) ↔ P)) : Quiet env changes configXml rulesets ↔ P := by
  obtain ⟨rs, hrs, hspec⟩ := h
  rw [← hspec]
  constructor
  · rintro ⟨rs', hrs', hall⟩ res hres
    obtain rfl := Except.ok.inj (hrs.symm.trans hrs')
    exact not_or.mpr (hall res hres)
  · exact fun hall => ⟨rs, hrs, fun res hres => not_or.mp (hall res hres)⟩

theorem reports_iff {env : Env} {configXml : String} {rulesets : Json} {P : Prop}
    (h : ∃ rs, driftCheck env changes configXml rulesets = .ok rs ∧
      ((∀ res ∈ rs, ¬ res.status.Alarming) ↔ P)) :
    Reports env changes configXml rulesets ↔ ¬ P := by
  obtain ⟨rs, hrs, hspec⟩ := h
  rw [← hspec]
  constructor
  · rintro ⟨rs', hrs', res, hres, hstatus⟩ hall
    obtain rfl := Except.ok.inj (hrs.symm.trans hrs')
    exact hall res hres hstatus
  · intro hnot
    push Not at hnot
    exact ⟨rs, hrs, hnot⟩

/-- **Drift is judged against the newest change of each kind and target that was applied from a
template.**  Nothing is reported exactly where each place that such a change describes was last
pushed with the value it gives, whichever change pushed it; and where nothing is reported, an
edit of a place is reported exactly where such a change describes the place. -/
theorem drift_judged {env : Env} {configXml : String} {rulesets : Json}
    (hrun : start.run ν history = some b) (hlisted : Listed changes history)
    (hshows : Shows env configXml rulesets b.reads) :
    (Quiet env changes configXml rulesets ↔
      ∀ c, Newest changes c → Agrees (lastPushed ν start history) (described c.toChange)) ∧
    (Quiet env changes configXml rulesets →
      ∀ f r' configXml' rulesets', Edited b.reads f r' → Shows env configXml' rulesets' r' →
        (Reports env changes configXml' rulesets' ↔
          ∃ c, Newest changes c ∧ ∃ v, (f, v) ∈ described c.toChange)) := by
  have hspec {xml : String} {answer : Json} {r : Place → String} (hs : Shows env xml answer r) :=
    driftCheck_spec (fun _ hc => formed_of_listed hrun hlisted hc) hs
  rw [← reads_run hrun]
  refine ⟨quiet_iff (hspec hshows), fun hq f r' xml' answer' hedit hshows' => ?_⟩
  have hagrees := (quiet_iff (hspec hshows)).mp hq
  rw [reports_iff (hspec hshows')]
  constructor
  · intro hnot
    by_contra hnone
    apply hnot
    rintro c hc ⟨g, v⟩ hgv
    -- the edit leaves what is described, or the place itself would be
    rw [hedit.others g, hagrees c hc _ hgv]
    · rintro rfl
      exact hnone ⟨c, hc, v, hgv⟩
    · rintro n k rfl rfl
      obtain ⟨w, hw⟩ := aliasNamed_of_described hgv
      exact hnone ⟨c, hc, w, hw⟩
  · rintro ⟨c, hc, v, hv⟩ hall
    exact hedit.changed ((hall c hc _ hv).trans (hagrees c hc _ hv).symm)

end Histories

/-! ### Histories of a device with one alias -/

/-- The element of the alias `web`. -/
def webElem (content : String) : Elem :=
  .mk "alias" [("uuid", "u1")] ""
    [.mk "name" [] "web" [], .mk "type" [] "host" [], .mk "content" [] content []]

/-- A configuration with two fields of the endpoint `ids_general`, and the alias. -/
def document (enabled homenet content : String) : Elem :=
  .mk "opnsense" [] "" [.mk "OPNsense" [] ""
    [.mk "IDS" [] "" [.mk "general" [] ""
      [.mk "enabled" [] enabled [], .mk "homenet" [] homenet []]],
     .mk "Firewall" [] "" [.mk "Alias" [] "" [.mk "aliases" [] "" [webElem content]]]]]

/-- The path of a field of `ids_general`. -/
def generalPath (k : String) : List String := ["OPNsense", "IDS", "general", k]

def settingTexts (enabled homenet : String) (p : List String) : String :=
  if p = generalPath "enabled" then enabled
  else if p = generalPath "homenet" then homenet else ""

def webFields (content k : String) : String :=
  if k = "name" then "web" else if k = "type" then "host" else if k = "content" then content else ""

/-- A device with the configuration. -/
def webBox (enabled homenet content : String) : Box where
  settings := settingTexts enabled homenet
  aliases := [⟨"u1", webFields content⟩]
  enabled _ := false
  distinct := List.nodup_singleton _
  named := List.nodup_singleton _

def plainFirmware : Firmware := ⟨longerUuids, storedText, storedText_str⟩

theorem textAt_document (enabled homenet content : String) {p : List String}
    (hp : ¬ aliasModel <+: p) :
    textAt (document enabled homenet content) p = settingTexts enabled homenet p := by
  unfold settingTexts generalPath
  rcases p with - | ⟨a, p⟩
  · rfl
  by_cases ha : "OPNsense" = a
  · subst ha
    rcases p with - | ⟨b, p⟩
    · rfl
    by_cases hb : "IDS" = b
    · subst hb
      rcases p with - | ⟨d, p⟩
      · rfl
      by_cases hd : "general" = d
      · subst hd
        rcases p with - | ⟨k, p⟩
        · rfl
        by_cases he : "enabled" = k
        · subst he
          cases p <;> rfl
        · by_cases hh : "homenet" = k
          · subst hh
            cases p <;> rfl
          · simp [textAt, document, Elem.find, Elem.findall, Elem.childrenTagged, Elem.children,
              Elem.tag, he, hh, Ne.symm he, Ne.symm hh]
      · simp [textAt, document, Elem.find, Elem.findall, Elem.childrenTagged, Elem.children,
          Elem.tag, hd, Ne.symm hd]
    · by_cases hf : "Firewall" = b
      · -- below it there is only the section of the aliases
        subst hf
        rcases p with - | ⟨d, p⟩
        · rfl
        · have hd : ¬ "Alias" = d := fun h => hp (by simp [aliasModel, ← h])
          simp [textAt, document, Elem.find, Elem.findall, Elem.childrenTagged, Elem.children,
            Elem.tag, hd]
      · simp [textAt, document, Elem.find, Elem.findall, Elem.childrenTagged, Elem.children,
          Elem.tag, hb, hf, Ne.symm hb]
  · simp [textAt, document, Elem.find, Elem.findall, Elem.childrenTagged, Elem.children, Elem.tag,
      ha, Ne.symm ha]

/-- The document shows the readings that it is made of. -/
theorem shows_document {env : Env} {xml enabled homenet content : String} {r : Place → String}
    (hparse : env.parseXml xml = some (document enabled homenet content))
    (hset : ∀ p, r (.setting p) = settingTexts enabled homenet p)
    (hnamed : ∀ n, r (.aliasNamed n) = flag (decide (n = .str "web")))
    (hfield : ∀ k, r (.aliasField (.str "web") k) = webFields content k)
    (hrulesets : ∀ f, r (.ruleset f) = "") : Shows env xml (rulesetAnswer []) r := by
  have halias (n : Json) (el : Elem) :
      IsAlias (document enabled homenet content) n el ↔ el = webElem content ∧ n = .str "web" := by
    constructor
    · rintro ⟨hel, hn⟩
      obtain rfl := List.mem_singleton.mp hel
      exact ⟨rfl, hn.symm⟩
    · rintro ⟨rfl, rfl⟩
      exact ⟨List.mem_singleton_self _, rfl⟩
  refine ⟨⟨_, hparse, fun p hp => (textAt_document _ _ _ hp).trans (hset p).symm, ?_, ?_, ?_, ?_,
    ?_⟩, [], rfl, List.nodup_nil, hrulesets⟩
  · rintro n ⟨el, hel⟩
    rw [hnamed, decide_eq_true ((halias n el).mp hel).2]
  · intro n hnone
    rw [hnamed, decide_eq_false fun hn => hnone ⟨_, (halias n _).mpr ⟨rfl, hn⟩⟩]
  · rintro n el hel k
    obtain ⟨rfl, rfl⟩ := (halias n el).mp hel
    rw [hfield, webFields]
    split_ifs with hname htype hcontent
    · rw [hname]
      rfl
    · rw [htype]
      rfl
    · rw [hcontent]
      rfl
    · simp [webElem, Elem.findtext, Elem.find, Elem.findall, Elem.childrenTagged, Elem.children,
        Elem.tag, Ne.symm hname, Ne.symm htype, Ne.symm hcontent]
  · intro el hel k
    obtain rfl := List.mem_singleton.mp hel
    by_cases hname : "name" = k
    · subst hname
      exact le_of_eq rfl
    by_cases htype : "type" = k
    · subst htype
      exact le_of_eq rfl
    by_cases hcontent : "content" = k
    · subst hcontent
      exact le_of_eq rfl
    · simp [Elem.HasOnce, Elem.childrenTagged, webElem, Elem.children, Elem.tag, hname, htype,
        hcontent]
  · intro el hel htag
    simp only [document, Elem.iter, Elem.iterAll, webElem, List.append_nil, List.nil_append,
      List.cons_append, List.mem_cons, List.not_mem_nil, or_false] at hel
    -- the elements of the document, one by one
    rcases hel with rfl | rfl | rfl | rfl | rfl | rfl | rfl | rfl | rfl | rfl | rfl | rfl | rfl
    all_goals first
      | exact iff_of_true rfl (List.mem_singleton_self _)
      | exact absurd htag (by simp [Elem.tag])

/-- The payload of a change of one field of `ids_general`. -/
def generalPayload (k v : String) : Dict :=
  [("endpoint_key", .str "ids_general"), ("payload", .obj [("general." ++ k, .str v)])]

theorem settingWrites_general {k : String} (v : String)
    (hk : splitDots ("general." ++ k) = ["general", k]) (p : List String) :
    settingWrites plainFirmware (generalPayload k v) (.setting p) =
      if p = generalPath k then some v else none := by
  have hsent : settingSent (generalPayload k v) = some
      ({ key := "ids_general", setPath := "ids/settings/set",
         reconfigurePath := "ids/service/reconfigure", modelRoot := "ids",
         excludeFields := ["general.interfaces"], xmlPath := ["OPNsense", "IDS"] },
       .obj [("general", .obj [(k, .str v)])]) := by
    have hflat : unflatten [("general." ++ k, .str v)] = .ok [("general", .obj [(k, .str v)])] := by
      rw [unflatten, List.foldlM_cons, hk]
      rfl
    have hitems : (Dict.getD (generalPayload k v) "payload" (.obj [])).items =
        .ok [("general." ++ k, .str v)] := rfl
    have hep : settingEndpoint (settingKey (generalPayload k v)) = .ok settingEndpoints.head? := rfl
    simp only [settingSent, hep, hitems, hflat, settingEndpoints, List.head?_cons]
  have hleaf : ∀ q : List String, leafAt (.obj [("general", .obj [(k, .str v)])]) q =
      if q = ["general", k] then some (.str v) else none := by
    rintro (- | ⟨a, q⟩)
    · rfl
    · by_cases ha : "general" = a
      · subst ha
        rcases q with - | ⟨d, q⟩
        · rfl
        · by_cases hd : k = d
          · subst hd
            cases q <;> simp [leafAt]
          · simp [leafAt, hd, Ne.symm hd]
      · simp [leafAt, ha, Ne.symm ha]
  rw [settingWrites, hsent]
  by_cases hpath : ["OPNsense", "IDS"].isPrefixOf p
  · obtain ⟨q, rfl⟩ := List.isPrefixOf_iff_prefix.mp hpath
    simp only [hpath, if_true]
    show (leafAt _ q).map storedText = _
    rw [hleaf]
    by_cases hq : q = ["general", k]
    · simp [hq, generalPath, storedText_str]
    · simp [hq, generalPath]
  · rw [if_neg]
    · simp only [hpath]
      rfl
    · rintro rfl
      exact hpath rfl
/-- A change of one field, applied live. -/
def generalPush (id : ChangeId) (template : Option TemplateId) (k v : String) : Push where
  change := {
    id, tenantId := 1, deviceId := 1, kind := "opnsense_setting", operation := "set"
    target := "ids_general", payload := generalPayload k v, baselineHash := ""
    status := .applied, sweepAttempts := 0, revertsChangeId := none, scheduledAt := none
    appliedAt := none, result := .obj [], preApplySnapshotId := none, createdAt := id
    sourceTemplateId := template }
  live := true
  kind := List.mem_cons_self
  applied := rfl

def turnedOn : Push := generalPush 1 (some 7) "enabled" "1"

def turnedOff : Push := generalPush 2 (some 8) "enabled" "0"

def renamed : Push := generalPush 2 (some 8) "homenet" "dmz"

def reverted : Push := generalPush 2 none "enabled" "0"

def readdressed : Push where
  change := {
    id := 2, tenantId := 1, deviceId := 1, kind := "alias", operation := "set", target := "web"
    payload := [("name", .str "web"), ("content", .arr [.str "10.0.0.1", .str "10.0.0.2"])]
    baselineHash := "", status := .applied, sweepAttempts := 0, revertsChangeId := none
    scheduledAt := none, appliedAt := none, result := .obj [], preApplySnapshotId := none
    createdAt := 2, sourceTemplateId := some 8 }
  live := true
  kind := by decide
  applied := rfl

def webEnv : Env := Env.ofDocuments
  [("<on/>", document "1" "lan" "10.0.0.1"), ("<off/>", document "0" "lan" "10.0.0.1"),
   ("<on-dmz/>", document "1" "dmz" "10.0.0.1"), ("<off-dmz/>", document "0" "dmz" "10.0.0.1"),
   ("<on-two/>", document "1" "lan" "10.0.0.1\n10.0.0.2")] []

def startBox : Box := webBox "0" "lan" "10.0.0.1"

theorem reads_startBox_named (n : Json) :
    startBox.reads (.aliasNamed n) = flag (decide (n = .str "web")) := by
  show flag (startBox.alias? n).isSome = _
  by_cases hn : n = .str "web"
  · subst hn
    rfl
  · have hnone : startBox.alias? n = none :=
      Box.alias?_eq_none_iff.mpr fun a ha => by
        obtain rfl := List.mem_singleton.mp ha
        exact hn
    rw [hnone, decide_eq_false hn]
    rfl

theorem lastPushed_two (first last : Push) (f : Place) :
    lastPushed plainFirmware startBox [first, last] f =
      ((last.writes plainFirmware f).or (first.writes plainFirmware f)).getD
        (startBox.reads f) := by
  simp only [lastPushed, List.map_cons, List.map_nil, lastWritten, Option.none_or]

theorem writes_general {id : ChangeId} {template : Option TemplateId} {k v : String}
    (hk : splitDots ("general." ++ k) = ["general", k]) (p : List String) :
    (generalPush id template k v).writes plainFirmware (.setting p) =
      if p = generalPath k then some v else none :=
  settingWrites_general v hk p

theorem writes_other {id : ChangeId} {template : Option TemplateId} {k v : String} {f : Place}
    (hf : ∀ p, f ≠ .setting p) : (generalPush id template k v).writes plainFirmware f = none := by
  cases f with
  | setting p => exact absurd rfl (hf p)
  | aliasNamed n | aliasField n k | ruleset f => rfl

theorem splitDots_enabled : splitDots ("general." ++ "enabled") = ["general", "enabled"] := by
  decide

theorem splitDots_homenet : splitDots ("general." ++ "homenet") = ["general", "homenet"] := by
  decide

theorem run_two (first last : Push)
    (h : (startBox.run plainFirmware [first, last]).isSome = true) :
    ∃ b, startBox.run plainFirmware [first, last] = some b :=
  Option.isSome_iff_exists.mp h

theorem shows_general {id id' : ChangeId} {template template' : Option TemplateId}
    {k v k' v' xml enabled homenet : String} {b : Box}
    (hrun : startBox.run plainFirmware
      [generalPush id template k v, generalPush id' template' k' v'] = some b)
    (hk : splitDots ("general." ++ k) = ["general", k])
    (hk' : splitDots ("general." ++ k') = ["general", k'])
    (hparse : webEnv.parseXml xml = some (document enabled homenet "10.0.0.1"))
    (hset : ∀ p, (if p = generalPath k' then v' else if p = generalPath k then v
      else settingTexts "0" "lan" p) = settingTexts enabled homenet p) :
    Shows webEnv xml (rulesetAnswer []) b.reads := by
  have hother {f : Place} (hf : ∀ p, f ≠ .setting p) : b.reads f = startBox.reads f := by
    rw [reads_run hrun, lastPushed_two, writes_other hf, writes_other hf]
    rfl
  refine shows_document hparse (fun p => ?_) (fun n => ?_) (fun k => ?_) fun f => ?_
  · rw [reads_run hrun, lastPushed_two, writes_general hk, writes_general hk', ← hset]
    split_ifs <;> rfl
  · rw [hother (by simp)]
    exact reads_startBox_named n
  · rw [hother (by simp)]
    rfl
  · rw [hother (by simp)]
    rfl

/-- **A change that was created first and applied last is taken for an edit on the device, and so
is a revert; and an edit of a field goes unnoticed once another template has set another field
of the same endpoint.** -/
theorem drift_misjudged :
    (∃ b, startBox.run plainFirmware [turnedOff, turnedOn] = some b ∧
      Listed [turnedOff.change, turnedOn.change] [turnedOff, turnedOn] ∧
      Shows webEnv "<on/>" (rulesetAnswer []) b.reads ∧
      Reports webEnv [turnedOff.change, turnedOn.change] "<on/>" (rulesetAnswer [])) ∧
    (∃ b, startBox.run plainFirmware [turnedOn, reverted] = some b ∧
      Listed [reverted.change, turnedOn.change] [turnedOn, reverted] ∧
      Shows webEnv "<off/>" (rulesetAnswer []) b.reads ∧
      Reports webEnv [reverted.change, turnedOn.change] "<off/>" (rulesetAnswer [])) ∧
    ∃ b, startBox.run plainFirmware [turnedOn, renamed] = some b ∧
      Listed [renamed.change, turnedOn.change] [turnedOn, renamed] ∧
      Shows webEnv "<on-dmz/>" (rulesetAnswer []) b.reads ∧
      turnedOn.writes plainFirmware (.setting (generalPath "enabled")) = some "1" ∧
      renamed.writes plainFirmware (.setting (generalPath "enabled")) = none ∧
      ∃ r', Edited b.reads (.setting (generalPath "enabled")) r' ∧
        Shows webEnv "<off-dmz/>" (rulesetAnswer []) r' ∧
        ¬ Reports webEnv [renamed.change, turnedOn.change] "<off-dmz/>" (rulesetAnswer []) := by
  refine ⟨?_, ?_, ?_⟩
  · -- the change with the number 2 is looked at, and 1 was applied after it
    obtain ⟨b, hb⟩ := run_two turnedOff turnedOn rfl
    refine ⟨b, hb, ⟨by decide, .refl _⟩, ?_, ⟨_, rfl, _, List.mem_cons_self, .inl rfl⟩⟩
    refine shows_general hb splitDots_enabled splitDots_enabled rfl fun p => ?_
    unfold settingTexts
    split_ifs <;> rfl
  · -- the revert has no template, so the change it reverts is looked at
    obtain ⟨b, hb⟩ := run_two turnedOn reverted rfl
    refine ⟨b, hb, ⟨by decide, .swap _ _ _⟩, ?_, ⟨_, rfl, _, List.mem_cons_self, .inl rfl⟩⟩
    refine shows_general hb splitDots_enabled splitDots_enabled rfl fun p => ?_
    unfold settingTexts
    split_ifs <;> rfl
  · -- only the second change of the endpoint is looked at, and it sets the other field
    obtain ⟨b, hb⟩ := run_two turnedOn renamed rfl
    have hshows : Shows webEnv "<on-dmz/>" (rulesetAnswer []) b.reads := by
      refine shows_general hb splitDots_enabled splitDots_homenet rfl fun p => ?_
      unfold settingTexts
      split_ifs with hhomenet henabled
      · exact absurd (hhomenet.symm.trans henabled) (by decide)
      all_goals rfl
    have hother {f : Place} (hf : ∀ p, f ≠ .setting p) : b.reads f = startBox.reads f := by
      rw [reads_run hb, lastPushed_two, renamed, turnedOn, writes_other hf, writes_other hf]
      rfl
    refine ⟨b, hb, ⟨by decide, .swap _ _ _⟩, hshows, rfl, rfl,
      Function.update b.reads (.setting (generalPath "enabled")) "0",
      ⟨?_, fun g hg _ => Function.update_of_ne hg _ _⟩, ?_, ?_⟩
    · rw [Function.update_self, reads_run hb]
      exact fun h => absurd (h : "0" = "1") (by decide)
    · refine shows_document rfl (fun p => ?_) (fun n => ?_) (fun k => ?_) fun f => ?_
      · by_cases hp : p = generalPath "enabled"
        · rw [hp, Function.update_self]
          rfl
        · rw [Function.update_of_ne (fun h => hp (Place.setting.inj h)), reads_run hb,
            lastPushed_two, renamed, turnedOn, writes_general splitDots_enabled,
            writes_general splitDots_homenet, if_neg hp, settingTexts, if_neg hp]
          by_cases hh : p = generalPath "homenet"
          · rw [if_pos hh, if_pos hh]
            rfl
          · rw [if_neg hh, if_neg hh]
            show settingTexts "0" "lan" p = _
            rw [settingTexts, if_neg hp, if_neg hh]
      · rw [Function.update_of_ne (by simp), hother (by simp)]
        exact reads_startBox_named n
      · rw [Function.update_of_ne (by simp), hother (by simp)]
        rfl
      · rw [Function.update_of_ne (by simp), hother (by simp)]
        rfl
    · rintro ⟨rs, hrs, res, hres, hstatus⟩
      obtain rfl : [⟨2, "opnsense_setting", "ids_general", .inSync, []⟩] = rs :=
        Except.ok.inj ((rfl : _ = _).trans hrs)
      obtain rfl := List.mem_singleton.mp hres
      exact absurd hstatus (by decide)

/-- The check after a change of a setting and one of the alias, each from its template. -/
theorem drift_judged_readdressed : ∃ b,
    startBox.run plainFirmware [turnedOn, readdressed] = some b ∧
    (Quiet webEnv [readdressed.change, turnedOn.change] "<on-two/>" (rulesetAnswer []) ↔
      ∀ c, Newest [readdressed.change, turnedOn.change] c →
        Agrees (lastPushed plainFirmware startBox [turnedOn, readdressed])
          (described c.toChange)) ∧
    (Quiet webEnv [readdressed.change, turnedOn.change] "<on-two/>" (rulesetAnswer []) →
      ∀ f r' configXml' rulesets', Edited b.reads f r' → Shows webEnv configXml' rulesets' r' →
        (Reports webEnv [readdressed.change, turnedOn.change] configXml' rulesets' ↔
          ∃ c, Newest [readdressed.change, turnedOn.change] c ∧
            ∃ v, (f, v) ∈ described c.toChange)) := by
  obtain ⟨b, hb⟩ := run_two turnedOn readdressed (by decide +kernel)
  refine ⟨b, hb, drift_judged hb ⟨by decide, .swap _ _ _⟩ ?_⟩
  have hname : pushedName plainFirmware readdressed.change.payload = .str "web" := rfl
  have hparse : webEnv.parseXml "<on-two/>" =
      some (document "1" "lan" "10.0.0.1\n10.0.0.2") := rfl
  refine shows_document hparse (fun p => ?_) (fun n => ?_) (fun k => ?_) fun f => ?_
  · rw [reads_run hb, lastPushed_two, turnedOn, writes_general splitDots_enabled]
    show (if p = generalPath "enabled" then some "1" else none).getD (settingTexts "0" "lan" p) = _
    unfold settingTexts
    split_ifs <;> rfl
  · rw [reads_run hb, lastPushed_two, reads_startBox_named]
    show ((if n = pushedName plainFirmware readdressed.change.payload then some (flag true)
      else none).or none).getD _ = _
    rw [hname]
    split_ifs with hn
    · rw [decide_eq_true hn]
      rfl
    · rfl
  · rw [reads_run hb, lastPushed_two]
    -- the two addresses are sent as one text
    have hsent : normalizeAliasPayload readdressed.change.payload =
        [("name", .str "web"), ("content", .str "10.0.0.1\n10.0.0.2")] := by decide +kernel
    show ((if Json.str "web" = pushedName plainFirmware readdressed.change.payload then
        (if "set" = "delete" then some ""
          else (Dict.get? (normalizeAliasPayload readdressed.change.payload) k).map storedText)
      else none).or none).getD (webFields "10.0.0.1" k) = _
    rw [if_pos hname.symm, if_neg (by decide), hsent, Option.or_none]
    unfold webFields
    by_cases hk : k = "name"
    · subst hk
      rfl
    · by_cases hc : k = "content"
      · subst hc
        rfl
      · simp [Dict.get?, hk, hc, Ne.symm hk, Ne.symm hc]
  · rw [reads_run hb]
    rfl

end ConfigDrift

end Opngms
