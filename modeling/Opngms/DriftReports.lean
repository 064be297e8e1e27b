/-
Opngms/DriftReports.lean

What the drift check reports on a device that shows given readings.

A change describes some places of the configuration.  The check looks at the newest change of
each kind and target that was applied from a template, and reports `drifted` or `missing`
exactly where the configuration reads otherwise than one of these describes
(**`driftCheck_spec`**).
-/
import Opngms.DriftDevice
import Opngms.RecordUndo

namespace Opngms

namespace ConfigDrift

/-! ### What a change is compared with -/

/-- What a setting change says the configuration reads. -/
def describedSetting (c : Change) : List (Place × String) :=
  match settingEndpoint (targetOr c "endpoint_key"),
    (Dict.getD c.payload "payload" (.obj [])).items with
  | .ok (some ep), .ok flat =>
    flat.map fun kv => (.setting (ep.xmlPath ++ splitDots kv.1), norm kv.2)
  | _, _ => []

/-- What an alias change says the configuration reads. -/
def describedAlias (c : Change) : List (Place × String) :=
  if c.operation = "delete" then [(.aliasNamed (targetOr c "name"), "")]
  else
    (.aliasNamed (targetOr c "name"), "1") ::
      (c.payload.filter fun kv => decide (kv.1 ≠ "name")).map fun kv =>
        (.aliasField (targetOr c "name") kv.1, norm kv.2)

/-- What a ruleset change says: its rulesets are enabled. -/
def describedRulesets (c : Change) : List (Place × String) :=
  (filenames (Dict.getD c.payload "rulesets" (.arr []))).map fun f => (.ruleset f, "1")

/-- What a change says the configuration reads; nothing for a kind without a checker. -/
def described (c : Change) : List (Place × String) :=
  if c.kind = "opnsense_setting" then describedSetting c
  else if c.kind = "alias" then describedAlias c
  else if c.kind = "ids_rulesets" then describedRulesets c
  else []

def Agrees (r : Place → String) (l : List (Place × String)) : Prop := ∀ fv ∈ l, r fv.1 = fv.2

/-! ### What the device shows -/

/-- The text of the element that a path reaches, "" where there is none. -/
def textAt (root : Elem) (path : List String) : String :=
  match root.find path with
  | some el => el.text
  | none => ""

def aliasModel : List String := ["OPNsense", "Firewall", "Alias"]

def aliasElems (root : Elem) : List Elem := root.findall (aliasModel ++ ["aliases"] ++ ["alias"])

/-- An element is the one of the alias with a name. -/
def IsAlias (root : Elem) (n : Json) (el : Elem) : Prop :=
  el ∈ aliasElems root ∧ Json.str (el.findtext "name") = n

/-- A document shows readings: an alias is there where it has an element, whose children are its
fields.  There may be other elements with the tag, which have no name (those of other models). -/
structure ShowsConfig (root : Elem) (r : Place → String) : Prop where
  setting : ∀ p, ¬ aliasModel <+: p → textAt root p = r (.setting p)
  present : ∀ n, (∃ el, IsAlias root n el) → r (.aliasNamed n) = flag true
  absent : ∀ n, (¬ ∃ el, IsAlias root n el) → r (.aliasNamed n) = flag false
  field : ∀ n el, IsAlias root n el → ∀ k, el.findtext k = r (.aliasField n k)
  once : ∀ el ∈ aliasElems root, ∀ k, Elem.HasOnce el k
  only : ∀ el ∈ root.iter, el.tag = "alias" →
    ((el.find ["name"]).isSome ↔ el ∈ aliasElems root)

/-- The answer of a device that has the given rulesets, enabled or not. -/
def rulesetAnswer (rows : List (String × Bool)) : Json :=
  .obj [("rows", .arr (rows.map fun fe =>
    .obj [("filename", .str fe.1), ("enabled", .str (if fe.2 then "1" else "0"))]))]

/-- The two answers of a device show the readings of its configuration. -/
structure Shows (env : Env) (configXml : String) (rulesets : Json) (r : Place → String) :
    Prop where
  config : ∃ root, env.parseXml configXml = some root ∧ ShowsConfig root r
  rulesets : ∃ rows : List (String × Bool), rulesets = rulesetAnswer rows ∧
    (rows.map (·.1)).Nodup ∧ ∀ f, r (.ruleset f) = flag ((rows.lookup f).getD false)

theorem mem_iter_of_child {root c d : Elem} {t : String} (hc : c ∈ root.childrenTagged t)
    (hd : d ∈ c.iter) : d ∈ root.iter := by
  obtain ⟨t, a, x, cs⟩ := root
  exact List.mem_cons_of_mem _ (Elem.mem_iterAll.mpr ⟨c, (List.mem_filter.mp hc).1, hd⟩)

theorem mem_findall {path : List String} {t : String} {root el : Elem}
    (h : el ∈ root.findall (path ++ [t])) : el ∈ root.iter ∧ el.tag = t := by
  induction path generalizing root with
  | nil =>
    obtain ⟨c, hc, hel⟩ := List.mem_flatMap.mp h
    obtain rfl := List.mem_singleton.mp hel
    have hself : el ∈ el.iter := by
      cases el
      exact List.mem_cons_self
    exact ⟨mem_iter_of_child hc hself, by simpa using (List.mem_filter.mp hc).2⟩
  | cons s path ih =>
    obtain ⟨c, hc, hel⟩ := List.mem_flatMap.mp h
    obtain ⟨hmem, htag⟩ := ih hel
    exact ⟨mem_iter_of_child hc hmem, htag⟩

theorem aliasFromConfig_spec {root : Elem} {r : Place → String} (hroot : ShowsConfig root r)
    (n : Json) : r (.aliasNamed n) = flag (aliasFromConfig root n).isSome ∧
      ∀ cur, aliasFromConfig root n = some cur →
        ∀ k, (cur.lookup k).getD "" = r (.aliasField n k) := by
  let p (el : Elem) : Bool := match el.find ["name"] with
    | some c => decide (Json.str c.text = n)
    | none => false
  -- the elements with the tag and the name are those of the aliases with the name
  have hp : ∀ el ∈ root.iter, el.tag = "alias" → (p el = true ↔ IsAlias root n el) := by
    intro el hel htag
    have honly := hroot.only el hel htag
    simp only [p, IsAlias, ← honly, Elem.findtext]
    cases el.find ["name"] <;> simp
  have hread : aliasFromConfig root n =
      ((root.iter.filter fun el => el.tag == "alias").find? p).map Elem.record := rfl
  cases hfind : (root.iter.filter fun el => el.tag == "alias").find? p with
  | none =>
    rw [hread, hfind]
    refine ⟨hroot.absent n ?_, nofun⟩
    rintro ⟨el, hel⟩
    obtain ⟨hmem, htag⟩ := mem_findall hel.1
    have hiter : el ∈ root.iter.filter fun el => el.tag == "alias" :=
      List.mem_filter.mpr ⟨hmem, by simp [htag]⟩
    exact List.find?_eq_none.mp hfind el hiter ((hp el hmem htag).mpr hel)
  | some el =>
    obtain ⟨hmem, htag⟩ := List.mem_filter.mp (List.mem_of_find?_eq_some hfind)
    have hel := (hp el hmem (by simpa using htag)).mp (List.find?_some hfind)
    rw [hread, hfind]
    refine ⟨hroot.present n ⟨el, hel⟩, fun cur hcur k => ?_⟩
    obtain rfl := Option.some.inj hcur
    rw [← hroot.field n el hel, findtext_eq_lookup (hroot.once el hel.1 k)]

/-! ### The checkers -/

def DriftStatus.Alarming (s : DriftStatus) : Prop := s = .drifted ∨ s = .missing

section Checkers

variable {env : Env} {live : LiveState} {root : Elem} {r : Place → String} {c : Change}

theorem verdict_alarming (l : List Json) : (verdict l).1.Alarming ↔ l ≠ [] := by
  cases l with
  | nil => simp [verdict, DriftStatus.Alarming]
  | cons x xs => simp [verdict, DriftStatus.Alarming]

theorem driftedKeys_eq_nil (p : String → Bool) (applied : Dict) (cur : List (String × String)) :
    driftedKeys p applied cur = [] ↔
      ∀ kv ∈ applied, p kv.1 = true → (cur.lookup kv.1).getD "" = norm kv.2 := by
  simp only [driftedKeys, List.map_eq_nil_iff, List.filter_eq_nil_iff, Bool.and_eq_true,
    decide_eq_true_iff, ne_eq, not_and, not_not]
  exact forall₃_congr fun kv _ _ => eq_comm

theorem lookup_settingFromConfig (root : Elem) (path : List String) {keys : List String}
    {k : String} (hk : k ∈ keys) :
    (settingFromConfig root path keys).lookup k = some (textAt root (path ++ splitDots k)) := by
  have hfold : ∀ (d : List (String × String)),
      (k ∈ keys ∨ d.lookup k = some (textAt root (path ++ splitDots k))) →
      (keys.foldl (fun out key => putEntry out key (textAt root (path ++ splitDots key)))
        d).lookup k = some (textAt root (path ++ splitDots k)) := by
    clear hk
    induction keys with
    | nil =>
      rintro d (hk | hk)
      · cases hk
      · exact hk
    | cons k' keys ih =>
      intro d hd
      refine ih _ ?_
      rw [lookup_putEntry]
      split_ifs with hkk
      · exact .inr (by rw [hkk])
      · exact hd.imp_left fun hk => (List.mem_cons.mp hk).resolve_left hkk
  exact hfold [] (.inl hk)

theorem targetOr_str {key : String} (h : ∃ k, Dict.getD c.payload key .null = .str k) :
    ∃ s, targetOr c key = .str s := by
  obtain ⟨k, hk⟩ := h
  rw [targetOr]
  -- without a target the name is in the payload
  split_ifs
  · refine ⟨k, ?_⟩
    rw [Dict.getD] at hk ⊢
    cases hget : Dict.get? c.payload key with
    | none =>
      rw [hget] at hk
      cases hk
    | some v =>
      rw [hget] at hk
      exact hk
  · exact ⟨c.target, rfl⟩

theorem setting_apart {ep : SettingEndpoint} (h : ep ∈ settingEndpoints) (q : List String) :
    ¬ aliasModel <+: ep.xmlPath ++ q := by
  obtain rfl := List.mem_singleton.mp h
  simp [aliasModel, List.cons_prefix_cons]

theorem checkOpnsenseSetting_spec (hparse : env.parseXml live.configXml = some root)
    (hroot : ShowsConfig root r) (hkey : ∃ key, settingKey c.payload = .str key)
    (hitems : ∃ flat, (Dict.getD c.payload "payload" (.obj [])).items = .ok flat) :
    ∃ st fs, checkOpnsenseSetting env c live = .ok (st, fs) ∧
      (¬ st.Alarming ↔ Agrees r (describedSetting c)) := by
  obtain ⟨flat, hflat⟩ := hitems
  obtain ⟨s, hs⟩ := targetOr_str hkey
  have hep : settingEndpoint (.str s) = .ok (settingEndpoints.find? fun ep => ep.key == s) := rfl
  cases hfind : settingEndpoints.find? fun ep => ep.key == s with
  | none =>
    rw [hfind] at hep
    refine ⟨.unsupported, [], ?_, ?_⟩
    · rw [checkOpnsenseSetting, hs, hep]
      rfl
    · rw [describedSetting, hs, hep]
      simp [DriftStatus.Alarming, Agrees]
  | some ep =>
    rw [hfind] at hep
    let drifted :=
      driftedKeys (fun _ => true) flat (settingFromConfig root ep.xmlPath (Dict.keys flat))
    refine ⟨(verdict drifted).1, (verdict drifted).2, ?_, ?_⟩
    · simp only [checkOpnsenseSetting, hs, hep, hflat, parseConfig, hparse]
      rfl
    · rw [verdict_alarming, not_not, driftedKeys_eq_nil, describedSetting, hs, hep, hflat]
      simp only [Agrees, List.forall_mem_map]
      refine forall₂_congr fun kv hkv => ?_
      have hkey : kv.1 ∈ Dict.keys flat := List.mem_map_of_mem hkv
      rw [lookup_settingFromConfig root ep.xmlPath hkey,
        ← hroot.setting _ (setting_apart (List.mem_of_find?_eq_some hfind) _)]
      exact forall_const True

theorem checkAlias_eq (hparse : env.parseXml live.configXml = some root) :
    checkAlias env c live =
      if c.operation = "delete" then
        .ok (if (aliasFromConfig root (targetOr c "name")).isSome then .drifted else .inSync, [])
      else
        match aliasFromConfig root (targetOr c "name") with
        | none => .ok (.missing, [])
        | some cur => .ok (verdict (driftedKeys (fun k => decide (k ≠ "name")) c.payload cur)) := by
  rw [checkAlias, parseConfig, hparse]
  rfl

theorem checkAlias_spec (hparse : env.parseXml live.configXml = some root)
    (hroot : ShowsConfig root r) :
    ∃ st fs, checkAlias env c live = .ok (st, fs) ∧
      (¬ st.Alarming ↔ Agrees r (describedAlias c)) := by
  obtain ⟨hnamed, hfields⟩ := aliasFromConfig_spec hroot (targetOr c "name")
  by_cases hdel : c.operation = "delete"
  · refine ⟨if (aliasFromConfig root (targetOr c "name")).isSome then .drifted else .inSync, [], ?_,
      ?_⟩
    · rw [checkAlias_eq hparse, if_pos hdel]
    · simp only [describedAlias, if_pos hdel, Agrees, List.forall_mem_singleton, hnamed]
      cases (aliasFromConfig root (targetOr c "name")).isSome <;>
        simp [DriftStatus.Alarming, flag]
  · cases hcur : aliasFromConfig root (targetOr c "name") with
    | none =>
      refine ⟨.missing, [], ?_, ?_⟩
      · rw [checkAlias_eq hparse, if_neg hdel, hcur]
      · rw [hcur] at hnamed
        simp [describedAlias, if_neg hdel, Agrees, hnamed, DriftStatus.Alarming, flag]
    | some cur =>
      let drifted := driftedKeys (fun k => decide (k ≠ "name")) c.payload cur
      refine ⟨(verdict drifted).1, (verdict drifted).2, ?_, ?_⟩
      · rw [checkAlias_eq hparse, if_neg hdel, hcur]
      · rw [hcur] at hnamed
        rw [verdict_alarming, not_not, driftedKeys_eq_nil, describedAlias, if_neg hdel]
        simp only [Agrees, List.forall_mem_cons, List.forall_mem_map, List.mem_filter, and_imp]
        rw [and_iff_right (show r (.aliasNamed (targetOr c "name")) = "1" from hnamed)]
        refine forall₃_congr fun kv _ _ => ?_
        rw [hfields cur hcur]

/-- The rulesets of an answer, as they are read: the last one first. -/
theorem rulesetRows_answer (rows : List (String × Bool)) (acc : List (Json × Bool)) :
    rulesetRows (rows.map fun fe =>
        .obj [("filename", .str fe.1), ("enabled", .str (if fe.2 then "1" else "0"))]) acc =
      .ok (((rows.filter fun fe => fe.1 != "").reverse.map fun fe => (.str fe.1, fe.2)) ++
        acc) := by
  induction rows generalizing acc with
  | nil => rfl
  | cons fe rows ih =>
    obtain ⟨f, on⟩ := fe
    have hon : ["1", "true", "yes"].contains (Json.lower (if on then "1" else "0")) = on := by
      cases on <;> decide
    rw [List.map_cons, rulesetRows]
    by_cases hf : f = ""
    · -- a row without a name is passed over
      subst hf
      exact ih acc
    · have hne : (f != "") = true := bne_iff_ne.mpr hf
      have hname : Json.attrGet (.obj [("filename", .str f),
          ("enabled", .str (if on then "1" else "0"))]) "filename" .null = .ok (.str f) := rfl
      simp only [hname, List.filter_cons, hne, if_true, List.reverse_cons, List.map_append,
        List.append_assoc]
      show (if (f != "") = true then rulesetRows _ ((.str f,
        ["1", "true", "yes"].contains (Json.lower (if on then "1" else "0"))) :: acc) else _) = _
      rw [if_pos hne, hon, ih]
      rfl

theorem rulesetLive_answer {rows : List (String × Bool)} (hrows : (rows.map (·.1)).Nodup)
    {f : String} (hf : f ≠ "") :
    rulesetLive ((rows.filter fun fe => fe.1 != "").reverse.map fun fe => (.str fe.1, fe.2))
      (.str f) = .ok ((rows.lookup f).getD false) := by
  refine congrArg Except.ok (congrArg (Option.getD · false) ?_)
  cases hfind : ((rows.filter fun fe => fe.1 != "").reverse.map fun fe =>
      ((.str fe.1 : Json), fe.2)).find? fun kv => kv.1.pyEq (.str f) with
  | none =>
    cases hlook : rows.lookup f with
    | none => rfl
    | some on =>
      refine absurd ?_ (List.find?_eq_none.mp hfind (.str f, on) ?_)
      · simp
      · refine List.mem_map.mpr ⟨(f, on), ?_, rfl⟩
        rw [List.mem_reverse, List.mem_filter]
        exact ⟨(mem_iff_lookup hrows).mpr hlook, bne_iff_ne.mpr hf⟩
  | some kv =>
    obtain ⟨fe, hfe, rfl⟩ := List.mem_map.mp (List.mem_of_find?_eq_some hfind)
    rw [List.mem_reverse, List.mem_filter] at hfe
    have hname : fe.1 = f := by simpa using List.find?_some hfind
    exact ((mem_iff_lookup hrows).mp (hname ▸ hfe.1)).symm

theorem checkIdsRulesets_spec {on : String → Bool} {names : List String}
    (hnames : Dict.getD c.payload "rulesets" (.arr []) = .arr (names.map Json.str))
    (hlive : ∀ f ∈ names, rulesetLive live.rulesetEnabled (.str f) = .ok (on f))
    (hshow : ∀ f, r (.ruleset f) = flag (on f)) :
    ∃ st fs, checkIdsRulesets c live = .ok (st, fs) ∧
      (¬ st.Alarming ↔ Agrees r (describedRulesets c)) := by
  let drifted := (names.filter fun f => !on f).map Json.str
  have hdrifted : driftedRulesets live.rulesetEnabled (names.map Json.str) = .ok drifted := by
    clear hnames
    induction names with
    | nil => rfl
    | cons f names ih =>
      obtain ⟨hf, hrest⟩ := List.forall_mem_cons.mp hlive
      show _ = Except.ok (((f :: names).filter fun f => !on f).map Json.str)
      rw [List.map_cons, driftedRulesets, hf, ih hrest, List.filter_cons]
      cases on f <;> rfl
  refine ⟨(verdict drifted).1, (verdict drifted).2, ?_, ?_⟩
  · rw [checkIdsRulesets, hnames]
    show (driftedRulesets live.rulesetEnabled (names.map Json.str)).mapError Raised.builtin >>=
      (fun drifted => Except.ok (verdict drifted)) = _
    rw [hdrifted]
    rfl
  · have hfiles : filenames (.arr (names.map Json.str)) = names := by
      simp [filenames, List.filterMap_map]
    rw [verdict_alarming, not_not, describedRulesets, hnames, hfiles]
    simp only [drifted, List.map_eq_nil_iff, List.filter_eq_nil_iff, Agrees, List.forall_mem_map,
      hshow]
    refine forall₂_congr fun f _ => ?_
    cases on f <;> simp [flag]

/-- A change whose payload its applier takes. -/
structure Formed (c : Change) : Prop where
  setting : c.kind = "opnsense_setting" → (∃ key, settingKey c.payload = .str key) ∧
    ∃ flat, (Dict.getD c.payload "payload" (.obj [])).items = .ok flat
  rulesets : c.kind = "ids_rulesets" → ∃ names : List String,
    Dict.getD c.payload "rulesets" (.arr []) = .arr (names.map Json.str) ∧ ∀ f ∈ names, f ≠ ""

/-- The live state as the checkers need it for a change: the rulesets are there if the change
is about them. -/
structure LiveFor (env : Env) (live : LiveState) (r : Place → String) (kind : String) : Prop where
  config : ∃ root, env.parseXml live.configXml = some root ∧ ShowsConfig root r
  rulesets : kind = "ids_rulesets" → ∃ on : String → Bool, (∀ f, r (.ruleset f) = flag (on f)) ∧
    ∀ f ≠ "", rulesetLive live.rulesetEnabled (.str f) = .ok (on f)

/-- **The result of a change is `drifted` or `missing` exactly where the configuration reads
otherwise than the change describes.** -/
theorem driftResult_spec {c : ConfigChange} (hc : Formed c.toChange)
    (hlive : LiveFor env live r c.kind) :
    ∃ res, driftResult env live c = .ok res ∧
      (¬ res.status.Alarming ↔ Agrees r (described c.toChange)) := by
  obtain ⟨root, hparse, hroot⟩ := hlive.config
  have hresult : ∀ {st fs} {checker : Change → LiveState → Except Raised (DriftStatus × List Json)},
      (driftCheckers env).lookup c.kind = some checker →
      checker c.toChange live = .ok (st, fs) →
        driftResult env live c = .ok ⟨c.id, c.kind, c.target, st, fs⟩ := by
    intro st fs checker hlook hcheck
    rw [driftResult, hlook]
    simp only [hcheck]
    rfl
  by_cases hset : c.kind = "opnsense_setting"
  · obtain ⟨st, fs, hcheck, hspec⟩ :=
      checkOpnsenseSetting_spec hparse hroot (hc.setting hset).1 (hc.setting hset).2
    refine ⟨_, hresult (by rw [hset]; rfl) hcheck, ?_⟩
    rw [described, if_pos hset]
    exact hspec
  · by_cases halias : c.kind = "alias"
    · obtain ⟨st, fs, hcheck, hspec⟩ := checkAlias_spec (c := c.toChange) hparse hroot
      refine ⟨_, hresult (by rw [halias]; rfl) hcheck, ?_⟩
      rw [described, if_neg hset, if_pos halias]
      exact hspec
    · by_cases hids : c.kind = "ids_rulesets"
      · obtain ⟨names, hnames, hne⟩ := hc.rulesets hids
        obtain ⟨on, hon, hread⟩ := hlive.rulesets hids
        obtain ⟨st, fs, hcheck, hspec⟩ :=
          checkIdsRulesets_spec hnames (fun f hf => hread f (hne f hf)) hon
        refine ⟨_, hresult (by rw [hids]; rfl) hcheck, ?_⟩
        rw [described, if_neg hset, if_neg halias, if_pos hids]
        exact hspec
      · have hnone : (driftCheckers env).lookup c.kind = none := by
          simp [driftCheckers, List.lookup_cons, beq_false_of_ne hset, beq_false_of_ne halias,
            beq_false_of_ne hids]
        refine ⟨⟨c.id, c.kind, c.target, .unsupported, []⟩, ?_, ?_⟩
        · rw [driftResult, hnone]
          rfl
        · rw [described, if_neg hset, if_neg halias, if_neg hids]
          simp [DriftStatus.Alarming, Agrees]

end Checkers

/-! ### The change of each kind and target that is looked at -/

/-- Applied, from a template, and the first of its kind and target in the list: created last. -/
def Newest (changes : List ConfigChange) (c : ConfigChange) : Prop :=
  ∃ newer older, changes = newer ++ c :: older ∧ selectable c = true ∧
    ∀ c' ∈ newer, selectable c' = true → driftKey c' ≠ driftKey c

theorem newest_cons {changes : List ConfigChange} {c d : ConfigChange} :
    Newest (d :: changes) c ↔ (d = c ∧ selectable c = true) ∨
      (Newest changes c ∧ (selectable d = true → driftKey d ≠ driftKey c)) := by
  constructor
  · rintro ⟨newer, older, heq, hc, hnewer⟩
    cases newer with
    | nil => exact .inl ⟨(List.cons.inj heq).1, hc⟩
    | cons d' newer =>
      obtain ⟨rfl, rfl⟩ := List.cons.inj heq
      obtain ⟨hd, hnewer⟩ := List.forall_mem_cons.mp hnewer
      exact .inr ⟨⟨newer, older, rfl, hc, hnewer⟩, hd⟩
  · rintro (⟨rfl, hc⟩ | ⟨⟨newer, older, rfl, hc, hnewer⟩, hd⟩)
    · exact ⟨[], changes, rfl, hc, nofun⟩
    · exact ⟨d :: newer, older, rfl, hc, List.forall_mem_cons.mpr ⟨hd, hnewer⟩⟩

theorem mem_latestUnseen {seen : List (String × String)} {changes : List ConfigChange}
    {c : ConfigChange} :
    c ∈ latestUnseen seen changes ↔ Newest changes c ∧ driftKey c ∉ seen := by
  -- the keys of the newer changes are among those seen
  induction changes generalizing seen with
  | nil =>
    refine iff_of_false List.not_mem_nil ?_
    rintro ⟨⟨newer, older, h, -⟩, -⟩
    simp at h
  | cons d changes ih =>
    rw [latestUnseen, newest_cons]
    by_cases hd : selectable d = true
    · by_cases hseen : driftKey d ∈ seen
      · rw [if_neg (by simp [hd]), if_pos hseen, ih]
        constructor
        · rintro ⟨hc, hnot⟩
          exact ⟨.inr ⟨hc, fun _ h => hnot (h ▸ hseen)⟩, hnot⟩
        · rintro ⟨⟨rfl, -⟩ | ⟨hc, -⟩, hnot⟩
          · exact absurd hseen hnot
          · exact ⟨hc, hnot⟩
      · rw [if_neg (by simp [hd]), if_neg hseen, List.mem_cons, ih, List.mem_cons, not_or]
        constructor
        · rintro (rfl | ⟨hc, hne, hnot⟩)
          · exact ⟨.inl ⟨rfl, hd⟩, hseen⟩
          · exact ⟨.inr ⟨hc, fun _ h => hne h.symm⟩, hnot⟩
        · rintro ⟨⟨rfl, -⟩ | ⟨hc, hne⟩, hnot⟩
          · exact .inl rfl
          · exact .inr ⟨hc, fun h => hne hd h.symm, hnot⟩
    · rw [if_pos (by simp [hd]), ih]
      constructor
      · rintro ⟨hc, hnot⟩
        exact ⟨.inr ⟨hc, fun h => absurd h hd⟩, hnot⟩
      · rintro ⟨⟨rfl, h⟩ | ⟨hc, -⟩, hnot⟩
        · exact absurd h hd
        · exact ⟨hc, hnot⟩

theorem mem_latestPerTarget {changes : List ConfigChange} {c : ConfigChange} :
    c ∈ latestPerTarget changes ↔ Newest changes c :=
  mem_latestUnseen.trans (and_iff_left List.not_mem_nil)

/-! ### The drift check -/

/-- What `config_drift_check` does with the two answers of the device. -/
def driftCheck (env : Env) (changes : List ConfigChange) (configXml : String) (rulesets : Json) :
    Except Raised (List DriftResult) := do
  let live ← (gatherLiveState configXml rulesets changes).mapError Raised.builtin
  computeDrift env changes live

section Report

variable {env : Env} {changes : List ConfigChange} {configXml : String} {rulesets : Json}
  {r : Place → String}

theorem gatherLiveState_spec (changes : List ConfigChange)
    (hshows : Shows env configXml rulesets r) :
    ∃ live, gatherLiveState configXml rulesets changes = .ok live ∧
      ∀ c, Newest changes c → LiveFor env live r c.kind := by
  obtain ⟨rows, rfl, hnodup, hrows⟩ := hshows.rulesets
  cases hneeds : needsRulesets changes with
  | false =>
    -- the rulesets are not fetched, and no ruleset change is looked at
    refine ⟨⟨configXml, []⟩, by rw [gatherLiveState, hneeds]; rfl, fun c hc => ⟨hshows.config, ?_⟩⟩
    obtain ⟨newer, older, rfl, hsel, -⟩ := hc
    intro hids
    have hnot := List.any_eq_false.mp hneeds c (List.mem_append_right _ List.mem_cons_self)
    simp [hsel, hids] at hnot
  | true =>
    have hgather : gatherLiveState configXml (rulesetAnswer rows) changes = .ok ⟨configXml,
        (rows.filter fun fe => fe.1 != "").reverse.map fun fe => (.str fe.1, fe.2)⟩ := by
      rw [gatherLiveState, hneeds]
      show (rulesetRows _ [] >>= fun enabled => Except.ok (LiveState.mk configXml enabled)) = _
      rw [rulesetRows_answer, List.append_nil]
      rfl
    exact ⟨_, hgather, fun c _ => ⟨hshows.config, fun _ =>
      ⟨fun f => (rows.lookup f).getD false, hrows, fun f hf => rulesetLive_answer hnodup hf⟩⟩⟩

/-- **The drift check succeeds, and reports nothing exactly where the configuration reads as the
changes that are looked at describe.** -/
theorem driftCheck_spec (hformed : ∀ c, Newest changes c → Formed c.toChange)
    (hshows : Shows env configXml rulesets r) :
    ∃ rs, driftCheck env changes configXml rulesets = .ok rs ∧
      ((∀ res ∈ rs, ¬ res.status.Alarming) ↔
        ∀ c, Newest changes c → Agrees r (described c.toChange)) := by
  obtain ⟨live, hgather, hlive⟩ := gatherLiveState_spec changes hshows
  have hall : ∀ cs : List ConfigChange, (∀ c ∈ cs, Newest changes c) →
      ∃ rs, driftResults env live cs = .ok rs ∧
        ((∀ res ∈ rs, ¬ res.status.Alarming) ↔ ∀ c ∈ cs, Agrees r (described c.toChange)) := by
    intro cs hcs
    induction cs with
    | nil => exact ⟨[], rfl, by simp⟩
    | cons c cs ih =>
      obtain ⟨hc, hcs⟩ := List.forall_mem_cons.mp hcs
      obtain ⟨res, hres, hone⟩ := driftResult_spec (hformed c hc) (hlive c hc)
      obtain ⟨rs, hrs, hrest⟩ := ih hcs
      refine ⟨res :: rs, ?_, ?_⟩
      · rw [driftResults, hres, hrs]
        rfl
      · rw [List.forall_mem_cons, List.forall_mem_cons, hone, hrest]
  obtain ⟨rs, hrs, hspec⟩ := hall (latestPerTarget changes) fun c => mem_latestPerTarget.mp
  refine ⟨rs, ?_, hspec.trans (forall_congr' fun c => by rw [mem_latestPerTarget])⟩
  rw [driftCheck, hgather]
  exact hrs

end Report

end ConfigDrift

end Opngms
