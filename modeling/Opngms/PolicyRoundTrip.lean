/-
Opngms/PolicyRoundTrip.lean

From a policy body to its record and back (`_serialize_policy` in
`app/connectors/opnsense/client.py`, `_invert_ids_policy` in `app/services/config_revert.py`).

A record joins the actions, the uuids of the rulesets and the tokens `key.value` of the
metadata filters by commas; the inverse cuts the fields at every comma.  Actions and uuids
have no comma.  A value of a filter may have one, and what stands after it is a piece of its
own: with a dot it is read as a token, without a dot it is dropped.

`StoredPolicy` is a policy whose record stands in a snapshot.  Main result:
**`roundTrips_iff`**, by which the body that is rebuilt from the snapshot becomes the same
record again exactly if every piece after a comma in a value has a dot (`Dotted`).
-/
import Opngms.GridScript
import Opngms.PolicyBodies

namespace Opngms

open Dialogue

/-! ### Filters read back -/

theorem takeWhile_dot_drop {cs : List Char} (h : '.' ∈ cs) :
    cs.takeWhile (· != '.') ++ '.' :: (cs.dropWhile (· != '.')).drop 1 = cs := by
  induction cs with
  | nil => cases h
  | cons c cs ih =>
    by_cases hc : c = '.'
    · subst hc
      rfl
    · have hne : (c != '.') = true := by simpa using hc
      rw [List.takeWhile_cons, List.dropWhile_cons, if_pos hne, if_pos hne, List.cons_append,
        ih ((List.mem_cons.mp h).resolve_left (Ne.symm hc))]

theorem partitionDot_eq_some {tok k v : String} (h : partitionDot tok = some (k, v)) :
    tok = k ++ "." ++ v := by
  rw [partitionDot] at h
  split at h
  · rename_i hdot
    obtain ⟨rfl, rfl⟩ := Prod.mk.inj (Option.some.inj h)
    have hdot' : ".".toList = ['.'] := rfl
    rw [← String.toList_inj, String.toList_append, String.toList_append, hdot',
      String.toList_ofList, String.toList_ofList, List.append_assoc]
    exact (takeWhile_dot_drop hdot).symm
  · cases h

theorem partitionDot_eq_none {tok : String} : partitionDot tok = none ↔ '.' ∉ tok.toList := by
  rw [partitionDot]
  split <;> simp [*]

theorem mem_filterTokens_cons {k t : String} {vs : List String}
    {content : List (String × List String)} :
    t ∈ filterTokens ((k, vs) :: content) ↔
      (∃ v ∈ vs, k ++ "." ++ v = t) ∨ t ∈ filterTokens content := by
  rw [filterTokens, List.flatMap_cons, List.mem_append, List.mem_map]
  rfl

theorem mem_filterTokens_append {content : List (String × List String)} {k v t : String} :
    t ∈ filterTokens (appendContent content k v) ↔
      t ∈ filterTokens content ∨ t = k ++ "." ++ v := by
  induction content with
  | nil =>
    rw [appendContent, mem_filterTokens_cons]
    simp [filterTokens, eq_comm]
  | cons kv content ih =>
    obtain ⟨k', vs⟩ := kv
    rw [appendContent]
    split
    · rename_i hk
      subst hk
      simp only [mem_filterTokens_cons, List.mem_append, List.mem_singleton, or_and_right, exists_or,
        exists_eq_left]
      rw [or_assoc, or_assoc, or_comm (a := k' ++ "." ++ v = t), eq_comm (a := t)]
    · rw [mem_filterTokens_cons, ih, mem_filterTokens_cons, or_assoc]

theorem mem_contentFromTokens {toks : List String} {t : String} :
    t ∈ filterTokens (contentFromTokens toks) ↔ t ∈ toks ∧ '.' ∈ t.toList := by
  have hloop : ∀ content, t ∈ filterTokens (toks.foldl (fun d tok =>
      (partitionDot tok).elim d fun kv => appendContent d kv.1 kv.2) content) ↔ t ∈ filterTokens content ∨ t ∈ toks ∧ '.' ∈ t.toList := by
    induction toks with
    | nil => simp
    | cons tok toks ih =>
      intro content
      rw [List.foldl_cons, ih, List.mem_cons, or_and_right, ← or_assoc]
      refine or_congr_left ?_
      cases hp : partitionDot tok with
      | none =>
        have hdot : '.' ∉ tok.toList := partitionDot_eq_none.1 hp
        have hnot : ¬(t = tok ∧ '.' ∈ t.toList) := by
          rintro ⟨rfl, h⟩
          exact hdot h
        exact (or_iff_left hnot).symm
      | some kv =>
        obtain ⟨k, v⟩ := kv
        have htok : tok = k ++ "." ++ v := partitionDot_eq_some hp
        have hdot : '.' ∈ tok.toList := by
          by_contra hnot
          rw [partitionDot_eq_none.2 hnot] at hp
          cases hp
        show t ∈ filterTokens (appendContent content k v) ↔ _
        rw [mem_filterTokens_append, ← htok]
        refine or_congr_right ⟨?_, And.left⟩
        rintro rfl
        exact ⟨rfl, hdot⟩
  refine Iff.trans (iff_of_eq ?_) ((hloop []).trans (or_iff_right List.not_mem_nil))
  apply congrArg fun f => t ∈ filterTokens (toks.foldl f [])
  funext d tok
  cases partitionDot tok <;> rfl

/-! ### Values with commas -/

/-- Metadata filters in whose values every piece after a comma has a dot. -/
def Dotted (content : List (String × List String)) : Prop :=
  ∀ kv ∈ content, ∀ v ∈ kv.2, ∀ piece ∈ (splitCommas v).tail, '.' ∈ piece.toList

instance (content : List (String × List String)) : Decidable (Dotted content) :=
  inferInstanceAs (Decidable (∀ kv ∈ content, ∀ v ∈ kv.2, ∀ piece ∈ (splitCommas v).tail, _))

theorem splitCommas_token {k v : String} (hk : ',' ∉ k.toList) :
    ∃ piece, '.' ∈ piece.toList ∧ splitCommas (k ++ "." ++ v) = piece :: (splitCommas v).tail := by
  have hdot : ".".toList = ['.'] := rfl
  have hstart : ',' ∉ (k ++ ".").toList := by
    rw [String.toList_append, hdot]
    simpa using hk
  obtain ⟨first, rest, hv⟩ := List.exists_cons_of_ne_nil (splitCommas_ne_nil v)
  refine ⟨k ++ "." ++ first, ?_, ?_⟩
  · rw [String.toList_append, String.toList_append, hdot]
    simp
  · rw [splitCommas_append hstart, hv]
    rfl

variable {content : List (String × List String)}

theorem mem_filterTokens {t : String} :
    t ∈ filterTokens content ↔ ∃ kv ∈ content, ∃ v ∈ kv.2, kv.1 ++ "." ++ v = t := by
  simp only [filterTokens, List.mem_flatMap, List.mem_map]

theorem dotted_iff (hkeys : ∀ kv ∈ content, ',' ∉ kv.1.toList) :
    Dotted content ↔ ∀ t ∈ filterTokens content, ∀ piece ∈ splitCommas t, '.' ∈ piece.toList := by
  constructor
  · intro h t ht piece hpiece
    obtain ⟨kv, hkv, v, hv, rfl⟩ := mem_filterTokens.1 ht
    obtain ⟨first, hfirst, hsplit⟩ := splitCommas_token (v := v) (hkeys kv hkv)
    rw [hsplit] at hpiece
    rcases List.mem_cons.mp hpiece with rfl | hrest
    · exact hfirst
    · exact h kv hkv v hv piece hrest
  · intro h kv hkv v hv piece hpiece
    obtain ⟨first, -, hsplit⟩ := splitCommas_token (v := v) (hkeys kv hkv)
    refine h _ (mem_filterTokens.2 ⟨kv, hkv, v, hv, rfl⟩) piece ?_
    rw [hsplit]
    exact List.mem_cons_of_mem _ hpiece

def joinedTokens (content : List (String × List String)) : String :=
  ",".intercalate (filterTokens content)

/-- **Filters that are read back have the same tokens exactly if they are dotted.** -/
theorem sameTokens_iff (hkeys : ∀ kv ∈ content, ',' ∉ kv.1.toList) :
    (∀ t, t ∈ splitCommas (joinedTokens content) ↔
      t ∈ splitCommas (joinedTokens (contentFromTokens (splitCommas (joinedTokens content))))) ↔
        Dotted content := by
  rw [dotted_iff hkeys]
  cases hnil : filterTokens content with
  | nil =>
    -- nothing is joined, and nothing is read back
    have hempty : joinedTokens content = "" := by rw [joinedTokens, hnil]; rfl
    rw [hempty]
    exact iff_of_true (fun t => Iff.rfl) nofun
  | cons tok toks =>
    rw [← hnil]
    have hpieces : splitCommas (joinedTokens content) = (filterTokens content).flatMap splitCommas :=
      splitCommas_intercalate (by simp [hnil])
    have hback : ∀ t, t ∈ filterTokens (contentFromTokens (splitCommas (joinedTokens content))) ↔
        t ∈ splitCommas (joinedTokens content) ∧ '.' ∈ t.toList := fun t => mem_contentFromTokens
    -- the first piece has a dot, so something is read back
    obtain ⟨first, hfirst, hdot⟩ : ∃ first ∈ splitCommas (joinedTokens content), '.' ∈ first.toList := by
      have htok : tok ∈ filterTokens content := by rw [hnil]; exact List.mem_cons_self
      obtain ⟨kv, hkv, v, -, heq⟩ := mem_filterTokens.1 htok
      obtain ⟨first, hdot, hsplit⟩ := splitCommas_token (v := v) (hkeys kv hkv)
      refine ⟨first, ?_, hdot⟩
      rw [hpieces]
      refine List.mem_flatMap.mpr ⟨tok, htok, ?_⟩
      rw [← heq, hsplit]
      exact List.mem_cons_self
    have hjoined : splitCommas (joinedTokens (contentFromTokens
        (splitCommas (joinedTokens content)))) =
        filterTokens (contentFromTokens (splitCommas (joinedTokens content))) := by
      refine splitCommas_joined (fun p hp => ?_) (List.ne_nil_of_mem ((hback first).2 ⟨hfirst, hdot⟩))
      exact not_mem_of_mem_splitCommas ((hback p).1 hp).1
    rw [hjoined]
    simp only [hback, iff_self_and]
    rw [hpieces]
    simp only [List.mem_flatMap]
    constructor
    · exact fun h t ht piece hpiece => h piece ⟨t, ht, hpiece⟩
    · rintro h piece ⟨t, ht, hpiece⟩
      exact h t ht piece hpiece

/-! ### Stored policies -/

/-- A policy that passes its check, stored as its record in a snapshot. -/
structure StoredPolicy (A : Appliance) (env : Env) where
  body : Dict
  accepted : validateIdsPolicy body = .ok ()
  /-- The ruleset files of the box have distinct names. -/
  distinct : (A.files.map (·.2)).Nodup
  enabled : ∀ n ∈ policyRulesets body, ∃ u, (u, n) ∈ A.files ∧ safeName u = true
  /-- The change of the policy that is inverted. -/
  change : Change
  operation : change.operation ≠ "add"
  target : targetOr change "description" = .str (recordDescription body)
  xml : String
  saved : xml ≠ ""
  root : Elem
  parsed : env.parseXml xml = some root
  /-- The files table of the snapshot. -/
  files : ∀ f ∈ A.files, (idsFilesMap root).lookup f.1 = some f.2
  record : List (String × String)
  found : recordFromConfig root idsPolicyPath
    [("description", .str (recordDescription body))] = some record
  stored : ∀ policy, A.serialized body = some policy →
    ∀ k s, Dict.get? policy k = some (.str s) → record.lookup k = some s

/-- Two records are the same up to the order and repetition of comma-separated tokens. -/
structure SameRecord (policy policy' : Dict) : Prop where
  fields : ∀ k ∉ ["action", "rulesets", "content"], Dict.get? policy k = Dict.get? policy' k
  tokens : ∀ k ∈ ["action", "rulesets", "content"], ∃ s s', Dict.get? policy k = some (.str s) ∧
    Dict.get? policy' k = some (.str s') ∧ ∀ t, t ∈ splitCommas s ↔ t ∈ splitCommas s'

namespace StoredPolicy

variable {A : Appliance} {env : Env} (P : StoredPolicy A env)

/-- The body that is rebuilt from the snapshot becomes the same record again. -/
def RoundTrips : Prop :=
  ∃ policy body' policy', A.serialized P.body = some policy ∧
    invertIdsPolicy env P.change (some P.xml) =
      .ok ("set", .str (recordDescription P.body), body') ∧
    A.serialized body' = some policy' ∧ SameRecord policy policy'

def uuids : List String := (policyRulesets P.body).map fun n => (A.rulesetFile n).getD ""

end StoredPolicy

theorem sameRecord_iff {body : Dict} {actions uuids tokens tokens' : List String} :
    SameRecord (policyRecord body actions uuids tokens) (policyRecord body actions uuids tokens') ↔
      ∀ t, t ∈ splitCommas (",".intercalate tokens) ↔ t ∈ splitCommas (",".intercalate tokens') := by
  constructor
  · intro h
    obtain ⟨s, s', hs, hs', htokens⟩ := h.tokens "content" (by simp)
    obtain rfl : ",".intercalate tokens = s := Json.str.inj (Option.some.inj hs)
    obtain rfl : ",".intercalate tokens' = s' := Json.str.inj (Option.some.inj hs')
    exact htokens
  · intro h
    constructor
    · intro k hk
      have hcontent : "content" ≠ k := by
        rintro rfl
        exact hk (by simp)
      simp only [policyRecord, Dict.get?_cons, if_neg hcontent]
    · simp only [List.mem_cons, List.not_mem_nil, or_false]
      rintro k (rfl | rfl | rfl)
      · exact ⟨_, _, rfl, rfl, fun _ => Iff.rfl⟩
      · exact ⟨_, _, rfl, rfl, fun _ => Iff.rfl⟩
      · exact ⟨_, _, rfl, rfl, h⟩

theorem rulesetFilenames_uuids {files : List (String × String)} {names uuids : List String}
    (h : List.Forall₂ (fun n u => safeName u = true ∧ files.lookup u = some n) names uuids) :
    rulesetFilenames files uuids = .ok names := by
  induction h with
  | nil => rfl
  | cons hone _ ih =>
    obtain ⟨hsafe, hfile⟩ := hone
    rw [rulesetFilenames, if_neg (ne_empty_of_safeName hsafe), hfile, ih]
    rfl

namespace StoredPolicy

variable {A : Appliance} {env : Env} (P : StoredPolicy A env)

theorem resolved_of_mem {n : String} (hn : n ∈ policyRulesets P.body) :
    ∃ u, A.rulesetFile n = some u ∧ safeName u = true ∧
      (idsFilesMap P.root).lookup u = some n := by
  obtain ⟨u, hmem, hu⟩ := P.enabled n hn
  have hname : n ≠ "" := ne_empty_of_safeName ((validPolicy P.accepted).rulesets n hn)
  exact ⟨u, rulesetFile_of_mem P.distinct hmem hname hu, hu, P.files _ hmem⟩

theorem resolved : List.Forall₂ (fun n u => A.rulesetFile n = some u ∧ safeName u = true ∧
    (idsFilesMap P.root).lookup u = some n) (policyRulesets P.body) P.uuids := by
  rw [uuids, List.forall₂_map_right_iff, List.forall₂_same]
  intro n hn
  obtain ⟨u, hu, hsafe, hfile⟩ := P.resolved_of_mem hn
  rw [hu]
  exact ⟨rfl, hsafe, hfile⟩

theorem uuids_safe : ∀ u ∈ P.uuids, safeName u = true := by
  intro u hu
  obtain ⟨n, hn, rfl⟩ := List.mem_map.mp hu
  obtain ⟨u, hu, hsafe, -⟩ := P.resolved_of_mem hn
  rw [hu]
  exact hsafe

def policy : Dict :=
  policyRecord P.body (policyActions P.body) P.uuids (filterTokens (policyContent P.body))

theorem serialized : A.serialized P.body = some P.policy :=
  serialized_of_lists (validPolicy P.accepted).lists (validPolicy P.accepted).rulesets
    (P.resolved.imp fun _ _ h => h.1)

/-- A field of the record, as it is read from the snapshot. -/
theorem recordField_stored {k s : String} (default : String)
    (h : Dict.get? P.policy k = some (.str s)) : recordField P.record k default = s := by
  rw [recordField, P.stored _ P.serialized k s h]
  rfl

def rebuilt : Dict :=
  policyBody (.str (recordDescription P.body)) P.record (policyRulesets P.body)

theorem filenames : rulesetFilenames (idsFilesMap P.root)
    (splitCommas (recordField P.record "rulesets" "")) = .ok (policyRulesets P.body) := by
  have hfiles := P.resolved.imp fun _ _ h => h.2
  have hplain : ∀ u ∈ P.uuids, ',' ∉ u.toList := fun u hu =>
    not_mem_comma_of_safeName (P.uuids_safe u hu)
  rw [P.recordField_stored (s := ",".intercalate P.uuids) "" rfl]
  cases hnil : P.uuids with
  | nil =>
    rw [hnil, List.forall₂_nil_right_iff] at hfiles
    rw [hfiles]
    rfl
  | cons u us =>
    rw [← hnil, splitCommas_joined hplain (by simp [hnil])]
    exact rulesetFilenames_uuids hfiles

theorem inverted : invertIdsPolicy env P.change (some P.xml) =
    .ok ("set", .str (recordDescription P.body), P.rebuilt) := by
  have hxml : needSnapshot (some P.xml) "ids policy" = .ok P.xml := if_neg P.saved
  have hroot : parseConfig env P.xml = .ok P.root := by rw [parseConfig, P.parsed]
  rw [invertIdsPolicy, P.target, if_neg P.operation, hxml, except_ok_bind, hroot, except_ok_bind,
    P.found]
  dsimp only
  rw [P.filenames]
  rfl

theorem rebuilt_lists : Lists P.rebuilt (policyActions P.body) (policyRulesets P.body)
    (contentFromTokens (splitCommas (joinedTokens (policyContent P.body)))) := by
  constructor
  · have hactions : ∀ a ∈ policyActions P.body, a ≠ "" ∧ ',' ∉ a.toList := by
      intro a ha
      have hword := (validPolicy P.accepted).actions a ha
      simp only [List.mem_cons, List.not_mem_nil, or_false] at hword
      rcases hword with rfl | rfl | rfl <;> decide
    show Json.arr (((splitCommas (recordField P.record "action" "")).filter (· ≠ "")).map Json.str) = _
    rw [P.recordField_stored (s := ",".intercalate (policyActions P.body)) "" rfl,
      filter_splitCommas_joined hactions]
  · rfl
  · show Json.obj ((contentFromTokens (splitCommas (recordField P.record "content" ""))).map _) = _
    rw [P.recordField_stored (s := joinedTokens (policyContent P.body)) "" rfl]

def policyAgain : Dict :=
  policyRecord P.rebuilt (policyActions P.body) P.uuids
    (filterTokens (contentFromTokens (splitCommas (joinedTokens (policyContent P.body)))))

theorem serialized_rebuilt : A.serialized P.rebuilt = some P.policyAgain :=
  serialized_of_lists P.rebuilt_lists (validPolicy P.accepted).rulesets
    (P.resolved.imp fun _ _ h => h.1)

theorem policyAgain_eq : P.policyAgain = policyRecord P.body (policyActions P.body) P.uuids
    (filterTokens (contentFromTokens (splitCommas (joinedTokens (policyContent P.body))))) := by
  have henabled : (Dict.getD P.rebuilt "enabled" (.str "1")).pyStr = _ :=
    P.recordField_stored "1" (k := "enabled") rfl
  have hprio : (Dict.getD P.rebuilt "prio" (.str "0")).pyStr = _ :=
    P.recordField_stored "0" (k := "prio") rfl
  have hnew : (Dict.getD P.rebuilt "new_action" (.str "alert")).pyStr = _ :=
    P.recordField_stored "alert" (k := "new_action") rfl
  have hdescription : recordDescription P.rebuilt = recordDescription P.body := rfl
  rw [policyAgain, policyRecord, henabled, hprio, hnew, hdescription]
  rfl

/-- The record and the rebuilt body are what they are, so only the two records are left to
compare. -/
theorem roundTrips_iff_same : P.RoundTrips ↔ SameRecord P.policy P.policyAgain := by
  constructor
  · rintro ⟨policy, body', policy', hpolicy, hinverse, hpolicy', hsame⟩
    obtain rfl := Option.some.inj (P.serialized.symm.trans hpolicy)
    obtain rfl : P.rebuilt = body' :=
      congrArg (·.2.2) (Except.ok.inj (P.inverted.symm.trans hinverse))
    obtain rfl := Option.some.inj (P.serialized_rebuilt.symm.trans hpolicy')
    exact hsame
  · exact fun hsame => ⟨P.policy, P.rebuilt, P.policyAgain, P.serialized, P.inverted,
      P.serialized_rebuilt, hsame⟩

theorem sameRecord_again : SameRecord P.policy P.policyAgain ↔
    ∀ t, t ∈ splitCommas (joinedTokens (policyContent P.body)) ↔ t ∈ splitCommas (joinedTokens
      (contentFromTokens (splitCommas (joinedTokens (policyContent P.body))))) := by
  rw [policyAgain_eq]
  exact sameRecord_iff

/-- **The body that is rebuilt from a snapshot becomes the same record again exactly if the
values of its filters are dotted.** -/
theorem roundTrips_iff : P.RoundTrips ↔ Dotted (policyContent P.body) := by
  have hkeys : ∀ kv ∈ policyContent P.body, ',' ∉ kv.1.toList := fun kv hkv =>
    not_mem_comma_of_safeName ((validPolicy P.accepted).keys kv hkv)
  rw [roundTrips_iff_same, sameRecord_again, sameTokens_iff hkeys]

end StoredPolicy

/-! ### A value with a comma -/

def idsBox : Appliance := { jailBox with files := [("fA", "et.rules")] }

def commaBody : Dict :=
  [("description", .str "p1"), ("action", .arr [.str "alert"]),
    ("rulesets", .arr [.str "et.rules"]), ("content", .obj [("severity", .arr [.str "1,bare"])])]

def commaRecord : List (String × String) :=
  [("enabled", "1"), ("prio", "0"), ("action", "alert"), ("rulesets", "fA"),
    ("content", "severity.1,bare"), ("new_action", "alert"), ("description", "p1")]

def commaRoot : Elem := .mk "opnsense" [] "" [.mk "OPNsense" [] "" [.mk "IDS" [] ""
  [.mk "files" [] "" [.mk "file" [("uuid", "fA")] "" [.mk "filename" [] "et.rules" []]],
    .mk "policies" [] "" [.mk "policy" [("uuid", "p1uuid")] ""
      (commaRecord.map fun kv => .mk kv.1 [] kv.2 [])]]]]

def commaXml : String :=
  "<opnsense><OPNsense><IDS><files><file uuid='fA'><filename>et.rules</filename></file></files>" ++
    "<policies><policy uuid='p1uuid'><enabled>1</enabled><prio>0</prio><action>alert</action>" ++
    "<rulesets>fA</rulesets><content>severity.1,bare</content><new_action>alert</new_action>" ++
    "<description>p1</description></policy></policies></IDS></OPNsense></opnsense>"

def commaEnv : Env := Env.ofDocuments [(commaXml, commaRoot)] []

theorem parseXml_ofDocuments (xml : String) (root : Elem) :
    (Env.ofDocuments [(xml, root)] []).parseXml xml = some root := by
  show [(xml, root)].lookup xml = some root
  exact List.lookup_cons_self

/-- The policy is set again. -/
def commaChange : Change where
  id := 1
  tenantId := 0
  deviceId := 1
  kind := "ids_policy"
  operation := "set"
  target := "p1"
  payload := commaBody
  baselineHash := ""
  status := .applied
  sweepAttempts := 0
  revertsChangeId := none
  scheduledAt := none
  appliedAt := none
  result := .null
  preApplySnapshotId := some 1
  createdAt := 0

theorem serialized_commaBody : idsBox.serialized commaBody = some (strDict commaRecord) := rfl

def commaPolicy : StoredPolicy idsBox commaEnv where
  body := commaBody
  accepted := by decide +kernel
  distinct := by decide
  enabled n hn := by
    obtain rfl : n = "et.rules" := List.mem_singleton.mp hn
    exact ⟨"fA", List.mem_singleton.mpr rfl, by decide⟩
  change := commaChange
  operation := by decide
  target := rfl
  xml := commaXml
  saved := by decide +kernel
  root := commaRoot
  parsed := parseXml_ofDocuments commaXml commaRoot
  files f hf := by
    obtain rfl := List.mem_singleton.mp hf
    rfl
  record := commaRecord
  found := rfl
  stored policy hpolicy k s hs := by
    obtain rfl := Option.some.inj (serialized_commaBody.symm.trans hpolicy)
    rw [get?_strDict] at hs
    obtain ⟨t, ht, heq⟩ := Option.map_eq_some_iff.mp hs
    rw [ht, Json.str.inj heq]

/-- What stands after the comma is dropped. -/
theorem stray_piece_dropped :
    Dict.getD commaPolicy.rebuilt "content" .null = .obj [("severity", .arr [.str "1"])] ∧
      ¬ commaPolicy.RoundTrips := by
  refine ⟨rfl, fun h => ?_⟩
  have hsame := commaPolicy.sameRecord_again.1 (commaPolicy.roundTrips_iff_same.1 h)
  have hlost := (hsame "bare").1 (by decide +kernel)
  exact absurd hlost (by decide +kernel)

end Opngms
