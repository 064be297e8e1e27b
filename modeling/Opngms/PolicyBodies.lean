/-
Opngms/PolicyBodies.lean

What a policy body lists, and the record the connector makes of it on a box.

A body lists actions, filenames of rulesets and, under the keys of `content`, texts
(`Lists`).  A body that passes its check does (`validPolicy`), and so does a body that is
rebuilt from a snapshot.

**`serialized_of_lists`**: where the filenames are those of enabled files, the record is
`policyRecord`, with the uuids of the files in place of their names.
-/
import Opngms.AssocLists
import Opngms.JoinedLists
import Opngms.Preview
import Opngms.RecordRuns

namespace Opngms

open Dialogue

/-! ### Joined fields -/

theorem splitCommas_intercalate {parts : List String} (h : parts ≠ []) :
    splitCommas (",".intercalate parts) = parts.flatMap splitCommas := by
  have hcomma : ",".toList = [','] := rfl
  rw [splitCommas, String.toList_intercalate, hcomma, splitOn_intercalate_flatMap (by simpa using h),
    List.flatMap_map, List.map_flatMap]
  rfl

theorem splitCommas_of_not_mem {s : String} (h : ',' ∉ s.toList) : splitCommas s = [s] := by
  rw [splitCommas, List.splitOn_eq_singleton h]
  simp

theorem not_mem_of_mem_splitCommas {s piece : String} (h : piece ∈ splitCommas s) :
    ',' ∉ piece.toList := by
  obtain ⟨cs, hcs, rfl⟩ := List.mem_map.mp h
  rw [String.toList_ofList]
  exact not_mem_of_mem_splitOn hcs

theorem splitCommas_joined {parts : List String} (hparts : ∀ p ∈ parts, ',' ∉ p.toList)
    (h : parts ≠ []) : splitCommas (",".intercalate parts) = parts := by
  rw [splitCommas_intercalate h]
  have hself : ∀ p ∈ parts, splitCommas p = [p] := fun p hp => splitCommas_of_not_mem (hparts p hp)
  rw [List.flatMap_congr hself]
  exact List.flatMap_singleton' parts

theorem filter_splitCommas_joined {parts : List String}
    (hparts : ∀ p ∈ parts, p ≠ "" ∧ ',' ∉ p.toList) :
    (splitCommas (",".intercalate parts)).filter (· ≠ "") = parts := by
  cases hnil : parts with
  | nil => rfl
  | cons p ps =>
    rw [← hnil, splitCommas_joined (fun p hp => (hparts p hp).2) (by simp [hnil])]
    exact List.filter_eq_self.mpr fun p hp => decide_eq_true (hparts p hp).1

theorem splitCommas_append {start s : String} (h : ',' ∉ start.toList) :
    splitCommas (start ++ s) = (splitCommas s).modifyHead (start ++ ·) := by
  rw [splitCommas, splitCommas, String.toList_append, splitOn_append_of_not_mem h]
  cases s.toList.splitOn ',' with
  | nil => rfl
  | cons cs css =>
    rw [List.modifyHead_cons, List.map_cons, List.map_cons, List.modifyHead_cons, String.ofList_append,
      String.ofList_toList]

theorem splitCommas_ne_nil (s : String) : splitCommas s ≠ [] := by
  rw [splitCommas, Ne, List.map_eq_nil_iff]
  exact List.splitOn_ne_nil _ _

theorem not_mem_comma_of_safeName {s : String} (h : safeName s = true) : ',' ∉ s.toList := by
  obtain ⟨-, hall⟩ := Bool.and_eq_true_iff.mp h
  intro hmem
  have hcomma := List.all_eq_true.mp hall ',' hmem
  exact absurd hcomma (by decide)

/-! ### What a body lists -/

/-- The texts in a list. -/
def listedTexts : Json → List String
  | .arr xs => xs.filterMap fun x =>
    match x with
    | .str s => some s
    | _ => none
  | _ => []

def policyActions (body : Dict) : List String := listedTexts (Dict.getD body "action" (.arr []))

def policyRulesets (body : Dict) : List String :=
  listedTexts (Dict.getD body "rulesets" (.arr []))

/-- The metadata filters of a policy body: texts under their keys. -/
def policyContent (body : Dict) : List (String × List String) :=
  match Dict.getD body "content" (.obj []) with
  | .obj kvs => kvs.map fun kv => (kv.1, listedTexts kv.2)
  | _ => []

/-- The tokens `key.value` of metadata filters, in order. -/
def filterTokens (content : List (String × List String)) : List String :=
  content.flatMap fun kv => kv.2.map fun v => kv.1 ++ "." ++ v

/-- A body lists these actions, these rulesets and these metadata filters. -/
structure Lists (body : Dict) (actions rulesets : List String)
    (content : List (String × List String)) : Prop where
  action : Dict.getD body "action" (.arr []) = .arr (actions.map .str)
  rulesets : Dict.getD body "rulesets" (.arr []) = .arr (rulesets.map .str)
  content : Dict.getD body "content" (.obj []) =
    .obj (content.map fun kv => (kv.1, .arr (kv.2.map .str)))

theorem eq_listedTexts {xs : List Json} (h : ∀ x ∈ xs, ∃ s, x = .str s) :
    xs = (listedTexts (.arr xs)).map .str := by
  induction xs with
  | nil => rfl
  | cons x xs ih =>
    obtain ⟨⟨s, rfl⟩, hxs⟩ := List.forall_mem_cons.mp h
    refine congrArg (.str s :: ·) (ih hxs)

/-! ### The check of a body -/

theorem mem_listedTexts {xs : List Json} {s : String} :
    s ∈ listedTexts (.arr xs) ↔ .str s ∈ xs := by
  rw [listedTexts, List.mem_filterMap]
  constructor
  · rintro ⟨x, hx, hs⟩
    cases x with
    | str t =>
      obtain rfl := Option.some.inj hs
      exact hx
    | _ => cases hs
  · exact fun h => ⟨_, h, rfl⟩

theorem texts_of_forall {xs : List Json} {P : String → Prop} (h : ∀ x ∈ xs, ∃ s, P s ∧ x = .str s) :
    Json.arr xs = .arr ((listedTexts (.arr xs)).map .str) ∧ ∀ s ∈ listedTexts (.arr xs), P s := by
  constructor
  · refine congrArg Json.arr (eq_listedTexts fun x hx => ?_)
    obtain ⟨s, -, hs⟩ := h x hx
    exact ⟨s, hs⟩
  · intro s hs
    obtain ⟨t, ht, heq⟩ := h _ (mem_listedTexts.1 hs)
    obtain rfl := Json.str.inj heq
    exact ht

theorem isOneOf_true {names : List String} {x : Json} (h : isOneOf names x = .ok true) :
    ∃ s, s ∈ names ∧ x = .str s := by
  cases x with
  | str s =>
    have hs : names.contains s = true := Except.ok.inj h
    exact ⟨s, List.contains_iff_mem.mp hs, rfl⟩
  | _ => cases h

theorem allOneOf_true {names : List String} {xs : List Json} (h : allOneOf names xs = .ok true) :
    ∀ x ∈ xs, ∃ s, s ∈ names ∧ x = .str s := by
  induction xs with
  | nil => exact nofun
  | cons x xs ih =>
    obtain ⟨b, hx, hxs⟩ := except_bind_ok h
    cases b with
    | false => cases hxs
    | true => exact List.forall_mem_cons.mpr ⟨isOneOf_true hx, ih hxs⟩

theorem safeNames_true {j : Json} (h : (match j with
    | .arr names => names.all fun n =>
      match n with
      | .str s => safeName s
      | _ => false
    | _ => false) = true) :
    j = .arr ((listedTexts j).map .str) ∧ ∀ n ∈ listedTexts j, safeName n = true := by
  cases j with
  | arr names =>
    refine texts_of_forall fun x hx => ?_
    have hsafe := List.all_eq_true.mp h x hx
    cases x with
    | str s => exact ⟨s, hsafe, rfl⟩
    | _ => cases hsafe
  | _ => cases h

theorem isContentEntry_true {kv : String × Json} (h : isContentEntry kv = true) :
    safeName kv.1 = true ∧ kv.2 = .arr ((listedTexts kv.2).map .str) := by
  obtain ⟨k, v⟩ := kv
  obtain ⟨hk, hv⟩ := Bool.and_eq_true_iff.mp h
  refine ⟨hk, ?_⟩
  cases v with
  | arr xs =>
    refine congrArg Json.arr (eq_listedTexts fun x hx => ?_)
    have htext := List.all_eq_true.mp hv x hx
    cases x with
    | str s => exact ⟨s, rfl⟩
    | _ => cases htext
  | _ => cases hv

theorem contentEntries_true {body : Dict} (h : (match Dict.getD body "content" (.obj []) with
    | .obj content => content.all isContentEntry
    | _ => false) = true) :
    Dict.getD body "content" (.obj []) =
        .obj ((policyContent body).map fun kv => (kv.1, .arr (kv.2.map .str))) ∧
      ∀ kv ∈ policyContent body, safeName kv.1 = true := by
  rw [policyContent]
  cases hc : Dict.getD body "content" (.obj []) <;> rw [hc] at h
  case obj kvs =>
    have hentry : ∀ kv ∈ kvs, _ := fun kv hkv => isContentEntry_true (List.all_eq_true.mp h kv hkv)
    constructor
    · rw [List.map_map]
      refine congrArg Json.obj (Eq.trans (List.map_id _).symm (List.map_congr_left fun kv hkv => ?_))
      exact Prod.ext rfl (hentry kv hkv).2
    · intro kv hkv
      obtain ⟨entry, hmem, rfl⟩ := List.mem_map.mp hkv
      exact (hentry entry hmem).1
  all_goals cases h

/-- What a body that passes the check of its kind holds. -/
structure ValidPolicy (body : Dict) : Prop where
  lists : Lists body (policyActions body) (policyRulesets body) (policyContent body)
  actions : ∀ a ∈ policyActions body, a ∈ ["alert", "disable", "drop"]
  rulesets : ∀ n ∈ policyRulesets body, safeName n = true
  keys : ∀ kv ∈ policyContent body, safeName kv.1 = true

/-- **A body that passes its check lists texts.** -/
theorem validPolicy {body : Dict} (h : validateIdsPolicy body = .ok ()) : ValidPolicy body := by
  obtain ⟨-, -, h⟩ := except_bind_ok h
  obtain ⟨-, -, h⟩ := except_bind_ok h
  obtain ⟨-, -, h⟩ := except_bind_ok h
  obtain ⟨-, -, h⟩ := except_bind_ok h
  -- actions that are no list are not compared with the words
  obtain ⟨actions, hactions⟩ : ∃ xs, Dict.getD body "action" (.arr []) = .arr xs := by
    cases ha : Dict.getD body "action" (.arr []) <;> rw [ha] at h
    case arr xs => exact ⟨xs, rfl⟩
    all_goals cases h
  rw [hactions] at h
  obtain ⟨known, hknown, hrest⟩ := except_bind_ok h
  obtain ⟨_, hreq, hnew⟩ := except_bind_ok hrest
  obtain rfl : known = true := require_eq_ok.mp hreq
  obtain ⟨_, -, hoffered⟩ := except_bind_ok hnew
  obtain ⟨_, -, hlists⟩ := except_bind_ok hoffered
  obtain ⟨_, hrulesets, hcontent⟩ := except_bind_ok hlists
  rw [require_eq_ok] at hrulesets hcontent
  obtain ⟨haction, hwords⟩ := texts_of_forall (allOneOf_true hknown)
  obtain ⟨hnames, hsafe⟩ := safeNames_true hrulesets
  obtain ⟨hfilters, hkeys⟩ := contentEntries_true hcontent
  rw [← hactions] at haction hwords
  exact ⟨⟨haction, hnames, hfilters⟩, hwords, hsafe, hkeys⟩

/-! ### The record -/

/-- The record made of a body with these actions, uuids and tokens. -/
def policyRecord (body : Dict) (actions uuids tokens : List String) : Dict :=
  [("enabled", .str (Dict.getD body "enabled" (.str "1")).pyStr),
    ("prio", .str (Dict.getD body "prio" (.str "0")).pyStr),
    ("action", .str (",".intercalate actions)),
    ("rulesets", .str (",".intercalate uuids)),
    ("content", .str (",".intercalate tokens)),
    ("new_action", .str (Dict.getD body "new_action" (.str "alert")).pyStr),
    ("description", .str (recordDescription body))]

/-- The uuid that a box resolves the filename of an enabled ruleset to. -/
def Appliance.rulesetFile (A : Appliance) (name : String) : Option String :=
  match enabledRulesets A.policyModel with
  | .ok byName => byName.lookup name
  | .error _ => none

/-- The entries `filename: uuid` of the files that a box enables: of a file with a name and a
safe uuid. -/
def filesByName (files : List (String × String)) : List (String × String) :=
  (files.filter fun f => f.2 != "" && safeName f.1).map fun f => (f.2, f.1)

theorem rulesetsByName_files (files acc : List (String × String)) :
    rulesetsByName (files.map fun f => (f.1, .obj [("value", .str f.2), ("selected", .int 0)])) acc =
      .ok ((filesByName files).reverse ++ acc) := by
  induction files generalizing acc with
  | nil => rfl
  | cons f files ih =>
    have hvalue : Dict.getD [("value", Json.str f.2), ("selected", .int 0)] "value" .null =
        .str f.2 := rfl
    rw [List.map_cons, rulesetsByName, hvalue, Json.truthy_str, filesByName, List.filter_cons]
    cases hok : (f.2 != "" && safeName f.1) with
    | true =>
      rw [if_pos rfl, if_pos rfl, List.map_cons, List.reverse_cons, List.append_assoc]
      exact ih _
    | false =>
      rw [if_neg Bool.false_ne_true, if_neg Bool.false_ne_true]
      exact ih acc

theorem enabledRulesets_files (A : Appliance) :
    enabledRulesets A.policyModel = .ok (filesByName A.files).reverse := by
  rw [← List.append_nil (filesByName A.files).reverse]
  exact rulesetsByName_files A.files []

theorem mem_filesByName {files : List (String × String)} {name uuid : String} :
    (name, uuid) ∈ filesByName files ↔ (uuid, name) ∈ files ∧ name ≠ "" ∧ safeName uuid = true := by
  rw [filesByName, List.mem_map]
  constructor
  · rintro ⟨f, hf, heq⟩
    obtain ⟨rfl, rfl⟩ := Prod.mk.inj heq
    obtain ⟨hmem, hok⟩ := List.mem_filter.mp hf
    exact ⟨hmem, by simpa using hok⟩
  · rintro ⟨hmem, hname, huuid⟩
    exact ⟨_, List.mem_filter.mpr ⟨hmem, by simp [hname, huuid]⟩, rfl⟩

theorem rulesetFile_of_mem {A : Appliance} (hdistinct : (A.files.map (·.2)).Nodup)
    {name uuid : String} (h : (uuid, name) ∈ A.files) (hname : name ≠ "")
    (huuid : safeName uuid = true) : A.rulesetFile name = some uuid := by
  have hkeys : ((filesByName A.files).reverse.map (·.1)).Nodup := by
    have hsub : ((filesByName A.files).map (·.1)).Sublist (A.files.map (·.2)) := by
      rw [filesByName, List.map_map]
      exact List.filter_sublist.map _
    rw [List.map_reverse, List.nodup_reverse]
    exact hsub.nodup hdistinct
  rw [Appliance.rulesetFile, enabledRulesets_files]
  exact (mem_iff_lookup hkeys).mp (List.mem_reverse.mpr (mem_filesByName.2 ⟨h, hname, huuid⟩))

theorem strings_map (ss : List String) : Json.strings (ss.map .str) = .ok ss := by
  induction ss with
  | nil => rfl
  | cons s ss ih =>
    rw [List.map_cons, Json.strings, ih]
    rfl

theorem allContentTokens_texts (content : List (String × List String)) :
    allContentTokens (content.map fun kv => (kv.1, .arr (kv.2.map .str))) =
      .ok (filterTokens content) := by
  induction content with
  | nil => rfl
  | cons kv content ih =>
    have hone : contentTokens kv.1 (.arr (kv.2.map .str)) =
        .ok (kv.2.map fun v => kv.1 ++ "." ++ v) := by
      rw [contentTokens, Json.orElse_arr]
      show Except.ok _ = _
      rw [List.map_map]
      rfl
    rw [List.map_cons, allContentTokens, hone, ih]
    rfl

theorem lookupRulesets_names {byName : List (String × String)} {names uuids : List String}
    (hsafe : ∀ n ∈ names, safeName n = true)
    (h : List.Forall₂ (fun n u => byName.lookup n = some u) names uuids) :
    lookupRulesets byName (names.map .str) = .ok uuids := by
  induction h with
  | nil => rfl
  | cons hn _ ih =>
    obtain ⟨hname, hsafe⟩ := List.forall_mem_cons.mp hsafe
    rw [List.map_cons, lookupRulesets, rulesetName, if_pos hname]
    rw [except_ok_bind, hn, ih hsafe]
    rfl

variable {A : Appliance} {body : Dict} {actions rulesets uuids : List String}
  {content : List (String × List String)}

/-- **A body whose rulesets are enabled becomes a record.** -/
theorem serialized_of_lists (h : Lists body actions rulesets content)
    (hsafe : ∀ n ∈ rulesets, safeName n = true)
    (hfiles : List.Forall₂ (fun n u => A.rulesetFile n = some u) rulesets uuids) :
    A.serialized body = some (policyRecord body actions uuids (filterTokens content)) := by
  -- the box is asked for the enabled rulesets only if the body lists some
  have hresolve : (resolveRulesetFileUuids (.arr (rulesets.map .str))).play
      (fun _ _ => some (.ok A.policyModel, ())) () = some (.ok uuids, ()) := by
    cases hfiles with
    | nil => rfl
    | @cons name uuid names uuids hone hrest =>
      obtain ⟨byName, hbyName⟩ : ∃ byName, enabledRulesets A.policyModel = .ok byName := by
        unfold Appliance.rulesetFile at hone
        cases he : enabledRulesets A.policyModel with
        | ok byName => exact ⟨byName, rfl⟩
        | error e =>
          rw [he] at hone
          cases hone
      have hlookup : List.Forall₂ (fun n u => byName.lookup n = some u) (name :: names)
          (uuid :: uuids) := by
        refine List.Forall₂.imp (fun n u hnu => ?_) (.cons hone hrest)
        rw [Appliance.rulesetFile, hbyName] at hnu
        exact hnu
      have hshape : resolveRulesetFileUuids (.arr ((name :: names).map .str)) =
          (post .policyGet).bind fun answer => (builtin (enabledRulesets answer)).bind
            fun byName => Dialogue.ofExcept (lookupRulesets byName ((name :: names).map .str)) := rfl
      rw [hshape]
      show ((builtin (enabledRulesets A.policyModel)).bind _).play _ () = _
      rw [hbyName]
      show (Dialogue.ofExcept (lookupRulesets byName ((name :: names).map .str))).play _ () = _
      rw [lookupRulesets_names hsafe hlookup]
      rfl
  have hplay : (serializePolicy body).play (fun _ _ => some (.ok A.policyModel, ())) () =
      some (.ok (policyRecord body actions uuids (filterTokens content)), ()) := by
    unfold serializePolicy
    rw [h.action, h.rulesets, h.content, Json.orElse_arr, Json.orElse_arr, Json.orElse_obj]
    refine (play_bind_ok hresolve).trans ?_
    show ((builtin (allContentTokens _)).bind _).play _ () = _
    rw [allContentTokens_texts]
    show ((builtin (Json.strings (actions.map .str))).bind _).play _ () = _
    rw [strings_map]
    rfl
  rw [Appliance.serialized, hplay]

end Opngms
