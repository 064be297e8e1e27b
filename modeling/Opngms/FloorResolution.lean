/-
Opngms/FloorResolution.lean

Which published version a version resolves to (`resolve_version`, `previous_version` and
`resolve_target` in services/catalog_provider.py).

Versions are compared by the numbers between their dots, suffixes dropped, so different
texts may be equal in the order.  `int` refuses more than 4300 digits; where no part has
more, `_parse_version` is the total function `versionKey`, and resolution is a floor in its
order: the exact text is one, and so is the first of the greatest.

For a Business device two floors are composed.  What is served is guarded by its truth, so a
resolved version that is empty counts as none (`emptyVersion_unresolved`).

Main result: **`floor_resolution`**.
-/
import Opngms.Appliance
import Opngms.CatalogDiff
import Opngms.Floors

namespace Opngms

namespace CatalogProvider

open Floors

/-! ### Versions that parse -/

/-- No part of the version starts with more digits than `int` takes. -/
def Readable (v : String) : Prop :=
  ∀ p ∈ v.toList.splitOn '.', (p.takeWhile isDecimal).length ≤ 4300

instance (v : String) : Decidable (Readable v) := inferInstanceAs (Decidable (∀ p ∈ _, _))

/-- The number at the start of a part, 0 if there is none. -/
def partNumber (p : List Char) : Nat :=
  (p.takeWhile isDecimal).foldl (fun n c => 10 * n + (decimalValue c).getD 0) 0

def versionKey (v : String) : List Nat := (v.toList.splitOn '.').map partNumber

theorem parsePart_eq {p : List Char} (h : (p.takeWhile isDecimal).length ≤ 4300) :
    parsePart p = .ok (partNumber p) := by
  unfold parsePart partNumber
  split
  · rename_i hnil
    rw [hnil]
    rfl
  · unfold intOf
    rw [if_neg (not_lt.mpr h)]

theorem parseVersion_str {v : String} (h : Readable v) :
    parseVersion (.str v) = .ok (versionKey v) :=
  mapM_ok fun p hp => parsePart_eq (h p hp)

theorem parseVersion_unreadable {v : String} (h : ¬ Readable v) :
    parseVersion (.str v) = .error .valueError := by
  have hsome : ∃ p ∈ v.toList.splitOn '.', 4300 < (p.takeWhile isDecimal).length := by
    by_contra hnone
    exact h fun p hp => not_lt.mp fun hlong => hnone ⟨p, hp, hlong⟩
  have hparts : ∀ ps : List (List Char), (∃ p ∈ ps, 4300 < (p.takeWhile isDecimal).length) →
      ps.mapM parsePart = .error .valueError := by
    intro ps
    induction ps with
    | nil => rintro ⟨p, hp, -⟩; cases hp
    | cons p ps ih =>
      rintro ⟨q, hq, hlong⟩
      rw [List.mapM_cons]
      by_cases hp : (p.takeWhile isDecimal).length ≤ 4300
      · rcases List.mem_cons.mp hq with rfl | hq
        · exact absurd hp (not_le.mpr hlong)
        · rw [parsePart_eq hp, ih ⟨q, hq, hlong⟩]
          rfl
      · have hlong' : parsePart p = .error .valueError := by
          unfold parsePart
          split
          · rename_i hnil
            rw [hnil] at hp
            exact absurd (Nat.zero_le _) hp
          · exact if_pos (not_le.mp hp)
        rw [hlong']
        rfl
  exact hparts _ hsome

theorem keyed_str {versions : List String} (h : ∀ v ∈ versions, Readable v) :
    keyed (versions.map .str) = .ok (versions.map fun v => (Json.str v, versionKey v)) := by
  unfold keyed
  rw [List.mapM_map]
  apply mapM_ok
  intro v hv
  show (parseVersion (.str v)).bind _ = _
  rw [parseVersion_str (h v hv)]
  rfl

theorem highest_filter (P : List Nat → Prop) [DecidablePred P] (versions : List String) :
    (∃ u ∈ versions, P (versionKey u) ∧ (∀ v ∈ versions, P (versionKey v) →
        versionKey v ≤ versionKey u) ∧
      (highest ((versions.map fun v => (Json.str v, versionKey v)).filter fun v => P v.2)).map (·.1) =
        some (.str u)) ∨
    ((∀ v ∈ versions, ¬ P (versionKey v)) ∧
      (highest ((versions.map fun v => (Json.str v, versionKey v)).filter fun v => P v.2)).map (·.1) =
        none) := by
  have hmem : ∀ v ∈ versions, P (versionKey v) → (Json.str v, versionKey v) ∈
      (versions.map fun v => (Json.str v, versionKey v)).filter fun v => P v.2 := fun v hv hP =>
    List.mem_filter.mpr ⟨List.mem_map_of_mem hv, decide_eq_true hP⟩
  cases hhighest : highest ((versions.map fun v => (Json.str v, versionKey v)).filter
      fun v => P v.2) with
  | none =>
    refine .inr ⟨fun v hv hP => ?_, rfl⟩
    have hne := List.ne_nil_of_mem (hmem v hv hP)
    obtain ⟨w, ws, hcons⟩ := List.exists_cons_of_ne_nil hne
    rw [hcons] at hhighest
    cases hhighest
  | some m =>
    obtain ⟨hm, hmax⟩ := highest_spec hhighest
    obtain ⟨hm, hP⟩ := List.mem_filter.mp hm
    obtain ⟨u, hu, rfl⟩ := List.mem_map.mp hm
    refine .inl ⟨u, hu, of_decide_eq_true hP, fun v hv hPv => ?_, rfl⟩
    exact not_lt.mp (hmax _ (hmem v hv hPv))

/-! ### Resolution -/

theorem resolveVersion_floor {versions : List String} {version : String}
    (hs : ∀ v ∈ versions, Readable v) (hv : Readable version) :
    (∃ u, resolveVersion (versions.map .str) (.str version) = .ok (some (.str u)) ∧
      IsFloor versionKey versions (versionKey version) u) ∨
    (resolveVersion (versions.map .str) (.str version) = .ok none ∧
      ∀ v ∈ versions, ¬ versionKey v ≤ versionKey version) := by
  by_cases hmem : version ∈ versions
  · exact .inl ⟨version, resolveVersion_mem (List.mem_map_of_mem hmem), isFloor_self hmem⟩
  · -- the ordered search
    have hany : ¬ ((versions.map Json.str).any fun v => v.pyEq (.str version)) = true := by
      simpa [List.any_eq_true] using hmem
    have hsearch : resolveVersion (versions.map .str) (.str version) =
        .ok ((highest ((versions.map fun v => (Json.str v, versionKey v)).filter
          fun v => v.2 ≤ versionKey version)).map (·.1)) := by
      unfold resolveVersion
      rw [if_neg hany, parseVersion_str hv, keyed_str hs]
      rfl
    rw [hsearch]
    rcases highest_filter (· ≤ versionKey version) versions with
      ⟨u, hu, hle, hmax, hhighest⟩ | ⟨hnone, hhighest⟩
    · exact .inl ⟨u, congrArg Except.ok hhighest, hu, hle, hmax⟩
    · exact .inr ⟨congrArg Except.ok hhighest, hnone⟩

theorem previousVersion_below {versions : List String} {version : String}
    (hs : ∀ v ∈ versions, Readable v) (hv : Readable version) :
    (∃ u, previousVersion (versions.map .str) (.str version) = .ok (some (.str u)) ∧
      IsBelow versionKey versions (versionKey version) u) ∨
    (previousVersion (versions.map .str) (.str version) = .ok none ∧
      ∀ v ∈ versions, ¬ versionKey v < versionKey version) := by
  have hsearch : previousVersion (versions.map .str) (.str version) =
      .ok ((highest ((versions.map fun v => (Json.str v, versionKey v)).filter
        fun v => v.2 < versionKey version)).map (·.1)) := by
    unfold previousVersion
    rw [parseVersion_str hv, keyed_str hs]
    rfl
  rw [hsearch]
  rcases highest_filter (· < versionKey version) versions with
    ⟨u, hu, hlt, hmax, hhighest⟩ | ⟨hnone, hhighest⟩
  · exact .inl ⟨u, congrArg Except.ok hhighest, hu, hlt, hmax⟩
  · exact .inr ⟨congrArg Except.ok hhighest, hnone⟩

theorem isFloor_of_resolved {versions : List String} {version u : String}
    (hs : ∀ v ∈ versions, Readable v) (hv : Readable version)
    (h : resolveVersion (versions.map .str) (.str version) = .ok (some (.str u))) :
    IsFloor versionKey versions (versionKey version) u := by
  rcases resolveVersion_floor hs hv with ⟨u', hres, hfloor⟩ | ⟨hres, -⟩
  · obtain rfl := Json.str.inj (Option.some.inj (Except.ok.inj (hres.symm.trans h)))
    exact hfloor
  · cases hres.symm.trans h

theorem resolveVersion_mono {versions : List String} {version version' u : String}
    (hs : ∀ v ∈ versions, Readable v) (hv : Readable version) (hv' : Readable version')
    (hle : versionKey version ≤ versionKey version')
    (h : resolveVersion (versions.map .str) (.str version) = .ok (some (.str u))) :
    ∃ u', resolveVersion (versions.map .str) (.str version') = .ok (some (.str u')) ∧
      versionKey u ≤ versionKey u' := by
  have hfloor := isFloor_of_resolved hs hv h
  rcases resolveVersion_floor hs hv' with ⟨u', hres, hfloor'⟩ | ⟨-, hnone⟩
  · exact ⟨u', hres, hfloor.mono hfloor' hle⟩
  · exact absurd (hfloor.le.trans hle) (hnone u hfloor.mem)

/-! ### Business devices -/

/-- What a release offers a Business device: the Community versions of the manifest, and the
Business map. -/
structure Release where
  manifest : Json
  community : List String
  communityVersions_eq : communityVersions manifest = .ok (community.map .str)
  businessBase : Dict
  bmap : List (String × String)
  map_eq : Dict.getD businessBase "map" (.obj []) = .obj (strDict bmap)

namespace Release

variable (r : Release)

/-- All texts of the release parse. -/
structure AllReadable : Prop where
  community : ∀ v ∈ r.community, Readable v
  keys : ∀ kv ∈ r.bmap, Readable kv.1
  bases : ∀ kv ∈ r.bmap, Readable kv.2

def keys : List String := r.bmap.map (·.1)

/-- `bmap[be]`. -/
def base (be : String) : String := (r.bmap.lookup be).getD ""

/-- A higher Business version never has a lower base. -/
def Monotone : Prop :=
  ∀ v ∈ r.keys, ∀ v' ∈ r.keys, versionKey v ≤ versionKey v' →
    versionKey (r.base v) ≤ versionKey (r.base v')

variable {r}

theorem keys_readable (h : r.AllReadable) : ∀ v ∈ r.keys, Readable v := by
  intro v hv
  obtain ⟨kv, hkv, rfl⟩ := List.mem_map.mp hv
  exact h.keys kv hkv

theorem exists_lookup {d : List (String × String)} {k : String} (h : k ∈ d.map (·.1)) :
    ∃ v, d.lookup k = some v ∧ (k, v) ∈ d := by
  induction d with
  | nil => cases h
  | cons kv d ih =>
    obtain ⟨k', v'⟩ := kv
    rw [List.lookup_cons]
    by_cases hk : k = k'
    · subst hk
      exact ⟨v', by simp, List.mem_cons_self⟩
    · have hmem : k ∈ d.map (·.1) := (List.mem_cons.mp h).resolve_left hk
      obtain ⟨v, hv, hvmem⟩ := ih hmem
      exact ⟨v, by simpa [beq_false_of_ne hk] using hv, List.mem_cons_of_mem _ hvmem⟩

theorem base_readable (h : r.AllReadable) {be : String} (hbe : be ∈ r.keys) :
    Readable (r.base be) := by
  obtain ⟨v, hlookup, hmem⟩ := exists_lookup hbe
  rw [base, hlookup]
  exact h.bases _ hmem

variable {edition version : String}

theorem lookup_base {be : String} (hbe : be ∈ r.keys) :
    lookup (.obj (strDict r.bmap)) (.str be) = .ok (.str (r.base be)) := by
  obtain ⟨v, hlookup, -⟩ := exists_lookup hbe
  show Dict.item (strDict r.bmap) be = _
  rw [Dict.item, get?_strDict, base, hlookup]
  rfl

/-- `resolve_target` composes two resolutions; a version that is empty counts as none. -/
theorem resolveTarget_eq (h : r.AllReadable) (hv : Readable version)
    (hedition : editionOf edition = "business") :
    (resolveVersion (r.keys.map .str) (.str version) = .ok none ∧
      resolveTarget r.manifest (.obj r.businessBase) edition version = .ok none) ∨
    ∃ (be : String) (w : Option String),
      resolveVersion (r.keys.map .str) (.str version) = .ok (some (.str be)) ∧
      be ∈ r.keys ∧
      resolveVersion (r.community.map .str) (.str (r.base be)) = .ok (w.map .str) ∧
      resolveTarget r.manifest (.obj r.businessBase) edition version =
        .ok ((w.filter (· ≠ "")).map fun v => ("community", .str v)) := by
  have hkeys : (Json.obj (strDict r.bmap)).iterate = .ok (r.keys.map .str) := by
    simp [Json.iterate, Dict.keys, strDict, keys, Function.comp_def]
  have htarget : resolveTarget r.manifest (.obj r.businessBase) edition version =
      (resolveVersion (r.keys.map .str) (.str version)).bind fun found =>
        found.elim (.ok none) fun be => (lookup (.obj (strDict r.bmap)) be).bind fun base =>
          (resolveVersion (r.community.map .str) base).bind fun v => .ok (communityTarget v) := by
    unfold resolveTarget
    simp only [r.communityVersions_eq, Json.orElse_obj, hedition, if_true, Json.attrGet, r.map_eq, hkeys,
      except_ok_bind]
    apply congrArg (Except.bind _)
    funext found
    cases found <;> rfl
  rw [htarget]
  rcases resolveVersion_floor (keys_readable h) hv with ⟨be, hbe, hfloor⟩ | ⟨hnone, -⟩
  · refine .inr ?_
    have hread : Readable (r.base be) := base_readable h hfloor.mem
    rw [hbe]
    rcases resolveVersion_floor h.community hread with ⟨w, hw, -⟩ | ⟨hw, -⟩
    · refine ⟨be, some w, rfl, hfloor.mem, hw, ?_⟩
      show (lookup _ _).bind _ = _
      rw [lookup_base hfloor.mem]
      show (resolveVersion _ _).bind _ = _
      rw [hw]
      by_cases hempty : w = ""
      · subst hempty
        rfl
      · have htruthy : (Json.str w).truthy = true := by simpa using hempty
        show Except.ok (communityTarget (some (Json.str w))) = _
        rw [communityTarget, if_pos htruthy]
        simp [Option.filter, hempty]
    · refine ⟨be, none, rfl, hfloor.mem, hw, ?_⟩
      show (lookup _ _).bind _ = _
      rw [lookup_base hfloor.mem]
      show (resolveVersion _ _).bind _ = _
      rw [hw]
      rfl
  · exact .inl ⟨hnone, by rw [hnone]; rfl⟩

theorem resolveTarget_mono {version' w : String} (h : r.AllReadable) (hmono : r.Monotone)
    (hempty : "" ∉ r.community) (hv : Readable version) (hv' : Readable version')
    (hedition : editionOf edition = "business") (hle : versionKey version ≤ versionKey version')
    (hw : resolveTarget r.manifest (.obj r.businessBase) edition version =
      .ok (some ("community", .str w))) :
    ∃ w', resolveTarget r.manifest (.obj r.businessBase) edition version' =
        .ok (some ("community", .str w')) ∧ versionKey w ≤ versionKey w' := by
  rcases resolveTarget_eq h hv hedition with ⟨-, hnone⟩ | ⟨be, w₀, hbe, hmem, hw₀, htarget⟩
  · cases hnone.symm.trans hw
  obtain ⟨be', hbe', hle'⟩ := resolveVersion_mono (keys_readable h) hv hv' hle hbe
  rcases resolveTarget_eq h hv' hedition with ⟨hnone, -⟩ | ⟨be'', w₀', hbe'', hmem', hw₀', htarget'⟩
  · cases hnone.symm.trans hbe'
  obtain rfl := Json.str.inj (Option.some.inj (Except.ok.inj (hbe'.symm.trans hbe'')))
  -- the versions that are served are those of the bases
  obtain rfl : w₀ = some w := by
    rw [htarget] at hw
    cases w₀ with
    | none => cases hw
    | some v =>
      by_cases hv : v = ""
      · simp [hv] at hw
      · simpa [Option.filter, hv] using hw
  obtain ⟨w', hw', hserved⟩ := resolveVersion_mono h.community (base_readable h hmem)
    (base_readable h hmem') (hmono be hmem be' hmem' hle') hw₀
  refine ⟨w', ?_, hserved⟩
  obtain rfl : w₀' = some w' := by
    cases w₀' with
    | none => cases hw₀'.symm.trans hw'
    | some v =>
      rw [Json.str.inj (Option.some.inj (Except.ok.inj (hw₀'.symm.trans hw')))]
  have hne : w' ≠ "" := by
    rintro rfl
    exact hempty (isFloor_of_resolved h.community (base_readable h hmem') hw').mem
  rw [htarget']
  simp [Option.filter, hne]

end Release

/-! ### The order of the results -/

/-- **A version resolves to a floor.**  Where all versions parse, `resolve_version` returns none
exactly if no published version is at most the requested one, and otherwise a published one of
greatest key among those; it is monotone; `previous_version` is strictly below, with nothing
published between; and for a Business device `resolve_target` is the floor in the map and then
the floor of its base, an empty version counting as none, which is monotone if the map is and
no published version is empty. -/
theorem floor_resolution :
    (∀ (versions : List String) (version : String), (∀ v ∈ versions, Readable v) →
      Readable version →
      ∃ u : Option String,
        resolveVersion (versions.map .str) (.str version) = .ok (u.map .str) ∧
        (u = none ↔ ∀ v ∈ versions, ¬ versionKey v ≤ versionKey version) ∧
        ∀ w, u = some w → IsFloor versionKey versions (versionKey version) w) ∧
    (∀ (versions : List String) (version version' u : String), (∀ v ∈ versions, Readable v) →
      Readable version → Readable version' → versionKey version ≤ versionKey version' →
      resolveVersion (versions.map .str) (.str version) = .ok (some (.str u)) →
      ∃ u', resolveVersion (versions.map .str) (.str version') = .ok (some (.str u')) ∧
        versionKey u ≤ versionKey u') ∧
    (∀ (versions : List String) (version : String), (∀ v ∈ versions, Readable v) →
      Readable version →
      ∃ u : Option String,
        previousVersion (versions.map .str) (.str version) = .ok (u.map .str) ∧
        (u = none ↔ ∀ v ∈ versions, ¬ versionKey v < versionKey version) ∧
        ∀ w, u = some w → w ∈ versions ∧ versionKey w < versionKey version ∧
          ∀ v ∈ versions, ¬ (versionKey w < versionKey v ∧ versionKey v < versionKey version)) ∧
    (∀ (r : Release) (edition version : String), r.AllReadable → Readable version →
      editionOf edition = "business" →
      (resolveVersion (r.keys.map .str) (.str version) = .ok none ∧
        resolveTarget r.manifest (.obj r.businessBase) edition version = .ok none) ∨
      ∃ (be : String) (w : Option String),
      resolveVersion (r.keys.map .str) (.str version) = .ok (some (.str be)) ∧
        be ∈ r.keys ∧
        resolveVersion (r.community.map .str) (.str (r.base be)) = .ok (w.map .str) ∧
        resolveTarget r.manifest (.obj r.businessBase) edition version =
          .ok ((w.filter (· ≠ "")).map fun v => ("community", .str v))) ∧
    (∀ (r : Release) (edition version version' w : String), r.AllReadable → r.Monotone →
      "" ∉ r.community → Readable version → Readable version' → editionOf edition = "business" →
      versionKey version ≤ versionKey version' →
      resolveTarget r.manifest (.obj r.businessBase) edition version =
        .ok (some ("community", .str w)) →
      ∃ w', resolveTarget r.manifest (.obj r.businessBase) edition version' =
          .ok (some ("community", .str w')) ∧ versionKey w ≤ versionKey w') := by
  refine ⟨fun versions version hs hv => ?_, fun versions version version' u hs hv hv' hle h =>
    resolveVersion_mono hs hv hv' hle h, fun versions version hs hv => ?_,
    fun r edition version h hv hedition => Release.resolveTarget_eq h hv hedition,
    fun r edition version version' w h hmono hempty hv hv' hedition hle hw =>
      Release.resolveTarget_mono h hmono hempty hv hv' hedition hle hw⟩
  · rcases resolveVersion_floor hs hv with ⟨u, hres, hfloor⟩ | ⟨hres, hnone⟩
    · refine ⟨some u, hres, ⟨nofun, fun hnone => ?_⟩, fun w hw => ?_⟩
      · exact absurd hfloor.le (hnone u hfloor.mem)
      · rwa [← Option.some.inj hw]
    · exact ⟨none, hres, ⟨fun _ => hnone, fun _ => rfl⟩, nofun⟩
  · rcases previousVersion_below hs hv with ⟨u, hres, hbelow⟩ | ⟨hres, hnone⟩
    · refine ⟨some u, hres, ⟨nofun, fun hnone => ?_⟩, fun w hw => ?_⟩
      · exact absurd hbelow.lt (hnone u hbelow.mem)
      · rw [← Option.some.inj hw]
        exact ⟨hbelow.mem, hbelow.lt, fun v hv => hbelow.none_between hv⟩
    · exact ⟨none, hres, ⟨fun _ => hnone, fun _ => rfl⟩, nofun⟩

def threeBases : Release where
  manifest := .obj [("catalogs", .obj [("community/26.1.6", .str "x"), ("community/26.1.7", .str "x"),
    ("community/26.1.8", .str "x")])]
  community := ["26.1.6", "26.1.7", "26.1.8"]
  communityVersions_eq := by decide
  businessBase := [("map", .obj [("26.4", .str "26.1.6"), ("26.4.1", .str "26.1.8"),
    ("25.10", .str "25.7.9")])]
  bmap := [("26.4", "26.1.6"), ("26.4.1", "26.1.8"), ("25.10", "25.7.9")]
  map_eq := by decide

/-- A device at 26.4, and one at a version that the map does not list. -/
theorem floor_resolution_business :
    ∃ w', resolveTarget threeBases.manifest (.obj threeBases.businessBase) "business" "26.4.2" =
        .ok (some ("community", .str w')) ∧ versionKey "26.1.6" ≤ versionKey w' :=
  floor_resolution.2.2.2.2 threeBases "business" "26.4" "26.4.2" "26.1.6"
    ⟨by decide, by decide, by decide⟩ (by unfold Release.Monotone; decide) (by decide) (by decide)
    (by decide) (by decide) (by decide) (by decide)

/-! ### Texts that are no versions -/

/-- A release whose one Community catalog has an empty version. -/
def emptyVersionRelease : Release where
  manifest := .obj [("catalogs", .obj [("community/", .str "x")])]
  community := [""]
  communityVersions_eq := by decide
  businessBase := [("map", .obj [("26.4", .str "0")])]
  bmap := [("26.4", "0")]
  map_eq := by decide

def longVersion (n : Nat) : String := String.ofList (List.replicate n '9')

theorem longVersion_unreadable {n : Nat} (hn : 4300 < n) : ¬ Readable (longVersion n) := by
  intro h
  have hsplit : (longVersion n).toList.splitOn '.' = [List.replicate n '9'] := by
    rw [longVersion, String.toList_ofList]
    apply List.splitOn_eq_singleton
    intro hmem
    cases List.eq_of_mem_replicate hmem
  have hmem : List.replicate n '9' ∈ (longVersion n).toList.splitOn '.' := by
    rw [hsplit]
    exact List.mem_singleton_self _
  have hdigit : isDecimal '9' = true := by decide
  have hlong := h _ hmem
  rw [List.takeWhile_replicate, if_pos hdigit, List.length_replicate] at hlong
  omega

/-- The empty version is the floor of "0", and is not served; and where a published version has
more digits than `int` takes, resolution raises. -/
theorem emptyVersion_unresolved :
    (resolveVersion (emptyVersionRelease.keys.map .str) (.str "26.4") =
        .ok (some (.str "26.4")) ∧
      resolveVersion (emptyVersionRelease.community.map .str) (.str "0") = .ok (some (.str "")) ∧
      resolveTarget emptyVersionRelease.manifest (.obj emptyVersionRelease.businessBase) "business"
        "26.4" = .ok none) ∧
    resolveVersion [.str (longVersion 4301)] (.str "26.1") = .error .valueError := by
  refine ⟨⟨by decide, by decide, by decide⟩, ?_⟩
  have hlong : ¬ Readable (longVersion 4301) := longVersion_unreadable (by decide)
  generalize longVersion 4301 = v at hlong
  have hany : ¬ ([Json.str v].any fun v => v.pyEq (.str "26.1")) = true := by
    intro h
    obtain rfl : v = "26.1" := by simpa using h
    exact hlong (by decide)
  have hkeyed : keyed [.str v] = .error .valueError := by
    unfold keyed
    rw [List.mapM_cons, parseVersion_unreadable hlong]
    rfl
  unfold resolveVersion
  rw [if_neg hany, parseVersion_str (by decide), hkeyed]
  rfl

end CatalogProvider

end Opngms
