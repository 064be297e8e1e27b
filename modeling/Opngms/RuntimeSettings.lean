/-
Opngms/RuntimeSettings.lean

The runtime configuration (services/runtime_settings.py): what an update returns, and what is
read after its commit.

The reader checks every stored value and falls back to the default; the writer checks the values
of its patch only, and returns the other stored values as they are.  Neither checks a default,
which comes from the environment.  And what is returned is not always stored: a dictionary that
equals the loaded one is no `UPDATE`, though `True == 1`, and a `nan` is refused at the commit.  So
when both agree, with every value of its type and within its bounds, is said by `UpdateSound`
(**`update_faithful_iff`**).

A float is the text of its `repr`, as in Opngms/Json.lean; the conversion of an integer and the
order are parameters, and nothing is assumed about them.
-/
import Opngms.SettingsRaces

namespace Opngms

namespace RuntimeSettings

open Dict (agree agree_refl agree_of_same get?_eq_none sameDict)
open SettingsRaces (get?_filter_known)

/-! ### The registry -/

/-- The fields of `Settings` that are defaults here. -/
structure Settings where
  firmwareMaxStatusPolls : Int
  firmwarePollIntervalSeconds : String
  catalogAutoFetch : Bool
  geoipAutoFetch : Bool
  silentAlertEnabled : Bool
  silentAlertAfterHours : Int
  loginMaxAttempts : Int
  loginLockoutWindowSeconds : Int
  sessionTtlHours : Int
  sessionIdleMinutes : Int
  trustedDeviceDays : Int
  perimeterRetentionDays : Int
  eventsRetentionDays : Int
  metricsRetentionDays : Int
  logRetentionDays : Int

/-- The type of a setting. -/
inductive Kind where
  | int
  | float
  | bool
  deriving DecidableEq

/-- `kind.__name__`. -/
def Kind.name : Kind → String
  | .int => "int"
  | .float => "float"
  | .bool => "bool"

/-- `RuntimeSetting`. -/
structure RuntimeSetting where
  key : String
  kind : Kind
  default : Settings → Json
  minimum : Option Json
  maximum : Option Json

/-- An integer within bounds. -/
def intSetting (key : String) (default : Settings → Int) (minimum maximum : Int) :
    RuntimeSetting :=
  ⟨key, .int, fun s => .int (default s), some (.int minimum), some (.int maximum)⟩

/-- A switch. -/
def boolSetting (key : String) (default : Settings → Bool) : RuntimeSetting :=
  ⟨key, .bool, fun s => .bool (default s), none, none⟩

/-- `RUNTIME_SETTINGS`. -/
def runtimeSettings : List RuntimeSetting :=
  [intSetting "firmware_max_status_polls" Settings.firmwareMaxStatusPolls 1 100000,
    ⟨"firmware_poll_interval_seconds", .float, fun s => .float s.firmwarePollIntervalSeconds,
      some (.float "0.1"), some (.float "600.0")⟩,
    boolSetting "catalog_auto_fetch" Settings.catalogAutoFetch,
    boolSetting "geoip_auto_fetch" Settings.geoipAutoFetch,
    boolSetting "silent_alert_enabled" Settings.silentAlertEnabled,
    intSetting "silent_alert_after_hours" Settings.silentAlertAfterHours 1 720,
    intSetting "login_max_attempts" Settings.loginMaxAttempts 1 50,
    intSetting "login_lockout_window_seconds" Settings.loginLockoutWindowSeconds 1 86400,
    intSetting "session_ttl_hours" Settings.sessionTtlHours 1 8760,
    intSetting "session_idle_minutes" Settings.sessionIdleMinutes 1 525600,
    intSetting "trusted_device_days" Settings.trustedDeviceDays 1 365,
    intSetting "perimeter_retention_days" Settings.perimeterRetentionDays 1 3650,
    intSetting "events_retention_days" Settings.eventsRetentionDays 1 3650,
    intSetting "metrics_retention_days" Settings.metricsRetentionDays 1 3650,
    intSetting "log_lake_retention_days" Settings.logRetentionDays 1 3650]

/-- `_BY_KEY.get`. -/
def byKey (key : String) : Option RuntimeSetting := runtimeSettings.find? fun r => r.key = key

/-! ### The check of a value -/

/-- What `_coerce` raises: a `ValueError`, or the `OverflowError` of `float`. -/
inductive CoerceError where
  | value (message : String)
  | overflow
  deriving DecidableEq

/-- Floats: `float(n)` of an integer, none for an `OverflowError`, and `<`. -/
structure Floats where
  ofInt : Int → Option String
  lt : String → String → Bool

section Runtime

variable (fl : Floats)

/-- `v < bound`, for two numbers of one type. -/
def less : Json → Json → Bool
  | .int a, .int b => a < b
  | .float a, .float b => fl.lt a b
  | _, _ => false

/-- The bounds of a setting. -/
def RuntimeSetting.bounded (r : RuntimeSetting) (v : Json) : Except CoerceError Json :=
  if r.minimum.any fun m => less fl v m then
    .error (.value (r.key ++ " must be >= " ++ (r.minimum.getD .null).pyStr))
  else if r.maximum.any fun m => less fl m v then
    .error (.value (r.key ++ " must be <= " ++ (r.maximum.getD .null).pyStr))
  else .ok v

/-- `_coerce`. -/
def coerce (r : RuntimeSetting) (value : Json) : Except CoerceError Json :=
  match value with
  | .bool b =>
    -- a bool is an int to Python, so it comes first
    if r.kind = .bool then .ok (.bool b)
    else .error (.value (r.key ++ " must be a " ++ r.kind.name))
  | value =>
    match r.kind with
    | .bool => .error (.value (r.key ++ " must be a boolean"))
    | .int =>
      match value with
      | .int n => r.bounded fl (.int n)
      | _ => .error (.value (r.key ++ " must be an integer"))
    | .float =>
      match value with
      | .int n =>
        match fl.ofInt n with
        | some f => r.bounded fl (.float f)
        | none => .error .overflow
      | .float f => r.bounded fl (.float f)
      | _ => .error (.value (r.key ++ " must be a number"))

variable (s : Settings)

/-- `runtime_defaults`: the fields are of the types of the settings. -/
def runtimeDefaults : Dict := runtimeSettings.map fun r => (r.key, r.default s)

/-- `_load_overrides`: what is no `dict` counts as empty. -/
def loadOverrides : Option Json → Dict
  | some (.obj kvs) => kvs
  | _ => []

/-- One stored value in `get_runtime_config`. -/
def mergeStored (cfg : Dict) (kv : String × Json) : Except CoerceError Dict :=
  match byKey kv.1 with
  | none => .ok cfg
  | some r =>
    match coerce fl r kv.2 with
    | .ok v => .ok (cfg.set kv.1 v)
    | .error (.value _) => .ok cfg
    | .error .overflow => .error .overflow

/-- `get_runtime_config`, of the stored row. -/
def getRuntimeConfig (row : Option Json) : Except CoerceError Dict :=
  (loadOverrides row).foldlM (mergeStored fl) (runtimeDefaults s)

/-- One value of a patch. -/
def mergePatched (overrides : Dict) (kv : String × Json) : Except CoerceError Dict :=
  match byKey kv.1 with
  | none => .error (.value ("unknown setting: " ++ kv.1))
  | some r => do
    let v ← coerce fl r kv.2
    return overrides.set kv.1 v

/-- The overrides after a patch, without the keys that are not in the registry. -/
def patched (row : Option Json) (patch : Dict) : Except CoerceError Dict := do
  let overrides ← patch.foldlM (mergePatched fl) (loadOverrides row)
  return overrides.filter fun kv => (byKey kv.1).isSome

/-- `{**a, **b}`. -/
def merged (a b : Dict) : Dict := b.foldl (fun d kv => d.set kv.1 kv.2) a

/-- The row after the commit, none where the commit is refused: an equal dictionary is no `UPDATE`,
and the column takes no `nan`.  What the column takes comes back as it is: a number within bounds
is written without an exponent. -/
def committed (row : Option Json) (overrides : Dict) : Option (Option Json) :=
  if (match row with | some (.obj old) => sameDict old overrides | _ => false) then some row
  else if (Json.obj overrides).storable then some (some (.obj overrides))
  else none

/-- `update_runtime_config`: what it returns or raises, and the row after the commit; nothing is
committed where it raises. -/
def updateRuntimeConfig (row : Option Json) (patch : Json) :
    Except CoerceError Dict × Option (Option Json) :=
  match patch with
  | .obj kvs =>
    if kvs.isEmpty then (.error (.value "empty patch"), some row)
    else
      match patched fl row kvs with
      | .error e => (.error e, some row)
      | .ok overrides => (.ok (merged (runtimeDefaults s) overrides), committed row overrides)
  | _ => (.error (.value "empty patch"), some row)

/-! ### What is to hold -/

/-- An object has each key once. -/
def Distinct : Json → Prop
  | .obj kvs => (Dict.keys kvs).Nodup
  | _ => True

/-- A value of an integer or a boolean setting is of its type and within its bounds. -/
def RuntimeSetting.Typed (r : RuntimeSetting) (v : Json) : Prop :=
  match r.kind with
  | .int => ∃ n, v = .int n ∧ (∀ m, r.minimum = some (.int m) → m ≤ n) ∧
      ∀ m, r.maximum = some (.int m) → n ≤ m
  | .bool => ∃ b, v = .bool b
  | .float => True

/-- What was returned is what is read from the row after the commit: each key is in both or in
neither, the values under it are the same, and those of integers and booleans are of their types
and within bounds. -/
def Faithful (same : Json → Json → Prop) (returned : Dict) (after : Option (Option Json)) : Prop :=
  ∃ row cfg, after = some row ∧ getRuntimeConfig fl s row = .ok cfg ∧
    (∀ k, Option.Rel same (returned.get? k) (cfg.get? k)) ∧
    ∀ r ∈ runtimeSettings, ∃ v w, returned.get? r.key = some v ∧ cfg.get? r.key = some w ∧
      r.Typed v ∧ r.Typed w

/-- A stored value that the patch leaves alone: of an integer or a boolean setting it is of its type
and within bounds; of the other one it is what the reader makes of it. -/
def RuntimeSetting.Sound (same : Json → Json → Prop) (r : RuntimeSetting) (v : Json) : Prop :=
  match r.kind with
  | .float =>
    match coerce fl r v with
    | .ok w => same v w
    | .error (.value _) => same v (r.default s)
    | .error .overflow => False
  | _ => r.Typed v

/-- What the patch leaves alone is sound: the stored values, and the defaults that stand. -/
def LeftSound (same : Json → Json → Prop) (stored : Dict) (patch : Dict) : Prop :=
  ∀ r ∈ runtimeSettings, r.key ∉ patch.keys →
    match stored.get? r.key with
    | some v => r.Sound fl s same v
    | none => r.Typed (r.default s)

/-- Some value `w` of a setting that the patch sets, after its check. -/
def Sets (patch : Dict) (r : RuntimeSetting) (w : Json) : Prop :=
  ∃ v, patch.get? r.key = some v ∧ coerce fl r v = .ok w

/-- The patch makes no other dictionary of the stored one, as Python compares them. -/
def Idle (stored patch : Dict) : Prop :=
  (∀ k ∈ stored.keys, (byKey k).isSome = true) ∧
    ∀ r ∈ runtimeSettings, ∀ w, Sets fl patch r w → agree (stored.get? r.key) (some w) = true

/-- The reader makes the value `w` of a stored one, or has it as its default. -/
def RuntimeSetting.Regained (same : Json → Json → Prop) (r : RuntimeSetting) (v w : Json) : Prop :=
  match coerce fl r v with
  | .ok u => same w u
  | .error (.value _) => same w (r.default s) ∧ r.Typed (r.default s)
  | .error .overflow => False

/-- When an accepted patch is faithful. -/
structure UpdateSound (same : Json → Json → Prop) (stored patch : Dict) : Prop where
  left : LeftSound fl s same stored patch
  /-- What the patch sets is no `nan`. -/
  storable : ¬ Idle fl stored patch →
    ∀ r ∈ runtimeSettings, ∀ w, Sets fl patch r w → w.storable = true
  /-- Where the row stays as it is, the values of the patch are read from it all the same. -/
  idle : Idle fl stored patch → ∀ r ∈ runtimeSettings, ∀ w, Sets fl patch r w →
    ∀ v, stored.get? r.key = some v → r.Regained fl s same v w

/-! ### Dictionaries -/

theorem get?_merged {b : Dict} (hnodup : b.keys.Nodup) (a : Dict) (k : String) :
    (merged a b).get? k = (b.get? k).or (a.get? k) := by
  unfold merged
  induction b generalizing a with
  | nil => rfl
  | cons kv b ih =>
    obtain ⟨k', v⟩ := kv
    obtain ⟨hnot, hnodup⟩ := List.nodup_cons.mp hnodup
    rw [List.foldl_cons, ih hnodup, Dict.get?_cons, Dict.get?_set]
    by_cases heq : k' = k
    · subst heq
      rw [get?_eq_none hnot]
      simp
    · simp [heq]

/-! ### The registry -/

theorem byKey_some {k : String} {r : RuntimeSetting} (h : byKey k = some r) :
    r ∈ runtimeSettings ∧ r.key = k :=
  ⟨List.mem_of_find?_eq_some h, by simpa using List.find?_some h⟩

theorem byKey_of_mem {r : RuntimeSetting} (h : r ∈ runtimeSettings) : byKey r.key = some r := by
  have hall : ∀ rs : List RuntimeSetting, (rs.map RuntimeSetting.key).Nodup → r ∈ rs →
      (rs.find? fun r' => r'.key = r.key) = some r := by
    intro rs hnodup hr
    induction rs with
    | nil => cases hr
    | cons r' rs ih =>
      obtain ⟨hnot, hnodup⟩ := List.nodup_cons.mp hnodup
      rw [List.find?_cons]
      rcases List.mem_cons.mp hr with rfl | hr
      · simp
      · have hne : r'.key ≠ r.key := fun heq => hnot (heq ▸ List.mem_map_of_mem hr)
        simp only [hne, decide_false]
        exact ih hnodup hr
  exact hall _ (by decide) h

theorem get?_defaults {r : RuntimeSetting} (h : r ∈ runtimeSettings) :
    (runtimeDefaults s).get? r.key = some (r.default s) := by
  have hfind : Dict.get? (runtimeDefaults s) r.key = (byKey r.key).map fun r => r.default s := by
    unfold runtimeDefaults Dict.get? byKey
    rw [List.find?_map, Option.map_map]
    congr 1
  rw [hfind, byKey_of_mem h]
  rfl

theorem get?_defaults_none {k : String} (h : byKey k = none) :
    (runtimeDefaults s).get? k = none := by
  apply get?_eq_none
  intro hk
  obtain ⟨kv, hkv, rfl⟩ := List.mem_map.mp hk
  obtain ⟨r, hr, rfl⟩ := List.mem_map.mp hkv
  rw [byKey_of_mem hr] at h
  cases h

/-! ### The check -/

theorem bounded_eq {r : RuntimeSetting} {v w : Json} (h : r.bounded fl v = .ok w) : w = v := by
  unfold RuntimeSetting.bounded at h
  split at h
  · cases h
  · split at h
    · cases h
    · exact (Except.ok.inj h).symm

theorem bounded_int {r : RuntimeSetting} {n : Int} :
    r.bounded fl (.int n) = .ok (.int n) ↔
      (∀ m, r.minimum = some (.int m) → m ≤ n) ∧ ∀ m, r.maximum = some (.int m) → n ≤ m := by
  have hmin : (r.minimum.any fun m => less fl (.int n) m) = true ↔
      ∃ m, r.minimum = some (.int m) ∧ n < m := by
    cases r.minimum with
    | none => simp
    | some m => cases m <;> simp [less]
  have hmax : (r.maximum.any fun m => less fl m (.int n)) = true ↔
      ∃ m, r.maximum = some (.int m) ∧ m < n := by
    cases r.maximum with
    | none => simp
    | some m => cases m <;> simp [less]
  unfold RuntimeSetting.bounded
  constructor
  · intro h
    split at h
    · cases h
    · rename_i hnotmin
      split at h
      · cases h
      · rename_i hnotmax
        rw [hmin] at hnotmin
        rw [hmax] at hnotmax
        exact ⟨fun m hm => not_lt.mp fun hlt => hnotmin ⟨m, hm, hlt⟩,
          fun m hm => not_lt.mp fun hlt => hnotmax ⟨m, hm, hlt⟩⟩
  · rintro ⟨hlow, hhigh⟩
    rw [if_neg, if_neg]
    · rw [hmax]
      rintro ⟨m, hm, hlt⟩
      exact absurd hlt (not_lt.mpr (hhigh m hm))
    · rw [hmin]
      rintro ⟨m, hm, hlt⟩
      exact absurd hlt (not_lt.mpr (hlow m hm))

theorem bounded_overflow {r : RuntimeSetting} {v : Json} : r.bounded fl v ≠ .error .overflow := by
  unfold RuntimeSetting.bounded
  split
  · nofun
  · split <;> nofun

theorem coerce_fixed {r : RuntimeSetting} (hkind : r.kind ≠ .float) (v : Json) :
    (∀ w, coerce fl r v = .ok w ↔ w = v ∧ r.Typed v) ∧ coerce fl r v ≠ .error .overflow := by
  unfold RuntimeSetting.Typed
  cases hk : r.kind with
  | float => exact absurd hk hkind
  | bool =>
    cases v with
    | bool b =>
      have hb : coerce fl r (.bool b) = .ok (.bool b) := if_pos hk
      rw [hb]
      exact ⟨fun w => ⟨fun h => ⟨(Except.ok.inj h).symm, b, rfl⟩, fun h => h.1 ▸ rfl⟩, nofun⟩
    | _ =>
      simp only [coerce, hk]
      exact ⟨fun w => ⟨nofun, fun h => nomatch h.2⟩, nofun⟩
  | int =>
    cases v with
    | bool b =>
      have hb : coerce fl r (.bool b) = .error _ := if_neg (by rw [hk]; decide)
      rw [hb]
      exact ⟨fun w => ⟨nofun, fun h => nomatch h.2⟩, nofun⟩
    | int n =>
      simp only [coerce, hk]
      refine ⟨fun w => ⟨fun h => ?_, ?_⟩, bounded_overflow fl⟩
      · have hw := bounded_eq fl h
        subst hw
        exact ⟨rfl, n, rfl, (bounded_int fl).mp h⟩
      · rintro ⟨rfl, m, hm, hbounds⟩
        obtain rfl := Json.int.inj hm
        exact (bounded_int fl).mpr hbounds
    | _ =>
      simp only [coerce, hk]
      exact ⟨fun w => ⟨nofun, fun h => nomatch h.2⟩, nofun⟩

theorem coerce_again {r : RuntimeSetting} {v w : Json} (h : coerce fl r v = .ok w) :
    coerce fl r w = .ok w := by
  by_cases hkind : r.kind = .float
  · have hfloat : ∀ f, r.bounded fl (.float f) = .ok w → coerce fl r w = .ok w := by
      intro f hf
      have hw := bounded_eq fl hf
      subst hw
      simpa only [coerce, hkind] using hf
    cases v with
    | bool b =>
      have hb : coerce fl r (.bool b) = .error _ := if_neg (by rw [hkind]; decide)
      rw [hb] at h
      cases h
    | int n =>
      simp only [coerce, hkind] at h
      split at h
      · exact hfloat _ h
      · cases h
    | float f =>
      simp only [coerce, hkind] at h
      exact hfloat f h
    | _ =>
      simp only [coerce, hkind] at h
      cases h
  · obtain ⟨rfl, -⟩ := ((coerce_fixed fl hkind v).1 w).mp h
    exact h

theorem typed_of_coerce {r : RuntimeSetting} {v w : Json} (h : coerce fl r v = .ok w) :
    r.Typed w := by
  by_cases hkind : r.kind = .float
  · simp only [RuntimeSetting.Typed, hkind]
  · obtain ⟨rfl, htyped⟩ := ((coerce_fixed fl hkind v).1 w).mp h
    exact htyped

/-! ### Reading and writing -/

/-- What the reader makes of a stored value. -/
def readBack (r : RuntimeSetting) : Option Json → Json
  | some v =>
    match coerce fl r v with
    | .ok w => w
    | .error _ => r.default s
  | none => r.default s

theorem mergeStored_cases (cfg : Dict) (kv : String × Json) :
    ((∃ r, byKey kv.1 = some r ∧ coerce fl r kv.2 = .error .overflow) ∧
      mergeStored fl cfg kv = .error .overflow) ∨
    ((∀ r, byKey kv.1 = some r → coerce fl r kv.2 ≠ .error .overflow) ∧
      ∃ mid, mergeStored fl cfg kv = .ok mid ∧ ∀ k, mid.get? k =
        (if kv.1 = k then (byKey k).bind fun r => (coerce fl r kv.2).toOption else none).or
          (cfg.get? k)) := by
  unfold mergeStored
  cases hkey : byKey kv.1 with
  | none =>
    refine .inr ⟨nofun, cfg, rfl, fun k => ?_⟩
    split
    · rename_i heq
      rw [← heq, hkey]
      rfl
    · rfl
  | some r =>
    cases hcoerce : coerce fl r kv.2 with
    | ok v =>
      refine .inr ⟨fun r' hr' => ?_, cfg.set kv.1 v, by simp only [hcoerce], fun k => ?_⟩
      · obtain rfl := Option.some.inj hr'
        rw [hcoerce]
        nofun
      · rw [Dict.get?_set]
        split
        · rename_i heq
          rw [← heq, hkey, Option.bind_some, hcoerce]
          rfl
        · rfl
    | error e =>
      cases e with
      | overflow => exact .inl ⟨⟨r, rfl, hcoerce⟩, by simp only [hcoerce]⟩
      | value message =>
        refine .inr ⟨fun r' hr' => ?_, cfg, by simp only [hcoerce], fun k => ?_⟩
        · obtain rfl := Option.some.inj hr'
          rw [hcoerce]
          nofun
        · split
          · rename_i heq
            rw [← heq, hkey, Option.bind_some, hcoerce]
            rfl
          · rfl

theorem foldlM_mergeStored {stored : Dict} (hnodup : stored.keys.Nodup) (cfg : Dict) :
    ((∃ kv ∈ stored, ∃ r, byKey kv.1 = some r ∧ coerce fl r kv.2 = .error .overflow) ∧
      stored.foldlM (mergeStored fl) cfg = .error .overflow) ∨
    ((∀ kv ∈ stored, ∀ r, byKey kv.1 = some r → coerce fl r kv.2 ≠ .error .overflow) ∧
      ∃ out, stored.foldlM (mergeStored fl) cfg = .ok out ∧
        ∀ k, out.get? k = ((byKey k).bind fun r => (stored.get? k).bind fun v =>
          (coerce fl r v).toOption).or (cfg.get? k)) := by
  induction stored generalizing cfg with
  | nil => exact .inr ⟨nofun, cfg, rfl, fun k => by cases byKey k <;> rfl⟩
  | cons kv stored ih =>
    obtain ⟨hnot, hnodup⟩ := List.nodup_cons.mp hnodup
    rw [List.foldlM_cons]
    rcases mergeStored_cases fl cfg kv with ⟨⟨r, hr, hover⟩, herror⟩ | ⟨hfine, mid, hmid, hget⟩
    · exact .inl ⟨⟨kv, List.mem_cons_self, r, hr, hover⟩, by rw [herror]; rfl⟩
    · rw [hmid, except_ok_bind]
      rcases ih hnodup mid with ⟨⟨kv', hkv', hover⟩, herror⟩ | ⟨hrest, out, hout, hgetout⟩
      · exact .inl ⟨⟨kv', List.mem_cons_of_mem _ hkv', hover⟩, herror⟩
      · refine .inr ⟨fun kv' hkv' => ?_, out, hout, fun k => ?_⟩
        · rcases List.mem_cons.mp hkv' with rfl | hkv'
          · exact hfine
          · exact hrest kv' hkv'
        · obtain ⟨k', v⟩ := kv
          rw [hgetout, hget, Dict.get?_cons]
          by_cases heq : k' = k
          · subst heq
            rw [get?_eq_none hnot]
            cases byKey k' <;> simp
          · simp [heq]

theorem getRuntimeConfig_spec {row : Option Json} (hrow : (loadOverrides row).keys.Nodup) :
    ((∃ r ∈ runtimeSettings, ∃ v, (loadOverrides row).get? r.key = some v ∧
        coerce fl r v = .error .overflow) ∧
      getRuntimeConfig fl s row = .error .overflow) ∨
    ((∀ r ∈ runtimeSettings, ∀ v, (loadOverrides row).get? r.key = some v →
        coerce fl r v ≠ .error .overflow) ∧
      ∃ cfg, getRuntimeConfig fl s row = .ok cfg ∧
        (∀ r ∈ runtimeSettings,
          cfg.get? r.key = some (readBack fl s r ((loadOverrides row).get? r.key))) ∧
        ∀ k, byKey k = none → cfg.get? k = none) := by
  rcases foldlM_mergeStored fl hrow (runtimeDefaults s) with
    ⟨⟨kv, hkv, r, hr, hover⟩, herror⟩ | ⟨hfine, cfg, hcfg, hout⟩
  · obtain ⟨hr, hkey⟩ := byKey_some hr
    exact .inl ⟨⟨r, hr, kv.2, hkey ▸ Dict.get?_of_mem hrow hkv, hover⟩, herror⟩
  · refine .inr ⟨fun r hr v hv => hfine _ (Dict.mem_of_get? hv) r (byKey_of_mem hr), cfg, hcfg, ?_, ?_⟩
    · intro r hr
      rw [hout, byKey_of_mem hr, get?_defaults s hr, Option.bind_some]
      unfold readBack
      cases hv : (loadOverrides row).get? r.key with
      | none => rfl
      | some v =>
        rw [Option.bind_some]
        show _ = some (match coerce fl r v with | .ok w => w | .error _ => r.default s)
        cases coerce fl r v <;> rfl
    · intro k hk
      rw [hout, hk, get?_defaults_none s hk]
      rfl

theorem foldlM_mergePatched {patch : Dict} (hnodup : patch.keys.Nodup) {stored out : Dict}
    (hstored : stored.keys.Nodup) (h : patch.foldlM (mergePatched fl) stored = .ok out) :
    out.keys.Nodup ∧
    (∀ k v, patch.get? k = some v → ∃ r w, byKey k = some r ∧ coerce fl r v = .ok w ∧
      out.get? k = some w) ∧
    ∀ k, patch.get? k = none → out.get? k = stored.get? k := by
  induction patch generalizing stored with
  | nil =>
    obtain rfl := Except.ok.inj h
    exact ⟨hstored, nofun, fun _ _ => rfl⟩
  | cons kv patch ih =>
    obtain ⟨key, value⟩ := kv
    obtain ⟨hnot, hnodup⟩ := List.nodup_cons.mp hnodup
    rw [List.foldlM_cons] at h
    obtain ⟨mid, hmid, h⟩ := except_bind_ok h
    have hstep : ∃ r w, byKey key = some r ∧ coerce fl r value = .ok w ∧ mid = stored.set key w := by
      unfold mergePatched at hmid
      cases hkey : byKey key with
      | none =>
        simp only [hkey] at hmid
        cases hmid
      | some r =>
        simp only [hkey] at hmid
        obtain ⟨w, hw, hmid⟩ := except_bind_ok hmid
        exact ⟨r, w, rfl, hw, (Except.ok.inj hmid).symm⟩
    obtain ⟨r, w, hr, hw, rfl⟩ := hstep
    obtain ⟨hout, hin, hrest⟩ := ih hnodup (Dict.nodup_set hstored key w) h
    refine ⟨hout, fun k v hv => ?_, fun k hk => ?_⟩
    · rw [Dict.get?_cons] at hv
      split at hv
      · rename_i heq
        subst heq
        obtain rfl := Option.some.inj hv
        exact ⟨r, w, hr, hw, by rw [hrest _ (get?_eq_none hnot), Dict.get?_set, if_pos rfl]⟩
      · exact hin k v hv
    · rw [Dict.get?_cons] at hk
      split at hk
      · cases hk
      · rename_i hne
        rw [hrest k hk, Dict.get?_set, if_neg hne]

/-- What an accepted patch makes of the stored dictionary. -/
structure Patched (stored patch overrides : Dict) : Prop where
  nonempty : patch ≠ []
  nodup : overrides.keys.Nodup
  known : ∀ k ∈ overrides.keys, (byKey k).isSome = true
  accepted : ∀ k v, patch.get? k = some v →
    ∃ r ∈ runtimeSettings, r.key = k ∧ ∃ w, coerce fl r v = .ok w
  sets : ∀ r ∈ runtimeSettings, ∀ w, Sets fl patch r w → overrides.get? r.key = some w
  left : ∀ r ∈ runtimeSettings, r.key ∉ patch.keys →
    overrides.get? r.key = stored.get? r.key

theorem update_accepted {row : Option Json} (hrow : (loadOverrides row).keys.Nodup) {patch : Json}
    (hpatch : Distinct patch) {returned : Dict}
    (h : (updateRuntimeConfig fl s row patch).1 = .ok returned) :
    ∃ kvs overrides : Dict, patch = .obj kvs ∧ Patched fl (loadOverrides row) kvs overrides ∧
      returned = merged (runtimeDefaults s) overrides ∧
      (updateRuntimeConfig fl s row patch).2 = committed row overrides := by
  cases patch with
  | obj kvs =>
    unfold updateRuntimeConfig at h ⊢
    by_cases hempty : kvs.isEmpty = true
    · simp only [hempty, if_true] at h
      cases h
    simp only [hempty, Bool.false_eq_true, if_false] at h ⊢
    cases hpatched : patched fl row kvs with
    | error e =>
      simp only [hpatched] at h
      cases h
    | ok overrides =>
      simp only [hpatched] at h ⊢
      refine ⟨kvs, overrides, rfl, ?_, (Except.ok.inj h).symm, rfl⟩
      obtain ⟨out, hout, hfilter⟩ := except_bind_ok hpatched
      obtain rfl := Except.ok.inj hfilter
      obtain ⟨hnodup, hin, hrest⟩ := foldlM_mergePatched fl hpatch hrow hout
      have hget : ∀ r ∈ runtimeSettings,
          Dict.get? (out.filter fun kv => (byKey kv.1).isSome) r.key = out.get? r.key := fun r hr =>
        get?_filter_known (p := fun k => (byKey k).isSome) (by rw [byKey_of_mem hr]; rfl)
      refine ⟨fun hnil => hempty (hnil ▸ rfl), hnodup.sublist (List.filter_sublist.map _),
        fun k hk => ?_, fun k v hv => ?_, ?_, fun r hr hk => ?_⟩
      · obtain ⟨kv, hkv, rfl⟩ := List.mem_map.mp hk
        exact (List.mem_filter.mp hkv).2
      · obtain ⟨r, w, hr, hw, -⟩ := hin k v hv
        exact ⟨r, (byKey_some hr).1, (byKey_some hr).2, w, hw⟩
      · rintro r hr w ⟨v, hv, hw⟩
        obtain ⟨r', w', hr', hw', hget'⟩ := hin _ v hv
        obtain rfl := Option.some.inj ((byKey_of_mem hr).symm.trans hr')
        obtain rfl := Except.ok.inj (hw.symm.trans hw')
        rw [hget r hr, hget']
      · rw [hget r hr, hrest _ (get?_eq_none hk)]
  | _ => cases h

theorem update_rejected {row : Option Json} {patch : Json} {e : CoerceError}
    (h : (updateRuntimeConfig fl s row patch).1 = .error e) :
    (updateRuntimeConfig fl s row patch).2 = some row := by
  cases patch with
  | obj kvs =>
    unfold updateRuntimeConfig at h ⊢
    by_cases hempty : kvs.isEmpty = true
    · simp only [hempty, if_true]
    · simp only [hempty, Bool.false_eq_true, if_false] at h ⊢
      cases hpatched : patched fl row kvs with
      | error e => rfl
      | ok overrides =>
        simp only [hpatched] at h
        cases h
  | _ => rfl

section Patched

variable {stored patch overrides : Dict} (h : Patched fl stored patch overrides)

include h

theorem Patched.setting {r : RuntimeSetting} (hr : r ∈ runtimeSettings) (hk : r.key ∈ patch.keys) :
    ∃ w, Sets fl patch r w := by
  obtain ⟨v, hv⟩ := Option.isSome_iff_exists.mp (Dict.mem_keys.mp hk)
  obtain ⟨r', hr', hkey, w, hw⟩ := h.accepted _ v hv
  have hsome := (byKey_of_mem hr').symm.trans (hkey ▸ byKey_of_mem hr)
  obtain rfl := Option.some.inj hsome
  exact ⟨w, v, hv, hw⟩

theorem Patched.returned {r : RuntimeSetting} (hr : r ∈ runtimeSettings) :
    (merged (runtimeDefaults s) overrides).get? r.key =
      some ((overrides.get? r.key).getD (r.default s)) := by
  rw [get?_merged h.nodup, get?_defaults s hr]
  cases overrides.get? r.key <;> rfl

theorem Patched.returned_none {k : String} (hk : byKey k = none) :
    (merged (runtimeDefaults s) overrides).get? k = none := by
  rw [get?_merged h.nodup, get?_defaults_none s hk, Option.or_none]
  apply get?_eq_none
  intro hmem
  have hknown := h.known k hmem
  rw [hk] at hknown
  cases hknown

theorem Patched.sameDict_iff : sameDict stored overrides = true ↔ Idle fl stored patch := by
  constructor
  · intro hsame
    refine ⟨fun k hk => h.known k ?_, fun r hr w hw => ?_⟩
    · obtain ⟨v, hv⟩ := Option.isSome_iff_exists.mp (Dict.mem_keys.mp hk)
      have hagree := agree_of_same hsame k
      rw [hv] at hagree
      rw [Dict.mem_keys]
      cases hout : overrides.get? k with
      | some u => rfl
      | none =>
        rw [hout] at hagree
        cases hagree
    · rw [← h.sets r hr w hw]
      exact agree_of_same hsame r.key
  · rintro ⟨hknown, hagree⟩
    refine List.all_eq_true.mpr fun k hk => ?_
    have hk : (byKey k).isSome = true := (List.mem_append.mp hk).elim (hknown k) (h.known k)
    obtain ⟨r, hsome⟩ := Option.isSome_iff_exists.mp hk
    obtain ⟨hr, rfl⟩ := byKey_some hsome
    by_cases hkey : r.key ∈ patch.keys
    · obtain ⟨w, hw⟩ := h.setting fl hr hkey
      rw [h.sets r hr w hw]
      exact hagree r hr w hw
    · rw [h.left r hr hkey]
      exact agree_refl _

theorem Patched.stored_ne_nil (hidle : Idle fl stored patch) : stored ≠ [] := by
  rintro rfl
  obtain ⟨⟨k, v⟩, rest, hpatch⟩ := List.exists_cons_of_ne_nil h.nonempty
  obtain ⟨r, hr, rfl, w, hw⟩ := h.accepted k v (by rw [hpatch, Dict.get?_cons, if_pos rfl])
  obtain ⟨w', hw'⟩ := h.setting fl hr (by rw [hpatch]; exact List.mem_cons_self)
  exact Bool.noConfusion (hidle.2 r hr w' hw')

theorem Patched.storable_iff (hstored : ∀ kv ∈ stored, kv.2.storable = true) :
    (Json.obj overrides).storable = true ↔
      ∀ r ∈ runtimeSettings, ∀ w, Sets fl patch r w → w.storable = true := by
  have hkeys : ∀ r ∈ runtimeSettings, Json.storableText r.key = true := by decide
  rw [Json.storable_obj, List.all_eq_true]
  constructor
  · intro hall r hr w hw
    exact (Bool.and_eq_true_iff.mp (hall _ (Dict.mem_of_get? (h.sets r hr w hw)))).2
  · rintro hall ⟨k, v⟩ hkv
    obtain ⟨r, hsome⟩ := Option.isSome_iff_exists.mp (h.known k (List.mem_map_of_mem hkv))
    obtain ⟨hr, rfl⟩ := byKey_some hsome
    have hget := Dict.get?_of_mem h.nodup hkv
    refine Bool.and_eq_true_iff.mpr ⟨hkeys r hr, ?_⟩
    by_cases hkey : r.key ∈ patch.keys
    · obtain ⟨w, hw⟩ := h.setting fl hr hkey
      obtain rfl := Option.some.inj ((h.sets r hr w hw).symm.trans hget)
      exact hall r hr w hw
    · rw [h.left r hr hkey] at hget
      exact hstored _ (Dict.mem_of_get? hget)

end Patched

/-! ### One setting -/

section Setting

variable {same : Json → Json → Prop}

/-- A setting of which a value is returned: what is read from the stored one is the same, and both
are of its type. -/
structure Agrees (same : Json → Json → Prop) (r : RuntimeSetting) (given : Json)
    (stored : Option Json) : Prop where
  reads : ∀ v, stored = some v → coerce fl r v ≠ .error .overflow
  same : same given (readBack fl s r stored)
  returned : r.Typed given
  read : r.Typed (readBack fl s r stored)

theorem readBack_ok {r : RuntimeSetting} {v w : Json} (h : coerce fl r v = .ok w) :
    readBack fl s r (some v) = w := by
  simp only [readBack, h]

theorem agrees_of_checked (hrefl : ∀ v, same v v) {r : RuntimeSetting} {v : Json}
    (h : coerce fl r v = .ok v) : Agrees fl s same r v (some v) where
  reads := by
    intro v' hv'
    obtain rfl := Option.some.inj hv'
    rw [h]
    nofun
  same := by
    rw [readBack_ok fl s h]
    exact hrefl v
  returned := typed_of_coerce fl h
  read := by
    rw [readBack_ok fl s h]
    exact typed_of_coerce fl h

/-- What is sound is returned as it is read. -/
theorem agrees_iff (hrefl : ∀ v, same v v) {r : RuntimeSetting} {stored : Option Json} :
    Agrees fl s same r (stored.getD (r.default s)) stored ↔
      match stored with
      | some v => r.Sound fl s same v
      | none => r.Typed (r.default s) := by
  cases stored with
  | none =>
    constructor
    · exact fun h => h.returned
    · exact fun h => ⟨nofun, hrefl _, h, h⟩
  | some v =>
    by_cases hkind : r.kind = .float
    · have hfree : ∀ w, r.Typed w := fun w => by simp only [RuntimeSetting.Typed, hkind]
      show _ ↔ r.Sound fl s same v
      simp only [RuntimeSetting.Sound, hkind]
      cases hcoerce : coerce fl r v with
      | ok w =>
        have hread := readBack_ok fl s hcoerce
        constructor
        · exact fun h => hread ▸ h.same
        · intro h
          refine ⟨fun v' hv' => ?_, hread ▸ h, hfree _, hfree _⟩
          obtain rfl := Option.some.inj hv'
          rw [hcoerce]
          nofun
      | error e =>
        have hread : readBack fl s r (some v) = r.default s := by simp only [readBack, hcoerce]
        cases e with
        | overflow => exact ⟨fun h => h.reads v rfl hcoerce, False.elim⟩
        | value message =>
          constructor
          · exact fun h => hread ▸ h.same
          · intro h
            refine ⟨fun v' hv' => ?_, hread ▸ h, hfree _, hfree _⟩
            obtain rfl := Option.some.inj hv'
            rw [hcoerce]
            nofun
    · have hsound : r.Sound fl s same v ↔ r.Typed v := by
        unfold RuntimeSetting.Sound
        cases hk : r.kind with
        | float => exact absurd hk hkind
        | int => exact Iff.rfl
        | bool => exact Iff.rfl
      show _ ↔ r.Sound fl s same v
      rw [hsound]
      constructor
      · exact fun h => h.returned
      · exact fun h => agrees_of_checked fl s hrefl (((coerce_fixed fl hkind v).1 v).mpr ⟨rfl, h⟩)

theorem agrees_iff_regained {r : RuntimeSetting} {v w : Json} (hw : r.Typed w) :
    Agrees fl s same r w (some v) ↔ r.Regained fl s same v w := by
  have hfine : ∀ {e : Except CoerceError Json}, coerce fl r v = e → e ≠ .error .overflow →
      ∀ v', some v = some v' → coerce fl r v' ≠ .error .overflow := by
    rintro e he hne v' hv'
    obtain rfl := Option.some.inj hv'
    exact he ▸ hne
  unfold RuntimeSetting.Regained
  cases hcoerce : coerce fl r v with
  | ok u =>
    have hread := readBack_ok fl s hcoerce
    constructor
    · exact fun h => hread ▸ h.same
    · exact fun h => ⟨hfine hcoerce nofun, hread ▸ h, hw, hread ▸ typed_of_coerce fl hcoerce⟩
  | error e =>
    have hread : readBack fl s r (some v) = r.default s := by simp only [readBack, hcoerce]
    cases e with
    | overflow => exact ⟨fun h => h.reads v rfl hcoerce, False.elim⟩
    | value message =>
      constructor
      · exact fun h => ⟨hread ▸ h.same, hread ▸ h.read⟩
      · rintro ⟨hsame, htyped⟩
        exact ⟨hfine hcoerce nofun, hread ▸ hsame, hw, hread ▸ htyped⟩

theorem faithful_iff_agrees {stored patch overrides : Dict} (h : Patched fl stored patch overrides)
    {row : Option Json} (hrow : (loadOverrides row).keys.Nodup) :
    Faithful fl s same (merged (runtimeDefaults s) overrides) (some row) ↔
      ∀ r ∈ runtimeSettings, Agrees fl s same r ((overrides.get? r.key).getD (r.default s))
        ((loadOverrides row).get? r.key) := by
  have hspec := getRuntimeConfig_spec fl s hrow
  constructor
  · rintro ⟨row, cfg, hafter, hcfg, hsame, htyped⟩ r hr
    obtain rfl := Option.some.inj hafter
    rcases hspec with ⟨-, herror⟩ | ⟨hfine, cfg', hcfg', hread, -⟩
    · cases herror.symm.trans hcfg
    obtain rfl := Except.ok.inj (hcfg'.symm.trans hcfg)
    obtain ⟨v, w, hv, hw, htv, htw⟩ := htyped r hr
    have hrel := hsame r.key
    rw [h.returned fl s hr, hread r hr] at hrel
    rw [h.returned fl s hr] at hv
    rw [hread r hr] at hw
    obtain rfl := Option.some.inj hv
    obtain rfl := Option.some.inj hw
    exact ⟨hfine r hr, Option.rel_some_some.mp hrel, htv, htw⟩
  · intro hagrees
    rcases hspec with ⟨⟨r, hr, v, hv, hover⟩, -⟩ | ⟨-, cfg, hcfg, hread, hnone⟩
    · exact absurd hover ((hagrees r hr).reads v hv)
    refine ⟨row, cfg, rfl, hcfg, fun k => ?_, fun r hr => ?_⟩
    · cases hk : byKey k with
      | none =>
        rw [h.returned_none fl s hk, hnone k hk]
        exact Option.Rel.none
      | some r =>
        obtain ⟨hr, rfl⟩ := byKey_some hk
        rw [h.returned fl s hr, hread r hr]
        exact Option.Rel.some (hagrees r hr).same
    · exact ⟨_, _, h.returned fl s hr, hread r hr, (hagrees r hr).returned, (hagrees r hr).read⟩

theorem faithful_iff_idle (hrefl : ∀ v, same v v) {row : Option Json}
    (hrow : (loadOverrides row).keys.Nodup) {patch overrides : Dict}
    (h : Patched fl (loadOverrides row) patch overrides)
    (hidle : Idle fl (loadOverrides row) patch) :
    Faithful fl s same (merged (runtimeDefaults s) overrides) (some row) ↔
      UpdateSound fl s same (loadOverrides row) patch := by
  rw [faithful_iff_agrees fl s h hrow]
  constructor
  · intro hagrees
    refine ⟨fun r hr hk => ?_, fun hnot => absurd hidle hnot, fun _ r hr w hw v hv => ?_⟩
    · have hleft := hagrees r hr
      rw [h.left r hr hk] at hleft
      exact (agrees_iff fl s hrefl).mp hleft
    · have hset := hagrees r hr
      rw [h.sets r hr w hw, hv] at hset
      obtain ⟨_, -, hcoerce⟩ := hw
      exact (agrees_iff_regained fl s (typed_of_coerce fl hcoerce)).mp hset
  · intro hsound r hr
    by_cases hk : r.key ∈ patch.keys
    · obtain ⟨w, hw⟩ := h.setting fl hr hk
      have hagree := hidle.2 r hr w hw
      rw [h.sets r hr w hw]
      cases hv : (loadOverrides row).get? r.key with
      | none =>
        rw [hv] at hagree
        cases hagree
      | some v =>
        have hregained := hsound.idle hidle r hr w hw v hv
        obtain ⟨_, -, hcoerce⟩ := hw
        exact (agrees_iff_regained fl s (typed_of_coerce fl hcoerce)).mpr hregained
    · rw [h.left r hr hk]
      exact (agrees_iff fl s hrefl).mpr (hsound.left r hr hk)

theorem faithful_iff_written (hrefl : ∀ v, same v v) {stored patch overrides : Dict}
    (h : Patched fl stored patch overrides) (hstored : ∀ kv ∈ stored, kv.2.storable = true)
    (hidle : ¬ Idle fl stored patch) :
    Faithful fl s same (merged (runtimeDefaults s) overrides)
        (if (Json.obj overrides).storable then some (some (.obj overrides)) else none) ↔
      UpdateSound fl s same stored patch := by
  by_cases hstorable : (Json.obj overrides).storable = true
  · have hrow : (loadOverrides (some (.obj overrides))).keys.Nodup := h.nodup
    rw [if_pos hstorable, faithful_iff_agrees fl s h hrow]
    constructor
    · intro hagrees
      refine ⟨fun r hr hk => ?_, fun _ => (h.storable_iff fl hstored).mp hstorable,
        fun hnot => absurd hnot hidle⟩
      have hleft : Agrees fl s same r _ (overrides.get? r.key) := hagrees r hr
      rw [h.left r hr hk] at hleft
      exact (agrees_iff fl s hrefl).mp hleft
    · intro hsound r hr
      show Agrees fl s same r _ (overrides.get? r.key)
      by_cases hk : r.key ∈ patch.keys
      · obtain ⟨w, hw⟩ := h.setting fl hr hk
        rw [h.sets r hr w hw]
        obtain ⟨_, -, hcoerce⟩ := hw
        exact agrees_of_checked fl s hrefl (coerce_again fl hcoerce)
      · rw [h.left r hr hk]
        exact (agrees_iff fl s hrefl).mpr (hsound.left r hr hk)
  · rw [if_neg hstorable]
    constructor
    · rintro ⟨row, _, hafter, -⟩
      cases hafter
    · exact fun hsound => absurd ((h.storable_iff fl hstored).mpr (hsound.storable hidle)) hstorable

end Setting

theorem faithful_iff_updateSound {same : Json → Json → Prop} (hrefl : ∀ v, same v v)
    {row : Option Json} (hrow : (loadOverrides row).keys.Nodup)
    (hstored : ∀ kv ∈ loadOverrides row, kv.2.storable = true) {patch overrides : Dict}
    (h : Patched fl (loadOverrides row) patch overrides) :
    Faithful fl s same (merged (runtimeDefaults s) overrides) (committed row overrides) ↔
      UpdateSound fl s same (loadOverrides row) patch := by
  by_cases hidle : Idle fl (loadOverrides row) patch
  · have hrow' : committed row overrides = some row := by
      have hsame := (h.sameDict_iff fl).mpr hidle
      have hne := h.stored_ne_nil fl hidle
      unfold committed
      cases row with
      | none => exact absurd rfl hne
      | some j =>
        cases j with
        | obj old => exact if_pos hsame
        | _ => exact absurd rfl hne
    rw [hrow']
    exact faithful_iff_idle fl s hrefl hrow h hidle
  · have hrow' : committed row overrides =
        if (Json.obj overrides).storable then some (some (.obj overrides)) else none := by
      have hsame := mt (h.sameDict_iff fl).mp hidle
      unfold committed
      cases row with
      | none => exact if_neg Bool.false_ne_true
      | some j =>
        cases j with
        | obj old => exact if_neg hsame
        | _ => exact if_neg Bool.false_ne_true
    rw [hrow']
    exact faithful_iff_written fl s hrefl h hstored hidle

/-- **What is returned is what is used.**  A rejected patch leaves the row as it is.  What an
accepted one returns is what is read after its commit, with every integer and boolean of its type
and within its bounds, if and only if the update is sound; this holds for equality and for
Python's `==`. -/
theorem update_faithful_iff (row : Option Json)
    (hrow : ∀ j, row = some j → Distinct j ∧ j.storable = true)
    (patch : Json) (hpatch : Distinct patch) :
    (∀ e, (updateRuntimeConfig fl s row patch).1 = .error e →
      (updateRuntimeConfig fl s row patch).2 = some row) ∧
    ∀ returned, (updateRuntimeConfig fl s row patch).1 = .ok returned → ∃ kvs, patch = .obj kvs ∧
      (Faithful fl s (· = ·) returned (updateRuntimeConfig fl s row patch).2 ↔
        UpdateSound fl s (· = ·) (loadOverrides row) kvs) ∧
      (Faithful fl s (fun v w => v.pyEq w = true) returned
          (updateRuntimeConfig fl s row patch).2 ↔
        UpdateSound fl s (fun v w => v.pyEq w = true) (loadOverrides row) kvs) := by
  refine ⟨fun e => update_rejected fl s, fun returned hreturned => ?_⟩
  have hload : (loadOverrides row).keys.Nodup ∧
      ∀ kv ∈ loadOverrides row, kv.2.storable = true := by
    cases row with
    | none => exact ⟨List.nodup_nil, nofun⟩
    | some j =>
      obtain ⟨hj, hstorable⟩ := hrow j rfl
      cases j with
      | obj kvs =>
        rw [Json.storable_obj, List.all_eq_true] at hstorable
        exact ⟨hj, fun kv hkv => (Bool.and_eq_true_iff.mp (hstorable kv hkv)).2⟩
      | _ => exact ⟨List.nodup_nil, nofun⟩
  obtain ⟨hnodup, hstored⟩ := hload
  obtain ⟨kvs, overrides, rfl, h, rfl, hafter⟩ :=
    update_accepted fl s hnodup hpatch hreturned
  rw [hafter]
  exact ⟨kvs, rfl, faithful_iff_updateSound fl s (fun _ => rfl) hnodup hstored h,
    faithful_iff_updateSound fl s Json.pyEq_refl hnodup hstored h⟩

/-! ### The registry of the retention scan -/

@[simp] theorem typed_intSetting (key : String) (default : Settings → Int)
    (minimum maximum n : Int) :
    (intSetting key default minimum maximum).Typed (.int n) ↔ minimum ≤ n ∧ n ≤ maximum := by
  constructor
  · rintro ⟨m, hm, hlow, hhigh⟩
    obtain rfl := Json.int.inj hm
    exact ⟨hlow minimum rfl, hhigh maximum rfl⟩
  · rintro ⟨hlow, hhigh⟩
    refine ⟨n, rfl, fun m hm => ?_, fun m hm => ?_⟩
    · obtain rfl := Json.int.inj (Option.some.inj hm)
      exact hlow
    · obtain rfl := Json.int.inj (Option.some.inj hm)
      exact hhigh

/-- An entry as the retention scan has it. -/
def RuntimeSetting.entry (r : RuntimeSetting) : Opngms.RuntimeSetting :=
  ⟨r.key, fun v => (coerce fl r v).toOption⟩

/-- The registry as the retention scan has it: the defaults of retention come last. -/
def registry : Registry where
  others := (runtimeSettings.take 11).map (RuntimeSetting.entry fl)
  separate := by
    intro r hr store
    obtain ⟨r', hr', rfl⟩ := List.mem_map.mp hr
    have hall : ∀ r ∈ runtimeSettings.take 11, r.key ≠ store.settingKey := by
      cases store <;> decide
    exact hall r' hr'
  defaults
    | .perimeter => s.perimeterRetentionDays
    | .events => s.eventsRetentionDays
    | .metrics => s.metricsRetentionDays
    | .logLake => s.logRetentionDays

theorem registry_settings :
    (registry fl s).settings = runtimeSettings.map (RuntimeSetting.entry fl) := by
  have hint : ∀ key default, RuntimeSetting.entry fl (intSetting key default 1 3650) =
      ⟨key, coerceInt 1 3650⟩ := by
    intro key default
    refine congrArg (Opngms.RuntimeSetting.mk key) (funext fun v => ?_)
    cases v with
    | int n =>
      have hfixed := (coerce_fixed fl (r := intSetting key default 1 3650) nofun (.int n)).1
      simp only [typed_intSetting] at hfixed
      cases hcoerce : coerce fl (intSetting key default 1 3650) (.int n) with
      | ok w =>
        obtain ⟨rfl, hbounds⟩ := (hfixed w).mp hcoerce
        exact (if_pos hbounds).symm
      | error e =>
        refine (if_neg fun hbounds => ?_).symm
        have hok := (hfixed _).mpr ⟨rfl, hbounds⟩
        rw [hcoerce] at hok
        cases hok
    | _ => rfl
  rw [Registry.settings, ← List.take_append_drop 11 runtimeSettings, List.map_append]
  refine congrArg ((registry fl s).others ++ ·) ?_
  show [_, _, _, _] = [RuntimeSetting.entry fl (intSetting _ _ 1 3650),
    RuntimeSetting.entry fl (intSetting _ _ 1 3650), RuntimeSetting.entry fl (intSetting _ _ 1 3650),
    RuntimeSetting.entry fl (intSetting _ _ 1 3650)]
  rw [hint, hint, hint, hint]
  rfl

theorem registry_byKey (key : String) :
    (registry fl s).byKey key = (byKey key).map (RuntimeSetting.entry fl) := by
  rw [Registry.byKey, registry_settings, List.find?_map]
  rfl

theorem registry_update (row : Option Json) (patch : Dict) :
    (registry fl s).update (loadOverrides row) patch =
      if patch.isEmpty then none else (patched fl row patch).toOption := by
  have hfold : ∀ base : Dict, patch.foldlM (fun (out : Dict) (kv : String × Json) => do
      let r ← (registry fl s).byKey kv.1
      let v ← r.coerce kv.2
      return Dict.set out kv.1 v) base = (patch.foldlM (mergePatched fl) base).toOption := by
    induction patch with
    | nil => exact fun _ => rfl
    | cons kv patch ih =>
      intro base
      rw [List.foldlM_cons, List.foldlM_cons, registry_byKey, mergePatched]
      cases byKey kv.1 with
      | none => rfl
      | some r =>
        show ((coerce fl r kv.2).toOption.bind _).bind _ =
          (((coerce fl r kv.2).bind fun v => .ok (base.set kv.1 v)).bind
            fun base => patch.foldlM (mergePatched fl) base).toOption
        cases coerce fl r kv.2 with
        | error e => rfl
        | ok v => exact ih _
  unfold Registry.update
  split
  · rfl
  · rw [hfold, patched]
    cases patch.foldlM (mergePatched fl) (loadOverrides row) with
    | error e => rfl
    | ok out =>
      simp [registry_byKey]
      rfl

end Runtime

/-! ### Two rows -/

@[simp] theorem typed_boolSetting (key : String) (default : Settings → Bool) (b : Bool) :
    (boolSetting key default).Typed (.bool b) :=
  ⟨b, rfl⟩

@[simp] theorem sound_intSetting (fl : Floats) (s : Settings) (same : Json → Json → Prop)
    (key : String) (default : Settings → Int) (minimum maximum : Int) (v : Json) :
    (intSetting key default minimum maximum).Sound fl s same v ↔
      (intSetting key default minimum maximum).Typed v :=
  Iff.rfl

@[simp] theorem intSetting_key (key : String) (default : Settings → Int) (minimum maximum : Int) :
    (intSetting key default minimum maximum).key = key :=
  rfl

@[simp] theorem boolSetting_key (key : String) (default : Settings → Bool) :
    (boolSetting key default).key = key :=
  rfl

@[simp] theorem intSetting_default (key : String) (default : Settings → Int)
    (minimum maximum : Int) (s : Settings) :
    (intSetting key default minimum maximum).default s = .int (default s) :=
  rfl

@[simp] theorem boolSetting_default (key : String) (default : Settings → Bool) (s : Settings) :
    (boolSetting key default).default s = .bool (default s) :=
  rfl

/-- The defaults of the code. -/
def codeSettings : Settings where
  firmwareMaxStatusPolls := 360
  firmwarePollIntervalSeconds := "5.0"
  catalogAutoFetch := true
  geoipAutoFetch := true
  silentAlertEnabled := true
  silentAlertAfterHours := 6
  loginMaxAttempts := 5
  loginLockoutWindowSeconds := 900
  sessionTtlHours := 12
  sessionIdleMinutes := 120
  trustedDeviceDays := 30
  perimeterRetentionDays := 30
  eventsRetentionDays := 90
  metricsRetentionDays := 30
  logRetentionDays := 30

def noFloats : Floats := ⟨fun _ => none, fun _ _ => false⟩

def oneDay : Dict := [("session_ttl_hours", .int 24)]

/-- A stored override in bounds. -/
theorem update_faithful_iff_inBounds :
    ∃ returned, (updateRuntimeConfig noFloats codeSettings
        (some (.obj [("login_max_attempts", .int 10)])) (.obj oneDay)).1 = .ok returned ∧
      Faithful noFloats codeSettings (· = ·) returned (updateRuntimeConfig noFloats codeSettings
        (some (.obj [("login_max_attempts", .int 10)])) (.obj oneDay)).2 := by
  have hok : (updateRuntimeConfig noFloats codeSettings
      (some (.obj [("login_max_attempts", .int 10)])) (.obj oneDay)).1.toOption.isSome = true := by
    decide +kernel
  obtain ⟨returned, hreturned⟩ := Option.isSome_iff_exists.mp hok
  have haccepted : (updateRuntimeConfig noFloats codeSettings
      (some (.obj [("login_max_attempts", .int 10)])) (.obj oneDay)).1 = .ok returned := by
    cases hresult : (updateRuntimeConfig noFloats codeSettings
        (some (.obj [("login_max_attempts", .int 10)])) (.obj oneDay)).1 with
    | error e =>
      rw [hresult] at hreturned
      cases hreturned
    | ok returned' =>
      rw [hresult] at hreturned
      exact congrArg Except.ok (Option.some.inj hreturned)
  have hrow : ∀ j, some (Json.obj [("login_max_attempts", .int 10)]) = some j →
      Distinct j ∧ j.storable = true := by
    rintro j hj
    obtain rfl := Option.some.inj hj
    exact ⟨List.nodup_singleton _, by decide⟩
  obtain ⟨kvs, hkvs, hiff, -⟩ := (update_faithful_iff noFloats codeSettings _ hrow
    (.obj oneDay) (List.nodup_singleton _)).2 returned haccepted
  obtain rfl := Json.obj.inj hkvs
  refine ⟨returned, haccepted, hiff.mpr ⟨?_, fun _ r hr w hw => ?_, fun hidle => ?_⟩⟩
  · unfold LeftSound
    simp [runtimeSettings, loadOverrides, Dict.get?, codeSettings]
    -- a float is of no type that is asked for
    exact fun _ => trivial
  · obtain ⟨v, hv, hcoerce⟩ := hw
    rw [oneDay, Dict.get?_cons, Dict.get?_nil] at hv
    split at hv
    · rename_i hkey
      obtain rfl := Option.some.inj hv
      have hbyKey := byKey_of_mem hr
      rw [← hkey] at hbyKey
      obtain rfl := Option.some.inj hbyKey
      obtain rfl := Except.ok.inj hcoerce
      rfl
    · cases hv
  · exact Bool.noConfusion (hidle.2 (intSetting "session_ttl_hours" Settings.sessionTtlHours 1 8760)
      (List.mem_of_find?_eq_some (show byKey "session_ttl_hours" = _ from rfl)) (.int 24)
      ⟨.int 24, rfl, rfl⟩)

def outOfBounds : Json := .obj [("login_max_attempts", .int 1000), ("session_ttl_hours", .int 24)]

/-- A stored override out of bounds is returned, and the default is read. -/
theorem outOfBounds_returned :
    ((updateRuntimeConfig noFloats codeSettings
        (some (.obj [("login_max_attempts", .int 1000)])) (.obj oneDay)).1.map fun d =>
      Dict.get? d "login_max_attempts") = .ok (some (.int 1000)) ∧
    (updateRuntimeConfig noFloats codeSettings
        (some (.obj [("login_max_attempts", .int 1000)])) (.obj oneDay)).2 =
      some (some outOfBounds) ∧
    ((getRuntimeConfig noFloats codeSettings (some outOfBounds)).map fun d =>
      Dict.get? d "login_max_attempts") = .ok (some (.int 5)) := by
  decide +kernel

end RuntimeSettings

end Opngms
