/-
Opngms/ParserShapes.lean

On which documents the parsers of a poll return.

A parser guards some levels of its document and reads the others as they come.
For each parser a condition on its arguments is stated and proved to be exact:
which parts have to be dictionaries or lists, and which numbers have to be small
enough to be written or converted.
-/
import Mathlib.Data.List.GetD
import Mathlib.Data.List.TakeWhile
import Opngms.Parsers

namespace Opngms

namespace Parsers

open Py Pattern Value

variable {F : Type} {P : Platform F}

/-! ### Numbers -/

/-- `num` accepts the value. -/
def NumOk : Value F → Prop
  | .int n => n.natAbs < floatLimit
  | v => v.Short

theorem numeral_of_mem {t : PyStr} (h : t ∈ numberPattern.language) : Numeral t := by
  obtain ⟨sign, hsign, _, ⟨whole, hwhole, _, ⟨point, hpoint, _, ⟨frac, hfrac, _, hend, rfl⟩, rfl⟩,
    rfl⟩, rfl⟩ := h
  obtain rfl : _ = [] := hend
  obtain ⟨hne, hdigits⟩ := mem_plus.mp hfrac
  refine ⟨sign, whole, point, frac, by simp, ?_, hwhole, ?_, hne, hdigits⟩
  · rcases hsign with ⟨c, hc, rfl⟩ | hsign
    · rcases of_decide_eq_true hc with rfl | rfl
      · exact .inr (.inl rfl)
      · exact .inr (.inr rfl)
    · exact .inl hsign
  · rcases hpoint with ⟨c, hc, rfl⟩ | hpoint
    · obtain rfl := of_decide_eq_true hc
      exact .inr rfl
    · exact .inl hpoint

theorem returns_numeral (s : PyStr) :
    Returns (match numberPattern.search s with
      | some m => floatOf P m.text
      | none => pure (P.ofInt 0)) := by
  cases h : numberPattern.search s with
  | none => exact returns_pure _
  | some m => exact returns_floatOf (numeral_of_mem (search_language h))

theorem returns_num {v : Value F} : Returns (num P v) ↔ NumOk v := by
  have hother : Returns ((v.or P (.str [])).toStr P >>= fun s =>
      match numberPattern.search s with
      | some m => floatOf P m.text
      | none => pure (P.ofInt 0)) ↔ v.Short := by
    rw [returns_bind_of_forall fun s => iff_true_intro (returns_numeral s), and_true,
      returns_toStr, short_or]
  cases v with
  | bool b => exact iff_of_true (returns_ok _) nofun
  | int n => exact returns_toFloat
  | float x => exact iff_of_true (returns_ok _) nofun
  | null => exact hother
  | str s => exact hother
  | arr xs => exact hother
  | obj kvs => exact hother

theorem numOk_str (s : PyStr) : NumOk (.str s : Value F) := nofun

/-! ### Groups of digits -/

theorem returns_intGroup {r : Pattern CodePoint} {s : PyStr} {m : Hit CodePoint} {name : String}
    (hm : r.search s = some m) (hname : r.Passes name)
    (hdigits : ∀ t ∈ r.groupLanguage name, t ≠ [] ∧ ∀ c ∈ t, isDigit c = true) :
    Returns (intGroup m name) ↔ ∀ t, m.group name = some t → t.length ≤ maxDigits := by
  obtain ⟨t, ht⟩ := search_group_isSome hm hname
  obtain ⟨hne, hall⟩ := hdigits t (search_group hm ht)
  rw [intGroup, ht, returns_toInt hne hall]
  constructor
  · intro hlen u hu
    obtain rfl := Option.some.inj hu
    exact hlen
  · exact fun h => h t rfl

/-- The digits before `day`. -/
def dayDigits (s : PyStr) : Option PyStr := (dayPattern.search s).bind (·.group "1")

/-- The digits before `core`. -/
def coreDigits (s : PyStr) : Option PyStr := (corePattern.search s).bind (·.group "1")

theorem dayPattern_digits : ∀ t ∈ dayPattern.groupLanguage "1",
    t ≠ [] ∧ ∀ c ∈ t, isDigit c = true := by
  intro t ht
  simp only [dayPattern, digits, spaces, chars, groupLanguage_chain_cons, groupLanguage_group,
    groupLanguage_plus, groupLanguage_word, groupLanguage_chain_nil, if_true, add_zero] at ht
  exact mem_plus.mp ht

theorem corePattern_digits : ∀ t ∈ corePattern.groupLanguage "1",
    t ≠ [] ∧ ∀ c ∈ t, isDigit c = true := by
  intro t ht
  simp only [corePattern, digits, spaces, chars, char, groupLanguage_chain_cons,
    groupLanguage_group, groupLanguage_plus, groupLanguage_word, groupLanguage_opt,
    groupLanguage_one, groupLanguage_chain_nil, if_true, add_zero] at ht
  exact mem_plus.mp ht

theorem returns_clockGroup {s : PyStr} {m : Hit CodePoint} (hm : clockPattern.search s = some m)
    {name : String} (hname : name = "1" ∨ name = "2" ∨ name = "3") :
    Returns (intGroup m name) := by
  have hlang : ∀ t ∈ clockPattern.groupLanguage name,
      t ≠ [] ∧ t.length ≤ 2 ∧ ∀ c ∈ t, isDigit c = true := by
    intro t ht
    have htwo : t ∈ (times 2 (one isDigit)).language →
        t ≠ [] ∧ t.length ≤ 2 ∧ ∀ c ∈ t, isDigit c = true := by
      intro h
      obtain ⟨hlen, hall⟩ := mem_times h
      exact ⟨List.ne_nil_of_length_pos (by omega), hlen.le, hall⟩
    rcases hname with rfl | rfl | rfl
    · simp [clockPattern, char] at ht
      exact mem_oneUpTo ht
    · simp [clockPattern, char] at ht
      exact htwo ht
    · simp [clockPattern, char] at ht
      exact htwo ht
  have hpasses : clockPattern.Passes name := by
    rcases hname with rfl | rfl | rfl
    · exact .inl (.inl rfl)
    · exact .inr (.inr (.inl (.inl rfl)))
    · exact .inr (.inr (.inr (.inr (.inl (.inl rfl)))))
  refine (returns_intGroup hm hpasses fun t ht => ⟨(hlang t ht).1, (hlang t ht).2.2⟩).mpr ?_
  intro t ht
  have hlen := (hlang t (search_group hm ht)).2.1
  show t.length ≤ 4300
  omega

/-! ### `parse_uptime` and `parse_cores` -/

/-- `parse_uptime` accepts the value. -/
def UptimeOk (P : Platform F) (s : Value F) : Prop :=
  s.Short ∧ ∀ t, dayDigits ((s.or P (.str [])).text P) = some t → t.length ≤ maxDigits

theorem returns_parseUptime {s : Value F} : Returns (parseUptime P s) ↔ UptimeOk P s := by
  unfold parseUptime UptimeOk
  rw [returns_toStr_bind, short_or]
  refine and_congr_right fun _ => ?_
  generalize (s.or P (.str [])).text P = t
  refine (returns_bind_of_forall fun days => iff_true_intro ?_).trans ?_
  · -- the clock is read whatever it says
    cases hm : clockPattern.search t with
    | none => exact returns_pure _
    | some m =>
      obtain ⟨h, hh⟩ := returns_clockGroup hm (.inl rfl)
      obtain ⟨mi, hmi⟩ := returns_clockGroup hm (.inr (.inl rfl))
      obtain ⟨sec, hsec⟩ := returns_clockGroup hm (.inr (.inr rfl))
      simp only [hh, hmi, hsec]
      exact returns_pure _
  · rw [and_true, daysOf, dayDigits]
    cases hm : dayPattern.search t with
    | none => exact iff_of_true (returns_ok _) (by simp)
    | some m => exact returns_intGroup hm (.inl (.inl rfl)) dayPattern_digits

def coresSource : Value F → Value F
  | .arr (x :: _) => x
  | v => v

def coresText (P : Platform F) : Value F → PyStr
  | .arr (x :: _) => x.text P
  | v => (v.or P (.str [])).text P

def CoresOk (P : Platform F) (cputype : Value F) : Prop :=
  (coresSource cputype).Short ∧ ∀ t, coreDigits (coresText P cputype) = some t →
    t.length ≤ maxDigits ∧ number t < floatLimit

theorem parseCores_spec (cputype : Value F) :
    parseCores P cputype =
      if (coresSource cputype).Short then
        match corePattern.search (coresText P cputype) with
        | some m => intGroup m "1"
        | none => .ok 1
      else .error .valueError := by
  have hother : ∀ v : Value F, ((.str <$> (v.or P (.str [])).toStr P : Except _ (Value F)) >>=
      fun text => text.toStr P >>= fun s =>
        match corePattern.search s with
        | some m => intGroup m "1"
        | none => pure 1) =
      if v.Short then
        match corePattern.search ((v.or P (.str [])).text P) with
        | some m => intGroup m "1"
        | none => .ok 1
      else .error .valueError := by
    intro v
    by_cases hshort : v.Short
    · have hstr : ∀ s : PyStr, (.str s : Value F).toStr P = .ok s := fun s => if_pos nofun
      have hmap : ∀ s : PyStr, (.str <$> (.ok s : Except PyException PyStr)) =
          (.ok (.str s) : Except PyException (Value F)) := fun _ => rfl
      rw [if_pos hshort, toStr, if_pos (short_or.mpr hshort), hmap, except_ok_bind, hstr,
        except_ok_bind]
      rfl
    · rw [if_neg hshort, toStr, if_neg (mt short_or.mp hshort)]
      rfl
  cases cputype with
  | arr xs =>
    cases xs with
    | nil => exact hother _
    | cons x xs =>
      show (x.toStr P >>= _) = _
      rw [toStr]
      by_cases hshort : x.Short
      · rw [if_pos hshort]
        exact (if_pos hshort).symm
      · rw [if_neg hshort]
        exact (if_neg hshort).symm
  | _ => exact hother _

theorem one_lt_floatLimit : 1 < floatLimit := by decide +kernel

/-- The cores that are found, as a number that can be converted. -/
theorem parseCores_bind {β : Type} {cputype : Value F} {f : Nat → Except PyException β}
    (hf : ∀ n, Returns (f n) ↔ n < floatLimit) :
    Returns (parseCores P cputype >>= f) ↔ CoresOk P cputype := by
  rw [parseCores_spec, CoresOk]
  by_cases hshort : (coresSource cputype).Short
  · rw [if_pos hshort, and_iff_right hshort, coreDigits]
    cases hm : corePattern.search (coresText P cputype) with
    | none => exact iff_of_true ((hf 1).mpr one_lt_floatLimit) nofun
    | some m =>
      obtain ⟨t, ht⟩ := search_group_isSome hm (.inl (.inl rfl))
      obtain ⟨hne, hall⟩ := corePattern_digits t (search_group hm ht)
      simp only [Option.bind_some, intGroup, ht, Option.some.injEq, forall_eq']
      rw [returns_bind, ← returns_toInt hne hall]
      constructor
      · rintro ⟨n, hn, hfn⟩
        exact ⟨⟨n, hn⟩, number_of_toInt hn ▸ (hf n).mp hfn⟩
      · rintro ⟨⟨n, hn⟩, hlt⟩
        exact ⟨n, hn, (hf n).mpr (number_of_toInt hn ▸ hlt)⟩
  · rw [if_neg hshort]
    exact iff_of_false (not_returns_error _) fun h => hshort h.1

/-! ### `parse_system_info` -/

def MemoryOk (P : Platform F) (resources : Value F) : Prop :=
  let mem := getD resources.entries "memory" (.obj [])
  resources.DictOrFalsy P ∧ mem.DictOrFalsy P ∧ NumOk (getD mem.entries "total" .null) ∧
    NumOk (getD mem.entries "used" .null)

theorem returns_memoryPct {resources : Value F} :
    Returns (memoryPct P resources) ↔ MemoryOk P resources := by
  unfold memoryPct MemoryOk
  rw [returns_or_get_bind]
  refine and_congr_right fun _ => ?_
  simp only
  generalize getD resources.entries "memory" (.obj []) = mem
  rw [returns_or_get_bind]
  refine and_congr_right fun hmem => ?_
  refine (returns_bind_of_forall fun total => ?_).trans (and_congr_left' returns_num)
  rw [returns_or_get_bind, and_iff_right hmem, returns_bind_pure, returns_num]

def isRoot (d : Value F) : Bool := (getD d.entries "mountpoint" .null).isText "/"

/-- Up to the root disk all are dictionaries, and its usage is a number. -/
def DisksOk (ds : List (Value F)) : Prop :=
  (∀ d ∈ ds.takeWhile fun d => !isRoot d, d.IsDict) ∧
    ∀ d, ds.find? isRoot = some d → NumOk (getD d.entries "used_pct" .null)

theorem isDict_of_isRoot {d : Value F} (h : isRoot d = true) : d.IsDict := by
  cases d with
  | obj kvs => exact ⟨kvs, rfl⟩
  | _ => cases h

theorem returns_rootUsed {ds : List (Value F)} : Returns (rootUsed P ds) ↔ DisksOk ds := by
  induction ds with
  | nil => exact iff_of_true (returns_ok _) ⟨nofun, nofun⟩
  | cons d ds ih =>
    rw [rootUsed, returns_get_bind, DisksOk]
    by_cases hroot : isRoot d = true
    · have hroot' : (getD d.entries "mountpoint" .null).isText "/" = true := hroot
      rw [if_pos hroot', returns_get_bind, returns_num,
        List.takeWhile_cons_of_neg (by simp [hroot]), List.find?_cons_of_pos hroot]
      simp [isDict_of_isRoot hroot]
    · have hroot' : ¬ (getD d.entries "mountpoint" .null).isText "/" = true := hroot
      rw [if_neg hroot', ih, DisksOk, List.takeWhile_cons_of_pos (by simpa using hroot),
        List.find?_cons_of_neg hroot, List.forall_mem_cons, and_assoc]

def DiskOk (P : Platform F) (disk : Value F) : Prop :=
  let devices := getD disk.entries "devices" (.arr [])
  disk.DictOrFalsy P ∧ devices.IterOrFalsy P ∧ DisksOk devices.elements

theorem returns_diskPct {disk : Value F} : Returns (diskPct P disk) ↔ DiskOk P disk := by
  unfold diskPct DiskOk
  rw [returns_or_get_bind, returns_or_iterate_bind, returns_rootUsed]

/-- The load can be read, and the cores. -/
def LoadOk (P : Platform F) (time cputype : Value F) : Prop :=
  time.DictOrFalsy P ∧ (getD time.entries "loadavg" (.str [])).Short ∧ CoresOk P cputype

theorem returns_cpuPct {time cputype : Value F} :
    Returns (cpuPct P time cputype) ↔ LoadOk P time cputype := by
  have hcores : ∀ load1m : F, Returns (parseCores P cputype >>= fun cores =>
      if cores = 0 then pure (P.ofInt 0)
      else do
        let n ← toFloat P cores
        return P.min (P.ofInt 100) (percent P load1m n)) ↔ CoresOk P cputype := by
    refine fun load1m => parseCores_bind fun n => ?_
    by_cases hn : n = 0
    · rw [if_pos hn, hn]
      exact iff_of_true (returns_pure _) (Nat.zero_lt_of_lt one_lt_floatLimit)
    · rw [if_neg hn, returns_bind_pure, returns_toFloat]
      exact Iff.rfl
  unfold cpuPct LoadOk
  rw [returns_or_get_bind]
  refine and_congr_right fun _ => ?_
  rw [returns_toStr_bind]
  refine and_congr_right fun _ => ?_
  have hload : ∀ terms, Returns (firstLoad P terms) := by
    intro terms
    cases terms with
    | nil => exact returns_ok _
    | cons term terms => exact returns_num.mpr (numOk_str term)
  simp only
  rw [returns_bind_of_forall hcores, and_iff_right (hload _)]

/-- `parse_system_info` accepts its arguments. -/
def SystemInfoOk (P : Platform F) (resources disk time cputype : Value F) : Prop :=
  MemoryOk P resources ∧ DiskOk P disk ∧ UptimeOk P (getD time.entries "uptime" .null) ∧
    LoadOk P time cputype

theorem returns_parseSystemInfo {resources disk time cputype : Value F} :
    Returns (parseSystemInfo P resources disk time cputype) ↔
      SystemInfoOk P resources disk time cputype := by
  unfold parseSystemInfo SystemInfoOk
  refine (returns_bind_of_forall fun mem => ?_).trans (and_congr_left' returns_memoryPct)
  refine (returns_bind_of_forall fun used => ?_).trans (and_congr_left' returns_diskPct)
  rw [returns_or_get_bind]
  have hrest : Returns (parseUptime P (getD time.entries "uptime" .null) >>= fun uptimeSeconds => do
      let cpuPct ← cpuPct P time cputype
      return (⟨cpuPct, mem, used, uptimeSeconds⟩ : SystemInfo F)) ↔
      UptimeOk P (getD time.entries "uptime" .null) ∧ LoadOk P time cputype := by
    refine (returns_bind_of_forall fun uptime => ?_).trans (and_congr_left' returns_parseUptime)
    rw [returns_bind_pure, returns_cpuPct]
  rw [hrest]
  -- the load asks for the same of the time
  constructor
  · exact fun h => h.2
  · exact fun h => ⟨h.2.1, h⟩

/-! ### Interfaces, gateways and tunnels -/

def InterfaceOk (v : Value F) : Prop :=
  v.IsDict ∧ (getD v.entries "link state" .null).Short ∧
    NumOk (getD v.entries "bytes received" .null) ∧ NumOk (getD v.entries "bytes transmitted" .null)

theorem returns_interfaceOf {v : Value F} : Returns (interfaceOf P v) ↔ InterfaceOk v := by
  unfold interfaceOf InterfaceOk
  rw [returns_get_bind]
  refine and_congr_right fun hdict => ?_
  rw [returns_get_bind, and_iff_right hdict, returns_toStr_bind]
  refine and_congr_right fun _ => ?_
  rw [returns_get_bind, and_iff_right hdict]
  refine (returns_bind_of_forall fun bytesIn => ?_).trans (and_congr_left' returns_num)
  rw [returns_get_bind, and_iff_right hdict, returns_bind_pure, returns_num]

/-- `parse_interfaces` accepts the document. -/
def InterfacesOk (P : Platform F) (traffic : Value F) : Prop :=
  traffic.DictOrFalsy P ∧
    ∀ kv ∈ (getD traffic.entries "interfaces" .null).entries, InterfaceOk kv.2

theorem returns_parseInterfaces {traffic : Value F} :
    Returns (parseInterfaces P traffic) ↔ InterfacesOk P traffic := by
  unfold parseInterfaces InterfacesOk
  rw [returns_or_get_bind]
  refine and_congr_right fun _ => ?_
  generalize getD traffic.entries "interfaces" .null = interfaces
  cases interfaces with
  | obj kvs =>
    show Returns (gather _ kvs) ↔ _
    rw [returns_gather]
    exact forall₂_congr fun kv _ => returns_map.trans returns_interfaceOf
  | _ => exact iff_of_true (returns_pure _) nofun

def GatewayOk (g : List (PyStr × Value F)) : Prop :=
  (getD g "status" (.str [])).Short ∧ NumOk (getD g "delay" .null) ∧ NumOk (getD g "loss" .null)

theorem returns_gatewayOf {g : List (PyStr × Value F)} : Returns (gatewayOf P g) ↔ GatewayOk g := by
  unfold gatewayOf GatewayOk
  rw [returns_toStr_bind]
  refine and_congr_right fun _ => ?_
  refine (returns_bind_of_forall fun rttMs => ?_).trans (and_congr_left' returns_num)
  rw [returns_bind_pure, returns_num]

/-- `parse_gateways` accepts the document. -/
def GatewaysOk (P : Platform F) (data : Value F) : Prop :=
  let items := getD data.entries "items" (.arr [])
  data.DictOrFalsy P ∧ items.IterOrFalsy P ∧ ∀ g ∈ dicts items.elements, GatewayOk g

theorem returns_parseGateways {data : Value F} :
    Returns (parseGateways P data) ↔ GatewaysOk P data := by
  unfold parseGateways GatewaysOk
  rw [returns_or_get_bind]
  refine and_congr_right fun _ => ?_
  rw [returns_or_iterate_bind, returns_gather_eachDict]
  exact and_congr_right fun _ => forall₂_congr fun g _ => returns_map.trans returns_gatewayOf

theorem returns_truthy {v : Value F} : Returns (truthy P v) ↔ v.Short := by
  have hother : Returns (v.toStr P >>= fun s =>
      pure (["1", "true", "yes", "on"].any fun t => P.lower (Py.strip s) == lit t)) ↔ v.Short := by
    rw [returns_bind_pure, returns_toStr]
  cases v with
  | bool b =>
    cases b with
    | true => exact iff_of_true (returns_ok _) nofun
    | false => exact hother
  | _ => exact hother

/-- The value that decides whether a tunnel is up. -/
def upSource (P : Platform F) (row : List (PyStr × Value F)) : Value F :=
  if hasKey row "connected" then getD row "connected" .null
  else if hasKey row "peer-status" then getD row "peer-status" .null
  else (getD row "latest-handshake-epoch" .null).or P (getD row "latest-handshake" .null)

theorem or_or (v w u : Value F) : v.or P (w.or P u) = (v.or P w).or P u := by
  unfold Value.or
  by_cases hv : v.truthy P = true
  · rw [if_pos hv, if_pos hv, if_pos hv]
  · rw [if_neg hv, if_neg hv]

theorem returns_tunnelOf {row : List (PyStr × Value F)} :
    Returns (tunnelOf P row) ↔ (upSource P row).Short := by
  unfold tunnelOf
  simp only
  rw [returns_bind_pure]
  unfold tunnelUp upSource
  split
  · exact returns_truthy
  · split
    · rw [returns_bind_pure, returns_toStr]
    · rw [returns_bind_pure, returns_toStr, or_or, short_or]

/-- `parse_vpn` accepts the document. -/
def VpnOk (P : Platform F) (data : Value F) : Prop :=
  let rows := getD data.entries "rows" (.arr [])
  data.DictOrFalsy P ∧ rows.IterOrFalsy P ∧ ∀ row ∈ dicts rows.elements, (upSource P row).Short

theorem returns_parseVpn {data : Value F} : Returns (parseVpn P data) ↔ VpnOk P data := by
  unfold parseVpn VpnOk
  rw [returns_or_get_bind]
  refine and_congr_right fun _ => ?_
  rw [returns_or_iterate_bind, returns_gather_eachDict]
  exact and_congr_right fun _ => forall₂_congr fun row _ => returns_map.trans returns_tunnelOf

/-! ### Plugins -/

theorem returns_parseFirmwareVersion {data : Value F} :
    Returns (parseFirmwareVersion P data) ↔ data.DictOrFalsy P := by
  unfold parseFirmwareVersion
  rw [returns_or_get_bind]
  refine and_iff_left_of_imp fun hdict => ?_
  split
  · exact returns_pure _
  · rw [returns_or_get_bind, and_iff_right hdict]
    split
    · exact returns_pure _
    · exact returns_pure _

/-- A plugin can be read, if it has a name. -/
def PluginOk (P : Platform F) (p : List (PyStr × Value F)) : Prop :=
  (getD p "name" .null).truthy P = true →
    (getD p "installed" (.str [])).Short ∧ (getD p "locked" .null).Short

theorem returns_pluginOf {p : List (PyStr × Value F)} : Returns (pluginOf P p) ↔ PluginOk P p := by
  unfold pluginOf PluginOk
  split
  · rename_i hname
    rw [returns_toStr_bind, returns_bind_pure, returns_truthy]
    exact ⟨fun h _ => h, fun h => h hname⟩
  · rename_i hname
    exact iff_of_true (returns_pure _) fun h => absurd h hname

/-- `parse_plugins` accepts the document. -/
def PluginsOk (P : Platform F) (info : Value F) : Prop :=
  info.DictOrFalsy P ∧
    ∀ xs, getD info.entries "plugin" .null = .arr xs → ∀ p ∈ dicts xs, PluginOk P p

theorem returns_parsePlugins {info : Value F} :
    Returns (parsePlugins P info) ↔ PluginsOk P info := by
  unfold parsePlugins PluginsOk
  rw [returns_or_get_bind]
  refine and_congr_right fun hdict => ?_
  have hversion : Returns (parseFirmwareVersion P (info.or P (.obj []))) := by
    refine returns_parseFirmwareVersion.mpr ?_
    unfold Value.or
    split
    · exact hdict
    · exact .inr ⟨[], rfl⟩
  have hrest : ∀ available : List (Plugin F), Returns (do
      let productVersion ← parseFirmwareVersion P (info.or P (.obj []))
      return (⟨productVersion, (available.filter (·.installed)).map (·.name), available⟩ :
        Plugins F)) := fun _ => returns_bind_pure.mpr hversion
  generalize getD info.entries "plugin" .null = raw
  simp only
  rw [returns_bind_of_forall fun available => iff_true_intro (hrest available), and_true,
    returns_gather_eachDict]
  simp only [returns_pluginOf]
  cases raw with
  | arr xs =>
    refine ⟨fun h ys hys => ?_, fun h => h xs rfl⟩
    obtain rfl := Value.arr.inj hys
    exact h
  | _ => exact iff_of_true nofun nofun

/-! ### Versions -/

def versionParts (s : PyStr) : List PyStr :=
  let parts := partition (Py.strip s)
  (split '.' parts.1).take 3 ++ [parts.2]

/-- `parse_version` accepts the value. -/
def VersionOk (P : Platform F) (s : Value F) : Prop :=
  s.Short ∧ ∀ part ∈ versionParts ((s.or P (.str [])).text P),
    (part.takeWhile isDigit).length ≤ maxDigits

theorem returns_leadingInt {part : PyStr} :
    Returns (leadingInt part) ↔ (part.takeWhile isDigit).length ≤ maxDigits := by
  have hstart := matchStart_plus isDigit part
  unfold leadingInt
  cases hm : digits.matchStart part with
  | none =>
    have hnil : part.takeWhile isDigit = [] := by
      by_contra hne
      rw [if_neg hne, show (plus true isDigit).matchStart part = none from hm] at hstart
      cases hstart
    rw [hnil]
    exact iff_of_true (returns_ok _) (Nat.zero_le _)
  | some m =>
    rw [show (plus true isDigit).matchStart part = some m from hm] at hstart
    by_cases hne : part.takeWhile isDigit = []
    · rw [if_pos hne] at hstart
      cases hstart
    · rw [if_neg hne] at hstart
      have htext : m.text = part.takeWhile isDigit := Option.some.inj hstart
      rw [← htext] at hne ⊢
      refine returns_toInt hne fun c hc => ?_
      rw [htext] at hc
      exact List.mem_takeWhile_imp hc

theorem returns_parseVersion {s : Value F} : Returns (parseVersion P s) ↔ VersionOk P s := by
  unfold parseVersion VersionOk versionParts
  rw [returns_toStr_bind, short_or]
  refine and_congr_right fun _ => ?_
  simp only [List.forall_mem_append, List.forall_mem_singleton]
  generalize partition (Py.strip ((s.or P (.str [])).text P)) = parts
  refine (returns_bind_of_forall fun nums => ?_).trans
    (and_congr_left' (returns_gather.trans ?_))
  · rw [returns_bind_pure, returns_leadingInt]
  · exact forall₂_congr fun part _ => returns_map.trans returns_leadingInt

theorem leadingInt_lt {part : PyStr} {n : Nat} (h : leadingInt part = .ok n) :
    n < 10 ^ maxDigits := by
  unfold leadingInt at h
  cases hm : digits.matchStart part with
  | none =>
    rw [hm] at h
    obtain rfl := Except.ok.inj h
    exact Nat.pow_pos (by decide)
  | some m =>
    rw [hm] at h
    have hread : toInt m.text = .ok n := h
    have hlen : m.text.length ≤ maxDigits := by
      unfold toInt at hread
      split at hread
      · rename_i hok
        exact hok.2.2
      · cases hread
    calc n = number m.text := (number_of_toInt hread).symm
      _ < 10 ^ m.text.length := number_lt m.text
      _ ≤ 10 ^ maxDigits := Nat.pow_le_pow_right (by decide) hlen

theorem returns_seriesOf {s : Value F} : Returns (seriesOf P s) ↔ VersionOk P s := by
  rw [← returns_parseVersion, seriesOf, returns_bind]
  refine ⟨fun ⟨v, hv, _⟩ => ⟨v, hv⟩, fun ⟨v, hv⟩ => ⟨v, hv, ?_⟩⟩
  obtain ⟨y, m, point, hotfix⟩ := v
  have hzero : 0 < 10 ^ maxDigits := Nat.pow_pos (by decide)
  have hsmall : y < 10 ^ maxDigits ∧ m < 10 ^ maxDigits := by
    obtain ⟨t, -, hv⟩ := except_bind_ok hv
    obtain ⟨nums, hnums, hv⟩ := except_bind_ok hv
    obtain ⟨h, -, hv⟩ := except_bind_ok hv
    have hnum : ∀ i, nums.getD i 0 < 10 ^ maxDigits := by
      intro i
      by_cases hi : i < nums.length
      · rw [List.getD_eq_getElem _ _ hi]
        obtain ⟨part, -, hpart⟩ := mem_gather hnums (List.getElem_mem hi)
        cases hlead : leadingInt part with
        | error e =>
          rw [hlead] at hpart
          cases hpart
        | ok n =>
          rw [hlead] at hpart
          obtain rfl : n = nums[i] := Option.some.inj (Except.ok.inj hpart)
          exact leadingInt_lt hlead
      · rw [List.getD_eq_default _ _ (Nat.le_of_not_lt hi)]
        exact hzero
    simp only [pure, Except.pure, Except.ok.injEq, Prod.mk.injEq] at hv
    obtain ⟨rfl, rfl, -⟩ := hv
    exact ⟨hnum 0, hnum 1⟩
  have hshort : ∀ n : Nat, n < 10 ^ maxDigits → (Value.int (F := F) n).Short := by
    intro n hn k hk
    obtain rfl := List.mem_singleton.mp hk
    exact hn
  simp only
  rw [returns_toStr_bind, returns_toStr_bind]
  exact ⟨hshort y hsmall.1, hshort m hsmall.2, returns_pure _⟩

/-! ### Identity -/

/-- The edition of a product can be read: where the id tells none, the names are used. -/
def EditionOk (P : Platform F) (product : List (PyStr × Value F)) : Prop :=
  (getD product "product_id" (.str [])).Short ∧
    (P.lower ((getD product "product_id" (.str [])).text P) = [] →
      (getD product "product_repos" (.str [])).Short ∧
        (getD product "product_name" (.str [])).Short)

theorem returns_editionOf {product : List (PyStr × Value F)} :
    Returns (editionOf P product) ↔ EditionOk P product := by
  unfold editionOf EditionOk
  rw [returns_toStr_bind]
  refine and_congr_right fun _ => ?_
  simp only
  generalize P.lower ((getD product "product_id" (.str [])).text P) = pid
  cases pid with
  | nil =>
    have hbusiness : ¬ lit "business" <:+: [] := by decide
    have hdevel : ¬ lit "devel" <:+: [] := by decide
    rw [if_neg hbusiness, if_neg hdevel, if_neg (not_not.mpr rfl), returns_toStr_bind,
      returns_bind_pure, returns_toStr]
    exact ⟨fun h _ => h, fun h => h rfl⟩
  | cons c pid =>
    refine iff_of_true ?_ nofun
    split
    · exact returns_pure _
    · split
      · exact returns_pure _
      · exact returns_pure _

/-- `parse_identity` gives three texts. -/
def IdentityOk (P : Platform F) (firmwareStatus : Value F) : Prop :=
  let product := (getD firmwareStatus.entries "product" .null).entries
  let version := getD product "product_version" .null
  let series := getD product "product_series" .null
  EditionOk P product ∧ (version.truthy P = true → version.IsStr) ∧
    (series.truthy P = true → series.IsStr) ∧
    (series.truthy P = false → version.truthy P = true → VersionOk P version)

theorem isStr_or {v : Value F} {s : PyStr} :
    (v.or P (.str s)).IsStr ↔ (v.truthy P = true → v.IsStr) := by
  unfold Value.or
  split
  · rename_i h
    exact (imp_iff_right h).symm
  · rename_i h
    exact iff_of_true ⟨s, rfl⟩ fun hv => absurd hv h

theorem truthy_or {v : Value F} : (v.or P (.str [])).truthy P = v.truthy P := by
  unfold Value.or
  split
  · rfl
  · rename_i h
    exact (Bool.not_eq_true _ ▸ h : v.truthy P = false).symm

theorem parseIdentity_iff {firmwareStatus : Value F} :
    (∃ identity, parseIdentity P firmwareStatus = .ok identity ∧ identity.version.IsStr ∧
      identity.series.IsStr) ↔ IdentityOk P firmwareStatus := by
  unfold parseIdentity IdentityOk
  simp only
  generalize (getD firmwareStatus.entries "product" .null).entries = product
  generalize getD product "product_version" .null = version
  generalize getD product "product_series" .null = series
  have hseries : (∃ v, productSeriesOf P series (version.or P (.str [])) = .ok v ∧ v.IsStr) ↔
      (series.truthy P = true → series.IsStr) ∧
        (series.truthy P = false → version.truthy P = true → VersionOk P version) := by
    unfold productSeriesOf
    rw [truthy_or]
    cases hs : series.truthy P with
    | true => simp
    | false =>
      cases hv : version.truthy P with
      | false => simp [IsStr]
      | true =>
        have hor : version.or P (.str []) = version := if_pos hv
        simp only [hor, Bool.false_eq_true, if_false, if_true, false_implies, true_and,
          forall_const, ← returns_seriesOf]
        constructor
        · rintro ⟨v, hseries, -⟩
          exact returns_map.mp ⟨v, hseries⟩
        · rintro ⟨t, ht⟩
          exact ⟨.str t, by rw [ht]; rfl, t, rfl⟩
  rw [← hseries, ← isStr_or (P := P) (s := []), ← returns_editionOf]
  constructor
  · rintro ⟨identity, h, hversion, hstr⟩
    obtain ⟨edition, hedition, h⟩ := except_bind_ok h
    obtain ⟨v, hv, h⟩ := except_bind_ok h
    obtain rfl := Except.ok.inj h
    exact ⟨⟨edition, hedition⟩, hversion, v, hv, hstr⟩
  · rintro ⟨⟨edition, hedition⟩, hversion, v, hv, hstr⟩
    refine ⟨⟨edition, version.or P (.str []), v⟩, ?_, hversion, hstr⟩
    rw [hedition, except_ok_bind, hv, except_ok_bind]
    rfl

end Parsers

end Opngms
