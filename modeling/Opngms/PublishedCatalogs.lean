/-
Opngms/PublishedCatalogs.lean

Publishing catalogs (`generate-all` of tools/opnsense_catalog/cli.py, `build_manifest` of
publish.py): the manifest of a run over a list of versions, with an earlier manifest, `--force`
and `--with-plugins`.

A version has two keys, one for the core catalog and one for that of the plugins.  Each is
written anew or carried over, and the manifest is rebuilt from both.  A plugins catalog that
fails to generate is neither: under `--force` it was to be written, so its earlier hash is not
carried.

Main result: **`nothingLost_iff`**.
-/
import Opngms.CatalogTypes
import Opngms.ConfigRevert

namespace Opngms

namespace CatalogTool

/-! ### The run -/

abbrev Bytes := List UInt8

/-- The arguments of `generate-all` that decide what is written. -/
structure PublishArgs where
  edition : String
  versions : String
  force : Bool
  withPlugins : Bool

/-- What `_write_catalog` and `_write_plugins_catalog` write for a version; `none` where
fetching or generating raises. -/
structure Generated where
  core : Option Bytes
  plugins : Option Bytes

def PublishArgs.coreKey (args : PublishArgs) (version : String) : String :=
  args.edition ++ "/" ++ version

def PublishArgs.plugKey (args : PublishArgs) (version : String) : String :=
  args.edition ++ "-plugins/" ++ version

def PublishArgs.requested (args : PublishArgs) : List String :=
  ((splitCommas args.versions).map strip).filter (· ≠ "")

/-- `need_core`. -/
def PublishArgs.needCore (args : PublishArgs) (prior : List (String × String))
    (version : String) : Bool :=
  args.force || (prior.lookup (args.coreKey version)).isNone

/-- `need_plug`. -/
def PublishArgs.needPlug (args : PublishArgs) (prior : List (String × String))
    (version : String) : Bool :=
  args.withPlugins && (args.force || (prior.lookup (args.plugKey version)).isNone)

/-- The variables of the loop, and what was written so far under which key. -/
structure Progress where
  entries : List (String × Bytes) := []
  carried : List (String × String) := []
  skipped : List String := []
  written : List (String × Bytes) := []

/-- A catalog is written: `entries[key] = blob`. -/
def Progress.write (p : Progress) (key : String) (blob : Bytes) : Progress :=
  { p with entries := putEntry p.entries key blob, written := p.written ++ [(key, blob)] }

/-- `if key in prior: carried[key] = prior[key]`. -/
def Progress.carry (p : Progress) (prior : List (String × String)) (key : String) : Progress :=
  match prior.lookup key with
  | some hash => { p with carried := putEntry p.carried key hash }
  | none => p

/-- One round of the loop; `none` where the core catalog raises. -/
def publishVersion (args : PublishArgs) (prior : List (String × String)) (p : Progress)
    (version : String) (generated : Generated) : Option Progress :=
  let coreKey := args.coreKey version
  let plugKey := args.plugKey version
  let needCore := args.needCore prior version
  let needPlug := args.needPlug prior version
  if !needCore && !needPlug then
    let p := (p.carry prior coreKey).carry prior plugKey
    some { p with skipped := p.skipped ++ [version] }
  else do
    let p ← if needCore then generated.core.map (p.write coreKey) else some (p.carry prior coreKey)
    if needPlug then
      match generated.plugins with
      | some blob => return p.write plugKey blob
      -- the exception is printed and swallowed
      | none => return p
    else return p.carry prior plugKey

/-- `build_manifest`: the hashes of the entries. -/
def buildManifest (sha256Hex : Bytes → String) (entries : List (String × Bytes)) :
    List (String × String) :=
  entries.map fun entry => (entry.1, sha256Hex entry.2)

/-- `d.update(other)`. -/
def update (d other : List (String × String)) : List (String × String) :=
  other.foldl (fun d entry => putEntry d entry.1 entry.2) d

/-- What a run leaves: the catalogs of the manifest and the files in the order in which they
were written. -/
structure Published where
  catalogs : List (String × String)
  written : List (String × Bytes)
  skipped : List String
  deriving DecidableEq

/-- The rounds of the loop over versions with their places. -/
def publishVersions (args : PublishArgs) (prior : List (String × String)) (src : Nat → Generated) :
    List (String × Nat) → Progress → Option Progress
  | [], p => some p
  | (version, i) :: rest, p => do
    publishVersions args prior src rest (← publishVersion args prior p version (src i))

/-- `generate-all`: `src i` is what generating the `i`-th version of the list ends with. -/
def generateAll (sha256Hex : Bytes → String) (args : PublishArgs) (prior : List (String × String))
    (src : Nat → Generated) : Option Published := do
  let p ← publishVersions args prior src args.requested.zipIdx {}
  return ⟨update (buildManifest sha256Hex p.entries) p.carried, p.written, p.skipped⟩

/-! ### Keys and look-ups -/

section Keys

variable {args : PublishArgs} {v w : String}

theorem coreKey_injective (h : args.coreKey v = args.coreKey w) : v = w := by
  have hlists := congrArg String.toList h
  simp only [PublishArgs.coreKey, String.toList_append] at hlists
  exact String.toList_injective (List.append_cancel_left hlists)

theorem plugKey_injective (h : args.plugKey v = args.plugKey w) : v = w := by
  have hlists := congrArg String.toList h
  simp only [PublishArgs.plugKey, String.toList_append] at hlists
  exact String.toList_injective (List.append_cancel_left hlists)

theorem coreKey_ne_plugKey : args.coreKey v ≠ args.plugKey w := by
  intro h
  have hlists := congrArg String.toList h
  simp only [PublishArgs.coreKey, PublishArgs.plugKey, String.toList_append,
    List.append_assoc] at hlists
  have htails := List.append_cancel_left hlists
  simp at htails

end Keys

theorem lookup_update {d other : List (String × String)} (h : (other.map (·.1)).Nodup) (k : String) :
    (update d other).lookup k = (other.lookup k).or (d.lookup k) := by
  induction other generalizing d with
  | nil => rfl
  | cons entry other ih =>
    obtain ⟨k₀, hash⟩ := entry
    obtain ⟨hk₀, hother⟩ := List.nodup_cons.mp h
    rw [update, List.foldl_cons, ← update, ih hother, lookup_putEntry, List.lookup_cons]
    by_cases hk : k = k₀
    · subst hk
      have hnone : other.lookup k = none := by
        rw [List.lookup_eq_none_iff]
        intro entry hentry
        rw [bne_iff_ne]
        rintro rfl
        exact hk₀ (List.mem_map.mpr ⟨entry, hentry, rfl⟩)
      simp [hnone]
    · rw [if_neg hk, beq_false_of_ne hk]

theorem lookup_buildManifest (sha256Hex : Bytes → String) (entries : List (String × Bytes))
    (k : String) :
    (buildManifest sha256Hex entries).lookup k = (entries.lookup k).map sha256Hex := by
  induction entries with
  | nil => rfl
  | cons entry entries ih =>
    rw [buildManifest, List.map_cons, List.lookup_cons, List.lookup_cons, ← buildManifest, ih]
    cases k == entry.1 <;> rfl

/-! ### What a run has done -/

/-- A catalog in its turn: its key, whether it is to be written, and what is written unless
that raises. -/
structure Turn where
  key : String
  need : Bool
  blob : Option Bytes

/-- The turns of a version: its core catalog and that of the plugins. -/
def turnsOf (args : PublishArgs) (prior : List (String × String)) (src : Nat → Generated)
    (place : String × Nat) : List Turn :=
  [⟨args.coreKey place.1, args.needCore prior place.1, (src place.2).core⟩,
    ⟨args.plugKey place.1, args.needPlug prior place.1, (src place.2).plugins⟩]

/-- What a turn does. -/
def Progress.turn (p : Progress) (prior : List (String × String)) (t : Turn) : Progress :=
  if t.need then
    match t.blob with
    | some blob => p.write t.key blob
    | none => p
  else p.carry prior t.key

/-- What a turn writes. -/
def Turn.writes (t : Turn) : List (String × Bytes) :=
  if t.need then (t.blob.map fun blob => (t.key, blob)).toList else []

/-- The variables after some turns. -/
structure Sound (prior : List (String × String)) (turns : List Turn) (p : Progress) : Prop where
  written : p.written = turns.flatMap Turn.writes
  entries : ∀ k, p.entries.lookup k = p.written.reverse.lookup k
  nodup : (p.carried.map (·.1)).Nodup
  carried : ∀ k hash, p.carried.lookup k = some hash ↔
    prior.lookup k = some hash ∧ ∃ t ∈ turns, t.key = k ∧ t.need = false

section Run

variable {args : PublishArgs} {prior : List (String × String)} {src : Nat → Generated}
  {turns : List Turn} {p p' : Progress}

theorem Sound.start : Sound prior [] {} where
  written := rfl
  entries _ := rfl
  nodup := List.nodup_nil
  carried k hash := by simp

/-- One more turn. -/
theorem Sound.turn (h : Sound prior turns p) (t : Turn) :
    Sound prior (turns ++ [t]) (p.turn prior t) := by
  have hlast : (turns ++ [t]).flatMap Turn.writes = p.written ++ t.writes := by
    rw [List.flatMap_append, ← h.written, List.flatMap_singleton]
  rw [Progress.turn]
  cases hneed : t.need with
  | true =>
    have hcarried : ∀ k hash, p.carried.lookup k = some hash ↔
        prior.lookup k = some hash ∧ ∃ t' ∈ turns ++ [t], t'.key = k ∧ t'.need = false := by
      intro k hash
      simp [h.carried, or_and_right, exists_or, hneed]
    rw [if_pos rfl]
    -- the turn publishes its catalog, if it was generated
    cases hblob : t.blob with
    | none =>
      refine ⟨?_, h.entries, h.nodup, hcarried⟩
      rw [hlast, Turn.writes, hneed, if_pos rfl, hblob]
      exact (List.append_nil _).symm
    | some blob =>
      refine ⟨?_, ?_, h.nodup, hcarried⟩
      · rw [hlast, Turn.writes, hneed, if_pos rfl, hblob]
        rfl
      · intro k
        show (putEntry p.entries t.key blob).lookup k = (p.written ++ [(t.key, blob)]).reverse.lookup k
        rw [lookup_putEntry, List.reverse_append, List.reverse_singleton, List.singleton_append,
          List.lookup_cons, h.entries]
        by_cases hk : k = t.key
        · rw [if_pos hk, beq_iff_eq.mpr hk]
        · rw [if_neg hk, beq_false_of_ne hk]
  | false =>
    have hwritten : p.written = (turns ++ [t]).flatMap Turn.writes := by
      rw [hlast, Turn.writes, hneed, if_neg Bool.false_ne_true, List.append_nil]
    rw [if_neg Bool.false_ne_true, Progress.carry]
    -- the turn carries over the entry of the earlier manifest, if there is one
    cases hprior : prior.lookup t.key with
    | none =>
      refine ⟨hwritten, h.entries, h.nodup, ?_⟩
      intro k hash
      rw [h.carried]
      refine and_congr_right fun hk => ?_
      have hne : t.key ≠ k := by
        rintro rfl
        exact nomatch hprior.symm.trans hk
      simp [or_and_right, exists_or, hne]
    | some hash₀ =>
      refine ⟨hwritten, h.entries, putEntry_nodup h.nodup _ _, ?_⟩
      intro k hash
      show (putEntry p.carried t.key hash₀).lookup k = some hash ↔ _
      rw [lookup_putEntry]
      by_cases hk : k = t.key
      · subst hk
        rw [if_pos rfl, hprior]
        simp [hneed]
      · rw [if_neg hk, h.carried]
        simp [or_and_right, exists_or, Ne.symm hk]

theorem Sound.foldl_turn (h : Sound prior turns p) (ts : List Turn) :
    Sound prior (turns ++ ts) (ts.foldl (fun p t => p.turn prior t) p) := by
  induction ts generalizing turns p with
  | nil =>
    rw [List.append_nil]
    exact h
  | cons t ts ih =>
    have hrest := ih (h.turn t)
    rw [List.append_assoc] at hrest
    exact hrest

theorem publishVersion_eq {version : String} {i : Nat}
    (h : publishVersion args prior p version (src i) = some p') :
    (args.needCore prior version = true → (src i).core.isSome) ∧
      ∃ skipped, p' = { (turnsOf args prior src (version, i)).foldl
        (fun p t => p.turn prior t) p with skipped := skipped } := by
  simp only [publishVersion] at h
  simp only [turnsOf, List.foldl_cons, List.foldl_nil, Progress.turn]
  cases hcore : args.needCore prior version <;> cases hplug : args.needPlug prior version
  · simp only [hcore, hplug] at h
    exact ⟨nofun, _, (Option.some.inj h).symm⟩
  · simp only [hcore, hplug] at h
    refine ⟨nofun, p'.skipped, ?_⟩
    cases hblob : (src i).plugins with
    | none =>
      simp only [hblob] at h
      obtain rfl := Option.some.inj h
      rfl
    | some blob =>
      simp only [hblob] at h
      obtain rfl := Option.some.inj h
      rfl
  · simp only [hcore, hplug] at h
    cases hblob : (src i).core with
    | none => simp [hblob] at h
    | some blob =>
      simp only [hblob] at h
      obtain rfl := Option.some.inj h
      exact ⟨fun _ => rfl, _, rfl⟩
  · simp only [hcore, hplug] at h
    cases hblob : (src i).core with
    | none => simp [hblob] at h
    | some blob =>
      refine ⟨fun _ => rfl, p'.skipped, ?_⟩
      simp only [hblob] at h
      cases hplugins : (src i).plugins with
      | none =>
        simp only [hplugins] at h
        obtain rfl := Option.some.inj h
        rfl
      | some blob' =>
        simp only [hplugins] at h
        obtain rfl := Option.some.inj h
        rfl

theorem Sound.skipped (h : Sound prior turns p) (skipped : List String) :
    Sound prior turns { p with skipped := skipped } :=
  ⟨h.written, h.entries, h.nodup, h.carried⟩

theorem Sound.run {places : List (String × Nat)} (h : Sound prior turns p)
    (hrun : publishVersions args prior src places p = some p') :
    Sound prior (turns ++ places.flatMap (turnsOf args prior src)) p' ∧
      ∀ place ∈ places, args.needCore prior place.1 = true → (src place.2).core.isSome := by
  induction places generalizing turns p with
  | nil =>
    obtain rfl := Option.some.inj hrun
    rw [List.flatMap_nil, List.append_nil]
    exact ⟨h, fun _ hmem => absurd hmem List.not_mem_nil⟩
  | cons place places ih =>
    obtain ⟨version, i⟩ := place
    obtain ⟨p₁, hround, hrest⟩ := Option.bind_eq_some_iff.mp hrun
    obtain ⟨hcore, skipped, rfl⟩ := publishVersion_eq hround
    obtain ⟨hall, hneed⟩ := ih ((h.foldl_turn (turnsOf args prior src (version, i))).skipped skipped) hrest
    refine ⟨?_, List.forall_mem_cons.mpr ⟨hcore, hneed⟩⟩
    rw [List.flatMap_cons, ← List.append_assoc]
    exact hall

end Run

/-! ### The manifest -/

/-- Nothing is lost: the keys of the requested versions that the earlier manifest has are in
the new one, and the hash of every key is that of the last file written for it, or the earlier
one if none was. -/
def NothingLost (sha256Hex : Bytes → String) (args : PublishArgs)
    (prior : List (String × String)) (out : Published) : Prop :=
  (∀ version ∈ args.requested, ∀ key ∈ [args.coreKey version, args.plugKey version],
    (prior.lookup key).isSome → (out.catalogs.lookup key).isSome) ∧
  ∀ key hash, out.catalogs.lookup key = some hash →
    match out.written.reverse.lookup key with
    | some blob => hash = sha256Hex blob
    | none => prior.lookup key = some hash

/-- Each requested version whose plugins catalog is in the earlier manifest and has to be
written again is generated at one of its places in the list. -/
def PluginsGenerated (args : PublishArgs) (prior : List (String × String))
    (src : Nat → Generated) : Prop :=
  ∀ version ∈ args.requested, args.force = true → args.withPlugins = true →
    (prior.lookup (args.plugKey version)).isSome →
    ∃ i, (version, i) ∈ args.requested.zipIdx ∧ (src i).plugins.isSome

section Manifest

variable {sha256Hex : Bytes → String} {args : PublishArgs} {prior : List (String × String)}
  {src : Nat → Generated} {out : Published}

theorem need_eq {places : List (String × Nat)} {t t' : Turn}
    (ht : t ∈ places.flatMap (turnsOf args prior src))
    (ht' : t' ∈ places.flatMap (turnsOf args prior src)) (h : t.key = t'.key) :
    t.need = t'.need := by
  obtain ⟨⟨v, i⟩, -, ht⟩ := List.mem_flatMap.mp ht
  obtain ⟨⟨w, j⟩, -, ht'⟩ := List.mem_flatMap.mp ht'
  simp only [turnsOf, List.mem_cons, List.not_mem_nil, or_false] at ht ht'
  rcases ht with rfl | rfl <;> rcases ht' with rfl | rfl
  · obtain rfl := coreKey_injective h
    rfl
  · exact absurd h coreKey_ne_plugKey
  · exact absurd h.symm coreKey_ne_plugKey
  · obtain rfl := plugKey_injective h
    rfl

/-- What a run publishes, by the turns it has gone through. -/
structure Accounts (sha256Hex : Bytes → String) (args : PublishArgs)
    (prior : List (String × String)) (src : Nat → Generated) (out : Published)
    (turns : List Turn) : Prop where
  turns_eq : turns = args.requested.zipIdx.flatMap (turnsOf args prior src)
  core : ∀ place ∈ args.requested.zipIdx, args.needCore prior place.1 = true →
    (src place.2).core.isSome
  written : out.written = turns.flatMap Turn.writes
  catalogs : ∀ key, ∃ carried : Option String,
    out.catalogs.lookup key = carried.or ((out.written.reverse.lookup key).map sha256Hex) ∧
      ∀ hash, carried = some hash ↔
        prior.lookup key = some hash ∧ ∃ t ∈ turns, t.key = key ∧ t.need = false

theorem generateAll_accounts (h : generateAll sha256Hex args prior src = some out) :
    ∃ turns, Accounts sha256Hex args prior src out turns := by
  obtain ⟨p, hrun, hout⟩ := Option.bind_eq_some_iff.mp h
  obtain rfl := Option.some.inj hout
  obtain ⟨hsound, hcore⟩ := Sound.start.run hrun
  rw [List.nil_append] at hsound
  refine ⟨_, rfl, hcore, hsound.written, fun key => ⟨p.carried.lookup key, ?_, hsound.carried key⟩⟩
  rw [lookup_update hsound.nodup, lookup_buildManifest, hsound.entries]

theorem mem_writes {turns : List Turn} {key : String} {blob : Bytes} :
    (key, blob) ∈ turns.flatMap Turn.writes ↔
      ∃ t ∈ turns, t.key = key ∧ t.need = true ∧ t.blob = some blob := by
  rw [List.mem_flatMap]
  refine exists_congr fun t => and_congr_right fun _ => ?_
  rw [Turn.writes]
  split
  · rename_i hneed
    simp [hneed, and_comm]
  · rename_i hneed
    simp [hneed]

theorem isSome_lookup_reverse {l : List (String × Bytes)} {key : String} :
    (l.reverse.lookup key).isSome ↔ ∃ blob, (key, blob) ∈ l := by
  rw [← Option.not_isNone, Bool.not_eq_true', ← Bool.not_eq_true, Option.isNone_iff_eq_none,
    List.lookup_eq_none_iff]
  constructor
  · intro h
    by_contra hnot
    refine h fun entry hentry => ?_
    rw [bne_iff_ne]
    rintro rfl
    exact hnot ⟨entry.2, List.mem_reverse.mp hentry⟩
  · rintro ⟨blob, hmem⟩ h
    exact absurd (h _ (List.mem_reverse.mpr hmem)) (by simp)

theorem mem_lookup_reverse {l : List (String × Bytes)} {key : String} {blob : Bytes}
    (h : l.reverse.lookup key = some blob) : (key, blob) ∈ l := by
  obtain ⟨l₁, l₂, hsplit, -⟩ := List.lookup_eq_some_iff.mp h
  rw [← List.mem_reverse, hsplit]
  exact List.mem_append_right _ List.mem_cons_self

theorem exists_place {version : String} (h : version ∈ args.requested) :
    ∃ i, (version, i) ∈ args.requested.zipIdx := by
  rw [← List.zipIdx_map_fst 0 args.requested] at h
  obtain ⟨⟨v, i⟩, hmem, rfl⟩ := List.mem_map.mp h
  exact ⟨i, hmem⟩

namespace Accounts

variable {turns : List Turn}

theorem mem_turns (h : Accounts sha256Hex args prior src out turns) {place : String × Nat}
    (hplace : place ∈ args.requested.zipIdx) {t : Turn} (ht : t ∈ turnsOf args prior src place) :
    t ∈ turns := by
  rw [h.turns_eq]
  exact List.mem_flatMap.mpr ⟨place, hplace, ht⟩

theorem need_eq (h : Accounts sha256Hex args prior src out turns) {t t' : Turn} (ht : t ∈ turns)
    (ht' : t' ∈ turns) (hkey : t.key = t'.key) : t.need = t'.need := by
  rw [h.turns_eq] at ht ht'
  exact CatalogTool.need_eq ht ht' hkey

theorem kept (h : Accounts sha256Hex args prior src out turns) {t : Turn} (ht : t ∈ turns)
    (hprior : (prior.lookup t.key).isSome) (hblob : t.need = true → t.blob.isSome) :
    (out.catalogs.lookup t.key).isSome := by
  obtain ⟨carried, hlookup, hcarried⟩ := h.catalogs t.key
  rw [hlookup]
  cases hn : t.need with
  | true =>
    obtain ⟨blob, hb⟩ := Option.isSome_iff_exists.mp (hblob hn)
    have hsome : (out.written.reverse.lookup t.key).isSome := by
      rw [isSome_lookup_reverse, h.written]
      exact ⟨blob, mem_writes.mpr ⟨t, ht, rfl, hn, hb⟩⟩
    simp [hsome]
  | false =>
    obtain ⟨hash, hh⟩ := Option.isSome_iff_exists.mp hprior
    rw [(hcarried hash).mpr ⟨hh, t, ht, rfl, hn⟩]
    rfl

theorem plugins_generated (h : Accounts sha256Hex args prior src out turns) {version : String}
    (hversion : version ∈ args.requested) (hneeded : args.needPlug prior version = true)
    (hin : (out.catalogs.lookup (args.plugKey version)).isSome) :
    ∃ i, (version, i) ∈ args.requested.zipIdx ∧ (src i).plugins.isSome := by
  obtain ⟨i, hi⟩ := exists_place hversion
  obtain ⟨carried, hlookup, hcarried⟩ := h.catalogs (args.plugKey version)
  cases hc : carried with
  | some hash =>
    obtain ⟨-, t, ht, hkey, hn⟩ := (hcarried hash).mp hc
    have hturn : ⟨args.plugKey version, args.needPlug prior version, (src i).plugins⟩ ∈ turns :=
      h.mem_turns hi (by simp [turnsOf])
    have hsame := h.need_eq ht hturn hkey
    rw [hn, hneeded] at hsame
    exact absurd hsame Bool.false_ne_true
  | none =>
    rw [hlookup, hc, Option.none_or, Option.isSome_map, isSome_lookup_reverse, h.written] at hin
    obtain ⟨blob, hblob⟩ := hin
    obtain ⟨t, ht, hkey, -, hb⟩ := mem_writes.mp hblob
    rw [h.turns_eq] at ht
    obtain ⟨⟨w, j⟩, hw, ht⟩ := List.mem_flatMap.mp ht
    simp only [turnsOf, List.mem_cons, List.not_mem_nil, or_false] at ht
    rcases ht with rfl | rfl
    · exact absurd hkey coreKey_ne_plugKey
    · obtain rfl := plugKey_injective hkey
      exact ⟨j, hw, Option.isSome_iff_exists.mpr ⟨blob, hb⟩⟩

theorem hash_eq (h : Accounts sha256Hex args prior src out turns) {key hash : String}
    (hlookup : out.catalogs.lookup key = some hash) :
    match out.written.reverse.lookup key with
    | some blob => hash = sha256Hex blob
    | none => prior.lookup key = some hash := by
  obtain ⟨carried, heq, hcarried⟩ := h.catalogs key
  rw [heq] at hlookup
  cases hlast : out.written.reverse.lookup key with
  | none =>
    rw [hlast, Option.map_none, Option.or_none] at hlookup
    exact ((hcarried hash).mp hlookup).1
  | some blob =>
    have hmem := mem_lookup_reverse hlast
    rw [h.written] at hmem
    obtain ⟨t, ht, hkey, hn, -⟩ := mem_writes.mp hmem
    -- a catalog that was written is not carried as well
    have hnone : carried = none := by
      rw [Option.eq_none_iff_forall_ne_some]
      intro hash' hc
      obtain ⟨-, t', ht', hkey', hn'⟩ := (hcarried hash').mp hc
      have hsame := h.need_eq ht ht' (hkey.trans hkey'.symm)
      rw [hn, hn'] at hsame
      exact Bool.false_ne_true hsame.symm
    rw [hnone, hlast, Option.none_or, Option.map_some] at hlookup
    exact (Option.some.inj hlookup).symm

end Accounts

/-- **Publishing loses nothing but plugins.**  A run that ends keeps every catalog of the
requested versions if and only if each plugins catalog that it had to write again was
generated. -/
theorem nothingLost_iff (h : generateAll sha256Hex args prior src = some out) :
    NothingLost sha256Hex args prior out ↔ PluginsGenerated args prior src := by
  obtain ⟨turns, hacc⟩ := generateAll_accounts h
  constructor
  · rintro ⟨hkeys, -⟩ version hversion hforce hplugins hprior
    have hneeded : args.needPlug prior version = true := by
      simp [PublishArgs.needPlug, hforce, hplugins]
    exact hacc.plugins_generated hversion hneeded (hkeys version hversion _ (by simp) hprior)
  · intro hgenerated
    refine ⟨?_, fun key hash hlookup => hacc.hash_eq hlookup⟩
    intro version hversion key hkey hprior
    obtain ⟨i, hi⟩ := exists_place hversion
    simp only [List.mem_cons, List.not_mem_nil, or_false] at hkey
    rcases hkey with rfl | rfl
    · exact hacc.kept (hacc.mem_turns hi List.mem_cons_self) hprior (hacc.core _ hi)
    · by_cases hneeded : args.needPlug prior version = true
      · -- it is in the earlier manifest, so it is needed under `--force` only
        have hforced : args.withPlugins = true ∧ args.force = true := by
          rw [PublishArgs.needPlug, Bool.and_eq_true, Bool.or_eq_true] at hneeded
          refine ⟨hneeded.1, hneeded.2.resolve_right ?_⟩
          rw [Option.isNone_iff_eq_none]
          intro hnone
          rw [hnone] at hprior
          exact absurd hprior Bool.false_ne_true
        obtain ⟨j, hj, hsome⟩ := hgenerated version hversion hforced.2 hforced.1 hprior
        have hturn := hacc.mem_turns hj (List.mem_cons_of_mem _ List.mem_cons_self)
        exact hacc.kept hturn hprior fun _ => hsome
      · have hturn := hacc.mem_turns hi (List.mem_cons_of_mem _ List.mem_cons_self)
        exact hacc.kept hturn hprior fun hn => absurd hn hneeded

def sampleHash (blob : Bytes) : String :=
  if blob = [123, 125, 10] then "ca3d163bab055381827226140568f3bef7eaac187cebd76878e0b63e9e442356"
  else ""

def samplePrior : List (String × String) :=
  [("community/26.1.7", "aa"), ("community-plugins/26.1.7", "bb")]

/-- An incremental run over that version and a new one, whose plugins catalog fails. -/
def samplePublished : Published where
  catalogs := ("community/26.1.8", sampleHash [123, 125, 10]) :: samplePrior
  written := [("community/26.1.8", [123, 125, 10])]
  skipped := ["26.1.7"]

theorem incremental_run :
    generateAll sampleHash ⟨"community", "26.1.7, 26.1.8", false, true⟩ samplePrior
      (fun _ => ⟨some [123, 125, 10], none⟩) = some samplePublished ∧
    NothingLost sampleHash ⟨"community", "26.1.7, 26.1.8", false, true⟩ samplePrior
      samplePublished := by
  have hrun : generateAll sampleHash ⟨"community", "26.1.7, 26.1.8", false, true⟩ samplePrior
      (fun _ => ⟨some [123, 125, 10], none⟩) = some samplePublished := by decide +kernel
  refine ⟨hrun, (nothingLost_iff hrun).mpr ?_⟩
  intro version _ hforce
  exact absurd hforce Bool.false_ne_true

/-- A forced run whose plugins catalog fails drops the earlier one from the manifest. -/
theorem plugins_dropped :
    generateAll sampleHash ⟨"community", "26.1.7", true, true⟩ samplePrior
      (fun _ => ⟨some [123, 125, 10], none⟩) =
      some ⟨[("community/26.1.7", sampleHash [123, 125, 10])],
        [("community/26.1.7", [123, 125, 10])], []⟩ ∧
    ¬ NothingLost sampleHash ⟨"community", "26.1.7", true, true⟩ samplePrior
      ⟨[("community/26.1.7", sampleHash [123, 125, 10])],
        [("community/26.1.7", [123, 125, 10])], []⟩ := by
  refine ⟨by decide +kernel, ?_⟩
  rintro ⟨hkeys, -⟩
  have hin := hkeys "26.1.7" (by decide +kernel) "community-plugins/26.1.7" (by decide +kernel)
    (by decide +kernel)
  exact absurd hin (by decide +kernel)

end Manifest

end CatalogTool

end Opngms
