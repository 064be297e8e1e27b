/-
Opngms/CatalogOffline.lean

Catalogs without the release server (the end of `get_catalog` and of
`get_plugins_catalog` in services/catalog_provider.py).

A row is cached under the identity that the release resolved.  Without the release a
call probes the device's own identity only, so what a version was served by floor
resolution, or by the Business map, is not found again (`floored_not_served`).  A catalog
of the device's own identity is, as its column gives it back, once the transaction that
cached it is committed (**`offline_served`**).
-/
import Opngms.CatalogProvider
import Opngms.JoinedLists

namespace Opngms

namespace CatalogProvider

section Offline

variable {Bytes : Type} (lib : Library Bytes)

def Call.Offline (c : Call Bytes) : Prop := c.autoFetch = false ∨ ∀ url, c.server url = none

/-- The two functions. -/
inductive Provider where
  | core
  | plugins

namespace Provider

variable (p : Provider) (c : Call Bytes)

def event : Event Bytes :=
  match p with
  | core => .core c
  | plugins => .plugins c

def get (cache : List CatalogCache) : Outcome :=
  match p with
  | core => getCatalog lib c cache
  | plugins => getPluginsCatalog lib c cache

def own : String × String :=
  match p with
  | core => (editionOf c.edition, c.version)
  | plugins => (pluginsEdition, c.version)

def target : Option (String × String) :=
  if c.autoFetch then
    match p with
    | core => (tryCore lib c []).1
    | plugins => (tryPlugins lib c []).1.map (pluginsEdition, ·)
  else none

/-- The `try` block. -/
def served (cache : List CatalogCache) : Served :=
  if c.autoFetch then
    match p with
    | core => (tryCore lib c cache).2
    | plugins => (tryPlugins lib c cache).2
  else ⟨.ok none, cache, []⟩

def caught : Failure → Bool :=
  match p with
  | core => Failure.caught
  | plugins => Failure.caughtByPlugins

theorem get_eq (cache : List CatalogCache) :
    p.get lib c cache =
      conclude p.caught (p.served lib c cache) ((p.target lib c).toList ++ [p.own c]) := by
  cases hfetch : c.autoFetch with
  | false =>
    cases p <;> simp [get, getCatalog, getPluginsCatalog, served, target, own, caught, hfetch]
  | true =>
    cases p with
    | core =>
      have htarget : (tryCore lib c cache).1 = (tryCore lib c []).1 := by
        simp only [tryCore]
        split <;> try rfl
        split <;> rfl
      simp [get, getCatalog, served, target, own, caught, hfetch, htarget]
    | plugins =>
      have htarget : (tryPlugins lib c cache).1 = (tryPlugins lib c []).1 := by
        simp only [tryPlugins]
        split <;> try rfl
        split <;> rfl
      simp [get, getPluginsCatalog, served, target, own, caught, hfetch, htarget, Option.toList_map]

end Provider

/-! ### Rows that are found again -/

variable {lib} {c : Call Bytes} {cache : List CatalogCache}

theorem cacheGet_extends {after : List CatalogCache} (h : Extends lib c cache after)
    {edition version : String} {row : CatalogCache}
    (hget : cacheGet cache edition version = .ok (some row)) :
    cacheGet after edition version = .ok (some row) := by
  obtain rfl | ⟨new, rfl, -, -⟩ := h
  · exact hget
  · obtain ⟨hquery, hrow⟩ := cacheGet_ok.mp hget
    refine cacheGet_ok.mpr ⟨hquery, ?_⟩
    rw [rowOf, List.find?_append]
    exact Option.or_eq_some_iff.mpr (.inl hrow)

/-- A catalog is the content of a row, or the call read it, and the row is what the column
gives back of it. -/
def CatalogCache.Gives (lib : Library Bytes) (c : Call Bytes) (row : CatalogCache)
    (content : Json) : Prop :=
  row.content = content ∨
    lib.stored content = some row.content ∧ Read lib c row.edition row.version content

theorem serve_lookup {manifest : Json} (hmanifest : c.fetchJson lib "manifest.json" = .ok manifest)
    {edition version : String} {content : Json}
    (h : (serve lib c cache manifest edition version).result = .ok (some content)) :
    ∃ row, cacheGet (serve lib c cache manifest edition version).cache edition version =
        .ok (some row) ∧ row.Gives lib c content := by
  obtain ⟨row, hget, hserve⟩ | ⟨r, assets, hserve, hr, -⟩ |
    ⟨raw, content', given, hget, hentry, hne, hraw, hloads, hstored, hserve⟩ :=
    serve_cases lib c cache manifest edition version
  · rw [hserve] at h ⊢
    exact ⟨row, hget, .inl (Option.some.inj (Except.ok.inj h))⟩
  · rw [hserve] at h
    exact absurd h (hr content)
  · rw [hserve] at h ⊢
    obtain rfl := Option.some.inj (Except.ok.inj h)
    obtain ⟨hquery, hmiss⟩ := cacheGet_ok.mp hget
    refine ⟨⟨edition, version, lib.sha256 raw, given⟩, cacheGet_ok.mpr ⟨hquery, ?_⟩,
      .inr ⟨hstored, manifest, _, raw, hmanifest, hentry, hne, hraw, rfl, hloads⟩⟩
    rw [rowOf, List.find?_append]
    exact Option.or_eq_some_iff.mpr (.inr ⟨hmiss, by simp⟩)

variable {p : Provider}

theorem served_lookup {content : Json}
    (h : (p.served lib c cache).result = .ok (some content)) :
    ∃ t row, p.target lib c = some t ∧
      cacheGet (p.served lib c cache).cache t.1 t.2 = .ok (some row) ∧ row.Gives lib c content := by
  cases hfetch : c.autoFetch with
  | false => simp [Provider.served, hfetch] at h
  | true =>
    cases p with
    | core =>
      simp only [Provider.served, Provider.target, hfetch, if_true] at h ⊢
      rw [tryCore] at h
      split at h
      · cases h
      · cases h
      · rename_i manifest edition version hresolve
        split at h
        · rename_i hsafe
          obtain ⟨row, hget, hcontent⟩ := serve_lookup (resolveCore_ok_iff.mp hresolve).1 h
          refine ⟨(edition, version), row, ?_, ?_, hcontent⟩
          · simp [tryCore, hresolve, hsafe]
          · simpa [tryCore, hresolve, hsafe] using hget
        · cases h
      · cases h
    | plugins =>
      simp only [Provider.served, Provider.target, hfetch, if_true] at h ⊢
      rw [tryPlugins] at h
      split at h
      · cases h
      · cases h
      · rename_i manifest version hresolve
        split at h
        · rename_i hsafe
          obtain ⟨row, hget, hcontent⟩ := serve_lookup (resolvePlugins_manifest hresolve) h
          refine ⟨(pluginsEdition, version), row, ?_, ?_, hcontent⟩
          · simp [tryPlugins, hresolve, hsafe]
          · simpa [tryPlugins, hresolve, hsafe] using hget
        · cases h
      · cases h

theorem get_cache : (p.get lib c cache).cache = (p.served lib c cache).cache := by
  rw [Provider.get_eq, conclude]
  split
  · rfl
  · rfl
  · split <;> rfl

/-- The identity whose catalog a call finds: the first that has a row after it, of the
one the release resolved and the device's own. -/
def Provider.found (p : Provider) (lib : Library Bytes) (c : Call Bytes)
    (cache : List CatalogCache) : Option (String × String) :=
  ((p.target lib c).toList ++ [p.own c]).find? fun id =>
    (rowOf (p.get lib c cache).cache id.1 id.2).isSome

theorem probe_found {ids : List (String × String)} {content : Json}
    (h : probe cache ids = .ok content) (hne : content ≠ .null) :
    ∃ id row, (ids.find? fun id => (rowOf cache id.1 id.2).isSome) = some id ∧
      cacheGet cache id.1 id.2 = .ok (some row) ∧ row.content = content := by
  induction ids with
  | nil => exact absurd (Except.ok.inj h).symm hne
  | cons id ids ih =>
    rw [probe] at h
    split at h
    · cases h
    · rename_i row hget
      exact ⟨id, row, by simp [(cacheGet_ok.mp hget).2], hget, Except.ok.inj h⟩
    · rename_i hmiss
      obtain ⟨id', row, hfind, hget, hcontent⟩ := ih h
      exact ⟨id', row, by simpa [(cacheGet_ok.mp hmiss).2] using hfind, hget, hcontent⟩

theorem get_found {content : Json} (h : (p.get lib c cache).result = .ok content)
    (hne : content ≠ .null) :
    ∃ id row, p.found lib c cache = some id ∧
      cacheGet (p.get lib c cache).cache id.1 id.2 = .ok (some row) ∧ row.Gives lib c content := by
  have hprobe (hcontent : probe (p.served lib c cache).cache
      ((p.target lib c).toList ++ [p.own c]) = .ok content) :
      ∃ id row, p.found lib c cache = some id ∧
        cacheGet (p.get lib c cache).cache id.1 id.2 = .ok (some row) ∧
        row.Gives lib c content := by
    rw [← get_cache] at hcontent
    obtain ⟨id, row, hfound, hget, hrow⟩ := probe_found hcontent hne
    exact ⟨id, row, hfound, hget, .inl hrow⟩
  have hresult := h
  rw [Provider.get_eq, conclude] at hresult
  split at hresult
  · rename_i content' hserved
    obtain rfl := Except.ok.inj hresult
    obtain ⟨t, row, ht, hget, hcontent⟩ := served_lookup hserved
    rw [← get_cache] at hget
    refine ⟨t, row, ?_, hget, hcontent⟩
    simp [Provider.found, ht, (cacheGet_ok.mp hget).2]
  · exact hprobe hresult
  · split at hresult
    · exact hprobe hresult
    · cases hresult

/-- The catalog of another identity is not what the call found: the release resolved the
device's own identity, or none, or one that has no row after the call. -/
def Provider.ServesOwn (p : Provider) (lib : Library Bytes) (c : Call Bytes)
    (cache : List CatalogCache) : Prop :=
  ∀ t, p.target lib c = some t → t = p.own c ∨ rowOf (p.get lib c cache).cache t.1 t.2 = none

theorem get_lookup (hown : p.ServesOwn lib c cache) {content : Json}
    (h : (p.get lib c cache).result = .ok content) (hne : content ≠ .null) :
    ∃ row, cacheGet (p.get lib c cache).cache (p.own c).1 (p.own c).2 = .ok (some row) ∧
      row.Gives lib c content := by
  obtain ⟨id, row, hfound, hget, hcontent⟩ := get_found h hne
  have hid : id = p.own c := by
    rcases List.mem_append.mp (List.mem_of_find?_eq_some hfound) with hmem | hmem
    · rcases hown id (Option.mem_toList.mp hmem) with hid | hmiss
      · exact hid
      · cases hmiss.symm.trans (cacheGet_ok.mp hget).2
    · exact List.mem_singleton.mp hmem
  subst hid
  exact ⟨row, hget, hcontent⟩

theorem get_offline (hoff : c.Offline) (cache : List CatalogCache) :
    (p.get lib c cache).result = probe cache [p.own c] := by
  have hserved : p.target lib c = none ∧ (p.served lib c cache).cache = cache ∧
      ((p.served lib c cache).result = .ok none ∨
        (p.served lib c cache).result = .error .http) := by
    cases hfetch : c.autoFetch with
    | false => simp [Provider.target, Provider.served, hfetch]
    | true =>
      have hserver : ∀ url, c.server url = none := hoff.resolve_left (by simp [hfetch])
      have hjson (name : String) : c.fetchJson lib name = .error .http := by
        rw [Call.fetchJson, Call.fetch, hserver]
        rfl
      have hcore : resolveCore lib c = .error .http := by
        rw [resolveCore, hjson]
        rfl
      have hplugins : resolvePlugins lib c = .error .http := by
        rw [resolvePlugins, hjson]
        rfl
      cases p <;>
        simp [Provider.target, Provider.served, hfetch, tryCore, tryPlugins, hcore, hplugins]
  obtain ⟨htarget, hcache, hresult⟩ := hserved
  rw [Provider.get_eq, htarget, conclude]
  rcases hresult with hresult | hresult
  · rw [hresult, hcache]
    rfl
  · rw [hresult, hcache]
    cases p <;> rfl

/-! ### Catalogs that are available -/

/-- The documents of a call resolve to an identity, and it is safe. -/
def CoreTarget (lib : Library Bytes) (c : Call Bytes) (manifest : Json) (t : String × String) :
    Prop :=
  c.autoFetch = true ∧ c.fetchJson lib "manifest.json" = .ok manifest ∧
  (∃ businessBase, c.businessBase lib = .ok businessBase ∧
    resolveTarget manifest businessBase (editionOf c.edition) c.version =
      .ok (some (t.1, .str t.2))) ∧
  (safeEdition t.1 && safeVersion t.2) = true

/-- The catalog of an identity is cached, or its asset is the one of the manifest, is decoded
and can be stored. -/
def Available (lib : Library Bytes) (c : Call Bytes) (cache : List CatalogCache) (manifest : Json)
    (edition version : String) : Prop :=
  (rowOf cache edition version).isSome ∨
  ∃ raw content, manifestEntry manifest (edition ++ "/" ++ version) =
      .ok (.str (lib.sha256 raw)) ∧
    lib.sha256 raw ≠ "" ∧ c.fetch (assetName edition version) = .ok raw ∧
    lib.loads raw = .ok content ∧ (lib.stored content).isSome

theorem storableText_of_safeVersion {version : String} (h : safeVersion version = true) :
    Json.storableText version = true := by
  rw [Json.storableText, List.all_eq_true]
  intro ch hch
  rw [safeVersion, Bool.and_eq_true, List.all_eq_true] at h
  by_contra hzero
  obtain rfl : ch = '\x00' := by simpa using hzero
  -- the dots are not zero characters, and the digits are not either
  obtain ⟨part, hpart, hmem⟩ : ∃ part ∈ version.toList.splitOn '.', '\x00' ∈ part :=
    exists_mem_splitOn hch (by decide)
  have hdigits := h.2 part hpart
  rw [Bool.and_eq_true, List.all_eq_true] at hdigits
  exact absurd (hdigits.2 _ hmem) (by decide)

theorem queryable_of_safe {edition version : String}
    (h : (safeEdition edition && safeVersion version) = true) :
    queryable edition version = true := by
  rw [Bool.and_eq_true, safeEdition, Bool.and_eq_true, List.all_eq_true] at h
  obtain ⟨⟨-, hedition⟩, hversion⟩ := h
  rw [queryable, storableText_of_safeVersion hversion, Bool.and_true, Json.storableText,
    List.all_eq_true]
  intro ch hch
  by_contra hzero
  obtain rfl : ch = '\x00' := by simpa using hzero
  exact absurd (hedition _ hch) (by decide)

theorem serve_available_iff {manifest : Json} {edition version : String}
    (hquery : queryable edition version = true) :
    ((∃ content, (serve lib c cache manifest edition version).result = .ok (some content)) ↔
      Available lib c cache manifest edition version) ∧
    ((rowOf (serve lib c cache manifest edition version).cache edition version).isSome ↔
      Available lib c cache manifest edition version) := by
  obtain ⟨row, hget, hserve⟩ | ⟨r, assets, hserve, hr, -⟩ |
    ⟨raw, content, given, hget, hentry, hne, hraw, hloads, hstored, hserve⟩ :=
    serve_cases lib c cache manifest edition version
  · have havail : Available lib c cache manifest edition version :=
      .inl (by rw [(cacheGet_ok.mp hget).2]; rfl)
    rw [hserve]
    exact ⟨iff_of_true ⟨_, rfl⟩ havail, iff_of_true (havail.elim id fun _ =>
      by rw [(cacheGet_ok.mp hget).2]; rfl) havail⟩
  · -- nothing was served, so there is no row and no asset
    have hnone : ¬ Available lib c cache manifest edition version := by
      intro h
      cases hrow : rowOf cache edition version with
      | some row =>
        simp only [serve, cacheGet_ok.mpr ⟨hquery, hrow⟩] at hserve
        exact hr _ (congrArg Served.result hserve).symm
      | none =>
        obtain hsome | ⟨raw, content, hentry, hne, hraw, hloads, hstored⟩ := h
        · rw [hrow] at hsome
          cases hsome
        · obtain ⟨given, hgiven⟩ := Option.isSome_iff_exists.mp hstored
          have htruthy : (Json.str (lib.sha256 raw)).truthy = true := by simpa using hne
          simp [serve, cacheGet_ok.mpr ⟨hquery, hrow⟩, hentry, hraw, htruthy, hloads, hgiven]
            at hserve
    rw [hserve]
    refine ⟨iff_of_false ?_ hnone, iff_of_false ?_ hnone⟩
    · rintro ⟨content, h⟩
      exact hr content h
    · exact fun h => hnone (.inl h)
  · have havail : Available lib c cache manifest edition version :=
      .inr ⟨raw, content, hentry, hne, hraw, hloads, by rw [hstored]; rfl⟩
    rw [hserve]
    refine ⟨iff_of_true ⟨_, rfl⟩ havail, iff_of_true ?_ havail⟩
    simp [rowOf]

theorem target_core_iff {t : String × String} :
    Provider.core.target lib c = some t ↔ ∃ manifest, CoreTarget lib c manifest t := by
  simp only [Provider.target, Option.ite_none_right_eq_some, CoreTarget, exists_and_left]
  apply and_congr_right
  intro _
  constructor
  · intro h
    rw [tryCore] at h
    split at h
    · cases h
    · cases h
    · rename_i manifest edition version hresolve
      split at h
      · rename_i hsafe
        obtain rfl := Option.some.inj h
        obtain ⟨hmanifest, htarget⟩ := resolveCore_ok_iff.mp hresolve
        exact ⟨manifest, hmanifest, htarget, hsafe⟩
      · cases h
    · cases h
  · rintro ⟨manifest, hmanifest, htarget, hsafe⟩
    simp [tryCore, resolveCore_ok_iff.mpr ⟨hmanifest, htarget⟩, hsafe]

theorem row_of_target_iff {manifest : Json} {t : String × String}
    (h : CoreTarget lib c manifest t) :
    (rowOf (Provider.core.get lib c cache).cache t.1 t.2).isSome ↔
      Available lib c cache manifest t.1 t.2 := by
  obtain ⟨hfetch, hmanifest, htarget, hsafe⟩ := h
  have hserved : Provider.core.served lib c cache = serve lib c cache manifest t.1 t.2 := by
    simp [Provider.served, hfetch, tryCore, resolveCore_ok_iff.mpr ⟨hmanifest, htarget⟩, hsafe]
  rw [get_cache, hserved]
  exact (serve_available_iff (queryable_of_safe hsafe)).2

/-! ### Rows that stay -/

/-- The row of an identity is committed, and the session sees it. -/
structure Db.Holds (db : Db) (id : String × String) (row : CatalogCache) : Prop where
  committed : cacheGet db.committed id.1 id.2 = .ok (some row)
  current : cacheGet db.current id.1 id.2 = .ok (some row)

theorem Db.Holds.step {db : Db} {id : String × String} {row : CatalogCache}
    (h : db.Holds id row) (e : Event Bytes) : (next lib db e).Holds id row := by
  cases hout : outcome lib db e with
  | none =>
    cases e with
    | commit => exact ⟨h.current, h.current⟩
    | close => exact ⟨h.committed, h.committed⟩
    | core c => cases hout
    | plugins c => cases hout
  | some o =>
    obtain ⟨c, -, hok⟩ := outcome_ok hout
    obtain ⟨hkept, hnext | hnext⟩ := next_call hout
    · exact ⟨hkept ▸ h.committed, hnext ▸ h.committed⟩
    · exact ⟨hkept ▸ h.committed, hnext ▸ cacheGet_extends hok.extends_ h.current⟩

theorem Db.Holds.run {db : Db} {id : String × String} {row : CatalogCache}
    (h : db.Holds id row) (es : List (Event Bytes)) : (es.foldl (next lib) db).Holds id row := by
  induction es generalizing db with
  | nil => exact h
  | cons e es ih => exact ih (h.step e)

/-- The transaction of the session ends with a commit. -/
def Commits (lib : Library Bytes) : Db → List (Event Bytes) → Prop
  | _, [] => False
  | _, .commit :: _ => True
  | _, .close :: _ => False
  | db, e :: es => (∀ o, outcome lib db e = some o → o.result ≠ .error .database) ∧
    Commits lib (next lib db e) es

theorem next_current {db : Db} {e : Event Bytes} {o : Outcome} (h : outcome lib db e = some o)
    (hne : o.result ≠ .error .database) : (next lib db e).current = o.cache := by
  cases e with
  | commit => cases h
  | close => cases h
  | core c | plugins c =>
    simp only [next, h]

theorem holds_of_commits {db : Db} {id : String × String} {row : CatalogCache}
    (hget : cacheGet db.current id.1 id.2 = .ok (some row)) {es : List (Event Bytes)}
    (hcommits : Commits lib db es) : (es.foldl (next lib) db).Holds id row := by
  induction es generalizing db with
  | nil => exact hcommits.elim
  | cons e es ih =>
    have hcall {o : Outcome} (hout : outcome lib db e = some o)
        (hne : ∀ o, outcome lib db e = some o → o.result ≠ .error .database)
        (hrest : Commits lib (next lib db e) es) :
        (es.foldl (next lib) (next lib db e)).Holds id row := by
      obtain ⟨c, -, hok⟩ := outcome_ok hout
      apply ih _ hrest
      rw [next_current hout (hne o hout)]
      exact cacheGet_extends hok.extends_ hget
    cases e with
    | commit =>
      have hholds : (next lib db .commit).Holds id row := ⟨hget, hget⟩
      exact hholds.run es
    | close => exact hcommits.elim
    | core c => exact hcall rfl hcommits.1 hcommits.2
    | plugins c => exact hcall rfl hcommits.1 hcommits.2

theorem outcome_event (p : Provider) (c : Call Bytes) (db : Db) :
    outcome lib db (p.event c) = some (p.get lib c db.current) := by
  cases p <;> rfl

/-- **A catalog of the device's own identity stays available.**  If a call of either
function returned a catalog, not that of another identity the release had resolved, and
its transaction was committed, then every later call of the function for the same edition
and version returns this catalog without the release server, as its row gives it back.
And whatever a call returns without the server is the row of the device's own identity. -/
theorem offline_served (lib : Library Bytes) (p : Provider) (d : Call Bytes) (hoff : d.Offline) :
    (∀ es₁ c es₂ content, (p.get lib c (history lib es₁).current).result = .ok content →
      content ≠ .null → p.ServesOwn lib c (history lib es₁).current →
      Commits lib (next lib (history lib es₁) (p.event c)) es₂ →
      d.edition = c.edition → d.version = c.version →
      ∃ given, (given = content ∨ lib.stored content = some given) ∧
        (p.get lib d (history lib (es₁ ++ p.event c :: es₂)).current).result = .ok given) ∧
    ∀ cache, (p.get lib d cache).result = probe cache [p.own d] := by
  refine ⟨?_, get_offline hoff⟩
  intro es₁ c es₂ content hresult hne hown hcommits hedition hversion
  obtain ⟨row, hget, hcontent⟩ := get_lookup hown hresult hne
  have hcurrent : (next lib (history lib es₁) (p.event c)).current =
      (p.get lib c (history lib es₁).current).cache := by
    apply next_current (outcome_event p c _)
    rw [hresult]
    exact nofun
  rw [← hcurrent] at hget
  have hholds := holds_of_commits hget hcommits
  have hsame : p.own d = p.own c := by
    cases p
    · simp only [Provider.own, hedition, hversion]
    · simp only [Provider.own, hversion]
  refine ⟨row.content, hcontent.imp_right And.left, ?_⟩
  rw [get_offline hoff, history, List.foldl_append, List.foldl_cons, ← history, hsame, probe,
    hholds.current]

end Offline

/-! ### A version of its own, and one that is floored -/

def sampleOffline (version : String) : Call String :=
  { sampleCall version with autoFetch := false }

/-- The catalog of 26.1.8 is served again, as its row gives it back. -/
theorem offline_served_release :
    ∃ given, (given = sampleCatalog ∨ sampleLib.stored sampleCatalog = some given) ∧
      (Provider.core.get sampleLib (sampleOffline "26.1.8")
        (history sampleLib
          ([] ++ Provider.core.event (sampleCall "26.1.8") :: [.commit])).current).result =
          .ok given :=
  (offline_served sampleLib .core (sampleOffline "26.1.8") (.inl rfl)).1 [] (sampleCall "26.1.8")
    [.commit] sampleCatalog rfl nofun
    (fun _ ht => .inl (Option.some.inj (ht.symm.trans rfl))) trivial rfl rfl

/-- What 26.1.9 was served is not: its row is that of 26.1.8.  Nor is a catalog whose
transaction was not committed. -/
theorem floored_not_served :
    (Provider.core.get sampleLib (sampleCall "26.1.9") (history sampleLib []).current).result =
        .ok sampleCatalog ∧
      (Provider.core.get sampleLib (sampleOffline "26.1.9")
        (history sampleLib [Provider.core.event (sampleCall "26.1.9"), .commit]).current).result =
          .ok .null ∧
      (Provider.core.get sampleLib (sampleCall "26.1.8") (history sampleLib []).current).result =
        .ok sampleCatalog ∧
      (Provider.core.get sampleLib (sampleOffline "26.1.8")
        (history sampleLib [Provider.core.event (sampleCall "26.1.8"), .close]).current).result =
          .ok .null :=
  ⟨rfl, rfl, rfl, rfl⟩

end CatalogProvider

end Opngms
