/-
Opngms/CatalogProvider.lean

The catalogs of a release (services/catalog_provider.py): which published catalog a
device is served, and the cache of the catalogs that were verified.

A call of `get_catalog` or `get_plugins_catalog` sees the release server as a function
from URLs to bodies, any function: nothing is assumed about what it answers.  The calls
only flush; a row they add stays when the transaction of their session is committed.

Every row of the cache was read from bytes whose SHA-256 is a non-empty entry of the
manifest of the same call, under the key of the row (**`only_verified`**).  The row holds
what its `jsonb` column gives back, which is not always what was read
(`cached_number_differs`).
-/
import Mathlib.Data.List.Induction
import Mathlib.Data.List.Lex
import Opngms.Pool
import Opngms.PyText

namespace Opngms

namespace CatalogProvider

/-! ### Versions -/

/-- One part in `_parse_version`. -/
def parsePart (p : List Char) : Except BuiltinError Nat :=
  match p.takeWhile isDecimal with
  | [] => .ok 0
  | digits => intOf digits

/-- `_parse_version`: only a text has a `split`. -/
def parseVersion : Json → Except BuiltinError (List Nat)
  | .str v => (v.toList.splitOn '.').mapM parsePart
  | _ => .error .attributeError

/-- The versions with what `_parse_version` makes of them. -/
def keyed (versions : List Json) : Except BuiltinError (List (Json × List Nat)) :=
  versions.mapM fun v => do return (v, ← parseVersion v)

/-- `max(…, key=_parse_version)`: the first of the greatest. -/
def highest : List (Json × List Nat) → Option (Json × List Nat)
  | [] => none
  | v :: vs => some (vs.foldl (fun best w => if best.2 < w.2 then w else best) v)

/-- `resolve_version`. -/
def resolveVersion (versions : List Json) (version : Json) :
    Except BuiltinError (Option Json) := do
  if versions.any fun v => v.pyEq version then return some version
  else
    let target ← parseVersion version
    let below := (← keyed versions).filter fun v => v.2 ≤ target
    return (highest below).map (·.1)

/-- `previous_version`. -/
def previousVersion (versions : List Json) (version : Json) :
    Except BuiltinError (Option Json) := do
  let target ← parseVersion version
  let below := (← keyed versions).filter fun v => v.2 < target
  return (highest below).map (·.1)

/-! ### The manifest -/

/-- `k.split("/", 1)[1]` if `k.startswith(family + "/")`. -/
def versionUnder (family : String) : Json → Except BuiltinError (Option Json)
  | .str k =>
    if (family ++ "/").toList.isPrefixOf k.toList then
      .ok (some (.str (String.ofList (k.toList.drop (family ++ "/").toList.length))))
    else .ok none
  | _ => .error .attributeError

/-- The versions of the keys of a manifest that are of one family. -/
def versionsOf (family : String) (manifest : Json) : Except BuiltinError (List Json) := do
  let catalogs ← manifest.attrGet "catalogs" (.obj [])
  let keys ← catalogs.iterate
  return (← keys.mapM (versionUnder family)).filterMap id

/-- `_community_versions`. -/
def communityVersions : Json → Except BuiltinError (List Json) := versionsOf "community"

/-- `_PLUGINS_EDITION`. -/
def pluginsEdition : String := "community-plugins"

/-- `_plugins_versions`. -/
def pluginsVersions : Json → Except BuiltinError (List Json) := versionsOf pluginsEdition

/-- `manifest.get("catalogs", {}).get(key)`. -/
def manifestEntry (manifest : Json) (key : String) : Except BuiltinError Json := do
  let catalogs ← manifest.attrGet "catalogs" (.obj [])
  catalogs.attrGet key .null

/-- `_SAFE_EDITION`. -/
def safeEdition (edition : String) : Bool :=
  !edition.toList.isEmpty && edition.toList.all fun c => 'a' ≤ c && c ≤ 'z'

/-- `_SAFE_VERSION`: one to four runs of digits between dots. -/
def safeVersion (version : String) : Bool :=
  let parts := version.toList.splitOn '.'
  parts.length ≤ 4 && parts.all fun p => !p.isEmpty && p.all isDecimal

/-- `m[k]` for a `k` from a list of texts. -/
def lookup (m : Json) : Json → Except BuiltinError Json
  | .str k => m.subscript k
  | _ => .error .typeError

/-- `(edition or "community").lower()`; no letter beyond ASCII lowers to one of the
editions that there are. -/
def editionOf (edition : String) : String :=
  Json.lower (if edition = "" then "community" else edition)

/-- `("community", cv) if cv else None`. -/
def communityTarget : Option Json → Option (String × Json)
  | some cv => if cv.truthy then some ("community", cv) else none
  | none => none

/-- `resolve_target`. -/
def resolveTarget (manifest businessBase : Json) (edition version : String) :
    Except BuiltinError (Option (String × Json)) := do
  let community ← communityVersions manifest
  if editionOf edition = "business" then
    let bmap ← (businessBase.orElse (.obj [])).attrGet "map" (.obj [])
    match ← resolveVersion (← bmap.iterate) (.str version) with
    | none => return none
    | some be => return communityTarget (← resolveVersion community (← lookup bmap be))
  else return communityTarget (← resolveVersion community (.str version))

/-! ### Fetching and verifying -/

/-- What a call raises: an `HTTPError`, a built-in exception, or an error of the database,
at a query or at the flush. -/
inductive Failure where
  | http
  | builtin (e : BuiltinError)
  | database
  deriving DecidableEq

/-- The exceptions that `get_catalog` catches. -/
def Failure.caught : Failure → Bool
  | .http | .builtin .valueError | .builtin (.keyError _) => true
  | _ => false

/-- The exceptions that `get_plugins_catalog` catches. -/
def Failure.caughtByPlugins : Failure → Bool
  | .http => true
  | .builtin e => e ≠ .recursionError
  | .database => false

/-- What the calls use of libraries: `hashlib.sha256(raw).hexdigest()`, `json.loads`, and
what a `jsonb` column gives back of a value, or none for a value that it refuses. -/
structure Library (Bytes : Type) where
  sha256 : Bytes → String
  loads : Bytes → Except BuiltinError Json
  stored : Json → Option Json

/-- A row of `catalog_cache`, with the content as the column gives it back. -/
structure CatalogCache where
  edition : String
  version : String
  sha256 : String
  content : Json

/-- A call, with the release server as it answers during the call: the body under a URL,
or none for an `HTTPError`. -/
structure Call (Bytes : Type) where
  edition : String
  version : String
  baseUrl : String
  autoFetch : Bool
  server : String → Option Bytes

/-- How far the `try` block of a call gets: a catalog, nothing, or an exception, with the
rows and the assets requested. -/
structure Served where
  result : Except Failure (Option Json)
  cache : List CatalogCache
  assets : List String

/-- What a call returns, with `null` for `None`, the rows after it and the assets it
requested. -/
structure Outcome where
  result : Except Failure Json
  cache : List CatalogCache
  assets : List String

def rowOf (cache : List CatalogCache) (edition version : String) : Option CatalogCache :=
  cache.find? fun row => row.edition == edition && row.version == version

/-- The texts of a query have no zero character. -/
def queryable (edition version : String) : Bool :=
  Json.storableText edition && Json.storableText version

/-- `_cache_get`. -/
def cacheGet (cache : List CatalogCache) (edition version : String) :
    Except Failure (Option CatalogCache) :=
  if queryable edition version then .ok (rowOf cache edition version) else .error .database

/-- The rows of the identities, probed in their order. -/
def probe (cache : List CatalogCache) : List (String × String) → Except Failure Json
  | [] => .ok .null
  | id :: ids =>
    match cacheGet cache id.1 id.2 with
    | .error e => .error e
    | .ok (some row) => .ok row.content
    | .ok none => probe cache ids

section Provider

variable {Bytes : Type} (lib : Library Bytes)

namespace Call

variable (c : Call Bytes)

/-- `base_url.rstrip("/")`. -/
def base : String :=
  String.ofList (c.baseUrl.toList.reverse.dropWhile (· = '/')).reverse

/-- The response to `GET {base}/{name}`. -/
def fetch (name : String) : Except Failure Bytes :=
  match c.server (c.base ++ "/" ++ name) with
  | some raw => .ok raw
  | none => .error .http

/-- The decoded response to `GET {base}/{name}`. -/
def fetchJson (name : String) : Except Failure Json := do
  (lib.loads (← c.fetch name)).mapError .builtin

end Call

def assetName (edition version : String) : String := edition ++ "-" ++ version ++ ".json"

/-- The catalog of a resolved identity: its row, or its asset if the hash of the bytes is
the entry of the manifest. -/
def serve (c : Call Bytes) (cache : List CatalogCache) (manifest : Json)
    (edition version : String) : Served :=
  match cacheGet cache edition version with
  | .error e => ⟨.error e, cache, []⟩
  | .ok (some row) => ⟨.ok (some row.content), cache, []⟩
  | .ok none =>
    match manifestEntry manifest (edition ++ "/" ++ version) with
    | .error e => ⟨.error (.builtin e), cache, []⟩
    | .ok expected =>
      let asset := c.base ++ "/" ++ assetName edition version
      match c.fetch (assetName edition version) with
      | .error e => ⟨.error e, cache, [asset]⟩
      | .ok raw =>
        let actual := lib.sha256 raw
        if !expected.truthy then ⟨.ok none, cache, [asset]⟩
        else if !(Json.str actual).pyEq expected then ⟨.ok none, cache, [asset]⟩
        else
          match lib.loads raw with
          | .error e => ⟨.error (.builtin e), cache, [asset]⟩
          | .ok content =>
            match lib.stored content with
            | some given =>
              ⟨.ok (some content), cache ++ [⟨edition, version, actual, given⟩], [asset]⟩
            | none => ⟨.error .database, cache, [asset]⟩

/-- The Business map, which is fetched for a Business device only. -/
def Call.businessBase (c : Call Bytes) : Except Failure Json :=
  if editionOf c.edition = "business" then c.fetchJson lib "business-base.json" else .ok .null

/-- What the release makes of a device's identity: the manifest, and `resolve_target`. -/
def resolveCore (c : Call Bytes) : Except Failure (Json × Option (String × Json)) := do
  let manifest ← c.fetchJson lib "manifest.json"
  let businessBase ← c.businessBase lib
  let target ←
    (resolveTarget manifest businessBase (editionOf c.edition) c.version).mapError .builtin
  return (manifest, target)

/-- The `try` block of `get_catalog`: the target it leaves, and what it serves. -/
def tryCore (c : Call Bytes) (cache : List CatalogCache) : Option (String × String) × Served :=
  match resolveCore lib c with
  | .error e => (none, ⟨.error e, cache, []⟩)
  | .ok (_, none) => (none, ⟨.ok none, cache, []⟩)
  | .ok (manifest, some (edition, .str version)) =>
    if safeEdition edition && safeVersion version then
      (some (edition, version), serve lib c cache manifest edition version)
    else (none, ⟨.ok none, cache, []⟩)
  | .ok (_, some (_, _)) => (none, ⟨.error (.builtin .typeError), cache, []⟩)

/-- The end of a call: what was served, what was raised and not caught, or the first row
of the identities. -/
def conclude (caught : Failure → Bool) (served : Served) (identities : List (String × String)) :
    Outcome :=
  match served.result with
  | .ok (some content) => ⟨.ok content, served.cache, served.assets⟩
  | .ok none => ⟨probe served.cache identities, served.cache, served.assets⟩
  | .error e =>
    if caught e then ⟨probe served.cache identities, served.cache, served.assets⟩
    else ⟨.error e, served.cache, served.assets⟩

/-- `get_catalog`. -/
def getCatalog (c : Call Bytes) (cache : List CatalogCache) : Outcome :=
  let (target, served) :=
    if c.autoFetch then tryCore lib c cache else (none, ⟨.ok none, cache, []⟩)
  conclude Failure.caught served (target.toList ++ [(editionOf c.edition, c.version)])

/-- What the release makes of the version of a device's plugins. -/
def resolvePlugins (c : Call Bytes) : Except Failure (Json × Option Json) := do
  let manifest ← c.fetchJson lib "manifest.json"
  let versions ← (pluginsVersions manifest).mapError .builtin
  if editionOf c.edition = "business" then
    let businessBase ← c.fetchJson lib "business-base.json"
    let version ← Except.mapError Failure.builtin do
      let bmap ← (businessBase.orElse (.obj [])).attrGet "map" (.obj [])
      match ← resolveVersion (← bmap.iterate) (.str c.version) with
      | none => return none
      | some be =>
        -- only a text goes on
        match ← bmap.attrGet be.pyStr .null with
        | .str cv => resolveVersion versions (.str cv)
        | _ => return none
    return (manifest, version)
  else
    let version ← (resolveVersion versions (.str c.version)).mapError .builtin
    return (manifest, version)

/-- The `try` block of `get_plugins_catalog`: the version it leaves, and what it serves. -/
def tryPlugins (c : Call Bytes) (cache : List CatalogCache) : Option String × Served :=
  match resolvePlugins lib c with
  | .error e => (none, ⟨.error e, cache, []⟩)
  | .ok (_, none) => (none, ⟨.ok none, cache, []⟩)
  | .ok (manifest, some (.str version)) =>
    if safeVersion version then
      (some version, serve lib c cache manifest pluginsEdition version)
    else (none, ⟨.ok none, cache, []⟩)
  | .ok (_, some _) => (none, ⟨.error (.builtin .typeError), cache, []⟩)

/-- `get_plugins_catalog`. -/
def getPluginsCatalog (c : Call Bytes) (cache : List CatalogCache) : Outcome :=
  let (version, served) :=
    if c.autoFetch then tryPlugins lib c cache else (none, ⟨.ok none, cache, []⟩)
  conclude Failure.caughtByPlugins served
    (version.toList.map (pluginsEdition, ·) ++ [(pluginsEdition, c.version)])

/-! ### Histories -/

/-- What happens on a session: calls, and the end of its transaction; `close` is a rollback. -/
inductive Event (Bytes : Type) where
  | core (c : Call Bytes)
  | plugins (c : Call Bytes)
  | commit
  | close

def Event.call? : Event Bytes → Option (Call Bytes)
  | .core c | .plugins c => some c
  | .commit | .close => none

/-- The rows of `catalog_cache`: those committed, and those the session sees. -/
structure Db where
  committed : List CatalogCache
  current : List CatalogCache

def outcome (db : Db) : Event Bytes → Option Outcome
  | .core c => some (getCatalog lib c db.current)
  | .plugins c => some (getPluginsCatalog lib c db.current)
  | .commit | .close => none

/-- The rows after an event; an error of the database ends the transaction. -/
def next (db : Db) (e : Event Bytes) : Db :=
  match e, outcome lib db e with
  | .commit, _ => ⟨db.current, db.current⟩
  | _, some o =>
    match o.result with
    | .error .database => ⟨db.committed, db.committed⟩
    | _ => ⟨db.committed, o.cache⟩
  | _, none => ⟨db.committed, db.committed⟩

def history (es : List (Event Bytes)) : Db := es.foldl (next lib) ⟨[], []⟩

theorem history_concat (es : List (Event Bytes)) (e : Event Bytes) :
    history lib (es ++ [e]) = next lib (history lib es) e := by
  simp [history]

/-! ### What is cached was verified -/

/-- A catalog was read from bytes whose hash is a non-empty entry of the manifest of the
call, under the key of the identity. -/
def Read (c : Call Bytes) (edition version : String) (content : Json) : Prop :=
  ∃ manifest entry raw, c.fetchJson lib "manifest.json" = .ok manifest ∧
    manifestEntry manifest (edition ++ "/" ++ version) = .ok (.str entry) ∧ entry ≠ "" ∧
    c.fetch (assetName edition version) = .ok raw ∧ lib.sha256 raw = entry ∧
    lib.loads raw = .ok content

/-- The content of a row is what the column gives back of a catalog that the call read. -/
def Verified (c : Call Bytes) (row : CatalogCache) : Prop :=
  ∃ content, Read lib c row.edition row.version content ∧ lib.stored content = some row.content

/-- An edition in `[a-z-]` and one to four numbers between dots. -/
def SafeIdentity (edition version : String) : Prop :=
  (∀ c ∈ edition.toList, ('a' ≤ c ∧ c ≤ 'z') ∨ c = '-') ∧ safeVersion version = true

/-- What a call may do to the cache: nothing, or add one row that it verified. -/
def Extends (c : Call Bytes) (before after : List CatalogCache) : Prop :=
  after = before ∨ ∃ row, after = before ++ [row] ∧
    rowOf before row.edition row.version = none ∧ Verified lib c row

/-- A catalog is the content of a row, or the call read it. -/
def Backed (c : Call Bytes) (cache : List CatalogCache) (content : Json) : Prop :=
  (∃ row ∈ cache, row.content = content) ∨ ∃ edition version, Read lib c edition version content

def SafeAssets (c : Call Bytes) (assets : List String) : Prop :=
  ∀ url ∈ assets, ∃ edition version,
    url = c.base ++ "/" ++ assetName edition version ∧ SafeIdentity edition version

/-- What a `try` block may do. -/
structure Served.Ok (c : Call Bytes) (cache : List CatalogCache) (s : Served) : Prop where
  extends_ : Extends lib c cache s.cache
  cached : ∀ content, s.result = .ok (some content) → Backed lib c s.cache content
  safe : SafeAssets c s.assets

variable {lib} {c : Call Bytes} {cache : List CatalogCache}

theorem served_ok_of_none {r : Except Failure (Option Json)}
    (h : ∀ content, r ≠ .ok (some content)) :
    Served.Ok lib c cache ⟨r, cache, []⟩ where
  extends_ := .inl rfl
  cached := fun content hr => absurd hr (h content)
  safe := by simp [SafeAssets]

theorem mem_of_rowOf {edition version : String} {row : CatalogCache}
    (h : rowOf cache edition version = some row) :
    row ∈ cache ∧ row.edition = edition ∧ row.version = version := by
  have hkey := List.find?_some h
  simp only [Bool.and_eq_true, beq_iff_eq] at hkey
  exact ⟨List.mem_of_find?_eq_some h, hkey⟩

theorem cacheGet_ok {edition version : String} {found : Option CatalogCache} :
    cacheGet cache edition version = .ok found ↔
      queryable edition version = true ∧ rowOf cache edition version = found := by
  unfold cacheGet
  split <;> simp [*]

/-- What `serve` does: it finds the row, or it serves nothing, or it adds the row of an
asset that it verified. -/
theorem serve_cases (lib : Library Bytes) (c : Call Bytes) (cache : List CatalogCache)
    (manifest : Json) (edition version : String) :
    (∃ row, cacheGet cache edition version = .ok (some row) ∧
      serve lib c cache manifest edition version = ⟨.ok (some row.content), cache, []⟩) ∨
    (∃ r assets, serve lib c cache manifest edition version = ⟨r, cache, assets⟩ ∧
      (∀ content, r ≠ .ok (some content)) ∧
      ∀ url ∈ assets, url = c.base ++ "/" ++ assetName edition version) ∨
    ∃ raw content given, cacheGet cache edition version = .ok none ∧
      manifestEntry manifest (edition ++ "/" ++ version) = .ok (.str (lib.sha256 raw)) ∧
      lib.sha256 raw ≠ "" ∧ c.fetch (assetName edition version) = .ok raw ∧
      lib.loads raw = .ok content ∧ lib.stored content = some given ∧
      serve lib c cache manifest edition version = ⟨.ok (some content),
        cache ++ [⟨edition, version, lib.sha256 raw, given⟩],
        [c.base ++ "/" ++ assetName edition version]⟩ := by
  have hasset : ∀ url ∈ [c.base ++ "/" ++ assetName edition version],
      url = c.base ++ "/" ++ assetName edition version := fun url hurl => List.mem_singleton.mp hurl
  cases hget : cacheGet cache edition version with
  | error e => exact .inr (.inl ⟨.error e, [], by simp only [serve, hget], nofun, nofun⟩)
  | ok found =>
  cases found with
  | some row => exact .inl ⟨row, rfl, by simp only [serve, hget]⟩
  | none =>
    right
    -- the checks in their order; each that fails serves nothing
    cases hentry : manifestEntry manifest (edition ++ "/" ++ version) with
    | error e =>
      exact .inl ⟨.error (.builtin e), [], by simp only [serve, hget, hentry], nofun, nofun⟩
    | ok expected =>
      cases hraw : c.fetch (assetName edition version) with
      | error e => exact .inl ⟨.error e, _, by simp only [serve, hget, hentry, hraw], nofun, hasset⟩
      | ok raw =>
        cases htruthy : expected.truthy with
        | false =>
          refine .inl ⟨.ok none, _, ?_, nofun, hasset⟩
          simp [serve, hget, hentry, hraw, htruthy]
        | true =>
          cases heq : (Json.str (lib.sha256 raw)).pyEq expected with
          | false =>
            refine .inl ⟨.ok none, _, ?_, nofun, hasset⟩
            simp [serve, hget, hentry, hraw, htruthy, heq]
          | true =>
            cases hloads : lib.loads raw with
            | error e =>
              refine .inl ⟨.error (.builtin e), _, ?_, nofun, hasset⟩
              simp [serve, hget, hentry, hraw, htruthy, heq, hloads]
            | ok content =>
              cases hstored : lib.stored content with
              | none =>
                refine .inl ⟨.error .database, _, ?_, nofun, hasset⟩
                simp [serve, hget, hentry, hraw, htruthy, heq, hloads, hstored]
              | some given =>
                have hexpected : expected = .str (lib.sha256 raw) := by
                  rw [Json.pyEq_str_left, decide_eq_true_eq] at heq
                  exact heq.symm
                subst hexpected
                refine .inr ⟨raw, content, given, rfl, rfl, by simpa using htruthy, rfl, hloads,
                  hstored, ?_⟩
                simp [serve, hget, hentry, hraw, htruthy, heq, hloads, hstored]

theorem serve_ok {manifest : Json} (hmanifest : c.fetchJson lib "manifest.json" = .ok manifest)
    {edition version : String} (hsafe : SafeIdentity edition version) :
    Served.Ok lib c cache (serve lib c cache manifest edition version) := by
  obtain ⟨row, hget, hserve⟩ | ⟨r, assets, hserve, hr, hassets⟩ |
    ⟨raw, content, given, hget, hentry, hne, hraw, hloads, hstored, hserve⟩ :=
    serve_cases lib c cache manifest edition version
  · rw [hserve]
    refine ⟨.inl rfl, fun content hc => ?_, by simp [SafeAssets]⟩
    obtain rfl := Option.some.inj (Except.ok.inj hc)
    exact .inl ⟨row, (mem_of_rowOf (cacheGet_ok.mp hget).2).1, rfl⟩
  · rw [hserve]
    refine ⟨.inl rfl, fun content hc => absurd hc (hr content), fun url hurl => ?_⟩
    exact ⟨edition, version, hassets url hurl, hsafe⟩
  · have hread : Read lib c edition version content :=
      ⟨manifest, _, raw, hmanifest, hentry, hne, hraw, rfl, hloads⟩
    rw [hserve]
    refine ⟨.inr ⟨_, rfl, (cacheGet_ok.mp hget).2, content, hread, hstored⟩, fun content' hc => ?_,
      fun url hurl => ?_⟩
    · obtain rfl := Option.some.inj (Except.ok.inj hc)
      exact .inr ⟨edition, version, hread⟩
    · exact ⟨edition, version, List.mem_singleton.mp hurl, hsafe⟩

theorem safe_pluginsEdition : ∀ ch ∈ pluginsEdition.toList, ('a' ≤ ch ∧ ch ≤ 'z') ∨ ch = '-' := by
  have hall : (pluginsEdition.toList.all fun ch => ('a' ≤ ch && ch ≤ 'z') || ch == '-') = true := by
    decide +kernel
  simpa using hall

theorem safeIdentity_of_safe {edition version : String}
    (h : (safeEdition edition && safeVersion version) = true) :
    SafeIdentity edition version := by
  rw [Bool.and_eq_true] at h
  obtain ⟨hedition, hversion⟩ := h
  refine ⟨fun ch hch => .inl ?_, hversion⟩
  rw [safeEdition, Bool.and_eq_true, List.all_eq_true] at hedition
  simpa using hedition.2 ch hch

theorem resolveCore_ok_iff {manifest : Json} {target : Option (String × Json)} :
    resolveCore lib c = .ok (manifest, target) ↔
      c.fetchJson lib "manifest.json" = .ok manifest ∧
      ∃ businessBase, c.businessBase lib = .ok businessBase ∧
        resolveTarget manifest businessBase (editionOf c.edition) c.version = .ok target := by
  constructor
  · intro h
    obtain ⟨manifest', hmanifest, h⟩ := except_bind_ok h
    obtain ⟨businessBase, hbusiness, h⟩ := except_bind_ok h
    obtain ⟨target', htarget, h⟩ := except_bind_ok h
    obtain ⟨rfl, rfl⟩ := Prod.mk.inj (Except.ok.inj h)
    exact ⟨hmanifest, businessBase, hbusiness, mapError_ok htarget⟩
  · rintro ⟨hmanifest, businessBase, hbusiness, htarget⟩
    rw [resolveCore, hmanifest, except_ok_bind, hbusiness, except_ok_bind, htarget]
    rfl

theorem resolvePlugins_manifest {manifest : Json} {version : Option Json}
    (h : resolvePlugins lib c = .ok (manifest, version)) :
    c.fetchJson lib "manifest.json" = .ok manifest := by
  obtain ⟨manifest', hmanifest, h⟩ := except_bind_ok h
  obtain ⟨versions, -, h⟩ := except_bind_ok h
  split at h
  · obtain ⟨businessBase, -, h⟩ := except_bind_ok h
    obtain ⟨version', -, h⟩ := except_bind_ok h
    obtain ⟨rfl, -⟩ := Prod.mk.inj (Except.ok.inj h)
    exact hmanifest
  · obtain ⟨version', -, h⟩ := except_bind_ok h
    obtain ⟨rfl, -⟩ := Prod.mk.inj (Except.ok.inj h)
    exact hmanifest

theorem tryCore_ok : Served.Ok lib c cache (tryCore lib c cache).2 := by
  rw [tryCore]
  split
  · exact served_ok_of_none nofun
  · exact served_ok_of_none nofun
  · rename_i manifest edition version hresolve
    split
    · rename_i hsafe
      exact serve_ok (resolveCore_ok_iff.mp hresolve).1 (safeIdentity_of_safe hsafe)
    · exact served_ok_of_none nofun
  · exact served_ok_of_none nofun

theorem tryPlugins_ok : Served.Ok lib c cache (tryPlugins lib c cache).2 := by
  rw [tryPlugins]
  split
  · exact served_ok_of_none nofun
  · exact served_ok_of_none nofun
  · rename_i manifest version hresolve
    split
    · rename_i hsafe
      exact serve_ok (resolvePlugins_manifest hresolve) ⟨safe_pluginsEdition, hsafe⟩
    · exact served_ok_of_none nofun
  · exact served_ok_of_none nofun

/-- What a call may do. -/
structure Outcome.Ok (lib : Library Bytes) (c : Call Bytes) (cache : List CatalogCache)
    (o : Outcome) : Prop where
  extends_ : Extends lib c cache o.cache
  cached : ∀ content, o.result = .ok content → content ≠ .null → Backed lib c o.cache content
  safe : SafeAssets c o.assets

theorem mem_of_probe {identities : List (String × String)} {content : Json}
    (h : probe cache identities = .ok content) (hne : content ≠ .null) :
    ∃ row ∈ cache, row.content = content := by
  induction identities with
  | nil => exact absurd (Except.ok.inj h).symm hne
  | cons id ids ih =>
    rw [probe] at h
    split at h
    · cases h
    · rename_i row hget
      exact ⟨row, (mem_of_rowOf (cacheGet_ok.mp hget).2).1, Except.ok.inj h⟩
    · exact ih h

theorem conclude_ok {caught : Failure → Bool} {s : Served}
    {identities : List (String × String)} (h : Served.Ok lib c cache s) :
    Outcome.Ok lib c cache (conclude caught s identities) := by
  have hprobe : Outcome.Ok lib c cache ⟨probe s.cache identities, s.cache, s.assets⟩ :=
    ⟨h.extends_, fun content hc hne => .inl (mem_of_probe hc hne), h.safe⟩
  rw [conclude]
  split
  · rename_i content hresult
    refine ⟨h.extends_, fun content' hc _ => ?_, h.safe⟩
    obtain rfl := Except.ok.inj hc
    exact h.cached content hresult
  · exact hprobe
  · split
    · exact hprobe
    · exact ⟨h.extends_, nofun, h.safe⟩

theorem getCatalog_ok : Outcome.Ok lib c cache (getCatalog lib c cache) := by
  rw [getCatalog]
  split
  rename_i target served hserved
  apply conclude_ok
  split at hserved
  · obtain rfl : (tryCore lib c cache).2 = served := congrArg Prod.snd hserved
    exact tryCore_ok
  · obtain ⟨-, rfl⟩ := Prod.mk.inj hserved
    exact served_ok_of_none nofun

theorem getPluginsCatalog_ok : Outcome.Ok lib c cache (getPluginsCatalog lib c cache) := by
  rw [getPluginsCatalog]
  split
  rename_i version served hserved
  apply conclude_ok
  split at hserved
  · obtain rfl : (tryPlugins lib c cache).2 = served := congrArg Prod.snd hserved
    exact tryPlugins_ok
  · obtain ⟨-, rfl⟩ := Prod.mk.inj hserved
    exact served_ok_of_none nofun

theorem outcome_ok {db : Db} {e : Event Bytes} {o : Outcome} (h : outcome lib db e = some o) :
    ∃ c, e.call? = some c ∧ Outcome.Ok lib c db.current o := by
  cases e with
  | core c =>
    obtain rfl := Option.some.inj h
    exact ⟨c, rfl, getCatalog_ok⟩
  | plugins c =>
    obtain rfl := Option.some.inj h
    exact ⟨c, rfl, getPluginsCatalog_ok⟩
  | commit => cases h
  | close => cases h

theorem next_call {db : Db} {e : Event Bytes} {o : Outcome} (h : outcome lib db e = some o) :
    (next lib db e).committed = db.committed ∧
      ((next lib db e).current = db.committed ∨ (next lib db e).current = o.cache) := by
  cases e with
  | commit => cases h
  | close => cases h
  | core c | plugins c =>
    simp only [next, h]
    split
    · exact ⟨rfl, .inl rfl⟩
    · exact ⟨rfl, .inr rfl⟩

/-- A row that a call of the history verified. -/
def Genuine (lib : Library Bytes) (es : List (Event Bytes)) (row : CatalogCache) : Prop :=
  ∃ e ∈ es, ∃ c, e.call? = some c ∧ Verified lib c row

theorem Genuine.concat {es : List (Event Bytes)} {row : CatalogCache} (h : Genuine lib es row)
    (e : Event Bytes) : Genuine lib (es ++ [e]) row := by
  obtain ⟨e', he', hc⟩ := h
  exact ⟨e', List.mem_append_left _ he', hc⟩

theorem genuine_of_extends {es : List (Event Bytes)} {e : Event Bytes} {after : List CatalogCache}
    (he : e.call? = some c) (hrows : ∀ row ∈ cache, Genuine lib es row)
    (h : Extends lib c cache after) : ∀ row ∈ after, Genuine lib (es ++ [e]) row := by
  intro row hrow
  obtain rfl | ⟨new, rfl, -, hverified⟩ := h
  · exact (hrows row hrow).concat e
  · rcases List.mem_append.mp hrow with hrow | hrow
    · exact (hrows row hrow).concat e
    · obtain rfl := List.mem_singleton.mp hrow
      exact ⟨e, List.mem_append_right _ List.mem_cons_self, c, he, hverified⟩

theorem history_genuine (es : List (Event Bytes)) :
    (∀ row ∈ (history lib es).committed, Genuine lib es row) ∧
      ∀ row ∈ (history lib es).current, Genuine lib es row := by
  induction es using List.reverseRecOn with
  | nil => simp [history]
  | append_singleton es e ih =>
    obtain ⟨hcommitted, hcurrent⟩ := ih
    have hcommitted' : ∀ row ∈ (history lib es).committed, Genuine lib (es ++ [e]) row :=
      fun row hrow => (hcommitted row hrow).concat e
    have hcurrent' : ∀ row ∈ (history lib es).current, Genuine lib (es ++ [e]) row :=
      fun row hrow => (hcurrent row hrow).concat e
    rw [history_concat]
    cases hout : outcome lib (history lib es) e with
    | none =>
      cases e with
      | commit => exact ⟨hcurrent', hcurrent'⟩
      | close => exact ⟨hcommitted', hcommitted'⟩
      | core c => cases hout
      | plugins c => cases hout
    | some o =>
      obtain ⟨c, hcall, hok⟩ := outcome_ok hout
      have hafter := genuine_of_extends hcall hcurrent hok.extends_
      obtain ⟨hkept, hnext | hnext⟩ := next_call hout
      · rw [hkept, hnext]
        exact ⟨hcommitted', hcommitted'⟩
      · rw [hkept, hnext]
        exact ⟨hcommitted', hafter⟩

/-- **Only verified catalogs are used.**  After every history of calls that starts with an
empty cache, whatever the servers answer, each row is what the column gives back of a
catalog read from bytes whose SHA-256 is a non-empty entry of the manifest of its call,
under its own key; each catalog that the next call returns is the content of such a row,
or was read so by the call itself; the assets it requests are of safe identities; and the
rows it sees change at most by one row that it verified. -/
theorem only_verified (lib : Library Bytes) (es : List (Event Bytes)) :
    (∀ row ∈ (history lib es).committed ++ (history lib es).current, Genuine lib es row) ∧
    ∀ e c, e.call? = some c → ∃ o, outcome lib (history lib es) e = some o ∧
      (∀ content, o.result = .ok content → content ≠ .null →
        (∃ row, Genuine lib (es ++ [e]) row ∧ row.content = content) ∨
          ∃ edition version, Read lib c edition version content) ∧
      SafeAssets c o.assets ∧
      Extends lib c (history lib es).current o.cache := by
  obtain ⟨hcommitted, hcurrent⟩ := @history_genuine _ lib es
  refine ⟨fun row hrow => ?_, fun e c hcall => ?_⟩
  · rcases List.mem_append.mp hrow with hrow | hrow
    · exact hcommitted row hrow
    · exact hcurrent row hrow
  · obtain ⟨o, hout⟩ : ∃ o, outcome lib (history lib es) e = some o := by
      cases e with
      | core c => exact ⟨_, rfl⟩
      | plugins c => exact ⟨_, rfl⟩
      | commit => cases hcall
      | close => cases hcall
    obtain ⟨c', hcall', hok⟩ := outcome_ok hout
    obtain rfl := Option.some.inj (hcall.symm.trans hcall')
    refine ⟨o, hout, fun content hresult hne => ?_, hok.safe, hok.extends_⟩
    obtain ⟨row, hrow, hcontent⟩ | hread := hok.cached content hresult hne
    · exact .inl ⟨row, genuine_of_extends hcall hcurrent hok.extends_ row hrow, hcontent⟩
    · exact .inr hread

end Provider

/-! ### A release with one catalog -/

def sampleAsset : String :=
  "\x7b\"step\":1e23,\"models\":\x7b\x7d,\"version\":\"26.1.8\"\x7d"

def sampleHash : String := "c39f0523ec226849753f73238325ceda3357662cf3ec6bbe189f5a33569c5e8f"

def sampleManifest : String :=
  "\x7b\"catalogs\":\x7b\"community/26.1.8\":\"" ++
  "c39f0523ec226849753f73238325ceda3357662cf3ec6bbe189f5a33569c5e8f\"\x7d\x7d"

def sampleCatalog : Json :=
  .obj [("step", .float "1e+23"), ("models", .obj []), ("version", .str "26.1.8")]

/-- What the column gives back of it: its numbers are decimal, and `1e23` is written out. -/
def sampleStored : Json :=
  .obj [("step", .int 100000000000000000000000), ("models", .obj []), ("version", .str "26.1.8")]

/-- SHA-256 and `json.loads` on the two documents. -/
def sampleLib : Library String where
  sha256 raw := if raw = sampleAsset then sampleHash else ""
  loads raw :=
    if raw = sampleManifest then
      .ok (.obj [("catalogs", .obj [("community/26.1.8", .str sampleHash)])])
    else if raw = sampleAsset then .ok sampleCatalog
    else .error .valueError
  stored content := some (if content = sampleCatalog then sampleStored else content)

def sampleServer (url : String) : Option String :=
  if url = "https://r/manifest.json" then some sampleManifest
  else if url = "https://r/community-26.1.8.json" then some sampleAsset
  else none

def sampleCall (version : String) : Call String :=
  ⟨"community", version, "https://r/", true, sampleServer⟩

/-- A first call, whose row is committed, and a second one. -/
theorem only_verified_release :
    ∃ o, outcome sampleLib (history sampleLib [.core (sampleCall "26.1.8"), .commit])
        (.core (sampleCall "26.1.8")) = some o ∧
      (∀ content, o.result = .ok content → content ≠ .null →
        (∃ row, Genuine sampleLib ([.core (sampleCall "26.1.8"), .commit] ++
          [.core (sampleCall "26.1.8")]) row ∧ row.content = content) ∨
          ∃ edition version, Read sampleLib (sampleCall "26.1.8") edition version content) ∧
      SafeAssets (sampleCall "26.1.8") o.assets ∧
      Extends sampleLib (sampleCall "26.1.8")
        (history sampleLib [.core (sampleCall "26.1.8"), .commit]).current o.cache :=
  (only_verified sampleLib [.core (sampleCall "26.1.8"), .commit]).2
    (.core (sampleCall "26.1.8")) (sampleCall "26.1.8") rfl

/-- The second call returns the row, and no document is read as what the row holds: as a
float, `1e23` is not the integer. -/
theorem cached_number_differs :
    ∃ row ∈ (history sampleLib [.core (sampleCall "26.1.8"), .commit]).committed,
      (getCatalog sampleLib (sampleCall "26.1.8")
        (history sampleLib [.core (sampleCall "26.1.8"), .commit]).current).result =
          .ok row.content ∧
      ∀ raw content, sampleLib.loads raw = .ok content → content.pyEq row.content = false := by
  refine ⟨⟨"community", "26.1.8", sampleHash, sampleStored⟩, List.mem_singleton.mpr rfl, rfl, ?_⟩
  intro raw content hloads
  simp only [sampleLib] at hloads
  split at hloads
  · obtain rfl := Except.ok.inj hloads
    decide +kernel
  · split at hloads
    · obtain rfl := Except.ok.inj hloads
      decide +kernel
    · cases hloads

end CatalogProvider

end Opngms
