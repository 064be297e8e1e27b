/-
Opngms/UrlSafety.lean

The guard against requests to addresses that no firewall has (`_blocked`, `_resolve` and
`validate_base_url` of connectors/opnsense/url_safety.py), and the request that it stands
before (`OpnsenseClient._request` of connectors/opnsense/client.py).

What the guard refuses is an `UnsafeUrlError`, which `_request` turns into a
`ReachabilityError`.  Of what else goes wrong on the way only `gaierror` is caught: a URL that
`urlsplit` refuses, a port that is no port and a host that has no encoding end the guard with
a `ValueError`, and the request with it.

Main result: **`guard_exact_iff`**, for the guard and for the request.
-/
import Mathlib.Algebra.GroupWithZero.Nat
import Mathlib.Data.String.Basic
import Opngms.ConfigModel
import Opngms.PyValues
import Opngms.Request
import Opngms.StableSort

namespace Opngms

namespace UrlSafety

open Py (PyException)

/-! ### Addresses (`ipaddress`) -/

/-- An address of either version. -/
inductive Ip where
  | v4 (n : Fin (2 ^ 32))
  | v6 (n : Fin (2 ^ 128))
  deriving DecidableEq

/-- A number of `width` bits lies in the network of the prefix. -/
def inNetwork (width n : Nat) (network : Nat × Nat) : Bool :=
  n / 2 ^ (width - network.2) == network.1 / 2 ^ (width - network.2)

/-- `IPv6Address.ipv4_mapped`. -/
def ipv4Mapped (n : Fin (2 ^ 128)) : Option (Fin (2 ^ 32)) :=
  if n.val / 2 ^ 32 = 0xFFFF then some ⟨n.val % 2 ^ 32, Nat.mod_lt _ (by decide)⟩ else none

/-- The networks that are reserved for IPv6: the number of the first address and the length of
the prefix. -/
def reservedNetworks : List (Nat × Nat) :=
  [(0x0000, 8), (0x0100, 8), (0x0200, 7), (0x0400, 6), (0x0800, 5), (0x1000, 4), (0x4000, 3),
    (0x6000, 3), (0x8000, 3), (0xA000, 3), (0xC000, 3), (0xE000, 4), (0xF000, 5), (0xF800, 6),
    (0xFE00, 9)].map fun network => (network.1 * 2 ^ 112, network.2)

local instance v6_ne_zero : NeZero (2 ^ 128) := ⟨by decide⟩

def isLoopback : Ip → Bool
  | .v4 n => inNetwork 32 n (0x7F000000, 8)
  | .v6 n => n == 1

def isLinkLocal : Ip → Bool
  | .v4 n => inNetwork 32 n (0xA9FE0000, 16)
  | .v6 n => inNetwork 128 n (0xFE80 * 2 ^ 112, 10)

def isUnspecified : Ip → Bool
  | .v4 n => n == 0
  | .v6 n => n == 0

def isMulticast : Ip → Bool
  | .v4 n => inNetwork 32 n (0xE0000000, 4)
  | .v6 n => inNetwork 128 n (0xFF00 * 2 ^ 112, 8)

def isReserved : Ip → Bool
  | .v4 n => inNetwork 32 n (0xF0000000, 4)
  | .v6 n => reservedNetworks.any (inNetwork 128 n)

/-- `_blocked`. -/
def blocked (ip : Ip) : Bool :=
  let ip := match ip with
    | .v6 n =>
      match ipv4Mapped n with
      | some m => .v4 m
      | none => .v6 n
    | .v4 n => .v4 n
  isLoopback ip || isLinkLocal ip || isUnspecified ip || isMulticast ip || isReserved ip

/-- An address is of a kind that no firewall has. -/
def Special (ip : Ip) : Prop :=
  isLoopback ip ∨ isLinkLocal ip ∨ isUnspecified ip ∨ isMulticast ip ∨ isReserved ip

/-- What must not be reached: a special address, where an IPv4 address that is mapped into
IPv6 counts as itself. -/
inductive Forbidden : Ip → Prop where
  | v4 {n : Fin (2 ^ 32)} (h : Special (.v4 n)) : Forbidden (.v4 n)
  | v6 {n : Fin (2 ^ 128)} (hmapped : ipv4Mapped n = none) (h : Special (.v6 n)) : Forbidden (.v6 n)
  | mapped {n : Fin (2 ^ 128)} {m : Fin (2 ^ 32)} (hmapped : ipv4Mapped n = some m)
      (h : Special (.v4 m)) : Forbidden (.v6 n)

theorem blocked_iff {ip : Ip} : blocked ip = true ↔ Forbidden ip := by
  have hspecial : ∀ ip : Ip, (isLoopback ip || isLinkLocal ip || isUnspecified ip ||
      isMulticast ip || isReserved ip) = true ↔ Special ip := by
    intro ip
    simp only [Bool.or_eq_true, Special, or_assoc]
  cases ip with
  | v4 n =>
    rw [blocked, hspecial]
    constructor
    · exact .v4
    · intro h
      cases h with
      | v4 h => exact h
  | v6 n =>
    cases hmapped : ipv4Mapped n with
    | none =>
      simp only [blocked, hmapped, hspecial]
      constructor
      · exact .v6 hmapped
      · intro h
        cases h with
        | v6 _ h => exact h
        | mapped hsome => exact nomatch hmapped.symm.trans hsome
    | some m =>
      simp only [blocked, hmapped, hspecial]
      constructor
      · exact .mapped hmapped
      · intro h
        cases h with
        | v6 hnone => exact nomatch hmapped.symm.trans hnone
        | mapped hsome h =>
          obtain rfl := Option.some.inj (hmapped.symm.trans hsome)
          exact h

/-! ### URLs (`urllib.parse`) -/

/-- `s.partition(c)`; the flag says whether there is a separator. -/
def partition (c : Char) (s : List Char) : List Char × Bool × List Char :=
  (s.takeWhile (· ≠ c), s.contains c, (s.dropWhile (· ≠ c)).drop 1)

/-- `s.rpartition(c)`. -/
def rpartition (c : Char) (s : List Char) : List Char × Bool × List Char :=
  let back := partition c s.reverse
  (back.2.2.reverse, back.2.1, back.1.reverse)

/-- The answer of `socket.getaddrinfo`. -/
inductive Answer where
  | addresses (infos : List String)
  | gaierror
  /-- A host that has no encoding. -/
  | unicodeError

/-- What the guard uses of the standard library and of the network. -/
structure Env where
  lowercase : Lowercase
  /-- The check of the brackets in a netloc (`_check_bracketed_netloc`) accepts. -/
  bracketedNetlocOk : List Char → Bool
  /-- `_checknetloc` accepts: no character becomes a delimiter under NFKC. -/
  netlocOk : List Char → Bool
  getaddrinfo : (host : String) → (port : Nat) → Answer
  ipAddress : String → Option Ip
  /-- The answers are numeric addresses. -/
  numeric : ∀ host port infos, getaddrinfo host port = .addresses infos →
    ∀ raw ∈ infos, (ipAddress raw).isSome

/-- The parts of a URL that are read. -/
structure SplitResult where
  scheme : List Char
  netloc : List Char

/-- A character that `urlsplit` drops in front: a space or a control character. -/
def isControlOrSpace (c : Char) : Bool := c.toNat ≤ 32

def isSchemeChar (c : Char) : Bool := c.isAlphanum || c == '+' || c == '-' || c == '.'

/-- `urlsplit`, as far as the scheme and the netloc. -/
def urlsplit (E : Env) (url : String) : Except PyException SplitResult :=
  let url := (url.toList.dropWhile isControlOrSpace).filter
    fun c => !(c == '\t' || c == '\r' || c == '\n')
  let front := partition ':' url
  let (scheme, url) :=
    if front.2.1 && (front.1.head?.any Char.isAlpha) && front.1.all isSchemeChar then
      (front.1.map Char.toLower, front.2.2)
    else ([], url)
  if ['/', '/'].isPrefixOf url then
    let netloc := (url.drop 2).takeWhile fun c => !(c == '/' || c == '?' || c == '#')
    if netloc.contains '[' != netloc.contains ']' then .error .valueError
    else if netloc.contains '[' && !E.bracketedNetlocOk netloc then .error .valueError
    else if !E.netlocOk netloc then .error .valueError
    else .ok ⟨scheme, netloc⟩
  else .ok ⟨scheme, []⟩

namespace SplitResult

/-- `_userinfo`: `username` and `password`. -/
def userinfo (parts : SplitResult) : List Char × List Char :=
  let info := partition ':' (rpartition '@' parts.netloc).1
  (info.1, info.2.2)

/-- `_hostinfo`. -/
def hostinfo (parts : SplitResult) : List Char × List Char :=
  let hostinfo := (rpartition '@' parts.netloc).2.2
  let bracketed := partition '[' hostinfo
  if bracketed.2.1 then
    let host := partition ']' bracketed.2.2
    (host.1, (partition ':' host.2.2).2.2)
  else
    let host := partition ':' hostinfo
    (host.1, host.2.2)

/-- `hostname`, without the zone in lower case. -/
def hostname (E : Env) (parts : SplitResult) : String :=
  let name := partition '%' parts.hostinfo.1
  E.lowercase.lower (String.ofList name.1) ++
    String.ofList (if name.2.1 then '%' :: name.2.2 else [])

/-- `port`. -/
def port (parts : SplitResult) : Except PyException (Option Nat) :=
  match parts.hostinfo.2 with
  | [] => .ok none
  | digits =>
    if digits.all Char.isDigit then
      match intOf digits with
      | .ok n => if n ≤ 65535 then .ok (some n) else .error .valueError
      | .error _ => .error .valueError
    else .error .valueError

end SplitResult

/-! ### The guard -/

/-- What ends the guard: `UnsafeUrlError`, or an exception of what it calls. -/
inductive Raised where
  | unsafeUrl (message : String)
  | builtin (e : PyException)
  deriving DecidableEq

/-- What `validate_base_url` returns. -/
structure Validated where
  pinnedIp : String
  host : String
  port : Option Nat
  deriving DecidableEq

/-- `port or 443`. -/
def portOr443 : Option Nat → Nat
  | none => 443
  | some 0 => 443
  | some n => n

/-- An address is blocked; a text that is no address is a `ValueError`. -/
def checkAddresses (E : Env) : List String → Except Raised Unit
  | [] => .ok ()
  | raw :: rest =>
    match E.ipAddress raw with
    | none => .error (.builtin .valueError)
    | some ip =>
      if blocked ip then .error (.unsafeUrl "destination address not allowed")
      else checkAddresses E rest

/-- `_resolve` and what follows it. -/
def resolve (E : Env) (host : String) (port : Option Nat) : Except Raised Validated :=
  match E.getaddrinfo host (portOr443 port) with
  | .gaierror => .error (.unsafeUrl "DNS resolution failed")
  | .unicodeError => .error (.builtin .unicodeEncodeError)
  | .addresses [] => .error (.unsafeUrl "no resolved address")
  | .addresses (raw :: rest) => do
    checkAddresses E (raw :: rest)
    return ⟨(sortBy id (raw :: rest)).headD raw, host, port⟩

/-- `validate_base_url`. -/
def validateBaseUrl (E : Env) (baseUrl : String) : Except Raised Validated := do
  let parts ← (urlsplit E baseUrl).mapError .builtin
  if parts.scheme ≠ "https".toList then
    .error (.unsafeUrl "only https allowed")
  else if parts.userinfo.1 ≠ [] ∨ parts.userinfo.2 ≠ [] then
    .error (.unsafeUrl "credentials in the URL not allowed")
  else if parts.hostinfo.1 = [] then
    .error (.unsafeUrl "missing host")
  else do
    let port ← parts.port.mapError .builtin
    resolve E (parts.hostname E) port

/-! ### The request -/

/-- What ends a request: an `OpnsenseError`, or what ends the guard otherwise. -/
inductive RequestError where
  | opnsense (e : OpnsenseError)
  | raised (e : Raised)

/-- `base_url.rstrip("/")` of the constructor. -/
def rstripSlashes (baseUrl : String) : String :=
  String.ofList (baseUrl.toList.reverse.dropWhile (· == '/')).reverse

/-- The exceptions of the guard as `_request` passes them on: it catches `UnsafeUrlError`, with
a message that says nothing of the URL. -/
def Raised.toRequestError : Raised → RequestError
  | .unsafeUrl _ => .opnsense (.reachabilityError "unsafe destination")
  | .builtin e => .raised (.builtin e)

/-- What `_request` does with the outcome of the guard; `exchange` is what follows it. -/
def afterGuard {α : Type} (exchange : Validated → Except RequestError α) :
    Except Raised Validated → Except RequestError α
  | .ok validated => exchange validated
  | .error e => .error e.toRequestError

/-- `_request` of a client for `base_url`. -/
def request {α : Type} (E : Env) (baseUrl : String)
    (exchange : Validated → Except RequestError α) : Except RequestError α :=
  afterGuard exchange (validateBaseUrl E (rstripSlashes baseUrl))

/-! ### What the guard is for -/

/-- The host resolves to addresses, and to none that must not be reached. -/
def Reachable (E : Env) (host : String) (port : Option Nat) (infos : List String) : Prop :=
  E.getaddrinfo host (portOr443 port) = .addresses infos ∧ infos ≠ [] ∧
    ∀ raw ∈ infos, ∀ ip, E.ipAddress raw = some ip → ¬ Forbidden ip

/-- The URL is one of https without credentials, for a host. -/
def WellFormed (parts : SplitResult) : Prop :=
  parts.scheme = "https".toList ∧ parts.userinfo = ([], []) ∧ parts.hostinfo.1 ≠ []

/-- The URL is one that the guard has to accept. -/
def Acceptable (E : Env) (url : String) : Prop :=
  ∃ parts port infos, urlsplit E url = .ok parts ∧ WellFormed parts ∧ parts.port = .ok port ∧
    Reachable E (parts.hostname E) port infos

/-- The guard returns an address of the answer if no address of it is forbidden, and refuses
everything else with an `UnsafeUrlError`. -/
def GuardExact (E : Env) (url : String) : Prop :=
  (Acceptable E url ∧ ∃ v infos, validateBaseUrl E url = .ok v ∧
    Reachable E v.host v.port infos ∧ v.pinnedIp ∈ infos) ∨
  (¬ Acceptable E url ∧ ∃ message, validateBaseUrl E url = .error (.unsafeUrl message))

/-- A request to a destination that the guard does not return ends with an `OpnsenseError`. -/
def RequestSafe (E : Env) (baseUrl : String) : Prop :=
  (∀ v, validateBaseUrl E (rstripSlashes baseUrl) ≠ .ok v) →
    ∀ (α : Type) (exchange : Validated → Except RequestError α),
      ∃ e, request E baseUrl exchange = .error (.opnsense e)

/-- Nothing else than the resolution fails: the URL splits, and a well-formed one has a port
that is one and a host that has an encoding. -/
def Handled (E : Env) (url : String) : Prop :=
  ∃ parts, urlsplit E url = .ok parts ∧ (WellFormed parts → ∃ port, parts.port = .ok port ∧
    E.getaddrinfo (parts.hostname E) (portOr443 port) ≠ .unicodeError)

section Guard

variable {E : Env} {url host : String} {port : Option Nat} {infos : List String}

theorem checkAddresses_spec (h : ∀ raw ∈ infos, (E.ipAddress raw).isSome) :
    (checkAddresses E infos = .ok () ∧
      ∀ raw ∈ infos, ∀ ip, E.ipAddress raw = some ip → ¬ Forbidden ip) ∨
    (∃ message, checkAddresses E infos = .error (.unsafeUrl message)) ∧
      ∃ raw ∈ infos, ∃ ip, E.ipAddress raw = some ip ∧ Forbidden ip := by
  induction infos with
  | nil => exact .inl ⟨rfl, fun _ hmem => absurd hmem List.not_mem_nil⟩
  | cons raw infos ih =>
    obtain ⟨hraw, hinfos⟩ := List.forall_mem_cons.mp h
    obtain ⟨ip, hip⟩ := Option.isSome_iff_exists.mp hraw
    simp only [checkAddresses, hip]
    by_cases hblocked : blocked ip = true
    · right
      rw [if_pos hblocked]
      exact ⟨⟨_, rfl⟩, raw, List.mem_cons_self, ip, hip, blocked_iff.mp hblocked⟩
    · rw [if_neg hblocked]
      rcases ih hinfos with ⟨hok, hall⟩ | ⟨herror, raw', hraw', hforbidden⟩
      · refine .inl ⟨hok, List.forall_mem_cons.mpr ⟨?_, hall⟩⟩
        intro ip' hip'
        obtain rfl := Option.some.inj (hip.symm.trans hip')
        exact fun hf => hblocked (blocked_iff.mpr hf)
      · exact .inr ⟨herror, raw', List.mem_cons_of_mem _ hraw', hforbidden⟩

theorem resolve_spec (E : Env) (host : String) (port : Option Nat) :
    (∃ v infos, resolve E host port = .ok v ∧ v.host = host ∧ v.port = port ∧
      Reachable E host port infos ∧ v.pinnedIp ∈ infos) ∨
    (E.getaddrinfo host (portOr443 port) = .unicodeError ∧
      resolve E host port = .error (.builtin .unicodeEncodeError)) ∨
    (E.getaddrinfo host (portOr443 port) ≠ .unicodeError ∧ (∀ infos, ¬ Reachable E host port infos) ∧
      ∃ message, resolve E host port = .error (.unsafeUrl message)) := by
  cases hanswer : E.getaddrinfo host (portOr443 port) with
  | gaierror =>
    refine .inr (.inr ⟨nofun, ?_, _, by rw [resolve, hanswer]⟩)
    rintro infos ⟨hinfos, -⟩
    exact nomatch hanswer.symm.trans hinfos
  | unicodeError => exact .inr (.inl ⟨rfl, by rw [resolve, hanswer]⟩)
  | addresses infos =>
    have hsame : ∀ infos', Reachable E host port infos' → infos' = infos := by
      rintro infos' ⟨hinfos', -⟩
      exact (Answer.addresses.inj (hanswer.symm.trans hinfos')).symm
    cases infos with
    | nil =>
      refine .inr (.inr ⟨nofun, ?_, _, by rw [resolve, hanswer]⟩)
      intro infos' hreach
      exact hreach.2.1 (hsame infos' hreach)
    | cons raw rest =>
      have hresolve : resolve E host port = (do
          checkAddresses E (raw :: rest)
          return ⟨(sortBy id (raw :: rest)).headD raw, host, port⟩) := by
        rw [resolve, hanswer]
      rcases checkAddresses_spec (E.numeric _ _ _ hanswer) with ⟨hok, hall⟩ | ⟨⟨m, herror⟩, hbad⟩
      · refine .inl ⟨_, raw :: rest, by rw [hresolve, hok]; rfl, rfl, rfl, ⟨hanswer, by simp, hall⟩, ?_⟩
        have hperm : (sortBy id (raw :: rest)).Perm (raw :: rest) := sortBy_perm _
        show (sortBy id (raw :: rest)).headD raw ∈ raw :: rest
        cases hsorted : sortBy id (raw :: rest) with
        | nil => exact List.mem_cons_self
        | cons first others =>
          rw [hsorted] at hperm
          exact hperm.subset List.mem_cons_self
      · refine .inr (.inr ⟨nofun, ?_, m, by rw [hresolve, herror]; rfl⟩)
        intro infos' hreach
        obtain rfl := hsame infos' hreach
        obtain ⟨raw', hraw', ip, hip, hforbidden⟩ := hbad
        exact hreach.2.2 raw' hraw' ip hip hforbidden

theorem validateBaseUrl_eq {parts : SplitResult} (h : urlsplit E url = .ok parts) :
    (WellFormed parts ∧ validateBaseUrl E url =
      (parts.port.mapError .builtin >>= fun port => resolve E (parts.hostname E) port)) ∨
    (¬ WellFormed parts ∧ ∃ message, validateBaseUrl E url = .error (.unsafeUrl message)) := by
  have hinfo : (parts.userinfo.1 ≠ [] ∨ parts.userinfo.2 ≠ []) ↔ parts.userinfo ≠ ([], []) := by
    rw [← not_and_or, ne_eq, Prod.ext_iff]
  have hguard : validateBaseUrl E url =
      if parts.scheme ≠ "https".toList then .error (.unsafeUrl "only https allowed")
      else if parts.userinfo ≠ ([], []) then
        .error (.unsafeUrl "credentials in the URL not allowed")
      else if parts.hostinfo.1 = [] then .error (.unsafeUrl "missing host")
      else parts.port.mapError .builtin >>= fun port => resolve E (parts.hostname E) port := by
    simp only [← hinfo]
    rw [validateBaseUrl, h]
    rfl
  rw [hguard]
  by_cases hscheme : parts.scheme = "https".toList
  · by_cases huser : parts.userinfo = ([], [])
    · by_cases hhost : parts.hostinfo.1 = []
      · refine .inr ⟨fun hwell => hwell.2.2 hhost, "missing host", ?_⟩
        rw [if_neg (not_not.mpr hscheme), if_neg (not_not.mpr huser), if_pos hhost]
      · refine .inl ⟨⟨hscheme, huser, hhost⟩, ?_⟩
        rw [if_neg (not_not.mpr hscheme), if_neg (not_not.mpr huser), if_neg hhost]
    · refine .inr ⟨fun hwell => huser hwell.2.1, "credentials in the URL not allowed", ?_⟩
      rw [if_neg (not_not.mpr hscheme), if_pos huser]
  · refine .inr ⟨fun hwell => hscheme hwell.1, "only https allowed", ?_⟩
    rw [if_pos hscheme]

/-- How the guard ends: with an address where the URL is acceptable, with a refusal where it is
not, and with another exception where something else than the resolution fails. -/
theorem validateBaseUrl_spec (E : Env) (url : String) :
    (Handled E url ∧ Acceptable E url ∧ ∃ v infos, validateBaseUrl E url = .ok v ∧
      Reachable E v.host v.port infos ∧ v.pinnedIp ∈ infos) ∨
    (Handled E url ∧ ¬ Acceptable E url ∧
      ∃ message, validateBaseUrl E url = .error (.unsafeUrl message)) ∨
    (¬ Handled E url ∧ ∃ e, validateBaseUrl E url = .error (.builtin e)) := by
  cases hsplit : urlsplit E url with
  | error e =>
    refine .inr (.inr ⟨?_, e, by rw [validateBaseUrl, hsplit]; rfl⟩)
    rintro ⟨parts, hparts, -⟩
    exact nomatch hsplit.symm.trans hparts
  | ok parts =>
    have hsame : ∀ parts', urlsplit E url = .ok parts' → parts' = parts := fun parts' h =>
      (Except.ok.inj (hsplit.symm.trans h)).symm
    -- well formed: the port and the addresses decide
    rcases validateBaseUrl_eq hsplit with ⟨hwell, heq⟩ | ⟨hwell, hrefused⟩
    · cases hport : parts.port with
      | error e =>
        refine .inr (.inr ⟨?_, e, by rw [heq, hport]; rfl⟩)
        rintro ⟨parts', hparts', hrest⟩
        obtain rfl := hsame parts' hparts'
        obtain ⟨port, hok, -⟩ := hrest hwell
        exact nomatch hport.symm.trans hok
      | ok port =>
        have hguard : validateBaseUrl E url = resolve E (parts.hostname E) port := by
          rw [heq, hport]
          rfl
        rw [hguard]
        have hhandled : E.getaddrinfo (parts.hostname E) (portOr443 port) ≠ .unicodeError →
            Handled E url := fun hne => ⟨parts, hsplit, fun _ => ⟨port, hport, hne⟩⟩
        rcases resolve_spec E (parts.hostname E) port with
          ⟨v, infos, hok, hhost, hp, hreach, hmem⟩ | ⟨hcode, hraised⟩ | ⟨hcode, hnone, m, herror⟩
        · refine .inl ⟨?_, ⟨parts, port, infos, hsplit, hwell, hport, hreach⟩, v, infos, hok, ?_,
            hmem⟩
          · apply hhandled
            rw [hreach.1]
            exact nofun
          · rw [hhost, hp]
            exact hreach
        · refine .inr (.inr ⟨?_, _, hraised⟩)
          rintro ⟨parts', hparts', hrest⟩
          obtain rfl := hsame parts' hparts'
          obtain ⟨port', hok, hne⟩ := hrest hwell
          obtain rfl := Except.ok.inj (hport.symm.trans hok)
          exact hne hcode
        · refine .inr (.inl ⟨hhandled hcode, ?_, m, herror⟩)
          rintro ⟨parts', port', infos, hparts', -, hp', hreach⟩
          obtain rfl := hsame parts' hparts'
          obtain rfl := Except.ok.inj (hport.symm.trans hp')
          exact hnone infos hreach
    · refine .inr (.inl ⟨⟨parts, hsplit, fun h => absurd h hwell⟩, ?_, hrefused⟩)
      rintro ⟨parts', port, infos, hparts', hyes, -⟩
      obtain rfl := hsame parts' hparts'
      exact hwell hyes

theorem guardExact_iff : GuardExact E url ↔ Handled E url := by
  rcases validateBaseUrl_spec E url with ⟨hhandled, hrest⟩ | ⟨hhandled, hrest⟩ | ⟨hnot, e, hraised⟩
  · exact iff_of_true (.inl hrest) hhandled
  · exact iff_of_true (.inr hrest) hhandled
  · refine iff_of_false ?_ hnot
    rintro (⟨-, v, infos, hok, -⟩ | ⟨-, message, herror⟩)
    · exact nomatch hraised.symm.trans hok
    · exact nomatch Except.error.inj (hraised.symm.trans herror)

theorem requestSafe_iff : RequestSafe E url ↔ Handled E (rstripSlashes url) := by
  rcases validateBaseUrl_spec E (rstripSlashes url) with
    ⟨hhandled, -, v, infos, hok, -⟩ | ⟨hhandled, -, message, herror⟩ | ⟨hnot, e, hraised⟩
  · refine iff_of_true ?_ hhandled
    intro hnone
    exact absurd hok (hnone v)
  · refine iff_of_true ?_ hhandled
    intro _ α exchange
    refine ⟨.reachabilityError "unsafe destination", ?_⟩
    rw [request, herror]
    rfl
  · refine iff_of_false ?_ hnot
    intro h
    have hnone : ∀ v, validateBaseUrl E (rstripSlashes url) ≠ .ok v := by
      intro v hok
      exact nomatch hraised.symm.trans hok
    obtain ⟨e', he'⟩ := h hnone Unit fun _ => .ok ()
    rw [request, hraised] at he'
    exact nomatch Except.error.inj he'

/-- **The guard is exact, and the request behind it safe, if and only if nothing but the
resolution fails**: the URL splits, its port is one and its host has an encoding. -/
theorem guard_exact_iff (E : Env) (url : String) :
    (GuardExact E url ↔ Handled E url) ∧ (RequestSafe E url ↔ Handled E (rstripSlashes url)) :=
  ⟨guardExact_iff, requestSafe_iff⟩

end Guard

/-- A network with one firewall; a host with an empty label has no encoding. -/
def sampleEnv : Env where
  lowercase := asciiLower
  bracketedNetlocOk _ := true
  netlocOk _ := true
  getaddrinfo host _ :=
    if host = "a..b" then .unicodeError
    else if host = "fw.example" then .addresses ["192.0.2.10"]
    else .gaierror
  ipAddress raw := if raw = "192.0.2.10" then some (.v4 0xC000020A) else none
  numeric host port infos h raw hraw := by
    split at h
    · exact nomatch h
    · split at h
      · obtain rfl := Answer.addresses.inj h
        rw [List.mem_singleton.mp hraw]
        rfl
      · exact nomatch h

/-- A bracket that is not closed, a port out of range and a host with an empty label end the
guard, and a request, with an exception that is neither of theirs. -/
theorem guard_raises_others :
    validateBaseUrl sampleEnv "https://[" = .error (.builtin .valueError) ∧
    validateBaseUrl sampleEnv "https://fw.example:99999" = .error (.builtin .valueError) ∧
    validateBaseUrl sampleEnv "https://a..b" = .error (.builtin .unicodeEncodeError) ∧
    ¬ GuardExact sampleEnv "https://[" ∧ ¬ RequestSafe sampleEnv "https://[" := by
  have hbracket : validateBaseUrl sampleEnv "https://[" = .error (.builtin .valueError) := by
    decide +kernel
  have hhandled : ¬ Handled sampleEnv "https://[" := by
    rcases validateBaseUrl_spec sampleEnv "https://[" with
      ⟨-, -, v, -, hok, -⟩ | ⟨-, -, message, herror⟩ | ⟨hnot, -⟩
    · exact nomatch hbracket.symm.trans hok
    · exact nomatch Except.error.inj (hbracket.symm.trans herror)
    · exact hnot
  refine ⟨hbracket, by decide +kernel, by decide +kernel, ?_, ?_⟩
  · rw [guardExact_iff]
    exact hhandled
  · rw [requestSafe_iff]
    have hsame : rstripSlashes "https://[" = "https://[" := by decide +kernel
    rw [hsame]
    exact hhandled

/-- What the firewall of that network answers is returned. -/
example : validateBaseUrl sampleEnv "https://fw.example:8443" =
    .ok ⟨"192.0.2.10", "fw.example", some 8443⟩ := by decide +kernel

end UrlSafety

end Opngms
