/-
Opngms/ParsersTotal.lean

Whether the parsers of what a box sends are total, as their module says: "never
raises on shape".

A `Call` is one of the thirteen parsers with its arguments.  It ends with a value
of the documented shape exactly if its condition holds (**`parsers_total_iff`**).
The parsers of a poll read some levels of their document without a guard, and there
the shape alone makes them raise (`nullInterface_raises`).
-/
import Opngms.LogShapes

namespace Opngms

namespace Parsers

open Py

variable {F : Type}

/-- A parser with its arguments. -/
inductive Call (F : Type) where
  | systemInfo (resources disk time cputype : Value F)
  | interfaces (traffic : Value F)
  | gateways (data : Value F)
  | vpn (data : Value F)
  | plugins (info : Value F)
  | idsRows (data : Value F)
  | dnsRows (data : Value F)
  | firewallBlocks (data : Value F)
  | authFailures (data : Value F)
  | serviceEvents (data : Value F)
  | configChanges (data : Value F)
  | version (s : Value F)
  | identity (firmwareStatus : Value F)

/-- What a parser returns. -/
inductive Answer (F : Type) where
  | systemInfo (value : SystemInfo F)
  | interfaces (value : List (Interface F))
  | gateways (value : List (Gateway F))
  | tunnels (value : List (Tunnel F))
  | plugins (value : Plugins F)
  | events (value : List (LogEvent F))
  | version (value : Nat × Nat × Nat × Nat)
  | identity (value : Identity F)

/-- The types of the answers are the documented shapes, and the two columns of an
identity that come from the document are texts. -/
def Answer.Documented : Answer F → Prop
  | .identity value => value.version.IsStr ∧ value.series.IsStr
  | _ => True

namespace Call

variable (lib : Library F)

def run : Call F → Except PyException (Answer F)
  | systemInfo resources disk time cputype =>
    .systemInfo <$> parseSystemInfo lib.toPlatform resources disk time cputype
  | interfaces traffic => .interfaces <$> parseInterfaces lib.toPlatform traffic
  | gateways data => .gateways <$> parseGateways lib.toPlatform data
  | vpn data => .tunnels <$> parseVpn lib.toPlatform data
  | plugins info => .plugins <$> parsePlugins lib.toPlatform info
  | idsRows data => .events <$> parseIdsRows lib data
  | dnsRows data => .events <$> parseDnsRows lib data
  | firewallBlocks data => .events <$> parseFirewallBlocks lib data
  | authFailures data => .events <$> parseAuthFailures lib data
  | serviceEvents data => .events <$> parseServiceEvents lib data
  | configChanges data => .events <$> parseConfigChanges lib data
  | version s => .version <$> parseVersion lib.toPlatform s
  | identity firmwareStatus => .identity <$> parseIdentity lib.toPlatform firmwareStatus

/-- The arguments are ones that the parser can handle. -/
def Tolerated : Call F → Prop
  | systemInfo resources disk time cputype =>
    SystemInfoOk lib.toPlatform resources disk time cputype
  | interfaces traffic => InterfacesOk lib.toPlatform traffic
  | gateways data => GatewaysOk lib.toPlatform data
  | vpn data => VpnOk lib.toPlatform data
  | plugins info => PluginsOk lib.toPlatform info
  | idsRows data =>
    ∀ r ∈ Value.dicts (rowsOf data ["rows", "alerts"]), IdsRowOk lib.toPlatform r
  | dnsRows data =>
    ∀ r ∈ Value.dicts (rowsOf data ["rows", "queries"]), DnsRowOk lib.toPlatform r
  | firewallBlocks data => ∀ r ∈ Value.dicts (rowsOf data []), FirewallRowOk lib.toPlatform r
  | authFailures data => ∀ r ∈ Value.dicts (rowsOf data ["rows"]), AuthRowOk lib.toPlatform r
  | serviceEvents data => ∀ r ∈ Value.dicts (rowsOf data ["rows"]), ServiceRowOk lib r
  | configChanges data => ∀ r ∈ Value.dicts (rowsOf data ["rows"]), ConfigRowOk lib.toPlatform r
  | version s => VersionOk lib.toPlatform s
  | identity firmwareStatus => IdentityOk lib.toPlatform firmwareStatus

/-- The parser returns, with a value of the documented shape. -/
def Total (call : Call F) : Prop := ∃ answer, call.run lib = .ok answer ∧ answer.Documented

end Call

theorem total_map {α : Type} {x : Except PyException α} (f : α → Answer F)
    (h : ∀ a, (f a).Documented) :
    (∃ answer, f <$> x = .ok answer ∧ answer.Documented) ↔ Returns x := by
  rw [← returns_map (f := f)]
  constructor
  · rintro ⟨answer, hx, -⟩
    exact ⟨answer, hx⟩
  · rintro ⟨answer, hx⟩
    refine ⟨answer, hx, ?_⟩
    cases x with
    | error e => cases hx
    | ok a =>
      obtain rfl := Except.ok.inj hx
      exact h a

/-- **The parsers are total exactly on the documents that they tolerate.** -/
theorem parsers_total_iff (lib : Library F) (call : Call F) :
    call.Total lib ↔ call.Tolerated lib := by
  cases call with
  | systemInfo resources disk time cputype =>
    exact (total_map .systemInfo fun _ => trivial).trans returns_parseSystemInfo
  | interfaces traffic =>
    exact (total_map .interfaces fun _ => trivial).trans returns_parseInterfaces
  | gateways data => exact (total_map .gateways fun _ => trivial).trans returns_parseGateways
  | vpn data => exact (total_map .tunnels fun _ => trivial).trans returns_parseVpn
  | plugins info => exact (total_map .plugins fun _ => trivial).trans returns_parsePlugins
  | idsRows data => exact (total_map .events fun _ => trivial).trans returns_parseIdsRows
  | dnsRows data => exact (total_map .events fun _ => trivial).trans returns_parseDnsRows
  | firewallBlocks data =>
    exact (total_map .events fun _ => trivial).trans returns_parseFirewallBlocks
  | authFailures data => exact (total_map .events fun _ => trivial).trans returns_parseAuthFailures
  | serviceEvents data =>
    exact (total_map .events fun _ => trivial).trans returns_parseServiceEvents
  | configChanges data =>
    exact (total_map .events fun _ => trivial).trans returns_parseConfigChanges
  | version s => exact (total_map .version fun _ => trivial).trans returns_parseVersion
  | identity firmwareStatus =>
    refine Iff.trans ?_ parseIdentity_iff
    constructor
    · rintro ⟨answer, h, hdoc⟩
      cases hx : parseIdentity lib.toPlatform firmwareStatus with
      | error e =>
        rw [Call.run, hx] at h
        cases h
      | ok identity =>
        rw [Call.run, hx] at h
        obtain rfl := Except.ok.inj h
        exact ⟨identity, rfl, hdoc⟩
    · rintro ⟨identity, h, hdoc⟩
      refine ⟨.identity identity, ?_, hdoc⟩
      rw [Call.run, h]
      rfl

/-- A library whose numbers are all the same; the ASCII letters have cases. -/
def sampleLib : Library Unit where
  lower s := s.map fun c => if 0x41 ≤ c.val ∧ c.val ≤ 0x5A then c + 0x20 else c
  isAlnum c := isDigit c || (0x41 ≤ c.val && c.val ≤ 0x5A) || (0x61 ≤ c.val && c.val ≤ 0x7A)
  isPrintable c := decide (¬ Surrogate c)
  not_printable _ h := decide_eq_false (not_not.mpr h)
  ofInt _ := ()
  ofText _ := some ()
  ofText_numeral _ _ := rfl
  repr _ := lit "0.0"
  repr_encodable _ := encodable_lit _
  isZero _ := true
  mul _ _ := ()
  div _ _ := ()
  min _ _ := ()
  round1 _ := ()
  fromIsoFormat _ := none
  clock _ := ⟨0, lit "1970-01-01T00:00:00+00:00", encodable_lit _⟩
  sha1 _ := lit "da39a3ee5e6b4b0d3255bfef95601890afd80709"
  sha1_encodable _ := encodable_lit _

/-- `{"interfaces": {"wan": null}}`. -/
def nullInterface : Call Unit := .interfaces (.obj [(lit "interfaces", .obj [(lit "wan", .null)])])

/-- An interface that is null has no `get`. -/
theorem nullInterface_raises :
    nullInterface.run sampleLib = .error .attributeError ∧ ¬ nullInterface.Total sampleLib := by
  have hrun : nullInterface.run sampleLib = .error .attributeError := rfl
  refine ⟨hrun, fun ⟨answer, h, _⟩ => ?_⟩
  rw [hrun] at h
  cases h

end Parsers

end Opngms
