/-
Opngms/LogShapes.lean

On which documents the parsers of the logs return.

The shape of a log never makes a parser raise: what is no list has no rows, and
what is no dictionary is skipped.  What raises is a text: an integer with too many
digits cannot be written, and a text with a lone surrogate cannot be encoded for
the hash that stands for a missing id.
-/
import Opngms.LogParsers
import Opngms.ParserShapes

namespace Opngms

namespace Parsers

open Py Pattern Value

variable {F : Type} {lib : Library F}

/-! ### Times and keys -/

theorem returns_parseTs (i : Nat) (value : Value F) : Returns (parseTs lib i value) := by
  unfold parseTs toStr
  split <;> rename_i h
  · exact returns_ok _
  · exact returns_ok _
  · exact returns_ok _
  · rename_i e hvalue _
    split at h
    · cases h
    · exact absurd (Except.error.inj h).symm hvalue

theorem returns_parseTs_bind {β : Type} {i : Nat} {value : Value F}
    {f : Timestamp → Except PyException β} {Q : Prop} (h : ∀ ts, Returns (f ts) ↔ Q) :
    Returns (parseTs lib i value >>= f) ↔ Q := by
  rw [returns_bind_of_forall h, and_iff_right (returns_parseTs i value)]

def PartOk (v : Value F) : Prop := v.Short ∧ v.Clean

theorem gather_toStr {parts : List (Value F)} (h : ∀ p ∈ parts, p.Short) :
    gather (fun p => some <$> p.toStr lib.toPlatform) parts =
      .ok (parts.map (·.text lib.toPlatform)) := by
  induction parts with
  | nil => rfl
  | cons p parts ih =>
    obtain ⟨hp, hparts⟩ := List.forall_mem_cons.mp h
    rw [gather, ih hparts, toStr, if_pos hp]
    rfl

theorem returns_eventKey {ts : Timestamp} {parts : List (Value F)} :
    Returns (eventKey lib ts parts) ↔ ∀ p ∈ parts, PartOk p := by
  unfold eventKey
  constructor
  · intro h
    obtain ⟨texts, htexts, h⟩ := returns_bind.mp h
    have hshort : ∀ p ∈ parts, p.Short := fun p hp =>
      returns_toStr.mp (returns_map.mp (returns_gather.mp ⟨texts, htexts⟩ p hp))
    rw [gather_toStr hshort] at htexts
    obtain rfl := Except.ok.inj htexts
    simp only at h
    rw [returns_bind_pure, returns_encode, encodable_intercalate (encodable_lit _),
      List.forall_mem_cons, List.forall_mem_map] at h
    exact fun p hp => ⟨hshort p hp, encodable_text.mp (h.2 p hp)⟩
  · intro h
    rw [gather_toStr fun p hp => (h p hp).1, except_ok_bind]
    simp only
    rw [returns_bind_pure, returns_encode, encodable_intercalate (encodable_lit _),
      List.forall_mem_cons, List.forall_mem_map]
    exact ⟨ts.iso_encodable, fun p hp => encodable_text.mpr (h p hp).2⟩

/-- The id can be written, or, where there is none, the parts can be hashed. -/
def IdOk (P : Platform F) (id : Value F) (parts : List (Value F)) : Prop :=
  (id.truthy P = true → id.Short) ∧ (id.truthy P = false → ∀ p ∈ parts, PartOk p)

theorem returns_idOrKey_bind {β : Type} {id : Value F} {ts : Timestamp} {parts : List (Value F)}
    {f : Value F → Except PyException β} {Q : Prop} (h : ∀ key, Returns (f key) ↔ key.Short ∧ Q) :
    Returns (idOrKey lib id ts parts >>= f) ↔ IdOk lib.toPlatform id parts ∧ Q := by
  unfold idOrKey IdOk
  cases hid : id.truthy lib.toPlatform with
  | true =>
    rw [if_pos rfl, except_ok_bind, h]
    simp
  | false =>
    have hstr : ∀ s, Returns (f (.str s)) ↔ Q := fun s => (h _).trans (and_iff_right nofun)
    have hparts : (∀ p ∈ parts, PartOk p) ↔ Returns (eventKey lib ts parts) :=
      returns_eventKey.symm
    rw [if_neg Bool.false_ne_true, hparts]
    cases hkey : eventKey lib ts parts with
    | error e => simp [Functor.map, Except.map, Bind.bind, Except.bind]
    | ok key =>
      show Returns (f (.str key)) ↔ _
      rw [hstr]
      simp

/-! ### Rows -/

theorem returns_eachRow {β : Type} {rows : List (Value F)}
    {f : Nat → List (PyStr × Value F) → Except PyException (Option β)}
    {Q : List (PyStr × Value F) → Prop} (h : ∀ i r, Returns (f i r) ↔ Q r) :
    Returns (eachRow f rows) ↔ ∀ r ∈ dicts rows, Q r := by
  unfold eachRow
  rw [returns_gather]
  constructor
  · intro hrows r hr
    obtain ⟨x, hx, hsome⟩ := List.mem_filterMap.mp hr
    obtain ⟨i, hi, rfl⟩ := List.getElem_of_mem hx
    have hrow := hrows (rows[i], i) (List.mem_zipIdx_iff_getElem?.mpr (List.getElem?_eq_getElem hi))
    simp only at hrow
    cases hget : rows[i] with
    | obj kvs =>
      rw [hget] at hsome hrow
      obtain rfl := Option.some.inj hsome
      exact (h i _).mp hrow
    | _ =>
      rw [hget] at hsome
      cases hsome
  · intro hrows x hx
    obtain ⟨v, i⟩ := x
    have hv : v ∈ rows := List.mem_of_getElem? (List.mem_zipIdx_iff_getElem?.mp hx)
    cases v with
    | obj kvs => exact (h i kvs).mpr (hrows kvs (List.mem_filterMap.mpr ⟨_, hv, rfl⟩))
    | _ => exact returns_ok _

/-- The severity of an IDS row. -/
def idsSeverity (r : List (PyStr × Value F)) : Value F :=
  getD (getD r "alert" .null).entries "severity" (getD r "severity" (.str []))

/-- A row of `parse_ids_rows` can be read. -/
def IdsRowOk (P : Platform F) (r : List (PyStr × Value F)) : Prop :=
  (idsSeverity r).Short ∧
    IdOk P ((getD r "alert_id" .null).or P (getD r "_id" .null))
      [getD r "src_ip" (.str []), getD r "dest_ip" (getD r "dst_ip" (.str [])),
        (getD (getD r "alert" .null).entries "signature" .null).or P
          ((getD r "signature" .null).or P (.str [])),
        idsSeverity r]

theorem partOk_text {P : Platform F} {v : Value F} (h : v.Short) :
    PartOk (.str (v.text P) : Value F) ↔ PartOk v := by
  constructor
  · rintro ⟨-, hclean⟩
    exact ⟨h, encodable_text.mp hclean⟩
  · rintro ⟨-, hclean⟩
    exact ⟨nofun, encodable_text.mpr hclean⟩

theorem returns_idsRow {i : Nat} {r : List (PyStr × Value F)} :
    Returns (idsRow lib i r) ↔ IdsRowOk lib.toPlatform r := by
  unfold idsRow IdsRowOk idsSeverity
  simp only
  refine returns_parseTs_bind fun ts => ?_
  rw [returns_toStr_bind]
  refine and_congr_right fun hseverity => ?_
  refine (returns_idOrKey_bind (Q := True) fun key => ?_).trans ?_
  · rw [returns_bind_pure, returns_toStr, and_true]
  · rw [and_true]
    unfold IdOk
    simp only [List.forall_mem_cons, partOk_text hseverity]

theorem returns_parseIdsRows {data : Value F} :
    Returns (parseIdsRows lib data) ↔
      ∀ r ∈ dicts (rowsOf data ["rows", "alerts"]), IdsRowOk lib.toPlatform r :=
  returns_eachRow fun _ _ => returns_idsRow

/-- A row of `parse_dns_rows` can be read. -/
def DnsRowOk (P : Platform F) (r : List (PyStr × Value F)) : Prop :=
  IdOk P ((getD r "query_id" .null).or P ((getD r "id" .null).or P (getD r "_id" .null)))
    [(getD r "client" .null).or P ((getD r "client_ip" .null).or P (.str [])),
      (getD r "domain" .null).or P ((getD r "query" .null).or P
        ((getD r "name" .null).or P (.str []))),
      getD r "action" (.str [])]

theorem returns_dnsRow {i : Nat} {r : List (PyStr × Value F)} :
    Returns (dnsRow lib i r) ↔ DnsRowOk lib.toPlatform r := by
  unfold dnsRow DnsRowOk
  simp only
  refine returns_parseTs_bind fun ts => ?_
  refine (returns_idOrKey_bind (Q := True) fun key => ?_).trans (iff_of_eq (and_true _))
  rw [returns_bind_pure, returns_toStr, and_true]

theorem returns_parseDnsRows {data : Value F} :
    Returns (parseDnsRows lib data) ↔
      ∀ r ∈ dicts (rowsOf data ["rows", "queries"]), DnsRowOk lib.toPlatform r :=
  returns_eachRow fun _ _ => returns_dnsRow

/-- A row of `parse_firewall_blocks` can be read: only a block with a source is. -/
def FirewallRowOk (P : Platform F) (r : List (PyStr × Value F)) : Prop :=
  (getD r "action" (.str [])).Short ∧
    (P.lower ((getD r "action" (.str [])).text P) = lit "block" →
      (getD r "src" (.str [])).truthy P = true →
        IdOk P (getD r "__digest__" .null)
          [getD r "src" (.str []), getD r "dst" (.str []), getD r "dstport" (.str [])] ∧
        (getD r "dstport" (.str [])).Short)

theorem returns_firewallRow {i : Nat} {r : List (PyStr × Value F)} :
    Returns (firewallRow lib i r) ↔ FirewallRowOk lib.toPlatform r := by
  unfold firewallRow FirewallRowOk
  rw [returns_toStr_bind]
  refine and_congr_right fun _ => ?_
  simp only
  split
  · rename_i hblock
    exact iff_of_true (returns_pure _) fun h => absurd h hblock
  · rename_i hblock
    rw [imp_iff_right (not_not.mp hblock)]
    split
    · rename_i hsrc
      rw [imp_iff_right hsrc]
      refine returns_parseTs_bind fun ts => ?_
      refine returns_idOrKey_bind fun key => ?_
      rw [returns_toStr_bind, returns_bind_pure, returns_toStr, and_comm]
    · rename_i hsrc
      exact iff_of_true (returns_pure _) fun h => absurd h hsrc

theorem returns_parseFirewallBlocks {data : Value F} :
    Returns (parseFirewallBlocks lib data) ↔
      ∀ r ∈ dicts (rowsOf data []), FirewallRowOk lib.toPlatform r :=
  returns_eachRow fun _ _ => returns_firewallRow

/-! ### Lines of the audit and the system log -/

theorem authFail_ip {t : PyStr} (ht : t ∈ authFail.groupLanguage "ip") : Encodable t := by
  have hdot : ∀ c : CodePoint, decide (c = codePoint '.') = true → ¬ Surrogate c := by
    intro c hc
    obtain rfl := of_decide_eq_true hc
    exact not_surrogate_codePoint _
  have hdigit : ∀ c : CodePoint, isDigit c = true → ¬ Surrogate c := fun _ =>
    not_surrogate_of_isDigit
  have hoctet : octet.Letters (¬ Surrogate ·) :=
    ⟨hdigit, ⟨hdigit, ⟨hdigit, trivial⟩, trivial⟩, trivial⟩
  have hletters : (seq octet (times 3 (seq (char '.') octet))).Letters (¬ Surrogate ·) :=
    ⟨hoctet, ⟨hdot, hoctet⟩, ⟨hdot, hoctet⟩, ⟨hdot, hoctet⟩, trivial⟩
  have hnone : octet.groupLanguage "ip" = 0 := by simp [octet]
  have hnone' : (times 3 (seq (char '.') octet)).groupLanguage "ip" = 0 := by
    simp [times, char, hnone, groupLanguage]
  simp [authFail, words, hnone, hnone'] at ht
  exact mem_of_letters hletters ht

/-- A row of `parse_auth_failures` can be read: the user that it names can be
hashed. -/
def AuthRowOk (P : Platform F) (r : List (PyStr × Value F)) : Prop :=
  (getD r "process_name" .null).isText "audit" = true →
    (getD r "line" (.str [])).Short ∧
      ∀ m user, authFail.search ((getD r "line" (.str [])).text P) = some m →
        m.group "user" = some user → Encodable user

theorem partOk_groupValue {m : Hit CodePoint} {name : String} :
    PartOk (groupValue m name : Value F) ↔ ∀ t, m.group name = some t → Encodable t := by
  unfold groupValue
  cases m.group name with
  | none => exact iff_of_true ⟨nofun, trivial⟩ nofun
  | some t =>
    refine ⟨fun h u hu => ?_, fun h => ⟨nofun, h t rfl⟩⟩
    obtain rfl := Option.some.inj hu
    exact h.2

theorem returns_authRow {i : Nat} {r : List (PyStr × Value F)} :
    Returns (authRow lib i r) ↔ AuthRowOk lib.toPlatform r := by
  unfold authRow AuthRowOk
  split
  · rename_i haudit
    rw [imp_iff_right haudit, returns_toStr_bind]
    refine and_congr_right fun _ => ?_
    cases hm : authFail.search ((getD r "line" (.str [])).text lib.toPlatform) with
    | none => exact iff_of_true (returns_pure _) nofun
    | some m =>
      refine (returns_parseTs_bind fun ts => ?_)
      simp only
      rw [returns_bind_pure, returns_eventKey]
      simp only [List.forall_mem_cons, partOk_groupValue, Option.some.injEq]
      constructor
      · rintro ⟨-, huser, -⟩ m' user rfl
        exact huser user
      · intro h
        exact ⟨fun t ht => authFail_ip (search_group hm ht), fun user => h m user rfl, nofun⟩
  · rename_i haudit
    exact iff_of_true (returns_pure _) fun h => absurd h haudit

theorem returns_parseAuthFailures {data : Value F} :
    Returns (parseAuthFailures lib data) ↔
      ∀ r ∈ dicts (rowsOf data ["rows"]), AuthRowOk lib.toPlatform r :=
  returns_eachRow fun _ _ => returns_authRow

/-- A row of `parse_service_events` can be read: the part of its line that is kept
can be hashed, if a rule is for it. -/
def ServiceRowOk (lib : Library F) (r : List (PyStr × Value F)) : Prop :=
  let proc := getD r "process_name" (.str [])
  let line := getD r "line" (.str [])
  proc.Short ∧ line.Short ∧ (getD r "severity" (.str [])).Short ∧
    ∀ rule, serviceRule lib (proc.text lib.toPlatform) ((line.text lib.toPlatform).take 2000) =
      some rule → Encodable ((line.text lib.toPlatform).take 2000)

theorem returns_serviceRow {i : Nat} {r : List (PyStr × Value F)} :
    Returns (serviceRow lib i r) ↔ ServiceRowOk lib r := by
  unfold serviceRow ServiceRowOk
  rw [returns_toStr_bind]
  refine and_congr_right fun _ => ?_
  rw [returns_toStr_bind]
  refine and_congr_right fun _ => ?_
  simp only
  rw [returns_toStr_bind]
  refine and_congr_right fun _ => ?_
  generalize ((getD r "line" (.str [])).text lib.toPlatform).take 2000 = line
  cases serviceRule lib ((getD r "process_name" (.str [])).text lib.toPlatform) line with
  | none => exact iff_of_true (returns_pure _) nofun
  | some rule =>
    refine returns_parseTs_bind fun ts => ?_
    have hkey : ∀ s : PyStr, Returns (eventKey lib ts
        [.str (lit rule.name), .str ((lib.sha1 s).take 16)]) := by
      intro s
      have hdigest := (lib.sha1_encodable s).mono (List.take_subset 16 _)
      rw [returns_eventKey]
      simp only [List.forall_mem_cons]
      exact ⟨⟨nofun, encodable_lit _⟩, ⟨nofun, hdigest⟩, nofun⟩
    rw [returns_bind_of_forall fun _ => iff_true_intro (returns_bind_pure.mpr (hkey _)), and_true,
      returns_encode]
    simp

theorem returns_parseServiceEvents {data : Value F} :
    Returns (parseServiceEvents lib data) ↔
      ∀ r ∈ dicts (rowsOf data ["rows"]), ServiceRowOk lib r :=
  returns_eachRow fun _ _ => returns_serviceRow

/-- A row of `parse_config_changes` can be read: the backup file, the change
reference and the actor that its line names can be hashed. -/
def ConfigRowOk (P : Platform F) (r : List (PyStr × Value F)) : Prop :=
  (getD r "process_name" .null).isText "audit" = true →
    (getD r "line" (.str [])).Short ∧
      ∀ m, configChange.search (((getD r "line" (.str [])).text P).take 2000) = some m →
        Encodable (backupFileOf m) ∧ Encodable (changeRefOf m) ∧ Encodable (actorOf m)

theorem returns_configRow {i : Nat} {r : List (PyStr × Value F)} :
    Returns (configRow lib i r) ↔ ConfigRowOk lib.toPlatform r := by
  have hpart : ∀ s : PyStr, PartOk (.str s : Value F) ↔ Encodable s := fun s =>
    and_iff_right nofun
  unfold configRow ConfigRowOk
  split
  · rename_i haudit
    rw [imp_iff_right haudit, returns_toStr_bind]
    refine and_congr_right fun _ => ?_
    simp only
    cases configChange.search (((getD r "line" (.str [])).text lib.toPlatform).take 2000) with
    | none => exact iff_of_true (returns_pure _) nofun
    | some m =>
      refine (returns_parseTs_bind fun ts => ?_)
      rw [returns_bind_pure, returns_eventKey]
      simp only [List.forall_mem_cons, hpart, List.not_mem_nil, false_implies, implies_true,
        and_true, Option.some.injEq, forall_eq']
  · rename_i haudit
    exact iff_of_true (returns_pure _) fun h => absurd h haudit

theorem returns_parseConfigChanges {data : Value F} :
    Returns (parseConfigChanges lib data) ↔
      ∀ r ∈ dicts (rowsOf data ["rows"]), ConfigRowOk lib.toPlatform r :=
  returns_eachRow fun _ _ => returns_configRow

end Parsers

end Opngms
