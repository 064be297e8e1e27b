/-
Opngms/RecordUndo.lean

What the revert of a change of a record kind restores.

An `add` is inverted to a deletion by identity, whatever the change did: it may
have written a row that was there, it may have failed, it may have been a dry
run.  A `set` or a `delete` is inverted to the record that the saved
configuration has under the target, or to a deletion if it has none.  The search
for the inverse goes by the target of the change, the one of the change by its
payload, and the inverse meets the box as the change left it.

**`record_restored_iff`** says exactly when the rows are restored nevertheless.
-/
import Opngms.RecordRuns

namespace Opngms

open Appliance Dialogue

variable {A : Appliance}

/-! ### The saved configuration -/

/-- The elements of the saved configuration that hold the records of a kind. -/
def StoredKind.elements (k : StoredKind) (root : Elem) : List Elem :=
  match k with
  | .firewallAlias => root.iter.filter fun el => el.tag == "alias"
  | .firewallRule => root.iterfind fwRulePath
  | .monitTest => root.iterfind monitTestPath
  | .idsPolicy => root.iterfind idsPolicyPath

/-- The document shows the rows of the record kinds, each identifying field
written once. -/
structure ShowsRecords (root : Elem) (S : Configuration A) : Prop where
  once : ∀ k : StoredKind, ∀ el ∈ k.elements root, Elem.HasOnce el k.column
  interface_once : ∀ el ∈ root.iterfind fwRulePath, Elem.HasOnce el "interface"
  records : ∀ k : StoredKind, ((k.elements root).map Elem.record).Perm
    ((S.store.rows.filter fun r => decide (r.table = k.table)).map Row.fields)

namespace StoredKind

def rawKey (k : StoredKind) (change : Change) : Json := targetOr change k.column

/-- The saved record with these fields is the one that is looked up. -/
def seen (k : StoredKind) (key : Json) (interface : String) (φ : Fields) : Bool :=
  match k with
  | .firewallAlias => decide ((φ.lookup "name").map Json.str = some key)
  | .firewallRule => decide (Json.str ((φ.lookup "description").getD "") = key) &&
      decide ((φ.lookup "interface").getD "" = interface)
  | .monitTest => decide (Json.str ((φ.lookup "name").getD "") = key)
  | .idsPolicy => decide (Json.str ((φ.lookup "description").getD "") = key)

/-- The payload of an inverse that writes a saved record back; `none` where a
ruleset of a policy is not in the files table of the document. -/
def saved (k : StoredKind) (root : Elem) (change : Change) (φ : Fields) : Option Dict :=
  match k with
  | .idsPolicy =>
    match rulesetFilenames (idsFilesMap root) (splitCommas (recordField φ "rulesets" "")) with
    | .ok names => some (policyBody (k.rawKey change) φ names)
    | .error _ => none
  | _ => some (strDict φ)

end StoredKind

section Lookup

variable {root : Elem} {S : Configuration A} {el : Elem} {t : String}

theorem findtext_eq_lookup (h : Elem.HasOnce el t) : el.findtext t = (el.record.lookup t).getD "" := by
  have hrec := getD_record h
  rw [Dict.getD, get?_strDict] at hrec
  cases hl : el.record.lookup t with
  | none =>
    rw [hl] at hrec
    exact (Json.str.inj hrec).symm
  | some s =>
    rw [hl] at hrec
    exact (Json.str.inj hrec).symm

theorem find_name_eq_lookup (h : Elem.HasOnce el t) :
    (el.find [t]).map Elem.text = el.record.lookup t := by
  have hf : el.find [t] = (el.childrenTagged t).head? := by
    simp [Elem.find, Elem.findall]
  have hrec := get?_record el t
  rw [get?_strDict] at hrec
  rw [hf]
  unfold Elem.HasOnce at h
  rcases hc : el.childrenTagged t with - | ⟨c, - | ⟨c', cs⟩⟩
  · rw [hc] at hrec
    cases hl : el.record.lookup t with
    | none => rfl
    | some s =>
      rw [hl] at hrec
      cases hrec
  · rw [hc] at hrec
    cases hl : el.record.lookup t with
    | none =>
      rw [hl] at hrec
      cases hrec
    | some s =>
      rw [hl] at hrec
      exact congrArg some (Json.str.inj (Option.some.inj hrec)).symm
  · rw [hc] at h
    simp at h

theorem lookup_record (hdoc : ShowsRecords root S) (k : StoredKind) {p : Elem → Bool}
    {q : Fields → Bool} (hp : ∀ el ∈ k.elements root, p el = q el.record) :
    (∃ r ∈ S.store.rows, r.table = k.table ∧ q r.fields = true ∧
      ((k.elements root).find? p).map Elem.record = some r.fields) ∨
    ((k.elements root).find? p = none ∧
      ∀ r ∈ S.store.rows, r.table = k.table → q r.fields = false) := by
  have hperm := hdoc.records k
  cases hf : (k.elements root).find? p with
  | some el =>
    have hel := List.mem_of_find?_eq_some hf
    have hmem := hperm.subset (List.mem_map_of_mem hel)
    obtain ⟨r, hr, hfields⟩ := List.mem_map.mp hmem
    obtain ⟨hrow, ht⟩ := List.mem_filter.mp hr
    refine .inl ⟨r, hrow, of_decide_eq_true ht, ?_, congrArg some hfields.symm⟩
    rw [hfields, ← hp el hel]
    exact List.find?_some hf
  | none =>
    refine .inr ⟨rfl, fun r hr ht => ?_⟩
    have hmem := hperm.symm.subset (List.mem_map_of_mem (List.mem_filter.mpr ⟨hr, decide_eq_true ht⟩))
    obtain ⟨el, hel, hrec⟩ := List.mem_map.mp hmem
    rw [← hrec, ← hp el hel]
    exact Bool.eq_false_iff.mpr (List.find?_eq_none.mp hf el hel)

end Lookup

/-! ### What each builder makes -/

section Builders

variable {env : Env} {root : Elem} {S : Configuration A} {k : StoredKind} {change : Change}
  {snapshotXml : Option String} {op : String} {target : Json} {payload : Dict}

/-- The inverse deletes: the change was an addition, or the document has no such
record. -/
def Deletes (S : Configuration A) (k : StoredKind) (change : Change) (op : String) : Prop :=
  op = "delete" ∧ (change.operation = "add" ∨ ∀ r ∈ S.store.rows, r.table = k.table →
    k.seen (k.rawKey change) (ruleInterface change.payload) r.fields = false)

/-- The inverse writes back the row that the document shows. -/
def Rewrites (S : Configuration A) (root : Elem) (k : StoredKind) (change : Change) (op : String)
    (payload : Dict) : Prop :=
  change.operation ≠ "add" ∧
    op = (if k = .firewallAlias ∧ change.operation = "delete" then "add" else "set") ∧
    ∃ p ∈ S.store.rows, p.table = k.table ∧
      k.seen (k.rawKey change) (ruleInterface change.payload) p.fields = true ∧
      k.saved root change p.fields = some payload

theorem read_snapshot {β : Type} {what : String} {f : Elem → Except Raised β} {b : β}
    (hsnap : ∀ xml r, snapshotXml = some xml → env.parseXml xml = some r → r = root)
    (h : (needSnapshot snapshotXml what >>= fun xml => parseConfig env xml >>= f) = .ok b) :
    f root = .ok b := by
  obtain ⟨xml, hxml, h⟩ := except_bind_ok h
  obtain ⟨r, hr, h⟩ := except_bind_ok h
  obtain rfl := hsnap xml r (needSnapshot_ok hxml) (parseConfig_ok hr)
  exact h

theorem invertAlias_cases (hdoc : ShowsRecords root S)
    (hsnap : ∀ xml r, snapshotXml = some xml → env.parseXml xml = some r → r = root)
    (h : invertAlias env change snapshotXml = .ok (op, target, payload)) :
    target = StoredKind.firewallAlias.rawKey change ∧
      (Deletes S .firewallAlias change op ∨ Rewrites S root .firewallAlias change op payload) := by
  unfold invertAlias at h
  dsimp only at h
  split at h
  · rename_i hadd
    obtain ⟨rfl, rfl, -⟩ := by simpa using Except.ok.inj h
    exact ⟨rfl, .inl ⟨rfl, .inl hadd⟩⟩
  · rename_i hadd
    replace h := read_snapshot hsnap h
    have hp : ∀ el ∈ StoredKind.firewallAlias.elements root,
        ((el.find ["name"]).elim false fun n =>
          decide (Json.str n.text = targetOr change "name")) =
        StoredKind.firewallAlias.seen (StoredKind.firewallAlias.rawKey change)
          (ruleInterface change.payload) el.record := by
      intro el hel
      have hlook : (el.find ["name"]).map Elem.text = el.record.lookup "name" :=
        find_name_eq_lookup (hdoc.once .firewallAlias el hel)
      show _ = decide ((el.record.lookup "name").map Json.str = some (targetOr change "name"))
      rw [← hlook]
      cases el.find ["name"] <;> simp
    have hlookup : aliasFromConfig root (targetOr change "name") = Option.map Elem.record
        ((StoredKind.firewallAlias.elements root).find? fun el => (el.find ["name"]).elim false
          fun n => decide (Json.str n.text = targetOr change "name")) := by
      unfold aliasFromConfig
      congr 2
      funext el
      cases el.find ["name"] <;> rfl
    rw [hlookup] at h
    rcases lookup_record hdoc .firewallAlias hp with ⟨p, hrow, ht, hseen, hfound⟩ | ⟨hnone, -⟩
    · rw [hfound] at h
      have hname : Dict.get? (strDict p.fields) "name" = some (targetOr change "name") :=
        (get?_strDict _ _).trans (of_decide_eq_true hseen)
      dsimp only at h
      rw [hname] at h
      obtain ⟨rfl, rfl, rfl⟩ := by simpa using Except.ok.inj h
      refine ⟨rfl, .inr ⟨hadd, ?_, p, hrow, ht, hseen, rfl⟩⟩
      simp
    · rw [hnone] at h
      cases h

theorem invertRecord_cases {what : String} {path : List String} {tgt : Json} {identity : Dict}
    (hk : k ≠ .firewallAlias) (hsaved : ∀ φ, k.saved root change φ = some (strDict φ))
    (helems : k.elements root = root.iterfind path) (hdoc : ShowsRecords root S)
    (hsnap : ∀ xml r, snapshotXml = some xml → env.parseXml xml = some r → r = root)
    (hp : ∀ el ∈ k.elements root,
      (identity.all fun tv => decide (Json.str (el.findtext tv.1) = tv.2)) =
        k.seen (k.rawKey change) (ruleInterface change.payload) el.record)
    (h : invertRecord env what path tgt identity change snapshotXml = .ok (op, target, payload)) :
    target = tgt ∧ (Deletes S k change op ∨ Rewrites S root k change op payload) := by
  unfold invertRecord at h
  split at h
  · rename_i hadd
    obtain ⟨rfl, rfl, -⟩ := by simpa using Except.ok.inj h
    exact ⟨rfl, .inl ⟨rfl, .inl hadd⟩⟩
  · rename_i hadd
    replace h := read_snapshot hsnap h
    rcases lookup_record hdoc k hp with ⟨p, hrow, ht, hseen, hfound⟩ | ⟨hnone, hall⟩
    · have hrecord : recordFromConfig root path identity = some p.fields := by
        rw [recordFromConfig, ← helems]
        exact hfound
      rw [hrecord] at h
      obtain ⟨rfl, rfl, rfl⟩ := by simpa using Except.ok.inj h
      refine ⟨rfl, .inr ⟨hadd, ?_, p, hrow, ht, hseen, hsaved p.fields⟩⟩
      exact (if_neg fun hboth => hk hboth.1).symm
    · have hrecord : recordFromConfig root path identity = none := by
        rw [recordFromConfig, ← helems, hnone]
        rfl
      rw [hrecord] at h
      obtain ⟨rfl, rfl, -⟩ := by simpa using Except.ok.inj h
      exact ⟨rfl, .inl ⟨rfl, .inr hall⟩⟩

theorem invertFirewallRule_cases (hdoc : ShowsRecords root S)
    (hsnap : ∀ xml r, snapshotXml = some xml → env.parseXml xml = some r → r = root)
    (h : invertFirewallRule env change snapshotXml = .ok (op, target, payload)) :
    target = StoredKind.firewallRule.rawKey change ∧
      (Deletes S .firewallRule change op ∨ Rewrites S root .firewallRule change op payload) := by
  refine invertRecord_cases (by decide) (fun φ => rfl) rfl hdoc hsnap (fun el hel => ?_) h
  have hd := findtext_eq_lookup (hdoc.once .firewallRule el hel)
  have hi := findtext_eq_lookup (hdoc.interface_once el hel)
  simp only [StoredKind.column] at hd
  rw [List.all_cons, List.all_cons, List.all_nil, Bool.and_true, hd, hi]
  exact congrArg (_ && ·) (decide_eq_decide.mpr (by rw [Json.str.injEq]; rfl))

theorem invertMonitTest_cases (hdoc : ShowsRecords root S)
    (hsnap : ∀ xml r, snapshotXml = some xml → env.parseXml xml = some r → r = root)
    (h : invertMonitTest env change snapshotXml = .ok (op, target, payload)) :
    target = StoredKind.monitTest.rawKey change ∧
      (Deletes S .monitTest change op ∨ Rewrites S root .monitTest change op payload) := by
  refine invertRecord_cases (by decide) (fun φ => rfl) rfl hdoc hsnap (fun el hel => ?_) h
  have hd := findtext_eq_lookup (hdoc.once .monitTest el hel)
  simp only [StoredKind.column] at hd
  rw [List.all_cons, List.all_nil, Bool.and_true, hd]
  rfl

theorem invertIdsPolicy_cases (hdoc : ShowsRecords root S)
    (hsnap : ∀ xml r, snapshotXml = some xml → env.parseXml xml = some r → r = root)
    (h : invertIdsPolicy env change snapshotXml = .ok (op, target, payload)) :
    target = StoredKind.idsPolicy.rawKey change ∧
      (Deletes S .idsPolicy change op ∨ Rewrites S root .idsPolicy change op payload) := by
  unfold invertIdsPolicy at h
  dsimp only at h
  split at h
  · rename_i hadd
    obtain ⟨rfl, rfl, -⟩ := by simpa using Except.ok.inj h
    exact ⟨rfl, .inl ⟨rfl, .inl hadd⟩⟩
  · rename_i hadd
    replace h := read_snapshot hsnap h
    have hp : ∀ el ∈ StoredKind.idsPolicy.elements root,
        (([("description", targetOr change "description")] : Dict).all fun tv =>
          decide (Json.str (el.findtext tv.1) = tv.2)) =
        StoredKind.idsPolicy.seen (StoredKind.idsPolicy.rawKey change)
          (ruleInterface change.payload) el.record := by
      intro el hel
      have hd := findtext_eq_lookup (hdoc.once .idsPolicy el hel)
      simp only [StoredKind.column] at hd
      rw [List.all_cons, List.all_nil, Bool.and_true, hd]
      rfl
    rcases lookup_record hdoc .idsPolicy hp with ⟨p, hrow, ht, hseen, hfound⟩ | ⟨hnone, hall⟩
    · rw [show recordFromConfig root idsPolicyPath _ = some p.fields from hfound] at h
      obtain ⟨names, hnames, h⟩ := except_bind_ok h
      obtain ⟨rfl, rfl, rfl⟩ := by simpa using Except.ok.inj h
      refine ⟨rfl, .inr ⟨hadd, (if_neg (by simp)).symm, p, hrow, ht, hseen, ?_⟩⟩
      dsimp only [StoredKind.saved]
      rw [hnames]
      rfl
    · have hrecord : recordFromConfig root idsPolicyPath
          [("description", targetOr change "description")] = none :=
        congrArg (Option.map Elem.record) hnone
      rw [hrecord] at h
      obtain ⟨rfl, rfl, -⟩ := by simpa using Except.ok.inj h
      exact ⟨rfl, .inl ⟨rfl, .inr hall⟩⟩

theorem inverse_cases (hk : change.kind = k.record.text) (hdoc : ShowsRecords root S)
    (hsnap : ∀ xml r, snapshotXml = some xml → env.parseXml xml = some r → r = root)
    (h : buildInverse env change snapshotXml = .ok (op, target, payload)) :
    target = k.rawKey change ∧ (Deletes S k change op ∨ Rewrites S root k change op payload) := by
  rw [buildInverse, hk] at h
  cases k with
  | firewallAlias => exact invertAlias_cases hdoc hsnap h
  | firewallRule => exact invertFirewallRule_cases hdoc hsnap h
  | monitTest => exact invertMonitTest_cases hdoc hsnap h
  | idsPolicy => exact invertIdsPolicy_cases hdoc hsnap h

end Builders

/-! ### A change and its revert -/

/-- How an attempt to apply a change went: the configuration could not be read,
live push was off, or the applier ran live, where a request may fail. -/
inductive Course where
  | unread
  | dryRun
  | live (mishap : Option Mishap)

/-- The attempt takes the box from `S` to `S'` and records `row`. -/
def Course.Attempts (c : Course) (change : Change) (S S' : Configuration A) (now : Time)
    (row : Change) : Prop :=
  match c with
  | .unread => S' = S ∧ row = { change with status := .failed, result := readFailure }
  | .dryRun => ∃ z n, (applyForKind change.kind change.operation change.payload true).play
      (serve none) (S, 0) = some (z, S', n) ∧ recorded change now z = .ok row
  | .live m => ∃ z n, (applyForKind change.kind change.operation change.payload false).play
      (serve m) (S, 0) = some (z, S', n) ∧ recorded change now z = .ok row

/-- What the attempt saved: a live run the configuration before it, any other
nothing. -/
def Course.Saves (c : Course) (env : Env) (root : Elem) (snapshotXml : Option String) : Prop :=
  match c with
  | .live _ => ∃ xml, snapshotXml = some xml ∧ env.parseXml xml = some root
  | _ => snapshotXml = none

/-- A change of a record kind and its revert: it is applied to a box, its
outcome is recorded, the inverse is built from the record and the saved
configuration, and is applied without a mishap. -/
structure RecordRevert (A : Appliance) (env : Env) where
  kind : StoredKind
  change : Change
  ofKind : change.kind = kind.record.text
  /-- The operation is one that the schema of a proposal lets through. -/
  accepted : ["add", "set", "delete"].contains change.operation = true
  before : Configuration A
  root : Elem
  documents : ShowsRecords root before
  course : Course
  readsFail : ∀ m, course = .live m → ∀ i < kind.reads change.operation change.payload, ReadsFail m i
  after : Configuration A
  now : Time
  row : Change
  applied : course.Attempts change before after now row
  snapshotXml : Option String
  snapshot : course.Saves env root snapshotXml
  operation : String
  target : String
  inverse : Dict
  inverted : buildInverse env row snapshotXml = .ok (operation, .str target, inverse)
  result : Except Raised Json
  final : Configuration A
  sentBack : Nat
  reverted : (applyForKind change.kind operation inverse false).play (serve none) (after, 0) =
    some (result, final, sentBack)

namespace RecordRevert

variable {env : Env} (R : RecordRevert A env)

/-- What the change did to the rows. -/
def deed : Deed String String Fields :=
  match R.course with
  | .live m =>
    if landed m (R.kind.reads R.change.operation R.change.payload) then
      R.kind.deed A R.change.operation R.change.payload R.before.store
    else .nothing
  | _ => .nothing

/-- A row is the one that the inverse addresses: by the target of the change, or
the identity of its payload where the target is empty. -/
def addressed : Fields → Bool :=
  R.kind.finds (R.kind.record.targetKey R.change, R.kind.record.scope R.change.payload)

/-- What the inverse writes for a saved record. -/
def back (φ : Fields) : Option (Rewrite Fields) :=
  ((R.kind.saved R.root R.change φ).bind (R.kind.item A)).map (A.rewrite R.kind.table)

/-- The box had a record for the inverse to write back: the change was no
addition, and a row has the identity that the inverse addresses. -/
def Shown : Prop :=
  R.change.operation ≠ "add" ∧ R.before.store.matching R.kind.table R.addressed ≠ []

/-- The condition under which the revert restores the rows. -/
def Undone : Prop :=
  (¬ R.Shown ∧ R.before.store.RemovalUndoes R.kind.table R.addressed R.deed) ∨
  (R.Shown ∧ R.before.store.WritingUndoes R.kind.table R.addressed R.back R.deed)

end RecordRevert

section Deeds

variable {k : StoredKind} {operation : String} {payload : Dict} {R : RowStore String String Fields}

theorem holds_removal {γ : String} {q : Fields → Bool} : R.Holds γ (R.removal γ q) := by
  intro r hr
  rcases RowStore.removal_cases R γ q with ⟨r', hone, hrem⟩ | ⟨-, hrem⟩
  · rw [hrem] at hr
    obtain rfl := Option.some.inj hr
    obtain ⟨hmem, ht, -⟩ := RowStore.mem_of_matching hone
    exact ⟨hmem, ht⟩
  · rw [hrem] at hr
    cases hr

theorem holds_placing {way : Way} {γ : String} {q : Fields → Bool} {w : Rewrite Fields} :
    R.Holds γ (R.placing way γ q w) ∧ ∀ r, R.placing way γ q w ≠ .removed r := by
  rcases RowStore.placing_cases R way γ q w with ⟨-, hw⟩ | ⟨r', hone, hw⟩ | ⟨-, hw⟩
  · rw [hw]
    split <;> exact ⟨nofun, nofun⟩
  · obtain ⟨hmem, ht, -⟩ := RowStore.mem_of_matching hone
    rw [hw]
    split
    · exact ⟨nofun, nofun⟩
    · exact ⟨RowStore.holds_wrote hmem ht, nofun⟩
  · rw [hw]
    exact ⟨nofun, nofun⟩

theorem holds_deed (A : Appliance) (k : StoredKind) (payload : Dict)
    (R : RowStore String String Fields) (hop : operation ≠ "delete") :
    R.Holds k.table (k.deed A operation payload R) ∧
      ∀ r, k.deed A operation payload R ≠ .removed r := by
  unfold StoredKind.deed
  dsimp only
  rw [if_neg hop]
  split
  · exact ⟨nofun, nofun⟩
  · split
    · exact holds_placing
    · split
      · exact ⟨nofun, nofun⟩
      · exact holds_placing

theorem way_update (h : k.way operation = .update) : k = .firewallAlias ∧ operation ≠ "add" := by
  unfold StoredKind.way at h
  split at h
  · rename_i hk
    split at h
    · cases h
    · exact ⟨hk, ‹_›⟩
  · cases h

theorem way_insert (h : k.way operation = .insert) : k = .firewallAlias ∧ operation = "add" := by
  unfold StoredKind.way at h
  split at h
  · rename_i hk
    split at h
    · exact ⟨hk, ‹_›⟩
    · cases h
  · cases h

theorem deed_of_falsy (hop : operation ≠ "add") (hid : (k.record.key payload).truthy = false) :
    k.deed A operation payload R = .nothing := by
  by_cases hdel : operation = "delete"
  · rw [hdel, deed_delete]
    have hfalsy : (k.record.identity payload).1.truthy = false := hid
    refine removal_of_length ?_
    rw [matching_of_falsy k hfalsy]
    simp
  · have hway : k.way operation ≠ .insert := by
      unfold StoredKind.way
      rw [if_neg hop]
      split <;> nofun
    have hid' : (k.record.identity payload).1.truthy = false := hid
    unfold StoredKind.deed
    dsimp only
    rw [if_neg hdel]
    split
    · rfl
    · rw [if_neg hway, hid']
      rfl

theorem deed_set (hid : (k.record.key payload).truthy = true) :
    k.deed A "set" payload R = ((k.item A payload).map (A.rewrite k.table)).elim .nothing
      (R.placing (k.way "set") k.table (k.finds (k.record.identity payload))) := by
  have hway : k.way "set" ≠ .insert := by cases k <;> decide
  have hid' : (k.record.identity payload).1.truthy = true := hid
  unfold StoredKind.deed
  dsimp only
  rw [if_neg (by decide)]
  cases k.item A payload with
  | none => rfl
  | some item =>
    dsimp only
    rw [if_neg hway, hid']
    rfl

end Deeds

/-! ### Keys -/

section Keys

variable {k : StoredKind} {change : Change} {s interface : String} {key : Json} {φ : Fields}

theorem targetKey_of_rawKey (h : k.rawKey change = .str s) :
    k.record.targetKey change = .str s := by
  unfold StoredKind.rawKey targetOr at h
  unfold RecordKind.targetKey
  split at h
  · rename_i ht
    rw [if_pos ht]
    cases k with
    | firewallAlias => exact h
    | firewallRule => exact congrArg Json.str (congrArg Json.pyStr h)
    | monitTest => exact congrArg Json.str (congrArg Json.pyStr h)
    | idsPolicy => exact congrArg Json.str (congrArg Json.pyStr h)
  · rename_i ht
    rw [if_neg ht]
    exact h

theorem finds_iff_seen (hs : s ≠ "") :
    k.finds (.str s, k.record.scope change.payload) φ =
      k.seen (.str s) (ruleInterface change.payload) φ := by
  have hid : (Json.str s).truthy = true := by simpa using hs
  have hget : ∀ t, φ.lookup t = some s ↔ (φ.lookup t).getD "" = s := by
    intro t
    cases φ.lookup t with
    | none => simp [Ne.symm hs]
    | some v => simp
  rw [finds_iff hid]
  cases k with
  | firewallAlias => simp [StoredKind.seen, StoredKind.column]
  | firewallRule => simp [StoredKind.seen, StoredKind.column, StoredKind.record, RecordKind.scope, hget]
  | monitTest => simp [StoredKind.seen, StoredKind.column, hget]
  | idsPolicy => simp [StoredKind.seen, StoredKind.column, hget]

end Keys

/-! ### The revert -/

namespace RecordRevert

variable {env : Env} (R : RecordRevert A env)

theorem row_same : R.row.kind = R.change.kind ∧ R.row.operation = R.change.operation ∧
    R.row.target = R.change.target ∧ R.row.payload = R.change.payload := by
  have hrecorded : ∀ z, Opngms.recorded R.change R.now z = .ok R.row →
      R.row.kind = R.change.kind ∧ R.row.operation = R.change.operation ∧
        R.row.target = R.change.target ∧ R.row.payload = R.change.payload := by
    intro z hz
    cases z with
    | ok result =>
      rw [← Except.ok.inj hz]
      exact ⟨rfl, rfl, rfl, rfl⟩
    | error e =>
      rw [Opngms.recorded] at hz
      cases he : applyFailure e with
      | none =>
        rw [he] at hz
        cases hz
      | some result =>
        rw [he] at hz
        rw [← Except.ok.inj hz]
        exact ⟨rfl, rfl, rfl, rfl⟩
  have happlied := R.applied
  cases hc : R.course with
  | unread =>
    rw [hc] at happlied
    rw [happlied.2]
    exact ⟨rfl, rfl, rfl, rfl⟩
  | dryRun =>
    rw [hc] at happlied
    obtain ⟨z, n, -, hz⟩ := happlied
    exact hrecorded z hz
  | live m =>
    rw [hc] at happlied
    obtain ⟨z, n, -, hz⟩ := happlied
    exact hrecorded z hz

theorem after_store : R.after.store = R.before.store.after A.uuids R.kind.table R.deed := by
  have happlied := R.applied
  unfold deed
  cases hc : R.course with
  | unread =>
    rw [hc] at happlied
    rw [happlied.1]
    rfl
  | dryRun =>
    -- a dry run sends no request
    rw [hc] at happlied
    obtain ⟨z, n, hplay, -⟩ := happlied
    obtain ⟨e, he⟩ := applyForKind_dry R.change.kind R.change.operation R.change.payload
    rw [he, play_ofExcept] at hplay
    rw [show R.after = R.before from congrArg (fun x => x.2.1) (Option.some.inj hplay).symm]
    rfl
  | live m =>
    rw [hc] at happlied
    obtain ⟨z, n, hplay, -⟩ := happlied
    obtain ⟨z', S', n', hplay', hstore⟩ := leaves_record (m := m) (S := R.before) R.kind R.accepted
      (R.readsFail m hc)
    rw [← R.ofKind, hplay] at hplay'
    rw [show R.after = S' from congrArg (fun x => x.2.1) (Option.some.inj hplay'), hstore]
    dsimp only
    split <;> rfl

theorem deed_holds : R.before.store.Holds R.kind.table R.deed ∧
    (R.change.operation ≠ "delete" → ∀ r, R.deed ≠ .removed r) ∧
    (R.change.operation = "delete" → ∀ r f, R.deed ≠ .wrote r f) := by
  have hnothing : R.before.store.Holds R.kind.table .nothing := nofun
  unfold deed
  split
  · split
    · by_cases hop : R.change.operation = "delete"
      · rw [hop, deed_delete]
        refine ⟨holds_removal, fun h => absurd rfl h, fun _ r f h => ?_⟩
        rcases RowStore.removal_cases R.before.store R.kind.table
          (R.kind.finds (R.kind.record.identity R.change.payload)) with ⟨r', -, hrem⟩ | ⟨-, hrem⟩
        · rw [hrem] at h
          cases h
        · rw [hrem] at h
          cases h
      · obtain ⟨hholds, hne⟩ := holds_deed A R.kind R.change.payload R.before.store hop
        exact ⟨hholds, fun _ => hne, fun h => absurd h hop⟩
    · exact ⟨hnothing, fun _ => nofun, fun _ => nofun⟩
  · exact ⟨hnothing, fun _ => nofun, fun _ => nofun⟩

theorem final_store (hop : ["add", "set", "delete"].contains R.operation = true) :
    R.final.store = R.after.store.after A.uuids R.kind.table
      (R.kind.deed A R.operation R.inverse R.after.store) := by
  have hleaves : Leaves none (applyForKind R.kind.record.text R.operation R.inverse false) R.after 0 _ :=
    leaves_record R.kind hop nofun
  obtain ⟨z, S', n', hplay, hstore⟩ := hleaves
  rw [← R.ofKind, R.reverted] at hplay
  rw [show R.final = S' from congrArg (fun x => x.2.1) (Option.some.inj hplay), hstore]
  rfl

theorem row_key : R.kind.rawKey R.row = R.kind.rawKey R.change ∧
    R.kind.record.targetKey R.row = R.kind.record.targetKey R.change := by
  obtain ⟨-, -, ht, hp⟩ := R.row_same
  unfold StoredKind.rawKey RecordKind.targetKey targetOr
  rw [ht, hp]
  exact ⟨rfl, rfl⟩

theorem saved_row (φ : Fields) : R.kind.saved R.root R.row φ = R.kind.saved R.root R.change φ := by
  unfold StoredKind.saved
  rw [R.row_key.1]

theorem saved_root (xml : String) (root : Elem) (hxml : R.snapshotXml = some xml)
    (hroot : env.parseXml xml = some root) : root = R.root := by
  have hsaves := R.snapshot
  unfold Course.Saves at hsaves
  split at hsaves
  · obtain ⟨xml', hx', hr'⟩ := hsaves
    obtain rfl := Option.some.inj (hxml.symm.trans hx')
    exact Option.some.inj (hroot.symm.trans hr')
  · rw [hsaves] at hxml
    cases hxml

theorem inverse_identity : R.kind.record.identity R.inverse =
    (R.kind.record.targetKey R.change, R.kind.record.scope R.change.payload) := by
  obtain ⟨hk, -, -, hp⟩ := R.row_same
  have hshows := R.documents
  have hdoc : SnapshotOk env R.snapshotXml := by
    intro xml root hxml hroot
    rw [R.saved_root xml root hxml hroot]
    exact ⟨fun el hel ht => hshows.once .firewallAlias el (List.mem_filter.mpr ⟨hel, by simp [ht]⟩),
      hshows.once .firewallRule, hshows.interface_once, hshows.once .monitTest⟩
  rw [buildInverse_identity R.kind.record (hk.trans R.ofKind) hdoc R.inverted, R.row_key.2, hp]

theorem inverse_addresses :
    R.kind.finds (R.kind.record.identity R.inverse) = R.addressed := by
  rw [R.inverse_identity]
  rfl

theorem inverse_shape : Json.str R.target = R.kind.rawKey R.row ∧
    (Deletes R.before R.kind R.row R.operation ∨
      Rewrites R.before R.root R.kind R.row R.operation R.inverse) :=
  inverse_cases (R.row_same.1.trans R.ofKind) R.documents R.saved_root R.inverted

theorem key_text : R.kind.rawKey R.change = .str R.target :=
  R.row_key.1.symm.trans R.inverse_shape.1.symm

theorem targetKey_text : R.kind.record.targetKey R.change = .str R.target :=
  targetKey_of_rawKey R.key_text

theorem inverse_key : R.kind.record.key R.inverse = .str R.target :=
  (congrArg Prod.fst R.inverse_identity).trans R.targetKey_text

theorem matching_of_empty (h : R.target = "") :
    R.before.store.matching R.kind.table R.addressed = [] := by
  refine matching_of_falsy R.kind ?_ R.before.store
  show (R.kind.record.targetKey R.change).truthy = false
  rw [R.targetKey_text, h]
  rfl

theorem addressed_eq_seen (h : R.target ≠ "") (φ : Fields) :
    R.addressed φ = R.kind.seen (.str R.target) (ruleInterface R.change.payload) φ := by
  rw [addressed, R.targetKey_text]
  exact finds_iff_seen h

theorem restores_of_deletes (h : Deletes R.before R.kind R.row R.operation) :
    R.before.store.Restores R.final.store ↔ R.Undone := by
  obtain ⟨-, hop, -, hp⟩ := R.row_same
  obtain ⟨hdelete, hwhy⟩ := h
  have hfinal := R.final_store (by rw [hdelete]; rfl)
  rw [hdelete, deed_delete, R.inverse_addresses, R.after_store] at hfinal
  -- an inverse that deletes had no row to write back, or did not look for one
  have hnot : ¬ R.Shown := by
    rintro ⟨hadd, hsome⟩
    rcases hwhy with h | hall
    · exact hadd (hop ▸ h)
    · obtain ⟨p, hp'⟩ := List.exists_mem_of_ne_nil _ hsome
      obtain ⟨hmem, ht, hq⟩ := RowStore.mem_matching.mp hp'
      have hne : R.target ≠ "" := fun h => hsome (R.matching_of_empty h)
      have hseen := hall p hmem ht
      rw [R.row_key.1, R.key_text, hp, ← R.addressed_eq_seen hne, hq] at hseen
      cases hseen
  rw [hfinal, RowStore.restores_removal R.deed_holds.1, Undone]
  exact ⟨fun h => .inl ⟨hnot, h⟩, fun h => (h.resolve_right fun h => hnot h.1).2⟩

theorem fill_row {p : Row String String Fields} (hp : p ∈ R.before.store.rows)
    (ht : p.table = R.kind.table) :
    A.fill (A.columns R.kind.table) (strDict p.fields) = p.fields ∧
      A.fill p.fields (strDict p.fields) = p.fields := by
  have hkeys := R.before.fits p hp
  have hnodup : (p.fields.map (·.1)).Nodup := by
    rw [hkeys]
    exact A.columns_nodup p.table
  rw [← ht]
  exact ⟨A.fill_strDict hkeys.symm hnodup, A.fill_strDict rfl hnodup⟩

theorem normalize_strDict (φ : Fields) : normalizeAliasPayload (strDict φ) = strDict φ := by
  rw [normalizeAliasPayload, get?_strDict]
  cases φ.lookup "content" <;> rfl

theorem back_alias (hk : R.kind = .firewallAlias) (φ : Fields) :
    R.back φ = some (A.rewrite R.kind.table (strDict φ)) := by
  rw [back, hk]
  exact congrArg (fun item => some (A.rewrite "alias" item)) (normalize_strDict φ)

theorem deed_readded {p : Row String String Fields} (hp : p ∈ R.before.store.rows)
    (ht : p.table = R.kind.table) (hk : R.kind = .firewallAlias)
    (hsaved : R.kind.saved R.root R.change p.fields = some R.inverse)
    (T : RowStore String String Fields) :
    R.kind.deed A "add" R.inverse T = T.placing .insert R.kind.table
      (fun φ => φ.lookup "name" == p.fields.lookup "name")
      (A.rewrite R.kind.table (strDict p.fields)) := by
  have hfill := (R.fill_row hp ht).1
  rw [hk] at hsaved hfill ⊢
  have hinverse : strDict p.fields = R.inverse := Option.some.inj hsaved
  have hcolumns : A.fill (A.columns "alias") (strDict p.fields) = p.fields := hfill
  rw [← hinverse, deed_aliasAdd, normalize_strDict, hcolumns]
  rfl

theorem deed_of_empty (hadd : R.change.operation ≠ "add") (hempty : R.target = "") :
    R.deed = .nothing := by
  have hfalsy : (R.kind.record.key R.change.payload).truthy = false := by
    have hkey := R.targetKey_text
    rw [hempty] at hkey
    unfold RecordKind.targetKey at hkey
    split at hkey
    · rw [hkey]
      rfl
    · rename_i hne
      exact absurd (Json.str.inj hkey) hne
  unfold deed
  split
  · rw [deed_of_falsy hadd hfalsy, ite_self]
  · rfl

theorem inverse_of_empty {p : Row String String Fields} (hp : p ∈ R.before.store.rows)
    (ht : p.table = R.kind.table) (hempty : R.target = "")
    (hop : R.operation = if R.kind = .firewallAlias ∧ R.change.operation = "delete" then "add" else "set")
    (hsaved : R.kind.saved R.root R.change p.fields = some R.inverse) :
    R.kind.deed A R.operation R.inverse R.before.store = .nothing := by
  by_cases halias : R.kind = .firewallAlias ∧ R.change.operation = "delete"
  · rw [hop, if_pos halias, R.deed_readded hp ht halias.1 hsaved]
    exact RowStore.placing_insert (RowStore.mem_matching.mpr ⟨hp, ht, beq_self_eq_true _⟩)
  · rw [hop, if_neg halias]
    refine deed_of_falsy (by decide) ?_
    rw [R.inverse_key, hempty]
    rfl

theorem addressed_alias {φ₀ : Fields} (hk : R.kind = .firewallAlias) (hs : R.target ≠ "")
    (hname : R.addressed φ₀ = true) (φ : Fields) :
    R.addressed φ = (φ.lookup "name" == φ₀.lookup "name") := by
  have hlookup : ∀ φ, R.addressed φ = decide (φ.lookup "name" = some R.target) := by
    intro φ
    rw [R.addressed_eq_seen hs, hk]
    show decide (_ = some (Json.str R.target)) = _
    cases φ.lookup "name" <;> simp
  rw [hlookup] at hname
  rw [hlookup, of_decide_eq_true hname]
  exact (beq_eq_decide _ _).symm

theorem deed_back {p : Row String String Fields} (hp : p ∈ R.before.store.rows)
    (ht : p.table = R.kind.table) (hs : R.target ≠ "")
    (hop : R.operation = if R.kind = .firewallAlias ∧ R.change.operation = "delete" then "add" else "set")
    (hname : R.addressed p.fields = true)
    (hsaved : R.kind.saved R.root R.change p.fields = some R.inverse)
    (T : RowStore String String Fields) :
    R.kind.deed A R.operation R.inverse T = (R.back p.fields).elim .nothing
      (T.placing (R.kind.way R.operation) R.kind.table R.addressed) := by
  by_cases halias : R.kind = .firewallAlias ∧ R.change.operation = "delete"
  · have hk := halias.1
    have hway : R.kind.way "add" = .insert := by
      rw [hk]
      rfl
    have hfind : (fun φ : Fields => φ.lookup "name" == p.fields.lookup "name") = R.addressed :=
      funext fun φ => (R.addressed_alias hk hs hname φ).symm
    rw [hop, if_pos halias, R.deed_readded hp ht hk hsaved, R.back_alias hk, Option.elim_some,
      hway, hfind]
  · have hback : R.back p.fields = (R.kind.item A R.inverse).map (A.rewrite R.kind.table) := by
      rw [back, hsaved]
      rfl
    have hid : (R.kind.record.key R.inverse).truthy = true := by
      rw [R.inverse_key]
      simpa using hs
    rw [hop, if_neg halias, deed_set hid, hback, R.inverse_addresses]

theorem restores_of_rewrites (h : Rewrites R.before R.root R.kind R.row R.operation R.inverse) :
    R.before.store.Restores R.final.store ↔ R.Undone := by
  obtain ⟨-, hoperation, -, hpayload⟩ := R.row_same
  obtain ⟨hadd, hop, p, hp, ht, hseen, hsaved⟩ := h
  rw [hoperation] at hadd hop
  rw [R.row_key.1, R.key_text, hpayload] at hseen
  rw [R.saved_row] at hsaved
  have hfinal := R.final_store (by rw [hop]; split <;> rfl)
  rw [R.after_store] at hfinal
  by_cases hs : R.target = ""
  · -- the document may show a row without a name, which no search finds
    have hnone := R.matching_of_empty hs
    rw [R.deed_of_empty hadd hs, RowStore.after_nothing, R.inverse_of_empty hp ht hs hop hsaved,
      RowStore.after_nothing] at hfinal
    rw [hfinal, Undone, R.deed_of_empty hadd hs]
    refine iff_of_true (.refl _) (.inl ⟨fun h => h.2 hnone, .inl ⟨trivial, ?_⟩⟩)
    rw [hnone]
    exact Nat.zero_ne_one
  · have hname : R.addressed p.fields = true := (R.addressed_eq_seen hs p.fields).trans hseen
    have hfound := RowStore.mem_matching.mpr ⟨hp, ht, hname⟩
    have hshown : R.Shown := ⟨hadd, List.ne_nil_of_mem hfound⟩
    obtain ⟨hholds, hkeeps, hdrops⟩ := R.deed_holds
    rw [R.deed_back hp ht hs hop hname hsaved] at hfinal
    rw [hfinal, RowStore.restores_placing hfound hholds, Undone]
    · exact ⟨fun h => .inr ⟨hshown, h⟩, fun h => (h.resolve_left fun h => h.1 hshown).2⟩
    · -- a `set` of an alias is inverted to a `set`, and removed no row
      intro hway
      refine hkeeps fun hdelete => ?_
      obtain ⟨hk, hne⟩ := way_update hway
      rw [if_pos ⟨hk, hdelete⟩] at hop
      exact hne hop
    · -- a `delete` of an alias is inverted to an `add`, and wrote no row
      intro hway
      obtain ⟨hk, hadded⟩ := way_insert hway
      have hdelete : R.change.operation = "delete" := by
        by_contra hne
        rw [if_neg fun h => hne h.2, hadded] at hop
        exact absurd hop (by decide)
      refine ⟨hdrops hdelete, fun w hw => ?_⟩
      rw [R.back_alias hk] at hw
      obtain rfl := Option.some.inj hw
      exact (R.fill_row hp ht).2

end RecordRevert

/-- **The revert of a change of a record restores the rows if and only if the
condition holds.** -/
theorem record_restored_iff {env : Env} (R : RecordRevert A env) :
    R.before.store.Restores R.final.store ↔ R.Undone := by
  rcases R.inverse_shape.2 with h | h
  · exact R.restores_of_deletes h
  · exact R.restores_of_rewrites h

/-! ### An addition of a test that is there -/

def monitBox : Appliance :=
  { jailBox with
    columns := fun _ => [("name", ""), ("condition", "")]
    columns_nodup := fun _ => by decide }

def diskTest (condition : String) : Fields := [("name", "disk"), ("condition", condition)]

/-- A box with the test. -/
def diskBox (condition : String) : Configuration monitBox where
  scalars _ := ""
  store := ⟨[⟨"a", "test", diskTest condition⟩], ["a"], by simp, by simp⟩
  fits r hr := by
    obtain rfl := List.mem_singleton.mp hr
    rfl
  safe r hr := by
    rw [List.mem_singleton.mp hr]
    show safeName "a" = true
    decide

def diskRoot : Elem := .mk "opnsense" [] "" [.mk "OPNsense" [] "" [.mk "monit" [] "" [.mk "test" [] ""
  [.mk "name" [] "disk" [], .mk "condition" [] "usage 80%" []]]]]

def diskXml : String :=
  "<opnsense><OPNsense><monit><test><name>disk</name><condition>usage 80%</condition></test>" ++
    "</monit></OPNsense></opnsense>"

def diskEnv : Env := Env.ofDocuments [(diskXml, diskRoot)] []

/-- The test is proposed with another condition. -/
def diskChange : Change where
  id := 1
  tenantId := 0
  deviceId := 1
  kind := "monit_test"
  operation := "add"
  target := "disk"
  payload := strDict (diskTest "usage 90%")
  baselineHash := ""
  status := .applying
  sweepAttempts := 0
  revertsChangeId := none
  scheduledAt := none
  appliedAt := none
  result := .null
  preApplySnapshotId := some 1
  createdAt := 0

def noTests : Configuration monitBox where
  scalars _ := ""
  store := ⟨[], ["a"], by simp, by simp⟩
  fits := nofun
  safe := nofun

theorem elements_diskRoot (k : StoredKind) : k.elements diskRoot =
    if k = .monitTest then [.mk "test" [] "" [.mk "name" [] "disk" [],
      .mk "condition" [] "usage 80%" []]] else [] := by
  cases k <;> rfl

theorem diskRoot_shows : ShowsRecords diskRoot (diskBox "usage 80%") where
  once k el hel := by
    rw [elements_diskRoot] at hel
    split at hel
    · rename_i hk
      obtain rfl := List.mem_singleton.mp hel
      rw [hk]
      exact Nat.le_refl 1
    · cases hel
  interface_once el hel := by
    rw [show diskRoot.iterfind fwRulePath = [] from elements_diskRoot .firewallRule] at hel
    cases hel
  records k := by
    rw [elements_diskRoot]
    cases k <;> decide +kernel

/-- The change writes over the test that is there; the inverse of an addition
deletes it. -/
def lostTest : RecordRevert monitBox diskEnv where
  kind := .monitTest
  change := diskChange
  ofKind := rfl
  accepted := rfl
  before := diskBox "usage 80%"
  root := diskRoot
  documents := diskRoot_shows
  course := .live none
  readsFail m hm i _ h hat := by
    obtain rfl := Course.live.inj hm
    cases hat
  after := diskBox "usage 90%"
  now := 0
  row := { diskChange with
    status := .applied
    appliedAt := some 0
    result := .obj [("dry_run", .bool false), ("operation", .str "set"), ("attached", .bool false),
      ("result", saved)] }
  applied := ⟨_, 3, rfl, rfl⟩
  snapshotXml := some diskXml
  snapshot := ⟨_, rfl, rfl⟩
  operation := "delete"
  target := "disk"
  inverse := [("name", .str "disk")]
  inverted := rfl
  result := .ok (.obj [("dry_run", .bool false), ("operation", .str "delete"), ("result", .obj [("result", .str "deleted")])])
  final := noTests
  sentBack := 3
  reverted := rfl

theorem lostTest_not_restored : ¬ lostTest.before.store.Restores lostTest.final.store := by
  intro h
  have hlen := h.length_eq
  cases hlen

/-- Where the change is a `set`, the inverse writes the saved condition back. -/
def keptTest : RecordRevert monitBox diskEnv :=
  { lostTest with
    change := { diskChange with operation := "set" }
    ofKind := rfl
    accepted := rfl
    readsFail := lostTest.readsFail
    row := { lostTest.row with operation := "set" }
    applied := ⟨_, 3, rfl, rfl⟩
    operation := "set"
    inverse := strDict (diskTest "usage 80%")
    inverted := rfl
    result := .ok (.obj [("dry_run", .bool false), ("operation", .str "set"),
      ("attached", .bool false), ("result", saved)])
    final := diskBox "usage 80%"
    reverted := rfl }

example : keptTest.before.store.Restores keptTest.final.store := ⟨fun _ h _ => h, .refl _⟩

end Opngms
