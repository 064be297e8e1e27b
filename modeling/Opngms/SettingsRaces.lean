/-
Opngms/SettingsRaces.lean

Two patches of one JSON column at a time (`update_runtime_config` of
services/runtime_settings.py, `TenantRetentionRepository.upsert`).

Both read the stored overrides, merge the patch into what they read, and write the
whole column back.  Nothing is locked in between, and the `UPDATE` names no version, so
a request that commits after another one has read takes the other's change with it
(`concurrent_settings_lost`).  Where each request still
finds stored, when it commits, what it has read, all changes are kept
(**`settings_kept`**).

The session holds its objects weakly, so `update_runtime_config` reads the row again
before it assigns to it; an assignment of an equal value is no `UPDATE`.
-/
import Opngms.RetentionImpacts
import Opngms.Transactions

namespace Opngms

namespace SettingsRaces

open Dict (agree agree_refl agree_of_same get?_eq_none sameDict)
open Transactions

/-! ### Overrides -/

abbrev Changes := List (String × Option Json)

/-- The changes are in the overrides. -/
def reflects (overrides : Dict) (changes : Changes) : Bool :=
  changes.all fun c => agree (overrides.get? c.1) c.2

/-- A patch: its keys are distinct. -/
structure Patch where
  values : Dict
  nodup : values.keys.Nodup

theorem reflects_iff {overrides : Dict} {changes : Changes} :
    reflects overrides changes = true ↔
      ∀ c ∈ changes, agree (overrides.get? c.1) c.2 = true := by
  unfold reflects
  rw [List.all_eq_true]

/-! ### The merges -/

/-- A merge makes its changes, to known keys, and leaves the other known keys alone. -/
structure Merging (known : String → Prop) (merge : Dict → Option Dict) (changes : Changes) :
    Prop where
  own : ∀ base out, merge base = some out → ∀ c ∈ changes, known c.1 ∧ out.get? c.1 = c.2
  frame : ∀ base out, merge base = some out → ∀ k, known k → k ∉ changes.map (·.1) →
    out.get? k = base.get? k

/-- What `update_runtime_config` makes of the keys of a patch. -/
def runtimeChanges (reg : Registry) (patch : Patch) : Changes :=
  patch.values.map fun kv => (kv.1, (reg.byKey kv.1).bind fun r => r.coerce kv.2)

theorem get?_filter_known {p : String → Bool} {d : Dict} {k : String} (h : p k = true) :
    Dict.get? (d.filter fun kv => p kv.1) k = d.get? k := by
  induction d with
  | nil => rfl
  | cons kv d ih =>
    obtain ⟨k', v⟩ := kv
    rw [List.filter_cons]
    split
    · rw [Dict.get?_cons, Dict.get?_cons, ih]
    · rename_i hp
      rw [Dict.get?_cons, if_neg, ih]
      rintro rfl
      exact hp h

theorem foldlM_update (reg : Registry) (values : Dict) (hnodup : values.keys.Nodup)
    (base out : Dict)
    (h : values.foldlM (fun (out : Dict) (kv : String × Json) => do
      let r ← reg.byKey kv.1
      let v ← r.coerce kv.2
      return Dict.set out kv.1 v) base = some out) :
    (∀ kv ∈ values, (reg.byKey kv.1).isSome ∧
      out.get? kv.1 = (reg.byKey kv.1).bind fun r => r.coerce kv.2) ∧
    ∀ k, k ∉ values.keys → out.get? k = base.get? k := by
  induction values generalizing base with
  | nil =>
    cases h
    exact ⟨nofun, fun _ _ => rfl⟩
  | cons kv values ih =>
    obtain ⟨hnot, hnodup⟩ := List.nodup_cons.mp hnodup
    rw [List.foldlM_cons] at h
    obtain ⟨mid, hmid, h⟩ := Option.bind_eq_some_iff.mp h
    obtain ⟨r, hr, hmid⟩ := Option.bind_eq_some_iff.mp hmid
    obtain ⟨v, hv, hmid⟩ := Option.bind_eq_some_iff.mp hmid
    cases hmid
    obtain ⟨hin, hout⟩ := ih hnodup _ h
    constructor
    · intro kv' hkv'
      rcases List.mem_cons.mp hkv' with rfl | hkv'
      · refine ⟨by rw [hr]; rfl, ?_⟩
        rw [hout _ hnot, Dict.get?_set, if_pos rfl, hr, Option.bind_some, hv]
      · exact hin kv' hkv'
    · intro k hk
      rw [Dict.keys, List.map_cons, List.mem_cons, not_or] at hk
      rw [hout k hk.2, Dict.get?_set, if_neg (Ne.symm hk.1)]

theorem merging_runtime (reg : Registry) (patch : Patch) :
    Merging (fun k => (reg.byKey k).isSome) (fun base => reg.update base patch.values)
      (runtimeChanges reg patch) := by
  have hkeys : (runtimeChanges reg patch).map (·.1) = patch.values.keys := by
    simp [runtimeChanges, Dict.keys]
  -- the last step drops the keys that are not in the registry
  have hupdate : ∀ base out, reg.update base patch.values = some out →
      (∀ kv ∈ patch.values, (reg.byKey kv.1).isSome ∧
        out.get? kv.1 = (reg.byKey kv.1).bind fun r => r.coerce kv.2) ∧
      ∀ k, (reg.byKey k).isSome → k ∉ patch.values.keys → out.get? k = base.get? k := by
    intro base out h
    unfold Registry.update at h
    split at h
    · cases h
    · obtain ⟨merged, hmerged, rfl⟩ := Option.map_eq_some_iff.mp h
      obtain ⟨hin, hout⟩ := foldlM_update reg _ patch.nodup base merged hmerged
      constructor
      · intro kv hkv
        obtain ⟨hknown, hget⟩ := hin kv hkv
        exact ⟨hknown, by rw [get?_filter_known (p := fun k => (reg.byKey k).isSome) hknown, hget]⟩
      · intro k hknown hk
        rw [get?_filter_known (p := fun k => (reg.byKey k).isSome) hknown, hout k hk]
  constructor
  · intro base out h c hc
    obtain ⟨kv, hkv, rfl⟩ := List.mem_map.mp hc
    exact (hupdate base out h).1 kv hkv
  · intro base out h k hknown hk
    rw [hkeys] at hk
    exact (hupdate base out h).2 k hknown hk

/-- The merge of `TenantRetentionRepository.upsert`: a key set to None is removed. -/
def mergeOverrides (overrides : Dict) (patch : Patch) : Dict :=
  patch.values.foldl
    (fun merged kv => if kv.2 = .null then merged.pop kv.1 else merged.set kv.1 kv.2) overrides

/-- What `upsert` makes of the keys of a patch. -/
def retentionChanges (patch : Patch) : Changes :=
  patch.values.map fun kv => (kv.1, if kv.2 = .null then none else some kv.2)

theorem get?_mergeOverrides (values : Dict) (hnodup : values.keys.Nodup) (base : Dict) :
    (∀ kv ∈ values, Dict.get? (values.foldl (fun merged kv =>
        if kv.2 = .null then Dict.pop merged kv.1 else Dict.set merged kv.1 kv.2) base) kv.1 =
      if kv.2 = .null then none else some kv.2) ∧
    ∀ k, k ∉ values.keys → Dict.get? (values.foldl (fun merged kv =>
      if kv.2 = .null then Dict.pop merged kv.1 else Dict.set merged kv.1 kv.2) base) k =
        base.get? k := by
  induction values generalizing base with
  | nil => exact ⟨nofun, fun _ _ => rfl⟩
  | cons kv values ih =>
    obtain ⟨hnot, hnodup⟩ := List.nodup_cons.mp hnodup
    rw [List.foldl_cons]
    obtain ⟨hin, hout⟩ := ih hnodup
      (if kv.2 = .null then Dict.pop base kv.1 else Dict.set base kv.1 kv.2)
    constructor
    · intro kv' hkv'
      rcases List.mem_cons.mp hkv' with rfl | hkv'
      · rw [hout _ hnot]
        split
        · rw [Dict.get?_pop, if_pos rfl]
        · rw [Dict.get?_set, if_pos rfl]
      · exact hin kv' hkv'
    · intro k hk
      rw [Dict.keys, List.map_cons, List.mem_cons, not_or] at hk
      rw [hout k hk.2]
      split
      · rw [Dict.get?_pop, if_neg (Ne.symm hk.1)]
      · rw [Dict.get?_set, if_neg (Ne.symm hk.1)]

theorem merging_retention (patch : Patch) :
    Merging (fun _ => True) (fun base => some (mergeOverrides base patch))
      (retentionChanges patch) := by
  constructor
  · intro base out h c hc
    cases h
    obtain ⟨kv, hkv, rfl⟩ := List.mem_map.mp hc
    exact ⟨trivial, (get?_mergeOverrides _ patch.nodup base).1 kv hkv⟩
  · intro base out h k _ hk
    cases h
    apply (get?_mergeOverrides _ patch.nodup base).2 k
    simpa [retentionChanges, Dict.keys] using hk

/-! ### The requests -/

/-- The row: `app_settings` under `runtime_config`, or `tenant_retention` of the tenant. -/
inductive Row where
  | overrides
  deriving DecidableEq

instance : Serial Row := ⟨fun _ => 0⟩

/-- What a request has read: for its merge, and when it assigns to the row. -/
structure Note where
  request : Nat
  read : Option Dict
  seen : Option Dict

/-- How a request fails: its patch is refused, or the row came to be or went meanwhile. -/
inductive Failure where
  | valueError
  | integrityError
  | staleDataError

abbrev Store := Db Row (fun _ => Dict) Note

abbrev Req (α : Type) := Sql Row (fun _ => Dict) Note Failure α

/-- Assign the column: an `INSERT` where no row was found, an `UPDATE` where the value is
another one. -/
def assign (row : Option Dict) (overrides : Dict) : Req Unit :=
  match row with
  | none => do
    let added ← Sql.insert .overrides overrides
    if added then pure () else throw .integrityError
  | some value =>
    if sameDict value overrides then pure ()
    else do
      let found ← Sql.update .overrides fun _ => overrides
      if found.isSome then pure () else throw .staleDataError

/-- `update_runtime_config`, up to the commit of its request. -/
def updateRuntimeConfig (reg : Registry) (request : Nat) (patch : Patch) : Req Unit := do
  let base ← Sql.select .overrides
  match reg.update (base.getD []) patch.values with
  | none => throw .valueError
  | some overrides => do
    let row ← Sql.select .overrides
    assign row overrides
    Sql.note ⟨request, base, row⟩
    Sql.commit

/-- `TenantRetentionRepository.upsert`, up to the commit of its request. -/
def upsert (request : Nat) (patch : Patch) : Req Unit := do
  let row ← Sql.select .overrides
  assign row (mergeOverrides (row.getD []) patch)
  Sql.note ⟨request, row, row⟩
  Sql.commit

/-! ### What they commit -/

section Commits

/-- The requests of a run: how each merges, and what it changes. -/
structure Requests where
  known : String → Prop
  merge : Nat → Dict → Option Dict
  changes : Nat → Changes
  merging : ∀ i, Merging known (merge i) (changes i)
  /-- The patches touch disjoint keys. -/
  disjoint : ∀ i j, i ≠ j → ∀ c ∈ changes i, c.1 ∉ (changes j).map (·.1)

variable (R : Requests)

/-- A request commits its merge of what it read, or leaves a row that is equal to it. -/
def Good (ph : Phase Row (fun _ => Dict) Note) : Prop :=
  ∃ n out, ph.notes = [n] ∧ R.merge n.request (n.read.getD []) = some out ∧
    ((∃ b, ph.held .overrides = some (b, some out)) ∨
      ph.held .overrides = none ∧ ∃ v, n.seen = some v ∧ sameDict v out = true)

/-- What `assign` leaves: the row written, or a row that is equal already. -/
def Assigned (row : Option Dict) (overrides : Dict) (ph : Phase Row (fun _ => Dict) Note) : Prop :=
  ph.notes = [] ∧ ((∃ b, ph.held .overrides = some (b, some overrides)) ∨
    ph.held .overrides = none ∧ ∃ v, row = some v ∧ sameDict v overrides = true)

theorem follows_assign {Good : Phase Row (fun _ => Dict) Note → Prop} (row : Option Dict)
    (overrides : Dict) : (assign row overrides).Follows (transaction (fun _ => True) Good)
      (Dialogue.OnOk fun ph _ => Assigned row overrides ph) .clear := by
  cases row with
  | none =>
    apply Sql.follows_insert trivial
    · trivial
    · exact ⟨rfl, .inl ⟨_, Phase.held_put_self ..⟩⟩
  | some value =>
    unfold assign
    dsimp only
    split
    · rename_i hsame
      exact ⟨rfl, .inr ⟨rfl, value, rfl, hsame⟩⟩
    · apply Sql.follows_modify
      · exact fun _ => trivial
      · intro v w hw _
        cases hw
        exact ⟨rfl, .inl ⟨_, Phase.held_put_self ..⟩⟩

theorem follows_assign_commit {i : Nat} {read row : Option Dict} {overrides : Dict}
    (h : R.merge i (read.getD []) = some overrides) :
    ((assign row overrides).bind fun _ => (Sql.note ⟨i, read, row⟩).bind fun _ =>
      Sql.commit).Follows (transaction (fun _ => True) (Good R)) (fun _ _ => True) .clear := by
  apply (follows_assign row overrides).bind
  · rintro ph _ ⟨hnotes, hrow⟩
    apply Sql.follows_note
    refine Sql.follows_commit ⟨⟨i, read, row⟩, overrides, ?_, h, hrow⟩ trivial
    simp [hnotes]
  · exact fun _ _ _ => trivial

theorem follows_updateRuntimeConfig {reg : Registry} {i : Nat} {patch : Patch}
    (h : R.merge i = fun base => reg.update base patch.values) :
    (updateRuntimeConfig reg i patch).Follows (transaction (fun _ => True) (Good R))
      (fun _ _ => True) .clear := by
  apply Sql.follows_select
  intro base _
  have hmerge : R.merge i (base.getD []) = reg.update (base.getD []) patch.values := by rw [h]
  show Dialogue.Follows _ _ _ (match reg.update (base.getD []) patch.values with
    | none => _
    | some overrides => _)
  cases hupdate : reg.update (base.getD []) patch.values with
  | none => trivial
  | some overrides =>
    apply Sql.follows_select
    intro row _
    exact follows_assign_commit R (hmerge.trans hupdate)

theorem follows_upsert {i : Nat} {patch : Patch}
    (h : R.merge i = fun base => some (mergeOverrides base patch)) :
    (upsert i patch).Follows (transaction (fun _ => True) (Good R)) (fun _ _ => True) .clear := by
  apply Sql.follows_select
  intro row _
  have hmerge : R.merge i (row.getD []) = some (mergeOverrides (row.getD []) patch) := by rw [h]
  exact follows_assign_commit R hmerge

/-- At its commit, a request finds stored what it has read. -/
def ReadCurrent (d : Store) (i : Nat) : Prop :=
  ∀ n ∈ d.notes i, n.read = d.row .overrides ∧ n.seen = d.row .overrides

instance (d : Store) (i : Nat) : Decidable (ReadCurrent d i) :=
  inferInstanceAs (Decidable
    (∀ n ∈ d.notes i, n.read = d.row .overrides ∧ n.seen = d.row .overrides))

/-- The changes of all requests that have committed are stored. -/
def Kept (d : Store) : Prop :=
  ∀ n ∈ d.log, (∀ c ∈ R.changes n.request, R.known c.1) ∧
    reflects ((d.row .overrides).getD []) (R.changes n.request) = true

/-- **A commit of what is merged into the stored overrides keeps the changes of the others.** -/
theorem kept_commit {d : Store} {i : Nat} (h : Kept R d) (hgood : Good R (d.phase i))
    (hcurrent : ReadCurrent d i) : Kept R (d.commit i) := by
  obtain ⟨n, out, hnotes, hmerge, hheld⟩ := hgood
  have hn : n ∈ d.notes i := by
    show n ∈ (d.phase i).notes
    rw [hnotes]
    exact List.mem_singleton_self n
  obtain ⟨hread, hseen⟩ := hcurrent n hn
  have hmerging := R.merging n.request
  have hlog : (d.commit i).log = d.log ++ [n] := by
    show d.log ++ (d.phase i).notes = _
    rw [hnotes]
  -- the row after the commit is, key by key, the merge
  have hown : ∀ c ∈ R.changes n.request,
      agree (((d.commit i).row .overrides).getD [] |>.get? c.1) c.2 = true := by
    intro c hc
    have hout := (hmerging.own _ _ hmerge c hc).2
    rw [Db.row_commit, ← hout]
    rcases hheld with ⟨b, hb⟩ | ⟨hfree, v, hv, hsame⟩
    · rw [hb]
      exact agree_refl _
    · rw [hfree]
      dsimp only
      rw [← hseen, hv]
      exact agree_of_same hsame c.1
  have hrest : ∀ k, R.known k → k ∉ (R.changes n.request).map (·.1) →
      (((d.commit i).row .overrides).getD []).get? k = ((d.row .overrides).getD []).get? k := by
    intro k hknown hk
    rw [Db.row_commit]
    rcases hheld with ⟨b, hb⟩ | ⟨hfree, -⟩
    · rw [hb, ← hread]
      exact hmerging.frame _ _ hmerge k hknown hk
    · rw [hfree]
  intro m hm
  rw [hlog, List.mem_append, List.mem_singleton] at hm
  by_cases hreq : m.request = n.request
  · rw [hreq]
    exact ⟨fun c hc => (hmerging.own _ _ hmerge c hc).1, reflects_iff.mpr hown⟩
  · have hm : m ∈ d.log := hm.resolve_right fun heq => hreq (congrArg Note.request heq)
    obtain ⟨hknown, hreflects⟩ := h m hm
    refine ⟨hknown, reflects_iff.mpr ?_⟩
    intro c hc
    rw [hrest c.1 (hknown c hc) (R.disjoint _ _ hreq c hc)]
    exact reflects_iff.mp hreflects c hc

abbrev Running := Programs Row (fun _ => Dict) Note Failure

theorem run_kept {p p' : Running} (hidle : p.world.Idle) (hlog : p.world.log = [])
    (hfollow : ∀ i t, p.threads i = some t →
      t.Follows (transaction (fun _ => True) (Good R)) (fun _ _ => True) .clear)
    {es : List Event} (hcurrent : Along step (OnCommit ReadCurrent) p es)
    (hrun : runAll step p es = some p') : Kept R p'.world := by
  have hstart : Kept R p.world := by
    intro n hn
    rw [hlog] at hn
    cases hn
  apply run_invariant _ _ (disciplined_of_idle hidle hfollow) hstart hcurrent hrun
  · intro d₁ d₂ hq h
    unfold Kept
    rw [hq.log, hq.row]
    exact h
  · intro d i h hgood hcur
    exact kept_commit R h hgood hcur

end Commits

/-! ### Two requests at a time -/

/-- Two patches that touch no key in common. -/
structure TwoPatches where
  first : Patch
  second : Patch
  disjoint : ∀ k ∈ first.values.keys, k ∉ second.values.keys

namespace TwoPatches

variable (t : TwoPatches)

def patch (i : Nat) : Patch :=
  if i = 0 then t.first else if i = 1 then t.second else ⟨[], List.nodup_nil⟩

theorem patch_disjoint {i j : Nat} (h : i ≠ j) :
    ∀ k ∈ (t.patch i).values.keys, k ∉ (t.patch j).values.keys := by
  have hnil : ∀ k, k ∉ Dict.keys [] := fun _ => List.not_mem_nil
  unfold patch
  intro k
  split_ifs with h0 h1
  · omega
  · exact t.disjoint k
  · exact fun _ => hnil k
  · exact fun hk hk' => t.disjoint k hk' hk
  · omega
  · exact fun _ => hnil k
  · exact fun hk => absurd hk (hnil k)
  · exact fun hk => absurd hk (hnil k)
  · exact fun hk => absurd hk (hnil k)

/-- The two requests. -/
def runtime (reg : Registry) : Requests where
  known k := (reg.byKey k).isSome
  merge i base := reg.update base (t.patch i).values
  changes i := runtimeChanges reg (t.patch i)
  merging i := merging_runtime reg (t.patch i)
  disjoint := by
    intro i j hij c hc
    obtain ⟨kv, hkv, rfl⟩ := List.mem_map.mp hc
    have hk := t.patch_disjoint hij kv.1 (List.mem_map_of_mem hkv)
    simpa [runtimeChanges, Dict.keys] using hk

def retention : Requests where
  known _ := True
  merge i base := some (mergeOverrides base (t.patch i))
  changes i := retentionChanges (t.patch i)
  merging i := merging_retention (t.patch i)
  disjoint := by
    intro i j hij c hc
    obtain ⟨kv, hkv, rfl⟩ := List.mem_map.mp hc
    have hk := t.patch_disjoint hij kv.1 (List.mem_map_of_mem hkv)
    simpa [retentionChanges, Dict.keys] using hk

def start (d : Store) (request : Nat → Patch → Req Unit) : Running where
  world := d
  threads i := if i < 2 then some (request i (t.patch i)) else none

end TwoPatches

def BothCommitted (d : Store) : Prop := 0 ∈ d.log.map Note.request ∧ 1 ∈ d.log.map Note.request

def stored (d : Store) : Dict := (d.row .overrides).getD []

theorem both_reflected (R : Requests) {d : Store} (h : Kept R d) (hboth : BothCommitted d) :
    reflects (stored d) (R.changes 0) = true ∧ reflects (stored d) (R.changes 1) = true := by
  obtain ⟨n, hn, hzero⟩ := List.mem_map.mp hboth.1
  obtain ⟨m, hm, hone⟩ := List.mem_map.mp hboth.2
  exact ⟨hzero ▸ (h n hn).2, hone ▸ (h m hm).2⟩

/-- **No settings update is lost** where each of two requests that commit still finds stored
what it has read, whichever way their statements interleave. -/
theorem settings_kept (reg : Registry) (t : TwoPatches) (d : Store) (hidle : d.Idle)
    (hlog : d.log = []) (es : List Event) :
    (∀ p', Along step (OnCommit ReadCurrent) (t.start d (updateRuntimeConfig reg)) es →
      runAll step (t.start d (updateRuntimeConfig reg)) es = some p' → BothCommitted p'.world →
      reflects (stored p'.world) (runtimeChanges reg t.first) = true ∧
        reflects (stored p'.world) (runtimeChanges reg t.second) = true) ∧
    (∀ p', Along step (OnCommit ReadCurrent) (t.start d upsert) es →
      runAll step (t.start d upsert) es = some p' → BothCommitted p'.world →
      reflects (stored p'.world) (retentionChanges t.first) = true ∧
        reflects (stored p'.world) (retentionChanges t.second) = true) := by
  constructor
  · intro p' hcurrent hrun hboth
    apply both_reflected (t.runtime reg) (run_kept _ hidle hlog ?_ hcurrent hrun) hboth
    intro i prog hprog
    obtain ⟨-, hprog⟩ := Option.ite_none_right_eq_some.mp hprog
    cases hprog
    exact follows_updateRuntimeConfig (t.runtime reg) rfl
  · intro p' hcurrent hrun hboth
    apply both_reflected t.retention (run_kept _ hidle hlog ?_ hcurrent hrun) hboth
    intro i prog hprog
    obtain ⟨-, hprog⟩ := Option.ite_none_right_eq_some.mp hprog
    cases hprog
    exact follows_upsert t.retention rfl

def twoDefaults : TwoPatches where
  first := ⟨[("events_retention_days", .int 30)], by decide⟩
  second := ⟨[("metrics_retention_days", .int 60)], by decide⟩
  disjoint := by decide

def twoOverrides : TwoPatches where
  first := ⟨[("events", .int 30)], by decide⟩
  second := ⟨[("metrics", .null)], by decide⟩
  disjoint := by decide

def withRow (overrides : Dict) : Store := .load [⟨.overrides, overrides⟩]

def inTurn (statements : Nat) : List Event :=
  List.replicate statements (.run 0) ++ List.replicate statements (.run 1)

/-- The second request reads before the first one commits, and commits after it. -/
def overlapping (statements : Nat) : List Event :=
  .run 1 :: List.replicate statements (.run 0) ++ List.replicate (statements - 1) (.run 1)

/-- One after the other, nothing is lost. -/
theorem settings_kept_inTurn :
    ∃ p', runAll step (twoDefaults.start (withRow []) (updateRuntimeConfig monthRegistry))
        (inTurn 5) = some p' ∧
      reflects (stored p'.world) (runtimeChanges monthRegistry twoDefaults.first) = true ∧
      reflects (stored p'.world) (runtimeChanges monthRegistry twoDefaults.second) = true :=
  ⟨_, rfl, (settings_kept monthRegistry twoDefaults (withRow []) (Db.idle_load _) rfl
    (inTurn 5)).1 _ (by decide) rfl ⟨by decide, by decide⟩⟩

/-- **Both requests commit, and the change of the first is gone**, in either table. -/
theorem concurrent_settings_lost :
    (∃ p', runAll step (twoDefaults.start (withRow []) (updateRuntimeConfig monthRegistry))
        (overlapping 5) = some p' ∧ BothCommitted p'.world ∧
      reflects (stored p'.world) (runtimeChanges monthRegistry twoDefaults.first) = false) ∧
    ∃ p', runAll step (twoOverrides.start (withRow [("metrics", .int 60)]) upsert)
        (overlapping 4) = some p' ∧ BothCommitted p'.world ∧
      reflects (stored p'.world) (retentionChanges twoOverrides.first) = false :=
  ⟨⟨_, rfl, ⟨by decide, by decide⟩, by decide⟩, ⟨_, rfl, ⟨by decide, by decide⟩, by decide⟩⟩

end SettingsRaces

end Opngms
