/-
Opngms/Bystander.lean

Programs that have nothing to do with certain rows.

`Spares ids P p` says that `p`, in whatever session, loads, writes, pushes and
enqueues no change of `ids`, and returns a value of `P`.  Every handler and
every job whose own changes are not among `ids` spares them.  The sweeper
cannot be told which rows to look at: it spares `ids` if, whenever it has
loaded one of them as scheduled, it does not obtain the lock
(`follows_sweepOrphanedActions_bystander`).
-/
import Opngms.Moves

namespace Opngms

open Dialogue

/-! ### The discipline -/

def Job.avoids (ids : List ChangeId) : Job → Prop
  | .applyConfigChange id => id ∉ ids
  | .applyProfileChanges members => ∀ id ∈ members, id ∉ ids
  | .backupDeviceConfig _ => True

instance (ids : List ChangeId) : (job : Job) → Decidable (job.avoids ids)
  | .applyConfigChange id => inferInstanceAs (Decidable (id ∉ ids))
  | .applyProfileChanges members => inferInstanceAs (Decidable (∀ id ∈ members, id ∉ ids))
  | .backupDeviceConfig _ => isTrue trivial

/-- The session has loaded one of the changes as scheduled. -/
def Session.holdsScheduled (ids : List ChangeId) (s : Session) : Bool :=
  ids.any fun m =>
    match s.loaded m with
    | some r => r.status = .scheduled
    | none => false

/-- The discipline of a session that is not about the changes `ids`. -/
def bystander (ids : List ChangeId) : Discipline Eff Eff.Ans Session where
  allows s
    | .getChange id => s.task = .sweep ∨ id ∉ ids
    | .flushChange row => row.id ∉ ids
    | .beginPush id => id ∉ ids
    | .enqueue job _ => job.avoids ids
    | _ => True
  admits s
    | .getChange id, row => ∀ r : Change, row = some r → r.id = id
    | .insertChange _, row => (row : Change).id ∉ ids
    | .tryAdvisoryLock _, got => s.task = .sweep → s.holdsScheduled ids = true → got = false
    | _, _ => True
  next := Session.after

/-- In any session, the program leaves the changes `ids` alone, and what it
returns satisfies `P`. -/
def Spares (ids : List ChangeId) {α : Type} (P : α → Prop) (p : Program α) : Prop :=
  ∀ s, Follows (bystander ids) (fun _ z => ∀ a, z = .ok a → P a) s p

section Rules

variable {ids : List ChangeId} {α β : Type} {P : α → Prop} {R : β → Prop}

theorem spares_pure {a : α} (h : P a) : Spares ids P (.pure a : Program α) := by
  intro s b hb
  obtain rfl := Except.ok.inj hb
  exact h

theorem spares_raise (x : Raised) : Spares ids P (.raise x : Program α) := fun _ => nofun

theorem spares_ask {q : Eff} {k : q.Ans → Program α} (hq : ∀ s, (bystander ids).allows s q)
    (hk : ∀ s a, (bystander ids).admits s q a → Spares ids P (k a)) :
    Spares ids P (.ask q k) := fun s => ⟨hq s, fun a ha => hk s a ha _⟩

theorem Spares.bind {p : Program α} {f : α → Program β} (h : Spares ids P p)
    (hf : ∀ a, P a → Spares ids R (f a)) : Spares ids R (p.bind f) := by
  intro s
  exact Follows.bind (h s) (fun s a ha => hf a (ha a rfl) s) fun _ _ _ => nofun

theorem Spares.handle {p : Program α} {g : Raised → Program α} (h : Spares ids P p)
    (hg : ∀ x, Spares ids P (g x)) : Spares ids P (p.handle g) := by
  intro s
  exact Follows.handle (h s) (fun _ _ ha => ha) fun s x _ => hg x s

theorem spares_ofExcept (e : Except Raised α) :
    Spares ids (fun a => e = .ok a) (Dialogue.ofExcept e) := by
  cases e with
  | ok a => exact spares_pure rfl
  | error x => exact spares_raise x

theorem spares_onBox (device : DeviceId) (p : Client α) :
    Spares ids (fun _ => True) (onBox device p) := by
  induction p with
  | pure a => exact spares_pure trivial
  | raise x => exact spares_raise x
  | ask r k ih => exact spares_ask (fun _ => trivial) fun _ a _ => ih a

theorem spares_flush {row : Change} {k : Unit → Program α} (hrow : row.id ∉ ids)
    (hk : Spares ids P (k ())) : Spares ids P (.ask (.flushChange row) k) :=
  spares_ask (fun _ => hrow) fun _ _ _ => hk

end Rules

/-! ### Jobs -/

section Jobs

variable {ids : List ChangeId} {env : Env}

theorem spares_readConfig (client : DeviceId) :
    Spares ids (fun _ => True) (readConfig env client) := by
  refine spares_ask (fun _ => trivial) fun _ r _ => ?_
  cases r with
  | error e => exact spares_pure trivial
  | ok xml => exact spares_pure trivial

theorem spares_rollbackPoint (live : Bool) (change : Change) (xml : String) :
    Spares ids (fun _ => True) (rollbackPoint env live change xml) := by
  cases live with
  | false => exact spares_pure trivial
  | true =>
    exact spares_ask (fun _ => trivial) fun _ _ _ =>
      spares_ask (fun _ => trivial) fun _ _ _ => spares_pure trivial

theorem spares_applyGuarded (client : DeviceId) {change : Change} (hid : change.id ∉ ids)
    (live : Bool) (now : Time) :
    Spares ids (fun c => c.id = change.id) (applyGuarded client change live now) := by
  have hcall : Spares ids (fun _ => True) (callApplier client change live) := by
    cases live with
    | false => exact spares_onBox _ _
    | true => exact spares_ask (fun _ => hid) fun _ _ _ => spares_onBox _ _
  refine Spares.handle (hcall.bind fun res _ => spares_pure rfl) fun e => ?_
  cases applyFailure e with
  | some result => exact spares_pure rfl
  | none => exact spares_raise e

theorem spares_flushResult {c : Change} (hc : c.id ∉ ids) :
    Spares ids (fun _ => True) (flushResult c) := by
  unfold flushResult
  split
  · exact spares_flush hc (spares_pure trivial)
  · exact spares_raise _

theorem spares_applyChange {change : Change} (hid : change.id ∉ ids) (client : DeviceId)
    (now : Time) :
    Spares ids (fun c => c.id = change.id) (applyChange env change client now) := by
  unfold applyChange
  split
  · exact spares_pure rfl
  · refine spares_ask (fun _ => trivial) fun _ got _ => ?_
    cases got with
    | false => exact spares_pure rfl
    | true =>
      refine (spares_readConfig client).bind fun r _ => ?_
      rcases r with - | ⟨xml, current⟩
      · exact spares_flush hid (spares_pure rfl)
      · show Spares ids _ (ite _ _ _)
        split
        · exact spares_flush hid (spares_pure rfl)
        · refine spares_flush hid (spares_ask (fun _ => trivial) fun _ row _ => ?_)
          refine (spares_rollbackPoint _ _ _).bind fun snapId _ => ?_
          refine (spares_applyGuarded client (by exact hid) _ now).bind fun c hc => ?_
          have hc : c.id = change.id := hc
          exact (spares_flushResult (hc ▸ hid)).bind fun _ _ => spares_pure hc

theorem spares_clientForDevice (device : Device) :
    Spares ids (fun _ => True) (clientForDevice device) := by
  unfold clientForDevice
  split
  · exact spares_pure trivial
  · exact spares_raise _

theorem spares_applyConfigChange {id : ChangeId} (hid : id ∉ ids) :
    Spares ids (fun _ => True) (applyConfigChange env id) := by
  refine spares_ask (fun _ => .inr hid) fun _ row hrow => ?_
  cases row with
  | none => exact spares_pure trivial
  | some change =>
    have hc : change.id = id := hrow change rfl
    refine spares_ask (fun _ => trivial) fun _ device _ => ?_
    cases device with
    | none => exact spares_pure trivial
    | some device =>
      refine (spares_clientForDevice device).bind fun _ _ => ?_
      refine spares_ask (fun _ => trivial) fun _ now _ => ?_
      refine (spares_applyChange (hc ▸ hid) _ now).bind fun c _ => ?_
      exact spares_ask (fun _ => trivial) fun _ _ _ =>
        spares_ask (fun _ => trivial) fun _ _ _ => spares_pure trivial

theorem spares_loadChanges {members : List ChangeId} (h : ∀ id ∈ members, id ∉ ids) :
    Spares ids (fun rows => ∀ r ∈ rows, r.id ∉ ids) (loadChanges members) := by
  induction members with
  | nil => exact spares_pure nofun
  | cons id members ih =>
    obtain ⟨hid, hrest⟩ := List.forall_mem_cons.mp h
    refine spares_ask (fun _ => .inr hid) fun _ row hrow => (ih hrest).bind fun rows hrows => ?_
    cases row with
    | none => exact spares_pure hrows
    | some r =>
      refine spares_pure (List.forall_mem_cons.mpr ⟨?_, hrows⟩)
      rw [hrow r rfl]
      exact hid

theorem spares_flushAll {cs : List Change} (h : ∀ c ∈ cs, c.id ∉ ids) :
    Spares ids (fun _ => True) (flushAll cs) := by
  induction cs with
  | nil => exact spares_pure trivial
  | cons c cs ih =>
    obtain ⟨hc, hcs⟩ := List.forall_mem_cons.mp h
    exact spares_flush hc (ih hcs)

theorem spares_flushResults {cs : List Change} (h : ∀ c ∈ cs, c.id ∉ ids) :
    Spares ids (fun _ => True) (flushResults cs) := by
  induction cs with
  | nil => exact spares_pure trivial
  | cons c cs ih =>
    obtain ⟨hc, hcs⟩ := List.forall_mem_cons.mp h
    exact (spares_flushResult hc).bind fun _ _ => ih hcs

theorem spares_applyMembers (client : DeviceId) (live : Bool) (snapId : Option SnapId)
    (now : Time) (aborted : Bool) {cs : List Change} (h : ∀ c ∈ cs, c.id ∉ ids) :
    Spares ids (fun rows => ∀ r ∈ rows, r.id ∉ ids)
      (applyMembers client live snapId now aborted cs) := by
  induction cs generalizing aborted with
  | nil => cases aborted <;> exact spares_pure nofun
  | cons c cs ih =>
    obtain ⟨hc, hcs⟩ := List.forall_mem_cons.mp h
    cases aborted with
    | true =>
      refine (ih true hcs).bind fun rows hrows => ?_
      exact spares_pure (List.forall_mem_cons.mpr ⟨hc, hrows⟩)
    | false =>
      refine (spares_applyGuarded client (by exact hc) live now).bind fun c' hc' => ?_
      have hc' : c'.id = c.id := hc'
      refine (ih _ hcs).bind fun rows hrows => ?_
      exact spares_pure (List.forall_mem_cons.mpr ⟨hc' ▸ hc, hrows⟩)

theorem spares_applyProfileSequence {changes : List Change} (h : ∀ c ∈ changes, c.id ∉ ids)
    (client : DeviceId) (now : Time) :
    Spares ids (fun _ => True) (applyProfileSequence env changes client now) := by
  have hsched : ∀ c ∈ changes.filter (fun c => c.status = .scheduled), c.id ∉ ids :=
    fun c hc => h c (List.mem_of_mem_filter hc)
  unfold applyProfileSequence
  split
  · exact spares_pure trivial
  · rename_i first others hfilter
    rw [hfilter] at hsched
    have hmap : ∀ f : Change → Change, (∀ c, (f c).id = c.id) →
        ∀ c ∈ (first :: others).map f, c.id ∉ ids := by
      intro f hf c hc
      obtain ⟨d, hd, rfl⟩ := List.mem_map.mp hc
      rw [hf]
      exact hsched d hd
    refine spares_ask (fun _ => trivial) fun _ got _ => ?_
    cases got with
    | false => exact spares_pure trivial
    | true =>
      refine (spares_readConfig client).bind fun r _ => ?_
      rcases r with - | ⟨xml, current⟩
      · refine (spares_flushAll (by exact hmap _ fun _ => rfl)).bind fun _ _ => ?_
        exact spares_pure trivial
      · show Spares ids _ (ite _ _ _)
        split
        · refine (spares_flushAll (by exact hmap _ fun _ => rfl)).bind fun _ _ => ?_
          exact spares_pure trivial
        · refine spares_ask (fun _ => trivial) fun _ row _ => ?_
          refine (spares_rollbackPoint _ _ _).bind fun snapId _ => ?_
          refine (spares_applyMembers client _ _ now false hsched).bind fun rows hrows => ?_
          exact (spares_flushResults hrows).bind fun _ _ => spares_pure trivial

theorem spares_applyProfileChanges {members : List ChangeId} (h : ∀ id ∈ members, id ∉ ids) :
    Spares ids (fun _ => True) (applyProfileChanges env members) := by
  refine (spares_loadChanges h).bind fun rows hrows => ?_
  cases rows with
  | nil => exact spares_pure trivial
  | cons first others =>
    refine spares_ask (fun _ => trivial) fun _ device _ => ?_
    cases device with
    | none => exact spares_pure trivial
    | some device =>
      refine (spares_clientForDevice device).bind fun _ _ => ?_
      refine spares_ask (fun _ => trivial) fun _ now _ => ?_
      refine (spares_applyProfileSequence hrows _ now).bind fun summary _ => ?_
      exact spares_ask (fun _ => trivial) fun _ _ _ =>
        spares_ask (fun _ => trivial) fun _ _ _ => spares_pure trivial

theorem spares_backupDeviceConfig (device : DeviceId) :
    Spares ids (fun _ => True) (backupDeviceConfig env device) := by
  have hbackup : ∀ d, Spares ids (fun _ => True) (backupConfig env device d) := by
    intro d
    refine (spares_readConfig device).bind fun r _ => ?_
    rcases r with - | ⟨xml, digest⟩
    · exact spares_pure trivial
    · refine spares_ask (fun _ => trivial) fun _ latest _ => ?_
      show Spares ids _ (ite _ _ _)
      split
      · exact spares_pure trivial
      · exact spares_ask (fun _ => trivial) fun _ _ _ => spares_pure trivial
  refine spares_ask (fun _ => trivial) fun _ row _ => ?_
  cases row with
  | none => exact spares_pure trivial
  | some d =>
    refine (spares_clientForDevice d).bind fun _ _ => (hbackup d).bind fun created _ => ?_
    exact spares_ask (fun _ => trivial) fun _ _ _ => spares_pure trivial

theorem Job.spares_program {job : Job} (h : job.avoids ids) :
    Spares ids (fun _ => True) (job.program env) := by
  cases job with
  | applyConfigChange id => exact (spares_applyConfigChange h).bind fun _ _ => spares_pure trivial
  | applyProfileChanges members =>
    exact (spares_applyProfileChanges h).bind fun _ _ => spares_pure trivial
  | backupDeviceConfig device =>
    exact (spares_backupDeviceConfig device).bind fun _ _ => spares_pure trivial

end Jobs

/-! ### Handlers -/

def Call.avoids (ids : List ChangeId) : Call → Prop
  | .createConfigChange .. | .createCatalogChange .. => True
  | .scheduleConfigChange _ _ c _ | .cancelConfigChange _ _ c | .revertConfigChange _ _ c _ => c ∉ ids

instance (ids : List ChangeId) : (call : Call) → Decidable (call.avoids ids)
  | .createConfigChange .. | .createCatalogChange .. => isTrue trivial
  | .scheduleConfigChange _ _ c _ | .cancelConfigChange _ _ c | .revertConfigChange _ _ c _ =>
    inferInstanceAs (Decidable (c ∉ ids))

section Handlers

variable {ids : List ChangeId} {env : Env} {tenantId : TenantId} {deviceId : DeviceId}
  {changeId : ChangeId}

theorem spares_loadDevice : Spares ids (fun _ => True) (loadDevice tenantId deviceId) := by
  refine spares_ask (fun _ => trivial) fun _ row _ => ?_
  cases row with
  | none => exact spares_raise _
  | some device =>
    show Spares ids _ (ite _ _ _)
    split
    · exact spares_raise _
    · exact spares_pure trivial

theorem spares_loadChange (h : changeId ∉ ids) :
    Spares ids (fun c => c.id ∉ ids) (loadChange tenantId deviceId changeId) := by
  refine spares_ask (fun _ => .inr h) fun _ row hrow => ?_
  cases row with
  | none => exact spares_raise _
  | some change =>
    show Spares ids _ (ite _ _ _)
    split
    · exact spares_raise _
    · refine spares_pure ?_
      rw [hrow change rfl]
      exact h

theorem spares_createChange (kind operation : String) (target : Json) (payload : Dict) :
    Spares ids (fun c => c.id ∉ ids)
      (createChange tenantId deviceId kind operation target payload) := by
  refine spares_ask (fun _ => trivial) fun _ snap _ => ?_
  cases target with
  | str target => exact spares_ask (fun _ => trivial) fun _ row hrow => spares_pure hrow
  | _ => exact spares_raise _

theorem spares_createConfigChange (body : ConfigChangeIn) :
    Spares ids (fun _ => True) (createConfigChange tenantId deviceId body) := by
  unfold createConfigChange
  split
  · exact spares_raise _
  · refine spares_loadDevice.bind fun _ _ => (spares_createChange _ _ _ _).bind fun c _ => ?_
    exact spares_ask (fun _ => trivial) fun _ _ _ => spares_pure trivial

theorem spares_createCatalogChange (body : CatalogChangeIn) :
    Spares ids (fun _ => True) (createCatalogChange env tenantId deviceId body) := by
  unfold createCatalogChange
  split
  · exact spares_raise _
  · refine spares_loadDevice.bind fun device _ => ?_
    split
    · exact spares_raise _
    · split
      · exact spares_raise _
      · refine (spares_ofExcept _).bind fun payload _ => ?_
        refine (spares_createChange _ _ _ _).bind fun c _ => ?_
        exact spares_ask (fun _ => trivial) fun _ _ _ => spares_pure trivial

theorem spares_scheduleConfigChange (h : changeId ∉ ids) (scheduledAt : Option Time) :
    Spares ids (fun _ => True) (scheduleConfigChange tenantId deviceId changeId scheduledAt) := by
  refine (spares_loadChange h).bind fun c hc => ?_
  show Spares ids _ (ite _ _ _)
  split
  · exact spares_raise _
  · refine spares_flush hc (spares_ask (fun _ => trivial) fun _ _ _ => ?_)
    exact spares_ask (fun _ => h) fun _ _ _ => spares_pure trivial

theorem spares_cancelConfigChange (h : changeId ∉ ids) :
    Spares ids (fun _ => True) (cancelConfigChange tenantId deviceId changeId) := by
  refine (spares_loadChange h).bind fun c hc => ?_
  show Spares ids _ (ite _ _ _)
  split
  · exact spares_raise _
  · exact spares_flush hc (spares_ask (fun _ => trivial) fun _ _ _ => spares_pure trivial)

theorem spares_preApplyXml (change : Change) :
    Spares ids (fun _ => True) (preApplyXml env change) := by
  unfold preApplyXml
  split
  · exact spares_pure trivial
  · refine spares_ask (fun _ => trivial) fun _ row _ => ?_
    cases row with
    | none => exact spares_pure trivial
    | some snap =>
      show Spares ids _ (ite _ _ _)
      split
      · exact spares_pure trivial
      · split
        · exact spares_pure trivial
        · exact spares_raise _

theorem spares_revertChange (change : Change) :
    Spares ids (fun c => c.id ∉ ids) (revertChange env change) := by
  unfold revertChange
  split
  · exact spares_raise _
  · split
    · exact spares_raise _
    · refine (spares_preApplyXml change).bind fun snapshotXml _ => ?_
      refine (spares_ofExcept _).bind fun inverse _ => ?_
      obtain ⟨operation, target, payload⟩ := inverse
      refine (spares_createChange _ _ _ _).bind fun c hc => ?_
      exact spares_flush (by exact hc) (spares_pure hc)

theorem spares_revertConfigChange (h : changeId ∉ ids) (scheduledAt : Option Time) :
    Spares ids (fun _ => True)
      (revertConfigChange env tenantId deviceId changeId scheduledAt) := by
  refine (spares_loadChange h).bind fun change _ => ?_
  refine Spares.bind (Spares.handle (spares_revertChange change) fun e => ?_) fun inverse hi =>
    spares_flush (by exact hi) ?_
  · cases e <;> exact spares_raise _
  · refine spares_ask (fun _ => trivial) fun _ _ _ => ?_
    exact spares_ask (fun _ => hi) fun _ _ _ => spares_pure trivial

theorem Call.spares_program {call : Call} (h : call.avoids ids) :
    Spares ids (fun _ => True) (call.program env) := by
  cases call with
  | createConfigChange t d body =>
    exact (spares_createConfigChange body).bind fun _ _ => spares_pure trivial
  | createCatalogChange t d body =>
    exact (spares_createCatalogChange body).bind fun _ _ => spares_pure trivial
  | scheduleConfigChange t d c at_ =>
    exact (spares_scheduleConfigChange h at_).bind fun _ _ => spares_pure trivial
  | cancelConfigChange t d c =>
    exact (spares_cancelConfigChange h).bind fun _ _ => spares_pure trivial
  | revertConfigChange t d c at_ =>
    exact (spares_revertConfigChange h at_).bind fun _ _ => spares_pure trivial

end Handlers

/-! ### The sweeper -/

section Sweeper

variable {ids : List ChangeId} {env : Env} {s : Session}

/-- One row of the sweep: a scheduled row of `ids` is skipped, because the lock
is not obtained. -/
theorem follows_sweepRow_bystander (hs : s.task = .sweep) (rowId : ChangeId)
    (summary : SweepSummary) :
    Follows (bystander ids) (fun s _ => s.task = .sweep) s (sweepRow env rowId summary) := by
  refine ⟨.inl hs, fun row hrow => ?_⟩
  cases row with
  | none => exact hs
  | some r =>
    have hid : r.id = rowId := hrow r rfl
    show Follows _ _ _ (ite _ _ _)
    split
    · exact hs
    · rename_i hsched
      have hsched : r.status = .scheduled := not_not.mp hsched
      refine ⟨trivial, fun got hgot => ?_⟩
      cases got with
      | false => exact hs
      | true =>
        have hmem : r.id ∉ ids := by
          intro hm
          -- the row just loaded is one of `ids`, so the lock was not obtained
          have hholds : Session.holdsScheduled ids (s.after (.getChange rowId) (some r)) = true := by
            refine List.any_eq_true.mpr ⟨r.id, hm, ?_⟩
            simp [Session.after, hid, hsched]
          cases hgot hs hholds
        split
        · exact ⟨hmem, fun _ _ => ⟨trivial, fun _ _ => ⟨hid ▸ hmem, fun _ _ => hs⟩⟩⟩
        · exact ⟨hmem, fun _ _ => ⟨trivial, fun _ _ => ⟨trivial, fun _ _ => hs⟩⟩⟩

theorem follows_sweepRows_bystander (hs : s.task = .sweep) (rows : List ChangeId)
    (summary : SweepSummary) :
    Follows (bystander ids) (fun _ _ => True) s (sweepRows env rows summary) := by
  induction rows generalizing s summary with
  | nil => trivial
  | cons id rows ih =>
    have hrow : Follows (bystander ids) (fun s _ => s.task = .sweep) s
        (tryCatch (sweepRow env id summary) fun _ => Pure.pure summary) :=
      Follows.handle (follows_sweepRow_bystander hs id summary) (fun _ _ h => h) fun _ _ h => h
    refine Follows.bind hrow (fun s summary' hs' => ?_) fun _ _ _ => trivial
    exact ⟨trivial, fun _ _ => ih (by exact hs') summary'⟩

theorem follows_sweepOrphanedActions_bystander (hs : s.task = .sweep) :
    Follows (bystander ids) (fun _ _ => True) s (do let _ ← sweepOrphanedActions env) := by
  refine ⟨trivial, fun now _ => ⟨trivial, fun rows _ => ⟨trivial, fun _ _ => ?_⟩⟩⟩
  show Follows _ _ _ ((sweepRows env rows {}).bind _)
  exact Follows.bind (follows_sweepRows_bystander (by exact hs) rows {}) (fun _ _ _ => trivial)
    fun _ _ _ => trivial

end Sweeper

end Opngms
