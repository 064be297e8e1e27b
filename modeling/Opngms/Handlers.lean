/-
Opngms/Handlers.lean

What the handlers and the jobs ask for, whatever they are answered.

A handler pushes nothing, saves no snapshot and keeps the session it was given
(`Eff.ofHandler`), and so does the sweep of one row.  The jobs that apply
changes save a snapshot only at the rollback point: everything else they do is
`Eff.unsaving`.

Both are facts about the questions alone (`Dialogue.Asks`), so every
discipline that lets such questions pass gets its case for these programs from
here.
-/
import Opngms.ConfigApi

namespace Opngms

open Dialogue

/-! ### Handlers -/

/-- The effects that handlers and the sweep of a row ask for. -/
def Eff.ofHandler : Eff → Prop
  | .beginPush _ | .insertSnapshot _ | .closeSession => False
  | _ => True

section Handlers

variable {env : Env} {tenantId : TenantId} {deviceId : DeviceId} {changeId : ChangeId}

theorem asks_loadDevice : Asks Eff.ofHandler (loadDevice tenantId deviceId) := by
  refine asks_ask trivial fun row => ?_
  cases row with
  | none => exact asks_raise _
  | some device =>
    show Asks _ (ite _ _ _)
    split
    · exact asks_raise _
    · exact asks_pure _

theorem asks_loadChange : Asks Eff.ofHandler (loadChange tenantId deviceId changeId) := by
  refine asks_ask trivial fun row => ?_
  cases row with
  | none => exact asks_raise _
  | some change =>
    show Asks _ (ite _ _ _)
    split
    · exact asks_raise _
    · exact asks_pure _

theorem asks_createChange (kind operation : String) (target : Json) (payload : Dict) :
    Asks Eff.ofHandler (createChange tenantId deviceId kind operation target payload) := by
  refine asks_ask trivial fun snap => ?_
  cases target with
  | str target => exact asks_ask trivial fun _ => asks_pure _
  | _ => exact asks_raise _

theorem asks_createConfigChange (body : ConfigChangeIn) :
    Asks Eff.ofHandler (createConfigChange tenantId deviceId body) := by
  unfold createConfigChange
  split
  · exact asks_raise _
  · refine asks_loadDevice.bind fun _ => (asks_createChange _ _ _ _).bind fun c => ?_
    exact asks_ask trivial fun _ => asks_pure c

theorem asks_createCatalogChange (body : CatalogChangeIn) :
    Asks Eff.ofHandler (createCatalogChange env tenantId deviceId body) := by
  unfold createCatalogChange
  split
  · exact asks_raise _
  · refine asks_loadDevice.bind fun device => ?_
    split
    · exact asks_raise _
    · split
      · exact asks_raise _
      · refine (asks_ofExcept _).bind fun payload => (asks_createChange _ _ _ _).bind fun c => ?_
        exact asks_ask trivial fun _ => asks_pure c

theorem asks_scheduleConfigChange (scheduledAt : Option Time) :
    Asks Eff.ofHandler (scheduleConfigChange tenantId deviceId changeId scheduledAt) := by
  refine asks_loadChange.bind fun c => ?_
  show Asks _ (ite _ _ _)
  split
  · exact asks_raise _
  · refine asks_ask trivial fun _ => asks_ask trivial fun _ => ?_
    exact asks_ask trivial fun _ => asks_pure _

theorem asks_cancelConfigChange :
    Asks Eff.ofHandler (cancelConfigChange tenantId deviceId changeId) := by
  refine asks_loadChange.bind fun c => ?_
  show Asks _ (ite _ _ _)
  split
  · exact asks_raise _
  · exact asks_ask trivial fun _ => asks_ask trivial fun _ => asks_pure _

theorem asks_preApplyXml (change : Change) : Asks Eff.ofHandler (preApplyXml env change) := by
  unfold preApplyXml
  split
  · exact asks_pure _
  · refine asks_ask trivial fun row => ?_
    cases row with
    | none => exact asks_pure _
    | some snap =>
      show Asks _ (ite _ _ _)
      split
      · exact asks_pure _
      · split
        · exact asks_pure _
        · exact asks_raise _

theorem asks_revertChange (change : Change) : Asks Eff.ofHandler (revertChange env change) := by
  unfold revertChange
  split
  · exact asks_raise _
  · split
    · exact asks_raise _
    · refine (asks_preApplyXml change).bind fun snapshotXml => ?_
      refine (asks_ofExcept _).bind fun inverse => ?_
      obtain ⟨operation, target, payload⟩ := inverse
      refine (asks_createChange _ _ _ _).bind fun c => ?_
      exact asks_ask trivial fun _ => asks_pure _

theorem asks_revertConfigChange (scheduledAt : Option Time) :
    Asks Eff.ofHandler (revertConfigChange env tenantId deviceId changeId scheduledAt) := by
  refine asks_loadChange.bind fun change => ?_
  refine Asks.bind ((asks_revertChange change).handle fun e => ?_) fun inverse => ?_
  · cases e <;> exact asks_raise _
  · refine asks_ask trivial fun _ => asks_ask trivial fun _ => ?_
    exact asks_ask trivial fun _ => asks_pure _

theorem Call.asks_program (call : Call) : Asks Eff.ofHandler (call.program env) := by
  cases call with
  | createConfigChange t d body => exact (asks_createConfigChange body).bind fun _ => asks_pure _
  | createCatalogChange t d body => exact (asks_createCatalogChange body).bind fun _ => asks_pure _
  | scheduleConfigChange t d c at_ =>
    exact (asks_scheduleConfigChange at_).bind fun _ => asks_pure _
  | cancelConfigChange t d c => exact asks_cancelConfigChange.bind fun _ => asks_pure _
  | revertConfigChange t d c at_ => exact (asks_revertConfigChange at_).bind fun _ => asks_pure _

theorem asks_sweepRow (id : ChangeId) (summary : SweepSummary) :
    Asks Eff.ofHandler (sweepRow env id summary) := by
  refine asks_ask trivial fun row => ?_
  cases row with
  | none => exact asks_pure _
  | some r =>
    show Asks _ (ite _ _ _)
    split
    · exact asks_pure _
    · refine asks_ask trivial fun got => ?_
      cases got with
      | false => exact asks_pure _
      | true =>
        simp only [Dialogue.bind, Bool.not_true, Bool.false_eq_true, if_false]
        -- either way the row is written and committed, with one effect more
        split <;>
        · refine asks_ask trivial fun _ => asks_ask trivial fun _ => ?_
          exact asks_ask trivial fun _ => asks_pure _

end Handlers

/-! ### Snapshots -/

/-- The effects that save no snapshot. -/
def Eff.unsaving : Eff → Prop
  | .insertSnapshot _ => False
  | _ => True

theorem Eff.ofHandler.unsaving {q : Eff} (h : q.ofHandler) : q.unsaving := by
  cases q <;> trivial

section Snapshots

variable {env : Env}

theorem asks_onBox {α : Type} (device : DeviceId) (p : Client α) :
    Asks Eff.unsaving (onBox device p) := asks_translate (fun _ => trivial) p

theorem asks_clientForDevice (device : Device) : Asks Eff.unsaving (clientForDevice device) := by
  unfold clientForDevice
  split
  · exact asks_pure _
  · exact asks_raise _

theorem asks_readConfig (client : DeviceId) : Asks Eff.unsaving (readConfig env client) := by
  refine asks_ask trivial fun r => ?_
  cases r with
  | error e => exact asks_pure _
  | ok xml => exact asks_pure _

theorem asks_flushAll (cs : List Change) : Asks Eff.unsaving (flushAll cs) := by
  induction cs with
  | nil => exact asks_pure _
  | cons c cs ih => exact asks_ask trivial fun _ => ih

theorem asks_flushResult (c : Change) : Asks Eff.unsaving (flushResult c) := by
  unfold flushResult
  split
  · exact asks_ask trivial fun _ => asks_pure _
  · exact asks_raise _

theorem asks_flushResults (cs : List Change) : Asks Eff.unsaving (flushResults cs) := by
  induction cs with
  | nil => exact asks_pure _
  | cons c cs ih => exact (asks_flushResult c).bind fun _ => ih

theorem asks_loadChanges (ids : List ChangeId) : Asks Eff.unsaving (loadChanges ids) := by
  induction ids with
  | nil => exact asks_pure _
  | cons id ids ih =>
    refine asks_ask trivial fun row => ih.bind fun rest => ?_
    cases row with
    | none => exact asks_pure _
    | some c => exact asks_pure _

theorem asks_applyGuarded (client : DeviceId) (change : Change) (live : Bool) (now : Time) :
    Asks Eff.unsaving (applyGuarded client change live now) := by
  have hcall : Asks Eff.unsaving (callApplier client change live) := by
    cases live with
    | false => exact asks_onBox client _
    | true => exact asks_ask trivial fun _ => asks_onBox client _
  refine Asks.handle (hcall.bind fun res => asks_pure _) fun e => ?_
  cases applyFailure e with
  | some result => exact asks_pure _
  | none => exact asks_raise _

theorem asks_applyMembers (client : DeviceId) (live : Bool) (snapId : Option SnapId) (now : Time)
    (aborted : Bool) (cs : List Change) :
    Asks Eff.unsaving (applyMembers client live snapId now aborted cs) := by
  induction cs generalizing aborted with
  | nil => cases aborted <;> exact asks_pure _
  | cons c cs ih =>
    cases aborted with
    | true => exact (ih true).bind fun rest => asks_pure _
    | false =>
      exact (asks_applyGuarded _ _ _ _).bind fun done => (ih _).bind fun rest => asks_pure _

theorem asks_sweepRows (ids : List ChangeId) (summary : SweepSummary) :
    Asks Eff.unsaving (sweepRows env ids summary) := by
  induction ids generalizing summary with
  | nil => exact asks_pure _
  | cons id ids ih =>
    have hrow : Asks Eff.unsaving (tryCatch (sweepRow env id summary) fun _ => Pure.pure summary) :=
      ((asks_sweepRow id summary).mono fun _ => Eff.ofHandler.unsaving).handle fun _ => asks_pure _
    exact hrow.bind fun summary => asks_ask trivial fun _ => ih summary

theorem asks_sweepOrphanedActions : Asks Eff.unsaving (sweepOrphanedActions env) :=
  asks_ask trivial fun _ => asks_ask trivial fun ids => asks_ask trivial fun _ =>
    asks_sweepRows ids {}

end Snapshots

end Opngms
