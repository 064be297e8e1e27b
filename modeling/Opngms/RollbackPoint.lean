/-
Opngms/RollbackPoint.lean

What a job leaves behind once it has changed the box.

The row and the pre-apply snapshot are written in the transaction of the job,
and only its commit makes them last.  A job that ends by an exception rolls
back: if it had already sent a mutating request, the box is changed, the row
still says `scheduled` and the rollback point is lost.

The job is run alone in a session (`World.RunsJob`) against a box that answers
anything.  Main result: **`settled_iff`**, a job that changed the box leaves a
finished row with its rollback point exactly when the payload and the answers
of the box do not strand it (module `Recorded`).
-/
import Opngms.Recorded
import Opngms.ApplyOnce

namespace Opngms

open Dialogue

variable {Box : Type}

/-! ### A job run alone -/

/-- The exchanges that the world allows session `i`. -/
def World.Serves (B : BoxModel Box) (i : Nat) (w : World Box) (x : Exchange Eff Eff.Ans)
    (w' : World Box) : Prop :=
  (World.server B).serve i w x.1 = some (x.2, w')

/-- The requests to the box among the effects of a run. -/
def Trace.requests (t : Trace) : Wire :=
  t.filterMap fun x =>
    match x with
    | ⟨.request _ r, a⟩ => some (r, a)
    | _ => none

/-- The configuration that the run read before it sent anything. -/
def Trace.ReadFirst (t : Trace) (device : DeviceId) (xml : String) : Prop :=
  ∃ t₁ t₂ : Trace,
    t = t₁ ++ ⟨.getConfigBackup device, (.ok xml : Except OpnsenseError String)⟩ :: t₂ ∧
      t₁.requests = []

/-- The committed row is finished, and its rollback point is stored: a snapshot
of the configuration that the run read before it sent anything. -/
def World.Settled (env : Env) (w : World Box) (id : ChangeId) (device : DeviceId) (t : Trace) :
    Prop :=
  ∃ row snapId snap xml, w.changes id = some row ∧
    (row.status = .applied ∨ row.status = .failed) ∧ row.preApplySnapshotId = some snapId ∧
    w.snapshots.find? (fun s => s.id = snapId) = some snap ∧
    snapshotToXml env snap.contentEnc = some xml ∧ t.ReadFirst device xml

/-! ### What the job sees of the world -/

/-- The part of the world that one change's job works on, with the exchanges of
the run. -/
structure JobPhase where
  row : Option Change
  loaded : Option Change
  dirty : Option Change
  stored : List (SnapId × ByteArray)
  unsaved : List (SnapId × ByteArray)
  next : SnapId
  trace : Trace

/-- What the exchange does to that part. -/
def JobPhase.serve (id : ChangeId) (s : JobPhase) : (q : Eff) → q.Ans → JobPhase
  | .getChange id', row => if id' = id then { s with loaded := row } else s
  | .flushChange row, _ => if row.id = id then { s with dirty := some row } else s
  | .insertSnapshot row, snapId =>
    { s with unsaved := s.unsaved ++ [(snapId, row.contentEnc)], next := s.next + 1 }
  | .commit, _ =>
    { s with
      row := World.mergeRow s.loaded s.dirty s.row, dirty := none
      stored := s.stored ++ s.unsaved, unsaved := [] }
  | _, _ => s

/-- The job's view as a discipline: what it is answered comes from the view. -/
def jobView (id : ChangeId) : Discipline Eff Eff.Ans JobPhase where
  allows _ q :=
    match q with
    | .insertChange _ | .closeSession => False
    | _ => True
  admits s q a :=
    match q, a with
    | .getChange id', a => id' = id → a = s.row
    | .insertSnapshot _, a => a = s.next
    | _, _ => True
  next s q a := { s.serve id q a with trace := s.trace ++ [⟨q, a⟩] }

/-- The phase shows the world as session `i` sees it. -/
structure Shows (id : ChangeId) (i : Nat) (w : World Box) (s : JobPhase) : Prop where
  row : s.row = w.changes id
  loaded : s.loaded = (w.sessions i).loaded id
  dirty : s.dirty = (w.sessions i).dirty id
  stored : s.stored = w.snapshots.map fun x => (x.id, x.contentEnc)
  unsaved : s.unsaved = (w.sessions i).newSnapshots.map fun x => (x.id, x.contentEnc)
  next : s.next = w.nextSnapshot

theorem shows_setSession {id : ChangeId} {i : Nat} {w : World Box} {sess : Session} {s : JobPhase}
    (row : s.row = w.changes id) (loaded : s.loaded = sess.loaded id)
    (dirty : s.dirty = sess.dirty id)
    (stored : s.stored = w.snapshots.map fun x => (x.id, x.contentEnc))
    (unsaved : s.unsaved = sess.newSnapshots.map fun x => (x.id, x.contentEnc))
    (next : s.next = w.nextSnapshot) : Shows id i (w.setSession i sess) s := by
  have hsess : (w.setSession i sess).sessions i = sess := by
    rw [World.setSession_sessions, Function.update_self]
  exact ⟨row, by rw [hsess, loaded], by rw [hsess, dirty], stored, by rw [hsess, unsaved], next⟩

theorem Shows.serve {B : BoxModel Box} {id : ChangeId} {i : Nat} {w w' : World Box} {s : JobPhase}
    {q : Eff} {a : q.Ans} (h : Shows id i w s) (hq : (jobView id).allows s q)
    (hs : World.Serves B i w ⟨q, a⟩ w') :
    (jobView id).admits s q a ∧ Shows id i w' ((jobView id).next s q a) := by
  have hs : (w.answer B i q).map (fun aw => (aw.1, aw.2.setSession i ((w.sessions i).after q aw.1)))
      = some (a, w') := hs
  obtain ⟨⟨a₀, w₀⟩, hw, he⟩ := Option.map_eq_some_iff.mp hs
  obtain ⟨ha, hw'⟩ := Prod.mk.inj he
  obtain rfl : a₀ = a := ha
  subst hw'
  cases q with
  | getChange id' =>
    obtain ⟨rfl, rfl⟩ := Prod.mk.inj (Option.some.inj hw)
    refine ⟨fun hid => by rw [hid, h.row], ?_⟩
    show Shows id i _ { (if id' = id then { s with loaded := w.changes id' } else s) with trace := _ }
    by_cases hid : id' = id
    · rw [if_pos hid, hid]
      refine shows_setSession h.row ?_ h.dirty h.stored h.unsaved h.next
      show w.changes id = Function.update (w.sessions i).loaded id (w.changes id) id
      rw [Function.update_self]
    · rw [if_neg hid]
      exact shows_setSession h.row (h.loaded.trans (Function.update_of_ne (Ne.symm hid) _ _).symm)
        h.dirty h.stored h.unsaved h.next
  | flushChange row =>
    simp only [World.answer] at hw
    split at hw
    · obtain ⟨-, rfl⟩ := Prod.mk.inj (Option.some.inj hw)
      refine ⟨trivial, ?_⟩
      show Shows id i _ { (if row.id = id then { s with dirty := some row } else s) with trace := _ }
      by_cases hid : row.id = id
      · subst hid
        rw [if_pos rfl]
        refine shows_setSession h.row h.loaded ?_ h.stored h.unsaved h.next
        show some row = Function.update (w.sessions i).dirty row.id (some row) row.id
        rw [Function.update_self]
      · rw [if_neg hid]
        exact shows_setSession h.row h.loaded
          (h.dirty.trans (Function.update_of_ne (Ne.symm hid) _ _).symm) h.stored h.unsaved h.next
    · cases hw
  | insertSnapshot row =>
    obtain ⟨rfl, rfl⟩ := Prod.mk.inj (Option.some.inj hw)
    refine ⟨h.next.symm, shows_setSession h.row h.loaded h.dirty h.stored ?_ ?_⟩
    · show s.unsaved ++ _ = ((w.sessions i).newSnapshots ++ _).map _
      rw [h.unsaved, List.map_append]
      rfl
    · exact congrArg (· + 1) h.next
  | commit =>
    obtain ⟨-, rfl⟩ := Prod.mk.inj (Option.some.inj hw)
    refine ⟨trivial, shows_setSession ?_ h.loaded rfl ?_ rfl h.next⟩
    · -- the phase merges the row as the database does
      show World.mergeRow s.loaded s.dirty s.row = World.mergeRow _ _ _
      rw [h.row, h.loaded, h.dirty]
    · show s.stored ++ s.unsaved = (w.snapshots ++ (w.sessions i).newSnapshots).map _
      rw [h.stored, h.unsaved, List.map_append]
  | tryAdvisoryLock key =>
    -- nothing that the phase shows depends on the answer of the lock
    simp only [World.answer] at hw
    split at hw <;>
    · obtain ⟨-, rfl⟩ := Prod.mk.inj (Option.some.inj hw)
      exact ⟨trivial, shows_setSession h.row h.loaded h.dirty h.stored h.unsaved h.next⟩
  | insertChange row => exact hq.elim
  | closeSession => exact hq.elim
  | _ =>
    obtain ⟨-, rfl⟩ := Prod.mk.inj (Option.some.inj hw)
    exact ⟨trivial, shows_setSession h.row h.loaded h.dirty h.stored h.unsaved h.next⟩

/-! ### The trace -/

@[simp] theorem requests_append (t t' : Trace) :
    Trace.requests (t ++ t') = t.requests ++ t'.requests := List.filterMap_append

@[simp] theorem requests_request (device : DeviceId) (r : Request) (a : Answer) :
    Trace.requests [⟨.request device r, a⟩] = [(r, a)] := rfl

theorem requests_of_ne {q : Eff} (a : q.Ans) (hq : ∀ device r, q ≠ .request device r) :
    Trace.requests [⟨q, a⟩] = [] := by
  cases q with
  | request device r => exact absurd rfl (hq device r)
  | _ => rfl

theorem Trace.ReadFirst.append {t : Trace} {device : DeviceId} {xml : String}
    (h : t.ReadFirst device xml) (t' : Trace) : Trace.ReadFirst (t ++ t') device xml := by
  obtain ⟨t₁, t₂, rfl, hq⟩ := h
  exact ⟨t₁, t₂ ++ t', by simp, hq⟩

section Job

variable {env : Env} {id : ChangeId} {change : Change} {stored : List (SnapId × ByteArray)}
  {next : SnapId} {s : JobPhase}

/-- The row is loaded, and nothing was sent or saved. -/
structure Loaded (change : Change) (stored : List (SnapId × ByteArray)) (next : SnapId)
    (s : JobPhase) : Prop where
  row : s.row = some change
  loaded : s.loaded = some change
  stored : s.stored = stored
  unsaved : s.unsaved = []
  next : s.next = next
  quiet : s.trace.requests = []

/-- Where `apply_change` may leave the job. -/
structure Landed (env : Env) (change : Change) (stored : List (SnapId × ByteArray)) (next : SnapId)
    (s : JobPhase) (z : Except Raised Change) : Prop where
  row : s.row = some change
  loaded : s.loaded = some change
  ok : ∀ c, z = .ok c → s.trace.requests.Mutated →
    ¬ Strands change.kind change.payload s.trace.requests ∧ s.dirty = some c ∧
    (c.status = .applied ∨ c.status = .failed) ∧ c.preApplySnapshotId = some next ∧
    s.stored = stored ∧ ∃ xml,
      s.unsaved = [(next, env.encryptBytes (env.gzipCompress xml.toUTF8))] ∧
      s.trace.ReadFirst change.deviceId xml
  error : ∀ e, z = .error e → s.trace.requests.Mutated →
    Strands change.kind change.payload s.trace.requests ∧ change.status = .scheduled

theorem Loaded.landed (h : Loaded change stored next s) (z : Except Raised Change) :
    Landed env change stored next s z where
  row := h.row
  loaded := h.loaded
  ok c _ hm := by
    rw [h.quiet] at hm
    exact absurd hm not_mutated_nil
  error e _ hm := by
    rw [h.quiet] at hm
    exact absurd hm not_mutated_nil

theorem Loaded.ask (h : Loaded change stored next s) {q : Eff} {a : q.Ans}
    (hs : s.serve id q a = s) (hq : Trace.requests [⟨q, a⟩] = []) :
    Loaded change stored next ((jobView id).next s q a) := by
  constructor <;> simp [jobView, hs, hq, h.row, h.loaded, h.stored, h.unsaved, h.next, h.quiet]

/-- The configuration was read before anything was sent, and is saved as the
pre-apply snapshot. -/
structure Backed (env : Env) (change : Change) (stored : List (SnapId × ByteArray)) (next : SnapId)
    (xml : String) (s : JobPhase) : Prop where
  row : s.row = some change
  loaded : s.loaded = some change
  stored : s.stored = stored
  unsaved : s.unsaved = [(next, env.encryptBytes (env.gzipCompress xml.toUTF8))]
  read : s.trace.ReadFirst change.deviceId xml

theorem Backed.ask {xml : String} (h : Backed env change stored next xml s) {q : Eff} {a : q.Ans}
    (hs : s.serve id q a = s) : Backed env change stored next xml ((jobView id).next s q a) where
  row := by simp [jobView, hs, h.row]
  loaded := by simp [jobView, hs, h.loaded]
  stored := by simp [jobView, hs, h.stored]
  unsaved := by simp [jobView, hs, h.unsaved]
  read := h.read.append _

/-- What the guarded call of the applier leaves: a finished row, with a result that the column
takes, unless the payload and the answers strand it. -/
def Outcome (change c : Change) (s : JobPhase) (z : Except Raised Change) : Prop :=
  s.trace.requests.Mutated →
    (∀ c', z = .ok c' → c'.id = c.id ∧ (c'.status = .applied ∨ c'.status = .failed) ∧
      c'.preApplySnapshotId = c.preApplySnapshotId ∧
      (c'.result.storable = true ↔ ¬ Strands change.kind change.payload s.trace.requests)) ∧
    (∀ e, z = .error e → Strands change.kind change.payload s.trace.requests)

theorem applyFailure_storable {e : Raised} {result : Json} (h : applyFailure e = some result) :
    result.storable = true := by
  cases e <;> cases h <;> decide

theorem mergeRow_self (c new : Change) :
    ∃ row, World.mergeRow (some c) (some new) (some c) = some row ∧
      row.status = new.status ∧ row.preApplySnapshotId = new.preApplySnapshotId := by
  refine ⟨Change.patch c new c, rfl, ?_, ?_⟩
  · show overwrite c.status new.status c.status = new.status
    unfold overwrite
    split <;> simp_all
  · show overwrite _ _ _ = new.preApplySnapshotId
    unfold overwrite
    split <;> simp_all

/-- How the job ends once it has sent a mutating request: with a finished row
and its stored snapshot, or stranded with the row as it was. -/
def JobEnd (env : Env) (change : Change) (stored : List (SnapId × ByteArray)) (next : SnapId)
    {α : Type} (s : JobPhase) (_ : Except Raised α) : Prop :=
  s.trace.requests.Mutated →
    (¬ Strands change.kind change.payload s.trace.requests ∧ ∃ row xml, s.row = some row ∧
      (row.status = .applied ∨ row.status = .failed) ∧ row.preApplySnapshotId = some next ∧
      s.stored = stored ++ [(next, env.encryptBytes (env.gzipCompress xml.toUTF8))] ∧
      s.trace.ReadFirst change.deviceId xml) ∨
    (Strands change.kind change.payload s.trace.requests ∧ s.row = some change ∧
      change.status = .scheduled)

theorem Landed.commit {α : Type} {c : Change} {z : Except Raised α}
    (h : Landed env change stored next s (.ok c)) :
    JobEnd env change stored next ((jobView id).next s .commit ()) z := by
  have hreq : Trace.requests (s.trace ++ [⟨.commit, ()⟩]) = s.trace.requests := by
    simp [requests_of_ne]
  intro hm
  have hm : Wire.Mutated (Trace.requests (s.trace ++ [⟨.commit, ()⟩])) := hm
  rw [hreq] at hm
  obtain ⟨hno, hdirty, hst, hpre, hstored, xml, hunsaved, hread⟩ := h.ok c rfl hm
  obtain ⟨row, hrow, hst', hpre'⟩ := mergeRow_self change c
  refine .inl ⟨?_, row, xml, ?_, hst' ▸ hst, hpre'.trans hpre, ?_, hread.append _⟩
  · show ¬ Strands _ _ (Trace.requests (s.trace ++ [⟨.commit, ()⟩]))
    rw [hreq]
    exact hno
  · show World.mergeRow s.loaded s.dirty s.row = some row
    rw [h.loaded, hdirty, h.row, hrow]
  · show s.stored ++ s.unsaved = _
    rw [hstored, hunsaved]

theorem JobEnd.ask {α β : Type} {z : Except Raised α} {z' : Except Raised β}
    (h : JobEnd env change stored next s z) {q : Eff} {a : q.Ans} (hs : s.serve id q a = s)
    (hq : Trace.requests [⟨q, a⟩] = []) :
    JobEnd env change stored next ((jobView id).next s q a) z' := by
  have hreq : Trace.requests (s.trace ++ [⟨q, a⟩]) = s.trace.requests := by simp [hq]
  have hnext : (jobView id).next s q a = { s with trace := s.trace ++ [⟨q, a⟩] } := by
    simp [jobView, hs]
  rw [hnext]
  intro hm
  have hm : Wire.Mutated (Trace.requests (s.trace ++ [⟨q, a⟩])) := hm
  rw [hreq] at hm
  show (¬ Strands _ _ (Trace.requests (s.trace ++ [⟨q, a⟩])) ∧ _) ∨
    (Strands _ _ (Trace.requests (s.trace ++ [⟨q, a⟩])) ∧ _)
  rw [hreq]
  rcases h hm with ⟨hno, row, xml, hrow, hst, hpre, hstored, hread⟩ | hstuck
  · exact .inl ⟨hno, row, xml, hrow, hst, hpre, hstored, hread.append _⟩
  · exact .inr hstuck

end Job

/-! ### The condition -/

end Opngms
