/-
Opngms/SnapshotDrift.lean

What the snapshot endpoint says about drift (`config_drift`, `app/api/config.py`).

The endpoint counts: `changed_since_previous` is `len(rows) >= 2`.  That the
newest snapshot then differs from the one before it is left to the writers.
`backup_config` keeps its side: it stores nothing whose hash is the newest
one's.  `_save_pre_apply_snapshot` does not: every live apply stores the
configuration that it has read, and the staleness check makes that, as a rule,
the configuration of the newest snapshot.

`SavesApart` is the condition on one step: no transaction other than a backup
of the device commits a snapshot of it with the newest hash, and none commits
one while such a backup stands between its look at the newest hash and its own
commit.  In every run whose steps meet it the endpoint tells the truth:
**`changed_told`**, for every interleaving of requests, jobs and sweeps.
-/
import Mathlib.Data.List.Sort
import Opngms.Handlers
import Opngms.Schedule

namespace Opngms

open Dialogue

variable {Box : Type}

/-! ### The rows of a device -/

/-- A row among rows that stand newest first; before the rows of its own time. -/
def insertNewest (sorted : List Snapshot) (s : Snapshot) : List Snapshot :=
  sorted.orderedInsert (fun a b => b.takenAt ≤ a.takenAt) s

/-- `order_by(taken_at.desc())`, the row added last first among equals. -/
def newestFirst (rows : List Snapshot) : List Snapshot := rows.foldl insertNewest []

/-- `ConfigSnapshotRepository.list`; the rows of a device are its tenant's. -/
def World.snapshotsOf (w : World Box) (device : DeviceId) : List Snapshot :=
  newestFirst (w.snapshots.filter fun s => s.deviceId = device)

/-- The answer of `config_drift`. -/
structure DriftSummary where
  versionCount : Nat
  latestTakenAt : Option Time
  changedSincePrevious : Bool

/-- `config_drift`. -/
def World.configDrift (w : World Box) (device : DeviceId) : DriftSummary :=
  let rows := w.snapshotsOf device
  { versionCount := rows.length
    latestTakenAt := rows.head?.map Snapshot.takenAt
    changedSincePrevious := 2 ≤ rows.length }

/-- There are two snapshots, and the hashes of the two newest differ. -/
def NewestDiffer : List Snapshot → Prop
  | a :: b :: _ => a.canonicalHash ≠ b.canonicalHash
  | _ => False

/-- The endpoint says that the configuration changed exactly when it did. -/
def World.ChangedTold (w : World Box) (device : DeviceId) : Prop :=
  (w.configDrift device).changedSincePrevious = true ↔ NewestDiffer (w.snapshotsOf device)

/-- The newest snapshot, if there is another, has not its hash. -/
def Apart : List Snapshot → Prop
  | a :: b :: _ => a.canonicalHash ≠ b.canonicalHash
  | _ => True

theorem changedTold_iff (w : World Box) (device : DeviceId) :
    w.ChangedTold device ↔ Apart (w.snapshotsOf device) := by
  unfold World.ChangedTold World.configDrift
  match w.snapshotsOf device with
  | [] => simp [NewestDiffer, Apart]
  | [a] => simp [NewestDiffer, Apart]
  | a :: b :: rest => simp [NewestDiffer, Apart]

theorem Apart.insertNewest {rows : List Snapshot} {s : Snapshot} (h : Apart rows)
    (hs : ∀ last ∈ rows.head?, s.canonicalHash ≠ last.canonicalHash) :
    Apart (insertNewest rows s) := by
  unfold Opngms.insertNewest
  cases rows with
  | nil => trivial
  | cons a rest =>
    have ha : s.canonicalHash ≠ a.canonicalHash := hs a rfl
    rw [List.orderedInsert_cons]
    split
    · exact ha
    · cases rest with
      | nil => exact ha.symm
      | cons b rest =>
        rw [List.orderedInsert_cons]
        split
        · exact ha.symm
        · exact h

theorem snapshotsOf_append {w w' : World Box} {device : DeviceId} {new : List Snapshot}
    (h : w'.snapshots = w.snapshots ++ new) :
    w'.snapshotsOf device =
      (new.filter fun s => s.deviceId = device).foldl insertNewest (w.snapshotsOf device) := by
  unfold World.snapshotsOf newestFirst
  rw [h, List.filter_append, List.foldl_append]

theorem head_snapshotsOf (w : World Box) (device : DeviceId) :
    (w.snapshotsOf device).head? = w.latest device := by
  unfold World.snapshotsOf newestFirst World.latest
  generalize w.snapshots.filter (fun s => s.deviceId = device) = rows
  show _ = rows.foldl _ (List.head? [])
  refine (List.foldl_hom List.head? fun sorted s => ?_).symm
  cases sorted with
  | nil => rfl
  | cons a rest =>
    show (if a.takenAt ≤ s.takenAt then some s else some a) = (insertNewest (a :: rest) s).head?
    rw [insertNewest, List.orderedInsert_cons]
    split <;> rfl

/-! ### How a session saves -/

/-- What a session has saved and not committed, by device and hash, and what its last look at
the newest snapshot of the device showed. -/
structure Saving where
  looked : Option (Option String) := none
  unsaved : List (DeviceId × String) := []

/-- A session saves one snapshot a transaction.  A backup of the device saves only right after a
look at the newest one, whose hash it avoids, and commits at once. -/
def saves (device : DeviceId) (backup : Bool) : Discipline Eff Eff.Ans Saving where
  allows s
    | .commit => True
    | .insertSnapshot row => s.unsaved = [] ∧
      (backup = true → ∃ hash, s.looked = some hash ∧ hash ≠ some row.canonicalHash)
    | _ => backup = true → s.unsaved = []
  next s
    | .latestSnapshot d, last =>
      { s with looked :=
          if d = device then some ((last : Option Snapshot).map Snapshot.canonicalHash) else none }
    | .insertSnapshot row, _ =>
      { s with unsaved := s.unsaved ++ [(row.deviceId, row.canonicalHash)] }
    | .commit, _ | .closeSession, _ => {}
    | _, _ => { s with looked := none }

section Programs

variable {env : Env} {device : DeviceId} {backup : Bool} {s : Saving}

theorem follows_saves_of_asks {α : Type} {p : Program α} (h : Asks Eff.unsaving p)
    (hs : s.unsaved = []) :
    Follows (saves device backup) (fun s' _ => s'.unsaved = []) s p := by
  refine h.follows (I := fun s' : Saving => s'.unsaved = []) (fun s' q hs' hq => ?_)
    (fun s' q a hs' hq _ => ?_) hs
  · cases q <;> first | exact hq.elim | exact fun _ => hs' | trivial
  · cases q <;> first | exact hq.elim | exact hs' | rfl

theorem follows_saves_rest {α : Type} {p : Program α} (h : Asks Eff.unsaving p) :
    Follows (saves device false) (fun _ _ => True) s p := by
  refine h.follows (I := fun _ => True) (fun s' q _ hq => ?_) (fun _ _ _ _ _ _ => trivial) trivial
  cases q <;> first | exact hq.elim | trivial | exact fun h => absurd h Bool.false_ne_true

theorem follows_rollbackPoint_saves (hs : s.unsaved = []) (live : Bool) (change : Change)
    (xml : String) :
    Follows (saves device false) (fun _ _ => True) s (rollbackPoint env live change xml) := by
  cases live with
  | false => trivial
  | true => exact ⟨nofun, fun _ _ => ⟨⟨hs, fun h => absurd h Bool.false_ne_true⟩, fun _ _ => trivial⟩⟩

theorem follows_applyChange_saves (hs : s.unsaved = []) (change : Change) (client : DeviceId)
    (now : Time) :
    Follows (saves device false) (fun _ _ => True) s (applyChange env change client now) := by
  unfold applyChange
  split
  · trivial
  · refine ⟨nofun, fun got _ => ?_⟩
    cases got with
    | false => trivial
    | true =>
      show Follows _ _ _ ((readConfig env client).bind _)
      refine Follows.bind (follows_saves_of_asks (asks_readConfig client) (by exact hs))
        (fun s₁ r hs₁ => ?_) fun _ _ _ => trivial
      cases r with
      | none => exact ⟨nofun, fun _ _ => trivial⟩
      | some r =>
        show Follows _ _ _ (ite _ _ _)
        split
        · exact ⟨nofun, fun _ _ => trivial⟩
        · refine ⟨nofun, fun _ _ => ⟨nofun, fun row _ => ?_⟩⟩
          show Follows _ _ _ ((rollbackPoint env (row.getD env.livePushEnabled)
            { change with status := .applying } r.1).bind _)
          refine Follows.bind (follows_rollbackPoint_saves (by exact hs₁) _ _ _)
            (fun s₂ snapId _ => ?_) fun _ _ _ => trivial
          exact follows_saves_rest ((asks_applyGuarded client _ _ now).bind fun done =>
            (asks_flushResult done).bind fun _ => asks_pure done)

theorem follows_applyProfileSequence_saves (hs : s.unsaved = []) (changes : List Change)
    (client : DeviceId) (now : Time) :
    Follows (saves device false) (fun _ _ => True) s
      (applyProfileSequence env changes client now) := by
  unfold applyProfileSequence
  split
  · trivial
  · refine ⟨nofun, fun got _ => ?_⟩
    cases got with
    | false => trivial
    | true =>
      show Follows _ _ _ ((readConfig env client).bind _)
      refine Follows.bind (follows_saves_of_asks (asks_readConfig client) (by exact hs))
        (fun s₁ r hs₁ => ?_) fun _ _ _ => trivial
      cases r with
      | none => exact follows_saves_rest ((asks_flushAll _).bind fun _ => asks_pure _)
      | some r =>
        show Follows _ _ _ (ite _ _ _)
        split
        · exact follows_saves_rest ((asks_flushAll _).bind fun _ => asks_pure _)
        · refine ⟨nofun, fun row _ => ?_⟩
          show Follows _ _ _ ((rollbackPoint env (row.getD env.livePushEnabled) _ r.1).bind _)
          refine Follows.bind (follows_rollbackPoint_saves (by exact hs₁) _ _ _)
            (fun s₂ snapId _ => ?_) fun _ _ _ => trivial
          exact follows_saves_rest ((asks_applyMembers client _ _ now _ _).bind fun done =>
            (asks_flushResults _).bind fun _ => asks_pure _)

theorem follows_applyConfigChange_saves (hs : s.unsaved = []) (id : ChangeId) :
    Follows (saves device false) (fun _ _ => True) s (applyConfigChange env id) := by
  refine ⟨nofun, fun change _ => ?_⟩
  cases change with
  | none => trivial
  | some change =>
    refine ⟨nofun, fun d _ => ?_⟩
    cases d with
    | none => trivial
    | some d =>
      show Follows _ _ _ ((clientForDevice d).bind _)
      refine Follows.bind (follows_saves_of_asks (asks_clientForDevice d) (by exact hs))
        (fun s₁ _ hs₁ => ⟨nofun, fun now _ => ?_⟩) fun _ _ _ => trivial
      show Follows _ _ _ ((applyChange env change change.deviceId now).bind _)
      refine Follows.bind (follows_applyChange_saves (by exact hs₁) change change.deviceId now)
        (fun s₂ done _ => ?_) fun _ _ _ => trivial
      exact ⟨trivial, fun _ _ => ⟨nofun, fun _ _ => trivial⟩⟩

theorem follows_applyProfileChanges_saves (hs : s.unsaved = []) (ids : List ChangeId) :
    Follows (saves device false) (fun _ _ => True) s (applyProfileChanges env ids) := by
  refine Follows.bind (follows_saves_of_asks (asks_loadChanges ids) hs) (fun s₁ rows hs₁ => ?_)
    fun _ _ _ => trivial
  cases rows with
  | nil => trivial
  | cons first others =>
    refine ⟨nofun, fun d _ => ?_⟩
    cases d with
    | none => trivial
    | some d =>
      show Follows _ _ _ ((clientForDevice d).bind _)
      refine Follows.bind (follows_saves_of_asks (asks_clientForDevice d) (by exact hs₁))
        (fun s₂ _ hs₂ => ⟨nofun, fun now _ => ?_⟩) fun _ _ _ => trivial
      show Follows _ _ _ ((applyProfileSequence env (first :: others) first.deviceId now).bind _)
      refine Follows.bind (follows_applyProfileSequence_saves (by exact hs₂) _ first.deviceId now)
        (fun s₃ done _ => ?_) fun _ _ _ => trivial
      exact ⟨trivial, fun _ _ => ⟨nofun, fun _ _ => trivial⟩⟩

theorem follows_backupDeviceConfig_saves (hs : s.unsaved = []) {d : DeviceId}
    (hd : backup = true → d = device) :
    Follows (saves device backup) (fun _ _ => True) s (backupDeviceConfig env d) := by
  refine ⟨fun _ => hs, fun row _ => ?_⟩
  cases row with
  | none => trivial
  | some row =>
    show Follows _ _ _ ((clientForDevice row).bind _)
    refine Follows.bind (follows_saves_of_asks (asks_clientForDevice row) (by exact hs))
      (fun s₁ _ hs₁ => ?_) fun _ _ _ => trivial
    show Follows _ _ _ ((backupConfig env d row).bind _)
    refine Follows.bind (Z := fun _ _ => True) ?_ (fun s₂ _ _ => ⟨trivial, fun _ _ => trivial⟩)
      fun _ _ _ => trivial
    show Follows _ _ _ ((readConfig env d).bind _)
    refine Follows.bind (follows_saves_of_asks (asks_readConfig d) hs₁) (fun s₂ r hs₂ => ?_)
      fun _ _ _ => trivial
    cases r with
    | none => trivial
    | some r =>
      refine ⟨fun _ => hs₂, fun last _ => ?_⟩
      show Follows _ _ _ (ite _ _ _)
      split
      · trivial
      · rename_i hne
        refine ⟨⟨hs₂, fun hb => ⟨_, if_pos (hd hb), hne⟩⟩, fun _ _ => trivial⟩

theorem follows_opens_saves {queue queue' : List (Job × Option Time)} {e : Event} {i : Nat}
    {task : Task} {t : Program Unit} (h : Opens env queue e i task t queue') :
    Follows (saves device (decide (task = .job (.backupDeviceConfig device)))) (fun _ _ => True)
      {} t := by
  cases h with
  | call i c =>
    exact (follows_saves_of_asks (c.asks_program.mono fun _ => Eff.ofHandler.unsaving) rfl).mono
      fun _ _ _ => trivial
  | sweep i =>
    exact (follows_saves_of_asks (asks_sweepOrphanedActions.bind fun _ => asks_pure _) rfl).mono
      fun _ _ _ => trivial
  | @job i n job d hn =>
    cases job with
    | applyConfigChange id =>
      exact Follows.bind (follows_applyConfigChange_saves rfl id) (fun _ _ _ => trivial)
        fun _ _ _ => trivial
    | applyProfileChanges ids =>
      exact Follows.bind (follows_applyProfileChanges_saves rfl ids) (fun _ _ _ => trivial)
        fun _ _ _ => trivial
    | backupDeviceConfig d =>
      refine Follows.bind (follows_backupDeviceConfig_saves rfl fun hb => ?_) (fun _ _ _ => trivial)
        fun _ _ _ => trivial
      simpa using hb

end Programs

/-! ### The condition -/

/-- The next effect of the program saves a snapshot. -/
def savesNext : Program Unit → Bool
  | .ask (.insertSnapshot _) _ => true
  | _ => false

/-- The session is a backup of the device. -/
def Session.isBackup (device : DeviceId) (sess : Session) : Bool :=
  sess.task = .job (.backupDeviceConfig device)

/-- Session `j` is a backup of the device between its look at the newest snapshot, which it has
found outdated, and its commit. -/
def Sys.deciding (device : DeviceId) (sys : Sys Box) (j : Nat) : Bool :=
  (sys.world.sessions j).isBackup device &&
    ((sys.threads j).any savesNext || !(sys.world.sessions j).newSnapshots.isEmpty)

/-- The condition on one step. -/
structure SavesApart (device : DeviceId) (sys : Sys Box) (e : Event) : Prop where
  /-- Whoever does not compare commits no snapshot with the newest hash. -/
  other : ∀ i ∈ sys.committing e, (sys.world.sessions i).isBackup device = false →
    ∀ s ∈ (sys.world.sessions i).newSnapshots, s.deviceId = device →
    ∀ last, sys.world.latest device = some last → s.canonicalHash ≠ last.canonicalHash
  /-- No backup that has compared is overtaken. -/
  alone : ∀ i ∈ sys.committing e,
    (∃ s ∈ (sys.world.sessions i).newSnapshots, s.deviceId = device) →
    ∀ j, j ≠ i → sys.deciding device j = false

/-! ### Steps -/

def World.newestHash (w : World Box) (device : DeviceId) : Option String :=
  (w.latest device).map Snapshot.canonicalHash

/-- What the phase of a session shows: what it saved, and, of a backup about to save or to
commit, that its look still holds. -/
structure Sees (device : DeviceId) (newest : Option String) (sess : Session) (t : Program Unit)
    (s : Saving) : Prop where
  unsaved : s.unsaved = sess.newSnapshots.map fun x => (x.deviceId, x.canonicalHash)
  one : s.unsaved.length ≤ 1
  looked : sess.isBackup device = true → s.unsaved ≠ [] ∨ savesNext t = true → s.looked = some newest
  avoids : sess.isBackup device = true →
    ∀ x ∈ s.unsaved, ∀ hash, s.looked = some hash → hash ≠ some x.2

section Steps

variable {env : Env} {B : BoxModel Box} {device : DeviceId} {sys sys' : Sys Box} {e : Event}
  {Z : Saving → Except Raised Unit → Prop} {s : Saving} {newest newest' : Option String}
  {sess : Session} {t : Program Unit}

theorem looked_of_savesNext (hf : Follows (saves device true) Z s t) (ht : savesNext t = true) :
    ∃ hash, s.looked = some hash := by
  cases t with
  | pure _ => cases ht
  | raise _ => cases ht
  | ask q k =>
    cases q with
    | insertSnapshot row =>
      obtain ⟨hash, hl, -⟩ := hf.1.2 rfl
      exact ⟨hash, hl⟩
    | _ => cases ht

theorem sees_of_unlooked (hnew : sess.newSnapshots = [])
    (hf : Follows (saves device (sess.isBackup device)) Z
      { looked := none } t) : Sees device newest sess t { looked := none } where
  unsaved := by rw [hnew]; rfl
  one := Nat.zero_le _
  looked hb h := by
    rw [hb] at hf
    rcases h with h | h
    · exact absurd rfl h
    · obtain ⟨hash, hl⟩ := looked_of_savesNext hf h
      cases hl
  avoids _ x hx := nomatch hx

theorem Sees.after {q : Eff} {k : q.Ans → Program Unit} {a : q.Ans}
    (h : Sees device newest sess (.ask q k) s)
    (hf : Follows (saves device (sess.isBackup device)) Z s
      (.ask q k))
    (hlook : ∀ last : Option Snapshot, (⟨q, a⟩ : Exchange Eff Eff.Ans) =
      ⟨.latestSnapshot device, last⟩ → last.map Snapshot.canonicalHash = newest)
    (hnewest : q ≠ .commit → newest' = newest) :
    Sees device newest' (sess.after q a) (k a)
      ((saves device (sess.isBackup device)).next s q a) := by
  have htask : (sess.after q a).isBackup device = sess.isBackup device := by
    rw [Session.isBackup, sess.after_task]
    rfl
  have hk := hf.2 a trivial
  -- effects that save nothing and look at nothing
  have hquiet : ∀ s' : Saving, s'.unsaved = s.unsaved → s'.looked = none →
      (sess.after q a).newSnapshots = sess.newSnapshots →
      (sess.isBackup device = true → s.unsaved = []) →
      Follows (saves device (sess.isBackup device)) Z s' (k a) →
      Sees device newest' (sess.after q a) (k a) s' := by
    intro s' hun hl hnew hempty hk
    refine ⟨by rw [hun, hnew, h.unsaved], hun ▸ h.one, fun hb hor => ?_, fun hb x hx => ?_⟩
    · rw [htask] at hb
      rw [hb] at hk
      rcases hor with hne | hnext
      · exact absurd (hun.trans (hempty hb)) hne
      · obtain ⟨hash, hh⟩ := looked_of_savesNext hk hnext
        rw [hl] at hh
        cases hh
    · rw [htask] at hb
      rw [hun, hempty hb] at hx
      cases hx
  cases q with
  | commit => exact sees_of_unlooked rfl (by rw [htask]; exact hk)
  | closeSession => exact sees_of_unlooked rfl (by rw [htask]; exact hk)
  | insertSnapshot row =>
    -- a backup saves only a hash that differs from the one it looked at
    obtain ⟨hempty, havoid⟩ := hf.1
    have hnew : sess.newSnapshots = [] := by
      have := h.unsaved
      rw [hempty] at this
      exact List.map_eq_nil_iff.mp this.symm
    refine ⟨?_, ?_, fun hb _ => ?_, fun hb x hx hash hl => ?_⟩
    · show s.unsaved ++ _ = (sess.newSnapshots ++ _).map _
      rw [hempty, hnew]
      rfl
    · show (s.unsaved ++ _).length ≤ 1
      rw [hempty]
      exact le_rfl
    · rw [hnewest nofun]
      exact h.looked (htask.symm.trans hb) (.inr rfl)
    · have hx : x ∈ s.unsaved ++ [(row.deviceId, row.canonicalHash)] := hx
      rw [hempty] at hx
      obtain rfl := List.mem_singleton.mp hx
      obtain ⟨hash', hl', hne⟩ := havoid (htask.symm.trans hb)
      have hl : s.looked = some hash := hl
      obtain rfl := Option.some.inj (hl'.symm.trans hl)
      exact hne
  | latestSnapshot d =>
    -- the look shows the newest hash, if it is at this device
    by_cases hd : d = device
    · subst hd
      refine ⟨h.unsaved, h.one, fun hb _ => ?_, fun hb x hx => ?_⟩
      · rw [hnewest nofun, ← hlook a rfl]
        exact if_pos rfl
      · have hempty := hf.1 (htask.symm.trans hb)
        have hx : x ∈ s.unsaved := hx
        rw [hempty] at hx
        cases hx
    · exact hquiet _ rfl (if_neg hd) rfl (fun hb => hf.1 hb) hk
  | _ => exact hquiet _ rfl rfl rfl (fun hb => hf.1 hb) hk

/-- The session, at the program `t`, saves as it should. -/
def SavesWell (device : DeviceId) (newest : Option String) (sess : Session) (t : Program Unit) :
    Prop :=
  ∃ s : Saving, Follows (saves device (sess.isBackup device)) (fun _ _ => True) s t ∧
    Sees device newest sess t s

/-- The two newest snapshots are apart, and every session saves as it should. -/
structure SavingInv (device : DeviceId) (sys : Sys Box) : Prop where
  apart : Apart (sys.world.snapshotsOf device)
  sessions : ∀ i t, sys.threads i = some t →
    SavesWell device (sys.world.newestHash device) (sys.world.sessions i) t

theorem answer_snapshots {i : Nat} {w w' : World Box} {q : Eff} {a : q.Ans}
    (h : w.answer B i q = some (a, w')) (hq : q ≠ .commit) : w'.snapshots = w.snapshots := by
  cases q with
  | tryAdvisoryLock key =>
    simp only [World.answer] at h
    split at h <;> (obtain ⟨-, rfl⟩ := Prod.mk.inj (Option.some.inj h); rfl)
  | flushChange row =>
    simp only [World.answer] at h
    split at h
    · obtain ⟨-, rfl⟩ := Prod.mk.inj (Option.some.inj h); rfl
    · cases h
  | commit => exact absurd rfl hq
  | _ =>
    obtain ⟨-, rfl⟩ := Prod.mk.inj (Option.some.inj h)
    rfl

theorem snapshotsOf_commit (w : World Box) (i : Nat)
    (hone : (w.sessions i).newSnapshots.length ≤ 1) :
    ((∀ s ∈ (w.sessions i).newSnapshots, s.deviceId ≠ device) ∧
      (w.commit i).snapshotsOf device = w.snapshotsOf device) ∨
    ∃ s, (w.sessions i).newSnapshots = [s] ∧ s.deviceId = device ∧
      (w.commit i).snapshotsOf device = insertNewest (w.snapshotsOf device) s := by
  have happ : (w.commit i).snapshotsOf device = ((w.sessions i).newSnapshots.filter fun s =>
      s.deviceId = device).foldl insertNewest (w.snapshotsOf device) := snapshotsOf_append rfl
  match hnew : (w.sessions i).newSnapshots, hone with
  | [], _ =>
    rw [hnew] at happ
    exact .inl ⟨nofun, happ⟩
  | [s], _ =>
    rw [hnew] at happ
    by_cases hs : s.deviceId = device
    · rw [List.filter_cons_of_pos (by simpa using hs)] at happ
      exact .inr ⟨s, rfl, hs, happ⟩
    · rw [List.filter_cons_of_neg (by simpa using hs)] at happ
      refine .inl ⟨fun x hx => ?_, happ⟩
      obtain rfl := List.mem_singleton.mp hx
      exact hs

theorem newestHash_eq (w : World Box) :
    w.newestHash device = ((w.snapshotsOf device).head?).map Snapshot.canonicalHash := by
  rw [head_snapshotsOf]
  rfl

theorem Sees.savesWell {q : Eff} {k : q.Ans → Program Unit} {a : q.Ans}
    (h : Sees device newest sess (.ask q k) s)
    (hf : Follows (saves device (sess.isBackup device)) (fun _ _ => True) s (.ask q k))
    (hlook : ∀ last : Option Snapshot, (⟨q, a⟩ : Exchange Eff Eff.Ans) =
      ⟨.latestSnapshot device, last⟩ → last.map Snapshot.canonicalHash = newest)
    (hnewest : q ≠ .commit → newest' = newest) :
    SavesWell device newest' (sess.after q a) (k a) := by
  refine ⟨_, ?_, h.after hf hlook hnewest⟩
  rw [Session.isBackup, sess.after_task]
  exact hf.2 a trivial

theorem SavingInv.other (h : SavingInv device sys) {j : Nat} {u : Program Unit}
    (hj : sys.threads j = some u)
    (hnewest : sys.deciding device j = true → newest = sys.world.newestHash device) :
    SavesWell device newest (sys.world.sessions j) u := by
  obtain ⟨s, hf, hs⟩ := h.sessions j u hj
  refine ⟨s, hf, hs.unsaved, hs.one, fun hb hor => ?_, hs.avoids⟩
  rw [hnewest, hs.looked hb hor]
  -- it is about to save or has saved
  rw [Sys.deciding, hb, Bool.true_and, Bool.or_eq_true]
  refine hor.symm.imp (fun hnext => ?_) fun hne => ?_
  · rw [hj]
    exact hnext
  · have hne' : (sys.world.sessions j).newSnapshots ≠ [] := fun he =>
      hne (by rw [hs.unsaved, he]; rfl)
    simpa using hne'

theorem SavingInv.sessions_set (h : SavingInv device sys) {w : World Box} {i : Nat}
    {sess : Session} {t : Option (Program Unit)} (hw : w.sessions = sys.world.sessions)
    (hown : ∀ u, t = some u → SavesWell device newest sess u)
    (hnewest : ∀ j, j ≠ i → sys.deciding device j = true →
      newest = sys.world.newestHash device) (j : Nat) (u : Program Unit)
    (hu : Function.update sys.threads i t j = some u) :
    SavesWell device newest ((w.setSession i sess).sessions j) u := by
  rw [World.setSession_sessions]
  by_cases hji : j = i
  · subst hji
    rw [Function.update_self] at hu ⊢
    exact hown u hu
  · rw [Function.update_of_ne hji] at hu ⊢
    rw [hw]
    exact h.other hu (hnewest j hji)

theorem SavingInv.commit (h : SavingInv device sys) {i : Nat} {k : Unit → Program Unit}
    (hkeep : SavesApart device sys (.run i)) (ht : sys.threads i = some (.ask .commit k)) :
    Apart ((sys.world.commit i).snapshotsOf device) ∧ ∀ j, j ≠ i → sys.deciding device j = true →
      (sys.world.commit i).newestHash device = sys.world.newestHash device := by
  obtain ⟨s, hf, hs⟩ := h.sessions i _ ht
  have hcom : i ∈ sys.committing (.run i) := by simp [Sys.committing, ht]
  have hlen : (sys.world.sessions i).newSnapshots.length ≤ 1 := by
    have hone := hs.one
    rwa [hs.unsaved, List.length_map] at hone
  have hrows : _ ∨ ∃ x, _ ∧ _ ∧ (sys.world.commit i).snapshotsOf device = _ :=
    snapshotsOf_commit sys.world i hlen
  rcases hrows with ⟨-, hrows⟩ | ⟨x, hx, hdev, hrows⟩
  · refine ⟨?_, fun _ _ _ => ?_⟩
    · rw [hrows]
      exact h.apart
    · rw [newestHash_eq, hrows, ← newestHash_eq]
  · have hmem : x ∈ (sys.world.sessions i).newSnapshots := by
      rw [hx]
      exact List.mem_singleton_self x
    refine ⟨?_, fun j hji hdec => ?_⟩
    · rw [hrows]
      refine h.apart.insertNewest fun last hlast => ?_
      rw [head_snapshotsOf] at hlast
      by_cases hb : (sys.world.sessions i).isBackup device = true
      · -- a backup has compared with the newest hash
        have hunsaved : (x.deviceId, x.canonicalHash) ∈ s.unsaved := by
          rw [hs.unsaved, hx]
          exact List.mem_singleton_self _
        have hl := hs.looked hb (.inl (List.ne_nil_of_mem hunsaved))
        have hne := hs.avoids hb _ hunsaved _ hl
        intro he
        refine hne ?_
        rw [World.newestHash, Option.mem_def.mp hlast, he]
        rfl
      · exact hkeep.other i hcom (Bool.eq_false_iff.mpr hb) x hmem hdev last hlast
    · rw [hkeep.alone i hcom ⟨x, hmem, hdev⟩ j hji] at hdec
      cases hdec

theorem SavingInv.step (h : SavingInv device sys) (hkeep : SavesApart device sys e)
    (hstep : sys.step env B e = some sys') : SavingInv device sys' := by
  cases Sys.step_moves hstep with
  | passed => exact ⟨h.apart, h.sessions⟩
  | @opened _ i task t queue hfree ho =>
    refine ⟨h.apart, h.sessions_set (w := { sys.world with queue }) rfl (fun u hu => ?_)
      fun _ _ _ => rfl⟩
    obtain rfl := Option.some.inj hu
    have hf := @follows_opens_saves _ device _ _ _ _ _ _ ho
    exact ⟨{}, hf, sees_of_unlooked rfl hf⟩
  | @ended i t ht hend =>
    exact ⟨h.apart, h.sessions_set (w := sys.world.rollback i) rfl nofun fun _ _ _ => rfl⟩
  | @served i q k a w ht hw =>
    obtain ⟨s, hf, hs⟩ := h.sessions i _ ht
    have hown : ∀ newest', (q ≠ .commit → newest' = sys.world.newestHash device) →
        ∀ u, some (k a) = some u →
          SavesWell device newest' ((sys.world.sessions i).after q a) u := by
      intro newest' hnew u hu
      obtain rfl := Option.some.inj hu
      refine hs.savesWell hf (fun last he => ?_) hnew
      cases he
      obtain ⟨rfl, -⟩ := Prod.mk.inj (Option.some.inj hw)
      rfl
    by_cases hq : q = .commit
    · subst hq
      obtain ⟨-, rfl⟩ := Prod.mk.inj (Option.some.inj hw)
      obtain ⟨hapart, hothers⟩ := h.commit hkeep ht
      exact ⟨hapart, h.sessions_set rfl (hown _ fun hne => absurd rfl hne) hothers⟩
    · have hrows : w.snapshotsOf device = sys.world.snapshotsOf device := by
        rw [World.snapshotsOf, answer_snapshots hw hq]
        rfl
      have hnewest : w.newestHash device = sys.world.newestHash device := by
        rw [newestHash_eq, newestHash_eq, hrows]
      refine ⟨?_, h.sessions_set (World.answer_sessions hw) (hown _ fun _ => hnewest)
        fun _ _ _ => hnewest⟩
      show Apart (w.snapshotsOf device)
      rw [hrows]
      exact h.apart

end Steps

/-! ### Runs -/

/-- **The endpoint says that the configuration changed exactly when the two newest snapshots
differ**, in every state of every run in which no transaction other than a backup commits a
snapshot with the newest hash, and no backup that has compared is overtaken. -/
theorem changed_told (env : Env) (B : BoxModel Box) (device : DeviceId) {init last : Sys Box}
    {es : List Event} (hrest : ∀ i, init.threads i = none) (h₀ : init.world.ChangedTold device)
    (hkeep : Along (Sys.step env B) (SavesApart device) init es)
    (hrun : runAll (Sys.step env B) init es = some last) : last.world.ChangedTold device := by
  have hinit : SavingInv device init := by
    refine ⟨(changedTold_iff _ _).mp h₀, fun i t ht => ?_⟩
    rw [hrest i] at ht
    cases ht
  have hlast : SavingInv device last :=
    runAll_invariant (fun _ _ _ h hk hs => h.step hk hs) hinit hkeep hrun
  exact (changedTold_iff _ _).mpr hlast.apart

/-- A world with a device, its box, no snapshot yet, a draft that adds the alias `web`, and a
backup in the queue. -/
def backupDue : Sys Bool where
  world := { restingWorld [webDraft] [] false with queue := [(.backupDeviceConfig 1, none)] }
  threads _ := none

/-- The draft is scheduled and applied; then the daily backup runs, and the one that the apply
has enqueued. -/
def appliedThenBackedUp : List Event :=
  .call 1 (.scheduleConfigChange 0 1 1 none) :: steps 1 5 ++ .dequeue 2 1 :: steps 2 16 ++
  .tick :: .dequeue 3 0 :: steps 3 6 ++ .tick :: .dequeue 4 0 :: steps 4 5

/-- `SavesApart` as it can be evaluated where only the sessions below `n` are in use. -/
def savesApartBelow (n : Nat) (device : DeviceId) (sys : Sys Box) (e : Event) : Prop :=
  ∀ i ∈ sys.committing e,
    ((sys.world.sessions i).isBackup device = false →
      ∀ s ∈ (sys.world.sessions i).newSnapshots, s.deviceId = device →
      ∀ last ∈ sys.world.latest device, s.canonicalHash ≠ last.canonicalHash) ∧
    ((∃ s ∈ (sys.world.sessions i).newSnapshots, s.deviceId = device) →
      ∀ j < n, j ≠ i → sys.deciding device j = false)

instance (n : Nat) (device : DeviceId) (sys : Sys Box) (e : Event) :
    Decidable (savesApartBelow n device sys e) :=
  inferInstanceAs (Decidable (∀ i ∈ sys.committing e, _ ∧ _))

theorem savesApart_of_below {n : Nat} {device : DeviceId} {sys : Sys Box} {e : Event}
    (hrest : ∀ j, n ≤ j → sys.world.sessions j = {}) (h : savesApartBelow n device sys e) :
    SavesApart device sys e where
  other i hi hb s hs hdev last hlast := (h i hi).1 hb s hs hdev last hlast
  alone i hi hs j hji := by
    rcases Nat.lt_or_ge j n with hj | hj
    · exact (h i hi).2 hs j hj hji
    · rw [Sys.deciding, hrest j hj]
      rfl

/-- The backup stores what the apply has made of the configuration: two snapshots that differ,
and a third is not stored. -/
theorem appliedThenBackedUp_told :
    ∃ last, runAll (Sys.step webEnv webBox) backupDue appliedThenBackedUp = some last ∧
      (last.world.configDrift 1).versionCount = 2 ∧ last.world.ChangedTold 1 := by
  have hcount : (runAll (Sys.step webEnv webBox) backupDue appliedThenBackedUp).map
      (fun s => (s.world.configDrift 1).versionCount) = some 2 := by decide +kernel
  obtain ⟨last, hrun, htwo⟩ := Option.map_eq_some_iff.mp hcount
  have hbelow : Along (Sys.step webEnv webBox) (savesApartBelow 5 1) backupDue
      appliedThenBackedUp := by decide +kernel
  refine ⟨last, hrun, htwo, changed_told webEnv webBox 1 (fun _ => rfl) ?_ ?_ hrun⟩
  · exact (changedTold_iff _ _).mpr trivial
  · exact along_of_below 5 (fun _ => {}) (fun s e hrest h => savesApart_of_below hrest h)
      (fun _ _ => rfl) (by decide) hbelow

/-- The daily backup runs; then the draft is scheduled and applied. -/
def backedUpThenApplied : List Event :=
  .dequeue 1 0 :: steps 1 6 ++ .tick :: .call 2 (.scheduleConfigChange 0 1 1 none) :: steps 2 5 ++
  .dequeue 3 0 :: steps 3 16

/-- The pre-apply snapshot repeats the snapshot of the backup, and the endpoint says that the
configuration has changed. -/
theorem backedUpThenApplied_untold :
    ¬ ∀ last, runAll (Sys.step webEnv webBox) backupDue backedUpThenApplied = some last →
      last.world.ChangedTold 1 := by
  intro h
  have hrows : (runAll (Sys.step webEnv webBox) backupDue backedUpThenApplied).map (fun s =>
      (s.world.snapshotsOf 1).map fun a => (a.canonicalHash, a.takenAt)) =
      some [("095c6c6552b486ae9786f2683d1e71230128c6bb275d87ea7ed6d1442f856482", 1),
        ("095c6c6552b486ae9786f2683d1e71230128c6bb275d87ea7ed6d1442f856482", 0)] := by
    decide +kernel
  obtain ⟨last, hrun, htwo⟩ := Option.map_eq_some_iff.mp hrows
  have htold := (changedTold_iff _ _).mp (h last hrun)
  cases hsnap : last.world.snapshotsOf 1 with
  | nil =>
    rw [hsnap] at htwo
    cases htwo
  | cons a rest =>
    cases rest with
    | nil =>
      rw [hsnap] at htwo
      cases (List.cons.inj htwo).2
    | cons b rest =>
      rw [hsnap] at htwo htold
      obtain ⟨ha, hrest⟩ := List.cons.inj htwo
      obtain ⟨hb, -⟩ := List.cons.inj hrest
      exact htold ((Prod.mk.inj ha).1.trans (Prod.mk.inj hb).1.symm)

end Opngms
