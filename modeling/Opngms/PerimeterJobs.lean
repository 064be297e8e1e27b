/-
Opngms/PerimeterJobs.lean

Jobs `ingest_device_events` that overlap on one device, as far as they ingest the
perimeter.

A job reads the cursor of a kind, fetches, upserts the row of each address,
advances the cursor, goes on to the next kind, and commits.  An upsert locks its
row until the end of the transaction and adds to what is committed there; the
cursor is read without a lock.  So two jobs that read the same cursor count the
same observations twice, and the one that commits last sets the cursor, be it
older or not (`overlap_not_exact`).

The counts are exact in every run in which each line has a date, and each job
finds the cursors of the kinds it accepted rows of where it read them when it
commits (**`perimeter_exact`**).
-/
import Opngms.Perimeter

namespace Opngms

namespace Perimeter

open Ingest (newerThan Reached not_newerThan newerThan_iff)

/-! ### Jobs -/

/-- Where a job is: before it reads the cursor of the next kind, before it
fetches the kind, or between its writes. -/
inductive JobPhase where
  | read (todo : List Kind)
  | fetch (kind : Kind) (todo : List Kind)
  | write (kind : Kind) (groups : List (String × List Seen)) (newTime : Time) (todo : List Kind)

namespace JobPhase

def todo : JobPhase → List Kind
  | read todo => todo
  | fetch kind todo => kind :: todo
  | write _ _ _ todo => todo

/-- The groups of a kind that are still to be written. -/
def groups : JobPhase → Kind → List (String × List Seen)
  | write kind groups _ _, k => if k = kind then groups else []
  | _, _ => []

/-- The kind whose cursor is still to be written, and its new time. -/
def writing : JobPhase → Option (Kind × Time)
  | write kind _ newTime _ => some (kind, newTime)
  | _ => none

end JobPhase

/-- A job with its uncommitted writes; `accepted` is what it accepted of each
kind. -/
structure PerimeterJob where
  phase : JobPhase
  sinces : Kind → Option Time
  own : AttackerTable
  ownCursors : Kind → Option Time
  accepted : Kind → List Seen

def PerimeterJob.new : PerimeterJob :=
  ⟨.read kinds, fun _ => none, ⟨[], List.nodup_nil⟩, fun _ => none, fun _ => []⟩

/-- The device with its logs, what is committed, the locks, and the jobs;
`accepted` is what the committed jobs accepted. -/
structure Overlap where
  log : Kind → List Observation
  table : AttackerTable
  cursors : Kind → Option Time
  rowLocks : Kind → String → Option Nat
  cursorLocks : Kind → Option Nat
  jobs : Nat → Option PerimeterJob
  accepted : Kind → List Seen

/-- A line is written to a log, or job `i` takes a step: `fetch` with what the
clock reads and the lines that the box shows, `unavailable` where it does not
answer, `abort` where the job fails and its writes are rolled back. -/
inductive OverlapEvent where
  | append (kind : Kind) (o : Observation)
  | start (i : Nat)
  | read (i : Nat)
  | fetch (i : Nat) (now : Time) (visible : Observation → Bool)
  | unavailable (i : Nat)
  | upsert (i : Nat)
  | advance (i : Nat)
  | commit (i : Nat)
  | abort (i : Nat)

namespace Overlap

def init : Overlap :=
  ⟨fun _ => [], ⟨[], List.nodup_nil⟩, fun _ => none, fun _ _ => none, fun _ => none, fun _ => none,
    fun _ => []⟩

def setJob (s : Overlap) (i : Nat) (j : Option PerimeterJob) : Overlap :=
  { s with jobs := Function.update s.jobs i j }

def lockRow (s : Overlap) (kind : Kind) (ip : String) (i : Nat) : Overlap :=
  { s with
    rowLocks := Function.update s.rowLocks kind
      (Function.update (s.rowLocks kind) ip (some i)) }

def lockCursor (s : Overlap) (kind : Kind) (i : Nat) : Overlap :=
  { s with cursorLocks := Function.update s.cursorLocks kind (some i) }

/-- The job is gone, and its locks with it. -/
def endJob (s : Overlap) (i : Nat) : Overlap :=
  { s with
    jobs := Function.update s.jobs i none
    rowLocks := fun kind ip => if s.rowLocks kind ip = some i then none else s.rowLocks kind ip
    cursorLocks := fun kind => if s.cursorLocks kind = some i then none else s.cursorLocks kind }

/-- The lock is free for job `i`. -/
def free (lock : Option Nat) (i : Nat) : Prop := ∀ i' ∈ lock, i' = i

instance (lock : Option Nat) (i : Nat) : Decidable (free lock i) :=
  inferInstanceAs (Decidable (∀ i' ∈ lock, _))

def fetched (s : Overlap) (kind : Kind) (now : Time) (visible : Observation → Bool) : List Seen :=
  ((s.log kind).filter visible).map (Observation.seenAt now)

variable (deviceId : DeviceId) (device : Device)

/-- One step; `none` where it is not enabled: the job is not there, is somewhere
else, or has to wait for a lock. -/
def step (s : Overlap) : OverlapEvent → Option Overlap
  | .append kind o =>
    -- `id` tells the lines of a log apart
    if o.id ∈ (s.log kind).map (·.id) then none
    else some { s with log := Function.update s.log kind (s.log kind ++ [o]) }
  | .start i =>
    match s.jobs i with
    | none => some (s.setJob i (some .new))
    | some _ => none
  | .read i =>
    match s.jobs i with
    | some ⟨.read (kind :: todo), sinces, own, ownCursors, accepted⟩ =>
      some (s.setJob i (some ⟨.fetch kind todo, Function.update sinces kind (s.cursors kind), own,
        ownCursors, accepted⟩))
    | _ => none
  | .fetch i now visible =>
    match s.jobs i with
    | some ⟨.fetch kind todo, sinces, own, ownCursors, accepted⟩ =>
      let rows := accept (sinces kind) (s.fetched kind now visible)
      some (s.setJob i (some
        ⟨if rows.isEmpty then .read todo else .write kind (byIp rows) (newest rows) todo, sinces,
          own, ownCursors, Function.update accepted kind rows⟩))
    | _ => none
  | .unavailable i =>
    match s.jobs i with
    | some ⟨.fetch _ todo, sinces, own, ownCursors, accepted⟩ =>
      some (s.setJob i (some ⟨.read todo, sinces, own, ownCursors, accepted⟩))
    | _ => none
  | .upsert i =>
    match s.jobs i with
    | some ⟨.write kind (g :: groups) newTime todo, sinces, own, ownCursors, accepted⟩ =>
      if free (s.rowLocks kind g.1) i then
        let key := (deviceId, kind, g.1)
        let row := upsertRow deviceId device kind g.1 g.2 ((own.find key).or (s.table.find key))
        some ((s.lockRow kind g.1 i).setJob i
          (some ⟨.write kind groups newTime todo, sinces, own.put row, ownCursors, accepted⟩))
      else none
    | _ => none
  | .advance i =>
    match s.jobs i with
    | some ⟨.write kind [] newTime todo, sinces, own, ownCursors, accepted⟩ =>
      if free (s.cursorLocks kind) i then
        some ((s.lockCursor kind i).setJob i
          (some ⟨.read todo, sinces, own, Function.update ownCursors kind (some newTime), accepted⟩))
      else none
    | _ => none
  | .commit i =>
    match s.jobs i with
    | some ⟨.read [], _, own, ownCursors, accepted⟩ =>
      some { s.endJob i with
        table := own.rows.foldl AttackerTable.put s.table
        cursors := fun kind => (ownCursors kind).or (s.cursors kind)
        accepted := fun kind => s.accepted kind ++ accepted kind }
    | _ => none
  | .abort i =>
    match s.jobs i with
    | some _ => some (s.endJob i)
    | none => none

/-- How often the address was seen, as the rollup has it. -/
def count (s : Overlap) (kind : Kind) (ip : String) : Nat :=
  ((s.table.find (deviceId, kind, ip)).map (·.count)).getD 0

/-- The counts are the numbers of distinct lines that were accepted, and no line
was accepted twice. -/
def Exact (s : Overlap) : Prop :=
  ∀ kind, ((s.accepted kind).map (·.obs.id)).Nodup ∧
    ∀ ip, s.count deviceId kind ip =
      (((s.accepted kind).filter fun r => r.obs.srcIp = ip).map (·.obs.id)).dedup.length

/-- The step moves no cursor back. -/
def CursorsKept (s : Overlap) (e : OverlapEvent) : Prop :=
  ∀ s', s.step deviceId device e = some s' →
    ∀ kind t, Reached (s.cursors kind) t → Reached (s'.cursors kind) t

/-- A line has a date, and a job that accepted rows of a kind commits while the
cursor of the kind is the one it read. -/
def Undisturbed (s : Overlap) : OverlapEvent → Prop
  | .append _ o => o.time ≠ none
  | .commit i => ∀ j ∈ s.jobs i, ∀ kind ∈ kinds, j.accepted kind ≠ [] →
      s.cursors kind = j.sinces kind
  | _ => True

instance (s : Overlap) : (e : OverlapEvent) → Decidable (s.Undisturbed e)
  | .append _ o => inferInstanceAs (Decidable (o.time ≠ none))
  | .commit i => inferInstanceAs (Decidable (∀ j ∈ s.jobs i, ∀ kind ∈ kinds, _))
  | .start _ | .read _ | .fetch .. | .unavailable _ | .upsert _ | .advance _ | .abort _ => isTrue trivial

/-! ### What a job has written -/

/-- The writes of a job fit the state: its rows are what its groups that are
written make of the committed rows, which it has locked. -/
structure JobInv (s : Overlap) (i : Nat) (j : PerimeterJob) : Prop where
  fresh : ∀ kind, ∀ a ∈ j.accepted kind, a.obs ∈ s.log kind ∧
    newerThan (j.sinces kind) a.time = true
  once : ∀ kind, ((j.accepted kind).map (·.obs.id)).Nodup
  todoOnce : j.phase.todo.Nodup
  todoEmpty : ∀ kind ∈ j.phase.todo, j.accepted kind = []
  groups : ∀ kind, ∀ g ∈ j.phase.groups kind, g.2 ≠ [] ∧
    g.2 = (j.accepted kind).filter fun r => r.obs.srcIp = g.1
  groupsOnce : ∀ kind, ((j.phase.groups kind).map (·.1)).Nodup
  newTime : ∀ kind t, j.phase.writing = some (kind, t) →
    kind ∉ j.phase.todo ∧ j.accepted kind ≠ [] ∧ t = newest (j.accepted kind)
  unwritten : ∀ kind ip, (∃ g ∈ j.phase.groups kind, g.1 = ip) ∨
    ((j.accepted kind).filter fun r => r.obs.srcIp = ip) = [] →
      j.own.find (deviceId, kind, ip) = none
  written : ∀ kind ip, ¬ (∃ g ∈ j.phase.groups kind, g.1 = ip) →
    ((j.accepted kind).filter fun r => r.obs.srcIp = ip) ≠ [] →
      j.own.find (deviceId, kind, ip) = some (upsertRow deviceId device kind ip
        ((j.accepted kind).filter fun r => r.obs.srcIp = ip) (s.table.find (deviceId, kind, ip)))
  locked : ∀ r ∈ j.own.rows, r.deviceId = deviceId ∧ s.rowLocks r.kind r.srcIp = some i
  waiting : ∀ kind, j.phase.writing.map (·.1) = some kind ∨ j.accepted kind = [] →
    j.ownCursors kind = none
  advanced : ∀ kind, j.phase.writing.map (·.1) ≠ some kind → j.accepted kind ≠ [] →
    j.ownCursors kind = some (newest (j.accepted kind))

/-- What holds in every state of an undisturbed run. -/
structure Inv (s : Overlap) : Prop where
  logOnce : ∀ kind, ((s.log kind).map (·.id)).Nodup
  dated : ∀ kind, ∀ o ∈ s.log kind, o.time ≠ none
  logged : ∀ kind, ∀ a ∈ s.accepted kind, a.obs ∈ s.log kind
  once : ∀ kind, ((s.accepted kind).map (·.obs.id)).Nodup
  reached : ∀ kind, ∀ a ∈ s.accepted kind, Reached (s.cursors kind) a.time
  summarised : ∀ kind ip, Summarises device.tenantId
    ((s.accepted kind).filter fun r => r.obs.srcIp = ip) (s.table.find (deviceId, kind, ip))
  jobs : ∀ i j, s.jobs i = some j → JobInv deviceId device s i j

variable {deviceId device}

theorem Inv.init : Inv deviceId device init where
  logOnce _ := List.nodup_nil
  dated _ _ h := absurd h List.not_mem_nil
  logged _ _ h := absurd h List.not_mem_nil
  once _ := List.nodup_nil
  reached _ _ h := absurd h List.not_mem_nil
  summarised _ _ := rfl
  jobs _ _ h := nomatch h

theorem JobInv.new (s : Overlap) (i : Nat) : JobInv deviceId device s i .new where
  fresh _ _ h := absurd h List.not_mem_nil
  once _ := List.nodup_nil
  todoOnce := by decide
  todoEmpty _ _ := rfl
  groups _ _ h := absurd h List.not_mem_nil
  groupsOnce _ := List.nodup_nil
  newTime _ _ h := nomatch h
  unwritten _ _ _ := rfl
  written _ _ _ hne := absurd rfl hne
  locked _ h := absurd h List.not_mem_nil
  waiting _ _ := rfl
  advanced _ _ hne := absurd rfl hne

/-- A job that has fetched new rows of a kind has all of them still to write. -/
theorem JobInv.accepts {s : Overlap} {i : Nat} {kind : Kind} {todo : List Kind}
    {sinces ownCursors : Kind → Option Time} {own : AttackerTable} {accepted : Kind → List Seen}
    {rows : List Seen}
    (hj : JobInv deviceId device s i ⟨.fetch kind todo, sinces, own, ownCursors, accepted⟩)
    (hfresh : ∀ a ∈ rows, a.obs ∈ s.log kind ∧ newerThan (sinces kind) a.time = true)
    (honce : (rows.map (·.obs.id)).Nodup) (hne : rows ≠ []) :
    JobInv deviceId device s i ⟨.write kind (byIp rows) (newest rows) todo, sinces, own,
      ownCursors, Function.update accepted kind rows⟩ := by
  obtain ⟨hkind, htodo⟩ := List.nodup_cons.mp hj.todoOnce
  have hnone : accepted kind = [] := hj.todoEmpty kind List.mem_cons_self
  have hself : Function.update accepted kind rows kind = rows := Function.update_self ..
  have hother : ∀ k, k ≠ kind → Function.update accepted kind rows k = accepted k :=
    fun k hk => Function.update_of_ne hk _ _
  have hgroups : ∀ k, (JobPhase.write kind (byIp rows) (newest rows) todo).groups k =
      if k = kind then byIp rows else [] := fun _ => rfl
  refine
    { fresh := ?_, once := ?_, todoOnce := htodo, todoEmpty := ?_, groups := ?_, groupsOnce := ?_
      newTime := ?_, unwritten := ?_, written := ?_, locked := hj.locked, waiting := ?_
      advanced := ?_ }
  all_goals dsimp only
  · -- the rows of this kind are logged and past its cursor
    intro k a ha
    by_cases hk : k = kind
    · subst hk
      rw [hself] at ha
      exact hfresh a ha
    · rw [hother k hk] at ha
      exact hj.fresh k a ha
  · -- no observation is taken twice
    intro k
    by_cases hk : k = kind
    · subst hk
      rw [hself]
      exact honce
    · rw [hother k hk]
      exact hj.once k
  · -- the kinds still to do have accepted nothing
    intro k hk
    have hkk : k ≠ kind := fun heq => hkind (heq ▸ hk)
    rw [hother k hkk]
    exact hj.todoEmpty k (List.mem_cons_of_mem _ hk)
  · -- the groups to write are those of the new rows
    intro k g hg
    rw [hgroups] at hg
    by_cases hk : k = kind
    · subst hk
      rw [if_pos rfl] at hg
      rw [hself]
      exact byIp_group hg
    · rw [if_neg hk] at hg
      cases hg
  · -- one group for an address
    intro k
    rw [hgroups]
    split
    · exact byIp_nodup rows
    · exact List.nodup_nil
  · -- the new cursor is the newest time of the rows
    intro k t hw
    obtain ⟨rfl, rfl⟩ := Prod.mk.inj (Option.some.inj hw)
    rw [hself]
    exact ⟨hkind, hne, rfl⟩
  · -- what is still to be written is as it was
    intro k ip hpending
    by_cases hk : k = kind
    · -- nothing of this kind was accepted before
      rw [hk]
      apply hj.unwritten kind ip
      right
      show List.filter _ (accepted kind) = []
      rw [hnone]
      rfl
    · apply hj.unwritten k ip
      simpa [hgroups, JobPhase.groups, hk, hother k hk] using hpending
  · -- what was written before stays written
    intro k ip hpending hseen
    by_cases hk : k = kind
    · -- every address of the new rows is still to be written
      subst hk
      rw [hself] at hseen
      rw [hgroups, if_pos rfl] at hpending
      exact absurd (exists_byIp hseen) hpending
    · rw [hother k hk] at hseen ⊢
      exact hj.written k ip (by simp [JobPhase.groups]) hseen
  · -- the cursor of this kind waits, and so do those of the kinds to come
    intro k hwaiting
    by_cases hk : k = kind
    · rw [hk]
      exact hj.waiting kind (.inr hnone)
    · refine hj.waiting k (.inr ?_)
      rw [hother k hk] at hwaiting
      rcases hwaiting with hwriting | hempty
      · exact absurd (Option.some.inj hwriting).symm hk
      · exact hempty
  · -- the cursors of the kinds that are done have moved
    intro k hwriting hseen
    have hk : k ≠ kind := fun heq => hwriting (heq ▸ rfl)
    rw [hother k hk] at hseen ⊢
    exact hj.advanced k (nomatch ·) hseen

theorem JobInv.lock {s : Overlap} {i : Nat} {j : PerimeterJob} (h : JobInv deviceId device s i j)
    {kind : Kind} {ip : String} {r : AttackerRow}
    (hr : j.own.find (deviceId, kind, ip) = some r) : s.rowLocks kind ip = some i := by
  obtain ⟨hmem, hkey⟩ := AttackerTable.find_eq_some.mp hr
  have hkind : r.kind = kind := (Prod.mk.inj (Prod.mk.inj hkey).2).1
  have hip : r.srcIp = ip := (Prod.mk.inj (Prod.mk.inj hkey).2).2
  rw [← hkind, ← hip]
  exact (h.locked r hmem).2

theorem JobInv.frame {s s' : Overlap} {i : Nat} {j : PerimeterJob}
    (h : JobInv deviceId device s i j)
    (hlog : ∀ kind, ∀ o ∈ s.log kind, o ∈ s'.log kind)
    (hlocks : ∀ kind ip, s.rowLocks kind ip = some i → s'.rowLocks kind ip = some i)
    (htable : ∀ kind ip, s.rowLocks kind ip = some i →
      s'.table.find (deviceId, kind, ip) = s.table.find (deviceId, kind, ip)) :
    JobInv deviceId device s' i j :=
  { h with
    fresh := fun kind a ha => ⟨hlog kind _ (h.fresh kind a ha).1, (h.fresh kind a ha).2⟩
    locked := fun r hr => ⟨(h.locked r hr).1, hlocks _ _ (h.locked r hr).2⟩
    written := by
      intro kind ip hpending hseen
      have hrow := h.written kind ip hpending hseen
      rw [hrow, htable kind ip (h.lock hrow)] }

/-! ### One step -/

section Step

variable {s : Overlap} (h : Inv deviceId device s)

include h

theorem Inv.setJob {i : Nat} {j : PerimeterJob} (hj : JobInv deviceId device s i j) :
    Inv deviceId device (s.setJob i (some j)) :=
  { h with
    jobs := by
      intro i' j' hj'
      change Function.update s.jobs i (some j) i' = some j' at hj'
      by_cases hi : i' = i
      · subst hi
        rw [Function.update_self] at hj'
        obtain rfl := Option.some.inj hj'
        exact hj.frame (fun _ _ ho => ho) (fun _ _ hl => hl) fun _ _ _ => rfl
      · rw [Function.update_of_ne hi] at hj'
        exact (h.jobs i' j' hj').frame (fun _ _ ho => ho) (fun _ _ hl => hl) fun _ _ _ => rfl }

theorem Inv.append {kind : Kind} {o : Observation} {s' : Overlap} (hdate : o.time ≠ none)
    (hstep : s.step deviceId device (.append kind o) = some s') : Inv deviceId device s' := by
  simp only [step] at hstep
  split_ifs at hstep with hfresh
  obtain rfl := Option.some.inj hstep
  have hmem : ∀ k o', o' ∈ Function.update s.log kind (s.log kind ++ [o]) k ↔
      o' ∈ s.log k ∨ k = kind ∧ o' = o := by
    intro k o'
    by_cases hk : k = kind
    · subst hk
      simp
    · simp [hk]
  have hsub : ∀ k, ∀ o' ∈ s.log k, o' ∈ Function.update s.log kind (s.log kind ++ [o]) k :=
    fun k o' ho' => (hmem k o').mpr (.inl ho')
  refine
    { h with
      logOnce := ?_
      dated := ?_
      logged := fun k a ha => hsub k _ (h.logged k a ha)
      jobs := fun i j hj => (h.jobs i j hj).frame hsub (fun _ _ hl => hl) fun _ _ _ => rfl }
  · intro k
    by_cases hk : k = kind
    · subst hk
      simp only [Function.update_self, List.map_append, List.nodup_append]
      refine ⟨h.logOnce k, List.nodup_singleton _, ?_⟩
      intro a ha b hb hab
      rw [hab, List.mem_singleton.mp hb] at ha
      exact hfresh ha
    · simp only [Function.update_of_ne hk]
      exact h.logOnce k
  · intro k o' ho'
    rcases (hmem k o').mp ho' with ho' | ⟨-, rfl⟩
    · exact h.dated k o' ho'
    · exact hdate

theorem Inv.start {i : Nat} {s' : Overlap} (hstep : s.step deviceId device (.start i) = some s') :
    Inv deviceId device s' := by
  simp only [step] at hstep
  split at hstep
  · obtain rfl := Option.some.inj hstep
    exact h.setJob (.new s i)
  · cases hstep

theorem Inv.read {i : Nat} {s' : Overlap} (hstep : s.step deviceId device (.read i) = some s') :
    Inv deviceId device s' := by
  simp only [step] at hstep
  split at hstep
  · rename_i kind todo sinces own ownCursors accepted hjob
    obtain rfl := Option.some.inj hstep
    have hj := h.jobs i _ hjob
    apply h.setJob
    refine { hj with fresh := ?_ }
    intro k a ha
    by_cases hk : k = kind
    · -- nothing of this kind was accepted yet
      rw [hk, hj.todoEmpty kind List.mem_cons_self] at ha
      cases ha
    · simp only [Function.update_of_ne hk]
      exact hj.fresh k a ha
  · cases hstep

theorem Inv.unavailable {i : Nat} {s' : Overlap}
    (hstep : s.step deviceId device (.unavailable i) = some s') : Inv deviceId device s' := by
  simp only [step] at hstep
  split at hstep
  · rename_i kind todo sinces own ownCursors accepted hjob
    obtain rfl := Option.some.inj hstep
    have hj := h.jobs i _ hjob
    apply h.setJob
    exact
      { hj with
        todoOnce := (List.nodup_cons.mp hj.todoOnce).2
        todoEmpty := fun k hk => hj.todoEmpty k (List.mem_cons_of_mem _ hk)
        newTime := fun _ _ hw => nomatch hw }
  · cases hstep

theorem accepted_fetched (kind : Kind) (now : Time) (visible : Observation → Bool)
    (since : Option Time) :
    (∀ a ∈ accept since (s.fetched kind now visible), a.obs ∈ s.log kind ∧
        newerThan since a.time = true) ∧
      ((accept since (s.fetched kind now visible)).map (·.obs.id)).Nodup := by
  constructor
  · intro a ha
    obtain ⟨ha, hnew⟩ := List.mem_filter.mp ha
    obtain ⟨o, ho, rfl⟩ := List.mem_map.mp ha
    exact ⟨(List.mem_filter.mp ho).1, hnew⟩
  · refine (h.logOnce kind).sublist ?_
    have hids : (s.fetched kind now visible).map (·.obs.id) =
        ((s.log kind).filter visible).map (·.id) := by
      rw [fetched, List.map_map]
      rfl
    have hsub := (List.filter_sublist (p := fun r : Seen => newerThan since r.time)
      (l := s.fetched kind now visible)).map (·.obs.id)
    rw [hids] at hsub
    exact hsub.trans (List.filter_sublist.map _)

theorem Inv.fetch {i : Nat} {now : Time} {visible : Observation → Bool} {s' : Overlap}
    (hstep : s.step deviceId device (.fetch i now visible) = some s') :
    Inv deviceId device s' := by
  simp only [step] at hstep
  split at hstep
  · rename_i kind todo sinces own ownCursors accepted hjob
    obtain rfl := Option.some.inj hstep
    have hj := h.jobs i _ hjob
    obtain ⟨hfresh, honce⟩ := accepted_fetched h kind now visible (sinces kind)
    apply h.setJob
    generalize accept (sinces kind) (s.fetched kind now visible) = rows at hfresh honce
    by_cases hempty : rows = []
    · -- nothing is new: the job goes on as if the kind were unavailable
      subst hempty
      have hnone : accepted kind = [] := hj.todoEmpty kind List.mem_cons_self
      rw [if_pos List.isEmpty_nil, ← hnone, Function.update_eq_self]
      exact
        { hj with
          todoOnce := (List.nodup_cons.mp hj.todoOnce).2
          todoEmpty := fun k hk => hj.todoEmpty k (List.mem_cons_of_mem _ hk)
          newTime := fun _ _ hw => nomatch hw }
    · rw [if_neg (by simpa using hempty)]
      exact hj.accepts hfresh honce hempty
  · cases hstep

omit h in
theorem lockRow_locks (kind : Kind) (ip : String) (i : Nat) (k : Kind) (ip' : String) :
    (s.lockRow kind ip i).rowLocks k ip' =
      if k = kind ∧ ip' = ip then some i else s.rowLocks k ip' := by
  unfold lockRow
  by_cases hk : k = kind
  · subst hk
    by_cases hip : ip' = ip
    · simp [hip]
    · simp [hip]
  · simp [hk]

theorem Inv.lockRow {kind : Kind} {ip : String} {i : Nat} (hfree : free (s.rowLocks kind ip) i) :
    Inv deviceId device (s.lockRow kind ip i) := by
  have hkeep : ∀ i' k ip', s.rowLocks k ip' = some i' →
      (s.lockRow kind ip i).rowLocks k ip' = some i' := by
    intro i' k ip' hl
    rw [lockRow_locks]
    split_ifs with hkey
    · obtain ⟨rfl, rfl⟩ := hkey
      rw [hfree i' hl]
    · exact hl
  exact
    { h with
      jobs := fun i' j' hj' =>
        (h.jobs i' j' hj').frame (fun _ _ ho => ho) (hkeep i') fun _ _ _ => rfl }

theorem Inv.lockCursor (kind : Kind) (i : Nat) : Inv deviceId device (s.lockCursor kind i) :=
  { h with
    jobs := fun i' j' hj' =>
      (h.jobs i' j' hj').frame (fun _ _ ho => ho) (fun _ _ hl => hl) fun _ _ _ => rfl }

theorem Inv.upsert {i : Nat} {s' : Overlap}
    (hstep : s.step deviceId device (.upsert i) = some s') : Inv deviceId device s' := by
  simp only [step] at hstep
  split at hstep
  · rename_i kind g groups newTime todo sinces own ownCursors accepted hjob
    split_ifs at hstep with hfree
    obtain rfl := Option.some.inj hstep
    have hlocked := h.lockRow hfree
    have hj := hlocked.jobs i _ hjob
    have hgroups : ∀ gs k, (JobPhase.write kind gs newTime todo).groups k =
        if k = kind then gs else [] := fun _ _ => rfl
    have hnodup := hj.groupsOnce kind
    simp only [hgroups, if_true, List.map_cons, List.nodup_cons] at hnodup
    obtain ⟨hne, hgroup⟩ := hj.groups kind g (by simp [hgroups])
    have hnone : own.find (deviceId, kind, g.1) = none :=
      hj.unwritten kind g.1 (.inl ⟨g, by simp [hgroups], rfl⟩)
    -- the row is new to the job, so it is made of the committed row
    have hrow : ((own.find (deviceId, kind, g.1)).or (s.table.find (deviceId, kind, g.1))) =
        s.table.find (deviceId, kind, g.1) := by
      rw [hnone, Option.none_or]
    have hfind : ∀ key, (own.put (upsertRow deviceId device kind g.1 g.2
        (s.table.find (deviceId, kind, g.1)))).find key =
          if key = (deviceId, kind, g.1) then some (upsertRow deviceId device kind g.1 g.2
            (s.table.find (deviceId, kind, g.1)))
          else own.find key := by
      intro key
      rw [AttackerTable.find_put, upsertRow_key]
    have hsub : ∀ k, ∀ g' ∈ (JobPhase.write kind groups newTime todo).groups k,
        g' ∈ (JobPhase.write kind (g :: groups) newTime todo).groups k := by
      intro k g' hg'
      by_cases hk : k = kind
      · simp only [hgroups, hk, if_true] at hg' ⊢
        exact List.mem_cons_of_mem _ hg'
      · simp [hgroups, hk] at hg'
    rw [hrow]
    apply hlocked.setJob
    refine
      { hj with
        groups := fun k g' hg' => hj.groups k g' (hsub k g' hg')
        groupsOnce := ?_
        newTime := hj.newTime
        unwritten := ?_
        written := ?_
        locked := ?_ }
    · intro k
      by_cases hk : k = kind
      · simp only [hgroups, hk, if_true]
        exact hnodup.2
      · simp [hgroups, hk]
    · intro k ip hpending
      rw [hfind]
      split_ifs with hkey
      · -- the group is written now, and no other group has its address
        obtain ⟨rfl, rfl⟩ : k = kind ∧ ip = g.1 :=
          ⟨(Prod.mk.inj (Prod.mk.inj hkey).2).1, (Prod.mk.inj (Prod.mk.inj hkey).2).2⟩
        rcases hpending with ⟨g', hg', hip⟩ | hempty
        · simp only [hgroups, if_true] at hg'
          exact absurd (List.mem_map.mpr ⟨g', hg', hip⟩) hnodup.1
        · exact absurd (hgroup.trans hempty) hne
      · exact hj.unwritten k ip (hpending.imp_left fun ⟨g', hg', hip⟩ => ⟨g', hsub k g' hg', hip⟩)
    · intro k ip hpending hseen
      rw [hfind]
      split_ifs with hkey
      · obtain ⟨rfl, rfl⟩ : k = kind ∧ ip = g.1 :=
          ⟨(Prod.mk.inj (Prod.mk.inj hkey).2).1, (Prod.mk.inj (Prod.mk.inj hkey).2).2⟩
        rw [hgroup]
        rfl
      · refine hj.written k ip ?_ hseen
        rintro ⟨g', hg', hip⟩
        by_cases hk : k = kind
        · subst hk
          simp only [hgroups, if_true, List.mem_cons] at hg'
          rcases hg' with rfl | hg'
          · exact hkey (by rw [hip])
          · exact hpending ⟨g', by simpa [hgroups] using hg', hip⟩
        · simp [hgroups, hk] at hg'
    · intro r hr
      rcases AttackerTable.mem_put.mp hr with rfl | ⟨hr, -⟩
      · have hkey := @upsertRow_key deviceId device kind g.1 g.2 s.table
        obtain ⟨hd, hkey⟩ := Prod.mk.inj hkey
        obtain ⟨hk, hip⟩ := Prod.mk.inj hkey
        refine ⟨hd, ?_⟩
        rw [hk, hip]
        show (s.lockRow kind g.1 i).rowLocks kind g.1 = some i
        rw [lockRow_locks, if_pos ⟨rfl, rfl⟩]
      · exact hj.locked r hr
  · cases hstep

theorem Inv.advance {i : Nat} {s' : Overlap}
    (hstep : s.step deviceId device (.advance i) = some s') : Inv deviceId device s' := by
  simp only [step] at hstep
  split at hstep
  · rename_i kind newTime todo sinces own ownCursors accepted hjob
    split_ifs at hstep with hfree
    obtain rfl := Option.some.inj hstep
    have hlocked := h.lockCursor kind i
    have hj := hlocked.jobs i _ hjob
    obtain ⟨-, hne, htime⟩ := hj.newTime kind newTime rfl
    have hgroups : ∀ k, (JobPhase.write kind [] newTime todo).groups k = [] := fun k => by
      simp [JobPhase.groups]
    apply hlocked.setJob
    refine
      { hj with
        groups := fun k g hg => absurd hg List.not_mem_nil
        groupsOnce := fun _ => List.nodup_nil
        newTime := fun _ _ hw => nomatch hw
        unwritten := fun k ip hnone => hj.unwritten k ip ?_
        written := fun k ip _ hseen => hj.written k ip ?_ hseen
        waiting := ?_
        advanced := ?_ }
    · exact hnone.imp_left fun ⟨g, hg, _⟩ => absurd hg List.not_mem_nil
    · rintro ⟨g, hg, -⟩
      rw [hgroups] at hg
      cases hg
    · intro k hwaiting
      have hempty : accepted k = [] := hwaiting.resolve_left (nomatch ·)
      have hk : k ≠ kind := by
        rintro rfl
        exact hne hempty
      show Function.update ownCursors kind (some newTime) k = none
      rw [Function.update_of_ne hk]
      exact hj.waiting k (.inr hempty)
    · intro k _ hseen
      show Function.update ownCursors kind (some newTime) k = some (newest (accepted k))
      by_cases hk : k = kind
      · subst hk
        rw [Function.update_self, htime]
      · rw [Function.update_of_ne hk]
        exact hj.advanced k (fun heq => hk (Option.some.inj heq).symm) hseen
  · cases hstep

theorem Inv.endJob (i : Nat) : Inv deviceId device (s.endJob i) :=
  { h with
    jobs := by
      intro i' j' hj'
      change Function.update s.jobs i none i' = some j' at hj'
      have hi : i' ≠ i := by
        rintro rfl
        rw [Function.update_self] at hj'
        cases hj'
      rw [Function.update_of_ne hi] at hj'
      refine (h.jobs i' j' hj').frame (fun _ _ ho => ho) (fun k ip hl => ?_) fun _ _ _ => rfl
      show (if s.rowLocks k ip = some i then none else s.rowLocks k ip) = some i'
      rw [if_neg]
      · exact hl
      · rw [hl]
        exact fun heq => hi (Option.some.inj heq) }

theorem Inv.abort {i : Nat} {s' : Overlap}
    (hstep : s.step deviceId device (.abort i) = some s') : Inv deviceId device s' := by
  simp only [step] at hstep
  split at hstep
  · obtain rfl := Option.some.inj hstep
    exact h.endJob i
  · cases hstep

omit h in
theorem find_commit (own table : AttackerTable) (key : Key) :
    (own.rows.foldl AttackerTable.put table).find key = (own.find key).or (table.find key) := by
  unfold AttackerTable.find
  obtain ⟨rows, hnodup⟩ := own
  dsimp only
  induction rows generalizing table with
  | nil => rfl
  | cons r rows ih =>
    obtain ⟨hr, hrest⟩ := List.nodup_cons.mp hnodup
    rw [List.foldl_cons, ih _ hrest, List.find?_cons]
    have hput := table.find_put r key
    unfold AttackerTable.find at hput
    rw [hput]
    by_cases hkey : r.key = key
    · -- no other row of the transaction has this key
      have hnone : rows.find? (fun r' => r'.key = key) = none := by
        rw [List.find?_eq_none]
        intro r' hr' hkey'
        exact hr (List.mem_map.mpr ⟨r', hr', (of_decide_eq_true hkey').trans hkey.symm⟩)
      simp [hnone, hkey]
    · have hkey' : ¬ key = r.key := fun heq => hkey heq.symm
      simp [hkey, hkey']

omit h in
theorem JobInv.cursor_kept {i : Nat} {j : PerimeterJob} (hj : JobInv deviceId device s i j)
    (hphase : j.phase = .read []) (hcursor : ∀ k, j.accepted k ≠ [] → s.cursors k = j.sinces k)
    (k : Kind) (t : Time) (ht : Reached (s.cursors k) t) :
    Reached ((j.ownCursors k).or (s.cursors k)) t := by
  obtain ⟨c, hc, hle⟩ := ht
  by_cases hne : j.accepted k = []
  · rw [hj.waiting k (.inr hne)]
    exact ⟨c, hc, hle⟩
  · -- the rows are newer than the cursor, which is where the job read it
    rw [hj.advanced k (by rw [hphase]; exact (nomatch ·)) hne]
    obtain ⟨a, ha, htime⟩ := newest_mem hne
    have hnew := newerThan_iff.mp (hj.fresh k a ha).2 c (by rw [← hcursor k hne, hc])
    exact ⟨_, rfl, hle.trans (hnew.le.trans htime.le)⟩

theorem Inv.commit {i : Nat} {s' : Overlap} (hok : s.Undisturbed (.commit i))
    (hstep : s.step deviceId device (.commit i) = some s') : Inv deviceId device s' := by
  simp only [step] at hstep
  split at hstep
  · rename_i sinces own ownCursors accepted hjob
    obtain rfl := Option.some.inj hstep
    have hj := h.jobs i _ hjob
    have hended := h.endJob i
    have hcursor : ∀ k, accepted k ≠ [] → s.cursors k = sinces k :=
      fun k hne => hok _ hjob k (mem_kinds k) hne
    have hwritten : ∀ k ip, ((accepted k).filter fun r => r.obs.srcIp = ip) ≠ [] →
        own.find (deviceId, k, ip) = some (upsertRow deviceId device k ip
          ((accepted k).filter fun r => r.obs.srcIp = ip) (s.table.find (deviceId, k, ip))) :=
      fun k ip hseen => hj.written k ip (fun ⟨_, hg, _⟩ => absurd hg List.not_mem_nil) hseen
    have hadvanced : ∀ k, accepted k ≠ [] → ownCursors k = some (newest (accepted k)) :=
      fun k hne => hj.advanced k (nomatch ·) hne
    have hkept : ∀ k t, Reached (s.cursors k) t → Reached ((ownCursors k).or (s.cursors k)) t :=
      fun k t => hj.cursor_kept rfl hcursor k t
    refine
      { hended with
        logged := ?_
        once := ?_
        reached := ?_
        summarised := ?_
        jobs := ?_ }
    · intro k a ha
      rcases List.mem_append.mp ha with ha | ha
      · exact h.logged k a ha
      · exact (hj.fresh k a ha).1
    · intro k
      show ((s.accepted k ++ accepted k).map _).Nodup
      rw [List.map_append, List.nodup_append]
      refine ⟨h.once k, hj.once k, ?_⟩
      intro x hx y hy hxy
      obtain ⟨a, ha, rfl⟩ := List.mem_map.mp hx
      obtain ⟨b, hb, rfl⟩ := List.mem_map.mp hy
      have hsame : a.obs = b.obs :=
        List.inj_on_of_nodup_map (h.logOnce k) (h.logged k a ha) (hj.fresh k b hb).1 hxy
      obtain ⟨t, ht⟩ := Option.ne_none_iff_exists'.mp (h.dated k a.obs (h.logged k a ha))
      have htime : a.time = b.time := (a.dated t ht).trans (b.dated t (hsame ▸ ht)).symm
      -- the cursor has reached the one, and the other is newer than it
      have hnew := (hj.fresh k b hb).2
      change newerThan (sinces k) b.time = true at hnew
      rw [← hcursor k (List.ne_nil_of_mem hb), ← htime] at hnew
      exact not_newerThan.mpr (h.reached k a ha) hnew
    · intro k a ha
      rcases List.mem_append.mp ha with ha | ha
      · exact hkept k _ (h.reached k a ha)
      · show Reached ((ownCursors k).or (s.cursors k)) a.time
        rw [hadvanced k (List.ne_nil_of_mem ha)]
        exact ⟨_, rfl, le_newest ha⟩
    · intro k ip
      show Summarises _ ((s.accepted k ++ accepted k).filter _)
        ((own.rows.foldl AttackerTable.put s.table).find _)
      rw [find_commit, List.filter_append]
      by_cases hseen : ((accepted k).filter fun r => r.obs.srcIp = ip) = []
      · rw [hj.unwritten k ip (.inr hseen), hseen, List.append_nil, Option.none_or]
        exact h.summarised k ip
      · rw [hwritten k ip hseen]
        exact (h.summarised k ip).upsert hseen
    · intro i' j' hj'
      have hjob' := hended.jobs i' j' hj'
      refine hjob'.frame (fun _ _ ho => ho) (fun _ _ hl => hl) fun k ip hl => ?_
      -- the row is locked by another job, so this one has not written it
      show (own.rows.foldl AttackerTable.put s.table).find _ = s.table.find _
      rw [find_commit]
      cases hown : own.find (deviceId, k, ip) with
      | none => rfl
      | some r =>
        have hlock : s.rowLocks k ip = some i := hj.lock hown
        change (if s.rowLocks k ip = some i then none else s.rowLocks k ip) = some i' at hl
        rw [if_pos hlock] at hl
        cases hl
  · cases hstep

/-- **A step that is undisturbed keeps the invariant.** -/
theorem Inv.step {e : OverlapEvent} {s' : Overlap} (hok : s.Undisturbed e)
    (hstep : s.step deviceId device e = some s') : Inv deviceId device s' := by
  cases e with
  | append kind o => exact h.append hok hstep
  | start i => exact h.start hstep
  | read i => exact h.read hstep
  | fetch i now visible => exact h.fetch hstep
  | unavailable i => exact h.unavailable hstep
  | upsert i => exact h.upsert hstep
  | advance i => exact h.advance hstep
  | commit i => exact h.commit hok hstep
  | abort i => exact h.abort hstep

theorem Inv.cursorsKept {e : OverlapEvent} (hok : s.Undisturbed e) :
    s.CursorsKept deviceId device e := by
  intro s' hstep kind t ht
  cases e with
  | commit i =>
    simp only [Overlap.step] at hstep
    split at hstep
    · rename_i sinces own ownCursors accepted hjob
      obtain rfl := Option.some.inj hstep
      exact (h.jobs i _ hjob).cursor_kept rfl (fun k hne => hok _ hjob k (mem_kinds k) hne) kind t ht
    · cases hstep
  | _ =>
    -- no other step writes a cursor that is committed
    simp only [Overlap.step] at hstep
    split at hstep <;> first
      | (obtain rfl := Option.some.inj hstep; exact ht)
      | (split_ifs at hstep; obtain rfl := Option.some.inj hstep; exact ht)
      | cases hstep

/-- What the invariant says of the counts. -/
theorem Inv.exact : s.Exact deviceId := by
  intro kind
  refine ⟨h.once kind, fun ip => ?_⟩
  have hsub : (((s.accepted kind).filter fun r => r.obs.srcIp = ip).map (·.obs.id)).Nodup :=
    (h.once kind).sublist (List.filter_sublist.map _)
  rw [hsub.dedup, List.length_map]
  have hsum := h.summarised kind ip
  unfold count
  cases hfind : s.table.find (deviceId, kind, ip) with
  | none =>
    rw [hfind] at hsum
    rw [show (s.accepted kind).filter _ = [] from hsum]
    rfl
  | some r =>
    rw [hfind] at hsum
    exact hsum.2.1

end Step

/-! ### Runs -/

/-- **The counts are exact and the cursors never go back** in every run in which
each line has a date, and each job that accepted rows of a kind commits while the
cursor of the kind is the one it read. -/
theorem perimeter_exact (deviceId : DeviceId) (device : Device) (es : List OverlapEvent)
    (s : Overlap) (hok : Along (step deviceId device) Undisturbed init es)
    (hrun : runAll (step deviceId device) init es = some s) :
    s.Exact deviceId ∧ Along (step deviceId device) (CursorsKept deviceId device) init es := by
  have hstep : ∀ (s : Overlap) (e : OverlapEvent) (s' : Overlap), Inv deviceId device s →
      s.Undisturbed e → s.step deviceId device e = some s' → Inv deviceId device s' :=
    fun _ _ _ h hok hs => h.step hok hs
  constructor
  · exact (runAll_invariant hstep Inv.init hok hrun).exact
  · exact along_of_invariant hstep (fun _ _ h hok => h.cursorsKept hok) Inv.init hok

def failedLogin : Observation := ⟨0, some 5, "203.0.113.7", []⟩

def oneJob : List OverlapEvent :=
  [.append .loginFailed failedLogin, .start 0, .read 0, .unavailable 0, .read 0,
    .fetch 0 6 fun _ => true, .upsert 0, .advance 0, .commit 0]

theorem oneJob_exact :
    ∃ s, runAll (step 0 ⟨0, none, true⟩) init oneJob = some s ∧ s.Exact 0 ∧
      Along (step 0 ⟨0, none, true⟩) (CursorsKept 0 ⟨0, none, true⟩) init oneJob :=
  ⟨_, rfl, perimeter_exact 0 ⟨0, none, true⟩ oneJob _ (by decide +kernel) rfl⟩

/-- Two jobs that both read the cursor before one of them commits. -/
def twoJobs : List OverlapEvent :=
  [.append .loginFailed failedLogin, .start 0, .start 1, .read 0, .unavailable 0, .read 0,
    .read 1, .unavailable 1, .read 1, .fetch 0 6 fun _ => true, .fetch 1 6 fun _ => true,
    .upsert 0, .advance 0, .commit 0, .upsert 1, .advance 1, .commit 1]

theorem overlap_not_exact :
    ¬ ∀ es s, runAll (step 0 ⟨0, none, true⟩) init es = some s → s.Exact 0 ∧
      Along (step 0 ⟨0, none, true⟩) (CursorsKept 0 ⟨0, none, true⟩) init es := by
  intro h
  obtain ⟨hexact, -⟩ := h twoJobs _ rfl
  have honce := (hexact .loginFailed).1
  revert honce
  decide +kernel

end Overlap

end Perimeter

end Opngms
