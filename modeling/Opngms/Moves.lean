/-
Opngms/Moves.lean

What one event can do to the system.

`Sys.Moves` is the step function read backwards, once for all invariants: an
event opens a session, ends one, serves one effect of one, or lets time pass.
`Quiet` collects the effects that touch neither the rows, their locks, the
queue nor the sessions; an invariant about those needs one case for all of
them (`SameRows`).  `follows_step` carries a discipline whose phase is the
session through every event.
-/
import Opngms.ConfigApi

namespace Opngms

open Dialogue

variable {Box : Type}

/-! ### Events, read backwards -/

/-- The programs an event can open, with the queue they leave. -/
inductive Opens (env : Env) (queue : List (Job × Option Time)) :
    Event → Nat → Task → Program Unit → List (Job × Option Time) → Prop
  | call (i : Nat) (c : Call) : Opens env queue (.call i c) i .request (c.program env) queue
  | sweep (i : Nat) :
      Opens env queue (.sweep i) i .sweep (do let _ ← sweepOrphanedActions env) queue
  | job {i n : Nat} {job : Job} {deferUntil : Option Time} :
      queue[n]? = some (job, deferUntil) →
      Opens env queue (.dequeue i n) i (.job job) (job.program env) (queue.eraseIdx n)

/-- Everything one event can be. -/
inductive Sys.Moves (env : Env) (B : BoxModel Box) (sys : Sys Box) : Event → Sys Box → Prop
  /-- A handler, a job or a sweep starts in a free session. -/
  | opened {e : Event} {i : Nat} {task : Task} {t : Program Unit}
      {queue : List (Job × Option Time)} :
      sys.threads i = none → Opens env sys.world.queue e i task t queue →
      Moves env B sys e
        { world := { sys.world with queue }.setSession i { began := sys.world.clock, task }
          threads := Function.update sys.threads i (some t) }
  /-- A program that has ended gives up its session. -/
  | ended {i : Nat} {t : Program Unit} :
      sys.threads i = some t → (t = .pure () ∨ ∃ x, t = .raise x) →
      Moves env B sys (.run i)
        { world := (sys.world.rollback i).setSession i {}
          threads := Function.update sys.threads i none }
  /-- The next effect of a program is served. -/
  | served {i : Nat} {q : Eff} {k : q.Ans → Program Unit} {a : q.Ans} {w : World Box} :
      sys.threads i = some (.ask q k) → sys.world.answer B i q = some (a, w) →
      Moves env B sys (.run i)
        { world := w.setSession i ((sys.world.sessions i).after q a)
          threads := Function.update sys.threads i (some (k a)) }
  /-- Time passes, or the switch is set. -/
  | passed {e : Event} {clock : Time} {livePush : Option Bool} :
      Moves env B sys e { sys with world := { sys.world with clock, livePush } }

theorem Sys.moves_of_start {env : Env} {B : BoxModel Box} {sys sys' : Sys Box} {e : Event}
    {i : Nat} {task : Task} {t : Program Unit} {queue : List (Job × Option Time)}
    (ho : Opens env sys.world.queue e i task t queue)
    (h : Sys.start { sys with world := { sys.world with queue } } i task t = some sys') :
    Sys.Moves env B sys e sys' := by
  unfold Sys.start at h
  split at h
  · cases h
  · rename_i hfree
    obtain rfl := Option.some.inj h
    exact .opened hfree ho

theorem Sys.step_moves {env : Env} {B : BoxModel Box} {sys sys' : Sys Box} {e : Event}
    (h : sys.step env B e = some sys') : Sys.Moves env B sys e sys' := by
  cases e with
  | call i c => exact Sys.moves_of_start (.call i c) h
  | sweep i => exact Sys.moves_of_start (.sweep i) h
  | dequeue i n =>
    simp only [Sys.step] at h
    split at h
    · cases h
    · rename_i hn
      split at h
      · exact Sys.moves_of_start (.job hn) h
      · cases h
  | run i =>
    rcases Pool.advance_cases h with ⟨t, ht, hend, rfl⟩ | ⟨q, k, a, w, ht, hs, rfl⟩
    · exact .ended ht hend
    · obtain ⟨⟨a₀, w₀⟩, hw, he⟩ := Option.map_eq_some_iff.mp hs
      obtain ⟨rfl, rfl⟩ := Prod.mk.inj he
      exact .served ht hw
  | tick =>
    obtain rfl := Option.some.inj h
    exact .passed
  | setLivePush b =>
    obtain rfl := Option.some.inj h
    exact .passed

/-! ### Disciplines over sessions -/

section Follow

variable {φ : Type} {D : Discipline Eff Eff.Ans φ} {Z : φ → Except Raised Unit → Prop}

/-- Every open program follows the discipline from what `view` sees of its
session. -/
abbrev Sys.AllFollow (D : Discipline Eff Eff.Ans φ) (Z : φ → Except Raised Unit → Prop)
    (view : Session → φ) (sys : Sys Box) : Prop :=
  Pool.AllFollow D Z (fun w i => view (w.sessions i)) sys

theorem follows_step {env : Env} {B : BoxModel Box} {view : Session → φ}
    (hnext : ∀ s q a, view (s.after q a) = D.next (view s) q a) {sys sys' : Sys Box} {e : Event}
    (h : sys.step env B e = some sys')
    (hopen : ∀ i task t queue, Opens env sys.world.queue e i task t queue →
      Follows D Z (view { began := sys.world.clock, task }) t)
    (hanswer : ∀ i q k a w, e = .run i → sys.threads i = some (.ask q k) →
      sys.world.answer B i q = some (a, w) → D.admits (view (sys.world.sessions i)) q a)
    (hall : sys.AllFollow D Z view) : sys'.AllFollow D Z view := by
  have hrun : ∀ i, e = .run i → sys'.AllFollow D Z view := by
    rintro i rfl
    refine Pool.advance_follows (fun i w q a w' hs => ?_) (fun i w j hj => ?_) h
      (fun q k a w' ht hs => ?_) hall
    · obtain ⟨hown, hother⟩ := World.serve_sessions hs
      refine ⟨?_, fun j hj => ?_⟩
      · rw [hown, hnext]
      · rw [hother j hj]
    · rw [World.close_sessions i w j hj]
    · obtain ⟨⟨a₀, w₀⟩, hw, he⟩ := Option.map_eq_some_iff.mp hs
      obtain ⟨rfl, -⟩ := Prod.mk.inj he
      exact hanswer i q k _ w₀ rfl ht hw
  cases Sys.step_moves h with
  | @opened _ i task t queue hfree ho =>
    intro j u hj
    show u.Follows D Z (view (Function.update sys.world.sessions i _ j))
    by_cases hji : j = i
    · subst hji
      obtain rfl : t = u := by simpa using hj
      rw [Function.update_self]
      exact hopen j task t queue ho
    · have hj' : sys.threads j = some u := by simpa [Function.update_of_ne hji] using hj
      rw [Function.update_of_ne hji]
      exact hall j u hj'
  | ended => exact hrun _ rfl
  | served => exact hrun _ rfl
  | passed => exact hall

theorem follows_onBox {α : Type} {device : DeviceId} {s : φ}
    (hallow : ∀ r, D.allows s (.request device r))
    (hnext : ∀ r a, D.next s (.request device r) a = s) (p : Client α) :
    Follows D (fun s' _ => s' = s) s (onBox device p) := by
  induction p with
  | pure a => rfl
  | raise x => rfl
  | ask r k ih =>
    refine ⟨hallow r, fun a _ => ?_⟩
    rw [hnext]
    exact ih a

end Follow

/-! ### What every answer leaves alone -/

/-- The entries that an effect of session `i` adds to the log. -/
def World.logged (w : World Box) (i : Nat) : Eff → List LogEntry
  | .insertChange _ => [.created w.nextChange]
  | .beginPush id => [.pushed id]
  | .request device r => [.sent device (w.sessions i).pushing r]
  | _ => []

/-- The jobs that an effect adds to the queue. -/
def Eff.queued : Eff → List (Job × Option Time)
  | .enqueue job deferUntil => [(job, deferUntil)]
  | _ => []

/-- What an answered effect leaves alone, whichever it is. -/
structure AnswerFrame (i : Nat) (w : World Box) (q : Eff) (w' : World Box) : Prop where
  /-- Devices are not written. -/
  devices : w'.devices = w.devices
  log : w'.log = w.log ++ w.logged i q
  queue : w'.queue = w.queue ++ q.queued
  /-- Only a commit changes committed rows. -/
  changes : q ≠ .commit → w'.changes = w.changes
  nextChange : w.nextChange ≤ w'.nextChange

theorem answer_frame {B : BoxModel Box} {i : Nat} {w w' : World Box} {q : Eff} {a : q.Ans}
    (h : w.answer B i q = some (a, w')) : AnswerFrame i w q w' := by
  cases q with
  | tryAdvisoryLock key =>
    simp only [World.answer] at h
    split at h <;> (obtain ⟨-, rfl⟩ := Prod.mk.inj (Option.some.inj h); constructor <;>
      simp [World.logged, Eff.queued])
  | flushChange row =>
    simp only [World.answer] at h
    split at h
    · obtain ⟨-, rfl⟩ := Prod.mk.inj (Option.some.inj h)
      constructor <;> simp [World.logged, Eff.queued]
    · cases h
  | _ =>
    obtain ⟨-, rfl⟩ := Prod.mk.inj (Option.some.inj h)
    constructor <;> simp [World.logged, Eff.queued, World.commit, World.rollback]

/-! ### Rows and their ids -/

/-- Committed rows and uncommitted writes stand under their ids. -/
structure World.Keyed (w : World Box) : Prop where
  changes : ∀ id r, w.changes id = some r → r.id = id
  dirty : ∀ i id r, (w.sessions i).dirty id = some r → r.id = id

theorem Session.after_keyed {s : Session} (h : ∀ id r, s.dirty id = some r → r.id = id) (q : Eff)
    (a : q.Ans) : ∀ id r, (s.after q a).dirty id = some r → r.id = id := by
  have hwrite : ∀ row : Change, ∀ id r, Function.update s.dirty row.id (some row) id = some r →
      r.id = id := by
    intro row id r hr
    by_cases hid : id = row.id
    · rw [hid, Function.update_self] at hr
      rw [hid, Option.some.inj hr]
    · rw [Function.update_of_ne hid] at hr
      exact h id r hr
  cases q with
  | insertChange _ => exact hwrite a
  | flushChange row => exact hwrite row
  | commit => exact fun _ _ => nofun
  | closeSession => exact fun _ _ => nofun
  | _ => exact h

theorem World.Keyed.step {env : Env} {B : BoxModel Box} {sys sys' : Sys Box} {e : Event}
    (h : sys.world.Keyed) (hstep : sys.step env B e = some sys') : sys'.world.Keyed := by
  have hset : ∀ {w : World Box} {i : Nat} {s : Session}, w.sessions = sys.world.sessions →
      (∀ id r, w.changes id = some r → r.id = id) →
      (∀ id r, s.dirty id = some r → r.id = id) → (w.setSession i s).Keyed := by
    intro w i s hw hc hs
    refine ⟨hc, fun j => ?_⟩
    rw [setSession_sessions, hw]
    by_cases hj : j = i
    · rw [hj, Function.update_self]
      exact hs
    · rw [Function.update_of_ne hj]
      exact h.dirty j
  cases Sys.step_moves hstep with
  | opened => exact hset rfl h.changes fun _ _ => nofun
  | ended => exact hset rfl h.changes fun _ _ => nofun
  | passed => exact ⟨h.changes, h.dirty⟩
  | @served i q k a w ht hw =>
    refine hset (answer_sessions hw) (fun id r hr => ?_) (Session.after_keyed (h.dirty i) q a)
    by_cases hq : q = .commit
    · subst hq
      obtain ⟨-, rfl⟩ := Prod.mk.inj (Option.some.inj hw)
      exact mergeRow_id (h.dirty i id) (h.changes id) hr
    · rw [(answer_frame hw).changes hq] at hr
      exact h.changes id r hr

/-! ### Quiet effects -/

/-- Effects that leave the rows of changes, their locks and the queue alone,
and write nothing to a session that concerns them. -/
def Eff.quiet : Eff → Bool
  | .getDevice _ | .getSnapshot _ | .latestSnapshot _ | .overdueChanges _ | .livePushRow | .now
  | .tryAdvisoryLock _ | .insertSnapshot _ | .insertAlert _ | .getConfigBackup _
  | .request _ _ => true
  | .getChange _ | .insertChange _ | .flushChange _ | .commit | .closeSession | .beginPush _
  | .enqueue _ _ => false

/-- What concerns the rows of changes is the same in both worlds. -/
structure SameRows (w w' : World Box) : Prop where
  changes : w'.changes = w.changes
  nextChange : w'.nextChange = w.nextChange
  rowLock : w'.rowLock = w.rowLock
  queue : w'.queue = w.queue
  loaded : ∀ i, (w'.sessions i).loaded = (w.sessions i).loaded
  dirty : ∀ i, (w'.sessions i).dirty = (w.sessions i).dirty
  pushing : ∀ i, (w'.sessions i).pushing = (w.sessions i).pushing
  pushes : ∀ c, w'.log.count (.pushed c) = w.log.count (.pushed c)

theorem after_quiet (s : Session) {q : Eff} (hq : q.quiet = true) (a : q.Ans) :
    (s.after q a).loaded = s.loaded ∧ (s.after q a).dirty = s.dirty ∧
      (s.after q a).pushing = s.pushing := by
  cases q <;> first | exact ⟨rfl, rfl, rfl⟩ | cases hq

theorem answer_quiet {B : BoxModel Box} {i : Nat} {w w' : World Box} {q : Eff} {a : q.Ans}
    (hq : q.quiet = true) (h : w.answer B i q = some (a, w')) :
    SameRows w (w'.setSession i ((w.sessions i).after q a)) := by
  obtain ⟨hl, hd, hp⟩ := after_quiet (w.sessions i) hq a
  have hs := World.answer_sessions h
  have hrest : w'.changes = w.changes ∧ w'.nextChange = w.nextChange ∧ w'.rowLock = w.rowLock ∧
      w'.queue = w.queue ∧ ∀ c, w'.log.count (.pushed c) = w.log.count (.pushed c) := by
    cases q with
    | tryAdvisoryLock key =>
      simp only [World.answer] at h
      split at h <;> (obtain ⟨-, rfl⟩ := Prod.mk.inj (Option.some.inj h); simp)
    | getDevice | getSnapshot | latestSnapshot | overdueChanges | livePushRow | now
    | insertSnapshot | insertAlert | getConfigBackup | request =>
      obtain ⟨-, rfl⟩ := Prod.mk.inj (Option.some.inj h)
      simp [List.count_append]
    | _ => cases hq
  obtain ⟨hc, hn, hr, hqu, hpu⟩ := hrest
  have hsess : ∀ {β : Type} (f : Session → β), f ((w.sessions i).after q a) = f (w.sessions i) →
      ∀ j, f (Function.update w'.sessions i ((w.sessions i).after q a) j) = f (w.sessions j) := by
    intro β f hf j
    rw [hs]
    by_cases hji : j = i
    · rw [hji, Function.update_self, hf]
    · rw [Function.update_of_ne hji]
  exact ⟨hc, hn, hr, hqu, hsess Session.loaded hl, hsess Session.dirty hd,
    hsess Session.pushing hp, hpu⟩

end Opngms
