/-
Opngms/ApplyOnce.lean

One change, many writers: how often it is pushed and whether its end is final.

Schedule, cancel, the apply job and the sweeper all read the row, check its
status and write it, without reading it again under the row lock.  Two jobs
for one change do arise (a second schedule leaves the first job queued, the
sweeper enqueues another), so a change can be pushed twice
(`scheduledTwice_pushes_twice`), and a job can go on after a cancel that
overtakes it (`cancelledMeanwhile_pushed`).

What is true is relative to one condition on the writes, `FreshWrite`: the
status the session loaded is still the committed one when it writes the row.
Under it a writer holds the row lock over exactly the committed status it
checked (`Held`), so a terminal status has no further writer
(`terminal_final`), and a push that does not die before its commit is the only
one (`pushed_at_most_once`).
-/
import Opngms.OwnRow

namespace Opngms

open Dialogue

variable {Box : Type}

/-! ### The invariant of one row -/

def World.status (w : World Box) (c : ChangeId) : Option Status :=
  (w.changes c).map Change.status

/-- What holds of session `i` in the world `w`: it knows nothing of `c` before
it is inserted, and writes `c` only under its row lock, over the committed
status that it loaded and that is open. -/
structure SessionOk (c : ChangeId) (w : World Box) (i : Nat) (s : Session) : Prop where
  unused : w.nextChange ≤ c → s.loaded c = none ∧ s.dirty c = none
  written : ∀ id r, s.dirty id = some r → r.id = id
  lock : s.dirty c ≠ none → w.rowLock c = some i
  fresh : s.dirty c ≠ none → (s.loaded c).map Change.status = w.status c
  isOpen : s.dirty c ≠ none → ∀ old, s.loaded c = some old → old.status.open
  pushing : s.pushing = some c → s.dirty c ≠ none

/-- What holds of the rows, and of `c` in particular, between any two
effects. -/
structure RowsOk (c : ChangeId) (w : World Box) : Prop where
  ids : ∀ id r, w.changes id = some r → r.id = id
  unused : w.nextChange ≤ c → w.changes c = none
  queue : ∀ job ∈ w.queue, job.1.spares c
  sessions : ∀ i, SessionOk c w i (w.sessions i)

section Rows

variable {c : ChangeId} {w w' : World Box} {i : Nat} {s : Session}

theorem SessionOk.of_clean (hl : w.nextChange ≤ c → s.loaded c = none)
    (hd : ∀ id, s.dirty id = none) (hp : s.pushing ≠ some c) : SessionOk c w i s where
  unused h := ⟨hl h, hd c⟩
  written id r h := by
    rw [hd] at h
    cases h
  lock h := absurd (hd c) h
  fresh h := absurd (hd c) h
  isOpen h := absurd (hd c) h
  pushing h := absurd h hp

/-- What other sessions do does not matter to a session, as long as `c` stays
what it is while the session writes it. -/
theorem SessionOk.frame (h : SessionOk c w i s) (hn : w.nextChange ≤ w'.nextChange)
    (hc : s.dirty c ≠ none → w'.rowLock c = w.rowLock c ∧ w'.status c = w.status c) :
    SessionOk c w' i s where
  unused hc := h.unused (hn.trans hc)
  written := h.written
  lock hd := (hc hd).1.trans (h.lock hd)
  fresh hd := (h.fresh hd).trans (hc hd).2.symm
  isOpen := h.isOpen
  pushing := h.pushing

theorem RowsOk.clean_of_lock (h : RowsOk c w) {j : Nat} (hl : w.rowLock c = none ∨
    w.rowLock c = some i) (hj : j ≠ i) : (w.sessions j).dirty c = none := by
  by_contra hd
  have hlock := (h.sessions j).lock hd
  rcases hl with hl | hl
  · rw [hlock] at hl
    cases hl
  · rw [hlock] at hl
    exact hj (Option.some.inj hl)

theorem RowsOk.no_writer (h : RowsOk c w) {st : Status} (hst : w.status c = some st)
    (hterm : st.terminal = true) (i : Nat) : (w.sessions i).dirty c = none := by
  by_contra hd
  have hf := (h.sessions i).fresh hd
  rw [hst] at hf
  obtain ⟨old, hold, rfl⟩ := Option.map_eq_some_iff.mp hf
  rcases (h.sessions i).isOpen hd old hold with h' | h' <;> rw [h'] at hterm <;> cases hterm

theorem rowsOk_setSession (hids : ∀ id r, w'.changes id = some r → r.id = id)
    (hunused : w'.nextChange ≤ c → w'.changes c = none)
    (hqueue : ∀ job ∈ w'.queue, job.1.spares c)
    (hother : ∀ j, j ≠ i → SessionOk c w' j (w'.sessions j)) (hown : SessionOk c w' i s) :
    RowsOk c (w'.setSession i s) where
  ids := hids
  unused := hunused
  queue := hqueue
  sessions j := by
    by_cases hj : j = i
    · rw [hj, World.setSession_sessions, Function.update_self]
      exact hown.frame le_rfl fun _ => ⟨rfl, rfl⟩
    · rw [World.setSession_sessions, Function.update_of_ne hj]
      exact (hother j hj).frame le_rfl fun _ => ⟨rfl, rfl⟩

/-! ### One effect keeps it -/

/-- A write of `row` by session `i` finds in `c` the status that the session
loaded. -/
def FreshRow (c : ChangeId) (w : World Box) (i : Nat) (row : Change) : Prop :=
  row.id = c → ((w.sessions i).loaded c).map Change.status = w.status c

theorem RowsOk.getChange (h : RowsOk c w) {id : ChangeId}
    (hallow : id = c → (w.sessions i).dirty c = none) :
    RowsOk c (w.setSession i ((w.sessions i).after (.getChange id) (w.changes id))) := by
  have hi := h.sessions i
  have hload : ∀ {id'}, id' ≠ id → Function.update (w.sessions i).loaded id (w.changes id) id' =
      (w.sessions i).loaded id' := fun hne => Function.update_of_ne hne _ _
  -- a session that writes `c` does not load it now
  have hne : (w.sessions i).dirty c ≠ none → c ≠ id := fun hd he => hd (hallow he.symm)
  refine rowsOk_setSession h.ids h.unused h.queue (fun j _ => h.sessions j) ?_
  refine ⟨fun hc => ⟨?_, (hi.unused hc).2⟩, hi.written, hi.lock, fun hd => ?_, fun hd => ?_,
    hi.pushing⟩
  · show Function.update (w.sessions i).loaded id (w.changes id) c = none
    by_cases he : c = id
    · rw [he, Function.update_self, ← he]
      exact h.unused hc
    · rw [hload he]
      exact (hi.unused hc).1
  · show (Function.update (w.sessions i).loaded id (w.changes id) c).map Change.status = _
    rw [hload (hne hd)]
    exact hi.fresh hd
  · show ∀ old, Function.update (w.sessions i).loaded id (w.changes id) c = some old → _
    rw [hload (hne hd)]
    exact hi.isOpen hd

theorem SessionOk.write (h : SessionOk c w i s) {row : Change}
    (hc : row.id = c → c < w.nextChange ∧ w.rowLock c = some i ∧
      (s.loaded c).map Change.status = w.status c ∧
      ∀ old, s.loaded c = some old → old.status.open) :
    SessionOk c w i { s with dirty := Function.update s.dirty row.id (some row) } := by
  have hwritten : ∀ id r, Function.update s.dirty row.id (some row) id = some r → r.id = id := by
    intro id r hr
    by_cases he : id = row.id
    · rw [he, Function.update_self] at hr
      obtain rfl := Option.some.inj hr
      exact he.symm
    · rw [Function.update_of_ne he] at hr
      exact h.written id r hr
  by_cases he : row.id = c
  · obtain ⟨hlt, hlock, hfresh, hopen⟩ := hc he
    refine ⟨fun hle => absurd hlt (not_lt.mpr hle), hwritten, fun _ => hlock, fun _ => hfresh,
      fun _ => hopen, fun _ => ?_⟩
    show Function.update s.dirty row.id (some row) c ≠ none
    rw [he, Function.update_self]
    simp
  · have hd : Function.update s.dirty row.id (some row) c = s.dirty c :=
      Function.update_of_ne (Ne.symm he) _ _
    exact ⟨fun hle => ⟨(h.unused hle).1, hd.trans (h.unused hle).2⟩, hwritten,
      fun h' => h.lock (hd ▸ h'), fun h' => h.fresh (hd ▸ h'), fun h' => h.isOpen (hd ▸ h'),
      fun h' hn => h.pushing h' (hd.symm.trans hn)⟩

theorem RowsOk.insertChange (h : RowsOk c w) {row : Change} (hid : row.id = w.nextChange)
    (log : List LogEntry) :
    RowsOk c ({ w with
        nextChange := w.nextChange + 1
        rowLock := Function.update w.rowLock w.nextChange (some i)
        log := log }.setSession i
      { w.sessions i with dirty := Function.update (w.sessions i).dirty row.id (some row) }) := by
  -- nobody writes the new row yet, so its lock concerns no other session
  have hframe : ∀ j, (w.sessions j).dirty c ≠ none →
      Function.update w.rowLock w.nextChange (some i) c = w.rowLock c := by
    intro j hd
    refine Function.update_of_ne (fun he => hd ?_) _ _
    exact ((h.sessions j).unused he.ge).2
  refine rowsOk_setSession h.ids (fun hle => h.unused ((Nat.le_succ _).trans hle)) h.queue
    (fun j _ => (h.sessions j).frame (Nat.le_succ _) fun hd => ⟨hframe j hd, rfl⟩) ?_
  have hi : SessionOk c { w with
        nextChange := w.nextChange + 1
        rowLock := Function.update w.rowLock w.nextChange (some i)
        log := log } i (w.sessions i) :=
    (h.sessions i).frame (Nat.le_succ _) fun hd => ⟨hframe i hd, rfl⟩
  refine hi.write fun hc => ?_
  have hcn : c = w.nextChange := hc.symm.trans hid
  have hl := ((h.sessions i).unused hcn.ge).1
  refine ⟨?_, ?_, ?_, fun old hold => ?_⟩
  · rw [hcn]
    exact Nat.lt_succ_self _
  · show Function.update w.rowLock w.nextChange (some i) c = some i
    rw [hcn, Function.update_self]
  · show ((w.sessions i).loaded c).map Change.status = (w.changes c).map Change.status
    rw [hl, h.unused hcn.ge]
  · rw [hl] at hold
    cases hold

theorem RowsOk.flushChange (h : RowsOk c w) {row : Change}
    (hlock : w.rowLock row.id = none ∨ w.rowLock row.id = some i)
    (hmay : row.id = c → (rowPhase c (w.sessions i)).MayWrite) (hfresh : FreshRow c w i row) :
    RowsOk c ({ w with rowLock := Function.update w.rowLock row.id (some i) }.setSession i
      { w.sessions i with dirty := Function.update (w.sessions i).dirty row.id (some row) }) := by
  by_cases hc : row.id = c
  · have hclean : ∀ j, j ≠ i → (w.sessions j).dirty c = none := fun j hj =>
      h.clean_of_lock (hc ▸ hlock) hj
    refine rowsOk_setSession h.ids h.unused h.queue
      (fun j hj => (h.sessions j).frame le_rfl fun hd => absurd (hclean j hj) hd) ?_
    have hlocked : Function.update w.rowLock row.id (some i) c = some i := by
      rw [hc, Function.update_self]
    have hi : SessionOk c { w with rowLock := Function.update w.rowLock row.id (some i) } i
        (w.sessions i) :=
      (h.sessions i).frame le_rfl fun hd => ⟨hlocked.trans ((h.sessions i).lock hd).symm, rfl⟩
    refine hi.write fun _ => ⟨?_, hlocked, hfresh hc, ?_⟩
    · by_contra hle
      obtain ⟨hl, hd⟩ := (h.sessions i).unused (not_lt.mp hle)
      rcases hmay hc with ⟨old, hold, -⟩ | ⟨-, hd'⟩
      · rw [show (w.sessions i).loaded c = some old from hold] at hl
        cases hl
      · exact hd' hd
    · intro old hold
      rcases hmay hc with ⟨old', hold', hopen⟩ | ⟨hl, -⟩
      · have he : some old' = some old := hold'.symm.trans hold
        exact Option.some.inj he ▸ hopen
      · rw [show (w.sessions i).loaded c = none from hl] at hold
        cases hold
  · have hframe : Function.update w.rowLock row.id (some i) c = w.rowLock c :=
      Function.update_of_ne (Ne.symm hc) _ _
    refine rowsOk_setSession h.ids h.unused h.queue
      (fun j _ => (h.sessions j).frame le_rfl fun _ => ⟨hframe, rfl⟩) ?_
    have hi : SessionOk c { w with rowLock := Function.update w.rowLock row.id (some i) } i
        (w.sessions i) := (h.sessions i).frame le_rfl fun _ => ⟨hframe, rfl⟩
    exact hi.write fun he => absurd he hc

theorem release_of_ne {κ : Type} {locks : κ → Option Nat} {i j : Nat} {k : κ} (hj : j ≠ i)
    (h : locks k = some j) : World.release locks i k = locks k := by
  rw [World.release, if_neg]
  rw [h]
  exact fun he => hj (Option.some.inj he)

theorem commit_changes_of_clean (w : World Box) {i : Nat} {id : ChangeId}
    (h : (w.sessions i).dirty id = none) : (w.commit i).changes id = w.changes id := by
  show World.mergeRow _ _ _ = _
  rw [h]
  rfl

theorem RowsOk.commit (h : RowsOk c w) :
    RowsOk c ((w.commit i).setSession i ((w.sessions i).after .commit ())) := by
  have hi := h.sessions i
  refine rowsOk_setSession (fun id r hr => ?_) (fun hle => ?_) h.queue (fun j hj => ?_) ?_
  · exact World.mergeRow_id (hi.written id) (h.ids id) hr
  · rw [commit_changes_of_clean w (hi.unused hle).2]
    exact h.unused hle
  · refine (h.sessions j).frame le_rfl fun hd => ⟨?_, ?_⟩
    · exact release_of_ne hj ((h.sessions j).lock hd)
    · show Option.map _ ((w.commit i).changes c) = _
      rw [commit_changes_of_clean w (h.clean_of_lock (.inr ((h.sessions j).lock hd)) (Ne.symm hj))]
      rfl
  · exact .of_clean (fun hle => (hi.unused hle).1) (fun _ => rfl) (by simp [Session.after])

theorem RowsOk.rollback (h : RowsOk c w) {s : Session} (hl : ∀ id, s.loaded id = none)
    (hd : ∀ id, s.dirty id = none) (hp : s.pushing = none) :
    RowsOk c ((w.rollback i).setSession i s) := by
  refine rowsOk_setSession h.ids h.unused h.queue (fun j hj => ?_)
    (.of_clean (fun _ => hl c) hd (by simp [hp]))
  exact (h.sessions j).frame le_rfl fun hd =>
    ⟨release_of_ne hj ((h.sessions j).lock hd), rfl⟩

theorem RowsOk.of_sameRows (h : RowsOk c w) (hs : SameRows w w') : RowsOk c w' where
  ids := hs.changes ▸ h.ids
  unused := by
    rw [hs.changes, hs.nextChange]
    exact h.unused
  queue := hs.queue ▸ h.queue
  sessions i := by
    have hi := h.sessions i
    have hstatus : w'.status c = w.status c := by rw [World.status, hs.changes, World.status]
    refine ⟨?_, ?_, ?_, ?_, ?_, ?_⟩
    · rw [hs.nextChange, hs.loaded, hs.dirty]
      exact hi.unused
    · rw [hs.dirty]
      exact hi.written
    · rw [hs.dirty, hs.rowLock]
      exact hi.lock
    · rw [hs.dirty, hs.loaded, hstatus]
      exact hi.fresh
    · rw [hs.dirty, hs.loaded]
      exact hi.isOpen
    · rw [hs.dirty, hs.pushing]
      exact hi.pushing

/-- **Serving one effect that the discipline allows keeps the rows in order**,
if a write finds the status that was loaded. -/
theorem RowsOk.serve {B : BoxModel Box} {q : Eff} {a : q.Ans} (h : RowsOk c w)
    (hallow : (ownRow c).allows (rowPhase c (w.sessions i)) q)
    (hfresh : ∀ row, q = .flushChange row → FreshRow c w i row)
    (hw : w.answer B i q = some (a, w')) :
    RowsOk c (w'.setSession i ((w.sessions i).after q a)) := by
  by_cases hq : q.quiet = true
  · exact h.of_sameRows (answer_quiet hq hw)
  cases q with
  | getChange id =>
    obtain ⟨rfl, rfl⟩ := Prod.mk.inj (Option.some.inj hw)
    exact h.getChange fun he => (hallow he).2
  | insertChange row =>
    obtain ⟨rfl, rfl⟩ := Prod.mk.inj (Option.some.inj hw)
    exact h.insertChange rfl _
  | flushChange row =>
    simp only [World.answer] at hw
    split at hw
    · rename_i hlock
      obtain ⟨-, rfl⟩ := Prod.mk.inj (Option.some.inj hw)
      exact h.flushChange hlock hallow (hfresh row rfl)
    · cases hw
  | commit =>
    obtain ⟨-, rfl⟩ := Prod.mk.inj (Option.some.inj hw)
    exact h.commit
  | closeSession =>
    obtain ⟨-, rfl⟩ := Prod.mk.inj (Option.some.inj hw)
    exact h.rollback (fun _ => rfl) (fun _ => rfl) rfl
  | beginPush id =>
    obtain ⟨-, rfl⟩ := Prod.mk.inj (Option.some.inj hw)
    have hi := h.sessions i
    refine rowsOk_setSession h.ids h.unused h.queue (fun j _ => ?_) ?_
    · exact (h.sessions j).frame le_rfl fun _ => ⟨rfl, rfl⟩
    · refine ⟨hi.unused, hi.written, hi.lock, hi.fresh, hi.isOpen, fun hp => ?_⟩
      exact hallow.2 (Option.some.inj hp)
  | enqueue job deferUntil =>
    obtain ⟨-, rfl⟩ := Prod.mk.inj (Option.some.inj hw)
    refine rowsOk_setSession h.ids h.unused (fun j hj => ?_) (fun j _ => ?_) ?_
    · rcases List.mem_append.mp hj with hj | hj
      · exact h.queue j hj
      · rw [List.mem_singleton.mp hj]
        exact hallow
    · exact (h.sessions j).frame le_rfl fun _ => ⟨rfl, rfl⟩
    · exact (h.sessions i).frame le_rfl fun _ => ⟨rfl, rfl⟩
  | _ => exact absurd rfl hq

end Rows

/-! ### The system -/

/-- The session and the row of the write that an event makes, if it makes
one. -/
def Sys.writing (sys : Sys Box) : Event → Option (Nat × Change)
  | .run i =>
    match sys.threads i with
    | some (.ask (.flushChange row) _) => some (i, row)
    | _ => none
  | _ => none

/-- The session that an event ends by an exception, if it ends one so. -/
def Sys.dying (sys : Sys Box) : Event → Option Nat
  | .run i =>
    match sys.threads i with
    | some (.raise _) => some i
    | _ => none
  | _ => none

/-- The write that the event makes, if it makes one, finds in `c` the status
that its session loaded. -/
def FreshWrite (c : ChangeId) (sys : Sys Box) (e : Event) : Prop :=
  ∀ p ∈ sys.writing e, FreshRow c sys.world p.1 p.2

instance (c : ChangeId) (w : World Box) (i : Nat) (row : Change) :
    Decidable (FreshRow c w i row) :=
  inferInstanceAs (Decidable (_ → _))

instance (c : ChangeId) (sys : Sys Box) (e : Event) : Decidable (FreshWrite c sys e) :=
  inferInstanceAs (Decidable (∀ p ∈ sys.writing e, FreshRow c sys.world p.1 p.2))

/-- A state to start from: nothing runs, rows stand under their ids, and no
queued profile has `c` among its members. -/
structure Initial (c : ChangeId) (sys : Sys Box) : Prop where
  threads : ∀ i, sys.threads i = none
  sessions : ∀ i, sys.world.sessions i = {}
  ids : ∀ id r, sys.world.changes id = some r → r.id = id
  unused : sys.world.nextChange ≤ c → sys.world.changes c = none
  queue : ∀ job ∈ sys.world.queue, job.1.spares c

/-- The rows are in order and every program is on the discipline. -/
structure RowInv (c : ChangeId) (sys : Sys Box) : Prop where
  rows : RowsOk c sys.world
  follows : sys.AllFollow (ownRow c) endsOwn (rowPhase c)

section System

variable {c : ChangeId} {env : Env} {B : BoxModel Box} {sys sys' : Sys Box} {e : Event}

theorem Initial.rowInv (h : Initial c sys) : RowInv c sys where
  rows :=
    { ids := h.ids
      unused := h.unused
      queue := h.queue
      sessions := fun i => by
        rw [h.sessions i]
        exact .of_clean (fun _ => rfl) (fun _ => rfl) (by simp) }
  follows i t ht := by
    rw [h.threads i] at ht
    cases ht

theorem RowInv.step (h : RowInv c sys) (hfresh : FreshWrite c sys e)
    (hstep : sys.step env B e = some sys') : RowInv c sys' where
  rows := by
    cases Sys.step_moves hstep with
    | @opened _ i task t queue hfree ho =>
      refine rowsOk_setSession h.rows.ids h.rows.unused (fun job hjob => h.rows.queue job ?_)
        (fun j _ => (h.rows.sessions j).frame le_rfl fun _ => ⟨rfl, rfl⟩)
        (.of_clean (fun _ => rfl) (fun _ => rfl) (by simp))
      cases ho with
      | call => exact hjob
      | sweep => exact hjob
      | job => exact List.mem_of_mem_eraseIdx hjob
    | ended => exact h.rows.rollback (fun _ => rfl) (fun _ => rfl) rfl
    | @served i q k a w ht hw =>
      refine h.rows.serve (h.follows i _ ht).1 (fun row hq => ?_) hw
      subst hq
      exact hfresh (i, row) (by simp [Sys.writing, ht])
    | passed =>
      exact ⟨h.rows.ids, h.rows.unused, h.rows.queue, fun i =>
        (h.rows.sessions i).frame le_rfl fun _ => ⟨rfl, rfl⟩⟩
  follows := by
    refine follows_step (rowPhase_after c) hstep (fun i task t queue ho => ?_)
      (fun i q k a w _ ht hw => ?_) h.follows
    · exact follows_opens h.rows.queue ho
    · -- the answers are rows under their ids, and new rows that nobody knows
      cases q with
      | getChange id =>
        obtain ⟨rfl, -⟩ := Prod.mk.inj (Option.some.inj hw)
        exact h.rows.ids id
      | insertChange row =>
        obtain ⟨rfl, -⟩ := Prod.mk.inj (Option.some.inj hw)
        intro hc
        exact ((h.rows.sessions i).unused (Nat.le_of_eq hc)).1
      | _ => trivial

/-! ### A terminal status is final -/

theorem RowInv.step_terminal (h : RowInv c sys) (hstep : sys.step env B e = some sys')
    {st : Status} (hst : sys.world.status c = some st) (hterm : st.terminal = true) :
    sys'.world.status c = some st ∧
      sys'.world.log.count (.pushed c) = sys.world.log.count (.pushed c) := by
  have hclean := h.rows.no_writer hst hterm
  cases Sys.step_moves hstep with
  | opened => exact ⟨hst, rfl⟩
  | ended => exact ⟨hst, rfl⟩
  | passed => exact ⟨hst, rfl⟩
  | @served i q k a w ht hw =>
    by_cases hq : q.quiet = true
    · have hs := answer_quiet hq hw
      refine ⟨?_, hs.pushes c⟩
      show Option.map _ (World.changes (w.setSession _ _) c) = _
      rw [hs.changes]
      exact hst
    cases q with
    | getChange id =>
      obtain ⟨-, rfl⟩ := Prod.mk.inj (Option.some.inj hw)
      exact ⟨hst, rfl⟩
    | insertChange row =>
      obtain ⟨-, rfl⟩ := Prod.mk.inj (Option.some.inj hw)
      exact ⟨hst, by simp [World.setSession, List.count_append]⟩
    | flushChange row =>
      simp only [World.answer] at hw
      split at hw
      · obtain ⟨-, rfl⟩ := Prod.mk.inj (Option.some.inj hw)
        exact ⟨hst, rfl⟩
      · cases hw
    | commit =>
      obtain ⟨-, rfl⟩ := Prod.mk.inj (Option.some.inj hw)
      refine ⟨?_, rfl⟩
      show Option.map _ ((sys.world.commit i).changes c) = _
      rw [commit_changes_of_clean sys.world (hclean i)]
      exact hst
    | closeSession =>
      obtain ⟨-, rfl⟩ := Prod.mk.inj (Option.some.inj hw)
      exact ⟨hst, rfl⟩
    | beginPush id =>
      obtain ⟨-, rfl⟩ := Prod.mk.inj (Option.some.inj hw)
      have hne : id ≠ c := fun he => (h.follows i _ ht).1.2 he (hclean i)
      exact ⟨hst, by simp [World.setSession, List.count_append, hne]⟩
    | enqueue job deferUntil =>
      obtain ⟨-, rfl⟩ := Prod.mk.inj (Option.some.inj hw)
      exact ⟨hst, rfl⟩
    | _ => exact absurd rfl hq

/-- **A terminal status is final**, in every run whose writes of the change
find the status they were decided on: once it is committed, no later step
changes it or pushes the change. -/
theorem terminal_final (env : Env) (B : BoxModel Box) (c : ChangeId)
    {init mid last : Sys Box} {es₁ es₂ : List Event} (h₀ : Initial c init)
    (hmid : runAll (Sys.step env B) init es₁ = some mid)
    (hlast : runAll (Sys.step env B) mid es₂ = some last)
    (hfresh₁ : Along (Sys.step env B) (FreshWrite c) init es₁)
    (hfresh₂ : Along (Sys.step env B) (FreshWrite c) mid es₂)
    {st : Status} (hst : mid.world.status c = some st) (hterm : st.terminal = true) :
    last.world.status c = some st ∧
      last.world.log.count (.pushed c) = mid.world.log.count (.pushed c) := by
  have hinv : RowInv c mid :=
    runAll_invariant (fun _ _ _ h hG hs => h.step hG hs) h₀.rowInv hfresh₁ hmid
  have hrun : RowInv c last ∧ last.world.status c = some st ∧
      last.world.log.count (.pushed c) = mid.world.log.count (.pushed c) := by
    refine runAll_invariant (P := fun s => RowInv c s ∧ s.world.status c = some st ∧
      s.world.log.count (.pushed c) = mid.world.log.count (.pushed c)) (fun s e s' h hG hs => ?_)
      ⟨hinv, hst, rfl⟩ hfresh₂ hlast
    obtain ⟨hi, hs₁, hn⟩ := h
    obtain ⟨hs₂, hn₂⟩ := hi.step_terminal hs hs₁ hterm
    exact ⟨hi.step hG hs, hs₂, hn₂.trans hn⟩
  exact hrun.2

/-! ### One push -/

/-- No session dies by an exception in the middle of a push of `c`. -/
def PushSurvives (c : ChangeId) (sys : Sys Box) (e : Event) : Prop :=
  ∀ i ∈ sys.dying e, (sys.world.sessions i).pushing ≠ some c

instance (c : ChangeId) (sys : Sys Box) (e : Event) : Decidable (PushSurvives c sys e) :=
  inferInstanceAs (Decidable (∀ i ∈ sys.dying e, (sys.world.sessions i).pushing ≠ some c))

/-- The change was never pushed; or once, and then its status is terminal or
the push is still under way. -/
structure OnceInv (c : ChangeId) (sys : Sys Box) : Prop extends RowInv c sys where
  idle : ∀ i, sys.threads i = none → (sys.world.sessions i).pushing = none
  once : sys.world.log.count (.pushed c) = 0 ∨
    (sys.world.log.count (.pushed c) = 1 ∧
      ((∃ st, sys.world.status c = some st ∧ st.terminal = true) ∨
        ∃ i, (sys.world.sessions i).pushing = some c))

theorem step_pushes (hstep : sys.step env B e = some sys') :
    sys'.world.log.count (.pushed c) = sys.world.log.count (.pushed c) ∨
    ∃ i k, e = .run i ∧ sys.threads i = some (.ask (.beginPush c) k) ∧
      sys'.world.log.count (.pushed c) = sys.world.log.count (.pushed c) + 1 ∧
      (sys'.world.sessions i).pushing = some c := by
  cases Sys.step_moves hstep with
  | opened => exact .inl rfl
  | ended => exact .inl rfl
  | passed => exact .inl rfl
  | @served i q k a w ht hw =>
    by_cases hq : q.quiet = true
    · exact .inl ((answer_quiet hq hw).pushes c)
    cases q with
    | beginPush id =>
      obtain ⟨-, rfl⟩ := Prod.mk.inj (Option.some.inj hw)
      by_cases hid : id = c
      · subst hid
        refine .inr ⟨i, k, rfl, ht, by simp [World.setSession, List.count_append], ?_⟩
        rw [World.setSession_sessions, Function.update_self]
        rfl
      · exact .inl (by simp [World.setSession, List.count_append, hid])
    | insertChange row =>
      obtain ⟨-, rfl⟩ := Prod.mk.inj (Option.some.inj hw)
      exact .inl (by simp [World.setSession, List.count_append])
    | flushChange row =>
      simp only [World.answer] at hw
      split at hw
      · obtain ⟨-, rfl⟩ := Prod.mk.inj (Option.some.inj hw)
        exact .inl rfl
      · cases hw
    | getChange | commit | closeSession | enqueue =>
      obtain ⟨-, rfl⟩ := Prod.mk.inj (Option.some.inj hw)
      exact .inl rfl
    | _ => exact absurd rfl hq

theorem RowInv.commit_push (h : RowInv c sys) {i : Nat} {k : Unit → Program Unit}
    (ht : sys.threads i = some (.ask .commit k))
    (hp : (sys.world.sessions i).pushing = some c) :
    ∃ st, (sys.world.commit i).status c = some st ∧ st.terminal = true := by
  have hi := h.rows.sessions i
  obtain ⟨row, hrow, hterm⟩ := (h.follows i _ ht).1 (decide_eq_true hp)
  have hrow : (sys.world.sessions i).dirty c = some row := hrow
  have hd : (sys.world.sessions i).dirty c ≠ none := by simp [hrow]
  refine ⟨row.status, ?_, hterm⟩
  show Option.map Change.status (World.mergeRow _ _ _) = _
  rw [hrow]
  rcases hl : (sys.world.sessions i).loaded c with - | old
  · rfl
  · rcases hb : sys.world.changes c with - | base
    · rfl
    · -- the terminal status differs from the open one it replaces
      have hopen := hi.isOpen hd old hl
      have hne : row.status ≠ old.status := by
        rintro he
        rw [he] at hterm
        rcases hopen with ho | ho <;> rw [ho] at hterm <;> cases hterm
      simp [World.mergeRow, Change.patch, overwrite, hne]

/-- A push under way stays so until its commit, unless its session dies. -/
theorem RowInv.step_pushing (h : RowInv c sys) (hsurvive : PushSurvives c sys e)
    (hstep : sys.step env B e = some sys')
    (hidle : ∀ i, sys.threads i = none → (sys.world.sessions i).pushing = none)
    {j : Nat} (hj : (sys.world.sessions j).pushing = some c) :
    (sys'.world.sessions j).pushing = some c ∨
      ∃ st, sys'.world.status c = some st ∧ st.terminal = true := by
  -- a step of another session does not touch it
  have hother : ∀ {i : Nat} {s : Session} {w : World Box}, i ≠ j → w.sessions = sys.world.sessions →
      ((w.setSession i s).sessions j).pushing = some c := by
    intro i s w hij hw
    rw [World.setSession_sessions, Function.update_of_ne (Ne.symm hij), hw]
    exact hj
  cases Sys.step_moves hstep with
  | @opened _ i task t queue hfree ho =>
    refine .inl (hother ?_ rfl)
    rintro rfl
    rw [hidle i hfree] at hj
    cases hj
  | @ended i t ht hend =>
    refine .inl (hother ?_ rfl)
    rintro rfl
    rcases hend with rfl | ⟨x, rfl⟩
    · have hp : decide ((sys.world.sessions i).pushing = some c) = false := h.follows i _ ht
      exact of_decide_eq_false hp hj
    · exact hsurvive i (by simp [Sys.dying, ht]) hj
  | passed => exact .inl hj
  | @served i q k a w ht hw =>
    by_cases hij : i = j
    · subst hij
      have hsame : ((sys.world.sessions i).after q a).pushing = some c →
          ((w.setSession i ((sys.world.sessions i).after q a)).sessions i).pushing = some c := by
        rw [World.setSession_sessions, Function.update_self]
        exact id
      have hdec : (rowPhase c (sys.world.sessions i)).pushing = true := decide_eq_true hj
      cases q with
      | commit =>
        obtain ⟨-, rfl⟩ := Prod.mk.inj (Option.some.inj hw)
        exact .inr (h.commit_push ht hj)
      | beginPush id =>
        have hp := (h.follows i _ ht).1.1
        rw [hdec] at hp
        cases hp
      | closeSession =>
        have hp : _ = false := (h.follows i _ ht).1
        rw [hdec] at hp
        cases hp
      | _ => exact .inl (hsame hj)
    · exact .inl (hother hij (World.answer_sessions hw))

theorem OnceInv.step (h : OnceInv c sys) (hfresh : FreshWrite c sys e)
    (hsurvive : PushSurvives c sys e) (hstep : sys.step env B e = some sys') :
    OnceInv c sys' where
  toRowInv := h.toRowInv.step hfresh hstep
  idle j hj := by
    have hother : ∀ {i : Nat} {t : Option (Program Unit)} {s : Session} {w : World Box}, i ≠ j →
        w.sessions = sys.world.sessions → Function.update sys.threads i t j = none →
        ((w.setSession i s).sessions j).pushing = none := by
      intro i t s w hij hw ht
      rw [Function.update_of_ne (Ne.symm hij)] at ht
      rw [World.setSession_sessions, Function.update_of_ne (Ne.symm hij), hw]
      exact h.idle j ht
    cases Sys.step_moves hstep with
    | @opened _ i task t queue hfree ho =>
      by_cases hij : i = j
      · subst hij
        simp at hj
      · exact hother hij rfl hj
    | @ended i t ht hend =>
      by_cases hij : i = j
      · subst hij
        rw [World.setSession_sessions, Function.update_self]
      · exact hother hij rfl hj
    | passed => exact h.idle j hj
    | @served i q k a w ht hw =>
      by_cases hij : i = j
      · subst hij
        simp at hj
      · exact hother hij (World.answer_sessions hw) hj
  once := by
    rcases h.once with h0 | ⟨h1, ⟨st, hst, hterm⟩ | ⟨j, hj⟩⟩
    · rcases step_pushes (c := c) hstep with hc | ⟨i, k, -, -, hc, hp⟩
      · exact .inl (hc.trans h0)
      · exact .inr ⟨by rw [hc, h0], .inr ⟨i, hp⟩⟩
    · obtain ⟨hst', hc⟩ := h.toRowInv.step_terminal hstep hst hterm
      exact .inr ⟨hc.trans h1, .inl ⟨st, hst', hterm⟩⟩
    · have hnext := h.toRowInv.step_pushing hsurvive hstep h.idle hj
      have hend : (∃ st, sys'.world.status c = some st ∧ st.terminal = true) ∨
          ∃ i, (sys'.world.sessions i).pushing = some c := hnext.elim (fun hp => .inr ⟨j, hp⟩) .inl
      rcases step_pushes (c := c) hstep with hc | ⟨i, k, rfl, ht, -, -⟩
      · exact .inr ⟨hc.trans h1, hend⟩
      · -- a second mark would come from the session that holds the row already
        exfalso
        have hi : (sys.world.sessions i).dirty c ≠ none := (h.follows i _ ht).1.2 rfl
        have hlock := (h.rows.sessions i).lock hi
        have hji : j = i := by
          by_contra hne
          exact (h.rows.sessions j).pushing hj (h.rows.clean_of_lock (.inr hlock) hne)
        subst hji
        have hp : decide ((sys.world.sessions j).pushing = some c) = false :=
          (h.follows j _ ht).1.1
        exact of_decide_eq_false hp hj

/-- **A change is pushed at most once**, in every run whose writes of the
change find the status they were decided on, and in which no session dies by
an exception in the middle of the push. -/
theorem pushed_at_most_once (env : Env) (B : BoxModel Box) (c : ChangeId)
    {init last : Sys Box} {es : List Event} (h₀ : Initial c init)
    (hlog : LogEntry.pushed c ∉ init.world.log)
    (hrun : runAll (Sys.step env B) init es = some last)
    (hfresh : Along (Sys.step env B) (fun s e => FreshWrite c s e ∧ PushSurvives c s e) init es) :
    last.world.log.count (.pushed c) ≤ 1 := by
  have hinit : OnceInv c init :=
    { h₀.rowInv with
      idle := fun i _ => by rw [h₀.sessions i]
      once := .inl (List.count_eq_zero.mpr hlog) }
  have hlast : OnceInv c last :=
    runAll_invariant (fun _ _ _ h hG hs => h.step hG.1 hG.2 hs) hinit hfresh hrun
  rcases hlast.once with h | ⟨h, -⟩
  · omega
  · omega

end System

/-! ### Two jobs for one change -/

/-- A world at rest: the given rows, one device with its box, live push on. -/
def restingWorld (rows : List Change) (snapshots : List Snapshot) (box : Box) : World Box where
  changes id := rows.find? fun c => c.id = id
  nextChange := rows.length + 1
  devices d := if d = 1 then some { tenantId := 0, firmwareVersion := none, credentials := true }
    else none
  snapshots := snapshots
  nextSnapshot := snapshots.length
  alerts := []
  livePush := some true
  clock := 0
  boxes _ := box
  advisory _ := none
  rowLock _ := none
  queue := []
  sessions _ := {}
  log := []

def resting (rows : List Change) (snapshots : List Snapshot) (box : Box) : Sys Box where
  world := restingWorld rows snapshots box
  threads _ := none

theorem resting_initial {rows : List Change} (hrows : ∀ r ∈ rows, r.id ≤ rows.length)
    (snapshots : List Snapshot) (box : Box) (c : ChangeId) :
    Initial c (resting rows snapshots box) where
  threads _ := rfl
  sessions _ := rfl
  ids id r h := by simpa using List.find?_some h
  unused hle := by
    refine List.find?_eq_none.mpr fun r hr hid => ?_
    have hid : r.id = c := by simpa using hid
    have hle : rows.length + 1 ≤ c := hle
    exact absurd (hid ▸ hrows r hr) (not_le.mpr hle)
  queue := by simp [resting, restingWorld]

/-- `n` steps of session `i`. -/
def steps (i n : Nat) : List Event := List.replicate n (.run i)

/-- A box that has the alias `web` or not, and refuses a second one. -/
def webBox : BoxModel Bool where
  backup present :=
    (.ok (if present then "<opnsense><alias>web</alias></opnsense>" else "<opnsense/>"), present)
  respond present r :=
    match r with
    | .aliasAdd _ =>
      if present then
        (.ok (.obj [("result", .str "failed"),
          ("validations", .obj [("alias.name", .str "An alias with this name already exists.")])]),
          present)
      else (.ok (.obj [("result", .str "saved"), ("uuid", .str "a1")]), true)
    | _ => (.ok (.obj [("status", .str "ok")]), present)

/-- The documents of `webBox` with their digests. -/
def webEnv : Env :=
  Env.ofDocuments
    [("<opnsense/>", .mk "opnsense" [] "" []),
      ("<opnsense><alias>web</alias></opnsense>",
        .mk "opnsense" [] "" [.mk "alias" [] "web" []])]
    [("opnsense=", "095c6c6552b486ae9786f2683d1e71230128c6bb275d87ea7ed6d1442f856482"),
      ("opnsense/alias=web", "3efc970b575c6234dc24469f4c61ba98b3163356114d4f5646107a6e627a9cf5")]

/-- A draft that adds the alias `web`, proposed before any snapshot. -/
def webDraft : Change where
  id := 1
  tenantId := 0
  deviceId := 1
  kind := "alias"
  operation := "add"
  target := "web"
  payload := [("name", .str "web"), ("type", .str "host"), ("content", .str "10.0.0.1")]
  baselineHash := ""
  status := .draft
  sweepAttempts := 0
  revertsChangeId := none
  scheduledAt := none
  appliedAt := none
  result := .obj []
  preApplySnapshotId := none
  createdAt := 0

/-- The change is scheduled twice; both jobs load the row before the first of
them commits. -/
def scheduledTwice : List Event :=
  .call 1 (.scheduleConfigChange 0 1 1 none) :: steps 1 5 ++
  .call 2 (.scheduleConfigChange 0 1 1 none) :: steps 2 5 ++
  [.dequeue 3 0, .dequeue 4 0, .run 3, .run 4] ++ steps 3 15 ++ steps 4 14

/-- The second job finds the lock free and the baseline empty, and pushes the
change again. -/
theorem scheduledTwice_pushes_twice :
    ¬ ∀ last, runAll (Sys.step webEnv webBox) (resting [webDraft] [] false) scheduledTwice =
        some last → last.world.log.count (.pushed 1) ≤ 1 := by
  intro h
  have hcount : (runAll (Sys.step webEnv webBox) (resting [webDraft] [] false)
      scheduledTwice).map (fun s => s.world.log.count (.pushed 1)) = some 2 := by
    decide +kernel
  obtain ⟨last, hrun, htwo⟩ := Option.map_eq_some_iff.mp hcount
  have hone := h last hrun
  omega

def scheduledOnce : List Event :=
  .call 1 (.scheduleConfigChange 0 1 1 none) :: steps 1 5 ++ .dequeue 2 0 :: steps 2 16

/-- Scheduled once, the change is pushed, and not more than once. -/
theorem scheduledOnce_pushes_once :
    ∃ last, runAll (Sys.step webEnv webBox) (resting [webDraft] [] false) scheduledOnce =
        some last ∧ LogEntry.pushed 1 ∈ last.world.log ∧
      last.world.log.count (.pushed 1) ≤ 1 := by
  have hpushed : (runAll (Sys.step webEnv webBox) (resting [webDraft] [] false)
      scheduledOnce).map (fun s => decide (LogEntry.pushed 1 ∈ s.world.log)) = some true := by
    decide +kernel
  obtain ⟨last, hrun, hmem⟩ := Option.map_eq_some_iff.mp hpushed
  refine ⟨last, hrun, of_decide_eq_true hmem, ?_⟩
  exact pushed_at_most_once webEnv webBox 1 (resting_initial (by simp [webDraft]) [] false 1)
    (by simp [resting, restingWorld]) hrun (by decide +kernel)

/-! ### A cancel that overtakes a job -/

/-- The job has loaded the row when the cancel commits. -/
def cancelledMeanwhile : List Event :=
  .call 1 (.scheduleConfigChange 0 1 1 none) :: steps 1 5 ++
  [.dequeue 2 0, .run 2] ++ .call 3 (.cancelConfigChange 0 1 1) :: steps 3 4

/-- The cancelled change is pushed, and ends `applied`. -/
theorem cancelledMeanwhile_pushed :
    (runAll (Sys.step webEnv webBox) (resting [webDraft] [] false) cancelledMeanwhile).map
        (fun s => (s.world.status 1, s.world.log.count (.pushed 1))) = some (some .cancelled, 0) ∧
    (runAll (Sys.step webEnv webBox) (resting [webDraft] [] false)
        (cancelledMeanwhile ++ steps 2 15)).map
        (fun s => (s.world.status 1, s.world.log.count (.pushed 1))) = some (some .applied, 1) := by
  constructor <;> decide +kernel

/-- A second schedule request after the change was applied is refused, and
leaves it applied. -/
theorem scheduledOnce_stays_applied :
    ∃ mid last, runAll (Sys.step webEnv webBox) (resting [webDraft] [] false) scheduledOnce =
        some mid ∧
      runAll (Sys.step webEnv webBox) mid
        (.call 3 (.scheduleConfigChange 0 1 1 none) :: steps 3 2) = some last ∧
      last.world.status 1 = some .applied ∧
      last.world.log.count (.pushed 1) = mid.world.log.count (.pushed 1) := by
  have hrun : ((runAll (Sys.step webEnv webBox) (resting [webDraft] [] false)
      scheduledOnce).bind fun mid => (runAll (Sys.step webEnv webBox) mid
        (.call 3 (.scheduleConfigChange 0 1 1 none) :: steps 3 2)).bind fun last =>
          some (decide (mid.world.status 1 = some .applied ∧
            Along (Sys.step webEnv webBox) (FreshWrite 1) mid
              (.call 3 (.scheduleConfigChange 0 1 1 none) :: steps 3 2)))) = some true := by
    decide +kernel
  obtain ⟨mid, hmid, hrest⟩ := Option.bind_eq_some_iff.mp hrun
  obtain ⟨last, hlast, hdec⟩ := Option.bind_eq_some_iff.mp hrest
  obtain ⟨hst, hfresh⟩ := of_decide_eq_true (Option.some.inj hdec)
  exact ⟨mid, last, hmid, hlast, terminal_final webEnv webBox 1
    (resting_initial (by simp [webDraft]) [] false 1) hmid hlast (by decide +kernel) hfresh hst rfl⟩

end Opngms
