/-
Opngms/Transactions.lean

Transactions under READ COMMITTED, with row locks.

A database maps keys to rows.  A session reads the committed rows, except where
it has written itself (`Db.view`).  A write puts a lock on its row, which
belongs to the session until it commits or is rolled back, and a second writer
of the row waits for it.  A plain read takes no lock and waits for nothing.

What a session has locked is its `Phase`: each row as it was committed when the
lock was taken, and as it is now.  Only the session's own statements move it
(`serve_phase`), so a program can be checked by itself, as a discipline of the
module `Dialogue`: `transaction Good` lets it commit only in a phase that is
`Good`.  And as a locked row is not changed by anyone else, the phase at the
commit is what the commit does to the database.  `step_invariant` and
`run_invariant` put the two together: a property that every `Good` commit keeps
holds along every interleaving.
-/
import Mathlib.Logic.Function.Basic
import Opngms.Pool

namespace Transactions

/-- Keys that are handed out in turn carry their number. -/
class Serial (K : Type) where
  serial : K → Nat

export Serial (serial)

/-- The statements of a session.  A `modify` finds the row, and changes it or
deletes it if the condition of the statement, the outer option, accepts it. -/
inductive Stmt (K : Type) [Serial K] (V : K → Type) (N : Type) where
  | select (k : K)
  | scan (p : K → Bool)
  | modify (k : K) (f : V k → Option (Option (V k)))
  | insert (k : K) (v : V k)
  | create (key : Nat → K) (hkey : ∀ n, serial (key n) = n) (v : (n : Nat) → V (key n))
  | note (n : N)
  | commit

namespace Stmt

variable {K : Type} [Serial K] {V : K → Type} {N : Type}

/-- What a statement returns: the row it found, the rows it found, whether the
key was free, the number of the new key. -/
def Answer : Stmt K V N → Type
  | select k => Option (V k)
  | scan _ => List ((k : K) × V k)
  | modify k _ => Option (V k)
  | insert _ _ => Bool
  | create _ _ _ => Nat
  | note _ => Unit
  | commit => Unit

end Stmt

abbrev Sql (K : Type) [Serial K] (V : K → Type) (N ε α : Type) :=
  Dialogue (Stmt K V N) Stmt.Answer ε α

namespace Sql

variable {K : Type} [Serial K] {V : K → Type} {N ε : Type}

/-- `SELECT` of the row. -/
def select (k : K) : Sql K V N ε (Option (V k)) := .ask (.select k) .pure

/-- `SELECT` of the rows under the keys of `p`. -/
def scan (p : K → Bool) : Sql K V N ε (List ((k : K) × V k)) := .ask (.scan p) .pure

/-- `UPDATE … WHERE`, or `DELETE … WHERE`. -/
def modify (k : K) (f : V k → Option (Option (V k))) : Sql K V N ε (Option (V k)) :=
  .ask (.modify k f) .pure

/-- `SELECT … FOR UPDATE`. -/
def forUpdate (k : K) : Sql K V N ε (Option (V k)) := modify k fun v => some (some v)

/-- `UPDATE` of the row, whatever it is. -/
def update (k : K) (f : V k → V k) : Sql K V N ε (Option (V k)) :=
  modify k fun v => some (some (f v))

/-- `DELETE` of the row. -/
def delete (k : K) : Sql K V N ε (Option (V k)) := modify k fun _ => some none

/-- `DELETE` of rows that were found, one after the other. -/
def deleteAll : List ((k : K) × V k) → Sql K V N ε Unit
  | [] => .pure ()
  | ⟨k, _⟩ :: rest => (delete k).bind fun _ => deleteAll rest

/-- `INSERT` under a key of the program's own. -/
def insert (k : K) (v : V k) : Sql K V N ε Bool := .ask (.insert k v) .pure

/-- `INSERT` under a new key. -/
def create (key : Nat → K) (hkey : ∀ n, serial (key n) = n) (v : (n : Nat) → V (key n)) :
    Sql K V N ε Nat := .ask (.create key hkey v) .pure

/-- `INSERT` of a row for each `x` in the list, under new keys. -/
def createAll {α : Type} (key : Nat → K) (hkey : ∀ n, serial (key n) = n)
    (v : α → (n : Nat) → V (key n)) : List α → Sql K V N ε Unit
  | [] => .pure ()
  | x :: rest => (create key hkey (v x)).bind fun _ => createAll key hkey v rest

def note (n : N) : Sql K V N ε Unit := .ask (.note n) .pure

/-- `COMMIT`. -/
def commit : Sql K V N ε Unit := .ask .commit .pure

end Sql

/-! ### The database -/

/-- The committed rows, the locks with the rows their owners see, and what has
been noted.  `keys` are the keys in use so far. -/
structure Db (K : Type) [Serial K] (V : K → Type) (N : Type) where
  row : (k : K) → Option (V k)
  lock : (k : K) → Option (Nat × Option (V k))
  keys : List K
  /-- The next number to hand out. -/
  issued : Nat
  /-- What each session has noted since it last committed. -/
  notes : Nat → List N
  /-- What was noted and committed. -/
  log : List N
  complete : ∀ k, row k ≠ none ∨ lock k ≠ none → k ∈ keys
  fresh : ∀ k ∈ keys, serial k < issued

namespace Db

variable {K : Type} [Serial K] {V : K → Type} {N : Type}

/-- The row as session `i` sees it. -/
def view (d : Db K V N) (i : Nat) (k : K) : Option (V k) :=
  match d.lock k with
  | some (j, v) => if j = i then v else d.row k
  | none => d.row k

/-- The rows session `i` sees under the keys of `p`. -/
def found (d : Db K V N) (i : Nat) (p : K → Bool) : List ((k : K) × V k) :=
  (d.keys.filter p).filterMap fun k => (d.view i k).map fun v => ⟨k, v⟩

/-- Another session has locked the row. -/
def taken (d : Db K V N) (i : Nat) (k : K) : Bool :=
  match d.lock k with
  | some (j, _) => j != i
  | none => false

/-- Session `i` lets go of its rows. -/
def released (d : Db K V N) (i : Nat) (k : K) : Option (Nat × Option (V k)) :=
  (d.lock k).filter fun l => l.1 != i

theorem released_ne_none {d : Db K V N} {i : Nat} {k : K} (h : d.released i k ≠ none) :
    d.lock k ≠ none := by
  intro hn
  apply h
  simp [released, hn]

/-- The end of session `i`'s transaction: its rows become the committed ones. -/
def commit (d : Db K V N) (i : Nat) : Db K V N where
  row := d.view i
  lock := d.released i
  keys := d.keys
  issued := d.issued
  notes := Function.update d.notes i []
  log := d.log ++ d.notes i
  complete := by
    intro k h
    apply d.complete k
    rcases h with h | h
    · by_cases hl : d.lock k = none
      · left
        simpa [view, hl] using h
      · exact .inr hl
    · exact .inr (released_ne_none h)
  fresh := d.fresh

/-- The end of session `i`'s transaction without its writes. -/
def rollback (d : Db K V N) (i : Nat) : Db K V N where
  row := d.row
  lock := d.released i
  keys := d.keys
  issued := d.issued
  notes := Function.update d.notes i []
  log := d.log
  complete := fun k h => d.complete k (h.imp_right released_ne_none)
  fresh := d.fresh

/-- Add to what session `i` has noted. -/
def addNote (d : Db K V N) (i : Nat) (n : N) : Db K V N :=
  { d with notes := Function.update d.notes i (d.notes i ++ [n]) }

/-- No session has written or noted anything. -/
structure Idle (d : Db K V N) : Prop where
  lock : ∀ k, d.lock k = none
  notes : ∀ i, d.notes i = []

theorem unused_of_serial {d : Db K V N} {k : K} (h : serial k = d.issued) :
    d.row k = none ∧ d.lock k = none := by
  have hk : k ∉ d.keys := by
    intro hk
    have := d.fresh k hk
    omega
  constructor
  · by_contra hn
    exact hk (d.complete k (.inl hn))
  · by_contra hn
    exact hk (d.complete k (.inr hn))

variable [DecidableEq K]

/-- Session `i` locks the row, which is `v` for it from here on. -/
def put (d : Db K V N) (i : Nat) (k : K) (v : Option (V k)) : Db K V N where
  row := d.row
  lock := Function.update d.lock k (some (i, v))
  keys := if k ∈ d.keys then d.keys else d.keys ++ [k]
  issued := max d.issued (serial k + 1)
  notes := d.notes
  log := d.log
  complete := by
    intro k' h
    by_cases hk : k' = k
    · subst hk
      split <;> simp_all
    · have hold : k' ∈ d.keys := d.complete k' (by simpa [hk] using h)
      split <;> simp [hold]
  fresh := by
    intro k' h
    have hold : k' ∈ d.keys ∨ k' = k := by
      split at h
      · exact .inl h
      · simpa using h
    rcases hold with hold | rfl
    · have := d.fresh k' hold
      omega
    · omega

/-- Serve a statement of session `i`; `none` while it waits for a lock. -/
def serve (i : Nat) (d : Db K V N) : (q : Stmt K V N) → Option (q.Answer × Db K V N)
  | .select k => some (d.view i k, d)
  | .scan p => some (d.found i p, d)
  | .modify k f =>
    match d.view i k with
    | none => some (none, d)
    | some v =>
      match f v with
      | none => some (none, d)
      | some w => if d.taken i k then none else some (some v, d.put i k w)
  | .insert k v =>
    if d.taken i k then none
    else if (d.view i k).isSome then some (false, d)
    else some (true, d.put i k (some v))
  | .create key _ v => some (d.issued, d.put i (key d.issued) (some (v d.issued)))
  | .note n => some ((), d.addNote i n)
  | .commit => some ((), d.commit i)

def empty : Db K V N where
  row _ := none
  lock _ := none
  keys := []
  issued := 0
  notes _ := []
  log := []
  complete := by simp
  fresh := by simp

def load (rows : List ((k : K) × V k)) : Db K V N :=
  (rows.foldl (fun d x => d.put 0 x.1 (some x.2)) empty).commit 0

theorem idle_load (rows : List ((k : K) × V k)) : (load rows : Db K V N).Idle := by
  -- until the commit every lock is session 0's, and nothing is noted
  have hown : ∀ (rows : List ((k : K) × V k)) (d : Db K V N),
      (∀ k l, d.lock k = some l → l.1 = 0) → (∀ i, d.notes i = []) →
      let d' := rows.foldl (fun d x => d.put 0 x.1 (some x.2)) d
      (∀ k l, d'.lock k = some l → l.1 = 0) ∧ ∀ i, d'.notes i = [] := by
    intro rows
    induction rows with
    | nil => exact fun d hlock hnotes => ⟨hlock, hnotes⟩
    | cons x rows ih =>
      intro d hlock hnotes
      refine ih (d.put 0 x.1 (some x.2)) (fun k l hl => ?_) hnotes
      by_cases hk : k = x.1
      · subst hk
        simp only [put, Function.update_self, Option.some.injEq] at hl
        rw [← hl]
      · simp only [put, Function.update_of_ne hk] at hl
        exact hlock k l hl
  obtain ⟨hlock, hnotes⟩ := hown rows empty nofun fun _ => rfl
  constructor
  · intro k
    show released _ 0 k = none
    unfold released
    rw [Option.filter_eq_none_iff]
    intro l hl
    simp [hlock k l hl]
  · intro i
    by_cases hi : i = 0
    · simp [load, commit, hi]
    · simpa [load, commit, hi] using hnotes i

/-- A statement leaves the database as it is, adds a note, takes a lock that is
free, or commits. -/
theorem serve_cases {d d' : Db K V N} {i : Nat} {q : Stmt K V N} {a : q.Answer}
    (h : d.serve i q = some (a, d')) :
    d' = d ∨ (∃ n, q = .note n ∧ d' = d.addNote i n) ∨
      (∃ k v, d' = d.put i k v ∧ d.taken i k = false ∧
        (d.row k = none → d.lock k = none → serial k = d.issued ∨ ∃ v, q = .insert k v)) ∨
      (q = .commit ∧ d' = d.commit i) := by
  cases q with
  | select k =>
    cases h
    exact .inl rfl
  | scan p =>
    cases h
    exact .inl rfl
  | modify k f =>
    simp only [serve] at h
    split at h
    · cases h
      exact .inl rfl
    · rename_i v hv
      split at h
      · cases h
        exact .inl rfl
      · split at h
        · cases h
        · cases h
          refine .inr (.inr (.inl ⟨k, _, rfl, by simp_all, ?_⟩))
          -- the row was there
          intro hr hl
          simp [view, hr, hl] at hv
  | insert k v =>
    simp only [serve] at h
    split at h
    · cases h
    · split at h
      · cases h
        exact .inl rfl
      · cases h
        exact .inr (.inr (.inl ⟨k, _, rfl, by simp_all, fun _ _ => .inr ⟨v, rfl⟩⟩))
  | create key hkey v =>
    cases h
    refine .inr (.inr (.inl ⟨key d.issued, _, rfl, ?_, fun _ _ => .inl (hkey d.issued)⟩))
    simp [taken, (unused_of_serial (hkey d.issued)).2]
  | note n =>
    cases h
    exact .inr (.inl ⟨n, rfl, rfl⟩)
  | commit =>
    cases h
    exact .inr (.inr (.inr ⟨rfl, rfl⟩))

end Db

/-! ### Phases -/

/-- What a session has locked, each row as it was committed and as it is for the
session, and what it has noted. -/
structure Phase (K : Type) (V : K → Type) (N : Type) where
  held : (k : K) → Option (Option (V k) × Option (V k))
  notes : List N

namespace Phase

variable {K : Type} {V : K → Type} {N : Type}

def clear : Phase K V N := ⟨fun _ => none, []⟩

/-- The committed row under a lock; `free` if there is none. -/
def before (ph : Phase K V N) (k : K) (free : Option (V k)) : Option (V k) :=
  match ph.held k with
  | some (v, _) => v
  | none => free

variable [DecidableEq K]

/-- The row is `now` for the session; `before` is the committed one. -/
def put (ph : Phase K V N) (k : K) (before now : Option (V k)) : Phase K V N :=
  { ph with held := Function.update ph.held k (some (before, now)) }

@[simp] theorem held_put_self (ph : Phase K V N) (k : K) (before now : Option (V k)) :
    (ph.put k before now).held k = some (before, now) := by
  simp [put]

theorem held_put_of_ne {ph : Phase K V N} {k k' : K} {before now : Option (V k)} (h : k' ≠ k) :
    (ph.put k before now).held k' = ph.held k' := by
  simp [put, h]

@[simp] theorem put_put (ph : Phase K V N) (k : K) (b n b' n' : Option (V k)) :
    (ph.put k b n).put k b' n' = ph.put k b' n' := by
  simp [put]

variable [Serial K]

/-- What the phase says of an answer: a session sees its own rows, it finds what
it looked for, a changed row is one the condition accepts, and a new key is not
locked. -/
def Admits (ph : Phase K V N) : (q : Stmt K V N) → q.Answer → Prop
  | .select k, a => ∀ b n, ph.held k = some (b, n) → a = n
  | .scan p, (a : List ((k : K) × V k)) => ∀ x ∈ a, p x.1 = true
  | .modify k f, a =>
    (∀ v, a = some v → f v ≠ none) ∧
      ∀ b v, ph.held k = some (b, some v) → f v ≠ none → a = some v
  | .create key _ _, n => ph.held (key n) = none
  | _, _ => True

/-- What a statement makes of the phase. -/
def next (ph : Phase K V N) : (q : Stmt K V N) → q.Answer → Phase K V N
  | .select _, _ => ph
  | .scan _, _ => ph
  | .modify k f, a =>
    match a with
    | none => ph
    | some v =>
      match f v with
      | none => ph
      | some w => ph.put k (ph.before k (some v)) w
  | .insert k v, a =>
    match a with
    | true => ph.put k (ph.before k none) (some v)
    | false => ph
  | .create key _ v, n => ph.put (key n) none (some (v n))
  | .note n, _ => { ph with notes := ph.notes ++ [n] }
  | .commit, _ => clear

end Phase

/-- The discipline of transactions: a commit in a good phase only, and an
insertion under the keys of `Own` only. -/
def transaction {K : Type} [Serial K] [DecidableEq K] {V : K → Type} {N : Type} (Own : K → Prop)
    (Good : Phase K V N → Prop) : Dialogue.Discipline (Stmt K V N) Stmt.Answer (Phase K V N) where
  allows ph q :=
    match q with
    | .insert k _ => Own k
    | .commit => Good ph
    | _ => True
  admits := Phase.Admits
  next := Phase.next

namespace Sql

section Rules

variable {K : Type} [Serial K] [DecidableEq K] {V : K → Type} {N ε β : Type} {Own : K → Prop}
  {Good : Phase K V N → Prop} {Z : Phase K V N → Except ε β → Prop} {ph : Phase K V N} {k : K}

theorem follows_select {f : Option (V k) → Sql K V N ε β}
    (h : ∀ a, (∀ b n, ph.held k = some (b, n) → a = n) →
      (f a).Follows (transaction Own Good) Z ph) :
    ((select k).bind f).Follows (transaction Own Good) Z ph :=
  ⟨trivial, h⟩

theorem follows_scan {p : K → Bool} {f : List ((k : K) × V k) → Sql K V N ε β}
    (h : ∀ a, (∀ x ∈ a, p x.1 = true) → (f a).Follows (transaction Own Good) Z ph) :
    ((scan p).bind f).Follows (transaction Own Good) Z ph :=
  ⟨trivial, h⟩

theorem follows_modify {g : V k → Option (Option (V k))} {f : Option (V k) → Sql K V N ε β}
    (hnone : (∀ b v, ph.held k = some (b, some v) → g v = none) →
      (f none).Follows (transaction Own Good) Z ph)
    (hsome : ∀ v w, g v = some w →
      (∀ b u, ph.held k = some (b, some u) → g u ≠ none → v = u) →
      (f (some v)).Follows (transaction Own Good) Z (ph.put k (ph.before k (some v)) w)) :
    ((modify k g).bind f).Follows (transaction Own Good) Z ph := by
  refine ⟨trivial, fun a ha => ?_⟩
  obtain ⟨hacc, hheld⟩ := ha
  cases a with
  | none =>
    apply hnone
    intro b v hv
    by_contra hg
    cases hheld b v hv hg
  | some v =>
    cases hg : g v with
    | none => exact absurd hg (hacc v rfl)
    | some w =>
      have hnext : (transaction Own Good).next ph (.modify k g) (some v) =
          ph.put k (ph.before k (some v)) w := by
        simp [transaction, Phase.next, hg]
      rw [hnext]
      refine hsome v w hg fun b u hu hgu => ?_
      exact Option.some.inj (hheld b u hu hgu)

theorem follows_modify_held {g : V k → Option (Option (V k))} {f : Option (V k) → Sql K V N ε β}
    {b : Option (V k)} {v : V k} {w : Option (V k)} (hheld : ph.held k = some (b, some v))
    (hg : g v = some w) (h : (f (some v)).Follows (transaction Own Good) Z (ph.put k b w)) :
    ((modify k g).bind f).Follows (transaction Own Good) Z ph := by
  apply follows_modify
  · intro hno
    rw [hno b v hheld] at hg
    cases hg
  · intro u x hx hu
    obtain rfl := hu b v hheld (by simp [hg])
    obtain rfl := Option.some.inj (hx.symm.trans hg)
    have hb : ph.before k (some u) = b := by
      simp [Phase.before, hheld]
    rw [hb]
    exact h

theorem follows_insert {v : V k} {f : Bool → Sql K V N ε β} (hk : Own k)
    (hfalse : (f false).Follows (transaction Own Good) Z ph)
    (htrue : (f true).Follows (transaction Own Good) Z (ph.put k (ph.before k none) (some v))) :
    ((insert k v).bind f).Follows (transaction Own Good) Z ph := by
  refine ⟨hk, fun a _ => ?_⟩
  cases a with
  | false => exact hfalse
  | true => exact htrue

theorem follows_create {key : Nat → K} {hkey : ∀ n, serial (key n) = n}
    {v : (n : Nat) → V (key n)} {f : Nat → Sql K V N ε β}
    (h : ∀ n, ph.held (key n) = none →
      (f n).Follows (transaction Own Good) Z (ph.put (key n) none (some (v n)))) :
    ((create key hkey v).bind f).Follows (transaction Own Good) Z ph :=
  ⟨trivial, h⟩

theorem follows_note {n : N} {f : Unit → Sql K V N ε β}
    (h : (f ()).Follows (transaction Own Good) Z { ph with notes := ph.notes ++ [n] }) :
    ((note n).bind f).Follows (transaction Own Good) Z ph :=
  ⟨trivial, fun _ _ => h⟩

theorem follows_commit {f : Unit → Sql K V N ε β} (hgood : Good ph)
    (h : (f ()).Follows (transaction Own Good) Z .clear) :
    (Sql.commit.bind f).Follows (transaction Own Good) Z ph :=
  ⟨hgood, fun _ _ => h⟩

theorem follows_deleteAll {I : Phase K V N → Prop} {rows : List ((k : K) × V k)}
    (hI : ∀ ph x v, x ∈ rows → I ph → I (ph.put x.1 (ph.before x.1 (some v)) none)) (h : I ph) :
    (deleteAll rows : Sql K V N ε Unit).Follows (transaction Own Good)
      (fun ph z => z = .ok () ∧ I ph) ph := by
  induction rows generalizing ph with
  | nil => exact ⟨rfl, h⟩
  | cons x rows ih =>
    have hrest : ∀ ph y v, y ∈ rows → I ph → I (ph.put y.1 (ph.before y.1 (some v)) none) :=
      fun ph y v hy => hI ph y v (List.mem_cons_of_mem x hy)
    apply follows_modify
    · intro _
      exact ih hrest h
    · intro v w hw _
      cases hw
      exact ih hrest (hI ph x v List.mem_cons_self h)

theorem follows_createAll {α : Type} {key : Nat → K} {hkey : ∀ n, serial (key n) = n}
    {v : α → (n : Nat) → V (key n)} {I : Phase K V N → Prop} {xs : List α}
    (hI : ∀ ph x n, ph.held (key n) = none → I ph → I (ph.put (key n) none (some (v x n))))
    (h : I ph) :
    (createAll key hkey v xs : Sql K V N ε Unit).Follows (transaction Own Good)
      (fun ph z => z = .ok () ∧ I ph) ph := by
  induction xs generalizing ph with
  | nil => exact ⟨rfl, h⟩
  | cons x xs ih =>
    apply follows_create
    intro n hn
    exact ih (hI ph x n hn h)

end Rules

end Sql

namespace Db

variable {K : Type} [Serial K] {V : K → Type} {N : Type} {d d' : Db K V N} {i j : Nat} {k : K}

/-- A row under a lock, if the lock is session `i`'s. -/
def heldBy {α : Type} (i : Nat) (row : Option α) : Option (Nat × Option α) →
    Option (Option α × Option α)
  | some (j, v) => if j = i then some (row, v) else none
  | none => none

/-- The phase of session `i`. -/
def phase (d : Db K V N) (i : Nat) : Phase K V N where
  held k := heldBy i (d.row k) (d.lock k)
  notes := d.notes i

theorem phase_ext {ph : Phase K V N} (hheld : ∀ k, (d.phase i).held k = ph.held k)
    (hnotes : d.notes i = ph.notes) : d.phase i = ph :=
  congrArg₂ Phase.mk (funext hheld) hnotes

theorem phase_idle (h : d.Idle) : d.phase i = .clear := by
  apply phase_ext
  · intro k
    simp [phase, h.lock k, heldBy, Phase.clear]
  · exact h.notes i

theorem row_of_held {b n : Option (V k)} (h : (d.phase i).held k = some (b, n)) :
    d.row k = b ∧ d.view i k = n := by
  simp only [phase] at h
  unfold view
  rcases hl : d.lock k with - | ⟨j, v⟩
  · simp [hl, heldBy] at h
  · by_cases hj : j = i
    · simpa [hl, heldBy, hj] using h
    · simp [hl, heldBy, hj] at h

theorem view_of_not_held (h : (d.phase i).held k = none) : d.view i k = d.row k := by
  simp only [phase] at h
  unfold view
  rcases hl : d.lock k with - | ⟨j, v⟩
  · rfl
  · by_cases hj : j = i
    · simp [hl, heldBy, hj] at h
    · simp [hj]

theorem row_commit : (d.commit i).row k =
    match (d.phase i).held k with
    | some (_, n) => n
    | none => d.row k := by
  show d.view i k = _
  rcases h : (d.phase i).held k with - | ⟨b, n⟩
  · exact view_of_not_held h
  · exact (row_of_held h).2

theorem released_eq : d.released i k =
    match d.lock k with
    | some (j, v) => if j = i then none else some (j, v)
    | none => none := by
  unfold released
  rcases d.lock k with - | ⟨j, v⟩
  · rfl
  · by_cases hj : j = i <;> simp [Option.filter, hj]

theorem phase_commit : (d.commit i).phase i = .clear := by
  apply phase_ext
  · intro k
    show heldBy i (d.view i k) (d.released i k) = none
    rw [released_eq]
    rcases d.lock k with - | ⟨j, v⟩
    · rfl
    · by_cases hj : j = i <;> simp [heldBy, hj]
  · simp [commit, Phase.clear]

theorem phase_released (hj : j ≠ i) (hlock : d'.lock = d.released i)
    (hrow : ∀ k, (∀ v, d.lock k ≠ some (i, v)) → d'.row k = d.row k)
    (hnotes : d'.notes j = d.notes j) : d'.phase j = d.phase j := by
  apply phase_ext
  · intro k
    show heldBy j (d'.row k) (d'.lock k) = heldBy j (d.row k) (d.lock k)
    rw [hlock, released_eq]
    rcases hl : d.lock k with - | ⟨l, v⟩
    · rfl
    · by_cases hli : l = i
      · simp [heldBy, hli, hj.symm]
      · rw [hrow k (by rw [hl]; intro v' hv'; exact hli (congrArg Prod.fst (Option.some.inj hv')))]
        simp [hli]
  · exact hnotes

theorem phase_commit_other (hj : j ≠ i) : (d.commit i).phase j = d.phase j := by
  refine phase_released hj rfl (fun k hk => ?_) (by simp [commit, hj])
  show d.view i k = d.row k
  unfold view
  rcases hl : d.lock k with - | ⟨l, v⟩
  · rfl
  · have hli : l ≠ i := fun h => hk v (h ▸ hl)
    simp [hli]

theorem phase_rollback_other (hj : j ≠ i) : (d.rollback i).phase j = d.phase j :=
  phase_released hj rfl (fun _ _ => rfl) (by simp [rollback, hj])

theorem row_eq_before : d.row k = (d.phase i).before k (d.view i k) := by
  unfold Phase.before
  rcases h : (d.phase i).held k with - | ⟨b, n⟩
  · exact (view_of_not_held h).symm
  · exact (row_of_held h).1

variable [DecidableEq K]

theorem phase_put {v : Option (V k)} : (d.put i k v).phase i = (d.phase i).put k (d.row k) v := by
  apply phase_ext
  · intro k'
    by_cases hk : k' = k
    · subst hk
      simp [phase, put, heldBy, Phase.put]
    · simp [phase, put, Phase.put, hk]
  · rfl

theorem phase_put_other {v : Option (V k)} (ht : d.taken i k = false) (hj : j ≠ i) :
    (d.put i k v).phase j = d.phase j := by
  apply phase_ext
  · intro k'
    by_cases hk : k' = k
    · subst hk
      -- a lock on the row was the session's own
      rcases hl : d.lock k' with - | ⟨l, w⟩
      · simp [phase, put, heldBy, hl, hj.symm]
      · have hli : l = i := by simpa [taken, hl] using ht
        simp [phase, put, heldBy, hl, hli, hj.symm]
    · simp [phase, put, hk]
  · rfl

theorem modify_phase {k : K} {f : V k → Option (Option (V k))}
    {a : (Stmt.modify k f : Stmt K V N).Answer}
    (h : d.serve i (.modify k f) = some (a, d')) :
    (d.phase i).Admits (.modify k f) a ∧ d'.phase i = (d.phase i).next (.modify k f) a ∧
      ∀ j, j ≠ i → d'.phase j = d.phase j := by
  simp only [serve] at h
  rcases hv : d.view i k with - | v
  · simp only [hv] at h
    cases h
    refine ⟨⟨nofun, fun b w hh => ?_⟩, rfl, fun _ _ => rfl⟩
    have := (row_of_held hh).2.symm.trans hv
    cases this
  · rcases hf : f v with - | w
    · simp only [hv, hf] at h
      cases h
      refine ⟨⟨nofun, fun b w hh hw => ?_⟩, rfl, fun _ _ => rfl⟩
      have := (row_of_held hh).2.symm.trans hv
      cases this
      exact absurd hf hw
    · simp only [hv, hf] at h
      split at h
      · cases h
      · rename_i ht
        have ht : d.taken i k = false := by simpa using ht
        cases h
        refine ⟨⟨?_, ?_⟩, ?_, fun j hj => phase_put_other ht hj⟩
        · intro u hu
          cases hu
          simp [hf]
        · intro b u hh _
          have := (row_of_held hh).2.symm.trans hv
          cases this
          rfl
        · rw [phase_put, row_eq_before, hv]
          simp [Phase.next, hf]

/-- A statement moves the phase of its session as the discipline says, and no
other, and its answer is one that the phase admits. -/
theorem serve_phase {q : Stmt K V N} {a : q.Answer} (h : d.serve i q = some (a, d')) :
    (d.phase i).Admits q a ∧ d'.phase i = (d.phase i).next q a ∧
      ∀ j, j ≠ i → d'.phase j = d.phase j := by
  cases q with
  | select k =>
    cases h
    exact ⟨fun b n hh => (row_of_held hh).2, rfl, fun _ _ => rfl⟩
  | scan p =>
    cases h
    refine ⟨fun x hx => ?_, rfl, fun _ _ => rfl⟩
    simp only [found, List.mem_filterMap, List.mem_filter] at hx
    obtain ⟨k, ⟨-, hp⟩, hx⟩ := hx
    obtain ⟨v, -, rfl⟩ := Option.map_eq_some_iff.mp hx
    exact hp
  | modify k f => exact modify_phase h
  | insert k v =>
    simp only [serve] at h
    split at h
    · cases h
    · rename_i ht
      have ht : d.taken i k = false := by simpa using ht
      split at h
      · cases h
        exact ⟨trivial, rfl, fun _ _ => rfl⟩
      · rename_i hv
        have hv : d.view i k = none := by simpa using hv
        cases h
        refine ⟨trivial, ?_, fun j hj => phase_put_other ht hj⟩
        rw [phase_put, row_eq_before, hv]
        rfl
  | create key hkey v =>
    cases h
    obtain ⟨hrow, hlock⟩ := unused_of_serial (hkey d.issued)
    have hfree : d.taken i (key d.issued) = false := by simp [taken, hlock]
    refine ⟨by simp [Phase.Admits, phase, hlock, heldBy], ?_, fun j hj => phase_put_other hfree hj⟩
    rw [phase_put, hrow]
    rfl
  | note n =>
    cases h
    refine ⟨trivial, ?_, fun j hj => ?_⟩
    · apply phase_ext
      · intro k
        rfl
      · simp [addNote, Phase.next, phase]
    · apply phase_ext
      · intro k
        rfl
      · simp [addNote, phase, hj]
  | commit =>
    cases h
    exact ⟨trivial, phase_commit, fun j hj => phase_commit_other hj⟩

/-! ### Keys that are used up -/

/-- The key was in use, and neither has a row nor can get one from a session that
wrote to it. -/
structure Gone (d : Db K V N) (k : K) : Prop where
  used : k ∈ d.keys
  row : d.row k = none
  lock : d.lock k = none

omit [DecidableEq K] in
theorem Gone.rollback (h : d.Gone k) : (d.rollback i).Gone k where
  used := h.used
  row := h.row
  lock := by
    show d.released i k = none
    simp [released, h.lock]

omit [DecidableEq K] in
theorem gone_of_deleted {b : Option (V k)} (h : (d.phase i).held k = some (b, none)) :
    (d.commit i).Gone k where
  used := by
    apply d.complete k
    right
    intro hn
    simp [phase, hn, heldBy] at h
  row := (row_of_held h).2
  lock := by
    show d.released i k = none
    rw [released_eq]
    simp only [phase] at h
    rcases hl : d.lock k with - | ⟨j, v⟩
    · rfl
    · by_cases hj : j = i
      · simp [hj]
      · simp [hl, heldBy, hj] at h

/-- A key that is used up stays so, but for an insertion under it: the keys
handed out are new. -/
theorem Gone.serve {q : Stmt K V N} {a : q.Answer} (h : d.Gone k)
    (hs : d.serve i q = some (a, d')) (hq : ∀ v, q ≠ .insert k v) : d'.Gone k := by
  rcases serve_cases hs with rfl | ⟨n, -, rfl⟩ | ⟨k', v, rfl, -, hnew⟩ | ⟨-, rfl⟩
  · exact h
  · exact ⟨h.used, h.row, h.lock⟩
  · have hk : k ≠ k' := by
      rintro rfl
      rcases hnew h.row h.lock with hserial | ⟨w, hw⟩
      · have := d.fresh k h.used
        omega
      · exact hq w hw
    refine ⟨?_, h.row, ?_⟩
    · show k ∈ if k' ∈ d.keys then d.keys else d.keys ++ [k']
      split
      · exact h.used
      · exact List.mem_append_left _ h.used
    · simpa [put, hk] using h.lock
  · refine ⟨h.used, ?_, ?_⟩
    · show d.view i k = none
      simpa [view, h.lock] using h.row
    · show d.released i k = none
      simp [released, h.lock]

end Db

/-! ### Runs -/

/-- A thread takes a step, or is cut off. -/
inductive Event where
  | run (i : Nat)
  | stop (i : Nat)
  deriving DecidableEq

section Runs

variable {K : Type} [Serial K] [DecidableEq K] {V : K → Type} {N ε : Type}

def server : Server (Stmt K V N) Stmt.Answer (Db K V N) where
  serve := Db.serve
  close i d := d.rollback i

/-- Programs that run on one database. -/
abbrev Programs (K : Type) [Serial K] (V : K → Type) (N ε : Type) :=
  Pool (Stmt K V N) Stmt.Answer ε (Db K V N)

/-- One event. -/
def step (p : Programs K V N ε) : Event → Option (Programs K V N ε)
  | .run i => p.advance server i
  | .stop i =>
    match p.threads i with
    | none => none
    | some _ =>
      some { world := p.world.rollback i, threads := Function.update p.threads i none }

/-- The session that the event lets commit. -/
def committing (p : Programs K V N ε) : Event → Option Nat
  | .run i =>
    match p.threads i with
    | some (.ask .commit _) => some i
    | _ => none
  | .stop _ => none

/-- A condition on the database before a commit of session `i`. -/
def OnCommit (G : Db K V N → Nat → Prop) (p : Programs K V N ε) (e : Event) : Prop :=
  ∀ i ∈ committing p e, G p.world i

instance {G : Db K V N → Nat → Prop} [∀ d i, Decidable (G d i)] (p : Programs K V N ε)
    (e : Event) : Decidable (OnCommit G p e) :=
  inferInstanceAs (Decidable (∀ i ∈ committing p e, G p.world i))

/-- Every thread follows the discipline from its phase. -/
def Disciplined (Own : K → Prop) (Good : Phase K V N → Prop) (p : Programs K V N ε) : Prop :=
  Pool.AllFollow (transaction Own Good) (fun _ _ => True) Db.phase p

/-- What an event that is not a commit leaves: the committed rows, the log, and
the keys that are used up. -/
structure Quiet (Own : K → Prop) (d d' : Db K V N) : Prop where
  row : d'.row = d.row
  log : d'.log = d.log
  gone : ∀ k, ¬ Own k → d.Gone k → d'.Gone k

variable {Own : K → Prop} {Good : Phase K V N → Prop} {p p' : Programs K V N ε} {e : Event}

/-- Every thread follows the discipline of its session from its phase. -/
def Each (Own : K → Prop) (Good : Nat → Phase K V N → Prop) (p : Programs K V N ε) : Prop :=
  ∀ i t, p.threads i = some t →
    t.Follows (transaction Own (Good i)) (fun _ _ => True) (p.world.phase i)

theorem Each.close {Good : Nat → Phase K V N → Prop} (hall : Each Own Good p) (i : Nat) :
    Each Own Good ⟨p.world.rollback i, Function.update p.threads i none⟩ := by
  intro j t hj
  by_cases hji : j = i
  · subst hji
    simp at hj
  · have hj' : p.threads j = some t := by simpa [hji] using hj
    show t.Follows _ _ ((p.world.rollback i).phase j)
    rw [Db.phase_rollback_other hji]
    exact hall j t hj'

theorem each_step {Good : Nat → Phase K V N → Prop} (hall : Each Own Good p)
    (h : step p e = some p') :
    Each Own Good p' ∧ (Quiet Own p.world p'.world ∨
      ∃ i ∈ committing p e, Good i (p.world.phase i) ∧ p'.world = p.world.commit i) := by
  cases e with
  | run i =>
    rcases Pool.advance_cases h with ⟨t, -, -, rfl⟩ | ⟨q, k, a, d', ht, hs, rfl⟩
    · -- the program has ended, and the session is closed
      exact ⟨hall.close i, .inl ⟨rfl, rfl, fun k _ hk => hk.rollback⟩⟩
    · obtain ⟨hadmits, hown, hother⟩ := Db.serve_phase hs
      have hfollow : Each Own Good
          { world := d', threads := Function.update p.threads i (some (k a)) } := by
        intro j t hj
        by_cases hji : j = i
        · subst hji
          obtain rfl : k a = t := by simpa using hj
          show (k a).Follows _ _ (d'.phase j)
          rw [hown]
          exact (hall j _ ht).2 a hadmits
        · have hj' : p.threads j = some t := by simpa [hji] using hj
          show t.Follows _ _ (d'.phase j)
          rw [hother j hji]
          exact hall j t hj'
      have hallow := (hall i _ ht).1
      have hgone : ∀ k, ¬ Own k → p.world.Gone k → d'.Gone k := by
        intro k hk hg
        apply hg.serve hs
        rintro v rfl
        exact hk hallow
      refine ⟨hfollow, ?_⟩
      rcases Db.serve_cases hs with rfl | ⟨n, -, rfl⟩ | ⟨k', v, rfl, -, -⟩ | ⟨rfl, rfl⟩
      · exact .inl ⟨rfl, rfl, hgone⟩
      · exact .inl ⟨rfl, rfl, hgone⟩
      · exact .inl ⟨rfl, rfl, hgone⟩
      · exact .inr ⟨i, by simp [committing, ht], hallow, rfl⟩
  | stop i =>
    simp only [step] at h
    split at h
    · cases h
    · cases h
      exact ⟨hall.close i, .inl ⟨rfl, rfl, fun k _ hk => hk.rollback⟩⟩

theorem step_cases (hall : Disciplined Own Good p) (h : step p e = some p') :
    Disciplined Own Good p' ∧ (Quiet Own p.world p'.world ∨
      ∃ i ∈ committing p e, Good (p.world.phase i) ∧ p'.world = p.world.commit i) :=
  each_step hall h

theorem step_invariant {P : Db K V N → Prop} {G : Db K V N → Nat → Prop}
    (hquiet : ∀ d d', Quiet Own d d' → P d → P d')
    (hcommit : ∀ d i, P d → Good (d.phase i) → G d i → P (d.commit i))
    (hall : Disciplined Own Good p) (hP : P p.world) (hG : OnCommit G p e)
    (h : step p e = some p') : Disciplined Own Good p' ∧ P p'.world := by
  obtain ⟨hfollow, hq | ⟨i, hi, hgood, hw⟩⟩ := step_cases hall h
  · exact ⟨hfollow, hquiet _ _ hq hP⟩
  · rw [hw]
    exact ⟨hfollow, hcommit _ i hP hgood (hG i hi)⟩

/-- So it holds along every run whose commits meet `G`. -/
theorem run_invariant {P : Db K V N → Prop} {G : Db K V N → Nat → Prop}
    (hquiet : ∀ d d', Quiet Own d d' → P d → P d')
    (hcommit : ∀ d i, P d → Good (d.phase i) → G d i → P (d.commit i))
    {es : List Event} (hall : Disciplined Own Good p) (hP : P p.world)
    (hG : Along step (OnCommit G) p es)
    (h : runAll step p es = some p') : P p'.world :=
  (runAll_invariant (P := fun p => Disciplined Own Good p ∧ P p.world)
    (fun _ _ _ hi hg hs => step_invariant hquiet hcommit hi.1 hi.2 hg hs) ⟨hall, hP⟩ hG h).2

theorem run_along {P : Db K V N → Prop} {G : Db K V N → Nat → Prop}
    {H : Programs K V N ε → Event → Prop}
    (hquiet : ∀ d d', Quiet Own d d' → P d → P d')
    (hcommit : ∀ d i, P d → Good (d.phase i) → G d i → P (d.commit i))
    (hH : ∀ p e, Disciplined Own Good p → P p.world → OnCommit G p e → H p e)
    {es : List Event} (hall : Disciplined Own Good p) (hP : P p.world)
    (hG : Along step (OnCommit G) p es) : Along step H p es :=
  along_of_invariant (P := fun p => Disciplined Own Good p ∧ P p.world)
    (fun _ _ _ hi hg hs => step_invariant hquiet hcommit hi.1 hi.2 hg hs)
    (fun p e hi hg => hH p e hi.1 hi.2 hg) ⟨hall, hP⟩ hG

theorem disciplined_of_idle (hd : p.world.Idle)
    (h : ∀ i t, p.threads i = some t → t.Follows (transaction Own Good) (fun _ _ => True) .clear) :
    Disciplined Own Good p := by
  intro i t ht
  rw [Db.phase_idle hd]
  exact h i t ht

end Runs

end Transactions
