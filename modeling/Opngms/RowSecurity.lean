/-
Opngms/RowSecurity.lean

Row-level security with a tenant that is set for one transaction.

A table under the policy shows a statement only the rows whose owner is the
tenant set in the running transaction, and takes no other row; without a tenant
it shows and takes nothing.  The setting ends with the transaction, so a statement
after a commit runs without one until it is set again.

A session is a `Dialogue` of statements.  `connection` says how a transaction
changes and which answers the policy admits, and `Lawful` what a request owes: each
statement on a governed table under the request's tenant, its own rows visible to
it, and no failure after its commit.  `stages` is the typestate that tells whether
a program does so: before the setting, within the tenant's transaction, past its
commit.  A program that follows `stages` is lawful on exactly the runs its
`Ending` names (**`lawful_iff`**).
-/
import Opngms.Dialogue

namespace RowSecurity

open Dialogue

/-- What a session asks.  A row is named by its table and its owner. -/
inductive Stmt (Table Tenant : Type) where
  | select (tables : List Table)
  | write (table : Table) (owner : Option Tenant)
  | refresh (table : Table) (owner : Option Tenant)
  | setTenant (tenant : Tenant)
  | commit
  | choose
  | enqueue

namespace Stmt

variable {Table Tenant : Type}

/-- A `select` is answered with the number of rows found, the rest with whether it
went through; `choose` is answered from outside. -/
def Answer : Stmt Table Tenant → Type
  | select _ => Nat
  | write _ _ => Bool
  | refresh _ _ => Bool
  | setTenant _ => Unit
  | commit => Unit
  | choose => Bool
  | enqueue => Bool

def tables : Stmt Table Tenant → List Table
  | select ts => ts
  | write t _ => [t]
  | refresh t _ => [t]
  | _ => []

def reads : Stmt Table Tenant → List Table
  | select ts => ts
  | refresh t _ => [t]
  | _ => []

theorem reads_subset {q : Stmt Table Tenant} {t : Table} (h : t ∈ q.reads) : t ∈ q.tables := by
  cases q with
  | select ts => exact h
  | refresh t' owner => exact h
  | _ => cases h

end Stmt

open Stmt

variable {Table Tenant : Type} (governed : Table → Prop)

/-- The policy: with `current` set, the row is shown and taken. -/
def Visible (current : Option Tenant) (t : Table) (owner : Option Tenant) : Prop :=
  governed t → ∃ x, owner = some x ∧ current = some x

/-- The running transaction, and what the request did so far: the rows it wrote,
whether it committed with a tenant set, and whether a job was refused after that. -/
structure Txn (Table Tenant : Type) where
  current : Option Tenant := none
  written : List (Table × Option Tenant) := []
  accepted : Bool := false
  refused : Bool := false

def Txn.next (s : Txn Table Tenant) : (q : Stmt Table Tenant) → Answer q → Txn Table Tenant
  | .write t owner, true => { s with written := (t, owner) :: s.written }
  | .setTenant x, _ => { s with current := some x }
  | .commit, _ => { s with current := none, accepted := s.accepted || s.current.isSome }
  | .enqueue, false => { s with refused := s.refused || s.accepted }
  | _, _ => s

/-- The answers the policy leaves possible.  A row that is read back is still there. -/
def Admits (s : Txn Table Tenant) : (q : Stmt Table Tenant) → Answer q → Prop
  | .select ts, n => (∃ t ∈ ts, governed t) → s.current = none → n = (0 : Nat)
  | .write t owner, ok => ok = true → Visible governed s.current t owner
  | .refresh t owner, ok => ok = true ↔ Visible governed s.current t owner
  | _, _ => True

/-- A session of the database, which refuses no question. -/
def connection : Discipline (Stmt Table Tenant) Answer (Txn Table Tenant) where
  allows _ _ := True
  admits := Admits governed
  next := Txn.next

/-! ### A session that answers -/

section Respond

variable [DecidablePred governed]

/-- `Visible`, computed. -/
def shows [DecidableEq Tenant] (current : Option Tenant) (t : Table) (owner : Option Tenant) :
    Bool :=
  !decide (governed t) || (owner.isSome && owner == current)

theorem shows_iff [DecidableEq Tenant] {current owner : Option Tenant} {t : Table} :
    shows governed current t owner = true ↔ Visible governed current t owner := by
  by_cases ht : governed t
  · cases owner with
    | none => simp [shows, Visible, ht]
    | some x =>
      have hflip : (some x = current) = (current = some x) := propext eq_comm
      simp [shows, Visible, ht, hflip]
  · simp [shows, Visible, ht]

variable [DecidableEq Tenant]

/-- The answers of a session in which every query finds a row where the policy lets it,
and everything else goes well. -/
def respond (s : Txn Table Tenant) : (q : Stmt Table Tenant) → Answer q
  | .select ts =>
    if s.current.isSome || ts.all (fun t => !decide (governed t)) then (1 : Nat) else (0 : Nat)
  | .write t owner => shows governed s.current t owner
  | .refresh t owner => shows governed s.current t owner
  | .setTenant _ => ()
  | .commit => ()
  | .choose => true
  | .enqueue => true

theorem admits_respond (s : Txn Table Tenant) (q : Stmt Table Tenant) :
    Admits governed s q (respond governed s q) := by
  cases q with
  | select ts =>
    intro ⟨t, ht, hgov⟩ hcur
    have hall : ts.all (fun t => !decide (governed t)) = false := by
      rw [List.all_eq_false]
      exact ⟨t, ht, by simp [hgov]⟩
    simp only [respond, hcur, hall, Option.isSome_none, Bool.or_false]
    rfl
  | write t owner => exact (shows_iff governed).mp
  | refresh t owner => exact shows_iff governed
  | _ => trivial

/-- The session of `respond`, as a state that answers. -/
def serve (s : Txn Table Tenant) (q : Stmt Table Tenant) : Option (Answer q × Txn Table Tenant) :=
  some (respond governed s q, s.next q (respond governed s q))

theorem runs_serve {ε α : Type} {p : Dialogue (Stmt Table Tenant) Answer ε α}
    {s s' : Txn Table Tenant} {t : List (Exchange (Stmt Table Tenant) Answer)} {z : Except ε α}
    (h : p.exec (serve governed) s = some (t, z, s')) :
    Runs (connection governed).steps s p t z s' := by
  refine (runs_of_exec h).mono ?_
  rintro w ⟨q, a⟩ w' hs
  have hs : serve governed w q = some (a, w') := hs
  cases hs
  exact ⟨admits_respond governed w q, rfl⟩

end Respond

/-! ### What a request owes -/

/-- Each statement on a governed table runs with the request's tenant set, each read
shows the rows the request wrote, and after its commit the request does not fail. -/
structure Lawful {ε α : Type} (tenant : Tenant) (t : List (Exchange (Stmt Table Tenant) Answer))
    (z : Except ε α) : Prop where
  covered : ∀ t₁ q a t₂, t = t₁ ++ ⟨q, a⟩ :: t₂ → ∀ table ∈ q.tables, governed table →
    ((connection governed).after {} t₁).current = some tenant
  sees : ∀ t₁ q a t₂, t = t₁ ++ ⟨q, a⟩ :: t₂ → ∀ table ∈ q.reads, ∀ owner,
    (table, owner) ∈ ((connection governed).after {} t₁).written →
      Visible governed ((connection governed).after {} t₁).current table owner
  answered : ((connection governed).after {} t).accepted = true → z.isOk = true

/-! ### Stages -/

/-- Before the tenant is set, within its transaction, or past the commit; there, whether
a job was refused. -/
inductive Stage where
  | before
  | within
  | past (refused : Bool)
  deriving DecidableEq

/-- What becomes of a request past its commit: it answers unless a job is refused, it
answers in any case, or it reads a governed row again. -/
inductive Ending where
  | answers
  | swallows
  | rereads
  deriving DecidableEq

/-- The typestate of a request for `tenant`. -/
def stages (tenant : Tenant) (e : Ending) : Discipline (Stmt Table Tenant) Answer Stage where
  allows
    | .before, .select ts => ∀ t ∈ ts, ¬ governed t
    | .before, .write t _ => ¬ governed t
    | .before, .setTenant x => x = tenant
    | .before, .commit => True
    | .before, .choose => True
    | .within, .select _ => True
    | .within, .write t owner => governed t → owner = some tenant
    | .within, .refresh t owner => governed t ∧ owner = some tenant
    | .within, .commit => True
    | .within, .choose => True
    | .within, .enqueue => True
    | .past _, .refresh t _ => e = .rereads ∧ governed t
    | .past _, .choose => True
    | .past _, .enqueue => True
    | _, _ => False
  admits
    | .within, .refresh _ _, ok => ok = true
    | .past _, .refresh _ _, ok => ok = false
    | _, _, _ => True
  next
    | .before, .setTenant _, _ => .within
    | .within, .commit, _ => .past false
    | .past _, .enqueue, false => .past true
    | st, _, _ => st

/-- How a request ends. -/
def Ends {ε α : Type} : Ending → Stage → Except ε α → Prop
  | .answers, .past refused, z => z.isOk = !refused
  | .swallows, .past _, z => z.isOk = true
  | .rereads, .past _, z => z.isOk = false
  | _, _, _ => True

/-- The runs on which a request with this ending is not lawful. -/
def Ending.Fails : Ending → Txn Table Tenant → Prop
  | .answers, s => s.refused = true
  | .swallows, _ => False
  | .rereads, s => s.accepted = true

/-- The transaction at each stage. -/
def At (tenant : Tenant) (s : Txn Table Tenant) : Stage → Prop
  | .before => s.current = none ∧ s.accepted = false ∧ s.refused = false ∧
      ∀ row ∈ s.written, ¬ governed row.1
  | .within => s.current = some tenant ∧ s.accepted = false ∧ s.refused = false ∧
      ∀ row ∈ s.written, governed row.1 → row.2 = some tenant
  | .past refused => s.current = none ∧ s.accepted = true ∧ s.refused = refused

variable {governed} {tenant : Tenant} {e : Ending} {s : Txn Table Tenant} {st : Stage}
  {ε α : Type}

/-- A step of the transaction is a step of the stages. -/
theorem At.step {q : Stmt Table Tenant} {a : Answer q} (h : At governed tenant s st)
    (hq : (stages governed tenant e).allows st q) (ha : Admits governed s q a) :
    (stages governed tenant e).admits st q a ∧
      At governed tenant (s.next q a) ((stages governed tenant e).next st q a) := by
  cases st with
  | before =>
    obtain ⟨hcur, hacc, href, hrows⟩ := h
    cases q with
    | select ts => exact ⟨trivial, hcur, hacc, href, hrows⟩
    | write t owner =>
      cases a with
      | false => exact ⟨trivial, hcur, hacc, href, hrows⟩
      | true => exact ⟨trivial, hcur, hacc, href, List.forall_mem_cons.mpr ⟨hq, hrows⟩⟩
    | setTenant x =>
      refine ⟨trivial, congrArg some hq, hacc, href, ?_⟩
      intro row hrow hgov
      exact absurd hgov (hrows row hrow)
    | commit => exact ⟨trivial, rfl, by simp [Txn.next, hcur, hacc], href, hrows⟩
    | choose => exact ⟨trivial, hcur, hacc, href, hrows⟩
    | refresh t owner => exact hq.elim
    | enqueue => exact hq.elim
  | within =>
    obtain ⟨hcur, hacc, href, hrows⟩ := h
    cases q with
    | select ts => exact ⟨trivial, hcur, hacc, href, hrows⟩
    | write t owner =>
      cases a with
      | false => exact ⟨trivial, hcur, hacc, href, hrows⟩
      | true => exact ⟨trivial, hcur, hacc, href, List.forall_mem_cons.mpr ⟨hq, hrows⟩⟩
    | refresh t owner =>
      -- The policy shows the row, since the tenant that wrote it is set.
      refine ⟨ha.mpr ?_, hcur, hacc, href, hrows⟩
      intro _
      exact ⟨tenant, hq.2, hcur⟩
    | commit => exact ⟨trivial, rfl, by simp [Txn.next, hcur], href⟩
    | choose => exact ⟨trivial, hcur, hacc, href, hrows⟩
    | enqueue =>
      cases a with
      | false => exact ⟨trivial, hcur, hacc, by simp [Txn.next, href, hacc], hrows⟩
      | true => exact ⟨trivial, hcur, hacc, href, hrows⟩
    | setTenant x => exact hq.elim
  | past refused =>
    obtain ⟨hcur, hacc, href⟩ := h
    cases q with
    | refresh t owner =>
      -- No tenant is set, so the policy hides the row.
      refine ⟨?_, hcur, hacc, href⟩
      cases a with
      | false => rfl
      | true =>
        obtain ⟨x, -, hx⟩ := ha.mp rfl hq.2
        rw [hcur] at hx
        cases hx
    | enqueue =>
      cases a with
      | false => exact ⟨trivial, hcur, hacc, by simp [Txn.next, hacc]⟩
      | true => exact ⟨trivial, hcur, hacc, href⟩
    | choose => exact ⟨trivial, hcur, hacc, href⟩
    | select ts => exact hq.elim
    | write t owner => exact hq.elim
    | setTenant x => exact hq.elim
    | commit => exact hq.elim

theorem past_after {refused : Bool} (t : List (Exchange (Stmt Table Tenant) Answer)) :
    ∃ refused', (stages governed tenant e).after (.past refused) t = .past refused' := by
  induction t generalizing refused with
  | nil => exact ⟨refused, rfl⟩
  | cons x t ih =>
    obtain ⟨q, a⟩ := x
    cases q with
    | enqueue =>
      cases a with
      | false => exact ih
      | true => exact ih
    | _ => exact ih

theorem At.covered {q : Stmt Table Tenant} (h : At governed tenant s st)
    (hq : (stages governed tenant e).allows st q)
    (hearly : e ≠ .rereads ∨ ∀ refused, st ≠ .past refused) :
    ∀ table ∈ q.tables, governed table → s.current = some tenant := by
  intro table htable hgov
  cases st with
  | before =>
    cases q with
    | select ts => exact absurd hgov (hq table htable)
    | write t owner =>
      rw [List.mem_singleton.mp htable] at hgov
      exact absurd hgov hq
    | refresh t owner => exact hq.elim
    | _ => cases htable
  | within => exact h.1
  | past refused =>
    cases q with
    | refresh t owner =>
      rcases hearly with he | he
      · exact absurd hq.1 he
      · exact absurd rfl (he refused)
    | select ts => exact hq.elim
    | write t owner => exact hq.elim
    | _ => cases htable

theorem At.sees {q : Stmt Table Tenant} (h : At governed tenant s st)
    (hcov : ∀ table ∈ q.tables, governed table → s.current = some tenant) :
    ∀ table ∈ q.reads, ∀ owner, (table, owner) ∈ s.written →
      Visible governed s.current table owner := by
  intro table htable owner hrow hgov
  have hcur := hcov table (reads_subset htable) hgov
  cases st with
  | before => exact absurd hgov (h.2.2.2 _ hrow)
  | within => exact ⟨tenant, h.2.2.2 _ hrow hgov, hcur⟩
  | past refused =>
    rw [h.1] at hcur
    cases hcur

theorem At.answered_iff {z : Except ε α} (h : At governed tenant s st) (hends : Ends e st z) :
    (s.accepted = true → z.isOk = true) ↔ ¬ e.Fails s := by
  have hearly : s.accepted = false → s.refused = false →
      ((s.accepted = true → z.isOk = true) ↔ ¬ e.Fails s) := by
    intro hacc href
    have hfine : ¬ e.Fails s := by
      cases e with
      | answers => simp [Ending.Fails, href]
      | swallows => exact id
      | rereads => simp [Ending.Fails, hacc]
    simp [hacc, hfine]
  cases st with
  | before => exact hearly h.2.1 h.2.2.1
  | within => exact hearly h.2.1 h.2.2.1
  | past refused =>
    obtain ⟨-, hacc, href⟩ := h
    cases e with
    | answers =>
      have hok : z.isOk = !refused := hends
      simp [Ending.Fails, hacc, href, hok]
    | swallows =>
      have hok : z.isOk = true := hends
      simp [Ending.Fails, hok]
    | rereads =>
      have hok : z.isOk = false := hends
      simp [Ending.Fails, hacc, hok]

theorem lawful_iff {p : Dialogue (Stmt Table Tenant) Answer ε α}
    {t : List (Exchange (Stmt Table Tenant) Answer)} {z : Except ε α} {s' : Txn Table Tenant}
    (hp : Follows (stages governed tenant e) (Ends e) .before p)
    (hrun : Runs (connection governed).steps {} p t z s') :
    Lawful governed tenant t z ↔ ¬ e.Fails s' := by
  have hstart : At governed tenant ({} : Txn Table Tenant) .before :=
    ⟨rfl, rfl, rfl, fun _ hrow => absurd hrow List.not_mem_nil⟩
  obtain ⟨hs', hsplit, hlast, hends⟩ :=
    hrun.follows_split (R := At governed tenant) (fun _ _ _ _ h hq ha => h.step hq ha) hstart hp
  subst hs'
  constructor
  · intro hlaw
    exact (hlast.answered_iff hends).mp hlaw.answered
  · intro hfails
    have hcov : ∀ t₁ q a t₂, t = t₁ ++ ⟨q, a⟩ :: t₂ → ∀ table ∈ q.tables, governed table →
        ((connection governed).after {} t₁).current = some tenant := by
      intro t₁ q a t₂ ht
      obtain ⟨hat, hq⟩ := hsplit t₁ q a t₂ ht
      apply hat.covered hq
      by_cases he : e = .rereads
      · -- A request that reads again has not come past its commit.
        right
        intro refused hst
        obtain ⟨refused', hend⟩ : ∃ refused',
            (stages governed tenant e).after (.past refused) (⟨q, a⟩ :: t₂) = .past refused' :=
          past_after _
        rw [← hst, ← Discipline.after_append, ← ht] at hend
        rw [hend] at hlast
        rw [he] at hfails
        exact hfails hlast.2.1
      · exact .inl he
    refine ⟨hcov, ?_, (hlast.answered_iff hends).mpr hfails⟩
    intro t₁ q a t₂ ht
    exact (hsplit t₁ q a t₂ ht).1.sees (hcov t₁ q a t₂ ht)

end RowSecurity
