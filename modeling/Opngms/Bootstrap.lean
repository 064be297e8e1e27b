/-
Opngms/Bootstrap.lean

The first superadmin (`app/api/setup.py`, `app/repositories/user.py`).

`setup` counts the users and adds one if there is none.  The count is a read of
its own, so two requests can both find nobody; the unique constraint on the email
stops the second one only if it uses the same address.  Where every request that
commits has a count that is still right, one request succeeds (**`bootstrap_once`**);
two overlapping ones with different addresses make two superadmins
(`two_superadmins`).
-/
import Opngms.Reports
import Opngms.Transactions

namespace Opngms

namespace Bootstrap

open Transactions

/-! ### The request -/

/-- The unique column of `users`. -/
structure Email where
  address : String
  deriving DecidableEq

instance : Serial Email := ⟨fun _ => 0⟩

/-- A row of `users`. -/
structure UserRow where
  name : String
  passwordHash : String
  isSuperadmin : Bool
  status : String
  deriving DecidableEq

/-- The body of the request; the schema bounds the password. -/
structure SetupIn where
  email : Email
  name : String
  password : String
  bounded : 12 ≤ password.length ∧ password.length ≤ 1024

/-- `setup.bootstrap`, with the count the request saw. -/
structure Note where
  counted : Nat
  email : Email

abbrev Users := Db Email (fun _ => UserRow) Note

abbrev Req (α : Type) := Sql Email (fun _ => UserRow) Note Refusal α

/-- `UserRepository.count`. -/
def count : Req Nat := do
  let users ← Sql.scan fun _ => true
  pure users.length

/-- `UserRepository.add`: a second row for the email is an `IntegrityError`. -/
def add (email : Email) (row : UserRow) : Req Unit := do
  let added ← Sql.insert email row
  if added then pure () else throw ⟨500, "Internal Server Error"⟩

/-- `setup`. -/
def setup (hashPassword : String → String) (payload : SetupIn) : Req Unit := do
  let counted ← count
  if counted > 0 then
    throw ⟨409, "Setup already completed: at least one user already exists."⟩
  else do
    add payload.email ⟨payload.name, hashPassword payload.password, true, "active"⟩
    Sql.note ⟨counted, payload.email⟩
    Sql.commit

/-! ### What it commits -/

/-- A commit adds the superadmin that is noted, after a count of zero. -/
def Good (ph : Phase Email (fun _ => UserRow) Note) : Prop :=
  ∃ email row, ph.notes = [⟨0, email⟩] ∧ row.isSuperadmin = true ∧
    ph.held email = some (none, some row) ∧ ∀ k, k ≠ email → ph.held k = none

theorem follows_setup (hashPassword : String → String) (payload : SetupIn) :
    (setup hashPassword payload).Follows (transaction (fun _ => True) Good) (fun _ _ => True)
      .clear := by
  apply Sql.follows_scan
  intro users _
  show Dialogue.Follows _ _ _ (if _ then _ else _)
  split
  · trivial
  · rename_i hcount
    have hzero : users.length = 0 := by omega
    apply Sql.follows_insert trivial
    · trivial
    · apply Sql.follows_note
      refine Sql.follows_commit ⟨payload.email, _, ?_, rfl, Phase.held_put_self _ _ _ _, ?_⟩ trivial
      · simp [Phase.put, Phase.clear, hzero]
      · intro k hk
        rw [Phase.held_put_of_ne hk]
        rfl

/-! ### Runs -/

abbrev Requests := Programs Email (fun _ => UserRow) Note Refusal

def start (hashPassword : String → String) (d : Users) (payloads : Nat → Option SetupIn) :
    Requests where
  world := d
  threads i := (payloads i).map (setup hashPassword)

def users (d : Users) : Nat := (d.keys.filter fun k => (d.row k).isSome).length

def CountCurrent (d : Users) (i : Nat) : Prop := ∀ n ∈ d.notes i, n.counted = users d

instance (d : Users) (i : Nat) : Decidable (CountCurrent d i) :=
  inferInstanceAs (Decidable (∀ n ∈ d.notes i, n.counted = users d))

theorem row_of_users_zero {d : Users} (h : users d = 0) (k : Email) : d.row k = none := by
  by_contra hk
  have hmem : k ∈ d.keys.filter fun k => (d.row k).isSome := by
    rw [List.mem_filter]
    exact ⟨d.complete k (.inl hk), Option.isSome_iff_ne_none.mpr hk⟩
  rw [List.length_eq_zero_iff.mp h] at hmem
  cases hmem

/-- Since the database was `d₀`, nobody was added, or one superadmin to no users. -/
def AtMostOne (d₀ d : Users) : Prop :=
  (d.log = [] ∧ ∀ k, d.row k = d₀.row k) ∨
    ∃ n row, d.log = [n] ∧ (∀ k, d₀.row k = none) ∧ row.isSuperadmin = true ∧
      d.row n.email = some row ∧ ∀ k, k ≠ n.email → d.row k = none

theorem atMostOne_commit {d₀ d : Users} {i : Nat} (h : AtMostOne d₀ d) (hgood : Good (d.phase i))
    (hcount : CountCurrent d i) : AtMostOne d₀ (d.commit i) := by
  obtain ⟨email, row, hnotes, hsuper, hheld, honly⟩ := hgood
  have hzero : users d = 0 := by
    refine (hcount ⟨0, email⟩ ?_).symm
    show _ ∈ (d.phase i).notes
    simp [hnotes]
  have hnone := row_of_users_zero hzero
  have hadded : (d.commit i).row email = some row := by
    rw [Db.row_commit, hheld]
  have hrest : ∀ k, k ≠ email → (d.commit i).row k = none := by
    intro k hk
    rw [Db.row_commit, honly k hk]
    exact hnone k
  have hlog : (d.commit i).log = d.log ++ [⟨0, email⟩] := by
    show d.log ++ (d.phase i).notes = _
    rw [hnotes]
  rcases h with ⟨hempty, hsame⟩ | ⟨n, row', -, -, -, hrow', -⟩
  · rw [hempty] at hlog
    exact .inr ⟨_, row, hlog, fun k => (hsame k).symm.trans (hnone k), hsuper, hadded, hrest⟩
  · -- a user was there already
    rw [hnone] at hrow'
    cases hrow'

/-- **Bootstrap happens once**, along every interleaving in which each request that
commits counted the users there are at its commit. -/
theorem bootstrap_once (hashPassword : String → String) (d : Users) (hd : d.Idle)
    (hlog : d.log = []) (payloads : Nat → Option SetupIn) (es : List Event)
    (hcount : Along step (OnCommit CountCurrent) (start hashPassword d payloads) es)
    (p' : Requests) (hrun : runAll step (start hashPassword d payloads) es = some p') :
    AtMostOne d p'.world := by
  have hfollow : Disciplined (fun _ => True) Good (start hashPassword d payloads) := by
    apply disciplined_of_idle hd
    intro i t ht
    obtain ⟨payload, -, rfl⟩ := Option.map_eq_some_iff.mp ht
    exact follows_setup hashPassword payload
  have hstart : AtMostOne d (start hashPassword d payloads).world := .inl ⟨hlog, fun _ => rfl⟩
  apply run_invariant _ _ hfollow hstart hcount hrun
  · intro d₁ d₂ hq h
    unfold AtMostOne
    rw [hq.log, hq.row]
    exact h
  · intro d₁ i h hgood hg
    exact atMostOne_commit h hgood hg

def firstAdmin : SetupIn := ⟨⟨"first@example.org"⟩, "First", "first password", by decide⟩

def secondAdmin : SetupIn := ⟨⟨"second@example.org"⟩, "Second", "second password", by decide⟩

def twoSetups (i : Nat) : Option SetupIn := [firstAdmin, secondAdmin][i]?

/-- One after the other, the second request counts the first user. -/
theorem bootstrap_once_sequential :
    ∃ p', runAll step (start id (Db.load []) twoSetups)
        (List.replicate 4 (.run 0) ++ [.run 1]) = some p' ∧ AtMostOne (Db.load []) p'.world :=
  ⟨_, rfl, bootstrap_once id (Db.load []) (Db.idle_load _) rfl twoSetups
    (List.replicate 4 (.run 0) ++ [.run 1]) (by decide) _ rfl⟩

/-- Both count before either commits. -/
theorem two_superadmins :
    ∃ p', runAll step (start id (Db.load []) twoSetups)
        ([.run 0, .run 1] ++ List.replicate 3 (.run 0) ++ List.replicate 3 (.run 1)) = some p' ∧
      p'.world.log.map Note.email = [firstAdmin.email, secondAdmin.email] ∧
      (p'.world.row firstAdmin.email).map UserRow.isSuperadmin = some true ∧
      (p'.world.row secondAdmin.email).map UserRow.isSuperadmin = some true :=
  ⟨_, rfl, by decide, by decide, by decide⟩

end Bootstrap

end Opngms
