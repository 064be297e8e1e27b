/-
Opngms/FirmwareRaces.lean

One firmware action and everything that runs on it: the request that creates it, the jobs
that were queued for it, the sweeper, and other operations on its device, in any
interleaving.

A job loads the status before it takes the lock of the device, and what it has done on the
device is not undone when it raises or is cut off.  So a second job can begin after the
first has ended, and a job that ends without its commit leaves the action `scheduled`, for
the sweeper to queue again (`action_runs_twice`).  The request queues its job before it
commits, so a job may find no row.

Where the stored status is still open when a job takes the lock, no session ends between its
first call and its commit, and the first job is handed out after the request has ended, the
action runs once and no job misses it (**`action_runs_once`**).
-/
import Opngms.FirmwareActions

namespace Opngms

namespace FirmwareActions

open Transactions

/-! ### The shared state -/

/-- The database, the lock of the device, the queue and the box.  The last four fields are a
record that no program reads: the calls that sessions have made, the sessions that were
handed a job, those that have committed a write of the action, and whether a job has found
no row. -/
structure State where
  db : Db Key Row Empty
  advisory : Option (Nat × Purpose)
  queued : Queued → Nat
  /-- What the box answers to its n-th call. -/
  answers : Nat → Call → Answer
  calls : List (Nat × Call)
  handed : List Nat
  wrote : List Nat
  missed : Bool

namespace State

def action (s : State) : Option FirmwareAction := s.db.row .action

/-- The lock without session `i`. -/
def released (s : State) (i : Nat) : Option (Nat × Purpose) := s.advisory.filter fun l => l.1 != i

/-- `pg_try_advisory_xact_lock` would succeed. -/
def lockFree (s : State) (i : Nat) : Bool :=
  match s.advisory with
  | none => true
  | some (j, _) => j == i

/-- The state after a statement: a commit lets go of the lock. -/
def afterSql (s : State) (i : Nat) (q : Stmt Key Row Empty) (d : Db Key Row Empty) : State :=
  match q with
  | .commit =>
    { s with
      db := d
      advisory := s.released i
      wrote := if ((s.db.phase i).held .action).isSome then i :: s.wrote else s.wrote }
  | _ => { s with db := d }

/-- Answer a session. -/
def serve (i : Nat) (s : State) : (q : Ask) → Option (q.Answer × State)
  | .sql q => (s.db.serve i q).map fun x => (x.1, s.afterSql i q x.2)
  | .getAction =>
    some (s.db.view i .action,
      { s with missed := s.missed || (s.db.view i .action).isNone })
  | .tryLock purpose =>
    if s.lockFree i then some (true, { s with advisory := some (i, purpose) })
    else some (false, s)
  | .enqueue job => some ((), { s with queued := Function.update s.queued job (s.queued job + 1) })
  | .dequeue origin =>
    let job := Queued.runFirmwareAction origin
    if s.queued job = 0 then none
    else some ((), { s with
      queued := Function.update s.queued job (s.queued job - 1)
      handed := i :: s.handed })
  | .device c => some (s.answers s.calls.length c, { s with calls := s.calls ++ [(i, c)] })

def close (i : Nat) (s : State) : State :=
  { s with db := s.db.rollback i, advisory := s.released i }

end State

def server : Server Ask Ask.Answer State where
  serve := State.serve
  close := State.close

abbrev Running := Pool Ask Ask.Answer Failure State

/-- One event. -/
def step (p : Running) : Transactions.Event → Option Running
  | .run i => p.advance server i
  | .stop i =>
    match p.threads i with
    | none => none
    | some _ =>
      some { world := p.world.close i, threads := Function.update p.threads i none }

/-- What a session is for; the request is session 0. -/
inductive Role where
  | job (origin : Origin) (now : Time) (maxPolls : Nat)
  | sweep (cutoff : Time) (maxAttempts : Nat)
  | other

def Role.program : Role → Session Unit
  | .job origin now maxPolls => (runFirmwareActionJob origin now maxPolls).bind fun _ => .pure ()
  | .sweep cutoff maxAttempts => sweepOrphanedActions cutoff maxAttempts
  | .other => otherOperation

/-- The request and the other sessions. -/
def start (s : State) (tenantId : TenantId) (body : FirmwareActionIn) (now : Time)
    (roles : Nat → Option Role) : Running where
  world := s
  threads
    | 0 => some (createFirmwareAction tenantId body now)
    | i + 1 => (roles i).map Role.program

/-- A state without the action. -/
structure State.Fresh (s : State) : Prop where
  idle : s.db.Idle
  action : s.action = none
  advisory : s.advisory = none
  queued : ∀ origin, s.queued (.runFirmwareAction origin) = 0
  calls : s.calls = []
  handed : s.handed = []
  wrote : s.wrote = []
  missed : s.missed = false

/-- The session has called the device, and not committed since. -/
def State.Operating (s : State) (i : Nat) : Prop :=
  s.advisory = some (i, .run) ∧ i ∈ s.calls.map (·.1)

instance (s : State) (i : Nat) : Decidable (s.Operating i) :=
  inferInstanceAs (Decidable (_ ∧ _))

/-- The stored status of the action is `scheduled` or `running`. -/
def State.Open (s : State) : Prop := (s.action.map fun row => row.status.final) = some false

instance (s : State) : Decidable s.Open := inferInstanceAs (Decidable (_ = _))

/-- What is asked of the next step of a session: a job that gets the lock finds the stored
status still open, the job of the request is handed out after the request has committed or
ended, and the session does not end while it operates the device. -/
def InOrder (s : State) (requestEnded : Bool) (i : Nat) : Option (Session Unit) → Prop
  | some (.ask (.tryLock .run) _) => s.lockFree i = true → s.Open
  | some (.ask (.dequeue .original) _) => s.action.isSome = true ∨ requestEnded = true
  | some (.pure _) | some (.raise _) => ¬ s.Operating i
  | _ => True

instance (s : State) (requestEnded : Bool) (i : Nat) :
    (t : Option (Session Unit)) → Decidable (InOrder s requestEnded i t)
  | some (.ask (.tryLock .run) _) => inferInstanceAs (Decidable (_ → _))
  | some (.ask (.dequeue .original) _) => inferInstanceAs (Decidable (_ ∨ _))
  | some (.pure _) | some (.raise _) => inferInstanceAs (Decidable (¬ _))
  | none | some (.ask (.sql _) _) | some (.ask .getAction _) | some (.ask (.tryLock .sweep) _)
  | some (.ask (.tryLock .other) _) | some (.ask (.enqueue _) _)
  | some (.ask (.dequeue .reEnqueued) _) | some (.ask (.device _) _) => isTrue trivial

/-- The condition on the steps; a session that is cut off does not operate the device. -/
def Orderly (p : Running) : Transactions.Event → Prop
  | .run i => InOrder p.world (p.threads 0).isNone i (p.threads i)
  | .stop i => ¬ p.world.Operating i

instance (p : Running) : (e : Transactions.Event) → Decidable (Orderly p e)
  | .run _ => inferInstanceAs (Decidable (InOrder _ _ _ _))
  | .stop _ => inferInstanceAs (Decidable (¬ _))

/-! ### What a session may do -/

/-- Of a session: its transaction, its lock, and what the record says of it. -/
@[ext]
structure Held where
  session : Nat
  tx : Phase Key Row Empty
  lock : Option Purpose
  called : Bool
  operated : Bool
  handed : Bool
  wrote : Bool

/-- The phase of a session. -/
def State.held (s : State) (i : Nat) : Held where
  session := i
  tx := s.db.phase i
  lock := s.advisory.bind fun l => if l.1 = i then some l.2 else none
  called := s.calls.any fun x => x.1 == i
  operated := s.calls.any fun x => x.1 == i && x.2.isOperation
  handed := decide (i ∈ s.handed)
  wrote := decide (i ∈ s.wrote)

/-- What a session commits: the action as the request creates it, or under the lock the
action with a final status or its status as it was; after a call, with a final status. -/
structure Held.Commits (h : Held) : Prop where
  created : ∀ n, h.tx.held .action = some (none, n) → h.session = 0 ∧ ∃ row, n = some row
  written : ∀ old n, h.tx.held .action = some (some old, n) →
    h.lock ≠ none ∧ ∃ row, n = some row ∧ (row.status.final = true ∨ row.status = old.status)
  ended : h.called = true → h.lock = some .run →
    ∃ old row, h.tx.held .action = some (some old, some row) ∧ row.status.final = true

/-- The phase after a statement. -/
def Held.afterSql (h : Held) (q : Stmt Key Row Empty) (a : q.Answer) : Held :=
  match q with
  | .commit =>
    { h with
      tx := h.tx.next .commit a
      lock := none
      wrote := h.wrote || (h.tx.held .action).isSome }
  | q => { h with tx := h.tx.next q a }

/-- The discipline of the sessions on an action of a kind: the device is called under the
lock for a run, and operated once unless it is upgraded; only the request inserts. -/
def oneRun (kind : Kind) : Dialogue.Discipline Ask Ask.Answer Held where
  allows h q :=
    match q with
    | .sql .commit => h.Commits
    | .sql (.insert .action v) => h.session = 0 ∧ v.kind = kind
    | .sql (.modify .action f) => ∀ row, ∃ row', f row = some (some row') ∧ row'.kind = row.kind
    | .sql (.select _) => True
    | .sql _ => False
    | .getAction => h.handed = true ∧ h.tx.held .action = none
    | .tryLock _ => h.lock = none
    | .enqueue (.runFirmwareAction .reEnqueued) => h.wrote = true
    | .enqueue _ => True
    | .dequeue _ => True
    | .device c =>
      h.lock = some .run ∧ (c.isOperation = true → kind = .firmwareUpgrade ∨ h.operated = false)
  admits h q a :=
    match q, a with
    | .sql q, a => h.tx.Admits q a
    | .getAction, (a : Option FirmwareAction) => ∀ action, a = some action → action.kind = kind
    | _, _ => True
  next h q a :=
    match q, a with
    | .sql q, a => h.afterSql q a
    | .getAction, _ => h
    | .tryLock purpose, (a : Bool) => if a then { h with lock := some purpose } else h
    | .enqueue _, _ => h
    | .dequeue _, _ => { h with handed := true }
    | .device c, _ => { h with called := true, operated := h.operated || c.isOperation }

def Held.start (i : Nat) : Held := ⟨i, .clear, none, false, false, false, false⟩

/-! ### The calls of one run -/

/-- The discipline of a run: one operation, unless it is an upgrade. -/
def once (upgrade : Bool) : Dialogue.Discipline Call (fun _ => Answer) Bool where
  allows operated c := c.isOperation = true → upgrade = true ∨ operated = false
  next operated c _ := operated || c.isOperation

section Calls

variable {α : Type} {upgrade operated : Bool} {Z : Bool → Except Failure α → Prop}

theorem once_call {c : Call} {k : Json → Box α} (hc : c.isOperation = false)
    (hk : ∀ a, (k a).Follows (once upgrade) Z operated) (herr : ∀ e, Z operated (.error e)) :
    ((call c).bind k).Follows (once upgrade) Z operated := by
  have hnext (a : Answer) : (once upgrade).next operated c a = operated := by
    show (operated || c.isOperation) = operated
    rw [hc, Bool.or_false]
  refine ⟨fun h => ?_, fun a _ => ?_⟩
  · rw [hc] at h
    cases h
  · rw [hnext]
    cases a with
    | ok a => exact hk a
    | error e => exact herr e

theorem once_operate {c : Call} {k : Json → Box α}
    (hk : ∀ a operated', (k a).Follows (once upgrade) (fun _ _ => True) operated') :
    ((call c).bind k).Follows (once upgrade) (fun _ _ => True) false := by
  refine ⟨fun _ => .inr rfl, fun a _ => ?_⟩
  cases a with
  | ok a => exact hk a _
  | error e => trivial

theorem once_onJson {x : Except BuiltinError α} {β : Type} {k : α → Box β}
    {Z : Bool → Except Failure β → Prop} (hk : ∀ a, (k a).Follows (once upgrade) Z operated)
    (herr : ∀ e, Z operated (.error e)) :
    ((onJson x).bind k).Follows (once upgrade) Z operated := by
  cases x with
  | ok a => exact hk a
  | error e => exact herr _

theorem once_waitUntilReachable (n : Nat) :
    (waitUntilReachable n).Follows (once upgrade) (fun o _ => o = operated) operated := by
  induction n with
  | zero => exact rfl
  | succ n ih =>
    have hnext : (operated || Call.testConnection.isOperation) = operated := Bool.or_false _
    refine ⟨nofun, fun a _ => ?_⟩
    show Dialogue.Follows _ _ (operated || _) _
    rw [hnext]
    match a with
    | .ok _ => exact rfl
    | .error .reachability => exact ih
    | .error (.opnsense _) | .error (.builtin _) | .error .invalidToken
    | .error .integrityError | .error .staleDataError | .error (.http _ _) => exact rfl

theorem once_pollUntilDone (n : Nat) (seenRunning : Bool) (idlePolls : Nat) :
    (pollUntilDone n seenRunning idlePolls).Follows (once upgrade) (fun o _ => o = operated)
      operated := by
  induction n generalizing seenRunning idlePolls with
  | zero => exact rfl
  | succ n ih =>
    have hnext : (operated || Call.firmwareUpgradeStatus.isOperation) = operated :=
      Bool.or_false _
    refine ⟨nofun, fun a _ => ?_⟩
    show Dialogue.Follows _ _ (operated || _) _
    rw [hnext]
    match a with
    | .ok st =>
      apply once_onJson
      · intro word
        split
        · exact ih _ _
        · split
          · exact rfl
          · split
            · exact rfl
            · exact ih _ _
      · exact fun _ => rfl
    | .error .reachability =>
      apply (once_waitUntilReachable rebootMaxPolls).bind
      · rintro _ _ rfl
        exact ih _ _
      · exact fun _ _ h => h
    | .error (.opnsense _) | .error (.builtin _) | .error .invalidToken
    | .error .integrityError | .error .staleDataError | .error (.http _ _) => exact rfl

theorem once_poll {maxPolls : Nat} {k : Json → Box α}
    (hk : ∀ a, (k a).Follows (once upgrade) (fun _ _ => True) operated) :
    ((poll maxPolls).bind k).Follows (once upgrade) (fun _ _ => True) operated := by
  apply (once_pollUntilDone maxPolls false 0).bind
  · rintro _ a rfl
    exact hk a
  · exact fun _ _ _ => trivial

theorem once_finish (result : Dict) :
    (finish result).Follows (once upgrade) (fun _ _ => True) operated :=
  once_call rfl (fun _ => trivial) fun _ => trivial

/-- **A run operates the device once**, unless it upgrades it. -/
theorem once_operation (action : FirmwareAction) (maxPolls : Nat) :
    (operation action maxPolls).Follows (once (decide (action.kind = .firmwareUpgrade)))
      (fun _ _ => True) false := by
  have hoperate : (operate action maxPolls).Follows
      (once (decide (action.kind = .firmwareUpgrade))) (fun _ _ => True) false := by
    unfold operate
    cases hkind : action.kind with
    | firmwareUpgrade =>
      -- an upgrade may operate as often as it likes
      apply Dialogue.Follows.of_preserved _ _ _ trivial
      · exact fun _ _ _ _ => .inl rfl
      · exact fun _ _ _ _ _ => trivial
    | pluginRemove => exact once_operate fun _ _ => once_poll fun _ => once_finish _
    | firmwareUpdate => exact once_operate fun _ _ => once_poll fun _ => once_finish _
    | pluginInstall =>
      apply once_call rfl _ fun _ => trivial
      intro _
      apply once_poll
      intro _
      apply once_call rfl _ fun _ => trivial
      intro st
      apply once_onJson _ fun _ => trivial
      intro pending
      split
      · trivial
      · exact once_operate fun _ _ => once_poll fun _ => once_finish _
    | unknown text => trivial
  apply hoperate.handle
  · exact fun _ _ _ => trivial
  · intro _ e _
    split <;> trivial

end Calls

/-! ### The sessions keep to the discipline -/

section Sessions

variable {kind : Kind} {h : Held} {β : Type} {Z : Held → Except Failure β → Prop}

theorem commits_nothing (hfree : h.tx.held .action = none) (hcalled : h.called = false) :
    h.Commits where
  created n hn := by rw [hfree] at hn; cases hn
  written old n hn := by rw [hfree] at hn; cases hn
  ended hc := by rw [hcalled] at hc; cases hc

theorem follows_flush {f : FirmwareAction → FirmwareAction} {k : Unit → Session β}
    (hf : ∀ row, (f row).kind = row.kind)
    (hk : ∀ row, (k ()).Follows (oneRun kind) Z
      { h with tx := h.tx.put .action (h.tx.before .action (some row)) (some (f row)) })
    (herr : Z h (.error .staleDataError)) : ((flush f).bind k).Follows (oneRun kind) Z h := by
  refine ⟨fun row => ⟨f row, rfl, hf row⟩, fun a _ => ?_⟩
  cases a with
  | none => exact herr
  | some row => exact hk row

theorem follows_select {key : Key} {k : Option (Row key) → Session β}
    (hk : ∀ a, (k a).Follows (oneRun kind) Z h) :
    ((sql (.select key)).bind k).Follows (oneRun kind) Z h := ⟨trivial, fun a _ => hk a⟩

theorem follows_onDevice {action : FirmwareAction} {maxPolls : Nat} {k : Ending → Session β}
    (hlock : h.lock = some .run) (hoperated : h.operated = false) (hkind : action.kind = kind)
    (hk : ∀ h' ending, h'.lock = some .run → h'.tx = h.tx →
      (k ending).Follows (oneRun kind) (Dialogue.OnOk fun h' _ => h'.Commits) h') :
    ((onDevice (operation action maxPolls)).bind k).Follows (oneRun kind)
      (Dialogue.OnOk fun h' _ => h'.Commits) h := by
  have hcalls : (onDevice (operation action maxPolls)).Follows (oneRun kind) (fun h' _ =>
      ∃ operated, (h'.lock = some .run ∧ h'.operated = operated ∧ h'.tx = h.tx) ∧ True) h := by
    apply (once_operation action maxPolls).translate _ _ ⟨hlock, hoperated, rfl⟩
    · rintro operated h' c ⟨hlock', rfl, -⟩ hallow
      refine ⟨hlock', fun hc => (hallow hc).imp_left fun hupgrade => ?_⟩
      rw [← hkind]
      exact of_decide_eq_true hupgrade
    · rintro operated h' c a ⟨hlock', rfl, htx⟩ _ _
      exact ⟨trivial, hlock', rfl, htx⟩
  apply hcalls.bind
  · rintro h' ending ⟨_, ⟨hlock', -, htx⟩, -⟩
    exact hk h' ending hlock' htx
  · exact fun _ _ _ => trivial

/-- A run ends with a final status in the row. -/
theorem follows_carryOut {action : FirmwareAction} {now : Time} {maxPolls : Nat}
    (hlock : h.lock = some .run) (hoperated : h.operated = false) (hkind : action.kind = kind)
    (hfree : h.tx.held .action = none) :
    (carryOut action now maxPolls).Follows (oneRun kind) (Dialogue.OnOk fun h' _ => h'.Commits)
      h := by
  -- from the calls on, where the row is as it was or `running`
  have hrest (h' : Held) (hlock : h'.lock = some .run) (hoperated : h'.operated = false)
      (hbefore : ∀ row, ∃ old, h'.tx.before .action (some row) = some old) :
      Dialogue.Follows (oneRun kind) (Dialogue.OnOk fun h' _ => h'.Commits) h'
        ((onDevice (operation action maxPolls)).bind fun ending =>
          (flush fun row => { row with
            status := ending.status
            result := ending.result
            appliedAt := if ending.status = .done then some now else row.appliedAt }).bind
            fun _ => .pure ending.status) := by
    apply follows_onDevice hlock hoperated hkind
    intro h'' ending hlock'' htx
    apply follows_flush
    · exact fun _ => rfl
    · intro row
      obtain ⟨old, hold⟩ := hbefore row
      rw [htx, hold]
      have hself := Phase.held_put_self h'.tx .action (some old) (some { row with
        status := ending.status
        result := ending.result
        appliedAt := if ending.status = .done then some now else row.appliedAt })
      constructor
      · intro n hn
        cases hself.symm.trans hn
      · intro old' n hn
        obtain ⟨-, rfl⟩ := Prod.mk.inj (Option.some.inj (hself.symm.trans hn))
        exact ⟨by simp [hlock''], _, rfl, .inl ending.ended⟩
      · exact fun _ _ => ⟨old, _, hself, ending.ended⟩
    · trivial
  have hfirst (row : FirmwareAction) : h.tx.before .action (some row) = some row := by
    rw [Phase.before, hfree]
  unfold carryOut
  split
  · apply follows_flush
    · exact fun _ => rfl
    · intro row
      apply hrest
      · exact hlock
      · exact hoperated
      · intro row'
        rw [Phase.before, hfirst, Phase.held_put_self]
        exact ⟨row, rfl⟩
    · trivial
  · exact hrest h hlock hoperated fun row => ⟨row, hfirst row⟩

theorem follows_runFirmwareAction {action : FirmwareAction} {now : Time} {maxPolls : Nat}
    (hkind : action.kind = kind) (hfree : h.tx.held .action = none) (hlock : h.lock = none)
    (hcalled : h.called = false) (hoperated : h.operated = false) :
    (runFirmwareAction action now maxPolls).Follows (oneRun kind)
      (Dialogue.OnOk fun h' _ => h'.Commits) h := by
  unfold runFirmwareAction
  split
  · exact commits_nothing hfree hcalled
  · refine ⟨hlock, fun a _ => ?_⟩
    cases a with
    | true => exact follows_carryOut rfl hoperated hkind hfree
    | false => exact commits_nothing hfree hcalled

theorem follows_job (i : Nat) (origin : Origin) (now : Time) (maxPolls : Nat) :
    (Role.job origin now maxPolls).program.Follows (oneRun kind) (fun _ _ => True) (.start i) := by
  refine ⟨trivial, fun _ _ => ⟨⟨rfl, rfl⟩, fun a ha => ?_⟩⟩
  cases a with
  | none => trivial
  | some action =>
    refine Dialogue.Follows.bind (Z := fun _ _ => True) ?_ (fun _ _ _ => trivial)
      fun _ _ _ => trivial
    apply follows_select
    intro d
    cases d with
    | none => trivial
    | some device =>
      dsimp only
      split
      · trivial
      · apply (follows_runFirmwareAction (ha action rfl) rfl rfl rfl rfl).bind
        · intro h' status hcommits
          refine ⟨hcommits, fun _ _ => ?_⟩
          dsimp only
          split
          · exact ⟨trivial, fun _ _ => trivial⟩
          · trivial
        · exact fun _ _ _ => trivial

theorem follows_create (tenantId : TenantId) (body : FirmwareActionIn) (now : Time) :
    (createFirmwareAction tenantId body now).Follows (oneRun body.kind) (fun _ _ => True)
      (.start 0) := by
  apply follows_select
  intro d
  cases d with
  | none => trivial
  | some device =>
    dsimp only
    split
    · trivial
    · split
      · trivial
      · refine ⟨⟨rfl, rfl⟩, fun a _ => ?_⟩
        cases a with
        | false => trivial
        | true =>
          refine ⟨trivial, fun _ _ => ⟨?_, fun _ _ => trivial⟩⟩
          have hself := Phase.held_put_self (Phase.clear : Phase Key Row Empty) .action none
            (some (newAction body now))
          constructor
          · intro n hn
            exact ⟨rfl, _, (congrArg Prod.snd (Option.some.inj (hself.symm.trans hn))).symm⟩
          · intro old n hn
            cases hself.symm.trans hn
          · exact nofun

theorem follows_sweepAction (maxAttempts : Nat) (hfree : h.tx.held .action = none)
    (hlock : h.lock = none) (hcalled : h.called = false) :
    (sweepAction maxAttempts).Follows (oneRun kind) (fun _ _ => True) h := by
  -- a write of the sweeper that keeps the status or ends the action
  have hcommits (row row' : FirmwareAction)
      (hstatus : row'.status.final = true ∨ row'.status = row.status) :
      Held.Commits { h with
        lock := some .sweep
        tx := h.tx.put .action (h.tx.before .action (some row)) (some row') } := by
    have hself := Phase.held_put_self h.tx .action (some row) (some row')
    have hbefore : h.tx.before .action (some row) = some row := by rw [Phase.before, hfree]
    rw [hbefore]
    constructor
    · intro n hn
      cases hself.symm.trans hn
    · intro old n hn
      obtain ⟨heq, rfl⟩ := Prod.mk.inj (Option.some.inj (hself.symm.trans hn))
      obtain rfl := Option.some.inj heq
      exact ⟨Option.some_ne_none _, _, rfl, hstatus⟩
    · exact fun hc => Bool.noConfusion (hc.symm.trans hcalled)
  apply follows_select
  intro a
  cases a with
  | none => trivial
  | some row =>
    dsimp only
    split
    · trivial
    · refine ⟨hlock, fun got _ => ?_⟩
      cases got with
      | false => trivial
      | true =>
        dsimp only
        split
        · apply follows_flush
          · exact fun _ => rfl
          · intro row'
            refine ⟨hcommits row' _ (.inr rfl), fun _ _ => ⟨?_, fun _ _ => trivial⟩⟩
            show (h.wrote || ((h.tx.put .action _ _).held .action).isSome) = true
            rw [Phase.held_put_self, Option.isSome_some, Bool.or_true]
          · trivial
        · apply follows_flush
          · exact fun _ => rfl
          · intro row'
            exact ⟨hcommits row' _ (.inl rfl), fun _ _ => trivial⟩
          · trivial

theorem follows_program (role : Role) (i : Nat) :
    role.program.Follows (oneRun kind) (fun _ _ => True) (.start i) := by
  cases role with
  | job origin now maxPolls => exact follows_job i origin now maxPolls
  | sweep cutoff maxAttempts =>
    apply follows_select
    intro a
    cases a with
    | none => trivial
    | some row =>
      dsimp only
      split
      · apply (follows_sweepAction maxAttempts rfl rfl rfl).handle
        · exact fun _ _ _ => trivial
        · exact fun _ _ _ => trivial
      · trivial
  | other =>
    refine ⟨rfl, fun got _ => ⟨?_, fun _ _ => trivial⟩⟩
    cases got <;> exact commits_nothing rfl rfl

end Sessions

/-! ### What an answer does to the phases -/

section Phases

variable {kind : Kind} {s s' : State} {i j : Nat}

theorem released_bind (hj : j ≠ i) :
    ((s.released i).bind fun l => if l.1 = j then some l.2 else none) = (s.held j).lock := by
  show _ = s.advisory.bind _
  unfold State.released
  cases s.advisory with
  | none => rfl
  | some l =>
    by_cases hl : l.1 = i
    · have hother : ¬ l.1 = j := fun h => hj (h.symm.trans hl)
      simp [Option.filter, hl, hj.symm]
    · simp [Option.filter, hl]

theorem released_bind_self :
    ((s.released i).bind fun l => if l.1 = i then some l.2 else none) = none := by
  unfold State.released
  cases s.advisory with
  | none => rfl
  | some l => by_cases hl : l.1 = i <;> simp [Option.filter, hl]

theorem held_close_other (hj : j ≠ i) : (s.close i).held j = s.held j := by
  ext1
  · rfl
  · exact Db.phase_rollback_other hj
  · exact released_bind hj
  all_goals rfl

theorem held_afterSql {q : Stmt Key Row Empty} {a : q.Answer} {d : Db Key Row Empty}
    (h : s.db.serve i q = some (a, d)) :
    (s.afterSql i q d).held i = (s.held i).afterSql q a ∧
      ∀ j, j ≠ i → (s.afterSql i q d).held j = s.held j := by
  obtain ⟨-, hown, hother⟩ := Db.serve_phase h
  cases q with
  | commit =>
    have hwrote (j : Nat) : ((s.afterSql i .commit d).held j).wrote =
        ((s.held j).wrote || (decide (j = i) && ((s.db.phase i).held .action).isSome)) := by
      show decide (j ∈ if ((s.db.phase i).held .action).isSome then i :: s.wrote else s.wrote) =
        (decide (j ∈ s.wrote) || _)
      cases ((s.db.phase i).held .action).isSome with
      | true => simp [Bool.or_comm]
      | false => simp
    constructor
    · ext1
      · rfl
      · exact hown
      · exact released_bind_self
      · rfl
      · rfl
      · rfl
      · exact (hwrote i).trans (by rw [decide_eq_true rfl, Bool.true_and]; rfl)
    · intro j hj
      ext1
      · rfl
      · exact hother j hj
      · exact released_bind hj
      · rfl
      · rfl
      · rfl
      · exact (hwrote j).trans (by rw [decide_eq_false hj, Bool.false_and, Bool.or_false])
  | _ =>
    constructor
    · ext1
      · rfl
      · exact hown
      all_goals rfl
    · intro j hj
      ext1
      · rfl
      · exact hother j hj
      all_goals rfl

/-- An answer moves the phase of its session as the discipline says, and no other. -/
theorem held_serve {q : Ask} {a : q.Answer} (h : s.serve i q = some (a, s')) :
    s'.held i = (oneRun kind).next (s.held i) q a ∧ ∀ j, j ≠ i → s'.held j = s.held j := by
  cases q with
  | sql q =>
    obtain ⟨⟨a, d⟩, hs, heq⟩ := Option.map_eq_some_iff.mp h
    cases heq
    exact held_afterSql hs
  | getAction =>
    cases h
    exact ⟨rfl, fun _ _ => rfl⟩
  | tryLock purpose =>
    simp only [State.serve] at h
    split at h
    · rename_i hfree
      cases h
      constructor
      · ext1
        · rfl
        · rfl
        · exact if_pos rfl
        all_goals rfl
      · intro j hj
        ext1
        · rfl
        · rfl
        · -- nobody else has the lock
          show (if i = j then _ else none) = s.advisory.bind _
          rw [if_neg (Ne.symm hj)]
          unfold State.lockFree at hfree
          cases hl : s.advisory with
          | none => rfl
          | some l =>
            rw [hl] at hfree
            have hli : l.1 = i := beq_iff_eq.mp hfree
            exact (if_neg fun h => hj (h.symm.trans hli)).symm
        all_goals rfl
    · cases h
      exact ⟨rfl, fun _ _ => rfl⟩
  | enqueue job =>
    cases h
    exact ⟨rfl, fun _ _ => rfl⟩
  | dequeue origin =>
    simp only [State.serve] at h
    split at h
    · cases h
    · cases h
      constructor
      · ext1
        case handed => exact decide_eq_true List.mem_cons_self
        all_goals rfl
      · intro j hj
        ext1
        case handed => simp [State.held, hj]
        all_goals rfl
  | device c =>
    cases h
    constructor
    · ext1
      case called => simp [State.held, oneRun]
      case operated => simp [State.held, oneRun]
      all_goals rfl
    · intro j hj
      ext1
      case called => simp [State.held, Ne.symm hj]
      case operated => simp [State.held, Ne.symm hj]
      all_goals rfl

end Phases

/-! ### The invariant -/

/-- Of the state: every version of the row has the kind of the action, a session that has the
lock for a run works on an open action, and all calls are those of one session, which has the
lock, or has ended the action. -/
structure Once (kind : Kind) (s : State) : Prop where
  committed : ∀ row, s.action = some row → row.kind = kind
  locked : ∀ j row, s.db.lock .action = some (j, some row) → row.kind = kind
  unfinished : ∀ i, s.advisory = some (i, .run) → s.Open
  single : ∀ x ∈ s.calls, ∀ y ∈ s.calls, x.1 = y.1
  occupied : ∀ x ∈ s.calls, s.advisory = some (x.1, .run) ∨
    ∃ row, s.action = some row ∧ row.status.final = true
  operations : kind ≠ .firmwareUpgrade → (s.calls.filter fun x => x.2.isOperation).length ≤ 1

/-- Of the sessions: a job is handed out when the action is there or will never be, and what
the sweeper queues is for an action that is there. -/
structure Answered (p : Running) : Prop where
  handed : p.world.handed ≠ [] → p.world.action ≠ none ∨ p.threads 0 = none
  queued : p.world.queued (.runFirmwareAction .reEnqueued) ≠ 0 → p.world.action ≠ none
  wrote : p.world.wrote ≠ [] → p.world.action ≠ none
  missed : p.world.missed = true → p.world.action = none ∧ p.threads 0 = none

section Steps

variable {kind : Kind} {s s' : State} {i : Nat} {p p' : Running}

theorem row_of_serve {d d' : Db Key Row Empty} {q : Stmt Key Row Empty} {a : q.Answer}
    (h : d.serve i q = some (a, d')) (hq : q ≠ .commit) : d'.row = d.row := by
  rcases Db.serve_cases h with rfl | ⟨n, -, rfl⟩ | ⟨k, v, rfl, -, -⟩ | ⟨hcommit, -⟩
  · rfl
  · rfl
  · rfl
  · exact absurd hcommit hq

theorem commit_cases (h : (s.held i).Commits) (d : Db Key Row Empty) (hd : d = s.db.commit i) :
    ((s.db.phase i).held .action = none ∧ d.row .action = s.action) ∨
    (i = 0 ∧ s.action = none ∧ ∃ row, d.row .action = some row) ∨
    ∃ old row, s.action = some old ∧ d.row .action = some row ∧ (s.held i).lock ≠ none ∧
      (row.status.final = true ∨ row.status = old.status) := by
  subst hd
  rw [Db.row_commit]
  cases hheld : (s.db.phase i).held .action with
  | none => exact .inl ⟨rfl, rfl⟩
  | some held =>
    obtain ⟨b, n⟩ := held
    have hrow := (Db.row_of_held hheld).1
    right
    cases b with
    | none =>
      obtain ⟨hzero, row, rfl⟩ := h.created n hheld
      exact .inl ⟨hzero, hrow, row, rfl⟩
    | some old =>
      obtain ⟨hlock, row, rfl, hstatus⟩ := h.written old n hheld
      exact .inr ⟨old, row, hrow, rfl, hlock, hstatus⟩

theorem Once.view (h : Once kind s) {row : FirmwareAction}
    (hview : s.db.view i .action = some row) : row.kind = kind := by
  unfold Db.view at hview
  split at hview
  · rename_i j v hl
    split at hview
    · rw [hview] at hl
      exact h.locked j row hl
    · exact h.committed row hview
  · exact h.committed row hview

theorem advisory_of_lock {purpose : Purpose} (h : (s.held i).lock = some purpose) :
    s.advisory = some (i, purpose) := by
  obtain ⟨l, hl, hpurpose⟩ := Option.bind_eq_some_iff.mp h
  split at hpurpose
  · rename_i hi
    obtain rfl := Option.some.inj hpurpose
    rw [hl, ← hi]
  · cases hpurpose

/-- A commit keeps it. -/
theorem Once.commit (h : Once kind s) (hc : (s.held i).Commits) :
    Once kind (s.afterSql i .commit (s.db.commit i)) := by
  have hcases := commit_cases hc _ rfl
  have hreleased {j : Nat} {purpose : Purpose} (hj : s.released i = some (j, purpose)) :
      s.advisory = some (j, purpose) ∧ j ≠ i := by
    obtain ⟨hadv, hne⟩ := Option.filter_eq_some_iff.mp hj
    exact ⟨hadv, by simpa using hne⟩
  constructor
  · intro row hrow
    exact h.view hrow
  · intro j row hl
    obtain ⟨hl, -⟩ := Option.filter_eq_some_iff.mp hl
    exact h.locked j row hl
  · -- who has the lock for a run still has it, so this session wrote nothing
    intro j hj
    obtain ⟨hadv, hji⟩ := hreleased hj
    have hopen := h.unfinished j hadv
    rcases hcases with ⟨-, hsame⟩ | ⟨-, hnone, -⟩ | ⟨old, row, hold, -, hlock, -⟩
    · show ((s.db.commit i).row .action).map _ = _
      rw [hsame]
      exact hopen
    · rw [State.Open, hnone] at hopen
      cases hopen
    · obtain ⟨purpose, hpurpose⟩ := Option.ne_none_iff_exists'.mp hlock
      have hown := advisory_of_lock hpurpose
      rw [hadv] at hown
      exact absurd (congrArg Prod.fst (Option.some.inj hown)) hji
  · exact h.single
  · intro x hx
    rcases h.occupied x hx with hadv | ⟨old, hold, hfinal⟩
    · by_cases hxi : x.1 = i
      · -- the session that has called the device ends the action
        right
        have hcalled : (s.held i).called = true :=
          List.any_eq_true.mpr ⟨x, hx, beq_iff_eq.mpr hxi⟩
        have hlock : (s.held i).lock = some .run := by
          show s.advisory.bind _ = _
          rw [hadv, Option.bind_some, if_pos hxi]
        obtain ⟨old, row, hheld, hfinal⟩ := hc.ended hcalled hlock
        have hheld : (s.db.phase i).held .action = some (some old, some row) := hheld
        refine ⟨row, ?_, hfinal⟩
        show (s.db.commit i).row .action = _
        rw [Db.row_commit, hheld]
      · left
        show s.advisory.filter _ = _
        rw [hadv, Option.filter_some, if_pos (by simpa using hxi)]
    · right
      rcases hcases with ⟨-, hsame⟩ | ⟨-, hnone, -⟩ | ⟨old', row, hold', hrow, -, hstatus⟩
      · exact ⟨old, hsame.trans hold, hfinal⟩
      · rw [hold] at hnone
        cases hnone
      · obtain rfl := Option.some.inj (hold.symm.trans hold')
        exact ⟨row, hrow, hstatus.elim id fun heq => heq ▸ hfinal⟩
  · exact h.operations

theorem Once.of_db (h : Once kind s) {d : Db Key Row Empty} (hrow : d.row = s.db.row)
    (hlocked : ∀ j row, d.lock .action = some (j, some row) → row.kind = kind) :
    Once kind { s with db := d } := by
  have haction : State.action { s with db := d } = s.action := congrFun hrow .action
  constructor
  · rw [haction]
    exact h.committed
  · exact hlocked
  · intro j hj
    rw [State.Open, haction]
    exact h.unfinished j hj
  · exact h.single
  · intro x hx
    rw [haction]
    exact h.occupied x hx
  · exact h.operations

/-- A statement keeps it. -/
theorem Once.sql (h : Once kind s) {q : Stmt Key Row Empty} {a : q.Answer}
    {d : Db Key Row Empty} (hs : s.db.serve i q = some (a, d))
    (hallow : (oneRun kind).allows (s.held i) (.sql q)) : Once kind (s.afterSql i q d) := by
  cases q with
  | select k =>
    cases hs
    exact h
  | scan p => exact hallow.elim
  | modify k f =>
    cases k with
    | device => exact hallow.elim
    | action =>
      apply h.of_db (row_of_serve hs (by simp))
      simp only [Db.serve] at hs
      split at hs
      · cases hs
        exact h.locked
      · rename_i v hv
        obtain ⟨row', hf, hkind⟩ := hallow v
        rw [hf] at hs
        dsimp only at hs
        split at hs
        · cases hs
        · cases hs
          intro j row hl
          obtain ⟨-, rfl⟩ := by simpa [Db.put] using hl
          exact hkind.trans (h.view hv)
  | insert k v =>
    cases k with
    | device => exact hallow.elim
    | action =>
      apply h.of_db (row_of_serve hs (by simp))
      simp only [Db.serve] at hs
      split at hs
      · cases hs
      · split at hs
        · cases hs
          exact h.locked
        · cases hs
          intro j row hl
          obtain ⟨-, rfl⟩ := by simpa [Db.put] using hl
          exact hallow.2
  | create key hkey v => exact hallow.elim
  | note n => exact n.elim
  | commit =>
    cases hs
    exact h.commit hallow

theorem Once.close (h : Once kind s) (hend : ¬ s.Operating i) : Once kind (s.close i) := by
  constructor
  · exact h.committed
  · intro j row hl
    obtain ⟨hl, -⟩ := Option.filter_eq_some_iff.mp hl
    exact h.locked j row hl
  · intro j hj
    obtain ⟨hadv, -⟩ := Option.filter_eq_some_iff.mp hj
    exact h.unfinished j hadv
  · exact h.single
  · intro x hx
    refine (h.occupied x hx).imp_left fun hadv => ?_
    have hxi : x.1 ≠ i := by
      rintro rfl
      exact hend ⟨hadv, List.mem_map_of_mem hx⟩
    show s.advisory.filter _ = _
    rw [hadv, Option.filter_some, if_pos (by simpa using hxi)]
  · exact h.operations

/-- An answer keeps it, where a job that gets the lock finds the action open. -/
theorem Once.serve (h : Once kind s) {q : Ask} {a : q.Answer}
    (hs : s.serve i q = some (a, s')) (hallow : (oneRun kind).allows (s.held i) q)
    (hlock : q = .tryLock .run → s.lockFree i = true → s.Open) : Once kind s' := by
  cases q with
  | sql q =>
    obtain ⟨⟨a, d⟩, hq, heq⟩ := Option.map_eq_some_iff.mp hs
    cases heq
    exact h.sql hq hallow
  | getAction =>
    cases hs
    exact ⟨h.committed, h.locked, h.unfinished, h.single, h.occupied, h.operations⟩
  | tryLock purpose =>
    simp only [State.serve] at hs
    split at hs
    · rename_i hfree
      cases hs
      -- the lock was nobody's
      have hnone : s.advisory = none := by
        cases hl : s.advisory with
        | none => rfl
        | some l =>
          have hli : l.1 = i := by
            rw [State.lockFree, hl] at hfree
            exact beq_iff_eq.mp hfree
          have hheld : (s.held i).lock = some l.2 := by
            show s.advisory.bind _ = _
            rw [hl, Option.bind_some, if_pos hli]
          exact absurd (hheld.symm.trans hallow) nofun
      refine ⟨h.committed, h.locked, fun j hj => ?_, h.single, fun x hx => ?_, h.operations⟩
      · obtain ⟨-, rfl⟩ := Prod.mk.inj (Option.some.inj hj)
        exact hlock rfl hfree
      · rcases h.occupied x hx with hadv | hfinal
        · rw [hnone] at hadv
          cases hadv
        · exact .inr hfinal
    · cases hs
      exact h
  | enqueue job =>
    cases hs
    exact ⟨h.committed, h.locked, h.unfinished, h.single, h.occupied, h.operations⟩
  | dequeue origin =>
    simp only [State.serve] at hs
    split at hs
    · cases hs
    · cases hs
      exact ⟨h.committed, h.locked, h.unfinished, h.single, h.occupied, h.operations⟩
  | device c =>
    cases hs
    have hadv := advisory_of_lock hallow.1
    -- every earlier call is this session's
    have hown : ∀ x ∈ s.calls, x.1 = i := by
      intro x hx
      rcases h.occupied x hx with hx' | ⟨row, hrow, hfinal⟩
      · rw [hadv] at hx'
        exact (congrArg Prod.fst (Option.some.inj hx')).symm
      · have hopen := h.unfinished i hadv
        rw [State.Open, hrow, Option.map_some, hfinal] at hopen
        cases hopen
    have hall : ∀ x ∈ s.calls ++ [(i, c)], x.1 = i := by
      intro x hx
      rcases List.mem_append.mp hx with hx | hx
      · exact hown x hx
      · rw [List.mem_singleton.mp hx]
    refine ⟨h.committed, h.locked, h.unfinished, fun x hx y hy => ?_, fun x hx => ?_,
      fun hkind => ?_⟩
    · exact (hall x hx).trans (hall y hy).symm
    · exact .inl (hadv.trans (by rw [hall x hx]))
    · show ((s.calls ++ [(i, c)]).filter _).length ≤ 1
      rw [List.filter_append, List.length_append]
      by_cases hc : c.isOperation = true
      · -- the first operation: the earlier calls were none
        have hnone := (hallow.2 hc).resolve_left hkind
        have hnil : s.calls.filter (fun x => x.2.isOperation) = [] := by
          rw [List.filter_eq_nil_iff]
          intro x hx hop
          have hop' := List.any_eq_false.mp hnone x hx
          rw [hown x hx, beq_self_eq_true, Bool.true_and] at hop'
          exact hop' hop
        rw [hnil, List.length_nil, Nat.zero_add]
        exact List.length_filter_le _ _
      · have hnil : [(i, c)].filter (fun x => x.2.isOperation) = [] := by simp [hc]
        rw [hnil]
        exact h.operations hkind

theorem Answered.frame (h : Answered p) (s' : State) (threads : Nat → Option (Session Unit))
    (hzero : p.threads 0 = none → threads 0 = none)
    (haction : s'.action = p.world.action) (hhanded : s'.handed = p.world.handed)
    (hqueued : s'.queued (.runFirmwareAction .reEnqueued) =
      p.world.queued (.runFirmwareAction .reEnqueued))
    (hwrote : s'.wrote = p.world.wrote) (hmissed : s'.missed = p.world.missed) :
    Answered { world := s', threads := threads } where
  handed hne := by
    rw [haction]
    exact (h.handed (hhanded ▸ hne)).imp_right hzero
  queued hne := by
    rw [haction]
    exact h.queued (hqueued ▸ hne)
  wrote hne := by
    rw [haction]
    exact h.wrote (hwrote ▸ hne)
  missed hm := by
    rw [haction]
    exact (h.missed (hmissed ▸ hm)).imp_right hzero

theorem Answered.commit (h : Answered p) (hc : (p.world.held i).Commits)
    {threads : Nat → Option (Session Unit)} (hzero : p.threads 0 = none → threads 0 = none ∧ i ≠ 0) :
    Answered { world := p.world.afterSql i .commit (p.world.db.commit i), threads := threads } := by
  have hcases := commit_cases hc _ rfl
  have hsome : p.world.action ≠ none → (p.world.db.commit i).row .action ≠ none := by
    rcases hcases with ⟨-, hsame⟩ | ⟨-, -, row, hrow⟩ | ⟨-, row, -, hrow, -⟩
    · rw [hsame]
      exact id
    · simp [hrow]
    · simp [hrow]
  constructor
  · exact fun hne => (h.handed hne).imp hsome fun hended => (hzero hended).1
  · exact fun hne => hsome (h.queued hne)
  · -- a session that has written the action has committed it
    intro hne
    show (p.world.db.commit i).row .action ≠ none
    by_cases hwrote : p.world.wrote = []
    · rcases hcases with ⟨hfree, -⟩ | ⟨-, -, row, hrow⟩ | ⟨-, row, -, hrow, -⟩
      · simp [State.afterSql, hfree, hwrote] at hne
      · simp [hrow]
      · simp [hrow]
    · exact hsome (h.wrote hwrote)
  · intro hm
    obtain ⟨haction, hended⟩ := h.missed hm
    obtain ⟨hended', hi⟩ := hzero hended
    refine ⟨?_, hended'⟩
    rcases hcases with ⟨-, hsame⟩ | ⟨hzero', -, -⟩ | ⟨old, -, hold, -⟩
    · exact hsame.trans haction
    · exact absurd hzero' hi
    · rw [haction] at hold
      cases hold

/-- An answer keeps it, where the job of the request is handed out after the request. -/
theorem Answered.serve (h : Answered p) {q : Ask} {a : q.Answer}
    {threads : Nat → Option (Session Unit)} (hs : p.world.serve i q = some (a, s'))
    (hallow : (oneRun kind).allows (p.world.held i) q)
    (hdequeue : q = .dequeue .original →
      p.world.action.isSome = true ∨ (p.threads 0).isNone = true)
    (hzero : p.threads 0 = none → threads 0 = none ∧ i ≠ 0) :
    Answered { world := s', threads := threads } := by
  have hended := fun hended => (hzero hended).1
  cases q with
  | sql q =>
    obtain ⟨⟨a, d⟩, hq, heq⟩ := Option.map_eq_some_iff.mp hs
    cases heq
    cases q with
    | commit =>
      cases hq
      exact h.commit hallow hzero
    | _ => exact h.frame _ _ hended (congrFun (row_of_serve hq nofun) .action) rfl rfl rfl rfl
  | getAction =>
    cases hs
    refine ⟨fun hne => (h.handed hne).imp_right hended, h.queued, h.wrote, fun hm => ?_⟩
    rcases Bool.or_eq_true_iff.mp hm with hm | hnone
    · exact (h.missed hm).imp_right hended
    · -- the job has been handed out, and finds what is committed
      have hne : p.world.handed ≠ [] := List.ne_nil_of_mem (of_decide_eq_true hallow.1)
      have haction : p.world.action = none := by
        rw [← Option.isNone_iff_eq_none, ← hnone]
        exact congrArg Option.isNone (Db.view_of_not_held hallow.2).symm
      exact ⟨haction, hended ((h.handed hne).resolve_left fun hsome => hsome haction)⟩
  | tryLock purpose =>
    simp only [State.serve] at hs
    split at hs <;> cases hs <;> exact h.frame _ _ hended rfl rfl rfl rfl rfl
  | enqueue job =>
    cases hs
    refine ⟨fun hne => (h.handed hne).imp_right hended, fun hne => ?_, h.wrote,
      fun hm => (h.missed hm).imp_right hended⟩
    by_cases hjob : job = .runFirmwareAction .reEnqueued
    · subst hjob
      exact h.wrote (List.ne_nil_of_mem (of_decide_eq_true hallow))
    · apply h.queued
      intro hnone
      exact hne ((Function.update_of_ne (Ne.symm hjob) _ _).trans hnone)
  | dequeue origin =>
    simp only [State.serve] at hs
    split at hs
    · cases hs
    · rename_i hqueued
      cases hs
      refine ⟨fun _ => ?_, fun hne => ?_, h.wrote, fun hm => (h.missed hm).imp_right hended⟩
      · cases origin with
        | original =>
          rcases hdequeue rfl with hsome | hnone
          · exact .inl (Option.isSome_iff_ne_none.mp hsome)
          · exact .inr (hended (Option.isNone_iff_eq_none.mp hnone))
        | reEnqueued => exact .inl (h.queued hqueued)
      · cases origin with
        | original =>
          apply h.queued
          intro hnone
          have hother (n : Nat) : Function.update p.world.queued (.runFirmwareAction .original) n
              (.runFirmwareAction .reEnqueued) = 0 :=
            (Function.update_of_ne (by decide) n _).trans hnone
          exact hne (hother (p.world.queued (.runFirmwareAction .original) - 1))
        | reEnqueued => exact h.queued hqueued
  | device c =>
    cases hs
    exact h.frame _ _ hended rfl rfl rfl rfl rfl

theorem Answered.close (h : Answered p) : Answered
    { world := p.world.close i, threads := Function.update p.threads i none } := by
  refine h.frame _ _ ?_ rfl rfl rfl rfl rfl
  intro hended
  by_cases hi : i = 0
  · rw [hi, Function.update_self]
  · exact (Function.update_of_ne (Ne.symm hi) _ _).trans hended

/-- The invariant of a run. -/
structure Invariant (kind : Kind) (p : Running) : Prop where
  follow : Pool.AllFollow (oneRun kind) (fun _ _ => True) State.held p
  once : Once kind p.world
  answered : Answered p

theorem admits_serve (h : Once kind s) {q : Ask} {a : q.Answer}
    (hs : s.serve i q = some (a, s')) : (oneRun kind).admits (s.held i) q a := by
  cases q with
  | sql q =>
    obtain ⟨⟨a, d⟩, hq, heq⟩ := Option.map_eq_some_iff.mp hs
    cases heq
    exact (Db.serve_phase hq).1
  | getAction =>
    cases hs
    exact fun action haction => h.view haction
  | _ => trivial

/-- **Every orderly event keeps the invariant.** -/
theorem step_invariant {e : Transactions.Event} (h : Invariant kind p) (horder : Orderly p e)
    (hs : step p e = some p') : Invariant kind p' := by
  have hclose (i j : Nat) (s : State) (hj : j ≠ i) : (s.close i).held j = s.held j :=
    held_close_other hj
  cases e with
  | run i =>
    have hfollow : Pool.AllFollow (oneRun kind) (fun _ _ => True) State.held p' := by
      apply Pool.advance_follows _ _ hs _ h.follow
      · exact fun i s q a s' hq => held_serve hq
      · exact fun i s j hj => hclose i j s hj
      · exact fun q k a s' _ hq => admits_serve h.once hq
    rcases Pool.advance_cases hs with ⟨t, ht, hend, rfl⟩ | ⟨q, k, a, s', ht, hq, rfl⟩
    · have hnot : ¬ p.world.Operating i := by
        rcases hend with rfl | ⟨x, rfl⟩ <;> simpa only [Orderly, InOrder, ht] using horder
      exact ⟨hfollow, h.once.close hnot, h.answered.close⟩
    · have hallow := (h.follow i _ ht).1
      refine ⟨hfollow, h.once.serve hq hallow ?_, h.answered.serve hq hallow ?_ ?_⟩
      · rintro rfl
        simpa only [Orderly, InOrder, ht] using horder
      · rintro rfl
        simpa only [Orderly, InOrder, ht] using horder
      · intro hended
        have hne : i ≠ 0 := by
          rintro rfl
          cases hended.symm.trans ht
        exact ⟨(Function.update_of_ne hne.symm _ _).trans hended, hne⟩
  | stop i =>
    simp only [step] at hs
    split at hs
    · cases hs
    · cases hs
      refine ⟨?_, h.once.close horder, h.answered.close⟩
      intro j t hj
      by_cases hji : j = i
      · subst hji
        simp at hj
      · have hj' : p.threads j = some t := by simpa [hji] using hj
        show t.Follows _ _ ((p.world.close i).held j)
        rw [held_close_other hji]
        exact h.follow j t hj'

end Steps

section Runs

variable {s : State} {p' : Running} {es : List Transactions.Event}

theorem invariant_start (tenantId : TenantId) (body : FirmwareActionIn) (now : Time)
    (roles : Nat → Option Role) (hs : s.Fresh) :
    Invariant body.kind (start s tenantId body now roles) := by
  have hheld (i : Nat) : s.held i = .start i := by
    ext1
    · rfl
    · exact Db.phase_idle hs.idle
    · show s.advisory.bind _ = none
      rw [hs.advisory, Option.bind_none]
    · show s.calls.any _ = false
      rw [hs.calls, List.any_nil]
    · show s.calls.any _ = false
      rw [hs.calls, List.any_nil]
    · exact decide_eq_false (hs.handed ▸ List.not_mem_nil)
    · exact decide_eq_false (hs.wrote ▸ List.not_mem_nil)
  refine ⟨?_, ?_, ?_⟩
  · intro i t ht
    show t.Follows _ _ (s.held i)
    rw [hheld]
    cases i with
    | zero =>
      cases ht
      exact follows_create tenantId body now
    | succ i =>
      obtain ⟨role, -, rfl⟩ := Option.map_eq_some_iff.mp ht
      exact follows_program role (i + 1)
  · have hcalls : (start s tenantId body now roles).world.calls = [] := hs.calls
    constructor
    · intro row hrow
      cases hrow.symm.trans hs.action
    · intro j row hl
      cases hl.symm.trans (hs.idle.lock .action)
    · intro i hi
      cases hi.symm.trans hs.advisory
    · rw [hcalls]
      exact nofun
    · rw [hcalls]
      exact nofun
    · rw [hcalls]
      exact fun _ => Nat.zero_le 1
  · constructor
    · exact fun hne => absurd hs.handed hne
    · exact fun hne => absurd (hs.queued .reEnqueued) hne
    · exact fun hne => absurd hs.wrote hne
    · exact fun hm => absurd (hm.symm.trans hs.missed) nofun

/-- **A firmware action runs once** in every orderly run: all calls to the device are those of
one job, which operates it once unless it upgrades it, and no job finds the row of an action
missing whose request was accepted. -/
theorem action_runs_once (tenantId : TenantId) (body : FirmwareActionIn) (now : Time)
    (roles : Nat → Option Role) (hs : s.Fresh)
    (horder : Along step Orderly (start s tenantId body now roles) es)
    (hrun : runAll step (start s tenantId body now roles) es = some p') :
    (∀ x ∈ p'.world.calls, ∀ y ∈ p'.world.calls, x.1 = y.1) ∧
    (body.kind ≠ .firmwareUpgrade →
      (p'.world.calls.filter fun x => x.2.isOperation).length ≤ 1) ∧
    (p'.world.action ≠ none → p'.world.missed = false) := by
  have hend : Invariant body.kind p' :=
    runAll_invariant (fun _ _ _ hi ho hstep => step_invariant hi ho hstep)
      (invariant_start tenantId body now roles hs) horder hrun
  refine ⟨hend.once.single, hend.once.operations, fun haction => ?_⟩
  cases hm : p'.world.missed with
  | false => rfl
  | true => exact absurd (hend.answered.missed hm).1 haction

end Runs

/-! ### One update -/

/-- A device and no action; the box says `done` to everything. -/
def oneDevice : State where
  db := .load [⟨.device, { tenantId := 1, firmwareVersion := none, credentials := true }⟩]
  advisory := none
  queued _ := 0
  answers _ _ := .ok (.obj [("status", .str "done")])
  calls := []
  handed := []
  wrote := []
  missed := false

theorem oneDevice_fresh : oneDevice.Fresh where
  idle := Db.idle_load _
  action := rfl
  advisory := rfl
  queued _ := rfl
  calls := rfl
  handed := rfl
  wrote := rfl
  missed := rfl

theorem known_update (text : String) : Kind.firmwareUpdate ≠ .unknown text := by
  intro h
  cases h

def update : FirmwareActionIn where
  kind := .firmwareUpdate
  target := ""
  scheduledAt := none
  known := known_update

/-- Sessions 1 and 3 are jobs, session 2 is the sweeper. -/
def sessions : Nat → Option Role
  | 0 => some (.job .original 100 10)
  | 1 => some (.sweep 50 3)
  | 2 => some (.job .reEnqueued 200 10)
  | _ => none

def updating : Running := start oneDevice 1 update 0 sessions

def steps : List (Nat × Nat) → List Transactions.Event
  | [] => []
  | (i, n) :: rest => List.replicate n (.run i) ++ steps rest

def inTurn : List Transactions.Event := steps [(0, 5), (1, 17)]

def tooEarly : List Transactions.Event := steps [(0, 3), (1, 2), (0, 1)]

def cutOff : List Transactions.Event := steps [(0, 4), (1, 6)] ++ .stop 1 :: steps [(2, 6), (3, 6)]

/-- The sweeper queues another job while the first one waits in the queue; one loads the
action, and the other carries it out before the lock is asked for. -/
def overtaken : List Transactions.Event := steps [(0, 4), (2, 6), (3, 2), (1, 15), (3, 4)]

/-- One after the other, the action runs once. -/
theorem action_runs_once_inTurn : ∃ p', runAll step updating inTurn = some p' ∧
    (∀ x ∈ p'.world.calls, ∀ y ∈ p'.world.calls, x.1 = y.1) ∧
    (update.kind ≠ .firmwareUpgrade →
      (p'.world.calls.filter fun x => x.2.isOperation).length ≤ 1) ∧
    (p'.world.action ≠ none → p'.world.missed = false) :=
  ⟨_, rfl, action_runs_once 1 update 0 sessions oneDevice_fresh
    (show Along step Orderly updating inTurn by decide) rfl⟩

def operations (p : Running) : List (Nat × Call) := p.world.calls.filter fun x => x.2.isOperation

/-- **A job finds no row for an action whose request is accepted, and an action is carried out
by two jobs**, after the first was cut off, or though none was. -/
theorem action_runs_twice :
    (∃ p', runAll step updating tooEarly = some p' ∧ p'.world.action.isSome = true ∧
      p'.world.missed = true) ∧
    (∃ p', runAll step updating cutOff = some p' ∧
      operations p' = [(1, .firmwareUpdate), (3, .firmwareUpdate)]) ∧
    ∃ p', runAll step updating overtaken = some p' ∧
      operations p' = [(1, .firmwareUpdate), (3, .firmwareUpdate)] :=
  ⟨⟨_, rfl, by decide, by decide⟩, ⟨_, rfl, by decide⟩, ⟨_, rfl, by decide⟩⟩

end FirmwareActions

end Opngms
