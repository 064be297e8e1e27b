/-
Opngms/FalseConflict.lean

When a change is marked `conflict` although nobody else touched the box.

The baseline of a change is the hash of the newest stored snapshot, not of the
configuration at the time of the proposal.  An apply stores the configuration
from *before* the push as the newest snapshot, and the backup that brings the
baseline up to date is a separate job: a change or a revert created in between
is proposed against a configuration that is already gone, and will be marked
`conflict`.  The run below does exactly that.

Under the condition that a change is inserted with the hash of the
configuration its device then has (or with none), a conflict is a true one:
**`conflict_has_cause`** finds the mutating request of another change, sent to
the same device after the change was created.
-/
import Opngms.Proposals
import Opngms.ApplyOnce

namespace Opngms

variable {Box : Type}

/-! ### The box and its only writer -/

/-- What is assumed of a box that nobody else edits: a backup answers its
configuration, and only mutating requests change it. -/
structure SoleWriter (B : BoxModel Box) (config : Box → String) : Prop where
  backup : ∀ b xml, (B.backup b).1 = .ok xml → xml = config b
  backup_keeps : ∀ b, config (B.backup b).2 = config b
  search_keeps : ∀ b r, r.mutating = false → config (B.respond b r).2 = config b

/-- After the creation of `c`, a mutating request that satisfies `P` was sent
to the device. -/
def SentSince (log : List LogEntry) (c : ChangeId) (device : DeviceId)
    (P : Option ChangeId → Prop) : Prop :=
  ∃ l₁ l₂ p r, log = l₁ ++ .created c :: l₂ ∧ .sent device p r ∈ l₂ ∧ r.mutating = true ∧ P p

/-- The proposal was created, and the text, if it is not what the baseline
says, is what some request since then has left. -/
def Tracks (env : Env) (log : List LogEntry) (c : ChangeId) (p : Proposal) (text : String) :
    Prop :=
  LogEntry.created c ∈ log ∧
    (p.baselineHash = "" ∨ env.canonicalHash text = some p.baselineHash ∨
      SentSince log c p.deviceId fun _ => True)

theorem SentSince.append {log : List LogEntry} {c : ChangeId} {device : DeviceId}
    {P : Option ChangeId → Prop} (h : SentSince log c device P) (l : List LogEntry) :
    SentSince (log ++ l) c device P := by
  obtain ⟨l₁, l₂, p, r, rfl, hm, hr, hp⟩ := h
  exact ⟨l₁, l₂ ++ l, p, r, by simp, List.mem_append_left l hm, hr, hp⟩

theorem Tracks.append {env : Env} {log : List LogEntry} {c : ChangeId} {p : Proposal}
    {text : String} (h : Tracks env log c p text) (l : List LogEntry) :
    Tracks env (log ++ l) c p text :=
  ⟨List.mem_append_left l h.1, h.2.imp id (Or.imp id fun hs => hs.append l)⟩

/-! ### What an event does to the log and to the boxes -/

section Steps

variable {B : BoxModel Box} {config : Box → String} {w w' : World Box} {i : Nat} {q : Eff}
  {a : q.Ans}

theorem answer_config (hB : SoleWriter B config) (h : w.answer B i q = some (a, w'))
    (device : DeviceId) :
    config (w'.boxes device) = config (w.boxes device) ∨
      ∃ r, r.mutating = true ∧ w.logged i q = [.sent device (w.sessions i).pushing r] := by
  cases q with
  | tryAdvisoryLock key =>
    simp only [World.answer] at h
    split at h <;> (obtain ⟨-, rfl⟩ := Prod.mk.inj (Option.some.inj h); exact .inl rfl)
  | flushChange row =>
    simp only [World.answer] at h
    split at h
    · obtain ⟨-, rfl⟩ := Prod.mk.inj (Option.some.inj h)
      exact .inl rfl
    · cases h
  | getConfigBackup d =>
    obtain ⟨-, rfl⟩ := Prod.mk.inj (Option.some.inj h)
    left
    by_cases hd : device = d
    · subst hd
      simp [hB.backup_keeps]
    · simp [Function.update_of_ne hd]
  | request d r =>
    obtain ⟨-, rfl⟩ := Prod.mk.inj (Option.some.inj h)
    by_cases hd : device = d
    · subst hd
      cases hr : r.mutating with
      | true => exact .inr ⟨r, hr, rfl⟩
      | false =>
        left
        simp [hB.search_keeps _ r hr]
    · exact .inl (by simp [Function.update_of_ne hd])
  | _ =>
    obtain ⟨-, rfl⟩ := Prod.mk.inj (Option.some.inj h)
    exact .inl rfl

theorem Tracks.serve {env : Env} {c : ChangeId} {p : Proposal} (hB : SoleWriter B config)
    (h : Tracks env w.log c p (config (w.boxes p.deviceId)))
    (hw : w.answer B i q = some (a, w')) :
    Tracks env w'.log c p (config (w'.boxes p.deviceId)) := by
  rw [(answer_frame hw).log]
  rcases answer_config hB hw p.deviceId with hsame | ⟨r, hr, hlog⟩
  · rw [hsame]
    exact h.append _
  · obtain ⟨l₁, l₂, hl⟩ := List.append_of_mem h.1
    refine ⟨List.mem_append_left _ h.1, .inr (.inr ?_)⟩
    rw [hlog]
    refine ⟨l₁, l₂ ++ [.sent p.deviceId (w.sessions i).pushing r], (w.sessions i).pushing, r, ?_, ?_,
      hr, trivial⟩
    · rw [hl]
      simp
    · exact List.mem_append_right l₂ (List.mem_singleton.mpr rfl)

end Steps

/-! ### The invariant -/

/-- The request was sent in a push of a change other than `c`. -/
def ByOther (c : ChangeId) (sender : Option ChangeId) : Prop := ∃ x, sender = some x ∧ x ≠ c

/-- What holds of a session: its pushes are logged, a configuration it read is
tracked, and a conflict that it has written has its cause. -/
structure SessionTracks (env : Env) (log : List LogEntry) (c : ChangeId) (p : Proposal)
    (s : Session) : Prop where
  pushing : ∀ x, s.pushing = some x → LogEntry.pushed x ∈ log
  reads : ∀ xml, s.read = some (p.deviceId, xml) → s.loaded c ≠ none → Tracks env log c p xml
  dirty : ∀ row, s.dirty c = some row → row.status = .conflict →
    SentSince log c p.deviceId (ByOther c)

/-- What holds of the change `c` with the proposal `p`: its baseline is that
of its device as far as no request was sent since, and where it is stored as a
conflict, another change was pushed to its device before. -/
structure ConflictInv (env : Env) (devices : DeviceId → Option Device) (config : Box → String)
    (c : ChangeId) (p : Proposal) (sys : Sys Box) : Prop where
  proposal : ProposalInv env devices (fun _ => True)
    (fun id p' => id = c →
      p' = p ∧ Tracks env sys.world.log c p (config (sys.world.boxes p.deviceId))) sys
  once : OnceInv c sys
  sent : ∀ device sender r, .sent device sender r ∈ sys.world.log →
    ∃ x, sender = some x ∧ .pushed x ∈ sys.world.log
  sessions : ∀ i, SessionTracks env sys.world.log c p (sys.world.sessions i)
  committed : ∀ row, sys.world.changes c = some row → row.status = .conflict →
    SentSince sys.world.log c p.deviceId (ByOther c)

section Invariant

variable {env : Env} {devices : DeviceId → Option Device} {config : Box → String} {c : ChangeId}
  {p : Proposal} {B : BoxModel Box} {sys sys' : Sys Box} {e : Event} {s : Session}
  {log : List LogEntry}

theorem SessionTracks.append (h : SessionTracks env log c p s) (l : List LogEntry) :
    SessionTracks env (log ++ l) c p s where
  pushing x hx := List.mem_append_left l (h.pushing x hx)
  reads xml hr hl := (h.reads xml hr hl).append l
  dirty row hd hs := (h.dirty row hd hs).append l

theorem SessionTracks.of_clean (hp : s.pushing = none) (hr : s.read = none)
    (hd : s.dirty c = none) : SessionTracks env log c p s where
  pushing x hx := by
    rw [hp] at hx
    cases hx
  reads xml h := by
    rw [hr] at h
    cases h
  dirty row h := by
    rw [hd] at h
    cases h

theorem ConflictInv.never_pushed (h : ConflictInv env devices config c p sys) {i : Nat}
    {row : Change} {k : Unit → Program Unit} (ht : sys.threads i = some (.ask (.flushChange row) k))
    (hid : row.id = c) (hlock : sys.world.rowLock c = none ∨ sys.world.rowLock c = some i)
    (hfresh : FreshRow c sys.world i row) (hnot : (sys.world.sessions i).pushing = none) :
    LogEntry.pushed c ∉ sys.world.log := by
  rcases h.once.once with h0 | ⟨-, ⟨st, hst, hterm⟩ | ⟨j, hj⟩⟩
  · exact List.count_eq_zero.mp h0
  · -- the loaded status is open and committed, so it is not terminal
    exfalso
    have hmay := (h.once.follows i _ ht).1 hid
    have hload : ((sys.world.sessions i).loaded c).map Change.status = some st :=
      (hfresh hid).trans hst
    obtain ⟨old, hold, rfl⟩ := Option.map_eq_some_iff.mp hload
    rcases hmay with ⟨old', hold', hopen⟩ | ⟨hnone, -⟩
    · have he : some old' = some old := hold'.symm.trans hold
      obtain rfl := Option.some.inj he
      rcases hopen with ho | ho <;> rw [ho] at hterm <;> cases hterm
    · have hnone : (sys.world.sessions i).loaded c = none := hnone
      rw [hold] at hnone
      cases hnone
  · -- the pusher holds the row, so it is this session, which pushes nothing
    exfalso
    have hji : j = i := by
      by_contra hne
      exact (h.once.rows.sessions j).pushing hj (h.once.rows.clean_of_lock hlock hne)
    rw [hji, hnot] at hj
    cases hj

/-- The cause of a conflict that is being written: what the session read is
not what the baseline says, so a request was sent since the creation, and it
was not this change that sent it. -/
theorem ConflictInv.cause (h : ConflictInv env devices config c p sys) {i : Nat} {row : Change}
    {k : Unit → Program Unit} (ht : sys.threads i = some (.ask (.flushChange row) k))
    (hid : row.id = c) (hst : row.status = .conflict)
    (hlock : sys.world.rowLock c = none ∨ sys.world.rowLock c = some i)
    (hfresh : FreshRow c sys.world i row) :
    SentSince sys.world.log c p.deviceId (ByOther c) := by
  obtain ⟨⟨old, hseen, hprop⟩, hstale⟩ := (h.proposal.follows i _ ht).1
  obtain ⟨hnot, hload, xml, current, hread, hhash, hbase, hne⟩ := hstale hst
  have hrow : row.proposal = p := by
    have hold := ((h.proposal.rows.sessions i).seen hseen).2.1 hid
    exact hprop.trans hold.1
  have hdev : row.deviceId = p.deviceId := congrArg Proposal.deviceId hrow
  have hbl : row.baselineHash = p.baselineHash := congrArg Proposal.baselineHash hrow
  have hread : (sys.world.sessions i).read = some (p.deviceId, xml) := by
    rw [← hdev]
    exact hread
  have hload : (sys.world.sessions i).loaded c ≠ none := by
    rw [← hid]
    exact hload
  obtain ⟨-, htr⟩ := (h.sessions i).reads xml hread hload
  have hnever := h.never_pushed ht hid hlock hfresh hnot
  rcases htr with hb | hb | ⟨l₁, l₂, sender, r, hlog, hm, hr, -⟩
  · exact absurd (hbl.trans hb) hbase
  · rw [hhash] at hb
    exact absurd ((Option.some.inj hb).trans hbl.symm) hne
  · refine ⟨l₁, l₂, sender, r, hlog, hm, hr, ?_⟩
    obtain ⟨x, hx, hpushed⟩ := h.sent p.deviceId sender r (by
      rw [hlog]
      exact List.mem_append_right l₁ (List.mem_cons_of_mem _ hm))
    exact ⟨x, hx, fun hxc => hnever (hxc ▸ hpushed)⟩

/-- The session that an effect belongs to stays in order. -/
theorem ConflictInv.session_serve (h : ConflictInv env devices config c p sys)
    (hB : SoleWriter B config) {i : Nat} {q : Eff} {k : q.Ans → Program Unit} {a : q.Ans}
    {w : World Box} (ht : sys.threads i = some (.ask q k))
    (hw : sys.world.answer B i q = some (a, w)) (hfresh : FreshWrite c sys (.run i)) :
    SessionTracks env w.log c p ((sys.world.sessions i).after q a) := by
  have hlog := (answer_frame hw).log
  rw [hlog]
  have hi := h.sessions i
  have hi' := hi.append (sys.world.logged i q)
  have hallow := (h.proposal.follows i _ ht).1
  cases q with
  | getChange id =>
    -- a session loads before it reads
    refine ⟨hi'.pushing, fun xml hr _ => ?_, hi'.dirty⟩
    obtain ⟨-, -, hnone⟩ := hallow
    have hr : (sys.world.sessions i).read = some (p.deviceId, xml) := hr
    rw [show (sys.world.sessions i).read = none from hnone] at hr
    cases hr
  | insertChange row =>
    refine ⟨hi'.pushing, hi'.reads, fun row' hd hs => ?_⟩
    obtain ⟨rfl, -⟩ := Prod.mk.inj (Option.some.inj hw)
    by_cases hc : c = sys.world.nextChange
    · -- the new row is a draft
      have hd : row'.status = .draft := by
        have hd : Function.update (sys.world.sessions i).dirty sys.world.nextChange
            (some { row with
              id := sys.world.nextChange, createdAt := (sys.world.sessions i).began }) c =
            some row' := hd
        rw [hc, Function.update_self] at hd
        obtain rfl := Option.some.inj hd
        exact hallow.2
      rw [hd] at hs
      cases hs
    · have hd : (sys.world.sessions i).dirty c = some row' := by
        simpa [Session.after, Function.update_of_ne hc] using hd
      exact hi'.dirty row' hd hs
  | flushChange row =>
    refine ⟨hi'.pushing, hi'.reads, fun row' hd hs => ?_⟩
    by_cases hc : row.id = c
    · obtain rfl : row = row' := by simpa [Session.after, hc] using hd
      simp only [World.answer] at hw
      split at hw
      · rename_i hlock
        exact (h.cause ht hc hs (hc ▸ hlock)
          (hfresh (i, row) (by simp [Sys.writing, ht]))).append _
      · cases hw
    · have hd : (sys.world.sessions i).dirty c = some row' := by
        simpa [Session.after, Function.update_of_ne (Ne.symm hc)] using hd
      exact hi'.dirty row' hd hs
  | beginPush id =>
    refine ⟨fun x hx => ?_, hi'.reads, hi'.dirty⟩
    obtain rfl : id = x := Option.some.inj hx
    exact List.mem_append_right _ (List.mem_singleton.mpr rfl)
  | getConfigBackup device =>
    refine ⟨hi'.pushing, fun xml hr hl => ?_, hi'.dirty⟩
    obtain ⟨ha, -⟩ := Prod.mk.inj (Option.some.inj hw)
    cases a with
    | error x => exact hi'.reads xml hr hl
    | ok xml' =>
      have hr : some (device, xml') = some (p.deviceId, xml) := hr
      obtain ⟨rfl, rfl⟩ := Prod.mk.inj (Option.some.inj hr)
      obtain ⟨old, hold⟩ := Option.ne_none_iff_exists'.mp hl
      have hxml := hB.backup _ _ ha
      obtain ⟨-, htr⟩ := ((h.proposal.rows.sessions i).loaded c old hold).2 rfl
      rw [hxml]
      exact htr.append _
  | commit =>
    refine ⟨fun x hx => ?_, hi'.reads, fun row hd => ?_⟩
    · cases hx
    · cases hd
  | closeSession => exact .of_clean rfl rfl rfl
  | _ => exact ⟨hi'.pushing, hi'.reads, hi'.dirty⟩

theorem commit_status {w : World Box} {i : Nat} {row : Change}
    (h : (w.commit i).changes c = some row) :
    (∃ new, (w.sessions i).dirty c = some new ∧ row.status = new.status) ∨
      ∃ base, w.changes c = some base ∧ row.status = base.status := by
  have h : World.mergeRow ((w.sessions i).loaded c) ((w.sessions i).dirty c) (w.changes c) =
      some row := h
  rcases hd : (w.sessions i).dirty c with - | new
  · rw [hd] at h
    exact .inr ⟨row, h, rfl⟩
  · rw [hd] at h
    rcases hl : (w.sessions i).loaded c with - | old <;> rcases hb : w.changes c with - | base <;>
      rw [hl, hb] at h <;> obtain rfl := Option.some.inj h
    · exact .inl ⟨_, rfl, rfl⟩
    · exact .inl ⟨_, rfl, rfl⟩
    · exact .inl ⟨_, rfl, rfl⟩
    · by_cases he : new.status = old.status
      · exact .inr ⟨base, rfl, by simp [Change.patch, overwrite, he]⟩
      · exact .inl ⟨new, rfl, by simp [Change.patch, overwrite, he]⟩

/-- If the event inserts the change `c`, its baseline is empty or the hash of
the configuration that its device has now. -/
def FreshBaseline (env : Env) (config : Box → String) (c : ChangeId) (sys : Sys Box) (e : Event) :
    Prop :=
  ∀ row ∈ sys.inserting e, sys.world.nextChange = c → row.baselineHash = "" ∨
    env.canonicalHash (config (sys.world.boxes row.deviceId)) = some row.baselineHash

theorem inserting_log (hstep : sys.step env B e = some sys') {row : Change}
    (hrow : row ∈ sys.inserting e) :
    sys'.world.log = sys.world.log ++ [.created sys.world.nextChange] ∧
      sys'.world.boxes = sys.world.boxes := by
  cases e with
  | run i =>
    simp only [Sys.inserting] at hrow
    split at hrow
    · rename_i row' k ht
      rcases Pool.advance_cases hstep with ⟨t, ht', hend, -⟩ | ⟨q, k', a, w, ht', hs, rfl⟩
      · rw [ht] at ht'
        obtain rfl := Option.some.inj ht'
        rcases hend with hend | ⟨x, hend⟩ <;> cases hend
      · rw [ht] at ht'
        cases ht'
        obtain ⟨-, rfl⟩ := Prod.mk.inj (Option.some.inj hs)
        exact ⟨rfl, rfl⟩
    · cases hrow
  | _ => cases hrow

theorem Tracks.step (hB : SoleWriter B config) (hstep : sys.step env B e = some sys')
    (h : Tracks env sys.world.log c p (config (sys.world.boxes p.deviceId))) :
    Tracks env sys'.world.log c p (config (sys'.world.boxes p.deviceId)) := by
  cases Sys.step_moves hstep with
  | opened => exact h
  | ended => exact h
  | served ht hw =>
    have hnext := Tracks.serve hB h hw
    exact hnext
  | passed => exact h

theorem ConflictInv.step (h : ConflictInv env devices config c p sys) (hB : SoleWriter B config)
    (hbase : FreshBaseline env config c sys e)
    (hp : ∀ row ∈ sys.inserting e, sys.world.nextChange = c → row.proposal = p)
    (hfresh : FreshWrite c sys e) (hsurvive : PushSurvives c sys e)
    (hstep : sys.step env B e = some sys') : ConflictInv env devices config c p sys' where
  proposal := by
    have hmono : RowsGood (fun id p' => id = c → p' = p ∧
        Tracks env sys'.world.log c p (config (sys'.world.boxes p.deviceId))) sys.world :=
      h.proposal.rows.mono fun id p' hg hid => ⟨(hg hid).1, (hg hid).2.step hB hstep⟩
    refine ProposalInv.step { h.proposal with rows := hmono } (fun _ _ _ => trivial)
      (fun _ _ _ _ _ _ _ _ => trivial) (fun j call _ => ?_) (fun row hrow hc => ?_) hstep
    · cases call with
      | createConfigChange => exact fun _ _ _ _ _ => trivial
      | createCatalogChange => exact fun _ _ _ _ _ _ _ _ _ => trivial
      | _ => trivial
    · obtain ⟨hlog, hboxes⟩ := inserting_log hstep hrow
      have hrp := hp row hrow hc
      refine ⟨hrp, ?_, ?_⟩
      · rw [hlog, hc]
        exact List.mem_append_right _ (List.mem_singleton.mpr rfl)
      · rw [hboxes, ← hrp]
        exact (hbase row hrow hc).imp id .inl
  once := h.once.step hfresh hsurvive hstep
  sent := by
    cases Sys.step_moves hstep with
    | opened => exact h.sent
    | ended => exact h.sent
    | passed => exact h.sent
    | @served i q k a w ht hw =>
      intro device sender r hm
      have hm : LogEntry.sent device sender r ∈ w.log := hm
      show ∃ x, sender = some x ∧ .pushed x ∈ w.log
      rw [(answer_frame hw).log] at hm ⊢
      rcases List.mem_append.mp hm with hm | hm
      · obtain ⟨x, hx, hpushed⟩ := h.sent device sender r hm
        exact ⟨x, hx, List.mem_append_left _ hpushed⟩
      · -- a request is made only in a push, and that is logged
        cases q with
        | request d r' =>
          obtain ⟨rfl, rfl, rfl⟩ := LogEntry.sent.inj (List.mem_singleton.mp hm)
          obtain ⟨x, hx⟩ := Option.ne_none_iff_exists'.mp (h.proposal.follows i _ ht).1
          exact ⟨x, hx, List.mem_append_left _ ((h.sessions i).pushing x hx)⟩
        | insertChange => cases List.mem_singleton.mp hm
        | beginPush => cases List.mem_singleton.mp hm
        | _ => cases hm
  sessions j := by
    cases Sys.step_moves hstep with
    | opened =>
      exact (Function.forall_update_iff sys.world.sessions
        fun _ s => SessionTracks env sys.world.log c p s).mpr
          ⟨.of_clean rfl rfl rfl, fun j _ => h.sessions j⟩ j
    | ended =>
      exact (Function.forall_update_iff sys.world.sessions
        fun _ s => SessionTracks env sys.world.log c p s).mpr
          ⟨.of_clean rfl rfl rfl, fun j _ => h.sessions j⟩ j
    | passed => exact h.sessions j
    | @served i q k a w ht hw =>
      show SessionTracks env w.log c p (Function.update w.sessions i _ j)
      by_cases hj : j = i
      · rw [hj, Function.update_self]
        exact h.session_serve hB ht hw hfresh
      · rw [Function.update_of_ne hj, World.answer_sessions hw, (answer_frame hw).log]
        exact (h.sessions j).append _
  committed := by
    cases Sys.step_moves hstep with
    | opened => exact h.committed
    | ended => exact h.committed
    | passed => exact h.committed
    | @served i q k a w ht hw =>
      intro row hrow hst
      have hrow : w.changes c = some row := hrow
      show SentSince w.log c p.deviceId (ByOther c)
      rw [(answer_frame hw).log]
      by_cases hq : q = .commit
      · subst hq
        obtain ⟨-, rfl⟩ := Prod.mk.inj (Option.some.inj hw)
        rcases commit_status hrow with ⟨new, hnew, he⟩ | ⟨base, hbase, he⟩
        · exact ((h.sessions i).dirty new hnew (he.symm.trans hst)).append _
        · exact (h.committed base hbase (he.symm.trans hst)).append _
      · rw [(answer_frame hw).changes hq] at hrow
        exact (h.committed row hrow hst).append _

theorem ConflictInv.repropose (h : ConflictInv env devices config c p sys)
    (hc : sys.world.nextChange ≤ c) (p' : Proposal) :
    ConflictInv env devices config c p' sys where
  proposal :=
    { h.proposal with
      rows :=
        { committed := fun id r hr => ⟨(h.proposal.rows.committed id r hr).1, fun hid => by
            rw [hid, h.proposal.rows.unused c hc] at hr
            cases hr⟩
          unused := h.proposal.rows.unused
          sessions := fun i =>
            { loaded := fun id r hr => ⟨((h.proposal.rows.sessions i).loaded id r hr).1, fun hid => by
                rw [hid, ((h.proposal.rows.sessions i).unused c hc).1] at hr
                cases hr⟩
              dirty := fun id r hr => by
                obtain ⟨hid, -, hsame⟩ := (h.proposal.rows.sessions i).dirty id r hr
                refine ⟨hid, fun he => ?_, hsame⟩
                rw [he, ((h.proposal.rows.sessions i).unused c hc).2] at hr
                cases hr
              unused := (h.proposal.rows.sessions i).unused } } }
  once := h.once
  sent := h.sent
  sessions i :=
    { pushing := (h.sessions i).pushing
      reads := fun xml _ hl => absurd ((h.proposal.rows.sessions i).unused c hc).1 hl
      dirty := fun row hd => by
        rw [((h.proposal.rows.sessions i).unused c hc).2] at hd
        cases hd }
  committed row hrow := by
    rw [h.proposal.rows.unused c hc] at hrow
    cases hrow

theorem AtRest.conflictInv (h : AtRest (fun _ => True) sys) (hlog : sys.world.log = [])
    (hc : sys.world.nextChange ≤ c) : ConflictInv env sys.world.devices config c p sys where
  proposal :=
    { h.proposalInv with
      rows :=
        { committed := fun id r hr => ⟨(h.rows id r hr).1, fun hid => by
            rw [hid, h.unused c hc] at hr
            cases hr⟩
          unused := h.unused
          sessions := fun i => by
            rw [h.sessions i]
            exact .of_clean (fun _ => rfl) fun _ => rfl } }
  once :=
    { rows :=
        { ids := fun id r hr => (h.rows id r hr).1
          unused := h.unused c
          queue := fun job hjob => by
            have hsingle := h.queue job hjob
            cases hj : job.1 with
            | applyProfileChanges ids =>
              rw [hj] at hsingle
              exact absurd hsingle id
            | _ => trivial
          sessions := fun i => by
            rw [h.sessions i]
            exact .of_clean (fun _ => rfl) (fun _ => rfl) (by simp) }
      follows := fun i t ht => by
        rw [h.threads i] at ht
        cases ht
      idle := fun i _ => by rw [h.sessions i]
      once := .inl (by rw [hlog, List.count_nil]) }
  sent device sender r hm := by
    rw [hlog] at hm
    cases hm
  sessions i := by
    rw [h.sessions i]
    exact .of_clean rfl rfl rfl
  committed row hrow := by
    rw [h.unused c hc] at hrow
    cases hrow

/-- **A conflict has a cause.**  Where a box has no other writer, in every run
in which the change is created with the hash of the configuration its device
then has (or with none), its writes find the status they were decided on and
no session dies in its push: if the change is stored as a conflict, another
change has sent a mutating request to its device since it was created. -/
theorem conflict_has_cause (env : Env) (B : BoxModel Box) (config : Box → String)
    (hB : SoleWriter B config) (c : ChangeId) {init last : Sys Box} {es : List Event}
    (h₀ : AtRest (fun _ => True) init) (hlog : init.world.log = [])
    (hc : init.world.nextChange ≤ c)
    (hrun : runAll (Sys.step env B) init es = some last)
    (hcond : Along (Sys.step env B) (fun s e =>
      FreshBaseline env config c s e ∧ FreshWrite c s e ∧ PushSurvives c s e) init es)
    {row : Change} (hrow : last.world.changes c = some row) (hst : row.status = .conflict) :
    SentSince last.world.log c row.deviceId (ByOther c) := by
  have hinv : ∃ p, ConflictInv env init.world.devices config c p last := by
    refine runAll_invariant (P := fun s => ∃ p, ConflictInv env init.world.devices config c p s)
      (fun s e s' h hG hs => ?_) ⟨⟨0, 0, "", "", "", [], ""⟩, h₀.conflictInv hlog hc⟩ hcond hrun
    obtain ⟨p, hp⟩ := h
    obtain ⟨hbase, hfresh, hsurvive⟩ := hG
    by_cases hins : ∃ r ∈ s.inserting e, s.world.nextChange = c
    · -- the change is created now, with the proposal that is inserted
      obtain ⟨r, hr, hnext⟩ := hins
      refine ⟨r.proposal, (hp.repropose (Nat.le_of_eq hnext) r.proposal).step hB hbase ?_ hfresh
        hsurvive hs⟩
      intro r' hr' _
      rw [Option.mem_unique hr' hr]
    · refine ⟨p, hp.step hB hbase (fun r hr hnext => ?_) hfresh hsurvive hs⟩
      exact absurd ⟨r, hr, hnext⟩ hins
  obtain ⟨p, hp⟩ := hinv
  obtain ⟨-, hgood⟩ := hp.proposal.rows.committed c row hrow
  have hdev : row.deviceId = p.deviceId := congrArg Proposal.deviceId (hgood rfl).1
  rw [hdev]
  exact hp.committed row hrow hst

instance (c : ChangeId) : Decidable (FreshBaseline env config c sys e) :=
  inferInstanceAs (Decidable (∀ row ∈ sys.inserting e, _ → _))

end Invariant

/-! ### A revert against the snapshot from before the push -/

theorem not_sentSince_of_last {l : List LogEntry} {c : ChangeId} (h : .created c ∉ l)
    (device : DeviceId) (P : Option ChangeId → Prop) :
    ¬ SentSince (l ++ [.created c]) c device P := by
  rintro ⟨l₁, l₂, p, r, hl, hm, -, -⟩
  rcases List.eq_nil_or_concat l₂ with rfl | ⟨l₂, x, rfl⟩
  · cases hm
  · have hl : l ++ [.created c] = (l₁ ++ .created c :: l₂) ++ [x] := by simpa using hl
    have hleft : l = l₁ ++ .created c :: l₂ := (List.append_inj' hl rfl).1
    exact h (by simp [hleft])

/-- The configuration of `webBox`. -/
def webConfig (present : Bool) : String :=
  if present then "<opnsense><alias>web</alias></opnsense>" else "<opnsense/>"

theorem webBox_soleWriter : SoleWriter webBox webConfig where
  backup b xml h := (Except.ok.inj h).symm
  backup_keeps _ := rfl
  search_keeps b r h := by
    cases r <;> first | rfl | cases h

/-- The alias is added; the addition is reverted before the backup job runs. -/
def revertedAtOnce : List Event :=
  .call 1 (.createConfigChange 0 1
    { kind := "alias", operation := "add", target := "web"
      payload := [("name", .str "web"), ("type", .str "host")] }) :: steps 1 5 ++
  .call 2 (.scheduleConfigChange 0 1 1 none) :: steps 2 5 ++
  .dequeue 3 0 :: steps 3 16 ++
  .call 4 (.revertConfigChange 0 1 1 none) :: steps 4 9 ++
  .dequeue 5 1 :: steps 5 9

/-- The revert is marked `conflict`, and nothing was sent to the device since
it was created. -/
theorem revertedAtOnce_conflict :
    ∃ last row, runAll (Sys.step webEnv webBox) (resting [] [] false) revertedAtOnce = some last ∧
      last.world.changes 2 = some row ∧ row.status = .conflict ∧
      ¬ SentSince last.world.log 2 row.deviceId fun _ => True := by
  have hrun : (runAll (Sys.step webEnv webBox) (resting [] [] false) revertedAtOnce).map
      (fun s => (s.world.status 2, s.world.log.getLast?,
        decide (LogEntry.created 2 ∉ s.world.log.dropLast))) =
      some (some .conflict, some (.created 2), true) := by
    decide +kernel
  obtain ⟨last, hrun, hend⟩ := Option.map_eq_some_iff.mp hrun
  obtain ⟨hst, hend⟩ := Prod.mk.inj hend
  obtain ⟨hlast, hnot⟩ := Prod.mk.inj hend
  obtain ⟨row, hrow, hconf⟩ := Option.map_eq_some_iff.mp hst
  refine ⟨last, row, hrun, hrow, hconf, ?_⟩
  rw [← List.dropLast_append_getLast? _ hlast]
  exact not_sentSince_of_last (of_decide_eq_true hnot) _ _

def proposedTogether : List Event :=
  .call 1 (.createConfigChange 0 1
    { kind := "alias", operation := "add", target := "web"
      payload := [("name", .str "web"), ("type", .str "host")] }) :: steps 1 5 ++
  .call 2 (.createConfigChange 0 1
    { kind := "alias", operation := "add", target := "mail"
      payload := [("name", .str "mail"), ("type", .str "host")] }) :: steps 2 5 ++
  .call 3 (.scheduleConfigChange 0 1 1 none) :: steps 3 5 ++
  .call 4 (.scheduleConfigChange 0 1 2 none) :: steps 4 5 ++
  .dequeue 5 0 :: steps 5 16 ++ .dequeue 6 0 :: steps 6 9

/-- The snapshot of the first configuration of `webBox`. -/
def webSnapshot : Snapshot where
  id := 0
  tenantId := 0
  deviceId := 1
  takenAt := 0
  canonicalHash := "095c6c6552b486ae9786f2683d1e71230128c6bb275d87ea7ed6d1442f856482"
  contentEnc := "<opnsense/>".toUTF8
  opnsenseVersion := ""
  sizeBytes := 11

/-- The second one conflicts with the first. -/
theorem proposedTogether_conflict :
    ∃ last row, runAll (Sys.step webEnv webBox) (resting [] [webSnapshot] false)
        proposedTogether = some last ∧
      last.world.changes 2 = some row ∧ row.status = .conflict ∧
      SentSince last.world.log 2 row.deviceId (ByOther 2) := by
  have hrun : (runAll (Sys.step webEnv webBox) (resting [] [webSnapshot] false)
      proposedTogether).map (fun s => s.world.status 2) = some (some .conflict) := by
    decide +kernel
  obtain ⟨last, hrun, hst⟩ := Option.map_eq_some_iff.mp hrun
  obtain ⟨row, hrow, hconf⟩ := Option.map_eq_some_iff.mp hst
  have h₀ : AtRest (fun _ => True) (resting [] [webSnapshot] false) := by
    refine ⟨fun _ => rfl, fun _ => rfl, fun id r h => ?_, fun _ _ => rfl, fun job h => ?_⟩
    · cases h
    · cases h
  exact ⟨last, row, hrun, hrow, hconf, conflict_has_cause webEnv webBox webConfig
    webBox_soleWriter 2 h₀ rfl (by decide) hrun (by decide +kernel) hrow hconf⟩

end Opngms
