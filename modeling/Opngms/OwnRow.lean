/-
Opngms/OwnRow.lean

How every program of the system treats one row of `config_changes`.

The phase of a session with respect to the change `c` is what it loaded for
`c`, what it has written to it, and whether it is in the middle of pushing it.
`ownRow c` is the discipline: a session writes `c` only if it loaded it as a
draft or as scheduled (or inserted it itself), pushes it only after writing
it, at most once, and commits a push only together with a terminal status.
Every handler, every job and the sweeper follows it (`follows_opens`).  What
the discipline does not say is that the loaded status is still the committed
one when the row is written: the code does not check that.
-/
import Opngms.Moves

namespace Opngms

open Dialogue

/-! ### The discipline -/

/-- What a session has to do with the change `c`. -/
structure RowPhase where
  loaded : Option Change := none
  dirty : Option Change := none
  pushing : Bool := false

/-- The phase of a session with respect to `c`. -/
def rowPhase (c : ChangeId) (s : Session) : RowPhase where
  loaded := s.loaded c
  dirty := s.dirty c
  pushing := s.pushing = some c

/-- The phase after an effect. -/
def RowPhase.next (c : ChangeId) (p : RowPhase) : (q : Eff) → q.Ans → RowPhase
  | .getChange id, row => if id = c then { p with loaded := row } else p
  | .insertChange _, row => if (row : Change).id = c then { p with dirty := some row } else p
  | .flushChange row, _ => if row.id = c then { p with dirty := some row } else p
  | .beginPush id, _ => { p with pushing := id = c }
  | .commit, _ => { p with dirty := none, pushing := false }
  | .closeSession, _ => {}
  | _, _ => p

theorem rowPhase_after (c : ChangeId) (s : Session) (q : Eff) (a : q.Ans) :
    rowPhase c (s.after q a) = (rowPhase c s).next c q a := by
  have hupdate : ∀ (f : ChangeId → Option Change) (id : ChangeId) (row : Option Change),
      Function.update f id row c = if id = c then row else f c := by
    intro f id row
    by_cases h : id = c
    · rw [h, Function.update_self, if_pos rfl]
    · rw [Function.update_of_ne (Ne.symm h), if_neg h]
  cases q with
  | getChange id =>
    show (⟨Function.update s.loaded id a c, s.dirty c, _⟩ : RowPhase) = ite _ _ _
    rw [hupdate]
    split <;> rfl
  | insertChange row =>
    show (⟨s.loaded c, Function.update s.dirty _ _ c, _⟩ : RowPhase) = ite _ _ _
    rw [hupdate]
    split <;> rfl
  | flushChange row =>
    show (⟨s.loaded c, Function.update s.dirty _ _ c, _⟩ : RowPhase) = ite _ _ _
    rw [hupdate]
    split <;> rfl
  | beginPush id => simp [rowPhase, Session.after, RowPhase.next]
  | commit => simp [rowPhase, Session.after, RowPhase.next]
  | closeSession => simp [rowPhase, Session.after, RowPhase.next]
  | _ => rfl

def Status.open (s : Status) : Prop := s = .draft ∨ s = .scheduled

/-- The session loaded the row in an open status, or inserted it. -/
def RowPhase.MayWrite (p : RowPhase) : Prop :=
  (∃ old, p.loaded = some old ∧ old.status.open) ∨ (p.loaded = none ∧ p.dirty ≠ none)

/-- A queued job that is not a profile job with `c` among its members. -/
def Job.spares (c : ChangeId) : Job → Prop
  | .applyProfileChanges ids => c ∉ ids
  | _ => True

/-- The discipline of every program towards the row `c`. -/
def ownRow (c : ChangeId) : Discipline Eff Eff.Ans RowPhase where
  allows p
    | .getChange id => id = c → p.loaded = none ∧ p.dirty = none
    | .flushChange row => row.id = c → p.MayWrite
    | .beginPush id => p.pushing = false ∧ (id = c → p.dirty ≠ none)
    | .commit => p.pushing = true → ∃ row, p.dirty = some row ∧ row.status.terminal = true
    | .closeSession => p.pushing = false
    | .enqueue job _ => job.spares c
    | _ => True
  admits p
    | .getChange id, row => ∀ r : Change, row = some r → r.id = id
    | .insertChange _, row => (row : Change).id = c → p.loaded = none
    | _, _ => True
  next := RowPhase.next c

/-- A program that ends normally is not in the middle of a push. -/
def endsOwn (p : RowPhase) : Except Raised Unit → Prop
  | .ok _ => p.pushing = false
  | .error _ => True

variable {c : ChangeId} {p : RowPhase} {env : Env}

@[simp] theorem next_getChange_pushing (id : ChangeId) (row : Option Change) :
    (p.next c (.getChange id) row).pushing = p.pushing := by
  show (ite _ _ _ : RowPhase).pushing = _
  split <;> rfl

@[simp] theorem next_flushChange_pushing (row : Change) :
    (p.next c (.flushChange row) ()).pushing = p.pushing := by
  show (ite _ _ _ : RowPhase).pushing = _
  split <;> rfl

@[simp] theorem next_insertChange_pushing (row row' : Change) :
    (p.next c (.insertChange row) row').pushing = p.pushing := by
  show (ite _ _ _ : RowPhase).pushing = _
  split <;> rfl

/-! ### Applying -/

theorem follows_readConfig_own (client : DeviceId) :
    Follows (ownRow c) (fun p' _ => p' = p) p (readConfig env client) := by
  refine ⟨trivial, fun r _ => ?_⟩
  cases r <;> exact rfl

theorem follows_rollbackPoint_own (live : Bool) (change : Change) (xml : String) :
    Follows (ownRow c) (fun p' _ => p' = p) p (rollbackPoint env live change xml) := by
  cases live with
  | false => exact rfl
  | true => exact ⟨trivial, fun _ _ => ⟨trivial, fun _ _ => rfl⟩⟩

theorem follows_callApplier_own {client : DeviceId} {change : Change} {live : Bool}
    (hp : p.pushing = false) (hd : change.id = c → p.dirty ≠ none) :
    Follows (ownRow c) (fun p' _ => p' = { p with pushing := live && change.id = c }) p
      (callApplier client change live) := by
  cases live with
  | false =>
    have hsame : p = { p with pushing := false } := by rw [← hp]
    refine (follows_onBox (fun _ => trivial) (fun _ _ => rfl) _).mono fun p' _ h => ?_
    rw [h]
    exact hsame
  | true =>
    refine ⟨⟨hp, hd⟩, fun _ _ => ?_⟩
    exact (follows_onBox (fun _ => trivial) (fun _ _ => rfl) _).mono fun p' _ h => by
      rw [h]
      rfl

theorem follows_applyGuarded_own {client : DeviceId} {change : Change} {live : Bool} {now : Time}
    (hp : p.pushing = false) (hd : change.id = c → p.dirty ≠ none) :
    Follows (ownRow c)
      (fun p' z => p' = { p with pushing := live && change.id = c } ∧
        ∀ row, z = .ok row → row.id = change.id ∧ row.status.terminal = true) p
      (applyGuarded client change live now) := by
  have hbody : Follows (ownRow c)
      (fun p' z => p' = { p with pushing := live && change.id = c } ∧
        ∀ row : Change, z = .ok row → row.id = change.id ∧ row.status.terminal = true) p (do
        let res ← callApplier client change live
        return { change with status := .applied, appliedAt := some now, result := res }) := by
    refine Follows.bind (follows_callApplier_own hp hd) (fun p' res h => ⟨h, ?_⟩)
      fun p' x h => ⟨h, by simp⟩
    intro row hrow
    obtain rfl := Except.ok.inj hrow
    exact ⟨rfl, rfl⟩
  refine Follows.handle hbody (fun _ _ h => h) fun p' e h => ?_
  cases applyFailure e with
  | some result =>
    refine ⟨h.1, fun row hrow => ?_⟩
    obtain rfl := Except.ok.inj hrow
    exact ⟨rfl, rfl⟩
  | none => exact ⟨h.1, by simp⟩

/-- `apply_change` on a freshly loaded row: when it returns in the middle of a
push, a terminal status is written. -/
theorem follows_applyChange_own {change : Change} {client : DeviceId} {now : Time}
    (hl : change.id = c → p.loaded = some change) (hp : p.pushing = false) :
    Follows (ownRow c)
      (fun p' z => ∀ row, z = .ok row → p'.pushing = true →
        ∃ row', p'.dirty = some row' ∧ row'.status.terminal = true) p
      (applyChange env change client now) := by
  have hidle : ∀ (p' : RowPhase), p'.pushing = false → ∀ {P : Prop}, p'.pushing = true → P := by
    intro p' h P h'
    rw [h] at h'
    cases h'
  unfold applyChange
  split
  · exact fun row _ => hidle p hp
  · rename_i hs
    have hs : change.status = .scheduled := not_not.mp hs
    have hmay : ∀ p' : RowPhase, p'.loaded = p.loaded → change.id = c → p'.MayWrite :=
      fun p' hp' hc => .inl ⟨change, by rw [hp', hl hc], .inr hs⟩
    -- one write of a row with the change's id keeps the session out of a push
    have hflush : ∀ row : Change, row.id = change.id →
        Follows (ownRow c) (fun p' z => ∀ r, z = .ok r → p'.pushing = true →
          ∃ row', p'.dirty = some row' ∧ row'.status.terminal = true) p
          (do perform (.flushChange row); return row) := by
      intro row hid
      refine ⟨fun hc => hmay p rfl (hid ▸ hc), fun _ _ r _ => hidle _ ?_⟩
      rw [← hp]
      exact next_flushChange_pushing row
    refine ⟨trivial, fun got _ => ?_⟩
    cases got with
    | false => exact fun row _ => hidle p hp
    | true =>
      show Follows _ _ _ ((readConfig env client).bind _)
      refine Follows.bind (follows_readConfig_own client) (fun p' r hr => ?_) fun _ _ _ => by simp
      obtain rfl := hr
      cases r with
      | none => exact hflush _ rfl
      | some r =>
        show Follows _ _ _ (ite _ _ _)
        split
        · exact hflush _ rfl
        · refine ⟨fun hc => hmay _ rfl hc, fun _ _ => ⟨trivial, fun row _ => ?_⟩⟩
          show Follows _ _ _ ((rollbackPoint env _ _ _).bind _)
          refine Follows.bind (follows_rollbackPoint_own _ _ _) (fun p₂ snapId h₂ => ?_)
            fun _ _ _ => by simp
          -- from here on the row, if it is `c`, is written and the push unmarked
          have hp₂ : p₂.pushing = false ∧ p₂.loaded = p'.loaded ∧ (change.id = c → p₂.dirty ≠ none) := by
            rw [h₂]
            show (ite _ _ _ : RowPhase).pushing = false ∧ (ite _ _ _ : RowPhase).loaded = _ ∧
              (_ → (ite _ _ _ : RowPhase).dirty ≠ none)
            split
            · exact ⟨hp, rfl, by simp⟩
            · rename_i hne
              exact ⟨hp, rfl, fun hc => absurd hc hne⟩
          refine Follows.bind (follows_applyGuarded_own hp₂.1 hp₂.2.2) (fun p₃ done h₃ => ?_)
            fun _ _ _ => by simp
          obtain ⟨rfl, hdone⟩ := h₃
          obtain ⟨hid, hterm⟩ := hdone done rfl
          have hid : done.id = change.id := hid
          refine follows_flushResult (by simp)
            ⟨fun hc => hmay _ hp₂.2.1 (hid ▸ hc), fun _ _ r _ hpush => ?_⟩
          by_cases hc : done.id = c
          · exact ⟨done, by simp [ownRow, RowPhase.next, hc], hterm⟩
          · simp [ownRow, RowPhase.next, hid ▸ hc, hc] at hpush

theorem follows_clientForDevice_own (device : Device) :
    Follows (ownRow c) (fun p' _ => p' = p) p (clientForDevice device) := by
  unfold clientForDevice
  split <;> exact rfl

theorem follows_applyConfigChange (id : ChangeId) :
    Follows (ownRow c) endsOwn {} (do let _ ← applyConfigChange env id) := by
  refine ⟨fun _ => ⟨rfl, rfl⟩, fun row hrow => ?_⟩
  cases row with
  | none => exact next_getChange_pushing id none
  | some change =>
    have hid : change.id = id := hrow change rfl
    subst hid
    -- the phase after loading the row
    have hphase : ∀ p' : RowPhase, p' = RowPhase.next c {} (.getChange change.id) (some change) →
        p'.pushing = false ∧ (change.id = c → p'.loaded = some change) := by
      intro p' h
      rw [h]
      show (ite _ _ _ : RowPhase).pushing = false ∧ (_ → (ite _ _ _ : RowPhase).loaded = _)
      split
      · exact ⟨rfl, fun _ => rfl⟩
      · rename_i hne
        exact ⟨rfl, fun h => absurd h hne⟩
    refine ⟨trivial, fun device _ => ?_⟩
    cases device with
    | none => exact (hphase _ rfl).1
    | some device =>
      refine (follows_clientForDevice_own device).bind_bind (fun p' _ hp' => ?_)
        fun _ _ _ => trivial
      obtain ⟨hpush, hload⟩ := hphase p' hp'
      refine ⟨trivial, fun now _ => ?_⟩
      refine (follows_applyChange_own hload hpush).bind_bind (fun p₂ done h₂ => ?_)
        fun _ _ _ => trivial
      exact ⟨fun h => h₂ done rfl h, fun _ _ => ⟨trivial, fun _ _ => rfl⟩⟩

/-! ### Profiles that do not hold the change -/

theorem follows_loadChanges {ids : List ChangeId} (hc : c ∉ ids) :
    Follows (ownRow c) (fun p' z => p' = p ∧ ∀ rows, z = .ok rows → ∀ r ∈ rows, r.id ≠ c) p
      (loadChanges ids) := by
  induction ids generalizing p with
  | nil =>
    refine ⟨rfl, fun rows h => ?_⟩
    obtain rfl := Except.ok.inj h
    simp
  | cons id ids ih =>
    obtain ⟨hid, hids⟩ : c ≠ id ∧ c ∉ ids := by simpa using hc
    refine ⟨fun h => absurd h.symm hid, fun row hrow => ?_⟩
    have hnext : (ownRow c).next p (.getChange id) row = p := if_neg (Ne.symm hid)
    rw [hnext]
    show Follows _ _ _ ((loadChanges ids).bind _)
    refine Follows.bind (ih hids) (fun p' rest h => ?_) fun p' x h => ⟨h.1, by simp⟩
    obtain ⟨rfl, hrest⟩ := h
    have hrest := hrest rest rfl
    cases row with
    | none =>
      refine ⟨rfl, fun rows h => ?_⟩
      obtain rfl := Except.ok.inj h
      exact hrest
    | some r =>
      refine ⟨rfl, fun rows h => ?_⟩
      obtain rfl := Except.ok.inj h
      have hr : r.id = id := hrow r rfl
      simpa [hr, Ne.symm hid] using hrest

theorem follows_flushAll_own {cs : List Change} (h : ∀ r ∈ cs, r.id ≠ c) :
    Follows (ownRow c) (fun p' _ => p' = p) p (flushAll cs) := by
  induction cs with
  | nil => exact rfl
  | cons r cs ih =>
    obtain ⟨hr, hcs⟩ := List.forall_mem_cons.mp h
    refine ⟨fun hc => absurd hc hr, fun _ _ => ?_⟩
    have hnext : (ownRow c).next p (.flushChange r) () = p := if_neg hr
    rw [hnext]
    exact ih hcs

theorem follows_flushResults_own {cs : List Change} (h : ∀ r ∈ cs, r.id ≠ c) :
    Follows (ownRow c) (fun p' _ => p' = p) p (flushResults cs) := by
  induction cs with
  | nil => exact rfl
  | cons r cs ih =>
    obtain ⟨hr, hcs⟩ := List.forall_mem_cons.mp h
    refine follows_flushResult rfl ⟨fun hc => absurd hc hr, fun _ _ => ?_⟩
    have hnext : (ownRow c).next p (.flushChange r) () = p := if_neg hr
    rw [hnext]
    exact ih hcs

theorem follows_applyMembers_own {client : DeviceId} {live aborted : Bool}
    {snapId : Option SnapId} {now : Time} {cs : List Change} (h : ∀ r ∈ cs, r.id ≠ c)
    (hp : p.pushing = false) :
    Follows (ownRow c)
      (fun p' z => p' = p ∧ ∀ rows, z = .ok rows → ∀ r ∈ rows, r.id ≠ c) p
      (applyMembers client live snapId now aborted cs) := by
  induction cs generalizing aborted with
  | nil =>
    have hnil : Follows (ownRow c)
        (fun p' z => p' = p ∧ ∀ rows : List Change, z = .ok rows → ∀ r ∈ rows, r.id ≠ c) p
        (.pure [] : Program (List Change)) := by
      refine ⟨rfl, fun rows hrows => ?_⟩
      obtain rfl := Except.ok.inj hrows
      simp
    cases aborted <;> exact hnil
  | cons r cs ih =>
    obtain ⟨hr, hcs⟩ := List.forall_mem_cons.mp h
    cases aborted with
    | true =>
      show Follows _ _ _ ((applyMembers client live snapId now true cs).bind _)
      refine Follows.bind (ih hcs) (fun p' rest hrest => ⟨hrest.1, fun rows hrows => ?_⟩)
        fun p' x hx => ⟨hx.1, by simp⟩
      obtain rfl := Except.ok.inj hrows
      exact List.forall_mem_cons.mpr ⟨hr, hrest.2 rest rfl⟩
    | false =>
      show Follows _ _ _ ((applyGuarded client { r with preApplySnapshotId := snapId } live now).bind _)
      have hsame : ({ p with pushing := live && r.id = c } : RowPhase) = p := by
        have hpush : (live && decide (r.id = c)) = p.pushing := by simp [hr, hp]
        rw [hpush]
      refine Follows.bind (follows_applyGuarded_own hp fun hc => absurd hc hr)
        (fun p' done hdone => ?_) fun p' x hx => ⟨hx.1.trans hsame, by simp⟩
      obtain ⟨rfl, hrow⟩ := hdone
      obtain ⟨hid, -⟩ := hrow done rfl
      show Follows _ _ { p with pushing := live && r.id = c }
        ((applyMembers client live snapId now _ cs).bind _)
      rw [hsame]
      refine Follows.bind (ih hcs) (fun p' rest hrest => ⟨hrest.1, fun rows hrows => ?_⟩)
        fun p' x hx => ⟨hx.1, by simp⟩
      obtain rfl := Except.ok.inj hrows
      have hid : done.id = r.id := hid
      exact List.forall_mem_cons.mpr ⟨hid ▸ hr, hrest.2 rest rfl⟩

theorem follows_applyProfileSequence_own {changes : List Change} {client : DeviceId} {now : Time}
    (h : ∀ r ∈ changes, r.id ≠ c) (hp : p.pushing = false) :
    Follows (ownRow c) (fun p' _ => p' = p) p
      (applyProfileSequence env changes client now) := by
  unfold applyProfileSequence
  split
  · exact rfl
  · rename_i first others hsched
    have hmem : ∀ r ∈ first :: others, r.id ≠ c := fun r hr => by
      rw [← hsched] at hr
      exact h r (List.mem_of_mem_filter hr)
    have hflush : ∀ {α : Type} (f : Change → Change) (a : α), (∀ r, (f r).id = r.id) →
        Follows (ownRow c) (fun p' _ => p' = p) p
          (do flushAll ((first :: others).map f); return a) := by
      intro α f a hf
      refine Follows.bind (follows_flushAll_own fun r hr => ?_) (fun _ _ hq => hq) fun _ _ hq => hq
      obtain ⟨r₀, hr₀, rfl⟩ := List.mem_map.mp hr
      rw [hf]
      exact hmem r₀ hr₀
    refine ⟨trivial, fun got _ => ?_⟩
    cases got with
    | false => exact rfl
    | true =>
      show Follows _ _ _ ((readConfig env client).bind _)
      refine Follows.bind (follows_readConfig_own client) (fun p' r hr => ?_) fun _ _ hq => hq
      obtain rfl := hr
      cases r with
      | none => exact hflush _ _ fun _ => rfl
      | some r =>
        show Follows _ _ _ (ite _ _ _)
        split
        · exact hflush _ _ fun _ => rfl
        · refine ⟨trivial, fun row _ => ?_⟩
          show Follows _ _ _ ((rollbackPoint env _ _ _).bind _)
          refine Follows.bind (follows_rollbackPoint_own _ _ _) (fun p₂ snapId h₂ => ?_)
            fun _ _ hq => hq
          obtain rfl := h₂
          refine Follows.bind (follows_applyMembers_own hmem hp) (fun p₃ done h₃ => ?_)
            fun _ _ hq => hq.1
          obtain ⟨rfl, hdone⟩ := h₃
          exact Follows.bind (follows_flushResults_own (hdone done rfl)) (fun _ _ hq => hq)
            fun _ _ hq => hq

theorem follows_applyProfileChanges {ids : List ChangeId} (hc : c ∉ ids) :
    Follows (ownRow c) endsOwn {} (do let _ ← applyProfileChanges env ids) := by
  refine (follows_loadChanges hc).bind_bind (fun p' rows h => ?_) fun _ _ _ => trivial
  obtain ⟨rfl, hrows⟩ := h
  have hrows := hrows rows rfl
  cases rows with
  | nil => exact rfl
  | cons first others =>
    refine ⟨trivial, fun device _ => ?_⟩
    cases device with
    | none => exact rfl
    | some device =>
      refine (follows_clientForDevice_own device).bind_bind (fun p' _ hp' => ?_)
        fun _ _ _ => trivial
      obtain rfl := hp'
      refine ⟨trivial, fun now _ => ?_⟩
      refine (follows_applyProfileSequence_own hrows rfl).bind_bind (fun p₂ done h₂ => ?_)
        fun _ _ _ => trivial
      obtain rfl := h₂
      refine ⟨fun h => ?_, fun _ _ => ⟨trivial, fun _ _ => rfl⟩⟩
      cases h

/-! ### Handlers -/

theorem follows_ofExcept {α : Type} (e : Except Raised α) :
    Follows (ownRow c) (fun p' z => p' = p ∧ z = e) p (Dialogue.ofExcept e) := by
  cases e <;> exact ⟨rfl, rfl⟩

theorem follows_loadDevice (tenantId : TenantId) (deviceId : DeviceId) :
    Follows (ownRow c) (fun p' _ => p' = p) p (loadDevice tenantId deviceId) := by
  refine ⟨trivial, fun device _ => ?_⟩
  cases device with
  | none => exact rfl
  | some device =>
    show Follows _ _ _ (ite _ _ _)
    split <;> exact rfl

theorem follows_loadChange (tenantId : TenantId) (deviceId : DeviceId) (id : ChangeId) :
    Follows (ownRow c)
      (fun p' z => p'.pushing = false ∧ ∀ change, z = .ok change → change.id = id ∧
        (change.id = c → p'.loaded = some change)) {} (loadChange tenantId deviceId id) := by
  refine ⟨fun _ => ⟨rfl, rfl⟩, fun row hrow => ?_⟩
  have hpush : ((ownRow c).next {} (.getChange id) row).pushing = false :=
    next_getChange_pushing id row
  cases row with
  | none => exact ⟨hpush, by simp⟩
  | some change =>
    show Follows _ _ _ (ite _ _ _)
    split
    · exact ⟨hpush, by simp⟩
    · refine ⟨hpush, fun change' h => ?_⟩
      obtain rfl := Except.ok.inj h
      have hid : change.id = id := hrow change rfl
      exact ⟨hid, fun hc => by simp [ownRow, RowPhase.next, hid ▸ hc]⟩

theorem follows_createChange (tenantId : TenantId) (deviceId : DeviceId)
    (kind operation : String) (target : Json) (payload : Dict) :
    Follows (ownRow c)
      (fun p' z => p'.pushing = p.pushing ∧
        ∀ row, z = .ok row → row.id = c → p'.loaded = none ∧ p'.dirty ≠ none) p
      (createChange tenantId deviceId kind operation target payload) := by
  refine ⟨trivial, fun snap _ => ?_⟩
  cases target with
  | str target =>
    refine ⟨trivial, fun row hrow => ⟨?_, fun row' h hc => ?_⟩⟩
    · show (p.next c (.insertChange _) row).pushing = p.pushing
      exact next_insertChange_pushing _ row
    · obtain rfl := Except.ok.inj h
      exact ⟨by simpa [ownRow, RowPhase.next, hc] using hrow hc,
        by simp [ownRow, RowPhase.next, hc]⟩
  | _ => exact ⟨rfl, by simp⟩

theorem follows_commit {α : Type} {Z : RowPhase → Except Raised α → Prop} {f : Program α}
    (hp : p.pushing = false)
    (hf : Follows (ownRow c) Z { p with dirty := none, pushing := false } f) :
    Follows (ownRow c) Z p (do perform .commit; f) := by
  refine ⟨fun h => ?_, fun _ _ => hf⟩
  rw [hp] at h
  cases h

theorem follows_createConfigChange (tenantId : TenantId) (deviceId : DeviceId)
    (body : ConfigChangeIn) :
    Follows (ownRow c) endsOwn {} (do let _ ← createConfigChange tenantId deviceId body) := by
  unfold createConfigChange
  split
  · trivial
  · refine (follows_loadDevice _ _).bind_bind (fun p' _ hp' => ?_) fun _ _ _ => trivial
    obtain rfl := hp'
    refine (follows_createChange _ _ _ _ _ _).bind_bind (fun p₂ row h₂ => ?_)
      fun _ _ _ => trivial
    exact follows_commit h₂.1 rfl

theorem follows_createCatalogChange (tenantId : TenantId) (deviceId : DeviceId)
    (body : CatalogChangeIn) :
    Follows (ownRow c) endsOwn {}
      (do let _ ← createCatalogChange env tenantId deviceId body) := by
  unfold createCatalogChange
  split
  · trivial
  · refine (follows_loadDevice _ _).bind_bind (fun p' device hp' => ?_) fun _ _ _ => trivial
    obtain rfl := hp'
    show Follows _ _ _ (Dialogue.bind (ite _ _ _) _)
    split
    · trivial
    · cases catalogModel env device body.modelId with
      | none => trivial
      | some model =>
        refine (follows_ofExcept _).bind_bind (fun p' payload h => ?_) fun _ _ _ => trivial
        obtain ⟨rfl, -⟩ := h
        refine (follows_createChange _ _ _ _ _ _).bind_bind (fun p₂ row h₂ => ?_)
          fun _ _ _ => trivial
        exact follows_commit h₂.1 rfl

theorem follows_scheduleConfigChange (tenantId : TenantId) (deviceId : DeviceId) (id : ChangeId)
    (scheduledAt : Option Time) :
    Follows (ownRow c) endsOwn {}
      (do let _ ← scheduleConfigChange tenantId deviceId id scheduledAt) := by
  refine (follows_loadChange _ _ _).bind_bind (fun p' change h => ?_) fun _ _ _ => trivial
  obtain ⟨hpush, hload⟩ := h
  obtain ⟨-, hload⟩ := hload change rfl
  show Follows _ _ _ (Dialogue.bind (ite _ _ _) _)
  split
  · trivial
  · rename_i hopen
    refine ⟨fun hc => .inl ⟨change, hload hc, by tauto⟩, fun _ _ => ?_⟩
    exact follows_commit ((next_flushChange_pushing _).trans hpush) ⟨trivial, fun _ _ => rfl⟩

theorem follows_cancelConfigChange (tenantId : TenantId) (deviceId : DeviceId) (id : ChangeId) :
    Follows (ownRow c) endsOwn {} (do let _ ← cancelConfigChange tenantId deviceId id) := by
  refine (follows_loadChange _ _ _).bind_bind (fun p' change h => ?_) fun _ _ _ => trivial
  obtain ⟨hpush, hload⟩ := h
  obtain ⟨-, hload⟩ := hload change rfl
  show Follows _ _ _ (Dialogue.bind (ite _ _ _) _)
  split
  · trivial
  · rename_i hopen
    refine ⟨fun hc => .inl ⟨change, hload hc, by tauto⟩, fun _ _ => ?_⟩
    exact follows_commit ((next_flushChange_pushing _).trans hpush) rfl

theorem follows_preApplyXml (change : Change) :
    Follows (ownRow c) (fun p' _ => p' = p) p (preApplyXml env change) := by
  unfold preApplyXml
  split
  · exact rfl
  · refine ⟨trivial, fun snap _ => ?_⟩
    cases snap with
    | none => exact rfl
    | some snap =>
      show Follows _ _ _ (ite _ _ _)
      split
      · exact rfl
      · split <;> exact rfl

theorem follows_revertChange (change : Change) :
    Follows (ownRow c)
      (fun p' z => p'.pushing = p.pushing ∧
        ∀ row, z = .ok row → row.id = c → p'.loaded = none ∧ p'.dirty ≠ none) p
      (revertChange env change) := by
  unfold revertChange
  split
  · exact ⟨rfl, by simp⟩
  · split
    · exact ⟨rfl, by simp⟩
    · show Follows _ _ _ ((preApplyXml env change).bind _)
      refine Follows.bind (follows_preApplyXml change) (fun p' snapshotXml hp' => ?_)
        fun p₂ x h => ⟨congrArg RowPhase.pushing h, by simp⟩
      obtain rfl := hp'
      show Follows _ _ _ ((Dialogue.ofExcept (buildInverse env change snapshotXml)).bind _)
      refine Follows.bind (follows_ofExcept _) (fun p₂ inverse h₂ => ?_)
        fun p₃ x h => ⟨congrArg RowPhase.pushing h.1, by simp⟩
      obtain ⟨rfl, -⟩ := h₂
      obtain ⟨operation, target, payload⟩ := inverse
      show Follows _ _ _ ((createChange _ _ _ _ _ _).bind _)
      refine Follows.bind (follows_createChange _ _ _ _ _ _) (fun p₃ row h₃ => ?_)
        fun p' x h => ⟨h.1, by simp⟩
      obtain ⟨hpush, hown⟩ := h₃
      refine ⟨fun hc => .inr (hown row rfl hc), fun _ _ => ?_⟩
      refine ⟨(next_flushChange_pushing _).trans hpush, fun row' h hc => ?_⟩
      obtain rfl := Except.ok.inj h
      have hc : row.id = c := hc
      exact ⟨by simpa [ownRow, RowPhase.next, hc] using (hown row rfl hc).1,
        by simp [ownRow, RowPhase.next, hc]⟩

theorem follows_revertConfigChange (tenantId : TenantId) (deviceId : DeviceId) (id : ChangeId)
    (scheduledAt : Option Time) :
    Follows (ownRow c) endsOwn {}
      (do let _ ← revertConfigChange env tenantId deviceId id scheduledAt) := by
  refine (follows_loadChange _ _ _).bind_bind (fun p' change h => ?_) fun _ _ _ => trivial
  obtain ⟨hpush, -⟩ := h
  refine Follows.bind_bind (Z := fun p₂ z => p₂.pushing = false ∧
      ∀ row, z = .ok row → row.id = c → p₂.loaded = none ∧ p₂.dirty ≠ none) ?_
    (fun p₂ inverse h₂ => ?_) fun _ _ _ => trivial
  · refine Follows.handle (follows_revertChange change) (fun _ _ h => ?_) fun p₂ e h => ?_
    · exact ⟨h.1.trans hpush, h.2⟩
    · have hpush₂ : p₂.pushing = false := h.1.trans hpush
      split <;> exact ⟨hpush₂, by simp⟩
  · obtain ⟨hpush₂, hown⟩ := h₂
    refine ⟨fun hc => .inr (hown inverse rfl hc), fun _ _ => ?_⟩
    exact follows_commit ((next_flushChange_pushing _).trans hpush₂) ⟨trivial, fun _ _ => rfl⟩

/-! ### Backups and sweeps -/

theorem follows_backupDeviceConfig (device : DeviceId) :
    Follows (ownRow c) endsOwn {} (do let _ ← backupDeviceConfig env device) := by
  refine ⟨trivial, fun row _ => ?_⟩
  cases row with
  | none => exact rfl
  | some d =>
    refine (follows_clientForDevice_own d).bind_bind (fun p' _ hp' => ?_) fun _ _ _ => trivial
    obtain rfl := hp'
    have hbackup : Follows (ownRow c) (fun p' _ => p' = {}) {} (backupConfig env device d) := by
      refine Follows.bind (follows_readConfig_own device) (fun p' r hr => ?_) fun _ _ hq => hq
      obtain rfl := hr
      cases r with
      | none => exact rfl
      | some r =>
        refine ⟨trivial, fun latest _ => ?_⟩
        show Follows _ _ _ (ite _ _ _)
        split
        · exact rfl
        · exact ⟨trivial, fun _ _ => rfl⟩
    refine Follows.bind_bind hbackup (fun p' _ hp' => ?_) fun _ _ _ => trivial
    obtain rfl := hp'
    exact follows_commit rfl rfl

theorem follows_sweepRow (id : ChangeId) (summary : SweepSummary) :
    Follows (ownRow c) (fun p' _ => p'.pushing = false) {} (sweepRow env id summary) := by
  refine ⟨fun _ => ⟨rfl, rfl⟩, fun row hrow => ?_⟩
  have hpush : ((ownRow c).next {} (.getChange id) row).pushing = false :=
    next_getChange_pushing id row
  cases row with
  | none => exact hpush
  | some row =>
    have hid : row.id = id := hrow row rfl
    show Follows _ _ _ (ite _ _ _)
    split
    · exact hpush
    · rename_i hs
      have hmay : row.id = c →
          ((ownRow c).next {} (.getChange id) (some row)).MayWrite := fun hc =>
        .inl ⟨row, by simp [ownRow, RowPhase.next, hid ▸ hc], .inr (not_not.mp hs)⟩
      refine ⟨trivial, fun got _ => ?_⟩
      cases got with
      | false => exact hpush
      | true =>
        cases decideOrphan row.sweepAttempts env.maxReenqueueAttempts with
        | reEnqueue =>
          simp only [Bool.not_true, Bool.false_eq_true, if_false, Dialogue.bind_eq,
            Dialogue.pure_bind]
          exact ⟨hmay, fun _ _ => follows_commit ((next_flushChange_pushing _).trans hpush)
            ⟨trivial, fun _ _ => rfl⟩⟩
        | giveUp =>
          simp only [Bool.not_true, Bool.false_eq_true, if_false, Dialogue.bind_eq,
            Dialogue.pure_bind]
          exact ⟨hmay, fun _ _ => ⟨trivial, fun _ _ =>
            follows_commit ((next_flushChange_pushing _).trans hpush) rfl⟩⟩

theorem follows_sweepRows (ids : List ChangeId) (summary : SweepSummary) :
    Follows (ownRow c) (fun p' _ => p'.pushing = false) {} (sweepRows env ids summary) := by
  induction ids generalizing summary with
  | nil => exact rfl
  | cons id ids ih =>
    show Follows _ _ _ ((Dialogue.handle (sweepRow env id summary) _).bind _)
    refine Follows.bind (Z := fun p' _ => p'.pushing = false) ?_ (fun p' summary' h => ?_)
      fun _ _ h => h
    · exact Follows.handle (follows_sweepRow id summary) (fun _ _ h => h) fun _ _ h => h
    · exact ⟨h, fun _ _ => ih summary'⟩

theorem follows_sweepOrphanedActions :
    Follows (ownRow c) endsOwn {} (do let _ ← sweepOrphanedActions env) := by
  refine ⟨trivial, fun now _ => ⟨trivial, fun ids _ => ⟨rfl, fun _ _ => ?_⟩⟩⟩
  exact Follows.bind (follows_sweepRows ids {}) (fun _ _ h => h) fun _ _ _ => trivial

/-- **Every program of the system follows the discipline towards `c`**, where
no queued profile has `c` among its members. -/
theorem follows_opens {queue queue' : List (Job × Option Time)} {e : Event} {i : Nat}
    {task : Task} {t : Program Unit} (hqueue : ∀ job ∈ queue, job.1.spares c)
    (h : Opens env queue e i task t queue') :
    Follows (ownRow c) endsOwn {} t := by
  cases h with
  | call i call =>
    cases call with
    | createConfigChange => exact follows_createConfigChange _ _ _
    | createCatalogChange => exact follows_createCatalogChange _ _ _
    | scheduleConfigChange => exact follows_scheduleConfigChange _ _ _ _
    | cancelConfigChange => exact follows_cancelConfigChange _ _ _
    | revertConfigChange => exact follows_revertConfigChange _ _ _ _
  | sweep => exact follows_sweepOrphanedActions
  | @job i n job deferUntil hn =>
    have hspares := hqueue _ (List.mem_of_getElem? hn)
    cases job with
    | applyConfigChange id => exact follows_applyConfigChange id
    | applyProfileChanges ids => exact follows_applyProfileChanges hspares
    | backupDeviceConfig device => exact follows_backupDeviceConfig device

end Opngms
