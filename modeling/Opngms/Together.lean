/-
Opngms/Together.lean

The members of an applied profile stay together, unless the sweeper takes them
apart.

A profile is applied by one job that pushes its members in order under one
lock.  A run that misses the lock leaves them scheduled, and the sweeper then
handles each as if it had been scheduled by itself: it re-enqueues them one by
one, and the second finds the configuration that the first has changed.

As long as no sweep obtains the lock for a member it has loaded as scheduled,
the members are pushed in order, none after one that failed, and none is
marked `conflict` once a sibling was pushed: **`profile_together`**, for every
interleaving with all other requests, jobs and sweeps.
-/
import Mathlib.Data.List.Perm.Basic
import Opngms.Bystander
import Opngms.ApplyOnce

namespace Opngms

open Dialogue

variable {Box : Type}

/-! ### Order of the members -/

theorem pairwise_idxOf {ids l : List ChangeId} (h : ids.Nodup) (hl : l.Sublist ids) :
    l.Pairwise fun a b => ids.idxOf a < ids.idxOf b := by
  have hids : ids.Pairwise fun a b => ids.idxOf a < ids.idxOf b := by
    refine List.pairwise_iff_getElem.mpr fun i j hi hj hij => ?_
    rw [h.idxOf_getElem i hi, h.idxOf_getElem j hj]
    exact hij
  exact hids.sublist hl

/-- A final status of the member `m` that goes with the pushes: a conflict is
found before any of them, and after a failure there are none. -/
structure Fits (ids pushes : List ChangeId) (m : ChangeId) (status : Status) : Prop where
  terminal : status.terminal = true
  conflict : status = .conflict → pushes = []
  failed : status = .failed → ∀ b ∈ pushes, ids.idxOf b ≤ ids.idxOf m

/-! ### The job of the profile -/

/-- The discipline of the job that applies the members `ids`. -/
def profileJob (ids : List ChangeId) : Discipline Eff Eff.Ans Session where
  allows s
    | .getChange _ => s.committed = false ∧ s.pushes = [] ∧ ∀ m, s.dirty m = none
    | .beginPush m => s.committed = false ∧ (∀ m, s.dirty m = none) ∧ (s.pushes ++ [m]).Sublist ids
    | .flushChange row =>
      s.committed = false ∧ row.id ∈ ids ∧
        (∃ old, s.loaded row.id = some old ∧ old.status = .scheduled) ∧
        Fits ids s.pushes row.id row.status
    | .insertChange _ | .closeSession => False
    | .enqueue job _ => job.avoids ids
    | _ => True
  admits _
    | .getChange id, row => ∀ r : Change, row = some r → r.id = id
    | _, _ => True
  next := Session.after

/-- Nothing was pushed or written. -/
structure Session.Fresh (s : Session) : Prop where
  uncommitted : s.committed = false
  pushes : s.pushes = []
  dirty : ∀ m, s.dirty m = none

section Job

variable {ids : List ChangeId} {env : Env} {s : Session}

theorem follows_loadChanges_profile {members : List ChangeId} (hn : members.Nodup)
    (hs : s.Fresh) :
    Follows (profileJob ids)
      (fun s' z => s'.Fresh ∧ (∀ id ∉ members, s'.loaded id = s.loaded id) ∧
        ∀ rows, z = .ok rows → (rows.map Change.id).Sublist members ∧
          ∀ r ∈ rows, s'.loaded r.id = some r) s (loadChanges members) := by
  induction members generalizing s with
  | nil =>
    refine ⟨hs, fun _ _ => rfl, fun rows hrows => ?_⟩
    obtain rfl := Except.ok.inj hrows
    exact ⟨.slnil, nofun⟩
  | cons id members ih =>
    obtain ⟨hid, hn⟩ := List.nodup_cons.mp hn
    refine ⟨⟨hs.uncommitted, hs.pushes, hs.dirty⟩, fun row hrow => ?_⟩
    have hs₁ : Session.Fresh (s.after (.getChange id) row) := ⟨hs.uncommitted, hs.pushes, hs.dirty⟩
    have hother : ∀ id' ∉ id :: members, (s.after (.getChange id) row).loaded id' = s.loaded id' := by
      intro id' hid'
      have hne : id' ≠ id := fun h => hid' (by rw [h]; exact List.mem_cons_self)
      exact Function.update_of_ne hne _ _
    show Follows _ _ _ ((loadChanges members).bind _)
    refine Follows.bind (ih hn hs₁) (fun s' rows hz => ?_) fun s' e hz => ?_
    · obtain ⟨hs', hframe, hrows⟩ := hz
      obtain ⟨hsub, hloaded⟩ := hrows rows rfl
      have hframe' : ∀ id' ∉ id :: members, s'.loaded id' = s.loaded id' := fun id' h =>
        (hframe id' fun hm => h (List.mem_cons_of_mem id hm)).trans (hother id' h)
      cases row with
      | none =>
        refine ⟨hs', hframe', fun rows' h => ?_⟩
        obtain rfl := Except.ok.inj h
        exact ⟨hsub.cons id, hloaded⟩
      | some r =>
        have hr : r.id = id := hrow r rfl
        refine ⟨hs', hframe', fun rows' h => ?_⟩
        obtain rfl := Except.ok.inj h
        refine ⟨?_, List.forall_mem_cons.mpr ⟨?_, hloaded⟩⟩
        · rw [List.map_cons, hr]
          exact hsub.cons_cons id
        · rw [hr, hframe id hid]
          exact Function.update_self _ _ _
    · refine ⟨hz.1, fun id' h => ?_, nofun⟩
      exact (hz.2.1 id' fun hm => h (List.mem_cons_of_mem id hm)).trans (hother id' h)

theorem follows_flushAll_profile {rows : List Change} (hs : s.committed = false)
    (h : ∀ r ∈ rows, r.id ∈ ids ∧ (∃ old, s.loaded r.id = some old ∧ old.status = .scheduled) ∧
      Fits ids s.pushes r.id r.status) :
    Follows (profileJob ids) (fun _ _ => True) s (flushAll rows) := by
  induction rows generalizing s with
  | nil => trivial
  | cons r rows ih =>
    obtain ⟨hr, hrows⟩ := List.forall_mem_cons.mp h
    exact ⟨⟨hs, hr⟩, fun _ _ => ih (by exact hs) (by exact hrows)⟩

theorem follows_applyGuarded_profile {client : DeviceId} {c : Change} {live : Bool} {now : Time}
    (hs : s.committed = false) (hd : ∀ m, s.dirty m = none)
    (hp : (s.pushes ++ [c.id]).Sublist ids) :
    Follows (profileJob ids)
      (fun s' z => s'.committed = false ∧ (∀ m, s'.dirty m = none) ∧ s'.loaded = s.loaded ∧
        s'.pushes = s.pushes ++ (if live then [c.id] else []) ∧
        ∀ c', z = .ok c' → c'.id = c.id ∧ (c'.status = .applied ∨ c'.status = .failed)) s
      (applyGuarded client c live now) := by
  have hbox : ∀ s₁ : Session, Follows (profileJob ids) (fun s' _ => s' = s₁) s₁
      (onBox client (applyForKind c.kind c.operation c.payload !live)) :=
    fun s₁ => follows_onBox (fun _ => trivial) (fun _ _ => rfl) _
  have hcall : Follows (profileJob ids)
      (fun s' _ => s'.committed = false ∧ (∀ m, s'.dirty m = none) ∧ s'.loaded = s.loaded ∧
        s'.pushes = s.pushes ++ (if live then [c.id] else [])) s (callApplier client c live) := by
    cases live with
    | false =>
      refine (hbox s).mono fun s' _ h => ?_
      subst h
      exact ⟨hs, hd, rfl, by simp⟩
    | true =>
      refine ⟨⟨hs, hd, hp⟩, fun _ _ => (hbox _).mono fun s' _ h => ?_⟩
      subst h
      exact ⟨hs, hd, rfl, rfl⟩
  have hbody : Follows (profileJob ids)
      (fun s' z => s'.committed = false ∧ (∀ m, s'.dirty m = none) ∧ s'.loaded = s.loaded ∧
        s'.pushes = s.pushes ++ (if live then [c.id] else []) ∧
        ∀ c' : Change, z = .ok c' → c'.id = c.id ∧ (c'.status = .applied ∨ c'.status = .failed)) s
      (do
        let res ← callApplier client c live
        return { c with status := .applied, appliedAt := some now, result := res }) := by
    refine Follows.bind hcall (fun s' res h => ⟨h.1, h.2.1, h.2.2.1, h.2.2.2, fun c' hc => ?_⟩)
      fun s' e h => ⟨h.1, h.2.1, h.2.2.1, h.2.2.2, nofun⟩
    obtain rfl := Except.ok.inj hc
    exact ⟨rfl, .inl rfl⟩
  refine Follows.handle hbody (fun _ _ h => h) fun s' e h => ?_
  obtain ⟨h₁, h₂, h₃, h₄, -⟩ := h
  cases applyFailure e with
  | some result =>
    refine ⟨h₁, h₂, h₃, h₄, fun c' hc => ?_⟩
    obtain rfl := Except.ok.inj hc
    exact ⟨rfl, .inr rfl⟩
  | none => exact ⟨h₁, h₂, h₃, h₄, nofun⟩

/-- The loop over the members.  `s.pushes` are the members pushed so far, all
before those that are left. -/
theorem follows_applyMembers_profile (hn : ids.Nodup) {client : DeviceId} {live : Bool}
    {snapId : Option SnapId} {now : Time} (aborted : Bool) (cs : List Change)
    (hs : s.committed = false) (hd : ∀ m, s.dirty m = none)
    (hsub : (s.pushes ++ cs.map Change.id).Sublist ids) :
    Follows (profileJob ids)
      (fun s' z => s'.committed = false ∧ s'.loaded = s.loaded ∧
        (aborted = true → s'.pushes = s.pushes) ∧
        ∀ rows, z = .ok rows → rows.map Change.id = cs.map Change.id ∧
          ∀ r ∈ rows, Fits ids s'.pushes r.id r.status) s
      (applyMembers client live snapId now aborted cs) := by
  have hfail : ∀ {pushes : List ChangeId} {m : ChangeId} {rest : List ChangeId},
      (pushes ++ m :: rest).Sublist ids → Fits ids pushes m .failed := by
    intro pushes m rest h
    refine ⟨rfl, nofun, fun _ b hb => ?_⟩
    have hpair := List.pairwise_append.mp (pairwise_idxOf hn h)
    exact (hpair.2.2 b hb m List.mem_cons_self).le
  induction cs generalizing s aborted with
  | nil =>
    have hend : Follows (profileJob ids)
        (fun s' z => s'.committed = false ∧ s'.loaded = s.loaded ∧
          (aborted = true → s'.pushes = s.pushes) ∧
          ∀ rows : List Change, z = .ok rows → rows.map Change.id = [] ∧
            ∀ r ∈ rows, Fits ids s'.pushes r.id r.status) s
        (.pure [] : Program (List Change)) := by
      refine ⟨hs, rfl, fun _ => rfl, fun rows h => ?_⟩
      obtain rfl := Except.ok.inj h
      exact ⟨rfl, nofun⟩
    cases aborted <;> exact hend
  | cons c cs ih =>
    have hsub' : (s.pushes ++ c.id :: cs.map Change.id).Sublist ids := hsub
    have hrest : (s.pushes ++ cs.map Change.id).Sublist ids :=
      ((List.sublist_cons_self c.id _).append_left s.pushes).trans hsub'
    cases aborted with
    | true =>
      refine Follows.bind (ih true hs hd hrest) (fun s' rows hz => ?_) fun s' e hz => ?_
      · obtain ⟨h₁, h₂, h₃, h₄⟩ := hz
        obtain ⟨hids, hfits⟩ := h₄ rows rfl
        refine ⟨h₁, h₂, h₃, fun rows' h => ?_⟩
        obtain rfl := Except.ok.inj h
        refine ⟨by simp [hids], List.forall_mem_cons.mpr ⟨?_, hfits⟩⟩
        rw [h₃ rfl]
        exact hfail hsub'
      · exact ⟨hz.1, hz.2.1, hz.2.2.1, nofun⟩
    | false =>
      have hone : (s.pushes ++ [c.id]).Sublist ids := by
        refine List.Sublist.trans ?_ hsub'
        exact (List.singleton_sublist.mpr List.mem_cons_self).append_left s.pushes
      refine Follows.bind (follows_applyGuarded_profile hs hd hone) (fun s₁ c' hz => ?_)
        fun s₁ e hz => ⟨hz.1, hz.2.2.1, nofun, nofun⟩
      obtain ⟨hs₁, hd₁, hl₁, hp₁, hc⟩ := hz
      obtain ⟨hid, hst⟩ := hc c' rfl
      have hid : c'.id = c.id := hid
      have hsub₁ : (s₁.pushes ++ cs.map Change.id).Sublist ids := by
        rw [hp₁]
        cases live with
        | false => simpa using hrest
        | true => simpa using hsub'
      refine Follows.bind (ih (c'.status = .failed) hs₁ hd₁ hsub₁) (fun s₂ rows hz => ?_)
        fun s₂ e hz => ⟨hz.1, hz.2.1.trans hl₁, nofun, nofun⟩
      obtain ⟨h₁, h₂, h₃, h₄⟩ := hz
      obtain ⟨hids, hfits⟩ := h₄ rows rfl
      refine ⟨h₁, h₂.trans hl₁, nofun, fun rows' h => ?_⟩
      obtain rfl := Except.ok.inj h
      refine ⟨by simp [hids, hid], List.forall_mem_cons.mpr ⟨?_, hfits⟩⟩
      rcases hst with hst | hst
      · rw [hst]
        exact ⟨rfl, nofun, nofun⟩
      · -- the member failed: the rest was aborted, and nothing was pushed since
        have hlast : s₂.pushes = s₁.pushes := h₃ (by simp [hst])
        rw [hst, hid, hlast, hp₁]
        refine ⟨rfl, nofun, fun _ b hb => ?_⟩
        rcases List.mem_append.mp hb with hb | hb
        · exact (hfail hsub').failed rfl b hb
        · have hbc : b = c.id := by
            cases live with
            | false => cases hb
            | true => exact List.mem_singleton.mp hb
          rw [hbc]

theorem follows_readConfig_profile (hs : s.Fresh) (client : DeviceId) :
    Follows (profileJob ids) (fun s' _ => s'.Fresh ∧ s'.loaded = s.loaded) s
      (readConfig env client) := by
  refine ⟨trivial, fun r _ => ?_⟩
  have hs' : Session.Fresh (s.after (.getConfigBackup client) r) :=
    ⟨hs.uncommitted, hs.pushes, hs.dirty⟩
  cases r with
  | error e => exact ⟨hs', rfl⟩
  | ok xml => exact ⟨hs', rfl⟩

theorem follows_rollbackPoint_profile (hs : s.Fresh) (live : Bool) (change : Change)
    (xml : String) :
    Follows (profileJob ids) (fun s' _ => s'.Fresh ∧ s'.loaded = s.loaded) s
      (rollbackPoint env live change xml) := by
  cases live with
  | false => exact ⟨hs, rfl⟩
  | true =>
    exact ⟨trivial, fun _ _ => ⟨trivial, fun _ _ => ⟨⟨hs.uncommitted, hs.pushes, hs.dirty⟩, rfl⟩⟩⟩

/-- One run over the loaded members: whatever it writes goes with what it has
pushed. -/
theorem follows_applyProfileSequence_profile (hn : ids.Nodup) {changes : List Change}
    (hs : s.Fresh) (hsub : (changes.map Change.id).Sublist ids)
    (hl : ∀ c ∈ changes, s.loaded c.id = some c) (client : DeviceId) (now : Time) :
    Follows (profileJob ids) (fun _ _ => True) s
      (applyProfileSequence env changes client now) := by
  unfold applyProfileSequence
  split
  · trivial
  · rename_i first others hfilter
    have hsched : ((first :: others).map Change.id).Sublist ids := by
      rw [← hfilter]
      exact ((List.filter_sublist).map _).trans hsub
    -- a row that is written is one of the scheduled ones
    have hrow : ∀ {s' : Session}, s'.loaded = s.loaded →
        ∀ r : Change, r.id ∈ (first :: others).map Change.id →
        r.id ∈ ids ∧ ∃ old, s'.loaded r.id = some old ∧ old.status = .scheduled := by
      intro s' hs' r hr
      refine ⟨hsched.subset hr, ?_⟩
      obtain ⟨c, hc, hid⟩ := List.mem_map.mp hr
      rw [← hfilter] at hc
      obtain ⟨hc, hst⟩ := List.mem_filter.mp hc
      exact ⟨c, by rw [hs', ← hid]; exact hl c hc, by simpa using hst⟩
    -- marking all of them, before any is pushed
    have hmark : ∀ {s' : Session} (status : Status) (result : Json), s'.Fresh →
        s'.loaded = s.loaded → status.terminal = true →
        Follows (profileJob ids) (fun _ _ => True) s'
          (flushAll ((first :: others).map fun c => { c with status, result })) := by
      intro s' status result hs' hl' hterm
      refine follows_flushAll_profile hs'.uncommitted fun r hr => ?_
      obtain ⟨c, hc, rfl⟩ := List.mem_map.mp hr
      obtain ⟨hmem, hold⟩ := hrow hl' c (List.mem_map_of_mem hc)
      refine ⟨hmem, hold, hterm, fun _ => hs'.pushes, fun _ b hb => ?_⟩
      rw [hs'.pushes] at hb
      cases hb
    refine ⟨trivial, fun got _ => ?_⟩
    cases got with
    | false => trivial
    | true =>
      show Follows _ _ _ ((readConfig env client).bind _)
      refine Follows.bind (follows_readConfig_profile (by exact hs) client) (fun s₁ r hz => ?_)
        fun _ _ _ => trivial
      obtain ⟨hs₁, hl₁⟩ := hz
      have hl₁ : s₁.loaded = s.loaded := hl₁
      rcases r with - | ⟨xml, current⟩
      · exact Follows.bind (hmark .failed readFailure hs₁ hl₁ rfl) (fun _ _ _ => trivial)
          fun _ _ _ => trivial
      · show Follows _ _ _ (ite _ _ _)
        split
        · exact Follows.bind (hmark .conflict _ hs₁ hl₁ rfl) (fun _ _ _ => trivial)
            fun _ _ _ => trivial
        · refine ⟨trivial, fun row _ => ?_⟩
          show Follows _ _ _ ((rollbackPoint env _ first xml).bind _)
          refine Follows.bind (follows_rollbackPoint_profile (by exact hs₁) _ first xml)
            (fun s₂ snapId hz => ?_) fun _ _ _ => trivial
          obtain ⟨hs₂, hl₂⟩ := hz
          have hl₂ : s₂.loaded = s₁.loaded := hl₂
          show Follows _ _ _ ((applyMembers client _ snapId now false (first :: others)).bind _)
          refine Follows.bind (follows_applyMembers_profile hn false _ hs₂.uncommitted hs₂.dirty
            (by rw [hs₂.pushes]; exact hsched)) (fun s₃ rows hz => ?_) fun _ _ _ => trivial
          obtain ⟨hs₃, hl₃, -, hz⟩ := hz
          obtain ⟨hids, hfits⟩ := hz rows rfl
          have hl₃ : s₃.loaded = s.loaded := hl₃.trans (hl₂.trans hl₁)
          show Follows _ _ _ ((flushResults rows).bind _)
          refine Follows.bind (follows_flushResults (fun _ => trivial)
            (follows_flushAll_profile hs₃ fun r hr => ?_)) (fun _ _ _ => trivial)
            fun _ _ _ => trivial
          obtain ⟨hmem, hold⟩ := hrow hl₃ r (hids ▸ List.mem_map_of_mem hr)
          exact ⟨hmem, hold, hfits r hr⟩

theorem follows_applyProfileChanges_profile (hn : ids.Nodup) (hs : s.Fresh) :
    Follows (profileJob ids) (fun _ _ => True) s
      (do let _ ← applyProfileChanges env ids) := by
  have hclient : ∀ (s : Session) (device : Device),
      Follows (profileJob ids) (fun s' _ => s' = s) s (clientForDevice device) := by
    intro s device
    unfold clientForDevice
    split <;> rfl
  have hjob : Follows (profileJob ids) (fun _ _ => True) s (applyProfileChanges env ids) := by
    refine Follows.bind (follows_loadChanges_profile hn hs) (fun s₁ rows hz => ?_)
      fun _ _ _ => trivial
    obtain ⟨hs₁, -, hz⟩ := hz
    obtain ⟨hsub, hl⟩ := hz rows rfl
    cases rows with
    | nil => trivial
    | cons first others =>
      refine ⟨trivial, fun device _ => ?_⟩
      cases device with
      | none => trivial
      | some device =>
        show Follows _ _ _ ((clientForDevice device).bind _)
        refine Follows.bind (hclient _ device) (fun s₂ _ hz => ?_) fun _ _ _ => trivial
        obtain rfl := hz
        refine ⟨trivial, fun now _ => ?_⟩
        show Follows _ _ _ ((applyProfileSequence env (first :: others) _ now).bind _)
        refine Follows.bind (follows_applyProfileSequence_profile hn
          (by exact hs₁) hsub (by exact hl) _ now) (fun s₃ _ _ => ?_) fun _ _ _ => trivial
        exact ⟨trivial, fun _ _ => ⟨trivial, fun _ _ => trivial⟩⟩
  exact Follows.bind hjob (fun _ _ _ => trivial) fun _ _ _ => trivial

end Job

/-! ### Everyone together -/

/-- The discipline of all sessions: the job of the profile follows its own, the
others leave the members alone. -/
def together (ids : List ChangeId) : Discipline Eff Eff.Ans Session where
  allows s q :=
    if s.task = .job (.applyProfileChanges ids) then (profileJob ids).allows s q
    else (bystander ids).allows s q
  admits s q a :=
    if s.task = .job (.applyProfileChanges ids) then (profileJob ids).admits s q a
    else (bystander ids).admits s q a
  next := Session.after

theorem Session.after_task (s : Session) (q : Eff) (a : q.Ans) : (s.after q a).task = s.task := by
  cases q <;> rfl

section Disciplines

variable {ids : List ChangeId} {s : Session} {t : Program Unit}
  {Z : Session → Except Raised Unit → Prop}

theorem together_allows_job (hs : s.task = .job (.applyProfileChanges ids)) (q : Eff) :
    (together ids).allows s q = (profileJob ids).allows s q := if_pos hs

theorem together_admits_job (hs : s.task = .job (.applyProfileChanges ids)) (q : Eff) (a : q.Ans) :
    (together ids).admits s q a = (profileJob ids).admits s q a := if_pos hs

theorem together_allows_other (hs : s.task ≠ .job (.applyProfileChanges ids)) (q : Eff) :
    (together ids).allows s q = (bystander ids).allows s q := if_neg hs

theorem together_admits_other (hs : s.task ≠ .job (.applyProfileChanges ids)) (q : Eff)
    (a : q.Ans) : (together ids).admits s q a = (bystander ids).admits s q a := if_neg hs

theorem follows_together_job (hs : s.task = .job (.applyProfileChanges ids))
    (h : Follows (profileJob ids) Z s t) : Follows (together ids) Z s t := by
  refine Follows.weaken (I := fun s => s.task = .job (.applyProfileChanges ids))
    (fun s q hs hq => ?_) (fun s q a hs ha => ?_) (fun s q a hs => ⟨by rfl, ?_⟩) hs h
  · rw [together_allows_job hs]
    exact hq
  · rw [together_admits_job hs] at ha
    exact ha
  · exact (s.after_task q a).trans hs

theorem follows_together_bystander (hs : s.task ≠ .job (.applyProfileChanges ids))
    (h : Follows (bystander ids) Z s t) : Follows (together ids) Z s t := by
  refine Follows.weaken (I := fun s => s.task ≠ .job (.applyProfileChanges ids))
    (fun s q hs hq => ?_) (fun s q a hs ha => ?_) (fun s q a hs => ⟨by rfl, ?_⟩) hs h
  · rw [together_allows_other hs]
    exact hq
  · rw [together_admits_other hs] at ha
    exact ha
  · exact fun he => hs ((s.after_task q a).symm.trans he)

end Disciplines

/-- The members that were pushed, in the order of the pushes. -/
def memberPushes (ids : List ChangeId) (log : List LogEntry) : List ChangeId :=
  log.filterMap fun entry =>
    match entry with
    | .pushed c => if c ∈ ids then some c else none
    | _ => none

def profileJobs (ids : List ChangeId) (queue : List (Job × Option Time)) : Nat :=
  queue.countP fun e => e.1 = .applyProfileChanges ids

/-- Session `i` runs the job of the profile. -/
def World.runs (ids : List ChangeId) (w : World Box) (i : Nat) : Prop :=
  (w.sessions i).task = .job (.applyProfileChanges ids)

/-- What was pushed are members in order, and every member is scheduled or has
a status that goes with the pushes. -/
structure InStep (ids : List ChangeId) (w : World Box) : Prop where
  order : (memberPushes ids w.log).Sublist ids
  status : ∀ m ∈ ids, ∀ st, w.status m = some st →
    st = .scheduled ∨ Fits ids (memberPushes ids w.log) m st

/-- What holds while the session `s` runs the job of the profile: until its
commit, the members are scheduled, and it has loaded so what it writes. -/
structure Running (ids : List ChangeId) (w : World Box) (s : Session) : Prop
    extends InStep ids w where
  pushes : memberPushes ids w.log = s.pushes
  scheduled : s.committed = false → ∀ m ∈ ids, w.status m = some .scheduled
  written : s.committed = false → ∀ m ∈ ids, ∀ r, s.dirty m = some r →
    Fits ids s.pushes m r.status ∧ ∃ old, s.loaded m = some old ∧ old.status = .scheduled
  clean : s.committed = true → ∀ m ∈ ids, s.dirty m = none

/-- The one job of the profile waits, runs or has run. -/
inductive Turn (ids : List ChangeId) (w : World Box) : Prop
  | waiting : profileJobs ids w.queue = 1 → (∀ i, ¬ w.runs ids i) → memberPushes ids w.log = [] →
      (∀ m ∈ ids, w.status m = some .scheduled) → Turn ids w
  | running (i : Nat) : profileJobs ids w.queue = 0 → w.runs ids i → (∀ j, w.runs ids j → j = i) →
      Running ids w (w.sessions i) → Turn ids w
  | finished : profileJobs ids w.queue = 0 → (∀ i, ¬ w.runs ids i) → InStep ids w → Turn ids w

/-- A session with nothing to run is not the runner, and one that is not the
runner has no member to write. -/
structure Clear (ids : List ChangeId) (t : Option (Program Unit)) (s : Session) : Prop where
  idle : t = none → s.task ≠ .job (.applyProfileChanges ids)
  clean : s.task ≠ .job (.applyProfileChanges ids) → ∀ m ∈ ids, s.dirty m = none

/-- The invariant of the members. -/
structure TogetherInv (ids : List ChangeId) (sys : Sys Box) : Prop where
  follows : sys.AllFollow (together ids) (fun _ _ => True) id
  keyed : sys.world.Keyed
  used : ∀ m ∈ ids, m < sys.world.nextChange
  queue : ∀ e ∈ sys.world.queue, e.1 = .applyProfileChanges ids ∨ e.1.avoids ids
  sessions : ∀ i, Clear ids (sys.threads i) (sys.world.sessions i)
  turn : Turn ids sys.world

theorem Turn.inStep {ids : List ChangeId} {w : World Box} (h : Turn ids w) : InStep ids w := by
  cases h with
  | waiting _ _ hp hs =>
    refine ⟨by simp [hp], fun m hm st hst => .inl ?_⟩
    rw [hs m hm] at hst
    exact (Option.some.inj hst).symm
  | running i _ _ _ h => exact h.toInStep
  | finished _ _ h => exact h

section Frames

variable {ids : List ChangeId} {B : BoxModel Box} {w w' : World Box} {i : Nat} {s s' : Session}
  {q : Eff} {a : q.Ans}

theorem Job.ne_of_avoids (hids : ids ≠ []) {job : Job} (h : job.avoids ids) :
    job ≠ .applyProfileChanges ids := by
  rintro rfl
  obtain ⟨m, hm⟩ := List.exists_mem_of_ne_nil ids hids
  exact h m hm hm

theorem profileJobs_queued (hids : ids ≠ []) (h : ∀ job d, q = .enqueue job d → job.avoids ids)
    (queue : List (Job × Option Time)) :
    profileJobs ids (queue ++ q.queued) = profileJobs ids queue := by
  cases q with
  | enqueue job d =>
    have hne := Job.ne_of_avoids hids (h job d rfl)
    simp [profileJobs, Eff.queued, List.countP_append, hne]
  | _ => simp [Eff.queued]

theorem memberPushes_logged (h : ∀ m ∈ ids, q ≠ .beginPush m) (log : List LogEntry) :
    memberPushes ids (log ++ w.logged i q) = memberPushes ids log := by
  cases q with
  | beginPush m =>
    have hm : m ∉ ids := fun hm => h m hm rfl
    simp [memberPushes, World.logged, hm]
  | insertChange row => simp [memberPushes, World.logged]
  | request d r => simp [memberPushes, World.logged]
  | _ => simp [World.logged]

theorem answer_status (hw : w.answer B i q = some (a, w')) {m : ChangeId}
    (hm : q = .commit → (w.sessions i).dirty m = none) : w'.status m = w.status m := by
  by_cases hq : q = .commit
  · subst hq
    obtain ⟨-, rfl⟩ := Prod.mk.inj (Option.some.inj hw)
    show Option.map _ ((w.commit i).changes m) = _
    rw [commit_changes_of_clean w (hm rfl)]
    rfl
  · show Option.map _ (w'.changes m) = _
    rw [(answer_frame hw).changes hq]
    rfl

theorem InStep.congr (h : InStep ids w) (hp : memberPushes ids w'.log = memberPushes ids w.log)
    (hs : ∀ m ∈ ids, w'.status m = w.status m) : InStep ids w' where
  order := hp ▸ h.order
  status m hm st hst := by
    rw [hp]
    exact h.status m hm st (hs m hm ▸ hst)

theorem Running.congr (h : Running ids w s) (hp : memberPushes ids w'.log = memberPushes ids w.log)
    (hs : ∀ m ∈ ids, w'.status m = w.status m) (hpushes : s'.pushes = s.pushes)
    (hcommitted : s'.committed = s.committed) (hdirty : s'.dirty = s.dirty)
    (hloaded : s'.loaded = s.loaded) : Running ids w' s' where
  toInStep := h.toInStep.congr hp hs
  pushes := by rw [hp, h.pushes, hpushes]
  scheduled hc m hm := (hs m hm).trans (h.scheduled (hcommitted ▸ hc) m hm)
  written hc m hm r hr := by
    rw [hpushes, hloaded]
    exact h.written (hcommitted ▸ hc) m hm r (hdirty ▸ hr)
  clean hc m hm := by
    rw [hdirty]
    exact h.clean (hcommitted ▸ hc) m hm

theorem Turn.frame (h : Turn ids w) (hp : memberPushes ids w'.log = memberPushes ids w.log)
    (hs : ∀ m ∈ ids, w'.status m = w.status m)
    (hq : profileJobs ids w'.queue = profileJobs ids w.queue)
    (hr : ∀ j, w'.runs ids j → w.runs ids j)
    (hsess : ∀ j, w.runs ids j → w'.sessions j = w.sessions j) : Turn ids w' := by
  cases h with
  | waiting hj hno hpushes hst =>
    exact .waiting (hq.trans hj) (fun i hi => hno i (hr i hi)) (hp.trans hpushes) fun m hm =>
      (hs m hm).trans (hst m hm)
  | running i hj hi hone hrun =>
    refine .running i (hq.trans hj) ?_ (fun j hj => hone j (hr j hj)) ?_
    · show (w'.sessions i).task = _
      rw [hsess i hi]
      exact hi
    · rw [hsess i hi]
      exact hrun.congr hp hs rfl rfl rfl rfl
  | finished hj hno hin =>
    exact .finished (hq.trans hj) (fun i hi => hno i (hr i hi)) (hin.congr hp hs)

theorem Running.commit (h : Running ids w (w.sessions i)) :
    Running ids ((w.commit i).setSession i ((w.sessions i).after .commit ()))
      ((w.sessions i).after .commit ()) := by
  refine ⟨⟨h.order, fun m hm st hst => ?_⟩, h.pushes, nofun, nofun, fun _ _ _ => rfl⟩
  have hst : (w.commit i).status m = some st := hst
  cases hd : (w.sessions i).dirty m with
  | none =>
    rw [World.status, commit_changes_of_clean w hd] at hst
    exact h.status m hm st hst
  | some r =>
    have hc : (w.sessions i).committed = false := by
      cases hc : (w.sessions i).committed with
      | false => rfl
      | true =>
        rw [h.clean hc m hm] at hd
        cases hd
    obtain ⟨hfits, old, hold, hsched⟩ := h.written hc m hm r hd
    obtain ⟨base, hbase, -⟩ := Option.map_eq_some_iff.mp (h.scheduled hc m hm)
    -- the written status is final, so it differs from the loaded one
    have hne : r.status ≠ old.status := by
      rw [hsched]
      intro he
      have hterm := hfits.terminal
      rw [he] at hterm
      cases hterm
    have hr : st = r.status := by
      simpa [World.status, World.commit, World.mergeRow, hd, hold, hbase, Change.patch, overwrite, hne]
        using hst.symm
    rw [hr]
    exact .inr (h.pushes ▸ hfits)

/-- **One effect of the job of the profile.** -/
theorem Running.serve (h : Running ids w (w.sessions i))
    (hallow : (profileJob ids).allows (w.sessions i) q) (hw : w.answer B i q = some (a, w')) :
    Running ids (w'.setSession i ((w.sessions i).after q a)) ((w.sessions i).after q a) := by
  have hlog := (answer_frame hw).log
  have hsame : (∀ m ∈ ids, q ≠ .beginPush m) →
      memberPushes ids w'.log = memberPushes ids w.log := fun hq => by
    rw [hlog]
    exact memberPushes_logged hq w.log
  have hstatus : q ≠ .commit → ∀ m ∈ ids, w'.status m = w.status m := fun hq m _ =>
    answer_status hw fun he => absurd he hq
  cases q with
  | insertChange row => exact hallow.elim
  | closeSession => exact hallow.elim
  | commit =>
    obtain ⟨-, rfl⟩ := Prod.mk.inj (Option.some.inj hw)
    exact h.commit
  | beginPush m =>
    -- the next member is pushed, while all of them are still scheduled
    obtain ⟨hc, hd, hsub⟩ := hallow
    have hm : m ∈ ids := hsub.subset (List.mem_append_right _ List.mem_cons_self)
    have hp : memberPushes ids w'.log = (w.sessions i).pushes ++ [m] := by
      rw [hlog, ← h.pushes]
      simp [memberPushes, World.logged, hm]
    have hsched : ∀ m ∈ ids, w'.status m = some .scheduled := fun m hm =>
      (hstatus (by simp) m hm).trans (h.scheduled hc m hm)
    refine ⟨⟨hp ▸ hsub, fun m hm st hst => .inl ?_⟩, hp, fun _ => hsched, fun _ m _ r hr => ?_,
      fun _ m _ => hd m⟩
    · have hst : w'.status m = some st := hst
      rw [hsched m hm] at hst
      exact (Option.some.inj hst).symm
    · have hr : (w.sessions i).dirty m = some r := hr
      rw [hd m] at hr
      cases hr
  | getChange id =>
    obtain ⟨hc, -, hd⟩ := hallow
    refine ⟨h.toInStep.congr (hsame (by simp)) (hstatus (by simp)), (hsame (by simp)).trans h.pushes,
      fun _ m hm => (hstatus (by simp) m hm).trans (h.scheduled hc m hm), fun _ m _ r hr => ?_,
      fun _ m _ => hd m⟩
    have hr : (w.sessions i).dirty m = some r := hr
    rw [hd m] at hr
    cases hr
  | flushChange row =>
    -- a write stays in the session until the commit
    obtain ⟨hc, hid, hold, hfits⟩ := hallow
    refine ⟨h.toInStep.congr (hsame (by simp)) (hstatus (by simp)), (hsame (by simp)).trans h.pushes,
      fun _ m hm => (hstatus (by simp) m hm).trans (h.scheduled hc m hm), fun _ m hm r hr => ?_,
      fun hc' => ?_⟩
    · have hr : Function.update (w.sessions i).dirty row.id (some row) m = some r := hr
      by_cases hm' : m = row.id
      · rw [hm', Function.update_self] at hr
        obtain rfl := Option.some.inj hr
        exact hm' ▸ ⟨hfits, hold⟩
      · rw [Function.update_of_ne hm'] at hr
        exact h.written hc m hm r hr
    · have hc' : (w.sessions i).committed = true := hc'
      rw [hc] at hc'
      cases hc'
  | _ =>
    exact h.congr (hsame (by simp)) (hstatus (by simp)) rfl rfl rfl rfl

end Frames

/-! ### Runs -/

/-- The session and the key of the advisory lock that an event asks for, if it
asks for one. -/
def Sys.locking (sys : Sys Box) : Event → Option (Nat × Int)
  | .run i =>
    match sys.threads i with
    | some (.ask (.tryAdvisoryLock key) _) => some (i, key)
    | _ => none
  | _ => none

/-- If the event is the request for a lock by a sweep that has loaded a member
as scheduled, the lock is held by another session. -/
def SweepMisses (ids : List ChangeId) (sys : Sys Box) (e : Event) : Prop :=
  ∀ p ∈ sys.locking e, (sys.world.sessions p.1).task = .sweep →
    (sys.world.sessions p.1).holdsScheduled ids = true →
      sys.world.advisory p.2 ≠ none ∧ sys.world.advisory p.2 ≠ some p.1

instance (ids : List ChangeId) (sys : Sys Box) (e : Event) : Decidable (SweepMisses ids sys e) :=
  inferInstanceAs (Decidable (∀ p ∈ sys.locking e, (sys.world.sessions p.1).task = .sweep →
    (sys.world.sessions p.1).holdsScheduled ids = true →
      sys.world.advisory p.2 ≠ none ∧ sys.world.advisory p.2 ≠ some p.1))

/-- A request, if the event is one, names no member. -/
def Bypasses (ids : List ChangeId) : Event → Prop
  | .call _ c => c.avoids ids
  | _ => True

instance (ids : List ChangeId) : (e : Event) → Decidable (Bypasses ids e)
  | .call _ c => inferInstanceAs (Decidable (c.avoids ids))
  | .dequeue _ _ | .sweep _ | .run _ | .tick | .setLivePush _ => isTrue trivial

/-- The profile was just applied: its members are scheduled, their one job is
queued, and nothing that runs has to do with them. -/
structure Applied (ids : List ChangeId) (sys : Sys Box) : Prop where
  nodup : ids.Nodup
  keyed : sys.world.Keyed
  used : ∀ m ∈ ids, m < sys.world.nextChange
  scheduled : ∀ m ∈ ids, sys.world.status m = some .scheduled
  unpushed : ∀ m ∈ ids, LogEntry.pushed m ∉ sys.world.log
  job : profileJobs ids sys.world.queue = 1
  queue : ∀ e ∈ sys.world.queue, e.1 = .applyProfileChanges ids ∨ e.1.avoids ids
  others : sys.AllFollow (bystander ids) (fun _ _ => True) id
  tasks : ∀ i, ¬ sys.world.runs ids i
  clean : ∀ i, ∀ m ∈ ids, (sys.world.sessions i).dirty m = none

section Step

variable {ids : List ChangeId} {env : Env} {B : BoxModel Box} {sys sys' : Sys Box} {e : Event}

theorem Applied.inv (h : Applied ids sys) : TogetherInv ids sys where
  follows i t ht := follows_together_bystander (h.tasks i) (h.others i t ht)
  keyed := h.keyed
  used := h.used
  queue := h.queue
  sessions i := ⟨fun _ => h.tasks i, fun _ => h.clean i⟩
  turn := by
    refine .waiting h.job h.tasks ?_ h.scheduled
    refine List.filterMap_eq_nil_iff.mpr fun entry hentry => ?_
    cases entry with
    | pushed c =>
      have hc : c ∉ ids := fun hc => h.unpushed c hc hentry
      exact if_neg hc
    | created c => rfl
    | sent d p r => rfl

theorem TogetherInv.opens (h : TogetherInv ids sys) (hn : ids.Nodup)
    (hcall : Bypasses ids e) {i : Nat} {task : Task} {t : Program Unit}
    {queue : List (Job × Option Time)} (ho : Opens env sys.world.queue e i task t queue)
    (began : Time) : Follows (together ids) (fun _ _ => True) { began, task } t := by
  have hspare : ∀ {s : Session} {p : Program Unit}, Spares ids (fun _ => True) p →
      Follows (bystander ids) (fun _ _ => True) s p := fun hp => (hp _).mono fun _ _ _ => trivial
  cases ho with
  | call i c => exact follows_together_bystander nofun (hspare (Call.spares_program hcall))
  | sweep i => exact follows_together_bystander nofun (follows_sweepOrphanedActions_bystander rfl)
  | @job i n job deferUntil hmem =>
    by_cases hjob : job = .applyProfileChanges ids
    · subst hjob
      exact follows_together_job rfl (follows_applyProfileChanges_profile hn ⟨rfl, rfl, fun _ => rfl⟩)
    · refine follows_together_bystander (fun he => hjob (Task.job.inj he)) (hspare ?_)
      exact Job.spares_program ((h.queue _ (List.mem_of_getElem? hmem)).resolve_left hjob)

theorem TogetherInv.answers (h : TogetherInv ids sys) {i : Nat}
    (hsweep : SweepMisses ids sys (.run i)) {q : Eff} {k : q.Ans → Program Unit} {a : q.Ans}
    {w : World Box} (ht : sys.threads i = some (.ask q k))
    (hw : sys.world.answer B i q = some (a, w)) :
    (together ids).admits (sys.world.sessions i) q a := by
  by_cases hi : (sys.world.sessions i).task = .job (.applyProfileChanges ids)
  · rw [together_admits_job hi]
    cases q with
    | getChange id =>
      obtain ⟨rfl, -⟩ := Prod.mk.inj (Option.some.inj hw)
      exact h.keyed.changes id
    | _ => trivial
  · rw [together_admits_other hi]
    cases q with
    | getChange id =>
      obtain ⟨rfl, -⟩ := Prod.mk.inj (Option.some.inj hw)
      exact h.keyed.changes id
    | insertChange row =>
      obtain ⟨rfl, -⟩ := Prod.mk.inj (Option.some.inj hw)
      exact fun hm => lt_irrefl _ (h.used _ hm)
    | tryAdvisoryLock key =>
      intro htask hholds
      obtain ⟨hheld, hnot⟩ := hsweep (i, key) (by simp [Sys.locking, ht]) htask hholds
      have hheld : sys.world.advisory key ≠ none := hheld
      obtain ⟨j, hj⟩ := Option.ne_none_iff_exists'.mp hheld
      simp only [World.answer, hj] at hw
      obtain ⟨rfl, -⟩ := Prod.mk.inj (Option.some.inj hw)
      refine decide_eq_false fun he => hnot ?_
      rw [hj, he]
    | _ => trivial

theorem profileJobs_eraseIdx {queue : List (Job × Option Time)} {n : Nat} {job : Job}
    {d : Option Time} (h : queue[n]? = some (job, d)) :
    profileJobs ids queue = profileJobs ids (queue.eraseIdx n) +
      if job = .applyProfileChanges ids then 1 else 0 := by
  obtain ⟨hn, he⟩ := List.getElem?_eq_some_iff.mp h
  have hperm := List.getElem_cons_eraseIdx_perm hn
  rw [he] at hperm
  rw [profileJobs, profileJobs, ← hperm.countP_eq, List.countP_cons]
  simp

/-- A session is opened. -/
theorem TogetherInv.turn_opened (h : TogetherInv ids sys) {i : Nat} {task : Task}
    {t : Program Unit} {queue : List (Job × Option Time)} (hfree : sys.threads i = none)
    (ho : Opens env sys.world.queue e i task t queue) (began : Time) :
    Turn ids ({ sys.world with queue }.setSession i { began, task }) := by
  have hidle : ¬ sys.world.runs ids i := (h.sessions i).idle hfree
  have hother : ∀ j, j ≠ i →
      ({ sys.world with queue }.setSession i { began, task }).sessions j = sys.world.sessions j :=
    fun j hj => Function.update_of_ne hj _ _
  have hself : ({ sys.world with queue }.setSession i { began, task }).sessions i =
      { began, task } := Function.update_self _ _ _
  -- the runner, if there is one, is another session
  have hsess : ∀ j, sys.world.runs ids j →
      ({ sys.world with queue }.setSession i { began, task }).sessions j = sys.world.sessions j :=
    fun j hj => hother j fun he => hidle (he ▸ hj)
  have hruns : task ≠ .job (.applyProfileChanges ids) → ∀ j,
      ({ sys.world with queue }.setSession i { began, task }).runs ids j → sys.world.runs ids j := by
    intro htask j hj
    by_cases hji : j = i
    · rw [hji, World.runs, hself] at hj
      exact absurd hj htask
    · rwa [World.runs, hother j hji] at hj
  have hsame : queue = sys.world.queue → task ≠ .job (.applyProfileChanges ids) →
      Turn ids ({ sys.world with queue }.setSession i { began, task }) := fun hq htask =>
    h.turn.frame rfl (fun _ _ => rfl) (congrArg _ hq) (hruns htask) hsess
  cases ho with
  | call i c => exact hsame rfl nofun
  | sweep i => exact hsame rfl nofun
  | @job i n job deferUntil hmem =>
    have hcount : profileJobs ids sys.world.queue = profileJobs ids (sys.world.queue.eraseIdx n) +
        if job = .applyProfileChanges ids then 1 else 0 := profileJobs_eraseIdx hmem
    by_cases hjob : job = .applyProfileChanges ids
    · rw [if_pos hjob] at hcount
      cases h.turn with
      | waiting hone hno hpushes hsched =>
        refine .running i (by show profileJobs ids (sys.world.queue.eraseIdx n) = 0; omega) ?_
          (fun j hj => ?_) ?_
        · rw [World.runs, hself, hjob]
        · by_contra hji
          rw [World.runs, hother j hji] at hj
          exact hno j hj
        · rw [hself]
          exact ⟨h.turn.inStep.congr rfl fun _ _ => rfl, hpushes, fun _ => hsched, fun _ _ _ => nofun,
            nofun⟩
      | running _ hzero => omega
      | finished hzero => omega
    · rw [if_neg hjob] at hcount
      exact h.turn.frame rfl (fun _ _ => rfl) hcount.symm
        (hruns fun he => hjob (Task.job.inj he)) hsess

theorem TogetherInv.turn_ended (h : TogetherInv ids sys) (i : Nat) :
    Turn ids ((sys.world.rollback i).setSession i {}) := by
  have hother : ∀ j, j ≠ i → ((sys.world.rollback i).setSession i {}).sessions j =
      sys.world.sessions j := fun j hj => Function.update_of_ne hj _ _
  have hruns : ∀ j, ((sys.world.rollback i).setSession i {}).runs ids j →
      j ≠ i ∧ sys.world.runs ids j := by
    intro j hj
    by_cases hji : j = i
    · rw [hji, World.runs, World.setSession_sessions, Function.update_self] at hj
      cases hj
    · rw [World.runs, hother j hji] at hj
      exact ⟨hji, hj⟩
  by_cases hi : sys.world.runs ids i
  · cases h.turn with
    | waiting _ hno => exact absurd hi (hno i)
    | running r hzero hr hone hrun =>
      refine .finished hzero (fun j hj => ?_) (hrun.toInStep.congr rfl fun _ _ => rfl)
      exact (hruns j hj).1 ((hone j (hruns j hj).2).trans (hone i hi).symm)
    | finished _ hno => exact absurd hi (hno i)
  · refine h.turn.frame rfl (fun _ _ => rfl) rfl (fun j hj => (hruns j hj).2) fun j hj => ?_
    exact hother j fun he => hi (he ▸ hj)

/-- An effect is served. -/
theorem TogetherInv.turn_served (h : TogetherInv ids sys) (hids : ids ≠ []) {i : Nat} {q : Eff}
    {k : q.Ans → Program Unit} {a : q.Ans} {w : World Box}
    (ht : sys.threads i = some (.ask q k)) (hw : sys.world.answer B i q = some (a, w)) :
    Turn ids (w.setSession i ((sys.world.sessions i).after q a)) := by
  have hallow : (together ids).allows (sys.world.sessions i) q := (h.follows i _ ht).1
  have hother : ∀ j, j ≠ i →
      (w.setSession i ((sys.world.sessions i).after q a)).sessions j = sys.world.sessions j := by
    intro j hj
    rw [World.setSession_sessions, Function.update_of_ne hj, World.answer_sessions hw]
  have hself : (w.setSession i ((sys.world.sessions i).after q a)).sessions i =
      (sys.world.sessions i).after q a := Function.update_self _ _ _
  have hruns : ∀ j, (w.setSession i ((sys.world.sessions i).after q a)).runs ids j →
      sys.world.runs ids j := by
    intro j hj
    by_cases hji : j = i
    · rw [hji, World.runs, hself, Session.after_task] at hj
      exact hji ▸ hj
    · rwa [World.runs, hother j hji] at hj
  have hjobs : (∀ job d, q = .enqueue job d → job.avoids ids) →
      profileJobs ids w.queue = profileJobs ids sys.world.queue := fun hq => by
    rw [(answer_frame hw).queue]
    exact profileJobs_queued hids hq sys.world.queue
  by_cases hi : sys.world.runs ids i
  · rw [together_allows_job hi] at hallow
    have hjobs := hjobs (by rintro job d rfl; exact hallow)
    cases h.turn with
    | waiting _ hno => exact absurd hi (hno i)
    | running r hzero hr hone hrun =>
      obtain rfl := hone i hi
      refine .running i (hjobs.trans hzero) ?_ (fun j hj => hone j (hruns j hj)) ?_
      · rw [World.runs, hself, Session.after_task]
        exact hi
      · rw [hself]
        exact hrun.serve hallow hw
    | finished _ hno => exact absurd hi (hno i)
  · rw [together_allows_other hi] at hallow
    have hpush : ∀ m ∈ ids, q ≠ .beginPush m := by
      rintro m hm rfl
      exact hallow hm
    refine h.turn.frame ?_ (fun m hm => ?_) (hjobs (by rintro job d rfl; exact hallow)) hruns
      fun j hj => hother j fun he => hi (he ▸ hj)
    · show memberPushes ids w.log = _
      rw [(answer_frame hw).log]
      exact memberPushes_logged hpush sys.world.log
    · exact answer_status hw fun _ => (h.sessions i).clean hi m hm

theorem TogetherInv.clean_served (h : TogetherInv ids sys) {i : Nat} {q : Eff}
    {k : q.Ans → Program Unit} {a : q.Ans} {w : World Box}
    (ht : sys.threads i = some (.ask q k)) (hw : sys.world.answer B i q = some (a, w))
    (hi : ¬ sys.world.runs ids i) {m : ChangeId} (hm : m ∈ ids) :
    ((sys.world.sessions i).after q a).dirty m = none := by
  have hallow : (together ids).allows (sys.world.sessions i) q := (h.follows i _ ht).1
  rw [together_allows_other hi] at hallow
  have hclean := (h.sessions i).clean hi m hm
  cases q with
  | insertChange row =>
    obtain ⟨rfl, -⟩ := Prod.mk.inj (Option.some.inj hw)
    have hne : m ≠ sys.world.nextChange := (h.used m hm).ne
    exact (Function.update_of_ne hne _ _).trans hclean
  | flushChange row =>
    have hne : m ≠ row.id := fun he => hallow (he ▸ hm)
    exact (Function.update_of_ne hne _ _).trans hclean
  | commit => rfl
  | closeSession => rfl
  | _ => exact hclean

theorem TogetherInv.queue_served (h : TogetherInv ids sys) {i : Nat} {q : Eff}
    {k : q.Ans → Program Unit} {a : q.Ans} {w : World Box}
    (ht : sys.threads i = some (.ask q k)) (hw : sys.world.answer B i q = some (a, w)) :
    ∀ e ∈ w.queue, e.1 = .applyProfileChanges ids ∨ e.1.avoids ids := by
  intro e he
  have hallow : (together ids).allows (sys.world.sessions i) q := (h.follows i _ ht).1
  rw [(answer_frame hw).queue] at he
  rcases List.mem_append.mp he with he | he
  · exact h.queue e he
  · cases q with
    | enqueue job d =>
      obtain rfl := List.mem_singleton.mp he
      by_cases hi : sys.world.runs ids i
      · rw [together_allows_job hi] at hallow
        exact .inr hallow
      · rw [together_allows_other hi] at hallow
        exact .inr hallow
    | _ => cases he

/-- **One event keeps the members together**, if a sweep does not obtain the
lock for one of them. -/
theorem TogetherInv.step (h : TogetherInv ids sys) (hn : ids.Nodup) (hids : ids ≠ [])
    (hcall : Bypasses ids e) (hsweep : SweepMisses ids sys e)
    (hstep : sys.step env B e = some sys') : TogetherInv ids sys' := by
  have hfollows : sys'.AllFollow (together ids) (fun _ _ => True) id := by
    refine follows_step (fun _ _ _ => rfl) hstep (fun i task t queue ho => ?_)
      (fun i q k a w he ht hw => ?_) h.follows
    · exact h.opens hn hcall ho _
    · subst he
      exact h.answers hsweep ht hw
  have hkeyed := h.keyed.step hstep
  -- one session moves, the others are as clear as they were
  have hclear : ∀ {i : Nat} {t : Option (Program Unit)} {s : Session}, Clear ids t s →
      ∀ j, Clear ids (Function.update sys.threads i t j)
        (Function.update sys.world.sessions i s j) := by
    intro i t s hi j
    by_cases hji : j = i
    · rw [hji, Function.update_self, Function.update_self]
      exact hi
    · rw [Function.update_of_ne hji, Function.update_of_ne hji]
      exact h.sessions j
  cases Sys.step_moves hstep with
  | @opened _ i task t queue hfree ho =>
    refine ⟨hfollows, hkeyed, h.used, fun e he => ?_, hclear ⟨nofun, fun _ _ _ => rfl⟩,
      h.turn_opened hfree ho _⟩
    cases ho with
    | call | sweep => exact h.queue e he
    | job => exact h.queue e (List.mem_of_mem_eraseIdx he)
  | @ended i t ht hend =>
    exact ⟨hfollows, hkeyed, h.used, h.queue, hclear ⟨fun _ => nofun, fun _ _ _ => rfl⟩,
      h.turn_ended i⟩
  | @served i q k a w ht hw =>
    refine ⟨hfollows, hkeyed, fun m hm => ?_, fun e he => h.queue_served ht hw e he, fun j => ?_,
      h.turn_served hids ht hw⟩
    · exact (h.used m hm).trans_le (answer_frame hw).nextChange
    · rw [World.setSession_sessions, World.answer_sessions hw]
      have hi : Clear ids (some (k a)) ((sys.world.sessions i).after q a) := by
        refine ⟨nofun, fun hi m hm => ?_⟩
        rw [Session.after_task] at hi
        exact h.clean_served ht hw hi hm
      exact hclear hi j
  | passed =>
    exact ⟨hfollows, hkeyed, h.used, h.queue, h.sessions,
      h.turn.frame rfl (fun _ _ => rfl) rfl (fun _ hj => hj) fun _ _ => rfl⟩

end Step

/-- The members of the profile are together: those that were pushed came in
order, none after one that failed, and none is a conflict if any was
pushed. -/
structure Together (ids : List ChangeId) (w : World Box) : Prop where
  order : (memberPushes ids w.log).Sublist ids
  failed : ∀ m ∈ ids, w.status m = some .failed →
    ∀ b ∈ memberPushes ids w.log, ids.idxOf b ≤ ids.idxOf m
  conflict : ∀ m ∈ ids, w.status m = some .conflict → memberPushes ids w.log = []

theorem InStep.together {ids : List ChangeId} {w : World Box} (h : InStep ids w) :
    Together ids w where
  order := h.order
  failed m hm hst := ((h.status m hm _ hst).resolve_left nofun).failed rfl
  conflict m hm hst := ((h.status m hm _ hst).resolve_left nofun).conflict rfl

/-- **The members of an applied profile stay together** in every state of every
run, as long as no sweep obtains the lock for a member that it has loaded as
scheduled. -/
theorem profile_together (env : Env) (B : BoxModel Box) (ids : List ChangeId)
    {init last : Sys Box} {es : List Event} (h₀ : Applied ids init)
    (hrun : runAll (Sys.step env B) init es = some last)
    (hsteps : Along (Sys.step env B) (fun s e => Bypasses ids e ∧ SweepMisses ids s e) init es) :
    Together ids last.world := by
  by_cases hids : ids = []
  · subst hids
    have hnone : memberPushes [] last.world.log = [] := by
      refine List.filterMap_eq_nil_iff.mpr fun entry _ => ?_
      cases entry <;> simp
    exact ⟨by rw [hnone], nofun, nofun⟩
  · have hlast : TogetherInv ids last :=
      runAll_invariant (fun _ _ _ h hG hs => h.step h₀.nodup hids hG.1 hG.2 hs) h₀.inv hsteps hrun
    exact hlast.turn.inStep.together

/-! ### A profile taken apart -/

/-- A scheduled change that adds an alias, proposed for the configuration
without aliases. -/
def aliasMember (id : ChangeId) (name : String) : Change :=
  { webDraft with
    id, target := name, status := .scheduled
    payload := [("name", .str name), ("type", .str "host"), ("content", .str "10.0.0.1")]
    baselineHash := "095c6c6552b486ae9786f2683d1e71230128c6bb275d87ea7ed6d1442f856482" }

/-- A profile with two members, applied to a device for which another change
is scheduled, too. -/
def appliedProfile : Sys Bool :=
  let rest := resting [aliasMember 1 "web", aliasMember 2 "mail",
    { aliasMember 3 "dns" with baselineHash := "stale" }] [] false
  { rest with
    world := { rest.world with
      queue := [(.applyProfileChanges [1, 2], none), (.applyConfigChange 3, none)] } }

theorem appliedProfile_applied : Applied [1, 2] appliedProfile where
  nodup := by decide
  keyed := ⟨fun id r h => by simpa using List.find?_some h, fun _ _ _ => nofun⟩
  used := by decide
  scheduled := by decide
  unpushed := by decide
  job := by decide
  queue := by decide
  others _ _ := nofun
  tasks _ := nofun
  clean _ _ _ := rfl

/-- The job of the other change holds the lock while the job of the profile
asks for it. The sweeper finds both members overdue and queues a job for each,
and the second of them finds what the first has changed. -/
def splitMembers : List Event :=
  .dequeue 3 1 :: steps 3 4 ++ .dequeue 1 0 :: steps 1 8 ++ steps 3 5 ++
  List.replicate 6 .tick ++ .sweep 4 :: steps 4 16 ++
  .dequeue 5 2 :: steps 5 16 ++ .dequeue 6 2 :: steps 6 9

/-- The first member is pushed, and nothing but that has changed the box; the
second member ends as a conflict. -/
theorem splitMembers_conflict :
    Applied [1, 2] appliedProfile ∧
    ∃ last, runAll (Sys.step webEnv webBox) appliedProfile splitMembers = some last ∧
      (∀ entry ∈ last.world.log, ∀ d p r, entry = .sent d p r → p = some 1) ∧
      last.world.status 2 = some .conflict ∧ ¬ Together [1, 2] last.world := by
  refine ⟨appliedProfile_applied, ?_⟩
  have hend : (runAll (Sys.step webEnv webBox) appliedProfile splitMembers).map (fun s =>
      (memberPushes [1, 2] s.world.log, s.world.status 2,
        s.world.log.all fun entry =>
          match entry with
          | .sent _ p _ => p = some 1
          | _ => true)) = some ([1], some .conflict, true) := by
    decide +kernel
  obtain ⟨last, hrun, hlast⟩ := Option.map_eq_some_iff.mp hend
  obtain ⟨hpushes, hstatus, hsent⟩ : _ ∧ _ ∧ _ := by simpa using hlast
  refine ⟨last, hrun, fun entry hentry d p r he => ?_, hstatus, fun h => ?_⟩
  · subst he
    simpa using hsent _ hentry
  · have hnone := h.conflict 2 (by decide) hstatus
    rw [hpushes] at hnone
    cases hnone

/-- The job of the profile runs; meanwhile a sweep finds the members overdue,
but the lock is held. -/
def sweptMeanwhile : List Event :=
  .dequeue 1 0 :: steps 1 5 ++ List.replicate 6 .tick ++ .sweep 4 :: steps 4 13 ++ steps 1 14

/-- Both members are pushed, in order. -/
theorem sweptMeanwhile_together :
    ∃ last, runAll (Sys.step webEnv webBox) appliedProfile sweptMeanwhile = some last ∧
      memberPushes [1, 2] last.world.log = [1, 2] ∧ Together [1, 2] last.world := by
  have hend : (runAll (Sys.step webEnv webBox) appliedProfile sweptMeanwhile).map (fun s =>
      memberPushes [1, 2] s.world.log) = some [1, 2] := by
    decide +kernel
  obtain ⟨last, hrun, hpushes⟩ := Option.map_eq_some_iff.mp hend
  exact ⟨last, hrun, hpushes, profile_together webEnv webBox [1, 2] appliedProfile_applied hrun
    (by decide +kernel)⟩

end Opngms
