/-
Opngms/ProfileSequence.lean

What `apply_profile_sequence` does to the members of a profile
(`app/services/config_push.py`).

The loop over the members carries one flag, `aborted`, set by the first member
that fails and never cleared: before it every member is applied, after it no
applier is called any more.  Around the loop there are four early exits, none
of which calls an applier.  The members that are not scheduled are filtered
out and come back as they went in.

Main result: **`profile_statuses`**, along every path of the program, that is
for every list of members and whatever the lock, the box and the appliers
answer.
-/
import Opngms.RollbackPoint

namespace Opngms

open Dialogue

/-! ### One member -/

/-- The exception ends the run at the change: `apply_for_kind` raised it and the
loop does not catch it, or the column refuses the result that was returned. -/
def Escapes (live : Bool) (c : Change) (e : Raised) : Prop :=
  (applyFailure e = none ∧
    ∃ t, Path (applyForKind c.kind c.operation c.payload !live) t (.error e)) ∨
  e = .dataError ∧
    ∃ t a, Path (applyForKind c.kind c.operation c.payload !live) t (.ok a) ∧ a.storable = false

theorem path_onBox {α : Type} {device : DeviceId} {p : Client α} {t : Trace} {z : Except Raised α}
    (h : Path (onBox device p) t z) : ∃ t', Path p t' z ∧ t.requests = wireOf t' := by
  induction p generalizing t with
  | pure a =>
    cases h
    exact ⟨[], .pure a, rfl⟩
  | raise x =>
    cases h
    exact ⟨[], .raise x, rfl⟩
  | ask r k ih =>
    obtain - | - | ⟨a, h⟩ := h
    obtain ⟨t', hp, ht⟩ := ih a h
    refine ⟨⟨r, a⟩ :: t', Path.ask (A := fun _ : Request => Answer) a hp, ?_⟩
    exact congrArg ((r, a) :: ·) ht

theorem path_callApplier {client : DeviceId} {c : Change} {live : Bool} {t : Trace}
    {z : Except Raised Json} (h : Path (callApplier client c live) t z) :
    ∃ t', Path (applyForKind c.kind c.operation c.payload !live) t' z ∧ t.requests = wireOf t' := by
  cases live with
  | false => exact path_onBox h
  | true =>
    obtain - | - | ⟨a, h⟩ := h
    have h : Path (onBox client (applyForKind c.kind c.operation c.payload !true)) _ z := h
    obtain ⟨t', hp, ht⟩ := path_onBox h
    exact ⟨t', hp, ht⟩

theorem path_applyGuarded {client : DeviceId} {c : Change} {live : Bool} {now : Time} {t : Trace}
    {z : Except Raised Change} (h : Path (applyGuarded client c live now) t z) :
    (∃ c', z = .ok c' ∧ c'.id = c.id ∧ (c'.status = .applied ∨ c'.status = .failed)) ∨
      ∃ e, z = .error e ∧ Escapes live c e := by
  rcases Path.of_handle h with ⟨c', hbody, rfl⟩ | ⟨e, t₁, t₂, hbody, hcatch, rfl⟩
  · rcases Path.of_bind hbody with ⟨e, -, he⟩ | ⟨res, t₁, t₂, -, hend, rfl⟩
    · cases he
    · cases hend
      exact .inl ⟨_, rfl, rfl, .inl rfl⟩
  · rcases Path.of_bind hbody with ⟨e', hcall, he⟩ | ⟨res, t₃, t₄, -, hend, -⟩
    · obtain rfl := Except.error.inj he
      obtain ⟨t', hpath, -⟩ := path_callApplier hcall
      cases hcaught : applyFailure e with
      | some result =>
        rw [hcaught] at hcatch
        cases hcatch
        exact .inl ⟨_, rfl, rfl, .inr rfl⟩
      | none =>
        rw [hcaught] at hcatch
        cases hcatch
        exact .inr ⟨e, rfl, .inl ⟨hcaught, t', hpath⟩⟩
    · cases hend

theorem escapes_of_refused {client : DeviceId} {c c' : Change} {live : Bool} {now : Time} {t : Trace}
    (h : Path (applyGuarded client c live now) t (.ok c')) (hc : c'.result.storable = false) :
    Escapes live c .dataError := by
  rcases Path.of_handle h with ⟨_, hbody, he⟩ | ⟨e, t₁, t₂, -, hcatch, -⟩
  · obtain rfl := Except.ok.inj he
    rcases Path.of_bind hbody with ⟨e, -, he⟩ | ⟨res, t₁, t₂, hcall, hend, -⟩
    · cases he
    · cases hend
      obtain ⟨t', hpath, -⟩ := path_callApplier hcall
      exact .inr ⟨rfl, t', res, hpath, hc⟩
  · -- what is caught leaves a constant
    cases hcaught : applyFailure e with
    | some result =>
      rw [hcaught] at hcatch
      cases hcatch
      exact Bool.noConfusion (hc.symm.trans (applyFailure_storable hcaught))
    | none =>
      rw [hcaught] at hcatch
      cases hcatch

/-! ### The loop -/

/-- The members `cs` end as `done`: some are applied, the others failed, and
after the first that failed nothing is sent.  `sent` is what the loop sends,
member by member; with the flag set, it applies none and sends nothing. -/
structure InOrder (aborted : Bool) (cs done : List Change) (sent : Wire) (n : Nat)
    (wires : List Wire) : Prop where
  ids : done.map Change.id = cs.map Change.id
  statuses : done.map Change.status =
    List.replicate n .applied ++ List.replicate (cs.length - n) .failed
  le : n ≤ cs.length
  sent : sent = wires.flatten
  length : wires.length = cs.length
  quiet : ∀ w ∈ wires.drop (if aborted then 0 else n + 1), w = []
  none_applied : aborted = true → n = 0

section Loop

variable {client : DeviceId} {live : Bool} {snapId : Option SnapId} {now : Time}

/-- Induction over the members; the flag of the rest is whether this one failed. -/
theorem path_applyMembers {aborted : Bool} {cs : List Change} {t : Trace}
    {z : Except Raised (List Change)}
    (h : Path (applyMembers client live snapId now aborted cs) t z) :
    (∃ e, z = .error e ∧ ∃ c ∈ cs, Escapes live c e) ∨
      ∃ done n wires, z = .ok done ∧ InOrder aborted cs done t.requests n wires := by
  induction cs generalizing aborted t z with
  | nil =>
    have hnil : applyMembers client live snapId now aborted [] = .pure [] := by
      cases aborted <;> rfl
    rw [hnil] at h
    cases h
    exact .inr ⟨[], 0, [], rfl, rfl, rfl, le_rfl, rfl, rfl, by simp, fun _ => rfl⟩
  | cons c cs ih =>
    cases aborted with
    | true =>
      rcases Path.of_bind h with ⟨e, hrest, rfl⟩ | ⟨rest, t₁, t₂, hrest, hend, rfl⟩
      · rcases ih hrest with ⟨e', he, c', hc', hesc⟩ | ⟨done, n, wires, he, -⟩
        · exact .inl ⟨e', he, c', List.mem_cons_of_mem c hc', hesc⟩
        · cases he
      · rcases ih hrest with ⟨e', he, -⟩ | ⟨done, n, wires, hdone, hin⟩
        · cases he
        · obtain rfl := Except.ok.inj hdone
          cases hend
          obtain rfl := hin.none_applied rfl
          refine .inr ⟨_, 0, [] :: wires, rfl, ?_, ?_, Nat.zero_le _, ?_, ?_, ?_, fun _ => rfl⟩
          · exact congrArg (c.id :: ·) hin.ids
          · have hst := hin.statuses
            simp only [List.replicate_zero, List.nil_append, Nat.sub_zero] at hst ⊢
            rw [List.map_cons, hst, List.length_cons, List.replicate_succ]
          · rw [List.append_nil, hin.sent]
            rfl
          · rw [List.length_cons, List.length_cons, hin.length]
          · exact List.forall_mem_cons.mpr ⟨rfl, hin.quiet⟩
    | false =>
      rcases Path.of_bind h with ⟨e, hcall, rfl⟩ | ⟨c', t₁, t₂, hcall, htail, rfl⟩
      · rcases path_applyGuarded hcall with ⟨c', he, -⟩ | ⟨e', he, hesc⟩
        · cases he
        · obtain rfl := Except.error.inj he
          exact .inl ⟨e, rfl, c, List.mem_cons_self, hesc⟩
      rcases path_applyGuarded hcall with ⟨c₁, he, hid, hst⟩ | ⟨e', he, -⟩
      swap
      · cases he
      obtain rfl := Except.ok.inj he
      have htail : Path ((applyMembers client live snapId now (c'.status = .failed) cs).bind _)
        t₂ z := htail
      rcases Path.of_bind htail with ⟨e, hrest, rfl⟩ | ⟨rest, t₃, t₄, hrest, hend, rfl⟩
      · rcases ih hrest with ⟨e', he, c₂, hc₂, hesc⟩ | ⟨done, n, wires, he, -⟩
        · exact .inl ⟨e', he, c₂, List.mem_cons_of_mem c hc₂, hesc⟩
        · cases he
      rcases ih hrest with ⟨e', he, -⟩ | ⟨done, n, wires, hdone, hin⟩
      · cases he
      obtain rfl := Except.ok.inj hdone
      cases hend
      have hids : (c' :: rest).map Change.id = (c :: cs).map Change.id := by
        rw [List.map_cons, List.map_cons, hid, hin.ids]
      have hsent : Trace.requests (t₁ ++ (t₃ ++ [])) = (Trace.requests t₁ :: wires).flatten := by
        rw [List.append_nil, requests_append, hin.sent]
        rfl
      have hlen : (Trace.requests t₁ :: wires).length = (c :: cs).length := by
        rw [List.length_cons, List.length_cons, hin.length]
      rcases hst with hst | hst
      · -- applied: the rest goes on
        refine .inr ⟨_, n + 1, Trace.requests t₁ :: wires, rfl, hids, ?_, Nat.succ_le_succ hin.le, hsent,
          hlen, ?_, nofun⟩
        · rw [List.map_cons, hin.statuses, hst, List.length_cons, Nat.succ_sub_succ,
            List.replicate_succ]
          rfl
        · have hquiet := hin.quiet
          rw [hst] at hquiet
          exact hquiet
      · -- failed: the rest is only marked
        have hflag : (decide (c'.status = .failed)) = true := decide_eq_true hst
        obtain rfl := hin.none_applied hflag
        refine .inr ⟨_, 0, Trace.requests t₁ :: wires, rfl, hids, ?_, Nat.zero_le _, hsent, hlen, ?_,
          nofun⟩
        · rw [List.map_cons, hin.statuses, hst, List.length_cons]
          simp [List.replicate_succ]
        · have hquiet := hin.quiet
          rw [hflag] at hquiet
          exact hquiet

theorem escapes_of_applyMembers {aborted : Bool} {cs done : List Change} {t : Trace}
    (h : Path (applyMembers client live snapId now aborted cs) t (.ok done)) {d : Change}
    (hd : d ∈ done) (hno : d.result.storable = false) : ∃ c ∈ cs, Escapes live c .dataError := by
  induction cs generalizing aborted t done with
  | nil =>
    have hnil : applyMembers client live snapId now aborted [] = .pure [] := by
      cases aborted <;> rfl
    rw [hnil] at h
    cases h
    cases hd
  | cons c cs ih =>
    cases aborted with
    | true =>
      rcases Path.of_bind h with ⟨e, -, he⟩ | ⟨rest, t₁, t₂, hrest, hend, -⟩
      · cases he
      · cases hend
        rcases List.mem_cons.mp hd with rfl | hd
        · cases hno
        · obtain ⟨c', hc', hesc⟩ := ih hrest hd
          exact ⟨c', List.mem_cons_of_mem c hc', hesc⟩
    | false =>
      rcases Path.of_bind h with ⟨e, -, he⟩ | ⟨c', t₁, t₂, hcall, htail, -⟩
      · cases he
      have htail : Path ((applyMembers client live snapId now (c'.status = .failed) cs).bind _)
        t₂ (.ok done) := htail
      rcases Path.of_bind htail with ⟨e, -, he⟩ | ⟨rest, t₃, t₄, hrest, hend, -⟩
      · cases he
      · cases hend
        rcases List.mem_cons.mp hd with rfl | hd
        · have hesc := escapes_of_refused hcall hno
          exact ⟨c, List.mem_cons_self, hesc⟩
        · obtain ⟨c₂, hc₂, hesc⟩ := ih hrest hd
          exact ⟨c₂, List.mem_cons_of_mem c hc₂, hesc⟩

end Loop

/-! ### The members that were scheduled -/

/-- The members as the caller then holds them: the scheduled ones in their new
values. -/
def merged (changes new : List Change) : List Change :=
  changes.map fun c => (new.find? fun n => n.id = c.id ∧ c.status = .scheduled).getD c

/-- Of the members after the run, those that were scheduled before it. -/
def touched (changes members : List Change) : List Change :=
  ((changes.zip members).filter fun p => p.1.status = .scheduled).map Prod.snd

theorem merged_spec {changes new : List Change} (hn : (changes.map Change.id).Nodup)
    (hnew : new.map Change.id =
      (changes.filter fun c => c.status = .scheduled).map Change.id) :
    List.Forall₂ (fun c m => c.status ≠ .scheduled → m = c) changes (merged changes new) ∧
      touched changes (merged changes new) = new := by
  induction changes generalizing new with
  | nil =>
    obtain rfl := List.map_eq_nil_iff.mp hnew
    exact ⟨.nil, rfl⟩
  | cons c cs ih =>
    obtain ⟨hc, hcs⟩ := List.nodup_cons.mp hn
    by_cases hst : c.status = .scheduled
    · rw [List.filter_cons_of_pos (by simpa using hst), List.map_cons] at hnew
      obtain ⟨n, ns, rfl, hid, hns⟩ := List.map_eq_cons_iff.mp hnew
      obtain ⟨hframe, htouched⟩ := ih hcs hns
      have hhead : ((n :: ns).find? fun n => n.id = c.id ∧ c.status = .scheduled).getD c = n := by
        rw [List.find?_cons_of_pos (by simp [hid, hst])]
        rfl
      have htail : merged cs (n :: ns) = merged cs ns := by
        refine List.map_congr_left fun c' hc' => ?_
        have hne : n.id ≠ c'.id := by
          rw [hid]
          exact fun he => hc (he ▸ List.mem_map_of_mem hc')
        rw [List.find?_cons_of_neg (by simp [hne])]
      have heq : merged (c :: cs) (n :: ns) = n :: merged cs ns := by
        rw [merged, List.map_cons, hhead, ← htail]
        rfl
      rw [heq]
      refine ⟨.cons (fun hne => absurd hst hne) hframe, ?_⟩
      rw [touched, List.zip_cons_cons, List.filter_cons_of_pos (by simpa using hst), List.map_cons]
      exact congrArg (n :: ·) htouched
    · rw [List.filter_cons_of_neg (by simpa using hst)] at hnew
      obtain ⟨hframe, htouched⟩ := ih hcs hnew
      have hhead : (new.find? fun n => n.id = c.id ∧ c.status = .scheduled).getD c = c := by
        rw [List.find?_eq_none.mpr fun n _ => by simp [hst]]
        rfl
      have heq : merged (c :: cs) new = c :: merged cs new := by
        rw [merged, List.map_cons, hhead]
        rfl
      rw [heq]
      refine ⟨.cons (fun _ => rfl) hframe, ?_⟩
      rw [touched, List.zip_cons_cons, List.filter_cons_of_neg (by simpa using hst)]
      exact htouched

theorem touched_self (changes : List Change) :
    touched changes changes = changes.filter fun c => c.status = .scheduled := by
  induction changes with
  | nil => rfl
  | cons c cs ih =>
    by_cases hst : c.status = .scheduled
    · rw [touched, List.zip_cons_cons, List.filter_cons_of_pos (by simpa using hst), List.map_cons,
        List.filter_cons_of_pos (by simpa using hst)]
      exact congrArg (c :: ·) ih
    · rw [touched, List.zip_cons_cons, List.filter_cons_of_neg (by simpa using hst),
        List.filter_cons_of_neg (by simpa using hst)]
      exact ih

/-! ### The sequence -/

def Trace.Pushless (t : Trace) : Prop := t.requests = [] ∧ ∀ x ∈ t, ∀ id, x.1 ≠ .beginPush id

/-- How the scheduled members `cs` can end, as `done`, in a run with the exchanges `t`. -/
inductive SequenceEnd (cs done : List Change) (t : Trace) : Prop
  /-- The lock was missed. -/
  | locked : done = cs → t.Pushless → SequenceEnd cs done t
  /-- The configuration could not be read. -/
  | unread : (∀ c ∈ done, c.status = .failed) → t.Pushless → SequenceEnd cs done t
  /-- The configuration is not the one the profile was proposed for. -/
  | stale : (∀ c ∈ done, c.status = .conflict) → t.Pushless → SequenceEnd cs done t
  /-- The first `n` members are applied and the others failed; what was sent for each is listed
  in `wires`, and for those after the first that failed it is nothing. -/
  | inOrder (n : Nat) (wires : List Wire) :
      done.map Change.status =
        List.replicate n .applied ++ List.replicate (done.length - n) .failed →
      t.requests = wires.flatten → wires.length = done.length → (∀ w ∈ wires.drop (n + 1), w = []) →
      SequenceEnd cs done t

/-- The summary counts the members by the status that the run gave them. -/
structure Counts (done : List Change) (summary : ProfileSummary) : Prop where
  applied : summary.applied = done.countP fun c => c.status = .applied
  failed : summary.failed = done.countP fun c => c.status = .failed
  conflict : summary.conflict = done.countP fun c => c.status = .conflict

/-- What `apply_profile_sequence` answers. -/
structure SequenceResult (changes members : List Change) (summary : ProfileSummary) (t : Trace) :
    Prop where
  /-- Members that were not scheduled are left as they were. -/
  frame : List.Forall₂ (fun c m => c.status ≠ .scheduled → m = c) changes members
  statuses : SequenceEnd (changes.filter fun c => c.status = .scheduled)
    (touched changes members) t
  counts : Counts (touched changes members) summary

section Counting

variable {done : List Change}

theorem countP_status_all {st : Status} (h : ∀ c ∈ done, c.status = st) (st' : Status) :
    done.countP (fun c => c.status = st') = if st = st' then done.length else 0 := by
  split
  · rename_i he
    exact List.countP_eq_length.mpr fun c hc => by simp [h c hc, he]
  · rename_i hne
    exact List.countP_eq_zero.mpr fun c hc => by simp [h c hc, hne]

theorem counts_all (st : Status) (h : ∀ c ∈ done, c.status = st) {summary : ProfileSummary}
    (ha : summary.applied = if st = .applied then done.length else 0)
    (hf : summary.failed = if st = .failed then done.length else 0)
    (hc : summary.conflict = if st = .conflict then done.length else 0) : Counts done summary where
  applied := by rw [countP_status_all h, ha]
  failed := by rw [countP_status_all h, hf]
  conflict := by rw [countP_status_all h, hc]

theorem counts_inOrder {n m : Nat}
    (h : done.map Change.status = List.replicate n .applied ++ List.replicate m .failed) :
    Counts done {
      applied := (done.filter fun c => c.status = .applied).length
      failed := (done.filter fun c => c.status = .failed).length
      conflict := 0, status := "done" } where
  applied := List.countP_eq_length_filter.symm
  failed := List.countP_eq_length_filter.symm
  conflict := by
    refine (List.countP_eq_zero.mpr fun c hc => ?_).symm
    have hst : c.status ∈ done.map Change.status := List.mem_map_of_mem hc
    rw [h] at hst
    rcases List.mem_append.mp hst with hst | hst <;> simp [List.eq_of_mem_replicate hst]

end Counting

/-! ### Quiet parts -/

/-- The program calls no applier, sends nothing and does not raise. -/
def Quietly {α : Type} (p : Program α) : Prop :=
  ∀ (t : Trace) z, Path p t z → t.Pushless ∧ ∃ a, z = .ok a

theorem pushless_nil : Trace.Pushless [] := ⟨rfl, fun _ hx => absurd hx List.not_mem_nil⟩

theorem Trace.Pushless.append {t t' : Trace} (h : t.Pushless) (h' : t'.Pushless) :
    Trace.Pushless (t ++ t') := by
  refine ⟨by rw [requests_append, h.1, h'.1]; rfl, fun x hx => ?_⟩
  exact (List.mem_append.mp hx).elim (h.2 x) (h'.2 x)

/-- The effects of quiet programs. -/
def Eff.pushless : Eff → Prop
  | .beginPush _ | .request _ _ => False
  | _ => True

theorem pushless_cons {q : Eff} {a : q.Ans} {t : Trace} (hq : q.pushless) (h : t.Pushless) :
    Trace.Pushless (⟨q, a⟩ :: t) := by
  refine Trace.Pushless.append (t := [⟨q, a⟩]) ⟨requests_of_ne a fun d r he => ?_, ?_⟩ h
  · subst he
    exact hq
  · intro x hx id he
    obtain rfl := List.mem_singleton.mp hx
    subst he
    exact hq

section Quiet

variable {α β : Type} {env : Env}

theorem quietly_pure (a : α) : Quietly (.pure a : Program α) := by
  intro t z h
  cases h
  exact ⟨pushless_nil, a, rfl⟩

theorem quietly_ask {q : Eff} {k : q.Ans → Program α} (hq : q.pushless)
    (hk : ∀ a, Quietly (k a)) : Quietly (.ask q k) := by
  intro t z h
  obtain - | - | ⟨a, h⟩ := h
  obtain ⟨ht, hz⟩ := hk a _ _ h
  exact ⟨pushless_cons hq ht, hz⟩

theorem Quietly.of_bind {p : Program α} {f : α → Program β} (hp : Quietly p) {t : Trace}
    {z : Except Raised β} (h : Path (p.bind f) t z) :
    ∃ (a : α) (t₁ t₂ : Trace), Path p t₁ (.ok a) ∧ t₁.Pushless ∧ Path (f a) t₂ z ∧ t = t₁ ++ t₂ := by
  rcases Path.of_bind h with ⟨x, hx, -⟩ | ⟨a, t₁, t₂, h₁, h₂, ht⟩
  · obtain ⟨-, a, ha⟩ := hp _ _ hx
    cases ha
  · exact ⟨a, t₁, t₂, h₁, (hp _ _ h₁).1, h₂, ht⟩

theorem quietly_readConfig (client : DeviceId) : Quietly (readConfig env client) := by
  refine quietly_ask trivial fun r => ?_
  cases r with
  | error e => exact quietly_pure _
  | ok xml => exact quietly_pure _

theorem quietly_flushAll (cs : List Change) : Quietly (flushAll cs) := by
  induction cs with
  | nil => exact quietly_pure _
  | cons c cs ih => exact quietly_ask trivial fun _ => ih

theorem quietly_rollbackPoint (live : Bool) (change : Change) (xml : String) :
    Quietly (rollbackPoint env live change xml) := by
  cases live with
  | false => exact quietly_pure _
  | true => exact quietly_ask trivial fun _ => quietly_ask trivial fun _ => quietly_pure _

theorem path_flushAll {cs : List Change} {r : α} {t : Trace} {z : Except Raised α}
    (h : Path ((flushAll cs).bind fun _ => .pure r) t z) : t.Pushless ∧ z = .ok r := by
  obtain ⟨-, t₁, t₂, -, ht₁, hend, rfl⟩ := (quietly_flushAll cs).of_bind h
  cases hend
  exact ⟨ht₁.append pushless_nil, rfl⟩

theorem path_flushResults {cs : List Change} {r : α} {t : Trace} {z : Except Raised α}
    (h : Path ((flushResults cs).bind fun _ => .pure r) t z) :
    (z = .error .dataError ∧ ∃ c ∈ cs, c.result.storable = false) ∨ t.Pushless ∧ z = .ok r := by
  induction cs generalizing t with
  | nil =>
    cases h
    exact .inr ⟨pushless_nil, rfl⟩
  | cons c cs ih =>
    have h : Path ((flushResult c).bind fun _ => (flushResults cs).bind fun _ => .pure r) t z := by
      rw [← Dialogue.bind_assoc]
      exact h
    unfold flushResult at h
    split at h
    · obtain - | - | ⟨a, h⟩ := h
      rcases ih h with ⟨hz, d, hd, hno⟩ | ⟨ht, hz⟩
      · exact .inl ⟨hz, d, List.mem_cons_of_mem c hd, hno⟩
      · exact .inr ⟨pushless_cons trivial ht, hz⟩
    · cases h
      exact .inl ⟨rfl, c, List.mem_cons_self, Bool.eq_false_of_not_eq_true ‹_›⟩

theorem Trace.Pushless.requests_append {t : Trace} (h : t.Pushless) (t' : Trace) :
    Trace.requests (t ++ t') = t'.requests := by
  rw [Opngms.requests_append, h.1, List.nil_append]

theorem path_applied {client : DeviceId} {live : Bool} {snapId : Option SnapId} {now : Time}
    {members : List Change} {f : List Change → α} {t : Trace} {z : Except Raised α}
    (h : Path ((applyMembers client live snapId now false members).bind fun done =>
      (flushResults done).bind fun _ => .pure (f done)) t z) :
    (∃ e, z = .error e ∧ ∃ c ∈ members, Escapes live c e) ∨
      ∃ done n wires, z = .ok (f done) ∧ InOrder false members done t.requests n wires := by
  rcases Path.of_bind h with ⟨e, hloop, rfl⟩ | ⟨done, t₁, t₂, hloop, hend, rfl⟩
  · rcases path_applyMembers hloop with ⟨e', he, hesc⟩ | ⟨_, _, _, he, -⟩
    · obtain rfl := Except.error.inj he
      exact .inl ⟨e, rfl, hesc⟩
    · cases he
  · rcases path_applyMembers hloop with ⟨e', he, -⟩ | ⟨done', n, wires, he, hin⟩
    · cases he
    · obtain rfl := Except.ok.inj he
      rcases path_flushResults hend with ⟨rfl, d, hd, hno⟩ | ⟨ht₂, rfl⟩
      · exact .inl ⟨.dataError, rfl, escapes_of_applyMembers hloop hd hno⟩
      refine .inr ⟨done, n, wires, rfl, ?_⟩
      rwa [Opngms.requests_append, ht₂.1, List.append_nil]

end Quiet

/-! ### Every run -/

/-- **The members of a profile end as the sequence allows.**  The members that were not
scheduled stay as they were; the scheduled ones are untouched, all failed or all conflicting
with nothing sent, or some are applied and the others failed, with nothing sent after the first
failure; the summary counts them.  Only an exception at a scheduled member ends the run
otherwise: one that its applier raised and that is neither an `OpnsenseError` nor an unknown kind,
or the one of the column that refuses its result. -/
theorem profile_statuses (env : Env) (changes : List Change)
    (hn : (changes.map Change.id).Nodup) (client : DeviceId) (now : Time) {t : Trace}
    {z : Except Raised (List Change × ProfileSummary)}
    (h : Path (applyProfileSequence env changes client now) t z) :
    (∃ members summary, z = .ok (members, summary) ∧ SequenceResult changes members summary t) ∨
      ∃ e live, z = .error e ∧ ∃ c ∈ changes, c.status = .scheduled ∧ Escapes live c e := by
  have hsame : List.Forall₂ (fun c m : Change => c.status ≠ .scheduled → m = c) changes changes :=
    List.forall₂_same.mpr fun _ _ _ => rfl
  have hkept : ∀ c ∈ touched changes changes, c.status = .scheduled := by
    rw [touched_self]
    exact fun c hc => by simpa using (List.mem_filter.mp hc).2
  have hpure : ∀ {r : List Change × ProfileSummary} {t : Trace}
      {z : Except Raised (List Change × ProfileSummary)},
      Path (.pure r : Program (List Change × ProfileSummary)) t z → t = [] ∧ z = .ok r := by
    intro r t z h
    cases h
    exact ⟨rfl, rfl⟩
  unfold applyProfileSequence at h
  split at h
  · rename_i hnone
    obtain ⟨rfl, rfl⟩ := hpure h
    refine .inl ⟨_, _, rfl, hsame, ?_, ?_⟩
    · exact .locked (touched_self changes) pushless_nil
    · exact counts_all .scheduled hkept rfl rfl rfl
  · rename_i first others hsched
    have hmem : ∀ c ∈ first :: others, c ∈ changes ∧ c.status = .scheduled := by
      intro c hc
      rw [← hsched] at hc
      simpa using List.mem_filter.mp hc
    -- the rows that were written, merged into the list of members
    have hresult : ∀ {new : List Change} {t : Trace} {summary : ProfileSummary},
        new.map Change.id = (first :: others).map Change.id →
        SequenceEnd (changes.filter fun c => c.status = .scheduled) new t → Counts new summary →
        SequenceResult changes (merged changes new) summary t := by
      intro new t summary hids hend hcounts
      obtain ⟨hframe, htouched⟩ := merged_spec hn (hids.trans (congrArg _ hsched.symm))
      exact ⟨hframe, htouched.symm ▸ hend, htouched.symm ▸ hcounts⟩
    obtain - | - | ⟨got, h⟩ := h
    cases got with
    | false =>
      obtain ⟨rfl, rfl⟩ := hpure h
      refine .inl ⟨_, _, rfl, hsame, ?_, ?_⟩
      · exact .locked (touched_self changes) (pushless_cons trivial pushless_nil)
      · exact counts_all .scheduled hkept rfl rfl rfl
    | true =>
      have h : Path ((readConfig env client).bind _) _ z := h
      obtain ⟨r, t₁, t₂, -, ht₁, h, rfl⟩ := (quietly_readConfig client).of_bind h
      cases r with
      | none =>
        obtain ⟨ht₂, rfl⟩ := path_flushAll h
        refine .inl ⟨_, _, rfl, hresult ?_ (.unread ?_ (pushless_cons trivial (ht₁.append ht₂))) ?_⟩
        · simp
        · simp
        · exact counts_all .failed (by simp) rfl (by simp) rfl
      | some r =>
        obtain ⟨xml, current⟩ := r
        dsimp only at h
        split at h
        · obtain ⟨ht₂, rfl⟩ := path_flushAll h
          refine .inl ⟨_, _, rfl, hresult ?_ (.stale ?_ (pushless_cons trivial (ht₁.append ht₂))) ?_⟩
          · simp
          · simp
          · exact counts_all .conflict (by simp) rfl rfl (by simp)
        · obtain - | - | ⟨row, h⟩ := h
          have h : Path ((rollbackPoint env (row.getD env.livePushEnabled) first xml).bind _) _ z := h
          obtain ⟨snapId, t₃, t₄, -, ht₃, htail, rfl⟩ :=
            (quietly_rollbackPoint _ first xml).of_bind h
          rcases path_applied htail with ⟨e, rfl, c, hc, hesc⟩ | ⟨done, n, wires, rfl, hin⟩
          · exact .inr ⟨e, _, rfl, c, (hmem c hc).1, (hmem c hc).2, hesc⟩
          have hlen : done.length = (first :: others).length := by
            rw [← List.length_map (f := Change.id), hin.ids, List.length_map]
          refine .inl ⟨_, _, rfl, hresult hin.ids (.inOrder n wires ?_ ?_ ?_ hin.quiet) ?_⟩
          · rw [hin.statuses, hlen]
          · show Trace.requests (t₁ ++ ([⟨.livePushRow, row⟩] ++ (t₃ ++ t₄))) = _
            rw [ht₁.requests_append]
            show Trace.requests (t₃ ++ t₄) = _
            rw [ht₃.requests_append, hin.sent]
          · rw [hin.length, hlen]
          · exact counts_inOrder hin.statuses

def addAlias (id : ChangeId) (name : String) (status : Status) : Change :=
  { webDraft with
    id, target := name, status
    payload := [("name", .str name), ("type", .str "host"), ("content", .str "10.0.0.1")] }

/-- A cancelled member and three scheduled ones, on a box that takes one alias: the second alias
is refused, and the third is not tried. -/
theorem profile_statuses_refused :
    ∃ t members summary, Path (applyProfileSequence webEnv
        [addAlias 1 "a" .cancelled, addAlias 2 "b" .scheduled, addAlias 3 "c" .scheduled,
          addAlias 4 "d" .scheduled] 1 0) t (.ok (members, summary)) ∧
      members.map Change.status = [.cancelled, .applied, .failed, .failed] ∧
      SequenceResult [addAlias 1 "a" .cancelled, addAlias 2 "b" .scheduled,
        addAlias 3 "c" .scheduled, addAlias 4 "d" .scheduled] members summary t := by
  have hexec : ((applyProfileSequence webEnv
      [addAlias 1 "a" .cancelled, addAlias 2 "b" .scheduled, addAlias 3 "c" .scheduled,
        addAlias 4 "d" .scheduled] 1 0).exec ((World.server webBox).serve 0)
      (restingWorld [] [] false)).map (fun r =>
        match r.2.1 with
        | .ok (members, _) => members.map Change.status
        | .error _ => []) = some [.cancelled, .applied, .failed, .failed] := by decide +kernel
  obtain ⟨⟨t, z, w⟩, hrun, hst⟩ := Option.map_eq_some_iff.mp hexec
  have hpath := (runs_of_exec hrun).path
  cases z with
  | error e => cases hst
  | ok r =>
    rcases profile_statuses webEnv _ (by decide) 1 0 hpath with ⟨members, summary, hz, hres⟩ | ⟨e, _, he, -⟩
    · obtain rfl := Except.ok.inj hz
      exact ⟨t, members, summary, hpath, hst, hres⟩
    · cases he

end Opngms
