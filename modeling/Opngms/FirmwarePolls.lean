/-
Opngms/FirmwarePolls.lean

The wait for an operation on the firmware (`poll_until_done` and
`_wait_until_reachable` in services/firmware_action.py).

The box is any sequence of replies: a status, or no answer, after which attempts to
connect fail or succeed in any pattern.  A status that is not "running" may be left over
from an earlier operation, so it ends the wait only after the operation was seen running,
or after a reboot, or as the last of the polls of grace (`Completes`).

The loop keeps two flags, and what they know of the replies so far is `Waiting`: nothing
has completed, no reboot was endless, and the flags say whether the operation was seen
under way and, if not, how many polls there were.  Each reply either ends the wait or
keeps `Waiting` one poll further, and from it **`pollUntilDone_exact`** reads off which
status is returned, when the wait fails, and that the budget is kept.
-/
import Opngms.FirmwareActions

namespace Opngms

namespace FirmwareActions

/-! ### The replies of the box -/

/-- What the box does at a poll. -/
inductive Reply where
  | status (st : Dict)
  /-- It is not reached; some of the attempts to connect that follow are answered. -/
  | unreachable (attempts : Nat → Option Json)

/-- `str(st.get("status", "")).lower() == "running"`. -/
def isRunning (st : Dict) : Prop := lowerAscii (Dict.getD st "status" (.str "")).pyStr = "running"

instance (st : Dict) : Decidable (isRunning st) :=
  inferInstanceAs (Decidable (lowerAscii _ = "running"))

namespace Reply

def Stopped (r : Reply) (st : Dict) : Prop := r = .status st ∧ ¬ isRunning st

/-- The box is reached again within the budget of a reboot. -/
def Recovered (r : Reply) : Prop :=
  ∃ attempts, r = .unreachable attempts ∧ ∃ n < rebootMaxPolls, (attempts n).isSome

/-- The reboot exceeds its budget. -/
def Lost (r : Reply) : Prop :=
  ∃ attempts, r = .unreachable attempts ∧ ∀ n < rebootMaxPolls, attempts n = none

def UnderWay (r : Reply) : Prop := (∃ st, r = .status st ∧ isRunning st) ∨ r.Recovered

end Reply

/-- The polls that were made, and the attempts to connect since the last of them. -/
structure Polled where
  polls : Nat
  attempts : Nat

/-- `test_connection` after a poll. -/
def connect (r : Reply) (n : Nat) : Answer :=
  match r with
  | .status _ => .ok .null
  | .unreachable attempts =>
    match attempts n with
    | some version => .ok version
    | none => .error .reachability

/-- `firmware_upgrade_status` of one reply. -/
def Reply.poll : Reply → Answer
  | .status st => .ok (.obj st)
  | .unreachable _ => .error .reachability

/-- The box answers the calls of a wait. -/
def serveReplies (replies : Nat → Reply) (s : Polled) : Call → Option (Answer × Polled)
  | .firmwareUpgradeStatus => some ((replies s.polls).poll, ⟨s.polls + 1, 0⟩)
  | .testConnection =>
    some (connect (replies (s.polls - 1)) s.attempts, ⟨s.polls, s.attempts + 1⟩)
  | _ => none

/-! ### Which reply completes the wait -/

section Wait

variable (replies : Nat → Reply)

/-- The i-th reply is the first status other than "running" after the first sign of the
operation, or the last of the polls of grace, all of which showed no such sign. -/
def Completes (i : Nat) (st : Dict) : Prop :=
  (replies i).Stopped st ∧
    ((∃ j < i, (replies j).UnderWay ∧ (∀ k < j, ¬ (replies k).UnderWay) ∧
        ∀ k, j < k → k < i → ∀ st', ¬ (replies k).Stopped st') ∨
      (i + 1 = startupGracePolls ∧ ∀ k < i, ∃ st', (replies k).Stopped st'))

def Uncompleted (i : Nat) : Prop := ∀ k < i, ∀ st, ¬ Completes replies k st

def Reachable (i : Nat) : Prop := ∀ k < i, ¬ (replies k).Lost

/-- What the flags of the loop know of the replies so far. -/
structure Waiting (i : Nat) (seenRunning : Bool) (idlePolls : Nat) : Prop where
  uncompleted : Uncompleted replies i
  reachable : Reachable replies i
  seen : seenRunning = true → ∃ j < i, (replies j).UnderWay
  idle : seenRunning = false → idlePolls = i ∧ ∀ k < i, ∃ st, (replies k).Stopped st

variable {replies} {i idlePolls : Nat} {seenRunning : Bool} {st : Dict}

theorem not_lost_of_stopped {r : Reply} (h : r.Stopped st) : ¬ r.Lost := by
  rintro ⟨attempts, hr, -⟩
  cases h.1.symm.trans hr

theorem not_lost_of_underWay {r : Reply} (h : r.UnderWay) : ¬ r.Lost := by
  rintro ⟨attempts, hr, hlost⟩
  rcases h with ⟨st, hst, -⟩ | ⟨attempts', hr', n, hn, hsome⟩
  · cases hst.symm.trans hr
  · obtain rfl := Reply.unreachable.inj (hr'.symm.trans hr)
    rw [hlost n hn] at hsome
    cases hsome

theorem not_stopped_of_underWay {r : Reply} (h : r.UnderWay) : ¬ r.Stopped st := by
  rintro ⟨hr, hnot⟩
  rcases h with ⟨st', hst, hrun⟩ | ⟨attempts, hr', -⟩
  · obtain rfl := Reply.status.inj (hst.symm.trans hr)
    exact hnot hrun
  · cases hr'.symm.trans hr

theorem reply_cases (r : Reply) : (∃ st, r.Stopped st) ∨ r.UnderWay ∨ r.Lost := by
  cases r with
  | status st =>
    by_cases hrun : isRunning st
    · exact .inr (.inl (.inl ⟨st, rfl, hrun⟩))
    · exact .inl ⟨st, rfl, hrun⟩
  | unreachable attempts =>
    by_cases hback : ∃ n < rebootMaxPolls, (attempts n).isSome
    · exact .inr (.inl (.inr ⟨attempts, rfl, hback⟩))
    · refine .inr (.inr ⟨attempts, rfl, fun n hn => ?_⟩)
      simpa using fun hsome => hback ⟨n, hn, hsome⟩

theorem Waiting.first (h : Waiting replies i true idlePolls) :
    ∃ j < i, (replies j).UnderWay ∧ (∀ k < j, ¬ (replies k).UnderWay) ∧
      ∀ k, j < k → k < i → ∀ st', ¬ (replies k).Stopped st' := by
  classical
  have hsome : ∃ j, j < i ∧ (replies j).UnderWay := h.seen rfl
  obtain ⟨hlt, hunder⟩ := Nat.find_spec hsome
  have hfirst : ∀ k < Nat.find hsome, ¬ (replies k).UnderWay := fun k hk hk' =>
    Nat.find_min hsome hk ⟨hk.trans hlt, hk'⟩
  refine ⟨Nat.find hsome, hlt, hunder, hfirst, ?_⟩
  -- the first such status would have completed the wait
  intro k
  induction k using Nat.strong_induction_on with
  | h k ih =>
    intro hjk hki st' hstopped
    refine h.uncompleted k hki st' ⟨hstopped, .inl ⟨_, hjk, hunder, hfirst, ?_⟩⟩
    exact fun k' hjk' hk' => ih k' hk' hjk' (hk'.trans hki)

theorem Waiting.completes_seen (h : Waiting replies i true idlePolls)
    (hst : (replies i).Stopped st) : Completes replies i st :=
  ⟨hst, .inl h.first⟩

theorem Waiting.completes_idle (h : Waiting replies i false idlePolls)
    (hst : (replies i).Stopped st) : Completes replies i st ↔ startupGracePolls ≤ idlePolls + 1 := by
  obtain ⟨rfl, hidle⟩ := h.idle rfl
  constructor
  · rintro ⟨-, ⟨j, hj, hunder, -, -⟩ | ⟨hgrace, -⟩⟩
    · obtain ⟨st', hst'⟩ := hidle j hj
      exact absurd hst' (not_stopped_of_underWay hunder)
    · exact hgrace.ge
  · intro hge
    have hgrace : ¬ startupGracePolls < idlePolls + 1 := by
      intro hlt
      -- the last poll of grace has passed, and it did not complete the wait
      have hpos : 0 < startupGracePolls := by decide
      have hbefore : startupGracePolls - 1 < idlePolls := by omega
      obtain ⟨st', hst'⟩ := hidle _ hbefore
      refine h.uncompleted _ hbefore st' ⟨hst', .inr ⟨by omega, fun k hk => ?_⟩⟩
      exact hidle k (hk.trans hbefore)
    exact ⟨hst, .inr ⟨by omega, hidle⟩⟩

theorem Uncompleted.succ (h : Uncompleted replies i) (hi : ∀ st, ¬ Completes replies i st) :
    Uncompleted replies (i + 1) := by
  intro k hk
  rcases Nat.lt_succ_iff_lt_or_eq.mp hk with hlt | rfl
  · exact h k hlt
  · exact hi

theorem Reachable.succ (h : Reachable replies i) (hi : ¬ (replies i).Lost) :
    Reachable replies (i + 1) := by
  intro k hk
  rcases Nat.lt_succ_iff_lt_or_eq.mp hk with hlt | rfl
  · exact h k hlt
  · exact hi

theorem Waiting.underWay (h : Waiting replies i seenRunning idlePolls)
    (hi : (replies i).UnderWay) (idlePolls' : Nat) : Waiting replies (i + 1) true idlePolls' where
  uncompleted := h.uncompleted.succ fun _ hst => not_stopped_of_underWay hi hst.1
  reachable := h.reachable.succ (not_lost_of_underWay hi)
  seen _ := ⟨i, Nat.lt_succ_self i, hi⟩
  idle := nofun

theorem Waiting.idling (h : Waiting replies i false idlePolls) (hst : (replies i).Stopped st)
    (hgrace : ¬ startupGracePolls ≤ idlePolls + 1) :
    Waiting replies (i + 1) false (idlePolls + 1) where
  uncompleted := by
    refine h.uncompleted.succ fun st' hst' => hgrace ?_
    obtain rfl := Reply.status.inj (hst.1.symm.trans hst'.1.1)
    exact (h.completes_idle hst).mp hst'
  reachable := h.reachable.succ (not_lost_of_stopped hst)
  seen := nofun
  idle _ := by
    obtain ⟨rfl, hidle⟩ := h.idle rfl
    refine ⟨rfl, fun k hk => ?_⟩
    rcases Nat.lt_succ_iff_lt_or_eq.mp hk with hlt | rfl
    · exact hidle k hlt
    · exact ⟨st, hst⟩

end Wait

/-! ### The calls of the loop -/

section Run

variable {replies : Nat → Reply} {i : Nat}

theorem play_waitUntilReachable {attempts : Nat → Option Json}
    (hi : replies i = .unreachable attempts) (polls n : Nat) :
    ∃ s : Polled, s.polls = i + 1 ∧
      ((∃ k < polls, (attempts (n + k)).isSome) →
        (waitUntilReachable polls).play (serveReplies replies) ⟨i + 1, n⟩ = some (.ok (), s)) ∧
      ((∀ k < polls, attempts (n + k) = none) →
        ∃ message, (waitUntilReachable polls).play (serveReplies replies) ⟨i + 1, n⟩ =
          some (.error (.opnsense message), s)) := by
  induction polls generalizing n with
  | zero =>
    refine ⟨⟨i + 1, n⟩, rfl, ?_, fun _ => ⟨_, rfl⟩⟩
    rintro ⟨k, hk, -⟩
    exact absurd hk (Nat.not_lt_zero k)
  | succ polls ih =>
    have hserve : serveReplies replies ⟨i + 1, n⟩ .testConnection =
        some (connect (.unreachable attempts) n, ⟨i + 1, n + 1⟩) := by
      show some (connect (replies (i + 1 - 1)) n, _) = _
      rw [Nat.add_sub_cancel, hi]
    rw [waitUntilReachable, Dialogue.play_ask hserve]
    cases hn : attempts n with
    | some version =>
      simp only [connect, hn]
      refine ⟨⟨i + 1, n + 1⟩, rfl, fun _ => rfl, fun hnone => ?_⟩
      cases hn.symm.trans (hnone 0 (Nat.succ_pos polls))
    | none =>
      simp only [connect, hn]
      obtain ⟨s, hs, hback, haway⟩ := ih (n + 1)
      have hshift : ∀ k, n + 1 + k = n + (k + 1) := fun k => by omega
      refine ⟨s, hs, ?_, fun hnone => haway fun k hk => ?_⟩
      · rintro ⟨k, hk, hsome⟩
        cases k with
        | zero =>
          rw [Nat.add_zero, hn] at hsome
          cases hsome
        | succ k =>
          exact hback ⟨k, Nat.lt_of_succ_lt_succ hk, by rwa [hshift]⟩
      · rw [hshift]
        exact hnone (k + 1) (Nat.succ_lt_succ hk)

/-- How a wait ends that has not yet made the i-th poll, with `n` left: it returns the status
that completes it, or fails where none does or a reboot is endless. -/
inductive Ends (replies : Nat → Reply) (last : Nat) : Except Failure Json → Nat → Prop
  | returned {k : Nat} {st : Dict} :
      k < last → Uncompleted replies k → Reachable replies k → Completes replies k st →
      Ends replies last (.ok (.obj st)) (k + 1)
  | lost {k : Nat} (message : String) :
      k < last → Uncompleted replies k → Reachable replies k → (replies k).Lost →
      Ends replies last (.error (.opnsense message)) (k + 1)
  | exhausted (message : String) :
      Uncompleted replies last → Reachable replies last →
      Ends replies last (.error (.opnsense message)) last

/-- One reply ends the wait, or the loop goes on with the flags that it leaves. -/
theorem play_pollUntilDone (n attempts : Nat) {seenRunning : Bool} {idlePolls : Nat}
    (h : Waiting replies i seenRunning idlePolls) :
    ∃ z s, (pollUntilDone n seenRunning idlePolls).play (serveReplies replies) ⟨i, attempts⟩ =
      some (z, s) ∧ Ends replies (i + n) z s.polls := by
  induction n generalizing i seenRunning idlePolls attempts with
  | zero => exact ⟨_, _, rfl, .exhausted _ h.uncompleted h.reachable⟩
  | succ n ih =>
    have hlast : i + (n + 1) = i + 1 + n := by omega
    have hlt : i < i + (n + 1) := by omega
    have hserve : serveReplies replies ⟨i, attempts⟩ .firmwareUpgradeStatus =
        some ((replies i).poll, ⟨i + 1, 0⟩) := rfl
    rw [pollUntilDone, Dialogue.play_ask hserve]
    rcases reply_cases (replies i) with ⟨st, hst⟩ | hunder | ⟨lostAt, hr, hlost⟩
    · -- a status other than "running"
      have hnot : ¬ lowerAscii (Dict.getD st "status" (.str "")).pyStr = "running" := hst.2
      rw [hst.1]
      simp only [Reply.poll, Json.attrGet, onJson, Dialogue.bind_eq, Dialogue.pure_bind, hnot,
        if_false]
      cases seenRunning with
      | true =>
        exact ⟨_, _, rfl, .returned hlt h.uncompleted h.reachable (h.completes_seen hst)⟩
      | false =>
        by_cases hgrace : startupGracePolls ≤ idlePolls + 1
        · rw [if_neg Bool.false_ne_true, if_pos hgrace]
          exact ⟨_, _, rfl, .returned hlt h.uncompleted h.reachable ((h.completes_idle hst).mpr hgrace)⟩
        · rw [if_neg Bool.false_ne_true, if_neg hgrace, hlast]
          exact ih _ (h.idling hst hgrace)
    · have hunder' := hunder
      rw [hlast]
      rcases hunder' with ⟨st, hst, hrun⟩ | ⟨attempts', hr, hback⟩
      · have hword : lowerAscii (Dict.getD st "status" (.str "")).pyStr = "running" := hrun
        rw [hst]
        simp only [Reply.poll, Json.attrGet, onJson, Dialogue.bind_eq, Dialogue.pure_bind, hword,
          if_true]
        exact ih _ (h.underWay hunder 0)
      · obtain ⟨s, hs, hok, -⟩ := play_waitUntilReachable hr rebootMaxPolls 0
        simp only [Nat.zero_add] at hok
        rw [hr]
        simp only [Reply.poll]
        rw [Dialogue.play_bind_ok (hok hback)]
        obtain ⟨polls, attempts⟩ := s
        obtain rfl : polls = i + 1 := hs
        exact ih _ (h.underWay hunder idlePolls)
    · obtain ⟨s, hs, -, haway⟩ := play_waitUntilReachable hr rebootMaxPolls 0
      simp only [Nat.zero_add] at haway
      obtain ⟨message, hplay⟩ := haway hlost
      rw [hr]
      simp only [Reply.poll]
      rw [Dialogue.play_bind_error hplay]
      refine ⟨_, s, rfl, ?_⟩
      rw [hs]
      exact .lost message hlt h.uncompleted h.reachable ⟨lostAt, hr, hlost⟩

end Run

/-- The i-th reply is the first to complete a wait of `maxPolls` polls, and no reboot before it
is endless. -/
def Returned (replies : Nat → Reply) (maxPolls i : Nat) (st : Dict) : Prop :=
  i < maxPolls ∧ Completes replies i st ∧ Uncompleted replies i ∧ Reachable replies i

/-- **A wait returns the status that completes it.**  Whatever the box replies and whatever the
budget, the wait ends; it returns the status of the first reply that completes it, if that
is within the budget and no reboot before it is endless; it raises exactly where no reply of
the budget completes it, or a reboot that it meets is endless; and it makes no more requests
than the budget has. -/
theorem pollUntilDone_exact (replies : Nat → Reply) (maxPolls : Nat) :
    ∃ z s, (poll maxPolls).play (serveReplies replies) ⟨0, 0⟩ = some (z, s) ∧
      (∀ v, z = .ok v ↔ ∃ i st, v = .obj st ∧ Returned replies maxPolls i st) ∧
      ((∃ e, z = .error e) ↔ Uncompleted replies maxPolls ∨
        ∃ k < maxPolls, (replies k).Lost ∧ Uncompleted replies k) ∧
      s.polls ≤ maxPolls := by
  have hstart : Waiting replies 0 false 0 := ⟨nofun, nofun, nofun, fun _ => ⟨rfl, nofun⟩⟩
  obtain ⟨z, s, hplay, hends⟩ := play_pollUntilDone maxPolls 0 hstart
  rw [Nat.zero_add] at hends
  refine ⟨z, s, hplay, ?_⟩
  generalize s.polls = polls at hends
  cases hends with
  | @returned k st hk huncompleted hreachable hcompletes =>
    refine ⟨fun v => ⟨fun hv => ?_, ?_⟩, ⟨nofun, ?_⟩, hk⟩
    · obtain rfl := Except.ok.inj hv
      exact ⟨k, st, rfl, hk, hcompletes, huncompleted, hreachable⟩
    · rintro ⟨i, st', rfl, -, hcompletes', huncompleted', -⟩
      obtain rfl : i = k := by
        rcases Nat.lt_trichotomy i k with hlt | heq | hgt
        · exact absurd hcompletes' (huncompleted i hlt st')
        · exact heq
        · exact absurd hcompletes (huncompleted' k hgt st)
      rw [Reply.status.inj (hcompletes.1.1.symm.trans hcompletes'.1.1)]
    · rintro (hnone | ⟨i, -, hlost, hnone⟩)
      · exact absurd hcompletes (hnone k hk st)
      · rcases Nat.lt_trichotomy i k with hlt | rfl | hgt
        · exact absurd hlost (hreachable i hlt)
        · exact absurd hlost (not_lost_of_stopped hcompletes.1)
        · exact absurd hcompletes (hnone k hgt st)
  | @lost k message hk huncompleted hreachable hlost =>
    refine ⟨fun v => ⟨nofun, ?_⟩, ⟨fun _ => .inr ⟨k, hk, hlost, huncompleted⟩, fun _ => ⟨_, rfl⟩⟩, hk⟩
    rintro ⟨i, st', -, -, hcompletes', -, hreachable'⟩
    rcases Nat.lt_trichotomy i k with hlt | rfl | hgt
    · exact absurd hcompletes' (huncompleted i hlt st')
    · exact absurd hlost (not_lost_of_stopped hcompletes'.1)
    · exact absurd hlost (hreachable' k hgt)
  | exhausted message huncompleted hreachable =>
    refine ⟨fun v => ⟨nofun, ?_⟩, ⟨fun _ => .inl huncompleted, fun _ => ⟨_, rfl⟩⟩, le_refl _⟩
    rintro ⟨i, st', -, hi, hcompletes', -, -⟩
    exact absurd hcompletes' (huncompleted i hi st')

end FirmwareActions

end Opngms
