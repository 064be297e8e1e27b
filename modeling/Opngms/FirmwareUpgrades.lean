/-
Opngms/FirmwareUpgrades.lean

The steps of an upgrade (`firmware_upgrade` of `run_firmware_action` in
services/firmware_action.py).

The device is a sequence of firmware states, each the JSON of one `firmware/status`, and an
update or an upgrade takes it to the next one.  How it keeps its state, and how it answers
while an operation runs, is left open: `Upgradable` asks only that its calls are answered and
that every poll succeeds.

The loop looks at the state before each step, at most `maxUpgradeSteps` times, and fails
when it has not found the device up to date by then.  So it never looks at the state that
its last step leads to, and a device that the last step brings up to date ends as failed
(`lastStep_failed`).  Every other device ends as it should (**`upgrade_converges_iff`**).
-/
import Opngms.FirmwareActions

namespace Opngms

namespace FirmwareActions

/-! ### Devices -/

/-- The answer to `firmware/status` in one state of the firmware, with what the two checks make
of it. -/
structure FirmwareState where
  status : Json
  pending : Bool
  major : Bool
  updatesPending_eq : updatesPending status = .ok pending
  majorOffered_eq : majorOffered status = .ok major

def FirmwareState.UpToDate (s : FirmwareState) : Prop := s.pending = false ∧ s.major = false

instance (s : FirmwareState) : Decidable s.UpToDate := inferInstanceAs (Decidable (_ ∧ _))

/-- The call that a state asks for. -/
def FirmwareState.operation (s : FirmwareState) : Call :=
  if s.major then .firmwareUpgrade else .firmwareUpdate

def callsOf (states : Nat → FirmwareState) (n : Nat) : List Call :=
  (List.range n).map fun k => (states k).operation

/-- A device that goes through a sequence of firmware states, one with each update or upgrade.
`ready` are its own states between two calls, and `issued` the operations it was asked for. -/
structure Upgradable (states : Nat → FirmwareState) (maxPolls : Nat) where
  State : Type
  serve : State → (c : Call) → Option (Answer × State)
  ready : State → Prop
  issued : State → List Call
  check : ∀ s, ready s → ∃ v s', serve s .firmwareCheck = some (.ok v, s') ∧ ready s' ∧
    issued s' = issued s
  statusRaw : ∀ s, ready s → ∃ s', ready s' ∧ issued s' = issued s ∧
    serve s .firmwareStatusRaw = some (.ok (states (issued s).length).status, s')
  operate : ∀ s c, ready s → c = .firmwareUpdate ∨ c = .firmwareUpgrade →
    ∃ v s', serve s c = some (.ok v, s') ∧ ready s' ∧ issued s' = issued s ++ [c]
  identity : ∀ s, ready s → ∃ v s', serve s .getDeviceIdentity = some (.ok v, s') ∧ ready s' ∧
    issued s' = issued s
  polls : ∀ s, ready s → ∃ st s', (poll maxPolls).play serve s = some (.ok st, s') ∧ ready s' ∧
    issued s' = issued s

/-- The device is up to date after `n` steps, and not before. -/
def FirstUpToDate (states : Nat → FirmwareState) (n : Nat) : Prop :=
  (states n).UpToDate ∧ ∀ k < n, ¬ (states k).UpToDate

/-- What is promised of an upgrade that ends with `z` after the calls `issued`. -/
structure Converges (states : Nat → FirmwareState) (z : Except Failure Ending)
    (issued : List Call) : Prop where
  ended : ∃ ending, z = .ok ending
  done_iff : ∀ n : Nat,
    (∃ ending, z = .ok ending ∧ ending.status = .done ∧
      Dict.get? ending.result "steps" = some (.int n)) ↔
    n ≤ maxUpgradeSteps ∧ FirstUpToDate states n
  steps : ∀ n ≤ maxUpgradeSteps, FirstUpToDate states n → issued = callsOf states n
  failed : (∀ n ≤ maxUpgradeSteps, ¬ FirstUpToDate states n) →
    (∃ ending, z = .ok ending ∧ ending.status = .failed) ∧ issued.length = maxUpgradeSteps

/-! ### The loop -/

theorem upToDate_status (s : FirmwareState) : upToDate s.status = .ok (decide s.UpToDate) := by
  unfold upToDate
  rw [s.updatesPending_eq]
  cases hpending : s.pending with
  | true =>
    have hnot : ¬ s.UpToDate := fun h => Bool.noConfusion (hpending.symm.trans h.1)
    rw [decide_eq_false hnot]
    rfl
  | false =>
    rw [s.majorOffered_eq]
    cases hmajor : s.major with
    | true =>
      have hnot : ¬ s.UpToDate := fun h => Bool.noConfusion (hmajor.symm.trans h.2)
      rw [decide_eq_false hnot]
      rfl
    | false =>
      have hdone : s.UpToDate := ⟨hpending, hmajor⟩
      rw [decide_eq_true hdone]
      rfl

theorem callsOf_succ (states : Nat → FirmwareState) (n : Nat) :
    callsOf states (n + 1) = callsOf states n ++ [(states n).operation] := by
  simp [callsOf, List.range_succ]

theorem callsOf_length (states : Nat → FirmwareState) (n : Nat) :
    (callsOf states n).length = n := by
  simp [callsOf]

theorem play_call {σ : Type} {serve : σ → (c : Call) → Option (Answer × σ)} {s s' : σ} {c : Call}
    {v : Json} (h : serve s c = some (.ok v, s')) : (call c).play serve s = some (.ok v, s') := by
  rw [call, Dialogue.play_ask h]
  rfl

section Loop

variable {states : Nat → FirmwareState} {maxPolls : Nat} (d : Upgradable states maxPolls)

theorem play_turn {s : d.State} (hs : d.ready s) (left : Nat) {steps : Nat}
    (hissued : d.issued s = callsOf states steps) :
    ((states steps).UpToDate ∧ ∃ s', d.ready s' ∧ d.issued s' = callsOf states steps ∧
      (upgradeLoop maxPolls (left + 1) steps).play d.serve s = some (.ok steps, s')) ∨
    (¬ (states steps).UpToDate ∧ ∃ s', d.ready s' ∧ d.issued s' = callsOf states (steps + 1) ∧
      (upgradeLoop maxPolls (left + 1) steps).play d.serve s =
        (upgradeLoop maxPolls left (steps + 1)).play d.serve s') := by
  obtain ⟨v₁, s₁, hcheck, hr₁, hi₁⟩ := d.check s hs
  obtain ⟨v₂, s₂, hpoll, hr₂, hi₂⟩ := d.polls s₁ hr₁
  obtain ⟨s₃, hr₃, hi₃, hraw⟩ := d.statusRaw s₂ hr₂
  have hissued₂ : d.issued s₂ = callsOf states steps := hi₂.trans (hi₁.trans hissued)
  have hissued₃ : d.issued s₃ = callsOf states steps := hi₃.trans hissued₂
  rw [hissued₂, callsOf_length] at hraw
  rw [upgradeLoop]
  simp only [Dialogue.bind_eq, Dialogue.pure_eq]
  rw [Dialogue.play_bind_ok (play_call hcheck), Dialogue.play_bind_ok hpoll, Dialogue.play_bind_ok (play_call hraw),
    upToDate_status, onJson, Dialogue.pure_bind]
  by_cases hdone : (states steps).UpToDate
  · refine .inl ⟨hdone, s₃, hr₃, hissued₃, ?_⟩
    rw [decide_eq_true hdone]
    rfl
  · refine .inr ⟨hdone, ?_⟩
    obtain ⟨v₄, s₄, hop, hr₄, hi₄⟩ := d.operate s₃ (states steps).operation hr₃ (by
      unfold FirmwareState.operation
      split
      · exact .inr rfl
      · exact .inl rfl)
    obtain ⟨v₅, s₅, hpoll', hr₅, hi₅⟩ := d.polls s₄ hr₄
    refine ⟨s₅, hr₅, ?_, ?_⟩
    · rw [hi₅, hi₄, hissued₃, callsOf_succ]
    · rw [decide_eq_false hdone, if_neg Bool.false_ne_true, (states steps).majorOffered_eq, onJson,
        Dialogue.pure_bind]
      unfold FirmwareState.operation at hop
      cases hmajor : (states steps).major with
      | true =>
        rw [hmajor, if_pos rfl] at hop
        rw [if_pos rfl, Dialogue.play_bind_ok (play_call hop), Dialogue.play_bind_ok hpoll']
      | false =>
        rw [hmajor, if_neg Bool.false_ne_true] at hop
        rw [if_neg Bool.false_ne_true, Dialogue.play_bind_ok (play_call hop),
          Dialogue.play_bind_ok hpoll']

theorem play_upgradeLoop {s : d.State} (hs : d.ready s) (left : Nat) {steps : Nat}
    (hissued : d.issued s = callsOf states steps) :
    (∃ n s', steps ≤ n ∧ n < steps + left ∧ (states n).UpToDate ∧
      (∀ k, steps ≤ k → k < n → ¬ (states k).UpToDate) ∧
      d.ready s' ∧ d.issued s' = callsOf states n ∧
      (upgradeLoop maxPolls left steps).play d.serve s = some (.ok n, s')) ∨
    (∃ message s', (∀ k, steps ≤ k → k < steps + left → ¬ (states k).UpToDate) ∧
      d.issued s' = callsOf states (steps + left) ∧
      (upgradeLoop maxPolls left steps).play d.serve s = some (.error (.opnsense message), s')) := by
  induction left generalizing s steps with
  | zero =>
    refine .inr ⟨_, s, fun k hk hk' => ?_, hissued, rfl⟩
    omega
  | succ left ih =>
    rcases play_turn d hs left hissued with
      ⟨hdone, s', hr, hi, hplay⟩ | ⟨hdone, s', hr, hi, hplay⟩
    · refine .inl ⟨steps, s', le_refl _, by omega, hdone, fun k hk hk' => ?_, hr, hi, hplay⟩
      omega
    · -- a state from `steps` on is this one, or one from the next on
      have hfrom : ∀ k n, (∀ j, steps + 1 ≤ j → j < n → ¬ (states j).UpToDate) → steps ≤ k → k < n →
          ¬ (states k).UpToDate := by
        intro k n hlater hk hkn
        rcases Nat.eq_or_lt_of_le hk with rfl | hlt
        · exact hdone
        · exact hlater k hlt hkn
      have hend : steps + 1 + left = steps + (left + 1) := by omega
      rw [hplay]
      rcases ih hr hi with ⟨n, s'', hn, hlt, hup, hlater, hr', hi', hplay'⟩ |
        ⟨message, s'', hlater, hi', hplay'⟩
      · refine .inl ⟨n, s'', by omega, by omega, hup, fun k => hfrom k n hlater, hr', hi', hplay'⟩
      · rw [hend] at hlater hi'
        exact .inr ⟨message, s'', fun k => hfrom k _ hlater, hi', hplay'⟩

/-! ### The action -/

theorem play_operation {action : FirmwareAction} (hkind : action.kind = .firmwareUpgrade)
    {s : d.State} (hs : d.ready s) (hissued : d.issued s = []) :
    (∃ n s' version, n < maxUpgradeSteps ∧ FirstUpToDate states n ∧
      d.issued s' = callsOf states n ∧
      (operation action maxPolls).play d.serve s =
        some (.ok ⟨.done, [("steps", .int n), ("version", version)], rfl⟩, s')) ∨
    (∃ s', (∀ k < maxUpgradeSteps, ¬ (states k).UpToDate) ∧
      d.issued s' = callsOf states maxUpgradeSteps ∧
      (operation action maxPolls).play d.serve s = some (.ok (.failed "action failed"), s')) := by
  have hoperate : operate action maxPolls =
      (upgradeLoop maxPolls maxUpgradeSteps 0).bind fun steps => finish [("steps", .int steps)] := by
    unfold operate
    rw [hkind]
    rfl
  have hnone : d.issued s = callsOf states 0 := hissued
  unfold operation
  rcases play_upgradeLoop d hs maxUpgradeSteps hnone with
    ⟨n, s', -, hlt, hup, hfirst, hr, hi, hplay⟩ | ⟨message, s', hnot, hi, hplay⟩
  · obtain ⟨version, s'', hidentity, -, hi'⟩ := d.identity s' hr
    refine .inl ⟨n, s'', version, by omega, ⟨hup, fun k => hfirst k (Nat.zero_le k)⟩, hi'.trans hi, ?_⟩
    apply Dialogue.play_handle_ok
    rw [hoperate, Dialogue.play_bind_ok hplay, finish, Dialogue.bind_eq,
      Dialogue.play_bind_ok (play_call hidentity)]
    rfl
  · rw [Nat.zero_add] at hnot hi
    refine .inr ⟨s', fun k => hnot k (Nat.zero_le k), hi, ?_⟩
    have herror : (operate action maxPolls).play d.serve s =
        some (.error (.opnsense message), s') := by
      rw [hoperate]
      exact Dialogue.play_bind_error hplay
    rw [Dialogue.play_handle_error herror]
    rfl

theorem FirstUpToDate.unique {n n' : Nat} (h : FirstUpToDate states n)
    (h' : FirstUpToDate states n') : n = n' := by
  rcases Nat.lt_trichotomy n n' with hlt | heq | hgt
  · exact absurd h.1 (h'.2 n hlt)
  · exact heq
  · exact absurd h'.1 (h.2 n' hgt)

/-- **An upgrade converges exactly when the device does**, but for one kind of device: for every
sequence of firmware states, every device that goes through it and every budget of polls, the
run ends, and it ends as promised if and only if the device is not first up to date after
exactly `maxUpgradeSteps` steps. -/
theorem upgrade_converges_iff {action : FirmwareAction} (hkind : action.kind = .firmwareUpgrade)
    {s : d.State} (hs : d.ready s) (hissued : d.issued s = []) :
    ∃ z s', (operation action maxPolls).play d.serve s = some (z, s') ∧
      (Converges states z (d.issued s') ↔ ¬ FirstUpToDate states maxUpgradeSteps) := by
  rcases play_operation d hkind hs hissued with
    ⟨n, s', version, hlt, hfirst, hi, hplay⟩ | ⟨s', hnot, hi, hplay⟩
  · -- the device was found up to date
    refine ⟨_, s', hplay, fun _ hlast => ?_, fun _ => ?_⟩
    · exact absurd (hfirst.unique hlast) hlt.ne
    · refine ⟨⟨_, rfl⟩, fun m => ⟨?_, ?_⟩, fun m _ hm => ?_, fun hnone => ?_⟩
      · rintro ⟨ending, hz, -, hsteps⟩
        obtain rfl := Except.ok.inj hz
        have hint : (n : Int) = m := by simpa using hsteps
        obtain rfl : n = m := by exact_mod_cast hint
        exact ⟨hlt.le, hfirst⟩
      · rintro ⟨-, hm⟩
        obtain rfl := hfirst.unique hm
        exact ⟨_, rfl, rfl, by simp⟩
      · obtain rfl := hfirst.unique hm
        exact hi
      · exact absurd hfirst (hnone n hlt.le)
  · refine ⟨_, s', hplay, fun h hlast => ?_, fun hlast => ?_⟩
    · -- the last step brought it up to date, and the run failed
      obtain ⟨ending, hz, hdone, -⟩ := (h.done_iff maxUpgradeSteps).mpr ⟨le_refl _, hlast⟩
      obtain rfl := Except.ok.inj hz
      cases hdone
    · have hnone : ∀ n ≤ maxUpgradeSteps, ¬ FirstUpToDate states n := by
        intro n hn hfirst
        rcases Nat.eq_or_lt_of_le hn with rfl | hlt
        · exact hlast hfirst
        · exact hnot n hlt hfirst.1
      refine ⟨⟨_, rfl⟩, fun n => ⟨?_, ?_⟩, fun n hn hfirst => ?_, fun _ => ?_⟩
      · rintro ⟨ending, hz, hdone, -⟩
        obtain rfl := Except.ok.inj hz
        cases hdone
      · rintro ⟨hn, hfirst⟩
        exact absurd hfirst (hnone n hn)
      · exact absurd hfirst (hnone n hn)
      · exact ⟨⟨_, rfl, rfl⟩, by rw [hi, callsOf_length]⟩

end Loop

/-! ### A device that is up to date after some steps -/

def waiting : FirmwareState := ⟨.obj [("status", .str "ok")], true, false, rfl, rfl⟩

def current : FirmwareState := ⟨.obj [("status", .str "none")], false, false, rfl, rfl⟩

/-- Updates wait until `n` of them are done. -/
def upToDateAfter (n k : Nat) : FirmwareState := if k < n then waiting else current

/-- A device that reports each operation as running once; its state is what it was asked for,
and whether it has just reported one as running. -/
def promptDevice (n : Nat) : Upgradable (upToDateAfter n) 2 where
  State := List Call × Bool
  serve s c :=
    match c with
    | .firmwareStatusRaw => some (.ok (upToDateAfter n s.1.length).status, s)
    | .firmwareUpgradeStatus =>
      some (.ok (.obj [("status", .str (if s.2 then "done" else "running"))]), (s.1, !s.2))
    | .firmwareUpdate | .firmwareUpgrade => some (.ok .null, (s.1 ++ [c], s.2))
    | .getDeviceIdentity => some (.ok (.str "26.1.9"), s)
    | _ => some (.ok .null, s)
  ready s := s.2 = false
  issued s := s.1
  check s hs := ⟨_, _, rfl, hs, rfl⟩
  statusRaw s hs := ⟨s, hs, rfl, rfl⟩
  operate s c hs hc := by
    rcases hc with rfl | rfl
    · exact ⟨_, _, rfl, hs, rfl⟩
    · exact ⟨_, _, rfl, hs, rfl⟩
  identity s hs := ⟨_, _, rfl, hs, rfl⟩
  polls := by
    rintro ⟨issued, -⟩ rfl
    have hrunning : lowerAscii "running" = "running" := by decide
    have hdone : lowerAscii "done" ≠ "running" := by decide
    refine ⟨.obj [("status", .str "done")], (issued, false), ?_, rfl, rfl⟩
    simp [poll, pollUntilDone, Dialogue.play, onJson, Json.attrGet, Dict.getD, hrunning, hdone]

def upgradeAction : FirmwareAction := ⟨.firmwareUpgrade, "", none, .scheduled, 0, [], none, 0⟩

/-- Two steps. -/
theorem upgrade_converges_twoSteps :
    ∃ z s', (operation upgradeAction 2).play (promptDevice 2).serve ([], false) = some (z, s') ∧
      (Converges (upToDateAfter 2) z ((promptDevice 2).issued s') ↔
        ¬ FirstUpToDate (upToDateAfter 2) maxUpgradeSteps) :=
  upgrade_converges_iff (promptDevice 2) rfl rfl rfl

/-- The sixth step brings the device up to date, and the action ends as failed. -/
theorem lastStep_failed :
    FirstUpToDate (upToDateAfter 6) maxUpgradeSteps ∧
    ∃ s', (operation upgradeAction 2).play (promptDevice 6).serve ([], false) =
        some (.ok (.failed "action failed"), s') ∧
      ¬ Converges (upToDateAfter 6) (.ok (.failed "action failed")) ((promptDevice 6).issued s') := by
  have hfirst : FirstUpToDate (upToDateAfter 6) maxUpgradeSteps := by
    refine ⟨by decide, ?_⟩
    decide
  refine ⟨hfirst, ?_⟩
  have hissued : (promptDevice 6).issued ([], false) = [] := rfl
  have hready : (promptDevice 6).ready ([], false) := rfl
  have hkind : upgradeAction.kind = .firmwareUpgrade := rfl
  rcases play_operation (promptDevice 6) hkind hready hissued with
    ⟨n, s', version, hlt, hfirst', -, -⟩ | ⟨s', -, -, hplay⟩
  · exact absurd (hfirst'.unique hfirst) hlt.ne
  · refine ⟨s', hplay, fun h => ?_⟩
    obtain ⟨ending, hz, hdone, -⟩ := (h.done_iff maxUpgradeSteps).mpr ⟨le_refl _, hfirst⟩
    obtain rfl := Except.ok.inj hz
    cases hdone

end FirmwareActions

end Opngms
