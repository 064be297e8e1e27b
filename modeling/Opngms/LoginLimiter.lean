/-
Opngms/LoginLimiter.lean

The brute-force limiter of the login (`app/core/ratelimit.py`) and the logins that
go through it (`login` in `app/api/auth.py`, `authenticate` in
`app/services/auth.py`).

The limiter is the one of Opngms/SlidingWindow.lean, which keeps the times of the failures
under each key; the times are elements of an ordered ring.  A login asks it
first, reads the user, verifies the password, and then records a failure or, at
its end, resets the key.  Between the question and the verification the login is
suspended, and other logins go on.

A failed verification is recorded in the same step, so the failures of a window
are all among the recorded times.  What is not recorded are the logins that have
been let through and have not verified yet.  If whenever a login is let through
they and the recorded failures are fewer than the limit, no window has more failed
verifications than the limit (**`failures_bounded`**).
-/
import Mathlib.Data.List.Count
import Opngms.Pool
import Opngms.SlidingWindow

namespace Opngms

namespace LoginLimiter

variable {α : Type}

/-! ### The limiter -/

/-- The limiter of the login keeps at least one key. -/
structure Limiter (α : Type) extends SlidingWindow.Limiter α where
  positive : 0 < maxKeys

namespace Limiter

/-- `record_failure`. -/
def recordFailure (l : Limiter α) (key : String) (now : α) : Limiter α where
  toLimiter := l.toLimiter.recordFailure key now
  positive := l.positive

/-- `reset`. -/
def reset (l : Limiter α) (key : String) : Limiter α where
  toLimiter := l.toLimiter.reset key
  positive := l.positive

theorem touch_hits (l : Limiter α) (key : String) :
    ∃ others, (∀ e ∈ others, e.1 ≠ key) ∧
      (l.touch key).hits = others ++ [(key, l.entry key)] := by
  refine ⟨(l.hits.filter fun e => e.1 != key).drop
    ((l.hits.filter fun e => e.1 != key).length + 1 - l.maxKeys), ?_, ?_⟩
  · intro e he
    have := List.mem_of_mem_drop he
    simpa using (List.mem_filter.mp this).2
  · have hpos := l.positive
    show List.drop _ _ = _
    rw [List.drop_append_of_le_length]
    · simp
    · simp only [List.length_append, List.length_singleton]
      omega

theorem lookup_last {key : String} {others : List (String × List α)} {times : List α}
    (h : ∀ e ∈ others, e.1 ≠ key) : (others ++ [(key, times)]).lookup key = some times := by
  induction others with
  | nil => simp
  | cons e others ih =>
    have hne : (key == e.1) = false := by
      simpa using (h e List.mem_cons_self).symm
    rw [List.cons_append, List.lookup_cons, hne]
    exact ih fun e' he' => h e' (List.mem_cons_of_mem e he')

theorem entry_touch_store (l : Limiter α) (key : String) (times : List α) :
    ((l.touch key).store key times).entry key = times := by
  obtain ⟨others, hne, hhits⟩ := l.touch_hits key
  have hmap : ((l.touch key).store key times).hits = others ++ [(key, times)] := by
    have hsame : others.map (fun e => if e.1 = key then (key, times) else e) = others.map id :=
      List.map_congr_left fun e he => if_neg (hne e he)
    show (l.touch key).hits.map _ = _
    rw [hhits, List.map_append, hsame, List.map_id]
    simp
  rw [SlidingWindow.Limiter.entry, hmap, lookup_last hne]
  rfl

@[simp] theorem entry_recordFailure (l : Limiter α) (key : String) (now : α) :
    (l.recordFailure key now).entry key = l.entry key ++ [now] :=
  l.entry_touch_store key _

section Clock

variable [CommRing α] [LinearOrder α] [FloorRing α]

/-- `check`. -/
def check (l : Limiter α) (key : String) (now : α) (limit : Nat) (window : α) :
    Except Unit (Bool × Int) × Limiter α :=
  let answer := l.toLimiter.check key now limit window
  (answer.1, { toLimiter := answer.2, positive := l.positive })

def unexpired (l : Limiter α) (key : String) (now window : α) : List α :=
  SlidingWindow.unexpired window (l.entry key) now

theorem entry_check (l : Limiter α) (key : String) (now : α) (limit : Nat) (window : α) :
    (l.check key now limit window).2.entry key = l.unexpired key now window :=
  l.entry_touch_store key _

theorem check_allowed {l : Limiter α} {key : String} {now : α} {limit : Nat} {window : α}
    {retry : Int} (h : (l.check key now limit window).1 = .ok (true, retry)) :
    (l.unexpired key now window).length < limit := by
  change SlidingWindow.verdict limit window (l.unexpired key now window) now = _ at h
  unfold SlidingWindow.verdict at h
  split at h
  · split at h <;> cases h
  · omega

end Clock

end Limiter

/-! ### Logins -/

structure User where
  active : Bool
  passwordHash : String

/-- `authenticate`, on the user it found: whether the login goes on, and whether
the password was verified for it. -/
def authenticate (verifyPassword : String → String → Bool) (user : Option User)
    (password : String) : Bool × Bool :=
  match user with
  | none => (false, false)
  | some user =>
    if !user.active then (false, false)
    else (verifyPassword password user.passwordHash, true)

/-- Where a login is suspended: before its password is verified, or after it. -/
inductive Stage where
  | allowed
  | verified
  deriving DecidableEq

/-- The logins for one key. -/
structure Logins (α : Type) where
  limiter : Limiter α
  clock : α
  /-- The logins that were let through and have not ended. -/
  running : List (Nat × Stage)
  /-- When a password was verified and was wrong. -/
  failures : List α
  /-- When a login succeeded. -/
  successes : List α

/-- The settings of the login, and its library. -/
structure Setting where
  key : String
  limit : Nat
  window : Nat
  verifyPassword : String → String → Bool

/-- What a login does between two suspensions, and when. -/
inductive Event (α : Type) where
  /-- It asks the limiter. -/
  | check (i : Nat) (now : α)
  /-- It has the user, and verifies the password; a failure is recorded at once. -/
  | verify (i : Nat) (now : α) (user : Option User) (password : String)
  /-- It has made the session, and resets the key. -/
  | succeed (i : Nat) (now : α)
  /-- It ends otherwise. -/
  | drop (i : Nat) (now : α)

def Event.now {α : Type} : Event α → α
  | check _ now | verify _ now _ _ | succeed _ now | drop _ now => now

theorem countP_dropWhile {p q : α → Bool} {xs : List α} (h : ∀ x, p x = true → q x = false) :
    (xs.dropWhile p).countP q = xs.countP q := by
  induction xs with
  | nil => rfl
  | cons x xs ih =>
    rw [List.dropWhile_cons]
    split
    · rename_i hx
      rw [ih, List.countP_cons, h x hx]
      rfl
    · rfl

section Logins

variable [CommRing α] [LinearOrder α]

/-- One event; time does not go back. -/
def step [FloorRing α] (c : Setting) (s : Logins α) (e : Event α) : Option (Logins α) :=
  if e.now < s.clock then none
  else
    match e with
    | .check i now =>
      if s.running.any fun r => r.1 == i then none
      else
        let (answer, limiter) := s.limiter.check c.key now c.limit c.window
        match answer with
        | .ok (true, _) =>
          some { s with limiter := limiter, clock := now, running := (i, .allowed) :: s.running }
        -- 429, or 503 for a fault of the limiter
        | .ok (false, _) | .error () => some { s with limiter := limiter, clock := now }
    | .verify i now user password =>
      if (i, .allowed) ∈ s.running then
        let (passed, verified) := authenticate c.verifyPassword user password
        let rest := s.running.erase (i, .allowed)
        if passed then some { s with clock := now, running := (i, .verified) :: rest }
        else
          some { s with
            limiter := s.limiter.recordFailure c.key now
            clock := now
            running := rest
            failures := if verified then s.failures ++ [now] else s.failures }
      else none
    | .succeed i now =>
      if (i, .verified) ∈ s.running then
        some { s with
          limiter := s.limiter.reset c.key
          clock := now
          running := s.running.erase (i, .verified)
          successes := s.successes ++ [now] }
      else none
    | .drop i now =>
      some { s with clock := now, running := s.running.filter fun r => r.1 != i }

def pending (running : List (Nat × Stage)) : Nat := running.countP fun r => r.2 = .allowed

theorem pending_sublist {rs rs' : List (Nat × Stage)} (h : rs.Sublist rs') :
    pending rs ≤ pending rs' :=
  h.countP_le

theorem pending_erase {running : List (Nat × Stage)} {i : Nat} (h : (i, .allowed) ∈ running) :
    pending (running.erase (i, .allowed)) + 1 = pending running := by
  have hperm : pending running = pending ((i, .allowed) :: running.erase (i, .allowed)) :=
    (List.perm_cons_erase h).countP_eq _
  rw [hperm]
  exact (List.countP_cons_of_pos (by simp)).symm

/-- A login that is let through leaves room: with the logins that are still to verify, the
hits are fewer than the limit. -/
def RoomLeft (c : Setting) (s : Logins α) : Event α → Prop
  | .check _ now =>
    (s.limiter.unexpired c.key now c.window).length < c.limit →
      (s.limiter.unexpired c.key now c.window).length + pending s.running < c.limit
  | _ => True

instance (c : Setting) (s : Logins α) : (e : Event α) → Decidable (RoomLeft c s e)
  | .check _ _ => inferInstanceAs (Decidable (_ → _))
  | .verify _ _ _ _ | .succeed _ _ | .drop _ _ => isTrue trivial

/-! ### The bound -/

def failuresIn (s : Logins α) (a b : α) : Nat := s.failures.countP fun t => a ≤ t ∧ t < b

def NoSuccess (s : Logins α) (a b : α) : Prop := ∀ t ∈ s.successes, t < a ∨ b ≤ t

/-- In every window without a success there are at most as many failed verifications
as attempts are allowed. -/
def Bounded (c : Setting) (s : Logins α) : Prop :=
  ∀ a, NoSuccess s a (a + c.window) → failuresIn s a (a + c.window) ≤ c.limit

def failuresSince (s : Logins α) (a : α) : Nat := s.failures.countP fun t => a ≤ t

/-- Nothing has succeeded since a moment that a window from now still reaches. -/
def Open (c : Setting) (s : Logins α) (a : α) : Prop :=
  s.clock < a + c.window ∧ ∀ t ∈ s.successes, t < a

/-- The invariant: the failures of an open window are recorded, and with the logins
that are still to verify they are within the limit. -/
structure Sound (c : Setting) (s : Logins α) : Prop where
  past : ∀ t, t ∈ s.failures ∨ t ∈ s.successes → t ≤ s.clock
  recorded : ∀ a, Open c s a →
    failuresSince s a ≤ (s.limiter.entry c.key).countP fun t => a ≤ t
  room : ∀ a, Open c s a → failuresSince s a + pending s.running ≤ c.limit
  bounded : Bounded c s

section Step

variable {c : Setting} {s : Logins α}

theorem countP_unexpired [IsStrictOrderedRing α] {a now window : α} (h : now < a + window)
    (times : List α) :
    (SlidingWindow.unexpired window times now).countP (fun t => a ≤ t) =
      times.countP fun t => a ≤ t := by
  apply countP_dropWhile
  intro t ht
  rw [decide_eq_true_eq] at ht
  exact decide_eq_false (not_le.mpr (lt_of_le_of_lt ht (sub_lt_iff_lt_add.mpr h)))

theorem Open.earlier {s' : Logins α} {a : α} (h : Open c s' a) (hclock : s.clock ≤ s'.clock)
    (hsucc : s'.successes = s.successes) : Open c s a :=
  ⟨lt_of_le_of_lt hclock h.1, by
    rw [← hsucc]
    exact h.2⟩

omit [CommRing α] in
theorem failuresIn_le (s : Logins α) (a b : α) : failuresIn s a b ≤ failuresSince s a := by
  apply List.countP_mono_left
  intro t _ ht
  simp only [decide_eq_true_eq] at ht ⊢
  exact ht.1

theorem sound_check [IsStrictOrderedRing α] [FloorRing α] (h : Sound c s) {i : Nat} {now : α}
    (hnow : s.clock ≤ now) (hroom : RoomLeft c s (.check i now)) {running : List (Nat × Stage)}
    (hrun : running = s.running ∨
      (pending running = pending s.running + 1 ∧
        (s.limiter.unexpired c.key now c.window).length < c.limit)) :
    Sound c { s with
      limiter := (s.limiter.check c.key now c.limit c.window).2
      clock := now
      running := running } where
  past t ht := le_trans (h.past t ht) hnow
  recorded a ha := by
    show failuresSince s a ≤ List.countP _ (SlidingWindow.Limiter.entry _ c.key)
    rw [Limiter.entry_check, Limiter.unexpired, countP_unexpired ha.1]
    exact h.recorded a (ha.earlier hnow rfl)
  room a ha := by
    show failuresSince s a + pending running ≤ c.limit
    have hopen : Open c s a := ha.earlier hnow rfl
    rcases hrun with rfl | ⟨hlength, hallowed⟩
    · exact h.room a hopen
    · -- the failures of the window are among the hits that are left
      have hleft : failuresSince s a ≤ (s.limiter.unexpired c.key now c.window).length := by
        refine Nat.le_trans (h.recorded a hopen) ?_
        rw [← countP_unexpired ha.1]
        exact List.countP_le_length
      have := hroom hallowed
      omega
  bounded := h.bounded

/-- A failed verification is recorded, and its login ends. -/
theorem sound_fail (h : Sound c s) {now : α} (hnow : s.clock ≤ now)
    {running : List (Nat × Stage)} (hrun : pending running + 1 = pending s.running)
    {failures : List α} (hfail : failures = s.failures ∨ failures = s.failures ++ [now]) :
    Sound c { s with
      limiter := s.limiter.recordFailure c.key now
      clock := now
      running := running
      failures := failures } := by
  have hsince : ∀ a, failures.countP (fun t => a ≤ t) ≤
      failuresSince s a + [now].countP fun t => a ≤ t := by
    intro a
    rcases hfail with rfl | rfl
    · exact Nat.le_add_right _ _
    · rw [List.countP_append]
      exact Nat.le_refl _
  constructor
  · intro t ht
    rcases ht with ht | ht
    · rcases hfail with hf | hf
      · exact le_trans (h.past t (.inl (hf ▸ ht))) hnow
      · rcases List.mem_append.mp (hf ▸ ht) with ht | ht
        · exact le_trans (h.past t (.inl ht)) hnow
        · exact le_of_eq (List.mem_singleton.mp ht)
    · exact le_trans (h.past t (.inr ht)) hnow
  · intro a ha
    -- the hit is recorded whether or not a password was verified
    show failures.countP _ ≤ List.countP _ (SlidingWindow.Limiter.entry _ c.key)
    rw [Limiter.entry_recordFailure, List.countP_append]
    have := h.recorded a (ha.earlier hnow rfl)
    have := hsince a
    omega
  · intro a ha
    show failures.countP _ + pending running ≤ c.limit
    have := h.room a (ha.earlier hnow rfl)
    have := hsince a
    have hone : [now].countP (fun t => a ≤ t) ≤ 1 := List.countP_le_length
    omega
  · intro a hno
    have hold := h.bounded a hno
    rcases hfail with rfl | rfl
    · exact hold
    show (s.failures ++ [now]).countP _ ≤ c.limit
    rw [List.countP_append]
    by_cases hin : a ≤ now ∧ now < a + c.window
    · -- the window is open, so its failures were recorded when this login was let through
      have hopen : Open c s a := by
        refine ⟨lt_of_le_of_lt hnow hin.2, fun t ht => ?_⟩
        have hpast := h.past t (.inr ht)
        rcases hno t ht with hlt | hle
        · exact hlt
        · exact absurd (hle.trans (hpast.trans hnow)) (not_le.mpr hin.2)
      have := h.room a hopen
      have := failuresIn_le s a (a + c.window)
      have hone : [now].countP (fun t => a ≤ t ∧ t < a + c.window) ≤ 1 :=
        List.countP_le_length
      unfold failuresIn at this
      omega
    · have hzero : [now].countP (fun t => a ≤ t ∧ t < a + c.window) = 0 := by
        simp only [List.countP_singleton, decide_eq_true_eq, hin, if_false]
      rw [hzero]
      exact hold

theorem sound_running (h : Sound c s) {now : α} (hnow : s.clock ≤ now)
    {running : List (Nat × Stage)} (hrun : pending running ≤ pending s.running) :
    Sound c { s with clock := now, running := running } where
  past t ht := le_trans (h.past t ht) hnow
  recorded a ha := h.recorded a (ha.earlier hnow rfl)
  room a ha := by
    have := h.room a (ha.earlier hnow rfl)
    show failuresSince s a + pending running ≤ c.limit
    omega
  bounded := h.bounded

theorem sound_succeed [IsStrictOrderedRing α] (h : Sound c s) {now : α} (hnow : s.clock ≤ now)
    {running : List (Nat × Stage)} (hrun : pending running ≤ pending s.running) :
    Sound c { s with
      limiter := s.limiter.reset c.key
      clock := now
      running := running
      successes := s.successes ++ [now] } := by
  -- a window without a success starts after this one, and nothing has failed in it yet
  have hnone : ∀ a, (∀ t ∈ s.successes ++ [now], t < a) → Open c s a ∧ failuresSince s a = 0 := by
    intro a ha
    have hlt : now < a := ha now (by simp)
    have hopen : s.clock < a + c.window :=
      lt_of_lt_of_le (lt_of_le_of_lt hnow hlt) (le_add_of_nonneg_right (Nat.cast_nonneg _))
    refine ⟨⟨hopen, fun t ht => ha t (List.mem_append_left _ ht)⟩, ?_⟩
    apply List.countP_eq_zero.mpr
    intro t ht
    have hpast := h.past t (.inl ht)
    rw [decide_eq_true_eq, not_le]
    exact lt_of_le_of_lt (hpast.trans hnow) hlt
  constructor
  · intro t ht
    rcases ht with ht | ht
    · exact le_trans (h.past t (.inl ht)) hnow
    · rcases List.mem_append.mp ht with ht | ht
      · exact le_trans (h.past t (.inr ht)) hnow
      · exact le_of_eq (List.mem_singleton.mp ht)
  · intro a ha
    show failuresSince s a ≤ _
    rw [(hnone a ha.2).2]
    exact Nat.zero_le _
  · intro a ha
    show failuresSince s a + pending running ≤ c.limit
    have := h.room a (hnone a ha.2).1
    omega
  · intro a hno
    exact h.bounded a fun t ht => hno t (List.mem_append_left _ ht)

end Step

/-- **Every event keeps the bound**, if there is room where a login is let through. -/
theorem step_sound [IsStrictOrderedRing α] [FloorRing α] {c : Setting} {s s' : Logins α}
    {e : Event α} (h : Sound c s) (hroom : RoomLeft c s e) (hstep : step c s e = some s') :
    Sound c s' := by
  unfold step at hstep
  split at hstep
  · cases hstep
  rename_i hnow
  have hnow : s.clock ≤ e.now := not_lt.mp hnow
  cases e with
  | check i now =>
    dsimp only at hstep
    split at hstep
    · cases hstep
    split at hstep
    · rename_i retry hanswer
      cases hstep
      have hmore : pending ((i, .allowed) :: s.running) = pending s.running + 1 :=
        List.countP_cons_of_pos (by simp)
      exact sound_check h hnow hroom (.inr ⟨hmore, Limiter.check_allowed hanswer⟩)
    · cases hstep
      exact sound_check h hnow hroom (.inl rfl)
    · cases hstep
      exact sound_check h hnow hroom (.inl rfl)
  | verify i now user password =>
    dsimp only at hstep
    split at hstep
    · rename_i hmem
      have hless := pending_erase hmem
      split at hstep
      · cases hstep
        have hpassed : pending ((i, .verified) :: s.running.erase (i, .allowed)) =
            pending (s.running.erase (i, .allowed)) :=
          List.countP_cons_of_neg (by simp)
        exact sound_running h hnow (by omega)
      · cases hstep
        -- the login that fails makes room for its failure
        refine sound_fail h hnow hless ?_
        split
        · exact .inr rfl
        · exact .inl rfl
    · cases hstep
  | succeed i now =>
    dsimp only at hstep
    split at hstep
    · cases hstep
      exact sound_succeed h hnow (pending_sublist List.erase_sublist)
    · cases hstep
  | drop i now =>
    cases hstep
    exact sound_running h hnow (pending_sublist List.filter_sublist)

def Logins.start (limiter : Limiter α) : Logins α := ⟨limiter, 0, [], [], []⟩

theorem sound_start (c : Setting) (limiter : Limiter α) : Sound c (.start limiter) := by
  constructor
  · intro t ht
    rcases ht with ht | ht <;> cases ht
  · intro a _
    exact Nat.zero_le _
  · intro a _
    exact Nat.zero_le _
  · intro a _
    exact Nat.zero_le _

/-- **The brute-force bound.**  Along every run of logins for one key in which each
login that is let through leaves room, no window without a success has more failed
verifications than attempts are allowed. -/
theorem failures_bounded [IsStrictOrderedRing α] [FloorRing α] (c : Setting) (limiter : Limiter α)
    (es : List (Event α))
    (hroom : Along (step c) (RoomLeft c) (.start limiter) es) (s : Logins α)
    (hrun : runAll (step c) (.start limiter) es = some s) : Bounded c s :=
  (runAll_invariant (P := Sound c) (fun _ _ _ h hG hstep => step_sound h hG hstep)
    (sound_start c limiter) hroom hrun).bounded

end Logins

/-- Five attempts in thirty seconds. -/
def sampleSetting : Setting where
  key := "user@example.org|10.0.0.1"
  limit := 5
  window := 30
  verifyPassword password hash := password == hash

def emptyLimiter : Limiter Int := ⟨⟨[], 50000⟩, by decide⟩

def wrong (i : Nat) (now : Int) : Event Int := .verify i now (some ⟨true, "right"⟩) "wrong"

/-- Six logins, one after the other: the last one is refused. -/
theorem failures_bounded_sequential :
    ∃ s, runAll (step sampleSetting) (.start emptyLimiter)
        ([1, 2, 3, 4, 5].flatMap (fun i => [.check i i, wrong i i]) ++ [.check 6 6]) = some s ∧
      Bounded sampleSetting s :=
  ⟨_, rfl, failures_bounded sampleSetting emptyLimiter
    ([1, 2, 3, 4, 5].flatMap (fun i => [.check i i, wrong i i]) ++ [.check 6 6]) (by decide) _ rfl⟩

/-- Six logins that are all let through before the first password is verified: six
failures in a window for five. -/
theorem failures_exceed_limit :
    ∃ s, runAll (step sampleSetting) (.start emptyLimiter)
        ([1, 2, 3, 4, 5, 6].map (fun i => .check i i) ++
          [1, 2, 3, 4, 5, 6].map (fun i => wrong i (6 + i))) = some s ∧
      ¬ Bounded sampleSetting s := by
  refine ⟨_, rfl, fun h => ?_⟩
  exact absurd (h 0 nofun) (by decide)

end LoginLimiter

end Opngms
