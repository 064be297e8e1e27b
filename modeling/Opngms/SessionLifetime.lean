/-
Opngms/SessionLifetime.lean

How long a session lives (`create_session`, `get_session_for_token` and `purge_expired` in
services/auth.py).

Times are in microseconds.  `last_seen_at` is written when it is a minute old or more, so it lags
the last call by less than a minute: a caller who pauses for at most the idle timeout less a
minute is never turned away before the session expires, and one who pauses for more than the idle
timeout always is.

Main result: **`session_lifetime`**.  A purge at or after the expiry deletes the session, so only
the purges before it are harmless (`purge_expired_session`).
-/
import Mathlib.Algebra.Order.Ring.Int
import Mathlib.Data.List.Basic
import Mathlib.Data.List.Induction

namespace Opngms

namespace SessionLifetime

/-! ### The table -/

def second : Int := 1000000

/-- `_LAST_SEEN_THROTTLE`. -/
def lastSeenThrottle : Int := 60 * second

/-- A row of `sessions`. -/
structure Session where
  tokenHash : String
  lastSeenAt : Int
  expiresAt : Int
  deriving DecidableEq

/-- `create_session` for a token with this hash. -/
def createSession (sessions : List Session) (tokenHash : String) (now ttl : Int) : List Session :=
  sessions ++ [⟨tokenHash, now, now + ttl⟩]

/-- The session of a token is refused: it has expired, or was idle for too long. -/
def Session.refused (idle now : Int) (s : Session) : Bool :=
  s.expiresAt ≤ now || now - s.lastSeenAt > idle

def Session.touch (now : Int) (s : Session) : Session :=
  if now - s.lastSeenAt ≥ lastSeenThrottle then { s with lastSeenAt := now } else s

/-- `get_session_for_token`: the session, and the table that the touch leaves. -/
def getSessionForToken (idle : Int) (sessions : List Session) (tokenHash : String) (now : Int) :
    Option Session × List Session :=
  match sessions.find? fun s => s.tokenHash = tokenHash with
  | none => (none, sessions)
  | some s =>
    if s.refused idle now then (none, sessions)
    else (some (s.touch now),
      sessions.map fun r => if r.tokenHash = tokenHash then r.touch now else r)

/-- The condition of `purge_expired`. -/
def Session.purged (idle now : Int) (s : Session) : Bool :=
  s.expiresAt ≤ now || s.lastSeenAt < now - idle

/-- `purge_expired`. -/
def purgeExpired (idle : Int) (sessions : List Session) (now : Int) : List Session :=
  sessions.filter fun s => !s.purged idle now

/-- What happens to a session: a call with its token, or a purge of the table. -/
inductive Event where
  | call (now : Int)
  | purge (now : Int)
  deriving DecidableEq

def Event.now : Event → Int
  | .call now | .purge now => now

def after (idle : Int) (tokenHash : String) (sessions : List Session) : Event → List Session
  | .call now => (getSessionForToken idle sessions tokenHash now).2
  | .purge now => purgeExpired idle sessions now

def history (idle : Int) (sessions : List Session) (tokenHash : String) (created ttl : Int)
    (es : List Event) : List Session :=
  es.foldl (after idle tokenHash) (createSession sessions tokenHash created ttl)

/-- Time does not go back, from the creation on. -/
def Ordered (created : Int) (es : List Event) : Prop :=
  (created :: es.map Event.now).Pairwise (· ≤ ·)

def lastCall (created : Int) (es : List Event) : Int :=
  es.foldl (fun last e => match e with
    | .call now => now
    | .purge _ => last) created

/-- Every call follows the one before it, or the creation, within a bound. -/
def Gaps (created bound : Int) (es : List Event) : Prop :=
  ∀ before now rest, es = before ++ .call now :: rest → now - lastCall created before ≤ bound

/-! ### The row of the token -/

/-- The row of the token after an event, apart from the other rows. -/
def rowAfter (idle : Int) : Option Session → Event → Option Session
  | none, _ => none
  | some s, .call now => if s.refused idle now then some s else some (s.touch now)
  | some s, .purge now => if s.purged idle now then none else some s

/-- The row of the token after a history. -/
def row (idle : Int) (tokenHash : String) (created ttl : Int) (es : List Event) : Option Session :=
  es.foldl (rowAfter idle) (some ⟨tokenHash, created, created + ttl⟩)

def rowsOf (tokenHash : String) (sessions : List Session) : List Session :=
  sessions.filter fun s => s.tokenHash = tokenHash

@[simp] theorem touch_tokenHash (now : Int) (s : Session) :
    (s.touch now).tokenHash = s.tokenHash := by
  unfold Session.touch
  split <;> rfl

@[simp] theorem touch_expiresAt (now : Int) (s : Session) :
    (s.touch now).expiresAt = s.expiresAt := by
  unfold Session.touch
  split <;> rfl

theorem find?_rowsOf (tokenHash : String) (sessions : List Session) :
    (sessions.find? fun s => s.tokenHash = tokenHash) = (rowsOf tokenHash sessions).head? := by
  rw [rowsOf, List.head?_filter]

section Rows

variable {idle : Int} {tokenHash : String}

theorem rowsOf_touch (sessions : List Session) (now : Int) :
    rowsOf tokenHash (sessions.map fun r => if r.tokenHash = tokenHash then r.touch now else r) =
      (rowsOf tokenHash sessions).map fun r => r.touch now := by
  unfold rowsOf
  induction sessions with
  | nil => rfl
  | cons s sessions ih =>
    rw [List.map_cons, List.filter_cons, List.filter_cons, ih]
    by_cases hs : s.tokenHash = tokenHash <;> simp [hs]

theorem rowsOf_after {sessions : List Session} {r : Option Session}
    (h : rowsOf tokenHash sessions = r.toList) (e : Event) :
    rowsOf tokenHash (after idle tokenHash sessions e) = (rowAfter idle r e).toList := by
  cases e with
  | call now =>
    unfold after getSessionForToken
    rw [find?_rowsOf, h]
    cases r with
    | none => exact h
    | some s =>
      show rowsOf tokenHash (if s.refused idle now then (none, sessions) else _).2 = _
      unfold rowAfter
      by_cases hs : s.refused idle now = true
      · simp only [hs, if_true]
        exact h
      · simp only [hs, Bool.false_eq_true, if_false]
        rw [rowsOf_touch, h]
        rfl
  | purge now =>
    unfold after purgeExpired rowsOf
    rw [List.filter_comm]
    show (rowsOf tokenHash sessions).filter _ = _
    rw [h]
    cases r with
    | none => rfl
    | some s =>
      unfold rowAfter
      by_cases hs : s.purged idle now = true <;> simp [hs]

theorem row_concat (created ttl : Int) (es : List Event) (e : Event) :
    row idle tokenHash created ttl (es ++ [e]) =
      rowAfter idle (row idle tokenHash created ttl es) e := by
  simp [row]

theorem rowsOf_history {sessions : List Session} (hnew : rowsOf tokenHash sessions = [])
    (created ttl : Int) (es : List Event) :
    rowsOf tokenHash (history idle sessions tokenHash created ttl es) =
      (row idle tokenHash created ttl es).toList := by
  induction es using List.reverseRecOn with
  | nil =>
    show rowsOf tokenHash (sessions ++ [⟨tokenHash, created, created + ttl⟩]) = _
    unfold rowsOf at hnew ⊢
    rw [List.filter_append, hnew]
    simp [row]
  | append_singleton es e ih =>
    have hconcat : history idle sessions tokenHash created ttl (es ++ [e]) =
        after idle tokenHash (history idle sessions tokenHash created ttl es) e := by
      simp [history]
    rw [hconcat, row_concat]
    exact rowsOf_after ih e

end Rows

/-! ### Runs -/

section Runs

variable {idle : Int} {tokenHash : String} {created ttl : Int} {es : List Event}

@[simp] theorem lastCall_call (created : Int) (es : List Event) (now : Int) :
    lastCall created (es ++ [.call now]) = now := by
  simp [lastCall]

@[simp] theorem lastCall_purge (created : Int) (es : List Event) (now : Int) :
    lastCall created (es ++ [.purge now]) = lastCall created es := by
  simp [lastCall]

theorem lastCall_purges (before : List Event) {purges : List Event}
    (h : ∀ now, Event.call now ∉ purges) :
    lastCall created (before ++ purges) = lastCall created before := by
  induction purges using List.reverseRecOn with
  | nil => rw [List.append_nil]
  | append_singleton purges e ih =>
    cases e with
    | call now => exact absurd (List.mem_append_right _ (List.mem_singleton_self _)) (h now)
    | purge now =>
      rw [← List.append_assoc, lastCall_purge]
      exact ih fun now' hmem => h now' (List.mem_append_left _ hmem)

theorem Ordered.before {before rest : List Event} (h : Ordered created (before ++ rest)) :
    Ordered created before := by
  unfold Ordered at h ⊢
  rw [List.map_append, ← List.cons_append] at h
  exact (List.pairwise_append.mp h).1

theorem Ordered.le_of_mem {before rest : List Event} {e e' : Event}
    (h : Ordered created (before ++ rest)) (he : e ∈ before) (he' : e' ∈ rest) : e.now ≤ e'.now := by
  unfold Ordered at h
  rw [List.map_append, ← List.cons_append] at h
  exact (List.pairwise_append.mp h).2.2 _ (List.mem_cons_of_mem _ (List.mem_map_of_mem he)) _
    (List.mem_map_of_mem he')

theorem Ordered.created_le (h : Ordered created es) {e : Event} (he : e ∈ es) : created ≤ e.now :=
  (List.pairwise_cons.mp h).1 _ (List.mem_map_of_mem he)

theorem lastCall_le (h : Ordered created es) {now : Int} (hnow : created ≤ now)
    (hes : ∀ e ∈ es, e.now ≤ now) : lastCall created es ≤ now := by
  induction es using List.reverseRecOn with
  | nil => exact hnow
  | append_singleton es e ih =>
    cases e with
    | call now' =>
      rw [lastCall_call]
      exact hes _ (List.mem_append_right _ (List.mem_singleton_self _))
    | purge now' =>
      rw [lastCall_purge]
      exact ih h.before fun e he => hes e (List.mem_append_left _ he)

theorem Gaps.before {bound : Int} {before rest : List Event}
    (h : Gaps created bound (before ++ rest)) : Gaps created bound before :=
  fun earlier now later heq =>
    h earlier now (later ++ rest) (by rw [heq, List.append_assoc, List.cons_append])

theorem row_le_lastCall (h : Ordered created es) {s : Session}
    (hs : row idle tokenHash created ttl es = some s) :
    s.tokenHash = tokenHash ∧ s.expiresAt = created + ttl ∧
      s.lastSeenAt ≤ lastCall created es := by
  induction es using List.reverseRecOn generalizing s with
  | nil =>
    obtain rfl := Option.some.inj hs
    exact ⟨rfl, rfl, le_rfl⟩
  | append_singleton es e ih =>
    rw [row_concat] at hs
    cases hrow : row idle tokenHash created ttl es with
    | none =>
      rw [hrow] at hs
      cases hs
    | some s' =>
      obtain ⟨htoken, hexpires, hseen⟩ := ih h.before hrow
      rw [hrow] at hs
      cases e with
      | call now =>
        rw [lastCall_call]
        have hle : lastCall created es ≤ now := by
          apply lastCall_le h.before
          · exact h.created_le (List.mem_append_right _ (List.mem_singleton_self (Event.call now)))
          · exact fun e he => h.le_of_mem he (List.mem_singleton_self (Event.call now))
        simp only [rowAfter] at hs
        split at hs
        · obtain rfl := Option.some.inj hs
          exact ⟨htoken, hexpires, hseen.trans hle⟩
        · obtain rfl := Option.some.inj hs
          refine ⟨by rwa [touch_tokenHash], by rwa [touch_expiresAt], ?_⟩
          unfold Session.touch
          split
          · exact le_rfl
          · exact hseen.trans hle
      | purge now =>
        rw [lastCall_purge]
        simp only [rowAfter] at hs
        split at hs
        · cases hs
        · obtain rfl := Option.some.inj hs
          exact ⟨htoken, hexpires, hseen⟩

/-- **The lag.**  Before the expiry, with short gaps up to now, the session is there, and was
touched less than a minute before its last call. -/
theorem row_alive (tokenHash : String) (hordered : Ordered created es)
    (hgaps : Gaps created (idle - lastSeenThrottle) es) {now : Int} (hes : ∀ e ∈ es, e.now ≤ now)
    (hgap : now - lastCall created es ≤ idle - lastSeenThrottle) (hnow : now < created + ttl) :
    ∃ s, row idle tokenHash created ttl es = some s ∧ s.expiresAt = created + ttl ∧
      lastCall created es - s.lastSeenAt < lastSeenThrottle := by
  induction es using List.reverseRecOn generalizing now with
  | nil => exact ⟨_, rfl, rfl, by simp [lastCall, lastSeenThrottle, second]⟩
  | append_singleton es e ih =>
    have hbefore : ∀ e' ∈ es, e'.now ≤ e.now := fun e' he' =>
      hordered.le_of_mem he' (List.mem_singleton_self e)
    have hle : e.now ≤ now := hes e (List.mem_append_right _ (List.mem_singleton_self e))
    rw [row_concat]
    cases e with
    | call called =>
      rw [lastCall_call] at hgap ⊢
      have hgap' := hgaps es called [] rfl
      obtain ⟨s, hs, hexpires, hlag⟩ :=
        ih hordered.before hgaps.before hbefore hgap' (hle.trans_lt hnow)
      have hallowed : s.refused idle called = false := by
        simp only [Session.refused, hexpires, Bool.or_eq_false_iff, decide_eq_false_iff_not]
        simp only [Event.now] at hle
        omega
      refine ⟨s.touch called, ?_, by rwa [touch_expiresAt], ?_⟩
      · rw [hs]
        simp [rowAfter, hallowed]
      · unfold Session.touch
        split
        · show called - called < lastSeenThrottle
          simp [lastSeenThrottle, second]
        · omega
    | purge purged =>
      rw [lastCall_purge] at hgap ⊢
      simp only [Event.now] at hle hbefore
      obtain ⟨s, hs, hexpires, hlag⟩ := ih hordered.before hgaps.before hbefore
        (by omega) (hle.trans_lt hnow)
      have hkept : s.purged idle purged = false := by
        simp only [Session.purged, hexpires, Bool.or_eq_false_iff, decide_eq_false_iff_not]
        omega
      refine ⟨s, ?_, hexpires, hlag⟩
      rw [hs]
      simp [rowAfter, hkept]

theorem refused_mono {s : Session} {now later : Int} (h : s.refused idle now = true)
    (hle : now ≤ later) : s.refused idle later = true := by
  simp only [Session.refused, Bool.or_eq_true, decide_eq_true_eq] at h ⊢
  omega

theorem row_dead {before rest : List Event} {dead : Int}
    (hdead : ∀ s, row idle tokenHash created ttl before = some s → s.refused idle dead = true)
    (hrest : ∀ e ∈ rest, dead ≤ e.now) :
    ∀ s, row idle tokenHash created ttl (before ++ rest) = some s →
      s.refused idle dead = true := by
  induction rest using List.reverseRecOn with
  | nil =>
    rw [List.append_nil]
    exact hdead
  | append_singleton rest e ih =>
    have ih := ih fun e' he' => hrest e' (List.mem_append_left _ he')
    have hle := hrest e (List.mem_append_right _ (List.mem_singleton_self e))
    intro s hs
    rw [← List.append_assoc, row_concat] at hs
    cases hrow : row idle tokenHash created ttl (before ++ rest) with
    | none =>
      rw [hrow] at hs
      cases hs
    | some s' =>
      have hrefused := ih s' hrow
      rw [hrow] at hs
      cases e with
      | call now =>
        have hstay : rowAfter idle (some s') (.call now) = some s' :=
          if_pos (refused_mono hrefused hle)
        rw [hstay] at hs
        exact Option.some.inj hs ▸ hrefused
      | purge now =>
        simp only [rowAfter] at hs
        split at hs
        · cases hs
        · exact Option.some.inj hs ▸ hrefused

theorem row_idle {before : List Event} {now : Int}
    (hordered : Ordered created (before ++ [.call now]))
    (hgap : ¬ Gaps created idle (before ++ [.call now])) :
    ∀ s, row idle tokenHash created ttl before = some s → s.refused idle now = true := by
  unfold Gaps at hgap
  push Not at hgap
  obtain ⟨earlier, called, rest, heq, hlong⟩ := hgap
  have hdead : ∀ s, row idle tokenHash created ttl earlier = some s →
      s.refused idle called = true := by
    intro s hs
    obtain ⟨-, -, hseen⟩ := row_le_lastCall (heq ▸ hordered).before hs
    simp only [Session.refused, Bool.or_eq_true, decide_eq_true_eq]
    omega
  rcases List.eq_nil_or_concat rest with rfl | ⟨rest', e, rfl⟩
  · -- the gap is the one before this call
    obtain ⟨rfl, hcall⟩ := List.append_inj' heq rfl
    obtain ⟨rfl, -⟩ : now = called ∧ True := by simpa using hcall
    exact hdead
  · have hsplit : before ++ [.call now] = (earlier ++ .call called :: rest') ++ [e] := by
      rw [heq, List.concat_eq_append, List.append_assoc, List.cons_append]
    obtain ⟨rfl, -⟩ := List.append_inj' hsplit rfl
    have htail : Ordered created ((earlier ++ [.call called]) ++ (rest' ++ [.call now])) := by
      simpa using hordered
    have hlater : ∀ e ∈ rest' ++ [.call now], called ≤ e.now := fun e he =>
      htail.le_of_mem (List.mem_append_right _ (List.mem_singleton_self (Event.call called))) he
    intro s hs
    refine refused_mono (row_dead hdead (fun e he => ?_) s hs)
      (hlater (.call now) (List.mem_append_right _ (List.mem_singleton_self _)))
    rcases List.mem_cons.mp he with rfl | he
    · exact le_rfl
    · exact hlater e (List.mem_append_left _ he)

theorem getSession_row {sessions : List Session} (hnew : rowsOf tokenHash sessions = [])
    (es : List Event) (now : Int) :
    (getSessionForToken idle (history idle sessions tokenHash created ttl es) tokenHash now).1 =
      (row idle tokenHash created ttl es).bind fun s =>
        if s.refused idle now then none else some (s.touch now) := by
  unfold getSessionForToken
  rw [find?_rowsOf, rowsOf_history hnew]
  cases row idle tokenHash created ttl es with
  | none => rfl
  | some s =>
    show (if s.refused idle now then _ else _ : Option Session × List Session).1 = _
    by_cases hs : s.refused idle now = true <;> simp [hs]

theorem exists_first_call {rest : List Event} {called : Int} (h : Event.call called ∈ rest) :
    ∃ purges first later, rest = purges ++ .call first :: later ∧
      ∀ now, Event.call now ∉ purges := by
  induction rest with
  | nil => cases h
  | cons e rest ih =>
    cases e with
    | call first => exact ⟨[], first, rest, rfl, nofun⟩
    | purge now =>
      have hrest : Event.call called ∈ rest := by simpa using h
      obtain ⟨purges, first, later, rfl, hnone⟩ := ih hrest
      exact ⟨.purge now :: purges, first, later, rfl, by simpa using hnone⟩

/-- **The life of a session.**  Along every history of calls of a new token and purges, with time
not going back: if every call follows the one before it (or the creation) within the idle timeout
less a minute, each call before the expiry gets the session, and no purge before the expiry and
before a later call deletes it; and a call at or after the expiry, or after a gap above the idle
timeout, gets nothing. -/
theorem session_lifetime (idle : Int) (sessions : List Session) (tokenHash : String)
    (hnew : ∀ s ∈ sessions, s.tokenHash ≠ tokenHash) (created ttl : Int) (es : List Event)
    (hordered : Ordered created es) :
    (Gaps created (idle - lastSeenThrottle) es →
      (∀ before now rest, es = before ++ .call now :: rest → now < created + ttl →
        ∃ s, (getSessionForToken idle (history idle sessions tokenHash created ttl before)
            tokenHash now).1 = some s ∧ s.tokenHash = tokenHash) ∧
      (∀ before now rest, es = before ++ .purge now :: rest → now < created + ttl →
        (∃ called, Event.call called ∈ rest) →
        ∃ s ∈ history idle sessions tokenHash created ttl (before ++ [.purge now]),
          s.tokenHash = tokenHash)) ∧
    (∀ before now rest, es = before ++ .call now :: rest →
      created + ttl ≤ now ∨ ¬ Gaps created idle (before ++ [.call now]) →
      (getSessionForToken idle (history idle sessions tokenHash created ttl before)
        tokenHash now).1 = none) := by
  have hrows : rowsOf tokenHash sessions = [] := by
    rw [rowsOf, List.filter_eq_nil_iff]
    intro s hs
    simpa using hnew s hs
  refine ⟨fun hgaps => ⟨?_, ?_⟩, ?_⟩
  · rintro before now rest rfl hnow
    have hgap := hgaps before now rest rfl
    obtain ⟨s, hs, hexpires, hlag⟩ := row_alive tokenHash hordered.before hgaps.before
      (fun e he => hordered.le_of_mem he List.mem_cons_self) hgap hnow
    have hallowed : s.refused idle now = false := by
      simp only [Session.refused, hexpires, Bool.or_eq_false_iff, decide_eq_false_iff_not]
      omega
    refine ⟨s.touch now, ?_, ?_⟩
    · rw [getSession_row hrows, hs]
      simp [hallowed]
    · rw [touch_tokenHash]
      exact (row_le_lastCall hordered.before hs).1
  · rintro before now rest rfl hnow ⟨called, hcalled⟩
    obtain ⟨purges, first, later, rfl, hnone⟩ := exists_first_call hcalled
    -- the next call is not far from the one before the purge
    have hgap := hgaps (before ++ .purge now :: purges) first later (by simp)
    have hpurges : ∀ t, Event.call t ∉ Event.purge now :: purges := by simpa using hnone
    rw [lastCall_purges before hpurges] at hgap
    have hnext : now ≤ first := by
      have htail : Ordered created ((before ++ [.purge now]) ++ (purges ++ .call first :: later)) := by
        simpa using hordered
      exact htail.le_of_mem (List.mem_append_right _ (List.mem_singleton_self (Event.purge now)))
        (List.mem_append_right _ (List.mem_cons_self (a := Event.call first)))
    obtain ⟨s, hs, hexpires, hlag⟩ := row_alive tokenHash hordered.before hgaps.before
      (fun e he => hordered.le_of_mem he List.mem_cons_self)
      (show now - lastCall created before ≤ idle - lastSeenThrottle by omega) hnow
    have hkept : s.purged idle now = false := by
      simp only [Session.purged, hexpires, Bool.or_eq_false_iff, decide_eq_false_iff_not]
      omega
    have hrow : row idle tokenHash created ttl (before ++ [.purge now]) = some s := by
      rw [row_concat, hs]
      simp [rowAfter, hkept]
    have hmem : s ∈ rowsOf tokenHash
        (history idle sessions tokenHash created ttl (before ++ [.purge now])) := by
      rw [rowsOf_history hrows, hrow]
      exact List.mem_singleton_self s
    exact ⟨s, List.mem_of_mem_filter hmem, by simpa using (List.mem_filter.mp hmem).2⟩
  · rintro before now rest rfl hend
    have hrefused : ∀ s, row idle tokenHash created ttl before = some s →
        s.refused idle now = true := by
      rcases hend with hexpired | hlong
      · intro s hs
        obtain ⟨-, hexpires, -⟩ := row_le_lastCall hordered.before hs
        simp only [Session.refused, hexpires, Bool.or_eq_true, decide_eq_true_eq]
        exact .inl hexpired
      · have hcons : before ++ .call now :: rest = before ++ [.call now] ++ rest := by simp
        exact row_idle (hcons ▸ hordered).before hlong
    rw [getSession_row hrows]
    cases hrow : row idle tokenHash created ttl before with
    | none => rfl
    | some s => simp [hrefused s hrow]

end Runs

def minute : Int := 60 * second

def sampleEvents : List Event := [.call (25 * minute), .purge (40 * minute), .call (50 * minute)]

theorem session_lifetime_sample :
    ∃ s ∈ history (30 * minute) [] "h" 0 (60 * minute) [.call (25 * minute), .purge (40 * minute)],
      s.tokenHash = "h" := by
  have hgaps : Gaps 0 (30 * minute - lastSeenThrottle) sampleEvents := by
    intro before now rest heq
    rcases before with _ | ⟨e₁, _ | ⟨e₂, _ | ⟨e₃, before⟩⟩⟩ <;> simp [sampleEvents] at heq
    · obtain ⟨rfl, -⟩ := heq
      decide
    · obtain ⟨rfl, rfl, rfl, -⟩ := heq
      decide
  exact ((session_lifetime (30 * minute) [] "h" nofun 0 (60 * minute) sampleEvents
    (by unfold Ordered; decide)).1 hgaps).2 [.call (25 * minute)] (40 * minute)
    [.call (50 * minute)] rfl (by decide) ⟨_, List.mem_cons_self⟩

/-- A purge at the expiry, between two calls that are a minute apart, deletes the session. -/
theorem purge_expired_session :
    Ordered 0 [.call (5 * minute), .purge (6 * minute), .call (6 * minute)] ∧
    Gaps 0 (30 * minute - lastSeenThrottle)
      [.call (5 * minute), .purge (6 * minute), .call (6 * minute)] ∧
    history (30 * minute) [] "h" 0 (6 * minute) [.call (5 * minute), .purge (6 * minute)] = [] := by
  refine ⟨by unfold Ordered; decide, ?_, by decide⟩
  intro before now rest heq
  rcases before with _ | ⟨e₁, _ | ⟨e₂, _ | ⟨e₃, before⟩⟩⟩ <;> simp at heq
  · obtain ⟨rfl, -⟩ := heq
    decide
  · obtain ⟨rfl, rfl, rfl, -⟩ := heq
    decide

end SessionLifetime

end Opngms
